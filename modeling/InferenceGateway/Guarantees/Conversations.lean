import InferenceGateway.Guarantees.ThreadIds

/-!
# Conversations over many requests

The gateway keeps nothing between two requests of a thread. The client learns
the id from a response, in a header, in the JSON object or in the event that
comes before a stream, and names it in the body of its next request.

A `Conversation` is a run of that protocol: each turn is a request the gateway
accepts, and from the second on its body names the id that some carrier of the
response before it told (`Tells`). What is told is read by the client as JSON or
as an event, so that the claim is about the bytes on the wire and not about the
values the gateway holds.

- `Tells.eq`: whatever a carrier tells is the id the gateway gave the request.
- `thread_continues`: however many requests a conversation has, and wherever the
  client has read the id each time, all of them belong to one thread, and only
  the first can have started it.
-/

namespace InferenceGateway

open Lib

/-! ## Stripping twice -/

namespace Lib.UnicodeData

variable {U : UnicodeData} {s : Text}

theorem strip_strip (U : UnicodeData) (s : Text) : U.strip (U.strip s) = U.strip s := by
  obtain ⟨lead, trail, hs, hlead, htrail⟩ := U.exists_strip s
  conv_rhs => rw [hs]
  exact (U.strip_append_append hlead htrail).symm

/-- There is nothing to strip from a text without white space. -/
theorem strip_of_plain (h : ∀ c ∈ s, U.isSpace c = false) : U.strip s = s := by
  obtain ⟨lead, trail, hs, hlead, htrail⟩ := U.exists_strip s
  have hnone : ∀ {t : Text}, (∀ c ∈ t, c ∈ s) → (∀ c ∈ t, U.isSpace c = true) → t = [] := by
    intro t hsub hspace
    refine List.eq_nil_iff_forall_not_mem.mpr fun c hc => ?_
    exact Bool.false_ne_true ((h c (hsub c hc)).symm.trans (hspace c hc))
  have hl : lead = [] := hnone (fun c hc => by rw [hs]; simp [hc]) hlead
  have ht : trail = [] := hnone (fun c hc => by rw [hs]; simp [hc]) htrail
  rw [hl, ht, List.nil_append, List.append_nil] at hs
  exact hs.symm

end Lib.UnicodeData

namespace Validation

open Requests (injectThreadHeaders conversationIdHeader)
open Responses (IsRead mergeConversation sseConversationPrefix mergedObject)

variable {I : Interpreter} {x : Payload} {id : Text}

/-! ## What a client is told -/

/-- The client can read the id in a response to the request. -/
inductive Tells (L : Limits) (x : Payload) (id : Text) : Prop where
  | header (h : Headers) (hid : (injectThreadHeaders x h).get? conversationIdHeader = some id)
  | object (content b : Bytes) (data : List (Text × Json))
      (hb : mergeConversation (.python L) content x = .ok (some b)) (hdata : IsRead b (.obj data))
      (hid : getItem (field "conversation_id") data = some (.str id))
  | event (text : Bytes) (data : List (Text × Json))
      (hp : sseConversationPrefix (.python L) x = .ok (ascii "data: " ++ text ++ ascii "\n\n"))
      (hdata : IsRead text (.obj data))
      (hid : getItem (field "conversation_id") data = some (.str id))

/-- Wherever the client reads an id in a response, in a header, in the object or in the
event, it is the id of the thread. -/
theorem Tells.eq {L : Limits} (h : Tells L x id) : id = x.conversationId := by
  -- by the carrier, each of which is read as what was put into it
  cases h with
  | header h hid =>
    rw [Responses.get?_conversationIdHeader] at hid
    exact (Option.some.inj hid).symm
  | object content b data hb hdata hid =>
    obtain ⟨data', hmerged⟩ := Responses.isRead_of_merged hb
    cases hdata.unique hmerged
    rw [Responses.getItem_mergedObject, if_pos rfl] at hid
    exact (Json.str.inj (Option.some.inj hid)).symm
  | event text data hp hdata hid =>
    obtain ⟨text', heq, hevent⟩ := Responses.event_of_prefix hp
    have htext : text = text' := List.append_cancel_left (List.append_cancel_right heq)
    subst htext
    cases hdata.unique hevent
    exact (Json.str.inj (Option.some.inj hid)).symm

/-! ## Turns -/

/-- A request that was accepted. -/
structure Turn (I : Interpreter) where
  post : ChatPost
  submission : Submission
  payload : Payload
  accepted : acceptChat I post = .ok (submission, payload)

/-- The body calls the thread so. -/
def Names (I : Interpreter) (body : Bytes) (raw : Text) : Prop :=
  ∃ data, I.codec.loads body = .ok (.obj data) ∧
    getItem (field "conversation_id") data = some (.str raw)

/-- The requests of one client, the newest first. Each names the thread as a response to
the one before it does, with white space around it if the client likes. -/
inductive Conversation (I : Interpreter) : List (Turn I) → Prop where
  | first (t : Turn I) : Conversation I [t]
  | next {t t' : Turn I} {ts : List (Turn I)} {id raw : Text} (h : Conversation I (t :: ts))
      (htold : Tells I.toLimits t.payload id) (hpad : Padded I.unicode id raw)
      (hnames : Names I t'.post.body raw) : Conversation I (t' :: t :: ts)

/-- An id that is taken as it is when it is named. -/
def Settled (U : UnicodeData) (id : Text) : Prop := U.strip id = id ∧ id ≠ []

theorem settled_resolve {U : UnicodeData} {token : Text} {data : List (Text × Json)}
    (hgenerated : ∀ c ∈ Text.ofString "conv_" ++ token, U.isSpace c = false) :
    Settled U (resolveConversationId U token data).1 := by
  have hmade : Settled U (.ofString "conv_" ++ token) :=
    ⟨U.strip_of_plain hgenerated, List.cons_ne_nil _ _⟩
  unfold resolveConversationId
  split
  · split
    · next hne => exact ⟨U.strip_strip _, hne⟩
    · exact hmade
  · exact hmade

theorem settled_of_turn (t : Turn I)
    (hgenerated : ∀ c ∈ Text.ofString "conv_" ++ t.post.token, I.unicode.isSpace c = false) :
    Settled I.unicode t.payload.conversationId := by
  obtain ⟨data, -, -, -, -, hresolve, -⟩ := acceptChat_ok t.accepted
  have hid : t.payload.conversationId =
      (resolveConversationId I.unicode t.post.token data).1 := congrArg Prod.fst hresolve
  rw [hid]
  exact settled_resolve hgenerated

/-- A turn that names a settled id belongs to its thread, and did not start it. -/
theorem Turn.of_names (t : Turn I) {raw : Text} (hid : Settled I.unicode id)
    (hpad : Padded I.unicode id raw) (hnames : Names I t.post.body raw) :
    t.payload.conversationId = id ∧ t.payload.isNewConversation = false := by
  obtain ⟨data, hloads, -, -, -, hresolve, -⟩ := acceptChat_ok t.accepted
  obtain ⟨data', hloads', hraw⟩ := hnames
  cases hloads.symm.trans hloads'
  obtain ⟨lead, trail, rfl, hlead, htrail⟩ := hpad
  have hstrip : I.unicode.strip (lead ++ id ++ trail) = id :=
    (I.unicode.strip_append_append hlead htrail).trans hid.1
  rw [resolveConversationId, hraw] at hresolve
  dsimp only at hresolve
  rw [hstrip, if_pos hid.2] at hresolve
  exact Prod.mk.inj hresolve

/-- A turn that did not start its thread has named it. -/
theorem Turn.names (t : Turn I) (h : t.payload.isNewConversation = false) :
    ∃ raw, Padded I.unicode t.payload.conversationId raw ∧ Names I t.post.body raw := by
  obtain ⟨data, hloads, -, -, -, hresolve, -⟩ := acceptChat_ok t.accepted
  unfold resolveConversationId at hresolve
  split at hresolve
  · next raw hraw =>
    split at hresolve
    · have hid : t.payload.conversationId = I.unicode.strip raw := (Prod.mk.inj hresolve).1
      exact ⟨raw, hid ▸ I.unicode.exists_strip raw, data, hloads, hraw⟩
    · cases h.symm.trans (Prod.mk.inj hresolve).2
  · cases h.symm.trans (Prod.mk.inj hresolve).2

/-- **A thread continues** for as long as its client names it: all requests of a
conversation belong to one thread, and no request after the first starts one. -/
theorem thread_continues {ts : List (Turn I)} (h : Conversation I ts)
    (hgenerated : ∀ t ∈ ts, ∀ c ∈ Text.ofString "conv_" ++ t.post.token,
      I.unicode.isSpace c = false) :
    ∃ id, (∀ t ∈ ts, t.payload.conversationId = id) ∧
      ∀ t ∈ ts.dropLast, t.payload.isNewConversation = false := by
  -- on the turns; the id a turn names is the one the turn before was told, which is its
  -- thread's
  induction h with
  | first t =>
    refine ⟨t.payload.conversationId, fun u hu => ?_, fun u hu => absurd hu List.not_mem_nil⟩
    rw [List.mem_singleton.mp hu]
  | @next t t' ts id raw h htold hpad hnames ih =>
    obtain ⟨hlast, hold⟩ := List.forall_mem_cons.mp hgenerated
    obtain ⟨id', hsame, hnew⟩ := ih hold
    have hid : id = t.payload.conversationId := htold.eq
    have hsettled : Settled I.unicode id := hid ▸ settled_of_turn t (hold t List.mem_cons_self)
    obtain ⟨hthis, hcontinued⟩ := t'.of_names hsettled hpad hnames
    have hthread : t.payload.conversationId = id' := hsame t List.mem_cons_self
    refine ⟨id', List.forall_mem_cons.mpr ⟨hthis.trans (hid.trans hthread), hsame⟩, ?_⟩
    rw [List.dropLast_cons_of_ne_nil (List.cons_ne_nil t ts)]
    exact List.forall_mem_cons.mpr ⟨hcontinued, hnew⟩

/-- A body that calls the thread ` t `. -/
def spaced : Bytes := ascii
  "\x7b\"model\": \"m\", \"messages\": [\x7b\x7d], \"conversation_id\": \" t \"\x7d"

theorem spaced_accepted : ∃ sub x, acceptChat interpreter (postOf spaced) = .ok (sub, x) ∧
    x.isNewConversation = false := by
  have haccept : (match acceptChat interpreter (postOf spaced) with
      | .ok (_, x) => !x.isNewConversation
      | .error _ => false) = true := by decide +kernel
  split at haccept
  · next sub x h => exact ⟨sub, x, h, Bool.not_eq_true' _ ▸ haccept⟩
  · cases haccept

theorem thread_continues_spaced : ∃ t t' : Turn interpreter, Conversation interpreter [t', t] ∧
    ∃ id, (∀ u ∈ [t', t], u.payload.conversationId = id) ∧
      ∀ u ∈ [t', t].dropLast, u.payload.isNewConversation = false := by
  obtain ⟨sub, x, haccept, hcontinued⟩ := spaced_accepted
  let t : Turn interpreter := ⟨postOf spaced, sub, x, haccept⟩
  obtain ⟨raw, hpad, hnames⟩ := t.names hcontinued
  have hturns : Conversation interpreter [t, t] :=
    .next (.first t) (.header .empty (Responses.get?_conversationIdHeader x .empty)) hpad hnames
  have hplain : ((Text.ofString "conv_" ++ field "0123456789abcdef0123456789abcdef").all fun c =>
      !interpreter.unicode.isSpace c) = true := by decide +kernel
  refine ⟨_, _, hturns, thread_continues hturns fun u hu c hc => ?_⟩
  have hpost : u.post.token = field "0123456789abcdef0123456789abcdef" := by
    rcases List.mem_pair.mp hu with rfl | rfl <;> rfl
  rw [hpost] at hc
  exact Bool.not_eq_true' _ ▸ List.all_eq_true.mp hplain c hc

end Validation

end InferenceGateway
