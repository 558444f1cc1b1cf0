import InferenceGateway.Guarantees.Framing
import InferenceGateway.Guarantees.Merging
import InferenceGateway.Guarantees.Totality

/-!
# Thread ids as header values

A thread id is whatever string the client put into the body, stripped of white space, and
goes into a header of every upstream request, a header of the response, a JSON object and an
event. Each of the four has its own alphabet: the upstream request is the narrowest, because
`httpx` encodes header values as ASCII and `h11` allows no white space in them but blanks and
tabs between other characters, and no `NUL`.

## Main results

- `threadValid_iff_sendable`: the other three places ask nothing more of an id.
- `threadValid_iff`: all of them can be built and sent, with the same id in them, exactly if the
  client's string is such a text with white space around it.
-/

namespace InferenceGateway

open Lib

/-- A character that may stand in a header value that is sent: ASCII, but no `NUL`, line feed,
vertical tab, form feed or carriage return. -/
def isFieldChar (c : CodePoint) : Bool :=
  decide (c.val < 0x80) && decide (c.val ≠ 0) && !(decide (0x0A ≤ c.val) && decide (c.val ≤ 0x0D))

/-- A blank or a tab. -/
def isBlank (c : CodePoint) : Bool := decide (c.val = 0x20) || decide (c.val = 0x09)

/-- A header value that can be sent: what `httpx` encodes and the pattern `field_value` of
`h11` matches. -/
structure Sendable (v : Text) : Prop where
  chars : ∀ c ∈ v, isFieldChar c = true
  first : ∀ c, v.head? = some c → isBlank c = false
  last : ∀ c, v.getLast? = some c → isBlank c = false

/-- A text without blanks and tabs. -/
theorem sendable_of_subset {v w : Text} (hsub : v ⊆ w)
    (hw : (w.all fun c => isFieldChar c && !isBlank c) = true) : Sendable v := by
  have hall : ∀ c ∈ v, isFieldChar c = true ∧ isBlank c = false := fun c hc => by
    simpa using List.all_eq_true.mp hw c (hsub hc)
  exact ⟨fun c hc => (hall c hc).1, fun c hc => (hall c (List.mem_of_mem_head? hc)).2,
    fun c hc => (hall c (List.mem_of_getLast? hc)).2⟩

theorem Sendable.lt {v : Text} (h : Sendable v) {c : CodePoint} (hc : c ∈ v) : c.val < 0x80 := by
  have hfield := h.chars c hc
  rw [isFieldChar, Bool.and_eq_true, Bool.and_eq_true] at hfield
  exact of_decide_eq_true hfield.1.1

theorem Sendable.exists_chars {v : Text} (h : Sendable v) : ∃ cs, v = .ofChars cs := by
  have hchars : v.toChars? ≠ none := by
    intro hnone
    obtain ⟨c, hc, hsurrogate⟩ := Text.toChars?_eq_none_iff.mp hnone
    have hlt := h.lt hc
    unfold CodePoint.isSurrogate at hsurrogate
    have hle := of_decide_eq_true (Bool.and_eq_true_iff.mp hsurrogate).1
    omega
  obtain ⟨cs, hcs⟩ := Option.ne_none_iff_exists'.mp hchars
  exact ⟨cs, (Text.ofChars_of_toChars? hcs).symm⟩

namespace Responses

open Requests (injectThreadHeaders conversationIdHeader isNewConversationHeader
  newConversationValue)

variable {L : Limits} {x : Payload} {content : Bytes}

/-- Nothing can fail because of the thread id, and it is the same wherever it is told. -/
structure ThreadValid (L : Limits) (x : Payload) : Prop where
  /-- To whatever headers they are added, the values of the thread headers can be sent. -/
  sendable : ∀ h, ∀ n ∈ [conversationIdHeader, isNewConversationHeader],
    ∃ v, (injectThreadHeaders x h).get? n = some v ∧ Sendable v
  /-- If the buffered response can be built with any id at all, it is. -/
  buffered : ∀ status fields content id out,
    bufferedRelay (.python L) { x with conversationId := id } status fields content = .ok out →
      ∃ out', bufferedRelay (.python L) x status fields content = .ok out'
  /-- If the streaming response and its event can be built with any id at all, they are. -/
  streamed : ∀ status fields id out,
    streamRelay (.python L) { x with conversationId := id } status fields = .ok out →
      ∃ out', streamRelay (.python L) x status fields = .ok out'
  header : ∀ h, (injectThreadHeaders x h).get? conversationIdHeader = some x.conversationId
  merged : ∀ content b, mergeConversation (.python L) content x = .ok (some b) →
    ∃ data, IsRead b (.obj data) ∧
      getItem (field "conversation_id") data = some (.str x.conversationId)
  event : ∀ p, sseConversationPrefix (.python L) x = .ok p →
    ∃ text data, p = ascii "data: " ++ text ++ ascii "\n\n" ∧ IsRead text (.obj data) ∧
      getItem (field "conversation_id") data = some (.str x.conversationId)

/-! ## The headers -/

theorem get?_conversationIdHeader (x : Payload) (h : Headers) :
    (injectThreadHeaders x h).get? conversationIdHeader = some x.conversationId := by
  have hne : conversationIdHeader ≠ isNewConversationHeader := by decide
  unfold injectThreadHeaders
  rw [Dict.get?_set_of_ne hne, Dict.get?_set, if_pos rfl]

theorem get?_isNewConversationHeader (x : Payload) (h : Headers) :
    (injectThreadHeaders x h).get? isNewConversationHeader = some (newConversationValue x) := by
  unfold injectThreadHeaders
  rw [Dict.get?_set, if_pos rfl]

theorem sendable_newConversationValue (x : Payload) : Sendable (newConversationValue x) := by
  unfold newConversationValue
  split <;> exact sendable_of_subset (List.Subset.refl _) (by decide +kernel)

/-! ## The response and the event -/

/-- An id that can be sent can be encoded as latin-1. -/
theorem isLatin1_of_sendable {v : Text} (h : Sendable v) : isLatin1 v = true :=
  List.all_eq_true.mpr fun _ hc => decide_eq_true ((h.lt hc).trans (by decide))

/-- A thread id that can be sent keeps no response from being built. -/
theorem bufferedRelay_of_other (hid : Sendable x.conversationId) {status : ℤ}
    {fields : List Field} {id : Text} {out : ResponseHead × Bytes}
    (h : bufferedRelay (.python L) { x with conversationId := id } status fields content =
      .ok out) :
    ∃ out', bufferedRelay (.python L) x status fields content = .ok out' := by
  obtain ⟨hmerged, -, hfields⟩ := bufferedRelay_ok_iff.mp ⟨out, h⟩
  have hmergeable : Mergeable L x content := by
    intro s hs
    obtain ⟨hdigits, hdepth, hobject⟩ := merged_iff.mp hmerged s hs
    refine ⟨hdigits, hdepth, fun data hdata => ?_⟩
    obtain ⟨-, hone, hkept⟩ := hobject data hdata
    obtain ⟨cs, hcs⟩ := hid.exists_chars
    refine ⟨fun c hc => ?_, hone, hkept⟩
    have hmem : c ∈ Text.ofChars cs := hcs ▸ hc
    exact Text.isSurrogate_of_mem_ofChars hmem
  exact bufferedRelay_ok_iff.mpr ⟨merged_iff.mpr hmergeable, isLatin1_of_sendable hid, hfields⟩

/-- **No announcement fails because of the id:** where a stream can be announced under
some sendable id, it can be under the request's own. -/
theorem streamRelay_of_other (hid : Sendable x.conversationId) {status : ℤ}
    {fields : List Field} {id : Text} {out : ResponseHead × Bytes}
    (h : streamRelay (.python L) { x with conversationId := id } status fields = .ok out) :
    ∃ out', streamRelay (.python L) x status fields = .ok out' := by
  obtain ⟨⟨p, hp⟩, -, hfields⟩ := streamRelay_ok_iff.mp ⟨out, h⟩
  obtain ⟨text, htext, -⟩ := exists_dumps_of_prefix hp
  have hdepth : 1 ≤ L.dumpsDepth :=
    ((Codec.python_dumps_ok_iff (short_conversationEvent _ L.digits)).mp ⟨text, htext⟩).1
  obtain ⟨cs, hcs⟩ := hid.exists_chars
  obtain ⟨text', hprefix, -⟩ := sseConversationPrefix_ok hcs hdepth
  exact streamRelay_ok_iff.mpr ⟨⟨_, hprefix⟩, isLatin1_of_sendable hid, hfields⟩

/-- What stands in the event is read as its object, whatever the id. -/
theorem event_of_prefix {p : Bytes} (h : sseConversationPrefix (.python L) x = .ok p) :
    ∃ text, p = ascii "data: " ++ text ++ ascii "\n\n" ∧ IsRead text (conversationEvent x) := by
  obtain ⟨text, htext, hp⟩ := exists_dumps_of_prefix h
  obtain ⟨cs, hcs, hdecode, hexcess⟩ := Codec.python_dumps_ok htext
  refine ⟨text, hp, cs, L.digits, L.dumpsDepth, hdecode, ?_⟩
  exact (Json.loads_written_iff (wellFormed_conversationEvent x)
    (short_conversationEvent x L.digits) hcs).mpr ⟨rfl, Json.nesting_le_of_excess hexcess⟩

/-- Of the places an id is written to, only the upstream header asks more of it than
that it can be told: whatever can be sent there can be sent back in all of them. -/
theorem threadValid_iff_sendable : ThreadValid L x ↔ Sendable x.conversationId := by
  constructor
  · intro h
    obtain ⟨v, hv, hsendable⟩ := h.sendable .empty _ List.mem_cons_self
    rw [get?_conversationIdHeader] at hv
    cases hv
    exact hsendable
  · intro h
    -- the upstream request is the narrowest place; the other four follow
    refine ⟨fun headers n hn => ?_, fun status fields content id out => bufferedRelay_of_other h,
      fun status fields id out => streamRelay_of_other h, get?_conversationIdHeader x,
      fun content b hb => ?_, fun p hp => ?_⟩
    · rcases List.mem_pair.mp hn with rfl | rfl
      · exact ⟨_, get?_conversationIdHeader x headers, h⟩
      · exact ⟨_, get?_isNewConversationHeader x headers, sendable_newConversationValue x⟩
    · obtain ⟨data, hdata⟩ := isRead_of_merged hb
      refine ⟨mergedObject x data, hdata, ?_⟩
      rw [getItem_mergedObject, if_pos rfl]
    · obtain ⟨text, htext, hjson⟩ := event_of_prefix hp
      exact ⟨text, _, htext, hjson, rfl⟩

end Responses

namespace Validation

open Requests (attempt filterHeaders)

variable {I : Interpreter} {r : ChatPost} {sub : Submission} {x : Payload}

/-- The text, with white space around it. -/
def Padded (U : UnicodeData) (mid raw : Text) : Prop :=
  ∃ lead trail, raw = lead ++ mid ++ trail ∧ (∀ c ∈ lead, U.isSpace c = true) ∧
    ∀ c ∈ trail, U.isSpace c = true

/-- Where the body names a thread, the name is a text that can be sent, with white space
around it. -/
def PlainThread (I : Interpreter) (body : Bytes) : Prop :=
  ∀ data raw, I.codec.loads body = .ok (.obj data) →
    getItem (field "conversation_id") data = some (.str raw) →
      ∃ mid, Padded I.unicode mid raw ∧ Sendable mid

/-- Blanks and tabs are white space, so that a stripped text has none at its ends. -/
theorem sendable_strip_iff {U : UnicodeData} {raw : Text}
    (hblank : ∀ c, isBlank c = true → U.isSpace c = true) :
    Sendable (U.strip raw) ↔ ∃ mid, Padded U mid raw ∧ Sendable mid := by
  constructor
  · intro h
    exact ⟨U.strip raw, U.exists_strip raw, h⟩
  · rintro ⟨mid, ⟨lead, trail, rfl, hlead, htrail⟩, hmid⟩
    -- what is not white space is neither a blank nor a tab
    have hends : ∀ c, U.isSpace c = false → isBlank c = false := by
      intro c hc
      refine Bool.eq_false_iff.mpr fun hb => ?_
      rw [hblank c hb] at hc
      cases hc
    refine ⟨fun c hc => ?_, fun c hc => hends c (U.isSpace_of_head?_strip hc),
      fun c hc => hends c (U.isSpace_of_getLast?_strip hc)⟩
    rw [U.strip_append_append hlead htrail] at hc
    exact hmid.chars c (U.mem_of_mem_strip hc)

/-- An id the gateway makes up. -/
theorem sendable_generated {token : Text} (htoken : ∀ c ∈ token, c ∈ field "0123456789abcdef") :
    Sendable (.ofString "conv_" ++ token) := by
  have hsub : .ofString "conv_" ++ token ⊆ .ofString "conv_" ++ field "0123456789abcdef" :=
    List.append_subset.mpr ⟨List.subset_append_left _ _, fun c hc =>
      List.mem_append_right _ (htoken c hc)⟩
  exact sendable_of_subset hsub (by decide +kernel)

theorem sendable_resolveConversationId_iff {U : UnicodeData} {token : Text}
    {data : List (Text × Json)} (htoken : ∀ c ∈ token, c ∈ field "0123456789abcdef") :
    Sendable (resolveConversationId U token data).1 ↔
      ∀ raw, getItem (field "conversation_id") data = some (.str raw) → Sendable (U.strip raw) := by
  unfold resolveConversationId
  split
  · next raw hraw =>
    have honly : (∀ raw', some (Json.str raw) = some (.str raw') → Sendable (U.strip raw')) ↔
        Sendable (U.strip raw) := by
      constructor
      · exact fun h => h raw rfl
      · rintro h raw' heq
        cases heq
        exact h
    rw [hraw, honly]
    split
    · rfl
    -- blank, so an id is generated, and that one can always be sent
    · next hblank =>
      rw [not_not.mp hblank]
      refine iff_of_true (sendable_generated htoken) ⟨?_, ?_, ?_⟩ <;> rintro _ ⟨⟩
  · next hother =>
    exact iff_of_true (sendable_generated htoken) fun raw hraw => absurd hraw (hother raw)

/-- The two headers hold what `injectThreadHeaders` put there, in every upstream request. -/
theorem get?_of_attempt {J : Codec} {D : Deployment} {p : PendingRequest} {headers : Headers}
    {target : BackendTarget} {post : Post} (h : attempt J D p x headers target = .ok post) :
    post.headers.get? Requests.conversationIdHeader = some x.conversationId ∧
      post.headers.get? Requests.isNewConversationHeader =
        some (Requests.newConversationValue x) := by
  obtain ⟨key, hheaders⟩ : ∃ key, post.headers = Requests.sentHeaders p x headers key := by
    obtain ⟨body, -, ⟨-, rfl⟩ | ⟨key, body', -, -, -, rfl⟩⟩ := Requests.attempt_ok h
    · exact ⟨none, rfl⟩
    · exact ⟨some key, rfl⟩
  rw [hheaders]
  exact ⟨Responses.get?_conversationIdHeader x _, Responses.get?_isNewConversationHeader x _⟩

/-- **Thread ids.** Let the client library refuse a header value exactly if it cannot be sent.
Of an accepted request nothing can fail because of its thread id, and the id is the same
wherever it is told, if and only if what the body calls the thread is a text that can be sent,
with white space around it. Under the same condition, and no other, neither thread header of
its upstream requests is refused. -/
theorem threadValid_iff {refuses : Text → Prop} (hrefuses : ∀ v, refuses v ↔ ¬ Sendable v)
    (hblank : ∀ c, isBlank c = true → I.unicode.isSpace c = true)
    (htoken : ∀ c ∈ r.token, c ∈ field "0123456789abcdef") (h : acceptChat I r = .ok (sub, x)) :
    (Responses.ThreadValid I.toLimits x ↔ PlainThread I r.body) ∧
      ∀ D p target post,
        attempt I.codec D p x (filterHeaders x.clientHeaders) target = .ok post →
          ((∀ n ∈ [Requests.conversationIdHeader, Requests.isNewConversationHeader], ∀ v,
            post.headers.get? n = some v → ¬ refuses v) ↔ PlainThread I r.body) := by
  obtain ⟨data, hloads, -, -, -, hresolve, -⟩ := acceptChat_ok h
  have hid : x.conversationId = (resolveConversationId I.unicode r.token data).1 :=
    congrArg Prod.fst hresolve
  -- the id of the call is the client's string without the white space
  have hplain : Sendable x.conversationId ↔ PlainThread I r.body := by
    rw [hid, sendable_resolveConversationId_iff htoken]
    constructor
    · intro hsendable data' raw hloads' hraw
      cases hloads.symm.trans hloads'
      exact (sendable_strip_iff hblank).mp (hsendable raw hraw)
    -- what is refused is what is not sendable, so one refusal tells
    · intro hall raw hraw
      exact (sendable_strip_iff hblank).mpr (hall data raw hloads hraw)
  refine ⟨Responses.threadValid_iff_sendable.trans hplain, fun D p target post hpost => ?_⟩
  obtain ⟨hthread, hnew⟩ := get?_of_attempt hpost
  rw [← hplain]
  constructor
  · intro hall
    have hsent := hall _ List.mem_cons_self _ hthread
    rwa [hrefuses, not_not] at hsent
  · intro hsendable n hn v hv
    rw [hrefuses, not_not]
    rcases List.mem_pair.mp hn with rfl | rfl
    · exact Option.some.inj (hthread.symm.trans hv) ▸ hsendable
    · exact Option.some.inj (hnew.symm.trans hv) ▸ Responses.sendable_newConversationValue x

/-- A body with the thread id between two blanks. -/
def padded : Bytes := ascii
  "\x7b\"model\": \"m\", \"messages\": [\x7b\x7d], \"conversation_id\": \" thread-abc \"\x7d"

theorem threadValid_padded :
    ∃ sub x, acceptChat interpreter (postOf padded) = .ok (sub, x) ∧
      (Responses.ThreadValid interpreter.toLimits x ↔ PlainThread interpreter padded) ∧
      ∀ D p target post,
        attempt interpreter.codec D p x (filterHeaders x.clientHeaders) target = .ok post →
          ((∀ n ∈ [Requests.conversationIdHeader, Requests.isNewConversationHeader], ∀ v,
            post.headers.get? n = some v → ¬ ¬ Sendable v) ↔ PlainThread interpreter padded) := by
  have haccept : (acceptChat interpreter (postOf padded)).isOk = true := by decide +kernel
  cases h : acceptChat interpreter (postOf padded) with
  | error e =>
    rw [h] at haccept
    cases haccept
  | ok accepted =>
    obtain ⟨sub, x⟩ := accepted
    have hhex : ("0123456789abcdef0123456789abcdef".toList.all fun ch =>
        "0123456789abcdef".toList.contains ch) = true := by decide +kernel
    have htoken : ∀ c ∈ (postOf padded).token, c ∈ field "0123456789abcdef" :=
      List.map_subset CodePoint.ofChar fun ch hch =>
        List.contains_iff_mem.mp (List.all_eq_true.mp hhex ch hch)
    have hblank : ∀ c, isBlank c = true → interpreter.unicode.isSpace c = true := by
      intro c hc
      refine decide_eq_true ?_
      rcases Bool.or_eq_true_iff.mp hc with hc | hc
      · exact .inl (of_decide_eq_true hc)
      · have htab := of_decide_eq_true hc
        exact .inr (.inl ⟨htab.ge, htab ▸ by decide⟩)
    refine ⟨sub, x, rfl, ?_⟩
    exact threadValid_iff (I := interpreter) (r := postOf padded) (fun v => Iff.rfl) hblank htoken h

/-- A body that calls the thread `café`. -/
def accented : Bytes := ascii
  "\x7b\"model\": \"m\", \"messages\": [\x7b\x7d], \"conversation_id\": \"caf\\u00e9\"\x7d"

/-- A body that calls the thread `café` is accepted, and its thread id cannot be
sent. -/
theorem threadValid_fails_accented :
    ∃ sub x, acceptChat interpreter (postOf accented) = .ok (sub, x) ∧
      x.conversationId = .ofString "café" ∧ ¬ Responses.ThreadValid interpreter.toLimits x := by
  have haccept : (match acceptChat interpreter (postOf accented) with
      | .ok (_, x) => decide (x.conversationId = .ofString "café")
      | .error _ => false) = true := by decide +kernel
  split at haccept
  · next sub x h =>
    have hid := of_decide_eq_true haccept
    refine ⟨sub, x, h, hid, fun hvalid => ?_⟩
    have hsendable := Responses.threadValid_iff_sendable.mp hvalid
    rw [hid] at hsendable
    have hlast := hsendable.lt (List.mem_map_of_mem (show 'é' ∈ "café".toList by decide +kernel))
    exact absurd hlast (by decide)
  · cases haccept

end Validation

end InferenceGateway
