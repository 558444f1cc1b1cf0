import InferenceGateway.Proxy.Requests

/-!
# What is relayed to the client (`app/proxy/client.py`)

Headers and bytes of a response whose status is below 400. `httpx` hands over
the header fields as received and the body with its `Content-Encoding` undone;
the buffered path may rewrite the body, the streaming path puts an event in
front.

- `bufferedRelay`, `streamRelay`: the response the client gets, or the exception
  that building it ends in. Both filter the upstream's headers and add the two
  thread headers, and both hand them to Starlette, which encodes their values as
  latin-1 (`ResponseHead.init`).
- `bufferedRelay_ok_iff`, `streamRelay_ok_iff`: a response is built where the
  body can be merged, or the event written, and every value that is relayed is
  latin-1 (`Writable`).
- `Merges`: the entity with the thread fields in it, said of the values and not
  of the code, and `merges_of_mergeConversation`: what the merge leaves is that
  entity.
- `entity`: the body as the client reads it, with the codings undone that the
  response still names. `undo` stands for the codings and is a parameter.
- `get?_relayed`: which fields reach the client with the value they came with.
-/

namespace InferenceGateway

open Lib
open HeaderName (lower)

/-- A header field as it stands in a response. -/
abbrev Field := HeaderName × Text

namespace Responses

/-- `bytes.lower`, which folds ASCII letters only. -/
def lowerAscii (name : HeaderName) : HeaderName :=
  name.map fun b => if 0x41 ≤ b ∧ b ≤ 0x5A then b + 0x20 else b

/-- `httpx.Headers.items`: by folded name, repeated fields joined. -/
def items (fields : List Field) : Headers :=
  fields.foldl
    (fun values f =>
      let key := lowerAscii f.1
      match values.get? key with
      | some value => values.set key (value ++ .ofString ", " ++ f.2)
      | none => values.set key f.2)
    .empty

/-- `_HOP_BY_HOP_RESPONSE` -/
def hopByHopResponse : List HeaderName :=
  ["transfer-encoding", "connection", "content-length", "server"].map .ofString

/-- `_filtered_client_response_headers` -/
def filteredClientResponseHeaders (h : Headers) : Headers :=
  h.filterKeys fun k => !hopByHopResponse.contains (lower k)

/-- `out_headers` at the end of `_proxy_streaming`, before the thread headers. -/
def streamResponseHeaders (h : Headers) : Headers :=
  h.filterKeys fun k =>
    !(["transfer-encoding", "connection", "content-length", "server"].map
      HeaderName.ofString).contains (lower k)

/-- The thread fields merged into a JSON object. -/
def mergedObject (x : Payload) (data : List (Text × Json)) : List (Text × Json) :=
  setItem (field "is_new_conversation") (.bool x.isNewConversation)
    (setItem (field "conversation_id") (.str x.conversationId) data)

/-- `_merge_conversation_into_response_json` -/
def mergeConversation (J : Codec) (content : Bytes) (x : Payload) : Except Exn (Option Bytes) :=
  match J.loads content with
  | .error e =>
    if e ∈ [.unicodeDecodeError, .jsonDecodeError, .typeError] then .ok none else .error e
  | .ok (.obj data) => (J.dumps (.obj (mergedObject x data))).map some
  | .ok _ => .ok none

/-- The payload of the gateway's event. -/
def conversationEvent (x : Payload) : Json := .obj
  [(field "object", .str (.ofString "gateway.conversation")),
    (field "conversation_id", .str x.conversationId),
    (field "is_new_conversation", .bool x.isNewConversation)]

/-- `_sse_conversation_prefix` -/
def sseConversationPrefix (J : Codec) (x : Payload) : Except Exn Bytes :=
  (J.dumps (conversationEvent x)).map fun b => ascii "data: " ++ b ++ ascii "\n\n"

/-- A prefix is one SSE event: the written object between `data: ` and a blank line. -/
theorem exists_dumps_of_prefix {J : Codec} {x : Payload} {p : Bytes}
    (h : sseConversationPrefix J x = .ok p) :
    ∃ text, J.dumps (conversationEvent x) = .ok text ∧
      p = ascii "data: " ++ text ++ ascii "\n\n" := by
  unfold sseConversationPrefix at h
  cases htext : J.dumps (conversationEvent x) with
  | error e =>
    rw [htext] at h
    cases h
  | ok text =>
    rw [htext] at h
    cases h
    exact ⟨text, rfl, rfl⟩

/-- What a response is made with besides its body. -/
structure ResponseHead where
  statusCode : ℤ
  headers : Headers
  mediaType : Option Text

/-- `v.encode("latin-1")` has a byte for every character. -/
def isLatin1 (v : Text) : Bool := v.all fun c => decide (c.val < 0x100)

/-- `Response(...)`: Starlette encodes the values of the headers as latin-1. `httpx` may have
decoded them as UTF-8, so a value can have characters latin-1 lacks. -/
def ResponseHead.init (head : ResponseHead) : Except Exn ResponseHead :=
  if head.headers.entries.all fun e => isLatin1 e.2 then .ok head else .error .unicodeEncodeError

def contentType : HeaderName := .ofString "content-type"

/-- The headers of the buffered relay. -/
def bufferedRelayHeaders (x : Payload) (fields : List Field) : Headers :=
  Requests.injectThreadHeaders x (filteredClientResponseHeaders (items fields))

/-- The end of a buffered success in `proxy_chat_completion`; `content` is `resp.content`. -/
def bufferedRelay (J : Codec) (x : Payload) (status : ℤ) (fields : List Field) (content : Bytes) :
    Except Exn (ResponseHead × Bytes) := do
  let outH := bufferedRelayHeaders x fields
  let merged ← mergeConversation J content x
  let mediaType := (outH.get? contentType).getD (.ofString "application/json")
  let head ← ResponseHead.init ⟨status, outH, some mediaType⟩
  .ok (head, merged.getD content)

/-- The headers of the streaming relay. -/
def streamRelayHeaders (x : Payload) (fields : List Field) : Headers :=
  Requests.injectThreadHeaders x (streamResponseHeaders (items fields))

/-- The end of a success in `_proxy_streaming`, with the event that is to come first. -/
def streamRelay (J : Codec) (x : Payload) (status : ℤ) (fields : List Field) :
    Except Exn (ResponseHead × Bytes) := do
  let ssePrefix ← sseConversationPrefix J x
  let outHeaders := streamRelayHeaders x fields
  let head ← ResponseHead.init ⟨status, outHeaders, outHeaders.get? contentType⟩
  .ok (head, ssePrefix)

/-- What Starlette builds has the status, headers and media type it was given. -/
theorem ResponseHead.init_ok {head built : ResponseHead} (h : head.init = .ok built) :
    built = head := by
  unfold init at h
  split at h
  · exact (Except.ok.inj h).symm
  · cases h

/-- The filter of the buffered path and that of the streaming path are one. -/
theorem streamRelayHeaders_eq (x : Payload) (fields : List Field) :
    streamRelayHeaders x fields = bufferedRelayHeaders x fields := rfl

/-! ## Which headers can be written -/

/-- The upstream's field is among the headers of the client's response: it is not dropped, and
no thread header takes its place. -/
def isRelayed (name : HeaderName) : Bool :=
  !hopByHopResponse.contains (lower (lowerAscii name)) &&
    decide (lowerAscii name ≠ Requests.conversationIdHeader) &&
    decide (lowerAscii name ≠ Requests.isNewConversationHeader)

/-- The thread id and every field that is relayed can be encoded as latin-1. -/
def Writable (x : Payload) (fields : List Field) : Prop :=
  isLatin1 x.conversationId = true ∧ ∀ f ∈ fields, isRelayed f.1 = true → isLatin1 f.2 = true

/-- A joined value is latin-1 where both parts are. -/
theorem isLatin1_append (v v' : Text) : isLatin1 (v ++ v') = (isLatin1 v && isLatin1 v') :=
  List.all_append

/-- One more field is joined to the earlier ones of its name by a comma, or is the first
of them. -/
theorem items_append_singleton (fields : List Field) (f : Field) :
    items (fields ++ [f]) =
      match (items fields).get? (lowerAscii f.1) with
      | some value => (items fields).set (lowerAscii f.1) (value ++ .ofString ", " ++ f.2)
      | none => (items fields).set (lowerAscii f.1) f.2 := by
  simp only [items, List.foldl_append, List.foldl_cons, List.foldl_nil]

/-- Joined values are latin-1 where each of them is. By induction on the fields from the
back. -/
theorem isLatin1_items_iff (k : HeaderName) (fields : List Field) :
    (∀ v, (items fields).get? k = some v → isLatin1 v = true) ↔
      ∀ f ∈ fields, lowerAscii f.1 = k → isLatin1 f.2 = true := by
  -- from the last field, which joins the ones of its name or starts a new entry
  induction fields using List.reverseRecOn with
  | nil => exact iff_of_true (fun v hv => nomatch hv) (fun f hf => nomatch hf)
  | append_singleton fields f ih =>
    have hsplit : (∀ g ∈ fields ++ [f], lowerAscii g.1 = k → isLatin1 g.2 = true) ↔
        (∀ g ∈ fields, lowerAscii g.1 = k → isLatin1 g.2 = true) ∧
          (lowerAscii f.1 = k → isLatin1 f.2 = true) := by
      simp only [List.forall_mem_append, List.forall_mem_singleton]
    rw [hsplit, ← ih, items_append_singleton]
    by_cases hk : lowerAscii f.1 = k
    · subst hk
      have hcomma : isLatin1 (.ofString ", ") = true := by decide
      cases hold : (items fields).get? (lowerAscii f.1) with
      | none => simp
      | some value => simp [isLatin1_append, hcomma]
    · have hne : k ≠ lowerAscii f.1 := fun h => hk h.symm
      cases hold : (items fields).get? (lowerAscii f.1) with
      | none => simp [Dict.get?_set_of_ne hne, hk]
      | some value => simp [Dict.get?_set_of_ne hne, hk]

/-! ## What the headers say of the body -/

def contentEncoding : HeaderName := .ofString "content-encoding"

section
variable (undo : Text → Bytes → Option Bytes)

/-- The entity a receiver of these headers and bytes obtains: `undo` undoes the
codings a `Content-Encoding` names, or fails. -/
def entity (h : Headers) (b : Bytes) : Option Bytes :=
  match h.get? contentEncoding with
  | none => some b
  | some codings => undo codings b

/-- Undoing the codings the fields name leaves these bytes as they are. -/
def Unchanged (fields : List Field) (b : Bytes) : Prop :=
  ∀ codings, (items fields).get? contentEncoding = some codings → undo codings b = some b

/-- No codings at all leave all bytes as they are. -/
theorem unchanged_of_none {fields : List Field} {b : Bytes}
    (h : (items fields).get? contentEncoding = none) : Unchanged undo fields b := by
  intro codings hc
  rw [h] at hc
  cases hc

/-- A client that undoes the same codings reads these bytes as they are exactly if the
codings leave them unchanged. -/
theorem entity_eq_some_self_iff {fields : List Field} {h : Headers} {b : Bytes}
    (hsame : h.get? contentEncoding = (items fields).get? contentEncoding) :
    entity undo h b = some b ↔ Unchanged undo fields b := by
  unfold entity Unchanged
  rw [hsame]
  cases (items fields).get? contentEncoding <;> simp

end

/-! ## Neither path touches the codings -/

/-- A filter keeps the value of a name or has none. -/
theorem get?_filterKeys {p : HeaderName → Bool} {h : Headers} {n : HeaderName} :
    (h.filterKeys p).get? n = if p n then h.get? n else none :=
  getItem_filter p n h.entries

/-- The thread headers are written over nothing but fields of their own names. -/
theorem get?_injectThreadHeaders_of_ne {x : Payload} {h : Headers} {n : HeaderName}
    (hid : n ≠ Requests.conversationIdHeader) (hnew : n ≠ Requests.isNewConversationHeader) :
    (Requests.injectThreadHeaders x h).get? n = h.get? n := by
  unfold Requests.injectThreadHeaders
  rw [Dict.get?_set_of_ne hnew, Dict.get?_set_of_ne hid]

/-- A relayed field has the value it came with. -/
theorem get?_relayed {x : Payload} {fields : List Field} {name : HeaderName}
    (h : isRelayed name = true) :
    (bufferedRelayHeaders x fields).get? (lowerAscii name) =
      (items fields).get? (lowerAscii name) := by
  obtain ⟨⟨hkept, hnoid⟩, hnonew⟩ := by
    simpa only [isRelayed, Bool.and_eq_true] using h
  rw [bufferedRelayHeaders, get?_injectThreadHeaders_of_ne (of_decide_eq_true hnoid)
    (of_decide_eq_true hnonew), filteredClientResponseHeaders, get?_filterKeys, if_pos hkept]

/-- `Content-Encoding` passes the filter. -/
theorem get?_contentEncoding_relayed (x : Payload) (fields : List Field) :
    (bufferedRelayHeaders x fields).get? contentEncoding =
      (items fields).get? contentEncoding := by
  have hkept : isRelayed contentEncoding = true := by decide
  exact get?_relayed hkept

/-- The upstream entity with the thread fields merged in, when it is a JSON object. -/
inductive Merges (J : Codec) (x : Payload) (e : Bytes) : Bytes → Prop where
  | object {data : List (Text × Json)} {b : Bytes} (hdata : J.loads e = .ok (.obj data))
      (hb : J.dumps (.obj (mergedObject x data)) = .ok b) : Merges J x e b
  | other (h : ∀ data, J.loads e ≠ .ok (.obj data)) : Merges J x e e

/-- There is one such entity, since the codec reads one value from a body and writes one
text for it. -/
theorem Merges.unique {J : Codec} {x : Payload} {e b b' : Bytes} (h : Merges J x e b)
    (h' : Merges J x e b') : b = b' := by
  cases h with
  | object hdata hb =>
    cases h' with
    | object hdata' hb' =>
      cases hdata.symm.trans hdata'
      exact Except.ok.inj (hb.symm.trans hb')
    | other hnot => exact absurd hdata (hnot _)
  | other hnot =>
    cases h' with
    | object hdata' hb' => exact absurd hdata' (hnot _)
    | other => rfl

/-- A buffered response that is built has the status of the upstream, its filtered
headers with the thread headers, and the merged body. -/
theorem bufferedRelay_ok {J : Codec} {x : Payload} {status : ℤ} {fields : List Field}
    {content body : Bytes} {head : ResponseHead}
    (h : bufferedRelay J x status fields content = .ok (head, body)) :
    head.statusCode = status ∧ head.headers = bufferedRelayHeaders x fields ∧
      ∃ merged, mergeConversation J content x = .ok merged ∧ body = merged.getD content := by
  obtain ⟨merged, hmerged, hbuilt⟩ := exists_of_bind h
  obtain ⟨head', hhead, hok⟩ := exists_of_bind hbuilt
  obtain rfl := ResponseHead.init_ok hhead
  cases hok
  exact ⟨rfl, rfl, merged, hmerged, rfl⟩

/-- A streamed response that is built has the status of the upstream, its filtered
headers with the thread headers, and the prefix in front of its chunks. -/
theorem streamRelay_ok {J : Codec} {x : Payload} {status : ℤ} {fields : List Field}
    {ssePrefix : Bytes} {head : ResponseHead}
    (h : streamRelay J x status fields = .ok (head, ssePrefix)) :
    head.statusCode = status ∧ head.headers = bufferedRelayHeaders x fields ∧
      sseConversationPrefix J x = .ok ssePrefix := by
  obtain ⟨p, hp, hbuilt⟩ := exists_of_bind h
  obtain ⟨head', hhead, hok⟩ := exists_of_bind hbuilt
  obtain rfl := ResponseHead.init_ok hhead
  cases hok
  exact ⟨rfl, streamRelayHeaders_eq x fields, hp⟩

/-- What the merge leaves of a body is the entity with the thread fields in it. -/
theorem merges_of_mergeConversation {J : Codec} {x : Payload} {content : Bytes}
    {merged : Option Bytes} (h : mergeConversation J content x = .ok merged) :
    Merges J x content (merged.getD content) := by
  unfold mergeConversation at h
  -- only an object is written again
  cases hloads : J.loads content with
  | error e =>
    simp only [hloads] at h
    split at h
    · cases h
      exact .other fun data hd => by rw [hloads] at hd; cases hd
    · cases h
  | ok v =>
    cases v with
    | obj data =>
      simp only [hloads] at h
      cases hdumps : J.dumps (.obj (mergedObject x data)) with
      | error e =>
        rw [hdumps] at h
        cases h
      | ok b =>
        rw [hdumps] at h
        cases h
        exact .object hloads hdumps
    | _ =>
      simp only [hloads] at h
      cases h
      exact .other fun data hd => by rw [hloads] at hd; cases hd

/-! ## The client's response is built -/

/-- All values of the headers are latin-1 where the thread id and the relayed fields
are: the other value that is set is one of two ASCII words. -/
theorem all_isLatin1_iff {x : Payload} {fields : List Field} :
    ((bufferedRelayHeaders x fields).entries.all fun e => isLatin1 e.2) = true ↔
      Writable x fields := by
  have hne : Requests.conversationIdHeader ≠ Requests.isNewConversationHeader := by decide
  have hid : (bufferedRelayHeaders x fields).get? Requests.conversationIdHeader =
      some x.conversationId := by
    unfold bufferedRelayHeaders Requests.injectThreadHeaders
    rw [Dict.get?_set_of_ne hne, Dict.get?_set_self]
  have hget : ((bufferedRelayHeaders x fields).entries.all fun e => isLatin1 e.2) = true ↔
      ∀ k v, (bufferedRelayHeaders x fields).get? k = some v → isLatin1 v = true := by
    simp only [List.all_eq_true, Dict.get?_eq_some_iff]
    exact ⟨fun h k v hmem => h (k, v) hmem, fun h e hmem => h e.1 e.2 hmem⟩
  rw [hget]
  -- the thread fields are set last, over what is relayed of the upstream's
  constructor
  · intro h
    refine ⟨h _ _ hid, fun f hf hrelayed => ?_⟩
    refine (isLatin1_items_iff (lowerAscii f.1) fields).mp (fun v hv => ?_) f hf rfl
    exact h _ v ((get?_relayed hrelayed).trans hv)
  · rintro ⟨hthread, hfields⟩ k v hv
    by_cases hk : k = Requests.conversationIdHeader
    · rw [hk, hid] at hv
      exact Option.some.inj hv ▸ hthread
    by_cases hk' : k = Requests.isNewConversationHeader
    · subst hk'
      rw [bufferedRelayHeaders, Requests.injectThreadHeaders, Dict.get?_set_self] at hv
      rw [← Option.some.inj hv, Requests.newConversationValue]
      split <;> decide
    · rw [bufferedRelayHeaders, get?_injectThreadHeaders_of_ne hk hk',
        filteredClientResponseHeaders, get?_filterKeys] at hv
      split at hv
      · next hkept =>
        refine (isLatin1_items_iff k fields).mpr (fun f hf hname => ?_) v hv
        subst hname
        have hrelayed : isRelayed f.1 = true := Bool.and_eq_true_iff.mpr
          ⟨Bool.and_eq_true_iff.mpr ⟨hkept, decide_eq_true hk⟩, decide_eq_true hk'⟩
        exact hfields f hf hrelayed
      · cases hv

/-- **Which responses are built.** Besides the merge only a header can fail: the thread
id and every header value that is relayed must be text that latin-1 can carry. -/
theorem bufferedRelay_ok_iff {J : Codec} {x : Payload} {status : ℤ} {fields : List Field}
    {content : Bytes} :
    (∃ r, bufferedRelay J x status fields content = .ok r) ↔
      (∃ merged, mergeConversation J content x = .ok merged) ∧ Writable x fields := by
  rw [← all_isLatin1_iff]
  constructor
  · rintro ⟨r, h⟩
    obtain ⟨merged, hmerged, hbuilt⟩ := exists_of_bind h
    obtain ⟨head, hhead, -⟩ := exists_of_bind hbuilt
    refine ⟨⟨merged, hmerged⟩, ?_⟩
    unfold ResponseHead.init at hhead
    split at hhead
    · assumption
    · cases hhead
  · rintro ⟨⟨merged, hmerged⟩, hlatin⟩
    simp only [bufferedRelay, bind, Except.bind, hmerged, ResponseHead.init, hlatin, if_true]
    exact ⟨_, rfl⟩

/-- **Which streamed responses are built.** Besides the prefix, only a header can
fail. -/
theorem streamRelay_ok_iff {J : Codec} {x : Payload} {status : ℤ} {fields : List Field} :
    (∃ r, streamRelay J x status fields = .ok r) ↔
      (∃ p, sseConversationPrefix J x = .ok p) ∧ Writable x fields := by
  rw [← all_isLatin1_iff, ← streamRelayHeaders_eq]
  constructor
  · rintro ⟨r, h⟩
    obtain ⟨p, hp, hbuilt⟩ := exists_of_bind h
    obtain ⟨head, hhead, -⟩ := exists_of_bind hbuilt
    refine ⟨⟨p, hp⟩, ?_⟩
    unfold ResponseHead.init at hhead
    split at hhead
    · assumption
    · cases hhead
  · rintro ⟨⟨p, hp⟩, hlatin⟩
    simp only [streamRelay, bind, Except.bind, hp, ResponseHead.init, hlatin, if_true]
    exact ⟨_, rfl⟩

end Responses

end InferenceGateway
