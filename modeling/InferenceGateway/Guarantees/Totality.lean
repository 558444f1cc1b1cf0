import InferenceGateway.Api.Validation

/-!
# Which bodies `chat_completions` can handle

Five functions look at a body one after the other, each assuming a shape the
ones before it may not have established: `json.loads`, the validation of the
request, `json.dumps` without the thread fields, the classifier's `json.loads`
of that, and its estimate. An exception that none of them means to raise is
answered with status 500.

- `Usable`: what the last three need of an object that is valid.
- `Escapes`: the bodies that get past the checks and then break something, as a
  list of shapes. It is about the bytes and the JSON in them, not about what the
  functions return.
- `handled_iff`: a body is answered with status 400 or accepted exactly if it is
  none of those `Escapes` lists.

The proof follows the functions in their order, each with its own lemma:
`usable_iff` for the last three, `handled_of_valid_iff` with the validation
before them.
-/

namespace InferenceGateway

open Lib

namespace Validation

variable {I : Interpreter} {r : ChatPost} {v : Json} {data : List (Text × Json)}

/-! ## The bodies that are not handled -/

/-- A checked object that can be written, read again and classified. -/
structure Usable (I : Interpreter) (data : List (Text × Json)) : Prop where
  written : (Json.obj (stripConversationFields data)).nesting ≤ I.dumpsDepth
  encodable : (Json.obj (stripConversationFields data)).Encodable
  reread : (Json.obj (stripConversationFields data)).nesting ≤ I.reloadDepth
  messages : ∀ messages, getItem (field "messages") data = some (.arr messages) →
    ∀ v ∈ messages, ∃ m, v = .obj m ∧ Classifier.Countable I m
  finite : ∀ negative, getItem (field "max_tokens") data ≠ some (.float (.infinity negative))

/-- The bodies an exception other than `HTTPException` escapes for. -/
inductive Escapes (I : Interpreter) (body : Bytes) : Prop where
  /-- Not UTF-8. -/
  | undecodable (h : Text.decode? body = none)
  /-- An integer with too many digits, or too much nesting, before anything that is not JSON. -/
  | unreadable {s : List Char} {e : ScanError} (h : Text.decode? body = some s)
      (hloads : Json.loads I.digits I.loadsDepth s = .error e) (he : e ≠ .syntactic)
  /-- Not an object, but taken for one. -/
  | misread {s : List Char} {v : Json} (h : Text.decode? body = some s)
      (hloads : Json.loads I.digits I.loadsDepth s = .ok v) (hv : Misread v)
  /-- An object that passes the checks and that nothing can be made of: it is nested too
  deeply to be written or read again, it has a surrogate outside the thread fields, one of
  its messages is not an object or has a text nested too deeply, or its `max_tokens` is
  infinite. -/
  | unusable {s : List Char} {data : List (Text × Json)} (h : Text.decode? body = some s)
      (hloads : Json.loads I.digits I.loadsDepth s = .ok (.obj data)) (hchecked : Checked data)
      (hdata : ¬ Usable I data)

theorem escapes_of_unread_iff {body : Bytes} {s : List Char} {e : ScanError}
    (h : Text.decode? body = some s) (hloads : Json.loads I.digits I.loadsDepth s = .error e) :
    Escapes I body ↔ e ≠ .syntactic := by
  constructor
  · rintro (h' | ⟨h', hloads', he⟩ | ⟨h', hloads', -⟩ | ⟨h', hloads', -, -⟩) <;>
      cases h.symm.trans h'
    · cases hloads.symm.trans hloads'
      exact he
    · cases hloads.symm.trans hloads'
    · cases hloads.symm.trans hloads'
  · exact .unreadable h hloads

theorem escapes_of_read_iff {body : Bytes} {s : List Char} (h : Text.decode? body = some s)
    (hloads : Json.loads I.digits I.loadsDepth s = .ok v) :
    Escapes I body ↔ Misread v ∨ ∃ data, v = .obj data ∧ Checked data ∧ ¬ Usable I data := by
  constructor
  · rintro (h' | ⟨h', hloads', -⟩ | ⟨h', hloads', hv⟩ | ⟨h', hloads', hchecked, hdata⟩) <;>
      cases h.symm.trans h'
    · cases hloads.symm.trans hloads'
    · cases hloads.symm.trans hloads'
      exact .inl hv
    · cases hloads.symm.trans hloads'
      exact .inr ⟨_, rfl, hchecked, hdata⟩
  · rintro (hv | ⟨data, rfl, hchecked, hdata⟩)
    · exact .misread h hloads hv
    · exact .unusable h hloads hchecked hdata

/-! ## When a body is handled -/

theorem not_handled_of_escapes {e : Exn} (h : acceptChat I r = .error (.escapes e)) :
    ¬ ((∃ why, acceptChat I r = .error (.badRequest why)) ∨ ∃ p, acceptChat I r = .ok p) := by
  rw [h]
  rintro (⟨why, h⟩ | ⟨p, h⟩) <;> cases h

/-- A checked object is usable if and only if it can be written without the thread
fields and the classifier makes something of what was written. -/
theorem usable_iff {depth : ℕ} (hwithin : Json.Within I.digits depth (.obj data))
    (hchecked : Checked data) :
    Usable I data ↔ ∃ body, I.codec.dumps (.obj (stripConversationFields data)) = .ok body ∧
      ∃ c, Classifier.classifyChatBody I body = .ok c := by
  obtain ⟨m, ms, hmessages⟩ := hchecked.messages
  have hkept : ∀ name ∈ ["messages", "max_tokens"],
      getItem (field name) (stripConversationFields data) = getItem (field name) data := by
    intro name hname
    rw [getItem_stripConversationFields, if_neg]
    have hall : ∀ name ∈ ["messages", "max_tokens"], ¬ isThreadField (field name) = true := by
      decide
    exact hall name hname
  have hwf : (Json.obj (stripConversationFields data)).WellFormed := hwithin.wellFormed.filter
  have hshort : (Json.obj (stripConversationFields data)).Short I.digits :=
    Json.Short.filter ⟨depth, hwithin.excess⟩
  have hstripped := hkept "messages" (by simp)
  have hmax := hkept "max_tokens" (by simp)
  rw [hmessages] at hstripped
  -- what is stripped is neither of the two fields the classifier reads
  constructor
  · rintro ⟨hwritten, hencodable, hreread, hmess, hfinite⟩
    obtain ⟨body, hbody⟩ := (Codec.python_dumps_ok_iff hshort).mpr ⟨hwritten, hencodable⟩
    refine ⟨body, hbody, (Classifier.classifyChatBody_ok_iff hwf hshort hbody hstripped).mpr ?_⟩
    rw [hmax]
    exact ⟨hreread, hmess _ hmessages, hfinite⟩
  · rintro ⟨body, hbody, hclassify⟩
    obtain ⟨hwritten, hencodable⟩ := (Codec.python_dumps_ok_iff hshort).mp ⟨body, hbody⟩
    obtain ⟨hreread, hmess, hfinite⟩ :=
      (Classifier.classifyChatBody_ok_iff hwf hshort hbody hstripped).mp hclassify
    rw [hmax] at hfinite
    refine ⟨hwritten, hencodable, hreread, fun messages h => ?_, hfinite⟩
    cases hmessages.symm.trans h
    exact hmess

/-- A checked object is handled if and only if it is usable. -/
theorem handled_of_valid_iff {depth : ℕ} (hbody : r.body ≠ [])
    (hloads : I.codec.loads r.body = .ok v) (hvalid : validateMinimalChat v = .ok data)
    (hwithin : Json.Within I.digits depth v) :
    ((∃ why, acceptChat I r = .error (.badRequest why)) ∨ ∃ p, acceptChat I r = .ok p) ↔
      Usable I data := by
  obtain ⟨rfl, hchecked⟩ := validateMinimalChat_ok_iff.mp hvalid
  rw [usable_iff hwithin hchecked]
  have haccept := acceptChat_of_valid hbody hloads hvalid
  -- by the writing of the body and then the classifier, which are the two that can still
  -- raise
  cases hdumps : I.codec.dumps (.obj (stripConversationFields data)) with
  | error e =>
    rw [hdumps] at haccept
    refine iff_of_false (not_handled_of_escapes haccept) ?_
    rintro ⟨body, h, -⟩
    cases h
  | ok body =>
    cases hclassify : Classifier.classifyChatBody I body with
    | error e =>
      simp only [hdumps, raising, bind, Except.bind, hclassify] at haccept
      refine iff_of_false (not_handled_of_escapes haccept) ?_
      rintro ⟨body', h, c, hc⟩
      cases h
      cases hclassify.symm.trans hc
    | ok c =>
      simp only [hdumps, raising, bind, Except.bind, hclassify] at haccept
      exact iff_of_true (.inr ⟨_, haccept⟩) ⟨body, rfl, c, hclassify⟩

/-- **Admission.** Whatever bytes are sent, under whatever limits of the interpreter: the
handler answers with status 400 or builds a pending request if and only if the body is
none of those that `Escapes` lists. -/
theorem handled_iff (I : Interpreter) (r : ChatPost) :
    ((∃ why, acceptChat I r = .error (.badRequest why)) ∨ ∃ p, acceptChat I r = .ok p) ↔
      ¬ Escapes I r.body := by
  -- by how far the body gets: empty, no UTF-8, no JSON, not valid, valid
  by_cases hbody : r.body = []
  · have hloads : Json.loads I.digits I.loadsDepth [] = .error .syntactic := by
      show (Json.scanValue I.digits I.loadsDepth [] >>= _) = _
      rw [(Json.consumes_scanValue I.digits I.loadsDepth).nil]
      rfl
    refine iff_of_true (.inl ⟨_, acceptChat_empty hbody⟩) fun h => ?_
    rw [hbody] at h
    exact (escapes_of_unread_iff rfl hloads).mp h rfl
  cases hdecode : Text.decode? r.body with
  | none =>
    have hloads : I.codec.loads r.body = .error .unicodeDecodeError := by
      unfold Interpreter.codec Codec.python
      simp only [hdecode]
    exact iff_of_false (not_handled_of_escapes (acceptChat_of_loads_error hbody hloads))
      (not_not.mpr (.undecodable hdecode))
  | some s =>
    have hcodec : I.codec.loads r.body = (Json.loads I.digits I.loadsDepth s).mapError scanExn :=
      Codec.python_loads_of_decode hdecode
    cases hloads : Json.loads I.digits I.loadsDepth s with
    | error e =>
      rw [hloads] at hcodec
      have haccept := acceptChat_of_loads_error hbody hcodec
      rw [escapes_of_unread_iff hdecode hloads]
      cases e with
      | syntactic => exact iff_of_true (.inl ⟨_, haccept⟩) (not_not.mpr rfl)
      | digits | depth =>
        exact iff_of_false (not_handled_of_escapes haccept) (not_not.mpr nofun)
    | ok v =>
      rw [hloads] at hcodec
      rw [escapes_of_read_iff hdecode hloads]
      cases hvalid : validateMinimalChat v with
      | error x =>
        have hunchecked : ¬ ∃ data, v = .obj data ∧ Checked data ∧ ¬ Usable I data := by
          rintro ⟨data, hv, hchecked, -⟩
          rw [validateMinimalChat_ok_iff.mpr ⟨hv, hchecked⟩] at hvalid
          cases hvalid
        have haccept := acceptChat_of_invalid hbody hcodec hvalid
        rw [or_iff_left hunchecked, ← validateMinimalChat_escapes_iff, hvalid]
        cases x with
        | badRequest why => exact iff_of_true (.inl ⟨why, haccept⟩) nofun
        | escapes e => exact iff_of_false (not_handled_of_escapes haccept) (not_not.mpr ⟨e, rfl⟩)
      | ok data =>
        obtain ⟨rfl, hchecked⟩ := validateMinimalChat_ok_iff.mp hvalid
        rw [handled_of_valid_iff hbody hcodec hvalid (Json.within_of_loads hloads)]
        constructor
        · rintro husable (hmisread | ⟨data', heq, -, hnot⟩)
          · cases hmisread
          · cases heq
            exact hnot husable
        · intro h
          by_contra hnot
          exact h (.inr ⟨data, rfl, hchecked, hnot⟩)

/-! ## Some bodies -/

/-- An interpreter whose Unicode database ends with ASCII. -/
def interpreter : Interpreter where
  loadsDepth := 1000
  dumpsDepth := 1000
  reloadDepth := 1000
  strDepth := 1000
  unicode :=
    { isSpace := fun c => decide (c.val = 0x20 ∨ (0x09 ≤ c.val ∧ c.val ≤ 0x0D) ∨
        (0x1C ≤ c.val ∧ c.val ≤ 0x1F))
      decimal? := fun c => if h : 0x30 ≤ c.val ∧ c.val ≤ 0x39 then some ⟨c.val - 0x30, by omega⟩
        else none
      isPrintable := fun c => decide (0x20 ≤ c.val ∧ c.val < 0x7F) }

def postOf (body : Bytes) : ChatPost where
  body := body
  headers := .empty
  requestId := "r-1"
  path := "/v1/chat/completions"
  query := ""
  token := .ofString "0123456789abcdef0123456789abcdef"

/-- One body of each kind that meets no limit, and the exception that escapes. -/
theorem some_escape :
    acceptChat interpreter (postOf [0xff]) = .error (.escapes .unicodeDecodeError) ∧
    acceptChat interpreter (postOf (ascii "1")) = .error (.escapes .typeError) ∧
    acceptChat interpreter (postOf (ascii "[\"model\"]")) = .error (.escapes .typeError) ∧
    acceptChat interpreter (postOf (ascii
      "\x7b\"model\": \"\\ud800\", \"messages\": [\x7b\x7d]\x7d")) =
        .error (.escapes .unicodeEncodeError) ∧
    acceptChat interpreter (postOf (ascii
      "\x7b\"model\": \"m\", \"messages\": [\"hi\"]\x7d")) =
        .error (.escapes .attributeError) ∧
    acceptChat interpreter (postOf (ascii
      "\x7b\"model\": \"m\", \"messages\": [\x7b\x7d], \"max_tokens\": 1e999\x7d")) =
        .error (.escapes .overflowError) := by
  decide +kernel

end Validation

end InferenceGateway
