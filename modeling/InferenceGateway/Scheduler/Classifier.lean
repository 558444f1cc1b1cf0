import InferenceGateway.Core.Codec
import InferenceGateway.Lib.Python

/-!
# Classification (`app/scheduler/classifier.py`)

`classify_chat_body` reads the body `chat_completions` has just written and
looks at fields that nobody has validated, so every value may have any type:
`messages` is a list by then, but what is in it, `max_tokens` and `stream` may
be anything.

The estimate of a text is the length of its `str` over four, of a list of parts
the sum over the parts, and of the messages the sum over the messages; the class
follows from the estimate and from `max_tokens`. Each step can raise: `str` of a
value that is nested too deeply, an attribute of a message that is no object,
`int` of an infinity.

- `classifyChatBody_ok_iff`: when it returns. The lemmas before it say the same
  of each part of the computation (`partTokens_ok_iff`, `messageTokens_ok_iff`,
  `maxTokensOf_ok_iff`), and `total_ok_iff` of a sum.
- `recodec_loads_iff`: the classifier's `json.loads` runs further up the stack
  than the one of the route, so it has a recursion limit of its own.
-/

namespace InferenceGateway

open Lib

/-- The interpreter a request meets. The depths are what is left of its recursion limit
where the respective function is called. -/
structure Interpreter extends Limits where
  /-- `json.loads` in `classify_chat_body`. -/
  reloadDepth : ℕ
  /-- `str` in `_rough_tokens_from_messages`. -/
  strDepth : ℕ
  unicode : UnicodeData

namespace Interpreter

/-- `json` as `chat_completions` calls it. -/
def codec (I : Interpreter) : Codec := .python I.toLimits

/-- `json` as `classify_chat_body` calls it. -/
def recodec (I : Interpreter) : Codec := .python { I.toLimits with loadsDepth := I.reloadDepth }

end Interpreter

/-- `bool(v)` -/
def truthy : Json → Bool
  | .null => false
  | .bool b => b
  | .int n => decide (n ≠ 0)
  | .float (.finite _ mag) => decide (mag.mant ≠ 0)
  | .float _ => true
  | .str s => !s.isEmpty
  | .arr items => !items.isEmpty
  | .obj fields => !fields.isEmpty

/-- `list(v)` -/
def listOf : Json → Except Exn (List Json)
  | .arr items => .ok items
  | .obj fields => .ok (fields.map fun e => .str e.1)
  | .str s => .ok (s.map fun c => .str [c])
  | _ => .error .typeError

namespace Classifier

variable (I : Interpreter)

/-! ## Tokens -/

/-- `max(1, len(s) // 4)` -/
def quarter (s : Text) : ℕ := max 1 (s.length / 4)

/-- The sum over a loop, which the first exception ends. -/
def total (f : Json → Except Exn ℕ) : List Json → Except Exn ℕ
  | [] => .ok 0
  | v :: vs => do
    let n ← f v
    let m ← total f vs
    .ok (n + m)

/-- What one part of a list of parts adds. -/
def partTokens : Json → Except Exn ℕ
  | .obj part =>
    match getItem (field "text") part with
    | some text =>
      match text.str? I.unicode I.digits I.strDepth with
      | .ok s => .ok (quarter s)
      | .error e => .error (excessExn e)
    | none => .ok 0
  | _ => .ok 0

/-- What one message adds. -/
def messageTokens : Json → Except Exn ℕ
  | .obj m =>
    match (getItem (field "content") m).getD (.str []) with
    | .str s => .ok (quarter s)
    | .arr parts => total (partTokens I) parts
    | _ => .ok 0
  -- only a dictionary has `get`
  | _ => .error .attributeError

/-- Cheap token estimate: ~4 characters per token. -/
def roughTokensFromMessages (messages : List Json) : Except Exn ℕ :=
  total (messageTokens I) messages

/-! ## The fields -/

/-- `list(data.get("messages") or [])` -/
def messagesOf (data : List (Text × Json)) : Except Exn (List Json) :=
  match getItem (field "messages") data with
  | some v => if truthy v then listOf v else .ok []
  | none => .ok []

/-- `int(v)` -/
def intOf : Json → Except Exn ℤ
  | .int n => .ok n
  | .bool b => .ok (if b then 1 else 0)
  | .float .nan => .error .valueError
  | .float (.infinity _) => .error .overflowError
  | .float (.finite negative mag) =>
    .ok ((if negative then -1 else 1) * (mag.mant * 2 ^ mag.expo / 2 ^ 1074 : ℕ))
  | .str s =>
    match I.unicode.int? I.digits s with
    | some n => .ok n
    | none => .error .valueError
  | .null | .arr _ | .obj _ => .error .typeError

/-- `max_tokens`, or `None` where `int` raises what is caught. -/
def maxTokensOf (data : List (Text × Json)) : Except Exn (Option ℤ) :=
  match getItem (field "max_tokens") data with
  | none | some .null => .ok none
  | some v =>
    match intOf I v with
    | .ok n => .ok (some n)
    | .error e => if e = .typeError ∨ e.isValueError = true then .ok none else .error e

/-- `isinstance(model, str)`. In a body that was written the text has no surrogates. -/
def modelOf (data : List (Text × Json)) : Option String :=
  match getItem (field "model") data with
  | some (.str s) => s.toChars?.map String.ofList
  | _ => none

/-- Bucket thresholds (heuristic): streaming long jobs are tracked separately. -/
def classOf (stream : Bool) (totalEst : ℤ) : RequestClass :=
  if stream = true ∧ totalEst > 4000 then .streamingLong
  else if totalEst < 1500 then .smallChat
  else if totalEst < 8000 then .mediumChat
  else .largeChat

/-- `max_tokens or 512` -/
def generationCap : Option ℤ → ℤ
  | some n => if n = 0 then 512 else n
  | none => 512

/-- Derive request class from JSON: prompt size + max_tokens (+ streaming rules). -/
def classifyChatBody (body : Bytes) : Except Exn ClassifyResult := do
  match ← I.recodec.loads body with
  | .obj data =>
    let messages ← messagesOf data
    let est ← roughTokensFromMessages I messages
    let maxTokens ← maxTokensOf I data
    let stream := truthy ((getItem (field "stream") data).getD (.bool true))
    .ok
      { reqClass := classOf stream (est + generationCap maxTokens)
        estTokens := est
        maxTokens := maxTokens
        stream := stream
        model := modelOf data }
  | _ => .error .attributeError

/-! ## When it returns -/

variable {I}

/-- A sum can be computed exactly if each summand can. -/
theorem total_ok_iff {f : Json → Except Exn ℕ} {vs : List Json} :
    (∃ n, total f vs = .ok n) ↔ ∀ v ∈ vs, ∃ n, f v = .ok n := by
  induction vs with
  | nil => simp [total]
  | cons v vs ih =>
    rw [List.forall_mem_cons, ← ih, total]
    constructor
    · rintro ⟨n, h⟩
      obtain ⟨k, hk, h⟩ := exists_of_bind h
      obtain ⟨m, hm, -⟩ := exists_of_bind h
      exact ⟨⟨k, hk⟩, m, hm⟩
    · rintro ⟨⟨k, hk⟩, m, hm⟩
      rw [hk, hm]
      exact ⟨k + m, rfl⟩

/-- The `text` of a part is a string, or `str` recurses deeply enough for it. -/
def TextWithin (I : Interpreter) (text : Json) : Prop :=
  (∃ s, text = .str s) ∨ text.height ≤ I.strDepth

/-- A content part is counted by its text, and anything that is no object counts as
nothing. -/
theorem partTokens_ok_iff {v : Json} (hshort : v.Short I.digits) :
    (∃ n, partTokens I v = .ok n) ↔
      ∀ part text, v = .obj part → getItem (field "text") part = some text →
        TextWithin I text := by
  cases v with
  | obj part =>
    cases htext : getItem (field "text") part with
    | none =>
      refine iff_of_true ⟨0, by simp only [partTokens, htext]⟩ fun part' text heq hget => ?_
      cases heq
      rw [htext] at hget
      cases hget
    | some text =>
      have hstr : (∃ s, text.str? I.unicode I.digits I.strDepth = .ok s) ↔ TextWithin I text :=
        Json.str?_ok_iff (hshort.of_obj _ (mem_of_getItem htext))
      simp only [partTokens, htext]
      constructor
      · rintro ⟨n, h⟩ part' text' heq hget
        cases heq
        cases htext.symm.trans hget
        split at h
        · next s hs => exact hstr.mp ⟨s, hs⟩
        · cases h
      · intro h
        obtain ⟨s, hs⟩ := hstr.mpr (h part text rfl htext)
        exact ⟨quarter s, by rw [hs]⟩
  -- a part that is no object is skipped, so it cannot raise
  | _ =>
    refine iff_of_true ⟨0, rfl⟩ ?_
    rintro part text heq -
    cases heq

/-- No part of a message has a text that is nested too deeply. -/
def Countable (I : Interpreter) (m : List (Text × Json)) : Prop :=
  ∀ parts part text, getItem (field "content") m = some (.arr parts) → .obj part ∈ parts →
    getItem (field "text") part = some text → TextWithin I text

/-- A message that is an object is counted, whatever its content is, if the texts in it
are. Of any other value `.get` raises. -/
theorem messageTokens_ok_iff {v : Json} (hshort : v.Short I.digits) :
    (∃ n, messageTokens I v = .ok n) ↔ ∃ m, v = .obj m ∧ Countable I m := by
  cases v with
  | obj m =>
    have hgoal : (∃ n, messageTokens I (.obj m) = .ok n) ↔ Countable I m := by
      unfold Countable
      simp only [messageTokens]
      cases hcontent : getItem (field "content") m with
      | none =>
        refine iff_of_true ⟨_, rfl⟩ ?_
        rintro parts part text heq
        cases heq
      | some content =>
        cases content with
        | arr parts =>
          -- a list of parts is summed up; any other content is one text, or none
          have hparts := (hshort.of_obj _ (mem_of_getItem hcontent)).of_arr
          show (∃ n, total (partTokens I) parts = .ok n) ↔ _
          rw [total_ok_iff]
          constructor
          · intro h parts' part text heq hpart htext
            cases heq
            exact (partTokens_ok_iff (hparts _ hpart)).mp (h _ hpart) part text rfl htext
          · intro h v hv
            refine (partTokens_ok_iff (hparts v hv)).mpr fun part text heq htext => ?_
            subst heq
            exact h parts part text rfl hv htext
        | _ =>
          refine iff_of_true ⟨_, rfl⟩ ?_
          rintro parts part text heq
          cases heq
    rw [hgoal]
    constructor
    · exact fun h => ⟨m, rfl, h⟩
    · rintro ⟨m', heq, h⟩
      cases heq
      exact h
  | _ =>
    -- what is no object has no `get`
    refine iff_of_false ?_ ?_
    · rintro ⟨n, h⟩
      cases h
    · rintro ⟨m, h, -⟩
      cases h

/-- Of all that `int` raises, only the exception for an infinity is not caught. -/
theorem maxTokensOf_ok_iff {data : List (Text × Json)} :
    (∃ n, maxTokensOf I data = .ok n) ↔
      ∀ negative, getItem (field "max_tokens") data ≠ some (.float (.infinity negative)) := by
  unfold maxTokensOf
  cases getItem (field "max_tokens") data with
  | none => exact iff_of_true ⟨none, rfl⟩ nofun
  | some v =>
    cases v with
    | float x =>
      cases x with
      | infinity negative =>
        -- `OverflowError`, which is neither of the two exceptions caught
        refine iff_of_false ?_ fun h => h negative rfl
        rintro ⟨n, h⟩
        cases h
      | nan => exact iff_of_true ⟨none, rfl⟩ nofun
      | finite negative mag => exact iff_of_true ⟨_, rfl⟩ nofun
    | str s =>
      refine iff_of_true ?_ nofun
      cases hint : I.unicode.int? I.digits s with
      | none => exact ⟨none, by simp [intOf, hint, Exn.isValueError]⟩
      | some n => exact ⟨some n, by simp [intOf, hint]⟩
    | _ => exact iff_of_true ⟨_, rfl⟩ nofun

/-- A body that was written is read again where `json.loads` recurses deeply enough. -/
theorem recodec_loads_iff {v w : Json} {body : Bytes} (hwf : v.WellFormed)
    (hshort : v.Short I.digits) (hbody : I.codec.dumps v = .ok body) :
    I.recodec.loads body = .ok w ↔ w = v ∧ v.nesting ≤ I.reloadDepth := by
  obtain ⟨cs, hcs, hdecode, -⟩ := Codec.python_dumps_ok hbody
  rw [← Json.loads_written_iff hwf hshort hcs]
  exact Codec.python_loads_iff hdecode

/-- **Classification.** Let `data` be an object that was read and then written as `body`,
with the messages `messages`. Its class is found if and only if it can be read again,
every message is an object whose texts are not nested too deeply, and `max_tokens` is
not infinite. -/
theorem classifyChatBody_ok_iff {data : List (Text × Json)} {messages : List Json} {body : Bytes}
    (hwf : (Json.obj data).WellFormed) (hshort : (Json.obj data).Short I.digits)
    (hbody : I.codec.dumps (.obj data) = .ok body)
    (hmessages : getItem (field "messages") data = some (.arr messages)) :
    (∃ c, classifyChatBody I body = .ok c) ↔
      (Json.obj data).nesting ≤ I.reloadDepth ∧
        (∀ v ∈ messages, ∃ m, v = .obj m ∧ Countable I m) ∧
        ∀ negative, getItem (field "max_tokens") data ≠ some (.float (.infinity negative)) := by
  have hreload : ∀ v, I.recodec.loads body = .ok v ↔
      v = .obj data ∧ (Json.obj data).nesting ≤ I.reloadDepth :=
    fun v => recodec_loads_iff hwf hshort hbody
  have hall : (∃ n, roughTokensFromMessages I messages = .ok n) ↔
      ∀ v ∈ messages, ∃ m, v = .obj m ∧ Countable I m := by
    rw [roughTokensFromMessages, total_ok_iff]
    have hitems := (hshort.of_obj _ (mem_of_getItem hmessages)).of_arr
    exact forall₂_congr fun v hv => messageTokens_ok_iff (hitems v hv)
  have hlist : messagesOf data = .ok messages := by
    unfold messagesOf
    rw [hmessages]
    cases messages <;> rfl
  rw [← hall, ← maxTokensOf_ok_iff]
  unfold classifyChatBody
  -- the classifier succeeds if each of its three steps does
  constructor
  · rintro ⟨c, h⟩
    obtain ⟨v, hv, h⟩ := exists_of_bind h
    obtain ⟨rfl, hdepth⟩ := (hreload v).mp hv
    obtain ⟨messages', hm, h⟩ := exists_of_bind h
    cases hlist.symm.trans hm
    obtain ⟨est, hest, h⟩ := exists_of_bind h
    obtain ⟨maxTokens, hmax, -⟩ := exists_of_bind h
    exact ⟨hdepth, ⟨est, hest⟩, maxTokens, hmax⟩
  · rintro ⟨hdepth, ⟨est, hest⟩, maxTokens, hmax⟩
    rw [(hreload _).mpr ⟨rfl, hdepth⟩]
    simp only [bind, Except.bind, hlist, hest, hmax]
    exact ⟨_, rfl⟩

end Classifier

end InferenceGateway
