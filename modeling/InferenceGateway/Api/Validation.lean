import InferenceGateway.Api.Routes
import InferenceGateway.Proxy.Requests
import InferenceGateway.Scheduler.Classifier

/-!
# Validation (`chat_completions` up to the queue)

From the bytes of a body to a pending request: what `chat_completions` does with
them, and `_validate_minimal_chat` and `resolve_conversation_id` on the way. A
check answers 400 with its own text; some values that are no objects, and some
fields of odd types, make a check raise instead, and what it raises escapes the
route. Both are results here, `Raised`, so that a claim about the answer of the
route can be made of every body whatever.

- `Checked`, `Misread`: what passes the checks, and what makes one of them
  raise, each as a condition on the value itself. `validateMinimalChat_ok_iff`
  and `validateMinimalChat_escapes_iff` say that these are exactly the
  conditions.
- `acceptChat`: the whole way, with its result for each place where it can end
  (`acceptChat_empty`, `acceptChat_of_loads_error`, `acceptChat_of_invalid`,
  `acceptChat_of_valid`).
- `acceptChat_ok`: what an accepted request consists of, the `Submission` that
  the gateway takes in and the `Payload` that is sent upstream.
-/

namespace InferenceGateway

open Lib

/-- What the client sent, with the identifiers `chat_completions` takes from elsewhere. -/
structure ChatPost where
  body : Bytes
  headers : Headers
  requestId : String
  path : String
  query : String
  /-- `secrets.token_hex(16)` -/
  token : Text

/-- The causes of an `HTTPException` with status 400. -/
inductive BadRequest where
  | emptyBody
  | invalidJson
  | correlationFields
  | modelRequired
  | messagesRequired
  deriving DecidableEq, Repr

/-- Its `detail`; of invalid JSON it goes on with what is wrong. -/
def BadRequest.detail : BadRequest → String
  | .emptyBody => "empty body"
  | .invalidJson => "invalid json: "
  | .correlationFields =>
    "request_id/trace_id/session_id must be sent as headers " ++
      "(x-request-id, x-trace-id, x-session-id), not in request body"
  | .modelRequired => "model is required"
  | .messagesRequired => "messages must be a non-empty array"

/-- How `chat_completions` can end before there is a pending request. -/
inductive Raised where
  | badRequest (why : BadRequest)
  /-- Any other exception. -/
  | escapes (e : Exn)
  deriving DecidableEq, Repr

namespace Validation

/-- An exception that nothing catches. -/
def raising {α : Type} : Except Exn α → Except Raised α
  | .ok a => .ok a
  | .error e => .error (.escapes e)

/-! ## The body -/

/-- `k in data`; numbers, booleans and `None` are not containers. -/
def membership : Json → Except Exn (Text → Bool)
  | .obj fields => .ok fun k => decide (k ∈ keysOf fields)
  | .arr items => .ok fun k => items.any fun
    | .str s => decide (s = k)
    | _ => false
  | .str s => .ok fun k => decide (k <:+: s)
  | _ => .error .typeError

/-- `forbidden_correlation_fields` -/
def forbiddenCorrelationFields : List Text :=
  ["request_id", "trace_id", "session_id", "request-id", "trace-id", "session-id"].map field

/-- `_validate_minimal_chat`; what passes is an object. -/
def validateMinimalChat (data : Json) : Except Raised (List (Text × Json)) := do
  let has ← raising (membership data)
  if forbiddenCorrelationFields.any has then .error (.badRequest .correlationFields)
  else if !has (field "model") then .error (.badRequest .modelRequired)
  else
    match data with
    | .obj fields =>
      if !(getItem (field "model") fields).any truthy then .error (.badRequest .modelRequired)
      else
        match getItem (field "messages") fields with
        | some (.arr (_ :: _)) => .ok fields
        | _ => .error (.badRequest .messagesRequired)
    -- neither a list nor a string has an item under a name
    | _ => .error (.escapes .typeError)

/-- Effective thread id and whether this request started a new conversation. -/
def resolveConversationId (U : UnicodeData) (token : Text) (data : List (Text × Json)) :
    Text × Bool :=
  match getItem (field "conversation_id") data with
  | some (.str raw) =>
    if U.strip raw ≠ [] then (U.strip raw, false) else (.ofString "conv_" ++ token, true)
  | _ => (.ofString "conv_" ++ token, true)

/-- `chat_completions` up to the pending request. -/
def acceptChat (I : Interpreter) (r : ChatPost) : Except Raised (Submission × Payload) := do
  if r.body = [] then .error (.badRequest .emptyBody)
  let data ← match I.codec.loads r.body with
    | .ok data => .ok data
    -- `UnicodeDecodeError` and the `ValueError` of a long integer are not caught here
    | .error e => .error (if e = .jsonDecodeError then .badRequest .invalidJson else .escapes e)
  let data ← validateMinimalChat data
  let (conversationId, isNewConversation) := resolveConversationId I.unicode r.token data
  let body ← raising (I.codec.dumps (.obj (stripConversationFields data)))
  let classify ← raising (Classifier.classifyChatBody I body)
  .ok (⟨r.requestId, classify, r.path, r.query⟩,
    ⟨conversationId, isNewConversation, body, r.headers⟩)

/-! ## The checks -/

/-- What the checks take for an object though it is none: a number, a boolean or `None`,
which cannot be asked for a key, and a list or a string that has `model` in it and none
of the forbidden names, which cannot be asked for a value. -/
inductive Misread : Json → Prop where
  | null : Misread .null
  | bool (b : Bool) : Misread (.bool b)
  | int (n : ℤ) : Misread (.int n)
  | float (x : Binary64) : Misread (.float x)
  | arr {items : List Json} (hfree : ∀ k ∈ forbiddenCorrelationFields, .str k ∉ items)
      (hmodel : .str (field "model") ∈ items) : Misread (.arr items)
  | str {s : Text} (hfree : ∀ k ∈ forbiddenCorrelationFields, ¬ k <:+: s)
      (hmodel : field "model" <:+: s) : Misread (.str s)

/-- An object that passes the checks. -/
structure Checked (data : List (Text × Json)) : Prop where
  free : ∀ k ∈ forbiddenCorrelationFields, k ∉ keysOf data
  model : ∃ v, getItem (field "model") data = some v ∧ truthy v = true
  messages : ∃ m ms, getItem (field "messages") data = some (.arr (m :: ms))

/-- `k in items` of a list: some item is the string `k`. -/
theorem any_str_eq_iff {k : Text} {items : List Json} :
    items.any (fun | .str s => decide (s = k) | _ => false) = true ↔ .str k ∈ items := by
  rw [List.any_eq_true]
  constructor
  · rintro ⟨v, hv, h⟩
    cases v with
    | str s =>
      rw [of_decide_eq_true h] at hv
      exact hv
    | _ => cases h
  · intro h
    exact ⟨.str k, h, decide_eq_true rfl⟩

variable {data : Json} {fields : List (Text × Json)} {has : Text → Bool}

/-- What becomes of an object: it passes, or a check answers 400. Nothing escapes, since
every check on an object looks at the type of a field before it looks at the field. -/
theorem validateMinimalChat_obj (fields : List (Text × Json)) :
    (Checked fields ∧ validateMinimalChat (.obj fields) = .ok fields) ∨
      ¬ Checked fields ∧ ∃ why, validateMinimalChat (.obj fields) = .error (.badRequest why) := by
  -- for an object every `in` is a look at the keys, and the checks are a chain of `if`s
  have hunfold : validateMinimalChat (.obj fields) =
      if forbiddenCorrelationFields.any (fun k => decide (k ∈ keysOf fields)) then
        .error (.badRequest .correlationFields)
      else if !decide (field "model" ∈ keysOf fields) then .error (.badRequest .modelRequired)
      else if !(getItem (field "model") fields).any truthy then .error (.badRequest .modelRequired)
      else
        match getItem (field "messages") fields with
        | some (.arr (_ :: _)) => .ok fields
        | _ => .error (.badRequest .messagesRequired) := rfl
  rw [hunfold]
  split
  · next hany =>
    obtain ⟨k, hk, hmem⟩ := List.any_eq_true.mp hany
    exact .inr ⟨fun h => h.free k hk (of_decide_eq_true hmem), _, rfl⟩
  next hany =>
  split
  · next hmodel =>
    refine .inr ⟨fun h => ?_, _, rfl⟩
    obtain ⟨v, hv, -⟩ := h.model
    have hkey : field "model" ∈ keysOf fields := List.mem_map_of_mem (mem_of_getItem hv)
    simp [hkey] at hmodel
  split
  · next hfalsy =>
    refine .inr ⟨fun h => ?_, _, rfl⟩
    obtain ⟨v, hv, htruthy⟩ := h.model
    simp [hv, htruthy] at hfalsy
  next htruthy =>
  split
  · next m ms hmessages =>
    refine .inl ⟨⟨fun k hk hmem => hany ?_, ?_, m, ms, hmessages⟩, rfl⟩
    · exact List.any_eq_true.mpr ⟨k, hk, decide_eq_true hmem⟩
    · cases hv : getItem (field "model") fields with
      | none => simp [hv] at htruthy
      | some v => exact ⟨v, rfl, by simpa [hv] using htruthy⟩
  · next hmessages =>
    refine .inr ⟨fun h => ?_, _, rfl⟩
    obtain ⟨m, ms, hms⟩ := h.messages
    exact hmessages m ms hms

/-- A list or a string gets past the checks on names only to be asked for a value: what
is neither an object nor without membership ends in a `TypeError` at the latest. -/
theorem validateMinimalChat_of_membership (hmembership : membership data = .ok has)
    (hobj : ∀ fields, data ≠ .obj fields) :
    validateMinimalChat data =
      if forbiddenCorrelationFields.any has then .error (.badRequest .correlationFields)
      else if !has (field "model") then .error (.badRequest .modelRequired)
      else .error (.escapes .typeError) := by
  unfold validateMinimalChat
  rw [hmembership]
  cases data with
  | obj fields => exact absurd rfl (hobj fields)
  | _ => rfl

/-- Something escapes of such a value if it gets past the checks on names: it has none
of the forbidden fields, and it has a model. -/
theorem escapes_of_membership_iff (hmembership : membership data = .ok has)
    (hobj : ∀ fields, data ≠ .obj fields) :
    (∃ e, validateMinimalChat data = .error (.escapes e)) ↔
      (∀ k ∈ forbiddenCorrelationFields, has k = false) ∧ has (field "model") = true := by
  rw [validateMinimalChat_of_membership hmembership hobj]
  -- it is the subscript after the checks that raises, so both must be passed
  by_cases hany : forbiddenCorrelationFields.any has = true
  · rw [if_pos hany]
    refine iff_of_false nofun fun h => ?_
    obtain ⟨k, hk, hmem⟩ := List.any_eq_true.mp hany
    rw [h.1 k hk] at hmem
    cases hmem
  · rw [if_neg hany]
    have hfree : ∀ k ∈ forbiddenCorrelationFields, has k = false := by
      intro k hk
      exact Bool.eq_false_iff.mpr fun hmem => hany (List.any_eq_true.mpr ⟨k, hk, hmem⟩)
    cases hmodel : has (field "model") with
    | false => exact iff_of_false nofun nofun
    | true => exact iff_of_true ⟨_, rfl⟩ ⟨hfree, rfl⟩

/-- **Checks.** An exception escapes exactly where something is misread: the value is no
object and yet gets as far as a check that takes it for one. By cases on the kind of
value. -/
theorem validateMinimalChat_escapes_iff :
    (∃ e, validateMinimalChat data = .error (.escapes e)) ↔ Misread data := by
  cases data with
  | obj fields =>
    refine iff_of_false ?_ nofun
    rintro ⟨e, h⟩
    rcases validateMinimalChat_obj fields with ⟨-, hok⟩ | ⟨-, why, hbad⟩
    · cases hok.symm.trans h
    · cases hbad.symm.trans h
  -- `in` works on a list and on a string, and only the subscript after it raises
  | arr items =>
    have hobj : ∀ fields, Json.arr items ≠ .obj fields := nofun
    rw [escapes_of_membership_iff rfl hobj]
    constructor
    · rintro ⟨hfree, hmodel⟩
      refine .arr (fun k hk hmem => ?_) (any_str_eq_iff.mp hmodel)
      exact Bool.eq_false_iff.mp (hfree k hk) (any_str_eq_iff.mpr hmem)
    · rintro (_ | _ | _ | _ | ⟨hfree, hmodel⟩)
      refine ⟨fun k hk => Bool.eq_false_iff.mpr fun hmem => ?_, any_str_eq_iff.mpr hmodel⟩
      exact hfree k hk (any_str_eq_iff.mp hmem)
  | str s =>
    have hobj : ∀ fields, Json.str s ≠ .obj fields := nofun
    rw [escapes_of_membership_iff rfl hobj]
    constructor
    · rintro ⟨hfree, hmodel⟩
      exact .str (fun k hk => of_decide_eq_false (hfree k hk)) (of_decide_eq_true hmodel)
    · rintro (_ | _ | _ | _ | _ | ⟨hfree, hmodel⟩)
      exact ⟨fun k hk => decide_eq_false (hfree k hk), decide_eq_true hmodel⟩
  | null => exact iff_of_true ⟨_, rfl⟩ .null
  | bool b => exact iff_of_true ⟨_, rfl⟩ (.bool b)
  | int n => exact iff_of_true ⟨_, rfl⟩ (.int n)
  | float x => exact iff_of_true ⟨_, rfl⟩ (.float x)

/-- **Checks.** What passes is an object that meets all of them, and nothing else: for a
value of another kind the chain of checks ends in an exception or in an answer 400. -/
theorem validateMinimalChat_ok_iff :
    validateMinimalChat data = .ok fields ↔ data = .obj fields ∧ Checked fields := by
  constructor
  · intro h
    cases data with
    | obj fields' =>
      rcases validateMinimalChat_obj fields' with ⟨hchecked, hok⟩ | ⟨-, why, hbad⟩
      · cases hok.symm.trans h
        exact ⟨rfl, hchecked⟩
      · cases hbad.symm.trans h
    | arr items =>
      have hobj : ∀ fields, Json.arr items ≠ .obj fields := nofun
      rw [validateMinimalChat_of_membership rfl hobj] at h
      split_ifs at h
    | str s =>
      have hobj : ∀ fields, Json.str s ≠ .obj fields := nofun
      rw [validateMinimalChat_of_membership rfl hobj] at h
      split_ifs at h
    | _ => cases h
  · rintro ⟨rfl, hchecked⟩
    rcases validateMinimalChat_obj fields with ⟨-, hok⟩ | ⟨hnot, -⟩
    · exact hok
    · exact absurd hchecked hnot

/-! ## Stage by stage -/

section stages

variable {I : Interpreter} {r : ChatPost} {v : Json} {sub : Submission} {x : Payload}

/-- An empty body is answered 400 before anything is parsed. -/
theorem acceptChat_empty (hbody : r.body = []) :
    acceptChat I r = .error (.badRequest .emptyBody) := by
  unfold acceptChat
  rw [if_pos hbody]
  rfl

/-- A body that is no JSON is answered 400. Other failures of `json.loads` escape: bytes
that are not UTF-8, integers with too many digits, containers nested too deeply. -/
theorem acceptChat_of_loads_error {e : Exn} (hbody : r.body ≠ [])
    (hloads : I.codec.loads r.body = .error e) :
    acceptChat I r =
      .error (if e = .jsonDecodeError then .badRequest .invalidJson else .escapes e) := by
  unfold acceptChat
  rw [if_neg hbody, hloads]
  rfl

/-- What the checks raise is what the route raises. -/
theorem acceptChat_of_invalid {raised : Raised} (hbody : r.body ≠ [])
    (hloads : I.codec.loads r.body = .ok v) (hvalid : validateMinimalChat v = .error raised) :
    acceptChat I r = .error raised := by
  unfold acceptChat
  rw [if_neg hbody, hloads]
  simp only [bind, Except.bind, hvalid]

/-- After the checks the thread fields are taken out, and the object is written again
for the classifier and for the upstream. -/
theorem acceptChat_of_valid (hbody : r.body ≠ []) (hloads : I.codec.loads r.body = .ok v)
    (hvalid : validateMinimalChat v = .ok fields) :
    acceptChat I r = (do
      let body ← raising (I.codec.dumps (.obj (stripConversationFields fields)))
      let classify ← raising (Classifier.classifyChatBody I body)
      .ok (⟨r.requestId, classify, r.path, r.query⟩,
        ⟨(resolveConversationId I.unicode r.token fields).1,
          (resolveConversationId I.unicode r.token fields).2, body, r.headers⟩)) := by
  unfold acceptChat
  rw [if_neg hbody, hloads]
  simp only [bind, Except.bind, hvalid]

/-- **What an accepted request consists of.** Its body is the client's object without the
thread fields, written again. -/
theorem acceptChat_ok (h : acceptChat I r = .ok (sub, x)) :
    ∃ data, I.codec.loads r.body = .ok (.obj data) ∧ Checked data ∧
      I.codec.dumps (.obj (stripConversationFields data)) = .ok x.body ∧
      Classifier.classifyChatBody I x.body = .ok sub.classify ∧
      (x.conversationId, x.isNewConversation) = resolveConversationId I.unicode r.token data ∧
      x.clientHeaders = r.headers := by
  have hbody : r.body ≠ [] := by
    intro hempty
    rw [acceptChat_empty hempty] at h
    cases h
  -- one function after the other, each of which must have succeeded
  cases hloads : I.codec.loads r.body with
  | error e =>
    rw [acceptChat_of_loads_error hbody hloads] at h
    cases h
  | ok v =>
    cases hvalid : validateMinimalChat v with
    | error raised =>
      rw [acceptChat_of_invalid hbody hloads hvalid] at h
      cases h
    | ok data =>
      obtain ⟨rfl, hchecked⟩ := validateMinimalChat_ok_iff.mp hvalid
      rw [acceptChat_of_valid hbody hloads hvalid] at h
      cases hdumps : I.codec.dumps (.obj (stripConversationFields data)) with
      | error e =>
        rw [hdumps] at h
        cases h
      | ok body =>
        cases hclassify : Classifier.classifyChatBody I body with
        | error e =>
          simp only [hdumps, raising, bind, Except.bind, hclassify] at h
          cases h
        | ok c =>
          simp only [hdumps, raising, bind, Except.bind, hclassify] at h
          cases h
          exact ⟨data, rfl, hchecked, hdumps, hclassify, rfl, rfl⟩

end stages

end Validation

end InferenceGateway
