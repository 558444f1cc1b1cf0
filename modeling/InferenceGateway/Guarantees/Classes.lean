import InferenceGateway.Guarantees.Totality
import Mathlib.Algebra.Order.BigOperators.Group.List

/-!
# Larger requests and their classes

A request that asks for more, with longer texts, more messages or a larger
`max_tokens`, should be treated as no lighter. The estimate is monotone in the
texts; what can fail is the cap on generated tokens, where a missing
`max_tokens` and one of zero both count as 512.

- `Grows`: what it is to ask for more, field by field, with the same stream
  flag.
- `roughTokensFromMessages_eq`: the estimate is a sum over the texts of the
  messages, so it grows with them (`promptSize_le`).
- `weight_classOf_le_iff`: the class gets lighter exactly when the estimate
  falls below a bound of the classes.
- `noLighter_iff`: a request that grows keeps its weight, unless `max_tokens`
  grows from zero, which counts as 512, to fewer than 512.
-/

namespace InferenceGateway

open Lib

namespace Classifier

variable {I : Interpreter} {data data' : List (Text × Json)}

/-! ## The estimate as a sum -/

/-- The text of a part of a message. -/
def partTexts (I : Interpreter) : Json → List Text
  | .obj part => ((getItem (field "text") part).bind fun text =>
      (text.str? I.unicode I.digits I.strDepth).toOption).toList
  | _ => []

/-- What `m.get("content", "")` gives. -/
def contentOf (m : List (Text × Json)) : Json := (getItem (field "content") m).getD (.str [])

/-- The texts of a content. -/
def contentTexts (I : Interpreter) : Json → List Text
  | .str s => [s]
  | .arr parts => parts.flatMap (partTexts I)
  | _ => []

/-- The texts of a message. -/
def messageTexts (I : Interpreter) : Json → List Text
  | .obj m => contentTexts I (contentOf m)
  | _ => []

/-- A quarter of each text, and at least one for each. -/
def sizeOf (texts : List Text) : ℕ := (texts.map quarter).sum

theorem sizeOf_append (texts texts' : List Text) :
    sizeOf (texts ++ texts') = sizeOf texts + sizeOf texts' := by
  rw [sizeOf, List.map_append, List.sum_append]
  rfl

/-- The size of a prompt. -/
def promptSize (I : Interpreter) (messages : List Json) : ℕ :=
  sizeOf (messages.flatMap (messageTexts I))

/-- The loop adds up what its body adds. -/
theorem total_eq {f : Json → Except Exn ℕ} {g : Json → List Text} {vs : List Json}
    (hf : ∀ v n, f v = .ok n → n = sizeOf (g v)) :
    ∀ {n : ℕ}, total f vs = .ok n → n = sizeOf (vs.flatMap g) := by
  induction vs with
  | nil =>
    intro n h
    cases h
    rfl
  | cons v vs ih =>
    intro n h
    obtain ⟨k, hk, h⟩ := exists_of_bind h
    obtain ⟨m, hm, h⟩ := exists_of_bind h
    cases h
    rw [List.flatMap_cons, sizeOf_append, ← hf v k hk, ← ih hm]

/-- A part counts for its text, as `str` gives it. -/
theorem partTokens_eq {v : Json} {n : ℕ} (h : partTokens I v = .ok n) :
    n = sizeOf (partTexts I v) := by
  -- a part without a text counts for nothing, and so does one that is no object
  cases v with
  | obj part =>
    simp only [partTokens] at h
    simp only [partTexts]
    cases htext : getItem (field "text") part with
    | none =>
      rw [htext] at h
      cases h
      rfl
    | some text =>
      rw [htext] at h
      dsimp only at h
      rw [Option.bind_some]
      cases hstr : text.str? I.unicode I.digits I.strDepth with
      | error e =>
        rw [hstr] at h
        cases h
      | ok s =>
        rw [hstr] at h
        cases h
        rfl
  | _ =>
    cases h
    rfl

/-- A message counts for its content: a text, or a list of parts. -/
theorem messageTokens_eq {v : Json} {n : ℕ} (h : messageTokens I v = .ok n) :
    n = sizeOf (messageTexts I v) := by
  cases v with
  | obj m =>
    simp only [messageTokens] at h
    simp only [messageTexts, contentOf]
    -- the content is a text or a list of parts, and anything else counts for nothing
    cases hcontent : (getItem (field "content") m).getD (.str []) with
    | str s =>
      rw [hcontent] at h
      cases h
      rfl
    | arr parts =>
      rw [hcontent] at h
      exact total_eq (fun _ _ => partTokens_eq) h
    | _ =>
      rw [hcontent] at h
      cases h
      rfl
  | _ => cases h

/-- **The estimate.** It is the size of all texts in the messages, each rounded down by
itself. -/
theorem roughTokensFromMessages_eq {messages : List Json} {n : ℕ}
    (h : roughTokensFromMessages I messages = .ok n) : n = promptSize I messages :=
  total_eq (fun _ _ => messageTokens_eq) h

/-! ## Growth -/

/-- A list that goes on, with items that may have grown. -/
def Extends {α : Type} (R : α → α → Prop) (xs ys : List α) : Prop :=
  ∃ ys' new, ys = ys' ++ new ∧ List.Forall₂ R xs ys'

/-- A sum grows with its summands and with their number. -/
theorem sum_le_of_extends {α : Type} {R : α → α → Prop} {f : α → ℕ} {xs ys : List α}
    (hf : ∀ x y, R x y → f x ≤ f y) (h : Extends R xs ys) : (xs.map f).sum ≤ (ys.map f).sum := by
  obtain ⟨ys', new, rfl, hall⟩ := h
  rw [List.map_append, List.sum_append]
  refine le_trans ?_ (Nat.le_add_right _ _)
  induction hall with
  | nil => exact le_refl _
  | cons hxy _ ih => exact add_le_add (hf _ _ hxy) ih

/-- A part whose text may be longer. -/
inductive PartGrows : Json → Json → Prop where
  | same (v : Json) : PartGrows v v
  | text {part part' : List (Text × Json)} {s s' : Text}
      (h : getItem (field "text") part = some (.str s))
      (h' : getItem (field "text") part' = some (.str s')) (hlength : s.length ≤ s'.length) :
      PartGrows (.obj part) (.obj part')

/-- A content that may be longer or have more parts. -/
inductive ContentGrows : Json → Json → Prop where
  | same (v : Json) : ContentGrows v v
  | text {s s' : Text} (hlength : s.length ≤ s'.length) : ContentGrows (.str s) (.str s')
  | parts {parts parts' : List Json} (h : Extends PartGrows parts parts') :
      ContentGrows (.arr parts) (.arr parts')

/-- A message whose content may have grown. -/
inductive MessageGrows : Json → Json → Prop where
  | same (v : Json) : MessageGrows v v
  | content {m m' : List (Text × Json)} (h : ContentGrows (contentOf m) (contentOf m')) :
      MessageGrows (.obj m) (.obj m')

/-- `bool(data.get("stream", True))` -/
def streamOf (data : List (Text × Json)) : Bool :=
  truthy ((getItem (field "stream") data).getD (.bool true))

/-- The messages of a valid body. -/
def promptOf (data : List (Text × Json)) : List Json :=
  match getItem (field "messages") data with
  | some (.arr messages) => messages
  | _ => []

/-- A request for more work: more or longer messages, or a larger `max_tokens`. -/
structure Grows (data data' : List (Text × Json)) : Prop where
  valid : ∃ messages, getItem (field "messages") data = some (.arr messages)
  valid' : ∃ messages, getItem (field "messages") data' = some (.arr messages)
  messages : Extends MessageGrows (promptOf data) (promptOf data')
  stream : streamOf data' = streamOf data
  maxTokens : getItem (field "max_tokens") data' = getItem (field "max_tokens") data ∨
    ∃ m m' : ℤ, 0 ≤ m ∧ m ≤ m' ∧ getItem (field "max_tokens") data = some (.int m) ∧
      getItem (field "max_tokens") data' = some (.int m')

theorem quarter_mono {s s' : Text} (h : s.length ≤ s'.length) : quarter s ≤ quarter s' := by
  unfold quarter
  omega

theorem sizeOf_flatMap (f : Json → List Text) (vs : List Json) :
    sizeOf (vs.flatMap f) = (vs.map fun v => sizeOf (f v)).sum := by
  induction vs with
  | nil => rfl
  | cons v vs ih => rw [List.flatMap_cons, sizeOf_append, ih, List.map_cons, List.sum_cons]

/-- A part with a longer text is no smaller. -/
theorem PartGrows.size_le {v v' : Json} (h : PartGrows v v') :
    sizeOf (partTexts I v) ≤ sizeOf (partTexts I v') := by
  cases h with
  | same => exact le_refl _
  | text h h' hlength =>
    simp only [partTexts, h, h', Option.bind_some, Json.str?]
    exact Nat.add_le_add_right (quarter_mono hlength) 0

/-- A content with longer parts, or more of them, is no smaller. -/
theorem ContentGrows.size_le {v v' : Json} (h : ContentGrows v v') :
    sizeOf (contentTexts I v) ≤ sizeOf (contentTexts I v') := by
  cases h with
  | same => exact le_refl _
  | text hlength => exact Nat.add_le_add_right (quarter_mono hlength) 0
  | parts h =>
    simp only [contentTexts, sizeOf_flatMap]
    exact sum_le_of_extends (fun _ _ h => h.size_le) h

/-- A message with a larger content is no smaller. -/
theorem MessageGrows.size_le {v v' : Json} (h : MessageGrows v v') :
    sizeOf (messageTexts I v) ≤ sizeOf (messageTexts I v') := by
  cases h with
  | same => exact le_refl _
  | content h => exact h.size_le

/-- The prompt of a larger request is no smaller. -/
theorem Grows.promptSize_le (h : Grows data data') :
    promptSize I (promptOf data) ≤ promptSize I (promptOf data') := by
  unfold promptSize
  rw [sizeOf_flatMap, sizeOf_flatMap]
  exact sum_le_of_extends (fun _ _ h => h.size_le) h.messages

/-! ## Weights -/

/-- `SMALL_CHAT` is lighter than `MEDIUM_CHAT`, and that than `LARGE_CHAT` and
`STREAMING_LONG`. -/
def weight : RequestClass → ℕ
  | .smallChat | .embedding => 0
  | .mediumChat => 1
  | .largeChat | .streamingLong => 2

theorem isLarge_iff {cls : RequestClass} : cls.isLarge = true ↔ weight cls = 2 := by
  cases cls <;> decide

/-- The estimates at which the class gets heavier. -/
def bounds (stream : Bool) : List ℤ := if stream then [1500, 4001] else [1500, 8000]

/-- The class gets lighter exactly when the estimate falls below a bound. -/
theorem weight_classOf_le_iff {stream : Bool} {t t' : ℤ} :
    weight (classOf stream t) ≤ weight (classOf stream t') ↔
      ¬ ∃ bound ∈ bounds stream, t' < bound ∧ bound ≤ t := by
  -- there are two bounds to cross, and the second depends on the stream
  have hbounds : (∃ bound ∈ bounds stream, t' < bound ∧ bound ≤ t) ↔
      (t' < 1500 ∧ 1500 ≤ t) ∨
        (t' < (if stream then 4001 else 8000) ∧ (if stream then 4001 else 8000) ≤ t) := by
    cases stream <;> simp [bounds]
  rw [hbounds]
  unfold classOf
  cases stream with
  | true =>
    simp only [true_and, if_true]
    split_ifs <;> simp only [weight] <;> omega
  | false =>
    simp only [Bool.false_eq_true, false_and, if_false]
    split_ifs <;> simp only [weight] <;> omega

/-- What classification finds out about a body with messages. -/
theorem classifyChatBody_eq {body : Bytes} {c : ClassifyResult}
    (hload : I.recodec.loads body = .ok (.obj data))
    (hvalid : ∃ messages, getItem (field "messages") data = some (.arr messages))
    (h : classifyChatBody I body = .ok c) :
    c.estTokens = promptSize I (promptOf data) ∧
      ∃ maxTokens, maxTokensOf I data = .ok maxTokens ∧
        c.reqClass = classOf (streamOf data) (c.estTokens + generationCap maxTokens) := by
  unfold classifyChatBody at h
  rw [hload] at h
  obtain ⟨v, hv, h⟩ := exists_of_bind h
  cases hv
  obtain ⟨messages, hm, h⟩ := exists_of_bind h
  obtain ⟨est, hest, h⟩ := exists_of_bind h
  obtain ⟨maxTokens, hmax, h⟩ := exists_of_bind h
  -- the messages of a valid body are a list, so `messagesOf` has taken it as it is
  have hmessages : messages = promptOf data := by
    obtain ⟨ms, hms⟩ := hvalid
    unfold messagesOf at hm
    unfold promptOf
    rw [hms] at hm ⊢
    cases ms <;> cases hm <;> rfl
  cases h
  refine ⟨?_, maxTokens, hmax, rfl⟩
  rw [← hmessages, ← roughTokensFromMessages_eq hest]

/-- The second class is no lighter, its estimate no smaller, and it counts towards
`large_inflight` if the first one does. -/
def NoLighter (c c' : ClassifyResult) : Prop :=
  weight c.reqClass ≤ weight c'.reqClass ∧ c.estTokens ≤ c'.estTokens ∧
    (c.reqClass.isLarge = true → c'.reqClass.isLarge = true)

/-- `max_tokens` grows from zero, which counts as 512, to fewer than 512, and a bound lies
between the two estimates. -/
def Slips (I : Interpreter) (data data' : List (Text × Json)) : Prop :=
  getItem (field "max_tokens") data = some (.int 0) ∧
    ∃ m : ℤ, getItem (field "max_tokens") data' = some (.int m) ∧ 0 < m ∧ m < 512 ∧
      ∃ bound ∈ bounds (streamOf data), promptSize I (promptOf data') + m < bound ∧
        bound ≤ promptSize I (promptOf data) + 512

/-- An integer `max_tokens` is the cap, unless it is zero. -/
theorem generationCap_of_int {m : ℤ} {maxTokens : Option ℤ}
    (h : getItem (field "max_tokens") data = some (.int m))
    (hmax : maxTokensOf I data = .ok maxTokens) :
    generationCap maxTokens = if m = 0 then 512 else m := by
  unfold maxTokensOf at hmax
  rw [h] at hmax
  cases hmax
  rfl

/-- The cap depends on one field. -/
theorem maxTokensOf_congr
    (h : getItem (field "max_tokens") data' = getItem (field "max_tokens") data) :
    maxTokensOf I data' = maxTokensOf I data := by
  unfold maxTokensOf
  rw [h]

/-- The estimates of a request and of a larger one have a bound between them, in the wrong
order, only where `max_tokens` was zero. -/
theorem slips_iff {maxTokens maxTokens' : Option ℤ} (hgrows : Grows data data')
    (hmax : maxTokensOf I data = .ok maxTokens) (hmax' : maxTokensOf I data' = .ok maxTokens') :
    (∃ bound ∈ bounds (streamOf data),
      promptSize I (promptOf data') + generationCap maxTokens' < bound ∧
        bound ≤ promptSize I (promptOf data) + generationCap maxTokens) ↔ Slips I data data' := by
  have hsize : (promptSize I (promptOf data) : ℤ) ≤ promptSize I (promptOf data') := by
    exact_mod_cast hgrows.promptSize_le
  constructor
  · rintro ⟨bound, hbound, hbelow, habove⟩
    rcases hgrows.maxTokens with hsame | ⟨m, m', hm, hmm', hget, hget'⟩
    · rw [maxTokensOf_congr hsame] at hmax'
      cases hmax.symm.trans hmax'
      omega
    · have hcap := generationCap_of_int hget hmax
      have hcap' := generationCap_of_int hget' hmax'
      -- a cap that was not zero grows with the field
      by_cases hzero : m = 0
      · subst hzero
        rw [if_pos rfl] at hcap
        have hzero' : m' ≠ 0 := by
          rintro rfl
          rw [if_pos rfl] at hcap'
          omega
        rw [if_neg hzero'] at hcap'
        rw [hcap] at habove
        rw [hcap'] at hbelow
        exact ⟨hget, m', hget', by omega, by omega, bound, hbound, hbelow, habove⟩
      · rw [if_neg hzero] at hcap
        rw [if_neg (show ¬ m' = 0 by omega)] at hcap'
        omega
  · rintro ⟨hget, m, hget', hpos, -, bound, hbound, hbelow, habove⟩
    have hcap := generationCap_of_int hget hmax
    have hcap' := generationCap_of_int hget' hmax'
    rw [if_pos rfl] at hcap
    rw [if_neg hpos.ne'] at hcap'
    rw [hcap, hcap']
    exact ⟨bound, hbound, hbelow, habove⟩

/-- **When a larger request keeps its weight.** For every body that is classified and
every one that asks for more, with the same stream flag: the class gets no lighter, the
estimate no smaller and a large request stays one, if and only if `max_tokens` does not
grow from zero to fewer than 512 across a bound. -/
theorem noLighter_iff {body body' : Bytes} {c c' : ClassifyResult}
    (hload : I.recodec.loads body = .ok (.obj data))
    (hload' : I.recodec.loads body' = .ok (.obj data')) (hgrows : Grows data data')
    (h : classifyChatBody I body = .ok c) (h' : classifyChatBody I body' = .ok c') :
    NoLighter c c' ↔ ¬ Slips I data data' := by
  obtain ⟨hest, maxTokens, hmax, hcls⟩ := classifyChatBody_eq hload hgrows.valid h
  obtain ⟨hest', maxTokens', hmax', hcls'⟩ := classifyChatBody_eq hload' hgrows.valid' h'
  have hsize : c.estTokens ≤ c'.estTokens := by
    rw [hest, hest']
    exact_mod_cast hgrows.promptSize_le
  have hweight : NoLighter c c' ↔ weight c.reqClass ≤ weight c'.reqClass := by
    refine ⟨fun h => h.1, fun hle => ⟨hle, hsize, fun hlarge => ?_⟩⟩
    have hmost : weight c'.reqClass ≤ 2 := by cases c'.reqClass <;> decide
    rw [isLarge_iff] at hlarge ⊢
    omega
  rw [hweight, ← slips_iff hgrows hmax hmax', hcls, hcls', hgrows.stream, hest, hest']
  exact weight_classOf_le_iff

/-- A buffered request with one message. -/
def askFor (content : Text) (maxTokens : ℤ) : List (Text × Json) :=
  [(field "model", .str (field "m")),
    (field "messages", .arr [.obj [(field "content", .str content)]]),
    (field "stream", .bool false), (field "max_tokens", .int maxTokens)]

/-- How it is classified, once it has been written. -/
theorem exists_classified (content : Text) (hplain : ∀ c ∈ content, c.isSurrogate = false)
    {maxTokens : ℤ} (hfew : maxTokens = 0 ∨ maxTokens = 1) :
    ∃ body, Validation.interpreter.recodec.loads body = .ok (.obj (askFor content maxTokens)) ∧
      classifyChatBody Validation.interpreter body = .ok
        ⟨classOf false (quarter content + generationCap (some maxTokens)), quarter content,
          some maxTokens, false, some "m"⟩ := by
  have hwf : (Json.obj (askFor content maxTokens)).WellFormed := by
    have hmessage : (Json.obj [(field "content", .str content)]).WellFormed :=
      .obj (List.nodup_singleton _) (by simp [Json.WellFormed.str])
    refine .obj ?_ ?_
    · show [field "model", field "messages", field "stream", field "max_tokens"].Nodup
      decide
    · simp only [askFor, List.forall_mem_cons, List.not_mem_nil, false_implies, implies_true,
        and_true]
      exact ⟨.str _, .arr (by simpa using hmessage), .bool _, .int _⟩
  have hshort : (Json.obj (askFor content maxTokens)).Short Validation.interpreter.digits := by
    rcases hfew with rfl | rfl <;> exact ⟨3, rfl⟩
  -- only the content could have a surrogate in it
  have hencodable : (Json.obj (askFor content maxTokens)).Encodable := by
    have htexts : (Json.obj (askFor content maxTokens)).texts = [field "model", field "m",
      field "messages", field "content", content, field "stream", field "max_tokens"] := rfl
    unfold Json.Encodable
    rw [htexts]
    simp only [List.forall_mem_cons, List.not_mem_nil, false_implies, implies_true, and_true]
    refine ⟨?_, ?_, ?_, ?_, hplain, ?_, ?_⟩ <;>
      exact fun _ hc => Text.isSurrogate_of_mem_ofChars hc
  have hnesting : (Json.obj (askFor content maxTokens)).nesting = 3 := rfl
  obtain ⟨body, hbody⟩ := (Codec.python_dumps_ok_iff (L := Validation.interpreter.toLimits)
    hshort).mpr ⟨by rw [hnesting]; decide, hencodable⟩
  have hload : Validation.interpreter.recodec.loads body =
      .ok (.obj (askFor content maxTokens)) :=
    (recodec_loads_iff hwf hshort hbody).mpr ⟨rfl, by rw [hnesting]; decide⟩
  refine ⟨body, hload, ?_⟩
  unfold classifyChatBody
  rw [hload]
  rfl

/-- A text of 4000 letters: 1000 tokens. -/
def thousand : Text := .ofChars (List.replicate 4000 'x')

theorem quarter_thousand : quarter thousand = 1000 := by
  unfold quarter thousand Text.ofChars
  rw [List.length_map, List.length_replicate]
  rfl

theorem grows_askFor {content content' : Text} {m m' : ℤ}
    (hlength : content.length ≤ content'.length)
    (hm : 0 ≤ m) (hmm' : m ≤ m') : Grows (askFor content m) (askFor content' m') where
  valid := ⟨_, rfl⟩
  valid' := ⟨_, rfl⟩
  messages := by
    have hmessage : MessageGrows (.obj [(field "content", .str content)])
        (.obj [(field "content", .str content')]) := .content (ContentGrows.text hlength)
    exact ⟨_, [], rfl, .cons hmessage .nil⟩
  stream := rfl
  maxTokens := .inr ⟨m, m', hm, hmm', rfl, rfl⟩

/-- A small request that asks for one token more. -/
theorem noLighter_small : ∃ body body' c c',
    classifyChatBody Validation.interpreter body = .ok c ∧
    classifyChatBody Validation.interpreter body' = .ok c' ∧ NoLighter c c' := by
  obtain ⟨body, hload, h⟩ := exists_classified [] nofun (.inl rfl)
  obtain ⟨body', hload', h'⟩ := exists_classified (field "hi")
    (fun _ hc => Text.isSurrogate_of_mem_ofChars hc) (.inr rfl)
  refine ⟨body, body', _, _, h, h', ?_⟩
  have hgrows : Grows (askFor [] 0) (askFor (field "hi") 1) :=
    grows_askFor (Nat.zero_le _) (le_refl _) zero_le_one
  refine (noLighter_iff hload hload' hgrows h h').mpr ?_
  rintro ⟨-, m, -, -, -, bound, hbound, -, habove⟩
  -- the first estimate is below all bounds
  have hsize : promptSize Validation.interpreter (promptOf (askFor [] 0)) = 1 := rfl
  have hleast : ∀ bound ∈ bounds (streamOf (askFor [] 0)), 1500 ≤ bound := by decide +kernel
  have := hleast bound hbound
  rw [hsize] at habove
  omega

/-- A prompt of 1000 tokens is of a medium request if `max_tokens` is 0, and of a small
one if it is 1. -/
theorem lighter_thousand : ∃ body body' c c' data data',
    Validation.interpreter.recodec.loads body = .ok (.obj data) ∧
    Validation.interpreter.recodec.loads body' = .ok (.obj data') ∧ Grows data data' ∧
    classifyChatBody Validation.interpreter body = .ok c ∧
    classifyChatBody Validation.interpreter body' = .ok c' ∧
    c.reqClass = .mediumChat ∧ c'.reqClass = .smallChat ∧ ¬ NoLighter c c' := by
  have hplain : ∀ c ∈ thousand, c.isSurrogate = false :=
    fun _ hc => Text.isSurrogate_of_mem_ofChars hc
  obtain ⟨body, hload, h⟩ := exists_classified thousand hplain (.inl rfl)
  obtain ⟨body', hload', h'⟩ := exists_classified thousand hplain (.inr rfl)
  rw [quarter_thousand] at h h'
  refine ⟨body, body', _, _, _, _, hload, hload',
    grows_askFor (le_refl _) (le_refl _) zero_le_one, h, h', ?_, ?_, ?_⟩
  · decide
  · decide
  · rintro ⟨hweight, -⟩
    revert hweight
    decide

end Classifier

end InferenceGateway
