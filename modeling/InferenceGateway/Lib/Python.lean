import InferenceGateway.Lib.JsonLimits
import Mathlib.Data.List.DropRight
import Mathlib.Data.List.Infix

/-!
# Texts and values in Python

What `str.strip`, `int` and `str` make of texts and of JSON values. They look
code points up in the Unicode database, which is a parameter: which code points
are space, and which digit a code point stands for, is nothing that the results
below depend on.

- `exists_strip`, `strip_append_append`: what `str.strip` takes off, and that it
  takes off all of it.
- `Json.str?_ok_iff`: when `str` of a value that was read succeeds. The text of
  a container is made by a recursion of its own, with a limit of its own on how
  high a value may be.
-/

namespace InferenceGateway.Lib

/-- What `unicodedata` says of code points. -/
structure UnicodeData where
  isSpace : CodePoint → Bool
  decimal? : CodePoint → Option (Fin 10)
  isPrintable : CodePoint → Bool

namespace UnicodeData

variable (U : UnicodeData)

/-- `s.strip()` -/
def strip (s : Text) : Text := (s.dropWhile U.isSpace).rdropWhile U.isSpace

/-- Nothing is added. -/
theorem mem_of_mem_strip {s : Text} {c : CodePoint} (h : c ∈ U.strip s) : c ∈ s :=
  (List.dropWhile_suffix _).subset ((List.rdropWhile_prefix _ _).subset h)

/-- White space, what is left of a text, and white space. -/
theorem exists_strip (s : Text) : ∃ lead trail, s = lead ++ U.strip s ++ trail ∧
    (∀ c ∈ lead, U.isSpace c = true) ∧ ∀ c ∈ trail, U.isSpace c = true := by
  refine ⟨s.takeWhile U.isSpace, (s.dropWhile U.isSpace).rtakeWhile U.isSpace, ?_, ?_, ?_⟩
  · unfold strip
    rw [List.append_assoc, List.rdropWhile_append_rtakeWhile, List.takeWhile_append_dropWhile]
  · exact fun c hc => List.mem_takeWhile_imp hc
  · exact fun c hc => List.mem_rtakeWhile_imp hc

/-- White space around a text makes no difference. -/
theorem strip_append_append {lead s trail : Text} (hlead : ∀ c ∈ lead, U.isSpace c = true)
    (htrail : ∀ c ∈ trail, U.isSpace c = true) : U.strip (lead ++ s ++ trail) = U.strip s := by
  have hright : ∀ t : Text, (t ++ trail).rdropWhile U.isSpace = t.rdropWhile U.isSpace := by
    intro t
    unfold List.rdropWhile
    rw [List.reverse_append, List.dropWhile_append_of_pos]
    exact fun c hc => htrail c (List.mem_reverse.mp hc)
  unfold strip
  rw [List.append_assoc, List.dropWhile_append_of_pos hlead, List.dropWhile_append]
  split
  · next hempty =>
    rw [List.isEmpty_iff.mp hempty, List.dropWhile_eq_nil_iff.mpr htrail]
  · exact hright _

/-- What is left starts with no white space. -/
theorem isSpace_of_head?_strip {s : Text} {c : CodePoint} (h : (U.strip s).head? = some c) :
    U.isSpace c = false := by
  obtain ⟨rest, hrest⟩ := List.rdropWhile_prefix U.isSpace (s.dropWhile U.isSpace)
  have hhead : (s.dropWhile U.isSpace).head? = some c := by
    have hstrip : ((s.dropWhile U.isSpace).rdropWhile U.isSpace).head? = some c := h
    rw [← hrest, List.head?_append, hstrip]
    rfl
  have hnot := List.head?_dropWhile_not U.isSpace s
  rwa [hhead] at hnot

/-- What is left ends with no white space. -/
theorem isSpace_of_getLast?_strip {s : Text} {c : CodePoint}
    (h : (U.strip s).getLast? = some c) : U.isSpace c = false := by
  have hne : U.strip s ≠ [] := by
    intro hnil
    rw [hnil] at h
    cases h
  have hnot := List.rdropWhile_last_not U.isSpace (s.dropWhile U.isSpace) hne
  have hlast : (U.strip s).getLast hne = c := (List.getLast_eq_iff_getLast?_eq_some hne).mpr h
  rw [← hlast]
  exact Bool.eq_false_iff.mpr hnot

/-! ## Integers -/

/-- `_PyUnicode_TransformDecimalAndSpaceToASCII`, code point by code point. -/
def transformDecimalAndSpace (c : CodePoint) : Char :=
  if c.val < 128 then Char.ofNat c.val
  else if U.isSpace c then ' '
  else
    match U.decimal? c with
    | some d => Nat.digitChar d
    | none => '?'

/-- `Py_ISSPACE` -/
def isAsciiSpace (c : Char) : Bool :=
  decide (c ∈ [' ', '\t', '\n', '\x0b', '\x0c', '\r'])

/-- Underscores stand between digits only, one at a time. -/
def Separated (run : List Char) : Prop :=
  run ≠ [] ∧ run.head? ≠ some '_' ∧ run.getLast? ≠ some '_' ∧ ¬ ['_', '_'] <:+: run

instance (run : List Char) : Decidable (Separated run) := by
  unfold Separated
  infer_instance

/-- `int(s)`; `none` is a `ValueError`. -/
def int? (digits : ℕ) (s : Text) : Option ℤ :=
  let cs := (s.map U.transformDecimalAndSpace).dropWhile isAsciiSpace
  let (negative, cs) := match cs with
    | '+' :: cs => (false, cs)
    | '-' :: cs => (true, cs)
    | cs => (false, cs)
  let run := cs.takeWhile fun c => c.isDigit || c = '_'
  let rest := cs.dropWhile fun c => c.isDigit || c = '_'
  let ds := run.filter Char.isDigit
  if Separated run ∧ rest.all isAsciiSpace = true ∧ ds.length ≤ digits then
    some ((if negative then -1 else 1) * Nat.ofDigitChars 10 ds 0)
  else none

/-! ## Representations -/

/-- `n` in hexadecimal, with at least `width` digits. -/
def hex (width n : ℕ) : List Char :=
  let ds := Nat.toDigits 16 n
  List.replicate (width - ds.length) '0' ++ ds

/-- One code point inside `unicode_repr`. -/
def reprCodePoint (quote c : CodePoint) : Text :=
  if c = quote ∨ c = .ofChar '\\' then [.ofChar '\\', c]
  else if c = .ofChar '\t' then .ofString "\\t"
  else if c = .ofChar '\n' then .ofString "\\n"
  else if c = .ofChar '\r' then .ofString "\\r"
  else if c.val < 0x20 ∨ c.val = 0x7F then .ofChars ('\\' :: 'x' :: hex 2 c.val)
  else if c.val < 0x7F ∨ U.isPrintable c = true then [c]
  else if c.val ≤ 0xFF then .ofChars ('\\' :: 'x' :: hex 2 c.val)
  else if c.val ≤ 0xFFFF then .ofChars ('\\' :: 'u' :: hex 4 c.val)
  else .ofChars ('\\' :: 'U' :: hex 8 c.val)

/-- `unicode_repr`: single quotes, unless these are in the text and double ones are not. -/
def reprString (s : Text) : Text :=
  let quote : CodePoint :=
    if .ofChar '\'' ∈ s ∧ .ofChar '"' ∉ s then .ofChar '"' else .ofChar '\''
  quote :: (s.flatMap (U.reprCodePoint quote) ++ [quote])

/-- `float.__repr__` -/
def reprFloat : Binary64 → Text
  | .nan => .ofString "nan"
  | .infinity negative => .ofString (if negative then "-inf" else "inf")
  | .finite negative mag => .ofChars (Json.floatChars (.finite negative mag))

mutual

/-- `repr(v)` -/
def repr : Json → Text
  | .null => .ofString "None"
  | .bool true => .ofString "True"
  | .bool false => .ofString "False"
  | .int n => .ofChars (Json.intChars n)
  | .float x => reprFloat x
  | .str s => U.reprString s
  | .arr [] => .ofString "[]"
  | .arr (v :: vs) => .ofString "[" ++ (repr v ++ reprItems vs)
  | .obj [] => .ofString "\x7b\x7d"
  | .obj ((k, v) :: es) =>
    .ofString "\x7b" ++ (U.reprString k ++ (.ofString ": " ++ (repr v ++ reprMembers es)))

/-- The rest of a list. -/
def reprItems : List Json → Text
  | [] => .ofString "]"
  | v :: vs => .ofString ", " ++ (repr v ++ reprItems vs)

/-- The rest of a dictionary. -/
def reprMembers : List (Text × Json) → Text
  | [] => .ofString "\x7d"
  | (k, v) :: es =>
    .ofString ", " ++ (U.reprString k ++ (.ofString ": " ++ (repr v ++ reprMembers es)))

end

end UnicodeData

namespace Json

mutual

/-- The first limit exceeded in `repr(v)`, which recurses for scalars too. -/
def reprExcess (digits : ℕ) : ℕ → Json → Option Excess
  | 0, _ => some .depth
  | _ + 1, .int n => if digits < (Nat.toDigits 10 n.natAbs).length then some .digits else none
  | depth + 1, .arr vs => reprExcessItems digits depth vs
  | depth + 1, .obj es => reprExcessMembers digits depth es
  | _ + 1, _ => none

def reprExcessItems (digits : ℕ) (depth : ℕ) : List Json → Option Excess
  | [] => none
  | v :: vs => (reprExcess digits depth v).or (reprExcessItems digits depth vs)

/-- The key recurses as deeply as a scalar in its place does. -/
def reprExcessMembers (digits : ℕ) (depth : ℕ) : List (Text × Json) → Option Excess
  | [] => none
  | (_, v) :: es => (reprExcess digits depth v).or (reprExcessMembers digits depth es)

end

/-- `str(v)`; a string is itself. -/
def str? (U : UnicodeData) (digits depth : ℕ) : Json → Except Excess Text
  | .str s => .ok s
  | v =>
    match reprExcess digits depth v with
    | some e => .error e
    | none => .ok (U.repr v)

/-! ## Limits -/

/-- The text of a list can be made if the texts of its items can. -/
theorem reprExcessItems_eq_none_iff {digits depth : ℕ} {vs : List Json} :
    reprExcessItems digits depth vs = none ↔ ∀ v ∈ vs, reprExcess digits depth v = none := by
  induction vs with
  | nil => simp [reprExcessItems]
  | cons v vs ih => simp [reprExcessItems, ih]

theorem reprExcessMembers_eq_none_iff {digits depth : ℕ} {es : List (Text × Json)} :
    reprExcessMembers digits depth es = none ↔
      ∀ e ∈ es, reprExcess digits depth e.2 = none := by
  induction es with
  | nil => simp [reprExcessMembers]
  | cons e es ih =>
    obtain ⟨k, v⟩ := e
    simp [reprExcessMembers, ih]

/-- How deeply values are nested, scalars included. -/
abbrev height (v : Json) : ℕ := v.levels 1

/-- Of a value that was read, only its height can be too much: its integers are short
enough to have been converted once already. -/
theorem reprExcess_eq_none_iff {digits depth : ℕ} {v : Json} (hshort : v.Short digits) :
    reprExcess digits depth v = none ↔ v.height ≤ depth := by
  -- on the value, with one level used up at each list or object
  induction v using ind generalizing depth with
  | null | bool | float | str => cases depth <;> simp [reprExcess, levels]
  | int n =>
    have hdigits : ¬ digits < (Nat.toDigits 10 n.natAbs).length := by
      obtain ⟨depth₀, h⟩ := hshort
      cases depth₀ <;> simpa [excess] using h
    cases depth with
    | zero => simp [reprExcess, levels]
    | succ depth => simp [reprExcess, levels, hdigits]
  | arr vs ih =>
    cases depth with
    | zero => simp [reprExcess, levels]
    | succ depth =>
      rw [reprExcess, reprExcessItems_eq_none_iff, height, levels, Nat.succ_le_succ_iff,
        levelsItems_le_iff]
      exact forall₂_congr fun v hv => ih v hv (hshort.of_arr v hv)
  | obj es ih =>
    cases depth with
    | zero => simp [reprExcess, levels]
    | succ depth =>
      rw [reprExcess, reprExcessMembers_eq_none_iff, height, levels, Nat.succ_le_succ_iff,
        levelsMembers_le_iff]
      exact forall₂_congr fun e he => ih e he (hshort.of_obj e he)

/-- A text is obtained of a string, and of what else was read if it is low enough. -/
theorem str?_ok_iff {U : UnicodeData} {digits depth : ℕ} {v : Json} (hshort : v.Short digits) :
    (∃ s, str? U digits depth v = .ok s) ↔ (∃ s, v = .str s) ∨ v.height ≤ depth := by
  rw [← reprExcess_eq_none_iff hshort]
  unfold str?
  split
  · next s => exact iff_of_true ⟨s, rfl⟩ (.inl ⟨s, rfl⟩)
  · next hstr =>
    have hnot : ¬ ∃ s, v = .str s := fun ⟨s, hs⟩ => hstr s hs
    rw [or_iff_right hnot]
    split <;> simp [*]

end Json

end InferenceGateway.Lib
