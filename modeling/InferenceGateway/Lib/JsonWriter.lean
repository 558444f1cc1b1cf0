import InferenceGateway.Lib.Json

/-!
# Writing JSON

The text `json.dumps(v, ensure_ascii=False)` produces with its default
separators. Control characters, quotes and backslashes are escaped and
everything else is written as it is, surrogates included. Integers and
containers can exceed the limits the interpreter sets on digits and on recursion
(`excess`), and the first of them that does is what `dumps` fails with.

A float is written with the shortest digits that are rounded to it, laid out
with an exponent where it is very large or very small (`decimalChars`), as
`repr` does it.

- `le_of_mem_writeString`: a string is written without control characters, which
  is what lets lines end lines.
-/

namespace InferenceGateway.Lib

/-! ## Numbers -/

/-- Drop trailing zeros. -/
def Decimal.strip (d : Decimal) : Decimal :=
  if d.digits ≠ 0 ∧ d.digits % 10 = 0 then strip ⟨d.digits / 10, d.exp + 1⟩ else d
termination_by d.digits
decreasing_by exact Nat.div_lt_self (Nat.pos_of_ne_zero (by omega)) (by decide)

theorem Decimal.value_strip (d : Decimal) : d.strip.value = d.value := by
  induction d using Decimal.strip.induct with
  | case1 d h ih =>
    have hdigits : d.digits = d.digits / 10 * 10 := by omega
    rw [Decimal.strip, if_pos h, ih]
    unfold Decimal.value
    rw [zpow_add₀ (by norm_num : (10 : ℚ) ≠ 0), zpow_one]
    conv_rhs => rw [hdigits]
    push_cast
    ring
  | case2 d h => rw [Decimal.strip, if_neg h]

namespace Json

/-- `int.__repr__` -/
def intChars (n : ℤ) : List Char :=
  (if n < 0 then ['-'] else []) ++ Nat.toDigits 10 n.natAbs

def zeros (n : ℕ) : List Char := List.replicate n '0'

/-- An exponent with its sign and at least two digits. -/
def exponentChars (e : ℤ) : List Char :=
  let ds := Nat.toDigits 10 e.natAbs
  (if e < 0 then '-' else '+') :: (zeros (2 - ds.length) ++ ds)

/-- The digits of a positive decimal, laid out as `float.__repr__` does: with an exponent
if the point would be far from them. -/
def decimalChars (d : Decimal) : List Char :=
  let ds := Nat.toDigits 10 d.digits
  let point : ℤ := ds.length + d.exp
  if point ≤ -4 ∨ 16 < point then
    ds.take 1 ++ (if ds.length = 1 then [] else '.' :: ds.drop 1) ++
      'e' :: exponentChars (point - 1)
  else if point ≤ 0 then '0' :: '.' :: (zeros (-point).toNat ++ ds)
  else if point < ds.length then ds.take point.toNat ++ '.' :: ds.drop point.toNat
  else ds ++ zeros (point - ds.length).toNat ++ ['.', '0']

/-- `float.__repr__`, with JSON's names for what is not finite. -/
def floatChars : Binary64 → List Char
  | .nan => "NaN".toList
  | .infinity negative => (if negative then ['-'] else []) ++ "Infinity".toList
  | .finite negative mag => (if negative then ['-'] else []) ++ decimalChars mag.shortest.strip

/-! ## Strings -/

/-- The letter of a two-character escape. -/
def shortEscape? : Char → Option Char
  | '"' => some '"'
  | '\\' => some '\\'
  | '\n' => some 'n'
  | '\r' => some 'r'
  | '\t' => some 't'
  | '\x0c' => some 'f'
  | '\x08' => some 'b'
  | _ => none

/-- A character inside a string. -/
def escapeOf (c : Char) : List Char :=
  match shortEscape? c with
  | some e => ['\\', e]
  | none =>
    if c.toNat < 0x20 then
      ['\\', 'u', '0', '0', Nat.digitChar (c.toNat / 16), Nat.digitChar (c.toNat % 16)]
    else [c]

/-- A code point inside a string. -/
def escape (c : CodePoint) : Text :=
  match c.toChar? with
  | some ch => .ofChars (escapeOf ch)
  | none => [c]

def writeString (s : Text) : Text :=
  .ofChars ['"'] ++ (s.flatMap escape ++ .ofChars ['"'])

/-- Control characters are escaped. -/
theorem le_of_mem_escapeOf {c ch : Char} (h : ch ∈ escapeOf c) : 0x20 ≤ ch.toNat := by
  unfold escapeOf shortEscape? at h
  split at h
  · next e he =>
    rcases List.mem_pair.mp h with rfl | rfl
    · decide
    · split at he <;> cases he <;> decide
  · split at h
    · next hctl =>
      -- a control character is below 32, so both digits of its escape are printed
      have hdigit : ∀ n < 32, 0x20 ≤ (Nat.digitChar (n / 16)).toNat ∧
          0x20 ≤ (Nat.digitChar (n % 16)).toNat := by decide
      simp only [List.mem_cons, List.not_mem_nil, or_false] at h
      rcases h with rfl | rfl | rfl | rfl | rfl | rfl
      · decide
      · decide
      · decide
      · decide
      · exact (hdigit _ hctl).1
      · exact (hdigit _ hctl).2
    · next hctl =>
      rw [List.mem_singleton.mp h]
      exact not_lt.mp hctl

/-- A string is written without control characters. -/
theorem le_of_mem_writeString {s : Text} {c : CodePoint} (h : c ∈ writeString s) :
    0x20 ≤ c.val := by
  unfold writeString at h
  rcases List.mem_append.mp h with h | h
  · rw [List.mem_singleton.mp h]
    decide
  rcases List.mem_append.mp h with h | h
  · obtain ⟨x, -, hc⟩ := List.mem_flatMap.mp h
    unfold escape at hc
    split at hc
    · obtain ⟨ch, hch, rfl⟩ := List.mem_map.mp hc
      exact le_of_mem_escapeOf hch
    · next hnone =>
      -- a surrogate
      rw [List.mem_singleton.mp hc]
      have hsurrogate := CodePoint.toChar?_eq_none_iff.mp hnone
      unfold CodePoint.isSurrogate at hsurrogate
      rw [Bool.and_eq_true, decide_eq_true_eq] at hsurrogate
      omega
  · rw [List.mem_singleton.mp h]
    decide

/-! ## Values -/

mutual

/-- The text of a value. -/
def write : Json → Text
  | .null => .ofString "null"
  | .bool true => .ofString "true"
  | .bool false => .ofString "false"
  | .int n => .ofChars (intChars n)
  | .float x => .ofChars (floatChars x)
  | .str s => writeString s
  | .arr [] => .ofString "[]"
  | .arr (v :: vs) => .ofChars ['['] ++ (write v ++ writeItems vs)
  | .obj [] => .ofString "{}"
  | .obj ((k, v) :: es) =>
    .ofChars ['{'] ++ (writeString k ++ (.ofString ": " ++ (write v ++ writeMembers es)))

/-- The rest of an array. -/
def writeItems : List Json → Text
  | [] => .ofChars [']']
  | v :: vs => .ofString ", " ++ (write v ++ writeItems vs)

/-- The rest of an object. -/
def writeMembers : List (Text × Json) → Text
  | [] => .ofChars ['}']
  | (k, v) :: es =>
    .ofString ", " ++ (writeString k ++ (.ofString ": " ++ (write v ++ writeMembers es)))

end

/-- A limit of the interpreter that a value exceeds. -/
inductive Excess where
  /-- An integer has too many digits (`sys.get_int_max_str_digits`). -/
  | digits
  /-- Containers are nested too deeply. -/
  | depth
  deriving DecidableEq, Repr

mutual

/-- The first limit exceeded in writing a value. -/
def excess (digits : ℕ) : ℕ → Json → Option Excess
  | _, .int n => if digits < (Nat.toDigits 10 n.natAbs).length then some .digits else none
  | 0, .arr _ | 0, .obj _ => some .depth
  | depth + 1, .arr vs => excessItems digits depth vs
  | depth + 1, .obj es => excessMembers digits depth es
  | _, _ => none

def excessItems (digits : ℕ) (depth : ℕ) : List Json → Option Excess
  | [] => none
  | v :: vs => (excess digits depth v).or (excessItems digits depth vs)

def excessMembers (digits : ℕ) (depth : ℕ) : List (Text × Json) → Option Excess
  | [] => none
  | (_, v) :: es => (excess digits depth v).or (excessMembers digits depth es)

end

/-- `json.dumps(v, ensure_ascii=False)` -/
def dumps (digits depth : ℕ) (v : Json) : Except Excess Text :=
  match excess digits depth v with
  | some e => .error e
  | none => .ok (write v)

end Json

end InferenceGateway.Lib
