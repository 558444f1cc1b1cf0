import Mathlib.Data.List.Basic

/-!
# Code points and UTF-8

A `Text` is a sequence of code points, surrogates included, as Python's `str`
is; `Char` has the code points that are not surrogates, which are those UTF-8
can carry. What `encode?` writes `decode?` reads back.

- `toChars?`: the characters of a text, if it has no surrogate
  (`toChars?_eq_none_iff`). It is a partial inverse of `ofChars`, and splits
  with the text (`toChars?_append_eq_some`).
- `encode?`: the strict encoder, which refuses surrogates. `le_of_mem_encode`:
  bytes that are ASCII come from characters that are.
- `encodeEscaped?`: the encoder with `surrogateescape`, which writes the
  surrogates that stand for single bytes as those bytes. On a text without
  surrogates the two agree (`encodeEscaped?_of_toChars?`).
-/

namespace InferenceGateway.Lib

abbrev CodePoint := Fin 0x110000

namespace CodePoint

def ofChar (c : Char) : CodePoint where
  val := c.toNat
  isLt := by
    rcases c.valid with h | ⟨-, h⟩
    · exact Nat.lt_trans h (by decide)
    · exact h

/-- The character, unless the code point is a surrogate. -/
def toChar? (c : CodePoint) : Option Char :=
  if h : c.val.isValidChar then some (Char.ofNatAux c.val h) else none

/-- A high surrogate. -/
def isHigh (c : CodePoint) : Bool := decide (0xD800 ≤ c.val) && decide (c.val ≤ 0xDBFF)

/-- A low surrogate. -/
def isLow (c : CodePoint) : Bool := decide (0xDC00 ≤ c.val) && decide (c.val ≤ 0xDFFF)

def isSurrogate (c : CodePoint) : Bool := decide (0xD800 ≤ c.val) && decide (c.val ≤ 0xDFFF)

@[simp] theorem toChar?_ofChar (c : Char) : (ofChar c).toChar? = some c := by
  have hvalid : (ofChar c).val.isValidChar := c.valid
  rw [toChar?, dif_pos hvalid, Option.some.injEq]
  exact Char.ext rfl

theorem ofChar_of_toChar? {c : CodePoint} {ch : Char} (h : c.toChar? = some ch) :
    ofChar ch = c := by
  unfold toChar? at h
  by_cases hvalid : c.val.isValidChar
  · rw [dif_pos hvalid] at h
    cases h
    rfl
  · rw [dif_neg hvalid] at h
    cases h

/-- The code points that are no characters are the surrogates. -/
theorem toChar?_eq_none_iff {c : CodePoint} : c.toChar? = none ↔ c.isSurrogate = true := by
  have hc := c.isLt
  have hvalid : c.val.isValidChar ↔ ¬ c.isSurrogate = true := by
    unfold Nat.isValidChar isSurrogate
    rw [Bool.and_eq_true, decide_eq_true_eq, decide_eq_true_eq]
    omega
  unfold toChar?
  by_cases h : c.val.isValidChar
  · rw [dif_pos h]
    exact iff_of_false nofun (hvalid.mp h)
  · rw [dif_neg h]
    exact iff_of_true rfl (by_contra fun hs => h (hvalid.mpr hs))

end CodePoint

abbrev Text := List CodePoint

namespace Text

def ofChars (cs : List Char) : Text := cs.map CodePoint.ofChar

def ofString (s : String) : Text := ofChars s.toList

/-- The characters of a text without surrogates. -/
def toChars? (s : Text) : Option (List Char) := s.mapM CodePoint.toChar?

/-- `s.encode("utf-8")`; `none` is a `UnicodeEncodeError`. -/
def encode? (s : Text) : Option (List UInt8) := s.toChars?.map (·.flatMap String.utf8EncodeChar)

/-- A code point under `surrogateescape`, which gives a byte that was no UTF-8 back as it was. -/
def escapeByte? (c : CodePoint) : Option (List UInt8) :=
  if 0xDC80 ≤ c.val ∧ c.val ≤ 0xDCFF then some [(c.val - 0xDC00).toUInt8]
  else c.toChar?.map String.utf8EncodeChar

/-- `s.encode("utf-8", "surrogateescape")`; `none` is a `UnicodeEncodeError`. -/
def encodeEscaped? (s : Text) : Option (List UInt8) := (s.mapM escapeByte?).map List.flatten

/-- `b.decode("utf-8")`; `none` is a `UnicodeDecodeError`. -/
def decode? (b : List UInt8) : Option (List Char) :=
  (ByteArray.mk b.toArray).utf8Decode?.map Array.toList

@[simp] theorem toChars?_nil : toChars? [] = some [] := rfl

theorem toChars?_cons (c : CodePoint) (s : Text) :
    toChars? (c :: s) = c.toChar?.bind fun ch => s.toChars?.map (ch :: ·) := by
  simp only [toChars?, List.mapM_cons]
  cases c.toChar? with
  | none => rfl
  | some ch => exact Option.map_eq_bind.symm

@[simp] theorem toChars?_ofChars (cs : List Char) : toChars? (ofChars cs) = some cs := by
  induction cs with
  | nil => rfl
  | cons c cs ih =>
    rw [ofChars, List.map_cons, toChars?_cons, CodePoint.toChar?_ofChar]
    show Option.map _ (toChars? (ofChars cs)) = _
    rw [ih]
    rfl

/-- Characters are no surrogates. -/
theorem isSurrogate_of_mem_ofChars {cs : List Char} {c : CodePoint} (h : c ∈ ofChars cs) :
    c.isSurrogate = false := by
  obtain ⟨ch, -, rfl⟩ := List.mem_map.mp h
  by_contra hsurrogate
  have hnone := CodePoint.toChar?_eq_none_iff.mpr (Bool.not_eq_false _ ▸ hsurrogate)
  rw [CodePoint.toChar?_ofChar] at hnone
  cases hnone

/-- A text has characters if both its parts do, and they are theirs. -/
theorem toChars?_append (s t : Text) :
    toChars? (s ++ t) = s.toChars?.bind fun cs => t.toChars?.map (cs ++ ·) := by
  induction s with
  | nil => cases h : toChars? t <;> simp [h]
  | cons c s ih =>
    rw [List.cons_append, toChars?_cons, toChars?_cons, ih]
    cases c.toChar? with
    | none => rfl
    | some ch =>
      cases toChars? s with
      | none => rfl
      | some cs => cases toChars? t <;> rfl

/-- The characters of a text in two parts. -/
theorem toChars?_append_eq_some {s t : Text} {cs : List Char} :
    toChars? (s ++ t) = some cs ↔
      ∃ cs₁ cs₂, s.toChars? = some cs₁ ∧ t.toChars? = some cs₂ ∧ cs = cs₁ ++ cs₂ := by
  rw [toChars?_append]
  constructor
  · intro h
    obtain ⟨cs₁, h₁, h⟩ := Option.bind_eq_some_iff.mp h
    obtain ⟨cs₂, h₂, heq⟩ := Option.map_eq_some_iff.mp h
    exact ⟨cs₁, cs₂, h₁, h₂, heq.symm⟩
  · rintro ⟨cs₁, cs₂, h₁, h₂, rfl⟩
    rw [h₁, h₂]
    rfl

/-- A text that has characters is made of them. -/
theorem ofChars_of_toChars? {s : Text} {cs : List Char} (h : s.toChars? = some cs) :
    ofChars cs = s := by
  induction s generalizing cs with
  | nil =>
    cases h
    rfl
  | cons c s ih =>
    rw [toChars?_cons] at h
    obtain ⟨ch, hch, h⟩ := Option.bind_eq_some_iff.mp h
    obtain ⟨cs', hcs, rfl⟩ := Option.map_eq_some_iff.mp h
    rw [ofChars, List.map_cons, CodePoint.ofChar_of_toChar? hch]
    exact congrArg (c :: ·) (ih hcs)

/-- Only surrogates keep a text from being encoded. -/
theorem toChars?_eq_none_iff {s : Text} :
    s.toChars? = none ↔ ∃ c ∈ s, c.isSurrogate = true := by
  induction s with
  | nil => simp
  | cons c s ih =>
    rw [toChars?_cons]
    cases hc : c.toChar? with
    | none => simp [CodePoint.toChar?_eq_none_iff.mp hc]
    | some ch =>
      have hns : c.isSurrogate = false := by
        rw [← Bool.not_eq_true, ← CodePoint.toChar?_eq_none_iff, hc]
        exact Option.some_ne_none ch
      simp [hns, ih]

/-- The bytes of a character are no smaller than it, up to the end of ASCII. -/
theorem le_of_mem_utf8EncodeChar {c : Char} {b : UInt8} {m : ℕ} (hm : m ≤ 128)
    (hc : m ≤ c.toNat) (hb : b ∈ String.utf8EncodeChar c) : m ≤ b.toNat := by
  have hval : c.val.toNat = c.toNat := rfl
  unfold String.utf8EncodeChar at hb
  dsimp only at hb
  split_ifs at hb <;>
    simp only [List.mem_cons, List.not_mem_nil, or_false] at hb <;>
    rcases hb with rfl | rfl | rfl | rfl <;>
    simp only [UInt8.toNat_ofNat'] <;> omega

/-- A text of code points from `m` on, with `m` in ASCII, is encoded in bytes from `m`
on. The bytes of a character outside ASCII all are at least 128. -/
theorem le_of_mem_encode {s : Text} {b : List UInt8} {m : ℕ} (hm : m ≤ 128)
    (h : s.encode? = some b) (hs : ∀ c ∈ s, m ≤ c.val) : ∀ x ∈ b, m ≤ x.toNat := by
  obtain ⟨cs, hcs, rfl⟩ := Option.map_eq_some_iff.mp h
  intro x hx
  obtain ⟨ch, hch, hx⟩ := List.mem_flatMap.mp hx
  have hmem : CodePoint.ofChar ch ∈ s := by
    rw [← ofChars_of_toChars? hcs]
    exact List.mem_map_of_mem hch
  exact le_of_mem_utf8EncodeChar hm (hs _ hmem) hx

/-! ### Escaped bytes -/

theorem encodeEscaped?_cons (c : CodePoint) (s : Text) :
    encodeEscaped? (c :: s) =
      (escapeByte? c).bind fun b => (encodeEscaped? s).map (b ++ ·) := by
  simp only [encodeEscaped?, List.mapM_cons]
  cases escapeByte? c with
  | none => rfl
  | some b => cases List.mapM escapeByte? s <;> rfl

/-- A character is escaped as it is encoded. -/
theorem escapeByte?_of_toChar? {c : CodePoint} {ch : Char} (h : c.toChar? = some ch) :
    escapeByte? c = some (String.utf8EncodeChar ch) := by
  have hplain : ¬ (0xDC80 ≤ c.val ∧ c.val ≤ 0xDCFF) := by
    intro hrange
    have hnone : c.toChar? = none := by
      rw [CodePoint.toChar?_eq_none_iff, CodePoint.isSurrogate, Bool.and_eq_true,
        decide_eq_true_eq, decide_eq_true_eq]
      omega
    rw [hnone] at h
    cases h
  rw [escapeByte?, if_neg hplain, h, Option.map_some]

/-- Without surrogates there is nothing to escape. -/
theorem encodeEscaped?_of_toChars? {s : Text} {cs : List Char} (h : s.toChars? = some cs) :
    encodeEscaped? s = some (cs.flatMap String.utf8EncodeChar) := by
  induction s generalizing cs with
  | nil =>
    cases h
    rfl
  | cons c s ih =>
    rw [toChars?_cons] at h
    obtain ⟨ch, hch, h⟩ := Option.bind_eq_some_iff.mp h
    obtain ⟨cs', hcs, rfl⟩ := Option.map_eq_some_iff.mp h
    rw [encodeEscaped?_cons, escapeByte?_of_toChar? hch, ih hcs]
    rfl

/-- An escaped byte is no ASCII. -/
theorem le_of_mem_escapeByte {c : CodePoint} {b : List UInt8} {m : ℕ} (hm : m ≤ 128)
    (hc : m ≤ c.val) (h : escapeByte? c = some b) : ∀ x ∈ b, m ≤ x.toNat := by
  intro x hx
  unfold escapeByte? at h
  split at h
  · next hrange =>
    cases h
    rw [List.mem_singleton.mp hx]
    simp only [Nat.toUInt8, UInt8.toNat_ofNat']
    omega
  · obtain ⟨ch, hch, rfl⟩ := Option.map_eq_some_iff.mp h
    rw [← CodePoint.ofChar_of_toChar? hch] at hc
    exact le_of_mem_utf8EncodeChar hm hc hx

/-- The bound for the strict encoder holds with escapes too: an escaped byte is no
ASCII. -/
theorem le_of_mem_encodeEscaped {s : Text} {b : List UInt8} {m : ℕ} (hm : m ≤ 128)
    (h : s.encodeEscaped? = some b) (hs : ∀ c ∈ s, m ≤ c.val) : ∀ x ∈ b, m ≤ x.toNat := by
  -- on the text; each character is encoded by itself
  induction s generalizing b with
  | nil =>
    cases h
    exact fun x hx => absurd hx List.not_mem_nil
  | cons c s ih =>
    rw [encodeEscaped?_cons] at h
    obtain ⟨b₁, h₁, h⟩ := Option.bind_eq_some_iff.mp h
    obtain ⟨b₂, h₂, rfl⟩ := Option.map_eq_some_iff.mp h
    obtain ⟨hc, hrest⟩ := List.forall_mem_cons.mp hs
    intro x hx
    rcases List.mem_append.mp hx with hx | hx
    · exact le_of_mem_escapeByte hm hc h₁ x hx
    · exact ih h₂ hrest x hx

/-! ### Decoding -/

theorem mk_flatMap (cs : List Char) :
    ByteArray.mk (cs.flatMap String.utf8EncodeChar).toArray = cs.utf8Encode :=
  ByteArray.ext List.data_toByteArray.symm

/-- What was encoded is decoded again. -/
theorem decode?_of_encode? {s : Text} {b : List UInt8} (h : s.encode? = some b) :
    ∃ cs, decode? b = some cs ∧ s = ofChars cs := by
  obtain ⟨cs, hcs, rfl⟩ := Option.map_eq_some_iff.mp h
  refine ⟨cs, ?_, (ofChars_of_toChars? hcs).symm⟩
  rw [decode?, mk_flatMap, List.utf8Decode?_utf8Encode]
  rfl

end Text

end InferenceGateway.Lib
