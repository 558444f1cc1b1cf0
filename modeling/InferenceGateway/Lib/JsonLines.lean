import InferenceGateway.Lib.JsonRoundTrip

/-!
# JSON lines

One value a line. No text of a value has a control character in it, whatever
strings the value is made of, so that only the writer of the stream ends lines,
and a reader that splits at line ends finds the values that were written.

- `Printed`: a text without control characters, kept by `append`. Every part of
  a written value is shown to be one: digits, exponents, escaped strings,
  punctuation.
- `Json.le_of_mem_encode_write`: no byte below the space is written.
- `JsonLines.lines_terminate`: lines that were terminated are read back as they
  were.
-/

namespace InferenceGateway.Lib

namespace Json

/-- No control character. -/
def Printed (s : Text) : Prop := ∀ c ∈ s, 0x20 ≤ c.val

/-- Two printed texts in a row are printed. -/
theorem Printed.append {s t : Text} (hs : Printed s) (ht : Printed t) : Printed (s ++ t) :=
  fun c hc => (List.mem_append.mp hc).elim (hs c) (ht c)

theorem printed_ofChars {cs : List Char} (h : ∀ ch ∈ cs, 0x20 ≤ ch.toNat) :
    Printed (.ofChars cs) := by
  intro c hc
  obtain ⟨ch, hch, rfl⟩ := List.mem_map.mp hc
  exact h ch hch

theorem printed_of_all {l : List Char} (h : (l.all fun ch => decide (0x20 ≤ ch.toNat)) = true) :
    Printed (.ofChars l) :=
  printed_ofChars fun ch hch => of_decide_eq_true (List.all_eq_true.mp h ch hch)

/-- A written string has no control character: those are escaped. -/
theorem printed_writeString (s : Text) : Printed (writeString s) := fun _ => le_of_mem_writeString

/-! ## Numbers -/

theorem le_of_isDigit {ch : Char} (h : ch.isDigit = true) : 0x20 ≤ ch.toNat := by
  unfold Char.isDigit at h
  rw [Bool.and_eq_true, decide_eq_true_eq] at h
  have hval : (48 : ℕ) ≤ ch.toNat := h.1
  omega

theorem printed_intChars (n : ℤ) : Printed (.ofChars (intChars n)) := by
  refine printed_ofChars fun ch hch => ?_
  rcases List.mem_append.mp hch with hsign | hdigits
  · split at hsign
    · rw [List.mem_singleton.mp hsign]
      decide
    · cases hsign
  · exact le_of_isDigit (isDigit_toDigits _ ch hdigits)

theorem le_of_mem_exponentChars {e : ℤ} {ch : Char} (h : ch ∈ exponentChars e) :
    0x20 ≤ ch.toNat := by
  unfold exponentChars at h
  rcases List.mem_cons.mp h with rfl | h
  · split <;> decide
  rcases List.mem_append.mp h with h | h
  · exact le_of_isDigit (isDigit_zeros _ ch h)
  · exact le_of_isDigit (isDigit_toDigits _ ch h)

/-- The decimal of a number is made of digits, a point, a zero and an exponent. -/
theorem le_of_mem_decimalChars {d : Decimal} {ch : Char} (h : ch ∈ decimalChars d) :
    0x20 ≤ ch.toNat := by
  have hdigits : ch ∈ Nat.toDigits 10 d.digits → 0x20 ≤ ch.toNat :=
    fun hmem => le_of_isDigit (isDigit_toDigits _ ch hmem)
  have hzeros : ∀ n, ch ∈ zeros n → 0x20 ≤ ch.toNat :=
    fun n hmem => le_of_isDigit (isDigit_zeros n ch hmem)
  unfold decimalChars at h
  dsimp only at h
  split at h
  · -- with an exponent
    rcases List.mem_append.mp h with h | h
    · rcases List.mem_append.mp h with h | h
      · exact hdigits (List.mem_of_mem_take h)
      · split at h
        · cases h
        · rcases List.mem_cons.mp h with rfl | h
          · decide
          · exact hdigits (List.mem_of_mem_drop h)
    · rcases List.mem_cons.mp h with rfl | h
      · decide
      · exact le_of_mem_exponentChars h
  split at h
  · rcases List.mem_cons.mp h with rfl | h
    · decide
    rcases List.mem_cons.mp h with rfl | h
    · decide
    rcases List.mem_append.mp h with h | h
    · exact hzeros _ h
    · exact hdigits h
  split at h
  · rcases List.mem_append.mp h with h | h
    · exact hdigits (List.mem_of_mem_take h)
    · rcases List.mem_cons.mp h with rfl | h
      · decide
      · exact hdigits (List.mem_of_mem_drop h)
  · rcases List.mem_append.mp h with h | h
    · rcases List.mem_append.mp h with h | h
      · exact hdigits h
      · exact hzeros _ h
    · rcases List.mem_pair.mp h with rfl | rfl <;> decide

/-- A float is a word (`NaN`, `Infinity`) or a decimal, with or without a sign. -/
theorem printed_floatChars (x : Binary64) : Printed (.ofChars (floatChars x)) := by
  cases x with
  | nan => exact printed_of_all rfl
  | infinity negative => cases negative <;> exact printed_of_all rfl
  | finite negative mag =>
    refine printed_ofChars fun ch hch => ?_
    rcases List.mem_append.mp hch with hsign | hdigits
    · split at hsign
      · rw [List.mem_singleton.mp hsign]
        decide
      · cases hsign
    · exact le_of_mem_decimalChars hdigits

/-! ## Values -/

theorem printed_writeItems {vs : List Json} (h : ∀ v ∈ vs, Printed (write v)) :
    Printed (writeItems vs) := by
  induction vs with
  | nil => exact printed_of_all rfl
  | cons v vs ih =>
    obtain ⟨hv, hvs⟩ := List.forall_mem_cons.mp h
    exact (printed_of_all (l := ", ".toList) rfl).append (hv.append (ih hvs))

theorem printed_member {k : Text} {v : Json} {tail : Text} (hv : Printed (write v))
    (htail : Printed tail) :
    Printed (writeString k ++ (.ofString ": " ++ (write v ++ tail))) :=
  (printed_writeString k).append
    ((printed_of_all (l := ": ".toList) rfl).append (hv.append htail))

theorem printed_writeMembers {es : List (Text × Json)} (h : ∀ e ∈ es, Printed (write e.2)) :
    Printed (writeMembers es) := by
  induction es with
  | nil => exact printed_of_all rfl
  | cons e es ih =>
    obtain ⟨he, hes⟩ := List.forall_mem_cons.mp h
    exact (printed_of_all (l := ", ".toList) rfl).append (printed_member he (ih hes))

/-- The text of a value is printed. By induction on the value. -/
theorem printed_write (v : Json) : Printed (write v) := by
  -- each value is its punctuation and the texts of its parts
  induction v using Json.ind with
  | null => exact printed_of_all rfl
  | bool b => cases b <;> exact printed_of_all rfl
  | int n => exact printed_intChars n
  | float x => exact printed_floatChars x
  | str s => exact printed_writeString s
  | arr vs ih =>
    cases vs with
    | nil => exact printed_of_all rfl
    | cons v vs =>
      obtain ⟨hv, hvs⟩ := List.forall_mem_cons.mp ih
      exact (printed_of_all (l := ['[']) rfl).append
        (hv.append (printed_writeItems hvs))
  | obj es ih =>
    cases es with
    | nil => exact printed_of_all rfl
    | cons e es =>
      obtain ⟨he, hes⟩ := List.forall_mem_cons.mp ih
      exact (printed_of_all (l := ['\x7b']) rfl).append
        (printed_member he (printed_writeMembers hes))

/-- **No text has a control character**, and neither have its bytes. -/
theorem le_of_mem_encode_write {v : Json} {b : List UInt8} (h : (write v).encode? = some b) :
    ∀ x ∈ b, 0x20 ≤ x.toNat :=
  Text.le_of_mem_encode (by decide) h (printed_write v)

end Json

namespace JsonLines

def LF : UInt8 := 0x0A

/-- A line with its end. -/
def terminate (line : List UInt8) : List UInt8 := line ++ [LF]

/-- What stands before each line feed of a stream. What comes after the last one is not a
line yet. -/
def lines (stream : List UInt8) : List (List UInt8) := (stream.splitOn LF).dropLast

/-- **Lines that were terminated are read back**, in their order and none of them joined
or split, if none of them has the terminator in it. -/
theorem lines_terminate {ls : List (List UInt8)} (h : ∀ l ∈ ls, LF ∉ l) :
    lines (ls.flatMap terminate) = ls := by
  have hsplit : (ls.flatMap terminate).splitOn LF = ls ++ [[]] := by
    induction ls with
    | nil => rfl
    | cons l ls ih =>
      obtain ⟨hl, hls⟩ := List.forall_mem_cons.mp h
      rw [List.flatMap_cons, terminate, List.append_assoc, List.singleton_append,
        List.splitOn_append_cons_self_of_not_mem hl, ih hls, List.cons_append]
  rw [lines, hsplit, List.dropLast_concat]

end JsonLines

end InferenceGateway.Lib
