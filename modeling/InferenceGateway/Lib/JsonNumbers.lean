import InferenceGateway.Lib.JsonScanner
import InferenceGateway.Lib.JsonWriter
import Mathlib.Data.List.TakeDrop

/-!
# Written numbers are read back

The scanner reads a number in three parts, digits, fraction and exponent, and
takes as much as it can; the writer lays a decimal out in one of four ways. Each
layout is shown to be read as the decimal it was made of, in front of anything
that stops a number.

- `scanNumber_intChars`: integers, unless they have too many digits.
- `scanNumber_scientific`, `scanNumber_small`, `scanNumber_middle`,
  `scanNumber_whole`: the four layouts, put together in
  `scanNumber_decimalChars`.
- `scanNumber_floatChars`: finite binary64 numbers. The digits that are written
  are the shortest that are rounded to the number, wherever the point is put.
-/

namespace InferenceGateway.Lib

namespace Json

/-- What may follow a number that ends here. -/
def Stops (rest : List Char) : Prop :=
  ∀ c ∈ rest.head?, c.isDigit = false ∧ c ≠ '.' ∧ c ≠ 'e' ∧ c ≠ 'E'

theorem stops_nil : Stops [] := by simp [Stops]

/-! ## Runs of digits -/

/-- Digits in front of something else are taken, and nothing else is. -/
theorem span_digits {ds rest : List Char} (hds : ∀ c ∈ ds, c.isDigit = true)
    (hrest : ∀ c ∈ rest.head?, c.isDigit = false) :
    (ds ++ rest).span Char.isDigit = (ds, rest) := by
  rw [List.span_eq_takeWhile_dropWhile, List.takeWhile_append_of_pos hds,
    List.dropWhile_append_of_pos hds]
  cases rest with
  | nil => simp
  | cons c rest =>
    have hc : c.isDigit = false := hrest c (by simp)
    simp [hc]

theorem isDigit_toDigits (n : ℕ) : ∀ c ∈ Nat.toDigits 10 n, c.isDigit = true :=
  fun _ hc => Nat.isDigit_of_mem_toDigits (by decide) (by decide) hc

/-- No number but zero starts with a zero. -/
theorem head_toDigits {n : ℕ} (hn : n ≠ 0) : ∀ c ∈ (Nat.toDigits 10 n).head?, c ≠ '0' := by
  induction n using Nat.strong_induction_on with
  | h n ih =>
    intro c hc
    by_cases hlt : n < 10
    · rw [Nat.toDigits_of_lt_base hlt] at hc
      have hall : ∀ n < 10, n ≠ 0 → n.digitChar ≠ '0' := by decide
      cases hc
      exact hall n hlt hn
    · have hten : 10 ≤ n := not_lt.mp hlt
      rw [Nat.toDigits_of_base_le (by decide) hten,
        List.head?_append_of_ne_nil _ Nat.toDigits_ne_nil] at hc
      exact ih (n / 10) (by omega) (by omega) c hc

theorem isDigit_zeros (n : ℕ) : ∀ c ∈ zeros n, c.isDigit = true := by
  intro c hc
  rw [List.eq_of_mem_replicate hc]
  rfl

/-- Leading zeros do not count. -/
theorem ofDigitChars_zeros (n : ℕ) (ds : List Char) :
    Nat.ofDigitChars 10 (zeros n ++ ds) 0 = Nat.ofDigitChars 10 ds 0 := by
  rw [Nat.ofDigitChars_append, zeros, Nat.ofDigitChars_replicate_zero, Nat.mul_zero]

/-! ## Fractions and exponents -/

/-- Where a number stops there is no fraction. -/
theorem scanFraction_of_stops {rest : List Char} (h : Stops rest) :
    scanFraction rest = ([], rest) := by
  unfold scanFraction
  split
  · exact absurd rfl (h '.' (by simp)).2.1
  · rfl

/-- Where a number stops there is no exponent. -/
theorem scanExponent_of_stops {rest : List Char} (h : Stops rest) :
    scanExponent rest = (none, rest) := by
  cases rest with
  | nil => rfl
  | cons c rest =>
    obtain ⟨-, -, he, hE⟩ := h c (by simp)
    simp [scanExponent, he, hE]

/-- Digits after a point are the fraction. -/
theorem scanFraction_digits {ds rest : List Char} (hne : ds ≠ [])
    (hds : ∀ c ∈ ds, c.isDigit = true) (hrest : ∀ c ∈ rest.head?, c.isDigit = false) :
    scanFraction ('.' :: (ds ++ rest)) = (ds, rest) := by
  cases ds with
  | nil => exact absurd rfl hne
  | cons d ds =>
    have hd : d.isDigit = true := hds d List.mem_cons_self
    simp only [scanFraction, List.cons_append, hd, if_true]
    exact span_digits hds hrest

/-- An exponent as it is written. -/
theorem scanExponent_exponentChars {e : ℤ} {rest : List Char} (h : Stops rest) :
    scanExponent ('e' :: (exponentChars e ++ rest)) = (some e, rest) := by
  have hrest : ∀ c ∈ rest.head?, c.isDigit = false := fun c hc => (h c hc).1
  have hds : ∀ c ∈ zeros (2 - (Nat.toDigits 10 e.natAbs).length) ++ Nat.toDigits 10 e.natAbs,
      c.isDigit = true := by
    intro c hc
    rcases List.mem_append.mp hc with hz | hd
    · exact isDigit_zeros _ c hz
    · exact isDigit_toDigits _ c hd
  have hne : zeros (2 - (Nat.toDigits 10 e.natAbs).length) ++ Nat.toDigits 10 e.natAbs ≠ [] := by
    simp
  -- the zero that fills a short exponent up to two digits does not count
  have hval : Nat.ofDigitChars 10 (zeros (2 - (Nat.toDigits 10 e.natAbs).length) ++
      Nat.toDigits 10 e.natAbs) 0 = e.natAbs := by
    rw [ofDigitChars_zeros, Nat.ofDigitChars_ten_toDigits]
  unfold exponentChars
  by_cases hneg : e < 0
  · simp only [scanExponent, true_or, if_true, if_pos hneg, List.cons_append]
    rw [span_digits hds hrest, if_neg hne, hval]
    simp only [Prod.mk.injEq, Option.some.injEq, and_true]
    omega
  · simp only [scanExponent, true_or, if_true, if_neg hneg, List.cons_append]
    rw [span_digits hds hrest, if_neg hne, hval]
    simp only [Bool.false_eq_true, if_false, Prod.mk.injEq, Option.some.injEq, and_true]
    omega

/-! ## Whole numbers -/

/-- Integer digits: a single zero, or no zero in front. -/
structure Leading (ds : List Char) : Prop where
  digits : ∀ c ∈ ds, c.isDigit = true
  ne_nil : ds ≠ []
  head : ds = ['0'] ∨ ∀ c ∈ ds.head?, c ≠ '0'

theorem leading_toDigits (n : ℕ) : Leading (Nat.toDigits 10 n) where
  digits := isDigit_toDigits n
  ne_nil := Nat.toDigits_ne_nil
  head := by
    by_cases hn : n = 0
    · subst hn
      exact .inl (Nat.toDigits_zero 10)
    · exact .inr (head_toDigits hn)

/-- Digits that may lead a number are read as its integer part: no zero in front of
others. -/
theorem scanMagnitude_leading {digits : ℕ} {negative : Bool} {ds rest : List Char}
    (h : Leading ds) (hrest : ∀ c ∈ rest.head?, c.isDigit = false) :
    scanMagnitude digits negative (ds ++ rest) = finishNumber digits negative ds rest := by
  rcases h.head with rfl | hhead
  · simp [scanMagnitude]
  · cases ds with
    | nil => exact absurd rfl h.ne_nil
    | cons d ds =>
      have hd : d ≠ '0' := hhead d (by simp)
      have hdigit : d.isDigit = true := h.digits d List.mem_cons_self
      have hspan := span_digits h.digits hrest
      simp only [List.cons_append] at hspan
      simp only [scanMagnitude, List.cons_append, if_neg hd, hdigit, if_true, hspan]

/-- A sign in front of integer digits. -/
theorem scanNumber_signed {digits : ℕ} {negative : Bool} {ds rest : List Char} (h : Leading ds)
    (hrest : ∀ c ∈ rest.head?, c.isDigit = false) :
    scanNumber digits ((if negative then ['-'] else []) ++ ds ++ rest) =
      finishNumber digits negative ds rest := by
  cases negative with
  | true =>
    simp only [if_true, List.cons_append, List.nil_append, scanNumber]
    exact scanMagnitude_leading h hrest
  | false =>
    rw [if_neg Bool.false_ne_true, List.nil_append, ← scanMagnitude_leading h hrest]
    -- without a sign the first character is a digit, so the scanner does not take it for one
    cases ds with
    | nil => exact absurd rfl h.ne_nil
    | cons d ds =>
      have hd : d ≠ '-' := by
        rintro rfl
        exact absurd (h.digits '-' List.mem_cons_self) (by decide)
      unfold scanNumber
      split
      case h_1 heq => exact absurd (List.cons.inj heq).1 hd
      case h_2 => rfl

/-- **Integers.** An integer with few enough digits is read back. -/
theorem scanNumber_intChars {digits : ℕ} {n : ℤ} {rest : List Char}
    (hdigits : (Nat.toDigits 10 n.natAbs).length ≤ digits) (h : Stops rest) :
    scanNumber digits (intChars n ++ rest) = .ok (.int n, rest) := by
  have hsign : (if n < 0 then ['-'] else []) = if decide (n < 0) then ['-'] else [] := by simp
  unfold intChars
  rw [hsign, scanNumber_signed (leading_toDigits _) fun c hc => (h c hc).1]
  unfold finishNumber
  simp only [scanFraction_of_stops h, scanExponent_of_stops h, and_self, if_true]
  rw [if_neg (not_lt.mpr hdigits), Nat.ofDigitChars_ten_toDigits]
  -- the sign and the absolute value make up the number
  by_cases hneg : n < 0
  · simp only [hneg, decide_true, if_true]
    congr 3
    omega
  · simp only [hneg, decide_false, Bool.false_eq_true, if_false]
    congr 3
    omega

/-! ## Binary64 numbers -/

/-- Only the value of a decimal matters. -/
theorem toBinary64_congr {d d' : Decimal} (h : d.value = d'.value) (negative : Bool) :
    toBinary64 negative d = toBinary64 negative d' := by
  unfold toBinary64 Magnitude.ofDecimal
  rw [h]

/-- The shortest decimal of a magnitude reads as the magnitude. -/
theorem toBinary64_shortest (negative : Bool) (mag : Magnitude) :
    toBinary64 negative mag.shortest.strip = .finite negative mag := by
  rw [toBinary64_congr mag.shortest.value_strip]
  unfold toBinary64
  rw [mag.shortest_spec]

/-- Integer digits, a fraction and no exponent. -/
theorem finishNumber_fraction {digits : ℕ} {negative : Bool} {ds fs rest : List Char}
    (hne : fs ≠ []) (hfs : ∀ c ∈ fs, c.isDigit = true) (h : Stops rest) :
    finishNumber digits negative ds ('.' :: (fs ++ rest)) =
      .ok (.float (toBinary64 negative ⟨Nat.ofDigitChars 10 (ds ++ fs) 0, -fs.length⟩), rest) := by
  unfold finishNumber
  simp only [scanFraction_digits hne hfs fun c hc => (h c hc).1, scanExponent_of_stops h]
  rw [if_neg fun hcond => hne hcond.1]
  simp

/-- Integer digits, a fraction that may be empty, and an exponent. -/
theorem finishNumber_exponent {digits : ℕ} {negative : Bool} {ds fs rest : List Char} {e : ℤ}
    (hfs : ∀ c ∈ fs, c.isDigit = true) (h : Stops rest) :
    finishNumber digits negative ds
        ((if fs = [] then [] else '.' :: fs) ++ 'e' :: (exponentChars e ++ rest)) =
      .ok (.float (toBinary64 negative ⟨Nat.ofDigitChars 10 (ds ++ fs) 0, e - fs.length⟩),
        rest) := by
  have hfraction : scanFraction ((if fs = [] then [] else '.' :: fs) ++
      'e' :: (exponentChars e ++ rest)) = (fs, 'e' :: (exponentChars e ++ rest)) := by
    by_cases hnil : fs = []
    · subst hnil
      rfl
    · rw [if_neg hnil]
      exact scanFraction_digits hnil hfs (by simp [Char.isDigit])
  unfold finishNumber
  simp only [hfraction, scanExponent_exponentChars h]
  simp

/-- The first digits of a positive number can lead. -/
theorem leading_take {n k : ℕ} (hn : n ≠ 0) (hk : k ≠ 0) :
    Leading ((Nat.toDigits 10 n).take k) where
  digits := fun c hc => isDigit_toDigits n c (List.mem_of_mem_take hc)
  ne_nil := by simp [hk]
  head := by
    refine .inr fun c hc => head_toDigits hn c ?_
    rwa [List.head?_take, if_neg hk] at hc

/-- All the digits of a positive number can lead, with zeros after them. -/
theorem leading_zeros {n k : ℕ} (hn : n ≠ 0 ∨ k = 0) : Leading (Nat.toDigits 10 n ++ zeros k) where
  digits := by
    intro c hc
    rcases List.mem_append.mp hc with hd | hz
    · exact isDigit_toDigits n c hd
    · exact isDigit_zeros k c hz
  ne_nil := by simp
  head := by
    rcases hn with hn | rfl
    · refine .inr fun c hc => head_toDigits hn c ?_
      rwa [List.head?_append_of_ne_nil _ Nat.toDigits_ne_nil] at hc
    · rw [zeros, List.replicate_zero, List.append_nil]
      exact (leading_toDigits n).head

section layout

variable (digits : ℕ) (negative : Bool) {rest : List Char} {d : Decimal}

/-- A decimal laid out with an exponent. -/
theorem scanNumber_scientific (hd : d.digits ≠ 0) (h : Stops rest) :
    scanNumber digits ((if negative then ['-'] else []) ++ (Nat.toDigits 10 d.digits).take 1 ++
      ((if (Nat.toDigits 10 d.digits).drop 1 = [] then [] else
          '.' :: (Nat.toDigits 10 d.digits).drop 1) ++
        'e' :: (exponentChars ((Nat.toDigits 10 d.digits).length + d.exp - 1) ++ rest))) =
      .ok (.float (toBinary64 negative d), rest) := by
  have hstop : ∀ c ∈ ((if (Nat.toDigits 10 d.digits).drop 1 = [] then [] else
      '.' :: (Nat.toDigits 10 d.digits).drop 1) ++ 'e' :: (exponentChars
        ((Nat.toDigits 10 d.digits).length + d.exp - 1) ++ rest)).head?, c.isDigit = false := by
    split <;> simp [Char.isDigit]
  rw [scanNumber_signed (leading_take hd (by decide)) hstop,
    finishNumber_exponent (fun c hc => isDigit_toDigits _ c (List.mem_of_mem_drop hc)) h,
    List.take_append_drop, Nat.ofDigitChars_ten_toDigits, List.length_drop]
  have hlen : 0 < (Nat.toDigits 10 d.digits).length := Nat.length_toDigits_pos
  have hexp : ((Nat.toDigits 10 d.digits).length + d.exp - 1 -
      ((Nat.toDigits 10 d.digits).length - 1 : ℕ) : ℤ) = d.exp := by omega
  rw [hexp]

/-- A decimal laid out with nothing but zeros in front. -/
theorem scanNumber_small {k : ℕ} (hk : (k + (Nat.toDigits 10 d.digits).length : ℤ) = -d.exp)
    (h : Stops rest) :
    scanNumber digits ((if negative then ['-'] else []) ++ ['0'] ++
      '.' :: (zeros k ++ Nat.toDigits 10 d.digits ++ rest)) =
      .ok (.float (toBinary64 negative d), rest) := by
  have hdigits : ∀ c ∈ zeros k ++ Nat.toDigits 10 d.digits, c.isDigit = true := by
    intro c hc
    rcases List.mem_append.mp hc with hz | hd
    · exact isDigit_zeros k c hz
    · exact isDigit_toDigits _ c hd
  have hzero : Leading ['0'] := Nat.toDigits_zero 10 ▸ leading_toDigits 0
  rw [scanNumber_signed hzero (by simp [Char.isDigit]), finishNumber_fraction (by simp) hdigits h]
  -- the zeros in front of the digits are worth nothing
  have hval : Nat.ofDigitChars 10 (['0'] ++ (zeros k ++ Nat.toDigits 10 d.digits)) 0 = d.digits :=
    (ofDigitChars_zeros 1 _).trans
      ((ofDigitChars_zeros k _).trans Nat.ofDigitChars_ten_toDigits)
  have hexp : (-((zeros k ++ Nat.toDigits 10 d.digits).length : ℕ) : ℤ) = d.exp := by
    rw [List.length_append, zeros, List.length_replicate]
    push_cast
    omega
  rw [hval, hexp]

/-- A decimal laid out with the point among its digits. -/
theorem scanNumber_middle {k : ℕ} (hd : d.digits ≠ 0) (hk : k ≠ 0)
    (hlt : k < (Nat.toDigits 10 d.digits).length)
    (hexp : ((Nat.toDigits 10 d.digits).length : ℤ) + d.exp = k) (h : Stops rest) :
    scanNumber digits ((if negative then ['-'] else []) ++ (Nat.toDigits 10 d.digits).take k ++
      '.' :: ((Nat.toDigits 10 d.digits).drop k ++ rest)) =
      .ok (.float (toBinary64 negative d), rest) := by
  rw [scanNumber_signed (leading_take hd hk) (by simp [Char.isDigit]),
    finishNumber_fraction (by simpa using hlt)
      (fun c hc => isDigit_toDigits _ c (List.mem_of_mem_drop hc)) h,
    List.take_append_drop, Nat.ofDigitChars_ten_toDigits, List.length_drop]
  have heq : (-((Nat.toDigits 10 d.digits).length - k : ℕ) : ℤ) = d.exp := by omega
  rw [heq]

/-- A whole number, laid out with a zero after the point. -/
theorem scanNumber_whole {k : ℕ} (hd : d.digits ≠ 0 ∨ k = 0) (hexp : d.exp = k) (h : Stops rest) :
    scanNumber digits ((if negative then ['-'] else []) ++
      (Nat.toDigits 10 d.digits ++ zeros k) ++ '.' :: (['0'] ++ rest)) =
      .ok (.float (toBinary64 negative d), rest) := by
  rw [scanNumber_signed (leading_zeros hd) (by simp [Char.isDigit]),
    finishNumber_fraction (by simp) (by simp [Char.isDigit]) h]
  have hval : Nat.ofDigitChars 10 (Nat.toDigits 10 d.digits ++ zeros k ++ ['0']) 0 =
      10 ^ k * d.digits * 10 := by
    rw [Nat.ofDigitChars_append, Nat.ofDigitChars_append, Nat.ofDigitChars_ten_toDigits, zeros,
      Nat.ofDigitChars_replicate_zero]
    simp [Nat.ofDigitChars_cons, Nat.mul_comm]
  -- a zero after the point does not change the value
  have hvalue : (⟨10 ^ k * d.digits * 10, -(['0'].length : ℤ)⟩ : Decimal).value = d.value := by
    unfold Decimal.value
    rw [hexp]
    push_cast
    simp only [List.length_singleton, Nat.cast_one, zpow_neg, zpow_one, zpow_natCast]
    field_simp
  rw [hval, toBinary64_congr hvalue]

/-- **Decimals.** However a decimal is laid out, with an exponent or with its point in
one of three places, its value is read back. -/
theorem scanNumber_decimalChars (hd : d.digits ≠ 0 ∨ d.exp = 0) (h : Stops rest) :
    scanNumber digits ((if negative then ['-'] else []) ++ decimalChars d ++ rest) =
      .ok (.float (toBinary64 negative d), rest) := by
  have hlen : 0 < (Nat.toDigits 10 d.digits).length := Nat.length_toDigits_pos
  have hone : d.digits = 0 → (Nat.toDigits 10 d.digits).length = 1 := by
    intro h0
    rw [h0, Nat.toDigits_zero]
    rfl
  unfold decimalChars
  -- the four layouts, in the order in which the writer tries them
  by_cases hsci : ((Nat.toDigits 10 d.digits).length : ℤ) + d.exp ≤ -4 ∨
      16 < ((Nat.toDigits 10 d.digits).length : ℤ) + d.exp
  · have hd0 : d.digits ≠ 0 := by
      intro h0
      have := hone h0
      have := hd.resolve_left (not_not.mpr h0)
      omega
    have hdrop : (Nat.toDigits 10 d.digits).length = 1 ↔
        (Nat.toDigits 10 d.digits).drop 1 = [] := by
      rw [List.drop_eq_nil_iff]
      omega
    simp only [if_pos hsci, hdrop]
    simpa using scanNumber_scientific digits negative hd0 h
  simp only [if_neg hsci]
  obtain ⟨hnear, hfar⟩ := not_or.mp hsci
  by_cases hsmall : ((Nat.toDigits 10 d.digits).length : ℤ) + d.exp ≤ 0
  · simp only [if_pos hsmall]
    have hk : ((-((Nat.toDigits 10 d.digits).length + d.exp)).toNat +
        (Nat.toDigits 10 d.digits).length : ℤ) = -d.exp := by omega
    simpa using scanNumber_small digits negative hk h
  simp only [if_neg hsmall]
  by_cases hmiddle : ((Nat.toDigits 10 d.digits).length : ℤ) + d.exp <
      (Nat.toDigits 10 d.digits).length
  · have hd0 : d.digits ≠ 0 := by
      intro h0
      have := hd.resolve_left (not_not.mpr h0)
      omega
    simp only [if_pos hmiddle]
    simpa using scanNumber_middle digits negative
      (k := (((Nat.toDigits 10 d.digits).length : ℤ) + d.exp).toNat) hd0 (by omega) (by omega)
      (by omega) h
  · simp only [if_neg hmiddle]
    simpa using scanNumber_whole digits negative
      (k := (((Nat.toDigits 10 d.digits).length : ℤ) + d.exp -
        (Nat.toDigits 10 d.digits).length).toNat) (by omega) (by omega) h

/-- Every layout starts with a digit, so it starts a text. -/
theorem decimalChars_head (d : Decimal) : ∃ ds r, decimalChars d = ds ++ r ∧ ds ≠ [] ∧
    ∀ c ∈ ds, c.isDigit = true := by
  have htake : ∀ k, ∀ c ∈ (Nat.toDigits 10 d.digits).take k, c.isDigit = true :=
    fun k c hc => isDigit_toDigits _ c (List.mem_of_mem_take hc)
  unfold decimalChars
  -- by the four ways to write it
  by_cases hsci : ((Nat.toDigits 10 d.digits).length : ℤ) + d.exp ≤ -4 ∨
      16 < ((Nat.toDigits 10 d.digits).length : ℤ) + d.exp
  · simp only [if_pos hsci]
    exact ⟨_, _, List.append_assoc .., by simp, htake 1⟩
  simp only [if_neg hsci]
  by_cases hsmall : ((Nat.toDigits 10 d.digits).length : ℤ) + d.exp ≤ 0
  · simp only [if_pos hsmall]
    exact ⟨['0'], _, rfl, by simp, by simp [Char.isDigit]⟩
  simp only [if_neg hsmall]
  by_cases hmiddle : ((Nat.toDigits 10 d.digits).length : ℤ) + d.exp <
      (Nat.toDigits 10 d.digits).length
  · simp only [if_pos hmiddle]
    refine ⟨_, _, rfl, ?_, htake _⟩
    simp only [ne_eq, List.take_eq_nil_iff, Nat.toDigits_ne_nil, or_false]
    omega
  · simp only [if_neg hmiddle]
    exact ⟨_, _, List.append_assoc .., Nat.toDigits_ne_nil, isDigit_toDigits _⟩

/-- The shortest decimal is zero only where the magnitude is. -/
theorem shortest_strip_digits (mag : Magnitude) :
    mag.shortest.strip.digits ≠ 0 ∨ mag.shortest.strip.exp = 0 := by
  by_cases h0 : mag.mant = 0
  · right
    have hzero : mag.shortest = ⟨0, 0⟩ := if_pos h0
    rw [hzero, Decimal.strip, if_neg (by simp)]
  -- only the zero has no digits
  · left
    intro hdigits
    have hvalue : mag.shortest.value = 0 := by
      rw [← Decimal.value_strip]
      simp [Decimal.value, hdigits]
    have hzero : Magnitude.ofDecimal mag.shortest = Magnitude.ofDecimal ⟨0, 0⟩ := by
      unfold Magnitude.ofDecimal
      rw [hvalue]
      simp [Decimal.value]
    have hmag : (⟨0, 0, by decide, by decide, .inl rfl⟩ : Magnitude).shortest = ⟨0, 0⟩ := rfl
    rw [mag.shortest_spec, ← hmag, Magnitude.shortest_spec] at hzero
    exact h0 (congrArg Magnitude.mant (Option.some.inj hzero))

/-- **Finite binary64 numbers.** The text of a finite float is read as that float. -/
theorem scanNumber_floatChars (mag : Magnitude) (h : Stops rest) :
    scanNumber digits (floatChars (.finite negative mag) ++ rest) =
      .ok (.float (.finite negative mag), rest) := by
  have hscan := scanNumber_decimalChars digits negative (shortest_strip_digits mag) h
  rwa [toBinary64_shortest] at hscan

end layout

end Json

end InferenceGateway.Lib
