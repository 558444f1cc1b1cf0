import Mathlib.Algebra.Order.Floor.Semiring
import Mathlib.Data.Int.Log
import Mathlib.Data.Rat.Floor
import Mathlib.Tactic.Linarith
import Mathlib.Tactic.Positivity
import Mathlib.Tactic.Ring

/-!
# Binary64 numbers

The values of IEEE 754 double precision, how a decimal is rounded to one, and
the shortest decimal that is rounded to a given one.

A finite magnitude is an integral number of units of `2 ^ -1074`, the smallest
positive value, in canonical form, so two magnitudes are equal exactly when they
have the same value. Not-a-number is one value: its payload is nothing any
function below can see.

- `Near m q`: `q` lies in the rounding interval of `m`. Around a power of two
  the interval is not symmetric, since the values below it are twice as dense.
- `round_of_near`: whatever lies in the rounding interval of a magnitude is
  rounded to it.
- `near_seventeen`: a decimal of seventeen digits is always near enough.
- `shortest_spec`: the shortest decimal of a magnitude is rounded to it, so what
  is written of a float reads back as the same float.
-/

namespace InferenceGateway.Lib

/-- `mant * 2 ^ expo` units of `2 ^ -1074`. -/
structure Magnitude where
  mant : ℕ
  expo : ℕ
  mant_lt : mant < 2 ^ 53
  expo_le : expo ≤ 2045
  /-- Only the lowest exponent has a short mantissa. -/
  normal : expo = 0 ∨ 2 ^ 52 ≤ mant
  deriving DecidableEq

inductive Binary64 where
  | nan
  | infinity (negative : Bool)
  | finite (negative : Bool) (mag : Magnitude)
  deriving DecidableEq

/-- The nearest natural number, the even one of two. -/
def roundHalfEven (q : ℚ) : ℕ :=
  if q - ⌊q⌋₊ < 1 / 2 then ⌊q⌋₊
  else if 1 / 2 < q - ⌊q⌋₊ then ⌊q⌋₊ + 1
  else ⌊q⌋₊ + ⌊q⌋₊ % 2

/-- Less than half away from an integer, a number is rounded to it. -/
theorem roundHalfEven_of_near {q : ℚ} {n : ℕ} (hlow : (n : ℚ) - 1 / 2 < q)
    (hhigh : q < n + 1 / 2) : roundHalfEven q = n := by
  unfold roundHalfEven
  -- `n` is the floor, or one more than the floor
  by_cases hq : (n : ℚ) ≤ q
  · have hfloor : ⌊q⌋₊ = n := by
      rw [Nat.floor_eq_iff (le_trans (Nat.cast_nonneg n) hq)]
      exact ⟨hq, by linarith⟩
    rw [hfloor, if_pos (by linarith)]
  · cases n with
    | zero =>
      have hneg : q < 0 := by simpa using hq
      have hfloor : ⌊q⌋₊ = 0 := Nat.floor_of_nonpos hneg.le
      rw [hfloor, if_pos (by push_cast; linarith)]
    | succ n =>
      push_cast at hlow hhigh hq
      have hn : (n : ℚ) ≤ q := by linarith
      have hfloor : ⌊q⌋₊ = n := by
        rw [Nat.floor_eq_iff (le_trans (Nat.cast_nonneg n) hn)]
        exact ⟨hn, by linarith⟩
      rw [hfloor, if_neg (by linarith), if_pos (by linarith)]

theorem le_roundHalfEven {q : ℚ} {k : ℕ} (h : (k : ℚ) ≤ q) : k ≤ roundHalfEven q := by
  have hfloor : k ≤ ⌊q⌋₊ := Nat.le_floor h
  unfold roundHalfEven
  split_ifs <;> omega

namespace Magnitude

/-- The units of a magnitude. -/
def units (m : Magnitude) : ℚ := m.mant * 2 ^ m.expo

/-- The exponent a number of units is rounded at: the mantissa has 53 bits, or the
exponent is the lowest. -/
def exponentOf (q : ℚ) : ℕ := Nat.log2 ⌊q⌋₊ - 52

/-- The exponent is large enough for the mantissa to fit. -/
theorem lt_of_exponentOf (q : ℚ) : q < 2 ^ 53 * 2 ^ exponentOf q := by
  have hlog : ⌊q⌋₊ < 2 ^ (Nat.log2 ⌊q⌋₊ + 1) := Nat.lt_log2_self
  have hle : (2 : ℕ) ^ (Nat.log2 ⌊q⌋₊ + 1) ≤ 2 ^ (53 + exponentOf q) := by
    refine Nat.pow_le_pow_right (by decide) ?_
    unfold exponentOf
    omega
  have hfloor := Nat.lt_of_floor_lt (hlog.trans_le hle)
  rw [← pow_add]
  exact_mod_cast hfloor

/-- An exponent that is not the least is small enough for the mantissa to be normal. -/
theorem le_of_exponentOf {q : ℚ} (h : exponentOf q ≠ 0) : 2 ^ 52 * 2 ^ exponentOf q ≤ q := by
  -- a positive exponent is how far the binary logarithm is above 52
  have hlog : Nat.log2 ⌊q⌋₊ = 52 + exponentOf q := by
    unfold exponentOf at h ⊢
    omega
  have hne : ⌊q⌋₊ ≠ 0 := by
    intro h0
    rw [h0, Nat.log2_zero] at hlog
    omega
  have hpow : 2 ^ (52 + exponentOf q) ≤ ⌊q⌋₊ := hlog ▸ Nat.log2_self_le hne
  have hq : (0 : ℚ) ≤ q := by
    by_contra hneg
    exact hne (Nat.floor_of_nonpos (le_of_not_ge hneg))
  rw [← pow_add]
  calc (2 : ℚ) ^ (52 + exponentOf q) ≤ (⌊q⌋₊ : ℚ) := by exact_mod_cast hpow
    _ ≤ q := Nat.floor_le hq

/-- The exponent is the only one that brings the mantissa into its range. -/
theorem exponentOf_eq {q : ℚ} {k : ℕ} (hlow : k = 0 ∨ 2 ^ 52 * 2 ^ k ≤ q)
    (hhigh : q < 2 ^ 53 * 2 ^ k) : exponentOf q = k := by
  -- another exponent would put `q` outside the binade
  rcases lt_trichotomy (exponentOf q) k with hlt | heq | hgt
  · exfalso
    have hk := hlow.resolve_left (by omega)
    have hup := lt_of_exponentOf q
    have hmono : (2 : ℚ) ^ 53 * 2 ^ exponentOf q ≤ 2 ^ 52 * 2 ^ k := by
      rw [← pow_add, ← pow_add]
      exact pow_le_pow_right₀ (by norm_num) (by omega)
    linarith
  · exact heq
  · exfalso
    have hge := le_of_exponentOf (q := q) (by omega)
    have hmono : (2 : ℚ) ^ 53 * 2 ^ k ≤ 2 ^ 52 * 2 ^ exponentOf q := by
      rw [← pow_add, ← pow_add]
      exact pow_le_pow_right₀ (by norm_num) (by omega)
    linarith

theorem le_mantissa {q : ℚ} (h : exponentOf q ≠ 0) :
    2 ^ 52 ≤ roundHalfEven (q / 2 ^ exponentOf q) := by
  have hle : (2 : ℚ) ^ 52 ≤ q / 2 ^ exponentOf q := by
    rw [le_div_iff₀ (by positivity)]
    exact le_of_exponentOf h
  exact le_roundHalfEven (by exact_mod_cast hle)

/-- The nearest magnitude to a number of units, the even one of two; `none` is an
overflow. -/
def round (q : ℚ) : Option Magnitude :=
  let expo := exponentOf q
  let mant := roundHalfEven (q / 2 ^ expo)
  if hm : mant < 2 ^ 53 then
    if he : expo ≤ 2045 then
      some ⟨mant, expo, hm, he, or_iff_not_imp_left.mpr le_mantissa⟩
    else none
  -- rounding up to the next power of two
  else if he : expo + 1 ≤ 2045 then
    some ⟨2 ^ 52, expo + 1, by decide, he, .inr le_rfl⟩
  else none

/-- The rounding interval of a magnitude, without its ends. Below a power of two the
neighbour is nearer. -/
structure Near (m : Magnitude) (q : ℚ) : Prop where
  high : q < m.units + 2 ^ m.expo / 2
  low : m.expo = 0 ∨ m.mant ≠ 2 ^ 52 → m.units - 2 ^ m.expo / 2 < q
  lowPower : m.mant = 2 ^ 52 → m.units - 2 ^ m.expo / 4 < q

/-- In the rounding interval, and not below a power of two, the mantissa is the one of
`m`. -/
theorem Near.mantissa {m : Magnitude} {q : ℚ} (h : Near m q)
    (hlow : m.units - 2 ^ m.expo / 2 < q) : roundHalfEven (q / 2 ^ m.expo) = m.mant := by
  have hpos : (0 : ℚ) < 2 ^ m.expo := by positivity
  have hhigh := h.high
  unfold units at hlow hhigh
  apply roundHalfEven_of_near
  · rw [lt_div_iff₀ hpos]
    linarith
  · rw [div_lt_iff₀ hpos]
    linarith

/-- **Rounding.** Whatever lies in the rounding interval of a magnitude is rounded to
it. The interval reaches half a unit up, and half a unit down or a quarter at a power of
two. -/
theorem round_of_near {m : Magnitude} {q : ℚ} (h : Near m q) : round q = some m := by
  have hpos : (0 : ℚ) < 2 ^ m.expo := by positivity
  have hmant : (m.mant : ℚ) + 1 ≤ 2 ^ 53 := by exact_mod_cast m.mant_lt
  by_cases hside : m.expo = 0 ∨ 2 ^ 52 * 2 ^ m.expo ≤ q
  · -- on the magnitude's own side of the power of two below it
    have hexpo : exponentOf q = m.expo := by
      refine exponentOf_eq hside ?_
      have hhigh := h.high
      unfold units at hhigh
      nlinarith
    have hlow : m.units - 2 ^ m.expo / 2 < q := by
      by_cases hne : m.expo = 0 ∨ m.mant ≠ 2 ^ 52
      · exact h.low hne
      · obtain ⟨hexpo0, hmant52⟩ := not_or.mp hne
        have hq := hside.resolve_left hexpo0
        unfold units
        rw [not_not.mp hmant52]
        push_cast
        linarith
    have hround := h.mantissa hlow
    unfold round
    simp only [hexpo, hround]
    rw [dif_pos m.mant_lt, dif_pos m.expo_le]
  · -- the other side: only a power of two reaches over there
    obtain ⟨hexpo0, hq⟩ := not_or.mp hside
    rw [not_le] at hq
    have hmant52 : m.mant = 2 ^ 52 := by
      by_contra hne
      have hlow := h.low (.inr hne)
      have hmore : (2 : ℚ) ^ 52 + 1 ≤ m.mant := by
        have hnormal := m.normal.resolve_left hexpo0
        exact_mod_cast Nat.lt_of_le_of_ne hnormal (Ne.symm hne)
      unfold units at hlow
      nlinarith
    obtain ⟨k, hk⟩ : ∃ k, m.expo = k + 1 := Nat.exists_eq_succ_of_ne_zero hexpo0
    have hkpos : (0 : ℚ) < 2 ^ k := by positivity
    have hstep : (2 : ℚ) ^ (k + 1) = 2 ^ k * 2 := pow_succ 2 k
    have hlow := h.lowPower hmant52
    unfold units at hlow
    rw [hmant52, hk, hstep] at hlow
    rw [hk, hstep] at hq
    push_cast at hlow
    have hexpo : exponentOf q = k := exponentOf_eq (.inr (by linarith)) (by linarith)
    have hround : roundHalfEven (q / 2 ^ k) = 2 ^ 53 := by
      apply roundHalfEven_of_near
      · rw [lt_div_iff₀ hkpos]
        push_cast
        linarith
      · rw [div_lt_iff₀ hkpos]
        push_cast
        linarith
    unfold round
    simp only [hexpo, hround]
    rw [dif_neg (lt_irrefl _), dif_pos (hk ▸ m.expo_le)]
    obtain ⟨mant, expo, hlt, hle, hnormal⟩ := m
    cases hmant52
    cases hk
    rfl

end Magnitude

/-! ## Decimals -/

/-- `digits * 10 ^ exp`. -/
structure Decimal where
  digits : ℕ
  exp : ℤ
  deriving DecidableEq

def Decimal.value (d : Decimal) : ℚ := d.digits * 10 ^ d.exp

/-- How many units make one. -/
def unitsPerOne : ℚ := 2 ^ 1074

theorem ten_pow_pos (k : ℤ) : (0 : ℚ) < 10 ^ k := zpow_pos (by norm_num) k

theorem unitsPerOne_pos : 0 < unitsPerOne := pow_pos (by norm_num) 1074

namespace Magnitude

def value (m : Magnitude) : ℚ := m.units / unitsPerOne

/-- The magnitude a decimal is rounded to. -/
def ofDecimal (d : Decimal) : Option Magnitude := round (d.value * unitsPerOne)

/-- `k` significant digits of a magnitude end at this power of ten. -/
def lastDigit (m : Magnitude) (k : ℕ) : ℤ := Int.log 10 m.value + 1 - k

/-- The magnitude in units of its `k`-th significant digit. -/
def scaled (m : Magnitude) (k : ℕ) : ℚ := m.value / 10 ^ m.lastDigit k

/-- The decimals of `k` digits next to the magnitude. -/
def low (m : Magnitude) (k : ℕ) : Decimal := ⟨⌊m.scaled k⌋₊, m.lastDigit k⟩

def high (m : Magnitude) (k : ℕ) : Decimal := ⟨⌊m.scaled k⌋₊ + 1, m.lastDigit k⟩

/-- A decimal of `k` digits that is rounded to the magnitude: of the two next to it,
the one that is, or the nearer one if both are. -/
def decimalOf? (m : Magnitude) (k : ℕ) : Option Decimal :=
  match decide (ofDecimal (m.low k) = some m), decide (ofDecimal (m.high k) = some m) with
  | true, true => some ⟨roundHalfEven (m.scaled k), m.lastDigit k⟩
  | true, false => some (m.low k)
  | false, true => some (m.high k)
  | false, false => none

/-- The shortest decimal that is rounded to the magnitude. -/
def shortest (m : Magnitude) : Decimal :=
  if m.mant = 0 then ⟨0, 0⟩
  else ((List.range 17).findSome? fun i => m.decimalOf? (i + 1)).getD ⟨0, 0⟩

/-- A number is rounded to its floor or to the integer above it. -/
theorem roundHalfEven_cases (q : ℚ) : roundHalfEven q = ⌊q⌋₊ ∨ roundHalfEven q = ⌊q⌋₊ + 1 := by
  have hmod := Nat.mod_two_eq_zero_or_one ⌊q⌋₊
  unfold roundHalfEven
  split_ifs <;> omega

/-- A number is rounded to an integer at most half a unit away. -/
theorem roundHalfEven_near {q : ℚ} (hq : 0 ≤ q) :
    q - 1 / 2 ≤ roundHalfEven q ∧ (roundHalfEven q : ℚ) ≤ q + 1 / 2 := by
  have hle := Nat.floor_le hq
  have hlt := Nat.lt_floor_add_one q
  unfold roundHalfEven
  split_ifs with hbelow habove
  · constructor <;> linarith
  · push_cast
    constructor <;> linarith
  -- a tie goes to the even one of the two
  · have htie : q - ⌊q⌋₊ = 1 / 2 := le_antisymm (not_lt.mp habove) (not_lt.mp hbelow)
    rcases Nat.mod_two_eq_zero_or_one ⌊q⌋₊ with h0 | h1
    · rw [h0]
      push_cast
      constructor <;> linarith
    · rw [h1]
      push_cast
      constructor <;> linarith

theorem value_pos {m : Magnitude} (h : m.mant ≠ 0) : 0 < m.value := by
  have hmant : (0 : ℚ) < m.mant := by exact_mod_cast Nat.pos_of_ne_zero h
  have hunits : 0 < m.units := mul_pos hmant (by positivity)
  exact div_pos hunits unitsPerOne_pos

theorem value_mul (m : Magnitude) : m.value * unitsPerOne = m.units :=
  div_mul_cancel₀ _ unitsPerOne_pos.ne'

/-- How far a decimal is from the magnitude, in units. -/
theorem units_sub {m : Magnitude} {k n : ℕ} :
    (⟨n, m.lastDigit k⟩ : Decimal).value * unitsPerOne - m.units =
      (n - m.scaled k) * (10 ^ m.lastDigit k * unitsPerOne) := by
  have hten : (10 : ℚ) ^ m.lastDigit k ≠ 0 := (ten_pow_pos _).ne'
  have hscaled : m.scaled k * 10 ^ m.lastDigit k = m.value := div_mul_cancel₀ _ hten
  rw [← m.value_mul, ← hscaled]
  unfold Decimal.value
  ring

/-- The last of seventeen digits is worth less than a unit in the last place. -/
theorem lastDigit_small {m : Magnitude} (h : m.mant ≠ 0) :
    10 ^ m.lastDigit 17 * unitsPerOne * 10 ^ 16 ≤ m.units := by
  have hlog : (10 : ℚ) ^ Int.log 10 m.value ≤ m.value := by
    exact_mod_cast Int.zpow_log_le_self (b := 10) (by decide) (value_pos h)
  have hsplit : (10 : ℚ) ^ m.lastDigit 17 * 10 ^ 16 = 10 ^ Int.log 10 m.value := by
    rw [← zpow_natCast, ← zpow_add₀ (by norm_num)]
    congr 1
    unfold lastDigit
    push_cast
    ring
  calc (10 : ℚ) ^ m.lastDigit 17 * unitsPerOne * 10 ^ 16
      = 10 ^ Int.log 10 m.value * unitsPerOne := by rw [← hsplit]; ring
    _ ≤ m.value * unitsPerOne := mul_le_mul_of_nonneg_right hlog unitsPerOne_pos.le
    _ = m.units := m.value_mul

/-- Seventeen digits are near enough. -/
theorem near_seventeen {m : Magnitude} (h : m.mant ≠ 0) :
    Near m ((⟨roundHalfEven (m.scaled 17), m.lastDigit 17⟩ : Decimal).value * unitsPerOne) := by
  have hscaled : 0 ≤ m.scaled 17 := div_nonneg (value_pos h).le (ten_pow_pos _).le
  obtain ⟨hlow, hhigh⟩ := roundHalfEven_near hscaled
  have hunit := lastDigit_small h
  have hdiff := units_sub (m := m) (k := 17) (n := roundHalfEven (m.scaled 17))
  have hpos : (0 : ℚ) < 2 ^ m.expo := by positivity
  have hstep : (0 : ℚ) < 10 ^ m.lastDigit 17 * unitsPerOne :=
    mul_pos (ten_pow_pos _) unitsPerOne_pos
  have hmant : (m.mant : ℚ) + 1 ≤ 2 ^ 53 := by exact_mod_cast m.mant_lt
  set step : ℚ := 10 ^ m.lastDigit 17 * unitsPerOne with hstepdef
  set d : ℚ := roundHalfEven (m.scaled 17) - m.scaled 17 with hd
  have hdl : -(1 / 2) ≤ d := by linarith
  have hdh : d ≤ 1 / 2 := by linarith
  have hprodl : -(step / 2) ≤ d * step := by nlinarith
  have hprodh : d * step ≤ step / 2 := by nlinarith
  -- half a step of the last digit is less than half a unit in the last place
  have hsmall : step < 2 ^ m.expo := by
    unfold units at hunit
    nlinarith
  refine ⟨by linarith, fun _ => by linarith, fun hpower => ?_⟩
  -- at a power of two the interval is only half as wide below, and that is enough
  have hsmaller : step < 2 ^ m.expo / 2 := by
    unfold units at hunit
    rw [hpower] at hunit
    push_cast at hunit
    linarith
  linarith

/-- With seventeen digits a decimal is always found. -/
theorem decimalOf?_seventeen {m : Magnitude} (h : m.mant ≠ 0) : m.decimalOf? 17 ≠ none := by
  have hnear := round_of_near (near_seventeen h)
  unfold decimalOf?
  rcases roundHalfEven_cases (m.scaled 17) with heq | heq
  · rw [heq] at hnear
    have hlow : ofDecimal (m.low 17) = some m := hnear
    rw [decide_eq_true hlow]
    cases decide (ofDecimal (m.high 17) = some m) <;> simp
  · rw [heq] at hnear
    have hhigh : ofDecimal (m.high 17) = some m := hnear
    rw [decide_eq_true hhigh]
    cases decide (ofDecimal (m.low 17) = some m) <;> simp

/-- What is picked is rounded to the magnitude. -/
theorem ofDecimal_decimalOf? {m : Magnitude} {k : ℕ} {d : Decimal}
    (h : m.decimalOf? k = some d) : ofDecimal d = some m := by
  unfold decimalOf? at h
  split at h
  -- both neighbours are read back, so either may be taken
  case h_1 hlow hhigh =>
    cases h
    rcases roundHalfEven_cases (m.scaled k) with heq | heq
    · rw [heq]
      exact of_decide_eq_true hlow
    · rw [heq]
      exact of_decide_eq_true hhigh
  case h_2 hlow hhigh =>
    cases h
    exact of_decide_eq_true hlow
  case h_3 hlow hhigh =>
    cases h
    exact of_decide_eq_true hhigh
  case h_4 => cases h

/-- **Shortest decimals.** The shortest decimal of a magnitude is rounded to it, so
reading it gives the magnitude back. -/
theorem shortest_spec (m : Magnitude) : ofDecimal m.shortest = some m := by
  unfold shortest
  by_cases h : m.mant = 0
  · rw [if_pos h]
    have hzero : m = ⟨0, 0, by decide, by decide, .inl rfl⟩ := by
      obtain ⟨mant, expo, hlt, hle, hnormal⟩ := m
      cases h
      cases hnormal.resolve_right (by norm_num)
      rfl
    rw [hzero]
    refine round_of_near ⟨?_, fun _ => ?_, nofun⟩
    · simp [Decimal.value, units]
    · simp [Decimal.value, units]
  · rw [if_neg h]
    -- the search over one to seventeen digits finds one at the latest at seventeen
    cases hfind : (List.range 17).findSome? fun i => m.decimalOf? (i + 1) with
    | none =>
      have hnone := List.findSome?_eq_none_iff.mp hfind 16 (by decide)
      exact absurd hnone (decimalOf?_seventeen h)
    | some d =>
      obtain ⟨i, -, hd⟩ := List.exists_of_findSome?_eq_some hfind
      exact ofDecimal_decimalOf? hd

end Magnitude

end InferenceGateway.Lib
