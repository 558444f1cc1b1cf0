import InferenceGateway.Lib.JsonScanner
import Mathlib.Data.List.TakeWhile

/-!
# The scanner always advances

The loops of the scanner, over the items of a list and over the members of an
object, are given fuel, and a loop that ran out of it would refuse a text that
is JSON. That it never does is the subject of this file. Each round of a loop
reads at least one character, so the length of the text is fuel enough.

- `Leaves n`: a read that leaves fewer than `n` characters, if it succeeds. Its
  rule for `bind` is what carries the count through the scanners.
- `consumes_scanValue`: whatever is read takes at least one character.
- `scanItems_fuel`, `scanMembers_fuel`: the fuel the loops are given, the length
  of the text, never runs out: with any more of it they answer the same.
-/

namespace InferenceGateway.Lib

namespace Json

/-- What is left after a successful read is shorter than `n`. -/
def Leaves {α : Type} (n : ℕ) (x : Except ScanError (α × List Char)) : Prop :=
  ∀ v r, x = .ok (v, r) → r.length < n

theorem Leaves.mono {α : Type} {n n' : ℕ} {x : Except ScanError (α × List Char)}
    (h : Leaves n x) (hle : n ≤ n') : Leaves n' x :=
  fun v r hx => (h v r hx).trans_le hle

theorem leaves_error {α : Type} {n : ℕ} {e : ScanError} :
    Leaves n (.error e : Except ScanError (α × List Char)) := by
  intro v r h
  cases h

theorem leaves_ok {α : Type} {n : ℕ} {v : α} {r : List Char} (h : r.length < n) :
    Leaves n (.ok (v, r)) := by
  intro v' r' heq
  cases heq
  exact h

/-- **Rule for reads in a row.** A read, and what is done with the value and the
rest. -/
theorem Leaves.bind {α β : Type} {m n : ℕ} {x : Except ScanError (α × List Char)}
    {f : α × List Char → Except ScanError (β × List Char)} (hx : Leaves m x)
    (hf : ∀ v r, r.length < m → Leaves n (f (v, r))) : Leaves n (x >>= f) := by
  cases x with
  | error e => exact leaves_error
  | ok p => exact hf p.1 p.2 (hx p.1 p.2 rfl)

/-- Space is skipped, never added. -/
theorem length_skipSpace_le (s : List Char) : (skipSpace s).length ≤ s.length :=
  List.length_dropWhile_le isSpace s

/-! ## Numbers and strings -/

theorem length_span_le (s : List Char) : (s.span Char.isDigit).2.length ≤ s.length := by
  rw [List.span_eq_takeWhile_dropWhile]
  exact List.length_dropWhile_le _ s

theorem length_scanFraction_le (s : List Char) : (scanFraction s).2.length ≤ s.length := by
  unfold scanFraction
  split
  · split
    · exact (length_span_le _).trans (Nat.le_succ _)
    · exact le_rfl
  · exact le_rfl

/-- The scanner of an exponent that finds none leaves the text as it was. -/
theorem length_scanExponent_le (s : List Char) : (scanExponent s).2.length ≤ s.length := by
  unfold scanExponent
  split
  · next c r =>
    -- an exponent without digits is not read at all, so the text stays as it is
    have hdigits : ∀ (sign : ℤ) (t : List Char), t.length ≤ r.length →
        (if (t.span Char.isDigit).1 = [] then ((none, c :: r) : Option ℤ × List Char)
          else (some (sign * Nat.ofDigitChars 10 (t.span Char.isDigit).1 0),
            (t.span Char.isDigit).2)).2.length ≤ (c :: r).length := by
      intro sign t ht
      have := length_span_le t
      split
      · exact le_rfl
      · simp only [List.length_cons]
        omega
    split
    · split
      next negative t heq =>
        refine hdigits _ t ?_
        split at heq <;> cases heq <;> simp
    · exact le_rfl
  · exact le_rfl

/-- After its integer part, which may be all of it, a number may leave everything. -/
theorem leaves_finishNumber (digits : ℕ) (negative : Bool) (ds s : List Char) :
    Leaves (s.length + 1) (finishNumber digits negative ds s) := by
  have := length_scanFraction_le s
  have := length_scanExponent_le (scanFraction s).2
  unfold finishNumber
  dsimp only
  split
  · split
    · exact leaves_error
    · exact leaves_ok (by omega)
  · exact leaves_ok (by omega)

/-- A magnitude takes at least one digit. -/
theorem leaves_scanMagnitude (digits : ℕ) (negative : Bool) (s : List Char) :
    Leaves s.length (scanMagnitude digits negative s) := by
  unfold scanMagnitude
  split
  · exact leaves_error
  · next c r =>
    split
    · exact leaves_finishNumber digits negative ['0'] r
    · split
      · next hc =>
        refine (leaves_finishNumber digits negative _ _).mono ?_
        -- its first digit is one of those the span takes
        have hspan : ((c :: r).span Char.isDigit).2 = (r.span Char.isDigit).2 := by
          rw [List.span_eq_takeWhile_dropWhile, List.span_eq_takeWhile_dropWhile,
            List.dropWhile_cons, if_pos hc]
        rw [hspan]
        exact Nat.succ_le_succ (length_span_le r)
      · exact leaves_error

theorem leaves_scanNumber (digits : ℕ) (s : List Char) :
    Leaves s.length (scanNumber digits s) := by
  unfold scanNumber
  split
  · exact (leaves_scanMagnitude digits true _).mono (Nat.le_succ _)
  · exact leaves_scanMagnitude digits false s

theorem length_lt_of_map {α : Type} {n : ℕ} {x : Option (α × List Char)} {f : α → α} {v : α}
    {r : List Char} (ih : ∀ {r v}, x = some (v, r) → r.length < n)
    (h : x.map (fun (v, r) => (f v, r)) = some (v, r)) : r.length < n := by
  obtain ⟨⟨v', r'⟩, hx, heq⟩ := Option.map_eq_some_iff.mp h
  cases heq
  exact ih hx

/-- The characters of a string and its closing quote. -/
theorem length_scanString_lt {s r : List Char} {t : Text} (h : scanString s = some (t, r)) :
    r.length < s.length := by
  fun_induction scanString s generalizing r t with
  | case2 =>
    cases h
    exact Nat.lt_succ_self _
  | case6 | case8 | case9 | case11 | case14 =>
    -- one more character, whichever way it is written
    rename_i ih
    have hlt := length_lt_of_map ih h
    simp only [List.length_cons]
    omega
  | _ => cases h

/-! ## Values -/

/-- A scan that advances, and fails as a missing value does where nothing is left. -/
structure Consumes (scan : Scan) : Prop where
  leaves : ∀ s, Leaves s.length (scan s)
  nil : scan [] = .error .syntactic

/-- The loop over items takes at least one character, since the first item does. -/
theorem leaves_scanItems {scan : Scan} (hscan : Consumes scan) (fuel : ℕ) (s : List Char) :
    Leaves s.length (scanItems scan fuel s) := by
  -- on the fuel, one item for each
  induction fuel generalizing s with
  | zero => exact leaves_error
  | succ fuel ih =>
    refine (hscan.leaves s).bind fun v r hr => ?_
    have hskip := length_skipSpace_le r
    dsimp only
    split
    · next s' heq =>
      rw [heq, List.length_cons] at hskip
      exact leaves_ok (by omega)
    · next s' heq =>
      rw [heq, List.length_cons] at hskip
      have := length_skipSpace_le s'
      exact (ih (skipSpace s')).bind fun vs r' hr' => leaves_ok (by dsimp only; omega)
    · exact leaves_error

theorem leaves_scanArray {scan : Scan} (hscan : Consumes scan) (s : List Char) :
    Leaves (s.length + 1) (scanArray scan s) := by
  have hskip := length_skipSpace_le s
  unfold scanArray
  split
  · next s' heq =>
    rw [heq, List.length_cons] at hskip
    exact leaves_ok (by omega)
  · exact (leaves_scanItems hscan _ _).bind fun vs r hr => leaves_ok (by omega)

/-- A member takes its key, and then its value. -/
theorem leaves_scanMember {scan : Scan} (hscan : Consumes scan) (s : List Char) :
    Leaves s.length (scanMember scan s) := by
  unfold scanMember
  split
  · split
    · exact leaves_error
    · next k r hk =>
      -- the key is shorter than the text, and the rest only skips and reads on
      have hlt := length_scanString_lt hk
      have hskip := length_skipSpace_le r
      split
      · next s' heq =>
        rw [heq, List.length_cons] at hskip
        have := length_skipSpace_le s'
        refine (hscan.leaves (skipSpace s')).bind fun v r' hr' => leaves_ok ?_
        simp only [List.length_cons]
        omega
      · exact leaves_error
  · exact leaves_error

theorem leaves_scanMembers {scan : Scan} (hscan : Consumes scan) (fuel : ℕ) (s : List Char) :
    Leaves s.length (scanMembers scan fuel s) := by
  induction fuel generalizing s with
  | zero => exact leaves_error
  | succ fuel ih =>
    refine (leaves_scanMember hscan s).bind fun e r hr => ?_
    have hskip := length_skipSpace_le r
    dsimp only
    split
    · next s' heq =>
      rw [heq, List.length_cons] at hskip
      exact leaves_ok (by omega)
    · next s' heq =>
      rw [heq, List.length_cons] at hskip
      have := length_skipSpace_le s'
      exact (ih (skipSpace s')).bind fun es r' hr' => leaves_ok (by dsimp only; omega)
    · exact leaves_error

theorem leaves_scanObject {scan : Scan} (hscan : Consumes scan) (s : List Char) :
    Leaves (s.length + 1) (scanObject scan s) := by
  have hskip := length_skipSpace_le s
  unfold scanObject
  split
  · next s' heq =>
    rw [heq, List.length_cons] at hskip
    exact leaves_ok (by omega)
  · exact (leaves_scanMembers hscan _ _).bind fun es r hr => leaves_ok (by omega)

/-- A value that is written as one word, or a float. -/
inductive Word : Json → Prop where
  | null : Word .null
  | bool (b : Bool) : Word (.bool b)
  | float (x : Binary64) : Word (.float x)

/-- How a term begins decides how it is read. -/
inductive TermShape : List Char → Prop where
  | string (r : List Char) : TermShape ('"' :: r)
  | object (r : List Char) : TermShape ('{' :: r)
  | array (r : List Char) : TermShape ('[' :: r)
  | word {s r : List Char} {v : Json} (hv : Word v) (hr : r.length < s.length)
      (heq : ∀ digits inner, scanTerm digits inner s = .ok (v, r)) : TermShape s
  | number {s : List Char} (heq : ∀ digits inner, scanTerm digits inner s = scanNumber digits s) :
      TermShape s

theorem termShape (s : List Char) : TermShape s := by
  fun_cases scanTerm 0 none s with
  | case1 | case2 => exact .string _
  | case3 | case4 => exact .object _
  | case5 | case6 => exact .array _
  | case7 => exact .word .null (by simp only [List.length_cons]; omega) fun _ _ => rfl
  | case8 | case9 => exact .word (.bool _) (by simp only [List.length_cons]; omega) fun _ _ => rfl
  | case10 | case11 | case12 =>
    exact .word (.float _) (by simp only [List.length_cons]; omega) fun _ _ => rfl
  | case13 =>
    refine .number fun digits inner => ?_
    apply scanTerm.eq_12 <;> assumption

theorem scanTerm_string (digits : ℕ) (inner : Option Scan) (r : List Char) :
    scanTerm digits inner ('"' :: r) =
      (scanString r).elim (.error .syntactic) fun p => .ok (.str p.1, p.2) := by
  cases h : scanString r <;> simp only [scanTerm, h] <;> rfl

/-- A term takes at least one character, if what is nested in it does. -/
theorem consumes_scanTerm {digits : ℕ} {inner : Option Scan}
    (hinner : ∀ scan ∈ inner, Consumes scan) : Consumes (scanTerm digits inner) where
  leaves := by
    intro s
    -- by the shape of the text
    cases termShape s with
    | string r =>
      rw [scanTerm_string]
      cases hscan : scanString r with
      | none => exact leaves_error
      | some p => exact leaves_ok ((length_scanString_lt hscan).trans (Nat.lt_succ_self _))
    | object r =>
      cases inner with
      | none => exact leaves_error
      | some scan => exact leaves_scanObject (hinner scan rfl) r
    | array r =>
      cases inner with
      | none => exact leaves_error
      | some scan => exact leaves_scanArray (hinner scan rfl) r
    | word hv hr heq =>
      rw [heq]
      exact leaves_ok hr
    | number heq =>
      rw [heq]
      exact leaves_scanNumber digits s
  nil := rfl

/-- **Progress.** Whatever is read under whatever limits takes at least one character.
By induction on the limit on nesting. -/
theorem consumes_scanValue (digits depth : ℕ) : Consumes (scanValue digits depth) := by
  induction depth with
  | zero =>
    refine consumes_scanTerm fun scan h => ?_
    cases h
  | succ depth ih =>
    refine consumes_scanTerm fun scan h => ?_
    cases h
    exact ih

/-! ## Fuel -/

/-- Two continuations that agree on every rest that can be left. -/
theorem Leaves.bind_congr {α β : Type} {n : ℕ} {x : Except ScanError (α × List Char)}
    {f g : α × List Char → Except ScanError β} (hx : Leaves n x)
    (h : ∀ v r, r.length < n → f (v, r) = g (v, r)) : x >>= f = x >>= g := by
  cases x with
  | error e => rfl
  | ok p => exact h p.1 p.2 (hx p.1 p.2 rfl)

theorem scanItems_nil {scan : Scan} (hscan : Consumes scan) (fuel : ℕ) :
    scanItems scan fuel [] = .error .syntactic := by
  cases fuel with
  | zero => rfl
  | succ fuel =>
    rw [scanItems, hscan.nil]
    rfl

/-- The fuel of the loop over items does not run out: with more it answers the same. -/
theorem scanItems_fuel {scan : Scan} (hscan : Consumes scan) {fuel : ℕ} {s : List Char}
    (h : s.length ≤ fuel) : scanItems scan fuel s = scanItems scan s.length s := by
  induction hn : s.length using Nat.strong_induction_on generalizing fuel s with
  | h n ih =>
    subst hn
    cases s with
    | nil => rw [scanItems_nil hscan, scanItems_nil hscan]
    | cons c t =>
      obtain ⟨fuel, rfl⟩ : ∃ k, fuel = k + 1 :=
        Nat.exists_eq_succ_of_ne_zero (Nat.ne_of_gt (Nat.lt_of_lt_of_le (Nat.succ_pos _) h))
      rw [List.length_cons, scanItems, scanItems]
      refine (hscan.leaves (c :: t)).bind_congr fun v r hr => ?_
      have hskip := length_skipSpace_le r
      dsimp only
      split
      · rfl
      · next s' heq =>
        rw [heq, List.length_cons] at hskip
        have := length_skipSpace_le s'
        simp only [List.length_cons] at h hr
        have hlt : (skipSpace s').length < (c :: t).length := by
          simp only [List.length_cons]
          omega
        -- both loops have more fuel left than the rest is long, so both agree with the least
        have hlong : scanItems scan fuel (skipSpace s') =
            scanItems scan (skipSpace s').length (skipSpace s') := ih _ hlt (by omega) rfl
        have hshort : scanItems scan t.length (skipSpace s') =
            scanItems scan (skipSpace s').length (skipSpace s') := ih _ hlt (by omega) rfl
        rw [hlong, hshort]
      · rfl

theorem scanMembers_nil {scan : Scan} (fuel : ℕ) :
    scanMembers scan fuel [] = .error .syntactic := by
  cases fuel <;> rfl

/-- The fuel of the loop over members does not run out: with more it answers the
same. -/
theorem scanMembers_fuel {scan : Scan} (hscan : Consumes scan) {fuel : ℕ} {s : List Char}
    (h : s.length ≤ fuel) : scanMembers scan fuel s = scanMembers scan s.length s := by
  induction hn : s.length using Nat.strong_induction_on generalizing fuel s with
  | h n ih =>
    subst hn
    cases s with
    | nil => rw [scanMembers_nil, scanMembers_nil]
    | cons c t =>
      obtain ⟨fuel, rfl⟩ : ∃ k, fuel = k + 1 :=
        Nat.exists_eq_succ_of_ne_zero (Nat.ne_of_gt (Nat.lt_of_lt_of_le (Nat.succ_pos _) h))
      rw [List.length_cons, scanMembers, scanMembers]
      refine (leaves_scanMember hscan (c :: t)).bind_congr fun e r hr => ?_
      have hskip := length_skipSpace_le r
      dsimp only
      split
      · rfl
      · next s' heq =>
        rw [heq, List.length_cons] at hskip
        have := length_skipSpace_le s'
        simp only [List.length_cons] at h hr
        have hlt : (skipSpace s').length < (c :: t).length := by
          simp only [List.length_cons]
          omega
        -- as for items: both agree with the loop that has the least fuel
        have hlong : scanMembers scan fuel (skipSpace s') =
            scanMembers scan (skipSpace s').length (skipSpace s') := ih _ hlt (by omega) rfl
        have hshort : scanMembers scan t.length (skipSpace s') =
            scanMembers scan (skipSpace s').length (skipSpace s') := ih _ hlt (by omega) rfl
        rw [hlong, hshort]
      · rfl

end Json

end InferenceGateway.Lib
