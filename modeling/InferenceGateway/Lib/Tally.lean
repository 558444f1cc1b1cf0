import Mathlib.Algebra.BigOperators.Group.List.Basic
import Mathlib.Data.List.Nodup
import Mathlib.Logic.Function.Basic
import Mathlib.Tactic.TypeStar

/-!
# Tallies

`tally p h l` counts the keys of `l` whose entry in the table `h` meets `p`. The
one fact everything rests on is `tally_update`: rewriting the entry of one key
moves the tally by exactly the difference of the two entries. It is stated as an
equation between sums, so that natural-number subtraction never appears and the
callers close with `omega`.

- `tally_update`, `tally_update_of_notMem`, `tally_of_agree`: a table that
  changes at one key.
- `tally_le_of_imp`, `tally_congr`, `tally_eq_zero`: two tables, or two
  predicates.
- `sum_map_raise`: the same for a sum over the keys.
-/

namespace InferenceGateway

namespace Lib

variable {ι κ : Type*}

/-- The number of keys in `l` whose entry meets `p`. -/
def tally (p : κ → Bool) (h : ι → κ) (l : List ι) : ℕ :=
  l.countP fun i => p (h i)

variable {p q : κ → Bool} {h h' : ι → κ}

@[simp] theorem tally_nil : tally p h [] = 0 := rfl

theorem tally_cons (i : ι) (l : List ι) :
    tally p h (i :: l) = tally p h l + if p (h i) then 1 else 0 := by
  simp only [tally, List.countP_cons]

/-- One more key at the end counts for itself. -/
theorem tally_append_singleton (l : List ι) (i : ι) :
    tally p h (l ++ [i]) = tally p h l + if p (h i) then 1 else 0 := by
  simp only [tally, List.countP_append, List.countP_singleton]

/-- Tables that agree on the keys have the same tally. -/
theorem tally_congr {l : List ι} (hl : ∀ i ∈ l, p (h i) = p (h' i)) :
    tally p h l = tally p h' l :=
  List.countP_congr fun i hi => by rw [hl i hi]

/-- A stronger predicate counts fewer keys. -/
theorem tally_le_of_imp {l : List ι} (hpq : ∀ i ∈ l, p (h i) = true → q (h i) = true) :
    tally p h l ≤ tally q h l :=
  List.countP_mono_left hpq

/-- Nothing is counted if no entry meets the predicate. -/
theorem tally_eq_zero {l : List ι} : tally p h l = 0 ↔ ∀ i ∈ l, p (h i) = false := by
  simp only [tally, List.countP_eq_zero, Bool.not_eq_true]

/-- A key outside the list does not count. -/
theorem tally_update_of_notMem [DecidableEq ι] {l : List ι} {i : ι} (hi : i ∉ l) (k : κ) :
    tally p (Function.update h i k) l = tally p h l :=
  tally_congr fun j hj => by
    have hne : j ≠ i := fun hji => hi (hji ▸ hj)
    rw [Function.update_of_ne hne]

/-- **Rewriting one entry** moves the tally by the difference of the entries. -/
theorem tally_update [DecidableEq ι] {l : List ι} (hnd : l.Nodup) {i : ι} (hi : i ∈ l) (k : κ) :
    tally p (Function.update h i k) l + (if p (h i) then 1 else 0) =
      tally p h l + (if p k then 1 else 0) := by
  induction l with
  | nil => cases hi
  | cons j l ih =>
    obtain ⟨hj, hl⟩ := List.nodup_cons.mp hnd
    rw [tally_cons, tally_cons]
    by_cases hij : i = j
    · subst hij
      rw [tally_update_of_notMem hj, Function.update_self]
      omega
    · have hil : i ∈ l := (List.mem_cons.mp hi).resolve_left hij
      have := ih hl hil
      rw [Function.update_of_ne (Ne.symm hij)]
      omega

/-- Tables that agree off one key. -/
theorem tally_of_agree [DecidableEq ι] {l : List ι} (hnd : l.Nodup) {i : ι} (hi : i ∈ l)
    (hsame : ∀ j ∈ l, j ≠ i → p (h' j) = p (h j)) :
    tally p h' l + (if p (h i) then 1 else 0) = tally p h l + (if p (h' i) then 1 else 0) := by
  have hagree : tally p h' l = tally p (Function.update h i (h' i)) l := by
    refine tally_congr fun j hj => ?_
    by_cases hji : j = i
    · rw [hji, Function.update_self]
    · rw [Function.update_of_ne hji, hsame j hj hji]
  rw [hagree]
  exact tally_update hnd hi _

/-- Raising the summand of one key raises the sum as much. -/
theorem sum_map_raise {M : Type*} [AddCommMonoid M] {f f' : ι → M} {l : List ι} (hnd : l.Nodup)
    {i : ι} (hi : i ∈ l) {d : M} (hsame : ∀ j, j ≠ i → f' j = f j) (hraise : f' i = f i + d) :
    (l.map f').sum = (l.map f).sum + d := by
  induction l with
  | nil => cases hi
  | cons j l ih =>
    obtain ⟨hj, hl⟩ := List.nodup_cons.mp hnd
    rw [List.map_cons, List.map_cons, List.sum_cons, List.sum_cons]
    by_cases hij : j = i
    · subst hij
      have hrest : l.map f' = l.map f := List.map_congr_left fun k hk => by
        have hne : k ≠ j := fun hkj => hj (hkj ▸ hk)
        exact hsame k hne
      rw [hrest, hraise, add_right_comm]
    · have hil : i ∈ l := (List.mem_cons.mp hi).resolve_left (Ne.symm hij)
      rw [hsame j hij, ih hl hil, add_assoc]

end Lib

end InferenceGateway
