import Mathlib.Data.List.MinMax
import Mathlib.Data.List.Sort
import Mathlib.Algebra.Order.Group.Defs

/-!
# Choosing the cheapest

A stable sort by cost puts the first of the cheapest elements in front, which is
`List.argmin`. Who is chosen depends on differences of costs only, so an element
that is passed over stays so while it gains on nobody.

- `head?_insertionSort_eq_argmin`: the head of the sorted list.
- `argmin_map`: choosing among images is choosing among the elements by what
  they cost.
- `argmin_ne_of_gain`: with costs that have all changed, those of the others by
  at most `d` and its own by at least `d`, an element that was not chosen is not
  chosen.
-/

namespace InferenceGateway.Lib

variable {α ι : Type*}

/-- The head of a list that was sorted by its keys. -/
theorem head?_insertionSort_eq_argmin {κ : Type*} [LinearOrder κ] (key : α → κ) (l : List α) :
    (l.insertionSort fun x y => key x ≤ key y).head? = l.argmin key := by
  induction l with
  | nil => rfl
  | cons a l ih =>
    rw [List.insertionSort_cons, List.argmin_cons, ← ih]
    cases hsorted : l.insertionSort fun x y => key x ≤ key y with
    | nil => rfl
    | cons m rest =>
      rw [List.orderedInsert_cons]
      by_cases hle : key a ≤ key m
      · simp [hle, not_lt.mpr hle]
      · simp [hle, not_le.mp hle]

/-- The cheapest image is the image of the cheapest. -/
theorem argmin_map {κ : Type*} [LinearOrder κ] (g : ι → α) (key : α → κ) (l : List ι) :
    (l.map g).argmin key = (l.argmin fun i => key (g i)).map g := by
  induction l with
  | nil => rfl
  | cons i l ih =>
    rw [List.map_cons, List.argmin_cons, List.argmin_cons, ih]
    cases l.argmin fun i => key (g i) with
    | none => rfl
    | some m =>
      show (if key (g m) < key (g i) then _ else _) = Option.map g (if _ then _ else _)
      split <;> rfl

variable [DecidableEq ι] {κ : Type*} [AddCommGroup κ] [LinearOrder κ] [IsOrderedAddMonoid κ]

/-- **Passed over.** If no other element gains more than `a` does, an `a` that was not
chosen is not chosen. -/
theorem argmin_ne_of_gain {cost cost' : ι → κ} {l : List ι} {a : ι} {d : κ}
    (hothers : ∀ b ∈ l, b ≠ a → cost' b ≤ cost b + d) (ha : cost a + d ≤ cost' a)
    (h : l.argmin cost ≠ some a) : l.argmin cost' ≠ some a := by
  intro hchosen
  obtain ⟨hmem, hleast, hfirst⟩ := List.argmin_eq_some_iff.mp hchosen
  have hsome : l.argmin cost ≠ none := fun hnone =>
    List.ne_nil_of_mem hmem (List.argmin_eq_none.mp hnone)
  obtain ⟨b, hb⟩ := Option.ne_none_iff_exists'.mp hsome
  obtain ⟨hbmem, hbleast, hbfirst⟩ := List.argmin_eq_some_iff.mp hb
  have hne : b ≠ a := fun hab => h (hab ▸ hb)
  -- `b` was no dearer than `a` and still is not
  have hstill : cost' b ≤ cost' a :=
    calc cost' b ≤ cost b + d := hothers b hbmem hne
      _ ≤ cost a + d := add_le_add_left (hbleast a hmem) d
      _ ≤ cost' a := ha
  have hbefore : l.idxOf a ≤ l.idxOf b := hfirst b hbmem hstill
  have hsame : cost a ≤ cost b := by
    have hchain : cost a + d ≤ cost b + d := (ha.trans (hleast b hbmem)).trans (hothers b hbmem hne)
    exact le_of_add_le_add_right hchain
  have hafter : l.idxOf b ≤ l.idxOf a := hbfirst a hmem hsame
  exact hne ((List.idxOf_inj hbmem).mp (Nat.le_antisymm hafter hbefore))

end InferenceGateway.Lib
