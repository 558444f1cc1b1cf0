import Mathlib.Algebra.Order.Floor.Semiring
import Mathlib.Data.Rat.Floor
import Mathlib.Tactic.Linarith

/-!
# Times that lie apart

How many of them fit into a window, if any two are at least a gap apart. The
times are listed newest first, as they are when they are noted one after
another, so that it is enough to compare each with the one before it.

- `Spaced`: any two of the times are at least the gap apart, the newer one
  later.
- `Spaced.cons`: one more time, if it is apart from the newest.
- `Spaced.sublist`: some of the times, for those that fall into a window.
- `Spaced.length_le`: in a window there are as many as there are gaps in it, and
  one more.
-/

namespace InferenceGateway.Lib

/-- Newest first, and each at least the gap after the one before. -/
def Spaced (gap : ℚ) (times : List ℚ) : Prop :=
  times.Pairwise fun later earlier => earlier + gap ≤ later

namespace Spaced

variable {gap a b t t' : ℚ} {times sub : List ℚ}

theorem nil : Spaced gap [] := List.Pairwise.nil

theorem singleton (t : ℚ) : Spaced gap [t] := List.pairwise_singleton _ _

/-- A later time is apart from all of them if it is apart from the newest. -/
theorem cons (h : Spaced gap (t :: times)) (hgap : 0 ≤ gap) (ht : t + gap ≤ t') :
    Spaced gap (t' :: t :: times) := by
  refine List.pairwise_cons.mpr ⟨List.forall_mem_cons.mpr ⟨ht, fun u hu => ?_⟩, h⟩
  have hu' : u + gap ≤ t := (List.pairwise_cons.mp h).1 u hu
  linarith

/-- Some of the times are apart as all of them are. -/
theorem sublist (h : Spaced gap times) (hsub : sub.Sublist times) : Spaced gap sub :=
  List.Pairwise.sublist hsub h

/-- From the beginning of the window to the newest one there is room for the others. -/
theorem le_newest (h : Spaced gap (t :: times)) (ha : ∀ u ∈ t :: times, a ≤ u) :
    a + times.length * gap ≤ t := by
  induction times generalizing t with
  | nil => simpa using ha t
  | cons u times ih =>
    obtain ⟨hu, hrest⟩ := List.pairwise_cons.mp h
    have hroom := ih hrest (List.forall_mem_cons.mp ha).2
    have hnext : u + gap ≤ t := hu u List.mem_cons_self
    push_cast [List.length_cons]
    linarith

/-- **How many fit into a window.** Between the first and the last of them there is a
gap for each but one, and the gaps fit into the window. -/
theorem length_le (h : Spaced gap times) (hgap : 0 < gap) (hwindow : ∀ t ∈ times, a ≤ t ∧ t ≤ b) :
    times.length ≤ ⌊(b - a) / gap⌋₊ + 1 := by
  cases times with
  | nil => exact Nat.zero_le _
  | cons t times =>
    have hroom := h.le_newest fun u hu => (hwindow u hu).1
    have hend := (hwindow t List.mem_cons_self).2
    have hfit : (times.length : ℚ) ≤ (b - a) / gap := by
      rw [le_div_iff₀ hgap]
      linarith
    exact Nat.succ_le_succ (Nat.le_floor hfit)

end Spaced

end InferenceGateway.Lib
