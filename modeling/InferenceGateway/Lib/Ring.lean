import Mathlib.Data.List.DropRight
import Mathlib.Tactic.TypeStar

/-!
# Bounded rings

A `deque(maxlen=n)` that is only appended to holds the last `n` items. It is
written as `List.rtake n` of everything that was ever appended, so that a ring
and the history behind it can be compared.

- `foldl_push`: pushing items one by one, with the oldest dropped when there are
  too many, comes to that.
- `countP_rtake`: what holds of an item and of all later ones is counted right
  up to `n`. That is the case for "not older than", on times that were appended
  in order.
-/

namespace InferenceGateway.Lib

variable {α : Type*}

/-- A ring is as long as what was put in, up to its capacity. -/
theorem length_rtake (l : List α) (n : ℕ) : (l.rtake n).length = min n l.length := by
  rw [List.rtake_eq_reverse_take_reverse, List.length_reverse, List.length_take,
    List.length_reverse]

/-- A ring forgets nothing that it would still hold. -/
theorem rtake_rtake_concat (l : List α) (x : α) (n : ℕ) :
    (l.rtake n ++ [x]).rtake n = (l ++ [x]).rtake n := by
  cases n with
  | zero => simp
  | succ n =>
    rw [List.rtake_concat_succ, List.rtake_concat_succ, List.rtake_eq_reverse_take_reverse,
      List.rtake_eq_reverse_take_reverse, List.rtake_eq_reverse_take_reverse, List.reverse_reverse,
      List.take_take, min_eq_left n.le_succ]

/-- After any number of appends the ring holds the last items of all that were put in.
By induction on the appends, the last one first. -/
theorem foldl_push (n : ℕ) (xs : List α) :
    xs.foldl (fun ring x => (ring ++ [x]).rtake n) [] = xs.rtake n := by
  induction xs using List.reverseRecOn with
  | nil => simp
  | append_singleton xs x ih =>
    rw [List.foldl_append, List.foldl_cons, List.foldl_nil, ih, rtake_rtake_concat]

/-- **Counting in a ring.** If `p` goes on holding once it holds, the ring counts it up to
its capacity. -/
theorem countP_rtake {p : α → Bool} {l : List α} (h : l.Pairwise fun a b => p a → p b) (n : ℕ) :
    (l.rtake n).countP p = min n (l.countP p) := by
  -- from the newest; once `p` fails it fails of everything older
  induction l using List.reverseRecOn generalizing n with
  | nil => simp
  | append_singleton l x ih =>
    obtain ⟨hl, -, hx⟩ := List.pairwise_append.mp h
    cases n with
    | zero => simp
    | succ n =>
      rw [List.rtake_concat_succ, List.countP_append, List.countP_append, ih hl,
        List.countP_singleton]
      by_cases hpx : p x = true
      · rw [if_pos hpx]
        omega
      · have hnone : l.countP p = 0 :=
          List.countP_eq_zero.mpr fun a ha hpa => hpx (hx a ha x (List.mem_singleton_self x) hpa)
        rw [if_neg hpx, hnone]
        omega

end InferenceGateway.Lib
