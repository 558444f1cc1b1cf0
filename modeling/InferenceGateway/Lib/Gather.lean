import Mathlib.Data.List.Nodup
import Mathlib.Logic.Function.Basic
import Mathlib.Tactic.TypeStar

/-!
# Gathering the results of concurrent tasks

`gather` awaits all of its tasks, which end one after the other in an order of
their own. It lists the results in the order the tasks were given, or raises
what the first task to raise has raised; whatever ends after that is dropped.

A `Gathering` is what has come in so far, a table of results or the exception,
and `settle` puts the end of one task into it. The order of the ends is an
argument, so that a statement about every order is a statement about every
schedule.

- `gather_of_ok`: no order of the ends shows in the results.
- `gather_of_error`: with a task that raises, the order decides what is raised,
  and nothing else.
-/

namespace InferenceGateway.Lib

variable {ι ε β : Type*} [DecidableEq ι]

/-- What has come of the tasks so far. -/
inductive Gathering (ι ε β : Type*) where
  | waiting (results : ι → Option β)
  | raised (e : ε)

namespace Gathering

/-- Task `i` ends. -/
def settle (tasks : ι → Except ε β) (g : Gathering ι ε β) (i : ι) : Gathering ι ε β :=
  match g, tasks i with
  | waiting results, .ok v => waiting (Function.update results i (some v))
  | waiting _, .error e => raised e
  | raised e, _ => raised e

/-- What the awaiting task is resumed with; `none` if it waits on. -/
def result (keys : List ι) : Gathering ι ε β → Option (Except ε (List β))
  | waiting results => (keys.mapM results).map .ok
  | raised e => some (.error e)

end Gathering

/-- The tasks of `keys` end in the order of `ends`. -/
def gather (tasks : ι → Except ε β) (keys ends : List ι) : Option (Except ε (List β)) :=
  (ends.foldl (Gathering.settle tasks) (.waiting fun _ => none)).result keys

open Gathering

variable {tasks : ι → Except ε β} {keys ends before after : List ι} {i : ι} {e : ε} {f : ι → β}
  {results : ι → Option β}

/-- Tasks that return fill in their results, each in its place. -/
theorem foldl_settle_of_ok (h : ∀ i ∈ ends, tasks i = .ok (f i)) :
    ends.foldl (settle tasks) (.waiting results) =
      .waiting fun i => if i ∈ ends then some (f i) else results i := by
  -- on the ends; what each one puts into the results is put there by nobody else
  induction ends generalizing results with
  | nil => simp
  | cons i ends ih =>
    have hi : settle tasks (.waiting results) i =
        .waiting (Function.update results i (some (f i))) := by
      simp only [settle, h i List.mem_cons_self]
    rw [List.foldl_cons, hi, ih fun j hj => h j (List.mem_cons_of_mem _ hj)]
    congr 1
    funext j
    by_cases hj : j ∈ ends
    · simp [hj]
    · by_cases hji : j = i
      · subst hji
        simp [hj]
      · simp [hj, hji]

omit [DecidableEq ι] in
/-- When every key has its result, the results are listed in the order of the keys. -/
theorem mapM_eq_map (h : ∀ i ∈ keys, results i = some (f i)) :
    keys.mapM results = some (keys.map f) := by
  induction keys with
  | nil => rfl
  | cons i keys ih =>
    rw [List.mapM_cons, h i List.mem_cons_self, ih fun j hj => h j (List.mem_cons_of_mem _ hj)]
    rfl

/-- **Every task returns.** The results are listed in the order in which the tasks were
given, in whatever order they have ended. -/
theorem gather_of_ok (h : ∀ i ∈ keys, tasks i = .ok (f i)) (hends : ends.Perm keys) :
    gather tasks keys ends = some (.ok (keys.map f)) := by
  have hmem : ∀ i, i ∈ ends ↔ i ∈ keys := fun i => hends.mem_iff
  rw [gather, foldl_settle_of_ok fun i hi => h i ((hmem i).mp hi), result,
    mapM_eq_map fun i hi => if_pos ((hmem i).mpr hi)]
  rfl

/-- What has been raised stays. -/
theorem foldl_settle_raised : ends.foldl (settle tasks) (.raised e) = .raised e := by
  induction ends with
  | nil => rfl
  | cons i ends ih => exact ih

/-- **The first task to raise.** What it raises is raised, whatever has ended before it
and whatever ends after it. -/
theorem gather_of_error (hbefore : ∀ j ∈ before, tasks j = .ok (f j)) (hi : tasks i = .error e) :
    gather tasks keys (before ++ i :: after) = some (.error e) := by
  rw [gather, List.foldl_append, foldl_settle_of_ok hbefore, List.foldl_cons]
  simp only [settle, hi]
  rw [foldl_settle_raised]
  rfl

end InferenceGateway.Lib
