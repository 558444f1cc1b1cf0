import InferenceGateway.Backends.Registry
import Mathlib.Data.List.Sort

/-!
# Scoring (`app/scheduler/scoring.py`)

The weighted cost of a backend and the choice of the cheapest candidate. The
cost adds up the requests in flight, the three running averages and the error
rate of a row, each with its weight, and three penalties: for the share of the
recent dispatches, for load above the soft limit, and for large requests in
flight. The average for queueing is in the sum although nothing in the gateway
ever writes it.

Every `dispatch_share` call reads the clock anew, so the total over the
candidates and the shares compared with it may be taken at different times; the
choice threads the world through for that reason. Nothing but the clock changes
on the way (`SameButClock`), so the candidates are scored on the rows they had
before.

`scored.sort(key=...)` is stable, so ties go to the earlier candidate.

- `pickBackend_mem`, `pickBackend_eq_none_iff`: the choice is a candidate, and
  there is one exactly if there is a candidate. Which one it is,
  `Scheduler.Choice` says.
-/

namespace InferenceGateway

namespace Scoring

/-- Advisory: nudge away from backends already holding large work. -/
def classPenaltyForBackend (largeInflight : ℤ) (cls : RequestClass) : ℚ :=
  if largeInflight ≤ 0 then 0
  else if cls = .smallChat ∨ cls = .mediumChat then min 5 ((largeInflight : ℚ) * (15 / 10))
  else 0

/-- Penalize backends that take too large a share of recent dispatches. -/
def hotPenalty (s : BackendRuntimeState) (totalDispatches : ℕ) (routing : RoutingConfig)
    (now : ℚ) : ℚ :=
  if totalDispatches = 0 then 0
  else
    let share := (s.dispatchShare routing.hotWindowSec now : ℚ) / totalDispatches
    if share ≤ routing.hotTargetShare then 0
    else
      let excess := share - routing.hotTargetShare
      routing.hotPenaltyWeight * excess ^ 2 * 100

/-- Soft penalty once inflight exceeds soft_limit. -/
def overloadPenalty (s : BackendRuntimeState) (routing : RoutingConfig) : ℚ :=
  if s.inflight ≤ s.softLimit then 0
  else routing.overloadPenaltyWeight * ((s.inflight - s.softLimit : ℤ) : ℚ)

/-- Weighted cost for one backend; lower is better. -/
def scoreBackend (s : BackendRuntimeState) (routing : RoutingConfig) (cls : RequestClass)
    (totalDispatchesWindow : ℕ) (now : ℚ) : ℚ :=
  routing.inflightWeight * (s.inflight : ℚ)
    + routing.queueWeight * s.ewmaQueueMs
    + routing.ttftWeight * s.ewmaTtftMs
    + routing.e2eWeight * s.ewmaE2eMs
    + routing.errorWeight * s.recentErrorRate
    + hotPenalty s totalDispatchesWindow routing now
    + overloadPenalty s routing
    + classPenaltyForBackend s.largeInflight cls

/-- The loop that totals the candidates' dispatches in the window. -/
def totalDispatches (routing : RoutingConfig) : List String → World → World × ℕ
  | [], w => (w, 0)
  | b :: bs, w =>
    let w := w.readClock
    let share := (w.row b).dispatchShare routing.hotWindowSec w.clock.now
    let (w, rest) := totalDispatches routing bs w
    (w, share + rest)

/-- The list of scored candidates. -/
def scored (routing : RoutingConfig) (cls : RequestClass) (total : ℕ) :
    List String → World → World × List (ℚ × String)
  | [], w => (w, [])
  | b :: bs, w =>
    let w := w.readClock
    let score := scoreBackend (w.row b) routing cls total w.clock.now
    let (w, rest) := scored routing cls total bs w
    (w, (score, b) :: rest)

/-- Choose the eligible backend with minimum `scoreBackend`. -/
def pickBackend (routing : RoutingConfig) (cls : RequestClass) (candidates : List String)
    (w : World) : World × Option String :=
  if candidates.isEmpty then (w, none)
  else
    let (w, total) := totalDispatches routing candidates w
    let (w, scores) := scored routing cls total candidates w
    (w, (scores.insertionSort fun x y => x.1 ≤ y.1).head?.map (·.2))

/-! ## What scoring does to the world, and whom it picks -/

variable {routing : RoutingConfig} {cls : RequestClass}

/-- Worlds that differ by clock readings only. -/
def SameButClock (w w' : World) : Prop :=
  w'.registry = w.registry ∧ w'.trace = w.trace ∧ w.clock.now ≤ w'.clock.now

theorem SameButClock.refl (w : World) : SameButClock w w := ⟨rfl, rfl, le_refl _⟩

theorem SameButClock.trans {w₁ w₂ w₃ : World} (h : SameButClock w₁ w₂)
    (h' : SameButClock w₂ w₃) : SameButClock w₁ w₃ :=
  ⟨h'.1.trans h.1, h'.2.1.trans h.2.1, h.2.2.trans h'.2.2⟩

theorem sameButClock_readClock (w : World) : SameButClock w w.readClock :=
  ⟨rfl, rfl, w.clock.now_le_read⟩

/-- Counting the dispatches of the candidates only lets time pass. By induction over
them. -/
theorem totalDispatches_sameButClock :
    ∀ (bs : List String) (w : World), SameButClock w (totalDispatches routing bs w).1
  | [], w => .refl w
  | _ :: bs, w => (sameButClock_readClock w).trans (totalDispatches_sameButClock bs w.readClock)

/-- Scoring the candidates only lets time pass. By induction over them. -/
theorem scored_sameButClock {total : ℕ} :
    ∀ (bs : List String) (w : World), SameButClock w (scored routing cls total bs w).1
  | [], w => .refl w
  | _ :: bs, w => (sameButClock_readClock w).trans (scored_sameButClock bs w.readClock)

/-- The candidates are scored in order, one entry each. -/
theorem scored_names {total : ℕ} :
    ∀ (bs : List String) (w : World), (scored routing cls total bs w).2.map (·.2) = bs
  | [], _ => rfl
  | b :: bs, w => by
    show b :: (scored routing cls total bs w.readClock).2.map (·.2) = b :: bs
    rw [scored_names bs w.readClock]

/-- The choice lets time pass and changes no row. -/
theorem pickBackend_sameButClock (routing : RoutingConfig) (cls : RequestClass)
    (candidates : List String) (w : World) :
    SameButClock w (pickBackend routing cls candidates w).1 := by
  unfold pickBackend
  split
  · exact .refl w
  · exact (totalDispatches_sameButClock candidates w).trans (scored_sameButClock candidates _)

/-- The pick is a candidate. -/
theorem pickBackend_mem {candidates : List String} {w : World} {b : String}
    (h : (pickBackend routing cls candidates w).2 = some b) : b ∈ candidates := by
  unfold pickBackend at h
  split at h
  · cases h
  · obtain ⟨p, hp, rfl⟩ := Option.map_eq_some_iff.mp h
    have hmem := (List.perm_insertionSort _ _).mem_iff.mp (List.mem_of_mem_head? hp)
    have := List.mem_map_of_mem (f := (·.2)) hmem
    rwa [scored_names] at this

/-- There is a pick exactly when there is a candidate. -/
theorem pickBackend_eq_none_iff (routing : RoutingConfig) (cls : RequestClass)
    (candidates : List String) (w : World) :
    (pickBackend routing cls candidates w).2 = none ↔ candidates = [] := by
  unfold pickBackend
  split
  · rename_i hnil
    simpa using hnil
  · rename_i hne
    have hne' : candidates ≠ [] := by simpa using hne
    refine iff_of_false ?_ hne'
    intro hnone
    rw [Option.map_eq_none_iff, List.head?_eq_none_iff] at hnone
    have hlen := congrArg List.length hnone
    rw [List.length_insertionSort, ← List.length_map (f := (·.2)), scored_names] at hlen
    exact hne' (List.eq_nil_of_length_eq_zero hlen)

end Scoring

end InferenceGateway
