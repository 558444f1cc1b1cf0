import InferenceGateway.Lib.Ring
import InferenceGateway.Lib.Selection
import InferenceGateway.Scheduler.Scoring

/-!
# The choice when no dispatch expires

`pick_backend` reads the clock for every candidate twice. As long as no dispatch
leaves the window between the first and the last of these readings (`Steady`)
they do not matter, and the choice is the first of the cheapest candidates.

What makes a candidate dearer is the subject of the rest: the guarantees about
balance and about passed-over backends compare the costs of two backends, or of
one backend before and after a dispatch, and need each penalty to be monotone in
the load it is for.

- `pickBackend_eq_argmin`: the choice at one time.
- `dispatchShare_le_recordDispatch`: one more dispatch pushes out nothing that
  counts more, although the ring holds 256 of them only.
- `hotPenalty_mono`, `overloadPenalty_mono`, `classPenaltyForBackend_mono`: no
  penalty shrinks under load, if no weight is negative.
-/

namespace InferenceGateway

open Lib

namespace BackendRuntimeState

variable {s : BackendRuntimeState} {window now t₀ t₁ : ℚ}

/-- No recorded dispatch leaves the window between `t₀` and `t₁`. -/
def Steady (window t₀ t₁ : ℚ) (s : BackendRuntimeState) : Prop :=
  ∀ t ∈ s.dispatchTimes, t₀ - window ≤ t → t₁ - window ≤ t

/-- Within the span of a steady row the number of dispatches in the window is the
same. -/
theorem dispatchShare_of_steady (h : Steady window t₀ t₁ s) (h₀ : t₀ ≤ now) (h₁ : now ≤ t₁) :
    s.dispatchShare window now = s.dispatchShare window t₀ := by
  unfold dispatchShare
  refine List.countP_congr fun t ht => ?_
  rw [decide_eq_true_iff, decide_eq_true_iff]
  constructor
  · intro hin
    linarith
  · intro hin
    have hlate := h t ht hin
    linarith

/-- A dispatch is appended, and the oldest ones drop out of a ring that is full. -/
theorem dispatchTimes_recordDispatch (s : BackendRuntimeState) (t : ℚ) :
    (s.recordDispatch t).dispatchTimes = (s.dispatchTimes ++ [t]).rtake dispatchRing := by
  unfold recordDispatch
  dsimp only

/-- The ring grows by one until it is full. -/
theorem length_recordDispatch (s : BackendRuntimeState) (t : ℚ) :
    (s.recordDispatch t).dispatchTimes.length = min dispatchRing (s.dispatchTimes.length + 1) := by
  rw [dispatchTimes_recordDispatch, length_rtake, List.length_append, List.length_singleton]

/-- A ring holds what it held before and what is put in. -/
theorem mem_recordDispatch {t t' : ℚ} (h : t' ∈ (s.recordDispatch t).dispatchTimes) :
    t' ∈ s.dispatchTimes ∨ t' = t := by
  rw [dispatchTimes_recordDispatch, List.rtake] at h
  rcases List.mem_append.mp (List.mem_of_mem_drop h) with h | h
  · exact .inl h
  · exact .inr (List.mem_singleton.mp h)

/-- One more dispatch never lowers the count: what it pushes out of a full ring is
older, so if that was still in the window, so is the new one. -/
theorem dispatchShare_le_recordDispatch {t : ℚ} (hring : s.dispatchTimes.length ≤ dispatchRing)
    (hlast : ∀ t' ∈ s.dispatchTimes, t' ≤ t) :
    s.dispatchShare window now ≤ (s.recordDispatch t).dispatchShare window now := by
  unfold dispatchShare
  rw [dispatchTimes_recordDispatch]
  dsimp only
  generalize hp : (fun t => decide (now - window ≤ t)) = p
  have hup : ∀ t' ∈ s.dispatchTimes, p t' = true → p t = true := by
    intro t' ht' hin
    subst hp
    exact decide_eq_true ((of_decide_eq_true hin).trans (hlast t' ht'))
  cases htimes : s.dispatchTimes with
  | nil => exact Nat.zero_le _
  | cons t' ts =>
    rw [htimes] at hring hup
    -- ts).length < dispatchRing :: room for one more, or the oldest is pushed out
    by_cases hfull : (t' :: ts).length < dispatchRing
    · have hlen : (t' :: ts ++ [t]).length - dispatchRing = 0 := by
        simp only [List.length_append, List.length_cons, List.length_nil] at hfull ⊢
        omega
      rw [List.rtake, hlen, List.drop_zero, List.countP_append]
      exact Nat.le_add_right ..
    · have hlen : (t' :: ts ++ [t]).length - dispatchRing = 1 := by
        simp only [List.length_append, List.length_cons, List.length_nil] at hring hfull ⊢
        omega
      have hpushed : (t' :: ts ++ [t]).rtake dispatchRing = ts ++ [t] := by
        rw [List.rtake, hlen]
        rfl
      rw [hpushed, List.countP_append, List.countP_singleton, List.countP_cons]
      -- if the pushed-out dispatch was counted, the new one is counted in its place
      have hfirst := hup t' List.mem_cons_self
      by_cases hpt : p t = true
      · rw [if_pos hpt]
        split <;> omega
      · have hpt' : ¬ p t' = true := fun h => hpt (hfirst h)
        rw [if_neg hpt, if_neg hpt']

end BackendRuntimeState

/-- No weight of the cost is negative. -/
structure RoutingConfig.NonNegative (routing : RoutingConfig) : Prop where
  inflight : 0 ≤ routing.inflightWeight
  queue : 0 ≤ routing.queueWeight
  ttft : 0 ≤ routing.ttftWeight
  e2e : 0 ≤ routing.e2eWeight
  error : 0 ≤ routing.errorWeight
  hotPenalty : 0 ≤ routing.hotPenaltyWeight
  overloadPenalty : 0 ≤ routing.overloadPenaltyWeight

namespace Scoring

open BackendRuntimeState

variable {routing : RoutingConfig} {cls : RequestClass} {w : World} {bs : List String}
  {s s' : BackendRuntimeState} {t₀ t₁ now : ℚ} {total total' : ℕ}

/-! ## One time for all readings -/

/-- The score of a steady row does not depend on the reading. -/
theorem scoreBackend_of_steady (h : Steady routing.hotWindowSec t₀ t₁ s) (h₀ : t₀ ≤ now)
    (h₁ : now ≤ t₁) :
    scoreBackend s routing cls total now = scoreBackend s routing cls total t₀ := by
  unfold scoreBackend hotPenalty
  rw [dispatchShare_of_steady h h₀ h₁]

/-- The candidates' dispatches in the window at `t`. -/
def totalAt (routing : RoutingConfig) (w : World) (bs : List String) (t : ℚ) : ℕ :=
  (bs.map fun b => (w.row b).dispatchShare routing.hotWindowSec t).sum

/-- The cost of a candidate at `t`. -/
def costAt (routing : RoutingConfig) (cls : RequestClass) (w : World) (bs : List String) (t : ℚ)
    (b : String) : ℚ :=
  scoreBackend (w.row b) routing cls (totalAt routing w bs t) t

/-- If no dispatch leaves the window while the candidates are counted, the total is that
at the first reading of the clock. -/
theorem totalDispatches_of_steady (h : ∀ b ∈ bs, Steady routing.hotWindowSec t₀ t₁ (w.row b))
    (h₀ : t₀ ≤ w.clock.now) (h₁ : (totalDispatches routing bs w).1.clock.now ≤ t₁) :
    (totalDispatches routing bs w).2 = totalAt routing w bs t₀ := by
  induction bs generalizing w with
  | nil => rfl
  | cons b bs ih =>
    have hread : t₀ ≤ w.readClock.clock.now := h₀.trans w.clock.now_le_read
    have hlast : w.readClock.clock.now ≤ t₁ :=
      (totalDispatches_sameButClock bs w.readClock).2.2.trans h₁
    have hrest := ih (w := w.readClock) (fun x hx => h x (List.mem_cons_of_mem _ hx)) hread h₁
    have hshare := dispatchShare_of_steady (h b List.mem_cons_self) hread hlast
    show (w.row b).dispatchShare routing.hotWindowSec w.readClock.clock.now +
      (totalDispatches routing bs w.readClock).2 = _
    rw [hrest, hshare]
    rfl

/-- If no dispatch leaves the window while the candidates are scored, the scores are
those at the first reading of the clock. -/
theorem scored_of_steady (h : ∀ b ∈ bs, Steady routing.hotWindowSec t₀ t₁ (w.row b))
    (h₀ : t₀ ≤ w.clock.now) (h₁ : (scored routing cls total bs w).1.clock.now ≤ t₁) :
    (scored routing cls total bs w).2 =
      bs.map fun b => (scoreBackend (w.row b) routing cls total t₀, b) := by
  -- on the candidates; each is scored later than the one before, with the same counts
  induction bs generalizing w with
  | nil => rfl
  | cons b bs ih =>
    have hread : t₀ ≤ w.readClock.clock.now := h₀.trans w.clock.now_le_read
    have hlast : w.readClock.clock.now ≤ t₁ :=
      (scored_sameButClock bs w.readClock).2.2.trans h₁
    have hrest := ih (w := w.readClock) (fun x hx => h x (List.mem_cons_of_mem _ hx)) hread h₁
    have hscore : scoreBackend (w.row b) routing cls total w.readClock.clock.now =
        scoreBackend (w.row b) routing cls total t₀ :=
      scoreBackend_of_steady (h b List.mem_cons_self) hread hlast
    show (scoreBackend (w.row b) routing cls total w.readClock.clock.now, b) ::
      (scored routing cls total bs w.readClock).2 = _
    rw [hrest, hscore]
    rfl

/-- **The choice at one time.** If no dispatch expires while the candidates are
compared, the choice is the first candidate of least cost, all costs taken at `t₀`. -/
theorem pickBackend_eq_argmin (h : ∀ b ∈ bs, Steady routing.hotWindowSec t₀ t₁ (w.row b))
    (h₀ : t₀ ≤ w.clock.now) (h₁ : (pickBackend routing cls bs w).1.clock.now ≤ t₁) :
    (pickBackend routing cls bs w).2 = bs.argmin (costAt routing cls w bs t₀) := by
  unfold pickBackend at h₁ ⊢
  split
  · next hnil => rw [List.isEmpty_iff.mp hnil, List.argmin_nil]
  next hne =>
  rw [if_neg hne] at h₁
  have hcounted : SameButClock w (totalDispatches routing bs w).1 :=
    totalDispatches_sameButClock bs w
  obtain ⟨hreg, -, hnow⟩ := hcounted
  have hscored : SameButClock (totalDispatches routing bs w).1
      (scored routing cls (totalDispatches routing bs w).2 bs (totalDispatches routing bs w).1).1 :=
    scored_sameButClock bs _
  have hrow : ∀ b, (totalDispatches routing bs w).1.row b = w.row b := by
    intro b
    rw [World.row, hreg]
  -- both passes read the same rows within the steady span
  have htotal := totalDispatches_of_steady h h₀ (hscored.2.2.trans h₁)
  have hsteady : ∀ b ∈ bs,
      Steady routing.hotWindowSec t₀ t₁ ((totalDispatches routing bs w).1.row b) := by
    intro b hb
    rw [hrow]
    exact h b hb
  have hscores := scored_of_steady hsteady (h₀.trans hnow) h₁
  show ((scored routing cls _ bs _).2.insertionSort fun x y => x.1 ≤ y.1).head?.map (·.2) = _
  -- the head of a stable sort is the first of the least
  rw [head?_insertionSort_eq_argmin Prod.fst, hscores, htotal, argmin_map, Option.map_map]
  simp only [hrow]
  exact congrFun Option.map_id _

/-! ## What load does to a cost -/

/-- The hot penalty as a function of the share. -/
def sharePenalty (routing : RoutingConfig) (share : ℚ) : ℚ :=
  if share ≤ routing.hotTargetShare then 0
  else routing.hotPenaltyWeight * (share - routing.hotTargetShare) ^ 2 * 100

/-- The penalty is a function of the share of all recent dispatches. -/
theorem hotPenalty_eq (h : total ≠ 0) :
    hotPenalty s total routing now =
      sharePenalty routing ((s.dispatchShare routing.hotWindowSec now : ℚ) / total) :=
  if_neg h

/-- The penalty only ever makes a backend dearer. -/
theorem sharePenalty_nonneg (h : routing.NonNegative) (share : ℚ) :
    0 ≤ sharePenalty routing share := by
  unfold sharePenalty
  split
  · exact le_refl 0
  · have := h.hotPenalty
    positivity

/-- A larger share is no cheaper. -/
theorem sharePenalty_mono (h : routing.NonNegative) : Monotone (sharePenalty routing) := by
  intro x y hxy
  by_cases hx : x ≤ routing.hotTargetShare
  · rw [sharePenalty, if_pos hx]
    exact sharePenalty_nonneg h y
  · have hy : ¬ y ≤ routing.hotTargetShare := fun hy => hx (hxy.trans hy)
    have hpos : 0 ≤ x - routing.hotTargetShare := by linarith
    have hle : x - routing.hotTargetShare ≤ y - routing.hotTargetShare := by linarith
    have := h.hotPenalty
    rw [sharePenalty, if_neg hx, sharePenalty, if_neg hy]
    gcongr

/-- Of two backends the one with more dispatches in the window is no cheaper. -/
theorem hotPenalty_mono (h : routing.NonNegative)
    (hshare : s.dispatchShare routing.hotWindowSec now ≤
      s'.dispatchShare routing.hotWindowSec now) :
    hotPenalty s total routing now ≤ hotPenalty s' total routing now := by
  by_cases htotal : total = 0
  · rw [hotPenalty, if_pos htotal, hotPenalty, if_pos htotal]
  · rw [hotPenalty_eq htotal, hotPenalty_eq htotal]
    refine sharePenalty_mono h ?_
    gcongr

/-- With the same soft limit, more requests in flight are no cheaper. -/
theorem overloadPenalty_mono (h : routing.NonNegative) (hsoft : s'.softLimit = s.softLimit)
    (hin : s.inflight ≤ s'.inflight) : overloadPenalty s routing ≤ overloadPenalty s' routing := by
  have hweight := h.overloadPenalty
  unfold overloadPenalty
  rw [hsoft]
  -- under the soft limit there is no penalty, above it a linear one
  split
  · split
    · exact le_refl 0
    next hover =>
      have : (0 : ℚ) ≤ ((s'.inflight - s.softLimit : ℤ) : ℚ) := by
        exact_mod_cast (by omega : 0 ≤ s'.inflight - s.softLimit)
      positivity
  next hover =>
    rw [if_neg (by omega)]
    have hle : s.inflight - s.softLimit ≤ s'.inflight - s.softLimit := by omega
    gcongr

/-- More large requests in flight are no cheaper, whatever class is to be placed. -/
theorem classPenaltyForBackend_mono {n n' : ℤ} (h : n ≤ n') (cls : RequestClass) :
    classPenaltyForBackend n cls ≤ classPenaltyForBackend n' cls := by
  have hcast : (n : ℚ) ≤ n' := by exact_mod_cast h
  unfold classPenaltyForBackend
  -- without large requests there is no penalty
  by_cases hn : n ≤ 0
  · rw [if_pos hn]
    split
    · exact le_refl 0
    next hpos =>
      have : (0 : ℚ) < n' := by exact_mod_cast not_le.mp hpos
      split
      · exact le_min (by norm_num) (by positivity)
      · exact le_refl 0
  · rw [if_neg hn, if_neg (show ¬ n' ≤ 0 by omega)]
    by_cases hc : cls = .smallChat ∨ cls = .mediumChat
    · rw [if_pos hc, if_pos hc]
      gcongr
    · rw [if_neg hc, if_neg hc]

/-- What a class can add to a cost. -/
theorem classPenaltyForBackend_bounds (n : ℤ) (cls : RequestClass) :
    0 ≤ classPenaltyForBackend n cls ∧ classPenaltyForBackend n cls ≤ 5 := by
  unfold classPenaltyForBackend
  split
  · norm_num
  next hpos =>
    have : (0 : ℚ) < n := by exact_mod_cast not_le.mp hpos
    split
    · exact ⟨le_min (by norm_num) (by positivity), min_le_left ..⟩
    · norm_num

end Scoring

end InferenceGateway
