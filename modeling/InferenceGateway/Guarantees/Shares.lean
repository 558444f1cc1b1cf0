import InferenceGateway.Guarantees.Balance
import Mathlib.Algebra.Order.BigOperators.Group.List

/-!
# The share of recent dispatches

A backend keeps the times of its last 256 dispatches, and `pick_backend` counts the recent
ones twice: once for every candidate to get the total, and then again for each candidate
that it scores, where `hot_penalty` divides the second count by that total. Every count
reads the clock anew.

A share can therefore be wrong in two ways. More than 256 dispatches of one candidate are
in the window, and the ring has forgotten some. Or a dispatch leaves the window between a
reading for the total and the reading for the share, so that the two counts are about
different windows.

## Main results

- `dispatchShare_recordAll`: what is counted after any history of dispatches.
- `totalDispatches_eq`, `scored_eq`: what the choice counts, reading by reading.
- `exactShares_iff`: the counts and the shares are the true ones exactly if neither happens.
-/

namespace InferenceGateway

open Lib

/-! ## The ring and the history -/

namespace BackendRuntimeState

variable {s : BackendRuntimeState} {window now now' : ℚ} {ts : List ℚ}

/-- The row after a history of `record_dispatch` calls. -/
def recordAll (s : BackendRuntimeState) (ts : List ℚ) : BackendRuntimeState :=
  ts.foldl recordDispatch s

/-- The number of dispatches with a timestamp in the window. -/
def recent (window now : ℚ) (ts : List ℚ) : ℕ := ts.countP fun t => decide (now - window ≤ t)

/-- None of the dispatches leaves the window from the one reading to the other. -/
def NoneLeaves (window now now' : ℚ) (ts : List ℚ) : Prop :=
  ∀ t ∈ ts, now - window ≤ t → now' - window ≤ t

/-- The ring holds the last dispatches. -/
theorem dispatchTimes_recordAll (hfresh : s.dispatchTimes = []) (ts : List ℚ) :
    (s.recordAll ts).dispatchTimes = ts.rtake dispatchRing := by
  have hring : (s.recordAll ts).dispatchTimes =
      ts.foldl (fun ring t => (ring ++ [t]).rtake dispatchRing) s.dispatchTimes := by
    clear hfresh
    induction ts generalizing s with
    | nil => rfl
    | cons t ts ih =>
      unfold recordAll at ih ⊢
      rw [List.foldl_cons, List.foldl_cons, ih, dispatchTimes_recordDispatch]
  rw [hring, hfresh, foldl_push]

/-- **What is counted.** After any history of dispatches the count is that of all of
them that are in the window, up to the 256 the ring holds. -/
theorem dispatchShare_recordAll (hfresh : s.dispatchTimes = []) (hts : ts.Pairwise (· ≤ ·)) :
    (s.recordAll ts).dispatchShare window now = min dispatchRing (recent window now ts) := by
  unfold dispatchShare recent
  rw [dispatchTimes_recordAll hfresh]
  refine countP_rtake (hts.imp fun {t t'} hle hin => ?_) dispatchRing
  exact decide_eq_true ((of_decide_eq_true hin).trans hle)

/-- As time passes dispatches only leave the window. -/
theorem recent_anti (hle : now ≤ now') : recent window now' ts ≤ recent window now ts := by
  refine List.countP_mono_left fun t _ hin => ?_
  have hin' := of_decide_eq_true hin
  exact decide_eq_true (by linarith)

/-- The count of the dispatches in the window is the same at the later reading exactly
if none of them leaves the window in between. -/
theorem recent_eq_iff (hle : now ≤ now') :
    recent window now' ts = recent window now ts ↔ NoneLeaves window now now' ts := by
  unfold recent NoneLeaves
  induction ts with
  | nil => simp
  | cons t ts ih =>
    have hrest : recent window now' ts ≤ recent window now ts := recent_anti hle
    have himp : now' - window ≤ t → now - window ≤ t := fun h => by linarith
    unfold recent at hrest
    rw [List.countP_cons, List.countP_cons, List.forall_mem_cons, ← ih]
    -- a dispatch that has left the later window was in the earlier one, or not
    by_cases hlate : now' - window ≤ t
    · simp [hlate, himp hlate]
    · by_cases hearly : now - window ≤ t
      · refine iff_of_false (fun heq => ?_) fun hall => hlate (hall.1 hearly)
        rw [if_neg (fun h => hlate (of_decide_eq_true h)), if_pos (decide_eq_true hearly)] at heq
        omega
      · simp [hlate, hearly]

end BackendRuntimeState

namespace Scoring

open BackendRuntimeState

variable {routing : RoutingConfig} {cls : RequestClass} {w : World} {bs : List String}
  {past : String → List ℚ}

/-! ## The readings of the clock -/

/-- The candidates with the reading of the clock each of them is counted at, where the loop
over them starts with `w`. -/
def readings : List String → World → List (String × ℚ)
  | [], _ => []
  | b :: bs, w => (b, w.readClock.clock.now) :: readings bs w.readClock

theorem readings_names (bs : List String) (w : World) : (readings bs w).map Prod.fst = bs := by
  induction bs generalizing w with
  | nil => rfl
  | cons b bs ih => rw [readings, List.map_cons, ih]

theorem now_le_of_mem_readings {r : String × ℚ} (h : r ∈ readings bs w) : w.clock.now ≤ r.2 := by
  induction bs generalizing w with
  | nil => cases h
  | cons b bs ih =>
    rcases List.mem_cons.mp h with rfl | h
    · exact w.clock.now_le_read
    · exact w.clock.now_le_read.trans (ih h)

/-- The total is the sum of the counts, each at its own reading. -/
theorem totalDispatches_eq (bs : List String) (w : World) :
    (totalDispatches routing bs w).2 =
      ((readings bs w).map fun r => (w.row r.1).dispatchShare routing.hotWindowSec r.2).sum := by
  induction bs generalizing w with
  | nil => rfl
  | cons b bs ih =>
    rw [readings, List.map_cons, List.sum_cons]
    exact congrArg _ (ih w.readClock)

/-- Every score is that of its own reading of the clock, against the total of the
earlier ones. -/
theorem scored_eq {total : ℕ} (bs : List String) (w : World) :
    (scored routing cls total bs w).2 =
      (readings bs w).map fun r => (scoreBackend (w.row r.1) routing cls total r.2, r.1) := by
  induction bs generalizing w with
  | nil => rfl
  | cons b bs ih =>
    rw [readings, List.map_cons]
    exact congrArg _ (ih w.readClock)

theorem le_totalDispatches {r : String × ℚ} (h : r ∈ readings bs w) :
    r.2 ≤ (totalDispatches routing bs w).1.clock.now := by
  induction bs generalizing w with
  | nil => cases h
  | cons b bs ih =>
    rcases List.mem_cons.mp h with rfl | h
    · exact (totalDispatches_sameButClock bs w.readClock).2.2
    · exact ih h

/-- The world the scoring starts with. -/
abbrev counted (routing : RoutingConfig) (bs : List String) (w : World) : World :=
  (totalDispatches routing bs w).1

/-- All readings for the total come before all readings for the scores. -/
theorem readings_le {q r : String × ℚ} (hq : q ∈ readings bs w)
    (hr : r ∈ readings bs (counted routing bs w)) : q.2 ≤ r.2 :=
  (le_totalDispatches hq).trans (now_le_of_mem_readings hr)

/-! ## Exact shares -/

/-- The ring of every candidate comes from the dispatches `past` tells, on a clock that
did not run back. -/
def Recorded (w : World) (bs : List String) (past : String → List ℚ) : Prop :=
  ∀ b ∈ bs, (past b).Pairwise (· ≤ ·) ∧ ∃ s : BackendRuntimeState, s.dispatchTimes = [] ∧
    (w.row b).dispatchTimes = (s.recordAll (past b)).dispatchTimes

theorem Recorded.dispatchShare (h : Recorded w bs past) {b : String} (hb : b ∈ bs)
    {window now : ℚ} :
    (w.row b).dispatchShare window now = min dispatchRing (recent window now (past b)) := by
  obtain ⟨hordered, s, hfresh, hring⟩ := h b hb
  rw [← dispatchShare_recordAll hfresh hordered]
  unfold BackendRuntimeState.dispatchShare
  rw [hring]

theorem Recorded.dispatchShare_eq_iff (h : Recorded w bs past) {b : String} (hb : b ∈ bs)
    {window now : ℚ} :
    (w.row b).dispatchShare window now = recent window now (past b) ↔
      recent window now (past b) ≤ dispatchRing := by
  rw [h.dispatchShare hb]
  exact min_eq_right_iff

/-- The candidates' dispatches in the window, as they were. -/
def recentTotal (routing : RoutingConfig) (bs : List String) (past : String → List ℚ) (now : ℚ) :
    ℕ :=
  (bs.map fun x => recent routing.hotWindowSec now (past x)).sum

/-- Every count of the choice is the number of the backend's dispatches in the window, and every
share that `hot_penalty` compares is, at the reading it is taken at, the backend's fraction of
all the candidates' dispatches in the window. -/
structure ExactShares (routing : RoutingConfig) (w : World) (bs : List String)
    (past : String → List ℚ) : Prop where
  counts : ∀ r ∈ readings bs w ++ readings bs (counted routing bs w),
    (w.row r.1).dispatchShare routing.hotWindowSec r.2 =
      recent routing.hotWindowSec r.2 (past r.1)
  shares : ∀ r ∈ readings bs (counted routing bs w),
    ((w.row r.1).dispatchShare routing.hotWindowSec r.2 : ℚ) / (totalDispatches routing bs w).2 =
      (recent routing.hotWindowSec r.2 (past r.1) : ℚ) / recentTotal routing bs past r.2

/-- No candidate has more dispatches in the window than its ring holds, when it is counted for
the total. -/
def Uncrowded (routing : RoutingConfig) (w : World) (bs : List String) (past : String → List ℚ) :
    Prop :=
  ∀ q ∈ readings bs w, recent routing.hotWindowSec q.2 (past q.1) ≤ dispatchRing

/-- Where a backend with dispatches in the window is scored, no dispatch of a candidate has left
the window since that candidate was counted for the total. -/
def NoneExpired (routing : RoutingConfig) (w : World) (bs : List String)
    (past : String → List ℚ) : Prop :=
  ∀ r ∈ readings bs (counted routing bs w), recent routing.hotWindowSec r.2 (past r.1) ≠ 0 →
    ∀ q ∈ readings bs w, NoneLeaves routing.hotWindowSec q.2 r.2 (past q.1)

/-- Of two sums, one of them smaller term by term, equality is equality term by term. -/
theorem sum_eq_iff_of_le {α : Type} {f g : α → ℕ} {l : List α} (hle : ∀ x ∈ l, f x ≤ g x) :
    (l.map f).sum = (l.map g).sum ↔ ∀ x ∈ l, f x = g x := by
  induction l with
  | nil => simp
  | cons x l ih =>
    obtain ⟨hx, hl⟩ := List.forall_mem_cons.mp hle
    have hsum : (l.map f).sum ≤ (l.map g).sum := List.sum_le_sum hl
    rw [List.map_cons, List.map_cons, List.sum_cons, List.sum_cons, List.forall_mem_cons, ← ih hl]
    omega

/-- The share of one backend, if all counts are the true ones. -/
theorem share_eq_iff {r : String × ℚ} (hr : r ∈ readings bs (counted routing bs w)) :
    (recent routing.hotWindowSec r.2 (past r.1) : ℚ) /
        (((readings bs w).map fun q => recent routing.hotWindowSec q.2 (past q.1)).sum : ℕ) =
      (recent routing.hotWindowSec r.2 (past r.1) : ℚ) / recentTotal routing bs past r.2 ↔
    (recent routing.hotWindowSec r.2 (past r.1) ≠ 0 →
      ∀ q ∈ readings bs w, NoneLeaves routing.hotWindowSec q.2 r.2 (past q.1)) := by
  have hnow : recentTotal routing bs past r.2 =
      ((readings bs w).map fun q => recent routing.hotWindowSec r.2 (past q.1)).sum := by
    conv_lhs => rw [recentTotal, ← readings_names bs w, List.map_map]
    rfl
  by_cases hzero : recent routing.hotWindowSec r.2 (past r.1) = 0
  · rw [hzero]
    simp
  · have hle : ∀ q ∈ readings bs w, recent routing.hotWindowSec r.2 (past q.1) ≤
        recent routing.hotWindowSec q.2 (past q.1) := fun q hq => recent_anti (readings_le hq hr)
    rw [div_eq_mul_inv, div_eq_mul_inv, mul_right_inj' (Nat.cast_ne_zero.mpr hzero), inv_inj,
      Nat.cast_inj, eq_comm, hnow, sum_eq_iff_of_le hle, forall_prop_of_true hzero]
    exact forall₂_congr fun q hq => recent_eq_iff (readings_le hq hr)

/-- **When the shares are exact.** For every history of dispatches of any candidates: a count is
the true one, at whatever time and for whatever window, if and only if no more than 256
dispatches are in the window. All counts and shares of a choice are the true ones if and only
if that holds of every count it makes, and no dispatch leaves the window while it makes them. -/
theorem exactShares_iff (h : Recorded w bs past) :
    (∀ b ∈ bs, ∀ window now, (w.row b).dispatchShare window now = recent window now (past b) ↔
      recent window now (past b) ≤ dispatchRing) ∧
    (ExactShares routing w bs past ↔
      Uncrowded routing w bs past ∧ NoneExpired routing w bs past) := by
  have hcount : ∀ b ∈ bs, ∀ window now,
      (w.row b).dispatchShare window now = recent window now (past b) ↔
        recent window now (past b) ≤ dispatchRing := fun b hb window now =>
    h.dispatchShare_eq_iff hb
  refine ⟨hcount, ?_⟩
  have hname : ∀ {v : World}, ∀ r ∈ readings bs v, r.1 ∈ bs := fun {v} r hr =>
    readings_names bs v ▸ List.mem_map_of_mem hr
  have htotal : Uncrowded routing w bs past → (totalDispatches routing bs w).2 =
      ((readings bs w).map fun q => recent routing.hotWindowSec q.2 (past q.1)).sum := by
    intro hfew
    rw [totalDispatches_eq]
    exact congrArg List.sum (List.map_congr_left fun q hq =>
      (hcount q.1 (hname q hq) _ _).mpr (hfew q hq))
  constructor
  · rintro ⟨hcounts, hshares⟩
    have hfew : Uncrowded routing w bs past := fun q hq =>
      (hcount q.1 (hname q hq) _ _).mp (hcounts q (List.mem_append_left _ hq))
    refine ⟨hfew, fun r hr => (share_eq_iff hr).mp ?_⟩
    have hshare := hshares r hr
    rwa [hcounts r (List.mem_append_right _ hr), htotal hfew] at hshare
  · rintro ⟨hfew, hnone⟩
    have hlater : ∀ r ∈ readings bs (counted routing bs w),
        (w.row r.1).dispatchShare routing.hotWindowSec r.2 =
          recent routing.hotWindowSec r.2 (past r.1) := by
      intro r hr
      -- it was counted for the total before, when no fewer were in the window
      obtain ⟨q, hq, hqr⟩ : ∃ q ∈ readings bs w, q.1 = r.1 :=
        List.mem_map.mp (by rw [readings_names]; exact hname r hr)
      have hold := hfew q hq
      rw [hqr] at hold
      exact (hcount r.1 (hname r hr) _ _).mpr ((recent_anti (readings_le hq hr)).trans hold)
    refine ⟨fun r hr => ?_, fun r hr => ?_⟩
    · rcases List.mem_append.mp hr with hq | hr
      · exact (hcount r.1 (hname r hq) _ _).mpr (hfew r hq)
      · exact hlater r hr
    · rw [hlater r hr, htotal hfew]
      exact (share_eq_iff hr).mpr (hnone r hr)

/-- Two backends after the dispatches `past` tells, at a time of a clock. -/
def afterDispatches (clock : Clock) (past : String → List ℚ) : World :=
  { clock := clock
    registry := { BackendRegistry.ofConfig Rounds.twins with
      row := fun b => ((BackendRegistry.ofConfig Rounds.twins).row b).recordAll (past b) }
    trace := [] }

theorem recorded_afterDispatches {clock : Clock} (hpast : ∀ b, (past b).Pairwise (· ≤ ·)) :
    Recorded (afterDispatches clock past) ["gpu-node-1", "gpu-node-2"] past := by
  intro b hb
  refine ⟨hpast b, (BackendRegistry.ofConfig Rounds.twins).row b, ?_, rfl⟩
  rcases List.mem_pair.mp hb with rfl | rfl <;> decide +kernel

/-- The first backend had two dispatches and the second one had one, all in the last window. -/
def uneven (b : String) : List ℚ := if b = "gpu-node-1" then [0, 1] else [1]

/-- All of them are counted, although a second passes between the total and the shares. -/
theorem exactShares_uneven :
    ExactShares {} (afterDispatches (.ofGaps 0 [1, 0, 1]) uneven) ["gpu-node-1", "gpu-node-2"]
      uneven := by
  have hrecorded : Recorded (afterDispatches (.ofGaps 0 [1, 0, 1]) uneven)
      ["gpu-node-1", "gpu-node-2"] uneven := by
    refine recorded_afterDispatches fun b => ?_
    unfold uneven
    split <;> decide +kernel
  refine (exactShares_iff hrecorded).2.mpr ⟨?_, ?_⟩
  · show ∀ q ∈ readings _ _, _
    decide +kernel
  · show ∀ r ∈ readings _ _, _ → ∀ q ∈ readings _ _, ∀ t ∈ _, _
    decide +kernel

/-- The first backend had two thirds of the dispatches, all at one instant. -/
def burst (b : String) : List ℚ := List.replicate (if b = "gpu-node-1" then 512 else 256) 0

/-- The world after the burst, on a clock that stands. -/
abbrev afterBurst : World := afterDispatches (.ofGaps 0 []) burst

theorem recorded_burst : Recorded afterBurst ["gpu-node-1", "gpu-node-2"] burst :=
  recorded_afterDispatches fun _ => List.pairwise_replicate.mpr (.inr (le_refl _))

/-- The dominating backend looks like an equal one, and is not penalized: its true share
of two thirds is above the target of 0.55, the one that is computed is not. -/
theorem exactShares_burst :
    ¬ ExactShares {} afterBurst ["gpu-node-1", "gpu-node-2"] burst ∧
      hotPenalty (afterBurst.row "gpu-node-1")
        (totalDispatches {} ["gpu-node-1", "gpu-node-2"] afterBurst).2 {} 0 = 0 ∧
      0 < sharePenalty {} ((512 : ℚ) / (512 + 256)) := by
  have hrecent : ∀ b, recent ({} : RoutingConfig).hotWindowSec 0 (burst b) =
      if b = "gpu-node-1" then 512 else 256 := by
    intro b
    unfold recent burst
    rw [List.countP_replicate, if_pos (by norm_num)]
  have hshare : ∀ b ∈ ["gpu-node-1", "gpu-node-2"],
      (afterBurst.row b).dispatchShare ({} : RoutingConfig).hotWindowSec 0 = 256 := by
    intro b hb
    rw [recorded_burst.dispatchShare hb, hrecent]
    split <;> rfl
  have hreadings : readings ["gpu-node-1", "gpu-node-2"] afterBurst =
      [("gpu-node-1", 0), ("gpu-node-2", 0)] := by decide +kernel
  refine ⟨fun hexact => ?_, ?_, ?_⟩
  · have hfirst := hexact.counts ("gpu-node-1", 0)
      (List.mem_append_left _ (hreadings ▸ List.mem_cons_self))
    rw [hshare _ (by decide), hrecent] at hfirst
    revert hfirst
    decide
  · have htotal : (totalDispatches {} ["gpu-node-1", "gpu-node-2"] afterBurst).2 = 512 := by
      rw [totalDispatches_eq, hreadings, List.map_cons, List.map_cons, List.map_nil, List.sum_cons,
        List.sum_cons, List.sum_nil, hshare _ (by decide), hshare _ (by decide)]
      rfl
    rw [htotal, hotPenalty_eq (by decide), hshare _ (by decide)]
    unfold sharePenalty
    norm_num
  · unfold sharePenalty
    norm_num

end Scoring

end InferenceGateway
