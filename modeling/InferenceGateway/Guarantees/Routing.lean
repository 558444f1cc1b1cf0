import InferenceGateway.Guarantees.Balance

/-!
# The choice under more load

A dispatch on one backend changes every candidate's cost, because the hot penalty
compares each count with the total over all candidates. So that more load never
makes a backend more attractive needs an argument about everybody's share at once.

Two worlds are compared, which differ in one row: in the second one that backend
has more in flight, more large requests or more dispatches in the window. Its hot
penalty has grown by some `d`, and nothing else in its cost has fallen; nobody
else's cost has grown by more than `d`, so that whoever was preferred to it still
is.

## Main results

- `scoreBackend_add_le`: a busier backend costs more, by as much as its hot
  penalty has grown.
- `exists_hot_gain`: nobody else's hot penalty grows by more than the busier
  backend's own.
- `passed_over_stays`: a backend that is not chosen is not chosen either once it
  has more load, one more dispatch included.
-/

namespace InferenceGateway

open Lib Scoring

/-! ## Load -/

/-- `s'` is `s` with more load, and possibly one more dispatch, later than the others. -/
structure BackendRuntimeState.Busier (s s' : BackendRuntimeState) : Prop where
  softLimit : s'.softLimit = s.softLimit
  inflight : s.inflight ≤ s'.inflight
  largeInflight : s.largeInflight ≤ s'.largeInflight
  ewmaQueueMs : s.ewmaQueueMs ≤ s'.ewmaQueueMs
  ewmaTtftMs : s.ewmaTtftMs ≤ s'.ewmaTtftMs
  ewmaE2eMs : s.ewmaE2eMs ≤ s'.ewmaE2eMs
  recentErrorRate : s.recentErrorRate ≤ s'.recentErrorRate
  dispatches : s'.dispatchTimes = s.dispatchTimes ∨
    ∃ t, (∀ t' ∈ s.dispatchTimes, t' ≤ t) ∧ s'.dispatchTimes = (s.recordDispatch t).dispatchTimes

namespace Scoring

variable {routing : RoutingConfig} {cls : RequestClass} {w w' : World} {bs : List String}
  {a : String} {s s' : BackendRuntimeState} {t₀ now : ℚ} {total total' : ℕ} {d : ℚ}

theorem dispatchShare_le_of_busier {window : ℚ} (h : s.Busier s')
    (hring : s.dispatchTimes.length ≤ dispatchRing) :
    s.dispatchShare window now ≤ s'.dispatchShare window now := by
  rcases h.dispatches with hsame | ⟨t, hlast, hmore⟩
  · unfold BackendRuntimeState.dispatchShare
    rw [hsame]
  · have hle : s.dispatchShare window now ≤ (s.recordDispatch t).dispatchShare window now :=
      BackendRuntimeState.dispatchShare_le_recordDispatch hring hlast
    unfold BackendRuntimeState.dispatchShare at hle ⊢
    rwa [hmore]

/-- A busier backend costs more, by as much as its hot penalty has grown. -/
theorem scoreBackend_add_le (hweights : routing.NonNegative) (h : s.Busier s')
    (hhot : hotPenalty s total routing now + d ≤ hotPenalty s' total' routing now) :
    scoreBackend s routing cls total now + d ≤ scoreBackend s' routing cls total' now := by
  have hover := overloadPenalty_mono hweights h.softLimit h.inflight
  have hclass := classPenaltyForBackend_mono h.largeInflight cls
  have hin : (s.inflight : ℚ) ≤ s'.inflight := by exact_mod_cast h.inflight
  have h₁ := mul_le_mul_of_nonneg_left hin hweights.inflight
  have h₂ := mul_le_mul_of_nonneg_left h.ewmaQueueMs hweights.queue
  have h₃ := mul_le_mul_of_nonneg_left h.ewmaTtftMs hweights.ttft
  have h₄ := mul_le_mul_of_nonneg_left h.ewmaE2eMs hweights.e2e
  have h₅ := mul_le_mul_of_nonneg_left h.recentErrorRate hweights.error
  unfold scoreBackend
  linarith

/-! ## Everybody's share -/

/-- What the total of the candidates' dispatches gains it gains by the one backend that
changed. -/
theorem totalAt_of_busier (hothers : ∀ b ∈ bs, b ≠ a → w'.row b = w.row b) :
    totalAt routing w' bs t₀ + bs.count a * (w.row a).dispatchShare routing.hotWindowSec t₀ =
      totalAt routing w bs t₀ + bs.count a * (w'.row a).dispatchShare routing.hotWindowSec t₀ := by
  induction bs with
  | nil => simp [totalAt]
  | cons b bs ih =>
    have hrest := ih fun x hx => hothers x (List.mem_cons_of_mem _ hx)
    unfold totalAt at hrest ⊢
    rw [List.map_cons, List.sum_cons, List.map_cons, List.sum_cons]
    by_cases hb : b = a
    · subst hb
      rw [List.count_cons_self]
      linarith
    · rw [hothers b List.mem_cons_self hb, List.count_cons_of_ne hb]
      linarith

theorem count_mul_le_totalAt :
    bs.count a * (w.row a).dispatchShare routing.hotWindowSec t₀ ≤ totalAt routing w bs t₀ := by
  induction bs with
  | nil => simp
  | cons b bs ih =>
    unfold totalAt at ih ⊢
    rw [List.map_cons, List.sum_cons]
    by_cases hb : b = a
    · subst hb
      rw [List.count_cons_self]
      linarith
    · rw [List.count_cons_of_ne hb]
      linarith

/-- **The hot penalties.** There is an amount that nobody else's penalty grows by more
than, and the busier backend's by no less. It is zero, unless the window was empty: then
the penalties were off, and the first dispatch turns them on for everybody. -/
theorem exists_hot_gain (hweights : routing.NonNegative) (ha : a ∈ bs)
    (hothers : ∀ b ∈ bs, b ≠ a → w'.row b = w.row b)
    (hmore : (w.row a).dispatchShare routing.hotWindowSec t₀ ≤
      (w'.row a).dispatchShare routing.hotWindowSec t₀) :
    ∃ d : ℚ,
      (∀ b ∈ bs, b ≠ a → hotPenalty (w'.row b) (totalAt routing w' bs t₀) routing t₀ ≤
        hotPenalty (w.row b) (totalAt routing w bs t₀) routing t₀ + d) ∧
      hotPenalty (w.row a) (totalAt routing w bs t₀) routing t₀ + d ≤
        hotPenalty (w'.row a) (totalAt routing w' bs t₀) routing t₀ := by
  have hcount : 0 < bs.count a := List.count_pos_iff.mpr ha
  have hgain : totalAt routing w' bs t₀ +
        bs.count a * (w.row a).dispatchShare routing.hotWindowSec t₀ =
      totalAt routing w bs t₀ + bs.count a * (w'.row a).dispatchShare routing.hotWindowSec t₀ :=
    totalAt_of_busier hothers
  have hpart : bs.count a * (w.row a).dispatchShare routing.hotWindowSec t₀ ≤
      totalAt routing w bs t₀ := count_mul_le_totalAt
  generalize hT : totalAt routing w bs t₀ = T at *
  generalize hT' : totalAt routing w' bs t₀ = T' at *
  generalize hx : (w.row a).dispatchShare routing.hotWindowSec t₀ = x at *
  generalize hx' : (w'.row a).dispatchShare routing.hotWindowSec t₀ = x' at *
  have hgrow : bs.count a * x ≤ bs.count a * x' := Nat.mul_le_mul_left _ hmore
  have hTT' : T ≤ T' := by omega
  by_cases hzero : T = 0
  · subst hzero
    by_cases hzero' : T' = 0
    · refine ⟨0, fun b hb hne => ?_, ?_⟩
      · rw [hothers b hb hne, hzero', add_zero]
      · rw [hotPenalty, if_pos rfl, hzero', hotPenalty, if_pos rfl, add_zero]
    · refine ⟨sharePenalty routing 0, fun b hb hne => ?_, ?_⟩
      · have hnone : (w.row b).dispatchShare routing.hotWindowSec t₀ = 0 :=
          List.sum_eq_zero_iff_forall_eq_nat.mp hT _ (List.mem_map_of_mem hb)
        rw [hotPenalty_eq hzero', hothers b hb hne, hnone, hotPenalty, if_pos rfl, Nat.cast_zero,
          zero_div, zero_add]
      · rw [hotPenalty_eq hzero', hotPenalty, if_pos rfl, zero_add]
        exact sharePenalty_mono hweights (div_nonneg (Nat.cast_nonneg _) (Nat.cast_nonneg _))
  · have hzero' : T' ≠ 0 := by omega
    have hpos : (0 : ℚ) < T := by exact_mod_cast Nat.pos_of_ne_zero hzero
    have hpos' : (0 : ℚ) < T' := by exact_mod_cast Nat.pos_of_ne_zero hzero'
    refine ⟨0, fun b hb hne => ?_, ?_⟩
    · rw [hotPenalty_eq hzero', hotPenalty_eq hzero, hothers b hb hne, add_zero]
      refine sharePenalty_mono hweights ?_
      gcongr
    · rw [hotPenalty_eq hzero', hotPenalty_eq hzero, hx, hx', add_zero]
      refine sharePenalty_mono hweights ?_
      rw [div_le_div_iff₀ hpos hpos']
      -- `T' = T + m (x' - x)` with `m x ≤ T`
      have hgainQ : (T' : ℚ) + bs.count a * x = T + bs.count a * x' := by exact_mod_cast hgain
      have hpartQ : (bs.count a : ℚ) * x ≤ T := by exact_mod_cast hpart
      have hmoreQ : (0 : ℚ) ≤ x' - x := by
        have : (x : ℚ) ≤ x' := by exact_mod_cast hmore
        linarith
      have hprod := mul_le_mul_of_nonneg_right hpartQ hmoreQ
      calc (x : ℚ) * T' = x * T + bs.count a * x * (x' - x) := by
            rw [eq_sub_of_add_eq hgainQ]
            ring
        _ ≤ x * T + T * (x' - x) := by linarith
        _ = x' * T := by ring

/-- **Load monotonicity.** A candidate that is not chosen is still not chosen at a later
time, after more load of any kind and up to one more dispatch on it, if the others are
unchanged and no dispatch leaves the window from the first choice to the end of the
second. -/
theorem passed_over_stays (hweights : routing.NonNegative)
    (hothers : ∀ b ∈ bs, b ≠ a → w'.row b = w.row b) (hbusy : (w.row a).Busier (w'.row a))
    (hring : (w.row a).dispatchTimes.length ≤ dispatchRing)
    (hlater : (pickBackend routing cls bs w).1.clock.now ≤ w'.clock.now)
    (hsteady : ∀ b ∈ bs, (w.row b).Steady routing.hotWindowSec w.clock.now
      (pickBackend routing cls bs w').1.clock.now)
    (hsteady' : (w'.row a).Steady routing.hotWindowSec w.clock.now
      (pickBackend routing cls bs w').1.clock.now)
    (h : (pickBackend routing cls bs w).2 ≠ some a) :
    (pickBackend routing cls bs w').2 ≠ some a := by
  -- both choices are argmins of costs, and `d` is how far the others' may have risen
  by_cases ha : a ∈ bs
  · have hfirst := (pickBackend_sameButClock routing cls bs w).2.2
    have hsecond := (pickBackend_sameButClock routing cls bs w').2.2
    have hend := hlater.trans hsecond
    have hall : ∀ b ∈ bs, (w'.row b).Steady routing.hotWindowSec w.clock.now
        (pickBackend routing cls bs w').1.clock.now := by
      intro b hb
      by_cases hba : b = a
      · rw [hba]
        exact hsteady'
      · rw [hothers b hb hba]
        exact hsteady b hb
    rw [pickBackend_eq_argmin hall (hfirst.trans hlater) (le_refl _)]
    rw [pickBackend_eq_argmin hsteady (le_refl _) hend] at h
    obtain ⟨d, hgain, hself⟩ :=
      exists_hot_gain hweights ha hothers (dispatchShare_le_of_busier hbusy hring)
    refine argmin_ne_of_gain (d := d) (fun b hb hne => ?_) ?_ h
    · have := hgain b hb hne
      unfold costAt scoreBackend
      rw [hothers b hb hne] at this ⊢
      linarith
    · exact scoreBackend_add_le hweights hbusy hself
  · intro hchosen
    exact ha (pickBackend_mem hchosen)

/-- One slot is taken on the first backend, so the second one is chosen. -/
def oneTaken : World :=
  (Rounds.idleTwins.adm.world.takeSlot "gpu-node-1" .largeChat).1

/-- One more is taken on the first backend. -/
def twoTaken : World := (oneTaken.takeSlot "gpu-node-1" .smallChat).1

theorem passed_over_stays_twoTaken :
    (pickBackend {} .mediumChat ["gpu-node-1", "gpu-node-2"] twoTaken).2 ≠ some "gpu-node-1" := by
  refine passed_over_stays (w := oneTaken) ?_ ?_ ?_ ?_ ?_ ?_ ?_ ?_
  · constructor <;> decide +kernel
  · intro b _ hb
    exact World.takeSlot_row_of_ne hb
  · refine ⟨?_, ?_, ?_, ?_, ?_, ?_, ?_, .inr ⟨0, ?_, ?_⟩⟩ <;> decide +kernel
  · decide +kernel
  · decide +kernel
  · show ∀ b ∈ _, ∀ t ∈ _, _
    decide +kernel
  · show ∀ t ∈ _, _
    decide +kernel
  · decide +kernel

end Scoring

end InferenceGateway
