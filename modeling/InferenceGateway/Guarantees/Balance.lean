import InferenceGateway.Scheduler.Choice
import InferenceGateway.Scheduler.Rounds

/-!
# No wave onto one backend

Backends that differ in nothing but their load are filled evenly: while nothing
completes and no dispatch leaves the window, the scheduler takes every slot on a
backend with the fewest. The class penalty, which may favour a fuller backend,
is smaller than one step of the inflight term.

- `Alike`, `Balanced`: rows that differ in load only, and a registry of them in
  which any two loads differ by at most one and every slot taken is a dispatch
  in the ring.
- `scoreBackend_lt`: of two such backends the fuller one is dearer. This is
  where the weights come in: the penalties of a class are at most 5.
- `chosen_least`: so the backend that is chosen has the fewest slots taken.
- `Balanced.takeSlot`, `balanced_dispatchOne`: a slot on such a backend keeps
  the balance, and so does one round of a batch.
- `balanced_dispatch`: the run, round by round, over any number of ticks and
  requests.

The window is looked at from the end (`InOneWindow`): a window that holds all
dispatches of the run holds those of every earlier state of it.
-/

namespace InferenceGateway

open Lib Scoring

/-! ## Backends that differ in their load only -/

/-- Rows that agree on the limits and on every measurement of the cost. -/
@[mk_iff]
structure BackendRuntimeState.Alike (s s' : BackendRuntimeState) : Prop where
  softLimit : s.softLimit = s'.softLimit
  hardLimit : s.hardLimit = s'.hardLimit
  ewmaQueueMs : s.ewmaQueueMs = s'.ewmaQueueMs
  ewmaTtftMs : s.ewmaTtftMs = s'.ewmaTtftMs
  ewmaE2eMs : s.ewmaE2eMs = s'.ewmaE2eMs
  recentErrorRate : s.recentErrorRate = s'.recentErrorRate

namespace BackendRuntimeState.Alike

variable {s s' s'' : BackendRuntimeState}

instance : Decidable (s.Alike s') := decidable_of_iff _ (alike_iff s s').symm

theorem refl (s : BackendRuntimeState) : s.Alike s := ⟨rfl, rfl, rfl, rfl, rfl, rfl⟩

/-- Being alike has no direction. -/
theorem symm (h : s.Alike s') : s'.Alike s :=
  ⟨h.softLimit.symm, h.hardLimit.symm, h.ewmaQueueMs.symm, h.ewmaTtftMs.symm, h.ewmaE2eMs.symm,
    h.recentErrorRate.symm⟩

theorem trans (h : s.Alike s') (h' : s'.Alike s'') : s.Alike s'' :=
  ⟨h.softLimit.trans h'.softLimit, h.hardLimit.trans h'.hardLimit,
    h.ewmaQueueMs.trans h'.ewmaQueueMs, h.ewmaTtftMs.trans h'.ewmaTtftMs,
    h.ewmaE2eMs.trans h'.ewmaE2eMs, h.recentErrorRate.trans h'.recentErrorRate⟩

end BackendRuntimeState.Alike

/-- **The fuller one is dearer**, whatever the class of the request: one more request in
flight costs more than any class can make up for. -/
theorem Scoring.scoreBackend_lt {routing : RoutingConfig} {cls : RequestClass} {total : ℕ} {now : ℚ}
    {s s' : BackendRuntimeState} (hweights : routing.NonNegative)
    (hcap : 5 < routing.inflightWeight) (h : s.Alike s') (hin : s.inflight < s'.inflight)
    (hshare : s.dispatchShare routing.hotWindowSec now ≤
      s'.dispatchShare routing.hotWindowSec now) :
    scoreBackend s routing cls total now < scoreBackend s' routing cls total now := by
  have hhot : hotPenalty s total routing now ≤ hotPenalty s' total routing now :=
    hotPenalty_mono hweights hshare
  have hover := overloadPenalty_mono hweights h.softLimit.symm hin.le
  have hclass := (classPenaltyForBackend_bounds s.largeInflight cls).2
  have hclass' := (classPenaltyForBackend_bounds s'.largeInflight cls).1
  have hstep : routing.inflightWeight * s.inflight + routing.inflightWeight ≤
      routing.inflightWeight * s'.inflight := by
    have hone : (s.inflight : ℚ) + 1 ≤ s'.inflight := by exact_mod_cast hin
    have := mul_le_mul_of_nonneg_left hone hweights.inflight
    linarith
  unfold scoreBackend
  rw [h.ewmaQueueMs, h.ewmaTtftMs, h.ewmaE2eMs, h.recentErrorRate]
  linarith

/-- The time of a dispatch. -/
def Event.dispatchTime : Event → Option ℚ
  | dispatched _ _ t => some t
  | _ => none

namespace World

variable {w w' : World} {health : HealthConfig} {window : ℚ} {b : String} {cls : RequestClass}

/-- The times of all dispatches in the history. -/
def dispatchTimes (w : World) : List ℚ := w.trace.filterMap Event.dispatchTime

/-- All dispatches are still in the window. -/
def InOneWindow (window : ℚ) (w : World) : Prop :=
  ∀ t ∈ w.dispatchTimes, w.clock.now ≤ t + window

/-- Every backend may be dispatched to as long as it has a slot, and what tells them
apart is their load. -/
structure Uniform (health : HealthConfig) (w : World) : Prop where
  alike : ∀ b ∈ w.names, ∀ b' ∈ w.names, (w.row b).Alike (w.row b')
  closed : ∀ b ∈ w.names, (w.row b).circuit = .closed
  undrained : ∀ b ∈ w.names, (w.row b).drained = false
  errorRate : ∀ b ∈ w.names, (w.row b).recentErrorRate ≤ health.maxErrorRateForEligibility

/-- No slot is taken and nothing has been dispatched. -/
structure Unused (w : World) : Prop where
  inflight : ∀ b ∈ w.names, (w.row b).inflight = 0
  dispatchTimes : ∀ b ∈ w.names, (w.row b).dispatchTimes = []

/-- The invariant: slots and dispatches go together, and no backend is more than one
slot ahead of another. -/
structure Balanced (health : HealthConfig) (w : World) : Prop where
  uniform : Uniform health w
  ring : ∀ b ∈ w.names, ((w.row b).dispatchTimes.length : ℤ) =
    min (dispatchRing : ℤ) (w.row b).inflight
  logged : ∀ b ∈ w.names, ∀ t ∈ (w.row b).dispatchTimes, t ∈ w.dispatchTimes
  near : ∀ b ∈ w.names, ∀ b' ∈ w.names, (w.row b).inflight ≤ (w.row b').inflight + 1

/-- Backends on which nothing has been dispatched are balanced. -/
theorem Unused.balanced (h : Unused w) (hu : Uniform health w) : Balanced health w where
  uniform := hu
  ring b hb := by
    rw [h.inflight b hb, h.dispatchTimes b hb]
    rfl
  logged b hb t ht := by
    rw [h.dispatchTimes b hb] at ht
    cases ht
  near b hb b' hb' := by
    rw [h.inflight b hb, h.inflight b' hb']
    exact zero_le_one

theorem dispatchTimes_subset (h : w.trace ⊆ w'.trace) : w.dispatchTimes ⊆ w'.dispatchTimes :=
  List.filterMap_subset _ h

/-- The history grows and time does not run back. -/
structure Later (w w' : World) : Prop where
  trace : w.trace ⊆ w'.trace
  now : w.clock.now ≤ w'.clock.now

theorem Later.refl (w : World) : Later w w := ⟨List.Subset.refl _, le_refl _⟩

theorem Later.trans {w₁ w₂ w₃ : World} (h : Later w₁ w₂) (h' : Later w₂ w₃) : Later w₁ w₃ :=
  ⟨List.Subset.trans h.trace h'.trace, h.now.trans h'.now⟩

/-- A world is later than another if its history extends that one and its clock is not
behind. -/
theorem Later.of_writes {q : Event → Bool} (h : Writes q w w') (hnow : w.clock.now ≤ w'.clock.now) :
    Later w w' := by
  obtain ⟨new, htrace, -⟩ := h
  exact ⟨by rw [htrace]; exact List.subset_append_right .., hnow⟩

theorem later_emit (e : Event) : Later w (w.emit e) := ⟨List.subset_cons_self .., le_refl _⟩

theorem later_readClock : Later w w.readClock := ⟨List.Subset.refl _, w.clock.now_le_read⟩

theorem later_of_sameButClock (h : SameButClock w w') : Later w w' :=
  ⟨by rw [h.2.1]; exact List.Subset.refl _, h.2.2⟩

theorem later_maybeTransitionFromOpen : Later w (w.maybeTransitionFromOpen health b) := by
  refine .of_writes inner_maybeTransitionFromOpen ?_
  rw [maybeTransitionFromOpen, moveCircuit_clock]
  exact w.clock.now_le_read

theorem later_tickCircuits : Later w (w.tickCircuits health) :=
  tickCircuits_rule (I := Later w) (fun _ _ hv => hv.trans later_maybeTransitionFromOpen) (.refl w)

theorem later_eligible {avoid : Option String} (bs : List String) (w : World) :
    Later w (eligible health avoid bs w).1 :=
  eligible_rule (I := Later w) (fun _ _ _ _ hv => hv.trans later_maybeTransitionFromOpen) (.refl w)

/-- A slot taken is in the history, with a reading of the clock. -/
theorem later_takeSlot : Later w (w.takeSlot b cls).1 :=
  ⟨by rw [takeSlot_trace]; exact List.subset_cons_self ..,
    by rw [takeSlot_clock]; exact w.clock.now_le_read⟩

/-- If all dispatches so far lie in one window, so did those at any earlier time. -/
theorem InOneWindow.earlier (h : InOneWindow window w') (hlater : Later w w') :
    InOneWindow window w :=
  fun t ht => hlater.now.trans (h t (dispatchTimes_subset hlater.trace ht))

/-- The registry stands still while the history grows. -/
theorem Balanced.later (h : Balanced health w) (hreg : w'.registry = w.registry)
    (htrace : w.trace ⊆ w'.trace) : Balanced health w' := by
  obtain ⟨⟨halike, hclosed, hundrained, herror⟩, hring, hlogged, hnear⟩ := h
  have hlog := dispatchTimes_subset htrace
  unfold names row at *
  rw [← hreg] at halike hclosed hundrained herror hring hlogged hnear
  exact ⟨⟨halike, hclosed, hundrained, herror⟩, hring,
    fun b hb t ht => hlog (hlogged b hb t ht), hnear⟩

/-! ## Looking for candidates -/

/-- Closed circuits do not move. -/
theorem maybeTransitionFromOpen_sameButClock (h : ∀ b ∈ w.names, (w.row b).circuit = .closed)
    (b : String) : SameButClock w (w.maybeTransitionFromOpen health b) := by
  unfold maybeTransitionFromOpen
  by_cases hb : b ∈ w.names
  · have hstay :
        Health.maybeTransitionFromOpen health w.readClock.clock.now (w.row b) = w.row b := by
      simp only [Health.maybeTransitionFromOpen, h b hb]
    have hset : w.readClock.setRow b (w.row b) = w.readClock := by
      simp [setRow, readClock]
    dsimp only
    rw [moveCircuit_of_mem (w := w.readClock) hb]
    show SameButClock w (if (w.row b).circuit =
      (Health.maybeTransitionFromOpen health w.readClock.clock.now (w.row b)).circuit then _ else _)
    -- a closed circuit is left as it is, so nothing is written
    rw [hstay, if_pos rfl]
    show SameButClock w (w.readClock.setRow b
      (Health.maybeTransitionFromOpen health w.readClock.clock.now (w.row b)))
    rw [hstay, hset]
    exact sameButClock_readClock w
  · dsimp only
    rw [moveCircuit_of_notMem (w := w.readClock) hb]
    exact sameButClock_readClock w

/-- Closed circuits are closed in a world that only the clock sets apart. -/
theorem SameButClock.closed (h : SameButClock w w')
    (hclosed : ∀ b ∈ w.names, (w.row b).circuit = .closed) :
    ∀ b ∈ w'.names, (w'.row b).circuit = .closed := by
  unfold names row
  rw [h.1]
  exact hclosed

/-- With every circuit closed, the pass over them only lets time pass. -/
theorem tickCircuits_sameButClock (h : ∀ b ∈ w.names, (w.row b).circuit = .closed) :
    SameButClock w (w.tickCircuits health) :=
  tickCircuits_rule (I := SameButClock w)
    (fun _ x hv => hv.trans (maybeTransitionFromOpen_sameButClock (SameButClock.closed hv h) x))
    (.refl w)

/-- The candidates are the backends that pass the checks as they are. -/
theorem eligible_of_closed : ∀ (bs : List String) (w : World),
    (∀ b ∈ w.names, (w.row b).circuit = .closed) →
    SameButClock w (eligible health none bs w).1 ∧
      (eligible health none bs w).2 = bs.filter fun b => Health.passes health (w.row b)
  | [], w, _ => ⟨.refl w, rfl⟩
  | b :: bs, w, h => by
    have hsame : SameButClock w (w.maybeTransitionFromOpen health b) :=
      maybeTransitionFromOpen_sameButClock h b
    obtain ⟨hrest, hnames⟩ := eligible_of_closed bs _ (SameButClock.closed hsame h)
    rw [eligible_cons bs (by simp)]
    refine ⟨hsame.trans hrest, ?_⟩
    dsimp only
    rw [hnames, List.filter_cons]
    simp only [row, hsame.1]

end World

/-! ## One round -/

namespace World

variable {cfg : GatewayConfig} {w : World} {chosen : String} {cls : RequestClass}

/-- With all dispatches in the window, the share of a backend is all that its ring
holds. -/
theorem Balanced.share (h : Balanced cfg.health w) (hspan : InOneWindow cfg.routing.hotWindowSec w)
    {b : String} (hb : b ∈ w.names) :
    (w.row b).dispatchShare cfg.routing.hotWindowSec w.clock.now =
      (w.row b).dispatchTimes.length := by
  refine List.countP_eq_length.mpr fun t ht => decide_eq_true ?_
  have := hspan t (h.logged b hb t ht)
  linarith

/-- The share of a backend grows with its slots. -/
theorem Balanced.share_le (h : Balanced cfg.health w)
    (hspan : InOneWindow cfg.routing.hotWindowSec w) {b b' : String} (hb : b ∈ w.names)
    (hb' : b' ∈ w.names) (hle : (w.row b).inflight ≤ (w.row b').inflight) :
    (w.row b).dispatchShare cfg.routing.hotWindowSec w.clock.now ≤
      (w.row b').dispatchShare cfg.routing.hotWindowSec w.clock.now := by
  rw [h.share hspan hb, h.share hspan hb']
  have := h.ring b hb
  have := h.ring b' hb'
  omega

/-- **The chosen backend has the fewest slots taken**, full ones included: those have
taken as many as the hard limit, which is the same for all. -/
theorem Balanced.chosen_least (h : Balanced cfg.health w) (hweights : cfg.routing.NonNegative)
    (hcap : 5 < cfg.routing.inflightWeight)
    (hspan : InOneWindow cfg.routing.hotWindowSec (Admission.search cfg cls w).1)
    (hchosen : (Admission.search cfg cls w).2 = some chosen) :
    chosen ∈ w.names ∧ (∀ b ∈ w.names, (w.row chosen).inflight ≤ (w.row b).inflight) := by
  obtain ⟨hsame, hcandidates⟩ : SameButClock w (eligible cfg.health none w.names w).1 ∧
      (eligible cfg.health none w.names w).2 =
        w.names.filter fun b => Health.passes cfg.health (w.row b) :=
    eligible_of_closed w.names w h.uniform.closed
  have hpick := pickBackend_sameButClock cfg.routing cls (eligible cfg.health none w.names w).2
    (eligible cfg.health none w.names w).1
  unfold Admission.search at hspan hchosen
  generalize eligible cfg.health none w.names w = found at *
  obtain ⟨v, candidates⟩ := found
  dsimp only at hsame hcandidates hpick hspan hchosen
  have hv : Balanced cfg.health v := h.later hsame.1 (later_of_sameButClock hsame).trace
  have hspan' : InOneWindow cfg.routing.hotWindowSec v :=
    hspan.earlier (later_of_sameButClock hpick)
  have hmem : ∀ b ∈ candidates, b ∈ v.names := by
    intro b hb
    rw [hcandidates] at hb
    show b ∈ v.registry.names
    rw [hsame.1]
    exact (List.mem_filter.mp hb).1
  -- nothing expires between the first reading of the choice and the last
  have hsteady : ∀ b ∈ candidates, (v.row b).Steady cfg.routing.hotWindowSec v.clock.now
      (pickBackend cfg.routing cls candidates v).1.clock.now := by
    intro b hb t ht _
    have hin : t ∈ v.dispatchTimes := hv.logged b (hmem b hb) t ht
    have := hspan t (dispatchTimes_subset (later_of_sameButClock hpick).trace hin)
    linarith
  rw [pickBackend_eq_argmin hsteady (le_refl _) (le_refl _)] at hchosen
  obtain ⟨hin, hleast, -⟩ := List.argmin_eq_some_iff.mp hchosen
  have hrow : ∀ b, v.row b = w.row b := by
    intro b
    rw [row, hsame.1]
  have hwnames : ∀ b, b ∈ w.names ↔ b ∈ v.names := by
    intro b
    show b ∈ w.registry.names ↔ b ∈ v.registry.names
    rw [hsame.1]
  refine ⟨(hwnames chosen).mpr (hmem chosen hin), fun b hb => ?_⟩
  have hbv := (hwnames b).mp hb
  rw [← hrow, ← hrow]
  by_contra hmore
  have hless : (v.row b).inflight < (v.row chosen).inflight := not_le.mp hmore
  -- then `b` is a candidate too, and cheaper
  have hpass : Health.passes cfg.health (v.row b) = true := by
    have hchosenpass := (List.mem_filter.mp (hcandidates ▸ hin)).2
    rw [← hrow] at hchosenpass
    have hslot := (Health.passes_iff.mp hchosenpass).2.2.1
    refine Health.passes_iff.mpr
      ⟨hv.uniform.undrained b hbv, ?_, ?_, hv.uniform.errorRate b hbv, ?_⟩
    · rw [hv.uniform.closed b hbv]
      decide
    · rw [(hv.uniform.alike b hbv chosen (hmem chosen hin)).hardLimit]
      exact hless.trans hslot
    · rw [hv.uniform.closed b hbv]
      intro hhalf
      cases hhalf
  have hcand : b ∈ candidates := by
    rw [hcandidates]
    exact List.mem_filter.mpr ⟨hb, hrow b ▸ hpass⟩
  have hcheaper : costAt cfg.routing cls v candidates v.clock.now b <
      costAt cfg.routing cls v candidates v.clock.now chosen :=
    scoreBackend_lt hweights hcap (hv.uniform.alike b hbv chosen (hmem chosen hin)) hless
      (hv.share_le hspan' hbv (hmem chosen hin) hless.le)
  exact absurd (hleast b hcand) (not_le.mpr hcheaper)

/-- With every circuit closed, a search only lets time pass. -/
theorem search_sameButClock (h : ∀ b ∈ w.names, (w.row b).circuit = .closed) :
    SameButClock w (Admission.search cfg cls w).1 :=
  (eligible_of_closed w.names w h).1.trans (pickBackend_sameButClock ..)

/-- A slot taken on a backend that has the fewest keeps the balance: that one is then at
most one ahead of the rest, and its dispatch is in the ring. -/
theorem Balanced.takeSlot {health : HealthConfig} (h : Balanced health w) (hmem : chosen ∈ w.names)
    (hleast : ∀ b ∈ w.names, (w.row chosen).inflight ≤ (w.row b).inflight) :
    Balanced health (w.takeSlot chosen cls).1 := by
  have hclosed := h.uniform.closed chosen hmem
  have hnames : (w.takeSlot chosen cls).1.names = w.names := takeSlot_names
  have hself : (w.takeSlot chosen cls).1.row chosen =
      ({ w.row chosen with
          inflight := (w.row chosen).inflight + 1
          largeInflight := (w.row chosen).largeInflight + if cls.isLarge then 1 else 0 }
        : BackendRuntimeState).recordDispatch w.clock.read.now := by
    have hrow := takeSlot_row_self w chosen cls
    -- a closed circuit counts no probes
    rwa [hclosed, if_neg (by decide), add_zero] at hrow
  have hother : ∀ b, b ≠ chosen → (w.takeSlot chosen cls).1.row b = w.row b :=
    fun b hb => takeSlot_row_of_ne hb
  have hlog : w.trace ⊆ (w.takeSlot chosen cls).1.trace := later_takeSlot.trace
  have hframe : ∀ b, ((w.takeSlot chosen cls).1.row b).Alike (w.row b) ∧
      ((w.takeSlot chosen cls).1.row b).circuit = (w.row b).circuit ∧
      ((w.takeSlot chosen cls).1.row b).drained = (w.row b).drained := by
    intro b
    by_cases hb : b = chosen
    · subst hb
      rw [hself]
      exact ⟨⟨rfl, rfl, rfl, rfl, rfl, rfl⟩, rfl, rfl⟩
    · rw [hother b hb]
      exact ⟨.refl _, rfl, rfl⟩
  constructor
  · constructor
    · intro b hb b' hb'
      rw [hnames] at hb hb'
      exact ((hframe b).1.trans (h.uniform.alike b hb b' hb')).trans (hframe b').1.symm
    · intro b hb
      rw [(hframe b).2.1]
      exact h.uniform.closed b (hnames ▸ hb)
    · intro b hb
      rw [(hframe b).2.2]
      exact h.uniform.undrained b (hnames ▸ hb)
    · intro b hb
      rw [(hframe b).1.recentErrorRate]
      exact h.uniform.errorRate b (hnames ▸ hb)
  · intro b hb
    have hring := h.ring b (hnames ▸ hb)
    by_cases hbc : b = chosen
    · subst hbc
      rw [hself, BackendRuntimeState.length_recordDispatch]
      show ((min dispatchRing ((w.row b).dispatchTimes.length + 1) : ℕ) : ℤ) =
        min (dispatchRing : ℤ) ((w.row b).inflight + 1)
      omega
    · rw [hother b hbc]
      exact hring
  · intro b hb t ht
    have hold := h.logged b (hnames ▸ hb)
    by_cases hbc : b = chosen
    · subst hbc
      rw [hself] at ht
      rcases BackendRuntimeState.mem_recordDispatch ht with ht | rfl
      · exact dispatchTimes_subset hlog (hold t ht)
      · rw [dispatchTimes, takeSlot_trace]
        exact List.mem_cons_self
    · rw [hother b hbc] at ht
      exact dispatchTimes_subset hlog (hold t ht)
  · intro b hb b' hb'
    rw [hnames] at hb hb'
    have hnear := h.near b hb b' hb'
    have hfew := hleast b' hb'
    by_cases hbc : b = chosen
    · by_cases hbc' : b' = chosen
      · rw [hbc, hbc']
        omega
      · rw [hbc, hself, hother b' hbc']
        show (w.row chosen).inflight + 1 ≤ (w.row b').inflight + 1
        omega
    · rw [hother b hbc]
      by_cases hbc' : b' = chosen
      · rw [hbc', hself]
        rw [hbc'] at hnear
        show (w.row b).inflight ≤ (w.row chosen).inflight + 1 + 1
        omega
      · rw [hother b' hbc']
        exact hnear

end World

/-- **What one round preserves.** In the first three branches no slot is taken; in the
fourth it is taken on a backend with the fewest. -/
theorem Admission.balanced_dispatchOne {cfg : GatewayConfig} {now : ℚ} {p : PendingRequest}
    {A : Admission} (h : World.Balanced cfg.health A.world) (hweights : cfg.routing.NonNegative)
    (hcap : 5 < cfg.routing.inflightWeight)
    (hspan : World.InOneWindow cfg.routing.hotWindowSec (dispatchOne cfg now p A).1.world) :
    World.Balanced cfg.health (dispatchOne cfg now p A).1.world := by
  have hsearch : SameButClock A.world (search cfg p.classify.reqClass A.world).1 :=
    World.search_sameButClock h.uniform.closed
  have hfound : World.Balanced cfg.health (search cfg p.classify.reqClass A.world).1 :=
    h.later hsearch.1 (World.later_of_sameButClock hsearch).trace
  rcases dispatchOne_cases cfg now p A with
    ⟨-, heq⟩ | ⟨-, -, heq⟩ | ⟨-, -, -, heq⟩ | ⟨-, -, chosen, hchosen, heq⟩
  · rw [heq]
    exact h
  · rw [heq]
    exact h.later rfl fun _ he => List.mem_cons_of_mem _ (List.mem_cons_of_mem _ he)
  · rw [heq]
    exact hfound
  · rw [heq] at hspan ⊢
    have hbefore : World.InOneWindow cfg.routing.hotWindowSec
        (search cfg p.classify.reqClass A.world).1 :=
      World.InOneWindow.earlier hspan (World.later_takeSlot.trans (World.later_emit _))
    -- only the fourth branch takes a slot
    obtain ⟨hmem, hleast⟩ := h.chosen_least hweights hcap hbefore hchosen
    have htaken : World.Balanced cfg.health
        ((search cfg p.classify.reqClass A.world).1.takeSlot chosen p.classify.reqClass).1 := by
      refine hfound.takeSlot ?_ ?_
      · rw [World.names, hsearch.1]
        exact hmem
      · rw [World.names]
        simp only [World.row, hsearch.1]
        exact hleast
    exact htaken.later rfl (List.subset_cons_self ..)

/-- Time passes in a round, whatever it does. -/
theorem Admission.later_dispatchOne {cfg : GatewayConfig} {now : ℚ} {p : PendingRequest}
    {A : Admission} : World.Later A.world (dispatchOne cfg now p A).1.world := by
  have hsearch : World.Later A.world (search cfg p.classify.reqClass A.world).1 :=
    (World.later_eligible _ _).trans (World.later_of_sameButClock (pickBackend_sameButClock ..))
  rcases dispatchOne_cases cfg now p A with
    ⟨-, heq⟩ | ⟨-, -, heq⟩ | ⟨-, -, -, heq⟩ | ⟨-, -, chosen, -, heq⟩
  · rw [heq]
    exact .refl _
  · rw [heq]
    exact (World.later_emit _).trans (World.later_emit _)
  · rw [heq]
    exact hsearch
  · rw [heq]
    exact (hsearch.trans World.later_takeSlot).trans (World.later_emit _)

/-! ## Runs -/

namespace Rounds

variable {cfg : GatewayConfig} {S S' : Rounds} {a : Act}

/-- The scheduler's runs from unused, uniform backends during which nothing completes:
between two ticks the registry stands still. -/
def undisturbed (cfg : GatewayConfig) : Machine Rounds Act where
  start S := (machine cfg).start S ∧ S.life.adm.world.Uniform cfg.health ∧ S.life.adm.world.Unused
  step S a S' := Step cfg S a S' ∧ (a = .outside .elsewhere →
    S'.life.adm.world.registry = S.life.adm.world.registry ∧
      S.life.adm.world.clock.now ≤ S'.life.adm.world.clock.now)

/-- Time passes in every step of the machine. -/
theorem later_of_undisturbed (h : (undisturbed cfg).step S a S') :
    World.Later S.life.adm.world S'.life.adm.world := by
  obtain ⟨hstep, hquiet⟩ := h
  cases hstep with
  | outside hidle ha hlife =>
    cases hlife with
    | accepted => exact .refl _
    | refused => exact .refl _
    | tick => exact absurd rfl ha
    | cancel => exact .refl _
    | withdraw => exact World.later_emit _
    | elsewhere hw => exact .of_writes hw (hquiet rfl).2
  | empty => exact World.later_tickCircuits
  | pop => exact World.later_tickCircuits.trans World.later_readClock
  | round => exact Admission.later_dispatchOne
  | finish =>
    rw [closed_eq]
    exact .refl _

/-- **Step lemma.** A round preserves the balance, and so does every step that takes no
slot. -/
theorem balanced_step (hweights : cfg.routing.NonNegative) (hcap : 5 < cfg.routing.inflightWeight)
    (h : (undisturbed cfg).step S a S') (hS : S.life.adm.world.Balanced cfg.health)
    (hspan : S'.life.adm.world.InOneWindow cfg.routing.hotWindowSec) :
    S'.life.adm.world.Balanced cfg.health := by
  have hlater := later_of_undisturbed h
  obtain ⟨hstep, hquiet⟩ := h
  -- a round is the only step that takes a slot; the others let time pass
  cases hstep with
  | outside hidle ha hlife =>
    cases hlife with
    | accepted => exact hS
    | refused => exact hS
    | tick => exact absurd rfl ha
    | cancel => exact hS
    | withdraw => exact hS.later rfl hlater.trace
    | elsewhere hw => exact hS.later (hquiet rfl).1 hlater.trace
  | empty => exact hS.later (World.tickCircuits_sameButClock hS.uniform.closed).1 hlater.trace
  | pop => exact hS.later (World.tickCircuits_sameButClock hS.uniform.closed).1 hlater.trace
  | round => exact Admission.balanced_dispatchOne hS hweights hcap hspan
  | finish =>
    rw [closed_eq]
    exact hS

/-- **Balanced dispatch.** From any number of unused backends that agree on limits,
latencies and error rates, with weights that are not negative and an inflight weight above
the class penalty, after every round of every tick the slots taken on two backends differ
by at most one, as long as nothing completes and the dispatches lie in one window. -/
theorem balanced_dispatch (hweights : cfg.routing.NonNegative)
    (hcap : 5 < cfg.routing.inflightWeight) (h : Reach (undisturbed cfg) anyStep S)
    (hspan : S.life.adm.world.InOneWindow cfg.routing.hotWindowSec) :
    ∀ b ∈ S.life.adm.world.names, ∀ b' ∈ S.life.adm.world.names,
      (S.life.adm.world.row b).inflight ≤ (S.life.adm.world.row b').inflight + 1 := by
  have hbalanced : S.life.adm.world.InOneWindow cfg.routing.hotWindowSec →
      S.life.adm.world.Balanced cfg.health := by
    refine h.invariant (I := fun S => S.life.adm.world.InOneWindow cfg.routing.hotWindowSec →
      S.life.adm.world.Balanced cfg.health) ?_ ?_
    · rintro S ⟨-, huniform, hunused⟩ -
      exact hunused.balanced huniform
    · intro S a S' hS _ hstep hspan
      have hbefore := hspan.earlier (later_of_undisturbed hstep)
      exact balanced_step hweights hcap hstep (hS hbefore) hspan
  exact (hbalanced hspan).near

/-- Without anything in between, the rounds of a batch add up to `dispatchBatch`. By
induction on the batch. -/
theorem reach_dispatchBatch {now : ℚ} : ∀ (batch requeue : List PendingRequest) (L : Lifecycle),
    Reach (undisturbed cfg) anyStep ⟨L, some ⟨now, batch, requeue⟩⟩ →
    Reach (undisturbed cfg) anyStep
      ⟨{ L with adm := (Admission.dispatchBatch cfg now batch L.adm).1 },
        some ⟨now, [], requeue ++ (Admission.dispatchBatch cfg now batch L.adm).2⟩⟩
  | [], requeue, L, h => by
    rw [Admission.dispatchBatch, List.append_nil]
    exact h
  | p :: batch, requeue, L, h => by
    have hround : Step cfg ⟨L, some ⟨now, p :: batch, requeue⟩⟩ .round _ := .round rfl
    have hrest := reach_dispatchBatch batch _ _ (h.step trivial ⟨hround, by rintro ⟨⟩⟩)
    rw [List.append_assoc] at hrest
    exact hrest

/-- Two backends under the default settings. -/
def twins : GatewayConfig where
  backends := [{ name := "gpu-node-1", url := "http://10.0.0.1:8000" },
    { name := "gpu-node-2", url := "http://10.0.0.2:8000" }]

def twinRequest (oid : ReqId) (cls : RequestClass) : PendingRequest where
  oid := oid
  requestId := "req-1"
  enqueuedAtMonotonic := 0
  classify := ⟨cls, 16, none, false, none⟩
  path := "/v1/chat/completions"
  query := ""

/-- Three large requests among two small ones. -/
def mixedBatch : List PendingRequest :=
  [twinRequest 0 .largeChat, twinRequest 1 .smallChat, twinRequest 2 .largeChat,
    twinRequest 3 .largeChat, twinRequest 4 .smallChat]

def idleTwins : Lifecycle where
  adm :=
    { world := ⟨.ofGaps 0 [], .ofConfig twins, []⟩
      queue := []
      future := fun _ => .unresolved
      cancelled := fun _ => false }
  arrived := 0
  accepted := []

def queuedTwins : Lifecycle :=
  ⟨{ idleTwins.adm with queue := mixedBatch }, 5, mixedBatch.reverse⟩

/-- A tick has run the rounds of all five. -/
def dispatchedTwins : Rounds :=
  let now := (firstPass twins queuedTwins.adm).now
  let done := Admission.dispatchBatch twins now mixedBatch (queuedTwins.adm.opened twins)
  ⟨{ queuedTwins with adm := done.1 }, some ⟨now, [], done.2⟩⟩

/-- Five requests of different classes are accepted, popped as one batch and dispatched
in five rounds. -/
theorem dispatchedTwins_reachable : Reach (undisturbed twins) anyStep dispatchedTwins := by
  have hidle : Reach (undisturbed twins) anyStep ⟨idleTwins, none⟩ := by
    refine .start ⟨⟨⟨rfl, fun _ => rfl, fun _ => rfl, rfl, rfl, rfl⟩, rfl⟩, ?_, ?_⟩
    · constructor <;> decide +kernel
    · constructor <;> decide +kernel
  have accept : ∀ {L L' : Lifecycle} (p : PendingRequest),
      Reach (undisturbed twins) anyStep ⟨L, none⟩ → Lifecycle.Step twins L (.enqueue p) L' →
      Reach (undisturbed twins) anyStep ⟨L', none⟩ := fun p h hs =>
    h.step (a := .outside (.enqueue p)) trivial ⟨.outside rfl nofun hs, nofun⟩
  have hqueued : Reach (undisturbed twins) anyStep ⟨queuedTwins, none⟩ :=
    accept (twinRequest 4 .smallChat)
      (accept (twinRequest 3 .largeChat)
        (accept (twinRequest 2 .largeChat)
          (accept (twinRequest 1 .smallChat)
            (accept (twinRequest 0 .largeChat) hidle (.accepted rfl rfl))
            (.accepted rfl rfl)) (.accepted rfl rfl)) (.accepted rfl rfl)) (.accepted rfl rfl)
  -- the pass over the circuits and the batch, then the rounds
  have hpopped : Reach (undisturbed twins) anyStep
      ⟨{ queuedTwins with adm := queuedTwins.adm.opened twins },
        some ⟨(firstPass twins queuedTwins.adm).now, mixedBatch, []⟩⟩ :=
    hqueued.step (a := .pop) trivial ⟨.pop rfl (by decide +kernel), nofun⟩
  exact reach_dispatchBatch _ _ _ hpopped

theorem balanced_dispatch_twins :
    ((dispatchedTwins.life.adm.world.row "gpu-node-1").inflight = 2 ∧
      (dispatchedTwins.life.adm.world.row "gpu-node-2").inflight = 3) ∧
    ∀ b ∈ dispatchedTwins.life.adm.world.names, ∀ b' ∈ dispatchedTwins.life.adm.world.names,
      (dispatchedTwins.life.adm.world.row b).inflight ≤
        (dispatchedTwins.life.adm.world.row b').inflight + 1 := by
  refine ⟨by decide +kernel, balanced_dispatch ?_ ?_ dispatchedTwins_reachable ?_⟩
  · constructor <;> decide +kernel
  · decide +kernel
  · show ∀ t ∈ _, _
    decide +kernel

end Rounds

end InferenceGateway
