import InferenceGateway.Guarantees.Queue
import InferenceGateway.Guarantees.Admission

/-!
# What a scheduler tick leaves undone

Inside a tick rows only get tighter: slots are taken, none is given back, and
the one move a circuit makes is the thaw of an open one. So what a backend could
still take after a tick it could have taken at any time during it, and a request
that found nothing at its turn was not passed over for lack of looking.

- `Tightens`, `Tighter`: one row, and all rows of a world, that got no looser.
  Every part of a tick is shown to tighten.
- `opened_of_requeue`: the loop over the batch, by induction: what is put back
  found every backend shut, and one that has room at the end was open when the
  loop began.
- `work_conserving`: a request of the batch that is put back is young, and a
  backend that has room all the same after the tick was open when the tick
  began.
- `tick_thaws`: after a tick no circuit is open whose cooldown had passed when
  it began.
-/

namespace InferenceGateway

open Lib

/-- What a tick can do to a row. -/
structure Tightens (s s' : BackendRuntimeState) : Prop where
  drained : s'.drained = s.drained
  hardLimit : s'.hardLimit = s.hardLimit
  recentErrorRate : s'.recentErrorRate = s.recentErrorRate
  inflight : s.inflight ≤ s'.inflight
  openedAt : s'.circuitOpenedAtMonotonic = s.circuitOpenedAtMonotonic
  circuit : (s'.circuit = s.circuit ∧ s.halfOpenProbes ≤ s'.halfOpenProbes) ∨
    (s.circuit = .opened ∧ s'.circuit = .halfOpen)

namespace Tightens

variable {s s' s'' : BackendRuntimeState} {health : HealthConfig} {now : ℚ}

theorem refl (s : BackendRuntimeState) : Tightens s s :=
  ⟨rfl, rfl, rfl, le_refl _, rfl, .inl ⟨rfl, le_refl _⟩⟩

/-- Tightening twice is tightening. -/
theorem trans (h : Tightens s s') (h' : Tightens s' s'') : Tightens s s'' where
  drained := h'.drained.trans h.drained
  hardLimit := h'.hardLimit.trans h.hardLimit
  recentErrorRate := h'.recentErrorRate.trans h.recentErrorRate
  inflight := h.inflight.trans h'.inflight
  openedAt := h'.openedAt.trans h.openedAt
  -- a circuit leaves open once and does not come back
  circuit := by
    rcases h.circuit with ⟨hsame, hle⟩ | ⟨hopen, hhalf⟩
    · rcases h'.circuit with ⟨hsame', hle'⟩ | ⟨hopen', hhalf'⟩
      · exact .inl ⟨hsame'.trans hsame, hle.trans hle'⟩
      · exact .inr ⟨hsame.symm.trans hopen', hhalf'⟩
    · rcases h'.circuit with ⟨hsame', -⟩ | ⟨hopen', -⟩
      · exact .inr ⟨hopen, hsame'.trans hhalf⟩
      · cases hhalf.symm.trans hopen'

/-- The cooldown check tightens a row, or thaws it. -/
theorem maybeTransitionFromOpen : Tightens s (Health.maybeTransitionFromOpen health now s) := by
  rcases Health.maybeTransitionFromOpen_cases health now s with ⟨t, hopen, -, -, h⟩ | h <;> rw [h]
  · exact ⟨rfl, rfl, rfl, le_refl _, rfl, .inr ⟨hopen, rfl⟩⟩
  · exact .refl s

/-- A circuit that is open after a tick was open before. -/
theorem opened (h : Tightens s s') (hopen : s'.circuit = .opened) : s.circuit = .opened := by
  rcases h.circuit with ⟨hsame, -⟩ | ⟨-, hhalf⟩
  · exact hsame.symm.trans hopen
  · cases hopen.symm.trans hhalf

/-- **A tighter row passes the checks only if the looser one did**, a thaw apart: the
one thing that a later check can find better is an open circuit that has cooled down. -/
theorem passes (h : Tightens s s') (hpass : Health.passes health s' = true) :
    Health.passes health s = true ∨ s.circuit = .opened := by
  obtain ⟨hdrained, hopen, hroom, hrate, hprobes⟩ := Health.passes_iff.mp hpass
  rcases h.circuit with ⟨hsame, hle⟩ | ⟨hopened, -⟩
  · refine .inl (Health.passes_iff.mpr
      ⟨h.drained ▸ hdrained, hsame ▸ hopen, ?_, ?_, fun hhalf => ?_⟩)
    · exact lt_of_le_of_lt h.inflight (h.hardLimit ▸ hroom)
    · exact h.recentErrorRate ▸ hrate
    · exact lt_of_le_of_lt hle (hprobes (hsame.trans hhalf))
  · exact .inr hopened

end Tightens

namespace World

variable {health : HealthConfig} {w w' w'' : World} {b : String} {cls : RequestClass}

/-- Every row gets tighter, or stays. -/
def Tighter (w w' : World) : Prop := ∀ b, Tightens (w.registry.row b) (w'.registry.row b)

/-- A registry that stands still is no looser. -/
theorem Tighter.ofRegistry (h : w'.registry = w.registry) : Tighter w w' :=
  fun _ => h ▸ .refl _

theorem Tighter.trans (h : Tighter w w') (h' : Tighter w' w'') : Tighter w w'' :=
  fun b => (h b).trans (h' b)

theorem tighter_maybeTransitionFromOpen : Tighter w (w.maybeTransitionFromOpen health b) := by
  intro x
  by_cases hx : x = b
  · subst hx
    by_cases hname : x ∈ w.names
    · rw [maybeTransitionFromOpen_row_self hname]
      exact .maybeTransitionFromOpen
    · have hsame : w.maybeTransitionFromOpen health x = w.readClock :=
        moveCircuit_of_notMem (w := w.readClock) hname
      rw [hsame]
      exact .refl _
  · rw [maybeTransitionFromOpen_row_of_ne hx]
    exact .refl _

theorem tighter_tickCircuits : Tighter w (w.tickCircuits health) :=
  tickCircuits_rule (fun _ _ hv => hv.trans tighter_maybeTransitionFromOpen) (.ofRegistry rfl)

theorem tickCircuits_names : (w.tickCircuits health).registry.names = w.registry.names :=
  tickCircuits_rule (I := fun v => v.registry.names = w.registry.names)
    (fun _ _ hv => maybeTransitionFromOpen_names.trans hv) rfl

theorem tighter_eligible {avoid : Option String} {bs : List String} :
    Tighter w (eligible health avoid bs w).1 :=
  eligible_rule (fun _ _ _ _ hv => hv.trans tighter_maybeTransitionFromOpen) (.ofRegistry rfl)

/-- A slot taken leaves one less. -/
theorem tighter_takeSlot : Tighter w (w.takeSlot b cls).1 := by
  intro x
  by_cases hx : x = b
  · subst hx
    rw [takeSlot_row_self]
    refine ⟨rfl, rfl, rfl, by simp [BackendRuntimeState.recordDispatch], rfl, .inl ⟨rfl, ?_⟩⟩
    show (w.row x).halfOpenProbes ≤ (w.row x).halfOpenProbes + _
    split <;> omega
  · rw [takeSlot_row_of_ne hx]
    exact .refl _

/-- A pass over the circuits leaves none open whose cooldown has passed. By induction on what
is left to visit. -/
theorem cold_of_foldl {t : ℚ} : ∀ {bs : List String} {w : World}, b ∈ bs → b ∈ w.names →
    ((bs.foldl (maybeTransitionFromOpen health) w).row b).circuit = .opened →
    ((bs.foldl (maybeTransitionFromOpen health) w).row b).circuitOpenedAtMonotonic = some t →
    ¬ Health.cooledDown health t w.clock.now
  | x :: bs, w, hmem, hb, hopen, hat => by
    have hclock : (w.maybeTransitionFromOpen health x).clock = w.clock.read := moveCircuit_clock
    have hle : w.clock.now ≤ w.clock.read.now := w.clock.now_le_read
    have hwarm : Health.cooledDown health t w.clock.now →
        Health.cooledDown health t w.clock.read.now := by
      unfold Health.cooledDown
      intro hcool
      linarith
    -- visited later as well, or for the last time now
    by_cases hbs : b ∈ bs
    · have hcold := cold_of_foldl (w := w.maybeTransitionFromOpen health x) hbs
        (by rw [names, maybeTransitionFromOpen_names]; exact hb) hopen hat
      rw [hclock] at hcold
      exact fun hcool => hcold (hwarm hcool)
    · -- the visit of `b` itself, which the others leave alone
      obtain rfl : b = x := (List.mem_cons.mp hmem).resolve_right hbs
      have hrest : Tightens ((w.maybeTransitionFromOpen health b).row b)
          ((bs.foldl (maybeTransitionFromOpen health)
            (w.maybeTransitionFromOpen health b)).row b) :=
        List.foldlRecOn (motive := fun v => Tighter (w.maybeTransitionFromOpen health b) v) bs
          (maybeTransitionFromOpen health) (.ofRegistry rfl)
          (fun v hv y _ => hv.trans tighter_maybeTransitionFromOpen) b
      have hrow : (w.maybeTransitionFromOpen health b).row b =
          Health.maybeTransitionFromOpen health w.clock.read.now (w.row b) :=
        maybeTransitionFromOpen_row_self hb
      have hopen' := hrest.opened hopen
      have hat' := hrest.openedAt.symm.trans hat
      rw [hrow] at hopen' hat'
      intro hcool
      rcases Health.maybeTransitionFromOpen_cases health w.clock.read.now (w.row b) with
        ⟨t', -, -, -, h⟩ | h <;> rw [h] at hopen' hat'
      · cases hopen'
      · have hthawed : Health.maybeTransitionFromOpen health w.clock.read.now (w.row b) =
            { w.row b with
              circuit := .halfOpen, halfOpenProbes := 0, consecutiveFailures := 0 } := by
          simp [Health.maybeTransitionFromOpen, hopen', hat', hwarm hcool]
        rw [h] at hthawed
        cases hopen'.symm.trans (congrArg BackendRuntimeState.circuit hthawed)

end World

namespace Admission

variable {cfg : GatewayConfig} {now : ℚ} {p : PendingRequest} {A : Admission} {b : String}

theorem tighter_search {cls : RequestClass} {w : World} :
    World.Tighter w (search cfg cls w).1 := by
  obtain ⟨hreg, -, -⟩ := Scoring.pickBackend_sameButClock cfg.routing cls
    (World.eligible cfg.health none w.names w).2 (World.eligible cfg.health none w.names w).1
  exact World.tighter_eligible.trans (.ofRegistry hreg)

/-- **A round tightens the rows.** It takes a slot or none, and reads the clock; nothing
in it makes a backend more eligible but the end of a cooldown. -/
theorem tighter_dispatchOne : World.Tighter A.world (dispatchOne cfg now p A).1.world := by
  rcases dispatchOne_cases cfg now p A with
    ⟨-, h⟩ | ⟨-, -, h⟩ | ⟨-, -, -, h⟩ | ⟨-, -, chosen, -, h⟩ <;> rw [h]
  · exact .ofRegistry rfl
  · exact .ofRegistry rfl
  · exact tighter_search
  · exact tighter_search.trans (World.tighter_takeSlot.trans (.ofRegistry rfl))

/-- The loop over a batch tightens the rows, by the rule for batches. -/
theorem tighter_dispatchBatch {batch : List PendingRequest} :
    World.Tighter A.world (dispatchBatch cfg now batch A).1.world :=
  dispatchBatch_rule (I := fun B => World.Tighter A.world B.world)
    (fun _ _ _ hB => hB.trans tighter_dispatchOne) (.ofRegistry rfl)

theorem names_dispatchOne : (dispatchOne cfg now p A).1.world.names = A.world.names := by
  rcases dispatchOne_cases cfg now p A with
    ⟨-, h⟩ | ⟨-, -, h⟩ | ⟨-, -, -, h⟩ | ⟨-, -, chosen, -, h⟩ <;> rw [h]
  · rfl
  · exact search_names
  · exact World.takeSlot_names.trans search_names

/-- After a round that puts its request back nothing passes. -/
theorem stuck_of_requeue {q : PendingRequest} (h : q ∈ (dispatchOne cfg now p A).2) :
    (dispatchOne cfg now p A).1.world.Stuck cfg.health ∧ q = p ∧ A.Live p.oid ∧
      now - p.enqueuedAtMonotonic < cfg.maxAgeS := by
  rcases dispatchOne_cases cfg now p A with
    ⟨-, heq⟩ | ⟨-, -, heq⟩ | ⟨hlive, hage, hnone, heq⟩ | ⟨-, -, chosen, -, heq⟩ <;> rw [heq] at h ⊢
  · cases h
  · cases h
  · exact ⟨stuck_of_search_none hnone, List.mem_singleton.mp h, hlive, hage⟩
  · cases h

/-- **The loop over the batch.** What is put back found every backend shut; one that has
room at the end was open when the loop began. By induction on the batch. -/
theorem opened_of_requeue {q : PendingRequest} : ∀ {batch : List PendingRequest} {A : Admission},
    q ∈ (dispatchBatch cfg now batch A).2 → b ∈ A.world.names →
    Health.passes cfg.health ((dispatchBatch cfg now batch A).1.world.row b) = true →
    (A.world.row b).circuit = .opened
  | [], _, hq, _, _ => by cases hq
  | p :: batch, A, hq, hb, hpass => by
    have hround : Tightens (A.world.row b) ((dispatchOne cfg now p A).1.world.row b) :=
      tighter_dispatchOne b
    have hb' : b ∈ (dispatchOne cfg now p A).1.world.names := by
      rw [names_dispatchOne]
      exact hb
    refine hround.opened ?_
    rcases List.mem_append.mp hq with hkept | hrest
    · -- the round of the request itself left nothing that passes
      have hrest : Tightens ((dispatchOne cfg now p A).1.world.row b)
          ((dispatchBatch cfg now batch (dispatchOne cfg now p A).1).1.world.row b) :=
        tighter_dispatchBatch b
      rcases hrest.passes hpass with hpassed | hopened
      · have hstuck := (stuck_of_requeue hkept).1 b hb'
        exact absurd (hpassed.symm.trans hstuck) (by simp)
      · exact hopened
    · exact opened_of_requeue hrest hb' hpass

/-- What is put back was young enough. -/
theorem young_of_requeue {q : PendingRequest} : ∀ {batch : List PendingRequest} {A : Admission},
    q ∈ (dispatchBatch cfg now batch A).2 → now - q.enqueuedAtMonotonic < cfg.maxAgeS
  | [], _, hq => by cases hq
  | p :: batch, A, hq => by
    rcases List.mem_append.mp hq with hkept | hrest
    · obtain ⟨-, rfl, -, hage⟩ := stuck_of_requeue hkept
      exact hage
    · exact young_of_requeue hrest

/-- A tick tightens the rows. -/
theorem tighter_schedulerTick : World.Tighter A.world (schedulerTick cfg A).world :=
  dispatchTick_rule (I := fun B => World.Tighter A.world B.world) (fun _ _ hB => hB)
    (fun _ hB => hB.trans (.ofRegistry rfl)) (fun _ _ _ hB => hB.trans tighter_dispatchOne)
    World.tighter_tickCircuits

/-- What a tick puts back. -/
def requeued (cfg : GatewayConfig) (A : Admission) : List PendingRequest :=
  (dispatchBatch cfg (opened cfg A).world.clock.now
    (AdmissionQueue.popBatch cfg.scheduler.dispatchBatchSize A.queue).1 (opened cfg A)).2

/-- A request of the batch that is queued after the tick has been put back. -/
theorem mem_requeued (hnodup : (A.queue.map (·.oid)).Nodup)
    (hp : p ∈ (AdmissionQueue.popBatch cfg.scheduler.dispatchBatchSize A.queue).1)
    (hleft : p ∈ (schedulerTick cfg A).queue) : p ∈ requeued cfg A := by
  have hne := List.ne_nil_of_mem hp
  rw [schedulerTick_eq rfl hne] at hleft
  rcases List.mem_append.mp hleft with hback | hrest
  · exact hback
  · -- the batch and the rest of the queue have no request in common
    rw [← AdmissionQueue.popBatch_append cfg.scheduler.dispatchBatchSize A.queue,
      List.map_append] at hnodup
    exact absurd rfl ((List.nodup_append.mp hnodup).2.2 _ (List.mem_map_of_mem hp) _
      (List.mem_map_of_mem hrest))

end Admission

namespace Gateway

variable {D : Deployment} {g : Gateway} {p : PendingRequest} {b : String}

/-- The requests the next tick takes out of the queue. -/
def batch (D : Deployment) (g : Gateway) : List PendingRequest :=
  (AdmissionQueue.popBatch D.cfg.scheduler.dispatchBatchSize g.adm.queue).1

/-- The world after the next tick. -/
def ticked (D : Deployment) (g : Gateway) : World := (g.adm.schedulerTick D.cfg).world

theorem mem_requeued (h : Reachable D g) (hp : p ∈ g.batch D)
    (hleft : p ∈ (g.adm.schedulerTick D.cfg).queue) : p ∈ g.adm.requeued D.cfg := by
  obtain ⟨accepted, hreach, -⟩ := lifecycle_of_gateway h
  exact Admission.mem_requeued (Lifecycle.sound_of_reach hreach).once hp hleft

/-- **Work conservation.** A tick leaves a request of its batch in the queue only if the
request is young, and no backend has room for it when the tick is over but one whose circuit
was open when the tick began. -/
theorem work_conserving (h : Reachable D g) (hp : p ∈ g.batch D)
    (hleft : p ∈ (g.adm.schedulerTick D.cfg).queue) :
    (g.adm.opened D.cfg).world.clock.now - p.enqueuedAtMonotonic < D.cfg.maxAgeS ∧
    ∀ b ∈ g.names, Health.passes D.cfg.health ((g.ticked D).row b) = true →
      (g.row b).circuit = .opened ∧ ((g.ticked D).row b).circuit = .halfOpen := by
  have hback := mem_requeued h hp hleft
  refine ⟨Admission.young_of_requeue hback, fun b hb hpass => ?_⟩
  have hend : g.ticked D = (Admission.dispatchBatch D.cfg (g.adm.opened D.cfg).world.clock.now
      (g.batch D) (g.adm.opened D.cfg)).1.world := by
    rw [ticked, Admission.schedulerTick_eq rfl (List.ne_nil_of_mem hp)]
    rfl
  -- open when the loop began, and so when the tick did
  have hloop : ((g.adm.opened D.cfg).world.row b).circuit = .opened := by
    refine Admission.opened_of_requeue hback ?_ (hend ▸ hpass)
    show b ∈ (g.world.tickCircuits D.cfg.health).names
    rw [World.names, World.tickCircuits_names]
    exact hb
  have hopen : (g.row b).circuit = .opened := by
    have hvisited : World.Tighter g.world (g.world.tickCircuits D.cfg.health) :=
      World.tighter_tickCircuits
    exact (hvisited b).opened hloop
  refine ⟨hopen, ?_⟩
  have htick : Tightens (g.row b) ((g.ticked D).row b) := Admission.tighter_schedulerTick b
  rcases htick.circuit with ⟨hsame, -⟩ | ⟨-, hhalf⟩
  · exact absurd (hsame.trans hopen) (Health.passes_iff.mp hpass).2.1
  · exact hhalf

/-- The only backend has failed, and a tick leaves a request waiting for it. -/
theorem tripped_reachable : ∃ g, Reachable brittle g ∧
    (∃ p ∈ g.batch brittle, p ∈ (g.adm.schedulerTick brittle.cfg).queue) ∧
    "gpu-node-1" ∈ g.names ∧ ((g.ticked brittle).row "gpu-node-1").circuit = .opened ∧
    ((g.ticked brittle).row "gpu-node-1").circuitOpenedAtMonotonic = some 0 :=
  exists_reachable still (tripped ++ [.arrive (chat false)]) (by decide +kernel)

theorem work_conserving_tripped : ∃ g p, Reachable brittle g ∧ p ∈ g.batch brittle ∧
    p ∈ (g.adm.schedulerTick brittle.cfg).queue ∧
    (g.adm.opened brittle.cfg).world.clock.now - p.enqueuedAtMonotonic < brittle.cfg.maxAgeS ∧
    ∀ b ∈ g.names, Health.passes brittle.cfg.health ((g.ticked brittle).row b) = true →
      (g.row b).circuit = .opened ∧ ((g.ticked brittle).row b).circuit = .halfOpen := by
  obtain ⟨g, hg, ⟨p, hp, hleft⟩, -⟩ := tripped_reachable
  exact ⟨g, p, hg, hp, hleft, work_conserving hg hp hleft⟩

/-- **Thaw.** After a tick every circuit that is open has been open for less than the
cooldown, as of the beginning of the tick. -/
theorem tick_thaws (g : Gateway) (hb : b ∈ g.names) (hopen : ((g.ticked D).row b).circuit = .opened)
    {t : ℚ} (hat : ((g.ticked D).row b).circuitOpenedAtMonotonic = some t) :
    (g.world.clock.now - t) * 1000 < D.cfg.health.openCooldownMs := by
  -- what comes after the pass over the circuits leaves an open one alone
  have hrest : Tightens ((g.world.tickCircuits D.cfg.health).row b) ((g.ticked D).row b) := by
    refine Admission.dispatchTick_rule (A := { g.adm with
      world := g.world.tickCircuits D.cfg.health })
      (I := fun B => World.Tighter (g.world.tickCircuits D.cfg.health) B.world)
      (fun _ _ hB => hB) (fun _ hB => hB.trans (.ofRegistry rfl))
      (fun _ _ _ hB => hB.trans Admission.tighter_dispatchOne) (.ofRegistry rfl) b
  have hcold : ¬ Health.cooledDown D.cfg.health t g.world.clock.now :=
    World.cold_of_foldl hb hb (hrest.opened hopen) (hrest.openedAt.symm.trans hat)
  exact not_le.mp hcold

theorem tick_thaws_tripped : ∃ g, Reachable brittle g ∧
    (g.world.clock.now - 0) * 1000 < brittle.cfg.health.openCooldownMs := by
  obtain ⟨g, hg, -, hb, hopen, hat⟩ := tripped_reachable
  exact ⟨g, hg, tick_thaws g hb hopen hat⟩

end Gateway

end InferenceGateway
