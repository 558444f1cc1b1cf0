import InferenceGateway.Guarantees.Admission
import InferenceGateway.Lib.Spacing
import InferenceGateway.Scheduler.Loop
import Mathlib.Algebra.Order.BigOperators.Group.List

/-!
# How fast the gateway dispatches

The scheduler loop of `dispatcher.py` runs beside the gateway: it begins a
round, dispatches one batch, sleeps for what is left of `tick_ms` and begins the
next. A backend is granted in a round and nowhere else, so the pace of the loop
bounds the rate of the whole gateway, whatever the clients send and whatever the
upstreams answer.

- `Paced`: what holds at every point of a run. The rounds begin apart from each
  other, each has granted at most a batch, and their grants are all there are.
- `grants_dispatchOne`, `ungranting_of_steps`: an entry of the batch takes at
  most one slot, and no other step of the gateway takes any for a request of the
  queue.
- `throughput`: in any window of time the loop begins at most one round for each
  `tick_ms`, and one more, and each of them grants at most a batch.

The event loop may run a timer a little before it is due, by less than the
resolution of its clock. That is the one thing assumed of it (`early`).
-/

namespace InferenceGateway

open Lib

/-! ## Who grants -/

/-- No future is resolved with a target. -/
abbrev Ungranting (w w' : World) : Prop := World.Writes (fun e => !e.isGrant) w w'

theorem ungranting_of_aside {w w' : World} (h : Admission.Aside w w') : Ungranting w w' := by
  refine h.mono fun e he => ?_
  cases e <;> first | rfl | cases he

namespace Admission

variable {cfg : GatewayConfig} {now : ℚ} {p : PendingRequest} {A : Admission}

theorem grants_of_ungranting {B : Admission} (h : Ungranting A.world B.world) :
    B.grants = A.grants := by
  obtain ⟨new, htrace, hnew⟩ := h
  have hzero : new.countP Event.isGrant = 0 := by
    refine List.countP_eq_zero.mpr fun e he hgrant => ?_
    have hnot : (!e.isGrant) = true := hnew e he
    rw [hgrant] at hnot
    cases hnot
  rw [grants, htrace, List.countP_append, hzero, Nat.zero_add, grants]

/-- One request of a batch is granted at most once. -/
theorem grants_dispatchOne : ∃ k ≤ 1, (dispatchOne cfg now p A).1.grants = A.grants + k := by
  -- only the last branch takes a slot
  rcases dispatchOne_cases cfg now p A with ⟨-, h⟩ | ⟨-, -, h⟩ | ⟨-, -, -, h⟩ | ⟨-, -, c, -, h⟩
  · exact ⟨0, Nat.zero_le _, by rw [h]; rfl⟩
  · refine ⟨0, Nat.zero_le _, ?_⟩
    rw [h]
    have hun : Ungranting A.world ((A.world.emit (.resolved p .unresolved
        (.scheduleError "queue age exceeded") now)).emit (.rejectionsTotal .queueAge)) :=
      (World.Writes.emit rfl).trans (.emit rfl)
    exact grants_of_ungranting hun
  · refine ⟨0, Nat.zero_le _, ?_⟩
    rw [h]
    exact grants_of_ungranting (ungranting_of_aside (aside_of_quiet inner_search.quiet))
  · refine ⟨1, le_refl _, ?_⟩
    rw [h]
    have htaken : Ungranting A.world
        ((search cfg p.classify.reqClass A.world).1.takeSlot c p.classify.reqClass).1 :=
      ungranting_of_aside (aside_of_quiet
        (World.Inner.quiet (inner_search.trans World.inner_takeSlot)))
    have hsame := grants_of_ungranting (A := A) (B := { A with
      world := ((search cfg p.classify.reqClass A.world).1.takeSlot c p.classify.reqClass).1 })
          htaken
    rw [← hsame]
    exact List.countP_cons_of_pos rfl

theorem grants_dispatchBatch_le {batch : List PendingRequest} :
    (dispatchBatch cfg now batch A).1.grants ≤ A.grants + batch.length := by
  induction batch generalizing A with
  | nil => exact le_refl _
  | cons p batch ih =>
    have hrest : (dispatchBatch cfg now (p :: batch) A).1.grants ≤
        (dispatchOne cfg now p A).1.grants + batch.length := ih
    obtain ⟨k, hk, hone⟩ : ∃ k ≤ 1, (dispatchOne cfg now p A).1.grants = A.grants + k :=
      grants_dispatchOne
    rw [List.length_cons]
    omega

theorem grants_tickCircuits (cfg : GatewayConfig) (A : Admission) :
    Admission.grants { A with world := A.world.tickCircuits cfg.health } = A.grants :=
  grants_of_ungranting (ungranting_of_aside (aside_of_quiet (World.inner_tickCircuits _ _).quiet))

/-- A tick takes no grant back. -/
theorem grants_le_schedulerTick : A.grants ≤ (schedulerTick cfg A).grants := by
  refine dispatchTick_rule (I := fun B => A.grants ≤ B.grants) (fun _ _ hB => hB) (fun _ hB => hB)
    (fun B t p hB => ?_) (grants_tickCircuits cfg A).ge
  obtain ⟨k, -, hone⟩ : ∃ k ≤ 1, (dispatchOne cfg t p B).1.grants = B.grants + k :=
    grants_dispatchOne
  exact hB.trans (hone ▸ Nat.le_add_right _ _)

theorem length_popLoop_le (n : ℤ) : ∀ out q : List PendingRequest, (out.length : ℤ) ≤ max 0 n →
    ((AdmissionQueue.popLoop n out q).1.length : ℤ) ≤ max 0 n
  | out, [], h => h
  | out, x :: q, h => by
    unfold AdmissionQueue.popLoop
    split
    · next hlt =>
      refine length_popLoop_le n (out ++ [x]) q ?_
      rw [List.length_append, List.length_singleton]
      push_cast
      omega
    · exact h

/-- **A tick grants at most a batch.** The batch is popped once, and each of its
requests is granted at most one backend. -/
theorem grants_schedulerTick_le :
    (schedulerTick cfg A).grants ≤ A.grants + cfg.scheduler.dispatchBatchSize.toNat := by
  have hcircuits := grants_tickCircuits cfg A
  have hlength := length_popLoop_le cfg.scheduler.dispatchBatchSize [] A.queue (le_max_left 0 _)
  have hbatch : (AdmissionQueue.popBatch cfg.scheduler.dispatchBatchSize A.queue).1.length ≤
      cfg.scheduler.dispatchBatchSize.toNat := by
    unfold AdmissionQueue.popBatch
    omega
  unfold schedulerTick
  by_cases hempty : (AdmissionQueue.popBatch cfg.scheduler.dispatchBatchSize A.queue).1 = []
  · rw [dispatchTick_of_empty (A := { A with world := A.world.tickCircuits cfg.health }) hempty,
      hcircuits]
    exact Nat.le_add_right _ _
  · rw [dispatchTick_eq (A := { A with world := A.world.tickCircuits cfg.health }) hempty,
      ← hcircuits]
    exact grants_dispatchBatch_le.trans (Nat.add_le_add_left hbatch _)

end Admission

namespace Gateway

variable {D : Deployment} {g g' : Gateway} {a : Action}

/-- **Only a tick grants.** Every other step of the gateway leaves the number of granted
futures as it was, retries and fallback calls included. -/
theorem ungranting_of_steps (h : Steps D g a g') (ha : a ≠ .tick) :
    Ungranting g.world g'.world := by
  -- by the step; a request is only ever turned away, answered or ended
  cases h with
  | arrive sub =>
    have hworld : Ungranting g.world g.arrivalWorld :=
      (World.Writes.readClock g.world).trans (.emit rfl)
    by_cases hfull : D.cfg.scheduler.queueMaxSize ≤ (g.adm.queue.length : ℤ)
    · rw [arrive_full hfull]
      exact hworld.trans (ungranting_of_aside aside_fallbackOrReject)
    · rw [arrive_accepted (not_le.mp hfull)]
      exact hworld
  | tick => exact absurd rfl ha
  | timer hp => exact .refl _
  | @timedOut r p hp =>
    have hlost : Ungranting g.world (g.withdraw r) := by
      rcases g.withdraw_cases r with ⟨grant, -, heq⟩ | ⟨-, heq⟩ <;> rw [heq]
      · exact (World.Writes.emit rfl).trans (.emit rfl)
      · exact .emit rfl
    exact hlost.trans (ungranting_of_aside aside_fallbackOrReject)
  | granted hp hf => exact ungranting_of_aside aside_start
  | rejected hp hf => exact ungranting_of_aside aside_fallbackOrReject
  | upstream o hc => exact ungranting_of_aside (Admission.aside_of_quiet Proxy.quiet_onUpstream)
  | drained o hc => exact ungranting_of_aside (Admission.aside_of_quiet Proxy.quiet_onDrained)
  | streamStart hc => exact .ofTrace rfl
  | streamEnd e acloseRaises hc =>
    exact ungranting_of_aside (Admission.aside_of_quiet Proxy.inner_onStreamEnd.quiet)
  | streamDropped hc =>
    exact ungranting_of_aside (Admission.aside_of_quiet World.inner_endAttempt.quiet)

end Gateway

/-! ## The pace of the loop -/

namespace Looped

variable {D : Deployment} {P : LoopConfig} {s s' : Looped} {a b : ℚ}

/-- What holds in every state the loop reaches. -/
structure Paced (D : Deployment) (P : LoopConfig) (s : Looped) : Prop where
  /-- Rounds begin a tick apart, as far as the timers can be trusted. -/
  spaced : Spaced (P.tickS - P.early) (s.rounds.map (·.begun))
  /-- The loop sleeps until a tick has passed since the last round began. -/
  due : ∀ r ∈ s.rounds.head?, s.phase ≠ .ended →
    ∃ due, s.phase = .sleeping due ∧ r.begun + P.tickS ≤ due
  batch : ∀ r ∈ s.rounds, r.granted ≤ D.cfg.scheduler.dispatchBatchSize.toNat
  total : (s.rounds.map (·.granted)).sum = s.gateway.adm.grants

theorem paced_round (hpace : P.early ≤ P.tickS) (h : Paced D P s)
    (hdue : ∀ due, s.phase = .sleeping due → due - P.early ≤ s.begins.clock.now)
    (hphase : s.phase ≠ .ended) : Paced D P (s.round D P) where
  spaced := by
    show Spaced _ (s.begins.clock.now :: s.rounds.map (·.begun))
    cases hrounds : s.rounds with
    | nil => exact .singleton _
    | cons r rounds =>
      obtain ⟨due, hsleeping, hle⟩ := h.due r (by rw [hrounds]; rfl) hphase
      have hnow := hdue due hsleeping
      have hspaced := h.spaced
      rw [hrounds] at hspaced
      exact hspaced.cons (by linarith) (by linarith)
  due := by
    rintro r hr -
    cases hr
    exact s.le_due
  batch := by
    refine List.forall_mem_cons.mpr ⟨?_, h.batch⟩
    have hle : (s.ticked D).grants ≤
        s.gateway.adm.grants + D.cfg.scheduler.dispatchBatchSize.toNat :=
      Admission.grants_schedulerTick_le (A := { s.gateway.adm with world := s.begins })
    exact Nat.sub_le_iff_le_add'.mpr hle
  total := by
    have hmore : s.gateway.adm.grants ≤ (s.ticked D).grants :=
      Admission.grants_le_schedulerTick (A := { s.gateway.adm with world := s.begins })
    show (s.ticked D).grants - s.gateway.adm.grants + (s.rounds.map (·.granted)).sum =
      (s.ticked D).grants
    rw [h.total, Nat.sub_add_cancel hmore]

theorem paced_of_steps (hpace : P.early ≤ P.tickS) (h : Paced D P s) (hs : Steps D P s s') :
    Paced D P s' := by
  cases hs with
  | elsewhere ha hg =>
    have hsame := Admission.grants_of_ungranting
      (Gateway.ungranting_of_steps (Gateway.steps_of_step hg) ha)
    exact ⟨h.spaced, h.due, h.batch, h.total.trans hsame.symm⟩
  | round hdue hphase hstop => exact paced_round hpace h hdue hphase
  | ended => exact ⟨h.spaced, fun _ _ hended => absurd rfl hended, h.batch, h.total⟩
  | stop => exact ⟨h.spaced, h.due, h.batch, h.total⟩

/-- **Run lemma.** In every run of the loop the rounds are paced, if timers are early by
no more than a tick. -/
theorem paced_of_reach (hpace : P.early ≤ P.tickS) (h : Reach (machine D P) anyStep s) :
    Paced D P s := by
  refine h.invariant ?_ fun s a s' hs _ hstep => ?_
  · rintro s ⟨clock, rfl⟩
    exact ⟨.nil, nofun, nofun, rfl⟩
  · have hmove : s.step D P a = some s' := hstep
    exact paced_of_steps hpace hs (steps_of_step hmove)

/-- The rounds that begin in a window of time. -/
def roundsIn (s : Looped) (a b : ℚ) : List Round :=
  s.rounds.filter fun r => decide (a ≤ r.begun ∧ r.begun ≤ b)

/-- **Throughput.** Whatever the clients, the upstreams and the other tasks do, the gateway
grants requests in rounds of the loop only, at most a batch in each, and a window of time
sees at most one round for each `tick_ms` in it and one more. -/
theorem throughput (hpace : P.early < P.tickS) (h : Reach (machine D P) anyStep s) (a b : ℚ) :
    (s.rounds.map (·.granted)).sum = s.gateway.adm.grants ∧
    (s.roundsIn a b).length ≤ ⌊(b - a) / (P.tickS - P.early)⌋₊ + 1 ∧
    ((s.roundsIn a b).map (·.granted)).sum ≤
      (⌊(b - a) / (P.tickS - P.early)⌋₊ + 1) * D.cfg.scheduler.dispatchBatchSize.toNat := by
  have hpaced := paced_of_reach hpace.le h
  have hsub : (s.roundsIn a b).Sublist s.rounds := List.filter_sublist
  -- rounds that are spaced fit into the window only so often
  have hcount : ((s.roundsIn a b).map (·.begun)).length ≤
      ⌊(b - a) / (P.tickS - P.early)⌋₊ + 1 := by
    refine (hpaced.spaced.sublist (hsub.map _)).length_le (sub_pos.mpr hpace) fun t ht => ?_
    obtain ⟨r, hr, rfl⟩ := List.mem_map.mp ht
    exact of_decide_eq_true (List.mem_filter.mp hr).2
  rw [List.length_map] at hcount
  refine ⟨hpaced.total, hcount, ?_⟩
  have hsum : ((s.roundsIn a b).map (·.granted)).sum ≤
      ((s.roundsIn a b).map (·.granted)).length • D.cfg.scheduler.dispatchBatchSize.toNat := by
    refine List.sum_le_card_nsmul _ _ fun n hn => ?_
    obtain ⟨r, hr, rfl⟩ := List.mem_map.mp hn
    exact hpaced.batch r (hsub.subset hr)
  rw [List.length_map, nsmul_eq_mul, Nat.cast_id] at hsum
  exact hsum.trans (Nat.mul_le_mul_right _ hcount)

/-- A loop whose timers may be a millisecond early. -/
def timely : LoopConfig := { early := 1 / 1000 }

/-- A request arrives and is granted a backend in the first round, and a second later so is
another one in the second round. In five milliseconds only one round has its place. -/
theorem throughput_timely : ∃ s, Reach (machine Gateway.lone timely) anyStep s ∧
    (s.rounds.map (fun r => (r.begun, r.granted)) = [(1, 1), (0, 1)] ∧
      (s.roundsIn 0 (5 / 1000)).length = 1) ∧
    (s.rounds.map (·.granted)).sum = s.gateway.adm.grants ∧
    (s.roundsIn 0 (5 / 1000)).length ≤ ⌊(5 / 1000 - 0) / (timely.tickS - timely.early)⌋₊ + 1 ∧
    ((s.roundsIn 0 (5 / 1000)).map (·.granted)).sum ≤
      (⌊(5 / 1000 - 0) / (timely.tickS - timely.early)⌋₊ + 1) *
        Gateway.lone.cfg.scheduler.dispatchBatchSize.toNat := by
  have hpace : timely.early < timely.tickS := by
    norm_num [timely, LoopConfig.tickS]
  obtain ⟨s, hreach, hrounds⟩ : ∃ s, Reach (machine Gateway.lone timely) anyStep s ∧
      s.rounds.map (fun r => (r.begun, r.granted)) = [(1, 1), (0, 1)] ∧
      (s.roundsIn 0 (5 / 1000)).length = 1 :=
    exists_reach_runList
      (s := ⟨Gateway.init Gateway.lone (.ofGaps 0 (List.replicate 10 0 ++ [1])), .created, false,
        []⟩) ⟨_, rfl⟩
      [.elsewhere (.arrive (Gateway.chat false)), .turn,
        .elsewhere (.arrive (Gateway.chat false)), .turn] (by decide +kernel)
  exact ⟨s, hreach, hrounds, throughput hpace hreach 0 (5 / 1000)⟩

end Looped

end InferenceGateway
