import InferenceGateway.Backends.Writes
import InferenceGateway.Lib.History
import InferenceGateway.Lib.Tally
import InferenceGateway.Lib.Transition
import InferenceGateway.Scheduler.Dispatcher

/-!
# The life of an accepted request

The admission layer in an arbitrary environment: requests are enqueued, the
scheduler ticks, waiters cancel their futures or withdraw, and in between the
backends and the clock may change in any way that writes nothing about requests.
The environment is arbitrary so that the results hold of the gateway whatever
its handlers do, and of the layer alone.

- `Settled`: what the history says about futures and flags is true, and every
  resolution in it was legal (`AdmissionLaw`). It looks at no queue, so it is
  kept by a pass as soon as it is kept by a round.
- `mem_requeue_of_live`: nothing is lost. A request of a batch that is still
  live after the loop has been put back.
- `surplus_schedulerTick`: a tick takes one slot for every future it grants.
- `Lifecycle.Sound`, `sound_of_reach`: `Settled`, and the queue holds every
  accepted live request once. The step lemmas are one for each act of the
  environment (`Sound.accepted`, `Sound.tick`, `Sound.cancel`,
  `Sound.withdraw`).
- `linedUp`: a queue with two requests in it, for runs that are computed.
-/

namespace InferenceGateway

open Lib

/-! ## The law of resolutions -/

/-- The events the life of a request is made of. -/
def Event.admission : Event → Bool
  | resolved .. | withdrawn .. => true
  | _ => false

/-- The scheduler resolves a future with a target. -/
def Event.isGrant : Event → Bool
  | resolved _ _ (.target _) _ => true
  | _ => false

/-- A future may be resolved while it is unresolved, has never been resolved and its
request has not been withdrawn: with a target if the request is young enough, or
with an error. -/
def AdmissionLaw (cfg : GatewayConfig) : Event → List Event → Prop
  | .resolved p before value tick, past =>
    before = .unresolved ∧
      (∀ q before' value' tick', .resolved q before' value' tick' ∈ past → q.oid ≠ p.oid) ∧
      .withdrawn p.oid ∉ past ∧
      ((∃ m, value = .scheduleError m) ∨
        ∃ grant, value = .target grant ∧ tick - p.enqueuedAtMonotonic < cfg.maxAgeS)
  | _, _ => True

/-- The law is about resolutions and withdrawals; any other event is lawful. -/
theorem AdmissionLaw.of_not_admission {cfg : GatewayConfig} {e : Event} {past : List Event}
    (h : e.admission = false) : AdmissionLaw cfg e past := by
  cases e with
  | resolved p before value tick => cases h
  | _ => trivial

namespace Admission

variable {cfg : GatewayConfig} {now : ℚ} {p : PendingRequest} {A : Admission}

/-- The history tells the truth about futures and flags. -/
structure Settled (cfg : GatewayConfig) (A : Admission) : Prop where
  resolved : ∀ p before value tick, .resolved p before value tick ∈ A.world.trace →
    A.future p.oid = value ∧ value.done = true
  withdrawn : ∀ r, .withdrawn r ∈ A.world.trace ↔ A.cancelled r = true
  lawful : Lawful (AdmissionLaw cfg) A.world.trace

/-- Nothing about requests is written. -/
abbrev Aside (w w' : World) : Prop := World.Writes (fun e => !e.admission) w w'

theorem aside_of_quiet {w w' : World} (h : World.Quiet w w') : Aside w w' := by
  refine h.mono fun e he => ?_
  cases e <;> simp_all [Event.admission, Event.handover]

/-- Nothing that is settled is about the queue. -/
theorem Settled.queue (h : Settled cfg A) (q : List PendingRequest) :
    Settled cfg { A with queue := q } := ⟨h.resolved, h.withdrawn, h.lawful⟩

/-- Changes of the world that write nothing about requests. -/
theorem Settled.aside {w : World} (h : Settled cfg A) (hw : Aside A.world w) :
    Settled cfg { A with world := w } := by
  obtain ⟨new, htrace, hnew⟩ := hw
  -- what is new in the history is nothing of the admission layer
  have hold : ∀ e, e.admission = true → (e ∈ w.trace ↔ e ∈ A.world.trace) := by
    intro e he
    rw [htrace, List.mem_append]
    refine ⟨fun hor => hor.resolve_left fun hin => ?_, .inr⟩
    have := hnew e hin
    simp [he] at this
  refine ⟨?_, ?_, ?_⟩
  · intro q before value tick hmem
    exact h.resolved q before value tick ((hold _ rfl).mp hmem)
  · intro r
    exact (hold (.withdrawn r) rfl).trans (h.withdrawn r)
  · show Lawful (AdmissionLaw cfg) w.trace
    rw [htrace]
    clear htrace hold
    induction new with
    | nil => exact h.lawful
    | cons e new ih =>
      refine ⟨AdmissionLaw.of_not_admission ?_, ih fun x hx => hnew x (List.mem_cons_of_mem _ hx)⟩
      simpa using hnew e (List.mem_cons_self ..)

/-- Resolving the future of a live request. -/
theorem Settled.resolve {value : Future} (h : Settled cfg A) (hlive : A.Live p.oid)
    (hvalue : (∃ m, value = .scheduleError m) ∨
      ∃ grant, value = .target grant ∧ now - p.enqueuedAtMonotonic < cfg.maxAgeS) :
    Settled cfg { A with
      future := Function.update A.future p.oid value
      world := A.world.emit (.resolved p .unresolved value now) } := by
  have hdone : value.done = true := by
    rcases hvalue with ⟨m, rfl⟩ | ⟨grant, rfl, -⟩ <;> rfl
  -- the future was unresolved, so no earlier resolution is about it
  have hother : ∀ q before value' tick, .resolved q before value' tick ∈ A.world.trace →
      q.oid ≠ p.oid := by
    intro q before value' tick hmem heq
    obtain ⟨hfut, hdone'⟩ := h.resolved q before value' tick hmem
    rw [heq, hlive.2] at hfut
    rw [← hfut] at hdone'
    cases hdone'
  refine ⟨?_, ?_, ?_⟩
  · intro q before value' tick hmem
    rcases List.mem_cons.mp hmem with heq | hmem
    · obtain ⟨rfl, -, rfl, -⟩ := Event.resolved.inj heq
      exact ⟨Function.update_self .., hdone⟩
    · refine ⟨?_, (h.resolved q before value' tick hmem).2⟩
      show Function.update A.future p.oid value q.oid = value'
      rw [Function.update_of_ne (hother q before value' tick hmem)]
      exact (h.resolved q before value' tick hmem).1
  · intro r
    refine Iff.trans ?_ (h.withdrawn r)
    show .withdrawn r ∈ .resolved p .unresolved value now :: A.world.trace ↔ _
    simp
  · refine ⟨⟨rfl, hother, ?_, hvalue⟩, h.lawful⟩
    intro hmem
    have hflag := (h.withdrawn p.oid).mp hmem
    rw [hlive.1] at hflag
    cases hflag

/-! ## The batch loop -/

/-- Searching for a backend writes about circuits, not about requests. -/
theorem slotWrites_search {cls : RequestClass} {w : World} :
    World.SlotWrites w (search cfg cls w).1 := by
  obtain ⟨-, htrace, -⟩ := Scoring.pickBackend_sameButClock cfg.routing cls
    (World.eligible cfg.health none w.names w).2 (World.eligible cfg.health none w.names w).1
  exact (World.slotWrites_eligible cfg.health none w.names w).trans (.ofTrace htrace)

theorem inner_search {cls : RequestClass} {w : World} : World.Inner w (search cfg cls w).1 :=
  slotWrites_search.inner

/-- A round keeps what is settled: it resolves at most one future, and that is a live
one. -/
theorem Settled.dispatchOne (h : Settled cfg A) : Settled cfg (dispatchOne cfg now p A).1 := by
  rcases dispatchOne_cases cfg now p A with
    ⟨-, heq⟩ | ⟨hlive, -, heq⟩ | ⟨-, -, -, heq⟩ | ⟨hlive, hage, chosen, -, heq⟩
  · rw [heq]
    exact h
  · rw [heq]
    exact (h.resolve hlive (.inl ⟨_, rfl⟩)).aside (.emit rfl)
  · rw [heq]
    exact h.aside (aside_of_quiet inner_search.quiet)
  · rw [heq]
    have hworld := h.aside (w := ((search cfg p.classify.reqClass A.world).1.takeSlot chosen
      p.classify.reqClass).1) (aside_of_quiet (inner_search.quiet.trans World.inner_takeSlot.quiet))
    exact hworld.resolve hlive (.inr ⟨_, rfl, hage⟩)

/-- A round leaves other requests alone. -/
theorem live_dispatchOne_of_ne {r : ReqId} (hr : r ≠ p.oid) :
    (dispatchOne cfg now p A).1.Live r ↔ A.Live r := by
  unfold Live
  rw [dispatchOne_cancelled]
  rcases dispatchOne_future cfg now p A r with hsame | ⟨heq, -, -⟩
  · rw [hsame]
  · exact absurd heq hr

/-- A round makes nobody live. -/
theorem live_of_dispatchOne {r : ReqId} (h : (dispatchOne cfg now p A).1.Live r) : A.Live r := by
  have hflag : (dispatchOne cfg now p A).1.cancelled r = false := h.1
  rw [dispatchOne_cancelled] at hflag
  refine ⟨hflag, ?_⟩
  rcases dispatchOne_future cfg now p A r with hsame | ⟨-, hun, -⟩
  · exact hsame ▸ h.2
  · exact hun

/-- A request still live after its round is put back. -/
theorem requeue_of_live (h : (dispatchOne cfg now p A).1.Live p.oid) :
    (dispatchOne cfg now p A).2 = [p] := by
  rcases dispatchOne_cases cfg now p A with
    ⟨hdead, heq⟩ | ⟨-, -, heq⟩ | ⟨-, -, -, heq⟩ | ⟨-, -, chosen, -, heq⟩
  · rw [heq] at h
    exact absurd h hdead
  · rw [heq] at h
    cases (Function.update_self .. : _ = _).symm.trans h.2
  · rw [heq]
  · rw [heq] at h
    cases (Function.update_self .. : _ = _).symm.trans h.2

/-- A request put back is live. -/
theorem live_of_requeue (h : p ∈ (dispatchOne cfg now p A).2) :
    (dispatchOne cfg now p A).1.Live p.oid := by
  rcases dispatchOne_cases cfg now p A with
    ⟨-, heq⟩ | ⟨-, -, heq⟩ | ⟨hlive, -, -, heq⟩ | ⟨-, -, chosen, -, heq⟩
  · rw [heq] at h
    cases h
  · rw [heq] at h
    cases h
  · rw [heq]
    exact hlive
  · rw [heq] at h
    cases h

/-- A request is live after the batch only if it was before. -/
theorem live_of_dispatchBatch {batch : List PendingRequest} {r : ReqId}
    (h : (dispatchBatch cfg now batch A).1.Live r) : A.Live r := by
  refine ⟨?_, ?_⟩
  · rw [← h.1, dispatchBatch_cancelled]
  · rcases dispatchBatch_future cfg now r batch A with hsame | ⟨-, hun, -⟩
    · rw [← hsame]
      exact h.2
    · exact hun

/-- **Nothing is lost.** A request of the batch that is still live after the loop,
neither resolved nor cancelled, is among those that are put back. -/
theorem mem_requeue_of_live :
    ∀ (batch : List PendingRequest) (A : Admission), p ∈ batch →
      (dispatchBatch cfg now batch A).1.Live p.oid → p ∈ (dispatchBatch cfg now batch A).2
  | [], _, hp, _ => by cases hp
  | q :: batch, A, hp, hlive => by
    show p ∈ (dispatchOne cfg now q A).2 ++
      (dispatchBatch cfg now batch (dispatchOne cfg now q A).1).2
    refine List.mem_append.mpr ?_
    rcases List.mem_cons.mp hp with rfl | hp
    · -- the head is put back at once, or it is settled for good
      have hlive' : (dispatchOne cfg now p A).1.Live p.oid := live_of_dispatchBatch hlive
      rw [requeue_of_live hlive']
      exact .inl (List.mem_singleton_self p)
    · exact .inr (mem_requeue_of_live batch _ hp hlive)

/-- A pass keeps what is settled, by the rule for passes. -/
theorem Settled.dispatchTick (h : Settled cfg A) : Settled cfg (dispatchTick cfg A) :=
  dispatchTick_rule (fun _ q hB => hB.queue q) (fun B hB => hB.aside (.readClock B.world))
    (fun _ _ _ hB => hB.dispatchOne) h

theorem Settled.schedulerTick (h : Settled cfg A) : Settled cfg (schedulerTick cfg A) :=
  (h.aside (aside_of_quiet (World.inner_tickCircuits cfg.health _).quiet)).dispatchTick

/-- A request in the queue that is still live after the pass is in the queue after
it. -/
theorem mem_dispatchTick_of_live (hp : p ∈ A.queue) (hlive : (dispatchTick cfg A).Live p.oid) :
    p ∈ (dispatchTick cfg A).queue := by
  by_cases hempty : (AdmissionQueue.popBatch cfg.scheduler.dispatchBatchSize A.queue).1 = []
  · rw [dispatchTick_of_empty hempty]
    exact hp
  · rw [dispatchTick_eq hempty] at hlive ⊢
    rw [← AdmissionQueue.popBatch_append cfg.scheduler.dispatchBatchSize A.queue] at hp
    refine List.mem_append.mpr ?_
    rcases List.mem_append.mp hp with hp | hp
    · exact .inl (mem_requeue_of_live _ _ hp hlive)
    · exact .inr hp

/-- **Nothing is lost in a tick.** A request in the queue that no tick resolves stays in
it. -/
theorem mem_schedulerTick_of_live (hp : p ∈ A.queue)
    (hlive : (schedulerTick cfg A).Live p.oid) : p ∈ (schedulerTick cfg A).queue :=
  mem_dispatchTick_of_live hp hlive

end Admission

/-! ## Slots taken in a tick -/

namespace World

variable {w w' : World} {health : HealthConfig} {b : String} {cls : RequestClass}

/-- The slots that count as taken, on all backends together. -/
def totalInflight (w : World) : ℤ := (w.names.map fun b => (w.row b).inflight).sum

theorem totalInflight_of_registry (h : w'.registry = w.registry) :
    w'.totalInflight = w.totalInflight := by
  simp only [totalInflight, names, row, h]

/-- The cooldown check leaves the load counters alone. -/
theorem totalInflight_maybeTransitionFromOpen :
    (w.maybeTransitionFromOpen health b).totalInflight = w.totalInflight := by
  unfold totalInflight
  simp only [names, maybeTransitionFromOpen_names]
  refine congrArg List.sum (List.map_congr_left fun b' _ => ?_)
  exact (w.readClock.moveCircuit_sameLoad b b' .cooldown
    (Health.maybeTransitionFromOpen_sameLoad health _)).inflight

/-- The eligibility checks of a whole fleet leave the load counters alone. -/
theorem totalInflight_eligible {avoid : Option String} (bs : List String) (w : World) :
    (eligible health avoid bs w).1.totalInflight = w.totalInflight :=
  eligible_rule (I := fun v => v.totalInflight = w.totalInflight)
    (fun _ _ _ _ hv => totalInflight_maybeTransitionFromOpen.trans hv) rfl

theorem totalInflight_tickCircuits : (w.tickCircuits health).totalInflight = w.totalInflight :=
  tickCircuits_rule (I := fun v => v.totalInflight = w.totalInflight)
    (fun _ _ hv => totalInflight_maybeTransitionFromOpen.trans hv) rfl

/-- A slot taken on a registered backend adds one to the load of the fleet. -/
theorem totalInflight_takeSlot (cls : RequestClass) (hb : b ∈ w.names) :
    (w.takeSlot b cls).1.totalInflight = w.totalInflight + 1 := by
  unfold totalInflight
  simp only [names, takeSlot_names]
  refine sum_map_raise w.registry.nodup hb (fun b' hne => ?_) ?_
  · simp only [row, takeSlot_row_of_ne hne]
  · exact congrArg BackendRuntimeState.inflight (takeSlot_row_self ..)

end World

namespace Admission

variable {cfg : GatewayConfig} {now : ℚ} {p : PendingRequest} {A : Admission}

/-- Futures resolved with a target. -/
def grants (A : Admission) : ℕ := A.world.trace.countP Event.isGrant

theorem grants_aside {w : World} (h : Aside A.world w) :
    { A with world := w }.grants = A.grants := by
  obtain ⟨new, htrace, hnew⟩ := h
  show w.trace.countP Event.isGrant = A.world.trace.countP Event.isGrant
  have hzero : new.countP Event.isGrant = 0 := by
    refine List.countP_eq_zero.mpr fun e he hgrant => ?_
    have := hnew e he
    cases e <;> simp_all [Event.admission, Event.isGrant]
  rw [htrace, List.countP_append, hzero, Nat.zero_add]

theorem totalInflight_search {cls : RequestClass} {w : World} :
    (search cfg cls w).1.totalInflight = w.totalInflight := by
  obtain ⟨hreg, -, -⟩ := Scoring.pickBackend_sameButClock cfg.routing cls
    (World.eligible cfg.health none w.names w).2 (World.eligible cfg.health none w.names w).1
  exact (World.totalInflight_of_registry hreg).trans (World.totalInflight_eligible w.names w)

/-- The search finds registered backends only. -/
theorem mem_of_search {cls : RequestClass} {w : World} {chosen : String}
    (h : (search cfg cls w).2 = some chosen) : chosen ∈ (search cfg cls w).1.names := by
  obtain ⟨hreg, -, -⟩ := Scoring.pickBackend_sameButClock cfg.routing cls
    (World.eligible cfg.health none w.names w).2 (World.eligible cfg.health none w.names w).1
  obtain ⟨hmem, -⟩ := World.eligible_spec w.names w w.registry.nodup (Scoring.pickBackend_mem h)
  show chosen ∈ (search cfg cls w).1.registry.names
  rw [search, hreg, World.eligible_names]
  exact hmem

/-- Slots taken less futures granted: a quantity no step of a tick changes. -/
def surplus (A : Admission) : ℤ := A.world.totalInflight - A.grants

theorem surplus_aside {w : World} (h : Aside A.world w)
    (htotal : w.totalInflight = A.world.totalInflight) :
    { A with world := w }.surplus = A.surplus := by
  rw [surplus, surplus, grants_aside h]
  exact congrArg (· - (A.grants : ℤ)) htotal

/-- A round takes a slot exactly if it grants a future: in the four other branches it
does neither. -/
theorem surplus_dispatchOne : (dispatchOne cfg now p A).1.surplus = A.surplus := by
  rcases dispatchOne_cases cfg now p A with
    ⟨-, heq⟩ | ⟨-, -, heq⟩ | ⟨-, -, -, heq⟩ | ⟨-, -, chosen, hchosen, heq⟩
  · rw [heq]
  · rw [heq]
    rfl
  · rw [heq]
    exact surplus_aside (aside_of_quiet inner_search.quiet) totalInflight_search
  · -- one slot is taken and one future granted
    rw [heq]
    have htaken := World.totalInflight_takeSlot p.classify.reqClass (mem_of_search hchosen)
    have hgrants : ((search cfg p.classify.reqClass A.world).1.takeSlot chosen
        p.classify.reqClass).1.trace.countP Event.isGrant = A.grants :=
      grants_aside (A := A) (aside_of_quiet (inner_search.quiet.trans World.inner_takeSlot.quiet))
    rw [totalInflight_search] at htaken
    show ((search cfg p.classify.reqClass A.world).1.takeSlot chosen
        p.classify.reqClass).1.totalInflight -
      ((List.countP Event.isGrant (_ :: ((search cfg p.classify.reqClass A.world).1.takeSlot chosen
        p.classify.reqClass).1.trace) : ℕ) : ℤ) = A.world.totalInflight - A.grants
    rw [List.countP_cons_of_pos rfl, htaken, hgrants]
    push_cast
    ring

theorem surplus_dispatchTick : (dispatchTick cfg A).surplus = A.surplus :=
  dispatchTick_rule (I := fun B => B.surplus = A.surplus) (fun _ _ hB => hB) (fun _ hB => hB)
    (fun _ _ _ hB => surplus_dispatchOne.trans hB) rfl

/-- **A tick takes one slot for every future it grants**, and no other. Slots that
others take or give back in the meantime do not show in the difference. -/
theorem surplus_schedulerTick (cfg : GatewayConfig) (A : Admission) :
    (schedulerTick cfg A).surplus = A.surplus :=
  surplus_dispatchTick.trans (surplus_aside
    (aside_of_quiet (World.inner_tickCircuits cfg.health _).quiet) World.totalInflight_tickCircuits)

end Admission

/-! ## The layer in its environment -/

structure Lifecycle where
  adm : Admission
  /-- Requests seen so far; the next one gets this number. -/
  arrived : ℕ
  /-- Ghost: the requests the queue has accepted. -/
  accepted : List PendingRequest

namespace Lifecycle

inductive Act where
  | enqueue (p : PendingRequest)
  | tick
  | cancel (r : ReqId)
  | withdraw (r : ReqId)
  | elsewhere

inductive Step (cfg : GatewayConfig) (L : Lifecycle) : Act → Lifecycle → Prop where
  | accepted {p : PendingRequest} {q : List PendingRequest} (hoid : p.oid = L.arrived)
      (hq : AdmissionQueue.enqueue cfg.scheduler.queueMaxSize L.adm.queue p = some q) :
      Step cfg L (.enqueue p) ⟨{ L.adm with queue := q }, L.arrived + 1, p :: L.accepted⟩
  | refused {p : PendingRequest} (hoid : p.oid = L.arrived)
      (hq : AdmissionQueue.enqueue cfg.scheduler.queueMaxSize L.adm.queue p = none) :
      Step cfg L (.enqueue p) { L with arrived := L.arrived + 1 }
  | tick : Step cfg L .tick { L with adm := L.adm.schedulerTick cfg }
  /-- The waiter's timer, or the cancellation of its task, cancels the future. -/
  | cancel {r : ReqId} (hr : r < L.arrived) :
      Step cfg L (.cancel r) { L with adm := { L.adm with
        future := if (L.adm.future r).done then L.adm.future
          else Function.update L.adm.future r .cancelled } }
  /-- `pending.cancelled.set()`. -/
  | withdraw {r : ReqId} (hr : r < L.arrived) :
      Step cfg L (.withdraw r) { L with adm := { L.adm with
        world := L.adm.world.emit (.withdrawn r)
        cancelled := Function.update L.adm.cancelled r true } }
  /-- Backends, clock and handlers move on. -/
  | elsewhere {w : World} (hw : Admission.Aside L.adm.world w) :
      Step cfg L .elsewhere { L with adm := { L.adm with world := w } }

/-- Nothing has arrived yet. -/
structure Start (L : Lifecycle) : Prop where
  queue : L.adm.queue = []
  future : ∀ r, L.adm.future r = .unresolved
  cancelled : ∀ r, L.adm.cancelled r = false
  trace : L.adm.world.trace = []
  arrived : L.arrived = 0
  accepted : L.accepted = []

def machine (cfg : GatewayConfig) : Machine Lifecycle Act := ⟨Start, Step cfg⟩

/-- The invariant of the layer. -/
structure Sound (cfg : GatewayConfig) (L : Lifecycle) : Prop where
  settled : L.adm.Settled cfg
  fresh : ∀ r, L.arrived ≤ r → L.adm.future r = .unresolved ∧ L.adm.cancelled r = false
  queued : ∀ p ∈ L.adm.queue, p.oid < L.arrived
  once : (L.adm.queue.map (·.oid)).Nodup
  kept : ∀ p ∈ L.accepted, p.oid < L.arrived ∧ (L.adm.Live p.oid → p ∈ L.adm.queue)

variable {cfg : GatewayConfig} {L L' : Lifecycle} {a : Act}

/-- At start-up nothing is in the history, in the queue or among the accepted. -/
theorem sound_start (h : Start L) : Sound cfg L where
  settled := by
    refine ⟨?_, ?_, by rw [h.trace]; trivial⟩
    · intro p before value tick hmem
      rw [h.trace] at hmem
      cases hmem
    · intro r
      rw [h.trace, h.cancelled]
      simp
  fresh r _ := ⟨h.future r, h.cancelled r⟩
  queued p hp := by
    rw [h.queue] at hp
    cases hp
  once := by
    rw [h.queue]
    exact List.nodup_nil
  kept p hp := by
    rw [h.accepted] at hp
    cases hp

/-- A request that is accepted joins the end of the queue under a number nobody had, so
that no number is in the queue twice. -/
theorem Sound.accepted (h : Sound cfg L) {p : PendingRequest} {q : List PendingRequest}
    (hoid : p.oid = L.arrived)
    (hq : AdmissionQueue.enqueue cfg.scheduler.queueMaxSize L.adm.queue p = some q) :
    Sound cfg ⟨{ L.adm with queue := q }, L.arrived + 1, p :: L.accepted⟩ := by
  -- the queue took the request at its end
  obtain rfl : q = L.adm.queue ++ [p] := by
    unfold AdmissionQueue.enqueue at hq
    split at hq
    · cases hq
    · exact (Option.some.inj hq).symm
  refine ⟨h.settled.queue _, fun r hr => h.fresh r (Nat.le_of_succ_le hr), ?_, ?_, ?_⟩
  · intro x hx
    rcases List.mem_append.mp hx with hx | hx
    · exact (h.queued x hx).trans (Nat.lt_succ_self _)
    · rw [List.mem_singleton.mp hx, hoid]
      exact Nat.lt_succ_self _
  · -- the new number is larger than all in the queue
    rw [List.map_append]
    refine List.nodup_append.mpr ⟨h.once, List.nodup_singleton _, ?_⟩
    intro i hi j hj hij
    obtain ⟨x, hx, rfl⟩ := List.mem_map.mp hi
    rw [List.map_singleton, List.mem_singleton] at hj
    exact absurd (h.queued x hx) (by rw [hij, hj, hoid]; exact lt_irrefl _)
  · intro x hx
    rcases List.mem_cons.mp hx with rfl | hx
    · exact ⟨hoid ▸ Nat.lt_succ_self _, fun _ =>
        List.mem_append_right _ (List.mem_singleton_self x)⟩
    · obtain ⟨hlt, hkept⟩ := h.kept x hx
      exact ⟨hlt.trans (Nat.lt_succ_self _), fun hlive => List.mem_append_left _ (hkept hlive)⟩

/-- The queue after a tick is a part of the queue before, and what is missing is not
live. -/
theorem Sound.tick (h : Sound cfg L) : Sound cfg { L with adm := L.adm.schedulerTick cfg } := by
  have hsub : (L.adm.schedulerTick cfg).queue.Sublist L.adm.queue := Admission.schedulerTick_queue
  refine ⟨h.settled.schedulerTick, ?_, fun p hp => h.queued p (hsub.subset hp),
    h.once.sublist (hsub.map _), ?_⟩
  -- a tick resolves queued requests only, and those have arrived
  · intro r hr
    obtain ⟨hfuture, hcancelled⟩ := h.fresh r hr
    refine ⟨?_, (congrFun Admission.schedulerTick_cancelled r).trans hcancelled⟩
    rcases L.adm.schedulerTick_future cfg r with
      hsame | ⟨⟨p, hp, rfl⟩, -, -⟩
    · exact hsame.trans hfuture
    · exact absurd (h.queued p hp) (not_lt.mpr hr)
  · intro p hp
    obtain ⟨hlt, hkept⟩ := h.kept p hp
    refine ⟨hlt, fun hlive => Admission.mem_schedulerTick_of_live (hkept ⟨?_, ?_⟩) hlive⟩
    · rw [← hlive.1]
      exact (congrFun Admission.schedulerTick_cancelled p.oid).symm
    · rcases L.adm.schedulerTick_future cfg p.oid with
        hsame | ⟨-, hun, -⟩
      · exact hsame ▸ hlive.2
      · exact hun

/-- A waiter cancels its future, unless the scheduler resolved it first. -/
theorem Sound.cancel (h : Sound cfg L) {r : ReqId} (hr : r < L.arrived) :
    Sound cfg { L with adm := { L.adm with
      future := if (L.adm.future r).done then L.adm.future
        else Function.update L.adm.future r .cancelled } } := by
  by_cases hdone : (L.adm.future r).done = true
  · simp only [hdone, if_true]
    exact ⟨h.settled, h.fresh, h.queued, h.once, h.kept⟩
  simp only [hdone]
  refine ⟨⟨?_, h.settled.withdrawn, h.settled.lawful⟩, ?_, h.queued, h.once, ?_⟩
  · -- a future the scheduler resolved is done, so it is not this one
    intro p before value tick hmem
    obtain ⟨hfut, hvalue⟩ := h.settled.resolved p before value tick hmem
    have hne : p.oid ≠ r := by
      rintro rfl
      exact hdone (hfut ▸ hvalue)
    exact ⟨(Function.update_of_ne hne ..).trans hfut, hvalue⟩
  · intro r' hr'
    have hne : r' ≠ r := fun heq => absurd hr (not_lt.mpr (heq ▸ hr'))
    exact ⟨(Function.update_of_ne hne ..).trans (h.fresh r' hr').1, (h.fresh r' hr').2⟩
  · intro p hp
    obtain ⟨hlt, hkept⟩ := h.kept p hp
    refine ⟨hlt, fun hlive => hkept ⟨hlive.1, ?_⟩⟩
    have hne : p.oid ≠ r := by
      rintro rfl
      cases (Function.update_self .. : _ = _).symm.trans hlive.2
    exact (Function.update_of_ne hne ..).symm.trans hlive.2

/-- A waiter withdraws its request, which is thereby no longer live. -/
theorem Sound.withdraw (h : Sound cfg L) {r : ReqId} (hr : r < L.arrived) :
    Sound cfg { L with adm := { L.adm with
      world := L.adm.world.emit (.withdrawn r)
      cancelled := Function.update L.adm.cancelled r true } } := by
  refine ⟨⟨?_, ?_, trivial, h.settled.lawful⟩, ?_, h.queued, h.once, ?_⟩
  · intro p before value tick hmem
    exact h.settled.resolved p before value tick ((List.mem_cons.mp hmem).resolve_left (by simp))
  · intro r'
    show Event.withdrawn r' ∈ .withdrawn r :: L.adm.world.trace ↔ _
    rw [List.mem_cons, h.settled.withdrawn r']
    -- the flag and the entry in the history are written together
    by_cases hrr : r' = r <;> simp [hrr]
  · intro r' hr'
    have hne : r' ≠ r := fun heq => absurd hr (not_lt.mpr (heq ▸ hr'))
    exact ⟨(h.fresh r' hr').1, (Function.update_of_ne hne ..).trans (h.fresh r' hr').2⟩
  · intro p hp
    obtain ⟨hlt, hkept⟩ := h.kept p hp
    refine ⟨hlt, fun hlive => hkept ⟨?_, hlive.2⟩⟩
    have hne : p.oid ≠ r := by
      rintro rfl
      cases (Function.update_self .. : _ = _).symm.trans hlive.1
    exact (Function.update_of_ne hne ..).symm.trans hlive.1

/-- **Step lemma.** One of the lemmas above for each act. -/
theorem Sound.step (h : Sound cfg L) (hs : Step cfg L a L') : Sound cfg L' := by
  cases hs with
  | accepted hoid hq => exact h.accepted hoid hq
  | refused hoid hq =>
    exact ⟨h.settled, fun r hr => h.fresh r (Nat.le_of_succ_le hr),
      fun p hp => (h.queued p hp).trans (Nat.lt_succ_self _), h.once,
      fun p hp => ⟨(h.kept p hp).1.trans (Nat.lt_succ_self _), (h.kept p hp).2⟩⟩
  | tick => exact h.tick
  | cancel hr => exact h.cancel hr
  | withdraw hr => exact h.withdraw hr
  | elsewhere hw => exact ⟨h.settled.aside hw, h.fresh, h.queued, h.once, h.kept⟩

/-- **Run lemma.** In an arbitrary environment, which may accept, cancel and withdraw
requests and change the world as it likes, the admission layer stays sound. -/
theorem sound_of_reach (h : Reach (machine cfg) anyStep L) : Sound cfg L :=
  h.invariant (fun _ => sound_start) fun _ _ _ hL _ hs => hL.step hs

/-! ## Four requests in line for one slot -/

/-- One backend of one slot, behind a queue of four. -/
def narrow : GatewayConfig where
  scheduler := { queueMaxSize := 4 }
  backends := [{ name := "gpu-node-1", url := "http://10.0.0.1:8000", hardLimit := 1 }]

/-- A buffered chat completion of the smallest class that came in at `t`. -/
def inLineSince (t : ℚ) (oid : ReqId) : PendingRequest :=
  ⟨oid, "req-1", t, ⟨.smallChat, 16, none, false, none⟩, "/v1/chat/completions", ""⟩

/-- The gateway at 3 s by its clock, before the first request. -/
def untouched : Lifecycle where
  adm :=
    { world := ⟨.ofGaps 3 [], .ofConfig narrow, []⟩
      queue := []
      future := fun _ => .unresolved
      cancelled := fun _ => false }
  arrived := 0
  accepted := []

/-- Four requests wait. The first has been waiting for longer than the two seconds of
`queue_max_age_ms`, and of the others only one can be served. -/
def linedUp : Lifecycle where
  adm := { untouched.adm with
    queue := [inLineSince 0 0, inLineSince 2 1, inLineSince 2 2, inLineSince 2 3] }
  arrived := 4
  accepted := [inLineSince 2 3, inLineSince 2 2, inLineSince 2 1, inLineSince 0 0]

theorem untouched_start : Start untouched :=
  ⟨rfl, fun _ => rfl, fun _ => rfl, rfl, rfl, rfl⟩

theorem linedUp_reachable : Reach (machine narrow) anyStep linedUp := by
  have hfirst := (Reach.start untouched_start : Reach (machine narrow) anyStep untouched).step
    trivial (.accepted (p := inLineSince 0 0) rfl rfl)
  have hsecond := hfirst.step trivial (.accepted (p := inLineSince 2 1) rfl rfl)
  have hthird := hsecond.step trivial (.accepted (p := inLineSince 2 2) rfl rfl)
  exact hthird.step trivial (.accepted (p := inLineSince 2 3) rfl rfl)

end Lifecycle

end InferenceGateway
