import InferenceGateway.Api.Routes
import InferenceGateway.Fleet.Deeds

/-!
# The gateway refines the fleet

Every atomic step of the gateway is a chain of fleet deeds, from what the
backends see of the gateway before the step to what they see after it. The
undisciplined deeds in the chain are licensed one by one: `Explains` says, for
each, what in the state before the step makes the code do it.

- `Inv`, `inv_of_reach`: what the simulation has to know of a reachable state.
  Requests in the queue have arrived, and wait if their future is unresolved;
  requests that have not arrived hold nothing; a handler works for the request
  it is named after.
- `step_deeds`: the simulation, with one lemma for each kind of step before it.
  The tick is the long one, since it is a loop over a batch of the queue.
- `reaches_fleet`: how every statement about runs gets from the fleet to the
  gateway. To prove something of guarded gateway runs, prove it of fleet runs
  under a licence that the guard together with `Explains` implies.
-/

namespace InferenceGateway

open Lib

/-- The request a handler works for. -/
def Handler.pending : Handler → Option PendingRequest
  | .waiting p | .expired p => some p
  | .sending c | .draining c _ | .relaying c _ => some c.pending
  | _ => none

theorem Handler.pending_of_entered {p q : PendingRequest} {h : Handler} (hent : h.Entered p)
    (hq : h.pending = some q) : q = p := by
  cases h <;> simp_all [Handler.Entered, Handler.pending]

/-- A handler inside the proxy does not wait for the scheduler any more. -/
theorem Handler.not_waiting_of_entered {p q : PendingRequest} {h : Handler} (hent : h.Entered p) :
    h ≠ .waiting q ∧ h ≠ .expired q := by
  cases h <;> simp_all [Handler.Entered]

namespace Gateway

/-! ## What the backends see -/

/-- The slot request `r` holds. -/
def slotOf (g : Gateway) (r : ReqId) : Option Slot := (g.handler r).slot (g.adm.future r)

/-- What the backends see of the gateway. -/
def fleet (g : Gateway) : Fleet := ⟨g.world, g.slotOf, g.arrived⟩

variable {D : Deployment} {g g' : Gateway} {a : Action} {r : ReqId}

/-! ## What a step is about to do -/

/-- The outcome the step records, and the call it records it for. -/
def verdictOf (g : Gateway) : Action → Option (ProxyCall × Verdict)
  | .upstream r o =>
    match g.handler r with
    | .sending c => (Proxy.verdictOnUpstream c o).map (c, ·)
    | _ => none
  | .drained r o =>
    match g.handler r with
    | .draining c status => (Proxy.verdictOnDrained status o).map (c, ·)
    | _ => none
  | _ => none

/-- The call that wants a retry in this step, and the world it looks for an
alternate in. -/
def retryOf (D : Deployment) (g : Gateway) : Action → Option (ProxyCall × World)
  | .upstream r o =>
    match g.handler r with
    | .sending c => (Proxy.retryOnUpstream D g.world c o).map (c, ·)
    | _ => none
  | .drained r o =>
    match g.handler r with
    | .draining c _ => (Proxy.retryOnDrained D g.world c o).map (c, ·)
    | _ => none
  | _ => none

/-- The step gives up a slot without giving it back: the attempt ends without a
release, or the slot's request has timed out before it was taken over. -/
def Leaks (D : Deployment) (g : Gateway) : Action → Prop
  | .resume r => ∃ p grant, g.adm.future r = .target grant ∧
      (g.handler r = .expired p ∨
        (g.handler r = .waiting p ∧ Proxy.leaksOnStart D p (.granted grant)))
  | .upstream r o => ∃ c, g.handler r = .sending c ∧ Proxy.leaksOnUpstream D g.world c o
  | .drained r o => ∃ c status, g.handler r = .draining c status ∧
      Proxy.leaksOnDrained D g.world c o
  | _ => False

/-- The lease under which the step may release. -/
def leaseOf (g : Gateway) : Action → Option Lease
  | .upstream r _ =>
    match g.handler r with
    | .sending c => some c.lease
    | _ => none
  | .drained r _ =>
    match g.handler r with
    | .draining c _ => some c.lease
    | _ => none
  | .streamEnd r _ _ =>
    match g.handler r with
    | .relaying c _ => some c.lease
    | _ => none
  | _ => none

/-- The step turns a request away from the backends. -/
def TurnsAway (D : Deployment) (g : Gateway) : Action → Prop
  | .arrive _ => D.cfg.scheduler.queueMaxSize ≤ g.adm.queue.length
  | .resume r => (∃ p, g.handler r = .expired p) ∨
      ∃ p m, g.handler r = .waiting p ∧ g.adm.future r = .scheduleError m
  | _ => False

/-- The step begins, or continues, a call to the fallback provider at `t`. -/
def FallbackCall (D : Deployment) (g : Gateway) (a : Action) (t : BackendTarget) : Prop :=
  g.leaseOf a = some (.fallback t) ∨ (g.TurnsAway D a ∧ fallbackTarget D.cfg = some t)

/-- What in the state before the step makes the code do an undisciplined deed. An outcome is
recorded before anything else has happened to a row or a slot. -/
def Explains (D : Deployment) (g : Gateway) (a : Action) (F : Fleet) : Deed → Prop
  | .judge r v => ∃ c s, g.verdictOf a = some (c, v) ∧ F.held r = some s ∧
      s.backend = c.target.name ∧ s.grant.probe = c.lease.probe ∧ F.held = g.slotOf ∧
      Fleet.SameBreakers g.world F.world
  | .stray b v => ∃ c, g.verdictOf a = some (c, v) ∧ b = c.target.name ∧ c.lease.probe = none ∧
      F.held = g.slotOf ∧ Fleet.SameBreakers g.world F.world
  | .overRelease b _ =>
    (∃ c w, g.retryOf D a = some (c, w) ∧ c.target.name = b ∧ ¬ Proxy.hasAlternate D c w) ∨
      ∃ t, g.FallbackCall D a t ∧ t.name = b
  | .abandon _ how => how = .streamLost ∨ g.Leaks D a
  | _ => True

/-- Benign deeds need no explanation. -/
theorem explains_licence : Fleet.Licence (Explains D g a) where
  benign _ d h := by cases d <;> trivial

/-! ## Slots when one request moves -/

/-- What the backends see of a handler that moves: the slot it holds now, and the world
it left. -/
theorem fleet_put {result : World × Handler} :
    (g.put r result).fleet = g.fleet.put r (result.2.slot (g.adm.future r)) result.1 := by
  refine congrArg (Fleet.mk result.1 · g.arrived) ?_
  funext r'
  by_cases hr : r' = r
  · subst hr
    simp [slotOf, put, fleet]
  · simp [slotOf, put, fleet, hr]

/-- Setting the future of one request. -/
theorem fleet_future {w : World} {value : Future} :
    ({ g with adm := { g.adm with
        world := w, future := Function.update g.adm.future r value } } : Gateway).fleet =
      g.fleet.put r ((g.handler r).slot value) w := by
  refine congrArg (Fleet.mk w · g.arrived) ?_
  funext r'
  by_cases hr : r' = r
  · subst hr
    simp [slotOf, fleet]
  · simp [slotOf, fleet, hr]

/-- A chain for the world alone is a chain for the world and the slot of `r`. -/
theorem fleet_put_held {w : World} : g.fleet.put r (g.slotOf r) w = { g.fleet with world := w } :=
  Fleet.put_eq_self rfl w

/-! ## The invariant of requests, handlers and the queue -/

/-- What ties queue, futures and handlers together. -/
structure Inv (g : Gateway) : Prop where
  /-- A queued request has arrived, and while nobody has resolved it its handler
  waits for it. -/
  queued : ∀ p ∈ g.adm.queue, p.oid < g.arrived ∧
    (g.adm.future p.oid = .unresolved → g.handler p.oid = .waiting p)
  fresh : ∀ r, g.arrived ≤ r → g.handler r = .absent ∧ g.adm.future r = .unresolved
  /-- The timer fires on a done future or cancels it. -/
  expired : ∀ r p, g.handler r = .expired p → (g.adm.future r).done = true
  owner : ∀ r p, (g.handler r).pending = some p → p.oid = r

/-- A request whose handler is somewhere has arrived. -/
theorem Inv.lt_arrived (h : g.Inv) (hr : g.handler r ≠ .absent) : r < g.arrived := by
  by_contra hge
  exact hr (h.fresh r (not_lt.mp hge)).1

/-- At start-up nobody has arrived and nobody is queued. -/
theorem init_inv (clock : Clock) : (init D clock).Inv where
  queued p hp := by cases hp
  fresh r _ := ⟨rfl, rfl⟩
  expired r p h := by cases h
  owner r p h := by cases h

/-- A handler enters the proxy, or moves on inside it. -/
theorem Inv.put (h : g.Inv) {p : PendingRequest} {result : World × Handler}
    (hr : p.oid < g.arrived)
    (hdone : ∀ q, g.handler p.oid = .waiting q → g.adm.future p.oid ≠ .unresolved)
    (hent : result.2.Entered p) : (g.put p.oid result).Inv where
  queued q hq := by
    obtain ⟨hlt, hwait⟩ := h.queued q hq
    refine ⟨hlt, fun hun => ?_⟩
    -- an unresolved request of the queue waits, so it is not the one that moves
    have hne : q.oid ≠ p.oid := fun heq => hdone q (heq ▸ hwait hun) (heq ▸ hun)
    show (g.put p.oid result).handler q.oid = .waiting q
    rw [put_handler_of_ne hne]
    exact hwait hun
  fresh r hr' := by
    have hne : r ≠ p.oid := fun heq => absurd hr (not_lt.mpr (heq ▸ hr'))
    refine ⟨?_, (h.fresh r hr').2⟩
    show (g.put p.oid result).handler r = .absent
    rw [put_handler_of_ne hne]
    exact (h.fresh r hr').1
  expired r q hq := by
    by_cases heq : r = p.oid
    · subst heq
      exact absurd (by simpa [Gateway.put] using hq) (Handler.not_waiting_of_entered hent).2
    · exact h.expired r q (by simpa [Gateway.put, heq] using hq)
  owner r q hq := by
    by_cases heq : r = p.oid
    · subst heq
      exact congrArg _ (Handler.pending_of_entered hent (by simpa [Gateway.put] using hq))
    · exact h.owner r q (by simpa [Gateway.put, heq] using hq)

/-- After a rejection branch the handler is inside the proxy, on its way to the fallback
provider, or done. -/
theorem fallbackOrReject_entered {w : World} {p : PendingRequest} {reason : RejectionReason}
    {message : Option String} : (fallbackOrReject D w p reason message).2.Entered p := by
  exact fallbackOrReject_rule (P := fun next => next.2.Entered p)
    (fun _ _ => Proxy.start_entered) trivial

/-- A request arrives: it joins the queue, or is handed to the rejection branch. -/
theorem Inv.arrive (h : g.Inv) (sub : Submission) : (g.arrive D sub).Inv := by
  -- one more has arrived, and nothing else has changed yet
  have hgrown : ({ g with arrived := g.arrived + 1 } : Gateway).Inv :=
    { queued := fun p hp => ⟨(h.queued p hp).1.trans (Nat.lt_succ_self _), (h.queued p hp).2⟩
      fresh := fun r hr => h.fresh r ((Nat.le_succ _).trans hr)
      expired := h.expired
      owner := h.owner }
  have habsent := (h.fresh g.arrived (le_refl _)).1
  by_cases hfull : D.cfg.scheduler.queueMaxSize ≤ (g.adm.queue.length : ℤ)
  · rw [arrive_full hfull]
    refine hgrown.put (p := g.newRequest sub) (Nat.lt_succ_self _) ?_ fallbackOrReject_entered
    intro q hq
    exact absurd (habsent.symm.trans hq) (by simp)
  rw [arrive_accepted (not_le.mp hfull)]
  constructor
  · -- the new request is the last of the queue, and its handler waits
    intro p hp
    rcases List.mem_append.mp hp with hp | hp
    · obtain ⟨hlt, hwait⟩ := h.queued p hp
      have hne : p.oid ≠ g.arrived := Nat.ne_of_lt hlt
      refine ⟨hlt.trans (Nat.lt_succ_self _), fun hun => ?_⟩
      simpa [hne] using hwait hun
    · rw [List.mem_singleton.mp hp]
      exact ⟨Nat.lt_succ_self _, fun _ => Function.update_self ..⟩
  · intro r hr
    have hne : r ≠ g.arrived := Nat.ne_of_gt hr
    simpa [hne] using h.fresh r (Nat.le_of_succ_le hr)
  · intro r p hp
    by_cases hr : r = g.arrived
    · subst hr
      simp at hp
    · exact h.expired r p (by simpa [hr] using hp)
  · intro r p hp
    by_cases hr : r = g.arrived
    · subst hr
      have hp' : some (g.newRequest sub) = some p := by simpa [Handler.pending] using hp
      rw [← Option.some.inj hp']
      rfl
    · exact h.owner r p (by simpa [hr] using hp)

/-- A tick resolves futures of queued requests and of no other, and removes from the
queue. -/
theorem Inv.tick (h : g.Inv) : ({ g with adm := g.adm.schedulerTick D.cfg } : Gateway).Inv := by
  -- a tick resolves futures of queued requests and nothing else of the handlers
  constructor
  · intro p hp
    obtain ⟨hlt, hwait⟩ := h.queued p (Admission.schedulerTick_queue.subset hp)
    refine ⟨hlt, fun hun => hwait ?_⟩
    rcases g.adm.schedulerTick_future D.cfg p.oid with hsame | ⟨-, hun', -⟩
    · exact hsame ▸ hun
    · exact hun'
  · intro r hr
    refine ⟨(h.fresh r hr).1, ?_⟩
    rcases g.adm.schedulerTick_future D.cfg r with
      hsame | ⟨⟨p, hp, rfl⟩, -, -⟩
    · exact hsame.trans (h.fresh r hr).2
    · exact absurd (h.queued p hp).1 (not_lt.mpr hr)
  · intro r p hp
    have hdone := h.expired r p hp
    rcases g.adm.schedulerTick_future D.cfg r with hsame | ⟨-, -, hdone'⟩
    · exact hsame ▸ hdone
    · exact hdone'
  · exact h.owner

/-- A timer moves the handler from waiting to expired, and leaves its future cancelled
or, if the scheduler was first, resolved. -/
theorem Inv.fireTimer (h : g.Inv) {p : PendingRequest} (hp : g.handler r = .waiting p) :
    (g.fireTimer r p).Inv := by
  -- resolved before the timer fired or cancelled by it, the future is done
  have hdone : ((g.fireTimer r p).adm.future r).done = true := by
    rw [fireTimer_future_self]
    split
    · assumption
    · rfl
  have hother : ∀ r', r' ≠ r → (g.fireTimer r p).adm.future r' = g.adm.future r' ∧
      (g.fireTimer r p).handler r' = g.handler r' := by
    intro r' hne
    exact ⟨fireTimer_future_of_ne hne, fireTimer_handler_of_ne hne⟩
  have hself : (g.fireTimer r p).handler r = .expired p := fireTimer_handler_self
  constructor
  · intro q hq
    obtain ⟨hlt, hwait⟩ := h.queued q hq
    refine ⟨hlt, fun hun => ?_⟩
    by_cases hr : q.oid = r
    · rw [hr] at hun
      rw [hun] at hdone
      cases hdone
    · rw [(hother _ hr).1] at hun
      rw [(hother _ hr).2]
      exact hwait hun
  · intro r' hr'
    have hne : r' ≠ r := by
      rintro rfl
      rw [(h.fresh r' hr').1] at hp
      cases hp
    rw [(hother _ hne).1, (hother _ hne).2]
    exact h.fresh r' hr'
  · intro r' q hq
    by_cases hr : r' = r
    · rw [hr]
      exact hdone
    · rw [(hother _ hr).2] at hq
      rw [(hother _ hr).1]
      exact h.expired r' q hq
  · intro r' q hq
    by_cases hr : r' = r
    · subst hr
      rw [hself] at hq
      exact h.owner r' q (by rw [hp]; exact hq)
    · rw [(hother _ hr).2] at hq
      exact h.owner r' q hq

/-- A handler whose wait timed out withdraws its request and takes the rejection
branch. -/
theorem Inv.onTimeout (h : g.Inv) {p : PendingRequest} (hp : g.handler r = .expired p) :
    (g.onTimeout D r p).Inv := by
  have hr : p.oid = r := h.owner r p (by rw [hp]; rfl)
  subst hr
  have hcancelled : ({ g with adm := { g.adm with
      cancelled := Function.update g.adm.cancelled p.oid true } } : Gateway).Inv :=
    ⟨h.queued, h.fresh, h.expired, h.owner⟩
  refine hcancelled.put (h.lt_arrived (by rw [hp]; simp)) ?_ fallbackOrReject_entered
  intro q hq
  rw [show ({ g with adm := { g.adm with
      cancelled := Function.update g.adm.cancelled p.oid true } } : Gateway).handler p.oid =
    .expired p from hp] at hq
  cases hq

/-- **Step lemma.** A tick, an arrival and a timer have their own lemmas; every other
step moves one handler into the proxy or on inside it. -/
theorem Inv.step (h : g.Inv) (hs : Steps D g a g') : g'.Inv := by
  cases hs with
  | arrive sub => exact h.arrive sub
  | tick => exact h.tick
  | timer hp => exact h.fireTimer hp
  | timedOut hp => exact h.onTimeout hp
  -- from here on a handler has its own request, and is replaced by another of it
  | @granted r p grant hp hf =>
    obtain rfl : p.oid = r := h.owner r p (by rw [hp]; rfl)
    exact h.put (h.lt_arrived (by rw [hp]; simp)) (fun _ _ => by rw [hf]; simp) Proxy.start_entered
  | @rejected r p m hp hf =>
    obtain rfl : p.oid = r := h.owner r p (by rw [hp]; rfl)
    exact h.put (h.lt_arrived (by rw [hp]; simp)) (fun _ _ => by rw [hf]; simp)
      fallbackOrReject_entered
  | @upstream r c o hc =>
    obtain rfl : c.pending.oid = r := h.owner r c.pending (by rw [hc]; rfl)
    exact h.put (h.lt_arrived (by rw [hc]; simp)) (by simp [hc]) Proxy.onUpstream_entered
  | @drained r c status o hc =>
    obtain rfl : c.pending.oid = r := h.owner r c.pending (by rw [hc]; rfl)
    exact h.put (h.lt_arrived (by rw [hc]; simp)) (by simp [hc]) Proxy.onDrained_entered
  | @streamStart r c hc =>
    obtain rfl : c.pending.oid = r := h.owner r c.pending (by rw [hc]; rfl)
    exact h.put (p := c.pending) (h.lt_arrived (by rw [hc]; simp)) (by simp [hc]) rfl
  | @streamEnd r c t e acloseRaises hc =>
    obtain rfl : c.pending.oid = r := h.owner r c.pending (by rw [hc]; rfl)
    exact h.put (h.lt_arrived (by rw [hc]; simp)) (by simp [hc]) Proxy.onStreamEnd_entered
  | @streamDropped r c hc =>
    obtain rfl : c.pending.oid = r := h.owner r c.pending (by rw [hc]; rfl)
    exact h.put (p := c.pending) (h.lt_arrived (by rw [hc]; simp)) (by simp [hc]) trivial

/-- **Run lemma.** The invariant holds under every guard, so no theorem has to assume
it. -/
theorem inv_of_reach {ok : Gateway → Action → Prop} (h : ReachableWith D ok g) : g.Inv := by
  refine h.invariant ?_ ?_
  · rintro g ⟨clock, rfl⟩
    exact init_inv clock
  · intro g a g' hinv _ hstep
    exact hinv.step (steps_of_step hstep)

/-- The invariant rule for the gateway: a step may be taken from a state that is
known to meet `Inv`, and in one of its inverted forms. -/
theorem invariantOf {ok : Gateway → Action → Prop} {I : Gateway → Prop}
    (hinit : ∀ clock, I (init D clock))
    (hstep : ∀ g a g', g.Inv → I g → ok g a → Steps D g a g' → I g')
    (h : ReachableWith D ok g) : I g := by
  have hboth : g.Inv ∧ I g := by
    refine h.invariant (I := fun g => g.Inv ∧ I g) ?_ ?_
    · rintro g ⟨clock, rfl⟩
      exact ⟨init_inv clock, hinit clock⟩
    · rintro g a g' ⟨hinv, hI⟩ hok hstep'
      have hs := steps_of_step hstep'
      exact ⟨hinv.step hs, hstep g a g' hinv hI hok hs⟩
  exact hboth.2

/-! ## Every step is a chain of deeds -/

theorem fleet_put_self (r : ReqId) {x : Option Slot}
    (h : (g.handler r).slot (g.adm.future r) = x) : g.fleet.put r x g.world = g.fleet :=
  Fleet.put_eq_self h g.world

/-- A chain may name the slot its request holds at the start. -/
theorem deeds_of_slot {ok : Fleet → Deed → Prop} {r : ReqId} {x : Option Slot} {F : Fleet}
    (hslot : (g.handler r).slot (g.adm.future r) = x)
    (h : Fleet.Deeds D.cfg.health ok (g.fleet.put r x g.world) F) :
    Fleet.Deeds D.cfg.health ok g.fleet F := by
  rw [fleet_put_self r hslot] at h
  exact h

/-- The step records the verdict it is about to record. -/
theorem verdictLicence {c : ProxyCall} {v : Verdict} (hv : g.verdictOf a = some (c, v))
    (hslot : g.slotOf r = c.lease.slot c.reqClass false) :
    Fleet.VerdictLicence (Explains D g a) g.fleet r c g.world v := by
  intro w' hw'
  have htarget : c.target = c.lease.target := rfl
  have hheld : (g.fleet.put r (c.lease.slot c.reqClass false) w').held = g.slotOf := by
    rw [Fleet.put_eq_self hslot]
    rfl
  cases hl : c.lease with
  | granted grant =>
    rw [hl] at htarget hheld
    exact ⟨c, ⟨grant, c.reqClass, false⟩, hv, Fleet.put_held_self .., by rw [htarget]; rfl,
      by rw [hl]; rfl, hheld, hw'⟩
  | fallback t =>
    rw [hl] at htarget hheld
    exact ⟨c, hv, by rw [htarget]; rfl, by rw [hl]; rfl, hheld, hw'⟩

/-- The rejection branch holds no slot, unless the fallback provider bears a backend's
name. -/
theorem deeds_fallbackOrReject {ok : Fleet → Deed → Prop} {F : Fleet} {w : World}
    {p : PendingRequest} (fut : Future) (hok : Fleet.Licence ok) (hr : r < F.population)
    (reason : RejectionReason) (message : Option String)
    (hover : ∀ t, fallbackTarget D.cfg = some t →
      ∀ F, ok F (.overRelease t.name p.classify.reqClass)) :
    Fleet.Deeds D.cfg.health ok (F.put r none w)
      (F.put r ((fallbackOrReject D w p reason message).2.slot fut)
        (fallbackOrReject D w p reason message).1) := by
  refine fallbackOrReject_rule (P := fun next => Fleet.Deeds D.cfg.health ok (F.put r none w)
    (F.put r (next.2.slot fut) next.1)) (fun t ht => ?_) ?_
  · refine (Fleet.deeds_note hok rfl).trans
      (Fleet.deeds_start hok hr (.fallback t) ?_ fun hleak => ?_)
    · rintro t' ⟨⟩
      exact hover t ht
    · exact absurd hleak.1 Bool.false_ne_true
  · exact (Fleet.deeds_note hok rfl).trans (Fleet.deeds_note hok rfl)

/-- One round of the batch loop. -/
theorem deeds_dispatchOne {ok : Fleet → Deed → Prop} {A : Admission} {now : ℚ}
    {p : PendingRequest} (hok : Fleet.Licence ok) (hp : p.oid < g.arrived)
    (hwait : A.future p.oid = .unresolved → g.handler p.oid = .waiting p) :
    Fleet.Deeds D.cfg.health ok ({ g with adm := A } : Gateway).fleet
      ({ g with adm := (Admission.dispatchOne D.cfg now p A).1 } : Gateway).fleet := by
  rcases Admission.dispatchOne_cases D.cfg now p A with
    ⟨-, h⟩ | ⟨hlive, -, h⟩ | ⟨hlive, -, -, h⟩ | ⟨hlive, -, chosen, hchosen, h⟩
  · rw [h]
    exact .refl _
  all_goals
    -- a live request is waiting and holds nothing yet
    have hhandler := hwait hlive.2
    have hnone : ({ g with adm := A } : Gateway).slotOf p.oid = none := by
      simp [slotOf, hhandler, hlive.2, Handler.slot]
    rw [h, ← fleet_put_self (g := { g with adm := A }) p.oid hnone]
  · rw [fleet_future (g := { g with adm := A }), hhandler]
    exact (Fleet.deeds_note hok rfl).trans (Fleet.deeds_note hok rfl)
  · have hend : ({ g with adm := { A with
        world := (Admission.search D.cfg p.classify.reqClass A.world).1 } } : Gateway).fleet =
        ({ g with adm := A } : Gateway).fleet.put p.oid none
          (Admission.search D.cfg p.classify.reqClass A.world).1 :=
      (Fleet.put_eq_self (F := ({ g with adm := A } : Gateway).fleet) hnone _).symm
    rw [hend]
    exact Fleet.deeds_search hok A.world D.cfg.routing p.classify.reqClass none
  · rw [fleet_future (g := { g with adm := A }), hhandler]
    obtain ⟨hb, hpass⟩ := Fleet.passes_of_pick hchosen
    exact ((Fleet.deeds_search hok A.world D.cfg.routing p.classify.reqClass none).trans
      (Fleet.deeds_takeSlot hok hp hb hpass)).trans (Fleet.deeds_note hok rfl)

/-- The whole batch: a request the loop resolves stays resolved, so what was
known of the rest of the batch stays known. -/
theorem deeds_dispatchBatch {ok : Fleet → Deed → Prop} (hok : Fleet.Licence ok) (now : ℚ) :
    ∀ (batch : List PendingRequest) (A : Admission),
      (∀ p ∈ batch, p.oid < g.arrived ∧
        (A.future p.oid = .unresolved → g.handler p.oid = .waiting p)) →
      Fleet.Deeds D.cfg.health ok ({ g with adm := A } : Gateway).fleet
        ({ g with adm := (Admission.dispatchBatch D.cfg now batch A).1 } : Gateway).fleet
  | [], _, _ => .refl _
  | p :: batch, A, hbatch => by
    obtain ⟨hp, hwait⟩ := hbatch p (List.mem_cons_self ..)
    have hrest := deeds_dispatchBatch hok now batch
      (Admission.dispatchOne D.cfg now p A).1 fun q hq => by
        obtain ⟨hlt, hwait⟩ := hbatch q (List.mem_cons_of_mem _ hq)
        refine ⟨hlt, fun hun => hwait ?_⟩
        rcases Admission.dispatchOne_future D.cfg now p A q.oid with hsame | ⟨-, hun', -⟩
        · exact hsame ▸ hun
        · exact hun'
    exact (deeds_dispatchOne hok hp hwait).trans hrest

/-- A tick pops a batch and runs the loop on it; with an empty queue it does nothing. -/
theorem deeds_dispatchTick {ok : Fleet → Deed → Prop} (hok : Fleet.Licence ok) (hinv : g.Inv) :
    Fleet.Deeds D.cfg.health ok g.fleet
      ({ g with adm := g.adm.dispatchTick D.cfg } : Gateway).fleet := by
  by_cases hempty : (AdmissionQueue.popBatch D.cfg.scheduler.dispatchBatchSize g.adm.queue).1 = []
  · rw [Admission.dispatchTick_of_empty hempty]
    exact .refl _
  · rw [Admission.dispatchTick_eq hempty]
    have hclock : Fleet.Deeds D.cfg.health ok (g.fleet.put 0 (g.slotOf 0) g.world) _ :=
      Fleet.deeds_readClock hok
    rw [fleet_put_held, fleet_put_held] at hclock
    -- the clock of the whole batch is read once, before the loop
    refine hclock.trans (deeds_dispatchBatch hok _ _ { g.adm with
      world := g.world.readClock
      queue := (AdmissionQueue.popBatch D.cfg.scheduler.dispatchBatchSize g.adm.queue).2 } ?_)
    intro p hp
    refine hinv.queued p ?_
    rw [← AdmissionQueue.popBatch_append D.cfg.scheduler.dispatchBatchSize g.adm.queue]
    exact List.mem_append_left _ hp

/-- The pass over the circuits, and then the dispatch of a batch. -/
theorem deeds_tick {ok : Fleet → Deed → Prop} (hok : Fleet.Licence ok) (hinv : g.Inv) :
    Fleet.Deeds D.cfg.health ok g.fleet
      ({ g with adm := g.adm.schedulerTick D.cfg } : Gateway).fleet := by
  -- the circuits advance first; no slot moves
  have hcool : Fleet.Deeds D.cfg.health ok (g.fleet.put 0 (g.slotOf 0) g.world) _ :=
    Fleet.deeds_tickCircuits hok g.world
  rw [fleet_put_held, fleet_put_held] at hcool
  exact hcool.trans (deeds_dispatchTick (g := { g with adm := { g.adm with
    world := g.world.tickCircuits D.cfg.health } }) hok
    ⟨hinv.queued, hinv.fresh, hinv.expired, hinv.owner⟩)

/-- Up to the decision about the queue, an arrival only lets time pass and counts. -/
theorem deeds_arrival {ok : Fleet → Deed → Prop} (hok : Fleet.Licence ok) (hinv : g.Inv) :
    Fleet.Deeds D.cfg.health ok g.fleet
      { g.fleet with world := g.arrivalWorld, population := g.arrived + 1 } := by
  have hvacant : g.fleet.held g.arrived = none := by
    obtain ⟨habsent, -⟩ := hinv.fresh g.arrived (le_refl _)
    show g.slotOf g.arrived = none
    rw [slotOf, habsent]
    rfl
  have hnote : Fleet.Deeds D.cfg.health ok (g.fleet.put 0 (g.slotOf 0) g.world)
      (g.fleet.put 0 (g.slotOf 0) g.arrivalWorld) :=
    (Fleet.deeds_readClock hok).trans (Fleet.deeds_note hok rfl)
  rw [fleet_put_held, fleet_put_held] at hnote
  exact hnote.trans (.single (hok.benign _ .enrol rfl) (.enrol hvacant))

/-- An arrival holds no slot; only the rejection branch of a full queue can do more than
count. -/
theorem deeds_arrive {ok : Fleet → Deed → Prop} (hok : Fleet.Licence ok) (hinv : g.Inv)
    (sub : Submission)
    (hover : D.cfg.scheduler.queueMaxSize ≤ g.adm.queue.length →
      ∀ t, fallbackTarget D.cfg = some t →
      ∀ F, ok F (.overRelease t.name sub.classify.reqClass)) :
    Fleet.Deeds D.cfg.health ok g.fleet (g.arrive D sub).fleet := by
  refine (deeds_arrival hok hinv).trans ?_
  obtain ⟨habsent, hfuture⟩ := hinv.fresh g.arrived (le_refl _)
  have hnone : g.slotOf g.arrived = none := by
    rw [slotOf, habsent]
    rfl
  by_cases hfull : D.cfg.scheduler.queueMaxSize ≤ (g.adm.queue.length : ℤ)
  · rw [arrive_full hfull, fleet_put]
    have h := deeds_fallbackOrReject (D := D) (F := { g.fleet with population := g.arrived + 1 })
      (r := g.arrived) (w := g.arrivalWorld) (p := g.newRequest sub) (g.adm.future g.arrived) hok
      (Nat.lt_succ_self g.arrived) .queueFull none (hover hfull)
    rw [Fleet.put_eq_self (F := { g.fleet with population := g.arrived + 1 }) hnone] at h
    exact h
  · rw [arrive_accepted (not_le.mp hfull)]
    -- the new handler waits for a future nobody has resolved, so it holds nothing
    have hsame : ({
        adm := { g.adm with
          world := g.arrivalWorld
          queue := g.adm.queue ++ [g.newRequest sub] }
        handler := Function.update g.handler g.arrived (.waiting (g.newRequest sub))
        arrived := g.arrived + 1 } : Gateway).fleet =
        { g.fleet with world := g.arrivalWorld, population := g.arrived + 1 } := by
      refine congrArg (Fleet.mk g.arrivalWorld · (g.arrived + 1)) ?_
      funext r
      by_cases hr : r = g.arrived
      · subst hr
        simp [slotOf, hfuture, Handler.slot, habsent, fleet]
      · simp [slotOf, hr, fleet]
    rw [hsame]
    exact .refl _

/-- A timer moves no slot. -/
theorem fleet_fireTimer {p : PendingRequest} (hp : g.handler r = .waiting p) :
    (g.fireTimer r p).fleet = g.fleet := by
  refine congrArg (Fleet.mk g.world · g.arrived) ?_
  funext r'
  by_cases hr : r' = r
  · subst hr
    cases hf : g.adm.future r' <;>
      simp [slotOf, fireTimer, hp, hf, Future.done, Handler.slot]
  · cases hd : (g.adm.future r).done <;> simp [slotOf, fireTimer, hr, hd]

/-- A handler whose wait timed out: if the scheduler had granted it a slot in the
meantime, that slot is abandoned, and `hlost` asks for this deed. -/
theorem deeds_onTimeout {ok : Fleet → Deed → Prop} (hok : Fleet.Licence ok)
    {p : PendingRequest} (hr : r < g.arrived) (hp : g.handler r = .expired p)
    (hlost : ∀ grant, g.adm.future r = .target grant → ∀ F, ok F (.abandon r .handoffLost))
    (hover : ∀ t, fallbackTarget D.cfg = some t →
      ∀ F, ok F (.overRelease t.name p.classify.reqClass)) :
    Fleet.Deeds D.cfg.health ok g.fleet (g.onTimeout D r p).fleet := by
  unfold onTimeout
  rw [fleet_put]
  -- if the scheduler got there first, its slot is lost here
  have hlose : Fleet.Deeds D.cfg.health ok g.fleet (g.fleet.put r none (g.withdraw r)) := by
    rcases g.withdraw_cases r with ⟨grant, hf, heq⟩ | ⟨hf, heq⟩
    · have hslot : (g.handler r).slot (g.adm.future r) =
          (Lease.granted grant).slot p.classify.reqClass false := by
        rw [hp, hf]
        rfl
      rw [heq]
      exact deeds_of_slot hslot
        ((Fleet.deeds_note hok rfl).trans (Fleet.deeds_abandon hr rfl fun _ => hlost grant hf))
    · have hslot : (g.handler r).slot (g.adm.future r) = none := by
        rw [hp]
        cases hfut : g.adm.future r with
        | target grant => exact absurd hfut (hf grant)
        | _ => rfl
      rw [heq]
      exact deeds_of_slot hslot (Fleet.deeds_note hok rfl)
  exact hlose.trans (deeds_fallbackOrReject _ hok hr _ _ hover)

/-- **The simulation.** A step of the gateway is a chain of deeds, each benign or
explained by the state before the step. -/
theorem step_deeds (hinv : g.Inv) (hs : Steps D g a g') :
    Fleet.Deeds D.cfg.health (Explains D g a) g.fleet g'.fleet := by
  have hok : Fleet.Licence (Explains D g a) := explains_licence
  cases hs with
  | arrive sub =>
    -- only a full queue sends an arrival to the fallback
    refine deeds_arrive hok hinv sub fun hfull t ht F => ?_
    exact .inr ⟨t, .inr ⟨hfull, ht⟩, rfl⟩
  | tick => exact deeds_tick hok hinv
  | timer hp =>
    rw [fleet_fireTimer hp]
    exact .refl _
  | @granted r p grant hp hf =>
    rw [fleet_put]
    refine deeds_of_slot (x := (Lease.granted grant).slot p.classify.reqClass false)
      (by rw [hp, hf]; rfl) ?_
    refine Fleet.deeds_start hok (hinv.lt_arrived (by simp [hp])) _ (fun t ht => by cases ht) ?_
    exact fun hleak F => .inr ⟨p, grant, hf, .inr ⟨hp, hleak⟩⟩
  | @rejected r p m hp hf =>
    rw [fleet_put]
    refine deeds_of_slot (x := none) (by rw [hp, hf]; rfl) ?_
    refine deeds_fallbackOrReject _ hok (hinv.lt_arrived (by simp [hp])) _ _ fun t ht F => ?_
    exact .inr ⟨t, .inr ⟨.inr ⟨p, m, hp, hf⟩, ht⟩, rfl⟩
  | @timedOut r p hp =>
    refine deeds_onTimeout hok (hinv.lt_arrived (by simp [hp])) hp
      (fun grant hf F => .inr ⟨p, grant, hf, .inl hp⟩) fun t ht F => ?_
    exact .inr ⟨t, .inr ⟨.inl ⟨p, hp⟩, ht⟩, rfl⟩
  | @upstream r c o hc =>
    rw [fleet_put]
    refine deeds_of_slot (x := c.lease.slot c.reqClass false) (by rw [hc]; rfl) ?_
    refine Fleet.deeds_onUpstream hok (hinv.lt_arrived (by simp [hc])) ?_ ?_ ?_ ?_
    · exact fun v hv => verdictLicence (by simp [verdictOf, hc, hv]) (by rw [slotOf, hc]; rfl)
    · exact fun t ht F => .inr ⟨t, .inl (by simp [leaseOf, hc, ht]), rfl⟩
    · exact fun w' hw' halt F => .inl ⟨c, w', by simp [retryOf, hc, hw'], rfl, halt⟩
    · exact fun hleak F how => .inr ⟨c, hc, hleak⟩
  | @drained r c status o hc =>
    rw [fleet_put]
    refine deeds_of_slot (x := c.lease.slot c.reqClass false) (by rw [hc]; rfl) ?_
    refine Fleet.deeds_onDrained hok (hinv.lt_arrived (by simp [hc])) ?_ ?_ ?_ ?_
    · exact fun v hv => verdictLicence (by simp [verdictOf, hc, hv]) (by rw [slotOf, hc]; rfl)
    · exact fun t ht F => .inr ⟨t, .inl (by simp [leaseOf, hc, ht]), rfl⟩
    · exact fun w' hw' halt F => .inl ⟨c, w', by simp [retryOf, hc, hw'], rfl, halt⟩
    · exact fun hleak F how => .inr ⟨c, status, hc, hleak⟩
  | @streamStart r c hc =>
    rw [fleet_put]
    refine deeds_of_slot (x := c.lease.slot c.reqClass true) (by rw [hc]; rfl) ?_
    exact Fleet.deeds_onStreamStart hok
  | @streamEnd r c t e acloseRaises hc =>
    rw [fleet_put]
    refine deeds_of_slot (x := c.lease.slot c.reqClass true) (by rw [hc]; rfl) ?_
    refine Fleet.deeds_onStreamEnd hok (hinv.lt_arrived (by simp [hc])) ?_ fun F => .inl rfl
    exact fun t' ht F => .inr ⟨t', .inl (by simp [leaseOf, hc, ht]), rfl⟩
  | @streamDropped r c hc =>
    rw [fleet_put]
    refine deeds_of_slot (x := c.lease.slot c.reqClass true) (by rw [hc]; rfl) ?_
    exact Fleet.deeds_onStreamDropped (hinv.lt_arrived (by simp [hc])) fun F => .inl rfl

/-! ## From runs of the gateway to runs of the fleet -/

theorem fromEntry_fresh (b : BackendEntry) : Fleet.Fresh (BackendRegistry.fromEntry b) :=
  ⟨rfl, rfl, rfl, rfl, rfl⟩

/-- Every configured backend starts on a fresh row. -/
theorem ofConfig_fresh (cfg : GatewayConfig) :
    ∀ b ∈ (BackendRegistry.ofConfig cfg).names,
      Fleet.Fresh ((BackendRegistry.ofConfig cfg).row b) :=
  BackendRegistry.ofConfig_rule fromEntry_fresh

/-- The gateway starts as a fleet starts: nobody holds anything, and every row is
fresh. -/
theorem init_start (clock : Clock) : (init D clock).fleet.Start where
  fresh := ofConfig_fresh D.cfg
  trace := rfl
  held := rfl
  population := rfl

/-- The backends are those of the configuration. -/
theorem names_of_reach {ok : Gateway → Action → Prop} (h : ReachableWith D ok g) :
    g.names = (BackendRegistry.ofConfig D.cfg).names := by
  refine invariantOf (I := fun g => g.names = (BackendRegistry.ofConfig D.cfg).names)
    (fun clock => rfl) ?_ h
  intro g a g' hinv hnames _ hs
  have hkeep : g'.fleet.names = g.fleet.names :=
    (step_deeds hinv hs).preserves (I := fun F => F.names = g.fleet.names)
      (fun F d F' hF _ hd => (Fleet.names_step hd).trans hF) rfl
  exact hkeep.trans hnames

/-- **Refinement.** What the backends see of a guarded run of the gateway is a
run of the fleet under any licence that the guard grants to explained deeds. -/
theorem reaches_fleet {ok : Gateway → Action → Prop} (licence : Fleet → Deed → Prop)
    (hlicence : ∀ g a F d, Reachable D g → ok g a → Explains D g a F d → licence F d)
    (h : ReachableWith D ok g) : Reach (Fleet.machine D.cfg.health) licence g.fleet := by
  refine Reach.simulate (J := fun g => Reachable D g) (fun g hg => hg.any) ?_ ?_ h
  · rintro g ⟨clock, rfl⟩
    exact init_start clock
  · intro g a g' hreach hok hstep
    exact (step_deeds (inv_of_reach hreach) (steps_of_step hstep)).mono
      fun F d hd => hlicence g a F d hreach hok hd

/-- Every run of the gateway is a run of the fleet, so what needs no licence there needs
no guard here. -/
theorem reaches_fleet_any (h : Reachable D g) :
    Reach (Fleet.machine D.cfg.health) anyStep g.fleet :=
  reaches_fleet _ (fun _ _ _ _ _ _ _ => trivial) h

end Gateway

end InferenceGateway
