import InferenceGateway.Fleet.Refinement
import InferenceGateway.Proxy.Writes
import InferenceGateway.Scheduler.Lifecycle

/-!
# Admission: every accepted request lives exactly one life

The queue, the futures and the scheduler are taken out of the gateway here, and
everything else becomes an environment that may accept, withdraw and resume
requests at any time. What is guaranteed in such an environment does not depend
on the proxy or on the upstreams.

- `admission_lifecycle`: in every run of the admission layer in an arbitrary
  environment, an accepted live request is queued exactly once, a future is
  resolved at most once and only while its request may still be dispatched, and
  a tick takes as many slots as it grants futures.
- `Admitted`: the gateway as such an environment. Its queue, futures and history
  are those of some run of the admission layer, and every handler that waits has
  its request among the accepted ones.
- `lifecycle_of_gateway`: this holds in every run of the gateway, step by step.
  A step inside the proxy is one in which nothing of the admission layer changes
  (`Aside`).
- `waiting_queued`: so a handler whose future is unresolved finds its request in
  the queue.
-/

namespace InferenceGateway

open Lib

namespace Lifecycle

variable {cfg : GatewayConfig} {L : Lifecycle}

/-- **Admission lifecycle.** (a) Every accepted request that is neither resolved nor
cancelled is in the queue exactly once. (b) A future is resolved, with a target or an
error, only from unresolved, only once, and for good. (c) A withdrawn request is not
resolved, and (d) one that is granted a target is younger than the age limit. (e) A
tick raises the slots taken by as many as it resolves futures with a target. -/
theorem admission_lifecycle (h : Reach (machine cfg) anyStep L) :
    (∀ p ∈ L.accepted, L.adm.Live p.oid →
      p ∈ L.adm.queue ∧ (L.adm.queue.map (·.oid)).count p.oid = 1) ∧
    (∀ recent past p before value tick,
      L.adm.world.trace = recent ++ .resolved p before value tick :: past →
      before = .unresolved ∧
        (∀ q before' value' tick', .resolved q before' value' tick' ∈ past → q.oid ≠ p.oid) ∧
        .withdrawn p.oid ∉ past ∧
        ((∃ m, value = .scheduleError m) ∨
          ∃ grant, value = .target grant ∧ tick - p.enqueuedAtMonotonic < cfg.maxAgeS)) ∧
    (∀ p before value tick, .resolved p before value tick ∈ L.adm.world.trace →
      L.adm.future p.oid = value) ∧
    (L.adm.schedulerTick cfg).world.totalInflight - L.adm.world.totalInflight =
      ((L.adm.schedulerTick cfg).grants : ℤ) - L.adm.grants := by
  have hsound := sound_of_reach h
  refine ⟨?_, ?_, ?_, ?_⟩
  · intro p hp hlive
    have hmem := (hsound.kept p hp).2 hlive
    exact ⟨hmem, List.count_eq_one_of_mem hsound.once (List.mem_map_of_mem hmem)⟩
  · intro recent past p before value tick hsplit
    have hlawful := hsound.settled.lawful
    rw [hsplit] at hlawful
    exact hlawful.at_split
  · intro p before value tick hmem
    exact (hsound.settled.resolved p before value tick hmem).1
  · have htick := L.adm.surplus_schedulerTick cfg
    unfold Admission.surplus at htick
    omega

/-- `linedUp` after a tick, which rejects request 0 for its age, grants request 1 the
only slot and puts requests 2 and 3 back. -/
def ticked : Lifecycle :=
  { linedUp with adm := linedUp.adm.schedulerTick narrow }

theorem ticked_reachable : Reach (machine narrow) anyStep ticked :=
  linedUp_reachable.step trivial .tick

theorem admission_lifecycle_ticked :
    (ticked.adm.future 0 = .scheduleError "queue age exceeded" ∧
      ticked.adm.future 1 = .target ⟨⟨"gpu-node-1", "http://10.0.0.1:8000"⟩, none⟩ ∧
      ticked.adm.queue.map (·.oid) = [2, 3]) ∧
    (∀ p ∈ ticked.accepted, ticked.adm.Live p.oid →
      p ∈ ticked.adm.queue ∧ (ticked.adm.queue.map (·.oid)).count p.oid = 1) ∧
    (∀ recent past p before value tick,
      ticked.adm.world.trace = recent ++ .resolved p before value tick :: past →
      before = .unresolved ∧
        (∀ q before' value' tick', .resolved q before' value' tick' ∈ past → q.oid ≠ p.oid) ∧
        .withdrawn p.oid ∉ past ∧
        ((∃ m, value = .scheduleError m) ∨
          ∃ grant, value = .target grant ∧ tick - p.enqueuedAtMonotonic < narrow.maxAgeS)) ∧
    (∀ p before value tick, .resolved p before value tick ∈ ticked.adm.world.trace →
      ticked.adm.future p.oid = value) ∧
    (ticked.adm.schedulerTick narrow).world.totalInflight - ticked.adm.world.totalInflight =
      ((ticked.adm.schedulerTick narrow).grants : ℤ) - ticked.adm.grants :=
  ⟨by decide +kernel, admission_lifecycle ticked_reachable⟩

end Lifecycle

namespace Gateway

variable {D : Deployment} {g g' : Gateway} {a : Action} {r : ReqId}

open Admission (Aside aside_of_quiet)

/-- Calling the proxy writes nothing about the life of the request. -/
theorem aside_start {w : World} {p : PendingRequest} {initial : Lease} :
    Aside w (Proxy.start D w p initial).1 :=
  (World.Writes.emit rfl).trans (aside_of_quiet Proxy.quiet_start)

theorem aside_fallbackOrReject {w : World} {p : PendingRequest} {reason : RejectionReason}
    {message : Option String} : Aside w (fallbackOrReject D w p reason message).1 := by
  exact fallbackOrReject_rule (P := fun next => Aside w next.1)
    (fun _ _ => (World.Writes.emit rfl).trans aside_start)
      ((World.Writes.emit rfl).trans (.emit rfl))

/-- A handler in the proxy does not wait. -/
theorem waiting_of_put {r' : ReqId} {p q : PendingRequest} {result : World × Handler}
    (hent : result.2.Entered q) (h : (g.put r result).handler r' = .waiting p) :
    r' ≠ r ∧ g.handler r' = .waiting p := by
  by_cases hr : r' = r
  · subst hr
    exact absurd (by simpa [Gateway.put] using h) (Handler.not_waiting_of_entered hent).1
  · exact ⟨hr, by simpa [Gateway.put, hr] using h⟩

/-- What the admission layer knows of the gateway. -/
def Admitted (D : Deployment) (g : Gateway) (accepted : List PendingRequest) : Prop :=
  Reach (Lifecycle.machine D.cfg) anyStep ⟨g.adm, g.arrived, accepted⟩ ∧
    ∀ r p, g.handler r = .waiting p → p ∈ accepted ∧ g.adm.cancelled r = false

/-- Steps inside the proxy are environment to the admission layer. -/
theorem Admitted.put {accepted : List PendingRequest} (h : Admitted D g accepted)
    {p : PendingRequest} {result : World × Handler} (haside : Aside g.world result.1)
    (hent : result.2.Entered p) : Admitted D (g.put r result) accepted := by
  refine ⟨h.1.step trivial (.elsewhere haside), fun r' q hq => ?_⟩
  exact h.2 r' q (waiting_of_put hent hq).2

theorem Admitted.arrive {accepted : List PendingRequest} (h : Admitted D g accepted)
    (sub : Submission) : ∃ accepted', Admitted D (g.arrive D sub) accepted' := by
  obtain ⟨hreach, hwaiting⟩ := h
  have hfresh := (Lifecycle.sound_of_reach hreach).fresh g.arrived (le_refl _)
  have hworld : Aside g.world g.arrivalWorld :=
    (World.Writes.readClock g.world).trans (.emit rfl)
  by_cases hfull : D.cfg.scheduler.queueMaxSize ≤ (g.adm.queue.length : ℤ)
  · rw [arrive_full hfull]
    have hnone : AdmissionQueue.enqueue D.cfg.scheduler.queueMaxSize g.adm.queue
        (g.newRequest sub) = none := if_pos hfull
    have hrefused := hreach.step trivial (.refused (p := g.newRequest sub) rfl hnone)
    have hcounted : Admitted D { g with arrived := g.arrived + 1 } accepted :=
      ⟨hrefused, hwaiting⟩
    exact ⟨accepted, hcounted.put (hworld.trans aside_fallbackOrReject) fallbackOrReject_entered⟩
  · rw [arrive_accepted (not_le.mp hfull)]
    have hsome : AdmissionQueue.enqueue D.cfg.scheduler.queueMaxSize g.adm.queue
        (g.newRequest sub) = some (g.adm.queue ++ [g.newRequest sub]) := if_neg hfull
    -- time passes first, then the queue takes the request
    have hread := hreach.step trivial (.elsewhere hworld)
    refine ⟨g.newRequest sub :: accepted,
      hread.step trivial (.accepted (p := g.newRequest sub) rfl hsome), fun r p hp => ?_⟩
    by_cases hr : r = g.arrived
    · subst hr
      obtain rfl : g.newRequest sub = p := by simpa using hp
      exact ⟨List.mem_cons_self .., hfresh.2⟩
    · obtain ⟨hmem, hcancelled⟩ := hwaiting r p (by simpa [hr] using hp)
      exact ⟨List.mem_cons_of_mem _ hmem, hcancelled⟩

theorem Admitted.step {accepted : List PendingRequest} (h : Admitted D g accepted) (hinv : g.Inv)
    (hs : Steps D g a g') : ∃ accepted', Admitted D g' accepted' := by
  cases hs with
  | arrive sub => exact h.arrive sub
  | tick =>
    refine ⟨accepted, h.1.step trivial .tick, fun r p hp => ?_⟩
    obtain ⟨hmem, hcancelled⟩ := h.2 r p hp
    exact ⟨hmem, (congrFun Admission.schedulerTick_cancelled r).trans hcancelled⟩
  | @timer r p hp =>
    refine ⟨accepted, h.1.step trivial (.cancel (hinv.lt_arrived (by simp [hp]))), ?_⟩
    intro r' q hq
    by_cases hr : r' = r
    · subst hr
      rw [fireTimer_handler_self] at hq
      cases hq
    · rw [fireTimer_handler_of_ne hr] at hq
      exact h.2 r' q hq
  | @timedOut r p hp =>
    have hwithdrawn := h.1.step trivial (.withdraw (r := r) (hinv.lt_arrived (by simp [hp])))
    -- the end of a lost attempt is no business of the admission layer
    have hlost : Aside (g.world.emit (.withdrawn r)) (g.withdraw r) := by
      rcases g.withdraw_cases r with ⟨grant, -, heq⟩ | ⟨-, heq⟩ <;> rw [heq]
      · exact .emit rfl
      · exact .refl _
    refine ⟨accepted, hwithdrawn.step trivial (.elsewhere (hlost.trans aside_fallbackOrReject)), ?_⟩
    intro r' q hq
    obtain ⟨hne, hq⟩ := waiting_of_put (g := { g with adm := { g.adm with
      cancelled := Function.update g.adm.cancelled r true } }) fallbackOrReject_entered hq
    obtain ⟨hmem, hcancelled⟩ := h.2 r' q hq
    exact ⟨hmem, (Function.update_of_ne hne ..).trans hcancelled⟩
  | granted hp hf => exact ⟨accepted, h.put aside_start Proxy.start_entered⟩
  | rejected hp hf => exact ⟨accepted, h.put aside_fallbackOrReject fallbackOrReject_entered⟩
  | upstream o hc =>
    exact ⟨accepted, h.put (aside_of_quiet Proxy.quiet_onUpstream) Proxy.onUpstream_entered⟩
  | drained o hc =>
    exact ⟨accepted, h.put (aside_of_quiet Proxy.quiet_onDrained) Proxy.onDrained_entered⟩
  | @streamStart r c hc =>
    exact ⟨accepted, h.put (p := c.pending) (.ofTrace rfl) rfl⟩
  | streamEnd e acloseRaises hc =>
    exact ⟨accepted, h.put (aside_of_quiet Proxy.inner_onStreamEnd.quiet) Proxy.onStreamEnd_entered⟩
  | @streamDropped r c hc =>
    exact ⟨accepted, h.put (p := c.pending) (aside_of_quiet World.inner_endAttempt.quiet) trivial⟩

/-- **The gateway's runs are runs of the admission layer**, and waiting handlers wait
for accepted requests that have not been withdrawn. -/
theorem lifecycle_of_gateway (h : Reachable D g) : ∃ accepted, Admitted D g accepted := by
  refine invariantOf (I := fun g => ∃ accepted, Admitted D g accepted) ?_ ?_ h
  · exact fun clock => ⟨[], .start ⟨rfl, fun _ => rfl, fun _ => rfl, rfl, rfl, rfl⟩,
      fun r p hp => by cases hp⟩
  · rintro g a g' hinv ⟨accepted, hadm⟩ _ hs
    exact hadm.step hinv hs

/-- A handler whose future is unresolved has its request in the queue, once. -/
theorem waiting_queued (h : Reachable D g) {p : PendingRequest} (hp : g.handler r = .waiting p)
    (hf : g.adm.future r = .unresolved) :
    p ∈ g.adm.queue ∧ (g.adm.queue.map (·.oid)).count r = 1 := by
  obtain ⟨accepted, hreach, hwaiting⟩ := lifecycle_of_gateway h
  obtain ⟨hmem, hcancelled⟩ := hwaiting r p hp
  have hsound := Lifecycle.sound_of_reach hreach
  obtain rfl : p.oid = r := (inv_of_reach h).owner r p (by rw [hp]; rfl)
  have hqueued := (hsound.kept p hmem).2 ⟨hcancelled, hf⟩
  exact ⟨hqueued, List.count_eq_one_of_mem hsound.once (List.mem_map_of_mem hqueued)⟩

end Gateway

end InferenceGateway
