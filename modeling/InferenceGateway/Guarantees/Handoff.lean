import InferenceGateway.Guarantees.Admission

/-!
# Hand-off: from the scheduler to the proxy

The scheduler takes a slot and resolves the future of the request; the handler
of the request, once it resumes, is to take the slot over. In between lies an
await: the slot belongs to nobody's call yet, and a timer that fires then
cancels the wait. `disposals` is what the route does with a request: it calls
the proxy under a lease, or answers 503.

- `Disposed`: while a request waits nothing has been done for it; once it is
  inside the proxy with a grant, one thing has been done, and that is to call
  the proxy under the grant. One lemma for each kind of step keeps it, all but
  the timer without a condition.
- `handoff`: a granted request is still waiting, or the route has done one thing
  with it, to call the proxy under the grant. The condition is that no
  `wait_for` timer fires once the future has its target.
- `handoff_lost`: the run in which it does.
-/

namespace InferenceGateway

open Lib

/-- What the route does with a request. -/
inductive Disposal where
  | proxied (initial : Lease)
  | refused (reason : RejectionReason)
  deriving DecidableEq, Repr

/-- What the event says the route does with `r`. -/
def Event.disposal (r : ReqId) : Event → Option Disposal
  | proxied r' initial => if r' = r then some (.proxied initial) else none
  | refused r' reason => if r' = r then some (.refused reason) else none
  | _ => none

/-- What the route has done with `r`, newest first. -/
def World.disposals (w : World) (r : ReqId) : List Disposal :=
  w.trace.filterMap (Event.disposal r)

section Disposals

variable {D : Deployment} {w w' : World} {r : ReqId} {p : PendingRequest} {initial : Lease}

theorem disposals_emit {e : Event} :
    (w.emit e).disposals r = (e.disposal r).toList ++ w.disposals r := by
  show (e :: w.trace).filterMap (Event.disposal r) = _
  cases h : e.disposal r <;> simp [h, World.disposals]

/-- What is quiet about requests disposes of none. -/
theorem disposals_quiet (h : World.Quiet w w') : w'.disposals r = w.disposals r := by
  refine h.filterMap fun e he => ?_
  cases e <;> simp_all [Event.handover, Event.disposal]

/-- A call of the proxy disposes of its own request. -/
theorem disposals_start :
    (Proxy.start D w p initial).1.disposals r =
      (if p.oid = r then [.proxied initial] else []) ++ w.disposals r := by
  rw [disposals_quiet Proxy.quiet_start, disposals_emit]
  by_cases hr : p.oid = r <;> simp [Event.disposal, hr]

/-- Turning a request away is no matter of any other. -/
theorem disposals_fallbackOrReject_of_ne {reason : RejectionReason} {message : Option String}
    (hne : r ≠ p.oid) :
    (Gateway.fallbackOrReject D w p reason message).1.disposals r = w.disposals r := by
  refine Gateway.fallbackOrReject_rule (P := fun next => next.1.disposals r = w.disposals r)
    (fun t _ => ?_) ?_
  · rw [disposals_start, if_neg (Ne.symm hne), disposals_emit]
    rfl
  · rw [disposals_emit, disposals_emit]
    simp [Event.disposal, Ne.symm hne]

end Disposals

/-! ## The scheduler leaves disposals alone -/

namespace Admission

variable {cfg : GatewayConfig} {now : ℚ} {p : PendingRequest} {A : Admission} {r : ReqId}

theorem disposals_dispatchOne :
    (dispatchOne cfg now p A).1.world.disposals r = A.world.disposals r := by
  rcases dispatchOne_cases cfg now p A with
    ⟨-, heq⟩ | ⟨-, -, heq⟩ | ⟨-, -, -, heq⟩ | ⟨-, -, chosen, -, heq⟩
  · rw [heq]
  · rw [heq]
    rfl
  · rw [heq]
    exact disposals_quiet inner_search.quiet
  · rw [heq]
    exact disposals_emit.trans (disposals_quiet
      (inner_search.quiet.trans World.inner_takeSlot.quiet))

theorem disposals_schedulerTick (cfg : GatewayConfig) (A : Admission) (r : ReqId) :
    (schedulerTick cfg A).world.disposals r = A.world.disposals r := by
  unfold schedulerTick
  refine dispatchTick_rule (I := fun B => B.world.disposals r = A.world.disposals r)
    (fun _ _ hB => hB) (fun _ hB => hB) (fun _ _ _ hB => disposals_dispatchOne.trans hB) ?_
  exact disposals_quiet (World.inner_tickCircuits cfg.health A.world).quiet

end Admission

namespace Gateway

variable {D : Deployment} {g g' : Gateway} {a : Action} {r : ReqId}

/-- What the route has done with `r`, newest first. -/
abbrev disposals (g : Gateway) (r : ReqId) : List Disposal := g.world.disposals r

/-- No timer fires on a future that has its target. -/
def OnTime (g : Gateway) (a : Action) : Prop :=
  ∀ r grant, a = .timer r → g.adm.future r ≠ .target grant

/-- The invariant of the hand-off of `r`. -/
structure Disposed (g : Gateway) (r : ReqId) : Prop where
  /-- Before the handler has resumed nothing has been done with the request. -/
  waiting : (∀ p, ¬ (g.handler r).Entered p) → g.disposals r = []
  ungranted : g.handler r = .absent ∨ (∃ p, g.handler r = .expired p) →
    ∀ grant, g.adm.future r ≠ .target grant
  taken : ∀ p, (g.handler r).Entered p → ∀ grant, g.adm.future r = .target grant →
    g.disposals r = [.proxied (.granted grant)]

/-- Running the handler of another request. -/
theorem Disposed.put_of_ne {r₀ : ReqId} {result : World × Handler} (h : g.Disposed r)
    (hne : r ≠ r₀) (hsame : result.1.disposals r = g.disposals r) :
    (g.put r₀ result).Disposed r := by
  have hhandler : (g.put r₀ result).handler r = g.handler r := put_handler_of_ne hne
  constructor
  · intro hout
    rw [hhandler] at hout
    exact hsame.trans (h.waiting hout)
  · intro hout
    rw [hhandler] at hout
    exact h.ungranted hout
  · intro p hp grant hf
    rw [hhandler] at hp
    exact hsame.trans (h.taken p hp grant hf)

/-- Running the handler of `r` itself, into the proxy. -/
theorem Disposed.put_self {result : World × Handler} {p : PendingRequest}
    (hent : result.2.Entered p)
    (htaken : ∀ grant, g.adm.future r = .target grant →
      result.1.disposals r = [.proxied (.granted grant)]) : (g.put r result).Disposed r := by
  have hhandler : (g.put r result).handler r = result.2 := put_handler_self
  constructor
  · intro hout
    rw [hhandler] at hout
    exact absurd hent (hout p)
  · rintro (habsent | ⟨q, hq⟩)
    · rw [hhandler] at habsent
      rw [habsent] at hent
      cases hent
    · rw [hhandler] at hq
      exact absurd hq (Handler.not_waiting_of_entered hent).2
  · intro _ _ grant hf
    exact htaken grant hf

/-- A handler inside the proxy moves on, and writes nothing of the hand-over. -/
theorem Disposed.inside {r₀ : ReqId} {result : World × Handler} {c : ProxyCall}
    (h : g.Disposed r) (hin : (g.handler r₀).Entered c.pending)
    (hent : result.2.Entered c.pending) (hquiet : World.Quiet g.world result.1) :
    (g.put r₀ result).Disposed r := by
  have hsame : result.1.disposals r = g.disposals r := disposals_quiet hquiet
  by_cases hne : r = r₀
  · subst hne
    exact .put_self hent fun grant hf => hsame.trans (h.taken _ hin grant hf)
  · exact h.put_of_ne hne hsame

/-- A request arrives, and waits or is turned away. -/
theorem Disposed.arrive (h : g.Disposed r) (hinv : g.Inv) (sub : Submission) :
    (g.arrive D sub).Disposed r := by
  have hworld : g.arrivalWorld.disposals r = g.disposals r :=
    disposals_emit.trans (disposals_quiet (.readClock g.world))
  obtain ⟨habsent, hunresolved⟩ := hinv.fresh g.arrived (le_refl _)
  by_cases hfull : D.cfg.scheduler.queueMaxSize ≤ (g.adm.queue.length : ℤ)
  · rw [arrive_full hfull]
    have hcounted : ({ g with arrived := g.arrived + 1 } : Gateway).Disposed r :=
      ⟨h.waiting, h.ungranted, h.taken⟩
    by_cases hne : r = g.arrived
    · subst hne
      refine .put_self (p := g.newRequest sub) fallbackOrReject_entered fun grant hf => ?_
      -- nobody has resolved the future of a request that arrives only now
      cases hunresolved.symm.trans hf
    · exact hcounted.put_of_ne hne ((disposals_fallbackOrReject_of_ne hne).trans hworld)
  · rw [arrive_accepted (not_le.mp hfull)]
    by_cases hne : r = g.arrived
    · subst hne
      have hnone : g.disposals g.arrived = [] := h.waiting (by simp [habsent, Handler.Entered])
      refine ⟨fun _ => hworld.trans hnone, fun hout => ?_, fun p hp => ?_⟩
      · simp at hout
      · simp [Handler.Entered] at hp
    · refine ⟨?_, ?_, ?_⟩
      · intro hout
        exact hworld.trans (h.waiting (by simpa [hne] using hout))
      · intro hout
        exact h.ungranted (by simpa [hne] using hout)
      · intro p hp grant hf
        exact hworld.trans (h.taken p (by simpa [hne] using hp) grant hf)

/-- A tick resolves futures of waiting handlers only, so that the requests which are
disposed of keep what they have. -/
theorem Disposed.tick (h : g.Disposed r) (hinv : g.Inv) :
    ({ g with adm := g.adm.schedulerTick D.cfg } : Gateway).Disposed r := by
  have hsame := g.adm.disposals_schedulerTick D.cfg r
  have hfuture := g.adm.schedulerTick_future D.cfg r
  refine ⟨fun hout => hsame.trans (h.waiting hout), ?_, ?_⟩
  -- a tick grants only what is queued
  · intro hout grant hf
    rcases hfuture with heq | ⟨⟨q, hq, rfl⟩, hun, -⟩
    · exact h.ungranted hout grant (heq.symm.trans hf)
    · -- resolved in this tick, so it was queued and its handler waits
      have hwait := (hinv.queued q hq).2 hun
      simp [hwait] at hout
  · intro p hp grant hf
    rcases hfuture with heq | ⟨⟨q, hq, rfl⟩, hun, -⟩
    · exact hsame.trans (h.taken p hp grant (heq.symm.trans hf))
    · have hwait := (hinv.queued q hq).2 hun
      exact absurd hwait (Handler.not_waiting_of_entered hp).1

/-- The timer of a request fires before its future has a target. The handler will
withdraw the request, which nobody has disposed of yet. -/
theorem Disposed.fireTimer (h : g.Disposed r) {r₀ : ReqId} {p : PendingRequest}
    (hp : g.handler r₀ = .waiting p) (hok : ∀ grant, g.adm.future r₀ ≠ .target grant) :
    (g.fireTimer r₀ p).Disposed r := by
  by_cases hne : r = r₀
  · subst hne
    refine ⟨fun _ => h.waiting (by simp [hp, Handler.Entered]), ?_, ?_⟩
    · -- a done future keeps what it has, and that is no target
      intro _ grant hf
      rw [Gateway.fireTimer_future_self] at hf
      split at hf
      · exact hok grant hf
      · cases hf
    · intro q hq
      exact absurd Gateway.fireTimer_handler_self (Handler.not_waiting_of_entered hq).2
  · have hhandler : (g.fireTimer r₀ p).handler r = g.handler r := fireTimer_handler_of_ne hne
    have hfuture : (g.fireTimer r₀ p).adm.future r = g.adm.future r := fireTimer_future_of_ne hne
    refine ⟨?_, ?_, ?_⟩
    · intro hout
      rw [hhandler] at hout
      exact h.waiting hout
    · intro hout
      rw [hhandler] at hout
      rw [hfuture]
      exact h.ungranted hout
    · intro q hq
      rw [hhandler] at hq
      rw [hfuture]
      exact h.taken q hq

/-- A handler whose wait timed out takes the rejection branch, and was granted
nothing. -/
theorem Disposed.onTimeout (h : g.Disposed r) {p : PendingRequest}
    (hp : g.handler p.oid = .expired p) : (g.onTimeout D p.oid p).Disposed r := by
  have hflag : ({ g with adm := { g.adm with
      cancelled := Function.update g.adm.cancelled p.oid true } } : Gateway).Disposed r :=
    ⟨h.waiting, h.ungranted, h.taken⟩
  by_cases hne : r = p.oid
  · subst hne
    -- an expired handler was never granted a target, so there is none to lose
    refine .put_self (p := p) fallbackOrReject_entered fun grant hf => ?_
    exact absurd hf (h.ungranted (.inr ⟨p, hp⟩) grant)
  · refine hflag.put_of_ne hne ((disposals_fallbackOrReject_of_ne hne).trans ?_)
    rcases g.withdraw_cases p.oid with ⟨grant, -, heq⟩ | ⟨-, heq⟩ <;> rw [heq] <;> rfl

/-- **Step lemma.** Every step but a timer keeps it as it is; a timer is under the
guard. -/
theorem Disposed.step (h : g.Disposed r) (hinv : g.Inv) (hok : g.OnTime a)
    (hs : Steps D g a g') : g'.Disposed r := by
  cases hs with
  | arrive sub => exact h.arrive hinv sub
  | tick => exact h.tick hinv
  | @timer r₀ p hp => exact h.fireTimer hp fun grant => hok r₀ grant rfl
  | @granted r₀ p grant hp hf =>
    obtain rfl : p.oid = r₀ := hinv.owner r₀ p (by rw [hp]; rfl)
    by_cases hne : r = p.oid
    · subst hne
      have hnone : g.disposals p.oid = [] := h.waiting (by simp [hp, Handler.Entered])
      refine .put_self Proxy.start_entered fun grant' hf' => ?_
      cases hf.symm.trans hf'
      -- the grant found in the future is the one the proxy is called under
      rw [disposals_start, if_pos rfl]
      exact congrArg ([Disposal.proxied (.granted grant)] ++ ·) hnone
    · refine h.put_of_ne hne ?_
      rw [disposals_start, if_neg (Ne.symm hne)]
      rfl
  | @rejected r₀ p m hp hf =>
    obtain rfl : p.oid = r₀ := hinv.owner r₀ p (by rw [hp]; rfl)
    by_cases hne : r = p.oid
    · subst hne
      refine .put_self fallbackOrReject_entered fun grant hf' => ?_
      cases hf.symm.trans hf'
    · exact h.put_of_ne hne (disposals_fallbackOrReject_of_ne hne)
  | @timedOut r₀ p hp =>
    obtain rfl : p.oid = r₀ := hinv.owner r₀ p (by rw [hp]; rfl)
    exact h.onTimeout hp
  | upstream o hc =>
    exact h.inside (by rw [hc]; rfl) Proxy.onUpstream_entered Proxy.quiet_onUpstream
  | drained o hc => exact h.inside (by rw [hc]; rfl) Proxy.onDrained_entered Proxy.quiet_onDrained
  | @streamStart r₀ c hc => exact h.inside (c := c) (by rw [hc]; rfl) rfl (.ofTrace rfl)
  | streamEnd e acloseRaises hc =>
    exact h.inside (by rw [hc]; rfl) Proxy.onStreamEnd_entered Proxy.inner_onStreamEnd.quiet
  | @streamDropped r₀ c hc =>
    exact h.inside (c := c) (by rw [hc]; rfl) trivial World.inner_endAttempt.quiet

/-- **Run lemma.** In every guarded run each request has been disposed of as its future
says. -/
theorem disposed_of_reach (h : ReachableWith D OnTime g) : g.Disposed r := by
  refine invariantOf (I := fun g => g.Disposed r) ?_ ?_ h
  · exact fun clock => ⟨fun _ => rfl, fun _ _ => Future.noConfusion, fun p hp => by cases hp⟩
  · exact fun g a g' hinv hdisposed hok hs => hdisposed.step hinv hok hs

/-- **Hand-off.** In every run in which no timer fires on a future that has its
target, a request the scheduler granted a slot still waits, holds the slot and has had
nothing done for it, or it has been handed to the proxy under that grant, once, and
neither to the fallback nor a 503. -/
theorem handoff (h : ReachableWith D OnTime g) {p : PendingRequest} {before : Future}
    {grant : Grant} {tick : ℚ} (hgrant : .resolved p before (.target grant) tick ∈ g.trace) :
    (∃ q, g.handler p.oid = .waiting q ∧
        g.fleet.held p.oid = some ⟨grant, q.classify.reqClass, false⟩ ∧ g.disposals p.oid = []) ∨
      g.disposals p.oid = [.proxied (.granted grant)] := by
  obtain ⟨accepted, hreach, -⟩ := lifecycle_of_gateway h.any
  have hfuture : g.adm.future p.oid = .target grant :=
    ((Lifecycle.sound_of_reach hreach).settled.resolved p before _ tick hgrant).1
  have hdisposed := disposed_of_reach (r := p.oid) h
  -- by where the handler is: still waiting, with the slot in hand, or in the proxy
  cases hh : g.handler p.oid with
  | absent => exact absurd hfuture (hdisposed.ungranted (.inl hh) grant)
  | waiting q =>
    have hslot : g.slotOf p.oid = some ⟨grant, q.classify.reqClass, false⟩ := by
      rw [slotOf, hh, hfuture]
      rfl
    exact .inl ⟨q, rfl, hslot, hdisposed.waiting (by simp [hh, Handler.Entered])⟩
  | expired q => exact absurd hfuture (hdisposed.ungranted (.inr ⟨q, hh⟩) grant)
  | sending c => exact .inr (hdisposed.taken c.pending (by rw [hh]; rfl) grant hfuture)
  | draining c status => exact .inr (hdisposed.taken c.pending (by rw [hh]; rfl) grant hfuture)
  | relaying c t => exact .inr (hdisposed.taken c.pending (by rw [hh]; rfl) grant hfuture)
  | streamed closed => exact .inr (hdisposed.taken p (by rw [hh]; trivial) grant hfuture)
  | replied reply => exact .inr (hdisposed.taken p (by rw [hh]; trivial) grant hfuture)

/-- The guard as a run can check it. -/
def onTime (g : Gateway) : Action → Bool
  | .timer r =>
    match g.adm.future r with
    | .target _ => false
    | _ => true
  | _ => true

theorem onTime_sound {a : Action} (h : onTime g a = true) : OnTime g a := by
  rintro r grant rfl hf
  simp [onTime, hf] at h

/-- The timer of the first of two requests fires before the tick, which skips it and dispatches
the second one. Both handlers resume. -/
def takenOver : Option Gateway :=
  runGuarded (step lone) (fun g a => onTime g a = true) (init lone still)
    [.arrive (chat false), .arrive (chat false), .timer 0, .tick, .resume 0, .resume 1]

theorem handoff_takenOver : ∃ g p before grant tick, takenOver = some g ∧
    g.disposals 0 = [.refused .queueAge] ∧
    .resolved p before (.target grant) tick ∈ g.trace ∧
    ((∃ q, g.handler p.oid = .waiting q ∧
        g.fleet.held p.oid = some ⟨grant, q.classify.reqClass, false⟩ ∧ g.disposals p.oid = []) ∨
      g.disposals p.oid = [.proxied (.granted grant)]) := by
  have hrun : takenOver.any (fun g =>
      g.disposals 0 = [.refused .queueAge] ∧ g.trace.any Event.isGrant = true) = true := by
    decide +kernel
  obtain ⟨g, hg, hboth⟩ := (Option.any_eq_true ..).mp hrun
  obtain ⟨hrefused, hany⟩ := of_decide_eq_true hboth
  obtain ⟨e, he, hgrant⟩ := List.any_eq_true.mp hany
  have hguarded : ReachableWith lone (fun g a => onTime g a = true) g :=
    reach_runGuarded (.start ⟨_, rfl⟩) hg
  have hreach : ReachableWith lone OnTime g := hguarded.mono fun _ _ hok => onTime_sound hok
  cases e with
  | resolved p before value tick =>
    cases value with
    | target grant => exact ⟨g, p, before, grant, tick, hg, hrefused, he, handoff hreach he⟩
    | _ => cases hgrant
  | _ => cases hgrant

/-- The timer fires after the scheduler has set the future and before the handler
resumes: the client gets a 503, and the slot stays taken with nobody holding it. -/
theorem handoff_lost : ∃ g, Reachable lone g ∧ g.adm.grants = 1 ∧
    g.disposals 0 = [.refused .queueAge] ∧ g.fleet.heldOn "gpu-node-1" = 0 ∧
    (g.row "gpu-node-1").inflight = 1 := by
  refine exists_reachable still [.arrive (chat false), .tick, .timer 0, .resume 0] ?_
  decide +kernel

end Gateway

end InferenceGateway
