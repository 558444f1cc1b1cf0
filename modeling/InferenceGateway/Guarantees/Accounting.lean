import InferenceGateway.Guarantees.Handoff
import InferenceGateway.Guarantees.Resends
import Mathlib.Algebra.BigOperators.Group.Finset.Basic

/-!
# The counters agree

What the gateway counts is compared with what it did. The metrics are written in
a dozen places, next to the deeds they count, in tasks that interleave; so a
statement about a counter is a statement about all of these places at once. It
is proved once.

Events carry weights, and a weighting is `Balanced` if the events that one piece
of code writes together weigh nothing; what a run has written then weighs as
much as its arrivals (`weigh_of_reach`), however its tasks interleaved. A
relation between two counters is a weighting that gives the one +1 and the other
-1 (`Event.against`), and proving the relation is showing that weighting
balanced, one field for each piece of code.

- `disposed_once`: a request is turned away or handed to the proxy once, when
  its handler stops waiting, and not before.
- `counters_agree`: requests, fallbacks, rejections and errors.
-/

namespace InferenceGateway

open Lib

/-- A weighting of events that is even wherever the code writes several of them at once;
`names` are the registered backends. -/
structure Balanced (names : List String) (f : Event → ℤ) : Prop where
  slot : ∀ e, e.ofSlot = true → f e = 0 := by
    intro e he
    cases e <;> first | rfl | cases he
  success : ∀ b, f (.sampled b false) = 0 := by intros; rfl
  failure : ∀ b ∈ names, f (.errorsTotal b) + f (.sampled b true) = 0 := by intros; rfl
  /-- Errors of the fallback provider are counted, but it has no row to sample. -/
  stray : ∀ b, b ∉ names → f (.errorsTotal b) = 0 := by intros; rfl
  target : ∀ p before g tick, f (.resolved p before (.target g) tick) = 0 := by intros; rfl
  expired : ∀ p before m tick,
    f (.resolved p before (.scheduleError m) tick) + f (.rejectionsTotal .queueAge) = 0 := by
    intros; rfl
  withdrawn : ∀ r, f (.withdrawn r) = 0 := by intros; rfl
  granted : ∀ r g, f (.proxied r (.granted g)) = 0 := by intros; rfl
  fallback : ∀ r t, f .fallbackTotal + f (.proxied r (.fallback t)) = 0 := by intros; rfl
  refused : ∀ r reason, f (.rejectionsTotal reason) + f (.refused r reason) = 0 := by intros; rfl
  retried : f .retriesTotal = 0 := by rfl

namespace World

variable {names : List String} {f : Event → ℤ} {w w' : World} {b : String} {e : Event}

/-- What the history weighs. -/
def weigh (f : Event → ℤ) (w : World) : ℤ := (w.trace.map f).sum

/-- An event adds its weight. -/
theorem weigh_emit : (w.emit e).weigh f = f e + w.weigh f := List.sum_cons

theorem weigh_readClock : w.readClock.weigh f = w.weigh f := rfl

/-- Taking, judging and giving back a slot weighs nothing. -/
theorem weigh_slotWrites (hf : Balanced names f) (h : SlotWrites w w') :
    w'.weigh f = w.weigh f := by
  obtain ⟨new, htrace, hnew⟩ := h
  have hzero : (new.map f).sum = 0 := by
    refine List.sum_eq_zero fun x hx => ?_
    obtain ⟨e, he, rfl⟩ := List.mem_map.mp hx
    exact hf.slot e (hnew e he)
  rw [weigh, htrace, List.map_append, List.sum_append, hzero, zero_add, weigh]

theorem weigh_modify {g : BackendRuntimeState → BackendRuntimeState} :
    (w.modify b g).weigh f = w.weigh f := by
  unfold modify
  split <;> rfl

theorem weigh_recordSuccess (hf : Balanced names f) {probe : Option ℕ} {ttftMs : Option ℚ}
    {e2eMs : ℚ} : (w.recordSuccess b probe ttftMs e2eMs).weigh f = w.weigh f := by
  unfold recordSuccess
  split
  · rw [weigh_emit, hf.success, zero_add, weigh_modify]
    exact weigh_slotWrites hf slotWrites_moveCircuit
  · rfl

theorem weigh_sampleStream (hf : Balanced names f) {e2eMs : ℚ} :
    (w.sampleStream b e2eMs).weigh f = w.weigh f := by
  unfold sampleStream
  split
  · rw [weigh_emit, hf.success, zero_add, weigh_modify]
  · rfl

/-- A failure sample weighs against the error that is counted with it. -/
theorem weigh_sampleFailure (hf : Balanced w.names f) :
    f (.errorsTotal b) + (w.sampleFailure b).weigh f = w.weigh f := by
  unfold sampleFailure
  split
  · rename_i hb
    rw [weigh_emit, weigh_modify, ← add_assoc, hf.failure b hb, zero_add]
  · rename_i hb
    rw [hf.stray b hb, zero_add]

/-- A recorded failure weighs against the error that is counted with it: the caller
counts the error, and the sample is written here. -/
theorem weigh_recordFailure {health : HealthConfig} {probe : Option ℕ} (hf : Balanced w.names f) :
    f (.errorsTotal b) + (w.recordFailure health b probe).weigh f = w.weigh f := by
  have hmoved : SlotWrites w (w.readClock.moveCircuit b
      (Health.onFailure health w.readClock.clock.now) (.failure probe)) :=
    slotWrites_moveCircuit (w := w.readClock)
  unfold recordFailure
  rw [weigh_sampleFailure (by rwa [names, moveCircuit_names])]
  exact weigh_slotWrites hf hmoved

theorem weigh_recordErrorStatus {health : HealthConfig} {probe : Option ℕ} {status : ℤ}
    (hf : Balanced w.names f) :
    f (.errorsTotal b) + (w.recordErrorStatus health b probe status).weigh f = w.weigh f := by
  unfold recordErrorStatus
  split
  · exact weigh_recordFailure hf
  · exact weigh_sampleFailure hf

end World

namespace Proxy

open World

variable {names : List String} {f : Event → ℤ} {D : Deployment} {w : World} {c : ProxyCall}
  {status : ℤ} {e : UpstreamError}

theorem weigh_accountErrorStatus (hf : Balanced w.names f) :
    (accountErrorStatus D w c status).weigh f = w.weigh f :=
  weigh_emit.trans (weigh_recordErrorStatus hf)

theorem weigh_accountTransportError (hf : Balanced w.names f) :
    (accountTransportError D w c).weigh f = w.weigh f := by
  have hsample : f (.errorsTotal c.target.name) + (accountTransportError D w c).weigh f =
      (w.emit (.errorsTotal c.target.name)).weigh f :=
    weigh_recordFailure (w := w.emit (.errorsTotal c.target.name)) hf
  rw [weigh_emit] at hsample
  exact add_left_cancel hsample

/-- A call of the proxy is entered as such, and the rest of its start weighs nothing. -/
theorem weigh_start (hf : Balanced names f) {p : PendingRequest} {initial : Lease} :
    (start D w p initial).1.weigh f = f (.proxied p.oid initial) + w.weigh f :=
  (weigh_slotWrites hf slotWrites_beginAttempt).trans weigh_emit

/-- The tail of a failed attempt weighs nothing, whichever way it goes. -/
theorem weigh_retryOrGiveUp (hf : Balanced names f) {retry : Bool} {how : Ending} {final : Reply} :
    (retryOrGiveUp D w c retry how final).1.weigh f = w.weigh f := by
  have hgive : (giveBack w c how).weigh f = w.weigh f := by
    rw [weigh_slotWrites hf slotWrites_giveBack, weigh_emit, hf.retried, zero_add]
  have hpick : (pickRetryTarget D.cfg (giveBack w c how) c.reqClass c.target.name).1.weigh f =
      w.weigh f := (weigh_slotWrites hf slotWrites_pickRetryTarget).trans hgive
  rcases retryOrGiveUp_cases D w c retry how final with
    ⟨-, h⟩ | ⟨-, -, h⟩ | ⟨-, grant, -, h⟩ <;> rw [h]
  · exact weigh_slotWrites hf (slotWrites_releaseDispatch.trans slotWrites_endAttempt)
  · exact (weigh_slotWrites hf slotWrites_releaseDispatch).trans hpick
  · exact (weigh_slotWrites hf slotWrites_beginAttempt).trans hpick

theorem weigh_onTransportError (hf : Balanced w.names f) :
    (onTransportError D w c e).1.weigh f = w.weigh f := by
  unfold onTransportError
  exact (weigh_retryOrGiveUp hf).trans (weigh_accountTransportError hf)

theorem weigh_onStreamSendError (hf : Balanced w.names f) :
    (onStreamSendError D w c e).1.weigh f = w.weigh f := by
  have haccount : ((w.recordFailure D.cfg.health c.target.name c.lease.probe).emit
      (.errorsTotal c.target.name)).weigh f = w.weigh f :=
    weigh_emit.trans (weigh_recordFailure hf)
  exact (weigh_slotWrites hf (slotWrites_releaseDispatch.trans slotWrites_endAttempt)).trans
    haccount

theorem weigh_answered (hf : Balanced names f) {ttftMs : Option ℚ} {e2eMs : ℚ} {how : Ending} :
    (((w.readClock.recordSuccess c.target.name c.lease.probe ttftMs e2eMs).releaseDispatch
      c.target.name c.reqClass).endAttempt c.lease how).weigh f = w.weigh f := by
  rw [weigh_slotWrites hf (slotWrites_releaseDispatch.trans slotWrites_endAttempt),
    weigh_recordSuccess hf, weigh_readClock]

theorem weigh_relayedWorld (hf : Balanced names f) : (relayedWorld w c).weigh f = w.weigh f :=
  weigh_recordSuccess (w := w.readClock) hf

/-- What came of `send` weighs nothing, in each of its branches. -/
theorem weigh_onUpstream (hf : Balanced w.names f) {o : Upstream} :
    (onUpstream D w c o).1.weigh f = w.weigh f := by
  generalize hnext : onUpstream D w c o = next
  cases upstreams_of_eq hnext with
  | answered hs hlt => exact weigh_answered hf
  | refused hs hge =>
    exact (weigh_retryOrGiveUp hf).trans (weigh_accountErrorStatus (w := w.readClock) hf)
  | relayed hs hlt => exact weigh_relayedWorld hf
  | unrelayable hs hlt =>
    exact (weigh_slotWrites hf slotWrites_endAttempt).trans (weigh_relayedWorld hf)
  | drained hs hge => rfl
  | uncaught he => exact weigh_slotWrites hf slotWrites_endAttempt
  | streamError hs he => exact weigh_onStreamSendError hf
  | transportError hs he => exact weigh_onTransportError hf

theorem weigh_onDrained (hf : Balanced w.names f) {o : BodyRead} :
    (onDrained D w c status o).1.weigh f = w.weigh f := by
  generalize hnext : onDrained D w c status o = next
  cases drains_of_eq hnext with
  | read =>
    exact (weigh_slotWrites hf (slotWrites_releaseDispatch.trans slotWrites_endAttempt)).trans
      (weigh_accountErrorStatus hf)
  | uncaught he => exact weigh_slotWrites hf slotWrites_endAttempt
  | transportError he => exact weigh_onTransportError hf

theorem weigh_onStreamEnd (hf : Balanced names f) {startedAt : ℚ} {acloseRaises : Bool} :
    (onStreamEnd w c startedAt acloseRaises).1.weigh f = w.weigh f := by
  cases acloseRaises with
  | true => exact weigh_slotWrites hf slotWrites_endAttempt
  | false =>
    exact (weigh_slotWrites hf (slotWrites_releaseDispatch.trans slotWrites_endAttempt)).trans
      (weigh_sampleStream (w := w.readClock) hf)

end Proxy

namespace Admission

variable {names : List String} {f : Event → ℤ} {cfg : GatewayConfig} {now : ℚ}
  {p : PendingRequest} {A : Admission}

/-- A round of the batch loop weighs nothing: a rejection for age is counted where the
future is failed. -/
theorem weigh_dispatchOne (hf : Balanced names f) :
    (dispatchOne cfg now p A).1.world.weigh f = A.world.weigh f := by
  rcases dispatchOne_cases cfg now p A with
    ⟨-, heq⟩ | ⟨-, -, heq⟩ | ⟨-, -, -, heq⟩ | ⟨-, -, chosen, -, heq⟩
  · rw [heq]
  · rw [heq]
    show ((A.world.emit _).emit _).weigh f = _
    rw [World.weigh_emit, World.weigh_emit, ← add_assoc, add_comm (f _), hf.expired, zero_add]
  · rw [heq]
    exact World.weigh_slotWrites hf slotWrites_search
  · rw [heq]
    show (World.emit _ _).weigh f = _
    rw [World.weigh_emit, hf.target, zero_add]
    exact World.weigh_slotWrites hf (slotWrites_search.trans World.slotWrites_takeSlot)

theorem weigh_schedulerTick (hf : Balanced names f) :
    (schedulerTick cfg A).world.weigh f = A.world.weigh f :=
  dispatchTick_rule (I := fun B => B.world.weigh f = A.world.weigh f) (fun _ _ hB => hB)
    (fun _ hB => hB) (fun _ _ _ hB => (weigh_dispatchOne hf).trans hB)
    (World.weigh_slotWrites hf (World.slotWrites_tickCircuits cfg.health A.world))

end Admission

namespace Gateway

open World

variable {D : Deployment} {g g' : Gateway} {a : Action} {r : ReqId} {names : List String}
  {f : Event → ℤ}

/-- The rejection branch weighs nothing: the fallback is counted where it is called, and
the rejection where it is answered. -/
theorem weigh_fallbackOrReject (hf : Balanced names f) {w : World} {p : PendingRequest}
    {reason : RejectionReason} {message : Option String} :
    (fallbackOrReject D w p reason message).1.weigh f = w.weigh f := by
  refine fallbackOrReject_rule (P := fun next => next.1.weigh f = w.weigh f) (fun t _ => ?_) ?_
  · rw [Proxy.weigh_start hf, weigh_emit, ← add_assoc, add_comm (f _), hf.fallback, zero_add]
  · rw [weigh_emit, weigh_emit, ← add_assoc, add_comm (f _), hf.refused, zero_add]

theorem weigh_withdraw (hf : Balanced names f) (g : Gateway) (r : ReqId) :
    (g.withdraw r).weigh f = g.world.weigh f := by
  have hflag : (g.world.emit (.withdrawn r)).weigh f = g.world.weigh f := by
    rw [weigh_emit, hf.withdrawn, zero_add]
  rcases g.withdraw_cases r with ⟨grant, -, heq⟩ | ⟨-, heq⟩ <;> rw [heq]
  · exact (weigh_slotWrites hf slotWrites_endAttempt).trans hflag
  · exact hflag

/-- **A step writes what is even**, an arrival apart. For every weighting that a deed
leaves balanced, what one step writes to the history weighs nothing. -/
theorem weigh_of_steps (hf : Balanced g.names f) (h : Steps D g a g') :
    g'.world.weigh f - g'.arrived * f .requestsTotal =
      g.world.weigh f - g.arrived * f .requestsTotal := by
  cases h with
  | arrive sub =>
    have harrival : g.arrivalWorld.weigh f = f .requestsTotal + g.world.weigh f := weigh_emit
    have hworld : (g.arrive D sub).world.weigh f = f .requestsTotal + g.world.weigh f :=
      arrive_rule (P := fun w => w.weigh f = f .requestsTotal + g.world.weigh f) harrival
        ((weigh_fallbackOrReject hf).trans harrival)
    have harrived : (g.arrive D sub).arrived = g.arrived + 1 := by
      rcases lt_or_ge (g.adm.queue.length : ℤ) D.cfg.scheduler.queueMaxSize with hlt | hge
      · rw [arrive_accepted hlt]
      · rw [arrive_full hge]
        rfl
    -- an arrival adds one weight, and the right-hand side counts one arrival more
    rw [hworld, harrived]
    push_cast
    ring
  | tick => rw [show _ = g.world.weigh f from Admission.weigh_schedulerTick hf]
  | timer _ => rfl
  | @granted r p grant _ _ =>
    have hstart : (Proxy.start D g.world p (.granted grant)).1.weigh f = g.world.weigh f := by
      rw [Proxy.weigh_start hf, hf.granted, zero_add]
    exact congrArg (· - _) hstart
  | rejected _ _ => exact congrArg (· - _) (weigh_fallbackOrReject hf)
  | @timedOut r p _ =>
    exact congrArg (· - _) ((weigh_fallbackOrReject hf).trans (weigh_withdraw hf g r))
  | upstream o _ => exact congrArg (· - _) (Proxy.weigh_onUpstream hf)
  | drained o _ => exact congrArg (· - _) (Proxy.weigh_onDrained hf)
  | streamStart _ => rfl
  | streamEnd e acloseRaises _ => exact congrArg (· - _) (Proxy.weigh_onStreamEnd hf)
  | streamDropped _ => exact congrArg (· - _) (weigh_slotWrites hf slotWrites_endAttempt)

/-- **What a run has written weighs as much as its arrivals.** The one event that weighs
alone is the count of a request, which is written when it arrives. -/
theorem weigh_of_reach (h : Reachable D g) (hf : Balanced g.names f) :
    g.world.weigh f = g.arrived * f .requestsTotal := by
  rw [names_of_reach h] at hf
  induction h with
  | start h₀ =>
    obtain ⟨clock, rfl⟩ := h₀
    simp [init, weigh]
  | step hreach _ hstep ih =>
    have hsame := weigh_of_steps (names_of_reach hreach ▸ hf) (steps_of_step hstep)
    rw [ih, sub_self] at hsame
    exact sub_eq_zero.mp hsame

/-! ## Each request is disposed of once -/

theorem length_disposals_fallbackOrReject {w : World} {p : PendingRequest}
    {reason : RejectionReason} {message : Option String} :
    ((fallbackOrReject D w p reason message).1.disposals p.oid).length =
      (w.disposals p.oid).length + 1 := by
  refine fallbackOrReject_rule
    (P := fun next => (next.1.disposals p.oid).length = (w.disposals p.oid).length + 1)
    (fun t _ => ?_) ?_
  · rw [disposals_start, if_pos rfl, disposals_emit]
    rfl
  · rw [disposals_emit, disposals_emit]
    simp [Event.disposal]

/-- The route has done one thing with the request, if its handler has stopped waiting. -/
def DisposedOnce (g : Gateway) (r : ReqId) : Prop :=
  (g.disposals r).length = ((g.handler r).begun).toNat

/-- A handler that moves disposes of nobody else's request. -/
theorem DisposedOnce.put_of_ne {r₀ : ReqId} {result : World × Handler} (h : g.DisposedOnce r)
    (hne : r ≠ r₀) (hsame : result.1.disposals r = g.disposals r) :
    (g.put r₀ result).DisposedOnce r := by
  show (result.1.disposals r).length = (((g.put r₀ result).handler r).begun).toNat
  rw [put_handler_of_ne hne, hsame]
  exact h

/-- The handler of `r` stops waiting. -/
theorem disposedOnce_begin {result : World × Handler} {p : PendingRequest}
    (hent : result.2.Entered p) (hone : (result.1.disposals r).length = 1) :
    (g.put r result).DisposedOnce r := by
  show (result.1.disposals r).length = (((g.put r result).handler r).begun).toNat
  rw [put_handler_self, Handler.begun_of_entered hent, hone]
  rfl

/-- A handler inside the proxy moves on. -/
theorem DisposedOnce.inside {r₀ : ReqId} {result : World × Handler} {p q : PendingRequest}
    (h : g.DisposedOnce r) (hin : (g.handler r₀).Entered p) (hent : result.2.Entered q)
    (hquiet : Quiet g.world result.1) : (g.put r₀ result).DisposedOnce r := by
  have hsame : result.1.disposals r = g.disposals r := disposals_quiet hquiet
  by_cases hne : r = r₀
  · subst hne
    refine disposedOnce_begin hent ?_
    rw [hsame, h, Handler.begun_of_entered hin]
    rfl
  · exact h.put_of_ne hne hsame

/-- A handler that waits, or has yet to appear, stops waiting by way of the rejection. -/
theorem DisposedOnce.turnAway {w : World} {p : PendingRequest} {reason : RejectionReason}
    {message : Option String} (h : g.DisposedOnce r)
    (hwait : (g.handler p.oid).begun = false)
    (hsame : ∀ r', w.disposals r' = g.disposals r') :
    (g.put p.oid (fallbackOrReject D w p reason message)).DisposedOnce r := by
  by_cases hne : r = p.oid
  · subst hne
    refine disposedOnce_begin (p := p) fallbackOrReject_entered ?_
    rw [length_disposals_fallbackOrReject, hsame, h, hwait]
    rfl
  · exact h.put_of_ne hne ((disposals_fallbackOrReject_of_ne hne).trans (hsame r))

/-- A request arrives: it is not disposed of yet, unless the queue was full. -/
theorem DisposedOnce.arrive (h : g.DisposedOnce r) (hinv : g.Inv) (sub : Submission) :
    (g.arrive D sub).DisposedOnce r := by
  have hworld : ∀ r', g.arrivalWorld.disposals r' = g.disposals r' := fun r' =>
    disposals_emit.trans (disposals_quiet (.readClock g.world))
  obtain ⟨habsent, -⟩ := hinv.fresh g.arrived (le_refl _)
  rcases lt_or_ge (g.adm.queue.length : ℤ) D.cfg.scheduler.queueMaxSize with hlt | hge
  · rw [arrive_accepted hlt]
    show (g.arrivalWorld.disposals r).length = _
    rw [hworld, h]
    by_cases hne : r = g.arrived
    · subst hne
      simp [habsent, Handler.begun]
    · simp [hne]
  · rw [arrive_full hge]
    have hcounted : ({ g with arrived := g.arrived + 1 } : Gateway).DisposedOnce r := h
    exact hcounted.turnAway (p := g.newRequest sub) (congrArg Handler.begun habsent) hworld

/-- **Step lemma.** A handler that stops waiting is disposed of by that step; inside the
proxy nothing more is. -/
theorem DisposedOnce.step (h : g.DisposedOnce r) (hinv : g.Inv) (hs : Steps D g a g') :
    g'.DisposedOnce r := by
  cases hs with
  | arrive sub => exact h.arrive hinv sub
  | tick =>
    show ((g.adm.schedulerTick D.cfg).world.disposals r).length = _
    rw [Admission.disposals_schedulerTick]
    exact h
  | @timer r₀ p hp =>
    show (g.disposals r).length = (((g.fireTimer r₀ p).handler r).begun).toNat
    rw [h]
    by_cases hne : r = r₀
    · subst hne
      rw [fireTimer_handler_self, hp]
      rfl
    · rw [fireTimer_handler_of_ne hne]
  -- the grant hands the request to the proxy, which enters the call
  | @granted r₀ p grant hp _ =>
    obtain rfl : p.oid = r₀ := hinv.owner r₀ p (by rw [hp]; rfl)
    by_cases hne : r = p.oid
    · subst hne
      refine disposedOnce_begin Proxy.start_entered ?_
      rw [disposals_start, if_pos rfl, List.length_append, h, hp]
      rfl
    · refine h.put_of_ne hne ?_
      rw [disposals_start, if_neg (Ne.symm hne)]
      rfl
  | @rejected r₀ p m hp _ =>
    obtain rfl : p.oid = r₀ := hinv.owner r₀ p (by rw [hp]; rfl)
    exact h.turnAway (by rw [hp]; rfl) fun _ => rfl
  | @timedOut r₀ p hp =>
    obtain rfl : p.oid = r₀ := hinv.owner r₀ p (by rw [hp]; rfl)
    have hflag : ({ g with adm := { g.adm with
        cancelled := Function.update g.adm.cancelled p.oid true } } : Gateway).DisposedOnce r := h
    refine hflag.turnAway (p := p) (by rw [hp]; rfl) fun r' => ?_
    rcases g.withdraw_cases p.oid with ⟨grant, -, heq⟩ | ⟨-, heq⟩ <;> rw [heq] <;> rfl
  | upstream o hc =>
    exact h.inside (by rw [hc]; rfl) Proxy.onUpstream_entered Proxy.quiet_onUpstream
  | drained o hc => exact h.inside (by rw [hc]; rfl) Proxy.onDrained_entered Proxy.quiet_onDrained
  | @streamStart r₀ c hc => exact h.inside (p := c.pending) (by rw [hc]; rfl) rfl (.ofTrace rfl)
  | streamEnd e acloseRaises hc =>
    exact h.inside (by rw [hc]; rfl) Proxy.onStreamEnd_entered Proxy.inner_onStreamEnd.quiet
  | @streamDropped r₀ c hc =>
    exact h.inside (p := c.pending) (q := c.pending) (by rw [hc]; rfl) trivial
      World.inner_endAttempt.quiet

/-- **Run lemma.** In every reachable state each request has been disposed of as often
as its handler has begun. -/
theorem disposedOnce_of_reach (h : Reachable D g) (r : ReqId) : g.DisposedOnce r :=
  invariantOf (I := fun g => g.DisposedOnce r) (fun _ => rfl)
    (fun _ _ _ hinv hd _ hs => hd.step hinv hs) h

end Gateway

/-! ## The counters -/

namespace Event

/-- A request is disposed of. -/
def disposes : Event → Option ReqId
  | proxied r _ | refused r _ => some r
  | _ => none

/-- The proxy is called with the fallback provider. -/
def isFallbackCall : Event → Bool
  | proxied _ (.fallback _) => true
  | _ => false

/-- The proxy is called with a backend. -/
def isBackendCall : Event → Bool
  | proxied _ (.granted _) => true
  | _ => false

/-- The route answers 503. -/
def isRefusal : Event → Bool
  | refused .. => true
  | _ => false

/-- The scheduler fails the future of a request. -/
def isExpiry : Event → Bool
  | resolved _ _ (.scheduleError _) _ => true
  | _ => false

/-- `gateway_rejections_total`, under any label. -/
def isRejection : Event → Bool
  | rejectionsTotal _ => true
  | _ => false

/-- One event weighs against another. -/
def against (p q : Event → Bool) (e : Event) : ℤ := (p e).toNat - (q e).toNat

end Event

/-- With one predicate against another, the weight is the difference of their counts. -/
theorem weigh_against (p q : Event → Bool) (w : World) :
    w.weigh (Event.against p q) = w.trace.countP p - w.trace.countP q := by
  unfold World.weigh
  induction w.trace with
  | nil => rfl
  | cons e trace ih =>
    rw [List.map_cons, List.sum_cons, ih, List.countP_cons, List.countP_cons]
    unfold Event.against
    cases p e <;> cases q e <;> simp <;> ring

/-- No event is a refusal and an expiry. -/
theorem countP_or (w : World) : w.trace.countP (fun e => e.isRefusal || e.isExpiry) =
    w.trace.countP Event.isRefusal + w.trace.countP Event.isExpiry := by
  induction w.trace with
  | nil => rfl
  | cons e trace ih =>
    rw [List.countP_cons, List.countP_cons, List.countP_cons, ih]
    cases e with
    | resolved p before after tick =>
      cases after <;> simp [Event.isRefusal, Event.isExpiry, Nat.add_assoc]
    | refused r reason =>
      simp [Event.isRefusal, Event.isExpiry]
      omega
    | _ => rfl

/-- What is disposed of, request by request. -/
theorem count_disposes (w : World) (r : ReqId) :
    (w.trace.filterMap Event.disposes).count r = (w.disposals r).length := by
  unfold World.disposals
  induction w.trace with
  | nil => rfl
  | cons e trace ih =>
    rw [List.filterMap_cons, List.filterMap_cons]
    cases e with
    | proxied r' initial | refused r' reason =>
      by_cases hr : r' = r <;> simp [Event.disposes, Event.disposal, hr, ih]
    | _ => exact ih

/-- A disposal is a refusal, a call of a backend or a call of the fallback provider. -/
theorem length_disposes (w : World) : (w.trace.filterMap Event.disposes).length =
    w.trace.countP Event.isRefusal + w.trace.countP Event.isBackendCall +
      w.trace.countP Event.isFallbackCall := by
  induction w.trace with
  | nil => rfl
  | cons e trace ih =>
    rw [List.filterMap_cons, List.countP_cons, List.countP_cons, List.countP_cons]
    cases e with
    | proxied r initial =>
      cases initial <;>
        simp [Event.disposes, Event.isRefusal, Event.isBackendCall, Event.isFallbackCall, ih] <;>
          omega
    | refused r reason =>
      simp [Event.disposes, Event.isRefusal, Event.isBackendCall, Event.isFallbackCall, ih]
      omega
    | _ => exact ih

namespace Gateway

variable {D : Deployment} {g : Gateway}

/-- The requests that have arrived and are still waiting for the scheduler. -/
def waitingCount (g : Gateway) : ℕ := (List.range g.arrived).countP fun r => !(g.handler r).begun

/-- The relations between the counters and what the gateway has done. -/
structure CountersAgree (g : Gateway) : Prop where
  requests : g.trace.count .requestsTotal = g.arrived
  /-- Each request waits, was answered 503, or was handed to a backend or the fallback. -/
  disposed : g.trace.count .requestsTotal = g.waitingCount + g.trace.countP Event.isRefusal +
    g.trace.countP Event.isBackendCall + g.trace.count .fallbackTotal
  fallbacks : g.trace.count .fallbackTotal = g.trace.countP Event.isFallbackCall
  /-- A request the scheduler gives up on is counted as rejected beside its answer. -/
  rejections : g.trace.countP Event.isRejection =
    g.trace.countP Event.isRefusal + g.trace.countP Event.isExpiry
  errors : ∀ b ∈ g.names, g.trace.count (.errorsTotal b) = g.trace.count (.sampled b true)

/-- A request that has arrived waits or has begun. -/
theorem sum_begun (h : ReqId → Handler) (n : ℕ) :
    (List.range n).countP (fun r => !(h r).begun) +
      ∑ r ∈ Finset.range n, ((h r).begun).toNat = n := by
  induction n with
  | zero => rfl
  | succ n ih =>
    rw [List.range_succ, List.countP_append, Finset.sum_range_succ]
    cases hb : (h n).begun <;> simp [hb] <;> omega

/-- Every disposal is of a request that has arrived. -/
theorem lt_arrived_of_disposes (h : Reachable D g) {r : ReqId}
    (hr : r ∈ g.trace.filterMap Event.disposes) : r < g.arrived := by
  by_contra hge
  have habsent := ((inv_of_reach h).fresh r (not_lt.mp hge)).1
  have hone := disposedOnce_of_reach h r
  rw [DisposedOnce, habsent, disposals, ← count_disposes] at hone
  exact List.count_eq_zero.mp hone hr

/-- Whoever does not wait any more has been disposed of. -/
theorem disposed_add_waiting (h : Reachable D g) :
    g.waitingCount + (g.trace.filterMap Event.disposes).length = g.arrived := by
  have hsum : ∑ r ∈ Finset.range g.arrived, (g.trace.filterMap Event.disposes).count r =
      (g.trace.filterMap Event.disposes).length := by
    have hcard := Multiset.sum_count_eq_card (s := Finset.range g.arrived)
      (m := (g.trace.filterMap Event.disposes : Multiset ReqId))
      fun r hr => Finset.mem_range.mpr (lt_arrived_of_disposes h (Multiset.mem_coe.mp hr))
    simpa using hcard
  have hbegun : ∀ r, (g.trace.filterMap Event.disposes).count r = ((g.handler r).begun).toNat :=
    fun r => (count_disposes g.world r).trans (disposedOnce_of_reach h r)
  rw [← hsum, Finset.sum_congr rfl fun r _ => hbegun r]
  exact sum_begun g.handler g.arrived

/-! ## The weightings -/

section Weightings

variable {names : List String}

/-- No code but the arrival counts a request. -/
theorem balanced_requests :
    Balanced names (Event.against (· == .requestsTotal) fun _ => false) where

/-- A fallback call weighs against the counter, which is bumped just before it. -/
theorem balanced_fallbacks :
    Balanced names (Event.against (· == .fallbackTotal) Event.isFallbackCall) where

/-- A rejection weighs against the answer, or against the future that was failed. -/
theorem balanced_rejections :
    Balanced names (Event.against Event.isRejection fun e => e.isRefusal || e.isExpiry) where

/-- An error is counted with a failed sample, and a failed sample is taken with an
error. -/
theorem balanced_errors {b : String} (hb : b ∈ names) :
    Balanced names (Event.against (· == .errorsTotal b) (· == .sampled b true)) where
  success _ := by simp [Event.against, beq_eq_decide]
  failure b' _ := by by_cases hbb : b' = b <;> simp [Event.against, beq_eq_decide, hbb]
  stray b' hb' := by
    have hne : b' ≠ b := fun heq => hb' (heq ▸ hb)
    simp [Event.against, beq_eq_decide, hne]

end Weightings

/-- What weighs against each other is counted equally often. -/
theorem countP_eq_of_balanced (h : Reachable D g) {p q : Event → Bool}
    (hf : Balanced g.names (Event.against p q)) (hp : p .requestsTotal = false)
    (hq : q .requestsTotal = false) : g.trace.countP p = g.trace.countP q := by
  have hweigh := weigh_of_reach h hf
  rw [weigh_against, Event.against, hp, hq] at hweigh
  have hzero : (g.trace.countP p : ℤ) - g.trace.countP q = 0 := by simpa using hweigh
  omega

/-- **The counters agree** with what the gateway has done, in every reachable state:
requests with arrivals and with what became of them, fallbacks with calls of the
provider, rejections with answers and failed futures, errors with failed samples. -/
theorem counters_agree (h : Reachable D g) : g.CountersAgree := by
  have hrequests : g.trace.count .requestsTotal = g.arrived := by
    have hweigh := weigh_of_reach h balanced_requests
    rw [weigh_against] at hweigh
    simpa [Event.against, List.count] using hweigh
  have hfallbacks : g.trace.count .fallbackTotal = g.trace.countP Event.isFallbackCall :=
    countP_eq_of_balanced h balanced_fallbacks rfl rfl
  have hrejections : g.trace.countP Event.isRejection =
      g.trace.countP Event.isRefusal + g.trace.countP Event.isExpiry := by
    rw [countP_eq_of_balanced h balanced_rejections rfl rfl]
    exact countP_or g.world
  -- what has arrived has been disposed of or still waits
  refine ⟨hrequests, ?_, hfallbacks, hrejections, fun b hb => ?_⟩
  · rw [hrequests, hfallbacks, ← disposed_add_waiting h, length_disposes]
    ring
  · exact countP_eq_of_balanced h (balanced_errors hb) rfl rfl

/-- One request times out upstream, and another is still queued. -/
theorem timedOut_reachable : ∃ g, Reachable lone g ∧ (g.handler 0).begun = true ∧
    g.arrived = 2 ∧ g.waitingCount = 1 ∧ g.trace.count (.errorsTotal "gpu-node-1") = 1 :=
  exists_reachable still [.arrive (chat false), .tick, .resume 0, .arrive (chat true),
    .upstream 0 (.failed (.timeout "timed out"))] (by decide +kernel)

theorem counters_agree_lone : ∃ g, Reachable lone g ∧ g.arrived = 2 ∧ g.waitingCount = 1 ∧
    g.trace.count (.errorsTotal "gpu-node-1") = 1 ∧ g.CountersAgree := by
  obtain ⟨g, hg, -, harrived, hwaiting, herrors⟩ := timedOut_reachable
  exact ⟨g, hg, harrived, hwaiting, herrors, counters_agree hg⟩

/-- **A request is disposed of once**: by one call of the proxy or one answer 503, as soon as
its handler does not wait any more. -/
theorem disposed_once (h : Reachable D g) (r : ReqId) :
    ((g.handler r).begun = false → g.disposals r = []) ∧
      ((g.handler r).begun = true → ∃ d, g.disposals r = [d]) := by
  have hone : (g.disposals r).length = ((g.handler r).begun).toNat := disposedOnce_of_reach h r
  constructor
  · intro hbegun
    rw [hbegun] at hone
    exact List.eq_nil_of_length_eq_zero hone
  · intro hbegun
    rw [hbegun] at hone
    exact List.length_eq_one_iff.mp hone

theorem disposed_once_lone : ∃ g, Reachable lone g ∧ ∃ d, g.disposals 0 = [d] := by
  obtain ⟨g, hg, hbegun, -⟩ := timedOut_reachable
  exact ⟨g, hg, (disposed_once hg 0).2 hbegun⟩

end Gateway

end InferenceGateway
