import InferenceGateway.Fleet.Refinement
import InferenceGateway.Guarantees.Retries
import InferenceGateway.Proxy.Writes
import InferenceGateway.Scheduler.Lifecycle

/-!
# The retry counter

`gateway_request_retries_total` is counted before an alternate has been looked
for. The gateway runs beside a log of the requests it sends upstream, and the
counter is compared with the sends that were a second or later one of their
request.

- `RetriesCounted`: the counter is the number of re-sends, and failed attempts
  without an alternate add nothing to it.
- `turn_of_steps`: the step inversion for one request, as far as sends and
  retries are concerned. It enters, resumes after an attempt, or relays; only
  the second can retry.
- `Entry`: how a step is put down in the log and in the counter together. A
  retry that is counted and not sent sets them apart, and nothing brings them
  together again, which is what makes the condition exact.
- `retries_iff`: the counter is the number of re-sends after a run exactly when
  every retry the run asked for was sent.
- `hasAlternate_onUpstream_iff`: whether there is an alternate is settled before
  the step.
- `retries_fail_lone`: with one backend, a single timeout is counted as a retry.
-/

namespace InferenceGateway

open Lib

/-! ## The counter -/

namespace World

variable {w w' : World}

/-- `gateway_request_retries_total`. -/
def retriesTotal (w : World) : ℕ := w.trace.count .retriesTotal

/-- No retry is counted. -/
abbrev Uncounted (w w' : World) : Prop := Writes (fun e => decide (e ≠ .retriesTotal)) w w'

/-- What writes no retry leaves the counter. -/
theorem Uncounted.retriesTotal (h : Uncounted w w') : w'.retriesTotal = w.retriesTotal :=
  Writes.count h rfl

theorem Inner.uncounted (h : Inner w w') : Uncounted w w' := by
  refine h.mono fun e he => ?_
  cases e <;> first | rfl | cases he

theorem Inner.retriesTotal (h : Inner w w') : w'.retriesTotal = w.retriesTotal :=
  h.uncounted.retriesTotal

end World

namespace Admission

variable {cfg : GatewayConfig} {now : ℚ} {p : PendingRequest} {A : Admission}

/-- The scheduler counts no retries. -/
theorem uncounted_dispatchOne : World.Uncounted A.world (dispatchOne cfg now p A).1.world := by
  rcases dispatchOne_cases cfg now p A with
    ⟨-, heq⟩ | ⟨-, -, heq⟩ | ⟨-, -, -, heq⟩ | ⟨-, -, chosen, -, heq⟩
  · rw [heq]
    exact .refl _
  · rw [heq]
    exact (World.Writes.emit rfl).trans (.emit rfl)
  · rw [heq]
    exact inner_search.uncounted
  · rw [heq]
    exact (inner_search.uncounted.trans World.inner_takeSlot.uncounted).trans (.emit rfl)

theorem uncounted_schedulerTick : World.Uncounted A.world (schedulerTick cfg A).world :=
  dispatchTick_rule (I := fun B => World.Uncounted A.world B.world) (fun _ _ hB => hB)
    (fun B hB => hB.trans (.readClock B.world)) (fun _ _ _ hB => hB.trans uncounted_dispatchOne)
    (World.inner_tickCircuits cfg.health A.world).uncounted

end Admission

namespace Handler

/-- The request has just been sent, and its answer is awaited. -/
def sends : Handler → Bool
  | .sending _ => true
  | _ => false

/-- An attempt is under way whose failure may still be retried. -/
def retryable : Handler → Bool
  | .sending _ | .draining _ _ => true
  | _ => false

/-- The request has entered the proxy, or has been turned away. -/
def begun : Handler → Bool
  | .absent | .waiting _ | .expired _ => false
  | _ => true

theorem retryable_of_sends {h : Handler} (hs : h.sends = true) : h.retryable = true := by
  cases h <;> first | rfl | cases hs

theorem begun_of_retryable {h : Handler} (hr : h.retryable = true) : h.begun = true := by
  cases h <;> first | rfl | cases hr

theorem begun_of_entered {p : PendingRequest} {h : Handler} (hent : h.Entered p) :
    h.begun = true := by
  cases h <;> first | rfl | cases hent

end Handler

/-! ## One attempt -/

namespace Proxy

variable {D : Deployment} {w v : World} {c : ProxyCall} {status : ℤ} {e : UpstreamError}

/-- A retry that looks for an alternate in `w` finds one, and can prepare the request
for the one it picks. -/
def Resendable (D : Deployment) (c : ProxyCall) (w : World) : Prop :=
  hasAlternate D c w ∧ ¬ retryUnsendable D c w

/-- A retry can be sent if a grant is picked and the request to its target can be
prepared. -/
theorem resendable_iff : Resendable D c w ↔
    ∃ grant, (pickRetryTarget D.cfg w c.reqClass c.target.name).2 = some grant ∧
      prepareTargetRequest D grant.target c.pending = none := by
  -- the backend that is picked, and whether a request to it can be prepared
  cases hpick : (pickRetryTarget D.cfg w c.reqClass c.target.name).2 with
  | none =>
    have hnone : ¬ hasAlternate D c w := Fleet.pickRetryTarget_eq_none_iff.mp hpick
    refine iff_of_false (fun h => hnone h.1) ?_
    rintro ⟨grant, hgrant, -⟩
    cases hgrant
  | some grant =>
    have halternate : hasAlternate D c w := by
      by_contra hnot
      cases hpick.symm.trans (Fleet.pickRetryTarget_eq_none_iff.mpr hnot)
    constructor
    · rintro ⟨-, hsend⟩
      refine ⟨grant, rfl, ?_⟩
      by_contra hreply
      exact hsend ⟨grant, hpick, hreply⟩
    · rintro ⟨_, ⟨⟩, hprepare⟩
      refine ⟨halternate, ?_⟩
      rintro ⟨_, hgrant, hreply⟩
      cases hpick.symm.trans hgrant
      exact hreply hprepare

/-- Whether there is an alternate is settled before the step: some other registered
backend would pass the checks, at the reading the search takes for it. -/
theorem hasAlternate_onUpstream_iff {o : Upstream} (h : retryOnUpstream D w c o = some v) :
    hasAlternate D c v ↔ Spare D w c.target.name o := by
  refine hasAlternate_iff_spare ?_
  cases o with
  | response status relayable =>
    have hv : giveBack (accountErrorStatus D w.readClock c status) c (errorEnding status) = v := by
      rw [retryOnUpstream] at h
      split at h
      · exact Option.some.inj h
      · cases h
    -- accounting and giving back move no other backend's row, and read the clock so often
    rw [← hv, ← Nat.zero_add (accountingReadings _)]
    exact beside_accountErrorStatus.trans beside_giveBack
  | failed e =>
    have hv : giveBack (accountTransportError D w c) c .failure = v := by
      rw [retryOnUpstream] at h
      split at h
      · exact Option.some.inj h
      · cases h
    rw [← hv, ← Nat.zero_add (accountingReadings _)]
    exact beside_accountTransportError.trans beside_giveBack

instance : Decidable (Resendable D c w) :=
  decidable_of_iff (∃ grant ∈ (pickRetryTarget D.cfg w c.reqClass c.target.name).2,
    prepareTargetRequest D grant.target c.pending = none) resendable_iff.symm

/-- What a resumption of the proxy counts and sends: one retry if it asked for one, and
the next attempt if that could be sent. -/
structure Counts (D : Deployment) (w : World) (c : ProxyCall) (retry : Option World)
    (next : World × Handler) : Prop where
  retriesTotal : next.1.retriesTotal = w.retriesTotal + retry.toList.length
  sends : next.2.sends = true ↔ ∃ v, retry = some v ∧ Resendable D c v

theorem counts_none {next : World × Handler} (hw : World.Inner w next.1)
    (hs : next.2.sends = false) : Counts D w c none next where
  retriesTotal := hw.retriesTotal
  sends := by
    rw [hs]
    refine iff_of_false Bool.false_ne_true ?_
    rintro ⟨v, hv, -⟩
    cases hv

/-- With an attempt left, the head of the loop sends the request unless it cannot be
prepared. -/
theorem sends_beginAttempt_iff (hleft : attemptsLeft D.cfg c = true) :
    (beginAttempt D w c).2.sends = true ↔ prepareTargetRequest D c.target c.pending = none := by
  unfold beginAttempt
  rw [if_pos (of_decide_eq_true hleft)]
  cases hreply : prepareTargetRequest D c.target c.pending with
  | some reply =>
    simp only [hreply]
    exact iff_of_false Bool.false_ne_true (Option.some_ne_none reply)
  | none =>
    simp only [hreply]
    exact iff_of_true rfl trivial

/-- The retry is counted together with the release. -/
theorem retriesTotal_giveBack {how : Ending} :
    (giveBack w c how).retriesTotal = w.retriesTotal + 1 := by
  have hinner : World.Inner (w.emit .retriesTotal) (giveBack w c how) := inner_giveBack
  rw [hinner.retriesTotal]
  exact List.count_cons_self

/-- **The tail of a failed attempt** counts a retry before it knows of an alternate. So
the counter is ahead of what is sent whenever none is found. -/
theorem counts_retryOrGiveUp {retry : Bool} {how : Ending} {final : Reply}
    (hw : World.Inner w v) (hleft : retry = true → attemptsLeft D.cfg c = true) :
    Counts D w c (if retry then some (giveBack v c how) else none)
      (retryOrGiveUp D v c retry how final) := by
  have hgive : (giveBack v c how).retriesTotal = w.retriesTotal + 1 := by
    rw [retriesTotal_giveBack, hw.retriesTotal]
  have hpick : (pickRetryTarget D.cfg (giveBack v c how) c.reqClass c.target.name).1.retriesTotal =
      w.retriesTotal + 1 := inner_pickRetryTarget.retriesTotal.trans hgive
  -- no retry, a retry without an alternate, and a retry with one
  rcases retryOrGiveUp_cases D v c retry how final with
    ⟨rfl, heq⟩ | ⟨rfl, hnone, heq⟩ | ⟨rfl, grant, hgrant, heq⟩
  · rw [heq]
    exact counts_none (hw.trans (World.inner_releaseDispatch.trans World.inner_endAttempt)) rfl
  · rw [heq]
    refine ⟨World.inner_releaseDispatch.retriesTotal.trans hpick, ?_⟩
    refine iff_of_false Bool.false_ne_true ?_
    rintro ⟨_, ⟨⟩, halternate, -⟩
    exact Fleet.pickRetryTarget_eq_none_iff.mp hnone halternate
  · rw [heq]
    refine ⟨inner_beginAttempt.retriesTotal.trans hpick, ?_⟩
    rw [sends_beginAttempt_iff (c := { c with lease := .granted grant }) (hleft rfl)]
    constructor
    · intro hprepare
      exact ⟨_, rfl, resendable_iff.mpr ⟨grant, hgrant, hprepare⟩⟩
    · rintro ⟨_, ⟨⟩, hresend⟩
      obtain ⟨_, hgrant', hprepare⟩ := resendable_iff.mp hresend
      cases hgrant.symm.trans hgrant'
      exact hprepare

theorem counts_onTransportError :
    Counts D w c
      (if attemptsLeft D.cfg c then some (giveBack (accountTransportError D w c) c .failure)
        else none) (onTransportError D w c e) := by
  -- what is written down of the failure changes neither target nor attempts
  obtain ⟨htotal, hsends⟩ : Counts D w ({ c with lastError := some e }.withFailure e) _
      (onTransportError D w c e) := counts_retryOrGiveUp inner_accountTransportError id
  exact ⟨htotal, hsends⟩

/-- Only buffered attempts are retried for what came of `send`. -/
theorem retryOnUpstream_of_stream {o : Upstream} (hs : c.pending.classify.stream = true) :
    retryOnUpstream D w c o = none := by
  cases o <;> simp [retryOnUpstream, hs]

/-- What came of `send`: the counter goes up with a retry that is wanted, and the
handler sends again if that retry can be sent. -/
theorem counts_onUpstream {o : Upstream} :
    Counts D w c (retryOnUpstream D w c o) (onUpstream D w c o) := by
  generalize hnext : onUpstream D w c o = next
  -- only a refused and a lost buffered attempt may be followed by another
  cases upstreams_of_eq hnext with
  | answered hs hlt =>
    simp only [retryOnUpstream, not_le.mpr hlt, false_and, and_false, if_false]
    exact counts_none inner_answered rfl
  | @refused status relayable hs hge =>
    have hretry : retryOnUpstream D w c (.response status relayable) =
        if attemptsLeft D.cfg c && retryableStatus D.cfg status then
          some (giveBack (accountErrorStatus D w.readClock c status) c (errorEnding status))
        else none := by
      simp [retryOnUpstream, hs, hge]
    rw [hretry]
    exact counts_retryOrGiveUp (inner_accountErrorStatus (w := w.readClock))
      fun hboth => (Bool.and_eq_true_iff.mp hboth).1
  | relayed hs hlt =>
    rw [retryOnUpstream_of_stream hs]
    exact counts_none inner_relayedWorld rfl
  | unrelayable hs hlt =>
    rw [retryOnUpstream_of_stream hs]
    exact counts_none (inner_relayedWorld.trans World.inner_endAttempt) rfl
  | drained hs hge =>
    rw [retryOnUpstream_of_stream hs]
    exact counts_none (.readClock w) rfl
  | uncaught he =>
    simp only [retryOnUpstream, he, Bool.false_eq_true, false_and, and_false, if_false]
    exact counts_none World.inner_endAttempt rfl
  | streamError hs he =>
    rw [retryOnUpstream_of_stream hs]
    exact counts_none inner_onStreamSendError rfl
  | @transportError e hs he =>
    have hretry : retryOnUpstream D w c (.failed e) = if attemptsLeft D.cfg c then
        some (giveBack (accountTransportError D w c) c .failure) else none := by
      simp [retryOnUpstream, hs, he]
    rw [hretry]
    exact counts_onTransportError

/-- What came of reading the body of a streamed error, counted in the same way. -/
theorem counts_onDrained {o : BodyRead} :
    Counts D w c (retryOnDrained D w c o) (onDrained D w c status o) := by
  generalize hnext : onDrained D w c status o = next
  cases drains_of_eq hnext with
  | read => exact counts_none inner_read rfl
  | uncaught he =>
    simp only [retryOnDrained, he, Bool.false_eq_true, false_and, if_false]
    exact counts_none World.inner_endAttempt rfl
  | @transportError e he =>
    have hretry : retryOnDrained D w c (.failed e) = if attemptsLeft D.cfg c then
        some (giveBack (accountTransportError D w c) c .failure) else none := by
      simp [retryOnDrained, he]
    rw [hretry]
    exact counts_onTransportError

end Proxy

namespace Gateway

variable {D : Deployment} {g g' : Gateway} {a : Action} {r : ReqId}

/-! ## The gateway and the log -/

/-- What is put down of a run: the requests sent upstream, newest first, and what failed
attempts without an eligible alternate have added to the counter. -/
structure SendLog where
  sent : List ReqId
  idle : ℕ
  deriving DecidableEq, Repr

/-- How many of the sends were a second or later one of their request. -/
def resends : List ReqId → ℕ
  | [] => 0
  | r :: earlier => resends earlier + if r ∈ earlier then 1 else 0

/-- The request a step belongs to. -/
def requestOf (g : Gateway) : Action → Option ReqId
  | .arrive _ => some g.arrived
  | .tick => none
  | .timer r | .resume r | .upstream r _ | .drained r _ => some r
  | .streamStart r | .streamEnd r _ _ | .streamDropped r => some r

/-- The request the step sends upstream, if it does. -/
def sentBy (g : Gateway) (a : Action) (g' : Gateway) : Option ReqId :=
  (g.requestOf a).filter fun r => (g'.handler r).sends

/-- A retry is wanted in this step, and another backend is eligible. -/
def alternateFor (D : Deployment) (g : Gateway) (a : Action) : Bool :=
  (g.retryOf D a).any fun retry => decide (Proxy.hasAlternate D retry.1 retry.2)

/-- Put a step down. -/
def logStep (D : Deployment) (g : Gateway) (a : Action) (g' : Gateway) (log : SendLog) :
    SendLog where
  sent := (g.sentBy a g').toList ++ log.sent
  idle := log.idle +
    if g.alternateFor D a then 0 else g'.world.retriesTotal - g.world.retriesTotal

/-- The gateway beside its log. -/
def logged (D : Deployment) : Machine (Gateway × SendLog) Action :=
  .ofFn (fun s => ∃ clock, s = (init D clock, ⟨[], 0⟩)) (observe (step D) (logStep D))

/-- The counter is the number of re-sends, and no failed attempt without an eligible
alternate has added to it. -/
structure RetriesCounted (s : Gateway × SendLog) : Prop where
  retriesTotal : s.1.world.retriesTotal = resends s.2.sent
  idle : s.2.idle = 0

/-- The guard of the runs whose retries are sent: a retry that is wanted in the step finds
an alternate, and can prepare the request for it. -/
def RetrySent (D : Deployment) (s : Gateway × SendLog) (a : Action) : Prop :=
  ∀ retry ∈ s.1.retryOf D a, Proxy.Resendable D retry.1 retry.2

instance (s : Gateway × SendLog) (a : Action) : Decidable (RetrySent D s a) :=
  inferInstanceAs (Decidable (∀ retry ∈ s.1.retryOf D a, Proxy.Resendable D retry.1 retry.2))

theorem logged_start {s : Gateway × SendLog} (h : (logged D).start s) : (machine D).start s.1 := by
  obtain ⟨clock, rfl⟩ := h
  exact ⟨clock, rfl⟩

/-- The log is of every run: it changes nothing about the gateway. -/
theorem reachable_iff_logged : Reachable D g ↔ ∃ log, Reach (logged D) anyStep (g, log) := by
  refine reach_iff_observe (fun s => logged_start) fun g hg => ?_
  obtain ⟨clock, rfl⟩ := hg
  exact ⟨⟨[], 0⟩, clock, rfl⟩

/-! ## What a step is to the sends -/

section Uncounted

variable {w : World} {p : PendingRequest}

theorem uncounted_start {initial : Lease} : World.Uncounted w (Proxy.start D w p initial).1 :=
  (World.Writes.emit rfl).trans Proxy.inner_beginAttempt.uncounted

theorem uncounted_fallbackOrReject {reason : RejectionReason} {message : Option String} :
    World.Uncounted w (fallbackOrReject D w p reason message).1 := by
  exact fallbackOrReject_rule (P := fun next => World.Uncounted w next.1)
    (fun _ _ => (World.Writes.emit rfl).trans uncounted_start)
    ((World.Writes.emit rfl).trans (.emit rfl))

theorem uncounted_arrive {sub : Submission} : World.Uncounted g.world (g.arrive D sub).world := by
  have harrival : World.Uncounted g.world g.arrivalWorld :=
    (World.Writes.readClock g.world).trans (.emit rfl)
  exact arrive_rule harrival (harrival.trans uncounted_fallbackOrReject)

theorem uncounted_onTimeout : World.Uncounted g.world (g.onTimeout D r p).world := by
  have hwithdraw : World.Uncounted g.world (g.withdraw r) := by
    rcases g.withdraw_cases r with ⟨grant, -, heq⟩ | ⟨-, heq⟩ <;> rw [heq]
    · exact (World.Writes.emit rfl).trans World.inner_endAttempt.uncounted
    · exact .emit rfl
  exact hwithdraw.trans uncounted_fallbackOrReject

end Uncounted

/-- A step, as its request goes from waiting into the proxy, through it, or out of it as
a stream. -/
inductive Turn (D : Deployment) (g : Gateway) (a : Action) (g' : Gateway) (r : ReqId) : Prop where
  | enters (hbegun : (g.handler r).begun = false) (hretry : g.retryOf D a = none)
      (htotal : g'.world.retriesTotal = g.world.retriesTotal)
      (hsends : (g'.handler r).retryable = true → (g'.handler r).sends = true)
  | resumes (hout : (g.handler r).retryable = true) (hbegun : (g'.handler r).begun = true)
      (htotal : g'.world.retriesTotal = g.world.retriesTotal + (g.retryOf D a).toList.length)
      (hsends : (g'.handler r).sends = true ↔
        ∃ retry, g.retryOf D a = some retry ∧ Proxy.Resendable D retry.1 retry.2)
  | relays (hbegun : (g'.handler r).begun = true) (hretry : g.retryOf D a = none)
      (htotal : g'.world.retriesTotal = g.world.retriesTotal)
      (hout : (g'.handler r).retryable = false)

/-- A call that has begun is sending, or has replied. -/
theorem start_sends {w : World} {p : PendingRequest} {initial : Lease}
    (h : (Proxy.start D w p initial).2.retryable = true) :
    (Proxy.start D w p initial).2.sends = true := by
  rcases Proxy.handled_beginAttempt with ⟨c, hc⟩ | ⟨reply, hreply⟩
  · exact congrArg Handler.sends hc
  · cases (congrArg Handler.retryable hreply).symm.trans h

theorem fallbackOrReject_sends {w : World} {p : PendingRequest} {reason : RejectionReason}
    {message : Option String} :
    (fallbackOrReject D w p reason message).2.retryable = true →
      (fallbackOrReject D w p reason message).2.sends = true := by
  exact fallbackOrReject_rule (P := fun next => next.2.retryable = true → next.2.sends = true)
    (fun _ _ => start_sends) (fun h => by cases h)

/-- **Step inversion**, for the request the step belongs to: it enters the proxy,
resumes inside it, or relays. Every other request is where it was. -/
theorem turn_of_steps (hinv : g.Inv) (hs : Steps D g a g') (hr : g.requestOf a = some r) :
    (∀ r', r' ≠ r → g'.handler r' = g.handler r') ∧ Turn D g a g' r := by
  have hput : ∀ (G : Gateway) (result : World × Handler), G.handler = g.handler →
      ∀ r', r' ≠ r → (G.put r result).handler r' = g.handler r' := by
    intro G result hG r' hne
    rw [put_handler_of_ne hne, hG]
  cases hs with
  | arrive sub =>
    cases hr
    have habsent : (g.handler g.arrived).begun = false := by
      have hnone : g.handler g.arrived = .absent := by
        by_contra hne
        exact lt_irrefl _ (hinv.lt_arrived hne)
      rw [hnone]
      rfl
    -- accepted, or handed to the rejection branch
    rcases lt_or_ge (g.adm.queue.length : ℤ) D.cfg.scheduler.queueMaxSize with hlt | hge
    · refine ⟨?_, .enters habsent rfl uncounted_arrive.retriesTotal ?_⟩
      · rw [arrive_accepted hlt]
        exact fun r' hne => Function.update_of_ne hne ..
      · rw [arrive_accepted hlt]
        simp [Handler.retryable]
    · refine ⟨?_, .enters habsent rfl uncounted_arrive.retriesTotal ?_⟩
      · rw [arrive_full hge]
        exact hput _ _ rfl
      · rw [arrive_full hge, put_handler_self]
        exact fallbackOrReject_sends
  | tick => cases hr
  | timer hh =>
    cases hr
    refine ⟨fun r' hne => fireTimer_handler_of_ne hne, .enters (by rw [hh]; rfl) rfl rfl ?_⟩
    rw [fireTimer_handler_self]
    exact fun h => by cases h
  | granted hh hf =>
    cases hr
    refine ⟨hput _ _ rfl, .enters (by rw [hh]; rfl) rfl uncounted_start.retriesTotal ?_⟩
    rw [put_handler_self]
    exact start_sends
  | rejected hh hf =>
    cases hr
    refine ⟨hput _ _ rfl, .enters (by rw [hh]; rfl) rfl uncounted_fallbackOrReject.retriesTotal ?_⟩
    rw [put_handler_self]
    exact fallbackOrReject_sends
  | timedOut hh =>
    cases hr
    refine ⟨hput _ _ rfl, .enters (by rw [hh]; rfl) rfl uncounted_onTimeout.retriesTotal ?_⟩
    rw [onTimeout, put_handler_self]
    exact fallbackOrReject_sends
  | @upstream r c o hh =>
    cases hr
    -- only what comes of an attempt can ask for a retry
    have hcounts : Proxy.Counts D g.world c _ (Proxy.onUpstream D g.world c o) :=
      Proxy.counts_onUpstream
    refine ⟨hput _ _ rfl, .resumes (by rw [hh]; rfl) ?_ ?_ ?_⟩
    · rw [put_handler_self]
      exact Handler.begun_of_entered Proxy.onUpstream_entered
    · rw [retryOf, hh, Option.toList_map, List.length_map]
      exact hcounts.retriesTotal
    · rw [put_handler_self, hcounts.sends, retryOf, hh]
      simp
  | @drained r c status o hh =>
    cases hr
    have hcounts : Proxy.Counts D g.world c _ (Proxy.onDrained D g.world c status o) :=
      Proxy.counts_onDrained
    refine ⟨hput _ _ rfl, .resumes (by rw [hh]; rfl) ?_ ?_ ?_⟩
    · rw [put_handler_self]
      exact Handler.begun_of_entered Proxy.onDrained_entered
    · rw [retryOf, hh, Option.toList_map, List.length_map]
      exact hcounts.retriesTotal
    · rw [put_handler_self, hcounts.sends, retryOf, hh]
      simp
  | streamStart hh =>
    cases hr
    refine ⟨hput _ _ rfl, .relays ?_ rfl rfl ?_⟩ <;> rw [put_handler_self] <;> rfl
  | streamEnd e raises hh =>
    cases hr
    refine ⟨hput _ _ rfl, .relays ?_ rfl Proxy.inner_onStreamEnd.retriesTotal ?_⟩ <;>
      rw [put_handler_self] <;> cases raises <;> rfl
  | streamDropped hh =>
    cases hr
    refine ⟨hput _ _ rfl, .relays ?_ rfl World.inner_endAttempt.retriesTotal ?_⟩ <;>
      rw [put_handler_self] <;> rfl

/-! ## What a step is to the log -/

variable {log : SendLog}

/-- The log is of this run: who has been sent has begun, an attempt that may be retried
has been sent, and every re-send has been counted. -/
structure Booked (s : Gateway × SendLog) : Prop where
  begun : ∀ r ∈ s.2.sent, (s.1.handler r).begun = true
  sent : ∀ r, (s.1.handler r).retryable = true → r ∈ s.2.sent
  resends_le : resends s.2.sent ≤ s.1.world.retriesTotal

/-- The three ways a step can be put down: it has nothing to do with retries, it re-sends
a request, or it counts a retry that is not sent. -/
inductive Entry (D : Deployment) (g : Gateway) (a : Action) (g' : Gateway) (log : SendLog) :
    Prop where
  | aside (hretry : g.retryOf D a = none)
      (htotal : g'.world.retriesTotal = g.world.retriesTotal)
      (hresends : resends (logStep D g a g' log).sent = resends log.sent)
  | resent (hsent : RetrySent D (g, log) a) (halternate : g.alternateFor D a = true)
      (htotal : g'.world.retriesTotal = g.world.retriesTotal + 1)
      (hresends : resends (logStep D g a g' log).sent = resends log.sent + 1)
  | unsent (hnot : ¬ RetrySent D (g, log) a)
      (htotal : g'.world.retriesTotal = g.world.retriesTotal + 1)
      (hresends : resends (logStep D g a g' log).sent = resends log.sent)

/-- A step after which the handler sends is logged as a send. -/
theorem logStep_of_sends (hr : g.requestOf a = some r) (hs : (g'.handler r).sends = true) :
    (logStep D g a g' log).sent = r :: log.sent := by
  have hsent : g.sentBy a g' = some r := by
    rw [sentBy, hr]
    exact Option.filter_some_eq_some.mpr hs
  simp [logStep, hsent]

theorem logStep_of_not_sends (hr : g.requestOf a = some r) (hs : (g'.handler r).sends = false) :
    (logStep D g a g' log).sent = log.sent := by
  simp [logStep, sentBy, hr, hs]

/-- A send of a request that was sent before is a re-send. -/
theorem resends_cons_of_mem {sent : List ReqId} (h : r ∈ sent) :
    resends (r :: sent) = resends sent + 1 := by
  rw [resends, if_pos h]

theorem resends_cons_of_notMem {sent : List ReqId} (h : r ∉ sent) :
    resends (r :: sent) = resends sent := by
  rw [resends, if_neg h, Nat.add_zero]

theorem Booked.notMem (h : Booked (g, log)) (hr : (g.handler r).begun = false) :
    r ∉ log.sent := fun hmem => Bool.false_ne_true (hr.symm.trans (h.begun r hmem))

/-- How a turn is put down: a first send is no re-send, a retry that is sent is one, and
a retry that is not sent is counted all the same. -/
theorem entry_of_turn (h : Booked (g, log)) (hr : g.requestOf a = some r)
    (ht : Turn D g a g' r) : Entry D g a g' log := by
  cases ht with
  | enters hbegun hretry htotal hsends =>
    refine .aside hretry htotal ?_
    cases hs : (g'.handler r).sends with
    | false => rw [logStep_of_not_sends hr hs]
    | true => rw [logStep_of_sends hr hs, resends_cons_of_notMem (h.notMem hbegun)]
  | resumes hout hbegun htotal hsends =>
    cases hretry : g.retryOf D a with
    | none =>
      have hs : (g'.handler r).sends = false := by
        refine Bool.eq_false_iff.mpr fun hs => ?_
        obtain ⟨retry, hsome, -⟩ := hsends.mp hs
        cases hretry.symm.trans hsome
      rw [hretry] at htotal
      exact .aside hretry htotal (by rw [logStep_of_not_sends hr hs])
    | some retry =>
      rw [hretry] at htotal
      have hguard : RetrySent D (g, log) a ↔ Proxy.Resendable D retry.1 retry.2 := by
        simp [RetrySent, hretry]
      -- the retry that is wanted is sent, or only counted
      by_cases hresend : Proxy.Resendable D retry.1 retry.2
      · have hs : (g'.handler r).sends = true := hsends.mpr ⟨retry, hretry, hresend⟩
        refine .resent (hguard.mpr hresend) ?_ htotal ?_
        · rw [alternateFor, hretry]
          exact decide_eq_true hresend.1
        · rw [logStep_of_sends hr hs, resends_cons_of_mem (h.sent r hout)]
      · have hs : (g'.handler r).sends = false := by
          refine Bool.eq_false_iff.mpr fun hs => ?_
          obtain ⟨_, hsome, hresend'⟩ := hsends.mp hs
          cases hretry.symm.trans hsome
          exact hresend hresend'
        exact .unsent (fun hguard' => hresend (hguard.mp hguard')) htotal
          (by rw [logStep_of_not_sends hr hs])
  | relays hbegun hretry htotal hout =>
    have hs : (g'.handler r).sends = false := by
      refine Bool.eq_false_iff.mpr fun hs => ?_
      exact Bool.false_ne_true (hout.symm.trans (Handler.retryable_of_sends hs))
    exact .aside hretry htotal (by rw [logStep_of_not_sends hr hs])

/-- **Step lemma.** A step belongs to a request and is put down by its turn, or is a
tick. -/
theorem entry_of_steps (h : Booked (g, log)) (hinv : g.Inv) (hs : Steps D g a g') :
    Entry D g a g' log := by
  cases hr : g.requestOf a with
  | some r => exact entry_of_turn h hr (turn_of_steps hinv hs hr).2
  | none =>
    cases hs with
    | tick => exact .aside rfl Admission.uncounted_schedulerTick.retriesTotal rfl
    | _ => cases hr

theorem mem_logStep_iff (hr : g.requestOf a = some r) {r' : ReqId} :
    r' ∈ (logStep D g a g' log).sent ↔ (r' = r ∧ (g'.handler r).sends = true) ∨ r' ∈ log.sent := by
  cases hs : (g'.handler r).sends with
  | false => simp [logStep_of_not_sends hr hs]
  | true => simp [logStep_of_sends hr hs]

/-- A step that is put down keeps the counter with the log, if it sends the retry it
wants. -/
theorem Entry.counted_iff (he : Entry D g a g' log) (h : Booked (g, log)) :
    RetriesCounted (g', logStep D g a g' log) ↔
      RetriesCounted (g, log) ∧ RetrySent D (g, log) a := by
  have hle : resends log.sent ≤ g.world.retriesTotal := h.resends_le
  cases he with
  | aside hretry htotal hresends =>
    have hidle : (logStep D g a g' log).idle = log.idle := by
      simp [logStep, htotal]
    have hguard : RetrySent D (g, log) a := by
      simp [RetrySent, hretry]
    constructor
    · rintro ⟨htotal', hidle'⟩
      exact ⟨⟨by rw [← htotal, htotal', hresends], hidle ▸ hidle'⟩, hguard⟩
    · rintro ⟨⟨htotal', hidle'⟩, -⟩
      exact ⟨by rw [htotal, htotal', hresends], hidle.trans hidle'⟩
  | resent hsent halternate htotal hresends =>
    have hidle : (logStep D g a g' log).idle = log.idle := by
      simp [logStep, halternate]
    constructor
    · rintro ⟨htotal', hidle'⟩
      refine ⟨⟨?_, hidle ▸ hidle'⟩, hsent⟩
      rw [htotal, hresends] at htotal'
      exact Nat.add_right_cancel htotal'
    · rintro ⟨⟨htotal', hidle'⟩, -⟩
      exact ⟨by rw [htotal, htotal', hresends], hidle.trans hidle'⟩
  | unsent hnot htotal hresends =>
    -- the counter is ahead of the re-sends for good
    refine iff_of_false ?_ fun hall => hnot hall.2
    rintro ⟨htotal', -⟩
    rw [htotal, hresends] at htotal'
    exact absurd htotal' (Nat.ne_of_gt (Nat.lt_succ_of_le hle))

/-- The counter never falls behind the log. -/
theorem Entry.resends_le (he : Entry D g a g' log) (h : Booked (g, log)) :
    resends (logStep D g a g' log).sent ≤ g'.world.retriesTotal := by
  have hle : resends log.sent ≤ g.world.retriesTotal := h.resends_le
  cases he <;> omega

/-- The log goes on knowing every request that can be retried, and no request that has
not begun. -/
theorem Booked.step (h : Booked (g, log)) (hinv : g.Inv) (hs : Steps D g a g') :
    Booked (g', logStep D g a g' log) := by
  have hle := (entry_of_steps h hinv hs).resends_le h
  cases hr : g.requestOf a with
  | none =>
    cases hs with
    | tick => exact ⟨h.begun, h.sent, hle⟩
    | _ => cases hr
  | some r =>
    -- the step is about one request, so the others are where they were
    obtain ⟨hother, ht⟩ := turn_of_steps hinv hs hr
    have hbegun : (g.handler r).begun = true → (g'.handler r).begun = true := by
      cases ht with
      | enters hfresh => exact fun hb => absurd hb (Bool.eq_false_iff.mp hfresh)
      | resumes _ hb => exact fun _ => hb
      | relays hb => exact fun _ => hb
    have hsent : (g'.handler r).retryable = true → (g'.handler r).sends = true ∨ r ∈ log.sent := by
      cases ht with
      | enters _ _ _ hsends => exact fun hretry => .inl (hsends hretry)
      | resumes hout => exact fun _ => .inr (h.sent r hout)
      | relays _ _ _ hout => exact fun hretry => absurd hretry (Bool.eq_false_iff.mp hout)
    refine ⟨fun r' hr' => ?_, fun r' hr' => (mem_logStep_iff hr).mpr ?_, hle⟩
    · rcases (mem_logStep_iff hr).mp hr' with ⟨rfl, hs⟩ | hmem
      · exact Handler.begun_of_retryable (Handler.retryable_of_sends hs)
      · have hold := h.begun r' hmem
        by_cases hne : r' = r
        · subst hne
          exact hbegun hold
        · show (g'.handler r').begun = true
          rw [hother r' hne]
          exact hold
    · by_cases hne : r' = r
      · subst hne
        exact (hsent hr').imp (And.intro rfl) id
      · have hold : (g.handler r').retryable = true := hother r' hne ▸ hr'
        exact .inr (h.sent r' hold)

/-! ## Whole runs -/

theorem reachable_of_logged {ok : Gateway × SendLog → Action → Prop} {s : Gateway × SendLog}
    (h : Reach (logged D) ok s) : Reachable D s.1 :=
  reach_of_observe (fun _ => logged_start) h

theorem steps_of_logged {s s' : Gateway × SendLog} (h : (logged D).step s a s') :
    Steps D s.1 a s'.1 ∧ s'.2 = logStep D s.1 a s'.1 s.2 := by
  obtain ⟨g', hg', rfl⟩ := Option.map_eq_some_iff.mp h
  exact ⟨steps_of_step hg', rfl⟩

/-- **Run lemma.** In every run the log of sends is in order: whoever may retry has sent
before, and what is counted as a retry is bounded by it. -/
theorem booked_of_reach {s : Gateway × SendLog} (h : Reach (logged D) anyStep s) : Booked s := by
  induction h with
  | start hstart =>
    obtain ⟨clock, rfl⟩ := hstart
    refine ⟨fun r hr => ?_, fun r hr => ?_, le_refl _⟩
    · cases hr
    · cases hr
  | @step s s' a hreach _ hstep ih =>
    obtain ⟨hs, hlog⟩ := steps_of_logged hstep
    have hnew : Booked (s'.1, logStep D s.1 a s'.1 s.2) :=
      ih.step (inv_of_reach (reachable_of_logged hreach)) hs
    rwa [← hlog] at hnew

/-- **Retries counted.** Whatever requests arrive and however their attempts end, the
counter is the number of re-sends, with nothing added by failed attempts that had no
eligible alternate, exactly when every retry wanted on the way found an alternate and
could be sent to it. -/
theorem retries_iff {s : Gateway × SendLog} (h : Reach (logged D) anyStep s) :
    RetriesCounted s ↔ Reach (logged D) (RetrySent D) s := by
  refine h.iff_guarded (fun s hs => ?_) fun s a s' hreach hstep => ?_
  · obtain ⟨clock, rfl⟩ := hs
    exact ⟨rfl, rfl⟩
  · have hbooked := booked_of_reach hreach
    obtain ⟨hs, hlog⟩ := steps_of_logged hstep
    have hentry := entry_of_steps hbooked (inv_of_reach (reachable_of_logged hreach)) hs
    have hiff := hentry.counted_iff hbooked
    rwa [← hlog] at hiff

/-- A buffered request times out on one of two backends, and is answered by the other. -/
def served : Option (Gateway × SendLog) :=
  runGuarded (observe (step pair) (logStep pair)) (RetrySent pair)
    (init pair still, ⟨[], 0⟩)
    [.arrive (chat false), .tick, .resume 0, .upstream 0 (.failed (.timeout "timed out")),
      .upstream 0 (.response 200 true)]

theorem retries_iff_served : ∃ s, served = some s ∧ s.1.world.retriesTotal = 1 ∧
    s.2 = ⟨[0, 0], 0⟩ ∧ RetriesCounted s := by
  have hrun : served.any (fun s => s.1.world.retriesTotal = 1 ∧ s.2 = ⟨[0, 0], 0⟩) = true := by
    decide +kernel
  obtain ⟨s, hs, hall⟩ := (Option.any_eq_true _ _).mp hrun
  obtain ⟨htotal, hlog⟩ := of_decide_eq_true hall
  have hreach : Reach (logged pair) (RetrySent pair) s :=
    reach_runGuarded (.start ⟨_, rfl⟩) hs
  exact ⟨s, hs, htotal, hlog, (retries_iff hreach.any).mpr hreach⟩

/-- With one backend there is no alternate: the request that timed out is sent once, and
a retry is counted. -/
theorem retries_fail_lone : ∃ s, Reach (logged lone) anyStep s ∧ s.1.world.retriesTotal = 1 ∧
    s.2 = ⟨[0], 1⟩ ∧ ¬ RetriesCounted s := by
  let run := runList (observe (step lone) (logStep lone)) (init lone still, ⟨[], 0⟩)
    [.arrive (chat false), .tick, .resume 0, .upstream 0 (.failed (.timeout "timed out"))]
  have hrun : run.any (fun s => s.1.world.retriesTotal = 1 ∧ s.2 = ⟨[0], 1⟩) = true := by
    decide +kernel
  obtain ⟨s, hs, hall⟩ := (Option.any_eq_true _ _).mp hrun
  obtain ⟨htotal, hlog⟩ := of_decide_eq_true hall
  refine ⟨s, reach_runList (.start ⟨_, rfl⟩) (fun _ _ _ => trivial) hs, htotal, hlog, fun h => ?_⟩
  have hidle := h.idle
  rw [hlog] at hidle
  cases hidle

end Gateway

end InferenceGateway
