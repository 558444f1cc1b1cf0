import InferenceGateway.Proxy.Client

/-!
# What an upstream outcome does to an attempt

Three readings of the proxy's branches, as functions of what is known before the
branch is taken: the verdict it records on the backend (`verdictOnUpstream`),
the world in which it looks for an alternate (`retryOnUpstream`), and whether it
leaves the attempt's slot behind (`leaksOnUpstream`), each with its companion
for a streamed error whose body is read. They are what conditions on a run are
phrased with, since they speak of the state before a step and of its label only.
The refinement of the fleet shows that they say what the proxy does.

- `upstreams_of_eq` and `drains_of_eq` say once which branches a resumption has:
  `Upstreams` and `Drains` have a constructor for each.
- `beginAttempt_cases`, `pickRetryTarget_cases` and `retryOrGiveUp_cases` do the
  same for the steps of the retry loop.
- `…_entered`: whatever happens, a handler inside the proxy stays with the
  request it was called for.
-/

namespace InferenceGateway

/-- The handler has entered the proxy for `p`, or is past it. -/
def Handler.Entered (p : PendingRequest) : Handler → Prop
  | .sending c | .draining c _ | .relaying c _ => c.pending = p
  | .streamed _ | .replied _ => True
  | _ => False

namespace Proxy

/-- The outcome a resumption from `sending` records on the backend, if any. -/
def verdictOnUpstream (c : ProxyCall) : Upstream → Option Verdict
  | .response status _ =>
    if status < 400 then some .success
    else if c.pending.classify.stream then none
    else if 500 ≤ status then some .failure
    else none
  | .failed e => if e.caught then some .failure else none

/-- The outcome a resumption from `draining` records. -/
def verdictOnDrained (status : ℤ) : BodyRead → Option Verdict
  | .read _ => if 500 ≤ status then some .failure else none
  | .failed e => if e.caught then some .failure else none

/-- The world a failed buffered attempt looks for an alternate in, when it wants
one: its failure is accounted for and its slot given back. -/
def retryOnUpstream (D : Deployment) (w : World) (c : ProxyCall) : Upstream → Option World
  | .response status _ =>
    if c.pending.classify.stream = false ∧ 400 ≤ status ∧ attemptsLeft D.cfg c = true ∧
        retryableStatus D.cfg status = true then
      some (giveBack (accountErrorStatus D w.readClock c status) c (errorEnding status))
    else none
  | .failed e =>
    if c.pending.classify.stream = false ∧ e.caught = true ∧ attemptsLeft D.cfg c = true then
      some (giveBack (accountTransportError D w c) c .failure)
    else none

/-- The world a streamed call looks for an alternate in, when the body of an error
cannot be read and it wants one. -/
def retryOnDrained (D : Deployment) (w : World) (c : ProxyCall) : BodyRead → Option World
  | .read _ => none
  | .failed e =>
    if e.caught = true ∧ attemptsLeft D.cfg c = true then
      some (giveBack (accountTransportError D w c) c .failure)
    else none

/-- Some other backend is eligible in the world a failed attempt retries in. -/
def hasAlternate (D : Deployment) (c : ProxyCall) (w : World) : Prop :=
  (World.eligible D.cfg.health (some c.target.name) w.names w).2 ≠ []

instance (D : Deployment) (c : ProxyCall) (w : World) : Decidable (hasAlternate D c w) :=
  inferInstanceAs (Decidable (_ ≠ _))

/-- The retry picks a backend that takes the request for one to the fallback
provider, and the API key for that is missing. -/
def retryUnsendable (D : Deployment) (c : ProxyCall) (w : World) : Prop :=
  ∃ grant, (pickRetryTarget D.cfg w c.reqClass c.target.name).2 = some grant ∧
    prepareTargetRequest D grant.target c.pending ≠ none

/-- A resumption from `sending` ends the attempt, or the one it is retried with,
without giving its slot back. -/
def leaksOnUpstream (D : Deployment) (w : World) (c : ProxyCall) (o : Upstream) : Prop :=
  (c.lease.holds = true ∧
    match o with
    | .response status relayable =>
      c.pending.classify.stream = true ∧ status < 400 ∧ relayable = false
    | .failed e => e.caught = false) ∨
  ∃ w', retryOnUpstream D w c o = some w' ∧ retryUnsendable D c w'

/-- A resumption from `draining` leaves the slot behind: what is raised is not caught,
or the request of the retry cannot be sent. -/
def leaksOnDrained (D : Deployment) (w : World) (c : ProxyCall) (o : BodyRead) : Prop :=
  (c.lease.holds = true ∧
    match o with
    | .read _ => False
    | .failed e => e.caught = false) ∨
  ∃ w', retryOnDrained D w c o = some w' ∧ retryUnsendable D c w'

/-- A call that starts under `initial` cannot send its first request, and leaves
the slot it was handed behind. -/
def leaksOnStart (D : Deployment) (p : PendingRequest) (initial : Lease) : Prop :=
  initial.holds = true ∧ 0 < D.cfg.retry.maxAttempts ∧
    prepareTargetRequest D initial.target p ≠ none

/-! ## The branches of a resumption -/

variable {D : Deployment} {w : World} {c : ProxyCall} {status : ℤ} {relayable : Bool}
  {e : UpstreamError}

/-- The headers of a streamed answer go to the streaming branch. -/
theorem onUpstream_headers (h : c.pending.classify.stream = true) :
    onUpstream D w c (.response status relayable) = onStreamHeaders w c status relayable := by
  simp [onUpstream, h]

/-- A buffered answer goes to the status branch of the loop. -/
theorem onUpstream_buffered (h : c.pending.classify.stream = false) :
    onUpstream D w c (.response status relayable) = onBufferedResponse D w c status relayable := by
  simp [onUpstream, h]

/-- An exception that no clause names leaves the handler, buffered or streamed. -/
theorem onUpstream_uncaught (h : e.caught = false) :
    onUpstream D w c (.failed e) = onUncaught w c e := by
  simp [onUpstream, h]

/-- A timeout or connect error while a streamed request is sent is answered 504 at once,
without a look at the attempts that are left. -/
theorem onUpstream_streamError (h : e.caught = true) (hs : c.pending.classify.stream = true) :
    onUpstream D w c (.failed e) = onStreamSendError D w c e := by
  simp [onUpstream, h, hs]

/-- A timeout or connect error of a buffered request goes to the `except` clause of the
loop. -/
theorem onUpstream_transportError (h : e.caught = true)
    (hs : c.pending.classify.stream = false) :
    onUpstream D w c (.failed e) = onTransportError D w c e := by
  simp [onUpstream, h, hs]

/-- The same exceptions leave the handler when they come while an error body is read. -/
theorem onDrained_uncaught (h : e.caught = false) :
    onDrained D w c status (.failed e) = onUncaught w c e := by
  simp [onDrained, h]

/-- A timeout or connect error while an error body is read is not handled in the
streaming function, and reaches the `except` clause of the loop. -/
theorem onDrained_transportError (h : e.caught = true) :
    onDrained D w c status (.failed e) = onTransportError D w c e := by
  simp [onDrained, h]

/-- The time an attempt has taken, if its response is there now. -/
def latencyMs (w : World) (c : ProxyCall) : ℚ := (w.readClock.clock.now - c.sentAt) * 1000

/-- A buffered success is recorded, its slot given back and its response relayed. -/
theorem onBufferedResponse_of_lt (h : status < 400) :
    onBufferedResponse D w c status relayable =
      (((w.readClock.recordSuccess c.target.name c.lease.probe (some (min (latencyMs w c) 10000))
        (latencyMs w c)).releaseDispatch c.target.name c.reqClass).endAttempt c.lease .success,
        .replied (relay status relayable)) := if_pos h

/-- A buffered error status is accounted for, and then retried or relayed. -/
theorem onBufferedResponse_of_le (h : 400 ≤ status) :
    onBufferedResponse D w c status relayable =
      retryOrGiveUp D (accountErrorStatus D w.readClock c status) c
        (attemptsLeft D.cfg c && retryableStatus D.cfg status) (errorEnding status)
        (relay status relayable) := if_neg (not_lt.mpr h)

/-- The world in which a stream is relayed. -/
def relayedWorld (w : World) (c : ProxyCall) : World :=
  w.readClock.recordSuccess c.target.name c.lease.probe (some (latencyMs w c)) (latencyMs w c)

/-- A streamed success is recorded when its headers arrive; then its generator owns the
slot, unless the response could not be built. -/
theorem onStreamHeaders_of_lt (h : status < 400) :
    onStreamHeaders w c status relayable =
      if relayable then (relayedWorld w c, .relaying c none)
      else ((relayedWorld w c).endAttempt c.lease .relayFailed,
        .replied (relay status relayable)) := if_neg (not_le.mpr h)

/-- A streamed error is accounted for once its body has been read. -/
theorem onStreamHeaders_of_le (h : 400 ≤ status) :
    onStreamHeaders w c status relayable = (w.readClock, .draining c status) := if_pos h

/-- `onUpstream` as a relation: one constructor for each way an attempt can go on. -/
inductive Upstreams (D : Deployment) (w : World) (c : ProxyCall) :
    Upstream → World × Handler → Prop where
  | answered {status : ℤ} {relayable : Bool} (hs : c.pending.classify.stream = false)
      (hlt : status < 400) :
      Upstreams D w c (.response status relayable)
        (((w.readClock.recordSuccess c.target.name c.lease.probe (some (min (latencyMs w c) 10000))
          (latencyMs w c)).releaseDispatch c.target.name c.reqClass).endAttempt c.lease .success,
          .replied (relay status relayable))
  | refused {status : ℤ} {relayable : Bool} (hs : c.pending.classify.stream = false)
      (hge : 400 ≤ status) :
      Upstreams D w c (.response status relayable)
        (retryOrGiveUp D (accountErrorStatus D w.readClock c status) c
          (attemptsLeft D.cfg c && retryableStatus D.cfg status) (errorEnding status)
          (relay status relayable))
  | relayed {status : ℤ} (hs : c.pending.classify.stream = true) (hlt : status < 400) :
      Upstreams D w c (.response status true) (relayedWorld w c, .relaying c none)
  | unrelayable {status : ℤ} (hs : c.pending.classify.stream = true) (hlt : status < 400) :
      Upstreams D w c (.response status false)
        ((relayedWorld w c).endAttempt c.lease .relayFailed, .replied (relay status false))
  | drained {status : ℤ} {relayable : Bool} (hs : c.pending.classify.stream = true)
      (hge : 400 ≤ status) :
      Upstreams D w c (.response status relayable) (w.readClock, .draining c status)
  | uncaught {e : UpstreamError} (he : e.caught = false) :
      Upstreams D w c (.failed e) (onUncaught w c e)
  | streamError {e : UpstreamError} (hs : c.pending.classify.stream = true)
      (he : e.caught = true) : Upstreams D w c (.failed e) (onStreamSendError D w c e)
  | transportError {e : UpstreamError} (hs : c.pending.classify.stream = false)
      (he : e.caught = true) : Upstreams D w c (.failed e) (onTransportError D w c e)

/-- **Inversion.** A resumption from `sending` takes one of the branches of `Upstreams`:
by the outcome, the status, and whether the request is streamed. -/
theorem upstreams_of_eq {o : Upstream} {next : World × Handler} (h : onUpstream D w c o = next) :
    Upstreams D w c o next := by
  subst h
  -- by the outcome, then the kind of the call, then the status
  cases o with
  | response status relayable =>
    cases hs : c.pending.classify.stream with
    | false =>
      rw [onUpstream_buffered hs]
      rcases lt_or_ge status 400 with hlt | hge
      · rw [onBufferedResponse_of_lt hlt]
        exact .answered hs hlt
      · rw [onBufferedResponse_of_le hge]
        exact .refused hs hge
    | true =>
      rw [onUpstream_headers hs]
      rcases lt_or_ge status 400 with hlt | hge
      · rw [onStreamHeaders_of_lt hlt]
        cases relayable with
        | false => exact .unrelayable hs hlt
        | true => exact .relayed hs hlt
      · rw [onStreamHeaders_of_le hge]
        exact .drained hs hge
  | failed e =>
    cases he : e.caught with
    | false =>
      rw [onUpstream_uncaught he]
      exact .uncaught he
    | true =>
      cases hs : c.pending.classify.stream with
      | false =>
        rw [onUpstream_transportError he hs]
        exact .transportError hs he
      | true =>
        rw [onUpstream_streamError he hs]
        exact .streamError hs he

/-- `onDrained` as a relation. -/
inductive Drains (D : Deployment) (w : World) (c : ProxyCall) (status : ℤ) :
    BodyRead → World × Handler → Prop where
  | read {relayable : Bool} :
      Drains D w c status (.read relayable)
        (((accountErrorStatus D w c status).releaseDispatch c.target.name c.reqClass).endAttempt
          c.lease (errorEnding status), .replied (relay status relayable))
  | uncaught {e : UpstreamError} (he : e.caught = false) :
      Drains D w c status (.failed e) (onUncaught w c e)
  | transportError {e : UpstreamError} (he : e.caught = true) :
      Drains D w c status (.failed e) (onTransportError D w c e)

/-- **Inversion.** A resumption from `draining` takes one of the branches of
`Drains`. -/
theorem drains_of_eq {o : BodyRead} {next : World × Handler}
    (h : onDrained D w c status o = next) : Drains D w c status o next := by
  subst h
  cases o with
  | read relayable => exact .read
  | failed e =>
    cases he : e.caught with
    | false =>
      rw [onDrained_uncaught he]
      exact .uncaught he
    | true =>
      rw [onDrained_transportError he]
      exact .transportError he

/-! ## The steps of the retry loop -/

/-- The search for an alternate: check all other backends, pick the cheapest that
passes. -/
def search (cfg : GatewayConfig) (w : World) (cls : RequestClass) (avoid : String) :
    World × Option String :=
  Scoring.pickBackend cfg.routing cls (World.eligible cfg.health (some avoid) w.names w).2
    (World.eligible cfg.health (some avoid) w.names w).1

/-- Looking for an alternate takes a slot on the backend the search finds. -/
theorem pickRetryTarget_cases (cfg : GatewayConfig) (w : World) (cls : RequestClass)
    (avoid : String) :
    ((search cfg w cls avoid).2 = none ∧
      pickRetryTarget cfg w cls avoid = ((search cfg w cls avoid).1, none)) ∨
    ∃ b, (search cfg w cls avoid).2 = some b ∧
      pickRetryTarget cfg w cls avoid = (((search cfg w cls avoid).1.takeSlot b cls).1,
        some ((search cfg w cls avoid).1.takeSlot b cls).2) := by
  cases hfound : search cfg w cls avoid with
  | mk v found =>
    rw [search] at hfound
    unfold pickRetryTarget
    cases found with
    | none => exact .inl ⟨rfl, by simp [hfound]⟩
    | some b => exact .inr ⟨b, rfl, by simp [hfound]⟩

/-- **The head of the loop.** An attempt cannot be prepared, is sent, or there is none
left. -/
theorem beginAttempt_cases (D : Deployment) (w : World) (c : ProxyCall) :
    ((c.attempts : ℤ) < D.cfg.retry.maxAttempts ∧
      ∃ reply, prepareTargetRequest D c.target c.pending = some reply ∧
        beginAttempt D w c = (w.endAttempt c.lease .neverSent, .replied reply)) ∨
    (∃ v, Scoring.SameButClock w v ∧ beginAttempt D w c =
      (v, .sending { c with attempts := c.attempts + 1, sentAt := v.clock.now })) ∨
    (∃ reply, beginAttempt D w c =
      ((w.releaseDispatch c.target.name c.reqClass).endAttempt c.lease .neverSent,
        .replied reply)) := by
  unfold beginAttempt
  by_cases hleft : (c.attempts : ℤ) < D.cfg.retry.maxAttempts
  · rw [if_pos hleft]
    cases hreply : prepareTargetRequest D c.target c.pending with
    | some reply => exact .inl ⟨hleft, reply, rfl, by simp only [hreply]⟩
    | none =>
      refine .inr (.inl ?_)
      simp only [hreply]
      -- a streamed attempt reads the clock twice
      cases c.pending.classify.stream with
      | false => exact ⟨_, Scoring.sameButClock_readClock w, rfl⟩
      | true =>
        have hread := Scoring.sameButClock_readClock w
        exact ⟨_, hread.trans (Scoring.sameButClock_readClock w.readClock), rfl⟩
  · rw [if_neg hleft]
    exact .inr (.inr ⟨_, rfl⟩)

/-- **The tail of a failed attempt.** It replies; or it gives its slot back, finds no
alternate and releases once more; or it goes on with the alternate. -/
theorem retryOrGiveUp_cases (D : Deployment) (w : World) (c : ProxyCall) (retry : Bool)
    (how : Ending) (final : Reply) :
    (retry = false ∧ retryOrGiveUp D w c retry how final =
      ((w.releaseDispatch c.target.name c.reqClass).endAttempt c.lease how, .replied final)) ∨
    (retry = true ∧
      (pickRetryTarget D.cfg (giveBack w c how) c.reqClass c.target.name).2 = none ∧
      retryOrGiveUp D w c retry how final =
        ((pickRetryTarget D.cfg (giveBack w c how) c.reqClass c.target.name).1.releaseDispatch
          c.target.name c.reqClass, .replied final)) ∨
    (retry = true ∧
      ∃ grant, (pickRetryTarget D.cfg (giveBack w c how) c.reqClass c.target.name).2 = some grant ∧
        retryOrGiveUp D w c retry how final =
          beginAttempt D (pickRetryTarget D.cfg (giveBack w c how) c.reqClass c.target.name).1
            { c with lease := .granted grant }) := by
  cases retry with
  | false => exact .inl ⟨rfl, rfl⟩
  | true =>
    unfold retryOrGiveUp
    rw [if_pos rfl]
    cases pickRetryTarget D.cfg (giveBack w c how) c.reqClass c.target.name with
    | mk v found =>
      cases found with
      | none => exact .inr (.inl ⟨rfl, rfl, rfl⟩)
      | some grant => exact .inr (.inr ⟨rfl, grant, rfl, rfl⟩)

/-- The ending of an attempt answered with an error is silent unless it is a 5xx. -/
theorem errorEnding_silent : (errorEnding status).silent = !decide (500 ≤ status) := by
  by_cases h500 : 500 ≤ status <;> simp [errorEnding, Ending.silent, h500]

/-! ## The proxy keeps to its request -/

/-- Beginning an attempt, or failing to, stays with the request. -/
theorem beginAttempt_entered : (beginAttempt D w c).2.Entered c.pending := by
  rcases beginAttempt_cases D w c with ⟨-, reply, -, h⟩ | ⟨v, -, h⟩ | ⟨reply, h⟩ <;> rw [h]
  · trivial
  · exact rfl
  · trivial

/-- A call of the proxy is a call for its request. -/
theorem start_entered {p : PendingRequest} {initial : Lease} :
    (start D w p initial).2.Entered p :=
  beginAttempt_entered

/-- A retry is for the same request. -/
theorem retryOrGiveUp_entered {retry : Bool} {how : Ending} {final : Reply} :
    (retryOrGiveUp D w c retry how final).2.Entered c.pending := by
  rcases retryOrGiveUp_cases D w c retry how final with
    ⟨-, h⟩ | ⟨-, -, h⟩ | ⟨-, grant, -, h⟩ <;> rw [h]
  · trivial
  · trivial
  · exact beginAttempt_entered (c := { c with lease := .granted grant })

/-- A transport error, retried or not, is one of the same request. -/
theorem onTransportError_entered : (onTransportError D w c e).2.Entered c.pending := by
  unfold onTransportError
  exact retryOrGiveUp_entered (c := { c with lastError := some e }.withFailure e)

/-- A resumption from `sending` stays with its request. -/
theorem onUpstream_entered {o : Upstream} : (onUpstream D w c o).2.Entered c.pending := by
  generalize hnext : onUpstream D w c o = next
  cases upstreams_of_eq hnext with
  | refused hs hge => exact retryOrGiveUp_entered
  | relayed hs hlt => exact rfl
  | drained hs hge => exact rfl
  | transportError hs he => exact onTransportError_entered
  | _ => trivial

/-- A resumption from `draining` stays with its request. -/
theorem onDrained_entered {o : BodyRead} : (onDrained D w c status o).2.Entered c.pending := by
  generalize hnext : onDrained D w c status o = next
  cases drains_of_eq hnext with
  | transportError he => exact onTransportError_entered
  | _ => trivial

/-- The end of a stream stays with its request. -/
theorem onStreamEnd_entered {startedAt : ℚ} {acloseRaises : Bool} :
    (onStreamEnd w c startedAt acloseRaises).2.Entered c.pending := by
  cases acloseRaises <;> trivial

end Proxy

end InferenceGateway
