import InferenceGateway.Backends.Writes
import InferenceGateway.Proxy.Outcomes

/-!
# What the proxy writes to the history

Inside the proxy nothing of the hand-over is written: it calls neither the route
nor the scheduler. Its entry writes that it was called, and what follows are
events of attempts, and a count of retries.

One lemma for each function of `Proxy.Client`, in the order in which they call
each other, says which kind of events it writes in the sense of
`Backends.Writes`. The resumptions at the end, `quiet_onUpstream`,
`quiet_onDrained` and `inner_onStreamEnd`, are what an argument about the whole
gateway uses for the steps of a handler that is inside the proxy.
-/

namespace InferenceGateway

namespace Proxy

open World

variable {D : Deployment} {w : World} {c : ProxyCall} {status : ℤ} {relayable : Bool}
  {e : UpstreamError}

/-- Looking for an alternate moves circuits and takes a slot. -/
theorem slotWrites_pickRetryTarget {cfg : GatewayConfig} {cls : RequestClass} {avoid : String} :
    SlotWrites w (pickRetryTarget cfg w cls avoid).1 := by
  have hsearch : SlotWrites w (search cfg w cls avoid).1 := by
    obtain ⟨-, htrace, -⟩ := Scoring.pickBackend_sameButClock cfg.routing cls
      (eligible cfg.health (some avoid) w.names w).2 (eligible cfg.health (some avoid) w.names w).1
    exact (slotWrites_eligible cfg.health (some avoid) w.names w).trans (.ofTrace htrace)
  rcases pickRetryTarget_cases cfg w cls avoid with ⟨-, h⟩ | ⟨b, -, h⟩ <;> rw [h]
  · exact hsearch
  · exact hsearch.trans slotWrites_takeSlot

theorem inner_pickRetryTarget {cfg : GatewayConfig} {cls : RequestClass} {avoid : String} :
    Inner w (pickRetryTarget cfg w cls avoid).1 := slotWrites_pickRetryTarget.inner

/-- An attempt that begins writes nothing, or that it ended before it was sent. -/
theorem slotWrites_beginAttempt : SlotWrites w (beginAttempt D w c).1 := by
  rcases beginAttempt_cases D w c with ⟨-, reply, -, h⟩ | ⟨v, hv, h⟩ | ⟨reply, h⟩ <;> rw [h]
  · exact slotWrites_endAttempt
  · exact .ofTrace hv.2.1
  · exact slotWrites_releaseDispatch.trans slotWrites_endAttempt

theorem inner_beginAttempt : Inner w (beginAttempt D w c).1 := slotWrites_beginAttempt.inner

/-- The entry of the proxy is written, and then nothing of the hand-over. -/
theorem quiet_start {p : PendingRequest} {initial : Lease} :
    Quiet (w.emit (.proxied p.oid initial)) (start D w p initial).1 :=
  inner_beginAttempt.quiet

/-- After the retry is counted, the slot is given back and the attempt over. -/
theorem slotWrites_giveBack {how : Ending} :
    SlotWrites (w.emit .retriesTotal) (giveBack w c how) :=
  slotWrites_releaseDispatch.trans slotWrites_endAttempt

theorem inner_giveBack {how : Ending} : Inner (w.emit .retriesTotal) (giveBack w c how) :=
  slotWrites_giveBack.inner

/-- The tail of a failed attempt writes of slots, and perhaps of a retry, which is not
about the hand-over either. -/
theorem quiet_retryOrGiveUp {retry : Bool} {how : Ending} {final : Reply} :
    Quiet w (retryOrGiveUp D w c retry how final).1 := by
  have hpick : Quiet w (pickRetryTarget D.cfg (giveBack w c how) c.reqClass c.target.name).1 :=
    (Writes.emit rfl).trans (inner_giveBack.quiet.trans inner_pickRetryTarget.quiet)
  rcases retryOrGiveUp_cases D w c retry how final with
    ⟨-, h⟩ | ⟨-, -, h⟩ | ⟨-, grant, -, h⟩ <;> rw [h]
  · exact inner_releaseDispatch.quiet.trans inner_endAttempt.quiet
  · exact hpick.trans inner_releaseDispatch.quiet
  · exact hpick.trans inner_beginAttempt.quiet

/-- Accounting for an error status writes of its attempt. -/
theorem inner_accountErrorStatus : Inner w (accountErrorStatus D w c status) :=
  inner_recordErrorStatus.trans (.emit rfl)

/-- Accounting for a transport error writes of its attempt. -/
theorem inner_accountTransportError : Inner w (accountTransportError D w c) :=
  (Writes.emit rfl).trans inner_recordFailure

/-- A transport error is accounted for, and then retried or not. -/
theorem quiet_onTransportError : Quiet w (onTransportError D w c e).1 := by
  unfold onTransportError
  exact inner_accountTransportError.quiet.trans quiet_retryOrGiveUp

/-- A stream that could not be sent is accounted for and its slot given back. -/
theorem inner_onStreamSendError : Inner w (onStreamSendError D w c e).1 :=
  ((inner_recordFailure.trans (.emit rfl)).trans inner_releaseDispatch).trans inner_endAttempt

/-- A stream that is relayed has been recorded as a success. -/
theorem inner_relayedWorld : Inner w (relayedWorld w c) := inner_recordSuccess (w := w.readClock)

/-- An answered attempt is sampled and gives its slot back. -/
theorem inner_answered {ttftMs : Option ℚ} {e2eMs : ℚ} {how : Ending} :
    Inner w (((w.readClock.recordSuccess c.target.name c.lease.probe ttftMs e2eMs).releaseDispatch
      c.target.name c.reqClass).endAttempt c.lease how) :=
  ((inner_recordSuccess (w := w.readClock)).trans inner_releaseDispatch).trans inner_endAttempt

/-- A streamed error is accounted for and gives its slot back. -/
theorem inner_read : Inner w (((accountErrorStatus D w c status).releaseDispatch c.target.name
    c.reqClass).endAttempt c.lease (errorEnding status)) :=
  (inner_accountErrorStatus.trans inner_releaseDispatch).trans inner_endAttempt

/-- **A resumption from `sending` says nothing of the hand-over**, whatever branch it
takes. -/
theorem quiet_onUpstream {o : Upstream} : Quiet w (onUpstream D w c o).1 := by
  generalize hnext : onUpstream D w c o = next
  cases upstreams_of_eq hnext with
  | answered hs hlt => exact inner_answered.quiet
  | refused hs hge =>
    exact (inner_accountErrorStatus (w := w.readClock)).quiet.trans quiet_retryOrGiveUp
  | relayed hs hlt => exact inner_relayedWorld.quiet
  | unrelayable hs hlt => exact inner_relayedWorld.quiet.trans inner_endAttempt.quiet
  | drained hs hge => exact .readClock w
  | uncaught he => exact inner_endAttempt.quiet
  | streamError hs he => exact inner_onStreamSendError.quiet
  | transportError hs he => exact quiet_onTransportError

/-- **A resumption from `draining` says nothing of the hand-over**: what it writes are
events of attempts and a count of retries. -/
theorem quiet_onDrained {o : BodyRead} : Quiet w (onDrained D w c status o).1 := by
  generalize hnext : onDrained D w c status o = next
  cases drains_of_eq hnext with
  | read => exact inner_read.quiet
  | uncaught he => exact inner_endAttempt.quiet
  | transportError he => exact quiet_onTransportError

/-- The end of a stream writes of its attempt only. -/
theorem inner_onStreamEnd {startedAt : ℚ} {acloseRaises : Bool} :
    Inner w (onStreamEnd w c startedAt acloseRaises).1 := by
  cases acloseRaises with
  | true => exact inner_endAttempt
  | false =>
    exact ((inner_sampleStream (w := w.readClock)).trans inner_releaseDispatch).trans
      inner_endAttempt

end Proxy

end InferenceGateway
