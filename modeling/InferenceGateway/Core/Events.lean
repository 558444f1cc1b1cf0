import InferenceGateway.Core.Types

/-!
# Events

What the gateway did, in order. Each event sits where the source writes a log
line, bumps a counter, resolves a future or raises, so the history of a run is
its observable trace; counters such as `gateway_rejections_total` are counts of
events.

Some events carry data the program does not keep (*ghost* data), which only the
statements about histories read, and which no modelled function of the source
looks at:

- a `Grant` remembers the *half-open period* of the backend it was issued in
  (the number of times that backend had entered half-open), if the circuit was
  half-open then;
- a circuit move carries its `Cause`, and an attempt's end its `Ending`.

The history of one backend is what it sees of the trace. `Incident` is the part
of an event that concerns one backend, `Event.seenBy` tells whether it does, and
`history` collects the incidents, newest first like the trace. The state of the
breaker, the error rate and the probes of a period are all compared with this
list later on; `period` counts the entries into half-open, and so numbers the
periods.
-/

namespace InferenceGateway

/-- A dispatch target together with the slot taken for it. -/
structure Grant where
  target : BackendTarget
  /-- Ghost: the half-open period of the backend the slot was taken in. -/
  probe : Option ℕ
  deriving DecidableEq, Repr

/-- What `proxy_chat_completion` is called with as `initial`, or retries with:
a backend whose slot was taken, or the fallback provider, which has none. -/
inductive Lease where
  | granted (g : Grant)
  | fallback (t : BackendTarget)
  deriving DecidableEq, Repr

namespace Lease

/-- Where the attempt is sent. -/
def target : Lease → BackendTarget
  | .granted g => g.target
  | .fallback t => t

/-- A slot was taken for it. -/
def holds : Lease → Bool
  | .granted _ => true
  | .fallback _ => false

/-- The half-open period the attempt was dispatched in. -/
def probe : Lease → Option ℕ
  | .granted g => g.probe
  | .fallback _ => none

end Lease

/-- State of an `asyncio.Future[BackendTarget]`. -/
inductive Future where
  | unresolved
  | target (g : Grant)
  | scheduleError (message : String)
  | cancelled
  deriving DecidableEq, Repr

/-- `fut.done()` -/
def Future.done : Future → Bool
  | .unresolved => false
  | _ => true

/-- The two outcomes an attempt can be recorded with. -/
inductive Verdict where
  | success
  | failure
  deriving DecidableEq, Repr

/-- Why a circuit moved: the cooldown passed, or an attempt's outcome was
recorded (with the half-open period that attempt was dispatched in). -/
inductive Cause where
  | cooldown
  | success (probe : Option ℕ)
  | failure (probe : Option ℕ)
  deriving DecidableEq, Repr

/-- How an attempt that held a slot came to its end. -/
inductive Ending where
  | success
  | failure
  | clientError
  | uncaught
  | neverSent
  | handoffLost
  | relayFailed
  | streamDone
  | streamLost
  deriving DecidableEq, Repr

/-- Endings that recorded neither `on_success` nor `on_failure`. -/
def Ending.silent : Ending → Bool
  | .clientError | .uncaught | .neverSent | .handoffLost => true
  | _ => false

inductive Event where
  /-- `circuit_opened`, `circuit_half_open` or `circuit_closed` is logged. -/
  | moved (backend : String) (src dst : CircuitState) (cause : Cause) (time : ℚ)
  /-- A slot is taken: `record_dispatch`, `gateway_dispatch_total`. -/
  | dispatched (backend : String) (probe : Option ℕ) (time : ℚ)
  /-- `update_success` or `update_failure`. -/
  | sampled (backend : String) (failed : Bool)
  /-- `_release_dispatch` on a registered backend; did the `max(0, ·)` bite? -/
  | released (backend : String) (clamped : Bool)
  /-- Ghost: an attempt that held a slot is over. -/
  | ended (backend : String) (probe : Option ℕ) (how : Ending)
  /-- The scheduler sets a future (`before` is what it was), in a tick that
  captured the time `tick`. -/
  | resolved (request : PendingRequest) (before after : Future) (tick : ℚ)
  /-- `pending.cancelled.set()`. -/
  | withdrawn (request : ReqId)
  /-- The route calls `proxy_chat_completion`. -/
  | proxied (request : ReqId) (initial : Lease)
  /-- The route answers 503 with this reason. -/
  | refused (request : ReqId) (reason : RejectionReason)
  | rejectionsTotal (reason : RejectionReason)
  | requestsTotal
  | retriesTotal
  | errorsTotal (backend : String)
  | fallbackTotal
  deriving DecidableEq, Repr

/-- The event says nothing about slots, circuits or health. -/
def Event.neutral : Event → Bool
  | moved .. | dispatched .. | sampled .. | released .. | ended .. => false
  | _ => true

/-! ## The history of one backend -/

/-- What the breaker and the error rate of one backend live through. -/
inductive Incident where
  | moved (src dst : CircuitState) (cause : Cause) (time : ℚ)
  | dispatched (probe : Option ℕ) (time : ℚ)
  | sampled (failed : Bool)
  | ended (probe : Option ℕ) (how : Ending)
  deriving DecidableEq, Repr

namespace Incident

def entersHalfOpen : Incident → Bool
  | moved _ .halfOpen _ _ => true
  | _ => false

def leavesHalfOpen : Incident → Bool
  | moved .halfOpen _ _ _ => true
  | _ => false

def isDispatch : Incident → Bool
  | dispatched .. => true
  | _ => false

end Incident

/-- The event as `backend` sees it. -/
def Event.seenBy (backend : String) : Event → Option Incident
  | moved b src dst cause t => if b = backend then some (.moved src dst cause t) else none
  | dispatched b probe t => if b = backend then some (.dispatched probe t) else none
  | sampled b failed => if b = backend then some (.sampled failed) else none
  | ended b probe how => if b = backend then some (.ended probe how) else none
  | _ => none

/-- What `backend` has lived through, newest first. -/
def history (backend : String) (trace : List Event) : List Incident :=
  trace.filterMap (Event.seenBy backend)

/-- One more event is one more incident for the backend it is about, and none for the
others. -/
theorem history_cons (b : String) (e : Event) (trace : List Event) :
    history b (e :: trace) = (e.seenBy b).toList ++ history b trace := by
  unfold history
  cases h : e.seenBy b <;> simp [h]

/-- The half-open period a backend is in, or was last in. -/
def period (past : List Incident) : ℕ := past.countP Incident.entersHalfOpen

end InferenceGateway
