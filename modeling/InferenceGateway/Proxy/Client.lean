import InferenceGateway.Scheduler.Scoring

/-!
# Proxy (`app/proxy/client.py`)

`proxy_chat_completion` and `_proxy_streaming`, cut at their awaits. A request
handler inside the proxy is suspended in one of three places: `sending` (the
`post` or the streaming `send`), `draining` (`aread` and `aclose` of a streamed
error response) and `relaying` (the `StreamingResponse` has been returned and
its generator owns the slot). The functions below run the code from one
suspension to the next; what the upstream does at a suspension is an argument.

- `Upstream`, `BodyRead`, `StreamEnd`: everything `httpx` and the server can do
  at the three suspensions. `httpx` raises `TimeoutException` and
  `ConnectError`, which the `except` clauses name, or something else, which they
  do not.
- `relayable`: whether building the client response succeeds. It can fail on
  header or prefix text that does not encode, with an exception no clause names.
- `beginAttempt`: the head of the retry loop. What `_prepare_target_request`
  raises, it raises outside the `try`, and so with the slot still taken
  (`prepareTargetRequest`).
- `retryOrGiveUp`: the tail the status branch and the transport branch share.
  Where no alternate is found it releases the slot of the failed attempt once
  more, as the source does.
- `onUpstream`, `onDrained`, `onStreamStart`, `onStreamEnd`, `onStreamDropped`:
  the resumptions.

Bytes and headers are told apart from all this: which attempts are made does not
depend on them, and `Proxy.Requests` and `Proxy.Responses` say what they are.
-/

namespace InferenceGateway

/-! ## What can happen upstream -/

/-- An exception `httpx` raises while building, sending or reading a request. -/
inductive UpstreamError where
  /-- `httpx.TimeoutException`. -/
  | timeout (detail : String)
  /-- `httpx.ConnectError`. -/
  | connect (detail : String)
  /-- Any class the `except` clauses do not name. -/
  | other (name : String)
  deriving DecidableEq, Repr

/-- The exception matches `except (httpx.TimeoutException, httpx.ConnectError)`. -/
def UpstreamError.caught : UpstreamError → Bool
  | .other _ => false
  | _ => true

/-- How the awaited `post` or streaming `send` ends. -/
inductive Upstream where
  | response (status : ℤ) (relayable : Bool)
  | failed (e : UpstreamError)
  deriving DecidableEq, Repr

/-- How `aread` and `aclose` of a streamed error response end. -/
inductive BodyRead where
  | read (relayable : Bool)
  | failed (e : UpstreamError)
  deriving DecidableEq, Repr

/-- How the life of a returned `StreamingResponse` ends. -/
inductive StreamEnd where
  /-- The upstream body is exhausted. -/
  | exhausted
  /-- The upstream raises between two chunks. -/
  | upstreamRaised
  /-- The server closes the generator at a `yield`. -/
  | closedEarly
  deriving DecidableEq, Repr

/-! ## Replies -/

/-- An entry of `transport_attempts`, as the detail of a 504 lists it. -/
structure TransportAttempt where
  backend : String
  url : String
  kind : String
  detail : String
  deriving DecidableEq, Repr

/-- The JSON detail of an `HTTPException`; absent keys are `none`. -/
structure Detail where
  reason : Option String := none
  message : Option String := none
  requestId : String
  attempts : Option (List TransportAttempt) := none
  hint : Option String := none
  deriving DecidableEq, Repr

/-- What the client gets in the end. -/
inductive Reply where
  /-- The upstream response is relayed with its status. -/
  | response (status : ℤ)
  | httpException (status : ℤ) (detail : Detail)
  /-- Another exception leaves the handler. -/
  | crashed (name : String)
  deriving DecidableEq, Repr

/-- `_transport_error_detail`. -/
def transportErrorDetail : UpstreamError → String
  | .timeout _ => "timeout"
  | .connect _ => "connect"
  | .other name => name

/-- `str(exc)`. -/
def UpstreamError.text : UpstreamError → String
  | .timeout detail | .connect detail => detail
  | .other name => name

/-- JSON body for 504 after repeated connect/timeout failures. -/
def upstreamUnreachableDetail (rid : String) (attempts : List TransportAttempt) : Detail where
  message := some "upstream timeout or connection error"
  requestId := rid
  attempts := some attempts
  hint := some ("Verify vLLM is running and config.yaml backend urls match " ++
    "(e.g. curl http://HOST:PORT/v1/models).")

/-! ## The state of a request handler -/

/-- The locals of `proxy_chat_completion` that survive an await. -/
structure ProxyCall where
  pending : PendingRequest
  /-- `target`, with the slot taken for it. -/
  lease : Lease
  attempts : ℕ
  lastError : Option UpstreamError
  transportAttempts : List TransportAttempt
  /-- `t0` of a buffered attempt, `t0_req` of a streamed one. -/
  sentAt : ℚ
  deriving DecidableEq, Repr

namespace ProxyCall

abbrev target (c : ProxyCall) : BackendTarget := c.lease.target

abbrev reqClass (c : ProxyCall) : RequestClass := c.pending.classify.reqClass

/-- Where an attempt is posted: the base url of its target with the path and query of
the client's request. -/
def url (c : ProxyCall) : String :=
  let path := if c.pending.path = "" then "/v1/chat/completions" else c.pending.path
  c.target.baseUrl ++ path ++ c.pending.query

/-- Append a transport failure to `transport_attempts`. -/
def withFailure (c : ProxyCall) (e : UpstreamError) : ProxyCall :=
  { c with
    transportAttempts := c.transportAttempts ++
      [⟨c.target.name, c.url, transportErrorDetail e, e.text⟩] }

end ProxyCall

/-- Where the handler of a request is suspended, with the locals that survive the
suspension. -/
inductive Handler where
  /-- No such request yet. -/
  | absent
  /-- Awaiting `wait_for(dispatch_future)`. -/
  | waiting (p : PendingRequest)
  /-- The `wait_for` timer has fired; `TimeoutError` is raised on resumption. -/
  | expired (p : PendingRequest)
  | sending (c : ProxyCall)
  | draining (c : ProxyCall) (status : ℤ)
  /-- `startedAt` is `total_t0`, once the generator has been started. -/
  | relaying (c : ProxyCall) (startedAt : Option ℚ)
  /-- The stream is over; `closed` if its `finally` block ran to the end. -/
  | streamed (closed : Bool)
  | replied (r : Reply)
  deriving DecidableEq, Repr

/-! ## The proxy -/

/-- A configuration and the process environment it runs in.

`unprepared` tells of which requests the body cannot be prepared, and what is raised then.
`_upstream_chat_body` parses the body and serialises it again, deeper on the stack than
`chat_completions` has done both, and catches `ValueError` only: a body nested to just below
the recursion limit ends there with a `RecursionError`. The stack is as deep at every attempt
of a call, and so this depends on the request, and not on the target. -/
structure Deployment where
  cfg : GatewayConfig
  environ : String → Option String
  unprepared : ReqId → Option String := fun _ => none

namespace Proxy

/-- `_is_openai_fallback`. -/
def isOpenaiFallback (cfg : GatewayConfig) (target : BackendTarget) : Bool :=
  cfg.openaiFallback.enabled && decide (target.name = cfg.openaiFallback.backendName)

/-- `os.environ.get(api_key_env)` is missing or empty. -/
def missingApiKey (D : Deployment) : Bool :=
  match D.environ D.cfg.openaiFallback.apiKeyEnv with
  | none => true
  | some key => key.isEmpty

/-- The exception `_prepare_target_request` raises before anything is sent, if any: first
whatever comes out of `_upstream_chat_body`, then the missing API key. The body and the
headers it returns otherwise steer nothing below. -/
def prepareTargetRequest (D : Deployment) (target : BackendTarget) (pending : PendingRequest) :
    Option Reply :=
  match D.unprepared pending.oid with
  | some name => some (.crashed name)
  | none =>
    if isOpenaiFallback D.cfg target && missingApiKey D then
      some (.httpException 503
        { reason := some "fallback_unavailable"
          message := some ("missing env var " ++ D.cfg.openaiFallback.apiKeyEnv)
          requestId := pending.requestId })
    else none

/-- What can come out of the preparation: the exception of the body, or the 503 for a target
with the fallback's name and no key. -/
theorem prepareTargetRequest_eq_some {D : Deployment} {target : BackendTarget}
    {pending : PendingRequest} {reply : Reply}
    (h : prepareTargetRequest D target pending = some reply) :
    (∃ name, D.unprepared pending.oid = some name ∧ reply = .crashed name) ∨
    (D.unprepared pending.oid = none ∧ isOpenaiFallback D.cfg target = true ∧
      missingApiKey D = true ∧ ∃ detail, reply = .httpException 503 detail ∧
        detail.reason = some "fallback_unavailable") := by
  unfold prepareTargetRequest at h
  split at h
  · next name hname => exact .inl ⟨name, hname, (Option.some.inj h).symm⟩
  · next hbody =>
    split at h
    · next hkey =>
      rw [Bool.and_eq_true] at hkey
      exact .inr ⟨hbody, hkey.1, hkey.2, _, (Option.some.inj h).symm, rfl⟩
    · cases h

/-- A request is prepared if its body is, and a key is there if one is needed. -/
theorem prepareTargetRequest_eq_none_iff {D : Deployment} {target : BackendTarget}
    {pending : PendingRequest} : prepareTargetRequest D target pending = none ↔
      D.unprepared pending.oid = none ∧
        (isOpenaiFallback D.cfg target && missingApiKey D) = false := by
  unfold prepareTargetRequest
  cases D.unprepared pending.oid with
  | some name => exact iff_of_false (Option.some_ne_none _) fun h => Option.some_ne_none _ h.1
  | none =>
    cases isOpenaiFallback D.cfg target && missingApiKey D with
    | false => exact iff_of_true rfl ⟨rfl, rfl⟩
    | true => exact iff_of_false (Option.some_ne_none _) fun h => Bool.noConfusion h.2

/-- True if HTTP status is listed in config `retry.retryable_statuses`. -/
def shouldRetryStatus (cfg : GatewayConfig) (code : ℤ) : Bool :=
  decide (code ∈ cfg.retry.retryableStatuses)

/-- Pick another healthy backend for retry; bumps inflight on the new target. -/
def pickRetryTarget (cfg : GatewayConfig) (w : World) (cls : RequestClass) (avoid : String) :
    World × Option Grant :=
  let (w, candidates) := World.eligible cfg.health (some avoid) w.names w
  match Scoring.pickBackend cfg.routing cls candidates w with
  | (w, none) => (w, none)
  | (w, some chosen) =>
    let (w, grant) := w.takeSlot chosen cls
    (w, some grant)

/-- From the head of the retry loop to the next suspension: send the next
attempt, or leave the loop once the attempts are used up. -/
def beginAttempt (D : Deployment) (w : World) (c : ProxyCall) : World × Handler :=
  if (c.attempts : ℤ) < D.cfg.retry.maxAttempts then
    let c := { c with attempts := c.attempts + 1 }
    match prepareTargetRequest D c.target c.pending with
    -- raised outside the `try`: no clause releases the slot
    | some reply => (w.endAttempt c.lease .neverSent, .replied reply)
    | none =>
      let w := w.readClock
      -- `_proxy_streaming` starts with a reading of its own, `t0_req`
      let w := if c.pending.classify.stream then w.readClock else w
      (w, .sending { c with sentAt := w.clock.now })
  else
    -- the code after the loop
    let w := (w.releaseDispatch c.target.name c.reqClass).endAttempt c.lease .neverSent
    (w, .replied (.httpException 502
      { message := some ((c.lastError.map (·.text)).getD "retry exhausted")
        requestId := c.pending.requestId
        attempts := some c.transportAttempts }))

/-- The entry of `proxy_chat_completion`. -/
def start (D : Deployment) (w : World) (p : PendingRequest) (initial : Lease) :
    World × Handler :=
  beginAttempt D (w.emit (.proxied p.oid initial))
    { pending := p, lease := initial, attempts := 0, lastError := none,
      transportAttempts := [], sentAt := w.clock.now }

/-- The world in which a failed attempt looks for an alternate: the retry is
counted and the slot is given back. -/
def giveBack (w : World) (c : ProxyCall) (how : Ending) : World :=
  ((w.emit .retriesTotal).releaseDispatch c.target.name c.reqClass).endAttempt c.lease how

/-- The tail of a failed attempt: retry on another backend, or reply. -/
def retryOrGiveUp (D : Deployment) (w : World) (c : ProxyCall) (retry : Bool) (how : Ending)
    (final : Reply) : World × Handler :=
  if retry then
    match pickRetryTarget D.cfg (giveBack w c how) c.reqClass c.target.name with
    | (w, some grant) => beginAttempt D w { c with lease := .granted grant }
    | (w, none) =>
      -- no `continue`: the code falls through to the release after the `if`
      (w.releaseDispatch c.target.name c.reqClass, .replied final)
  else
    ((w.releaseDispatch c.target.name c.reqClass).endAttempt c.lease how, .replied final)

/-- What the client gets for a response the proxy relays. -/
def relay (status : ℤ) (relayable : Bool) : Reply :=
  if relayable then .response status else .crashed "UnicodeEncodeError"

/-- An error status may be retried. -/
def retryableStatus (cfg : GatewayConfig) (status : ℤ) : Bool :=
  decide (500 ≤ status) || shouldRetryStatus cfg status

/-- Attempts are left after the one that just ended. -/
def attemptsLeft (cfg : GatewayConfig) (c : ProxyCall) : Bool :=
  decide ((c.attempts : ℤ) < cfg.retry.maxAttempts)

/-- How an attempt answered with an error status ends. -/
def errorEnding (status : ℤ) : Ending :=
  if 500 ≤ status then .failure else .clientError

/-- The failure accounting of a buffered error response. -/
def accountErrorStatus (D : Deployment) (w : World) (c : ProxyCall) (status : ℤ) : World :=
  (w.recordErrorStatus D.cfg.health c.target.name c.lease.probe status).emit
    (.errorsTotal c.target.name)

/-- The failure accounting of a transport error. -/
def accountTransportError (D : Deployment) (w : World) (c : ProxyCall) : World :=
  (w.emit (.errorsTotal c.target.name)).recordFailure D.cfg.health c.target.name c.lease.probe

/-- The buffered branch once `post` has returned a response. -/
def onBufferedResponse (D : Deployment) (w : World) (c : ProxyCall) (status : ℤ)
    (relayable : Bool) : World × Handler :=
  let w := w.readClock
  let e2eMs := (w.clock.now - c.sentAt) * 1000
  if status < 400 then
    -- a buffered answer has no first token; its latency, capped, stands in for one
    let w := w.recordSuccess c.target.name c.lease.probe (some (min e2eMs 10000)) e2eMs
    ((w.releaseDispatch c.target.name c.reqClass).endAttempt c.lease .success,
      .replied (relay status relayable))
  else
    retryOrGiveUp D (accountErrorStatus D w c status) c
      (attemptsLeft D.cfg c && retryableStatus D.cfg status)
      (errorEnding status) (relay status relayable)

/-- The `except (httpx.TimeoutException, httpx.ConnectError)` clause of
`proxy_chat_completion`. -/
def onTransportError (D : Deployment) (w : World) (c : ProxyCall) (e : UpstreamError) :
    World × Handler :=
  let c := { c with lastError := some e }.withFailure e
  retryOrGiveUp D (accountTransportError D w c) c (attemptsLeft D.cfg c) .failure
    (.httpException 504 (upstreamUnreachableDetail c.pending.requestId c.transportAttempts))

/-- The `except` clause of `_proxy_streaming` around the streaming `send`. -/
def onStreamSendError (D : Deployment) (w : World) (c : ProxyCall) (e : UpstreamError) :
    World × Handler :=
  let c := c.withFailure e
  let w := (w.recordFailure D.cfg.health c.target.name c.lease.probe).emit
    (.errorsTotal c.target.name)
  ((w.releaseDispatch c.target.name c.reqClass).endAttempt c.lease .failure,
    .replied (.httpException 504
      (upstreamUnreachableDetail c.pending.requestId c.transportAttempts)))

/-- The streaming branch once `send` has returned response headers. -/
def onStreamHeaders (w : World) (c : ProxyCall) (status : ℤ) (relayable : Bool) :
    World × Handler :=
  let w := w.readClock
  let ttftMs := (w.clock.now - c.sentAt) * 1000
  -- an error body is awaited first, and accounted for once it has been read
  if 400 ≤ status then (w, .draining c status)
  else
    let w := w.recordSuccess c.target.name c.lease.probe (some ttftMs) ttftMs
    -- the slot is now the generator's to release
    if relayable then (w, .relaying c none)
    else (w.endAttempt c.lease .relayFailed, .replied (relay status relayable))

/-- An exception no `except` clause names leaves the handler. -/
def onUncaught (w : World) (c : ProxyCall) (e : UpstreamError) : World × Handler :=
  (w.endAttempt c.lease .uncaught, .replied (.crashed e.text))

/-- Resumption from `sending`. -/
def onUpstream (D : Deployment) (w : World) (c : ProxyCall) : Upstream → World × Handler
  | .response status relayable =>
    if c.pending.classify.stream then onStreamHeaders w c status relayable
    else onBufferedResponse D w c status relayable
  | .failed e =>
    if e.caught = false then onUncaught w c e
    else if c.pending.classify.stream then onStreamSendError D w c e
    else onTransportError D w c e

/-- Resumption from `draining`: the rest of the error branch of
`_proxy_streaming`. What `aread` or `aclose` raises is not handled there and
reaches the `except` clause of `proxy_chat_completion`. -/
def onDrained (D : Deployment) (w : World) (c : ProxyCall) (status : ℤ) :
    BodyRead → World × Handler
  | .read relayable =>
    let w := accountErrorStatus D w c status
    ((w.releaseDispatch c.target.name c.reqClass).endAttempt c.lease (errorEnding status),
      .replied (relay status relayable))
  | .failed e => if e.caught = false then onUncaught w c e else onTransportError D w c e

/-- The first pull of the stream generator. -/
def onStreamStart (w : World) (c : ProxyCall) : World × Handler :=
  let w := w.readClock
  (w, .relaying c (some w.clock.now))

/-- The `finally` block of the stream generator. It begins by awaiting
`resp.aclose()`; if that raises, nothing after it runs. -/
def onStreamEnd (w : World) (c : ProxyCall) (startedAt : ℚ) (acloseRaises : Bool) :
    World × Handler :=
  if acloseRaises then (w.endAttempt c.lease .streamLost, .streamed false)
  else
    let w := w.readClock
    let e2eMs := (w.clock.now - startedAt) * 1000
    let w := w.sampleStream c.target.name e2eMs
    ((w.releaseDispatch c.target.name c.reqClass).endAttempt c.lease .streamDone, .streamed true)

/-- The response is dropped before its generator was started: a generator that
never ran does not run its `finally` block. -/
def onStreamDropped (w : World) (c : ProxyCall) : World × Handler :=
  (w.endAttempt c.lease .streamLost, .streamed false)

end Proxy

end InferenceGateway
