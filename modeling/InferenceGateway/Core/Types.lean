import Mathlib.Algebra.Order.Ring.Rat

/-!
# Shared domain types (`app/core/types.py`, `app/core/config.py`)

The records every part of the gateway passes around, and the configuration they
are tuned by. Floats are exact rationals and Python integers are `ℤ`; the
configuration keeps the fields that some modelled function reads, with the
defaults of the pydantic models.

`PendingRequest` separates identity from content: `oid` is the object's identity
(its arrival number), since clients choose `requestId` and may repeat it. The
mutable parts of the Python object, its `dispatch_future` and its `cancelled`
event, live in the state of the admission layer, keyed by `oid`; what its body
and its thread are is told in `Api.Validation`, since only the requests that are
sent upstream depend on it.

Nothing restricts the configuration: a limit may be negative and a list of
backends may name one backend twice. Where a result needs more of it, the result
says so.
-/

namespace InferenceGateway

/-! ## Enumerations -/

inductive CircuitState where
  | closed
  | opened
  | halfOpen
  deriving DecidableEq, Repr

inductive RejectionReason where
  | queueFull
  | queueAge
  | noBackend
  | overload
  deriving DecidableEq, Repr

inductive RequestClass where
  | smallChat
  | mediumChat
  | largeChat
  | streamingLong
  | embedding
  deriving DecidableEq, Repr

/-- The classes that count towards `large_inflight`. -/
def RequestClass.isLarge : RequestClass → Bool
  | .largeChat | .streamingLong => true
  | _ => false

/-! ## Requests -/

structure BackendTarget where
  name : String
  baseUrl : String
  deriving DecidableEq, Repr

structure ClassifyResult where
  reqClass : RequestClass
  estTokens : ℤ
  maxTokens : Option ℤ
  stream : Bool
  model : Option String
  deriving DecidableEq, Repr

/-- Python's `bytes`. -/
abbrev Bytes := List UInt8

/-- Object identity of a pending request: its arrival number. -/
abbrev ReqId := ℕ

/-- A chat completion waiting for scheduler dispatch. -/
structure PendingRequest where
  oid : ReqId
  requestId : String
  enqueuedAtMonotonic : ℚ
  classify : ClassifyResult
  path : String
  query : String
  deriving DecidableEq, Repr

/-! ## Configuration -/

structure SchedulerConfig where
  queueMaxSize : ℤ := 500
  queueMaxAgeMs : ℤ := 2000
  dispatchBatchSize : ℤ := 20

structure RoutingConfig where
  inflightWeight : ℚ := 8
  queueWeight : ℚ := 4 / 100
  ttftWeight : ℚ := 3 / 100
  e2eWeight : ℚ := 2 / 100
  errorWeight : ℚ := 100
  hotPenaltyWeight : ℚ := 20
  overloadPenaltyWeight : ℚ := 15
  hotWindowSec : ℚ := 2
  hotTargetShare : ℚ := 55 / 100

structure BackendEntry where
  name : String
  url : String
  softLimit : ℤ := 12
  hardLimit : ℤ := 16
  drained : Bool := false

structure HealthConfig where
  consecutiveFailuresOpen : ℤ := 5
  openCooldownMs : ℤ := 15000
  halfOpenMaxInflight : ℤ := 1
  maxErrorRateForEligibility : ℚ := 35 / 100

structure RetryConfig where
  maxAttempts : ℤ := 2
  retryableStatuses : List ℤ := [502, 503, 504]

structure OpenAIFallbackConfig where
  enabled : Bool := false
  backendName : String := "openai-fallback"
  baseUrl : String := "https://api.openai.com"
  model : String := "gpt-4o-mini"
  apiKeyEnv : String := "OPENAI_API_KEY"

structure GatewayConfig where
  scheduler : SchedulerConfig := {}
  routing : RoutingConfig := {}
  backends : List BackendEntry := []
  health : HealthConfig := {}
  retry : RetryConfig := {}
  openaiFallback : OpenAIFallbackConfig := {}

/-- The longest a request may wait for dispatch, in seconds
(`queue_max_age_ms / 1000.0` in the scheduler loop and in the route). -/
def GatewayConfig.maxAgeS (cfg : GatewayConfig) : ℚ :=
  (cfg.scheduler.queueMaxAgeMs : ℚ) / 1000

end InferenceGateway
