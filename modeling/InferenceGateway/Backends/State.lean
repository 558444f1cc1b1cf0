import InferenceGateway.Core.Types
import Mathlib.Data.List.DropRight
import Mathlib.Tactic.Linarith
import Mathlib.Tactic.Ring

/-!
# Per-backend runtime state (`app/backends/state.py`)

`BackendRuntimeState` is the mutable row the scheduler and the proxy share. Its
operations are pure functions of the row; a call that reads `time.monotonic()`
takes the reading as an argument. The defaults of the fields are those of the
dataclass: a fresh backend has a time to first byte of 50 ms, a latency of 200
ms and an error rate of 0.

The dispatch ring `_dispatch_times` is `deque(maxlen=256)`: appending to a full
ring drops the oldest entry.

`errorSample` is what one sample does to the error rate, and `errorRate` folds
it over the samples of a history, so that the rate of a row can be compared with
what the backend lived through. The averages are exact: a rational for each
float of the source.

- `errorRate_bounds`: the rate of every history lies in `[0, 1)`.
- `one_sub_errorRate_failures`: what a run of failures does to it.
-/

namespace InferenceGateway

/-- Exponential moving average: higher `alpha` reacts faster to `sample`. -/
def ewma (prev sample alpha : ℚ) : ℚ := alpha * sample + (1 - alpha) * prev

/-- Capacity of `_dispatch_times`. -/
def dispatchRing : ℕ := 256

/-- One backend's row; its `name` is its key in the registry. -/
structure BackendRuntimeState where
  baseUrl : String
  softLimit : ℤ
  hardLimit : ℤ
  drained : Bool := false
  /-- Gateway-side count: requests dispatched here but not yet released by proxy. -/
  inflight : ℤ := 0
  ewmaTtftMs : ℚ := 50
  /-- Reserved for per-backend queue wait; read by scoring, never written. -/
  ewmaQueueMs : ℚ := 0
  ewmaE2eMs : ℚ := 200
  recentErrorRate : ℚ := 0
  circuit : CircuitState := .closed
  consecutiveFailures : ℤ := 0
  circuitOpenedAtMonotonic : Option ℚ := none
  halfOpenProbes : ℤ := 0
  largeInflight : ℤ := 0
  dispatchTimes : List ℚ := []
  deriving Inhabited

namespace BackendRuntimeState

/-- Timestamp this dispatch for hot-share / recent-traffic scoring. -/
def recordDispatch (s : BackendRuntimeState) (now : ℚ) : BackendRuntimeState :=
  { s with dispatchTimes := (s.dispatchTimes ++ [now]).rtake dispatchRing }

/-- Count dispatches in the last `windowSec` seconds. -/
def dispatchShare (s : BackendRuntimeState) (windowSec now : ℚ) : ℕ :=
  let cutoff := now - windowSec
  s.dispatchTimes.countP fun t => decide (cutoff ≤ t)

/-- Blend latency samples in; pull error EWMA toward healthy. -/
def updateSuccess (s : BackendRuntimeState) (ttftMs : Option ℚ) (e2eMs : ℚ) :
    BackendRuntimeState :=
  { s with
    ewmaTtftMs := match ttftMs with
      | some t => ewma s.ewmaTtftMs t (2 / 10)
      | none => s.ewmaTtftMs
    ewmaE2eMs := ewma s.ewmaE2eMs e2eMs (2 / 10)
    recentErrorRate := ewma s.recentErrorRate 0 (15 / 100) }

/-- Pull error EWMA toward unhealthy (does not update latency EWMA). -/
def updateFailure (s : BackendRuntimeState) : BackendRuntimeState :=
  { s with recentErrorRate := ewma s.recentErrorRate 1 (25 / 100) }

/-- The error rate after one sample, as a function of the rate alone. -/
def errorSample (failed : Bool) (rate : ℚ) : ℚ :=
  if failed then ewma rate 1 (25 / 100) else ewma rate 0 (15 / 100)

@[simp] theorem updateSuccess_recentErrorRate (s : BackendRuntimeState) (t : Option ℚ) (e : ℚ) :
    (s.updateSuccess t e).recentErrorRate = errorSample false s.recentErrorRate := rfl

@[simp] theorem updateFailure_recentErrorRate (s : BackendRuntimeState) :
    s.updateFailure.recentErrorRate = errorSample true s.recentErrorRate := rfl

/-- The error rate of a history of samples, newest first, from a fresh row. -/
def errorRate : List Bool → ℚ
  | [] => 0
  | failed :: past => errorSample failed (errorRate past)

/-- A failure sample closes a quarter of the gap to `1`. -/
theorem one_sub_errorSample_true (rate : ℚ) :
    1 - errorSample true rate = (3 / 4) * (1 - rate) := by
  simp only [errorSample, ewma, if_true]
  ring

/-- A sample keeps the rate in `[0, 1)`: a failure leaves three quarters of the gap to
`1`, and a success pulls towards `0`. -/
theorem errorSample_lt_one {failed : Bool} {rate : ℚ} (h₀ : 0 ≤ rate) (h₁ : rate < 1) :
    0 ≤ errorSample failed rate ∧ errorSample failed rate < 1 := by
  cases failed <;> simp only [errorSample, ewma] <;> constructor <;> norm_num <;> linarith

/-- The error rate of every history lies in `[0, 1)`. By induction on the samples. -/
theorem errorRate_bounds : ∀ past : List Bool, 0 ≤ errorRate past ∧ errorRate past < 1
  | [] => ⟨le_refl 0, zero_lt_one⟩
  | _ :: past =>
    have ⟨h₀, h₁⟩ := errorRate_bounds past
    errorSample_lt_one h₀ h₁

/-- `n` failures in a row close all but `(3/4)^n` of the gap to `1`, whatever came
before them. By induction on `n`. -/
theorem one_sub_errorRate_failures (past : List Bool) :
    ∀ n : ℕ, 1 - errorRate (List.replicate n true ++ past) = (3 / 4) ^ n * (1 - errorRate past)
  | 0 => by simp
  | n + 1 => by
    rw [List.replicate_succ, List.cons_append, errorRate, one_sub_errorSample_true,
      one_sub_errorRate_failures past n]
    ring

end BackendRuntimeState

end InferenceGateway
