import InferenceGateway.Lib.Transition
import InferenceGateway.Proxy.Client
import InferenceGateway.Scheduler.Dispatcher

/-!
# The gateway as a whole (`app/api/routes.py`, `app/main.py`)

The state of the process and its atomic steps. A step runs one task from the
await it is suspended at to its next await, so a run of steps is an interleaving
the event loop can produce: requests arrive, the scheduler ticks, `wait_for`
timers fire, handlers resume, upstream calls end, stream generators start and
end. What the outside does, when a timer fires and how an upstream call ends, is
in the label of the step.

`asyncio.wait_for` is the one of Python 3.12: when its timer fires it cancels
the waiting task, which resumes with `TimeoutError` even if the future was
resolved in the meantime. The model lets a timer fire at any moment after it was
armed, which covers every queue age limit.

Requests enter after validation and classification, with what those produced.

- `step`: one step, computed. `machine` starts it on any clock, and `Reachable`
  and `ReachableWith` are the states its runs reach, under no guard or under
  one.
- `steps_of_step`: the step inversion, one constructor of `Steps` for each way a
  task can move. Every invariant of the gateway is proved by cases on it.
- `fallbackOrReject_rule`, `arrive_rule`, `withdraw_cases`, and the lemmas on
  `put` and `fireTimer`: the parts the steps share.
- `lone`, `pair`, `chat`, `still`: a small deployment, for runs that are
  computed.
-/

namespace InferenceGateway

open Lib

/-- What validation and classification hand on for an accepted body. -/
structure Submission where
  requestId : String
  classify : ClassifyResult
  path : String
  query : String
  deriving DecidableEq, Repr

/-- The state of the gateway process: the admission layer, and where the handler of each
request is suspended. Requests are numbered in the order in which they arrive. -/
structure Gateway where
  adm : Admission
  handler : ReqId → Handler
  /-- The number of requests that have arrived. -/
  arrived : ℕ

/-- The label of a step: which task moves, and what it learns from the outside when it
does. -/
inductive Action where
  | arrive (sub : Submission)
  | tick
  | timer (r : ReqId)
  | resume (r : ReqId)
  | upstream (r : ReqId) (o : Upstream)
  | drained (r : ReqId) (o : BodyRead)
  | streamStart (r : ReqId)
  | streamEnd (r : ReqId) (e : StreamEnd) (acloseRaises : Bool)
  | streamDropped (r : ReqId)
  deriving DecidableEq, Repr

/-- `str(reason.value)`. -/
def RejectionReason.value : RejectionReason → String
  | .queueFull => "queue_full"
  | .queueAge => "queue_age"
  | .noBackend => "no_backend"
  | .overload => "overload"

/-- `_fallback_target`. -/
def fallbackTarget (cfg : GatewayConfig) : Option BackendTarget :=
  if cfg.openaiFallback.enabled then
    some ⟨cfg.openaiFallback.backendName, BackendRegistry.rstripSlash cfg.openaiFallback.baseUrl⟩
  else none

namespace Gateway

abbrev world (g : Gateway) : World := g.adm.world

abbrev row (g : Gateway) (b : String) : BackendRuntimeState := g.adm.world.row b

abbrev names (g : Gateway) : List String := g.adm.world.names

abbrev trace (g : Gateway) : List Event := g.adm.world.trace

/-- The tail of the three rejection branches: the fallback, or a 503. -/
def fallbackOrReject (D : Deployment) (w : World) (p : PendingRequest)
    (reason : RejectionReason) (message : Option String) : World × Handler :=
  match fallbackTarget D.cfg with
  | some fallback => Proxy.start D (w.emit .fallbackTotal) p (.fallback fallback)
  | none =>
    ((w.emit (.rejectionsTotal reason)).emit (.refused p.oid reason),
      .replied (.httpException 503
        { reason := some reason.value, message := message, requestId := p.requestId }))

/-- Store what running the handler of `r` gave. -/
def put (g : Gateway) (r : ReqId) (result : World × Handler) : Gateway :=
  { g with
    adm := { g.adm with world := result.1 }
    handler := Function.update g.handler r result.2 }

/-- `chat_completions` from validation to its first suspension. -/
def arrive (D : Deployment) (g : Gateway) (sub : Submission) : Gateway :=
  let w := g.world.readClock
  let p : PendingRequest :=
    { oid := g.arrived
      requestId := sub.requestId
      enqueuedAtMonotonic := w.clock.now
      classify := sub.classify
      path := sub.path
      query := sub.query }
  let g := { g with arrived := g.arrived + 1 }
  -- counted before the queue is asked
  let w := w.emit .requestsTotal
  match AdmissionQueue.enqueue D.cfg.scheduler.queueMaxSize g.adm.queue p with
  | some q => { g with adm := { g.adm with queue := q } }.put p.oid (w, .waiting p)
  | none => g.put p.oid (fallbackOrReject D w p .queueFull none)

/-- The `wait_for` timer of a waiting handler fires. -/
def fireTimer (g : Gateway) (r : ReqId) (p : PendingRequest) : Gateway :=
  { g with
    adm := { g.adm with
      future := if (g.adm.future r).done then g.adm.future
        else Function.update g.adm.future r .cancelled }
    handler := Function.update g.handler r (.expired p) }

/-- The world once the handler of `r` has withdrawn its request. A target the
scheduler left in the future is looked at by nobody. -/
def withdraw (g : Gateway) (r : ReqId) : World :=
  let w := g.world.emit (.withdrawn r)
  match g.adm.future r with
  | .target grant => w.endAttempt (.granted grant) .handoffLost
  | _ => w

/-- The `except TimeoutError` branch. -/
def onTimeout (D : Deployment) (g : Gateway) (r : ReqId) (p : PendingRequest) : Gateway :=
  let w := g.withdraw r
  { g with adm := { g.adm with cancelled := Function.update g.adm.cancelled r true } }.put r
    (fallbackOrReject D w p .queueAge none)

/-- One atomic step; `none` where the action does not apply. -/
def step (D : Deployment) (g : Gateway) : Action → Option Gateway
  | .arrive sub => some (g.arrive D sub)
  | .tick => some { g with adm := g.adm.schedulerTick D.cfg }
  | .timer r =>
    match g.handler r with
    | .waiting p => some (g.fireTimer r p)
    | _ => none
  | .resume r =>
    match g.handler r with
    | .waiting p =>
      match g.adm.future r with
      | .target grant => some (g.put r (Proxy.start D g.world p (.granted grant)))
      | .scheduleError m => some (g.put r (fallbackOrReject D g.world p .noBackend (some m)))
      | _ => none
    | .expired p => some (g.onTimeout D r p)
    | _ => none
  | .upstream r o =>
    match g.handler r with
    | .sending c => some (g.put r (Proxy.onUpstream D g.world c o))
    | _ => none
  | .drained r o =>
    match g.handler r with
    | .draining c status => some (g.put r (Proxy.onDrained D g.world c status o))
    | _ => none
  | .streamStart r =>
    match g.handler r with
    | .relaying c none => some (g.put r (Proxy.onStreamStart g.world c))
    | _ => none
  | .streamEnd r _ acloseRaises =>
    -- the `finally` block is the same for every way the body can end
    match g.handler r with
    | .relaying c (some t) => some (g.put r (Proxy.onStreamEnd g.world c t acloseRaises))
    | _ => none
  | .streamDropped r =>
    match g.handler r with
    | .relaying c none => some (g.put r (Proxy.onStreamDropped g.world c))
    | _ => none

/-- The process right after start-up, on a given clock. -/
def init (D : Deployment) (clock : Clock) : Gateway where
  adm :=
    { world := { clock := clock, registry := BackendRegistry.ofConfig D.cfg, trace := [] }
      queue := []
      future := fun _ => .unresolved
      cancelled := fun _ => false }
  handler := fun _ => .absent
  arrived := 0

/-- The gateway as a machine: start-up on any clock, then any interleaving. -/
def machine (D : Deployment) : Machine Gateway Action :=
  .ofFn (fun g => ∃ clock, g = init D clock) (step D)

/-- States some interleaving reaches. -/
abbrev Reachable (D : Deployment) (g : Gateway) : Prop := Reach (machine D) anyStep g

/-- States reached by interleavings all of whose steps meet `ok`. -/
abbrev ReachableWith (D : Deployment) (ok : Gateway → Action → Prop) (g : Gateway) : Prop :=
  Reach (machine D) ok g

/-- A run from start-up that can be computed is a run. No guard is asked for. -/
theorem reachable_of_run {D : Deployment} {clock : Clock} {as : List Action} {g : Gateway}
    (h : runList (step D) (init D clock) as = some g) : Reachable D g :=
  reach_runList (.start ⟨clock, rfl⟩) (fun _ _ _ => trivial) h

/-- A property that a computed run is seen to reach, the whole evaluation being one
decision. -/
theorem exists_reachable {D : Deployment} {P : Gateway → Prop} [DecidablePred P] (clock : Clock)
    (as : List Action)
    (h : (runList (step D) (init D clock) as).any (fun g => decide (P g)) = true) :
    ∃ g, Reachable D g ∧ P g := by
  cases hg : runList (step D) (init D clock) as with
  | none => simp [hg] at h
  | some g => exact ⟨g, reachable_of_run hg, by simpa [hg] using h⟩

/-! ## The two ways to arrive -/

/-- The pending request a submission becomes. -/
def newRequest (g : Gateway) (sub : Submission) : PendingRequest where
  oid := g.arrived
  requestId := sub.requestId
  enqueuedAtMonotonic := g.world.readClock.clock.now
  classify := sub.classify
  path := sub.path
  query := sub.query

/-- The world in which `chat_completions` decides about the queue. -/
def arrivalWorld (g : Gateway) : World := g.world.readClock.emit .requestsTotal

variable {D : Deployment} {g : Gateway} {sub : Submission}

/-- With room in the queue the request is appended, and its handler waits for the
future. -/
theorem arrive_accepted (h : (g.adm.queue.length : ℤ) < D.cfg.scheduler.queueMaxSize) :
    g.arrive D sub =
      { adm := { g.adm with
          world := g.arrivalWorld
          queue := g.adm.queue ++ [g.newRequest sub] }
        handler := Function.update g.handler g.arrived (.waiting (g.newRequest sub))
        arrived := g.arrived + 1 } := by
  simp only [arrive, AdmissionQueue.enqueue, if_neg (not_le.mpr h)]
  rfl

/-- With a full queue (`QueueFullError`) the request is handed to the fallback provider,
or answered 503 at once, and its handler never waits. -/
theorem arrive_full (h : D.cfg.scheduler.queueMaxSize ≤ (g.adm.queue.length : ℤ)) :
    g.arrive D sub = ({ g with arrived := g.arrived + 1 } : Gateway).put g.arrived
      (fallbackOrReject D g.arrivalWorld (g.newRequest sub) .queueFull none) := by
  simp only [arrive, AdmissionQueue.enqueue, if_pos h]
  rfl

/-! ## The parts of a step -/

section Put

variable {r r' : ReqId} {result : World × Handler}

/-- The handler of the request that moved is the new one. -/
theorem put_handler_self : (g.put r result).handler r = result.2 := Function.update_self ..

/-- The handlers of the other requests stay where they are suspended. -/
theorem put_handler_of_ne (h : r' ≠ r) : (g.put r result).handler r' = g.handler r' :=
  Function.update_of_ne h ..

end Put

/-- **Rule for the rejection branches.** They call the fallback provider if there is
one, and otherwise count the rejection and answer 503 with its reason. -/
theorem fallbackOrReject_rule {P : World × Handler → Prop} {w : World} {p : PendingRequest}
    {reason : RejectionReason} {message : Option String}
    (hstart : ∀ t, fallbackTarget D.cfg = some t →
      P (Proxy.start D (w.emit .fallbackTotal) p (.fallback t)))
    (hreject : P ((w.emit (.rejectionsTotal reason)).emit (.refused p.oid reason),
      .replied (.httpException 503
        { reason := some reason.value, message := message, requestId := p.requestId }))) :
    P (fallbackOrReject D w p reason message) := by
  unfold fallbackOrReject
  cases ht : fallbackTarget D.cfg with
  | some t => exact hstart t ht
  | none => exact hreject

/-- **Rule for arrivals.** What an arrival does to the world is to count the request,
and in a full queue what the rejection branch does besides. -/
theorem arrive_rule {P : World → Prop} (haccepted : P g.arrivalWorld)
    (hfull : P (fallbackOrReject D g.arrivalWorld (g.newRequest sub) .queueFull none).1) :
    P (g.arrive D sub).world := by
  rcases lt_or_ge (g.adm.queue.length : ℤ) D.cfg.scheduler.queueMaxSize with hlt | hge
  · rw [arrive_accepted hlt]
    exact haccepted
  · rw [arrive_full hge]
    exact hfull

/-- A withdrawal ends the attempt that was granted, if one was. -/
theorem withdraw_cases (g : Gateway) (r : ReqId) :
    (∃ grant, g.adm.future r = .target grant ∧
      g.withdraw r = (g.world.emit (.withdrawn r)).endAttempt (.granted grant) .handoffLost) ∨
    ((∀ grant, g.adm.future r ≠ .target grant) ∧
      g.withdraw r = g.world.emit (.withdrawn r)) := by
  unfold withdraw
  cases g.adm.future r with
  | target grant => exact .inl ⟨grant, rfl, rfl⟩
  | _ =>
    refine .inr ⟨fun grant h => ?_, rfl⟩
    cases h

section FireTimer

variable {r r' : ReqId} {p : PendingRequest}

/-- The handler whose timer fired will find a `TimeoutError` when it resumes. -/
theorem fireTimer_handler_self : (g.fireTimer r p).handler r = .expired p :=
  Function.update_self ..

/-- A timer is nothing to the handlers of other requests. -/
theorem fireTimer_handler_of_ne (h : r' ≠ r) : (g.fireTimer r p).handler r' = g.handler r' :=
  Function.update_of_ne h ..

/-- A timer cancels the future it finds open. -/
theorem fireTimer_future_self : (g.fireTimer r p).adm.future r =
    if (g.adm.future r).done then g.adm.future r else .cancelled := by
  cases h : (g.adm.future r).done <;> simp [fireTimer, h]

/-- A timer is nothing to the futures of other requests. -/
theorem fireTimer_future_of_ne (h : r' ≠ r) :
    (g.fireTimer r p).adm.future r' = g.adm.future r' := by
  cases hd : (g.adm.future r).done <;> simp [fireTimer, hd, h]

end FireTimer

/-! ## Step inversion -/

/-- `step` as a relation: one constructor for each way a task can move. -/
inductive Steps (D : Deployment) (g : Gateway) : Action → Gateway → Prop where
  | arrive (sub : Submission) : Steps D g (.arrive sub) (g.arrive D sub)
  | tick : Steps D g .tick { g with adm := g.adm.schedulerTick D.cfg }
  | timer {r : ReqId} {p : PendingRequest} (h : g.handler r = .waiting p) :
      Steps D g (.timer r) (g.fireTimer r p)
  | granted {r : ReqId} {p : PendingRequest} {grant : Grant} (h : g.handler r = .waiting p)
      (hf : g.adm.future r = .target grant) :
      Steps D g (.resume r) (g.put r (Proxy.start D g.world p (.granted grant)))
  | rejected {r : ReqId} {p : PendingRequest} {m : String} (h : g.handler r = .waiting p)
      (hf : g.adm.future r = .scheduleError m) :
      Steps D g (.resume r) (g.put r (fallbackOrReject D g.world p .noBackend (some m)))
  | timedOut {r : ReqId} {p : PendingRequest} (h : g.handler r = .expired p) :
      Steps D g (.resume r) (g.onTimeout D r p)
  | upstream {r : ReqId} {c : ProxyCall} (o : Upstream) (h : g.handler r = .sending c) :
      Steps D g (.upstream r o) (g.put r (Proxy.onUpstream D g.world c o))
  | drained {r : ReqId} {c : ProxyCall} {status : ℤ} (o : BodyRead)
      (h : g.handler r = .draining c status) :
      Steps D g (.drained r o) (g.put r (Proxy.onDrained D g.world c status o))
  | streamStart {r : ReqId} {c : ProxyCall} (h : g.handler r = .relaying c none) :
      Steps D g (.streamStart r) (g.put r (Proxy.onStreamStart g.world c))
  | streamEnd {r : ReqId} {c : ProxyCall} {t : ℚ} (e : StreamEnd) (acloseRaises : Bool)
      (h : g.handler r = .relaying c (some t)) :
      Steps D g (.streamEnd r e acloseRaises) (g.put r (Proxy.onStreamEnd g.world c t acloseRaises))
  | streamDropped {r : ReqId} {c : ProxyCall} (h : g.handler r = .relaying c none) :
      Steps D g (.streamDropped r) (g.put r (Proxy.onStreamDropped g.world c))

/-- **Step inversion.** Every step of the gateway is one of those that `Steps` lists,
with the suspension the handler was in and what it found there. -/
theorem steps_of_step {a : Action} {g' : Gateway} (h : step D g a = some g') : Steps D g a g' := by
  -- each action names a handler, and asks where it is
  cases a with
  | arrive sub =>
    obtain rfl := Option.some.inj h
    exact .arrive sub
  | tick =>
    obtain rfl := Option.some.inj h
    exact .tick
  | timer r =>
    cases hh : g.handler r <;> simp only [step, hh] at h <;> cases h
    exact .timer hh
  | resume r =>
    cases hh : g.handler r <;> simp only [step, hh] at h
    case waiting p =>
      cases hf : g.adm.future r <;> simp only [hf] at h <;> cases h
      · exact .granted hh hf
      · exact .rejected hh hf
    case expired p =>
      cases h
      exact .timedOut hh
    all_goals cases h
  | upstream r o =>
    cases hh : g.handler r <;> simp only [step, hh] at h <;> cases h
    exact .upstream o hh
  | drained r o =>
    cases hh : g.handler r <;> simp only [step, hh] at h <;> cases h
    exact .drained o hh
  | streamStart r =>
    cases hh : g.handler r <;> simp only [step, hh] at h
    case relaying c t =>
      cases t <;> cases h
      exact .streamStart hh
    all_goals cases h
  | streamEnd r e acloseRaises =>
    cases hh : g.handler r <;> simp only [step, hh] at h
    case relaying c t =>
      cases t <;> cases h
      exact .streamEnd e acloseRaises hh
    all_goals cases h
  | streamDropped r =>
    cases hh : g.handler r <;> simp only [step, hh] at h
    case relaying c t =>
      cases t <;> cases h
      exact .streamDropped hh
    all_goals cases h

/-! ## A small deployment -/

/-- One backend under the default settings, without the fallback provider. -/
def lone : Deployment where
  cfg := { backends := [{ name := "gpu-node-1", url := "http://10.0.0.1:8000/" }] }
  environ := fun _ => none

/-- Two backends under the default settings. -/
def pair : Deployment where
  cfg := { backends := [{ name := "gpu-node-1", url := "http://10.0.0.1:8000" },
    { name := "gpu-node-2", url := "http://10.0.0.2:8000" }] }
  environ := fun _ => none

/-- A buffered and a streamed chat completion of the smallest class. -/
def chat (stream : Bool) : Submission :=
  ⟨"req-1", ⟨.smallChat, 16, none, stream, none⟩, "/v1/chat/completions", ""⟩

/-- A clock that stands still. -/
def still : Clock := .ofGaps 0 []

end Gateway

end InferenceGateway
