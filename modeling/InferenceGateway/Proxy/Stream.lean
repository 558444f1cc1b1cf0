import InferenceGateway.Lib.Transition
import InferenceGateway.Proxy.Outcomes

/-!
# The relayed stream (`wrapped` in `app/proxy/client.py`)

The asynchronous generator a `StreamingResponse` is built on, from the arrival
of the response headers to the end of its life, one resumption at a time. The
server pulls items and may close the generator at a `yield`; the upstream
answers each read of `aiter_bytes`; wherever the generator is suspended other
tasks run.

The gateway's own steps take the whole relay as one suspension (`onStreamStart`,
`onStreamEnd`, `onStreamDropped`). Here its statements are seen one by one, with
the items that were pulled and the calls that were made on the row and on the
upstream response.

- `Relay.step`: what each resumption does. A generator that was never started
  has no `try` to leave, so closing or dropping it runs nothing. Every way out
  of a `try` that was entered leads to the `finally` block, and that begins by
  closing the response.
- `Life`: a life so far, with everything that happened in it.
- `steps_of_step`: the step inversion.
- `step_handler`: the resumptions are those the handler of a request makes, so
  what holds over all lives holds of the gateway.
-/

namespace InferenceGateway

open Lib

namespace Proxy

/-- Where `wrapped()` is suspended. -/
inductive Wrapped where
  /-- Not started. -/
  | created
  /-- At a `yield`, with `total_t0` and `first_byte[0]`. -/
  | atYield (totalT0 : ℚ) (firstByte : Bool)
  /-- In `async for chunk in resp.aiter_bytes()`. -/
  | reading (totalT0 : ℚ) (firstByte : Bool)
  /-- In `await resp.aclose()` of the `finally` block. -/
  | closing (totalT0 : ℚ)
  | over
  deriving DecidableEq, Repr

/-- What an attempt calls on the row of its backend and on the upstream response. -/
inductive Call where
  | onSuccess
  | updateSuccess
  | onFailure
  | updateFailure
  | releaseDispatch
  | aclose
  deriving DecidableEq, Repr

/-- A relayed stream and the world it lives in. -/
structure Relay where
  world : World
  gen : Wrapped
  /-- The items pulled so far. -/
  sent : List Bytes
  /-- Ghost: the calls made since the headers arrived, newest first. -/
  calls : List Call

namespace Relay

inductive Act where
  /-- Other tasks run; none of them registers a backend. -/
  | elsewhere (w : World)
  /-- The server pulls an item. -/
  | next
  | chunk (b : Bytes)
  | exhausted
  | raised (e : UpstreamError)
  /-- The task of the server is cancelled while it waits for the upstream. -/
  | cancelled
  /-- The server closes the generator. -/
  | close
  /-- The generator is dropped before it was started. -/
  | drop
  /-- `resp.aclose()` returns, or raises. -/
  | aclosed (raises : Bool)

/-- `st` is a row: the backend of the attempt is registered. -/
def registered (c : ProxyCall) (w : World) : Bool := decide (c.target.name ∈ w.names)

/-- From a status below 400 to the return of the `StreamingResponse`. -/
def opened (c : ProxyCall) (w : World) : Relay :=
  let w := w.readClock
  let ttftMs := (w.clock.now - c.sentAt) * 1000
  { world := w.recordSuccess c.target.name c.lease.probe (some ttftMs) ttftMs
    gen := .created
    sent := []
    calls := if registered c w then [.updateSuccess, .onSuccess] else [] }

/-- Leave the `try` block; the `finally` block begins by closing the response. -/
def leave (s : Relay) (totalT0 : ℚ) : Relay := { s with gen := .closing totalT0 }

/-- The `finally` block once `resp.aclose()` has returned. -/
def finish (c : ProxyCall) (s : Relay) (totalT0 : ℚ) : Relay :=
  let w := s.world.readClock
  let e2e := (w.clock.now - totalT0) * 1000
  let calls := .aclose :: s.calls
  let calls := if registered c w then .updateSuccess :: calls else calls
  let w := (w.sampleStream c.target.name e2e).releaseDispatch c.target.name c.reqClass
  { s with
    world := w.endAttempt c.lease .streamDone
    gen := .over
    calls := .releaseDispatch :: calls }

/-- The generator is gone with its `finally` block not run, or cut short. -/
def lose (c : ProxyCall) (s : Relay) : Relay :=
  { s with world := s.world.endAttempt c.lease .streamLost, gen := .over }

/-- One resumption of `wrapped()`, or of another task; `none` where it cannot be. -/
def step (c : ProxyCall) (ssePrefix : Bytes) (s : Relay) : Act → Option Relay
  | .elsewhere w => if w.names = s.world.names then some { s with world := w } else none
  | .next =>
    match s.gen with
    | .created =>
      let w := s.world.readClock
      some { s with
        world := w
        gen := .atYield w.clock.now true
        sent := s.sent ++ [ssePrefix] }
    | .atYield t firstByte => some { s with gen := .reading t firstByte }
    | _ => none
  | .chunk b =>
    match s.gen with
    | .reading t firstByte =>
      -- `if chunk`: an empty chunk is not relayed
      if b.isEmpty then some s
      else
        -- the first byte is timed
        let w := if firstByte then s.world.readClock else s.world
        some { s with world := w, gen := .atYield t false, sent := s.sent ++ [b] }
    | _ => none
  | .exhausted | .raised _ | .cancelled =>
    -- no `except` clause: the `finally` block cannot tell these apart
    match s.gen with
    | .reading t _ => some (s.leave t)
    | _ => none
  | .close =>
    match s.gen with
    | .created => some (s.lose c)
    | .atYield t _ => some (s.leave t)
    | _ => none
  | .drop =>
    match s.gen with
    | .created => some (s.lose c)
    | _ => none
  | .aclosed raises =>
    match s.gen with
    | .closing t => some (if raises then s.lose c else s.finish c t)
    | _ => none

/-- The life of a relayed stream so far: what has happened, newest first. -/
inductive Life (c : ProxyCall) (ssePrefix : Bytes) (w : World) : List Act → Relay → Prop where
  | opened : Life c ssePrefix w [] (opened c w)
  | step {as : List Act} {a : Act} {s s' : Relay} (h : Life c ssePrefix w as s)
      (hs : step c ssePrefix s a = some s') : Life c ssePrefix w (a :: as) s'

variable {c : ProxyCall} {ssePrefix : Bytes} {w : World} {s s' : Relay} {a : Act} {as : List Act}
  {status : ℤ}

/-- A life that can be computed is a life. By induction on what happens in it. -/
theorem life_of_run (h : runList (step c ssePrefix) (opened c w) as = some s) :
    Life c ssePrefix w as.reverse s := by
  -- on the actions, from any point of a life
  have hrun : ∀ (as past : List Act) (s₀ : Relay), Life c ssePrefix w past s₀ →
      runList (step c ssePrefix) s₀ as = some s → Life c ssePrefix w (as.reverse ++ past) s := by
    intro as
    induction as with
    | nil =>
      intro past s₀ hlife hs
      cases hs
      exact hlife
    | cons a as ih =>
      intro past s₀ hlife hs
      obtain ⟨s₁, hstep, hrest⟩ := Option.bind_eq_some_iff.mp hs
      rw [List.reverse_cons, List.append_assoc]
      exact ih (a :: past) s₁ (hlife.step hstep) hrest
  simpa using hrun as [] _ .opened h

/-! ## Step inversion -/

/-- What the upstream, or the end of the task, makes `async for` leave by. -/
inductive Leaves : Act → Prop where
  | exhausted : Leaves .exhausted
  | raised (e : UpstreamError) : Leaves (.raised e)
  | cancelled : Leaves .cancelled

/-- `step` as a relation. -/
inductive Steps (c : ProxyCall) (ssePrefix : Bytes) (s : Relay) : Act → Relay → Prop where
  | elsewhere {w : World} (hnames : w.names = s.world.names) :
      Steps c ssePrefix s (.elsewhere w) { s with world := w }
  | start (h : s.gen = .created) :
      Steps c ssePrefix s .next { s with
        world := s.world.readClock
        gen := .atYield s.world.readClock.clock.now true
        sent := s.sent ++ [ssePrefix] }
  | resume {t : ℚ} {firstByte : Bool} (h : s.gen = .atYield t firstByte) :
      Steps c ssePrefix s .next { s with gen := .reading t firstByte }
  | empty {t : ℚ} {firstByte : Bool} (h : s.gen = .reading t firstByte) :
      Steps c ssePrefix s (.chunk []) s
  | chunk {t : ℚ} {firstByte : Bool} {b : Bytes} {w : World} (h : s.gen = .reading t firstByte)
      (hb : b ≠ []) (hw : Scoring.SameButClock s.world w) :
      Steps c ssePrefix s (.chunk b)
        { s with world := w, gen := .atYield t false, sent := s.sent ++ [b] }
  | leave {a : Act} {t : ℚ} {firstByte : Bool} (ha : Leaves a) (h : s.gen = .reading t firstByte) :
      Steps c ssePrefix s a (s.leave t)
  | close {t : ℚ} {firstByte : Bool} (h : s.gen = .atYield t firstByte) :
      Steps c ssePrefix s .close (s.leave t)
  | lose {a : Act} (ha : a = .close ∨ a = .drop) (h : s.gen = .created) :
      Steps c ssePrefix s a (s.lose c)
  | cut {t : ℚ} (h : s.gen = .closing t) : Steps c ssePrefix s (.aclosed true) (s.lose c)
  | finish {t : ℚ} (h : s.gen = .closing t) : Steps c ssePrefix s (.aclosed false) (s.finish c t)

/-- **Step inversion.** What happened and where the generator was suspended say what it
did. -/
theorem steps_of_step (h : step c ssePrefix s a = some s') : Steps c ssePrefix s a s' := by
  -- each action is for one state of the generator
  cases a with
  | elsewhere w =>
    simp only [step] at h
    split at h
    · cases h
      exact .elsewhere ‹_›
    · cases h
  | next =>
    cases hg : s.gen <;> simp only [step, hg] at h <;> cases h
    · exact .start hg
    · exact .resume hg
  | chunk b =>
    cases hg : s.gen <;> simp only [step, hg] at h
    case reading t firstByte =>
      cases b with
      | nil =>
        cases h
        exact .empty hg
      | cons x b =>
        cases h
        refine .chunk hg (List.cons_ne_nil x b) ?_
        cases firstByte
        · exact .refl _
        · exact Scoring.sameButClock_readClock _
    all_goals cases h
  | exhausted =>
    cases hg : s.gen <;> simp only [step, hg] at h <;> cases h
    exact .leave .exhausted hg
  | raised e =>
    cases hg : s.gen <;> simp only [step, hg] at h <;> cases h
    exact .leave (.raised e) hg
  | cancelled =>
    cases hg : s.gen <;> simp only [step, hg] at h <;> cases h
    exact .leave .cancelled hg
  | close =>
    cases hg : s.gen <;> simp only [step, hg] at h <;> cases h
    · exact .lose (.inl rfl) hg
    · exact .close hg
  | drop =>
    cases hg : s.gen <;> simp only [step, hg] at h <;> cases h
    exact .lose (.inr rfl) hg
  | aclosed raises =>
    cases hg : s.gen <;> simp only [step, hg] at h
    case closing t =>
      cases raises <;> cases h
      · exact .finish hg
      · exact .cut hg
    all_goals cases h

/-- The calls of a `finally` block that runs to its end: the response is closed, the
sample taken if the backend has a row, and the slot given back. -/
theorem finish_calls {t : ℚ} : (s.finish c t).calls = .releaseDispatch ::
    ((if registered c s.world then [.updateSuccess] else []) ++ .aclose :: s.calls) := by
  have hsame : registered c s.world.readClock = registered c s.world := rfl
  simp only [finish, hsame]
  split <;> rfl

/-! ## The handler's view -/

/-- The handler of the request while the stream is relayed. -/
def handler (c : ProxyCall) (s : Relay) : Handler :=
  match s.gen with
  | .created => .relaying c none
  | .atYield t _ | .reading t _ | .closing t => .relaying c (some t)
  | .over => .streamed (decide (Call.aclose ∈ s.calls))

/-- The stream is opened by the headers of a success, and its handler relays it from
then on. -/
theorem onStreamHeaders_opened (h : status < 400) :
    onStreamHeaders w c status true = ((opened c w).world, (opened c w).handler c) := by
  simp only [onStreamHeaders, if_neg (not_le.mpr h), opened, handler, if_true]

/-- The stream moves as the handler does in `onStreamStart`, `onStreamEnd` or
`onStreamDropped`; any other resumption only takes time. -/
inductive Moves (c : ProxyCall) (s s' : Relay) : Prop where
  | start (h : s.gen = .created)
      (heq : (s'.world, s'.handler c) = onStreamStart s.world c)
  | finish (t : ℚ) (raises : Bool) (h : s.gen = .closing t)
      (heq : (s'.world, s'.handler c) = onStreamEnd s.world c t raises)
  | lose (h : s.gen = .created)
      (heq : (s'.world, s'.handler c) = onStreamDropped s.world c)
  | inside (hw : Scoring.SameButClock s.world s'.world) (heq : s'.handler c = s.handler c)

/-- A `finally` block that ran to its end has closed the response. -/
theorem handler_finish {t : ℚ} : (s.finish c t).handler c = .streamed true := by
  have hclosed : Call.aclose ∈ (s.finish c t).calls := by
    rw [finish_calls]
    simp
  show Handler.streamed (decide (Call.aclose ∈ (s.finish c t).calls)) = _
  rw [decide_eq_true hclosed]

/-- A generator that is lost has left the response open. -/
theorem handler_lose (h : Call.aclose ∉ s.calls) : (s.lose c).handler c = .streamed false := by
  show Handler.streamed (decide (Call.aclose ∈ s.calls)) = _
  rw [decide_eq_false h]

/-- A resumption is a step of the handler, or time passes. The response is closed by the
`finally` block only, so a life that is not over has not closed it. -/
theorem step_handler (hopen : s.gen ≠ .over → Call.aclose ∉ s.calls)
    (hs : Steps c ssePrefix s a s') :
    (∃ w, a = .elsewhere w ∧ s' = { s with world := w }) ∨ Moves c s s' := by
  -- inside the generator the handler stays where it is
  cases hs with
  | @elsewhere w hnames => exact .inl ⟨w, rfl, rfl⟩
  | start h => exact .inr (.start h rfl)
  | resume h =>
    refine .inr (.inside (.refl _) ?_)
    simp only [handler, h]
  | empty h => exact .inr (.inside (.refl _) rfl)
  | chunk h hb hw =>
    refine .inr (.inside hw ?_)
    simp only [handler, h]
  | leave ha h =>
    refine .inr (.inside (.refl _) ?_)
    simp only [handler, Relay.leave, h]
  | close h =>
    refine .inr (.inside (.refl _) ?_)
    simp only [handler, Relay.leave, h]
  | lose ha h =>
    exact .inr (.lose h (congrArg (Prod.mk _) (handler_lose (hopen (by simp [h])))))
  | @cut t h =>
    exact .inr (.finish t true h (congrArg (Prod.mk _) (handler_lose (hopen (by simp [h])))))
  | @finish t h => exact .inr (.finish t false h (congrArg (Prod.mk _) handler_finish))

end Relay

end Proxy

end InferenceGateway
