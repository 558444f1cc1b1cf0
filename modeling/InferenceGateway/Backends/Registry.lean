import InferenceGateway.Core.Events
import InferenceGateway.Backends.Health
import InferenceGateway.Lib.Clock
import Mathlib.Logic.Function.Basic
import Mathlib.Data.List.Nodup

/-!
# Backend registry (`app/backends/registry.py`) and the shared world

`BackendRegistry` is the insertion-ordered map from names to runtime rows; its
key list is duplicate-free by construction. `World` is what every task of the
gateway shares: the registry, the monotonic clock and the history.

Reading the clock is a change of the world. Each reading of the source is one
`readClock`; where the source reads the clock in one branch only, the model
reads it in both, which changes nothing since a clock may stand still.

The operations come first, each under the words of the function or the
statements of the source it stands for: `tickCircuits`, `isHealthyForSchedule`
and the comprehension `eligible` are those of the registry, while `takeSlot`,
`releaseDispatch` and the four ways to account for an attempt are the pieces of
`dispatcher.py` and `client.py` that write to a row. What follows is one small
lemma for each operation and each part of the world, so that later modules need
not unfold any of them:

- rows: `takeSlot_row_self`, `releaseDispatch_of_mem`, `moveCircuit_of_mem` and
  the frame lemmas `…_row_of_ne` for the other backends;
- history: `takeSlot_trace`, `releaseDispatch_trace`, `moveCircuit_trace`;
- loops: `tickCircuits_rule` and `eligible_rule` carry an invariant through a
  pass over the backends, `eligible_spec` says of a candidate that it passes the
  checks when the search is over, and `eligible_check` with which reading of the
  clock each backend was looked at.
-/

namespace InferenceGateway

open Lib

/-! ## The registry -/

/-- The dictionary `_by_name`: its keys in the order in which they were first set, each
once, and a row for every name. What `row` says of a name that is not a key is read by
nobody. -/
structure BackendRegistry where
  names : List String
  nodup : names.Nodup
  row : String → BackendRuntimeState

namespace BackendRegistry

def empty : BackendRegistry := ⟨[], List.nodup_nil, fun _ => default⟩

/-- `_by_name[name] = s`: a new key goes to the end, an old one keeps its place. -/
def insert (r : BackendRegistry) (name : String) (s : BackendRuntimeState) : BackendRegistry where
  names := if name ∈ r.names then r.names else r.names ++ [name]
  nodup := by
    split
    · exact r.nodup
    · rename_i hn
      refine List.nodup_append.mpr ⟨r.nodup, List.nodup_singleton name, ?_⟩
      intro a ha b hb hab
      rw [List.mem_singleton] at hb
      exact hn (hb ▸ hab ▸ ha)
  row := Function.update r.row name s

/-- `url.rstrip("/")`. -/
def rstripSlash (url : String) : String :=
  String.ofList (url.toList.rdropWhile (· == '/'))

/-- Build runtime row from static YAML backend entry. -/
def fromEntry (b : BackendEntry) : BackendRuntimeState where
  baseUrl := rstripSlash b.url
  softLimit := b.softLimit
  hardLimit := b.hardLimit
  drained := b.drained

/-- `BackendRegistry(cfg)`: the entries of the configuration one after the other. Of two
entries with one name the later row stands in the place of the earlier. -/
def ofConfig (cfg : GatewayConfig) : BackendRegistry :=
  cfg.backends.foldl (fun r b => r.insert b.name (fromEntry b)) empty

/-- What holds of all rows and of the one that is assigned holds of all rows
afterwards. -/
theorem insert_rule {P : BackendRuntimeState → Prop} {r : BackendRegistry} {name : String}
    {s : BackendRuntimeState} (hr : ∀ b ∈ r.names, P (r.row b)) (hs : P s) :
    ∀ b ∈ (r.insert name s).names, P ((r.insert name s).row b) := by
  intro b hb
  by_cases heq : b = name
  · subst heq
    simpa [insert] using hs
  · have hb' : b ∈ r.names := by
      simp only [insert] at hb
      split at hb
      · exact hb
      · exact (List.mem_append.mp hb).resolve_right fun h => heq (List.mem_singleton.mp h)
    simpa [insert, heq] using hr b hb'

/-- **Rule for the first rows.** What holds of every row built from an entry holds of
every row the registry starts with. By induction on the entries, with the registry so
far. -/
theorem ofConfig_rule {P : BackendRuntimeState → Prop} {cfg : GatewayConfig}
    (hentry : ∀ e, P (fromEntry e)) : ∀ b ∈ (ofConfig cfg).names, P ((ofConfig cfg).row b) := by
  have hfold : ∀ (entries : List BackendEntry) (r : BackendRegistry),
      (∀ b ∈ r.names, P (r.row b)) →
      ∀ b ∈ (entries.foldl (fun r e => r.insert e.name (fromEntry e)) r).names,
        P ((entries.foldl (fun r e => r.insert e.name (fromEntry e)) r).row b) := by
    intro entries
    induction entries with
    | nil =>
      intro r hr
      exact hr
    | cons e entries ih =>
      intro r hr
      exact ih _ (insert_rule hr (hentry e))
  -- the registry starts without a key
  exact hfold cfg.backends empty fun b hb => by cases hb

/-- Lookup by backend name, or `none` if unknown. -/
def get (r : BackendRegistry) (name : String) : Option BackendRuntimeState :=
  if name ∈ r.names then some (r.row name) else none

end BackendRegistry

/-! ## The world -/

/-- What all tasks share. The history is newest first. -/
structure World where
  clock : Clock
  registry : BackendRegistry
  trace : List Event

namespace World

/-- `time.monotonic()`; the reading is `clock.now` of the result. -/
def readClock (w : World) : World := { w with clock := w.clock.read }

/-- Append to the history. -/
def emit (w : World) (e : Event) : World := { w with trace := e :: w.trace }

@[simp] abbrev row (w : World) (b : String) : BackendRuntimeState := w.registry.row b

@[simp] abbrev names (w : World) : List String := w.registry.names

/-- Overwrite the row of `b`. -/
def setRow (w : World) (b : String) (s : BackendRuntimeState) : World :=
  { w with registry := { w.registry with row := Function.update w.registry.row b s } }

/-- Mutate the row of `b` if `registry.get` finds it. -/
def modify (w : World) (b : String) (f : BackendRuntimeState → BackendRuntimeState) : World :=
  if b ∈ w.names then w.setRow b (f (w.row b)) else w

/-- Apply a breaker handler to a registered row, logging a change of circuit. -/
def moveCircuit (w : World) (b : String) (f : BackendRuntimeState → BackendRuntimeState)
    (cause : Cause) : World :=
  if b ∈ w.names then
    let src := (w.row b).circuit
    let dst := (f (w.row b)).circuit
    let w := w.setRow b (f (w.row b))
    if src = dst then w else w.emit (.moved b src dst cause w.clock.now)
  else w

/-- `health_mod.maybe_transition_from_open(s, cfg)`. -/
def maybeTransitionFromOpen (health : HealthConfig) (w : World) (b : String) : World :=
  let w := w.readClock
  w.moveCircuit b (Health.maybeTransitionFromOpen health w.clock.now) .cooldown

/-- Try OPEN → HALF_OPEN transitions on cooldown for every backend. -/
def tickCircuits (health : HealthConfig) (w : World) : World :=
  w.names.foldl (maybeTransitionFromOpen health) w

/-- True if backend may receive a new dispatch (drain/circuit/limits/errors). -/
def isHealthyForSchedule (health : HealthConfig) (w : World) (b : String) : World × Bool :=
  let w := w.maybeTransitionFromOpen health b
  (w, Health.passes health (w.row b))

/-- The comprehension `[s for s in registry.all_states() if s.name != avoid and
registry.is_healthy_for_schedule(s)]` over the rows still to visit; the
scheduler avoids nobody. -/
def eligible (health : HealthConfig) (avoid : Option String) :
    List String → World → World × List String
  | [], w => (w, [])
  | b :: bs, w =>
    if some b = avoid then eligible health avoid bs w
    else
      let (w, ok) := w.isHealthyForSchedule health b
      let (w, rest) := eligible health avoid bs w
      (w, if ok then b :: rest else rest)

/-- What `b` has lived through. -/
def history (w : World) (b : String) : List Incident := InferenceGateway.history b w.trace

/-- The half-open period of `b`. -/
def period (w : World) (b : String) : ℕ := InferenceGateway.period (w.history b)

/-- Take a slot on `b`: the statements `_dispatch_tick` and `_pick_retry_target`
share once a backend is chosen (`on_request_start`, the counters,
`record_dispatch`, the target). -/
def takeSlot (w : World) (b : String) (cls : RequestClass) : World × Grant :=
  let probe := if (w.row b).circuit = .halfOpen then some (w.period b) else none
  let w := w.setRow b (Health.onRequestStart (w.row b))
  let w := w.setRow b { w.row b with inflight := (w.row b).inflight + 1 }
  let w := if cls.isLarge then
      w.setRow b { w.row b with largeInflight := (w.row b).largeInflight + 1 }
    else w
  let w := w.readClock
  let w := w.setRow b ((w.row b).recordDispatch w.clock.now)
  -- one event for `gateway_dispatch_total` and for the probe, if it is one
  (w.emit (.dispatched b probe w.clock.now), ⟨⟨b, (w.row b).baseUrl⟩, probe⟩)

/-- Decrement gateway-side inflight (and large_inflight) when a dispatch ends. -/
def releaseDispatch (w : World) (b : String) (cls : RequestClass) : World :=
  match w.registry.get b with
  | none => w
  | some st =>
    let clamped := decide (st.inflight < 1) || (cls.isLarge && decide (st.largeInflight < 1))
    let st := { st with inflight := max 0 (st.inflight - 1) }
    let st := if cls.isLarge then { st with largeInflight := max 0 (st.largeInflight - 1) } else st
    (w.setRow b st).emit (.released b clamped)

/-- `on_success` and `update_success` on the attempt's row, if it has one. -/
def recordSuccess (w : World) (b : String) (probe : Option ℕ) (ttftMs : Option ℚ) (e2eMs : ℚ) :
    World :=
  if b ∈ w.names then
    let w := w.moveCircuit b Health.onSuccess (.success probe)
    (w.modify b (·.updateSuccess ttftMs e2eMs)).emit (.sampled b false)
  else w

/-- `update_failure` on the attempt's row, if it has one. -/
def sampleFailure (w : World) (b : String) : World :=
  if b ∈ w.names then (w.modify b (·.updateFailure)).emit (.sampled b true) else w

/-- `on_failure` and `update_failure` on the attempt's row, if it has one. -/
def recordFailure (health : HealthConfig) (w : World) (b : String) (probe : Option ℕ) : World :=
  let w := w.readClock
  (w.moveCircuit b (Health.onFailure health w.clock.now) (.failure probe)).sampleFailure b

/-- The health accounting of an error status, the same in both proxy paths:
`on_failure` for 5xx only, `update_failure` always. -/
def recordErrorStatus (health : HealthConfig) (w : World) (b : String) (probe : Option ℕ)
    (status : ℤ) : World :=
  if 500 ≤ status then w.recordFailure health b probe else w.sampleFailure b

/-- `update_success(ttft_ms=None, e2e_ms=e2e)` at the end of a stream. -/
def sampleStream (w : World) (b : String) (e2eMs : ℚ) : World :=
  if b ∈ w.names then (w.modify b (·.updateSuccess none e2eMs)).emit (.sampled b false) else w

/-- Ghost: the attempt under `lease` is over; only a granted slot is recorded. -/
def endAttempt (w : World) (lease : Lease) (how : Ending) : World :=
  match lease with
  | .granted g => w.emit (.ended g.target.name g.probe how)
  | .fallback _ => w

/-! ## What each operation does -/

variable {w : World} {b b' : String} {cls : RequestClass} {e : Event}
  {f : BackendRuntimeState → BackendRuntimeState} {cause : Cause}

@[simp] theorem readClock_registry : w.readClock.registry = w.registry := rfl

@[simp] theorem readClock_trace : w.readClock.trace = w.trace := rfl

@[simp] theorem readClock_now : w.readClock.clock.now = w.clock.read.now := rfl

@[simp] theorem emit_registry : (w.emit e).registry = w.registry := rfl

@[simp] theorem emit_trace : (w.emit e).trace = e :: w.trace := rfl

@[simp] theorem emit_clock : (w.emit e).clock = w.clock := rfl

@[simp] theorem setRow_names {s : BackendRuntimeState} :
    (w.setRow b s).registry.names = w.registry.names := rfl

@[simp] theorem setRow_trace {s : BackendRuntimeState} : (w.setRow b s).trace = w.trace := rfl

@[simp] theorem setRow_clock {s : BackendRuntimeState} : (w.setRow b s).clock = w.clock := rfl

@[simp] theorem setRow_row_self {s : BackendRuntimeState} :
    (w.setRow b s).registry.row b = s := Function.update_self ..

@[simp] theorem setRow_row_of_ne {s : BackendRuntimeState} (h : b' ≠ b) :
    (w.setRow b s).registry.row b' = w.registry.row b' := Function.update_of_ne h ..

@[simp] theorem setRow_setRow {s s' : BackendRuntimeState} :
    (w.setRow b s).setRow b s' = w.setRow b s' := by
  simp [setRow]

@[simp] theorem modify_names : (w.modify b f).registry.names = w.registry.names := by
  unfold modify
  split <;> rfl

@[simp] theorem modify_clock : (w.modify b f).clock = w.clock := by
  unfold modify
  split <;> rfl

@[simp] theorem modify_row_of_ne (h : b' ≠ b) :
    (w.modify b f).registry.row b' = w.registry.row b' := by
  unfold modify
  split
  · exact setRow_row_of_ne h
  · rfl

/-- The row that `registry.get` finds is the one that is written. -/
theorem modify_row_self (hb : b ∈ w.names) : (w.modify b f).registry.row b = f (w.row b) := by
  rw [modify, if_pos hb, setRow_row_self]

/-- `moveCircuit` on a registered row: the handler runs, and a change of circuit
is logged. -/
theorem moveCircuit_of_mem (hb : b ∈ w.names) :
    w.moveCircuit b f cause =
      if (w.row b).circuit = (f (w.row b)).circuit then w.setRow b (f (w.row b))
      else (w.setRow b (f (w.row b))).emit
        (.moved b (w.row b).circuit (f (w.row b)).circuit cause w.clock.now) := by
  rw [moveCircuit, if_pos hb]
  rfl

/-- `moveCircuit` of a name without a row does nothing, and nothing is logged. -/
theorem moveCircuit_of_notMem (hb : b ∉ w.names) : w.moveCircuit b f cause = w :=
  if_neg hb

@[simp] theorem moveCircuit_names : (w.moveCircuit b f cause).registry.names =
    w.registry.names := by
  by_cases hb : b ∈ w.names
  · rw [moveCircuit_of_mem hb]
    split <;> rfl
  · rw [moveCircuit_of_notMem hb]

@[simp] theorem moveCircuit_clock : (w.moveCircuit b f cause).clock = w.clock := by
  by_cases hb : b ∈ w.names
  · rw [moveCircuit_of_mem hb]
    split <;> rfl
  · rw [moveCircuit_of_notMem hb]

/-- The row of a registered backend is what the handler makes of it, logged or not. -/
theorem moveCircuit_row_self (hb : b ∈ w.names) :
    (w.moveCircuit b f cause).registry.row b = f (w.row b) := by
  rw [moveCircuit_of_mem hb]
  split <;> simp

/-- A handler of the breaker sees the row of its own backend only. -/
@[simp] theorem moveCircuit_row_of_ne (h : b' ≠ b) :
    (w.moveCircuit b f cause).registry.row b' = w.registry.row b' := by
  by_cases hb : b ∈ w.names
  · rw [moveCircuit_of_mem hb]
    split <;> simp [h]
  · rw [moveCircuit_of_notMem hb]

/-- A circuit change logs at most one event, about its own backend. -/
theorem moveCircuit_trace (w : World) (b : String)
    (f : BackendRuntimeState → BackendRuntimeState) (cause : Cause) :
    (w.moveCircuit b f cause).trace = w.trace ∨
      ∃ src dst, (w.moveCircuit b f cause).trace =
        .moved b src dst cause w.clock.now :: w.trace := by
  by_cases hb : b ∈ w.names
  · rw [moveCircuit_of_mem hb]
    split
    · exact .inl rfl
    · exact .inr ⟨_, _, rfl⟩
  · exact .inl (by rw [moveCircuit_of_notMem hb])

/-- A handler that keeps the load of a row keeps it through `moveCircuit`. -/
theorem moveCircuit_sameLoad (w : World) (b b' : String) (cause : Cause)
    (hf : ∀ s, Health.SameLoad s (f s)) :
    Health.SameLoad (w.registry.row b') ((w.moveCircuit b f cause).registry.row b') := by
  by_cases hb' : b' = b
  · subst hb'
    by_cases hb : b' ∈ w.names
    · rw [moveCircuit_row_self hb]
      exact hf _
    · rw [moveCircuit_of_notMem hb]
      exact .refl _
  · rw [moveCircuit_row_of_ne hb']
    exact .refl _

/-- The row after `takeSlot`, in one update. The probe is counted by the circuit as it
was before the slot was taken, and the dispatch is noted at a reading of the clock made
in between. -/
theorem takeSlot_row_self (w : World) (b : String) (cls : RequestClass) :
    (w.takeSlot b cls).1.registry.row b =
      ({ w.row b with
          halfOpenProbes :=
            (w.row b).halfOpenProbes + if (w.row b).circuit = .halfOpen then 1 else 0
          inflight := (w.row b).inflight + 1
          largeInflight := (w.row b).largeInflight + if cls.isLarge then 1 else 0 }
        : BackendRuntimeState).recordDispatch w.clock.read.now := by
  cases hc : cls.isLarge <;> simp [takeSlot, hc, Health.onRequestStart_eq]

/-- A slot on one backend is nothing to the other ones. -/
theorem takeSlot_row_of_ne (h : b' ≠ b) :
    (w.takeSlot b cls).1.registry.row b' = w.registry.row b' := by
  cases hc : cls.isLarge <;> simp [takeSlot, hc, h]

/-- The half-open period a slot taken on `b` now would belong to. -/
def probeNow (w : World) (b : String) : Option ℕ :=
  if (w.row b).circuit = .halfOpen then some (w.period b) else none

/-- Taking a slot is one event: the dispatch, with the half-open period it belongs
to. -/
theorem takeSlot_trace :
    (w.takeSlot b cls).1.trace = .dispatched b (w.probeNow b) w.clock.read.now :: w.trace := by
  cases hc : cls.isLarge <;> simp [takeSlot, hc, probeNow]

@[simp] theorem takeSlot_names : (w.takeSlot b cls).1.registry.names = w.registry.names := by
  cases hc : cls.isLarge <;> simp [takeSlot, hc]

@[simp] theorem takeSlot_clock : (w.takeSlot b cls).1.clock = w.clock.read := by
  cases hc : cls.isLarge <;> simp [takeSlot, hc, readClock]

/-- `_release_dispatch` on a registered backend. -/
theorem releaseDispatch_of_mem (hb : b ∈ w.names) :
    w.releaseDispatch b cls =
      (w.setRow b { w.row b with
        inflight := max 0 ((w.row b).inflight - 1)
        largeInflight := if cls.isLarge then max 0 ((w.row b).largeInflight - 1)
          else (w.row b).largeInflight }).emit
        (.released b (decide ((w.row b).inflight < 1) ||
          (cls.isLarge && decide ((w.row b).largeInflight < 1)))) := by
  cases hc : cls.isLarge <;> simp [releaseDispatch, BackendRegistry.get, hb, hc]

/-- `_release_dispatch` of a name the registry does not know does nothing. -/
theorem releaseDispatch_of_notMem (hb : b ∉ w.names) : w.releaseDispatch b cls = w := by
  simp [releaseDispatch, BackendRegistry.get, hb]

@[simp] theorem releaseDispatch_names :
    (w.releaseDispatch b cls).registry.names = w.registry.names := by
  by_cases hb : b ∈ w.names
  · rw [releaseDispatch_of_mem hb]
    rfl
  · rw [releaseDispatch_of_notMem hb]

@[simp] theorem releaseDispatch_clock : (w.releaseDispatch b cls).clock = w.clock := by
  by_cases hb : b ∈ w.names
  · rw [releaseDispatch_of_mem hb]
    rfl
  · rw [releaseDispatch_of_notMem hb]

@[simp] theorem releaseDispatch_row_of_ne (h : b' ≠ b) :
    (w.releaseDispatch b cls).registry.row b' = w.registry.row b' := by
  by_cases hb : b ∈ w.names
  · rw [releaseDispatch_of_mem hb]
    simp [h]
  · rw [releaseDispatch_of_notMem hb]

/-- A release is one event, or none where the name has no row. -/
theorem releaseDispatch_trace (w : World) (b : String) (cls : RequestClass) :
    (w.releaseDispatch b cls).trace = w.trace ∨
      ∃ clamped, (w.releaseDispatch b cls).trace = .released b clamped :: w.trace := by
  by_cases hb : b ∈ w.names
  · exact .inr ⟨_, by rw [releaseDispatch_of_mem hb]; rfl⟩
  · exact .inl (by rw [releaseDispatch_of_notMem hb])

/-! ## The eligibility check -/

variable {health : HealthConfig} {avoid : Option String}

@[simp] theorem maybeTransitionFromOpen_names :
    (w.maybeTransitionFromOpen health b).registry.names = w.registry.names := by
  simp [maybeTransitionFromOpen]

@[simp] theorem maybeTransitionFromOpen_row_of_ne (h : b' ≠ b) :
    (w.maybeTransitionFromOpen health b).registry.row b' = w.registry.row b' := by
  simp [maybeTransitionFromOpen, h]

/-- **Rule for `tick_circuits`.** What one attempted transition preserves, the pass
over all backends preserves. -/
theorem tickCircuits_rule {I : World → Prop}
    (hstep : ∀ v x, I v → I (v.maybeTransitionFromOpen health x)) (hw : I w) :
    I (w.tickCircuits health) :=
  List.foldlRecOn w.names (maybeTransitionFromOpen health) hw fun v hv x _ => hstep v x hv

/-- **Rule for the comprehension.** What one attempted transition of a visited, not
avoided backend preserves, the pass over the backends preserves. -/
theorem eligible_rule {I : World → Prop} {bs : List String}
    (hstep : ∀ v, ∀ x ∈ bs, some x ≠ avoid → I v → I (v.maybeTransitionFromOpen health x))
    (hw : I w) : I (eligible health avoid bs w).1 := by
  induction bs generalizing w with
  | nil => exact hw
  | cons x bs ih =>
    have hrest : ∀ v, ∀ y ∈ bs, some y ≠ avoid → I v → I (v.maybeTransitionFromOpen health y) :=
      fun v y hy => hstep v y (List.mem_cons_of_mem _ hy)
    unfold eligible
    split
    · exact ih hrest hw
    · rename_i hx
      exact ih hrest (hstep w x (List.mem_cons_self ..) hx hw)

/-- One round of the comprehension on a backend that is not avoided. -/
theorem eligible_cons (bs : List String) (h : some b ≠ avoid) :
    eligible health avoid (b :: bs) w =
      let v := w.maybeTransitionFromOpen health b
      let rest := eligible health avoid bs v
      (rest.1, if Health.passes health (v.registry.row b) = true then b :: rest.2 else rest.2) := by
  rw [eligible, if_neg h]
  rfl

@[simp] theorem eligible_names (bs : List String) (w : World) :
    (eligible health avoid bs w).1.registry.names = w.registry.names :=
  eligible_rule (I := fun v => v.registry.names = w.registry.names)
    (fun _ _ _ _ hv => maybeTransitionFromOpen_names.trans hv) rfl

/-- Checking other backends leaves a row alone. -/
theorem eligible_row_of_notMem (bs : List String) (w : World) (hb : b ∉ bs) :
    (eligible health avoid bs w).1.registry.row b = w.registry.row b := by
  refine eligible_rule (I := fun v => v.registry.row b = w.registry.row b) ?_ rfl
  intro v x hx _ hv
  have hne : b ≠ x := fun h => hb (h ▸ hx)
  exact (maybeTransitionFromOpen_row_of_ne hne).trans hv

/-- The avoided backend is not even looked at. -/
theorem eligible_row_of_avoid (health : HealthConfig) (b : String) (bs : List String) (w : World) :
    (eligible health (some b) bs w).1.registry.row b = w.registry.row b := by
  refine eligible_rule (I := fun v => v.registry.row b = w.registry.row b) ?_ rfl
  intro v x _ hx hv
  have hne : b ≠ x := fun h => hx (congrArg some h.symm)
  exact (maybeTransitionFromOpen_row_of_ne hne).trans hv

/-- Every candidate is a visited, not avoided backend, and when the candidates have all
been found it still passes the checks: no backend is visited twice, and a visit changes
the row of the visited backend only. By induction on the backends still to visit. -/
theorem eligible_spec :
    ∀ (bs : List String) (w : World), bs.Nodup → b ∈ (eligible health avoid bs w).2 →
      b ∈ bs ∧ some b ≠ avoid ∧
        Health.passes health ((eligible health avoid bs w).1.registry.row b) = true
  | [], _, _, h => by cases h
  | x :: bs, w, hnd, h => by
    obtain ⟨hx, hbs⟩ := List.nodup_cons.mp hnd
    by_cases havoid : some x = avoid
    · rw [eligible, if_pos havoid] at h ⊢
      obtain ⟨hmem, hrest⟩ := eligible_spec bs w hbs h
      exact ⟨List.mem_cons_of_mem _ hmem, hrest⟩
    rw [eligible_cons bs havoid] at h ⊢
    by_cases hin : b ∈ (eligible health avoid bs (w.maybeTransitionFromOpen health x)).2
    · obtain ⟨hmem, hrest⟩ := eligible_spec bs _ hbs hin
      exact ⟨List.mem_cons_of_mem _ hmem, hrest⟩
    -- so `b` is the head, and since it is not visited again it still passes
    have hhead : b = x ∧ Health.passes health
        ((w.maybeTransitionFromOpen health x).registry.row x) = true := by
      by_cases hpass : Health.passes health
          ((w.maybeTransitionFromOpen health x).registry.row x) = true
      · simp only [if_pos hpass, List.mem_cons, hin, or_false] at h
        exact ⟨h, hpass⟩
      · simp only [if_neg hpass] at h
        exact absurd h hin
    obtain ⟨rfl, hpass⟩ := hhead
    refine ⟨List.mem_cons_self .., havoid, ?_⟩
    rw [eligible_row_of_notMem bs _ hx]
    exact hpass

/-- The reading of the clock that a pass over `bs` makes for `b`: there is one for
each backend visited up to it. -/
def readingFor (avoid : Option String) (bs : List String) (b : String) (w : World) : ℚ :=
  (Clock.read^[(bs.filter fun x => decide (some x ≠ avoid)).idxOf b + 1] w.clock).now

/-- The reading that `maybe_transition_from_open` makes is the next one of the clock. -/
theorem maybeTransitionFromOpen_row_self (hb : b ∈ w.names) :
    (w.maybeTransitionFromOpen health b).registry.row b =
      Health.maybeTransitionFromOpen health w.clock.read.now (w.registry.row b) :=
  moveCircuit_row_self (w := w.readClock) hb

/-- What a pass does to each backend it visits: the circuit moves by the reading made
for it, and the checks see the row as it is then. By induction on the backends still to
visit; a visit of another backend moves the clock and nothing else that matters here. -/
theorem eligible_check : ∀ (bs : List String) (w : World), bs.Nodup → b ∈ bs →
    some b ≠ avoid → b ∈ w.names →
    (eligible health avoid bs w).1.registry.row b =
        Health.maybeTransitionFromOpen health (w.readingFor avoid bs b) (w.registry.row b) ∧
      (b ∈ (eligible health avoid bs w).2 ↔ Health.passes health
        (Health.maybeTransitionFromOpen health (w.readingFor avoid bs b) (w.registry.row b)) = true)
  | [], _, _, h, _, _ => by cases h
  | x :: bs, w, hnd, h, hb, hname => by
    obtain ⟨hx, hbs⟩ := List.nodup_cons.mp hnd
    by_cases havoid : some x = avoid
    -- an avoided backend is not visited and takes no reading
    · have hne : b ≠ x := fun heq => hb (heq ▸ havoid)
      have hskip : w.readingFor avoid (x :: bs) b = w.readingFor avoid bs b := by
        simp [readingFor, havoid]
      rw [eligible, if_pos havoid, hskip]
      exact eligible_check bs w hbs ((List.mem_cons.mp h).resolve_left hne) hb hname
    rw [eligible_cons bs havoid]
    -- at the head of the list it is `b`'s turn, and otherwise `x` takes a reading first
    by_cases hbx : b = x
    · subst hbx
      have hread : w.readingFor avoid (b :: bs) b = w.clock.read.now := by
        simp [readingFor, havoid]
      have hout : b ∉ (eligible health avoid bs (w.maybeTransitionFromOpen health b)).2 :=
        fun hin => hx (eligible_spec bs _ hbs hin).1
      have hrow : (w.maybeTransitionFromOpen health b).registry.row b =
          Health.maybeTransitionFromOpen health w.clock.read.now (w.registry.row b) :=
        maybeTransitionFromOpen_row_self hname
      refine ⟨(eligible_row_of_notMem bs _ hx).trans (by rw [hrow, hread]), ?_⟩
      show b ∈ (if Health.passes health _ = true then _ else _) ↔ _
      rw [hrow, hread]
      split
      · rename_i hpass
        exact iff_of_true (List.mem_cons_self ..) hpass
      · rename_i hpass
        exact iff_of_false hout hpass
    · have hread : w.readingFor avoid (x :: bs) b =
          (w.maybeTransitionFromOpen health x).readingFor avoid bs b := by
        simp only [readingFor, List.filter_cons, decide_eq_true (show some x ≠ avoid from havoid),
          if_true, List.idxOf_cons_ne _ (Ne.symm hbx)]
        rw [Function.iterate_succ_apply]
        simp [maybeTransitionFromOpen, readClock]
      have hrow : (w.maybeTransitionFromOpen health x).registry.row b = w.registry.row b :=
        maybeTransitionFromOpen_row_of_ne hbx
      obtain ⟨hafter, hmem⟩ := eligible_check bs (w.maybeTransitionFromOpen health x) hbs
        ((List.mem_cons.mp h).resolve_left hbx) hb (by simpa using hname)
      rw [hread, ← hrow]
      refine ⟨hafter, ?_⟩
      rw [← hmem]
      show b ∈ (if Health.passes health _ = true then _ else _) ↔ _
      split
      · simp [hbx]
      · rfl

end World

end InferenceGateway
