import InferenceGateway.Guarantees.Breaker
import InferenceGateway.Proxy.Writes

/-!
# Who decides a half-open circuit

The handlers of the breaker look at the circuit of the moment and never at when their request
was dispatched. Whether a half-open circuit is decided by its probes is therefore a matter of
what else is outstanding on the backend when half-open is entered.

- `Since`: what one step of the gateway can have done to the slots on one backend. A slot
  that is new and still unjudged is a probe of the period the step ends in.
- `watched`: the gateway, beside a note of the slots that were taken when the backend last
  entered half-open. In half-open an unjudged slot is a probe of the period exactly if it is
  not in the note (`Watched`).
- `probes_decide`: a run keeps the law exactly if none of the slots in the note has its
  outcome recorded in half-open, nor a call to the fallback provider that bears the name.
-/

namespace InferenceGateway

open Lib

/-! ## Entries of a verdict -/

namespace World

variable {w w' u : World} {b : String} {v : Verdict} {probe : Option ℕ} {health : HealthConfig}

/-- Between `w` and `w'` the outcome `v` has moved half-open `b`. -/
def Settles (b : String) (v : Verdict) (probe : Option ℕ) (w w' : World) : Prop :=
  ∃ new dst t, w'.history b = new ++ .moved .halfOpen dst (v.cause probe) t :: w.history b

theorem Writes.history {q : Event → Bool} (h : Writes q w w') (b : String) :
    ∃ new, w'.history b = new ++ w.history b := by
  obtain ⟨new, htrace, -⟩ := h
  refine ⟨new.filterMap (Event.seenBy b), ?_⟩
  show w'.trace.filterMap (Event.seenBy b) = _
  rw [htrace, List.filterMap_append]
  rfl

theorem Settles.after {q : Event → Bool} (h : Settles b v probe w u) (hw : Writes q u w') :
    Settles b v probe w w' := by
  obtain ⟨new, dst, t, hu⟩ := h
  obtain ⟨later, hlater⟩ := hw.history b
  exact ⟨later ++ new, dst, t, by rw [hlater, hu, List.append_assoc]⟩

theorem Settles.before (h : Settles b v probe u w') (hsame : u.history b = w.history b) :
    Settles b v probe w w' := by
  obtain ⟨new, dst, t, hu⟩ := h
  exact ⟨new, dst, t, hsame ▸ hu⟩

/-- No outcome leaves a circuit half-open. -/
theorem decides_moveCircuit (health : HealthConfig) (now : ℚ) (hb : b ∈ w.names)
    (hho : (w.row b).circuit = .halfOpen) :
    Settles b v probe w (w.moveCircuit b (v.handler health now) (v.cause probe)) := by
  have hrow : (w.moveCircuit b (v.handler health now) (v.cause probe)).row b =
      v.handler health now (w.row b) := moveCircuit_row_self hb
  have hmoved : (w.row b).circuit ≠ (v.handler health now (w.row b)).circuit := by
    rw [hho]
    exact v.handler_circuit_ne.symm
  refine ⟨[], (v.handler health now (w.row b)).circuit, w.clock.now, ?_⟩
  rw [moveCircuit_history hb, hrow, Fleet.movedEntry, if_neg hmoved, hho]
  rfl

theorem decides_recordSuccess {ttftMs : Option ℚ} {e2eMs : ℚ} (hb : b ∈ w.names)
    (hho : (w.row b).circuit = .halfOpen) :
    Settles b .success probe w (w.recordSuccess b probe ttftMs e2eMs) := by
  have hmoved : Settles b .success probe w (w.moveCircuit b Health.onSuccess (.success probe)) :=
    decides_moveCircuit (v := .success) {} 0 hb hho
  rw [recordSuccess, if_pos hb]
  exact hmoved.after (inner_modify.trans (.emit rfl))

theorem decides_recordFailure (hb : b ∈ w.names) (hho : (w.row b).circuit = .halfOpen) :
    Settles b .failure probe w (w.recordFailure health b probe) := by
  have hmoved : Settles b .failure probe w.readClock
      (w.readClock.moveCircuit b (Health.onFailure health w.readClock.clock.now)
        (.failure probe)) :=
    decides_moveCircuit (w := w.readClock) (v := .failure) health _ hb hho
  exact (hmoved.before rfl).after inner_sampleFailure

end World

namespace Proxy

open World

variable {D : Deployment} {w : World} {c : ProxyCall} {status : ℤ} {v : Verdict}

theorem decides_accountErrorStatus (h500 : 500 ≤ status) (hb : c.target.name ∈ w.names)
    (hho : (w.row c.target.name).circuit = .halfOpen) :
    Settles c.target.name .failure c.lease.probe w (accountErrorStatus D w c status) := by
  rw [accountErrorStatus, recordErrorStatus, if_pos h500]
  exact (decides_recordFailure hb hho).after (.emit (q := fun _ => true) rfl)

theorem decides_onTransportError {e : UpstreamError} (hb : c.target.name ∈ w.names)
    (hho : (w.row c.target.name).circuit = .halfOpen) :
    Settles c.target.name .failure c.lease.probe w (onTransportError D w c e).1 := by
  have haccount : Settles c.target.name .failure c.lease.probe
      (w.emit (.errorsTotal c.target.name)) (accountTransportError D w c) :=
    decides_recordFailure hb hho
  exact (haccount.before (history_cons ..)).after quiet_retryOrGiveUp

/-- **A verdict on a half-open backend moves its circuit**, and the entry names the probe the
attempt was, if it was one. -/
theorem decides_onUpstream {o : Upstream} (hv : verdictOnUpstream c o = some v)
    (hb : c.target.name ∈ w.names) (hho : (w.row c.target.name).circuit = .halfOpen) :
    Settles c.target.name v c.lease.probe w (onUpstream D w c o).1 := by
  generalize hnext : onUpstream D w c o = next
  -- by what the handler makes of the answer; only what `verdictOnUpstream` names is recorded
  cases upstreams_of_eq hnext with
  | answered hs hlt =>
    obtain rfl : Verdict.success = v := by simpa [verdictOnUpstream, hlt] using hv
    exact ((decides_recordSuccess (w := w.readClock) hb hho).before rfl).after
      (inner_releaseDispatch.trans inner_endAttempt)
  | @refused status relayable hs hge =>
    have hge' := not_lt.mpr hge
    simp only [verdictOnUpstream, hge', if_false, hs, Bool.false_eq_true] at hv
    split at hv
    · next h500 =>
      obtain rfl := Option.some.inj hv
      exact ((decides_accountErrorStatus (w := w.readClock) h500 hb hho).before rfl).after
        quiet_retryOrGiveUp
    · cases hv
  | relayed hs hlt =>
    obtain rfl : Verdict.success = v := by simpa [verdictOnUpstream, hlt] using hv
    exact (decides_recordSuccess (w := w.readClock) hb hho).before rfl
  | unrelayable hs hlt =>
    obtain rfl : Verdict.success = v := by simpa [verdictOnUpstream, hlt] using hv
    exact ((decides_recordSuccess (w := w.readClock) hb hho).before rfl).after inner_endAttempt
  | drained hs hge => simp [verdictOnUpstream, not_lt.mpr hge, hs] at hv
  | uncaught he => simp [verdictOnUpstream, he] at hv
  | streamError hs he =>
    obtain rfl : Verdict.failure = v := by simpa [verdictOnUpstream, he] using hv
    exact (decides_recordFailure hb hho).after
      (((Writes.emit rfl).trans inner_releaseDispatch).trans inner_endAttempt)
  | transportError hs he =>
    obtain rfl : Verdict.failure = v := by simpa [verdictOnUpstream, he] using hv
    exact decides_onTransportError hb hho

theorem decides_onDrained {o : BodyRead} (hv : verdictOnDrained status o = some v)
    (hb : c.target.name ∈ w.names) (hho : (w.row c.target.name).circuit = .halfOpen) :
    Settles c.target.name v c.lease.probe w (onDrained D w c status o).1 := by
  generalize hnext : onDrained D w c status o = next
  -- an error status of 500 or more and a transport error are failures, and nothing else is
  -- recorded
  cases drains_of_eq hnext with
  | read =>
    simp only [verdictOnDrained] at hv
    split at hv
    · next h500 =>
      obtain rfl := Option.some.inj hv
      exact (decides_accountErrorStatus h500 hb hho).after
        (inner_releaseDispatch.trans inner_endAttempt)
    · cases hv
  | uncaught he => simp [verdictOnDrained, he] at hv
  | transportError he =>
    obtain rfl : Verdict.failure = v := by simpa [verdictOnDrained, he] using hv
    exact decides_onTransportError hb hho

end Proxy

namespace Gateway

variable {D : Deployment} {g g' : Gateway} {a : Action} {b : String} {c : ProxyCall} {v : Verdict}

theorem decides_of_steps (hs : Steps D g a g') (hv : g.verdictOf a = some (c, v))
    (hb : c.target.name ∈ g.names) (hho : (g.row c.target.name).circuit = .halfOpen) :
    World.Settles c.target.name v c.lease.probe g.world g'.world := by
  cases hs with
  | @upstream r c' o hc =>
    simp only [verdictOf, hc, Option.map_eq_some_iff] at hv
    obtain ⟨v', hv', heq⟩ := hv
    cases heq
    exact Proxy.decides_onUpstream hv' hb hho
  | @drained r c' status o hc =>
    simp only [verdictOf, hc, Option.map_eq_some_iff] at hv
    obtain ⟨v', hv', heq⟩ := hv
    cases heq
    exact Proxy.decides_onDrained hv' hb hho
  | _ => cases hv

/-! ## One step, seen from one backend -/

/-- What the deeds of one step, so far, have done to the record of `b` and to the slots on it,
the step being taken from `g`. -/
structure Since (g : Gateway) (b : String) (F : Fleet) : Prop where
  registered : b ∈ F.names
  recorded : ∃ new, F.history b = new ++ g.world.history b
  period_le : g.world.period b ≤ F.period b
  /-- Half-open is entered anew, or was there from the start. -/
  entered : (F.row b).circuit = .halfOpen → F.period b = g.world.period b →
    (g.row b).circuit = .halfOpen
  /-- A slot whose outcome is still to come was there from the start, or has been taken since,
  and then the circuit lets requests through and the slot is a probe if it is half-open. -/
  taken : ∀ r s, F.held r = some s → s.backend = b → s.judged = false →
    g.slotOf r = some s ∨ ((F.row b).circuit ≠ .opened ∧
      ((F.row b).circuit = .halfOpen → s.grant.probe = some (F.period b)))

variable {F F' : Fleet} {d : Deed}

theorem Since.refl (hb : b ∈ g.names) : Since g b g.fleet :=
  ⟨hb, ⟨[], rfl⟩, le_refl _, fun h _ => h, fun _ _ hs _ _ => .inl hs⟩

theorem Since.recorded_append (h : Since g b F) (hext : ∃ new, F'.history b = new ++ F.history b) :
    ∃ new, F'.history b = new ++ g.world.history b := by
  obtain ⟨new, hnew⟩ := h.recorded
  obtain ⟨later, hlater⟩ := hext
  exact ⟨later ++ new, by rw [hlater, hnew, List.append_assoc]⟩

/-- The circuit has not moved, and no slot on `b` has been taken. -/
theorem Since.sameCircuit (h : Since g b F) (hb : b ∈ F'.names)
    (hcircuit : (F'.row b).circuit = (F.row b).circuit) (hperiod : F'.period b = F.period b)
    (hext : ∃ new, F'.history b = new ++ F.history b)
    (hheld : ∀ r s, F'.held r = some s → s.backend = b → F.held r = some s) : Since g b F' where
  registered := hb
  recorded := h.recorded_append hext
  period_le := hperiod ▸ h.period_le
  entered := by
    rw [hcircuit, hperiod]
    exact h.entered
  taken r s hs hsb hnew := by
    rw [hcircuit, hperiod]
    exact h.taken r s (hheld r s hs hsb) hsb hnew

/-- An outcome is recorded, which is the first thing a step does to a row. -/
theorem Since.judged (h : Since g b F) (hb : b ∈ F'.names)
    (hcircuit : (F'.row b).circuit ≠ .halfOpen) (hperiod : F'.period b = F.period b)
    (hext : ∃ new, F'.history b = new ++ F.history b)
    (hheld : ∀ r s, F'.held r = some s → s.judged = false → g.slotOf r = some s) :
    Since g b F' where
  registered := hb
  recorded := h.recorded_append hext
  period_le := hperiod ▸ h.period_le
  entered hho := absurd hho hcircuit
  taken r s hs _ hnew := .inl (hheld r s hs hnew)

/-- **Step lemma.** What a deed adds to what the step has done so far, by cases on what
the deed does to the slots and the circuit of `b`. -/
theorem Since.step (h : Since g b F) (hd : Explains D g a F d)
    (hstep : Fleet.Step D.cfg.health F d F') : Since g b F' := by
  have hnames : b ∈ F'.names := (Fleet.names_step hstep).symm ▸ h.registered
  -- by what the deed does to the slots and the circuit of this backend
  cases Fleet.turn_of_step h.registered hstep with
  | elsewhere breaker rate history now held count =>
    exact h.sameCircuit hnames breaker.circuit (congrArg InferenceGateway.period history)
      ⟨[], history⟩ fun r s hs hsb => (held r s hsb).mp hs
  | @cooled d w t circuit openedAt cool row history now =>
    have hperiod : w.period b = F.period b + 1 := by
      show InferenceGateway.period (w.history b) = _
      rw [history]
      exact List.countP_cons_of_pos rfl
    have hle := h.period_le
    refine ⟨hnames, h.recorded_append ⟨[_], history⟩, ?_, fun _ hsame => ?_, ?_⟩
    · show g.world.period b ≤ w.period b
      omega
    · have hsame' : w.period b = g.world.period b := hsame
      omega
    · -- nothing is taken on an open circuit, so every slot was there from the start
      intro r s hs hsb hnew
      exact .inl ((h.taken r s hs hsb hnew).resolve_right fun hno => hno.1 circuit)
  | @dispatched r cls w s t hr held backend probe judged pass circuit probes openedAt rate
    history =>
    have hperiod : w.period b = F.period b := Fleet.period_of_history history rfl
    refine ⟨hnames, h.recorded_append ⟨[_], history⟩, ?_, ?_, ?_⟩
    · show g.world.period b ≤ w.period b
      exact hperiod ▸ h.period_le
    · intro hho hsame
      exact h.entered (circuit.symm.trans hho) (hperiod.symm.trans hsame)
    · intro r' s' hs' hsb hnew
      show g.slotOf r' = some s' ∨ ((w.row b).circuit ≠ .opened ∧
        ((w.row b).circuit = .halfOpen → s'.grant.probe = some (w.period b)))
      rw [hperiod, circuit]
      rcases Fleet.held_of_put hs' with ⟨-, heq⟩ | hs'
      · obtain rfl := Option.some.inj heq
        refine .inr ⟨(Health.passes_iff.mp pass).2.1, fun hho => ?_⟩
        rw [probe, World.probeNow, if_pos hho]
      · exact h.taken r' s' hs' hsb hnew
  | @judged r s v w hr held backend new row history now =>
    obtain ⟨-, -, -, -, -, -, hsame, -⟩ := hd
    have hne : (w.row b).circuit ≠ .halfOpen := by
      rw [row]
      exact v.handler_circuit_ne
    refine h.judged hnames hne ?_ ⟨_, history⟩ fun r' s' hs' hnew => ?_
    · show InferenceGateway.period (w.history b) = _
      rw [history, Fleet.period_movedEntry hne]
      rfl
    · rcases Fleet.held_of_put hs' with ⟨-, heq⟩ | hs'
      · cases heq
        cases hnew
      · exact hsame ▸ hs'
  | @strayed v w row history now =>
    obtain ⟨-, -, -, -, hsame, -⟩ := hd
    have hne : (w.row b).circuit ≠ .halfOpen := by
      rw [row]
      exact v.handler_circuit_ne
    refine h.judged hnames hne ?_ ⟨_, history⟩ fun r' s' hs' _ => hsame ▸ hs'
    show InferenceGateway.period (w.history b) = _
    rw [history, Fleet.period_movedEntry hne]
    rfl
  | sampled breaker rate history now =>
    exact h.sameCircuit hnames breaker.circuit (Fleet.period_of_history history rfl) ⟨[_], history⟩
      fun _ _ hs _ => hs
  | ended hr held backend hhow breaker rate history now =>
    refine h.sameCircuit hnames breaker.circuit (Fleet.period_of_history history rfl)
      ⟨[_], history⟩ fun r' s' hs' _ => ?_
    exact (Fleet.held_of_put hs').resolve_left fun hno => by cases hno.2

/-- What a whole step has done. -/
theorem since_of_steps (hinv : g.Inv) (hs : Steps D g a g') (hb : b ∈ g.names) :
    Since g b g'.fleet :=
  (step_deeds hinv hs).preserves (I := fun F => Since g b F)
      (fun _ _ _ hF hd hstep => hF.step hd hstep)
    (.refl hb)

/-! ## The law, step by step -/

/-- While `b` is half-open, the step records on it only the outcome of one of the
probes of the current period. -/
def OwnVerdict (b : String) (g : Gateway) (a : Action) : Prop :=
  ∀ cv ∈ g.verdictOf a, cv.1.target.name = b → (g.row b).circuit = .halfOpen →
    cv.1.lease.probe = some (g.world.period b)

theorem OwnVerdict.licence {g₀ : Gateway} {a : Action} {F : Fleet} {d : Deed}
    (hok : OwnVerdict b g₀ a) (hd : Explains D g₀ a F d) : Fleet.OwnVerdicts b F d := by
  -- only these two record an outcome, the one for a slot and the other for no slot at all
  cases d with
  | judge r v =>
    obtain ⟨c, s, hverdict, hheld, hbackend, hprobe, -, hreg, hperiod⟩ := hd
    intro s' hs' hb hho
    obtain rfl : s = s' := Option.some.inj (hheld.symm.trans hs')
    have hho' : (g₀.row b).circuit = .halfOpen := by
      rw [← hho]
      exact congrArg (fun R : BackendRegistry => (R.row b).circuit) hreg.symm
    rw [hprobe, hok (c, v) hverdict (hbackend.symm.trans hb) hho']
    exact congrArg some (hperiod b).symm
  | stray b' v =>
    obtain ⟨c, hverdict, rfl, hprobe, -, hreg, -⟩ := hd
    rintro hb hho
    have hho' : (g₀.row b).circuit = .halfOpen := by
      rw [← hho]
      exact congrArg (fun R : BackendRegistry => (R.row b).circuit) hreg.symm
    have hown := hok (c, v) hverdict hb hho'
    rw [hprobe] at hown
    cases hown
  | _ => trivial

/-- **A step keeps the law exactly if the outcome it records is a probe's.** What is written
after the entry of the outcome takes nothing back. -/
theorem lawful_step_iff (hinv : g.Inv) (hs : Steps D g a g') (hb : b ∈ g.names) :
    Lawful VerdictLaw (g'.world.history b) ↔
      Lawful VerdictLaw (g.world.history b) ∧ OwnVerdict b g a := by
  constructor
  -- the outcome that is recorded moves the circuit, and the law asks for its cause
  · intro hlaw
    obtain ⟨new, hnew⟩ := (since_of_steps hinv hs hb).recorded
    have hnew' : g'.world.history b = new ++ g.world.history b := hnew
    refine ⟨Lawful.of_append (hnew' ▸ hlaw), ?_⟩
    rintro ⟨c, v⟩ hv rfl hho
    obtain ⟨later, dst, t, hmoved⟩ := decides_of_steps hs hv hb hho
    have hentry : VerdictLaw (.moved .halfOpen dst (v.cause c.lease.probe) t)
        (g.world.history c.target.name) := Lawful.at_split (hmoved ▸ hlaw)
    cases v with
    | success =>
      rcases hentry with ⟨-, hcause⟩ | ⟨-, hcause⟩
      · exact Cause.success.inj hcause
      · cases hcause
    | failure =>
      rcases hentry with ⟨-, hcause⟩ | ⟨-, hcause⟩
      · cases hcause
      · exact Cause.failure.inj hcause
  · rintro ⟨hlaw, hown⟩
    have hdeeds := (step_deeds hinv hs).mono fun F d hd => hown.licence hd
    refine (hdeeds.preserves (I := fun F => b ∈ F.names ∧ Lawful VerdictLaw (F.history b)) ?_
      ⟨hb, hlaw⟩).2
    intro F d F' ⟨hbF, hF⟩ hlicence hd
    exact ⟨(Fleet.names_step hd).symm ▸ hbF, Fleet.decided_step hF hbF hd hlicence⟩

/-! ## What was outstanding when half-open was entered -/

/-- The note is taken anew with every entry of `b` into half-open. -/
def noteEntry (b : String) (g : Gateway) (_ : Action) (g' : Gateway)
    (atEntry : ReqId → Option Slot) : ReqId → Option Slot :=
  if g.world.period b < g'.world.period b then g.slotOf else atEntry

/-- The gateway beside the slots that were taken when `b` last entered half-open. -/
def watched (D : Deployment) (b : String) : Machine (Gateway × (ReqId → Option Slot)) Action :=
  .ofFn (fun s => ∃ clock, s = (init D clock, fun _ => none)) (observe (step D) (noteEntry b))

/-- The note is of every run: it changes nothing about the gateway. -/
theorem reachable_iff_watched :
    Reachable D g ↔ ∃ atEntry, Reach (watched D b) anyStep (g, atEntry) := by
  refine reach_iff_observe (fun s hs => ?_) fun g hg => ?_
  · obtain ⟨clock, rfl⟩ := hs
    exact ⟨clock, rfl⟩
  · obtain ⟨clock, rfl⟩ := hg
    exact ⟨fun _ => none, clock, rfl⟩

theorem reachable_of_watched {ok : Gateway × (ReqId → Option Slot) → Action → Prop}
    {s : Gateway × (ReqId → Option Slot)} (h : Reach (watched D b) ok s) : Reachable D s.1 := by
  refine reach_of_observe (fun s hs => ?_) h
  obtain ⟨clock, rfl⟩ := hs
  exact ⟨clock, rfl⟩

/-- In half-open, the slots in the note are of earlier times, and every other one whose
outcome is still to come is a probe of the period. -/
structure Watched (b : String) (s : Gateway × (ReqId → Option Slot)) : Prop where
  earlier : (s.1.row b).circuit = .halfOpen → ∀ r x, s.2 r = some x → x.backend = b →
    x.grant.probe ≠ some (s.1.world.period b)
  probes : (s.1.row b).circuit = .halfOpen → ∀ r x, s.1.slotOf r = some x → x.backend = b →
    x.judged = false → x.grant.probe = some (s.1.world.period b) ∨ s.2 r = some x

/-- **Run lemma.** In every run that is watched, the note separates the slots from
before the period from its probes, whenever `b` is half-open. -/
theorem watched_of_reach {ok : Gateway × (ReqId → Option Slot) → Action → Prop}
    {s : Gateway × (ReqId → Option Slot)} (h : Reach (watched D b) ok s) (hb : b ∈ s.1.names) :
    Watched b s := by
  -- on the run; each step either enters half-open anew or goes on with the period
  induction h with
  | start hstart =>
    obtain ⟨clock, rfl⟩ := hstart
    refine ⟨fun _ r x hx => ?_, fun _ r x hx => ?_⟩
    · cases hx
    · cases hx
  | @step s s' a hreach _ hstep ih =>
    obtain ⟨g', hg', rfl⟩ := Option.map_eq_some_iff.mp hstep
    have hreach₀ : Reachable D s.1 := reachable_of_watched hreach
    have hs := steps_of_step hg'
    have hinv := inv_of_reach hreach₀
    have hb₀ : b ∈ s.1.names := by
      rw [names_of_reach hreach₀, ← names_of_reach (hreach₀.step trivial hg')]
      exact hb
    have hsince := since_of_steps hinv hs hb₀
    have hle : s.1.world.period b ≤ g'.world.period b := hsince.period_le
    by_cases hentry : s.1.world.period b < g'.world.period b
    · -- the note is new: no slot from before the step is of the new period
      have hheld := (Fleet.probes_of_reach (reaches_fleet_any hreach₀) hb₀).held_le
      refine ⟨fun hho r x hx hxb hprobe => ?_, fun hho r x hx hxb hnew => ?_⟩
      · have hx' : s.1.slotOf r = some x := by simpa [noteEntry, hentry] using hx
        have hk : g'.world.period b ≤ s.1.world.period b := hheld r x hx' hxb _ hprobe
        omega
      · rcases hsince.taken r x hx hxb hnew with hold | ⟨-, hprobe⟩
        · exact .inr (by simpa [noteEntry, hentry] using hold)
        · exact .inl (hprobe hho)
    · -- the period goes on, and so does the note
      have hsame : g'.world.period b = s.1.world.period b := by omega
      have hnote : noteEntry b s.1 a g' s.2 = s.2 := if_neg hentry
      have hho₀ : (g'.row b).circuit = .halfOpen → (s.1.row b).circuit = .halfOpen :=
        fun hho => hsince.entered hho hsame
      refine ⟨fun hho r x hx hxb => ?_, fun hho r x hx hxb hnew => ?_⟩
      · show x.grant.probe ≠ some (g'.world.period b)
        rw [hsame]
        exact (ih hb₀).earlier (hho₀ hho) r x (by simpa [hnote] using hx) hxb
      · show x.grant.probe = some (g'.world.period b) ∨ noteEntry b s.1 a g' s.2 r = some x
        rw [hsame, hnote]
        rcases hsince.taken r x hx hxb hnew with hold | ⟨-, hprobe⟩
        · exact (ih hb₀).probes (hho₀ hho) r x hold hxb hnew
        · have hprobe' : x.grant.probe = some (g'.world.period b) := hprobe hho
          exact .inl (hsame ▸ hprobe')

/-- An outcome that comes in while `b` is half-open is that of an attempt which holds a slot
on it, and whose slot was not yet taken when half-open was entered. -/
def Timely (b : String) (s : Gateway × (ReqId → Option Slot)) (a : Action) : Prop :=
  ∀ cv ∈ s.1.verdictOf a, cv.1.target.name = b → (s.1.row b).circuit = .halfOpen →
    cv.1.lease.holds = true ∧ s.2 cv.1.pending.oid ≠ s.1.slotOf cv.1.pending.oid

instance (b : String) (s : Gateway × (ReqId → Option Slot)) (a : Action) :
    Decidable (Timely b s a) :=
  inferInstanceAs (Decidable (∀ cv ∈ s.1.verdictOf a, _))

/-- The slot of an attempt whose outcome is about to be recorded. -/
theorem slotOf_of_verdict (hinv : g.Inv) (hv : g.verdictOf a = some (c, v)) :
    g.slotOf c.pending.oid = c.lease.slot c.reqClass false := by
  -- only a handler that sends or drains records an outcome, and its slot is not judged yet
  have hsending : ∀ r, g.handler r = .sending c ∨ (∃ status, g.handler r = .draining c status) →
      g.slotOf c.pending.oid = c.lease.slot c.reqClass false := by
    rintro r (hc | ⟨status, hc⟩) <;>
    · obtain rfl : c.pending.oid = r := hinv.owner r c.pending (by rw [hc]; rfl)
      rw [slotOf, hc]
      rfl
  cases a with
  | upstream r o =>
    cases hc : g.handler r <;> simp only [verdictOf, hc] at hv <;> try cases hv
    obtain ⟨_, -, heq⟩ := Option.map_eq_some_iff.mp hv
    cases heq
    exact hsending r (.inl hc)
  | drained r o =>
    cases hc : g.handler r <;> simp only [verdictOf, hc] at hv <;> try cases hv
    obtain ⟨_, -, heq⟩ := Option.map_eq_some_iff.mp hv
    cases heq
    exact hsending r (.inr ⟨_, hc⟩)
  | _ => cases hv

/-- Whose outcome it is follows from what was outstanding at the entry: an attempt that
was not is a probe of the period, and one that was is none. -/
theorem ownVerdict_iff_timely {s : Gateway × (ReqId → Option Slot)}
    (h : Reach (watched D b) anyStep s) (hb : b ∈ s.1.names) :
    OwnVerdict b s.1 a ↔ Timely b s a := by
  have hwatched := watched_of_reach h hb
  have hinv := inv_of_reach (reachable_of_watched h)
  constructor
  -- a probe of the period is not in the note, which is about slots from before
  · rintro hown ⟨c, v⟩ hv hcb hho
    have hprobe := hown (c, v) hv hcb hho
    have hslot := slotOf_of_verdict hinv hv
    simp only at hprobe hcb ⊢
    cases hl : c.lease with
    | fallback t =>
      rw [hl] at hprobe
      cases hprobe
    | granted grant =>
      rw [hl] at hslot hprobe
      refine ⟨rfl, fun hnote => hwatched.earlier hho c.pending.oid _ (hnote.trans hslot) ?_ hprobe⟩
      rw [← hcb, ProxyCall.target, hl]
      rfl
  -- and a slot that is not in the note was taken in the period, as a probe
  · rintro htimely ⟨c, v⟩ hv hcb hho
    obtain ⟨hholds, hnote⟩ := htimely (c, v) hv hcb hho
    have hslot := slotOf_of_verdict hinv hv
    simp only at hholds hnote hcb ⊢
    cases hl : c.lease with
    | fallback t =>
      rw [hl] at hholds
      cases hholds
    | granted grant =>
      rw [hl] at hslot
      refine (hwatched.probes hho c.pending.oid _ hslot ?_ rfl).resolve_right fun hold => ?_
      · rw [← hcb, ProxyCall.target, hl]
        rfl
      · exact hnote (hold.trans hslot.symm)

/-- **Probes decide.** Half-open has only ever been left by the success, into closed, or by
the failure, into open, of a request dispatched in the period that ended, exactly in the runs
in which no attempt that was outstanding on `b` when it entered half-open, and no call to a
fallback provider of its name, has its outcome come in while it is half-open. -/
theorem probes_decide {s : Gateway × (ReqId → Option Slot)} (h : Reach (watched D b) anyStep s)
    (hb : b ∈ s.1.names) :
    Lawful VerdictLaw (s.1.world.history b) ↔ Reach (watched D b) (Timely b) s := by
  have hnames : ∀ {s}, Reach (watched D b) anyStep s →
      s.1.names = (BackendRegistry.ofConfig D.cfg).names :=
    fun hs => names_of_reach (reachable_of_watched hs)
  have hconfig : b ∈ (BackendRegistry.ofConfig D.cfg).names := hnames h ▸ hb
  refine Reach.iff_guarded (P := fun s => Lawful VerdictLaw (s.1.world.history b)) ?_ ?_ h
  · rintro s ⟨clock, rfl⟩
    trivial
  · intro s a s' hreach hstep
    obtain ⟨g', hg', rfl⟩ := Option.map_eq_some_iff.mp hstep
    have hb₀ : b ∈ s.1.names := (hnames hreach).symm ▸ hconfig
    rw [← ownVerdict_iff_timely hreach hb₀]
    exact lawful_step_iff (inv_of_reach (reachable_of_watched hreach)) (steps_of_step hg') hb₀

/-- A second request is out while the circuit trips, cools down and lets a probe out. The probe
is answered first and closes the circuit, and then the second one is. -/
def settled : Option (Gateway × (ReqId → Option Slot)) :=
  runGuarded (observe (step brittle) (noteEntry "gpu-node-1")) (Timely "gpu-node-1")
    (init brittle (cooling [15]), fun _ => none)
    (straggling ++ [.upstream 2 (.response 200 true), .upstream 1 (.response 200 true)])

theorem probes_decide_settled : ∃ s, settled = some s ∧
    period (s.1.world.history "gpu-node-1") = 1 ∧
    Lawful VerdictLaw (s.1.world.history "gpu-node-1") := by
  have hrun :
      settled.any (fun s => decide (period (s.1.world.history "gpu-node-1") = 1)) = true := by
    decide +kernel
  obtain ⟨s, hs, hperiod⟩ := (Option.any_eq_true _ _).mp hrun
  have hreach : Reach (watched brittle "gpu-node-1") (Timely "gpu-node-1") s :=
    reach_runGuarded (.start ⟨_, rfl⟩) hs
  have hb : "gpu-node-1" ∈ s.1.names := by
    rw [names_of_reach (reachable_of_watched hreach)]
    decide
  exact ⟨s, hs, of_decide_eq_true hperiod, (probes_decide hreach.any hb).mpr hreach⟩

/-- The second request, sent while the circuit was closed, is answered while the
probe is still running, and closes the circuit. -/
theorem straggler_decides : ∃ g, Reachable brittle g ∧ "gpu-node-1" ∈ g.names ∧
    (g.row "gpu-node-1").circuit = .closed ∧
    ¬ Lawful VerdictLaw (g.world.history "gpu-node-1") := by
  refine exists_reachable (cooling [15])
    (straggling ++ [.upstream 1 (.response 200 true)]) ?_
  decide +kernel

end Gateway

end InferenceGateway
