import InferenceGateway.Proxy.Outcomes

/-!
# Health signals through the proxy

`circuit`, `consecutive_failures` and `recent_error_rate` are the signals of a
backend's health. Taking and releasing slots, here or elsewhere, leaves all
three alone, and so does looking for an alternate to the backend itself: what a
failed attempt does to the signals of its own backend is its accounting and
nothing else.

- `Health.SameSignals`: two rows with the same signals. It composes.
- `beginAttempt_signals`, `giveBack_signals`, `retryOrGiveUp_signals`: the parts
  of a resumption that come after the accounting.
- `pickRetryTarget_row_avoid`: a retry does not even touch the row of the
  backend it turns away from.
- The equations for `recordSuccess`, `sampleFailure` and `sampleStream` on a
  registered row, which is where the signals do change.
-/

namespace InferenceGateway

namespace Health

/-- Rows with the same health signals. -/
structure SameSignals (s s' : BackendRuntimeState) : Prop where
  circuit : s'.circuit = s.circuit
  consecutiveFailures : s'.consecutiveFailures = s.consecutiveFailures
  recentErrorRate : s'.recentErrorRate = s.recentErrorRate

theorem SameSignals.refl (s : BackendRuntimeState) : SameSignals s s := ⟨rfl, rfl, rfl⟩

theorem SameSignals.trans {s₁ s₂ s₃ : BackendRuntimeState} (h : SameSignals s₁ s₂)
    (h' : SameSignals s₂ s₃) : SameSignals s₁ s₃ :=
  ⟨h'.circuit.trans h.circuit, h'.consecutiveFailures.trans h.consecutiveFailures,
    h'.recentErrorRate.trans h.recentErrorRate⟩

end Health

namespace World

variable {w : World} {b b₀ : String} {cls : RequestClass} {lease : Lease} {how : Ending}

/-- Giving a slot back, on this backend or another one, is nothing to the signals. -/
theorem releaseDispatch_signals :
    Health.SameSignals (w.row b) ((w.releaseDispatch b₀ cls).row b) := by
  by_cases hbb : b = b₀
  · subst hbb
    by_cases hb : b ∈ w.names
    · rw [releaseDispatch_of_mem hb]
      refine ⟨?_, ?_, ?_⟩ <;> simp
    · rw [releaseDispatch_of_notMem hb]
      exact .refl _
  · simp only [row, releaseDispatch_row_of_ne hbb]
    exact .refl _

@[simp] theorem endAttempt_registry : (w.endAttempt lease how).registry = w.registry := by
  cases lease <;> rfl

@[simp] theorem recordSuccess_names {probe : Option ℕ} {ttftMs : Option ℚ} {e2eMs : ℚ} :
    (w.recordSuccess b probe ttftMs e2eMs).registry.names = w.registry.names := by
  unfold recordSuccess
  split <;> simp

/-- A recorded success on a registered backend is `on_success` and then
`update_success`. -/
theorem recordSuccess_row_self {probe : Option ℕ} {ttftMs : Option ℚ} {e2eMs : ℚ}
    (hb : b ∈ w.names) : (w.recordSuccess b probe ttftMs e2eMs).row b =
      (Health.onSuccess (w.row b)).updateSuccess ttftMs e2eMs := by
  have hmoved : b ∈ (w.moveCircuit b Health.onSuccess (.success probe)).names := by
    show b ∈ (w.moveCircuit b Health.onSuccess (.success probe)).registry.names
    rw [moveCircuit_names]
    exact hb
  have hrow : (w.moveCircuit b Health.onSuccess (.success probe)).row b =
      Health.onSuccess (w.row b) := moveCircuit_row_self hb
  simp only [recordSuccess, if_pos hb, row, emit_registry]
  rw [modify_row_self hmoved, hrow]

@[simp] theorem sampleStream_names {e2eMs : ℚ} :
    (w.sampleStream b e2eMs).registry.names = w.registry.names := by
  unfold sampleStream
  split <;> simp

/-- A failed sample on a registered backend raises its rate. -/
theorem sampleFailure_row_of_mem (hb : b ∈ w.names) :
    (w.sampleFailure b).row b = (w.row b).updateFailure := by
  simp only [names] at hb
  simp [sampleFailure, modify, hb]

@[simp] theorem sampleFailure_names : (w.sampleFailure b).registry.names = w.registry.names := by
  unfold sampleFailure modify
  split <;> rfl

/-- What a release does to the rows depends on the rows only. -/
theorem releaseDispatch_registry {w' : World} (h : w.registry = w'.registry) :
    (w.releaseDispatch b cls).registry = (w'.releaseDispatch b cls).registry := by
  unfold releaseDispatch setRow
  rw [h]
  cases w'.registry.get b with
  | none => exact h
  | some st => rfl

/-- What a failed sample does to the rows depends on the rows only. -/
theorem sampleFailure_registry {w' : World} (h : w.registry = w'.registry) :
    (w.sampleFailure b).registry = (w'.sampleFailure b).registry := by
  unfold sampleFailure modify setRow
  simp only [names, row, h]
  split
  · rfl
  · exact h

/-- A failed attempt on a name without a row is no sample. -/
theorem sampleFailure_of_notMem (hb : b ∉ w.names) : w.sampleFailure b = w := if_neg hb

end World

namespace Proxy

variable {D : Deployment} {w : World} {c : ProxyCall} {b : String}

/-- The beginning of an attempt moves slots at most. -/
theorem beginAttempt_signals : Health.SameSignals (w.row b) ((beginAttempt D w c).1.row b) := by
  rcases beginAttempt_cases D w c with ⟨-, reply, -, h⟩ | ⟨v, hv, h⟩ | ⟨reply, h⟩ <;>
    simp only [h, World.row, World.endAttempt_registry]
  · exact .refl _
  · rw [hv.1]
    exact .refl _
  · exact World.releaseDispatch_signals

/-- A retry takes its slot elsewhere: the search avoids the backend, and so does the
choice. -/
theorem pickRetryTarget_row_avoid {cls : RequestClass} :
    (pickRetryTarget D.cfg w cls b).1.row b = w.row b := by
  -- the search passes the backend over, and the slot is taken on another
  have hsearch : (search D.cfg w cls b).1.row b = w.row b := by
    obtain ⟨hreg, -, -⟩ := Scoring.pickBackend_sameButClock D.cfg.routing cls
      (World.eligible D.cfg.health (some b) w.names w).2
      (World.eligible D.cfg.health (some b) w.names w).1
    rw [search, World.row, hreg]
    exact World.eligible_row_of_avoid D.cfg.health b w.names w
  rcases pickRetryTarget_cases D.cfg w cls b with ⟨-, h⟩ | ⟨x, hx, h⟩ <;> rw [h]
  · exact hsearch
  · obtain ⟨-, hne, -⟩ :=
      World.eligible_spec w.names w w.registry.nodup (Scoring.pickBackend_mem hx)
    have hbx : b ≠ x := fun h => hne (congrArg some h.symm)
    simp only [World.row, World.takeSlot_row_of_ne hbx]
    exact hsearch

/-- Counting the retry and giving the slot back is nothing to the signals. -/
theorem giveBack_signals {how : Ending} :
    Health.SameSignals (w.row b) ((giveBack w c how).row b) := by
  unfold giveBack
  simp only [World.row, World.endAttempt_registry]
  exact World.releaseDispatch_signals (w := w.emit .retriesTotal)

/-- After its accounting a failed attempt leaves the signals of its backend alone. -/
theorem retryOrGiveUp_signals {retry : Bool} {how : Ending} {final : Reply} :
    Health.SameSignals (w.row c.target.name)
      ((retryOrGiveUp D w c retry how final).1.row c.target.name) := by
  have hpick : Health.SameSignals (w.row c.target.name)
      ((pickRetryTarget D.cfg (giveBack w c how) c.reqClass c.target.name).1.row
        c.target.name) := by
    rw [pickRetryTarget_row_avoid]
    exact giveBack_signals
  rcases retryOrGiveUp_cases D w c retry how final with
    ⟨-, h⟩ | ⟨-, -, h⟩ | ⟨-, grant, -, h⟩ <;> rw [h]
  · simp only [World.row, World.endAttempt_registry]
    exact World.releaseDispatch_signals
  · exact hpick.trans World.releaseDispatch_signals
  · exact hpick.trans beginAttempt_signals

/-- Without a retry the row after a failed attempt is the one its slot is released
from. -/
theorem retryOrGiveUp_row_of_not {how : Ending} {final : Reply} :
    (retryOrGiveUp D w c false how final).1.row b =
      (w.releaseDispatch c.target.name c.reqClass).row b := by
  simp [retryOrGiveUp]

end Proxy

end InferenceGateway
