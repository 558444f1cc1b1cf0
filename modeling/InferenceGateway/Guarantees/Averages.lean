import InferenceGateway.Backends.Registry
import InferenceGateway.Lib.Averages

/-!
# The averages of a row

`updated` is a row after any sequence of `update_success` and `update_failure`.
Its three averages are tracks: the latencies move by a fifth of the way, the
error rate by three twentieths towards `0` or by a quarter towards `1`. What is
known of tracks is applied to each of them.

- `updated_ewmaTtftMs`, `updated_ewmaE2eMs`, `updated_recentErrorRate`: the
  averages as tracks of the samples in the calls.
- `healthyForSchedule_mono`: of two rows that differ in their averages only, the
  one with the higher error rate is eligible only if the other is.
- `averages_sound`: the averages keep within what they have seen, and a history
  with more failures in it has no lower error rate and makes nothing eligible.
-/

namespace InferenceGateway

open Lib

namespace BackendRuntimeState

/-- A call of `update_success` or of `update_failure`. -/
inductive Update where
  | success (ttftMs : Option ℚ) (e2eMs : ℚ)
  | failure
  deriving DecidableEq, Repr

namespace Update

def apply : Update → BackendRuntimeState → BackendRuntimeState
  | success ttftMs e2eMs, s => s.updateSuccess ttftMs e2eMs
  | failure, s => s.updateFailure

def ttftMs? : Update → Option ℚ
  | success ttftMs _ => ttftMs
  | failure => none

def e2eMs? : Update → Option ℚ
  | success _ e2eMs => some e2eMs
  | failure => none

/-- What the call does to the error rate: how far of the way, and where to. -/
def errorPull : Update → ℚ × ℚ
  | success _ _ => (15 / 100, 0)
  | failure => (25 / 100, 1)

/-- The second call is the first one, or a failure instead of it. -/
def Worse (call call' : Update) : Prop := call' = call ∨ call' = failure

end Update

/-- The row after these calls, the first one first. -/
def updated (s : BackendRuntimeState) (calls : List Update) : BackendRuntimeState :=
  calls.foldl (fun s call => call.apply s) s

/-- The average is between the least and the greatest of its start and the samples. -/
def Within (start : ℚ) (samples : List ℚ) (average : ℚ) : Prop :=
  (start :: samples).min (List.cons_ne_nil _ _) ≤ average ∧
    average ≤ (start :: samples).max (List.cons_ne_nil _ _)

/-- The checks of `is_healthy_for_schedule`, made at `now`. -/
def healthyForSchedule (health : HealthConfig) (now : ℚ) (s : BackendRuntimeState) : Bool :=
  Health.passes health (Health.maybeTransitionFromOpen health now s)

/-! ## The averages are tracks -/

variable {s : BackendRuntimeState} {call : Update} {calls calls' : List Update}

/-- Samples that all pull by a fifth. -/
def fifths (samples : List ℚ) : List (ℚ × ℚ) := samples.map fun sample => (2 / 10, sample)

/-- One step of the average is one sample in front. -/
theorem track_ewma (prev sample alpha : ℚ) (samples : List (ℚ × ℚ)) :
    track (ewma prev sample alpha) samples = track prev ((alpha, sample) :: samples) :=
  (track_cons_mul prev (alpha, sample) samples).symm

@[simp] theorem updated_cons : updated s (call :: calls) = updated (call.apply s) calls := rfl

/-- The first-token latency is the track of those samples that have one. -/
theorem updated_ewmaTtftMs : (updated s calls).ewmaTtftMs =
    track s.ewmaTtftMs (fifths (calls.filterMap Update.ttftMs?)) := by
  induction calls generalizing s with
  | nil => rfl
  | cons call calls ih =>
    rw [updated_cons, ih]
    rcases call with ⟨_ | t, e⟩ | _
    · rfl
    · exact track_ewma s.ewmaTtftMs t (2 / 10) _
    · rfl

theorem updated_ewmaE2eMs : (updated s calls).ewmaE2eMs =
    track s.ewmaE2eMs (fifths (calls.filterMap Update.e2eMs?)) := by
  induction calls generalizing s with
  | nil => rfl
  | cons call calls ih =>
    rw [updated_cons, ih]
    rcases call with ⟨t, e⟩ | _
    · exact track_ewma s.ewmaE2eMs e (2 / 10) _
    · rfl

/-- The error rate is the track of what each call pulls it to. -/
theorem updated_recentErrorRate : (updated s calls).recentErrorRate =
    track s.recentErrorRate (calls.map Update.errorPull) := by
  induction calls generalizing s with
  | nil => rfl
  | cons call calls ih =>
    rw [updated_cons, ih]
    cases call with
    | success t e => exact track_ewma s.recentErrorRate 0 (15 / 100) _
    | failure => exact track_ewma s.recentErrorRate 1 (25 / 100) _

/-- The calls change nothing but the averages. -/
theorem updated_eq (s : BackendRuntimeState) (calls : List Update) :
    updated s calls = { s with
      ewmaTtftMs := (updated s calls).ewmaTtftMs
      ewmaE2eMs := (updated s calls).ewmaE2eMs
      recentErrorRate := (updated s calls).recentErrorRate } := by
  induction calls generalizing s with
  | nil => rfl
  | cons call calls ih =>
    rw [updated_cons, ih]
    cases call <;> rfl

/-! ## Bounds -/

theorem within_track (start : ℚ) (samples : List ℚ) :
    Within start samples (track start (fifths samples)) := by
  refine Set.mem_Icc.mp (track_mem (convex_Icc _ _) ?_ fun x hx => ?_)
  · exact ⟨List.min_le_of_mem List.mem_cons_self, List.le_max_of_mem List.mem_cons_self⟩
  · obtain ⟨sample, hsample, rfl⟩ := List.mem_map.mp hx
    have hmem : sample ∈ start :: samples := List.mem_cons_of_mem _ hsample
    exact ⟨by norm_num, List.min_le_of_mem hmem, List.le_max_of_mem hmem⟩

/-- Either pull is towards an end of the unit interval, and short of it. -/
theorem errorPull_mem : call.errorPull.1 ∈ Set.Ico (0 : ℚ) 1 ∧
    call.errorPull.2 ∈ Set.Icc (0 : ℚ) 1 := by
  cases call <;> norm_num [Update.errorPull]

theorem errorPulls_mem {x : ℚ × ℚ} (hx : x ∈ calls.map Update.errorPull) :
    x.1 ∈ Set.Ico (0 : ℚ) 1 ∧ x.2 ∈ Set.Icc (0 : ℚ) 1 := by
  obtain ⟨call, -, rfl⟩ := List.mem_map.mp hx
  exact errorPull_mem

/-- The error rate stays in `[0, 1)`: no pull is the whole way to `1`. -/
theorem recentErrorRate_bounds (h₀ : 0 ≤ s.recentErrorRate) (h₁ : s.recentErrorRate < 1) :
    0 ≤ (updated s calls).recentErrorRate ∧ (updated s calls).recentErrorRate < 1 := by
  rw [updated_recentErrorRate]
  constructor
  · have hunit : track s.recentErrorRate (calls.map Update.errorPull) ∈ Set.Icc (0 : ℚ) 1 := by
      refine track_mem (convex_Icc (0 : ℚ) 1) ⟨h₀, h₁.le⟩ fun x hx => ?_
      obtain ⟨hshare, hvalue⟩ := errorPulls_mem hx
      exact ⟨Set.Ico_subset_Icc_self hshare, hvalue⟩
    exact hunit.1
  · refine track_lt h₁ fun x hx => ?_
    obtain ⟨hshare, hvalue⟩ := errorPulls_mem hx
    exact ⟨hshare, hvalue.2⟩

/-! ## More failures -/

/-- A failure pulls to the upper end, where a success pulls to the lower one. -/
theorem Update.Worse.raised {call call' : Update} (h : call.Worse call') :
    Raised (0 : ℚ) 1 call.errorPull call'.errorPull := by
  rcases h with rfl | rfl
  · exact .inl rfl
  · cases call with
    | success t e => exact .inr ⟨rfl, rfl⟩
    | failure => exact .inl rfl

/-- Failures in the place of successes raise the error rate, or leave it. -/
theorem recentErrorRate_mono (h₀ : 0 ≤ s.recentErrorRate) (h₁ : s.recentErrorRate ≤ 1)
    (h : List.Forall₂ Update.Worse calls calls') :
    (updated s calls).recentErrorRate ≤ (updated s calls').recentErrorRate := by
  rw [updated_recentErrorRate, updated_recentErrorRate]
  have hpulls : ∀ {l : List Update}, ∀ x ∈ l.map Update.errorPull,
      x.1 ∈ Set.Icc (0 : ℚ) 1 ∧ x.2 ∈ Set.Icc (0 : ℚ) 1 := fun x hx =>
    have ⟨hshare, hvalue⟩ := errorPulls_mem hx
    ⟨Set.Ico_subset_Icc_self hshare, hvalue⟩
  refine track_le_track (le_refl _) ⟨h₀, h₁⟩ ⟨h₀, h₁⟩ hpulls hpulls ?_
  rw [List.forall₂_map_left_iff, List.forall₂_map_right_iff]
  exact h.imp fun _ _ hworse => hworse.raised

/-- The cooldown does not look at the averages. -/
theorem maybeTransitionFromOpen_averages {health : HealthConfig} {now ttftMs e2eMs rate : ℚ} :
    Health.maybeTransitionFromOpen health now { s with
        ewmaTtftMs := ttftMs, ewmaE2eMs := e2eMs, recentErrorRate := rate } =
      { Health.maybeTransitionFromOpen health now s with
        ewmaTtftMs := ttftMs, ewmaE2eMs := e2eMs, recentErrorRate := rate } := by
  cases hc : s.circuit with
  | opened =>
    cases ho : s.circuitOpenedAtMonotonic with
    | none => simp [Health.maybeTransitionFromOpen, hc, ho]
    | some t =>
      by_cases hcool : Health.cooledDown health t now <;>
        simp [Health.maybeTransitionFromOpen, hc, ho, hcool]
  | _ => simp [Health.maybeTransitionFromOpen, hc]

/-- Of two rows that differ in their averages, the one with the higher error rate passes
the checks only if the other does. -/
theorem healthyForSchedule_mono {health : HealthConfig} {now : ℚ}
    (hrate : (updated s calls).recentErrorRate ≤ (updated s calls').recentErrorRate)
    (h : healthyForSchedule health now (updated s calls') = true) :
    healthyForSchedule health now (updated s calls) = true := by
  unfold healthyForSchedule at h ⊢
  rw [updated_eq, maybeTransitionFromOpen_averages, Health.passes_iff] at h ⊢
  obtain ⟨hdrained, hcircuit, hlimit, hcap, hprobes⟩ := h
  exact ⟨hdrained, hcircuit, hlimit, hrate.trans hcap, hprobes⟩

/-- **Averages.** From an error rate in `[0, 1)` and after any sequence of calls: (1) the
error rate is in `[0, 1)`; (2, 3) the latencies are between the least and the greatest of
their start and the samples; (4) with failures in the place of any of the successes the
error rate is no lower, and a backend that was not eligible is not eligible. -/
theorem averages_sound (s : BackendRuntimeState) (calls : List Update)
    (h₀ : 0 ≤ s.recentErrorRate) (h₁ : s.recentErrorRate < 1) :
    (0 ≤ (updated s calls).recentErrorRate ∧ (updated s calls).recentErrorRate < 1) ∧
    Within s.ewmaTtftMs (calls.filterMap Update.ttftMs?) (updated s calls).ewmaTtftMs ∧
    Within s.ewmaE2eMs (calls.filterMap Update.e2eMs?) (updated s calls).ewmaE2eMs ∧
    ∀ calls', List.Forall₂ Update.Worse calls calls' →
      (updated s calls).recentErrorRate ≤ (updated s calls').recentErrorRate ∧
      ∀ health now, healthyForSchedule health now (updated s calls) = false →
        healthyForSchedule health now (updated s calls') = false := by
  refine ⟨recentErrorRate_bounds h₀ h₁, ?_, ?_, fun calls' hworse => ?_⟩
  · rw [updated_ewmaTtftMs]
    exact within_track _ _
  · rw [updated_ewmaE2eMs]
    exact within_track _ _
  · have hrate := recentErrorRate_mono h₀ h₁.le hworse
    refine ⟨hrate, fun health now hnot => Bool.eq_false_iff.mpr fun hpass => ?_⟩
    exact Bool.eq_false_iff.mp hnot (healthyForSchedule_mono hrate hpass)

/-- A row nothing has happened to. -/
def fresh : BackendRuntimeState :=
  BackendRegistry.fromEntry { name := "gpu-node-1", url := "http://10.0.0.1:8000/" }

/-- A buffered success, a failure and the end of a stream. -/
def mixed : List Update := [.success (some 30) 900, .failure, .success none 100]

/-- The history of `mixed`, with a failure in the place of the buffered success. -/
def spoiled : List Update := [.failure, .failure, .success none 100]

theorem averages_sound_mixed :
    (0 ≤ (updated fresh mixed).recentErrorRate ∧ (updated fresh mixed).recentErrorRate < 1) ∧
    Within 50 [30] (updated fresh mixed).ewmaTtftMs ∧
    Within 200 [900, 100] (updated fresh mixed).ewmaE2eMs ∧
    (updated fresh mixed).recentErrorRate ≤ (updated fresh spoiled).recentErrorRate ∧
    ∀ health now, healthyForSchedule health now (updated fresh mixed) = false →
      healthyForSchedule health now (updated fresh spoiled) = false := by
  obtain ⟨hrate, httft, he2e, hmono⟩ := averages_sound fresh mixed (le_refl 0) zero_lt_one
  exact ⟨hrate, httft, he2e,
    hmono spoiled (.cons (.inr rfl) (.cons (.inl rfl) (.cons (.inl rfl) .nil)))⟩

end BackendRuntimeState

end InferenceGateway
