import Mathlib.Logic.Basic
import Mathlib.Tactic.TypeStar

/-!
# Guarded labelled transition systems

The generic half of every run argument in this development: a machine with
labelled steps, the states it reaches when every step is taken under a *guard*,
and the rules that everything else is assembled from.

- `Reach.invariant`: what holds initially and is preserved by guarded steps
  holds in every reached state.
- `Reach.simulate`: if every guarded step of a concrete machine is matched by a
  finite guarded chain of steps of an abstract one, abstractions of reached
  states are reached.
- `Reach.iff_guarded`: what holds initially and survives exactly the steps that
  meet a guard holds exactly in the states reached under it.

A machine can be *observed*: `observe` runs it beside notes that are taken of its
steps and change nothing about them.

The guard is a predicate on the state *before* the step and on its label; the
unguarded machine is the guard `anyStep`.
-/

namespace InferenceGateway

namespace Lib

universe u v

/-- A labelled transition system with a set of initial states. -/
structure Machine (σ : Type u) (α : Type v) where
  start : σ → Prop
  step : σ → α → σ → Prop

/-- The guard that admits every step. -/
def anyStep {σ : Type u} {α : Type v} : σ → α → Prop := fun _ _ => True

variable {σ τ : Type*} {α β : Type*}

/-- States reached from an initial state by steps that all meet `ok`. -/
inductive Reach (M : Machine σ α) (ok : σ → α → Prop) : σ → Prop where
  | start {s : σ} : M.start s → Reach M ok s
  | step {s s' : σ} {a : α} : Reach M ok s → ok s a → M.step s a s' → Reach M ok s'

/-- A finite chain of steps that all meet `ok`. -/
inductive Chain (R : σ → α → σ → Prop) (ok : σ → α → Prop) : σ → σ → Prop where
  | refl (s : σ) : Chain R ok s s
  | tail {s t u : σ} {a : α} : Chain R ok s t → ok t a → R t a u → Chain R ok s u

namespace Chain

variable {R : σ → α → σ → Prop} {ok ok' : σ → α → Prop}

/-- One step is a chain. -/
theorem single {s t : σ} {a : α} (hok : ok s a) (h : R s a t) : Chain R ok s t :=
  .tail (.refl s) hok h

/-- Two chains in a row are a chain. -/
theorem trans {s t u : σ} (h₁ : Chain R ok s t) (h₂ : Chain R ok t u) : Chain R ok s u := by
  induction h₂ with
  | refl => exact h₁
  | tail _ hok hstep ih => exact .tail ih hok hstep

/-- Weakening the guard keeps the chain. -/
theorem mono (himp : ∀ s a, ok s a → ok' s a) {s t : σ} (h : Chain R ok s t) :
    Chain R ok' s t := by
  induction h with
  | refl => exact .refl _
  | tail _ hok hstep ih => exact .tail ih (himp _ _ hok) hstep

/-- What every guarded step preserves, a chain preserves. -/
theorem preserves {I : σ → Prop}
    (hstep : ∀ s a t, I s → ok s a → R s a t → I t) {s t : σ}
    (h : Chain R ok s t) (hs : I s) : I t := by
  induction h with
  | refl => exact hs
  | tail _ hok h ih => exact hstep _ _ _ ih hok h

end Chain

namespace Reach

variable {M : Machine σ α} {N : Machine τ β} {ok ok' : σ → α → Prop}

/-- **The invariant rule.** What holds at every start and is preserved by every guarded
step holds in every state that guarded runs reach. -/
theorem invariant {I : σ → Prop} (hstart : ∀ s, M.start s → I s)
    (hstep : ∀ s a s', I s → ok s a → M.step s a s' → I s') {s : σ}
    (h : Reach M ok s) : I s := by
  induction h with
  | start h₀ => exact hstart _ h₀
  | step _ hok h ih => exact hstep _ _ _ ih hok h

/-- Weakening the guard keeps reachability. -/
theorem mono (himp : ∀ s a, ok s a → ok' s a) {s : σ} (h : Reach M ok s) :
    Reach M ok' s := by
  induction h with
  | start h₀ => exact .start h₀
  | step _ hok hstep ih => exact .step ih (himp _ _ hok) hstep

/-- A guarded run is a run. -/
theorem any {s : σ} (h : Reach M ok s) : Reach M anyStep s :=
  h.mono fun _ _ _ => trivial

/-- Extending a reached state by a guarded chain. -/
theorem chain {s t : σ} (h : Reach M ok s) (hc : Chain M.step ok s t) : Reach M ok t := by
  induction hc with
  | refl => exact h
  | tail _ hok hstep ih => exact .step ih hok hstep

/-- **The simulation rule.** `abs` maps concrete to abstract states; `J` is an
invariant of the guarded concrete runs under which each concrete step is
matched by a guarded abstract chain. -/
theorem simulate {abs : σ → τ} {okN : τ → β → Prop} {J : σ → Prop}
    (hJ : ∀ s, Reach M ok s → J s)
    (hstart : ∀ s, M.start s → N.start (abs s))
    (hstep : ∀ s a s', J s → ok s a → M.step s a s' → Chain N.step okN (abs s) (abs s'))
    {s : σ} (h : Reach M ok s) : Reach N okN (abs s) := by
  induction h with
  | start h₀ => exact .start (hstart _ h₀)
  | step hr hok h ih => exact ih.chain (hstep _ _ _ (hJ _ hr) hok h)

/-- **The exactness rule.** A property that holds at the start, that a step which meets
the guard keeps and any other step ends for good, holds in a reached state exactly when
the run there met the guard. -/
theorem iff_guarded {P : σ → Prop} (hstart : ∀ s, M.start s → P s)
    (hstep : ∀ s a s', Reach M anyStep s → M.step s a s' → (P s' ↔ P s ∧ ok s a)) {s : σ}
    (h : Reach M anyStep s) : P s ↔ Reach M ok s := by
  constructor
  · intro hP
    induction h with
    | start h₀ => exact .start h₀
    | step hreach _ h ih =>
      obtain ⟨hP', hok⟩ := (hstep _ _ _ hreach h).mp hP
      exact .step (ih hP') hok h
  · intro hok
    induction hok with
    | start h₀ => exact hstart _ h₀
    | step hreach hok hs ih => exact (hstep _ _ _ hreach.any hs).mpr ⟨ih hreach.any, hok⟩

end Reach

/-! ## Machines whose steps compute -/

/-- The machine of a partial step function. -/
def Machine.ofFn (start : σ → Prop) (next : σ → α → Option σ) : Machine σ α where
  start := start
  step s a s' := next s a = some s'

/-- Run a list of labels, failing at the first one that is not enabled. -/
def runList (next : σ → α → Option σ) : σ → List α → Option σ
  | s, [] => some s
  | s, a :: as => (next s a).bind fun s' => runList next s' as

/-- A computed run all of whose labels are admitted everywhere reaches its last
state. -/
theorem reach_runList {start : σ → Prop} {next : σ → α → Option σ} {ok : σ → α → Prop} {s t : σ}
    (hs : Reach (Machine.ofFn start next) ok s) :
    ∀ {as : List α}, (∀ s, ∀ a ∈ as, ok s a) → runList next s as = some t →
      Reach (Machine.ofFn start next) ok t := by
  intro as
  induction as generalizing s with
  | nil =>
    intro _ h
    obtain rfl : s = t := by simpa [runList] using h
    exact hs
  | cons a as ih =>
    intro hok h
    simp only [runList, Option.bind_eq_some_iff] at h
    obtain ⟨s', hnext, hrun⟩ := h
    exact ih (hs.step (hok s a (List.mem_cons_self ..)) hnext)
      (fun s b hb => hok s b (List.mem_cons_of_mem _ hb)) hrun

/-- A property that a computed run is seen to reach: the state need not be written
down. -/
theorem exists_reach_runList {start : σ → Prop} {next : σ → α → Option σ} {P : σ → Prop}
    [DecidablePred P] {s : σ} (hs : start s) (as : List α)
    (h : (runList next s as).any (fun t => decide (P t)) = true) :
    ∃ t, Reach (Machine.ofFn start next) anyStep t ∧ P t := by
  cases ht : runList next s as with
  | none => simp [ht] at h
  | some t => exact ⟨t, reach_runList (.start hs) (fun _ _ _ => trivial) ht, by simpa [ht] using h⟩

/-- Run a list of labels, failing at the first one that is not enabled or that the
guard does not admit. -/
def runGuarded (next : σ → α → Option σ) (ok : σ → α → Prop) [∀ s a, Decidable (ok s a)] :
    σ → List α → Option σ
  | s, [] => some s
  | s, a :: as => if ok s a then (next s a).bind fun s' => runGuarded next ok s' as else none

/-- What a guarded run computes is reached under the guard. -/
theorem reach_runGuarded {start : σ → Prop} {next : σ → α → Option σ} {ok : σ → α → Prop}
    [∀ s a, Decidable (ok s a)] {s t : σ} (hs : Reach (Machine.ofFn start next) ok s) :
    ∀ {as : List α}, runGuarded next ok s as = some t → Reach (Machine.ofFn start next) ok t := by
  intro as
  -- on the actions; a run that comes to an end has passed every guard
  induction as generalizing s with
  | nil =>
    intro h
    obtain rfl : s = t := by simpa [runGuarded] using h
    exact hs
  | cons a as ih =>
    intro h
    rw [runGuarded] at h
    split at h
    · rename_i hok
      obtain ⟨s', hnext, hrun⟩ := Option.bind_eq_some_iff.mp h
      exact ih (hs.step hok hnext) hrun
    · cases h

/-! ## Observed machines -/

/-- A step, and what is noted of it. -/
def observe {κ : Type*} (next : σ → α → Option σ) (note : σ → α → σ → κ → κ) (s : σ × κ) (a : α) :
    Option (σ × κ) :=
  (next s.1 a).map fun s' => (s', note s.1 a s' s.2)

section Observe

variable {κ : Type*} {start : σ → Prop} {start' : σ × κ → Prop} {next : σ → α → Option σ}
  {note : σ → α → σ → κ → κ}

/-- A run that is observed is a run. -/
theorem reach_of_observe {ok : σ × κ → α → Prop} (hstart : ∀ s, start' s → start s.1) {s : σ × κ}
    (h : Reach (Machine.ofFn start' (observe next note)) ok s) :
    Reach (Machine.ofFn start next) anyStep s.1 := by
  induction h with
  | start h₀ => exact .start (hstart _ h₀)
  | step _ _ hstep ih =>
    obtain ⟨s', hs', rfl⟩ := Option.map_eq_some_iff.mp hstep
    exact ih.step trivial hs'

/-- Every run can be observed: a state is reached if and only if it is reached with some
note beside it, whatever the note keeps. -/
theorem reach_iff_observe (hstart : ∀ s, start' s → start s.1)
    (hlift : ∀ s, start s → ∃ k, start' (s, k)) {s : σ} :
    Reach (Machine.ofFn start next) anyStep s ↔
      ∃ k, Reach (Machine.ofFn start' (observe next note)) anyStep (s, k) := by
  constructor
  · intro h
    induction h with
    | start h₀ =>
      obtain ⟨k, hk⟩ := hlift _ h₀
      exact ⟨k, .start hk⟩
    | @step s s' a _ _ hstep ih =>
      obtain ⟨k, hk⟩ := ih
      exact ⟨_, hk.step trivial (Option.map_eq_some_iff.mpr ⟨s', hstep, rfl⟩)⟩
  · rintro ⟨k, h⟩
    exact reach_of_observe hstart h

end Observe

end Lib

end InferenceGateway
