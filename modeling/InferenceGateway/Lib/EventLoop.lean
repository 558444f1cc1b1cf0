import InferenceGateway.Lib.Transition

/-!
# Cooperative tasks and a lock

An event loop gives control to one task at a time, and the task keeps it until it
suspends. `await lock.acquire()` is such a point only on paper: it suspends when
the lock is taken or somebody waits for it already, and goes straight on otherwise.

- `Code`: what a task does from one real suspension to the next, as straight-line
  statements on the shared state and uses of the lock.
- `Loop.machine`: any number of tasks that run such code, statement by statement.
- `Code.Tidy`: every acquire is followed by its release, with statements only in
  between.
- `Loop.atomicity`, `Loop.machine_of_atomic`: under tidy code no acquire ever
  suspends, and between two tasks the shared states are exactly those that whole
  tasks reach, run one after the other.
- `Loop.always`: what each task keeps at each of its statements, when it runs alone,
  holds at every moment.
-/

namespace InferenceGateway

namespace Lib

universe u v

/-- The code of a task up to its next real suspension. -/
inductive Code (σ : Type u) : Type u where
  | halt
  /-- A statement; where the code goes on may depend on the state it ran in. -/
  | plain (f : σ → σ) (k : σ → Code σ)
  | acquire (k : Code σ)
  | release (k : Code σ)

namespace Code

variable {σ : Type u}

/-- The effect of the code when nothing gets in between. -/
def run : Code σ → σ → σ
  | halt, s => s
  | plain f k, s => (k s).run (f s)
  | acquire k, s => k.run s
  | release k, s => k.run s

/-- The lock is acquired when it is not held, released when it is, and not held at
the end. -/
def Tidy : Code σ → Bool → Prop
  | halt, held => held = false
  | plain _ k, held => ∀ s, (k s).Tidy held
  | acquire k, held => held = false ∧ k.Tidy true
  | release k, held => held = true ∧ k.Tidy false

/-- `P` holds before and after every statement when the code runs alone from `s`. -/
def Always (P : σ → Prop) : Code σ → σ → Prop
  | halt, s => P s
  | plain f k, s => P s ∧ (k s).Always P (f s)
  | acquire k, s => k.Always P s
  | release k, s => k.Always P s

variable {P : σ → Prop}

/-- What holds at every statement holds before the first. -/
theorem Always.here : ∀ {c : Code σ} {s : σ}, c.Always P s → P s
  | halt, _, h => h
  | plain _ _, _, h => h.1
  | acquire k, _, h => Always.here (c := k) h
  | release k, _, h => Always.here (c := k) h

/-- What holds at every statement holds after the last. -/
theorem Always.atEnd : ∀ {c : Code σ} {s : σ}, c.Always P s → P (c.run s)
  | halt, _, h => h
  | plain f k, s, h => Always.atEnd (c := k s) (s := f s) h.2
  | acquire k, _, h => Always.atEnd (c := k) h
  | release k, _, h => Always.atEnd (c := k) h

end Code

/-- The shared state, the lock, and who has control. -/
structure Loop (σ : Type u) where
  shared : σ
  locked : Bool
  /-- The tasks suspended in `acquire`, in the order they came. -/
  waiters : List (Code σ)
  /-- The rest of the code of the task in control. -/
  current : Option (Code σ)

namespace Loop

variable {σ : Type u} {α : Type v}

/-- `starts s a c`: a task labelled `a` with code `c` may get control in `s`. -/
inductive Step (starts : σ → α → Code σ → Prop) : Loop σ → Option α → Loop σ → Prop where
  | start {L : Loop σ} {a : α} {c : Code σ} (hidle : L.current = none)
      (hstart : starts L.shared a c) : Step starts L (some a) { L with current := some c }
  | statement {L : Loop σ} {f : σ → σ} {k : σ → Code σ} (hc : L.current = some (.plain f k)) :
      Step starts L none { L with shared := f L.shared, current := some (k L.shared) }
  /-- The fast path of `acquire`. -/
  | take {L : Loop σ} {k : Code σ} (hc : L.current = some (.acquire k)) (hfree : L.locked = false)
      (hnobody : L.waiters = []) : Step starts L none { L with locked := true, current := some k }
  /-- The slow path: the task suspends. -/
  | wait {L : Loop σ} {k : Code σ} (hc : L.current = some (.acquire k))
      (hbusy : L.locked = true ∨ L.waiters ≠ []) :
      Step starts L none { L with waiters := L.waiters ++ [k], current := none }
  /-- `release` has woken the first waiter. -/
  | wake {L : Loop σ} {k : Code σ} {rest : List (Code σ)} (hidle : L.current = none)
      (hfree : L.locked = false) (hwait : L.waiters = k :: rest) :
      Step starts L none { L with locked := true, waiters := rest, current := some k }
  | release {L : Loop σ} {k : Code σ} (hc : L.current = some (.release k)) :
      Step starts L none { L with locked := false, current := some k }
  | stop {L : Loop σ} (hc : L.current = some .halt) : Step starts L none { L with current := none }

/-- The lock is free, nobody waits and nobody is in control. -/
structure Start (init : σ → Prop) (L : Loop σ) : Prop where
  shared : init L.shared
  locked : L.locked = false
  waiters : L.waiters = []
  current : L.current = none

def machine (init : σ → Prop) (starts : σ → α → Code σ → Prop) : Machine (Loop σ) (Option α) :=
  ⟨Start init, Step starts⟩

/-- The machine in which every task is run as a whole, with nothing in between. -/
def atomic (init : σ → Prop) (starts : σ → α → Code σ → Prop) : Machine σ α :=
  ⟨init, fun s a s' => ∃ c, starts s a c ∧ s' = c.run s⟩

variable {init : σ → Prop} {starts : σ → α → Code σ → Prop} {L L' : Loop σ} {l : Option α}
  {P : σ → Prop}

/-- What a task in control was started as: it has reached this point on its own, and
`P` has held so far and will. -/
structure Underway (init : σ → Prop) (starts : σ → α → Code σ → Prop) (P : σ → Prop)
    (k : Code σ) (L : Loop σ) : Prop where
  tidy : k.Tidy L.locked
  always : k.Always P L.shared
  started : ∃ s a c, Reach (atomic init starts) anyStep s ∧ starts s a c ∧
    k.run L.shared = c.run s

/-- The invariant of the loop. -/
structure Orderly (init : σ → Prop) (starts : σ → α → Code σ → Prop) (P : σ → Prop)
    (L : Loop σ) : Prop where
  nobody : L.waiters = []
  idle : L.current = none → L.locked = false ∧ Reach (atomic init starts) anyStep L.shared ∧
    P L.shared
  busy : ∀ k, L.current = some k → Underway init starts P k L

/-- **Step lemma.** The task in control takes its next statement, or another one gets
control. -/
theorem orderly_step (htidy : ∀ s a c, starts s a c → c.Tidy false)
    (halways : ∀ s a c, Reach (atomic init starts) anyStep s → P s → starts s a c → c.Always P s)
    (hL : Orderly init starts P L) (h : Step starts L l L') : Orderly init starts P L' := by
  cases h with
  | @start a c hidle hstart =>
    obtain ⟨hfree, hreach, hP⟩ := hL.idle hidle
    refine ⟨hL.nobody, fun hc => (by cases hc), ?_⟩
    rintro k ⟨⟩
    exact ⟨hfree ▸ htidy _ _ _ hstart, halways _ _ _ hreach hP hstart, _, _, _, hreach, hstart, rfl⟩
  | statement hc =>
    obtain ⟨htidy, halways, hstarted⟩ := hL.busy _ hc
    refine ⟨hL.nobody, fun hc => (by cases hc), ?_⟩
    rintro k ⟨⟩
    exact ⟨htidy _, halways.2, hstarted⟩
  | take hc hfree hnobody =>
    obtain ⟨htidy, halways, hstarted⟩ := hL.busy _ hc
    refine ⟨hL.nobody, fun hc => (by cases hc), ?_⟩
    rintro k ⟨⟩
    exact ⟨htidy.2, halways, hstarted⟩
  | wait hc hbusy =>
    -- a task in control that is about to acquire does not hold the lock, and nobody else does
    obtain ⟨hfree, -⟩ := (hL.busy _ hc).tidy
    rcases hbusy with hlocked | hwait
    · rw [hfree] at hlocked
      cases hlocked
    · exact absurd hL.nobody hwait
  | wake hidle hfree hwait =>
    rw [hL.nobody] at hwait
    cases hwait
  | release hc =>
    obtain ⟨htidy, halways, hstarted⟩ := hL.busy _ hc
    refine ⟨hL.nobody, fun hc => (by cases hc), ?_⟩
    rintro k ⟨⟩
    exact ⟨htidy.2, halways, hstarted⟩
  | stop hc =>
    obtain ⟨htidy, halways, s, a, c, hreach, hstart, hrun⟩ := hL.busy _ hc
    refine ⟨hL.nobody, fun _ => ⟨htidy, ?_, halways⟩, fun k hk => by cases hk⟩
    exact hreach.step trivial ⟨c, hstart, hrun⟩

/-- **Run lemma.** The loop stays orderly: nobody ever waits for the lock, and between
two tasks the shared state is one that whole tasks reach. -/
theorem orderly_of_reach (htidy : ∀ s a c, starts s a c → c.Tidy false)
    (hinit : ∀ s, init s → P s)
    (halways : ∀ s a c, Reach (atomic init starts) anyStep s → P s → starts s a c → c.Always P s)
    (h : Reach (machine init starts) anyStep L) : Orderly init starts P L := by
  refine h.invariant (I := Orderly init starts P) ?_
    fun L l L' hL _ hs => orderly_step htidy halways hL hs
  intro L hL
  refine ⟨hL.waiters, fun _ => ⟨hL.locked, .start hL.shared, hinit _ hL.shared⟩, ?_⟩
  intro k hk
  rw [hL.current] at hk
  cases hk

theorem always_true : ∀ (c : Code σ) (s : σ), c.Always (fun _ => True) s
  | .halt, _ => trivial
  | .plain f k, s => ⟨trivial, always_true (k s) (f s)⟩
  | .acquire k, s => always_true k s
  | .release k, s => always_true k s

/-- **Atomicity.** Under tidy code nobody ever waits for the lock, and while nobody is
in control the shared state is one that whole tasks reach. -/
theorem atomicity (htidy : ∀ s a c, starts s a c → c.Tidy false)
    (h : Reach (machine init starts) anyStep L) :
    L.waiters = [] ∧
      (L.current = none → L.locked = false ∧ Reach (atomic init starts) anyStep L.shared) := by
  have hL := orderly_of_reach (P := fun _ => True) htidy (fun _ _ => trivial)
    (fun s _ c _ _ _ => always_true c s) h
  exact ⟨hL.nobody, fun hidle => ⟨(hL.idle hidle).1, (hL.idle hidle).2.1⟩⟩

/-- Tidy code that gets control runs to its end: nothing can make it suspend. By
induction on the code. -/
theorem chain_run : ∀ (c : Code σ) (s : σ) (held : Bool), c.Tidy held →
    Chain (Step starts) anyStep ⟨s, held, [], some c⟩ ⟨c.run s, false, [], none⟩
  | .halt, s, held, h => by
    obtain rfl : held = false := h
    exact .single (a := none) trivial (.stop rfl)
  | .plain f k, s, held, h =>
    (Chain.single (a := none) trivial (.statement rfl)).trans (chain_run (k s) (f s) held (h s))
  | .acquire k, s, held, h => by
    obtain ⟨rfl, hk⟩ : held = false ∧ k.Tidy true := h
    exact (Chain.single (a := none) trivial (.take rfl rfl rfl)).trans (chain_run k s true hk)
  | .release k, s, held, h => by
    obtain ⟨rfl, hk⟩ : held = true ∧ k.Tidy false := h
    exact (Chain.single (a := none) trivial (.release rfl)).trans (chain_run k s false hk)

/-- What whole tasks reach, the loop reaches, statement by statement. Together with
`atomicity` this says that the two reach the same shared states between two tasks. -/
theorem machine_of_atomic (htidy : ∀ s a c, starts s a c → c.Tidy false) {s : σ}
    (h : Reach (atomic init starts) anyStep s) :
    Reach (machine init starts) anyStep ⟨s, false, [], none⟩ := by
  refine h.invariant (I := fun s => Reach (machine init starts) anyStep ⟨s, false, [], none⟩)
    (fun s hs => .start ⟨hs, rfl, rfl, rfl⟩) ?_
  rintro s a s' hreach - ⟨c, hstart, rfl⟩
  have hcontrol : (machine init starts).step ⟨s, false, [], none⟩ (some a)
      ⟨s, false, [], some c⟩ := .start rfl hstart
  exact (hreach.step trivial hcontrol).chain (chain_run c s false (htidy _ _ _ hstart))

/-- **The invariant rule for tidy code.** What each task keeps at each of its
statements, when it runs alone from a state that whole tasks reach, holds at every
moment of the loop. -/
theorem always (htidy : ∀ s a c, starts s a c → c.Tidy false) (hinit : ∀ s, init s → P s)
    (halways : ∀ s a c, Reach (atomic init starts) anyStep s → P s → starts s a c → c.Always P s)
    (h : Reach (machine init starts) anyStep L) : P L.shared := by
  have hL := orderly_of_reach htidy hinit halways h
  cases hc : L.current with
  | none => exact (hL.idle hc).2.2
  | some k => exact (hL.busy k hc).always.here

end Loop

end Lib

end InferenceGateway
