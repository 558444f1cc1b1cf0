import InferenceGateway.Fleet.Refinement
import InferenceGateway.Fleet.Slots

/-!
# Slots: counters against what is really outstanding

For every interleaving of the gateway, `inflight` and `large_inflight` of a
backend are compared with the slots its requests hold. The scheduler adds one
for each backend it grants, every path of the proxy subtracts one when its
attempt is over, and nothing in the code says whose slot it was, so both
directions can fail.

- `slots_covered`: the counters never fall below the slots held, as long as no
  step releases a slot for nobody. `NoSpareRelease` is the exact condition on a
  step: a failed attempt that wants a retry finds an alternate, and the fallback
  provider does not bear a registered backend's name.
- `slots_returned`: the counters never exceed the slots held and those lost with
  a returned stream, as long as no step `Leaks`. A step leaks if its exception
  leaves the handler, if the client's response cannot be built, or if a retry
  cannot be sent.

Both are run lemmas over `Fleet`, where a step of the gateway is a list of deeds
on the rows, each of which says what it takes and gives back.
-/

namespace InferenceGateway

open Lib

namespace Gateway

variable {D : Deployment} {g : Gateway} {b : String}

/-! ## No over-release -/

/-- The step releases no slot for nobody. -/
structure NoSpareRelease (D : Deployment) (g : Gateway) (a : Action) : Prop where
  /-- A failed attempt on a registered backend that wants a retry finds one. -/
  alternate : ∀ c w, g.retryOf D a = some (c, w) → c.target.name ∈ g.names →
    Proxy.hasAlternate D c w
  /-- A fallback call does not bear the name of a registered backend. -/
  fallback : ∀ t, g.FallbackCall D a t → t.name ∉ g.names

/-- Under the condition, no release on a registered backend needs explaining. -/
theorem NoSpareRelease.licence {g₀ : Gateway} {a : Action} {F : Fleet} {d : Deed}
    (hok : NoSpareRelease D g₀ a) (hb : b ∈ g₀.names) (hd : Explains D g₀ a F d) :
    ∀ cls, d ≠ .overRelease b cls := by
  rintro cls rfl
  rcases hd with ⟨c, w, hretry, rfl, hnone⟩ | ⟨t, hcall, rfl⟩
  · exact hnone (hok.alternate c w hretry hb)
  · exact hok.fallback t hcall hb

/-- **No over-release.** In every run without spare releases the counters of every
backend cover the slots held on it, the hard limit bounds them, and the clamp of
`_release_dispatch` never bites. -/
theorem slots_covered (h : ReachableWith D (NoSpareRelease D) g) (hb : b ∈ g.names) :
    (g.fleet.heldOn b : ℤ) ≤ (g.row b).inflight ∧
      (g.fleet.largeHeldOn b : ℤ) ≤ (g.row b).largeInflight ∧
      (g.fleet.heldOn b : ℤ) ≤ max 0 (g.row b).hardLimit ∧
      .released b true ∉ g.trace := by
  have hfleet := reaches_fleet (fun _ d => ∀ cls, d ≠ .overRelease b cls)
    (fun g₀ a F d hreach hok hd => by
      have hnames := (names_of_reach hreach).trans (names_of_reach h).symm
      exact hok.licence (hnames ▸ hb) hd) h
  obtain ⟨hin, hlarge, hlimit, hclamp⟩ := Fleet.covered_of_reach hfleet hb
  exact ⟨hin, hlarge, hlimit, hclamp⟩

/-- The guard as far as a run can check it: a failed attempt that wants a retry finds one,
the lease of the attempt is a slot, and no fallback bears the name of a backend. -/
def Sparing (D : Deployment) (g : Gateway) (a : Action) : Prop :=
  (∀ retry ∈ g.retryOf D a, Proxy.hasAlternate D retry.1 retry.2) ∧
    (∀ lease ∈ g.leaseOf a, lease.holds = true) ∧ ∀ t ∈ fallbackTarget D.cfg, t.name ∉ g.names

instance (g : Gateway) (a : Action) : Decidable (Sparing D g a) :=
  inferInstanceAs (Decidable (_ ∧ _ ∧ _))

theorem Sparing.noSpareRelease {a : Action} (h : Sparing D g a) : NoSpareRelease D g a where
  alternate c w hretry _ := h.1 (c, w) hretry
  fallback := by
    rintro t (hlease | ⟨-, ht⟩)
    · cases h.2.1 _ hlease
    · exact h.2.2 t ht

/-- Two requests on two backends. The first times out, gives its slot back and is sent to
the other backend, where it takes the second slot. -/
def busy : Option Gateway :=
  runGuarded (step pair) (Sparing pair) (init pair still)
    [.arrive (chat false), .arrive (chat true), .tick, .resume 0, .resume 1,
      .upstream 0 (.failed (.timeout "timed out"))]

theorem slots_covered_busy : ∃ g, busy = some g ∧
    (.retriesTotal ∈ g.trace ∧ g.fleet.heldOn "gpu-node-2" = 2) ∧
    (g.fleet.heldOn "gpu-node-2" : ℤ) ≤ (g.row "gpu-node-2").inflight ∧
      (g.fleet.largeHeldOn "gpu-node-2" : ℤ) ≤ (g.row "gpu-node-2").largeInflight ∧
      (g.fleet.heldOn "gpu-node-2" : ℤ) ≤ max 0 (g.row "gpu-node-2").hardLimit ∧
      .released "gpu-node-2" true ∉ g.trace := by
  have hrun : busy.any (fun g =>
      .retriesTotal ∈ g.trace ∧ g.fleet.heldOn "gpu-node-2" = 2) = true := by
    decide +kernel
  obtain ⟨g, hg, hretried⟩ := (Option.any_eq_true _ _).mp hrun
  have hsparing : ReachableWith pair (Sparing pair) g := reach_runGuarded (.start ⟨_, rfl⟩) hg
  have hreach : ReachableWith pair (NoSpareRelease pair) g :=
    hsparing.mono fun _ _ hok => hok.noSpareRelease
  have hb : "gpu-node-2" ∈ g.names := by
    rw [names_of_reach hreach]
    decide
  exact ⟨g, hg, of_decide_eq_true hretried, slots_covered hreach hb⟩

/-- Two requests are on their way to the only backend; the first is answered 500
and finds no alternate. Its two releases also free the slot of the second. -/
theorem over_release : ∃ g, Reachable lone g ∧ "gpu-node-1" ∈ g.names ∧
    (g.row "gpu-node-1").inflight < g.fleet.heldOn "gpu-node-1" := by
  refine exists_reachable still
    [.arrive (chat false), .arrive (chat false), .tick, .resume 0, .resume 1,
      .upstream 0 (.response 500 true)] ?_
  decide +kernel

/-! ## No leak -/

/-- **No leak.** In every run in which no step leaks, the counters of every backend
count no more than the slots held on it and those lost with a returned stream;
once there are none of either, both counters are zero. -/
theorem slots_returned (h : ReachableWith D (fun g a => ¬ g.Leaks D a) g) (hb : b ∈ g.names) :
    (g.row b).inflight ≤ g.fleet.heldOn b + g.fleet.lostStreams b ∧
      (g.row b).largeInflight ≤ g.fleet.largeHeldOn b + g.fleet.lostStreams b ∧
      (g.fleet.heldOn b = 0 → g.fleet.lostStreams b = 0 →
        (g.row b).inflight = 0 ∧ (g.row b).largeInflight = 0) := by
  have hfleet := reaches_fleet
    (fun _ d => ∀ r how, d = .abandon r how → how = .streamLost) (by
      rintro g₀ a F d - hok hd r how rfl
      exact hd.resolve_right hok) h
  have hret := Fleet.returned_of_reach hfleet hb
  exact ⟨hret.inflight, hret.large, hret.idle⟩

/-- The guard as far as a run can check it, where every request can be prepared: no request
that has timed out is granted a backend, what is raised is caught, and every response can be
built. -/
def tidy (g : Gateway) : Action → Bool
  | .resume r =>
    match g.handler r with
    | .expired _ => false
    | _ => true
  | .upstream _ (.response _ relayable) => relayable
  | .upstream _ (.failed e) | .drained _ (.failed e) => e.caught
  | _ => true

/-- Where every request can be prepared, a tidy step gives up no slot. -/
theorem not_leaks_of_tidy {a : Action}
    (hprep : ∀ target p, Proxy.prepareTargetRequest D target p = none) (h : tidy g a = true) :
    ¬ g.Leaks D a := by
  have hretry : ∀ c w, ¬ Proxy.retryUnsendable D c w :=
    fun c w ⟨grant, _, hun⟩ => hun (hprep grant.target c.pending)
  cases a with
  | resume r =>
    rintro ⟨p, grant, -, hexp | ⟨-, -, -, hun⟩⟩
    · simp [tidy, hexp] at h
    · exact hun (hprep _ _)
  | upstream r o =>
    rintro ⟨c, -, ⟨-, hleak⟩ | ⟨w', -, hun⟩⟩
    -- the attempt itself: the guard names both ways in which it can leak
    · cases o with
      | response status relayable =>
        cases hleak.2.2.symm.trans h
      | failed e =>
        cases hleak.symm.trans h
    · exact hretry c w' hun
  | drained r o =>
    rintro ⟨c, status, -, ⟨-, hleak⟩ | ⟨w', -, hun⟩⟩
    · cases o with
      | read relayable => exact hleak
      | failed e =>
        cases hleak.symm.trans h
    · exact hretry c w' hun
  | _ => exact id

/-- Two requests on two backends. The first times out, is sent to the other backend and
answered there; the second is a stream, which its client reads to the end. -/
def drained : Option Gateway :=
  runGuarded (step pair) (fun g a => tidy g a = true) (init pair still)
    [.arrive (chat false), .arrive (chat true), .tick, .resume 0, .resume 1,
      .upstream 0 (.failed (.timeout "timed out")), .upstream 1 (.response 200 true),
      .upstream 0 (.response 200 true), .streamStart 1, .streamEnd 1 .exhausted false]

theorem slots_returned_drained : ∃ g, drained = some g ∧
    (.retriesTotal ∈ g.trace ∧ g.fleet.heldOn "gpu-node-2" = 0 ∧
      g.fleet.lostStreams "gpu-node-2" = 0) ∧
    (g.row "gpu-node-2").inflight ≤
        g.fleet.heldOn "gpu-node-2" + g.fleet.lostStreams "gpu-node-2" ∧
      (g.row "gpu-node-2").largeInflight ≤
        g.fleet.largeHeldOn "gpu-node-2" + g.fleet.lostStreams "gpu-node-2" ∧
      (g.fleet.heldOn "gpu-node-2" = 0 → g.fleet.lostStreams "gpu-node-2" = 0 →
        (g.row "gpu-node-2").inflight = 0 ∧ (g.row "gpu-node-2").largeInflight = 0) := by
  have hrun : drained.any (fun g => .retriesTotal ∈ g.trace ∧
      g.fleet.heldOn "gpu-node-2" = 0 ∧ g.fleet.lostStreams "gpu-node-2" = 0) = true := by
    decide +kernel
  obtain ⟨g, hg, hidle⟩ := (Option.any_eq_true _ _).mp hrun
  have hprep : ∀ target p, Proxy.prepareTargetRequest pair target p = none := fun _ _ => rfl
  have htidy : ReachableWith pair (fun g a => tidy g a = true) g :=
    reach_runGuarded (.start ⟨_, rfl⟩) hg
  have hreach : ReachableWith pair (fun g a => ¬ g.Leaks pair a) g :=
    htidy.mono fun _ _ hok => not_leaks_of_tidy hprep hok
  have hb : "gpu-node-2" ∈ g.names := by
    rw [names_of_reach hreach]
    decide
  exact ⟨g, hg, of_decide_eq_true hidle, slots_returned hreach hb⟩

/-- The only request fails with an exception no clause names; its reply is out,
nobody holds a slot, no stream was ever returned, and one slot stays taken. -/
theorem slot_leak : ∃ g, Reachable lone g ∧ "gpu-node-1" ∈ g.names ∧
    g.handler 0 = .replied (.crashed "ReadError") ∧ g.fleet.heldOn "gpu-node-1" = 0 ∧
    g.fleet.lostStreams "gpu-node-1" = 0 ∧ (g.row "gpu-node-1").inflight = 1 := by
  refine exists_reachable still
    [.arrive (chat false), .tick, .resume 0, .upstream 0 (.failed (.other "ReadError"))] ?_
  decide +kernel

end Gateway

end InferenceGateway
