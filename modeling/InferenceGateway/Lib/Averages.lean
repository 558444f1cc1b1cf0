import Mathlib.Analysis.Convex.Basic
import Mathlib.Data.List.Forall2
import Mathlib.LinearAlgebra.AffineSpace.Ordered

/-!
# Exponential averages

`track start samples` is an average that each sample pulls some share of the way towards
itself, where every sample brings its own share. With shares that differ there is no closed
form, so the bounds are by induction on the samples.

The average may be in any module over an ordered ring. A sample blends it with a value by
`AffineMap.lineMap`, whose monotonicity in the share and in the end points is all that the
order results use.

- `track_mem`: the average never leaves a convex set that holds its start and the samples.
- `track_lt`: a bound that no sample passes is not reached, while no share is the whole way.
- `track_le_track`: putting samples at the upper end for samples at the lower end never
  lowers the average, whatever the shares of the two.
-/

namespace InferenceGateway.Lib

open AffineMap (lineMap lineMap_apply_module lineMap_same_apply)

section Convex

variable {K E : Type*} [Ring K] [AddCommGroup E] [Module K E]

/-- Each sample is a share of the way and the value it is the way to. -/
def track (start : E) (samples : List (K × E)) : E :=
  samples.foldl (fun average sample => lineMap average sample.2 sample.1) start

@[simp] theorem track_nil (start : E) : track start ([] : List (K × E)) = start := rfl

@[simp] theorem track_cons (start : E) (sample : K × E) (samples : List (K × E)) :
    track start (sample :: samples) = track (lineMap start sample.2 sample.1) samples := rfl

/-- In a ring, a sample is blended in with a product for the sample and one for the
average. -/
theorem track_cons_mul (start : K) (sample : K × K) (samples : List (K × K)) :
    track start (sample :: samples) =
      track (sample.1 * sample.2 + (1 - sample.1) * start) samples := by
  rw [track_cons, lineMap_apply_module, smul_eq_mul, smul_eq_mul, add_comm]

variable [PartialOrder K] [IsOrderedRing K]

/-- **Boundedness.** The average never leaves a convex set that holds its start and
every sample, whatever the shares are. -/
theorem track_mem {s : Set E} (hs : Convex K s) {start : E} {samples : List (K × E)}
    (hstart : start ∈ s) (hsamples : ∀ x ∈ samples, x.1 ∈ Set.Icc 0 1 ∧ x.2 ∈ s) :
    track start samples ∈ s := by
  induction samples generalizing start with
  | nil => exact hstart
  | cons x samples ih =>
    obtain ⟨hshare, hx⟩ := hsamples x List.mem_cons_self
    rw [track_cons]
    exact ih (hs.lineMap_mem hstart hx hshare) fun y hy => hsamples y (List.mem_cons_of_mem _ hy)

end Convex

section Ordered

variable {K : Type*} [Field K] [LinearOrder K] [IsStrictOrderedRing K] {lo hi start start' : K}
  {samples samples' : List (K × K)}

/-- A bound that no sample passes is approached and never reached, as long as the start
is below it and no sample counts for all. -/
theorem track_lt (hstart : start < hi)
    (hsamples : ∀ x ∈ samples, x.1 ∈ Set.Ico 0 1 ∧ x.2 ≤ hi) : track start samples < hi := by
  induction samples generalizing start with
  | nil => exact hstart
  | cons x samples ih =>
    obtain ⟨hshare, hx⟩ := hsamples x List.mem_cons_self
    have hnext : lineMap start x.2 x.1 < hi :=
      calc lineMap start x.2 x.1 ≤ lineMap start hi x.1 := lineMap_mono_right hx hshare.1
        _ < hi := (lineMap_lt_right_iff_lt hshare.2).mpr hstart
    rw [track_cons]
    exact ih hnext fun y hy => hsamples y (List.mem_cons_of_mem _ hy)

/-- `y` is `x`, or the upper end where `x` is the lower end. -/
def Raised (lo hi : K) (x y : K × K) : Prop := y = x ∨ (x.2 = lo ∧ y.2 = hi)

/-- One sample: towards the lower end is down, and towards the upper end is up. -/
theorem lineMap_le_lineMap_of_raised {a b : K} {x y : K × K} (hab : a ≤ b)
    (ha : lo ≤ a) (hb : b ≤ hi) (hx : x.1 ∈ Set.Icc 0 1) (hy : y.1 ∈ Set.Icc 0 1)
    (h : Raised lo hi x y) : lineMap a x.2 x.1 ≤ lineMap b y.2 y.1 := by
  rcases h with rfl | ⟨hlo, hhi⟩
  · exact lineMap_mono_left hab hy.2
  · calc lineMap a x.2 x.1 ≤ lineMap a a x.1 := lineMap_mono_right (hlo ▸ ha) hx.1
      _ = a := lineMap_same_apply a x.1
      _ ≤ b := hab
      _ = lineMap b b y.1 := (lineMap_same_apply b y.1).symm
      _ ≤ lineMap b y.2 y.1 := lineMap_mono_right (hhi ▸ hb) hy.1

/-- **Monotonicity in the history.** Raise some samples from the lower end to the upper
end, with whatever shares: the average is not lowered, however many samples follow. -/
theorem track_le_track (hle : start ≤ start') (hstart : start ∈ Set.Icc lo hi)
    (hstart' : start' ∈ Set.Icc lo hi)
    (hsamples : ∀ x ∈ samples, x.1 ∈ Set.Icc 0 1 ∧ x.2 ∈ Set.Icc lo hi)
    (hsamples' : ∀ x ∈ samples', x.1 ∈ Set.Icc 0 1 ∧ x.2 ∈ Set.Icc lo hi)
    (hraised : List.Forall₂ (Raised lo hi) samples samples') :
    track start samples ≤ track start' samples' := by
  induction hraised generalizing start start' with
  | nil => exact hle
  | @cons x y samples samples' hxy _ ih =>
    obtain ⟨hxshare, hx⟩ := hsamples x List.mem_cons_self
    obtain ⟨hyshare, hy⟩ := hsamples' y List.mem_cons_self
    have hconvex : Convex K (Set.Icc lo hi) := convex_Icc lo hi
    rw [track_cons, track_cons]
    exact ih (lineMap_le_lineMap_of_raised hle hstart.1 hstart'.2 hxshare hyshare hxy)
      (hconvex.lineMap_mem hstart hx hxshare) (hconvex.lineMap_mem hstart' hy hyshare)
      (fun z hz => hsamples z (List.mem_cons_of_mem _ hz))
      (fun z hz => hsamples' z (List.mem_cons_of_mem _ hz))

end Ordered

end InferenceGateway.Lib
