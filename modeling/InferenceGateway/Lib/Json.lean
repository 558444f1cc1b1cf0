import InferenceGateway.Lib.Binary64
import InferenceGateway.Lib.Dict
import InferenceGateway.Lib.Unicode

/-!
# JSON values

What Python's `json` module reads and writes: integers of any size, binary64
numbers with the infinities and not-a-number, strings that may contain
surrogates, and objects that remember the order their keys were added in.

`WellFormed` says of a value that its objects, at any depth, list each key once.
Every value that was read is so, and assigning to a field or dropping fields
keeps it so; with that, looking a key up and listing the entries say the same.

An object is a bare list of entries, because a value that is nested in itself
cannot carry a proof about its own entries; `WellFormed` is that proof, taken
outside. The operations on entries are those of `Lib.Dict`.
-/

namespace InferenceGateway.Lib

inductive Json where
  | null
  | bool (b : Bool)
  | int (n : ℤ)
  | float (x : Binary64)
  | str (s : Text)
  | arr (items : List Json)
  | obj (fields : List (Text × Json))

namespace Json

/-- Every object in the value lists each of its keys once, as a `dict` does. -/
inductive WellFormed : Json → Prop where
  | null : WellFormed .null
  | bool (b : Bool) : WellFormed (.bool b)
  | int (n : ℤ) : WellFormed (.int n)
  | float (x : Binary64) : WellFormed (.float x)
  | str (s : Text) : WellFormed (.str s)
  | arr {items : List Json} (h : ∀ v ∈ items, WellFormed v) : WellFormed (.arr items)
  | obj {fields : List (Text × Json)} (keys : (keysOf fields).Nodup)
      (h : ∀ e ∈ fields, WellFormed e.2) : WellFormed (.obj fields)

/-- An object lists each of its keys once. -/
theorem WellFormed.nodup {fields : List (Text × Json)} (h : WellFormed (.obj fields)) :
    (keysOf fields).Nodup := by
  cases h with
  | obj keys _ => exact keys

/-- Assigning to a key keeps an object well formed. -/
theorem WellFormed.setItem {k : Text} {v : Json} {fields : List (Text × Json)}
    (h : WellFormed (.obj fields)) (hv : WellFormed v) :
    WellFormed (.obj (setItem k v fields)) := by
  cases h with
  | obj keys hfields =>
    refine .obj (nodup_setItem keys) fun e he => ?_
    rcases (mem_setItem keys).mp he with rfl | ⟨hold, -⟩
    · exact hv
    · exact hfields e hold

/-- Dropping fields keeps an object well formed. -/
theorem WellFormed.filter {p : Text × Json → Bool} {fields : List (Text × Json)}
    (h : WellFormed (.obj fields)) : WellFormed (.obj (fields.filter p)) := by
  cases h with
  | obj keys hfields =>
    refine .obj (keys.sublist (List.filter_sublist.map _)) fun e he => ?_
    exact hfields e (List.mem_of_mem_filter he)

end Json

end InferenceGateway.Lib
