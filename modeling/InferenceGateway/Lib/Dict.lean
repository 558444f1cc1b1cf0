import Mathlib.Data.List.Induction
import Mathlib.Data.List.Nodup
import Mathlib.Data.List.Perm.Subperm

/-!
# Dictionaries in insertion order

A `Dict` is an association list whose keys are distinct. Assigning to a key that
is present keeps its place; a new key goes to the end. `getItem` and `setItem`
work on bare entries, for values that are nested in themselves and cannot carry
the proof that their keys are distinct; `Dict.get?` and `Dict.set` carry it.

- `getItem_setItem`, `mem_setItem`: what a dictionary holds after an assignment,
  as a function and as a set of entries.
- `keysOf_setItem`: in which order its keys stand then.
- `ofItems`: the dictionary that is built from items one after another, the last
  item of a key giving its value and the first its place (`mem_keysOf_ofItems`,
  `ofItems_of_nodup`, `length_ofItems_eq_iff`).
- `getItem_filter`: dropping entries by their keys.
-/

namespace InferenceGateway.Lib

variable {κ ν : Type*} [DecidableEq κ]

/-- `d.get(k)` -/
def getItem (k : κ) : List (κ × ν) → Option ν
  | [] => none
  | e :: d => if e.1 = k then some e.2 else getItem k d

/-- `d[k] = v` -/
def setItem (k : κ) (v : ν) : List (κ × ν) → List (κ × ν)
  | [] => [(k, v)]
  | e :: d => if e.1 = k then (k, v) :: d else e :: setItem k v d

/-- The keys of the entries. -/
abbrev keysOf (d : List (κ × ν)) : List κ := d.map Prod.fst

omit [DecidableEq κ] in
@[simp] theorem keysOf_cons (e : κ × ν) (d : List (κ × ν)) :
    keysOf (e :: d) = e.1 :: keysOf d := rfl

omit [DecidableEq κ] in
theorem keysOf_append (d d' : List (κ × ν)) : keysOf (d ++ d') = keysOf d ++ keysOf d' :=
  List.map_append

/-- Assigning to a key adds it at the end, unless it is there. -/
theorem keysOf_setItem (k : κ) (v : ν) (d : List (κ × ν)) :
    keysOf (setItem k v d) = if k ∈ keysOf d then keysOf d else keysOf d ++ [k] := by
  induction d with
  | nil => rfl
  | cons e d ih =>
    by_cases he : e.1 = k
    · simp [setItem, he]
    · have hne : k ≠ e.1 := fun h => he h.symm
      simp only [setItem, if_neg he, List.map_cons, ih, List.mem_cons, hne, false_or]
      split <;> rfl

/-- Assigning keeps the keys distinct. -/
theorem nodup_setItem {k : κ} {v : ν} {d : List (κ × ν)} (h : (keysOf d).Nodup) :
    (keysOf (setItem k v d)).Nodup := by
  rw [keysOf_setItem]
  split
  case isTrue hk => exact h
  case isFalse hk =>
    refine List.nodup_append.mpr ⟨h, List.nodup_singleton k, ?_⟩
    rintro a ha b hb rfl
    exact hk (List.mem_singleton.mp hb ▸ ha)

/-- An entry of the changed dictionary is the new one, or an old one of another key.
Nothing else is changed by the assignment. -/
theorem mem_setItem {k : κ} {v : ν} {d : List (κ × ν)} (h : (keysOf d).Nodup) {e : κ × ν} :
    e ∈ setItem k v d ↔ e = (k, v) ∨ (e ∈ d ∧ e.1 ≠ k) := by
  induction d with
  | nil => simp [setItem]
  | cons e' d ih =>
    obtain ⟨hnew, hrest⟩ := List.nodup_cons.mp h
    by_cases he : e'.1 = k
    -- the key was here, so it is nowhere else
    · have hother : ∀ x ∈ d, x.1 ≠ k := fun x hx hk =>
        hnew (List.mem_map.mpr ⟨x, hx, hk.trans he.symm⟩)
      rw [setItem, if_pos he, List.mem_cons, List.mem_cons]
      constructor
      · rintro (rfl | hd)
        · exact .inl rfl
        · exact .inr ⟨.inr hd, hother _ hd⟩
      · rintro (rfl | ⟨rfl | hd, hne⟩)
        · exact .inl rfl
        · exact absurd he hne
        · exact .inr hd
    · rw [setItem, if_neg he, List.mem_cons, ih hrest, List.mem_cons]
      constructor
      · rintro (rfl | rfl | ⟨hd, hne⟩)
        · exact .inr ⟨.inl rfl, he⟩
        · exact .inl rfl
        · exact .inr ⟨.inr hd, hne⟩
      · rintro (rfl | ⟨rfl | hd, hne⟩)
        · exact .inr (.inl rfl)
        · exact .inl rfl
        · exact .inr (.inr ⟨hd, hne⟩)

@[simp] theorem getItem_nil (k : κ) : getItem k ([] : List (κ × ν)) = none := rfl

theorem getItem_cons (k : κ) (e : κ × ν) (d : List (κ × ν)) :
    getItem k (e :: d) = if e.1 = k then some e.2 else getItem k d := rfl

/-- What is looked up is an entry. -/
theorem mem_of_getItem {k : κ} {v : ν} {d : List (κ × ν)} (h : getItem k d = some v) :
    (k, v) ∈ d := by
  induction d with
  | nil => cases h
  | cons e d ih =>
    rw [getItem_cons] at h
    split at h
    case isTrue hk =>
      cases h
      rw [← hk]
      exact List.mem_cons_self
    case isFalse => exact List.mem_cons_of_mem _ (ih h)

/-- A key that is not listed has no value. -/
theorem getItem_eq_none_iff {k : κ} {d : List (κ × ν)} : getItem k d = none ↔ k ∉ keysOf d := by
  induction d with
  | nil => simp
  | cons e d ih =>
    rw [getItem_cons, keysOf_cons, List.mem_cons, not_or]
    split
    case isTrue hk => simp [hk]
    case isFalse hk => exact ⟨fun h => ⟨Ne.symm hk, ih.mp h⟩, fun h => ih.mpr h.2⟩

/-- With distinct keys, what is looked up is what is listed. -/
theorem getItem_eq_some_iff {k : κ} {v : ν} {d : List (κ × ν)} (h : (keysOf d).Nodup) :
    getItem k d = some v ↔ (k, v) ∈ d := by
  refine ⟨mem_of_getItem, fun hmem => ?_⟩
  cases hv : getItem k d with
  | none => exact absurd (List.mem_map.mpr ⟨_, hmem, rfl⟩) (getItem_eq_none_iff.mp hv)
  | some v' =>
    have heq := List.inj_on_of_nodup_map h (mem_of_getItem hv) hmem rfl
    rw [(Prod.mk.inj heq).2]

/-- The value of a key is the one assigned to it last. -/
theorem getItem_setItem (k k' : κ) (v : ν) (d : List (κ × ν)) :
    getItem k' (setItem k v d) = if k' = k then some v else getItem k' d := by
  -- on the entries, of which the first with the key is replaced
  induction d with
  | nil => simp [setItem, getItem_cons, eq_comm]
  | cons e d ih =>
    unfold setItem
    by_cases he : e.1 = k
    · rw [if_pos he, getItem_cons, getItem_cons, he]
      by_cases hk : k = k'
      · simp [hk]
      · rw [if_neg hk, if_neg (Ne.symm hk), if_neg hk]
    · rw [if_neg he, getItem_cons, getItem_cons, ih]
      by_cases hk : e.1 = k'
      · have hne : k' ≠ k := hk ▸ he
        rw [if_pos hk, if_neg hne, if_pos hk]
      · rw [if_neg hk, if_neg hk]

/-- Assigning what is there already changes nothing. -/
theorem setItem_of_getItem {k : κ} {v : ν} {d : List (κ × ν)} (h : getItem k d = some v) :
    setItem k v d = d := by
  induction d with
  | nil => cases h
  | cons e d ih =>
    rw [getItem_cons] at h
    rw [setItem]
    split
    case isTrue hk =>
      rw [if_pos hk] at h
      cases h
      rw [← hk]
    case isFalse hk =>
      rw [if_neg hk] at h
      rw [ih h]

/-- Dropping entries by their keys. -/
theorem getItem_filter (p : κ → Bool) (k : κ) (d : List (κ × ν)) :
    getItem k (d.filter fun e => p e.1) = if p k then getItem k d else none := by
  induction d with
  | nil => simp
  | cons e d ih =>
    rw [List.filter_cons]
    by_cases hk : e.1 = k
    · subst hk
      by_cases hp : p e.1 = true
      · simp [hp, getItem_cons]
      · rw [if_neg hp, ih, if_neg hp, if_neg hp]
    · split
      · rw [getItem_cons, if_neg hk, getItem_cons, if_neg hk, ih]
      · rw [getItem_cons, if_neg hk, ih]

/-! ## From a list of items -/

/-- Assigning to a key that is not there adds an entry at the end. -/
theorem setItem_of_notMem {k : κ} {v : ν} {d : List (κ × ν)} (h : k ∉ keysOf d) :
    setItem k v d = d ++ [(k, v)] := by
  induction d with
  | nil => rfl
  | cons e d ih =>
    rw [keysOf_cons, List.mem_cons, not_or] at h
    rw [setItem, if_neg (Ne.symm h.1), ih h.2, List.cons_append]

/-- The entries of `dict(items)`: of two items with one key the later one stays. -/
def ofItems (items : List (κ × ν)) : List (κ × ν) := items.foldl (fun d e => setItem e.1 e.2 d) []

@[simp] theorem ofItems_nil : ofItems ([] : List (κ × ν)) = [] := rfl

@[simp] theorem ofItems_append_singleton (items : List (κ × ν)) (e : κ × ν) :
    ofItems (items ++ [e]) = setItem e.1 e.2 (ofItems items) := by
  simp [ofItems]

/-- Items with repeated keys still make distinct ones. -/
theorem nodup_ofItems (items : List (κ × ν)) : (keysOf (ofItems items)).Nodup := by
  induction items using List.reverseRecOn with
  | nil => exact List.nodup_nil
  | append_singleton items e ih =>
    rw [ofItems_append_singleton]
    exact nodup_setItem ih

/-- Every entry is an item. -/
theorem mem_of_mem_ofItems {items : List (κ × ν)} {e : κ × ν} (h : e ∈ ofItems items) :
    e ∈ items := by
  induction items using List.reverseRecOn with
  | nil => exact h
  | append_singleton items e' ih =>
    rw [ofItems_append_singleton] at h
    rcases (mem_setItem (nodup_ofItems items)).mp h with rfl | ⟨hold, -⟩
    · exact List.mem_append_right _ (List.mem_singleton_self e')
    · exact List.mem_append_left _ (ih hold)

/-- Every key of an item is a key of the dictionary, and no other is. -/
theorem mem_keysOf_ofItems {items : List (κ × ν)} (k : κ) :
    k ∈ keysOf (ofItems items) ↔ k ∈ keysOf items := by
  induction items using List.reverseRecOn generalizing k with
  | nil => rfl
  | append_singleton items e ih =>
    rw [ofItems_append_singleton, keysOf_setItem, keysOf_append, List.mem_append]
    by_cases he : e.1 ∈ keysOf (ofItems items)
    · rw [if_pos he, ih]
      refine ⟨.inl, fun h => h.elim id fun hk => ?_⟩
      -- a key that is assigned again is there already
      rw [List.mem_singleton.mp hk]
      exact (ih e.1).mp he
    · rw [if_neg he, List.mem_append, ih]
      rfl

/-- Items with distinct keys are the entries. -/
theorem ofItems_of_nodup {items : List (κ × ν)} (h : (keysOf items).Nodup) :
    ofItems items = items := by
  induction items using List.reverseRecOn with
  | nil => rfl
  | append_singleton items e ih =>
    rw [keysOf_append] at h
    obtain ⟨hitems, -, hdisjoint⟩ := List.nodup_append.mp h
    have hnew : e.1 ∉ keysOf items := fun hmem =>
      hdisjoint e.1 hmem e.1 (List.mem_singleton_self e.1) rfl
    rw [ofItems_append_singleton, ih hitems, setItem_of_notMem hnew]

/-- There are as many entries as items only if no key comes twice. Each repeated key
makes one entry fewer. -/
theorem length_ofItems_eq_iff {items : List (κ × ν)} :
    (ofItems items).length = items.length ↔ (keysOf items).Nodup := by
  constructor
  · intro h
    -- the keys of the entries are among those of the items, and as many
    have hsub : keysOf (ofItems items) ⊆ keysOf items := fun k hk => (mem_keysOf_ofItems k).mp hk
    have hlen : (keysOf items).length ≤ (keysOf (ofItems items)).length := by
      rw [List.length_map, List.length_map]
      exact Nat.le_of_eq h.symm
    have hperm := (List.subperm_of_subset (nodup_ofItems items) hsub).perm_of_length_le hlen
    exact hperm.nodup_iff.mp (nodup_ofItems items)
  · intro h
    rw [ofItems_of_nodup h]

/-- Python's `dict`. -/
structure Dict (κ ν : Type*) where
  entries : List (κ × ν)
  nodup : (keysOf entries).Nodup

namespace Dict

omit [DecidableEq κ] in
@[ext] theorem ext {d d' : Dict κ ν} (h : d.entries = d'.entries) : d = d' := by
  cases d
  cases d'
  cases h
  rfl

instance [DecidableEq ν] : DecidableEq (Dict κ ν) := fun _ _ => decidable_of_iff _ Dict.ext_iff.symm

/-- `{}` -/
def empty : Dict κ ν := ⟨[], List.nodup_nil⟩

abbrev keys (d : Dict κ ν) : List κ := keysOf d.entries

/-- `dict(items)` -/
def ofList (items : List (κ × ν)) : Dict κ ν := ⟨ofItems items, nodup_ofItems items⟩

/-- `d.get(k)` -/
def get? (d : Dict κ ν) (k : κ) : Option ν := getItem k d.entries

/-- `d[k] = v` -/
def set (d : Dict κ ν) (k : κ) (v : ν) : Dict κ ν := ⟨setItem k v d.entries, nodup_setItem d.nodup⟩

/-- `{k: v for k, v in d.items() if p(k)}` -/
def filterKeys (p : κ → Bool) (d : Dict κ ν) : Dict κ ν where
  entries := d.entries.filter fun e => p e.1
  nodup := d.nodup.sublist (List.filter_sublist.map _)

@[simp] theorem get?_empty (k : κ) : (empty : Dict κ ν).get? k = none := rfl

theorem get?_set (d : Dict κ ν) (k k' : κ) (v : ν) :
    (d.set k v).get? k' = if k' = k then some v else d.get? k' :=
  getItem_setItem k k' v d.entries

@[simp] theorem get?_set_self (d : Dict κ ν) (k : κ) (v : ν) : (d.set k v).get? k = some v := by
  rw [get?_set, if_pos rfl]

theorem get?_set_of_ne {k k' : κ} (h : k' ≠ k) (d : Dict κ ν) (v : ν) :
    (d.set k v).get? k' = d.get? k' := by
  rw [get?_set, if_neg h]

theorem get?_eq_some_iff {d : Dict κ ν} {k : κ} {v : ν} : d.get? k = some v ↔ (k, v) ∈ d.entries :=
  getItem_eq_some_iff d.nodup

theorem get?_eq_none_iff {d : Dict κ ν} {k : κ} : d.get? k = none ↔ k ∉ d.keys :=
  getItem_eq_none_iff

/-- A key is listed once. -/
theorem filter_key_eq {d : Dict κ ν} {k : κ} {v : ν} (h : d.get? k = some v) :
    d.entries.filter (fun e => decide (e.1 = k)) = [(k, v)] := by
  have hmem := get?_eq_some_iff.mp h
  have honly : ∀ e ∈ d.entries.filter (fun e => decide (e.1 = k)), e = (k, v) := by
    intro e he
    obtain ⟨hin, hk⟩ := List.mem_filter.mp he
    exact List.inj_on_of_nodup_map d.nodup hin hmem (of_decide_eq_true hk)
  have hnodup : (d.entries.filter (fun e => decide (e.1 = k))).Nodup :=
    (List.Nodup.of_map _ d.nodup).filter _
  have hin : (k, v) ∈ d.entries.filter (fun e => decide (e.1 = k)) :=
    List.mem_filter.mpr ⟨hmem, decide_eq_true rfl⟩
  -- a list without repetition that has one value only, and has it
  generalize d.entries.filter (fun e => decide (e.1 = k)) = l at honly hnodup hin
  cases l with
  | nil => cases hin
  | cons e l =>
    obtain rfl := honly e List.mem_cons_self
    cases l with
    | nil => rfl
    | cons e' l =>
      obtain rfl := honly e' (by simp)
      exact absurd List.mem_cons_self (List.nodup_cons.mp hnodup).1

end Dict

end InferenceGateway.Lib
