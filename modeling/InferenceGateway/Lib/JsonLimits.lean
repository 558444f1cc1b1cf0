import InferenceGateway.Lib.JsonProgress
import InferenceGateway.Lib.JsonRoundTrip

/-!
# What the limits let through

A reader that recurses has a limit on nesting, and a reader that converts
integers one on digits. What these limits change is the subject of this file:
they make some texts unreadable, and change the value of none.

- `within_of_loads`: what is read is well formed and within the limits it was
  read under.
- `loads_mono`: a higher limit on nesting reads the same values and more.
- `loads_unique`: a text is read in one way, whatever the limits.
- `loads_written_iff`: the text of a value is read back exactly where its
  nesting is within the limit.
- `toChars?_write_ne_none_iff`: the text can be encoded exactly where no string
  in it, and no key, has a surrogate.

The first is proved scanner by scanner, bottom up: `Yields scan P` says that
whatever `scan` reads meets `P`, and what is nested is read with one level less.
So is the second, with `Agrees E`, which says of two computations that they
answer the same unless the first one fails with an error in `E`. A program that
reads a text under one limit and writes and reads it again under another one
meets both results.
-/

namespace InferenceGateway.Lib

namespace Json

/-! ## Levels -/

mutual

/-- How many levels a value has, if scalars count for `leaf`. -/
def levels (leaf : ℕ) : Json → ℕ
  | .arr vs => levelsItems leaf vs + 1
  | .obj es => levelsMembers leaf es + 1
  | _ => leaf

def levelsItems (leaf : ℕ) : List Json → ℕ
  | [] => 0
  | v :: vs => max (levels leaf v) (levelsItems leaf vs)

def levelsMembers (leaf : ℕ) : List (Text × Json) → ℕ
  | [] => 0
  | (_, v) :: es => max (levels leaf v) (levelsMembers leaf es)

end

/-- A list is as deep as its deepest item. -/
theorem levelsItems_le_iff {leaf n : ℕ} {vs : List Json} :
    levelsItems leaf vs ≤ n ↔ ∀ v ∈ vs, levels leaf v ≤ n := by
  induction vs with
  | nil => simp [levelsItems]
  | cons v vs ih => simp [levelsItems, ih]

/-- An object is as deep as its deepest member. -/
theorem levelsMembers_le_iff {leaf n : ℕ} {es : List (Text × Json)} :
    levelsMembers leaf es ≤ n ↔ ∀ e ∈ es, levels leaf e.2 ≤ n := by
  induction es with
  | nil => simp [levelsMembers]
  | cons e es ih =>
    obtain ⟨k, v⟩ := e
    simp [levelsMembers, ih]

/-- How deeply containers are nested. -/
abbrev nesting (v : Json) : ℕ := v.levels 0

/-- What exceeds no limit is nested within the limit on nesting. -/
theorem nesting_le_of_excess {digits depth : ℕ} {v : Json} (h : excess digits depth v = none) :
    v.nesting ≤ depth := by
  induction v using ind generalizing depth with
  | null | bool | int | float | str => exact Nat.zero_le _
  | arr vs ih =>
    cases depth with
    | zero => cases h
    | succ depth =>
      rw [excess, excessItems_eq_none_iff] at h
      exact Nat.succ_le_succ (levelsItems_le_iff.mpr fun v hv => ih v hv (h v hv))
  | obj es ih =>
    cases depth with
    | zero => cases h
    | succ depth =>
      rw [excess, excessMembers_eq_none_iff] at h
      exact Nat.succ_le_succ (levelsMembers_le_iff.mpr fun e he => ih e he (h e he))

/-- Within the limit on digits, nesting is all that can exceed a limit. -/
theorem excess_of_nesting_le {digits depth depth' : ℕ} {v : Json}
    (h : excess digits depth v = none) (hle : v.nesting ≤ depth') :
    excess digits depth' v = none := by
  -- on the value, with one level used up at each list or object
  induction v using ind generalizing depth depth' with
  | null | bool | float | str => cases depth' <;> rfl
  | int n => cases depth <;> cases depth' <;> exact h
  | arr vs ih =>
    cases depth with
    | zero => cases h
    | succ depth =>
      cases depth' with
      | zero => cases hle
      | succ depth' =>
        rw [excess, excessItems_eq_none_iff] at h ⊢
        have hitems := levelsItems_le_iff.mp (Nat.le_of_succ_le_succ hle)
        exact fun v hv => ih v hv (h v hv) (hitems v hv)
  | obj es ih =>
    cases depth with
    | zero => cases h
    | succ depth =>
      cases depth' with
      | zero => cases hle
      | succ depth' =>
        rw [excess, excessMembers_eq_none_iff] at h ⊢
        have hmembers := levelsMembers_le_iff.mp (Nat.le_of_succ_le_succ hle)
        exact fun e he => ih e he (h e he) (hmembers e he)

/-- No integer in the value has too many digits. -/
def Short (digits : ℕ) (v : Json) : Prop := ∃ depth, excess digits depth v = none

/-- The items of a list are as short as the list. -/
theorem Short.of_arr {digits : ℕ} {vs : List Json} (h : (arr vs).Short digits) :
    ∀ v ∈ vs, v.Short digits := by
  obtain ⟨depth, h⟩ := h
  cases depth with
  | zero => cases h
  | succ depth => exact fun v hv => ⟨depth, excessItems_eq_none_iff.mp h v hv⟩

theorem Short.of_obj {digits : ℕ} {es : List (Text × Json)} (h : (obj es).Short digits) :
    ∀ e ∈ es, e.2.Short digits := by
  obtain ⟨depth, h⟩ := h
  cases depth with
  | zero => cases h
  | succ depth => exact fun e he => ⟨depth, excessMembers_eq_none_iff.mp h e he⟩

theorem Short.filter {digits : ℕ} {p : Text × Json → Bool} {es : List (Text × Json)}
    (h : (obj es).Short digits) : (obj (es.filter p)).Short digits := by
  obtain ⟨depth, h⟩ := h
  cases depth with
  | zero => cases h
  | succ depth =>
    have hmembers := excessMembers_eq_none_iff.mp h
    refine ⟨depth + 1, excessMembers_eq_none_iff.mpr fun e he => ?_⟩
    exact hmembers e (List.mem_of_mem_filter he)

/-- A value whose integers are all short exceeds no limit but the one on nesting. -/
theorem Short.excess_eq_none_iff {digits depth : ℕ} {v : Json} (h : v.Short digits) :
    excess digits depth v = none ↔ v.nesting ≤ depth := by
  obtain ⟨depth₀, h⟩ := h
  exact ⟨nesting_le_of_excess, excess_of_nesting_le h⟩

/-! ## What is read -/

/-- Every value a scan reads has a property. -/
def Yields (scan : Scan) (P : Json → Prop) : Prop := ∀ s v r, scan s = .ok (v, r) → P v

/-- Where a chain of two reads succeeds, both have. -/
theorem ok_of_bind {α β : Type} {x : Except ScanError α} {f : α → Except ScanError β} {b : β}
    (h : x >>= f = .ok b) : ∃ a, x = .ok a ∧ f a = .ok b := by
  cases x with
  | error e => cases h
  | ok a => exact ⟨a, rfl, h⟩

/-- The loop over the items of a list yields what the scanner of one item yields. By
induction on the fuel. -/
theorem yields_scanItems {scan : Scan} {P : Json → Prop} (hscan : Yields scan P) {fuel : ℕ}
    {s r : List Char} {vs : List Json} (h : scanItems scan fuel s = .ok (vs, r)) :
    ∀ v ∈ vs, P v := by
  induction fuel generalizing s vs r with
  | zero => cases h
  | succ fuel ih =>
    obtain ⟨⟨v, r'⟩, hv, h⟩ := ok_of_bind h
    dsimp only at h
    split at h
    · cases h
      exact List.forall_mem_singleton.mpr (hscan s v r' hv)
    · obtain ⟨⟨vs', r''⟩, hvs, h⟩ := ok_of_bind h
      cases h
      exact List.forall_mem_cons.mpr ⟨hscan s v r' hv, ih hvs⟩
    · cases h

theorem yields_scanMember {scan : Scan} {P : Json → Prop} (hscan : Yields scan P)
    {s r : List Char} {e : Text × Json} (h : scanMember scan s = .ok (e, r)) : P e.2 := by
  unfold scanMember at h
  split at h
  · split at h
    · cases h
    · split at h
      · obtain ⟨⟨v, r'⟩, hv, h⟩ := ok_of_bind h
        cases h
        exact hscan _ _ _ hv
      · cases h
  · cases h

/-- The loop over the members of an object yields what the scanner of one value
yields. -/
theorem yields_scanMembers {scan : Scan} {P : Json → Prop} (hscan : Yields scan P) {fuel : ℕ}
    {s r : List Char} {es : List (Text × Json)} (h : scanMembers scan fuel s = .ok (es, r)) :
    ∀ e ∈ es, P e.2 := by
  induction fuel generalizing s es r with
  | zero => cases h
  | succ fuel ih =>
    obtain ⟨⟨e, r'⟩, he, h⟩ := ok_of_bind h
    dsimp only at h
    split at h
    · cases h
      exact List.forall_mem_singleton.mpr (yields_scanMember hscan he)
    · obtain ⟨⟨es', r''⟩, hes, h⟩ := ok_of_bind h
      cases h
      exact List.forall_mem_cons.mpr ⟨yields_scanMember hscan he, ih hes⟩
    · cases h

/-- Within the limits it was read under, and well formed. -/
structure Within (digits depth : ℕ) (v : Json) : Prop where
  wellFormed : v.WellFormed
  excess : excess digits depth v = none

/-- A number of `n` digits is below `10 ^ n`. -/
theorem ofDigitChars_lt {ds : List Char} (hds : ∀ c ∈ ds, c.isDigit = true) :
    Nat.ofDigitChars 10 ds 0 < 10 ^ ds.length := by
  -- from the last digit, which is worth less than ten
  induction ds using List.reverseRecOn with
  | nil => simp
  | append_singleton ds d ih =>
    have hlt := ih fun c hc => hds c (List.mem_append_left _ hc)
    have hd : d.isDigit = true := hds d (by simp)
    have hval : d.toNat - '0'.toNat < 10 := by
      simp only [Char.isDigit, Bool.and_eq_true, decide_eq_true_eq] at hd
      have hnine : d.toNat ≤ '9'.toNat := hd.2
      have hdiff : '9'.toNat - '0'.toNat < 10 := by decide
      omega
    rw [Nat.ofDigitChars_append, Nat.ofDigitChars_cons, Nat.ofDigitChars_nil, List.length_append,
      List.length_singleton, pow_succ]
    omega

/-- An integer has no more digits than were read. -/
theorem length_toDigits_le {ds : List Char} (hne : ds ≠ []) (hds : ∀ c ∈ ds, c.isDigit = true) :
    (Nat.toDigits 10 (Nat.ofDigitChars 10 ds 0)).length ≤ ds.length :=
  (Nat.length_toDigits_le_iff (by decide) (List.length_pos_of_ne_nil hne)).mpr (ofDigitChars_lt hds)

/-- A number is well formed and, if it is an integer, has no more digits than the
limit. -/
theorem within_finishNumber {digits depth : ℕ} {negative : Bool} {ds s r : List Char} {v : Json}
    (hne : ds ≠ []) (hds : ∀ c ∈ ds, c.isDigit = true)
    (h : finishNumber digits negative ds s = .ok (v, r)) : Within digits depth v := by
  unfold finishNumber at h
  dsimp only at h
  split at h
  · split at h
    · cases h
    · next hdigits =>
      cases h
      -- leading zeros can only make the text longer than the number
      have hlen := (length_toDigits_le hne hds).trans (not_lt.mp hdigits)
      refine ⟨.int _, ?_⟩
      have habs : (((if negative then -1 else 1) * Nat.ofDigitChars 10 ds 0 : ℤ)).natAbs =
          Nat.ofDigitChars 10 ds 0 := by
        cases negative <;> simp
      rw [← habs] at hlen
      cases depth <;> exact if_neg (not_lt.mpr hlen)
  · cases h
    exact ⟨.float _, by cases depth <;> rfl⟩

theorem within_scanMagnitude {digits depth : ℕ} {negative : Bool} {s r : List Char} {v : Json}
    (h : scanMagnitude digits negative s = .ok (v, r)) : Within digits depth v := by
  unfold scanMagnitude at h
  split at h
  · cases h
  · next c t =>
    split at h
    · exact within_finishNumber (by simp) (by simp [Char.isDigit]) h
    · split at h
      · next hc =>
        refine within_finishNumber ?_ ?_ h
        · rw [List.span_eq_takeWhile_dropWhile, List.takeWhile_cons, if_pos hc]
          exact List.cons_ne_nil _ _
        · rw [List.span_eq_takeWhile_dropWhile]
          exact fun d hd => List.mem_takeWhile_imp hd
      · cases h

theorem within_scanNumber {digits depth : ℕ} {s r : List Char} {v : Json}
    (h : scanNumber digits s = .ok (v, r)) : Within digits depth v := by
  unfold scanNumber at h
  split at h
  · exact within_scanMagnitude h
  · exact within_scanMagnitude h

/-- A list is nested one level deeper than its items. -/
theorem within_scanArray {digits depth : ℕ} {scan : Scan}
    (hscan : Yields scan (Within digits depth)) :
    Yields (scanArray scan) (Within digits (depth + 1)) := by
  intro s v r h
  unfold scanArray at h
  split at h
  · cases h
    exact ⟨.arr (by simp), rfl⟩
  · obtain ⟨⟨vs, r'⟩, hvs, h⟩ := ok_of_bind h
    cases h
    have hyields := yields_scanItems hscan hvs
    constructor
    · exact .arr fun v hv => (hyields v hv).wellFormed
    · exact excessItems_eq_none_iff.mpr fun v hv => (hyields v hv).excess

theorem within_scanObject {digits depth : ℕ} {scan : Scan}
    (hscan : Yields scan (Within digits depth)) :
    Yields (scanObject scan) (Within digits (depth + 1)) := by
  intro s v r h
  unfold scanObject at h
  split at h
  · cases h
    exact ⟨.obj (by simp) (by simp), rfl⟩
  · obtain ⟨⟨es, r'⟩, hes, h⟩ := ok_of_bind h
    cases h
    have hyields := yields_scanMembers hscan hes
    constructor
    · exact .obj (nodup_ofItems es) fun e he => (hyields e (mem_of_mem_ofItems he)).wellFormed
    · exact excessMembers_eq_none_iff.mpr fun e he => (hyields e (mem_of_mem_ofItems he)).excess

/-- What is nested is read with one level less; a scalar has no level. -/
theorem within_scanTerm {digits depth : ℕ} {inner : Option Scan}
    (hinner : ∀ scan ∈ inner, ∃ depth', depth = depth' + 1 ∧ Yields scan (Within digits depth')) :
    Yields (scanTerm digits inner) (Within digits depth) := by
  intro s v r h
  cases termShape s with
  | string t =>
    rw [scanTerm_string] at h
    cases hscan : scanString t with
    | none =>
      rw [hscan] at h
      cases h
    | some p =>
      rw [hscan] at h
      cases h
      exact ⟨.str _, by cases depth <;> rfl⟩
  -- with no level left for what is inside, nothing is read
  | object t =>
    cases inner with
    | none => cases h
    | some scan =>
      obtain ⟨depth', rfl, hscan⟩ := hinner scan rfl
      exact within_scanObject hscan _ _ _ h
  | array t =>
    cases inner with
    | none => cases h
    | some scan =>
      obtain ⟨depth', rfl, hscan⟩ := hinner scan rfl
      exact within_scanArray hscan _ _ _ h
  | word hv hr heq =>
    rw [heq] at h
    cases h
    cases hv with
    | null => exact ⟨.null, by cases depth <;> rfl⟩
    | bool b => exact ⟨.bool b, by cases depth <;> rfl⟩
    | float x => exact ⟨.float x, by cases depth <;> rfl⟩
  | number heq =>
    rw [heq] at h
    exact within_scanNumber h

theorem yields_scanValue (digits depth : ℕ) :
    Yields (scanValue digits depth) (Within digits depth) := by
  induction depth with
  | zero => exact within_scanTerm nofun
  | succ depth ih =>
    refine within_scanTerm fun scan hscan => ⟨depth, rfl, ?_⟩
    cases hscan
    exact ih

/-- A text is one value with space around it. -/
theorem scanText_ok {scan : Scan} {s : List Char} {v : Json} (h : scanText scan s = .ok v) :
    ∃ r, scan (skipSpace s) = .ok (v, r) ∧ skipSpace r = [] := by
  unfold scanText at h
  split at h
  · cases h
  · obtain ⟨⟨v', r⟩, hv, h⟩ := ok_of_bind h
    dsimp only at h
    split at h
    · next hr =>
      cases h
      exact ⟨r, hv, hr⟩
    · cases h

/-- **What is read is within the limits** of the reader, on digits and on nesting, and
lists each key of an object once. -/
theorem within_of_loads {digits depth : ℕ} {s : List Char} {v : Json}
    (h : loads digits depth s = .ok v) : Within digits depth v := by
  obtain ⟨r, hv, -⟩ := scanText_ok h
  exact yields_scanValue digits depth _ _ _ hv

/-! ## Two scans side by side

Two readers that differ in what stops them: one has higher limits than the other, or
refuses a form the other one reads. Wherever neither difference shows they answer alike,
and the loops over items and members carry this from what is nested to the container. -/

/-- The first result is the second one, unless it is an error of the kind `E`. -/
def Agrees {α : Type} (E : ScanError → Prop) (x y : Except ScanError α) : Prop :=
  x = y ∨ ∃ e, E e ∧ x = .error e

section

variable {E : ScanError → Prop}

theorem Agrees.refl {α : Type} (x : Except ScanError α) : Agrees E x x := .inl rfl

/-- Two chains of reads agree if their parts do. -/
theorem Agrees.bind {α β : Type} {x y : Except ScanError α} {f g : α → Except ScanError β}
    (h : Agrees E x y) (hf : ∀ a, Agrees E (f a) (g a)) : Agrees E (x >>= f) (y >>= g) := by
  rcases h with rfl | ⟨e, he, rfl⟩
  · cases x with
    | error e => exact .refl _
    | ok a => exact hf a
  · exact .inr ⟨e, he, rfl⟩

/-- What the first one has read the second one reads too. -/
theorem Agrees.ok {α : Type} {x y : Except ScanError α} {a : α} (h : Agrees E x y)
    (hx : x = .ok a) : y = .ok a := by
  subst hx
  rcases h with h | ⟨e, -, h⟩
  · exact h.symm
  · cases h

/-- Wherever the one scan meets no error of the kind `E` the other one does the same. -/
def Extends (E : ScanError → Prop) (scan scan' : Scan) : Prop := ∀ s, Agrees E (scan s) (scan' s)

/-- The loop over items agrees with itself under a scanner that reads more. -/
theorem scanItems_mono {scan scan' : Scan} (hscan : Extends E scan scan') (fuel : ℕ)
    (s : List Char) : Agrees E (scanItems scan fuel s) (scanItems scan' fuel s) := by
  induction fuel generalizing s with
  | zero => exact .refl _
  | succ fuel ih =>
    refine (hscan s).bind fun ⟨v, r⟩ => ?_
    dsimp only
    split
    · exact .refl _
    · exact (ih _).bind fun _ => .refl _
    · exact .refl _

theorem scanMember_mono {scan scan' : Scan} (hscan : Extends E scan scan') (s : List Char) :
    Agrees E (scanMember scan s) (scanMember scan' s) := by
  unfold scanMember
  split
  · split
    · exact .refl _
    · split
      · exact (hscan _).bind fun _ => .refl _
      · exact .refl _
  · exact .refl _

theorem scanMembers_mono {scan scan' : Scan} (hscan : Extends E scan scan') (fuel : ℕ)
    (s : List Char) : Agrees E (scanMembers scan fuel s) (scanMembers scan' fuel s) := by
  induction fuel generalizing s with
  | zero => exact .refl _
  | succ fuel ih =>
    refine (scanMember_mono hscan s).bind fun ⟨e, r⟩ => ?_
    dsimp only
    split
    · exact .refl _
    · exact (ih _).bind fun _ => .refl _
    · exact .refl _

theorem scanArray_mono {scan scan' : Scan} (hscan : Extends E scan scan') :
    Extends E (scanArray scan) (scanArray scan') := by
  intro s
  unfold scanArray
  split
  · exact .refl _
  · exact (scanItems_mono hscan _ _).bind fun _ => .refl _

theorem scanObject_mono {scan scan' : Scan} (hscan : Extends E scan scan') :
    Extends E (scanObject scan) (scanObject scan') := by
  intro s
  unfold scanObject
  split
  · exact .refl _
  · exact (scanMembers_mono hscan _ _).bind fun _ => .refl _

end

/-! ## Higher limits -/

/-- An error that says a limit was met. -/
def IsLimit (e : ScanError) : Prop := e ≠ .syntactic

/-- A number that is short enough for the lower limit is short enough for the higher
one. -/
theorem finishNumber_mono {digits digits' : ℕ} (hle : digits ≤ digits') (negative : Bool)
    (ds s : List Char) :
    Agrees IsLimit (finishNumber digits negative ds s) (finishNumber digits' negative ds s) := by
  unfold finishNumber
  dsimp only
  split
  · by_cases hlong : digits < ds.length
    · rw [if_pos hlong]
      exact .inr ⟨.digits, nofun, rfl⟩
    · rw [if_neg hlong, if_neg (show ¬ digits' < ds.length by omega)]
      exact .refl _
  · exact .refl _

theorem scanNumber_mono {digits digits' : ℕ} (hle : digits ≤ digits') :
    Extends IsLimit (scanNumber digits) (scanNumber digits') := by
  -- the sign is read before the limit can matter
  have hmagnitude : ∀ negative s,
      Agrees IsLimit (scanMagnitude digits negative s) (scanMagnitude digits' negative s) := by
    intro negative s
    unfold scanMagnitude
    split
    · exact .refl _
    · split
      · exact finishNumber_mono hle ..
      · split
        · exact finishNumber_mono hle ..
        · exact .refl _
  intro s
  unfold scanNumber
  split <;> exact hmagnitude _ _

/-- A term is read the same way if numbers are, and what is inside is. Where no level is
left, the error has to be one that may differ. -/
theorem scanTerm_mono {E : ScanError → Prop} {digits digits' : ℕ} {inner inner' : Option Scan}
    (hnumber : Extends E (scanNumber digits) (scanNumber digits'))
    (hnone : inner = none → inner' = none ∨ E .depth)
    (hsome : ∀ scan, inner = some scan → ∃ scan', inner' = some scan' ∧ Extends E scan scan') :
    Extends E (scanTerm digits inner) (scanTerm digits' inner') := by
  intro s
  -- by the shape of the text; what is inside an object or a list agrees by assumption
  cases termShape s with
  | string r =>
    rw [scanTerm_string, scanTerm_string]
    exact .refl _
  | object r =>
    cases inner with
    | none =>
      rcases hnone rfl with rfl | hdepth
      · exact .refl _
      · exact .inr ⟨_, hdepth, rfl⟩
    | some scan =>
      obtain ⟨scan', rfl, hscan⟩ := hsome scan rfl
      exact scanObject_mono hscan _
  | array r =>
    cases inner with
    | none =>
      rcases hnone rfl with rfl | hdepth
      · exact .refl _
      · exact .inr ⟨_, hdepth, rfl⟩
    | some scan =>
      obtain ⟨scan', rfl, hscan⟩ := hsome scan rfl
      exact scanArray_mono hscan _
  | word hv hr heq =>
    rw [heq, heq]
    exact .refl _
  | number heq =>
    rw [heq, heq]
    exact hnumber s

theorem scanText_mono {E : ScanError → Prop} {scan scan' : Scan} (hscan : Extends E scan scan')
    (s : List Char) : Agrees E (scanText scan s) (scanText scan' s) := by
  unfold scanText
  split
  · exact .refl _
  · exact (hscan _).bind fun _ => .refl _

theorem scanValue_mono {digits digits' depth depth' : ℕ} (hdigits : digits ≤ digits')
    (hdepth : depth ≤ depth') :
    Extends IsLimit (scanValue digits depth) (scanValue digits' depth') := by
  have hnumber := scanNumber_mono hdigits
  induction depth generalizing depth' with
  | zero => cases depth' <;> exact scanTerm_mono hnumber (fun _ => .inr nofun) nofun
  | succ depth ih =>
    cases depth' with
    | zero => cases hdepth
    | succ depth' =>
      refine scanTerm_mono hnumber nofun fun scan hscan => ⟨scanValue digits' depth', rfl, ?_⟩
      cases hscan
      exact ih (Nat.le_of_succ_le_succ hdepth)

/-- **Higher limits.** They change nothing where no limit is met: either both readers
answer the same, or the one with the lower limits fails because of a limit. -/
theorem loads_mono {digits digits' depth depth' : ℕ} (hdigits : digits ≤ digits')
    (hdepth : depth ≤ depth') (s : List Char) :
    Agrees IsLimit (loads digits depth s) (loads digits' depth' s) :=
  scanText_mono (scanValue_mono hdigits hdepth) s

/-- A text is read in one way, whatever the limits it is read under. -/
theorem loads_unique {digits digits' depth depth' : ℕ} {s : List Char} {v v' : Json}
    (h : loads digits depth s = .ok v) (h' : loads digits' depth' s = .ok v') : v = v' := by
  have hmax := (loads_mono (le_max_left digits digits') (le_max_left depth depth') s).ok h
  have hmax' := (loads_mono (le_max_right digits digits') (le_max_right depth depth') s).ok h'
  exact Except.ok.inj (hmax.symm.trans hmax')

/-- What is refused before a limit is met is no JSON under any limits. -/
theorem loads_ne_ok_of_syntactic {digits digits' depth depth' : ℕ} {s : List Char}
    (h : loads digits depth s = .error .syntactic) (v : Json) : loads digits' depth' s ≠ .ok v := by
  intro h'
  have hmax := (loads_mono (le_max_right digits digits') (le_max_right depth depth') s).ok h'
  rcases loads_mono (le_max_left digits digits') (le_max_left depth depth') s with hl | ⟨e, he, hl⟩
  · rw [hmax, h] at hl
    cases hl
  · rw [h] at hl
    cases hl
    exact he rfl

/-- **Reading what was written.** The text of a value is read back exactly where its
nesting is within the limit; nothing else can be read from it. -/
theorem loads_written_iff {digits depth : ℕ} {v v' : Json} {cs : List Char} (hv : v.WellFormed)
    (hshort : v.Short digits) (hcs : Text.toChars? (write v) = some cs) :
    loads digits depth cs = .ok v' ↔ v' = v ∧ v.nesting ≤ depth := by
  have hread : ∀ depth, v.nesting ≤ depth → loads digits depth cs = .ok v := by
    intro depth hle
    have hnone := hshort.excess_eq_none_iff.mpr hle
    have hdumps : dumps digits depth v = .ok (write v) := by
      unfold dumps
      rw [hnone]
    exact loads_dumps hv le_rfl hdumps hcs
  constructor
  · intro h
    -- read under both limits it is the same value, and that one is `v`
    have hmax := (loads_mono le_rfl (Nat.le_max_left depth v.nesting) cs).ok h
    rw [hread _ (Nat.le_max_right depth v.nesting)] at hmax
    cases hmax
    exact ⟨rfl, nesting_le_of_excess (within_of_loads h).excess⟩
  · rintro ⟨rfl, hle⟩
    exact hread depth hle

/-! ## Surrogates -/

mutual

/-- The strings in a value, and its keys. -/
def texts : Json → List Text
  | .str s => [s]
  | .arr vs => textsItems vs
  | .obj es => textsMembers es
  | _ => []

def textsItems : List Json → List Text
  | [] => []
  | v :: vs => texts v ++ textsItems vs

def textsMembers : List (Text × Json) → List Text
  | [] => []
  | (k, v) :: es => k :: (texts v ++ textsMembers es)

end

/-- No string in the value has a surrogate. -/
def Encodable (v : Json) : Prop := ∀ t ∈ v.texts, ∀ c ∈ t, c.isSurrogate = false

theorem toChars?_escape_eq_none_iff {c : CodePoint} :
    Text.toChars? (escape c) = none ↔ c.isSurrogate = true := by
  unfold escape
  cases hc : c.toChar? with
  | none => simp [Text.toChars?_eq_none_iff]
  | some ch =>
    rw [← CodePoint.toChar?_eq_none_iff, hc]
    simp

/-- A text can be encoded if both its parts can. -/
theorem toChars?_append_ne_none_iff {s t : Text} :
    Text.toChars? (s ++ t) ≠ none ↔ s.toChars? ≠ none ∧ t.toChars? ≠ none := by
  rw [Text.toChars?_append]
  cases s.toChars? <;> cases t.toChars? <;> simp

/-- A string can be written and encoded unless it has a surrogate in it. Quotes and
escapes are ASCII. -/
theorem toChars?_writeString_ne_none_iff {s : Text} :
    Text.toChars? (writeString s) ≠ none ↔ ∀ c ∈ s, c.isSurrogate = false := by
  rw [writeString, toChars?_append_ne_none_iff, toChars?_append_ne_none_iff]
  simp only [Text.toChars?_ofChars, ne_eq, reduceCtorEq, not_false_iff, true_and, and_true]
  induction s with
  | nil => simp
  | cons c s ih =>
    rw [List.flatMap_cons, ← ne_eq, toChars?_append_ne_none_iff, ne_eq,
      toChars?_escape_eq_none_iff, ne_eq, ih]
    simp

theorem encodable_arr_iff {vs : List Json} : (arr vs).Encodable ↔ ∀ v ∈ vs, v.Encodable := by
  unfold Encodable
  rw [texts]
  induction vs with
  | nil => simp [textsItems]
  | cons v vs ih => simp only [textsItems, List.mem_append, or_imp, forall_and, ih,
      List.forall_mem_cons]

theorem encodable_obj_iff {es : List (Text × Json)} :
    (obj es).Encodable ↔ ∀ e ∈ es, (∀ c ∈ e.1, c.isSurrogate = false) ∧ e.2.Encodable := by
  unfold Encodable
  rw [texts]
  induction es with
  | nil => simp [textsMembers]
  | cons e es ih =>
    obtain ⟨k, v⟩ := e
    simp only [textsMembers, List.forall_mem_cons, List.mem_append, or_imp, forall_and, ih,
      and_assoc, and_left_comm]

theorem toChars?_writeItems_ne_none_iff {vs : List Json}
    (h : ∀ v ∈ vs, Text.toChars? (write v) ≠ none ↔ v.Encodable) :
    Text.toChars? (writeItems vs) ≠ none ↔ ∀ v ∈ vs, v.Encodable := by
  induction vs with
  | nil => simp [writeItems]
  | cons v vs ih =>
    rw [List.forall_mem_cons] at h ⊢
    rw [writeItems, toChars?_append_ne_none_iff, toChars?_append_ne_none_iff, h.1, ih h.2]
    exact and_iff_right (by decide)

theorem toChars?_writeMembers_ne_none_iff {es : List (Text × Json)}
    (h : ∀ e ∈ es, Text.toChars? (write e.2) ≠ none ↔ e.2.Encodable) :
    Text.toChars? (writeMembers es) ≠ none ↔
      ∀ e ∈ es, (∀ c ∈ e.1, c.isSurrogate = false) ∧ e.2.Encodable := by
  induction es with
  | nil => simp [writeMembers]
  | cons e es ih =>
    obtain ⟨k, v⟩ := e
    rw [List.forall_mem_cons] at h ⊢
    rw [writeMembers]
    simp only [toChars?_append_ne_none_iff, toChars?_writeString_ne_none_iff, h.1, ih h.2,
      and_assoc]
    have hsep : (Text.ofString ", ").toChars? ≠ none ∧ (Text.ofString ": ").toChars? ≠ none := by
      decide
    rw [and_iff_right hsep.1, and_iff_right hsep.2]

/-- **Encoding.** Only surrogates keep the text of a value from being encoded, in its
strings or in the keys of its objects. -/
theorem toChars?_write_ne_none_iff {v : Json} :
    Text.toChars? (write v) ≠ none ↔ v.Encodable := by
  induction v using ind with
  | null | int | float =>
    exact iff_of_true (by simp [write, Text.ofString]) (by simp [Encodable, texts])
  | bool b =>
    cases b <;> exact iff_of_true (by simp [write, Text.ofString]) (by simp [Encodable, texts])
  | str s =>
    rw [write, toChars?_writeString_ne_none_iff]
    simp [Encodable, texts]
  | arr vs ih =>
    rw [encodable_arr_iff]
    cases vs with
    | nil => simp [write, Text.ofString]
    | cons v vs =>
      rw [List.forall_mem_cons] at ih ⊢
      rw [write, toChars?_append_ne_none_iff, toChars?_append_ne_none_iff, ih.1,
        toChars?_writeItems_ne_none_iff ih.2]
      exact and_iff_right (by decide)
  | obj es ih =>
    rw [encodable_obj_iff]
    cases es with
    | nil => simp [write, Text.ofString]
    | cons e es =>
      obtain ⟨k, v⟩ := e
      rw [List.forall_mem_cons] at ih ⊢
      rw [write]
      simp only [toChars?_append_ne_none_iff, toChars?_writeString_ne_none_iff, ih.1,
        toChars?_writeMembers_ne_none_iff ih.2, and_assoc]
      have hsep : (Text.ofChars ['{']).toChars? ≠ none ∧ (Text.ofString ": ").toChars? ≠ none := by
        decide
      -- the punctuation is no obstacle
      rw [and_iff_right hsep.1, and_iff_right hsep.2]

end Json

end InferenceGateway.Lib
