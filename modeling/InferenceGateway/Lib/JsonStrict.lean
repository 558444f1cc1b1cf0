import InferenceGateway.Lib.JsonLimits

/-!
# JSON by its grammar alone

The scanner behind `json.loads` reads three names that are no JSON, `NaN`,
`Infinity` and `-Infinity`. `loadsStrict` refuses them and is the same scanner
otherwise, so that it reads every JSON text and nothing else. As there, a number
with a point or an exponent is rounded to binary64, and one that is too large
becomes an infinity, whose name the writer then puts into its text.

- `loads_of_loadsStrict`: what it reads is read as the same value by `loads`.
- `loadsStrict_written_iff`: what is written is JSON exactly where every float
  in it is finite, and then it is read back.

One half of the last is the round trip once more, with a scanner that is
stricter. The other half is about a scanner that gets through: `Passes` carries
from the text of a container to the texts of what is in it, down to the float
whose name is refused.
-/

namespace InferenceGateway.Lib

namespace Json

/-- `scanTerm` without the names of the floats that are not finite. -/
def strictTerm (digits : ℕ) (inner : Option Scan) (s : List Char) :
    Except ScanError (Json × List Char) :=
  match s with
  | 'N' :: 'a' :: 'N' :: _ => .error .syntactic
  | 'I' :: 'n' :: 'f' :: 'i' :: 'n' :: 'i' :: 't' :: 'y' :: _ => .error .syntactic
  | '-' :: 'I' :: 'n' :: 'f' :: 'i' :: 'n' :: 'i' :: 't' :: 'y' :: _ => .error .syntactic
  | s => scanTerm digits inner s

def strictValue (digits : ℕ) : ℕ → Scan
  | 0 => strictTerm digits none
  | depth + 1 => strictTerm digits (some (strictValue digits depth))

/-- The value of a JSON text. -/
def loadsStrict (digits depth : ℕ) (s : List Char) : Except ScanError Json :=
  scanText (strictValue digits depth) s

/-- Every float in the value is finite. -/
inductive AllFinite : Json → Prop where
  | null : AllFinite .null
  | bool (b : Bool) : AllFinite (.bool b)
  | int (n : ℤ) : AllFinite (.int n)
  | float (negative : Bool) (mag : Magnitude) : AllFinite (.float (.finite negative mag))
  | str (s : Text) : AllFinite (.str s)
  | arr {vs : List Json} (h : ∀ v ∈ vs, AllFinite v) : AllFinite (.arr vs)
  | obj {es : List (Text × Json)} (h : ∀ e ∈ es, AllFinite e.2) : AllFinite (.obj es)

/-- At every depth the strict scan of a value is one of a term. -/
theorem strictValue_eq (digits depth : ℕ) :
    ∃ inner, strictValue digits depth = strictTerm digits inner := by
  cases depth with
  | zero => exact ⟨none, rfl⟩
  | succ depth => exact ⟨some (strictValue digits depth), rfl⟩

/-- The two differ only where the lenient scanner reads a float that is not finite. -/
theorem strictTerm_cases (digits : ℕ) (inner : Option Scan) (s : List Char) :
    strictTerm digits inner s = scanTerm digits inner s ∨
      (strictTerm digits inner s = .error .syntactic ∧
        ∃ x r, scanTerm digits inner s = .ok (.float x, r) ∧ ¬ AllFinite (.float x)) := by
  unfold strictTerm
  split
  · exact .inr ⟨rfl, _, _, rfl, nofun⟩
  · exact .inr ⟨rfl, _, _, rfl, nofun⟩
  · exact .inr ⟨rfl, _, _, rfl, nofun⟩
  · exact .inl rfl

/-! ## Nothing more is read -/

/-- An error that says the text is no JSON. -/
def IsSyntactic (e : ScanError) : Prop := e = .syntactic

/-- Whatever the strict scan of a term reads the lenient one reads too, if that holds of
what is nested in it. -/
theorem extends_strictTerm {digits : ℕ} {inner inner' : Option Scan}
    (hnone : inner = none → inner' = none)
    (hsome : ∀ scan, inner = some scan → ∃ scan', inner' = some scan' ∧
      Extends IsSyntactic scan scan') :
    Extends IsSyntactic (strictTerm digits inner) (scanTerm digits inner') := by
  intro s
  have hterm : Agrees IsSyntactic (scanTerm digits inner s) (scanTerm digits inner' s) :=
    scanTerm_mono (fun _ => .refl _) (fun h => .inl (hnone h)) hsome s
  rcases strictTerm_cases digits inner s with heq | ⟨hrefused, -⟩
  · rw [heq]
    exact hterm
  · exact .inr ⟨_, rfl, hrefused⟩

theorem extends_strictValue (digits depth : ℕ) :
    Extends IsSyntactic (strictValue digits depth) (scanValue digits depth) := by
  induction depth with
  | zero => exact extends_strictTerm (fun _ => rfl) nofun
  | succ depth ih =>
    refine extends_strictTerm nofun fun scan hscan => ⟨scanValue digits depth, rfl, ?_⟩
    cases hscan
    exact ih

/-- **JSON is read by `json.loads`**, as the value that it is: the strict reader only
refuses, and where it does not the lenient one agrees. -/
theorem loads_of_loadsStrict {digits depth : ℕ} {s : List Char} {v : Json}
    (h : loadsStrict digits depth s = .ok v) : loads digits depth s = .ok v :=
  (scanText_mono (extends_strictValue digits depth) s).ok h

/-! ## Finite values are read back -/

/-- A written value that is no nameless float is read back without the names too. -/
theorem Reads.strict {digits : ℕ} {inner : Option Scan} {v : Json}
    (h : Reads (scanTerm digits inner) v) (hv : ∀ x, v = .float x → AllFinite v) :
    Reads (strictTerm digits inner) v := by
  intro cs rest hcs hrest
  have hread := h cs rest hcs hrest
  rcases strictTerm_cases digits inner (cs ++ rest) with heq | ⟨-, x, r, hfloat, hnot⟩
  · rw [heq, hread]
  · rw [hread] at hfloat
    cases hfloat
    exact absurd (hv x rfl) hnot

/-- A value that is within the limits and finite is read back by the strict reader,
since none of the three names is written for it. -/
theorem strictValue_write {digits : ℕ} {v : Json} (hv : v.WellFormed) {depth : ℕ}
    (h : excess digits depth v = none) (hfinite : v.AllFinite) :
    Reads (strictValue digits depth) v := by
  -- on the value; a strict reader reads what a lenient one does unless it meets a float that
  -- is not finite
  induction v using ind generalizing depth with
  | null | bool | float | str =>
    obtain ⟨inner, hinner⟩ := strictValue_eq digits depth
    rw [hinner]
    refine (reads_scanTerm hv ?_ ?_ ?_).strict fun _ _ => hfinite <;> rintro _ ⟨⟩
  | int n =>
    have hdigits : (Nat.toDigits 10 n.natAbs).length ≤ digits := by
      cases depth <;> simpa [excess] using h
    obtain ⟨inner, hinner⟩ := strictValue_eq digits depth
    rw [hinner]
    refine (reads_scanTerm hv ?_ ?_ ?_).strict ?_ <;> rintro _ ⟨⟩
    exact hdigits
  | arr vs ih =>
    cases hv with
    | arr hv =>
      cases hfinite with
      | arr hfinite =>
        cases depth with
        | zero => cases h
        | succ depth =>
          rw [excess, excessItems_eq_none_iff] at h
          refine Reads.strict (reads_scanTerm (.arr hv) ?_ ?_ ?_) ?_ <;> rintro _ ⟨⟩
          refine ⟨_, rfl, fun v hmem => ?_⟩
          exact ih v hmem (hv v hmem) (h v hmem) (hfinite v hmem)
  | obj es ih =>
    cases hv with
    | obj hkeys hv =>
      cases hfinite with
      | obj hfinite =>
        cases depth with
        | zero => cases h
        | succ depth =>
          rw [excess, excessMembers_eq_none_iff] at h
          refine Reads.strict (reads_scanTerm (.obj hkeys hv) ?_ ?_ ?_) ?_ <;> rintro _ ⟨⟩
          refine ⟨_, rfl, fun e hmem => ?_⟩
          exact ih e hmem (hv e hmem) (h e hmem) (hfinite e hmem)

/-! ## Other values are not

A scan that refuses more than another one, and the other reads back what is written: where
the first gets through a written container, it has read the text of every value in it. -/

/-- The scan gets through the text of the value in some place. -/
def Passes (scan : Scan) (v : Json) : Prop :=
  ∃ cs rest p, Text.toChars? (write v) = some cs ∧ Stops rest ∧ scan (cs ++ rest) = .ok p

section

variable {scan full : Scan} {E : ScanError → Prop}

/-- A loop over items that is got through has read the text of every item. By induction
on the items, along with what is written of them. -/
theorem passes_scanItems (hext : Extends E scan full) {vs : List Json}
    (hfull : ∀ u ∈ vs, Reads full u) {v : Json} (hv : Reads full v) {cs₁ cs₂ rest : List Char}
    {fuel : ℕ} {p : List Json × List Char} (h₁ : Text.toChars? (write v) = some cs₁)
    (h₂ : Text.toChars? (writeItems vs) = some cs₂)
    (hok : scanItems scan fuel (cs₁ ++ (cs₂ ++ rest)) = .ok p) : ∀ u ∈ v :: vs, Passes scan u := by
  induction vs generalizing v cs₁ cs₂ fuel p with
  | nil =>
    cases fuel with
    | zero => cases hok
    | succ fuel =>
      obtain ⟨q, hq, -⟩ := ok_of_bind hok
      rcases writeItems_cases h₂ with ⟨-, rfl⟩ | ⟨_, _, _, _, heq, _⟩
      · exact List.forall_mem_singleton.mpr ⟨cs₁, _, q, h₁, stops_of_head (by decide), hq⟩
      · cases heq
  | cons v' vs ih =>
    cases fuel with
    | zero => cases hok
    | succ fuel =>
      obtain ⟨q, hq, hok⟩ := ok_of_bind hok
      rcases writeItems_cases h₂ with ⟨heq, -⟩ | ⟨_, _, cs₃, cs₄, heq, rfl, h₃, h₄⟩
      · cases heq
      · cases heq
        have hstops : Stops (',' :: ' ' :: (cs₃ ++ (cs₄ ++ rest))) := stops_of_head (by decide)
        have hassoc : ',' :: ' ' :: (cs₃ ++ cs₄) ++ rest =
          ',' :: ' ' :: (cs₃ ++ (cs₄ ++ rest)) := by
          simp
        have hskip : skipSpace (' ' :: (cs₃ ++ (cs₄ ++ rest))) = cs₃ ++ (cs₄ ++ rest) :=
          skipSpace_of_starts (starts_write h₃) (cs₄ ++ rest)
        rw [hassoc] at hq
        -- the full scan says what is left behind the first item
        have hsame := (hext _).ok hq
        rw [hv cs₁ _ h₁ hstops] at hsame
        cases hsame
        obtain ⟨q', hq', -⟩ := ok_of_bind hok
        rw [hskip] at hq'
        have hrest := ih (fun u hu => hfull u (List.mem_cons_of_mem _ hu))
          (hfull v' List.mem_cons_self) h₃ h₄ hq'
        exact List.forall_mem_cons.mpr ⟨⟨cs₁, _, _, h₁, hstops, hq⟩, hrest⟩

/-- A member's key and colon, and its value. -/
theorem passes_scanMember (hext : Extends E scan full) {k : Text} {v : Json}
    (hv : Reads full v) {cs₀ cs₁ rest : List Char} {p : (Text × Json) × List Char}
    (h₀ : Text.toChars? (writeString k) = some cs₀) (h₁ : Text.toChars? (write v) = some cs₁)
    (hrest : Stops rest) (hok : scanMember scan (cs₀ ++ ':' :: ' ' :: (cs₁ ++ rest)) = .ok p) :
    Passes scan v ∧ p = ((k, v), rest) := by
  have hsame := (scanMember_mono hext _).ok hok
  rw [scanMember_written hv h₀ h₁ hrest] at hsame
  cases hsame
  refine ⟨?_, rfl⟩
  obtain ⟨r, rfl, hr⟩ := scanString_written h₀
  have hskip : skipSpace (' ' :: (cs₁ ++ rest)) = cs₁ ++ rest :=
    skipSpace_of_starts (starts_write h₁) rest
  simp only [List.cons_append, scanMember, hr] at hok
  obtain ⟨q, hq, -⟩ := ok_of_bind (show scan (skipSpace (' ' :: (cs₁ ++ rest))) >>= _ = _ from hok)
  rw [hskip] at hq
  exact ⟨cs₁, rest, q, h₁, hrest, hq⟩

/-- A loop over members that is got through has read the text of every value. As for
items. -/
theorem passes_scanMembers (hext : Extends E scan full) {es : List (Text × Json)}
    (hfull : ∀ e ∈ es, Reads full e.2) {k : Text} {v : Json} (hv : Reads full v)
    {cs₀ cs₁ cs₂ rest : List Char} {fuel : ℕ} {p : List (Text × Json) × List Char}
    (h₀ : Text.toChars? (writeString k) = some cs₀) (h₁ : Text.toChars? (write v) = some cs₁)
    (h₂ : Text.toChars? (writeMembers es) = some cs₂)
    (hok : scanMembers scan fuel (cs₀ ++ ':' :: ' ' :: (cs₁ ++ (cs₂ ++ rest))) = .ok p) :
    ∀ e ∈ (k, v) :: es, Passes scan e.2 := by
  -- on the members after the first, one unit of fuel for each
  induction es generalizing k v cs₀ cs₁ cs₂ fuel p with
  | nil =>
    cases fuel with
    | zero => cases hok
    | succ fuel =>
      obtain ⟨q, hq, -⟩ := ok_of_bind hok
      rcases writeMembers_cases h₂ with ⟨-, rfl⟩ | ⟨_, _, _, _, _, _, heq, _⟩
      · have hstops : Stops ('}' :: rest) := stops_of_head (by decide)
        exact List.forall_mem_singleton.mpr (passes_scanMember hext hv h₀ h₁ hstops hq).1
      · cases heq
  | cons e es ih =>
    cases fuel with
    | zero => cases hok
    | succ fuel =>
      obtain ⟨q, hq, hok⟩ := ok_of_bind hok
      rcases writeMembers_cases h₂ with ⟨heq, -⟩ | ⟨k', v', _, cs₃, cs₄, cs₅, heq, rfl, h₃, h₄, h₅⟩
      · cases heq
      · cases heq
        have hstops : Stops (',' :: ' ' :: (cs₃ ++ ':' :: ' ' :: (cs₄ ++ (cs₅ ++ rest)))) :=
          stops_of_head (by decide)
        -- the text of the next member begins after the comma and a blank
        have hassoc : ',' :: ' ' :: (cs₃ ++ ':' :: ' ' :: (cs₄ ++ cs₅)) ++ rest =
            ',' :: ' ' :: (cs₃ ++ ':' :: ' ' :: (cs₄ ++ (cs₅ ++ rest))) := by simp
        rw [hassoc] at hq
        obtain ⟨hpasses, rfl⟩ := passes_scanMember hext hv h₀ h₁ hstops hq
        obtain ⟨q', hq', -⟩ := ok_of_bind hok
        have hskip : skipSpace (' ' :: (cs₃ ++ ':' :: ' ' :: (cs₄ ++ (cs₅ ++ rest)))) =
            cs₃ ++ ':' :: ' ' :: (cs₄ ++ (cs₅ ++ rest)) := skipSpace_writeString h₃ _
        rw [hskip] at hq'
        have hrest := ih (fun u hu => hfull u (List.mem_cons_of_mem _ hu))
          (hfull (k', v') List.mem_cons_self) h₃ h₄ h₅ hq'
        exact List.forall_mem_cons.mpr ⟨hpasses, hrest⟩

/-- A list that is got through has been read item by item. -/
theorem passes_scanArray (hext : Extends E scan full) {vs : List Json}
    (hfull : ∀ u ∈ vs, Reads full u) {cs rest : List Char} {p : Json × List Char}
    (hcs : Text.toChars? (write (.arr vs)) = some ('[' :: cs))
    (hok : scanArray scan (cs ++ rest) = .ok p) : ∀ u ∈ vs, Passes scan u := by
  -- the bracket is read first, then the items
  cases vs with
  | nil => exact List.forall_mem_nil _
  | cons v vs =>
    rw [write] at hcs
    obtain ⟨_, r, hopen, hr, heq⟩ := Text.toChars?_append_eq_some.mp hcs
    obtain ⟨cs₁, cs₂, h₁, h₂, rfl⟩ := Text.toChars?_append_eq_some.mp hr
    cases hopen
    obtain rfl : cs = cs₁ ++ cs₂ := (List.cons.inj heq).2
    rw [List.append_assoc] at hok
    have hskip : skipSpace (cs₁ ++ (cs₂ ++ rest)) = cs₁ ++ (cs₂ ++ rest) :=
      skipSpace_of_starts (starts_write h₁) _
    obtain ⟨c, t, rfl, -, hclose, -⟩ := (starts_write h₁).head
    unfold scanArray at hok
    rw [hskip] at hok
    split at hok
    · -- an item does not start with the closing bracket
      next heq => exact absurd (List.cons.inj heq).1 hclose
    · obtain ⟨q, hq, -⟩ := ok_of_bind hok
      exact passes_scanItems hext (fun u hu => hfull u (List.mem_cons_of_mem _ hu))
        (hfull v List.mem_cons_self) h₁ h₂ hq

/-- An object that is got through has been read member by member. -/
theorem passes_scanObject (hext : Extends E scan full) {es : List (Text × Json)}
    (hfull : ∀ e ∈ es, Reads full e.2) {cs rest : List Char} {p : Json × List Char}
    (hcs : Text.toChars? (write (.obj es)) = some ('\x7b' :: cs))
    (hok : scanObject scan (cs ++ rest) = .ok p) : ∀ e ∈ es, Passes scan e.2 := by
  cases es with
  | nil => exact List.forall_mem_nil _
  | cons e es =>
    obtain ⟨k, v⟩ := e
    rw [write] at hcs
    obtain ⟨_, r, hopen, hr, heq⟩ := Text.toChars?_append_eq_some.mp hcs
    obtain ⟨cs₀, cs₁, cs₂, h₀, h₁, h₂, rfl⟩ := toChars?_member hr
    cases hopen
    obtain rfl : cs = cs₀ ++ ':' :: ' ' :: (cs₁ ++ cs₂) := (List.cons.inj heq).2
    have htext : cs₀ ++ ':' :: ' ' :: (cs₁ ++ cs₂) ++ rest =
        cs₀ ++ ':' :: ' ' :: (cs₁ ++ (cs₂ ++ rest)) := by
      simp only [List.append_assoc, List.cons_append]
    have hskip := skipSpace_writeString h₀ (':' :: ' ' :: (cs₁ ++ (cs₂ ++ rest)))
    rw [htext] at hok
    obtain ⟨t, rfl, -⟩ := scanString_written h₀
    unfold scanObject at hok
    rw [hskip] at hok
    split at hok
    · -- a key starts with its quote, not with the closing brace
      next heq => exact absurd (List.cons.inj heq).1 (by decide)
    · obtain ⟨q, hq, -⟩ := ok_of_bind hok
      exact passes_scanMembers hext (fun f hf => hfull f (List.mem_cons_of_mem _ hf))
        (hfull _ List.mem_cons_self) h₀ h₁ h₂ hq

end

/-- What the strict scan gets through in the text of a value has no name in it. By induction
on the value: a float by its text, a container by what is in it. -/
theorem allFinite_of_passes {digits : ℕ} {v : Json} (hv : v.WellFormed) {depth : ℕ}
    (h : excess digits depth v = none) (hpasses : Passes (strictValue digits depth) v) :
    v.AllFinite := by
  -- on the value; a float that is not finite is a word the strict reader does not know
  induction v using ind generalizing depth with
  | null => exact .null
  | bool b => exact .bool b
  | int n => exact .int n
  | str s => exact .str s
  | float x =>
    obtain ⟨cs, rest, p, hcs, -, hok⟩ := hpasses
    simp only [write, Text.toChars?_ofChars, Option.some.injEq] at hcs
    obtain rfl := hcs
    obtain ⟨inner, hinner⟩ := strictValue_eq digits depth
    rw [hinner] at hok
    cases x with
    | nan => cases hok
    | infinity negative => cases negative <;> cases hok
    | finite negative mag => exact .float negative mag
  | arr vs ih =>
    obtain ⟨cs, rest, p, hcs, -, hok⟩ := hpasses
    cases hv with
    | arr hv =>
      cases depth with
      | zero => cases h
      | succ depth =>
        rw [excess, excessItems_eq_none_iff] at h
        have hfull : ∀ u ∈ vs, Reads (scanValue digits depth) u := fun u hu =>
          scanValue_write (hv u hu) (h u hu)
        obtain ⟨r, rfl, -⟩ := scanArray_written hfull hcs
        have hitems := passes_scanArray (extends_strictValue digits depth) hfull hcs hok
        exact .arr fun u hu => ih u hu (hv u hu) (h u hu) (hitems u hu)
  | obj es ih =>
    obtain ⟨cs, rest, p, hcs, -, hok⟩ := hpasses
    cases hv with
    | obj hkeys hv =>
      cases depth with
      | zero => cases h
      | succ depth =>
        rw [excess, excessMembers_eq_none_iff] at h
        have hfull : ∀ e ∈ es, Reads (scanValue digits depth) e.2 := fun e he =>
          scanValue_write (hv e he) (h e he)
        obtain ⟨r, rfl, -⟩ := scanObject_written hkeys hfull hcs
        have hmembers := passes_scanObject (extends_strictValue digits depth) hfull hcs hok
        exact .obj fun e he => ih e he (hv e he) (h e he) (hmembers e he)

/-- **When what is written is JSON.** The text of a value is JSON exactly where every float in
it is finite, and it is read back as that value within the limit on nesting. -/
theorem loadsStrict_written_iff {digits depth : ℕ} {v v' : Json} {cs : List Char}
    (hv : v.WellFormed) (hshort : v.Short digits) (hcs : Text.toChars? (write v) = some cs) :
    loadsStrict digits depth cs = .ok v' ↔ v' = v ∧ v.nesting ≤ depth ∧ v.AllFinite := by
  constructor
  · intro h
    obtain ⟨rfl, hle⟩ := (loads_written_iff hv hshort hcs).mp (loads_of_loadsStrict h)
    obtain ⟨r, hr, -⟩ := scanText_ok h
    have hskip := skipSpace_of_starts (starts_write hcs) []
    rw [List.append_nil] at hskip
    rw [hskip] at hr
    have hpasses : Passes (strictValue digits depth) v' :=
      ⟨cs, [], (v', r), hcs, stops_nil, by rw [List.append_nil, hr]⟩
    exact ⟨rfl, hle, allFinite_of_passes hv (hshort.excess_eq_none_iff.mpr hle) hpasses⟩
  · rintro ⟨rfl, hle, hfinite⟩
    exact scanText_written (strictValue_write hv (hshort.excess_eq_none_iff.mpr hle) hfinite) hcs

end Json

end InferenceGateway.Lib
