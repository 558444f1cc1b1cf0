import InferenceGateway.Lib.JsonNumbers

/-!
# What is written is read back

The writer and the scanner are two programs with nothing in common, and this
file is about the one composed with the other. Everything is stated for a text
in front of any rest, since that is how a value is read that is nested in
another one.

- `scanString_escapes`: strings, with every escape the writer uses.
- `scanItems_written`, `scanMembers_written`: the loops over items and members,
  by induction on what is written, with fuel for each item.
- `reads_scanTerm`: a value of either kind, if what is nested in it is read
  back.
- `scanValue_write`: every value within the limits, whatever follows it. The
  only thing asked of what follows is that it stops a number (`Stops`).
- `loads_dumps`: a value that was written and could be encoded is read back as
  it was, if reading may recurse as deeply as writing.

The induction over values and what is nested in them, `ind`, is here too.
-/

namespace InferenceGateway.Lib

namespace Json

/-! ## Strings -/

theorem ofChar_val (c : Char) : (CodePoint.ofChar c).val = c.toNat := rfl

/-- A control character as it is escaped. -/
theorem hex4?_control {c : Char} (h : c.toNat < 0x20) :
    hex4? '0' '0' (Nat.digitChar (c.toNat / 16)) (Nat.digitChar (c.toNat % 16)) =
      some ⟨c.toNat, by omega⟩ := by
  have hall : ∀ n < 0x20, (hex4? '0' '0' (Nat.digitChar (n / 16)) (Nat.digitChar (n % 16))).map
      Fin.val = some n := by decide
  obtain ⟨n, hn, hval⟩ := Option.map_eq_some_iff.mp (hall c.toNat h)
  rw [hn, Option.some.injEq]
  exact Fin.ext hval

theorem unescape?_shortEscape? {c e : Char} (h : shortEscape? c = some e) :
    e ≠ 'u' ∧ unescape? e = some c := by
  unfold shortEscape? at h
  split at h <;> cases h <;> exact ⟨by decide, rfl⟩

/-- A character that no short escape stands for is neither a quote nor a backslash. -/
theorem ne_of_shortEscape? {c : Char} (h : shortEscape? c = none) : c ≠ '"' ∧ c ≠ '\\' := by
  constructor
  · rintro rfl
    cases h
  · rintro rfl
    cases h

/-- One character, however it is escaped: by a letter, by four digits, or not at all. -/
theorem scanString_escapeOf (c : Char) (r : List Char) :
    scanString (escapeOf c ++ r) = (scanString r).map fun (s, r) => (.ofChar c :: s, r) := by
  unfold escapeOf
  cases hshort : shortEscape? c with
  | some e =>
    obtain ⟨hu, he⟩ := unescape?_shortEscape? hshort
    simp only [List.cons_append, List.nil_append]
    rw [scanString.eq_def]
    simp [hu, he]
  | none =>
    obtain ⟨hquote, hbackslash⟩ := ne_of_shortEscape? hshort
    -- a short escape, an escape with four digits, or the character itself
    by_cases hcontrol : c.toNat < 0x20
    · have hunit : unit ⟨c.toNat, by omega⟩ = CodePoint.ofChar c := Fin.ext rfl
      have hlow : ¬ 0xD800 ≤ c.toNat := by omega
      have hhigh : (CodePoint.ofChar c).isHigh = false := by
        simp [CodePoint.isHigh, ofChar_val, hlow]
      simp only [hcontrol, if_true, List.cons_append, List.nil_append]
      rw [scanString.eq_def]
      simp [hex4?_control hcontrol, hunit, hhigh]
    · simp only [hcontrol, if_false, List.cons_append, List.nil_append]
      rw [scanString.eq_def]
      simp [hquote, hbackslash, hcontrol]

/-- The characters of a string. -/
theorem scanString_escapes (cs r : List Char) :
    scanString (cs.flatMap escapeOf ++ '"' :: r) = some (.ofChars cs, r) := by
  induction cs with
  | nil =>
    rw [List.flatMap_nil, List.nil_append, scanString.eq_def]
    rfl
  | cons c cs ih =>
    rw [List.flatMap_cons, List.append_assoc, scanString_escapeOf, ih]
    rfl

/-- The escapes of a text that can be encoded. -/
theorem toChars?_escapes {s : Text} {cs : List Char}
    (h : Text.toChars? (s.flatMap escape) = some cs) :
    ∃ chars, s = .ofChars chars ∧ cs = chars.flatMap escapeOf := by
  induction s generalizing cs with
  | nil =>
    cases h
    exact ⟨[], rfl, rfl⟩
  | cons c s ih =>
    rw [List.flatMap_cons] at h
    obtain ⟨cs₁, cs₂, hc, hs, rfl⟩ := Text.toChars?_append_eq_some.mp h
    obtain ⟨chars, rfl, rfl⟩ := ih hs
    unfold escape at hc
    -- a surrogate is written as it is, so it would be left in the text
    cases hch : c.toChar? with
    | none =>
      rw [hch] at hc
      simp [Text.toChars?_cons, hch] at hc
    | some ch =>
      rw [hch] at hc
      simp only [Text.toChars?_ofChars, Option.some.injEq] at hc
      obtain rfl := hc
      exact ⟨ch :: chars, by rw [← CodePoint.ofChar_of_toChar? hch]; rfl, rfl⟩

/-- A string with its quotes. -/
theorem toChars?_writeString {s : Text} {cs : List Char}
    (h : Text.toChars? (writeString s) = some cs) :
    ∃ chars, s = .ofChars chars ∧ cs = '"' :: (chars.flatMap escapeOf ++ ['"']) := by
  obtain ⟨cs₁, r, hopen, hr, rfl⟩ := Text.toChars?_append_eq_some.mp h
  obtain ⟨cs₂, cs₃, hescapes, hclose, rfl⟩ := Text.toChars?_append_eq_some.mp hr
  cases hopen
  cases hclose
  obtain ⟨chars, hs, rfl⟩ := toChars?_escapes hescapes
  exact ⟨chars, hs, rfl⟩

/-- A written string starts with its quote, and is read to the other one. -/
theorem scanString_written {s : Text} {cs : List Char}
    (h : Text.toChars? (writeString s) = some cs) :
    ∃ r, cs = '"' :: r ∧ ∀ rest, scanString (r ++ rest) = some (s, rest) := by
  obtain ⟨chars, rfl, rfl⟩ := toChars?_writeString h
  refine ⟨_, rfl, fun rest => ?_⟩
  rw [List.append_assoc]
  exact scanString_escapes chars rest

/-! ## Values -/

/-- Induction over a value and what is nested in it. -/
theorem ind {P : Json → Prop} (null : P .null) (bool : ∀ b, P (.bool b)) (int : ∀ n, P (.int n))
    (float : ∀ x, P (.float x)) (str : ∀ s, P (.str s))
    (arr : ∀ vs, (∀ v ∈ vs, P v) → P (.arr vs))
    (obj : ∀ es, (∀ e ∈ es, P e.2) → P (.obj es)) : ∀ v, P v
  | .null => null
  | .bool b => bool b
  | .int n => int n
  | .float x => float x
  | .str s => str s
  | .arr vs => arr vs fun v _hv => ind null bool int float str arr obj v
  | .obj es => obj es fun e _he => ind null bool int float str arr obj e.2
termination_by v => sizeOf v
decreasing_by
  · have := List.sizeOf_lt_of_mem _hv
    simp only [Json.arr.sizeOf_spec]
    omega
  · have := List.sizeOf_lt_of_mem _he
    obtain ⟨k, v⟩ := e
    simp only [Json.obj.sizeOf_spec, Prod.mk.sizeOf_spec] at this ⊢
    omega

/-- A list exceeds no limit if none of its items does. -/
theorem excessItems_eq_none_iff {digits depth : ℕ} {vs : List Json} :
    excessItems digits depth vs = none ↔ ∀ v ∈ vs, excess digits depth v = none := by
  induction vs with
  | nil => simp [excessItems]
  | cons v vs ih => simp [excessItems, ih]

theorem excessMembers_eq_none_iff {digits depth : ℕ} {es : List (Text × Json)} :
    excessMembers digits depth es = none ↔ ∀ e ∈ es, excess digits depth e.2 = none := by
  induction es with
  | nil => simp [excessMembers]
  | cons e es ih =>
    obtain ⟨k, v⟩ := e
    simp [excessMembers, ih]

/-- What is within a limit on nesting is within every higher one. -/
theorem excess_mono {digits : ℕ} (v : Json) {depth depth' : ℕ} (hle : depth ≤ depth')
    (h : excess digits depth v = none) : excess digits depth' v = none := by
  -- on the value, with one level used up at each list or object
  induction v using ind generalizing depth depth' with
  | null | bool | float | str => cases depth' <;> rfl
  | int n => cases depth <;> cases depth' <;> exact h
  | arr vs ih =>
    cases depth with
    | zero => cases h
    | succ depth =>
      cases depth' with
      | zero => omega
      | succ depth' =>
        simp only [excess, excessItems_eq_none_iff] at h ⊢
        exact fun v hv => ih v hv (Nat.le_of_succ_le_succ hle) (h v hv)
  | obj es ih =>
    cases depth with
    | zero => cases h
    | succ depth =>
      cases depth' with
      | zero => omega
      | succ depth' =>
        simp only [excess, excessMembers_eq_none_iff] at h ⊢
        exact fun e he => ih e he (Nat.le_of_succ_le_succ hle) (h e he)

/-- The text of a value starts with none of these. -/
structure Starts (cs : List Char) : Prop where
  head : ∃ c r, cs = c :: r ∧ isSpace c = false ∧ c ≠ ']' ∧ c ≠ '\ufeff'

/-- There is no space to skip in front of a value. -/
theorem skipSpace_of_starts {cs : List Char} (h : Starts cs) (rest : List Char) :
    skipSpace (cs ++ rest) = cs ++ rest := by
  obtain ⟨c, r, rfl, hc, -⟩ := h.head
  simp [skipSpace, hc]

/-- Digits with or without a sign start a text. -/
theorem starts_digits {ds : List Char} (hne : ds ≠ []) (hds : ∀ c ∈ ds, c.isDigit = true)
    (negative : Bool) (r : List Char) : Starts ((if negative then ['-'] else []) ++ ds ++ r) := by
  cases ds with
  | nil => exact absurd rfl hne
  | cons d ds =>
    have hd : d.isDigit = true := hds d List.mem_cons_self
    -- a sign, or the first digit
    cases negative with
    | true => exact ⟨'-', _, rfl, by decide, by decide, by decide⟩
    | false =>
      refine ⟨d, _, rfl, ?_, ?_, ?_⟩
      · refine Bool.eq_false_iff.mpr fun hspace => ?_
        have hmem : d ∈ [' ', '\t', '\n', '\r'] := by
          simpa [isSpace, or_assoc] using hspace
        have hall : ∀ c ∈ [' ', '\t', '\n', '\r'], c.isDigit = false := by simp [Char.isDigit]
        rw [hall d hmem] at hd
        cases hd
      all_goals
        rintro rfl
        revert hd
        decide

/-- The texts of values start as such: with a character that is no space and closes
nothing. -/
theorem starts_write {v : Json} {cs : List Char} (h : Text.toChars? (write v) = some cs) :
    Starts cs := by
  cases v with
  | null =>
    cases h
    exact ⟨'n', _, rfl, by decide, by decide, by decide⟩
  | bool b =>
    cases b with
    | true =>
      cases h
      exact ⟨'t', _, rfl, by decide, by decide, by decide⟩
    | false =>
      cases h
      exact ⟨'f', _, rfl, by decide, by decide, by decide⟩
  | int n =>
    simp only [write, Text.toChars?_ofChars, Option.some.injEq] at h
    obtain rfl := h
    have hstarts := starts_digits Nat.toDigits_ne_nil (isDigit_toDigits n.natAbs)
      (decide (n < 0)) []
    simpa [intChars] using hstarts
  | float x =>
    simp only [write, Text.toChars?_ofChars, Option.some.injEq] at h
    obtain rfl := h
    cases x with
    | nan => exact ⟨'N', _, rfl, by decide, by decide, by decide⟩
    | infinity negative => cases negative <;> exact ⟨_, _, rfl, by decide, by decide, by decide⟩
    | finite negative mag =>
      -- a decimal starts with a digit, wherever its point is
      obtain ⟨ds, r, hchars, hne, hds⟩ := decimalChars_head mag.shortest.strip
      have hstarts := starts_digits hne hds negative r
      rwa [List.append_assoc, ← hchars] at hstarts
  | str s =>
    obtain ⟨r, rfl, -⟩ := scanString_written h
    exact ⟨'"', _, rfl, by decide, by decide, by decide⟩
  | arr vs =>
    cases vs with
    | nil =>
      cases h
      exact ⟨'[', _, rfl, by decide, by decide, by decide⟩
    | cons v vs =>
      obtain ⟨_, r, hopen, -, rfl⟩ := Text.toChars?_append_eq_some.mp h
      cases hopen
      exact ⟨'[', r, rfl, by decide, by decide, by decide⟩
  | obj es =>
    cases es with
    | nil =>
      cases h
      exact ⟨'{', _, rfl, by decide, by decide, by decide⟩
    | cons e es =>
      obtain ⟨_, r, hopen, -, rfl⟩ := Text.toChars?_append_eq_some.mp h
      cases hopen
      exact ⟨'{', r, rfl, by decide, by decide, by decide⟩

/-- A text that starts with a digit is a number. -/
theorem scanTerm_digit (digits : ℕ) (inner : Option Scan) {d : Char} (hd : d.isDigit = true)
    (r : List Char) : scanTerm digits inner (d :: r) = scanNumber digits (d :: r) := by
  have hne : ∀ c, c.isDigit = false → d ≠ c := by
    rintro c hc rfl
    rw [hd] at hc
    cases hc
  unfold scanTerm
  split
  case h_10 => rfl
  all_goals
    next heq => exact absurd (List.cons.inj heq).1 (hne _ (by decide))

/-- A text that starts with a sign and a digit is a number. -/
theorem scanTerm_minus (digits : ℕ) (inner : Option Scan) {d : Char} (hd : d.isDigit = true)
    (r : List Char) : scanTerm digits inner ('-' :: d :: r) =
      scanNumber digits ('-' :: d :: r) := by
  unfold scanTerm
  split
  case h_10 => rfl
  case h_9 heq =>
    have hI : d = 'I' := (List.cons.inj (List.cons.inj heq).2).1
    rw [hI] at hd
    cases hd
  all_goals
    next heq => exact absurd (List.cons.inj heq).1 (by decide)

/-- A text that starts with digits, signed or not, is a number. -/
theorem scanTerm_number (digits : ℕ) (inner : Option Scan) {ds : List Char} (hne : ds ≠ [])
    (hds : ∀ c ∈ ds, c.isDigit = true) (negative : Bool) (r : List Char) :
    scanTerm digits inner ((if negative then ['-'] else []) ++ ds ++ r) =
      scanNumber digits ((if negative then ['-'] else []) ++ ds ++ r) := by
  cases ds with
  | nil => exact absurd rfl hne
  | cons d ds =>
    have hd : d.isDigit = true := hds d List.mem_cons_self
    cases negative with
    | true => exact scanTerm_minus digits inner hd (ds ++ r)
    | false => exact scanTerm_digit digits inner hd (ds ++ r)

theorem scanValue_eq (digits depth : ℕ) :
    ∃ inner, scanValue digits depth = scanTerm digits inner := by
  cases depth with
  | zero => exact ⟨none, rfl⟩
  | succ depth => exact ⟨some (scanValue digits depth), rfl⟩

/-- How a scan reads one value, whatever follows. -/
def Reads (scan : Scan) (v : Json) : Prop :=
  ∀ cs rest, Text.toChars? (write v) = some cs → Stops rest → scan (cs ++ rest) = .ok (v, rest)

theorem stops_of_head {c : Char} {r : List Char}
    (h : c.isDigit = false ∧ c ≠ '.' ∧ c ≠ 'e' ∧ c ≠ 'E') : Stops (c :: r) := by
  intro c' hc'
  cases hc'
  exact h

/-! ## Arrays -/

/-- What follows an item. -/
theorem writeItems_cases {vs : List Json} {cs : List Char}
    (h : Text.toChars? (writeItems vs) = some cs) :
    (vs = [] ∧ cs = [']']) ∨ ∃ v vs' cs₁ cs₂, vs = v :: vs' ∧ cs = ',' :: ' ' :: (cs₁ ++ cs₂) ∧
      Text.toChars? (write v) = some cs₁ ∧ Text.toChars? (writeItems vs') = some cs₂ := by
  cases vs with
  | nil =>
    simp only [writeItems, Text.toChars?_ofChars, Option.some.injEq] at h
    exact .inl ⟨rfl, h.symm⟩
  | cons v vs =>
    rw [writeItems] at h
    obtain ⟨_, tail, hsep, htail, rfl⟩ := Text.toChars?_append_eq_some.mp h
    obtain ⟨cs₁, cs₂, hv, hvs, rfl⟩ := Text.toChars?_append_eq_some.mp htail
    cases hsep
    exact .inr ⟨v, vs, cs₁, cs₂, rfl, rfl, hv, hvs⟩

theorem length_writeItems {vs : List Json} {cs : List Char}
    (h : Text.toChars? (writeItems vs) = some cs) : vs.length < cs.length := by
  induction vs generalizing cs with
  | nil =>
    rcases writeItems_cases h with ⟨-, rfl⟩ | ⟨_, _, _, _, heq, _⟩
    · decide
    · cases heq
  | cons v vs ih =>
    rcases writeItems_cases h with ⟨heq, -⟩ | ⟨_, _, cs₁, cs₂, heq, rfl, -, h₂⟩
    · cases heq
    · cases heq
      have := ih h₂
      simp only [List.length_cons, List.length_append]
      omega

/-- The loop over items ends at the closing bracket. -/
theorem scanItems_last {scan : Scan} {fuel : ℕ} {s t r : List Char} {v : Json}
    (h : scan s = .ok (v, t)) (ht : skipSpace t = ']' :: r) :
    scanItems scan (fuel + 1) s = .ok ([v], r) := by
  simp only [scanItems, bind, Except.bind, h, ht]

/-- The loop over items goes on after a comma. -/
theorem scanItems_next {scan : Scan} {fuel : ℕ} {s t r r' : List Char} {v : Json}
    {vs : List Json} (h : scan s = .ok (v, t)) (ht : skipSpace t = ',' :: r)
    (hr : scanItems scan fuel (skipSpace r) = .ok (vs, r')) :
    scanItems scan (fuel + 1) s = .ok (v :: vs, r') := by
  simp only [scanItems, bind, Except.bind, h, ht, hr]

/-- The items of an array, from the first on. -/
theorem scanItems_written {scan : Scan} {vs : List Json} (hscan : ∀ v ∈ vs, Reads scan v)
    {v : Json} (hv : Reads scan v) {cs₁ cs₂ : List Char} {fuel : ℕ}
    (h₁ : Text.toChars? (write v) = some cs₁) (h₂ : Text.toChars? (writeItems vs) = some cs₂)
    (hfuel : vs.length < fuel) (rest : List Char) :
    scanItems scan fuel (cs₁ ++ (cs₂ ++ rest)) = .ok (v :: vs, rest) := by
  induction vs generalizing v cs₁ cs₂ fuel with
  | nil =>
    obtain ⟨fuel, rfl⟩ : ∃ k, fuel = k + 1 := Nat.exists_eq_succ_of_ne_zero (by omega)
    rcases writeItems_cases h₂ with ⟨-, rfl⟩ | ⟨_, _, _, _, heq, _⟩
    · exact scanItems_last (hv cs₁ (']' :: rest) h₁ (stops_of_head (by decide))) rfl
    · cases heq
  | cons v' vs ih =>
    obtain ⟨fuel, rfl⟩ : ∃ k, fuel = k + 1 := Nat.exists_eq_succ_of_ne_zero (by omega)
    rcases writeItems_cases h₂ with ⟨heq, -⟩ | ⟨_, _, cs₃, cs₄, heq, rfl, h₃, h₄⟩
    · cases heq
    · cases heq
      -- the item, then a comma and a blank, then the others by induction
      have hread := hv cs₁ (',' :: ' ' :: (cs₃ ++ (cs₄ ++ rest))) h₁ (stops_of_head (by decide))
      have hskip : skipSpace (' ' :: (cs₃ ++ (cs₄ ++ rest))) = cs₃ ++ (cs₄ ++ rest) :=
        skipSpace_of_starts (starts_write h₃) (cs₄ ++ rest)
      have hfuel : vs.length < fuel := Nat.lt_of_succ_lt_succ hfuel
      have hrest := ih (fun u hu => hscan u (List.mem_cons_of_mem _ hu))
        (hscan v' List.mem_cons_self) h₃ h₄ hfuel
      rw [← hskip] at hrest
      simpa using scanItems_next hread rfl hrest

theorem scanArray_of_items {scan : Scan} {s r : List Char} {vs : List Json}
    (hskip : skipSpace s = s) (hhead : s.head? ≠ some ']')
    (h : scanItems scan s.length s = .ok (vs, r)) : scanArray scan s = .ok (.arr vs, r) := by
  unfold scanArray
  rw [hskip]
  split
  case h_1 => exact absurd rfl hhead
  case h_2 =>
    rw [h]
    rfl

/-- A written list starts with its bracket, and is read to the other one. -/
theorem scanArray_written {scan : Scan} {vs : List Json} (hscan : ∀ v ∈ vs, Reads scan v)
    {cs : List Char} (h : Text.toChars? (write (.arr vs)) = some cs) :
    ∃ r, cs = '[' :: r ∧ ∀ rest, scanArray scan (r ++ rest) = .ok (.arr vs, rest) := by
  cases vs with
  | nil =>
    simp only [write] at h
    cases h
    exact ⟨[']'], rfl, fun _ => rfl⟩
  | cons v vs =>
    rw [write] at h
    obtain ⟨_, r, hopen, hr, rfl⟩ := Text.toChars?_append_eq_some.mp h
    obtain ⟨cs₁, cs₂, h₁, h₂, rfl⟩ := Text.toChars?_append_eq_some.mp hr
    cases hopen
    refine ⟨cs₁ ++ cs₂, rfl, fun rest => ?_⟩
    have hlen := length_writeItems h₂
    have hfuel : vs.length < (cs₁ ++ (cs₂ ++ rest)).length := by
      simp only [List.length_append]
      omega
    have hitems := scanItems_written (fun u hu => hscan u (List.mem_cons_of_mem _ hu))
      (hscan v List.mem_cons_self) h₁ h₂ hfuel rest
    have hskip := skipSpace_of_starts (starts_write h₁) (cs₂ ++ rest)
    -- a list that is not empty does not start with the closing bracket
    have hhead : (cs₁ ++ (cs₂ ++ rest)).head? ≠ some ']' := by
      obtain ⟨c, t, rfl, -, hclose, -⟩ := (starts_write h₁).head
      simpa using hclose
    rw [List.append_assoc, scanArray_of_items hskip hhead hitems]

/-! ## Objects -/

/-- The text of a member and of what is after it. -/
theorem toChars?_member {k : Text} {v : Json} {tail : Text} {cs : List Char}
    (h : Text.toChars? (writeString k ++ (.ofString ": " ++ (write v ++ tail))) = some cs) :
    ∃ cs₀ cs₁ cs₂, Text.toChars? (writeString k) = some cs₀ ∧ Text.toChars? (write v) = some cs₁ ∧
      tail.toChars? = some cs₂ ∧ cs = cs₀ ++ ':' :: ' ' :: (cs₁ ++ cs₂) := by
  obtain ⟨cs₀, r, h₀, hr, rfl⟩ := Text.toChars?_append_eq_some.mp h
  obtain ⟨_, r', hcolon, hr', rfl⟩ := Text.toChars?_append_eq_some.mp hr
  obtain ⟨cs₁, cs₂, h₁, h₂, rfl⟩ := Text.toChars?_append_eq_some.mp hr'
  cases hcolon
  exact ⟨cs₀, cs₁, cs₂, h₀, h₁, h₂, rfl⟩

/-- What follows a member. -/
theorem writeMembers_cases {es : List (Text × Json)} {cs : List Char}
    (h : Text.toChars? (writeMembers es) = some cs) :
    (es = [] ∧ cs = ['}']) ∨ ∃ k v es' cs₀ cs₁ cs₂, es = (k, v) :: es' ∧
      cs = ',' :: ' ' :: (cs₀ ++ ':' :: ' ' :: (cs₁ ++ cs₂)) ∧
      Text.toChars? (writeString k) = some cs₀ ∧ Text.toChars? (write v) = some cs₁ ∧
      Text.toChars? (writeMembers es') = some cs₂ := by
  cases es with
  | nil =>
    simp only [writeMembers, Text.toChars?_ofChars, Option.some.injEq] at h
    exact .inl ⟨rfl, h.symm⟩
  | cons e es =>
    obtain ⟨k, v⟩ := e
    rw [writeMembers] at h
    obtain ⟨_, r, hsep, hr, rfl⟩ := Text.toChars?_append_eq_some.mp h
    obtain ⟨cs₀, cs₁, cs₂, h₀, h₁, h₂, rfl⟩ := toChars?_member hr
    cases hsep
    exact .inr ⟨k, v, es, cs₀, cs₁, cs₂, rfl, rfl, h₀, h₁, h₂⟩

theorem length_writeMembers {es : List (Text × Json)} {cs : List Char}
    (h : Text.toChars? (writeMembers es) = some cs) : es.length < cs.length := by
  induction es generalizing cs with
  | nil =>
    rcases writeMembers_cases h with ⟨-, rfl⟩ | ⟨_, _, _, _, _, _, heq, _⟩
    · decide
    · cases heq
  | cons e es ih =>
    rcases writeMembers_cases h with ⟨heq, -⟩ | ⟨_, _, _, cs₀, cs₁, cs₂, heq, rfl, -, -, h₂⟩
    · cases heq
    · cases heq
      have := ih h₂
      simp only [List.length_cons, List.length_append]
      omega

/-- One key and its value. -/
theorem scanMember_written {scan : Scan} {k : Text} {v : Json} (hv : Reads scan v)
    {cs₀ cs₁ : List Char} (h₀ : Text.toChars? (writeString k) = some cs₀)
    (h₁ : Text.toChars? (write v) = some cs₁) {rest : List Char} (hrest : Stops rest) :
    scanMember scan (cs₀ ++ ':' :: ' ' :: (cs₁ ++ rest)) = .ok ((k, v), rest) := by
  obtain ⟨r, rfl, hr⟩ := scanString_written h₀
  have hskip : skipSpace (' ' :: (cs₁ ++ rest)) = cs₁ ++ rest :=
    skipSpace_of_starts (starts_write h₁) rest
  simp only [List.cons_append, scanMember, hr]
  show (scan (skipSpace (' ' :: (cs₁ ++ rest))) >>= _) = _
  rw [hskip, hv cs₁ rest h₁ hrest]
  rfl

/-- The loop over members ends at the closing brace. -/
theorem scanMembers_last {scan : Scan} {fuel : ℕ} {s t r : List Char} {e : Text × Json}
    (h : scanMember scan s = .ok (e, t)) (ht : skipSpace t = '}' :: r) :
    scanMembers scan (fuel + 1) s = .ok ([e], r) := by
  simp only [scanMembers, bind, Except.bind, h, ht]

/-- The loop over members goes on after a comma. -/
theorem scanMembers_next {scan : Scan} {fuel : ℕ} {s t r r' : List Char} {e : Text × Json}
    {es : List (Text × Json)} (h : scanMember scan s = .ok (e, t)) (ht : skipSpace t = ',' :: r)
    (hr : scanMembers scan fuel (skipSpace r) = .ok (es, r')) :
    scanMembers scan (fuel + 1) s = .ok (e :: es, r') := by
  simp only [scanMembers, bind, Except.bind, h, ht, hr]

/-- A key in its quotes starts with no blank. -/
theorem skipSpace_writeString {k : Text} {cs : List Char}
    (h : Text.toChars? (writeString k) = some cs) (rest : List Char) :
    skipSpace (cs ++ rest) = cs ++ rest := by
  obtain ⟨r, rfl, -⟩ := scanString_written h
  rfl

/-- The members of an object, from the first on. -/
theorem scanMembers_written {scan : Scan} {es : List (Text × Json)}
    (hscan : ∀ e ∈ es, Reads scan e.2) {k : Text} {v : Json} (hv : Reads scan v)
    {cs₀ cs₁ cs₂ : List Char} {fuel : ℕ} (h₀ : Text.toChars? (writeString k) = some cs₀)
    (h₁ : Text.toChars? (write v) = some cs₁) (h₂ : Text.toChars? (writeMembers es) = some cs₂)
    (hfuel : es.length < fuel) (rest : List Char) :
    scanMembers scan fuel (cs₀ ++ ':' :: ' ' :: (cs₁ ++ (cs₂ ++ rest))) =
      .ok ((k, v) :: es, rest) := by
  induction es generalizing k v cs₀ cs₁ cs₂ fuel with
  | nil =>
    obtain ⟨fuel, rfl⟩ : ∃ k, fuel = k + 1 := Nat.exists_eq_succ_of_ne_zero (by omega)
    rcases writeMembers_cases h₂ with ⟨-, rfl⟩ | ⟨_, _, _, _, _, _, heq, _⟩
    · exact scanMembers_last (scanMember_written hv h₀ h₁ (stops_of_head (by decide))) rfl
    · cases heq
  | cons e es ih =>
    obtain ⟨fuel, rfl⟩ : ∃ k, fuel = k + 1 := Nat.exists_eq_succ_of_ne_zero (by omega)
    rcases writeMembers_cases h₂ with ⟨heq, -⟩ | ⟨k', v', _, cs₃, cs₄, cs₅, heq, rfl, h₃, h₄, h₅⟩
    · cases heq
    · cases heq
      have hstops : Stops (',' :: ' ' :: (cs₃ ++ ':' :: ' ' :: (cs₄ ++ (cs₅ ++ rest)))) :=
        stops_of_head (by decide)
      -- the member, then a comma and a blank, then the others by induction
      have hread := scanMember_written hv h₀ h₁ hstops
      have hskip : skipSpace (' ' :: (cs₃ ++ ':' :: ' ' :: (cs₄ ++ (cs₅ ++ rest)))) =
          cs₃ ++ ':' :: ' ' :: (cs₄ ++ (cs₅ ++ rest)) := skipSpace_writeString h₃ _
      have hfuel : es.length < fuel := Nat.lt_of_succ_lt_succ hfuel
      have hrest := ih (fun u hu => hscan u (List.mem_cons_of_mem _ hu))
        (hscan (k', v') List.mem_cons_self) h₃ h₄ h₅ hfuel
      rw [← hskip] at hrest
      simpa using scanMembers_next hread rfl hrest

theorem scanObject_of_members {scan : Scan} {s r : List Char} {es : List (Text × Json)}
    (hskip : skipSpace s = s) (hhead : s.head? ≠ some '}')
    (h : scanMembers scan s.length s = .ok (es, r)) :
    scanObject scan s = .ok (.obj (ofItems es), r) := by
  unfold scanObject
  rw [hskip]
  split
  case h_1 => exact absurd rfl hhead
  case h_2 =>
    rw [h]
    rfl

/-- A written object starts with its brace, and is read to the other one. Its keys are
distinct, so reading it drops none of them. -/
theorem scanObject_written {scan : Scan} {es : List (Text × Json)} (hkeys : (keysOf es).Nodup)
    (hscan : ∀ e ∈ es, Reads scan e.2) {cs : List Char}
    (h : Text.toChars? (write (.obj es)) = some cs) :
    ∃ r, cs = '{' :: r ∧ ∀ rest, scanObject scan (r ++ rest) = .ok (.obj es, rest) := by
  cases es with
  | nil =>
    simp only [write] at h
    cases h
    exact ⟨['}'], rfl, fun _ => rfl⟩
  | cons e es =>
    obtain ⟨k, v⟩ := e
    rw [write] at h
    obtain ⟨_, r, hopen, hr, rfl⟩ := Text.toChars?_append_eq_some.mp h
    obtain ⟨cs₀, cs₁, cs₂, h₀, h₁, h₂, rfl⟩ := toChars?_member hr
    cases hopen
    refine ⟨cs₀ ++ ':' :: ' ' :: (cs₁ ++ cs₂), rfl, fun rest => ?_⟩
    have hlen := length_writeMembers h₂
    have hfuel : es.length < (cs₀ ++ ':' :: ' ' :: (cs₁ ++ (cs₂ ++ rest))).length := by
      simp only [List.length_append, List.length_cons]
      omega
    have hmembers := scanMembers_written (fun u hu => hscan u (List.mem_cons_of_mem _ hu))
      (hscan (k, v) List.mem_cons_self) h₀ h₁ h₂ hfuel rest
    have hassoc : (cs₀ ++ ':' :: ' ' :: (cs₁ ++ cs₂)) ++ rest =
        cs₀ ++ ':' :: ' ' :: (cs₁ ++ (cs₂ ++ rest)) := by simp
    have hskip := skipSpace_writeString h₀ (':' :: ' ' :: (cs₁ ++ (cs₂ ++ rest)))
    have hhead : (cs₀ ++ ':' :: ' ' :: (cs₁ ++ (cs₂ ++ rest))).head? ≠ some '}' := by
      obtain ⟨t, rfl, -⟩ := scanString_written h₀
      simp
    -- no key comes twice, so the members are the fields
    rw [hassoc, scanObject_of_members hskip hhead hmembers, ofItems_of_nodup hkeys]

/-! ## Any value -/

/-- A term is read back by a scanner whose inner scan reads back what is nested in it.
What follows the term must not go on with it, as a digit would with a number. -/
theorem reads_scanTerm {digits : ℕ} {inner : Option Scan} {v : Json} (hv : v.WellFormed)
    (hdigits : ∀ n, v = .int n → (Nat.toDigits 10 n.natAbs).length ≤ digits)
    (hitems : ∀ vs, v = .arr vs → ∃ scan, inner = some scan ∧ ∀ u ∈ vs, Reads scan u)
    (hmembers : ∀ es, v = .obj es → ∃ scan, inner = some scan ∧ ∀ e ∈ es, Reads scan e.2) :
    Reads (scanTerm digits inner) v := by
  intro cs rest hcs hrest
  -- by the value, each of which tells itself by its first character
  cases v with
  | null =>
    cases hcs
    rfl
  | bool b => cases b <;> cases hcs <;> rfl
  | int n =>
    simp only [write, Text.toChars?_ofChars, Option.some.injEq] at hcs
    obtain rfl := hcs
    have hterm := scanTerm_number digits inner Nat.toDigits_ne_nil (isDigit_toDigits n.natAbs)
      (decide (n < 0)) rest
    simp only [decide_eq_true_eq] at hterm
    exact hterm.trans (scanNumber_intChars (hdigits n rfl) hrest)
  | float x =>
    simp only [write, Text.toChars?_ofChars, Option.some.injEq] at hcs
    obtain rfl := hcs
    cases x with
    | nan => rfl
    | infinity negative => cases negative <;> rfl
    | finite negative mag =>
      obtain ⟨ds, r, hchars, hne, hds⟩ := decimalChars_head mag.shortest.strip
      have hterm := scanTerm_number digits inner hne hds negative (r ++ rest)
      rw [List.append_assoc, ← List.append_assoc ds, ← hchars, ← List.append_assoc] at hterm
      exact hterm.trans (scanNumber_floatChars digits negative mag hrest)
  | str s =>
    obtain ⟨r, rfl, hr⟩ := scanString_written hcs
    simp only [List.cons_append, scanTerm, hr]
  | arr vs =>
    obtain ⟨scan, rfl, hscan⟩ := hitems vs rfl
    obtain ⟨r, rfl, hr⟩ := scanArray_written hscan hcs
    exact hr rest
  | obj es =>
    obtain ⟨scan, rfl, hscan⟩ := hmembers es rfl
    cases hv with
    | obj hkeys _ =>
      obtain ⟨r, rfl, hr⟩ := scanObject_written hkeys hscan hcs
      exact hr rest

/-- What is within the limits is read back from its text, whatever follows it that does
not go on with it. By induction on the value. -/
theorem scanValue_write {digits : ℕ} {v : Json} (hv : v.WellFormed) {depth : ℕ}
    (h : excess digits depth v = none) : Reads (scanValue digits depth) v := by
  -- on the value; what is inside it is read one level deeper
  induction v using ind generalizing depth with
  | null | bool | float | str =>
    obtain ⟨inner, hinner⟩ := scanValue_eq digits depth
    rw [hinner]
    exact reads_scanTerm hv nofun nofun nofun
  | int n =>
    have hdigits : (Nat.toDigits 10 n.natAbs).length ≤ digits := by
      cases depth <;> simpa [excess] using h
    obtain ⟨inner, hinner⟩ := scanValue_eq digits depth
    rw [hinner]
    refine reads_scanTerm hv (fun m hm => ?_) nofun nofun
    cases hm
    exact hdigits
  | arr vs ih =>
    cases hv with
    | arr hv =>
      cases depth with
      | zero => cases h
      | succ depth =>
        rw [excess, excessItems_eq_none_iff] at h
        refine reads_scanTerm (.arr hv) nofun (fun us hus => ⟨_, rfl, fun v hmem => ?_⟩) nofun
        cases hus
        exact ih v hmem (hv v hmem) (h v hmem)
  | obj es ih =>
    cases hv with
    | obj hkeys hv =>
      cases depth with
      | zero => cases h
      | succ depth =>
        rw [excess, excessMembers_eq_none_iff] at h
        refine reads_scanTerm (.obj hkeys hv) nofun nofun fun fs hfs => ⟨_, rfl, fun e hmem => ?_⟩
        cases hfs
        exact ih e hmem (hv e hmem) (h e hmem)

/-- The text of a value is read by every scan that reads back the value. -/
theorem scanText_written {scan : Scan} {v : Json} {cs : List Char} (h : Reads scan v)
    (hcs : Text.toChars? (write v) = some cs) : scanText scan cs = .ok v := by
  have hread := h cs [] hcs stops_nil
  have hskip := skipSpace_of_starts (starts_write hcs) []
  rw [List.append_nil] at hread hskip
  obtain ⟨c, r, hcons, -, -, hmark⟩ := (starts_write hcs).head
  unfold scanText
  split
  case h_1 => exact absurd (List.cons.inj hcons).1.symm hmark
  case h_2 =>
    rw [hskip, hread]
    rfl

/-- **Round trip.** What was written and encoded is read back, if reading may recurse as
deeply as writing. -/
theorem loads_dumps {digits depth depth' : ℕ} {v : Json} {t : Text} {cs : List Char}
    (hv : v.WellFormed) (hle : depth ≤ depth') (h : dumps digits depth v = .ok t)
    (hcs : t.toChars? = some cs) : loads digits depth' cs = .ok v := by
  unfold dumps at h
  split at h
  case h_1 => cases h
  case h_2 hnone =>
    cases h
    exact scanText_written (scanValue_write hv (excess_mono v hle hnone)) hcs

end Json

end InferenceGateway.Lib
