import InferenceGateway.Lib.Json

/-!
# Reading JSON

The scanner behind `json.loads`, on the characters of a text. It reads from left
to right and stops at the first thing that is wrong: a syntax error, an integer
with more digits than the interpreter converts, or containers nested deeper than
it recurses. `loads` says which of these it was, since the callers tell them
apart.

Nesting is counted down by `depth`, so that `scanValue` is structurally
recursive in it: `scanTerm` reads one value, given the scan of what is nested in
it, and is given none at the limit. The loops over items and members take the
length of the text as fuel, which never runs out (`scanItems_fuel`). What
follows a number, or a keyword, is not looked at; it is what the next scan
starts with.
-/

namespace InferenceGateway.Lib

/-- What stops the scanner. -/
inductive ScanError where
  /-- `JSONDecodeError` -/
  | syntactic
  /-- `ValueError`: an integer has too many digits. -/
  | digits
  /-- `RecursionError` -/
  | depth
  deriving DecidableEq, Repr

namespace Json

/-- `[ \t\n\r]` -/
def isSpace (c : Char) : Bool := c = ' ' || c = '\t' || c = '\n' || c = '\r'

def skipSpace (s : List Char) : List Char := s.dropWhile isSpace

/-! ## Numbers -/

/-- A decimal that is rounded to binary64. -/
def toBinary64 (negative : Bool) (d : Decimal) : Binary64 :=
  match Magnitude.ofDecimal d with
  | some mag => .finite negative mag
  | none => .infinity negative

/-- A fraction, if a digit follows the point. -/
def scanFraction (s : List Char) : List Char × List Char :=
  match s with
  | '.' :: c :: r => if c.isDigit then (c :: r).span Char.isDigit else ([], s)
  | _ => ([], s)

/-- An exponent, if it has a digit. -/
def scanExponent (s : List Char) : Option ℤ × List Char :=
  match s with
  | c :: r =>
    if c = 'e' ∨ c = 'E' then
      let (negative, r) := match r with
        | '-' :: r => (true, r)
        | '+' :: r => (false, r)
        | _ => (false, r)
      let (ds, rest) := r.span Char.isDigit
      if ds = [] then (none, s)
      else (some ((if negative then -1 else 1) * Nat.ofDigitChars 10 ds 0), rest)
    else (none, s)
  | [] => (none, s)

/-- The number whose integer digits have been read. -/
def finishNumber (digits : ℕ) (negative : Bool) (ds s : List Char) :
    Except ScanError (Json × List Char) :=
  let (fraction, s) := scanFraction s
  let (exponent, s) := scanExponent s
  if fraction = [] ∧ exponent = none then
    if digits < ds.length then .error .digits
    else .ok (.int ((if negative then -1 else 1) * Nat.ofDigitChars 10 ds 0), s)
  else
    .ok (.float (toBinary64 negative
      ⟨Nat.ofDigitChars 10 (ds ++ fraction) 0, exponent.getD 0 - fraction.length⟩), s)

/-- `_match_number_unicode`, after the sign. A zero stands alone before the point. -/
def scanMagnitude (digits : ℕ) (negative : Bool) (s : List Char) :
    Except ScanError (Json × List Char) :=
  match s with
  | [] => .error .syntactic
  | c :: r =>
    if c = '0' then finishNumber digits negative ['0'] r
    else if c.isDigit then
      finishNumber digits negative (s.span Char.isDigit).1 (s.span Char.isDigit).2
    else .error .syntactic

def scanNumber (digits : ℕ) (s : List Char) : Except ScanError (Json × List Char) :=
  match s with
  | '-' :: r => scanMagnitude digits true r
  | _ => scanMagnitude digits false s

/-! ## Strings -/

/-- The character a two-character escape stands for. -/
def unescape? : Char → Option Char
  | '"' => some '"'
  | '\\' => some '\\'
  | '/' => some '/'
  | 'b' => some '\x08'
  | 'f' => some '\x0c'
  | 'n' => some '\n'
  | 'r' => some '\r'
  | 't' => some '\t'
  | _ => none

def hexValue? (c : Char) : Option (Fin 16) :=
  if h : '0'.toNat ≤ c.toNat ∧ c.toNat ≤ '9'.toNat then
    some ⟨c.toNat - '0'.toNat, by have := h.2; simp at this ⊢; omega⟩
  else if h : 'a'.toNat ≤ c.toNat ∧ c.toNat ≤ 'f'.toNat then
    some ⟨c.toNat - 'a'.toNat + 10, by have := h.2; simp at this ⊢; omega⟩
  else if h : 'A'.toNat ≤ c.toNat ∧ c.toNat ≤ 'F'.toNat then
    some ⟨c.toNat - 'A'.toNat + 10, by have := h.2; simp at this ⊢; omega⟩
  else none

/-- The code unit of `\uXXXX`. -/
def hex4? (a b c d : Char) : Option (Fin 0x10000) := do
  let a ← hexValue? a
  let b ← hexValue? b
  let c ← hexValue? c
  let d ← hexValue? d
  some ⟨a * 4096 + b * 256 + c * 16 + d, by omega⟩

/-- A code unit as a code point of its own. -/
def unit (n : Fin 0x10000) : CodePoint := ⟨n, by omega⟩

/-- The code point of a surrogate pair. -/
def join (high low : CodePoint) : CodePoint :=
  ⟨(0x10000 + (high.val % 0x400) * 0x400 + low.val % 0x400) % 0x110000, Nat.mod_lt _ (by decide)⟩

/-- What follows a high surrogate. -/
inductive Follower where
  /-- Anything but another `\u` escape. -/
  | other
  /-- A `\u` escape with something else than four hexadecimal digits. -/
  | malformed
  | unit (n : CodePoint)

def follower : List Char → Follower
  | '\\' :: 'u' :: a :: b :: c :: d :: _ =>
    match hex4? a b c d with
    | some n => .unit (unit n)
    | none => .malformed
  | _ => .other

/-- `scanstring_unicode`, after the opening quote; `none` is a syntax error. -/
def scanString : List Char → Option (Text × List Char)
  | [] => none
  | c :: r =>
    if c = '"' then some ([], r)
    else if c = '\\' then
      match r with
      | [] => none
      | e :: r =>
        if e = 'u' then
          match r with
          | x₁ :: x₂ :: x₃ :: x₄ :: r =>
            match hex4? x₁ x₂ x₃ x₄ with
            | none => none
            | some n =>
              match (unit n).isHigh, follower r with
              | true, .malformed => none
              | true, .unit m =>
                if m.isLow then
                  match r with
                  | _ :: _ :: _ :: _ :: _ :: _ :: r =>
                    (scanString r).map fun (s, r) => (join (unit n) m :: s, r)
                  | _ => none
                else (scanString r).map fun (s, r) => (unit n :: s, r)
              | _, _ => (scanString r).map fun (s, r) => (unit n :: s, r)
          | _ => none
        else
          match unescape? e with
          | some c => (scanString r).map fun (s, r) => (.ofChar c :: s, r)
          | none => none
    else if c.toNat < 0x20 then none
    else (scanString r).map fun (s, r) => (.ofChar c :: s, r)

/-! ## Values -/

/-- A way to read one value off a text. -/
abbrev Scan := List Char → Except ScanError (Json × List Char)

/-- The loop of `_parse_array_unicode`, from the start of an item. -/
def scanItems (scan : Scan) : ℕ → List Char → Except ScanError (List Json × List Char)
  | 0, _ => .error .syntactic
  | fuel + 1, s => do
    let (v, s) ← scan s
    match skipSpace s with
    | ']' :: s => .ok ([v], s)
    | ',' :: s => do
      let (vs, s) ← scanItems scan fuel (skipSpace s)
      .ok (v :: vs, s)
    | _ => .error .syntactic

/-- `_parse_array_unicode`, after the opening bracket. -/
def scanArray (scan : Scan) (s : List Char) : Except ScanError (Json × List Char) :=
  match skipSpace s with
  | ']' :: s => .ok (.arr [], s)
  | s => do
    let (vs, s) ← scanItems scan s.length s
    .ok (.arr vs, s)

/-- One key and its value. -/
def scanMember (scan : Scan) (s : List Char) :
    Except ScanError ((Text × Json) × List Char) :=
  match s with
  | '"' :: s =>
    match scanString s with
    | none => .error .syntactic
    | some (k, s) =>
      match skipSpace s with
      | ':' :: s => do
        let (v, s) ← scan (skipSpace s)
        .ok ((k, v), s)
      | _ => .error .syntactic
  | _ => .error .syntactic

/-- The loop of `_parse_object_unicode`, from the start of a key. -/
def scanMembers (scan : Scan) : ℕ → List Char →
    Except ScanError (List (Text × Json) × List Char)
  | 0, _ => .error .syntactic
  | fuel + 1, s => do
    let (e, s) ← scanMember scan s
    match skipSpace s with
    | '}' :: s => .ok ([e], s)
    | ',' :: s => do
      let (es, s) ← scanMembers scan fuel (skipSpace s)
      .ok (e :: es, s)
    | _ => .error .syntactic

/-- `_parse_object_unicode`, after the opening brace. Of two members with one key the later
one stays. -/
def scanObject (scan : Scan) (s : List Char) : Except ScanError (Json × List Char) :=
  match skipSpace s with
  | '}' :: s => .ok (.obj [], s)
  | s => do
    let (es, s) ← scanMembers scan s.length s
    .ok (.obj (ofItems es), s)

/-- `scan_once_unicode`; `inner` reads what is nested in a container, if the interpreter
may still recurse. -/
def scanTerm (digits : ℕ) (inner : Option Scan) (s : List Char) :
    Except ScanError (Json × List Char) :=
  match s with
  | '"' :: r =>
    match scanString r with
    | some (t, r) => .ok (.str t, r)
    | none => .error .syntactic
  | '{' :: r =>
    match inner with
    | some scan => scanObject scan r
    | none => .error .depth
  | '[' :: r =>
    match inner with
    | some scan => scanArray scan r
    | none => .error .depth
  | 'n' :: 'u' :: 'l' :: 'l' :: r => .ok (.null, r)
  | 't' :: 'r' :: 'u' :: 'e' :: r => .ok (.bool true, r)
  | 'f' :: 'a' :: 'l' :: 's' :: 'e' :: r => .ok (.bool false, r)
  | 'N' :: 'a' :: 'N' :: r => .ok (.float .nan, r)
  | 'I' :: 'n' :: 'f' :: 'i' :: 'n' :: 'i' :: 't' :: 'y' :: r => .ok (.float (.infinity false), r)
  | '-' :: 'I' :: 'n' :: 'f' :: 'i' :: 'n' :: 'i' :: 't' :: 'y' :: r =>
    .ok (.float (.infinity true), r)
  | s => scanNumber digits s

def scanValue (digits : ℕ) : ℕ → Scan
  | 0 => scanTerm digits none
  | depth + 1 => scanTerm digits (some (scanValue digits depth))

/-- A text that is one value, read by a given scan. -/
def scanText (scan : Scan) (s : List Char) : Except ScanError Json :=
  match s with
  -- a byte order mark is refused
  | '\ufeff' :: _ => .error .syntactic
  | s => do
    let (v, s) ← scan (skipSpace s)
    if skipSpace s = [] then .ok v else .error .syntactic

/-- `json.loads(s)` -/
def loads (digits depth : ℕ) (s : List Char) : Except ScanError Json :=
  scanText (scanValue digits depth) s

end Json

end InferenceGateway.Lib
