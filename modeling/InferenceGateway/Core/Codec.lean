import InferenceGateway.Core.Types
import InferenceGateway.Lib.JsonLimits

/-!
# Bodies (`app/core/conversation.py`)

A body travels as bytes and is looked at as a JSON value. Every function that
does so goes through `json.loads(b.decode("utf-8"))` and `json.dumps(v,
ensure_ascii=False).encode("utf-8")`, which a `Codec` stands for. Most results
hold of any codec, and say which property of it they need.

`Codec.python` is the codec of the standard library, put together from the
scanner and the writer of the library modules and from UTF-8. Its `Limits` are
those of the interpreter: the digits an integer may have, and how deep a
container may be nested before a `RecursionError`, for reading and for writing.
Which exception is raised for which failure is `scanExn` and `excessExn`.

- `Codec.python_lawful`: it reads back what it writes.
- `Codec.python_dumps_ok_iff`: which values it writes.
- `Codec.python_loads_iff`, `Codec.python_dumps_ok`: what it does in terms of
  characters, where the library lemmas about scanning and writing apply.

The last definitions are the thread fields of a body, which are the gateway's
own.
-/

namespace InferenceGateway

open Lib

/-- What reading a body, looking at it or writing it can raise. -/
inductive Exn where
  | unicodeDecodeError
  | unicodeEncodeError
  | jsonDecodeError
  | valueError
  | recursionError
  | typeError
  | attributeError
  | overflowError
  deriving DecidableEq, Repr

namespace Exn

/-- `except ValueError` catches it. -/
def isValueError : Exn → Bool
  | unicodeDecodeError | unicodeEncodeError | jsonDecodeError | valueError => true
  | _ => false

/-- The name of its class. -/
def name : Exn → String
  | unicodeDecodeError => "UnicodeDecodeError"
  | unicodeEncodeError => "UnicodeEncodeError"
  | jsonDecodeError => "JSONDecodeError"
  | valueError => "ValueError"
  | recursionError => "RecursionError"
  | typeError => "TypeError"
  | attributeError => "AttributeError"
  | overflowError => "OverflowError"

end Exn

/-- How the gateway reads and writes bodies. -/
structure Codec where
  /-- `json.loads(b.decode("utf-8"))` -/
  loads : Bytes → Except Exn Json
  /-- `json.dumps(v, ensure_ascii=False).encode("utf-8")` -/
  dumps : Json → Except Exn Bytes

/-- What was written is read back, as the same value with its members in the same
order. -/
def Codec.Lawful (J : Codec) : Prop :=
  ∀ v b, v.WellFormed → J.dumps v = .ok b → J.loads b = .ok v

/-- Where a chain of fallible steps succeeds, each of them has. -/
theorem exists_of_bind {ε α β : Type} {a : Except ε α} {f : α → Except ε β} {b : β}
    (h : a >>= f = .ok b) : ∃ v, a = .ok v ∧ f v = .ok b := by
  cases a with
  | error e => cases h
  | ok v => exact ⟨v, rfl, h⟩

/-- The limits of the interpreter on the digits of integers and on nested containers. -/
structure Limits where
  digits : ℕ := 4300
  loadsDepth : ℕ
  dumpsDepth : ℕ

/-- The exception `json.loads` raises. -/
def scanExn : ScanError → Exn
  | .syntactic => .jsonDecodeError
  | .digits => .valueError
  | .depth => .recursionError

/-- The exception `json.dumps` raises. -/
def excessExn : Json.Excess → Exn
  | .digits => .valueError
  | .depth => .recursionError

/-- The codec of the standard library: UTF-8 around the scanner and the writer of
`json`. -/
def Codec.python (L : Limits) : Codec where
  loads b :=
    match Text.decode? b with
    | none => .error .unicodeDecodeError
    | some s => (Json.loads L.digits L.loadsDepth s).mapError scanExn
  dumps v :=
    match Json.dumps L.digits L.dumpsDepth v with
    | .error e => .error (excessExn e)
    | .ok t =>
      match t.encode? with
      | some b => .ok b
      | none => .error .unicodeEncodeError

/-- Bytes that decode are read as their characters are. -/
theorem Codec.python_loads_of_decode {L : Limits} {b : Bytes} {cs : List Char}
    (h : Text.decode? b = some cs) :
    (Codec.python L).loads b = (Json.loads L.digits L.loadsDepth cs).mapError scanExn := by
  unfold Codec.python
  simp only [h]

/-- A value that is read from bytes is one that the scanner reads from their
characters. -/
theorem Codec.python_loads_iff {L : Limits} {b : Bytes} {cs : List Char} {v : Json}
    (h : Text.decode? b = some cs) :
    (Codec.python L).loads b = .ok v ↔ Json.loads L.digits L.loadsDepth cs = .ok v := by
  rw [Codec.python_loads_of_decode h]
  cases Json.loads L.digits L.loadsDepth cs with
  | error e => exact ⟨nofun, nofun⟩
  | ok w => simp [Except.mapError]

/-- Bytes that were written are the characters of the value's text, encoded. A text with
a surrogate in it is not written at all. -/
theorem Codec.python_dumps_ok {L : Limits} {v : Json} {b : Bytes}
    (h : (Codec.python L).dumps v = .ok b) :
    ∃ cs, Text.toChars? (Json.write v) = some cs ∧ Text.decode? b = some cs ∧
      Json.excess L.digits L.dumpsDepth v = none := by
  unfold Codec.python Json.dumps at h
  dsimp only at h
  cases hexcess : Json.excess L.digits L.dumpsDepth v with
  | some e =>
    rw [hexcess] at h
    cases h
  | none =>
    simp only [hexcess] at h
    split at h
    · next hb =>
      cases h
      -- what UTF-8 encodes has no surrogates, so it is a list of characters
      obtain ⟨cs, hcs, htext⟩ := Text.decode?_of_encode? hb
      exact ⟨cs, by rw [htext, Text.toChars?_ofChars], hcs, rfl⟩
    · cases h

/-- Bytes that were written are the encoded text of the value. -/
theorem Codec.python_dumps_encode {L : Limits} {v : Json} {b : Bytes}
    (h : (Codec.python L).dumps v = .ok b) : (Json.write v).encode? = some b := by
  unfold Codec.python Json.dumps at h
  dsimp only at h
  cases hexcess : Json.excess L.digits L.dumpsDepth v with
  | some e =>
    rw [hexcess] at h
    cases h
  | none =>
    simp only [hexcess] at h
    split at h
    · next hb =>
      cases h
      exact hb
    · cases h

/-- A value that was read is written if it is not nested too deeply and has no
surrogates: its integers are short enough, since they were read. -/
theorem Codec.python_dumps_ok_iff {L : Limits} {v : Json} (hshort : v.Short L.digits) :
    (∃ b, (Codec.python L).dumps v = .ok b) ↔ v.nesting ≤ L.dumpsDepth ∧ v.Encodable := by
  constructor
  · rintro ⟨b, h⟩
    obtain ⟨cs, hcs, -, hexcess⟩ := Codec.python_dumps_ok h
    refine ⟨Json.nesting_le_of_excess hexcess, Json.toChars?_write_ne_none_iff.mp ?_⟩
    rw [hcs]
    exact Option.some_ne_none cs
  · rintro ⟨hdepth, hencodable⟩
    obtain ⟨cs, hcs⟩ := Option.ne_none_iff_exists'.mp
      (Json.toChars?_write_ne_none_iff.mpr hencodable)
    have hexcess := hshort.excess_eq_none_iff.mpr hdepth
    unfold Codec.python Json.dumps
    simp only [hexcess, Text.encode?, hcs, Option.map_some]
    exact ⟨_, rfl⟩

/-- What is written is read back, where reading may recurse as deeply as writing. The
writer puts down nothing that has an excess, and within the limits the scanner reads
what is written. -/
theorem Codec.python_lawful {L : Limits} (hdepth : L.dumpsDepth ≤ L.loadsDepth) :
    (Codec.python L).Lawful := by
  intro v b hv h
  obtain ⟨cs, hcs, hdecode, hexcess⟩ := Codec.python_dumps_ok h
  have hdumps : Json.dumps L.digits L.dumpsDepth v = .ok (Json.write v) := by
    unfold Json.dumps
    rw [hexcess]
  exact (Codec.python_loads_iff hdecode).mpr (Json.loads_dumps hv hdepth hdumps hcs)

/-- The bytes of a literal all of whose characters are ASCII. -/
def ascii (s : String) : Bytes := s.toList.map fun c => c.toNat.toUInt8

/-- What is written for an object starts with a brace. -/
theorem Codec.python_dumps_obj {L : Limits} {es : List (Text × Json)} {b : Bytes}
    (h : (Codec.python L).dumps (.obj es) = .ok b) : ∃ r, b = ascii "\x7b" ++ r := by
  obtain ⟨cs, hcs, rfl⟩ := Option.map_eq_some_iff.mp (Codec.python_dumps_encode h)
  have hbrace : ∃ r, cs = '{' :: r := by
    cases es with
    | nil =>
      cases hcs
      exact ⟨_, rfl⟩
    | cons e es =>
      obtain ⟨_, r, hopen, -, rfl⟩ := Text.toChars?_append_eq_some.mp hcs
      cases hopen
      exact ⟨r, rfl⟩
  obtain ⟨r, rfl⟩ := hbrace
  exact ⟨r.flatMap String.utf8EncodeChar, rfl⟩

/-- A field name of a request body. -/
def field (name : String) : Text := .ofString name

/-- The gateway's own thread fields. -/
def isThreadField (k : Text) : Bool :=
  decide (k = field "conversation_id") || decide (k = field "is_new_conversation")

/-- `strip_conversation_fields`: the thread fields are not forwarded. -/
def stripConversationFields (data : List (Text × Json)) : List (Text × Json) :=
  data.filter fun e => !isThreadField e.1

/-- A stripped body lacks the thread fields and has every other member as it was. -/
theorem getItem_stripConversationFields (k : Text) (data : List (Text × Json)) :
    getItem k (stripConversationFields data) =
      if isThreadField k then none else getItem k data := by
  have hfilter : getItem k (stripConversationFields data) =
      if !isThreadField k then getItem k data else none :=
    getItem_filter (fun k => !isThreadField k) k data
  rw [hfilter]
  cases isThreadField k <;> rfl

end InferenceGateway
