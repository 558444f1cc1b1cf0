import Mathlib.Data.List.TakeWhile
import Mathlib.Tactic.TypeStar

/-!
# Server-sent events

How a receiver reads a byte stream as events. A line is ended by LF, CR or CR
LF; a blank line dispatches what has been collected, unless that has no data;
what the last lines leave undispatched at the end is lost. Fields are read as
bytes: decoding a line does not move its end or its colon, since those are
ASCII.

- `lines`, `Buffers.line`, `events`: the parser, from bytes to lines, from a
  line to what it does to the buffers, and from the lines to the events.
- `Inline`: a byte that ends no line. A text of such bytes is one line
  (`linesFrom_append`), whatever stands after it.
- `events_data_append`: a `data` line, a blank line and then any stream are one
  event with that data, followed by the events of the stream.
-/

namespace InferenceGateway.Lib.ServerSentEvents

/-- Bytes of an ASCII literal. -/
def ascii (s : String) : List UInt8 := s.toList.map fun c => c.toNat.toUInt8

def LF : UInt8 := 0x0A
def CR : UInt8 := 0x0D
def colon : UInt8 := 0x3A
def space : UInt8 := 0x20

/-! ## Lines -/

/-- The lines that are ended, the first of which has begun with `line`. A line feed right
after a carriage return ends no other line. -/
def linesFrom (line : List UInt8) (afterCR : Bool) : List UInt8 → List (List UInt8)
  | [] => []
  | b :: rest =>
    if b = LF then
      if afterCR then linesFrom [] false rest else line :: linesFrom [] false rest
    else if b = CR then line :: linesFrom [] true rest
    else linesFrom (line ++ [b]) false rest

def lines (stream : List UInt8) : List (List UInt8) := linesFrom [] false stream

/-! ## Events -/

structure Event where
  type : List UInt8
  data : List UInt8
  lastEventId : List UInt8
  deriving DecidableEq

/-- The buffers a receiver keeps between lines. -/
structure Buffers where
  type : List UInt8 := []
  data : List UInt8 := []
  lastEventId : List UInt8 := []

/-- A field of an event. `retry` only sets the time to reconnect after, and a name that is
not known is ignored. -/
def Buffers.field (st : Buffers) (name value : List UInt8) : Buffers :=
  if name = ascii "event" then { st with type := value }
  else if name = ascii "data" then { st with data := st.data ++ value ++ [LF] }
  else if name = ascii "id" then if 0 ∈ value then st else { st with lastEventId := value }
  else st

/-- A blank line; the last line feed is not part of the data. -/
def Buffers.dispatch (st : Buffers) : Buffers × Option Event :=
  if st.data = [] then ({ st with type := [] }, none)
  else
    ({ lastEventId := st.lastEventId },
      some ⟨if st.type = [] then ascii "message" else st.type, st.data.dropLast, st.lastEventId⟩)

/-- What follows the colon, without one space. -/
def valueOf : List UInt8 → List UInt8
  | [] => []
  | b :: value => if b = space then value else b :: value

/-- One line. -/
def Buffers.line (st : Buffers) (line : List UInt8) : Buffers × Option Event :=
  if line = [] then st.dispatch
  -- a comment
  else if line.head? = some colon then (st, none)
  else
    (st.field (line.takeWhile (· ≠ colon)) (valueOf (line.dropWhile (· ≠ colon)).tail), none)

def eventsFrom (st : Buffers) : List (List UInt8) → List Event
  | [] => []
  | line :: rest => (st.line line).2.toList ++ eventsFrom (st.line line).1 rest

/-- The byte-order mark. -/
def bom : List UInt8 := [0xEF, 0xBB, 0xBF]

/-- The events of a stream; a leading byte-order mark is not part of it. -/
def events (stream : List UInt8) : List Event :=
  eventsFrom {} (lines (if bom <+: stream then stream.drop 3 else stream))

example : events (ascii "data: a\r\ndata:b\r\n\r\n: c\n\nevent: d\rdata\r\rdata: e\n") =
    [⟨ascii "message", ascii "a\nb", []⟩, ⟨ascii "d", [], []⟩] := by
  decide +kernel

/-! ## An event in front -/

/-- A byte that ends no line. -/
def Inline (b : UInt8) : Prop := b ≠ LF ∧ b ≠ CR

instance (b : UInt8) : Decidable (Inline b) := inferInstanceAs (Decidable (_ ∧ _))

/-- A text without line ends goes into the line it is in, up to the next line end. -/
theorem linesFrom_append {text : List UInt8} (h : ∀ b ∈ text, Inline b)
    (line rest : List UInt8) :
    linesFrom line false (text ++ LF :: rest) = (line ++ text) :: linesFrom [] false rest := by
  induction text generalizing line with
  | nil => simp [linesFrom]
  | cons b text ih =>
    obtain ⟨⟨hlf, hcr⟩, htext⟩ := List.forall_mem_cons.mp h
    rw [List.cons_append, linesFrom, if_neg hlf, if_neg hcr, ih htext]
    simp

/-- The `data` line. -/
theorem line_data (text : List UInt8) :
    Buffers.line {} (ascii "data: " ++ text) = ({ data := text ++ [LF] }, none) := by
  have hname : (ascii "data: " ++ text).takeWhile (· ≠ colon) = ascii "data" := rfl
  have hvalue : valueOf ((ascii "data: " ++ text).dropWhile (· ≠ colon)).tail = text := rfl
  rw [Buffers.line, if_neg (by simp [ascii]), if_neg (by simp [ascii, colon]), hname, hvalue]
  rfl

/-- **An event in front.** A `data` line that has no line end in it and a blank line are
one event, and the stream after them is read as it would be alone. -/
theorem events_data_append {text stream : List UInt8} (htext : ∀ b ∈ text, Inline b)
    (hbom : ¬ bom <+: stream) :
    events (ascii "data: " ++ text ++ [LF, LF] ++ stream) =
      ⟨ascii "message", text, []⟩ :: events stream := by
  -- a byte order mark would begin with another byte
  have hfirst : ¬ bom <+: ascii "data: " ++ text ++ [LF, LF] ++ stream := by
    rw [List.append_assoc, List.append_assoc]
    rintro ⟨t, ht⟩
    cases ht
  have hname : ((ascii "data: ").all fun b => decide (Inline b)) = true := by decide
  have hline : ∀ b ∈ ascii "data: " ++ text, Inline b := fun b hb =>
    (List.mem_append.mp hb).elim (fun hb => of_decide_eq_true (List.all_eq_true.mp hname b hb))
      (htext b)
  have hlines : lines (ascii "data: " ++ text ++ [LF, LF] ++ stream) =
      (ascii "data: " ++ text) :: [] :: lines stream := by
    rw [List.append_assoc]
    show linesFrom [] false (_ ++ LF :: (LF :: stream)) = _
    rw [linesFrom_append hline, List.nil_append]
    rfl
  -- the blank line dispatches what the `data` line has collected
  have hblank : Buffers.line { data := text ++ [LF] } [] =
      ({}, some ⟨ascii "message", text, []⟩) := by
    rw [Buffers.line, if_pos rfl, Buffers.dispatch, if_neg (by simp), if_pos rfl]
    simp
  rw [events, if_neg hfirst, events, if_neg hbom, hlines, eventsFrom, line_data, eventsFrom, hblank]
  rfl

end InferenceGateway.Lib.ServerSentEvents
