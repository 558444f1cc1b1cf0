import InferenceGateway.Lib.JsonLines
import InferenceGateway.Scheduler.Classifier

/-!
# Log lines (`app/core/logging.py`)

A gateway event becomes the attributes of a log record, the record a JSON
object, and the object a line on standard output. The strings in it are the
clients': request ids, thread ids, paths, messages of exceptions.

- `log_gateway_event` is `GatewayEvent.record`, which puts the fields of the
  call into the `extra` of a record, those that are `None` left out.
- `JsonLogFormatter.format` is `LogRecord.payload`: `gatewaySlots` for a record
  with an event and `legacySlots` for any other, key by key in the order of the
  source.
- The stream handler that `setup_logging` installs is `handle`. It writes to a
  `Stdout`, which is a text stream over UTF-8 that was opened with the error
  handler of its locale, and it leaves what it cannot write to `handleError`,
  which writes nothing to the log.

The payload of a record is a dictionary whose keys are given once each
(`nodup_gatewaySlots`, `nodup_legacySlots`), so every field can be looked up in
it (`getItem_fromSlots`), and it is well formed whatever the record
(`LogRecord.wellFormed_payload`), which is what the writer and the scanner of
the JSON library ask of a value. `LogRecord` keeps that of its `extra` as a
field of `Fields`.
-/

namespace InferenceGateway

open Lib

/-! ## Dictionaries with optional entries -/

/-- Assign those of the keys that have a value, in this order. -/
def fromSlots (slots : List (String × Option Json)) : List (Text × Json) :=
  slots.filterMap fun e => e.2.map (field e.1, ·)

/-- Two names that give the same key are the same. -/
theorem field_injective : Function.Injective field := by
  intro s t h
  have hchars : Text.toChars? (.ofChars s.toList) = Text.toChars? (.ofChars t.toList) :=
    congrArg Text.toChars? h
  rw [Text.toChars?_ofChars, Text.toChars?_ofChars, Option.some.injEq] at hchars
  exact String.toList_inj.mp hchars

section Slots

variable {slots : List (String × Option Json)}

/-- The entries are the slots that have a value. -/
theorem mem_fromSlots {e : Text × Json} :
    e ∈ fromSlots slots ↔ ∃ k v, (k, some v) ∈ slots ∧ e = (field k, v) := by
  unfold fromSlots
  rw [List.mem_filterMap]
  constructor
  · rintro ⟨⟨k, v⟩, hmem, hv⟩
    obtain ⟨x, rfl, rfl⟩ := Option.map_eq_some_iff.mp hv
    exact ⟨k, x, hmem, rfl⟩
  · rintro ⟨k, v, hmem, rfl⟩
    exact ⟨(k, some v), hmem, rfl⟩

/-- Slots with different keys make entries with different keys. -/
theorem nodup_fromSlots (h : (slots.map Prod.fst).Nodup) : (keysOf (fromSlots slots)).Nodup := by
  induction slots with
  | nil => exact List.nodup_nil
  | cons e slots ih =>
    obtain ⟨hnot, hrest⟩ := List.nodup_cons.mp h
    obtain ⟨k, v⟩ := e
    cases v with
    | none => exact ih hrest
    | some v =>
      refine List.nodup_cons.mpr ⟨fun hmem => hnot ?_, ih hrest⟩
      obtain ⟨e, he, hkey⟩ := List.mem_map.mp hmem
      obtain ⟨k', v', hslot, rfl⟩ := mem_fromSlots.mp he
      exact List.mem_map.mpr ⟨_, hslot, field_injective hkey⟩

/-- A key has the value of its slot, and none if the slot has none. -/
theorem getItem_fromSlots (h : (slots.map Prod.fst).Nodup) {k : String} {v : Option Json}
    (hmem : (k, v) ∈ slots) : getItem (field k) (fromSlots slots) = v := by
  cases v with
  | some v =>
    exact (getItem_eq_some_iff (nodup_fromSlots h)).mpr (mem_fromSlots.mpr ⟨k, v, hmem, rfl⟩)
  | none =>
    refine getItem_eq_none_iff.mpr fun hkey => ?_
    obtain ⟨e, he, hk⟩ := List.mem_map.mp hkey
    obtain ⟨k', v', hslot, rfl⟩ := mem_fromSlots.mp he
    have heq := List.inj_on_of_nodup_map h hslot hmem (field_injective hk)
    exact Option.some_ne_none _ (Prod.mk.inj heq).2

/-- The object is well formed if the values are, and no key is given twice. -/
theorem wellFormed_fromSlots (h : (slots.map Prod.fst).Nodup)
    (hv : ∀ e ∈ slots, ∀ v ∈ e.2, v.WellFormed) : (Json.obj (fromSlots slots)).WellFormed := by
  refine .obj (nodup_fromSlots h) fun e he => ?_
  obtain ⟨k, v, hmem, rfl⟩ := mem_fromSlots.mp he
  exact hv _ hmem v rfl

end Slots

/-! ## Records -/

inductive Level where
  | debug
  | info
  | warning
  | error
  | critical
  deriving DecidableEq, Repr

def Level.levelname : Level → String
  | debug => "DEBUG"
  | info => "INFO"
  | warning => "WARNING"
  | error => "ERROR"
  | critical => "CRITICAL"

/-- `_gateway_level` -/
def Level.gatewayLevel (l : Level) : String :=
  if l.levelname = "WARNING" then "WARN" else l.levelname

/-- No two levels are written alike: only the name of a warning is changed. -/
theorem Level.gatewayLevel_injective : Function.Injective Level.gatewayLevel := by
  intro l l' h
  cases l <;> cases l' <;> first | rfl | exact absurd h (by decide)

/-- A `dict` whose keys are strings. -/
structure Fields where
  entries : List (Text × Json)
  wellFormed : (Json.obj entries).WellFormed

/-- A `logging.LogRecord`, as far as the formatter reads it. -/
structure LogRecord where
  /-- `datetime.fromtimestamp(record.created, tz=self._tz).isoformat()` -/
  created : Text
  level : Level
  name : Text
  /-- `record.getMessage()` -/
  message : Text
  /-- `self.formatException(record.exc_info)` -/
  exception : Option Text
  /-- The attributes `extra` has set. None of them is an attribute every record has. -/
  extra : Fields

namespace LogRecord

variable {r : LogRecord}

/-- `getattr(record, key, None)` -/
def getattr (r : LogRecord) (key : String) : Option Json := getItem (field key) r.extra.entries

/-- `_GATEWAY_OPTIONAL_STRINGS` -/
def gatewayOptionalStrings : List String :=
  ["trace_id", "request_id", "session_id", "conversation_id", "path", "backend"]

/-- `_JSON_CONTEXT_KEYS` -/
def jsonContextKeys : List String := ["request_id", "session_id", "method", "path", "status"]

def dash : Json := .str (field "-")

/-- `val if val not in (None, "") else "-"` -/
def orDash : Option Json → Json
  | none | some .null | some (.str []) => dash
  | some v => v

/-- The attribute, unless it is `None`. -/
def present (r : LogRecord) (key : String) : Option Json :=
  match r.getattr key with
  | none | some .null => none
  | some v => some v

/-- The entries of `_format_gateway`. The extra field of `setup_logging`, `backend`, is one
of the optional strings. -/
def gatewaySlots (r : LogRecord) (event : Json) : List (String × Option Json) :=
  [("ts", some (.str r.created)),
    ("level", some (.str (field r.level.gatewayLevel))),
    ("event", some event),
    ("service", some ((r.getattr "service").getD (.str (field "gateway")))),
    ("env", some ((r.getattr "env").getD dash))] ++
  gatewayOptionalStrings.map (fun key => (key, some (orDash (r.getattr key)))) ++
  [("latency_ms", r.present "latency_ms"),
    ("status_code", r.present "status_code"),
    ("error", r.present "structured_error"),
    ("gateway_meta", r.present "gateway_meta")]

/-- The entries of `_format_legacy`. -/
def legacySlots (r : LogRecord) : List (String × Option Json) :=
  [("ts", some (.str r.created)),
    ("level", some (.str (field r.level.levelname))),
    ("logger", some (.str r.name))] ++
  jsonContextKeys.map (fun key => (key, some ((r.getattr key).getD dash))) ++
  [("message", some (.str r.message)),
    ("error", some (r.exception.elim .null .str)),
    ("backend", r.getattr "backend")]

/-- `JsonLogFormatter.format`, up to `json.dumps` -/
def payload (r : LogRecord) : Json :=
  match r.getattr "event" with
  | some event => .obj (fromSlots (if truthy event then r.gatewaySlots event else r.legacySlots))
  | none => .obj (fromSlots r.legacySlots)

/-- A gateway record gives no key twice. -/
theorem nodup_gatewaySlots (r : LogRecord) (event : Json) :
    ((r.gatewaySlots event).map Prod.fst).Nodup := by
  simp [gatewaySlots, gatewayOptionalStrings]

/-- A legacy record gives no key twice. -/
theorem nodup_legacySlots (r : LogRecord) : (r.legacySlots.map Prod.fst).Nodup := by
  simp [legacySlots, jsonContextKeys]

/-! ### Well formed payloads -/

/-- Every value is well formed that there is. -/
def Sound (v : Option Json) : Prop := ∀ x ∈ v, x.WellFormed

theorem sound_some {v : Json} (h : v.WellFormed) : Sound (some v) := by
  rintro x ⟨⟩
  exact h

theorem sound_str (s : Text) : Sound (some (.str s)) := sound_some (.str s)

theorem sound_getattr (r : LogRecord) (key : String) : Sound (r.getattr key) := by
  intro v hv
  cases r.extra.wellFormed with
  | obj _ h => exact h _ (mem_of_getItem hv)

/-- The dash that stands for a missing string is well formed too. -/
theorem sound_orDash {v : Option Json} (h : Sound v) : Sound (some (orDash v)) := by
  unfold orDash
  split
  · exact sound_str _
  · exact sound_str _
  · exact sound_str _
  · next x _ _ => exact sound_some (h x rfl)

theorem sound_getD {v : Option Json} {s : Text} (h : Sound v) : Sound (some (v.getD (.str s))) := by
  cases v with
  | none => exact sound_str s
  | some x => exact h

theorem sound_present (r : LogRecord) (key : String) : Sound (r.present key) := by
  unfold present
  split
  · exact nofun
  · exact nofun
  · next v _ hv => exact sound_some (sound_getattr r key v hv)

/-- All values of a gateway record are well formed: texts, the attributes of the record,
and dashes. -/
theorem sound_gatewaySlots {event : Json} (h : event.WellFormed) :
    ∀ e ∈ r.gatewaySlots event, Sound e.2 := by
  unfold gatewaySlots
  refine List.forall_mem_append.mpr ⟨List.forall_mem_append.mpr ⟨?_, ?_⟩, ?_⟩
  · simp only [List.forall_mem_cons, List.not_mem_nil, false_implies, implies_true, and_true]
    exact ⟨sound_str _, sound_str _, sound_some h, sound_getD (sound_getattr r _),
      sound_getD (sound_getattr r _)⟩
  · intro e he
    obtain ⟨key, -, rfl⟩ := List.mem_map.mp he
    exact sound_orDash (sound_getattr r key)
  · simp only [List.forall_mem_cons, List.not_mem_nil, false_implies, implies_true, and_true]
    exact ⟨sound_present r _, sound_present r _, sound_present r _, sound_present r _⟩

/-- All values of a legacy record are well formed. -/
theorem sound_legacySlots : ∀ e ∈ r.legacySlots, Sound e.2 := by
  unfold legacySlots
  refine List.forall_mem_append.mpr ⟨List.forall_mem_append.mpr ⟨?_, ?_⟩, ?_⟩
  · simp only [List.forall_mem_cons, List.not_mem_nil, false_implies, implies_true, and_true]
    exact ⟨sound_str _, sound_str _, sound_str _⟩
  · intro e he
    obtain ⟨key, -, rfl⟩ := List.mem_map.mp he
    exact sound_getD (sound_getattr r key)
  · simp only [List.forall_mem_cons, List.not_mem_nil, false_implies, implies_true, and_true]
    refine ⟨sound_str _, ?_, sound_getattr r _⟩
    cases r.exception with
    | none => exact sound_some .null
    | some s => exact sound_str s

/-- **The payload of every record is well formed**, whatever its attributes are: the
optional slots have names that none of the fixed ones has. -/
theorem wellFormed_payload (r : LogRecord) : r.payload.WellFormed := by
  unfold payload
  split
  · next event hevent =>
    split
    · exact wellFormed_fromSlots (nodup_gatewaySlots r event)
        (sound_gatewaySlots (sound_getattr r _ event hevent))
    · exact wellFormed_fromSlots (nodup_legacySlots r) sound_legacySlots
  · exact wellFormed_fromSlots (nodup_legacySlots r) sound_legacySlots

end LogRecord

/-! ## Gateway events -/

/-- A call of `log_gateway_event`. -/
structure GatewayEvent where
  logger : Text
  level : Level
  event : Text
  requestId : Option Text := none
  traceId : Option Text := none
  sessionId : Option Text := none
  conversationId : Option Text := none
  path : Option Text := none
  backend : Option Text := none
  latencyMs : Option Binary64 := none
  statusCode : Option ℤ := none
  error : Option Fields := none
  gatewayMeta : Option Fields := none
  /-- What `_gateway_env()` returns. -/
  env : Text
  /-- The time of the call, as the formatter writes it. -/
  created : Text

namespace GatewayEvent

variable {e : GatewayEvent}

/-- The `extra` of the record. -/
def slots (e : GatewayEvent) : List (String × Option Json) :=
  [("event", some (.str e.event)),
    ("service", some (.str (field "gateway"))),
    ("env", some (.str e.env)),
    ("request_id", e.requestId.map .str),
    ("trace_id", e.traceId.map .str),
    ("session_id", e.sessionId.map .str),
    ("conversation_id", e.conversationId.map .str),
    ("path", e.path.map .str),
    ("backend", e.backend.map .str),
    ("latency_ms", e.latencyMs.map .float),
    ("status_code", e.statusCode.map .int),
    ("structured_error", e.error.map fun d => .obj d.entries),
    ("gateway_meta", e.gatewayMeta.map fun d => .obj d.entries)]

/-- `log_gateway_event` sets no attribute twice. -/
theorem nodup_slots (e : GatewayEvent) : (e.slots.map Prod.fst).Nodup := by
  simp [slots]

theorem sound_map {α : Type*} {f : α → Json} (h : ∀ a, (f a).WellFormed) (v : Option α) :
    LogRecord.Sound (v.map f) := by
  intro x hx
  obtain ⟨a, -, rfl⟩ := Option.map_eq_some_iff.mp hx
  exact h a

/-- All attributes that `log_gateway_event` sets are well formed. -/
theorem sound_slots : ∀ s ∈ e.slots, LogRecord.Sound s.2 := by
  unfold slots
  simp only [List.forall_mem_cons, List.not_mem_nil, false_implies, implies_true, and_true]
  refine ⟨LogRecord.sound_str _, LogRecord.sound_str _, LogRecord.sound_str _, ?_, ?_, ?_, ?_, ?_,
    ?_, ?_, ?_, ?_, ?_⟩
  all_goals
    refine sound_map (fun a => ?_) _
    first
    | exact .str a
    | exact .float a
    | exact .int a
    | exact a.wellFormed

/-- `log_gateway_event`, up to the handlers of the logger -/
def record (e : GatewayEvent) : LogRecord where
  created := e.created
  level := e.level
  name := e.logger
  message := e.event
  exception := none
  extra := ⟨fromSlots e.slots, wellFormed_fromSlots e.nodup_slots sound_slots⟩

/-- An attribute of the record is the field of the call it was set from. -/
theorem getattr_record {key : String} {v : Option Json} (h : (key, v) ∈ e.slots) :
    e.record.getattr key = v := getItem_fromSlots e.nodup_slots h

end GatewayEvent

/-! ## Standard output -/

/-- The level of the root logger and of its handler is `INFO`. -/
def Level.enabled : Level → Bool
  | debug => false
  | _ => true

/-- What standard output does with a character that UTF-8 has no bytes for. Python chooses it
by the locale: `surrogateescape` under `C`, `POSIX` and `C.UTF-8`, `strict` under others. -/
inductive StreamErrors where
  | strict
  | surrogateescape
  deriving DecidableEq, Repr

/-- A process as far as its log depends on it. -/
structure Stdout extends Limits where
  errors : StreamErrors

/-- The bytes of a text, or a `UnicodeEncodeError`. -/
def Stdout.encode? (S : Stdout) (t : Text) : Option Bytes :=
  match S.errors with
  | .strict => t.encode?
  | .surrogateescape => t.encodeEscaped?

/-- `StreamHandler.emit` on standard output. What cannot be written or encoded is left to
`handleError`, but for a `RecursionError`, which is raised. -/
def handle (S : Stdout) (out : Bytes) (r : LogRecord) : Except Exn Bytes :=
  if r.level.enabled then
    match Json.dumps S.digits S.dumpsDepth r.payload with
    | .error .depth => .error .recursionError
    | .error .digits => .ok out
    | .ok text =>
      match S.encode? text with
      | some line => .ok (out ++ JsonLines.terminate line)
      | none => .ok out
  else .ok out

/-- Everything that is logged, one record after the other. -/
def logAll (S : Stdout) (rs : List LogRecord) : Except Exn Bytes := rs.foldlM (handle S) []

end InferenceGateway
