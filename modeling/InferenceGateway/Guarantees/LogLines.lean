import InferenceGateway.Core.Logging

/-!
# The log tells what was logged

Every string in a log line is somebody else's: request ids, thread ids and paths
are the clients', messages are those of exceptions. Two things keep one record
from looking like another, or like two. `json.dumps` escapes control characters,
so that only the stream handler ends lines; and what a line says is read back
from it. The second holds of texts UTF-8 can carry. A lone surrogate is dropped
with its record where standard output is `strict`, and comes out as a byte that
is no UTF-8 where it is not.

`GatewayEvent` is one call of the logger with its structured fields, and
`GatewayEvent.record` the record that the formatter gets to see. Two payloads are
compared key by key (`payload_record`), so that equal payloads come from events
that are alike.

## Main results

- `log_round_trip`: standard output is one line for each record that was
  written, and a line without escaped bytes is read as the payload of its
  record.
- `alike_of_log`: two processes that have left the same log have logged the same
  events, up to a `-` for what is not there.
-/

namespace InferenceGateway

open Lib

variable {S : Stdout} {out out' : Bytes} {r : LogRecord} {rs : List LogRecord}

/-! ## What a record writes -/

/-- The line of a record that can be written. -/
def LogRecord.line? (S : Stdout) (r : LogRecord) : Option Bytes :=
  if r.level.enabled then
    (Json.dumps S.digits S.dumpsDepth r.payload).toOption.bind S.encode?
  else none

/-- The record is written. -/
def LogRecord.Written (S : Stdout) (r : LogRecord) : Bool := (r.line? S).isSome

theorem handle_ok (h : handle S out r = .ok out') :
    out' = out ++ (r.line? S).toList.flatMap JsonLines.terminate := by
  unfold handle at h
  unfold LogRecord.line?
  split at h
  · next henabled =>
    rw [if_pos henabled]
    -- a record is dropped where writing it raises, by `dumps` or by the stream
    cases hdumps : Json.dumps S.digits S.dumpsDepth r.payload with
    | ok text =>
      rw [hdumps] at h
      cases hline : S.encode? text <;> simp only [hline] at h <;> cases h <;>
        simp [Except.toOption, hline]
    | error e =>
      rw [hdumps] at h
      cases e <;> cases h
      simp [Except.toOption]
  · next hdisabled =>
    rw [if_neg hdisabled]
    cases h
    simp

/-- **Run lemma.** Standard output is what it was before and then the line of every
record that was written, each with its line end. -/
theorem foldlM_handle (h : rs.foldlM (handle S) out = .ok out') :
    out' = out ++ (rs.filterMap (LogRecord.line? S)).flatMap JsonLines.terminate := by
  induction rs generalizing out with
  | nil =>
    cases h
    simp
  | cons r rs ih =>
    rw [List.foldlM_cons] at h
    obtain ⟨mid, hmid, hrest⟩ := exists_of_bind h
    rw [ih hrest, handle_ok hmid, List.filterMap_cons]
    cases r.line? S <;> simp

/-- A line is the text of its payload, encoded the one way or the other. -/
theorem LogRecord.line?_eq_some {b : Bytes} (h : r.line? S = some b) :
    Json.dumps S.digits S.dumpsDepth r.payload = .ok (Json.write r.payload) ∧
      S.encode? (Json.write r.payload) = some b := by
  unfold line? at h
  split at h
  · cases hdumps : Json.dumps S.digits S.dumpsDepth r.payload with
    | error e =>
      rw [hdumps] at h
      cases h
    | ok text =>
      rw [hdumps] at h
      have htext : text = Json.write r.payload := by
        unfold Json.dumps at hdumps
        split at hdumps
        · cases hdumps
        · exact (Except.ok.inj hdumps).symm
      subst htext
      exact ⟨rfl, h⟩
  · cases h

/-- **No line ends early**, whatever the strings of the record are. The text has no
control characters, and an escaped byte is no line feed either. -/
theorem LogRecord.LF_notMem_line {b : Bytes} (h : r.line? S = some b) : JsonLines.LF ∉ b := by
  have hprinted := Json.printed_write r.payload
  have hle : ∀ x ∈ b, 0x20 ≤ x.toNat := by
    have hencode := (line?_eq_some h).2
    unfold Stdout.encode? at hencode
    split at hencode
    · exact Text.le_of_mem_encode (by decide) hencode hprinted
    · exact Text.le_of_mem_encodeEscaped (by decide) hencode hprinted
  intro hmem
  have hlf := hle _ hmem
  revert hlf
  decide

/-- Nothing in the record needs an escaped byte: either it has no surrogates, or standard output
would have dropped it. -/
def LogRecord.Faithful (S : Stdout) (r : LogRecord) : Prop :=
  r.payload.Encodable ∨ S.errors = .strict

theorem LogRecord.encode?_of_faithful {b : Bytes} (hfaithful : r.Faithful S)
    (h : r.line? S = some b) : (Json.write r.payload).encode? = some b := by
  have hencode := (line?_eq_some h).2
  unfold Stdout.encode? at hencode
  split at hencode
  · exact hencode
  · next herrors =>
    rcases hfaithful with hplain | hstrict
    · obtain ⟨cs, hcs⟩ := Option.ne_none_iff_exists'.mp (Json.toChars?_write_ne_none_iff.mpr hplain)
      rw [Text.encodeEscaped?_of_toChars? hcs] at hencode
      rw [Text.encode?, hcs]
      exact hencode
    · rw [hstrict] at herrors
      cases herrors

/-- **The line of a faithful record** is read as the payload it was written from. -/
theorem LogRecord.loads_line {b : Bytes} (hdepth : S.dumpsDepth ≤ S.loadsDepth)
    (hfaithful : r.Faithful S) (h : r.line? S = some b) :
    (Codec.python S.toLimits).loads b = .ok r.payload := by
  have hdumps : (Codec.python S.toLimits).dumps r.payload = .ok b := by
    unfold Codec.python
    simp only [(line?_eq_some h).1, encode?_of_faithful hfaithful h]
  exact Codec.python_lawful hdepth _ _ r.wellFormed_payload hdumps

/-- The lines of standard output are those of the records that were written. -/
theorem lines_log (h : logAll S rs = .ok out) :
    JsonLines.lines out = rs.filterMap (LogRecord.line? S) := by
  rw [foldlM_handle h, List.nil_append, JsonLines.lines_terminate]
  intro b hb
  obtain ⟨r, -, hline⟩ := List.mem_filterMap.mp hb
  exact LogRecord.LF_notMem_line hline

/-- **The log is read back.** Standard output has one line for each record that was written, in
their order. Each is read as the payload of its record, if there are no lone surrogates in it;
where standard output is `strict` there are none. -/
theorem log_round_trip (hdepth : S.dumpsDepth ≤ S.loadsDepth) (h : logAll S rs = .ok out) :
    List.Forall₂
      (fun line r => r.Faithful S → (Codec.python S.toLimits).loads line = .ok r.payload)
      (JsonLines.lines out) (rs.filter (LogRecord.Written S)) := by
  rw [lines_log h]
  clear h
  -- on the records; one that is dropped leaves no line
  induction rs with
  | nil => exact .nil
  | cons r rs ih =>
    cases hline : r.line? S with
    | none =>
      have hskip : LogRecord.Written S r = false := by rw [LogRecord.Written, hline]; rfl
      rwa [List.filterMap_cons_none hline, List.filter_cons_of_neg (by rw [hskip]; decide)]
    | some b =>
      have hkeep : LogRecord.Written S r = true := by rw [LogRecord.Written, hline]; rfl
      rw [List.filterMap_cons_some hline, List.filter_cons_of_pos hkeep]
      exact .cons (fun hfaithful => LogRecord.loads_line hdepth hfaithful hline) ih

/-! ## What a payload tells of its event -/

namespace GatewayEvent

variable {e e' : GatewayEvent}

/-- What is not there is shown as a dash. -/
def shown : Option Text → Text
  | none | some [] => field "-"
  | some s => s

theorem orDash_map (v : Option Text) : LogRecord.orDash (v.map .str) = .str (shown v) := by
  cases v with
  | none => rfl
  | some s => cases s <;> rfl

/-- The entries of the line. -/
def shownSlots (e : GatewayEvent) : List (String × Option Json) :=
  [("ts", some (.str e.created)),
    ("level", some (.str (field e.level.gatewayLevel))),
    ("event", some (.str e.event)),
    ("service", some (.str (field "gateway"))),
    ("env", some (.str e.env)),
    ("trace_id", some (.str (shown e.traceId))),
    ("request_id", some (.str (shown e.requestId))),
    ("session_id", some (.str (shown e.sessionId))),
    ("conversation_id", some (.str (shown e.conversationId))),
    ("path", some (.str (shown e.path))),
    ("backend", some (.str (shown e.backend))),
    ("latency_ms", e.latencyMs.map .float),
    ("status_code", e.statusCode.map .int),
    ("error", e.error.map fun d => .obj d.entries),
    ("gateway_meta", e.gatewayMeta.map fun d => .obj d.entries)]

theorem nodup_shownSlots (e : GatewayEvent) : (e.shownSlots.map Prod.fst).Nodup := by
  simp [shownSlots]

theorem present_record {key : String} {v : Option Json} (h : (key, v) ∈ e.slots)
    (hnull : v ≠ some .null) : e.record.present key = v := by
  unfold LogRecord.present
  rw [getattr_record h]
  split
  · rfl
  · exact absurd rfl hnull
  · rfl

theorem payload_record (h : e.event ≠ []) : e.record.payload = .obj (fromSlots e.shownSlots) := by
  -- what the formatter finds under each of the names it looks up
  have hevent : e.record.getattr "event" = some (.str e.event) :=
    getattr_record (by simp [slots])
  have htruthy : truthy (.str e.event) = true := by
    cases he : e.event with
    | nil => exact absurd he h
    | cons c s => rfl
  have hservice : e.record.getattr "service" = some (.str (field "gateway")) :=
    getattr_record (by simp [slots])
  have henv : e.record.getattr "env" = some (.str e.env) := getattr_record (by simp [slots])
  have htrace : e.record.getattr "trace_id" = e.traceId.map .str :=
    getattr_record (by simp [slots])
  have hrequest : e.record.getattr "request_id" = e.requestId.map .str :=
    getattr_record (by simp [slots])
  have hsession : e.record.getattr "session_id" = e.sessionId.map .str :=
    getattr_record (by simp [slots])
  have hthread : e.record.getattr "conversation_id" = e.conversationId.map .str :=
    getattr_record (by simp [slots])
  have hpath : e.record.getattr "path" = e.path.map .str := getattr_record (by simp [slots])
  have hbackend : e.record.getattr "backend" = e.backend.map .str :=
    getattr_record (by simp [slots])
  have hlatency : e.record.present "latency_ms" = e.latencyMs.map .float :=
    present_record (by simp [slots]) (by cases e.latencyMs <;> simp)
  have hstatus : e.record.present "status_code" = e.statusCode.map .int :=
    present_record (by simp [slots]) (by cases e.statusCode <;> simp)
  have herror : e.record.present "structured_error" = e.error.map fun d => .obj d.entries :=
    present_record (by simp [slots]) (by cases e.error <;> simp)
  have hmeta : e.record.present "gateway_meta" = e.gatewayMeta.map fun d => .obj d.entries :=
    present_record (by simp [slots]) (by cases e.gatewayMeta <;> simp)
  unfold LogRecord.payload
  simp only [hevent, htruthy, if_true, LogRecord.gatewaySlots, LogRecord.gatewayOptionalStrings,
    List.map_cons, List.map_nil, hservice, henv, htrace, hrequest, hsession, hthread, hpath,
    hbackend, hlatency, hstatus, herror, hmeta, orDash_map, Option.getD_some]
  rfl

/-- Two events that differ in nothing but a dash: where one has no value for a slot, the
other may have none either, or a `-`. -/
structure Alike (e e' : GatewayEvent) : Prop where
  created : e.created = e'.created
  level : e.level = e'.level
  event : e.event = e'.event
  env : e.env = e'.env
  traceId : shown e.traceId = shown e'.traceId
  requestId : shown e.requestId = shown e'.requestId
  sessionId : shown e.sessionId = shown e'.sessionId
  conversationId : shown e.conversationId = shown e'.conversationId
  path : shown e.path = shown e'.path
  backend : shown e.backend = shown e'.backend
  latencyMs : e.latencyMs = e'.latencyMs
  statusCode : e.statusCode = e'.statusCode
  error : e.error.map (·.entries) = e'.error.map (·.entries)
  gatewayMeta : e.gatewayMeta.map (·.entries) = e'.gatewayMeta.map (·.entries)

theorem map_entries_eq {d d' : Option Fields}
    (h : d.map (fun d => Json.obj d.entries) = d'.map fun d => Json.obj d.entries) :
    d.map (·.entries) = d'.map (·.entries) := by
  cases d <;> cases d' <;> simp_all

/-- Events with the same payload are alike. Each field is looked up under its own name,
and a field that is missing is shown as the dash of an empty one. -/
theorem alike_of_payload (h : e.event ≠ []) (h' : e'.event ≠ [])
    (heq : e.record.payload = e'.record.payload) : Alike e e' := by
  rw [payload_record h, payload_record h', Json.obj.injEq] at heq
  -- equal payloads show the same under every key
  have hslot : ∀ {k : String} {v v' : Option Json}, (k, v) ∈ e.shownSlots →
      (k, v') ∈ e'.shownSlots → v = v' := by
    intro k v v' hv hv'
    rw [← getItem_fromSlots e.nodup_shownSlots hv, heq, getItem_fromSlots e'.nodup_shownSlots hv']
  have hstr : ∀ {k : String} {s s' : Text}, (k, some (.str s)) ∈ e.shownSlots →
      (k, some (.str s')) ∈ e'.shownSlots → s = s' :=
    fun hs hs' => Json.str.inj (Option.some.inj (hslot hs hs'))
  refine ⟨hstr (k := "ts") ?_ ?_, Level.gatewayLevel_injective (field_injective
    (hstr (k := "level") ?_ ?_)), hstr (k := "event") ?_ ?_, hstr (k := "env") ?_ ?_,
    hstr (k := "trace_id") ?_ ?_, hstr (k := "request_id") ?_ ?_, hstr (k := "session_id") ?_ ?_,
    hstr (k := "conversation_id") ?_ ?_, hstr (k := "path") ?_ ?_, hstr (k := "backend") ?_ ?_,
    Option.map_injective (fun _ _ => Json.float.inj) (hslot (k := "latency_ms") ?_ ?_),
    Option.map_injective (fun _ _ => Json.int.inj) (hslot (k := "status_code") ?_ ?_),
    map_entries_eq (hslot (k := "error") ?_ ?_),
    map_entries_eq (hslot (k := "gateway_meta") ?_ ?_)⟩
  all_goals simp [shownSlots]

theorem forall₂_of_forall {α β : Type} {p : β → Prop} {R : α → β → Prop} {l : List α} {l' : List β}
    (h : List.Forall₂ (fun a b => p b → R a b) l l') (hp : ∀ b ∈ l', p b) :
    List.Forall₂ R l l' := by
  induction h with
  | nil => exact .nil
  | cons hhead _ ih =>
    obtain ⟨hb, hrest⟩ := List.forall_mem_cons.mp hp
    exact .cons (hhead hb) (ih hrest)

/-- Its line is on standard output, and can be read. -/
structure Logged (S : Stdout) (e : GatewayEvent) : Prop where
  named : e.event ≠ []
  written : LogRecord.Written S e.record = true
  faithful : e.record.Faithful S

/-- **The log determines the events.** Whatever the strings in them are, if all of them were
written and none has a lone surrogate: no client can make one event look like another, or like
two. -/
theorem alike_of_log {es es' : List GatewayEvent} (hdepth : S.dumpsDepth ≤ S.loadsDepth)
    (hes : ∀ e ∈ es, e.Logged S) (hes' : ∀ e ∈ es', e.Logged S)
    (h : logAll S (es.map record) = .ok out) (h' : logAll S (es'.map record) = .ok out) :
    List.Forall₂ Alike es es' := by
  -- every line of the output is read as the payload of its event
  have hread : ∀ {es : List GatewayEvent}, (∀ e ∈ es, e.Logged S) →
      logAll S (es.map record) = .ok out →
      List.Forall₂ (fun line (e : GatewayEvent) =>
        (Codec.python S.toLimits).loads line = .ok e.record.payload) (JsonLines.lines out) es := by
    intro es hes h
    have hall := log_round_trip hdepth h
    rw [List.filter_eq_self.mpr, List.forall₂_map_right_iff] at hall
    · exact forall₂_of_forall hall fun e he => (hes e he).faithful
    · intro r hr
      obtain ⟨e, he, rfl⟩ := List.mem_map.mp hr
      exact (hes e he).written
  have hlines := hread hes h
  have hlines' := hread hes' h'
  clear hread h h'
  generalize JsonLines.lines out = ls at hlines hlines'
  -- on the lines, which are the same for both
  induction hlines generalizing es' with
  | nil =>
    cases hlines'
    exact .nil
  | cons hhead _ ih =>
    cases hlines' with
    | cons hhead' htail' =>
      obtain ⟨he, hrest⟩ := List.forall_mem_cons.mp hes
      obtain ⟨he', hrest'⟩ := List.forall_mem_cons.mp hes'
      have hsame := Except.ok.inj (hhead.symm.trans hhead')
      exact .cons (alike_of_payload he.named he'.named hsame) (ih hrest hrest' htail')

end GatewayEvent

/-! ## A client that tries -/

/-- A process in the image, whose locale is `C.UTF-8`. -/
def stdlib : Stdout where
  loadsDepth := 1000
  dumpsDepth := 1000
  errors := .surrogateescape

/-- A request whose id would end the line and forge another one, were it not escaped. -/
def forgedLine : GatewayEvent where
  logger := field "app.api.routes"
  level := .warning
  event := field "request_rejected"
  requestId := some (field "r\"\x7d\n\x7b\"event\": \"request_received\"")
  conversationId := some []
  statusCode := some 503
  env := field "dev"
  created := field "2026-01-01T00:00:00-05:00"

/-- Its id has a surrogate, which is written as the byte `0xff`. -/
def garbledLine : GatewayEvent := { forgedLine with requestId := some [⟨0xDCFF, by decide⟩] }

theorem encodable_forgedLine : forgedLine.record.payload.Encodable := by
  refine Json.toChars?_write_ne_none_iff.mp ?_
  decide +kernel

theorem logAll_forgedLine : (logAll stdlib [forgedLine.record]).isOk = true ∧
    LogRecord.Written stdlib forgedLine.record = true := by
  decide +kernel

/-- The forged line is one line, and so is the garbled one, which cannot be read. -/
theorem log_round_trip_forgedLine :
    ∃ out line line', logAll stdlib [forgedLine.record, garbledLine.record] = .ok out ∧
      JsonLines.lines out = [line, line'] ∧
      (Codec.python stdlib.toLimits).loads line = .ok forgedLine.record.payload ∧
      ((Codec.python stdlib.toLimits).loads line').isOk = false := by
  have hread : (logAll stdlib [forgedLine.record, garbledLine.record]).map (fun out =>
      (JsonLines.lines out).map fun line => ((Codec.python stdlib.toLimits).loads line).isOk) =
      .ok [true, false] := by decide +kernel
  have hwritten : [forgedLine.record, garbledLine.record].filter (LogRecord.Written stdlib) =
      [forgedLine.record, garbledLine.record] := by
    refine List.filter_eq_self.mpr fun r hr => ?_
    rcases List.mem_pair.mp hr with rfl | rfl <;> decide +kernel
  cases h : logAll stdlib [forgedLine.record, garbledLine.record] with
  | error e =>
    rw [h] at hread
    cases hread
  | ok out =>
    have hlines := log_round_trip (le_refl _) h
    rw [hwritten] at hlines
    obtain ⟨line, ls, hline, hrest, hls⟩ := List.forall₂_cons_right_iff.mp hlines
    obtain ⟨line', ls', -, hnil, rfl⟩ := List.forall₂_cons_right_iff.mp hrest
    cases hnil
    -- what each of the two lines is read as
    have hboth : (JsonLines.lines out).map (fun line =>
        ((Codec.python stdlib.toLimits).loads line).isOk) = [true, false] := by
      rw [h] at hread
      exact Except.ok.inj hread
    rw [hls] at hboth
    exact ⟨out, line, line', rfl, hls, hline (.inl encodable_forgedLine),
      (List.cons.inj (List.cons.inj hboth).2).1⟩

/-- The event of `forgedLine` without a thread id, which is shown as an empty one is. -/
def threadlessLine : GatewayEvent := { forgedLine with conversationId := none }

theorem alike_of_log_forgedLine :
    List.Forall₂ GatewayEvent.Alike [forgedLine] [threadlessLine] := by
  obtain ⟨hok, hwritten⟩ := logAll_forgedLine
  have hevent : forgedLine.event ≠ [] := List.cons_ne_nil _ _
  -- the two payloads are the same, so everything after them is
  have hpayload : threadlessLine.record.payload = forgedLine.record.payload := by
    rw [GatewayEvent.payload_record (e := threadlessLine) hevent,
      GatewayEvent.payload_record hevent]
    rfl
  have hline : threadlessLine.record.line? stdlib = forgedLine.record.line? stdlib := by
    unfold LogRecord.line?
    rw [hpayload]
    rfl
  have hlog : logAll stdlib [threadlessLine.record] = logAll stdlib [forgedLine.record] := by
    simp only [logAll, List.foldlM_cons, handle, hpayload]
    rfl
  cases h : logAll stdlib [forgedLine.record] with
  | error e =>
    rw [h] at hok
    cases hok
  | ok out =>
    refine GatewayEvent.alike_of_log (le_refl _) ?_ ?_ h (hlog.trans h)
    · exact List.forall_mem_singleton.mpr ⟨hevent, hwritten, .inl encodable_forgedLine⟩
    · refine List.forall_mem_singleton.mpr ⟨hevent, ?_, .inl ?_⟩
      · rw [LogRecord.Written, hline]
        exact hwritten
      · rw [hpayload]
        exact encodable_forgedLine

end InferenceGateway
