import InferenceGateway.Lib.JsonStrict
import InferenceGateway.Proxy.Responses

/-!
# Merging the thread fields into a response

A buffered success is read with `json.loads`, and where that gives an object the thread
fields are set in it and it is written again with `json.dumps`. What the client is promised
is about JSON as such (`IsJson`), while the gateway reads and writes more than that: the names
of the floats that are not finite. So there are three ways to break the promise. An
exception can come out of reading or writing, a body that is no JSON can be rewritten, and
a body that is JSON can become one that is not.

## Main results

- `merged_iff`: when nothing comes out of the merge but its result.
- `promised_iff`: when a success is kept whole and the client receives it.
-/

namespace InferenceGateway

open Lib

namespace Responses

variable {L : Limits} {x : Payload} {content : Bytes} {data : List (Text × Json)}

/-! ## The merged object -/

theorem mem_mergedObject (h : (keysOf data).Nodup) {e : Text × Json} :
    e ∈ mergedObject x data ↔ e = (field "is_new_conversation", .bool x.isNewConversation) ∨
      e = (field "conversation_id", .str x.conversationId) ∨
        (e ∈ data ∧ isThreadField e.1 = false) := by
  have hne : field "conversation_id" ≠ field "is_new_conversation" := by decide
  unfold mergedObject
  -- the flag is set last, so it is looked for first
  rw [mem_setItem (nodup_setItem h), mem_setItem h]
  unfold isThreadField
  rw [Bool.or_eq_false_iff, decide_eq_false_iff_not, decide_eq_false_iff_not]
  constructor
  · rintro (hnew | ⟨hid | ⟨hold, hkey⟩, hkey'⟩)
    · exact .inl hnew
    · exact .inr (.inl hid)
    · exact .inr (.inr ⟨hold, hkey, hkey'⟩)
  · rintro (hnew | hid | ⟨hold, hkey, hkey'⟩)
    · exact .inl hnew
    · refine .inr ⟨.inl hid, ?_⟩
      rw [hid]
      exact hne
    · exact .inr ⟨.inr ⟨hold, hkey⟩, hkey'⟩

theorem getItem_mergedObject (x : Payload) (data : List (Text × Json)) (k : Text) :
    getItem k (mergedObject x data) =
      if k = field "conversation_id" then some (.str x.conversationId)
      else if k = field "is_new_conversation" then some (.bool x.isNewConversation)
      else getItem k data := by
  have hne : field "conversation_id" ≠ field "is_new_conversation" := by decide
  unfold mergedObject
  rw [getItem_setItem, getItem_setItem]
  by_cases hid : k = field "conversation_id"
  · rw [if_pos hid, if_neg (hid ▸ hne), if_pos hid]
  · rw [if_neg hid, if_neg hid]

theorem wellFormed_mergedObject (h : (Json.obj data).WellFormed) :
    (Json.obj (mergedObject x data)).WellFormed :=
  (h.setItem (.str _)).setItem (.bool _)

theorem short_mergedObject {digits : ℕ} (hwf : (Json.obj data).WellFormed)
    (h : (Json.obj data).Short digits) : (Json.obj (mergedObject x data)).Short digits := by
  obtain ⟨depth, h⟩ := h
  cases hwf with
  | obj keys _ =>
    cases depth with
    | zero => cases h
    | succ depth =>
      have hmembers := Json.excessMembers_eq_none_iff.mp h
      refine ⟨depth + 1, Json.excessMembers_eq_none_iff.mpr fun e he => ?_⟩
      rcases (mem_mergedObject keys).mp he with rfl | rfl | ⟨hold, -⟩
      · cases depth <;> rfl
      · cases depth <;> rfl
      · exact hmembers e hold

/-- The parts of an object that stay in it. -/
def Kept (P : Text × Json → Prop) (data : List (Text × Json)) : Prop :=
  ∀ e ∈ data, isThreadField e.1 = false → P e

/-- The merged object can be encoded where the thread id, and what stays of the object,
has no surrogates. -/
theorem encodable_mergedObject_iff (h : (keysOf data).Nodup) :
    (Json.obj (mergedObject x data)).Encodable ↔
      (∀ c ∈ x.conversationId, c.isSurrogate = false) ∧
        Kept (fun e => (∀ c ∈ e.1, c.isSurrogate = false) ∧ e.2.Encodable) data := by
  have hname : ∀ s, ∀ c ∈ field s, c.isSurrogate = false :=
    fun _ _ hc => Text.isSurrogate_of_mem_ofChars hc
  have hid : (Json.str x.conversationId).Encodable ↔
      ∀ c ∈ x.conversationId, c.isSurrogate = false := by
    simp [Json.Encodable, Json.texts]
  have hflag : (Json.bool x.isNewConversation).Encodable := by simp [Json.Encodable, Json.texts]
  rw [Json.encodable_obj_iff]
  -- the names of the two fields and the flag are always encodable
  constructor
  · intro hall
    refine ⟨?_, fun e he hkey => hall e ((mem_mergedObject h).mpr (.inr (.inr ⟨he, hkey⟩)))⟩
    exact hid.mp (hall _ ((mem_mergedObject h).mpr (.inr (.inl rfl)))).2
  · rintro ⟨hplain, hkept⟩ e he
    rcases (mem_mergedObject h).mp he with rfl | rfl | ⟨hold, hkey⟩
    · exact ⟨hname _, hflag⟩
    · exact ⟨hname _, hid.mpr hplain⟩
    · exact hkept e hold hkey

/-- The nesting of the merged object is that of what stays of the original: the thread
fields are flat and whatever stood under their names is gone. -/
theorem nesting_mergedObject_le_iff (h : (keysOf data).Nodup) {depth : ℕ} :
    (Json.obj (mergedObject x data)).nesting ≤ depth ↔
      1 ≤ depth ∧ Kept (fun e => e.2.nesting < depth) data := by
  -- the two thread fields are flat, so only what is kept of the object counts
  cases depth with
  | zero =>
    exact ⟨fun hle => absurd hle (Nat.not_succ_le_zero _), fun hle => absurd hle.1 (by decide)⟩
  | succ depth =>
    show Json.levelsMembers 0 (mergedObject x data) + 1 ≤ depth + 1 ↔ _
    rw [Nat.succ_le_succ_iff, Json.levelsMembers_le_iff]
    constructor
    · intro hall
      refine ⟨Nat.succ_le_succ (Nat.zero_le _), fun e he hkey => Nat.lt_succ_of_le ?_⟩
      exact hall e ((mem_mergedObject h).mpr (.inr (.inr ⟨he, hkey⟩)))
    · rintro ⟨-, hkept⟩ e he
      rcases (mem_mergedObject h).mp he with rfl | rfl | ⟨hold, hkey⟩
      · exact Nat.zero_le _
      · exact Nat.zero_le _
      · exact Nat.le_of_lt_succ (hkept e hold hkey)

/-! ## What is promised, and when -/

/-- `json.loads` reads the bytes as a value, where its limits are high enough. -/
def IsRead (content : Bytes) (v : Json) : Prop :=
  ∃ s digits depth, Text.decode? content = some s ∧ Json.loads digits depth s = .ok v

/-- The bytes are a JSON text, and it stands for this value. -/
def IsJson (content : Bytes) (v : Json) : Prop :=
  ∃ s digits depth, Text.decode? content = some s ∧ Json.loadsStrict digits depth s = .ok v

theorem IsRead.unique {v v' : Json} (h : IsRead content v) (h' : IsRead content v') : v = v' := by
  obtain ⟨s, digits, depth, hs, hv⟩ := h
  obtain ⟨s', digits', depth', hs', hv'⟩ := h'
  cases hs.symm.trans hs'
  exact Json.loads_unique hv hv'

theorem IsJson.isRead {v : Json} (h : IsJson content v) : IsRead content v := by
  obtain ⟨s, digits, depth, hs, hv⟩ := h
  exact ⟨s, digits, depth, hs, Json.loads_of_loadsStrict hv⟩

/-- What is relayed keeps the body: for a JSON object it is one that has the thread fields set
and everything else as it was, and for any other body it is the body, byte for byte. -/
structure Keeps (x : Payload) (content body : Bytes) : Prop where
  object : ∀ data, IsJson content (.obj data) → ∃ data', IsJson body (.obj data') ∧
    ∀ k, getItem k data' =
      if k = field "conversation_id" then some (.str x.conversationId)
      else if k = field "is_new_conversation" then some (.bool x.isNewConversation)
      else getItem k data
  other : (∀ data, ¬ IsJson content (.obj data)) → body = content

/-- A success is kept whole: the merge raises nothing, and the client receives the upstream's
status with a body that keeps the upstream's. -/
def Promised (J : Codec) (x : Payload) (status : ℤ) (fields : List Field) (content : Bytes) :
    Prop :=
  ∃ merged head, mergeConversation J content x = .ok merged ∧
    bufferedRelay J x status fields content = .ok (head, merged.getD content) ∧
    head.statusCode = status ∧ Keeps x content (merged.getD content)

/-- A body that is text is read without meeting a limit, and if it is an object, it and
the thread id can be written: no surrogate is left in it, and it is not nested too deeply. -/
def Mergeable (L : Limits) (x : Payload) (content : Bytes) : Prop :=
  ∀ s, Text.decode? content = some s →
    Json.loads L.digits L.loadsDepth s ≠ .error .digits ∧
    Json.loads L.digits L.loadsDepth s ≠ .error .depth ∧
    ∀ data, Json.loads L.digits L.loadsDepth s = .ok (.obj data) →
      (∀ c ∈ x.conversationId, c.isSurrogate = false) ∧ 1 ≤ L.dumpsDepth ∧
        Kept (fun e => (∀ c ∈ e.1, c.isSurrogate = false) ∧ e.2.Encodable ∧
          e.2.nesting < L.dumpsDepth) data

/-- The bytes are what the gateway would write: both thread fields have their values, and the
layout is that of `json.dumps`. -/
structure AsWritten (L : Limits) (x : Payload) (content : Bytes) (data : List (Text × Json)) :
    Prop where
  id : getItem (field "conversation_id") data = some (.str x.conversationId)
  flag : getItem (field "is_new_conversation") data = some (.bool x.isNewConversation)
  bytes : (Codec.python L).dumps (.obj data) = .ok content

/-- What is rewritten was JSON and stays it: every object that `json.loads` reads is a JSON
text without a number, in what stays of it, that is too large for a float. Or else the
rewriting changes nothing. -/
def StaysJson (L : Limits) (x : Payload) (content : Bytes) : Prop :=
  ∀ data, IsRead content (.obj data) →
    (IsJson content (.obj data) ∧ Kept (fun e => e.2.AllFinite) data) ∨ AsWritten L x content data

/-! ## The merge -/

/-- Where the body is read as an object, the merge writes it again. -/
theorem mergeConversation_object {s : List Char} (hs : Text.decode? content = some s)
    (hload : Json.loads L.digits L.loadsDepth s = .ok (.obj data)) :
    mergeConversation (.python L) content x =
      ((Codec.python L).dumps (.obj (mergedObject x data))).map some := by
  unfold mergeConversation
  rw [(Codec.python_loads_iff hs).mpr hload]

/-- What was written for the merged object is read as it. -/
theorem isRead_rewritten {b : Bytes} {s : List Char}
    (hload : Json.loads L.digits L.loadsDepth s = .ok (.obj data))
    (hb : (Codec.python L).dumps (.obj (mergedObject x data)) = .ok b) :
    IsRead b (.obj (mergedObject x data)) := by
  have hwithin := Json.within_of_loads hload
  obtain ⟨cs, hcs, hdecode, hexcess⟩ := Codec.python_dumps_ok hb
  refine ⟨cs, L.digits, L.dumpsDepth, hdecode, ?_⟩
  exact (Json.loads_written_iff (wellFormed_mergedObject hwithin.wellFormed)
    (short_mergedObject hwithin.wellFormed ⟨_, hwithin.excess⟩) hcs).mpr
      ⟨rfl, Json.nesting_le_of_excess hexcess⟩

/-- A body that is not read as an object is not changed by the merge, if the merge comes
to an end. -/
theorem mergeConversation_eq_none {merged : Option Bytes}
    (h : ∀ data s, Text.decode? content = some s →
      Json.loads L.digits L.loadsDepth s ≠ .ok (.obj data))
    (hmerge : mergeConversation (.python L) content x = .ok merged) : merged = none := by
  unfold mergeConversation at hmerge
  -- by how far the body gets; only an object is written again
  cases hs : Text.decode? content with
  | none =>
    simp only [Codec.python, hs] at hmerge
    cases hmerge
    rfl
  | some s =>
    cases hload : Json.loads L.digits L.loadsDepth s with
    | error e =>
      rw [Codec.python_loads_of_decode hs, hload] at hmerge
      cases e <;> cases hmerge
      rfl
    | ok v =>
      rw [(Codec.python_loads_iff hs).mpr hload] at hmerge
      cases v with
      | obj data => exact absurd hload (h data s hs)
      | _ =>
        cases hmerge
        rfl

/-- Merged bytes are read as the merged object. -/
theorem isRead_of_merged {b : Bytes} (h : mergeConversation (.python L) content x = .ok (some b)) :
    ∃ data, IsRead b (.obj (mergedObject x data)) := by
  -- a body that is no object is not merged into
  by_cases hobject : ∃ data s, Text.decode? content = some s ∧
      Json.loads L.digits L.loadsDepth s = .ok (.obj data)
  · obtain ⟨data, s, hs, hload⟩ := hobject
    rw [mergeConversation_object hs hload] at h
    cases hb : (Codec.python L).dumps (.obj (mergedObject x data)) with
    | error e =>
      rw [hb] at h
      cases h
    | ok b' =>
      rw [hb] at h
      cases h
      exact ⟨data, isRead_rewritten hload hb⟩
  · have hnone := mergeConversation_eq_none (fun data s hs hload => hobject ⟨data, s, hs, hload⟩) h
    cases hnone

/-- The merged object can be written if and only if what stays of the original can, and
the thread id has no surrogate. -/
theorem dumps_mergedObject_iff {s : List Char}
    (hload : Json.loads L.digits L.loadsDepth s = .ok (.obj data)) :
    (∃ b, (Codec.python L).dumps (.obj (mergedObject x data)) = .ok b) ↔
      (∀ c ∈ x.conversationId, c.isSurrogate = false) ∧ 1 ≤ L.dumpsDepth ∧
        Kept (fun e => (∀ c ∈ e.1, c.isSurrogate = false) ∧ e.2.Encodable ∧
          e.2.nesting < L.dumpsDepth) data := by
  have hwithin := Json.within_of_loads hload
  have hkeys := hwithin.wellFormed.nodup
  rw [Codec.python_dumps_ok_iff (short_mergedObject hwithin.wellFormed ⟨_, hwithin.excess⟩),
    nesting_mergedObject_le_iff hkeys, encodable_mergedObject_iff hkeys]
  constructor
  · rintro ⟨⟨hone, hdeep⟩, hid, hplain⟩
    exact ⟨hid, hone, fun e he hkey => ⟨(hplain e he hkey).1, (hplain e he hkey).2,
      hdeep e he hkey⟩⟩
  · rintro ⟨hid, hone, hkept⟩
    exact ⟨⟨hone, fun e he hkey => (hkept e he hkey).2.2⟩, hid,
      fun e he hkey => ⟨(hkept e he hkey).1, (hkept e he hkey).2.1⟩⟩

/-- **When the merge raises nothing.** Exactly if the body, where it is text, is read without
meeting the limit on the digits of an integer or on nesting, and, where it is an object, no
surrogate is in the id or in what stays of it, and it is not nested too deeply to be
written. -/
theorem merged_iff :
    (∃ merged, mergeConversation (.python L) content x = .ok merged) ↔ Mergeable L x content := by
  cases hs : Text.decode? content with
  | none =>
    refine iff_of_true ⟨none, ?_⟩ fun s hs' => by rw [hs] at hs'; cases hs'
    unfold mergeConversation Codec.python
    simp only [hs]
    rfl
  | some s =>
    have honly : Mergeable L x content ↔
        Json.loads L.digits L.loadsDepth s ≠ .error .digits ∧
        Json.loads L.digits L.loadsDepth s ≠ .error .depth ∧
        ∀ data, Json.loads L.digits L.loadsDepth s = .ok (.obj data) →
          ∃ b, (Codec.python L).dumps (.obj (mergedObject x data)) = .ok b := by
      constructor
      · intro h
        obtain ⟨hdigits, hdepth, hobject⟩ := h s hs
        exact ⟨hdigits, hdepth, fun data hload =>
          (dumps_mergedObject_iff hload).mpr (hobject data hload)⟩
      · rintro ⟨hdigits, hdepth, hobject⟩ s' hs'
        cases hs.symm.trans hs'
        exact ⟨hdigits, hdepth, fun data hload =>
          (dumps_mergedObject_iff hload).mp (hobject data hload)⟩
    rw [honly]
    -- the text is no JSON at all, too long or too deep, an object, or something else
    cases hload : Json.loads L.digits L.loadsDepth s with
    | error e =>
      unfold mergeConversation
      rw [Codec.python_loads_of_decode hs, hload]
      cases e with
      | syntactic => exact iff_of_true ⟨none, rfl⟩ ⟨nofun, nofun, nofun⟩
      | digits => exact iff_of_false (fun ⟨_, h⟩ => nomatch h) fun h => h.1 rfl
      | depth => exact iff_of_false (fun ⟨_, h⟩ => nomatch h) fun h => h.2.1 rfl
    | ok v =>
      cases v with
      | obj data =>
        rw [mergeConversation_object hs hload]
        constructor
        · rintro ⟨merged, hmerged⟩
          refine ⟨nofun, nofun, fun data' heq => ?_⟩
          cases heq
          cases hb : (Codec.python L).dumps (.obj (mergedObject x data)) with
          | ok b => exact ⟨b, rfl⟩
          | error e =>
            rw [hb] at hmerged
            cases hmerged
        · rintro ⟨-, -, hobject⟩
          obtain ⟨b, hb⟩ := hobject data rfl
          exact ⟨some b, by rw [hb]; rfl⟩
      | _ =>
        refine iff_of_true ⟨none, ?_⟩ ⟨nofun, nofun, nofun⟩
        unfold mergeConversation
        rw [(Codec.python_loads_iff hs).mpr hload]

/-! ## The body that is relayed -/

/-- Assigning what is there already changes nothing. -/
theorem mergedObject_eq_self_iff :
    mergedObject x data = data ↔
      getItem (field "conversation_id") data = some (.str x.conversationId) ∧
        getItem (field "is_new_conversation") data = some (.bool x.isNewConversation) := by
  have hne : field "is_new_conversation" ≠ field "conversation_id" := by decide
  constructor
  · intro h
    rw [← h, getItem_mergedObject, getItem_mergedObject, if_pos rfl, if_neg hne, if_pos rfl]
    exact ⟨rfl, rfl⟩
  · rintro ⟨hid, hflag⟩
    rw [mergedObject, setItem_of_getItem hid, setItem_of_getItem hflag]

/-- The floats of the merged object are those of what stays. -/
theorem allFinite_mergedObject_iff (h : (keysOf data).Nodup) :
    (Json.obj (mergedObject x data)).AllFinite ↔ Kept (fun e => e.2.AllFinite) data := by
  constructor
  · intro hfinite e he hkey
    cases hfinite with
    | obj hall => exact hall e ((mem_mergedObject h).mpr (.inr (.inr ⟨he, hkey⟩)))
  · refine fun hkept => .obj fun e he => ?_
    rcases (mem_mergedObject h).mp he with rfl | rfl | ⟨hold, hkey⟩
    · exact .bool _
    · exact .str _
    · exact hkept e hold hkey

/-- The rewritten body is JSON where no float that stays has a name, and JSON for the merged
object alone. -/
theorem isJson_rewritten_iff {b : Bytes} {s : List Char} {v : Json}
    (hload : Json.loads L.digits L.loadsDepth s = .ok (.obj data))
    (hb : (Codec.python L).dumps (.obj (mergedObject x data)) = .ok b) :
    IsJson b v ↔ v = .obj (mergedObject x data) ∧ Kept (fun e => e.2.AllFinite) data := by
  have hwithin := Json.within_of_loads hload
  have hwf := wellFormed_mergedObject (x := x) hwithin.wellFormed
  have hshort := short_mergedObject (x := x) hwithin.wellFormed ⟨_, hwithin.excess⟩
  obtain ⟨cs, hcs, hdecode, hexcess⟩ := Codec.python_dumps_ok hb
  have hnesting := Json.nesting_le_of_excess hexcess
  rw [← allFinite_mergedObject_iff hwithin.wellFormed.nodup]
  constructor
  · intro hjson
    obtain rfl := hjson.isRead.unique (isRead_rewritten hload hb)
    obtain ⟨s', digits, depth, hs', hstrict⟩ := hjson
    cases hdecode.symm.trans hs'
    -- the limits it was read under are not those of the gateway
    have hshort' := (Json.within_of_loads (Json.loads_of_loadsStrict hstrict)).excess
    exact ⟨rfl, ((Json.loadsStrict_written_iff hwf ⟨_, hshort'⟩ hcs).mp hstrict).2.2⟩
  · rintro ⟨rfl, hfinite⟩
    exact ⟨cs, L.digits, L.dumpsDepth, hdecode,
      (Json.loadsStrict_written_iff hwf hshort hcs).mpr ⟨rfl, hnesting, hfinite⟩⟩

/-- An object that is read at all is read by the gateway, if its merge raises nothing. -/
theorem loads_of_isRead {merged : Option Bytes} (hdata : IsRead content (.obj data))
    (hmerge : mergeConversation (.python L) content x = .ok merged) :
    ∃ s, Text.decode? content = some s ∧ Json.loads L.digits L.loadsDepth s = .ok (.obj data) := by
  obtain ⟨s, digits, depth, hs, hread⟩ := hdata
  refine ⟨s, hs, ?_⟩
  obtain ⟨hdigits, hdepth, -⟩ := merged_iff.mp ⟨merged, hmerge⟩ s hs
  cases hload : Json.loads L.digits L.loadsDepth s with
  | ok v => rw [Json.loads_unique hload hread]
  | error e =>
    cases e with
    | syntactic => exact absurd hread (Json.loads_ne_ok_of_syntactic hload _)
    | digits => exact absurd hload hdigits
    | depth => exact absurd hload hdepth

/-- **What comes of the bytes.** Where the merge raises nothing they are kept exactly if what is
rewritten stays JSON. -/
theorem keeps_iff {merged : Option Bytes}
    (hmerge : mergeConversation (.python L) content x = .ok merged) :
    Keeps x content (merged.getD content) ↔ StaysJson L x content := by
  -- only what is read as an object is written again
  by_cases hobject : ∃ data, IsRead content (.obj data)
  · obtain ⟨data, hread⟩ := hobject
    obtain ⟨s, hs, hload⟩ := loads_of_isRead hread hmerge
    rw [mergeConversation_object hs hload] at hmerge
    cases hb : (Codec.python L).dumps (.obj (mergedObject x data)) with
    | error e =>
      rw [hb] at hmerge
      cases hmerge
    | ok b =>
      rw [hb] at hmerge
      cases hmerge
      show Keeps x content b ↔ StaysJson L x content
      constructor
      · intro hkeeps data' hread'
        cases hread'.unique hread
        by_cases hjson : IsJson content (.obj data)
        · obtain ⟨written, hwritten, -⟩ := hkeeps.object data hjson
          exact .inl ⟨hjson, ((isJson_rewritten_iff hload hb).mp hwritten).2⟩
        · -- the body is no JSON, so it is not changed
          have hsame : b = content := hkeeps.other fun data' hjson' => by
            cases hjson'.isRead.unique hread
            exact hjson hjson'
          have hmerged : mergedObject x data = data := by
            have hwritten : IsRead b (.obj (mergedObject x data)) := isRead_rewritten hload hb
            rw [hsame] at hwritten
            exact Json.obj.inj (hwritten.unique hread)
          obtain ⟨hid, hflag⟩ := mergedObject_eq_self_iff.mp hmerged
          exact .inr ⟨hid, hflag, by rw [hmerged, hsame] at hb; exact hb⟩
      · intro hstays
        rcases hstays data hread with ⟨hjson, hfinite⟩ | ⟨hid, hflag, hbytes⟩
        · refine ⟨fun data' hjson' => ?_, fun hnone => absurd hjson (hnone data)⟩
          cases hjson'.isRead.unique hread
          exact ⟨mergedObject x data, (isJson_rewritten_iff hload hb).mpr ⟨rfl, hfinite⟩,
            getItem_mergedObject x data⟩
        · have hmerged : mergedObject x data = data := mergedObject_eq_self_iff.mpr ⟨hid, hflag⟩
          obtain rfl : b = content := by
            rw [hmerged] at hb
            exact Except.ok.inj (hb.symm.trans hbytes)
          refine ⟨fun data' hjson' => ⟨data', hjson', ?_⟩, fun _ => rfl⟩
          cases hjson'.isRead.unique hread
          intro k
          conv_lhs => rw [← hmerged]
          exact getItem_mergedObject x data k
  · have hnone : ∀ data, ¬ IsRead content (.obj data) := fun data h => hobject ⟨data, h⟩
    obtain rfl := mergeConversation_eq_none
      (fun data s hs hload => hnone data ⟨s, _, _, hs, hload⟩) hmerge
    refine iff_of_true ⟨fun data hjson => absurd hjson.isRead (hnone data), fun _ => rfl⟩ ?_
    exact fun data hread => absurd hread (hnone data)

/-- **When a success is kept whole.** For every thread id, every header field and every sequence
of bytes: if and only if the merge raises nothing, the values of the headers can be written,
and what is rewritten stays JSON. -/
theorem promised_iff {status : ℤ} {fields : List Field} :
    Promised (.python L) x status fields content ↔
      Mergeable L x content ∧ Writable x fields ∧ StaysJson L x content := by
  constructor
  · rintro ⟨merged, head, hmerge, hrelay, -, hkeeps⟩
    exact ⟨merged_iff.mp ⟨merged, hmerge⟩, (bufferedRelay_ok_iff.mp ⟨_, hrelay⟩).2,
      (keeps_iff hmerge).mp hkeeps⟩
  · rintro ⟨hmergeable, hwritable, hstays⟩
    obtain ⟨⟨head, body⟩, hrelay⟩ := bufferedRelay_ok_iff.mpr
      ⟨merged_iff.mpr hmergeable, hwritable⟩
    have hparts : head.statusCode = status ∧ head.headers = bufferedRelayHeaders x fields ∧ _ :=
      bufferedRelay_ok hrelay
    obtain ⟨hstatus, -, merged, hmerge, rfl⟩ := hparts
    exact ⟨merged, head, hmerge, hrelay, hstatus, (keeps_iff hmerge).mpr hstays⟩

/-- A finished generation with an escaped lone surrogate in it. -/
def halfEmoji : Bytes := ascii "\x7b\"id\": \"\\ud83d\"\x7d"

/-- Under the default limits the body is a JSON object. -/
def readsObject (content : Bytes) : Bool :=
  match Text.decode? content with
  | some s =>
    match Json.loadsStrict 4300 1000 s with
    | .ok (.obj _) => true
    | _ => false
  | none => false

/-- Half of an emoji is a legal JSON object, and an exception is all that comes of
it. -/
theorem promised_fails_halfEmoji :
    (∃ data, IsJson halfEmoji (.obj data)) ∧
    mergeConversation Requests.json halfEmoji Requests.thread = .error .unicodeEncodeError ∧
    ¬ Promised Requests.json Requests.thread 200 [] halfEmoji := by
  have hraised : mergeConversation Requests.json halfEmoji Requests.thread =
      .error .unicodeEncodeError := by decide +kernel
  have hread : readsObject halfEmoji = true := by decide +kernel
  refine ⟨?_, hraised, ?_⟩
  -- the strict reader takes it for an object
  · unfold readsObject at hread
    split at hread
    · next s hs =>
      split at hread
      · next data hdata => exact ⟨data, s, 4300, 1000, hs, hdata⟩
      · cases hread
    · cases hread
  · rintro ⟨merged, head, hmerge, -⟩
    rw [hraised] at hmerge
    cases hmerge

end Responses

end InferenceGateway
