import InferenceGateway.Guarantees.Codings
import InferenceGateway.Lib.ServerSentEvents

/-!
# The event in front of a relayed stream

A streamed response begins with an event of the gateway that names the thread,
and goes on with the bytes of the upstream as they come. The thread id in it is
the client's text.

The receiver is the parser of server-sent events in `Lib.SSE`, which is fed the
chunks as the gateway yields them. Two facts carry the proof. What `json.dumps`
writes has no line ends, so the event is one `data:` line, whatever the id
(`le_of_mem_write_conversationEvent`); and the parser takes chunks as it takes
their concatenation, so no cut can matter.

- `sse_framing`: whatever the thread id, whatever the upstream sends and however
  it is cut into chunks, a receiver sees the gateway's event with that id, and
  then the events of the upstream.
-/

namespace InferenceGateway

open Lib

namespace Responses

open Proxy (Relay)

variable {L : Limits} {x : Payload} {cs : List Char}

theorem wellFormed_conversationEvent (x : Payload) : (conversationEvent x).WellFormed := by
  refine .obj ?_ ?_
  · show [field "object", field "conversation_id", field "is_new_conversation"].Nodup
    decide
  · simp only [List.forall_mem_cons, List.not_mem_nil, false_implies, implies_true, and_true]
    exact ⟨.str _, .str _, .bool _⟩

theorem short_conversationEvent (x : Payload) (digits : ℕ) :
    (conversationEvent x).Short digits := ⟨1, rfl⟩

theorem encodable_conversationEvent (hid : x.conversationId = .ofChars cs) :
    (conversationEvent x).Encodable := by
  have htexts : (conversationEvent x).texts = [field "object", .ofString "gateway.conversation",
    field "conversation_id", x.conversationId, field "is_new_conversation"] := rfl
  unfold Json.Encodable
  rw [htexts, hid]
  simp only [List.forall_mem_cons, List.not_mem_nil, false_implies, implies_true, and_true]
  refine ⟨?_, ?_, ?_, ?_, ?_⟩ <;> exact fun _ hc => Text.isSurrogate_of_mem_ofChars hc

/-- The event is written without control characters. -/
theorem le_of_mem_write_conversationEvent {c : CodePoint}
    (h : c ∈ Json.write (conversationEvent x)) : 0x20 ≤ c.val := by
  have hliteral : ∀ s : List Char, (s.all fun ch => decide (0x20 ≤ ch.toNat)) = true →
      ∀ c ∈ Text.ofChars s, 0x20 ≤ c.val := by
    intro s hs c hc
    obtain ⟨ch, hch, rfl⟩ := List.mem_map.mp hc
    exact of_decide_eq_true (List.all_eq_true.mp hs ch hch)
  have hflag : ∀ c ∈ Json.write (.bool x.isNewConversation), 0x20 ≤ c.val := by
    cases x.isNewConversation
    · exact hliteral _ (by decide)
    · exact hliteral _ (by decide)
  unfold conversationEvent at h
  simp only [Json.write, Json.writeMembers, List.mem_append] at h
  -- one part of the text after the other, literals and escaped strings in turn
  rcases h with h | h | h | h | h | h | h | h | h | h | h | h | h
  · exact hliteral _ (by decide) c h
  · exact Json.le_of_mem_writeString h
  · exact hliteral _ (by decide) c h
  · exact Json.le_of_mem_writeString h
  · exact hliteral _ (by decide) c h
  · exact Json.le_of_mem_writeString h
  · exact hliteral _ (by decide) c h
  · exact Json.le_of_mem_writeString h
  · exact hliteral _ (by decide) c h
  · exact Json.le_of_mem_writeString h
  · exact hliteral _ (by decide) c h
  · exact hflag c h
  · exact hliteral _ (by decide) c h

/-- **The prefix.** The gateway's event as one `data` line and a blank line. -/
theorem sseConversationPrefix_ok (hid : x.conversationId = .ofChars cs)
    (hdepth : 1 ≤ L.dumpsDepth) :
    ∃ text, sseConversationPrefix (.python L) x = .ok (ascii "data: " ++ text ++ ascii "\n\n") ∧
      (∀ b ∈ text, 0x20 ≤ b.toNat) ∧
      ∀ L' : Limits, 1 ≤ L'.loadsDepth →
        (Codec.python L').loads text = .ok (conversationEvent x) := by
  obtain ⟨text, htext⟩ := (Codec.python_dumps_ok_iff (L := L)
    (short_conversationEvent x L.digits)).mpr ⟨hdepth, encodable_conversationEvent hid⟩
  refine ⟨text, ?_, ?_, fun L' hdepth' => ?_⟩
  · show ((Codec.python L).dumps (conversationEvent x)).map _ = _
    rw [htext]
    rfl
  · exact Text.le_of_mem_encode (by decide) (Codec.python_dumps_encode htext)
      fun c hc => le_of_mem_write_conversationEvent hc
  · obtain ⟨cs', hcs, hdecode, -⟩ := Codec.python_dumps_ok htext
    refine (Codec.python_loads_iff hdecode).mpr ?_
    exact (Json.loads_written_iff (wellFormed_conversationEvent x)
      (short_conversationEvent x L'.digits) hcs).mpr ⟨rfl, hdepth'⟩

/-- **Framing.** Let the thread id be made of characters. When the upstream body completes,
the bytes relayed are the prefix and what the upstream sent, however it was cut. Read as
server-sent events they are one event, whose data is JSON for the id and the flag, and
the events of what the upstream sent. -/
theorem sse_framing (hid : x.conversationId = .ofChars cs) (hdepth : 1 ≤ L.dumpsDepth) :
    ∃ ssePrefix text, sseConversationPrefix (.python L) x = .ok ssePrefix ∧
      (∀ L' : Limits, 1 ≤ L'.loadsDepth →
        (Codec.python L').loads text = .ok (conversationEvent x)) ∧
      ∀ c w as s, Relay.Life c ssePrefix w as s → .exhausted ∈ as →
        ¬ ServerSentEvents.bom <+: Relay.received as →
        s.sent.flatten = ssePrefix ++ Relay.received as ∧
          ServerSentEvents.events s.sent.flatten =
            ⟨ascii "message", text, []⟩ :: ServerSentEvents.events (Relay.received as) := by
  obtain ⟨text, hprefix, hplain, hloads⟩ := sseConversationPrefix_ok hid hdepth
  refine ⟨_, text, hprefix, hloads, fun c w as s hlife hex hbom => ?_⟩
  have hsent := Relay.sent_of_exhausted hlife hex
  have hinline : ∀ b ∈ text, ServerSentEvents.Inline b := by
    intro b hb
    have hle := hplain b hb
    constructor <;>
      · rintro rfl
        revert hle
        decide
  refine ⟨hsent, ?_⟩
  rw [hsent]
  exact ServerSentEvents.events_data_append hinline hbom

/-- An id that would end the event and forge another one, were it not escaped. -/
def forging : Payload :=
  { Requests.thread with conversationId := .ofString "c\r\n\r\ndata: \"forged\"\n\n" }

theorem sse_framing_forging :
    ∃ ssePrefix text, sseConversationPrefix Requests.json forging = .ok ssePrefix ∧
      (∀ L' : Limits, 1 ≤ L'.loadsDepth →
        (Codec.python L').loads text = .ok (conversationEvent forging)) ∧
      ∀ c w as s, Relay.Life c ssePrefix w as s → .exhausted ∈ as →
        ¬ ServerSentEvents.bom <+: Relay.received as →
        s.sent.flatten = ssePrefix ++ Relay.received as ∧
          ServerSentEvents.events s.sent.flatten =
            ⟨ascii "message", text, []⟩ :: ServerSentEvents.events (Relay.received as) :=
  sse_framing rfl (by decide)

end Responses

end InferenceGateway
