import InferenceGateway.Proxy.Responses
import InferenceGateway.Proxy.Stream

/-!
# Codings: do the relayed headers describe the relayed bytes

`httpx` undoes the `Content-Encoding` of a response before the gateway sees its body, and
leaves the field among the headers. Both relay paths drop `Content-Length`, because the body
is no longer the one it described, and forward `Content-Encoding`, so that a client undoes
the codings of a body that has none.

What a client makes of a body under given codings is a parameter `undo`. Two things are
asked of it: codings that `passes` names leave every body as it is, and any other coding
does not take a text that begins like a JSON object, or like the gateway's event, for its
own output.

## Main results

- `Carried`, `Relay.sent_of_exhausted`: what a stream relays when the upstream body ends,
  item by item through the life of the generator.
- `coding_coherent_iff`: which responses a client can nevertheless read, on either path.
- `coding_incoherent`: a compressed JSON object is not among them.
-/

namespace InferenceGateway

open Lib

namespace Proxy.Relay

variable {c : ProxyCall} {ssePrefix : Bytes} {w : World} {s s' : Relay} {a : Act} {as : List Act}

/-! ## The bytes of a stream -/

/-- The chunk a resumption brings. -/
def Act.chunk? : Act → Bytes
  | .chunk b => b
  | _ => []

/-- What the upstream has sent; the resumptions are listed newest first. -/
def received (as : List Act) : Bytes := (as.reverse.map Act.chunk?).flatten

theorem received_cons : received (a :: as) = received as ++ a.chunk? := by
  simp [received]

/-- The bytes relayed so far, by where the generator is. -/
structure Carried (ssePrefix : Bytes) (as : List Act) (s : Relay) : Prop where
  created : s.gen = .created → s.sent = [] ∧ received as = [] ∧ .exhausted ∉ as
  running : s.gen ≠ .created → s.gen ≠ .over → s.sent.flatten = ssePrefix ++ received as
  ended : s.gen = .over → .exhausted ∈ as → s.sent.flatten = ssePrefix ++ received as

theorem carried_opened : Carried ssePrefix [] (opened c w) :=
  ⟨fun _ => ⟨rfl, rfl, List.not_mem_nil⟩, fun h => absurd rfl h, fun h => nomatch h⟩

theorem Carried.of_bytes (hcreated : s.gen ≠ .created)
    (hbytes : s.sent.flatten = ssePrefix ++ received as) : Carried ssePrefix as s :=
  ⟨fun h => absurd h hcreated, fun _ _ => hbytes, fun _ _ => hbytes⟩

/-- A resumption that relays nothing and stays clear of both ends. -/
theorem Carried.inside (h : Carried ssePrefix as s) (hchunk : a.chunk? = [])
    (hcreated : s.gen ≠ .created) (hover : s.gen ≠ .over) (hsent : s'.sent = s.sent)
    (hcreated' : s'.gen ≠ .created) : Carried ssePrefix (a :: as) s' := by
  have hbytes : s'.sent.flatten = ssePrefix ++ received (a :: as) := by
    rw [hsent, received_cons, hchunk, List.append_nil]
    exact h.running hcreated hover
  exact .of_bytes hcreated' hbytes

theorem Carried.step (h : Carried ssePrefix as s) (hs : Steps c ssePrefix s a s') :
    Carried ssePrefix (a :: as) s' := by
  -- by the step of the generator; only an item it yields adds bytes
  cases hs with
  | elsewhere hnames =>
    refine ⟨fun hg => ?_, fun hg hg' => ?_, fun hg hex => ?_⟩
    · simpa [received_cons, Act.chunk?] using h.created hg
    · simpa [received_cons, Act.chunk?] using h.running hg hg'
    · simpa [received_cons, Act.chunk?] using h.ended hg (by simpa using hex)
  | start hg =>
    obtain ⟨hsent, hreceived, -⟩ := h.created hg
    have hbytes : (s.sent ++ [ssePrefix]).flatten = ssePrefix ++ received (.next :: as) := by
      rw [hsent, received_cons, hreceived]
      simp [Act.chunk?]
    exact .of_bytes (by simp) hbytes
  | resume hg => exact h.inside rfl (by simp [hg]) (by simp [hg]) rfl (by simp)
  | empty hg => exact h.inside rfl (by simp [hg]) (by simp [hg]) rfl (by simp [hg])
  | @chunk t firstByte b w hg hb hw =>
    have hbytes : (s.sent ++ [b]).flatten = ssePrefix ++ received (.chunk b :: as) := by
      rw [received_cons, List.flatten_append, h.running (by simp [hg]) (by simp [hg])]
      simp [Act.chunk?]
    exact .of_bytes (by simp) hbytes
  | leave ha hg =>
    refine h.inside ?_ (by simp [hg]) (by simp [hg]) rfl (by simp [Relay.leave])
    cases ha <;> rfl
  | close hg => exact h.inside rfl (by simp [hg]) (by simp [hg]) rfl (by simp [Relay.leave])
  | lose ha hg =>
    refine ⟨fun hg' => ?_, fun _ hover => absurd rfl hover, fun _ hex => ?_⟩
    · cases hg'
    · rcases List.mem_cons.mp hex with rfl | hex
      · rcases ha with ha | ha <;> cases ha
      · exact absurd hex (h.created hg).2.2
  | cut hg => exact h.inside rfl (by simp [hg]) (by simp [hg]) rfl (by simp [Relay.lose])
  | finish hg => exact h.inside rfl (by simp [hg]) (by simp [hg]) rfl (by simp [Relay.finish])

theorem carried_of_life (h : Life c ssePrefix w as s) : Carried ssePrefix as s := by
  induction h with
  | opened => exact carried_opened
  | step _ hs ih => exact ih.step (steps_of_step hs)

/-- Once the upstream body is exhausted, the event and all of it have been relayed. -/
theorem sent_of_exhausted (h : Life c ssePrefix w as s) (hex : .exhausted ∈ as) :
    s.sent.flatten = ssePrefix ++ received as := by
  have hcarried := carried_of_life h
  by_cases hover : s.gen = .over
  · exact hcarried.ended hover hex
  · refine hcarried.running (fun hc => ?_) hover
    exact (hcarried.created hc).2.2 hex

end Proxy.Relay

namespace Responses

open Proxy (Relay)

variable {undo : Text → Bytes → Option Bytes} {passes : Text → Prop} {L : Limits} {x : Payload}
  {fields : List Field} {wire e : Bytes}

/-- The response names no coding, or one that passes. -/
def Uncoded (passes : Text → Prop) (fields : List Field) : Prop :=
  ∀ codings, (items fields).get? contentEncoding = some codings → passes codings

/-- Codings that pass leave all bytes as they are, and the others leave none of a kind. -/
theorem unchanged_iff_uncoded {b : Bytes}
    (hpasses : ∀ codings, passes codings → ∀ b, undo codings b = some b)
    (hb : ∀ codings, ¬ passes codings → undo codings b ≠ some b) :
    Unchanged undo fields b ↔ Uncoded passes fields := by
  constructor
  · intro h codings hcodings
    by_contra hnot
    exact hb codings hnot (h codings hcodings)
  · exact fun h codings hcodings => hpasses codings (h codings hcodings) b

/-- **Coding coherence.** Let `undo` undo the codings a `Content-Encoding` names, as the client
does, and let `passes` tell which names ask nothing of it: `identity`, and what it does not
know. Any other coding makes something else of a text that starts as a JSON object or as the
gateway's event. Let `e` be the entity of an upstream response.

On the streaming path the client obtains `e` after the gateway's event if and only if the
response names no coding that does not pass. On the buffered path it obtains `e` with the
thread fields merged in under the same condition, or where `e` is relayed as it is, not
being an object, and its codings happen to leave it so too: an empty body, say. Neither path
drops the field, though the body it described is gone. -/
theorem coding_coherent_iff (hpasses : ∀ codings, passes codings → ∀ b, undo codings b = some b)
    (hobject : ∀ codings, ¬ passes codings →
      ∀ b, undo codings (ascii "\x7b" ++ b) ≠ some (ascii "\x7b" ++ b))
    (hevent : ∀ codings, ¬ passes codings →
      ∀ b, undo codings (ascii "data: " ++ b) ≠ some (ascii "data: " ++ b))
    (he : entity undo (items fields) wire = some e) :
    (∀ status head body, bufferedRelay (.python L) x status fields e = .ok (head, body) →
      ((∃ b, Merges (.python L) x e b ∧ entity undo head.headers body = some b) ↔
        Uncoded passes fields ∨
          ((∀ data, (Codec.python L).loads e ≠ .ok (.obj data)) ∧ Unchanged undo fields e))) ∧
    ∀ status head ssePrefix c w as s,
      streamRelay (.python L) x status fields = .ok (head, ssePrefix) →
      Relay.Life c ssePrefix w as s → .exhausted ∈ as → Relay.received as = e →
      (entity undo head.headers s.sent.flatten = some (ssePrefix ++ e) ↔
        Uncoded passes fields) := by
  constructor
  · intro status head body hrelay
    obtain ⟨-, hheaders, merged, hmerged, rfl⟩ := bufferedRelay_ok hrelay
    have hbody := merges_of_mergeConversation hmerged
    have hcoding : head.headers.get? contentEncoding = (items fields).get? contentEncoding := by
      rw [hheaders, get?_contentEncoding_relayed]
    have hone : (∃ b, Merges (.python L) x e b ∧
        entity undo head.headers (merged.getD e) = some b) ↔
          Unchanged undo fields (merged.getD e) := by
      rw [← entity_eq_some_self_iff undo hcoding]
      constructor
      · rintro ⟨b, hb, hentity⟩
        rwa [hb.unique hbody] at hentity
      · exact fun hentity => ⟨_, hbody, hentity⟩
    rw [hone]
    generalize merged.getD e = body at hbody
    cases hbody with
    | object hdata hb =>
      -- the body begins with a brace, which no known coding leaves alone
      obtain ⟨r, rfl⟩ := Codec.python_dumps_obj hb
      rw [unchanged_iff_uncoded hpasses fun codings hnot => hobject codings hnot r]
      exact (or_iff_left fun h => h.1 _ hdata).symm
    | other hnot =>
      constructor
      · exact fun h => .inr ⟨hnot, h⟩
      · rintro (h | ⟨-, h⟩)
        · exact fun codings hcodings => hpasses codings (h codings hcodings) e
        · exact h
  · rintro status head ssePrefix c w as s hrelay hlife hex rfl
    obtain ⟨-, hheaders, hprefix⟩ := streamRelay_ok hrelay
    obtain ⟨text, -, rfl⟩ := exists_dumps_of_prefix hprefix
    have hcoding : head.headers.get? contentEncoding = (items fields).get? contentEncoding := by
      rw [hheaders, get?_contentEncoding_relayed]
    rw [Relay.sent_of_exhausted hlife hex, entity_eq_some_self_iff undo hcoding]
    refine unchanged_iff_uncoded hpasses fun codings hnot => ?_
    rw [List.append_assoc, List.append_assoc]
    exact hevent codings hnot _

/-! ## A compressed response -/

def crc32 (b : Bytes) : UInt32 :=
  let shift (crc : UInt32) (_ : ℕ) :=
    if crc &&& 1 = 1 then (crc >>> 1) ^^^ 0xEDB88320 else crc >>> 1
  b.foldl (fun crc byte => (List.range 8).foldl shift (crc ^^^ byte.toUInt32)) 0xFFFFFFFF ^^^
    0xFFFFFFFF

/-- Four bytes, the lowest first. -/
def littleEndian (n : ℕ) : Bytes :=
  [n, n / 0x100, n / 0x10000, n / 0x1000000].map fun m => (m % 0x100).toUInt8

/-- `gzip.decompress` on a member that is one stored block. -/
def gunzip : Bytes → Option Bytes
  | 0x1f :: 0x8b :: 0x08 :: 0x00 :: _ :: _ :: _ :: _ :: _ :: _ :: 0x01 :: l₀ :: l₁ :: n₀ :: n₁ ::
      rest =>
    let len := l₀.toNat + 0x100 * l₁.toNat
    let data := rest.take len
    if n₀.toNat + 0x100 * n₁.toNat = 0xFFFF - len ∧
        rest.drop len = littleEndian (crc32 data).toNat ++ littleEndian len then some data
    else none
  | _ => none

theorem gunzip_cons_of_ne {c : UInt8} {b : Bytes} (h : c ≠ 0x1f) : gunzip (c :: b) = none := by
  unfold gunzip
  split
  · next heq => exact absurd (List.cons.inj heq).1 h
  · rfl

/-- The codings of a client that knows `gzip` and passes over what it does not know. -/
def undoGzip (codings : Text) (b : Bytes) : Option Bytes :=
  if codings = .ofString "gzip" then gunzip b else some b

def plainFields : List Field := [(.ofString "Content-Type", .ofString "application/json")]

/-- A response that says its body is not coded. -/
def identityFields : List Field :=
  (.ofString "Content-Encoding", .ofString "identity") :: plainFields

def gzippedFields : List Field := (.ofString "Content-Encoding", .ofString "gzip") :: plainFields

def okEntity : Bytes := ascii "\x7b\"ok\": true\x7d"

/-- The entity, compressed. -/
def okGzipped : Bytes :=
  [0x1f, 0x8b, 0x08, 0x00, 0x00, 0x00, 0x00, 0x00, 0x00, 0xff, 0x01, 0x0c, 0x00, 0xf3, 0xff] ++
    okEntity ++ [0xc6, 0x19, 0xab, 0x17, 0x0c, 0x00, 0x00, 0x00]

/-- A body with the coding `identity` is relayed as what it is, on either path. -/
theorem coding_coherent_iff_identity :
    (bufferedRelay Requests.json Requests.thread 200 identityFields okEntity).isOk = true ∧
    (∀ head body,
      bufferedRelay Requests.json Requests.thread 200 identityFields okEntity = .ok (head, body) →
      ∃ b, Merges Requests.json Requests.thread okEntity b ∧
        entity undoGzip head.headers body = some b) ∧
    ∀ head ssePrefix c w as s,
      streamRelay Requests.json Requests.thread 200 identityFields = .ok (head, ssePrefix) →
      Relay.Life c ssePrefix w as s → .exhausted ∈ as → Relay.received as = okEntity →
        entity undoGzip head.headers s.sent.flatten = some (ssePrefix ++ okEntity) := by
  have hpasses : ∀ codings, codings ≠ .ofString "gzip" → ∀ b, undoGzip codings b = some b :=
    fun codings hne b => if_neg hne
  -- no member begins so
  have hnone : ∀ codings, ¬ codings ≠ .ofString "gzip" → ∀ c b, c ≠ 0x1f →
      undoGzip codings (c :: b) ≠ some (c :: b) := by
    intro codings hgzip c b hc
    rw [undoGzip, if_pos (not_not.mp hgzip), gunzip_cons_of_ne hc]
    exact nofun
  have hcoherent := coding_coherent_iff (L := { loadsDepth := 1000, dumpsDepth := 1000 })
    (x := Requests.thread) hpasses (fun codings hgzip b => hnone codings hgzip 0x7b b (by decide))
    (fun codings hgzip b => hnone codings hgzip 0x64 _ (by decide))
    (show entity undoGzip (items identityFields) okEntity = some okEntity by decide +kernel)
  have huncoded : Uncoded (· ≠ .ofString "gzip") identityFields := by
    intro codings hcodings
    have hidentity : (items identityFields).get? contentEncoding = some (.ofString "identity") := by
      decide +kernel
    rw [← Option.some.inj (hidentity.symm.trans hcodings)]
    decide
  refine ⟨by decide +kernel, fun head body h => ?_,
    fun head ssePrefix c w as s h hlife hex hall => ?_⟩
  · exact (hcoherent.1 200 head body h).mpr (.inl huncoded)
  · exact (hcoherent.2 200 head ssePrefix c w as s h hlife hex hall).mpr huncoded

/-- Where it names a coding the client knows, the client is told on either path to undo it, and
cannot. -/
theorem coding_incoherent :
    entity undoGzip (items gzippedFields) okGzipped = some okEntity ∧
    (bufferedRelay Requests.json Requests.thread 200 gzippedFields okEntity).map
      (fun r => (r.2, entity undoGzip r.1.headers r.2)) =
      .ok (ascii
        "\x7b\"ok\": true, \"conversation_id\": \"c-1\", \"is_new_conversation\": true\x7d",
        none) ∧
    (streamRelay Requests.json Requests.thread 200 gzippedFields).map
      (fun r => entity undoGzip r.1.headers (r.2 ++ okEntity)) = .ok none := by
  decide +kernel

end Responses

end InferenceGateway
