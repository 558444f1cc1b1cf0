import InferenceGateway.Api.Routes
import InferenceGateway.Proxy.Outcomes
import InferenceGateway.Proxy.Requests

/-!
# Bodies on every attempt

The body of a request is parsed and written again by `chat_completions`, by
`_upstream_chat_body` and, for the fallback, once more. What matters of an
object is what it has under which key, so the statements look its keys up.

- `sentObject`: the object a target should get: the client's, without the thread
  fields, with `stream` as it was classified and, on the fallback, with the
  fallback's model.
- `attempt_decodes`: the body of one attempt is read as that object.
- `bodies_correct`: what each target decodes, for every sequence of targets. No
  target's body depends on the targets before it, and the selector of the relay
  is the `stream` of the body that was sent.

The fallback is told apart by its name. A backend that bears the same name is
sent the fallback's model, which is what `bodies_misdirected` shows, so the
names are assumed to differ.
-/

namespace InferenceGateway

open Lib

namespace Requests

variable {J : Codec} {D : Deployment} {p : PendingRequest} {x : Payload} {headers : Headers}
  {target : BackendTarget} {targets : List BackendTarget} {post : Post}
  {data : List (Text × Json)} {stream : Bool}

/-! ## The bodies one after the other -/

/-- The object a target receives; `model` is the fallback's, if it is the target. -/
def sentObject (data : List (Text × Json)) (stream : Bool) (model : Option String) :
    List (Text × Json) :=
  let data := setItem (field "stream") (.bool stream) (stripConversationFields data)
  match model with
  | some model =>
    setItem (field "stream") (.bool stream) (setItem (field "model") (.str (.ofString model)) data)
  | none => data

/-- The object that is sent, key by key: `stream` is set, and so is the model where
there is one to set; the thread fields are gone, and everything else is as the client
sent it. -/
theorem getItem_sentObject (data : List (Text × Json)) (stream : Bool) (model : Option String)
    (k : Text) :
    getItem k (sentObject data stream model) =
      if k = field "stream" then some (.bool stream)
      else if k = field "model" ∧ model.isSome then
        model.map fun model => .str (.ofString model)
      else if isThreadField k then none
      else getItem k data := by
  unfold sentObject
  cases model with
  | none => simp [getItem_setItem, getItem_stripConversationFields]
  | some model =>
    simp only [getItem_setItem, getItem_stripConversationFields]
    by_cases hs : k = field "stream"
    · simp [hs]
    · simp [hs]

theorem nodup_sentObject {model : Option String} (hwf : (Json.obj data).WellFormed) :
    (keysOf (sentObject data stream model)).Nodup := by
  have hstrip : (keysOf (stripConversationFields data)).Nodup := by
    cases hwf with
    | obj keys => exact keys.sublist (List.filter_sublist.map _)
  unfold sentObject
  cases model with
  | none => exact nodup_setItem hstrip
  | some model => exact nodup_setItem (nodup_setItem (nodup_setItem hstrip))

theorem upstreamChatBody_decodes {body body' : Bytes} (hJ : J.Lawful)
    (hwf : (Json.obj data).WellFormed) (hloads : J.loads body = .ok (.obj data))
    (h : upstreamChatBody J body stream = .ok body') :
    J.loads body' = .ok (.obj (setItem (field "stream") (.bool stream) data)) := by
  unfold upstreamChatBody at h
  rw [hloads] at h
  exact hJ _ _ (hwf.setItem (.bool stream)) h

theorem fallbackBody_decodes {body body' : Bytes} {model : String} (hJ : J.Lawful)
    (hwf : (Json.obj data).WellFormed) (hloads : J.loads body = .ok (.obj data))
    (h : fallbackBody J model body stream = .ok body') :
    J.loads body' = .ok (.obj (setItem (field "stream") (.bool stream)
      (setItem (field "model") (.str (.ofString model)) data))) := by
  unfold fallbackBody at h
  rw [hloads] at h
  exact hJ _ _ ((hwf.setItem (.str _)).setItem (.bool stream)) h

/-- What an attempt sends decodes to the stripped object with the stream flag, and with
the fallback's model for whatever the proxy takes for the fallback. -/
theorem attempt_decodes (hJ : J.Lawful) (hwf : (Json.obj data).WellFormed)
    (hbody : J.dumps (.obj (stripConversationFields data)) = .ok x.body)
    (h : attempt J D p x headers target = .ok post) :
    J.loads post.body = .ok (.obj (sentObject data p.classify.stream
      (if Proxy.isOpenaiFallback D.cfg target then some D.cfg.openaiFallback.model
        else none))) := by
  have hstrip : (Json.obj (stripConversationFields data)).WellFormed := hwf.filter
  obtain ⟨body, hstream, hcases⟩ := attempt_ok h
  have hloads := upstreamChatBody_decodes hJ hstrip (hJ _ _ hstrip hbody) hstream
  rcases hcases with ⟨hgpu, rfl⟩ | ⟨key, body', hfb, -, hmodel, rfl⟩
  · rw [hgpu]
    exact hloads
  · rw [hfb]
    exact fallbackBody_decodes hJ (hstrip.setItem (.bool _)) hloads hmodel

/-! ## Who is the fallback -/

/-- Under the proviso the proxy takes no target but the fallback for the fallback. -/
theorem isOpenaiFallback_iff
    (hname : D.cfg.openaiFallback.backendName ∉ D.cfg.backends.map (·.name))
    (htarget : target.name ∈ D.cfg.backends.map (·.name) ∨ fallbackTarget D.cfg = some target) :
    Proxy.isOpenaiFallback D.cfg target = true ↔ fallbackTarget D.cfg = some target := by
  unfold Proxy.isOpenaiFallback fallbackTarget at *
  cases henabled : D.cfg.openaiFallback.enabled with
  | false => simp
  | true =>
    rw [henabled] at htarget
    simp only [Bool.true_and, decide_eq_true_eq, if_true] at htarget ⊢
    constructor
    · intro heq
      rcases htarget with hconf | hfb
      · exact absurd (heq ▸ hconf) hname
      · exact hfb
    · intro heq
      cases heq
      rfl

/-- **Bodies.** Let the library read back what it writes, let the body of a request be
what `chat_completions` makes of the object `data`, and let the fallback not bear the
name of a configured backend. Whatever targets are tried, configured backends or the
fallback: each is sent a body that decodes to `data` without the thread fields, with
`stream` as classified and, for the fallback alone, its model; the body does not
depend on the targets tried besides; and the flag it carries is the one that selects
how the response is relayed. -/
theorem bodies_correct (hJ : J.Lawful) (hwf : (Json.obj data).WellFormed)
    (hbody : J.dumps (.obj (stripConversationFields data)) = .ok x.body)
    (hname : D.cfg.openaiFallback.backendName ∉ D.cfg.backends.map (·.name))
    (htargets : ∀ t ∈ targets, t.name ∈ D.cfg.backends.map (·.name) ∨
      fallbackTarget D.cfg = some t) :
    ∀ target post, (target, post) ∈ posts J D p x targets →
      (∃ sent, J.loads post.body = .ok (.obj sent) ∧ (keysOf sent).Nodup ∧
        (∀ k, getItem k sent =
          if k = field "stream" then some (.bool p.classify.stream)
          else if k = field "model" ∧ fallbackTarget D.cfg = some target then
            some (.str (.ofString D.cfg.openaiFallback.model))
          else if k = field "conversation_id" ∨ k = field "is_new_conversation" then none
          else getItem k data) ∧
        ∃ b, getItem (field "stream") sent = some (.bool b) ∧
          ∀ c w status relayable, c.pending = p →
            Proxy.onUpstream D w c (.response status relayable) =
              if b then Proxy.onStreamHeaders w c status relayable
              else Proxy.onBufferedResponse D w c status relayable) ∧
      ∀ targets' post', (target, post') ∈ posts J D p x targets' → post'.body = post.body := by
  intro target post hpost
  obtain ⟨hmem, hattempt⟩ := attempt_of_mem_posts hpost
  have hdecodes := attempt_decodes hJ hwf hbody hattempt
  have hwho := isOpenaiFallback_iff hname (htargets target hmem)
  refine ⟨⟨_, hdecodes, ?_, ?_, p.classify.stream, ?_, ?_⟩, ?_⟩
  · exact nodup_sentObject hwf
  -- the key is a thread field, `stream`, the model of the fallback, or the client's own
  · intro k
    rw [getItem_sentObject]
    by_cases hfb : fallbackTarget D.cfg = some target
    · rw [if_pos (hwho.mpr hfb)]
      simp [hfb, isThreadField]
    · rw [if_neg fun h => hfb (hwho.mp h)]
      simp [hfb, isThreadField]
  · rw [getItem_sentObject, if_pos rfl]
  · rintro c w status relayable rfl
    cases hs : c.pending.classify.stream with
    | true => exact Proxy.onUpstream_headers hs
    | false => exact Proxy.onUpstream_buffered hs
  · intro targets' post' hpost'
    have hattempt' := (attempt_of_mem_posts hpost').2
    cases hattempt.symm.trans hattempt'
    rfl

/-- The provider is sent its model, the backend after it the client's. -/
theorem bodies_correct_mixed :
    (posts json mixed asked thread [provider, gpuNode]).map Prod.fst = [provider, gpuNode] ∧
    ∀ target post, (target, post) ∈ posts json mixed asked thread [provider, gpuNode] →
      ∃ sent, json.loads post.body = .ok (.obj sent) ∧
        getItem (field "stream") sent = some (.bool true) ∧
        getItem (field "model") sent =
          (if target = provider then some (.str (.ofString "gpt-4o-mini"))
            else some (.str (.ofString "m"))) := by
  refine ⟨by decide +kernel, fun target post h => ?_⟩
  have hcorrect := bodies_correct (J := json) (D := mixed) (p := asked) (x := thread)
    (Codec.python_lawful le_rfl) wellFormed_askedObject (by decide +kernel) (by decide)
    (by decide) target post h
  obtain ⟨⟨sent, hloads, -, hget, -⟩, -⟩ := hcorrect
  refine ⟨sent, hloads, hget _, (hget _).trans ?_⟩
  by_cases heq : target = provider
  · subst heq
    rfl
  · have hne : fallbackTarget mixed.cfg ≠ some target := by
      intro hfb
      exact heq (Option.some.inj hfb).symm
    rw [if_neg heq, if_neg (by decide), if_neg fun h => hne h.2]
    rfl

/-- A backend that bears the fallback's name. -/
def namesake : Deployment where
  cfg := { backends := [{ name := "openai-fallback", url := "http://10.0.0.1:8000" }]
           openaiFallback := { enabled := true } }
  environ := mixed.environ

def misnamed : BackendTarget := ⟨"openai-fallback", "http://10.0.0.1:8000"⟩

/-- A backend named like the fallback is sent the fallback's model without being the
fallback. -/
theorem bodies_misdirected :
    misnamed.name ∈ namesake.cfg.backends.map (·.name) ∧
    fallbackTarget namesake.cfg ≠ some misnamed ∧
    ∃ body sent, (posts json namesake asked thread [misnamed]).map (fun e => (e.1, e.2.body)) =
        [(misnamed, body)] ∧
      json.loads body = .ok (.obj sent) ∧
      getItem (field "model") sent = some (.str (.ofString "gpt-4o-mini")) ∧
      getItem (field "model") askedObject = some (.str (.ofString "m")) := by
  refine ⟨by decide, by decide,
    ascii "\x7b\"model\": \"gpt-4o-mini\", \"stream\": true\x7d",
    sentObject askedObject true (some "gpt-4o-mini"), by decide +kernel, ?_, ?_, rfl⟩
  · refine Codec.python_lawful le_rfl _ _ (.obj (nodup_sentObject wellFormed_askedObject) ?_)
      (by decide +kernel)
    intro e he
    rcases List.mem_pair.mp he with rfl | rfl
    · exact .str _
    · exact .bool _
  · rw [getItem_sentObject]
    rfl

end Requests

end InferenceGateway
