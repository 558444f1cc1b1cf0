import InferenceGateway.Api.Routes
import InferenceGateway.Proxy.Requests

/-!
# Headers across trust domains

A call may try the fallback provider first and GPU backends after it, and all
its attempts start from one filtered copy of the client's headers. Each attempt
copies that map before it sets fields in it, so that nothing of one attempt can
be found in the next.

- `get?_of_attempt`: what an attempt sends under each of the gateway's own
  names.
- `headers_isolated`: the fallback's key never reaches a GPU backend, the
  client's credential never reaches the fallback, and the gateway's own fields
  win over the client's, for every sequence of targets. Two requests are
  compared wherever they stand in their runs, so nothing can leak from one
  attempt into a later one.

Names are compared as HTTP compares them, without regard to case. The fallback
is told apart by its name, as the code does, so a backend must not bear it.
-/

namespace InferenceGateway

open Lib
open HeaderName (lower)

namespace Requests

variable {J : Codec} {D : Deployment} {p : PendingRequest} {x : Payload} {headers : Headers}
  {target : BackendTarget} {targets : List BackendTarget} {post : Post} {n : HeaderName}

/-! ## The vocabulary -/

/-- The target is a configured backend. -/
def Configured (cfg : GatewayConfig) (target : BackendTarget) : Prop :=
  target.name ∈ cfg.backends.map (·.name)

/-- The two maps differ in `authorization` fields only, however these are spelt. -/
def SameButAuthorization (h h' : Headers) : Prop :=
  h.entries.filter (fun e => !decide (lower e.1 = authorizationHeader)) =
    h'.entries.filter (fun e => !decide (lower e.1 = authorizationHeader))

/-- One field bears this name in any letter case, and this is it. -/
def Sole (h : Headers) (n : HeaderName) (v : Text) : Prop :=
  h.entries.filter (fun e => decide (lower e.1 = n)) = [(n, v)]

/-! ## The sent headers, name by name -/

theorem get?_sentHeaders (key : Option String) :
    (sentHeaders p x headers key).get? n =
      if n = isNewConversationHeader then some (newConversationValue x)
      else if n = conversationIdHeader then some x.conversationId
      else if n = authorizationHeader ∧ key.isSome then key.map bearer
      else if n = acceptHeader ∧ p.classify.stream then some (.ofString "text/event-stream")
      else headers.get? n := by
  unfold sentHeaders injectThreadHeaders
  rw [Dict.get?_set, Dict.get?_set]
  cases key <;> cases p.classify.stream <;> simp [Dict.get?_set]

/-- Every name is the client's or the gateway's. -/
theorem mem_keys_sentHeaders {key : Option String} (h : n ∈ (sentHeaders p x headers key).keys) :
    n ∈ [isNewConversationHeader, conversationIdHeader, authorizationHeader, acceptHeader] ∨
      n ∈ headers.keys := by
  by_contra hnot
  obtain ⟨hgateway, hclient⟩ := not_or.mp hnot
  simp only [List.mem_cons, List.not_mem_nil, or_false, not_or] at hgateway
  obtain ⟨hnew, hid, hauth, haccept⟩ := hgateway
  have hget : (sentHeaders p x headers key).get? n = none := by
    rw [get?_sentHeaders, if_neg hnew, if_neg hid, if_neg fun h => hauth h.1,
      if_neg fun h => haccept h.1]
    exact Dict.get?_eq_none_iff.mpr hclient
  exact Dict.get?_eq_none_iff.mp hget h

/-- The gateway's own names are lower-case and pass its filter. -/
theorem gateway_names (h : n ∈ [isNewConversationHeader, conversationIdHeader,
    authorizationHeader, acceptHeader]) : lower n = n ∧ forwarded n = true := by
  have hall : ∀ n ∈ [isNewConversationHeader, conversationIdHeader, authorizationHeader,
      acceptHeader], lower n = n ∧ forwarded n = true := by decide
  exact hall n h

/-- Every name that is sent is lower-case, and allowed or the gateway's. -/
theorem names_sentHeaders {key : Option String}
    (h : n ∈ (sentHeaders p x (filterHeaders x.clientHeaders) key).keys) :
    lower n = n ∧ forwarded n = true := by
  rcases mem_keys_sentHeaders h with hgateway | hclient
  · exact gateway_names hgateway
  · exact mem_keys_filterHeaders hclient

/-- Where all names are lower-case, a name that is present is the only one of its kind. -/
theorem sole_of_get? {h : Headers} {v : Text} (hlower : ∀ n ∈ h.keys, lower n = n)
    (hget : h.get? n = some v) : Sole h n v := by
  unfold Sole
  rw [← Dict.filter_key_eq hget]
  refine List.filter_congr fun e he => ?_
  rw [hlower e.1 (List.mem_map_of_mem he)]

theorem lastNamed_of_sameButAuthorization {h h' : Headers} (hsame : SameButAuthorization h h')
    (hn : n ≠ authorizationHeader) : lastNamed n h.entries = lastNamed n h'.entries := by
  have hfilter : ∀ es : List (HeaderName × Text),
      es.filter (fun e => decide (lower e.1 = n)) =
        (es.filter fun e => !decide (lower e.1 = authorizationHeader)).filter
          fun e => decide (lower e.1 = n) := by
    intro es
    rw [List.filter_filter]
    refine List.filter_congr fun e _ => ?_
    by_cases he : lower e.1 = n
    · simp [he, hn]
    · simp [he]
  unfold lastNamed
  rw [hfilter h.entries, hfilter h'.entries, hsame]

/-- With a key of its own, the fallback is sent nothing of the client's credential. -/
theorem get?_sentHeaders_of_same {h h' : Headers} {key : String}
    (hsame : SameButAuthorization h h') :
    (sentHeaders p { x with clientHeaders := h } (filterHeaders h) (some key)).get? n =
      (sentHeaders p { x with clientHeaders := h' } (filterHeaders h') (some key)).get? n := by
  simp only [get?_sentHeaders, get?_filterHeaders]
  by_cases hauth : n = authorizationHeader
  · simp [hauth, newConversationValue]
  · rw [lastNamed_of_sameButAuthorization hsame hauth]
    rfl

/-! ## Isolation -/

/-- Under the proviso a configured backend is never taken for the fallback. -/
theorem not_fallback_of_configured {cfg : GatewayConfig}
    (hname : cfg.openaiFallback.backendName ∉ cfg.backends.map (·.name))
    (h : Configured cfg target) : Proxy.isOpenaiFallback cfg target = false := by
  have hne : target.name ≠ cfg.openaiFallback.backendName := fun heq => hname (heq ▸ h)
  simp [Proxy.isOpenaiFallback, hne]

/-- What a configured backend is sent, under the proviso. -/
theorem headers_of_configured
    (hname : D.cfg.openaiFallback.backendName ∉ D.cfg.backends.map (·.name))
    (hconf : Configured D.cfg target) (h : (target, post) ∈ posts J D p x targets) :
    post.headers = sentHeaders p x (filterHeaders x.clientHeaders) none := by
  obtain ⟨body, -, ⟨-, rfl⟩ | ⟨key, body', hfb, -⟩⟩ := attempt_ok (attempt_of_mem_posts h).2
  · rfl
  · rw [not_fallback_of_configured hname hconf] at hfb
    cases hfb

/-- What the fallback is sent. -/
theorem headers_of_fallback (hfb : Proxy.isOpenaiFallback D.cfg target = true)
    (h : (target, post) ∈ posts J D p x targets) :
    ∃ key, apiKey D = some key ∧
      post.headers = sentHeaders p x (filterHeaders x.clientHeaders) (some key) := by
  obtain ⟨body, -, ⟨hgpu, -⟩ | ⟨key, body', -, hkey, -, rfl⟩⟩ :=
    attempt_ok (attempt_of_mem_posts h).2
  · rw [hfb] at hgpu
    cases hgpu
  · exact ⟨key, hkey, rfl⟩

/-- Whatever is sent, its headers are those of an attempt with or without a key. -/
theorem headers_of_post (h : (target, post) ∈ posts J D p x targets) :
    ∃ key, post.headers = sentHeaders p x (filterHeaders x.clientHeaders) key := by
  obtain ⟨body, -, ⟨-, rfl⟩ | ⟨key, body', -, -, -, rfl⟩⟩ := attempt_ok (attempt_of_mem_posts h).2
  · exact ⟨none, rfl⟩
  · exact ⟨some key, rfl⟩

/-- **Header isolation.** Provided the fallback does not bear the name of a configured
backend: (a) the headers a configured backend is sent are the same under any
environment, the fallback's key included; (b) the headers the fallback is sent are the
same whatever `authorization` the client supplied; (c) they carry one
`authorization`, built from the configured key; (d) every name sent to anybody is
lower-case and in the allow-list or prefixed with `x-`, as the names the gateway sets
are; (e) the two thread fields are sent once each, with the pending request's values.
All of it holds for any targets, tried in any order before or after. -/
theorem headers_isolated
    (hname : D.cfg.openaiFallback.backendName ∉ D.cfg.backends.map (·.name)) :
    (∀ D' targets targets' target post post', D'.cfg = D.cfg → Configured D.cfg target →
      (target, post) ∈ posts J D p x targets → (target, post') ∈ posts J D' p x targets' →
      post.headers = post'.headers) ∧
    (∀ h targets targets' target post post', SameButAuthorization x.clientHeaders h →
      Proxy.isOpenaiFallback D.cfg target = true → (target, post) ∈ posts J D p x targets →
      (target, post') ∈ posts J D p { x with clientHeaders := h } targets' →
      ∀ n, post.headers.get? n = post'.headers.get? n) ∧
    (∀ targets target post, (target, post) ∈ posts J D p x targets →
      (Proxy.isOpenaiFallback D.cfg target = true →
        ∃ key, apiKey D = some key ∧ Sole post.headers authorizationHeader (bearer key)) ∧
      (∀ n ∈ post.headers.keys, lower n = n ∧
        (n ∈ safeHeader ∨ (HeaderName.ofString "x-").isPrefixOf n = true)) ∧
      Sole post.headers conversationIdHeader x.conversationId ∧
      Sole post.headers isNewConversationHeader (newConversationValue x)) := by
  refine ⟨?_, ?_, ?_⟩
  -- a configured backend is sent the filtered headers, whatever the key and the targets
  -- before
  · intro D' targets targets' target post post' hcfg hconf hpost hpost'
    rw [headers_of_configured hname hconf hpost]
    rw [← hcfg] at hname hconf
    rw [headers_of_configured hname hconf hpost']
  -- the fallback is sent its own credential in the place of the client's
  · intro h targets targets' target post post' hsame hfb hpost hpost' n
    obtain ⟨key, hkey, heq⟩ := headers_of_fallback hfb hpost
    obtain ⟨key', hkey', heq'⟩ := headers_of_fallback hfb hpost'
    obtain rfl : key = key' := Option.some.inj (hkey.symm.trans hkey')
    rw [heq, heq']
    exact get?_sentHeaders_of_same hsame
  · intro targets target post hpost
    obtain ⟨key, hheaders⟩ := headers_of_post hpost
    have hnames : ∀ n ∈ post.headers.keys, lower n = n ∧ forwarded n = true := by
      intro n hn
      rw [hheaders] at hn
      exact names_sentHeaders hn
    have hlower : ∀ n ∈ post.headers.keys, lower n = n := fun n hn => (hnames n hn).1
    refine ⟨fun hfb => ?_, fun n hn => ?_, ?_, ?_⟩
    · obtain ⟨key, hkey, heq⟩ := headers_of_fallback hfb hpost
      refine ⟨key, hkey, sole_of_get? hlower ?_⟩
      rw [heq, get?_sentHeaders]
      rfl
    · refine ⟨(hnames n hn).1, ?_⟩
      simpa [forwarded] using (hnames n hn).2
    · refine sole_of_get? hlower ?_
      rw [hheaders, get?_sentHeaders]
      rfl
    · refine sole_of_get? hlower ?_
      rw [hheaders, get?_sentHeaders]
      rfl

/-- The provider first and a backend after it, for a client with a credential. -/
theorem headers_isolated_mixed :
    (posts json mixed asked thread [provider, gpuNode]).map Prod.fst = [provider, gpuNode] ∧
    ∀ target post, (target, post) ∈ posts json mixed asked thread [provider, gpuNode] →
      (Proxy.isOpenaiFallback mixed.cfg target = true → ∃ key, apiKey mixed = some key ∧
        Sole post.headers authorizationHeader (bearer key)) ∧
      Sole post.headers conversationIdHeader (.ofString "c-1") := by
  refine ⟨by decide +kernel, fun target post h => ?_⟩
  have hisolated := headers_isolated (J := json) (D := mixed) (p := asked) (x := thread) (by decide)
  obtain ⟨hkey, -, hid, -⟩ := hisolated.2.2 _ target post h
  exact ⟨hkey, hid⟩

end Requests

end InferenceGateway
