import InferenceGateway.Core.Codec
import InferenceGateway.Proxy.Client

/-!
# What is sent upstream (`app/proxy/client.py`)

The body and the headers of every attempt: `_filter_headers` once for a call,
`_prepare_target_request` and `_inject_thread_headers` for each of its attempts.
`Proxy.prepareTargetRequest` is the part that can keep an attempt from being
sent; the functions here say what is sent, and agree with it on the rest
(`prepareTargetRequest_of_raised`, `prepareTargetRequest_of_present`).

Header names are bytes and compared in lower case, header values are texts. A
header map is a list of fields in the order in which they are set;
`Headers.get?` is the lookup the proxy and `httpx` make, and
`get?_filterHeaders` says what `_filter_headers` leaves under each name.

- `attempt_ok`: what one attempt sends, for a target that is the fallback
  provider and for any other.
- `attempt_of_mem_attempts`: each request of a call is what its own attempt
  sends, whatever was tried before. The body and the headers a call starts from
  are never written to.
- `posts_of_beginAttempt`: an attempt that the proxy has begun is one of these
  requests.
-/

namespace InferenceGateway

open Lib

/-! ## Headers -/

/-- A header name. Starlette decodes names as latin-1, so a code point is a byte. -/
abbrev HeaderName := List UInt8

namespace HeaderName

def ofString (s : String) : HeaderName := ascii s

/-- `str.lower` on one latin-1 character: `A`-`Z`, and `À`-`Þ` without `×`. -/
def lowerByte (b : UInt8) : UInt8 :=
  if (0x41 ≤ b ∧ b ≤ 0x5A) ∨ (0xC0 ≤ b ∧ b ≤ 0xDE ∧ b ≠ 0xD7) then b + 0x20 else b

def lower (name : HeaderName) : HeaderName := name.map lowerByte

/-- Lower case is lower case already. By trying all 256 bytes. -/
theorem lowerByte_lowerByte (b : UInt8) : lowerByte (lowerByte b) = lowerByte b := by
  have h : ∀ i : Fin 256, lowerByte (lowerByte (UInt8.ofFin i)) = lowerByte (UInt8.ofFin i) := by
    decide +kernel
  exact h b.toFin

@[simp] theorem lower_lower (name : HeaderName) : lower (lower name) = lower name := by
  simp [lower, lowerByte_lowerByte]

end HeaderName

open HeaderName (lower)

/-- Header fields by name, in the order they are written. -/
abbrev Headers := Dict HeaderName Text

/-- What is left of a `PendingRequest` besides what the scheduler looks at. -/
structure Payload where
  conversationId : Text
  isNewConversation : Bool
  body : Bytes
  clientHeaders : Headers
  deriving DecidableEq

/-- The content of one `POST`. -/
structure Post where
  body : Bytes
  headers : Headers
  deriving DecidableEq

namespace Requests

/-- `_SAFE_HEADER` -/
def safeHeader : List HeaderName :=
  ["content-type", "authorization", "accept", "user-agent", "openai-organization",
    "openai-project"].map .ofString

/-- A lower-case name that is forwarded. -/
def forwarded (lk : HeaderName) : Bool :=
  decide (lk ∈ safeHeader) || (HeaderName.ofString "x-").isPrefixOf lk

/-- Forward safe client headers only (allowlist + `x-*` custom headers). -/
def filterHeaders (h : Headers) : Headers :=
  h.entries.foldl (fun out e => if forwarded (lower e.1) then out.set (lower e.1) e.2 else out)
    .empty

def conversationIdHeader : HeaderName := .ofString "x-conversation-id"

def isNewConversationHeader : HeaderName := .ofString "x-is-new-conversation"

def acceptHeader : HeaderName := .ofString "accept"

def authorizationHeader : HeaderName := .ofString "authorization"

/-- The value of `x-is-new-conversation`. -/
def newConversationValue (x : Payload) : Text :=
  .ofString (if x.isNewConversation then "true" else "false")

/-- `_inject_thread_headers` -/
def injectThreadHeaders (x : Payload) (outHeaders : Headers) : Headers :=
  (outHeaders.set conversationIdHeader x.conversationId).set isNewConversationHeader
    (newConversationValue x)

/-! ## Bodies -/

/-- Ensure the upstream JSON includes explicit `stream`. -/
def upstreamChatBody (J : Codec) (body : Bytes) (stream : Bool) : Except Exn Bytes :=
  match J.loads body with
  | .error e => if e.isValueError then .ok body else .error e
  | .ok (.obj data) => J.dumps (.obj (setItem (field "stream") (.bool stream) data))
  | .ok _ => .ok body

/-- The end of `_prepare_target_request`, for the fallback provider. -/
def fallbackBody (J : Codec) (model : String) (body : Bytes) (stream : Bool) :
    Except Exn Bytes :=
  match J.loads body with
  | .error e => if e.isValueError then .ok body else .error e
  | .ok (.obj data) =>
    J.dumps (.obj (setItem (field "stream") (.bool stream)
      (setItem (field "model") (.str (.ofString model)) data)))
  -- item assignment on anything but an object
  | .ok _ => .error .typeError

/-- `os.environ.get(api_key_env)`, unless it is empty. -/
def apiKey (D : Deployment) : Option String :=
  (D.environ D.cfg.openaiFallback.apiKeyEnv).filter fun key => !key.isEmpty

/-- `f"Bearer {api_key}"` -/
def bearer (key : String) : Text := .ofString ("Bearer " ++ key)

/-- An exception no clause of the proxy names leaves the handler. -/
def escaping {α : Type} : Except Exn α → Except Reply α
  | .ok a => .ok a
  | .error e => .error (.crashed e.name)

/-- The exception that comes out of a computation, if any. -/
def raised {α : Type} : Except Exn α → Option String
  | .ok _ => none
  | .error e => some e.name

/-- `_prepare_target_request`: body and headers tailored for the selected target. -/
def prepareTargetRequest (J : Codec) (D : Deployment) (p : PendingRequest) (x : Payload)
    (headers : Headers) (target : BackendTarget) : Except Reply Post := do
  let stream := p.classify.stream
  let body ← escaping (upstreamChatBody J x.body stream)
  let outHeaders :=
    if stream then headers.set acceptHeader (.ofString "text/event-stream") else headers
  if Proxy.isOpenaiFallback D.cfg target then
    match apiKey D with
    | none =>
      .error (.httpException 503
        { reason := some "fallback_unavailable"
          message := some ("missing env var " ++ D.cfg.openaiFallback.apiKeyEnv)
          requestId := p.requestId })
    | some key =>
      let outHeaders := outHeaders.set authorizationHeader (bearer key)
      let body ← escaping (fallbackBody J D.cfg.openaiFallback.model body stream)
      .ok ⟨body, outHeaders⟩
  else .ok ⟨body, outHeaders⟩

/-- What one attempt sends, given the filtered headers of its call. -/
def attempt (J : Codec) (D : Deployment) (p : PendingRequest) (x : Payload) (headers : Headers)
    (target : BackendTarget) : Except Reply Post := do
  let post ← prepareTargetRequest J D p x headers target
  .ok { post with headers := injectThreadHeaders x post.headers }

/-- The retry loop of one call, over the targets it tries. It ends early with the
exception of an attempt that sends nothing. -/
def attempts (J : Codec) (D : Deployment) (p : PendingRequest) (x : Payload) (headers : Headers) :
    List BackendTarget → List (BackendTarget × Post)
  | [] => []
  | target :: targets =>
    match attempt J D p x headers target with
    | .error _ => []
    | .ok post => (target, post) :: attempts J D p x headers targets

/-- Everything `proxy_chat_completion` posts when it tries `targets` in turn. -/
def posts (J : Codec) (D : Deployment) (p : PendingRequest) (x : Payload)
    (targets : List BackendTarget) : List (BackendTarget × Post) :=
  attempts J D p x (filterHeaders x.clientHeaders) targets

/-! ## The filtered headers -/

/-- The last of the entries whose name folds to `n`, which is the one that is kept. -/
def lastNamed (n : HeaderName) (entries : List (HeaderName × Text)) : Option Text :=
  (entries.filter fun e => decide (lower e.1 = n)).getLast?.map Prod.snd

/-- The field that is set last under a name wins. -/
theorem lastNamed_append_singleton (n : HeaderName) (es : List (HeaderName × Text))
    (e : HeaderName × Text) :
    lastNamed n (es ++ [e]) = if lower e.1 = n then some e.2 else lastNamed n es := by
  unfold lastNamed
  rw [List.filter_append]
  by_cases h : lower e.1 = n
  · simp [h]
  · simp [h]

/-- One entry of `_filter_headers`. -/
def keep (out : Headers) (e : HeaderName × Text) : Headers :=
  if forwarded (lower e.1) then out.set (lower e.1) e.2 else out

/-- One round of the loop of `_filter_headers` sets the field, or leaves it out. -/
theorem get?_keep (out : Headers) (e : HeaderName × Text) (n : HeaderName) :
    (keep out e).get? n = if lower e.1 = n ∧ forwarded n then some e.2 else out.get? n := by
  unfold keep
  by_cases hname : lower e.1 = n
  · subst hname
    by_cases hfwd : forwarded (lower e.1) = true
    · simp [hfwd]
    · simp [hfwd]
  · rw [if_neg (fun h : lower e.1 = n ∧ _ => hname h.1)]
    split
    · exact Dict.get?_set_of_ne (Ne.symm hname) out e.2
    · rfl

/-- The whole loop leaves under a name what the client last sent under it, if that name
is forwarded. By induction on the fields from the back. -/
theorem get?_foldl_keep (n : HeaderName) (es : List (HeaderName × Text)) :
    (es.foldl keep .empty).get? n = if forwarded n then lastNamed n es else none := by
  induction es using List.reverseRecOn with
  | nil => simp [lastNamed]
  | append_singleton es e ih =>
    rw [List.foldl_append, List.foldl_cons, List.foldl_nil, lastNamed_append_singleton, get?_keep,
      ih]
    by_cases hname : lower e.1 = n <;> by_cases hfwd : forwarded n = true <;> simp [hname, hfwd]

/-- What is forwarded under a name is what the client last sent under it. -/
theorem get?_filterHeaders (h : Headers) (n : HeaderName) :
    (filterHeaders h).get? n = if forwarded n then lastNamed n h.entries else none :=
  get?_foldl_keep n h.entries

/-- Filtered names are lower-case and forwarded. -/
theorem mem_keys_filterHeaders {h : Headers} {n : HeaderName} (hn : n ∈ (filterHeaders h).keys) :
    lower n = n ∧ forwarded n = true := by
  have hget : (filterHeaders h).get? n ≠ none := fun h0 => Dict.get?_eq_none_iff.mp h0 hn
  rw [get?_filterHeaders] at hget
  split at hget
  case isTrue hfwd =>
    refine ⟨?_, hfwd⟩
    unfold lastNamed at hget
    cases hfilter : h.entries.filter (fun e => decide (lower e.1 = n)) with
    | nil => simp [hfilter] at hget
    | cons e es =>
      have he : e ∈ h.entries.filter (fun e => decide (lower e.1 = n)) := by simp [hfilter]
      rw [← of_decide_eq_true (List.mem_filter.mp he).2, HeaderName.lower_lower]
  case isFalse => exact absurd rfl hget

/-! ## What an attempt sends -/

section attempt

variable {J : Codec} {D : Deployment} {p : PendingRequest} {x : Payload} {headers : Headers}
  {target : BackendTarget} {targets : List BackendTarget} {post : Post}

/-- What is answered is answered, wherever exceptions would have gone. -/
theorem escaping_eq_ok {α : Type} {r : Except Exn α} {a : α} : escaping r = .ok a ↔ r = .ok a := by
  cases r with
  | error e => exact ⟨nofun, nofun⟩
  | ok b => simp [escaping]

/-- The headers an attempt sends; `key` is the fallback's, if it is the target. -/
def sentHeaders (p : PendingRequest) (x : Payload) (headers : Headers) (key : Option String) :
    Headers :=
  let outHeaders :=
    if p.classify.stream then headers.set acceptHeader (.ofString "text/event-stream") else headers
  injectThreadHeaders x
    (match key with
    | some key => outHeaders.set authorizationHeader (bearer key)
    | none => outHeaders)

/-- **What an attempt sends.** The stream flag is injected for every target, model and
credential are the fallback's for the fallback alone. -/
theorem attempt_ok (h : attempt J D p x headers target = .ok post) :
    ∃ body, upstreamChatBody J x.body p.classify.stream = .ok body ∧
      ((Proxy.isOpenaiFallback D.cfg target = false ∧
          post = ⟨body, sentHeaders p x headers none⟩) ∨
        ∃ key body', Proxy.isOpenaiFallback D.cfg target = true ∧ apiKey D = some key ∧
          fallbackBody J D.cfg.openaiFallback.model body p.classify.stream = .ok body' ∧
          post = ⟨body', sentHeaders p x headers (some key)⟩) := by
  obtain ⟨prepared, hprepared, hpost⟩ := exists_of_bind h
  cases hpost
  obtain ⟨body, hbody, hrest⟩ := exists_of_bind hprepared
  refine ⟨body, escaping_eq_ok.mp hbody, ?_⟩
  -- only the fallback has its body written again, with a credential
  cases hfb : Proxy.isOpenaiFallback D.cfg target with
  | false =>
    simp only [hfb] at hrest
    cases hrest
    exact .inl ⟨rfl, rfl⟩
  | true =>
    cases hkey : apiKey D with
    | none =>
      simp only [hfb, hkey, if_true] at hrest
      cases hrest
    | some key =>
      simp only [hfb, hkey, if_true] at hrest
      obtain ⟨body', hbody', hok⟩ := exists_of_bind hrest
      cases hok
      exact .inr ⟨key, body', rfl, rfl, escaping_eq_ok.mp hbody', rfl⟩

/-- Each request of a call is what its attempt sends, whatever was tried before. -/
theorem attempt_of_mem_attempts (h : (target, post) ∈ attempts J D p x headers targets) :
    target ∈ targets ∧ attempt J D p x headers target = .ok post := by
  induction targets with
  | nil => cases h
  | cons t ts ih =>
    unfold attempts at h
    split at h
    case h_1 => cases h
    case h_2 post' hpost =>
      rcases List.mem_cons.mp h with heq | h
      · cases heq
        exact ⟨List.mem_cons_self, hpost⟩
      · obtain ⟨hmem, hattempt⟩ := ih h
        exact ⟨List.mem_cons_of_mem _ hmem, hattempt⟩

/-- The requests of a call are sent with the filtered headers of the client. -/
theorem attempt_of_mem_posts (h : (target, post) ∈ posts J D p x targets) :
    target ∈ targets ∧ attempt J D p x (filterHeaders x.clientHeaders) target = .ok post :=
  attempt_of_mem_attempts h

/-- `Proxy.missingApiKey` is about the key that is looked up here. -/
theorem apiKey_eq_none_iff : apiKey D = none ↔ Proxy.missingApiKey D = true := by
  unfold apiKey Proxy.missingApiKey
  cases D.environ D.cfg.openaiFallback.apiKeyEnv with
  | none => exact iff_of_true rfl rfl
  | some key => cases hkey : key.isEmpty <;> simp [Option.filter, hkey]

/-- **The two preparations raise the same.** Where `Deployment.unprepared` tells what comes out
of `_upstream_chat_body`, an exception that `Proxy.prepareTargetRequest` has for an attempt is
the one its preparation ends in. -/
theorem prepareTargetRequest_of_raised {reply : Reply}
    (hraised : D.unprepared p.oid = raised (upstreamChatBody J x.body p.classify.stream))
    (h : Proxy.prepareTargetRequest D target p = some reply) :
    prepareTargetRequest J D p x headers target = .error reply := by
  unfold Proxy.prepareTargetRequest at h
  rw [hraised] at h
  -- the body is prepared before anything is asked about the target
  cases hbody : upstreamChatBody J x.body p.classify.stream with
  | error e =>
    rw [hbody] at h
    cases h
    simp [prepareTargetRequest, escaping, bind, Except.bind, hbody]
  | ok body =>
    simp only [hbody, raised] at h
    split at h
    case isTrue hcond =>
      obtain ⟨hfb, hkey⟩ := Bool.and_eq_true_iff.mp hcond
      cases h
      simp [prepareTargetRequest, escaping, bind, Except.bind, hbody, hfb,
        apiKey_eq_none_iff.mpr hkey]
    case isFalse => cases h

/-- Otherwise a request is sent, if the fallback's body can be written again. -/
theorem prepareTargetRequest_of_present {body : Bytes}
    (hbody : upstreamChatBody J x.body p.classify.stream = .ok body)
    (hfallback : ∃ body', fallbackBody J D.cfg.openaiFallback.model body p.classify.stream =
      .ok body')
    (h : Proxy.prepareTargetRequest D target p = none) :
    ∃ post, prepareTargetRequest J D p x headers target = .ok post := by
  obtain ⟨body', hbody'⟩ := hfallback
  cases hfb : Proxy.isOpenaiFallback D.cfg target with
  | false =>
    simp [prepareTargetRequest, escaping, bind, Except.bind, hbody, hfb]
  | true =>
    have hpresent : Proxy.missingApiKey D = false := by
      simpa [hfb] using (Proxy.prepareTargetRequest_eq_none_iff.mp h).2
    obtain ⟨key, hkey⟩ : ∃ key, apiKey D = some key :=
      Option.ne_none_iff_exists'.mp fun hnone =>
        Bool.noConfusion (hpresent.symm.trans (apiKey_eq_none_iff.mp hnone))
    simp [prepareTargetRequest, escaping, bind, Except.bind, hbody, hfb, hkey, hbody']

/-- An attempt the proxy has begun is one of the requests above, if its body can be read
and written: the two preparations raise in the same cases. -/
theorem posts_of_beginAttempt {w v : World} {c c' : ProxyCall} {body : Bytes}
    (hbegin : Proxy.beginAttempt D w c = (v, .sending c'))
    (hbody : upstreamChatBody J x.body c.pending.classify.stream = .ok body)
    (hfallback : ∃ body', fallbackBody J D.cfg.openaiFallback.model body
      c.pending.classify.stream = .ok body') :
    c'.target = c.target ∧ ∃ post, (c.target, post) ∈ posts J D c.pending x [c.target] := by
  unfold Proxy.beginAttempt at hbegin
  split at hbegin
  case isTrue =>
    -- an attempt that is sent has its request prepared
    cases hprepare : Proxy.prepareTargetRequest D c.target c.pending with
    | some reply =>
      simp only [ProxyCall.target] at hprepare hbegin
      simp only [hprepare] at hbegin
      cases hbegin
    | none =>
      obtain ⟨post, hpost⟩ : ∃ post, prepareTargetRequest J D c.pending x
          (filterHeaders x.clientHeaders) c.target = .ok post :=
        prepareTargetRequest_of_present hbody hfallback hprepare
      simp only [ProxyCall.target] at hprepare hbegin
      simp only [hprepare] at hbegin
      cases hbegin
      refine ⟨rfl, { post with headers := injectThreadHeaders x post.headers }, ?_⟩
      simp [posts, attempts, attempt, hpost, bind, Except.bind]
  case isFalse => cases hbegin

end attempt

/-! ## One call -/

/-- The standard library with as much recursion for writing as for reading. -/
def json : Codec := .python { loadsDepth := 1000, dumpsDepth := 1000 }

/-- One backend and the fallback. -/
def mixed : Deployment where
  cfg := { backends := [{ name := "gpu-node-1", url := "http://10.0.0.1:8000" }]
           openaiFallback := { enabled := true } }
  environ := fun name => if name = "OPENAI_API_KEY" then some "sk-fallback" else none

def provider : BackendTarget := ⟨"openai-fallback", "https://api.openai.com"⟩

def gpuNode : BackendTarget := ⟨"gpu-node-1", "http://10.0.0.1:8000"⟩

/-- The client asks for a stream. -/
def asked : PendingRequest where
  oid := 0
  requestId := "r-1"
  enqueuedAtMonotonic := 0
  classify :=
    { reqClass := .smallChat, estTokens := 1, maxTokens := none, stream := true, model := some "m" }
  path := "/v1/chat/completions"
  query := ""

/-- A payload with a credential of the client's, for a thread of its own. -/
def thread : Payload where
  conversationId := .ofString "c-1"
  isNewConversation := true
  body := ascii "\x7b\"model\": \"m\"\x7d"
  clientHeaders :=
    { entries := [(HeaderName.ofString "Authorization", .ofString "Bearer client"),
        (HeaderName.ofString "X-Conversation-Id", .ofString "mine")]
      nodup := by decide }

/-- The object of its request. -/
def askedObject : List (Text × Json) :=
  [(field "model", .str (.ofString "m")), (field "conversation_id", .str (.ofString "c-1"))]

/-- The body of the sample is a well-formed object. -/
theorem wellFormed_askedObject : (Json.obj askedObject).WellFormed := by
  refine .obj (by decide) fun e he => ?_
  rcases List.mem_pair.mp he with rfl | rfl <;> exact .str _

end Requests

end InferenceGateway
