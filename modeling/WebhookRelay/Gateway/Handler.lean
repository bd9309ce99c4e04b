import WebhookRelay.Core.Models

/-!
# Receiving a webhook

The checks and rows of `app/gateway/handler.py`. `check` is everything up to
the idempotency reservation, in the order the handler tests it; the two rows
a request inserts are `newEvent` and `newOutboxRecord`. What the handler asks
of `hmac`, `json`, `jsonschema` and `ipaddress` is the `Runtime`.
-/

namespace WebhookRelay.Gateway

abbrev Bytes := List UInt8

/-- `json.loads` on the raw body. -/
inductive LoadResult where
  | value (payload : Json)
  | decodeError
  | raised (exc : Exc)

/-- `jsonschema.validate`. -/
inductive SchemaResult where
  | valid
  | invalid (message : String)
  | raised (exc : Exc)

structure Runtime where
  /-- `hmac.new(secret.encode(), body, sha256).hexdigest()`. -/
  hmacSha256 : (secret : String) → (body : Bytes) → String
  loads : Bytes → LoadResult
  validateSchema : (payload schema : Json) → SchemaResult
  /-- Whether `ipaddress.ip_address` accepts the text. -/
  isIpAddress : String → Bool
  /-- `ip_address(host) in ip_network(entry, strict=False)`; `none` for an
  entry that is no network. -/
  inNetwork : (host entry : String) → Option Bool

structure WebhookRequest where
  endpointId : String
  clientHost : Option String := none
  chunks : List Bytes := []
  xHubSignature256 : Option String := none
  idempotencyKey : Option String := none
  headers : Headers := []

/-- A request that is not answered 202. -/
inductive Rejection where
  | http (status : ℕ) (detail : String)
  | raised (exc : Exc)

/-- `_read_limited_body`. -/
def readLimitedBody (settings : Settings) : Bytes → List Bytes → Except Rejection Bytes
  | body, [] => .ok body
  | body, chunk :: rest =>
      let body := body ++ chunk
      if settings.maxWebhookBodyBytes < body.length then .error (.http 413 "request body too large")
      else readLimitedBody settings body rest

/-- `_client_ip_allowed`; an entry that is no network is passed over. -/
def clientIpAllowed (rt : Runtime) (clientHost : Option String) (allowlist : Option (List String)) :
    Bool :=
  match allowlist.getD [] with
  | [] => true
  | entries =>
      match clientHost with
      | none => false
      | some host =>
          host ≠ "" && rt.isIpAddress host && entries.any
            (fun entry => rt.inNetwork host entry = some true)

def signaturePrefix : String := "sha256="

/-- The signature test, for an endpoint with a secret. `compare_digest` takes
ASCII text only. -/
def checkSignature (rt : Runtime) (secret : String) (body : Bytes) (header : Option String) :
    Except Rejection Unit :=
  match header with
  | none => .error (.http 401 "missing signature header")
  | some signature =>
      if signature = "" then .error (.http 401 "missing signature header")
      else if signaturePrefix.toList.isPrefixOf signature.toList = false then
        .error (.http 401 "invalid signature format")
      else
        let provided := String.ofList (signature.toList.drop signaturePrefix.length)
        if provided.toList.any (fun c => 128 ≤ c.toNat) then
          .error (.raised ⟨"TypeError",
            "comparing strings with non-ASCII characters is not supported"⟩)
        else if provided ≠ rt.hmacSha256 secret body then .error (.http 401 "invalid signature")
        else .ok ()

def checkSchema (rt : Runtime) (payload : Json) (schema : Option Json) : Except Rejection Unit :=
  match schema with
  | none => .ok ()
  | some schema =>
      match rt.validateSchema payload schema with
      | .valid => .ok ()
      | .invalid message => .error (.http 422 message)
      | .raised exc => .error (.raised exc)

def checkRate (endpoint : Endpoint) (limiter : Except Exc Bool) : Except Rejection Unit :=
  match endpoint.rateLimitRps with
  | none => .ok ()
  | some _ =>
      match limiter with
      | .ok true => .ok ()
      | .ok false => .error (.http 429 "endpoint rate limit exceeded")
      | .error exc => .error (.raised exc)

/-- The handler up to the reservation: the endpoint and the payload, or the
rejection. `limiter` is what `allow_request` answers if it is asked. -/
def check (rt : Runtime) (settings : Settings) (endpoints : List Endpoint)
    (limiter : Except Exc Bool)
    (request : WebhookRequest) : Except Rejection (Endpoint × Json) := do
  let body ← readLimitedBody settings [] request.chunks
  let some id := UUID.parse request.endpointId | .error (.http 400 "invalid endpoint id")
  let some endpoint := endpoints.find? (fun ep => ep.id = id)
    | .error (.http 404 "endpoint not found")
  if endpoint.isActive = false then .error (.http 410 "endpoint is disabled")
  if clientIpAllowed rt request.clientHost endpoint.ipAllowlist = false then
    .error (.http 403 "sender ip is not allowed")
  checkRate endpoint limiter
  if endpoint.hmacSecret ≠ "" then
    checkSignature rt endpoint.hmacSecret body request.xHubSignature256
  match rt.loads body with
  | .decodeError => .error (.http 400 "invalid JSON payload")
  | .raised exc => .error (.raised exc)
  | .value payload => do
      checkSchema rt payload endpoint.requestBodySchema
      return (endpoint, payload)

/-! ### The stages of the check -/

/-- Up to the sender's address: the raw body and the endpoint it is for. -/
def locate (rt : Runtime) (settings : Settings) (endpoints : List Endpoint)
    (request : WebhookRequest) : Except Rejection (Bytes × Endpoint) := do
  let body ← readLimitedBody settings [] request.chunks
  let some id := UUID.parse request.endpointId | .error (.http 400 "invalid endpoint id")
  let some endpoint := endpoints.find? (fun ep => ep.id = id)
    | .error (.http 404 "endpoint not found")
  if endpoint.isActive = false then .error (.http 410 "endpoint is disabled")
  if clientIpAllowed rt request.clientHost endpoint.ipAllowlist = false then
    .error (.http 403 "sender ip is not allowed")
  return (body, endpoint)

/-- The signature test, for an endpoint that has a secret. -/
def checkSecret (rt : Runtime) (endpoint : Endpoint) (body : Bytes) (header : Option String) :
    Except Rejection Unit :=
  if endpoint.hmacSecret ≠ "" then checkSignature rt endpoint.hmacSecret body header else .ok ()

/-- What comes after the signature. -/
def parsePayload (rt : Runtime) (endpoint : Endpoint) (body : Bytes) :
    Except Rejection (Endpoint × Json) :=
  match rt.loads body with
  | .decodeError => .error (.http 400 "invalid JSON payload")
  | .raised exc => .error (.raised exc)
  | .value payload => do
      checkSchema rt payload endpoint.requestBodySchema
      return (endpoint, payload)

theorem check_eq (rt : Runtime) (settings : Settings) (endpoints : List Endpoint)
    (limiter : Except Exc Bool) (request : WebhookRequest) :
    check rt settings endpoints limiter request =
      locate rt settings endpoints request >>= fun found =>
        checkRate found.2 limiter >>= fun _ =>
          checkSecret rt found.2 found.1 request.xHubSignature256 >>= fun _ =>
            parsePayload rt found.2 found.1 := by
  unfold check locate
  cases readLimitedBody settings [] request.chunks with
  | error rejection => rfl
  | ok body =>
      cases UUID.parse request.endpointId with
      | none => rfl
      | some id =>
          cases hfind : endpoints.find? (fun ep => ep.id = id) with
          | none => simp [hfind, bind, Except.bind]
          | some endpoint =>
              simp only [hfind, bind, Except.bind]
              by_cases hactive : endpoint.isActive = false
              · rw [if_pos hactive, if_pos hactive]
              · rw [if_neg hactive, if_neg hactive]
                by_cases hip : clientIpAllowed rt request.clientHost endpoint.ipAllowlist = false
                · rw [if_pos hip, if_pos hip]
                · rw [if_neg hip, if_neg hip]
                  by_cases hsecret : endpoint.hmacSecret ≠ ""
                  · simp only [pure, Except.pure, checkSecret, if_pos hsecret]
                    rfl
                  · simp only [pure, Except.pure, checkSecret, if_neg hsecret]
                    rfl

/-- The parts of a body that is not refused, put together again. -/
theorem readLimitedBody_eq_ok {settings : Settings} {start body : Bytes} {chunks : List Bytes}
    (h : readLimitedBody settings start chunks = .ok body) : body = start ++ chunks.flatten := by
  induction chunks generalizing start with
  | nil =>
      cases h
      rw [List.flatten_nil, List.append_nil]
  | cons chunk rest ih =>
      rw [readLimitedBody] at h
      split at h
      · cases h
      · rw [ih h, List.flatten_cons, List.append_assoc]

/-- The header that passes the test is the signature. -/
theorem checkSignature_eq_ok {rt : Runtime} {secret : String} {body : Bytes}
    {header : Option String} (h : checkSignature rt secret body header = .ok ()) :
    header = some (signaturePrefix ++ rt.hmacSha256 secret body) := by
  unfold checkSignature at h
  split at h
  · cases h
  · rename_i signature
    split at h
    · cases h
    · split at h
      · cases h
      · rename_i hspelled
        dsimp only at h
        split at h
        · cases h
        · split at h
          · cases h
          · rename_i hprovided
            rw [not_not] at hprovided
            have hcut : signature = signaturePrefix ++
                String.ofList (signature.toList.drop signaturePrefix.length) := by
              have hpre : signaturePrefix.toList <+: signature.toList := by simpa using hspelled
              obtain ⟨rest, hrest⟩ := hpre
              apply String.toList_injective
              rw [String.toList_append, String.toList_ofList, ← hrest]
              rw [List.drop_left' String.length_toList]
            rw [hprovided] at hcut
            rw [← hcut]

theorem drop_signaturePrefix (provided : String) :
    String.ofList ((signaturePrefix ++ provided).toList.drop signaturePrefix.length) =
      provided := by
  rw [String.toList_append, List.drop_left' String.length_toList, String.ofList_toList]

/-- The test on a header with the prefix is a test on what follows it. -/
theorem checkSignature_prefixed (rt : Runtime) (secret : String) (body : Bytes)
    (provided : String) :
    checkSignature rt secret body (some (signaturePrefix ++ provided)) =
      if provided.toList.any (fun c => 128 ≤ c.toNat) then
        .error
          (.raised ⟨"TypeError", "comparing strings with non-ASCII characters is not supported"⟩)
      else if provided ≠ rt.hmacSha256 secret body then .error (.http 401 "invalid signature")
      else .ok () := by
  have hnonempty : signaturePrefix ++ provided ≠ "" := by
    intro hempty
    have hlength := congrArg String.length hempty
    rw [String.length_append] at hlength
    have hspelled : signaturePrefix.length = 7 := by decide
    rw [hspelled] at hlength
    exact absurd hlength (by simp)
  have hspelled : ¬ signaturePrefix.toList.isPrefixOf (signaturePrefix ++ provided).toList =
      false := by
    rw [String.toList_append, Bool.not_eq_false, List.isPrefixOf_iff_prefix]
    exact List.prefix_append _ _
  simp only [checkSignature]
  rw [if_neg hnonempty, if_neg hspelled, drop_signaturePrefix]

theorem locate_eq_ok {rt : Runtime} {settings : Settings} {endpoints : List Endpoint}
    {request : WebhookRequest} {body : Bytes} {endpoint : Endpoint}
    (h : locate rt settings endpoints request = .ok (body, endpoint)) :
    body = request.chunks.flatten ∧ ∃ id, UUID.parse request.endpointId = some id ∧
      endpoints.find? (fun ep => ep.id = id) = some endpoint := by
  unfold locate at h
  obtain ⟨body', hbody, h⟩ := exists_of_bind_eq_ok h
  split at h
  · rename_i id hid
    split at h
    · rename_i endpoint' hfind
      by_cases hactive : endpoint'.isActive = false
      · rw [if_pos hactive] at h
        cases h
      · rw [if_neg hactive] at h
        by_cases hip : clientIpAllowed rt request.clientHost endpoint'.ipAllowlist = false
        · rw [if_pos hip] at h
          cases h
        · rw [if_neg hip] at h
          cases h
          exact ⟨readLimitedBody_eq_ok hbody, id, hid, hfind⟩
    · cases h
  · cases h

/-- A body of some size for an active endpoint that the sender may call. -/
theorem locate_of_found {rt : Runtime} {settings : Settings} {endpoints : List Endpoint}
    {request : WebhookRequest} {body : Bytes} {id : UUID} {endpoint : Endpoint}
    (hbody : readLimitedBody settings [] request.chunks = .ok body)
    (hid : UUID.parse request.endpointId = some id)
    (hfind : endpoints.find? (fun ep => ep.id = id) = some endpoint)
    (hactive : endpoint.isActive = true)
    (hip : clientIpAllowed rt request.clientHost endpoint.ipAllowlist = true) :
    locate rt settings endpoints request = .ok (body, endpoint) := by
  unfold locate
  rw [hbody, hid]
  simp [hfind, hactive, hip, bind, Except.bind, pure, Except.pure]

theorem parsePayload_eq_ok {rt : Runtime} {endpoint endpoint' : Endpoint} {body : Bytes}
    {payload : Json} (h : parsePayload rt endpoint body = .ok (endpoint', payload)) :
    endpoint' = endpoint := by
  unfold parsePayload at h
  split at h
  · cases h
  · cases h
  · obtain ⟨_, _, h⟩ := exists_of_bind_eq_ok h
    cases h
    rfl

/-- Every stage of a check that is passed is passed, for one endpoint. -/
theorem check_eq_ok {rt : Runtime} {settings : Settings} {endpoints : List Endpoint}
    {limiter : Except Exc Bool} {request : WebhookRequest} {endpoint : Endpoint} {payload : Json}
    (h : check rt settings endpoints limiter request = .ok (endpoint, payload)) :
    ∃ body, locate rt settings endpoints request = .ok (body, endpoint) ∧
      checkSecret rt endpoint body request.xHubSignature256 = .ok () := by
  rw [check_eq] at h
  obtain ⟨⟨body, found⟩, hlocate, h⟩ := exists_of_bind_eq_ok h
  obtain ⟨_, _, h⟩ := exists_of_bind_eq_ok h
  obtain ⟨_, hsecret, hparse⟩ := exists_of_bind_eq_ok h
  obtain rfl := parsePayload_eq_ok hparse
  exact ⟨body, hlocate, hsecret⟩

/-! ## The reservation and the rows -/

/-- `if idempotency_key:`; an empty key is no key. -/
def reservedKey (request : WebhookRequest) : Option String :=
  match request.idempotencyKey with
  | some key => if key = "" then none else some key
  | none => none

def dedupKey (endpointId : UUID) (key : String) : String :=
  "idem:" ++ endpointId.str ++ ":" ++ key

def excludedHeaders : List String := ["authorization", "cookie", "set-cookie"]

/-- `d[key] = value`. -/
def setItem : Headers → String → String → Headers
  | [], key, value => [(key, value)]
  | (k, v) :: rest, key, value =>
      if k = key then (key, value) :: rest else (k, v) :: setItem rest key value

def requestHeaders (headers : Headers) : Headers :=
  (headers.filter (fun h => h.1.toLower ∉ excludedHeaders)).foldl
    (fun kept h => setItem kept h.1.toLower h.2) []

def newEvent (id : UUID) (now : Time) (endpoint : Endpoint) (payload : Json)
    (request : WebhookRequest) : Event where
  id := id
  endpointId := endpoint.id
  idempotencyKey := request.idempotencyKey
  requestBody := payload
  requestHeaders := some (requestHeaders request.headers)
  status := .pending
  receivedAt := now

def newOutboxRecord (settings : Settings) (id eventId : UUID) (now : Time) (endpoint : Endpoint) :
    OutboxRecord where
  id := id
  eventId := eventId
  publishKey := endpoint.id.str
  publishTopic := settings.kafkaTopicRawEvents
  createdAt := now

/-- Keys of different endpoints, and different keys, are different texts. -/
theorem dedupKey_injective {a b : UUID} {k l : String} (h : dedupKey a k = dedupKey b l) :
    a = b ∧ k = l := by
  have hlist := congrArg String.toList h
  simp only [dedupKey, String.toList_append, List.append_assoc] at hlist
  have hcut := List.append_cancel_left hlist
  have hlen : a.str.toList.length = b.str.toList.length := by
    rw [UUID.length_str, UUID.length_str]
  obtain ⟨hstr, hrest⟩ := List.append_inj hcut hlen
  refine ⟨UUID.str_injective (String.toList_injective hstr), ?_⟩
  exact String.toList_injective (List.append_cancel_left hrest)

end WebhookRelay.Gateway
