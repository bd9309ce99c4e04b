import WebhookRelay.Api.Endpoints
import WebhookRelay.Foundation.Fallible
import WebhookRelay.Gateway.Idempotency

/-!
# How a webhook is answered

One call of `receive_webhook` from its start to its answer, and which of the
exceptions under way are `HTTPException`s of its own.
-/

namespace WebhookRelay.Gateway

open Foundation Foundation.Fallible

/-- What Redis and Postgres answer to one request. -/
structure ServerAnswers where
  now : Time
  eventId : UUID
  limiter : Except Exc Bool := .ok true
  /-- `SET NX` on a key. -/
  reserve : String → Except Exc Bool := fun _ => .ok true
  /-- The endpoints at the commit, for the foreign key. -/
  endpointsAtCommit : List Endpoint
  /-- Whether a document is taken as `jsonb`; one with a NUL character or a
  number that is not finite is not. -/
  jsonb : Json → Bool := fun _ => true

/-- What is answered with the status 202. -/
inductive Reply where
  | accepted (eventId : UUID)
  | duplicate

def storedHeaders (event : Event) : Json :=
  .obj ((event.requestHeaders.getD []).map (fun h => (h.1, .str h.2)))

section

variable (rt : Runtime) (settings : Settings) (endpoints : List Endpoint) (ans : ServerAnswers)

/-- `await db.commit()` on the two new rows. -/
def commitRows (event : Event) : Except Exc Unit :=
  if event.endpointId ∉ ans.endpointsAtCommit.map Endpoint.id then
    .error (Api.integrityError "events_endpoint_id_fkey")
  else
    Api.checkColumns
      (event.idempotencyKey.all (Api.fitsVarchar 255) && ans.jsonb event.requestBody &&
      ans.jsonb (storedHeaders event))

/-- Whether the request goes on to its commit. -/
def reservation (endpoint : Endpoint) (request : WebhookRequest) : Except Rejection Bool :=
  match reservedKey request with
  | none => .ok true
  | some key =>
      match ans.reserve (dedupKey endpoint.id key) with
      | .ok set => .ok set
      | .error exc => .error (.raised exc)

def recordEvent (endpoint : Endpoint) (payload : Json) (request : WebhookRequest) :
    Except Rejection Reply :=
  match commitRows ans (newEvent ans.eventId ans.now endpoint payload request) with
  | .ok _ => .ok (.accepted ans.eventId)
  | .error exc => .error (.raised exc)

/-- `receive_webhook`. -/
def receiveWebhook (request : WebhookRequest) : Except Rejection Reply := do
  let found ← check rt settings endpoints ans.limiter request
  let set ← reservation ans found.1 request
  if set then recordEvent ans found.1 found.2 request else return .duplicate

end

/-! ## Answers of its own -/

/-- The statuses of the handler's `HTTPException`s. -/
def ownStatuses : List ℕ := [400, 401, 403, 404, 410, 413, 422, 429]

def Own : Rejection → Prop
  | .http status _ => status ∈ ownStatuses
  | .raised _ => False

/-- The handler ends with an answer, or with an exception of its own. -/
def Answered (result : Except Rejection Reply) : Prop := ErrorsIn Own result

variable {rt : Runtime} {settings : Settings} {endpoints : List Endpoint} {ans : ServerAnswers}
  {request : WebhookRequest}

theorem own_http {α : Type} {status : ℕ} {detail : String} (h : status ∈ ownStatuses) :
    ErrorsIn Own (.error (.http status detail) : Except Rejection α) :=
  errorsIn_error_iff.mpr h

theorem not_own_raised {α : Type} (exc : Exc) :
    ¬ ErrorsIn Own (.error (.raised exc) : Except Rejection α) :=
  fun h => errorsIn_error_iff.mp h

theorem own_readLimitedBody (start : Bytes) (chunks : List Bytes) :
    ErrorsIn Own (readLimitedBody settings start chunks) := by
  induction chunks generalizing start with
  | nil => exact errorsIn_ok _
  | cons chunk rest ih =>
      rw [readLimitedBody]
      split
      · exact own_http (by decide)
      · exact ih _

theorem own_locate : ErrorsIn Own (locate rt settings endpoints request) := by
  unfold locate
  refine errorsIn_bind_iff.mpr ⟨own_readLimitedBody _ _, ?_⟩
  intro body _
  split
  · split
    · rename_i endpoint _
      by_cases hactive : endpoint.isActive = false
      · rw [if_pos hactive]
        exact own_http (by decide)
      · rw [if_neg hactive]
        by_cases hip : clientIpAllowed rt request.clientHost endpoint.ipAllowlist = false
        · rw [if_pos hip]
          exact own_http (by decide)
        · rw [if_neg hip]
          exact errorsIn_ok _
    · exact own_http (by decide)
  · exact own_http (by decide)

theorem own_checkRate {endpoint : Endpoint} {allowed : Bool} :
    ErrorsIn Own (checkRate endpoint (.ok allowed)) := by
  unfold checkRate
  split
  · exact errorsIn_ok _
  · cases allowed with
    | true => exact errorsIn_ok _
    | false => exact own_http (by decide)

/-- What follows the prefix of a signature header is ASCII. -/
def AsciiSignature (header : Option String) : Prop :=
  ∀ provided, header = some (signaturePrefix ++ provided) → ∀ c ∈ provided.toList, c.toNat < 128

theorem own_checkSignature_iff {secret : String} {body : Bytes} {header : Option String} :
    ErrorsIn Own (checkSignature rt secret body header) ↔ AsciiSignature header := by
  by_cases hprefixed : ∃ provided, header = some (signaturePrefix ++ provided)
  · obtain ⟨provided, rfl⟩ := hprefixed
    have hascii : AsciiSignature (some (signaturePrefix ++ provided)) ↔
        ∀ c ∈ provided.toList, c.toNat < 128 := by
      constructor
      · intro h
        exact h provided rfl
      · intro h other heq
        have hsame : provided = other := by
          rw [← drop_signaturePrefix provided, ← drop_signaturePrefix other, Option.some.inj heq]
        exact hsame ▸ h
    rw [checkSignature_prefixed, hascii]
    by_cases hany : provided.toList.any (fun c => 128 ≤ c.toNat) = true
    · rw [if_pos hany]
      apply iff_of_false (not_own_raised _)
      obtain ⟨c, hc, hwide⟩ := List.any_eq_true.mp hany
      exact fun h => absurd (h c hc) (Nat.not_lt.mpr (of_decide_eq_true hwide))
    · rw [if_neg hany]
      refine iff_of_true ?_ ?_
      · split
        · exact own_http (by decide)
        · exact errorsIn_ok _
      · intro c hc
        by_contra hwide
        exact hany (List.any_eq_true.mpr ⟨c, hc, decide_eq_true (Nat.not_lt.mp hwide)⟩)
  · refine iff_of_true ?_ (fun provided heq => absurd ⟨provided, heq⟩ hprefixed)
    have hnot : ∀ signature, header = some signature →
        signaturePrefix.toList.isPrefixOf signature.toList = false := by
      rintro signature rfl
      by_contra hspelled
      rw [Bool.not_eq_false, List.isPrefixOf_iff_prefix] at hspelled
      obtain ⟨rest, hrest⟩ := hspelled
      refine hprefixed ⟨String.ofList rest, congrArg some ?_⟩
      apply String.toList_injective
      rw [String.toList_append, String.toList_ofList, hrest]
    unfold checkSignature
    split
    · exact own_http (by decide)
    · rename_i signature
      split
      · exact own_http (by decide)
      · rw [if_pos (hnot signature rfl)]
        exact own_http (by decide)

theorem own_checkSecret_iff {endpoint : Endpoint} {body : Bytes} {header : Option String} :
    ErrorsIn Own (checkSecret rt endpoint body header) ↔
      (endpoint.hmacSecret ≠ "" → AsciiSignature header) := by
  unfold checkSecret
  by_cases hsecret : endpoint.hmacSecret ≠ ""
  · rw [if_pos hsecret, own_checkSignature_iff]
    exact ⟨fun h _ => h, fun h => h hsecret⟩
  · rw [if_neg hsecret]
    exact iff_of_true (errorsIn_ok _) (fun h => absurd h hsecret)

/-- `jsonschema.validate` raises nothing but its `ValidationError`. -/
def SchemaAnswers (rt : Runtime) (payload : Json) (schema : Option Json) : Prop :=
  ∀ s, schema = some s → ∀ exc, rt.validateSchema payload s ≠ .raised exc

theorem own_checkSchema_iff {payload : Json} {schema : Option Json} :
    ErrorsIn Own (checkSchema rt payload schema) ↔ SchemaAnswers rt payload schema := by
  unfold checkSchema SchemaAnswers
  cases schema with
  | none => exact iff_of_true (errorsIn_ok _) (fun s hs => by cases hs)
  | some schema =>
      simp only [Option.some.injEq, forall_eq']
      cases rt.validateSchema payload schema with
      | valid => exact iff_of_true (errorsIn_ok _) (fun exc hexc => by cases hexc)
      | invalid message => exact iff_of_true (own_http (by decide)) (fun exc hexc => by cases hexc)
      | raised exc => exact iff_of_false (not_own_raised _) (fun h => h exc rfl)

/-- `json.loads` raises nothing but `JSONDecodeError`. -/
def BodyAnswers (rt : Runtime) (endpoint : Endpoint) (body : Bytes) : Prop :=
  (∀ exc, rt.loads body ≠ .raised exc) ∧
    ∀ payload, rt.loads body = .value payload → SchemaAnswers rt payload endpoint.requestBodySchema

theorem own_parsePayload_iff {endpoint : Endpoint} {body : Bytes} :
    ErrorsIn Own (parsePayload rt endpoint body) ↔ BodyAnswers rt endpoint body := by
  unfold parsePayload BodyAnswers
  cases rt.loads body with
  | decodeError =>
      have hanswers : (∀ exc, LoadResult.decodeError ≠ .raised exc) ∧
          ∀ payload, LoadResult.decodeError = .value payload →
            SchemaAnswers rt payload endpoint.requestBodySchema := by
        constructor
        · intro exc hexc
          cases hexc
        · intro payload hpayload
          cases hpayload
      exact iff_of_true (own_http (by decide)) hanswers
  | raised exc => exact iff_of_false (not_own_raised _) (fun h => h.1 exc rfl)
  | value payload =>
      simp only [LoadResult.value.injEq, forall_eq', reduceCtorEq, ne_eq, not_false_eq_true,
        implies_true, true_and]
      rw [← own_checkSchema_iff]
      refine errorsIn_bind_iff.trans (and_iff_left ?_)
      exact fun _ _ => errorsIn_ok _

/-- Postgres takes the row: the endpoint is there, the key fits its column,
and the two documents are `jsonb`. -/
def Storable (ans : ServerAnswers) (endpoint : Endpoint) (payload : Json)
    (request : WebhookRequest) : Prop :=
  endpoint.id ∈ ans.endpointsAtCommit.map Endpoint.id ∧
    (∀ key, request.idempotencyKey = some key → key.length ≤ 255) ∧ ans.jsonb payload = true ∧
    ans.jsonb (.obj ((requestHeaders request.headers).map (fun h => (h.1, .str h.2)))) = true

theorem own_recordEvent_iff {endpoint : Endpoint} {payload : Json} :
    ErrorsIn Own (recordEvent ans endpoint payload request) ↔
      Storable ans endpoint payload request := by
  have hkey : request.idempotencyKey.all (Api.fitsVarchar 255) = true ↔
      ∀ key, request.idempotencyKey = some key → key.length ≤ 255 := by
    cases request.idempotencyKey with
    | none => simp
    | some key => simp [Api.fitsVarchar]
  have hcommit : commitRows ans (newEvent ans.eventId ans.now endpoint payload request) = .ok () ↔
      Storable ans endpoint payload request := by
    unfold commitRows Api.checkColumns Storable storedHeaders newEvent
    simp only [Option.getD_some, Bool.and_eq_true, hkey]
    split
    · rename_i hgone
      simp [hgone]
    · rename_i hthere
      split
      · rename_i hfits
        exact iff_of_true rfl ⟨not_not.mp hthere, hfits.1.1, hfits.1.2, hfits.2⟩
      · rename_i hfits
        apply iff_of_false (by simp)
        exact fun h => hfits ⟨⟨h.2.1, h.2.2.1⟩, h.2.2.2⟩
  rw [← hcommit]
  unfold recordEvent
  cases commitRows ans (newEvent ans.eventId ans.now endpoint payload request) with
  | ok _ => exact iff_of_true (errorsIn_ok _) rfl
  | error exc => exact iff_of_false (not_own_raised _) (by simp)

/-! ## The whole handler -/

/-- What a request has to be when it gets as far as each of the calls that may
raise: `compare_digest`, `json.loads`, `jsonschema.validate` and the commit. -/
def Answerable (rt : Runtime) (settings : Settings) (endpoints : List Endpoint)
    (ans : ServerAnswers) (request : WebhookRequest) : Prop :=
  ∀ body endpoint, locate rt settings endpoints request = .ok (body, endpoint) →
    checkRate endpoint ans.limiter = .ok () →
      (endpoint.hmacSecret ≠ "" → AsciiSignature request.xHubSignature256) ∧
        (checkSecret rt endpoint body request.xHubSignature256 = .ok () →
          BodyAnswers rt endpoint body ∧
            ∀ payload, parsePayload rt endpoint body = .ok (endpoint, payload) →
              reservation ans endpoint request = .ok true → Storable ans endpoint payload request)

theorem own_goOn_iff (hredis : ∀ key, ∃ set, ans.reserve key = .ok set) {endpoint : Endpoint}
    {payload : Json} :
    ErrorsIn Own (reservation ans endpoint request >>= fun set =>
        if set then recordEvent ans endpoint payload request else return .duplicate) ↔
      (reservation ans endpoint request = .ok true → Storable ans endpoint payload request) := by
  have hset : ∃ set, reservation ans endpoint request = .ok set := by
    unfold reservation
    split
    · exact ⟨true, rfl⟩
    · rename_i key _
      obtain ⟨set, hset⟩ := hredis (dedupKey endpoint.id key)
      exact ⟨set, by rw [hset]⟩
  obtain ⟨set, hset⟩ := hset
  rw [hset, errorsIn_bind_iff, and_iff_right (errorsIn_ok set)]
  simp only [Except.ok.injEq, forall_eq']
  cases set with
  | true => simpa using own_recordEvent_iff
  | false => exact iff_of_true (errorsIn_ok Reply.duplicate) (fun hfalse => by cases hfalse)

theorem check_of_located {body : Bytes} {endpoint : Endpoint}
    (hlocate : locate rt settings endpoints request = .ok (body, endpoint))
    {limiter : Except Exc Bool} (hrate : checkRate endpoint limiter = .ok ()) :
    check rt settings endpoints limiter request =
      checkSecret rt endpoint body request.xHubSignature256 >>= fun _ =>
        parsePayload rt endpoint body := by
  rw [check_eq, hlocate]
  show (checkRate endpoint limiter >>= fun _ => _) = _
  rw [hrate]
  rfl

/-- With Redis up, the handler ends with an answer or an `HTTPException` of
its own exactly on the requests that are answerable. -/
theorem receiveWebhook_answered_iff {allowed : Bool} (hlimiter : ans.limiter = .ok allowed)
    (hredis : ∀ key, ∃ set, ans.reserve key = .ok set) :
    Answered (receiveWebhook rt settings endpoints ans request) ↔
      Answerable rt settings endpoints ans request := by
  unfold Answered receiveWebhook
  constructor
  · intro h body endpoint hlocate hrate
    rw [check_of_located hlocate hrate, errorsIn_bind_iff, errorsIn_bind_iff] at h
    obtain ⟨⟨hsecret, hparse⟩, hgoOn⟩ := h
    refine ⟨own_checkSecret_iff.mp hsecret, ?_⟩
    intro hsigned
    refine ⟨own_parsePayload_iff.mp (hparse () hsigned), ?_⟩
    intro payload hpayload
    refine (own_goOn_iff hredis).mp (hgoOn (endpoint, payload) ?_)
    rw [hsigned]
    exact hpayload
  · intro h
    cases hlocate : locate rt settings endpoints request with
    | error rejection =>
        rw [check_eq, hlocate]
        exact errorsIn_error_iff.mpr (own_locate rejection hlocate)
    | ok found =>
        obtain ⟨body, endpoint⟩ := found
        cases hrate : checkRate endpoint ans.limiter with
        | error rejection =>
            have hown : ErrorsIn Own (checkRate endpoint ans.limiter) := hlimiter ▸ own_checkRate
            rw [check_eq, hlocate]
            show ErrorsIn Own ((checkRate endpoint ans.limiter >>= fun _ => _) >>= _)
            rw [hrate]
            exact errorsIn_error_iff.mpr (hown rejection hrate)
        | ok _ =>
            obtain ⟨hascii, hsigned⟩ := h body endpoint hlocate hrate
            rw [check_of_located hlocate hrate, errorsIn_bind_iff, errorsIn_bind_iff]
            refine ⟨⟨own_checkSecret_iff.mpr hascii, ?_⟩, ?_⟩
            · intro _ hok
              exact own_parsePayload_iff.mpr (hsigned hok).1
            · rintro ⟨endpoint', payload⟩ hfound
              obtain ⟨_, hok, hpayload⟩ := exists_of_bind_eq_ok hfound
              obtain rfl := parsePayload_eq_ok hpayload
              exact (own_goOn_iff hredis).mpr ((hsigned hok).2 payload hpayload)

/-! ## A header that is not ASCII -/

/-- The rows that three handlers of the API write, from none. -/
inductive Produced : Endpoint → Prop
  | created (env : Api.Env) (db : Database) (ws : UUID) (body : Option Api.EndpointCreate)
      {outcome : Api.Outcome}
      {ep : Endpoint} (h : Api.createEndpoint env db ws body = .ok outcome)
      (hwrite : outcome.write = some (.insertEndpoint ep)) : Produced ep
  | updated (env : Api.Env) (db : Database) (ws : UUID) (id : String)
      (body : Option Api.EndpointUpdate)
      {outcome : Api.Outcome} {ep : Endpoint} (hdb : ∀ old ∈ db.endpoints, Produced old)
      (h : Api.updateEndpoint env db ws id body = .ok outcome)
      (hwrite : outcome.write = some (.updateEndpoint ep)) : Produced ep
  | rotated (env : Api.Env) (db : Database) (ws : UUID) (id : String) {outcome : Api.Outcome}
      {ep : Endpoint}
      (hdb : ∀ old ∈ db.endpoints, Produced old) (h : Api.rotateSecret env db ws id = .ok outcome)
      (hwrite : outcome.write = some (.updateEndpoint ep)) : Produced ep

def ordersCreationEnv : Api.Env where
  url := { urlparse := fun _ => .error ⟨"ValueError", ""⟩, ipAddress := fun _ => none }
  compiles := fun _ => false
  newId := sampleEndpoint.id
  secret := "generated"
  now := 0

theorem produced_sampleEndpoint : Produced sampleEndpoint :=
  .created ordersCreationEnv {} 9 (some { name := "orders", hmacSecret := some "whsec" }) rfl rfl

def upAnswers : ServerAnswers where
  now := 1
  eventId := 10
  endpointsAtCommit := [sampleEndpoint]

theorem asciiSignature_sampleRequest (key : String) :
    AsciiSignature (sampleRequest key).xHubSignature256 := by
  intro provided hheader c hc
  have hall : ("sha256=ae6341ea7f40a435db57d903d02cba19085efb8a913f8cfbd8cff3d7df0c7a2d".toList.all
      (fun c => c.toNat < 128)) = true := by
    decide +kernel
  rw [Option.some.inj hheader, String.toList_append] at hall
  exact of_decide_eq_true (List.all_eq_true.mp hall c (List.mem_append_right _ hc))

theorem answered_of_signedRequest :
    Answered
      (receiveWebhook sampleRuntime {} [sampleEndpoint] upAnswers (sampleRequest "order-7")) := by
  have hlimiter : upAnswers.limiter = .ok true := rfl
  refine (receiveWebhook_answered_iff hlimiter (fun key => ⟨true, rfl⟩)).mpr ?_
  intro body endpoint hlocated _
  have hlocate := locate_sampleRequest "order-7" (sampleRequest "order-7").xHubSignature256 []
  obtain ⟨rfl, rfl⟩ := Prod.mk.inj (Except.ok.inj (hlocate.symm.trans hlocated))
  refine ⟨fun _ => asciiSignature_sampleRequest "order-7", fun _ => ⟨⟨?_, ?_⟩, ?_⟩⟩
  · intro exc hexc
    cases hexc
  · intro payload _ schema hschema
    cases hschema
  · intro payload _ _
    refine ⟨List.mem_cons_self, ?_, rfl, rfl⟩
    intro key hkey
    obtain rfl := Option.some.inj hkey
    decide

def latinRequest : WebhookRequest :=
  { sampleRequest "" with xHubSignature256 := some (signaturePrefix ++ "é") }

/-- `compare_digest` raises a `TypeError`, which nothing catches. -/
theorem latin_signature_escapes :
    ¬ ∀ (rt : Runtime) (settings : Settings) (endpoints : List Endpoint) (ans : ServerAnswers)
      (request : WebhookRequest), (∀ ep ∈ endpoints, Produced ep) →
        ans.endpointsAtCommit = endpoints →
        (∃ allowed, ans.limiter = .ok allowed) → (∀ key, ∃ set, ans.reserve key = .ok set) →
          Answered (receiveWebhook rt settings endpoints ans request) := by
  intro h
  have hproduced : ∀ ep ∈ [sampleEndpoint], Produced ep := by
    intro ep hep
    obtain rfl := List.mem_singleton.mp hep
    exact produced_sampleEndpoint
  have hanswered := h sampleRuntime {} [sampleEndpoint] upAnswers latinRequest hproduced rfl
    ⟨true, rfl⟩ (fun key => ⟨true, rfl⟩)
  have hlocate : locate sampleRuntime {} [sampleEndpoint] latinRequest =
      .ok ([123, 125], sampleEndpoint) :=
    locate_sampleRequest "" latinRequest.xHubSignature256 []
  have hrate : checkRate sampleEndpoint upAnswers.limiter = .ok () := rfl
  unfold Answered receiveWebhook at hanswered
  rw [check_of_located hlocate hrate, errorsIn_bind_iff, errorsIn_bind_iff] at hanswered
  have hascii := own_checkSecret_iff.mp hanswered.1.1 (by decide)
  exact absurd (hascii "é" rfl 'é' (by decide)) (by decide)

end WebhookRelay.Gateway
