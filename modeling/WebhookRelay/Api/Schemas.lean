import WebhookRelay.Core.UrlSecurity

/-!
# Bodies and answers of the REST API

`app/schemas/api.py`: what a validated body carries, and what a row shows of
itself in an answer.
-/

namespace WebhookRelay.Api

abbrev Dict := List (String × Json)

structure EndpointCreate where
  name : String
  hmacSecret : Option String := none
  rateLimitRps : Option ℤ := none
  requestBodySchema : Option Dict := none

structure EndpointUpdate where
  name : Option String := none
  isActive : Option Bool := none
  rateLimitRps : Option ℤ := none
  requestBodySchema : Option Dict := none

structure RouteCreate where
  name : String
  url : String
  method : String := "POST"
  headers : Option Headers := none
  transformPipeline : Option (List Json) := none
  timeoutMs : ℤ := 10000
  maxRetries : ℤ := 5
  retryBackoffMs : ℤ := 1000
  rateLimitRpm : Option ℤ := none
  filterExpression : Option String := none

/-- A field of an update with `exclude_unset`: `none` was not sent, and
`some none` was sent as `null`. -/
abbrev Field (α : Type) := Option (Option α)

structure RouteUpdate where
  name : Field String := none
  url : Field String := none
  method : Field String := none
  headers : Field Headers := none
  transformPipeline : Field (List Json) := none
  timeoutMs : Field ℤ := none
  maxRetries : Field ℤ := none
  retryBackoffMs : Field ℤ := none
  isActive : Field Bool := none
  rateLimitRpm : Field ℤ := none
  filterExpression : Field String := none

structure EndpointOut where
  id : UUID
  workspaceId : UUID
  name : String
  isActive : Bool
  rateLimitRps : Option ℤ
  requestBodySchema : Option Dict
  createdAt : Time

structure RouteOut where
  id : UUID
  name : String
  url : String
  method : String
  isActive : Bool
  timeoutMs : ℤ
  maxRetries : ℤ
  createdAt : Time
  rateLimitRpm : Option ℤ
  filterExpression : Option String
  transformPipeline : Option (List Json)
  headers : Option Headers
  retryBackoffMs : ℤ

structure EventOut where
  id : UUID
  endpointId : UUID
  idempotencyKey : Option String
  requestBody : Json
  requestHeaders : Option Headers
  status : EventStatus
  retryAt : Option Time
  receivedAt : Time
  isDiscarded : Bool
  discardedAt : Option Time

structure DeliveryAttemptOut where
  id : UUID
  eventId : UUID
  routeId : UUID
  attemptNumber : ℤ
  requestUrl : String
  responseStatus : Option ℕ
  error : Option String
  durationMs : ℤ
  attemptedAt : Time

structure DlqEventOut where
  eventId : UUID
  endpointId : UUID
  receivedAt : Time
  requestBody : Json
  isDiscarded : Bool
  discardedAt : Option Time
  lastError : Option String
  lastStatus : Option ℕ
  lastUrl : String
  totalAttempts : ℕ
  status : EventStatus := .pending
  retryAt : Option Time := none

/-! ## Pipeline steps -/

def maxExpressionLen : ℕ := 2048

def maxTemplateKeys : ℕ := 64

/-- `PipelineStep` on one stored step: its dump, if it validates. `compiles`
says whether `jmespath.compile` accepts an expression. -/
def pipelineStep (compiles : String → Bool) : Json → Option Json
  | .obj fields =>
      match Json.get? fields "type" with
      | some (.str "passthrough") => some (.obj [("type", .str "passthrough")])
      | some (.str "template") =>
          match Json.get? fields "body" with
          | some (.obj body) =>
              if body.length ≤ maxTemplateKeys then
                some (.obj [("type", .str "template"), ("body", .obj body)])
              else none
          | _ => none
      | some (.str "jmespath") =>
          match Json.get? fields "expression" with
          | some (.str expression) =>
              if expression.length ≤ maxExpressionLen ∧ compiles expression = true then
                some (.obj [("type", .str "jmespath"), ("expression", .str expression)])
              else none
          | _ => none
      | _ => none
  | _ => none

/-! ## From rows to answers -/

def validationError (model : String) : Failure := .raised ⟨"ValidationError", model⟩

/-- The stored schema is shown only if it is a `dict`. -/
def endpointOut (ep : Endpoint) : Except Failure EndpointOut :=
  let out := fun schema : Option Dict => ({
    id := ep.id
    workspaceId := ep.workspaceId
    name := ep.name
    isActive := ep.isActive
    rateLimitRps := ep.rateLimitRps
    requestBodySchema := schema
    createdAt := ep.createdAt } : EndpointOut)
  match ep.requestBodySchema with
  | none | some .null => .ok (out none)
  | some (.obj fields) => .ok (out (some fields))
  | some _ => .error (validationError "EndpointOut")

/-- `_route_out`. -/
def routeOut (compiles : String → Bool) (route : Route) : Except Failure RouteOut :=
  let out := fun pipeline : Option (List Json) => ({
    id := route.id
    name := route.name
    url := route.url
    method := route.method
    isActive := route.isActive
    timeoutMs := route.timeoutMs
    maxRetries := route.maxRetries
    createdAt := route.createdAt
    rateLimitRpm := route.rateLimitRpm
    filterExpression := route.filterExpression
    transformPipeline := pipeline
    headers := redactHeaders route.headers
    retryBackoffMs := route.retryBackoffMs } : RouteOut)
  match route.transformPipeline with
  | none => .ok (out none)
  | some steps =>
      match steps.mapM (pipelineStep compiles) with
      | some steps => .ok (out (some steps))
      | none => .error (validationError "RouteOut")

def eventOut (event : Event) : EventOut where
  id := event.id
  endpointId := event.endpointId
  idempotencyKey := event.idempotencyKey
  requestBody := event.requestBody
  requestHeaders := event.requestHeaders
  status := event.status
  retryAt := event.retryAt
  receivedAt := event.receivedAt
  isDiscarded := event.isDiscarded
  discardedAt := event.discardedAt

def deliveryAttemptOut (attempt : DeliveryAttempt) : DeliveryAttemptOut where
  id := attempt.id
  eventId := attempt.eventId
  routeId := attempt.routeId
  attemptNumber := attempt.attemptNumber
  requestUrl := attempt.requestUrl
  responseStatus := attempt.responseStatus
  error := attempt.error
  durationMs := attempt.durationMs
  attemptedAt := attempt.attemptedAt

/-- What a request is answered with. `status` stands for the small objects
`{"status": ..., "event_id": ...}`. -/
inductive Body where
  | endpoint (out : EndpointOut)
  | endpoints (outs : List EndpointOut)
  | secret (hmacSecret : String)
  | route (out : RouteOut)
  | routes (outs : List RouteOut)
  | event (out : EventOut)
  | events (outs : List EventOut)
  | attempts (outs : List DeliveryAttemptOut)
  | dlq (outs : List DlqEventOut)
  | status (status eventId : String)
  | empty

end WebhookRelay.Api
