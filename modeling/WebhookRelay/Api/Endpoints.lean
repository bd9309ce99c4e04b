import WebhookRelay.Api.Rbac

/-!
# Endpoints and routes

The handlers of `app/api/endpoints.py`, for a caller whose membership in the
workspace `ws` has the role the handler asks for.
-/

namespace WebhookRelay.Api

open Foundation

section Handlers

variable (env : Env) (settings : Settings) (db : Database) (ws : UUID)

/-- The look-up every handler on an endpoint starts with. -/
def endpointOr404 (id : UUID) : Except Failure Endpoint :=
  match endpointById db id with
  | some ep => if ep.workspaceId = ws then .ok ep else .error (.http 404 "endpoint not found")
  | none => .error (.http 404 "endpoint not found")

/-- The look-up of a route through its endpoint. -/
def routeOr404 (id : UUID) : Except Failure Route :=
  match routeById db id with
  | none => .error (.http 404 "route not found")
  | some route =>
      match endpointById db route.endpointId with
      | some ep => if ep.workspaceId = ws then .ok route else .error (.http 404 "route not found")
      | none => .error (.http 404 "route not found")

/-- The response after a commit: what fails here no longer undoes it. -/
def respond (status : ℕ) (write : Write) (body : Except Failure Body) : Outcome where
  response := body.map (fun b => (status, b))
  write := some write

def listEndpoints : Except Failure Outcome := do
  let rows := orderBy (rankBy (fun ep : Endpoint => -ep.createdAt) env.tie Endpoint.id)
    (db.endpoints.filter (fun ep => ep.workspaceId = ws))
  let outs ← rows.mapM endpointOut
  return .answer 200 (.endpoints outs)

def createEndpoint (body : Option EndpointCreate) : Except Failure Outcome := do
  let body ← validBody body
  let ep : Endpoint := {
    id := env.newId
    workspaceId := ws
    name := body.name
    hmacSecret := if body.hmacSecret.getD "" = "" then env.secret else body.hmacSecret.getD ""
    rateLimitRps := body.rateLimitRps
    requestBodySchema := match body.requestBodySchema.getD [] with
      | [] => none
      | schema => some (.obj schema)
    createdAt := env.now
    updatedAt := env.now }
  commit env db (.insertEndpoint ep)
  return respond 201 (.insertEndpoint ep) ((endpointOut ep).map .endpoint)

def getEndpoint (endpointId : String) : Except Failure Outcome := do
  let id ← parseUuid endpointId "endpoint_id"
  let ep ← endpointOr404 db ws id
  let out ← endpointOut ep
  return .answer 200 (.endpoint out)

/-- The attributes `update_endpoint` sets. -/
def patchEndpoint (body : EndpointUpdate) (ep : Endpoint) : Endpoint :=
  { ep with
    name := body.name.getD ep.name
    isActive := body.isActive.getD ep.isActive
    rateLimitRps := body.rateLimitRps <|> ep.rateLimitRps
    requestBodySchema := body.requestBodySchema.map .obj <|> ep.requestBodySchema }

/-- `onupdate`: an `UPDATE` is sent only if some attribute changed. -/
def touchEndpoint (now : Time) (old ep : Endpoint) : Endpoint :=
  if ep.name = old.name ∧ ep.isActive = old.isActive ∧ ep.hmacSecret = old.hmacSecret ∧
      ep.rateLimitRps = old.rateLimitRps ∧ ep.requestBodySchema == old.requestBodySchema then ep
  else { ep with updatedAt := now }

def updateEndpoint (endpointId : String) (body : Option EndpointUpdate) :
    Except Failure Outcome := do
  let body ← validBody body
  let id ← parseUuid endpointId "endpoint_id"
  let old ← endpointOr404 db ws id
  let ep := touchEndpoint env.now old (patchEndpoint body old)
  commit env db (.updateEndpoint ep)
  return respond 200 (.updateEndpoint ep) ((endpointOut ep).map .endpoint)

def deleteEndpoint (endpointId : String) : Except Failure Outcome := do
  let id ← parseUuid endpointId "endpoint_id"
  let ep ← endpointOr404 db ws id
  commit env db (.deleteEndpoint ep.id)
  return respond 204 (.deleteEndpoint ep.id) (.ok .empty)

def rotateSecret (endpointId : String) : Except Failure Outcome := do
  let id ← parseUuid endpointId "endpoint_id"
  let old ← endpointOr404 db ws id
  let ep := touchEndpoint env.now old { old with hmacSecret := env.secret }
  commit env db (.updateEndpoint ep)
  return respond 200 (.updateEndpoint ep) (.ok (.secret env.secret))

def listRoutes (endpointId : String) : Except Failure Outcome := do
  let id ← parseUuid endpointId "endpoint_id"
  let _ ← endpointOr404 db ws id
  let rows := orderBy (rankBy Route.createdAt env.tie Route.id)
    (db.routes.filter (fun r => r.endpointId = id))
  let outs ← rows.mapM (routeOut env.compiles)
  return .answer 200 (.routes outs)

def newRoute (endpointId : UUID) (body : RouteCreate) : Route where
  id := env.newId
  endpointId := endpointId
  name := body.name
  url := body.url
  method := body.method
  headers := body.headers
  transformPipeline := body.transformPipeline
  rateLimitRpm := body.rateLimitRpm
  timeoutMs := body.timeoutMs
  maxRetries := body.maxRetries
  retryBackoffMs := body.retryBackoffMs
  isActive := true
  filterExpression := body.filterExpression
  createdAt := env.now

def addRoute (endpointId : String) (body : Option RouteCreate) : Except Failure Outcome := do
  let body ← validBody body
  let id ← parseUuid endpointId "endpoint_id"
  validateDeliveryUrl env.url settings body.url
  let ep ← endpointOr404 db ws id
  let route := newRoute env ep.id body
  commit env db (.insertRoute route)
  return respond 201 (.insertRoute route) ((routeOut env.compiles route).map .route)

/-- `setattr` on a column that is `NOT NULL`: a `null` fails the commit. -/
def setColumn {α : Type} (old : α) : Field α → Except Failure α
  | none => .ok old
  | some (some value) => .ok value
  | some none => .error (.raised (integrityError "not-null constraint"))

/-- The loop of `setattr` in `update_route`. -/
def patchRoute (body : RouteUpdate) (route : Route) : Except Failure Route := do
  let name ← setColumn route.name body.name
  let url ← setColumn route.url body.url
  let method ← setColumn route.method body.method
  let timeoutMs ← setColumn route.timeoutMs body.timeoutMs
  let maxRetries ← setColumn route.maxRetries body.maxRetries
  let retryBackoffMs ← setColumn route.retryBackoffMs body.retryBackoffMs
  let isActive ← setColumn route.isActive body.isActive
  return { route with
    name := name
    url := url
    method := method
    headers := body.headers.getD route.headers
    transformPipeline := body.transformPipeline.getD route.transformPipeline
    timeoutMs := timeoutMs
    maxRetries := maxRetries
    retryBackoffMs := retryBackoffMs
    isActive := isActive
    rateLimitRpm := body.rateLimitRpm.getD route.rateLimitRpm
    filterExpression := body.filterExpression.getD route.filterExpression }

/-- The URL is validated if one is sent. -/
def validatePatchedUrl : Field String → Except Failure Unit
  | some (some url) => validateDeliveryUrl env.url settings url
  | _ => .ok ()

def updateRoute (routeId : String) (body : Option RouteUpdate) : Except Failure Outcome := do
  let body ← validBody body
  let id ← parseUuid routeId "route_id"
  let old ← routeOr404 db ws id
  validatePatchedUrl env settings body.url
  let route ← patchRoute body old
  commit env db (.updateRoute route)
  return respond 200 (.updateRoute route) ((routeOut env.compiles route).map .route)

def deleteRoute (routeId : String) : Except Failure Outcome := do
  let id ← parseUuid routeId "route_id"
  let route ← routeOr404 db ws id
  commit env db (.deleteRoute route.id)
  return respond 204 (.deleteRoute route.id) (.ok .empty)

end Handlers

end WebhookRelay.Api
