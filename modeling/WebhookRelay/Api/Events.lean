import WebhookRelay.Api.Endpoints

/-!
# Events and dead letters

The handlers of `app/api/events.py`, and `handle`, which is any request to one
of the routers of `app/api`: first the caller's role in the workspace of the
path, then the handler.
-/

namespace WebhookRelay.Api

open Foundation

section Handlers

variable (env : Env) (settings : Settings) (db : Database) (ws : UUID)

/-- `_get_event_or_404`. -/
def eventOr404 (id : UUID) : Except Failure Event :=
  match eventById db id with
  | none => .error (.http 404 "event not found")
  | some event =>
      match endpointById db event.endpointId with
      | some ep => if ep.workspaceId = ws then .ok event else .error (.http 404 "event not found")
      | none => .error (.http 404 "event not found")

/-- `_list_workspace_endpoint_ids`. -/
def workspaceEndpointIds : List UUID :=
  (db.endpoints.filter (fun ep => ep.workspaceId = ws)).map Endpoint.id

/-- `Query(le=200)` and `Query(ge=0)`. -/
def validQuery (limit offset : ℤ) : Except Failure Unit :=
  if 200 < limit ∨ offset < 0 then .error .unprocessable else .ok ()

/-- Running a query with a limit: Postgres takes no negative one, and both
numbers as 64-bit integers. -/
def runPage {α : Type} (limit offset : ℤ) (rows : List α) : Except Failure (List α) :=
  if limit < 0 ∨ 2 ^ 63 ≤ offset then
    .error (.raised ⟨"DBAPIError", "LIMIT or OFFSET out of range"⟩)
  else .ok (page limit.toNat offset.toNat rows)

/-- The `endpoint_id` of the query, if it is sent and not empty. -/
def endpointFilter (ids : List UUID) (endpointId : Option String) : Except Failure (Option UUID) :=
  if endpointId.getD "" = "" then .ok none
  else do
    let id ← parseUuid (endpointId.getD "") "endpoint_id"
    if id ∉ ids then .error (.http 404 "endpoint not found in this workspace")
    return some id

def listEvents (endpointId : Option String) (limit offset : ℤ) : Except Failure Outcome := do
  validQuery limit offset
  let ids := workspaceEndpointIds db ws
  if ids = [] then return .answer 200 (.events [])
  let only ← endpointFilter ids endpointId
  let rows := orderBy (rankBy (fun e : Event => -e.receivedAt) env.tie Event.id)
    (db.events.filter (fun e => e.endpointId ∈ ids ∧ (only = none ∨ only = some e.endpointId)))
  let rows ← runPage limit offset rows
  return .answer 200 (.events (rows.map eventOut))

def getEvent (eventId : String) : Except Failure Outcome := do
  let id ← parseUuid eventId "event_id"
  let event ← eventOr404 db ws id
  return .answer 200 (.event (eventOut event))

def getEventAttempts (eventId : String) : Except Failure Outcome := do
  let id ← parseUuid eventId "event_id"
  let _ ← eventOr404 db ws id
  let rows := orderBy (rankBy DeliveryAttempt.attemptNumber env.tie DeliveryAttempt.id)
    (db.attempts.filter (fun a => a.eventId = id))
  return .answer 200 (.attempts (rows.map deliveryAttemptOut))

def replayMessage (event : Event) : KafkaMessage where
  topic := settings.kafkaTopicRawEvents
  key := event.endpointId.str
  value := [
    ("event_id", .str event.id.str),
    ("endpoint_id", .str event.endpointId.str),
    ("is_replay", .bool true)]

/-- The message is handed to Kafka also when `send_and_wait` then raises. -/
def replayEvent (eventId : String) : Except Failure Outcome := do
  let id ← parseUuid eventId "event_id"
  let event ← eventOr404 db ws id
  match env.kafka with
  | .noProducer => .error (.http 503 "Kafka is unavailable — cannot replay event")
  | .acked =>
      return { response := .ok (202, .status "replaying" event.id.str)
               published := [replayMessage settings event] }
  | .raised _ =>
      return { response := .error (.http 503 "Failed to publish replay message to Kafka")
               published := [replayMessage settings event] }

/-! ### The dead-letter list -/

/-- `(error IS NOT NULL) OR (response_status >= 500)`. -/
def failedAttempt (a : DeliveryAttempt) : Bool :=
  a.error.isSome || (match a.responseStatus with
    | some status => 500 ≤ status
    | none => false)

/-- `last_attempt_subq`: the greatest number of a failed attempt of the event. -/
def maxAttempt (attempts : List DeliveryAttempt) (eventId : UUID) : Option ℤ :=
  ((attempts.filter (fun a => a.eventId = eventId ∧ failedAttempt a = true)).map
    DeliveryAttempt.attemptNumber).max?

/-- `last_attempt`, the attempts of one event. -/
def lastAttempts (attempts : List DeliveryAttempt) (eventId : UUID) : List DeliveryAttempt :=
  attempts.filter (fun a =>
    a.eventId = eventId ∧ maxAttempt attempts eventId = some a.attemptNumber)

/-- `attempt_counts`. -/
def attemptCount (attempts : List DeliveryAttempt) (eventId : UUID) : ℕ :=
  attempts.countP (fun a => a.eventId = eventId)

def dlqEventOut (attempts : List DeliveryAttempt) (row : Event × DeliveryAttempt) :
    DlqEventOut where
  eventId := row.1.id
  endpointId := row.1.endpointId
  receivedAt := row.1.receivedAt
  requestBody := row.1.requestBody
  isDiscarded := row.1.isDiscarded
  discardedAt := row.1.discardedAt
  lastError := row.2.error
  lastStatus := row.2.responseStatus
  lastUrl := row.2.requestUrl
  totalAttempts := attemptCount attempts row.1.id

/-- The joined rows: each event with each of its last attempts. -/
def dlqRows (ids : List UUID) (includeDiscarded : Bool) : List (Event × DeliveryAttempt) :=
  (db.events.filter (fun e =>
    e.endpointId ∈ ids ∧ (includeDiscarded = true ∨ e.isDiscarded = false))).flatMap
      (fun e => (lastAttempts db.attempts e.id).map (fun a => (e, a)))

def listDlq (includeDiscarded : Bool) (limit offset : ℤ) : Except Failure Outcome := do
  validQuery limit offset
  let ids := workspaceEndpointIds db ws
  if ids = [] then return .answer 200 (.dlq [])
  let rows := orderBy (rankBy (fun row : Event × DeliveryAttempt => -row.1.receivedAt) env.tie
    (fun row => row.2.id)) (dlqRows db ids includeDiscarded)
  let rows ← runPage limit offset rows
  return .answer 200 (.dlq (rows.map (dlqEventOut db.attempts)))

def discardDlqEvent (eventId : String) : Except Failure Outcome := do
  let id ← parseUuid eventId "event_id"
  let event ← eventOr404 db ws id
  if event.isDiscarded then return .answer 200 (.status "already_discarded" id.str)
  let discarded := { event with isDiscarded := true, discardedAt := some env.now }
  commit env db (.updateEvent discarded)
  return respond 200 (.updateEvent discarded) (.ok (.status "discarded" id.str))

def restoreDlqEvent (eventId : String) : Except Failure Outcome := do
  let id ← parseUuid eventId "event_id"
  let event ← eventOr404 db ws id
  let restored := { event with isDiscarded := false, discardedAt := none }
  commit env db (.updateEvent restored)
  return respond 200 (.updateEvent restored) (.ok (.status "restored" id.str))

end Handlers

/-! ## Requests -/

inductive Operation where
  | listEndpoints
  | createEndpoint (body : Option EndpointCreate)
  | getEndpoint (endpointId : String)
  | updateEndpoint (endpointId : String) (body : Option EndpointUpdate)
  | deleteEndpoint (endpointId : String)
  | rotateSecret (endpointId : String)
  | listRoutes (endpointId : String)
  | addRoute (endpointId : String) (body : Option RouteCreate)
  | updateRoute (routeId : String) (body : Option RouteUpdate)
  | deleteRoute (routeId : String)
  | listEvents (endpointId : Option String) (limit offset : ℤ)
  | getEvent (eventId : String)
  | getEventAttempts (eventId : String)
  | replayEvent (eventId : String)
  | listDlq (includeDiscarded : Bool) (limit offset : ℤ)
  | discardDlqEvent (eventId : String)
  | restoreDlqEvent (eventId : String)

namespace Operation

/-- The role the handler depends on. -/
def minimumRole : Operation → Role
  | listEndpoints | getEndpoint _ | listRoutes _ | listEvents _ _ _ | getEvent _
  | getEventAttempts _ | listDlq _ _ _ => .viewer
  | createEndpoint _ | addRoute _ _ => .member
  | updateEndpoint _ _ | deleteEndpoint _ | rotateSecret _ | updateRoute _ _ | deleteRoute _
  | replayEvent _ | discardDlqEvent _ | restoreDlqEvent _ => .admin

def run (env : Env) (settings : Settings) (db : Database) (ws : UUID) :
    Operation → Except Failure Outcome
  | listEndpoints => Api.listEndpoints env db ws
  | createEndpoint body => Api.createEndpoint env db ws body
  | getEndpoint endpointId => Api.getEndpoint db ws endpointId
  | updateEndpoint endpointId body => Api.updateEndpoint env db ws endpointId body
  | deleteEndpoint endpointId => Api.deleteEndpoint env db ws endpointId
  | rotateSecret endpointId => Api.rotateSecret env db ws endpointId
  | listRoutes endpointId => Api.listRoutes env db ws endpointId
  | addRoute endpointId body => Api.addRoute env settings db ws endpointId body
  | updateRoute routeId body => Api.updateRoute env settings db ws routeId body
  | deleteRoute routeId => Api.deleteRoute env db ws routeId
  | listEvents endpointId limit offset => Api.listEvents env db ws endpointId limit offset
  | getEvent eventId => Api.getEvent db ws eventId
  | getEventAttempts eventId => Api.getEventAttempts env db ws eventId
  | replayEvent eventId => Api.replayEvent env settings db ws eventId
  | listDlq includeDiscarded limit offset => Api.listDlq env db ws includeDiscarded limit offset
  | discardDlqEvent eventId => Api.discardDlqEvent env db ws eventId
  | restoreDlqEvent eventId => Api.restoreDlqEvent env db ws eventId

end Operation

/-- A request; `caller` is what `get_current_user` comes to. -/
structure Request where
  caller : Except Failure UUID
  workspaceId : String
  operation : Operation

def handle (env : Env) (settings : Settings) (request : Request) (db : Database) : Outcome :=
  .ofHandler do
    let membership ← getWorkspaceMembership db request.caller request.workspaceId
    let membership ← requireWorkspaceRole request.operation.minimumRole membership
    request.operation.run env settings db membership.workspaceId

end WebhookRelay.Api
