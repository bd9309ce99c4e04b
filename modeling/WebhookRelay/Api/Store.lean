import WebhookRelay.Api.Schemas
import WebhookRelay.Foundation.Query
import WebhookRelay.Foundation.Rows
import WebhookRelay.Outbox.Relay

/-!
# The store behind the REST API

What a handler asks of the database and what it writes. Every handler makes at
most one `Write`, in one transaction; `check` is what the constraints of the
tables say to it. Deleting an endpoint takes its routes along, by the cascade
of the `routes` relationship.
-/

namespace WebhookRelay.Api

open Foundation

/-- Everything else an operation depends on: new identifiers, secrets and
instants, the order the database gives to rows that sort alike, and what the
database and Kafka answer. -/
structure Env where
  url : UrlRuntime
  /-- Whether `jmespath.compile` accepts an expression. -/
  compiles : String → Bool
  newId : UUID
  /-- `secrets.token_hex(32)`. -/
  secret : String
  now : Time
  tie : UUID → ℕ := fun _ => 0
  /-- A commit that fails for no reason of the tables. -/
  commit : Except Exc Unit := .ok ()
  kafka : Outbox.SendAnswer := .acked

/-! ## Look-ups -/

def endpointById (db : Database) (id : UUID) : Option Endpoint :=
  Rows.get Endpoint.id db.endpoints id

def routeById (db : Database) (id : UUID) : Option Route := Rows.get Route.id db.routes id

def eventById (db : Database) (id : UUID) : Option Event := Rows.get Event.id db.events id

def membershipKey (m : WorkspaceMembership) : UUID × UUID := (m.userId, m.workspaceId)

def membershipById (db : Database) (user ws : UUID) : Option WorkspaceMembership :=
  Rows.get membershipKey db.memberships (user, ws)

/-! ## Writes -/

inductive Write where
  | insertEndpoint (ep : Endpoint)
  | updateEndpoint (ep : Endpoint)
  | deleteEndpoint (id : UUID)
  | insertRoute (route : Route)
  | updateRoute (route : Route)
  | deleteRoute (id : UUID)
  | updateEvent (event : Event)

def integrityError (constraint : String) : Exc := ⟨"IntegrityError", constraint⟩

def fitsVarchar (n : ℕ) (text : String) : Bool := text.length ≤ n

def fitsInteger (n : ℤ) : Bool := -2 ^ 31 ≤ n && n < 2 ^ 31

def checkColumns (fits : Bool) : Except Exc Unit :=
  if fits then .ok () else .error ⟨"DBAPIError", "value out of range"⟩

def endpointFits (ep : Endpoint) : Bool :=
  fitsVarchar 255 ep.name && fitsVarchar 255 ep.hmacSecret && ep.rateLimitRps.all fitsInteger

def routeFits (route : Route) : Bool :=
  fitsVarchar 255 route.name && fitsVarchar 10 route.method && route.rateLimitRpm.all fitsInteger &&
    fitsInteger route.timeoutMs && fitsInteger route.maxRetries && fitsInteger route.retryBackoffMs

namespace Write

def apply (db : Database) : Write → Database
  | insertEndpoint ep => { db with endpoints := db.endpoints ++ [ep] }
  | updateEndpoint ep => { db with endpoints := Rows.put Endpoint.id ep db.endpoints }
  | deleteEndpoint id =>
      { db with
        endpoints := Rows.remove Endpoint.id id db.endpoints
        routes := db.routes.filter (fun r => r.endpointId ≠ id) }
  | insertRoute route => { db with routes := db.routes ++ [route] }
  | updateRoute route => { db with routes := Rows.put Route.id route db.routes }
  | deleteRoute id => { db with routes := Rows.remove Route.id id db.routes }
  | updateEvent event => { db with events := Rows.put Event.id event db.events }

/-- The primary keys, the foreign keys and the column types. The workspace of
a new endpoint exists, since its caller is a member of it. -/
def check (db : Database) : Write → Except Exc Unit
  | insertEndpoint ep =>
      if ep.id ∈ db.endpoints.map Endpoint.id then .error (integrityError "endpoints_pkey")
      else checkColumns (endpointFits ep)
  | updateEndpoint ep => checkColumns (endpointFits ep)
  | deleteEndpoint id =>
      if ∃ r ∈ db.routes, r.endpointId = id ∧ r.id ∈ db.attempts.map DeliveryAttempt.routeId then
        .error (integrityError "delivery_attempts_route_id_fkey")
      else if id ∈ db.events.map Event.endpointId then
        .error (integrityError "events_endpoint_id_fkey")
      else .ok ()
  | insertRoute route =>
      if route.id ∈ db.routes.map Route.id then .error (integrityError "routes_pkey")
      else if route.endpointId ∉ db.endpoints.map Endpoint.id then
        .error (integrityError "routes_endpoint_id_fkey")
      else checkColumns (routeFits route)
  | updateRoute route => checkColumns (routeFits route)
  | deleteRoute id =>
      if id ∈ db.attempts.map DeliveryAttempt.routeId then
        .error (integrityError "delivery_attempts_route_id_fkey")
      else .ok ()
  | updateEvent _ => .ok ()

end Write

def commit (env : Env) (db : Database) (write : Write) : Except Failure Unit :=
  match write.check db with
  | .error exc => .error (.raised exc)
  | .ok _ =>
      match env.commit with
      | .error exc => .error (.raised exc)
      | .ok _ => .ok ()

/-! ## What an operation comes to -/

/-- The response, the write that was committed, and the messages handed to
Kafka. -/
structure Outcome where
  response : Except Failure (ℕ × Body)
  write : Option Write := none
  published : List KafkaMessage := []

namespace Outcome

/-- A handler that raised before it wrote or sent anything. -/
def failed (failure : Failure) : Outcome := { response := .error failure }

def ofHandler : Except Failure Outcome → Outcome
  | .ok outcome => outcome
  | .error failure => failed failure

/-- A handler that only reads. -/
def answer (status : ℕ) (body : Body) : Outcome := { response := .ok (status, body) }

/-- The store after the operation. -/
def store (outcome : Outcome) (db : Database) : Database :=
  match outcome.write with
  | some write => write.apply db
  | none => db

end Outcome

/-- `_parse_uuid`. -/
def parseUuid (value label : String) : Except Failure UUID :=
  match UUID.parse value with
  | some id => .ok id
  | none => .error (.http 400 s!"invalid {label} format")

/-- A body that FastAPI has validated; `none` is one it refuses. -/
def validBody {α : Type} : Option α → Except Failure α
  | some body => .ok body
  | none => .error .unprocessable

end WebhookRelay.Api
