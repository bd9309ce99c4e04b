import WebhookRelay.Core.Uuid
import WebhookRelay.Core.Json

/-!
# Rows, tables and settings

The SQLAlchemy models and `app/core/config.py`. A table is the list of its
committed rows. Columns nothing in the modelled code reads or writes
(`processed_at`, the timestamps of users and workspaces) are left out.
-/

namespace WebhookRelay

abbrev Headers := List (String × String)

structure Endpoint where
  id : UUID
  workspaceId : UUID
  name : String
  hmacSecret : String
  isActive : Bool := true
  rateLimitRps : Option ℤ := none
  ipAllowlist : Option (List String) := none
  /-- The document whose `json.dumps` text the column holds. -/
  requestBodySchema : Option Json := none
  createdAt : Time := 0
  updatedAt : Time := 0

structure Route where
  id : UUID
  endpointId : UUID
  name : String
  url : String
  method : String := "POST"
  headers : Option Headers := some []
  transformPipeline : Option (List Json) := none
  rateLimitRpm : Option ℤ := none
  timeoutMs : ℤ := 10000
  maxRetries : ℤ := 5
  retryBackoffMs : ℤ := 1000
  isActive : Bool := true
  filterExpression : Option String := none
  createdAt : Time := 0

inductive EventStatus where
  | pending
  | queued
  | completed
  | failed
  deriving DecidableEq

structure Event where
  id : UUID
  endpointId : UUID
  idempotencyKey : Option String := none
  requestBody : Json
  requestHeaders : Option Headers := none
  status : EventStatus := .pending
  retryAt : Option Time := none
  receivedAt : Time := 0
  isDiscarded : Bool := false
  discardedAt : Option Time := none

inductive OutboxStatus where
  | pending
  | completed
  | failed
  deriving DecidableEq

structure OutboxRecord where
  id : UUID
  eventId : UUID
  status : OutboxStatus := .pending
  publishKey : String
  publishTopic : String
  attempts : ℤ := 0
  lastError : Option String := none
  createdAt : Time := 0
  deriving DecidableEq

structure DeliveryAttempt where
  id : UUID
  eventId : UUID
  routeId : UUID
  attemptNumber : ℤ
  requestUrl : String
  requestBody : Json
  responseStatus : Option ℕ := none
  responseBody : Option String := none
  error : Option String := none
  durationMs : ℤ := 0
  attemptedAt : Time := 0

inductive Role where
  | viewer
  | member
  | admin
  | owner
  deriving DecidableEq

structure Workspace where
  id : UUID
  name : String
  slug : String
  deriving DecidableEq

structure WorkspaceMembership where
  userId : UUID
  workspaceId : UUID
  role : Role
  deriving DecidableEq

structure User where
  id : UUID
  email : String
  displayName : String
  passwordHash : String
  isActive : Bool := true
  deriving DecidableEq

/-- The committed tables. -/
structure Database where
  endpoints : List Endpoint := []
  routes : List Route := []
  events : List Event := []
  outbox : List OutboxRecord := []
  attempts : List DeliveryAttempt := []
  memberships : List WorkspaceMembership := []
  users : List User := []
  workspaces : List Workspace := []

structure Settings where
  maxDeliveryAttempts : ℤ := 5
  retryBackoffMs : ℤ := 1000
  deliveryTimeoutMs : ℤ := 10000
  circuitBreakerThreshold : ℕ := 10
  circuitBreakerCooldownS : Time := 30
  rateLimitRpm : ℤ := 60
  idempotencyTtlS : Time := 86400
  maxWebhookBodyBytes : ℕ := 1024 * 1024
  allowInsecureDeliveryUrls : Bool := false
  jwtExpireMinutes : ℤ := 1440
  kafkaTopicRawEvents : String := "raw-events"
  kafkaTopicTransformedEvents : String := "transformed-events"
  kafkaTopicDeadLetter : String := "dead-letter"

/-- A record handed to `producer.send_and_wait`, decoded. -/
structure KafkaMessage where
  topic : String
  key : String
  value : List (String × Json)

end WebhookRelay
