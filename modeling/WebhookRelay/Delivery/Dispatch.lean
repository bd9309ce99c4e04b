import WebhookRelay.Delivery.Consumer
import WebhookRelay.Delivery.Worker
import WebhookRelay.Transform.Worker

/-!
# What the delivery worker reads

`_dispatch` of `workers/delivery_worker.py`: the arguments a message of
transformed-events gives to `_deliver_with_retry`. `dispatchArgs` undoes
`transformedMessage`, for every route and every body.
-/

namespace WebhookRelay.Delivery

open Transform

section

variable (data : Message)

/-- `data["url"]`. -/
def urlField : Except Exc String :=
  match Json.get? data "url" with
  | none => .error ⟨"KeyError", "url"⟩
  | some (.str text) => .ok text
  | some _ => .error ⟨"TypeError", "not a text"⟩

def textField (key default : String) : Except Exc String :=
  match Json.get? data key with
  | none => .ok default
  | some (.str text) => .ok text
  | some _ => .error ⟨"TypeError", "not a text"⟩

def integerField (key : String) (default : ℤ) : Except Exc ℤ :=
  match Json.get? data key with
  | none => .ok default
  | some (.int n) => .ok n
  | some _ => .error ⟨"TypeError", "not an integer"⟩

def readHeader : String × Json → Except Exc (String × String)
  | (name, .str value) => .ok (name, value)
  | _ => .error ⟨"TypeError", "header value must be str or bytes"⟩

/-- `data.get("headers") or {}`. -/
def readHeaders : Except Exc Headers :=
  match Json.get? data "headers" with
  | none => .ok []
  | some value =>
      if value.truthy then
        match value with
        | .obj fields => fields.mapM readHeader
        | _ => .error ⟨"TypeError", "headers must be a mapping"⟩
      else .ok []

/-- The event, the route and the body of the call. A field of a type that the
transform worker does not write is an error already here. -/
def dispatchArgs (settings : Settings) : Except Exc (UUID × RouteDict × Json) := do
  let routeId ← uuidArg (Json.get? data "route_id")
  let url ← urlField data
  let method ← textField data "method" "POST"
  let headers ← readHeaders data
  let timeoutMs ← integerField data "timeout_ms" settings.deliveryTimeoutMs
  let maxRetries ← integerField data "max_retries" settings.maxDeliveryAttempts
  let retryBackoffMs ← integerField data "retry_backoff_ms" settings.retryBackoffMs
  let eventId ← uuidArg (Json.get? data "event_id")
  let route : RouteDict := {
    id := routeId
    url := url
    method := some method
    headers := some headers
    timeoutMs := some timeoutMs
    maxRetries := some maxRetries
    retryBackoffMs := some retryBackoffMs }
  return (eventId, route, (Json.get? data "body").getD (.obj []))

end

/-- A route as it comes out of its message: without its rate limit. -/
def routeDict (route : Route) : RouteDict where
  id := route.id
  url := route.url
  method := some route.method
  headers := some (route.headers.getD [])
  timeoutMs := some route.timeoutMs
  maxRetries := some route.maxRetries
  retryBackoffMs := some route.retryBackoffMs

theorem mapM_readHeader (headers : Headers) :
    (headers.map (fun h => (h.1, Json.str h.2))).mapM readHeader = .ok headers := by
  induction headers with
  | nil => rfl
  | cons h rest ih =>
      rw [List.map_cons, List.mapM_cons, ih]
      rfl

theorem readHeaders_eq {data : Message} {headers : Option Headers}
    (h : Json.get? data "headers" = some (headersJson headers)) :
    readHeaders data = .ok (headers.getD []) := by
  unfold readHeaders
  rw [h]
  unfold headersJson
  dsimp only
  cases headers.getD [] with
  | nil => rfl
  | cons first rest =>
      show (if true = true then _ else _) = _
      rw [if_pos rfl]
      exact mapM_readHeader (first :: rest)

theorem uuidArg_str (id : UUID) : uuidArg (some (.str id.str)) = .ok id := by
  simp [uuidArg]

/-- The delivery worker reads back what the transform worker wrote. -/
theorem dispatchArgs_transformedMessage (settings : Settings) (event : Event) (route : Route)
    (body : Json) :
    dispatchArgs (transformedMessage settings event route body).value settings =
      .ok (event.id, routeDict route, body) := by
  have hroute : Json.get? (transformedMessage settings event route body).value "route_id" =
      some (.str route.id.str) := rfl
  have hevent : Json.get? (transformedMessage settings event route body).value "event_id" =
      some (.str event.id.str) := rfl
  have hheaders : Json.get? (transformedMessage settings event route body).value "headers" =
      some (headersJson route.headers) := rfl
  unfold dispatchArgs
  rw [hroute, hevent, uuidArg_str, uuidArg_str, readHeaders_eq hheaders]
  rfl

end WebhookRelay.Delivery
