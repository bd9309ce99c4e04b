import WebhookRelay.Delivery.Dispatch
import WebhookRelay.Transform.Consumer

/-!
# The settings of a route on their way to the delivery

A route's row is written into a message by `_dispatch_route` of the transform
worker, read back into a `dict` by `_dispatch` of the delivery worker, and
that is what `_deliver_with_retry` works from. `settings_delivered` says what
arrives: every setting but the route's own rate limit.
-/

namespace WebhookRelay.Delivery

open Transform

/-- What `_deliver_with_retry` takes from its route. -/
structure DeliverySettings where
  id : UUID
  url : String
  method : String
  headers : Headers
  timeoutMs : ℤ
  maxRetries : ℤ
  retryBackoffMs : ℤ
  rateLimitRpm : Option ℤ
  deriving DecidableEq

/-- As it reads them from its argument. -/
def settingsOfDict (settings : Settings) (route : RouteDict) : DeliverySettings where
  id := route.id
  url := route.url
  method := route.method.getD "POST"
  headers := route.headers.getD []
  timeoutMs := timeoutMs settings route
  maxRetries := maxRetries settings route
  retryBackoffMs := backoffMs settings route
  rateLimitRpm := route.rateLimitRpm

/-- As the row has them. -/
def settingsOfRow (route : Route) : DeliverySettings where
  id := route.id
  url := route.url
  method := route.method
  headers := route.headers.getD []
  timeoutMs := route.timeoutMs
  maxRetries := route.maxRetries
  retryBackoffMs := route.retryBackoffMs
  rateLimitRpm := route.rateLimitRpm

/-- No default takes the place of a setting of the row; the rate limit is not
sent along. -/
theorem settingsOfDict_routeDict (settings : Settings) (route : Route) :
    settingsOfDict settings (routeDict route) = { settingsOfRow route with rateLimitRpm := none } :=
  rfl

variable {rt : Runtime} {settings : Settings} {event : Event} {route : Route}
  {send : Except Exc Unit} {m : KafkaMessage}

/-- Whatever is published for a route is its own message. -/
theorem exists_body_of_mem_dispatchRoute
    (hm : m ∈ (dispatchRoute rt settings event route send).1) :
    ∃ body, routeBody rt route event.requestBody = .ok body ∧
      m = transformedMessage settings event route body := by
  rcases dispatchRoute_cases rt settings event route send with
    ⟨_, heq⟩ | ⟨_, body, hbody, ⟨_, heq⟩ | ⟨exc, _, heq⟩⟩
  · rw [heq] at hm
    cases hm
  · rw [heq, List.mem_singleton] at hm
    exact ⟨body, hbody, hm⟩
  · rw [heq] at hm
    cases hm

/-- The message a route was sent is delivered for its event, with the settings
of its row exactly if the row has no rate limit. -/
theorem settings_delivered (hm : m ∈ (dispatchRoute rt settings event route send).1) :
    ∃ dict body, dispatchArgs m.value settings = .ok (event.id, dict, body) ∧
      (settingsOfDict settings dict = settingsOfRow route ↔ route.rateLimitRpm = none) := by
  obtain ⟨body, _, rfl⟩ := exists_body_of_mem_dispatchRoute hm
  refine ⟨routeDict route, body, dispatchArgs_transformedMessage settings event route body, ?_⟩
  rw [settingsOfDict_routeDict]
  constructor
  · intro hsame
    exact (congrArg DeliverySettings.rateLimitRpm hsame).symm
  · intro hnone
    unfold settingsOfRow
    rw [hnone]

/-! ## A route with a rate limit -/

def pacedRoute : Route where
  id := 5
  endpointId := 3
  name := "paced"
  url := "https://example.com/hook"
  rateLimitRpm := some 30

def unpacedRoute : Route := { pacedRoute with rateLimitRpm := none }

def pacedEvent : Event where
  id := 11
  endpointId := 3
  requestBody := .obj []

theorem rate_limit_lost :
    ¬ ∀ rt settings event route send, ∀ m ∈ (dispatchRoute rt settings event route send).1,
      ∀ eventId dict body, dispatchArgs m.value settings = .ok (eventId, dict, body) →
        settingsOfDict settings dict = settingsOfRow route := by
  intro h
  have hargs := dispatchArgs_transformedMessage {} pacedEvent pacedRoute (.obj [])
  have hsame := h lengthRuntime {} pacedEvent pacedRoute (.ok ()) _ List.mem_cons_self _ _ _ hargs
  have hlimit : (none : Option ℤ) = some 30 := congrArg DeliverySettings.rateLimitRpm hsame
  cases hlimit

theorem settings_delivered_unpaced :
    ∃ dict body,
      dispatchArgs (transformedMessage {} pacedEvent unpacedRoute (.obj [])).value {} =
        .ok (pacedEvent.id, dict, body) ∧
      (settingsOfDict {} dict = settingsOfRow unpacedRoute ↔ unpacedRoute.rateLimitRpm = none) := by
  have hsent : transformedMessage {} pacedEvent unpacedRoute (.obj []) ∈
      (dispatchRoute lengthRuntime {} pacedEvent unpacedRoute (.ok ())).1 := List.mem_cons_self
  exact settings_delivered hsent

end WebhookRelay.Delivery
