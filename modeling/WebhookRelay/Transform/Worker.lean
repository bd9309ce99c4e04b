import WebhookRelay.Transform.Filter

/-!
# Processing one event

`_handle_message`, `_process_event` and `_dispatch_route` of
`workers/transform_worker.py`, as functions of what the database and Kafka
answer. Each comes to the messages Kafka acknowledged and whether it raised.
-/

namespace WebhookRelay.Transform

/-- `msg.value` of a raw-events message. -/
abbrev RawMessage := List (String × Json)

section Route

variable (rt : Runtime) (settings : Settings)

/-- The body a route is sent: the payload if it has no pipeline. -/
def routeBody (route : Route) (payload : Json) : Except SearchError Json :=
  match route.transformPipeline.getD [] with
  | [] => .ok payload
  | pipeline => applyPipeline rt pipeline payload

def matchesEvent (route : Route) (event : Event) : Bool :=
  routeMatchesEvent rt route.filterExpression event.requestBody event.requestHeaders

def transformedMessage (event : Event) (route : Route) (body : Json) : KafkaMessage where
  topic := settings.kafkaTopicTransformedEvents
  key := route.id.str
  value := [
    ("event_id", .str event.id.str),
    ("route_id", .str route.id.str),
    ("url", .str route.url),
    ("method", .str route.method),
    ("headers", headersJson route.headers),
    ("body", body),
    ("timeout_ms", .int route.timeoutMs),
    ("max_retries", .int route.maxRetries),
    ("retry_backoff_ms", .int route.retryBackoffMs)]

/-- `_dispatch_route`; `send` is how its `send_and_wait` ends. A pipeline that
raises is logged and the route skipped. -/
def dispatchRoute (event : Event) (route : Route) (send : Except Exc Unit) :
    List KafkaMessage × Except Exc Unit :=
  if matchesEvent rt route event then
    match routeBody rt route event.requestBody with
    | .error _ => ([], .ok ())
    | .ok body =>
        match send with
        | .ok _ => ([transformedMessage settings event route body], .ok ())
        | .error exc => ([], .error exc)
  else ([], .ok ())

/-- The loop over the routes; a send that raises ends it. -/
def dispatchRoutes (event : Event) (send : UUID → Except Exc Unit) :
    List Route → List KafkaMessage × Except Exc Unit
  | [] => ([], .ok ())
  | route :: rest =>
      match dispatchRoute rt settings event route (send route.id) with
      | (acked, .error exc) => (acked, .error exc)
      | (acked, .ok _) =>
          let others := dispatchRoutes event send rest
          (acked ++ others.1, others.2)

end Route

/-- `uuid.UUID(value)` on a JSON value. -/
def uuidArg (value : Option Json) : Except Exc UUID :=
  match value with
  | some (.str text) =>
      match UUID.parse text with
      | some id => .ok id
      | none => .error ⟨"ValueError", "badly formed hexadecimal UUID string"⟩
  | _ => .error ⟨"AttributeError", "object has no attribute 'replace'"⟩

/-- What the database and Kafka answer while one message is processed. The
tables are as the two queries find them, `routes` in the order its rows come. -/
structure EventAnswers where
  events : List Event
  eventRead : Except Exc Unit := .ok ()
  routes : List Route
  routes_nodup : (routes.map Route.id).Nodup
  routesRead : Except Exc Unit := .ok ()
  send : UUID → Except Exc Unit := fun _ => .ok ()

def findEvent (id : UUID) (events : List Event) : Option Event :=
  events.find? (fun e => e.id = id)

/-- The `SELECT` on routes. -/
def activeRoutes (endpointId : UUID) (routes : List Route) : List Route :=
  routes.filter (fun r => r.endpointId = endpointId ∧ r.isActive = true)

section Event

variable (rt : Runtime) (settings : Settings) (data : RawMessage) (ans : EventAnswers)

/-- `_process_event`. -/
def processEvent : List KafkaMessage × Except Exc Unit :=
  match uuidArg (Json.get? data "event_id") with
  | .error exc => ([], .error exc)
  | .ok id =>
      match ans.eventRead with
      | .error exc => ([], .error exc)
      | .ok _ =>
          match findEvent id ans.events with
          | none => ([], .ok ())
          | some event =>
              match uuidArg (Json.get? data "endpoint_id") with
              | .error exc => ([], .error exc)
              | .ok endpointId =>
                  match ans.routesRead with
                  | .error exc => ([], .error exc)
                  | .ok _ =>
                      dispatchRoutes rt settings event ans.send (activeRoutes endpointId ans.routes)

/-- The test of `_handle_message`. -/
def wellFormed (data : RawMessage) : Bool :=
  !(Json.missing data "event_id" || Json.missing data "endpoint_id")

/-- `_handle_message`: whatever `_process_event` raises is logged only. -/
def handleMessage : List KafkaMessage :=
  if wellFormed data then (processEvent rt settings data ans).1 else []

end Event

/-! ## Which routes get their message -/

variable {rt : Runtime} {settings : Settings}

/-- The message names this event and this route, on the topic of deliveries or
on the topic of dead letters. -/
def IsFor (settings : Settings) (event : Event) (route : Route) (m : KafkaMessage) : Prop :=
  (m.topic = settings.kafkaTopicTransformedEvents ∨ m.topic = settings.kafkaTopicDeadLetter) ∧
    m.value.lookup "event_id" = some (.str event.id.str) ∧
    m.value.lookup "route_id" = some (.str route.id.str)

/-- The route has something to send for the event. -/
def Delivers (rt : Runtime) (event : Event) (route : Route) : Prop :=
  matchesEvent rt route event = true ∧ ∃ body, routeBody rt route event.requestBody = .ok body

theorem isFor_transformedMessage (event : Event) (route : Route) (body : Json) :
    IsFor settings event route (transformedMessage settings event route body) :=
  ⟨Or.inl rfl, rfl, rfl⟩

theorem id_eq_of_isFor {event : Event} {route route' : Route} {body : Json}
    (h : IsFor settings event route (transformedMessage settings event route' body)) :
    route'.id = route.id := by
  have hid : some (Json.str route'.id.str) = some (Json.str route.id.str) := h.2.2
  simp only [Option.some.injEq, Json.str.injEq] at hid
  exact UUID.str_injective hid

/-- A route's own dispatch. -/
theorem dispatchRoute_cases (rt : Runtime) (settings : Settings) (event : Event) (route : Route)
    (send : Except Exc Unit) :
    (¬ Delivers rt event route ∧ dispatchRoute rt settings event route send = ([], .ok ())) ∨
      (Delivers rt event route ∧ ∃ body, routeBody rt route event.requestBody = .ok body ∧
        ((send = .ok () ∧ dispatchRoute rt settings event route send =
            ([transformedMessage settings event route body], .ok ())) ∨
          ∃ exc, send = .error exc ∧
            dispatchRoute rt settings event route send = ([], .error exc))) := by
  unfold dispatchRoute Delivers
  by_cases hmatch : matchesEvent rt route event = true
  · rw [if_pos hmatch]
    cases hbody : routeBody rt route event.requestBody with
    | error exc => exact Or.inl ⟨by simp, rfl⟩
    | ok body =>
        refine Or.inr ⟨⟨hmatch, body, rfl⟩, body, rfl, ?_⟩
        cases send with
        | ok _ => exact Or.inl ⟨rfl, rfl⟩
        | error exc => exact Or.inr ⟨exc, rfl, rfl⟩
  · rw [if_neg hmatch]
    exact Or.inl ⟨fun h => hmatch h.1, rfl⟩

/-- The route's pipeline and send succeed, and no send before it in the loop
raises. -/
def Dispatched (rt : Runtime) (event : Event) (send : UUID → Except Exc Unit) (routes : List Route)
    (route : Route) : Prop :=
  (∃ body, routeBody rt route event.requestBody = .ok body) ∧ send route.id = .ok () ∧
    ∀ r ∈ routes.takeWhile (fun r => r.id ≠ route.id), Delivers rt event r → send r.id = .ok ()

/-- The loop sends only messages it built from its own routes. -/
theorem mem_dispatchRoutes {event : Event} {send : UUID → Except Exc Unit} {routes : List Route}
    {m : KafkaMessage} (hm : m ∈ (dispatchRoutes rt settings event send routes).1) :
    ∃ route ∈ routes, matchesEvent rt route event = true ∧
      ∃ body, routeBody rt route event.requestBody = .ok body ∧
        m = transformedMessage settings event route body := by
  induction routes with
  | nil => cases hm
  | cons first rest ih =>
      have later : m ∈ (dispatchRoutes rt settings event send rest).1 →
          ∃ route ∈ first :: rest, matchesEvent rt route event = true ∧
            ∃ body, routeBody rt route event.requestBody = .ok body ∧
              m = transformedMessage settings event route body := by
        intro hrest
        obtain ⟨route, hroute, hsent⟩ := ih hrest
        exact ⟨route, List.mem_cons_of_mem _ hroute, hsent⟩
      rw [dispatchRoutes] at hm
      rcases dispatchRoute_cases rt settings event first (send first.id) with
        ⟨_, heq⟩ | ⟨⟨hmatch, _⟩, body, hbody, ⟨_, heq⟩ | ⟨exc, _, heq⟩⟩
      · rw [heq] at hm
        exact later hm
      · rw [heq] at hm
        rcases List.mem_cons.mp hm with rfl | hrest
        · exact ⟨first, List.mem_cons_self, hmatch, body, hbody, rfl⟩
        · exact later hrest
      · rw [heq] at hm
        cases hm

/-- The loop reaches the route after `first` when `first` sent nothing or its
send returned. -/
theorem dispatched_cons_iff {event : Event} {send : UUID → Except Exc Unit} {first route : Route}
    {rest : List Route} (hne : first.id ≠ route.id) :
    Dispatched rt event send (first :: rest) route ↔
      (Delivers rt event first → send first.id = .ok ()) ∧
        Dispatched rt event send rest route := by
  have hwhile : (first :: rest).takeWhile (fun r => r.id ≠ route.id) =
      first :: rest.takeWhile (fun r => r.id ≠ route.id) :=
    List.takeWhile_cons_of_pos (by simpa using hne)
  unfold Dispatched
  rw [hwhile, List.forall_mem_cons]
  tauto

/-- A matching route of the loop has its message acknowledged exactly when it
is dispatched. -/
theorem exists_isFor_dispatchRoutes_iff {event : Event} {send : UUID → Except Exc Unit}
    {routes : List Route} (nodup : (routes.map Route.id).Nodup) {route : Route}
    (hroute : route ∈ routes) (hmatch : matchesEvent rt route event = true) :
    (∃ m ∈ (dispatchRoutes rt settings event send routes).1, IsFor settings event route m) ↔
      Dispatched rt event send routes route := by
  induction routes with
  | nil => cases hroute
  | cons first rest ih =>
      rw [List.map_cons, List.nodup_cons] at nodup
      have hcases := dispatchRoute_cases rt settings event first (send first.id)
      by_cases hfirst : first.id = route.id
      · -- the route itself: the messages after it name other routes
        have hsame : route = first := by
          rcases List.mem_cons.mp hroute with heq | hrest
          · exact heq
          · exact absurd (hfirst ▸ List.mem_map_of_mem hrest) nodup.1
        subst hsame
        have hothers : ¬ ∃ m ∈ (dispatchRoutes rt settings event send rest).1,
            IsFor settings event route m := by
          rintro ⟨m, hm, hfor⟩
          obtain ⟨other, hother, _, body, _, rfl⟩ := mem_dispatchRoutes hm
          exact nodup.1 (id_eq_of_isFor hfor ▸ List.mem_map_of_mem hother)
        have hdispatched : Dispatched rt event send (route :: rest) route ↔
            (∃ body, routeBody rt route event.requestBody = .ok body) ∧
              send route.id = .ok () := by
          simp [Dispatched]
        rw [hdispatched, dispatchRoutes]
        rcases hcases with ⟨hnot, heq⟩ | ⟨_, body, hbody, ⟨hsend, heq⟩ | ⟨exc, hsend, heq⟩⟩
        · rw [heq]
          exact iff_of_false hothers (fun h => hnot ⟨hmatch, h.1⟩)
        · rw [heq]
          exact iff_of_true ⟨_, List.mem_cons_self, isFor_transformedMessage event route body⟩
            ⟨⟨body, hbody⟩, hsend⟩
        · rw [heq, hsend]
          simp
      · have hrest : route ∈ rest := by
          rcases List.mem_cons.mp hroute with heq | hrest
          · exact absurd (congrArg Route.id heq).symm hfirst
          · exact hrest
        rw [dispatched_cons_iff hfirst, ← ih nodup.2 hrest, dispatchRoutes]
        rcases hcases with ⟨hnot, heq⟩ | ⟨hdelivers, body, _, ⟨hsend, heq⟩ | ⟨exc, hsend, heq⟩⟩
        · rw [heq]
          simp [hnot]
        · have hnotFor : ¬ IsFor settings event route
              (transformedMessage settings event first body) :=
            fun hfor => hfirst (id_eq_of_isFor hfor)
          rw [heq]
          simp [hsend, hnotFor]
        · rw [heq]
          simp [hsend, hdelivers]

/-- The message names the event, the event exists, and the route is an active
one of the endpoint the message names, with a filter that matched. -/
def Owed (rt : Runtime) (data : RawMessage) (ans : EventAnswers) (event : Event) (route : Route) :
    Prop :=
  wellFormed data = true ∧
    (∃ id, uuidArg (Json.get? data "event_id") = .ok id ∧ findEvent id ans.events = some event) ∧
    uuidArg (Json.get? data "endpoint_id") = .ok route.endpointId ∧
    route ∈ activeRoutes route.endpointId ans.routes ∧ matchesEvent rt route event = true

/-- Nothing in the way of the route's message failed. -/
def Served (rt : Runtime) (ans : EventAnswers) (event : Event) (route : Route) : Prop :=
  ans.eventRead = .ok () ∧ ans.routesRead = .ok () ∧
    Dispatched rt event ans.send (activeRoutes route.endpointId ans.routes) route

/-- A route owed a message gets it exactly when it is served. -/
theorem exists_isFor_handleMessage_iff {data : RawMessage} {ans : EventAnswers} {event : Event}
    {route : Route} (owed : Owed rt data ans event route) :
    (∃ m ∈ handleMessage rt settings data ans, IsFor settings event route m) ↔
      Served rt ans event route := by
  obtain ⟨hwf, ⟨id, hid, hfind⟩, hendpoint, hroute, hmatch⟩ := owed
  have nodup : ((activeRoutes route.endpointId ans.routes).map Route.id).Nodup :=
    ans.routes_nodup.sublist (List.filter_sublist.map _)
  unfold handleMessage processEvent Served
  rw [if_pos hwf, hid]
  cases hread : ans.eventRead with
  | error exc => simp
  | ok _ =>
      simp only [hfind, hendpoint, true_and]
      cases hroutes : ans.routesRead with
      | error exc => simp
      | ok _ =>
          simp only [true_and]
          exact exists_isFor_dispatchRoutes_iff nodup hroute hmatch

end WebhookRelay.Transform
