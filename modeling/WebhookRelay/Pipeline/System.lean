import WebhookRelay.Api.Publications
import WebhookRelay.Delivery.Dispatch
import WebhookRelay.Gateway.Handler
import WebhookRelay.Retry.Scheduler

/-!
# The whole pipeline

Gateway, REST API, outbox relay, retry scheduler, transform worker and
delivery worker over one database and one Kafka. A component reads rows in one
step and sends in another: what it sends is in flight (`outgoing`) and is
appended to its topic later, or never, whether or not the send was answered.
Any message of a topic may be taken at any time, any number of times, by any
number of workers. The dead-letter topic, which no component reads, is left
out.
-/

namespace WebhookRelay.Pipeline

open Foundation Transform Delivery

/-- What the components ask of the libraries they use. -/
structure Runtime where
  gateway : Gateway.Runtime
  transform : Transform.Runtime

/-- History: the routes table at the moment a transform worker read the routes
for an event. -/
structure Load where
  eventId : UUID
  routes : List Route

/-- A transform worker that has found the event of a message; `todo` are the
routes it still has to go through, once it has read them. -/
structure Transforming where
  data : RawMessage
  event : Event
  todo : Option (List Route) := none

/-- A delivery under way, before its next call. -/
structure Delivering where
  eventId : UUID
  route : RouteDict
  body : Json
  attempt : ℕ := 0
  waits : ℕ := 0

/-- History: an HTTP request, and the event and the route it was sent for. -/
structure Issued where
  eventId : UUID
  routeId : UUID
  request : HttpRequest

structure PipelineState where
  db : Database
  ingesting : List (Gateway.WebhookRequest × Endpoint × Json) := []
  outgoing : List KafkaMessage := []
  kafka : List KafkaMessage := []
  transforming : List Transforming := []
  delivering : List Delivering := []
  loads : List Load := []
  issued : List Issued := []

inductive PipelineLabel where
  /-- Any change of endpoints and routes by someone else. -/
  | change (endpoints : List Endpoint) (routes : List Route)
  | api (env : Api.Env) (request : Api.Request)
  | receive (limiter : Except Exc Bool) (request : Gateway.WebhookRequest)
  | ingest (i : ℕ) (eventId outboxId : UUID) (now : Time)
  /-- A relay publishes one of the records its `SELECT` gives. -/
  | relay (tie : UUID → ℕ) (locked : List UUID) (i : ℕ) (answer : Outbox.SendAnswer)
  | relayCommit (id : UUID) (result : Except Exc Unit)
  /-- A scheduler publishes one of the events that are due. -/
  | requeue (now : Time) (i : ℕ)
  | requeueCommit (id : UUID) (now : Time) (result : Except Exc Unit)
  | arrive (i : ℕ)
  | loadEvent (i : ℕ)
  | loadRoutes (i : ℕ)
  | dispatch (i : ℕ) (send : Except Exc Unit)
  | startDelivery (i : ℕ)
  | deliver (i : ℕ) (ans : CallAnswers)

section Steps

variable (rt : Runtime) (settings : Settings)

def setEvents (s : PipelineState) (events : List Event) : PipelineState :=
  { s with db := { s.db with events := events } }

def receive (s : PipelineState) (limiter : Except Exc Bool) (request : Gateway.WebhookRequest) :
    Option PipelineState :=
  match Gateway.check rt.gateway settings s.db.endpoints limiter request with
  | .ok (endpoint, payload) =>
      some { s with ingesting := s.ingesting ++ [(request, endpoint, payload)] }
  | .error _ => none

/-- The transaction that inserts an event and its outbox record. -/
def ingest (s : PipelineState) (i : ℕ) (eventId outboxId : UUID) (now : Time) :
    Option PipelineState :=
  match s.ingesting[i]? with
  | some (request, endpoint, payload) =>
      if eventId ∉ s.db.events.map Event.id ∧ outboxId ∉ s.db.outbox.map OutboxRecord.id ∧
          endpoint.id ∈ s.db.endpoints.map Endpoint.id then
        some { s with
          ingesting := s.ingesting.eraseIdx i
          db := { s.db with
            events := s.db.events ++ [Gateway.newEvent eventId now endpoint payload request]
            outbox := s.db.outbox ++
              [Gateway.newOutboxRecord settings outboxId eventId now endpoint] } }
      else none
  | none => none

/-- What a relay transaction writes when it commits. -/
def relayCommit (s : PipelineState) (id : UUID) (result : Except Exc Unit) : PipelineState :=
  let published := (s.db.outbox.filter (fun r => r.id = id)).map OutboxRecord.eventId
  { s with
    db := { s.db with
      outbox := s.db.outbox.map (fun r => if r.id = id then Outbox.relayRecord result r else r)
      events := match result with
        | .ok _ => Outbox.queueEvents published s.db.events
        | .error _ => s.db.events } }

/-- `db.get(Event, ...)` for a message of raw-events. -/
def loadEvent (s : PipelineState) (i : ℕ) : Option PipelineState :=
  match s.kafka[i]? with
  | some m =>
      if m.topic = settings.kafkaTopicRawEvents ∧ Transform.wellFormed m.value = true then
        match uuidArg (Json.get? m.value "event_id") with
        | .ok id =>
            (findEvent id s.db.events).map (fun event =>
              { s with transforming := s.transforming ++ [{ data := m.value, event := event }] })
        | .error _ => none
      else none
  | none => none

/-- The `SELECT` on routes, for the endpoint the message names. -/
def loadRoutes (s : PipelineState) (i : ℕ) : Option PipelineState :=
  match s.transforming[i]? with
  | some task =>
      match task.todo, uuidArg (Json.get? task.data "endpoint_id") with
      | none, .ok endpointId =>
          some { s with
            transforming := s.transforming.set i
              { task with todo := some (activeRoutes endpointId s.db.routes) }
            loads := s.loads ++ [⟨task.event.id, s.db.routes⟩] }
      | _, _ => none
  | none => none

/-- The next route of the loop; `send` is how its send ends, if there is one. -/
def dispatch (s : PipelineState) (i : ℕ) (send : Except Exc Unit) : Option PipelineState :=
  match s.transforming[i]? with
  | some task =>
      match task.todo with
      | some (route :: rest) =>
          let handed := (dispatchRoute rt.transform settings task.event route (.ok ())).1
          let todo := match (dispatchRoute rt.transform settings task.event route send).2 with
            | .ok _ => rest
            | .error _ => []
          some { s with
            outgoing := s.outgoing ++ handed
            transforming := s.transforming.set i { task with todo := some todo } }
      | _ => none
  | none => none

def startDelivery (s : PipelineState) (i : ℕ) : Option PipelineState :=
  match s.kafka[i]? with
  | some m =>
      if m.topic = settings.kafkaTopicTransformedEvents ∧ Delivery.wellFormed m.value = true then
        match dispatchArgs m.value settings with
        | .ok (eventId, route, body) =>
            some { s with delivering := s.delivering ++ [{ eventId, route, body }] }
        | .error _ => none
      else none
  | none => none

/-- One call of `_deliver_with_retry`, and what is left of the delivery. -/
def deliver (s : PipelineState) (i : ℕ) (ans : CallAnswers) : Option PipelineState :=
  match s.delivering[i]? with
  | some task =>
      let call := deliverCall settings task.eventId task.route task.body task.attempt task.waits ans
      some { s with
        issued := s.issued ++ (requestsOf call.1).map (fun r => ⟨task.eventId, task.route.id, r⟩)
        delivering := match call.2 with
          | .again attempt waits =>
              s.delivering.set i { task with attempt := attempt, waits := waits }
          | _ => s.delivering.eraseIdx i }
  | none => none

def pipelineNext (s : PipelineState) : PipelineLabel → Option PipelineState
  | .change endpoints routes =>
      some { s with db := { s.db with endpoints := endpoints, routes := routes } }
  | .api env request =>
      let outcome := Api.handle env settings request s.db
      some { s with db := outcome.store s.db, outgoing := s.outgoing ++ outcome.published }
  | .receive limiter request => receive rt settings s limiter request
  | .ingest i eventId outboxId now => ingest settings s i eventId outboxId now
  | .relay tie locked i answer =>
      (Outbox.selectPending tie locked s.db.outbox)[i]?.map (fun record =>
        { s with outgoing := s.outgoing ++ (Outbox.publish answer record).1.toList })
  | .relayCommit id result => some (relayCommit s id result)
  | .requeue now i =>
      (s.db.events.filter (Retry.due now))[i]?.map (fun event =>
        { s with outgoing := s.outgoing ++ [Retry.requeueMessage settings event] })
  | .requeueCommit id now result =>
      some (setEvents s (s.db.events.map (fun e =>
        if e.id = id then Retry.requeueEvent now result e else e)))
  | .arrive i => s.outgoing[i]?.map (fun m => { s with kafka := s.kafka ++ [m] })
  | .loadEvent i => loadEvent settings s i
  | .loadRoutes i => loadRoutes s i
  | .dispatch i send => dispatch rt settings s i send
  | .startDelivery i => startDelivery settings s i
  | .deliver i ans => deliver settings s i ans

/-- The pipeline, from a database without events. -/
def pipeline : Machine PipelineState PipelineLabel where
  init := fun s => s =
    { db := { endpoints := s.db.endpoints, routes := s.db.routes,
              memberships := s.db.memberships } }
  next := pipelineNext rt settings

end Steps

/-! ## What each step does -/

section Cases

variable {rt : Runtime} {settings : Settings} {s t : PipelineState} {i : ℕ}

theorem receive_cases {limiter : Except Exc Bool} {request : Gateway.WebhookRequest}
    (h : receive rt settings s limiter request = some t) :
    ∃ endpoint payload,
      Gateway.check rt.gateway settings s.db.endpoints limiter request = .ok (endpoint, payload) ∧
        t = { s with ingesting := s.ingesting ++ [(request, endpoint, payload)] } := by
  unfold receive at h
  split at h
  · rename_i endpoint payload hcheck
    exact ⟨endpoint, payload, hcheck, (Option.some.inj h).symm⟩
  · cases h

theorem ingest_cases {eventId outboxId : UUID} {now : Time}
    (h : ingest settings s i eventId outboxId now = some t) :
    ∃ request endpoint payload, eventId ∉ s.db.events.map Event.id ∧
      t = { s with
        ingesting := s.ingesting.eraseIdx i
        db := { s.db with
          events := s.db.events ++ [Gateway.newEvent eventId now endpoint payload request]
          outbox := s.db.outbox ++
            [Gateway.newOutboxRecord settings outboxId eventId now endpoint] } } := by
  unfold ingest at h
  split at h
  · rename_i request endpoint payload _
    simp only [Option.ite_none_right_eq_some, Option.some.injEq] at h
    exact ⟨request, endpoint, payload, h.1.1, h.2.symm⟩
  · cases h

theorem loadEvent_cases (h : loadEvent settings s i = some t) :
    ∃ m id event, s.kafka[i]? = some m ∧ Transform.wellFormed m.value = true ∧
      uuidArg (Json.get? m.value "event_id") = .ok id ∧ findEvent id s.db.events = some event ∧
        t = { s with transforming := s.transforming ++ [{ data := m.value, event := event }] } := by
  unfold loadEvent at h
  split at h
  · rename_i m hm
    split at h
    · rename_i hwf
      split at h
      · rename_i id hid
        obtain ⟨event, hfind, ht⟩ := Option.map_eq_some_iff.mp h
        exact ⟨m, id, event, hm, hwf.2, hid, hfind, ht.symm⟩
      · cases h
    · cases h
  · cases h

theorem loadRoutes_cases (h : loadRoutes s i = some t) :
    ∃ task endpointId, s.transforming[i]? = some task ∧
      uuidArg (Json.get? task.data "endpoint_id") = .ok endpointId ∧
        t = { s with
          transforming := s.transforming.set i
            { task with todo := some (activeRoutes endpointId s.db.routes) }
          loads := s.loads ++ [⟨task.event.id, s.db.routes⟩] } := by
  unfold loadRoutes at h
  split at h
  · rename_i task htask
    split at h
    · rename_i endpointId _ hendpoint
      exact ⟨task, endpointId, htask, hendpoint, (Option.some.inj h).symm⟩
    · cases h
  · cases h

/-- The loop goes on with the routes after this one, or is left. -/
theorem dispatch_cases {send : Except Exc Unit} (h : dispatch rt settings s i send = some t) :
    ∃ task route rest todo, s.transforming[i]? = some task ∧ task.todo = some (route :: rest) ∧
      (∀ r ∈ todo, r ∈ rest) ∧
        t = { s with
          outgoing := s.outgoing ++
            (dispatchRoute rt.transform settings task.event route (.ok ())).1
          transforming := s.transforming.set i { task with todo := some todo } } := by
  unfold dispatch at h
  split at h
  · rename_i task htask
    split at h
    · rename_i route rest htodo
      refine ⟨task, route, rest, _, htask, htodo, ?_, (Option.some.inj h).symm⟩
      intro r hr
      split at hr
      · exact hr
      · cases hr
    · cases h
  · cases h

theorem startDelivery_cases (h : startDelivery settings s i = some t) :
    ∃ m eventId route body, s.kafka[i]? = some m ∧ Delivery.wellFormed m.value = true ∧
      dispatchArgs m.value settings = .ok (eventId, route, body) ∧
        t = { s with delivering := s.delivering ++ [{ eventId, route, body }] } := by
  unfold startDelivery at h
  split at h
  · rename_i m hm
    split at h
    · rename_i hwf
      split at h
      · rename_i eventId route body hargs
        exact ⟨m, eventId, route, body, hm, hwf.2, hargs, (Option.some.inj h).symm⟩
      · cases h
    · cases h
  · cases h

/-- The delivery is over, or goes on about the same event, route and body. -/
theorem deliver_cases {ans : CallAnswers} (h : deliver settings s i ans = some t) :
    ∃ task delivering, s.delivering[i]? = some task ∧
      (∀ task' ∈ delivering, task' ∈ s.delivering ∨
        ∃ attempt waits, task' = { task with attempt := attempt, waits := waits }) ∧
        t = { s with
          issued := s.issued ++ (requestsOf (deliverCall settings task.eventId task.route task.body
            task.attempt task.waits ans).1).map (fun r => ⟨task.eventId, task.route.id, r⟩)
          delivering := delivering } := by
  unfold deliver at h
  split at h
  · rename_i task htask
    refine ⟨task, _, htask, ?_, (Option.some.inj h).symm⟩
    intro task' htask'
    split at htask'
    · rename_i attempt waits _
      rcases List.mem_or_eq_of_mem_set htask' with hold | hnew
      · exact Or.inl hold
      · exact Or.inr ⟨attempt, waits, hnew⟩
    · exact Or.inl (List.mem_of_mem_eraseIdx htask')
  · cases h

end Cases

end WebhookRelay.Pipeline
