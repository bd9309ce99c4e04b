import WebhookRelay.Pipeline.System

/-!
# No wrong delivery

The endpoint of an event travels beside the event: in the outbox record, in
three kinds of raw-events messages, and only then in the route the transform
worker picks. `PipelineInv` says what each of these is about, down to the
requests; what a step may add is `Adds`, and an event, once stored, keeps
what it carries.
-/

namespace WebhookRelay.Pipeline

open Foundation Transform Delivery Api

variable {rt : Runtime} {settings : Settings} {s t : PipelineState}

/-- The events table has this event, up to the columns the pipeline rewrites. -/
def Stored (s : PipelineState) (e : Event) : Prop :=
  ∃ e' ∈ s.db.events, eventCore e' = eventCore e

/-- A transform worker read this route, as an active route of the endpoint of
the event. -/
def Chosen (s : PipelineState) (e : Event) (r : Route) : Prop :=
  (∃ load ∈ s.loads, load.eventId = e.id ∧ r ∈ load.routes) ∧
    r.isActive = true ∧ r.endpointId = e.endpointId

/-- The route matched the event, and this is what it is sent. -/
structure Prepared (rt : Runtime) (s : PipelineState) (e : Event) (r : Route) (body : Json) :
    Prop where
  stored : Stored s e
  chosen : Chosen s e r
  matched : matchesEvent rt.transform r e = true
  piped : routeBody rt.transform r e.requestBody = .ok body

def OutboxOk (s : PipelineState) (record : OutboxRecord) : Prop :=
  ∃ e, Stored s e ∧ record.eventId = e.id ∧ record.publishKey = e.endpointId.str

/-- A message of raw-events names an event and its endpoint. -/
def RawMessageOk (s : PipelineState) (m : KafkaMessage) : Prop :=
  ∃ e, Stored s e ∧ Json.get? m.value "event_id" = some (.str e.id.str) ∧
    Json.get? m.value "endpoint_id" = some (.str e.endpointId.str) ∧
    Json.get? m.value "route_id" = none

def DeliveryMessageOk (rt : Runtime) (settings : Settings) (s : PipelineState) (m : KafkaMessage) :
    Prop :=
  ∃ e r body, Prepared rt s e r body ∧ m = transformedMessage settings e r body

def MessageOk (rt : Runtime) (settings : Settings) (s : PipelineState) (m : KafkaMessage) : Prop :=
  RawMessageOk s m ∨ DeliveryMessageOk rt settings s m

structure TransformingOk (s : PipelineState) (task : Transforming) : Prop where
  stored : Stored s task.event
  endpoint : Json.get? task.data "endpoint_id" = some (.str task.event.endpointId.str)
  todo : ∀ routes, task.todo = some routes → ∀ r ∈ routes, Chosen s task.event r

def DeliveringOk (rt : Runtime) (s : PipelineState) (task : Delivering) : Prop :=
  ∃ e r, Prepared rt s e r task.body ∧ task.eventId = e.id ∧ task.route = routeDict r

/-- The request is owed: it is what the filter, the pipeline and the columns of
a route say, for an event of the route's endpoint, when the route was read. -/
def Rightful (rt : Runtime) (s : PipelineState) (issued : Issued) : Prop :=
  ∃ e ∈ s.db.events, e.id = issued.eventId ∧
    ∃ load ∈ s.loads, load.eventId = e.id ∧
      ∃ r ∈ load.routes, r.id = issued.routeId ∧ r.isActive = true ∧ r.endpointId = e.endpointId ∧
        matchesEvent rt.transform r e = true ∧
        issued.request.url = r.url ∧ issued.request.method = r.method ∧
        issued.request.headers = r.headers.getD [] ∧
        routeBody rt.transform r e.requestBody = .ok issued.request.body

structure PipelineInv (rt : Runtime) (settings : Settings) (s : PipelineState) : Prop where
  events_nodup : (s.db.events.map Event.id).Nodup
  outbox : ∀ record ∈ s.db.outbox, OutboxOk s record
  outgoing : ∀ m ∈ s.outgoing, MessageOk rt settings s m
  kafka : ∀ m ∈ s.kafka, MessageOk rt settings s m
  transforming : ∀ task ∈ s.transforming, TransformingOk s task
  delivering : ∀ task ∈ s.delivering, DeliveringOk rt s task
  issued : ∀ issued ∈ s.issued, Rightful rt s issued

/-! ## What stays true -/

/-- Stored events and past loads stay. -/
structure Extends (s t : PipelineState) : Prop where
  events : ∀ e ∈ s.db.events, Stored t e
  loads : ∀ load ∈ s.loads, load ∈ t.loads

/-- Events with the same core match the same routes and give the same body. -/
theorem matchesEvent_of_core {e e' : Event} (h : eventCore e = eventCore e') (r : Route) :
    matchesEvent rt.transform r e = matchesEvent rt.transform r e' := by
  simp only [eventCore, Prod.mk.injEq] at h
  obtain ⟨_, _, hbody, hheaders⟩ := h
  unfold matchesEvent
  rw [hbody, hheaders]

namespace Extends

variable {e : Event} {r : Route} {body : Json}

theorem stored (ext : Extends s t) (h : Stored s e) : Stored t e := by
  obtain ⟨e', he', hcore⟩ := h
  obtain ⟨e'', he'', hcore'⟩ := ext.events e' he'
  exact ⟨e'', he'', hcore'.trans hcore⟩

theorem chosen (ext : Extends s t) (h : Chosen s e r) : Chosen t e r := by
  obtain ⟨⟨load, hload, hrest⟩, hr⟩ := h
  exact ⟨⟨load, ext.loads load hload, hrest⟩, hr⟩

theorem prepared (ext : Extends s t) (h : Prepared rt s e r body) : Prepared rt t e r body :=
  ⟨ext.stored h.stored, ext.chosen h.chosen, h.matched, h.piped⟩

theorem outboxOk (ext : Extends s t) {record : OutboxRecord} (h : OutboxOk s record) :
    OutboxOk t record := by
  obtain ⟨e, he, hrest⟩ := h
  exact ⟨e, ext.stored he, hrest⟩

theorem messageOk (ext : Extends s t) {m : KafkaMessage} (h : MessageOk rt settings s m) :
    MessageOk rt settings t m := by
  rcases h with ⟨e, he, hrest⟩ | ⟨e, r, body, hprepared, hm⟩
  · exact Or.inl ⟨e, ext.stored he, hrest⟩
  · exact Or.inr ⟨e, r, body, ext.prepared hprepared, hm⟩

theorem transformingOk (ext : Extends s t) {task : Transforming} (h : TransformingOk s task) :
    TransformingOk t task :=
  ⟨ext.stored h.stored, h.endpoint,
    fun routes htodo r hr => ext.chosen (h.todo routes htodo r hr)⟩

theorem deliveringOk (ext : Extends s t) {task : Delivering} (h : DeliveringOk rt s task) :
    DeliveringOk rt t task := by
  obtain ⟨e, r, hprepared, hrest⟩ := h
  exact ⟨e, r, ext.prepared hprepared, hrest⟩

/-- A rightful request stays rightful: its event carries the same for ever. -/
theorem rightful (ext : Extends s t) {issued : Issued} (h : Rightful rt s issued) :
    Rightful rt t issued := by
  obtain ⟨e, he, hid, load, hload, hevent, r, hr, hrid, hactive, hendpoint, hmatch, hurl, hmethod,
    hheaders, hbody⟩ := h
  obtain ⟨e', he', hcore⟩ := ext.events e he
  have hmatch' := (matchesEvent_of_core hcore r).trans hmatch
  simp only [eventCore, Prod.mk.injEq] at hcore
  obtain ⟨hid', hendpoint', hbody', _⟩ := hcore
  refine ⟨e', he', hid'.trans hid, load, ext.loads load hload, hevent.trans hid'.symm, r, hr, hrid,
    hactive, hendpoint.trans hendpoint'.symm, hmatch', hurl, hmethod, hheaders, ?_⟩
  rw [hbody']
  exact hbody

theorem of_db_eq (hdb : t.db = s.db) (hloads : ∀ load ∈ s.loads, load ∈ t.loads) : Extends s t :=
  ⟨fun e he => ⟨e, hdb ▸ he, rfl⟩, hloads⟩

end Extends

/-! ## What a step adds -/

/-- Everything in the new state was there before or is in order now. -/
structure Adds (rt : Runtime) (settings : Settings) (s t : PipelineState) : Prop where
  extended : Extends s t
  events_nodup : (t.db.events.map Event.id).Nodup
  outbox : ∀ record ∈ t.db.outbox, OutboxOk s record ∨ OutboxOk t record
  outgoing : ∀ m ∈ t.outgoing, m ∈ s.outgoing ∨ MessageOk rt settings t m
  kafka : ∀ m ∈ t.kafka, m ∈ s.kafka ∨ MessageOk rt settings t m
  transforming : ∀ task ∈ t.transforming, task ∈ s.transforming ∨ TransformingOk t task
  delivering : ∀ task ∈ t.delivering, task ∈ s.delivering ∨ DeliveringOk rt t task
  issued : ∀ issued ∈ t.issued, issued ∈ s.issued ∨ Rightful rt t issued

theorem PipelineInv.add (inv : PipelineInv rt settings s) (adds : Adds rt settings s t) :
    PipelineInv rt settings t := by
  have ext := adds.extended
  refine ⟨adds.events_nodup, ?_, ?_, ?_, ?_, ?_, ?_⟩
  · intro record h
    exact (adds.outbox record h).elim ext.outboxOk id
  · intro m h
    exact (adds.outgoing m h).elim (fun h => ext.messageOk (inv.outgoing m h)) id
  · intro m h
    exact (adds.kafka m h).elim (fun h => ext.messageOk (inv.kafka m h)) id
  · intro task h
    exact (adds.transforming task h).elim (fun h => ext.transformingOk (inv.transforming task h)) id
  · intro task h
    exact (adds.delivering task h).elim (fun h => ext.deliveringOk (inv.delivering task h)) id
  · intro issued h
    exact (adds.issued issued h).elim (fun h => ext.rightful (inv.issued issued h)) id

/-! ## Changes of the tables -/

/-- Rewriting columns the pipeline does not use. -/
theorem adds_of_map (inv : PipelineInv rt settings s) {f : Event → Event}
    (hcore : ∀ e ∈ s.db.events, eventCore (f e) = eventCore e)
    (hevents : t.db.events = s.db.events.map f)
    (houtbox : ∀ record ∈ t.db.outbox, ∃ old ∈ s.db.outbox,
      record.eventId = old.eventId ∧ record.publishKey = old.publishKey)
    (houtgoing : ∀ m ∈ t.outgoing, m ∈ s.outgoing ∨ MessageOk rt settings t m)
    (hkafka : t.kafka = s.kafka) (htransforming : t.transforming = s.transforming)
    (hdelivering : t.delivering = s.delivering) (hloads : t.loads = s.loads)
    (hissued : t.issued = s.issued) : Adds rt settings s t := by
  refine ⟨⟨?_, ?_⟩, ?_, ?_, houtgoing, ?_, ?_, ?_, ?_⟩
  · intro e he
    exact ⟨f e, hevents ▸ List.mem_map_of_mem he, hcore e he⟩
  · intro load hload
    exact hloads ▸ hload
  · have hids : t.db.events.map Event.id = s.db.events.map Event.id := by
      rw [hevents, List.map_map]
      apply List.map_congr_left
      intro e he
      exact congrArg Prod.fst (hcore e he)
    exact hids ▸ inv.events_nodup
  · intro record hrecord
    obtain ⟨old, hold, hevent, hkey⟩ := houtbox record hrecord
    obtain ⟨e, he, hid, hendpoint⟩ := inv.outbox old hold
    exact Or.inl ⟨e, he, hevent.trans hid, hkey.trans hendpoint⟩
  · exact fun m hm => Or.inl (hkafka ▸ hm)
  · exact fun task htask => Or.inl (htransforming ▸ htask)
  · exact fun task htask => Or.inl (hdelivering ▸ htask)
  · exact fun issued h => Or.inl (hissued ▸ h)

/-- A step that leaves the tables alone; what it adds is in order already. -/
theorem adds_of_db_eq (inv : PipelineInv rt settings s) (hdb : t.db = s.db)
    (hloads : t.loads = s.loads)
    (houtgoing : ∀ m ∈ t.outgoing, m ∈ s.outgoing ∨ MessageOk rt settings s m)
    (hkafka : ∀ m ∈ t.kafka, m ∈ s.kafka ∨ MessageOk rt settings s m)
    (htransforming : ∀ task ∈ t.transforming, task ∈ s.transforming ∨ TransformingOk s task)
    (hdelivering : ∀ task ∈ t.delivering, task ∈ s.delivering ∨ DeliveringOk rt s task)
    (hissued : ∀ issued ∈ t.issued, issued ∈ s.issued ∨ Rightful rt s issued) :
    Adds rt settings s t := by
  have ext : Extends s t := Extends.of_db_eq hdb (fun _ h => hloads ▸ h)
  constructor
  · exact ext
  · exact hdb ▸ inv.events_nodup
  · exact fun record hrecord => Or.inl (inv.outbox record (hdb ▸ hrecord))
  · exact fun m hm => (houtgoing m hm).imp_right ext.messageOk
  · exact fun m hm => (hkafka m hm).imp_right ext.messageOk
  · exact fun task htask => (htransforming task htask).imp_right ext.transformingOk
  · exact fun task htask => (hdelivering task htask).imp_right ext.deliveringOk
  · exact fun issued h => (hissued issued h).imp_right ext.rightful

/-- The API rewrites events by a map that keeps what they carry. -/
theorem exists_map_of_keepsEvents {db : Database} {outcome : Outcome}
    (nodup : (db.events.map Event.id).Nodup) (keeps : KeepsEvents settings db outcome) :
    ∃ f : Event → Event, (∀ e ∈ db.events, eventCore (f e) = eventCore e) ∧
      (outcome.store db).events = db.events.map f ∧ (outcome.store db).outbox = db.outbox := by
  unfold Outcome.store
  cases hwrite : outcome.write with
  | none => exact ⟨id, fun _ _ => rfl, by simp, rfl⟩
  | some w =>
      cases w with
      | updateEvent event =>
          obtain ⟨old, hold, hcore⟩ := keeps.updated event hwrite
          refine ⟨fun e => if e.id = event.id then event else e, ?_, rfl, rfl⟩
          intro e he
          show eventCore (if e.id = event.id then event else e) = eventCore e
          by_cases hid : e.id = event.id
          · have hkey : e.id = old.id := hid.trans (congrArg Prod.fst hcore).symm
            rw [if_pos hid, Rows.eq_of_key_eq nodup he hold hkey, hcore]
          · rw [if_neg hid]
      | _ => exact ⟨id, fun _ _ => rfl, by simp [Write.apply], rfl⟩

/-! ## Step by step -/

theorem adds_api (inv : PipelineInv rt settings s) (env : Env) (request : Request) :
    Adds rt settings s { s with
      db := (handle env settings request s.db).store s.db
      outgoing := s.outgoing ++ (handle env settings request s.db).published } := by
  have keeps : KeepsEvents settings s.db (handle env settings request s.db) :=
    keepsEvents_handle request
  obtain ⟨f, hcore, hevents, houtbox⟩ := exists_map_of_keepsEvents inv.events_nodup keeps
  refine adds_of_map inv hcore hevents ?_ ?_ rfl rfl rfl rfl rfl
  · intro record hrecord
    exact ⟨record, houtbox ▸ hrecord, rfl, rfl⟩
  · intro m hm
    rcases List.mem_append.mp hm with hm | hm
    · exact Or.inl hm
    · obtain ⟨e, he, rfl⟩ := keeps.published m hm
      have hstored : Stored { s with db := (handle env settings request s.db).store s.db } e :=
        ⟨f e, hevents ▸ List.mem_map_of_mem he, hcore e he⟩
      exact Or.inr (Or.inl ⟨e, hstored, rfl, rfl, rfl⟩)

theorem adds_ingest (inv : PipelineInv rt settings s) {i : ℕ} {eventId outboxId : UUID} {now : Time}
    (hstep : ingest settings s i eventId outboxId now = some t) : Adds rt settings s t := by
  obtain ⟨request, endpoint, payload, hnew, rfl⟩ := ingest_cases hstep
  refine ⟨⟨?_, fun _ h => h⟩, ?_, ?_, fun _ h => Or.inl h, fun _ h => Or.inl h,
    fun _ h => Or.inl h, fun _ h => Or.inl h, fun _ h => Or.inl h⟩
  · exact fun e he => ⟨e, List.mem_append_left _ he, rfl⟩
  · show ((s.db.events ++ [Gateway.newEvent eventId now endpoint payload request]).map
      Event.id).Nodup
    rw [List.map_append, List.map_singleton, List.nodup_append_comm]
    exact List.nodup_cons.mpr ⟨hnew, inv.events_nodup⟩
  · intro record hrecord
    rcases List.mem_append.mp hrecord with hold | hrecord
    · exact Or.inl (inv.outbox record hold)
    · rw [List.mem_singleton] at hrecord
      subst hrecord
      exact Or.inr ⟨_, ⟨_, List.mem_append_right _ (List.mem_singleton_self _), rfl⟩, rfl, rfl⟩

theorem adds_relay (inv : PipelineInv rt settings s) {tie : UUID → ℕ} {locked : List UUID} {i : ℕ}
    {record : OutboxRecord}
    (hrecord : (Outbox.selectPending tie locked s.db.outbox)[i]? = some record)
    (answer : Outbox.SendAnswer) :
    Adds rt settings s { s with
      outgoing := s.outgoing ++ (Outbox.publish answer record).1.toList } := by
  refine adds_of_db_eq inv rfl rfl ?_ (fun _ h => Or.inl h) (fun _ h => Or.inl h)
    (fun _ h => Or.inl h) (fun _ h => Or.inl h)
  intro m hm
  rcases List.mem_append.mp hm with hm | hm
  · exact Or.inl hm
  · have hmessage : m = Outbox.publishMessage record := by
      cases answer with
      | noProducer => cases hm
      | acked => exact List.mem_singleton.mp hm
      | raised exc => exact List.mem_singleton.mp hm
    obtain ⟨e, he, hid, hkey⟩ :=
      inv.outbox record (Outbox.mem_selectPending (List.mem_of_getElem? hrecord)).1
    subst hmessage
    refine Or.inr (Or.inl ⟨e, he, ?_, ?_, rfl⟩)
    · rw [← hid]
      rfl
    · rw [← hkey]
      rfl

theorem adds_relayCommit (inv : PipelineInv rt settings s) (id : UUID) (result : Except Exc Unit) :
    Adds rt settings s (relayCommit s id result) := by
  have houtbox : ∀ record ∈ (relayCommit s id result).db.outbox, ∃ old ∈ s.db.outbox,
      record.eventId = old.eventId ∧ record.publishKey = old.publishKey := by
    intro record hrecord
    obtain ⟨old, hold, rfl⟩ := List.mem_map.mp hrecord
    refine ⟨old, hold, ?_⟩
    split
    · cases result <;> exact ⟨rfl, rfl⟩
    · exact ⟨rfl, rfl⟩
  cases result with
  | ok _ =>
      refine adds_of_map inv ?_ rfl houtbox (fun _ h => Or.inl h) rfl rfl rfl rfl rfl
      intro e _
      show eventCore (if e.id ∈ _ then { e with status := .queued } else e) = eventCore e
      split <;> rfl
  | error exc =>
      refine adds_of_map inv (fun _ _ => rfl) (List.map_id _).symm houtbox (fun _ h => Or.inl h)
        rfl rfl rfl rfl rfl

theorem adds_requeue (inv : PipelineInv rt settings s) {now : Time} {i : ℕ} {e : Event}
    (he : (s.db.events.filter (Retry.due now))[i]? = some e) :
    Adds rt settings s { s with outgoing := s.outgoing ++ [Retry.requeueMessage settings e] } := by
  refine adds_of_db_eq inv rfl rfl ?_ (fun _ h => Or.inl h) (fun _ h => Or.inl h)
    (fun _ h => Or.inl h) (fun _ h => Or.inl h)
  intro m hm
  rcases List.mem_append.mp hm with hm | hm
  · exact Or.inl hm
  · rw [List.mem_singleton] at hm
    subst hm
    have hmem : e ∈ s.db.events := List.mem_of_mem_filter (List.mem_of_getElem? he)
    exact Or.inr (Or.inl ⟨e, ⟨e, hmem, rfl⟩, rfl, rfl, rfl⟩)

theorem adds_requeueCommit (inv : PipelineInv rt settings s) (id : UUID) (now : Time)
    (result : Except Exc Unit) :
    Adds rt settings s (setEvents s (s.db.events.map (fun e =>
      if e.id = id then Retry.requeueEvent now result e else e))) := by
  refine adds_of_map inv ?_ rfl (fun record h => ⟨record, h, rfl, rfl⟩) (fun _ h => Or.inl h)
    rfl rfl rfl rfl rfl
  intro e _
  show eventCore (if e.id = id then Retry.requeueEvent now result e else e) = eventCore e
  split
  · cases result <;> rfl
  · rfl

theorem adds_change (inv : PipelineInv rt settings s) (endpoints : List Endpoint)
    (routes : List Route) :
    Adds rt settings s { s with db := { s.db with endpoints := endpoints, routes := routes } } :=
  adds_of_map inv (fun _ _ => rfl) (List.map_id _).symm (fun record h => ⟨record, h, rfl, rfl⟩)
    (fun _ h => Or.inl h) rfl rfl rfl rfl rfl

theorem adds_receive (inv : PipelineInv rt settings s) {limiter : Except Exc Bool}
    {request : Gateway.WebhookRequest}
    (hstep : receive rt settings s limiter request = some t) : Adds rt settings s t := by
  obtain ⟨endpoint, payload, _, rfl⟩ := receive_cases hstep
  exact adds_of_db_eq inv rfl rfl (fun _ h => Or.inl h) (fun _ h => Or.inl h)
    (fun _ h => Or.inl h) (fun _ h => Or.inl h) (fun _ h => Or.inl h)

theorem adds_arrive (inv : PipelineInv rt settings s) {m : KafkaMessage} (hm : m ∈ s.outgoing) :
    Adds rt settings s { s with kafka := s.kafka ++ [m] } := by
  refine adds_of_db_eq inv rfl rfl (fun _ h => Or.inl h) ?_ (fun _ h => Or.inl h)
    (fun _ h => Or.inl h) (fun _ h => Or.inl h)
  intro m' hm'
  rcases List.mem_append.mp hm' with hold | hnew
  · exact Or.inl hold
  · rw [List.mem_singleton] at hnew
    subst hnew
    exact Or.inr (inv.outgoing m' hm)

/-- Stored events with one id carry the same. -/
theorem Stored.core_eq_of_id_eq (nodup : (s.db.events.map Event.id).Nodup) {e event : Event}
    (he : Stored s e) (hevent : event ∈ s.db.events) (hid : event.id = e.id) :
    eventCore event = eventCore e := by
  obtain ⟨e', he', hcore⟩ := he
  have hid' : event.id = e'.id := hid.trans (congrArg Prod.fst hcore).symm
  rw [Rows.eq_of_key_eq nodup hevent he' hid']
  exact hcore

/-- A message of the other topic has no endpoint. -/
theorem not_wellFormed_transformedMessage (event : Event) (route : Route) (body : Json) :
    Transform.wellFormed (transformedMessage settings event route body).value = false := by
  have hendpoint : Json.get? (transformedMessage settings event route body).value "endpoint_id" =
      none := rfl
  simp [Transform.wellFormed, Json.missing, hendpoint]

theorem adds_loadEvent (inv : PipelineInv rt settings s) {i : ℕ}
    (hstep : loadEvent settings s i = some t) : Adds rt settings s t := by
  obtain ⟨m, id, event, hm, hwf, hid, hfind, rfl⟩ := loadEvent_cases hstep
  refine adds_of_db_eq inv rfl rfl (fun _ h => Or.inl h) (fun _ h => Or.inl h) ?_
    (fun _ h => Or.inl h) (fun _ h => Or.inl h)
  intro task htask
  rcases List.mem_append.mp htask with hold | hnew
  · exact Or.inl hold
  · rw [List.mem_singleton] at hnew
    subst hnew
    have hmem : event ∈ s.db.events := List.mem_of_find?_eq_some hfind
    have hfound : event.id = id := by simpa using List.find?_some hfind
    rcases inv.kafka m (List.mem_of_getElem? hm) with ⟨e, he, hevent, hendpoint, _⟩ | hdelivery
    · rw [hevent, uuidArg_str, Except.ok.injEq] at hid
      have hcore : eventCore event = eventCore e :=
        he.core_eq_of_id_eq inv.events_nodup hmem (hfound.trans hid.symm)
      simp only [eventCore, Prod.mk.injEq] at hcore
      refine Or.inr ⟨⟨event, hmem, rfl⟩, ?_, fun _ h => by cases h⟩
      rw [hcore.2.1]
      exact hendpoint
    · obtain ⟨e, r, body, _, rfl⟩ := hdelivery
      rw [not_wellFormed_transformedMessage] at hwf
      cases hwf

theorem adds_loadRoutes (inv : PipelineInv rt settings s) {i : ℕ}
    (hstep : loadRoutes s i = some t) : Adds rt settings s t := by
  obtain ⟨task, endpointId, htask, hendpoint, rfl⟩ := loadRoutes_cases hstep
  have ok : TransformingOk s task := inv.transforming task (List.mem_of_getElem? htask)
  rw [ok.endpoint, uuidArg_str, Except.ok.injEq] at hendpoint
  refine ⟨Extends.of_db_eq rfl (fun _ h => List.mem_append_left _ h), inv.events_nodup,
    fun record h => Or.inl (inv.outbox record h), fun _ h => Or.inl h, fun _ h => Or.inl h, ?_,
    fun _ h => Or.inl h, fun _ h => Or.inl h⟩
  intro task' htask'
  rcases List.mem_or_eq_of_mem_set htask' with hold | rfl
  · exact Or.inl hold
  · refine Or.inr ⟨ok.stored, ok.endpoint, ?_⟩
    intro routes hroutes r hr
    cases hroutes
    -- the message names the endpoint of the event, so these are its routes
    simp only [activeRoutes, List.mem_filter, decide_eq_true_eq] at hr
    obtain ⟨hr, hof, hactive⟩ := hr
    exact ⟨⟨_, List.mem_append_right _ (List.mem_singleton_self _), rfl, hr⟩, hactive,
      hof.trans hendpoint.symm⟩

theorem adds_dispatch (inv : PipelineInv rt settings s) {i : ℕ} {send : Except Exc Unit}
    (hstep : dispatch rt settings s i send = some t) : Adds rt settings s t := by
  obtain ⟨task, route, rest, todo, htask, htodo, hrest, rfl⟩ := dispatch_cases hstep
  have ok : TransformingOk s task := inv.transforming task (List.mem_of_getElem? htask)
  refine adds_of_db_eq inv rfl rfl ?_ (fun _ h => Or.inl h) ?_ (fun _ h => Or.inl h)
    (fun _ h => Or.inl h)
  · intro m hm
    rcases List.mem_append.mp hm with hold | hnew
    · exact Or.inl hold
    · rcases dispatchRoute_cases rt.transform settings task.event route (.ok ()) with
        ⟨_, heq⟩ | ⟨hdelivers, body, hbody, ⟨_, heq⟩ | ⟨exc, _, heq⟩⟩
      · rw [heq] at hnew
        cases hnew
      · rw [heq] at hnew
        have hprepared : Prepared rt s task.event route body :=
          ⟨ok.stored, ok.todo _ htodo route List.mem_cons_self, hdelivers.1, hbody⟩
        exact Or.inr (Or.inr ⟨task.event, route, body, hprepared, List.mem_singleton.mp hnew⟩)
      · rw [heq] at hnew
        cases hnew
  · intro task' htask'
    rcases List.mem_or_eq_of_mem_set htask' with hold | rfl
    · exact Or.inl hold
    · refine Or.inr ⟨ok.stored, ok.endpoint, ?_⟩
      intro routes hroutes r hr
      cases hroutes
      exact ok.todo _ htodo r (List.mem_cons_of_mem _ (hrest r hr))

theorem adds_startDelivery (inv : PipelineInv rt settings s) {i : ℕ}
    (hstep : startDelivery settings s i = some t) : Adds rt settings s t := by
  obtain ⟨m, eventId, route, body, hm, hwf, hargs, rfl⟩ := startDelivery_cases hstep
  refine adds_of_db_eq inv rfl rfl (fun _ h => Or.inl h) (fun _ h => Or.inl h)
    (fun _ h => Or.inl h) ?_ (fun _ h => Or.inl h)
  intro task htask
  rcases List.mem_append.mp htask with hold | hnew
  · exact Or.inl hold
  · rw [List.mem_singleton] at hnew
    subst hnew
    rcases inv.kafka m (List.mem_of_getElem? hm) with ⟨e, _, _, _, hroute⟩ | hdelivery
    · -- a message of the other topic has no route
      have hmissing : Delivery.wellFormed m.value = false := by
        simp [Delivery.wellFormed, Json.missing, hroute]
      rw [hmissing] at hwf
      cases hwf
    · obtain ⟨e, r, body', hprepared, rfl⟩ := hdelivery
      rw [dispatchArgs_transformedMessage] at hargs
      cases hargs
      exact Or.inr ⟨e, r, hprepared, rfl, rfl⟩

/-- The request of a delivery that is in order. -/
theorem DeliveringOk.rightful {task : Delivering} (ok : DeliveringOk rt s task) :
    Rightful rt s ⟨task.eventId, task.route.id, request settings task.route task.body⟩ := by
  obtain ⟨e, r, hprepared, hevent, hroute⟩ := ok
  obtain ⟨e', he', hcore⟩ := hprepared.stored
  obtain ⟨⟨load, hload, hloaded, hr⟩, hactive, hendpoint⟩ := hprepared.chosen
  have hmatch := (matchesEvent_of_core hcore r).trans hprepared.matched
  have hpiped := hprepared.piped
  simp only [eventCore, Prod.mk.injEq] at hcore
  obtain ⟨hid, hendpoint', hbody, _⟩ := hcore
  rw [← hbody] at hpiped
  rw [hroute]
  exact ⟨e', he', hid.trans hevent.symm, load, hload, hloaded.trans hid.symm, r, hr, rfl, hactive,
    hendpoint.trans hendpoint'.symm, hmatch, rfl, rfl, rfl, hpiped⟩

theorem adds_deliver (inv : PipelineInv rt settings s) {i : ℕ} {ans : CallAnswers}
    (hstep : deliver settings s i ans = some t) : Adds rt settings s t := by
  obtain ⟨task, delivering, htask, hdelivering, rfl⟩ := deliver_cases hstep
  have ok : DeliveringOk rt s task := inv.delivering task (List.mem_of_getElem? htask)
  refine adds_of_db_eq inv rfl rfl (fun _ h => Or.inl h) (fun _ h => Or.inl h)
    (fun _ h => Or.inl h) ?_ ?_
  · intro task' htask'
    rcases hdelivering task' htask' with hold | ⟨attempt, waits, rfl⟩
    · exact Or.inl hold
    · exact Or.inr ok
  · intro issued hissued
    rcases List.mem_append.mp hissued with hold | hnew
    · exact Or.inl hold
    · obtain ⟨req, hreq, rfl⟩ := List.mem_map.mp hnew
      rw [requestsOf_deliverCall req hreq]
      exact Or.inr ok.rightful

theorem pipelineInv_next (label : PipelineLabel) (inv : PipelineInv rt settings s)
    (hstep : (pipeline rt settings).next s label = some t) : PipelineInv rt settings t := by
  apply inv.add
  change pipelineNext rt settings s label = some t at hstep
  cases label with
  | change endpoints routes =>
      cases hstep
      exact adds_change inv endpoints routes
  | api env request =>
      cases hstep
      exact adds_api inv env request
  | receive limiter request => exact adds_receive inv hstep
  | ingest i eventId outboxId now => exact adds_ingest inv hstep
  | relay tie locked i answer =>
      obtain ⟨record, hrecord, rfl⟩ := Option.map_eq_some_iff.mp hstep
      exact adds_relay inv hrecord answer
  | relayCommit id result =>
      cases hstep
      exact adds_relayCommit inv id result
  | requeue now i =>
      obtain ⟨e, he, rfl⟩ := Option.map_eq_some_iff.mp hstep
      exact adds_requeue inv he
  | requeueCommit id now result =>
      cases hstep
      exact adds_requeueCommit inv id now result
  | arrive i =>
      obtain ⟨m, hm, rfl⟩ := Option.map_eq_some_iff.mp hstep
      exact adds_arrive inv (List.mem_of_getElem? hm)
  | loadEvent i => exact adds_loadEvent inv hstep
  | loadRoutes i => exact adds_loadRoutes inv hstep
  | dispatch i send => exact adds_dispatch inv hstep
  | startDelivery i => exact adds_startDelivery inv hstep
  | deliver i ans => exact adds_deliver inv hstep

theorem pipelineInv_init (hinit : (pipeline rt settings).init s) : PipelineInv rt settings s := by
  have hs : s = { db :=
      { endpoints := s.db.endpoints, routes := s.db.routes, memberships := s.db.memberships } } :=
        hinit
  rw [hs]
  constructor
  · exact List.nodup_nil
  all_goals exact fun _ h => by cases h

/-- Whatever the order of steps, every request is one that is owed. -/
theorem no_wrong_delivery (hreach : (pipeline rt settings).Reachable s) :
    ∀ issued ∈ s.issued, Rightful rt s issued :=
  (hreach.invariant (fun _ => pipelineInv_init)
    (fun _ label _ => pipelineInv_next label)).issued

/-- Finds identifiers of the document; the only request body is `[]`. -/
def identifierRuntime : Runtime where
  gateway := {
    hmacSha256 := fun _ _ => ""
    loads := fun _ => .value (.arr [])
    validateSchema := fun _ _ => .valid
    isIpAddress := fun _ => true
    inNetwork := fun _ _ => none }
  transform := {
    search := fun expression data =>
      match data with
      | .obj fields => .ok ((Json.get? fields expression).getD .null)
      | _ => .ok .null
    reprFloat := fun _ => "0.0"
    reprStr := fun s => s
    reprDepth := 1000
    float := fun _ => none
    divide := fun _ x => x }

/-- The route asks for headers, and replaces `[]` by itself. -/
def headersRoute : Route where
  id := default
  endpointId := default
  name := "orders"
  url := "https://orders.example"
  filterExpression := some "headers"
  transformPipeline := some [.obj [("type", .str "jmespath"), ("expression", .str "total")]]

def emptyPipeline : PipelineState where
  db := {
    endpoints := [{ id := default, workspaceId := default, name := "shop", hmacSecret := "" }]
    routes := [headersRoute] }

/-- One webhook, all the way to its request. -/
def webhookRun : List PipelineLabel :=
  [.receive (.ok true)
      { endpointId := (default : UUID).str, chunks := [[91, 93]], headers := [("X-Shop", "1")] },
    .ingest 0 default default 0, .relay (fun _ => 0) [] 0 .acked, .relayCommit default (.ok ()),
    .arrive 0, .loadEvent 0, .loadRoutes 0, .dispatch 0 (.ok ()), .arrive 1, .startDelivery 1,
    .deliver 0 {}]

theorem rightful_webhookRun :
    let s := (pipeline identifierRuntime {}).after emptyPipeline webhookRun
    s.issued.map Issued.routeId = [headersRoute.id] ∧
      ∀ issued ∈ s.issued, Rightful identifierRuntime s issued := by
  have hinit : (pipeline identifierRuntime {}).init emptyPipeline := rfl
  have hrun : ((pipeline identifierRuntime {}).exec emptyPipeline webhookRun).isSome = true ∧
      ((pipeline identifierRuntime {}).after emptyPipeline webhookRun).issued.map Issued.routeId =
        [headersRoute.id] := by
    decide +kernel
  exact ⟨hrun.2, no_wrong_delivery (Machine.reachable_after hinit hrun.1)⟩

end WebhookRelay.Pipeline
