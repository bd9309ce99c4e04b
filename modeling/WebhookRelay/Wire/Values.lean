import WebhookRelay.Api.RouteFields
import WebhookRelay.Pipeline.NoWrongDelivery
import WebhookRelay.Wire.Kafka

/-!
# Values of a run

A value of Python has each key of a `dict` once; the association lists of
`Json` need not. What enters the pipeline is decoded JSON, and no component
makes anything else of it: in a run whose inputs are such values, so are the
tables, the rows the workers have read and the messages they send.
-/

namespace WebhookRelay.Wire

open Foundation Fallible Transform Pipeline

/-! ## What the engine makes of a value -/

/-- What `jmespath.search` gives on a value as Python holds it. -/
def KeepsProper (rt : Transform.Runtime) : Prop :=
  ∀ expression value result, Proper value → rt.search expression value = .ok result → Proper result

section

variable {engine : Transform.Runtime}

theorem properFields_iff {fields : List (String × Json)} :
    ProperFields fields ↔ ∀ f ∈ fields, Proper f.2 := by
  induction fields with
  | nil => exact iff_of_true trivial (fun f hf => absurd hf List.not_mem_nil)
  | cons f rest ih =>
      rw [List.forall_mem_cons, ← ih]
      rfl

/-- A template keeps its keys; its values are texts or its own. -/
theorem applyTemplate_keeps {payload : Json} {template fields : List (String × Json)}
    (h : applyTemplate engine payload template = .ok fields) :
    fields.map Prod.fst = template.map Prod.fst ∧ (ProperFields template → ProperFields fields) := by
  induction template generalizing fields with
  | nil =>
      obtain rfl := Except.ok.inj h
      exact ⟨rfl, id⟩
  | cons item rest ih =>
      obtain ⟨key, value⟩ := item
      have hvalue : ∃ value' others, fields = (key, value') :: others ∧
          applyTemplate engine payload rest = .ok others ∧ (Proper value → Proper value') := by
        cases value with
        | str text =>
            obtain ⟨chars, _, h⟩ := bind_eq_ok_iff.mp h
            obtain ⟨others, hothers, h⟩ := bind_eq_ok_iff.mp h
            exact ⟨_, others, (Except.ok.inj h).symm, hothers, fun _ => trivial⟩
        | _ =>
            obtain ⟨others, hothers, h⟩ := bind_eq_ok_iff.mp h
            exact ⟨_, others, (Except.ok.inj h).symm, hothers, id⟩
      obtain ⟨value', others, rfl, hothers, hproper⟩ := hvalue
      obtain ⟨hkeys, hrest⟩ := ih hothers
      exact ⟨congrArg (key :: ·) hkeys, fun h => ⟨hproper h.1, hrest h.2⟩⟩

theorem proper_of_get? {fields : List (String × Json)} {key : String} {value : Json}
    (h : Proper (.obj fields)) (hget : Json.get? fields key = some value) : Proper value := by
  obtain ⟨before, after, rfl, _⟩ := List.lookup_eq_some_iff.mp hget
  exact properFields_iff.mp h.2 (key, value) (List.mem_append_right _ List.mem_cons_self)

theorem proper_applyStep (hengine : KeepsProper engine) {idx : ℕ} {step current result : Json}
    (hstep : Proper step) (hcurrent : Proper current)
    (h : applyStep engine idx step current = .ok result) : Proper result := by
  unfold applyStep at h
  split at h
  · rename_i fields
    split at h
    · exact Except.ok.inj h ▸ hcurrent
    · split at h
      · cases h
      · rename_i template hbody
        cases htemplate : applyTemplate engine current template with
        | error exc =>
            rw [htemplate] at h
            cases h
        | ok fields' =>
            rw [htemplate] at h
            cases h
            obtain ⟨hkeys, hfields⟩ := applyTemplate_keeps htemplate
            obtain ⟨hnodup, hproper⟩ := proper_of_get? hstep hbody
            exact ⟨hkeys ▸ hnodup, hfields hproper⟩
      · cases h
    · split at h
      · cases h
      · rename_i expr _
        split at h
        · cases h
        · split at h
          · exact Except.ok.inj h ▸ hcurrent
          · rename_i result hsearch
            exact Except.ok.inj h ▸ hengine _ _ _ hcurrent hsearch
          · cases h
      · cases h
    · split at h
      · cases h
      · cases h
  · cases h

theorem proper_applySteps (hengine : KeepsProper engine) {steps : List Json}
    (hsteps : ∀ step ∈ steps, Proper step) {idx : ℕ} {current result : Json}
    (hcurrent : Proper current) (h : applySteps engine idx steps current = .ok result) :
    Proper result := by
  induction steps generalizing idx current with
  | nil => exact Except.ok.inj h ▸ hcurrent
  | cons step rest ih =>
      obtain ⟨hstep, hrest⟩ := List.forall_mem_cons.mp hsteps
      obtain ⟨next, hnext, h⟩ := bind_eq_ok_iff.mp h
      exact ih hrest (proper_applyStep hengine hstep hcurrent hnext) h

/-- What a route holds in its JSONB columns. -/
structure ProperRoute (route : Route) : Prop where
  headers : ((route.headers.getD []).map Prod.fst).Nodup
  pipeline : ∀ step ∈ route.transformPipeline.getD [], Proper step

theorem proper_routeBody (hengine : KeepsProper engine) {route : Route} (hroute : ProperRoute route)
    {payload body : Json} (hpayload : Proper payload)
    (h : routeBody engine route payload = .ok body) : Proper body := by
  unfold routeBody at h
  split at h
  · exact Except.ok.inj h ▸ hpayload
  · exact proper_applySteps hengine hroute.pipeline hpayload h

theorem proper_transformedMessage {settings : Settings} {event : Event} {route : Route}
    {body : Json} (hroute : ProperRoute route) (hbody : Proper body) :
    Proper (.obj (transformedMessage settings event route body).value) := by
  have hkeys : ["event_id", "route_id", "url", "method", "headers", "body", "timeout_ms",
      "max_retries", "retry_backoff_ms"].Nodup := by decide
  refine ⟨hkeys, ?_⟩
  have hheaders : Proper (headersJson route.headers) := by
    refine ⟨?_, properFields_iff.mpr ?_⟩
    · rw [List.map_map]
      exact hroute.headers
    · intro f hf
      obtain ⟨h, _, rfl⟩ := List.mem_map.mp hf
      trivial
  exact ⟨trivial, trivial, trivial, trivial, hheaders, hbody, trivial, trivial, trivial, trivial⟩

end

/-! ## Routes that the API stores -/

section Routes

variable {env : Api.Env} {settings : Settings} {db : Database} {ws : UUID}

/-- The body of a request is decoded JSON. -/
def ProperBody : Api.Operation → Prop
  | .addRoute _ (some body) => ((body.headers.getD []).map Prod.fst).Nodup ∧
      ∀ step ∈ body.transformPipeline.getD [], Proper step
  | .updateRoute _ (some body) =>
      (∀ headers, body.headers = some headers → ((headers.getD []).map Prod.fst).Nodup) ∧
        ∀ pipeline, body.transformPipeline = some pipeline → ∀ step ∈ pipeline.getD [], Proper step
  | _ => True

theorem ProperRoute.patch {body : Api.RouteUpdate} {route patched : Route} {routeId : String}
    (h : ProperRoute route) (hbody : ProperBody (.updateRoute routeId (some body)))
    (hpatch : Api.patchRoute body route = .ok patched) : ProperRoute patched := by
  obtain ⟨hheaders, hpipeline⟩ := hbody
  unfold Api.patchRoute at hpatch
  simp only [bind_eq_ok_iff] at hpatch
  obtain ⟨_, _, _, _, _, _, _, _, _, _, _, _, _, _, heq⟩ := hpatch
  obtain rfl := Except.ok.inj heq
  constructor
  · show (((body.headers.getD route.headers).getD []).map Prod.fst).Nodup
    cases hsent : body.headers with
    | none => exact h.headers
    | some headers => exact hheaders headers hsent
  · show ∀ step ∈ (body.transformPipeline.getD route.transformPipeline).getD [], Proper step
    cases hsent : body.transformPipeline with
    | none => exact h.pipeline
    | some pipeline => exact hpipeline pipeline hsent

theorem properRoutes_handle (h : ∀ r ∈ db.routes, ProperRoute r) {request : Api.Request}
    (hbody : ProperBody request.operation) :
    ∀ r ∈ ((Api.handle env settings request db).store db).routes, ProperRoute r := by
  refine Api.routes_handle h (fun ws => Api.only_run ?_ ?_ ?_)
  · intro w hnone r hr
    rw [hnone] at hr
    cases hr
  · intro endpointId body hop
    rw [hop] at hbody
    refine Api.Only.bind (fun valid hvalid => ?_)
    cases body with
    | none => cases hvalid
    | some body =>
        obtain rfl := Except.ok.inj hvalid
        refine Api.Only.bind (fun _ _ => Api.Only.bind (fun _ _ => Api.Only.bind (fun ep _ =>
          Api.Only.commit (fun _ r hr => ?_))))
        obtain rfl := Option.some.inj hr
        exact ⟨hbody.1, hbody.2⟩
  · intro routeId body hop
    rw [hop] at hbody
    refine Api.Only.bind (fun valid hvalid => ?_)
    cases body with
    | none => cases hvalid
    | some body =>
        obtain rfl := Except.ok.inj hvalid
        refine Api.Only.bind (fun _ _ => Api.Only.bind (fun old hold => Api.Only.bind (fun _ _ =>
          Api.Only.bind (fun patched hpatch => Api.Only.commit (fun _ r hr => ?_)))))
        obtain rfl := Option.some.inj hr
        exact (h old (Api.route_mem_of_routeOr404 hold)).patch hbody hpatch

/-- No request to the API changes the body of an event. -/
theorem exists_body_of_handle {request : Api.Request} {e : Event}
    (he : e ∈ ((Api.handle env settings request db).store db).events) :
    ∃ old ∈ db.events, e.requestBody = old.requestBody := by
  have keeps : Api.KeepsEvents settings db (Api.handle env settings request db) :=
    Api.keepsEvents_handle request
  unfold Api.Outcome.store at he
  cases hwrite : (Api.handle env settings request db).write with
  | none =>
      rw [hwrite] at he
      exact ⟨e, he, rfl⟩
  | some w =>
      rw [hwrite] at he
      cases w with
      | updateEvent event =>
          obtain ⟨old, hold, hcore⟩ := keeps.updated event hwrite
          simp only [Api.eventCore, Prod.mk.injEq] at hcore
          rcases Rows.mem_put he with ⟨rfl, _⟩ | ⟨hmem, _⟩
          · exact ⟨old, hold, hcore.2.2.1.symm⟩
          · exact ⟨e, hmem, rfl⟩
      | _ => exact ⟨e, he, rfl⟩

end Routes

/-! ## Runs -/

/-- What the libraries give is what Python holds. -/
structure PythonRuntime (rt : Pipeline.Runtime) : Prop where
  loads : ∀ body payload, rt.gateway.loads body = .value payload → Proper payload
  search : KeepsProper rt.transform

/-- The inputs of the step are decoded JSON. -/
def ProperInput : PipelineLabel → Prop
  | .change _ routes => ∀ r ∈ routes, ProperRoute r
  | .api _ request => ProperBody request.operation
  | _ => True

structure PythonValues (c : PipelineState) : Prop where
  events : ∀ e ∈ c.db.events, Proper e.requestBody
  routes : ∀ r ∈ c.db.routes, ProperRoute r
  ingesting : ∀ x ∈ c.ingesting, Proper x.2.2
  transforming : ∀ task ∈ c.transforming, Proper task.event.requestBody ∧
    ∀ routes, task.todo = some routes → ∀ r ∈ routes, ProperRoute r

section Runs

variable {rt : Pipeline.Runtime} {settings : Settings} {c t : PipelineState}

theorem proper_check (hrt : PythonRuntime rt) {endpoints : List Endpoint} {limiter : Except Exc Bool}
    {request : Gateway.WebhookRequest} {endpoint : Endpoint} {payload : Json}
    (h : Gateway.check rt.gateway settings endpoints limiter request = .ok (endpoint, payload)) :
    Proper payload := by
  rw [Gateway.check_eq] at h
  obtain ⟨⟨body, found⟩, _, h⟩ := exists_of_bind_eq_ok h
  obtain ⟨_, _, h⟩ := exists_of_bind_eq_ok h
  obtain ⟨_, _, hparse⟩ := exists_of_bind_eq_ok h
  unfold Gateway.parsePayload at hparse
  split at hparse
  · cases hparse
  · cases hparse
  · rename_i value hvalue
    obtain ⟨_, _, hend⟩ := exists_of_bind_eq_ok hparse
    obtain ⟨_, rfl⟩ := Prod.mk.inj (Except.ok.inj hend)
    exact hrt.loads body _ hvalue

/-- Events that are rewritten keep their bodies. -/
theorem PythonValues.setEvents (h : PythonValues c) {events : List Event}
    (hevents : ∀ e ∈ events, ∃ old ∈ c.db.events, e.requestBody = old.requestBody)
    (ht : t.db.events = events) (hroutes : t.db.routes = c.db.routes)
    (hingesting : t.ingesting = c.ingesting) (htransforming : t.transforming = c.transforming) :
    PythonValues t := by
  refine ⟨?_, hroutes ▸ h.routes, hingesting ▸ h.ingesting, htransforming ▸ h.transforming⟩
  intro e he
  obtain ⟨old, hold, hbody⟩ := hevents e (ht ▸ he)
  exact hbody ▸ h.events old hold

theorem pythonValues_next {label : PipelineLabel} (hrt : PythonRuntime rt) (h : PythonValues c)
    (hlabel : ProperInput label) (hstep : pipelineNext rt settings c label = some t) :
    PythonValues t := by
  have same : ∀ e ∈ c.db.events, ∃ old ∈ c.db.events, e.requestBody = old.requestBody :=
    fun e he => ⟨e, he, rfl⟩
  cases label with
  | change endpoints routes =>
      obtain rfl := Option.some.inj hstep
      exact ⟨h.events, hlabel, h.ingesting, h.transforming⟩
  | api env request =>
      obtain rfl := Option.some.inj hstep
      refine ⟨?_, properRoutes_handle h.routes hlabel, h.ingesting, h.transforming⟩
      intro e he
      obtain ⟨old, hold, hbody⟩ := exists_body_of_handle he
      exact hbody ▸ h.events old hold
  | receive limiter request =>
      obtain ⟨endpoint, payload, hcheck, rfl⟩ := receive_cases hstep
      refine ⟨h.events, h.routes, ?_, h.transforming⟩
      intro x hx
      rcases List.mem_append.mp hx with hold | hnew
      · exact h.ingesting x hold
      · exact List.mem_singleton.mp hnew ▸ proper_check hrt hcheck
  | ingest i eventId outboxId now =>
      change ingest settings c i eventId outboxId now = some t at hstep
      unfold ingest at hstep
      split at hstep
      · rename_i request endpoint payload hfind
        simp only [Option.ite_none_right_eq_some, Option.some.injEq] at hstep
        obtain ⟨_, rfl⟩ := hstep
        refine ⟨?_, h.routes, fun x hx => h.ingesting x (List.mem_of_mem_eraseIdx hx),
          h.transforming⟩
        intro e he
        rcases List.mem_append.mp he with hold | hnew
        · exact h.events e hold
        · exact List.mem_singleton.mp hnew ▸ h.ingesting _ (List.mem_of_getElem? hfind)
      · cases hstep
  | relayCommit id result =>
      obtain rfl := Option.some.inj hstep
      refine h.setEvents ?_ rfl rfl rfl rfl
      intro e he
      cases result with
      | ok _ =>
          obtain ⟨old, hold, rfl⟩ := List.mem_map.mp he
          refine ⟨old, hold, ?_⟩
          split <;> rfl
      | error exc => exact ⟨e, he, rfl⟩
  | requeueCommit id now result =>
      obtain rfl := Option.some.inj hstep
      refine h.setEvents ?_ rfl rfl rfl rfl
      intro e he
      obtain ⟨old, hold, rfl⟩ := List.mem_map.mp he
      refine ⟨old, hold, ?_⟩
      split
      · cases result <;> rfl
      · rfl
  | loadEvent i =>
      obtain ⟨m, id, event, _, _, _, hfind, rfl⟩ := loadEvent_cases hstep
      refine ⟨h.events, h.routes, h.ingesting, ?_⟩
      intro task htask
      rcases List.mem_append.mp htask with hold | hnew
      · exact h.transforming task hold
      · obtain rfl := List.mem_singleton.mp hnew
        refine ⟨h.events event (List.mem_of_find?_eq_some hfind), ?_⟩
        intro routes hroutes
        cases hroutes
  | loadRoutes i =>
      obtain ⟨task, endpointId, htask, _, rfl⟩ := loadRoutes_cases hstep
      refine ⟨h.events, h.routes, h.ingesting, ?_⟩
      intro task' htask'
      rcases List.mem_or_eq_of_mem_set htask' with hold | rfl
      · exact h.transforming task' hold
      · refine ⟨(h.transforming task (List.mem_of_getElem? htask)).1, ?_⟩
        intro routes hroutes r hr
        obtain rfl := Option.some.inj hroutes
        exact h.routes r (List.mem_filter.mp hr).1
  | dispatch i send =>
      obtain ⟨task, route, rest, todo, htask, htodo, hrest, rfl⟩ := dispatch_cases hstep
      have hold := h.transforming task (List.mem_of_getElem? htask)
      refine ⟨h.events, h.routes, h.ingesting, ?_⟩
      intro task' htask'
      rcases List.mem_or_eq_of_mem_set htask' with hmem | rfl
      · exact h.transforming task' hmem
      · refine ⟨hold.1, ?_⟩
        intro routes hroutes r hr
        obtain rfl := Option.some.inj hroutes
        exact hold.2 _ htodo r (List.mem_cons_of_mem _ (hrest r hr))
  | startDelivery i =>
      obtain ⟨_, _, _, _, _, _, _, rfl⟩ := startDelivery_cases hstep
      exact h.setEvents same rfl rfl rfl rfl
  | deliver i ans =>
      obtain ⟨_, _, _, _, rfl⟩ := deliver_cases hstep
      exact h.setEvents same rfl rfl rfl rfl
  | relay tie locked i answer =>
      obtain ⟨_, _, rfl⟩ := Option.map_eq_some_iff.mp hstep
      exact h.setEvents same rfl rfl rfl rfl
  | requeue now i =>
      obtain ⟨_, _, rfl⟩ := Option.map_eq_some_iff.mp hstep
      exact h.setEvents same rfl rfl rfl rfl
  | arrive i =>
      obtain ⟨_, _, rfl⟩ := Option.map_eq_some_iff.mp hstep
      exact h.setEvents same rfl rfl rfl rfl

/-- What a step sends is made of values as Python holds them. -/
theorem proper_outgoing {label : PipelineLabel} (hrt : PythonRuntime rt) (h : PythonValues c)
    (hempty : c.outgoing = []) (hstep : pipelineNext rt settings c label = some t) :
    ∀ m ∈ t.outgoing, Proper (.obj m.value) := by
  have none : t.outgoing = c.outgoing → ∀ m ∈ t.outgoing, Proper (.obj m.value) := by
    intro ht m hm
    rw [ht, hempty] at hm
    cases hm
  cases label with
  | api env request =>
      obtain rfl := Option.some.inj hstep
      intro m hm
      rw [hempty, List.nil_append] at hm
      obtain ⟨e, _, rfl⟩ := (Api.keepsEvents_handle request).published m hm
      exact (flatFields_replayMessage settings e).held.1
  | relay tie locked i answer =>
      obtain ⟨record, _, rfl⟩ := Option.map_eq_some_iff.mp hstep
      intro m hm
      rw [hempty, List.nil_append] at hm
      have hmessage : m = Outbox.publishMessage record := by
        cases answer with
        | noProducer => cases hm
        | acked => exact List.mem_singleton.mp hm
        | raised exc => exact List.mem_singleton.mp hm
      exact hmessage ▸ (flatFields_publishMessage record).held.1
  | requeue now i =>
      obtain ⟨event, _, rfl⟩ := Option.map_eq_some_iff.mp hstep
      intro m hm
      rw [hempty, List.nil_append] at hm
      exact List.mem_singleton.mp hm ▸ (flatFields_requeueMessage settings event).held.1
  | dispatch i send =>
      obtain ⟨task, route, rest, todo, htask, htodo, _, rfl⟩ := dispatch_cases hstep
      obtain ⟨hevent, hroutes⟩ := h.transforming task (List.mem_of_getElem? htask)
      have hroute := hroutes _ htodo route List.mem_cons_self
      intro m hm
      rw [hempty, List.nil_append] at hm
      rcases dispatchRoute_cases rt.transform settings task.event route (.ok ()) with
        ⟨_, heq⟩ | ⟨_, body, hbody, ⟨_, heq⟩ | ⟨exc, _, heq⟩⟩
      · rw [heq] at hm
        cases hm
      · rw [heq] at hm
        exact List.mem_singleton.mp hm ▸
          proper_transformedMessage hroute (proper_routeBody hrt.search hroute hevent hbody)
      · rw [heq] at hm
        cases hm
  | receive limiter request =>
      obtain ⟨_, _, _, rfl⟩ := receive_cases hstep
      exact none rfl
  | ingest i eventId outboxId now =>
      obtain ⟨_, _, _, _, rfl⟩ := ingest_cases hstep
      exact none rfl
  | loadEvent i =>
      obtain ⟨_, _, _, _, _, _, _, rfl⟩ := loadEvent_cases hstep
      exact none rfl
  | loadRoutes i =>
      obtain ⟨_, _, _, _, rfl⟩ := loadRoutes_cases hstep
      exact none rfl
  | startDelivery i =>
      obtain ⟨_, _, _, _, _, _, _, rfl⟩ := startDelivery_cases hstep
      exact none rfl
  | deliver i ans =>
      obtain ⟨_, _, _, _, rfl⟩ := deliver_cases hstep
      exact none rfl
  | change endpoints routes => exact none (Option.some.inj hstep ▸ rfl)
  | relayCommit id result => exact none (Option.some.inj hstep ▸ rfl)
  | requeueCommit id now result => exact none (Option.some.inj hstep ▸ rfl)
  | arrive i =>
      obtain ⟨_, _, rfl⟩ := Option.map_eq_some_iff.mp hstep
      exact none rfl

end Runs

end WebhookRelay.Wire
