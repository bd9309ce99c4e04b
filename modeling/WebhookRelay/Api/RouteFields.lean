import WebhookRelay.Api.ForeignKeys
import WebhookRelay.Foundation.Fallible
import WebhookRelay.Transform.Validated

/-!
# The fields of a route, out and in

What the models of `app/schemas/api.py` make of the fields of a route on their
way in, and what comes of values that have come out before. Every stored route
has been through that validation (`validRoutes_handle`), so all of its fields
pass it again as they are; `redact_headers`, on the way out, has no inverse.
-/

namespace WebhookRelay.Api

open Foundation

section Validation

variable (compiles : String → Bool)

/-- `_validate_jmespath`. -/
def validFilter : Option String → Bool
  | none => true
  | some expression => decide (Transform.strip expression.toList = []) || compiles expression

/-- `list[PipelineStep] | None`, and its dump. -/
def validPipeline : Option (List Json) → Option (Option (List Json))
  | none => some none
  | some steps => (steps.mapM (pipelineStep compiles)).map some

def RouteCreate.validate (body : RouteCreate) : Option RouteCreate :=
  match validPipeline compiles body.transformPipeline with
  | some pipeline =>
      if validFilter compiles body.filterExpression then
        some { body with transformPipeline := pipeline }
      else none
  | none => none

/-- A field that was not sent is not looked at. -/
def validSent {α : Type} (validate : α → Option α) : Option α → Option (Option α)
  | none => some none
  | some value => (validate value).map some

def RouteUpdate.validate (body : RouteUpdate) : Option RouteUpdate :=
  match validSent (validPipeline compiles) body.transformPipeline with
  | some pipeline =>
      if validFilter compiles (body.filterExpression.getD none) then
        some { body with transformPipeline := pipeline }
      else none
  | none => none

end Validation

variable {compiles : String → Bool}

theorem validPipeline_idem {raw pipeline : Option (List Json)}
    (h : validPipeline compiles raw = some pipeline) :
    validPipeline compiles pipeline = some pipeline := by
  cases raw with
  | none =>
      obtain rfl := Option.some.inj h
      rfl
  | some steps =>
      obtain ⟨dumps, hdumps, rfl⟩ := Option.map_eq_some_iff.mp h
      show (dumps.mapM (pipelineStep compiles)).map some = some (some dumps)
      rw [Transform.mapM_dumps hdumps]
      rfl

/-! ## Stored routes -/

/-- A route whose fields are as their validation leaves them. -/
structure ValidRoute (compiles : String → Bool) (route : Route) : Prop where
  pipeline : validPipeline compiles route.transformPipeline = some route.transformPipeline
  filter : validFilter compiles route.filterExpression = true
  fits : routeFits route = true

/-- A body that has been validated; a handler gets no other. -/
def Operation.Validated (compiles : String → Bool) : Operation → Prop
  | .addRoute _ body => ∀ valid, body = some valid →
      ∃ raw : RouteCreate, raw.validate compiles = some valid
  | .updateRoute _ body => ∀ valid, body = some valid →
      ∃ raw : RouteUpdate, raw.validate compiles = some valid
  | _ => True

theorem RouteCreate.validate_cases {raw valid : RouteCreate}
    (h : raw.validate compiles = some valid) :
    validPipeline compiles valid.transformPipeline = some valid.transformPipeline ∧
      validFilter compiles valid.filterExpression = true := by
  unfold RouteCreate.validate at h
  split at h
  · rename_i pipeline hpipeline
    split at h
    · rename_i hfilter
      obtain rfl := Option.some.inj h
      exact ⟨validPipeline_idem hpipeline, hfilter⟩
    · cases h
  · cases h

theorem RouteUpdate.validate_cases {raw valid : RouteUpdate}
    (h : raw.validate compiles = some valid) :
    (∀ pipeline, valid.transformPipeline = some pipeline →
      validPipeline compiles pipeline = some pipeline) ∧
      validFilter compiles (valid.filterExpression.getD none) = true := by
  unfold RouteUpdate.validate at h
  split at h
  · rename_i sent hsent
    split at h
    · rename_i hfilter
      obtain rfl := Option.some.inj h
      refine ⟨?_, hfilter⟩
      rintro pipeline rfl
      cases hraw : raw.transformPipeline with
      | none =>
          rw [hraw] at hsent
          cases hsent
      | some value =>
          rw [hraw] at hsent
          obtain ⟨pipeline', hpipeline, heq⟩ := Option.map_eq_some_iff.mp hsent
          obtain rfl := Option.some.inj heq
          exact validPipeline_idem hpipeline
    · cases h
  · cases h

theorem checkColumns_eq_ok_iff {fits : Bool} : checkColumns fits = .ok () ↔ fits = true := by
  cases fits
  · exact iff_of_false (by simp [checkColumns]) (by simp)
  · exact iff_of_true rfl rfl

theorem patchRoute_pipeline {body : RouteUpdate} {route route' : Route}
    (h : patchRoute body route = .ok route') :
    route'.transformPipeline = body.transformPipeline.getD route.transformPipeline ∧
      route'.filterExpression = body.filterExpression.getD route.filterExpression := by
  unfold patchRoute at h
  obtain ⟨_, _, h⟩ := exists_of_bind_eq_ok h
  obtain ⟨_, _, h⟩ := exists_of_bind_eq_ok h
  obtain ⟨_, _, h⟩ := exists_of_bind_eq_ok h
  obtain ⟨_, _, h⟩ := exists_of_bind_eq_ok h
  obtain ⟨_, _, h⟩ := exists_of_bind_eq_ok h
  obtain ⟨_, _, h⟩ := exists_of_bind_eq_ok h
  obtain ⟨_, _, h⟩ := exists_of_bind_eq_ok h
  obtain rfl := Except.ok.inj h
  exact ⟨rfl, rfl⟩

theorem validRoute_patchRoute {body raw : RouteUpdate} {route route' : Route}
    (hroute : ValidRoute compiles route) (hbody : raw.validate compiles = some body)
    (hpatch : patchRoute body route = .ok route') (hfits : routeFits route' = true) :
    ValidRoute compiles route' := by
  obtain ⟨hpipeline, hfilter⟩ := RouteUpdate.validate_cases hbody
  obtain ⟨hpipeline', hfilter'⟩ := patchRoute_pipeline hpatch
  refine ⟨?_, ?_, hfits⟩
  · rw [hpipeline']
    cases hsent : body.transformPipeline with
    | none => exact hroute.pipeline
    | some pipeline => exact hpipeline pipeline hsent
  · rw [hfilter']
    cases hsent : body.filterExpression with
    | none => exact hroute.filter
    | some filter =>
        rw [hsent] at hfilter
        exact hfilter

section Handlers

variable {env : Env} {settings : Settings} {db : Database} {ws : UUID}

theorem route_mem_of_routeOr404 {id : UUID} {route : Route}
    (h : routeOr404 db ws id = .ok route) : route ∈ db.routes := by
  unfold routeOr404 at h
  split at h
  · cases h
  · rename_i found hget
    have hmem : found ∈ db.routes := List.mem_of_find?_eq_some hget
    split at h
    · split at h
      · cases h
        exact hmem
      · cases h
    · cases h

/-- A write puts no other route into the table. -/
def Write.PutsValid (compiles : String → Bool) : Write → Prop
  | .insertRoute route | .updateRoute route => ValidRoute compiles route
  | _ => True

theorem putsValid_addRoute (endpointId : String) {body : Option RouteCreate}
    (hvalid : (Operation.addRoute endpointId body).Validated compiles) :
    Only (Write.PutsValid compiles) (addRoute env settings db ws endpointId body) := by
  apply Only.bind
  intro valid hbody
  obtain ⟨raw, hraw⟩ : ∃ raw : RouteCreate, raw.validate compiles = some valid := by
    cases body with
    | none => cases hbody
    | some sent => exact hvalid valid (congrArg some (Except.ok.inj hbody))
  obtain ⟨hpipeline, hfilter⟩ := RouteCreate.validate_cases hraw
  apply Only.bind
  intro id _
  apply Only.bind
  intro _ _
  apply Only.bind
  intro ep _
  apply Only.commit
  intro hcheck
  refine ⟨hpipeline, hfilter, ?_⟩
  rw [Write.check] at hcheck
  split at hcheck
  · cases hcheck
  · split at hcheck
    · cases hcheck
    · exact checkColumns_eq_ok_iff.mp hcheck

theorem putsValid_updateRoute (hroutes : ∀ r ∈ db.routes, ValidRoute compiles r) (routeId : String)
    {body : Option RouteUpdate} (hvalid : (Operation.updateRoute routeId body).Validated compiles) :
    Only (Write.PutsValid compiles) (updateRoute env settings db ws routeId body) := by
  apply Only.bind
  intro valid hbody
  obtain ⟨raw, hraw⟩ : ∃ raw : RouteUpdate, raw.validate compiles = some valid := by
    cases body with
    | none => cases hbody
    | some sent => exact hvalid valid (congrArg some (Except.ok.inj hbody))
  apply Only.bind
  intro id _
  apply Only.bind
  intro old hold
  apply Only.bind
  intro _ _
  apply Only.bind
  intro route hpatch
  apply Only.commit
  intro hcheck
  have hvalidOld := hroutes old (route_mem_of_routeOr404 hold)
  exact validRoute_patchRoute hvalidOld hraw hpatch (checkColumns_eq_ok_iff.mp hcheck)

/-- The route a write puts into the table. -/
def Write.route : Write → Option Route
  | .insertRoute route | .updateRoute route => some route
  | _ => none

/-- The write an operation comes to, if it comes to one. -/
def Operation.Makes : Operation → Write → Prop
  | .createEndpoint _, .insertEndpoint _ => True
  | .updateEndpoint _ _, .updateEndpoint _ => True
  | .rotateSecret _, .updateEndpoint _ => True
  | .deleteEndpoint _, .deleteEndpoint _ => True
  | .addRoute _ _, .insertRoute _ => True
  | .updateRoute _ _, .updateRoute _ => True
  | .deleteRoute _, .deleteRoute _ => True
  | .discardDlqEvent _, .updateEvent _ => True
  | .restoreDlqEvent _, .updateEvent _ => True
  | _, _ => False

theorem makes_run (operation : Operation) :
    Only operation.Makes (operation.run env settings db ws) := by
  cases operation with
  | listEndpoints => exact Only.bind (fun _ _ => Only.read rfl)
  | createEndpoint body => exact Only.bind (fun _ _ => Only.commit (fun _ => trivial))
  | getEndpoint endpointId | listRoutes endpointId =>
      exact Only.bind (fun _ _ => Only.bind (fun _ _ => Only.bind (fun _ _ => Only.read rfl)))
  | updateEndpoint endpointId body =>
      exact Only.bind (fun _ _ => Only.bind (fun _ _ => Only.bind (fun _ _ =>
        Only.commit (fun _ => trivial))))
  | addRoute endpointId body =>
      exact Only.bind (fun _ _ => Only.bind (fun _ _ => Only.bind (fun _ _ =>
        Only.bind (fun _ _ => Only.commit (fun _ => trivial)))))
  | updateRoute routeId body =>
      exact Only.bind (fun _ _ => Only.bind (fun _ _ => Only.bind (fun _ _ =>
        Only.bind (fun _ _ => Only.bind (fun _ _ => Only.commit (fun _ => trivial))))))
  | deleteEndpoint id | rotateSecret id | deleteRoute id | restoreDlqEvent id =>
      exact Only.bind (fun _ _ => Only.bind (fun _ _ => Only.commit (fun _ => trivial)))
  | getEvent eventId | getEventAttempts eventId =>
      exact Only.bind (fun _ _ => Only.bind (fun _ _ => Only.read rfl))
  | listEvents endpointId limit offset =>
      apply Only.bind
      intro _ _
      dsimp only
      split
      · exact Only.read rfl
      · exact Only.bind (fun _ _ => Only.bind (fun _ _ => Only.read rfl))
  | listDlq includeDiscarded limit offset =>
      apply Only.bind
      intro _ _
      dsimp only
      split
      · exact Only.read rfl
      · exact Only.bind (fun _ _ => Only.read rfl)
  | replayEvent eventId =>
      apply Only.bind
      intro id _
      apply Only.bind
      intro event _
      cases env.kafka with
      | noProducer => exact Only.error _
      | acked => exact Only.read rfl
      | raised _ => exact Only.read rfl
  | discardDlqEvent eventId =>
      apply Only.bind
      intro id _
      apply Only.bind
      intro event _
      by_cases hdiscarded : event.isDiscarded = true
      · rw [if_pos hdiscarded]
        exact Only.read rfl
      · rw [if_neg hdiscarded]
        exact Only.commit (fun _ => trivial)

/-- Only two operations put a route into the table. -/
theorem only_run {P : Write → Prop} {operation : Operation}
    (hother : ∀ w : Write, w.route = none → P w)
    (hadd : ∀ endpointId body, operation = .addRoute endpointId body →
      Only P (addRoute env settings db ws endpointId body))
    (hupdate : ∀ routeId body, operation = .updateRoute routeId body →
      Only P (updateRoute env settings db ws routeId body)) :
    Only P (operation.run env settings db ws) := by
  intro outcome w hok hw
  have hmakes := makes_run operation outcome w hok hw
  cases w with
  | insertRoute route =>
      cases operation with
      | addRoute endpointId body => exact hadd endpointId body rfl outcome _ hok hw
      | _ => exact hmakes.elim
  | updateRoute route =>
      cases operation with
      | updateRoute routeId body => exact hupdate routeId body rfl outcome _ hok hw
      | _ => exact hmakes.elim
  | insertEndpoint _ | updateEndpoint _ | deleteEndpoint _ | deleteRoute _ | updateEvent _ =>
      exact hother _ rfl

theorem putsValid_run (hroutes : ∀ r ∈ db.routes, ValidRoute compiles r) (operation : Operation)
    (hvalid : operation.Validated compiles) :
    Only (Write.PutsValid compiles) (operation.run env settings db ws) := by
  apply only_run
  · intro w hnone
    cases w with
    | insertRoute _ | updateRoute _ => cases hnone
    | insertEndpoint _ | updateEndpoint _ | deleteEndpoint _ | deleteRoute _ | updateEvent _ =>
        trivial
  · rintro endpointId body rfl
    exact putsValid_addRoute endpointId hvalid
  · rintro routeId body rfl
    exact putsValid_updateRoute hroutes routeId hvalid

/-- A route in the table was there or has been put there. -/
theorem mem_routes_apply {w : Write} {r : Route} (hr : r ∈ (w.apply db).routes) :
    r ∈ db.routes ∨ w.route = some r := by
  cases w with
  | insertRoute route =>
      rcases List.mem_append.mp hr with hold | hnew
      · exact Or.inl hold
      · rw [List.mem_singleton.mp hnew]
        exact Or.inr rfl
  | updateRoute route =>
      rcases Rows.mem_put hr with ⟨rfl, _⟩ | ⟨hold, _⟩
      · exact Or.inr rfl
      · exact Or.inl hold
  | deleteEndpoint id => exact Or.inl (List.mem_filter.mp hr).1
  | deleteRoute id => exact Or.inl (Rows.mem_remove_iff.mp hr).1
  | insertEndpoint _ | updateEndpoint _ | updateEvent _ => exact Or.inl hr

/-- A property of the routes is kept by a request that puts only routes with
it into the table. -/
theorem routes_handle {P : Route → Prop} (hroutes : ∀ r ∈ db.routes, P r) {request : Request}
    (hputs : ∀ ws, Only (fun w => ∀ r, w.route = some r → P r)
      (request.operation.run env settings db ws)) :
    ∀ r ∈ ((handle env settings request db).store db).routes, P r := by
  unfold Outcome.store
  cases hwrite : (handle env settings request db).write with
  | none => exact hroutes
  | some w =>
      obtain ⟨outcome, hok, hw⟩ := write_ofHandler hwrite
      obtain ⟨m, _, hok⟩ := exists_of_bind_eq_ok hok
      obtain ⟨m', _, hrun⟩ := exists_of_bind_eq_ok hok
      intro r hr
      rcases mem_routes_apply hr with hold | hput
      · exact hroutes r hold
      · exact hputs _ outcome w hrun hw r hput

/-- A request whose body has been validated leaves valid routes. -/
theorem validRoutes_handle (hroutes : ∀ r ∈ db.routes, ValidRoute compiles r) {request : Request}
    (hvalid : request.operation.Validated compiles) :
    ∀ r ∈ ((handle env settings request db).store db).routes, ValidRoute compiles r := by
  refine routes_handle hroutes (fun ws outcome w hrun hw r hput => ?_)
  have hputs := putsValid_run hroutes request.operation hvalid outcome w hrun hw
  cases w with
  | insertRoute route | updateRoute route =>
      obtain rfl := Option.some.inj hput
      exact hputs
  | insertEndpoint _ | updateEndpoint _ | deleteEndpoint _ | deleteRoute _ | updateEvent _ =>
      cases hput

end Handlers

/-! ## Writing back what a route shows -/

/-- The fields that `RouteOut` and `RouteUpdate` have in common, each sent or not. -/
structure RouteFields where
  name : Bool := false
  url : Bool := false
  method : Bool := false
  headers : Bool := false
  transformPipeline : Bool := false
  timeoutMs : Bool := false
  maxRetries : Bool := false
  retryBackoffMs : Bool := false
  isActive : Bool := false
  rateLimitRpm : Bool := false
  filterExpression : Bool := false

def sentField {α : Type} (sent : Bool) (value : Option α) : Field α :=
  if sent then some value else none

/-- The body of an update with the values of an answer. -/
def RouteFields.ofOut (sent : RouteFields) (out : RouteOut) : RouteUpdate where
  name := sentField sent.name (some out.name)
  url := sentField sent.url (some out.url)
  method := sentField sent.method (some out.method)
  headers := sentField sent.headers out.headers
  transformPipeline := sentField sent.transformPipeline out.transformPipeline
  timeoutMs := sentField sent.timeoutMs (some out.timeoutMs)
  maxRetries := sentField sent.maxRetries (some out.maxRetries)
  retryBackoffMs := sentField sent.retryBackoffMs (some out.retryBackoffMs)
  isActive := sentField sent.isActive (some out.isActive)
  rateLimitRpm := sentField sent.rateLimitRpm out.rateLimitRpm
  filterExpression := sentField sent.filterExpression out.filterExpression

/-- No header of the route is shown otherwise than it is. -/
def ShownAsIs (route : Route) : Prop :=
  ∀ h ∈ route.headers.getD [], lower h.1 ∈ sensitiveHeaderNames → h.2 = "***REDACTED***"

/-- The route with the headers it shows, if headers are sent. -/
def RouteFields.writtenBack (sent : RouteFields) (route : Route) : Route :=
  { route with headers := if sent.headers then redactHeaders route.headers else route.headers }

variable {sent : RouteFields} {route : Route} {out : RouteOut}

theorem redactHeaders_eq_self_iff : redactHeaders route.headers = route.headers ↔
    ShownAsIs route := by
  unfold redactHeaders ShownAsIs
  cases route.headers with
  | none => simp
  | some items =>
      have hmap : ∀ f : String × String → String × String,
          items.map f = items ↔ ∀ h ∈ items, f h = h := by
        intro f
        have hinj : items.map f = items.map id ↔ ∀ h ∈ items, f h = h := List.map_inj_left
        rwa [List.map_id] at hinj
      rw [Option.map_some, Option.some.injEq, Option.getD_some, hmap]
      apply forall₂_congr
      intro h _
      by_cases hsensitive : lower h.1 ∈ sensitiveHeaderNames
      · simp only [hsensitive, if_true, forall_const, Prod.ext_iff, true_and]
        exact eq_comm
      · simp [hsensitive]

theorem writtenBack_eq_iff :
    sent.writtenBack route = route ↔ sent.headers = false ∨ ShownAsIs route := by
  rw [← redactHeaders_eq_self_iff]
  unfold RouteFields.writtenBack
  cases hsent : sent.headers with
  | false => simp
  | true =>
      constructor
      · intro h
        exact Or.inr (congrArg Route.headers h)
      · rintro (h | h)
        · cases h
        · rw [if_pos rfl, h]

/-- A valid route shows its fields as they are, apart from the headers. -/
theorem routeOut_of_valid (h : ValidRoute compiles route)
    (hout : routeOut compiles route = .ok out) :
    out = {
      id := route.id
      name := route.name
      url := route.url
      method := route.method
      isActive := route.isActive
      timeoutMs := route.timeoutMs
      maxRetries := route.maxRetries
      createdAt := route.createdAt
      rateLimitRpm := route.rateLimitRpm
      filterExpression := route.filterExpression
      transformPipeline := route.transformPipeline
      headers := redactHeaders route.headers
      retryBackoffMs := route.retryBackoffMs } := by
  unfold routeOut at hout
  have hpipeline := h.pipeline
  cases hsteps : route.transformPipeline with
  | none =>
      rw [hsteps] at hout
      exact (Except.ok.inj hout).symm
  | some steps =>
      rw [hsteps] at hout hpipeline
      obtain ⟨dumps, hdumps, heq⟩ := Option.map_eq_some_iff.mp hpipeline
      obtain rfl := Option.some.inj heq
      dsimp only at hout
      rw [hdumps] at hout
      exact (Except.ok.inj hout).symm

/-- The values pass the validation they have been through. -/
theorem validate_ofOut (h : ValidRoute compiles route)
    (hout : routeOut compiles route = .ok out) :
    (sent.ofOut out).validate compiles = some (sent.ofOut out) := by
  obtain rfl := routeOut_of_valid h hout
  have hpipeline : validSent (validPipeline compiles)
      (sentField sent.transformPipeline route.transformPipeline) =
        some (sentField sent.transformPipeline route.transformPipeline) := by
    cases hsent : sent.transformPipeline with
    | false => rfl
    | true => exact congrArg (Option.map some) h.pipeline
  have hfilter : validFilter compiles
      ((sentField sent.filterExpression route.filterExpression).getD none) = true := by
    cases hsent : sent.filterExpression with
    | false => rfl
    | true => exact h.filter
  unfold RouteUpdate.validate RouteFields.ofOut
  dsimp only
  rw [hpipeline]
  exact if_pos hfilter

theorem setColumn_sentField {α : Type} (sent : Bool) (old : α) :
    setColumn old (sentField sent (some old)) = .ok old := by
  cases sent <;> rfl

theorem getD_sentField {α : Type} (sent : Bool) (value : Option α) :
    (sentField sent value).getD value = value := by
  cases sent <;> rfl

theorem patchRoute_ofOut (h : ValidRoute compiles route)
    (hout : routeOut compiles route = .ok out) :
    patchRoute (sent.ofOut out) route = .ok (sent.writtenBack route) := by
  obtain rfl := routeOut_of_valid h hout
  have hheaders : (sentField sent.headers (redactHeaders route.headers)).getD route.headers =
      if sent.headers then redactHeaders route.headers else route.headers := by
    cases sent.headers <;> rfl
  unfold patchRoute RouteFields.ofOut RouteFields.writtenBack
  simp only [setColumn_sentField, getD_sentField, hheaders]
  rfl

section Handlers

variable {env : Env} {settings : Settings} {db : Database} {m : WorkspaceMembership}
  {caller : Except Failure UUID} {workspaceId text : String}

/-- The routes of an answer, if it has any. -/
def Outcome.routes (outcome : Outcome) : List RouteOut :=
  match outcome.response with
  | .ok (_, .routes outs) => outs
  | _ => []

theorem exists_route_of_listed {reader : Except Failure UUID} {out : RouteOut}
    (h : out ∈ (handle env settings ⟨reader, workspaceId, .listRoutes text⟩ db).routes) :
    ∃ r ∈ db.routes, routeOut env.compiles r = .ok out := by
  unfold handle at h
  generalize hresult : (getWorkspaceMembership db reader workspaceId >>= _) = result at h
  cases result with
  | error failure => cases h
  | ok outcome =>
      obtain ⟨m, _, hok⟩ := exists_of_bind_eq_ok hresult
      obtain ⟨m', _, hok⟩ := exists_of_bind_eq_ok hok
      obtain ⟨id, _, hok⟩ := exists_of_bind_eq_ok hok
      obtain ⟨ep, _, hok⟩ := exists_of_bind_eq_ok hok
      obtain ⟨outs, houts, hok⟩ := exists_of_bind_eq_ok hok
      obtain rfl := Except.ok.inj hok
      obtain ⟨r, hr, hshown⟩ := Fallible.exists_mem_of_mapM houts out h
      exact ⟨r, (List.mem_filter.mp (mem_orderBy.mp hr)).1, hshown⟩

theorem updateRoute_of_found {ws id : UUID} {body : RouteUpdate}
    (hparse : UUID.parse text = some id) (hfound : routeOr404 db ws id = .ok route) :
    updateRoute env settings db ws text (some body) =
      (validatePatchedUrl env settings body.url >>= fun _ =>
        patchRoute body route >>= fun route' =>
          commit env db (.updateRoute route') >>= fun _ =>
            pure (respond 200 (.updateRoute route')
              ((routeOut env.compiles route').map .route))) := by
  simp only [updateRoute, validBody, Fallible.ok_bind, parseUuid_of_parse hparse, hfound]

theorem run_updateRoute_ofOut (hdb : Consistent db) (hroute : route ∈ db.routes) {ws : UUID}
    (howned : Owned db ws route.endpointId) (hparse : UUID.parse text = some route.id)
    (hvalid : ValidRoute env.compiles route) (hout : routeOut env.compiles route = .ok out) :
    (Operation.updateRoute text ((sent.ofOut out).validate env.compiles)).run env settings db ws =
      (validatePatchedUrl env settings (sentField sent.url (some route.url)) >>= fun _ =>
        commit env db (.updateRoute (sent.writtenBack route)) >>= fun _ =>
          pure (respond 200 (.updateRoute (sent.writtenBack route))
            ((routeOut env.compiles (sent.writtenBack route)).map .route))) := by
  have hfound : routeOr404 db ws route.id = .ok route :=
    (routeOr404_eq_ok_iff hdb).mpr ⟨⟨hroute, howned⟩, rfl⟩
  have hurl : (sent.ofOut out).url = sentField sent.url (some route.url) := by
    obtain rfl := routeOut_of_valid hvalid hout
    rfl
  rw [Operation.run, validate_ofOut hvalid hout, updateRoute_of_found hparse hfound, hurl,
    patchRoute_ofOut hvalid hout]
  rfl

theorem routeById_put (hdb : Consistent db) (hroute : route ∈ db.routes) {route' : Route}
    (hid : route.id = route'.id) :
    routeById ((Write.updateRoute route').apply db) route.id = some route' := by
  have hkeys : (Rows.put Route.id route' db.routes).map Route.id = db.routes.map Route.id :=
    Rows.map_key_put
  have hmem : route' ∈ Rows.put Route.id route' db.routes :=
    (Rows.mem_put_iff (Rows.key_mem_of_old hroute hid)).mpr (Or.inl rfl)
  exact (Rows.get_eq_some_iff (hkeys ▸ hdb.routes_nodup)).mpr ⟨hmem, hid.symm⟩

/-- The update of an admin leaves the route as it is if it has no header to
redact, or sends none, or does not get past the check of its URL. -/
theorem unchanged_iff (hdb : Consistent db) (hroute : route ∈ db.routes)
    (howned : Owned db m.workspaceId route.endpointId) (hparse : UUID.parse text = some route.id)
    (hvalid : ValidRoute env.compiles route) (hout : routeOut env.compiles route = .ok out)
    (hcommit : env.commit = .ok ())
    (hmember : getWorkspaceMembership db caller workspaceId = .ok m)
    (hrole : requireWorkspaceRole .admin m = .ok m) :
    routeById ((handle env settings ⟨caller, workspaceId,
        .updateRoute text ((sent.ofOut out).validate env.compiles)⟩ db).store db) route.id =
      some route ↔
      sent.headers = false ∨ ShownAsIs route ∨
        (sent.url = true ∧ validateDeliveryUrl env.url settings route.url ≠ .ok ()) := by
  have hfound : routeById db route.id = some route :=
    (Rows.get_eq_some_iff hdb.routes_nodup).mpr ⟨hroute, rfl⟩
  have hhandle : handle env settings ⟨caller, workspaceId,
        .updateRoute text ((sent.ofOut out).validate env.compiles)⟩ db =
      .ofHandler ((Operation.updateRoute text ((sent.ofOut out).validate env.compiles)).run env
        settings db m.workspaceId) := handle_of_admin rfl hmember hrole
  rw [run_updateRoute_ofOut hdb hroute howned hparse hvalid hout] at hhandle
  rw [← or_assoc, ← writtenBack_eq_iff]
  cases hurl : validatePatchedUrl env settings (sentField sent.url (some route.url)) with
  | error failure =>
      rw [hurl] at hhandle
      rw [hhandle]
      apply iff_of_true hfound
      right
      cases hsent : sent.url with
      | false =>
          rw [hsent] at hurl
          cases hurl
      | true =>
          rw [hsent] at hurl
          have hfails : validateDeliveryUrl env.url settings route.url = .error failure := hurl
          exact ⟨rfl, by simp [hfails]⟩
  | ok _ =>
      have hpasses : ¬ (sent.url = true ∧
          validateDeliveryUrl env.url settings route.url ≠ .ok ()) := by
        rintro ⟨hsent, hfails⟩
        rw [hsent] at hurl
        exact hfails hurl
      have hcheck : (Write.updateRoute (sent.writtenBack route)).check db = .ok () :=
        checkColumns_eq_ok_iff.mpr hvalid.fits
      rcases commit_cases hcommit with ⟨_, hok⟩ | ⟨_, herr, _⟩
      · rw [hurl] at hhandle
        change handle env settings _ db = .ofHandler (commit env db _ >>= _) at hhandle
        rw [hok] at hhandle
        rw [hhandle, or_iff_left hpasses]
        have hafter : routeById ((Write.updateRoute (sent.writtenBack route)).apply db) route.id =
            some (sent.writtenBack route) := routeById_put hdb hroute rfl
        show routeById ((Write.updateRoute (sent.writtenBack route)).apply db) route.id = _ ↔ _
        rw [hafter, Option.some.injEq]
      · rw [hcheck] at herr
        cases herr

end Handlers

end WebhookRelay.Api
