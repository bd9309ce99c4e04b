import WebhookRelay.Api.RouteChanges
import WebhookRelay.Foundation.Observation

/-!
# What the REST API keeps to itself

Some columns are written, by the API or by the workers, and never shown: the
secret of an endpoint and its address list, the values of the sensitive
headers of a route, what an attempt sent and what it was answered, the outbox,
the users. `blind` takes them out of the tables. Every handler does on the
blind tables what it does on the full ones (`Veiled`), so no sequence of
requests tells two stores apart that differ in nothing else.
-/

namespace WebhookRelay.Api

open Foundation Fallible

/-! ## The tables without them -/

/-- `updated_at` tells whether a new secret is the old one. -/
def blindEndpoint (ep : Endpoint) : Endpoint :=
  { ep with hmacSecret := "", ipAllowlist := none, updatedAt := 0 }

def blindRoute (route : Route) : Route := { route with headers := redactHeaders route.headers }

def blindAttempt (a : DeliveryAttempt) : DeliveryAttempt :=
  { a with requestBody := .null, responseBody := none }

def blind (db : Database) : Database :=
  { db with
    endpoints := db.endpoints.map blindEndpoint
    routes := db.routes.map blindRoute
    attempts := db.attempts.map blindAttempt
    outbox := []
    users := [] }

def Write.blind : Write → Write
  | .insertEndpoint ep => .insertEndpoint (blindEndpoint ep)
  | .updateEndpoint ep => .updateEndpoint (blindEndpoint ep)
  | .insertRoute route => .insertRoute (blindRoute route)
  | .updateRoute route => .updateRoute (blindRoute route)
  | .deleteEndpoint id => .deleteEndpoint id
  | .deleteRoute id => .deleteRoute id
  | .updateEvent event => .updateEvent event

def Outcome.blind (outcome : Outcome) : Outcome :=
  { outcome with write := outcome.write.map Write.blind }

/-- The secrets a store holds fit their column. -/
def SecretsFit (db : Database) : Prop := ∀ ep ∈ db.endpoints, fitsVarchar 255 ep.hmacSecret = true

theorem redactHeaders_idem (headers : Option Headers) :
    redactHeaders (redactHeaders headers) = redactHeaders headers := by
  unfold redactHeaders
  rw [Option.map_map]
  congr 1
  funext items
  dsimp only [Function.comp_apply]
  rw [List.map_map]
  apply List.map_congr_left
  intro h _
  dsimp only [Function.comp_apply]
  by_cases hname : lower h.1 ∈ sensitiveHeaderNames
  · rw [if_pos hname, if_pos hname]
  · rw [if_neg hname, if_neg hname]

section

variable (ep : Endpoint) (route : Route) (a : DeliveryAttempt)

@[simp] theorem blindEndpoint_id : (blindEndpoint ep).id = ep.id := rfl

@[simp] theorem blindEndpoint_workspaceId : (blindEndpoint ep).workspaceId = ep.workspaceId := rfl

@[simp] theorem blindRoute_id : (blindRoute route).id = route.id := rfl

@[simp] theorem blindRoute_endpointId : (blindRoute route).endpointId = route.endpointId := rfl

@[simp] theorem blindAttempt_routeId : (blindAttempt a).routeId = a.routeId := rfl

@[simp] theorem routeOut_blind (compiles : String → Bool) :
    routeOut compiles (blindRoute route) = routeOut compiles route := by
  unfold routeOut blindRoute
  dsimp only
  rw [redactHeaders_idem]

end

/-! ## Writing and blinding -/

theorem apply_blind (w : Write) (db : Database) : w.blind.apply (blind db) = blind (w.apply db) := by
  cases w with
  | insertEndpoint ep => simp [Write.blind, Write.apply, blind]
  | insertRoute route => simp [Write.blind, Write.apply, blind]
  | updateEvent event => rfl
  | updateEndpoint ep =>
      simp only [Write.blind, Write.apply, blind]
      rw [Rows.put_map blindEndpoint_id]
  | updateRoute route =>
      simp only [Write.blind, Write.apply, blind]
      rw [Rows.put_map blindRoute_id]
  | deleteRoute id =>
      simp only [Write.blind, Write.apply, blind]
      rw [Rows.remove_map blindRoute_id]
  | deleteEndpoint id =>
      simp only [Write.blind, Write.apply, blind]
      rw [Rows.remove_map blindEndpoint_id, List.filter_map]
      rfl

theorem store_blind (outcome : Outcome) (db : Database) :
    outcome.blind.store (blind db) = blind (outcome.store db) := by
  unfold Outcome.store Outcome.blind
  cases outcome.write with
  | none => rfl
  | some w => exact apply_blind w db

/-- The keys a constraint looks at are all there. -/
theorem check_blind (w : Write) (db : Database) : w.check (blind db) = w.check db := by
  have hendpoints : (blind db).endpoints.map Endpoint.id = db.endpoints.map Endpoint.id := by
    simp [blind]
  have hroutes : (blind db).routes.map Route.id = db.routes.map Route.id := by
    simp [blind]
  have hattempts : (blind db).attempts.map DeliveryAttempt.routeId =
      db.attempts.map DeliveryAttempt.routeId := by
    simp [blind]
  cases w with
  | insertEndpoint ep => simp only [Write.check, hendpoints]
  | updateEndpoint ep => rfl
  | insertRoute route => simp only [Write.check, hendpoints, hroutes]
  | updateRoute route => rfl
  | deleteRoute id => simp only [Write.check, hattempts]
  | updateEvent event => rfl
  | deleteEndpoint id =>
      have hcascade : (∃ r ∈ (blind db).routes, r.endpointId = id ∧
            r.id ∈ (blind db).attempts.map DeliveryAttempt.routeId) ↔
          ∃ r ∈ db.routes, r.endpointId = id ∧ r.id ∈ db.attempts.map DeliveryAttempt.routeId := by
        rw [hattempts]
        simp [blind]
      have hevents : (blind db).events = db.events := rfl
      simp only [Write.check, hcascade, hevents]

/-! ## Look-ups -/

section

variable (db : Database) (ws id : UUID)

theorem endpointById_blind : endpointById (blind db) id = (endpointById db id).map blindEndpoint :=
  Rows.get_map blindEndpoint_id db.endpoints id

theorem routeById_blind : routeById (blind db) id = (routeById db id).map blindRoute :=
  Rows.get_map blindRoute_id db.routes id

theorem endpointOr404_blind :
    endpointOr404 (blind db) ws id = (endpointOr404 db ws id).map blindEndpoint := by
  unfold endpointOr404
  rw [endpointById_blind]
  cases endpointById db id with
  | none => rfl
  | some ep =>
      by_cases hws : ep.workspaceId = ws <;> simp [hws, Except.map]

theorem routeOr404_blind : routeOr404 (blind db) ws id = (routeOr404 db ws id).map blindRoute := by
  unfold routeOr404
  rw [routeById_blind]
  cases routeById db id with
  | none => rfl
  | some route =>
      simp only [Option.map_some, blindRoute_endpointId, endpointById_blind]
      cases endpointById db route.endpointId with
      | none => rfl
      | some ep =>
          by_cases hws : ep.workspaceId = ws <;> simp [hws, Except.map]

theorem eventOr404_blind : eventOr404 (blind db) ws id = eventOr404 db ws id := by
  have hevent : eventById (blind db) id = eventById db id := rfl
  unfold eventOr404
  rw [hevent]
  cases eventById db id with
  | none => rfl
  | some event =>
      simp only [endpointById_blind]
      cases endpointById db event.endpointId <;> rfl

theorem workspaceEndpointIds_blind :
    workspaceEndpointIds (blind db) ws = workspaceEndpointIds db ws := by
  unfold workspaceEndpointIds blind
  rw [List.filter_map, List.map_map]
  rfl

end

/-! ## One handler on both -/

/-- The handlers come to the same, as far as anything is shown of it. -/
def Veiled (r₁ r₂ : Except Failure Outcome) : Prop := r₁.map Outcome.blind = r₂.map Outcome.blind

variable {env : Env} {settings : Settings} {db : Database} {ws : UUID}

namespace Veiled

/-- A look-up that finds the row without its secrets. -/
theorem bind {α : Type} {x₁ x₂ : Except Failure α} {f₁ f₂ : α → Except Failure Outcome} {g : α → α}
    (hx : x₁ = x₂.map g) (h : ∀ a, x₂ = .ok a → Veiled (f₁ (g a)) (f₂ a)) :
    Veiled (x₁ >>= f₁) (x₂ >>= f₂) := by
  subst hx
  cases hx : x₂ with
  | error failure => rfl
  | ok a => exact h a hx

theorem bind_same {α : Type} {x : Except Failure α} {f₁ f₂ : α → Except Failure Outcome}
    (h : ∀ a, x = .ok a → Veiled (f₁ a) (f₂ a)) : Veiled (x >>= f₁) (x >>= f₂) := by
  cases hx : x with
  | error failure => rfl
  | ok a => exact h a hx

theorem commit {w₁ w₂ : Write} {status : ℕ} {body₁ body₂ : Except Failure Body}
    (hcheck : w₁.check db = w₂.check db) (hwrite : w₁.blind = w₂.blind) (hbody : body₁ = body₂) :
    Veiled (commit env (blind db) w₁ >>= fun _ => pure (respond status w₁ body₁))
      (commit env db w₂ >>= fun _ => pure (respond status w₂ body₂)) := by
  have hcommit : Api.commit env (blind db) w₁ = Api.commit env db w₂ := by
    unfold Api.commit
    rw [check_blind, hcheck]
  rw [hcommit, hbody]
  apply bind_same
  intro _ _
  show Except.ok _ = Except.ok _
  simp only [Outcome.blind, respond, Option.map_some, hwrite]

end Veiled

theorem veiled_listEndpoints : Veiled (listEndpoints env (blind db) ws) (listEndpoints env db ws) := by
  show Veiled (List.mapM _ (orderBy _ ((db.endpoints.map blindEndpoint).filter _)) >>= _) _
  rw [orderBy_filter_map blindEndpoint (fun _ => rfl) (fun _ => rfl), List.mapM_map]
  exact rfl

theorem veiled_createEndpoint (body : Option EndpointCreate) :
    Veiled (createEndpoint env (blind db) ws body) (createEndpoint env db ws body) := by
  apply Veiled.bind_same
  intro body _
  exact Veiled.commit rfl rfl rfl

theorem veiled_getEndpoint (endpointId : String) :
    Veiled (getEndpoint (blind db) ws endpointId) (getEndpoint db ws endpointId) := by
  apply Veiled.bind_same
  intro id _
  apply Veiled.bind (endpointOr404_blind db ws id)
  intro ep _
  exact rfl

theorem blindEndpoint_touch (now : Time) (old ep : Endpoint) :
    blindEndpoint (touchEndpoint now old ep) = blindEndpoint ep := by
  unfold touchEndpoint
  split <;> rfl

theorem endpointFits_touch (now : Time) (old ep : Endpoint) :
    endpointFits (touchEndpoint now old ep) = endpointFits ep := by
  unfold touchEndpoint
  split <;> rfl

theorem endpointOut_touch (now : Time) (old ep : Endpoint) :
    endpointOut (touchEndpoint now old ep) = endpointOut ep := by
  unfold touchEndpoint
  split <;> rfl

/-- The column test passes the stored secret as it passes an empty one. -/
theorem veiled_updateEndpoint (hfit : SecretsFit db) (endpointId : String)
    (body : Option EndpointUpdate) :
    Veiled (updateEndpoint env (blind db) ws endpointId body)
      (updateEndpoint env db ws endpointId body) := by
  apply Veiled.bind_same
  intro body _
  apply Veiled.bind_same
  intro id _
  apply Veiled.bind (endpointOr404_blind db ws id)
  intro old hold
  have hsecret := hfit old (endpoint_mem_of_endpointOr404 hold)
  apply Veiled.commit
  · simp only [Write.check, endpointFits_touch]
    simp only [endpointFits, patchEndpoint, blindEndpoint, hsecret]
    rfl
  · simp only [Write.blind, blindEndpoint_touch]
    rfl
  · simp only [endpointOut_touch]
    rfl

theorem veiled_rotateSecret (endpointId : String) :
    Veiled (rotateSecret env (blind db) ws endpointId) (rotateSecret env db ws endpointId) := by
  apply Veiled.bind_same
  intro id _
  apply Veiled.bind (endpointOr404_blind db ws id)
  intro old _
  apply Veiled.commit
  · simp only [Write.check, endpointFits_touch]
    rfl
  · simp only [Write.blind, blindEndpoint_touch]
    rfl
  · rfl

theorem veiled_deleteEndpoint (endpointId : String) :
    Veiled (deleteEndpoint env (blind db) ws endpointId) (deleteEndpoint env db ws endpointId) := by
  apply Veiled.bind_same
  intro id _
  apply Veiled.bind (endpointOr404_blind db ws id)
  intro ep _
  exact Veiled.commit rfl rfl rfl

theorem veiled_listRoutes (endpointId : String) :
    Veiled (listRoutes env (blind db) ws endpointId) (listRoutes env db ws endpointId) := by
  apply Veiled.bind_same
  intro id _
  apply Veiled.bind (endpointOr404_blind db ws id)
  intro _ _
  show Veiled (List.mapM _ (orderBy _ ((db.routes.map blindRoute).filter _)) >>= _) _
  rw [orderBy_filter_map blindRoute (fun _ => rfl) (fun _ => rfl), List.mapM_map]
  simp only [Function.comp_def, routeOut_blind]
  exact rfl

theorem veiled_addRoute (endpointId : String) (body : Option RouteCreate) :
    Veiled (addRoute env settings (blind db) ws endpointId body)
      (addRoute env settings db ws endpointId body) := by
  apply Veiled.bind_same
  intro body _
  apply Veiled.bind_same
  intro id _
  apply Veiled.bind_same
  intro _ _
  apply Veiled.bind (endpointOr404_blind db ws id)
  intro ep _
  exact Veiled.commit rfl rfl rfl

/-- A patch of a route whose headers are hidden: headers that are not sent stay
hidden. -/
theorem patchRoute_blind (body : RouteUpdate) (route : Route) :
    patchRoute body (blindRoute route) = (patchRoute body route).map (fun r =>
      { r with headers := body.headers.getD (redactHeaders route.headers) }) := by
  unfold patchRoute
  simp only [map_bind]
  rfl

theorem blindRoute_over (body : RouteUpdate) (route : Route) :
    blindRoute { body.over route with headers := body.headers.getD (redactHeaders route.headers) } =
      blindRoute (body.over route) := by
  unfold blindRoute RouteUpdate.over
  cases body.headers with
  | none =>
      simp only [Option.getD_none]
      rw [redactHeaders_idem]
  | some headers => rfl

theorem veiled_updateRoute (routeId : String) (body : Option RouteUpdate) :
    Veiled (updateRoute env settings (blind db) ws routeId body)
      (updateRoute env settings db ws routeId body) := by
  apply Veiled.bind_same
  intro body _
  apply Veiled.bind_same
  intro id _
  apply Veiled.bind (routeOr404_blind db ws id)
  intro old _
  apply Veiled.bind_same
  intro _ _
  apply Veiled.bind (patchRoute_blind body old)
  intro route hpatch
  obtain rfl : route = body.over old := by
    rcases patchRoute_cases body old with ⟨-, hover⟩ | ⟨-, exc, hraised⟩
    · exact Except.ok.inj (hpatch.symm.trans hover)
    · cases hpatch.symm.trans hraised
  apply Veiled.commit
  · exact rfl
  · exact congrArg Write.updateRoute (blindRoute_over body old)
  · rw [← routeOut_blind, blindRoute_over, routeOut_blind]

theorem veiled_deleteRoute (routeId : String) :
    Veiled (deleteRoute env (blind db) ws routeId) (deleteRoute env db ws routeId) := by
  apply Veiled.bind_same
  intro id _
  apply Veiled.bind (routeOr404_blind db ws id)
  intro route _
  exact Veiled.commit rfl rfl rfl

theorem veiled_listEvents (endpointId : Option String) (limit offset : ℤ) :
    Veiled (listEvents env (blind db) ws endpointId limit offset)
      (listEvents env db ws endpointId limit offset) := by
  have hevents : (blind db).events = db.events := rfl
  unfold listEvents
  rw [workspaceEndpointIds_blind, hevents]
  exact rfl

theorem veiled_getEvent (eventId : String) :
    Veiled (getEvent (blind db) ws eventId) (getEvent db ws eventId) := by
  unfold getEvent
  simp only [eventOr404_blind]
  exact rfl

theorem veiled_getEventAttempts (eventId : String) :
    Veiled (getEventAttempts env (blind db) ws eventId) (getEventAttempts env db ws eventId) := by
  apply Veiled.bind_same
  intro id _
  rw [eventOr404_blind]
  apply Veiled.bind_same
  intro _ _
  show Veiled (pure (Outcome.answer 200 (.attempts
    ((orderBy _ ((db.attempts.map blindAttempt).filter _)).map deliveryAttemptOut)))) _
  rw [orderBy_filter_map blindAttempt (fun _ => rfl) (fun _ => rfl), List.map_map]
  exact rfl

theorem veiled_replayEvent (eventId : String) :
    Veiled (replayEvent env settings (blind db) ws eventId)
      (replayEvent env settings db ws eventId) := by
  unfold replayEvent
  simp only [eventOr404_blind]
  exact rfl

theorem veiled_discardDlqEvent (eventId : String) :
    Veiled (discardDlqEvent env (blind db) ws eventId) (discardDlqEvent env db ws eventId) := by
  apply Veiled.bind_same
  intro id _
  rw [eventOr404_blind]
  apply Veiled.bind_same
  intro event _
  by_cases hdiscarded : event.isDiscarded = true
  · rw [if_pos hdiscarded, if_pos hdiscarded]
    exact rfl
  · rw [if_neg hdiscarded, if_neg hdiscarded]
    exact Veiled.commit rfl rfl rfl

theorem veiled_restoreDlqEvent (eventId : String) :
    Veiled (restoreDlqEvent env (blind db) ws eventId) (restoreDlqEvent env db ws eventId) := by
  apply Veiled.bind_same
  intro id _
  rw [eventOr404_blind]
  apply Veiled.bind_same
  intro event _
  exact Veiled.commit rfl rfl rfl

/-! ### The dead-letter list -/

def blindRow (row : Event × DeliveryAttempt) : Event × DeliveryAttempt := (row.1, blindAttempt row.2)

section

variable (attempts : List DeliveryAttempt)

theorem maxAttempt_blind (eventId : UUID) :
    maxAttempt (attempts.map blindAttempt) eventId = maxAttempt attempts eventId := by
  unfold maxAttempt
  rw [List.filter_map, List.map_map]
  rfl

theorem lastAttempts_blind (eventId : UUID) :
    lastAttempts (attempts.map blindAttempt) eventId =
      (lastAttempts attempts eventId).map blindAttempt := by
  unfold lastAttempts
  rw [List.filter_map, maxAttempt_blind]
  rfl

theorem attemptCount_blind (eventId : UUID) :
    attemptCount (attempts.map blindAttempt) eventId = attemptCount attempts eventId := by
  unfold attemptCount
  rw [List.countP_map]
  rfl

theorem dlqEventOut_blind (row : Event × DeliveryAttempt) :
    dlqEventOut (attempts.map blindAttempt) (blindRow row) = dlqEventOut attempts row := by
  unfold dlqEventOut
  rw [attemptCount_blind]
  rfl

end

theorem dlqRows_blind (ids : List UUID) (includeDiscarded : Bool) :
    dlqRows (blind db) ids includeDiscarded =
      (dlqRows db ids includeDiscarded).map blindRow := by
  unfold dlqRows
  rw [List.map_flatMap]
  simp only [blind, lastAttempts_blind, List.map_map]
  rfl

theorem runPage_map {α : Type} (f : α → α) (limit offset : ℤ) (rows : List α) :
    runPage limit offset (rows.map f) = (runPage limit offset rows).map (List.map f) := by
  unfold runPage
  split
  · rfl
  · unfold page
    rw [← List.map_drop, ← List.map_take]
    rfl

theorem veiled_listDlq (includeDiscarded : Bool) (limit offset : ℤ) :
    Veiled (listDlq env (blind db) ws includeDiscarded limit offset)
      (listDlq env db ws includeDiscarded limit offset) := by
  apply Veiled.bind_same
  intro _ _
  dsimp only
  rw [workspaceEndpointIds_blind, dlqRows_blind]
  by_cases hnone : workspaceEndpointIds db ws = []
  · rw [if_pos hnone, if_pos hnone]
    exact rfl
  · rw [if_neg hnone, if_neg hnone, orderBy_map blindRow (fun _ => rfl)]
    apply Veiled.bind (runPage_map blindRow limit offset _)
    intro rows _
    have hout : rows.map (dlqEventOut (blind db).attempts ∘ blindRow) =
        rows.map (dlqEventOut db.attempts) := by
      apply List.map_congr_left
      intro row _
      exact dlqEventOut_blind db.attempts row
    rw [List.map_map, hout]
    exact rfl

/-! ## The column of the secret -/

/-- What a write puts there. -/
def Write.SecretFits : Write → Prop
  | .insertEndpoint ep | .updateEndpoint ep => fitsVarchar 255 ep.hmacSecret = true
  | _ => True

theorem secret_fits_of_endpointFits {ep : Endpoint} (h : checkColumns (endpointFits ep) = .ok ()) :
    fitsVarchar 255 ep.hmacSecret = true := by
  have hfits := checkColumns_eq_ok_iff.mp h
  unfold endpointFits at hfits
  rw [Bool.and_eq_true, Bool.and_eq_true] at hfits
  exact hfits.1.2

theorem secretFits_of_check {w : Write} (h : w.check db = .ok ()) : w.SecretFits := by
  cases w with
  | insertEndpoint ep =>
      rw [Write.check] at h
      split at h
      · cases h
      · exact secret_fits_of_endpointFits h
  | updateEndpoint ep => exact secret_fits_of_endpointFits h
  | insertRoute _ | updateRoute _ | deleteEndpoint _ | deleteRoute _ | updateEvent _ => trivial

/-- Only three operations write an endpoint. -/
theorem secretFits_run (operation : Operation) :
    Only Write.SecretFits (operation.run env settings db ws) := by
  intro outcome w hok hw
  have hmakes := makes_run operation outcome w hok hw
  have hcreate : ∀ body, Only Write.SecretFits (createEndpoint env db ws body) := fun _ =>
    Only.bind (fun _ _ => Only.commit secretFits_of_check)
  have hupdate : ∀ id body, Only Write.SecretFits (updateEndpoint env db ws id body) := fun _ _ =>
    Only.bind (fun _ _ => Only.bind (fun _ _ => Only.bind (fun _ _ =>
      Only.commit secretFits_of_check)))
  have hrotate : ∀ id, Only Write.SecretFits (rotateSecret env db ws id) := fun _ =>
    Only.bind (fun _ _ => Only.bind (fun _ _ => Only.commit secretFits_of_check))
  cases w with
  | insertEndpoint ep =>
      cases operation with
      | createEndpoint body => exact hcreate body outcome _ hok hw
      | _ => exact hmakes.elim
  | updateEndpoint ep =>
      cases operation with
      | updateEndpoint id body => exact hupdate id body outcome _ hok hw
      | rotateSecret id => exact hrotate id outcome _ hok hw
      | _ => exact hmakes.elim
  | insertRoute _ | updateRoute _ | deleteEndpoint _ | deleteRoute _ | updateEvent _ => trivial

theorem secretsFit_apply (hfit : SecretsFit db) {w : Write} (h : w.SecretFits) :
    SecretsFit (w.apply db) := by
  intro ep hep
  cases w with
  | insertEndpoint new =>
      rcases List.mem_append.mp hep with hep | hep
      · exact hfit ep hep
      · rw [List.mem_singleton.mp hep]
        exact h
  | updateEndpoint new =>
      rcases Rows.mem_put hep with ⟨rfl, _⟩ | ⟨hep, _⟩
      · exact h
      · exact hfit ep hep
  | deleteEndpoint id => exact hfit ep (Rows.mem_remove_iff.mp hep).1
  | insertRoute _ | updateRoute _ | deleteRoute _ | updateEvent _ => exact hfit ep hep

theorem secretsFit_handle (env : Env) (settings : Settings) (hfit : SecretsFit db)
    (request : Request) : SecretsFit ((handle env settings request db).store db) := by
  unfold Outcome.store
  cases hwrite : (handle env settings request db).write with
  | none => exact hfit
  | some w =>
      obtain ⟨outcome, hok, hw⟩ := write_ofHandler hwrite
      obtain ⟨m, _, hok⟩ := exists_of_bind_eq_ok hok
      obtain ⟨m', _, hrun⟩ := exists_of_bind_eq_ok hok
      exact secretsFit_apply hfit (secretFits_run request.operation outcome w hrun hw)

/-! ## Any request, and any sequence of requests -/

theorem veiled_run (hfit : SecretsFit db) (operation : Operation) :
    Veiled (operation.run env settings (blind db) ws) (operation.run env settings db ws) := by
  cases operation with
  | listEndpoints => exact veiled_listEndpoints
  | createEndpoint body => exact veiled_createEndpoint body
  | getEndpoint endpointId => exact veiled_getEndpoint endpointId
  | updateEndpoint endpointId body => exact veiled_updateEndpoint hfit endpointId body
  | deleteEndpoint endpointId => exact veiled_deleteEndpoint endpointId
  | rotateSecret endpointId => exact veiled_rotateSecret endpointId
  | listRoutes endpointId => exact veiled_listRoutes endpointId
  | addRoute endpointId body => exact veiled_addRoute endpointId body
  | updateRoute routeId body => exact veiled_updateRoute routeId body
  | deleteRoute routeId => exact veiled_deleteRoute routeId
  | listEvents endpointId limit offset => exact veiled_listEvents endpointId limit offset
  | getEvent eventId => exact veiled_getEvent eventId
  | getEventAttempts eventId => exact veiled_getEventAttempts eventId
  | replayEvent eventId => exact veiled_replayEvent eventId
  | listDlq includeDiscarded limit offset => exact veiled_listDlq includeDiscarded limit offset
  | discardDlqEvent eventId => exact veiled_discardDlqEvent eventId
  | restoreDlqEvent eventId => exact veiled_restoreDlqEvent eventId

theorem ofHandler_blind {r₁ r₂ : Except Failure Outcome} (h : Veiled r₁ r₂) :
    (Outcome.ofHandler r₁).blind = (Outcome.ofHandler r₂).blind := by
  have hof : ∀ r, (Outcome.ofHandler r).blind = .ofHandler (r.map Outcome.blind) := by
    intro r
    cases r <;> rfl
  rw [hof, hof, h]

theorem handle_blind (env : Env) (settings : Settings) (hfit : SecretsFit db) (request : Request) :
    (handle env settings request (blind db)).blind = (handle env settings request db).blind := by
  apply ofHandler_blind
  apply Veiled.bind_same (x := getWorkspaceMembership db request.caller request.workspaceId)
  intro _ _
  apply Veiled.bind_same
  intro m _
  exact veiled_run hfit request.operation

/-- Two stores that differ in nothing that is shown. -/
structure Alike (db₁ db₂ : Database) : Prop where
  same : blind db₁ = blind db₂
  fit₁ : SecretsFit db₁
  fit₂ : SecretsFit db₂

/-- What a client and Kafka get to see of a request, and the store after it. -/
def serve (settings : Settings) (db : Database) (input : Env × Request) :
    (Except Failure (ℕ × Body) × List KafkaMessage) × Database :=
  let outcome := handle input.1 settings input.2 db
  ((outcome.response, outcome.published), outcome.store db)

theorem unseen_serve (settings : Settings) : Unseen (serve settings) Alike := by
  intro db₁ db₂ input h
  have hsame : (handle input.1 settings input.2 db₁).blind =
      (handle input.1 settings input.2 db₂).blind := by
    rw [← handle_blind input.1 settings h.fit₁, ← handle_blind input.1 settings h.fit₂, h.same]
  constructor
  · exact congrArg (fun outcome => (outcome.response, outcome.published)) hsame
  · refine ⟨?_, secretsFit_handle _ _ h.fit₁ _, secretsFit_handle _ _ h.fit₂ _⟩
    show blind ((handle _ _ _ db₁).store db₁) = blind ((handle _ _ _ db₂).store db₂)
    rw [← store_blind, ← store_blind, hsame, h.same]

/-- No requests tell the stores apart. -/
theorem answers_eq_of_blind_eq {db₁ db₂ : Database} (hsame : blind db₁ = blind db₂)
    (hfit₁ : SecretsFit db₁) (hfit₂ : SecretsFit db₂) (settings : Settings)
    (inputs : List (Env × Request)) :
    answers (serve settings) db₁ inputs = answers (serve settings) db₂ inputs :=
  (unseen_serve settings).answers_eq ⟨hsame, hfit₁, hfit₂⟩ inputs

/-- An endpoint with one route, which sends a token along. -/
def keyedStore (secret token : String) : Database where
  endpoints := [{ ordersEndpoint with hmacSecret := secret }]
  routes := [{ foreignRoute with endpointId := 3, headers := some [("Authorization", token)] }]
  memberships := [adminMembership]

theorem blind_keyedStore (secret token : String) :
    blind (keyedStore secret token) = blind (keyedStore "" "***REDACTED***") := by
  have hname : lower "Authorization" ∈ sensitiveHeaderNames := by decide +kernel
  simp only [blind, keyedStore, List.map_cons, List.map_nil, blindEndpoint, blindRoute,
    redactHeaders, Option.map_some, hname, if_true]

theorem answers_eq_of_blind_eq_keyedStore :
    answers (serve {}) (keyedStore "whsec" "Bearer a")
        [(rotationEnv, ⟨.ok 1, adminMembership.workspaceId.str, .listRoutes ordersEndpoint.id.str⟩),
          (rotationEnv, rotation)] =
      answers (serve {}) (keyedStore "other" "Bearer b")
        [(rotationEnv, ⟨.ok 1, adminMembership.workspaceId.str, .listRoutes ordersEndpoint.id.str⟩),
          (rotationEnv, rotation)] := by
  refine answers_eq_of_blind_eq ?_ ?_ ?_ {} _
  · rw [blind_keyedStore, ← blind_keyedStore "other" "Bearer b"]
  · simp only [SecretsFit, keyedStore, List.forall_mem_singleton]
    decide
  · simp only [SecretsFit, keyedStore, List.forall_mem_singleton]
    decide

end WebhookRelay.Api
