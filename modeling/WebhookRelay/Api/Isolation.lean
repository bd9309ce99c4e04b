import WebhookRelay.Api.Tenancy

/-!
# Tenant isolation of the REST API

Two stores that agree on one workspace's rows, and the same request under that
workspace: `Isolated` says that a handler comes to the same in both, and that
what it writes stays within the workspace. It is built up along the handler:
look-ups and queries see the workspace's rows only, and what comes after them
is the same code on the same values.
-/

namespace WebhookRelay.Api

open Foundation

/-- What a handler commits stays within the workspace. -/
def Stays (db : Database) (ws : UUID) (result : Except Failure Outcome) : Prop :=
  ∀ outcome w, result = .ok outcome → outcome.write = some w →
    w.Within db ws ∧ w.check db = .ok ()

structure Isolated (ws : UUID) (db₁ db₂ : Database) (r₁ r₂ : Except Failure Outcome) : Prop where
  same : r₁ = r₂
  stays₁ : Stays db₁ ws r₁
  stays₂ : Stays db₂ ws r₂

/-- Two stores with the same rows of a workspace. -/
structure SameRows (ws : UUID) (db₁ db₂ : Database) : Prop where
  consistent₁ : Consistent db₁
  consistent₂ : Consistent db₂
  rows : ownRows db₁ ws = ownRows db₂ ws

/-- The identifier is in no table the API inserts into. -/
def New (db : Database) (id : UUID) : Prop :=
  id ∉ db.endpoints.map Endpoint.id ∧ id ∉ db.routes.map Route.id

variable {env : Env} {settings : Settings} {ws : UUID} {db₁ db₂ : Database}

namespace Isolated

variable {α : Type} {x : Except Failure α}

theorem bind {f₁ f₂ : α → Except Failure Outcome}
    (h : ∀ a, x = .ok a → Isolated ws db₁ db₂ (f₁ a) (f₂ a)) :
    Isolated ws db₁ db₂ (x >>= f₁) (x >>= f₂) := by
  cases x with
  | error failure =>
      refine ⟨rfl, ?_, ?_⟩ <;> intro outcome w hok <;> cases hok
  | ok a => exact h a rfl

theorem error (failure : Failure) : Isolated ws db₁ db₂ (.error failure) (.error failure) := by
  refine ⟨rfl, ?_, ?_⟩ <;> intro outcome w hok <;> cases hok

theorem read {outcome : Outcome} (h : outcome.write = none) :
    Isolated ws db₁ db₂ (pure outcome) (pure outcome) := by
  refine ⟨rfl, ?_, ?_⟩ <;> intro outcome' w hok hwrite <;> cases hok <;> rw [h] at hwrite <;>
    cases hwrite

theorem answer (status : ℕ) (body : Body) :
    Isolated ws db₁ db₂ (pure (Outcome.answer status body)) (pure (Outcome.answer status body)) :=
  read rfl

end Isolated

/-! ## Commits -/

theorem attempted_iff {db : Database} (hdb : Consistent db) {route : Route}
    (hroute : route ∈ (ownRows db ws).routes) :
    route.id ∈ db.attempts.map DeliveryAttempt.routeId ↔
      ∃ a ∈ (ownRows db ws).attempts, a.routeId = route.id := by
  constructor
  · intro hmem
    obtain ⟨a, ha, hid⟩ := List.mem_map.mp hmem
    obtain ⟨e, he, r, hr, heid, hrid, hendpoint⟩ := hdb.attempt_event a ha
    have hsame : r = route := Rows.eq_of_key_eq hdb.routes_nodup hr hroute.1 (hrid.trans hid)
    subst hsame
    exact ⟨a, ⟨ha, e, he, heid, hendpoint ▸ hroute.2⟩, hid⟩
  · rintro ⟨a, ⟨ha, _⟩, hid⟩
    exact hid ▸ List.mem_map_of_mem ha

theorem routed_iff {db : Database} (hdb : Consistent db) {id : UUID} (howned : Owned db ws id) :
    (∃ r ∈ db.routes, r.endpointId = id ∧ r.id ∈ db.attempts.map DeliveryAttempt.routeId) ↔
      ∃ r ∈ (ownRows db ws).routes, r.endpointId = id ∧
        ∃ a ∈ (ownRows db ws).attempts, a.routeId = r.id := by
  constructor
  · rintro ⟨r, hr, rfl, hattempt⟩
    have hown : r ∈ (ownRows db ws).routes := ⟨hr, howned⟩
    exact ⟨r, hown, rfl, (attempted_iff hdb hown).mp hattempt⟩
  · rintro ⟨r, hown, rfl, hattempt⟩
    exact ⟨r, hown.1, rfl, (attempted_iff hdb hown).mpr hattempt⟩

theorem evented_iff {db : Database} {id : UUID} (howned : Owned db ws id) :
    id ∈ db.events.map Event.endpointId ↔ ∃ e ∈ (ownRows db ws).events, e.endpointId = id := by
  constructor
  · intro hmem
    obtain ⟨e, he, rfl⟩ := List.mem_map.mp hmem
    exact ⟨e, ⟨he, howned⟩, rfl⟩
  · rintro ⟨e, ⟨he, _⟩, rfl⟩
    exact List.mem_map_of_mem he

/-- The constraints look at the workspace's rows only. -/
theorem check_congr (h : SameRows ws db₁ db₂) {w : Write} (within₁ : w.Within db₁ ws)
    (within₂ : w.Within db₂ ws) : w.check db₁ = w.check db₂ := by
  cases w with
  | insertEndpoint ep =>
      rw [Write.check, Write.check, if_neg within₁.2, if_neg within₂.2]
  | updateEndpoint ep => rfl
  | deleteEndpoint id =>
      obtain ⟨old, hold, rfl⟩ := within₁
      have howned₁ : Owned db₁ ws old.id := hold.2
      have howned₂ : Owned db₂ ws old.id := (h.rows ▸ hold : old ∈ (ownRows db₂ ws).endpoints).2
      have hroutes := (routed_iff h.consistent₁ howned₁).trans
        (h.rows ▸ (routed_iff h.consistent₂ howned₂).symm)
      have hevents := (evented_iff howned₁).trans (h.rows ▸ (evented_iff howned₂).symm)
      simp only [Write.check, hroutes, hevents]
  | insertRoute route =>
      have hendpoint : ∀ {db : Database}, Owned db ws route.endpointId →
          route.endpointId ∈ db.endpoints.map Endpoint.id := by
        rintro db ⟨ep, hep, hid, _⟩
        exact hid ▸ List.mem_map_of_mem hep
      rw [Write.check, Write.check, if_neg within₁.2, if_neg within₂.2,
        if_neg (not_not_intro (hendpoint within₁.1)), if_neg (not_not_intro (hendpoint within₂.1))]
  | updateRoute route => rfl
  | deleteRoute id =>
      obtain ⟨old, hold, rfl⟩ := within₁
      have hattempts := (attempted_iff h.consistent₁ hold).trans
        (h.rows ▸ (attempted_iff h.consistent₂ (h.rows ▸ hold)).symm)
      simp only [Write.check, hattempts]
  | updateEvent event => rfl

theorem stays_commit {db : Database} {w : Write} (within : w.Within db ws) {outcome : Outcome}
    (hwrite : outcome.write = some w) :
    Stays db ws (commit env db w >>= fun _ => pure outcome) := by
  intro outcome' w' hok hwrite'
  unfold commit at hok
  cases hcheck : w.check db with
  | error exc =>
      rw [hcheck] at hok
      cases hok
  | ok _ =>
      cases hcommit : env.commit with
      | error exc =>
          rw [hcheck, hcommit] at hok
          cases hok
      | ok _ =>
          rw [hcheck, hcommit] at hok
          cases hok
          rw [hwrite, Option.some.injEq] at hwrite'
          subst hwrite'
          exact ⟨within, hcheck⟩

/-- A transaction whose write stays within the workspace. -/
theorem Isolated.commit (h : SameRows ws db₁ db₂) {w : Write} (within₁ : w.Within db₁ ws)
    (within₂ : w.Within db₂ ws) {outcome : Outcome} (hwrite : outcome.write = some w) :
    Isolated ws db₁ db₂ (commit env db₁ w >>= fun _ => pure outcome)
      (commit env db₂ w >>= fun _ => pure outcome) := by
  refine ⟨?_, stays_commit within₁ hwrite, stays_commit within₂ hwrite⟩
  unfold Api.commit
  rw [check_congr h within₁ within₂]

/-! ## Look-ups -/

/-- Two computations that fail in one way only and succeed alike are equal. -/
theorem eq_of_ok_iff {α : Type} {x y : Except Failure α} {failure : Failure}
    (hx : ∀ f, x = .error f → f = failure) (hy : ∀ f, y = .error f → f = failure)
    (h : ∀ a, x = .ok a ↔ y = .ok a) : x = y := by
  cases x with
  | ok a => exact ((h a).mp rfl).symm
  | error f =>
      cases y with
      | ok a => exact absurd ((h a).mpr rfl) (by simp)
      | error g => rw [hx f rfl, hy g rfl]

theorem endpointOr404_congr (h : SameRows ws db₁ db₂) (id : UUID) :
    endpointOr404 db₁ ws id = endpointOr404 db₂ ws id := by
  have hfail : ∀ db f, endpointOr404 db ws id = .error f → f = .http 404 "endpoint not found" := by
    intro db f hf
    unfold endpointOr404 at hf
    split at hf
    · split at hf
      · cases hf
      · cases hf
        rfl
    · cases hf
      rfl
  apply eq_of_ok_iff (hfail db₁) (hfail db₂)
  intro ep
  rw [endpointOr404_eq_ok_iff h.consistent₁, endpointOr404_eq_ok_iff h.consistent₂, h.rows]

theorem routeOr404_congr (h : SameRows ws db₁ db₂) (id : UUID) :
    routeOr404 db₁ ws id = routeOr404 db₂ ws id := by
  have hfail : ∀ db f, routeOr404 db ws id = .error f → f = .http 404 "route not found" := by
    intro db f hf
    unfold routeOr404 at hf
    split at hf
    · cases hf
      rfl
    · split at hf
      · split at hf
        · cases hf
        · cases hf
          rfl
      · cases hf
        rfl
  apply eq_of_ok_iff (hfail db₁) (hfail db₂)
  intro route
  rw [routeOr404_eq_ok_iff h.consistent₁, routeOr404_eq_ok_iff h.consistent₂, h.rows]

theorem eventOr404_congr (h : SameRows ws db₁ db₂) (id : UUID) :
    eventOr404 db₁ ws id = eventOr404 db₂ ws id := by
  have hfail : ∀ db f, eventOr404 db ws id = .error f → f = .http 404 "event not found" := by
    intro db f hf
    unfold eventOr404 at hf
    split at hf
    · cases hf
      rfl
    · split at hf
      · split at hf
        · cases hf
        · cases hf
          rfl
      · cases hf
        rfl
  apply eq_of_ok_iff (hfail db₁) (hfail db₂)
  intro event
  rw [eventOr404_eq_ok_iff h.consistent₁, eventOr404_eq_ok_iff h.consistent₂, h.rows]

namespace Isolated

variable {id : UUID}

/-- After the look-up of an endpoint, in both stores the same one. -/
theorem endpointOr404 (h : SameRows ws db₁ db₂) {f₁ f₂ : Endpoint → Except Failure Outcome}
    (hf : ∀ ep, ep ∈ (ownRows db₁ ws).endpoints → ep ∈ (ownRows db₂ ws).endpoints → ep.id = id →
      Isolated ws db₁ db₂ (f₁ ep) (f₂ ep)) :
    Isolated ws db₁ db₂ (endpointOr404 db₁ ws id >>= f₁) (Api.endpointOr404 db₂ ws id >>= f₂) := by
  rw [← endpointOr404_congr h]
  apply bind
  intro ep hok
  obtain ⟨hep, hid⟩ := (endpointOr404_eq_ok_iff h.consistent₁).mp hok
  exact hf ep hep (h.rows ▸ hep) hid

theorem routeOr404 (h : SameRows ws db₁ db₂) {f₁ f₂ : Route → Except Failure Outcome}
    (hf : ∀ route, route ∈ (ownRows db₁ ws).routes → route ∈ (ownRows db₂ ws).routes →
      route.id = id → Isolated ws db₁ db₂ (f₁ route) (f₂ route)) :
    Isolated ws db₁ db₂ (routeOr404 db₁ ws id >>= f₁) (Api.routeOr404 db₂ ws id >>= f₂) := by
  rw [← routeOr404_congr h]
  apply bind
  intro route hok
  obtain ⟨hroute, hid⟩ := (routeOr404_eq_ok_iff h.consistent₁).mp hok
  exact hf route hroute (h.rows ▸ hroute) hid

theorem eventOr404 (h : SameRows ws db₁ db₂) {f₁ f₂ : Event → Except Failure Outcome}
    (hf : ∀ event, event ∈ (ownRows db₁ ws).events → event ∈ (ownRows db₂ ws).events →
      event.id = id → Isolated ws db₁ db₂ (f₁ event) (f₂ event)) :
    Isolated ws db₁ db₂ (eventOr404 db₁ ws id >>= f₁) (Api.eventOr404 db₂ ws id >>= f₂) := by
  rw [← eventOr404_congr h]
  apply bind
  intro event hok
  obtain ⟨hevent, hid⟩ := (eventOr404_eq_ok_iff h.consistent₁).mp hok
  exact hf event hevent (h.rows ▸ hevent) hid

end Isolated

/-! ## The handlers of endpoints and routes -/

theorem isolated_listEndpoints (h : SameRows ws db₁ db₂) :
    Isolated ws db₁ db₂ (listEndpoints env db₁ ws) (listEndpoints env db₂ ws) := by
  have hrows : orderBy (rankBy (fun ep : Endpoint => -ep.createdAt) env.tie Endpoint.id)
        (db₁.endpoints.filter (fun ep => ep.workspaceId = ws)) =
      orderBy (rankBy (fun ep : Endpoint => -ep.createdAt) env.tie Endpoint.id)
        (db₂.endpoints.filter (fun ep => ep.workspaceId = ws)) := by
    apply orderBy_filter_congr _ _ h.consistent₁.endpoints_nodup h.consistent₂.endpoints_nodup
    intro ep
    rw [decide_eq_true_eq, ← mem_ownRows_endpoints h.consistent₁,
      ← mem_ownRows_endpoints h.consistent₂, h.rows]
  unfold listEndpoints
  rw [hrows]
  exact Isolated.bind (fun outs _ => Isolated.answer 200 (.endpoints outs))

theorem isolated_createEndpoint (h : SameRows ws db₁ db₂) (new₁ : New db₁ env.newId)
    (new₂ : New db₂ env.newId) (body : Option EndpointCreate) :
    Isolated ws db₁ db₂ (createEndpoint env db₁ ws body) (createEndpoint env db₂ ws body) := by
  apply Isolated.bind
  intro body _
  refine Isolated.commit h ?_ ?_ rfl
  · exact ⟨rfl, new₁.1⟩
  · exact ⟨rfl, new₂.1⟩

theorem isolated_getEndpoint (h : SameRows ws db₁ db₂) (endpointId : String) :
    Isolated ws db₁ db₂ (getEndpoint db₁ ws endpointId) (getEndpoint db₂ ws endpointId) := by
  apply Isolated.bind
  intro id _
  apply Isolated.endpointOr404 h
  intro ep _ _ _
  exact Isolated.bind (fun out _ => Isolated.answer 200 (.endpoint out))

/-- Writing back an endpoint of the workspace, under its own identifiers. -/
theorem within_updateEndpoint {db : Database} (hdb : Consistent db) {old ep : Endpoint}
    (hold : old ∈ (ownRows db ws).endpoints) (hid : ep.id = old.id)
    (hws : ep.workspaceId = old.workspaceId) : (Write.updateEndpoint ep).Within db ws :=
  ⟨hws.trans ((mem_ownRows_endpoints hdb).mp hold).2, old, hold, hid.symm⟩

theorem touchEndpoint_id (now : Time) (old ep : Endpoint) :
    (touchEndpoint now old ep).id = ep.id := by
  unfold touchEndpoint
  split <;> rfl

theorem touchEndpoint_workspaceId (now : Time) (old ep : Endpoint) :
    (touchEndpoint now old ep).workspaceId = ep.workspaceId := by
  unfold touchEndpoint
  split <;> rfl

theorem isolated_updateEndpoint (h : SameRows ws db₁ db₂) (endpointId : String)
    (body : Option EndpointUpdate) :
    Isolated ws db₁ db₂ (updateEndpoint env db₁ ws endpointId body)
      (updateEndpoint env db₂ ws endpointId body) := by
  apply Isolated.bind
  intro body _
  apply Isolated.bind
  intro id _
  apply Isolated.endpointOr404 h
  intro old hold₁ hold₂ _
  refine Isolated.commit h ?_ ?_ rfl
  · exact within_updateEndpoint h.consistent₁ hold₁ (touchEndpoint_id _ _ _)
      (touchEndpoint_workspaceId _ _ _)
  · exact within_updateEndpoint h.consistent₂ hold₂ (touchEndpoint_id _ _ _)
      (touchEndpoint_workspaceId _ _ _)

theorem isolated_deleteEndpoint (h : SameRows ws db₁ db₂) (endpointId : String) :
    Isolated ws db₁ db₂ (deleteEndpoint env db₁ ws endpointId)
      (deleteEndpoint env db₂ ws endpointId) := by
  apply Isolated.bind
  intro id _
  apply Isolated.endpointOr404 h
  intro ep hep₁ hep₂ _
  refine Isolated.commit h ?_ ?_ rfl
  · exact ⟨ep, hep₁, rfl⟩
  · exact ⟨ep, hep₂, rfl⟩

theorem isolated_rotateSecret (h : SameRows ws db₁ db₂) (endpointId : String) :
    Isolated ws db₁ db₂ (rotateSecret env db₁ ws endpointId)
      (rotateSecret env db₂ ws endpointId) := by
  apply Isolated.bind
  intro id _
  apply Isolated.endpointOr404 h
  intro old hold₁ hold₂ _
  refine Isolated.commit h ?_ ?_ rfl
  · exact within_updateEndpoint h.consistent₁ hold₁ (touchEndpoint_id _ _ _)
      (touchEndpoint_workspaceId _ _ _)
  · exact within_updateEndpoint h.consistent₂ hold₂ (touchEndpoint_id _ _ _)
      (touchEndpoint_workspaceId _ _ _)

theorem isolated_listRoutes (h : SameRows ws db₁ db₂) (endpointId : String) :
    Isolated ws db₁ db₂ (listRoutes env db₁ ws endpointId) (listRoutes env db₂ ws endpointId) := by
  apply Isolated.bind
  intro id _
  apply Isolated.endpointOr404 h
  rintro ep hep₁ hep₂ rfl
  have hown : ∀ {db : Database}, ep ∈ (ownRows db ws).endpoints → ∀ r : Route,
      r ∈ db.routes ∧ r.endpointId = ep.id ↔ r ∈ (ownRows db ws).routes ∧ r.endpointId = ep.id := by
    intro db hep r
    apply and_congr_left
    intro hid
    exact ⟨fun hr => ⟨hr, hid ▸ hep.2⟩, fun hr => hr.1⟩
  have hrows : orderBy (rankBy Route.createdAt env.tie Route.id)
        (db₁.routes.filter (fun r => r.endpointId = ep.id)) =
      orderBy (rankBy Route.createdAt env.tie Route.id)
        (db₂.routes.filter (fun r => r.endpointId = ep.id)) := by
    apply orderBy_filter_congr _ _ h.consistent₁.routes_nodup h.consistent₂.routes_nodup
    intro r
    rw [decide_eq_true_eq, hown hep₁, hown hep₂, h.rows]
  rw [hrows]
  exact Isolated.bind (fun outs _ => Isolated.answer 200 (.routes outs))

theorem isolated_addRoute (h : SameRows ws db₁ db₂) (new₁ : New db₁ env.newId)
    (new₂ : New db₂ env.newId) (endpointId : String) (body : Option RouteCreate) :
    Isolated ws db₁ db₂ (addRoute env settings db₁ ws endpointId body)
      (addRoute env settings db₂ ws endpointId body) := by
  apply Isolated.bind
  intro body _
  apply Isolated.bind
  intro id _
  apply Isolated.bind
  intro _ _
  apply Isolated.endpointOr404 h
  intro ep hep₁ hep₂ _
  refine Isolated.commit h ?_ ?_ rfl
  · exact ⟨hep₁.2, new₁.2⟩
  · exact ⟨hep₂.2, new₂.2⟩

/-- An update leaves a route's identifiers alone. -/
theorem patchRoute_ids {body : RouteUpdate} {old route : Route}
    (h : patchRoute body old = .ok route) :
    route.id = old.id ∧ route.endpointId = old.endpointId := by
  unfold patchRoute at h
  obtain ⟨name, _, h⟩ := exists_of_bind_eq_ok h
  obtain ⟨url, _, h⟩ := exists_of_bind_eq_ok h
  obtain ⟨method, _, h⟩ := exists_of_bind_eq_ok h
  obtain ⟨timeoutMs, _, h⟩ := exists_of_bind_eq_ok h
  obtain ⟨maxRetries, _, h⟩ := exists_of_bind_eq_ok h
  obtain ⟨retryBackoffMs, _, h⟩ := exists_of_bind_eq_ok h
  obtain ⟨isActive, _, h⟩ := exists_of_bind_eq_ok h
  cases h
  exact ⟨rfl, rfl⟩

theorem isolated_updateRoute (h : SameRows ws db₁ db₂) (routeId : String)
    (body : Option RouteUpdate) :
    Isolated ws db₁ db₂ (updateRoute env settings db₁ ws routeId body)
      (updateRoute env settings db₂ ws routeId body) := by
  apply Isolated.bind
  intro body _
  apply Isolated.bind
  intro id _
  apply Isolated.routeOr404 h
  intro old hold₁ hold₂ _
  apply Isolated.bind
  intro _ _
  apply Isolated.bind
  intro route hpatch
  obtain ⟨hid, hendpoint⟩ := patchRoute_ids hpatch
  refine Isolated.commit h ?_ ?_ rfl
  · exact ⟨old, hold₁, hid.symm, hendpoint.symm⟩
  · exact ⟨old, hold₂, hid.symm, hendpoint.symm⟩

theorem isolated_deleteRoute (h : SameRows ws db₁ db₂) (routeId : String) :
    Isolated ws db₁ db₂ (deleteRoute env db₁ ws routeId) (deleteRoute env db₂ ws routeId) := by
  apply Isolated.bind
  intro id _
  apply Isolated.routeOr404 h
  intro route hroute₁ hroute₂ _
  refine Isolated.commit h ?_ ?_ rfl
  · exact ⟨route, hroute₁, rfl⟩
  · exact ⟨route, hroute₂, rfl⟩

/-! ## The handlers of events -/

theorem mem_workspaceEndpointIds_iff {db : Database} {id : UUID} :
    id ∈ workspaceEndpointIds db ws ↔ Owned db ws id := by
  simp only [workspaceEndpointIds, List.mem_map, List.mem_filter, decide_eq_true_eq]
  constructor
  · rintro ⟨ep, ⟨hep, hws⟩, hid⟩
    exact ⟨ep, hep, hid, hws⟩
  · rintro ⟨ep, hep, hid, hws⟩
    exact ⟨ep, ⟨hep, hws⟩, hid⟩

theorem SameRows.owned_iff (h : SameRows ws db₁ db₂) (id : UUID) :
    Owned db₁ ws id ↔ Owned db₂ ws id := by
  rw [Api.owned_iff, Api.owned_iff, h.rows]

/-- The two stores list the same endpoints, perhaps in another order. -/
theorem SameRows.mem_endpointIds_iff (h : SameRows ws db₁ db₂) (id : UUID) :
    id ∈ workspaceEndpointIds db₁ ws ↔ id ∈ workspaceEndpointIds db₂ ws := by
  rw [mem_workspaceEndpointIds_iff, mem_workspaceEndpointIds_iff, h.owned_iff]

theorem SameRows.endpointIds_eq_nil_iff (h : SameRows ws db₁ db₂) :
    workspaceEndpointIds db₁ ws = [] ↔ workspaceEndpointIds db₂ ws = [] := by
  simp only [List.eq_nil_iff_forall_not_mem, h.mem_endpointIds_iff]

theorem endpointFilter_congr (h : SameRows ws db₁ db₂) (endpointId : Option String) :
    endpointFilter (workspaceEndpointIds db₁ ws) endpointId =
      endpointFilter (workspaceEndpointIds db₂ ws) endpointId := by
  unfold endpointFilter
  simp only [h.mem_endpointIds_iff]

theorem mem_events_and_iff {db : Database} {e : Event} :
    e ∈ (ownRows db ws).events ↔ e ∈ db.events ∧ e.endpointId ∈ workspaceEndpointIds db ws := by
  rw [mem_workspaceEndpointIds_iff]
  exact Iff.rfl

/-- A query that runs only if the workspace has endpoints. -/
theorem Isolated.ifEndpoints (h : SameRows ws db₁ db₂) {none' : Outcome}
    (hnone : none'.write = none) {f₁ f₂ : Except Failure Outcome} (hf : Isolated ws db₁ db₂ f₁ f₂) :
    Isolated ws db₁ db₂ (if workspaceEndpointIds db₁ ws = [] then pure none' else f₁)
      (if workspaceEndpointIds db₂ ws = [] then pure none' else f₂) := by
  by_cases hnil : workspaceEndpointIds db₁ ws = []
  · rw [if_pos hnil, if_pos (h.endpointIds_eq_nil_iff.mp hnil)]
    exact read hnone
  · rw [if_neg hnil, if_neg (fun hnil₂ => hnil (h.endpointIds_eq_nil_iff.mpr hnil₂))]
    exact hf

theorem isolated_listEvents (h : SameRows ws db₁ db₂) (endpointId : Option String)
    (limit offset : ℤ) :
    Isolated ws db₁ db₂ (listEvents env db₁ ws endpointId limit offset)
      (listEvents env db₂ ws endpointId limit offset) := by
  apply Isolated.bind
  intro _ _
  apply Isolated.ifEndpoints h rfl
  rw [endpointFilter_congr h]
  apply Isolated.bind
  intro only _
  have hrows : orderBy (rankBy (fun e : Event => -e.receivedAt) env.tie Event.id)
        (db₁.events.filter (fun e => e.endpointId ∈ workspaceEndpointIds db₁ ws ∧
          (only = none ∨ only = some e.endpointId))) =
      orderBy (rankBy (fun e : Event => -e.receivedAt) env.tie Event.id)
        (db₂.events.filter (fun e => e.endpointId ∈ workspaceEndpointIds db₂ ws ∧
          (only = none ∨ only = some e.endpointId))) := by
    apply orderBy_filter_congr _ _ h.consistent₁.events_nodup h.consistent₂.events_nodup
    intro e
    simp only [decide_eq_true_eq, ← and_assoc]
    rw [← mem_events_and_iff, ← mem_events_and_iff, h.rows]
  rw [hrows]
  exact Isolated.bind (fun rows _ => Isolated.answer 200 (.events (rows.map eventOut)))

theorem isolated_getEvent (h : SameRows ws db₁ db₂) (eventId : String) :
    Isolated ws db₁ db₂ (getEvent db₁ ws eventId) (getEvent db₂ ws eventId) := by
  apply Isolated.bind
  intro id _
  apply Isolated.eventOr404 h
  intro event _ _ _
  exact Isolated.answer 200 (.event (eventOut event))

/-- The attempts of an event of the workspace. -/
theorem mem_attempts_and_iff {db : Database} {event : Event}
    (hevent : event ∈ (ownRows db ws).events)
    {a : DeliveryAttempt} : (a ∈ db.attempts ∧ a.eventId = event.id) ↔
      a ∈ (ownRows db ws).attempts ∧ a.eventId = event.id := by
  apply and_congr_left
  intro hid
  exact ⟨fun ha => ⟨ha, event, hevent.1, hid.symm, hevent.2⟩, fun ha => ha.1⟩

theorem isolated_getEventAttempts (h : SameRows ws db₁ db₂) (eventId : String) :
    Isolated ws db₁ db₂ (getEventAttempts env db₁ ws eventId)
      (getEventAttempts env db₂ ws eventId) := by
  apply Isolated.bind
  intro id _
  apply Isolated.eventOr404 h
  rintro event hevent₁ hevent₂ rfl
  have hrows : orderBy (rankBy DeliveryAttempt.attemptNumber env.tie DeliveryAttempt.id)
        (db₁.attempts.filter (fun a => a.eventId = event.id)) =
      orderBy (rankBy DeliveryAttempt.attemptNumber env.tie DeliveryAttempt.id)
        (db₂.attempts.filter (fun a => a.eventId = event.id)) := by
    apply orderBy_filter_congr _ _ h.consistent₁.attempts_nodup h.consistent₂.attempts_nodup
    intro a
    rw [decide_eq_true_eq, mem_attempts_and_iff hevent₁, mem_attempts_and_iff hevent₂, h.rows]
  rw [hrows]
  exact Isolated.answer 200 _

theorem isolated_replayEvent (h : SameRows ws db₁ db₂) (eventId : String) :
    Isolated ws db₁ db₂ (replayEvent env settings db₁ ws eventId)
      (replayEvent env settings db₂ ws eventId) := by
  apply Isolated.bind
  intro id _
  apply Isolated.eventOr404 h
  intro event _ _ _
  cases env.kafka with
  | noProducer => exact Isolated.error _
  | acked => exact Isolated.read rfl
  | raised _ => exact Isolated.read rfl

theorem isolated_discardDlqEvent (h : SameRows ws db₁ db₂) (eventId : String) :
    Isolated ws db₁ db₂ (discardDlqEvent env db₁ ws eventId)
      (discardDlqEvent env db₂ ws eventId) := by
  apply Isolated.bind
  intro id _
  apply Isolated.eventOr404 h
  intro event hevent₁ hevent₂ _
  by_cases hdiscarded : event.isDiscarded = true
  · simp only [hdiscarded, if_true]
    exact Isolated.answer 200 _
  · simp only [hdiscarded]
    refine Isolated.commit h ?_ ?_ rfl
    · exact ⟨event, hevent₁, rfl, rfl⟩
    · exact ⟨event, hevent₂, rfl, rfl⟩

theorem isolated_restoreDlqEvent (h : SameRows ws db₁ db₂) (eventId : String) :
    Isolated ws db₁ db₂ (restoreDlqEvent env db₁ ws eventId)
      (restoreDlqEvent env db₂ ws eventId) := by
  apply Isolated.bind
  intro id _
  apply Isolated.eventOr404 h
  intro event hevent₁ hevent₂ _
  refine Isolated.commit h ?_ ?_ rfl
  · exact ⟨event, hevent₁, rfl, rfl⟩
  · exact ⟨event, hevent₂, rfl, rfl⟩

/-! ### The dead-letter list -/

section DeadLetters

variable {event : Event}

/-- Subqueries on the attempts of one event of the workspace. -/
theorem attempts_filter_perm (h : SameRows ws db₁ db₂) (hevent₁ : event ∈ (ownRows db₁ ws).events)
    (hevent₂ : event ∈ (ownRows db₂ ws).events) (q : DeliveryAttempt → Prop) [DecidablePred q] :
    (db₁.attempts.filter (fun a => a.eventId = event.id ∧ q a)).Perm
      (db₂.attempts.filter (fun a => a.eventId = event.id ∧ q a)) := by
  apply Rows.filter_perm_of_mem_iff h.consistent₁.attempts_nodup h.consistent₂.attempts_nodup
  intro a
  simp only [decide_eq_true_eq, ← and_assoc]
  rw [mem_attempts_and_iff hevent₁, mem_attempts_and_iff hevent₂, h.rows]

theorem max?_eq_of_perm {xs ys : List ℤ} (h : xs.Perm ys) : xs.max? = ys.max? := by
  apply Option.ext
  intro m
  rw [List.max?_eq_some_iff, List.max?_eq_some_iff]
  simp only [h.mem_iff]

theorem maxAttempt_congr (h : SameRows ws db₁ db₂) (hevent₁ : event ∈ (ownRows db₁ ws).events)
    (hevent₂ : event ∈ (ownRows db₂ ws).events) :
    maxAttempt db₁.attempts event.id = maxAttempt db₂.attempts event.id :=
  max?_eq_of_perm ((attempts_filter_perm h hevent₁ hevent₂ (fun a => failedAttempt a = true)).map _)

theorem lastAttempts_perm (h : SameRows ws db₁ db₂) (hevent₁ : event ∈ (ownRows db₁ ws).events)
    (hevent₂ : event ∈ (ownRows db₂ ws).events) :
    (lastAttempts db₁.attempts event.id).Perm (lastAttempts db₂.attempts event.id) := by
  unfold lastAttempts
  rw [maxAttempt_congr h hevent₁ hevent₂]
  exact attempts_filter_perm h hevent₁ hevent₂
    (fun a => maxAttempt db₂.attempts event.id = some a.attemptNumber)

theorem attemptCount_congr (h : SameRows ws db₁ db₂) (hevent₁ : event ∈ (ownRows db₁ ws).events)
    (hevent₂ : event ∈ (ownRows db₂ ws).events) :
    attemptCount db₁.attempts event.id = attemptCount db₂.attempts event.id := by
  have hperm := attempts_filter_perm h hevent₁ hevent₂ (fun _ => True)
  simp only [and_true] at hperm
  unfold attemptCount
  rw [List.countP_eq_length_filter, List.countP_eq_length_filter]
  exact hperm.length_eq

end DeadLetters

theorem mem_dlqRows {db : Database} {includeDiscarded : Bool} {row : Event × DeliveryAttempt}
    (hrow : row ∈ dlqRows db (workspaceEndpointIds db ws) includeDiscarded) :
    row.1 ∈ (ownRows db ws).events ∧ row.2 ∈ db.attempts ∧ row.2.eventId = row.1.id := by
  obtain ⟨e, he, hmem⟩ := List.mem_flatMap.mp hrow
  obtain ⟨a, ha, rfl⟩ := List.mem_map.mp hmem
  rw [List.mem_filter, decide_eq_true_eq] at he
  unfold lastAttempts at ha
  rw [List.mem_filter, decide_eq_true_eq] at ha
  exact ⟨mem_events_and_iff.mpr ⟨he.1, he.2.1⟩, ha.1, ha.2.1⟩

theorem dlqRows_perm (h : SameRows ws db₁ db₂) (includeDiscarded : Bool) :
    (dlqRows db₁ (workspaceEndpointIds db₁ ws) includeDiscarded).Perm
      (dlqRows db₂ (workspaceEndpointIds db₂ ws) includeDiscarded) := by
  unfold dlqRows
  refine List.Perm.flatMap ?_ ?_
  · apply Rows.filter_perm_of_mem_iff h.consistent₁.events_nodup h.consistent₂.events_nodup
    intro e
    simp only [decide_eq_true_eq, ← and_assoc]
    rw [← mem_events_and_iff, ← mem_events_and_iff, h.rows]
  · intro e he
    rw [List.mem_filter, decide_eq_true_eq] at he
    have hevent₁ : e ∈ (ownRows db₁ ws).events := mem_events_and_iff.mpr ⟨he.1, he.2.1⟩
    exact (lastAttempts_perm h hevent₁ (h.rows ▸ hevent₁)).map _

/-- One attempt appears with one event. -/
theorem dlqRows_inj {db : Database} (hevents : (db.events.map Event.id).Nodup)
    (hattempts : (db.attempts.map DeliveryAttempt.id).Nodup) {includeDiscarded : Bool}
    {row row' : Event × DeliveryAttempt}
    (hrow : row ∈ dlqRows db (workspaceEndpointIds db ws) includeDiscarded)
    (hrow' : row' ∈ dlqRows db (workspaceEndpointIds db ws) includeDiscarded)
    (hid : row.2.id = row'.2.id) : row = row' := by
  obtain ⟨hevent, hattempt, heq⟩ := mem_dlqRows hrow
  obtain ⟨hevent', hattempt', heq'⟩ := mem_dlqRows hrow'
  have hsame : row.2 = row'.2 := Rows.eq_of_key_eq hattempts hattempt hattempt' hid
  refine Prod.ext ?_ hsame
  apply Rows.eq_of_key_eq hevents hevent.1 hevent'.1
  rw [← heq, hsame, heq']

theorem isolated_listDlq (h : SameRows ws db₁ db₂) (includeDiscarded : Bool) (limit offset : ℤ) :
    Isolated ws db₁ db₂ (listDlq env db₁ ws includeDiscarded limit offset)
      (listDlq env db₂ ws includeDiscarded limit offset) := by
  apply Isolated.bind
  intro _ _
  apply Isolated.ifEndpoints h rfl
  have hrows : orderBy (rankBy (fun row : Event × DeliveryAttempt => -row.1.receivedAt) env.tie
        (fun row => row.2.id)) (dlqRows db₁ (workspaceEndpointIds db₁ ws) includeDiscarded) =
      orderBy (rankBy (fun row : Event × DeliveryAttempt => -row.1.receivedAt) env.tie
        (fun row => row.2.id)) (dlqRows db₂ (workspaceEndpointIds db₂ ws) includeDiscarded) := by
    refine orderBy_eq_of_perm ?_ (dlqRows_perm h includeDiscarded)
    intro row hrow row' hrow' hrank
    have hid := rankBy_injOn hrank
    exact dlqRows_inj h.consistent₁.events_nodup h.consistent₁.attempts_nodup hrow hrow' hid
  rw [hrows]
  apply Isolated.bind
  intro rows hpage
  have hout : rows.map (dlqEventOut db₁.attempts) = rows.map (dlqEventOut db₂.attempts) := by
    apply List.map_congr_left
    intro row hrow
    have hmem : row ∈ dlqRows db₂ (workspaceEndpointIds db₂ ws) includeDiscarded := by
      unfold runPage at hpage
      split at hpage
      · cases hpage
      · cases hpage
        exact mem_orderBy.mp (List.mem_of_mem_drop (List.mem_of_mem_take hrow))
    have hevent₂ := (mem_dlqRows hmem).1
    unfold dlqEventOut
    rw [attemptCount_congr h (h.rows ▸ hevent₂) hevent₂]
  rw [hout]
  exact Isolated.answer 200 _

/-! ## Every operation -/

theorem isolated_run (h : SameRows ws db₁ db₂) (new₁ : New db₁ env.newId) (new₂ : New db₂ env.newId)
    (operation : Operation) :
    Isolated ws db₁ db₂ (operation.run env settings db₁ ws)
      (operation.run env settings db₂ ws) := by
  cases operation with
  | listEndpoints => exact isolated_listEndpoints h
  | createEndpoint body => exact isolated_createEndpoint h new₁ new₂ body
  | getEndpoint endpointId => exact isolated_getEndpoint h endpointId
  | updateEndpoint endpointId body => exact isolated_updateEndpoint h endpointId body
  | deleteEndpoint endpointId => exact isolated_deleteEndpoint h endpointId
  | rotateSecret endpointId => exact isolated_rotateSecret h endpointId
  | listRoutes endpointId => exact isolated_listRoutes h endpointId
  | addRoute endpointId body => exact isolated_addRoute h new₁ new₂ endpointId body
  | updateRoute routeId body => exact isolated_updateRoute h routeId body
  | deleteRoute routeId => exact isolated_deleteRoute h routeId
  | listEvents endpointId limit offset => exact isolated_listEvents h endpointId limit offset
  | getEvent eventId => exact isolated_getEvent h eventId
  | getEventAttempts eventId => exact isolated_getEventAttempts h eventId
  | replayEvent eventId => exact isolated_replayEvent h eventId
  | listDlq includeDiscarded limit offset => exact isolated_listDlq h includeDiscarded limit offset
  | discardDlqEvent eventId => exact isolated_discardDlqEvent h eventId
  | restoreDlqEvent eventId => exact isolated_restoreDlqEvent h eventId

/-- The caller, if there is one, has the same membership in both stores. -/
def SameMembership (caller : Except Failure UUID) (ws : UUID) (db₁ db₂ : Database) : Prop :=
  ∀ m : WorkspaceMembership, caller = .ok m.userId → m.workspaceId = ws →
    (m ∈ db₁.memberships ↔ m ∈ db₂.memberships)

theorem membershipById_congr (h : SameRows ws db₁ db₂) {user : UUID}
    (hmember : SameMembership (.ok user) ws db₁ db₂) :
    membershipById db₁ user ws = membershipById db₂ user ws := by
  apply Option.ext
  intro m
  unfold membershipById
  rw [Rows.get_eq_some_iff h.consistent₁.memberships_nodup,
    Rows.get_eq_some_iff h.consistent₂.memberships_nodup]
  apply and_congr_left
  intro hkey
  obtain ⟨rfl, hws⟩ := Prod.mk.inj hkey
  exact hmember m rfl hws

theorem getWorkspaceMembership_congr (h : SameRows ws db₁ db₂) {caller : Except Failure UUID}
    (hmember : SameMembership caller ws db₁ db₂) {workspaceId : String}
    (hws : UUID.parse workspaceId = some ws) :
    getWorkspaceMembership db₁ caller workspaceId =
      getWorkspaceMembership db₂ caller workspaceId := by
  cases caller with
  | error failure => rfl
  | ok user =>
      have hsame : membershipById db₁ user ws = membershipById db₂ user ws :=
        membershipById_congr h hmember
      have hfound : ∀ db, getWorkspaceMembership db (.ok user) workspaceId =
          (membershipById db user ws).elim (.error (.http 403 "not a member of this workspace"))
            Except.ok := by
        intro db
        simp only [getWorkspaceMembership, hws, bind, Except.bind]
        cases membershipById db user ws <;> rfl
      rw [hfound, hfound, hsame]

theorem getWorkspaceMembership_workspaceId {db : Database} (hdb : Consistent db)
    {caller : Except Failure UUID} {workspaceId : String} (hws : UUID.parse workspaceId = some ws)
    {membership : WorkspaceMembership}
    (h : getWorkspaceMembership db caller workspaceId = .ok membership) :
    membership.workspaceId = ws := by
  obtain ⟨user, _, h⟩ := exists_of_bind_eq_ok h
  rw [hws] at h
  dsimp only at h
  split at h
  · cases h
  · rename_i found hget
    cases h
    have hkey := ((Rows.get_eq_some_iff hdb.memberships_nodup).mp hget).2
    exact (Prod.mk.inj hkey).2

/-- Nothing but the rows of one workspace may differ. -/
structure Untouched (ws : UUID) (db db' : Database) : Prop where
  others : otherRows db' ws = otherRows db ws
  attempts : db'.attempts = db.attempts
  outbox : db'.outbox = db.outbox
  memberships : db'.memberships = db.memberships

theorem untouched_of_stays {db : Database} (hdb : Consistent db) {result : Except Failure Outcome}
    (h : Stays db ws result) : Untouched ws db ((Outcome.ofHandler result).store db) := by
  have hnone : Untouched ws db db := ⟨rfl, rfl, rfl, rfl⟩
  cases result with
  | error failure => exact hnone
  | ok outcome =>
      show Untouched ws db (outcome.store db)
      unfold Outcome.store
      cases hwrite : outcome.write with
      | none => exact hnone
      | some w =>
          obtain ⟨within, hcheck⟩ := h outcome w rfl hwrite
          have hothers := (rows_apply hdb within hcheck).2
          cases w <;> exact ⟨hothers, rfl, rfl, rfl⟩

theorem ownRows_of_isolated (h : SameRows ws db₁ db₂) {r₁ r₂ : Except Failure Outcome}
    (isolated : Isolated ws db₁ db₂ r₁ r₂) :
    ownRows ((Outcome.ofHandler r₁).store db₁) ws =
      ownRows ((Outcome.ofHandler r₂).store db₂) ws := by
  obtain ⟨rfl, stays₁, stays₂⟩ := isolated
  cases r₁ with
  | error failure => exact h.rows
  | ok outcome =>
      show ownRows (outcome.store db₁) ws = ownRows (outcome.store db₂) ws
      unfold Outcome.store
      cases hwrite : outcome.write with
      | none => exact h.rows
      | some w =>
          obtain ⟨within₁, hcheck₁⟩ := stays₁ outcome w rfl hwrite
          obtain ⟨within₂, hcheck₂⟩ := stays₂ outcome w rfl hwrite
          show ownRows (w.apply db₁) ws = ownRows (w.apply db₂) ws
          rw [(rows_apply h.consistent₁ within₁ hcheck₁).1,
            (rows_apply h.consistent₂ within₂ hcheck₂).1, h.rows]

/-- Two stores that agree on a workspace's rows and on the caller's membership
answer a request under that workspace alike, publish the same and have the same
rows of the workspace afterwards; neither changes any other row. -/
theorem tenant_isolation (env : Env) (settings : Settings) (request : Request)
    (hws : UUID.parse request.workspaceId = some ws)
    (h : SameRows ws db₁ db₂) (hmember : SameMembership request.caller ws db₁ db₂)
    (new₁ : New db₁ env.newId) (new₂ : New db₂ env.newId) :
    (handle env settings request db₁).response = (handle env settings request db₂).response ∧
      (handle env settings request db₁).published = (handle env settings request db₂).published ∧
      ownRows ((handle env settings request db₁).store db₁) ws =
        ownRows ((handle env settings request db₂).store db₂) ws ∧
      Untouched ws db₁ ((handle env settings request db₁).store db₁) ∧
      Untouched ws db₂ ((handle env settings request db₂).store db₂) := by
  have isolated : Isolated ws db₁ db₂
      (getWorkspaceMembership db₁ request.caller request.workspaceId >>= fun membership =>
        requireWorkspaceRole request.operation.minimumRole membership >>= fun membership =>
          request.operation.run env settings db₁ membership.workspaceId)
      (getWorkspaceMembership db₂ request.caller request.workspaceId >>= fun membership =>
        requireWorkspaceRole request.operation.minimumRole membership >>= fun membership =>
          request.operation.run env settings db₂ membership.workspaceId) := by
    rw [← getWorkspaceMembership_congr h hmember hws]
    apply Isolated.bind
    intro membership hmembership
    apply Isolated.bind
    intro membership' hrole
    have hsame : membership' = membership := by
      unfold requireWorkspaceRole at hrole
      split at hrole
      · cases hrole
      · cases hrole
        rfl
    rw [hsame, getWorkspaceMembership_workspaceId h.consistent₁ hws hmembership]
    exact isolated_run h new₁ new₂ request.operation
  have hsame : handle env settings request db₁ = handle env settings request db₂ :=
    congrArg Outcome.ofHandler isolated.same
  refine ⟨by rw [hsame], by rw [hsame], ownRows_of_isolated h isolated, ?_, ?_⟩
  · exact untouched_of_stays h.consistent₁ isolated.stays₁
  · exact untouched_of_stays h.consistent₂ isolated.stays₂

/-! ## One workspace, alone and beside another -/

def ordersEndpoint : Endpoint where
  id := 3
  workspaceId := 9
  name := "orders"
  hmacSecret := "whsec"

def foreignEndpoint : Endpoint where
  id := 4
  workspaceId := 8
  name := "foreign"
  hmacSecret := "other"

def foreignRoute : Route where
  id := 5
  endpointId := 4
  name := "foreign"
  url := "https://example.com"

def adminMembership : WorkspaceMembership where
  userId := 1
  workspaceId := 9
  role := .admin

def aloneStore : Database where
  endpoints := [ordersEndpoint]
  memberships := [adminMembership]

def sharedStore : Database where
  endpoints := [foreignEndpoint, ordersEndpoint]
  routes := [foreignRoute]
  memberships := [adminMembership]

def rotationEnv : Env where
  url := { urlparse := fun _ => .error ⟨"ValueError", ""⟩, ipAddress := fun _ => none }
  compiles := fun _ => true
  newId := 6
  secret := "rotated"
  now := 1

def rotation : Request where
  caller := .ok adminMembership.userId
  workspaceId := adminMembership.workspaceId.str
  operation := .rotateSecret ordersEndpoint.id.str

theorem consistent_aloneStore : Consistent aloneStore := by
  constructor <;> simp [aloneStore]

theorem consistent_sharedStore : Consistent sharedStore := by
  have hne : foreignEndpoint.id ≠ ordersEndpoint.id := by decide
  have hroute : foreignRoute.endpointId = foreignEndpoint.id := rfl
  constructor <;> simp [sharedStore, hne, hroute]

theorem sameRows_stores : SameRows adminMembership.workspaceId aloneStore sharedStore := by
  refine ⟨consistent_aloneStore, consistent_sharedStore, ?_⟩
  have hown : ordersEndpoint.workspaceId = adminMembership.workspaceId := rfl
  have hforeign : foreignEndpoint.workspaceId ≠ adminMembership.workspaceId := by decide
  have howned : ∀ id, Owned sharedStore adminMembership.workspaceId id ↔
      id = ordersEndpoint.id := by
    intro id
    simp [Owned, sharedStore, hown, hforeign, eq_comm]
  have howned' : ∀ id, Owned aloneStore adminMembership.workspaceId id ↔
      id = ordersEndpoint.id := by
    intro id
    simp [Owned, aloneStore, hown, eq_comm]
  ext x
  · show x ∈ [ordersEndpoint] ∧ Owned aloneStore _ x.id ↔
      x ∈ [foreignEndpoint, ordersEndpoint] ∧ Owned sharedStore _ x.id
    rw [howned, howned', List.mem_cons (b := foreignEndpoint)]
    constructor
    · rintro ⟨hx, hid⟩
      exact ⟨Or.inr hx, hid⟩
    · rintro ⟨rfl | hx, hid⟩
      · exact absurd hid (by decide)
      · exact ⟨hx, hid⟩
  · show x ∈ [] ∧ Owned aloneStore _ x.endpointId ↔
      x ∈ [foreignRoute] ∧ Owned sharedStore _ x.endpointId
    rw [howned, List.mem_singleton]
    apply iff_of_false (by simp)
    rintro ⟨rfl, hid⟩
    exact absurd hid (by decide)
  · exact iff_of_false (by rintro ⟨hx, _⟩; cases hx) (by rintro ⟨hx, _⟩; cases hx)
  · exact iff_of_false (by rintro ⟨hx, _⟩; cases hx) (by rintro ⟨hx, _⟩; cases hx)

theorem tenant_isolation_rotated :
    (handle rotationEnv {} rotation aloneStore).response =
        (handle rotationEnv {} rotation sharedStore).response ∧
      Untouched adminMembership.workspaceId sharedStore
        ((handle rotationEnv {} rotation sharedStore).store sharedStore) ∧
      ((handle rotationEnv {} rotation sharedStore).store sharedStore).endpoints.map
        Endpoint.hmacSecret = ["other", "rotated"] := by
  have h := tenant_isolation rotationEnv {} rotation (UUID.parse_str _) sameRows_stores
    (fun _ _ _ => Iff.rfl) ⟨by decide, by decide⟩ ⟨by decide, by decide⟩
  exact ⟨h.1, h.2.2.2.2, by decide +kernel⟩

end WebhookRelay.Api
