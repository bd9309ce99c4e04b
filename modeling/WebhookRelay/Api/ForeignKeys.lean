import WebhookRelay.Api.Isolation
import WebhookRelay.Api.Ownership
import WebhookRelay.Api.Writes

/-!
# Foreign keys

Which rows name which others, and that no commit leaves a name without its
row. A write of the REST API is about a row of the caller's workspace or a new
one (`stays_run`), an update keeps the columns that link a row to the others
(`SameLinks`), and the tables refuse the deletions that would cut a link.
-/

namespace WebhookRelay.Api

open Foundation

/-- Every foreign key of the tables finds its row. -/
structure ForeignKeys (db : Database) : Prop where
  membership_user : ∀ m ∈ db.memberships, m.userId ∈ db.users.map User.id
  membership_workspace : ∀ m ∈ db.memberships, m.workspaceId ∈ db.workspaces.map Workspace.id
  endpoint_workspace : ∀ ep ∈ db.endpoints, ep.workspaceId ∈ db.workspaces.map Workspace.id
  route_endpoint : ∀ r ∈ db.routes, r.endpointId ∈ db.endpoints.map Endpoint.id
  event_endpoint : ∀ e ∈ db.events, e.endpointId ∈ db.endpoints.map Endpoint.id
  record_event : ∀ r ∈ db.outbox, r.eventId ∈ db.events.map Event.id
  attempt_event : ∀ a ∈ db.attempts, a.eventId ∈ db.events.map Event.id
  attempt_route : ∀ a ∈ db.attempts, a.routeId ∈ db.routes.map Route.id

/-- The foreign keys to users and workspaces. -/
structure AccountKeys (db : Database) : Prop where
  membership_user : ∀ m ∈ db.memberships, m.userId ∈ db.users.map User.id
  membership_workspace : ∀ m ∈ db.memberships, m.workspaceId ∈ db.workspaces.map Workspace.id
  endpoint_workspace : ∀ ep ∈ db.endpoints, ep.workspaceId ∈ db.workspaces.map Workspace.id

variable {db db' : Database} {ws : UUID} {w : Write}

theorem foreignKeys_of_consistent (hdb : Consistent db) (haccounts : AccountKeys db)
    (hrecords : ∀ r ∈ db.outbox, r.eventId ∈ db.events.map Event.id) : ForeignKeys db where
  membership_user := haccounts.membership_user
  membership_workspace := haccounts.membership_workspace
  endpoint_workspace := haccounts.endpoint_workspace
  route_endpoint := hdb.route_endpoint
  event_endpoint := hdb.event_endpoint
  record_event := hrecords
  attempt_event := by
    intro a ha
    obtain ⟨e, he, _, _, hid, _⟩ := hdb.attempt_event a ha
    exact hid ▸ List.mem_map_of_mem he
  attempt_route := by
    intro a ha
    obtain ⟨_, _, r, hr, _, hid, _⟩ := hdb.attempt_event a ha
    exact hid ▸ List.mem_map_of_mem hr

/-! ## Updates keep the links -/

def routeLink (r : Route) : UUID × UUID := (r.id, r.endpointId)

def eventLink (e : Event) : UUID × UUID := (e.id, e.endpointId)

/-- A change of the tables that leaves the linking columns alone. -/
structure SameLinks (db db' : Database) : Prop where
  endpoints : db'.endpoints.map Endpoint.id = db.endpoints.map Endpoint.id
  routes : db'.routes.map routeLink = db.routes.map routeLink
  events : db'.events.map eventLink = db.events.map eventLink
  attempts : db'.attempts = db.attempts

namespace SameLinks

variable (same : SameLinks db db')
include same

theorem route_ids : db'.routes.map Route.id = db.routes.map Route.id := by
  have := congrArg (List.map Prod.fst) same.routes
  rwa [List.map_map, List.map_map] at this

theorem event_ids : db'.events.map Event.id = db.events.map Event.id := by
  have := congrArg (List.map Prod.fst) same.events
  rwa [List.map_map, List.map_map] at this

theorem route_endpointIds : db'.routes.map Route.endpointId = db.routes.map Route.endpointId := by
  have := congrArg (List.map Prod.snd) same.routes
  rwa [List.map_map, List.map_map] at this

theorem event_endpointIds : db'.events.map Event.endpointId = db.events.map Event.endpointId := by
  have := congrArg (List.map Prod.snd) same.events
  rwa [List.map_map, List.map_map] at this

theorem exists_route {r : Route} (hr : r ∈ db.routes) :
    ∃ r' ∈ db'.routes, r'.id = r.id ∧ r'.endpointId = r.endpointId := by
  have hlink : routeLink r ∈ db'.routes.map routeLink := same.routes ▸ List.mem_map_of_mem hr
  obtain ⟨r', hr', heq⟩ := List.mem_map.mp hlink
  exact ⟨r', hr', Prod.mk.inj heq⟩

theorem exists_event {e : Event} (he : e ∈ db.events) :
    ∃ e' ∈ db'.events, e'.id = e.id ∧ e'.endpointId = e.endpointId := by
  have hlink : eventLink e ∈ db'.events.map eventLink := same.events ▸ List.mem_map_of_mem he
  obtain ⟨e', he', heq⟩ := List.mem_map.mp hlink
  exact ⟨e', he', Prod.mk.inj heq⟩

theorem consistent (hdb : Consistent db)
    (hmemberships : (db'.memberships.map membershipKey).Nodup) : Consistent db' where
  endpoints_nodup := same.endpoints ▸ hdb.endpoints_nodup
  routes_nodup := same.route_ids ▸ hdb.routes_nodup
  events_nodup := same.event_ids ▸ hdb.events_nodup
  attempts_nodup := same.attempts ▸ hdb.attempts_nodup
  memberships_nodup := hmemberships
  route_endpoint := by
    intro r hr
    have hmem : r.endpointId ∈ db.routes.map Route.endpointId :=
      same.route_endpointIds ▸ List.mem_map_of_mem hr
    obtain ⟨old, hold, hid⟩ := List.mem_map.mp hmem
    rw [same.endpoints, ← hid]
    exact hdb.route_endpoint old hold
  event_endpoint := by
    intro e he
    have hmem : e.endpointId ∈ db.events.map Event.endpointId :=
      same.event_endpointIds ▸ List.mem_map_of_mem he
    obtain ⟨old, hold, hid⟩ := List.mem_map.mp hmem
    rw [same.endpoints, ← hid]
    exact hdb.event_endpoint old hold
  attempt_event := by
    intro a ha
    obtain ⟨e, he, r, hr, heid, hrid, hlink⟩ := hdb.attempt_event a (same.attempts ▸ ha)
    obtain ⟨e', he', heid', helink'⟩ := same.exists_event he
    obtain ⟨r', hr', hrid', hrlink'⟩ := same.exists_route hr
    exact ⟨e', he', r', hr', heid'.trans heid, hrid'.trans hrid,
      helink'.trans (hlink.trans hrlink'.symm)⟩

end SameLinks

/-- Deleting rows that no row kept refers to. -/
theorem Consistent.shrink (hdb : Consistent db) (hendpoints : db'.endpoints.Sublist db.endpoints)
    (hroutes : db'.routes.Sublist db.routes) (hevents : db'.events = db.events)
    (hattempts : db'.attempts = db.attempts)
    (hmemberships : db'.memberships.Sublist db.memberships)
    (kept_endpoint : ∀ ep ∈ db.endpoints,
      (∃ r ∈ db'.routes, r.endpointId = ep.id) ∨ (∃ e ∈ db.events, e.endpointId = ep.id) →
        ep ∈ db'.endpoints)
    (kept_route : ∀ r ∈ db.routes, r.id ∈ db.attempts.map DeliveryAttempt.routeId →
      r ∈ db'.routes) : Consistent db' where
  endpoints_nodup := hdb.endpoints_nodup.sublist (hendpoints.map _)
  routes_nodup := hdb.routes_nodup.sublist (hroutes.map _)
  events_nodup := hevents ▸ hdb.events_nodup
  attempts_nodup := hattempts ▸ hdb.attempts_nodup
  memberships_nodup := hdb.memberships_nodup.sublist (hmemberships.map _)
  route_endpoint := by
    intro r hr
    obtain ⟨ep, hep, hid⟩ := List.mem_map.mp (hdb.route_endpoint r (hroutes.subset hr))
    rw [← hid]
    exact List.mem_map_of_mem (kept_endpoint ep hep (Or.inl ⟨r, hr, hid.symm⟩))
  event_endpoint := by
    intro e he
    rw [hevents] at he
    obtain ⟨ep, hep, hid⟩ := List.mem_map.mp (hdb.event_endpoint e he)
    rw [← hid]
    exact List.mem_map_of_mem (kept_endpoint ep hep (Or.inr ⟨e, he, hid.symm⟩))
  attempt_event := by
    intro a ha
    rw [hattempts] at ha
    obtain ⟨e, he, r, hr, heid, hrid, hlink⟩ := hdb.attempt_event a ha
    have hkept := kept_route r hr (hrid ▸ List.mem_map_of_mem ha)
    exact ⟨e, hevents ▸ he, r, hkept, heid, hrid, hlink⟩

/-- An endpoint without events has no attempts on its routes either. -/
theorem Consistent.endpoint_ne_of_attempted (hdb : Consistent db) {id : UUID}
    (hnone : id ∉ db.events.map Event.endpointId) {r : Route} (hr : r ∈ db.routes)
    (hattempted : r.id ∈ db.attempts.map DeliveryAttempt.routeId) : r.endpointId ≠ id := by
  rintro rfl
  obtain ⟨a, ha, hid⟩ := List.mem_map.mp hattempted
  obtain ⟨e, he, r', hr', _, hrid, hlink⟩ := hdb.attempt_event a ha
  have hsame : r' = r := Rows.eq_of_key_eq hdb.routes_nodup hr' hr (hrid.trans hid)
  apply hnone
  rw [← hsame, ← hlink]
  exact List.mem_map_of_mem he

/-! ## Writes of the REST API -/

theorem check_deleteEndpoint_iff (hdb : Consistent db) {id : UUID} :
    (Write.deleteEndpoint id).check db = .ok () ↔ id ∉ db.events.map Event.endpointId := by
  rw [Write.check]
  split
  · rename_i hroutes
    obtain ⟨r, hr, hof, hattempted⟩ := hroutes
    refine iff_of_false (by simp) ?_
    intro hnone
    exact hdb.endpoint_ne_of_attempted hnone hr hattempted hof
  · split
    · rename_i hevent
      exact iff_of_false (by simp) (not_not_intro hevent)
    · rename_i hevent
      exact iff_of_true rfl hevent

theorem check_deleteRoute_iff {id : UUID} :
    (Write.deleteRoute id).check db = .ok () ↔ id ∉ db.attempts.map DeliveryAttempt.routeId := by
  rw [Write.check]
  split
  · rename_i hattempt
    exact iff_of_false (by simp) (not_not_intro hattempt)
  · rename_i hattempt
    exact iff_of_true rfl hattempt

/-- What the tables take within a workspace leaves them consistent. -/
theorem consistent_apply (hdb : Consistent db) (within : w.Within db ws)
    (hcheck : w.check db = .ok ()) : Consistent (w.apply db) := by
  cases w with
  | insertEndpoint ep =>
      have hmore : ∀ id ∈ db.endpoints.map Endpoint.id,
          id ∈ (db.endpoints ++ [ep]).map Endpoint.id := by
        intro id hid
        rw [List.map_append]
        exact List.mem_append_left _ hid
      exact { hdb with
        endpoints_nodup := Rows.nodup_snoc hdb.endpoints_nodup within.2
        route_endpoint := fun r hr => hmore _ (hdb.route_endpoint r hr)
        event_endpoint := fun e he => hmore _ (hdb.event_endpoint e he) }
  | updateEndpoint ep =>
      have same : SameLinks db ((Write.updateEndpoint ep).apply db) :=
        ⟨Rows.map_key_put, rfl, rfl, rfl⟩
      exact same.consistent hdb hdb.memberships_nodup
  | deleteEndpoint id =>
      have hnone := (check_deleteEndpoint_iff hdb).mp hcheck
      refine hdb.shrink List.filter_sublist List.filter_sublist rfl rfl (List.Sublist.refl _) ?_ ?_
      · intro ep hep hused
        refine Rows.mem_remove_iff.mpr ⟨hep, ?_⟩
        rintro rfl
        rcases hused with ⟨r, hr, hof⟩ | ⟨e, he, hof⟩
        · have hne := (List.mem_filter.mp hr).2
          simp [hof] at hne
        · exact hnone (hof ▸ List.mem_map_of_mem he)
      · intro r hr hattempted
        have hne := hdb.endpoint_ne_of_attempted hnone hr hattempted
        exact List.mem_filter.mpr ⟨hr, by simpa using hne⟩
  | insertRoute route =>
      obtain ⟨⟨ep, hep, hid, _⟩, hnew⟩ := within
      exact { hdb with
        routes_nodup := Rows.nodup_snoc hdb.routes_nodup hnew
        route_endpoint := by
          intro r hr
          rcases List.mem_append.mp hr with hold | hr
          · exact hdb.route_endpoint r hold
          · rw [List.mem_singleton.mp hr, ← hid]
            exact List.mem_map_of_mem hep
        attempt_event := by
          intro a ha
          obtain ⟨e, he, r, hr, hrest⟩ := hdb.attempt_event a ha
          exact ⟨e, he, r, List.mem_append_left _ hr, hrest⟩ }
  | updateRoute route =>
      obtain ⟨old, ⟨hold, _⟩, hid, hlink⟩ := within
      have same : SameLinks db ((Write.updateRoute route).apply db) :=
        ⟨rfl, Rows.map_put_of_eq hdb.routes_nodup hold hid (Prod.ext hid.symm hlink.symm), rfl, rfl⟩
      exact same.consistent hdb hdb.memberships_nodup
  | deleteRoute id =>
      have hnone := check_deleteRoute_iff.mp hcheck
      refine hdb.shrink (List.Sublist.refl _) List.filter_sublist rfl rfl (List.Sublist.refl _)
        (fun ep hep _ => hep) ?_
      intro r hr hattempted
      refine Rows.mem_remove_iff.mpr ⟨hr, ?_⟩
      rintro rfl
      exact hnone hattempted
  | updateEvent event =>
      obtain ⟨old, ⟨hold, _⟩, hid, hlink⟩ := within
      have same : SameLinks db ((Write.updateEvent event).apply db) :=
        ⟨rfl, rfl, Rows.map_put_of_eq hdb.events_nodup hold hid (Prod.ext hid.symm hlink.symm), rfl⟩
      exact same.consistent hdb hdb.memberships_nodup

theorem accountKeys_apply (h : AccountKeys db) (within : w.Within db ws)
    (hws : ws ∈ db.workspaces.map Workspace.id) : AccountKeys (w.apply db) := by
  have hsame : (w.apply db).memberships = db.memberships ∧ (w.apply db).users = db.users ∧
      (w.apply db).workspaces = db.workspaces := by
    cases w <;> exact ⟨rfl, rfl, rfl⟩
  obtain ⟨hmemberships, husers, hworkspaces⟩ := hsame
  refine ⟨?_, ?_, ?_⟩
  · rw [hmemberships, husers]
    exact h.membership_user
  · rw [hmemberships, hworkspaces]
    exact h.membership_workspace
  · rw [hworkspaces]
    intro ep hep
    cases w with
    | insertEndpoint new =>
        rcases List.mem_append.mp hep with hold | hnew
        · exact h.endpoint_workspace ep hold
        · rw [List.mem_singleton.mp hnew, within.1]
          exact hws
    | updateEndpoint new =>
        rcases Rows.mem_put hep with ⟨rfl, _⟩ | ⟨hold, _⟩
        · rw [within.1]
          exact hws
        · exact h.endpoint_workspace ep hold
    | deleteEndpoint id => exact h.endpoint_workspace ep (Rows.mem_remove_iff.mp hep).1
    | insertRoute _ | updateRoute _ | deleteRoute _ | updateEvent _ =>
        exact h.endpoint_workspace ep hep

/-! ## Every handler stays within the workspace -/

section Handlers

variable {env : Env} {settings : Settings}

/-- Whatever a handler commits satisfies `P`. `Stays` is one such `P`. -/
def Only (P : Write → Prop) (result : Except Failure Outcome) : Prop :=
  ∀ outcome w, result = .ok outcome → outcome.write = some w → P w

namespace Only

variable {P : Write → Prop}

theorem bind {α : Type} {x : Except Failure α} {f : α → Except Failure Outcome}
    (h : ∀ a, x = .ok a → Only P (f a)) : Only P (x >>= f) := by
  intro outcome w hok hwrite
  obtain ⟨a, ha, hf⟩ := exists_of_bind_eq_ok hok
  exact h a ha outcome w hf hwrite

theorem error (failure : Failure) : Only P (.error failure) := by
  intro outcome w hok
  cases hok

theorem read {outcome : Outcome} (h : outcome.write = none) : Only P (pure outcome) := by
  intro outcome' w hok hwrite
  obtain rfl := Except.ok.inj hok
  rw [h] at hwrite
  cases hwrite

/-- The tables get to see the write first. -/
theorem commit {status : ℕ} {body : Except Failure Body} (h : w.check db = .ok () → P w) :
    Only P (commit env db w >>= fun _ => pure (respond status w body)) := by
  apply bind
  intro _ hcommit outcome w' hok hwrite
  obtain rfl := Except.ok.inj hok
  obtain rfl := Option.some.inj hwrite
  apply h
  unfold Api.commit at hcommit
  split at hcommit
  · cases hcommit
  · rename_i hcheck
    exact hcheck

end Only

theorem stays_createEndpoint (body : Option EndpointCreate) :
    Stays db ws (createEndpoint env db ws body) := by
  show Only (fun w => w.Within db ws ∧ w.check db = .ok ()) _
  apply Only.bind
  intro body _
  apply Only.commit
  intro hcheck
  refine ⟨⟨rfl, ?_⟩, hcheck⟩
  intro hold
  rw [Write.check, if_pos hold] at hcheck
  cases hcheck

theorem stays_addRoute (hdb : Consistent db) (endpointId : String) (body : Option RouteCreate) :
    Stays db ws (addRoute env settings db ws endpointId body) := by
  show Only (fun w => w.Within db ws ∧ w.check db = .ok ()) _
  apply Only.bind
  intro body _
  apply Only.bind
  intro id _
  apply Only.bind
  intro _ _
  apply Only.bind
  intro ep hep
  apply Only.commit
  intro hcheck
  obtain ⟨hmem, _⟩ := (endpointOr404_eq_ok_iff hdb).mp hep
  refine ⟨⟨hmem.2, ?_⟩, hcheck⟩
  intro hold
  rw [Write.check, if_pos hold] at hcheck
  cases hcheck

theorem stays_run (hdb : Consistent db) (operation : Operation) :
    Stays db ws (operation.run env settings db ws) := by
  have same : SameRows ws db db := ⟨hdb, hdb, rfl⟩
  cases operation with
  | createEndpoint body => exact stays_createEndpoint body
  | addRoute endpointId body => exact stays_addRoute hdb endpointId body
  | listEndpoints => exact (isolated_listEndpoints same).stays₁
  | getEndpoint endpointId => exact (isolated_getEndpoint same endpointId).stays₁
  | updateEndpoint endpointId body => exact (isolated_updateEndpoint same endpointId body).stays₁
  | deleteEndpoint endpointId => exact (isolated_deleteEndpoint same endpointId).stays₁
  | rotateSecret endpointId => exact (isolated_rotateSecret same endpointId).stays₁
  | listRoutes endpointId => exact (isolated_listRoutes same endpointId).stays₁
  | updateRoute routeId body => exact (isolated_updateRoute same routeId body).stays₁
  | deleteRoute routeId => exact (isolated_deleteRoute same routeId).stays₁
  | listEvents endpointId limit offset =>
      exact (isolated_listEvents same endpointId limit offset).stays₁
  | getEvent eventId => exact (isolated_getEvent same eventId).stays₁
  | getEventAttempts eventId => exact (isolated_getEventAttempts same eventId).stays₁
  | replayEvent eventId => exact (isolated_replayEvent same eventId).stays₁
  | listDlq includeDiscarded limit offset =>
      exact (isolated_listDlq same includeDiscarded limit offset).stays₁
  | discardDlqEvent eventId => exact (isolated_discardDlqEvent same eventId).stays₁
  | restoreDlqEvent eventId => exact (isolated_restoreDlqEvent same eventId).stays₁

theorem membership_mem {caller : Except Failure UUID} {workspaceId : String}
    {membership : WorkspaceMembership}
    (h : getWorkspaceMembership db caller workspaceId = .ok membership) :
    membership ∈ db.memberships := by
  obtain ⟨user, _, h⟩ := exists_of_bind_eq_ok h
  split at h
  · cases h
  · split at h
    · cases h
    · rename_i found hget
      cases h
      exact List.mem_of_find?_eq_some hget

theorem requireWorkspaceRole_eq_ok {role : Role} {membership membership' : WorkspaceMembership}
    (h : requireWorkspaceRole role membership = .ok membership') : membership' = membership := by
  unfold requireWorkspaceRole at h
  split at h
  · cases h
  · exact (Except.ok.inj h).symm

/-- Whatever a request commits is within a workspace of the caller. -/
theorem within_of_handle (hdb : Consistent db) {request : Request}
    (hwrite : (handle env settings request db).write = some w) :
    ∃ m ∈ db.memberships, w.Within db m.workspaceId ∧ w.check db = .ok () := by
  obtain ⟨outcome, hok, hw⟩ := write_ofHandler hwrite
  obtain ⟨m, hm, hok⟩ := exists_of_bind_eq_ok hok
  obtain ⟨m', hrole, hrun⟩ := exists_of_bind_eq_ok hok
  obtain rfl := requireWorkspaceRole_eq_ok hrole
  exact ⟨m', membership_mem hm, stays_run hdb request.operation outcome w hrun hw⟩

/-- A request keeps the tables consistent, and the keys to users and workspaces. -/
theorem consistent_handle (env : Env) (settings : Settings) (hdb : Consistent db)
    (h : AccountKeys db) (request : Request) :
    Consistent ((handle env settings request db).store db) ∧
      AccountKeys ((handle env settings request db).store db) := by
  unfold Outcome.store
  cases hwrite : (handle env settings request db).write with
  | none => exact ⟨hdb, h⟩
  | some w =>
      obtain ⟨m, hm, within, hcheck⟩ := within_of_handle hdb hwrite
      have hws := h.membership_workspace m hm
      exact ⟨consistent_apply hdb within hcheck, accountKeys_apply h within hws⟩

variable {m : WorkspaceMembership} {caller : Except Failure UUID} {workspaceId text : String}

/-- The request of a member with the role it asks for runs its operation on
the member's workspace. -/
theorem handle_of_role (operation : Operation)
    (hmember : getWorkspaceMembership db caller workspaceId = .ok m)
    (hrole : requireWorkspaceRole operation.minimumRole m = .ok m) :
    handle env settings ⟨caller, workspaceId, operation⟩ db =
      .ofHandler (operation.run env settings db m.workspaceId) := by
  unfold handle
  rw [hmember]
  show Outcome.ofHandler (requireWorkspaceRole operation.minimumRole m >>= _) = _
  rw [hrole]
  rfl

/-- An admin's request runs its operation on the admin's workspace. -/
theorem handle_of_admin {operation : Operation} (hadmin : operation.minimumRole = .admin)
    (hmember : getWorkspaceMembership db caller workspaceId = .ok m)
    (hrole : requireWorkspaceRole .admin m = .ok m) :
    handle env settings ⟨caller, workspaceId, operation⟩ db =
      .ofHandler (operation.run env settings db m.workspaceId) :=
  handle_of_role operation hmember (hadmin ▸ hrole)

theorem parseUuid_of_parse {label : String} {id : UUID} (h : UUID.parse text = some id) :
    parseUuid text label = .ok id := by
  unfold parseUuid
  rw [h]

/-- A transaction that fails for no reason of its own ends as the tables say. -/
theorem commit_cases {w : Write} (hcommit : env.commit = .ok ()) :
    (w.check db = .ok () ∧ commit env db w = .ok ()) ∨
      ∃ exc, w.check db = .error exc ∧ commit env db w = .error (.raised exc) := by
  unfold commit
  cases hcheck : w.check db with
  | ok _ =>
      rw [hcommit]
      exact Or.inl ⟨rfl, rfl⟩
  | error exc => exact Or.inr ⟨exc, rfl, rfl⟩

end Handlers

/-! ## Writes on accounts and workspaces -/

section Accounts

variable {rt : AccountRuntime} {env : AccountEnv}

theorem checkWorkspace_eq_ok {workspace : Workspace}
    (h : AccountWrite.checkWorkspace db workspace = .ok ()) :
    workspace.id ∉ db.workspaces.map Workspace.id := by
  unfold AccountWrite.checkWorkspace at h
  split at h
  · cases h
  · rename_i hfresh
    exact hfresh

theorem membership_keys_of_check {m : WorkspaceMembership}
    (h : AccountWrite.checkMembership db m = .ok ()) : m.userId ∈ db.users.map User.id := by
  unfold AccountWrite.checkMembership at h
  split at h
  · cases h
  · split at h
    · cases h
    · rename_i huser
      exact not_not.mp huser

/-- Tables that differ in accounts only. -/
theorem Consistent.congr (hdb : Consistent db) (hendpoints : db'.endpoints = db.endpoints)
    (hroutes : db'.routes = db.routes) (hevents : db'.events = db.events)
    (hattempts : db'.attempts = db.attempts)
    (hmemberships : (db'.memberships.map membershipKey).Nodup) : Consistent db' := by
  have same : SameLinks db db' :=
    ⟨by rw [hendpoints], by rw [hroutes], by rw [hevents], hattempts⟩
  exact same.consistent hdb hmemberships

theorem insertWorkspace_keeps (hdb : Consistent db) (h : AccountKeys db) {workspace : Workspace}
    {user : UUID} (hfresh : workspace.id ∉ db.workspaces.map Workspace.id)
    (huser : user ∈ db.users.map User.id) :
    Consistent (insertWorkspace db workspace user) ∧
      AccountKeys (insertWorkspace db workspace user) := by
  have hmore : ∀ id ∈ db.workspaces.map Workspace.id,
      id ∈ (db.workspaces ++ [workspace]).map Workspace.id := by
    intro id hid
    rw [List.map_append]
    exact List.mem_append_left _ hid
  have hnew : workspace.id ∈ (db.workspaces ++ [workspace]).map Workspace.id := by simp
  constructor
  · refine hdb.congr rfl rfl rfl rfl ?_
    apply Rows.nodup_snoc hdb.memberships_nodup
    intro hkey
    obtain ⟨m, hm, hmkey⟩ := List.mem_map.mp hkey
    have hws : m.workspaceId = workspace.id := congrArg Prod.snd hmkey
    exact hfresh (hws ▸ h.membership_workspace m hm)
  · refine ⟨?_, ?_, ?_⟩
    · intro m hm
      rcases List.mem_append.mp hm with hold | hadded
      · exact h.membership_user m hold
      · rw [List.mem_singleton.mp hadded]
        exact huser
    · intro m hm
      rcases List.mem_append.mp hm with hold | hadded
      · exact hmore _ (h.membership_workspace m hold)
      · rw [List.mem_singleton.mp hadded]
        exact hnew
    · intro ep hep
      exact hmore _ (h.endpoint_workspace ep hep)

/-- No event stands in the way: then no attempt does either. -/
theorem dropWorkspace_keeps (hdb : Consistent db) (h : AccountKeys db) {id : UUID}
    (hunused : ∀ ep ∈ db.endpoints, ep.workspaceId = id →
      ep.id ∉ db.events.map Event.endpointId) :
    Consistent (dropWorkspace db id) ∧ AccountKeys (dropWorkspace db id) := by
  constructor
  · refine hdb.shrink List.filter_sublist List.filter_sublist rfl rfl List.filter_sublist ?_ ?_
    · intro ep hep hused
      have hother : ep.workspaceId ≠ id := by
        intro hws
        rcases hused with ⟨r, hr, hof⟩ | ⟨e, he, hof⟩
        · have hnone := of_decide_eq_true (List.mem_filter.mp hr).2
          exact hnone ⟨ep, hep, hof.symm, hws⟩
        · exact hunused ep hep hws (hof ▸ List.mem_map_of_mem he)
      exact List.mem_filter.mpr ⟨hep, by simpa using hother⟩
    · intro r hr hattempted
      refine List.mem_filter.mpr ⟨hr, decide_eq_true ?_⟩
      rintro ⟨ep, hep, hof, hws⟩
      exact hdb.endpoint_ne_of_attempted (hunused ep hep hws) hr hattempted hof.symm
  · have hworkspace : ∀ k ∈ db.workspaces.map Workspace.id, k ≠ id →
        k ∈ (dropWorkspace db id).workspaces.map Workspace.id := by
      intro k hk hne
      obtain ⟨workspace, hmem, rfl⟩ := List.mem_map.mp hk
      exact List.mem_map_of_mem (Rows.mem_remove_iff.mpr ⟨hmem, hne⟩)
    refine ⟨?_, ?_, ?_⟩
    · intro m hm
      exact h.membership_user m (List.mem_filter.mp hm).1
    · intro m hm
      obtain ⟨hm, hne⟩ := List.mem_filter.mp hm
      exact hworkspace _ (h.membership_workspace m hm) (by simpa using hne)
    · intro ep hep
      obtain ⟨hep, hne⟩ := List.mem_filter.mp hep
      exact hworkspace _ (h.endpoint_workspace ep hep) (by simpa using hne)

/-- Other memberships, each with the key of an old one or with keys of its own
that exist. -/
theorem memberships_keep (hdb : Consistent db) (h : AccountKeys db)
    {memberships : List WorkspaceMembership} (hnodup : (memberships.map membershipKey).Nodup)
    (hkeys : ∀ m ∈ memberships, membershipKey m ∈ db.memberships.map membershipKey ∨
      m.userId ∈ db.users.map User.id ∧ m.workspaceId ∈ db.workspaces.map Workspace.id) :
    Consistent { db with memberships } ∧ AccountKeys { db with memberships } := by
  refine ⟨hdb.congr rfl rfl rfl rfl hnodup, ?_, ?_, h.endpoint_workspace⟩
  · intro m hm
    rcases hkeys m hm with hold | ⟨huser, _⟩
    · obtain ⟨old, hold, hkey⟩ := List.mem_map.mp hold
      have huser : old.userId = m.userId := congrArg Prod.fst hkey
      exact huser ▸ h.membership_user old hold
    · exact huser
  · intro m hm
    rcases hkeys m hm with hold | ⟨_, hworkspace⟩
    · obtain ⟨old, hold, hkey⟩ := List.mem_map.mp hold
      have hworkspace : old.workspaceId = m.workspaceId := congrArg Prod.snd hkey
      exact hworkspace ▸ h.membership_workspace old hold
    · exact hworkspace

/-- A call on accounts keeps the tables consistent, and the keys to users and
workspaces. -/
theorem consistent_account (hdb : Consistent db) (h : AccountKeys db) {write : AccountWrite}
    (hcheck : write.check rt env db = .ok ()) :
    Consistent (write.apply rt env db) ∧ AccountKeys (write.apply rt env db) := by
  cases write with
  | register body =>
      obtain ⟨_, _, hworkspace⟩ := exists_of_bind_eq_ok hcheck
      have hdb' : Consistent { db with users := db.users ++ [newUser rt env body] } :=
        hdb.congr rfl rfl rfl rfl hdb.memberships_nodup
      have h' : AccountKeys { db with users := db.users ++ [newUser rt env body] } := by
        refine ⟨?_, h.membership_workspace, h.endpoint_workspace⟩
        intro m hm
        rw [List.map_append]
        exact List.mem_append_left _ (h.membership_user m hm)
      have hfresh := checkWorkspace_eq_ok hworkspace
      apply insertWorkspace_keeps hdb' h' hfresh
      rw [List.map_append]
      exact List.mem_append_right _ (List.mem_singleton_self _)
  | createWorkspace user name =>
      obtain ⟨_, hworkspace, huser⟩ := exists_of_bind_eq_ok hcheck
      split at huser
      · rename_i hmem
        have hfresh := checkWorkspace_eq_ok hworkspace
        exact insertWorkspace_keeps hdb h hfresh hmem
      · cases huser
  | deleteWorkspace id =>
      obtain ⟨_, _, hunused⟩ := exists_of_bind_eq_ok hcheck
      split at hunused
      · cases hunused
      · rename_i hnone
        apply dropWorkspace_keeps hdb h
        intro ep hep hws hevent
        exact hnone ⟨ep, hep, hws, hevent⟩
  | addMember m =>
      obtain ⟨hkey, hworkspace⟩ := checkMembership_eq_ok hcheck
      have huser := membership_keys_of_check hcheck
      apply memberships_keep hdb h (Rows.nodup_snoc hdb.memberships_nodup hkey)
      intro m' hm'
      rcases List.mem_append.mp hm' with hold | hadded
      · exact Or.inl (List.mem_map_of_mem hold)
      · rw [List.mem_singleton.mp hadded]
        exact Or.inr ⟨huser, hworkspace⟩
  | updateMemberRole m role =>
      have hkeys : (Rows.put membershipKey { m with role := role } db.memberships).map
          membershipKey = db.memberships.map membershipKey := Rows.map_key_put
      apply memberships_keep hdb h (hkeys ▸ hdb.memberships_nodup)
      intro m' hm'
      exact Or.inl (hkeys ▸ List.mem_map_of_mem hm')
  | removeMember m =>
      apply memberships_keep hdb h (hdb.memberships_nodup.sublist (List.filter_sublist.map _))
      intro m' hm'
      exact Or.inl (List.mem_map_of_mem (Rows.mem_remove_iff.mp hm').1)

end Accounts

end WebhookRelay.Api
