import WebhookRelay.Api.Events
import Mathlib.Data.Set.Basic

/-!
# Whose rows are whose

A row belongs to the workspace of its endpoint: a route and an event name
theirs, an attempt is made for an event. `ownRows` and `otherRows` split a
store along that line, as sets of rows. A write on one endpoint changes only
the side that endpoint is on, and changes it by a function of that side alone
(`ownRows_apply`, `otherRows_apply`).
-/

namespace WebhookRelay.Api

open Foundation

/-- The primary and foreign keys of the tables, and that an attempt joins an
event to a route of the same endpoint. -/
structure Consistent (db : Database) : Prop where
  endpoints_nodup : (db.endpoints.map Endpoint.id).Nodup
  routes_nodup : (db.routes.map Route.id).Nodup
  events_nodup : (db.events.map Event.id).Nodup
  attempts_nodup : (db.attempts.map DeliveryAttempt.id).Nodup
  memberships_nodup : (db.memberships.map membershipKey).Nodup
  route_endpoint : ∀ r ∈ db.routes, r.endpointId ∈ db.endpoints.map Endpoint.id
  event_endpoint : ∀ e ∈ db.events, e.endpointId ∈ db.endpoints.map Endpoint.id
  attempt_event : ∀ a ∈ db.attempts, ∃ e ∈ db.events, ∃ r ∈ db.routes,
    e.id = a.eventId ∧ r.id = a.routeId ∧ e.endpointId = r.endpointId

/-- The rows of some endpoints. -/
@[ext] structure TenantRows where
  endpoints : Set Endpoint
  routes : Set Route
  events : Set Event
  attempts : Set DeliveryAttempt

/-- The rows whose endpoint satisfies `p`. -/
def rowsOf (db : Database) (p : UUID → Prop) : TenantRows where
  endpoints := {ep | ep ∈ db.endpoints ∧ p ep.id}
  routes := {r | r ∈ db.routes ∧ p r.endpointId}
  events := {e | e ∈ db.events ∧ p e.endpointId}
  attempts := {a | a ∈ db.attempts ∧ ∃ e ∈ db.events, e.id = a.eventId ∧ p e.endpointId}

/-- The endpoint belongs to the workspace. -/
def Owned (db : Database) (ws : UUID) (id : UUID) : Prop :=
  ∃ ep ∈ db.endpoints, ep.id = id ∧ ep.workspaceId = ws

def ownRows (db : Database) (ws : UUID) : TenantRows := rowsOf db (Owned db ws)

def otherRows (db : Database) (ws : UUID) : TenantRows := rowsOf db (fun id => ¬ Owned db ws id)

variable {db db' : Database} {ws : UUID} {p q : UUID → Prop}

theorem rowsOf_congr (hdb : Consistent db)
    (h : ∀ id ∈ db.endpoints.map Endpoint.id, p id ↔ q id) : rowsOf db p = rowsOf db q := by
  ext x
  · apply and_congr_right
    intro hx
    exact h _ (List.mem_map_of_mem hx)
  · apply and_congr_right
    intro hx
    exact h _ (hdb.route_endpoint x hx)
  · apply and_congr_right
    intro hx
    exact h _ (hdb.event_endpoint x hx)
  · apply and_congr_right
    intro _
    apply exists_congr
    intro e
    apply and_congr_right
    intro he
    rw [h _ (hdb.event_endpoint e he)]

/-! ## Look-ups see the workspace's rows only -/

theorem owned_iff {id : UUID} :
    Owned db ws id ↔ ∃ ep ∈ (ownRows db ws).endpoints, ep.id = id := by
  constructor
  · rintro ⟨ep, hep, rfl, hws⟩
    exact ⟨ep, ⟨hep, ep, hep, rfl, hws⟩, rfl⟩
  · rintro ⟨ep, ⟨_, howned⟩, rfl⟩
    exact howned

theorem mem_ownRows_endpoints (hdb : Consistent db) {ep : Endpoint} :
    ep ∈ (ownRows db ws).endpoints ↔ ep ∈ db.endpoints ∧ ep.workspaceId = ws := by
  apply and_congr_right
  intro hep
  constructor
  · rintro ⟨ep', hep', hid, hws⟩
    rw [← hws, Rows.eq_of_key_eq hdb.endpoints_nodup hep' hep hid]
  · intro hws
    exact ⟨ep, hep, rfl, hws⟩

/-- The test at the end of every look-up: it lets a row through if the row's
endpoint belongs to the workspace. -/
theorem guarded_eq_ok_iff (hdb : Consistent db) {α : Type} {found row : α} {endpointId : UUID}
    {failure : Failure} :
    (match endpointById db endpointId with
      | some ep => if ep.workspaceId = ws then .ok found else .error failure
      | none => .error failure) = Except.ok row ↔ found = row ∧ Owned db ws endpointId := by
  have hget : ∀ ep, endpointById db endpointId = some ep ↔ ep ∈ db.endpoints ∧ ep.id = endpointId :=
    fun ep => Rows.get_eq_some_iff hdb.endpoints_nodup
  cases hep : endpointById db endpointId with
  | none =>
      apply iff_of_false (by simp)
      rintro ⟨_, ep, hmem, hid, _⟩
      rw [(hget ep).mpr ⟨hmem, hid⟩] at hep
      cases hep
  | some ep =>
      have howned : Owned db ws endpointId ↔ ep.workspaceId = ws := by
        constructor
        · rintro ⟨ep', hmem, hid, hws⟩
          have hsame := (hget ep').mpr ⟨hmem, hid⟩
          rw [hep, Option.some.injEq] at hsame
          exact hsame ▸ hws
        · intro hws
          obtain ⟨hmem, hid⟩ := (hget ep).mp hep
          exact ⟨ep, hmem, hid, hws⟩
      rw [howned]
      by_cases hws : ep.workspaceId = ws
      · simp [hws]
      · simp [hws]

theorem endpointOr404_eq_ok_iff (hdb : Consistent db) {id : UUID} {ep : Endpoint} :
    endpointOr404 db ws id = .ok ep ↔ ep ∈ (ownRows db ws).endpoints ∧ ep.id = id := by
  rw [mem_ownRows_endpoints hdb, and_right_comm, ← Rows.get_eq_some_iff hdb.endpoints_nodup]
  show endpointOr404 db ws id = .ok ep ↔ endpointById db id = some ep ∧ ep.workspaceId = ws
  unfold endpointOr404
  cases endpointById db id with
  | none => simp
  | some found =>
      by_cases hws : found.workspaceId = ws
      · simp only [hws, if_true, Except.ok.injEq, Option.some.injEq]
        constructor
        · rintro rfl
          exact ⟨rfl, hws⟩
        · exact fun h => h.1
      · simp only [hws, if_false, Option.some.injEq]
        apply iff_of_false (by simp)
        rintro ⟨rfl, h⟩
        exact hws h

theorem routeOr404_eq_ok_iff (hdb : Consistent db) {id : UUID} {route : Route} :
    routeOr404 db ws id = .ok route ↔ route ∈ (ownRows db ws).routes ∧ route.id = id := by
  show _ ↔ (route ∈ db.routes ∧ Owned db ws route.endpointId) ∧ route.id = id
  rw [and_right_comm, ← Rows.get_eq_some_iff hdb.routes_nodup]
  show _ ↔ routeById db id = some route ∧ _
  unfold routeOr404
  cases routeById db id with
  | none => simp
  | some found =>
      apply (guarded_eq_ok_iff hdb).trans
      rw [Option.some.injEq]
      apply and_congr_right
      rintro rfl
      exact Iff.rfl

theorem eventOr404_eq_ok_iff (hdb : Consistent db) {id : UUID} {event : Event} :
    eventOr404 db ws id = .ok event ↔ event ∈ (ownRows db ws).events ∧ event.id = id := by
  show _ ↔ (event ∈ db.events ∧ Owned db ws event.endpointId) ∧ event.id = id
  rw [and_right_comm, ← Rows.get_eq_some_iff hdb.events_nodup]
  show _ ↔ eventById db id = some event ∧ _
  unfold eventOr404
  cases eventById db id with
  | none => simp
  | some found =>
      apply (guarded_eq_ok_iff hdb).trans
      rw [Option.some.injEq]
      apply and_congr_right
      rintro rfl
      exact Iff.rfl

/-! ## Writes stay on one side -/

/-- What a write does to the rows of its own side. -/
def Write.applyRows (R : TenantRows) : Write → TenantRows
  | .insertEndpoint ep => { R with endpoints := {x | x ∈ R.endpoints ∨ x = ep} }
  | .updateEndpoint ep => { R with endpoints := {x | x = ep ∨ (x ∈ R.endpoints ∧ x.id ≠ ep.id)} }
  | .deleteEndpoint id =>
      { R with
        endpoints := {x | x ∈ R.endpoints ∧ x.id ≠ id}
        routes := {x | x ∈ R.routes ∧ x.endpointId ≠ id} }
  | .insertRoute route => { R with routes := {x | x ∈ R.routes ∨ x = route} }
  | .updateRoute route => { R with routes := {x | x = route ∨ (x ∈ R.routes ∧ x.id ≠ route.id)} }
  | .deleteRoute id => { R with routes := {x | x ∈ R.routes ∧ x.id ≠ id} }
  | .updateEvent event => { R with events := {x | x = event ∨ (x ∈ R.events ∧ x.id ≠ event.id)} }

/-- The write is about one row, and the row belongs to endpoint `t`. -/
def Write.On (db : Database) (t : UUID) : Write → Prop
  | .insertEndpoint ep => ep.id = t
  | .updateEndpoint ep => ep.id = t ∧ ep.id ∈ db.endpoints.map Endpoint.id
  | .deleteEndpoint id => id = t
  | .insertRoute route => route.endpointId = t
  | .updateRoute route => route.endpointId = t ∧
      ∃ old ∈ db.routes, old.id = route.id ∧ old.endpointId = t
  | .deleteRoute id => ∃ old ∈ db.routes, old.id = id ∧ old.endpointId = t
  | .updateEvent event => event.endpointId = t ∧
      ∃ old ∈ db.events, old.id = event.id ∧ old.endpointId = t

variable {w : Write} {t : UUID}

/-- A replaced event keeps its endpoint, so the attempts stay where they are. -/
theorem exists_event_put_iff (hdb : Consistent db) {event old : Event} (hold : old ∈ db.events)
    (hid : old.id = event.id) (hendpoint : old.endpointId = event.endpointId) (id : UUID) :
    (∃ e ∈ Rows.put Event.id event db.events, e.id = id ∧ p e.endpointId) ↔
      ∃ e ∈ db.events, e.id = id ∧ p e.endpointId := by
  have hmem : ∀ e, e ∈ Rows.put Event.id event db.events ↔
      e = event ∨ (e ∈ db.events ∧ e.id ≠ event.id) :=
    fun e => Rows.mem_put_iff (Rows.key_mem_of_old hold hid)
  constructor
  · rintro ⟨e, he, rfl, hp⟩
    rcases (hmem e).mp he with rfl | ⟨he, _⟩
    · exact ⟨old, hold, hid, hendpoint ▸ hp⟩
    · exact ⟨e, he, rfl, hp⟩
  · rintro ⟨e, he, rfl, hp⟩
    by_cases hsame : e.id = event.id
    · have heq : e = old := Rows.eq_of_key_eq hdb.events_nodup he hold (hsame.trans hid.symm)
      subst heq
      exact ⟨event, (hmem event).mpr (Or.inl rfl), hsame.symm, hendpoint ▸ hp⟩
    · exact ⟨e, (hmem e).mpr (Or.inr ⟨he, hsame⟩), rfl, hp⟩

/-- On the side of its endpoint, a write acts by `applyRows`. -/
theorem rowsOf_apply_of_pos (hdb : Consistent db) (on : w.On db t) (ht : p t) :
    rowsOf (w.apply db) p = w.applyRows (rowsOf db p) := by
  cases w with
  | insertEndpoint ep =>
      cases on
      ext x
      · exact Rows.mem_insert_and_iff (P := p ∘ Endpoint.id) ht
      all_goals exact Iff.rfl
  | updateEndpoint ep =>
      obtain ⟨rfl, hkey⟩ := on
      ext x
      · exact Rows.mem_put_and_iff (P := p ∘ Endpoint.id) hkey ht
      all_goals exact Iff.rfl
  | deleteEndpoint id =>
      -- the endpoint, and its routes by the cascade
      ext x
      · exact Rows.mem_remove_and_iff (P := p ∘ Endpoint.id)
      · show (x ∈ db.routes.filter (fun r => r.endpointId ≠ id) ∧ p x.endpointId) ↔
          (x ∈ db.routes ∧ p x.endpointId) ∧ x.endpointId ≠ id
        rw [List.mem_filter, decide_eq_true_eq, and_right_comm]
      all_goals exact Iff.rfl
  | insertRoute route =>
      cases on
      ext x
      · exact Iff.rfl
      · exact Rows.mem_insert_and_iff (P := p ∘ Route.endpointId) ht
      all_goals exact Iff.rfl
  | updateRoute route =>
      obtain ⟨rfl, old, hold, hid, _⟩ := on
      ext x
      · exact Iff.rfl
      · exact Rows.mem_put_and_iff (P := p ∘ Route.endpointId) (Rows.key_mem_of_old hold hid) ht
      all_goals exact Iff.rfl
  | deleteRoute id =>
      ext x
      · exact Iff.rfl
      · exact Rows.mem_remove_and_iff (P := p ∘ Route.endpointId)
      all_goals exact Iff.rfl
  | updateEvent event =>
      obtain ⟨rfl, old, hold, hid, hendpoint⟩ := on
      ext x
      · exact Iff.rfl
      · exact Iff.rfl
      · exact Rows.mem_put_and_iff (P := p ∘ Event.endpointId) (Rows.key_mem_of_old hold hid) ht
      · exact and_congr_right (fun _ => exists_event_put_iff hdb hold hid hendpoint _)

/-- On any other side, it changes nothing. -/
theorem rowsOf_apply_of_neg (hdb : Consistent db) (on : w.On db t) (ht : ¬ p t) :
    rowsOf (w.apply db) p = rowsOf db p := by
  cases w with
  | insertEndpoint ep =>
      cases on
      ext x
      · exact Rows.mem_insert_and_iff_of_not (P := p ∘ Endpoint.id) ht
      all_goals exact Iff.rfl
  | updateEndpoint ep =>
      obtain ⟨rfl, hkey⟩ := on
      obtain ⟨old, hold, hid⟩ := List.mem_map.mp hkey
      ext x
      · exact Rows.mem_put_and_iff_of_not (P := p ∘ Endpoint.id) hdb.endpoints_nodup hold hid
          (congrArg p hid).mp ht
      all_goals exact Iff.rfl
  | deleteEndpoint id =>
      -- the cascade takes the routes of this endpoint and no others
      change id = t at on
      subst on
      ext x
      · refine (Rows.mem_remove_and_iff (P := p ∘ Endpoint.id)).trans (and_iff_left_of_imp ?_)
        rintro ⟨_, hp⟩ rfl
        exact ht hp
      · show (x ∈ db.routes.filter (fun r => r.endpointId ≠ id) ∧ p x.endpointId) ↔
          (x ∈ db.routes ∧ p x.endpointId)
        rw [List.mem_filter, decide_eq_true_eq, and_right_comm, and_iff_left_iff_imp]
        rintro ⟨_, hp⟩ rfl
        exact ht hp
      all_goals exact Iff.rfl
  | insertRoute route =>
      cases on
      ext x
      · exact Iff.rfl
      · exact Rows.mem_insert_and_iff_of_not (P := p ∘ Route.endpointId) ht
      all_goals exact Iff.rfl
  | updateRoute route =>
      obtain ⟨rfl, old, hold, hid, hendpoint⟩ := on
      ext x
      · exact Iff.rfl
      · exact Rows.mem_put_and_iff_of_not (P := p ∘ Route.endpointId) hdb.routes_nodup hold hid
          (congrArg p hendpoint).mp ht
      all_goals exact Iff.rfl
  | deleteRoute id =>
      obtain ⟨old, hold, hid, rfl⟩ := on
      ext x
      · exact Iff.rfl
      · exact Rows.mem_remove_and_iff_of_not (P := p ∘ Route.endpointId) hdb.routes_nodup hold hid
          ht
      all_goals exact Iff.rfl
  | updateEvent event =>
      obtain ⟨rfl, old, hold, hid, hendpoint⟩ := on
      ext x
      · exact Iff.rfl
      · exact Iff.rfl
      · exact Rows.mem_put_and_iff_of_not (P := p ∘ Event.endpointId) hdb.events_nodup hold hid
          (congrArg p hendpoint).mp ht
      · exact and_congr_right (fun _ => exists_event_put_iff hdb hold hid hendpoint _)

/-! ## Writes of a workspace -/

/-- The write is about a row of the workspace, before and after, or a new one. -/
def Write.Within (db : Database) (ws : UUID) : Write → Prop
  | .insertEndpoint ep => ep.workspaceId = ws ∧ ep.id ∉ db.endpoints.map Endpoint.id
  | .updateEndpoint ep => ep.workspaceId = ws ∧ ∃ old ∈ (ownRows db ws).endpoints, old.id = ep.id
  | .deleteEndpoint id => ∃ old ∈ (ownRows db ws).endpoints, old.id = id
  | .insertRoute route => Owned db ws route.endpointId ∧ route.id ∉ db.routes.map Route.id
  | .updateRoute route => ∃ old ∈ (ownRows db ws).routes,
      old.id = route.id ∧ old.endpointId = route.endpointId
  | .deleteRoute id => ∃ old ∈ (ownRows db ws).routes, old.id = id
  | .updateEvent event => ∃ old ∈ (ownRows db ws).events,
      old.id = event.id ∧ old.endpointId = event.endpointId

/-- A write that leaves the endpoints of the workspace as they are acts on its
rows alone. -/
theorem rows_apply_of_owned_eq (hdb : Consistent db) (on : w.On db t) (ht : Owned db ws t)
    (howned : Owned (w.apply db) ws = Owned db ws) :
    ownRows (w.apply db) ws = w.applyRows (ownRows db ws) ∧
      otherRows (w.apply db) ws = otherRows db ws := by
  unfold ownRows otherRows
  rw [howned]
  exact ⟨rowsOf_apply_of_pos hdb on ht, rowsOf_apply_of_neg hdb on (not_not_intro ht)⟩

theorem owned_updateEndpoint {ep old : Endpoint} (hws : ep.workspaceId = ws)
    (hold : old ∈ db.endpoints) (hid : old.id = ep.id) (holdws : old.workspaceId = ws) :
    Owned ((Write.updateEndpoint ep).apply db) ws = Owned db ws := by
  funext id
  apply propext
  show (∃ x ∈ Rows.put Endpoint.id ep db.endpoints, x.id = id ∧ x.workspaceId = ws) ↔ _
  have hmem : ∀ x, x ∈ Rows.put Endpoint.id ep db.endpoints ↔
      x = ep ∨ (x ∈ db.endpoints ∧ x.id ≠ ep.id) :=
    fun x => Rows.mem_put_iff (Rows.key_mem_of_old hold hid)
  constructor
  · rintro ⟨x, hx, rfl, hxws⟩
    rcases (hmem x).mp hx with rfl | ⟨hx, _⟩
    · exact ⟨old, hold, hid, holdws⟩
    · exact ⟨x, hx, rfl, hxws⟩
  · rintro ⟨x, hx, rfl, hxws⟩
    by_cases hsame : x.id = ep.id
    · exact ⟨ep, (hmem ep).mpr (Or.inl rfl), hsame.symm, hws⟩
    · exact ⟨x, (hmem x).mpr (Or.inr ⟨hx, hsame⟩), rfl, hxws⟩

theorem owned_insertEndpoint {ep : Endpoint} (hws : ep.workspaceId = ws) (id : UUID) :
    Owned ((Write.insertEndpoint ep).apply db) ws id ↔ Owned db ws id ∨ ep.id = id := by
  show (∃ x ∈ db.endpoints ++ [ep], x.id = id ∧ x.workspaceId = ws) ↔ _
  constructor
  · rintro ⟨x, hx, rfl, hxws⟩
    rcases List.mem_append.mp hx with hx | hx
    · exact Or.inl ⟨x, hx, rfl, hxws⟩
    · rw [List.mem_singleton] at hx
      subst hx
      exact Or.inr rfl
  · rintro (⟨x, hx, rfl, hxws⟩ | rfl)
    · exact ⟨x, List.mem_append_left _ hx, rfl, hxws⟩
    · exact ⟨ep, List.mem_append_right _ (List.mem_singleton_self ep), rfl, hws⟩

theorem owned_deleteEndpoint {gone : UUID} (id : UUID) :
    Owned ((Write.deleteEndpoint gone).apply db) ws id ↔ Owned db ws id ∧ id ≠ gone := by
  show (∃ x ∈ Rows.remove Endpoint.id gone db.endpoints, x.id = id ∧ x.workspaceId = ws) ↔ _
  constructor
  · rintro ⟨x, hx, rfl, hxws⟩
    obtain ⟨hx, hne⟩ := Rows.mem_remove_iff.mp hx
    exact ⟨⟨x, hx, rfl, hxws⟩, hne⟩
  · rintro ⟨⟨x, hx, rfl, hxws⟩, hne⟩
    exact ⟨x, Rows.mem_remove_iff.mpr ⟨hx, hne⟩, rfl, hxws⟩

/-- A new endpoint comes without rows. -/
theorem rows_apply_insertEndpoint (hdb : Consistent db) {ep : Endpoint} (hws : ep.workspaceId = ws)
    (hnew : ep.id ∉ db.endpoints.map Endpoint.id) :
    ownRows ((Write.insertEndpoint ep).apply db) ws =
        (Write.insertEndpoint ep).applyRows (ownRows db ws) ∧
      otherRows ((Write.insertEndpoint ep).apply db) ws = otherRows db ws := by
  have howned : ∀ id, Owned ((Write.insertEndpoint ep).apply db) ws id ↔
      Owned db ws id ∨ ep.id = id := owned_insertEndpoint hws
  have hself : Owned ((Write.insertEndpoint ep).apply db) ws ep.id := (howned _).mpr (Or.inr rfl)
  have hold : ∀ id ∈ db.endpoints.map Endpoint.id,
      Owned ((Write.insertEndpoint ep).apply db) ws id ↔ Owned db ws id := by
    intro id hid
    rw [howned, or_iff_left]
    rintro rfl
    exact hnew hid
  constructor
  · unfold ownRows
    rw [rowsOf_apply_of_pos hdb (w := .insertEndpoint ep) (t := ep.id) rfl hself,
      rowsOf_congr hdb hold]
  · unfold otherRows
    rw [rowsOf_apply_of_neg hdb (w := .insertEndpoint ep) (t := ep.id) rfl (not_not_intro hself)]
    exact rowsOf_congr hdb (fun id hid => not_congr (hold id hid))

/-- A deleted endpoint takes its routes along, and has no events left. -/
theorem rows_apply_deleteEndpoint (hdb : Consistent db) {gone : UUID} (hgone : Owned db ws gone)
    (hevents : gone ∉ db.events.map Event.endpointId) :
    ownRows ((Write.deleteEndpoint gone).apply db) ws =
        (Write.deleteEndpoint gone).applyRows (ownRows db ws) ∧
      otherRows ((Write.deleteEndpoint gone).apply db) ws = otherRows db ws := by
  have howned : ∀ id, Owned ((Write.deleteEndpoint gone).apply db) ws id ↔
      Owned db ws id ∧ id ≠ gone := owned_deleteEndpoint
  have hne : ∀ e ∈ db.events, e.endpointId ≠ gone := by
    intro e he heq
    exact hevents (heq ▸ List.mem_map_of_mem he)
  have hevent : ∀ e ∈ db.events, Owned ((Write.deleteEndpoint gone).apply db) ws e.endpointId ↔
      Owned db ws e.endpointId := by
    intro e he
    rw [howned, and_iff_left (hne e he)]
  have hself : ¬ Owned ((Write.deleteEndpoint gone).apply db) ws gone := by
    rw [howned]
    exact fun h => h.2 rfl
  constructor
  · unfold ownRows
    rw [rowsOf_apply_of_neg hdb (w := .deleteEndpoint gone) (t := gone) rfl hself]
    ext x
    · show x ∈ db.endpoints ∧ Owned _ ws x.id ↔ (x ∈ db.endpoints ∧ Owned db ws x.id) ∧ x.id ≠ gone
      rw [howned, and_assoc]
    · show x ∈ db.routes ∧ Owned _ ws x.endpointId ↔
        (x ∈ db.routes ∧ Owned db ws x.endpointId) ∧ x.endpointId ≠ gone
      rw [howned, and_assoc]
    · exact and_congr_right (hevent x)
    · refine and_congr_right (fun _ => exists_congr (fun e => and_congr_right ?_))
      exact fun he => and_congr_right (fun _ => hevent e he)
  · unfold otherRows
    rw [rowsOf_apply_of_pos hdb (w := .deleteEndpoint gone) (t := gone) rfl hself]
    have hother : ∀ id, (¬ Owned ((Write.deleteEndpoint gone).apply db) ws id) ∧ id ≠ gone ↔
        ¬ Owned db ws id := by
      intro id
      rw [howned]
      constructor
      · rintro ⟨hnot, hid⟩ h
        exact hnot ⟨h, hid⟩
      · intro hnot
        refine ⟨fun h => hnot h.1, ?_⟩
        rintro rfl
        exact hnot hgone
    ext x
    · show (x ∈ db.endpoints ∧ ¬ Owned _ ws x.id) ∧ x.id ≠ gone ↔ x ∈ db.endpoints ∧
        ¬ Owned db ws x.id
      rw [and_assoc, hother]
    · show (x ∈ db.routes ∧ ¬ Owned _ ws x.endpointId) ∧ x.endpointId ≠ gone ↔
        x ∈ db.routes ∧ ¬ Owned db ws x.endpointId
      rw [and_assoc, hother]
    · exact and_congr_right (fun hx => not_congr (hevent x hx))
    · refine and_congr_right (fun _ => exists_congr (fun e => and_congr_right ?_))
      exact fun he => and_congr_right (fun _ => not_congr (hevent e he))

/-- A committed write of a workspace changes the workspace's rows by a function
of these rows, and no other row. -/
theorem rows_apply (hdb : Consistent db) (within : w.Within db ws) (hcheck : w.check db = .ok ()) :
    ownRows (w.apply db) ws = w.applyRows (ownRows db ws) ∧
      otherRows (w.apply db) ws = otherRows db ws := by
  cases w with
  | insertEndpoint ep => exact rows_apply_insertEndpoint hdb within.1 within.2
  | updateEndpoint ep =>
      obtain ⟨hws, old, hold, hid⟩ := within
      obtain ⟨hmem, holdws⟩ := (mem_ownRows_endpoints hdb).mp hold
      have ht : Owned db ws ep.id := ⟨old, hmem, hid, holdws⟩
      exact rows_apply_of_owned_eq hdb ⟨rfl, Rows.key_mem_of_old hmem hid⟩ ht
        (owned_updateEndpoint hws hmem hid holdws)
  | deleteEndpoint gone =>
      obtain ⟨old, ⟨_, howned⟩, rfl⟩ := within
      apply rows_apply_deleteEndpoint hdb howned
      intro hmem
      rw [Write.check, if_pos hmem] at hcheck
      split at hcheck <;> cases hcheck
  | insertRoute route =>
      exact rows_apply_of_owned_eq hdb (t := route.endpointId) rfl within.1 rfl
  | updateRoute route =>
      obtain ⟨old, ⟨hold, howned⟩, hid, hendpoint⟩ := within
      exact rows_apply_of_owned_eq hdb ⟨rfl, old, hold, hid, hendpoint⟩ (hendpoint ▸ howned) rfl
  | deleteRoute id =>
      obtain ⟨old, ⟨hold, howned⟩, hid⟩ := within
      exact rows_apply_of_owned_eq hdb ⟨old, hold, hid, rfl⟩ howned rfl
  | updateEvent event =>
      obtain ⟨old, ⟨hold, howned⟩, hid, hendpoint⟩ := within
      exact rows_apply_of_owned_eq hdb ⟨rfl, old, hold, hid, hendpoint⟩ (hendpoint ▸ howned) rfl

end WebhookRelay.Api
