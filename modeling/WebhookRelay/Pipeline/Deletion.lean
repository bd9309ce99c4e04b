import WebhookRelay.Api.ForeignKeys
import WebhookRelay.Pipeline.Ingestion

/-!
# Deleting what has been used

The store with everything that writes on it, and the rows that deliveries
leave. The tables are consistent in every reachable store, so a deletion is
refused only where a foreign key without a delete rule points at what it
takes away: an event at its endpoint, an attempt at its route.
-/

namespace WebhookRelay.Pipeline

open Foundation Gateway Outbox Retry

inductive UsageLabel (ξ ζ : Type) where
  | store (label : StoreLabel ξ ζ)
  | attempt (row : DeliveryAttempt)

section Steps

variable {ξ ζ : Type} (rt : Gateway.Runtime) (accountRt : Api.AccountRuntime) (settings : Settings)

/-- A delivery is of an event on a route of its endpoint; the tables take its
row as long as both are there. -/
def attemptStep (s : StoreState ξ ζ) (row : DeliveryAttempt) : Option (StoreState ξ ζ) :=
  if row.id ∉ s.db.attempts.map DeliveryAttempt.id ∧
      ∃ e ∈ s.db.events, ∃ r ∈ s.db.routes,
        e.id = row.eventId ∧ r.id = row.routeId ∧ e.endpointId = r.endpointId then
    some { s with db := { s.db with attempts := s.db.attempts ++ [row] } }
  else none

def usageNext [DecidableEq ξ] [DecidableEq ζ] (s : StoreState ξ ζ) :
    UsageLabel ξ ζ → Option (StoreState ξ ζ)
  | .store label => storeNext rt accountRt settings s label
  | .attempt row => attemptStep s row

/-- From empty tables. -/
def usage (ξ ζ : Type) [DecidableEq ξ] [DecidableEq ζ] :
    Machine (StoreState ξ ζ) (UsageLabel ξ ζ) where
  init := fun s => (store rt accountRt settings ξ ζ).init s ∧ s.db = {}
  next := usageNext rt accountRt settings

end Steps

variable {ξ ζ : Type} [DecidableEq ξ] [DecidableEq ζ] {rt : Gateway.Runtime}
  {accountRt : Api.AccountRuntime} {settings : Settings} {s t : StoreState ξ ζ}

/-- The tables that only the API and the calls on accounts write on. -/
structure Frame (db db' : Database) : Prop where
  endpoints : db'.endpoints = db.endpoints
  routes : db'.routes = db.routes
  attempts : db'.attempts = db.attempts
  memberships : db'.memberships = db.memberships
  users : db'.users = db.users
  workspaces : db'.workspaces = db.workspaces

theorem Frame.of_eq {db db' : Database} (h : db' = db) : Frame db db' := by
  subst h
  exact ⟨rfl, rfl, rfl, rfl, rfl, rfl⟩

theorem Frame.accountKeys {db db' : Database} (frame : Frame db db') (h : Api.AccountKeys db) :
    Api.AccountKeys db' where
  membership_user := by
    rw [frame.memberships, frame.users]
    exact h.membership_user
  membership_workspace := by
    rw [frame.memberships, frame.workspaces]
    exact h.membership_workspace
  endpoint_workspace := by
    rw [frame.endpoints, frame.workspaces]
    exact h.endpoint_workspace

theorem Frame.consistent {db db' : Database} (frame : Frame db db') (hsame : SameFacts db db')
    (hdb : Api.Consistent db) : Api.Consistent db' := by
  have same : Api.SameLinks db db' :=
    ⟨by rw [frame.endpoints], by rw [frame.routes], hsame.events, frame.attempts⟩
  apply same.consistent hdb
  rw [frame.memberships]
  exact hdb.memberships_nodup

/-- What holds of the tables whatever happens. -/
structure UsageInv (settings : Settings) (s : StoreState ξ ζ) : Prop where
  store : StoreInv settings s
  consistent : Api.Consistent s.db
  accounts : Api.AccountKeys s.db

/-! ## Events come in for endpoints that are there -/

theorem endpoint_of_commit {g g' : GatewayState} {i : ℕ} {eventId outboxId : UUID}
    (h : gatewayNext rt settings g (.commit i eventId outboxId) = some g') :
    ∃ entry, g'.ledger = g.ledger ++ [entry] ∧
      entry.event.endpointId ∈ g.endpoints.map Endpoint.id := by
  simp only [gatewayNext, Gateway.commit] at h
  split at h
  · simp only [Option.ite_none_right_eq_some, Option.some.injEq] at h
    obtain ⟨⟨_, _, hendpoint⟩, rfl⟩ := h
    exact ⟨_, rfl, hendpoint⟩
  · cases h

omit [DecidableEq ξ] [DecidableEq ζ] in
theorem usageInv_gateway {label : GatewayLabel} (h : UsageInv settings s)
    (hstep : gatewayStep rt settings s label = some t) : UsageInv settings t := by
  have hstore : StoreInv settings t := storeInv_gateway h.store hstep
  obtain ⟨g, hg, _, hcases⟩ := gatewayStep_cases hstep
  rcases hcases with ⟨_, _, rfl, _⟩ |
    ⟨i, eventId, outboxId, request, endpoint, payload, setNxAt, rfl, _, _, hledger, _, rfl⟩
  · exact ⟨hstore, h.consistent, h.accounts⟩
  · obtain ⟨entry, hledger', hendpoint⟩ := endpoint_of_commit hg
    have hentry : [entry] = [_] := List.append_cancel_left (hledger'.symm.trans hledger)
    rw [List.cons.inj hentry |>.1] at hendpoint
    refine ⟨hstore, { h.consistent with
      events_nodup := hstore.events_nodup
      event_endpoint := ?_
      attempt_event := ?_ }, ⟨h.accounts.1, h.accounts.2, h.accounts.3⟩⟩
    · intro e he
      rcases List.mem_append.mp he with hold | hnew
      · exact h.consistent.event_endpoint e hold
      · rw [List.mem_singleton.mp hnew]
        exact hendpoint
    · intro a ha
      obtain ⟨e, he, hrest⟩ := h.consistent.attempt_event a ha
      exact ⟨e, List.mem_append_left _ he, hrest⟩

/-! ## Relays and schedulers write on events and records only -/

theorem relayNext_frame {r r' : RelaySystem ξ} {label : RelayLabel ξ}
    (hstep : relayNext r label = some r') : Frame r.db r'.db := by
  match label with
  | .ingest event record =>
      simp only [relayNext, Outbox.ingest, Option.ite_none_right_eq_some, Option.some.injEq]
        at hstep
      obtain ⟨_, rfl⟩ := hstep
      exact ⟨rfl, rfl, rfl, rfl, rfl, rfl⟩
  | .select x tie =>
      obtain ⟨_, hdb, _⟩ := Outbox.select_cases hstep
      exact Frame.of_eq hdb
  | .publish x answer =>
      obtain ⟨_, _, _, _, hdb, _⟩ := Outbox.publishNext_cases hstep
      exact Frame.of_eq hdb
  | .signal x =>
      obtain rfl := Option.some.inj hstep
      exact Frame.of_eq rfl
  | .commit x =>
      simp only [relayNext, Outbox.commit, Option.ite_none_right_eq_some, Option.some.injEq]
        at hstep
      obtain ⟨_, rfl⟩ := hstep
      exact ⟨rfl, rfl, rfl, rfl, rfl, rfl⟩
  | .abort x =>
      obtain ⟨hdb, _⟩ := Outbox.abort_cases hstep
      exact Frame.of_eq hdb

theorem retryNext_frame {r r' : RetrySystem ζ} {label : RetryLabel ζ}
    (hstep : retryNext settings r label = some r') : Frame r.db r'.db := by
  match label with
  | .insert event =>
      obtain ⟨_, rfl⟩ := insertEvent_cases hstep
      exact ⟨rfl, rfl, rfl, rfl, rfl, rfl⟩
  | .change event =>
      obtain ⟨_, _, rfl⟩ := changeEvent_cases hstep
      exact ⟨rfl, rfl, rfl, rfl, rfl, rfl⟩
  | .select x now tie =>
      obtain ⟨_, _, rfl⟩ := Retry.select_cases hstep
      exact Frame.of_eq rfl
  | .publish x now result =>
      obtain ⟨_, _, _, rfl⟩ := Retry.publishNext_cases hstep
      exact Frame.of_eq rfl
  | .commit x =>
      obtain ⟨_, _, rfl⟩ := Retry.commit_cases hstep
      exact ⟨rfl, rfl, rfl, rfl, rfl, rfl⟩
  | .abort x =>
      obtain ⟨_, rfl⟩ := Retry.abort_cases hstep
      exact Frame.of_eq rfl
  | .read i call id =>
      obtain ⟨_, rfl⟩ := readEvent_cases hstep
      exact Frame.of_eq rfl
  | .write i now =>
      obtain ⟨_, _, _, _, _, _, rfl⟩ := writeEvent_cases hstep
      exact ⟨rfl, rfl, rfl, rfl, rfl, rfl⟩

omit [DecidableEq ζ] in
theorem usageInv_relay {label : RelayLabel ξ} (h : UsageInv settings s)
    (hstep : relayStep s label = some t) : UsageInv settings t := by
  have hstore : StoreInv settings t := storeInv_relay h.store hstep
  unfold relayStep at hstep
  split at hstep
  · cases hstep
  · rename_i hingest
    split at hstep
    · cases hstep
    · obtain ⟨r, hr, rfl⟩ := Option.map_eq_some_iff.mp hstep
      have frame : Frame s.db r.db := relayNext_frame hr
      obtain ⟨hsame, _⟩ := relayNext_keeps h.store.outbox_nodup h.store.relay_keeps
        (fun event record heq => hingest event record heq) hr
      exact ⟨hstore, frame.consistent hsame h.consistent, frame.accountKeys h.accounts⟩

omit [DecidableEq ξ] in
theorem usageInv_retry {label : RetryLabel ζ} (h : UsageInv settings s)
    (hstep : retryStep settings s label = some t) : UsageInv settings t := by
  have hstore : StoreInv settings t := storeInv_retry h.store hstep
  simp only [retryStep, Option.ite_none_right_eq_some] at hstep
  obtain ⟨hallowed, hstep⟩ := hstep
  obtain ⟨r, hr, rfl⟩ := Option.map_eq_some_iff.mp hstep
  have frame : Frame s.db r.db := retryNext_frame hr
  obtain ⟨hsame, _⟩ := retryNext_keeps h.store.events_nodup h.store.retry_keeps
    (ne_insert_of_allowed hallowed) (facts_of_allowed hallowed) hr
  exact ⟨hstore, frame.consistent hsame h.consistent, frame.accountKeys h.accounts⟩

/-! ## The API, accounts and deliveries -/

omit [DecidableEq ξ] [DecidableEq ζ] in
theorem usageInv_api {env : Api.Env} {request : Api.Request} (h : UsageInv settings s)
    (hstep : apiStep settings s env request = some t) : UsageInv settings t := by
  obtain ⟨hconsistent, haccounts⟩ :=
    Api.consistent_handle env settings h.consistent h.accounts request
  have hstore : StoreInv settings t := storeInv_api h.store hstep
  obtain rfl := apiStep_eq hstep
  exact ⟨hstore, hconsistent, haccounts⟩

omit [DecidableEq ξ] [DecidableEq ζ] in
theorem usageInv_account {env : Api.AccountEnv} {write : Api.AccountWrite}
    (h : UsageInv settings s) (hstep : accountStep accountRt s env write = some t) :
    UsageInv settings t := by
  have hstore : StoreInv settings t := storeInv_account h.store hstep
  unfold accountStep at hstep
  split at hstep
  · cases hstep
  · rename_i hcheck
    obtain rfl := Option.some.inj hstep
    obtain ⟨hconsistent, haccounts⟩ := Api.consistent_account h.consistent h.accounts hcheck
    exact ⟨hstore, hconsistent, haccounts⟩

omit [DecidableEq ξ] [DecidableEq ζ] in
theorem usageInv_attempt {row : DeliveryAttempt} (h : UsageInv settings s)
    (hstep : attemptStep s row = some t) : UsageInv settings t := by
  simp only [attemptStep, Option.ite_none_right_eq_some, Option.some.injEq] at hstep
  obtain ⟨⟨hfresh, hpair⟩, rfl⟩ := hstep
  refine ⟨storeInv_sameFacts h.store (SameFacts.of_eq rfl rfl) ⟨rfl, rfl⟩ h.store.relay_keeps
    h.store.retry_keeps, { h.consistent with
      attempts_nodup := Rows.nodup_snoc h.consistent.attempts_nodup hfresh
      attempt_event := ?_ }, ⟨h.accounts.1, h.accounts.2, h.accounts.3⟩⟩
  intro a ha
  rcases List.mem_append.mp ha with hold | hnew
  · exact h.consistent.attempt_event a hold
  · rw [List.mem_singleton.mp hnew]
    exact hpair

theorem usageInv_step {a : UsageLabel ξ ζ} (h : UsageInv settings s)
    (hstep : usageNext rt accountRt settings s a = some t) : UsageInv settings t := by
  match a with
  | .store (.gateway label) => exact usageInv_gateway h hstep
  | .store (.relay label) => exact usageInv_relay h hstep
  | .store (.retry label) => exact usageInv_retry h hstep
  | .store (.api env request) => exact usageInv_api h hstep
  | .store (.account env write) => exact usageInv_account h hstep
  | .attempt row => exact usageInv_attempt h hstep

theorem usageInv_reachable (h : (usage rt accountRt settings ξ ζ).Reachable s) :
    UsageInv settings s := by
  induction h with
  | start hinit =>
      obtain ⟨hstore, hdb⟩ := hinit
      refine ⟨storeInv_init hstore, ?_, ?_⟩
      · rw [hdb]
        constructor <;> simp
      · rw [hdb]
        constructor <;> simp
  | step _ hstep ih => exact usageInv_step ih hstep

omit [DecidableEq ξ] [DecidableEq ζ] in
/-- No step leaves a foreign key without its row. -/
theorem UsageInv.foreignKeys (h : UsageInv settings s) : Api.ForeignKeys s.db := by
  apply Api.foreignKeys_of_consistent h.consistent h.accounts
  intro r hr
  obtain ⟨e, he, hid⟩ := (records_of_paired h.store).2 r hr
  exact hid ▸ List.mem_map_of_mem he

omit [DecidableEq ξ] [DecidableEq ζ] in
/-- Nor does a request, whatever it asks for. -/
theorem UsageInv.foreignKeys_handle (h : UsageInv settings s) (env : Api.Env)
    (request : Api.Request) :
    Api.ForeignKeys ((Api.handle env settings request s.db).store s.db) := by
  obtain ⟨hconsistent, haccounts⟩ :=
    Api.consistent_handle env settings h.consistent h.accounts request
  have hsame : SameFacts s.db ((Api.handle env settings request s.db).store s.db) :=
    sameFacts_api h.store.events_nodup
  apply Api.foreignKeys_of_consistent hconsistent haccounts
  intro r hr
  have hfacts : recordFacts r ∈ s.db.outbox.map recordFacts :=
    hsame.outbox ▸ List.mem_map_of_mem hr
  obtain ⟨old, hold, heq⟩ := List.mem_map.mp hfacts
  have hevent : old.eventId = r.eventId := congrArg (fun facts => facts.2.1) heq
  rw [hsame.event_ids, ← hevent]
  exact h.foreignKeys.record_event old hold

/-! ## The two handlers -/

section Handlers

variable {env : Api.Env} {db : Database} {m : WorkspaceMembership} {caller : Except Failure UUID}
  {workspaceId text : String}

/-- The endpoint and its routes are gone, and every foreign key finds its row. -/
structure EndpointDeleted (db : Database) (id : UUID) (outcome : Api.Outcome) : Prop where
  answered : outcome.response = .ok (204, .empty)
  gone : id ∉ (outcome.store db).endpoints.map Endpoint.id
  routes_gone : ∀ r ∈ db.routes, r.endpointId = id → r.id ∉ (outcome.store db).routes.map Route.id
  keys : Api.ForeignKeys (outcome.store db)

structure RouteDeleted (db : Database) (id : UUID) (outcome : Api.Outcome) : Prop where
  answered : outcome.response = .ok (204, .empty)
  gone : id ∉ (outcome.store db).routes.map Route.id
  keys : Api.ForeignKeys (outcome.store db)

theorem run_deleteEndpoint (hdb : Api.Consistent db) {ep : Endpoint} (hep : ep ∈ db.endpoints)
    (hparse : UUID.parse text = some ep.id) :
    (Api.Operation.deleteEndpoint text).run env settings db ep.workspaceId =
      (Api.commit env db (.deleteEndpoint ep.id) >>= fun _ =>
        pure (Api.respond 204 (.deleteEndpoint ep.id) (.ok .empty))) := by
  have hown : ep ∈ (Api.ownRows db ep.workspaceId).endpoints :=
    (Api.mem_ownRows_endpoints hdb).mpr ⟨hep, rfl⟩
  have hfound : Api.endpointOr404 db ep.workspaceId ep.id = .ok ep :=
    (Api.endpointOr404_eq_ok_iff hdb).mpr ⟨hown, rfl⟩
  show (Api.parseUuid text "endpoint_id" >>= _) = _
  rw [Api.parseUuid_of_parse hparse]
  show (Api.endpointOr404 db ep.workspaceId ep.id >>= _) = _
  rw [hfound]
  rfl

theorem run_deleteRoute (hdb : Api.Consistent db) {ws : UUID} {route : Route}
    (hroute : route ∈ db.routes) (howned : Api.Owned db ws route.endpointId)
    (hparse : UUID.parse text = some route.id) :
    (Api.Operation.deleteRoute text).run env settings db ws =
      (Api.commit env db (.deleteRoute route.id) >>= fun _ =>
        pure (Api.respond 204 (.deleteRoute route.id) (.ok .empty))) := by
  have hfound : Api.routeOr404 db ws route.id = .ok route :=
    (Api.routeOr404_eq_ok_iff hdb).mpr ⟨⟨hroute, howned⟩, rfl⟩
  show (Api.parseUuid text "route_id" >>= _) = _
  rw [Api.parseUuid_of_parse hparse]
  show (Api.routeOr404 db ws route.id >>= _) = _
  rw [hfound]
  rfl

theorem endpointDeleted_apply (hdb : Api.Consistent db) {id : UUID}
    (hkeys : Api.ForeignKeys ((Api.Write.deleteEndpoint id).apply db)) :
    EndpointDeleted db id (Api.respond 204 (.deleteEndpoint id) (.ok .empty)) where
  answered := rfl
  gone := by
    intro hmem
    obtain ⟨ep, hep, hid⟩ := List.mem_map.mp hmem
    exact (Rows.mem_remove_iff.mp hep).2 hid
  routes_gone := by
    intro r hr hof hmem
    obtain ⟨r', hr', hid⟩ := List.mem_map.mp hmem
    obtain ⟨hold, hother⟩ := List.mem_filter.mp hr'
    rw [Rows.eq_of_key_eq hdb.routes_nodup hold hr hid] at hother
    exact of_decide_eq_true hother hof
  keys := hkeys

theorem routeDeleted_apply {id : UUID}
    (hkeys : Api.ForeignKeys ((Api.Write.deleteRoute id).apply db)) :
    RouteDeleted db id (Api.respond 204 (.deleteRoute id) (.ok .empty)) where
  answered := rfl
  gone := by
    intro hmem
    obtain ⟨r, hr, hid⟩ := List.mem_map.mp hmem
    exact (Rows.mem_remove_iff.mp hr).2 hid
  keys := hkeys

omit [DecidableEq ξ] [DecidableEq ζ] in
/-- The tables alone decide about an endpoint. -/
theorem endpointDeleted_iff (hinv : UsageInv settings s) (hcommit : env.commit = .ok ())
    (hmember : Api.getWorkspaceMembership s.db caller workspaceId = .ok m)
    (hrole : Api.requireWorkspaceRole .admin m = .ok m) {ep : Endpoint}
    (hep : ep ∈ s.db.endpoints) (hws : ep.workspaceId = m.workspaceId)
    (hparse : UUID.parse text = some ep.id) :
    EndpointDeleted s.db ep.id
        (Api.handle env settings ⟨caller, workspaceId, .deleteEndpoint text⟩ s.db) ↔
      ep.id ∉ s.db.events.map Event.endpointId := by
  have hhandle : Api.handle env settings ⟨caller, workspaceId, .deleteEndpoint text⟩ s.db =
      .ofHandler ((Api.Operation.deleteEndpoint text).run env settings s.db m.workspaceId) :=
    Api.handle_of_admin rfl hmember hrole
  rw [← hws, run_deleteEndpoint hinv.consistent hep hparse] at hhandle
  have hkeys := hinv.foreignKeys_handle env ⟨caller, workspaceId, .deleteEndpoint text⟩
  rw [← Api.check_deleteEndpoint_iff hinv.consistent]
  rcases Api.commit_cases hcommit with ⟨hcheck, hok⟩ | ⟨exc, hcheck, herr⟩
  · rw [hok] at hhandle
    apply iff_of_true _ hcheck
    rw [hhandle] at hkeys ⊢
    exact endpointDeleted_apply hinv.consistent hkeys
  · rw [herr] at hhandle
    rw [hhandle, hcheck]
    apply iff_of_false
    · intro hdeleted
      cases hdeleted.answered
    · simp

omit [DecidableEq ξ] [DecidableEq ζ] in
/-- And about a route. -/
theorem routeDeleted_iff (hinv : UsageInv settings s) (hcommit : env.commit = .ok ())
    (hmember : Api.getWorkspaceMembership s.db caller workspaceId = .ok m)
    (hrole : Api.requireWorkspaceRole .admin m = .ok m) {route : Route}
    (hroute : route ∈ s.db.routes) (howned : Api.Owned s.db m.workspaceId route.endpointId)
    (hparse : UUID.parse text = some route.id) :
    RouteDeleted s.db route.id
        (Api.handle env settings ⟨caller, workspaceId, .deleteRoute text⟩ s.db) ↔
      route.id ∉ s.db.attempts.map DeliveryAttempt.routeId := by
  have hhandle : Api.handle env settings ⟨caller, workspaceId, .deleteRoute text⟩ s.db =
      .ofHandler ((Api.Operation.deleteRoute text).run env settings s.db m.workspaceId) :=
    Api.handle_of_admin rfl hmember hrole
  rw [run_deleteRoute hinv.consistent hroute howned hparse] at hhandle
  have hkeys := hinv.foreignKeys_handle env ⟨caller, workspaceId, .deleteRoute text⟩
  rw [← Api.check_deleteRoute_iff]
  rcases Api.commit_cases hcommit with ⟨hcheck, hok⟩ | ⟨exc, hcheck, herr⟩
  · rw [hok] at hhandle
    apply iff_of_true _ hcheck
    rw [hhandle] at hkeys ⊢
    exact routeDeleted_apply hkeys
  · rw [herr] at hhandle
    rw [hhandle, hcheck]
    apply iff_of_false
    · intro hdeleted
      cases hdeleted.answered
    · simp

end Handlers

/-- Deleting works for every endpoint and every route of a workspace, whatever
admin of the workspace asks for it. -/
def DeletionWorks (settings : Settings) (db : Database) : Prop :=
  ∀ (env : Api.Env) (caller : Except Failure UUID) (workspaceId : String) (m : WorkspaceMembership),
    env.commit = .ok () → Api.getWorkspaceMembership db caller workspaceId = .ok m →
    Api.requireWorkspaceRole .admin m = .ok m →
    (∀ ep ∈ db.endpoints, ep.workspaceId = m.workspaceId →
      ∀ text, UUID.parse text = some ep.id →
        EndpointDeleted db ep.id
          (Api.handle env settings ⟨caller, workspaceId, .deleteEndpoint text⟩ db)) ∧
      ∀ route ∈ db.routes, Api.Owned db m.workspaceId route.endpointId →
        ∀ text, UUID.parse text = some route.id →
          RouteDeleted db route.id
            (Api.handle env settings ⟨caller, workspaceId, .deleteRoute text⟩ db)

/-- In every reachable store, an endpoint can be deleted exactly while it has
no event, and a route exactly while it has no attempt. -/
theorem deletion_works_iff (hreach : (usage rt accountRt settings ξ ζ).Reachable s)
    {env : Api.Env} {caller : Except Failure UUID} {workspaceId : String} {m : WorkspaceMembership}
    (hcommit : env.commit = .ok ())
    (hmember : Api.getWorkspaceMembership s.db caller workspaceId = .ok m)
    (hrole : Api.requireWorkspaceRole .admin m = .ok m) :
    (∀ ep ∈ s.db.endpoints, ep.workspaceId = m.workspaceId →
      ∀ text, UUID.parse text = some ep.id →
        (EndpointDeleted s.db ep.id
            (Api.handle env settings ⟨caller, workspaceId, .deleteEndpoint text⟩ s.db) ↔
          ep.id ∉ s.db.events.map Event.endpointId)) ∧
      ∀ route ∈ s.db.routes, Api.Owned s.db m.workspaceId route.endpointId →
        ∀ text, UUID.parse text = some route.id →
          (RouteDeleted s.db route.id
              (Api.handle env settings ⟨caller, workspaceId, .deleteRoute text⟩ s.db) ↔
            route.id ∉ s.db.attempts.map DeliveryAttempt.routeId) := by
  have hinv := usageInv_reachable hreach
  constructor
  · intro ep hep hws text hparse
    exact endpointDeleted_iff hinv hcommit hmember hrole hep hws hparse
  · intro route hroute howned text hparse
    exact routeDeleted_iff hinv hcommit hmember hrole hroute howned hparse

/-! ## A workspace that has been used -/

def hooksUrl : UrlRuntime where
  urlparse := fun _ => .ok { scheme := "https", hostname := some "hooks.example.com" }
  ipAddress := fun _ => none

def creationEnv (id : UUID) : Api.Env where
  url := hooksUrl
  compiles := fun _ => true
  newId := id
  secret := "generated"
  now := 5

def annCall (id : UUID) (operation : Api.Operation) : UsageLabel Unit Unit :=
  .store (.api (creationEnv id) ⟨.ok 1, UUID.str 9, operation⟩)

def orderAttempt : DeliveryAttempt where
  id := 30
  eventId := 10
  routeId := 5
  attemptNumber := 0
  requestUrl := "https://hooks.example.com/in"
  requestBody := .obj []
  responseStatus := some 200

/-- Ann registers, creates two endpoints and two routes; one webhook comes in
for the first endpoint and is delivered on the first route. -/
def usedRun : List (UsageLabel Unit Unit) :=
  [.store (.account ⟨1, 9, "", .ok (), .ok ()⟩
      (.register ⟨"ann@example.com", "long enough", "ann"⟩)),
    annCall 3 (.createEndpoint (some { name := "orders", hmacSecret := some "whsec" })),
    annCall 4 (.createEndpoint (some { name := "spare" })),
    annCall 5 (.addRoute (UUID.str 3)
      (some { name := "orders", url := "https://hooks.example.com/in" })),
    annCall 6 (.addRoute (UUID.str 3)
      (some { name := "backup", url := "https://hooks.example.com/backup" }))] ++
  (ingestion 0 "order-7").map (fun label => .store (.gateway label)) ++ [.attempt orderAttempt]

def noUsage : StoreState Unit Unit where
  db := {}
  gateway := { now := 0, endpoints := [] }
  relay := .ofDatabase {}
  retry := .ofDatabase {}

def usedStore : StoreState Unit Unit :=
  (usage sampleRuntime Api.plainText {} Unit Unit).after noUsage usedRun

/-- The run goes through, and these are the rows it leaves. -/
theorem usedRun_rows :
    ((usage sampleRuntime Api.plainText {} Unit Unit).exec noUsage usedRun).isSome = true ∧
      usedStore.db.memberships = [⟨1, 9, .owner⟩] ∧
      usedStore.db.endpoints.map (fun ep => (ep.id, ep.workspaceId)) = [(3, 9), (4, 9)] ∧
      usedStore.db.routes.map Api.routeLink = [(5, 3), (6, 3)] ∧
      usedStore.db.events.map Event.endpointId = [3] ∧
      usedStore.db.attempts.map DeliveryAttempt.routeId = [5] := by
  decide +kernel

theorem reachable_usedStore :
    (usage sampleRuntime Api.plainText {} Unit Unit).Reachable usedStore := by
  apply Machine.reachable_after
  · exact ⟨⟨rfl, rfl, rfl, rfl, rfl⟩, rfl⟩
  · exact usedRun_rows.1

def annDeletes (operation : Api.Operation) : Api.Outcome :=
  Api.handle (creationEnv 0) {} ⟨.ok 1, UUID.str 9, operation⟩ usedStore.db

theorem membership_found {db : Database} (h : db.memberships = [⟨1, 9, .owner⟩]) :
    Api.getWorkspaceMembership db (.ok 1) (UUID.str 9) = .ok ⟨1, 9, .owner⟩ := by
  have hfound : Api.membershipById db 1 9 = some ⟨1, 9, .owner⟩ := by
    unfold Api.membershipById
    rw [h]
    rfl
  unfold Api.getWorkspaceMembership
  rw [UUID.parse_str]
  simp only [bind, Except.bind, hfound]

theorem annMembership :
    Api.getWorkspaceMembership usedStore.db (.ok 1) (UUID.str 9) = .ok ⟨1, 9, .owner⟩ :=
  membership_found usedRun_rows.2.1

theorem usedEndpoint (id : UUID) (h : (id, 9) ∈ [((3 : UUID), (9 : UUID)), (4, 9)]) :
    ∃ ep ∈ usedStore.db.endpoints, ep.workspaceId = 9 ∧ ep.id = id := by
  rw [← usedRun_rows.2.2.1] at h
  obtain ⟨ep, hep, heq⟩ := List.mem_map.mp h
  exact ⟨ep, hep, congrArg Prod.snd heq, congrArg Prod.fst heq⟩

theorem usedRoute (id : UUID) (h : (id, 3) ∈ [((5 : UUID), (3 : UUID)), (6, 3)]) :
    ∃ route ∈ usedStore.db.routes, Api.Owned usedStore.db 9 route.endpointId ∧ route.id = id := by
  rw [← usedRun_rows.2.2.2.1] at h
  obtain ⟨route, hroute, heq⟩ := List.mem_map.mp h
  obtain ⟨ep, hep, hws, hid⟩ := usedEndpoint 3 (by simp)
  have hof : route.endpointId = 3 := congrArg Prod.snd heq
  exact ⟨route, hroute, ⟨ep, hep, hid.trans hof.symm, hws⟩, congrArg Prod.fst heq⟩

/-- The endpoint the webhook came in for cannot be deleted any more. -/
theorem used_endpoint_stays :
    ¬ ∀ s, (usage sampleRuntime Api.plainText {} Unit Unit).Reachable s →
      DeletionWorks {} s.db := by
  intro h
  obtain ⟨ep, hep, hws, hid⟩ := usedEndpoint 3 (by simp)
  have hinv := usageInv_reachable reachable_usedStore
  have hcommit : (creationEnv 0).commit = .ok () := rfl
  have hrole : Api.requireWorkspaceRole .admin ⟨1, 9, .owner⟩ = .ok ⟨1, 9, .owner⟩ := rfl
  have hparse : UUID.parse (UUID.str 3) = some ep.id := hid ▸ UUID.parse_str _
  have hdeleted := (h usedStore reachable_usedStore (creationEnv 0) (.ok 1) (UUID.str 9) _
    hcommit annMembership hrole).1 ep hep hws (UUID.str 3) hparse
  have hunused := (endpointDeleted_iff hinv hcommit annMembership hrole hep hws hparse).mp hdeleted
  rw [usedRun_rows.2.2.2.2.1, hid] at hunused
  simp at hunused

theorem deletion_of_usedStore :
    EndpointDeleted usedStore.db 4 (annDeletes (.deleteEndpoint (UUID.str 4))) ∧
      ¬ EndpointDeleted usedStore.db 3 (annDeletes (.deleteEndpoint (UUID.str 3))) ∧
      RouteDeleted usedStore.db 6 (annDeletes (.deleteRoute (UUID.str 6))) ∧
      ¬ RouteDeleted usedStore.db 5 (annDeletes (.deleteRoute (UUID.str 5))) := by
  have hcommit : (creationEnv 0).commit = .ok () := rfl
  have hrole : Api.requireWorkspaceRole .admin ⟨1, 9, .owner⟩ = .ok ⟨1, 9, .owner⟩ := rfl
  obtain ⟨hendpoints, hroutes⟩ :=
    deletion_works_iff reachable_usedStore hcommit annMembership hrole
  rw [usedRun_rows.2.2.2.2.1] at hendpoints
  rw [usedRun_rows.2.2.2.2.2] at hroutes
  refine ⟨?_, ?_, ?_, ?_⟩
  · obtain ⟨ep, hep, hws, hid⟩ := usedEndpoint 4 (by simp)
    have hiff := hendpoints ep hep hws (UUID.str 4) (hid ▸ UUID.parse_str _)
    rw [hid] at hiff
    exact hiff.mpr (by decide)
  · obtain ⟨ep, hep, hws, hid⟩ := usedEndpoint 3 (by simp)
    have hiff := hendpoints ep hep hws (UUID.str 3) (hid ▸ UUID.parse_str _)
    rw [hid] at hiff
    exact fun hdeleted => hiff.mp hdeleted (by decide)
  · obtain ⟨route, hroute, howned, hid⟩ := usedRoute 6 (by simp)
    have hiff := hroutes route hroute howned (UUID.str 6) (hid ▸ UUID.parse_str _)
    rw [hid] at hiff
    exact hiff.mpr (by decide)
  · obtain ⟨route, hroute, howned, hid⟩ := usedRoute 5 (by simp)
    have hiff := hroutes route hroute howned (UUID.str 5) (hid ▸ UUID.parse_str _)
    rw [hid] at hiff
    exact fun hdeleted => hiff.mp hdeleted (by decide)

end WebhookRelay.Pipeline
