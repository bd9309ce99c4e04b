import WebhookRelay.Foundation.Paging
import WebhookRelay.Pipeline.Deletion

/-!
# What came in stays

The events are the record of what came in, the attempts of what was sent. No
component takes a row out of either table, and none writes on the columns an
event came in with, although relays, schedulers and the handlers of the dead
letters all write whole rows they have read before. An event stays where it
was in its workspace, too, so a client that pages through the events of a
workspace while more come in misses none of those it began with.
-/

namespace WebhookRelay.Pipeline

open Foundation Gateway Outbox Retry

/-- What an event came in with. -/
def received (e : Event) : UUID × UUID × Option String × Json × Option Headers × Time :=
  (e.id, e.endpointId, e.idempotencyKey, e.requestBody, e.requestHeaders, e.receivedAt)

section Steps

variable {ξ ζ : Type} (rt : Gateway.Runtime) (accountRt : Api.AccountRuntime) (settings : Settings)

/-- A change of an event that no component makes. -/
def fromOutside : UsageLabel ξ ζ → Bool
  | .store (.retry (.change _)) => true
  | _ => false

/-- The components by themselves, from empty tables. -/
def components (ξ ζ : Type) [DecidableEq ξ] [DecidableEq ζ] :
    Machine (StoreState ξ ζ) (UsageLabel ξ ζ) where
  init := (usage rt accountRt settings ξ ζ).init
  next := fun s a => if fromOutside a then none else usageNext rt accountRt settings s a

end Steps

/-- The later tables still have what the earlier ones record. -/
structure Recorded (db db' : Database) : Prop where
  events : db.events.map received <+: db'.events.map received
  attempts : db.attempts <+: db'.attempts
  owned : ∀ e ∈ db.events, ∀ ws, Api.Owned db ws e.endpointId → Api.Owned db' ws e.endpointId

namespace Recorded

variable {db db' db'' : Database}

theorem refl (db : Database) : Recorded db db :=
  ⟨List.prefix_rfl, List.prefix_rfl, fun _ _ _ h => h⟩

theorem exists_event (h : Recorded db db') {e : Event} (he : e ∈ db.events) :
    ∃ e' ∈ db'.events, received e' = received e :=
  List.mem_map.mp (h.events.subset (List.mem_map_of_mem he))

theorem trans (first : Recorded db db') (second : Recorded db' db'') : Recorded db db'' where
  events := first.events.trans second.events
  attempts := first.attempts.trans second.attempts
  owned := by
    intro e he ws howned
    obtain ⟨e', he', hsame⟩ := first.exists_event he
    have hendpoint : e'.endpointId = e.endpointId := congrArg (fun facts => facts.2.1) hsame
    have hlater := second.owned e' he' ws (hendpoint ▸ first.owned e he ws howned)
    exact hendpoint ▸ hlater

/-- A step that leaves endpoints and attempts alone. -/
theorem of_events (hevents : db.events.map received <+: db'.events.map received)
    (hendpoints : db'.endpoints = db.endpoints) (hattempts : db'.attempts = db.attempts) :
    Recorded db db' where
  events := hevents
  attempts := hattempts ▸ List.prefix_rfl
  owned := by
    intro e _ ws howned
    unfold Api.Owned
    rw [hendpoints]
    exact howned

/-- A step that leaves events and attempts alone. -/
theorem of_owned (hevents : db'.events = db.events) (hattempts : db'.attempts = db.attempts)
    (howned : ∀ e ∈ db.events, ∀ ws,
      Api.Owned db ws e.endpointId → Api.Owned db' ws e.endpointId) : Recorded db db' where
  events := hevents ▸ List.prefix_rfl
  attempts := hattempts ▸ List.prefix_rfl
  owned := howned

end Recorded

theorem eq_id_of_received {a b : Event} (h : received a = received b) : a.id = b.id :=
  congrArg Prod.fst h

theorem map_received_queueEvents (ids : List UUID) (events : List Event) :
    (queueEvents ids events).map received = events.map received := by
  unfold queueEvents
  rw [List.map_map]
  apply List.map_congr_left
  intro e _
  show received (if e.id ∈ ids then { e with status := .queued } else e) = received e
  split <;> rfl

@[simp] theorem received_requeueEvent (now : Time) (result : Except Exc Unit) (e : Event) :
    received (requeueEvent now result e) = received e := by
  cases result <;> rfl

@[simp] theorem received_update (call : DlqCall) (now : Time) (read row : Event) :
    received (call.update now read row) = received row := by
  cases call <;> rfl

variable {ξ ζ : Type} [DecidableEq ξ] [DecidableEq ζ] {rt : Gateway.Runtime}
  {accountRt : Api.AccountRuntime} {settings : Settings} {s t : StoreState ξ ζ}

/-- What holds of the tables, and of the rows that schedulers hold. -/
structure HistoryInv (settings : Settings) (s : StoreState ξ ζ) : Prop where
  usage : UsageInv settings s
  held : RowLocks.Keeps received s.db.events s.retry.locks

/-! ## Gateway, relays and schedulers -/

omit [DecidableEq ξ] [DecidableEq ζ] in
theorem recorded_gateway {label : GatewayLabel} (h : HistoryInv settings s)
    (hstep : gatewayStep rt settings s label = some t) :
    RowLocks.Keeps received t.db.events t.retry.locks ∧ Recorded s.db t.db := by
  obtain ⟨g, _, _, ⟨_, _, rfl, _⟩ |
    ⟨i, eventId, outboxId, request, endpoint, payload, setNxAt, _, _, _, _, _, rfl⟩⟩ :=
    gatewayStep_cases hstep
  · exact ⟨h.held, .refl _⟩
  · have hgrown : s.db.events.map received <+:
        (s.db.events ++ [newEvent eventId s.gateway.now endpoint payload request]).map received :=
      (List.prefix_append _ _).map received
    exact ⟨h.held.mono (fun _ hf => hgrown.subset hf), .of_events hgrown rfl rfl⟩

omit [DecidableEq ζ] in
theorem recorded_relay {label : RelayLabel ξ} (h : HistoryInv settings s)
    (hstep : relayStep s label = some t) :
    RowLocks.Keeps received t.db.events t.retry.locks ∧ Recorded s.db t.db := by
  unfold relayStep at hstep
  split at hstep
  · cases hstep
  · split at hstep
    · cases hstep
    · rename_i hingest _
      obtain ⟨r, hr, rfl⟩ := Option.map_eq_some_iff.mp hstep
      have frame : Frame s.db r.db := relayNext_frame hr
      have hsame : r.db.events.map received = s.db.events.map received := by
        match label with
        | .ingest event record => exact absurd rfl (hingest event record)
        | .select x tie =>
            obtain ⟨_, hdb, _⟩ := Outbox.select_cases hr
            rw [hdb]
        | .publish x answer =>
            obtain ⟨_, _, _, _, hdb, _⟩ := Outbox.publishNext_cases hr
            rw [hdb]
        | .signal x =>
            obtain rfl := Option.some.inj hr
            rfl
        | .commit x =>
            simp only [relayNext, Outbox.commit, Option.ite_none_right_eq_some,
              Option.some.injEq] at hr
            obtain ⟨_, rfl⟩ := hr
            exact map_received_queueEvents _ _
        | .abort x =>
            obtain ⟨hdb, _⟩ := Outbox.abort_cases hr
            rw [hdb]
      exact ⟨h.held.mono (fun f hf => hsame ▸ hf),
        .of_events (hsame ▸ List.prefix_rfl) frame.endpoints frame.attempts⟩

omit [DecidableEq ξ] in
/-- A scheduler commits versions of rows that were loaded before, and the
columns an event came in with were then what they are now. -/
theorem recorded_retry {label : RetryLabel ζ} (h : HistoryInv settings s)
    (hinside : fromOutside (.store (.retry label) : UsageLabel ξ ζ) = false)
    (hstep : retryStep settings s label = some t) :
    RowLocks.Keeps received t.db.events t.retry.locks ∧ Recorded s.db t.db := by
  simp only [retryStep, Option.ite_none_right_eq_some] at hstep
  obtain ⟨hallowed, hstep⟩ := hstep
  obtain ⟨r, hr, rfl⟩ := Option.map_eq_some_iff.mp hstep
  have frame : Frame s.db r.db := retryNext_frame hr
  have hkept : r.db.events.map received = s.db.events.map received ∧
      RowLocks.Keeps received s.db.events r.locks := by
    cases label with
    | insert event => cases hallowed
    | change event => cases hinside
    | select x now tie =>
        obtain ⟨_, _, rfl⟩ := Retry.select_cases hr
        exact ⟨rfl, h.held.lock (fun _ he => (mem_selectDue he).1)⟩
    | publish x now result =>
        obtain ⟨e, rest, htodo, rfl⟩ := Retry.publishNext_cases hr
        refine ⟨rfl, h.held.stage ?_⟩
        rw [received_requeueEvent]
        exact (h.held x).1 e (mem_held_of_todo htodo)
    | commit x =>
        obtain ⟨_, _, rfl⟩ := Retry.commit_cases hr
        exact ⟨h.held.map_commit (fun _ _ => eq_id_of_received) h.usage.store.events_nodup x,
          h.held.release x⟩
    | abort x =>
        obtain ⟨_, rfl⟩ := Retry.abort_cases hr
        exact ⟨rfl, h.held.release x⟩
    | read i call id =>
        obtain ⟨calls, rfl⟩ := readEvent_cases hr
        exact ⟨rfl, h.held⟩
    | write i now =>
        obtain ⟨call, read, row, calls, hrow, _, rfl⟩ := writeEvent_cases hr
        have hid : row.id = (call.update now read row).id :=
          (DlqCall.update_id call now read row).symm
        exact ⟨Rows.map_put_of_eq h.usage.store.events_nodup hrow hid
          (received_update call now read row), h.held⟩
  obtain ⟨hsame, hheld⟩ := hkept
  exact ⟨hheld.mono (fun f hf => hsame ▸ hf),
    .of_events (hsame ▸ List.prefix_rfl) frame.endpoints frame.attempts⟩

/-! ## The API, accounts and deliveries -/

theorem owned_remove {db : Database} {id endpointId ws : UUID} (hne : endpointId ≠ id)
    (howned : Api.Owned db ws endpointId) :
    Api.Owned ((Api.Write.deleteEndpoint id).apply db) ws endpointId := by
  obtain ⟨ep, hep, hid, hws⟩ := howned
  exact ⟨ep, Rows.mem_remove_iff.mpr ⟨hep, hid ▸ hne⟩, hid, hws⟩

/-- The tables refuse to delete the endpoint of an event. -/
theorem recorded_apply {db : Database} {env : Api.Env} {ws : UUID} {w : Api.Write}
    (hdb : Api.Consistent db) (within : w.Within db ws) (hcheck : w.check db = .ok ())
    (hfrom : w.From env db) : Recorded db (w.apply db) := by
  match w with
  | .insertEndpoint ep =>
      refine .of_owned rfl rfl ?_
      rintro e _ _ ⟨old, hold, hrest⟩
      exact ⟨old, List.mem_append_left _ hold, hrest⟩
  | .updateEndpoint ep =>
      obtain ⟨hws, old, hown, hid⟩ := within
      obtain ⟨hold, hother⟩ := (Api.mem_ownRows_endpoints hdb).mp hown
      refine .of_owned rfl rfl ?_
      rintro e _ ws' ⟨found, hfound, heid, rfl⟩
      by_cases hsame : found.id = ep.id
      · have hput : ep ∈ Rows.put Endpoint.id ep db.endpoints :=
          (Rows.mem_put_iff (Rows.key_mem_of_old hold hid)).mpr (Or.inl rfl)
        obtain rfl := Rows.eq_of_key_eq hdb.endpoints_nodup hfound hold (hsame.trans hid.symm)
        exact ⟨ep, hput, hsame.symm.trans heid, hws.trans hother.symm⟩
      · exact ⟨found, (Rows.mem_put_iff (Rows.key_mem_of_old hold hid)).mpr
          (Or.inr ⟨hfound, hsame⟩), heid, rfl⟩
  | .deleteEndpoint id =>
      have hunused := (Api.check_deleteEndpoint_iff hdb).mp hcheck
      refine .of_owned rfl rfl ?_
      intro e he ws' howned
      apply owned_remove _ howned
      rintro rfl
      exact hunused (List.mem_map_of_mem he)
  | .insertRoute _ | .updateRoute _ | .deleteRoute _ => exact .of_events List.prefix_rfl rfl rfl
  | .updateEvent event =>
      obtain ⟨old, hold, isDiscarded, discardedAt, rfl⟩ := hfrom
      have hsame : (Rows.put Event.id
          { old with isDiscarded := isDiscarded, discardedAt := discardedAt } db.events).map
            received = db.events.map received :=
        Rows.map_put_of_eq hdb.events_nodup hold rfl rfl
      exact .of_events (hsame ▸ List.prefix_rfl) rfl rfl

omit [DecidableEq ξ] [DecidableEq ζ] in
theorem recorded_api {env : Api.Env} {request : Api.Request} (h : UsageInv settings s) :
    Recorded s.db ((Api.handle env settings request s.db).store s.db) := by
  unfold Api.Outcome.store
  cases hwrite : (Api.handle env settings request s.db).write with
  | none => exact .refl _
  | some w =>
      obtain ⟨m, _, within, hcheck⟩ := Api.within_of_handle h.consistent hwrite
      exact recorded_apply h.consistent within hcheck (Api.from_of_handle hwrite)

/-- Nor do they drop a workspace with events. -/
theorem recorded_account {db : Database} {env : Api.AccountEnv} {write : Api.AccountWrite}
    (hcheck : write.check accountRt env db = .ok ()) :
    Recorded db (write.apply accountRt env db) := by
  cases write with
  | deleteWorkspace id =>
      obtain ⟨_, _, hunused⟩ := exists_of_bind_eq_ok hcheck
      split at hunused
      · cases hunused
      · rename_i hnone
        refine .of_owned rfl rfl ?_
        rintro e he ws ⟨ep, hep, hid, rfl⟩
        refine ⟨ep, List.mem_filter.mpr ⟨hep, ?_⟩, hid, rfl⟩
        rw [decide_eq_true_eq]
        intro hws
        exact hnone ⟨ep, hep, hws, hid ▸ List.mem_map_of_mem he⟩
  | register _ | createWorkspace _ _ | addMember _ | updateMemberRole _ _ | removeMember _ =>
      exact .of_events List.prefix_rfl rfl rfl

/-! ## Whole runs -/

theorem history_step {a : UsageLabel ξ ζ} (h : HistoryInv settings s)
    (hstep : (components rt accountRt settings ξ ζ).next s a = some t) :
    HistoryInv settings t ∧ Recorded s.db t.db := by
  simp only [components, Option.ite_none_left_eq_some, Bool.not_eq_true] at hstep
  obtain ⟨hinside, hstep⟩ := hstep
  have husage : UsageInv settings t := usageInv_step h.usage hstep
  suffices hkept : RowLocks.Keeps received t.db.events t.retry.locks ∧ Recorded s.db t.db from
    ⟨⟨husage, hkept.1⟩, hkept.2⟩
  -- the schedulers stay where they are
  have hothers : t.retry = s.retry → Recorded s.db t.db →
      RowLocks.Keeps received t.db.events t.retry.locks ∧ Recorded s.db t.db := by
    intro hretry hrecorded
    rw [hretry]
    exact ⟨h.held.mono (fun _ hf => hrecorded.events.subset hf), hrecorded⟩
  match a with
  | .store (.gateway label) => exact recorded_gateway h hstep
  | .store (.relay label) => exact recorded_relay h hstep
  | .store (.retry label) => exact recorded_retry h hinside hstep
  | .store (.api env request) =>
      obtain rfl := apiStep_eq hstep
      exact hothers rfl (recorded_api h.usage)
  | .store (.account env write) =>
      simp only [usageNext, storeNext, accountStep] at hstep
      split at hstep
      · cases hstep
      · rename_i hcheck
        obtain rfl := Option.some.inj hstep
        exact hothers rfl (recorded_account hcheck)
  | .attempt row =>
      simp only [usageNext, attemptStep, Option.ite_none_right_eq_some, Option.some.injEq] at hstep
      obtain ⟨_, rfl⟩ := hstep
      exact hothers rfl ⟨List.prefix_rfl, List.prefix_append _ _, fun _ _ _ howned => howned⟩

theorem historyInv_init (h : (components rt accountRt settings ξ ζ).init s) :
    HistoryInv settings s := by
  refine ⟨usageInv_reachable (.start h), ?_⟩
  obtain ⟨⟨_, _, _, _, hretry⟩, _⟩ := h
  rw [hretry]
  exact RowLocks.keeps_empty _

theorem historyInv_reachable (h : (components rt accountRt settings ξ ζ).Reachable s) :
    HistoryInv settings s := by
  induction h with
  | start hinit => exact historyInv_init hinit
  | step _ hstep ih => exact (history_step ih hstep).1

theorem history_run {moves : List (Move (StoreState ξ ζ) (UsageLabel ξ ζ))}
    (run : (components rt accountRt settings ξ ζ).Run s moves t) (h : HistoryInv settings s) :
    Recorded s.db t.db := by
  have step : ∀ u a v, HistoryInv settings u → Recorded s.db u.db →
      (components rt accountRt settings ξ ζ).next u a = some v → Recorded s.db v.db :=
    fun u a v hu hrecorded hstep => hrecorded.trans (history_step hu hstep).2
  exact run.preserves (fun u a v hu hstep => (history_step hu hstep).1) step h (.refl _)

/-- An event is in one workspace. -/
theorem owned_unique {db : Database} {id ws ws' : UUID} (hdb : Api.Consistent db)
    (h : Api.Owned db ws id) (h' : Api.Owned db ws' id) : ws = ws' := by
  obtain ⟨ep, hep, hid, rfl⟩ := h
  obtain ⟨ep', hep', hid', rfl⟩ := h'
  rw [Rows.eq_of_key_eq hdb.endpoints_nodup hep hep' (hid.trans hid'.symm)]

/-- Whatever the components do, in whatever order: the events keep their order
and what they came in with, the attempts are not touched again, and an event
stays in the workspace it came in for. -/
theorem record_append_only {moves : List (Move (StoreState ξ ζ) (UsageLabel ξ ζ))}
    (hreach : (components rt accountRt settings ξ ζ).Reachable s)
    (run : (components rt accountRt settings ξ ζ).Run s moves t) :
    s.db.events.map received <+: t.db.events.map received ∧ s.db.attempts <+: t.db.attempts ∧
      ∀ e ∈ s.db.events, ∀ ws, Api.Owned t.db ws e.endpointId ↔ Api.Owned s.db ws e.endpointId := by
  have hs := historyInv_reachable hreach
  have ht := historyInv_reachable (run.reachable hreach)
  have hrecorded := history_run run hs
  refine ⟨hrecorded.events, hrecorded.attempts, fun e he ws => ⟨?_, hrecorded.owned e he ws⟩⟩
  intro hlater
  obtain ⟨ep, hep, hid⟩ := List.mem_map.mp (hs.usage.consistent.event_endpoint e he)
  have howned : Api.Owned s.db ep.workspaceId e.endpointId := ⟨ep, hep, hid, rfl⟩
  have hsame := owned_unique ht.usage.consistent (hrecorded.owned e he _ howned) hlater
  exact hsame ▸ howned

/-! ## Paging through the events -/

/-- The events of a workspace, of one endpoint if one is named. -/
def eventsOf (db : Database) (ws : UUID) (only : Option UUID) : List Event :=
  db.events.filter (fun e =>
    e.endpointId ∈ Api.workspaceEndpointIds db ws ∧ (only = none ∨ only = some e.endpointId))

/-- The endpoint that a text names; the empty one names none. -/
def namedEndpoint (endpointId : Option String) : Option UUID := UUID.parse (endpointId.getD "")

theorem endpointFilter_eq_ok {ids : List UUID} {endpointId : Option String} {only : Option UUID}
    (h : Api.endpointFilter ids endpointId = .ok only) : only = namedEndpoint endpointId := by
  unfold Api.endpointFilter at h
  split at h
  · rename_i hempty
    rw [namedEndpoint, hempty]
    exact (Except.ok.inj h).symm.trans (by decide +kernel)
  · obtain ⟨id, hid, hrest⟩ := exists_of_bind_eq_ok h
    dsimp only at hrest
    split at hrest
    · cases hrest
    · unfold Api.parseUuid at hid
      split at hid
      · rename_i hparse
        rw [namedEndpoint, hparse]
        cases hid
        exact (Except.ok.inj hrest).symm
      · cases hid

theorem mem_eventsOf {db : Database} {ws : UUID} {only : Option UUID} {e : Event} :
    e ∈ eventsOf db ws only ↔
      e ∈ db.events ∧ Api.Owned db ws e.endpointId ∧ (only = none ∨ only = some e.endpointId) := by
  unfold eventsOf
  rw [List.mem_filter, decide_eq_true_eq, Api.mem_workspaceEndpointIds_iff]

/-- An event of a workspace stays one. -/
theorem Recorded.exists_mem_eventsOf {db db' : Database} {ws : UUID} {only : Option UUID} {e : Event}
    (h : Recorded db db') (he : e ∈ eventsOf db ws only) :
    ∃ e' ∈ eventsOf db' ws only, received e' = received e := by
  obtain ⟨hmem, howned, honly⟩ := mem_eventsOf.mp he
  obtain ⟨e', he', hsame⟩ := h.exists_event hmem
  have hendpoint : e'.endpointId = e.endpointId := congrArg (fun facts => facts.2.1) hsame
  refine ⟨e', mem_eventsOf.mpr ⟨he', ?_⟩, hsame⟩
  rw [hendpoint]
  exact ⟨h.owned e hmem ws howned, honly⟩

/-- No place in the list comes closer to its start. -/
theorem Recorded.countP_eventsOf_le {db db' : Database} (h : Recorded db db') (ws : UUID)
    (only : Option UUID) (q : Time → Bool) :
    (eventsOf db ws only).countP (fun e => q e.receivedAt) ≤
      (eventsOf db' ws only).countP (fun e => q e.receivedAt) := by
  let listed (db : Database) (endpointId : UUID) : Bool :=
    endpointId ∈ Api.workspaceEndpointIds db ws ∧ (only = none ∨ only = some endpointId)
  have hmap : ∀ events : List Event,
      events.countP (fun e => q e.receivedAt && listed db' e.endpointId) =
        (events.map received).countP (fun facts => q facts.2.2.2.2.2 && listed db' facts.2.1) := by
    intro events
    rw [List.countP_map]
    rfl
  calc (eventsOf db ws only).countP (fun e => q e.receivedAt)
      = db.events.countP (fun e => q e.receivedAt && listed db e.endpointId) := List.countP_filter
    _ ≤ db.events.countP (fun e => q e.receivedAt && listed db' e.endpointId) := by
        apply List.countP_mono_left
        intro e he hlisted
        simp only [listed, Bool.and_eq_true, decide_eq_true_eq,
          Api.mem_workspaceEndpointIds_iff] at hlisted ⊢
        exact ⟨hlisted.1, h.owned e he ws hlisted.2.1, hlisted.2.2⟩
    _ ≤ db'.events.countP (fun e => q e.receivedAt && listed db' e.endpointId) := by
        rw [hmap, hmap]
        exact h.events.sublist.countP_le
    _ = (eventsOf db' ws only).countP (fun e => q e.receivedAt) := List.countP_filter.symm

section Listing

variable {env : Api.Env} {caller : Except Failure UUID} {workspaceId : String}
  {endpointId : Option String} {limit offset : ℤ} {db : Database} {ws : UUID}
  {shown : List Api.EventOut}

/-- The events that an answer shows. -/
def shownEvents (outcome : Api.Outcome) : Option (List Api.EventOut) :=
  match outcome.response with
  | .ok (_, .events shown) => some shown
  | _ => none

theorem shown_listEvents {outcome : Api.Outcome}
    (h : Api.listEvents env db ws endpointId limit offset = .ok outcome)
    (hshown : shownEvents outcome = some shown) :
    shown = (page limit.toNat offset.toNat
      (orderBy (rankBy (fun e : Event => -e.receivedAt) env.tie Event.id)
        (eventsOf db ws (namedEndpoint endpointId)))).map Api.eventOut := by
  obtain ⟨_, _, h⟩ := exists_of_bind_eq_ok h
  dsimp only at h
  split at h
  · rename_i hnone
    cases h
    cases hshown
    have hempty : eventsOf db ws (namedEndpoint endpointId) = [] := by
      unfold eventsOf
      rw [hnone]
      simp
    rw [hempty]
    simp [orderBy, page]
  · obtain ⟨only, honly, h⟩ := exists_of_bind_eq_ok h
    obtain ⟨rows, hrows, h⟩ := exists_of_bind_eq_ok h
    cases h
    cases hshown
    unfold Api.runPage at hrows
    split at hrows
    · cases hrows
    · cases hrows
      rw [endpointFilter_eq_ok honly]
      rfl

theorem shown_handle (hdb : Api.Consistent db) (hws : UUID.parse workspaceId = some ws)
    (h : shownEvents (Api.handle env settings
      ⟨caller, workspaceId, .listEvents endpointId limit offset⟩ db) = some shown) :
    shown = (page limit.toNat offset.toNat
      (orderBy (rankBy (fun e : Event => -e.receivedAt) env.tie Event.id)
        (eventsOf db ws (namedEndpoint endpointId)))).map Api.eventOut := by
  unfold Api.handle at h
  cases hresult : (Api.getWorkspaceMembership db caller workspaceId >>= fun membership =>
      Api.requireWorkspaceRole Role.viewer membership >>= fun membership =>
        Api.listEvents env db membership.workspaceId endpointId limit offset) with
  | error failure =>
      have hfailed : shownEvents (Api.Outcome.failed failure) = some shown := by
        rw [← h]
        exact congrArg (fun result => shownEvents (Api.Outcome.ofHandler result)) hresult.symm
      cases hfailed
  | ok outcome =>
      have hshown : shownEvents outcome = some shown := by
        rw [← h]
        exact congrArg (fun result => shownEvents (Api.Outcome.ofHandler result)) hresult.symm
      obtain ⟨m, hm, hrest⟩ := exists_of_bind_eq_ok hresult
      obtain ⟨m', hrole, hrun⟩ := exists_of_bind_eq_ok hrest
      obtain rfl := Api.requireWorkspaceRole_eq_ok hrole
      rw [Api.getWorkspaceMembership_workspaceId hdb hws hm] at hrun
      exact shown_listEvents hrun hshown

end Listing

/-- A client pages through the events: its `k`-th request comes to the store
`s k`, with the offset of the pages before it, and the `last` page is not full. -/
structure Walk (rt : Gateway.Runtime) (accountRt : Api.AccountRuntime) (settings : Settings)
    (workspaceId : String) (endpointId : Option String) (limit last : ℕ)
    (s : ℕ → StoreState ξ ζ) (pages : ℕ → List Api.EventOut) : Prop where
  between : ∀ k < last, ∃ moves, (components rt accountRt settings ξ ζ).Run (s k) moves (s (k + 1))
  answered : ∀ k ≤ last, ∃ env caller, shownEvents (Api.handle env settings
    ⟨caller, workspaceId, .listEvents endpointId limit (k * limit : ℕ)⟩ (s k).db) = some (pages k)
  short : (pages last).length < limit

namespace Walk

variable {workspaceId : String} {endpointId : Option String} {limit last : ℕ}
  {stores : ℕ → StoreState ξ ζ} {pages : ℕ → List Api.EventOut}
  (walk : Walk rt accountRt settings workspaceId endpointId limit last stores pages)
include walk

theorem reachable (hreach : (components rt accountRt settings ξ ζ).Reachable (stores 0)) {k : ℕ}
    (hk : k ≤ last) : (components rt accountRt settings ξ ζ).Reachable (stores k) := by
  induction k with
  | zero => exact hreach
  | succ k ih =>
      obtain ⟨moves, run⟩ := walk.between k (by omega)
      exact run.reachable (ih (by omega))

theorem recorded (hreach : (components rt accountRt settings ξ ζ).Reachable (stores 0)) {j k : ℕ}
    (hjk : j ≤ k) (hk : k ≤ last) : Recorded (stores j).db (stores k).db := by
  induction k, hjk using Nat.le_induction with
  | base => exact .refl _
  | succ k _ ih =>
      obtain ⟨moves, run⟩ := walk.between k (by omega)
      have hinv := historyInv_reachable (walk.reachable hreach (by omega : k ≤ last))
      exact (ih (by omega)).trans (history_run run hinv)

theorem consistent (hreach : (components rt accountRt settings ξ ζ).Reachable (stores 0)) {k : ℕ}
    (hk : k ≤ last) : Api.Consistent (stores k).db :=
  (historyInv_reachable (walk.reachable hreach hk)).usage.consistent

/-- The last page leaves nothing behind it. -/
theorem length_lt (hreach : (components rt accountRt settings ξ ζ).Reachable (stores 0)) {ws : UUID}
    (hws : UUID.parse workspaceId = some ws) :
    (eventsOf (stores last).db ws (namedEndpoint endpointId)).length < last * limit + limit := by
  obtain ⟨env, caller, hanswer⟩ := walk.answered last le_rfl
  have hshort := walk.short
  rw [shown_handle (walk.consistent hreach le_rfl) hws hanswer, List.length_map] at hshort
  have hlength := length_lt_of_page_lt hshort
  rwa [length_orderBy] at hlength

end Walk

/-- However many events come in meanwhile, and whatever else happens to the
workspace, a client that pages through its events, or through those of one
endpoint, is shown every event that was there when it began, except perhaps
where two events share `received_at`. -/
theorem walk_misses_nothing {workspaceId : String} {endpointId : Option String} {limit last : ℕ}
    {stores : ℕ → StoreState ξ ζ} {pages : ℕ → List Api.EventOut} {ws : UUID} {e : Event}
    (hreach : (components rt accountRt settings ξ ζ).Reachable (stores 0))
    (walk : Walk rt accountRt settings workspaceId endpointId limit last stores pages)
    (hws : UUID.parse workspaceId = some ws)
    (he : e ∈ eventsOf (stores 0).db ws (namedEndpoint endpointId))
    (halone : ∀ e' ∈ eventsOf (stores last).db ws (namedEndpoint endpointId),
      e'.receivedAt = e.receivedAt → e'.id = e.id) :
    ∃ k ≤ last, ∃ e', received e' = received e ∧ Api.eventOut e' ∈ pages k := by
  let rows (k : ℕ) : List Event := eventsOf (stores k).db ws (namedEndpoint endpointId)
  let place (k : ℕ) : ℕ := (rows k).countP (fun b => -b.receivedAt < -e.receivedAt)
  have hback : ∀ k < last, place k ≤ place (k + 1) := fun k hk =>
    (walk.recorded hreach (Nat.le_succ k) hk).countP_eventsOf_le ws _
      (fun time => decide (-time < -e.receivedAt))
  have hlast : place last < last * limit + limit :=
    lt_of_le_of_lt List.countP_le_length (walk.length_lt hreach hws)
  obtain ⟨k, hk, hfrom, hto⟩ := exists_page_of_place hback hlast
  obtain ⟨e', he', hsame⟩ := (walk.recorded hreach (Nat.zero_le k) hk).exists_mem_eventsOf he
  have hid : e'.id = e.id := congrArg Prod.fst hsame
  have hreceived : e'.receivedAt = e.receivedAt :=
    congrArg (fun facts => facts.2.2.2.2.2) hsame
  have hnodup : ((rows k).map Event.id).Nodup :=
    (walk.consistent hreach hk).events_nodup.sublist (List.filter_sublist.map _)
  have hunique : ∀ b ∈ rows k, -b.receivedAt = -e'.receivedAt → b = e' := by
    intro b hb hkey
    obtain ⟨b', hb', hbsame⟩ := (walk.recorded hreach hk le_rfl).exists_mem_eventsOf hb
    have hbid : b'.id = b.id := congrArg Prod.fst hbsame
    have hbat : b'.receivedAt = b.receivedAt := congrArg (fun facts => facts.2.2.2.2.2) hbsame
    have hother := halone b' hb' (hbat.trans ((neg_inj.mp hkey).trans hreceived))
    exact Rows.eq_of_key_eq hnodup hb he' (hbid.symm.trans (hother.trans hid.symm))
  obtain ⟨env, caller, hanswer⟩ := walk.answered k hk
  refine ⟨k, hk, e', hsame, ?_⟩
  rw [shown_handle (walk.consistent hreach hk) hws hanswer]
  apply List.mem_map_of_mem
  have hplace : (rows k).countP (fun b =>
      rankBy (fun e : Event => -e.receivedAt) env.tie Event.id b <
        rankBy (fun e : Event => -e.receivedAt) env.tie Event.id e') = place k := by
    rw [countP_rankBy_of_alone hunique, hreceived]
  apply mem_page_of_place he'
  · intro b hb hrank
    exact Rows.eq_of_key_eq hnodup hb he' (rankBy_injOn hrank)
  · exact hplace ▸ hfrom
  · exact hplace ▸ hto

/-! ## A page while an event comes in -/

abbrev sampleComponents : Machine (StoreState Unit Unit) (UsageLabel Unit Unit) :=
  components sampleRuntime Api.plainText {} Unit Unit

/-- A second later, one more webhook for the same endpoint. -/
def secondWebhook : List (UsageLabel Unit Unit) :=
  (GatewayLabel.tick 1 :: ingestion 1 "order-8").map (fun label => .store (.gateway label))

/-- The first page is asked for before the second webhook, the others after. -/
def busyStores : ℕ → StoreState Unit Unit
  | 0 => sampleComponents.after noUsage usedRun
  | _ => sampleComponents.after noUsage (usedRun ++ secondWebhook)

/-- Pages of one event. -/
def busyPage (k : ℕ) : Option (List Api.EventOut) :=
  shownEvents (Api.handle (creationEnv 0) {}
    ⟨.ok 1, UUID.str 9, .listEvents none 1 (k * 1 : ℕ)⟩ (busyStores k).db)

theorem busyRun_rows :
    (sampleComponents.exec noUsage (usedRun ++ secondWebhook)).isSome = true ∧
      (sampleComponents.exec noUsage usedRun).isSome = true ∧
      namedEndpoint none = none ∧
      (eventsOf (busyStores 0).db 9 none).map (fun e => (e.id, e.receivedAt)) = [(10, 0)] ∧
      (eventsOf (busyStores 1).db 9 none).map (fun e => (e.id, e.receivedAt)) =
        [(10, 0), (11, 1)] ∧
      (busyPage 0).map (List.map Api.EventOut.id) = some [10] ∧
      (busyPage 1).map (List.map Api.EventOut.id) = some [10] ∧
      (busyPage 2).map (List.map Api.EventOut.id) = some [] := by
  decide +kernel

theorem reachable_busyStores (k : ℕ) : sampleComponents.Reachable (busyStores k) := by
  have hinit : sampleComponents.init noUsage := ⟨⟨rfl, rfl, rfl, rfl, rfl⟩, rfl⟩
  match k with
  | 0 => exact Machine.reachable_after hinit busyRun_rows.2.1
  | _ + 1 => exact Machine.reachable_after hinit busyRun_rows.1

theorem run_busyStores : ∃ moves, sampleComponents.Run (busyStores 0) moves (busyStores 1) := by
  obtain ⟨hboth, hfirst, _⟩ := busyRun_rows
  have hexec := Machine.exec_eq_after hboth
  rw [Machine.exec_append, Machine.exec_eq_after hfirst, Option.bind_some] at hexec
  obtain ⟨moves, run, _⟩ := Machine.exists_run_of_exec hexec
  exact ⟨moves, run⟩

/-- The second webhook leaves the record of the first alone. -/
theorem record_append_only_busyStores :
    (busyStores 0).db.events.map received <+: (busyStores 1).db.events.map received := by
  obtain ⟨moves, run⟩ := run_busyStores
  exact (record_append_only (reachable_busyStores 0) run).1

/-- The first event is shown, although it is no longer where it was. -/
theorem walk_misses_nothing_busyStores :
    ∃ e, e.id = 10 ∧ ∃ k ≤ 2, ∃ e', received e' = received e ∧
      Api.eventOut e' ∈ (busyPage k).getD [] := by
  obtain ⟨_, _, hnamed, hfirst, hlater, hpages⟩ := busyRun_rows
  have walk : Walk sampleRuntime Api.plainText {} (UUID.str 9) none 1 2 busyStores
      (fun k => (busyPage k).getD []) := by
    refine ⟨?_, ?_, ?_⟩
    · intro k hk
      match k, hk with
      | 0, _ => exact run_busyStores
      | 1, _ => exact ⟨[], .nil _⟩
    · intro k hk
      have hsome : ∃ shown, busyPage k = some shown := by
        match k, hk with
        | 0, _ => exact (Option.map_eq_some_iff.mp hpages.1).imp (fun _ h => h.1)
        | 1, _ => exact (Option.map_eq_some_iff.mp hpages.2.1).imp (fun _ h => h.1)
        | 2, _ => exact (Option.map_eq_some_iff.mp hpages.2.2).imp (fun _ h => h.1)
      obtain ⟨shown, hshown⟩ := hsome
      refine ⟨creationEnv 0, .ok 1, ?_⟩
      show busyPage k = some ((busyPage k).getD [])
      rw [hshown]
      rfl
    · obtain ⟨shown, hshown, hnone⟩ := Option.map_eq_some_iff.mp hpages.2.2
      show ((busyPage 2).getD []).length < 1
      rw [hshown, List.map_eq_nil_iff.mp hnone]
      exact Nat.one_pos
  obtain ⟨e, he, heq⟩ := List.mem_map.mp (hfirst ▸ List.mem_singleton_self (10, 0))
  obtain ⟨hid, hat⟩ := Prod.mk.inj heq
  refine ⟨e, hid, walk_misses_nothing (reachable_busyStores 0) walk (UUID.parse_str 9)
    (hnamed ▸ he) ?_⟩
  intro e' he' hsame
  have hrow : (e'.id, e'.receivedAt) ∈
      (eventsOf (busyStores 1).db 9 none).map (fun e => (e.id, e.receivedAt)) :=
    List.mem_map_of_mem (hnamed ▸ he')
  rw [hlater, hsame, hat] at hrow
  rcases List.mem_cons.mp hrow with hten | heleven
  · exact (congrArg Prod.fst hten).trans hid.symm
  · have := congrArg Prod.snd (List.mem_singleton.mp heleven)
    cases this

end WebhookRelay.Pipeline
