import WebhookRelay.Api.Publications
import WebhookRelay.Api.Ownership
import WebhookRelay.Gateway.Idempotency
import WebhookRelay.Outbox.Protocol
import WebhookRelay.Retry.Protocol

/-!
# Events and their outbox records

Gateway requests with all their phases, outbox relays and retry schedulers
with their row locks, and the REST API, over one database. A component runs on
the shared tables (`s.db`); what it writes on them is what it would write on
its own. Every one of them leaves the columns that pair an event with its
record alone, and only the commit of a request adds rows: one to each table.
-/

namespace WebhookRelay.Pipeline

open Foundation Gateway Outbox Retry

structure StoreState (ξ ζ : Type) where
  db : Database
  gateway : GatewayState
  relay : RelaySystem ξ
  retry : RetrySystem ζ

inductive StoreLabel (ξ ζ : Type) where
  | gateway (label : GatewayLabel)
  | relay (label : RelayLabel ξ)
  | retry (label : RetryLabel ζ)
  | api (env : Api.Env) (request : Api.Request)
  /-- The commit of a call on accounts and workspaces. -/
  | account (env : Api.AccountEnv) (write : Api.AccountWrite)

section Steps

variable {ξ ζ : Type} (rt : Gateway.Runtime) (accountRt : Api.AccountRuntime) (settings : Settings)

/-- The tables with the rows a gateway step has inserted. -/
def ingested (db : Database) (g g' : GatewayState) : Database :=
  { db with
    events := db.events ++ (g'.ledger.drop g.ledger.length).map Ingested.event
    outbox := db.outbox ++ g'.outbox.drop g.outbox.length }

def gatewayStep (s : StoreState ξ ζ) (label : GatewayLabel) : Option (StoreState ξ ζ) :=
  (gatewayNext rt settings { s.gateway with endpoints := s.db.endpoints } label).map (fun g =>
    { s with gateway := g, db := ingested s.db s.gateway g })

/-- A relay's `UPDATE` of an event waits for a scheduler that holds its row. -/
def waits (s : StoreState ξ ζ) : RelayLabel ξ → Bool
  | .commit x => (s.relay.queued x).any (fun id => id ∈ s.retry.locks.table)
  | _ => false

/-- Rows are inserted by the gateway alone. -/
def relayStep [DecidableEq ξ] (s : StoreState ξ ζ) (label : RelayLabel ξ) :
    Option (StoreState ξ ζ) :=
  match label with
  | .ingest _ _ => none
  | label =>
      if waits s label then none
      else (relayNext { s.relay with db := s.db } label).map
        (fun r => { s with relay := r, db := r.db })

/-- What identifies an event and its endpoint. No step writes on these columns. -/
def eventFacts (e : Event) : UUID × UUID := (e.id, e.endpointId)

/-- Rows are inserted by the gateway alone. A change of another column comes
from outside: no component gives an event the status `failed`. -/
def retryAllowed (s : StoreState ξ ζ) : RetryLabel ζ → Bool
  | .insert _ => false
  | .change event => (s.db.events.map eventFacts).contains (eventFacts event)
  | _ => true

def retryStep [DecidableEq ζ] (s : StoreState ξ ζ) (label : RetryLabel ζ) :
    Option (StoreState ξ ζ) :=
  if retryAllowed s label then
    (retryNext settings { s.retry with db := s.db } label).map
      (fun r => { s with retry := r, db := r.db })
  else none

/-- A handler that writes on an event waits for a scheduler that holds it. -/
def apiStep (s : StoreState ξ ζ) (env : Api.Env) (request : Api.Request) :
    Option (StoreState ξ ζ) :=
  let outcome := Api.handle env settings request s.db
  match outcome.write with
  | some (.updateEvent event) =>
      if event.id ∈ s.retry.locks.table then none else some { s with db := outcome.store s.db }
  | _ => some { s with db := outcome.store s.db }

def accountStep (s : StoreState ξ ζ) (env : Api.AccountEnv) (write : Api.AccountWrite) :
    Option (StoreState ξ ζ) :=
  match write.check accountRt env s.db with
  | .error _ => none
  | .ok _ => some { s with db := write.apply accountRt env s.db }

def storeNext [DecidableEq ξ] [DecidableEq ζ] (s : StoreState ξ ζ) :
    StoreLabel ξ ζ → Option (StoreState ξ ζ)
  | .gateway label => gatewayStep rt settings s label
  | .relay label => relayStep s label
  | .retry label => retryStep settings s label
  | .api env request => apiStep settings s env request
  | .account env write => accountStep accountRt s env write

/-- From empty tables of events and records. -/
def store (ξ ζ : Type) [DecidableEq ξ] [DecidableEq ζ] :
    Machine (StoreState ξ ζ) (StoreLabel ξ ζ) where
  init := fun s =>
    s.db.events = [] ∧ s.db.outbox = [] ∧
      s.gateway = { now := s.gateway.now, endpoints := s.db.endpoints } ∧
      s.relay = RelaySystem.ofDatabase s.db ∧ s.retry = RetrySystem.ofDatabase s.db
  next := storeNext rt accountRt settings

end Steps

/-! ## The pairing -/

/-- What identifies a record and pairs it with its event. -/
def recordFacts (r : OutboxRecord) : UUID × UUID × String × String :=
  (r.id, r.eventId, r.publishKey, r.publishTopic)

/-- The record an event comes with. -/
def expectedRecord (settings : Settings) (f : UUID × UUID) : UUID × String × String :=
  (f.1, f.2.str, settings.kafkaTopicRawEvents)

variable {ξ ζ : Type} [DecidableEq ξ] [DecidableEq ζ]

/-- The tables list the events and their records in one order. -/
structure StoreInv (settings : Settings) (s : StoreState ξ ζ) : Prop where
  paired : (s.db.outbox.map recordFacts).map Prod.snd =
    (s.db.events.map eventFacts).map (expectedRecord settings)
  events_nodup : (s.db.events.map Event.id).Nodup
  outbox_nodup : (s.db.outbox.map OutboxRecord.id).Nodup
  ledger_ids : s.gateway.events.map Event.id = s.db.events.map Event.id
  outbox_ids : s.gateway.outbox.map OutboxRecord.id = s.db.outbox.map OutboxRecord.id
  relay_keeps : RowLocks.Keeps recordFacts s.db.outbox s.relay.locks
  retry_keeps : RowLocks.Keeps eventFacts s.db.events s.retry.locks

/-- A change of the tables that leaves the pairing columns alone. -/
structure SameFacts (db db' : Database) : Prop where
  outbox : db'.outbox.map recordFacts = db.outbox.map recordFacts
  events : db'.events.map eventFacts = db.events.map eventFacts

section

variable {settings : Settings} {db db' : Database}

theorem SameFacts.of_eq (houtbox : db'.outbox = db.outbox) (hevents : db'.events = db.events) :
    SameFacts db db' :=
  ⟨by rw [houtbox], by rw [hevents]⟩

theorem SameFacts.event_ids (h : SameFacts db db') :
    db'.events.map Event.id = db.events.map Event.id := by
  have := congrArg (List.map Prod.fst) h.events
  rwa [List.map_map, List.map_map] at this

theorem SameFacts.record_ids (h : SameFacts db db') :
    db'.outbox.map OutboxRecord.id = db.outbox.map OutboxRecord.id := by
  have := congrArg (List.map Prod.fst) h.outbox
  rwa [List.map_map, List.map_map] at this

end

variable {rt : Gateway.Runtime} {accountRt : Api.AccountRuntime} {settings : Settings}
    {s t : StoreState ξ ζ}

omit [DecidableEq ξ] [DecidableEq ζ] in
theorem storeInv_sameFacts (h : StoreInv settings s) (hsame : SameFacts s.db t.db)
    (hgateway : t.gateway.events.map Event.id = s.gateway.events.map Event.id ∧
      t.gateway.outbox.map OutboxRecord.id = s.gateway.outbox.map OutboxRecord.id)
    (hrelay : RowLocks.Keeps recordFacts s.db.outbox t.relay.locks)
    (hretry : RowLocks.Keeps eventFacts s.db.events t.retry.locks) : StoreInv settings t where
  paired := by
    rw [hsame.outbox, hsame.events]
    exact h.paired
  events_nodup := hsame.event_ids ▸ h.events_nodup
  outbox_nodup := hsame.record_ids ▸ h.outbox_nodup
  ledger_ids := hgateway.1.trans (h.ledger_ids.trans hsame.event_ids.symm)
  outbox_ids := hgateway.2.trans (h.outbox_ids.trans hsame.record_ids.symm)
  relay_keeps := hrelay.mono (fun f hf => hsame.outbox ▸ hf)
  retry_keeps := hretry.mono (fun f hf => hsame.events ▸ hf)

/-! ## The gateway -/

/-- A gateway step inserts nothing, or it is a commit and inserts an event and
its record under fresh identifiers. -/
theorem gatewayNext_grows {g g' : GatewayState} {label : GatewayLabel}
    (hstep : gatewayNext rt settings g label = some g') :
    (g'.ledger = g.ledger ∧ g'.outbox = g.outbox ∧
      ∀ i eventId outboxId, label ≠ .commit i eventId outboxId) ∨
      ∃ i eventId outboxId request endpoint payload setNxAt, label = .commit i eventId outboxId ∧
        eventId ∉ g.events.map Event.id ∧ outboxId ∉ g.outbox.map OutboxRecord.id ∧
        g'.ledger = g.ledger ++ [⟨i, newEvent eventId g.now endpoint payload request, setNxAt⟩] ∧
        g'.outbox = g.outbox ++ [newOutboxRecord settings outboxId eventId g.now endpoint] := by
  match label with
  | .tick now =>
      obtain ⟨_, rfl⟩ := tick_cases hstep
      exact Or.inl ⟨rfl, rfl, by simp⟩
  | .setEndpoints endpoints =>
      obtain rfl := Option.some.inj hstep
      exact Or.inl ⟨rfl, rfl, by simp⟩
  | .arrive i request =>
      obtain ⟨_, rfl⟩ := arrive_cases hstep
      exact Or.inl ⟨rfl, rfl, by simp⟩
  | .check i limiter =>
      obtain ⟨request, _, ⟨_, _, rfl⟩ | ⟨_, rfl⟩⟩ := checkStep_cases hstep
      · exact Or.inl ⟨rfl, rfl, by simp⟩
      · exact Or.inl ⟨rfl, rfl, by simp⟩
  | .reserve i =>
      obtain ⟨_, _, _, _, ⟨_, rfl⟩ | ⟨_, _, _, _, rfl⟩ | ⟨_, _, _, rfl⟩⟩ := reserve_cases hstep
      · exact Or.inl ⟨rfl, rfl, by simp⟩
      · exact Or.inl ⟨rfl, rfl, by simp⟩
      · exact Or.inl ⟨rfl, rfl, by simp⟩
  | .commit i eventId outboxId =>
      right
      simp only [gatewayNext, Gateway.commit] at hstep
      split at hstep
      · rename_i request endpoint payload setNxAt _
        simp only [Option.ite_none_right_eq_some, Option.some.injEq] at hstep
        obtain ⟨⟨hevent, hrecord, _⟩, rfl⟩ := hstep
        exact ⟨i, eventId, outboxId, request, endpoint, payload, setNxAt, rfl, hevent, hrecord, rfl,
          rfl⟩
      · cases hstep
  | .answer i =>
      obtain ⟨_, _, rfl⟩ := answer_cases hstep
      exact Or.inl ⟨rfl, rfl, by simp⟩
  | .fail i =>
      obtain ⟨_, rfl⟩ := fail_cases hstep
      exact Or.inl ⟨rfl, rfl, by simp⟩

theorem ingested_of_same {db : Database} {g g' : GatewayState} (hledger : g'.ledger = g.ledger)
    (houtbox : g'.outbox = g.outbox) : ingested db g g' = db := by
  unfold ingested
  rw [hledger, houtbox, List.drop_length, List.drop_length, List.map_nil, List.append_nil,
    List.append_nil]

theorem ingested_of_commit {db : Database} {g g' : GatewayState} {entry : Ingested}
    {record : OutboxRecord}
    (hledger : g'.ledger = g.ledger ++ [entry]) (houtbox : g'.outbox = g.outbox ++ [record]) :
    ingested db g g' =
      { db with events := db.events ++ [entry.event], outbox := db.outbox ++ [record] } := by
  unfold ingested
  rw [hledger, houtbox, List.drop_left, List.drop_left]
  rfl

omit [DecidableEq ξ] [DecidableEq ζ] in
/-- The shared tables grow by what the gateway inserts. -/
theorem gatewayStep_cases {label : GatewayLabel}
    (hstep : gatewayStep rt settings s label = some t) :
    ∃ g, gatewayNext rt settings { s.gateway with endpoints := s.db.endpoints } label = some g ∧
      t.gateway = g ∧
      ((g.ledger = s.gateway.ledger ∧ g.outbox = s.gateway.outbox ∧ t = { s with gateway := g } ∧
          ∀ i eventId outboxId, label ≠ .commit i eventId outboxId) ∨
        ∃ i eventId outboxId request endpoint payload setNxAt, label = .commit i eventId outboxId ∧
          eventId ∉ s.gateway.events.map Event.id ∧
            outboxId ∉ s.gateway.outbox.map OutboxRecord.id ∧
          g.ledger = s.gateway.ledger ++
            [⟨i, newEvent eventId s.gateway.now endpoint payload request, setNxAt⟩] ∧
          g.outbox = s.gateway.outbox ++
            [newOutboxRecord settings outboxId eventId s.gateway.now endpoint] ∧
          t = { s with
            gateway := g
            db := { s.db with
              events := s.db.events ++ [newEvent eventId s.gateway.now endpoint payload request]
              outbox := s.db.outbox ++
                [newOutboxRecord settings outboxId eventId s.gateway.now endpoint] } }) := by
  obtain ⟨g, hg, rfl⟩ := Option.map_eq_some_iff.mp hstep
  refine ⟨g, hg, rfl, ?_⟩
  rcases gatewayNext_grows hg with ⟨hledger, houtbox, hlabel⟩ |
      ⟨i, eventId, outboxId, request, endpoint, payload, setNxAt, hlabel, hevent, hrecord, hledger,
        houtbox⟩
  · refine Or.inl ⟨hledger, houtbox, ?_, hlabel⟩
    exact congrArg (fun db => StoreState.mk db g s.relay s.retry) (ingested_of_same hledger houtbox)
  · refine Or.inr ⟨i, eventId, outboxId, request, endpoint, payload, setNxAt, hlabel, hevent,
      hrecord, hledger,
      houtbox, ?_⟩
    exact congrArg (fun db => StoreState.mk db g s.relay s.retry)
      (ingested_of_commit hledger houtbox)

omit [DecidableEq ξ] [DecidableEq ζ] in
theorem storeInv_gateway {label : GatewayLabel} (h : StoreInv settings s)
    (hstep : gatewayStep rt settings s label = some t) : StoreInv settings t := by
  obtain ⟨g, _, _, ⟨hledger, houtbox, rfl, _⟩ |
    ⟨i, eventId, outboxId, request, endpoint, payload, setNxAt, _, hevent, hrecord, hledger,
      houtbox, rfl⟩⟩ :=
    gatewayStep_cases hstep
  · refine storeInv_sameFacts h (SameFacts.of_eq rfl rfl) ⟨?_, ?_⟩ h.relay_keeps h.retry_keeps
    · exact congrArg (List.map Event.id) (congrArg (List.map Ingested.event) hledger)
    · exact congrArg (List.map OutboxRecord.id) houtbox
  · have hmore : ∀ {α φ : Type} (facts : α → φ) (rows : List α) (row : α), ∀ f ∈ rows.map facts,
        f ∈ (rows ++ [row]).map facts := by
      intro α φ facts rows row f hf
      rw [List.map_append]
      exact List.mem_append_left _ hf
    refine ⟨?_, ?_, ?_, ?_, ?_, ?_, ?_⟩
    · simp only [List.map_append, h.paired]
      rfl
    · exact Rows.nodup_snoc h.events_nodup (h.ledger_ids ▸ hevent)
    · exact Rows.nodup_snoc h.outbox_nodup (h.outbox_ids ▸ hrecord)
    · show (g.ledger.map Ingested.event).map Event.id = (s.db.events ++ [_]).map Event.id
      rw [hledger, List.map_append, List.map_append, List.map_append]
      exact congrArg (· ++ _) h.ledger_ids
    · show g.outbox.map OutboxRecord.id = (s.db.outbox ++ [_]).map OutboxRecord.id
      rw [houtbox, List.map_append, List.map_append]
      exact congrArg (· ++ _) h.outbox_ids
    · exact h.relay_keeps.mono (hmore _ _ _)
    · exact h.retry_keeps.mono (hmore _ _ _)

/-! ## The relays -/

@[simp] theorem recordFacts_relayRecord (result : Except Exc Unit) (r : OutboxRecord) :
    recordFacts (relayRecord result r) = recordFacts r := by
  cases result <;> rfl

theorem map_eventFacts_queueEvents (ids : List UUID) (events : List Event) :
    (queueEvents ids events).map eventFacts = events.map eventFacts := by
  unfold queueEvents
  rw [List.map_map]
  apply List.map_congr_left
  intro e _
  show eventFacts (if e.id ∈ ids then { e with status := .queued } else e) = eventFacts e
  split <;> rfl

theorem eq_id_of_recordFacts {a b : OutboxRecord} (h : recordFacts a = recordFacts b) :
    a.id = b.id :=
  congrArg Prod.fst h

theorem eq_id_of_eventFacts {a b : Event} (h : eventFacts a = eventFacts b) : a.id = b.id :=
  congrArg Prod.fst h

/-- Relays write on the status of records and events only. -/
theorem relayNext_keeps {r r' : RelaySystem ξ} {label : RelayLabel ξ}
    (hnodup : (r.db.outbox.map OutboxRecord.id).Nodup)
    (hkeeps : RowLocks.Keeps recordFacts r.db.outbox r.locks)
    (hingest : ∀ event record, label ≠ .ingest event record) (hstep : relayNext r label = some r') :
    SameFacts r.db r'.db ∧ RowLocks.Keeps recordFacts r.db.outbox r'.locks := by
  match label with
  | .ingest event record => exact absurd rfl (hingest event record)
  | .select x tie =>
      obtain ⟨_, hdb, _, _, hlocks⟩ := Outbox.select_cases hstep
      rw [hdb, hlocks]
      exact ⟨SameFacts.of_eq rfl rfl, hkeeps.lock (fun _ hr => (mem_selectPending hr).1)⟩
  | .publish x answer =>
      obtain ⟨record, rest, htodo, _, hdb, _, hlocks, _⟩ := Outbox.publishNext_cases hstep
      have hheld : record ∈ r.locks.held x := List.mem_of_mem_drop (htodo ▸ List.mem_cons_self)
      rw [hdb, hlocks]
      refine ⟨SameFacts.of_eq rfl rfl, hkeeps.stage ?_⟩
      rw [recordFacts_relayRecord]
      exact (hkeeps x).1 record hheld
  | .signal x =>
      obtain rfl := Option.some.inj hstep
      exact ⟨SameFacts.of_eq rfl rfl, hkeeps⟩
  | .commit x =>
      simp only [relayNext, Outbox.commit, Option.ite_none_right_eq_some, Option.some.injEq]
        at hstep
      obtain ⟨_, rfl⟩ := hstep
      exact ⟨⟨hkeeps.map_commit (fun _ _ => eq_id_of_recordFacts) hnodup x,
          map_eventFacts_queueEvents _ _⟩,
        hkeeps.release x⟩
  | .abort x =>
      obtain ⟨hdb, hlocks, _, _⟩ := Outbox.abort_cases hstep
      rw [hdb, hlocks]
      exact ⟨SameFacts.of_eq rfl rfl, hkeeps.release x⟩

omit [DecidableEq ζ] in
theorem storeInv_relay {label : RelayLabel ξ} (h : StoreInv settings s)
    (hstep : relayStep s label = some t) :
    StoreInv settings t := by
  unfold relayStep at hstep
  split at hstep
  · cases hstep
  · rename_i hingest
    split at hstep
    · cases hstep
    · obtain ⟨r, hr, rfl⟩ := Option.map_eq_some_iff.mp hstep
      obtain ⟨hsame, hkeeps⟩ := relayNext_keeps h.outbox_nodup h.relay_keeps
        (fun event record heq => hingest event record heq) hr
      exact storeInv_sameFacts h hsame ⟨rfl, rfl⟩ hkeeps h.retry_keeps

/-! ## The schedulers -/

@[simp] theorem eventFacts_requeueEvent (now : Time) (result : Except Exc Unit) (e : Event) :
    eventFacts (requeueEvent now result e) = eventFacts e := by
  cases result <;> rfl

@[simp] theorem eventFacts_update (call : DlqCall) (now : Time) (read row : Event) :
    eventFacts (call.update now read row) = eventFacts row := by
  cases call <;> rfl

theorem retryNext_keeps {r r' : RetrySystem ζ} {label : RetryLabel ζ}
    (hnodup : (r.db.events.map Event.id).Nodup)
    (hkeeps : RowLocks.Keeps eventFacts r.db.events r.locks)
    (hinsert : ∀ event, label ≠ .insert event)
    (hchange : ∀ event, label = .change event → eventFacts event ∈ r.db.events.map eventFacts)
    (hstep : retryNext settings r label = some r') :
    SameFacts r.db r'.db ∧ RowLocks.Keeps eventFacts r.db.events r'.locks := by
  match label with
  | .insert event => exact absurd rfl (hinsert event)
  | .change event =>
      obtain ⟨_, _, rfl⟩ := changeEvent_cases hstep
      obtain ⟨row, hrow, hfacts⟩ := List.mem_map.mp (hchange event rfl)
      exact ⟨⟨rfl, Rows.map_put_of_eq hnodup hrow (eq_id_of_eventFacts hfacts) hfacts.symm⟩, hkeeps⟩
  | .select x now tie =>
      obtain ⟨_, _, rfl⟩ := Retry.select_cases hstep
      exact ⟨SameFacts.of_eq rfl rfl, hkeeps.lock (fun _ he => (mem_selectDue he).1)⟩
  | .publish x now result =>
      obtain ⟨e, rest, htodo, rfl⟩ := Retry.publishNext_cases hstep
      refine ⟨SameFacts.of_eq rfl rfl, hkeeps.stage ?_⟩
      rw [eventFacts_requeueEvent]
      exact (hkeeps x).1 e (mem_held_of_todo htodo)
  | .commit x =>
      obtain ⟨_, _, rfl⟩ := Retry.commit_cases hstep
      exact ⟨⟨rfl, hkeeps.map_commit (fun _ _ => eq_id_of_eventFacts) hnodup x⟩, hkeeps.release x⟩
  | .abort x =>
      obtain ⟨_, rfl⟩ := Retry.abort_cases hstep
      exact ⟨SameFacts.of_eq rfl rfl, hkeeps.release x⟩
  | .read i call id =>
      obtain ⟨calls, rfl⟩ := readEvent_cases hstep
      exact ⟨SameFacts.of_eq rfl rfl, hkeeps⟩
  | .write i now =>
      obtain ⟨call, read, row, calls, hrow, _, rfl⟩ := writeEvent_cases hstep
      have hid : row.id = (call.update now read row).id :=
        (DlqCall.update_id call now read row).symm
      exact ⟨⟨rfl, Rows.map_put_of_eq hnodup hrow hid (eventFacts_update call now read row)⟩,
        hkeeps⟩

omit [DecidableEq ξ] [DecidableEq ζ] in
theorem ne_insert_of_allowed {label : RetryLabel ζ} (hallowed : retryAllowed s label = true) :
    ∀ event, label ≠ .insert event := by
  rintro event rfl
  cases hallowed

omit [DecidableEq ξ] [DecidableEq ζ] in
theorem facts_of_allowed {label : RetryLabel ζ} (hallowed : retryAllowed s label = true) :
    ∀ event, label = .change event → eventFacts event ∈ s.db.events.map eventFacts := by
  rintro event rfl
  exact List.contains_iff_mem.mp hallowed

omit [DecidableEq ξ] in
theorem storeInv_retry {label : RetryLabel ζ} (h : StoreInv settings s)
    (hstep : retryStep settings s label = some t) : StoreInv settings t := by
  simp only [retryStep, Option.ite_none_right_eq_some] at hstep
  obtain ⟨hallowed, hstep⟩ := hstep
  obtain ⟨r, hr, rfl⟩ := Option.map_eq_some_iff.mp hstep
  obtain ⟨hsame, hkeeps⟩ := retryNext_keeps h.events_nodup h.retry_keeps
    (ne_insert_of_allowed hallowed) (facts_of_allowed hallowed) hr
  exact storeInv_sameFacts h hsame ⟨rfl, rfl⟩ h.relay_keeps hkeeps

/-! ## The API -/

omit [DecidableEq ξ] [DecidableEq ζ] in
theorem sameFacts_api {env : Api.Env} {request : Api.Request}
    (hnodup : (s.db.events.map Event.id).Nodup) :
    SameFacts s.db ((Api.handle env settings request s.db).store s.db) := by
  have hkeeps := @Api.keepsEvents_handle env settings s.db request
  unfold Api.Outcome.store
  split
  · rename_i write hwrite
    match write with
    | .updateEvent event =>
        obtain ⟨old, hold, hcore⟩ := hkeeps.updated event hwrite
        have hid : old.id = event.id := congrArg Prod.fst hcore
        have hendpoint : old.endpointId = event.endpointId := congrArg (fun c => c.2.1) hcore
        exact ⟨rfl, Rows.map_put_of_eq hnodup hold hid (Prod.ext hid.symm hendpoint.symm)⟩
    | .insertEndpoint _ | .updateEndpoint _ | .deleteEndpoint _ | .insertRoute _ | .updateRoute _
    | .deleteRoute _ => exact SameFacts.of_eq rfl rfl
  · exact SameFacts.of_eq rfl rfl

omit [DecidableEq ξ] [DecidableEq ζ] in
theorem apiStep_eq {env : Api.Env} {request : Api.Request}
    (hstep : apiStep settings s env request = some t) :
    t = { s with db := (Api.handle env settings request s.db).store s.db } := by
  unfold apiStep at hstep
  dsimp only at hstep
  split at hstep
  · split at hstep
    · cases hstep
    · exact (Option.some.inj hstep).symm
  · exact (Option.some.inj hstep).symm

omit [DecidableEq ξ] [DecidableEq ζ] in
theorem storeInv_api {env : Api.Env} {request : Api.Request} (h : StoreInv settings s)
    (hstep : apiStep settings s env request = some t) : StoreInv settings t := by
  obtain rfl := apiStep_eq hstep
  exact storeInv_sameFacts h (sameFacts_api h.events_nodup) ⟨rfl, rfl⟩ h.relay_keeps h.retry_keeps

omit [DecidableEq ξ] [DecidableEq ζ] in
theorem storeInv_account {env : Api.AccountEnv} {write : Api.AccountWrite} (h : StoreInv settings s)
    (hstep : accountStep accountRt s env write = some t) : StoreInv settings t := by
  unfold accountStep at hstep
  split at hstep
  · cases hstep
  · obtain rfl := Option.some.inj hstep
    refine storeInv_sameFacts h ?_ ⟨rfl, rfl⟩ h.relay_keeps h.retry_keeps
    cases write <;> exact SameFacts.of_eq rfl rfl

/-! ## The whole store -/

theorem storeInv_step {a : StoreLabel ξ ζ} (h : StoreInv settings s)
    (hstep : storeNext rt accountRt settings s a = some t) : StoreInv settings t := by
  match a with
  | .gateway label => exact storeInv_gateway h hstep
  | .relay label => exact storeInv_relay h hstep
  | .retry label => exact storeInv_retry h hstep
  | .api env request => exact storeInv_api h hstep
  | .account env write => exact storeInv_account h hstep

theorem storeInv_init (h : (store rt accountRt settings ξ ζ).init s) : StoreInv settings s := by
  obtain ⟨hevents, houtbox, hgateway, hrelay, hretry⟩ := h
  refine ⟨?_, ?_, ?_, ?_, ?_, ?_, ?_⟩
  · rw [hevents, houtbox]
    rfl
  · rw [hevents]
    exact List.nodup_nil
  · rw [houtbox]
    exact List.nodup_nil
  · rw [hgateway, hevents]
    rfl
  · rw [hgateway, houtbox]
  · rw [hrelay]
    exact RowLocks.keeps_empty _
  · rw [hretry]
    exact RowLocks.keeps_empty _

omit [DecidableEq ξ] [DecidableEq ζ] in
/-- Paired tables: one record to each event, and an event to each record. -/
theorem records_of_paired (h : StoreInv settings s) :
    (∀ e ∈ s.db.events, ∃ r, s.db.outbox.filter (fun r => r.eventId = e.id) = [r] ∧
        r.publishKey = e.endpointId.str ∧ r.publishTopic = settings.kafkaTopicRawEvents) ∧
      ∀ r ∈ s.db.outbox, ∃ e ∈ s.db.events, e.id = r.eventId := by
  have hids : s.db.outbox.map OutboxRecord.eventId = s.db.events.map Event.id := by
    have := congrArg (List.map Prod.fst) h.paired
    simpa [recordFacts, expectedRecord, eventFacts, Function.comp_def] using this
  have hnodup : (s.db.outbox.map OutboxRecord.eventId).Nodup := hids ▸ h.events_nodup
  constructor
  · intro e he
    have hmem : expectedRecord settings (eventFacts e) ∈
        (s.db.outbox.map recordFacts).map Prod.snd := by
      rw [h.paired, List.map_map]
      exact List.mem_map_of_mem he
    rw [List.map_map] at hmem
    obtain ⟨r, hr, hfacts⟩ := List.mem_map.mp hmem
    obtain ⟨hevent, hkey, htopic⟩ : r.eventId = e.id ∧ r.publishKey = e.endpointId.str ∧
        r.publishTopic = settings.kafkaTopicRawEvents := by
      simpa only [Function.comp_apply, recordFacts, expectedRecord, eventFacts, Prod.mk.injEq]
        using hfacts
    refine ⟨r, ?_, hkey, htopic⟩
    apply Rows.eq_singleton_of_nodup
    · exact (Rows.nodup_of_map hnodup).filter _
    · exact List.mem_filter.mpr ⟨hr, by simpa using hevent⟩
    · intro other hother
      obtain ⟨hmem, hcond⟩ := List.mem_filter.mp hother
      have hother_event : other.eventId = e.id := by simpa using hcond
      exact Rows.eq_of_key_eq hnodup hmem hr (hother_event.trans hevent.symm)
  · intro r hr
    have hmem : r.eventId ∈ s.db.events.map Event.id := hids ▸ List.mem_map_of_mem hr
    obtain ⟨e, he, hid⟩ := List.mem_map.mp hmem
    exact ⟨e, he, hid⟩

/-! ## Requests that are turned away -/

/-- The step is one of this request. -/
def ofRequest (i : ℕ) : StoreLabel ξ ζ → Prop
  | .gateway (.arrive j _) | .gateway (.check j _) | .gateway (.reserve j) |
      .gateway (.commit j _ _)
  | .gateway (.answer j) | .gateway (.fail j) => j = i
  | _ => False

def TurnedAway : Phase → Prop
  | .rejected _ | .duplicate _ _ _ => True
  | _ => False

/-- Phases a request cannot come to from its commit. -/
def Uncommitted : Phase → Prop
  | .committed _ | .accepted _ | .failed => False
  | _ => True

theorem uncommitted_of_turnedAway {phase : Phase} (h : TurnedAway phase) : Uncommitted phase := by
  cases phase with
  | rejected _ => trivial
  | duplicate _ _ _ => trivial
  | _ => exact absurd h (fun hfalse => hfalse)

theorem uncommitted_of_moveTo {g g' : GatewayState} {i q : ℕ} {phase : Phase}
    (hrequests : g'.requests = (g.moveTo i phase).requests)
    (hbefore : Uncommitted phase → Uncommitted (g.requests i)) (h : Uncommitted (g'.requests q)) :
    Uncommitted (g.requests q) := by
  by_cases hq : q = i
  · subst hq
    rw [phase_self hrequests] at h
    exact hbefore h
  · rwa [← phase_of_ne hrequests hq]

/-- A request that has not been committed after a step had not been before. -/
theorem uncommitted_of_step {g g' : GatewayState} {label : GatewayLabel} {q : ℕ}
    (hstep : gatewayNext rt settings g label = some g') (h : Uncommitted (g'.requests q)) :
    Uncommitted (g.requests q) := by
  match label with
  | .tick now =>
      obtain ⟨_, rfl⟩ := tick_cases hstep
      exact h
  | .setEndpoints endpoints =>
      obtain rfl := Option.some.inj hstep
      exact h
  | .arrive i request =>
      obtain ⟨habsent, rfl⟩ := arrive_cases hstep
      exact uncommitted_of_moveTo rfl (fun _ => habsent ▸ trivial) h
  | .check i limiter =>
      obtain ⟨request, hphase, ⟨_, _, rfl⟩ | ⟨_, rfl⟩⟩ := checkStep_cases hstep
      · exact uncommitted_of_moveTo rfl (fun _ => hphase ▸ trivial) h
      · exact uncommitted_of_moveTo rfl (fun _ => hphase ▸ trivial) h
  | .reserve i =>
      obtain ⟨_, _, _, hphase, ⟨_, rfl⟩ | ⟨_, _, _, _, rfl⟩ | ⟨_, _, _, rfl⟩⟩ := reserve_cases hstep
      · exact uncommitted_of_moveTo rfl (fun _ => hphase ▸ trivial) h
      · exact uncommitted_of_moveTo rfl (fun _ => hphase ▸ trivial) h
      · exact uncommitted_of_moveTo rfl (fun _ => hphase ▸ trivial) h
  | .commit i eventId outboxId =>
      obtain ⟨_, _, _, _, _, _, rfl⟩ := Gateway.commit_cases hstep
      have hnot : ¬ Uncommitted (.committed eventId) := fun hcommitted => hcommitted
      exact uncommitted_of_moveTo rfl (fun hcommitted => absurd hcommitted hnot) h
  | .answer i =>
      obtain ⟨eventId, _, rfl⟩ := answer_cases hstep
      have hnot : ¬ Uncommitted (.accepted eventId) := fun haccepted => haccepted
      exact uncommitted_of_moveTo rfl (fun haccepted => absurd haccepted hnot) h
  | .fail i =>
      obtain ⟨_, rfl⟩ := fail_cases hstep
      have hnot : ¬ Uncommitted .failed := fun hfailed => hfailed
      exact uncommitted_of_moveTo rfl (fun hfailed => absurd hfailed hnot) h

theorem requests_of_commit {g g' : GatewayState} {i : ℕ} {eventId outboxId : UUID}
    (hstep : gatewayNext rt settings g (.commit i eventId outboxId) = some g') :
    g'.requests i = .committed eventId := by
  obtain ⟨_, _, _, _, _, _, rfl⟩ := Gateway.commit_cases hstep
  exact phase_self rfl

/-- Only gateway steps touch the requests. -/
theorem uncommitted_of_storeNext {a : StoreLabel ξ ζ} {q : ℕ}
    (hstep : storeNext rt accountRt settings s a = some t)
    (h : Uncommitted (t.gateway.requests q)) :
    Uncommitted (s.gateway.requests q) := by
  match a with
  | .gateway label =>
      obtain ⟨g, hg, ht, _⟩ := gatewayStep_cases hstep
      have hafter : Uncommitted (g.requests q) := ht ▸ h
      have hbefore := uncommitted_of_step hg hafter
      exact hbefore
  | .relay label =>
      simp only [storeNext, relayStep] at hstep
      split at hstep
      · cases hstep
      · split at hstep
        · cases hstep
        · obtain ⟨r, _, rfl⟩ := Option.map_eq_some_iff.mp hstep
          exact h
  | .retry label =>
      simp only [storeNext, retryStep, Option.ite_none_right_eq_some] at hstep
      obtain ⟨_, hstep⟩ := hstep
      obtain ⟨r, _, rfl⟩ := Option.map_eq_some_iff.mp hstep
      exact h
  | .api env request =>
      simp only [storeNext, apiStep] at hstep
      split at hstep
      · split at hstep
        · cases hstep
        · obtain rfl := Option.some.inj hstep
          exact h
      · obtain rfl := Option.some.inj hstep
        exact h
  | .account env write =>
      simp only [storeNext, accountStep] at hstep
      split at hstep
      · cases hstep
      · obtain rfl := Option.some.inj hstep
        exact h

/-- A step of a request that has not been committed after it inserts nothing. -/
theorem tables_eq_of_uncommitted {a : StoreLabel ξ ζ} {q : ℕ} (ha : ofRequest q a)
    (hstep : storeNext rt accountRt settings s a = some t)
    (h : Uncommitted (t.gateway.requests q)) :
    t.db.events = s.db.events ∧ t.db.outbox = s.db.outbox := by
  cases a with
  | gateway label =>
      obtain ⟨g, hg, ht, hcases⟩ := gatewayStep_cases hstep
      rcases hcases with ⟨_, _, rfl, _⟩ | ⟨i, eventId, outboxId, _, _, _, _, rfl, _⟩
      · exact ⟨rfl, rfl⟩
      · have hi : i = q := ha
        subst hi
        have hphase : g.requests i = .committed eventId := requests_of_commit hg
        have hnot : ¬ Uncommitted (.committed eventId) := fun hcommitted => hcommitted
        rw [ht, hphase] at h
        exact absurd h hnot
  | relay label => cases ha
  | retry label => cases ha
  | api env request => cases ha
  | account env write => cases ha

theorem turnedAway_unchanged {moves : List (Foundation.Move (StoreState ξ ζ) (StoreLabel ξ ζ))}
    (run : (store rt accountRt settings ξ ζ).Run s moves t) {q : ℕ}
    (h : Uncommitted (t.gateway.requests q)) :
    ∀ m ∈ moves, ofRequest q m.label →
      m.dst.db.events = m.src.db.events ∧ m.dst.db.outbox = m.src.db.outbox := by
  induction run with
  | nil =>
      intro m hm
      cases hm
  | snoc _ hstep ih =>
      intro m hm hq
      rcases List.mem_append.mp hm with hold | hnew
      · exact ih (uncommitted_of_storeNext hstep h) m hold hq
      · rw [List.mem_singleton] at hnew
        subst hnew
        exact tables_eq_of_uncommitted hq hstep h

/-- Every event has one record, made out for its endpoint, every record has
its event, and a request that is turned away has left both tables alone at
every one of its steps. -/
theorem ingestion_all_or_nothing {moves : List (Foundation.Move (StoreState ξ ζ) (StoreLabel ξ ζ))}
    (hs : (store rt accountRt settings ξ ζ).init s)
    (run : (store rt accountRt settings ξ ζ).Run s moves t) :
    (∀ e ∈ t.db.events, ∃ r, t.db.outbox.filter (fun r => r.eventId = e.id) = [r] ∧
        r.publishKey = e.endpointId.str ∧ r.publishTopic = settings.kafkaTopicRawEvents) ∧
      (∀ r ∈ t.db.outbox, ∃ e ∈ t.db.events, e.id = r.eventId) ∧
      ∀ q, TurnedAway (t.gateway.requests q) → ∀ m ∈ moves, ofRequest q m.label →
        m.dst.db.events = m.src.db.events ∧ m.dst.db.outbox = m.src.db.outbox := by
  have hinv : StoreInv settings t := by
    refine (run.reachable (.start hs)).invariant ?_ ?_
    · intro s hinit
      exact storeInv_init hinit
    · intro s a t h hstep
      exact storeInv_step h hstep
  obtain ⟨hrecords, hevents⟩ := records_of_paired hinv
  exact ⟨hrecords, hevents, fun q hq => turnedAway_unchanged run (uncommitted_of_turnedAway hq)⟩

/-! ## One event through all components -/

def orderStore : Database where
  endpoints := [sampleEndpoint]
  memberships := [⟨1, 9, .owner⟩]
  users :=
    [Api.newUser Api.plainText ⟨1, 9, "", .ok (), .ok ()⟩ ⟨"ann@example.com", "long enough", "ann"⟩]

def orderStart : StoreState Unit Unit where
  db := orderStore
  gateway := { now := 0, endpoints := orderStore.endpoints }
  relay := .ofDatabase orderStore
  retry := .ofDatabase orderStore

def orderEnv : Api.Env where
  url := { urlparse := fun _ => .error ⟨"ValueError", ""⟩, ipAddress := fun _ => none }
  compiles := fun _ => true
  newId := 40
  secret := "rotated"
  now := 5

def ownerCall (operation : Api.Operation) : StoreLabel Unit Unit :=
  .api orderEnv ⟨.ok 1, UUID.str 9, operation⟩

def failedOrder : Event :=
  { newEvent 10 0 sampleEndpoint (.obj []) (sampleRequest "order-7") with
    status := .failed, retryAt := some 3 }

/-- One request is accepted, a second has the key of the first and a third
runs into the rate limit; the event fails and is queued again, its owner
discards it, renames the endpoint and cannot delete it. -/
def orderRun : List (StoreLabel Unit Unit) :=
  (ingestion 0 "order-7").map .gateway ++
  [.gateway (.arrive 1 (sampleRequest "order-7")), .gateway (.check 1 (.ok true)),
    .gateway (.reserve 1), .gateway (.arrive 2 (sampleRequest "")),
    .gateway (.check 2 (.ok false)),
    .relay (.select () (fun _ => 0)), .relay (.publish () .acked), .relay (.commit ()),
    .retry (.change failedOrder), .retry (.select () 4 (fun _ => 0)),
    .retry (.publish () 4 (.ok ())), .retry (.commit ()),
    ownerCall (.discardDlqEvent (UUID.str 10)),
    ownerCall (.updateEndpoint (UUID.str 3) (some { name := some "renamed" })),
    ownerCall (.deleteEndpoint (UUID.str 3)),
    .account ⟨1, 11, "", .ok (), .ok ()⟩ (.createWorkspace 1 "second")]

def orderEnd : StoreState Unit Unit :=
  (store sampleRuntime Api.plainText {} Unit Unit).after orderStart orderRun

theorem ingestion_of_orderRun :
    (∀ e ∈ orderEnd.db.events, ∃ r, orderEnd.db.outbox.filter (fun r => r.eventId = e.id) = [r] ∧
        r.publishKey = e.endpointId.str ∧ r.publishTopic = ({} : Settings).kafkaTopicRawEvents) ∧
      (∀ r ∈ orderEnd.db.outbox, ∃ e ∈ orderEnd.db.events, e.id = r.eventId) ∧
      ∀ q, TurnedAway (orderEnd.gateway.requests q) →
        ∀ m ∈ (store sampleRuntime Api.plainText {} Unit Unit).trace orderStart orderRun,
          ofRequest q m.label →
          m.dst.db.events = m.src.db.events ∧ m.dst.db.outbox = m.src.db.outbox := by
  have hinit : (store sampleRuntime Api.plainText {} Unit Unit).init orderStart :=
    ⟨rfl, rfl, rfl, rfl, rfl⟩
  have hruns :
      ((store sampleRuntime Api.plainText {} Unit Unit).exec orderStart orderRun).isSome =
        true := by
    decide +kernel
  exact ingestion_all_or_nothing hinit (Machine.run_trace (Machine.exec_eq_after hruns))

end WebhookRelay.Pipeline
