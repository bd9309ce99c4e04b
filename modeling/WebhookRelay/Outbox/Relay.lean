import WebhookRelay.Core.Models
import WebhookRelay.Foundation.Machine
import WebhookRelay.Foundation.Query
import WebhookRelay.Foundation.RowLocks

/-!
# The outbox relay

`workers/outbox_relay.py`. One pass of `run` is a transaction: it locks a
batch of pending records, publishes them one by one, notes the outcome on
each record and commits. `RelaySystem` interleaves any number of relay
processes with gateway commits; a transaction may end in an abort at any
point after its `SELECT` (a crash, or an exception that leaves the loop).
-/

namespace WebhookRelay.Outbox

open Foundation

def batchSize : ℕ := 10

def maxAttempts : ℤ := 10

/-- The `SELECT` of `run`: pending, not locked by another transaction, oldest
first, at most `batchSize`, `FOR UPDATE SKIP LOCKED`. -/
def selectPending (tie : UUID → ℕ) (locked : List UUID) (rows : List OutboxRecord) :
    List OutboxRecord :=
  (orderBy (rankBy OutboxRecord.createdAt tie OutboxRecord.id)
    (rows.filter (fun r => r.status = .pending ∧ r.id ∉ locked))).take batchSize

/-! ## Publishing one record -/

/-- What `_publish` meets: no producer at all, or a producer whose
`send_and_wait` returns or raises. -/
inductive SendAnswer where
  | noProducer
  | acked
  | raised (exc : Exc)

def publishMessage (record : OutboxRecord) : KafkaMessage where
  topic := record.publishTopic
  key := record.publishKey
  value := [("event_id", .str record.eventId.str), ("endpoint_id", .str record.publishKey)]

/-- `_publish`: the message handed to Kafka, if any, and whether it raised. -/
def publish (answer : SendAnswer) (record : OutboxRecord) : Option KafkaMessage × Except Exc Unit :=
  match answer with
  | .noProducer => (none, .error ⟨"RuntimeError", "Kafka producer not available"⟩)
  | .acked => (some (publishMessage record), .ok ())
  | .raised exc => (some (publishMessage record), .error exc)

/-- What the loop body writes on a record after `_publish`. -/
def relayRecord (result : Except Exc Unit) (record : OutboxRecord) : OutboxRecord :=
  match result with
  | .ok _ => { record with status := .completed }
  | .error exc =>
      let attempts := record.attempts + 1
      { record with
        attempts := attempts
        lastError := some exc.text
        status := if attempts ≥ maxAttempts then .failed else record.status }

@[simp] theorem relayRecord_id (result : Except Exc Unit) (r : OutboxRecord) :
    (relayRecord result r).id = r.id := by
  cases result <;> rfl

@[simp] theorem relayRecord_createdAt (result : Except Exc Unit) (r : OutboxRecord) :
    (relayRecord result r).createdAt = r.createdAt := by
  cases result <;> rfl

/-- The relay never rewrites what a record says to publish. -/
@[simp] theorem publishMessage_relayRecord (result : Except Exc Unit) (r : OutboxRecord) :
    publishMessage (relayRecord result r) = publishMessage r := by
  cases result <;> rfl

theorem relayRecord_error_attempts (exc : Exc) (r : OutboxRecord) :
    (relayRecord (.error exc) r).attempts = r.attempts + 1 := rfl

theorem relayRecord_error_status (exc : Exc) (r : OutboxRecord) :
    (relayRecord (.error exc) r).status =
      if r.attempts + 1 ≥ maxAttempts then .failed else r.status := rfl

/-- `ev.status = "queued"` for the events whose record was published. -/
def queueEvents (ids : List UUID) (events : List Event) : List Event :=
  events.map (fun e => if e.id ∈ ids then { e with status := .queued } else e)

/-! ## The selected batch -/

variable {tie : UUID → ℕ} {locked : List UUID} {rows : List OutboxRecord}

theorem mem_selectPending {r : OutboxRecord} (h : r ∈ selectPending tie locked rows) :
    r ∈ rows ∧ r.status = .pending ∧ r.id ∉ locked := by
  have hmem := mem_orderBy.mp (List.mem_of_mem_take h)
  simpa using hmem

theorem selectPending_nodup (nodup : (rows.map OutboxRecord.id).Nodup) :
    ((selectPending tie locked rows).map OutboxRecord.id).Nodup := by
  have hsub : ((rows.filter (fun r => r.status = .pending ∧ r.id ∉ locked)).map
      OutboxRecord.id).Nodup := nodup.sublist (List.filter_sublist.map _)
  have hperm := orderBy_perm (rankBy OutboxRecord.createdAt tie OutboxRecord.id)
    (rows.filter (fun r => r.status = .pending ∧ r.id ∉ locked))
  unfold selectPending
  rw [List.map_take]
  exact ((hperm.map _).nodup_iff.mpr hsub).sublist (List.take_sublist _ _)

/-! ## Relays and the gateway together -/

/-- A send the relay attempted, and the record it was for. -/
structure Sent where
  record : UUID
  message : KafkaMessage
  acked : Bool

/-- `ξ` names the relay processes. `queued` holds the events a transaction
will mark on commit, `stop` each process's stop flag. `aborted` is history:
the records some transaction held when it aborted. -/
structure RelaySystem (ξ : Type) where
  db : Database
  locks : RowLocks ξ UUID OutboxRecord
  queued : ξ → List UUID
  stop : ξ → Bool
  sends : List Sent
  aborted : List UUID

namespace RelaySystem

variable {ξ : Type}

/-- The records of the batch the loop has not reached. -/
def todo (s : RelaySystem ξ) (x : ξ) : List OutboxRecord :=
  (s.locks.held x).drop (s.locks.staged x).length

def ofDatabase (db : Database) : RelaySystem ξ where
  db := db
  locks := .empty
  queued := fun _ => []
  stop := fun _ => false
  sends := []
  aborted := []

end RelaySystem

inductive RelayLabel (ξ : Type) where
  | ingest (event : Event) (record : OutboxRecord)
  | select (x : ξ) (tie : UUID → ℕ)
  | publish (x : ξ) (answer : SendAnswer)
  | signal (x : ξ)
  | commit (x : ξ)
  | abort (x : ξ)

variable {ξ : Type} [DecidableEq ξ]

/-- A gateway transaction inserts an event and its outbox record, both with
fresh keys; a new record is pending with no attempts. -/
def ingest (event : Event) (record : OutboxRecord) (s : RelaySystem ξ) : Option (RelaySystem ξ) :=
  if event.id ∉ s.db.events.map Event.id ∧ record.id ∉ s.db.outbox.map OutboxRecord.id ∧
      record.eventId = event.id ∧ record.status = .pending ∧ record.attempts = 0 then
    some { s with db := { s.db with
      events := s.db.events ++ [event]
      outbox := s.db.outbox ++ [record] } }
  else none

/-- The top of the loop. An empty batch is the `sleep` and `continue`. -/
def select (x : ξ) (tie : UUID → ℕ) (s : RelaySystem ξ) : Option (RelaySystem ξ) :=
  if s.stop x = false ∧ s.locks.held x = [] then
    match selectPending tie s.locks.table s.db.outbox with
    | [] => none
    | r :: rest => some { s with
        locks := s.locks.lock OutboxRecord.id x (r :: rest)
        queued := Function.update s.queued x [] }
  else none

/-- One turn of `for record in records`, the stop flag being clear. -/
def publishNext (x : ξ) (answer : SendAnswer) (s : RelaySystem ξ) : Option (RelaySystem ξ) :=
  match s.todo x with
  | [] => none
  | r :: _ =>
      if s.stop x then none
      else
        let (message, result) := publish answer r
        let found := s.db.events.any (fun e => e.id = r.eventId)
        some { s with
          locks := s.locks.stage x (relayRecord result r)
          queued := match result with
            | .ok _ => if found then Function.update s.queued x (s.queued x ++ [r.eventId])
                else s.queued
            | .error _ => s.queued
          sends := s.sends ++ (message.map (fun m => ⟨r.id, m, result.isOk⟩)).toList }

/-- `db.commit()`, after the last record or a `break` on the stop flag. -/
def commit (x : ξ) (s : RelaySystem ξ) : Option (RelaySystem ξ) :=
  if s.locks.held x ≠ [] ∧ (s.todo x = [] ∨ s.stop x = true) then
    some { s with
      db := { s.db with
        outbox := RowLocks.write OutboxRecord.id (s.locks.staged x) s.db.outbox
        events := queueEvents (s.queued x) s.db.events }
      locks := s.locks.release OutboxRecord.id x
      queued := Function.update s.queued x [] }
  else none

/-- The transaction's writes are dropped and its locks released. -/
def abort (x : ξ) (s : RelaySystem ξ) : Option (RelaySystem ξ) :=
  if s.locks.held x ≠ [] then
    some { s with
      locks := s.locks.release OutboxRecord.id x
      queued := Function.update s.queued x []
      aborted := s.aborted ++ (s.locks.held x).map OutboxRecord.id }
  else none

def relayNext (s : RelaySystem ξ) : RelayLabel ξ → Option (RelaySystem ξ)
  | .ingest event record => ingest event record s
  | .select x tie => select x tie s
  | .publish x answer => publishNext x answer s
  | .signal x => some { s with stop := Function.update s.stop x true }
  | .commit x => commit x s
  | .abort x => abort x s

/-- All relays and the gateway, from an empty outbox. -/
def relays (ξ : Type) [DecidableEq ξ] : Machine (RelaySystem ξ) (RelayLabel ξ) where
  init := fun s => s = RelaySystem.ofDatabase { s.db with outbox := [] }
  next := relayNext

end WebhookRelay.Outbox
