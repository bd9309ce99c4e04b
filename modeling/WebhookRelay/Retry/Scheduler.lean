import WebhookRelay.Core.Models
import WebhookRelay.Foundation.Machine
import WebhookRelay.Foundation.Query
import WebhookRelay.Foundation.RowLocks

/-!
# The retry scheduler

`workers/retry_scheduler.py`: which events a poll selects, what it publishes
for each of them, and what it writes on their rows. `RetrySystem` interleaves
any number of scheduler processes with users who discard and restore events
and with everybody else who writes on the table. A write waits for the lock
of its row; a transaction may end in an abort at any point after its `SELECT`.
-/

namespace WebhookRelay.Retry

open Foundation

def retryDelayS : Time := 30

def batchSize : ℕ := 50

/-- The `WHERE` of the poll. -/
def due (now : Time) (event : Event) : Bool :=
  event.status = .failed && !event.isDiscarded &&
    (match event.retryAt with
      | some at' => at' ≤ now
      | none => false)

def requeueMessage (settings : Settings) (event : Event) : KafkaMessage where
  topic := settings.kafkaTopicRawEvents
  key := event.endpointId.str
  value := [("event_id", .str event.id.str), ("endpoint_id", .str event.endpointId.str)]

/-- What the loop body writes on an event after its send. -/
def requeueEvent (now : Time) (result : Except Exc Unit) (event : Event) : Event :=
  match result with
  | .ok _ => { event with status := .queued, retryAt := none }
  | .error _ => { event with retryAt := some (now + retryDelayS) }

/-- The `SELECT ... FOR UPDATE SKIP LOCKED`, without an `ORDER BY`. -/
def selectDue (tie : UUID → ℕ) (now : Time) (locked : List UUID) (events : List Event) :
    List Event :=
  (orderBy (rankBy (fun _ => (0 : ℕ)) tie Event.id)
    (events.filter (fun e => due now e = true ∧ e.id ∉ locked))).take batchSize

/-! ## Discarding and restoring, between the read and the `UPDATE` -/

inductive DlqCall where
  | discard
  | restore

/-- The columns the `UPDATE` sets: those in which the event as read differs
from what is assigned. -/
def DlqCall.update (call : DlqCall) (now : Time) (read row : Event) : Event :=
  match call with
  | discard => { row with isDiscarded := true, discardedAt := some now }
  | restore =>
      { row with
        isDiscarded := if read.isDiscarded then false else row.isDiscarded
        discardedAt := if read.discardedAt.isSome then none else row.discardedAt }

/-- Whether the handler comes to write: `discard` leaves a discarded event be. -/
def DlqCall.writes (call : DlqCall) (read : Event) : Bool :=
  match call with
  | discard => !read.isDiscarded
  | restore => true

/-! ## Schedulers and users together -/

/-- One `send_and_wait`, in the transaction `tx`. -/
structure Sent where
  tx : ℕ
  event : UUID
  message : KafkaMessage
  result : Except Exc Unit
  at' : Time

/-- History, in order. `refailed` is a write by someone else that leaves the
event with the status `failed`. -/
inductive RetryEntry where
  | sent (send : Sent)
  | committed (tx : ℕ)
  | aborted (tx : ℕ)
  | refailed (event : UUID)

/-- `ξ` names the scheduler processes; `tx` is the number of a process's last
transaction and `selectedAt` the `now` of its poll. -/
structure RetrySystem (ξ : Type) where
  db : Database
  locks : RowLocks ξ UUID Event
  tx : ξ → ℕ
  selectedAt : ξ → Time
  nextTx : ℕ
  calls : ℕ → Option (DlqCall × Event)
  log : List RetryEntry

namespace RetrySystem

variable {ξ : Type}

/-- The events of the batch the loop has not reached. -/
def todo (s : RetrySystem ξ) (x : ξ) : List Event :=
  (s.locks.held x).drop (s.locks.staged x).length

def ofDatabase (db : Database) : RetrySystem ξ where
  db := db
  locks := .empty
  tx := fun _ => 0
  selectedAt := fun _ => 0
  nextTx := 0
  calls := fun _ => none
  log := []

end RetrySystem

inductive RetryLabel (ξ : Type) where
  | select (x : ξ) (now : Time) (tie : UUID → ℕ)
  | publish (x : ξ) (now : Time) (result : Except Exc Unit)
  | commit (x : ξ)
  | abort (x : ξ)
  /-- A handler reads the event of its request. -/
  | read (i : ℕ) (call : DlqCall) (id : UUID)
  /-- Its `UPDATE` and commit. -/
  | write (i : ℕ) (now : Time)
  /-- Another writer's `INSERT` or `UPDATE`. -/
  | insert (event : Event)
  | change (event : Event)

variable {ξ : Type} [DecidableEq ξ]

/-- The top of the loop. A poll that selects nothing commits nothing. -/
def select (x : ξ) (now : Time) (tie : UUID → ℕ) (s : RetrySystem ξ) : Option (RetrySystem ξ) :=
  if s.locks.held x = [] then
    match selectDue tie now s.locks.table s.db.events with
    | [] => none
    | e :: rest => some { s with
        locks := s.locks.lock Event.id x (e :: rest)
        tx := Function.update s.tx x s.nextTx
        selectedAt := Function.update s.selectedAt x now
        nextTx := s.nextTx + 1 }
  else none

/-- One turn of `for ev in events`. -/
def publishNext (settings : Settings) (x : ξ) (now : Time) (result : Except Exc Unit)
    (s : RetrySystem ξ) :
    Option (RetrySystem ξ) :=
  match s.todo x with
  | [] => none
  | e :: _ => some { s with
      locks := s.locks.stage x (requeueEvent now result e)
      log := s.log ++ [.sent ⟨s.tx x, e.id, requeueMessage settings e, result, now⟩] }

/-- `db.commit()`, after the last event. -/
def commit (x : ξ) (s : RetrySystem ξ) : Option (RetrySystem ξ) :=
  if s.locks.held x ≠ [] ∧ s.todo x = [] then
    some { s with
      db := { s.db with events := RowLocks.write Event.id (s.locks.staged x) s.db.events }
      locks := s.locks.release Event.id x
      log := s.log ++ [.committed (s.tx x)] }
  else none

def abort (x : ξ) (s : RetrySystem ξ) : Option (RetrySystem ξ) :=
  if s.locks.held x ≠ [] then
    some { s with
      locks := s.locks.release Event.id x
      log := s.log ++ [.aborted (s.tx x)] }
  else none

def readEvent (i : ℕ) (call : DlqCall) (id : UUID) (s : RetrySystem ξ) : Option (RetrySystem ξ) :=
  match Rows.get Event.id s.db.events id with
  | some event =>
      some { s with
        calls := Function.update s.calls i
          (if call.writes event then some (call, event) else none) }
  | none => none

/-- The `UPDATE` is of the row as it is by then. -/
def writeEvent (i : ℕ) (now : Time) (s : RetrySystem ξ) : Option (RetrySystem ξ) :=
  match s.calls i with
  | some (call, read) =>
      if read.id ∈ s.locks.table then none
      else
        (Rows.get Event.id s.db.events read.id).map (fun row =>
          { s with
            db := { s.db with events := Rows.put Event.id (call.update now read row) s.db.events }
            calls := Function.update s.calls i none })
  | none => none

def insertEvent (event : Event) (s : RetrySystem ξ) : Option (RetrySystem ξ) :=
  if event.id ∉ s.db.events.map Event.id then
    some { s with db := { s.db with events := s.db.events ++ [event] } }
  else none

/-- A row that a scheduler holds is out of the reach of other writers. -/
def changeEvent (event : Event) (s : RetrySystem ξ) : Option (RetrySystem ξ) :=
  if event.id ∈ s.db.events.map Event.id ∧ event.id ∉ s.locks.table then
    some { s with
      db := { s.db with events := Rows.put Event.id event s.db.events }
      log := if event.status = .failed then s.log ++ [.refailed event.id] else s.log }
  else none

def retryNext (settings : Settings) (s : RetrySystem ξ) : RetryLabel ξ → Option (RetrySystem ξ)
  | .select x now tie => select x now tie s
  | .publish x now result => publishNext settings x now result s
  | .commit x => commit x s
  | .abort x => abort x s
  | .read i call id => readEvent i call id s
  | .write i now => writeEvent i now s
  | .insert event => insertEvent event s
  | .change event => changeEvent event s

/-- All schedulers and users, from any table of events. -/
def schedulers (settings : Settings) (ξ : Type) [DecidableEq ξ] :
    Machine (RetrySystem ξ) (RetryLabel ξ) where
  init := fun s => s = RetrySystem.ofDatabase s.db ∧ (s.db.events.map Event.id).Nodup
  next := retryNext settings

/-! ## The selected batch -/

section

omit [DecidableEq ξ]

variable {tie : UUID → ℕ} {now : Time} {locked : List UUID} {events : List Event}

theorem mem_selectDue {e : Event} (h : e ∈ selectDue tie now locked events) :
    e ∈ events ∧ due now e = true ∧ e.id ∉ locked := by
  have hmem := mem_orderBy.mp (List.mem_of_mem_take h)
  simpa using hmem

theorem selectDue_nodup (nodup : (events.map Event.id).Nodup) :
    ((selectDue tie now locked events).map Event.id).Nodup := by
  have hsub : ((events.filter (fun e => due now e = true ∧ e.id ∉ locked)).map Event.id).Nodup :=
    nodup.sublist (List.filter_sublist.map _)
  have hperm := orderBy_perm (rankBy (fun _ => (0 : ℕ)) tie Event.id)
    (events.filter (fun e => due now e = true ∧ e.id ∉ locked))
  unfold selectDue
  rw [List.map_take]
  exact ((hperm.map _).nodup_iff.mpr hsub).sublist (List.take_sublist _ _)

theorem due_iff {e : Event} : due now e = true ↔
    e.status = .failed ∧ e.isDiscarded = false ∧
      ∃ retryAt, e.retryAt = some retryAt ∧ retryAt ≤ now := by
  unfold due
  match e.retryAt with
  | none => simp
  | some retryAt => simp [and_assoc]

end

@[simp] theorem requeueEvent_id (now : Time) (result : Except Exc Unit) (e : Event) :
    (requeueEvent now result e).id = e.id := by
  cases result <;> rfl

@[simp] theorem DlqCall.update_id (call : DlqCall) (now : Time) (read row : Event) :
    (call.update now read row).id = row.id := by
  cases call <;> rfl

@[simp] theorem DlqCall.update_status (call : DlqCall) (now : Time) (read row : Event) :
    (call.update now read row).status = row.status := by
  cases call <;> rfl

end WebhookRelay.Retry
