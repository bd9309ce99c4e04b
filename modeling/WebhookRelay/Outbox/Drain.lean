import WebhookRelay.Foundation.Backlog
import WebhookRelay.Outbox.Protocol

/-!
# No record waits for ever

One relay process, working off the outbox while gateways commit new records
and some of its transactions abort. A poison record is tried at most ten times
and the batch is always the oldest ten, so a record with `n` records not newer
than itself is settled after `n + 9` complete passes, whatever the sends
answer; with a Kafka that answers, one pass for each ten records publishes it.
-/

namespace WebhookRelay.Outbox

open Foundation

/-- The loop body on one record. -/
def turn (answer : SendAnswer) (r : OutboxRecord) : OutboxRecord :=
  relayRecord (publish answer r).2 r

/-- A record the loop still has tries for. -/
structure Live (r : OutboxRecord) : Prop where
  status : r.status = .pending
  nonneg : 0 ≤ r.attempts
  below : r.attempts < maxAttempts

/-- How the tries of a record are counted, for sends that are answered in some
way: each turn of the loop takes one, and what has none left is done. -/
structure Weighing where
  weight : OutboxRecord → ℕ
  tries : ℕ
  answer : SendAnswer → Prop
  done : OutboxStatus → Prop
  le_tries : ∀ r, 0 ≤ r.attempts → weight r ≤ tries
  pos : ∀ r, Live r → 0 < weight r
  pending : ∀ r, 0 < weight r → r.status = .pending
  falls : ∀ r a, Live r → answer a → weight (turn a r) < weight r
  settles : ∀ r a, Live r → answer a →
    (turn a r).status = .pending ∨ done (turn a r).status

/-- Any answers at all: the attempts left. -/
def byAttempts : Weighing where
  weight r := if r.status = .pending then (maxAttempts - r.attempts).toNat else 0
  tries := 10
  answer _ := True
  done status := status ≠ .pending
  le_tries r h := by
    dsimp only [maxAttempts]
    split <;> omega
  pos r h := by
    have := h.below
    rw [if_pos h.status]
    omega
  pending r h := by
    by_contra hnot
    rw [if_neg hnot] at h
    exact h.false
  falls r a h _ := by
    have hbelow := h.below
    rw [if_pos h.status]
    have charged : ∀ exc, (if (relayRecord (.error exc) r).status = .pending then
        (maxAttempts - (relayRecord (.error exc) r).attempts).toNat else 0) <
          (maxAttempts - r.attempts).toNat := by
      intro exc
      rw [relayRecord_error_attempts]
      split <;> omega
    cases a with
    | noProducer => exact charged _
    | raised exc => exact charged exc
    | acked =>
        show (if OutboxStatus.completed = .pending then _ else 0) < _
        rw [if_neg (by decide)]
        omega
  settles r a _ _ := Decidable.em _

/-- Every send acknowledged: one try is enough. -/
def byAcks : Weighing where
  weight r := if r.status = .pending then 1 else 0
  tries := 1
  answer a := a = .acked
  done status := status = .completed
  le_tries r _ := by split <;> decide
  pos r h := by simp [h.status]
  pending r h := by
    by_contra hnot
    rw [if_neg hnot] at h
    exact h.false
  falls r a h ha := by
    subst ha
    rw [if_pos h.status]
    exact Nat.zero_lt_one
  settles r a _ ha := by
    subst ha
    exact Or.inr rfl

/-! ## The records in question -/

/-- The tries a record has left in the table. -/
def left (W : Weighing) (rows : List OutboxRecord) (id : UUID) : ℕ :=
  ((Rows.get OutboxRecord.id rows id).map W.weight).getD 0

/-- The pending records that are not newer than `r`. -/
def ahead (rows : List OutboxRecord) (r : OutboxRecord) : List OutboxRecord :=
  rows.filter (fun b => b.status = .pending ∧ b.createdAt ≤ r.createdAt)

variable {W : Weighing} {rows : List OutboxRecord} {tasks : Finset UUID} {cutoff : Time}
  {s t : RelaySystem Unit}

theorem left_eq (nodup : (rows.map OutboxRecord.id).Nodup) {r : OutboxRecord} (hr : r ∈ rows) :
    left W rows r.id = W.weight r := by
  unfold left
  rw [(Rows.get_eq_some_iff nodup).mpr ⟨hr, rfl⟩]
  rfl

theorem exists_of_left_pos {id : UUID} (h : 0 < left W rows id) :
    ∃ r ∈ rows, r.id = id ∧ r.status = .pending := by
  unfold left at h
  cases hget : Rows.get OutboxRecord.id rows id with
  | none =>
      rw [hget] at h
      cases h
  | some r =>
      rw [hget] at h
      obtain ⟨hr, hid⟩ := Rows.mem_of_get hget
      exact ⟨r, hr, hid, W.pending r h⟩

/-- A batch is full of records not newer than these, or holds all of these. -/
theorem first_selectPending (nodup : (rows.map OutboxRecord.id).Nodup) (tie : UUID → ℕ)
    (hnewer : ∀ r ∈ rows, r.status = .pending → r.createdAt ≤ cutoff → r.id ∈ tasks)
    (hcutoff : ∀ r ∈ rows, r.id ∈ tasks → r.createdAt ≤ cutoff) :
    min batchSize (Backlog.active tasks (left W rows)).card ≤
      (((selectPending tie [] rows).map OutboxRecord.id).toFinset ∩ tasks).card := by
  by_cases hall : Backlog.active tasks (left W rows) ⊆
      ((selectPending tie [] rows).map OutboxRecord.id).toFinset ∩ tasks
  · exact (min_le_right _ _).trans (Finset.card_le_card hall)
  · -- one is left out: those that came before it are as old, and there are ten
    obtain ⟨id, hactive, hout⟩ := Finset.not_subset.mp hall
    obtain ⟨htask, hpos⟩ := Finset.mem_filter.mp hactive
    obtain ⟨r, hr, rfl, hpending⟩ := exists_of_left_pos hpos
    have hnot : r ∉ selectPending tie [] rows := by
      intro hmem
      exact hout (Finset.mem_inter.mpr
        ⟨List.mem_toFinset.mpr (List.mem_map_of_mem hmem), htask⟩)
    have hrow : r ∈ rows.filter (fun r => r.status = .pending ∧ r.id ∉ []) := by
      simp [hr, hpending]
    obtain ⟨hfull, hbefore⟩ := full_of_not_mem_take hrow hnot
    have hsub : ((selectPending tie [] rows).map OutboxRecord.id).toFinset ⊆ tasks := by
      intro id hid
      obtain ⟨b, hb, rfl⟩ := List.mem_map.mp (List.mem_toFinset.mp hid)
      obtain ⟨hmem, hstatus, _⟩ := mem_selectPending hb
      refine hnewer b hmem hstatus (le_trans ?_ (hcutoff r hr htask))
      rcases Prod.Lex.toLex_le_toLex.mp (hbefore b hb) with hlt | ⟨heq, _⟩
      · exact hlt.le
      · exact heq.le
    rw [Finset.inter_eq_left.mpr hsub, List.toFinset_card_of_nodup (selectPending_nodup nodup),
      List.length_map]
    exact (min_le_left _ _).trans hfull.ge

/-! ## The invariant of a run -/

/-- `tasks` are the records that were pending and no newer than `cutoff` when
the run began. -/
structure DrainInv (W : Weighing) (tasks : Finset UUID) (cutoff : Time) (s : RelaySystem Unit) :
    Prop where
  relay : RelayInv s
  nonneg : ∀ r ∈ s.db.outbox, 0 ≤ r.attempts
  newer : ∀ r ∈ s.db.outbox, r.status = .pending → r.createdAt ≤ cutoff → r.id ∈ tasks
  tasks_old : ∀ r ∈ s.db.outbox, r.id ∈ tasks → r.createdAt ≤ cutoff
  tasks_rows : ∀ id ∈ tasks, ∃ r ∈ s.db.outbox, r.id = id ∧ (r.status = .pending ∨ W.done r.status)
  /-- The batch was chosen when these were the oldest. -/
  first : s.locks.held () ≠ [] →
    min batchSize (Backlog.active tasks (left W s.db.outbox)).card ≤
      (((s.locks.held ()).map OutboxRecord.id).toFinset ∩ tasks).card
  staged : ∀ w ∈ s.locks.staged (), ∃ r ∈ s.locks.held (), r.id = w.id ∧
    r.createdAt = w.createdAt ∧ W.weight w < W.weight r ∧ 0 ≤ w.attempts ∧
      (w.status = .pending ∨ W.done w.status)

/-- What is asked of a move: newcomers are newer, sends are answered. -/
def Later (W : Weighing) (cutoff : Time) (m : Move (RelaySystem Unit) (RelayLabel Unit)) : Prop :=
  match m.label with
  | .ingest _ record => cutoff < record.createdAt
  | .publish _ answer => W.answer answer
  | _ => True

/-- The commit of a pass that went through its whole batch. -/
def completesPass (m : Move (RelaySystem Unit) (RelayLabel Unit)) : Bool :=
  match m.label with
  | .commit x => (m.src.todo x).isEmpty
  | _ => false

/-- The outbox once the relay commits. -/
def committed (s : RelaySystem Unit) : List OutboxRecord :=
  RowLocks.write OutboxRecord.id (s.locks.staged ()) s.db.outbox

/-! ## What a step does to the tries -/

theorem left_append {id : UUID} (hid : id ∈ rows.map OutboxRecord.id) {record : OutboxRecord}
    (hfresh : record.id ∉ rows.map OutboxRecord.id) :
    left W (rows ++ [record]) id = left W rows id := by
  have hne : record.id ≠ id := fun heq => hfresh (heq ▸ hid)
  unfold left
  rw [Rows.get_append_of_ne hne]

namespace DrainInv

theorem live (h : DrainInv W tasks cutoff s) {r : OutboxRecord} (hr : r ∈ s.db.outbox)
    (hpending : r.status = .pending) : Live r :=
  ⟨hpending, h.nonneg r hr, (h.relay.rows_ok r hr).pending hpending⟩

theorem mem_ids (h : DrainInv W tasks cutoff s) {id : UUID} (hid : id ∈ tasks) :
    id ∈ s.db.outbox.map OutboxRecord.id := by
  obtain ⟨r, hr, rfl, _⟩ := h.tasks_rows id hid
  exact List.mem_map_of_mem hr

theorem left_le_tries (h : DrainInv W tasks cutoff s) :
    ∀ id ∈ tasks, left W s.db.outbox id ≤ W.tries := by
  intro id hid
  obtain ⟨r, hr, rfl, _⟩ := h.tasks_rows id hid
  rw [left_eq h.relay.locked.rows_nodup hr]
  exact W.le_tries r (h.nonneg r hr)

theorem staged_nodup (h : DrainInv W tasks cutoff s) :
    ((s.locks.staged ()).map OutboxRecord.id).Nodup := by
  rw [h.relay.staged_ids]
  exact (h.relay.locked.held_nodup ()).sublist ((List.take_sublist _ _).map _)

/-- Where a record of the table is after a commit. -/
theorem commit_row (h : DrainInv W tasks cutoff s) {r : OutboxRecord} (hr : r ∈ s.db.outbox) :
    (∃ w ∈ s.locks.staged (), w ∈ committed s ∧ w.id = r.id ∧ W.weight w < W.weight r) ∨
      (r.id ∉ (s.locks.staged ()).map OutboxRecord.id ∧ r ∈ committed s) := by
  by_cases hid : r.id ∈ (s.locks.staged ()).map OutboxRecord.id
  · left
    obtain ⟨w, hw, hwid⟩ := List.mem_map.mp hid
    obtain ⟨r', hr', hid', _, hfalls, _⟩ := h.staged w hw
    obtain rfl := h.relay.locked.row_unique (h.relay.locked.held_mem () r' hr') hr (hid'.trans hwid)
    exact ⟨w, hw, RowLocks.mem_write_of_mem h.staged_nodup hw hr hwid, hwid, hfalls⟩
  · right
    refine ⟨hid, RowLocks.mem_write_of_unwritten hr (fun w hw heq => hid ?_)⟩
    exact heq ▸ List.mem_map_of_mem hw

/-- No commit gives tries back, and one on a staged record takes some. -/
theorem left_commit (h : DrainInv W tasks cutoff s) {id : UUID} (hid : id ∈ tasks) :
    left W (committed s) id ≤ left W s.db.outbox id ∧
      (id ∈ (s.locks.staged ()).map OutboxRecord.id →
        left W (committed s) id < left W s.db.outbox id) := by
  have nodup : ((committed s).map OutboxRecord.id).Nodup := by
    unfold committed
    rw [RowLocks.map_key_write]
    exact h.relay.locked.rows_nodup
  obtain ⟨r, hr, rfl, _⟩ := h.tasks_rows id hid
  rw [left_eq h.relay.locked.rows_nodup hr]
  rcases h.commit_row hr with ⟨w, hw, hmem, hwid, hfalls⟩ | ⟨hnot, hmem⟩
  · rw [← hwid, left_eq nodup hmem]
    exact ⟨hfalls.le, fun _ => hfalls⟩
  · rw [left_eq nodup hmem]
    exact ⟨le_rfl, fun hstaged => absurd hstaged hnot⟩

/-- The commit of a whole batch is a round. -/
theorem round_commit (h : DrainInv W tasks cutoff s) (hheld : s.locks.held () ≠ [])
    (hwhole : s.todo () = []) :
    Backlog.Round batchSize tasks (left W s.db.outbox) (left W (committed s)) := by
  have hids : (s.locks.staged ()).map OutboxRecord.id = (s.locks.held ()).map OutboxRecord.id := by
    rw [h.relay.staged_ids, List.take_of_length_le (List.drop_eq_nil_iff.mp hwhole)]
  refine ⟨fun id hid => (h.left_commit hid).1,
    ((s.locks.held ()).map OutboxRecord.id).toFinset ∩ tasks, ?_, h.first hheld, ?_⟩
  · intro id hid
    obtain ⟨hmem, htask⟩ := Finset.mem_inter.mp hid
    obtain ⟨r, hr, rfl⟩ := List.mem_map.mp (List.mem_toFinset.mp hmem)
    have hrow := h.relay.locked.held_mem () r hr
    refine Finset.mem_filter.mpr ⟨htask, ?_⟩
    rw [left_eq h.relay.locked.rows_nodup hrow]
    exact W.pos r (h.live hrow (h.relay.held_pending () r hr))
  · intro id hid
    obtain ⟨hmem, htask⟩ := Finset.mem_inter.mp hid
    exact (h.left_commit htask).2 (hids ▸ List.mem_toFinset.mp hmem)

/-! ## The invariant, step by step -/

theorem ingest (h : DrainInv W tasks cutoff s) {event : Event} {record : OutboxRecord}
    (hnew : cutoff < record.createdAt) (hstep : Outbox.ingest event record s = some t) :
    DrainInv W tasks cutoff t := by
  obtain ⟨hfresh, hstatus, hattempts, houtbox, hlocks, _⟩ := ingest_cases hstep
  have hcases : ∀ r ∈ t.db.outbox, r ∈ s.db.outbox ∨ r = record := by
    intro r hr
    rw [houtbox] at hr
    exact (List.mem_append.mp hr).imp id List.mem_singleton.mp
  have hactive : Backlog.active tasks (left W t.db.outbox) =
      Backlog.active tasks (left W s.db.outbox) := by
    refine Finset.filter_congr (fun id hid => ?_)
    rw [houtbox, left_append (h.mem_ids hid) hfresh]
  refine ⟨relayInv_ingest h.relay hstep, ?_, ?_, ?_, ?_, ?_, ?_⟩
  · intro r hr
    rcases hcases r hr with hold | rfl
    · exact h.nonneg r hold
    · exact hattempts.ge
  · intro r hr hpending hage
    rcases hcases r hr with hold | rfl
    · exact h.newer r hold hpending hage
    · exact absurd hage (not_le.mpr hnew)
  · intro r hr htask
    rcases hcases r hr with hold | rfl
    · exact h.tasks_old r hold htask
    · exact absurd (h.mem_ids htask) hfresh
  · intro id hid
    obtain ⟨r, hr, hrest⟩ := h.tasks_rows id hid
    exact ⟨r, by rw [houtbox]; exact List.mem_append_left _ hr, hrest⟩
  · rw [hlocks, hactive]
    exact h.first
  · rw [hlocks]
    exact h.staged

/-- The relay is idle: nobody else holds a lock. -/
theorem table_of_idle (h : RelayInv s) (idle : s.locks.held () = []) : s.locks.table = [] := by
  refine List.eq_nil_iff_forall_not_mem.mpr (fun k hk => ?_)
  obtain ⟨x, r, hr, _⟩ := (h.locked.mem_table k).mp hk
  rw [idle] at hr
  cases hr

theorem select (h : DrainInv W tasks cutoff s) {x : Unit} {tie : UUID → ℕ}
    (hstep : Outbox.select x tie s = some t) : DrainInv W tasks cutoff t := by
  obtain ⟨idle, hdb, _, _, hlocks⟩ := select_cases hstep
  rw [table_of_idle h.relay idle] at hlocks
  refine ⟨relayInv_select h.relay hstep, hdb ▸ h.nonneg, hdb ▸ h.newer, hdb ▸ h.tasks_old,
    hdb ▸ h.tasks_rows, ?_, ?_⟩
  · intro _
    rw [hdb, hlocks, RowLocks.held_lock_self]
    exact first_selectPending h.relay.locked.rows_nodup tie h.newer h.tasks_old
  · rw [hlocks, RowLocks.staged_lock_self]
    intro w hw
    cases hw

theorem publishNext (h : DrainInv W tasks cutoff s) {x : Unit} {answer : SendAnswer}
    (hanswer : W.answer answer) (hstep : Outbox.publishNext x answer s = some t) :
    DrainInv W tasks cutoff t := by
  obtain ⟨r, rest, htodo, _, hdb, _, hlocks, _⟩ := publishNext_cases hstep
  have hheld := (todo_head h.relay htodo).1
  have hlive := h.live (h.relay.locked.held_mem () r hheld) (h.relay.held_pending () r hheld)
  refine ⟨relayInv_publishNext h.relay hstep, hdb ▸ h.nonneg, hdb ▸ h.newer, hdb ▸ h.tasks_old,
    hdb ▸ h.tasks_rows, ?_, ?_⟩
  · rw [hdb, hlocks]
    exact h.first
  · rw [hlocks, RowLocks.held_stage, RowLocks.staged_stage_self]
    intro w hw
    rcases List.mem_append.mp hw with hold | hnew
    · exact h.staged w hold
    · obtain rfl := List.mem_singleton.mp hnew
      refine ⟨r, hheld, (relayRecord_id _ r).symm, (relayRecord_createdAt _ r).symm,
        W.falls r answer hlive hanswer, ?_, W.settles r answer hlive hanswer⟩
      cases hresult : (publish answer r).2 with
      | ok _ => exact hlive.nonneg
      | error exc =>
          rw [relayRecord_error_attempts]
          have := hlive.nonneg
          omega

theorem commit (h : DrainInv W tasks cutoff s) {x : Unit} (hstep : Outbox.commit x s = some t) :
    DrainInv W tasks cutoff t := by
  obtain ⟨houtbox, hlocks, _, _⟩ := commit_cases hstep
  -- a row of the new table is an old one, or staged and as old as one
  have hrows : ∀ r ∈ t.db.outbox, (r ∈ s.db.outbox) ∨ (r ∈ s.locks.staged () ∧
      ∃ old ∈ s.db.outbox, old.id = r.id ∧ old.createdAt = r.createdAt ∧ old.status = .pending) := by
    intro r hr
    rw [houtbox] at hr
    rcases RowLocks.mem_write hr with ⟨hw, _⟩ | ⟨hold, _⟩
    · obtain ⟨old, hold, hid, hage, _⟩ := h.staged r hw
      exact Or.inr ⟨hw, old, h.relay.locked.held_mem () old hold, hid, hage,
        h.relay.held_pending () old hold⟩
    · exact Or.inl hold
  have hidle : t.locks.held () = [] ∧ t.locks.staged () = [] := by
    rw [hlocks]
    exact ⟨RowLocks.held_release_self, RowLocks.staged_release_self⟩
  refine ⟨relayInv_commit h.relay hstep, ?_, ?_, ?_, ?_, ?_, ?_⟩
  · intro r hr
    rcases hrows r hr with hold | ⟨hw, _⟩
    · exact h.nonneg r hold
    · obtain ⟨_, _, _, _, _, hnonneg, _⟩ := h.staged r hw
      exact hnonneg
  · intro r hr hpending hage
    rcases hrows r hr with hold | ⟨_, old, hold, hid, hage', hpending'⟩
    · exact h.newer r hold hpending hage
    · exact hid ▸ h.newer old hold hpending' (hage'.trans_le hage)
  · intro r hr htask
    rcases hrows r hr with hold | ⟨_, old, hold, hid, hage', _⟩
    · exact h.tasks_old r hold htask
    · exact hage' ▸ h.tasks_old old hold (hid.symm ▸ htask)
  · intro id hid
    obtain ⟨r, hr, rfl, hstatus⟩ := h.tasks_rows id hid
    rw [houtbox]
    rcases h.commit_row hr with ⟨w, hw, hmem, hwid, _⟩ | ⟨_, hmem⟩
    · obtain ⟨_, _, _, _, _, _, hdone⟩ := h.staged w hw
      exact ⟨w, hmem, hwid, hdone⟩
    · exact ⟨r, hmem, rfl, hstatus⟩
  · intro hheld
    exact absurd hidle.1 hheld
  · rw [hidle.2]
    intro w hw
    cases hw

theorem abort (h : DrainInv W tasks cutoff s) {x : Unit} (hstep : Outbox.abort x s = some t) :
    DrainInv W tasks cutoff t := by
  obtain ⟨hdb, hlocks, _, _⟩ := abort_cases hstep
  have hidle : t.locks.held () = [] ∧ t.locks.staged () = [] := by
    rw [hlocks]
    exact ⟨RowLocks.held_release_self, RowLocks.staged_release_self⟩
  refine ⟨relayInv_abort h.relay hstep, hdb ▸ h.nonneg, hdb ▸ h.newer, hdb ▸ h.tasks_old,
    hdb ▸ h.tasks_rows, fun hheld => absurd hidle.1 hheld, ?_⟩
  rw [hidle.2]
  intro w hw
  cases hw

theorem next (h : DrainInv W tasks cutoff s) {label : RelayLabel Unit}
    (hlater : Later W cutoff ⟨s, label, t⟩) (hstep : relayNext s label = some t) :
    DrainInv W tasks cutoff t := by
  cases label with
  | ingest event record => exact h.ingest hlater hstep
  | select x tie => exact h.select hstep
  | publish x answer => exact h.publishNext hlater hstep
  | signal x =>
      cases hstep
      exact ⟨relayInv_signal h.relay _, h.nonneg, h.newer, h.tasks_old, h.tasks_rows, h.first,
        h.staged⟩
  | commit x => exact h.commit hstep
  | abort x => exact h.abort hstep

/-- The rounds to come: one less with every complete pass, never more. -/
theorem rounds_next (h : DrainInv W tasks cutoff s) {label : RelayLabel Unit}
    (hstep : relayNext s label = some t) :
    Backlog.rounds batchSize W.tries tasks (left W t.db.outbox) ≤
      Backlog.rounds batchSize W.tries tasks (left W s.db.outbox) -
        if completesPass ⟨s, label, t⟩ then 1 else 0 := by
  have mono : (∀ id ∈ tasks, left W t.db.outbox id ≤ left W s.db.outbox id) →
      Backlog.rounds batchSize W.tries tasks (left W t.db.outbox) ≤
        Backlog.rounds batchSize W.tries tasks (left W s.db.outbox) :=
    Backlog.rounds_mono h.left_le_tries
  cases label with
  | ingest event record =>
      obtain ⟨hfresh, _, _, houtbox, _⟩ := ingest_cases hstep
      refine mono (fun id hid => ?_)
      rw [houtbox, left_append (h.mem_ids hid) hfresh]
  | select x tie =>
      obtain ⟨_, hdb, _⟩ := select_cases hstep
      exact mono (fun id _ => hdb ▸ le_rfl)
  | publish x answer =>
      obtain ⟨_, _, _, _, hdb, _⟩ := publishNext_cases hstep
      exact mono (fun id _ => hdb ▸ le_rfl)
  | signal x =>
      cases hstep
      exact le_rfl
  | abort x =>
      obtain ⟨hdb, _⟩ := abort_cases hstep
      exact mono (fun id _ => hdb ▸ le_rfl)
  | commit x =>
      obtain ⟨houtbox, _⟩ := commit_cases hstep
      by_cases hwhole : s.todo () = []
      · have hheld : s.locks.held () ≠ [] := by
          intro hnone
          change Outbox.commit x s = some t at hstep
          unfold Outbox.commit at hstep
          rw [if_neg (fun hguard => hguard.1 hnone)] at hstep
          cases hstep
        have hround := (h.round_commit hheld hwhole).rounds_le (by decide) h.left_le_tries
        have hcounts : completesPass ⟨s, .commit x, t⟩ = true := by
          show (s.todo ()).isEmpty = true
          rw [hwhole]
          rfl
        rw [hcounts, if_pos rfl, houtbox]
        exact hround
      · have hcounts : completesPass ⟨s, .commit x, t⟩ = false := by
          show (s.todo ()).isEmpty = false
          simpa using hwhole
        rw [hcounts]
        exact mono (fun id hid => houtbox ▸ (h.left_commit hid).1)

end DrainInv

/-! ## Attempts are counted up from zero -/

def Counted (s : RelaySystem Unit) : Prop :=
  (∀ r ∈ s.db.outbox, 0 ≤ r.attempts) ∧ ∀ w ∈ s.locks.staged (), 0 ≤ w.attempts

theorem counted_next (inv : RelayInv s) (h : Counted s) {label : RelayLabel Unit}
    (hstep : relayNext s label = some t) : Counted t := by
  obtain ⟨hrows, hstaged⟩ := h
  cases label with
  | ingest event record =>
      obtain ⟨_, _, hattempts, houtbox, hlocks, _⟩ := ingest_cases hstep
      refine ⟨?_, hlocks ▸ hstaged⟩
      intro r hr
      rw [houtbox] at hr
      rcases List.mem_append.mp hr with hold | hnew
      · exact hrows r hold
      · exact (List.mem_singleton.mp hnew ▸ hattempts).ge
  | select x tie =>
      obtain ⟨_, hdb, _, _, hlocks⟩ := select_cases hstep
      refine ⟨hdb ▸ hrows, ?_⟩
      rw [hlocks, RowLocks.staged_lock_self]
      intro w hw
      cases hw
  | publish x answer =>
      obtain ⟨r, rest, htodo, _, hdb, _, hlocks, _⟩ := publishNext_cases hstep
      have hold := hrows r (inv.locked.held_mem () r (todo_head inv htodo).1)
      refine ⟨hdb ▸ hrows, ?_⟩
      rw [hlocks, RowLocks.staged_stage_self]
      intro w hw
      rcases List.mem_append.mp hw with hw | hw
      · exact hstaged w hw
      · obtain rfl := List.mem_singleton.mp hw
        cases (publish answer r).2 with
        | ok _ => exact hold
        | error exc =>
            rw [relayRecord_error_attempts]
            omega
  | signal x =>
      cases hstep
      exact ⟨hrows, hstaged⟩
  | commit x =>
      obtain ⟨houtbox, hlocks, _, _⟩ := commit_cases hstep
      refine ⟨?_, ?_⟩
      · intro r hr
        rw [houtbox] at hr
        rcases RowLocks.mem_write hr with ⟨hw, _⟩ | ⟨hold, _⟩
        · exact hstaged r hw
        · exact hrows r hold
      · rw [hlocks, RowLocks.staged_release_self]
        intro w hw
        cases hw
  | abort x =>
      obtain ⟨hdb, hlocks, _, _⟩ := abort_cases hstep
      refine ⟨hdb ▸ hrows, ?_⟩
      rw [hlocks, RowLocks.staged_release_self]
      intro w hw
      cases hw

theorem counted_reachable (h : (relays Unit).Reachable s) : RelayInv s ∧ Counted s := by
  have hstart : ∀ s, (relays Unit).init s → RelayInv s ∧ Counted s := by
    intro s hinit
    refine ⟨relayInv_init hinit, ?_⟩
    rw [show s = _ from hinit]
    refine ⟨?_, ?_⟩ <;> intro r hr <;> cases hr
  refine h.invariant hstart ?_
  rintro s label t ⟨inv, h⟩ hstep
  exact ⟨relayInv_next inv hstep, counted_next inv h hstep⟩

/-! ## Enough passes -/

def aheadIds (rows : List OutboxRecord) (r : OutboxRecord) : Finset UUID :=
  ((ahead rows r).map OutboxRecord.id).toFinset

theorem mem_ahead {b r : OutboxRecord} :
    b ∈ ahead rows r ↔ b ∈ rows ∧ b.status = .pending ∧ b.createdAt ≤ r.createdAt := by
  simp [ahead]

theorem drainInv_start (inv : RelayInv s) (hcounted : Counted s) (idle : s.locks.held () = [])
    (r : OutboxRecord) : DrainInv W (aheadIds s.db.outbox r) r.createdAt s := by
  have hids : ∀ id ∈ aheadIds s.db.outbox r, ∃ b ∈ ahead s.db.outbox r, b.id = id := by
    intro id hid
    exact List.mem_map.mp (List.mem_toFinset.mp hid)
  refine ⟨inv, hcounted.1, ?_, ?_, ?_, fun hheld => absurd idle hheld, ?_⟩
  · intro b hb hpending hage
    exact List.mem_toFinset.mpr (List.mem_map_of_mem (mem_ahead.mpr ⟨hb, hpending, hage⟩))
  · intro b hb hid
    obtain ⟨c, hc, hcid⟩ := hids b.id hid
    obtain ⟨hmem, _, hage⟩ := mem_ahead.mp hc
    exact inv.locked.row_unique hmem hb hcid ▸ hage
  · intro id hid
    obtain ⟨b, hb, rfl⟩ := hids id hid
    obtain ⟨hmem, hpending, _⟩ := mem_ahead.mp hb
    exact ⟨b, hmem, rfl, Or.inl hpending⟩
  · rw [staged_of_idle inv idle]
    intro w hw
    cases hw

/-- After enough complete passes the record is done. -/
theorem done_within (W : Weighing) (hreach : (relays Unit).Reachable s)
    (idle : s.locks.held () = []) {moves : List (Move (RelaySystem Unit) (RelayLabel Unit))}
    (run : (relays Unit).Run s moves t) {r : OutboxRecord} (hr : r ∈ s.db.outbox)
    (hpending : r.status = .pending) (hlater : ∀ m ∈ moves, Later W r.createdAt m)
    (hpasses : (W.tries * (ahead s.db.outbox r).length - 1) / batchSize + W.tries ≤
      moves.countP completesPass) :
    ∃ r' ∈ t.db.outbox, r'.id = r.id ∧ W.done r'.status := by
  obtain ⟨inv, hcounted⟩ := counted_reachable hreach
  have hstart := drainInv_start (W := W) inv hcounted idle r
  obtain ⟨hend, hrounds⟩ := run.countdown
    (fun _ _ _ h hlater hstep => h.next hlater hstep)
    (fun _ _ _ h _ hstep => h.rounds_next hstep) hstart hlater
  have hcard : (aheadIds s.db.outbox r).card = (ahead s.db.outbox r).length := by
    unfold aheadIds
    rw [List.toFinset_card_of_nodup, List.length_map]
    exact inv.locked.rows_nodup.sublist (List.filter_sublist.map _)
  have hbound := Backlog.rounds_le (k := batchSize) hstart.left_le_tries
  rw [hcard] at hbound
  have hzero : Backlog.rounds batchSize W.tries (aheadIds s.db.outbox r) (left W t.db.outbox) = 0 := by
    omega
  have htask : r.id ∈ aheadIds s.db.outbox r :=
    List.mem_toFinset.mpr (List.mem_map_of_mem (mem_ahead.mpr ⟨hr, hpending, le_rfl⟩))
  have hnone := Backlog.done_of_rounds_eq_zero hend.left_le_tries hzero r.id htask
  obtain ⟨r', hr', hid, hstatus⟩ := hend.tasks_rows r.id htask
  refine ⟨r', hr', hid, hstatus.resolve_left (fun hstill => ?_)⟩
  rw [← hid, left_eq hend.relay.locked.rows_nodup hr'] at hnone
  exact (W.pos r' (hend.live hr' hstill)).ne' hnone

/-- Whatever Kafka answers, and whatever else arrives. -/
theorem settled_within (hreach : (relays Unit).Reachable s) (idle : s.locks.held () = [])
    {moves : List (Move (RelaySystem Unit) (RelayLabel Unit))} (run : (relays Unit).Run s moves t)
    {r : OutboxRecord} (hr : r ∈ s.db.outbox) (hpending : r.status = .pending)
    (hlater : ∀ m ∈ moves, ∀ event record, m.label = .ingest event record →
      r.createdAt < record.createdAt)
    (hpasses : (ahead s.db.outbox r).length + 9 ≤ moves.countP completesPass) :
    ∃ r' ∈ t.db.outbox, r'.id = r.id ∧ r'.status ≠ .pending := by
  refine done_within byAttempts hreach idle run hr hpending ?_ ?_
  · intro m hm
    unfold Later
    split
    · exact hlater m hm _ _ (by assumption)
    · trivial
    · trivial
  · have hsome : 0 < (ahead s.db.outbox r).length :=
      List.length_pos_of_mem (mem_ahead.mpr ⟨hr, hpending, le_rfl⟩)
    show (10 * (ahead s.db.outbox r).length - 1) / 10 + 10 ≤ _
    omega

/-! A record that Kafka refuses, and a newcomer. -/

def poisonRecord : OutboxRecord where
  id := 1
  eventId := 2
  publishKey := "endpoint"
  publishTopic := "raw-events"

def newcomer : OutboxRecord where
  id := 3
  eventId := 4
  publishKey := "endpoint"
  publishTopic := "raw-events"
  createdAt := 1

def onePoison : RelaySystem Unit :=
  (relays Unit).after (.ofDatabase {})
    [.ingest { id := 2, endpointId := 5, requestBody := .null } poisonRecord]

def refusedPass : List (RelayLabel Unit) :=
  [.select () (fun _ => 0), .publish () (.raised ⟨"KafkaError", "record too large"⟩), .commit ()]

/-- Ten passes; the newcomer comes before the tenth, which publishes it. -/
def poisonRun : List (RelayLabel Unit) :=
  (List.replicate 9 refusedPass).flatten ++
    [.ingest { id := 4, endpointId := 5, requestBody := .null } newcomer,
      .select () (fun _ => 0), .publish () (.raised ⟨"KafkaError", "record too large"⟩),
      .publish () .acked, .commit ()]

theorem reachable_onePoison : (relays Unit).Reachable onePoison := by
  have hinit : (relays Unit).init (.ofDatabase {}) := rfl
  exact Machine.reachable_after hinit rfl

theorem settled_within_poisonRun :
    ∃ r ∈ ((relays Unit).after onePoison poisonRun).db.outbox,
      r.id = poisonRecord.id ∧ r.status ≠ .pending := by
  have hrun := Machine.run_trace (Machine.exec_eq_after
    (show ((relays Unit).exec onePoison poisonRun).isSome = true from rfl))
  refine settled_within reachable_onePoison rfl hrun (List.mem_singleton_self poisonRecord) rfl ?_
    (by decide)
  intro m hm event record hlabel
  have hmem := Machine.label_mem_of_mem_trace hm
  rw [hlabel] at hmem
  obtain ⟨_, rfl⟩ : event = { id := 4, endpointId := 5, requestBody := .null } ∧ record = newcomer := by
    simpa [poisonRun, refusedPass] using hmem
  decide

/-- With a Kafka that answers: one pass for each ten of the records that are
not newer, and the record has been published. -/
theorem published_within (hreach : (relays Unit).Reachable s) (idle : s.locks.held () = [])
    {moves : List (Move (RelaySystem Unit) (RelayLabel Unit))} (run : (relays Unit).Run s moves t)
    {r : OutboxRecord} (hr : r ∈ s.db.outbox) (hpending : r.status = .pending)
    (hlater : ∀ m ∈ moves, ∀ event record, m.label = .ingest event record →
      r.createdAt < record.createdAt)
    (hacked : ∀ m ∈ moves, ∀ answer, m.label = .publish () answer → answer = .acked)
    (hpasses : (ahead s.db.outbox r).length ≤ 10 * moves.countP completesPass) :
    ∃ r' ∈ t.db.outbox, r'.id = r.id ∧ r'.status = .completed ∧ Published t.sends r' := by
  have hdone : ∃ r' ∈ t.db.outbox, r'.id = r.id ∧ r'.status = .completed := by
    refine done_within byAcks hreach idle run hr hpending ?_ ?_
    · intro m hm
      unfold Later
      split
      · exact hlater m hm _ _ (by assumption)
      · exact hacked m hm _ (by assumption)
      · trivial
    · have hsome : 0 < (ahead s.db.outbox r).length :=
        List.length_pos_of_mem (mem_ahead.mpr ⟨hr, hpending, le_rfl⟩)
      show (1 * (ahead s.db.outbox r).length - 1) / 10 + 1 ≤ _
      omega
  obtain ⟨r', hr', hid, hstatus⟩ := hdone
  exact ⟨r', hr', hid, hstatus,
    ((relayInv_reachable (run.reachable hreach)).rows_ok r' hr').completed hstatus⟩

/-- One pass that publishes. -/
def ackedPass : List (RelayLabel Unit) :=
  [.select () (fun _ => 0), .publish () .acked, .commit ()]

theorem published_within_ackedPass :
    ∃ r ∈ ((relays Unit).after onePoison ackedPass).db.outbox, r.id = poisonRecord.id ∧
      r.status = .completed ∧ Published ((relays Unit).after onePoison ackedPass).sends r := by
  have hrun := Machine.run_trace (Machine.exec_eq_after
    (show ((relays Unit).exec onePoison ackedPass).isSome = true from rfl))
  refine published_within reachable_onePoison rfl hrun (List.mem_singleton_self poisonRecord) rfl
    ?_ ?_ (by decide)
  · intro m hm event record hlabel
    have hmem := Machine.label_mem_of_mem_trace hm
    rw [hlabel] at hmem
    simp [ackedPass] at hmem
  · intro m hm answer hlabel
    have hmem := Machine.label_mem_of_mem_trace hm
    rw [hlabel] at hmem
    simpa [ackedPass] using hmem

end WebhookRelay.Outbox
