import WebhookRelay.Outbox.Relay

/-!
# The relay protocol

What holds in every committed state of any number of relays and gateways.
The send happens inside a transaction that may still roll back, so the
invariant ties the Kafka log to the committed rows and to the rows a live
transaction has staged; `aborted` is the only way a record is sent twice.
-/

namespace WebhookRelay.Outbox

open Foundation

variable {ξ : Type}

/-- How many times Kafka acknowledged a send for the record. -/
def ackedSends (sends : List Sent) (id : UUID) : ℕ :=
  sends.countP (fun e => e.acked ∧ e.record = id)

/-- An acknowledged send of `{event_id, endpoint_id}` to the record's topic. -/
def Published (sends : List Sent) (r : OutboxRecord) : Prop :=
  ∃ e ∈ sends, e.acked = true ∧ e.record = r.id ∧ e.message = publishMessage r

/-- What a record's status says about its attempts and its sends. -/
structure RowOk (sends : List Sent) (r : OutboxRecord) : Prop where
  pending : r.status = .pending → r.attempts < maxAttempts
  failed : r.status = .failed → r.attempts = maxAttempts
  completed : r.status = .completed → Published sends r

/-- The record is completed, or will be when a live transaction commits. -/
def Settled (s : RelaySystem ξ) (id : UUID) : Prop :=
  (∃ r ∈ s.db.outbox, r.id = id ∧ r.status = .completed) ∨
    ∃ x, ∃ w ∈ s.locks.staged x, w.id = id ∧ w.status = .completed

structure RelayInv (s : RelaySystem ξ) : Prop where
  locked : RowLocks.WellLocked OutboxRecord.id s.db.outbox s.locks
  rows_ok : ∀ r ∈ s.db.outbox, RowOk s.sends r
  held_pending : ∀ x, ∀ r ∈ s.locks.held x, r.status = .pending
  staged_ok : ∀ x, ∀ w ∈ s.locks.staged x, RowOk s.sends w
  staged_ids : ∀ x, (s.locks.staged x).map OutboxRecord.id =
    ((s.locks.held x).take (s.locks.staged x).length).map OutboxRecord.id
  acked_once : ∀ id, id ∉ s.aborted → ackedSends s.sends id ≤ 1
  unsettled : ∀ id, id ∉ s.aborted → ¬ Settled s id → ackedSends s.sends id = 0

theorem staged_of_idle {s : RelaySystem ξ} (inv : RelayInv s) {x : ξ}
    (idle : s.locks.held x = []) : s.locks.staged x = [] := by
  have h := inv.staged_ids x
  rw [idle] at h
  simpa using h

theorem relayInv_signal {s : RelaySystem ξ} (inv : RelayInv s) (stop : ξ → Bool) :
    RelayInv { s with stop := stop } :=
  ⟨inv.locked, inv.rows_ok, inv.held_pending, inv.staged_ok, inv.staged_ids, inv.acked_once,
    inv.unsettled⟩

/-! ## What each step does -/

/-- The send of one turn of the loop, if there was a producer to hand it to. -/
def attempt (answer : SendAnswer) (r : OutboxRecord) : List Sent :=
  ((publish answer r).1.map (fun m => ⟨r.id, m, (publish answer r).2.isOk⟩)).toList

theorem ingest_cases {event : Event} {record : OutboxRecord} {s s' : RelaySystem ξ}
    (h : ingest event record s = some s') :
    record.id ∉ s.db.outbox.map OutboxRecord.id ∧ record.status = .pending ∧ record.attempts = 0 ∧
      s'.db.outbox = s.db.outbox ++ [record] ∧ s'.locks = s.locks ∧ s'.sends = s.sends ∧
      s'.aborted = s.aborted := by
  unfold ingest at h
  split at h
  · rename_i hguard
    obtain ⟨_, hfresh, _, hstatus, hattempts⟩ := hguard
    cases h
    exact ⟨hfresh, hstatus, hattempts, rfl, rfl, rfl, rfl⟩
  · cases h

variable [DecidableEq ξ]

theorem select_cases {x : ξ} {tie : UUID → ℕ} {s s' : RelaySystem ξ}
    (h : select x tie s = some s') :
    s.locks.held x = [] ∧ s'.db = s.db ∧ s'.sends = s.sends ∧ s'.aborted = s.aborted ∧
      s'.locks = s.locks.lock OutboxRecord.id x
        (selectPending tie s.locks.table s.db.outbox) := by
  unfold select at h
  split at h
  · rename_i hguard
    split at h
    · cases h
    · rename_i r rest hbatch
      cases h
      exact ⟨hguard.2, rfl, rfl, rfl, by rw [hbatch]⟩
  · cases h

theorem publishNext_cases {x : ξ} {answer : SendAnswer} {s s' : RelaySystem ξ}
    (h : publishNext x answer s = some s') :
    ∃ r rest, s.todo x = r :: rest ∧ s.stop x = false ∧ s'.db = s.db ∧ s'.aborted = s.aborted ∧
      s'.locks = s.locks.stage x (relayRecord (publish answer r).2 r) ∧
      s'.sends = s.sends ++ attempt answer r := by
  unfold publishNext at h
  split at h
  · cases h
  · rename_i r rest htodo
    split at h
    · cases h
    · rename_i hstop
      cases h
      exact ⟨r, rest, htodo, by simpa using hstop, rfl, rfl, rfl, rfl⟩

theorem commit_cases {x : ξ} {s s' : RelaySystem ξ} (h : commit x s = some s') :
    s'.db.outbox = RowLocks.write OutboxRecord.id (s.locks.staged x) s.db.outbox ∧
      s'.locks = s.locks.release OutboxRecord.id x ∧ s'.sends = s.sends ∧
      s'.aborted = s.aborted := by
  unfold commit at h
  split at h
  · cases h
    exact ⟨rfl, rfl, rfl, rfl⟩
  · cases h

theorem abort_cases {x : ξ} {s s' : RelaySystem ξ} (h : abort x s = some s') :
    s'.db = s.db ∧ s'.locks = s.locks.release OutboxRecord.id x ∧ s'.sends = s.sends ∧
      s'.aborted = s.aborted ++ (s.locks.held x).map OutboxRecord.id := by
  unfold abort at h
  split at h
  · cases h
    exact ⟨rfl, rfl, rfl, rfl⟩
  · cases h

/-! ## Rows and sends -/

theorem Published.mono {sends : List Sent} {r : OutboxRecord} (h : Published sends r)
    (more : List Sent) : Published (sends ++ more) r := by
  obtain ⟨e, he, hrest⟩ := h
  exact ⟨e, List.mem_append_left _ he, hrest⟩

theorem RowOk.mono {sends : List Sent} {r : OutboxRecord} (h : RowOk sends r)
    (more : List Sent) : RowOk (sends ++ more) r :=
  ⟨h.pending, h.failed, fun hstatus => (h.completed hstatus).mono more⟩

/-- The loop body leaves a record that its own send accounts for. -/
theorem rowOk_relayRecord {sends : List Sent} {r : OutboxRecord} (h : RowOk sends r)
    (hpending : r.status = .pending) (answer : SendAnswer) :
    RowOk (sends ++ attempt answer r) (relayRecord (publish answer r).2 r) := by
  have hlt := h.pending hpending
  -- both error answers charge one attempt; at the limit the status turns
  have charged : ∀ exc, RowOk (sends ++ attempt answer r) (relayRecord (.error exc) r) := by
    intro exc
    by_cases hlimit : r.attempts + 1 ≥ maxAttempts
    · refine ⟨?_, ?_, ?_⟩ <;> rw [relayRecord_error_status, if_pos hlimit]
      · intro hcontra
        cases hcontra
      · intro _
        rw [relayRecord_error_attempts]
        omega
      · intro hcontra
        cases hcontra
    · refine ⟨?_, ?_, ?_⟩ <;> rw [relayRecord_error_status, if_neg hlimit, hpending]
      · intro _
        rw [relayRecord_error_attempts]
        omega
      · intro hcontra
        cases hcontra
      · intro hcontra
        cases hcontra
  cases answer with
  | noProducer => exact charged _
  | raised exc => exact charged exc
  | acked =>
      refine ⟨?_, ?_, ?_⟩
      · intro hcontra
        cases hcontra
      · intro hcontra
        cases hcontra
      · intro _
        exact ⟨⟨r.id, publishMessage r, true⟩, by
          simp [attempt, publish, Except.isOk, Except.toBool],
          rfl, rfl, rfl⟩

theorem ackedSends_append (sends more : List Sent) (id : UUID) :
    ackedSends (sends ++ more) id = ackedSends sends id + ackedSends more id :=
  List.countP_append

theorem ackedSends_attempt_le (answer : SendAnswer) (r : OutboxRecord) (id : UUID) :
    ackedSends (attempt answer r) id ≤ 1 := by
  apply le_trans (List.countP_le_length)
  cases answer <;> simp [attempt, publish]

/-- An acknowledged send completes its record. -/
theorem completed_of_ackedSends_attempt {answer : SendAnswer} {r : OutboxRecord} {id : UUID}
    (h : ackedSends (attempt answer r) id ≠ 0) :
    r.id = id ∧ (relayRecord (publish answer r).2 r).status = .completed := by
  cases answer with
  | noProducer => simp [attempt, publish, ackedSends] at h
  | raised exc => simp [attempt, publish, ackedSends, Except.isOk, Except.toBool] at h
  | acked =>
      refine ⟨?_, rfl⟩
      by_contra hne
      simp [attempt, publish, ackedSends, hne] at h

theorem settled_of_commit {s : RelaySystem ξ} (inv : RelayInv s) {x : ξ} {s' : RelaySystem ξ}
    (hstep : commit x s = some s') {id : UUID} (h : Settled s id) : Settled s' id := by
  obtain ⟨houtbox, hlocks, _, _⟩ := commit_cases hstep
  rcases h with ⟨r, hr, hid, hstatus⟩ | ⟨y, w, hw, hid, hstatus⟩
  · refine Or.inl ⟨r, ?_, hid, hstatus⟩
    rw [houtbox]
    apply inv.locked.mem_commit_of_unheld hr
    intro r' hr' heq
    have hsame := inv.locked.row_unique (inv.locked.held_mem x r' hr') hr heq
    have hpending := inv.held_pending x r' hr'
    rw [hsame, hstatus] at hpending
    cases hpending
  · by_cases hy : y = x
    · subst hy
      left
      obtain ⟨r, hr, hkey⟩ := inv.locked.staged_held y w hw
      refine ⟨w, ?_, hid, hstatus⟩
      rw [houtbox]
      refine RowLocks.mem_write_of_mem ?_ hw (inv.locked.held_mem y r hr) hkey.symm
      rw [inv.staged_ids]
      exact (inv.locked.held_nodup y).sublist ((List.take_sublist _ _).map _)
    · right
      refine ⟨y, w, ?_, hid, hstatus⟩
      rw [hlocks]
      simpa [hy] using hw

/-! ## The invariant, step by step -/

omit [DecidableEq ξ] in
theorem relayInv_ingest {event : Event} {record : OutboxRecord} {s s' : RelaySystem ξ}
    (inv : RelayInv s) (hstep : ingest event record s = some s') : RelayInv s' := by
  obtain ⟨hfresh, hstatus, hattempts, houtbox, hlocks, hsends, haborted⟩ := ingest_cases hstep
  have hsettled : ∀ id, Settled s id → Settled s' id := by
    rintro id (⟨r, hr, hrest⟩ | hstaged)
    · exact Or.inl ⟨r, by rw [houtbox]; exact List.mem_append_left _ hr, hrest⟩
    · exact Or.inr (by rwa [hlocks])
  refine ⟨?_, ?_, ?_, ?_, ?_, ?_, ?_⟩
  · rw [houtbox, hlocks]
    exact inv.locked.insert hfresh
  · rw [houtbox, hsends]
    intro r hr
    rcases List.mem_append.mp hr with hr | hr
    · exact inv.rows_ok r hr
    · rw [List.mem_singleton] at hr
      subst hr
      refine ⟨?_, ?_, ?_⟩ <;> rw [hstatus]
      · intro _
        rw [hattempts]
        decide
      · intro hcontra
        cases hcontra
      · intro hcontra
        cases hcontra
  · rw [hlocks]
    exact inv.held_pending
  · rw [hlocks, hsends]
    exact inv.staged_ok
  · rw [hlocks]
    exact inv.staged_ids
  · rw [haborted, hsends]
    exact inv.acked_once
  · rw [haborted, hsends]
    intro id hid hnot
    exact inv.unsettled id hid (fun h => hnot (hsettled id h))

theorem relayInv_select {x : ξ} {tie : UUID → ℕ} {s s' : RelaySystem ξ}
    (inv : RelayInv s) (hstep : select x tie s = some s') : RelayInv s' := by
  obtain ⟨idle, hdb, hsends, haborted, hlocks⟩ := select_cases hstep
  -- an idle relay has staged nothing, so the staged rows are the same
  have hstaged : s'.locks.staged = s.locks.staged := by
    rw [hlocks]
    unfold RowLocks.lock
    dsimp only
    rw [← staged_of_idle inv idle, Function.update_eq_self]
  refine ⟨?_, ?_, ?_, ?_, ?_, ?_, ?_⟩
  · rw [hdb, hlocks]
    refine inv.locked.lock idle ?_ ?_ ?_
    · intro r hr
      exact (mem_selectPending hr).1
    · intro r hr
      exact (mem_selectPending hr).2.2
    · exact selectPending_nodup inv.locked.rows_nodup
  · rw [hdb, hsends]
    exact inv.rows_ok
  · intro y r hr
    rw [hlocks] at hr
    by_cases hy : y = x
    · subst hy
      have hbatch : r ∈ selectPending tie s.locks.table s.db.outbox := by
        simpa using hr
      exact (mem_selectPending hbatch).2.1
    · exact inv.held_pending y r (by simpa [hy] using hr)
  · rw [hstaged, hsends]
    exact inv.staged_ok
  · intro y
    rw [hstaged]
    by_cases hy : y = x
    · subst hy
      simp [staged_of_idle inv idle]
    · rw [inv.staged_ids y, hlocks]
      simp [hy]
  · rw [haborted, hsends]
    exact inv.acked_once
  · rw [haborted, hsends]
    intro id hid hnot
    refine inv.unsettled id hid (fun h => hnot ?_)
    unfold Settled at h ⊢
    rwa [hdb, hstaged]

/-- The record the loop is at: held, and neither staged by its own
transaction nor by another. -/
theorem todo_head {s : RelaySystem ξ} (inv : RelayInv s) {x : ξ} {r : OutboxRecord}
    {rest : List OutboxRecord} (htodo : s.todo x = r :: rest) :
    r ∈ s.locks.held x ∧ ∀ y, ∀ w ∈ s.locks.staged y, w.id ≠ r.id := by
  have hheld : r ∈ s.locks.held x :=
    List.mem_of_mem_drop (htodo ▸ List.mem_cons_self)
  refine ⟨hheld, ?_⟩
  intro y w hw heq
  by_cases hy : y = x
  · subst hy
    have hmem : w.id ∈ ((s.locks.held y).take (s.locks.staged y).length).map OutboxRecord.id := by
      rw [← inv.staged_ids y]
      exact List.mem_map_of_mem hw
    have hnodup := inv.locked.held_nodup y
    rw [← List.take_append_drop (s.locks.staged y).length (s.locks.held y), List.map_append,
      List.nodup_append] at hnodup
    refine hnodup.2.2 _ hmem r.id ?_ heq
    apply List.mem_map_of_mem
    show r ∈ s.todo y
    rw [htodo]
    exact List.mem_cons_self
  · obtain ⟨r', hr', hkey⟩ := inv.locked.staged_held y w hw
    exact hy (inv.locked.holder_unique hr' hheld (hkey.trans heq))

theorem relayInv_publishNext {x : ξ} {answer : SendAnswer} {s s' : RelaySystem ξ}
    (inv : RelayInv s) (hstep : publishNext x answer s = some s') : RelayInv s' := by
  obtain ⟨r, rest, htodo, _, hdb, haborted, hlocks, hsends⟩ := publishNext_cases hstep
  obtain ⟨hheld, hunstaged⟩ := todo_head inv htodo
  have hrow := inv.locked.held_mem x r hheld
  have hpending := inv.held_pending x r hheld
  have hstaged : ∀ y, ∀ w ∈ s'.locks.staged y, w ∈ s.locks.staged y ∨
      (y = x ∧ w = relayRecord (publish answer r).2 r) := by
    intro y w hw
    rw [hlocks] at hw
    by_cases hy : y = x
    · subst hy
      simpa using hw
    · left
      simpa [hy] using hw
  have hkept : ∀ y, ∀ w ∈ s.locks.staged y, w ∈ s'.locks.staged y := by
    intro y w hw
    rw [hlocks]
    by_cases hy : y = x
    · subst hy
      simp [hw]
    · simpa [hy] using hw
  have hsettled : ∀ id, Settled s id → Settled s' id := by
    rintro id (hcommitted | ⟨y, w, hw, hrest⟩)
    · exact Or.inl (by rwa [hdb])
    · exact Or.inr ⟨y, w, hkept y w hw, hrest⟩
  -- the record at hand is pending in the table and staged by nobody
  have hnot : ¬ Settled s r.id := by
    rintro (⟨c, hc, hid, hstatus⟩ | ⟨y, w, hw, hid, _⟩)
    · have hsame := inv.locked.row_unique hc hrow hid
      rw [hsame, hpending] at hstatus
      cases hstatus
    · exact hunstaged y w hw hid
  refine ⟨?_, ?_, ?_, ?_, ?_, ?_, ?_⟩
  · rw [hdb, hlocks]
    exact inv.locked.stage hheld (relayRecord_id _ r).symm
  · rw [hdb, hsends]
    intro c hc
    exact (inv.rows_ok c hc).mono _
  · rw [hlocks]
    exact inv.held_pending
  · intro y w hw
    rw [hsends]
    rcases hstaged y w hw with hw | ⟨_, rfl⟩
    · exact (inv.staged_ok y w hw).mono _
    · exact rowOk_relayRecord (inv.rows_ok r hrow) hpending answer
  · intro y
    rw [hlocks]
    by_cases hy : y = x
    · subst hy
      have hlen : (s.locks.held y).take ((s.locks.staged y).length + 1) =
          (s.locks.held y).take (s.locks.staged y).length ++ [r] := by
        rw [List.take_add, show (s.locks.held y).drop (s.locks.staged y).length =
          r :: rest from htodo]
        rfl
      simp [hlen, inv.staged_ids y]
    · simpa [hy] using inv.staged_ids y
  · rw [haborted, hsends]
    intro id hid
    rw [ackedSends_append]
    by_cases hone : ackedSends (attempt answer r) id = 0
    · rw [hone]
      exact inv.acked_once id hid
    · obtain ⟨rfl, _⟩ := completed_of_ackedSends_attempt hone
      rw [inv.unsettled r.id hid hnot, Nat.zero_add]
      exact ackedSends_attempt_le answer r r.id
  · rw [haborted, hsends]
    intro id hid hunsettled
    rw [ackedSends_append, inv.unsettled id hid (fun h => hunsettled (hsettled id h)), Nat.zero_add]
    by_contra hone
    obtain ⟨rfl, hcompleted⟩ := completed_of_ackedSends_attempt hone
    refine hunsettled (Or.inr ⟨x, relayRecord (publish answer r).2 r, ?_, ?_, hcompleted⟩)
    · rw [hlocks]
      simp
    · exact relayRecord_id _ r

/-- The end of a transaction leaves the other relays' batches as they were. -/
theorem batches_of_release {s : RelaySystem ξ} (inv : RelayInv s) (x : ξ) :
    (∀ y, ∀ r ∈ (s.locks.release OutboxRecord.id x).held y, r.status = .pending) ∧
      (∀ y, ∀ w ∈ (s.locks.release OutboxRecord.id x).staged y, w ∈ s.locks.staged y) ∧
      ∀ y, ((s.locks.release OutboxRecord.id x).staged y).map OutboxRecord.id =
        (((s.locks.release OutboxRecord.id x).held y).take
          ((s.locks.release OutboxRecord.id x).staged y).length).map OutboxRecord.id := by
  refine ⟨?_, ?_, ?_⟩ <;> intro y <;> by_cases hy : y = x
  · subst hy
    simp
  · simpa [hy] using inv.held_pending y
  · subst hy
    simp
  · simp [hy]
  · subst hy
    simp
  · simpa [hy] using inv.staged_ids y

theorem relayInv_commit {x : ξ} {s s' : RelaySystem ξ} (inv : RelayInv s)
    (hstep : commit x s = some s') : RelayInv s' := by
  have hsettled : ∀ id, Settled s id → Settled s' id := fun _ => settled_of_commit inv hstep
  obtain ⟨houtbox, hlocks, hsends, haborted⟩ := commit_cases hstep
  obtain ⟨hheld, hstaged, hids⟩ := batches_of_release inv x
  refine ⟨?_, ?_, ?_, ?_, ?_, ?_, ?_⟩
  · rw [houtbox, hlocks]
    exact inv.locked.commit x
  · rw [houtbox, hsends]
    intro r hr
    rcases RowLocks.mem_write hr with ⟨hw, _⟩ | ⟨hold, _⟩
    · exact inv.staged_ok x r hw
    · exact inv.rows_ok r hold
  · rw [hlocks]
    exact hheld
  · rw [hlocks, hsends]
    intro y w hw
    exact inv.staged_ok y w (hstaged y w hw)
  · rw [hlocks]
    exact hids
  · rw [haborted, hsends]
    exact inv.acked_once
  · rw [haborted, hsends]
    intro id hid hnot
    exact inv.unsettled id hid (fun h => hnot (hsettled id h))

theorem relayInv_abort {x : ξ} {s s' : RelaySystem ξ} (inv : RelayInv s)
    (hstep : abort x s = some s') : RelayInv s' := by
  obtain ⟨hdb, hlocks, hsends, haborted⟩ := abort_cases hstep
  obtain ⟨hheld, hstaged, hids⟩ := batches_of_release inv x
  refine ⟨?_, ?_, ?_, ?_, ?_, ?_, ?_⟩
  · rw [hdb, hlocks]
    exact inv.locked.abort x
  · rw [hdb, hsends]
    exact inv.rows_ok
  · rw [hlocks]
    exact hheld
  · rw [hlocks, hsends]
    intro y w hw
    exact inv.staged_ok y w (hstaged y w hw)
  · rw [hlocks]
    exact hids
  · rw [haborted, hsends]
    intro id hid
    exact inv.acked_once id (fun h => hid (List.mem_append_left _ h))
  · rw [haborted, hsends]
    intro id hid hnot
    rw [List.mem_append, not_or] at hid
    refine inv.unsettled id hid.1 (fun h => hnot ?_)
    rcases h with hcommitted | ⟨y, w, hw, hwid, hstatus⟩
    · exact Or.inl (by rwa [hdb])
    · -- the transaction that staged `w` is not the one that aborted
      have hy : y ≠ x := by
        rintro rfl
        obtain ⟨r, hr, hkey⟩ := inv.locked.staged_held y w hw
        exact hid.2 (List.mem_map.mpr ⟨r, hr, hkey.trans hwid⟩)
      refine Or.inr ⟨y, w, ?_, hwid, hstatus⟩
      rw [hlocks]
      simpa [hy] using hw

theorem relayInv_next {s s' : RelaySystem ξ} {label : RelayLabel ξ} (inv : RelayInv s)
    (hstep : relayNext s label = some s') : RelayInv s' := by
  cases label with
  | ingest event record => exact relayInv_ingest inv hstep
  | select x tie => exact relayInv_select inv hstep
  | publish x answer => exact relayInv_publishNext inv hstep
  | signal x =>
      cases hstep
      exact relayInv_signal inv _
  | commit x => exact relayInv_commit inv hstep
  | abort x => exact relayInv_abort inv hstep

theorem relayInv_init {s : RelaySystem ξ} (h : (relays ξ).init s) : RelayInv s := by
  rw [h]
  refine ⟨RowLocks.wellLocked_empty (by simp [RelaySystem.ofDatabase]), ?_, ?_, ?_, ?_, ?_, ?_⟩ <;>
    simp [RelaySystem.ofDatabase, RowLocks.empty, ackedSends]

theorem relayInv_reachable {s : RelaySystem ξ} (h : (relays ξ).Reachable s) : RelayInv s :=
  h.invariant (fun _ => relayInv_init) (fun _ _ _ => relayInv_next)

/-! ## Completed and failed records -/

/-- Between `s` and `t` the record was neither changed nor sent. -/
def Untouched (r : OutboxRecord) (s t : RelaySystem ξ) : Prop :=
  r ∈ t.db.outbox ∧
    t.sends.filter (fun e => e.record = r.id) = s.sends.filter (fun e => e.record = r.id)

/-- No step changes a completed or failed record, or sends it again. -/
theorem terminal_next {s s' : RelaySystem ξ} {label : RelayLabel ξ} (inv : RelayInv s)
    {r : OutboxRecord} (hr : r ∈ s.db.outbox) (hterminal : r.status ≠ .pending)
    (hstep : relayNext s label = some s') : Untouched r s s' := by
  unfold Untouched
  -- nobody holds it, since a held record is still pending in the table
  have hunheld : ∀ x, ∀ r' ∈ s.locks.held x, r'.id ≠ r.id := by
    intro x r' hr' heq
    have hsame := inv.locked.row_unique (inv.locked.held_mem x r' hr') hr heq
    exact hterminal (hsame ▸ inv.held_pending x r' hr')
  cases label with
  | ingest event record =>
      obtain ⟨_, _, _, houtbox, _, hsends, _⟩ := ingest_cases hstep
      rw [houtbox, hsends]
      exact ⟨List.mem_append_left _ hr, rfl⟩
  | select x tie =>
      obtain ⟨_, hdb, hsends, _⟩ := select_cases hstep
      rw [hdb, hsends]
      exact ⟨hr, rfl⟩
  | publish x answer =>
      obtain ⟨r', rest, htodo, _, hdb, _, _, hsends⟩ := publishNext_cases hstep
      rw [hdb, hsends, List.filter_append]
      refine ⟨hr, ?_⟩
      have hne : r'.id ≠ r.id := hunheld x r' (todo_head inv htodo).1
      cases answer <;> simp [attempt, publish, hne]
  | signal x =>
      cases hstep
      exact ⟨hr, rfl⟩
  | commit x =>
      obtain ⟨houtbox, _, hsends, _⟩ := commit_cases hstep
      rw [houtbox, hsends]
      exact ⟨inv.locked.mem_commit_of_unheld hr (hunheld x), rfl⟩
  | abort x =>
      obtain ⟨hdb, _, hsends, _⟩ := abort_cases hstep
      rw [hdb, hsends]
      exact ⟨hr, rfl⟩

theorem terminal_run {s t : RelaySystem ξ} {moves : List (Move (RelaySystem ξ) (RelayLabel ξ))}
    (inv : RelayInv s) (run : (relays ξ).Run s moves t) {r : OutboxRecord}
    (hr : r ∈ s.db.outbox) (hterminal : r.status ≠ .pending) : Untouched r s t := by
  have step : ∀ u label u', RelayInv u → Untouched r s u →
      (relays ξ).next u label = some u' → Untouched r s u' := by
    intro u label u' hinv hkept hstep
    obtain ⟨hmem, hsends⟩ := terminal_next hinv hkept.1 hterminal hstep
    exact ⟨hmem, hsends.trans hkept.2⟩
  exact run.preserves (fun _ _ _ => relayInv_next) step inv ⟨hr, rfl⟩

/-! ## The guarantees -/

/-- What the outbox promises of one committed state. -/
structure RelayGuarantees (s : RelaySystem ξ) : Prop where
  completed_sent : ∀ r ∈ s.db.outbox, r.status = .completed → ∃ e ∈ s.sends,
    e.acked = true ∧ e.record = r.id ∧ e.message.topic = r.publishTopic ∧
      e.message.value = [("event_id", .str r.eventId.str), ("endpoint_id", .str r.publishKey)]
  pending_attempts : ∀ r ∈ s.db.outbox, r.status = .pending → r.attempts < 10
  failed_attempts : ∀ r ∈ s.db.outbox, r.status = .failed → r.attempts = 10
  terminal_kept : ∀ moves t, (relays ξ).Run s moves t → ∀ r ∈ s.db.outbox, r.status ≠ .pending →
    Untouched r s t
  held_once : ∀ x y, x ≠ y → ∀ r ∈ s.locks.held x, ∀ r' ∈ s.locks.held y, r.id ≠ r'.id
  acked_once : ∀ id, id ∉ s.aborted → ackedSends s.sends id ≤ 1

theorem relay_guarantees {s : RelaySystem ξ} (h : (relays ξ).Reachable s) : RelayGuarantees s := by
  have inv := relayInv_reachable h
  refine ⟨?_, ?_, ?_, ?_, ?_, inv.acked_once⟩
  · intro r hr hstatus
    obtain ⟨e, he, hacked, hrecord, hmessage⟩ := (inv.rows_ok r hr).completed hstatus
    exact ⟨e, he, hacked, hrecord, by rw [hmessage]; rfl, by rw [hmessage]; rfl⟩
  · intro r hr
    exact (inv.rows_ok r hr).pending
  · intro r hr
    exact (inv.rows_ok r hr).failed
  · intro moves t run r hr hterminal
    exact terminal_run inv run hr hterminal
  · intro x y hne r hr r' hr'
    exact inv.locked.held_disjoint x y hne r hr r' hr'

/-- One relay sends a record and crashes; the other takes it over. -/
def takeover : List (RelayLabel Bool) :=
  let event : Event := { id := 2, endpointId := 3, requestBody := .null }
  let record : OutboxRecord :=
    { id := 1, eventId := 2, publishKey := "endpoint"
      publishTopic := "raw-events" }
  [.ingest event record, .select true (fun _ => 0), .publish true .acked, .abort true,
    .select false (fun _ => 0), .publish false .acked, .commit false]

def takenOver : RelaySystem Bool := (relays Bool).after (.ofDatabase {}) takeover

theorem relay_guarantees_after_takeover :
    takenOver.db.outbox.map OutboxRecord.status = [.completed] ∧ takenOver.sends.length = 2 ∧
      RelayGuarantees takenOver := by
  have hinit : (relays Bool).init (.ofDatabase {}) := rfl
  have hreach : (relays Bool).Reachable takenOver := Machine.reachable_after hinit rfl
  exact ⟨rfl, rfl, relay_guarantees hreach⟩

end WebhookRelay.Outbox
