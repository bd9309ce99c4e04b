import WebhookRelay.Retry.Scheduler

/-!
# The retry protocol

What holds of every send, every commit and every log of any number of
schedulers. A row that is sent is locked, so its committed version is the one
the poll selected; an acknowledged send is accounted for by the row staged in
its own transaction, and after the commit by a row no poll selects. What the
log may say about a second send is the history half of the invariant.
-/

namespace WebhookRelay.Retry

open Foundation

/-! ## Reading the log -/

def sentIn (tx : ℕ) : RetryEntry → Option Sent
  | .sent send => if send.tx = tx then some send else none
  | _ => none

/-- The sends of one transaction, in order. -/
def sendsOf (log : List RetryEntry) (tx : ℕ) : List Sent := log.filterMap (sentIn tx)

/-- An acknowledged send that neither an abort nor a later failure of the
event excuses. -/
def OpenAck (log : List RetryEntry) (tx : ℕ) (event : UUID) : Prop :=
  ∃ pre send post, log = pre ++ .sent send :: post ∧ send.tx = tx ∧ send.event = event ∧
    send.result = .ok () ∧ .aborted tx ∉ post ∧ .refailed event ∉ post

/-- A second transaction sends an acknowledged event only after the first was
aborted or the event has failed again. -/
def ResentOk (log : List RetryEntry) : Prop :=
  ∀ pre first mid second post, log = pre ++ .sent first :: mid ++ .sent second :: post →
    first.result = .ok () → second.event = first.event →
      second.tx = first.tx ∨ .aborted first.tx ∈ mid ∨ .refailed first.event ∈ mid

section

variable {log : List RetryEntry} {entry : RetryEntry} {tx : ℕ} {event : UUID}

theorem sendsOf_append (log more : List RetryEntry) (tx : ℕ) :
    sendsOf (log ++ more) tx = sendsOf log tx ++ sendsOf more tx :=
  List.filterMap_append

theorem mem_sendsOf {send : Sent} (h : send ∈ sendsOf log tx) :
    .sent send ∈ log ∧ send.tx = tx := by
  obtain ⟨entry, hentry, hsent⟩ := List.mem_filterMap.mp h
  unfold sentIn at hsent
  split at hsent
  · split at hsent
    · rename_i htx
      cases hsent
      exact ⟨hentry, htx⟩
    · cases hsent
  · cases hsent

/-- Entries of other kinds add no sends. -/
theorem sendsOf_snoc (hentry : ∀ send, entry ≠ .sent send) (tx : ℕ) :
    sendsOf (log ++ [entry]) tx = sendsOf log tx := by
  have hnone : sendsOf [entry] tx = [] := by
    unfold sendsOf sentIn
    rw [List.filterMap_cons, List.filterMap_nil]
    split <;> simp_all
  rw [sendsOf_append, hnone, List.append_nil]

theorem sent_mem_of_snoc (hentry : ∀ send, entry ≠ .sent send) {send : Sent}
    (h : .sent send ∈ log ++ [entry]) : .sent send ∈ log := by
  rcases List.mem_append.mp h with hold | hnew
  · exact hold
  · exact absurd (List.mem_singleton.mp hnew).symm (hentry send)

/-- Where an entry of a list with one more at its end stands. -/
theorem snoc_eq_append_cons {α : Type} {l pre post : List α} {last a : α}
    (h : l ++ [last] = pre ++ a :: post) :
    (pre = l ∧ a = last ∧ post = []) ∨
      ∃ earlier, post = earlier ++ [last] ∧ l = pre ++ a :: earlier := by
  rcases List.eq_nil_or_concat' post with rfl | ⟨earlier, b, rfl⟩
  · obtain ⟨hinit, hlast⟩ := List.append_inj' h rfl
    exact Or.inl ⟨hinit.symm, (List.singleton_inj.mp hlast).symm, rfl⟩
  · have hsplit : l ++ [last] = (pre ++ a :: earlier) ++ [b] := by simpa using h
    obtain ⟨hinit, hlast⟩ := List.append_inj' hsplit rfl
    exact Or.inr ⟨earlier, by rw [List.singleton_inj.mp hlast], hinit⟩

/-- An open acknowledgement of a longer log was open before, or is the last
entry. -/
theorem openAck_snoc (h : OpenAck (log ++ [entry]) tx event) :
    (OpenAck log tx event ∧ entry ≠ .aborted tx ∧ entry ≠ .refailed event) ∨
      ∃ send, entry = .sent send ∧ send.tx = tx ∧ send.event = event ∧ send.result = .ok () := by
  obtain ⟨pre, send, post, hlog, htx, hevent, hok, haborted, hrefailed⟩ := h
  rcases snoc_eq_append_cons hlog with ⟨_, hlast, _⟩ | ⟨earlier, rfl, hinit⟩
  · exact Or.inr ⟨send, hlast.symm, htx, hevent, hok⟩
  · refine Or.inl ⟨⟨pre, send, earlier, hinit, htx, hevent, hok, ?_, ?_⟩, ?_, ?_⟩
    · exact fun hmem => haborted (List.mem_append_left _ hmem)
    · exact fun hmem => hrefailed (List.mem_append_left _ hmem)
    · rintro rfl
      exact haborted (by simp)
    · rintro rfl
      exact hrefailed (by simp)

/-- A new entry keeps the law if a send answers no open acknowledgement of
another transaction. -/
theorem resentOk_snoc (h : ResentOk log)
    (hnew : ∀ send, entry = .sent send → ∀ tx, OpenAck log tx send.event → send.tx = tx) :
    ResentOk (log ++ [entry]) := by
  intro pre first mid second post hlog hok hevent
  rcases snoc_eq_append_cons hlog with ⟨hinit, hlast, _⟩ | ⟨earlier, _, hinit⟩
  · by_cases haborted : .aborted first.tx ∈ mid
    · exact Or.inr (Or.inl haborted)
    · by_cases hrefailed : .refailed first.event ∈ mid
      · exact Or.inr (Or.inr hrefailed)
      · have hopen : OpenAck log first.tx first.event :=
          ⟨pre, first, mid, hinit.symm, rfl, rfl, hok, haborted, hrefailed⟩
        exact Or.inl (hnew second hlast.symm first.tx (hevent ▸ hopen))
  · exact h pre first mid second earlier hinit hok hevent

theorem resentOk_nil : ResentOk [] := by
  intro pre first mid second post hlog
  simp at hlog

end

/-! ## What each step does -/

section

variable {ξ : Type} {settings : Settings} {x : ξ} {now : Time} {s s' : RetrySystem ξ}

theorem readEvent_cases {i : ℕ} {call : DlqCall} {id : UUID} (h : readEvent i call id s = some s') :
    ∃ calls, s' = { s with calls := calls } := by
  unfold readEvent at h
  split at h
  · exact ⟨_, (Option.some.inj h).symm⟩
  · cases h

theorem writeEvent_cases {i : ℕ} (h : writeEvent i now s = some s') :
    ∃ call read row calls, row ∈ s.db.events ∧ row.id ∉ s.locks.table ∧
      s' = { s with
        db :=
          { s.db with events := Rows.put Event.id (DlqCall.update call now read row) s.db.events }
        calls := calls } := by
  unfold writeEvent at h
  split at h
  · rename_i call read _
    split at h
    · cases h
    · rename_i hfree
      obtain ⟨row, hrow, hs⟩ := Option.map_eq_some_iff.mp h
      have hid : row.id = read.id := by simpa using List.find?_some hrow
      exact ⟨call, read, row, _, List.mem_of_find?_eq_some hrow, hid ▸ hfree, hs.symm⟩
  · cases h

theorem insertEvent_cases {event : Event} (h : insertEvent event s = some s') :
    event.id ∉ s.db.events.map Event.id ∧
      s' = { s with db := { s.db with events := s.db.events ++ [event] } } := by
  unfold insertEvent at h
  split at h
  · rename_i hfresh
    exact ⟨hfresh, (Option.some.inj h).symm⟩
  · cases h

theorem changeEvent_cases {event : Event} (h : changeEvent event s = some s') :
    event.id ∈ s.db.events.map Event.id ∧ event.id ∉ s.locks.table ∧
      s' = { s with
        db := { s.db with events := Rows.put Event.id event s.db.events }
        log := if event.status = .failed then s.log ++ [.refailed event.id] else s.log } := by
  unfold changeEvent at h
  split at h
  · rename_i hguard
    exact ⟨hguard.1, hguard.2, (Option.some.inj h).symm⟩
  · cases h

variable [DecidableEq ξ]

theorem select_cases {tie : UUID → ℕ} (h : select x now tie s = some s') :
    s.locks.held x = [] ∧ selectDue tie now s.locks.table s.db.events ≠ [] ∧
      s' = { s with
        locks := s.locks.lock Event.id x (selectDue tie now s.locks.table s.db.events)
        tx := Function.update s.tx x s.nextTx
        selectedAt := Function.update s.selectedAt x now
        nextTx := s.nextTx + 1 } := by
  unfold select at h
  split at h
  · rename_i hidle
    split at h
    · cases h
    · rename_i e rest hbatch
      rw [hbatch]
      exact ⟨hidle, by simp, (Option.some.inj h).symm⟩
  · cases h

theorem publishNext_cases {result : Except Exc Unit}
    (h : publishNext settings x now result s = some s') :
    ∃ e rest, s.todo x = e :: rest ∧
      s' = { s with
        locks := s.locks.stage x (requeueEvent now result e)
        log := s.log ++ [.sent ⟨s.tx x, e.id, requeueMessage settings e, result, now⟩] } := by
  unfold publishNext at h
  split at h
  · cases h
  · rename_i e rest htodo
    exact ⟨e, rest, htodo, (Option.some.inj h).symm⟩

theorem commit_cases (h : commit x s = some s') :
    s.locks.held x ≠ [] ∧ s.todo x = [] ∧
      s' = { s with
        db := { s.db with events := RowLocks.write Event.id (s.locks.staged x) s.db.events }
        locks := s.locks.release Event.id x
        log := s.log ++ [.committed (s.tx x)] } := by
  unfold commit at h
  split at h
  · rename_i hguard
    exact ⟨hguard.1, hguard.2, (Option.some.inj h).symm⟩
  · cases h

theorem abort_cases (h : abort x s = some s') :
    s.locks.held x ≠ [] ∧
      s' = { s with
        locks := s.locks.release Event.id x
        log := s.log ++ [.aborted (s.tx x)] } := by
  unfold abort at h
  split at h
  · rename_i hheld
    exact ⟨hheld, (Option.some.inj h).symm⟩
  · cases h

end

/-! ## One batch -/

/-- What a transaction will write on an event it has sent. -/
def turned (e : Event) (send : Sent) : Event := requeueEvent send.at' send.result e

/-- A transaction's locked rows, those among them it has sent, the versions it
has staged and its sends. -/
structure BatchOk (held staged : List Event) (selectedAt : Time) (sends : List Sent) : Prop where
  due : ∀ e ∈ held, due selectedAt e = true
  split : ∃ handled todo, held = handled ++ todo ∧ staged = List.zipWith turned handled sends ∧
    sends.map Sent.event = handled.map Event.id

section

variable {held staged : List Event} {selectedAt : Time} {sends : List Sent}

theorem map_id_zipWith_turned {handled : List Event}
    (h : sends.map Sent.event = handled.map Event.id) :
    (List.zipWith turned handled sends).map Event.id = handled.map Event.id := by
  induction handled generalizing sends with
  | nil => rfl
  | cons e rest ih =>
      match sends with
      | [] => cases h
      | send :: more =>
          rw [List.map_cons, List.map_cons] at h
          rw [List.zipWith_cons_cons, List.map_cons, List.map_cons, ih (List.cons.inj h).2]
          exact congrArg (· :: _) (requeueEvent_id _ _ _)

theorem turned_mem_zipWith {handled : List Event} (h : sends.map Sent.event = handled.map Event.id)
    {send : Sent} (hsend : send ∈ sends) :
    ∃ e ∈ handled, e.id = send.event ∧ turned e send ∈ List.zipWith turned handled sends := by
  induction handled generalizing sends with
  | nil =>
      rw [List.map_nil, List.map_eq_nil_iff] at h
      rw [h] at hsend
      cases hsend
  | cons e rest ih =>
      match sends with
      | [] => cases h
      | first :: more =>
          rw [List.map_cons, List.map_cons] at h
          obtain ⟨hfirst, hmore⟩ := List.cons.inj h
          rcases List.mem_cons.mp hsend with rfl | hlater
          · exact ⟨e, List.mem_cons_self, hfirst.symm, List.mem_cons_self⟩
          · obtain ⟨e', he', hid, hturned⟩ := ih hmore hlater
            exact ⟨e', List.mem_cons_of_mem _ he', hid, List.mem_cons_of_mem _ hturned⟩

theorem BatchOk.start (h : ∀ e ∈ held, Retry.due selectedAt e = true) :
    BatchOk held [] selectedAt [] :=
  ⟨h, [], held, rfl, rfl, rfl⟩

/-- The staged rows are the first of the locked ones. -/
theorem BatchOk.handled_eq (h : BatchOk held staged selectedAt sends) :
    staged = List.zipWith turned (held.take staged.length) sends ∧
      sends.map Sent.event = (held.take staged.length).map Event.id := by
  obtain ⟨_, handled, todo, rfl, rfl, hevents⟩ := h
  have hlength : (List.zipWith turned handled sends).length = handled.length := by
    have := congrArg List.length hevents
    rw [List.length_map, List.length_map] at this
    rw [List.length_zipWith]
    omega
  rw [hlength, List.take_left]
  exact ⟨rfl, hevents⟩

/-- The first row that has not been sent is sent and its new version staged. -/
theorem BatchOk.turn (h : BatchOk held staged selectedAt sends) {e : Event} {rest : List Event}
    {send : Sent} (htodo : held.drop staged.length = e :: rest) (hevent : send.event = e.id) :
    BatchOk held (staged ++ [turned e send]) selectedAt (sends ++ [send]) := by
  obtain ⟨hstaged, hevents⟩ := h.handled_eq
  have hlength : (held.take staged.length).length = sends.length := by
    rw [← List.length_map Event.id, ← hevents, List.length_map]
  refine ⟨h.due, held.take staged.length ++ [e], rest, ?_, ?_, ?_⟩
  · rw [List.append_assoc, List.singleton_append, ← htodo, List.take_append_drop]
  · rw [List.zipWith_append hlength, ← hstaged]
    rfl
  · rw [List.map_append, List.map_append, hevents]
    simp [hevent]

theorem BatchOk.staged_ids (h : BatchOk held staged selectedAt sends) :
    staged.map Event.id = (held.take staged.length).map Event.id := by
  obtain ⟨hstaged, hevents⟩ := h.handled_eq
  rw [← map_id_zipWith_turned hevents, ← hstaged]

/-- Each send has its row among the locked ones and the new version staged. -/
theorem BatchOk.turned_mem (h : BatchOk held staged selectedAt sends) {send : Sent}
    (hsend : send ∈ sends) :
    ∃ e ∈ held, e.id = send.event ∧ turned e send ∈ staged := by
  obtain ⟨hstaged, hevents⟩ := h.handled_eq
  obtain ⟨e, he, hid, hturned⟩ := turned_mem_zipWith hevents hsend
  exact ⟨e, List.mem_of_mem_take he, hid, hstaged.symm ▸ hturned⟩

end

/-! ## The invariant -/

section

variable {ξ : Type}

/-- An open acknowledgement is on its way into the table, or there already. -/
def Answered (s : RetrySystem ξ) (tx : ℕ) (event : UUID) : Prop :=
  (∃ x, s.tx x = tx ∧ ∃ w ∈ s.locks.staged x, w.id = event ∧ w.status = .queued) ∨
    ∀ e ∈ s.db.events, e.id = event → e.status ≠ .failed

structure RetryInv (s : RetrySystem ξ) : Prop where
  locked : RowLocks.WellLocked Event.id s.db.events s.locks
  idle : ∀ x, s.locks.held x = [] → s.locks.staged x = []
  batch : ∀ x, s.locks.held x ≠ [] →
    BatchOk (s.locks.held x) (s.locks.staged x) (s.selectedAt x) (sendsOf s.log (s.tx x))
  tx_lt : ∀ x, s.locks.held x ≠ [] → s.tx x < s.nextTx
  tx_inj : ∀ x y, s.locks.held x ≠ [] → s.locks.held y ≠ [] → s.tx x = s.tx y → x = y
  sent_lt : ∀ send, .sent send ∈ s.log → send.tx < s.nextTx
  sent_known : ∀ send, .sent send ∈ s.log → send.event ∈ s.db.events.map Event.id
  answered : ∀ tx event, OpenAck s.log tx event → Answered s tx event
  resent : ResentOk s.log

variable {s : RetrySystem ξ} {x : ξ}

/-- Only a transaction under way has staged anything. -/
theorem held_ne_nil_of_staged (h : RetryInv s) {w : Event} (hw : w ∈ s.locks.staged x) :
    s.locks.held x ≠ [] := by
  intro hidle
  rw [h.idle x hidle] at hw
  cases hw

theorem openAck_known (h : RetryInv s) {tx : ℕ} {event : UUID} (hopen : OpenAck s.log tx event) :
    event ∈ s.db.events.map Event.id := by
  obtain ⟨pre, send, post, hlog, _, rfl, _⟩ := hopen
  exact h.sent_known send (by rw [hlog]; simp)

/-- A row a transaction holds is due as it is in the table. -/
theorem due_of_held (h : RetryInv s) {e : Event} (he : e ∈ s.locks.held x) :
    e ∈ s.db.events ∧ due (s.selectedAt x) e = true :=
  ⟨h.locked.held_mem x e he, (h.batch x (List.ne_nil_of_mem he)).due e he⟩

theorem mem_held_of_todo {e : Event} {rest : List Event} (htodo : s.todo x = e :: rest) :
    e ∈ s.locks.held x :=
  List.mem_of_mem_drop (htodo ▸ List.mem_cons_self)

/-- One staged version to an event. -/
theorem staged_nodup (h : RetryInv s) (x : ξ) : ((s.locks.staged x).map Event.id).Nodup := by
  by_cases hheld : s.locks.held x = []
  · rw [h.idle x hheld]
    exact List.nodup_nil
  · rw [(h.batch x hheld).staged_ids]
    exact (h.locked.held_nodup x).sublist ((List.take_sublist _ _).map _)

/-- Rows that nobody holds may change, as long as no acknowledged event comes
back as a failed one unless the log says so. -/
theorem retryInv_rows (h : RetryInv s) {events : List Event} {log : List RetryEntry}
    {calls : ℕ → Option (DlqCall × Event)} (hlocked : RowLocks.WellLocked Event.id events s.locks)
    (hsends : ∀ tx, sendsOf log tx = sendsOf s.log tx)
    (hsent : ∀ send, .sent send ∈ log → .sent send ∈ s.log)
    (hkeys : ∀ id ∈ s.db.events.map Event.id, id ∈ events.map Event.id)
    (hrows : ∀ tx event, OpenAck log tx event → OpenAck s.log tx event ∧
      ∀ e ∈ events, e.id = event → e.status = .failed →
        ∃ old ∈ s.db.events, old.id = event ∧ old.status = .failed)
    (hresent : ResentOk log) :
    RetryInv { s with db := { s.db with events := events }, log := log, calls := calls } where
  locked := hlocked
  idle := h.idle
  batch := by
    intro x hheld
    show BatchOk _ _ _ (sendsOf log (s.tx x))
    rw [hsends]
    exact h.batch x hheld
  tx_lt := h.tx_lt
  tx_inj := h.tx_inj
  sent_lt := fun send hsend => h.sent_lt send (hsent send hsend)
  sent_known := fun send hsend => hkeys _ (h.sent_known send (hsent send hsend))
  answered := by
    intro tx event hopen
    obtain ⟨hbefore, hfailed⟩ := hrows tx event hopen
    rcases h.answered tx event hbefore with hstaged | hsafe
    · exact Or.inl hstaged
    · right
      intro e he hid hstatus
      obtain ⟨old, hold, hold_id, hold_status⟩ := hfailed e he hid hstatus
      exact hsafe old hold hold_id hold_status
  resent := hresent

end

/-! ## The invariant, step by step -/

section

variable {ξ : Type} [DecidableEq ξ] {settings : Settings} {x : ξ} {now : Time}
    {s s' : RetrySystem ξ}

omit [DecidableEq ξ] in
theorem retryInv_ofDatabase {db : Database} (nodup : (db.events.map Event.id).Nodup) :
    RetryInv (RetrySystem.ofDatabase db : RetrySystem ξ) := by
  refine ⟨RowLocks.wellLocked_empty nodup, fun _ _ => rfl, ?_, ?_, ?_, ?_, ?_, ?_, resentOk_nil⟩
  all_goals simp [RetrySystem.ofDatabase, RowLocks.empty, OpenAck]

theorem retryInv_select {tie : UUID → ℕ} (h : RetryInv s) (hstep : select x now tie s = some s') :
    RetryInv s' := by
  obtain ⟨hidle, hbatch, rfl⟩ := select_cases hstep
  -- no send has been made under the new number
  have hfresh : sendsOf s.log s.nextTx = [] := by
    rw [List.eq_nil_iff_forall_not_mem]
    intro send hsend
    obtain ⟨hmem, htx⟩ := mem_sendsOf hsend
    exact absurd htx (Nat.ne_of_lt (h.sent_lt send hmem))
  refine ⟨?_, ?_, ?_, ?_, ?_, ?_, h.sent_known, ?_, h.resent⟩
  · refine h.locked.lock hidle ?_ ?_ (selectDue_nodup h.locked.rows_nodup)
    · exact fun e he => (mem_selectDue he).1
    · exact fun e he => (mem_selectDue he).2.2
  · intro y hheld
    by_cases hy : y = x
    · subst hy
      exact RowLocks.staged_lock_self
    · rw [RowLocks.held_lock_of_ne hy] at hheld
      rw [RowLocks.staged_lock_of_ne hy]
      exact h.idle y hheld
  · intro y hheld
    by_cases hy : y = x
    · subst hy
      simp only [RowLocks.held_lock_self, RowLocks.staged_lock_self, Function.update_self]
      rw [hfresh]
      exact BatchOk.start (fun e he => (mem_selectDue he).2.1)
    · rw [RowLocks.held_lock_of_ne hy] at hheld
      simp only [RowLocks.held_lock_of_ne hy, RowLocks.staged_lock_of_ne hy,
        Function.update_of_ne hy]
      exact h.batch y hheld
  · intro y hheld
    by_cases hy : y = x
    · subst hy
      simp only [Function.update_self]
      exact Nat.lt_succ_self _
    · rw [RowLocks.held_lock_of_ne hy] at hheld
      simp only [Function.update_of_ne hy]
      exact Nat.lt_succ_of_lt (h.tx_lt y hheld)
  · intro y z hheld_y hheld_z htx
    by_cases hy : y = x
    · by_cases hz : z = x
      · rw [hy, hz]
      · subst hy
        rw [RowLocks.held_lock_of_ne hz] at hheld_z
        simp only [Function.update_self, Function.update_of_ne hz] at htx
        exact absurd htx.symm (Nat.ne_of_lt (h.tx_lt z hheld_z))
    · rw [RowLocks.held_lock_of_ne hy] at hheld_y
      by_cases hz : z = x
      · subst hz
        simp only [Function.update_self, Function.update_of_ne hy] at htx
        exact absurd htx (Nat.ne_of_lt (h.tx_lt y hheld_y))
      · rw [RowLocks.held_lock_of_ne hz] at hheld_z
        simp only [Function.update_of_ne hy, Function.update_of_ne hz] at htx
        exact h.tx_inj y z hheld_y hheld_z htx
  · exact fun send hsend => Nat.lt_succ_of_lt (h.sent_lt send hsend)
  · intro tx event hopen
    rcases h.answered tx event hopen with ⟨y, htx, w, hw, hrest⟩ | hsafe
    · have hy : y ≠ x := by
        rintro rfl
        exact held_ne_nil_of_staged h hw hidle
      refine Or.inl ⟨y, (Function.update_of_ne hy _ _).trans htx, w, ?_, hrest⟩
      rw [RowLocks.staged_lock_of_ne hy]
      exact hw
    · exact Or.inr hsafe

theorem retryInv_publish {result : Except Exc Unit} (h : RetryInv s)
    (hstep : publishNext settings x now result s = some s') : RetryInv s' := by
  obtain ⟨e, rest, htodo, rfl⟩ := publishNext_cases hstep
  have he := mem_held_of_todo htodo
  have hheld : s.locks.held x ≠ [] := List.ne_nil_of_mem he
  obtain ⟨hrow, hdue⟩ := due_of_held h he
  have hfailed : e.status = .failed := (due_iff.mp hdue).1
  have hsends : ∀ tx,
      sendsOf (s.log ++ [.sent ⟨s.tx x, e.id, requeueMessage settings e, result, now⟩]) tx =
      sendsOf s.log tx ++
        if s.tx x = tx then [⟨s.tx x, e.id, requeueMessage settings e, result, now⟩] else [] := by
    intro tx
    rw [sendsOf_append]
    congr 1
    unfold sendsOf sentIn
    rw [List.filterMap_cons, List.filterMap_nil]
    split <;> simp_all
  refine ⟨?_, ?_, ?_, h.tx_lt, h.tx_inj, ?_, ?_, ?_, ?_⟩
  · exact h.locked.stage he (requeueEvent_id now result e).symm
  · intro y hidle
    have hy : y ≠ x := by
      rintro rfl
      exact hheld hidle
    rw [RowLocks.staged_stage_of_ne hy]
    exact h.idle y hidle
  · intro y hheld_y
    by_cases hy : y = x
    · subst hy
      rw [RowLocks.staged_stage_self, hsends, if_pos rfl]
      have hevent : (⟨s.tx y, e.id, requeueMessage settings e, result, now⟩ : Sent).event = e.id :=
        rfl
      exact (h.batch y hheld).turn htodo hevent
    · have htx : s.tx x ≠ s.tx y := fun htx => hy (h.tx_inj y x hheld_y hheld htx.symm)
      rw [RowLocks.staged_stage_of_ne hy, hsends, if_neg htx, List.append_nil]
      exact h.batch y hheld_y
  · intro send hsend
    rcases List.mem_append.mp hsend with hold | hnew
    · exact h.sent_lt send hold
    · cases List.mem_singleton.mp hnew
      exact h.tx_lt x hheld
  · intro send hsend
    rcases List.mem_append.mp hsend with hold | hnew
    · exact h.sent_known send hold
    · cases List.mem_singleton.mp hnew
      exact List.mem_map_of_mem hrow
  · intro tx event hopen
    rcases openAck_snoc hopen with ⟨hbefore, _, _⟩ | ⟨send, hsend, htx, hevent, hok⟩
    · rcases h.answered tx event hbefore with ⟨y, htx, w, hw, hrest⟩ | hsafe
      · refine Or.inl ⟨y, htx, w, ?_, hrest⟩
        by_cases hy : y = x
        · subst hy
          rw [RowLocks.staged_stage_self]
          exact List.mem_append_left _ hw
        · rwa [RowLocks.staged_stage_of_ne hy]
      · exact Or.inr hsafe
    · -- the new version is staged as `queued`
      cases hsend
      cases hok
      refine Or.inl ⟨x, htx, requeueEvent now (.ok ()) e, ?_, hevent, rfl⟩
      rw [RowLocks.staged_stage_self]
      exact List.mem_append_right _ (List.mem_singleton_self _)
  · apply resentOk_snoc h.resent
    rintro send hsend tx hopen
    cases hsend
    rcases h.answered tx e.id hopen with ⟨y, htx, w, hw, hid, _⟩ | hsafe
    · obtain ⟨r, hr, hkey⟩ := h.locked.staged_held y w hw
      have hy : y = x := h.locked.holder_unique hr he (hkey.trans hid)
      exact hy ▸ htx
    · exact absurd hfailed (hsafe e hrow rfl)

/-- What releasing a transaction's locks leaves of the invariant; the rest
depends on what becomes of its writes. -/
theorem retryInv_release (h : RetryInv s) {events : List Event} {entry : RetryEntry}
    (hlocked : RowLocks.WellLocked Event.id events (s.locks.release Event.id x))
    (hkeys : ∀ id ∈ s.db.events.map Event.id, id ∈ events.map Event.id)
    (hentry : ∀ send, entry ≠ .sent send)
    (hanswered : ∀ tx event, OpenAck (s.log ++ [entry]) tx event → Answered s tx event →
      (∃ y, y ≠ x ∧ s.tx y = tx ∧ ∃ w ∈ s.locks.staged y, w.id = event ∧ w.status = .queued) ∨
        ∀ e ∈ events, e.id = event → e.status ≠ .failed) :
    RetryInv { s with
      db := { s.db with events := events }
      locks := s.locks.release Event.id x
      log := s.log ++ [entry] } := by
  refine ⟨hlocked, ?_, ?_, ?_, ?_, ?_, ?_, ?_, ?_⟩
  · intro y hidle
    by_cases hy : y = x
    · subst hy
      exact RowLocks.staged_release_self
    · rw [RowLocks.held_release_of_ne hy] at hidle
      rw [RowLocks.staged_release_of_ne hy]
      exact h.idle y hidle
  · intro y hheld
    obtain ⟨hy, hheld⟩ := RowLocks.ne_of_held_release hheld
    rw [RowLocks.held_release_of_ne hy, RowLocks.staged_release_of_ne hy, sendsOf_snoc hentry]
    exact h.batch y hheld
  · exact fun y hheld => h.tx_lt y (RowLocks.ne_of_held_release hheld).2
  · intro y z hheld_y hheld_z
    exact h.tx_inj y z (RowLocks.ne_of_held_release hheld_y).2
      (RowLocks.ne_of_held_release hheld_z).2
  · exact fun send hsend => h.sent_lt send (sent_mem_of_snoc hentry hsend)
  · exact fun send hsend => hkeys _ (h.sent_known send (sent_mem_of_snoc hentry hsend))
  · intro tx event hopen
    have hbefore : OpenAck s.log tx event := by
      rcases openAck_snoc hopen with ⟨hbefore, _, _⟩ | ⟨send, hsend, _⟩
      · exact hbefore
      · exact absurd hsend (hentry send)
    rcases hanswered tx event hopen (h.answered tx event hbefore) with ⟨y, hy, htx, w, hw, hrest⟩
      | hsafe
    · refine Or.inl ⟨y, htx, w, ?_, hrest⟩
      rwa [RowLocks.staged_release_of_ne hy]
    · exact Or.inr hsafe
  · exact resentOk_snoc h.resent (fun send hsend => absurd hsend (hentry send))

theorem retryInv_commit (h : RetryInv s) (hstep : commit x s = some s') : RetryInv s' := by
  obtain ⟨_, _, rfl⟩ := commit_cases hstep
  apply retryInv_release h (h.locked.commit x)
  · intro id hid
    rwa [RowLocks.map_key_write]
  · simp
  · rintro tx event _ (⟨y, htx, w, hw, hid, hqueued⟩ | hsafe)
    · by_cases hy : y = x
      · right
        subst hy
        intro e he heid hfailed
        rcases RowLocks.mem_write he with ⟨hstaged, _⟩ | ⟨_, hunwritten⟩
        · have hsame : e = w := Rows.eq_of_key_eq (staged_nodup h y) hstaged hw
            (heid.trans hid.symm)
          rw [hsame, hqueued] at hfailed
          cases hfailed
        · exact hunwritten w hw (hid.trans heid.symm)
      · exact Or.inl ⟨y, hy, htx, w, hw, hid, hqueued⟩
    · right
      intro e he heid
      rcases RowLocks.mem_write he with ⟨hstaged, _⟩ | ⟨hold, _⟩
      · -- the row it replaces was due, so the event was not safe
        obtain ⟨r, hr, hkey⟩ := h.locked.staged_held x e hstaged
        obtain ⟨hrow, hdue⟩ := due_of_held h hr
        exact absurd (due_iff.mp hdue).1 (hsafe r hrow (hkey.trans heid))
      · exact hsafe e hold heid

theorem retryInv_abort (h : RetryInv s) (hstep : abort x s = some s') : RetryInv s' := by
  obtain ⟨_, rfl⟩ := abort_cases hstep
  apply retryInv_release h (h.locked.abort x) (fun _ hid => hid)
  · simp
  · rintro tx event hopen (⟨y, htx, hw⟩ | hsafe)
    · have hy : y ≠ x := by
        rintro rfl
        rcases openAck_snoc hopen with ⟨_, hexcused, _⟩ | ⟨send, hsend, _⟩
        · exact hexcused (by rw [htx])
        · cases hsend
      exact Or.inl ⟨y, hy, htx, hw⟩
    · exact Or.inr hsafe

omit [DecidableEq ξ] in
theorem retryInv_writeEvent {i : ℕ} (h : RetryInv s) (hstep : writeEvent i now s = some s') :
    RetryInv s' := by
  obtain ⟨call, read, row, calls, hrow, hfree, rfl⟩ := writeEvent_cases hstep
  have hid : (call.update now read row).id = row.id := DlqCall.update_id call now read row
  refine retryInv_rows h
    (h.locked.put (by rwa [hid])) (fun _ => rfl) (fun _ hsend => hsend) ?_ ?_ h.resent
  · intro id hmem
    rwa [Rows.map_key_put]
  · intro tx event hopen
    refine ⟨hopen, ?_⟩
    intro e he heid hfailed
    rcases Rows.mem_put he with ⟨rfl, _⟩ | ⟨hold, _⟩
    · exact ⟨row, hrow, hid ▸ heid, DlqCall.update_status call now read row ▸ hfailed⟩
    · exact ⟨e, hold, heid, hfailed⟩

omit [DecidableEq ξ] in
theorem retryInv_insertEvent {event : Event} (h : RetryInv s)
    (hstep : insertEvent event s = some s') :
    RetryInv s' := by
  obtain ⟨hfresh, rfl⟩ := insertEvent_cases hstep
  refine retryInv_rows h (h.locked.insert hfresh) (fun _ => rfl) (fun _ hsend => hsend) ?_ ?_
    h.resent
  · intro id hmem
    rw [List.map_append]
    exact List.mem_append_left _ hmem
  · intro tx sent hopen
    refine ⟨hopen, ?_⟩
    intro e he heid hfailed
    rcases List.mem_append.mp he with hold | hnew
    · exact ⟨e, hold, heid, hfailed⟩
    · rw [List.mem_singleton.mp hnew] at heid
      exact absurd (openAck_known h hopen) (heid ▸ hfresh)

omit [DecidableEq ξ] in
theorem retryInv_changeEvent {event : Event} (h : RetryInv s)
    (hstep : changeEvent event s = some s') :
    RetryInv s' := by
  obtain ⟨_, hfree, rfl⟩ := changeEvent_cases hstep
  have hkeys : ∀ id ∈ s.db.events.map Event.id, id ∈
      (Rows.put Event.id event s.db.events).map Event.id := by
    intro id hmem
    rwa [Rows.map_key_put]
  by_cases hstatus : event.status = .failed
  · rw [if_pos hstatus]
    have hentry : ∀ send, RetryEntry.refailed event.id ≠ .sent send := by simp
    refine retryInv_rows h (h.locked.put hfree) (sendsOf_snoc hentry)
      (fun _ hsend => sent_mem_of_snoc hentry hsend) hkeys ?_ (resentOk_snoc h.resent ?_)
    · intro tx sent hopen
      rcases openAck_snoc hopen with ⟨hbefore, _, hother⟩ | ⟨send, hsend, _⟩
      · refine ⟨hbefore, ?_⟩
        intro e he heid hfailed
        rcases Rows.mem_put he with ⟨rfl, _⟩ | ⟨hold, _⟩
        · exact absurd (by rw [heid]) hother
        · exact ⟨e, hold, heid, hfailed⟩
      · cases hsend
    · exact fun send hsend => absurd hsend (hentry send)
  · rw [if_neg hstatus]
    refine retryInv_rows h (h.locked.put hfree) (fun _ => rfl) (fun _ hsend => hsend) hkeys ?_
      h.resent
    intro tx sent hopen
    refine ⟨hopen, ?_⟩
    intro e he heid hfailed
    rcases Rows.mem_put he with ⟨rfl, _⟩ | ⟨hold, _⟩
    · exact absurd hfailed hstatus
    · exact ⟨e, hold, heid, hfailed⟩

theorem retryInv_step {a : RetryLabel ξ} (h : RetryInv s)
    (hstep : retryNext settings s a = some s') :
    RetryInv s' := by
  match a with
  | .select x now tie => exact retryInv_select h hstep
  | .publish x now result => exact retryInv_publish h hstep
  | .commit x => exact retryInv_commit h hstep
  | .abort x => exact retryInv_abort h hstep
  | .read i call id =>
      obtain ⟨calls, rfl⟩ := readEvent_cases hstep
      exact retryInv_rows h h.locked (fun _ => rfl) (fun _ hsend => hsend) (fun _ hmem => hmem)
        (fun _ _ hopen => ⟨hopen, fun e he hid hfailed => ⟨e, he, hid, hfailed⟩⟩) h.resent
  | .write i now => exact retryInv_writeEvent h hstep
  | .insert event => exact retryInv_insertEvent h hstep
  | .change event => exact retryInv_changeEvent h hstep

/-! ## Sends and commits -/

/-- What a scheduler sends is the committed row of an event that has failed,
was due at the poll and is not discarded. -/
def SendOk (settings : Settings) (m : Foundation.Move (RetrySystem ξ) (RetryLabel ξ)) : Prop :=
  ∀ x now result, m.label = .publish x now result →
    ∃ e, Rows.get Event.id m.src.db.events e.id = some e ∧
      m.dst.log = m.src.log ++ [.sent ⟨m.src.tx x, e.id, requeueMessage settings e, result, now⟩] ∧
      e.status = .failed ∧ e.isDiscarded = false ∧
        ∃ retryAt, e.retryAt = some retryAt ∧ retryAt ≤ m.src.selectedAt x

/-- A commit writes on every event the transaction has locked what became of
its one send, and nothing on any other. -/
structure CommitOk (s t : RetrySystem ξ) (x : ξ) : Prop where
  selected : (sendsOf s.log (s.tx x)).map Sent.event = (s.locks.held x).map Event.id
  acked : ∀ send ∈ sendsOf s.log (s.tx x), send.result = .ok () →
    ∀ e ∈ s.db.events, e.id = send.event →
      { e with status := .queued, retryAt := none } ∈ t.db.events
  raised : ∀ send ∈ sendsOf s.log (s.tx x), ∀ exc, send.result = .error exc →
    ∀ e ∈ s.db.events, e.id = send.event →
      e.status = .failed ∧ { e with retryAt := some (send.at' + retryDelayS) } ∈ t.db.events
  unselected : ∀ e ∈ s.db.events, e.id ∉ (s.locks.held x).map Event.id → e ∈ t.db.events
  keys : t.db.events.map Event.id = s.db.events.map Event.id

theorem sendOk_step {a : RetryLabel ξ} (h : RetryInv s) (hstep : retryNext settings s a = some s') :
    SendOk settings ⟨s, a, s'⟩ := by
  rintro x now result rfl
  obtain ⟨e, rest, htodo, rfl⟩ := publishNext_cases hstep
  obtain ⟨hrow, hdue⟩ := due_of_held h (mem_held_of_todo htodo)
  obtain ⟨hstatus, hkept, hretry⟩ := due_iff.mp hdue
  exact ⟨e, (Rows.get_eq_some_iff h.locked.rows_nodup).mpr ⟨hrow, rfl⟩, rfl, hstatus, hkept, hretry⟩

theorem commitOk_step (h : RetryInv s) (hstep : commit x s = some s') : CommitOk s s' x := by
  obtain ⟨hheld, htodo, rfl⟩ := commit_cases hstep
  have hbatch := h.batch x hheld
  -- the table after the commit holds what was staged for each send
  have hturned : ∀ send ∈ sendsOf s.log (s.tx x), ∀ e ∈ s.db.events, e.id = send.event →
      e ∈ s.locks.held x ∧
        turned e send ∈ RowLocks.write Event.id (s.locks.staged x) s.db.events := by
    intro send hsend e he hid
    obtain ⟨row, hrow, hrow_id, hstaged⟩ := hbatch.turned_mem hsend
    have hsame : e = row :=
      Rows.eq_of_key_eq h.locked.rows_nodup he (h.locked.held_mem x row hrow)
        (hid.trans hrow_id.symm)
    subst hsame
    exact ⟨hrow, RowLocks.mem_write_of_mem (staged_nodup h x) hstaged he (requeueEvent_id _ _ _)⟩
  refine ⟨?_, ?_, ?_, ?_, ?_⟩
  · have hall : (s.locks.held x).take (s.locks.staged x).length = s.locks.held x := by
      apply List.take_of_length_le
      exact List.drop_eq_nil_iff.mp htodo
    rw [hbatch.handled_eq.2, hall]
  · intro send hsend hok e he hid
    have hmem := (hturned send hsend e he hid).2
    unfold turned at hmem
    rw [hok] at hmem
    exact hmem
  · intro send hsend exc herror e he hid
    obtain ⟨hheld_e, hmem⟩ := hturned send hsend e he hid
    unfold turned at hmem
    rw [herror] at hmem
    exact ⟨(due_iff.mp (due_of_held h hheld_e).2).1, hmem⟩
  · intro e he hfree
    apply h.locked.mem_commit_of_unheld he
    intro r hr hkey
    exact hfree (hkey ▸ List.mem_map_of_mem hr)
  · exact RowLocks.map_key_write _ _

/-- Every send is of a due event, every commit writes what its sends came to,
and no acknowledged event is sent by another transaction unless the first was
aborted or the event has failed again. -/
theorem retry_protocol {moves : List (Foundation.Move (RetrySystem ξ) (RetryLabel ξ))}
    (hs : (schedulers settings ξ).init s) (run : (schedulers settings ξ).Run s moves s') :
    (∀ m ∈ moves, SendOk settings m) ∧
      (∀ m ∈ moves, ∀ x, m.label = .commit x → CommitOk m.src m.dst x) ∧ ResentOk s'.log := by
  have hinv : RetryInv s := by
    rw [hs.1]
    exact retryInv_ofDatabase hs.2
  have hkeep : ∀ s a t, RetryInv s → True → (schedulers settings ξ).next s a = some t →
      RetryInv t :=
    fun s a t h _ hstep => retryInv_step h hstep
  refine ⟨?_, ?_, ?_⟩
  · exact run.forall_moves (C := fun _ => True) hkeep (fun s a t h _ hstep => sendOk_step h hstep)
      hinv
      (fun _ _ => trivial)
  · refine run.forall_moves (C := fun _ => True) hkeep ?_ hinv (fun _ _ => trivial)
    rintro s a t h _ hstep x rfl
    exact commitOk_step h hstep
  · have hlast := run.forall_visited (C := fun _ => True) hkeep hinv (fun _ _ => trivial) s'
      run.visited_last
    exact hlast.resent

end

/-! ## Two schedulers and one event -/

def failedEvent : Event where
  id := 5
  endpointId := 1
  requestBody := .null
  status := .failed
  retryAt := some 10

def failedStore : RetrySystem Bool := .ofDatabase { events := [failedEvent] }

/-- One scheduler queues the event, which fails again; the other's send
raises, its next transaction is aborted after the send, and the last one
commits. A user restores the event in between. -/
def twoSchedulers : List (RetryLabel Bool) := [
  .select true 12 (fun _ => 0), .publish true 13 (.ok ()), .commit true,
  .change failedEvent, .read 0 .restore 5,
  .select false 20 (fun _ => 0), .publish false 21 (.error ⟨"KafkaError", "timeout"⟩),
    .commit false,
  .write 0 22,
  .select true 60 (fun _ => 0), .publish true 61 (.ok ()), .abort true,
  .select false 62 (fun _ => 0), .publish false 63 (.ok ()), .commit false]

theorem retry_protocol_of_twoSchedulers :
    (∀ m ∈ (schedulers {} Bool).trace failedStore twoSchedulers, SendOk {} m) ∧
      (∀ m ∈ (schedulers {} Bool).trace failedStore twoSchedulers, ∀ x, m.label = .commit x →
        CommitOk m.src m.dst x) ∧
      ResentOk ((schedulers {} Bool).after failedStore twoSchedulers).log := by
  have hinit : (schedulers {} Bool).init failedStore := ⟨rfl, by decide⟩
  have hruns : ((schedulers {} Bool).exec failedStore twoSchedulers).isSome = true := by
    decide +kernel
  exact retry_protocol hinit (Machine.run_trace (Machine.exec_eq_after hruns))

end WebhookRelay.Retry
