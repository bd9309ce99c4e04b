import WebhookRelay.Outbox.Protocol

/-!
# The relay while Kafka is unavailable

When `init_kafka` fails at start, `get_kafka()` stays `None` and `_publish`
raises on every record. Nothing in the loop tells this apart from a failed
send: each pass charges one attempt to every record of its batch and marks it
failed at the tenth. `stays_pending_iff` gives the exact length of outage an
outbox survives.
-/

namespace WebhookRelay.Outbox

open Foundation

/-- The outbox table, with its primary key. -/
structure OutboxTable where
  rows : List OutboxRecord
  nodup : (rows.map OutboxRecord.id).Nodup

/-- The loop body on one record with no producer. -/
def refuse (r : OutboxRecord) : OutboxRecord :=
  relayRecord (publish .noProducer r).2 r

/-- One iteration of `run` with no producer, the only relay running. `cut` is
where the stop flag ends the batch; a relay restarted into the outage goes on
iterating. -/
def poll (tie : UUID → ℕ) (cut : ℕ) (rows : List OutboxRecord) : List OutboxRecord :=
  RowLocks.write OutboxRecord.id (((selectPending tie [] rows).take cut).map refuse) rows

inductive OutageLabel where
  | gatewayCommit (record : OutboxRecord)
  | poll (tie : UUID → ℕ) (cut : ℕ)

/-- During the outage the gateway still commits records. -/
def outage : Machine (List OutboxRecord) OutageLabel where
  init := fun rows => (rows.map OutboxRecord.id).Nodup
  next := fun rows label => match label with
    | .gatewayCommit record =>
        if record.id ∉ rows.map OutboxRecord.id ∧ record.status = .pending ∧
          record.attempts = 0 then
          some (rows ++ [record])
        else none
    | .poll tie cut => some (poll tie cut rows)

def iterations (labels : List OutageLabel) : ℕ :=
  labels.countP (fun label => match label with
    | .poll _ _ => true
    | .gatewayCommit _ => false)

/-- Every record pending before is pending after. -/
def StaysPending (before after : List OutboxRecord) : Prop :=
  ∀ r ∈ before, r.status = .pending → ∃ r' ∈ after, r'.id = r.id ∧ r'.status = .pending

/-- How many pending records are strictly older than `r`; a record with fewer
than `batchSize` of them can be selected. -/
def older (rows : List OutboxRecord) (r : OutboxRecord) : ℕ :=
  rows.countP (fun b => b.status = .pending ∧ b.createdAt < r.createdAt)

/-! ## One iteration -/

@[simp] theorem refuse_id (r : OutboxRecord) : (refuse r).id = r.id :=
  relayRecord_id _ r

@[simp] theorem refuse_createdAt (r : OutboxRecord) : (refuse r).createdAt = r.createdAt :=
  relayRecord_createdAt _ r

theorem refuse_attempts (r : OutboxRecord) : (refuse r).attempts = r.attempts + 1 := rfl

theorem refuse_status (r : OutboxRecord) :
    (refuse r).status = if r.attempts + 1 ≥ maxAttempts then .failed else r.status := rfl

/-- The ids of the records an iteration reaches. -/
def reached (tie : UUID → ℕ) (cut : ℕ) (rows : List OutboxRecord) : List UUID :=
  ((selectPending tie [] rows).take cut).map OutboxRecord.id

theorem poll_eq_map {rows : List OutboxRecord} (nodup : (rows.map OutboxRecord.id).Nodup)
    (tie : UUID → ℕ) (cut : ℕ) :
    poll tie cut rows = rows.map (fun r => if r.id ∈ reached tie cut rows then refuse r else r) :=
  RowLocks.write_map refuse_id nodup
    (fun _ hr => (mem_selectPending (List.mem_of_mem_take hr)).1)

theorem poll_ids (tie : UUID → ℕ) (cut : ℕ) (rows : List OutboxRecord) :
    (poll tie cut rows).map OutboxRecord.id = rows.map OutboxRecord.id :=
  RowLocks.map_key_write _ _

/-- A record an iteration reaches is among the ten oldest pending ones. -/
theorem older_lt_of_reached {tie : UUID → ℕ} {cut : ℕ} {rows : List OutboxRecord}
    (nodup : (rows.map OutboxRecord.id).Nodup) {r : OutboxRecord} (hr : r ∈ rows)
    (h : r.id ∈ reached tie cut rows) : older rows r < batchSize := by
  obtain ⟨b, hb, hid⟩ := List.mem_map.mp h
  have hsel := List.mem_of_mem_take hb
  have heq : b = r := List.inj_on_of_nodup_map nodup (mem_selectPending hsel).1 hr hid
  subst heq
  refine lt_of_le_of_lt ?_ (countP_lt_of_mem_take hsel)
  rw [older, List.countP_filter]
  apply List.countP_mono_left
  intro c _ hc
  simp only [Bool.decide_and, Bool.and_eq_true, decide_eq_true_eq] at hc
  have hrank : rankBy OutboxRecord.createdAt tie OutboxRecord.id c <
      rankBy OutboxRecord.createdAt tie OutboxRecord.id b :=
    Prod.Lex.toLex_lt_toLex.mpr (Or.inl hc.2)
  simp [hc.1, hrank]

/-- The tie-break that puts `r` before records of the same age. -/
def favour (r : OutboxRecord) (id : UUID) : ℕ := if id = r.id then 0 else 1

/-- Favoured, a pending record among the ten oldest is reached. -/
theorem reached_of_older_lt {rows : List OutboxRecord}
    (nodup : (rows.map OutboxRecord.id).Nodup) {r : OutboxRecord} (hr : r ∈ rows)
    (hpending : r.status = .pending) (h : older rows r < batchSize) :
    r.id ∈ reached (favour r) batchSize rows := by
  have hsel : r ∈ selectPending (favour r) [] rows := by
    refine mem_take_of_countP_lt (by simp [hr, hpending]) ?_ ?_
    · intro b hb hrank
      exact List.inj_on_of_nodup_map nodup (List.mem_filter.mp hb).1 hr (rankBy_injOn hrank)
    · refine lt_of_le_of_lt ?_ h
      rw [older, List.countP_filter]
      apply List.countP_mono_left
      intro c _ hc
      simp only [Bool.and_eq_true, decide_eq_true_eq, List.not_mem_nil, not_false_eq_true,
        and_true] at hc
      obtain ⟨hrank, hstatus⟩ := hc
      have hlt : c.createdAt < r.createdAt := by
        rcases Prod.Lex.toLex_lt_toLex.mp hrank with hlt | ⟨_, htie⟩
        · exact hlt
        · exfalso
          rcases Prod.Lex.toLex_lt_toLex.mp htie with htie | ⟨htie, hid⟩
          · simp [favour] at htie
          · have hcr : c.id = r.id := by simpa [favour] using htie
            exact absurd hid (by simp [hcr])
      simp [hstatus, hlt]
  refine List.mem_map.mpr ⟨r, ?_, rfl⟩
  rwa [List.take_of_length_le]
  exact List.length_take_le _ _

/-- What an iteration does to one record. -/
theorem mem_poll {rows : List OutboxRecord} (nodup : (rows.map OutboxRecord.id).Nodup)
    {r : OutboxRecord} (hr : r ∈ rows) (tie : UUID → ℕ) (cut : ℕ) :
    (r.id ∈ reached tie cut rows ∧ refuse r ∈ poll tie cut rows) ∨
      (r.id ∉ reached tie cut rows ∧ r ∈ poll tie cut rows) := by
  rw [poll_eq_map nodup]
  by_cases h : r.id ∈ reached tie cut rows
  · exact Or.inl ⟨h, List.mem_map.mpr ⟨r, hr, if_pos h⟩⟩
  · exact Or.inr ⟨h, List.mem_map.mpr ⟨r, hr, if_neg h⟩⟩

theorem outage_nodup {rows rows' : List OutboxRecord} {label : OutageLabel}
    (nodup : (rows.map OutboxRecord.id).Nodup) (h : outage.next rows label = some rows') :
    (rows'.map OutboxRecord.id).Nodup := by
  cases label with
  | gatewayCommit record =>
      simp only [outage, Option.ite_none_right_eq_some, Option.some.injEq] at h
      obtain ⟨⟨hfresh, _⟩, rfl⟩ := h
      rw [List.map_append, List.nodup_append]
      refine ⟨nodup, by simp, ?_⟩
      intro k hk k' hk' heq
      simp only [List.map_cons, List.map_nil, List.mem_singleton] at hk'
      exact hfresh (hk' ▸ heq ▸ hk)
  | poll tie cut =>
      simp only [outage, Option.some.injEq] at h
      subst h
      rwa [poll_ids]

/-! ## An iteration as a pass of the relay

`poll` is what the committed outbox becomes when one relay, alone, takes its
batch through `cut` turns of the loop with no producer.
-/

section Pass

variable {ξ : Type} [DecidableEq ξ]

theorem exec_publish_noProducer {x : ξ} {batch : List OutboxRecord} :
    ∀ (cut : ℕ) (s : RelaySystem ξ), s.stop x = false → s.locks.held x = batch →
      (s.locks.staged x).length + cut ≤ batch.length →
      ∃ t, (relays ξ).exec s (List.replicate cut (.publish x .noProducer)) = some t ∧
        t.db = s.db ∧ t.locks.held x = batch ∧
        t.locks.staged x = s.locks.staged x ++
          ((batch.drop (s.locks.staged x).length).take cut).map refuse := by
  intro cut
  -- on the publishes still to come; the batch stays held throughout
  induction cut with
  | zero =>
      intro s _ hheld _
      exact ⟨s, rfl, rfl, hheld, by simp⟩
  | succ cut ih =>
      intro s hstop hheld hlen
      have htodo : s.todo x = batch[(s.locks.staged x).length] ::
          batch.drop ((s.locks.staged x).length + 1) := by
        unfold RelaySystem.todo
        rw [hheld]
        exact List.drop_eq_getElem_cons (by omega)
      obtain ⟨u, hstep⟩ : ∃ u, publishNext x .noProducer s = some u := by
        unfold publishNext
        rw [htodo]
        simp [hstop]
      have hstop' : u.stop x = false := by
        unfold publishNext at hstep
        rw [htodo] at hstep
        simp only [hstop, Bool.false_eq_true, if_false, Option.some.injEq] at hstep
        subst hstep
        exact hstop
      obtain ⟨r, rest, hhead, _, hdb, _, hlocks, _⟩ := publishNext_cases hstep
      rw [htodo, List.cons.injEq] at hhead
      obtain ⟨rfl, _⟩ := hhead
      have hheld' : u.locks.held x = batch := by rw [hlocks]; exact hheld
      have hstaged : u.locks.staged x =
          s.locks.staged x ++ [refuse batch[(s.locks.staged x).length]] := by
        rw [hlocks]
        simp [RowLocks.stage, refuse]
      obtain ⟨t, hexec, hdb', hheld'', hstaged'⟩ := ih u hstop' hheld' (by simp [hstaged]; omega)
      refine ⟨t, ?_, hdb'.trans hdb, hheld'', ?_⟩
      · rw [List.replicate_succ]
        show (publishNext x .noProducer s).bind _ = _
        rw [hstep]
        exact hexec
      · have hlen' : (s.locks.staged x).length < batch.length := by omega
        rw [hstaged', hstaged, List.length_append, List.length_singleton, List.append_assoc,
          List.drop_eq_getElem_cons hlen', List.take_succ_cons, List.map_cons]
        rfl

/-- Alone and without a producer, one pass of the relay is one `poll`. -/
theorem pass_eq_poll {x : ξ} {s : RelaySystem ξ} (hstop : s.stop x = false)
    (hfree : s.locks.table = []) (idle : s.locks.held x = []) (tie : UUID → ℕ) (cut : ℕ)
    (hsome : selectPending tie [] s.db.outbox ≠ [])
    (hcut : cut ≤ (selectPending tie [] s.db.outbox).length) :
    ∃ t, (relays ξ).exec s (.select x tie :: List.replicate cut (.publish x .noProducer) ++
        [.signal x, .commit x]) = some t ∧ t.db.outbox = poll tie cut s.db.outbox := by
  obtain ⟨u, hselect⟩ : ∃ u, select x tie s = some u := by
    unfold select
    rw [if_pos ⟨hstop, idle⟩, hfree]
    split
    · contradiction
    · exact ⟨_, rfl⟩
  -- the three stretches of the pass: select, publish, stop and commit
  have hstop' : u.stop x = false := by
    unfold select at hselect
    rw [if_pos ⟨hstop, idle⟩] at hselect
    split at hselect
    · cases hselect
    · cases hselect
      exact hstop
  obtain ⟨_, hdb, _, _, hlocks⟩ := select_cases hselect
  rw [hfree] at hlocks
  have hheld : u.locks.held x = selectPending tie [] s.db.outbox := by
    simp [hlocks]
  have hstaged : u.locks.staged x = [] := by
    simp [hlocks]
  obtain ⟨v, hexec, hdb', hheld', hstaged'⟩ :=
    exec_publish_noProducer cut u hstop' hheld (by simpa [hstaged] using hcut)
  rw [hstaged, List.nil_append, List.length_nil, List.drop_zero] at hstaged'
  let w : RelaySystem ξ := { v with stop := Function.update v.stop x true }
  obtain ⟨t, hcommit⟩ : ∃ t, commit x w = some t := by
    unfold commit
    rw [if_pos]
    · exact ⟨_, rfl⟩
    · exact ⟨by simpa [w, hheld'] using hsome, Or.inr (by simp [w])⟩
  refine ⟨t, ?_, ?_⟩
  · rw [List.cons_append]
    show (select x tie s).bind _ = _
    rw [hselect, Option.bind_some, Machine.exec_append, hexec]
    show (commit x w).bind _ = _
    rw [hcommit]
    rfl
  · rw [(commit_cases hcommit).1]
    show RowLocks.write OutboxRecord.id (v.locks.staged x) v.db.outbox = _
    rw [hstaged', hdb', hdb]
    rfl

end Pass

/-! ## Outages short enough -/

/-- After `k` iterations every record pending at the start is pending, with
at most `k` attempts more. -/
def Survives (before rows : List OutboxRecord) (k : ℕ) : Prop :=
  ∀ r ∈ before, r.status = .pending → ∃ r' ∈ rows, r'.id = r.id ∧
    r'.createdAt = r.createdAt ∧ r'.status = .pending ∧ r'.attempts ≤ r.attempts + k

/-- While all survive, nobody moves up in the queue. -/
theorem older_le_of_survives {before rows : List OutboxRecord} {k : ℕ}
    (nodup : (before.map OutboxRecord.id).Nodup) (h : Survives before rows k)
    {r r' : OutboxRecord} (hage : r'.createdAt = r.createdAt) : older before r ≤ older rows r' := by
  unfold older
  rw [List.countP_eq_length_filter, List.countP_eq_length_filter]
  have hnodup : ((before.filter (fun b => b.status = .pending ∧ b.createdAt < r.createdAt)).map
      OutboxRecord.id).Nodup := nodup.sublist (List.filter_sublist.map OutboxRecord.id)
  have hsub : (before.filter (fun b => b.status = .pending ∧ b.createdAt < r.createdAt)).map
      OutboxRecord.id ⊆
        (rows.filter (fun b => b.status = .pending ∧ b.createdAt < r'.createdAt)).map
      OutboxRecord.id := by
    intro id hid
    obtain ⟨b, hb, rfl⟩ := List.mem_map.mp hid
    simp only [List.mem_filter, decide_eq_true_eq] at hb
    obtain ⟨hmem, hstatus, hlt⟩ := hb
    obtain ⟨b', hb', hid', hage', hstatus', _⟩ := h b hmem hstatus
    refine List.mem_map.mpr ⟨b', ?_, hid'⟩
    simp [hb', hstatus', hage', hage, hlt]
  simpa using (List.subperm_of_subset hnodup hsub).length_le

/-- One iteration of a short enough outage. -/
theorem survives_poll {before rows : List OutboxRecord} {k n : ℕ}
    (hbefore : (before.map OutboxRecord.id).Nodup) (hrows : (rows.map OutboxRecord.id).Nodup)
    (short : ∀ r ∈ before, r.status = .pending → older before r < batchSize →
      r.attempts + n < maxAttempts)
    (hk : k + 1 ≤ n) (h : Survives before rows k) (tie : UUID → ℕ) (cut : ℕ) :
    Survives before (poll tie cut rows) (k + 1) := by
  intro r hr hpending
  obtain ⟨r', hr', hid, hage, hpending', hattempts⟩ := h r hr hpending
  rcases mem_poll hrows hr' tie cut with ⟨hreached, hmem⟩ | ⟨_, hmem⟩
  · have holder := older_lt_of_reached hrows hr' hreached
    have hfirst : older before r < batchSize :=
      lt_of_le_of_lt (older_le_of_survives hbefore h hage) holder
    have hbound := short r hr hpending hfirst
    have hbelow : ¬ r'.attempts + 1 ≥ maxAttempts := by omega
    refine ⟨refuse r', hmem, by simpa using hid, by simpa using hage, ?_, ?_⟩
    · rw [refuse_status, if_neg hbelow]
      exact hpending'
    · rw [refuse_attempts]
      push_cast
      omega
  · refine ⟨r', hmem, hid, hage, hpending', ?_⟩
    push_cast
    omega

theorem survives_exec {before : List OutboxRecord} {n : ℕ}
    (hbefore : (before.map OutboxRecord.id).Nodup)
    (short : n = 0 ∨ ∀ r ∈ before, r.status = .pending → older before r < batchSize →
      r.attempts + n < maxAttempts)
    (labels : List OutageLabel) :
    ∀ rows, iterations labels ≤ n → outage.exec before labels = some rows →
      (rows.map OutboxRecord.id).Nodup ∧ Survives before rows (iterations labels) := by
  induction labels using List.reverseRecOn with
  | nil =>
      intro rows _ hexec
      simp only [Machine.exec, Option.some.injEq] at hexec
      subst hexec
      exact ⟨hbefore, fun r hr hpending => ⟨r, hr, rfl, rfl, hpending, by simp [iterations]⟩⟩
  | append_singleton labels label ih =>
      intro rows hn hexec
      rw [Machine.exec_append] at hexec
      simp only [Machine.exec, Option.bind_eq_some_iff, Option.some.injEq] at hexec
      obtain ⟨mid, hmid, last, hstep, rfl⟩ := hexec
      have hcount : iterations (labels ++ [label]) = iterations labels + iterations [label] := by
        simp [iterations]
      obtain ⟨hnodup, hsurvives⟩ := ih mid (by omega) hmid
      refine ⟨outage_nodup hnodup hstep, ?_⟩
      cases label with
      | gatewayCommit record =>
          simp only [outage, Option.ite_none_right_eq_some, Option.some.injEq] at hstep
          obtain ⟨_, rfl⟩ := hstep
          rw [hcount]
          intro r hr hpending
          obtain ⟨r', hr', hrest⟩ := hsurvives r hr hpending
          exact ⟨r', List.mem_append_left _ hr', by simpa [iterations] using hrest⟩
      | poll tie cut =>
          -- a pass costs a record one attempt at most, and there are enough left
          simp only [outage, Option.some.injEq] at hstep
          subst hstep
          have hone : iterations [OutageLabel.poll tie cut] = 1 := rfl
          rw [hcount, hone] at hn ⊢
          have hbelow := short.resolve_left (by omega)
          exact survives_poll hbefore hnodup hbelow hn hsurvives tie cut

/-! ## Outages too long -/

/-- `k` full iterations that favour `r`. -/
def favouring (r : OutboxRecord) (k : ℕ) : List OutageLabel :=
  List.replicate k (.poll (favour r) batchSize)

theorem iterations_favouring (r : OutboxRecord) (k : ℕ) : iterations (favouring r k) = k := by
  simp [iterations, favouring, List.countP_replicate]

/-- An iteration only moves records out of `pending`. -/
theorem older_poll_le {rows : List OutboxRecord} (nodup : (rows.map OutboxRecord.id).Nodup)
    (tie : UUID → ℕ) (cut : ℕ) {r r' : OutboxRecord} (hage : r'.createdAt = r.createdAt) :
    older (poll tie cut rows) r' ≤ older rows r := by
  unfold older
  rw [poll_eq_map nodup, List.countP_map]
  apply List.countP_mono_left
  intro b _ hb
  simp only [Function.comp_apply, decide_eq_true_eq] at hb ⊢
  split at hb
  · rw [refuse_status, refuse_createdAt, hage] at hb
    obtain ⟨hstatus, hlt⟩ := hb
    split at hstatus
    · cases hstatus
    · exact ⟨hstatus, hlt⟩
  · rwa [hage] at hb

/-- Where `r` is after `k` iterations that favour it: charged `k` times and
still pending below the limit, or not pending any more. -/
def Charged (r : OutboxRecord) (rows : List OutboxRecord) (k : ℕ) : Prop :=
  ∃ r' ∈ rows, r'.id = r.id ∧ (r'.status ≠ .pending ∨
    (r'.createdAt = r.createdAt ∧ r'.attempts = r.attempts + k ∧
      (k = 0 ∨ r'.attempts < maxAttempts) ∧ older rows r' < batchSize))

theorem favour_congr {r r' : OutboxRecord} (h : r'.id = r.id) : favour r' = favour r := by
  funext id
  simp [favour, h]

theorem charged_poll {r : OutboxRecord} {rows : List OutboxRecord} {k : ℕ}
    (nodup : (rows.map OutboxRecord.id).Nodup) (h : Charged r rows k) :
    Charged r (poll (favour r) batchSize rows) (k + 1) := by
  obtain ⟨r', hr', hid, hcase⟩ := h
  by_cases hpending : r'.status = .pending
  · obtain ⟨hage, hattempts, _, holder⟩ := hcase.resolve_left (fun hne => hne hpending)
    have hreached := reached_of_older_lt nodup hr' hpending holder
    rw [favour_congr hid] at hreached
    rcases mem_poll nodup hr' (favour r) batchSize with ⟨_, hmem⟩ | ⟨hnot, _⟩
    · refine ⟨refuse r', hmem, by simpa using hid, ?_⟩
      by_cases hlimit : r'.attempts + 1 ≥ maxAttempts
      · left
        rw [refuse_status, if_pos hlimit]
        decide
      · right
        refine ⟨by simpa using hage, ?_, Or.inr ?_, ?_⟩
        · rw [refuse_attempts, hattempts]
          push_cast
          ring
        · rw [refuse_attempts]
          omega
        · exact lt_of_le_of_lt (older_poll_le nodup _ _ (refuse_createdAt r')) holder
    · exact absurd hreached hnot
  · rcases mem_poll nodup hr' (favour r) batchSize with ⟨_, hmem⟩ | ⟨_, hmem⟩
    · refine ⟨refuse r', hmem, by simpa using hid, Or.inl ?_⟩
      rw [refuse_status]
      split
      · decide
      · exact hpending
    · exact ⟨r', hmem, hid, Or.inl hpending⟩

theorem charged_exec {r : OutboxRecord} {rows : List OutboxRecord}
    (nodup : (rows.map OutboxRecord.id).Nodup) (hr : r ∈ rows) (holder : older rows r < batchSize)
    (k : ℕ) : ∃ rows', outage.exec rows (favouring r k) = some rows' ∧
      (rows'.map OutboxRecord.id).Nodup ∧ Charged r rows' k := by
  induction k with
  | zero =>
      exact ⟨rows, rfl, nodup, r, hr, rfl, Or.inr ⟨rfl, by simp, Or.inl rfl, holder⟩⟩
  | succ k ih =>
      obtain ⟨mid, hexec, hnodup, hcharged⟩ := ih
      refine ⟨poll (favour r) batchSize mid, ?_, ?_, charged_poll hnodup hcharged⟩
      · rw [favouring, List.replicate_succ', Machine.exec_append]
        show (outage.exec rows (favouring r k)).bind _ = _
        rw [hexec]
        rfl
      · rwa [poll_ids]

/-! ## The outages an outbox survives -/

/-- Every record pending when the outage begins is still pending after `n`
iterations, however the gateway and the database interleave, exactly when no
iteration ran or each of the ten oldest pending records has fewer than
`maxAttempts - n` attempts. -/
theorem stays_pending_iff (store : OutboxTable) (n : ℕ) :
    (∀ labels rows, iterations labels = n → outage.exec store.rows labels = some rows →
        StaysPending store.rows rows) ↔
      (n = 0 ∨ ∀ r ∈ store.rows, r.status = .pending → older store.rows r < batchSize →
        r.attempts + n < maxAttempts) := by
  constructor
  · intro h
    by_cases hn : n = 0
    · exact Or.inl hn
    · refine Or.inr (fun r hr hpending holder => ?_)
      obtain ⟨rows, hexec, hnodup, r', hr', hid, hcase⟩ :=
        charged_exec store.nodup hr holder n
      obtain ⟨s, hs, hsid, hspending⟩ :=
        h _ rows (iterations_favouring r n) hexec r hr hpending
      have hsame : s = r' := List.inj_on_of_nodup_map hnodup hs hr' (hsid.trans hid.symm)
      subst hsame
      obtain ⟨_, hattempts, hlimit, _⟩ := hcase.resolve_left (fun hne => hne hspending)
      have := hlimit.resolve_left hn
      omega
  · intro short labels rows hn hexec r hr hpending
    obtain ⟨_, hsurvives⟩ := survives_exec store.nodup short labels rows (le_of_eq hn) hexec
    obtain ⟨r', hr', hid, _, hpending', _⟩ := hsurvives r hr hpending
    exact ⟨r', hr', hid, hpending'⟩

/-- An outbox with the one record a gateway has just committed. -/
def freshOutbox : OutboxTable where
  rows := [{ id := 1, eventId := 2, publishKey := "endpoint"
             publishTopic := "raw-events" }]
  nodup := by simp

/-- The loop sleeps on an empty batch only, so ten iterations follow one
another at once, and the record is failed for good. -/
theorem fresh_record_lost_after_ten :
    ¬ ∀ labels rows, iterations labels = 10 → outage.exec freshOutbox.rows labels = some rows →
      StaysPending freshOutbox.rows rows := by
  intro h
  have hexec : outage.exec freshOutbox.rows (List.replicate 10 (.poll (fun _ => 0) batchSize)) =
      some [{ id := 1, eventId := 2, status := .failed
              publishKey := "endpoint", publishTopic := "raw-events", attempts := 10
              lastError := some "RuntimeError: Kafka producer not available" }] := by
    rfl
  obtain ⟨r', hr', _, hpending⟩ := h _ _ rfl hexec _ (List.mem_singleton_self _) rfl
  rw [List.mem_singleton] at hr'
  subst hr'
  cases hpending

end WebhookRelay.Outbox
