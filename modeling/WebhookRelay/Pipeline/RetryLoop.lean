import WebhookRelay.Api.Writes
import WebhookRelay.Delivery.Process
import WebhookRelay.Pipeline.NoWrongDelivery

/-!
# Who feeds the retry scheduler

The scheduler polls for events with the status `failed`. An event starts out
pending, the relay and the scheduler make it queued, and nothing else writes
the column: `statuses_next`. So there is never anything to retry, and
`retry_loop_closed_iff` says in which runs nothing should have been.
-/

namespace WebhookRelay.Pipeline

open Foundation Delivery Api

/-! ## Unsuccessful ends -/

/-- The call uses up the last allowed attempt: it finds the breaker open, or
its request ends in an error or a status of 500 and above. -/
def Spent (settings : Settings) (route : RouteDict) (attempt : ℕ) (ans : CallAnswers) : Prop :=
  (ans.isOpen = .ok true ∧ maxRetries settings route ≤ (attempt : ℤ) + 1) ∨
    Exhausts settings route attempt ans = true

/-- With this move the processing of the event ends unsuccessfully: its outbox
record becomes failed, or the delivery of a route ends with its attempts
exhausted. -/
def Ends (settings : Settings) (m : Move PipelineState PipelineLabel) (eventId : UUID) : Prop :=
  match m.label with
  | .relayCommit id result => ∃ record ∈ m.src.db.outbox, record.id = id ∧
      record.eventId = eventId ∧ record.status ≠ .failed ∧
      (Outbox.relayRecord result record).status = .failed
  | .deliver i ans => ∃ task, m.src.delivering[i]? = some task ∧ task.eventId = eventId ∧
      Spent settings task.route task.attempt ans
  | _ => False

/-- The row the scheduler looks for: failed, with an instant from which on the
poll selects it unless it is discarded. -/
def LeftForRetry (s : PipelineState) (eventId : UUID) : Prop :=
  ∃ e ∈ s.db.events, e.id = eventId ∧ e.status = .failed ∧
    ∃ retryAt, e.retryAt = some retryAt ∧
      ∀ now, retryAt ≤ now → e.isDiscarded = false → Retry.due now e = true

/-- A tenth publish that fails, or the last allowed attempt of a delivery
failing. -/
def LastFailure (settings : Settings) (m : Move PipelineState PipelineLabel) : Prop :=
  match m.label with
  | .relayCommit id (.error _) => ∃ record ∈ m.src.db.outbox, record.id = id ∧
      record.status ≠ .failed ∧ Outbox.maxAttempts ≤ record.attempts + 1
  | .deliver i ans => ∃ task, m.src.delivering[i]? = some task ∧
      Spent settings task.route task.attempt ans
  | _ => False

section Ends

variable {settings : Settings} {eventId : UUID} {route : RouteDict} {body : Json}
variable {attempt waits : ℕ} {ans : CallAnswers}

/-- A failed row with its instant is enough: the poll selects it. -/
theorem leftForRetry_of_failed {s : PipelineState} {e : Event} (he : e ∈ s.db.events)
    (hstatus : e.status = .failed) {retryAt : Time} (hretry : e.retryAt = some retryAt) :
    LeftForRetry s e.id := by
  refine ⟨e, he, rfl, hstatus, retryAt, hretry, ?_⟩
  intro now hnow hkept
  unfold Retry.due
  simp [hstatus, hretry, hnow, hkept]

theorem attempts_cases (h : Attempts route ans = true) :
    ans.isOpen = .ok false ∧
      (if route.rateLimitRpm.isSome then ans.routeAllows else .ok true) = .ok true ∧
      ans.destAllows = .ok true := by
  unfold Attempts at h
  split at h
  · rename_i hopen hroute hdest
    exact ⟨hopen, hroute, hdest⟩
  · cases h

/-- Such a call is the delivery's last, whatever the tables and Redis answer
afterwards. -/
theorem not_again_of_spent (h : Spent settings route attempt ans) (attempt' waits' : ℕ) :
    (deliverCall settings eventId route body attempt waits ans).2 ≠ .again attempt' waits' := by
  intro hagain
  generalize hcall : deliverCall settings eventId route body attempt waits ans = result at hagain
  obtain ⟨effects, next⟩ := result
  have hnext : ∀ exc, Next.again attempt' waits' ≠ .raised exc := by simp
  cases hagain
  unfold deliverCall at hcall
  -- an open breaker, or a request that failed
  rcases h with ⟨hopen, hlast⟩ | hexhausts
  · rw [hopen] at hcall
    obtain ⟨_, hrest⟩ := recorded_cases hcall hnext
    rw [if_neg (by omega)] at hrest
    cases hrest
  · simp only [Exhausts, Bool.and_eq_true, decide_eq_true_eq] at hexhausts
    obtain ⟨⟨hattempts, _⟩, hlast⟩ := hexhausts
    obtain ⟨hopen, hroute, hdest⟩ := attempts_cases hattempts
    rw [hopen] at hcall
    unfold admitted at hcall
    rw [hroute, hdest] at hcall
    obtain ⟨_, _, _, _, _, hconclude⟩ := requested_cases hcall hnext
    have hmore := (conclude_again hconclude).2.2.2.2.2.2
    omega

theorem relayRecord_failed_iff {result : Except Exc Unit} {record : OutboxRecord}
    (hstatus : record.status ≠ .failed) :
    (Outbox.relayRecord result record).status = .failed ↔
      (∃ exc, result = .error exc) ∧ Outbox.maxAttempts ≤ record.attempts + 1 := by
  cases result with
  | ok _ => simp [Outbox.relayRecord]
  | error exc =>
      rw [Outbox.relayRecord_error_status]
      by_cases hlast : record.attempts + 1 ≥ Outbox.maxAttempts
      · rw [if_pos hlast]
        exact iff_of_true rfl ⟨⟨exc, rfl⟩, hlast⟩
      · rw [if_neg hlast]
        exact iff_of_false hstatus (fun h => hlast h.2)

/-- An event's processing ends unsuccessfully with such a failure and no other
move. -/
theorem exists_ends_iff {m : Move PipelineState PipelineLabel} :
    (∃ eventId, Ends settings m eventId) ↔ LastFailure settings m := by
  obtain ⟨s, label, t⟩ := m
  cases label with
  | relayCommit id result =>
      show (∃ eventId, ∃ record ∈ s.db.outbox, record.id = id ∧ record.eventId = eventId ∧
        record.status ≠ .failed ∧ (Outbox.relayRecord result record).status = .failed) ↔ _
      constructor
      · rintro ⟨_, record, hmem, hid, _, hstatus, hfailed⟩
        obtain ⟨⟨exc, rfl⟩, hlast⟩ := (relayRecord_failed_iff hstatus).mp hfailed
        exact ⟨record, hmem, hid, hstatus, hlast⟩
      · intro h
        cases result with
        | ok _ => exact h.elim
        | error exc =>
            obtain ⟨record, hmem, hid, hstatus, hlast⟩ := h
            exact ⟨record.eventId, record, hmem, hid, rfl, hstatus,
              (relayRecord_failed_iff hstatus).mpr ⟨⟨exc, rfl⟩, hlast⟩⟩
  | deliver i ans =>
      show (∃ eventId, ∃ task, s.delivering[i]? = some task ∧ task.eventId = eventId ∧
        Spent settings task.route task.attempt ans) ↔ ∃ task, s.delivering[i]? = some task ∧
          Spent settings task.route task.attempt ans
      constructor
      · rintro ⟨_, task, hget, _, hspent⟩
        exact ⟨task, hget, hspent⟩
      · rintro ⟨task, hget, hspent⟩
        exact ⟨task.eventId, task, hget, rfl, hspent⟩
  | _ => exact iff_of_false (fun ⟨_, h⟩ => h) id

end Ends

/-! ## The status column -/

/-- Where the status of an event may come from in one step. -/
def StatusesFrom (before after : List Event) : Prop :=
  ∀ e ∈ after, e.status = .pending ∨ e.status = .queued ∨ ∃ old ∈ before, e.status = old.status

namespace StatusesFrom

theorem refl (events : List Event) : StatusesFrom events events :=
  fun e he => Or.inr (Or.inr ⟨e, he, rfl⟩)

theorem of_map {events : List Event} {f : Event → Event}
    (h : ∀ e ∈ events, (f e).status = .queued ∨ (f e).status = e.status) :
    StatusesFrom events (events.map f) := by
  intro e he
  obtain ⟨old, hold, rfl⟩ := List.mem_map.mp he
  rcases h old hold with hqueued | hsame
  · exact Or.inr (Or.inl hqueued)
  · exact Or.inr (Or.inr ⟨old, hold, hsame⟩)

theorem snoc {events : List Event} {event : Event} (h : event.status = .pending) :
    StatusesFrom events (events ++ [event]) := by
  intro e he
  rcases List.mem_append.mp he with hold | hnew
  · exact StatusesFrom.refl events e hold
  · rw [List.mem_singleton] at hnew
    subst hnew
    exact Or.inl h

end StatusesFrom

section Statuses

variable {rt : Runtime} {settings : Settings} {s t : PipelineState}

/-- Discarding and restoring leave the status as it was. -/
theorem statuses_api (env : Env) (request : Request) (db : Database) :
    StatusesFrom db.events ((handle env settings request db).store db).events := by
  unfold Outcome.store
  cases hwrite : (handle env settings request db).write with
  | none => exact StatusesFrom.refl _
  | some w =>
      cases w with
      | updateEvent event =>
          obtain ⟨old, hold, _, _, rfl⟩ := from_of_handle hwrite
          intro e he
          obtain ⟨e', he', rfl⟩ := List.mem_map.mp he
          split
          · exact Or.inr (Or.inr ⟨old, hold, rfl⟩)
          · exact Or.inr (Or.inr ⟨e', he', rfl⟩)
      | _ => exact StatusesFrom.refl _

theorem statuses_ingest {i : ℕ} {eventId outboxId : UUID} {now : Time}
    (hstep : ingest settings s i eventId outboxId now = some t) :
    StatusesFrom s.db.events t.db.events := by
  obtain ⟨request, endpoint, payload, _, rfl⟩ := ingest_cases hstep
  exact StatusesFrom.snoc rfl

theorem statuses_relayCommit (id : UUID) (result : Except Exc Unit) :
    StatusesFrom s.db.events (relayCommit s id result).db.events := by
  cases result with
  | ok _ =>
      -- the events of the records that were published
      apply StatusesFrom.of_map
      intro e _
      split
      · exact Or.inl rfl
      · exact Or.inr rfl
  | error exc => exact StatusesFrom.refl _

theorem statuses_requeueCommit (id : UUID) (now : Time) (result : Except Exc Unit) :
    StatusesFrom s.db.events
      (s.db.events.map (fun e => if e.id = id then Retry.requeueEvent now result e else e)) := by
  apply StatusesFrom.of_map
  intro e _
  split
  · cases result with
    | ok _ => exact Or.inl rfl
    | error exc => exact Or.inr rfl
  · exact Or.inr rfl

/-- No step makes an event failed. -/
theorem statuses_next {label : PipelineLabel} (hstep : pipelineNext rt settings s label = some t) :
    StatusesFrom s.db.events t.db.events := by
  -- a case for each step; only four of them touch the events
  cases label with
  | change endpoints routes =>
      cases hstep
      exact StatusesFrom.refl _
  | api env request =>
      cases hstep
      exact statuses_api env request s.db
  | receive limiter request =>
      obtain ⟨_, _, _, rfl⟩ := receive_cases hstep
      exact StatusesFrom.refl _
  | ingest i eventId outboxId now => exact statuses_ingest hstep
  | relay tie locked i answer =>
      obtain ⟨record, _, rfl⟩ := Option.map_eq_some_iff.mp hstep
      exact StatusesFrom.refl _
  | relayCommit id result =>
      cases hstep
      exact statuses_relayCommit id result
  | requeue now i =>
      obtain ⟨e, _, rfl⟩ := Option.map_eq_some_iff.mp hstep
      exact StatusesFrom.refl _
  | requeueCommit id now result =>
      cases hstep
      exact statuses_requeueCommit id now result
  | arrive i =>
      obtain ⟨m, _, rfl⟩ := Option.map_eq_some_iff.mp hstep
      exact StatusesFrom.refl _
  | loadEvent i =>
      obtain ⟨_, _, _, _, _, _, _, rfl⟩ := loadEvent_cases hstep
      exact StatusesFrom.refl _
  | loadRoutes i =>
      obtain ⟨_, _, _, _, rfl⟩ := loadRoutes_cases hstep
      exact StatusesFrom.refl _
  | dispatch i send =>
      obtain ⟨_, _, _, _, _, _, _, rfl⟩ := dispatch_cases hstep
      exact StatusesFrom.refl _
  | startDelivery i =>
      obtain ⟨_, _, _, _, _, _, _, rfl⟩ := startDelivery_cases hstep
      exact StatusesFrom.refl _
  | deliver i ans =>
      obtain ⟨_, _, _, _, rfl⟩ := deliver_cases hstep
      exact StatusesFrom.refl _

def NeverFailed (s : PipelineState) : Prop := ∀ e ∈ s.db.events, e.status ≠ .failed

theorem neverFailed_init (hinit : (pipeline rt settings).init s) : NeverFailed s := by
  have hs : s = { db :=
      { endpoints := s.db.endpoints, routes := s.db.routes, memberships := s.db.memberships } } :=
        hinit
  intro e he
  rw [hs] at he
  cases he

theorem neverFailed_next {label : PipelineLabel} (hs : NeverFailed s)
    (hstep : pipelineNext rt settings s label = some t) : NeverFailed t := by
  intro e he hfailed
  rcases statuses_next hstep e he with hpending | hqueued | ⟨old, hold, hsame⟩
  · rw [hpending] at hfailed
    cases hfailed
  · rw [hqueued] at hfailed
    cases hfailed
  · exact hs old hold (hsame.symm.trans hfailed)

theorem neverFailed_of_reachable (hreach : (pipeline rt settings).Reachable s) : NeverFailed s :=
  hreach.invariant (fun _ => neverFailed_init) (fun _ _ _ => neverFailed_next)

/-- The scheduler's `SELECT` is empty, at any time of any run. -/
theorem nothing_due (hreach : (pipeline rt settings).Reachable s) (now : Time) :
    s.db.events.filter (Retry.due now) = [] := by
  rw [List.filter_eq_nil_iff]
  intro e he hdue
  unfold Retry.due at hdue
  simp only [Bool.and_eq_true, decide_eq_true_eq] at hdue
  exact neverFailed_of_reachable hreach e he hdue.1.1

theorem not_leftForRetry (hs : NeverFailed s) (eventId : UUID) : ¬ LeftForRetry s eventId := by
  rintro ⟨e, he, _, hfailed, _⟩
  exact hs e he hfailed

/-- A run leaves every event whose processing ends unsuccessfully to the
scheduler exactly when no publish fails for the tenth time and no delivery
fails in its last attempt. -/
theorem retry_loop_closed_iff {moves : List (Move PipelineState PipelineLabel)}
    (hinit : (pipeline rt settings).init s) (run : (pipeline rt settings).Run s moves t) :
    (∀ m ∈ moves, ∀ eventId, Ends settings m eventId → LeftForRetry m.dst eventId) ↔
      ∀ m ∈ moves, ¬ LastFailure settings m := by
  have keep : ∀ s label t, NeverFailed s → True → (pipeline rt settings).next s label = some t →
      NeverFailed t := fun _ _ _ hs _ => neverFailed_next hs
  have hnever : ∀ m ∈ moves, NeverFailed m.dst :=
    run.forall_moves keep keep (neverFailed_init hinit) (fun _ _ => trivial)
  constructor
  · intro hall m hm hfailure
    obtain ⟨eventId, hends⟩ := exists_ends_iff.mpr hfailure
    exact not_leftForRetry (hnever m hm) eventId (hall m hm eventId hends)
  · intro hall m hm eventId hends
    exact absurd (exists_ends_iff.mp ⟨eventId, hends⟩) (hall m hm)

end Statuses

/-! ## A delivery that nobody takes up again -/

/-- A webhook whose destination answers with `status`, `n` times. -/
def answeredWith (status n : ℕ) : List PipelineLabel :=
  webhookRun.dropLast ++ List.replicate n (.deliver 0 { http := .response status "" })

/-- The state in which the fifth and last 503 comes. -/
def fourFailures : PipelineState :=
  (pipeline identifierRuntime {}).after emptyPipeline (answeredWith 503 4)

/-- After the fifth 503 the event is left as the relay left it. -/
theorem spent_event_not_retried :
    ¬ ∀ rt settings s moves t, (pipeline rt settings).init s →
      (pipeline rt settings).Run s moves t →
      ∀ m ∈ moves, ∀ eventId, Ends settings m eventId → LeftForRetry m.dst eventId := by
  intro h
  have hinit : (pipeline identifierRuntime {}).init emptyPipeline := rfl
  have hfour : ((pipeline identifierRuntime {}).exec emptyPipeline
        (answeredWith 503 4)).isSome = true ∧
      ((pipeline identifierRuntime {}).next fourFailures
        (.deliver 0 { http := .response 503 "" })).isSome = true ∧
      fourFailures.delivering[0]?.any (fun task =>
        Exhausts {} task.route task.attempt { http := .response 503 "" }) = true := by
    decide +kernel
  obtain ⟨hsome, hfifth, hexhausts⟩ := hfour
  have hexec : (pipeline identifierRuntime {}).exec emptyPipeline (answeredWith 503 4) =
      some fourFailures := Machine.exec_eq_after hsome
  have run := Machine.run_trace hexec
  obtain ⟨t, hstep⟩ := Option.isSome_iff_exists.mp hfifth
  obtain ⟨task, hget, hspent⟩ := (Option.any_eq_true _ _).mp hexhausts
  obtain ⟨eventId, hends⟩ := exists_ends_iff.mpr
    (show LastFailure {} ⟨fourFailures, .deliver 0 { http := .response 503 "" }, t⟩ from
      ⟨task, hget, Or.inr hspent⟩)
  have hleft := h identifierRuntime {} emptyPipeline _ t hinit (run.snoc hstep) _
    (List.mem_append_right _ (List.mem_singleton_self _)) eventId hends
  have hreach : (pipeline identifierRuntime {}).Reachable t :=
    (Machine.reachable_of_exec hinit hexec).step hstep
  exact not_leftForRetry (neverFailed_of_reachable hreach) eventId hleft

/-- A destination that answers leaves nothing to retry. -/
theorem retry_loop_closed_webhookRun :
    ∃ moves, (pipeline identifierRuntime {}).Run emptyPipeline moves
        ((pipeline identifierRuntime {}).after emptyPipeline webhookRun) ∧
      ∀ m ∈ moves, ∀ eventId, Ends {} m eventId → LeftForRetry m.dst eventId := by
  have hinit : (pipeline identifierRuntime {}).init emptyPipeline := rfl
  have hexec : (pipeline identifierRuntime {}).exec emptyPipeline webhookRun =
      some ((pipeline identifierRuntime {}).after emptyPipeline webhookRun) :=
    Machine.exec_eq_after (by decide +kernel)
  obtain ⟨moves, run, hlabels⟩ := Machine.exists_run_of_exec hexec
  refine ⟨moves, run, (retry_loop_closed_iff hinit run).mpr ?_⟩
  have hnone : ∀ label ∈ webhookRun, ∀ s t, ¬ LastFailure {} ⟨s, label, t⟩ := by
    unfold webhookRun
    simp only [List.forall_mem_cons, List.not_mem_nil, false_imp_iff, implies_true, and_true]
    refine ⟨fun _ _ => id, fun _ _ => id, fun _ _ => id, fun _ _ => id, fun _ _ => id,
      fun _ _ => id, fun _ _ => id, fun _ _ => id, fun _ _ => id, fun _ _ => id, ?_⟩
    rintro s t ⟨task, _, ⟨hopen, _⟩ | hexhausts⟩
    · cases hopen
    · -- a 200 is not retryable
      simp [Exhausts, CallAnswers.outcome, HttpOutcome.isRetryable, HttpOutcome.status] at hexhausts
  intro m hm
  exact hnone m.label (hlabels ▸ List.mem_map_of_mem hm) m.src m.dst

end WebhookRelay.Pipeline
