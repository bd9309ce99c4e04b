import WebhookRelay.Delivery.DeadLetters
import WebhookRelay.Delivery.Dispatch

/-!
# The delivery worker as a process

`run` of `workers/delivery_worker.py` from the start of the process. What
`get_kafka` and `get_redis` give is module state that the start-up of each
process sets, or leaves as the import left it. `deliveryProcess` adds that
state, and the calls of `_deliver_with_retry` one by one, to the worker of
`Delivery.Consumer`.

Its start-up has no `init_kafka`, so that no call ever publishes a dead letter:
`dead_lettered_iff` says in which runs that is no loss.
-/

namespace WebhookRelay.Delivery

open Foundation

/-! ## The start of a process -/

/-- An `AIOKafkaProducer` that has been started. -/
structure KafkaProducer where
  acks : String := "all"

structure RedisClient where
  decodeResponses : Bool := true

/-- The globals of `app/core/kafka.py` and `app/core/redis.py`. -/
structure Modules where
  producer : Option KafkaProducer := none
  redisClient : Option RedisClient := none

inductive StartUpCall where
  | initDb
  | initRedis
  | initKafka
  | startConsumer
  deriving DecidableEq

/-- How these end: `init_db()`, `Redis.from_url`, `_producer.start()` and
`consumer.start()`. -/
structure StartUpAnswers where
  db : Except Exc Unit := .ok ()
  redis : Except Exc Unit := .ok ()
  kafka : Except Exc Unit := .ok ()
  consumer : Except Exc Unit := .ok ()

def initRedis (answer : Except Exc Unit) (modules : Modules) : Except Exc Modules :=
  answer.map (fun _ => { modules with redisClient := some {} })

/-- Without the broker it goes on without a producer. -/
def initKafka (answer : Except Exc Unit) (modules : Modules) : Modules :=
  match answer with
  | .ok _ => { modules with producer := some {} }
  | .error _ => { modules with producer := none }

def StartUpCall.run (answers : StartUpAnswers) (modules : Modules) :
    StartUpCall → Except Exc Modules
  | initDb => answers.db.map (fun _ => modules)
  | initRedis => Delivery.initRedis answers.redis modules
  | initKafka => .ok (Delivery.initKafka answers.kafka modules)
  | startConsumer => answers.consumer.map (fun _ => modules)

/-- One call after the other, on what the imports have left. -/
def startUp (calls : List StartUpCall) (answers : StartUpAnswers) : Except Exc Modules :=
  calls.foldlM (fun modules call => call.run answers modules) {}

/-- `workers/delivery_worker.py`. -/
def deliveryWorkerStart : List StartUpCall := [.initDb, .initRedis, .startConsumer]

/-- `workers/outbox_relay.py`. -/
def outboxRelayStart : List StartUpCall := [.initDb, .initKafka]

/-- `workers/retry_scheduler.py`. -/
def retrySchedulerStart : List StartUpCall := [.initKafka]

/-- `app/main.py`. -/
def gatewayStart : List StartUpCall := [.initDb, .initRedis, .initKafka]

section StartUp

variable {answers : StartUpAnswers} {modules modules' : Modules}

theorem producer_run {call : StartUpCall} (hcall : call ≠ .initKafka)
    (h : call.run answers modules = .ok modules') : modules'.producer = modules.producer := by
  have hmap : ∀ {answer : Except Exc Unit} {next : Modules},
      answer.map (fun _ => next) = .ok modules' → modules' = next := by
    intro answer next h
    cases answer with
    | error exc => cases h
    | ok _ =>
        cases h
        rfl
  cases call with
  | initDb => rw [hmap h]
  | initRedis => rw [hmap h]
  | initKafka => exact absurd rfl hcall
  | startConsumer => rw [hmap h]

/-- Without a call of `init_kafka` there is no producer. -/
theorem producer_startUp {calls : List StartUpCall} (hcalls : StartUpCall.initKafka ∉ calls)
    (h : startUp calls answers = .ok modules) : modules.producer = none := by
  -- on the calls still to come, whatever came before
  have general : ∀ start : Modules, start.producer = none →
      calls.foldlM (fun modules (call : StartUpCall) => call.run answers modules) start =
        .ok modules → modules.producer = none := by
    clear h
    induction calls with
    | nil =>
        intro start hstart h
        cases h
        exact hstart
    | cons call rest ih =>
        intro start hstart h
        rw [List.foldlM_cons] at h
        obtain ⟨next, hrun, hrest⟩ := exists_of_bind_eq_ok h
        have hnext := producer_run (fun heq => hcalls (heq ▸ List.mem_cons_self)) hrun
        exact ih (fun hmem => hcalls (List.mem_cons_of_mem _ hmem)) next (hnext.trans hstart) hrest
  exact general {} rfl h

/-- A start-up that ends with `init_kafka` leaves one if the broker answers. -/
theorem producer_startUp_initKafka (calls : List StartUpCall) (hkafka : answers.kafka = .ok ())
    (h : startUp (calls ++ [.initKafka]) answers = .ok modules) : modules.producer = some {} := by
  unfold startUp at h
  rw [List.foldlM_append] at h
  obtain ⟨before, _, hlast⟩ := exists_of_bind_eq_ok h
  rw [List.foldlM_cons] at hlast
  obtain ⟨after, hrun, hafter⟩ := exists_of_bind_eq_ok hlast
  cases hafter
  cases hrun
  show (initKafka answers.kafka before).producer = some {}
  rw [hkafka]
  rfl

/-- So it is in the processes around the delivery worker. -/
theorem producer_siblings {calls : List StartUpCall}
    (hcalls : calls ∈ [outboxRelayStart, retrySchedulerStart, gatewayStart])
    (hkafka : answers.kafka = .ok ()) (h : startUp calls answers = .ok modules) :
    modules.producer = some {} := by
  simp only [List.mem_cons, List.not_mem_nil, or_false] at hcalls
  rcases hcalls with rfl | rfl | rfl
  · exact producer_startUp_initKafka [.initDb] hkafka h
  · exact producer_startUp_initKafka [] hkafka h
  · exact producer_startUp_initKafka [.initDb, .initRedis] hkafka h

end StartUp

/-! ## Calls under the module state -/

/-- What `get_redis` and `get_kafka` make of the answers: the breaker is asked
through the one, the dead letter sent through the other. -/
def Modules.answer (modules : Modules) (ans : CallAnswers) : CallAnswers :=
  { ans with
    isOpen := if modules.redisClient.isNone then .error ⟨"RuntimeError", "Redis not initialized"⟩
      else ans.isOpen
    deadLetter := if modules.producer.isNone then .noProducer else ans.deadLetter }

/-- The call gets past the breaker and the limiters. -/
def Attempts (route : RouteDict) (ans : CallAnswers) : Bool :=
  match ans.isOpen, if route.rateLimitRpm.isSome then ans.routeAllows else .ok true,
    ans.destAllows with
  | .ok false, .ok true, .ok true => true
  | _, _, _ => false

/-- It makes the last allowed attempt, which ends in an error or a status of
500 and above. -/
def Exhausts (settings : Settings) (route : RouteDict) (attempt : ℕ) (ans : CallAnswers) : Bool :=
  Attempts route ans && ans.outcome.isRetryable &&
    decide (maxRetries settings route ≤ (attempt : ℤ) + 1)

section Calls

variable {settings : Settings} {eventId : UUID} {route : RouteDict} {body : Json}
variable {attempt waits : ℕ} {ans : CallAnswers}

theorem deadLetters_recorded {row : DeliveryAttempt} {rest : List Effect × Next}
    (h : deadLetters rest.1 = []) : deadLetters (recorded ans row rest).1 = [] :=
  filterMap_recorded rfl h

theorem deadLetters_conclude {outcome : HttpOutcome}
    (h : ¬ (outcome.isRetryable = true ∧ maxRetries settings route ≤ (attempt : ℤ) + 1 ∧
      ans.deadLetter = .acked)) :
    deadLetters (conclude settings eventId route body attempt ans outcome).1 = [] := by
  unfold conclude
  split
  · exact filterMap_reported rfl rfl
  · apply filterMap_reported rfl
    split
    · rfl
    · split
      · rename_i hretry
        split
        · rfl
        · rename_i hlast
          -- the last attempt, and only this one comes to `bury`
          unfold bury
          split
          · rfl
          · rename_i hacked
            exact absurd ⟨hretry, by omega, hacked⟩ h
          · rfl
          · rfl
      · rfl

theorem deadLetters_requested
    (h : ¬ (ans.outcome.isRetryable = true ∧ maxRetries settings route ≤ (attempt : ℤ) + 1 ∧
      ans.deadLetter = .acked)) :
    deadLetters (requested settings eventId route body attempt ans).1 = [] := by
  unfold requested
  unfold CallAnswers.outcome at h
  split
  · rename_i exc hcheck
    rw [hcheck] at h
    exact deadLetters_recorded (deadLetters_conclude h)
  · rename_i hcheck
    rw [hcheck] at h
    exact deadLetters_recorded (deadLetters_conclude h)

/-- A dead letter is only published by a call that exhausts the attempts, and
only if the broker acknowledges it. -/
theorem deadLetters_deliverCall
    (h : ¬ (Exhausts settings route attempt ans = true ∧ ans.deadLetter = .acked)) :
    deadLetters (deliverCall settings eventId route body attempt waits ans).1 = [] := by
  unfold deliverCall
  split
  · rfl
  · apply deadLetters_recorded
    split <;> rfl
  · rename_i hopen
    unfold admitted
    split
    · rfl
    · exact deadLetters_recorded rfl
    · rename_i hroute
      split
      · rfl
      · split
        · exact deadLetters_recorded rfl
        · rfl
      · rename_i hdest
        apply deadLetters_requested
        rintro ⟨hretry, hlast, hacked⟩
        refine h ⟨?_, hacked⟩
        unfold Exhausts Attempts
        rw [hopen, hroute, hdest, hretry, decide_eq_true hlast]
        rfl

end Calls

/-! ## The process -/

/-- A delivery whose last allowed attempt failed, and its message. -/
structure Exhaustion where
  partition : ℕ
  offset : ℕ
  eventId : UUID
  route : RouteDict

/-- `progress` holds `attempt` and `rate_limit_waits` of the running call of
each task. The last three are history: the dead letters the broker
acknowledged, the deliveries that were exhausted, and those of them whose
offset was committed afterwards. -/
structure ProcessState where
  worker : WorkerState
  modules : Modules
  progress : ℕ → ℕ × ℕ := fun _ => (0, 0)
  acked : List KafkaMessage := []
  exhausted : List Exhaustion := []
  settled : List Exhaustion := []

inductive ProcessLabel where
  /-- One call of `_deliver_with_retry` by task `i`, up to its recursion. -/
  | call (i : ℕ) (ans : CallAnswers)
  /-- The process is started again. -/
  | start (answers : StartUpAnswers)
  /-- A step of the loop, of a task around its delivery, or of the outside. -/
  | other (label : WorkerLabel)

/-- The task `i` inside `_deliver_with_retry`, and its message. -/
def WorkerState.delivering (s : WorkerState) (i : ℕ) : Option (Task × Message) :=
  match s.tasks[i]? with
  | none => none
  | some task =>
      if task.phase = .running then
        ((s.topic.log task.partition)[task.offset]?).map (fun data => (task, data))
      else none

namespace ProcessState

/-- A commit now would cover the message. -/
def Covers (s : ProcessState) (e : Exhaustion) : Prop :=
  e.offset < s.worker.topic.position e.partition

instance (s : ProcessState) (e : Exhaustion) : Decidable (s.Covers e) := by
  unfold Covers
  infer_instance

def begin (s : ProcessState) : WorkerLabel → ℕ → ℕ × ℕ
  | .acquire i => Function.update s.progress i (0, 0)
  | _ => s.progress

def settle (s : ProcessState) : WorkerLabel → List Exhaustion
  | .commit _ (.ok _) => s.settled ++ s.exhausted.filter (fun e => s.Covers e)
  | _ => s.settled

/-- `_deliver_with_retry` returns to `_dispatch`, or raises. -/
def finish (s : ProcessState) (i : ℕ) (result : Except Exc Unit) : Option ProcessState :=
  (workerNext s.worker (.deliver i result)).map (fun worker => { s with worker := worker })

def follow (s : ProcessState) (i : ℕ) : Next → Option ProcessState
  | .again attempt waits =>
      some { s with progress := Function.update s.progress i (attempt, waits) }
  | .returned => s.finish i (.ok ())
  | .raised exc => s.finish i (.error exc)

section

variable (settings : Settings)

/-- What one call of task `i` leaves on record. -/
def record (s : ProcessState) (i : ℕ) (task : Task) (eventId : UUID) (route : RouteDict)
    (body : Json) (ans : CallAnswers) : ProcessState :=
  { s with
    acked := s.acked ++ deadLetters
      (deliverCall settings eventId route body (s.progress i).1 (s.progress i).2 ans).1
    exhausted :=
      if Exhausts settings route (s.progress i).1 ans then
        s.exhausted ++ [⟨task.partition, task.offset, eventId, route⟩]
      else s.exhausted }

/-- Reading the message's fields, then the call. -/
def call (s : ProcessState) (i : ℕ) (ans : CallAnswers) : Option ProcessState :=
  match s.worker.delivering i with
  | none => none
  | some (task, data) =>
      match dispatchArgs data settings with
      | .error exc => s.finish i (.error exc)
      | .ok (eventId, route, body) =>
          let ans := s.modules.answer ans
          (s.record settings i task eventId route body ans).follow i
            (deliverCall settings eventId route body (s.progress i).1 (s.progress i).2 ans).2

end

/-- A start-up that fails ends the process again. -/
def start (s : ProcessState) (answers : StartUpAnswers) : Option ProcessState :=
  (workerNext s.worker .restart).map (fun worker =>
    match startUp deliveryWorkerStart answers with
    | .ok modules => { s with worker := worker, modules := modules }
    | .error _ => s)

def other (s : ProcessState) (label : WorkerLabel) : Option ProcessState :=
  match label with
  | .deliver _ _ => none
  | .restart => none
  | label =>
      (workerNext s.worker label).map (fun worker =>
        { s with worker := worker, progress := s.begin label, settled := s.settle label })

end ProcessState

def processNext (settings : Settings) (s : ProcessState) : ProcessLabel → Option ProcessState
  | .call i ans => s.call settings i ans
  | .start answers => s.start answers
  | .other label => s.other label

/-- The process from its first start on. -/
def deliveryProcess (settings : Settings) : Machine ProcessState ProcessLabel where
  init := fun s => ∃ answers modules, startUp deliveryWorkerStart answers = .ok modules ∧
    s = { worker := { topic := .empty }, modules := modules }
  next := processNext settings

/-- Every exhausted delivery whose message was committed afterwards has a dead
letter that the broker acknowledged. -/
def DeadLettered (settings : Settings) (s : ProcessState) : Prop :=
  ∀ e ∈ s.settled, ∃ m ∈ s.acked, IsDeadLetterFor settings e.eventId e.route m

/-- A commit does not cover a message whose last allowed attempt failed. -/
def CommitsNoneExhausted (m : Move ProcessState ProcessLabel) : Prop :=
  match m.label with
  | .other (.commit _ (.ok _)) => ∀ e ∈ m.src.exhausted, ¬ m.src.Covers e
  | _ => True

instance (m : Move ProcessState ProcessLabel) : Decidable (CommitsNoneExhausted m) :=
  match m with
  | ⟨s, .other (.commit _ (.ok _)), _⟩ =>
      inferInstanceAs (Decidable (∀ e ∈ s.exhausted, ¬ s.Covers e))
  | ⟨_, .call _ _, _⟩ | ⟨_, .start _, _⟩ | ⟨_, .other (.produce _ _), _⟩ | ⟨_, .other .signal, _⟩
  | ⟨_, .other (.take _), _⟩ | ⟨_, .other (.acquire _), _⟩ | ⟨_, .other (.deliver _ _), _⟩
  | ⟨_, .other (.commit _ (.error _)), _⟩ | ⟨_, .other .close, _⟩ | ⟨_, .other .crash, _⟩
  | ⟨_, .other .restart, _⟩ => .isTrue trivial

/-! ## A process without a producer -/

section Steps

variable {settings : Settings} {s t : ProcessState}

theorem finish_cases {i : ℕ} {result : Except Exc Unit} (h : s.finish i result = some t) :
    ∃ worker, workerNext s.worker (.deliver i result) = some worker ∧
      t = { s with worker := worker } := by
  unfold ProcessState.finish at h
  rw [Option.map_eq_some_iff] at h
  obtain ⟨worker, hstep, rfl⟩ := h
  exact ⟨worker, hstep, rfl⟩

/-- Going on after a call changes the worker and the progress at most. -/
theorem follow_cases {i : ℕ} {next : Next} (h : s.follow i next = some t) :
    t = { s with worker := t.worker, progress := t.progress } ∧
      (t.worker = s.worker ∨
        ∃ result, workerNext s.worker (.deliver i result) = some t.worker) := by
  cases next with
  | again attempt waits =>
      cases h
      exact ⟨rfl, Or.inl rfl⟩
  | returned =>
      obtain ⟨worker, hstep, rfl⟩ := finish_cases h
      exact ⟨rfl, Or.inr ⟨_, hstep⟩⟩
  | raised exc =>
      obtain ⟨worker, hstep, rfl⟩ := finish_cases h
      exact ⟨rfl, Or.inr ⟨_, hstep⟩⟩

/-- The worker makes a step of its own, or none. -/
def WorkerSteps (s t : ProcessState) : Prop :=
  t.worker = s.worker ∨ ∃ label, workerNext s.worker label = some t.worker

theorem call_cases {i : ℕ} {ans : CallAnswers} (h : s.call settings i ans = some t) :
    t.modules = s.modules ∧ t.settled = s.settled ∧ WorkerSteps s t ∧
      (t.acked = s.acked ∨ ∃ eventId route body attempt waits, t.acked = s.acked ++ deadLetters
        (deliverCall settings eventId route body attempt waits (s.modules.answer ans)).1) := by
  unfold ProcessState.call at h
  split at h
  · cases h
  · rename_i task data _
    split at h
    · obtain ⟨worker, hstep, rfl⟩ := finish_cases h
      exact ⟨rfl, rfl, Or.inr ⟨_, hstep⟩, Or.inl rfl⟩
    · rename_i eventId route body _
      obtain ⟨ht, hworker⟩ := follow_cases h
      rw [ht]
      refine ⟨rfl, rfl, ?_, Or.inr ⟨eventId, route, body, _, _, rfl⟩⟩
      rcases hworker with hsame | ⟨result, hstep⟩
      · exact Or.inl hsame
      · exact Or.inr ⟨_, hstep⟩

theorem start_cases {answers : StartUpAnswers} (h : s.start answers = some t) :
    t.acked = s.acked ∧ t.settled = s.settled ∧ WorkerSteps s t ∧
      (t.modules = s.modules ∨ startUp deliveryWorkerStart answers = .ok t.modules) := by
  unfold ProcessState.start at h
  rw [Option.map_eq_some_iff] at h
  obtain ⟨worker, hstep, rfl⟩ := h
  cases hstart : startUp deliveryWorkerStart answers with
  | ok modules => exact ⟨rfl, rfl, Or.inr ⟨_, hstep⟩, Or.inr rfl⟩
  | error exc => exact ⟨rfl, rfl, Or.inl rfl, Or.inl rfl⟩

theorem other_cases {label : WorkerLabel} (h : s.other label = some t) :
    ∃ worker, workerNext s.worker label = some worker ∧
      t = { s with worker := worker, progress := s.begin label, settled := s.settle label } := by
  unfold ProcessState.other at h
  split at h
  · cases h
  · cases h
  · rw [Option.map_eq_some_iff] at h
    obtain ⟨worker, hstep, rfl⟩ := h
    exact ⟨worker, hstep, rfl⟩

theorem workerSteps_processNext {label : ProcessLabel} (h : processNext settings s label = some t) :
    WorkerSteps s t := by
  cases label with
  | call i ans => exact (call_cases h).2.2.1
  | start answers => exact (start_cases h).2.2.1
  | other label =>
      obtain ⟨worker, hstep, rfl⟩ := other_cases h
      exact Or.inr ⟨label, hstep⟩

/-- The process runs the worker. -/
theorem worker_reachable (h : (deliveryProcess settings).Reachable s) :
    deliveryWorker.Reachable s.worker := by
  induction h with
  | start hinit =>
      obtain ⟨_, _, _, rfl⟩ := hinit
      exact .start rfl
  | step _ hstep ih =>
      rcases workerSteps_processNext hstep with hsame | ⟨label, hnext⟩
      · rw [hsame]
        exact ih
      · exact ih.step hnext

/-- The commit that ends a task's own delivery covers its message. -/
theorem settled_of_commit (hs : (deliveryProcess settings).Reachable s) {i : ℕ} {task : Task}
    (htask : s.worker.tasks[i]? = some task) {e : Exhaustion} (he : e ∈ s.exhausted)
    (hpartition : e.partition = task.partition) (hoffset : e.offset = task.offset)
    (hstep : s.other (.commit i (.ok ())) = some t) : e ∈ t.settled := by
  have inv : WorkerInv s.worker :=
    (worker_reachable hs).invariant (fun _ => workerInv_init) (fun _ _ _ => workerInv_next)
  obtain ⟨hhanded, _⟩ := inv.task_handed task (List.mem_of_getElem? htask)
  -- the consumer commits its position, which is past every message handed out
  have hcovers : s.Covers e := by
    show e.offset < s.worker.topic.position e.partition
    rw [hpartition, hoffset]
    exact hhanded.2
  obtain ⟨worker, _, rfl⟩ := other_cases hstep
  show e ∈ s.settled ++ s.exhausted.filter (fun e => s.Covers e)
  exact List.mem_append_right _ (List.mem_filter.mpr ⟨he, decide_eq_true hcovers⟩)

/-! ## No dead letter is published -/

structure Mute (s : ProcessState) : Prop where
  producer : s.modules.producer = none
  acked : s.acked = []

theorem producer_deliveryWorkerStart {answers : StartUpAnswers} {modules : Modules}
    (h : startUp deliveryWorkerStart answers = .ok modules) : modules.producer = none :=
  producer_startUp (by decide) h

theorem deadLetters_of_noProducer {modules : Modules} (h : modules.producer = none)
    (eventId : UUID) (route : RouteDict) (body : Json) (attempt waits : ℕ) (ans : CallAnswers) :
    deadLetters
      (deliverCall settings eventId route body attempt waits (modules.answer ans)).1 = [] := by
  apply deadLetters_deliverCall
  rintro ⟨_, hacked⟩
  have hnone : (modules.answer ans).deadLetter = .noProducer := by
    unfold Modules.answer
    rw [h]
    rfl
  rw [hnone] at hacked
  cases hacked

theorem mute_init (h : (deliveryProcess settings).init s) : Mute s := by
  obtain ⟨answers, modules, hstart, rfl⟩ := h
  exact ⟨producer_deliveryWorkerStart hstart, rfl⟩

theorem mute_next {label : ProcessLabel} (hs : Mute s)
    (hstep : processNext settings s label = some t) : Mute t := by
  cases label with
  | call i ans =>
      obtain ⟨hmodules, _, _, hacked⟩ := call_cases hstep
      refine ⟨hmodules ▸ hs.producer, ?_⟩
      rcases hacked with hsame | ⟨eventId, route, body, attempt, waits, hmore⟩
      · rw [hsame, hs.acked]
      · rw [hmore, hs.acked, deadLetters_of_noProducer hs.producer]
        rfl
  | start answers =>
      -- a new process imports the module again
      obtain ⟨hacked, _, _, hmodules⟩ := start_cases hstep
      refine ⟨?_, hacked.trans hs.acked⟩
      rcases hmodules with hsame | hstart
      · rw [hsame, hs.producer]
      · exact producer_deliveryWorkerStart hstart
  | other label =>
      obtain ⟨worker, _, rfl⟩ := other_cases hstep
      exact ⟨hs.producer, hs.acked⟩

/-- With nothing published, nothing may be settled. -/
theorem deadLettered_iff (hs : Mute s) : DeadLettered settings s ↔ s.settled = [] := by
  unfold DeadLettered
  rw [hs.acked, List.eq_nil_iff_forall_not_mem]
  simp

theorem deadLettered_next {label : ProcessLabel} (hs : Mute s) (before : DeadLettered settings s)
    (hstep : processNext settings s label = some t) :
    DeadLettered settings t ↔ CommitsNoneExhausted ⟨s, label, t⟩ := by
  have hempty : s.settled = [] := (deadLettered_iff hs).mp before
  rw [deadLettered_iff (mute_next hs hstep)]
  cases label with
  | call i ans => exact iff_of_true ((call_cases hstep).2.1.trans hempty) trivial
  | start answers => exact iff_of_true ((start_cases hstep).2.1.trans hempty) trivial
  | other label =>
      obtain ⟨worker, _, rfl⟩ := other_cases hstep
      show s.settle label = [] ↔ CommitsNoneExhausted _
      unfold ProcessState.settle CommitsNoneExhausted
      rw [hempty]
      dsimp only
      split
      · rw [List.nil_append, List.filter_eq_nil_iff]
        simp only [decide_eq_true_eq]
      · rename_i hnone
        apply iff_of_true rfl
        split
        · rename_i i heq
          cases heq
          exact absurd rfl (hnone _ _)
        · trivial

/-- In a run of the process the exhausted deliveries that were committed all
have their dead letters, in every state visited, exactly when no commit ever
covers one. -/
theorem dead_lettered_iff {s t : ProcessState} {moves : List (Move ProcessState ProcessLabel)}
    (hinit : (deliveryProcess settings).init s) (run : (deliveryProcess settings).Run s moves t) :
    (∀ v, Machine.Visited s moves v → DeadLettered settings v) ↔
      ∀ m ∈ moves, CommitsNoneExhausted m := by
  have hmute := mute_init hinit
  have hstart : DeadLettered settings s := by
    obtain ⟨_, _, _, rfl⟩ := hinit
    intro e he
    cases he
  exact run.forall_visited_iff (fun _ _ _ => mute_next) (fun _ _ _ => deadLettered_next) hmute
    hstart

end Steps

/-! ## A lost dead letter -/

/-- One attempt is allowed. -/
def lastChance : Message :=
  [("event_id", .str (UUID.str 1)), ("route_id", .str (UUID.str 7)),
    ("url", .str "https://example.com/hook"), ("max_retries", .int 1)]

def startedProcess : ProcessState where
  worker := { topic := .empty }
  modules := { redisClient := some {} }

/-- The message is taken, its one request answered with `status`, and its
offset committed. -/
def attemptAndCommit (status : ℕ) : List ProcessLabel :=
  [.other (.produce 0 lastChance), .other (.take 0), .other (.acquire 0),
    .call 0 { http := .response status "" }, .other (.commit 0 (.ok ()))]

def processAfter (status : ℕ) : ProcessState :=
  (deliveryProcess {}).after startedProcess (attemptAndCommit status)

theorem init_startedProcess : (deliveryProcess {}).init startedProcess :=
  ⟨{}, startedProcess.modules, rfl, rfl⟩

theorem exec_attemptAndCommit (status : ℕ) (h : status = 200 ∨ status = 503) :
    (deliveryProcess {}).exec startedProcess (attemptAndCommit status) =
      some (processAfter status) := by
  apply Machine.exec_eq_after
  rcases h with rfl | rfl <;> decide +kernel

theorem dead_letter_never_published :
    ¬ ∀ settings s, (deliveryProcess settings).Reachable s → DeadLettered settings s := by
  intro h
  have hreach : (deliveryProcess {}).Reachable (processAfter 503) :=
    Machine.reachable_of_exec init_startedProcess (exec_attemptAndCommit 503 (Or.inr rfl))
  have hsettled : (processAfter 503).settled.length = 1 := by decide +kernel
  have hacked : (processAfter 503).acked.length = 0 := by decide +kernel
  obtain ⟨e, he⟩ := List.exists_mem_of_length_eq_add_one hsettled
  obtain ⟨m, hm, _⟩ := h {} _ hreach e he
  rw [List.length_eq_zero_iff.mp hacked] at hm
  cases hm

/-- Nothing is owed for a delivery that was answered. -/
theorem dead_lettered_of_answered :
    ∃ moves, (deliveryProcess {}).Run startedProcess moves (processAfter 200) ∧
      ∀ v, Machine.Visited startedProcess moves v → DeadLettered {} v := by
  have run := Machine.run_trace (exec_attemptAndCommit 200 (Or.inl rfl))
  refine ⟨_, run, (dead_lettered_iff init_startedProcess run).mpr ?_⟩
  decide +kernel

end WebhookRelay.Delivery
