import WebhookRelay.Transform.Worker
import WebhookRelay.Foundation.ConsumerLog
import WebhookRelay.Foundation.Machine

/-!
# The transform worker's consumer

The loop of `workers/transform_worker.py`. Messages are handled one after the
other, and after each one the consumer commits, whatever became of it. The
process may be stopped, or die at any point, also between two of its sends;
it then resumes from the committed offsets. `sent_iff_served` is about every
run of the worker and its restarts.
-/

namespace WebhookRelay.Transform

open Foundation

/-- One processing of a message: what it was answered, and the messages Kafka
acknowledged in it. -/
structure Handling where
  answers : EventAnswers
  acked : List KafkaMessage

/-- `toCommit` says a message was handled and the commit after it is next.
`handled` is history: the processings of each message, the latest first. -/
structure WorkerState where
  topic : ConsumerLog ℕ Json
  up : Bool := true
  looping : Bool := true
  stop : Bool := false
  toCommit : Bool := false
  handled : ℕ × ℕ → List Handling := fun _ => []

inductive WorkerLabel where
  | produce (partition : ℕ) (value : Json)
  | signal
  | take (partition : ℕ) (ans : EventAnswers)
  /-- The process dies handling a message, after some of its sends. -/
  | interrupt (partition : ℕ) (ans : EventAnswers) (sends : ℕ)
  | commit (result : Except Exc Unit)
  | close
  | crash
  | restart

/-- The next message of the partition has been handled. -/
def WorkerState.note (s : WorkerState) (p : ℕ) (handling : Handling) : WorkerState :=
  { s with
    handled := Function.update s.handled (p, s.topic.position p)
      (handling :: s.handled (p, s.topic.position p)) }

section Steps

variable (rt : Runtime) (settings : Settings)

/-- One turn of the `async for`, up to its commit. A value that is no dict
raises out of the loop. -/
def WorkerState.take (s : WorkerState) (p : ℕ) (ans : EventAnswers) : Option WorkerState :=
  if s.up ∧ s.looping ∧ s.toCommit = false then
    (s.topic.take p).map (fun (value, topic) =>
      if s.stop then { s with topic := topic, looping := false }
      else
        match value with
        | .obj data =>
            { s.note p ⟨ans, handleMessage rt settings data ans⟩ with
              topic := topic, toCommit := true }
        | _ => { s with topic := topic, looping := false })
  else none

/-- A turn the process does not live to finish. -/
def WorkerState.interrupt (s : WorkerState) (p : ℕ) (ans : EventAnswers) (sends : ℕ) :
    Option WorkerState :=
  if s.up ∧ s.looping ∧ s.toCommit = false ∧ s.stop = false then
    (s.topic.take p).bind (fun (value, topic) =>
      match value with
      | .obj data =>
          some { s.note p ⟨ans, (handleMessage rt settings data ans).take sends⟩ with
            topic := topic, up := false }
      | _ => none)
  else none

def workerNext (s : WorkerState) : WorkerLabel → Option WorkerState
  | .produce p value => some { s with topic := s.topic.append p value }
  | .signal => some { s with stop := true }
  | .take p ans => s.take rt settings p ans
  | .interrupt p ans sends => s.interrupt rt settings p ans sends
  | .commit result =>
      if s.toCommit then
        match result with
        | .ok _ => some { s with topic := s.topic.commit, toCommit := false }
        | .error _ => some { s with toCommit := false }
      else none
  | .close => if s.up ∧ s.looping = false then some { s with up := false } else none
  | .crash => if s.up then some { s with up := false, toCommit := false } else none
  | .restart =>
      if s.up then none
      else some { s with up := true, looping := true, stop := false, topic := s.topic.resume }

/-- The worker, its restarts and the producers of its topic. -/
def transformWorker : Machine WorkerState WorkerLabel where
  init := fun s => s = { topic := .empty }
  next := workerNext rt settings

/-! ## Committed and sent -/

/-- The message was processed, and each route it is owed to by the latest
processing had its message acknowledged, then or in an earlier one. -/
def Sent (handled : ℕ × ℕ → List Handling) (p offset : ℕ) (value : Json) : Prop :=
  ∀ data, value = .obj data → ∃ latest earlier, handled (p, offset) = latest :: earlier ∧
    ∀ event route, Owed rt data latest.answers event route →
      ∃ m ∈ latest.acked ++ earlier.flatMap Handling.acked, IsFor settings event route m

/-- Every message below a committed offset was sent to its routes. -/
def CommittedSent (s : WorkerState) : Prop :=
  s.topic.AtLeastOnce (Sent rt settings s.handled)

/-- At a successful commit, nothing failed on the way to any route that a
message handed to this process is owed to, unless the route got its message in
an earlier processing. -/
def ServedCommit (m : Move WorkerState WorkerLabel) : Prop :=
  match m.label with
  | .commit (.ok _) =>
      ∀ p offset data latest earlier, m.src.topic.Handed p offset →
        (m.src.topic.log p)[offset]? = some (.obj data) →
        m.src.handled (p, offset) = latest :: earlier →
        ∀ event route, Owed rt data latest.answers event route →
          Served rt latest.answers event route ∨
            ∃ m ∈ earlier.flatMap Handling.acked, IsFor settings event route m
  | _ => True

structure WorkerInv (s : WorkerState) : Prop where
  ordered : s.topic.Ordered
  committing : s.toCommit = true → s.up = true ∧ s.looping = true
  /-- While the loop goes on, all that was handed to the process is handled. -/
  complete : s.up = true → s.looping = true → ∀ p offset data, s.topic.Handed p offset →
    (s.topic.log p)[offset]? = some (.obj data) →
    ∃ latest earlier, s.handled (p, offset) = latest :: earlier ∧
      latest.acked = handleMessage rt settings data latest.answers

end Steps

variable {rt : Runtime} {settings : Settings} {s t : WorkerState}

/-! ## What each step does -/

/-- A turn of the loop either handles a message or ends the loop. -/
theorem take_cases {p : ℕ} {ans : EventAnswers} (h : s.take rt settings p ans = some t) :
    s.up = true ∧ s.looping = true ∧ ∃ value topic, s.topic.take p = some (value, topic) ∧
      ((∃ data, value = .obj data ∧
          t = { s.note p ⟨ans, handleMessage rt settings data ans⟩ with
            topic := topic, toCommit := true }) ∨
        (s.toCommit = false ∧ t = { s with topic := topic, looping := false })) := by
  simp only [WorkerState.take, Option.ite_none_right_eq_some, Option.map_eq_some_iff,
    Prod.exists] at h
  obtain ⟨⟨hup, hlooping, hcommit⟩, value, topic, htake, ht⟩ := h
  refine ⟨hup, hlooping, value, topic, htake, ?_⟩
  split at ht
  · exact Or.inr ⟨hcommit, ht.symm⟩
  · split at ht
    · rename_i data
      exact Or.inl ⟨data, rfl, ht.symm⟩
    · exact Or.inr ⟨hcommit, ht.symm⟩

/-- A turn cut short leaves the process down, with one more processing. -/
theorem interrupt_cases {p : ℕ} {ans : EventAnswers} {sends : ℕ}
    (h : s.interrupt rt settings p ans sends = some t) :
    s.toCommit = false ∧ ∃ value topic handling, s.topic.take p = some (value, topic) ∧
      t = { s.note p handling with topic := topic, up := false } := by
  simp only [WorkerState.interrupt, Option.ite_none_right_eq_some, Option.bind_eq_some_iff,
    Prod.exists] at h
  obtain ⟨⟨_, _, hcommit, _⟩, value, topic, htake, ht⟩ := h
  split at ht
  · exact ⟨hcommit, _, topic, _, htake, (Option.some.inj ht).symm⟩
  · cases ht

theorem note_handled_of_ne {p q offset : ℕ} (handling : Handling)
    (h : (q, offset) ≠ (p, s.topic.position p)) :
    (s.note p handling).handled (q, offset) = s.handled (q, offset) :=
  Function.update_of_ne h _ _

theorem note_handled_self (p : ℕ) (handling : Handling) :
    (s.note p handling).handled (p, s.topic.position p) =
      handling :: s.handled (p, s.topic.position p) :=
  Function.update_self _ _ _

/-! ## The invariant, step by step -/

theorem WorkerInv.handle (inv : WorkerInv rt settings s) (hup : s.up = true)
    (hlooping : s.looping = true) {p : ℕ} {data : RawMessage} {topic : ConsumerLog ℕ Json}
    (hstep : s.topic.take p = some (.obj data, topic)) (ans : EventAnswers) :
    WorkerInv rt settings { s.note p ⟨ans, handleMessage rt settings data ans⟩ with
      topic := topic, toCommit := true } := by
  obtain ⟨hget, htopic⟩ := ConsumerLog.take_cases hstep
  have hhanded := ConsumerLog.handed_take_iff inv.ordered hstep
  have hlog : topic.log = s.topic.log := by rw [htopic]
  refine ⟨inv.ordered.take hstep, fun _ => ⟨hup, hlooping⟩, ?_⟩
  intro _ _ q offset data' hq hdata
  rw [hhanded] at hq
  rw [hlog] at hdata
  by_cases hsame : (q, offset) = (p, s.topic.position p)
  · obtain ⟨rfl, rfl⟩ := Prod.mk.inj hsame
    rw [hget, Option.some.injEq, Json.obj.injEq] at hdata
    subst hdata
    exact ⟨_, _, note_handled_self q _, rfl⟩
  · have hold : s.topic.Handed q offset := by
      rcases hq with hold | ⟨rfl, rfl⟩
      · exact hold
      · exact absurd rfl hsame
    obtain ⟨latest, earlier, hhandled, hacked⟩ :=
      inv.complete hup hlooping q offset data' hold hdata
    exact ⟨latest, earlier, (note_handled_of_ne _ hsame).trans hhandled, hacked⟩

theorem WorkerInv.produce (inv : WorkerInv rt settings s) (p : ℕ) (value : Json) :
    WorkerInv rt settings { s with topic := s.topic.append p value } := by
  refine ⟨inv.ordered.append p value, inv.committing, ?_⟩
  intro hup hlooping q offset data hhanded hdata
  apply inv.complete hup hlooping q offset data hhanded
  exact (inv.ordered.getElem?_append_of_handed p value hhanded).symm.trans hdata

theorem workerInv_next {label : WorkerLabel} (inv : WorkerInv rt settings s)
    (hstep : workerNext rt settings s label = some t) : WorkerInv rt settings t := by
  cases label with
  | produce p value =>
      cases hstep
      exact inv.produce p value
  | signal =>
      cases hstep
      exact ⟨inv.ordered, inv.committing, inv.complete⟩
  | take p ans =>
      obtain ⟨hup, hlooping, value, topic, htake, ⟨data, rfl, rfl⟩ | ⟨hcommit, rfl⟩⟩ :=
        take_cases hstep
      · exact inv.handle hup hlooping htake ans
      · refine ⟨inv.ordered.take htake, ?_, ?_⟩
        · intro h
          exact absurd (hcommit.symm.trans h) (by decide)
        · intro _ h
          cases h
  | interrupt p ans sends =>
      obtain ⟨hcommit, value, topic, handling, htake, rfl⟩ := interrupt_cases hstep
      refine ⟨inv.ordered.take htake, ?_, ?_⟩
      · intro h
        exact absurd (hcommit.symm.trans h) (by decide)
      · intro h
        cases h
  | commit result =>
      simp only [workerNext, Option.ite_none_right_eq_some] at hstep
      obtain ⟨_, hstep⟩ := hstep
      split at hstep
      · cases hstep
        exact ⟨inv.ordered.commit, fun h => (by cases h), inv.complete⟩
      · cases hstep
        exact ⟨inv.ordered, fun h => (by cases h), inv.complete⟩
  | close =>
      simp only [workerNext, Option.ite_none_right_eq_some, Option.some.injEq] at hstep
      obtain ⟨⟨_, hlooping⟩, rfl⟩ := hstep
      refine ⟨inv.ordered, ?_, fun h => by cases h⟩
      intro h
      exact absurd (hlooping.symm.trans (inv.committing h).2) (by decide)
  | crash =>
      simp only [workerNext, Option.ite_none_right_eq_some, Option.some.injEq] at hstep
      obtain ⟨_, rfl⟩ := hstep
      exact ⟨inv.ordered, fun h => (by cases h), fun h => by cases h⟩
  | restart =>
      simp only [workerNext] at hstep
      split at hstep
      · cases hstep
      · cases hstep
        refine ⟨inv.ordered.resume, fun _ => ⟨rfl, rfl⟩, ?_⟩
        intro _ _ p offset data hhanded
        exact absurd hhanded (ConsumerLog.not_handed_resume p offset)

theorem workerInv_init (h : (transformWorker rt settings).init s) : WorkerInv rt settings s := by
  rw [h]
  refine ⟨ConsumerLog.ordered_empty, fun h => (by cases h), ?_⟩
  intro _ _ p offset data hhanded
  exact absurd hhanded.2 (Nat.not_lt_zero _)

/-! ## Which commits are served -/

/-- A processing that ran to its end leaves the message sent exactly when each
route it is owed to was served or had been sent its message before. -/
theorem sent_iff {handled : ℕ × ℕ → List Handling} {p offset : ℕ} {data : RawMessage}
    {latest : Handling} {earlier : List Handling}
    (hhandled : handled (p, offset) = latest :: earlier)
    (hacked : latest.acked = handleMessage rt settings data latest.answers) :
    Sent rt settings handled p offset (.obj data) ↔
      ∀ event route, Owed rt data latest.answers event route →
        Served rt latest.answers event route ∨
          ∃ m ∈ earlier.flatMap Handling.acked, IsFor settings event route m := by
  have split : ∀ event route, Owed rt data latest.answers event route →
      ((∃ m ∈ latest.acked ++ earlier.flatMap Handling.acked, IsFor settings event route m) ↔
        Served rt latest.answers event route ∨
          ∃ m ∈ earlier.flatMap Handling.acked, IsFor settings event route m) := by
    intro event route owed
    have hserved : (∃ m ∈ handleMessage rt settings data latest.answers,
        IsFor settings event route m) ↔ Served rt latest.answers event route :=
      exists_isFor_handleMessage_iff owed
    rw [← hserved, hacked]
    simp only [List.mem_append, or_and_right, exists_or]
  constructor
  · intro sent event route owed
    obtain ⟨latest', earlier', heq, hall⟩ := sent data rfl
    rw [hhandled, List.cons.injEq] at heq
    obtain ⟨rfl, rfl⟩ := heq
    exact (split event route owed).mp (hall event route owed)
  · intro hall data' hdata
    rw [Json.obj.injEq] at hdata
    subst hdata
    exact ⟨latest, earlier, hhandled,
      fun event route owed => (split event route owed).mpr (hall event route owed)⟩

theorem committedSent_commit_iff (inv : WorkerInv rt settings s) (hcommit : s.toCommit = true)
    (before : CommittedSent rt settings s) :
    s.topic.commit.AtLeastOnce (Sent rt settings s.handled) ↔
      ServedCommit rt settings ⟨s, .commit (.ok ()), t⟩ := by
  obtain ⟨hup, hlooping⟩ := inv.committing hcommit
  rw [ConsumerLog.atLeastOnce_commit_iff inv.ordered before]
  constructor
  · intro hall p offset data latest earlier hhanded hdata hhandled
    obtain ⟨latest', earlier', heq, hacked⟩ :=
      inv.complete hup hlooping p offset data hhanded hdata
    rw [hhandled, List.cons.injEq] at heq
    obtain ⟨rfl, rfl⟩ := heq
    exact (sent_iff hhandled hacked).mp (hall p offset _ hhanded hdata)
  · intro hall p offset value hhanded hvalue data hdata
    subst hdata
    obtain ⟨latest, earlier, hhandled, hacked⟩ :=
      inv.complete hup hlooping p offset data hhanded hvalue
    refine (sent_iff hhandled hacked).mpr ?_ data rfl
    exact hall p offset data latest earlier hhanded hvalue hhandled

/-- Handling the next message touches no committed one. -/
theorem CommittedSent.note (before : CommittedSent rt settings s) (inv : WorkerInv rt settings s)
    (p : ℕ) (handling : Handling) :
    s.topic.AtLeastOnce (Sent rt settings (s.note p handling).handled) := by
  refine ConsumerLog.AtLeastOnce.mono before ?_
  intro q offset value hlt hsent data hdata
  have hne : (q, offset) ≠ (p, s.topic.position p) := by
    intro heq
    obtain ⟨rfl, rfl⟩ := Prod.mk.inj heq
    exact absurd hlt (not_lt.mpr (inv.ordered.committed_le q))
  rw [note_handled_of_ne handling hne]
  exact hsent data hdata

theorem committedSent_next {label : WorkerLabel} (inv : WorkerInv rt settings s)
    (before : CommittedSent rt settings s) (hstep : workerNext rt settings s label = some t) :
    CommittedSent rt settings t ↔ ServedCommit rt settings ⟨s, label, t⟩ := by
  cases label with
  | produce p value =>
      cases hstep
      exact iff_of_true (ConsumerLog.AtLeastOnce.append inv.ordered before p value) trivial
  | signal =>
      cases hstep
      exact iff_of_true before trivial
  | take p ans =>
      obtain ⟨_, _, value, topic, htake, ht⟩ := take_cases hstep
      obtain ⟨_, rfl⟩ := ConsumerLog.take_cases htake
      refine iff_of_true ?_ trivial
      rcases ht with ⟨data, _, rfl⟩ | ⟨_, rfl⟩
      · exact before.note inv p _
      · exact before
  | interrupt p ans sends =>
      obtain ⟨_, value, topic, handling, htake, rfl⟩ := interrupt_cases hstep
      obtain ⟨_, rfl⟩ := ConsumerLog.take_cases htake
      exact iff_of_true (before.note inv p handling) trivial
  | commit result =>
      simp only [workerNext, Option.ite_none_right_eq_some] at hstep
      obtain ⟨hcommit, hstep⟩ := hstep
      cases result with
      | ok _ =>
          cases hstep
          exact committedSent_commit_iff (s := s) inv hcommit before
      | error exc =>
          cases hstep
          exact iff_of_true before trivial
  | close =>
      simp only [workerNext, Option.ite_none_right_eq_some, Option.some.injEq] at hstep
      obtain ⟨_, rfl⟩ := hstep
      exact iff_of_true before trivial
  | crash =>
      simp only [workerNext, Option.ite_none_right_eq_some, Option.some.injEq] at hstep
      obtain ⟨_, rfl⟩ := hstep
      exact iff_of_true before trivial
  | restart =>
      simp only [workerNext] at hstep
      split at hstep
      · cases hstep
      · cases hstep
        exact iff_of_true before trivial

/-- A run of the worker has every committed message sent to its routes, in
every state it visits, exactly when all its successful commits are served. -/
theorem sent_iff_served {s t : WorkerState} {moves : List (Move WorkerState WorkerLabel)}
    (hinit : (transformWorker rt settings).init s)
    (run : (transformWorker rt settings).Run s moves t) :
    (∀ v, Machine.Visited s moves v → CommittedSent rt settings v) ↔
      ∀ m ∈ moves, ServedCommit rt settings m := by
  have hstart : CommittedSent rt settings s := by
    rw [hinit]
    intro p offset value hlt
    exact absurd hlt (Nat.not_lt_zero _)
  exact run.forall_visited_iff (fun _ _ _ => workerInv_next) (fun _ _ _ => committedSent_next)
    (workerInv_init hinit) hstart

/-! ## A failed pipeline -/

/-- `jmespath.search` refuses `length` of a number. -/
def lengthRuntime : Runtime where
  search := fun expression _ =>
    if expression = "length(amount)" then
      .error (.jmespath ⟨"JMESPathTypeError", "In function length(), invalid type for value: 5, " ++
        "expected one of: ['string', 'array', 'object'], received: \"number\""⟩)
    else .ok .null
  reprFloat := fun _ => "0.05"
  reprStr := fun s => s
  reprDepth := 1000
  float := fun _ => none
  divide := fun _ x => x

def order : Event where
  id := default
  endpointId := default
  requestBody := .obj [("amount", .int 5)]

def lengthRoute : Route where
  id := default
  endpointId := default
  name := "lengths"
  url := "https://example.com"
  transformPipeline :=
    some [.obj [("type", .str "jmespath"), ("expression", .str "length(amount)")]]

def orderMessage : RawMessage :=
  [("event_id", .str order.id.str), ("endpoint_id", .str order.endpointId.str)]

def orderAnswers : EventAnswers where
  events := [order]
  routes := [lengthRoute]
  routes_nodup := List.nodup_singleton _

def failedPipelineRun : List WorkerLabel :=
  [.produce 0 (.obj orderMessage), .take 0 orderAnswers, .commit (.ok ())]

def failedPipelineWorker : WorkerState :=
  (transformWorker lengthRuntime {}).after { topic := .empty } failedPipelineRun

theorem exec_failedPipelineRun :
    (transformWorker lengthRuntime {}).exec { topic := .empty } failedPipelineRun =
      some failedPipelineWorker := rfl

/-- An active route of the endpoint of `order` is owed a message if its filter
selects the event. -/
theorem owed_order {ans : EventAnswers} {route : Route} (hevents : ans.events = [order])
    (hroute : route ∈ ans.routes) (hendpoint : order.endpointId = route.endpointId)
    (hactive : route.isActive = true) (hfilter : matchesEvent lengthRuntime route order = true) :
    Owed lengthRuntime orderMessage ans order route := by
  refine ⟨by decide +kernel, ⟨order.id, ?_, ?_⟩, ?_, ?_, hfilter⟩
  · simp [uuidArg, Json.get?, orderMessage]
  · rw [hevents]
    simp [findEvent]
  · have hread : Json.get? orderMessage "endpoint_id" = some (.str order.endpointId.str) := rfl
    rw [hread, ← hendpoint]
    simp [uuidArg]
  · exact List.mem_filter.mpr ⟨hroute, decide_eq_true ⟨rfl, hactive⟩⟩

/-- Its pipeline makes no body. -/
theorem routeBody_lengthRoute_ne_ok (body : Json) :
    routeBody lengthRuntime lengthRoute order.requestBody ≠ .ok body := by
  intro hbody
  have hraised : routeBody lengthRuntime lengthRoute order.requestBody = .error
      (.jmespath ⟨"JMESPathTypeError", "In function length(), invalid type for value: 5, " ++
        "expected one of: ['string', 'array', 'object'], received: \"number\""⟩) := rfl
  rw [hraised] at hbody
  cases hbody

theorem not_served_lengthRoute : ¬ Served lengthRuntime orderAnswers order lengthRoute := by
  rintro ⟨_, _, ⟨body, hbody⟩, _⟩
  exact routeBody_lengthRoute_ne_ok body hbody

theorem not_committedSent_failedPipelineWorker :
    ¬ CommittedSent lengthRuntime {} failedPipelineWorker := by
  intro h
  have hsent := h 0 0 (.obj orderMessage) (by decide) rfl
  have hhandled : failedPipelineWorker.handled (0, 0) =
      [⟨orderAnswers, handleMessage lengthRuntime {} orderMessage orderAnswers⟩] := rfl
  have howed : Owed lengthRuntime orderMessage orderAnswers order lengthRoute :=
    owed_order rfl List.mem_cons_self rfl rfl rfl
  have hserved := (sent_iff hhandled rfl).mp hsent order lengthRoute howed
  rcases hserved with hserved | ⟨m, hm, _⟩
  · exact not_served_lengthRoute hserved
  · cases hm

theorem failed_pipeline_unrecorded :
    ¬ ∀ rt settings s, (transformWorker rt settings).Reachable s → CommittedSent rt settings s := by
  intro h
  have hinit : (transformWorker lengthRuntime {}).init { topic := .empty } := rfl
  exact not_committedSent_failedPipelineWorker
    (h _ _ _ (Machine.reachable_of_exec hinit exec_failedPipelineRun))

theorem some_commit_of_failedPipelineRun_unserved :
    ∃ moves, (transformWorker lengthRuntime {}).Run { topic := .empty } moves failedPipelineWorker ∧
      moves.map Move.label = failedPipelineRun ∧
        ∃ m ∈ moves, ¬ ServedCommit lengthRuntime {} m := by
  obtain ⟨moves, run, hlabels⟩ := Machine.exists_run_of_exec exec_failedPipelineRun
  refine ⟨moves, run, hlabels, ?_⟩
  by_contra hnone
  have hmoves : ∀ m ∈ moves, ServedCommit lengthRuntime {} m := by
    intro m hm
    by_contra hunserved
    exact hnone ⟨m, hm, hunserved⟩
  have hinit : (transformWorker lengthRuntime {}).init { topic := .empty } := rfl
  have hall := (sent_iff_served hinit run).mpr hmoves
  exact not_committedSent_failedPipelineWorker (hall _ run.visited_last)

end WebhookRelay.Transform
