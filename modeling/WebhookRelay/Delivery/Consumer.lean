import WebhookRelay.Core.Models
import WebhookRelay.Foundation.ConsumerLog
import WebhookRelay.Foundation.Machine

/-!
# The delivery worker's consumer

`workers/delivery_worker.py`. The loop hands every well-formed message to a
task; at most fifty tasks are inside the semaphore, they finish in any order,
and each one that returns commits for the whole consumer. A stopped process
runs its tasks to their end; a crashed one loses them. `committed_safe_iff`
is about every run of the worker and its restarts.
-/

namespace WebhookRelay.Delivery

open Foundation

/-- `msg.value`. -/
abbrev Message := List (String × Json)

/-- The test of the loop: otherwise the message is skipped. -/
def wellFormed (data : Message) : Bool :=
  !(Json.missing data "event_id" || Json.missing data "route_id" || Json.missing data "url")

/-- `_GLOBAL_SEMAPHORE`. -/
def maxConcurrent : ℕ := 50

inductive TaskPhase where
  /-- Created, not yet inside the semaphore. -/
  | waiting
  | running
  /-- `_deliver_with_retry` returned; `commit` is next. -/
  | returned
  | finished
  /-- `_dispatch` caught an exception; nothing is committed. -/
  | raised
  /-- Taken off the iterator, and then the stop flag was seen. -/
  | dropped
  deriving DecidableEq

namespace TaskPhase

def InSemaphore : TaskPhase → Bool
  | running | returned => true
  | _ => false

def Live : TaskPhase → Bool
  | waiting | running | returned => true
  | _ => false

/-- The delivery of the message has not returned in this process. -/
def Undelivered : TaskPhase → Bool
  | returned | finished => false
  | _ => true

end TaskPhase

/-- A well-formed message the running process has been handed. -/
structure Task where
  partition : ℕ
  offset : ℕ
  phase : TaskPhase

/-- `looping` says the `async for` goes on; `delivered` is history: the
messages whose delivery ever returned normally, in any process. -/
structure WorkerState where
  topic : ConsumerLog ℕ Message
  tasks : List Task := []
  up : Bool := true
  looping : Bool := true
  stop : Bool := false
  delivered : List (ℕ × ℕ) := []

inductive WorkerLabel where
  | produce (partition : ℕ) (data : Message)
  | signal
  | take (partition : ℕ)
  | acquire (i : ℕ)
  /-- `_deliver_with_retry`, or reading its arguments, returns or raises. -/
  | deliver (i : ℕ) (result : Except Exc Unit)
  | commit (i : ℕ) (result : Except Exc Unit)
  | close
  | crash
  | restart

namespace WorkerState

def setPhase (s : WorkerState) (i : ℕ) (task : Task) (phase : TaskPhase) : WorkerState :=
  { s with tasks := s.tasks.set i { task with phase := phase } }

/-- One turn of the `async for`. -/
def take (s : WorkerState) (p : ℕ) : Option WorkerState :=
  if s.up ∧ s.looping then
    (s.topic.take p).map (fun (data, topic) =>
      let task := fun phase : TaskPhase => (⟨p, s.topic.position p, phase⟩ : Task)
      if s.stop then
        { s with
          topic := topic
          looping := false
          tasks := if wellFormed data then s.tasks ++ [task .dropped] else s.tasks }
      else if wellFormed data then { s with topic := topic, tasks := s.tasks ++ [task .waiting] }
      else { s with topic := topic })
  else none

end WorkerState

/-- The task is at `phase`, and what it does next. -/
def WorkerState.at (s : WorkerState) (i : ℕ) (phase : TaskPhase)
    (next : Task → WorkerState) : Option WorkerState :=
  match s.tasks[i]? with
  | some task => if task.phase = phase then some (next task) else none
  | none => none

def workerNext (s : WorkerState) : WorkerLabel → Option WorkerState
  | .produce p data => some { s with topic := s.topic.append p data }
  | .signal => some { s with stop := true }
  | .take p => s.take p
  | .acquire i =>
      if s.tasks.countP (fun task => task.phase.InSemaphore) < maxConcurrent then
        s.at i .waiting (fun task => s.setPhase i task .running)
      else none
  | .deliver i result =>
      s.at i .running (fun task => match result with
        | .ok _ =>
            { s.setPhase i task .returned with
              delivered := s.delivered ++ [(task.partition, task.offset)] }
        | .error _ => s.setPhase i task .raised)
  | .commit i result =>
      s.at i .returned (fun task => match result with
        | .ok _ => { s.setPhase i task .finished with topic := s.topic.commit }
        | .error _ => s.setPhase i task .finished)
  | .close =>
      if s.up ∧ s.looping = false ∧ ∀ task ∈ s.tasks, task.phase.Live = false then
        some { s with up := false, tasks := [] }
      else none
  | .crash => if s.up then some { s with up := false, tasks := [] } else none
  | .restart =>
      if s.up then none
      else some { s with up := true, looping := true, stop := false, topic := s.topic.resume }

/-- The worker, its restarts and the producers of its topic. -/
def deliveryWorker : Machine WorkerState WorkerLabel where
  init := fun s => s = { topic := .empty }
  next := workerNext

/-! ## Committed and delivered -/

/-- A message that must have been delivered was. -/
def Done (delivered : List (ℕ × ℕ)) (p offset : ℕ) (data : Message) : Prop :=
  wellFormed data = true → (p, offset) ∈ delivered

/-- Below every committed offset, each well-formed message has been delivered
by a call that returned normally. -/
def CommittedDelivered (s : WorkerState) : Prop :=
  s.topic.AtLeastOnce (Done s.delivered)

/-- At a commit, no message the process took is undelivered: still waiting or
running, failed, or dropped at the stop check. A message an earlier process
had delivered does not count. -/
def SafeCommit (m : Move WorkerState WorkerLabel) : Prop :=
  match m.label with
  | .commit _ (.ok _) => ∀ task ∈ m.src.tasks, task.phase.Undelivered = true →
      (task.partition, task.offset) ∈ m.src.delivered
  | _ => True

structure WorkerInv (s : WorkerState) : Prop where
  ordered : s.topic.Ordered
  /-- Every task is about a well-formed message handed to this process. -/
  task_handed : ∀ task ∈ s.tasks, s.topic.Handed task.partition task.offset ∧
    ∃ data, (s.topic.log task.partition)[task.offset]? = some data ∧ wellFormed data = true
  /-- Every well-formed message handed to this process has a task. -/
  handed_task : s.up = true → ∀ p offset data, s.topic.Handed p offset →
    (s.topic.log p)[offset]? = some data → wellFormed data = true →
    ∃ task ∈ s.tasks, task.partition = p ∧ task.offset = offset
  delivered : ∀ task ∈ s.tasks, task.phase.Undelivered = false →
    (task.partition, task.offset) ∈ s.delivered
  down : s.up = false → s.tasks = []

/-! ## The invariant, step by step -/

theorem at_cases {s t : WorkerState} {i : ℕ} {phase : TaskPhase} {next : Task → WorkerState}
    (h : s.at i phase next = some t) :
    ∃ task, s.tasks[i]? = some task ∧ task.phase = phase ∧ t = next task := by
  unfold WorkerState.at at h
  split at h
  · rename_i task hget
    simp only [Option.ite_none_right_eq_some, Option.some.injEq] at h
    exact ⟨task, hget, h.1, h.2.symm⟩
  · cases h

/-- Changing the phase of a task keeps the tasks' messages. -/
theorem exists_mem_set {tasks : List Task} {i : ℕ} {task : Task} (hget : tasks[i]? = some task)
    (phase : TaskPhase) {other : Task} (hmem : other ∈ tasks) :
    ∃ task' ∈ tasks.set i { task with phase := phase },
      task'.partition = other.partition ∧ task'.offset = other.offset := by
  obtain ⟨j, hj, rfl⟩ := List.mem_iff_getElem.mp hmem
  obtain ⟨hi, hgeti⟩ := List.getElem?_eq_some_iff.mp hget
  refine ⟨(tasks.set i { task with phase := phase }).get ⟨j, by simpa using hj⟩,
    List.get_mem _ _, ?_⟩
  rw [List.get_eq_getElem, List.getElem_set]
  split
  · rename_i heq
    subst heq
    rw [hgeti]
    exact ⟨rfl, rfl⟩
  · exact ⟨rfl, rfl⟩

theorem WorkerInv.setPhase {s : WorkerState} (inv : WorkerInv s) {i : ℕ} {task : Task}
    (hget : s.tasks[i]? = some task) {phase : TaskPhase} {delivered : List (ℕ × ℕ)}
    (hsub : s.delivered ⊆ delivered)
    (hnew : phase.Undelivered = false → (task.partition, task.offset) ∈ delivered) :
    WorkerInv { s.setPhase i task phase with delivered := delivered } := by
  have hmem : task ∈ s.tasks := List.mem_of_getElem? hget
  refine ⟨inv.ordered, ?_, ?_, ?_, ?_⟩
  · intro other hother
    rcases List.mem_or_eq_of_mem_set hother with hold | rfl
    · exact inv.task_handed other hold
    · exact inv.task_handed task hmem
  · intro hup p offset data hhanded hdata hwf
    obtain ⟨other, hother, rfl, rfl⟩ := inv.handed_task hup p offset data hhanded hdata hwf
    exact exists_mem_set hget phase hother
  · intro other hother hphase
    rcases List.mem_or_eq_of_mem_set hother with hold | rfl
    · exact hsub (inv.delivered other hold hphase)
    · exact hnew hphase
  · intro hdown
    rw [inv.down hdown] at hmem
    cases hmem

theorem WorkerInv.commit {s : WorkerState} (inv : WorkerInv s) :
    WorkerInv { s with topic := s.topic.commit } :=
  ⟨inv.ordered.commit, inv.task_handed, inv.handed_task, inv.delivered, inv.down⟩

/-- The process is handed a message; `tasks` gains a task for it if and only
if it is well-formed. -/
theorem WorkerInv.take {s : WorkerState} (inv : WorkerInv s) (hup : s.up = true) {p : ℕ}
    {data : Message} {topic : ConsumerLog ℕ Message} (hstep : s.topic.take p = some (data, topic))
    {looping : Bool} {phase : TaskPhase} (hphase : phase.Undelivered = true) :
    WorkerInv { s with
      topic := topic
      looping := looping
      tasks := if wellFormed data then s.tasks ++ [⟨p, s.topic.position p, phase⟩]
        else s.tasks } := by
  obtain ⟨hget, htopic⟩ := ConsumerLog.take_cases hstep
  have hhanded := ConsumerLog.handed_take_iff inv.ordered hstep
  have hlog : topic.log = s.topic.log := by rw [htopic]
  -- the only task that may be new is that of the message
  have hcases : ∀ task ∈ (if wellFormed data then s.tasks ++ [⟨p, s.topic.position p, phase⟩]
      else s.tasks), task ∈ s.tasks ∨
        (wellFormed data = true ∧ task = ⟨p, s.topic.position p, phase⟩) := by
    intro task htask
    split at htask
    · rename_i hwf
      rcases List.mem_append.mp htask with hold | hnew
      · exact Or.inl hold
      · exact Or.inr ⟨hwf, List.mem_singleton.mp hnew⟩
    · exact Or.inl htask
  refine ⟨inv.ordered.take hstep, ?_, ?_, ?_, ?_⟩
  · intro task htask
    rw [hhanded, hlog]
    rcases hcases task htask with hold | ⟨hwf, rfl⟩
    · obtain ⟨h, hdata⟩ := inv.task_handed task hold
      exact ⟨Or.inl h, hdata⟩
    · exact ⟨Or.inr ⟨rfl, rfl⟩, data, hget, hwf⟩
  · intro _ q offset data' hq hdata hwf
    rw [hhanded] at hq
    rw [hlog] at hdata
    rcases hq with hold | ⟨rfl, rfl⟩
    · obtain ⟨task, htask, hrest⟩ := inv.handed_task hup q offset data' hold hdata hwf
      refine ⟨task, ?_, hrest⟩
      split
      · exact List.mem_append_left _ htask
      · exact htask
    · rw [hget, Option.some.injEq] at hdata
      subst hdata
      exact ⟨⟨q, s.topic.position q, phase⟩, by simp [hwf], rfl, rfl⟩
  · intro task htask hundelivered
    rcases hcases task htask with hold | ⟨_, rfl⟩
    · exact inv.delivered task hold hundelivered
    · rw [hphase] at hundelivered
      cases hundelivered
  · intro hdown
    rw [hup] at hdown
    cases hdown

theorem WorkerInv.produce {s : WorkerState} (inv : WorkerInv s) (p : ℕ) (data : Message) :
    WorkerInv { s with topic := s.topic.append p data } := by
  have hget : ∀ {q offset}, s.topic.Handed q offset →
      ((s.topic.append p data).log q)[offset]? = (s.topic.log q)[offset]? :=
    fun hhanded => inv.ordered.getElem?_append_of_handed p data hhanded
  refine ⟨inv.ordered.append p data, ?_, ?_, inv.delivered, inv.down⟩
  · intro task htask
    obtain ⟨hhanded, data', hdata, hwf⟩ := inv.task_handed task htask
    exact ⟨hhanded, data', (hget hhanded).trans hdata, hwf⟩
  · intro hup q offset data' hhanded hdata hwf
    exact inv.handed_task hup q offset data' hhanded ((hget hhanded).symm.trans hdata) hwf

theorem WorkerInv.gone {s : WorkerState} (inv : WorkerInv s) :
    WorkerInv { s with up := false, tasks := [] } := by
  refine ⟨inv.ordered, ?_, ?_, ?_, fun _ => rfl⟩
  · intro task htask
    cases htask
  · intro hup
    cases hup
  · intro task htask
    cases htask

theorem WorkerInv.restart {s : WorkerState} (inv : WorkerInv s) (hdown : s.up = false) :
    WorkerInv { s with up := true, looping := true, stop := false, topic := s.topic.resume } := by
  have htasks := inv.down hdown
  refine ⟨inv.ordered.resume, ?_, ?_, inv.delivered, ?_⟩
  · intro task htask
    rw [htasks] at htask
    cases htask
  · intro _ p offset data hhanded
    exact absurd hhanded (ConsumerLog.not_handed_resume p offset)
  · intro hup
    cases hup

theorem workerInv_next {s t : WorkerState} {label : WorkerLabel} (inv : WorkerInv s)
    (hstep : workerNext s label = some t) : WorkerInv t := by
  cases label with
  | produce p data =>
      cases hstep
      exact inv.produce p data
  | signal =>
      cases hstep
      exact ⟨inv.ordered, inv.task_handed, inv.handed_task, inv.delivered, inv.down⟩
  | take p =>
      simp only [workerNext, WorkerState.take, Option.ite_none_right_eq_some,
        Option.map_eq_some_iff,
        Prod.exists] at hstep
      obtain ⟨⟨hup, _⟩, data, topic, htake, rfl⟩ := hstep
      split
      · exact inv.take hup htake rfl
      · have h : WorkerInv { s with
            topic := topic
            looping := s.looping
            tasks := if wellFormed data then s.tasks ++ [⟨p, s.topic.position p, .waiting⟩]
              else s.tasks } := inv.take hup htake rfl
        split
        · rename_i hwf
          rwa [if_pos hwf] at h
        · rename_i hwf
          rwa [if_neg hwf] at h
  | acquire i =>
      simp only [workerNext, Option.ite_none_right_eq_some] at hstep
      obtain ⟨task, hget, _, rfl⟩ := at_cases hstep.2
      exact inv.setPhase hget (List.Subset.refl _) (by intro h; cases h)
  | deliver i result =>
      obtain ⟨task, hget, _, rfl⟩ := at_cases hstep
      cases result with
      | ok _ => exact inv.setPhase hget (List.subset_append_left _ _) (by simp)
      | error exc => exact inv.setPhase hget (List.Subset.refl _) (by intro h; cases h)
  | commit i result =>
      obtain ⟨task, hget, hphase, rfl⟩ := at_cases hstep
      have hdelivered := inv.delivered task (List.mem_of_getElem? hget) (by rw [hphase]; rfl)
      have hfinished : WorkerInv (s.setPhase i task .finished) :=
        inv.setPhase hget (List.Subset.refl _) (fun _ => hdelivered)
      cases result with
      | ok _ => exact hfinished.commit
      | error exc => exact hfinished
  | close =>
      simp only [workerNext, Option.ite_none_right_eq_some, Option.some.injEq] at hstep
      obtain ⟨_, rfl⟩ := hstep
      exact inv.gone
  | crash =>
      simp only [workerNext, Option.ite_none_right_eq_some, Option.some.injEq] at hstep
      obtain ⟨_, rfl⟩ := hstep
      exact inv.gone
  | restart =>
      simp only [workerNext] at hstep
      split at hstep
      · cases hstep
      · rename_i hdown
        cases hstep
        exact inv.restart (by simpa using hdown)

theorem workerInv_init {s : WorkerState} (h : deliveryWorker.init s) : WorkerInv s := by
  rw [h]
  refine ⟨ConsumerLog.ordered_empty, ?_, ?_, ?_, fun _ => rfl⟩
  · intro task htask
    cases htask
  · intro _ p offset data hhanded
    exact absurd hhanded.2 (Nat.not_lt_zero _)
  · intro task htask
    cases htask

/-! ## Which commits are safe -/

/-- A commit of the whole consumer keeps the promise exactly when every
message it covers has been delivered. -/
theorem committedDelivered_commit_iff {s : WorkerState} (inv : WorkerInv s) (hup : s.up = true)
    (before : CommittedDelivered s) :
    s.topic.commit.AtLeastOnce (Done s.delivered) ↔
      ∀ task ∈ s.tasks, task.phase.Undelivered = true →
        (task.partition, task.offset) ∈ s.delivered := by
  rw [ConsumerLog.atLeastOnce_commit_iff inv.ordered before]
  constructor
  · intro hall task htask _
    obtain ⟨hhanded, data, hdata, hwf⟩ := inv.task_handed task htask
    exact hall _ _ data hhanded hdata hwf
  · intro hall p offset data hhanded hdata hwf
    obtain ⟨task, htask, rfl, rfl⟩ := inv.handed_task hup p offset data hhanded hdata hwf
    by_cases hphase : task.phase.Undelivered = true
    · exact hall task htask hphase
    · exact inv.delivered task htask (by simpa using hphase)

theorem committedDelivered_next {s t : WorkerState} {label : WorkerLabel} (inv : WorkerInv s)
    (before : CommittedDelivered s) (hstep : workerNext s label = some t) :
    CommittedDelivered t ↔ SafeCommit ⟨s, label, t⟩ := by
  cases label with
  | produce p data =>
      cases hstep
      exact iff_of_true (before.append inv.ordered p data) trivial
  | signal =>
      cases hstep
      exact iff_of_true before trivial
  | take p =>
      simp only [workerNext, WorkerState.take, Option.ite_none_right_eq_some,
        Option.map_eq_some_iff,
        Prod.exists] at hstep
      obtain ⟨_, data, topic, htake, rfl⟩ := hstep
      obtain ⟨_, rfl⟩ := ConsumerLog.take_cases htake
      refine iff_of_true ?_ trivial
      split
      · exact before
      · split <;> exact before
  | acquire i =>
      simp only [workerNext, Option.ite_none_right_eq_some] at hstep
      obtain ⟨task, _, _, rfl⟩ := at_cases hstep.2
      exact iff_of_true before trivial
  | deliver i result =>
      obtain ⟨task, _, _, rfl⟩ := at_cases hstep
      refine iff_of_true ?_ trivial
      cases result with
      | ok _ =>
          refine before.mono ?_
          intro p offset data _ hdone hwf
          exact List.mem_append_left _ (hdone hwf)
      | error exc => exact before
  | commit i result =>
      obtain ⟨task, hget, hphase, rfl⟩ := at_cases hstep
      cases result with
      | ok _ =>
          have hup : s.up = true := by
            by_contra hdown
            have hnone := inv.down (by simpa using hdown)
            rw [hnone] at hget
            cases hget
          exact committedDelivered_commit_iff inv hup before
      | error exc => exact iff_of_true before trivial
  | close =>
      simp only [workerNext, Option.ite_none_right_eq_some, Option.some.injEq] at hstep
      obtain ⟨_, rfl⟩ := hstep
      exact iff_of_true before trivial
  | crash =>
      simp only [workerNext, Option.ite_none_right_eq_some, Option.some.injEq] at hstep
      obtain ⟨_, rfl⟩ := hstep
      exact iff_of_true before trivial
  | restart =>
      simp only [workerNext] at hstep
      split at hstep
      · cases hstep
      · cases hstep
        exact iff_of_true before trivial

/-- A run of the worker keeps every committed message delivered, in every
state it visits, exactly when each successful commit happens while no message
the process took is undelivered. -/
theorem committed_safe_iff {s t : WorkerState} {moves : List (Move WorkerState WorkerLabel)}
    (hinit : deliveryWorker.init s) (run : deliveryWorker.Run s moves t) :
    (∀ v, Machine.Visited s moves v → CommittedDelivered v) ↔ ∀ m ∈ moves, SafeCommit m := by
  have hstart : CommittedDelivered s := by
    rw [hinit]
    intro p offset data hlt
    exact absurd hlt (Nat.not_lt_zero _)
  exact run.forall_visited_iff (fun _ _ _ => workerInv_next) (fun _ _ _ => committedDelivered_next)
    (workerInv_init hinit) hstart

/-! ## A lost message -/

def wellFormedMessage : Message :=
  [("event_id", .str "e"), ("route_id", .str "r"), ("url", .str "https://example.com")]

/-- Two messages are in flight; the second one's delivery returns first, and
its commit covers both. -/
def overtakingRun : List WorkerLabel :=
  [.produce 0 wellFormedMessage, .produce 0 wellFormedMessage, .take 0, .take 0, .acquire 0,
    .acquire 1, .deliver 1 (.ok ()), .commit 1 (.ok ())]

def overtakenWorker : WorkerState := deliveryWorker.after { topic := .empty } overtakingRun

theorem exec_overtakingRun :
    deliveryWorker.exec { topic := .empty } overtakingRun = some overtakenWorker := rfl

theorem not_committedDelivered_overtakenWorker : ¬ CommittedDelivered overtakenWorker := by
  intro h
  have hdone := h 0 0 wellFormedMessage (by decide) rfl rfl
  have hnot : ((0, 0) : ℕ × ℕ) ∉ overtakenWorker.delivered := by decide
  exact hnot hdone

theorem overtaken_message_committed :
    ¬ ∀ s, deliveryWorker.Reachable s → CommittedDelivered s := by
  intro h
  have hinit : deliveryWorker.init { topic := .empty } := rfl
  exact not_committedDelivered_overtakenWorker
    (h _ (Machine.reachable_of_exec hinit exec_overtakingRun))

theorem some_commit_of_overtakingRun_unsafe :
    ∃ moves, deliveryWorker.Run { topic := .empty } moves overtakenWorker ∧
      moves.map Move.label = overtakingRun ∧ ∃ m ∈ moves, ¬ SafeCommit m := by
  obtain ⟨moves, run, hlabels⟩ := Machine.exists_run_of_exec exec_overtakingRun
  refine ⟨moves, run, hlabels, ?_⟩
  by_contra hnone
  have hmoves : ∀ m ∈ moves, SafeCommit m := by
    intro m hm
    by_contra hunsafe
    exact hnone ⟨m, hm, hunsafe⟩
  have hall := (committed_safe_iff rfl run).mpr hmoves
  exact not_committedDelivered_overtakenWorker (hall _ run.visited_last)

end WebhookRelay.Delivery
