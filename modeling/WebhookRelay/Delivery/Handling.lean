import WebhookRelay.Delivery.Consumer

/-!
# One process, one delivery

How often a message is delivered: once for each start of the worker at most,
by one of at most fifty calls at a time. After the stop flag is seen the tasks
run to their end in whatever order, none of them waits for ever at the
semaphore, and then the worker closes.
-/

namespace WebhookRelay.Delivery

open Foundation

abbrev WorkerMove := Move WorkerState WorkerLabel

def Task.place (task : Task) : ℕ × ℕ := (task.partition, task.offset)

/-- What a task still has to go through. -/
def TaskPhase.stepsLeft : TaskPhase → ℕ
  | waiting => 3
  | running => 2
  | returned => 1
  | finished | raised | dropped => 0

def WorkerState.stepsLeft (s : WorkerState) : ℕ :=
  (s.tasks.map (fun task => task.phase.stepsLeft)).sum

def WorkerState.stepsLeftOf (s : WorkerState) (i : ℕ) : ℕ :=
  (s.tasks[i]?.map (fun task => task.phase.stepsLeft)).getD 0

/-- The steps that tasks take. -/
def WorkerLabel.OfTask : WorkerLabel → Prop
  | .acquire _ | .deliver _ _ | .commit _ _ => True
  | _ => False

/-- The task whose step it is. -/
def WorkerLabel.task : WorkerLabel → Option ℕ
  | .acquire i | .deliver i _ | .commit i _ => some i
  | _ => none

/-- What holds of the tasks whenever the process stands. -/
structure HandlingInv (s : WorkerState) : Prop where
  worker : WorkerInv s
  places : (s.tasks.map Task.place).Nodup
  semaphore : s.tasks.countP (fun task => task.phase.InSemaphore) ≤ maxConcurrent

variable {s t : WorkerState} {i : ℕ} {task : Task} {phase : TaskPhase}

/-! ## A task goes on -/

theorem map_place_setPhase (hget : s.tasks[i]? = some task) (phase : TaskPhase) :
    (s.setPhase i task phase).tasks.map Task.place = s.tasks.map Task.place := by
  obtain ⟨hi, rfl⟩ := List.getElem?_eq_some_iff.mp hget
  unfold WorkerState.setPhase
  rw [List.map_set]
  show (s.tasks.map Task.place).set i s.tasks[i].place = _
  rw [← List.getElem_map Task.place (h := by simpa using hi), List.set_getElem_self]

/-- One task changes what it counts for. -/
theorem countP_setPhase (hget : s.tasks[i]? = some task) (phase : TaskPhase) (p : Task → Bool) :
    (s.setPhase i task phase).tasks.countP p + (p task).toNat =
      s.tasks.countP p + (p { task with phase := phase }).toNat := by
  obtain ⟨hi, rfl⟩ := List.getElem?_eq_some_iff.mp hget
  have hpos : p s.tasks[i] = true → 0 < s.tasks.countP p :=
    fun h => List.countP_pos_iff.mpr ⟨_, List.getElem_mem hi, h⟩
  unfold WorkerState.setPhase
  rw [List.countP_set hi]
  cases hold : p s.tasks[i]
  · cases p { s.tasks[i] with phase := phase } <;> simp
  · have := hpos hold
    cases p { s.tasks[i] with phase := phase } <;> simp <;> omega

/-- A task's step: one task goes on, into the semaphore only if there is room. -/
theorem task_cases {label : WorkerLabel} (hstep : workerNext s label = some t)
    (hlabel : label.OfTask) :
    ∃ i task phase, label.task = some i ∧ s.tasks[i]? = some task ∧
      t.tasks = (s.setPhase i task phase).tasks ∧ t.up = s.up ∧ t.looping = s.looping ∧
      phase.stepsLeft < task.phase.stepsLeft ∧
      (phase.InSemaphore = true → task.phase.InSemaphore = true ∨
        s.tasks.countP (fun task => task.phase.InSemaphore) < maxConcurrent) := by
  cases label with
  | acquire i =>
      simp only [workerNext, Option.ite_none_right_eq_some] at hstep
      obtain ⟨task, hget, hphase, rfl⟩ := at_cases hstep.2
      exact ⟨i, task, .running, rfl, hget, rfl, rfl, rfl, by rw [hphase]; decide,
        fun _ => Or.inr hstep.1⟩
  | deliver i result =>
      obtain ⟨task, hget, hphase, rfl⟩ := at_cases hstep
      have hinside : task.phase.InSemaphore = true := by rw [hphase]; rfl
      cases result with
      | ok _ =>
          exact ⟨i, task, .returned, rfl, hget, rfl, rfl, rfl, by rw [hphase]; decide,
            fun _ => Or.inl hinside⟩
      | error exc =>
          exact ⟨i, task, .raised, rfl, hget, rfl, rfl, rfl, by rw [hphase]; decide,
            fun _ => Or.inl hinside⟩
  | commit i result =>
      obtain ⟨task, hget, hphase, rfl⟩ := at_cases hstep
      have hinside : task.phase.InSemaphore = true := by rw [hphase]; rfl
      have hlt : TaskPhase.stepsLeft .finished < task.phase.stepsLeft := by rw [hphase]; decide
      cases result with
      | ok _ => exact ⟨i, task, .finished, rfl, hget, rfl, rfl, rfl, hlt, fun _ => Or.inl hinside⟩
      | error exc =>
          exact ⟨i, task, .finished, rfl, hget, rfl, rfl, rfl, hlt, fun _ => Or.inl hinside⟩
  | produce | signal | take | close | crash | restart => exact hlabel.elim

/-- A process that takes a message has a new task, or the message is malformed. -/
theorem take_cases {p : ℕ} (hstep : s.take p = some t) :
    s.up = true ∧ s.looping = true ∧ ∃ topic,
      (∃ looping, t = { s with topic := topic, looping := looping }) ∨
        ∃ phase looping,
          (phase = .waiting ∧ looping = true ∨ phase = .dropped ∧ looping = false) ∧
          t = { s with
            topic := topic
            looping := looping
            tasks := s.tasks ++ [⟨p, s.topic.position p, phase⟩] } := by
  simp only [WorkerState.take, Option.ite_none_right_eq_some, Option.map_eq_some_iff,
    Prod.exists] at hstep
  obtain ⟨⟨hup, hlooping⟩, data, topic, _, rfl⟩ := hstep
  refine ⟨hup, hlooping, topic, ?_⟩
  by_cases hstop : s.stop = true
  · rw [if_pos hstop]
    by_cases hwf : wellFormed data = true
    · rw [if_pos hwf]
      exact Or.inr ⟨.dropped, false, Or.inr ⟨rfl, rfl⟩, rfl⟩
    · rw [if_neg hwf]
      exact Or.inl ⟨false, rfl⟩
  · rw [if_neg hstop]
    by_cases hwf : wellFormed data = true
    · rw [if_pos hwf]
      exact Or.inr ⟨.waiting, s.looping, Or.inl ⟨rfl, hlooping⟩, rfl⟩
    · rw [if_neg hwf]
      exact Or.inl ⟨s.looping, rfl⟩

/-- No task has the place a process takes its next message from. -/
theorem place_notMem (inv : WorkerInv s) (p : ℕ) :
    (p, s.topic.position p) ∉ s.tasks.map Task.place := by
  intro hmem
  obtain ⟨task, htask, hplace⟩ := List.mem_map.mp hmem
  obtain ⟨rfl, hoffset⟩ := Prod.mk.inj hplace
  exact absurd hoffset (inv.task_handed task htask).1.2.ne

namespace HandlingInv

/-- A task goes on, and takes a place in the semaphore only if one is free. -/
theorem setPhase (h : HandlingInv s) (hget : s.tasks[i]? = some task) (phase : TaskPhase)
    (hworker : WorkerInv t) (htasks : t.tasks = (s.setPhase i task phase).tasks)
    (hsemaphore : phase.InSemaphore = true → task.phase.InSemaphore = true ∨
      s.tasks.countP (fun task => task.phase.InSemaphore) < maxConcurrent) :
    HandlingInv t := by
  refine ⟨hworker, ?_, ?_⟩
  · rw [htasks, map_place_setPhase hget]
    exact h.places
  · have hcount := countP_setPhase hget phase (fun task => task.phase.InSemaphore)
    have hbound := h.semaphore
    rw [htasks]
    cases hin : phase.InSemaphore
    · simp only [hin, Bool.toNat_false] at hcount
      omega
    · simp only [hin, Bool.toNat_true] at hcount
      rcases hsemaphore hin with hbefore | hroom
      · simp only [hbefore, Bool.toNat_true] at hcount
        omega
      · omega

/-- A task for a message the process had not been handed before. -/
theorem append (h : HandlingInv s) {topic : ConsumerLog ℕ Message} {looping : Bool}
    (hworker : WorkerInv { s with topic := topic, looping := looping, tasks := s.tasks ++ [task] })
    (hfresh : task.place ∉ s.tasks.map Task.place) (hout : task.phase.InSemaphore = false) :
    HandlingInv { s with topic := topic, looping := looping, tasks := s.tasks ++ [task] } := by
  refine ⟨hworker, ?_, ?_⟩
  · show ((s.tasks ++ [task]).map Task.place).Nodup
    rw [List.map_append, List.map_singleton]
    exact h.places.append (List.nodup_singleton _) (by simpa using hfresh)
  · show (s.tasks ++ [task]).countP (fun task => task.phase.InSemaphore) ≤ maxConcurrent
    rw [List.countP_append, List.countP_singleton, hout]
    exact h.semaphore

theorem take (h : HandlingInv s) {p : ℕ} (hstep : s.take p = some t) (hworker : WorkerInv t) :
    HandlingInv t := by
  obtain ⟨_, _, topic, ⟨looping, rfl⟩ | ⟨phase, looping, hphase, rfl⟩⟩ := take_cases hstep
  · exact ⟨hworker, h.places, h.semaphore⟩
  · refine h.append hworker (place_notMem h.worker p) ?_
    rcases hphase with ⟨rfl, _⟩ | ⟨rfl, _⟩ <;> rfl

/-- A process without tasks. -/
theorem idle (hworker : WorkerInv s) (htasks : s.tasks = []) : HandlingInv s := by
  refine ⟨hworker, ?_, ?_⟩ <;> rw [htasks]
  · exact List.nodup_nil
  · exact Nat.zero_le _

theorem next (h : HandlingInv s) {label : WorkerLabel} (hstep : workerNext s label = some t) :
    HandlingInv t := by
  have hworker := workerInv_next h.worker hstep
  cases label with
  | produce p data =>
      cases hstep
      exact ⟨hworker, h.places, h.semaphore⟩
  | signal =>
      cases hstep
      exact ⟨hworker, h.places, h.semaphore⟩
  | take p => exact h.take hstep hworker
  | acquire | deliver | commit =>
      obtain ⟨i, task, phase, _, hget, htasks, _, _, _, hsemaphore⟩ := task_cases hstep trivial
      exact h.setPhase hget phase hworker htasks hsemaphore
  | close =>
      simp only [workerNext, Option.ite_none_right_eq_some, Option.some.injEq] at hstep
      obtain ⟨_, rfl⟩ := hstep
      exact .idle hworker rfl
  | crash =>
      simp only [workerNext, Option.ite_none_right_eq_some, Option.some.injEq] at hstep
      obtain ⟨_, rfl⟩ := hstep
      exact .idle hworker rfl
  | restart =>
      simp only [workerNext] at hstep
      split at hstep
      · cases hstep
      · cases hstep
        exact ⟨hworker, h.places, h.semaphore⟩

end HandlingInv

theorem handlingInv_reachable (hreach : deliveryWorker.Reachable s) : HandlingInv s := by
  refine hreach.invariant ?_ (fun s a t h hstep => h.next hstep)
  intro s hinit
  have hworker := workerInv_init hinit
  rw [hinit] at hworker ⊢
  exact .idle hworker rfl

/-! ## What a process makes of its messages -/

/-- The steps of a process from its start up to its end. -/
def WorkerLabel.OfProcess : WorkerLabel → Prop
  | .close | .crash | .restart => False
  | _ => True

/-- The tasks of a process account for what was delivered since `before`. The
loop ends with the one message it drops. -/
structure Tally (before : List (ℕ × ℕ)) (s : WorkerState) : Prop where
  up : s.up = true
  own : ∀ task ∈ s.tasks, s.delivered.count task.place =
    before.count task.place + (!task.phase.Undelivered).toNat
  others : ∀ x ∉ s.tasks.map Task.place, s.delivered.count x = before.count x
  dropped : s.tasks.countP (fun task => task.phase = .dropped) + s.looping.toNat ≤ 1

variable {before delivered : List (ℕ × ℕ)}

namespace Tally

/-- A process that has no task yet. -/
theorem start (hup : s.up = true) (htasks : s.tasks = []) : Tally s.delivered s := by
  refine ⟨hup, ?_, fun _ _ => rfl, ?_⟩ <;> rw [htasks]
  · intro task htask
    cases htask
  · rw [List.countP_nil, Nat.zero_add]
    exact Bool.toNat_le s.looping

/-- A task goes on; the deliveries of the others stay as they are. -/
theorem setPhase (h : Tally before s) (places : (s.tasks.map Task.place).Nodup)
    (hget : s.tasks[i]? = some task)
    (hown : delivered.count task.place = before.count task.place + (!phase.Undelivered).toNat)
    (hothers : ∀ x ≠ task.place, delivered.count x = s.delivered.count x)
    (hphase : phase ≠ .dropped) :
    Tally before { s.setPhase i task phase with delivered := delivered } := by
  have hmap := map_place_setPhase hget phase
  have hplaces : ((s.setPhase i task phase).tasks.map Task.place).Nodup := by rwa [hmap]
  have hnew : { task with phase := phase } ∈ (s.setPhase i task phase).tasks := by
    obtain ⟨hi, rfl⟩ := List.getElem?_eq_some_iff.mp hget
    exact List.mem_set hi _
  refine ⟨h.up, ?_, ?_, ?_⟩
  · intro other hother
    by_cases hplace : other.place = task.place
    · obtain rfl := List.inj_on_of_nodup_map hplaces hother hnew hplace
      exact hown
    · have hold : other ∈ s.tasks := by
        rcases List.mem_or_eq_of_mem_set hother with hold | rfl
        · exact hold
        · exact absurd rfl hplace
      exact (hothers _ hplace).trans (h.own other hold)
  · intro x hx
    have hold : x ∉ s.tasks.map Task.place := hmap ▸ hx
    have hne : x ≠ task.place := by
      rintro rfl
      exact hold (List.mem_map_of_mem (List.mem_of_getElem? hget))
    exact (hothers x hne).trans (h.others x hold)
  · have hcount := countP_setPhase hget phase (fun task => task.phase = .dropped)
    have hbefore := h.dropped
    simp only [hphase, decide_false, Bool.toNat_false, Nat.add_zero] at hcount
    show (s.setPhase i task phase).tasks.countP _ + s.looping.toNat ≤ 1
    omega

/-- A step that leaves the deliveries as they are. -/
theorem quiet (h : Tally before s) (places : (s.tasks.map Task.place).Nodup)
    (hget : s.tasks[i]? = some task) (hundelivered : phase.Undelivered = task.phase.Undelivered)
    (hphase : phase ≠ .dropped) : Tally before (s.setPhase i task phase) :=
  h.setPhase places hget (hundelivered ▸ h.own task (List.mem_of_getElem? hget)) (fun _ _ => rfl)
    hphase

theorem append (h : Tally before s) {topic : ConsumerLog ℕ Message} {looping : Bool}
    (hfresh : task.place ∉ s.tasks.map Task.place) (hundelivered : task.phase.Undelivered = true)
    (hdropped : (decide (task.phase = .dropped)).toNat + looping.toNat ≤ s.looping.toNat) :
    Tally before { s with topic := topic, looping := looping, tasks := s.tasks ++ [task] } := by
  refine ⟨h.up, ?_, ?_, ?_⟩
  · intro other hother
    rcases List.mem_append.mp hother with hold | hnew
    · exact h.own other hold
    · obtain rfl := List.mem_singleton.mp hnew
      rw [hundelivered]
      exact h.others _ hfresh
  · intro x hx
    rw [List.map_append] at hx
    exact h.others x (fun hold => hx (List.mem_append_left _ hold))
  · have hbefore := h.dropped
    show (s.tasks ++ [task]).countP (fun task => task.phase = .dropped) + looping.toNat ≤ 1
    rw [List.countP_append, List.countP_singleton]
    cases hcase : decide (task.phase = .dropped)
    · rw [hcase, Bool.toNat_false] at hdropped
      simp only [Bool.false_eq_true, if_false]
      omega
    · rw [hcase, Bool.toNat_true] at hdropped
      simp only [if_true]
      omega

theorem take (h : Tally before s) (inv : WorkerInv s) {p : ℕ} (hstep : s.take p = some t) :
    Tally before t := by
  obtain ⟨_, hlooping, topic, ⟨looping, rfl⟩ | ⟨phase, looping, hphase, rfl⟩⟩ := take_cases hstep
  · have hbefore := h.dropped
    rw [hlooping, Bool.toNat_true] at hbefore
    refine ⟨h.up, h.own, h.others, ?_⟩
    have hle : looping.toNat ≤ 1 := Bool.toNat_le looping
    show s.tasks.countP _ + looping.toNat ≤ 1
    omega
  · rcases hphase with ⟨rfl, rfl⟩ | ⟨rfl, rfl⟩
    · exact h.append (place_notMem inv p) rfl (by rw [hlooping]; exact le_rfl)
    · exact h.append (place_notMem inv p) rfl (by rw [hlooping]; exact le_rfl)

theorem next (h : Tally before s) (inv : WorkerInv s) (places : (s.tasks.map Task.place).Nodup)
    {label : WorkerLabel} (hlabel : label.OfProcess) (hstep : workerNext s label = some t) :
    Tally before t := by
  cases label with
  | produce p data =>
      cases hstep
      exact ⟨h.up, h.own, h.others, h.dropped⟩
  | signal =>
      cases hstep
      exact ⟨h.up, h.own, h.others, h.dropped⟩
  | take p => exact h.take inv hstep
  | acquire i =>
      simp only [workerNext, Option.ite_none_right_eq_some] at hstep
      obtain ⟨task, hget, hphase, rfl⟩ := at_cases hstep.2
      exact h.quiet places hget (by rw [hphase]; rfl) (by decide)
  | deliver i result =>
      obtain ⟨task, hget, hphase, rfl⟩ := at_cases hstep
      cases result with
      | ok _ =>
          -- the one step that delivers: of a task that had not
          have hown := h.own task (List.mem_of_getElem? hget)
          rw [hphase] at hown
          refine h.setPhase places hget ?_ ?_ (by decide)
          · show (s.delivered ++ [task.place]).count task.place = _
            rw [List.count_append, hown, List.count_singleton_self]
            rfl
          · intro x hx
            show (s.delivered ++ [task.place]).count x = _
            rw [List.count_append, List.count_singleton, if_neg (by simpa using hx.symm),
              Nat.add_zero]
      | error exc => exact h.quiet places hget (by rw [hphase]; rfl) (by decide)
  | commit i result =>
      obtain ⟨task, hget, hphase, rfl⟩ := at_cases hstep
      have hkept : Tally before (s.setPhase i task .finished) :=
        h.quiet places hget (by rw [hphase]; rfl) (by decide)
      cases result with
      | ok _ => exact ⟨hkept.up, hkept.own, hkept.others, hkept.dropped⟩
      | error exc => exact hkept
  | close | crash | restart => exact hlabel.elim

end Tally

theorem tally_run {moves : List WorkerMove} (hreach : deliveryWorker.Reachable s)
    (h : Tally before s) (run : deliveryWorker.Run s moves t)
    (hprocess : ∀ m ∈ moves, m.label.OfProcess) : Tally before t := by
  induction run with
  | nil => exact h
  | @snoc moves u a v hrun hstep ih =>
      have hinv := handlingInv_reachable (hrun.reachable hreach)
      have htally := ih (fun m hm => hprocess m (List.mem_append_left _ hm))
      have hlast : a.OfProcess :=
        hprocess ⟨u, a, v⟩ (List.mem_append_right _ (List.mem_singleton_self _))
      exact htally.next hinv.worker hinv.places hlast hstep

theorem up_next {label : WorkerLabel} (hprocess : label.OfProcess)
    (hstep : workerNext s label = some t) : t.up = s.up := by
  cases label with
  | produce p data =>
      cases hstep
      rfl
  | signal =>
      cases hstep
      rfl
  | take p => obtain ⟨_, _, topic, ⟨_, rfl⟩ | ⟨_, _, _, rfl⟩⟩ := take_cases hstep <;> rfl
  | acquire | deliver | commit =>
      obtain ⟨_, _, _, _, _, _, hup, _⟩ := task_cases hstep trivial
      exact hup
  | close | crash | restart => exact hprocess.elim

/-- A process that runs has a tally since its start. -/
theorem exists_tally (hreach : deliveryWorker.Reachable s) (hup : s.up = true) :
    ∃ before, Tally before s := by
  induction hreach with
  | start hinit =>
      rw [hinit]
      exact ⟨_, .start rfl rfl⟩
  | @step s label t hreach hstep ih =>
      change workerNext s label = some t at hstep
      by_cases hprocess : label.OfProcess
      · obtain ⟨before, h⟩ := ih ((up_next hprocess hstep).symm.trans hup)
        have hinv := handlingInv_reachable hreach
        exact ⟨before, h.next hinv.worker hinv.places hprocess hstep⟩
      · cases label with
        | close | crash =>
            simp only [workerNext, Option.ite_none_right_eq_some, Option.some.injEq] at hstep
            obtain ⟨_, rfl⟩ := hstep
            cases hup
        | restart =>
            simp only [workerNext] at hstep
            split at hstep
            · cases hstep
            · rename_i hdown
              cases hstep
              have htasks := (handlingInv_reachable hreach).worker.down (by simpa using hdown)
              exact ⟨_, .start rfl htasks⟩
        | produce | signal | take | acquire | deliver | commit => exact absurd trivial hprocess

/-- What a process has delivered of a message since its start. -/
theorem Tally.count_le (h : Tally before s) (x : ℕ × ℕ) :
    before.count x ≤ s.delivered.count x ∧ s.delivered.count x ≤ before.count x + 1 := by
  by_cases hx : x ∈ s.tasks.map Task.place
  · obtain ⟨task, htask, rfl⟩ := List.mem_map.mp hx
    have hown := h.own task htask
    have hle := Bool.toNat_le (!task.phase.Undelivered)
    omega
  · have hsame := h.others x hx
    omega

/-- From its start, or any later moment, to its end a process delivers a message
at most once, and never more than fifty at a time. -/
theorem delivered_once_per_start {moves : List WorkerMove} (hreach : deliveryWorker.Reachable s)
    (hup : s.up = true) (run : deliveryWorker.Run s moves t)
    (hprocess : ∀ m ∈ moves, m.label.OfProcess) :
    (∀ x, t.delivered.count x ≤ s.delivered.count x + 1) ∧
      t.tasks.countP (fun task => task.phase.InSemaphore) ≤ 50 := by
  obtain ⟨before, h⟩ := exists_tally hreach hup
  have htally := tally_run hreach h run hprocess
  refine ⟨fun x => ?_, (handlingInv_reachable (run.reachable hreach)).semaphore⟩
  calc t.delivered.count x ≤ before.count x + 1 := (htally.count_le x).2
    _ ≤ s.delivered.count x + 1 := Nat.succ_le_succ (h.count_le x).1

/-- A crash behind the delivery, and a new process. -/
def restartedWorker : WorkerState :=
  deliveryWorker.after { topic := .empty }
    [.produce 0 wellFormedMessage, .take 0, .acquire 0, .deliver 0 (.ok ()), .crash, .restart]

/-- The message comes again. -/
def redelivery : List WorkerLabel := [.take 0, .acquire 0, .deliver 0 (.ok ())]

theorem delivered_once_per_start_redelivery :
    restartedWorker.delivered.count (0, 0) = 1 ∧
      (deliveryWorker.after restartedWorker redelivery).delivered.count (0, 0) = 2 ∧
      (deliveryWorker.after restartedWorker redelivery).delivered.count (0, 0) ≤ 1 + 1 := by
  have hreach : deliveryWorker.Reachable restartedWorker := Machine.reachable_after rfl rfl
  have hruns : (deliveryWorker.exec restartedWorker redelivery).isSome = true := rfl
  have hprocess : ∀ m ∈ deliveryWorker.trace restartedWorker redelivery, m.label.OfProcess :=
    Machine.forall_mem_trace (by simp [redelivery, WorkerLabel.OfProcess])
  exact ⟨rfl, rfl, (delivered_once_per_start hreach rfl
    (Machine.run_trace (Machine.exec_eq_after hruns)) hprocess).1 (0, 0)⟩

/-- What a process has made of its messages when no task of it can go on: each
was delivered once, or its delivery raised, or it was the one that was dropped
at the stop flag; and nothing else was delivered. -/
theorem handled_exactly_once {moves : List WorkerMove} (hreach : deliveryWorker.Reachable s)
    (hup : s.up = true) (hstart : s.tasks = []) (run : deliveryWorker.Run s moves t)
    (hprocess : ∀ m ∈ moves, m.label.OfProcess)
    (hidle : ∀ task ∈ t.tasks, task.phase.Live = false) :
    (∀ p offset data, t.topic.Handed p offset → (t.topic.log p)[offset]? = some data →
      wellFormed data = true → ∃ task ∈ t.tasks, task.place = (p, offset) ∧
        ((task.phase = .finished ∧
            t.delivered.count (p, offset) = s.delivered.count (p, offset) + 1) ∨
          ((task.phase = .raised ∨ task.phase = .dropped) ∧
            t.delivered.count (p, offset) = s.delivered.count (p, offset)))) ∧
      (∀ x ∉ t.tasks.map Task.place, t.delivered.count x = s.delivered.count x) ∧
      t.tasks.countP (fun task => task.phase = .dropped) ≤ 1 := by
  have htally := tally_run hreach (.start hup hstart) run hprocess
  have hinv := handlingInv_reachable (run.reachable hreach)
  refine ⟨?_, htally.others, (Nat.le_add_right _ _).trans htally.dropped⟩
  intro p offset data hhanded hdata hwf
  obtain ⟨task, htask, rfl, rfl⟩ :=
    hinv.worker.handed_task htally.up p offset data hhanded hdata hwf
  refine ⟨task, htask, rfl, ?_⟩
  have hown := htally.own task htask
  have hdone := hidle task htask
  cases hcase : task.phase with
  | waiting | running | returned =>
      rw [hcase] at hdone
      cases hdone
  | finished =>
      rw [hcase] at hown
      exact Or.inl ⟨rfl, hown⟩
  | raised =>
      rw [hcase] at hown
      exact Or.inr ⟨Or.inl rfl, hown⟩
  | dropped =>
      rw [hcase] at hown
      exact Or.inr ⟨Or.inr rfl, hown⟩

/-- Of three messages one is delivered, one raises and one is dropped. -/
def threeMessages : List WorkerLabel :=
  [.produce 0 wellFormedMessage, .produce 0 wellFormedMessage, .produce 0 wellFormedMessage,
    .take 0, .take 0, .acquire 0, .acquire 1, .deliver 1 (.ok ()),
    .deliver 0 (.error ⟨"RuntimeError", "Redis not initialized"⟩), .commit 1 (.ok ()), .signal,
    .take 0]

theorem handled_exactly_once_threeMessages :
    (deliveryWorker.after { topic := .empty } threeMessages).delivered = [(0, 1)] ∧
      (deliveryWorker.after { topic := .empty } threeMessages).tasks.countP
        (fun task => task.phase = .dropped) ≤ 1 := by
  have hruns : (deliveryWorker.exec { topic := .empty } threeMessages).isSome = true := rfl
  have hprocess : ∀ m ∈ deliveryWorker.trace { topic := .empty } threeMessages,
      m.label.OfProcess :=
    Machine.forall_mem_trace (by simp [threeMessages, WorkerLabel.OfProcess])
  have hidle : ∀ task ∈ (deliveryWorker.after { topic := .empty } threeMessages).tasks,
      task.phase.Live = false := by
    decide
  exact ⟨rfl, (handled_exactly_once (.start rfl) rfl rfl
    (Machine.run_trace (Machine.exec_eq_after hruns)) hprocess hidle).2.2⟩

/-! ## The end of a process -/

theorem stepsLeft_setPhase_lt (hget : s.tasks[i]? = some task)
    (hphase : phase.stepsLeft < task.phase.stepsLeft) :
    (s.setPhase i task phase).stepsLeft < s.stepsLeft := by
  obtain ⟨hi, rfl⟩ := List.getElem?_eq_some_iff.mp hget
  unfold WorkerState.stepsLeft WorkerState.setPhase
  rw [List.map_set]
  have hlength : i < (s.tasks.map (fun task => task.phase.stepsLeft)).length := by simpa using hi
  -- the old sum, as that of the list with its own entry put in
  have hold := List.sum_set (s.tasks.map (fun task => task.phase.stepsLeft)) i
    s.tasks[i].phase.stepsLeft
  have hself : (s.tasks.map (fun task => task.phase.stepsLeft)).set i s.tasks[i].phase.stepsLeft =
      s.tasks.map (fun task => task.phase.stepsLeft) := by
    rw [← List.getElem_map (fun task : Task => task.phase.stepsLeft) (h := hlength),
      List.set_getElem_self]
  rw [hself] at hold
  rw [List.sum_set, hold, if_pos hlength, if_pos hlength]
  dsimp only
  omega

theorem TaskPhase.stepsLeft_le (phase : TaskPhase) : phase.stepsLeft ≤ 3 := by
  cases phase <;> decide

theorem stepsLeft_le (s : WorkerState) : s.stepsLeft ≤ 3 * s.tasks.length := by
  have hle : ∀ n ∈ s.tasks.map (fun task => task.phase.stepsLeft), n ≤ 3 := by
    intro n hn
    obtain ⟨task, _, rfl⟩ := List.mem_map.mp hn
    exact task.phase.stepsLeft_le
  have hsum := List.sum_le_card_nsmul _ 3 hle
  rw [List.length_map, smul_eq_mul, mul_comm] at hsum
  exact hsum

theorem stepsLeftOf_le (s : WorkerState) (i : ℕ) : s.stepsLeftOf i ≤ 3 := by
  unfold WorkerState.stepsLeftOf
  cases s.tasks[i]? with
  | none => exact Nat.zero_le 3
  | some task => exact task.phase.stepsLeft_le

/-- A task's step uses itself up, and leaves the other tasks and the loop where
they are. -/
theorem task_step {label : WorkerLabel} (hlabel : label.OfTask)
    (hstep : workerNext s label = some t) :
    t.stepsLeft + 1 ≤ s.stepsLeft ∧
      (∀ j, t.stepsLeftOf j + (if label.task = some j then 1 else 0) ≤ s.stepsLeftOf j) ∧
      t.up = s.up ∧ t.looping = s.looping := by
  obtain ⟨i, task, phase, hlabel, hget, htasks, hup, hlooping, hlt, _⟩ := task_cases hstep hlabel
  refine ⟨?_, ?_, hup, hlooping⟩
  · have hless := stepsLeft_setPhase_lt hget hlt
    unfold WorkerState.stepsLeft at hless ⊢
    rwa [htasks]
  · intro j
    unfold WorkerState.stepsLeftOf
    rw [htasks, hlabel]
    by_cases hij : i = j
    · subst hij
      have hi := (List.getElem?_eq_some_iff.mp hget).1
      rw [if_pos rfl, hget, WorkerState.setPhase, List.getElem?_set_self hi]
      exact hlt
    · rw [if_neg (by simpa using hij), WorkerState.setPhase, List.getElem?_set_ne hij]
      exact le_rfl

/-- Some task can take its next step. -/
theorem exists_task_step (hlive : ∃ task ∈ s.tasks, task.phase.Live = true) :
    ∃ label : WorkerLabel, label.OfTask ∧ (workerNext s label).isSome = true := by
  have at_isSome : ∀ {i : ℕ} {task : Task} {next : Task → WorkerState}, s.tasks[i]? = some task →
      (s.at i task.phase next).isSome = true := by
    intro i task next hget
    unfold WorkerState.at
    rw [hget]
    simp
  by_cases hin : ∃ task ∈ s.tasks, task.phase.InSemaphore = true
  · obtain ⟨task, hmem, hphase⟩ := hin
    obtain ⟨i, hget⟩ := List.getElem?_of_mem hmem
    have hsome := @at_isSome i task
    cases hcase : task.phase with
    | running =>
        rw [hcase] at hsome
        exact ⟨.deliver i (.ok ()), trivial, hsome hget⟩
    | returned =>
        rw [hcase] at hsome
        exact ⟨.commit i (.ok ()), trivial, hsome hget⟩
    | waiting | finished | raised | dropped =>
        rw [hcase] at hphase
        cases hphase
  · -- nobody is inside: there is room for one that waits
    obtain ⟨task, hmem, hphase⟩ := hlive
    obtain ⟨i, hget⟩ := List.getElem?_of_mem hmem
    have hempty : s.tasks.countP (fun task => task.phase.InSemaphore) = 0 :=
      List.countP_eq_zero.mpr (fun other hother hinside => hin ⟨other, hother, hinside⟩)
    have hwaiting : task.phase = .waiting := by
      cases hcase : task.phase with
      | waiting => rfl
      | running | returned => exact absurd ⟨task, hmem, by rw [hcase]; rfl⟩ hin
      | finished | raised | dropped =>
          rw [hcase] at hphase
          cases hphase
    have hsome := @at_isSome i task
    rw [hwaiting] at hsome
    refine ⟨.acquire i, trivial, ?_⟩
    show (if _ then _ else _ : Option WorkerState).isSome = true
    rw [hempty, if_pos (by decide)]
    exact hsome hget

/-- Once the loop has ended: whatever order the tasks go on in, and whatever
comes of their deliveries and commits, they take three steps each at most, and
when none can go on the worker can close. -/
theorem shutdown_completes {moves : List WorkerMove} (hup : s.up = true)
    (hlooping : s.looping = false) (run : deliveryWorker.Run s moves t)
    (hmoves : ∀ m ∈ moves, m.label.OfTask) :
    (∀ i, moves.countP (fun m => m.label.task = some i) ≤ 3) ∧
      moves.length ≤ 3 * s.tasks.length ∧
      ((∀ label : WorkerLabel, label.OfTask → workerNext t label = none) →
        (workerNext t .close).isSome = true) := by
  have hrun : (∀ i, moves.countP (fun m => m.label.task = some i) + t.stepsLeftOf i ≤
        s.stepsLeftOf i) ∧
      moves.length + t.stepsLeft ≤ s.stepsLeft ∧ t.up = true ∧ t.looping = false := by
    induction run with
    | nil => exact ⟨by simp, by simp, hup, hlooping⟩
    | @snoc moves u a v _ hstep ih =>
        obtain ⟨heach, hle, hup', hlooping'⟩ :=
          ih (fun m hm => hmoves m (List.mem_append_left _ hm))
        have hlast : a.OfTask :=
          hmoves ⟨u, a, v⟩ (List.mem_append_right _ (List.mem_singleton_self _))
        obtain ⟨hlt, hown, hup'', hlooping''⟩ := task_step hlast hstep
        refine ⟨?_, ?_, hup''.trans hup', hlooping''.trans hlooping'⟩
        · intro i
          have hbefore := heach i
          have hafter := hown i
          rw [List.countP_append, List.countP_singleton]
          simp only [decide_eq_true_eq]
          omega
        · rw [List.length_append, List.length_singleton]
          omega
  obtain ⟨heach, hle, hup', hlooping'⟩ := hrun
  refine ⟨fun i => ?_, by have := stepsLeft_le s; omega, ?_⟩
  · have hown := heach i
    have hbound := stepsLeftOf_le s i
    omega
  intro hstuck
  have hidle : ∀ task ∈ t.tasks, task.phase.Live = false := by
    intro task htask
    by_contra hlive
    obtain ⟨label, hlabel, hsome⟩ := exists_task_step ⟨task, htask, by simpa using hlive⟩
    rw [hstuck label hlabel] at hsome
    cases hsome
  show (if _ then _ else _ : Option WorkerState).isSome = true
  rw [if_pos ⟨hup', hlooping', hidle⟩]
  rfl

/-- One message is being delivered when the stop flag is seen at the next. -/
def stoppingWorker : WorkerState :=
  deliveryWorker.after { topic := .empty }
    [.produce 0 wellFormedMessage, .produce 0 wellFormedMessage, .take 0, .signal, .take 0]

def lastDelivery : List WorkerLabel := [.acquire 0, .deliver 0 (.ok ()), .commit 0 (.ok ())]

theorem shutdown_completes_stoppingWorker :
    stoppingWorker.looping = false ∧
      (workerNext (deliveryWorker.after stoppingWorker lastDelivery) .close).isSome = true := by
  have hruns : (deliveryWorker.exec stoppingWorker lastDelivery).isSome = true := rfl
  have hmoves : ∀ m ∈ deliveryWorker.trace stoppingWorker lastDelivery, m.label.OfTask :=
    Machine.forall_mem_trace (by simp [lastDelivery, WorkerLabel.OfTask])
  refine ⟨rfl, (shutdown_completes rfl rfl (Machine.run_trace (Machine.exec_eq_after hruns))
    hmoves).2.2 ?_⟩
  intro label hlabel
  -- of the two tasks one is finished and the other was dropped
  cases label with
  | acquire i | deliver i result | commit i result =>
      match i with
      | 0 | 1 => rfl
      | i + 2 => rfl
  | produce | signal | take | close | crash | restart => exact hlabel.elim

end WebhookRelay.Delivery
