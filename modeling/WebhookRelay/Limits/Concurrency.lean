import WebhookRelay.Foundation.Machine
import WebhookRelay.Limits.SlidingWindow

/-!
# Concurrent calls of the rate limiter

Any number of `allow_request` calls on one key. A call reads the clock in one
step and executes its transaction in another, any time later: by then a call
that read the clock later may have pruned what this one should count, or the
whole key may have expired. `limit_safe` says that nothing else can let a
window take in more than the limit.
-/

namespace WebhookRelay.Limits

open Foundation

/-- History: a call that has executed its transaction. -/
structure Execution where
  call : Call
  allowed : Bool

/-- The key, and the readings of the calls that have read the clock but not
yet executed. -/
structure LimiterSystem where
  clock : Time
  key : WindowKey := .empty
  readings : ℕ → Option Time := fun _ => none
  executed : List Execution := []

inductive LimiterLabel where
  | tick (now : Time)
  | read (i : ℕ)
  | execute (i : ℕ) (member : UUID)

/-- The calls that returned `True`. -/
def LimiterSystem.allowed (s : LimiterSystem) : List Call :=
  (s.executed.filter Execution.allowed).map Execution.call

section Machine

variable (settings : Settings) (maxRpm : Option ℤ)

/-- A `uuid4()` is never drawn twice. -/
def execute (s : LimiterSystem) (i : ℕ) (member : UUID) : Option LimiterSystem :=
  match s.readings i with
  | some now =>
      if member ∉ s.executed.map (fun e => e.call.member) then
        let (allowed, key) := allowRequest settings maxRpm member now s.clock s.key
        some { s with
          key := key
          readings := Function.update s.readings i none
          executed := s.executed ++ [⟨⟨member, now⟩, allowed⟩] }
      else none
  | none => none

def limiterNext (s : LimiterSystem) : LimiterLabel → Option LimiterSystem
  | .tick now => if s.clock ≤ now then some { s with clock := now } else none
  | .read i =>
      if s.readings i = none then
        some { s with readings := Function.update s.readings i (some s.clock) }
      else none
  | .execute i member => execute settings maxRpm s i member

def limiter : Machine LimiterSystem LimiterLabel where
  init := fun s => 0 ≤ s.clock ∧ s = { clock := s.clock }
  next := limiterNext settings maxRpm

end Machine

/-- The calls with a clock reading in the window that starts at `a`. -/
def within (a : Time) (calls : List Call) : List Call :=
  calls.filter (fun c => a ≤ millis c.now ∧ millis c.now < a + windowMs)

/-- In no window of 60 000 ms did more calls than the limit return `True`. -/
def LimitSafe (settings : Settings) (maxRpm : Option ℤ) (s : LimiterSystem) : Prop :=
  ∀ a, ((within a s.allowed).length : ℤ) ≤ limitOf settings maxRpm

/-- Two readings that some window has both of. -/
def Close (c : Call) (now : Time) : Prop := now - 60 < c.now ∧ c.now < now + 60

instance (c : Call) (now : Time) : Decidable (Close c now) := inferInstanceAs (Decidable (_ ∧ _))

/-- A transaction is executed after the entry of an allowed call less than a
minute from it has gone from the key. -/
def Forgets (m : Move LimiterSystem LimiterLabel) : Prop :=
  match m.label with
  | .execute i _ => ∃ now, m.src.readings i = some now ∧
      ∃ c ∈ m.src.allowed, Close c now ∧ c.entry ∉ m.src.key.members m.src.clock
  | _ => False

variable {settings : Settings} {maxRpm : Option ℤ} {s t : LimiterSystem}

theorem execute_cases {i : ℕ} {member : UUID} (hlimit : 1 ≤ limitOf settings maxRpm)
    (h : execute settings maxRpm s i member = some t) :
    ∃ now, s.readings i = some now ∧ member ∉ s.executed.map (fun e => e.call.member) ∧
      t = { s with
        key := (pipeline member now s.clock s.key).2
        readings := Function.update s.readings i none
        executed := s.executed ++ [⟨⟨member, now⟩,
          decide (((pipeline member now s.clock s.key).1 : ℤ) < limitOf settings maxRpm)⟩] } := by
  unfold execute at h
  split at h
  · rename_i now hreading
    rw [allowRequest_of_pos hlimit] at h
    simp only [Option.ite_none_right_eq_some, Option.some.injEq] at h
    exact ⟨now, hreading, h.1, h.2.symm⟩
  · cases h

/-- No two executed calls have the same `uuid4()`. -/
def Fresh (s : LimiterSystem) : Prop := (s.executed.map (fun e => e.call.member)).Nodup

theorem fresh_next {label : LimiterLabel} (hlimit : 1 ≤ limitOf settings maxRpm) (h : Fresh s)
    (hstep : limiterNext settings maxRpm s label = some t) : Fresh t := by
  cases label with
  | tick now =>
      simp only [limiterNext, Option.ite_none_right_eq_some, Option.some.injEq] at hstep
      obtain ⟨_, rfl⟩ := hstep
      exact h
  | read i =>
      simp only [limiterNext, Option.ite_none_right_eq_some, Option.some.injEq] at hstep
      obtain ⟨_, rfl⟩ := hstep
      exact h
  | execute i member =>
      obtain ⟨now, _, hnew, rfl⟩ := execute_cases hlimit hstep
      unfold Fresh
      rw [List.map_append, List.map_singleton, List.nodup_append_comm]
      exact List.nodup_cons.mpr ⟨hnew, h⟩

/-- A call counts every allowed call close to it whose entry is still there. -/
theorem length_close_le_count (h : Fresh s) (member : UUID) {now : Time}
    (hkept : ∀ c ∈ s.allowed, Close c now → c.entry ∈ s.key.members s.clock) :
    (s.allowed.filter (fun c => Close c now)).length ≤ (pipeline member now s.clock s.key).1 := by
  have hnodup : ((s.allowed.filter (fun c => Close c now)).map Call.entry).Nodup := by
    apply List.Nodup.of_map Prod.fst
    rw [List.map_map]
    apply List.Nodup.sublist (List.filter_sublist.map _)
    unfold LimiterSystem.allowed
    rw [List.map_map]
    exact h.sublist (List.filter_sublist.map _)
  have hsub : (s.allowed.filter (fun c => Close c now)).map Call.entry ⊆
      (s.key.members s.clock).removeRangeByScore 0 (millis now - windowMs) := by
    intro e he
    obtain ⟨c, hc, rfl⟩ := List.mem_map.mp he
    rw [List.mem_filter, decide_eq_true_eq] at hc
    refine SortedSet.mem_removeRangeByScore_iff.mpr ⟨hkept c hc.1 hc.2, ?_⟩
    -- the entry is too young to be pruned by this very call
    rintro ⟨_, hold⟩
    have hold' : c.now * 1000 ≤ now * 1000 - 60000 := hold
    linarith [hc.2.1]
  have hlength := (List.subperm_of_subset hnodup hsub).length_le
  rwa [List.length_map] at hlength

/-- Readings in one window are close to each other. -/
theorem length_within_le_close {a now : Time} (h : a ≤ millis now ∧ millis now < a + windowMs)
    (calls : List Call) :
    (within a calls).length ≤ (calls.filter (fun c => Close c now)).length := by
  apply List.Sublist.length_le
  apply List.monotone_filter_right
  intro c hc
  rw [decide_eq_true_eq] at hc ⊢
  obtain ⟨hlow, hhigh⟩ : a ≤ c.now * 1000 ∧ c.now * 1000 < a + 60000 := hc
  obtain ⟨hlow', hhigh'⟩ : a ≤ now * 1000 ∧ now * 1000 < a + 60000 := h
  constructor <;> linarith

theorem within_append (a : Time) (calls calls' : List Call) :
    within a (calls ++ calls') = within a calls ++ within a calls' :=
  List.filter_append ..

theorem limitSafe_next {label : LimiterLabel} (hlimit : 1 ≤ limitOf settings maxRpm) (h : Fresh s)
    (hsafe : LimitSafe settings maxRpm s) (hforgets : ¬ Forgets ⟨s, label, t⟩)
    (hstep : limiterNext settings maxRpm s label = some t) : LimitSafe settings maxRpm t := by
  cases label with
  | tick now =>
      simp only [limiterNext, Option.ite_none_right_eq_some, Option.some.injEq] at hstep
      obtain ⟨_, rfl⟩ := hstep
      exact hsafe
  | read i =>
      simp only [limiterNext, Option.ite_none_right_eq_some, Option.some.injEq] at hstep
      obtain ⟨_, rfl⟩ := hstep
      exact hsafe
  | execute i member =>
      obtain ⟨now, hreading, _, rfl⟩ := execute_cases hlimit hstep
      have hkept : ∀ c ∈ s.allowed, Close c now → c.entry ∈ s.key.members s.clock := by
        intro c hc hclose
        by_contra hgone
        exact hforgets ⟨now, hreading, c, hc, hclose, hgone⟩
      have hcount := length_close_le_count h member hkept
      intro a
      unfold LimiterSystem.allowed
      rw [List.filter_append, List.map_append]
      by_cases hroom : ((pipeline member now s.clock s.key).1 : ℤ) < limitOf settings maxRpm
      · simp only [hroom, decide_true, List.filter_cons_of_pos, List.filter_nil, List.map_cons,
          List.map_nil]
        show ((within a (s.allowed ++ [⟨member, now⟩])).length : ℤ) ≤ _
        rw [within_append, List.length_append]
        by_cases hin : a ≤ millis now ∧ millis now < a + windowMs
        · -- the call has counted everything else in this window
          have hle := length_within_le_close hin s.allowed
          have hone : (within a [⟨member, now⟩]).length ≤ 1 := List.length_filter_le _ _
          push_cast
          omega
        · have hnone : within a [⟨member, now⟩] = [] :=
            List.filter_cons_of_neg (by simpa using hin)
          rw [hnone]
          exact hsafe a
      · simpa [hroom, LimiterSystem.allowed] using hsafe a

theorem limitSafe_init (hlimit : 1 ≤ limitOf settings maxRpm)
    (h : (limiter settings maxRpm).init s) : LimitSafe settings maxRpm s := by
  rw [h.2]
  intro a
  show ((0 : ℕ) : ℤ) ≤ _
  omega

theorem fresh_init (h : (limiter settings maxRpm).init s) : Fresh s := by
  rw [h.2]
  exact List.nodup_nil

/-- In a run in which no transaction is executed after the entry of a close
allowed call has gone, every state keeps the limit. -/
theorem limit_safe {moves : List (Move LimiterSystem LimiterLabel)}
    (hlimit : 1 ≤ limitOf settings maxRpm) (hinit : (limiter settings maxRpm).init s)
    (run : (limiter settings maxRpm).Run s moves t) (hmoves : ∀ m ∈ moves, ¬ Forgets m) :
    ∀ v, Machine.Visited s moves v → LimitSafe settings maxRpm v := by
  intro v hv
  have hboth := run.forall_visited (P := fun v => Fresh v ∧ LimitSafe settings maxRpm v)
    (fun _ _ _ h hm hstep => ⟨fresh_next hlimit h.1 hstep, limitSafe_next hlimit h.1 h.2 hm hstep⟩)
    ⟨fresh_init hinit, limitSafe_init hlimit hinit⟩ hmoves v hv
  exact hboth.2

/-! ## A window of three under a limit of two -/

/-- Two calls are allowed. A third reads the clock a little less than a minute
later; before it executes, a fourth prunes the first two. -/
def pruningRun : List LimiterLabel :=
  [.read 0, .execute 0 1, .read 1, .execute 1 2, .tick 1059, .read 2, .tick 1060, .read 3,
    .execute 3 3, .execute 2 4]

def prunedLimiter : LimiterSystem := (limiter {} (some 2)).after { clock := 1000 } pruningRun

theorem limit_exceeded :
    ¬ ∀ settings maxRpm s, 1 ≤ limitOf settings maxRpm → (limiter settings maxRpm).Reachable s →
      LimitSafe settings maxRpm s := by
  intro h
  have hinit : (limiter {} (some 2)).init { clock := 1000 } := ⟨by norm_num, rfl⟩
  have hreach : (limiter {} (some 2)).Reachable prunedLimiter :=
    Machine.reachable_after hinit (by decide +kernel)
  have hthree : ¬ ((within 1000000 prunedLimiter.allowed).length : ℤ) ≤ limitOf {} (some 2) := by
    decide +kernel
  exact hthree (h {} (some 2) _ (by decide) hreach 1000000)

/-- The run up to its first two calls. -/
def promptLimiter (n : ℕ) : LimiterSystem :=
  (limiter {} (some 2)).after { clock := 1000 } (pruningRun.take n)

theorem limit_safe_prompt :
    (promptLimiter 4).allowed.length = 2 ∧ LimitSafe {} (some 2) (promptLimiter 4) := by
  have hinit : (limiter {} (some 2)).init { clock := 1000 } := ⟨by norm_num, rfl⟩
  have run : (limiter {} (some 2)).Run { clock := 1000 }
      [⟨_, .read 0, promptLimiter 1⟩, ⟨_, .execute 0 1, promptLimiter 2⟩,
        ⟨_, .read 1, promptLimiter 3⟩, ⟨_, .execute 1 2, promptLimiter 4⟩] (promptLimiter 4) :=
    ((((Machine.Run.nil _).snoc rfl).snoc rfl).snoc rfl).snoc rfl
  have hkept : ∀ c ∈ (promptLimiter 3).allowed,
      c.entry ∈ (promptLimiter 3).key.members (promptLimiter 3).clock := by
    decide +kernel
  refine ⟨by decide +kernel, limit_safe (by decide) hinit run ?_ _ run.visited_last⟩
  intro m hm
  simp only [List.mem_cons, List.not_mem_nil, or_false] at hm
  rcases hm with rfl | rfl | rfl | rfl
  · exact id
  · rintro ⟨now, _, c, hc, _⟩
    cases hc
  · exact id
  · rintro ⟨now, _, c, hc, _, hgone⟩
    exact hgone (hkept c hc)

end WebhookRelay.Limits
