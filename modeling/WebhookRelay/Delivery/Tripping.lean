import Mathlib.Data.List.Chain
import WebhookRelay.Delivery.Reopening

/-!
# When the breaker trips

The failure counter with its sliding expiry, told by the history alone: a
failure opens the breaker exactly when the longest run of failures that ends
with it has reached the threshold.
-/

namespace WebhookRelay.Delivery

open Foundation

variable {settings : Settings} {history : List TimedCall} {now : Time}

/-! ## Runs -/

def failureTimes (calls : List TimedCall) : List Time :=
  (calls.filter (fun c => c.method = .recordFailure)).map TimedCall.time

/-- Instants less than a minute apart. -/
def Close (a b : Time) : Prop := b < a + failureWindow

/-- The failures of a part of the history that reaches up to `now` and has no
success, and the failure at `now`: no two neighbours are a minute apart. -/
def IsRun (history : List TimedCall) (now : Time) (run : List Time) : Prop :=
  ∃ before recent, history = before ++ recent ∧ (∀ c ∈ recent, c.method ≠ .recordSuccess) ∧
    run = failureTimes recent ++ [now] ∧ run.IsChain Close

def runLengths (history : List TimedCall) (now : Time) : Set ℕ :=
  {n | ∃ run, IsRun history now run ∧ run.length = n}

theorem isRun_now (history : List TimedCall) (now : Time) : IsRun history now [now] :=
  ⟨history, [], (List.append_nil history).symm, by simp, rfl, List.isChain_singleton now⟩

/-- A run of a longer history is the failure alone, or takes in the last call. -/
theorem isRun_snoc_iff {c : TimedCall} {run : List Time} :
    IsRun (history ++ [c]) now run ↔ run = [now] ∨
      ∃ before recent, history = before ++ recent ∧
        (∀ d ∈ recent ++ [c], d.method ≠ .recordSuccess) ∧
        run = failureTimes (recent ++ [c]) ++ [now] ∧ run.IsChain Close := by
  constructor
  · rintro ⟨before, recent, heq, hmethods, rfl, hchain⟩
    rcases List.eq_nil_or_concat recent with rfl | ⟨recent, d, rfl⟩
    · exact Or.inl rfl
    · right
      rw [List.concat_eq_append] at *
      rw [← List.append_assoc] at heq
      obtain ⟨rfl, hlast⟩ := List.append_inj' heq rfl
      obtain rfl := List.singleton_inj.mp hlast
      exact ⟨before, recent, rfl, hmethods, rfl, hchain⟩
  · rintro (rfl | ⟨before, recent, rfl, hmethods, hrun, hchain⟩)
    · exact isRun_now _ _
    · exact ⟨before, recent ++ [c], List.append_assoc _ _ _, hmethods, hrun, hchain⟩

theorem failureTimes_snoc (calls : List TimedCall) (time : Time) (method : BreakerMethod) :
    failureTimes (calls ++ [⟨time, method⟩]) =
      if method = .recordFailure then failureTimes calls ++ [time] else failureTimes calls := by
  unfold failureTimes
  rw [List.filter_append, List.map_append]
  cases method <;> simp

theorem isRun_snoc_isOpen {time : Time} {run : List Time} :
    IsRun (history ++ [⟨time, .isOpen⟩]) now run ↔ IsRun history now run := by
  rw [isRun_snoc_iff]
  constructor
  · rintro (rfl | ⟨before, recent, heq, hmethods, hrun, hchain⟩)
    · exact isRun_now _ _
    · rw [failureTimes_snoc, if_neg (by decide)] at hrun
      exact ⟨before, recent, heq, fun d hd => hmethods d (List.mem_append_left _ hd), hrun, hchain⟩
  · rintro ⟨before, recent, heq, hmethods, hrun, hchain⟩
    refine Or.inr ⟨before, recent, heq, ?_, ?_, hchain⟩
    · intro d hd
      rcases List.mem_append.mp hd with hd | hd
      · exact hmethods d hd
      · obtain rfl := List.mem_singleton.mp hd
        exact fun hsuccess => by cases hsuccess
    · rw [failureTimes_snoc, if_neg (by decide)]
      exact hrun

/-- A success ends every run. -/
theorem isRun_snoc_recordSuccess {time : Time} {run : List Time} :
    IsRun (history ++ [⟨time, .recordSuccess⟩]) now run ↔ run = [now] := by
  rw [isRun_snoc_iff]
  constructor
  · rintro (hrun | ⟨before, recent, _, hmethods, _, _⟩)
    · exact hrun
    · exact absurd rfl
        (hmethods ⟨time, .recordSuccess⟩ (List.mem_append_right _ List.mem_cons_self))
  · exact Or.inl

/-- A failure that is recent enough lengthens the runs that end with it. -/
theorem isRun_snoc_recordFailure {time : Time} {run : List Time} :
    IsRun (history ++ [⟨time, .recordFailure⟩]) now run ↔
      run = [now] ∨
        (Close time now ∧ ∃ earlier, IsRun history time earlier ∧ run = earlier ++ [now]) := by
  rw [isRun_snoc_iff]
  apply or_congr_right
  constructor
  · rintro ⟨before, recent, heq, hmethods, rfl, hchain⟩
    rw [failureTimes_snoc, if_pos rfl, List.append_assoc, List.singleton_append] at hchain
    obtain ⟨hearlier, hlast⟩ := List.isChain_split.mp hchain
    refine ⟨List.isChain_pair.mp hlast, failureTimes recent ++ [time],
      ⟨before, recent, heq, ?_, rfl, hearlier⟩, ?_⟩
    · exact fun d hd => hmethods d (List.mem_append_left _ hd)
    · rw [failureTimes_snoc, if_pos rfl]
  · rintro ⟨hclose, earlier, ⟨before, recent, heq, hmethods, rfl, hchain⟩, rfl⟩
    refine ⟨before, recent, heq, ?_, ?_, ?_⟩
    · intro d hd
      rcases List.mem_append.mp hd with hd | hd
      · exact hmethods d hd
      · obtain rfl := List.mem_singleton.mp hd
        exact fun hsuccess => by cases hsuccess
    · rw [failureTimes_snoc, if_pos rfl]
    · rw [List.append_assoc, List.singleton_append]
      exact List.isChain_split.mpr ⟨hchain, List.isChain_pair.mpr hclose⟩

/-- The counter, one more for the failure at `now`, is the length of the
longest run. -/
theorem isGreatest_streak (history : List TimedCall) (now : Time) :
    IsGreatest (runLengths history now) (streak history now + 1) := by
  induction history using List.reverseRecOn generalizing now with
  | nil =>
      refine ⟨⟨[now], isRun_now _ _, rfl⟩, ?_⟩
      rintro n ⟨run, ⟨before, recent, heq, _, rfl, _⟩, rfl⟩
      obtain ⟨_, rfl⟩ := List.append_eq_nil_iff.mp heq.symm
      exact le_refl _
  | append_singleton history c ih =>
      obtain ⟨time, method⟩ := c
      rw [streak_snoc]
      cases method with
      | isOpen =>
          have hsame : runLengths (history ++ [⟨time, .isOpen⟩]) now = runLengths history now := by
            unfold runLengths
            simp only [isRun_snoc_isOpen]
          rw [hsame]
          exact ih now
      | recordSuccess =>
          refine ⟨⟨[now], isRun_now _ _, rfl⟩, ?_⟩
          rintro n ⟨run, hrun, rfl⟩
          rw [isRun_snoc_recordSuccess.mp hrun]
          exact le_refl _
      | recordFailure =>
          obtain ⟨⟨earlier, hearlier, hlength⟩, hgreatest⟩ := ih time
          dsimp only
          by_cases hclose : now < time + failureWindow
          · rw [if_pos hclose]
            constructor
            · refine ⟨earlier ++ [now], isRun_snoc_recordFailure.mpr
                (Or.inr ⟨hclose, earlier, hearlier, rfl⟩), ?_⟩
              rw [List.length_append, hlength]
              rfl
            · rintro n ⟨run, hrun, rfl⟩
              rcases isRun_snoc_recordFailure.mp hrun with rfl | ⟨_, shorter, hshorter, rfl⟩
              · exact Nat.le_add_left _ _
              · rw [List.length_append]
                exact Nat.succ_le_succ (hgreatest ⟨shorter, hshorter, rfl⟩)
          · rw [if_neg hclose]
            refine ⟨⟨[now], isRun_now _ _, rfl⟩, ?_⟩
            rintro n ⟨run, hrun, rfl⟩
            rcases isRun_snoc_recordFailure.mp hrun with rfl | ⟨hnear, _⟩
            · exact le_refl _
            · exact absurd hnear hclose

/-! ## Trips -/

/-- The call writes neither of the two keys. -/
def LeavesState (settings : Settings) (now : Time) (keys : BreakerKeys) : Prop :=
  (recordFailure settings now keys).state = keys.state ∧
    (recordFailure settings now keys).openSince = keys.openSince

/-- A trip since the last success. -/
def TrippedSince (settings : Settings) (history : List TimedCall) : Prop :=
  ∃ before time after, history = before ++ ⟨time, .recordFailure⟩ :: after ∧
    Trips settings time (keysAfter settings before) ∧ ∀ c ∈ after, c.method ≠ .recordSuccess

theorem trippedSince_snoc {c : TimedCall} (h : TrippedSince settings history)
    (hc : c.method ≠ .recordSuccess) :
    TrippedSince settings (history ++ [c]) := by
  obtain ⟨before, time, after, rfl, htrips, hafter⟩ := h
  refine ⟨before, time, after ++ [c], by simp, htrips, ?_⟩
  intro d hd
  rcases List.mem_append.mp hd with hd | hd
  · exact hafter d hd
  · rwa [List.mem_singleton.mp hd]

/-- `is_open` writes the state of a breaker that has one. -/
theorem isOpen_state_slot {keys : BreakerKeys} (h : keys.state.slot = none) :
    (isOpen settings now keys).2.state.slot = none := by
  have hget : keys.state.get now = none := Cell.get_none_of_slot h now
  unfold isOpen
  rw [hget]
  exact h

theorem trippedSince_of_state (hstate : (keysAfter settings history).state.slot ≠ none) :
    TrippedSince settings history := by
  induction history using List.reverseRecOn with
  | nil => exact absurd rfl hstate
  | append_singleton history c ih =>
      obtain ⟨time, method⟩ := c
      rw [keysAfter_snoc] at hstate
      cases method with
      | isOpen =>
          refine trippedSince_snoc (ih ?_) (fun hsuccess => by cases hsuccess)
          exact fun hnone => hstate (isOpen_state_slot hnone)
      | recordSuccess => exact absurd rfl hstate
      | recordFailure =>
          by_cases htrip : settings.circuitBreakerThreshold ≤ streak history time + 1
          · have hset := recordFailure_of_le htrip
            refine ⟨history, time, [], rfl, ⟨?_, ?_⟩, by simp⟩
            · rw [hset.1]
              rfl
            · rw [hset.2]
              rfl
          · have hsame := (recordFailure_of_lt htrip).1
            refine trippedSince_snoc (ih ?_) (fun hsuccess => by cases hsuccess)
            rwa [← hsame]

/-- A failure opens the breaker, as of its own instant, exactly when the
longest run that ends with it has reached the threshold, and else leaves it as
it is; a breaker with a state has tripped since the last success. -/
theorem trips_iff_longest_run (htimed : TimedUpTo history now) :
    (∃ longest, IsGreatest (runLengths history now) longest ∧
      (Trips settings now (keysAfter settings history) ↔
        settings.circuitBreakerThreshold ≤ longest) ∧
      (longest < settings.circuitBreakerThreshold →
        LeavesState settings now (keysAfter settings history))) ∧
    ((keysAfter settings history).state.get now ≠ none → TrippedSince settings history) := by
  refine ⟨⟨streak history now + 1, isGreatest_streak history now, trips_iff_streak htimed, ?_⟩, ?_⟩
  · intro hshort
    exact recordFailure_of_lt (Nat.not_le.mpr hshort)
  · intro hstate
    apply trippedSince_of_state
    exact fun hnone => hstate (Cell.get_none_of_slot hnone now)

/-! ## Three failures -/

/-- A check between the second and the third, which ends a run of three. -/
def threeFailures : List TimedCall :=
  [⟨0, .recordFailure⟩, ⟨1, .recordSuccess⟩, ⟨10, .recordFailure⟩, ⟨60, .recordFailure⟩,
    ⟨80, .isOpen⟩]

theorem timedUpTo_threeFailures : TimedUpTo threeFailures 119 :=
  ⟨by decide +kernel, by decide +kernel⟩

theorem trips_of_threeFailures :
    (∃ longest, IsGreatest (runLengths threeFailures 119) longest ∧
      (Trips { circuitBreakerThreshold := 3 } 119
        (keysAfter { circuitBreakerThreshold := 3 } threeFailures) ↔
        3 ≤ longest) ∧
      (longest < 3 →
        LeavesState { circuitBreakerThreshold := 3 } 119
          (keysAfter { circuitBreakerThreshold := 3 } threeFailures))) ∧
    ((keysAfter { circuitBreakerThreshold := 3 } threeFailures).state.get 119 ≠ none →
      TrippedSince { circuitBreakerThreshold := 3 } threeFailures) :=
  trips_iff_longest_run timedUpTo_threeFailures

end WebhookRelay.Delivery
