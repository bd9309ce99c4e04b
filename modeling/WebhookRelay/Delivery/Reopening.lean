import WebhookRelay.Delivery.CircuitBreaker

/-!
# Reopening after a failed probe

Calls of the three methods on one URL, one after the other. Whether the
failure of a delivery admitted in state `HALF_OPEN` puts the breaker back into
state `OPEN` depends on the failure counter alone, and its key expires 60 s
after the last failure whatever the cooldown is: `reopens_iff`.
-/

namespace WebhookRelay.Delivery

open Foundation

inductive BreakerMethod where
  | isOpen
  | recordSuccess
  | recordFailure
  deriving DecidableEq

structure TimedCall where
  time : Time
  method : BreakerMethod

def TimedCall.run (settings : Settings) (keys : BreakerKeys) (c : TimedCall) : BreakerKeys :=
  match c.method with
  | .isOpen => (isOpen settings c.time keys).2
  | .recordSuccess => recordSuccess
  | .recordFailure => recordFailure settings c.time keys

/-- The keys after a history, the oldest call first. -/
def keysAfter (settings : Settings) (history : List TimedCall) : BreakerKeys :=
  history.foldl (TimedCall.run settings) {}

/-- The failures the counter still has at `now`, from the latest call back: each
less than 60 s before the next one, and no success among them. -/
def streakBack : List TimedCall → Time → ℕ
  | [], _ => 0
  | ⟨time, method⟩ :: earlier, now =>
      match method with
      | .isOpen => streakBack earlier now
      | .recordSuccess => 0
      | .recordFailure => if now < time + failureWindow then streakBack earlier time + 1 else 0

def streak (history : List TimedCall) (now : Time) : ℕ := streakBack history.reverse now

/-- Calls at non-decreasing times, none later than `now`. -/
structure TimedUpTo (history : List TimedCall) (now : Time) : Prop where
  sorted : (history.map TimedCall.time).Pairwise (· ≤ ·)
  past : ∀ c ∈ history, c.time ≤ now

/-- A delivery that `is_open` admits, half open as it is or has just become,
and that reports a failure later; other calls may come before the admission
and between the two. -/
structure FailedProbe (settings : Settings) where
  before : List TimedCall
  asked : Time
  between : List TimedCall
  reported : Time
  timed : TimedUpTo (before ++ ⟨asked, .isOpen⟩ :: between) reported
  admitted : (isOpen settings asked (keysAfter settings before)).1 = false
  halfOpen :
    (isOpen settings asked (keysAfter settings before)).2.state.get asked = some .HALF_OPEN

namespace FailedProbe

variable {settings : Settings}

/-- Every call before the report. -/
def history (p : FailedProbe settings) : List TimedCall :=
  p.before ++ ⟨p.asked, .isOpen⟩ :: p.between

/-- After the report the breaker is open, as of now. -/
def Reopens (p : FailedProbe settings) : Prop :=
  let keys := recordFailure settings p.reported (keysAfter settings p.history)
  keys.state.get p.reported = some .OPEN ∧ keys.openSince.get p.reported = some p.reported

end FailedProbe

variable {settings : Settings} {history : List TimedCall} {now : Time}

theorem keysAfter_snoc (c : TimedCall) :
    keysAfter settings (history ++ [c]) = c.run settings (keysAfter settings history) := by
  unfold keysAfter
  rw [List.foldl_append]
  rfl

theorem streak_snoc (time : Time) (method : BreakerMethod) :
    streak (history ++ [⟨time, method⟩]) now =
      match method with
      | .isOpen => streak history now
      | .recordSuccess => 0
      | .recordFailure => if now < time + failureWindow then streak history time + 1 else 0 := by
  unfold streak
  rw [List.reverse_append]
  rfl

theorem timedUpTo_snoc {c : TimedCall} (h : TimedUpTo (history ++ [c]) now) :
    TimedUpTo history c.time ∧ c.time ≤ now := by
  have hsorted := h.sorted
  rw [List.map_append, List.pairwise_append] at hsorted
  refine ⟨⟨hsorted.1, ?_⟩, h.past c (by simp)⟩
  intro d hd
  exact hsorted.2.2 _ (List.mem_map_of_mem hd) _ (by simp)

/-! ## What a failure does -/

theorem recordFailure_failures (keys : BreakerKeys) :
    (recordFailure settings now keys).failures =
      ⟨some ((keys.failures.get now).getD 0 + 1, some (now + failureWindow))⟩ := by
  rw [← Cell.expire_incr]
  unfold recordFailure
  dsimp only
  split <;> rfl

theorem isOpen_failures (keys : BreakerKeys) :
    (isOpen settings now keys).2.failures = keys.failures := by
  unfold isOpen
  split
  · rfl
  · dsimp only
    split <;> rfl
  · rfl

/-- A check never opens the breaker. -/
theorem isOpen_state (settings : Settings) (now : Time) (keys : BreakerKeys) :
    ((isOpen settings now keys).2.state = keys.state ∨
      (isOpen settings now keys).2.state = keys.state.set .HALF_OPEN) ∧
    (isOpen settings now keys).2.openSince = keys.openSince := by
  unfold isOpen
  split
  · exact ⟨Or.inl rfl, rfl⟩
  · dsimp only
    split
    · exact ⟨Or.inr rfl, rfl⟩
    · exact ⟨Or.inl rfl, rfl⟩
  · exact ⟨Or.inl rfl, rfl⟩

/-! ## The counter -/

/-- The counter is the length of the streak. -/
theorem failures_get_eq_streak (settings : Settings) (history : List TimedCall) (now : Time) :
    ((keysAfter settings history).failures.get now).getD 0 = streak history now := by
  induction history using List.reverseRecOn generalizing now with
  | nil => rfl
  | append_singleton history c ih =>
      obtain ⟨time, method⟩ := c
      rw [keysAfter_snoc, streak_snoc]
      cases method with
      | isOpen =>
          show ((isOpen settings time (keysAfter settings history)).2.failures.get now).getD 0 = _
          rw [isOpen_failures]
          exact ih now
      | recordSuccess => rfl
      | recordFailure =>
          show ((recordFailure settings time (keysAfter settings history)).failures.get now).getD 0
            = _
          rw [recordFailure_failures, Cell.get_expiring, ih]
          dsimp only
          split <;> rfl

theorem recordFailure_of_le (h : settings.circuitBreakerThreshold ≤ streak history now + 1) :
    (recordFailure settings now (keysAfter settings history)).state =
        (keysAfter settings history).state.set .OPEN ∧
      (recordFailure settings now (keysAfter settings history)).openSince =
        (keysAfter settings history).openSince.set now := by
  rw [← failures_get_eq_streak settings, ← Cell.incr_fst] at h
  unfold recordFailure
  dsimp only
  rw [if_pos h]
  exact ⟨rfl, rfl⟩

theorem recordFailure_of_lt (h : ¬ settings.circuitBreakerThreshold ≤ streak history now + 1) :
    (recordFailure settings now (keysAfter settings history)).state =
        (keysAfter settings history).state ∧
      (recordFailure settings now (keysAfter settings history)).openSince =
        (keysAfter settings history).openSince := by
  rw [← failures_get_eq_streak settings, ← Cell.incr_fst] at h
  unfold recordFailure
  dsimp only
  rw [if_neg h]
  exact ⟨rfl, rfl⟩

/-- A breaker that is open as of less than a minute ago has a counter that has
reached the threshold. -/
theorem threshold_le_streak {opened : Time} (htimed : TimedUpTo history now)
    (hstate : (keysAfter settings history).state.slot.map Prod.fst = some .OPEN)
    (hsince : (keysAfter settings history).openSince.slot.map Prod.fst = some opened)
    (hrecent : now < opened + failureWindow) :
    settings.circuitBreakerThreshold ≤ streak history now := by
  induction history using List.reverseRecOn generalizing now with
  | nil => cases hstate
  | append_singleton history c ih =>
      obtain ⟨hbefore, hle⟩ := timedUpTo_snoc htimed
      obtain ⟨time, method⟩ := c
      rw [keysAfter_snoc] at hstate hsince
      rw [streak_snoc]
      cases method with
      | isOpen =>
          obtain ⟨hkept | hhalf, hsame⟩ := isOpen_state settings time (keysAfter settings history)
          · apply ih ⟨hbefore.sorted, fun c hc => (hbefore.past c hc).trans hle⟩
            · rwa [← hkept]
            · rwa [← hsame]
            · exact hrecent
          · simp only [TimedCall.run, hhalf] at hstate
            cases hstate
      | recordSuccess => cases hstate
      | recordFailure =>
          dsimp only at hle ⊢
          by_cases htrip :
              settings.circuitBreakerThreshold ≤ streak history time + 1
          · have hset := recordFailure_of_le htrip
            simp only [TimedCall.run, hset.2] at hsince
            cases hsince
            rwa [if_pos hrecent]
          · -- had it been open that recently, this failure would have opened it again
            have hset := recordFailure_of_lt htrip
            simp only [TimedCall.run, hset.1] at hstate
            simp only [TimedCall.run, hset.2] at hsince
            have hreached := ih hbefore hstate hsince (lt_of_le_of_lt hle hrecent)
            exact absurd (hreached.trans (Nat.le_succ _)) htrip

/-- The call of `record_failure` leaves the breaker open as of now. -/
def Trips (settings : Settings) (now : Time) (keys : BreakerKeys) : Prop :=
  (recordFailure settings now keys).state.get now = some .OPEN ∧
    (recordFailure settings now keys).openSince.get now = some now

/-- A failure opens the breaker when it makes the streak reach the threshold. -/
theorem trips_iff_streak (htimed : TimedUpTo history now) :
    Trips settings now (keysAfter settings history) ↔
      settings.circuitBreakerThreshold ≤ streak history now + 1 := by
  constructor
  · rintro ⟨hstate, hsince⟩
    by_contra hshort
    -- what the call did not write was there before it, and recent
    have hsame := recordFailure_of_lt hshort
    rw [hsame.1] at hstate
    rw [hsame.2] at hsince
    have hreached := threshold_le_streak htimed (Cell.slot_of_get_some hstate)
      (Cell.slot_of_get_some hsince) (by norm_num [failureWindow])
    exact hshort (hreached.trans (Nat.le_succ _))
  · intro hlong
    have hset := recordFailure_of_le hlong
    unfold Trips
    rw [hset.1, hset.2]
    exact ⟨rfl, rfl⟩

/-- A failed probe reopens the circuit exactly when it is at least the
`threshold`-th of the failures, each within a minute of the one before, since
the last success. -/
theorem reopens_iff (p : FailedProbe settings) :
    p.Reopens ↔ settings.circuitBreakerThreshold ≤ streak p.history p.reported + 1 :=
  trips_iff_streak p.timed

/-! ## A prompt probe, and one that leaves the breaker half open -/

def tenFailures : List TimedCall := List.replicate 10 ⟨0, .recordFailure⟩

/-- The probe comes as soon as the cooldown is over, within the minute. -/
def promptProbe : FailedProbe {} where
  before := tenFailures
  asked := 31
  between := []
  reported := 32
  timed := ⟨by decide +kernel, by decide +kernel⟩
  admitted := by decide +kernel
  halfOpen := by decide +kernel

theorem reopens_promptProbe : promptProbe.Reopens :=
  (reopens_iff promptProbe).mpr (by decide +kernel)

/-- By the time of the probe the counter has expired. -/
def lateProbe : FailedProbe {} where
  before := tenFailures
  asked := 70
  between := []
  reported := 71
  timed := ⟨by decide +kernel, by decide +kernel⟩
  admitted := by decide +kernel
  halfOpen := by decide +kernel

theorem failed_probe_leaves_half_open :
    ¬ ∀ settings (p : FailedProbe settings), 1 ≤ settings.circuitBreakerThreshold → p.Reopens := by
  intro h
  have hnot : ¬ lateProbe.Reopens := by
    unfold FailedProbe.Reopens
    decide +kernel
  exact hnot (h {} lateProbe (by decide))

end WebhookRelay.Delivery
