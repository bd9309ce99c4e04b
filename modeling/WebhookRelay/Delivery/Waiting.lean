import Mathlib.Algebra.BigOperators.Intervals
import Mathlib.Order.Bounds.Basic
import WebhookRelay.Delivery.DeadLetters

/-!
# How long a delivery sleeps

`_deliver_with_retry` sleeps for a second where the destination limiter turns
it down, for the cooldown where the breaker does, and for a randomised backoff
after an attempt that failed. Before each attempt it may be turned down five
times, and between an attempt and the next there is one of the two pauses. The
sum of the longest of these is what a delivery can sleep at most, and some
delivery does: nothing but the settings of its route bounds the time for which
it keeps its place in the worker.
-/

namespace WebhookRelay.Delivery

/-- The arguments of `asyncio.sleep`. -/
def sleepsOf (effects : List Effect) : List Time :=
  effects.filterMap (fun effect => match effect with
    | .sleep seconds => some seconds
    | _ => none)

def slept (effects : List Effect) : Time := (sleepsOf effects).sum

/-- `random.uniform` stays within its bounds. -/
def Drawn (ans : CallAnswers) : Prop := 0 ≤ ans.jitter ∧ ans.jitter ≤ 1

section Longest

variable (settings : Settings) (route : RouteDict)

/-- Between an attempt and the next: the cooldown, or the backoff with all of
its jitter. -/
def longestPause (attempt : ℕ) : Time :=
  max settings.circuitBreakerCooldownS (backoff settings route attempt 1)

/-- The attempts that are followed by another. -/
def pauses : ℕ := (maxRetries settings route - 1).toNat

/-- From a call that has been turned down `waits` times for this attempt. -/
def longestSleep (attempt waits : ℕ) : Time :=
  (maxRateLimitWaits - waits : ℕ) +
    ∑ a ∈ Finset.Ico attempt (pauses settings route),
      (longestPause settings route a + maxRateLimitWaits)

end Longest

variable {settings : Settings} {eventId : UUID} {route : RouteDict} {body : Json}
  {attempt waits : ℕ} {ans : CallAnswers} {effects : List Effect}

@[simp] theorem slept_append (first second : List Effect) :
    slept (first ++ second) = slept first + slept second := by
  unfold slept sleepsOf
  rw [List.filterMap_append, List.sum_append]

theorem slept_of_nil (h : sleepsOf effects = []) : slept effects = 0 := by
  unfold slept
  rw [h]
  rfl

theorem slept_of_single {seconds : Time} (h : sleepsOf effects = [seconds]) :
    slept effects = seconds := by
  unfold slept
  rw [h, List.sum_singleton]

/-! ## One call -/

/-- How a call may have slept that goes on: before the same attempt, or between
it and the next. -/
def Pause (settings : Settings) (route : RouteDict) (attempt waits : ℕ) (ans : CallAnswers)
    (sleeps : List Time) (attempt' waits' : ℕ) : Prop :=
  (attempt' = attempt ∧ waits' = waits + 1 ∧ waits < maxRateLimitWaits ∧ sleeps = [1]) ∨
    (attempt' = attempt + 1 ∧ waits' = 0 ∧ (attempt : ℤ) + 1 < maxRetries settings route ∧
      (sleeps = [settings.circuitBreakerCooldownS] ∨
        sleeps = [backoff settings route attempt ans.jitter]))

/-- Only a call that goes on has slept. -/
def Paced (P : List Time → ℕ → ℕ → Prop) (result : List Effect × Next) : Prop :=
  match result.2 with
  | .again attempt waits => P (sleepsOf result.1) attempt waits
  | _ => sleepsOf result.1 = []

namespace Paced

variable {P : List Time → ℕ → ℕ → Prop} {rest : List Effect × Next}

theorem returned : Paced P ([], .returned) := rfl

theorem recorded {row : DeliveryAttempt} (h : Paced P rest) : Paced P (recorded ans row rest) := by
  unfold Delivery.recorded
  split
  · rfl
  · exact h

theorem reported (h : Paced P rest) :
    Paced P (reported ans .recordSuccess rest) ∧ Paced P (reported ans .recordFailure rest) := by
  unfold Delivery.reported
  split
  · exact ⟨rfl, rfl⟩
  · exact ⟨h, h⟩

theorem request {request : HttpRequest} {outcome : HttpOutcome} (h : Paced P rest) :
    Paced P (.request request outcome :: rest.1, rest.2) := h

end Paced

theorem paced_conclude {outcome : HttpOutcome} :
    Paced (Pause settings route attempt waits ans)
      (conclude settings eventId route body attempt ans outcome) := by
  unfold conclude
  split
  · exact Paced.returned.reported.1
  · apply And.right
    apply Paced.reported
    split
    · rfl
    · split
      · split
        · rename_i hmore
          exact Or.inr ⟨rfl, rfl, hmore, Or.inr rfl⟩
        · unfold bury
          split <;> rfl
      · rfl

theorem paced_requested : Paced (Pause settings route attempt waits ans)
    (requested settings eventId route body attempt ans) := by
  unfold requested
  split
  · exact paced_conclude.recorded
  · exact paced_conclude.recorded.request

theorem paced_deliverCall (settings : Settings) (eventId : UUID) (route : RouteDict) (body : Json)
    (attempt waits : ℕ) (ans : CallAnswers) : Paced (Pause settings route attempt waits ans)
    (deliverCall settings eventId route body attempt waits ans) := by
  unfold deliverCall
  split
  · rfl
  · apply Paced.recorded
    split
    · rename_i hmore
      exact Or.inr ⟨rfl, rfl, hmore, Or.inl rfl⟩
    · rfl
  · unfold admitted
    split
    · rfl
    · exact Paced.recorded rfl
    · split
      · rfl
      · split
        · exact Paced.recorded rfl
        · rename_i hwaits
          exact Or.inl ⟨rfl, rfl, by omega, rfl⟩
      · exact paced_requested

/-! ## The bound -/

theorem mem_pauses_iff :
    attempt < pauses settings route ↔ (attempt : ℤ) + 1 < maxRetries settings route := by
  unfold pauses
  omega

theorem longestSleep_wait (hwaits : waits < maxRateLimitWaits) :
    longestSleep settings route attempt waits =
      1 + longestSleep settings route attempt (waits + 1) := by
  unfold longestSleep
  have hcast : maxRateLimitWaits - waits = 1 + (maxRateLimitWaits - (waits + 1)) := by omega
  rw [hcast]
  push_cast
  ring

theorem longestSleep_pause (hmore : (attempt : ℤ) + 1 < maxRetries settings route) :
    longestSleep settings route attempt waits =
      (maxRateLimitWaits - waits : ℕ) + (longestPause settings route attempt +
        longestSleep settings route (attempt + 1) 0) := by
  unfold longestSleep
  rw [Finset.sum_eq_sum_Ico_succ_bot (mem_pauses_iff.mpr hmore), Nat.sub_zero]
  ring

/-- More jitter, more backoff. -/
theorem backoff_mono (hback : 0 ≤ backoffMs settings route) {jitter jitter' : ℚ}
    (h : jitter ≤ jitter') :
    backoff settings route attempt jitter ≤ backoff settings route attempt jitter' := by
  have hback' : (0 : ℚ) ≤ backoffMs settings route := by exact_mod_cast hback
  unfold backoff
  dsimp only
  gcongr

theorem backoff_nonneg (hback : 0 ≤ backoffMs settings route) {jitter : ℚ} (h : 0 ≤ jitter) :
    0 ≤ backoff settings route attempt jitter := by
  have hback' : (0 : ℚ) ≤ backoffMs settings route := by exact_mod_cast hback
  unfold backoff
  positivity

theorem longestSleep_nonneg (hback : 0 ≤ backoffMs settings route) :
    0 ≤ longestSleep settings route attempt waits := by
  unfold longestSleep
  have hpause : ∀ a, 0 ≤ longestPause settings route a := fun a =>
    le_max_of_le_right (backoff_nonneg hback zero_le_one)
  apply add_nonneg (Nat.cast_nonneg _)
  exact Finset.sum_nonneg (fun a _ => add_nonneg (hpause a) (Nat.cast_nonneg _))

/-- What a call sleeps is taken from what the delivery may still sleep. -/
theorem slept_add_le (hback : 0 ≤ backoffMs settings route) (hdrawn : Drawn ans)
    {attempt' waits' : ℕ}
    (h : Pause settings route attempt waits ans (sleepsOf effects) attempt' waits') :
    slept effects + longestSleep settings route attempt' waits' ≤
      longestSleep settings route attempt waits := by
  rcases h with ⟨rfl, rfl, hwaits, hsleeps⟩ | ⟨rfl, rfl, hmore, hsleeps⟩
  · rw [slept_of_single hsleeps, longestSleep_wait hwaits]
  · have hpause : slept effects ≤ longestPause settings route attempt := by
      rcases hsleeps with hcooldown | hbackoff
      · rw [slept_of_single hcooldown]
        exact le_max_left _ _
      · rw [slept_of_single hbackoff]
        exact le_max_of_le_right (backoff_mono hback hdrawn.2)
    rw [longestSleep_pause hmore]
    have hwaits : (0 : Time) ≤ (maxRateLimitWaits - waits : ℕ) := Nat.cast_nonneg _
    linarith

theorem slept_deliver_le (hback : 0 ≤ backoffMs settings route) {answers : List CallAnswers}
    {result : Except Exc Unit} (hdrawn : ∀ ans ∈ answers, Drawn ans)
    (h : deliver settings eventId route body attempt waits answers = some (effects, result)) :
    slept effects ≤ longestSleep settings route attempt waits := by
  induction answers generalizing attempt waits effects with
  | nil => cases h
  | cons ans rest ih =>
      have hpaced := paced_deliverCall settings eventId route body attempt waits ans
      unfold deliver at h
      split at h
      · -- the call goes on, and pays for its own sleep
        rename_i first attempt' waits' hcall
        simp only [Option.map_eq_some_iff, Prod.exists, Prod.mk.injEq] at h
        obtain ⟨second, result', hrest, rfl, rfl⟩ := h
        rw [hcall] at hpaced
        have hlater := ih (fun later hlater => hdrawn later (List.mem_cons_of_mem _ hlater)) hrest
        have hfirst := slept_add_le hback (hdrawn ans List.mem_cons_self) hpaced
        rw [slept_append]
        linarith
      · rename_i first hcall
        rw [hcall] at hpaced
        split at h
        · cases h
          rw [slept_of_nil hpaced]
          exact longestSleep_nonneg hback
        · cases h
      · rename_i first exc hcall
        rw [hcall] at hpaced
        split at h
        · cases h
          rw [slept_of_nil hpaced]
          exact longestSleep_nonneg hback
        · cases h

/-! ## The bound is met -/

/-- The destination limiter says no. -/
def turnedDown : CallAnswers := { destAllows := .ok false }

/-- The breaker is open. -/
def brokenOff : CallAnswers := { isOpen := .ok true }

/-- The destination fails, and all of the jitter is drawn. -/
def failing : CallAnswers := { http := .response 500 "", jitter := 1 }

theorem deliverCall_turnedDown (hwaits : waits < maxRateLimitWaits) :
    deliverCall settings eventId route body attempt waits turnedDown =
      ([.sleep 1], .again attempt (waits + 1)) := by
  simp [deliverCall, admitted, turnedDown, hwaits]

theorem deliverCall_brokenOff (hmore : (attempt : ℤ) + 1 < maxRetries settings route) :
    deliverCall settings eventId route body attempt waits brokenOff =
      ([.attempt (skippedRow eventId route body attempt brokenOff "circuit_breaker_open"),
        .sleep settings.circuitBreakerCooldownS], .again (attempt + 1) 0) := by
  simp [deliverCall, recorded, brokenOff, hmore]

theorem deliverCall_failing (hmore : (attempt : ℤ) + 1 < maxRetries settings route) :
    deliverCall settings eventId route body attempt waits failing =
      ([.request (request settings route body) (.response 500 ""),
        .attempt (attemptRow eventId route body attempt failing (.response 500 "")),
        .recordFailure, .sleep (backoff settings route attempt 1)], .again (attempt + 1) 0) := by
  simp [deliverCall, admitted, requested, recorded, conclude, reported, failing, hmore,
    HttpOutcome.isSuccess, HttpOutcome.isClientError, HttpOutcome.isRetryable, HttpOutcome.status]

theorem deliverCall_served :
    deliverCall settings eventId route body attempt waits {} =
      ([.request (request settings route body) (.response 200 ""),
        .attempt (attemptRow eventId route body attempt {} (.response 200 "")),
        .recordSuccess], .returned) := by
  simp [deliverCall, admitted, requested, recorded, conclude, reported, HttpOutcome.isSuccess,
    HttpOutcome.status]

/-- A delivery that its next request brings to an end. -/
theorem exists_deliver_served (settings : Settings) (eventId : UUID) (route : RouteDict)
    (body : Json) (attempt waits : ℕ) :
    ∃ effects, deliver settings eventId route body attempt waits [{}] = some (effects, .ok ()) ∧
      sleepsOf effects = [] := by
  unfold deliver
  rw [deliverCall_served]
  exact ⟨_, rfl, rfl⟩

theorem drawn_of_jitter (h : ans.jitter = 0 ∨ ans.jitter = 1) : Drawn ans := by
  unfold Drawn
  rcases h with h | h <;>
  · rw [h]
    norm_num

/-- One more call before a delivery. -/
theorem deliver_cons {attempt' waits' : ℕ} {first second : List Effect}
    {answers : List CallAnswers} {result : Except Exc Unit}
    (hcall : deliverCall settings eventId route body attempt waits ans =
      (first, .again attempt' waits'))
    (hrest : deliver settings eventId route body attempt' waits' answers =
      some (second, result)) :
    deliver settings eventId route body attempt waits (ans :: answers) =
      some (first ++ second, result) := by
  unfold deliver
  rw [hcall]
  dsimp only
  rw [hrest]
  rfl

/-- There are answers that make a delivery sleep for all of its time: it is
turned down as often as it may be before each attempt, and comes to the longer
pause after it. -/
theorem exists_deliver_longest (settings : Settings) (eventId : UUID) (route : RouteDict)
    (body : Json) (attempt waits : ℕ) (hwaits : waits ≤ maxRateLimitWaits) :
    ∃ answers effects, (∀ ans ∈ answers, Drawn ans) ∧
      deliver settings eventId route body attempt waits answers = some (effects, .ok ()) ∧
      slept effects = longestSleep settings route attempt waits := by
  induction hbudget : callBudget settings route attempt waits using Nat.strong_induction_on
    generalizing attempt waits with
  | _ budget ih =>
      -- a call that goes on, and the delivery after it
      have hgo : ∀ ans first attempt' waits', Drawn ans →
          deliverCall settings eventId route body attempt waits ans =
            (first, .again attempt' waits') → waits' ≤ maxRateLimitWaits →
          slept first + longestSleep settings route attempt' waits' =
            longestSleep settings route attempt waits →
          ∃ answers effects, (∀ ans ∈ answers, Drawn ans) ∧
            deliver settings eventId route body attempt waits answers = some (effects, .ok ()) ∧
            slept effects = longestSleep settings route attempt waits := by
        intro ans first attempt' waits' hdrawn hcall hwaits' hsum
        have hlt := callBudget_lt (deliverCall_again hcall).2
        obtain ⟨answers, effects, hall, hdeliver, hslept⟩ := ih _ (hbudget ▸ hlt) _ _ hwaits' rfl
        refine ⟨ans :: answers, first ++ effects, List.forall_mem_cons.mpr ⟨hdrawn, hall⟩,
          deliver_cons hcall hdeliver, ?_⟩
        rw [slept_append, hslept, hsum]
      rcases Nat.lt_or_eq_of_le hwaits with hless | rfl
      · apply hgo turnedDown _ _ _ (drawn_of_jitter (Or.inl rfl)) (deliverCall_turnedDown hless)
          hless
        rw [slept_of_single rfl, longestSleep_wait hless]
      · by_cases hmore : (attempt : ℤ) + 1 < maxRetries settings route
        · rcases le_total (backoff settings route attempt 1) settings.circuitBreakerCooldownS with
            hcooldown | hbackoff
          · apply hgo brokenOff _ _ _ (drawn_of_jitter (Or.inl rfl)) (deliverCall_brokenOff hmore)
              (Nat.zero_le _)
            rw [slept_of_single rfl, longestSleep_pause hmore, longestPause, max_eq_left hcooldown]
            simp
          · apply hgo failing _ _ _ (drawn_of_jitter (Or.inr rfl)) (deliverCall_failing hmore)
              (Nat.zero_le _)
            rw [slept_of_single rfl, longestSleep_pause hmore, longestPause, max_eq_right hbackoff]
            simp
        · obtain ⟨effects, hdeliver, hnone⟩ := exists_deliver_served settings eventId route body attempt
            maxRateLimitWaits
          have hlast : pauses settings route ≤ attempt :=
            not_lt.mp (fun h => hmore (mem_pauses_iff.mp h))
          refine ⟨[{}], effects, ?_, hdeliver, ?_⟩
          · exact List.forall_mem_singleton.mpr (drawn_of_jitter (Or.inl rfl))
          · rw [slept_of_nil hnone, longestSleep, Finset.Ico_eq_empty_of_le hlast]
            simp

/-- The longest that a delivery can sleep, over whatever it is answered. With
the backoff of every attempt twice that of the one before, the settings of the
route alone decide how long its delivery stays in the worker. -/
theorem isGreatest_slept (settings : Settings) (eventId : UUID) (route : RouteDict) (body : Json)
    (hback : 0 ≤ backoffMs settings route) :
    IsGreatest {seconds | ∃ answers effects result, (∀ ans ∈ answers, Drawn ans) ∧
        deliver settings eventId route body 0 0 answers = some (effects, result) ∧
        slept effects = seconds}
      (maxRateLimitWaits + ∑ a ∈ Finset.range (maxRetries settings route - 1).toNat,
        (max settings.circuitBreakerCooldownS (backoff settings route a 1) +
          maxRateLimitWaits)) := by
  have hlongest : longestSleep settings route 0 0 =
      maxRateLimitWaits + ∑ a ∈ Finset.range (maxRetries settings route - 1).toNat,
        (max settings.circuitBreakerCooldownS (backoff settings route a 1) +
          maxRateLimitWaits) := by
    unfold longestSleep
    rw [Nat.sub_zero, ← Finset.range_eq_Ico]
    rfl
  rw [← hlongest]
  constructor
  · obtain ⟨answers, effects, hdrawn, hdeliver, hslept⟩ :=
      exists_deliver_longest settings eventId route body 0 0 (Nat.zero_le _)
    exact ⟨answers, effects, .ok (), hdrawn, hdeliver, hslept⟩
  · rintro seconds ⟨answers, effects, result, hdrawn, hdeliver, rfl⟩
    exact slept_deliver_le hback hdrawn hdeliver

/-- A route with the defaults: four pauses of up to thirty seconds, and five
seconds before each of five attempts. -/
theorem isGreatest_slept_defaults :
    IsGreatest {seconds | ∃ answers effects result, (∀ ans ∈ answers, Drawn ans) ∧
        deliver {} 1 { id := 2, url := "https://hooks.example.com/in" } .null 0 0 answers =
          some (effects, result) ∧ slept effects = seconds} 145 := by
  have h := isGreatest_slept {} 1 { id := 2, url := "https://hooks.example.com/in" } .null
    (by decide)
  have hsum : (maxRateLimitWaits : Time) + ∑ a ∈ Finset.range
      (maxRetries {} { id := 2, url := "https://hooks.example.com/in" } - 1).toNat,
        (max ({} : Settings).circuitBreakerCooldownS
          (backoff {} { id := 2, url := "https://hooks.example.com/in" } a 1) +
            maxRateLimitWaits) = 145 := by
    decide +kernel
  exact hsum ▸ h

end WebhookRelay.Delivery
