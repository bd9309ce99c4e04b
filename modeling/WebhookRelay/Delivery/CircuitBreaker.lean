import WebhookRelay.Core.Models
import WebhookRelay.Delivery.Worker
import WebhookRelay.Foundation.Cell
import WebhookRelay.Foundation.Machine

/-!
# The circuit breaker

`app/delivery/circuit_breaker.py`: four Redis keys for one destination URL.
`isOpen`, `recordSuccess` and `recordFailure` are the three methods run with
nothing in between. Concurrent deliveries interleave them command by command:
`advance` is one Redis command, or one reading of the clock, of a call, and
`breaker` the machine of any number of calls of `_deliver_with_retry` on the
URL.
-/

namespace WebhookRelay.Delivery

open Foundation

inductive CbState where
  | OPEN
  | HALF_OPEN
  deriving DecidableEq

/-- `cb:{url}:state`, `:failures`, `:open_since` and `:half_tested`. -/
structure BreakerKeys where
  state : Cell Time CbState := .empty
  failures : Cell Time ℕ := .empty
  openSince : Cell Time Time := .empty
  halfTested : Cell Time Unit := .empty
  deriving DecidableEq

def failureWindow : Time := 60

section Methods

variable (settings : Settings) (now : Time) (keys : BreakerKeys)

def isOpen : Bool × BreakerKeys :=
  match keys.state.get now with
  | none => (false, keys)
  | some .OPEN =>
      let openSince := (keys.openSince.get now).getD 0
      if settings.circuitBreakerCooldownS ≤ now - openSince then
        (false, { keys with state := keys.state.set .HALF_OPEN })
      else (true, keys)
  | some .HALF_OPEN =>
      let (tested, halfTested) := keys.halfTested.setnx now ()
      (!tested, { keys with halfTested := halfTested })

def recordSuccess : BreakerKeys := {}

def recordFailure : BreakerKeys :=
  let (count, failures) := keys.failures.incr now
  let failures := failures.expire now (now + failureWindow)
  if settings.circuitBreakerThreshold ≤ count then
    { keys with
      failures := failures
      state := keys.state.set .OPEN
      openSince := keys.openSince.set now }
  else { keys with failures := failures }

end Methods

/-! ## Command by command -/

/-- Where a call of `_deliver_with_retry` stands. From `admitted` on the
breaker has let it through; `idle` is before and after. -/
inductive CallPhase where
  | idle
  | asking
  | sawOpen
  | gotSince (openSince : Time)
  | cooledDown
  | sawHalfOpen
  | admitted
  | succeeding
  | failing
  | counted (count : ℕ)
  | tripping
  | tripped
  | stamping (now : Time)
  deriving DecidableEq

namespace CallPhase

/-- Admitted, and its outcome not yet reported in full. -/
def InFlight : CallPhase → Bool
  | admitted | succeeding | failing | counted _ | tripping | tripped | stamping _ => true
  | _ => false

end CallPhase

/-- The next command of a call; `admitted` waits for its outcome instead. -/
def advance (settings : Settings) (now : Time) (keys : BreakerKeys) :
    CallPhase → Option (CallPhase × BreakerKeys)
  | .idle => none
  | .asking =>
      match keys.state.get now with
      | none => some (.admitted, keys)
      | some .OPEN => some (.sawOpen, keys)
      | some .HALF_OPEN => some (.sawHalfOpen, keys)
  | .sawOpen => some (.gotSince ((keys.openSince.get now).getD 0), keys)
  | .gotSince openSince =>
      if settings.circuitBreakerCooldownS ≤ now - openSince then some (.cooledDown, keys)
      else some (.idle, keys)
  | .cooledDown => some (.admitted, { keys with state := keys.state.set .HALF_OPEN })
  | .sawHalfOpen =>
      let (tested, halfTested) := keys.halfTested.setnx now ()
      some (if tested then .admitted else .idle, { keys with halfTested := halfTested })
  | .admitted => none
  | .succeeding => some (.idle, {})
  | .failing =>
      let (count, failures) := keys.failures.incr now
      some (.counted count, { keys with failures := failures })
  | .counted count =>
      some (if settings.circuitBreakerThreshold ≤ count then .tripping else .idle,
        { keys with failures := keys.failures.expire now (now + failureWindow) })
  | .tripping => some (.tripped, { keys with state := keys.state.set .OPEN })
  | .tripped => some (.stamping now, keys)
  | .stamping openSince => some (.idle, { keys with openSince := keys.openSince.set openSince })

/-- The arguments and answers of a call the breaker has admitted. -/
structure AdmittedCall where
  eventId : UUID := default
  route : RouteDict
  body : Json := .null
  attempt : ℕ := 0
  waits : ℕ := 0
  answers : CallAnswers := {}

/-- Which of the breaker's methods the call comes to, if any. -/
def AdmittedCall.report (settings : Settings) (call : AdmittedCall) : Option CallPhase :=
  (admitted settings call.eventId call.route call.body call.attempt call.waits call.answers).1
    |>.findSome? (fun effect => match effect with
      | .recordSuccess => some .succeeding
      | .recordFailure => some .failing
      | _ => none)

/-- Redis, the clock, and the calls under way, named by numbers. -/
structure BreakerSystem where
  clock : Time
  keys : BreakerKeys
  calls : ℕ → CallPhase

inductive BreakerLabel where
  | tick (now : Time)
  | start (i : ℕ)
  | step (i : ℕ)
  | settle (i : ℕ) (call : AdmittedCall)
  /-- The call raises, or its process dies, before its next command. -/
  | fault (i : ℕ)

def BreakerSystem.moveTo (s : BreakerSystem) (i : ℕ) (phase : CallPhase) : BreakerSystem :=
  { s with calls := Function.update s.calls i phase }

def breakerNext (settings : Settings) (s : BreakerSystem) : BreakerLabel → Option BreakerSystem
  | .tick now => if s.clock ≤ now then some { s with clock := now } else none
  | .start i => if s.calls i = .idle then some (s.moveTo i .asking) else none
  | .step i =>
      (advance settings s.clock s.keys (s.calls i)).map
        (fun (phase, keys) => { s.moveTo i phase with keys := keys })
  | .settle i call =>
      if s.calls i = .admitted then some (s.moveTo i ((call.report settings).getD .idle)) else none
  | .fault i => if s.calls i ≠ .idle then some (s.moveTo i .idle) else none

def breaker (settings : Settings) : Machine BreakerSystem BreakerLabel where
  init := fun s => s.keys = {} ∧ s.calls = fun _ => .idle
  next := breakerNext settings

@[simp] theorem moveTo_calls (s : BreakerSystem) (i : ℕ) (phase : CallPhase) :
    (s.moveTo i phase).calls = Function.update s.calls i phase := rfl

/-! ## What each step does -/

section Steps

variable {settings : Settings} {s t : BreakerSystem} {i : ℕ}

theorem breaker_tick {now : Time} (h : breakerNext settings s (.tick now) = some t) :
    s.clock ≤ now ∧ t = { s with clock := now } := by
  simp only [breakerNext, Option.ite_none_right_eq_some, Option.some.injEq] at h
  exact ⟨h.1, h.2.symm⟩

theorem breaker_start (h : breakerNext settings s (.start i) = some t) :
    s.calls i = .idle ∧ t = s.moveTo i .asking := by
  simp only [breakerNext, Option.ite_none_right_eq_some, Option.some.injEq] at h
  exact ⟨h.1, h.2.symm⟩

/-- Only here are the keys written. -/
theorem breaker_step (h : breakerNext settings s (.step i) = some t) :
    ∃ phase keys, advance settings s.clock s.keys (s.calls i) = some (phase, keys) ∧
      t = { s.moveTo i phase with keys := keys } := by
  simp only [breakerNext, Option.map_eq_some_iff, Prod.exists] at h
  obtain ⟨phase, keys, hadvance, ht⟩ := h
  exact ⟨phase, keys, hadvance, ht.symm⟩

theorem breaker_settle {call : AdmittedCall}
    (h : breakerNext settings s (.settle i call) = some t) :
    s.calls i = .admitted ∧ t = s.moveTo i ((call.report settings).getD .idle) := by
  simp only [breakerNext, Option.ite_none_right_eq_some, Option.some.injEq] at h
  exact ⟨h.1, h.2.symm⟩

theorem breaker_fault (h : breakerNext settings s (.fault i) = some t) :
    s.calls i ≠ .idle ∧ t = s.moveTo i .idle := by
  simp only [breakerNext, Option.ite_none_right_eq_some, Option.some.injEq] at h
  exact ⟨h.1, h.2.symm⟩

end Steps

/-! ## The methods are their commands -/

/-- Commands of one call with nothing in between, until it is admitted or
over. -/
def uninterrupted (settings : Settings) (now : Time) : ℕ → CallPhase × BreakerKeys →
    CallPhase × BreakerKeys
  | 0, at_ => at_
  | n + 1, (phase, keys) =>
      match advance settings now keys phase with
      | some next => uninterrupted settings now n next
      | none => (phase, keys)

theorem uninterrupted_isOpen (settings : Settings) (now : Time) (keys : BreakerKeys) :
    uninterrupted settings now 4 (.asking, keys) =
      (if (isOpen settings now keys).1 then .idle else .admitted,
        (isOpen settings now keys).2) := by
  unfold isOpen
  cases hstate : keys.state.get now with
  | none => simp [uninterrupted, advance, hstate]
  | some state =>
      cases state with
      | OPEN =>
          by_cases hcooled :
              settings.circuitBreakerCooldownS ≤ now - (keys.openSince.get now).getD 0
          · simp [uninterrupted, advance, hstate, hcooled]
          · simp [uninterrupted, advance, hstate, hcooled]
      | HALF_OPEN =>
          cases htested : (keys.halfTested.setnx now ()).1 <;>
            simp [uninterrupted, advance, hstate, htested]

theorem uninterrupted_recordSuccess (settings : Settings) (now : Time) (keys : BreakerKeys) :
    uninterrupted settings now 1 (.succeeding, keys) = (.idle, recordSuccess) := rfl

theorem uninterrupted_recordFailure (settings : Settings) (now : Time) (keys : BreakerKeys) :
    uninterrupted settings now 5 (.failing, keys) = (.idle, recordFailure settings now keys) := by
  unfold recordFailure
  by_cases htrip : settings.circuitBreakerThreshold ≤ (keys.failures.incr now).1
  · simp [uninterrupted, advance, htrip]
  · simp [uninterrupted, advance, htrip]

end WebhookRelay.Delivery
