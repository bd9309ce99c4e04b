import WebhookRelay.Gateway.Handler
import WebhookRelay.Foundation.Cell
import WebhookRelay.Foundation.Machine

/-!
# Concurrent webhook requests

Any number of calls of `receive_webhook`, each of which moves through its
checks, the Redis reservation, the commit of its two rows and its answer.
Between any two of these it may fail: an exception, or the death of the
process. Endpoints change at any time. Redis keys live until their expiry.
-/

namespace WebhookRelay.Gateway

open Foundation

/-- Where a request stands. `setNxAt` is when its `SET NX` succeeded, if it
came with a key. `earlier`, at a duplicate answer, is history: the requests
that had arrived by then. -/
inductive Phase where
  | absent
  | arrived (request : WebhookRequest)
  | checked (request : WebhookRequest) (endpoint : Endpoint) (payload : Json)
  | reserved (request : WebhookRequest) (endpoint : Endpoint) (payload : Json)
      (setNxAt : Option Time)
  | committed (eventId : UUID)
  | accepted (eventId : UUID)
  | duplicate (endpointId : UUID) (key : String) (earlier : List ℕ)
  | rejected (rejection : Rejection)
  | failed

def Phase.Finished : Phase → Bool
  | accepted _ | duplicate _ _ _ | rejected _ | failed => true
  | _ => false

/-- A committed event, with the request it came from and the time of that
request's `SET NX`. -/
structure Ingested where
  request : ℕ
  event : Event
  setNxAt : Option Time

structure GatewayState where
  now : Time
  endpoints : List Endpoint
  reservations : String → Cell Time Unit := fun _ => .empty
  requests : ℕ → Phase := fun _ => .absent
  arrivals : List ℕ := []
  ledger : List Ingested := []
  outbox : List OutboxRecord := []

/-- The `events` table. -/
def GatewayState.events (s : GatewayState) : List Event := s.ledger.map Ingested.event

def GatewayState.moveTo (s : GatewayState) (i : ℕ) (phase : Phase) : GatewayState :=
  { s with requests := Function.update s.requests i phase }

inductive GatewayLabel where
  | tick (now : Time)
  | setEndpoints (endpoints : List Endpoint)
  | arrive (i : ℕ) (request : WebhookRequest)
  | check (i : ℕ) (limiter : Except Exc Bool)
  | reserve (i : ℕ)
  | commit (i : ℕ) (eventId outboxId : UUID)
  | answer (i : ℕ)
  | fail (i : ℕ)

section Steps

variable (rt : Runtime) (settings : Settings)

def checkStep (s : GatewayState) (i : ℕ) (limiter : Except Exc Bool) : Option GatewayState :=
  match s.requests i with
  | .arrived request =>
      match check rt settings s.endpoints limiter request with
      | .ok (endpoint, payload) => some (s.moveTo i (.checked request endpoint payload))
      | .error rejection => some (s.moveTo i (.rejected rejection))
  | _ => none

/-- `redis.set(dedup_key, "1", nx=True, ex=idempotency_ttl_s)`, for a request
with a key. Redis refuses an expiry that is not positive. -/
def reserve (s : GatewayState) (i : ℕ) : Option GatewayState :=
  match s.requests i with
  | .checked request endpoint payload =>
      match reservedKey request with
      | none => some (s.moveTo i (.reserved request endpoint payload none))
      | some key =>
          let cell := s.reservations (dedupKey endpoint.id key)
          if settings.idempotencyTtlS ≤ 0 then none
          else if (cell.setnxEx s.now () (s.now + settings.idempotencyTtlS)).1 then
            some { s.moveTo i (.reserved request endpoint payload (some s.now)) with
              reservations := Function.update s.reservations (dedupKey endpoint.id key)
                (cell.setnxEx s.now () (s.now + settings.idempotencyTtlS)).2 }
          else some (s.moveTo i (.duplicate endpoint.id key s.arrivals))
  | _ => none

/-- The transaction that inserts both rows, with fresh primary keys; the
foreign key needs the endpoint to be there still. -/
def commit (s : GatewayState) (i : ℕ) (eventId outboxId : UUID) : Option GatewayState :=
  match s.requests i with
  | .reserved request endpoint payload setNxAt =>
      if eventId ∉ s.events.map Event.id ∧ outboxId ∉ s.outbox.map OutboxRecord.id ∧
          endpoint.id ∈ s.endpoints.map Endpoint.id then
        some { s.moveTo i (.committed eventId) with
          ledger := s.ledger ++ [⟨i, newEvent eventId s.now endpoint payload request, setNxAt⟩]
          outbox := s.outbox ++ [newOutboxRecord settings outboxId eventId s.now endpoint] }
      else none
  | _ => none

def gatewayNext (s : GatewayState) : GatewayLabel → Option GatewayState
  | .tick now => if s.now ≤ now then some { s with now := now } else none
  | .setEndpoints endpoints => some { s with endpoints := endpoints }
  | .arrive i request =>
      match s.requests i with
      | .absent => some { s.moveTo i (.arrived request) with arrivals := s.arrivals ++ [i] }
      | _ => none
  | .check i limiter => checkStep rt settings s i limiter
  | .reserve i => reserve settings s i
  | .commit i eventId outboxId => commit settings s i eventId outboxId
  | .answer i =>
      match s.requests i with
      | .committed eventId => some (s.moveTo i (.accepted eventId))
      | _ => none
  | .fail i =>
      match s.requests i with
      | .absent => none
      | phase => if phase.Finished then none else some (s.moveTo i .failed)

/-- The gateway, from an empty `events` table. -/
def gateway : Machine GatewayState GatewayLabel where
  init := fun s => s = { now := s.now, endpoints := s.endpoints }
  next := gatewayNext rt settings

end Steps

/-! ## What each step does -/

@[simp] theorem moveTo_requests (s : GatewayState) (i : ℕ) (phase : Phase) :
    (s.moveTo i phase).requests = Function.update s.requests i phase := rfl

/-- After a step of request `i`, a request is in `i`'s new phase or where it was. -/
theorem phase_cases {s t : GatewayState} {i q : ℕ} {phase other : Phase}
    (ht : t.requests = (s.moveTo i phase).requests) (h : t.requests q = other) :
    (q = i ∧ phase = other) ∨ (q ≠ i ∧ s.requests q = other) := by
  rw [ht, moveTo_requests] at h
  by_cases hqi : q = i
  · subst hqi
    rw [Function.update_self] at h
    exact Or.inl ⟨rfl, h⟩
  · rw [Function.update_of_ne hqi] at h
    exact Or.inr ⟨hqi, h⟩

theorem phase_self {s t : GatewayState} {i : ℕ} {phase : Phase}
    (ht : t.requests = (s.moveTo i phase).requests) : t.requests i = phase := by
  rw [ht, moveTo_requests, Function.update_self]

theorem phase_of_ne {s t : GatewayState} {i q : ℕ} {phase : Phase}
    (ht : t.requests = (s.moveTo i phase).requests) (hqi : q ≠ i) :
    t.requests q = s.requests q := by
  rw [ht, moveTo_requests, Function.update_of_ne hqi]

variable {rt : Runtime} {settings : Settings} {s t : GatewayState} {i : ℕ}

theorem tick_cases {now : Time} (h : gatewayNext rt settings s (.tick now) = some t) :
    s.now ≤ now ∧ t = { s with now := now } := by
  simp only [gatewayNext, Option.ite_none_right_eq_some, Option.some.injEq] at h
  exact ⟨h.1, h.2.symm⟩

theorem arrive_cases {request : WebhookRequest}
    (h : gatewayNext rt settings s (.arrive i request) = some t) :
    s.requests i = .absent ∧
      t = { s.moveTo i (.arrived request) with arrivals := s.arrivals ++ [i] } := by
  simp only [gatewayNext] at h
  split at h
  · rename_i habsent
    exact ⟨habsent, (Option.some.inj h).symm⟩
  · cases h

theorem answer_cases (h : gatewayNext rt settings s (.answer i) = some t) :
    ∃ eventId, s.requests i = .committed eventId ∧ t = s.moveTo i (.accepted eventId) := by
  simp only [gatewayNext] at h
  split at h
  · rename_i eventId hphase
    exact ⟨eventId, hphase, (Option.some.inj h).symm⟩
  · cases h

/-- Any request that is under way may fail. -/
theorem fail_cases (h : gatewayNext rt settings s (.fail i) = some t) :
    s.requests i ≠ .absent ∧ t = s.moveTo i .failed := by
  simp only [gatewayNext] at h
  split at h
  · cases h
  · rename_i hpresent
    split at h
    · cases h
    · exact ⟨hpresent, (Option.some.inj h).symm⟩

/-- The check moves a request on or rejects it. -/
theorem checkStep_cases {limiter : Except Exc Bool}
    (h : checkStep rt settings s i limiter = some t) :
    ∃ request, s.requests i = .arrived request ∧
      ((∃ endpoint payload, t = s.moveTo i (.checked request endpoint payload)) ∨
        ∃ rejection, t = s.moveTo i (.rejected rejection)) := by
  unfold checkStep at h
  split at h
  · rename_i request hphase
    refine ⟨request, hphase, ?_⟩
    split at h
    · rename_i endpoint payload _
      exact Or.inl ⟨endpoint, payload, (Option.some.inj h).symm⟩
    · rename_i rejection _
      exact Or.inr ⟨rejection, (Option.some.inj h).symm⟩
  · cases h

/-- Without a key the reservation is skipped; with one it is won or lost. -/
theorem reserve_cases (h : reserve settings s i = some t) :
    ∃ request endpoint payload, s.requests i = .checked request endpoint payload ∧
      ((reservedKey request = none ∧ t = s.moveTo i (.reserved request endpoint payload none)) ∨
        (∃ key, reservedKey request = some key ∧ 0 < settings.idempotencyTtlS ∧
          (s.reservations (dedupKey endpoint.id key)).get s.now = none ∧
          t = { s.moveTo i (.reserved request endpoint payload (some s.now)) with
            reservations := Function.update s.reservations (dedupKey endpoint.id key)
              ⟨some ((), some (s.now + settings.idempotencyTtlS))⟩ }) ∨
        (∃ key, reservedKey request = some key ∧
          (s.reservations (dedupKey endpoint.id key)).get s.now = some () ∧
          t = s.moveTo i (.duplicate endpoint.id key s.arrivals))) := by
  unfold reserve at h
  split at h
  · rename_i request endpoint payload hphase
    refine ⟨request, endpoint, payload, hphase, ?_⟩
    split at h
    · rename_i hkey
      exact Or.inl ⟨hkey, (Option.some.inj h).symm⟩
    · rename_i key hkey
      split at h
      · cases h
      · rename_i httl
        dsimp only at h
        cases hget : (s.reservations (dedupKey endpoint.id key)).get s.now with
        | none =>
            rw [Cell.setnxEx_of_none hget] at h
            exact Or.inr (Or.inl ⟨key, hkey, not_le.mp httl, hget, (Option.some.inj h).symm⟩)
        | some _ =>
            rw [Cell.setnxEx_of_some hget] at h
            exact Or.inr (Or.inr ⟨key, hkey, hget, (Option.some.inj h).symm⟩)
  · cases h

theorem commit_cases {eventId outboxId : UUID} (h : commit settings s i eventId outboxId = some t) :
    ∃ request endpoint payload setNxAt,
      s.requests i = .reserved request endpoint payload setNxAt ∧
      eventId ∉ s.events.map Event.id ∧
      t = { s.moveTo i (.committed eventId) with
        ledger := s.ledger ++ [⟨i, newEvent eventId s.now endpoint payload request, setNxAt⟩]
        outbox := s.outbox ++ [newOutboxRecord settings outboxId eventId s.now endpoint] } := by
  unfold commit at h
  split at h
  · rename_i request endpoint payload setNxAt hphase
    simp only [Option.ite_none_right_eq_some, Option.some.injEq] at h
    exact ⟨request, endpoint, payload, setNxAt, hphase, h.1.1, h.2.symm⟩
  · cases h

end WebhookRelay.Gateway
