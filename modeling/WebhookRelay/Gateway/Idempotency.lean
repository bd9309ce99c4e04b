import WebhookRelay.Gateway.System

/-!
# One event per key and window

Two events of one endpoint with one idempotency key come from requests whose
`SET NX` commands succeeded at least `idempotency_ttl_s` apart. The invariant
is about the reservations that can still lead, or have led, to an event:
each one's time is covered by the expiry its Redis key now has.
-/

namespace WebhookRelay.Gateway

open Foundation

/-- Request `q` won the reservation `key` at time `t`, and has committed or
may still commit its event. -/
def Holds (s : GatewayState) (q : ℕ) (key : String) (t : Time) : Prop :=
  (∃ request endpoint payload k, s.requests q = .reserved request endpoint payload (some t) ∧
      reservedKey request = some k ∧ key = dedupKey endpoint.id k) ∨
    ∃ a ∈ s.ledger, a.request = q ∧ a.setNxAt = some t ∧
      ∃ k, a.event.idempotencyKey = some k ∧ k ≠ "" ∧ key = dedupKey a.event.endpointId k

/-- No event will come of the request any more. -/
def Phase.PastCommit : Phase → Bool
  | committed _ | accepted _ | failed => true
  | _ => false

structure IdempotencyInv (settings : Settings) (s : GatewayState) : Prop where
  expiry : ∀ q key t, Holds s q key t →
    ∃ e, (s.reservations key).slot = some ((), some e) ∧ t + settings.idempotencyTtlS ≤ e
  apart : ∀ q q' key t t', q ≠ q' → Holds s q key t → Holds s q' key t' →
    t + settings.idempotencyTtlS ≤ t' ∨ t' + settings.idempotencyTtlS ≤ t
  /-- Who comes with a key waits for its reservation. -/
  keyed : ∀ q request endpoint payload, s.requests q = .reserved request endpoint payload none →
    reservedKey request = none
  ledger_keyed : ∀ a ∈ s.ledger, ∀ k, a.event.idempotencyKey = some k → k ≠ "" →
    ∃ t, a.setNxAt = some t
  ledger_past : ∀ a ∈ s.ledger, (s.requests a.request).PastCommit = true
  ledger_unique : ∀ a ∈ s.ledger, ∀ b ∈ s.ledger, a.request = b.request → a = b
  committed : ∀ q id, (s.requests q = .committed id ∨ s.requests q = .accepted id) →
    ∃ a ∈ s.ledger, a.request = q ∧ a.event.id = id

theorem reservedKey_eq_some_iff {request : WebhookRequest} {k : String} :
    reservedKey request = some k ↔ request.idempotencyKey = some k ∧ k ≠ "" := by
  unfold reservedKey
  cases hkey : request.idempotencyKey with
  | none => simp
  | some key =>
      by_cases hempty : key = ""
      · subst hempty
        simp only [if_true, Option.some.injEq]
        constructor
        · intro h
          cases h
        · rintro ⟨rfl, hne⟩
          exact absurd rfl hne
      · simp only [if_neg hempty, Option.some.injEq]
        constructor
        · rintro rfl
          exact ⟨rfl, hempty⟩
        · exact fun h => h.1

variable {rt : Runtime} {settings : Settings} {s t : GatewayState} {i : ℕ}

/-! ## Steps that win no reservation and commit nothing -/

/-- Moving one request on creates no reservation, unless to `reserved`. -/
theorem holds_of_moveTo {phase : Phase} (hphase : ∀ r e p u, phase ≠ .reserved r e p (some u))
    {q : ℕ} {key : String} {u : Time} (h : Holds (s.moveTo i phase) q key u) : Holds s q key u := by
  rcases h with ⟨request, endpoint, payload, k, hq, hrest⟩ | hledger
  · rcases phase_cases rfl hq with ⟨_, hq⟩ | ⟨_, hq⟩
    · exact absurd hq (hphase request endpoint payload u)
    · exact Or.inl ⟨request, endpoint, payload, k, hq, hrest⟩
  · exact Or.inr hledger

theorem IdempotencyInv.moveTo (inv : IdempotencyInv settings s) {phase : Phase}
    (hphase : ∀ r e p u, phase ≠ .reserved r e p (some u))
    (hkeyed : ∀ r e p, phase = .reserved r e p none → reservedKey r = none)
    (hpast : (s.requests i).PastCommit = true → phase.PastCommit = true)
    (hcommitted : ∀ id, (phase = .committed id ∨ phase = .accepted id) →
      ∃ a ∈ s.ledger, a.request = i ∧ a.event.id = id) :
    IdempotencyInv settings (s.moveTo i phase) := by
  refine ⟨?_, ?_, ?_, inv.ledger_keyed, ?_, inv.ledger_unique, ?_⟩
  · intro q key u h
    exact inv.expiry q key u (holds_of_moveTo hphase h)
  · intro q q' key u u' hne h h'
    exact inv.apart q q' key u u' hne (holds_of_moveTo hphase h) (holds_of_moveTo hphase h')
  · intro q request endpoint payload hq
    rcases phase_cases rfl hq with ⟨_, heq⟩ | ⟨_, hq⟩
    · exact hkeyed request endpoint payload heq
    · exact inv.keyed q request endpoint payload hq
  · intro a ha
    by_cases hai : a.request = i
    · subst hai
      rw [phase_self rfl]
      exact hpast (inv.ledger_past a ha)
    · rw [phase_of_ne rfl hai]
      exact inv.ledger_past a ha
  · intro q id hq
    by_cases hqi : q = i
    · subst hqi
      rw [phase_self rfl] at hq
      exact hcommitted id hq
    · rw [phase_of_ne rfl hqi] at hq
      exact inv.committed q id hq

/-! ## Winning a reservation -/

/-- Of a won reservation, only the winner is new. -/
theorem holds_of_won {request : WebhookRequest} {endpoint : Endpoint} {payload : Json} {k : String}
    (hkey : reservedKey request = some k) {slot : Cell Time Unit} {q : ℕ} {key : String} {u : Time}
    (h : Holds { s.moveTo i (.reserved request endpoint payload (some s.now)) with
      reservations := Function.update s.reservations (dedupKey endpoint.id k) slot } q key u) :
    (q = i ∧ key = dedupKey endpoint.id k ∧ u = s.now) ∨ Holds s q key u := by
  rcases h with ⟨r, e, p, k', hq, hk', hkey'⟩ | hledger
  · rcases phase_cases rfl hq with ⟨rfl, heq⟩ | ⟨_, hq⟩
    · cases heq
      rw [hkey] at hk'
      cases hk'
      exact Or.inl ⟨rfl, hkey', rfl⟩
    · exact Or.inr (Or.inl ⟨r, e, p, k', hq, hk', hkey'⟩)
  · exact Or.inr (Or.inr hledger)

/-- Who holds a key that is free holds it since at least a window ago. -/
theorem held_before (inv : IdempotencyInv settings s) {key : String}
    (hfree : (s.reservations key).get s.now = none) {q : ℕ} {u : Time} (h : Holds s q key u) :
    u + settings.idempotencyTtlS ≤ s.now := by
  obtain ⟨e, hslot, hle⟩ := inv.expiry q _ u h
  exact hle.trans (Cell.expiry_le_of_get_none hfree hslot)

theorem idempotencyInv_won (inv : IdempotencyInv settings s) {request : WebhookRequest}
    {endpoint : Endpoint} {payload : Json} {k : String}
    (hpast : ¬ (s.requests i).PastCommit = true) (hkey : reservedKey request = some k)
    (httl : 0 < settings.idempotencyTtlS)
    (hfree : (s.reservations (dedupKey endpoint.id k)).get s.now = none) :
    IdempotencyInv settings { s.moveTo i (.reserved request endpoint payload (some s.now)) with
      reservations := Function.update s.reservations (dedupKey endpoint.id k)
        ⟨some ((), some (s.now + settings.idempotencyTtlS))⟩ } := by
  refine ⟨?_, ?_, ?_, inv.ledger_keyed, ?_, inv.ledger_unique, ?_⟩
  · intro q key u h
    by_cases hsame : key = dedupKey endpoint.id k
    · subst hsame
      refine ⟨s.now + settings.idempotencyTtlS, by simp, ?_⟩
      rcases holds_of_won hkey h with ⟨_, _, rfl⟩ | hs
      · exact le_refl _
      · have := held_before inv hfree hs
        linarith
    · rcases holds_of_won hkey h with ⟨_, rfl, _⟩ | hs
      · exact absurd rfl hsame
      · obtain ⟨e, hslot, hle⟩ := inv.expiry q key u hs
        exact ⟨e, by simpa [hsame] using hslot, hle⟩
  · intro q q' key u u' hne h h'
    rcases holds_of_won hkey h with ⟨rfl, rfl, rfl⟩ | hs
    · rcases holds_of_won hkey h' with ⟨rfl, _, _⟩ | hs'
      · exact absurd rfl hne
      · exact Or.inr (held_before inv hfree hs')
    · rcases holds_of_won hkey h' with ⟨rfl, rfl, rfl⟩ | hs'
      · exact Or.inl (held_before inv hfree hs)
      · exact inv.apart q q' key u u' hne hs hs'
  · intro q r e p hq
    rcases phase_cases rfl hq with ⟨_, hcontra⟩ | ⟨_, hq⟩
    · cases hcontra
    · exact inv.keyed q r e p hq
  · intro a ha
    have hai : a.request ≠ i := by
      rintro rfl
      exact hpast (inv.ledger_past a ha)
    rw [phase_of_ne rfl hai]
    exact inv.ledger_past a ha
  · intro q id hq
    by_cases hqi : q = i
    · subst hqi
      rw [phase_self rfl] at hq
      rcases hq with hcontra | hcontra <;> cases hcontra
    · rw [phase_of_ne rfl hqi] at hq
      exact inv.committed q id hq

theorem idempotencyInv_reserve (inv : IdempotencyInv settings s)
    (hstep : reserve settings s i = some t) : IdempotencyInv settings t := by
  obtain ⟨request, endpoint, payload, hphase, hcases⟩ := reserve_cases hstep
  have hpast : ¬ (s.requests i).PastCommit = true := by
    rw [hphase]
    intro hcontra
    cases hcontra
  rcases hcases with ⟨hkey, rfl⟩ | ⟨k, hkey, httl, hfree, rfl⟩ | ⟨k, hkey, _, rfl⟩
  · refine inv.moveTo ?_ ?_ (fun h => absurd h hpast) ?_
    · intro r e p u hcontra
      cases hcontra
    · intro r e p heq
      cases heq
      exact hkey
    · rintro id (hcontra | hcontra) <;> cases hcontra
  · exact idempotencyInv_won inv hpast hkey httl hfree
  · refine inv.moveTo ?_ ?_ (fun h => absurd h hpast) ?_
    · intro r e p u hcontra
      cases hcontra
    · intro r e p hcontra
      cases hcontra
    · rintro id (hcontra | hcontra) <;> cases hcontra

/-! ## Committing -/

/-- A commit passes the reservation of its request on to its event. -/
theorem holds_of_commit {request : WebhookRequest} {endpoint : Endpoint} {payload : Json}
    {setNxAt : Option Time} {eventId : UUID} {record : OutboxRecord}
    (hphase : s.requests i = .reserved request endpoint payload setNxAt)
    {q : ℕ} {key : String} {u : Time}
    (h : Holds { s.moveTo i (.committed eventId) with
      ledger := s.ledger ++ [⟨i, newEvent eventId s.now endpoint payload request, setNxAt⟩]
      outbox := s.outbox ++ [record] } q key u) : Holds s q key u := by
  rcases h with ⟨r, e, p, k, hq, hrest⟩ | ⟨a, ha, rfl, hat, k, hk, hne, hkey⟩
  · rcases phase_cases rfl hq with ⟨_, hcontra⟩ | ⟨_, hq⟩
    · cases hcontra
    · exact Or.inl ⟨r, e, p, k, hq, hrest⟩
  · rcases List.mem_append.mp ha with hold | hlast
    · exact Or.inr ⟨a, hold, rfl, hat, k, hk, hne, hkey⟩
    · -- the reservation its own request held a moment ago
      rw [List.mem_singleton] at hlast
      subst hlast
      cases hat
      exact Or.inl ⟨request, endpoint, payload, k, hphase,
        reservedKey_eq_some_iff.mpr ⟨hk, hne⟩, hkey⟩

theorem idempotencyInv_commit (inv : IdempotencyInv settings s) {eventId outboxId : UUID}
    (hstep : commit settings s i eventId outboxId = some t) : IdempotencyInv settings t := by
  obtain ⟨request, endpoint, payload, setNxAt, hphase, _, rfl⟩ := commit_cases hstep
  have hnew : ∀ a ∈ s.ledger, a.request ≠ i := by
    rintro a ha rfl
    have hpast := inv.ledger_past a ha
    rw [hphase] at hpast
    cases hpast
  refine ⟨?_, ?_, ?_, ?_, ?_, ?_, ?_⟩
  · intro q key u h
    exact inv.expiry q key u (holds_of_commit hphase h)
  · intro q q' key u u' hne h h'
    exact inv.apart q q' key u u' hne (holds_of_commit hphase h) (holds_of_commit hphase h')
  · intro q r e p hq
    rcases phase_cases rfl hq with ⟨_, hcontra⟩ | ⟨_, hq⟩
    · cases hcontra
    · exact inv.keyed q r e p hq
  · intro a ha k hk hne
    rcases List.mem_append.mp ha with hold | hlast
    · exact inv.ledger_keyed a hold k hk hne
    · rw [List.mem_singleton] at hlast
      subst hlast
      cases setNxAt with
      | some u => exact ⟨u, rfl⟩
      | none =>
          have hnone := inv.keyed i request endpoint payload hphase
          rw [reservedKey_eq_some_iff.mpr ⟨hk, hne⟩] at hnone
          cases hnone
  · intro a ha
    rcases List.mem_append.mp ha with hold | hlast
    · rw [phase_of_ne rfl (hnew a hold)]
      exact inv.ledger_past a hold
    · rw [List.mem_singleton] at hlast
      subst hlast
      rw [phase_self rfl]
      rfl
  · intro a ha b hb heq
    rcases List.mem_append.mp ha with hold | hlast
    · rcases List.mem_append.mp hb with hold' | hlast'
      · exact inv.ledger_unique a hold b hold' heq
      · rw [List.mem_singleton] at hlast'
        subst hlast'
        exact absurd heq (hnew a hold)
    · rw [List.mem_singleton] at hlast
      subst hlast
      rcases List.mem_append.mp hb with hold' | hlast'
      · exact absurd heq.symm (hnew b hold')
      · exact (List.mem_singleton.mp hlast').symm
  · intro q id hq
    by_cases hqi : q = i
    · subst hqi
      rw [phase_self rfl] at hq
      rcases hq with heq | hcontra
      · cases heq
        exact ⟨_, List.mem_append_right _ (List.mem_singleton_self _), rfl, rfl⟩
      · cases hcontra
    · rw [phase_of_ne rfl hqi] at hq
      obtain ⟨a, ha, hrest⟩ := inv.committed q id hq
      exact ⟨a, List.mem_append_left _ ha, hrest⟩

theorem idempotencyInv_next {label : GatewayLabel} (inv : IdempotencyInv settings s)
    (hstep : gatewayNext rt settings s label = some t) : IdempotencyInv settings t := by
  cases label with
  | tick now =>
      obtain ⟨_, rfl⟩ := tick_cases hstep
      exact ⟨inv.expiry, inv.apart, inv.keyed, inv.ledger_keyed, inv.ledger_past,
        inv.ledger_unique, inv.committed⟩
  | setEndpoints endpoints =>
      cases hstep
      exact ⟨inv.expiry, inv.apart, inv.keyed, inv.ledger_keyed, inv.ledger_past,
        inv.ledger_unique, inv.committed⟩
  | arrive j request =>
      obtain ⟨habsent, rfl⟩ := arrive_cases hstep
      have hmoved : IdempotencyInv settings (s.moveTo j (.arrived request)) := by
        refine inv.moveTo (by simp) (by simp) ?_ (by simp)
        rw [habsent]
        intro hcontra
        cases hcontra
      exact ⟨hmoved.expiry, hmoved.apart, hmoved.keyed, hmoved.ledger_keyed, hmoved.ledger_past,
        hmoved.ledger_unique, hmoved.committed⟩
  | check j limiter =>
      obtain ⟨request, hphase, hcases⟩ := checkStep_cases hstep
      -- a request that has only arrived is not past its commit
      have hpast : ∀ phase : Phase, (s.requests j).PastCommit = true → phase.PastCommit = true := by
        intro phase
        rw [hphase]
        intro hcontra
        cases hcontra
      rcases hcases with ⟨endpoint, payload, rfl⟩ | ⟨rejection, rfl⟩
      · exact inv.moveTo (by simp) (by simp) (hpast _) (by simp)
      · exact inv.moveTo (by simp) (by simp) (hpast _) (by simp)
  | reserve j => exact idempotencyInv_reserve inv hstep
  | commit j eventId outboxId => exact idempotencyInv_commit inv hstep
  | answer j =>
      obtain ⟨eventId, hphase, rfl⟩ := answer_cases hstep
      apply inv.moveTo (by simp) (by simp) (fun _ => rfl)
      rintro id (hcontra | heq)
      · cases hcontra
      · cases heq
        exact inv.committed j eventId (Or.inl hphase)
  | fail j =>
      obtain ⟨_, rfl⟩ := fail_cases hstep
      exact inv.moveTo (by simp) (by simp) (fun _ => rfl) (by simp)

theorem idempotencyInv_reachable (h : (gateway rt settings).Reachable s) :
    IdempotencyInv settings s := by
  refine h.invariant ?_ (fun _ _ _ => idempotencyInv_next)
  intro s hinit
  rw [hinit]
  refine ⟨?_, ?_, ?_, ?_, ?_, ?_, ?_⟩ <;> simp [Holds]

/-! ## Idempotent ingestion -/

/-- The request of each of two events with this key won its reservation, at
least a window apart. -/
structure IdempotentFor (settings : Settings) (s : GatewayState) (key : String) : Prop where
  apart : ∀ e ∈ s.events, ∀ e' ∈ s.events, e ≠ e' → e.endpointId = e'.endpointId →
    e.idempotencyKey = some key → e'.idempotencyKey = some key →
    ∃ a ∈ s.ledger, ∃ b ∈ s.ledger, a.event = e ∧ b.event = e' ∧ a.request ≠ b.request ∧
      ∃ t u, a.setNxAt = some t ∧ b.setNxAt = some u ∧
        (t + settings.idempotencyTtlS ≤ u ∨ u + settings.idempotencyTtlS ≤ t)
  /-- Each accepted request committed its event. -/
  accepted_committed : ∀ q id, s.requests q = .accepted id →
    ∃ a ∈ s.ledger, a.request = q ∧ a.event.id = id
  /-- Of the requests inside one window, at most one is accepted. -/
  accepted_once : ∀ a ∈ s.ledger, ∀ b ∈ s.ledger, a.event.endpointId = b.event.endpointId →
    a.event.idempotencyKey = some key → b.event.idempotencyKey = some key →
    (∃ id, s.requests a.request = .accepted id) → (∃ id, s.requests b.request = .accepted id) →
    (∀ t u, a.setNxAt = some t → b.setNxAt = some u → |t - u| < settings.idempotencyTtlS) →
    a.request = b.request

theorem apart_of_ledger (inv : IdempotencyInv settings s) {key : String} (hkey : key ≠ "")
    {a b : Ingested} (ha : a ∈ s.ledger) (hb : b ∈ s.ledger) (hne : a.request ≠ b.request)
    (hendpoint : a.event.endpointId = b.event.endpointId)
    (hka : a.event.idempotencyKey = some key) (hkb : b.event.idempotencyKey = some key) :
    ∃ t u, a.setNxAt = some t ∧ b.setNxAt = some u ∧
      (t + settings.idempotencyTtlS ≤ u ∨ u + settings.idempotencyTtlS ≤ t) := by
  obtain ⟨t, hat⟩ := inv.ledger_keyed a ha key hka hkey
  obtain ⟨u, hbt⟩ := inv.ledger_keyed b hb key hkb hkey
  have hholds : Holds s a.request (dedupKey a.event.endpointId key) t :=
    Or.inr ⟨a, ha, rfl, hat, key, hka, hkey, rfl⟩
  have hholds' : Holds s b.request (dedupKey a.event.endpointId key) u :=
    Or.inr ⟨b, hb, rfl, hbt, key, hkb, hkey, by rw [hendpoint]⟩
  exact ⟨t, u, hat, hbt, inv.apart _ _ _ t u hne hholds hholds'⟩

/-- In every reachable state, for every key that is not empty. -/
theorem idempotent_ingestion (h : (gateway rt settings).Reachable s) (key : String)
    (hkey : key ≠ "") : IdempotentFor settings s key := by
  have inv := idempotencyInv_reachable h
  refine ⟨?_, fun q id hq => inv.committed q id (Or.inr hq), ?_⟩
  · intro e he e' he' hne hendpoint hke hke'
    obtain ⟨a, ha, rfl⟩ := List.mem_map.mp he
    obtain ⟨b, hb, rfl⟩ := List.mem_map.mp he'
    have hrequests : a.request ≠ b.request := by
      intro heq
      rw [inv.ledger_unique a ha b hb heq] at hne
      exact hne rfl
    exact ⟨a, ha, b, hb, rfl, rfl, hrequests, apart_of_ledger inv hkey ha hb hrequests hendpoint hke
      hke'⟩
  · intro a ha b hb hendpoint hka hkb _ _ hwindow
    by_contra hne
    obtain ⟨t, u, hat, hbt, hapart⟩ := apart_of_ledger inv hkey ha hb hne hendpoint hka hkb
    have hlt := abs_lt.mp (hwindow t u hat hbt)
    rcases hapart with hle | hle
    · linarith [hlt.1]
    · linarith [hlt.2]

/-! ## Two requests on one endpoint -/

/-- Enough of `hmac` and `json` for the requests below. -/
def sampleRuntime : Runtime where
  hmacSha256 := fun secret body =>
    if secret = "whsec" ∧ body = [123, 125] then
      "ae6341ea7f40a435db57d903d02cba19085efb8a913f8cfbd8cff3d7df0c7a2d"
    else ""
  loads := fun body => if body = [123, 125] then .value (.obj []) else .decodeError
  validateSchema := fun _ _ => .valid
  isIpAddress := fun _ => false
  inNetwork := fun _ _ => none

def sampleEndpoint : Endpoint where
  id := 3
  workspaceId := 9
  name := "orders"
  hmacSecret := "whsec"

/-- A signed request with the body `\x7b\x7d`. -/
def sampleRequest (key : String) : WebhookRequest where
  endpointId := "00000000-0000-0000-0000-000000000003"
  chunks := [[123, 125]]
  xHubSignature256 := some "sha256=ae6341ea7f40a435db57d903d02cba19085efb8a913f8cfbd8cff3d7df0c7a2d"
  idempotencyKey := some key

theorem locate_sampleRequest (key : String) (signature : Option String) (headers : Headers) :
    locate sampleRuntime {} [sampleEndpoint]
        { sampleRequest key with xHubSignature256 := signature, headers := headers } =
      .ok ([123, 125], sampleEndpoint) := by
  have hid : UUID.parse "00000000-0000-0000-0000-000000000003" = some sampleEndpoint.id := by
    decide +kernel
  exact locate_of_found rfl hid (List.find?_cons_of_pos (decide_eq_true rfl)) rfl rfl

def sampleGateway : GatewayState := { now := 0, endpoints := [sampleEndpoint] }

/-- Request `i` from its arrival to its answer. -/
def ingestion (i : ℕ) (key : String) : List GatewayLabel :=
  [.arrive i (sampleRequest key), .check i (.ok true), .reserve i,
    .commit i ⟨10 + i % 2, by omega⟩ ⟨20 + i % 2, by omega⟩, .answer i]

/-- A key used again a day later. -/
def dayLater : List GatewayLabel :=
  ingestion 0 "order-7" ++ [.tick 86400] ++ ingestion 1 "order-7"

def dayLaterGateway : GatewayState := (gateway sampleRuntime {}).after sampleGateway dayLater

theorem idempotent_ingestion_day_later :
    dayLaterGateway.ledger.length = 2 ∧ IdempotentFor {} dayLaterGateway "order-7" := by
  have hinit : (gateway sampleRuntime {}).init sampleGateway := rfl
  have hrun : ((gateway sampleRuntime {}).exec sampleGateway dayLater).isSome = true ∧
      dayLaterGateway.ledger.length = 2 := by
    decide +kernel
  have hreach : (gateway sampleRuntime {}).Reachable dayLaterGateway :=
    Machine.reachable_after hinit hrun.1
  exact ⟨hrun.2, idempotent_ingestion hreach "order-7" (by decide)⟩

/-- The header is present and empty, twice. -/
def emptyKeyGateway : GatewayState :=
  (gateway sampleRuntime {}).after sampleGateway (ingestion 0 "" ++ ingestion 1 "")

theorem empty_key_ingested_twice :
    ¬ ∀ s, (gateway sampleRuntime {}).Reachable s → ∀ key, IdempotentFor {} s key := by
  intro h
  have hinit : (gateway sampleRuntime {}).init sampleGateway := rfl
  -- neither request ever asks Redis
  have hrun : ((gateway sampleRuntime {}).exec sampleGateway
        (ingestion 0 "" ++ ingestion 1 "")).isSome = true ∧
      emptyKeyGateway.events.length = 2 ∧
      (emptyKeyGateway.events.map Event.id).Nodup ∧
      (∀ ep ∈ emptyKeyGateway.events.map Event.endpointId, ep = sampleEndpoint.id) ∧
      (∀ key ∈ emptyKeyGateway.events.map Event.idempotencyKey, key = some "") ∧
      (∀ setNxAt ∈ emptyKeyGateway.ledger.map Ingested.setNxAt, setNxAt = none) := by
    decide +kernel
  obtain ⟨hsome, hlength, hids, hendpoints, hkeys, hunreserved⟩ := hrun
  have hreach : (gateway sampleRuntime {}).Reachable emptyKeyGateway :=
    Machine.reachable_after hinit hsome
  obtain ⟨e, e', heq⟩ := List.length_eq_two.mp hlength
  rw [heq] at hids hendpoints hkeys
  simp only [List.map_cons, List.map_nil, List.nodup_cons, List.mem_singleton] at hids
  simp only [List.map_cons, List.map_nil, List.mem_cons, forall_eq_or_imp] at hendpoints hkeys
  obtain ⟨a, ha, _, _, _, _, _, t, _, hat, _⟩ := (h _ hreach "").apart e (by simp [heq]) e'
    (by simp [heq]) (fun hsame => hids.1 (congrArg Event.id hsame))
    (hendpoints.1.trans hendpoints.2.1.symm) hkeys.1 hkeys.2.1
  have hnone := hunreserved _ (List.mem_map_of_mem ha)
  rw [hat] at hnone
  cases hnone

end WebhookRelay.Gateway
