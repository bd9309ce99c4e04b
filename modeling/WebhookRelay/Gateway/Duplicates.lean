import WebhookRelay.Gateway.Idempotency

/-!
# What a duplicate answer promises

A request is told `duplicate` because a reservation is in Redis, not because
an event is in Postgres. The reservation outlives a request that fails before
its commit; `duplicate_safe` is about the runs in which none does.
-/

namespace WebhookRelay.Gateway

open Foundation

/-- The request won the reservation of this key and has not committed yet. -/
def ReservedFor (s : GatewayState) (q : ℕ) (endpointId : UUID) (key : String) : Prop :=
  ∃ request endpoint payload t, s.requests q = .reserved request endpoint payload (some t) ∧
    endpoint.id = endpointId ∧ reservedKey request = some key

/-- An event of this endpoint with this key is committed. -/
def Ingests (s : GatewayState) (endpointId : UUID) (key : String) : Prop :=
  ∃ e ∈ s.events, e.endpointId = endpointId ∧ e.idempotencyKey = some key

/-- Once the requests that had arrived before a duplicate answer have all
finished, the event it is a duplicate of is committed. -/
def DuplicateSafe (s : GatewayState) : Prop :=
  ∀ r endpointId key earlier, s.requests r = .duplicate endpointId key earlier →
    (∀ q ∈ earlier, (s.requests q).Finished = true) → Ingests s endpointId key

/-- A request fails between its `SET NX` and its commit. -/
def LosesReservation (m : Move GatewayState GatewayLabel) : Prop :=
  ∃ q endpointId key, m.label = .fail q ∧ ReservedFor m.src q endpointId key

/-- Somebody among these requests will commit the event, unless it fails, or
it is committed. -/
def Covered (s : GatewayState) (among : List ℕ) (endpointId : UUID) (key : String) : Prop :=
  (∃ q ∈ among, ReservedFor s q endpointId key) ∨ Ingests s endpointId key

structure DuplicateInv (s : GatewayState) : Prop where
  arrived : ∀ q, s.requests q ≠ .absent → q ∈ s.arrivals
  slots : ∀ endpointId key, (s.reservations (dedupKey endpointId key)).slot ≠ none →
    Covered s s.arrivals endpointId key
  duplicates : ∀ r endpointId key earlier, s.requests r = .duplicate endpointId key earlier →
    Covered s earlier endpointId key

variable {rt : Runtime} {settings : Settings} {s t : GatewayState}

/-! ## Cover is kept -/

theorem Covered.moveTo {i : ℕ} {phase : Phase} {among : List ℕ} {endpointId : UUID} {key : String}
    (h : Covered s among endpointId key) (hfree : ∀ ep k, ¬ ReservedFor s i ep k) :
    Covered (s.moveTo i phase) among endpointId key := by
  rcases h with ⟨q, hq, hreserved⟩ | hingested
  · refine Or.inl ⟨q, hq, ?_⟩
    have hqi : q ≠ i := by
      rintro rfl
      exact hfree _ _ hreserved
    obtain ⟨request, endpoint, payload, u, hphase, hrest⟩ := hreserved
    refine ⟨request, endpoint, payload, u, ?_, hrest⟩
    rw [phase_of_ne rfl hqi]
    exact hphase
  · exact Or.inr hingested

theorem not_reservedFor {i : ℕ} (h : ∀ r e p u, s.requests i ≠ .reserved r e p u)
    (endpointId : UUID) (key : String) : ¬ ReservedFor s i endpointId key := by
  rintro ⟨request, endpoint, payload, u, hphase, _⟩
  exact h _ _ _ _ hphase

/-- The commit of the covering request is the event. -/
theorem Covered.commit {i : ℕ} {eventId outboxId : UUID} {among : List ℕ} {endpointId : UUID}
    {key : String} (h : Covered s among endpointId key)
    (hstep : commit settings s i eventId outboxId = some t) : Covered t among endpointId key := by
  obtain ⟨request, endpoint, payload, setNxAt, hphase, _, rfl⟩ := commit_cases hstep
  rcases h with ⟨q, hq, r, e, p, u, hreserved, hendpoint, hkey⟩ | ⟨e, he, hrest⟩
  · by_cases hqi : q = i
    · subst hqi
      rw [hphase] at hreserved
      cases hreserved
      refine Or.inr ⟨newEvent eventId s.now endpoint payload request, ?_, hendpoint, ?_⟩
      · simp [GatewayState.events]
      · exact (reservedKey_eq_some_iff.mp hkey).1
    · refine Or.inl ⟨q, hq, r, e, p, u, ?_, hendpoint, hkey⟩
      rw [phase_of_ne rfl hqi]
      exact hreserved
  · refine Or.inr ⟨e, ?_, hrest⟩
    unfold GatewayState.events at he ⊢
    rw [List.map_append]
    exact List.mem_append_left _ he

theorem covered_next {label : GatewayLabel} {among : List ℕ} {endpointId : UUID} {key : String}
    (h : Covered s among endpointId key) (hcareful : ¬ LosesReservation ⟨s, label, t⟩)
    (hstep : gatewayNext rt settings s label = some t) : Covered t among endpointId key := by
  cases label with
  | tick now =>
      obtain ⟨_, rfl⟩ := tick_cases hstep
      exact h
  | setEndpoints endpoints =>
      cases hstep
      exact h
  | arrive i request =>
      obtain ⟨habsent, rfl⟩ := arrive_cases hstep
      exact h.moveTo (not_reservedFor (by simp [habsent]))
  | check i limiter =>
      obtain ⟨request, hphase, hcases⟩ := checkStep_cases hstep
      have hfree := not_reservedFor (s := s) (i := i) (by simp [hphase])
      rcases hcases with ⟨endpoint, payload, rfl⟩ | ⟨rejection, rfl⟩
      · exact h.moveTo hfree
      · exact h.moveTo hfree
  | reserve i =>
      obtain ⟨request, endpoint, payload, hphase, hcases⟩ := reserve_cases hstep
      have hfree := not_reservedFor (s := s) (i := i) (by simp [hphase])
      rcases hcases with ⟨_, rfl⟩ | ⟨k, _, _, _, rfl⟩ | ⟨k, _, _, rfl⟩
      · exact h.moveTo hfree
      · exact (h.moveTo hfree : Covered (s.moveTo i _) _ _ _)
      · exact h.moveTo hfree
  | commit i eventId outboxId => exact h.commit hstep
  | answer i =>
      obtain ⟨eventId, hphase, rfl⟩ := answer_cases hstep
      exact h.moveTo (not_reservedFor (by simp [hphase]))
  | fail i =>
      -- the only step that may give up a reservation
      obtain ⟨_, rfl⟩ := fail_cases hstep
      exact h.moveTo (fun ep k hreserved => hcareful ⟨i, ep, k, rfl, hreserved⟩)

/-! ## The invariant -/

theorem DuplicateInv.moveTo (inv : DuplicateInv s) {i : ℕ} {phase : Phase}
    (hpresent : s.requests i ≠ .absent) (hfree : ∀ ep k, ¬ ReservedFor s i ep k)
    (hphase : ∀ ep k earlier, phase = .duplicate ep k earlier →
      earlier = s.arrivals ∧ Covered s s.arrivals ep k) :
    DuplicateInv (s.moveTo i phase) := by
  refine ⟨?_, ?_, ?_⟩
  · intro q hq
    by_cases hqi : q = i
    · subst hqi
      exact inv.arrived q hpresent
    · rw [phase_of_ne rfl hqi] at hq
      exact inv.arrived q hq
  · intro ep k hslot
    exact (inv.slots ep k hslot).moveTo hfree
  · intro r ep k earlier hr
    rcases phase_cases rfl hr with ⟨_, heq⟩ | ⟨_, hr⟩
    · obtain ⟨rfl, hcovered⟩ := hphase ep k earlier heq
      exact hcovered.moveTo hfree
    · exact (inv.duplicates r ep k earlier hr).moveTo hfree

theorem duplicateInv_reserve (inv : DuplicateInv s) {i : ℕ}
    (hstep : reserve settings s i = some t) : DuplicateInv t := by
  obtain ⟨request, endpoint, payload, hphase, hcases⟩ := reserve_cases hstep
  have hpresent : s.requests i ≠ .absent := by simp [hphase]
  have hfree := not_reservedFor (s := s) (i := i) (by simp [hphase])
  rcases hcases with ⟨_, rfl⟩ | ⟨k, hkey, _, _, rfl⟩ | ⟨k, hkey, htaken, rfl⟩
  · apply inv.moveTo hpresent hfree
    intro ep k earlier hcontra
    cases hcontra
  · have hmoved : DuplicateInv (s.moveTo i (.reserved request endpoint payload (some s.now))) := by
      apply inv.moveTo hpresent hfree
      intro ep k earlier hcontra
      cases hcontra
    refine ⟨hmoved.arrived, ?_, hmoved.duplicates⟩
    intro ep k' hslot
    by_cases hsame : dedupKey ep k' = dedupKey endpoint.id k
    · -- this very request covers its key
      obtain ⟨rfl, rfl⟩ := dedupKey_injective hsame
      exact Or.inl ⟨i, inv.arrived i hpresent, request, endpoint, payload, s.now, phase_self rfl,
        rfl,
        hkey⟩
    · have hold : (s.reservations (dedupKey ep k')).slot ≠ none := by
        simpa [hsame] using hslot
      exact hmoved.slots ep k' hold
  · apply inv.moveTo hpresent hfree
    intro ep k' earlier heq
    cases heq
    refine ⟨rfl, inv.slots endpoint.id k ?_⟩
    intro hnone
    rw [Cell.get_none_of_slot hnone] at htaken
    cases htaken

theorem duplicateInv_commit (inv : DuplicateInv s) {i : ℕ} {eventId outboxId : UUID}
    (hstep : commit settings s i eventId outboxId = some t) : DuplicateInv t := by
  have hcovered := fun among ep k (h : Covered s among ep k) => h.commit hstep
  obtain ⟨request, endpoint, payload, setNxAt, hphase, _, rfl⟩ := commit_cases hstep
  refine ⟨?_, ?_, ?_⟩
  · intro q hq
    by_cases hqi : q = i
    · subst hqi
      exact inv.arrived q (by simp [hphase])
    · rw [phase_of_ne rfl hqi] at hq
      exact inv.arrived q hq
  · intro ep k hslot
    exact hcovered _ ep k (inv.slots ep k hslot)
  · intro r ep k earlier hr
    rcases phase_cases rfl hr with ⟨_, hcontra⟩ | ⟨_, hr⟩
    · cases hcontra
    · exact hcovered _ ep k (inv.duplicates r ep k earlier hr)

theorem duplicateInv_next {label : GatewayLabel} (inv : DuplicateInv s)
    (hcareful : ¬ LosesReservation ⟨s, label, t⟩)
    (hstep : gatewayNext rt settings s label = some t) : DuplicateInv t := by
  cases label with
  | tick now =>
      obtain ⟨_, rfl⟩ := tick_cases hstep
      exact ⟨inv.arrived, inv.slots, inv.duplicates⟩
  | setEndpoints endpoints =>
      cases hstep
      exact ⟨inv.arrived, inv.slots, inv.duplicates⟩
  | arrive i request =>
      have hcovered : ∀ among ep k, Covered s among ep k → Covered t among ep k :=
        fun _ _ _ h => covered_next h hcareful hstep
      obtain ⟨habsent, rfl⟩ := arrive_cases hstep
      refine ⟨?_, ?_, ?_⟩
      · intro q hq
        by_cases hqi : q = i
        · subst hqi
          exact List.mem_append_right _ (List.mem_singleton_self _)
        · rw [phase_of_ne rfl hqi] at hq
          exact List.mem_append_left _ (inv.arrived q hq)
      · intro ep k hslot
        rcases hcovered _ ep k (inv.slots ep k hslot) with ⟨q, hq, hreserved⟩ | hingested
        · exact Or.inl ⟨q, List.mem_append_left _ hq, hreserved⟩
        · exact Or.inr hingested
      · intro r ep k earlier hr
        rcases phase_cases rfl hr with ⟨_, hcontra⟩ | ⟨_, hr⟩
        · cases hcontra
        · exact hcovered _ ep k (inv.duplicates r ep k earlier hr)
  | check i limiter =>
      obtain ⟨request, hphase, hcases⟩ := checkStep_cases hstep
      have hpresent : s.requests i ≠ .absent := by simp [hphase]
      have hfree := not_reservedFor (s := s) (i := i) (by simp [hphase])
      rcases hcases with ⟨endpoint, payload, rfl⟩ | ⟨rejection, rfl⟩
      · exact inv.moveTo hpresent hfree (by simp)
      · exact inv.moveTo hpresent hfree (by simp)
  | reserve i => exact duplicateInv_reserve inv hstep
  | commit i eventId outboxId => exact duplicateInv_commit inv hstep
  | answer i =>
      obtain ⟨eventId, hphase, rfl⟩ := answer_cases hstep
      exact inv.moveTo (by simp [hphase]) (not_reservedFor (by simp [hphase])) (by simp)
  | fail i =>
      -- the only step that may give up a reservation
      obtain ⟨hpresent, rfl⟩ := fail_cases hstep
      exact inv.moveTo hpresent (fun ep k hreserved => hcareful ⟨i, ep, k, rfl, hreserved⟩)
        (by simp)

theorem duplicateSafe_of_inv (inv : DuplicateInv s) : DuplicateSafe s := by
  intro r endpointId key earlier hr hfinished
  rcases inv.duplicates r endpointId key earlier hr with ⟨q, hq, hreserved⟩ | hingested
  · exfalso
    obtain ⟨request, endpoint, payload, u, hphase, _⟩ := hreserved
    have hdone := hfinished q hq
    rw [hphase] at hdone
    cases hdone
  · exact hingested

/-- In a run in which no request fails between its `SET NX` and its commit, a
duplicate answer is safe in every state. -/
theorem duplicate_safe {moves : List (Move GatewayState GatewayLabel)}
    (hinit : (gateway rt settings).init s) (run : (gateway rt settings).Run s moves t)
    (hcareful : ∀ m ∈ moves, ¬ LosesReservation m) :
    ∀ v, Machine.Visited s moves v → DuplicateSafe v := by
  have hstart : DuplicateInv s := by
    rw [hinit]
    refine ⟨?_, ?_, ?_⟩
    · intro q hq
      exact absurd rfl hq
    · intro ep k hslot
      exact absurd rfl hslot
    · intro r ep k earlier hr
      cases hr
  intro v hv
  exact duplicateSafe_of_inv
    (run.forall_visited (fun _ _ _ => duplicateInv_next) hstart hcareful v hv)

/-! ## A reservation without an event -/

/-- The first request reserves its key and fails; its retry is told that the
event is there. -/
def lostReservation : List GatewayLabel :=
  [.arrive 0 (sampleRequest "order-7"), .check 0 (.ok true), .reserve 0, .fail 0,
    .arrive 1 (sampleRequest "order-7"), .check 1 (.ok true), .reserve 1]

def lostGateway : GatewayState := (gateway sampleRuntime {}).after sampleGateway lostReservation

/-- The requests a duplicate answer came after. -/
def Phase.earlier : Phase → Option (List ℕ)
  | duplicate _ _ earlier => some earlier
  | _ => none

theorem eq_duplicate_of_earlier {phase : Phase} {earlier : List ℕ}
    (h : phase.earlier = some earlier) :
    ∃ endpointId key, phase = .duplicate endpointId key earlier := by
  unfold Phase.earlier at h
  split at h
  · cases h
    exact ⟨_, _, rfl⟩
  · cases h

theorem duplicate_without_event :
    ¬ ∀ s, (gateway sampleRuntime {}).Reachable s → DuplicateSafe s := by
  intro h
  have hinit : (gateway sampleRuntime {}).init sampleGateway := rfl
  have hrun : ((gateway sampleRuntime {}).exec sampleGateway lostReservation).isSome = true ∧
      (lostGateway.requests 1).earlier = some [0, 1] ∧
      (∀ q ∈ [0, 1], (lostGateway.requests q).Finished = true) ∧
      lostGateway.ledger.isEmpty = true := by
    decide +kernel
  obtain ⟨hsome, hearlier, hfinished, hempty⟩ := hrun
  have hreach : (gateway sampleRuntime {}).Reachable lostGateway :=
    Machine.reachable_after hinit hsome
  obtain ⟨endpointId, key, hduplicate⟩ := eq_duplicate_of_earlier hearlier
  obtain ⟨e, he, _⟩ := h _ hreach 1 endpointId key _ hduplicate hfinished
  rw [GatewayState.events, List.isEmpty_iff.mp hempty] at he
  cases he

/-- An ingestion, and a retry that is told so. -/
def retried : List GatewayLabel :=
  ingestion 0 "order-7" ++ [.arrive 1 (sampleRequest "order-7"), .check 1 (.ok true), .reserve 1]

theorem duplicate_safe_retried :
    DuplicateSafe ((gateway sampleRuntime {}).after sampleGateway retried) := by
  have hsome : ((gateway sampleRuntime {}).exec sampleGateway retried).isSome = true := by
    decide +kernel
  obtain ⟨moves, run, hlabels⟩ := Machine.exists_run_of_exec (Machine.exec_eq_after hsome)
  have hcareful : ∀ m ∈ moves, ¬ LosesReservation m := by
    rintro m hm ⟨q, _, _, hfail, _⟩
    have hmem : GatewayLabel.fail q ∈ retried := by
      rw [← hlabels, ← hfail]
      exact List.mem_map_of_mem hm
    simp [retried, ingestion] at hmem
  have hinit : (gateway sampleRuntime {}).init sampleGateway := rfl
  exact duplicate_safe hinit run hcareful _ run.visited_last

end WebhookRelay.Gateway
