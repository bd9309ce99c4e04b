import WebhookRelay.Api.Writes
import WebhookRelay.Gateway.Idempotency

/-!
# Only signed requests get in

The signature of a request is not tested when the endpoint's secret is the
empty text. No handler of the REST API ever stores one (`secured_reachable`),
so whatever the gateway accepts, takes for a duplicate or stores has been
signed with the secret of its endpoint: `authentic_ingestion`.
-/

namespace WebhookRelay.Gateway

open Foundation

/-! ## The secrets the API stores -/

inductive StoreLabel where
  | request (env : Api.Env) (request : Api.Request)
  /-- Anyone's change of the other tables. -/
  | other (db : Database)

/-- `secrets.token_hex(32)` is a text of 64 digits. -/
def storeNext (settings : Settings) (db : Database) : StoreLabel → Option Database
  | .request env request =>
      if env.secret.length = 64 then some ((Api.handle env settings request db).store db) else none
  | .other db' => some { db' with endpoints := db.endpoints }

/-- The database under any sequence of API requests. -/
def apiStore (settings : Settings) : Machine Database StoreLabel where
  init := fun db => db.endpoints = []
  next := storeNext settings

/-- An endpoints table that API requests can lead to. -/
def FromApi (settings : Settings) (endpoints : List Endpoint) : Prop :=
  ∃ db, (apiStore settings).Reachable db ∧ db.endpoints = endpoints

def Secured (endpoints : List Endpoint) : Prop := ∀ ep ∈ endpoints, ep.hmacSecret ≠ ""

variable {settings : Settings}

theorem secured_apply {env : Api.Env} {db : Database} {w : Api.Write} (h : Secured db.endpoints)
    (hsecret : env.secret ≠ "") (hfrom : w.From env db) : Secured (w.apply db).endpoints := by
  cases w with
  | insertEndpoint ep =>
      intro x hx
      rcases List.mem_append.mp hx with hx | hx
      · exact h x hx
      · rw [List.mem_singleton] at hx
        subst hx
        rcases hfrom with hown | hgenerated
        · exact hown
        · rwa [hgenerated]
  | updateEndpoint ep =>
      intro x hx
      obtain ⟨y, hy, rfl⟩ := List.mem_map.mp hx
      split
      · rcases hfrom with hgenerated | ⟨old, hold, hkept⟩
        · rwa [hgenerated]
        · rw [← hkept]
          exact h old hold
      · exact h y hy
  | deleteEndpoint id =>
      intro x hx
      exact h x (List.mem_filter.mp hx).1
  | insertRoute route | updateRoute route | deleteRoute id | updateEvent event => exact h

theorem secured_store {env : Api.Env} {request : Api.Request} {db : Database}
    (h : Secured db.endpoints) (hsecret : env.secret ≠ "") :
    Secured ((Api.handle env settings request db).store db).endpoints := by
  unfold Api.Outcome.store
  split
  · rename_i w hw
    exact secured_apply h hsecret (Api.from_of_handle hw)
  · exact h

theorem secured_reachable {db : Database} (h : (apiStore settings).Reachable db) :
    Secured db.endpoints := by
  apply h.invariant
  · intro s hs ep hep
    rw [show s.endpoints = [] from hs] at hep
    cases hep
  · intro s a t hs hstep
    cases a with
    | request env request =>
        simp only [apiStore, storeNext, Option.ite_none_right_eq_some, Option.some.injEq] at hstep
        obtain ⟨hlength, rfl⟩ := hstep
        apply secured_store hs
        intro hempty
        rw [hempty] at hlength
        cases hlength
    | other db' =>
        cases hstep
        exact hs

theorem FromApi.secured {endpoints : List Endpoint} (h : FromApi settings endpoints) :
    Secured endpoints := by
  obtain ⟨db, hreach, rfl⟩ := h
  exact secured_reachable hreach

/-! ## The requests the gateway lets in -/

/-- History: a request that passed the checks, and the endpoints table they
read. -/
structure Check where
  index : ℕ
  request : WebhookRequest
  endpoints : List Endpoint

def noteCheck (m : Move GatewayState GatewayLabel) (checks : List Check) : List Check :=
  match m.label with
  | .check i _ =>
      match m.dst.requests i with
      | .checked request _ _ => checks ++ [⟨i, request, m.src.endpoints⟩]
      | _ => checks
  | _ => checks

/-- The gateway with that history. -/
def checkedGateway (rt : Runtime) (settings : Settings) :
    Machine (GatewayState × List Check) GatewayLabel :=
  (gateway rt settings).withHistory [] noteCheck

/-- The request names an endpoint of the table, one with a secret, and carries
the signature of its raw body under that secret. -/
structure Signed (rt : Runtime) (c : Check) (endpoint : Endpoint) : Prop where
  read : ∃ id, UUID.parse c.request.endpointId = some id ∧
    c.endpoints.find? (fun ep => ep.id = id) = some endpoint
  secret : endpoint.hmacSecret ≠ ""
  header : c.request.xHubSignature256 =
    some ("sha256=" ++ rt.hmacSha256 endpoint.hmacSecret c.request.chunks.flatten)

/-- Request `i` was signed for `endpoint`. -/
def SignedFor (rt : Runtime) (checks : List Check) (i : ℕ) (endpoint : Endpoint) : Prop :=
  ∃ c ∈ checks, c.index = i ∧ Signed rt c endpoint

structure Authentic (rt : Runtime) (s : GatewayState × List Check) : Prop where
  accepted : ∀ i eventId, s.1.requests i = .accepted eventId → ∃ ep, SignedFor rt s.2 i ep
  duplicate : ∀ i id key earlier, s.1.requests i = .duplicate id key earlier →
    ∃ ep, SignedFor rt s.2 i ep ∧ ep.id = id
  stored : ∀ g ∈ s.1.ledger, ∃ ep, SignedFor rt s.2 g.request ep ∧ g.event.endpointId = ep.id

/-- What is known of a request in each phase past the checks. -/
def PhaseSigned (rt : Runtime) (checks : List Check) (i : ℕ) : Phase → Prop
  | .checked _ endpoint _ | .reserved _ endpoint _ _ => SignedFor rt checks i endpoint
  | .committed _ | .accepted _ => ∃ ep, SignedFor rt checks i ep
  | .duplicate id _ _ => ∃ ep, SignedFor rt checks i ep ∧ ep.id = id
  | .absent | .arrived _ | .rejected _ | .failed => True

structure AuthInv (rt : Runtime) (s : GatewayState) (checks : List Check) : Prop where
  secured : Secured s.endpoints
  phases : ∀ i, PhaseSigned rt checks i (s.requests i)
  stored : ∀ g ∈ s.ledger, ∃ ep, SignedFor rt checks g.request ep ∧ g.event.endpointId = ep.id

variable {rt : Runtime}

theorem SignedFor.mono {checks checks' : List Check} {i : ℕ} {endpoint : Endpoint}
    (h : SignedFor rt checks i endpoint) (hsub : checks ⊆ checks') :
    SignedFor rt checks' i endpoint := by
  obtain ⟨c, hc, hsigned⟩ := h
  exact ⟨c, hsub hc, hsigned⟩

theorem PhaseSigned.mono {checks checks' : List Check} {i : ℕ} {phase : Phase}
    (h : PhaseSigned rt checks i phase) (hsub : checks ⊆ checks') :
    PhaseSigned rt checks' i phase := by
  cases phase with
  | absent | arrived _ | rejected _ | failed => trivial
  | checked _ endpoint _ | reserved _ endpoint _ _ => exact SignedFor.mono h hsub
  | committed _ | accepted _ =>
      obtain ⟨ep, hsigned⟩ := h
      exact ⟨ep, hsigned.mono hsub⟩
  | duplicate id _ _ =>
      obtain ⟨ep, hsigned, hid⟩ := h
      exact ⟨ep, hsigned.mono hsub, hid⟩

/-- A request that passes the checks of a table of secured endpoints is
signed. -/
theorem signed_of_check {endpoints : List Endpoint} {limiter : Except Exc Bool}
    {request : WebhookRequest} {endpoint : Endpoint} {payload : Json} (h : Secured endpoints)
    (hcheck : check rt settings endpoints limiter request = .ok (endpoint, payload)) (i : ℕ) :
    Signed rt ⟨i, request, endpoints⟩ endpoint := by
  obtain ⟨body, hlocate, hsecret⟩ := check_eq_ok hcheck
  obtain ⟨rfl, id, hid, hfind⟩ := locate_eq_ok hlocate
  have hnonempty : endpoint.hmacSecret ≠ "" := h endpoint (List.mem_of_find?_eq_some hfind)
  unfold checkSecret at hsecret
  rw [if_pos hnonempty] at hsecret
  exact ⟨⟨id, hid, hfind⟩, hnonempty, checkSignature_eq_ok hsecret⟩

/-- A step of request `i` that leaves the endpoints and the stored events
alone. -/
theorem AuthInv.moveTo {s t : GatewayState} {checks checks' : List Check} {i : ℕ} {phase : Phase}
    (inv : AuthInv rt s checks) (hsub : checks ⊆ checks')
    (hrequests : t.requests = (s.moveTo i phase).requests)
    (hendpoints : t.endpoints = s.endpoints) (hledger : t.ledger = s.ledger)
    (hphase : PhaseSigned rt checks' i phase) : AuthInv rt t checks' := by
  refine ⟨?_, ?_, ?_⟩
  · rw [hendpoints]
    exact inv.secured
  · intro j
    by_cases hj : j = i
    · subst hj
      rw [phase_self hrequests]
      exact hphase
    · rw [phase_of_ne hrequests hj]
      exact (inv.phases j).mono hsub
  · rw [hledger]
    intro g hg
    obtain ⟨ep, hsigned, hid⟩ := inv.stored g hg
    exact ⟨ep, hsigned.mono hsub, hid⟩

/-- The check lets only signed requests on. -/
theorem authInv_checkStep {s t : GatewayState} {checks : List Check} {i : ℕ}
    {limiter : Except Exc Bool} (inv : AuthInv rt s checks)
    (h : checkStep rt settings s i limiter = some t) :
    AuthInv rt t (noteCheck ⟨s, .check i limiter, t⟩ checks) := by
  unfold checkStep at h
  split at h
  · rename_i request hphase
    split at h
    · rename_i endpoint payload hcheck
      cases h
      have hnote : noteCheck ⟨s, .check i limiter, s.moveTo i (.checked request endpoint payload)⟩
          checks = checks ++ [⟨i, request, s.endpoints⟩] := by
        simp [noteCheck]
      rw [hnote]
      apply inv.moveTo (List.subset_append_left ..) rfl rfl rfl
      exact ⟨_, List.mem_append_right _ (List.mem_singleton_self _), rfl,
        signed_of_check inv.secured hcheck i⟩
    · rename_i rejection _
      cases h
      have hnote : noteCheck ⟨s, .check i limiter, s.moveTo i (.rejected rejection)⟩ checks =
          checks := by
        simp [noteCheck]
      rw [hnote]
      exact inv.moveTo (List.Subset.refl _) rfl rfl rfl trivial
  · cases h

theorem authInv_reserve {s t : GatewayState} {checks : List Check} {i : ℕ}
    (inv : AuthInv rt s checks) (h : reserve settings s i = some t) : AuthInv rt t checks := by
  obtain ⟨request, endpoint, payload, hphase, hcases⟩ := reserve_cases h
  have hsigned : PhaseSigned rt checks i (.checked request endpoint payload) :=
    hphase ▸ inv.phases i
  rcases hcases with ⟨_, rfl⟩ | ⟨key, _, _, _, rfl⟩ | ⟨key, _, _, rfl⟩
  · exact inv.moveTo (List.Subset.refl _) rfl rfl rfl hsigned
  · exact inv.moveTo (List.Subset.refl _) rfl rfl rfl hsigned
  · exact inv.moveTo (List.Subset.refl _) rfl rfl rfl ⟨endpoint, hsigned, rfl⟩

theorem authInv_commit {s t : GatewayState} {checks : List Check} {i : ℕ} {eventId outboxId : UUID}
    (inv : AuthInv rt s checks) (h : commit settings s i eventId outboxId = some t) :
    AuthInv rt t checks := by
  obtain ⟨request, endpoint, payload, setNxAt, hphase, _, rfl⟩ := commit_cases h
  have hsigned : PhaseSigned rt checks i (.reserved request endpoint payload setNxAt) :=
    hphase ▸ inv.phases i
  have hmoved : AuthInv rt (s.moveTo i (.committed eventId)) checks :=
    inv.moveTo (List.Subset.refl _) rfl rfl rfl ⟨endpoint, hsigned⟩
  refine ⟨hmoved.secured, hmoved.phases, ?_⟩
  intro g hg
  rcases List.mem_append.mp hg with hg | hg
  · exact inv.stored g hg
  · rw [List.mem_singleton] at hg
    subst hg
    exact ⟨endpoint, hsigned, rfl⟩

/-- Each step of the gateway, if the endpoints table stays one of the API. -/
theorem authInv_next {s t : GatewayState × List Check} {label : GatewayLabel}
    (inv : AuthInv rt s.1 s.2)
    (hstore : ∀ endpoints, label = .setEndpoints endpoints → FromApi settings endpoints)
    (hstep : (checkedGateway rt settings).next s label = some t) : AuthInv rt t.1 t.2 := by
  obtain ⟨hnext, hnote⟩ := Machine.withHistory_next_iff.mp hstep
  change gatewayNext rt settings s.1 label = some t.1 at hnext
  rw [hnote]
  cases label with
  | check i limiter => exact authInv_checkStep inv hnext
  | reserve i => exact authInv_reserve inv hnext
  | commit i eventId outboxId => exact authInv_commit inv hnext
  | tick now =>
      obtain ⟨_, ht⟩ := tick_cases hnext
      rw [ht]
      exact ⟨inv.secured, inv.phases, inv.stored⟩
  | setEndpoints endpoints =>
      have ht : { s.1 with endpoints := endpoints } = t.1 := Option.some.inj hnext
      rw [← ht]
      exact ⟨(hstore endpoints rfl).secured, inv.phases, inv.stored⟩
  | arrive i request =>
      obtain ⟨_, ht⟩ := arrive_cases hnext
      rw [ht]
      exact inv.moveTo (List.Subset.refl _) rfl rfl rfl trivial
  | answer i =>
      -- the event was signed for when its request got past the check
      obtain ⟨eventId, hphase, ht⟩ := answer_cases hnext
      have hsigned : PhaseSigned rt s.2 i (.committed eventId) := hphase ▸ inv.phases i
      rw [ht]
      exact inv.moveTo (List.Subset.refl _) rfl rfl rfl hsigned
  | fail i =>
      obtain ⟨_, ht⟩ := fail_cases hnext
      rw [ht]
      exact inv.moveTo (List.Subset.refl _) rfl rfl rfl trivial

theorem AuthInv.authentic {s : GatewayState × List Check} (inv : AuthInv rt s.1 s.2) :
    Authentic rt s := by
  refine ⟨?_, ?_, inv.stored⟩
  · intro i eventId hphase
    have hsigned : PhaseSigned rt s.2 i (.accepted eventId) := hphase ▸ inv.phases i
    exact hsigned
  · intro i id key earlier hphase
    have hsigned : PhaseSigned rt s.2 i (.duplicate id key earlier) := hphase ▸ inv.phases i
    exact hsigned

theorem authInv_init {s : GatewayState × List Check} (h : (checkedGateway rt settings).init s)
    (hstore : FromApi settings s.1.endpoints) : AuthInv rt s.1 s.2 := by
  obtain ⟨hstate, _⟩ := h
  refine ⟨hstore.secured, ?_, ?_⟩
  · intro i
    rw [hstate]
    trivial
  · rw [hstate]
    intro g hg
    cases hg

/-- As long as the endpoints table is one that API requests can lead to,
everything the gateway accepts, takes for a duplicate or stores was signed for
its endpoint. -/
theorem authentic_ingestion {s t : GatewayState × List Check}
    {moves : List (Move (GatewayState × List Check) GatewayLabel)}
    (hinit : (checkedGateway rt settings).init s) (hstore : FromApi settings s.1.endpoints)
    (run : (checkedGateway rt settings).Run s moves t)
    (hmoves : ∀ m ∈ moves, ∀ endpoints, m.label = .setEndpoints endpoints →
      FromApi settings endpoints) :
    ∀ v, Machine.Visited s moves v → Authentic rt v := by
  intro v hv
  have inv := run.forall_visited (P := fun v => AuthInv rt v.1 v.2)
    (fun _ _ _ inv hm hstep => authInv_next inv hm hstep) (authInv_init hinit hstore) hmoves v hv
  exact inv.authentic

/-! ## A signed request -/

def memberStore : Database where
  memberships := [{ userId := 1, workspaceId := 9, role := .member }]

def creationEnv : Api.Env where
  url := { urlparse := fun _ => .error ⟨"ValueError", ""⟩, ipAddress := fun _ => none }
  compiles := fun _ => true
  newId := 3
  secret := "9f86d081884c7d659a2feaa0c55ad015a3bf4f1b2b0b822cd15d6c15b0f00a08"
  now := 1

def creation : Api.Request where
  caller := .ok 1
  workspaceId := "00000000-0000-0000-0000-000000000009"
  operation := .createEndpoint (some { name := "orders", hmacSecret := some "whsec" })

/-- An endpoint with the caller's own secret. -/
def createdEndpoints : List Endpoint :=
  ((Api.handle creationEnv {} creation memberStore).store memberStore).endpoints

theorem fromApi_createdEndpoints : FromApi {} createdEndpoints := by
  have hstart : (apiStore {}).Reachable memberStore := .start rfl
  have hlength : creationEnv.secret.length = 64 := by decide +kernel
  have hcreated : (apiStore {}).next memberStore (.request creationEnv creation) =
      some ((Api.handle creationEnv {} creation memberStore).store memberStore) := by
    simp only [apiStore, storeNext]
    rw [if_pos hlength]
  exact ⟨_, hstart.step hcreated, rfl⟩

def signedGateway : GatewayState × List Check := ({ now := 0, endpoints := createdEndpoints }, [])

theorem authentic_ingestion_signed :
    ((checkedGateway sampleRuntime {}).after signedGateway (ingestion 0 "order-7")).1.events.length
        = 1 ∧
      Authentic sampleRuntime
        ((checkedGateway sampleRuntime {}).after signedGateway (ingestion 0 "order-7")) := by
  have hinit : (checkedGateway sampleRuntime {}).init signedGateway := ⟨rfl, rfl⟩
  have hrun : ((checkedGateway sampleRuntime {}).exec signedGateway
        (ingestion 0 "order-7")).isSome = true ∧
      ((checkedGateway sampleRuntime {}).after signedGateway
        (ingestion 0 "order-7")).1.events.length = 1 := by
    decide +kernel
  obtain ⟨moves, run, hlabels⟩ := Machine.exists_run_of_exec (Machine.exec_eq_after hrun.1)
  have hmoves : ∀ m ∈ moves, ∀ endpoints, m.label = .setEndpoints endpoints →
      FromApi {} endpoints := by
    intro m hm endpoints hlabel
    have hmem : GatewayLabel.setEndpoints endpoints ∈ ingestion 0 "order-7" := by
      rw [← hlabels, ← hlabel]
      exact List.mem_map_of_mem hm
    simp [ingestion] at hmem
  exact ⟨hrun.2, authentic_ingestion hinit fromApi_createdEndpoints run hmoves _
    run.visited_last⟩

end WebhookRelay.Gateway
