import WebhookRelay.Api.RouteFields
import WebhookRelay.Pipeline.Deletion

/-!
# Reading a route and writing it back

A run of the store in which every request to the API has a validated body
leaves valid routes only. What the list of routes then shows of one, sent back
as an update, leaves the route as it is, except for the headers that are
redacted: they are stored as they are shown.
-/

namespace WebhookRelay.Pipeline

open Foundation

variable {ξ ζ : Type} [DecidableEq ξ] [DecidableEq ζ] {rt : Gateway.Runtime}
  {accountRt : Api.AccountRuntime} {settings : Settings} {s₀ s t : StoreState ξ ζ}
  {compiles : String → Bool}

/-- What FastAPI has made sure of. -/
def UsageLabel.Validated (compiles : String → Bool) : UsageLabel ξ ζ → Prop
  | .store (.api _ request) => request.operation.Validated compiles
  | _ => True

def RoutesValid (compiles : String → Bool) (s : StoreState ξ ζ) : Prop :=
  ∀ r ∈ s.db.routes, Api.ValidRoute compiles r

theorem routesValid_step {a : UsageLabel ξ ζ} (h : RoutesValid compiles s)
    (ha : a.Validated compiles) (hstep : usageNext rt accountRt settings s a = some t) :
    RoutesValid compiles t := by
  match a with
  | .store (.gateway label) =>
      obtain ⟨g, _, rfl⟩ := Option.map_eq_some_iff.mp hstep
      exact h
  | .store (.relay label) =>
      change relayStep s label = some t at hstep
      unfold relayStep at hstep
      split at hstep
      · cases hstep
      · split at hstep
        · cases hstep
        · obtain ⟨r, hr, rfl⟩ := Option.map_eq_some_iff.mp hstep
          have frame : Frame s.db r.db := relayNext_frame hr
          intro route hroute
          exact h route (frame.routes ▸ hroute)
  | .store (.retry label) =>
      change retryStep settings s label = some t at hstep
      simp only [retryStep, Option.ite_none_right_eq_some] at hstep
      obtain ⟨_, hstep⟩ := hstep
      obtain ⟨r, hr, rfl⟩ := Option.map_eq_some_iff.mp hstep
      have frame : Frame s.db r.db := retryNext_frame hr
      intro route hroute
      exact h route (frame.routes ▸ hroute)
  | .store (.api env request) =>
      obtain rfl := apiStep_eq hstep
      exact Api.validRoutes_handle h ha
  | .store (.account env write) =>
      change accountStep accountRt s env write = some t at hstep
      unfold accountStep at hstep
      split at hstep
      · cases hstep
      · obtain rfl := Option.some.inj hstep
        intro route hroute
        cases write with
        | deleteWorkspace id => exact h route (List.mem_filter.mp hroute).1
        | _ => exact h route hroute
  | .attempt row =>
      change attemptStep s row = some t at hstep
      simp only [attemptStep, Option.ite_none_right_eq_some, Option.some.injEq] at hstep
      obtain ⟨_, rfl⟩ := hstep
      exact h

theorem routesValid_run {moves : List (Move (StoreState ξ ζ) (UsageLabel ξ ζ))}
    (run : (usage rt accountRt settings ξ ζ).Run s₀ moves s) (hstart : RoutesValid compiles s₀)
    (hmoves : ∀ mv ∈ moves, mv.label.Validated compiles) : RoutesValid compiles s := by
  induction run with
  | nil => exact hstart
  | snoc _ hstep ih =>
      have hbefore := ih (fun mv hmv => hmoves mv (List.mem_append_left _ hmv))
      have hlabel := hmoves _ (List.mem_append_right _ (List.mem_singleton_self _))
      exact routesValid_step hbefore hlabel hstep

/-- A store that requests with validated bodies have led to. -/
def Grown (rt : Gateway.Runtime) (accountRt : Api.AccountRuntime) (settings : Settings)
    (compiles : String → Bool) (s : StoreState ξ ζ) : Prop :=
  ∃ s₀ moves, (usage rt accountRt settings ξ ζ).init s₀ ∧
    (usage rt accountRt settings ξ ζ).Run s₀ moves s ∧ ∀ mv ∈ moves, mv.label.Validated compiles

theorem Grown.tables (h : Grown rt accountRt settings compiles s) :
    UsageInv settings s ∧ RoutesValid compiles s := by
  obtain ⟨s₀, moves, hinit, run, hmoves⟩ := h
  have hreach := run.reachable (.start hinit)
  refine ⟨usageInv_reachable hreach, routesValid_run run ?_ hmoves⟩
  intro r hr
  rw [hinit.2] at hr
  cases hr

/-- A stored route, what the list of routes shows of it to someone, and the
admin of its workspace who is about to send that back. -/
structure ReadBack (rt : Gateway.Runtime) (accountRt : Api.AccountRuntime) (settings : Settings)
    (s : StoreState ξ ζ) (env : Api.Env) (caller : Except Failure UUID)
    (workspaceId routeId : String) (route : Route) (out : Api.RouteOut) : Prop where
  grown : Grown rt accountRt settings env.compiles s
  stored : route ∈ s.db.routes
  listed : ∃ (listEnv : Api.Env) (reader : Except Failure UUID)
      (readerWorkspace endpointId : String),
    listEnv.compiles = env.compiles ∧ out ∈ (Api.handle listEnv settings
      ⟨reader, readerWorkspace, .listRoutes endpointId⟩ s.db).routes
  shown : out.id = route.id
  admin : ∃ m, Api.getWorkspaceMembership s.db caller workspaceId = .ok m ∧
    Api.requireWorkspaceRole .admin m = .ok m ∧ Api.Owned s.db m.workspaceId route.endpointId
  named : UUID.parse routeId = some route.id
  committed : env.commit = .ok ()

/-- The tables after an update with the shown values of the fields `sent`. -/
def writeBack (settings : Settings) (db : Database) (env : Api.Env)
    (caller : Except Failure UUID) (workspaceId routeId : String) (sent : Api.RouteFields)
    (out : Api.RouteOut) : Database :=
  (Api.handle env settings ⟨caller, workspaceId,
    .updateRoute routeId ((sent.ofOut out).validate env.compiles)⟩ db).store db

variable {env : Api.Env} {caller : Except Failure UUID} {workspaceId routeId : String}
  {route : Route} {out : Api.RouteOut}

/-- The route is valid, and what was listed is what it shows. -/
theorem ReadBack.tables
    (h : ReadBack rt accountRt settings s env caller workspaceId routeId route out) :
    Api.Consistent s.db ∧ Api.ValidRoute env.compiles route ∧
      Api.routeOut env.compiles route = .ok out := by
  obtain ⟨hinv, hvalid⟩ := h.grown.tables
  obtain ⟨listEnv, reader, readerWorkspace, endpointId, hcompiles, hlisted⟩ := h.listed
  obtain ⟨r, hr, hshown⟩ := Api.exists_route_of_listed hlisted
  rw [hcompiles] at hshown
  have hsame : r = route := by
    apply Rows.eq_of_key_eq hinv.consistent.routes_nodup hr h.stored
    rw [← h.shown, Api.routeOut_of_valid (hvalid r hr) hshown]
  subst hsame
  exact ⟨hinv.consistent, hvalid r hr, hshown⟩

/-- A stored route is left as it is by an update with what the list of routes
shows of it exactly if its headers are not sent, or are shown as they are, or
the update is refused for the URL in it. -/
theorem read_back_unchanged_iff
    (h : ReadBack rt accountRt settings s env caller workspaceId routeId route out)
    (sent : Api.RouteFields) :
    Api.routeById (writeBack settings s.db env caller workspaceId routeId sent out) route.id =
        some route ↔
      sent.headers = false ∨ Api.ShownAsIs route ∨
        (sent.url = true ∧ validateDeliveryUrl env.url settings route.url ≠ .ok ()) := by
  obtain ⟨hconsistent, hvalid, hout⟩ := h.tables
  obtain ⟨m, hmember, hrole, howned⟩ := h.admin
  exact Api.unchanged_iff hconsistent h.stored howned h.named hvalid hout h.committed hmember hrole

/-! ## A route with a credential -/

def bearer : Headers := [("Authorization", "Bearer s3cr3t")]

/-- Ann registers, and creates an endpoint and a route that authenticates. -/
def bearerRun : List (UsageLabel Unit Unit) := [
  .store (.account ⟨1, 9, "", .ok (), .ok ()⟩
    (.register ⟨"ann@example.com", "long enough", "ann"⟩)),
  annCall 3 (.createEndpoint (some { name := "orders", hmacSecret := some "whsec" })),
  annCall 5 (.addRoute (UUID.str 3)
    (some { name := "orders", url := "https://hooks.example.com/in", headers := some bearer }))]

def bearerStore : StoreState Unit Unit :=
  (usage Gateway.sampleRuntime Api.plainText {} Unit Unit).after noUsage bearerRun

def annLists : Api.Outcome :=
  Api.handle (creationEnv 0) {} ⟨.ok 1, UUID.str 9, .listRoutes (UUID.str 3)⟩ bearerStore.db

theorem bearerRun_rows :
    ((usage Gateway.sampleRuntime Api.plainText {} Unit Unit).exec noUsage
      bearerRun).isSome = true ∧
      bearerStore.db.memberships = [⟨1, 9, .owner⟩] ∧
      bearerStore.db.endpoints.map (fun ep => (ep.id, ep.workspaceId)) = [(3, 9)] ∧
      bearerStore.db.routes.map (fun r => (Api.routeLink r, r.headers)) = [((5, 3), some bearer)] ∧
      annLists.routes.map Api.RouteOut.id = [5] := by
  decide +kernel

theorem grown_bearerStore :
    Grown Gateway.sampleRuntime Api.plainText {} (fun _ => true) bearerStore := by
  have hexec := Machine.exec_eq_after bearerRun_rows.1
  obtain ⟨moves, run, hlabels⟩ := Machine.exists_run_of_exec hexec
  refine ⟨noUsage, moves, ⟨⟨rfl, rfl, rfl, rfl, rfl⟩, rfl⟩, run, ?_⟩
  intro mv hmv
  have hmem : mv.label ∈ bearerRun := by
    rw [← hlabels]
    exact List.mem_map_of_mem hmv
  simp only [bearerRun, List.mem_cons, List.not_mem_nil, or_false] at hmem
  rcases hmem with hlabel | hlabel | hlabel
  · rw [hlabel]
    trivial
  · rw [hlabel]
    trivial
  · rw [hlabel]
    intro valid hvalid
    obtain rfl := Option.some.inj hvalid
    exact ⟨{ name := "orders", url := "https://hooks.example.com/in", headers := some bearer }, rfl⟩

/-- Ann is about to send back what the list shows of her route. -/
theorem readBack_bearerStore : ∃ route out, route.headers = some bearer ∧
    ReadBack Gateway.sampleRuntime Api.plainText {} bearerStore (creationEnv 0) (.ok 1) (UUID.str 9)
      (UUID.str 5) route out := by
  obtain ⟨_, hmemberships, hendpoints, hroutes, hlisted⟩ := bearerRun_rows
  have hmem : ((5, 3), some bearer) ∈
      bearerStore.db.routes.map (fun r => (Api.routeLink r, r.headers)) := by
    rw [hroutes]
    exact List.mem_singleton_self _
  obtain ⟨route, hroute, heq⟩ := List.mem_map.mp hmem
  obtain ⟨hlink, hheaders⟩ := Prod.mk.inj heq
  obtain ⟨hid, hof⟩ := Prod.mk.inj hlink
  have hshown : (5 : UUID) ∈ annLists.routes.map Api.RouteOut.id := by
    rw [hlisted]
    exact List.mem_singleton_self _
  obtain ⟨out, hout, houtId⟩ := List.mem_map.mp hshown
  have hendpoint : ((3 : UUID), (9 : UUID)) ∈
      bearerStore.db.endpoints.map (fun ep => (ep.id, ep.workspaceId)) := by
    rw [hendpoints]
    exact List.mem_singleton_self _
  obtain ⟨ep, hep, hepeq⟩ := List.mem_map.mp hendpoint
  obtain ⟨hepId, hws⟩ := Prod.mk.inj hepeq
  refine ⟨route, out, hheaders, grown_bearerStore, hroute,
    ⟨creationEnv 0, .ok 1, UUID.str 9, UUID.str 3, rfl, hout⟩, houtId.trans hid.symm,
    ⟨⟨1, 9, .owner⟩, ?_, rfl, ep, hep, hepId.trans hof.symm, hws⟩, ?_, rfl⟩
  · exact membership_found hmemberships
  · rw [hid]
    exact UUID.parse_str 5

theorem not_shownAsIs_bearer (h : route.headers = some bearer) : ¬ Api.ShownAsIs route := by
  intro hshown
  have hmasked := hshown ("Authorization", "Bearer s3cr3t")
    (by rw [h]; exact List.mem_singleton_self _) (by decide +kernel)
  revert hmasked
  decide +kernel

theorem hooksUrl_valid (url : String) : validateDeliveryUrl hooksUrl {} url = .ok () := by
  have hconst : validateDeliveryUrl hooksUrl {} url = validateDeliveryUrl hooksUrl {} "" := rfl
  rw [hconst]
  decide +kernel

/-- Sent back, the mask takes the place of the credential. -/
theorem credential_lost :
    ¬ ∀ (s : StoreState Unit Unit) (env : Api.Env) (caller : Except Failure UUID)
      (workspaceId routeId : String) (route : Route) (out : Api.RouteOut),
      ReadBack Gateway.sampleRuntime Api.plainText {} s env caller workspaceId routeId route out →
      ∀ sent, Api.routeById (writeBack {} s.db env caller workspaceId routeId sent out) route.id =
        some route := by
  intro hall
  obtain ⟨route, out, hheaders, h⟩ := readBack_bearerStore
  have hkept := hall _ _ _ _ _ _ _ h { headers := true }
  obtain ⟨hconsistent, hvalid, hout⟩ := h.tables
  obtain ⟨m, hmember, hrole, howned⟩ := h.admin
  rcases (Api.unchanged_iff hconsistent h.stored howned h.named hvalid hout h.committed hmember
    hrole).mp hkept with hnone | hshown | ⟨hurl, _⟩
  · cases hnone
  · exact not_shownAsIs_bearer hheaders hshown
  · cases hurl

theorem read_back_of_bearerStore : ∃ route out, route.headers = some bearer ∧
    Api.routeById (writeBack {} bearerStore.db (creationEnv 0) (.ok 1) (UUID.str 9) (UUID.str 5)
      { name := true, url := true, method := true, transformPipeline := true } out) route.id =
        some route ∧
    Api.routeById (writeBack {} bearerStore.db (creationEnv 0) (.ok 1) (UUID.str 9) (UUID.str 5)
      { url := true, headers := true } out) route.id ≠ some route := by
  obtain ⟨route, out, hheaders, h⟩ := readBack_bearerStore
  refine ⟨route, out, hheaders, (read_back_unchanged_iff h _).mpr (Or.inl rfl), ?_⟩
  intro hkept
  rcases (read_back_unchanged_iff h _).mp hkept with hnone | hshown | ⟨_, hrefused⟩
  · cases hnone
  · exact not_shownAsIs_bearer hheaders hshown
  · exact hrefused (hooksUrl_valid _)

end WebhookRelay.Pipeline
