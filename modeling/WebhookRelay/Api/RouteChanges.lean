import WebhookRelay.Api.RouteFields

/-!
# Adding and changing routes

What `add_route` and `update_route` come to with a body that their model has
accepted. A URL that is not allowed is refused with a 400 before anything is
written. What nobody refuses is a URL that `urlparse` raises on, a `null` for
a column that must not be null, and a value its column does not hold: the
exception is the answer then. `AddTaken` and `UpdateTaken` are the bodies that
meet none of these.
-/

namespace WebhookRelay.Api

open Foundation

/-- A 4xx, with the store as it was. -/
def Outcome.Refused (outcome : Outcome) (db : Database) : Prop :=
  (∃ status detail, outcome.response = .error (.http status detail) ∧ 400 ≤ status ∧
    status < 500) ∧ outcome.store db = db

/-- An answer, with a route committed whose URL passes. -/
def Outcome.CommitsRoute (outcome : Outcome) (rt : UrlRuntime) (settings : Settings) : Prop :=
  (∃ answer, outcome.response = .ok answer) ∧
  ∃ route, (outcome.write = some (.insertRoute route) ∨
    outcome.write = some (.updateRoute route)) ∧
    validateDeliveryUrl rt settings route.url = .ok ()

def ValidatedOrRefused (env : Env) (settings : Settings) (db : Database) (outcome : Outcome) :
    Prop :=
  outcome.Refused db ∨ outcome.CommitsRoute env.url settings

/-! ## What a body asks for -/

/-- Sent as `null`. -/
def isNull {α : Type} : Field α → Bool
  | some none => true
  | _ => false

/-- What a field makes of the value there was. -/
def setOver {α : Type} (field : Field α) (old : α) : α := (field.getD none).getD old

/-- No `null` for a column that must not be null. -/
def RouteUpdate.NoNull (body : RouteUpdate) : Prop :=
  isNull body.name = false ∧ isNull body.url = false ∧ isNull body.method = false ∧
  isNull body.timeoutMs = false ∧ isNull body.maxRetries = false ∧
  isNull body.retryBackoffMs = false ∧ isNull body.isActive = false

/-- The row with the values that are sent. -/
def RouteUpdate.over (body : RouteUpdate) (route : Route) : Route :=
  { route with
    name := setOver body.name route.name
    url := setOver body.url route.url
    method := setOver body.method route.method
    headers := body.headers.getD route.headers
    transformPipeline := body.transformPipeline.getD route.transformPipeline
    timeoutMs := setOver body.timeoutMs route.timeoutMs
    maxRetries := setOver body.maxRetries route.maxRetries
    retryBackoffMs := setOver body.retryBackoffMs route.retryBackoffMs
    isActive := setOver body.isActive route.isActive
    rateLimitRpm := body.rateLimitRpm.getD route.rateLimitRpm
    filterExpression := body.filterExpression.getD route.filterExpression }

/-- The URL can be parsed; if it passes, Postgres takes the row. -/
def AddTaken (env : Env) (settings : Settings) (db : Database) (endpointId : UUID)
    (body : RouteCreate) : Prop :=
  (∃ parsed, env.url.urlparse body.url = .ok parsed) ∧
  (validateDeliveryUrl env.url settings body.url = .ok () →
    env.newId ∉ db.routes.map Route.id ∧ routeFits (newRoute env endpointId body) = true ∧
      env.commit = .ok ())

/-- A URL is sent that can be parsed and does not pass; or the URL of the row
passes, Postgres takes the row, and its pipeline can be shown. -/
def UpdateTaken (env : Env) (settings : Settings) (route : Route) (body : RouteUpdate) : Prop :=
  (∃ url parsed, body.url = some (some url) ∧ env.url.urlparse url = .ok parsed ∧
    validateDeliveryUrl env.url settings url ≠ .ok ()) ∨
  (body.NoNull ∧ validateDeliveryUrl env.url settings (body.over route).url = .ok () ∧
    routeFits (body.over route) = true ∧ env.commit = .ok () ∧
    (body.transformPipeline = none →
      (validPipeline env.compiles route.transformPipeline).isSome = true))

/-! ## The parts of the two handlers -/

section

variable {env : Env} {settings : Settings} {db : Database}

/-- The URL check refuses with a 400, or lets the error of `urlparse` through. -/
theorem validateDeliveryUrl_cases (rt : UrlRuntime) (settings : Settings) (url : String) :
    (∃ exc, rt.urlparse url = .error exc ∧
      validateDeliveryUrl rt settings url = .error (.raised exc)) ∨
    ∃ parsed, rt.urlparse url = .ok parsed ∧
      (validateDeliveryUrl rt settings url = .ok () ∨
        ∃ detail, validateDeliveryUrl rt settings url = .error (.http 400 detail)) := by
  unfold validateDeliveryUrl
  cases hparse : rt.urlparse url with
  | error exc => exact Or.inl ⟨exc, rfl, rfl⟩
  | ok parsed =>
      refine Or.inr ⟨parsed, rfl, ?_⟩
      dsimp only
      split_ifs
      · exact Or.inr ⟨_, rfl⟩
      · exact Or.inr ⟨_, rfl⟩
      · exact Or.inr ⟨_, rfl⟩
      · exact Or.inr ⟨_, rfl⟩
      · exact Or.inl rfl

theorem setColumn_cases {α : Type} (old : α) (field : Field α) :
    (isNull field = false ∧ setColumn old field = .ok (setOver field old)) ∨
    (isNull field = true ∧ ∃ exc, setColumn old field = .error (.raised exc)) := by
  match field with
  | none => exact Or.inl ⟨rfl, rfl⟩
  | some (some value) => exact Or.inl ⟨rfl, rfl⟩
  | some none => exact Or.inr ⟨rfl, _, rfl⟩

/-- A column in turn: it is set, or its `null` is the answer. -/
theorem setColumn_bind {α β : Type} {old : α} {field : Field α} {f : α → Except Failure β}
    {value : β} {P : Prop}
    (h : (P ∧ f (setOver field old) = .ok value) ∨
      (¬ P ∧ ∃ exc, f (setOver field old) = .error (.raised exc))) :
    ((isNull field = false ∧ P) ∧ (setColumn old field >>= f) = .ok value) ∨
      (¬ (isNull field = false ∧ P) ∧
        ∃ exc, (setColumn old field >>= f) = .error (.raised exc)) := by
  rcases setColumn_cases old field with ⟨hsent, hset⟩ | ⟨hnull, exc, hset⟩
  · rw [hset, Fallible.ok_bind]
    rcases h with ⟨hP, hf⟩ | ⟨hP, hf⟩
    · exact Or.inl ⟨⟨hsent, hP⟩, hf⟩
    · exact Or.inr ⟨fun hboth => hP hboth.2, hf⟩
  · refine Or.inr ⟨fun hboth => ?_, exc, ?_⟩
    · rw [hboth.1] at hnull
      cases hnull
    · rw [hset]
      rfl

theorem patchRoute_cases (body : RouteUpdate) (route : Route) :
    (body.NoNull ∧ patchRoute body route = .ok (body.over route)) ∨
      (¬ body.NoNull ∧ ∃ exc, patchRoute body route = .error (.raised exc)) := by
  unfold patchRoute RouteUpdate.NoNull
  -- the columns in the order they are set, down to the last
  apply setColumn_bind
  apply setColumn_bind
  apply setColumn_bind
  apply setColumn_bind
  apply setColumn_bind
  apply setColumn_bind
  rcases setColumn_cases route.isActive body.isActive with ⟨hsent, hset⟩ | ⟨hnull, exc, hset⟩
  · rw [hset]
    exact Or.inl ⟨hsent, rfl⟩
  · rw [hset]
    refine Or.inr ⟨fun hsent => ?_, exc, rfl⟩
    rw [hsent] at hnull
    cases hnull

/-- A commit is made, or its exception is the answer. -/
theorem commit_raises {w : Write} (h : ¬ (w.check db = .ok () ∧ env.commit = .ok ())) :
    ∃ exc, commit env db w = .error (.raised exc) := by
  unfold commit
  cases hcheck : w.check db with
  | error exc => exact ⟨exc, rfl⟩
  | ok _ =>
      cases hcommit : env.commit with
      | error exc => exact ⟨exc, rfl⟩
      | ok _ => exact absurd ⟨hcheck, hcommit⟩ h

theorem commit_of_taken {w : Write} (hcheck : w.check db = .ok ()) (hcommit : env.commit = .ok ()) :
    commit env db w = .ok () := by
  unfold commit
  rw [hcheck, hcommit]

/-- A route can be shown when its pipeline passes its validation. -/
theorem exists_routeOut_iff {compiles : String → Bool} {route : Route} :
    (∃ out, routeOut compiles route = .ok out) ↔
      (validPipeline compiles route.transformPipeline).isSome = true := by
  unfold routeOut validPipeline
  cases route.transformPipeline with
  | none => simp
  | some steps =>
      dsimp only
      cases steps.mapM (pipelineStep compiles) with
      | none => simp
      | some dumps => simp

/-! ## Which outcomes do -/

theorem refused_of_400 (detail : String) :
    ValidatedOrRefused env settings db (.ofHandler (.error (.http 400 detail))) :=
  Or.inl ⟨⟨400, detail, rfl, Nat.le_refl _, by decide⟩, rfl⟩

theorem not_of_raised (exc : Exc) :
    ¬ ValidatedOrRefused env settings db (.ofHandler (.error (.raised exc))) := by
  rintro (⟨⟨_, _, hresponse, -⟩, -⟩ | ⟨⟨_, hresponse⟩, -⟩)
  · cases hresponse
  · cases hresponse

theorem routeOut_raises {compiles : String → Bool} {route : Route} {failure : Failure}
    (h : routeOut compiles route = .error failure) : ∃ exc, failure = .raised exc := by
  unfold routeOut at h
  split at h
  · cases h
  · split at h
    · cases h
    · cases h
      exact ⟨_, rfl⟩

/-- After the commit the answer must not fail, and the URL must pass. -/
theorem respond_iff {write : Write} {route : Route} (status : ℕ)
    (hwrite : write = .insertRoute route ∨ write = .updateRoute route) :
    ValidatedOrRefused env settings db (.ofHandler (.ok (respond status write
        ((routeOut env.compiles route).map .route)))) ↔
      (∃ out, routeOut env.compiles route = .ok out) ∧
        validateDeliveryUrl env.url settings route.url = .ok () := by
  cases hout : routeOut env.compiles route with
  | error failure =>
      obtain ⟨exc, rfl⟩ := routeOut_raises hout
      apply iff_of_false
      · rintro (⟨⟨_, _, hresponse, -⟩, -⟩ | ⟨⟨_, hresponse⟩, -⟩)
        · cases hresponse
        · cases hresponse
      · rintro ⟨⟨out, hok⟩, -⟩
        cases hok
  | ok out =>
      rw [and_iff_right ⟨out, rfl⟩]
      constructor
      · rintro (⟨⟨_, _, hresponse, -⟩, -⟩ | ⟨-, route', hsame, hurl⟩)
        · cases hresponse
        · have hroute : route' = route := by
            rcases hwrite with rfl | rfl
            · rcases hsame with hsame | hsame
              · cases hsame
                rfl
              · cases hsame
            · rcases hsame with hsame | hsame
              · cases hsame
              · cases hsame
                rfl
          rwa [hroute] at hurl
      · intro hurl
        refine Or.inr ⟨⟨(status, .route out), rfl⟩, route, ?_, hurl⟩
        rcases hwrite with rfl | rfl
        · exact Or.inl rfl
        · exact Or.inr rfl

/-! ## The two handlers -/

variable {m : WorkspaceMembership} {caller : Except Failure UUID} {workspaceId text : String}
  {id : UUID}

theorem addRoute_of_found {ws : UUID} {ep : Endpoint} {body : RouteCreate}
    (hparse : UUID.parse text = some id) (hfound : endpointOr404 db ws id = .ok ep) :
    addRoute env settings db ws text (some body) =
      (validateDeliveryUrl env.url settings body.url >>= fun _ =>
        commit env db (.insertRoute (newRoute env ep.id body)) >>= fun _ =>
          pure (respond 201 (.insertRoute (newRoute env ep.id body))
            ((routeOut env.compiles (newRoute env ep.id body)).map .route))) := by
  simp only [addRoute, validBody, Fallible.ok_bind, parseUuid_of_parse hparse, hfound]

theorem check_insertRoute_iff {ws : UUID} {ep : Endpoint} {body : RouteCreate}
    (hfound : endpointOr404 db ws id = .ok ep) :
    (Write.insertRoute (newRoute env ep.id body)).check db = .ok () ↔
      env.newId ∉ db.routes.map Route.id ∧ routeFits (newRoute env ep.id body) = true := by
  have hmem : ep.id ∈ db.endpoints.map Endpoint.id := by
    unfold endpointOr404 at hfound
    split at hfound
    · rename_i found hget
      split at hfound
      · cases hfound
        exact List.mem_map_of_mem (List.mem_of_find?_eq_some hget)
      · cases hfound
    · cases hfound
  have hid : (newRoute env ep.id body).id = env.newId := rfl
  have hendpoint : (newRoute env ep.id body).endpointId = ep.id := rfl
  rw [Write.check, hid, hendpoint]
  by_cases hfresh : env.newId ∈ db.routes.map Route.id
  · rw [if_pos hfresh]
    exact iff_of_false (by simp [integrityError]) (fun h => h.1 hfresh)
  · rw [if_neg hfresh, if_neg (not_not.mpr hmem), checkColumns_eq_ok_iff, and_iff_right hfresh]

theorem addRoute_iff {ws : UUID} {ep : Endpoint} {raw body : RouteCreate}
    (hparse : UUID.parse text = some id) (hfound : endpointOr404 db ws id = .ok ep)
    (hbody : raw.validate env.compiles = some body) :
    ValidatedOrRefused env settings db
        (.ofHandler (addRoute env settings db ws text (some body))) ↔
      AddTaken env settings db ep.id body := by
  rw [addRoute_of_found hparse hfound]
  unfold AddTaken
  rcases validateDeliveryUrl_cases env.url settings body.url with
    ⟨exc, hraised, hvalid⟩ | ⟨parsed, hparsed, hvalid | ⟨detail, hvalid⟩⟩
  · rw [hvalid, hraised]
    exact iff_of_false (not_of_raised exc) (by simp)
  · rw [hvalid, hparsed, Fallible.ok_bind]
    have hshown : ∃ out, routeOut env.compiles (newRoute env ep.id body) = .ok out := by
      obtain ⟨hpipeline, -⟩ := RouteCreate.validate_cases hbody
      rw [exists_routeOut_iff]
      show (validPipeline env.compiles body.transformPipeline).isSome = true
      rw [hpipeline]
      rfl
    have hparses : ∃ found, (Except.ok parsed : Except Exc ParsedUrl) = .ok found := ⟨parsed, rfl⟩
    rw [and_iff_right hparses, imp_iff_right rfl, ← and_assoc, ← check_insertRoute_iff hfound]
    by_cases htaken : (Write.insertRoute (newRoute env ep.id body)).check db = .ok () ∧
        env.commit = .ok ()
    · rw [commit_of_taken htaken.1 htaken.2]
      refine iff_of_true ?_ htaken
      exact (respond_iff 201 (Or.inl rfl)).mpr ⟨hshown, hvalid⟩
    · obtain ⟨exc, hraised⟩ := commit_raises htaken
      rw [hraised]
      exact iff_of_false (not_of_raised exc) htaken
  · rw [hvalid, hparsed]
    exact iff_of_true (refused_of_400 detail) (by simp)

/-- The pipeline of the row is one that is sent, and so has been validated, or
the one there was. -/
theorem routeOut_over_iff {route : Route} {raw body : RouteUpdate}
    (hbody : raw.validate env.compiles = some body) :
    (∃ out, routeOut env.compiles (body.over route) = .ok out) ↔
      (body.transformPipeline = none →
        (validPipeline env.compiles route.transformPipeline).isSome = true) := by
  rw [exists_routeOut_iff]
  show (validPipeline env.compiles (body.transformPipeline.getD route.transformPipeline)).isSome =
    true ↔ _
  cases hsent : body.transformPipeline with
  | none => simp
  | some pipeline =>
      have hpipeline := (RouteUpdate.validate_cases hbody).1 pipeline hsent
      simp [hpipeline]

/-- What is left when the URL that is sent, if any, has passed. -/
theorem putRoute_iff {route : Route} {raw body : RouteUpdate}
    (hbody : raw.validate env.compiles = some body) :
    ValidatedOrRefused env settings db
        (.ofHandler (patchRoute body route >>= fun route' =>
          commit env db (.updateRoute route') >>= fun _ =>
            pure (respond 200 (.updateRoute route')
              ((routeOut env.compiles route').map .route)))) ↔
      body.NoNull ∧ validateDeliveryUrl env.url settings (body.over route).url = .ok () ∧
        routeFits (body.over route) = true ∧ env.commit = .ok () ∧
        (body.transformPipeline = none →
          (validPipeline env.compiles route.transformPipeline).isSome = true) := by
  rcases patchRoute_cases body route with ⟨hsent, hpatch⟩ | ⟨hnull, exc, hpatch⟩
  · rw [hpatch, Fallible.ok_bind, and_iff_right hsent]
    by_cases htaken : (Write.updateRoute (body.over route)).check db = .ok () ∧ env.commit = .ok ()
    · have hfits : routeFits (body.over route) = true := checkColumns_eq_ok_iff.mp htaken.1
      rw [commit_of_taken htaken.1 htaken.2, Fallible.ok_bind, and_iff_right hfits,
        and_iff_right htaken.2, ← routeOut_over_iff hbody, and_comm]
      exact respond_iff 200 (Or.inr rfl)
    · obtain ⟨exc, hraised⟩ := commit_raises htaken
      rw [hraised]
      apply iff_of_false (not_of_raised exc)
      rintro ⟨-, hfits, hcommit, -⟩
      exact htaken ⟨checkColumns_eq_ok_iff.mpr hfits, hcommit⟩
  · rw [hpatch]
    exact iff_of_false (not_of_raised exc) (fun h => hnull h.1)

theorem updateRoute_iff {ws : UUID} {route : Route} {raw body : RouteUpdate}
    (hparse : UUID.parse text = some id) (hfound : routeOr404 db ws id = .ok route)
    (hbody : raw.validate env.compiles = some body) :
    ValidatedOrRefused env settings db
        (.ofHandler (updateRoute env settings db ws text (some body))) ↔
      UpdateTaken env settings route body := by
  rw [updateRoute_of_found hparse hfound]
  unfold UpdateTaken
  by_cases hsent : ∃ url, body.url = some (some url)
  · obtain ⟨url, hurl⟩ := hsent
    have hover : (body.over route).url = url := by
      simp only [RouteUpdate.over, hurl]
      rfl
    rw [hurl, validatePatchedUrl]
    rcases validateDeliveryUrl_cases env.url settings url with
      ⟨exc, hraised, hvalid⟩ | ⟨parsed, hparsed, hvalid | ⟨detail, hvalid⟩⟩
    · rw [hvalid]
      apply iff_of_false (not_of_raised exc)
      rintro (⟨url', parsed, heq, hparsed, -⟩ | ⟨-, hpasses, -⟩)
      · obtain rfl := Option.some.inj (Option.some.inj heq)
        rw [hraised] at hparsed
        cases hparsed
      · rw [hover, hvalid] at hpasses
        cases hpasses
    · rw [hvalid, Fallible.ok_bind, putRoute_iff hbody, or_iff_right]
      rintro ⟨url', _, heq, -, hfails⟩
      obtain rfl := Option.some.inj (Option.some.inj heq)
      exact hfails hvalid
    · rw [hvalid]
      apply iff_of_true (refused_of_400 detail)
      exact Or.inl ⟨url, parsed, rfl, hparsed, by simp [hvalid]⟩
  · have hunchecked : validatePatchedUrl env settings body.url = .ok () := by
      unfold validatePatchedUrl
      split
      · rename_i url hurl
        exact absurd ⟨url, hurl⟩ hsent
      · rfl
    rw [hunchecked, Fallible.ok_bind, putRoute_iff hbody, or_iff_right]
    rintro ⟨url, _, hurl, -⟩
    exact hsent ⟨url, hurl⟩

/-- A member's `add_route` on an endpoint of the workspace, and an admin's
`update_route` on one of its routes. -/
theorem validatedOrRefused_iff (env : Env) (settings : Settings)
    (hmember : getWorkspaceMembership db caller workspaceId = .ok m)
    (hparse : UUID.parse text = some id) :
    (∀ (ep : Endpoint) (raw body : RouteCreate), requireWorkspaceRole .member m = .ok m →
      endpointOr404 db m.workspaceId id = .ok ep → raw.validate env.compiles = some body →
      (ValidatedOrRefused env settings db
          (handle env settings ⟨caller, workspaceId, .addRoute text (some body)⟩ db) ↔
        AddTaken env settings db ep.id body)) ∧
    (∀ (route : Route) (raw body : RouteUpdate), requireWorkspaceRole .admin m = .ok m →
      routeOr404 db m.workspaceId id = .ok route → raw.validate env.compiles = some body →
      (ValidatedOrRefused env settings db
          (handle env settings ⟨caller, workspaceId, .updateRoute text (some body)⟩ db) ↔
        UpdateTaken env settings route body)) := by
  constructor
  · intro ep raw body hrole hfound hbody
    rw [handle_of_role (.addRoute text (some body)) hmember hrole]
    exact addRoute_iff hparse hfound hbody
  · intro route raw body hrole hfound hbody
    rw [handle_of_role (.updateRoute text (some body)) hmember hrole]
    exact updateRoute_iff hparse hfound hbody

end

/-! ## Stored URLs -/

section

variable {env : Env} {settings : Settings} {db : Database}

/-- No request stores a URL that does not pass, with the settings as they are. -/
theorem urlsPass_handle
    (hroutes : ∀ r ∈ db.routes, validateDeliveryUrl env.url settings r.url = .ok ())
    (request : Request) :
    ∀ r ∈ ((handle env settings request db).store db).routes,
      validateDeliveryUrl env.url settings r.url = .ok () := by
  apply routes_handle hroutes
  intro ws
  apply only_run
  · intro w hnone r hput
    rw [hnone] at hput
    cases hput
  · rintro endpointId body -
    apply Only.bind
    intro valid _
    apply Only.bind
    intro id _
    apply Only.bind
    rintro ⟨⟩ hurl
    apply Only.bind
    intro ep _
    apply Only.commit
    rintro - r hput
    obtain rfl := Option.some.inj hput
    exact hurl
  · rintro routeId body -
    apply Only.bind
    intro valid _
    apply Only.bind
    intro id _
    apply Only.bind
    intro old hold
    apply Only.bind
    rintro ⟨⟩ hurl
    apply Only.bind
    intro route hpatch
    apply Only.commit
    rintro - r hput
    obtain rfl := Option.some.inj hput
    rcases patchRoute_cases valid old with ⟨-, hover⟩ | ⟨-, exc, hraised⟩
    · obtain rfl := Except.ok.inj (hover.symm.trans hpatch)
      show validateDeliveryUrl env.url settings (setOver valid.url old.url) = .ok ()
      match hsent : valid.url with
      | some (some url) =>
          rw [hsent] at hurl
          exact hurl
      | none | some none => exact hroutes old (route_mem_of_routeOr404 hold)
    · rw [hraised] at hpatch
      cases hpatch

end

/-! ## A workspace with one route -/

/-- `urlparse` minds a bracket that is not closed. -/
def bracketEnv : Env where
  url := {
    urlparse := fun url =>
      if url = "https://[" then .error ⟨"ValueError", "Invalid IPv6 URL"⟩
      else .ok { scheme := "https", hostname := some "hooks.example.com" }
    ipAddress := fun _ => none }
  compiles := fun _ => true
  newId := 6
  secret := ""
  now := 1

def orders : Route := newRoute { bracketEnv with newId := 5 } 3
  { name := "orders", url := "https://hooks.example.com/in" }

def shop : Endpoint where
  id := 3
  workspaceId := 9
  name := "shop"
  hmacSecret := "s3cr3t"
  createdAt := 0
  updatedAt := 0

def ordersStore : Database where
  memberships := [⟨1, 9, .admin⟩]
  endpoints := [shop]
  routes := [orders]

theorem member_of_ordersStore :
    getWorkspaceMembership ordersStore (.ok 1) (UUID.str 9) = .ok ⟨1, 9, .admin⟩ := by
  simp only [getWorkspaceMembership, Fallible.ok_bind, UUID.parse_str]
  rfl

/-- A URL that `urlparse` raises on, and a `null` for the URL. -/
theorem neither_validated_nor_refused :
    (¬ ∀ (env : Env) (settings : Settings) (db : Database) (caller : Except Failure UUID)
        (workspaceId text : String) (m : WorkspaceMembership) (id : UUID) (ep : Endpoint)
        (raw body : RouteCreate),
      getWorkspaceMembership db caller workspaceId = .ok m → UUID.parse text = some id →
      requireWorkspaceRole .member m = .ok m → endpointOr404 db m.workspaceId id = .ok ep →
      raw.validate env.compiles = some body → env.commit = .ok () →
      ValidatedOrRefused env settings db
        (handle env settings ⟨caller, workspaceId, .addRoute text (some body)⟩ db)) ∧
    (¬ ∀ (env : Env) (settings : Settings) (db : Database) (caller : Except Failure UUID)
        (workspaceId text : String) (m : WorkspaceMembership) (id : UUID) (route : Route)
        (raw body : RouteUpdate),
      getWorkspaceMembership db caller workspaceId = .ok m → UUID.parse text = some id →
      requireWorkspaceRole .admin m = .ok m → routeOr404 db m.workspaceId id = .ok route →
      raw.validate env.compiles = some body → env.commit = .ok () →
      ValidatedOrRefused env settings db
        (handle env settings ⟨caller, workspaceId, .updateRoute text (some body)⟩ db)) := by
  constructor
  · intro h
    let body : RouteCreate := { name := "orders", url := "https://[" }
    have hbody : body.validate bracketEnv.compiles = some body := rfl
    have hclaim := h bracketEnv {} ordersStore (.ok 1) (UUID.str 9) (UUID.str 3) _ 3 shop body body
      member_of_ordersStore (UUID.parse_str 3) rfl rfl hbody rfl
    rw [handle_of_role (.addRoute (UUID.str 3) (some body)) member_of_ordersStore rfl] at hclaim
    obtain ⟨⟨parsed, hparsed⟩, -⟩ := (addRoute_iff (UUID.parse_str 3) rfl hbody).mp hclaim
    cases hparsed
  · intro h
    let body : RouteUpdate := { url := some none }
    have hbody : body.validate bracketEnv.compiles = some body := rfl
    have hclaim := h bracketEnv {} ordersStore (.ok 1) (UUID.str 9) (UUID.str 5) _ 5 orders body
      body member_of_ordersStore (UUID.parse_str 5) rfl rfl hbody rfl
    rw [handle_of_role (.updateRoute (UUID.str 5) (some body)) member_of_ordersStore rfl] at hclaim
    rcases (updateRoute_iff (UUID.parse_str 5) rfl hbody).mp hclaim with
      ⟨url, _, hurl, -⟩ | ⟨⟨-, hnull, -⟩, -⟩
    · cases hurl
    · cases hnull

/-- A second route, and a new name for the first. -/
theorem validatedOrRefused_ordersStore :
    ValidatedOrRefused bracketEnv {} ordersStore
      (handle bracketEnv {} ⟨.ok 1, UUID.str 9, .addRoute (UUID.str 3)
        (some { name := "copies", url := "https://hooks.example.com/copies" })⟩ ordersStore) ∧
    ValidatedOrRefused bracketEnv {} ordersStore
      (handle bracketEnv {} ⟨.ok 1, UUID.str 9, .updateRoute (UUID.str 5)
        (some { name := some (some "all orders") })⟩ ordersStore) := by
  let create : RouteCreate := { name := "copies", url := "https://hooks.example.com/copies" }
  let update : RouteUpdate := { name := some (some "all orders") }
  have hparsed : ∀ url, url ≠ "https://[" → bracketEnv.url.urlparse url =
      .ok { scheme := "https", hostname := some "hooks.example.com" } := fun _ hurl => if_neg hurl
  constructor
  · have hadd := (validatedOrRefused_iff bracketEnv {} member_of_ordersStore (UUID.parse_str 3)).1
    refine (hadd shop create create rfl rfl rfl).mpr ⟨⟨_, hparsed _ (by decide)⟩, fun _ => ?_⟩
    decide +kernel
  · have hupdate :=
      (validatedOrRefused_iff bracketEnv {} member_of_ordersStore (UUID.parse_str 5)).2
    refine (hupdate orders update update rfl rfl rfl).mpr (Or.inr ⟨?_, ?_, ?_, rfl, fun _ => rfl⟩)
    · exact ⟨rfl, rfl, rfl, rfl, rfl, rfl, rfl⟩
    · unfold validateDeliveryUrl
      rw [hparsed _ (by decide)]
      decide +kernel
    · decide +kernel

end WebhookRelay.Api
