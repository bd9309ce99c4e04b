import WebhookRelay.Api.Rbac
import WebhookRelay.Foundation.Machine

/-!
# Accounts, workspaces and their members

`register` of `app/api/auth.py` and the writing handlers of
`app/api/workspaces.py`, as any number of calls at once. A call tests the role
of its caller, reads what it writes over, and writes, each in a session or a
statement of its own, so anything may be committed in between. `created` is
history: every workspace there ever was, with the user whose call made it.
-/

namespace WebhookRelay.Api

open Foundation

/-- `str.strip` and `str.lower`. -/
structure AccountRuntime where
  strip : String → String
  lower : String → String

structure UserCreate where
  email : String
  password : String
  displayName : String

/-- The three handlers that an admin of a workspace may call. -/
inductive MemberCall where
  | addMember (email role : String)
  | updateMemberRole (userId role : String)
  | removeMember (userId : String)

/-- `caller` is what `get_current_user` comes to. -/
inductive AccountCall where
  | register (body : UserCreate)
  | createWorkspace (caller : Except Failure UUID) (name : String)
  | deleteWorkspace (caller : Except Failure UUID) (workspaceId : String)
  | member (caller : Except Failure UUID) (workspaceId : String) (call : MemberCall)

/-- What a call has decided to commit, with the row it has read. -/
inductive AccountWrite where
  | register (body : UserCreate)
  | createWorkspace (user : UUID) (name : String)
  | deleteWorkspace (id : UUID)
  | addMember (membership : WorkspaceMembership)
  | updateMemberRole (membership : WorkspaceMembership) (role : Role)
  | removeMember (membership : WorkspaceMembership)

/-- Where a call stands. -/
inductive AccountPhase where
  | absent
  | asked (call : AccountCall)
  | authorized (workspaceId : UUID) (call : MemberCall)
  | found (membership : WorkspaceMembership)
  | ready (write : AccountWrite)
  | ended (response : Except Failure ℕ)

/-- New identifiers, a password hash, whether the relationship `workspace` of
a row from a closed session loads, and how the commit ends if the tables allow
it. -/
structure AccountEnv where
  userId : UUID
  workspaceId : UUID
  passwordHash : String := ""
  loaded : Except Exc Unit := .ok ()
  commit : Except Exc Unit := .ok ()

section

variable (rt : AccountRuntime)

def normalizeEmail (email : String) : String := rt.lower (rt.strip email)

def isSlugChar (c : Char) : Bool :=
  (decide ('a' ≤ c) && decide (c ≤ 'z')) || (decide ('0' ≤ c) && decide (c ≤ '9')) || c = '-'

/-- `_slugify`. -/
def slugify (name : String) : String :=
  let slug := ((rt.lower name).toList.map (fun c => if c = ' ' then '-' else c)).filter isSlugChar
  if slug.take 63 = [] then "workspace" else String.ofList (slug.take 63)

/-! ## Reading -/

def memberRole : String → Option Role
  | "admin" => some .admin
  | "member" => some .member
  | "viewer" => some .viewer
  | _ => none

/-- The dependencies of a call: who asks, and with which role. For `register`
the look-up of the address. -/
def authorize (db : Database) : AccountCall → Except Failure AccountPhase
  | .register body =>
      if body.password.length < 8 then
        .error (.http 400 "password must be at least 8 characters")
      else if normalizeEmail rt body.email ∈ db.users.map User.email then
        .error (.http 409 "email already registered")
      else .ok (.ready (.register body))
  | .createWorkspace caller name => do
      let user ← caller
      return .ready (.createWorkspace user name)
  | .deleteWorkspace caller workspaceId => do
      let membership ← getWorkspaceMembership db caller workspaceId
      let membership ← requireWorkspaceRole .owner membership
      return .ready (.deleteWorkspace membership.workspaceId)
  | .member caller workspaceId call => do
      let membership ← getWorkspaceMembership db caller workspaceId
      let membership ← requireWorkspaceRole .admin membership
      return .authorized membership.workspaceId call

def requireMemberRole (role : String) : Except Failure Role :=
  match memberRole role with
  | some role => .ok role
  | none => .error (.http 400 "role must be admin, member, or viewer")

/-- The row a call is about, which must not be an owner's. -/
def targetMembership (db : Database) (workspaceId : UUID) (userId ownerDetail : String) :
    Except Failure WorkspaceMembership := do
  let target ← parseUuid userId "user_id"
  match membershipById db target workspaceId with
  | none => .error (.http 404 "membership not found")
  | some membership =>
      if membership.role = .owner then .error (.http 403 ownerDetail) else .ok membership

/-- The body of a handler up to its first write; `add_member` has a second
look-up to make. -/
def lookUp (db : Database) (workspaceId : UUID) : MemberCall → Except Failure AccountPhase
  | .addMember email role => do
      let role ← requireMemberRole role
      match db.users.find? (fun user => user.email = email) with
      | none => .error (.http 404 "user not found")
      | some user => return .found ⟨user.id, workspaceId, role⟩
  | .updateMemberRole userId role => do
      let role ← requireMemberRole role
      let membership ← targetMembership db workspaceId userId "cannot change owner role"
      return .ready (.updateMemberRole membership role)
  | .removeMember userId => do
      let membership ← targetMembership db workspaceId userId "cannot remove owner"
      return .ready (.removeMember membership)

/-- `existing` of `add_member`. -/
def checkExisting (db : Database) (membership : WorkspaceMembership) :
    Except Failure AccountPhase :=
  match membershipById db membership.userId membership.workspaceId with
  | some _ => .error (.http 409 "user is already a member")
  | none => .ok (.ready (.addMember membership))

/-! ## Writing -/

def newUser (env : AccountEnv) (body : UserCreate) : User where
  id := env.userId
  email := normalizeEmail rt body.email
  displayName := body.displayName
  passwordHash := env.passwordHash

def registeredWorkspace (env : AccountEnv) (body : UserCreate) : Workspace where
  id := env.workspaceId
  name := body.displayName ++ "'s Workspace"
  slug := slugify rt (body.displayName ++ "-" ++ env.userId.str)

def newWorkspace (env : AccountEnv) (user : UUID) (name : String) : Workspace where
  id := env.workspaceId
  name := name
  slug := slugify rt (name ++ "-" ++ user.str)

/-- The workspace and its owner, in one transaction. -/
def insertWorkspace (db : Database) (ws : Workspace) (user : UUID) : Database :=
  { db with
    workspaces := db.workspaces ++ [ws]
    memberships := db.memberships ++ [⟨user, ws.id, .owner⟩] }

/-- The cascades of `workspaces`: memberships, endpoints and their routes. -/
def dropWorkspace (db : Database) (id : UUID) : Database :=
  { db with
    workspaces := Rows.remove Workspace.id id db.workspaces
    memberships := db.memberships.filter (fun m => m.workspaceId ≠ id)
    endpoints := db.endpoints.filter (fun ep => ep.workspaceId ≠ id)
    routes := db.routes.filter (fun r =>
      ¬ ∃ ep ∈ db.endpoints, ep.id = r.endpointId ∧ ep.workspaceId = id) }

namespace AccountWrite

def apply (env : AccountEnv) (db : Database) : AccountWrite → Database
  | register body =>
      insertWorkspace { db with users := db.users ++ [newUser rt env body] }
        (registeredWorkspace rt env body) env.userId
  | createWorkspace user name => insertWorkspace db (newWorkspace rt env user name) user
  | deleteWorkspace id => dropWorkspace db id
  | addMember membership => { db with memberships := db.memberships ++ [membership] }
  | updateMemberRole membership role =>
      { db with
        memberships := Rows.put membershipKey { membership with role := role } db.memberships }
  | removeMember membership =>
      { db with memberships := Rows.remove membershipKey (membershipKey membership) db.memberships }

def checkUser (db : Database) (user : User) : Except Exc Unit :=
  if user.id ∈ db.users.map User.id then .error (integrityError "users_pkey")
  else if user.email ∈ db.users.map User.email then .error (integrityError "ix_users_email")
  else checkColumns (fitsVarchar 255 user.email && fitsVarchar 255 user.displayName &&
    fitsVarchar 255 user.passwordHash)

def checkWorkspace (db : Database) (ws : Workspace) : Except Exc Unit :=
  if ws.id ∈ db.workspaces.map Workspace.id then .error (integrityError "workspaces_pkey")
  else if ws.slug ∈ db.workspaces.map Workspace.slug then .error
    (integrityError "ix_workspaces_slug")
  else checkColumns (fitsVarchar 255 ws.name && fitsVarchar 255 ws.slug)

def checkMembership (db : Database) (membership : WorkspaceMembership) : Except Exc Unit :=
  if membershipKey membership ∈ db.memberships.map membershipKey then
    .error (integrityError "workspace_memberships_pkey")
  else if membership.userId ∉ db.users.map User.id then
    .error (integrityError "workspace_memberships_user_id_fkey")
  else if membership.workspaceId ∉ db.workspaces.map Workspace.id then
    .error (integrityError "workspace_memberships_workspace_id_fkey")
  else .ok ()

/-- What the tables say to a transaction. An `UPDATE` is sent only for a role
that changes, and `SQLAlchemy` minds when it meets no row; a `DELETE` may meet
none. Events stand in the way of the cascade to their endpoint. -/
def check (env : AccountEnv) (db : Database) : AccountWrite → Except Exc Unit
  | register body => do
      checkUser db (newUser rt env body)
      checkWorkspace db (registeredWorkspace rt env body)
  | createWorkspace user name => do
      checkWorkspace db (newWorkspace rt env user name)
      if user ∈ db.users.map User.id then .ok ()
      else .error (integrityError "workspace_memberships_user_id_fkey")
  | deleteWorkspace id => do
      env.loaded
      if ∃ ep ∈ db.endpoints, ep.workspaceId = id ∧ ep.id ∈ db.events.map Event.endpointId then
        .error (integrityError "events_endpoint_id_fkey")
      else .ok ()
  | addMember membership => checkMembership db membership
  | updateMemberRole membership role =>
      if membership.role ≠ role ∧ membershipKey membership ∉ db.memberships.map membershipKey then
        .error ⟨"StaleDataError", "UPDATE statement expected to update 1 row(s); 0 were matched."⟩
      else .ok ()
  | removeMember _ => .ok ()

/-- The user who comes to own a new workspace. -/
def creator (env : AccountEnv) : AccountWrite → Option UUID
  | register _ => some env.userId
  | createWorkspace user _ => some user
  | _ => none

/-- `status_code` of the answer. -/
def status : AccountWrite → ℕ
  | register _ | createWorkspace _ _ | addMember _ => 201
  | updateMemberRole _ _ => 200
  | deleteWorkspace _ | removeMember _ => 204

end AccountWrite

/-! ## Calls at work -/

structure AccountState where
  db : Database
  calls : ℕ → AccountPhase := fun _ => .absent
  created : List (UUID × UUID) := []

def AccountState.moveTo (s : AccountState) (i : ℕ) (phase : AccountPhase) : AccountState :=
  { s with calls := Function.update s.calls i phase }

inductive AccountLabel where
  | ask (i : ℕ) (call : AccountCall)
  | authorize (i : ℕ)
  | lookUp (i : ℕ)
  | checkExisting (i : ℕ)
  | commit (i : ℕ) (env : AccountEnv)
  /-- The call is refused by the limiter, or its process dies. -/
  | fail (i : ℕ) (failure : Failure)
  /-- What everybody else does to the rest of the tables. -/
  | elsewhere (endpoints : List Endpoint) (routes : List Route) (events : List Event)

def reached : Except Failure AccountPhase → AccountPhase
  | .ok phase => phase
  | .error failure => .ended (.error failure)

/-- A commit; `uuid4` never hands out a workspace's identifier again. -/
def commitWrite (s : AccountState) (i : ℕ) (env : AccountEnv) (write : AccountWrite) :
    Option AccountState :=
  if env.workspaceId ∈ s.created.map Prod.fst then none
  else
    match write.check rt env s.db >>= fun _ => env.commit with
    | .error exc => some (s.moveTo i (.ended (.error (.raised exc))))
    | .ok _ =>
        some { s.moveTo i (.ended (.ok write.status)) with
          db := write.apply rt env s.db
          created := s.created ++
            ((write.creator env).map (fun user => (env.workspaceId, user))).toList }

def accountNext (s : AccountState) : AccountLabel → Option AccountState
  | .ask i call =>
      match s.calls i with
      | .absent => some (s.moveTo i (.asked call))
      | _ => none
  | .authorize i =>
      match s.calls i with
      | .asked call => some (s.moveTo i (reached (authorize rt s.db call)))
      | _ => none
  | .lookUp i =>
      match s.calls i with
      | .authorized workspaceId call => some (s.moveTo i (reached (lookUp s.db workspaceId call)))
      | _ => none
  | .checkExisting i =>
      match s.calls i with
      | .found membership => some (s.moveTo i (reached (checkExisting s.db membership)))
      | _ => none
  | .commit i env =>
      match s.calls i with
      | .ready write => commitWrite rt s i env write
      | _ => none
  | .fail i failure => some (s.moveTo i (.ended (.error failure)))
  | .elsewhere endpoints routes events =>
      some { s with db := { s.db with endpoints := endpoints, routes := routes, events := events } }

/-- Before there is a workspace. -/
def accounts : Machine AccountState AccountLabel where
  init := fun s =>
    s.db.workspaces = [] ∧ s.db.memberships = [] ∧ s.created = [] ∧ s.calls = fun _ => .absent
  next := accountNext rt

end

/-! ## What each step does -/

section

variable {rt : AccountRuntime} {s t : AccountState} {i : ℕ}

theorem ask_cases {call : AccountCall} (h : accountNext rt s (.ask i call) = some t) :
    s.calls i = .absent ∧ t = s.moveTo i (.asked call) := by
  simp only [accountNext] at h
  split at h
  · rename_i habsent
    exact ⟨habsent, (Option.some.inj h).symm⟩
  · cases h

theorem authorize_cases (h : accountNext rt s (.authorize i) = some t) :
    ∃ call, s.calls i = .asked call ∧ t = s.moveTo i (reached (authorize rt s.db call)) := by
  simp only [accountNext] at h
  split at h
  · rename_i call hphase
    exact ⟨call, hphase, (Option.some.inj h).symm⟩
  · cases h

theorem lookUp_cases (h : accountNext rt s (.lookUp i) = some t) :
    ∃ workspaceId call, s.calls i = .authorized workspaceId call ∧
      t = s.moveTo i (reached (lookUp s.db workspaceId call)) := by
  simp only [accountNext] at h
  split at h
  · rename_i workspaceId call hphase
    exact ⟨workspaceId, call, hphase, (Option.some.inj h).symm⟩
  · cases h

theorem checkExisting_cases (h : accountNext rt s (.checkExisting i) = some t) :
    ∃ membership, s.calls i = .found membership ∧
      t = s.moveTo i (reached (checkExisting s.db membership)) := by
  simp only [accountNext] at h
  split at h
  · rename_i membership hphase
    exact ⟨membership, hphase, (Option.some.inj h).symm⟩
  · cases h

/-- A commit leaves the tables alone, or applies the write they allow. -/
theorem commitWrite_cases {env : AccountEnv} (h : accountNext rt s (.commit i env) = some t) :
    ∃ write, s.calls i = .ready write ∧ env.workspaceId ∉ s.created.map Prod.fst ∧
      ((∃ exc, t = s.moveTo i (.ended (.error (.raised exc)))) ∨
        (write.check rt env s.db = .ok () ∧
          t = { s.moveTo i (.ended (.ok write.status)) with
            db := write.apply rt env s.db
            created := s.created ++
              ((write.creator env).map (fun user => (env.workspaceId, user))).toList })) := by
  simp only [accountNext] at h
  split at h
  · rename_i write hphase
    unfold commitWrite at h
    split at h
    · cases h
    · rename_i hfresh
      refine ⟨write, hphase, hfresh, ?_⟩
      split at h
      · rename_i exc _
        exact Or.inl ⟨exc, (Option.some.inj h).symm⟩
      · rename_i hok
        obtain ⟨_, hcheck, _⟩ := exists_of_bind_eq_ok hok
        exact Or.inr ⟨hcheck, (Option.some.inj h).symm⟩
  · cases h

end

end WebhookRelay.Api
