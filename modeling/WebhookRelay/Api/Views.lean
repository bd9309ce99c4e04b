import WebhookRelay.Api.ForeignKeys
import WebhookRelay.Foundation.Fallible

/-!
# What a user sees of workspaces

The reading handlers of `app/api/workspaces.py` and `update_workspace`. A user
can learn of a membership in four ways: from the list of their workspaces, from
the workspace, from the list of its members, and from what the API lets them
do. `roles_agree` is that they learn the same.
-/

namespace WebhookRelay.Api

open Foundation

structure WorkspaceOut where
  id : UUID
  name : String
  slug : String
  createdAt : Time
  role : Option Role

structure WorkspaceMembershipOut where
  userId : UUID
  workspaceId : UUID
  role : Role
  joinedAt : Time
  email : Option String
  displayName : Option String

/-- The columns that the tables leave out, the order among rows that sort
alike, whether the relationship `workspace` of a row from a closed session
loads, and how a commit ends. -/
structure ViewEnv where
  createdAt : UUID → Time := fun _ => 0
  joinedAt : UUID × UUID → Time := fun _ => 0
  tie : UUID → ℕ := fun _ => 0
  loaded : Except Exc Unit := .ok ()
  commit : Except Exc Unit := .ok ()

section Handlers

variable (env : ViewEnv) (db : Database)

def workspaceOut (ws : Workspace) (role : Role) : WorkspaceOut where
  id := ws.id
  name := ws.name
  slug := ws.slug
  createdAt := env.createdAt ws.id
  role := some role

/-- The join of `list_workspaces`. -/
def workspaceRows (user : UUID) : List (Workspace × Role) :=
  db.workspaces.flatMap (fun ws =>
    (db.memberships.filter (fun m => m.workspaceId = ws.id ∧ m.userId = user)).map
      (fun m => (ws, m.role)))

def listWorkspaces (caller : Except Failure UUID) : Except Failure (List WorkspaceOut) := do
  let user ← caller
  let rows := orderBy (rankBy (fun row : Workspace × Role => -env.createdAt row.1.id) env.tie
    (fun row => row.1.id)) (workspaceRows db user)
  return rows.map (fun row => workspaceOut env row.1 row.2)

/-- `membership.workspace`. -/
def loadWorkspace (m : WorkspaceMembership) : Except Failure Workspace :=
  match env.loaded with
  | .error exc => .error (.raised exc)
  | .ok _ =>
      match Rows.get Workspace.id db.workspaces m.workspaceId with
      | some ws => .ok ws
      | none => .error (.raised ⟨"AttributeError", "'NoneType' object has no attribute 'id'"⟩)

def getWorkspace (caller : Except Failure UUID) (workspaceId : String) :
    Except Failure WorkspaceOut := do
  let m ← getWorkspaceMembership db caller workspaceId
  let m ← requireWorkspaceRole .viewer m
  let ws ← loadWorkspace env db m
  return workspaceOut env ws m.role

/-- The answer and the row that is written; `name` is the one of the body. -/
def updateWorkspace (caller : Except Failure UUID) (workspaceId : String) (name : Option String) :
    Except Failure (WorkspaceOut × Workspace) := do
  let m ← getWorkspaceMembership db caller workspaceId
  let m ← requireWorkspaceRole .admin m
  let old ← loadWorkspace env db m
  let ws := { old with name := name.getD old.name }
  match checkColumns (fitsVarchar 255 ws.name) >>= fun _ => env.commit with
  | .error exc => .error (.raised exc)
  | .ok _ => return (workspaceOut env ws m.role, ws)

/-- The tables after `update_workspace`. -/
def renamed (result : Except Failure (WorkspaceOut × Workspace)) : Database :=
  match result with
  | .ok (_, ws) => { db with workspaces := Rows.put Workspace.id ws db.workspaces }
  | .error _ => db

/-- The join of `list_members`. -/
def memberRows (ws : UUID) : List (WorkspaceMembership × User) :=
  (db.memberships.filter (fun m => m.workspaceId = ws)).flatMap (fun m =>
    (db.users.filter (fun user => user.id = m.userId)).map (fun user => (m, user)))

def membershipOut (row : WorkspaceMembership × User) : WorkspaceMembershipOut where
  userId := row.1.userId
  workspaceId := row.1.workspaceId
  role := row.1.role
  joinedAt := env.joinedAt (membershipKey row.1)
  email := some row.2.email
  displayName := some row.2.displayName

/-- Without an `ORDER BY`. -/
def listMembers (caller : Except Failure UUID) (workspaceId : String) :
    Except Failure (List WorkspaceMembershipOut) := do
  let m ← getWorkspaceMembership db caller workspaceId
  let m ← requireWorkspaceRole .viewer m
  let rows := orderBy (rankBy (fun _ => (0 : ℕ)) env.tie
    (fun row : WorkspaceMembership × User => row.1.userId)) (memberRows db m.workspaceId)
  return rows.map (membershipOut env)

end Handlers

/-! ## One role, four views -/

section

variable {env : ViewEnv} {db : Database} {user : UUID} {ws : Workspace} {role : Role}

theorem mem_workspaceRows_iff : (ws, role) ∈ workspaceRows db user ↔
    ws ∈ db.workspaces ∧ ⟨user, ws.id, role⟩ ∈ db.memberships := by
  simp only [workspaceRows, List.mem_flatMap, List.mem_map, List.mem_filter, decide_eq_true_eq,
    Prod.mk.injEq]
  constructor
  · rintro ⟨ws', hws, ⟨muser, mws, mrole⟩, ⟨hm, hmws, hmuser⟩, rfl, rfl⟩
    dsimp only at hmws hmuser
    subst hmws hmuser
    exact ⟨hws, hm⟩
  · rintro ⟨hws, hm⟩
    exact ⟨ws, hws, ⟨user, ws.id, role⟩, ⟨hm, rfl, rfl⟩, rfl, rfl⟩

theorem mem_memberRows_iff {m : WorkspaceMembership} {u : User} {id : UUID} :
    (m, u) ∈ memberRows db id ↔
      m ∈ db.memberships ∧ m.workspaceId = id ∧ u ∈ db.users ∧ u.id = m.userId := by
  simp only [memberRows, List.mem_flatMap, List.mem_map, List.mem_filter, decide_eq_true_eq,
    Prod.mk.injEq]
  constructor
  · rintro ⟨m', ⟨hm, hws⟩, u', ⟨hu, hid⟩, rfl, rfl⟩
    exact ⟨hm, hws, hu, hid⟩
  · rintro ⟨hm, hws, hu, hid⟩
    exact ⟨m, ⟨hm, hws⟩, u, ⟨hu, hid⟩, rfl, rfl⟩

variable {text : String} {id : UUID} {m : WorkspaceMembership}

theorem getWorkspaceMembership_eq_ok_iff (hkeys : (db.memberships.map membershipKey).Nodup)
    (hparse : UUID.parse text = some id) : getWorkspaceMembership db (.ok user) text = .ok m ↔
      m ∈ db.memberships ∧ m.userId = user ∧ m.workspaceId = id := by
  have hget : membershipById db user id = some m ↔
      m ∈ db.memberships ∧ m.userId = user ∧ m.workspaceId = id := by
    show Rows.get membershipKey db.memberships (user, id) = some m ↔ _
    rw [Rows.get_eq_some_iff hkeys]
    exact and_congr_right (fun _ => Prod.mk.injEq .. ▸ Iff.rfl)
  rw [← hget]
  unfold getWorkspaceMembership
  rw [Fallible.ok_bind, hparse]
  cases hfound : membershipById db user id with
  | none => simp only [hfound, reduceCtorEq]
  | some found => simp only [hfound, Except.ok.injEq, Option.some.injEq]

/-- Every member is a viewer. -/
theorem requireWorkspaceRole_viewer (m : WorkspaceMembership) :
    requireWorkspaceRole .viewer m = .ok m :=
  if_neg (Nat.not_lt_zero _)

theorem exists_listed_iff (hkeys : AccountKeys db) :
    (∃ outs, listWorkspaces env db (.ok user) = .ok outs ∧
      ∃ out ∈ outs, out.id = id ∧ out.role = some role) ↔ ⟨user, id, role⟩ ∈ db.memberships := by
  constructor
  · rintro ⟨outs, hlist, out, hout, rfl, hrole⟩
    obtain rfl := Except.ok.inj hlist
    obtain ⟨⟨ws, role'⟩, hrow, rfl⟩ := List.mem_map.mp hout
    obtain rfl := Option.some.inj hrole
    exact (mem_workspaceRows_iff.mp (mem_orderBy.mp hrow)).2
  · intro hm
    obtain ⟨ws, hws, hid⟩ := List.mem_map.mp (hkeys.membership_workspace _ hm)
    obtain rfl : ws.id = id := hid
    exact ⟨_, rfl, _, List.mem_map_of_mem (mem_orderBy.mpr (mem_workspaceRows_iff.mpr ⟨hws, hm⟩)),
      rfl, rfl⟩

/-- Whether the relationship loads or not, only strangers get a 403. -/
theorem getWorkspace_refused_iff (hdb : Consistent db) (hparse : UUID.parse text = some id) :
    getWorkspace env db (.ok user) text = .error (.http 403 "not a member of this workspace") ↔
      ∀ role, ⟨user, id, role⟩ ∉ db.memberships := by
  have hfind : ∀ m, getWorkspaceMembership db (.ok user) text = .ok m ↔
      m ∈ db.memberships ∧ m.userId = user ∧ m.workspaceId = id :=
    fun m => getWorkspaceMembership_eq_ok_iff hdb.memberships_nodup hparse
  constructor
  · intro hrefused role hm
    unfold getWorkspace at hrefused
    rw [(hfind _).mpr ⟨hm, rfl, rfl⟩, Fallible.ok_bind, requireWorkspaceRole_viewer,
      Fallible.ok_bind] at hrefused
    unfold loadWorkspace at hrefused
    split at hrefused
    · cases hrefused
    · split at hrefused <;> cases hrefused
  · intro hnone
    have hmissing : membershipById db user id = none := by
      apply Option.eq_none_iff_forall_not_mem.mpr
      intro m hm
      obtain ⟨hmem, hkey⟩ := Rows.mem_of_get hm
      obtain ⟨rfl, rfl⟩ := Prod.mk.inj hkey
      exact hnone m.role hmem
    unfold getWorkspace getWorkspaceMembership
    rw [Fallible.ok_bind, hparse]
    simp only [hmissing]
    rfl

theorem exists_member_iff (hdb : Consistent db) (hkeys : AccountKeys db)
    (hparse : UUID.parse text = some id) :
    (∃ outs, listMembers env db (.ok user) text = .ok outs ∧
      ∃ out ∈ outs, out.userId = user ∧ out.role = role) ↔
      ⟨user, id, role⟩ ∈ db.memberships := by
  have hfind : ∀ m, getWorkspaceMembership db (.ok user) text = .ok m ↔
      m ∈ db.memberships ∧ m.userId = user ∧ m.workspaceId = id :=
    fun m => getWorkspaceMembership_eq_ok_iff hdb.memberships_nodup hparse
  constructor
  · rintro ⟨outs, hlist, out, hout, huser, rfl⟩
    obtain ⟨m, hm, hlist⟩ := exists_of_bind_eq_ok hlist
    rw [requireWorkspaceRole_viewer, Fallible.ok_bind] at hlist
    obtain rfl := Except.ok.inj hlist
    obtain ⟨⟨row, u⟩, hrow, rfl⟩ := List.mem_map.mp hout
    obtain ⟨hmem, hws, _⟩ := mem_memberRows_iff.mp (mem_orderBy.mp hrow)
    obtain ⟨_, _, rfl⟩ := (hfind m).mp hm
    have hsame : (⟨user, m.workspaceId, row.role⟩ : WorkspaceMembership) = row := by
      rw [← hws, ← huser]
      rfl
    exact hsame ▸ hmem
  · intro hm
    obtain ⟨u, hu, hid⟩ := List.mem_map.mp (hkeys.membership_user _ hm)
    have hrow := mem_memberRows_iff.mpr ⟨hm, rfl, hu, hid⟩
    unfold listMembers
    rw [(hfind _).mpr ⟨hm, rfl, rfl⟩, Fallible.ok_bind, requireWorkspaceRole_viewer,
      Fallible.ok_bind]
    exact ⟨_, rfl, _, List.mem_map_of_mem (mem_orderBy.mpr hrow), rfl, rfl⟩

end

end WebhookRelay.Api
