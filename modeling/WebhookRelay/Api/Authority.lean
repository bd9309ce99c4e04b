import WebhookRelay.Api.RouteFields
import WebhookRelay.Api.Views

/-!
# Who can change what

The REST API as a whole: calls on accounts and workspaces step by step, requests
to the routers of a workspace, renamings, and the events and attempts that
come in beside them. What belongs to a workspace is changed only by calls under
it of users who had the role for it: as long as none of them makes one, it
stays, whoever else does what in which order. Roles are given by admins, so a
user without one cannot come by it on a detour either.
-/

namespace WebhookRelay.Api

open Foundation

inductive RestLabel where
  | account (label : AccountLabel)
  | request (env : Env) (request : Request)
  | rename (env : ViewEnv) (caller : Except Failure UUID) (workspaceId : String)
      (name : Option String)
  /-- An event the gateway has taken. -/
  | ingest (event : Event)
  /-- An event whose status changes. -/
  | mark (event : Event)
  | attempt (row : DeliveryAttempt)

section

variable (rt : AccountRuntime) (settings : Settings)

def AccountState.store (s : AccountState) (db : Database) : AccountState := { s with db := db }

def restNext (s : AccountState) : RestLabel → Option AccountState
  | .account (.elsewhere _ _ _) => none
  | .account label => accountNext rt s label
  | .request env request => some (s.store ((handle env settings request s.db).store s.db))
  | .rename env caller workspaceId name =>
      some (s.store (renamed s.db (updateWorkspace env s.db caller workspaceId name)))
  | .ingest event =>
      if event.id ∉ s.db.events.map Event.id ∧ event.endpointId ∈ s.db.endpoints.map Endpoint.id then
        some (s.store { s.db with events := s.db.events ++ [event] })
      else none
  | .mark event =>
      if ∃ e ∈ s.db.events, eventLink e = eventLink event then
        some (s.store { s.db with events := Rows.put Event.id event s.db.events })
      else none
  | .attempt row =>
      if row.id ∉ s.db.attempts.map DeliveryAttempt.id ∧
          ∃ e ∈ s.db.events, ∃ r ∈ s.db.routes,
            e.id = row.eventId ∧ r.id = row.routeId ∧ e.endpointId = r.endpointId then
        some (s.store { s.db with attempts := s.db.attempts ++ [row] })
      else none

/-- From empty tables. -/
def rest : Machine AccountState RestLabel where
  init := fun s => s = { db := {} }
  next := restNext rt settings

end

/-! ## The tables, at any time -/

structure RestInv (s : AccountState) : Prop where
  accounts : AccountInv s
  consistent : Consistent s.db
  keys : AccountKeys s.db

section

variable {rt : AccountRuntime} {settings : Settings} {s t : AccountState}

/-- A step of an account is one of the machine of accounts alone, and no
`elsewhere`. -/
theorem restNext_account {label : AccountLabel}
    (h : restNext rt settings s (.account label) = some t) :
    accountNext rt s label = some t ∧ ∀ endpoints routes events,
      label ≠ .elsewhere endpoints routes events := by
  cases label with
  | elsewhere endpoints routes events => cases h
  | ask | authorize | lookUp | checkExisting | commit | fail =>
      refine ⟨h, ?_⟩
      intro _ _ _ heq
      cases heq

/-- What a step of an account does to the tables. -/
theorem account_db {label : AccountLabel} (h : accountNext rt s label = some t)
    (helse : ∀ endpoints routes events, label ≠ .elsewhere endpoints routes events) :
    t.db = s.db ∨ ∃ i env write, label = .commit i env ∧ s.calls i = .ready write ∧
      env.workspaceId ∉ s.created.map Prod.fst ∧ write.check rt env s.db = .ok () ∧
      t.db = write.apply rt env s.db := by
  match label with
  | .ask i call =>
      obtain ⟨_, rfl⟩ := ask_cases h
      exact Or.inl rfl
  | .authorize i =>
      obtain ⟨call, _, rfl⟩ := authorize_cases h
      exact Or.inl rfl
  | .lookUp i =>
      obtain ⟨ws, call, _, rfl⟩ := lookUp_cases h
      exact Or.inl rfl
  | .checkExisting i =>
      obtain ⟨m, _, rfl⟩ := checkExisting_cases h
      exact Or.inl rfl
  | .commit i env =>
      obtain ⟨write, hphase, hfresh, ⟨exc, rfl⟩ | ⟨hcheck, rfl⟩⟩ := commitWrite_cases h
      · exact Or.inl rfl
      · exact Or.inr ⟨i, env, write, rfl, hphase, hfresh, hcheck, rfl⟩
  | .fail i failure =>
      obtain rfl := Option.some.inj h
      exact Or.inl rfl
  | .elsewhere endpoints routes events => exact absurd rfl (helse endpoints routes events)

theorem workspaces_of_handle (settings : Settings) (env : Env) (request : Request) (db : Database) :
    ((handle env settings request db).store db).workspaces = db.workspaces ∧
      ((handle env settings request db).store db).memberships = db.memberships := by
  unfold Outcome.store
  cases (handle env settings request db).write with
  | none => exact ⟨rfl, rfl⟩
  | some w => cases w <;> exact ⟨rfl, rfl⟩

/-- A renamed workspace keeps its key. -/
theorem renamed_cases (env : ViewEnv) (db : Database) (caller : Except Failure UUID)
    (workspaceId : String) (name : Option String) :
    renamed db (updateWorkspace env db caller workspaceId name) = db ∨
      ∃ m ws, getWorkspaceMembership db caller workspaceId = .ok m ∧
        requireWorkspaceRole .admin m = .ok m ∧ ws.id = m.workspaceId ∧
        renamed db (updateWorkspace env db caller workspaceId name) =
          { db with workspaces := Rows.put Workspace.id ws db.workspaces } := by
  cases hresult : updateWorkspace env db caller workspaceId name with
  | error failure => exact Or.inl rfl
  | ok result =>
      right
      obtain ⟨m, hm, hchecked⟩ := exists_of_bind_eq_ok hresult
      obtain ⟨m', hrole, hloaded⟩ := exists_of_bind_eq_ok hchecked
      obtain rfl := requireWorkspaceRole_eq_ok hrole
      obtain ⟨old, hold, hwritten⟩ := exists_of_bind_eq_ok hloaded
      have hid : old.id = m'.workspaceId := by
        unfold loadWorkspace at hold
        split at hold
        · cases hold
        · split at hold
          · rename_i ws hget
            obtain rfl := Except.ok.inj hold
            exact (Rows.mem_of_get hget).2
          · cases hold
      dsimp only at hwritten
      split at hwritten
      · cases hwritten
      · obtain rfl := Except.ok.inj hwritten
        exact ⟨m', { old with name := name.getD old.name }, hm, hrole, hid, rfl⟩

/-- Only the identifiers of the workspaces matter. -/
theorem CreatorsOwn.congr_ids {db db' : Database} {created : List (UUID × UUID)}
    (h : CreatorsOwn db created)
    (hids : db'.workspaces.map Workspace.id = db.workspaces.map Workspace.id)
    (hmemberships : db'.memberships = db.memberships) : CreatorsOwn db' created where
  created_nodup := h.created_nodup
  keys_nodup := hmemberships ▸ h.keys_nodup
  workspace_created := by
    intro ws hws
    obtain ⟨old, hold, hid⟩ := List.mem_map.mp (hids ▸ List.mem_map_of_mem hws)
    exact hid ▸ h.workspace_created old hold
  workspace_exists := by
    rw [hids, hmemberships]
    exact h.workspace_exists
  owner_created := by
    rw [hmemberships]
    exact h.owner_created
  owner_present := by
    intro ws hws user huser
    obtain ⟨old, hold, hid⟩ := List.mem_map.mp (hids ▸ List.mem_map_of_mem hws)
    rw [hmemberships, ← hid]
    exact h.owner_present old hold user (hid.symm ▸ huser)

theorem restInv_account {label : AccountLabel} (h : RestInv s)
    (hstep : restNext rt settings s (.account label) = some t) : RestInv t := by
  obtain ⟨hstep, helse⟩ := restNext_account hstep
  have haccounts : AccountInv t := accountInv_step h.accounts hstep
  rcases account_db hstep helse with hdb | ⟨i, env, write, _, _, _, hcheck, hdb⟩
  · exact ⟨haccounts, hdb ▸ h.consistent, hdb ▸ h.keys⟩
  · obtain ⟨hconsistent, hkeys⟩ := consistent_account h.consistent h.keys hcheck
    exact ⟨haccounts, hdb ▸ hconsistent, hdb ▸ hkeys⟩

/-- Events and attempts come and change, their links do not. -/
theorem RestInv.store_of (h : RestInv s) {db : Database} (hdb : Consistent db)
    (hmemberships : db.memberships = s.db.memberships) (husers : db.users = s.db.users)
    (hworkspaces : db.workspaces.map Workspace.id = s.db.workspaces.map Workspace.id)
    (hendpoints : db.endpoints = s.db.endpoints) : RestInv (s.store db) := by
  refine ⟨⟨h.accounts.owned.congr_ids hworkspaces hmemberships, h.accounts.phases⟩, hdb, ?_⟩
  constructor
  · show ∀ m ∈ db.memberships, m.userId ∈ db.users.map User.id
    rw [hmemberships, husers]
    exact h.keys.membership_user
  · show ∀ m ∈ db.memberships, m.workspaceId ∈ db.workspaces.map Workspace.id
    rw [hmemberships, hworkspaces]
    exact h.keys.membership_workspace
  · show ∀ ep ∈ db.endpoints, ep.workspaceId ∈ db.workspaces.map Workspace.id
    rw [hendpoints, hworkspaces]
    exact h.keys.endpoint_workspace

theorem restInv_step {a : RestLabel} (h : RestInv s) (hstep : restNext rt settings s a = some t) :
    RestInv t := by
  match a with
  | .account label => exact restInv_account h hstep
  | .request env request =>
      obtain rfl := Option.some.inj hstep
      obtain ⟨hconsistent, hkeys⟩ := consistent_handle env settings h.consistent h.keys request
      obtain ⟨hworkspaces, hmemberships⟩ := workspaces_of_handle settings env request s.db
      exact ⟨⟨h.accounts.owned.congr hworkspaces hmemberships, h.accounts.phases⟩, hconsistent, hkeys⟩
  | .rename env caller workspaceId name =>
      obtain rfl := Option.some.inj hstep
      rcases renamed_cases env s.db caller workspaceId name with hsame | ⟨m, ws, _, _, _, hput⟩
      · rw [hsame]
        exact h
      · rw [hput]
        refine RestInv.store_of h (h.consistent.congr ?_ ?_ ?_ ?_ ?_) ?_ ?_ Rows.map_key_put ?_
        case refine_5 => exact h.consistent.memberships_nodup
        all_goals exact rfl
  | .ingest event =>
      simp only [restNext, Option.ite_none_right_eq_some, Option.some.injEq] at hstep
      obtain ⟨⟨hfresh, hendpoint⟩, rfl⟩ := hstep
      refine h.store_of { h.consistent with
        events_nodup := Rows.nodup_snoc h.consistent.events_nodup hfresh
        event_endpoint := ?_
        attempt_event := ?_ } rfl rfl rfl rfl
      · intro e he
        rcases List.mem_append.mp he with hold | hnew
        · exact h.consistent.event_endpoint e hold
        · rw [List.mem_singleton.mp hnew]
          exact hendpoint
      · intro a ha
        obtain ⟨e, he, hrest⟩ := h.consistent.attempt_event a ha
        exact ⟨e, List.mem_append_left _ he, hrest⟩
  | .mark event =>
      simp only [restNext, Option.ite_none_right_eq_some, Option.some.injEq] at hstep
      obtain ⟨⟨old, hold, heq⟩, rfl⟩ := hstep
      have hid : old.id = event.id := congrArg Prod.fst heq
      have same : SameLinks s.db { s.db with events := Rows.put Event.id event s.db.events } :=
        ⟨rfl, rfl, Rows.map_put_of_eq h.consistent.events_nodup hold hid heq.symm, rfl⟩
      exact h.store_of (same.consistent h.consistent h.consistent.memberships_nodup) rfl rfl rfl rfl
  | .attempt row =>
      simp only [restNext, Option.ite_none_right_eq_some, Option.some.injEq] at hstep
      obtain ⟨⟨hfresh, hpair⟩, rfl⟩ := hstep
      refine h.store_of { h.consistent with
        attempts_nodup := Rows.nodup_snoc h.consistent.attempts_nodup hfresh
        attempt_event := ?_ } rfl rfl rfl rfl
      intro a ha
      rcases List.mem_append.mp ha with hold | hnew
      · exact h.consistent.attempt_event a hold
      · rw [List.mem_singleton.mp hnew]
        exact hpair

theorem restInv_of_reachable (h : (rest rt settings).Reachable s) : RestInv s := by
  refine h.invariant ?_ ?_
  · rintro s rfl
    refine ⟨⟨?_, fun _ => trivial⟩, ?_, ?_⟩ <;> constructor <;> simp
  · intro s a t hinv hstep
    exact restInv_step hinv hstep

/-- Every way to learn of a role tells the same, at any time. -/
theorem roles_agree (h : (rest rt settings).Reachable s) (env : ViewEnv) (user id : UUID)
    (role : Role) {text : String} (hparse : UUID.parse text = some id) :
    [⟨user, id, role⟩ ∈ s.db.memberships,
      ∃ m, getWorkspaceMembership s.db (.ok user) text = .ok m ∧ m.role = role,
      ∃ outs, listWorkspaces env s.db (.ok user) = .ok outs ∧
        ∃ out ∈ outs, out.id = id ∧ out.role = some role,
      ∃ outs, listMembers env s.db (.ok user) text = .ok outs ∧
        ∃ out ∈ outs, out.userId = user ∧ out.role = role].TFAE ∧
    (getWorkspace env s.db (.ok user) text = .error (.http 403 "not a member of this workspace") ↔
      ∀ role, ⟨user, id, role⟩ ∉ s.db.memberships) := by
  have hinv := restInv_of_reachable h
  refine ⟨?_, getWorkspace_refused_iff hinv.consistent hparse⟩
  tfae_have 1 ↔ 2 := by
    simp only [getWorkspaceMembership_eq_ok_iff hinv.consistent.memberships_nodup hparse]
    constructor
    · intro hm
      exact ⟨_, ⟨hm, rfl, rfl⟩, rfl⟩
    · rintro ⟨m, ⟨hm, rfl, rfl⟩, rfl⟩
      exact hm
  tfae_have 3 ↔ 1 := exists_listed_iff hinv.keys
  tfae_have 4 ↔ 1 := exists_member_iff hinv.consistent hinv.keys hparse
  tfae_finish

end

/-! ## Calls under a workspace -/

/-- `list_members`, as rows. -/
def membersOf (db : Database) (ws : UUID) : List WorkspaceMembership :=
  db.memberships.filter (fun m => m.workspaceId = ws)

def workspaceById (db : Database) (ws : UUID) : Option Workspace :=
  Rows.get Workspace.id db.workspaces ws

/-- The users with at least this role. -/
def HoldsRole (db : Database) (ws : UUID) (role : Role) (user : UUID) : Prop :=
  ∃ m ∈ db.memberships, m.userId = user ∧ m.workspaceId = ws ∧ roleLevel role ≤ roleLevel m.role

/-- Who calls, and the workspace of the path. -/
def underPath (caller : Except Failure UUID) (workspaceId : String) : Option (UUID × UUID) :=
  match caller, UUID.parse workspaceId with
  | .ok user, some ws => some (user, ws)
  | _, _ => none

def AccountCall.under : AccountCall → Option (UUID × UUID)
  | .register _ | .createWorkspace _ _ => none
  | .deleteWorkspace caller workspaceId | .member caller workspaceId _ =>
      underPath caller workspaceId

def RestLabel.under : RestLabel → Option (UUID × UUID)
  | .account (.ask _ call) => call.under
  | .request _ ⟨caller, workspaceId, _⟩ | .rename _ caller workspaceId _ =>
      underPath caller workspaceId
  | _ => none

/-- Not a call under `ws` of one of the users `P`. -/
def Spares (P : UUID → Prop) (ws : UUID) (under : Option (UUID × UUID)) : Prop :=
  ∀ user, under = some (user, ws) → ¬ P user

/-- The workspace whose rows the write is about. -/
def AccountWrite.target : AccountWrite → Option UUID
  | .register _ | .createWorkspace _ _ => none
  | .deleteWorkspace id => some id
  | .addMember m | .updateMemberRole m _ | .removeMember m => some m.workspaceId

/-- A call under way that does not have what it needs to write on `ws`. -/
def PhaseSpares (P : UUID → Prop) (ws : UUID) : AccountPhase → Prop
  | .asked call => Spares P ws call.under
  | .authorized id _ => id ≠ ws
  | .found m => m.workspaceId ≠ ws
  | .ready write => write.target ≠ some ws
  | .absent | .ended _ => True

section

variable {db : Database} {ws : UUID} {P : UUID → Prop} {m : WorkspaceMembership}

/-- What a caller has been let through with. -/
theorem underPath_of_membership {caller : Except Failure UUID} {workspaceId : String}
    (h : getWorkspaceMembership db caller workspaceId = .ok m) :
    m ∈ db.memberships ∧ underPath caller workspaceId = some (m.userId, m.workspaceId) := by
  refine ⟨membership_mem h, ?_⟩
  obtain ⟨user, rfl, hfound⟩ := exists_of_bind_eq_ok h
  split at hfound
  · cases hfound
  · rename_i id hparse
    split at hfound
    · cases hfound
    · rename_i found hget
      obtain rfl := Except.ok.inj hfound
      obtain ⟨rfl, rfl⟩ := Prod.mk.inj (Rows.mem_of_get hget).2
      unfold underPath
      rw [hparse]

theorem level_of_requireWorkspaceRole {role : Role} (h : requireWorkspaceRole role m = .ok m) :
    roleLevel role ≤ roleLevel m.role := by
  unfold requireWorkspaceRole at h
  split at h
  · cases h
  · exact Nat.le_of_not_lt ‹_›

/-- A caller with the role is one of `P`, so the path names another workspace. -/
theorem workspaceId_ne_of_spares {caller : Except Failure UUID} {workspaceId : String} {role : Role}
    (hP : ∀ user, HoldsRole db ws role user → P user)
    (hspares : Spares P ws (underPath caller workspaceId))
    (hm : getWorkspaceMembership db caller workspaceId = .ok m)
    (hrole : requireWorkspaceRole role m = .ok m) : m.workspaceId ≠ ws := by
  obtain ⟨hmem, hunder⟩ := underPath_of_membership hm
  rintro rfl
  have hlevel := level_of_requireWorkspaceRole hrole
  exact hspares m.userId hunder (hP m.userId ⟨m, hmem, rfl, rfl, hlevel⟩)

variable {rt : AccountRuntime}

/-- Reading the role of a caller who has none for `ws`. -/
theorem phaseSpares_authorize (hP : ∀ user, HoldsRole db ws .admin user → P user)
    {call : AccountCall} (hspares : Spares P ws call.under) :
    PhaseSpares P ws (reached (authorize rt db call)) := by
  match hread : authorize rt db call with
  | .error _ => trivial
  | .ok phase =>
      show PhaseSpares P ws phase
      match call with
      | .register body =>
          rw [authorize] at hread
          split at hread
          · cases hread
          · split at hread
            · cases hread
            · obtain rfl := Except.ok.inj hread
              exact Option.some_ne_none ws ∘ Eq.symm
      | .createWorkspace caller name =>
          obtain ⟨user, _, hread⟩ := exists_of_bind_eq_ok hread
          obtain rfl := Except.ok.inj hread
          exact Option.some_ne_none ws ∘ Eq.symm
      | .deleteWorkspace caller workspaceId =>
          obtain ⟨m, hm, hchecked⟩ := exists_of_bind_eq_ok hread
          obtain ⟨m', hrole, hended⟩ := exists_of_bind_eq_ok hchecked
          obtain rfl := requireWorkspaceRole_eq_ok hrole
          obtain rfl := Except.ok.inj hended
          have howner : ∀ user, HoldsRole db ws .owner user → P user := by
            rintro user ⟨m, hm, huser, hws, hlevel⟩
            exact hP user ⟨m, hm, huser, hws, le_trans (by decide) hlevel⟩
          have hne := workspaceId_ne_of_spares howner hspares hm hrole
          exact fun heq => hne (Option.some.inj heq)
      | .member caller workspaceId call =>
          obtain ⟨m, hm, hchecked⟩ := exists_of_bind_eq_ok hread
          obtain ⟨m', hrole, hended⟩ := exists_of_bind_eq_ok hchecked
          obtain rfl := requireWorkspaceRole_eq_ok hrole
          obtain rfl := Except.ok.inj hended
          exact workspaceId_ne_of_spares hP hspares hm hrole

theorem workspaceId_of_targetMembership {id : UUID} {userId detail : String}
    (h : targetMembership db id userId detail = .ok m) : m.workspaceId = id := by
  obtain ⟨target, _, h⟩ := exists_of_bind_eq_ok h
  split at h
  · cases h
  · rename_i row hget
    split at h
    · cases h
    · obtain rfl := Except.ok.inj h
      exact congrArg Prod.snd (Rows.mem_of_get hget).2

theorem phaseSpares_lookUp {id : UUID} (hne : id ≠ ws) (call : MemberCall) :
    PhaseSpares P ws (reached (lookUp db id call)) := by
  match hread : lookUp db id call with
  | .error _ => trivial
  | .ok phase =>
      show PhaseSpares P ws phase
      match call with
      | .addMember email role =>
          obtain ⟨role, _, hread⟩ := exists_of_bind_eq_ok hread
          split at hread
          · cases hread
          · obtain rfl := Except.ok.inj hread
            exact hne
      | .updateMemberRole userId role =>
          obtain ⟨role, _, hread⟩ := exists_of_bind_eq_ok hread
          obtain ⟨m, hm, hread⟩ := exists_of_bind_eq_ok hread
          obtain rfl := Except.ok.inj hread
          have hws := workspaceId_of_targetMembership hm
          exact fun heq => hne (hws ▸ Option.some.inj heq)
      | .removeMember userId =>
          obtain ⟨m, hm, hread⟩ := exists_of_bind_eq_ok hread
          obtain rfl := Except.ok.inj hread
          have hws := workspaceId_of_targetMembership hm
          exact fun heq => hne (hws ▸ Option.some.inj heq)

theorem phaseSpares_checkExisting (hne : m.workspaceId ≠ ws) :
    PhaseSpares P ws (reached (checkExisting db m)) := by
  unfold checkExisting
  split
  · trivial
  · exact fun heq => hne (Option.some.inj heq)

/-! ## Members stay -/

theorem insertWorkspace_other {new : Workspace} (hne : new.id ≠ ws) (user : UUID) :
    membersOf (insertWorkspace db new user) ws = membersOf db ws ∧
      workspaceById (insertWorkspace db new user) ws = workspaceById db ws := by
  constructor
  · unfold membersOf insertWorkspace
    simp [hne]
  · exact Rows.get_append_of_ne hne

theorem dropWorkspace_other {id : UUID} (hne : id ≠ ws) :
    membersOf (dropWorkspace db id) ws = membersOf db ws ∧
      workspaceById (dropWorkspace db id) ws = workspaceById db ws := by
  constructor
  · unfold membersOf dropWorkspace
    rw [List.filter_filter]
    apply List.filter_congr
    intro m _
    by_cases hws : m.workspaceId = ws
    · simp [hws, hne.symm]
    · simp [hws]
  · exact Rows.get_remove_of_ne hne

theorem workspaceId_of_key {m' : WorkspaceMembership} (h : membershipKey m' = membershipKey m) :
    m'.workspaceId = m.workspaceId :=
  congrArg Prod.snd h

/-- A write on another workspace. -/
theorem write_other {env : AccountEnv} {write : AccountWrite} (htarget : write.target ≠ some ws)
    (hfresh : env.workspaceId ≠ ws) :
    membersOf (write.apply rt env db) ws = membersOf db ws ∧
      workspaceById (write.apply rt env db) ws = workspaceById db ws := by
  cases write with
  | register body => exact insertWorkspace_other hfresh env.userId
  | createWorkspace user name => exact insertWorkspace_other hfresh user
  | deleteWorkspace id => exact dropWorkspace_other (fun heq => htarget (congrArg some heq))
  | addMember m =>
      have hne : m.workspaceId ≠ ws := fun heq => htarget (congrArg some heq)
      refine ⟨?_, rfl⟩
      unfold membersOf AccountWrite.apply
      simp [hne]
  | updateMemberRole m role =>
      have hne : m.workspaceId ≠ ws := fun heq => htarget (congrArg some heq)
      refine ⟨Rows.filter_put_of_not (decide_eq_false hne) ?_, rfl⟩
      intro m' hkey
      exact decide_eq_false (workspaceId_of_key hkey ▸ hne)
  | removeMember m =>
      have hne : m.workspaceId ≠ ws := fun heq => htarget (congrArg some heq)
      refine ⟨Rows.filter_remove_of_not ?_, rfl⟩
      intro m' hkey
      exact decide_eq_false (workspaceId_of_key hkey ▸ hne)

theorem holdsRole_congr {db' : Database} (h : membersOf db' ws = membersOf db ws) {role : Role}
    {user : UUID} : HoldsRole db' ws role user ↔ HoldsRole db ws role user := by
  have hof : ∀ db : Database, HoldsRole db ws role user ↔
      ∃ m ∈ membersOf db ws, m.userId = user ∧ roleLevel role ≤ roleLevel m.role := by
    intro db
    simp only [HoldsRole, membersOf, List.mem_filter, decide_eq_true_eq, and_assoc]
    exact exists_congr (fun m => and_congr_right (fun _ => ⟨fun ⟨h₁, h₂, h₃⟩ => ⟨h₂, h₁, h₃⟩,
      fun ⟨h₂, h₁, h₃⟩ => ⟨h₁, h₂, h₃⟩⟩))
  rw [hof, hof, h]

end

/-- What the admins of `db` alone can change. -/
structure MembersKept (db : Database) (ws : UUID) (v : AccountState) : Prop where
  created : ws ∈ v.created.map Prod.fst
  members : membersOf v.db ws = membersOf db ws
  workspace : workspaceById v.db ws = workspaceById db ws
  phases : ∀ i, PhaseSpares (HoldsRole db ws .admin) ws (v.calls i)

section

variable {rt : AccountRuntime} {settings : Settings} {db : Database} {ws : UUID}
  {s t : AccountState}

theorem MembersKept.moveTo (h : MembersKept db ws s) {i : ℕ} {phase : AccountPhase}
    (hphase : PhaseSpares (HoldsRole db ws .admin) ws phase) :
    MembersKept db ws (s.moveTo i phase) := by
  refine ⟨h.created, h.members, h.workspace, ?_⟩
  intro j
  show PhaseSpares _ ws (Function.update s.calls i phase j)
  by_cases hji : j = i
  · subst hji
    rw [Function.update_self]
    exact hphase
  · rw [Function.update_of_ne hji]
    exact h.phases j

theorem membersKept_account {label : AccountLabel} (h : MembersKept db ws s)
    (hspares : Spares (HoldsRole db ws .admin) ws (RestLabel.account label).under)
    (hstep : restNext rt settings s (.account label) = some t) : MembersKept db ws t := by
  obtain ⟨hstep, helse⟩ := restNext_account hstep
  match label with
  | .ask i call =>
      obtain ⟨_, rfl⟩ := ask_cases hstep
      exact h.moveTo hspares
  | .authorize i =>
      obtain ⟨call, hphase, rfl⟩ := authorize_cases hstep
      have hasked : PhaseSpares (HoldsRole db ws .admin) ws (.asked call) := hphase ▸ h.phases i
      exact h.moveTo (phaseSpares_authorize (fun _ => (holdsRole_congr h.members).mp) hasked)
  | .lookUp i =>
      obtain ⟨id, call, hphase, rfl⟩ := lookUp_cases hstep
      have hother : PhaseSpares (HoldsRole db ws .admin) ws (.authorized id call) :=
        hphase ▸ h.phases i
      exact h.moveTo (phaseSpares_lookUp hother call)
  | .checkExisting i =>
      obtain ⟨m, hphase, rfl⟩ := checkExisting_cases hstep
      have hother : PhaseSpares (HoldsRole db ws .admin) ws (.found m) := hphase ▸ h.phases i
      exact h.moveTo (phaseSpares_checkExisting hother)
  | .commit i env =>
      obtain ⟨write, hphase, hfresh, ⟨exc, rfl⟩ | ⟨_, rfl⟩⟩ := commitWrite_cases hstep
      · exact h.moveTo trivial
      · have htarget : PhaseSpares (HoldsRole db ws .admin) ws (.ready write) :=
          hphase ▸ h.phases i
        have hne : env.workspaceId ≠ ws := fun heq => hfresh (heq ▸ h.created)
        have hother : membersOf (write.apply rt env s.db) ws = membersOf s.db ws ∧
            workspaceById (write.apply rt env s.db) ws = workspaceById s.db ws :=
          write_other htarget hne
        obtain ⟨hmembers, hworkspace⟩ := hother
        have hended : MembersKept db ws (s.moveTo i (.ended (.ok write.status))) :=
          h.moveTo trivial
        refine ⟨?_, hmembers.trans h.members, hworkspace.trans h.workspace, hended.phases⟩
        exact List.map_append ▸ List.mem_append_left _ h.created
  | .fail i failure =>
      obtain rfl := Option.some.inj hstep
      exact h.moveTo trivial
  | .elsewhere endpoints routes events => exact absurd rfl (helse endpoints routes events)

theorem MembersKept.store (h : MembersKept db ws s) {db' : Database}
    (hmemberships : db'.memberships = s.db.memberships)
    (hworkspace : workspaceById db' ws = workspaceById s.db ws) :
    MembersKept db ws (s.store db') := by
  refine ⟨h.created, ?_, hworkspace.trans h.workspace, h.phases⟩
  show db'.memberships.filter _ = _
  rw [hmemberships]
  exact h.members

theorem membersKept_step {a : RestLabel} (h : MembersKept db ws s)
    (hspares : Spares (HoldsRole db ws .admin) ws a.under)
    (hstep : restNext rt settings s a = some t) : MembersKept db ws t := by
  match a with
  | .account label => exact membersKept_account h hspares hstep
  | .request env request =>
      obtain rfl := Option.some.inj hstep
      obtain ⟨hworkspaces, hmemberships⟩ := workspaces_of_handle settings env request s.db
      exact h.store hmemberships (congrArg (Rows.get Workspace.id · ws) hworkspaces)
  | .rename env caller workspaceId name =>
      obtain rfl := Option.some.inj hstep
      rcases renamed_cases env s.db caller workspaceId name with
        hsame | ⟨m, new, hm, hrole, hid, hput⟩
      · rw [hsame]
        exact h
      · rw [hput]
        have hne := workspaceId_ne_of_spares (fun _ => (holdsRole_congr h.members).mp) hspares hm
          hrole
        exact h.store rfl (Rows.get_put_of_ne (hid ▸ hne))
  | .ingest event =>
      simp only [restNext, Option.ite_none_right_eq_some, Option.some.injEq] at hstep
      obtain ⟨_, rfl⟩ := hstep
      exact h.store rfl rfl
  | .mark event =>
      simp only [restNext, Option.ite_none_right_eq_some, Option.some.injEq] at hstep
      obtain ⟨_, rfl⟩ := hstep
      exact h.store rfl rfl
  | .attempt row =>
      simp only [restNext, Option.ite_none_right_eq_some, Option.some.injEq] at hstep
      obtain ⟨_, rfl⟩ := hstep
      exact h.store rfl rfl

/-- The endpoints and routes of a workspace. -/
def SameSetup (ws : UUID) (db db' : Database) : Prop :=
  (ownRows db' ws).endpoints = (ownRows db ws).endpoints ∧
    (ownRows db' ws).routes = (ownRows db ws).routes

/-- The rows of one workspace are among the others of another. -/
theorem ownRows_eq_of_otherRows {db db' : Database} {id : UUID} (hdb : Consistent db)
    (hdb' : Consistent db') (hne : id ≠ ws)
    (hendpoints : (otherRows db' id).endpoints = (otherRows db id).endpoints)
    (hroutes : (otherRows db' id).routes = (otherRows db id).routes) : SameSetup ws db db' := by
  have hother : ∀ db, Consistent db → ∀ k, Owned db ws k → ¬ Owned db id k := by
    rintro db hdb k ⟨ep, hep, rfl, hws⟩ ⟨ep', hep', hid, hws'⟩
    have hsame := Rows.eq_of_key_eq hdb.endpoints_nodup hep' hep hid
    exact hne (hws' ▸ hws ▸ congrArg Endpoint.workspaceId hsame)
  have hendpoint : ∀ db, Consistent db → ∀ ep, ep ∈ (ownRows db ws).endpoints ↔
      ep ∈ (otherRows db id).endpoints ∧ ep.workspaceId = ws := by
    intro db hdb ep
    rw [mem_ownRows_endpoints hdb]
    constructor
    · rintro ⟨hep, hws⟩
      exact ⟨⟨hep, hother db hdb ep.id ⟨ep, hep, rfl, hws⟩⟩, hws⟩
    · rintro ⟨⟨hep, _⟩, hws⟩
      exact ⟨hep, hws⟩
  have hroute : ∀ db, Consistent db → ∀ r, r ∈ (ownRows db ws).routes ↔
      r ∈ (otherRows db id).routes ∧ ∃ ep ∈ (ownRows db ws).endpoints, ep.id = r.endpointId := by
    intro db hdb r
    rw [← owned_iff]
    constructor
    · rintro ⟨hr, howned⟩
      exact ⟨⟨hr, hother db hdb r.endpointId howned⟩, howned⟩
    · rintro ⟨⟨hr, _⟩, howned⟩
      exact ⟨hr, howned⟩
  have hsame : (ownRows db' ws).endpoints = (ownRows db ws).endpoints := by
    ext ep
    rw [hendpoint db' hdb', hendpoint db hdb, hendpoints]
  refine ⟨hsame, ?_⟩
  ext r
  rw [hroute db' hdb', hroute db hdb, hroutes, hsame]

theorem sameSetup_of_eq {db db' : Database} (hendpoints : db'.endpoints = db.endpoints)
    (hroutes : db'.routes = db.routes) : SameSetup ws db db' := by
  have howned : Owned db' ws = Owned db ws := by
    unfold Owned
    rw [hendpoints]
  unfold SameSetup ownRows rowsOf
  rw [howned, hendpoints, hroutes]
  exact ⟨rfl, rfl⟩

theorem sameSetup_dropWorkspace {db : Database} {id : UUID} (hdb : Consistent db)
    (hdb' : Consistent (dropWorkspace db id)) (hne : id ≠ ws) :
    SameSetup ws db (dropWorkspace db id) := by
  have hnone : ∀ k, ¬ Owned (dropWorkspace db id) id k := by
    rintro k ⟨ep, hep, _, hws⟩
    have hkept := of_decide_eq_true (List.mem_filter.mp hep).2
    exact hkept hws
  have howned : ∀ ep ∈ db.endpoints, Owned db id ep.id ↔ ep.workspaceId = id := by
    intro ep hep
    constructor
    · rintro ⟨ep', hep', hid, hws⟩
      exact Rows.eq_of_key_eq hdb.endpoints_nodup hep' hep hid ▸ hws
    · intro hws
      exact ⟨ep, hep, rfl, hws⟩
  apply ownRows_eq_of_otherRows hdb hdb' hne
  · ext ep
    show ep ∈ db.endpoints.filter (fun ep => ep.workspaceId ≠ id) ∧ _ ↔ ep ∈ db.endpoints ∧ _
    rw [List.mem_filter, decide_eq_true_eq, and_assoc]
    apply and_congr_right
    intro hep
    exact (and_iff_left (hnone ep.id)).trans (not_congr (howned ep hep)).symm
  · ext r
    show r ∈ (dropWorkspace db id).routes ∧ _ ↔ r ∈ db.routes ∧ ¬ Owned db id r.endpointId
    rw [and_iff_left (hnone r.endpointId)]
    show r ∈ db.routes.filter _ ↔ _
    rw [List.mem_filter, decide_eq_true_eq]
    exact Iff.rfl

theorem sameSetup_write {env : AccountEnv} {write : AccountWrite} {db : Database}
    (hdb : Consistent db) (hdb' : Consistent (write.apply rt env db))
    (htarget : write.target ≠ some ws) : SameSetup ws db (write.apply rt env db) := by
  cases write with
  | deleteWorkspace id =>
      exact sameSetup_dropWorkspace hdb hdb' (fun heq => htarget (congrArg some heq))
  | register _ | createWorkspace _ _ | addMember _ | updateMemberRole _ _ | removeMember _ =>
      exact sameSetup_of_eq rfl rfl

/-- An operation that viewers may call writes nothing. -/
theorem makes_viewer {operation : Operation} (h : operation.minimumRole = .viewer) (w : Write) :
    ¬ operation.Makes w := by
  cases operation <;> first | (cases h; done) | (cases w <;> exact id)

/-- A request writes on the workspace of its path, with the role for it. -/
theorem sameSetup_handle {db : Database} (hdb : Consistent db) {P : UUID → Prop}
    (hP : ∀ user, HoldsRole db ws .member user → P user) (env : Env) (request : Request)
    (hdb' : Consistent ((handle env settings request db).store db))
    (hspares : Spares P ws (underPath request.caller request.workspaceId)) :
    SameSetup ws db ((handle env settings request db).store db) := by
  have hstay : SameSetup ws db db := ⟨rfl, rfl⟩
  unfold Outcome.store at hdb' ⊢
  cases hwrite : (handle env settings request db).write with
  | none => exact hstay
  | some w =>
      rw [hwrite] at hdb'
      obtain ⟨outcome, hok, hw⟩ := write_ofHandler hwrite
      obtain ⟨m, hm, hchecked⟩ := exists_of_bind_eq_ok hok
      obtain ⟨m', hrole, hrun⟩ := exists_of_bind_eq_ok hchecked
      obtain rfl := requireWorkspaceRole_eq_ok hrole
      have hmakes := makes_run request.operation outcome w hrun hw
      have hmember : roleLevel .member ≤ roleLevel request.operation.minimumRole := by
        cases hviewer : request.operation.minimumRole with
        | viewer => exact absurd hmakes (makes_viewer hviewer w)
        | member | admin | owner => decide
      obtain ⟨hmem, hunder⟩ := underPath_of_membership hm
      have hne : m'.workspaceId ≠ ws := by
        rintro rfl
        have hlevel := hmember.trans (level_of_requireWorkspaceRole hrole)
        exact hspares m'.userId hunder (hP m'.userId ⟨m', hmem, rfl, rfl, hlevel⟩)
      obtain ⟨within, hcheck⟩ := stays_run hdb request.operation outcome w hrun hw
      have hothers := (rows_apply hdb within hcheck).2
      exact ownRows_eq_of_otherRows hdb hdb' hne (congrArg TenantRows.endpoints hothers)
        (congrArg TenantRows.routes hothers)

/-- What the members of `db` alone can change. -/
structure SetupKept (db : Database) (ws : UUID) (v : AccountState) : Prop where
  inv : RestInv v
  members : MembersKept db ws v
  setup : SameSetup ws db v.db

theorem SameSetup.trans {db₁ db₂ db₃ : Database} (h : SameSetup ws db₁ db₂)
    (h' : SameSetup ws db₂ db₃) : SameSetup ws db₁ db₃ :=
  ⟨h'.1.trans h.1, h'.2.trans h.2⟩

theorem setupKept_step {a : RestLabel} (h : SetupKept db ws s)
    (hspares : Spares (HoldsRole db ws .member) ws a.under)
    (hstep : restNext rt settings s a = some t) : SetupKept db ws t := by
  have hadmin : Spares (HoldsRole db ws .admin) ws a.under := by
    rintro user hunder ⟨m, hm, huser, hws, hlevel⟩
    exact hspares user hunder ⟨m, hm, huser, hws, le_trans (by decide) hlevel⟩
  have hinv : RestInv t := restInv_step h.inv hstep
  refine ⟨hinv, membersKept_step h.members hadmin hstep, h.setup.trans ?_⟩
  match a with
  | .account label =>
      obtain ⟨hstep, helse⟩ := restNext_account hstep
      rcases account_db hstep helse with hdb | ⟨i, env, write, _, hphase, _, _, hdb⟩
      · rw [hdb]
        exact ⟨rfl, rfl⟩
      · have htarget : PhaseSpares (HoldsRole db ws .admin) ws (.ready write) :=
          hphase ▸ h.members.phases i
        have hconsistent := hinv.consistent
        rw [hdb] at hconsistent ⊢
        exact sameSetup_write h.inv.consistent hconsistent htarget
  | .request env request =>
      obtain rfl := Option.some.inj hstep
      exact sameSetup_handle h.inv.consistent (fun _ => (holdsRole_congr h.members.members).mp) env
        request hinv.consistent hspares
  | .rename env caller workspaceId name =>
      obtain rfl := Option.some.inj hstep
      rcases renamed_cases env s.db caller workspaceId name with hsame | ⟨_, _, _, _, _, hput⟩
      · rw [hsame]
        exact ⟨rfl, rfl⟩
      · rw [hput]
        exact sameSetup_of_eq rfl rfl
  | .ingest event =>
      simp only [restNext, Option.ite_none_right_eq_some, Option.some.injEq] at hstep
      obtain ⟨_, rfl⟩ := hstep
      exact sameSetup_of_eq rfl rfl
  | .mark event =>
      simp only [restNext, Option.ite_none_right_eq_some, Option.some.injEq] at hstep
      obtain ⟨_, rfl⟩ := hstep
      exact sameSetup_of_eq rfl rfl
  | .attempt row =>
      simp only [restNext, Option.ite_none_right_eq_some, Option.some.injEq] at hstep
      obtain ⟨_, rfl⟩ := hstep
      exact sameSetup_of_eq rfl rfl

/-- The endpoints and routes of a workspace stay as long as none of its
members, viewers apart, calls under it. -/
theorem setup_stays {moves : List (Move AccountState RestLabel)}
    (h : (rest rt settings).Reachable s) (hws : ws ∈ s.db.workspaces.map Workspace.id)
    (idle : ∀ i, PhaseSpares (HoldsRole s.db ws .admin) ws (s.calls i))
    (run : (rest rt settings).Run s moves t)
    (hspares : ∀ m ∈ moves, Spares (HoldsRole s.db ws .member) ws m.label.under) :
    (ownRows t.db ws).endpoints = (ownRows s.db ws).endpoints ∧
      (ownRows t.db ws).routes = (ownRows s.db ws).routes := by
  have hinv := restInv_of_reachable h
  have hcreated : ws ∈ s.created.map Prod.fst := by
    obtain ⟨row, hrow, rfl⟩ := List.mem_map.mp hws
    exact hinv.accounts.owned.workspace_created row hrow
  have hkept := run.forall_visited (P := SetupKept s.db ws)
    (C := fun m => Spares (HoldsRole s.db ws .member) ws m.label.under)
    (fun _ _ _ hv hC hstep => setupKept_step hv hC hstep)
    ⟨hinv, ⟨hcreated, rfl, rfl, idle⟩, rfl, rfl⟩ hspares
  exact (hkept t run.visited_last).setup

/-- The call a step is of. -/
def AccountLabel.call : AccountLabel → Option ℕ
  | .ask i _ | .authorize i | .lookUp i | .checkExisting i | .commit i _ | .fail i _ => some i
  | .elsewhere _ _ _ => none

theorem calls_of_ne {label : AccountLabel} {j : ℕ} (h : accountNext rt s label = some t)
    (hne : label.call ≠ some j) : t.calls j = s.calls j := by
  have hmove : ∀ i phase, some i ≠ some j → (s.moveTo i phase).calls j = s.calls j :=
    fun i phase hij => Function.update_of_ne (fun heq => hij (congrArg some heq.symm)) _ _
  match label with
  | .ask i call =>
      obtain ⟨_, rfl⟩ := ask_cases h
      exact hmove i _ hne
  | .authorize i =>
      obtain ⟨call, _, rfl⟩ := authorize_cases h
      exact hmove i _ hne
  | .lookUp i =>
      obtain ⟨ws, call, _, rfl⟩ := lookUp_cases h
      exact hmove i _ hne
  | .checkExisting i =>
      obtain ⟨m, _, rfl⟩ := checkExisting_cases h
      exact hmove i _ hne
  | .commit i env =>
      obtain ⟨write, _, _, ⟨exc, rfl⟩ | ⟨_, rfl⟩⟩ := commitWrite_cases h
      · exact hmove i _ hne
      · exact hmove i _ hne
  | .fail i failure =>
      obtain rfl := Option.some.inj h
      exact hmove i _ hne
  | .elsewhere endpoints routes events =>
      obtain rfl := Option.some.inj h
      rfl

/-- A call that has not begun or has ended. -/
def AccountPhase.isOver : AccountPhase → Bool
  | .absent | .ended _ => true
  | _ => false

theorem phaseSpares_of_isOver {P : UUID → Prop} {phase : AccountPhase}
    (h : phase.isOver = true) : PhaseSpares P ws phase := by
  cases phase with
  | absent | ended => trivial
  | asked | authorized | found | ready => cases h

theorem calls_of_restNext {a : RestLabel} {j : ℕ} (h : restNext rt settings s a = some t)
    (hne : ∀ label, a = .account label → label.call ≠ some j) : t.calls j = s.calls j := by
  match a with
  | .account label => exact calls_of_ne (restNext_account h).1 (hne label rfl)
  | .request env request =>
      obtain rfl := Option.some.inj h
      rfl
  | .rename env caller workspaceId name =>
      obtain rfl := Option.some.inj h
      rfl
  | .ingest event | .mark event | .attempt row =>
      simp only [restNext, Option.ite_none_right_eq_some, Option.some.injEq] at h
      obtain ⟨_, rfl⟩ := h
      rfl

end

/-! ## Bob and the workspace of Ann -/

/-- Both register, and Ann makes an endpoint. -/
def annAndBob : List RestLabel := [
  .account (.ask 0 (.register ⟨"ann@example.com", "long enough", "ann"⟩)), .account (.authorize 0),
    .account (.commit 0 ⟨1, 11, "", .ok (), .ok ()⟩),
  .account (.ask 1 (.register ⟨"bob@example.com", "long enough", "bob"⟩)), .account (.authorize 1),
    .account (.commit 1 ⟨2, 12, "", .ok (), .ok ()⟩),
  .request rotationEnv ⟨.ok 1, UUID.str 11, .createEndpoint (some ⟨"orders", none, none, none⟩)⟩]

/-- Bob tries to join Ann's workspace, to make an endpoint there and to rename
it; then he makes an endpoint of his own. -/
def bobTries : List RestLabel := [
  .account (.ask 2 (.member (.ok 2) (UUID.str 11) (.addMember "bob@example.com" "admin"))),
    .account (.authorize 2),
  .request rotationEnv ⟨.ok 2, UUID.str 11, .createEndpoint (some ⟨"mine", none, none, none⟩)⟩,
  .rename {} (.ok 2) (UUID.str 11) (some "mine"),
  .request { rotationEnv with newId := 7 }
    ⟨.ok 2, UUID.str 12, .createEndpoint (some ⟨"own", none, none, none⟩)⟩]

def beforeBob : AccountState := (rest plainText {}).after { db := {} } annAndBob

def afterBob : AccountState := (rest plainText {}).after beforeBob bobTries

/-- The calls of these steps. -/
def callsOf (labels : List RestLabel) : List ℕ :=
  labels.filterMap (fun a => match a with
    | .account label => label.call
    | _ => none)

theorem exec_bob : ((rest plainText {}).exec { db := {} } annAndBob).isSome = true ∧
    ((rest plainText {}).exec beforeBob bobTries).isSome = true ∧
    bobTries.map RestLabel.under =
      [some (2, 11), none, some (2, 11), some (2, 11), some (2, 12)] ∧
    beforeBob.db.memberships = [⟨1, 11, .owner⟩, ⟨2, 12, .owner⟩] ∧
    11 ∈ beforeBob.db.workspaces.map Workspace.id ∧
    (beforeBob.calls 0).isOver = true ∧ (beforeBob.calls 1).isOver = true ∧
    callsOf annAndBob = [0, 0, 0, 1, 1, 1] := by
  decide +kernel

theorem idle_beforeBob (P : UUID → Prop) (i : ℕ) : PhaseSpares P 11 (beforeBob.calls i) := by
  obtain ⟨hbefore, _, _, _, _, hzero, hone, hcalls⟩ := exec_bob
  obtain ⟨moves, run, hlabels⟩ := Machine.exists_run_of_exec (Machine.exec_eq_after hbefore)
  by_cases hi : i = 0 ∨ i = 1
  · rcases hi with rfl | rfl
    · exact phaseSpares_of_isOver hzero
    · exact phaseSpares_of_isOver hone
  · -- no other call is made
    have hsame := run.forall_visited (P := fun v => v.calls i = .absent)
      (C := fun m => ∀ label, m.label = .account label → label.call ≠ some i)
      (fun _ _ _ hv hC hstep => (calls_of_restNext hstep hC).trans hv) rfl ?_
    · have habsent : beforeBob.calls i = .absent := hsame _ run.visited_last
      rw [habsent]
      trivial
    · intro m hm label hlabel hcall
      have hmem : i ∈ callsOf annAndBob := by
        rw [← hlabels]
        exact List.mem_filterMap.mpr ⟨m.label, List.mem_map_of_mem hm, by rw [hlabel]; exact hcall⟩
      rw [hcalls] at hmem
      apply hi
      simpa using hmem

/-- Bob has no role in Ann's workspace. -/
theorem bob_spares {role : Role} {moves : List (Move AccountState RestLabel)}
    (hlabels : moves.map Move.label = bobTries) :
    ∀ m ∈ moves, Spares (HoldsRole beforeBob.db 11 role) 11 m.label.under := by
  obtain ⟨_, _, hunder, hmembers, _⟩ := exec_bob
  rintro m hm user huser ⟨row, hrow, hrowuser, hrowws, _⟩
  have hmem : some (user, 11) ∈ bobTries.map RestLabel.under := by
    rw [← hlabels, ← huser]
    exact List.mem_map_of_mem (List.mem_map_of_mem hm)
  rw [hunder] at hmem
  obtain rfl : user = 2 := by
    simp only [List.mem_cons, Option.some.injEq, Prod.mk.injEq, List.not_mem_nil] at hmem
    tauto
  rw [hmembers] at hrow
  rcases List.mem_cons.mp hrow with rfl | hrow
  · exact absurd hrowuser (by decide)
  · rw [List.mem_singleton.mp hrow] at hrowws
    exact absurd hrowws (by decide)

theorem roles_agree_of_bob :
    ∃ outs, listMembers {} beforeBob.db (.ok 1) (UUID.str 11) = .ok outs ∧
      ∃ out ∈ outs, out.userId = 1 ∧ out.role = .owner := by
  obtain ⟨hbefore, _, _, hmembers, _⟩ := exec_bob
  have hreach : (rest plainText {}).Reachable beforeBob := Machine.reachable_after rfl hbefore
  have h := (roles_agree hreach {} 1 11 .owner (UUID.parse_str _)).1.out 0 3
  exact h.mp (by rw [hmembers]; exact List.mem_cons_self)

theorem setup_stays_of_bob :
    (ownRows afterBob.db 11).endpoints = (ownRows beforeBob.db 11).endpoints ∧
      (ownRows afterBob.db 11).routes = (ownRows beforeBob.db 11).routes := by
  obtain ⟨hbefore, hafter, _, _, hws, _⟩ := exec_bob
  obtain ⟨moves, run, hlabels⟩ := Machine.exists_run_of_exec (Machine.exec_eq_after hafter)
  have hreach : (rest plainText {}).Reachable beforeBob := Machine.reachable_after rfl hbefore
  exact setup_stays hreach hws (idle_beforeBob _) run (bob_spares hlabels)

end WebhookRelay.Api
