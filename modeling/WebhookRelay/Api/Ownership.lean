import WebhookRelay.Api.Workspaces

/-!
# One owner to a workspace

The only rows with the role `owner` are those a workspace is created with, and
no call that has read a row of another role can come to write over one: the
user of an owner's row was the creator when the row was read, and a workspace
has one creator for ever. `CreatorsOwn` is what the tables say of `created`,
`PhaseOk` what a call under way has to know of the row it is about.
-/

namespace WebhookRelay.Api

open Foundation

/-- The owners' rows are the creators'. -/
structure CreatorsOwn (db : Database) (created : List (UUID × UUID)) : Prop where
  created_nodup : (created.map Prod.fst).Nodup
  keys_nodup : (db.memberships.map membershipKey).Nodup
  workspace_created : ∀ ws ∈ db.workspaces, ws.id ∈ created.map Prod.fst
  workspace_exists : ∀ m ∈ db.memberships, m.workspaceId ∈ db.workspaces.map Workspace.id
  owner_created : ∀ m ∈ db.memberships, m.role = .owner → (m.workspaceId, m.userId) ∈ created
  owner_present : ∀ ws ∈ db.workspaces, ∀ user, (ws.id, user) ∈ created →
    ⟨user, ws.id, .owner⟩ ∈ db.memberships

/-- The user of this row is not the one who created its workspace. -/
def NotOwner (created : List (UUID × UUID)) (m : WorkspaceMembership) : Prop :=
  m.workspaceId ∈ created.map Prod.fst ∧ (m.workspaceId, m.userId) ∉ created

def WriteOk (created : List (UUID × UUID)) : AccountWrite → Prop
  | .addMember m => m.role ≠ .owner
  | .updateMemberRole m role => NotOwner created m ∧ role ≠ .owner
  | .removeMember m => NotOwner created m
  | _ => True

def PhaseOk (created : List (UUID × UUID)) : AccountPhase → Prop
  | .found m => m.role ≠ .owner
  | .ready write => WriteOk created write
  | _ => True

structure AccountInv (s : AccountState) : Prop where
  owned : CreatorsOwn s.db s.created
  phases : ∀ i, PhaseOk s.created (s.calls i)

/-! ## The tables -/

section

variable {db : Database} {created : List (UUID × UUID)} {m : WorkspaceMembership}

/-- A workspace has one creator. -/
theorem creator_unique (h : (created.map Prod.fst).Nodup) {ws user other : UUID}
    (huser : (ws, user) ∈ created) (hother : (ws, other) ∈ created) : user = other :=
  congrArg Prod.snd (Rows.eq_of_key_eq h huser hother rfl)

/-- Only the two tables matter. -/
theorem CreatorsOwn.congr (h : CreatorsOwn db created) {db' : Database}
    (hworkspaces : db'.workspaces = db.workspaces)
    (hmemberships : db'.memberships = db.memberships) : CreatorsOwn db' created where
  created_nodup := h.created_nodup
  keys_nodup := hmemberships ▸ h.keys_nodup
  workspace_created := by
    rw [hworkspaces]
    exact h.workspace_created
  workspace_exists := by
    rw [hworkspaces, hmemberships]
    exact h.workspace_exists
  owner_created := by
    rw [hmemberships]
    exact h.owner_created
  owner_present := by
    rw [hworkspaces, hmemberships]
    exact h.owner_present

/-- A write that creates no workspace. -/
theorem CreatorsOwn.append_nil (h : CreatorsOwn db created) : CreatorsOwn db (created ++ []) := by
  rwa [List.append_nil]

theorem creatorsOwn_insertWorkspace (h : CreatorsOwn db created) {ws : Workspace}
    (hfresh : ws.id ∉ created.map Prod.fst) (user : UUID) :
    CreatorsOwn (insertWorkspace db ws user) (created ++ [(ws.id, user)]) where
  created_nodup := Rows.nodup_snoc h.created_nodup hfresh
  keys_nodup := by
    apply Rows.nodup_snoc h.keys_nodup
    intro hkey
    obtain ⟨m, hm, hmkey⟩ := List.mem_map.mp hkey
    have hws : m.workspaceId = ws.id := congrArg Prod.snd hmkey
    obtain ⟨old, hold, hid⟩ := List.mem_map.mp (h.workspace_exists m hm)
    exact hfresh (hws ▸ hid ▸ h.workspace_created old hold)
  workspace_created := by
    intro other hother
    rcases List.mem_append.mp hother with hold | hnew
    · exact List.map_append ▸ List.mem_append_left _ (h.workspace_created other hold)
    · rw [List.mem_singleton.mp hnew]
      simp
  workspace_exists := by
    intro m hm
    show m.workspaceId ∈ (db.workspaces ++ [ws]).map Workspace.id
    rcases List.mem_append.mp hm with hold | hnew
    · exact List.map_append ▸ List.mem_append_left _ (h.workspace_exists m hold)
    · rw [List.mem_singleton.mp hnew]
      simp
  owner_created := by
    intro m hm hrole
    rcases List.mem_append.mp hm with hold | hnew
    · exact List.mem_append_left _ (h.owner_created m hold hrole)
    · rw [List.mem_singleton.mp hnew]
      simp
  owner_present := by
    intro other hother owner howner
    rcases List.mem_append.mp howner with hknown | hadded
    · rcases List.mem_append.mp hother with hold | hnew
      · exact List.mem_append_left _ (h.owner_present other hold owner hknown)
      · rw [List.mem_singleton.mp hnew] at hknown
        exact absurd (List.mem_map_of_mem hknown) hfresh
    · obtain ⟨hid, rfl⟩ := Prod.ext_iff.mp (List.mem_singleton.mp hadded)
      apply List.mem_append_right _
      rw [List.mem_singleton]
      exact congrArg (fun id => (⟨owner, id, .owner⟩ : WorkspaceMembership)) hid

theorem creatorsOwn_dropWorkspace (h : CreatorsOwn db created) (id : UUID) :
    CreatorsOwn (dropWorkspace db id) created where
  created_nodup := h.created_nodup
  keys_nodup := h.keys_nodup.sublist (List.filter_sublist.map membershipKey)
  workspace_created := fun ws hws => h.workspace_created ws (Rows.mem_remove_iff.mp hws).1
  workspace_exists := by
    intro m hm
    obtain ⟨hold, hne⟩ := List.mem_filter.mp hm
    obtain ⟨ws, hws, hid⟩ := List.mem_map.mp (h.workspace_exists m hold)
    refine List.mem_map.mpr ⟨ws, Rows.mem_remove_iff.mpr ⟨hws, ?_⟩, hid⟩
    rw [hid]
    simpa using hne
  owner_created := fun m hm hrole => h.owner_created m (List.mem_filter.mp hm).1 hrole
  owner_present := by
    intro ws hws user huser
    obtain ⟨hold, hne⟩ := Rows.mem_remove_iff.mp hws
    exact List.mem_filter.mpr ⟨h.owner_present ws hold user huser, by simpa using hne⟩

/-- A row Postgres takes is new and in an existing workspace. -/
theorem checkMembership_eq_ok (h : AccountWrite.checkMembership db m = .ok ()) :
    membershipKey m ∉ db.memberships.map membershipKey ∧
      m.workspaceId ∈ db.workspaces.map Workspace.id := by
  unfold AccountWrite.checkMembership at h
  split at h
  · cases h
  · rename_i hkey
    split at h
    · cases h
    · split at h
      · cases h
      · rename_i hws
        exact ⟨hkey, not_not.mp hws⟩

theorem creatorsOwn_addMember (h : CreatorsOwn db created) (hrole : m.role ≠ .owner)
    (hcheck : AccountWrite.checkMembership db m = .ok ()) :
    CreatorsOwn { db with memberships := db.memberships ++ [m] } created where
  created_nodup := h.created_nodup
  keys_nodup := Rows.nodup_snoc h.keys_nodup (checkMembership_eq_ok hcheck).1
  workspace_created := h.workspace_created
  workspace_exists := by
    intro other hother
    rcases List.mem_append.mp hother with hold | hnew
    · exact h.workspace_exists other hold
    · rw [List.mem_singleton.mp hnew]
      exact (checkMembership_eq_ok hcheck).2
  owner_created := by
    intro other hother hother_role
    rcases List.mem_append.mp hother with hold | hnew
    · exact h.owner_created other hold hother_role
    · rw [List.mem_singleton.mp hnew] at hother_role
      exact absurd hother_role hrole
  owner_present := by
    intro ws hmem user huser
    exact List.mem_append_left _ (h.owner_present ws hmem user huser)

/-- The key of a row that is not the creator's is no owner's key. -/
theorem membershipKey_ne_of_notOwner (hnot : NotOwner created m) {ws user : UUID}
    (huser : (ws, user) ∈ created) :
    membershipKey ⟨user, ws, .owner⟩ ≠ membershipKey m := by
  intro hkey
  obtain ⟨hid, hws⟩ := Prod.ext_iff.mp hkey
  have hid' : user = m.userId := hid
  have hws' : ws = m.workspaceId := hws
  exact hnot.2 (hid' ▸ hws' ▸ huser)

theorem creatorsOwn_updateMemberRole (h : CreatorsOwn db created) (hnot : NotOwner created m)
    {role : Role} (hrole : role ≠ .owner) :
    CreatorsOwn
      { db with memberships := Rows.put membershipKey { m with role := role } db.memberships }
      created where
  created_nodup := h.created_nodup
  keys_nodup := by
    show ((Rows.put membershipKey _ db.memberships).map membershipKey).Nodup
    rw [Rows.map_key_put]
    exact h.keys_nodup
  workspace_created := h.workspace_created
  workspace_exists := by
    intro other hother
    rcases Rows.mem_put hother with ⟨rfl, hkey⟩ | ⟨hold, _⟩
    · obtain ⟨old, hold, hsame⟩ := List.mem_map.mp hkey
      have hws : old.workspaceId = m.workspaceId := congrArg Prod.snd hsame
      exact hws ▸ h.workspace_exists old hold
    · exact h.workspace_exists other hold
  owner_created := by
    intro other hother hother_role
    rcases Rows.mem_put hother with ⟨rfl, _⟩ | ⟨hold, _⟩
    · exact absurd hother_role hrole
    · exact h.owner_created other hold hother_role
  owner_present := by
    intro ws hws user huser
    exact Rows.mem_put_of_ne (h.owner_present ws hws user huser)
      (membershipKey_ne_of_notOwner hnot huser)

theorem creatorsOwn_removeMember (h : CreatorsOwn db created) (hnot : NotOwner created m) :
    CreatorsOwn
      { db with memberships := Rows.remove membershipKey (membershipKey m) db.memberships }
      created where
  created_nodup := h.created_nodup
  keys_nodup := h.keys_nodup.sublist (List.filter_sublist.map membershipKey)
  workspace_created := h.workspace_created
  workspace_exists := fun other hother => h.workspace_exists other (Rows.mem_remove_iff.mp hother).1
  owner_created := fun other hother hrole => h.owner_created other (Rows.mem_remove_iff.mp hother).1
    hrole
  owner_present := fun ws hws user huser =>
    Rows.mem_remove_iff.mpr
      ⟨h.owner_present ws hws user huser, membershipKey_ne_of_notOwner hnot huser⟩

end

/-! ## What a call has read -/

section

variable {rt : AccountRuntime} {db : Database} {created : List (UUID × UUID)}

theorem notOwner_of_mem (h : CreatorsOwn db created) {m : WorkspaceMembership}
    (hm : m ∈ db.memberships) (hrole : m.role ≠ .owner) : NotOwner created m := by
  obtain ⟨ws, hws, hid⟩ := List.mem_map.mp (h.workspace_exists m hm)
  refine ⟨hid ▸ h.workspace_created ws hws, ?_⟩
  intro hcreator
  have howner : ⟨m.userId, ws.id, .owner⟩ ∈ db.memberships :=
    h.owner_present ws hws m.userId (hid.symm ▸ hcreator)
  have hsame : m = ⟨m.userId, ws.id, .owner⟩ :=
    Rows.eq_of_key_eq h.keys_nodup hm howner (Prod.ext rfl hid.symm)
  exact hrole (congrArg WorkspaceMembership.role hsame)

theorem memberRole_ne_owner {text : String} : memberRole text ≠ some .owner := by
  unfold memberRole
  split <;> simp

theorem requireMemberRole_ne_owner {text : String} {role : Role}
    (h : requireMemberRole text = .ok role) : role ≠ .owner := by
  unfold requireMemberRole at h
  split at h
  · rename_i found hrole
    obtain rfl := Except.ok.inj h
    rintro rfl
    exact memberRole_ne_owner hrole
  · cases h

theorem notOwner_of_targetMembership (h : CreatorsOwn db created) {ws : UUID}
    {userId detail : String} {m : WorkspaceMembership}
    (hm : targetMembership db ws userId detail = .ok m) : NotOwner created m := by
  obtain ⟨target, _, hread⟩ := exists_of_bind_eq_ok hm
  split at hread
  · cases hread
  · rename_i row hget
    split at hread
    · cases hread
    · rename_i hrole
      obtain rfl := Except.ok.inj hread
      exact notOwner_of_mem h (List.mem_of_find?_eq_some hget) hrole

theorem phaseOk_authorize (call : AccountCall) :
    PhaseOk created (reached (authorize rt db call)) := by
  match hread : authorize rt db call with
  | .error _ => trivial
  | .ok phase =>
      show PhaseOk created phase
      match call with
      | .register body =>
          rw [authorize] at hread
          split at hread
          · cases hread
          · split at hread
            · cases hread
            · rw [← Except.ok.inj hread]
              trivial
      | .createWorkspace caller name =>
          obtain ⟨user, _, hread⟩ := exists_of_bind_eq_ok hread
          rw [← Except.ok.inj hread]
          trivial
      | .deleteWorkspace caller workspaceId =>
          obtain ⟨_, _, hread⟩ := exists_of_bind_eq_ok hread
          obtain ⟨_, _, hread⟩ := exists_of_bind_eq_ok hread
          rw [← Except.ok.inj hread]
          trivial
      | .member caller workspaceId call =>
          obtain ⟨_, _, hread⟩ := exists_of_bind_eq_ok hread
          obtain ⟨_, _, hread⟩ := exists_of_bind_eq_ok hread
          rw [← Except.ok.inj hread]
          trivial

theorem phaseOk_lookUp (h : CreatorsOwn db created) (ws : UUID) (call : MemberCall) :
    PhaseOk created (reached (lookUp db ws call)) := by
  match hread : lookUp db ws call with
  | .error _ => trivial
  | .ok phase =>
      show PhaseOk created phase
      match call with
      | .addMember email role =>
          obtain ⟨role, hrole, hread⟩ := exists_of_bind_eq_ok hread
          split at hread
          · cases hread
          · rw [← Except.ok.inj hread]
            exact requireMemberRole_ne_owner hrole
      | .updateMemberRole userId role =>
          obtain ⟨role, hrole, hread⟩ := exists_of_bind_eq_ok hread
          obtain ⟨m, hm, hread⟩ := exists_of_bind_eq_ok hread
          rw [← Except.ok.inj hread]
          exact ⟨notOwner_of_targetMembership h hm, requireMemberRole_ne_owner hrole⟩
      | .removeMember userId =>
          obtain ⟨m, hm, hread⟩ := exists_of_bind_eq_ok hread
          rw [← Except.ok.inj hread]
          exact notOwner_of_targetMembership h hm

theorem phaseOk_checkExisting {m : WorkspaceMembership} (hrole : m.role ≠ .owner) :
    PhaseOk created (reached (checkExisting db m)) := by
  unfold checkExisting
  split
  · trivial
  · exact hrole

/-- A new workspace has an identifier of its own, so nothing that was read of
another is affected. -/
theorem notOwner_append {m : WorkspaceMembership} (h : NotOwner created m) {ws : UUID}
    (hfresh : ws ∉ created.map Prod.fst) (more : Option UUID) :
    NotOwner (created ++ (more.map (fun user => (ws, user))).toList) m := by
  refine ⟨List.map_append ▸ List.mem_append_left _ h.1, ?_⟩
  intro hmem
  rcases List.mem_append.mp hmem with hold | hnew
  · exact h.2 hold
  · match more with
    | none => cases hnew
    | some user =>
        have hws : m.workspaceId = ws := congrArg Prod.fst (List.mem_singleton.mp hnew)
        exact hfresh (hws ▸ h.1)

theorem phaseOk_append {phase : AccountPhase} (h : PhaseOk created phase) {ws : UUID}
    (hfresh : ws ∉ created.map Prod.fst) (more : Option UUID) :
    PhaseOk (created ++ (more.map (fun user => (ws, user))).toList) phase := by
  match phase with
  | .found _ => exact h
  | .ready (.addMember _) => exact h
  | .ready (.updateMemberRole _ _) => exact ⟨notOwner_append h.1 hfresh more, h.2⟩
  | .ready (.removeMember _) => exact notOwner_append h hfresh more
  | .ready (.register _) | .ready (.createWorkspace _ _) | .ready (.deleteWorkspace _) => trivial
  | .absent | .asked _ | .authorized _ _ | .ended _ => trivial

/-- Each write keeps the owners' rows with the creators. -/
theorem creatorsOwn_apply (h : CreatorsOwn db created) {env : AccountEnv} {write : AccountWrite}
    (hok : WriteOk created write)
    (hfresh : env.workspaceId ∉ created.map Prod.fst) (hcheck : write.check rt env db = .ok ()) :
    CreatorsOwn (write.apply rt env db)
      (created ++ ((write.creator env).map (fun user => (env.workspaceId, user))).toList) := by
  match write with
  | .register body =>
      have husers : CreatorsOwn { db with users := db.users ++ [newUser rt env body] } created :=
        h.congr rfl rfl
      exact creatorsOwn_insertWorkspace husers hfresh env.userId
  | .createWorkspace user name => exact creatorsOwn_insertWorkspace h hfresh user
  | .deleteWorkspace id => exact (creatorsOwn_dropWorkspace h id).append_nil
  | .addMember m => exact (creatorsOwn_addMember h hok hcheck).append_nil
  | .updateMemberRole m role => exact (creatorsOwn_updateMemberRole h hok.1 hok.2).append_nil
  | .removeMember m => exact (creatorsOwn_removeMember h hok).append_nil

end

/-! ## All calls -/

section

variable {rt : AccountRuntime} {s t : AccountState}

theorem accountInv_moveTo (h : AccountInv s) {i : ℕ} {phase : AccountPhase}
    (hphase : PhaseOk s.created phase) : AccountInv (s.moveTo i phase) := by
  refine ⟨h.owned, ?_⟩
  intro j
  show PhaseOk s.created (Function.update s.calls i phase j)
  by_cases hji : j = i
  · subst hji
    rw [Function.update_self]
    exact hphase
  · rw [Function.update_of_ne hji]
    exact h.phases j

theorem accountInv_step (h : AccountInv s) {a : AccountLabel}
    (hstep : accountNext rt s a = some t) : AccountInv t := by
  match a with
  | .ask i call =>
      obtain ⟨_, rfl⟩ := ask_cases hstep
      exact accountInv_moveTo h trivial
  | .authorize i =>
      obtain ⟨call, _, rfl⟩ := authorize_cases hstep
      exact accountInv_moveTo h (phaseOk_authorize call)
  | .lookUp i =>
      obtain ⟨ws, call, _, rfl⟩ := lookUp_cases hstep
      exact accountInv_moveTo h (phaseOk_lookUp h.owned ws call)
  | .checkExisting i =>
      obtain ⟨m, hphase, rfl⟩ := checkExisting_cases hstep
      have hrole : PhaseOk s.created (.found m) := hphase ▸ h.phases i
      exact accountInv_moveTo h (phaseOk_checkExisting hrole)
  | .commit i env =>
      obtain ⟨write, hphase, hfresh, ⟨exc, rfl⟩ | ⟨hcheck, rfl⟩⟩ := commitWrite_cases hstep
      · exact accountInv_moveTo h trivial
      · have hok : PhaseOk s.created (.ready write) := hphase ▸ h.phases i
        have hended : AccountInv (s.moveTo i (.ended (.ok write.status))) :=
          accountInv_moveTo h trivial
        exact ⟨creatorsOwn_apply h.owned hok hfresh hcheck, fun j =>
          phaseOk_append (hended.phases j) hfresh _⟩
  | .fail i failure =>
      obtain rfl := Option.some.inj hstep
      exact accountInv_moveTo h trivial
  | .elsewhere endpoints routes events =>
      obtain rfl := Option.some.inj hstep
      exact ⟨h.owned.congr rfl rfl, h.phases⟩

theorem accountInv_of_reachable (h : (accounts rt).Reachable s) : AccountInv s := by
  refine h.invariant ?_ ?_
  · rintro s ⟨hws, hmembers, hcreated, hcalls⟩
    refine ⟨?_, fun i => by rw [hcalls]; trivial⟩
    constructor <;> simp [hws, hmembers, hcreated]
  · intro s a t hinv hstep
    exact accountInv_step hinv hstep

/-- In every reachable state a workspace has one row with the role `owner`,
that of the user who created it. -/
theorem one_owner (h : (accounts rt).Reachable s) :
    ∀ ws ∈ s.db.workspaces, ∃ creator, (ws.id, creator) ∈ s.created ∧
      (∀ user, (ws.id, user) ∈ s.created → user = creator) ∧
      s.db.memberships.filter (fun m => m.workspaceId = ws.id ∧ m.role = .owner) =
        [⟨creator, ws.id, .owner⟩] := by
  have howned := (accountInv_of_reachable h).owned
  intro ws hws
  obtain ⟨⟨id, creator⟩, hcreator, hid⟩ := List.mem_map.mp (howned.workspace_created ws hws)
  have hid' : id = ws.id := hid
  subst hid'
  refine ⟨creator, hcreator, fun user huser => creator_unique howned.created_nodup huser hcreator,
    ?_⟩
  apply Rows.eq_singleton_of_nodup
  · exact (Rows.nodup_of_map howned.keys_nodup).filter _
  · exact List.mem_filter.mpr ⟨howned.owner_present ws hws creator hcreator, by simp⟩
  · intro m hm
    obtain ⟨hmem, hcond⟩ := List.mem_filter.mp hm
    obtain ⟨hm_ws, hrole⟩ : m.workspaceId = ws.id ∧ m.role = .owner := by simpa using hcond
    have huser : m.userId = creator :=
      creator_unique howned.created_nodup (hm_ws ▸ howned.owner_created m hmem hrole) hcreator
    exact Rows.eq_of_key_eq howned.keys_nodup hmem (howned.owner_present ws hws creator hcreator)
      (Prod.ext huser hm_ws)

end

/-! ## Two users and a shared workspace -/

/-- `strip` and `lower` on texts they leave alone. -/
def plainText : AccountRuntime := ⟨id, id⟩

def noAccounts : AccountState := { db := {} }

/-- Two users register, the first makes the second an admin, who then tries to
demote the first. -/
def sharedWorkspaceRun : List AccountLabel := [
  .ask 0 (.register ⟨"ann@example.com", "long enough", "ann"⟩), .authorize 0,
    .commit 0 ⟨1, 11, "", .ok (), .ok ()⟩,
  .ask 1 (.register ⟨"bob@example.com", "long enough", "bob"⟩), .authorize 1,
    .commit 1 ⟨2, 12, "", .ok (), .ok ()⟩,
  .ask 2 (.member (.ok 1) (UUID.str 11) (.addMember "bob@example.com" "admin")), .authorize 2,
    .lookUp 2,
  .checkExisting 2, .commit 2 ⟨3, 13, "", .ok (), .ok ()⟩,
  .ask 3 (.member (.ok 2) (UUID.str 11) (.updateMemberRole (UUID.str 1) "viewer")), .authorize 3,
    .lookUp 3]

def sharedWorkspace : AccountState := (accounts plainText).after noAccounts sharedWorkspaceRun

theorem one_owner_of_sharedWorkspace :
    sharedWorkspace.db.memberships = [⟨1, 11, .owner⟩, ⟨2, 12, .owner⟩, ⟨2, 11, .admin⟩] ∧
      ∀ ws ∈ sharedWorkspace.db.workspaces, ∃ creator, (ws.id, creator) ∈ sharedWorkspace.created ∧
        (∀ user, (ws.id, user) ∈ sharedWorkspace.created → user = creator) ∧
        sharedWorkspace.db.memberships.filter (fun m => m.workspaceId = ws.id ∧ m.role = .owner) =
          [⟨creator, ws.id, .owner⟩] := by
  have hinit : (accounts plainText).init noAccounts := ⟨rfl, rfl, rfl, rfl⟩
  have hrun : ((accounts plainText).exec noAccounts sharedWorkspaceRun).isSome = true ∧
      sharedWorkspace.db.memberships = [⟨1, 11, .owner⟩, ⟨2, 12, .owner⟩, ⟨2, 11, .admin⟩] := by
    decide +kernel
  exact ⟨hrun.2, one_owner (Machine.reachable_after hinit hrun.1)⟩

end WebhookRelay.Api
