import WebhookRelay.Api.Auth
import WebhookRelay.Api.Ownership

/-!
# One identity to an address

`register` and `login` look a user up by the normal form of the address they
are given, `add_member` by the address itself. Addresses in the table are
normal forms and its columns are unique, so `login` finds the user of an
address for good, and `add_member` only by the spelling that is its normal
form.
-/

namespace WebhookRelay.Api

open Foundation

structure LoginRequest where
  email : String
  password : String

/-- `scalar_one_or_none`. -/
def scalarOneOrNone {α : Type} : List α → Except Failure (Option α)
  | [] => .ok none
  | [row] => .ok (some row)
  | _ => .error (.raised ⟨"MultipleResultsFound",
      "Multiple rows were found when one or none was required"⟩)

section

variable (rt : AccountRuntime)

/-- `select(User).where(User.email == email)` with the normal form of a text. -/
def userByEmail (db : Database) (email : String) : Except Failure (Option User) :=
  scalarOneOrNone (db.users.filter (fun user => user.email = normalizeEmail rt email))

/-- What `login` makes of the user it has found. -/
def signIn (settings : Settings) (verifyPassword : String → String → Bool) (password : String)
    (now : Time) (jti : UUID) : Option User → Except Failure (AccessToken × User)
  | none => .error (.http 401 "invalid email or password")
  | some user =>
      if verifyPassword password user.passwordHash = false then
        .error (.http 401 "invalid email or password")
      else if user.isActive = false then .error (.http 403 "account is disabled")
      else .ok (createAccessToken settings (some user.id.str) none now jti, user)

/-- `limited` is what `_check_auth_rate_limit` comes to. -/
def login (settings : Settings) (verifyPassword : String → String → Bool) (db : Database)
    (limited : Except Failure Unit) (body : LoginRequest) (now : Time) (jti : UUID) :
    Except Failure (AccessToken × User) := do
  limited
  let user ← userByEmail rt db body.email
  signIn settings verifyPassword body.password now jti user

/-! ## Whom an address stands for -/

/-- `login` with this address goes on with that user. -/
def LoginResolves (db : Database) (email : String) (user : User) : Prop :=
  ∀ settings verifyPassword limited password now jti,
    login rt settings verifyPassword db limited ⟨email, password⟩ now jti =
      limited >>= fun _ => signIn settings verifyPassword password now jti (some user)

/-- `add_member` with this address and a role it accepts goes on with that user. -/
def AddMemberResolves (db : Database) (email : String) (user : User) : Prop :=
  ∀ workspaceId text role, requireMemberRole text = .ok role →
    lookUp db workspaceId (.addMember email text) = .ok (.found ⟨user.id, workspaceId, role⟩)

end

/-- The two unique columns of `users`. -/
structure UsersDistinct (users : List User) : Prop where
  ids : (users.map User.id).Nodup
  emails : (users.map User.email).Nodup

section

variable {rt : AccountRuntime} {db : Database} {user : User} {email : String}

theorem usersDistinct_snoc (h : UsersDistinct db.users)
    (hcheck : AccountWrite.checkUser db user = .ok ()) : UsersDistinct (db.users ++ [user]) := by
  unfold AccountWrite.checkUser at hcheck
  split at hcheck
  · cases hcheck
  · rename_i hid
    split at hcheck
    · cases hcheck
    · rename_i hemail
      exact ⟨Rows.nodup_snoc h.ids hid, Rows.nodup_snoc h.emails hemail⟩

theorem filter_email (h : UsersDistinct db.users) (huser : user ∈ db.users)
    (hemail : user.email = email) : db.users.filter (fun u => u.email = email) = [user] := by
  apply Rows.eq_singleton_of_nodup
  · exact (Rows.nodup_of_map h.emails).filter _
  · exact List.mem_filter.mpr ⟨huser, decide_eq_true hemail⟩
  · intro other hother
    obtain ⟨hmem, hsame⟩ := List.mem_filter.mp hother
    apply Rows.eq_of_key_eq h.emails hmem huser
    rw [hemail]
    exact of_decide_eq_true hsame

theorem loginResolves (h : UsersDistinct db.users) (huser : user ∈ db.users)
    (hemail : user.email = normalizeEmail rt email) : LoginResolves rt db email user := by
  intro settings verifyPassword limited password now jti
  have hfound : userByEmail rt db email = .ok (some user) := by
    unfold userByEmail
    rw [filter_email h huser hemail]
    rfl
  unfold login
  rw [hfound]
  rfl

/-- A row found by `add_member` has the very text as its address. -/
theorem addMemberResolves_iff (h : UsersDistinct db.users) (huser : user ∈ db.users) :
    AddMemberResolves db email user ↔ user.email = email := by
  have hget : ∀ found, db.users.find? (fun u => u.email = email) = some found ↔
      found ∈ db.users ∧ found.email = email :=
    fun found => Rows.get_eq_some_iff h.emails
  constructor
  · intro hresolves
    have hcall := hresolves 0 "member" .member rfl
    simp only [lookUp] at hcall
    obtain ⟨role, _, hcall⟩ := exists_of_bind_eq_ok hcall
    split at hcall
    · cases hcall
    · rename_i found hfound
      obtain ⟨hmem, hsame⟩ := (hget found).mp hfound
      simp only [pure, Except.pure, Except.ok.injEq, AccountPhase.found.injEq,
        WorkspaceMembership.mk.injEq] at hcall
      rw [Rows.eq_of_key_eq h.ids huser hmem hcall.1.symm]
      exact hsame
  · intro hemail workspaceId text role hrole
    simp only [lookUp]
    rw [hrole, (hget user).mpr ⟨huser, hemail⟩]
    rfl

end

/-! ## All calls -/

section

variable {rt : AccountRuntime} {s t : AccountState}

/-- What a call does to the users: it adds one the table allows, or nothing. -/
theorem users_cases {a : AccountLabel} (h : accountNext rt s a = some t) :
    t.db.users = s.db.users ∨
      ∃ user, AccountWrite.checkUser s.db user = .ok () ∧ t.db.users = s.db.users ++ [user] := by
  cases a with
  | ask i call =>
      obtain ⟨_, rfl⟩ := ask_cases h
      exact Or.inl rfl
  | authorize i =>
      obtain ⟨_, _, rfl⟩ := authorize_cases h
      exact Or.inl rfl
  | lookUp i =>
      obtain ⟨_, _, _, rfl⟩ := lookUp_cases h
      exact Or.inl rfl
  | checkExisting i =>
      obtain ⟨_, _, rfl⟩ := checkExisting_cases h
      exact Or.inl rfl
  | fail i failure =>
      cases h
      exact Or.inl rfl
  | elsewhere endpoints routes events =>
      cases h
      exact Or.inl rfl
  | commit i env =>
      obtain ⟨write, _, _, ⟨_, rfl⟩ | ⟨hcheck, rfl⟩⟩ := commitWrite_cases h
      · exact Or.inl rfl
      · cases write with
        | register body =>
            obtain ⟨_, huser, _⟩ := exists_of_bind_eq_ok hcheck
            exact Or.inr ⟨newUser rt env body, huser, rfl⟩
        | createWorkspace user name => exact Or.inl rfl
        | deleteWorkspace id => exact Or.inl rfl
        | addMember membership => exact Or.inl rfl
        | updateMemberRole membership role => exact Or.inl rfl
        | removeMember membership => exact Or.inl rfl

theorem usersDistinct_next {a : AccountLabel} (hdistinct : UsersDistinct s.db.users)
    (h : accountNext rt s a = some t) : UsersDistinct t.db.users := by
  rcases users_cases h with hsame | ⟨user, hcheck, hsnoc⟩
  · rw [hsame]
    exact hdistinct
  · rw [hsnoc]
    exact usersDistinct_snoc hdistinct hcheck

theorem user_kept {a : AccountLabel} {user : User} (huser : user ∈ s.db.users)
    (h : accountNext rt s a = some t) : user ∈ t.db.users := by
  rcases users_cases h with hsame | ⟨_, _, hsnoc⟩
  · rw [hsame]
    exact huser
  · rw [hsnoc]
    exact List.mem_append_left _ huser

theorem run_usersDistinct {moves : List (Move AccountState AccountLabel)}
    (run : Machine.Run (accounts rt) s moves t) (hdistinct : UsersDistinct s.db.users) :
    UsersDistinct t.db.users := by
  induction run with
  | nil => exact hdistinct
  | snoc _ hstep ih => exact usersDistinct_next ih hstep

theorem run_user_kept {moves : List (Move AccountState AccountLabel)} {user : User}
    (run : Machine.Run (accounts rt) s moves t) (huser : user ∈ s.db.users) :
    user ∈ t.db.users := by
  induction run with
  | nil => exact huser
  | snoc _ hstep ih => exact user_kept ih hstep

/-- The commit of a registration that was answered with 201. -/
def Registers (rt : AccountRuntime) (s t : AccountState) (i : ℕ) (env : AccountEnv)
    (body : UserCreate) : Prop :=
  accountNext rt s (.commit i env) = some t ∧ s.calls i = .ready (.register body) ∧
    t.calls i = .ended (.ok 201)

theorem newUser_mem {i : ℕ} {env : AccountEnv} {body : UserCreate}
    (h : Registers rt s t i env body) : newUser rt env body ∈ t.db.users := by
  obtain ⟨hstep, hready, hended⟩ := h
  obtain ⟨write, hwrite, _, hcommit⟩ := commitWrite_cases hstep
  rw [hready, AccountPhase.ready.injEq] at hwrite
  subst hwrite
  rcases hcommit with ⟨exc, rfl⟩ | ⟨_, rfl⟩
  · have hcalls : (s.moveTo i (.ended (.error (.raised exc)))).calls i =
        .ended (.error (.raised exc)) := Function.update_self ..
    rw [hcalls] at hended
    cases hended
  · exact List.mem_append_right _ (List.mem_singleton_self _)

/-- After a registration, and whatever is done in between, every spelling of
its address leads `login` to the user it created, and leads `add_member`
there exactly when it is the normal form. -/
theorem registered_address_iff {s₀ s₁ : AccountState}
    {before after : List (Move AccountState AccountLabel)} {i : ℕ} {env : AccountEnv}
    {body : UserCreate} (hdistinct : UsersDistinct s.db.users)
    (hbefore : Machine.Run (accounts rt) s before s₀) (hregister : Registers rt s₀ s₁ i env body)
    (hafter : Machine.Run (accounts rt) s₁ after t) :
    ∀ email, normalizeEmail rt email = normalizeEmail rt body.email →
      LoginResolves rt t.db email (newUser rt env body) ∧
        (AddMemberResolves t.db email (newUser rt env body) ↔ normalizeEmail rt email = email) := by
  intro email hsame
  have hdistinct₁ : UsersDistinct s₁.db.users :=
    usersDistinct_next (run_usersDistinct hbefore hdistinct) hregister.1
  have hdistinctₜ := run_usersDistinct hafter hdistinct₁
  have huser := run_user_kept hafter (newUser_mem hregister)
  have hemail : (newUser rt env body).email = normalizeEmail rt email := hsame.symm
  refine ⟨loginResolves hdistinctₜ huser hemail, ?_⟩
  rw [addMemberResolves_iff hdistinctₜ huser, hemail]

end

/-! ## An address with capitals -/

/-- `lower` on ASCII texts, with nothing to strip. -/
def caselessText : AccountRuntime := ⟨id, fun text => String.ofList (text.toList.map Char.toLower)⟩

def ann : UserCreate := ⟨"Ann@Example.com", "long enough", "ann"⟩

def annEnv : AccountEnv := ⟨1, 11, "", .ok (), .ok ()⟩

/-- Her call has found the address free. -/
def annAsks : AccountState :=
  (accounts caselessText).after noAccounts [.ask 0 (.register ann), .authorize 0]

def annIn : AccountState := (accounts caselessText).after annAsks [.commit 0 annEnv]

/-- Her call can be committed, whatever is drawn for it. -/
theorem ann_registers (env : AccountEnv) {t : AccountState}
    (hexec : (accounts caselessText).exec annAsks [.commit 0 env] = some t)
    (hended : t.calls 0 = .ended (.ok 201)) :
    ∃ moves, Machine.Run (accounts caselessText) noAccounts moves annAsks ∧
      Registers caselessText annAsks t 0 env ann := by
  have hasks : ((accounts caselessText).exec noAccounts
      [.ask 0 (.register ann), .authorize 0]).isSome = true := by decide +kernel
  obtain ⟨moves, run, _⟩ := Machine.exists_run_of_exec (Machine.exec_eq_after hasks)
  simp only [Machine.exec, Option.bind_eq_some_iff] at hexec
  obtain ⟨_, hstep, hsame⟩ := hexec
  rw [Option.some.inj hsame] at hstep
  exact ⟨moves, run, hstep, rfl, hended⟩

/-- `add_member` does not know the address she registered with. -/
theorem addMember_misses_ann :
    ¬ ∀ (rt : AccountRuntime) (s s₀ s₁ t : AccountState) (i : ℕ) (env : AccountEnv)
      (body : UserCreate) (before after : List (Move AccountState AccountLabel)) (email : String),
      UsersDistinct s.db.users → Machine.Run (accounts rt) s before s₀ →
      Registers rt s₀ s₁ i env body → Machine.Run (accounts rt) s₁ after t →
      normalizeEmail rt email = normalizeEmail rt body.email →
      LoginResolves rt t.db email (newUser rt env body) ∧
        AddMemberResolves t.db email (newUser rt env body) := by
  intro h
  obtain ⟨before, run, hregisters⟩ := ann_registers annEnv (t := annIn)
    (Machine.exec_eq_after (by decide +kernel)) rfl
  obtain ⟨_, hmember⟩ := h caselessText noAccounts annAsks annIn annIn 0 annEnv ann before []
    ann.email ⟨List.nodup_nil, List.nodup_nil⟩ run hregisters (.nil _) rfl
  have hfound := hmember 11 "member" .member rfl
  have hmissing : (lookUp annIn.db 11 (.addMember ann.email "member")).isOk = false := by
    decide +kernel
  rw [hfound] at hmissing
  cases hmissing

/-- The normal form of her address does for both. -/
theorem ann_resolves :
    LoginResolves caselessText annIn.db "ann@example.com" (newUser caselessText annEnv ann) ∧
      AddMemberResolves annIn.db "ann@example.com" (newUser caselessText annEnv ann) := by
  obtain ⟨before, run, hregisters⟩ := ann_registers annEnv (t := annIn)
    (Machine.exec_eq_after (by decide +kernel)) rfl
  have hresolves := registered_address_iff (s := noAccounts) ⟨List.nodup_nil, List.nodup_nil⟩ run
    hregisters (.nil _) "ann@example.com" (by decide +kernel)
  exact ⟨hresolves.1, hresolves.2.mpr (by decide +kernel)⟩

end WebhookRelay.Api
