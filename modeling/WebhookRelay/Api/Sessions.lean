import WebhookRelay.Api.Identities

/-!
# Passwords and sessions

`_peppered_password`, `hash_password` and `verify_password` of
`app/core/security.py`, and what comes of a registration: its password, and no
other, signs its user in for good, and the token of a sign-in is the user's
until its expiry second, as long as nobody logs out with it.
-/

namespace WebhookRelay.Api

open Foundation

/-- What `hmac`, `hashlib` and `bcrypt` compute, on UTF-8 texts. -/
structure PasswordRuntime where
  /-- `hmac.new(key, message, sha256).hexdigest()`. -/
  hmacHex : String → String → String
  /-- `bcrypt.hashpw(password, salt)`; a hash serves as a salt, too. -/
  hashpw : String → String → String
  /-- Whether `bcrypt.gensalt` can come to this text. -/
  isSalt : String → Bool

section

variable (prt : PasswordRuntime) (pepper : String)

def pepperedPassword (password : String) : String := prt.hmacHex pepper password

def hashPassword (password salt : String) : String :=
  prt.hashpw (pepperedPassword prt pepper password) salt

/-- `bcrypt.checkpw` hashes again and compares. -/
def verifyPassword (plain hashed : String) : Bool :=
  prt.hashpw (pepperedPassword prt pepper plain) hashed = hashed

/-- Hexadecimal digits, and not more of them than the 72 bytes `bcrypt` hashes. -/
def FitsBcrypt (text : String) : Prop :=
  text.toList.length ≤ 72 ∧ ∀ c ∈ text.toList, UUID.isLowerHex c = true

/-- A digest has 64 digits. `bcrypt` finds the salt at the front of a hash, and
tells apart what it hashes in full. -/
structure PasswordLaws : Prop where
  length_hmacHex : ∀ key message, (prt.hmacHex key message).toList.length = 64
  isLowerHex_hmacHex : ∀ key message, ∀ c ∈ (prt.hmacHex key message).toList,
    UUID.isLowerHex c = true
  hashpw_hashpw : ∀ p q salt : String, prt.isSalt salt = true → FitsBcrypt p → FitsBcrypt q →
    prt.hashpw p (prt.hashpw q salt) = prt.hashpw p salt
  hashpw_eq_iff : ∀ p q salt : String, prt.isSalt salt = true → FitsBcrypt p → FitsBcrypt q →
    (prt.hashpw p salt = prt.hashpw q salt ↔ p = q)

end

section

variable {prt : PasswordRuntime} {pepper salt : String}

theorem fitsBcrypt_pepperedPassword (laws : PasswordLaws prt) (pepper password : String) :
    FitsBcrypt (pepperedPassword prt pepper password) := by
  refine ⟨?_, laws.isLowerHex_hmacHex pepper password⟩
  unfold pepperedPassword
  rw [laws.length_hmacHex]
  norm_num

/-- A digest is short enough for `bcrypt`, whatever the length of the password. -/
theorem verifyPassword_hashPassword (laws : PasswordLaws prt) (hsalt : prt.isSalt salt = true)
    (plain password : String) :
    verifyPassword prt pepper plain (hashPassword prt pepper password salt) = true ↔
      pepperedPassword prt pepper plain = pepperedPassword prt pepper password := by
  have hplain := fitsBcrypt_pepperedPassword laws pepper plain
  have hpassword := fitsBcrypt_pepperedPassword laws pepper password
  unfold verifyPassword hashPassword
  rw [decide_eq_true_eq, laws.hashpw_hashpw _ _ _ hsalt hplain hpassword,
    laws.hashpw_eq_iff _ _ _ hsalt hplain hpassword]

end

/-! ## Signing in -/

section

variable {rt : AccountRuntime} {s s₀ s₁ t : AccountState} {i : ℕ} {env : AccountEnv}
  {body : UserCreate} {before after : List (Move AccountState AccountLabel)}

/-- A registration stays, whatever is done after it. -/
theorem registered_kept (hdistinct : UsersDistinct s.db.users)
    (hbefore : Machine.Run (accounts rt) s before s₀) (hregister : Registers rt s₀ s₁ i env body)
    (hafter : Machine.Run (accounts rt) s₁ after t) :
    UsersDistinct t.db.users ∧ newUser rt env body ∈ t.db.users := by
  have hdistinct₁ : UsersDistinct s₁.db.users :=
    usersDistinct_next (run_usersDistinct hbefore hdistinct) hregister.1
  exact ⟨run_usersDistinct hafter hdistinct₁, run_user_kept hafter (newUser_mem hregister)⟩

/-- After a registration `login` with any spelling of its address takes the
passwords with the digest of its password, and no others. -/
theorem login_eq {prt : PasswordRuntime} (laws : PasswordLaws prt) (pepper : String) {salt : String}
    (hsalt : prt.isSalt salt = true) (hdistinct : UsersDistinct s.db.users)
    (hbefore : Machine.Run (accounts rt) s before s₀) (hregister : Registers rt s₀ s₁ i env body)
    (hhash : env.passwordHash = hashPassword prt pepper body.password salt)
    (hafter : Machine.Run (accounts rt) s₁ after t) (settings : Settings) (email password : String)
    (hsame : normalizeEmail rt email = normalizeEmail rt body.email) (now : Time) (jti : UUID) :
    login rt settings (verifyPassword prt pepper) t.db (.ok ()) ⟨email, password⟩ now jti =
      if pepperedPassword prt pepper password = pepperedPassword prt pepper body.password then
        .ok (createAccessToken settings (some env.userId.str) none now jti, newUser rt env body)
      else .error (.http 401 "invalid email or password") := by
  obtain ⟨hdistinctₜ, huser⟩ := registered_kept hdistinct hbefore hregister hafter
  rw [loginResolves hdistinctₜ huser hsame.symm settings (verifyPassword prt pepper) (.ok ())
    password now jti]
  show (if verifyPassword prt pepper password env.passwordHash = false then _ else _) = _
  have hverify : verifyPassword prt pepper password (hashPassword prt pepper body.password salt) =
      true ↔ pepperedPassword prt pepper password = pepperedPassword prt pepper body.password :=
    verifyPassword_hashPassword laws hsalt password body.password
  rw [hhash]
  by_cases hpass : pepperedPassword prt pepper password = pepperedPassword prt pepper body.password
  · rw [if_pos hpass, if_neg (by rw [hverify.mpr hpass]; decide)]
    rfl
  · rw [if_neg hpass, if_pos (Bool.eq_false_iff.mpr (mt hverify.mp hpass))]

theorem signIn_eq_ok {settings : Settings} {verify : String → String → Bool} {password : String}
    {now : Time} {jti : UUID} {found user : User} {token : AccessToken}
    (h : signIn settings verify password now jti (some found) = .ok (token, user)) :
    token = createAccessToken settings (some found.id.str) none now jti ∧ user = found := by
  simp only [signIn] at h
  split at h
  · cases h
  · split at h
    · cases h
    · obtain ⟨rfl, rfl⟩ := Prod.mk.inj (Except.ok.inj h)
      exact ⟨rfl, rfl⟩

/-! ## Staying signed in -/

structure LogoutCall where
  users : List User
  token : AccessToken
  clock : LogoutClock

/-- The block list after some logouts. -/
def logouts (redis : AuthRedis) (calls : List LogoutCall) : AuthRedis :=
  calls.foldl (fun redis call => (logout call.users redis call.token call.clock).2) redis

/-- A logout writes under its own `jti`. -/
theorem isRevoked_logout {users : List User} {redis : AuthRedis} {token : AccessToken}
    {clock : LogoutClock} {jti : UUID} (hne : token.jti ≠ jti) (now : Time) :
    isRevoked (logout users redis token clock).2 jti now = isRevoked redis jti now := by
  unfold logout
  split
  · rfl
  · rename_i payload hok
    obtain ⟨_, _, hdecode⟩ := exists_of_bind_eq_ok hok
    obtain ⟨_, rfl⟩ := decodeAccessToken_eq_ok_iff.mp hdecode
    dsimp only
    split
    · cases redis with
      | none => rfl
      | some keys =>
          show ((Function.update keys payload.jti _ jti).get now).isSome = _
          rw [Function.update_of_ne hne.symm]
          rfl
    · rfl

theorem isRevoked_logouts {calls : List LogoutCall} {jti : UUID} (redis : AuthRedis)
    (hothers : ∀ call ∈ calls, call.token.jti ≠ jti) (now : Time) :
    isRevoked (logouts redis calls) jti now = isRevoked redis jti now := by
  unfold logouts
  induction calls generalizing redis with
  | nil => rfl
  | cons call rest ih =>
      obtain ⟨hne, hrest⟩ := List.forall_mem_cons.mp hothers
      rw [List.foldl_cons, ih _ hrest, isRevoked_logout hne]

theorem str_ne_empty (id : UUID) : id.str ≠ "" := by
  intro hempty
  have hparse := UUID.parse_str id
  rw [hempty] at hparse
  have hnone : UUID.parse "" = none := by decide +kernel
  rw [hnone] at hparse
  cases hparse

/-- The token of a sign-in is its user's until its expiry second, whatever else
is done with accounts and whoever logs out with other tokens. -/
theorem session_eq {t' : AccountState} {later : List (Move AccountState AccountLabel)}
    (hdistinct : UsersDistinct s.db.users)
    (hbefore : Machine.Run (accounts rt) s before s₀) (hregister : Registers rt s₀ s₁ i env body)
    (hafter : Machine.Run (accounts rt) s₁ after t) {settings : Settings}
    {verify : String → String → Bool} {limited : Except Failure Unit} {email password : String}
    (hsame : normalizeEmail rt email = normalizeEmail rt body.email) {signedInAt : Time} {jti : UUID}
    {token : AccessToken} {user : User}
    (hlogin : login rt settings verify t.db limited ⟨email, password⟩ signedInAt jti =
      .ok (token, user))
    (hlater : Machine.Run (accounts rt) t later t') {redis : AuthRedis} (now : Time)
    (hfresh : isRevoked redis jti now = false) {calls : List LogoutCall}
    (hothers : ∀ call ∈ calls, call.token.jti ≠ jti) :
    user = newUser rt env body ∧
      getCurrentUser t'.db.users (logouts redis calls) token now =
        if ⌊now⌋ ≤ ⌊signedInAt + 60 * settings.jwtExpireMinutes⌋ then .ok user
        else .error (.http 401 "invalid or expired token") := by
  obtain ⟨hdistinctₜ, huserₜ⟩ := registered_kept hdistinct hbefore hregister hafter
  rw [loginResolves hdistinctₜ huserₜ hsame.symm settings verify limited password signedInAt jti]
    at hlogin
  obtain ⟨_, _, hsigned⟩ := exists_of_bind_eq_ok hlogin
  obtain ⟨rfl, rfl⟩ := signIn_eq_ok hsigned
  refine ⟨rfl, ?_⟩
  have hexp : (createAccessToken settings (some env.userId.str) none signedInAt jti).exp =
      ⌊signedInAt + 60 * settings.jwtExpireMinutes⌋ := rfl
  by_cases hlive : ⌊now⌋ ≤ ⌊signedInAt + 60 * settings.jwtExpireMinutes⌋
  · rw [if_pos hlive]
    apply getCurrentUser_eq_ok_iff.mpr
    refine ⟨hexp.symm ▸ hlive, str_ne_empty env.userId, ?_, ?_⟩
    · exact (isRevoked_logouts redis hothers now).trans hfresh
    · have hfound : Rows.get User.id t'.db.users env.userId = some (newUser rt env body) :=
        (Rows.get_eq_some_iff (run_usersDistinct hlater hdistinctₜ).ids).mpr
          ⟨run_user_kept hlater huserₜ, rfl⟩
      show activeUser t'.db.users env.userId.str = _
      unfold activeUser
      rw [UUID.parse_str]
      dsimp only
      rw [hfound]
      rfl
  · rw [if_neg hlive]
    have hpast : (createAccessToken settings (some env.userId.str) none signedInAt jti).exp <
        ⌊now⌋ := hexp ▸ not_le.mp hlive
    show (decodeAccessToken (createAccessToken settings (some env.userId.str) none signedInAt jti)
      now >>= _) = _
    unfold decodeAccessToken
    rw [if_pos hpast]
    rfl

end

/-! ## Ann signs in -/

def samplePepper : String := "0123456789abcdef0123456789abcdef"

def sampleSalt : String := "$2b$12$abcdefghijklmnopqrstuu"

def annsDigest : String := "c6f35a2621890bec8b7e548d47224fbd79cb84d5774afa45dc6fe798ff935232"

def otherDigest : String := "9d270a4a9ade6fdf90828fcb0ccbe8fde675495abb17df6dc69740fbf1742f20"

/-- A function with two given values, and none of them taken twice. -/
def pinned (p₁ p₂ v₁ v₂ p : List Char) : List Char :=
  if p = p₁ then v₁ else if p = p₂ then v₂ else '!' :: p

theorem pinned_injective {p₁ p₂ v₁ v₂ : List Char} (hne : v₁ ≠ v₂) (h₁ : v₁.head? ≠ some '!')
    (h₂ : v₂.head? ≠ some '!') : Function.Injective (pinned p₁ p₂ v₁ v₂) := by
  have hrest₁ : ∀ p, v₁ ≠ '!' :: p := fun p heq => h₁ (congrArg List.head? heq)
  have hrest₂ : ∀ p, v₂ ≠ '!' :: p := fun p heq => h₂ (congrArg List.head? heq)
  intro p q h
  unfold pinned at h
  by_cases hp₁ : p = p₁ <;> by_cases hq₁ : q = p₁ <;> by_cases hp₂ : p = p₂ <;>
    by_cases hq₂ : q = p₂ <;> simp_all [eq_comm]

/-- What `bcrypt` adds to the salt. -/
def hashTail : List Char → List Char :=
  pinned annsDigest.toList otherDigest.toList "OX4G6lLmZYj2v9wvDH4Ronah2g3ui7a".toList
    "AoIZkmbUfI.VPN85thLklmZVVI35QAS".toList

theorem hashTail_injective : Function.Injective hashTail :=
  pinned_injective (by decide +kernel) (by decide +kernel) (by decide +kernel)

/-- The values of the two functions at two passwords. -/
def knownPasswords : PasswordRuntime where
  hmacHex := fun key message =>
    if key = samplePepper ∧ message = "long enough" then annsDigest
    else if key = samplePepper ∧ message = "wrong one" then otherDigest
    else String.ofList (List.replicate 64 '0')
  hashpw := fun password salt =>
    String.ofList (salt.toList.take 29 ++ hashTail (password.toList.take 72))
  isSalt := fun salt => salt.toList.length = 29

theorem hmacHex_knownPasswords {P : List Char → Prop} (hann : P annsDigest.toList)
    (hother : P otherDigest.toList) (hzeros : P (List.replicate 64 '0')) (key message : String) :
    P (knownPasswords.hmacHex key message).toList := by
  show P (if _ then annsDigest else if _ then otherDigest else _).toList
  split
  · exact hann
  · split
    · exact hother
    · rwa [String.toList_ofList]

theorem knownPasswords_laws : PasswordLaws knownPasswords where
  length_hmacHex := hmacHex_knownPasswords (P := fun digits => digits.length = 64)
    (by decide +kernel) (by decide +kernel) List.length_replicate
  isLowerHex_hmacHex := by
    -- a digest as one Boolean: the kernel does not take a proof for each of its digits
    have hann : annsDigest.toList.all UUID.isLowerHex = true := by decide +kernel
    have hother : otherDigest.toList.all UUID.isLowerHex = true := by decide +kernel
    refine hmacHex_knownPasswords (P := fun digits => ∀ c ∈ digits, UUID.isLowerHex c = true)
      (List.all_eq_true.mp hann) (List.all_eq_true.mp hother) ?_
    intro c hc
    rw [List.eq_of_mem_replicate hc]
    rfl
  hashpw_hashpw := by
    intro p q salt hsalt _ _
    have hlength : salt.toList.length = 29 := of_decide_eq_true hsalt
    show String.ofList ((String.ofList (salt.toList.take 29 ++ _)).toList.take 29 ++ _) = _
    rw [String.toList_ofList, List.take_append_of_le_length (by rw [List.length_take]; omega),
      List.take_take]
    rfl
  hashpw_eq_iff := by
    intro p q salt _ hp hq
    show String.ofList _ = String.ofList _ ↔ _
    rw [String.ofList_inj, List.append_cancel_left_eq, hashTail_injective.eq_iff,
      List.take_of_length_le hp.1, List.take_of_length_le hq.1, String.toList_inj]

def annKeyedEnv : AccountEnv :=
  { annEnv with passwordHash := hashPassword knownPasswords samplePepper ann.password sampleSalt }

def annKeyed : AccountState := (accounts caselessText).after annAsks [.commit 0 annKeyedEnv]

theorem login_eq_ann :
    login caselessText {} (verifyPassword knownPasswords samplePepper) annKeyed.db (.ok ())
        ⟨"ANN@example.com", "long enough"⟩ 1000 8 =
      .ok (createAccessToken {} (some (UUID.str 1)) none 1000 8,
        newUser caselessText annKeyedEnv ann) ∧
    login caselessText {} (verifyPassword knownPasswords samplePepper) annKeyed.db (.ok ())
        ⟨"ANN@example.com", "wrong one"⟩ 1000 8 =
      .error (.http 401 "invalid email or password") := by
  obtain ⟨before, run, hregisters⟩ := ann_registers annKeyedEnv (t := annKeyed)
    (Machine.exec_eq_after (by decide +kernel)) rfl
  have hsalt : knownPasswords.isSalt sampleSalt = true := by decide +kernel
  have hsame : normalizeEmail caselessText "ANN@example.com" =
      normalizeEmail caselessText ann.email := by decide +kernel
  have hstart : UsersDistinct noAccounts.db.users := ⟨List.nodup_nil, List.nodup_nil⟩
  constructor
  · rw [login_eq knownPasswords_laws samplePepper hsalt hstart run hregisters rfl (.nil _) {} _ _
      hsame]
    exact if_pos rfl
  · rw [login_eq knownPasswords_laws samplePepper hsalt hstart run hregisters rfl (.nil _) {} _ _
      hsame]
    exact if_neg (by decide +kernel)

theorem session_eq_ann :
    getCurrentUser annKeyed.db.users
        (logouts (some noRevocations) [⟨[sampleUser], sampleToken, promptLogout⟩])
        (createAccessToken {} (some (UUID.str 1)) none 1000 8) 87400 =
      .ok (newUser caselessText annKeyedEnv ann) := by
  obtain ⟨before, run, hregisters⟩ := ann_registers annKeyedEnv (t := annKeyed)
    (Machine.exec_eq_after (by decide +kernel)) rfl
  have hstart : UsersDistinct noAccounts.db.users := ⟨List.nodup_nil, List.nodup_nil⟩
  have hlogin : login caselessText {} (fun _ _ => true) annKeyed.db (.ok ()) ⟨ann.email, ""⟩ 1000 8 =
      .ok (createAccessToken {} (some (UUID.str 1)) none 1000 8,
        newUser caselessText annKeyedEnv ann) := by
    decide +kernel
  have hfresh : isRevoked (some noRevocations) 8 87400 = false := by decide +kernel
  have hothers : ∀ call ∈ [(⟨[sampleUser], sampleToken, promptLogout⟩ : LogoutCall)],
      call.token.jti ≠ 8 := by
    rw [List.forall_mem_singleton]
    decide
  have h := session_eq hstart run hregisters (.nil _) rfl hlogin (.nil _) 87400 hfresh hothers
  exact h.2.trans (if_pos (by decide +kernel))

end WebhookRelay.Api
