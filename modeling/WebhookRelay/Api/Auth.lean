import WebhookRelay.Core.Models
import WebhookRelay.Foundation.Cell
import WebhookRelay.Foundation.Rows

/-!
# Tokens and logout

`create_access_token` and `decode_access_token` of `app/core/security.py`,
`get_current_user` of `app/middleware/rbac.py` and `logout` of
`app/api/auth.py`. A token stands for its decoded claims, since only the
server can sign one. Two clocks bound its life after a logout: the entry of
the block list, whose time to live is cut to whole seconds, and `exp`, which
`jose` compares with the current time cut to whole seconds.
-/

namespace WebhookRelay.Api

open Foundation

/-- The claims the relay reads. -/
structure AccessToken where
  sub : Option String
  exp : ℤ
  jti : UUID
  deriving DecidableEq

/-- `create_access_token`; `sub` is that of `data`, the new `jti` is given. -/
def createAccessToken (settings : Settings) (sub : Option String) (expiresDelta : Option ℤ)
    (now : Time) (jti : UUID) : AccessToken :=
  let delta := expiresDelta.getD 0
  let minutes := if delta = 0 then settings.jwtExpireMinutes else delta
  { sub := sub, exp := ⌊now + 60 * minutes⌋, jti := jti }

def decodeAccessToken (token : AccessToken) (now : Time) : Except Failure AccessToken :=
  if token.exp < ⌊now⌋ then .error (.http 401 "invalid or expired token") else .ok token

/-- The keys `revoked:jti:…`. -/
abbrev Revocations := UUID → Cell Time String

/-- `none` is a client that was never initialised: `get_redis` raises. -/
abbrev AuthRedis := Option Revocations

def isRevoked (redis : AuthRedis) (jti : UUID) (now : Time) : Bool :=
  match redis with
  | some keys => ((keys jti).get now).isSome
  | none => false

def activeUser (users : List User) (sub : String) : Except Failure User :=
  match UUID.parse sub with
  | none => .error (.raised ⟨"ValueError", "badly formed hexadecimal UUID string"⟩)
  | some id =>
      match Rows.get User.id users id with
      | some user =>
          if user.isActive then .ok user else .error (.http 401 "user not found or inactive")
      | none => .error (.http 401 "user not found or inactive")

def getCurrentUser (users : List User) (redis : AuthRedis) (token : AccessToken) (now : Time) :
    Except Failure User := do
  let payload ← decodeAccessToken token now
  let sub := payload.sub.getD ""
  if sub = "" then .error (.http 401 "invalid token payload")
  else if isRevoked redis payload.jti now then .error (.http 401 "token has been revoked")
  else activeUser users sub

/-- When a logout is authenticated, decodes its token again, reads the clock
for the time to live, and is done: the instant of its `SET`, if it makes one. -/
structure LogoutClock where
  authAt : Time
  decodeAt : Time
  readAt : Time
  setAt : Time
  auth_le_decode : authAt ≤ decodeAt
  decode_le_read : decodeAt ≤ readAt
  read_le_set : readAt ≤ setAt

/-- The whole seconds of a block-list entry; none is made for 0. -/
def entryTtl (token : AccessToken) (readAt : Time) : ℤ :=
  if token.exp = 0 then 0 else max 0 ⌊token.exp - readAt⌋

/-- `logout`: the response, and the keys afterwards. -/
def logout (users : List User) (redis : AuthRedis) (token : AccessToken) (clock : LogoutClock) :
    Except Failure Unit × AuthRedis :=
  match getCurrentUser users redis token clock.authAt >>= fun _ =>
    decodeAccessToken token clock.decodeAt with
  | .error failure => (.error failure, redis)
  | .ok payload =>
      let ttl := entryTtl payload clock.readAt
      if 0 < ttl then
        (.ok (), redis.map (fun keys =>
          Function.update keys payload.jti ((keys payload.jti).setEx "1" (clock.setAt + ttl))))
      else (.ok (), redis)

section

variable {users : List User} {redis redis' : AuthRedis} {token : AccessToken} {now : Time}
    {user : User}
  {clock : LogoutClock}

theorem decodeAccessToken_eq_ok_iff {payload : AccessToken} :
    decodeAccessToken token now = .ok payload ↔ ⌊now⌋ ≤ token.exp ∧ payload = token := by
  unfold decodeAccessToken
  by_cases hexp : token.exp < ⌊now⌋
  · simp [hexp]
  · rw [if_neg hexp, Except.ok.injEq]
    exact ⟨fun h => ⟨not_lt.mp hexp, h.symm⟩, fun h => h.2.symm⟩

theorem getCurrentUser_eq_ok_iff :
    getCurrentUser users redis token now = .ok user ↔
      ⌊now⌋ ≤ token.exp ∧ token.sub.getD "" ≠ "" ∧ isRevoked redis token.jti now = false ∧
        activeUser users (token.sub.getD "") = .ok user := by
  unfold getCurrentUser decodeAccessToken
  by_cases hexp : token.exp < ⌊now⌋
  · rw [if_pos hexp]
    constructor
    · intro h
      cases h
    · intro h
      exact absurd h.1 (not_le.mpr hexp)
  · rw [if_neg hexp]
    show (if token.sub.getD "" = "" then _ else _) = _ ↔ _
    by_cases hsub : token.sub.getD "" = ""
    · simp [hsub]
    · rw [if_neg hsub]
      by_cases hrevoked : isRevoked redis token.jti now = true
      · simp [hrevoked]
      · rw [if_neg hrevoked]
        simp [not_lt.mp hexp, hsub, hrevoked]

/-- A logout succeeds when its token is let in and still decodes after that. -/
theorem logout_eq_ok_iff :
    logout users redis token clock = (.ok (), redis') ↔
      (∃ user, getCurrentUser users redis token clock.authAt = .ok user) ∧
        ⌊clock.decodeAt⌋ ≤ token.exp ∧
        redis' = if 0 < entryTtl token clock.readAt then
            redis.map (fun keys => Function.update keys token.jti
              ((keys token.jti).setEx "1" (clock.setAt + entryTtl token clock.readAt)))
          else redis := by
  unfold logout
  constructor
  · intro h
    split at h
    · cases h
    · rename_i payload hok
      obtain ⟨user, huser, hdecode⟩ := exists_of_bind_eq_ok hok
      obtain ⟨hexp, rfl⟩ := decodeAccessToken_eq_ok_iff.mp hdecode
      refine ⟨⟨user, huser⟩, hexp, ?_⟩
      dsimp only at h
      split at h
      · rename_i httl
        rw [if_pos httl]
        exact (Prod.ext_iff.mp h).2.symm
      · rename_i httl
        rw [if_neg httl]
        exact (Prod.ext_iff.mp h).2.symm
  · rintro ⟨⟨user, huser⟩, hexp, rfl⟩
    have hdecode : decodeAccessToken token clock.decodeAt = .ok token :=
      decodeAccessToken_eq_ok_iff.mpr ⟨hexp, rfl⟩
    have hok : (getCurrentUser users redis token clock.authAt >>= fun _ =>
        decodeAccessToken token clock.decodeAt) = .ok token := by
      rw [huser]
      exact hdecode
    rw [hok]
    dsimp only
    split <;> rfl

theorem entryTtl_nonneg (token : AccessToken) (readAt : Time) : 0 ≤ entryTtl token readAt := by
  unfold entryTtl
  split
  · exact le_refl 0
  · exact le_max_left _ _

/-- The block list knows a token from its logout on for as long as the entry
lasts. An entry of an earlier logout was gone when this one was let in. -/
theorem isRevoked_after {keys keys' later : Revocations}
    (h : logout users (some keys) token clock = (.ok (), some keys'))
    (hsame : later token.jti = keys' token.jti) (hnow : clock.setAt < now) :
    isRevoked (some later) token.jti now =
      decide (now < clock.setAt + entryTtl token clock.readAt) := by
  obtain ⟨⟨user, huser⟩, _, hredis⟩ := logout_eq_ok_iff.mp h
  show ((later token.jti).get now).isSome = _
  rw [hsame]
  by_cases httl : 0 < entryTtl token clock.readAt
  · rw [if_pos httl, Option.map_some, Option.some.injEq] at hredis
    rw [hredis, Function.update_self, Cell.setEx, Cell.get_expiring]
    split <;> simp_all
  · have hzero : entryTtl token clock.readAt = 0 :=
      le_antisymm (not_lt.mp httl) (entryTtl_nonneg _ _)
    rw [if_neg httl, Option.some.injEq] at hredis
    have hfree : ((keys token.jti).get clock.authAt).isSome = false :=
      (getCurrentUser_eq_ok_iff.mp huser).2.2.1
    have hauth : clock.authAt ≤ now := by
      have := clock.auth_le_decode
      have := clock.decode_le_read
      have := clock.read_le_set
      linarith
    rw [hredis, hzero, Cell.get_none_of_get_none hauth (by simpa using hfree)]
    simp [hnow.le]

end

/-! ## What a later request meets -/

/-- After `t` no request with the token gets through, whatever users and
other keys there are by then. -/
def LoggedOut (keys : Revocations) (token : AccessToken) (t : Time) : Prop :=
  ∀ now, t < now → ∀ later : Revocations, later token.jti = keys token.jti →
    ∀ users user, getCurrentUser users (some later) token now ≠ .ok user

section

variable {users : List User} {keys keys' : Revocations} {token : AccessToken} {clock : LogoutClock}

/-- In the gap between the end of the entry and that of the token, the token
is let in as it was for its logout. -/
theorem accepted_in_gap (h : logout users (some keys) token clock = (.ok (), some keys'))
    {now : Time} (hnow : clock.setAt < now) (hfresh : now < token.exp + 1)
    (hexpired : clock.setAt + entryTtl token clock.readAt ≤ now) :
    ∃ user, getCurrentUser users (some keys') token now = .ok user := by
  obtain ⟨⟨user, huser⟩, _, _⟩ := logout_eq_ok_iff.mp h
  obtain ⟨_, hsub, _, hactive⟩ := getCurrentUser_eq_ok_iff.mp huser
  have hexp : ⌊now⌋ < token.exp + 1 := Int.floor_lt.mpr (by push_cast; exact hfresh)
  refine ⟨user, getCurrentUser_eq_ok_iff.mpr ⟨by omega, hsub, ?_, hactive⟩⟩
  rw [isRevoked_after h rfl hnow, decide_eq_false_iff_not]
  exact not_lt.mpr hexpired

/-- A token past its expiry second is refused by itself, a token on the block
list by the entry: nothing else refuses it. -/
theorem loggedOut_iff_outlived (h : logout users (some keys) token clock = (.ok (), some keys')) :
    LoggedOut keys' token clock.setAt ↔
      (token.exp : Time) + 1 ≤ clock.setAt + entryTtl token clock.readAt := by
  constructor
  · intro hout
    by_contra hgap
    rw [not_le] at hgap
    have httl : (0 : Time) ≤ entryTtl token clock.readAt := by
      exact_mod_cast entryTtl_nonneg token clock.readAt
    -- an instant of the gap: half way from the end of the entry to that of the token
    have hnow :
        clock.setAt < (clock.setAt + entryTtl token clock.readAt + (token.exp + 1)) / 2 := by
      linarith
    obtain ⟨user, haccepted⟩ := accepted_in_gap h hnow (by linarith) (by linarith)
    exact hout _ hnow keys' rfl users user haccepted
  · intro hcovered now hnow later hsame users' user' haccepted
    obtain ⟨hexp, _, hfree, _⟩ := getCurrentUser_eq_ok_iff.mp haccepted
    rw [isRevoked_after h hsame hnow, decide_eq_false_iff_not, not_lt] at hfree
    have hnext : now < ⌊now⌋ + 1 := Int.lt_floor_add_one now
    have hfloor : (⌊now⌋ : Time) ≤ token.exp := by exact_mod_cast hexp
    linarith

/-- The `SET` comes so late after the clock was read that the entry outlives
the token, or the token is past its expiry second by then. -/
def Covered (exp : ℤ) (readAt setAt : Time) : Prop :=
  (exp : Time) + 1 ≤ setAt ∨
    (exp ≠ 0 ∧ 1 ≤ exp - readAt ∧ 1 + Int.fract (exp - readAt) ≤ setAt - readAt)

theorem covered_iff :
    Covered token.exp clock.readAt clock.setAt ↔
      (token.exp : Time) + 1 ≤ clock.setAt + entryTtl token clock.readAt := by
  unfold Covered entryTtl
  by_cases hzero : token.exp = 0
  · simp [hzero]
  · rw [if_neg hzero]
    by_cases hleft : 1 ≤ (token.exp : Time) - clock.readAt
    · have hfloor : 1 ≤ ⌊(token.exp : Time) - clock.readAt⌋ :=
        Int.le_floor.mpr (by exact_mod_cast hleft)
      have hfloor' : (1 : Time) ≤ ⌊(token.exp : Time) - clock.readAt⌋ := by exact_mod_cast hfloor
      rw [max_eq_right (by omega), ← Int.self_sub_floor]
      constructor
      · rintro (hpast | ⟨_, _, hlate⟩)
        · linarith
        · linarith
      · intro hcovered
        exact Or.inr ⟨hzero, hleft, by linarith⟩
    · have hfloor : ⌊(token.exp : Time) - clock.readAt⌋ < 1 :=
        Int.floor_lt.mpr (by exact_mod_cast not_le.mp hleft)
      rw [max_eq_left (by omega)]
      simp [hleft]

/-- So a logout whose `SET` follows at once is never final: the entry ends by
the expiry second, and the token with it. -/
theorem not_loggedOut_of_prompt (h : logout users (some keys) token clock = (.ok (), some keys'))
    (hprompt : clock.readAt = clock.setAt) (hlive : clock.setAt < token.exp + 1) :
    ¬ LoggedOut keys' token clock.setAt := by
  rw [loggedOut_iff_outlived h, ← covered_iff]
  rintro (hpast | ⟨_, _, hlate⟩)
  · linarith
  · have := Int.fract_nonneg ((token.exp : Time) - clock.readAt)
    linarith

/-- A logout of an issued token is final exactly when the entry it makes
covers what is left of the token's life. -/
theorem logout_final_iff {settings : Settings} {sub : Option String} {expiresDelta : Option ℤ}
    {issuedAt : Time} {jti : UUID}
    (h : logout users (some keys) (createAccessToken settings sub expiresDelta issuedAt jti) clock =
      (.ok (), some keys')) :
    LoggedOut keys' (createAccessToken settings sub expiresDelta issuedAt jti) clock.setAt ↔
      Covered (createAccessToken settings sub expiresDelta issuedAt jti).exp clock.readAt
        clock.setAt := by
  rw [covered_iff]
  exact loggedOut_iff_outlived h

end

/-! ## A token issued for a day, given back at once -/

def sampleUser : User where
  id := 1
  email := "a@example.com"
  displayName := "A"
  passwordHash := "hash"

def sampleToken : AccessToken := createAccessToken {} (some sampleUser.id.str) none (1000 + 1 / 2) 7

def noRevocations : Revocations := fun _ => Cell.empty

/-- Every instant of the logout is the same. -/
def promptLogout : LogoutClock :=
  ⟨1001 + 1 / 4, 1001 + 1 / 4, 1001 + 1 / 4, 1001 + 1 / 4, le_rfl, le_rfl, le_rfl⟩

/-- Two seconds pass between the reading of the clock and the `SET`. -/
def lateLogout : LogoutClock :=
  ⟨1001 + 1 / 4, 1001 + 1 / 4, 1001 + 1 / 4, 1003 + 1 / 4, le_rfl, le_rfl, by norm_num⟩

theorem logout_sampleToken (clock : LogoutClock) (hauth : clock.authAt = 1001 + 1 / 4)
    (hdecode : clock.decodeAt = 1001 + 1 / 4) (hread : clock.readAt = 1001 + 1 / 4) :
    ∃ keys', logout [sampleUser] (some noRevocations) sampleToken clock = (.ok (), some keys') := by
  have huser : getCurrentUser [sampleUser] (some noRevocations) sampleToken clock.authAt =
      .ok sampleUser := by
    rw [hauth]
    decide +kernel
  have hexp : ⌊clock.decodeAt⌋ ≤ sampleToken.exp := by
    rw [hdecode]
    decide +kernel
  have httl : 0 < entryTtl sampleToken clock.readAt := by
    rw [hread]
    decide +kernel
  exact ⟨_, logout_eq_ok_iff.mpr ⟨⟨sampleUser, huser⟩, hexp, (if_pos httl).symm⟩⟩

/-- The entry lasts until 87399.25 and the token until 87401. -/
theorem accepted_after_logout : ∃ keys',
    logout [sampleUser] (some noRevocations) sampleToken promptLogout = (.ok (), some keys') ∧
      (∃ user, getCurrentUser [sampleUser] (some keys') sampleToken (87400 + 1 / 2) = .ok user) ∧
        ¬ LoggedOut keys' sampleToken promptLogout.setAt := by
  obtain ⟨keys', hlogout⟩ := logout_sampleToken promptLogout rfl rfl rfl
  have hlater : promptLogout.setAt < 87400 + 1 / 2 := by decide +kernel
  have hfresh : (87400 + 1 / 2 : Time) < sampleToken.exp + 1 := by decide +kernel
  have hexpired :
      promptLogout.setAt + entryTtl sampleToken promptLogout.readAt ≤ 87400 + 1 / 2 := by
    decide +kernel
  obtain ⟨user, haccepted⟩ := accepted_in_gap hlogout hlater hfresh hexpired
  refine ⟨keys', hlogout, ⟨user, haccepted⟩, ?_⟩
  intro hout
  exact hout _ hlater keys' rfl [sampleUser] user haccepted

theorem loggedOut_of_late_set : ∃ keys',
    logout [sampleUser] (some noRevocations) sampleToken lateLogout = (.ok (), some keys') ∧
      LoggedOut keys' sampleToken lateLogout.setAt := by
  obtain ⟨keys', hlogout⟩ := logout_sampleToken lateLogout rfl rfl rfl
  have hcovered : Covered sampleToken.exp lateLogout.readAt lateLogout.setAt := by
    unfold Covered
    decide +kernel
  exact ⟨keys', hlogout, (logout_final_iff hlogout).mpr hcovered⟩

end WebhookRelay.Api
