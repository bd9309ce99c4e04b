import WebhookRelay.Api.Auth
import WebhookRelay.Api.AuthThrottle
import WebhookRelay.Api.Identities
import WebhookRelay.Delivery.CircuitBreaker
import WebhookRelay.Foundation.Clients
import WebhookRelay.Foundation.PrefixFree
import WebhookRelay.Gateway.Handler
import WebhookRelay.Limits.SlidingWindow

/-!
# The keys of the shared Redis

The breaker, the rate limiter, ingestion, throttling and the block list of
tokens keep their state in one Redis, under texts that they put together from
URLs, ids, e-mails and keys of senders. The text in front of the parameter
tells the kind of a key (`prefixes_apart`) and for the breaker the text behind
it tells the slot, whatever the parameter is: only keys of one kind with the
same parameter are the same text. Each operation is the program of the commands
it sends, on one store for all of them.
-/

namespace WebhookRelay.Pipeline

open Foundation Api

/-! ## The keys -/

/-- What the breaker keeps for a URL. -/
inductive BreakerSlot where
  | state
  | failures
  | openSince
  | halfTested
  deriving DecidableEq

def BreakerSlot.str : BreakerSlot → String
  | state => "state"
  | failures => "failures"
  | openSince => "open_since"
  | halfTested => "half_tested"

/-- A key with the parameters it is made from; `client` and `email` are those
of the request. -/
inductive RedisKey where
  | breaker (url : String) (slot : BreakerSlot)
  | ingress (endpointId : UUID)
  | route (routeId : UUID)
  | dest (url : String)
  | idempotency (endpointId : UUID) (key : String)
  | authIp (action : AuthAction) (client : Option String)
  | authEmail (action : AuthAction) (email : String)
  | revoked (jti : String)
  deriving DecidableEq

namespace RedisKey

variable (rt : AccountRuntime)

/-- The parameters as the code takes them: a request without a client comes
from the host `unknown`, and an e-mail is what `_normalize_email` makes of it. -/
def canonical : RedisKey → RedisKey
  | authIp action client => authIp action (some (client.getD "unknown"))
  | authEmail action email => authEmail action (normalizeEmail rt email)
  | key => key

/-- The format strings. -/
def written : RedisKey → String
  | breaker url slot => "cb:" ++ url ++ ":" ++ slot.str
  | ingress endpointId => "rl:" ++ ("ingress:ep:" ++ endpointId.str)
  | route routeId => "rl:" ++ ("route:" ++ routeId.str)
  | dest url => "rl:" ++ ("dest:" ++ url)
  | idempotency endpointId key => Gateway.dedupKey endpointId key
  | authIp action client => "auth-rl:" ++ action.str ++ ":ip:" ++ client.getD "unknown"
  | authEmail action email => "auth-rl:" ++ action.str ++ ":email:" ++ email
  | revoked jti => "revoked:jti:" ++ jti

def text (key : RedisKey) : String := (key.canonical rt).written

/-- Of one kind and with the same parameters, as the code takes them. -/
def Same (a b : RedisKey) : Prop := a.canonical rt = b.canonical rt

instance (a b : RedisKey) : Decidable (a.Same rt b) := inferInstanceAs (Decidable (_ = _))

/-! ### What stands in front of the parameter, and what behind it -/

inductive Kind where
  | breaker
  | ingress
  | route
  | dest
  | idempotency
  | authIp (action : AuthAction)
  | authEmail (action : AuthAction)
  | revoked
  deriving DecidableEq

def kind : RedisKey → Kind
  | breaker _ _ => .breaker
  | ingress _ => .ingress
  | route _ => .route
  | dest _ => .dest
  | idempotency _ _ => .idempotency
  | authIp action _ => .authIp action
  | authEmail action _ => .authEmail action
  | revoked _ => .revoked

def Kind.front : Kind → String
  | breaker => "cb:"
  | ingress => "rl:" ++ "ingress:ep:"
  | route => "rl:" ++ "route:"
  | dest => "rl:" ++ "dest:"
  | idempotency => "idem:"
  | authIp action => "auth-rl:" ++ action.str ++ ":ip:"
  | authEmail action => "auth-rl:" ++ action.str ++ ":email:"
  | revoked => "revoked:jti:"

def parameter : RedisKey → String
  | breaker url slot => url ++ ":" ++ slot.str
  | ingress endpointId => endpointId.str
  | route routeId => routeId.str
  | dest url => url
  | idempotency endpointId key => endpointId.str ++ ":" ++ key
  | authIp _ client => client.getD "unknown"
  | authEmail _ email => normalizeEmail rt email
  | revoked jti => jti

variable {rt}

theorem toList_text (key : RedisKey) :
    (key.text rt).toList = key.kind.front.toList ++ (key.parameter rt).toList := by
  cases key <;>
    simp only [text, canonical, written, kind, Kind.front, parameter, Gateway.dedupKey,
      String.toList_append, List.append_assoc, Option.getD_some]

/-- No text in front of a parameter begins with another one. -/
theorem fronts_apart : PrefixFree (fun k : Kind => k.front.toList) := by
  intro k l h
  cases k with
  | authIp a | authEmail a => cases a <;> cases l with
    | authIp b | authEmail b => cases b <;> revert h <;> decide +kernel
    | _ => revert h; decide +kernel
  | _ => cases l with
    | authIp b | authEmail b => cases b <;> revert h <;> decide +kernel
    | _ => revert h; decide +kernel

/-- No slot of the breaker ends with another one. -/
theorem slots_apart : SuffixFree (fun slot : BreakerSlot => (":" ++ slot.str).toList) := by
  intro a b h
  cases a <;> cases b <;> revert h <;> decide +kernel

/-- Within a kind the parameter determines the key. -/
theorem same_of_parameter {a b : RedisKey} (hkind : a.kind = b.kind)
    (hparameter : a.parameter rt = b.parameter rt) (htext : a.text rt = b.text rt) :
    a.Same rt b := by
  cases a with
  | breaker url slot =>
      cases b with
      | breaker url' slot' =>
          have hlist := congrArg String.toList hparameter
          simp only [parameter, String.append_assoc, String.toList_append (s := url),
            String.toList_append (s := url')] at hlist
          obtain ⟨hurl, rfl⟩ := slots_apart.append_inj hlist
          rw [String.toList_injective hurl]
          rfl
      | _ => cases hkind
  | ingress id =>
      cases b with
      | ingress id' =>
          obtain rfl := UUID.str_injective hparameter
          rfl
      | _ => cases hkind
  | route id =>
      cases b with
      | route id' =>
          obtain rfl := UUID.str_injective hparameter
          rfl
      | _ => cases hkind
  | dest url =>
      cases b with
      | dest url' =>
          obtain rfl : url = url' := hparameter
          rfl
      | _ => cases hkind
  | idempotency id key =>
      cases b with
      | idempotency id' key' =>
          obtain ⟨rfl, rfl⟩ := Gateway.dedupKey_injective htext
          rfl
      | _ => cases hkind
  | authIp action client =>
      cases b with
      | authIp action' client' =>
          obtain rfl := Kind.authIp.inj hkind
          exact congrArg (fun host => authIp action (some host)) hparameter
      | _ => cases hkind
  | authEmail action email =>
      cases b with
      | authEmail action' email' =>
          obtain rfl := Kind.authEmail.inj hkind
          exact congrArg (authEmail action) hparameter
      | _ => cases hkind
  | revoked jti =>
      cases b with
      | revoked jti' =>
          obtain rfl : jti = jti' := hparameter
          rfl
      | _ => cases hkind

theorem text_eq_iff {a b : RedisKey} : a.text rt = b.text rt ↔ a.Same rt b := by
  constructor
  · intro h
    have hlist : a.kind.front.toList ++ (a.parameter rt).toList =
        b.kind.front.toList ++ (b.parameter rt).toList := by
      rw [← toList_text, ← toList_text, h]
    obtain ⟨hkind, hparameter⟩ := fronts_apart.append_inj hlist
    exact same_of_parameter hkind (String.toList_injective hparameter) h
  · exact congrArg written

end RedisKey

/-! ## The store and its commands -/

/-- What the relay keeps under a key: a text, a counter, an instant as
`str(time.time())` writes it, or a window of instants. -/
inductive RedisValue where
  | text (s : String)
  | count (n : ℕ)
  | instant (at' : Time)
  | window (members : SortedSet Time UUID)
  deriving DecidableEq

/-- What `INCR` and `float` read in a text. -/
structure Numerals where
  int : String → Option ℕ
  float : String → Option Time

def RedisValue.count? (num : Numerals) : RedisValue → Option ℕ
  | count n => some n
  | text s => num.int s
  | _ => none

def RedisValue.window? : RedisValue → Option (SortedSet Time UUID)
  | window members => some members
  | _ => none

/-- A command on one key; `ex` is its time to live. -/
inductive KeyCommand where
  | get
  | set (value : RedisValue) (ex : Option Time)
  /-- `SETNX`, and `SET ... NX`. -/
  | setnx (value : RedisValue) (ex : Option Time)
  | incr
  | expire (seconds : Time)
  | present
  /-- The transaction of `allow_request`, for a call that read its clock at `now`. -/
  | window (member : UUID) (now : Time)

inductive RedisCommand where
  | on (key : String) (command : KeyCommand)
  | del (keys : List String)

inductive RedisReply where
  | value (value : Option RedisValue)
  | flag (done : Bool)
  | count (n : ℕ)
  | ok
  | wrongType

abbrev RedisCell := Cell Time RedisValue

section Commands

variable (num : Numerals) (now : Time)

def KeyCommand.exec (c : RedisCell) : KeyCommand → RedisReply × RedisCell
  | get =>
      match c.get now with
      | some (.window _) => (.wrongType, c)
      | value => (.value value, c)
  | set value none => (.ok, c.set value)
  | set value (some ex) => (.ok, c.setEx value (now + ex))
  | setnx value none =>
      let (created, c) := c.setnx now value
      (.flag created, c)
  | setnx value (some ex) =>
      let (created, c) := c.setnxEx now value (now + ex)
      (.flag created, c)
  | incr =>
      match c.decode (RedisValue.count? num) now with
      | some counter =>
          let (n, counter) := counter.incr now
          (.count n, counter.map .count)
      | none => (.wrongType, c)
  | expire seconds => (.ok, c.expire now (now + seconds))
  | present => (.flag (c.get now).isSome, c)
  | window member clock =>
      match c.decode RedisValue.window? now with
      | some key =>
          let (n, key) := Limits.pipeline member clock now key
          (.count n, key.map .window)
      | none => (.wrongType, c)

def RedisCommand.keys : RedisCommand → List String
  | on key _ => [key]
  | del keys => keys

def RedisCommand.exec (command : RedisCommand) (store : String → RedisCell) :
    RedisReply × (String → RedisCell) :=
  match command with
  | on key command =>
      let (reply, c) := command.exec num now (store key)
      (reply, Function.update store key c)
  | del keys => (.ok, fun key => if key ∈ keys then .empty else store key)

theorem RedisCommand.exec_frame (command : RedisCommand) (store : String → RedisCell) (key : String)
    (hkey : key ∉ command.keys) : (command.exec num now store).2 key = store key := by
  cases command with
  | on own command =>
      exact Function.update_of_ne (fun heq => hkey (List.mem_singleton.mpr heq)) _ _
  | del keys => exact if_neg hkey

theorem RedisCommand.exec_own (command : RedisCommand) (store store' : String → RedisCell)
    (hsame : ∀ key ∈ command.keys, store key = store' key) :
    (command.exec num now store).1 = (command.exec num now store').1 ∧
      ∀ key ∈ command.keys,
        (command.exec num now store).2 key = (command.exec num now store').2 key := by
  cases command with
  | on own command =>
      have hown : store own = store' own := hsame own List.mem_cons_self
      simp only [RedisCommand.exec, RedisCommand.keys, hown, true_and]
      intro key hkey
      obtain rfl := List.mem_singleton.mp hkey
      rw [Function.update_self, Function.update_self]
  | del keys =>
      refine ⟨rfl, fun key hkey => ?_⟩
      have hmem : key ∈ keys := hkey
      simp only [RedisCommand.exec, if_pos hmem]

end Commands

def redis (num : Numerals) : Commands String RedisCell RedisCommand RedisReply Time where
  keys := RedisCommand.keys
  exec := RedisCommand.exec num
  frame := RedisCommand.exec_frame num
  own := RedisCommand.exec_own num

/-! ## The operations -/

/-- The answer, or `none` for an exception. -/
abbrev RelayProgram := Program RedisCommand RedisReply Time (Option Bool)

section Operations

variable (rt : AccountRuntime) (num : Numerals) (settings : AuthSettings)

def slotKey (url : String) (slot : BreakerSlot) : String := (RedisKey.breaker url slot).text rt

/-- `float(... or 0)`. -/
def sinceOf : RedisReply → Option Time
  | .value none => some 0
  | .value (some (.text s)) => if s = "" then some 0 else num.float s
  | .value (some (.instant at')) => some at'
  | .value (some (.count n)) => some n
  | _ => none

def isOpenProgram (url : String) : RelayProgram :=
  .send (.on (slotKey rt url .state) .get) fun
    | .value none => .ended (some false)
    | .value (some state) =>
        if state = .text "OPEN" then
          .send (.on (slotKey rt url .openSince) .get) fun since =>
            match sinceOf num since with
            | some openSince => .clock fun now =>
                if settings.circuitBreakerCooldownS ≤ now - openSince then
                  .send (.on (slotKey rt url .state) (.set (.text "HALF_OPEN") none)) fun _ =>
                    .ended (some false)
                else .ended (some true)
            | none => .ended none
        else if state = .text "HALF_OPEN" then
          .send (.on (slotKey rt url .halfTested) (.setnx (.text "1") none)) fun
            | .flag tested => .ended (some (!tested))
            | _ => .ended none
        else .ended (some false)
    | _ => .ended none

def recordSuccessProgram (url : String) : RelayProgram :=
  .send (.del [slotKey rt url .state, slotKey rt url .failures, slotKey rt url .openSince,
    slotKey rt url .halfTested]) fun _ => .ended (some true)

def recordFailureProgram (url : String) : RelayProgram :=
  .send (.on (slotKey rt url .failures) .incr) fun
    | .count count =>
        .send (.on (slotKey rt url .failures) (.expire Delivery.failureWindow)) fun _ =>
          if settings.circuitBreakerThreshold ≤ count then
            .send (.on (slotKey rt url .state) (.set (.text "OPEN") none)) fun _ =>
              .clock fun now =>
                .send (.on (slotKey rt url .openSince) (.set (.instant now) none)) fun _ =>
                  .ended (some true)
          else .ended (some true)
    | _ => .ended none

/-- `allow_request`; `member` is its `uuid4()`. -/
def allowRequestProgram (key : RedisKey) (maxRpm : Option ℤ) (member : UUID) : RelayProgram :=
  let limit := Limits.limitOf settings.toSettings maxRpm
  if limit ≤ 0 then .ended (some false)
  else .clock fun now => .send (.on (key.text rt) (.window member now)) fun
    | .count count => .ended (some (decide ((count : ℤ) < limit)))
    | _ => .ended none

/-- The reservation of an idempotency key in `receive_webhook`. -/
def reserveProgram (endpointId : UUID) (key : String) : RelayProgram :=
  .send (.on ((RedisKey.idempotency endpointId key).text rt)
    (.setnx (.text "1") (some settings.idempotencyTtlS))) fun
    | .flag seen => .ended (some seen)
    | _ => .ended none

/-- The loop of `_check_auth_rate_limit`. -/
def checkKeys : List String → RelayProgram
  | [] => .ended (some true)
  | key :: rest =>
      .send (.on key .incr) fun
        | .count count =>
            let next := if settings.authRateLimitPerMinute < count then .ended (some false)
              else checkKeys rest
            if count = 1 then .send (.on key (.expire 60)) fun _ => next else next
        | _ => .ended none

/-- What `logout` does for a token with these claims. -/
def logoutProgram (jti : String) (exp : ℤ) : RelayProgram :=
  if jti = "" ∨ exp = 0 then .ended (some true)
  else .clock fun now =>
    if 0 < ⌊exp - now⌋ then
      .send (.on ((RedisKey.revoked jti).text rt) (.set (.text "1") (some ⌊exp - now⌋))) fun _ =>
        .ended (some true)
    else .ended (some true)

/-- What `get_current_user` asks. -/
def isRevokedProgram (jti : String) : RelayProgram :=
  if jti = "" then .ended (some false)
  else .send (.on ((RedisKey.revoked jti).text rt) .present) fun
    | .flag found => .ended (some found)
    | _ => .ended none

/-- The operations on the shared Redis. -/
inductive RedisOp where
  | isOpen (url : String)
  | recordSuccess (url : String)
  | recordFailure (url : String)
  | allowIngress (endpointId : UUID) (rpm : ℤ) (member : UUID)
  | allowRoute (routeId : UUID) (rpm : ℤ) (member : UUID)
  | allowDest (url : String) (member : UUID)
  | reserve (endpointId : UUID) (key : String)
  | checkAuth (attempt : AuthAttempt)
  | logout (jti : String) (exp : ℤ)
  | isRevoked (jti : String)

def RedisOp.program : RedisOp → RelayProgram
  | isOpen url => isOpenProgram rt num settings url
  | recordSuccess url => recordSuccessProgram rt url
  | recordFailure url => recordFailureProgram rt settings url
  | allowIngress endpointId rpm member =>
      allowRequestProgram rt settings (.ingress endpointId) (some rpm) member
  | allowRoute routeId rpm member =>
      allowRequestProgram rt settings (.route routeId) (some rpm) member
  | allowDest url member => allowRequestProgram rt settings (.dest url) none member
  | reserve endpointId key => reserveProgram rt settings endpointId key
  | checkAuth attempt => checkKeys settings (attempt.keys rt)
  | logout jti exp => logoutProgram rt jti exp
  | isRevoked jti => isRevokedProgram rt jti

/-- The keys of an operation, by its own parameters. -/
def RedisOp.keys : RedisOp → List RedisKey
  | isOpen url | recordSuccess url | recordFailure url =>
      [.breaker url .state, .breaker url .failures, .breaker url .openSince,
        .breaker url .halfTested]
  | allowIngress endpointId _ _ => [.ingress endpointId]
  | allowRoute routeId _ _ => [.route routeId]
  | allowDest url _ => [.dest url]
  | reserve endpointId key => [.idempotency endpointId key]
  | checkAuth attempt =>
      [.authIp attempt.action attempt.client, .authEmail attempt.action attempt.email]
  | logout jti _ | isRevoked jti => [.revoked jti]

/-- The texts of the keys of an operation. -/
def ownTexts (op : RedisOp) : Set String := {k | ∃ own ∈ op.keys, own.text rt = k}

end Operations

section Within

variable {rt : AccountRuntime} {num : Numerals} {settings : AuthSettings} {K : Set String}

@[simp] theorem within_ended (answer : Option Bool) :
    (Program.ended answer : RelayProgram).Within (redis num) K := trivial

@[simp] theorem within_clock {next : Time → RelayProgram} :
    (Program.clock next).Within (redis num) K ↔ ∀ now, (next now).Within (redis num) K := Iff.rfl

@[simp] theorem within_on {key : String} {command : KeyCommand}
    {next : RedisReply → RelayProgram} :
    (Program.send (.on key command) next).Within (redis num) K ↔
      key ∈ K ∧ ∀ reply, (next reply).Within (redis num) K := by
  show (∀ k ∈ [key], k ∈ K) ∧ _ ↔ _
  rw [List.forall_mem_singleton]

@[simp] theorem within_del {keys : List String} {next : RedisReply → RelayProgram} :
    (Program.send (.del keys) next).Within (redis num) K ↔
      (∀ key ∈ keys, key ∈ K) ∧ ∀ reply, (next reply).Within (redis num) K := Iff.rfl

theorem within_isOpen {url : String} (hslots : ∀ slot, slotKey rt url slot ∈ K) :
    (isOpenProgram rt num settings url).Within (redis num) K := by
  unfold isOpenProgram
  rw [within_on]
  refine ⟨hslots .state, fun reply => ?_⟩
  split
  · exact within_ended _
  · split
    · rw [within_on]
      refine ⟨hslots .openSince, fun since => ?_⟩
      split
      · rw [within_clock]
        intro now
        split
        · exact within_on.mpr ⟨hslots .state, fun _ => within_ended _⟩
        · exact within_ended _
      · exact within_ended _
    · split
      · rw [within_on]
        refine ⟨hslots .halfTested, fun reply => ?_⟩
        split <;> exact within_ended _
      · exact within_ended _
  · exact within_ended _

theorem within_recordFailure {url : String} (hslots : ∀ slot, slotKey rt url slot ∈ K) :
    (recordFailureProgram rt settings url).Within (redis num) K := by
  unfold recordFailureProgram
  rw [within_on]
  refine ⟨hslots .failures, fun reply => ?_⟩
  split
  · rw [within_on]
    refine ⟨hslots .failures, fun _ => ?_⟩
    split
    · exact within_on.mpr ⟨hslots .state, fun _ => within_clock.mpr (fun now =>
        within_on.mpr ⟨hslots .openSince, fun _ => within_ended _⟩)⟩
    · exact within_ended _
  · exact within_ended _

theorem within_allowRequest {key : RedisKey} {maxRpm : Option ℤ} {member : UUID}
    (hkey : key.text rt ∈ K) :
    (allowRequestProgram rt settings key maxRpm member).Within (redis num) K := by
  unfold allowRequestProgram
  dsimp only
  split
  · exact within_ended _
  · rw [within_clock]
    intro now
    rw [within_on]
    refine ⟨hkey, fun reply => ?_⟩
    split <;> exact within_ended _

theorem within_checkKeys {keys : List String} (hkeys : ∀ key ∈ keys, key ∈ K) :
    (checkKeys settings keys).Within (redis num) K := by
  induction keys with
  | nil => exact within_ended _
  | cons key rest ih =>
      have hkey : key ∈ K := hkeys key List.mem_cons_self
      have hrest := ih (fun other hother => hkeys other (List.mem_cons_of_mem _ hother))
      unfold checkKeys
      rw [within_on]
      refine ⟨hkey, fun reply => ?_⟩
      split
      · rename_i count
        have hnext : (if settings.authRateLimitPerMinute < count then .ended (some false)
            else checkKeys settings rest : RelayProgram).Within (redis num) K := by
          split
          · exact within_ended _
          · exact hrest
        dsimp only
        split
        · exact within_on.mpr ⟨hkey, fun _ => hnext⟩
        · exact hnext
      · exact within_ended _

theorem authKeys_own (attempt : AuthAttempt) :
    ∀ key ∈ attempt.keys rt, key ∈ ownTexts rt (.checkAuth attempt) := by
  simp only [AuthAttempt.keys, List.forall_mem_cons]
  exact ⟨⟨_, List.mem_cons_self, rfl⟩, ⟨_, List.mem_cons_of_mem _ List.mem_cons_self, rfl⟩,
    fun _ hkey => absurd hkey List.not_mem_nil⟩

/-- An operation names its own keys only. -/
theorem within_program (op : RedisOp) :
    (op.program rt num settings).Within (redis num) (ownTexts rt op) := by
  have hslots : ∀ url, op.keys = [.breaker url .state, .breaker url .failures,
      .breaker url .openSince, .breaker url .halfTested] →
      ∀ slot, slotKey rt url slot ∈ ownTexts rt op := by
    intro url hkeys slot
    refine ⟨.breaker url slot, ?_, rfl⟩
    rw [hkeys]
    cases slot <;> simp
  cases op with
  | isOpen url => exact within_isOpen (hslots url rfl)
  | recordSuccess url =>
      refine within_del.mpr ⟨?_, fun _ => within_ended _⟩
      simp only [List.forall_mem_cons]
      exact ⟨hslots url rfl _, hslots url rfl _, hslots url rfl _, hslots url rfl _, nofun⟩
  | recordFailure url => exact within_recordFailure (hslots url rfl)
  | allowIngress id rpm member => exact within_allowRequest ⟨_, List.mem_cons_self, rfl⟩
  | allowRoute id rpm member => exact within_allowRequest ⟨_, List.mem_cons_self, rfl⟩
  | allowDest url member => exact within_allowRequest ⟨_, List.mem_cons_self, rfl⟩
  | reserve id key =>
      refine within_on.mpr ⟨⟨_, List.mem_cons_self, rfl⟩, fun reply => ?_⟩
      split <;> exact within_ended _
  | checkAuth attempt => exact within_checkKeys (authKeys_own attempt)
  | logout jti exp =>
      show (logoutProgram rt jti exp).Within _ _
      unfold logoutProgram
      split
      · exact within_ended _
      · rw [within_clock]
        intro now
        split
        · exact within_on.mpr ⟨⟨_, List.mem_cons_self, rfl⟩, fun _ => within_ended _⟩
        · exact within_ended _
  | isRevoked jti =>
      show (isRevokedProgram rt jti).Within _ _
      unfold isRevokedProgram
      split
      · exact within_ended _
      · rw [within_on]
        refine ⟨⟨_, List.mem_cons_self, rfl⟩, fun reply => ?_⟩
        split <;> exact within_ended _

end Within

/-! ## All of them together -/

abbrev RedisState := ClientState String RedisCell RedisCommand RedisReply Time (Option Bool) ℕ

abbrev RedisMove := Move RedisState (ClientLabel Time ℕ)

section System

variable (rt : AccountRuntime) (num : Numerals) (settings : AuthSettings) (ops : ℕ → RedisOp)

/-- Any number of operations on one Redis, a command at a time; any of them may
be cut off. -/
def sharedRedis : Machine RedisState (ClientLabel Time ℕ) :=
  clients (redis num) (fun i => (ops i).program rt num settings)

/-- The step changes no key of anything else, and comes to the same whatever
there is under these. -/
structure KeepsToItself (op : RedisOp) (i : ℕ) (m : RedisMove) : Prop where
  writes : ∀ key : RedisKey, (∀ own ∈ op.keys, ¬ own.Same rt key) →
    m.dst.store (key.text rt) = m.src.store (key.text rt)
  reads : ∀ u : RedisState, u.now = m.src.now → u.calls i = m.src.calls i →
    (∀ own ∈ op.keys, u.store (own.text rt) = m.src.store (own.text rt)) →
    ∃ v, clientNext (redis num) u (.step i) = some v ∧ v.calls i = m.dst.calls i ∧
      ∀ own ∈ op.keys, v.store (own.text rt) = m.dst.store (own.text rt)

end System

section Isolation

variable {rt : AccountRuntime} {num : Numerals} {settings : AuthSettings} {ops : ℕ → RedisOp}
  {s t : RedisState} {moves : List RedisMove}

theorem clientsWithin_init_redis (hs : (sharedRedis rt num settings ops).init s) :
    ClientsWithin (redis num) (fun i => ownTexts rt (ops i)) s :=
  clientsWithin_init (fun i => within_program (ops i)) hs

theorem not_mem_ownTexts {op : RedisOp} {key : RedisKey}
    (h : ∀ own ∈ op.keys, ¬ own.Same rt key) : key.text rt ∉ ownTexts rt op := by
  rintro ⟨own, hown, htext⟩
  exact h own hown (RedisKey.text_eq_iff.mp htext)

theorem keepsToItself_of_step {i : ℕ}
    (h : ClientsWithin (redis num) (fun i => ownTexts rt (ops i)) s)
    (hstep : clientNext (redis num) s (.step i) = some t) :
    KeepsToItself rt num (ops i) i ⟨s, .step i, t⟩ where
  writes key hkey := store_of_step h hstep _ (not_mem_ownTexts hkey)
  reads u hnow hcalls hagree := by
    have heqOn : Set.EqOn u.store s.store (ownTexts rt (ops i)) := by
      rintro k ⟨own, hown, rfl⟩
      exact hagree own hown
    obtain ⟨v, hv, hvcalls, hvstore⟩ := step_agree h hstep hnow hcalls heqOn
    exact ⟨v, hv, hvcalls, fun own hown => hvstore ⟨own, hown, rfl⟩⟩

/-- Keys are the same text exactly if they are of one kind with the same
parameters, and so no operation reads or changes what is kept for another. -/
theorem redisKeys_apart (hs : (sharedRedis rt num settings ops).init s)
    (run : (sharedRedis rt num settings ops).Run s moves t) :
    (∀ a b : RedisKey, a.text rt = b.text rt ↔ a.Same rt b) ∧
      ∀ m ∈ moves, ∀ i, m.label = .step i → KeepsToItself rt num (ops i) i m := by
  refine ⟨fun _ _ => RedisKey.text_eq_iff, ?_⟩
  refine run.forall_moves (C := fun _ => True) ?_ ?_ (clientsWithin_init_redis hs)
    (fun _ _ => trivial)
  · intro s a t h _ hstep
    exact clientsWithin_step h hstep
  · rintro s a t h _ hstep i hlabel
    obtain rfl : a = .step i := hlabel
    exact keepsToItself_of_step h hstep

/-- Operations that have no key in common with the others come to what they
come to without them. -/
theorem operations_alone {mine : ℕ → Prop} [DecidablePred mine]
    (hapart : ∀ i j, mine i → ¬ mine j →
      ∀ a ∈ (ops i).keys, ∀ b ∈ (ops j).keys, ¬ b.Same rt a)
    (hs : (sharedRedis rt num settings ops).init s)
    (run : (sharedRedis rt num settings ops).Run s moves t) :
    ∃ u, (sharedRedis rt num settings ops).exec s
        ((moves.map Move.label).filter (ClientLabel.ofSome mine)) = some u ∧
      SameFor mine {k | ∃ i, mine i ∧ k ∈ ownTexts rt (ops i)} u t := by
  apply exec_alone (clientsWithin_init_redis hs) ?_ ?_ run
  · exact fun i hi k hk => ⟨i, hi, hk⟩
  · rintro j hj k ⟨i, hi, own, hown, rfl⟩
    exact not_mem_ownTexts (fun b hb => hapart i j hi hj own hown b hb)

end Isolation

/-! ## A run, and an e-mail in two spellings -/

/-- Probes of two URLs of which one is the other with a slot behind it, and a
login between a check of a token and a reservation. -/
def crowd : ℕ → RedisOp
  | 0 => .recordFailure "http://a.example"
  | 1 => .isOpen "http://a.example:failures"
  | 2 => .checkAuth annsLogin
  | 3 => .reserve 3 "order:7"
  | _ => .isRevoked "jti:1"

def decimal : Numerals := ⟨String.toNat?, fun _ => none⟩

def crowdStart : RedisState where
  now := 0
  store := fun _ => .empty
  calls := fun i => some ((crowd i).program plainText decimal {})

def crowdLabels : List (ClientLabel Time ℕ) :=
  [.step 0, .step 2, .step 1, .step 3, .tick 5, .step 2, .step 4, .cut 0, .step 2, .step 2]

theorem redisKeys_apart_crowd :
    (∀ a b : RedisKey, a.text plainText = b.text plainText ↔ a.Same plainText b) ∧
      ∀ m ∈ (sharedRedis plainText decimal {} crowd).trace crowdStart crowdLabels,
        ∀ i, m.label = .step i → KeepsToItself plainText decimal (crowd i) i m := by
  have hinit : (sharedRedis plainText decimal {} crowd).init crowdStart := rfl
  have hruns : ((sharedRedis plainText decimal {} crowd).exec crowdStart crowdLabels).isSome =
      true := by
    decide +kernel
  exact redisKeys_apart hinit (Machine.run_trace (Machine.exec_eq_after hruns))

/-- Two spellings of an e-mail count under one key. -/
theorem spellings_share_key :
    ¬ ∀ (rt : AccountRuntime) (a b : RedisKey), a.text rt = b.text rt → a = b := by
  intro h
  have hsame : (RedisKey.authEmail .login "Ann@Example.com").text caselessText =
      (RedisKey.authEmail .login "ann@example.com").text caselessText := by
    decide +kernel
  have hequal := h caselessText _ _ hsame
  simp at hequal

end WebhookRelay.Pipeline
