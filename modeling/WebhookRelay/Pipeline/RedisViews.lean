import WebhookRelay.Pipeline.SharedRedis

/-!
# The components on the shared Redis

The models of the single components have keys of their own, with entries of
one type each. On a store that holds these under their texts, the program of an
operation with nothing in between comes to what the model comes to, and the
store holds what the model leaves.
-/

namespace WebhookRelay.Pipeline

open Foundation Api Delivery

variable {rt : AccountRuntime} {num : Numerals} {settings : AuthSettings} {now : Time}
  {store : String → RedisCell} {url key : String}

/-! ## Single commands -/

@[simp] theorem exec_on (command : KeyCommand) :
    (redis num).exec now (.on key command) store =
      ((command.exec num now (store key)).1,
        Function.update store key (command.exec num now (store key)).2) := rfl

/-- A `GET` of anything but a window. -/
theorem exec_get {c : RedisCell} (hc : ∀ members, c.get now ≠ some (.window members)) :
    KeyCommand.exec num now c .get = (.value (c.get now), c) := by
  cases hget : c.get now with
  | none => simp only [KeyCommand.exec, hget]
  | some v =>
      cases v with
      | window members => exact absurd hget (hc members)
      | text _ | count _ | instant _ => simp only [KeyCommand.exec, hget]

theorem exec_incr {c : Cell Time ℕ} :
    KeyCommand.exec num now (c.map .count) .incr =
      (.count (c.incr now).1, (c.incr now).2.map .count) := by
  have hdecode : (c.map RedisValue.count).decode (RedisValue.count? num) now = some c :=
    Cell.decode_map (f := RedisValue.count) (fun _ => rfl) c now
  simp only [KeyCommand.exec, hdecode]

theorem exec_expire {α : Type} {f : α → RedisValue} {c : Cell Time α} {seconds : Time} :
    KeyCommand.exec num now (c.map f) (.expire seconds) =
      (.ok, (c.expire now (now + seconds)).map f) := by
  simp only [KeyCommand.exec, Cell.expire_map]

/-! ## The breaker -/

def stateText : CbState → RedisValue
  | .OPEN => .text "OPEN"
  | .HALF_OPEN => .text "HALF_OPEN"

/-- The cell of a slot, as the store has it. -/
def slotCell (keys : BreakerKeys) : BreakerSlot → RedisCell
  | .state => keys.state.map stateText
  | .failures => keys.failures.map .count
  | .openSince => keys.openSince.map .instant
  | .halfTested => keys.halfTested.map (fun _ => .text "1")

def HoldsBreaker (rt : AccountRuntime) (url : String) (keys : BreakerKeys)
    (store : String → RedisCell) : Prop :=
  ∀ slot, store (slotKey rt url slot) = slotCell keys slot

theorem slotKey_injective {a b : BreakerSlot} (h : slotKey rt url a = slotKey rt url b) :
    a = b := by
  have hsame := RedisKey.text_eq_iff.mp h
  simpa [RedisKey.Same, RedisKey.canonical] using hsame

theorem holdsBreaker_update {keys keys' : BreakerKeys} (slot : BreakerSlot)
    (h : HoldsBreaker rt url keys store)
    (hothers : ∀ other, other ≠ slot → slotCell keys' other = slotCell keys other) :
    HoldsBreaker rt url keys'
      (Function.update store (slotKey rt url slot) (slotCell keys' slot)) := by
  intro other
  by_cases hother : other = slot
  · rw [hother, Function.update_self]
  · rw [Function.update_of_ne (fun heq => hother (slotKey_injective heq)), h other,
      hothers other hother]

section

variable {keys : BreakerKeys} (h : HoldsBreaker rt url keys store)
include h

theorem HoldsBreaker.setState (c : Cell Time CbState) :
    HoldsBreaker rt url { keys with state := c }
      (Function.update store (slotKey rt url .state) (c.map stateText)) := by
  apply holdsBreaker_update .state h
  intro other hother
  cases other <;> first | rfl | exact absurd rfl hother

theorem HoldsBreaker.setFailures (c : Cell Time ℕ) :
    HoldsBreaker rt url { keys with failures := c }
      (Function.update store (slotKey rt url .failures) (c.map .count)) := by
  apply holdsBreaker_update .failures h
  intro other hother
  cases other <;> first | rfl | exact absurd rfl hother

theorem HoldsBreaker.setOpenSince (c : Cell Time Time) :
    HoldsBreaker rt url { keys with openSince := c }
      (Function.update store (slotKey rt url .openSince) (c.map .instant)) := by
  apply holdsBreaker_update .openSince h
  intro other hother
  cases other <;> first | rfl | exact absurd rfl hother

theorem HoldsBreaker.setHalfTested (c : Cell Time Unit) :
    HoldsBreaker rt url { keys with halfTested := c }
      (Function.update store (slotKey rt url .halfTested) (c.map (fun _ => .text "1"))) := by
  apply holdsBreaker_update .halfTested h
  intro other hother
  cases other <;> first | rfl | exact absurd rfl hother

end

theorem get_state {keys : BreakerKeys} (h : HoldsBreaker rt url keys store) :
    KeyCommand.exec num now (store (slotKey rt url .state)) .get =
      (.value ((keys.state.get now).map stateText), store (slotKey rt url .state)) := by
  have hget : (store (slotKey rt url .state)).get now = (keys.state.get now).map stateText := by
    rw [h .state]
    exact Cell.get_map _ _
  rw [exec_get, hget]
  intro members
  rw [hget]
  cases keys.state.get now with
  | none => nofun
  | some state => cases state <;> nofun

theorem get_openSince {keys : BreakerKeys} (h : HoldsBreaker rt url keys store) :
    KeyCommand.exec num now (store (slotKey rt url .openSince)) .get =
      (.value ((keys.openSince.get now).map .instant), store (slotKey rt url .openSince)) := by
  have hget : (store (slotKey rt url .openSince)).get now =
      (keys.openSince.get now).map .instant := by
    rw [h .openSince]
    exact Cell.get_map _ _
  rw [exec_get, hget]
  intro members
  rw [hget]
  cases keys.openSince.get now <;> nofun

theorem sinceOf_instant (since : Option Time) :
    sinceOf num (.value (since.map .instant)) = some (since.getD 0) := by
  cases since <;> rfl

theorem exec_setnx_half {keys : BreakerKeys} (h : HoldsBreaker rt url keys store) :
    KeyCommand.exec num now (store (slotKey rt url .halfTested)) (.setnx (.text "1") none) =
      (.flag (keys.halfTested.setnx now ()).1,
        (keys.halfTested.setnx now ()).2.map (fun _ => .text "1")) := by
  have hsetnx := Cell.setnx_map (f := fun _ : Unit => RedisValue.text "1") keys.halfTested now ()
  rw [h .halfTested]
  simp only [KeyCommand.exec, slotCell, hsetnx]

theorem isOpen_run {keys : BreakerKeys} (h : HoldsBreaker rt url keys store) :
    ∃ store', (isOpenProgram rt num settings url).run (redis num) now store =
        (some (isOpen settings.toSettings now keys).1, store') ∧
      HoldsBreaker rt url (isOpen settings.toSettings now keys).2 store' := by
  unfold isOpenProgram isOpen
  simp only [run_send, exec_on, get_state h, Function.update_eq_self]
  cases keys.state.get now with
  | none => exact ⟨store, rfl, h⟩
  | some state =>
      cases state with
      | OPEN =>
          simp only [Option.map_some, stateText, if_true, run_send, exec_on, get_openSince h,
            Function.update_eq_self, sinceOf_instant, run_clock]
          split
          · exact ⟨_, rfl, h.setState _⟩
          · exact ⟨store, rfl, h⟩
      | HALF_OPEN =>
          have hne : ¬ RedisValue.text "HALF_OPEN" = .text "OPEN" := by decide
          simp only [Option.map_some, stateText, if_neg hne, if_true, run_send, exec_on,
            exec_setnx_half h]
          exact ⟨_, rfl, h.setHalfTested _⟩

theorem recordSuccess_run :
    ∃ store', (recordSuccessProgram rt url).run (redis num) now store = (some true, store') ∧
      HoldsBreaker rt url recordSuccess store' := by
  refine ⟨_, rfl, fun slot => ?_⟩
  show (if slotKey rt url slot ∈ _ then Cell.empty else store (slotKey rt url slot)) = _
  rw [if_pos (by cases slot <;> simp)]
  cases slot <;> rfl

theorem recordFailure_run {keys : BreakerKeys} (h : HoldsBreaker rt url keys store) :
    ∃ store', (recordFailureProgram rt settings url).run (redis num) now store =
        (some true, store') ∧
      HoldsBreaker rt url (recordFailure settings.toSettings now keys) store' := by
  have hfailures : store (slotKey rt url .failures) = keys.failures.map .count := h .failures
  unfold recordFailureProgram recordFailure
  simp only [run_send, exec_on, hfailures, exec_incr, Function.update_self, exec_expire,
    Function.update_idem]
  split
  · exact ⟨_, rfl, ((h.setFailures _).setState _).setOpenSince _⟩
  · exact ⟨_, rfl, h.setFailures _⟩

/-! ## The rate limiter and the reservations -/

theorem allowRequest_run {key : RedisKey} {maxRpm : Option ℤ} {member : UUID}
    {window : Limits.WindowKey} (h : store (key.text rt) = window.map .window) :
    ∃ store', (allowRequestProgram rt settings key maxRpm member).run (redis num) now store =
        (some (Limits.allowRequest settings.toSettings maxRpm member now now window).1, store') ∧
      store' (key.text rt) =
        (Limits.allowRequest settings.toSettings maxRpm member now now window).2.map .window := by
  have hdecode : (window.map RedisValue.window).decode RedisValue.window? now = some window :=
    Cell.decode_map (f := RedisValue.window) (fun _ => rfl) window now
  unfold allowRequestProgram Limits.allowRequest
  dsimp only
  split
  · exact ⟨store, rfl, h⟩
  · simp only [run_clock, run_send, exec_on, h, KeyCommand.exec, hdecode]
    exact ⟨_, rfl, Function.update_self _ _ _⟩

theorem reserve_run {endpointId : UUID} {key : String} {reservation : Cell Time Unit}
    (h : store ((RedisKey.idempotency endpointId key).text rt) =
      reservation.map (fun _ => .text "1")) :
    ∃ store', (reserveProgram rt settings endpointId key).run (redis num) now store =
        (some (reservation.setnxEx now () (now + settings.idempotencyTtlS)).1, store') ∧
      store' (Gateway.dedupKey endpointId key) =
        (reservation.setnxEx now () (now + settings.idempotencyTtlS)).2.map
          (fun _ => .text "1") := by
  have hsetnx := Cell.setnxEx_map (f := fun _ : Unit => RedisValue.text "1") reservation now ()
    (now + settings.idempotencyTtlS)
  unfold reserveProgram
  simp only [run_send, exec_on, h, KeyCommand.exec, hsetnx]
  exact ⟨_, rfl, Function.update_self _ _ _⟩

/-! ## Throttling -/

/-- The store holds the counters under these texts. -/
def HoldsCounters (K : Set String) (counters : AuthCounters) (store : String → RedisCell) : Prop :=
  ∀ k ∈ K, store k = (counters k).map .count

theorem holdsCounters_update {K : Set String} {counters : AuthCounters} {c : Cell Time ℕ}
    (h : HoldsCounters K counters store) :
    HoldsCounters K (Function.update counters key c)
      (Function.update store key (c.map .count)) := by
  intro k hk
  by_cases hkey : k = key
  · rw [hkey, Function.update_self, Function.update_self]
  · rw [Function.update_of_ne hkey, Function.update_of_ne hkey]
    exact h k hk

/-- Where a call ends that has not been cut off. -/
def ended (passed : Bool) : AuthPhase := if passed then .passed else .refused

/-- The calls of `authCommand` and the program of the loop, side by side. -/
theorem checkKeys_run (num : Numerals) (settings : AuthSettings) (now : Time) {K : Set String}
    {keys : List String} {counters : AuthCounters}
    (hK : ∀ k ∈ keys, k ∈ K) (h : HoldsCounters K counters store) :
    ∃ n ≤ 2 * keys.length, ∃ passed counters' store',
      (authCommand settings now)^[n] (.loop keys, counters) = (ended passed, counters') ∧
      (checkKeys settings keys).run (redis num) now store = (some passed, store') ∧
      HoldsCounters K counters' store' := by
  induction keys generalizing counters store with
  | nil => exact ⟨0, le_rfl, true, counters, store, rfl, rfl, h⟩
  | cons key rest ih =>
      -- the comparison with the limit, and the keys after this one
      have hnext : ∀ (count : ℕ) {counters store}, HoldsCounters K counters store →
          ∃ n ≤ 2 * rest.length, ∃ passed counters' store',
            (authCommand settings now)^[n] (.afterCount settings count rest, counters) =
              (ended passed, counters') ∧
            (if settings.authRateLimitPerMinute < count then .ended (some false)
              else checkKeys settings rest : RelayProgram).run (redis num) now store =
              (some passed, store') ∧
            HoldsCounters K counters' store' := by
        intro count counters store hheld
        unfold AuthPhase.afterCount
        split
        · exact ⟨0, Nat.zero_le _, false, counters, store, rfl, rfl, hheld⟩
        · exact ih (fun k hk => hK k (List.mem_cons_of_mem _ hk)) hheld
      have hcell : store key = (counters key).map .count := h key (hK key List.mem_cons_self)
      have hcounted : HoldsCounters K (Function.update counters key ((counters key).incr now).2)
          (Function.update store key (((counters key).incr now).2.map .count)) :=
        holdsCounters_update h
      unfold checkKeys
      simp only [run_send, exec_on, hcell, exec_incr]
      by_cases hfirst : ((counters key).incr now).1 = 1
      · have hexpiring : HoldsCounters K
            (Function.update (Function.update counters key ((counters key).incr now).2) key
              (((counters key).incr now).2.expire now (now + 60))) _ :=
          holdsCounters_update hcounted
        obtain ⟨n, hn, passed, counters', store', hphase, hrun, hheld⟩ := hnext 1 hexpiring
        refine ⟨n + 2, by simp only [List.length_cons]; omega, passed, counters', store', ?_, ?_,
          hheld⟩
        · rw [Function.iterate_add_apply, ← hphase]
          simp [AuthPhase.loop, authCommand, hfirst]
        · rw [hfirst, if_pos rfl]
          simp only [run_send, exec_on, Function.update_self, exec_expire]
          exact hrun
      · obtain ⟨n, hn, passed, counters', store', hphase, hrun, hheld⟩ :=
          hnext ((counters key).incr now).1 hcounted
        refine ⟨n + 1, by simp only [List.length_cons]; omega, passed, counters', store', ?_, ?_,
          hheld⟩
        · rw [Function.iterate_add_apply, ← hphase]
          simp [AuthPhase.loop, authCommand, hfirst]
        · rw [if_neg hfirst]
          exact hrun

theorem checkAuth_run {attempt : AuthAttempt} {counters : AuthCounters}
    (h : HoldsCounters (ownTexts rt (.checkAuth attempt)) counters store) :
    ∃ passed store', ((RedisOp.checkAuth attempt).program rt num settings).run (redis num) now
        store = (some passed, store') ∧
      attempt.check rt settings now counters = ended passed := by
  obtain ⟨n, hn, passed, counters', store', hphase, hrun, _⟩ :=
    checkKeys_run num settings now (authKeys_own attempt) h
  refine ⟨passed, store', hrun, ?_⟩
  have hfour : 4 = (4 - n) + n := by
    have hlength : (attempt.keys rt).length = 2 := rfl
    omega
  unfold AuthAttempt.check
  rw [hfour, Function.iterate_add_apply, hphase]
  cases passed with
  | true => rw [Function.iterate_fixed rfl]
  | false => exact iterate_refused _

/-! ## The block list of tokens -/

theorem str_ne_empty (id : UUID) : id.str ≠ "" := by
  intro h
  have hlength := UUID.length_str id
  rw [h] at hlength
  cases hlength

theorem isRevoked_run {keys : Revocations} {jti : UUID}
    (h : store ((RedisKey.revoked jti.str).text rt) = (keys jti).map .text) :
    (isRevokedProgram rt jti.str).run (redis num) now store =
      (some (isRevoked (some keys) jti now), store) := by
  unfold isRevokedProgram
  rw [if_neg (str_ne_empty jti)]
  simp only [run_send, exec_on, KeyCommand.exec, h, Cell.get_map, Option.isSome_map, run_ended,
    isRevoked]
  rw [← h, Function.update_eq_self]

theorem logout_run {keys : Revocations} {token : AccessToken}
    (h : store ((RedisKey.revoked token.jti.str).text rt) = (keys token.jti).map .text) :
    ∃ store', (logoutProgram rt token.jti.str token.exp).run (redis num) now store =
        (some true, store') ∧
      store' ((RedisKey.revoked token.jti.str).text rt) =
        (if 0 < entryTtl token now then (keys token.jti).setEx "1" (now + entryTtl token now)
          else keys token.jti).map .text := by
  unfold logoutProgram entryTtl
  by_cases hexp : token.exp = 0
  · refine ⟨store, by simp [hexp], ?_⟩
    simpa [hexp] using h
  · rw [if_neg (by simp [hexp, str_ne_empty]), if_neg hexp]
    simp only [run_clock]
    by_cases httl : 0 < ⌊(token.exp : Time) - now⌋
    · rw [if_pos httl, max_eq_right httl.le, if_pos httl]
      exact ⟨_, rfl, Function.update_self _ _ _⟩
    · rw [if_neg httl, max_eq_left (not_lt.mp httl), if_neg (lt_irrefl 0)]
      exact ⟨store, rfl, h⟩

end WebhookRelay.Pipeline
