import WebhookRelay.Api.Ownership
import WebhookRelay.Foundation.Cell
import WebhookRelay.Foundation.Machine

/-!
# Throttling of logins and registrations

`_check_auth_rate_limit` counts an attempt under its address and under its
e-mail. The call whose `INCR` creates a counter gives it its expiry with a
command of its own, and no other call ever does: what is cut off between the
two leaves a counter that lasts. Any number of calls run at once, each a
command at a time, and each can be cut off before any command.
-/

namespace WebhookRelay.Api

open Foundation

/-- With the limit of `config.py`, which only this check reads. -/
structure AuthSettings extends Settings where
  authRateLimitPerMinute : ℤ := 10

inductive AuthAction where
  | login
  | register
  deriving DecidableEq

def AuthAction.str : AuthAction → String
  | login => "login"
  | register => "register"

/-- `client` is `request.client.host`, if the request has a client. -/
structure AuthAttempt where
  action : AuthAction
  client : Option String
  email : String

section Calls

variable (rt : AccountRuntime) (settings : AuthSettings)

def AuthAttempt.ipKey (attempt : AuthAttempt) : String :=
  "auth-rl:" ++ attempt.action.str ++ ":ip:" ++ attempt.client.getD "unknown"

def AuthAttempt.emailKey (attempt : AuthAttempt) : String :=
  "auth-rl:" ++ attempt.action.str ++ ":email:" ++ normalizeEmail rt attempt.email

def AuthAttempt.keys (attempt : AuthAttempt) : List String :=
  [attempt.ipKey, attempt.emailKey rt]

/-- Where a call stands: before the `INCR` of a key, with the keys after it, or
before the `EXPIRE` of a key whose count was 1. -/
inductive AuthPhase where
  | absent
  | incr (key : String) (rest : List String)
  | expire (key : String) (rest : List String)
  | passed
  /-- 429 "too many authentication attempts". -/
  | refused
  /-- A Redis error, or the end of the process. -/
  | cut
  deriving DecidableEq

/-- The top of `for key in keys`. -/
def AuthPhase.loop : List String → AuthPhase
  | [] => .passed
  | key :: rest => .incr key rest

/-- `count > settings.auth_rate_limit_per_minute`, and the next turn. -/
def AuthPhase.afterCount (count : ℕ) (rest : List String) : AuthPhase :=
  if settings.authRateLimitPerMinute < count then .refused else .loop rest

abbrev AuthCounters := String → Cell Time ℕ

/-- The next Redis command of a call. -/
def authCommand (now : Time) (c : AuthPhase × AuthCounters) : AuthPhase × AuthCounters :=
  match c.1 with
  | .incr key rest =>
      let (count, cell) := (c.2 key).incr now
      (if count = 1 then .expire key rest else .afterCount settings count rest,
        Function.update c.2 key cell)
  | .expire key rest =>
      (.afterCount settings 1 rest, Function.update c.2 key ((c.2 key).expire now (now + 60)))
  | phase => (phase, c.2)

/-- `_check_auth_rate_limit` with nothing in between: two commands a key. -/
def AuthAttempt.check (attempt : AuthAttempt) (now : Time) (counters : AuthCounters) : AuthPhase :=
  ((authCommand settings now)^[4] (.loop (attempt.keys rt), counters)).1

structure AuthState where
  now : Time
  counters : AuthCounters := fun _ => .empty
  calls : ℕ → AuthPhase := fun _ => .absent

inductive AuthLabel where
  | tick (now : Time)
  /-- `redis` is whether there is a client: without one nothing is counted. -/
  | arrive (i : ℕ) (attempt : AuthAttempt) (redis : Bool)
  | step (i : ℕ)
  | cut (i : ℕ)

def AuthPhase.running : AuthPhase → Bool
  | incr _ _ | expire _ _ => true
  | _ => false

def authNext (s : AuthState) : AuthLabel → Option AuthState
  | .tick now => if s.now ≤ now then some { s with now := now } else none
  | .arrive i attempt redis =>
      if s.calls i = .absent then
        let phase := if redis then .loop (attempt.keys rt) else .passed
        some { s with calls := Function.update s.calls i phase }
      else none
  | .step i =>
      if (s.calls i).running then
        let c := authCommand settings s.now (s.calls i, s.counters)
        some { s with calls := Function.update s.calls i c.1, counters := c.2 }
      else none
  | .cut i =>
      if (s.calls i).running then
        some { s with calls := Function.update s.calls i .cut }
      else none

def throttle : Machine AuthState AuthLabel where
  init := fun s => s = { now := s.now }
  next := authNext rt settings

end Calls

/-! ## What the moves of a run do to a counter -/

abbrev AuthMove := Move AuthState AuthLabel

/-- A command on the counter. -/
def CommandOn (key : String) (m : AuthMove) : Prop :=
  ∃ i rest, m.label = .step i ∧
    (m.src.calls i = .incr key rest ∨ m.src.calls i = .expire key rest)

/-- The `INCR` of a call that finds no counter. -/
def Creates (i : ℕ) (key : String) (m : AuthMove) : Prop :=
  m.label = .step i ∧ (∃ rest, m.src.calls i = .incr key rest) ∧
    (m.src.counters key).get m.src.now = none

/-- The `EXPIRE` of the call. -/
def Expires (i : ℕ) (key : String) (m : AuthMove) : Prop :=
  m.label = .step i ∧ ∃ rest, m.src.calls i = .expire key rest

/-- The call has created the counter and not given it its expiry. -/
abbrev Unfinished (i : ℕ) (key : String) (moves : List AuthMove) : Prop :=
  Pending (Creates i key) (Expires i key) moves

/-- Every counter that exists has an expiry, and an attempt for whose address
and e-mail no command is made in 60 s passes. -/
structure Temporary (rt : AccountRuntime) (settings : AuthSettings) (s : AuthState) : Prop where
  expires : ∀ key, ((s.counters key).get s.now).isSome = true →
    ∃ count expiry, (s.counters key).slot = some (count, some expiry)
  reopens : ∀ attempt moves t, (throttle rt settings).Run s moves t →
    (∀ m ∈ moves, ∀ key ∈ AuthAttempt.keys rt attempt, ¬ CommandOn key m) → s.now + 60 ≤ t.now →
    attempt.check rt settings t.now t.counters = .passed

variable {rt : AccountRuntime} {settings : AuthSettings} {s t : AuthState}
  {moves : List AuthMove} {m : AuthMove} {i j : ℕ} {key created : String}

/-! ## The next command -/

theorem afterCount_ne_expire {count : ℕ} {rest rest' : List String} :
    AuthPhase.afterCount settings count rest ≠ .expire key rest' := by
  unfold AuthPhase.afterCount
  split
  · nofun
  · cases rest <;> nofun

/-- With counts that are never 0, an `INCR` answers 1 only if it creates. -/
theorem authCommand_cases (settings : AuthSettings) {now : Time} {phase : AuthPhase} {counters : AuthCounters}
    (hpositive : ∀ key count, (counters key).get now = some count → 1 ≤ count)
    (hrunning : phase.running = true) :
    (∃ key rest, phase = .incr key rest ∧ (counters key).get now = none ∧
      authCommand settings now (phase, counters) =
        (.expire key rest, Function.update counters key ⟨some (1, none)⟩)) ∨
    (∃ key rest count expiry, phase = .incr key rest ∧ (counters key).get now = some count ∧
      (counters key).slot = some (count, expiry) ∧
      authCommand settings now (phase, counters) =
        (.afterCount settings (count + 1) rest,
          Function.update counters key ⟨some (count + 1, expiry)⟩)) ∨
    ∃ key rest, phase = .expire key rest ∧
      authCommand settings now (phase, counters) =
        (.afterCount settings 1 rest,
          Function.update counters key ((counters key).expire now (now + 60))) := by
  cases phase with
  | incr key rest =>
      cases hget : (counters key).get now with
      | none =>
          refine Or.inl ⟨key, rest, rfl, hget, ?_⟩
          simp only [authCommand, Cell.incr_of_get_none hget, if_true]
      | some count =>
          obtain ⟨expiry, hslot, hincr⟩ := Cell.incr_of_get_some hget
          have hcount := hpositive key count hget
          refine Or.inr (Or.inl ⟨key, rest, count, expiry, rfl, hget, hslot, ?_⟩)
          simp only [authCommand, hincr]
          rw [if_neg (by omega)]
  | expire key rest => exact Or.inr (Or.inr ⟨key, rest, rfl, rfl⟩)
  | absent | passed | refused | cut => cases hrunning

/-! ## Who is unfinished after a move -/

theorem unfinished_of_quiet (hcreates : ∀ i key, ¬ Creates i key m)
    (hexpires : ∀ i key, ¬ Expires i key m) :
    Unfinished i key (moves ++ [m]) ↔ Unfinished i key moves := by
  unfold Unfinished
  rw [pending_snoc]
  simp [hcreates, hexpires]

theorem unfinished_of_creates (h : Creates j created m) :
    Unfinished i key (moves ++ [m]) ↔ (i = j ∧ key = created) ∨ Unfinished i key moves := by
  obtain ⟨hlabel, ⟨rest, hphase⟩, habsent⟩ := h
  have hcreates : Creates i key m ↔ i = j ∧ key = created := by
    constructor
    · rintro ⟨hlabel', ⟨rest', hphase'⟩, _⟩
      obtain rfl : j = i := by simpa using hlabel.symm.trans hlabel'
      exact ⟨rfl, (AuthPhase.incr.inj (hphase'.symm.trans hphase)).1⟩
    · rintro ⟨rfl, rfl⟩
      exact ⟨hlabel, ⟨rest, hphase⟩, habsent⟩
  have hexpires : ¬ Expires i key m := by
    rintro ⟨hlabel', rest', hphase'⟩
    obtain rfl : j = i := by simpa using hlabel.symm.trans hlabel'
    cases hphase.symm.trans hphase'
  unfold Unfinished
  rw [pending_snoc, hcreates]
  simp [hexpires]

theorem unfinished_of_expires (h : Expires j created m) :
    Unfinished i key (moves ++ [m]) ↔ Unfinished i key moves ∧ ¬ (i = j ∧ key = created) := by
  obtain ⟨hlabel, rest, hphase⟩ := h
  have hexpires : Expires i key m ↔ i = j ∧ key = created := by
    constructor
    · rintro ⟨hlabel', rest', hphase'⟩
      obtain rfl : j = i := by simpa using hlabel.symm.trans hlabel'
      exact ⟨rfl, (AuthPhase.expire.inj (hphase'.symm.trans hphase)).1⟩
    · rintro ⟨rfl, rfl⟩
      exact ⟨hlabel, rest, hphase⟩
  have hcreates : ¬ Creates i key m := by
    rintro ⟨hlabel', ⟨rest', hphase'⟩, _⟩
    obtain rfl : j = i := by simpa using hlabel.symm.trans hlabel'
    cases hphase.symm.trans hphase'
  unfold Unfinished
  rw [pending_snoc, hexpires]
  simp [hcreates]

/-! ## The counters that last -/

/-- The counter never expires. -/
def Lasts (c : Cell Time ℕ) : Prop := ∃ count, c.slot = some (count, none)

/-- A counter has counted, and one that expires does so within 60 s. -/
def CounterOk (now : Time) (c : Cell Time ℕ) : Prop :=
  ∀ count expiry, c.slot = some (count, expiry) →
    1 ≤ count ∧ ∀ e, expiry = some e → e ≤ now + 60

theorem counterOk_some {now : Time} {count : ℕ} {expiry : Option Time} (hcount : 1 ≤ count)
    (hexpiry : ∀ e, expiry = some e → e ≤ now + 60) :
    CounterOk now ⟨some (count, expiry)⟩ := by
  rintro count' expiry' hslot
  obtain ⟨rfl, rfl⟩ := Prod.mk.inj (Option.some.inj hslot)
  exact ⟨hcount, hexpiry⟩

theorem not_lasts_expiring {count : ℕ} {expiry : Time} :
    ¬ Lasts ⟨some (count, some expiry)⟩ := by
  rintro ⟨_, hslot⟩
  cases hslot

theorem get_of_lasts {c : Cell Time ℕ} (h : Lasts c) (now : Time) : c.get now ≠ none := by
  obtain ⟨count, hslot⟩ := h
  simp [Cell.get, hslot, Cell.alive]

/-- A counter that lasts is one that a single call has left unfinished. -/
structure Counted (now : Time) (counters : AuthCounters) (calls : ℕ → AuthPhase)
    (moves : List AuthMove) : Prop where
  ok : ∀ key, CounterOk now (counters key)
  lasts : ∀ key, Lasts (counters key) ↔ ∃ i, Unfinished i key moves
  unique : ∀ i j key, Unfinished i key moves → Unfinished j key moves → i = j
  pending : ∀ i key rest, calls i = .expire key rest → Unfinished i key moves

theorem counted_start {now : Time} : Counted now (fun _ => .empty) (fun _ => .absent) [] := by
  refine ⟨nofun, ?_, ?_, nofun⟩
  · intro key
    constructor
    · rintro ⟨_, hslot⟩
      cases hslot
    · rintro ⟨_, hpending⟩
      exact absurd hpending not_pending_nil
  · intro i j key hpending
    exact absurd hpending not_pending_nil

theorem Counted.one_le {now : Time} {counters : AuthCounters} {calls : ℕ → AuthPhase}
    (h : Counted now counters calls moves) (key : String) (count : ℕ)
    (hget : (counters key).get now = some count) : 1 ≤ count := by
  obtain ⟨⟨_, expiry⟩, hslot, rfl⟩ := Option.map_eq_some_iff.mp (Cell.slot_of_get_some hget)
  exact (h.ok key _ expiry hslot).1

section Moves

variable {now later : Time} {counters : AuthCounters} {calls calls' : ℕ → AuthPhase}
  {phase : AuthPhase} {rest : List String}

/-- A call that comes to something else leaves the others before theirs. -/
theorem expire_of_update (hphase : ∀ key rest, phase ≠ .expire key rest)
    (h : Function.update calls j phase i = .expire key rest) :
    calls i = .expire key rest ∧ i ≠ j := by
  by_cases hij : i = j
  · subst hij
    rw [Function.update_self] at h
    exact absurd h (hphase key rest)
  · rw [Function.update_of_ne hij] at h
    exact ⟨h, hij⟩

/-- A move that is not a command: no counter changes, and no call comes to an
`EXPIRE`. -/
theorem counted_of_quiet (h : Counted now counters calls moves)
    (hquiet : ∀ i, m.label ≠ .step i) (hnow : now ≤ later)
    (hcalls : ∀ i key rest, calls' i = .expire key rest → calls i = .expire key rest) :
    Counted later counters calls' (moves ++ [m]) := by
  have hsame : ∀ i key, Unfinished i key (moves ++ [m]) ↔ Unfinished i key moves :=
    fun i key => unfinished_of_quiet (fun i key hc => hquiet i hc.1) (fun i key he => hquiet i he.1)
  refine ⟨?_, ?_, ?_, ?_⟩
  · intro key count expiry hslot
    obtain ⟨hcount, hexpiry⟩ := h.ok key count expiry hslot
    exact ⟨hcount, fun e he => by linarith [hexpiry e he]⟩
  · intro key
    rw [h.lasts]
    exact exists_congr (fun i => (hsame i key).symm)
  · intro i j key hi hj
    exact h.unique i j key ((hsame i key).mp hi) ((hsame j key).mp hj)
  · intro i key rest hphase
    exact (hsame i key).mpr (h.pending i key rest (hcalls i key rest hphase))

theorem counted_of_creates (h : Counted now counters calls moves) (hcreates : Creates j created m)
    (hget : (counters created).get now = none) :
    Counted now (Function.update counters created ⟨some (1, none)⟩)
      (Function.update calls j (.expire created rest)) (moves ++ [m]) := by
  have hafter : ∀ i key, Unfinished i key (moves ++ [m]) ↔
      (i = j ∧ key = created) ∨ Unfinished i key moves := fun i key =>
    unfinished_of_creates hcreates
  -- a counter that lasts would have been there
  have hfree : ∀ i, ¬ Unfinished i created moves := fun i hi =>
    get_of_lasts ((h.lasts created).mpr ⟨i, hi⟩) now hget
  refine ⟨?_, ?_, ?_, ?_⟩
  · rw [Function.forall_update_iff counters (fun _ c => CounterOk now c)]
    exact ⟨counterOk_some le_rfl nofun, fun key _ => h.ok key⟩
  · intro key
    by_cases hkey : key = created
    · subst hkey
      simp [hafter, Lasts]
    · rw [Function.update_of_ne hkey, h.lasts]
      exact exists_congr (fun i => by simp [hafter, hkey])
  · intro i k key hi hk
    rcases (hafter i key).mp hi with ⟨rfl, rfl⟩ | hi
    · rcases (hafter k key).mp hk with ⟨rfl, _⟩ | hk
      · rfl
      · exact absurd hk (hfree k)
    · rcases (hafter k key).mp hk with ⟨rfl, rfl⟩ | hk
      · exact absurd hi (hfree i)
      · exact h.unique i k key hi hk
  · intro i key rest' hi
    rw [hafter]
    by_cases hij : i = j
    · subst hij
      rw [Function.update_self] at hi
      exact Or.inl ⟨rfl, (AuthPhase.expire.inj hi).1.symm⟩
    · rw [Function.update_of_ne hij] at hi
      exact Or.inr (h.pending i key rest' hi)

/-- A counter that is there counts on, with the expiry it has. -/
theorem counted_of_counts {count : ℕ} {expiry : Option Time}
    (h : Counted now counters calls moves) (hcreates : ∀ i key, ¬ Creates i key m)
    (hexpires : ∀ i key, ¬ Expires i key m)
    (hslot : (counters created).slot = some (count, expiry))
    (hnext : ∀ key rest, phase ≠ .expire key rest) :
    Counted now (Function.update counters created ⟨some (count + 1, expiry)⟩)
      (Function.update calls j phase) (moves ++ [m]) := by
  have hsame : ∀ i key, Unfinished i key (moves ++ [m]) ↔ Unfinished i key moves :=
    fun i key => unfinished_of_quiet hcreates hexpires
  refine ⟨?_, ?_, ?_, ?_⟩
  · rw [Function.forall_update_iff counters (fun _ c => CounterOk now c)]
    exact ⟨counterOk_some (Nat.le_add_left 1 count) (h.ok created count expiry hslot).2,
      fun key _ => h.ok key⟩
  · intro key
    rw [exists_congr (fun i => hsame i key), ← h.lasts]
    by_cases hkey : key = created
    · subst hkey
      simp [Lasts, hslot]
    · rw [Function.update_of_ne hkey]
  · intro i k key hi hk
    exact h.unique i k key ((hsame i key).mp hi) ((hsame k key).mp hk)
  · intro i key rest' hi
    exact (hsame i key).mpr (h.pending i key rest' (expire_of_update hnext hi).1)

theorem counted_of_expires (h : Counted now counters calls moves) (hexpires : Expires j created m)
    (hphase : calls j = .expire created rest) (hnext : ∀ key rest, phase ≠ .expire key rest) :
    Counted now
      (Function.update counters created ((counters created).expire now (now + 60)))
      (Function.update calls j phase) (moves ++ [m]) := by
  have hafter : ∀ i key, Unfinished i key (moves ++ [m]) ↔
      Unfinished i key moves ∧ ¬ (i = j ∧ key = created) := fun i key =>
    unfinished_of_expires hexpires
  -- the call has left the counter without an expiry, and nobody else has
  have howner : Unfinished j created moves := h.pending j created rest hphase
  obtain ⟨count, hslot⟩ := (h.lasts created).mpr ⟨j, howner⟩
  rw [Cell.expire_of_lasting hslot]
  refine ⟨?_, ?_, ?_, ?_⟩
  · rw [Function.forall_update_iff counters (fun _ c => CounterOk now c)]
    refine ⟨counterOk_some (h.ok created count none hslot).1 ?_, fun key _ => h.ok key⟩
    rintro e he
    exact le_of_eq (Option.some.inj he).symm
  · intro key
    by_cases hkey : key = created
    · subst hkey
      rw [Function.update_self, iff_false_left not_lasts_expiring]
      rintro ⟨i, hi⟩
      obtain ⟨hopen, hnot⟩ := (hafter i key).mp hi
      exact hnot ⟨h.unique i j key hopen howner, rfl⟩
    · rw [Function.update_of_ne hkey, h.lasts]
      exact exists_congr (fun i => by simp [hafter, hkey])
  · intro i k key hi hk
    exact h.unique i k key ((hafter i key).mp hi).1 ((hafter k key).mp hk).1
  · intro i key rest' hi
    obtain ⟨hbefore, hij⟩ := expire_of_update hnext hi
    exact (hafter i key).mpr ⟨h.pending i key rest' hbefore, fun hboth => hij hboth.1⟩

end Moves

/-! ## Runs -/

theorem counted_step {a : AuthLabel} (h : Counted s.now s.counters s.calls moves)
    (hstep : authNext rt settings s a = some t) :
    Counted t.now t.counters t.calls (moves ++ [⟨s, a, t⟩]) := by
  cases a with
  | tick now =>
      simp only [authNext, Option.ite_none_right_eq_some, Option.some.injEq] at hstep
      obtain ⟨hnow, rfl⟩ := hstep
      exact counted_of_quiet h nofun hnow (fun _ _ _ hphase => hphase)
  | arrive i attempt redis =>
      simp only [authNext, Option.ite_none_right_eq_some, Option.some.injEq] at hstep
      obtain ⟨_, rfl⟩ := hstep
      refine counted_of_quiet h nofun le_rfl (fun j key rest hj => (expire_of_update ?_ hj).1)
      cases redis <;> nofun
  | cut i =>
      simp only [authNext, Option.ite_none_right_eq_some, Option.some.injEq] at hstep
      obtain ⟨_, rfl⟩ := hstep
      refine counted_of_quiet h nofun le_rfl (fun j key rest hj => (expire_of_update ?_ hj).1)
      nofun
  | step i =>
      simp only [authNext, Option.ite_none_right_eq_some, Option.some.injEq] at hstep
      obtain ⟨hrunning, rfl⟩ := hstep
      rcases authCommand_cases settings h.one_le hrunning with
        ⟨key, rest, hphase, hget, hcommand⟩ |
        ⟨key, rest, count, expiry, hphase, hget, hslot, hcommand⟩ | ⟨key, rest, hphase, hcommand⟩
      · rw [hcommand]
        exact counted_of_creates h ⟨rfl, ⟨rest, hphase⟩, hget⟩ hget
      · rw [hcommand]
        refine counted_of_counts h ?_ ?_ hslot (fun _ _ => afterCount_ne_expire)
        · rintro j key' ⟨hlabel, ⟨rest', hphase'⟩, habsent⟩
          obtain rfl := AuthLabel.step.inj hlabel
          obtain ⟨rfl, _⟩ := AuthPhase.incr.inj (hphase.symm.trans hphase')
          cases hget.symm.trans habsent
        · rintro j key' ⟨hlabel, rest', hphase'⟩
          obtain rfl := AuthLabel.step.inj hlabel
          cases hphase.symm.trans hphase'
      · rw [hcommand]
        exact counted_of_expires h ⟨rfl, rest, hphase⟩ hphase (fun _ _ => afterCount_ne_expire)

theorem counted_run (hs : (throttle rt settings).init s)
    (run : (throttle rt settings).Run s moves t) :
    Counted t.now t.counters t.calls moves := by
  induction run with
  | nil =>
      have hstart : s = { now := s.now } := hs
      rw [hstart]
      exact counted_start
  | snoc _ hstep ih => exact counted_step ih hstep

/-- A call that is not cut off stands before the `EXPIRE` of what it has left
unfinished. -/
theorem expire_of_unfinished (hs : (throttle rt settings).init s)
    (run : (throttle rt settings).Run s moves t) (huncut : ∀ m ∈ moves, m.label ≠ .cut i)
    (h : Unfinished i key moves) : ∃ rest, t.calls i = .expire key rest := by
  induction run with
  | nil => exact absurd h not_pending_nil
  | @snoc moves u a v run hstep ih =>
      have hbefore := ih (fun m hm => huncut m (List.mem_append_left _ hm))
      have hlast : a ≠ .cut i := huncut _ (List.mem_append_right _ (List.mem_singleton_self _))
      have hnext : authNext rt settings u a = some v := hstep
      by_cases hown : a = .step i
      · subst hown
        simp only [authNext, Option.ite_none_right_eq_some, Option.some.injEq] at hnext
        obtain ⟨hrunning, rfl⟩ := hnext
        rcases authCommand_cases settings (counted_run hs run).one_le hrunning with
          ⟨created, rest, hphase, hget, hcommand⟩ |
          ⟨created, rest, count, expiry, hphase, hget, _, hcommand⟩ |
          ⟨created, rest, hphase, hcommand⟩
        · rcases (unfinished_of_creates ⟨rfl, ⟨rest, hphase⟩, hget⟩).mp h with ⟨_, rfl⟩ | hold
          · refine ⟨rest, ?_⟩
            rw [hcommand]
            exact Function.update_self ..
          · obtain ⟨rest', hphase'⟩ := hbefore hold
            cases hphase.symm.trans hphase'
        · -- the count of a counter that is there: `i` stood before an `INCR`
          rcases pending_snoc.mp h with ⟨_, ⟨rest', hphase'⟩, habsent⟩ | ⟨hold, _⟩
          · obtain ⟨rfl, _⟩ := AuthPhase.incr.inj (hphase.symm.trans hphase')
            cases hget.symm.trans habsent
          · obtain ⟨rest', hphase'⟩ := hbefore hold
            cases hphase.symm.trans hphase'
        · obtain ⟨hold, hother⟩ := (unfinished_of_expires ⟨rfl, rest, hphase⟩).mp h
          obtain ⟨rest', hphase'⟩ := hbefore hold
          obtain ⟨rfl, _⟩ := AuthPhase.expire.inj (hphase.symm.trans hphase')
          exact absurd ⟨rfl, rfl⟩ hother
      · have hold : Unfinished i key moves := by
          rcases pending_snoc.mp h with hcreates | ⟨hold, _⟩
          · exact absurd hcreates.1 hown
          · exact hold
        obtain ⟨rest, hphase⟩ := hbefore hold
        refine ⟨rest, ?_⟩
        cases a with
        | tick now =>
            simp only [authNext, Option.ite_none_right_eq_some, Option.some.injEq] at hnext
            obtain ⟨_, rfl⟩ := hnext
            exact hphase
        | arrive j attempt redis =>
            simp only [authNext, Option.ite_none_right_eq_some, Option.some.injEq] at hnext
            obtain ⟨habsent, rfl⟩ := hnext
            have hij : i ≠ j := by
              rintro rfl
              cases habsent.symm.trans hphase
            exact (Function.update_of_ne hij _ _).trans hphase
        | step j | cut j =>
            simp only [authNext, Option.ite_none_right_eq_some, Option.some.injEq] at hnext
            obtain ⟨_, rfl⟩ := hnext
            have hij : i ≠ j := by
              rintro rfl
              first | exact hown rfl | exact hlast rfl
            exact (Function.update_of_ne hij _ _).trans hphase

/-- A counter on which there is no command stays as it is. -/
theorem counters_of_quiet (run : (throttle rt settings).Run s moves t)
    (hquiet : ∀ m ∈ moves, ¬ CommandOn key m) : t.counters key = s.counters key := by
  induction run with
  | nil => rfl
  | @snoc moves u a v _ hstep ih =>
      have hbefore := ih (fun m hm => hquiet m (List.mem_append_left _ hm))
      have hlast : ¬ CommandOn key ⟨u, a, v⟩ :=
        hquiet _ (List.mem_append_right _ (List.mem_singleton_self _))
      rw [← hbefore]
      have hnext : authNext rt settings u a = some v := hstep
      cases a with
      | tick now | arrive i attempt redis | cut i =>
          simp only [authNext, Option.ite_none_right_eq_some, Option.some.injEq] at hnext
          obtain ⟨_, rfl⟩ := hnext
          rfl
      | step i =>
          simp only [authNext, Option.ite_none_right_eq_some, Option.some.injEq] at hnext
          obtain ⟨hrunning, rfl⟩ := hnext
          cases hphase : u.calls i with
          | incr other rest =>
              have hne : key ≠ other := by
                rintro rfl
                exact hlast ⟨i, rest, rfl, Or.inl hphase⟩
              exact Function.update_of_ne hne _ _
          | expire other rest =>
              have hne : key ≠ other := by
                rintro rfl
                exact hlast ⟨i, rest, rfl, Or.inr hphase⟩
              exact Function.update_of_ne hne _ _
          | absent | passed | refused | cut =>
              rw [hphase] at hrunning
              cases hrunning

/-! ## An attempt on its own -/

theorem ipKey_ne_emailKey (attempt : AuthAttempt) : attempt.ipKey ≠ attempt.emailKey rt := by
  intro heq
  have hlist := congrArg String.toList heq
  simp only [AuthAttempt.ipKey, AuthAttempt.emailKey, String.toList_append] at hlist
  cases haction : attempt.action <;> simp [haction, AuthAction.str] at hlist

theorem afterCount_of_lt {count : ℕ} {rest : List String}
    (h : settings.authRateLimitPerMinute < count) :
    AuthPhase.afterCount settings count rest = .refused :=
  if_pos h

/-- A refused call stays refused. -/
theorem iterate_refused {now : Time} {counters : AuthCounters} (n : ℕ) :
    ((authCommand settings now)^[n] (.refused, counters)).1 = .refused := by
  rw [Function.iterate_fixed rfl]

/-- Both counters gone, the attempt is the first one of each. -/
theorem check_of_absent {attempt : AuthAttempt} {now : Time} {counters : AuthCounters}
    (hlimit : 1 ≤ settings.authRateLimitPerMinute)
    (habsent : ∀ key ∈ attempt.keys rt, (counters key).get now = none) :
    attempt.check rt settings now counters = .passed := by
  have hip := habsent (attempt.ipKey) (by simp [AuthAttempt.keys])
  have hemail := habsent (attempt.emailKey rt) (by simp [AuthAttempt.keys])
  have hne : attempt.emailKey rt ≠ attempt.ipKey := (ipKey_ne_emailKey attempt).symm
  have hnot : ¬ settings.authRateLimitPerMinute < ((1 : ℕ) : ℤ) := not_lt.mpr hlimit
  simp only [AuthAttempt.check, AuthAttempt.keys, AuthPhase.loop, Function.iterate_succ_apply,
    Function.iterate_zero_apply, authCommand, Cell.incr_of_get_none hip, if_true,
    AuthPhase.afterCount, if_neg hnot, Function.update_of_ne hne, Cell.incr_of_get_none hemail]

theorem check_of_limit {attempt : AuthAttempt} {now : Time} {counters : AuthCounters}
    (hlimit : settings.authRateLimitPerMinute < 1) :
    attempt.check rt settings now counters = .refused := by
  have hrefused : ∀ (count : ℕ) rest, 1 ≤ count →
      AuthPhase.afterCount settings count rest = .refused := by
    intro count rest hcount
    exact afterCount_of_lt (hlimit.trans_le (by exact_mod_cast hcount))
  unfold AuthAttempt.check AuthAttempt.keys
  rw [AuthPhase.loop, Function.iterate_succ_apply]
  simp only [authCommand]
  split
  -- the counter is new: refused after its `EXPIRE`
  · rw [Function.iterate_succ_apply]
    simp only [authCommand, hrefused 1 _ le_rfl]
    exact iterate_refused 2
  · rw [hrefused _ _ (by rw [Cell.incr_fst]; omega)]
    exact iterate_refused 3

/-! ## When throttling is temporary -/

/-- Of any run: no counter is left unfinished, and the limit lets an attempt
pass at all. -/
theorem temporary_iff (hs : (throttle rt settings).init s)
    (run : (throttle rt settings).Run s moves t) :
    Temporary rt settings t ↔
      (∀ i key, ¬ Unfinished i key moves) ∧ 1 ≤ settings.authRateLimitPerMinute := by
  have hcounted := counted_run hs run
  constructor
  · intro h
    constructor
    · intro i key hunfinished
      have hlasts : Lasts (t.counters key) := (hcounted.lasts key).mpr ⟨i, hunfinished⟩
      obtain ⟨count, expiry, hslot⟩ := h.expires key
        (Option.isSome_iff_ne_none.mpr (get_of_lasts hlasts t.now))
      obtain ⟨count', hslot'⟩ := hlasts
      cases hslot.symm.trans hslot'
    -- a minute later, with nothing in between, an attempt passes
    · by_contra hlimit
      have htick : (throttle rt settings).next t (.tick (t.now + 60)) =
          some { t with now := t.now + 60 } := by
        show (if t.now ≤ t.now + 60 then some _ else none) = _
        rw [if_pos (by linarith)]
      have hpassed := h.reopens ⟨.login, none, ""⟩ _ _ (Machine.Run.single htick) (by
        intro m hm key _ hcommand
        obtain ⟨i, rest, hlabel, _⟩ := hcommand
        rw [List.mem_singleton.mp hm] at hlabel
        cases hlabel) le_rfl
      cases (check_of_limit (not_le.mp hlimit)).symm.trans hpassed
  · rintro ⟨hfinished, hlimit⟩
    have hexpires : ∀ key count expiry, (t.counters key).slot = some (count, expiry) →
        ∃ e, expiry = some e := by
      intro key count expiry hslot
      cases expiry with
      | some e => exact ⟨e, rfl⟩
      | none =>
          obtain ⟨i, hi⟩ := (hcounted.lasts key).mp ⟨count, hslot⟩
          exact absurd hi (hfinished i key)
    constructor
    · intro key hpresent
      obtain ⟨count, hget⟩ := Option.isSome_iff_exists.mp hpresent
      obtain ⟨⟨_, expiry⟩, hslot, rfl⟩ := Option.map_eq_some_iff.mp (Cell.slot_of_get_some hget)
      obtain ⟨e, rfl⟩ := hexpires key _ expiry hslot
      exact ⟨_, e, hslot⟩
    · intro attempt later u hlater hquiet hnow
      apply check_of_absent hlimit
      intro key hkey
      rw [counters_of_quiet hlater (fun m hm => hquiet m hm key hkey)]
      cases hslot : (t.counters key).slot with
      | none => exact Cell.get_none_of_slot hslot u.now
      | some entry =>
          obtain ⟨count, expiry⟩ := entry
          obtain ⟨e, rfl⟩ := hexpires key count expiry hslot
          have he : e ≤ t.now + 60 := (hcounted.ok key count (some e) hslot).2 e rfl
          exact Cell.get_none_of_expiry_le hslot (he.trans hnow)

def annsLogin : AuthAttempt := ⟨.login, some "203.0.113.9", "ann@example.com"⟩

/-- A whole attempt, of `n` commands. -/
def attemptLabels (i n : ℕ) : List AuthLabel :=
  .arrive i annsLogin true :: List.replicate n (.step i)

/-- Two logins of the same address within a minute, none of them cut off. -/
def twoLogins : List AuthLabel := attemptLabels 0 4 ++ .tick 20 :: attemptLabels 1 2

theorem temporary_of_twoLogins :
    Temporary plainText {} ((throttle plainText {}).after { now := 0 } twoLogins) := by
  have hruns : ((throttle plainText {}).exec { now := 0 } twoLogins).isSome = true := by
    decide +kernel
  have hinit : (throttle plainText {}).init { now := 0 } := rfl
  have run := Machine.run_trace (Machine.exec_eq_after hruns)
  refine (temporary_iff hinit run).mpr ⟨?_, by decide⟩
  intro i key hunfinished
  have huncut : ∀ m ∈ (throttle plainText {}).trace { now := 0 } twoLogins,
      m.label ≠ .cut i :=
    Machine.forall_mem_trace (P := fun label => label ≠ AuthLabel.cut i)
      (by simp [twoLogins, attemptLabels])
  obtain ⟨rest, hphase⟩ := expire_of_unfinished hinit run huncut hunfinished
  -- only the two calls have created counters, and both have passed
  obtain ⟨before, m, after, htrace, hcreates, _⟩ := hunfinished
  have hm : m ∈ (throttle plainText {}).trace { now := 0 } twoLogins := by
    rw [htrace]
    exact List.mem_append_right _ List.mem_cons_self
  have hstep : .step i ∈ twoLogins := hcreates.1 ▸ Machine.label_mem_of_mem_trace hm
  have hcall : i = 0 ∨ i = 1 := by simpa [twoLogins, attemptLabels] using hstep
  have hpassed : ((throttle plainText {}).after { now := 0 } twoLogins).calls 0 = .passed ∧
      ((throttle plainText {}).after { now := 0 } twoLogins).calls 1 = .passed := by
    decide +kernel
  rcases hcall with rfl | rfl
  · cases hpassed.1.symm.trans hphase
  · cases hpassed.2.symm.trans hphase

/-- The first login is cut off behind its `INCR`; nine more pass. -/
def lockedOut : AuthState :=
  (throttle plainText {}).after { now := 0 }
    (attemptLabels 0 1 ++ .cut 0 :: attemptLabels 1 3 ++
      (List.range' 2 8).flatMap (fun i => attemptLabels i 2))

/-- A day later the address is still refused, and nothing will change that. -/
theorem locked_out :
    (throttle plainText {}).Reachable lockedOut ∧ ¬ Temporary plainText {} lockedOut ∧
      annsLogin.check plainText {} (lockedOut.now + 86400) lockedOut.counters = .refused := by
  have hfacts : ((throttle plainText {}).exec { now := 0 }
        (attemptLabels 0 1 ++ .cut 0 :: attemptLabels 1 3 ++
          (List.range' 2 8).flatMap (fun i => attemptLabels i 2))).isSome = true ∧
      (lockedOut.counters annsLogin.ipKey).slot = some (10, none) ∧
      annsLogin.check plainText {} (lockedOut.now + 86400) lockedOut.counters = .refused := by
    decide +kernel
  obtain ⟨hruns, hslot, hrefused⟩ := hfacts
  refine ⟨Machine.reachable_after rfl hruns, ?_, hrefused⟩
  intro h
  obtain ⟨count, expiry, hexpiring⟩ := h.expires annsLogin.ipKey
    (Option.isSome_iff_ne_none.mpr (get_of_lasts ⟨10, hslot⟩ _))
  cases hslot.symm.trans hexpiring

end WebhookRelay.Api
