import WebhookRelay.Api.AuthThrottle

/-!
# How many attempts get through

A counter is created at most once a minute: whoever gives it its expiry puts
it 60 s off, and until then it stays. One counter lets at most the limit of
calls past its key, the one that created it included, wherever the others
stand and whichever of them are cut off. `passes_le` is the bound for any
stretch of any run.
-/

namespace WebhookRelay.Api

open Foundation

/-- The move with which a call gets past the key. -/
def passes (key : String) (m : AuthMove) : Bool :=
  match m.label with
  | .step i =>
      match m.src.calls i with
      | .incr k rest | .expire k rest => k = key ∧ m.dst.calls i = .loop rest
      | _ => false
  | _ => false

/-- How far a counter has counted, expired or not. -/
def countOf (c : Cell Time ℕ) : ℕ := (c.slot.map Prod.fst).getD 0

/-- `n` calls have got past the key since `start`, under `k` new counters and
the one that may have been there. -/
structure Passed (limit : ℕ) (key : String) (start : Time) (k n : ℕ) (s : AuthState) : Prop where
  count : n ≤ limit * k + min (countOf (s.counters key)) limit
  /-- The call that created the counter may still be on its way. -/
  creator : ∀ i rest, s.calls i = .expire key rest → 1 ≤ limit →
    n + 1 ≤ limit * k + min (countOf (s.counters key)) limit
  spaced : k = 0 ∨ ∃ created count expiry, start + 60 * (k - 1) ≤ created ∧ created ≤ s.now ∧
    (s.counters key).slot = some (count, expiry) ∧ ∀ e, expiry = some e → created + 60 ≤ e

variable {rt : AccountRuntime} {settings : AuthSettings} {s t : AuthState}
  {moves : List AuthMove} {m : AuthMove} {i : ℕ} {key other : String} {limit k n : ℕ} {start : Time}

theorem loop_ne_expire {rest rest' : List String} : AuthPhase.loop rest ≠ .expire key rest' := by
  cases rest <;> nofun

theorem afterCount_eq_loop_iff {count : ℕ} {rest : List String} :
    AuthPhase.afterCount settings count rest = .loop rest ↔
      (count : ℤ) ≤ settings.authRateLimitPerMinute := by
  unfold AuthPhase.afterCount
  split
  · rename_i hover
    refine iff_of_false ?_ (not_le.mpr hover)
    cases rest <;> nofun
  · rename_i hunder
    exact iff_of_true rfl (not_lt.mp hunder)

/-! ## Moves that do not concern the key -/

/-- The counter stays, and no call comes to its `EXPIRE`. -/
theorem Passed.quiet (h : Passed limit key start k n s) (hnow : s.now ≤ t.now)
    (hcounter : t.counters key = s.counters key)
    (hcalls : ∀ i rest, t.calls i = .expire key rest → s.calls i = .expire key rest) :
    Passed limit key start k n t := by
  refine ⟨hcounter ▸ h.count, ?_, ?_⟩
  · intro i rest hphase hlimit
    rw [hcounter]
    exact h.creator i rest (hcalls i rest hphase) hlimit
  · refine h.spaced.imp id ?_
    rintro ⟨created, count, expiry, hcreated, hpast, hslot, hexpiry⟩
    exact ⟨created, count, expiry, hcreated, hpast.trans hnow, hcounter ▸ hslot, hexpiry⟩

/-- A move that is not a command on the key lets nobody past it. -/
theorem passes_of_not_command (hnot : ¬ CommandOn key m) : passes key m = false := by
  unfold passes
  split
  · rename_i i hlabel
    split
    · rename_i k rest hphase
      have hne : k ≠ key := by
        rintro rfl
        exact hnot ⟨i, rest, hlabel, Or.inl hphase⟩
      simp [hne]
    · rename_i k rest hphase
      have hne : k ≠ key := by
        rintro rfl
        exact hnot ⟨i, rest, hlabel, Or.inr hphase⟩
      simp [hne]
    · rfl
  · rfl

/-! ## Commands on the key -/

section Command

variable {rest : List String} {count : ℕ} {expiry : Option Time}

theorem countOf_some : countOf ⟨some (count, expiry)⟩ = count := rfl

theorem countOf_of_slot {c : Cell Time ℕ} (h : c.slot = some (count, expiry)) :
    countOf c = count := by
  unfold countOf
  rw [h]
  rfl

/-- The `INCR` that creates the counter: the one before it has expired, and
nobody was on the way to its `EXPIRE`. -/
theorem Passed.creates (h : Passed limit key start k n s) (hstart : start ≤ s.now)
    (hget : (s.counters key).get s.now = none) (hnow : t.now = s.now)
    (hcounter : t.counters key = ⟨some (1, none)⟩) :
    Passed limit key start (k + 1) n t := by
  have hcount : min (countOf (s.counters key)) limit ≤ limit := min_le_right _ _
  have hnext : limit * (k + 1) = limit * k + limit := Nat.mul_succ _ _
  have hn : n ≤ limit * (k + 1) := by
    have := h.count
    omega
  refine ⟨hn.trans (Nat.le_add_right _ _), ?_, Or.inr ⟨s.now, 1, none, ?_, hnow.ge, ?_, nofun⟩⟩
  · intro i rest' _ hlimit
    rw [hcounter, countOf_some, min_eq_left hlimit]
    omega
  · rcases h.spaced with rfl | ⟨created, count, expiry, hcreated, _, hslot, hexpiry⟩
    · simpa using hstart
    · -- the counter it replaces has lived for a minute
      cases expiry with
      | none =>
          have halive := get_of_lasts ⟨count, hslot⟩ s.now
          exact absurd hget halive
      | some e =>
          have hexpired := Cell.expiry_le_of_get_none hget hslot
          have hlived := hexpiry e rfl
          push_cast
          linarith
  · rw [hcounter]

/-- The `INCR` of a counter that is there. -/
theorem Passed.counts (h : Passed limit key start k n s)
    (hlimit : limit = settings.authRateLimitPerMinute.toNat)
    (hslot : (s.counters key).slot = some (count, expiry)) (hnow : t.now = s.now)
    (hcounter : t.counters key = ⟨some (count + 1, expiry)⟩)
    (hcalls : ∀ i rest, t.calls i = .expire key rest → s.calls i = .expire key rest) :
    Passed limit key start k
      (n + if (count + 1 : ℕ) ≤ settings.authRateLimitPerMinute then 1 else 0) t := by
  have hbefore := countOf_of_slot hslot
  have hafter : countOf (t.counters key) = count + 1 := by rw [hcounter, countOf_some]
  have hgrows : min count limit + (if (count + 1 : ℕ) ≤ settings.authRateLimitPerMinute then 1 else 0) ≤
      min (count + 1) limit := by
    split <;> omega
  refine ⟨?_, ?_, ?_⟩
  · have := h.count
    rw [hbefore] at this
    rw [hafter]
    omega
  · intro i rest hphase hpositive
    have := h.creator i rest (hcalls i rest hphase) hpositive
    rw [hbefore] at this
    rw [hafter]
    omega
  · refine h.spaced.imp id ?_
    rintro ⟨created, count', expiry', hcreated, hpast, hslot', hexpiry⟩
    obtain ⟨_, rfl⟩ := Prod.mk.inj (Option.some.inj (hslot.symm.trans hslot'))
    exact ⟨created, count + 1, expiry, hcreated, hnow ▸ hpast, by rw [hcounter], hexpiry⟩

/-- The `EXPIRE` of the call that created the counter. -/
theorem Passed.expires (h : Passed limit key start k n s)
    (hlimit : limit = settings.authRateLimitPerMinute.toNat)
    (hphase : s.calls i = .expire key rest) (hslot : (s.counters key).slot = some (count, none))
    (hnow : t.now = s.now) (hcounter : t.counters key = ⟨some (count, some (s.now + 60))⟩)
    (hcalls : ∀ i rest, t.calls i ≠ .expire key rest) :
    Passed limit key start k
      (n + if (1 : ℕ) ≤ settings.authRateLimitPerMinute then 1 else 0) t := by
  have hsame : countOf (t.counters key) = countOf (s.counters key) := by
    rw [hcounter, countOf_some, countOf_of_slot hslot]
  refine ⟨?_, fun i rest hi => absurd hi (hcalls i rest), ?_⟩
  · rw [hsame]
    split
    · exact h.creator i rest hphase (by omega)
    · exact h.count
  · refine h.spaced.imp id ?_
    rintro ⟨created, _, _, hcreated, hpast, _, _⟩
    refine ⟨created, count, some (s.now + 60), hcreated, hnow ▸ hpast, by rw [hcounter], ?_⟩
    rintro e he
    obtain rfl := Option.some.inj he
    linarith

end Command

/-! ## Runs -/

/-- What a command does, with the counters as the calls before left them. -/
theorem authStep_cases (hcounted : Counted s.now s.counters s.calls moves)
    (hstep : authNext rt settings s (.step i) = some t) :
    ∃ key rest phase cell, t.now = s.now ∧ t.calls = Function.update s.calls i phase ∧
      t.counters = Function.update s.counters key cell ∧
      ((s.calls i = .incr key rest ∧ (s.counters key).get s.now = none ∧
          phase = .expire key rest ∧ cell = ⟨some (1, none)⟩) ∨
        (∃ count expiry, s.calls i = .incr key rest ∧
          (s.counters key).slot = some (count, expiry) ∧
          phase = .afterCount settings (count + 1) rest ∧ cell = ⟨some (count + 1, expiry)⟩) ∨
        ∃ count, s.calls i = .expire key rest ∧ (s.counters key).slot = some (count, none) ∧
          phase = .afterCount settings 1 rest ∧ cell = ⟨some (count, some (s.now + 60))⟩) := by
  simp only [authNext, Option.ite_none_right_eq_some, Option.some.injEq] at hstep
  obtain ⟨hrunning, rfl⟩ := hstep
  have hpositive : ∀ key count, (s.counters key).get s.now = some count → 1 ≤ count := by
    intro key count hget
    obtain ⟨⟨_, expiry⟩, hslot, rfl⟩ := Option.map_eq_some_iff.mp (Cell.slot_of_get_some hget)
    exact (hcounted.ok key _ expiry hslot).1
  rcases authCommand_cases settings hpositive hrunning with
    ⟨key, rest, hphase, hget, hcommand⟩ |
    ⟨key, rest, count, expiry, hphase, _, hslot, hcommand⟩ | ⟨key, rest, hphase, hcommand⟩
  · rw [hcommand]
    exact ⟨key, rest, _, _, rfl, rfl, rfl, Or.inl ⟨hphase, hget, rfl, rfl⟩⟩
  · rw [hcommand]
    exact ⟨key, rest, _, _, rfl, rfl, rfl, Or.inr (Or.inl ⟨count, expiry, hphase, hslot, rfl, rfl⟩)⟩
  · obtain ⟨count, hslot⟩ := (hcounted.lasts key).mpr ⟨i, hcounted.pending i key rest hphase⟩
    rw [hcommand]
    exact ⟨key, rest, _, _, rfl, rfl, rfl,
      Or.inr (Or.inr ⟨count, hphase, hslot, rfl, Cell.expire_of_lasting hslot _ _⟩)⟩

theorem passes_of_step {rest : List String} {phase : AuthPhase}
    (hphase : s.calls i = .incr key rest ∨ s.calls i = .expire key rest)
    (hcalls : t.calls = Function.update s.calls i phase) :
    passes key ⟨s, .step i, t⟩ = decide (phase = .loop rest) := by
  have hafter : t.calls i = phase := by rw [hcalls, Function.update_self]
  unfold passes
  rcases hphase with h | h <;> simp [h, hafter]

/-- The numbers of a move that is the next command of a call. -/
theorem passed_command (hcounted : Counted s.now s.counters s.calls moves)
    (hlimit : limit = settings.authRateLimitPerMinute.toNat) (hstart : start ≤ s.now)
    (h : Passed limit key start k n s) (hstep : authNext rt settings s (.step i) = some t) :
    ∃ k', Passed limit key start k' (n + if passes key ⟨s, .step i, t⟩ then 1 else 0) t := by
  obtain ⟨other, rest, phase, cell, hnow, hcalls, hcounters, hcases⟩ :=
    authStep_cases hcounted hstep
  by_cases hkey : other = key
  · subst hkey
    have hcounter : t.counters other = cell := by rw [hcounters, Function.update_self]
    have hcount : ∀ count : ℕ, decide (AuthPhase.afterCount settings count rest = .loop rest) =
        decide ((count : ℤ) ≤ settings.authRateLimitPerMinute) :=
      fun count => decide_eq_decide.mpr afterCount_eq_loop_iff
    have hothers : ∀ count, phase = .afterCount settings count rest →
        ∀ j rest', t.calls j = .expire other rest' → s.calls j = .expire other rest' ∧ j ≠ i := by
      rintro count rfl j rest' hj
      rw [hcalls] at hj
      exact expire_of_update (fun _ _ => afterCount_ne_expire) hj
    rcases hcases with ⟨hphase, hget, rfl, rfl⟩ | ⟨count, expiry, hphase, hslot, rfl, rfl⟩ |
      ⟨count, hphase, hslot, rfl, rfl⟩
    · -- the counter is new; its creator gets past it with the `EXPIRE`, if at all
      rw [passes_of_step (Or.inl hphase) hcalls, decide_eq_false loop_ne_expire.symm]
      exact ⟨k + 1, h.creates hstart hget hnow hcounter⟩
    · rw [passes_of_step (Or.inl hphase) hcalls, hcount]
      simp only [decide_eq_true_eq]
      exact ⟨k, h.counts hlimit hslot hnow hcounter
        (fun j rest' hj => (hothers _ rfl j rest' hj).1)⟩
    · rw [passes_of_step (Or.inr hphase) hcalls, hcount]
      simp only [decide_eq_true_eq]
      refine ⟨k, h.expires hlimit hphase hslot hnow hcounter (fun j rest' hj => ?_)⟩
      obtain ⟨hbefore, hne⟩ := hothers _ rfl j rest' hj
      exact hne (hcounted.unique j i other (hcounted.pending j other rest' hbefore)
        (hcounted.pending i other rest hphase))
  · have hnot : ¬ CommandOn key ⟨s, .step i, t⟩ := by
      rintro ⟨j, rest', hlabel, hphase'⟩
      obtain rfl := AuthLabel.step.inj hlabel
      dsimp only at hphase'
      rcases hcases with ⟨hphase, _⟩ | ⟨_, _, hphase, _⟩ | ⟨_, hphase, _⟩ <;>
        rw [hphase] at hphase' <;> simp [hkey] at hphase'
    have hquiet : ∀ j rest', t.calls j = .expire key rest' → s.calls j = .expire key rest' := by
      intro j rest' hj
      rw [hcalls] at hj
      by_cases hji : j = i
      · rw [hji, Function.update_self] at hj
        rcases hcases with ⟨_, _, rfl, _⟩ | ⟨_, _, _, _, rfl, _⟩ | ⟨_, _, _, rfl, _⟩
        · exact absurd (AuthPhase.expire.inj hj).1 hkey
        · exact absurd hj afterCount_ne_expire
        · exact absurd hj afterCount_ne_expire
      · rwa [Function.update_of_ne hji] at hj
    rw [passes_of_not_command hnot]
    exact ⟨k, h.quiet hnow.ge (by rw [hcounters, Function.update_of_ne (Ne.symm hkey)]) hquiet⟩

theorem passed_step {a : AuthLabel} (hcounted : Counted s.now s.counters s.calls moves)
    (hlimit : limit = settings.authRateLimitPerMinute.toNat) (hstart : start ≤ s.now)
    (h : Passed limit key start k n s) (hstep : authNext rt settings s a = some t) :
    ∃ k', Passed limit key start k' (n + if passes key ⟨s, a, t⟩ then 1 else 0) t := by
  cases a with
  | step i => exact passed_command hcounted hlimit hstart h hstep
  | tick now =>
      simp only [authNext, Option.ite_none_right_eq_some, Option.some.injEq] at hstep
      obtain ⟨hnow, rfl⟩ := hstep
      exact ⟨k, h.quiet hnow rfl (fun _ _ hi => hi)⟩
  | arrive i attempt redis =>
      simp only [authNext, Option.ite_none_right_eq_some, Option.some.injEq] at hstep
      obtain ⟨_, rfl⟩ := hstep
      refine ⟨k, h.quiet le_rfl rfl (fun j rest hj => (expire_of_update ?_ hj).1)⟩
      intro _ _ heq
      cases redis <;> cases heq
  | cut i =>
      simp only [authNext, Option.ite_none_right_eq_some, Option.some.injEq] at hstep
      obtain ⟨_, rfl⟩ := hstep
      refine ⟨k, h.quiet le_rfl rfl (fun j rest hj => (expire_of_update ?_ hj).1)⟩
      intro _ _ heq
      cases heq

theorem now_le_of_step {a : AuthLabel} (hcounted : Counted s.now s.counters s.calls moves)
    (hstep : authNext rt settings s a = some t) : s.now ≤ t.now := by
  cases a with
  | tick now =>
      simp only [authNext, Option.ite_none_right_eq_some, Option.some.injEq] at hstep
      obtain ⟨hnow, rfl⟩ := hstep
      exact hnow
  | step i =>
      obtain ⟨_, _, _, _, hnow, _⟩ := authStep_cases hcounted hstep
      exact hnow.ge
  | arrive i attempt redis | cut i =>
      simp only [authNext, Option.ite_none_right_eq_some, Option.some.injEq] at hstep
      obtain ⟨_, rfl⟩ := hstep
      exact le_rfl

theorem exists_counted (hs : (throttle rt settings).Reachable s) :
    ∃ moves, Counted s.now s.counters s.calls moves := by
  have hstart : ∀ s, (throttle rt settings).init s →
      ∃ moves, Counted s.now s.counters s.calls moves := by
    intro s hinit
    rw [show s = { now := s.now } from hinit]
    exact ⟨[], counted_start⟩
  refine hs.invariant hstart ?_
  rintro s a t ⟨moves, hcounted⟩ hstep
  exact ⟨_, counted_step hcounted hstep⟩

theorem passed_run (key : String) (hs : (throttle rt settings).Reachable s)
    (run : (throttle rt settings).Run s moves t)
    (hlimit : limit = settings.authRateLimitPerMinute.toNat) :
    s.now ≤ t.now ∧ ∃ k, Passed limit key s.now k (moves.countP (passes key)) t := by
  induction run with
  | nil =>
      obtain ⟨_, hcounted⟩ := exists_counted hs
      refine ⟨le_rfl, 0, Nat.zero_le _, ?_, Or.inl rfl⟩
      intro i rest hphase hpositive
      obtain ⟨count, hslot⟩ := (hcounted.lasts key).mpr ⟨i, hcounted.pending i key rest hphase⟩
      have hcount := (hcounted.ok key count none hslot).1
      rw [countOf_of_slot hslot, List.countP_nil]
      omega
  | @snoc moves u a v hrun hstep ih =>
      obtain ⟨hnow, k, h⟩ := ih
      obtain ⟨_, hcounted⟩ := exists_counted (hrun.reachable hs)
      obtain ⟨k', h'⟩ := passed_step hcounted hlimit hnow h hstep
      refine ⟨hnow.trans (now_le_of_step hcounted hstep), k', ?_⟩
      rw [List.countP_append, List.countP_singleton]
      exact h'

/-- In any stretch of any run, whatever the calls do at once and wherever they
are cut off: under one address or e-mail no more attempts get through than the
limit for every minute of it, and twice the limit. -/
theorem passes_le (hs : (throttle rt settings).Reachable s)
    (run : (throttle rt settings).Run s moves t) (key : String) :
    moves.countP (passes key) ≤
      settings.authRateLimitPerMinute.toNat * (⌊(t.now - s.now) / 60⌋₊ + 2) := by
  obtain ⟨hnow, k, h⟩ := passed_run key hs run rfl
  have hk : k ≤ ⌊(t.now - s.now) / 60⌋₊ + 1 := by
    rcases h.spaced with rfl | ⟨created, _, _, hcreated, hpast, _⟩
    · exact Nat.zero_le _
    · rw [← Nat.sub_le_iff_le_add]
      refine Nat.le_floor ?_
      have hminus : ((k - 1 : ℕ) : ℚ) ≤ (k : ℚ) - 1 ∨ k = 0 := by
        rcases Nat.eq_zero_or_pos k with hzero | hpos
        · exact Or.inr hzero
        · exact Or.inl (by rw [Nat.cast_sub hpos, Nat.cast_one])
      rw [le_div_iff₀ (by norm_num)]
      rcases hminus with hminus | rfl
      · linarith
      · simpa using hnow
  calc moves.countP (passes key)
      ≤ settings.authRateLimitPerMinute.toNat * k +
          min (countOf (t.counters key)) settings.authRateLimitPerMinute.toNat := h.count
    _ ≤ settings.authRateLimitPerMinute.toNat * k + settings.authRateLimitPerMinute.toNat := by
        omega
    _ = settings.authRateLimitPerMinute.toNat * (k + 1) := (Nat.mul_succ _ _).symm
    _ ≤ settings.authRateLimitPerMinute.toNat * (⌊(t.now - s.now) / 60⌋₊ + 2) :=
        Nat.mul_le_mul_left _ (Nat.succ_le_succ hk)

/-- Eleven logins within a minute: ten get through. -/
def elevenLogins : List AuthLabel :=
  attemptLabels 0 4 ++ (List.range' 1 9).flatMap (fun i => attemptLabels i 2) ++ attemptLabels 10 1

theorem passes_le_elevenLogins :
    ((throttle plainText {}).trace { now := 0 } elevenLogins).countP (passes annsLogin.ipKey) = 10 ∧
      ((throttle plainText {}).trace { now := 0 } elevenLogins).countP (passes annsLogin.ipKey) ≤
        10 * (⌊((0 : ℚ) - 0) / 60⌋₊ + 2) := by
  have hfacts : ((throttle plainText {}).exec { now := 0 } elevenLogins).isSome = true ∧
      ((throttle plainText {}).after { now := 0 } elevenLogins).now = 0 ∧
      ((throttle plainText {}).trace { now := 0 } elevenLogins).countP
        (passes annsLogin.ipKey) = 10 := by
    decide +kernel
  obtain ⟨hruns, hnow, hten⟩ := hfacts
  have hstart : (throttle plainText {}).Reachable { now := 0 } := .start rfl
  have hbound := passes_le hstart (Machine.run_trace (Machine.exec_eq_after hruns))
    annsLogin.ipKey
  rw [hnow] at hbound
  exact ⟨hten, hbound⟩

end WebhookRelay.Api
