import WebhookRelay.Delivery.BreakerLiveness

/-!
# Probes of a recovering destination

After `record_failure` has opened the breaker, one delivery should be let
through to try the destination. Two mechanisms let one through: the change
from `OPEN` to `HALF_OPEN`, after the cooldown, and the token `half_tested`
in state `HALF_OPEN`. `one_probe` says which commands let a second one pass.
-/

namespace WebhookRelay.Delivery

open Foundation

/-- History: what has happened since `record_failure` put the breaker in
state `OPEN`. -/
structure Recovery where
  /-- No report has begun since. -/
  watching : Bool := false
  /-- The calls of `is_open` that began since. -/
  fresh : List ℕ := []
  /-- Where those of them stood that returned `False`. -/
  probes : List CallPhase := []

namespace Recovery

/-- Call `i` has gone from one phase to another by a command. -/
def noteCommand (r : Recovery) (i : ℕ) : CallPhase → CallPhase → Recovery
  -- of two openings with no report between them the first one counts
  | .tripping, _ => if r.watching then r else { watching := true }
  | .succeeding, _ | .failing, _ => { r with watching := false }
  | phase, phase' =>
      if i ∈ r.fresh ∧ phase' = .admitted then { r with probes := phase :: r.probes } else r

def note (m : Move BreakerSystem BreakerLabel) (r : Recovery) : Recovery :=
  match m.label with
  | .start i => { r with fresh := i :: r.fresh }
  | .step i => r.noteCommand i (m.src.calls i) (m.dst.calls i)
  | _ => r

end Recovery

/-- The breaker with that history. -/
def recovering (settings : Settings) : Machine (BreakerSystem × Recovery) BreakerLabel :=
  (breaker settings).withHistory {} Recovery.note

/-- From the opening of the breaker to the next report, at most one `is_open`
that began since has returned `False`. -/
def OneProbe (s : BreakerSystem × Recovery) : Prop :=
  s.2.watching = true → s.2.probes.length ≤ 1

/-- The next command of call `i` can let a second probe through: the call
writes `HALF_OPEN`, or takes the token, when the state is no longer the one it
has read; it takes the token although the breaker became `HALF_OPEN` by a
probe; or its `record_failure`, under way at the opening, writes `OPEN` again
after a probe. -/
def Recovery.CanReadmit (r : Recovery) (now : Time) (keys : BreakerKeys) (i : ℕ) :
    CallPhase → Prop
  | .cooledDown => i ∈ r.fresh ∧ keys.state.get now ≠ some .OPEN
  | .sawHalfOpen => i ∈ r.fresh ∧ keys.halfTested.get now = none ∧
      (keys.state.get now ≠ some .HALF_OPEN ∨ .cooledDown ∈ r.probes)
  | .tripping => r.probes ≠ []
  | _ => False

def Readmits (m : Move (BreakerSystem × Recovery) BreakerLabel) : Prop :=
  let (s, r) := m.src
  match m.label with
  | .step i => r.watching = true ∧ r.CanReadmit s.clock s.keys i (s.calls i)
  | _ => False

instance (r : Recovery) (now : Time) (keys : BreakerKeys) (i : ℕ) (phase : CallPhase) :
    Decidable (r.CanReadmit now keys i phase) :=
  match phase with
  | .cooledDown => inferInstanceAs (Decidable (_ ∧ _))
  | .sawHalfOpen => inferInstanceAs (Decidable (_ ∧ _ ∧ (_ ∨ _)))
  | .tripping => inferInstanceAs (Decidable (_ ≠ _))
  | .idle | .asking | .sawOpen | .gotSince _ | .admitted | .succeeding | .failing | .counted _
  | .tripped | .stamping _ => inferInstanceAs (Decidable False)

instance : DecidablePred Readmits := fun m =>
  match m with
  | ⟨_, .step _, _⟩ => inferInstanceAs (Decidable (_ ∧ _))
  | ⟨_, .tick _, _⟩ | ⟨_, .start _, _⟩ | ⟨_, .settle _ _, _⟩ | ⟨_, .fault _, _⟩ =>
      inferInstanceAs (Decidable False)

/-- The keys and the probes while the recovery is watched. -/
structure Probing (keys : BreakerKeys) (probes : List CallPhase) : Prop where
  one : probes.length ≤ 1
  present : keys.state.slot ≠ none
  unprobed : keys.state.slot.map Prod.fst = some .OPEN → probes = []
  untested : .cooledDown ∉ probes → keys.halfTested.slot = none → probes = []

variable {settings : Settings}

theorem Probing.congr {keys keys' : BreakerKeys} {probes : List CallPhase}
    (h : Probing keys probes) (hstate : keys'.state = keys.state)
    (htested : keys'.halfTested = keys.halfTested) : Probing keys' probes := by
  constructor
  · exact h.one
  · rw [hstate]
    exact h.present
  · rw [hstate]
    exact h.unprobed
  · rw [htested]
    exact h.untested

/-- Any call may write `HALF_OPEN`; one of a probe finds the breaker `OPEN`. -/
theorem Probing.cooledDown {keys : BreakerKeys} {probes probes' : List CallPhase}
    (h : Probing keys probes)
    (hprobes : probes' = probes ∨
      keys.state.slot.map Prod.fst = some .OPEN ∧ probes' = .cooledDown :: probes) :
    Probing { keys with state := keys.state.set .HALF_OPEN } probes' := by
  rcases hprobes with rfl | ⟨hopen, rfl⟩
  · refine ⟨h.one, by simp [Cell.set], ?_, h.untested⟩
    intro hhalf
    cases hhalf
  · rw [h.unprobed hopen]
    refine ⟨le_refl 1, by simp [Cell.set], ?_, ?_⟩
    · intro hhalf
      cases hhalf
    · intro hnot
      exact absurd (List.mem_singleton_self _) hnot

/-- The token is taken, by a probe or not. -/
theorem Probing.sawHalfOpen {keys : BreakerKeys} {probes probes' : List CallPhase}
    (h : Probing keys probes) (hfree : keys.halfTested.slot = none)
    (hprobes : probes' = probes ∨
      keys.state.slot.map Prod.fst = some .HALF_OPEN ∧ .cooledDown ∉ probes ∧
        probes' = .sawHalfOpen :: probes) :
    Probing { keys with halfTested := ⟨some ((), none)⟩ } probes' := by
  rcases hprobes with rfl | ⟨hhalf, hnot, rfl⟩
  · refine ⟨h.one, h.present, h.unprobed, ?_⟩
    intro _ htoken
    cases htoken
  · rw [h.untested hnot hfree]
    refine ⟨le_refl 1, h.present, ?_, ?_⟩
    · intro hopen
      rw [hhalf] at hopen
      cases hopen
    · intro _ htoken
      cases htoken

theorem probing_opened {keys : BreakerKeys} :
    Probing { keys with state := keys.state.set .OPEN } [] :=
  ⟨Nat.zero_le 1, by simp [Cell.set], fun _ => rfl, fun _ _ => rfl⟩

/-- Each command of a call, unless it can readmit. -/
theorem probing_advance {now : Time} {keys keys' : BreakerKeys} {phase phase' : CallPhase}
    {r : Recovery} {i : ℕ} (hkeys : KeysOk keys)
    (h : r.watching = true → Probing keys r.probes)
    (hbad : r.watching = true → ¬ r.CanReadmit now keys i phase)
    (hadvance : advance settings now keys phase = some (phase', keys')) :
    (r.noteCommand i phase phase').watching = true →
      Probing keys' (r.noteCommand i phase phase').probes := by
  have hstate := Cell.get_of_lasting hkeys.state now
  have htested := Cell.get_of_lasting hkeys.halfTested now
  cases phase with
  | idle | admitted => cases hadvance
  | asking =>
      cases hget : keys.state.get now with
      | none =>
          -- the state key is there until a report deletes it
          rw [advance, hget] at hadvance
          cases hadvance
          rw [hstate, Option.map_eq_none_iff] at hget
          have hnever : ¬ r.watching = true := fun hwatch => (h hwatch).present hget
          intro hwatch
          simp only [Recovery.noteCommand, and_true] at hwatch
          split at hwatch <;> exact absurd hwatch hnever
      | some state =>
          rw [advance, hget] at hadvance
          cases state <;> cases hadvance <;> simpa [Recovery.noteCommand] using h
  | sawOpen =>
      cases hadvance
      simpa [Recovery.noteCommand] using h
  | gotSince openSince =>
      simp only [advance] at hadvance
      split at hadvance <;> cases hadvance <;> simpa [Recovery.noteCommand] using h
  | cooledDown =>
      -- the first `HALF_OPEN` of a recovery is written over `OPEN`
      cases hadvance
      simp only [Recovery.noteCommand, and_true]
      split
      · rename_i hfresh
        intro hwatch
        have hopen : keys.state.get now = some .OPEN := by
          by_contra hnot
          exact hbad hwatch ⟨hfresh, hnot⟩
        rw [hstate] at hopen
        exact (h hwatch).cooledDown (Or.inr ⟨hopen, rfl⟩)
      · intro hwatch
        exact (h hwatch).cooledDown (Or.inl rfl)
  | sawHalfOpen =>
      cases htaken : keys.halfTested.get now with
      | some token =>
          rw [advance, Cell.setnx_of_some htaken] at hadvance
          cases hadvance
          simpa [Recovery.noteCommand] using h
      | none =>
          rw [advance, Cell.setnx_of_none htaken] at hadvance
          cases hadvance
          have hslot : keys.halfTested.slot = none := by
            rwa [htested, Option.map_eq_none_iff] at htaken
          simp only [Recovery.noteCommand, if_true, and_true]
          split
          · rename_i hfresh
            intro hwatch
            have hhalf : keys.state.get now = some .HALF_OPEN ∧ .cooledDown ∉ r.probes := by
              by_contra hnot
              refine hbad hwatch ⟨hfresh, htaken, ?_⟩
              rwa [not_and_or, not_not] at hnot
            rw [hstate] at hhalf
            exact (h hwatch).sawHalfOpen hslot (Or.inr ⟨hhalf.1, hhalf.2, rfl⟩)
          · intro hwatch
            exact (h hwatch).sawHalfOpen hslot (Or.inl rfl)
  | succeeding | failing =>
      intro hwatch
      cases hwatch
  | counted count =>
      cases hadvance
      have hphase : (if settings.circuitBreakerThreshold ≤ count then CallPhase.tripping
          else .idle) ≠ .admitted := by
        split <;> simp
      simp only [Recovery.noteCommand, hphase, and_false, if_false]
      intro hwatch
      exact (h hwatch).congr rfl rfl
  | tripping =>
      cases hadvance
      simp only [Recovery.noteCommand]
      split
      · rename_i hwatch
        have hnone : r.probes = [] := not_not.mp (hbad hwatch)
        intro _
        rw [hnone]
        exact probing_opened
      · intro _
        exact probing_opened
  | tripped =>
      cases hadvance
      simpa [Recovery.noteCommand] using h
  | stamping openSince =>
      cases hadvance
      simp only [Recovery.noteCommand, reduceCtorEq, and_false, if_false]
      intro hwatch
      exact (h hwatch).congr rfl rfl

/-- Each step of the system, unless it readmits. -/
theorem probing_next {s t : BreakerSystem × Recovery} {label : BreakerLabel}
    (hkeys : KeysOk s.1.keys) (h : s.2.watching = true → Probing s.1.keys s.2.probes)
    (hbad : ¬ Readmits ⟨s, label, t⟩) (hstep : (recovering settings).next s label = some t) :
    t.2.watching = true → Probing t.1.keys t.2.probes := by
  obtain ⟨hnext, hnote⟩ := Machine.withHistory_next_iff.mp hstep
  change breakerNext settings s.1 label = some t.1 at hnext
  rw [hnote]
  cases label with
  | tick now =>
      rw [(breaker_tick hnext).2]
      exact h
  | start i =>
      rw [(breaker_start hnext).2]
      exact h
  | settle i call =>
      rw [(breaker_settle hnext).2]
      exact h
  | fault i =>
      rw [(breaker_fault hnext).2]
      exact h
  | step i =>
      obtain ⟨phase, keys, hadvance, hs⟩ := breaker_step hnext
      have hphase : t.1.calls i = phase := by
        rw [hs]
        exact Function.update_self ..
      show (s.2.noteCommand i (s.1.calls i) (t.1.calls i)).watching = true →
        Probing t.1.keys (s.2.noteCommand i (s.1.calls i) (t.1.calls i)).probes
      rw [hphase, hs]
      exact probing_advance hkeys h (fun hwatch hreadmit => hbad ⟨hwatch, hreadmit⟩) hadvance

theorem keysOk_recovering {s t : BreakerSystem × Recovery} {label : BreakerLabel}
    (hkeys : KeysOk s.1.keys) (hstep : (recovering settings).next s label = some t) :
    KeysOk t.1.keys :=
  keysOk_next hkeys (Machine.withHistory_next_iff.mp hstep).1

/-- In a run none of whose commands readmits, every recovery has at most one
probe. -/
theorem one_probe {s t : BreakerSystem × Recovery}
    {moves : List (Move (BreakerSystem × Recovery) BreakerLabel)}
    (hinit : (recovering settings).init s) (run : (recovering settings).Run s moves t)
    (hmoves : ∀ m ∈ moves, ¬ Readmits m) : ∀ v, Machine.Visited s moves v → OneProbe v := by
  have hstart : s.2.watching = true → Probing s.1.keys s.2.probes := by
    rw [hinit.2]
    intro hwatch
    cases hwatch
  intro v hv
  have hboth := run.forall_visited
    (P := fun v => KeysOk v.1.keys ∧ (v.2.watching = true → Probing v.1.keys v.2.probes))
    (fun _ _ _ h hm hstep => ⟨keysOk_recovering h.1 hstep, probing_next h.1 h.2 hm hstep⟩)
    ⟨keysOk_init hinit.1, hstart⟩ hmoves v hv
  intro hwatch
  exact (hboth.2 hwatch).one

/-! ## Two probes -/

/-- `n` calls that are admitted and fail, and have counted their failure. -/
def failedCalls (n : ℕ) : List BreakerLabel :=
  (List.range n).flatMap (fun i =>
    [.start i, .step i, .settle i failingCall, .step i, .step i])

/-- Ten failures open the breaker. After the cooldown call 10 is let through
by writing `HALF_OPEN`, and call 11 by taking the token. -/
def secondProbeRun : List BreakerLabel :=
  failedCalls 10 ++ [.step 9, .step 9, .step 9, .tick 30,
    .start 10, .step 10, .step 10, .step 10, .step 10, .start 11, .step 11, .step 11]

def secondProbe (labels : List BreakerLabel) : BreakerSystem × Recovery :=
  (recovering {}).after (freshBreaker, {}) labels

theorem second_probe_readmitted :
    ¬ ∀ s, (recovering {}).Reachable s → OneProbe s := by
  intro h
  have hinit : (recovering {}).init (freshBreaker, {}) := ⟨⟨rfl, rfl⟩, rfl⟩
  have hreach : (recovering {}).Reachable (secondProbe secondProbeRun) :=
    Machine.reachable_after hinit (by decide +kernel)
  have htwo : ¬ OneProbe (secondProbe secondProbeRun) := by
    unfold OneProbe
    decide +kernel
  exact htwo (h _ hreach)

/-- Up to the first probe nothing readmits. -/
theorem one_probe_first :
    (secondProbe (secondProbeRun.take 59)).2.probes = [.cooledDown] ∧
      OneProbe (secondProbe (secondProbeRun.take 59)) := by
  have hinit : (recovering {}).init (freshBreaker, {}) := ⟨⟨rfl, rfl⟩, rfl⟩
  have hexec : (recovering {}).exec (freshBreaker, {}) (secondProbeRun.take 59) =
      some (secondProbe (secondProbeRun.take 59)) := Machine.exec_eq_after (by decide +kernel)
  have run := Machine.run_trace hexec
  exact ⟨by decide +kernel, one_probe hinit run (by decide +kernel) _ run.visited_last⟩

end WebhookRelay.Delivery
