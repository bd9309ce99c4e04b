import WebhookRelay.Delivery.Probes

/-!
# The cooldown of an open breaker

`record_failure` opens the breaker by two commands, `SET state OPEN` and then
`SET open_since`, and `is_open` reads the two keys by two commands as well. A
check between the two writes finds `OPEN` with no `open_since`, or with that
of an earlier cycle, and lets a delivery through at once. `cooldown_respected`
says that this, and its two variants, is all that can go wrong.
-/

namespace WebhookRelay.Delivery

open Foundation

/-- History: the openings of the breaker. -/
structure Openings where
  /-- When each `SET state OPEN` was executed. -/
  times : List Time := []
  /-- The calls of `record_failure` that have opened the breaker and not yet
  written `open_since`. -/
  unstamped : List (ℕ × Time) := []
  /-- The openings before call `i` began. -/
  before : ℕ → List Time := fun _ => []

namespace Openings

/-- Call `i` executes a command at `now`. -/
def noteCommand (h : Openings) (now : Time) (i : ℕ) : CallPhase → Openings
  | .tripping => { h with times := now :: h.times, unstamped := (i, now) :: h.unstamped }
  | .stamping _ => { h with unstamped := h.unstamped.filter (fun p => p.1 ≠ i) }
  | _ => h

def note (m : Move BreakerSystem BreakerLabel) (h : Openings) : Openings :=
  match m.label with
  | .start i => { h with before := Function.update h.before i h.times }
  | .step i => h.noteCommand m.src.clock i (m.src.calls i)
  | .fault i => { h with unstamped := h.unstamped.filter (fun p => p.1 ≠ i) }
  | _ => h

end Openings

/-- The breaker with that history. -/
def cooling (settings : Settings) : Machine (BreakerSystem × Openings) BreakerLabel :=
  (breaker settings).withHistory {} Openings.note

/-- What `GET open_since` comes to in `is_open`. -/
def BreakerSystem.openSince (s : BreakerSystem) : Time := (s.keys.openSince.get s.clock).getD 0

/-- The command is the clock reading of an `is_open`: less than a cooldown after
an opening that precedes the call, the call returns `True` and has changed
nothing. -/
def CommandRespects (settings : Settings) (s : BreakerSystem) (h : Openings) (i : ℕ)
    (t : BreakerSystem) : CallPhase → Prop
  | .gotSince _ => ∀ opened ∈ h.before i, s.clock < opened + settings.circuitBreakerCooldownS →
      t.calls i = .idle ∧ t.keys = s.keys
  | _ => True

def Respects (settings : Settings) (m : Move (BreakerSystem × Openings) BreakerLabel) : Prop :=
  let (s, h) := m.src
  match m.label with
  | .step i => CommandRespects settings s h i m.dst.1 (s.calls i)
  | _ => True

/-- The move is the `DEL` of a `record_success`. -/
def Succeeds (m : Move (BreakerSystem × Openings) BreakerLabel) : Prop :=
  match m.label with
  | .step i => m.src.1.calls i = .succeeding
  | _ => False

/-- The next command of call `i` confuses the openings: it reads `open_since`
while an opening that precedes the call has its own still to be written, and
the key has none or an older one; or it writes an `open_since` older than an
opening that has already had its own written. -/
def Openings.Confuses (h : Openings) (openSince : Time) (i : ℕ) : CallPhase → Prop
  | .sawOpen => ∃ p ∈ h.unstamped, p.2 ∈ h.before i ∧ openSince < p.2
  | .stamping since => ∃ opened ∈ h.times, since < opened ∧ ∀ p ∈ h.unstamped, p.2 ≠ opened
  | _ => False

/-- A command confuses the openings, or a `record_failure` dies between its two
writes and leaves the key without an `open_since`, or with an older one. -/
def Confused (m : Move (BreakerSystem × Openings) BreakerLabel) : Prop :=
  let (s, h) := m.src
  match m.label with
  | .step i => h.Confuses s.openSince i (s.calls i)
  | .fault i => ∃ p ∈ h.unstamped, p.1 = i ∧ s.openSince < p.2
  | _ => False

instance (settings : Settings) (s : BreakerSystem) (h : Openings) (i : ℕ) (t : BreakerSystem)
    (phase : CallPhase) : Decidable (CommandRespects settings s h i t phase) :=
  match phase with
  | .gotSince _ => inferInstanceAs (Decidable (∀ opened ∈ h.before i, _ → _ ∧ _))
  | .idle | .asking | .sawOpen | .cooledDown | .sawHalfOpen | .admitted | .succeeding | .failing
  | .counted _ | .tripping | .tripped | .stamping _ => inferInstanceAs (Decidable True)

instance (settings : Settings) : DecidablePred (Respects settings) := fun m =>
  match m with
  | ⟨(s, h), .step i, t⟩ =>
      inferInstanceAs (Decidable (CommandRespects settings s h i t.1 (s.calls i)))
  | ⟨_, .tick _, _⟩ | ⟨_, .start _, _⟩ | ⟨_, .settle _ _, _⟩ | ⟨_, .fault _, _⟩ =>
      inferInstanceAs (Decidable True)

instance : DecidablePred Succeeds := fun m =>
  match m with
  | ⟨s, .step i, _⟩ => inferInstanceAs (Decidable (s.1.calls i = _))
  | ⟨_, .tick _, _⟩ | ⟨_, .start _, _⟩ | ⟨_, .settle _ _, _⟩ | ⟨_, .fault _, _⟩ =>
      inferInstanceAs (Decidable False)

instance (h : Openings) (openSince : Time) (i : ℕ) (phase : CallPhase) :
    Decidable (h.Confuses openSince i phase) :=
  match phase with
  | .sawOpen => inferInstanceAs (Decidable (∃ p ∈ h.unstamped, _ ∧ _))
  | .stamping _ => inferInstanceAs (Decidable (∃ opened ∈ h.times, _ ∧ ∀ p ∈ h.unstamped, _))
  | .idle | .asking | .gotSince _ | .cooledDown | .sawHalfOpen | .admitted | .succeeding | .failing
  | .counted _ | .tripping | .tripped => inferInstanceAs (Decidable False)

instance : DecidablePred Confused := fun m =>
  match m with
  | ⟨(s, h), .step i, _⟩ => inferInstanceAs (Decidable (h.Confuses s.openSince i (s.calls i)))
  | ⟨(_, h), .fault _, _⟩ => inferInstanceAs (Decidable (∃ p ∈ h.unstamped, _ ∧ _))
  | ⟨_, .tick _, _⟩ | ⟨_, .start _, _⟩ | ⟨_, .settle _ _, _⟩ => inferInstanceAs (Decidable False)

namespace CallPhase

/-- Between `SET state OPEN` and `SET open_since`. -/
def Opening : CallPhase → Bool
  | tripped | stamping _ => true
  | _ => false

end CallPhase

/-- Where a call that has opened the breaker stands. -/
def Unstamped (s : BreakerSystem) (p : ℕ × Time) : Prop :=
  (s.calls p.1 = .tripped ∧ p.2 ≤ s.clock) ∨ ∃ since, s.calls p.1 = .stamping since ∧ p.2 ≤ since

structure CoolingInv (s : BreakerSystem) (h : Openings) : Prop where
  keys : KeysOk s.keys
  unstamped : ∀ p ∈ h.unstamped, Unstamped s p
  stamped : ∀ opened ∈ h.times, opened ≤ s.openSince ∨ ∃ p ∈ h.unstamped, p.2 = opened
  before : ∀ i, ∀ opened ∈ h.before i, opened ∈ h.times
  since : ∀ i openSince, s.calls i = .gotSince openSince → ∀ opened ∈ h.before i, opened ≤ openSince

variable {settings : Settings}

theorem openSince_eq {s : BreakerSystem} (h : KeysOk s.keys) :
    s.openSince = (s.keys.openSince.slot.map Prod.fst).getD 0 := by
  unfold BreakerSystem.openSince
  rw [Cell.get_of_lasting h.openSince]

theorem openSince_congr {s t : BreakerSystem} (hs : KeysOk s.keys) (ht : KeysOk t.keys)
    (h : t.keys.openSince = s.keys.openSince) : t.openSince = s.openSince := by
  rw [openSince_eq hs, openSince_eq ht, h]

/-- What another call does leaves a call where it stands. -/
theorem Unstamped.moveTo {s : BreakerSystem} {p : ℕ × Time} (h : Unstamped s p) {i : ℕ}
    (hi : p.1 ≠ i) (phase : CallPhase) (keys : BreakerKeys) :
    Unstamped { s.moveTo i phase with keys := keys } p := by
  have hsame : (s.moveTo i phase).calls p.1 = s.calls p.1 := Function.update_of_ne hi _ _
  rcases h with ⟨hphase, hle⟩ | ⟨since, hphase, hle⟩
  · exact Or.inl ⟨hsame.trans hphase, hle⟩
  · exact Or.inr ⟨since, hsame.trans hphase, hle⟩

theorem CoolingInv.since_moveTo {s : BreakerSystem} {h : Openings} (inv : CoolingInv s h) {i : ℕ}
    {phase : CallPhase}
    (hgot : ∀ openSince, phase = .gotSince openSince → ∀ opened ∈ h.before i, opened ≤ openSince)
    (j : ℕ) (openSince : Time) (hphase : (s.moveTo i phase).calls j = .gotSince openSince) :
    ∀ opened ∈ h.before j, opened ≤ openSince := by
  by_cases hj : j = i
  · subst hj
    rw [moveTo_calls, Function.update_self] at hphase
    exact hgot openSince hphase
  · rw [moveTo_calls, Function.update_of_ne hj] at hphase
    exact inv.since j openSince hphase

/-- A call moves without touching `open_since`, and the openings stay what
they are. -/
theorem CoolingInv.moveTo {s : BreakerSystem} {h : Openings} (inv : CoolingInv s h) {i : ℕ}
    {phase : CallPhase} {keys : BreakerKeys} (hkeys : KeysOk keys)
    (hsince : keys.openSince = s.keys.openSince)
    (hself : ∀ p ∈ h.unstamped, p.1 = i → Unstamped { s.moveTo i phase with keys := keys } p)
    (hgot : ∀ openSince, phase = .gotSince openSince → ∀ opened ∈ h.before i, opened ≤ openSince) :
    CoolingInv { s.moveTo i phase with keys := keys } h := by
  constructor
  · exact hkeys
  · intro p hp
    by_cases hi : p.1 = i
    · exact hself p hp hi
    · exact (inv.unstamped p hp).moveTo hi phase keys
  · rw [openSince_congr inv.keys hkeys hsince]
    exact inv.stamped
  · exact inv.before
  · exact inv.since_moveTo hgot

/-- A call that stands elsewhere has no `open_since` to write. -/
theorem CoolingInv.ne_of_unstamped {s : BreakerSystem} {h : Openings} (inv : CoolingInv s h)
    {i : ℕ} (hphase : (s.calls i).Opening = false) : ∀ p ∈ h.unstamped, p.1 ≠ i := by
  rintro p hp rfl
  rcases inv.unstamped p hp with ⟨htripped, _⟩ | ⟨since, hstamping, _⟩
  · rw [htripped] at hphase
    cases hphase
  · rw [hstamping] at hphase
    cases hphase

theorem CoolingInv.moveElsewhere {s : BreakerSystem} {h : Openings} (inv : CoolingInv s h) {i : ℕ}
    {phase : CallPhase} {keys : BreakerKeys} (hphase : (s.calls i).Opening = false)
    (hkeys : KeysOk keys) (hsince : keys.openSince = s.keys.openSince)
    (hgot : ∀ openSince, phase = .gotSince openSince → ∀ opened ∈ h.before i, opened ≤ openSince) :
    CoolingInv { s.moveTo i phase with keys := keys } h :=
  inv.moveTo hkeys hsince (fun p hp hi => absurd hi (inv.ne_of_unstamped hphase p hp)) hgot

/-- The call writes `OPEN`. -/
theorem CoolingInv.trip {s : BreakerSystem} {h : Openings} (inv : CoolingInv s h) {i : ℕ}
    (hphase : s.calls i = .tripping) {keys : BreakerKeys} (hkeys : KeysOk keys)
    (hsince : keys.openSince = s.keys.openSince) :
    CoolingInv { s.moveTo i .tripped with keys := keys }
      { h with times := s.clock :: h.times, unstamped := (i, s.clock) :: h.unstamped } := by
  have hmoved : CoolingInv { s.moveTo i .tripped with keys := keys } h :=
    inv.moveElsewhere (by rw [hphase]; rfl) hkeys hsince (fun _ hgot => by cases hgot)
  refine ⟨hkeys, ?_, ?_, ?_, hmoved.since⟩
  · intro p hp
    rcases List.mem_cons.mp hp with rfl | hp
    · exact Or.inl ⟨Function.update_self .., le_refl _⟩
    · exact hmoved.unstamped p hp
  · intro opened hopened
    rcases List.mem_cons.mp hopened with rfl | hopened
    · exact Or.inr ⟨_, List.mem_cons_self, rfl⟩
    · rcases hmoved.stamped opened hopened with hle | ⟨p, hp, hp2⟩
      · exact Or.inl hle
      · exact Or.inr ⟨p, List.mem_cons_of_mem _ hp, hp2⟩
  · intro j opened hopened
    exact List.mem_cons_of_mem _ (inv.before j opened hopened)

/-- The call leaves the openings that wait for their `open_since`; its own
must be in the key by then. -/
theorem CoolingInv.leave {s : BreakerSystem} {h : Openings} (inv : CoolingInv s h) {i : ℕ}
    {keys : BreakerKeys} (hkeys : KeysOk keys)
    (hstamped : ∀ opened ∈ h.times,
      opened ≤ (keys.openSince.get s.clock).getD 0 ∨ ∃ p ∈ h.unstamped, p.1 ≠ i ∧ p.2 = opened) :
    CoolingInv { s.moveTo i .idle with keys := keys }
      { h with unstamped := h.unstamped.filter (fun p => p.1 ≠ i) } := by
  refine ⟨hkeys, ?_, ?_, inv.before, ?_⟩
  · intro p hp
    rw [List.mem_filter, decide_eq_true_eq] at hp
    exact (inv.unstamped p hp.1).moveTo hp.2 .idle keys
  · intro opened hopened
    rcases hstamped opened hopened with hle | ⟨p, hp, hi, hp2⟩
    · exact Or.inl hle
    · exact Or.inr ⟨p, List.mem_filter.mpr ⟨hp, decide_eq_true hi⟩, hp2⟩
  · exact inv.since_moveTo (fun _ hgot => by cases hgot)

/-- Each command of a call, unless it is a `DEL` or confuses the openings. -/
theorem coolingInv_advance {s : BreakerSystem} {h : Openings} {i : ℕ} {phase : CallPhase}
    {keys : BreakerKeys} (inv : CoolingInv s h) (hsucc : s.calls i ≠ .succeeding)
    (hclear : ¬ h.Confuses s.openSince i (s.calls i))
    (hadvance : advance settings s.clock s.keys (s.calls i) = some (phase, keys)) :
    CoolingInv { s.moveTo i phase with keys := keys } (h.noteCommand s.clock i (s.calls i)) := by
  have hkeys := keysOk_advance inv.keys hadvance
  cases hphase : s.calls i with
  | idle | admitted =>
      rw [hphase] at hadvance
      cases hadvance
  | succeeding => exact absurd hphase hsucc
  | asking | gotSince openSince =>
      rw [hphase] at hadvance
      simp only [advance] at hadvance
      split at hadvance <;> cases hadvance <;>
        exact inv.moveElsewhere (by rw [hphase]; rfl) hkeys rfl (fun _ hgot => by cases hgot)
  | sawOpen =>
      -- what it reads is as late as every opening it knows, or confuses them
      rw [hphase] at hadvance hclear
      cases hadvance
      apply inv.moveElsewhere (by rw [hphase]; rfl) hkeys rfl
      rintro openSince hgot opened hopened
      cases hgot
      show opened ≤ s.openSince
      rcases inv.stamped opened (inv.before i opened hopened) with hle | ⟨p, hp, rfl⟩
      · exact hle
      · by_contra hlt
        exact hclear ⟨p, hp, hopened, not_le.mp hlt⟩
  | cooledDown | failing =>
      rw [hphase] at hadvance
      cases hadvance
      exact inv.moveElsewhere (by rw [hphase]; rfl) hkeys rfl (fun _ hgot => by cases hgot)
  | sawHalfOpen | counted count =>
      rw [hphase] at hadvance
      cases hadvance
      apply inv.moveElsewhere (by rw [hphase]; rfl) hkeys rfl
      intro openSince hgot
      split at hgot <;> cases hgot
  | tripping =>
      rw [hphase] at hadvance
      cases hadvance
      exact inv.trip hphase hkeys rfl
  | tripped =>
      rw [hphase] at hadvance
      cases hadvance
      refine inv.moveTo hkeys rfl ?_ (fun _ hgot => by cases hgot)
      rintro p hp rfl
      -- the clock is read after the opening
      rcases inv.unstamped p hp with ⟨_, hle⟩ | ⟨since, hstamping, _⟩
      · exact Or.inr ⟨s.clock, Function.update_self .., hle⟩
      · rw [hphase] at hstamping
        cases hstamping
  | stamping since =>
      -- the write is stamped with an instant read before it
      rw [hphase] at hadvance hclear
      cases hadvance
      apply inv.leave hkeys
      intro opened hopened
      rw [Cell.get_set, Option.getD_some]
      by_cases hle : opened ≤ since
      · exact Or.inl hle
      · have hwaits : ∃ p ∈ h.unstamped, p.2 = opened := by
          by_contra hnone
          push Not at hnone
          exact hclear ⟨opened, hopened, not_le.mp hle, hnone⟩
        obtain ⟨p, hp, rfl⟩ := hwaits
        refine Or.inr ⟨p, hp, ?_, rfl⟩
        rintro rfl
        -- its own opening is not later than what it writes
        rcases inv.unstamped p hp with ⟨htripped, _⟩ | ⟨since', hstamping, hle'⟩
        · rw [hphase] at htripped
          cases htripped
        · rw [hphase] at hstamping
          cases hstamping
          exact hle hle'

theorem CoolingInv.tick {s : BreakerSystem} {h : Openings} (inv : CoolingInv s h) {now : Time}
    (hle : s.clock ≤ now) : CoolingInv { s with clock := now } h := by
  have hsame : BreakerSystem.openSince { s with clock := now } = s.openSince :=
    openSince_congr inv.keys inv.keys rfl
  refine ⟨inv.keys, ?_, ?_, inv.before, inv.since⟩
  · intro p hp
    rcases inv.unstamped p hp with ⟨htripped, hpast⟩ | hstamping
    · exact Or.inl ⟨htripped, hpast.trans hle⟩
    · exact Or.inr hstamping
  · rw [hsame]
    exact inv.stamped

theorem CoolingInv.start {s : BreakerSystem} {h : Openings} (inv : CoolingInv s h) {i : ℕ}
    (hidle : s.calls i = .idle) :
    CoolingInv (s.moveTo i .asking) { h with before := Function.update h.before i h.times } := by
  have hmoved : CoolingInv (s.moveTo i .asking) h :=
    inv.moveElsewhere (by rw [hidle]; rfl) inv.keys rfl (fun _ hgot => by cases hgot)
  refine ⟨hmoved.keys, hmoved.unstamped, hmoved.stamped, ?_, ?_⟩
  · intro j opened hopened
    dsimp only at hopened
    by_cases hj : j = i
    · subst hj
      rwa [Function.update_self] at hopened
    · rw [Function.update_of_ne hj] at hopened
      exact inv.before j opened hopened
  · intro j openSince hphase opened hopened
    dsimp only at hopened
    by_cases hj : j = i
    · subst hj
      rw [moveTo_calls, Function.update_self] at hphase
      cases hphase
    · rw [Function.update_of_ne hj] at hopened
      exact hmoved.since j openSince hphase opened hopened

/-- Each step of the system, unless it is a `DEL` or confuses the openings. -/
theorem coolingInv_next {s t : BreakerSystem × Openings} {label : BreakerLabel}
    (inv : CoolingInv s.1 s.2) (hsucc : ¬ Succeeds ⟨s, label, t⟩)
    (hclear : ¬ Confused ⟨s, label, t⟩)
    (hstep : (cooling settings).next s label = some t) : CoolingInv t.1 t.2 := by
  obtain ⟨hnext, hnote⟩ := Machine.withHistory_next_iff.mp hstep
  change breakerNext settings s.1 label = some t.1 at hnext
  rw [hnote]
  cases label with
  | tick now =>
      obtain ⟨hle, hs⟩ := breaker_tick hnext
      rw [hs]
      exact inv.tick hle
  | start i =>
      obtain ⟨hidle, hs⟩ := breaker_start hnext
      rw [hs]
      exact inv.start hidle
  | settle i call =>
      obtain ⟨hadmitted, hs⟩ := breaker_settle hnext
      rw [hs]
      apply inv.moveElsewhere (by rw [hadmitted]; rfl) inv.keys rfl
      intro openSince hgot
      cases hreport : call.report settings with
      | none =>
          rw [hreport] at hgot
          cases hgot
      | some phase =>
          have hinflight := report_inFlight hreport
          rw [hreport, Option.getD_some] at hgot
          rw [hgot] at hinflight
          cases hinflight
  | fault i =>
      -- a call that dies before its stamp leaves its opening without one
      obtain ⟨_, hs⟩ := breaker_fault hnext
      rw [hs]
      apply inv.leave inv.keys
      intro opened hopened
      rcases inv.stamped opened hopened with hle | ⟨p, hp, rfl⟩
      · exact Or.inl hle
      · by_cases hi : p.1 = i
        · left
          by_contra hlt
          exact hclear ⟨p, hp, hi, not_le.mp hlt⟩
        · exact Or.inr ⟨p, hp, hi, rfl⟩
  | step i =>
      obtain ⟨phase, keys, hadvance, hs⟩ := breaker_step hnext
      rw [hs]
      exact coolingInv_advance inv hsucc hclear hadvance

theorem coolingInv_init {s : BreakerSystem × Openings} (h : (cooling settings).init s) :
    CoolingInv s.1 s.2 := by
  obtain ⟨⟨hkeys, hcalls⟩, hhistory⟩ := h
  rw [hhistory]
  refine ⟨?_, ?_, ?_, ?_, ?_⟩
  · rw [hkeys]
    exact ⟨Cell.lasting_empty, Cell.lasting_empty, Cell.lasting_empty⟩
  · intro p hp
    cases hp
  · intro opened hopened
    cases hopened
  · intro i opened hopened
    cases hopened
  · intro i openSince hphase
    rw [hcalls] at hphase
    cases hphase

/-- A check whose `open_since` is that of an opening it has to respect, or of
a later one, respects it. -/
theorem respects_next {s t : BreakerSystem × Openings} {label : BreakerLabel}
    (inv : CoolingInv s.1 s.2) (hstep : (cooling settings).next s label = some t) :
    Respects settings ⟨s, label, t⟩ := by
  cases label with
  | tick now => trivial
  | start i => trivial
  | settle i call => trivial
  | fault i => trivial
  | step i =>
      have hnext : breakerNext settings s.1 (.step i) = some t.1 :=
        (Machine.withHistory_next_iff.mp hstep).1
      obtain ⟨phase, keys, hadvance, hs⟩ := breaker_step hnext
      show CommandRespects settings s.1 s.2 i t.1 (s.1.calls i)
      cases hphase : s.1.calls i with
      | gotSince openSince =>
          intro opened hopened hsoon
          have hle : opened ≤ openSince := inv.since i openSince hphase opened hopened
          have hearly : ¬ settings.circuitBreakerCooldownS ≤ s.1.clock - openSince := by linarith
          rw [hphase, advance, if_neg hearly] at hadvance
          cases hadvance
          rw [hs]
          exact ⟨Function.update_self .., rfl⟩
      | _ => trivial

/-- In a run without `record_success` in which no step confuses the openings,
every check respects the cooldown of every opening before it. -/
theorem cooldown_respected {s t : BreakerSystem × Openings}
    {moves : List (Move (BreakerSystem × Openings) BreakerLabel)}
    (hinit : (cooling settings).init s) (run : (cooling settings).Run s moves t)
    (hsucc : ∀ m ∈ moves, ¬ Succeeds m) (hclear : ∀ m ∈ moves, ¬ Confused m) :
    ∀ m ∈ moves, Respects settings m :=
  run.forall_moves (P := fun v => CoolingInv v.1 v.2) (C := fun m => ¬ Succeeds m ∧ ¬ Confused m)
    (fun _ _ _ inv hm hstep => coolingInv_next inv hm.1 hm.2 hstep)
    (fun _ _ _ inv _ hstep => respects_next inv hstep)
    (coolingInv_init hinit) (fun m hm => ⟨hsucc m hm, hclear m hm⟩)

/-! ## A check between the two writes -/

/-- The tenth failure has written `OPEN` and not yet `open_since` when the next
delivery asks. -/
def hastyRun : List BreakerLabel :=
  failedCalls 10 ++ [.step 9, .start 10, .step 10, .step 10, .step 10]

/-- Here it asks after the second write. -/
def patientRun : List BreakerLabel :=
  failedCalls 10 ++ [.step 9, .step 9, .step 9, .start 10, .step 10, .step 10, .step 10]

def openedAt : BreakerSystem × Openings := ({ freshBreaker with clock := 1000 }, {})

theorem cooldown_skipped :
    ¬ ∀ settings s t moves, (cooling settings).init s → (cooling settings).Run s moves t →
      (∀ m ∈ moves, ¬ Succeeds m) → ∀ m ∈ moves, Respects settings m := by
  intro h
  have hinit : (cooling {}).init openedAt := ⟨⟨rfl, rfl⟩, rfl⟩
  have hexec : (cooling {}).exec openedAt hastyRun = some ((cooling {}).after openedAt hastyRun) :=
    Machine.exec_eq_after (by decide +kernel)
  have run := Machine.run_trace hexec
  have hskipped : ¬ ∀ m ∈ (cooling {}).trace openedAt hastyRun, Respects {} m := by
    decide +kernel
  exact hskipped (h {} _ _ _ hinit run (by decide +kernel))

theorem cooldown_respected_patientRun :
    ((cooling {}).after openedAt patientRun).2.before 10 = [1000] ∧
      ∀ m ∈ (cooling {}).trace openedAt patientRun, Respects {} m := by
  have hinit : (cooling {}).init openedAt := ⟨⟨rfl, rfl⟩, rfl⟩
  have hexec : (cooling {}).exec openedAt patientRun =
      some ((cooling {}).after openedAt patientRun) :=
    Machine.exec_eq_after (by decide +kernel)
  have run := Machine.run_trace hexec
  exact ⟨by decide +kernel, cooldown_respected hinit run (by decide +kernel) (by decide +kernel)⟩

end WebhookRelay.Delivery
