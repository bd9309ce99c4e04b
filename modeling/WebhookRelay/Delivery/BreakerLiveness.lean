import WebhookRelay.Delivery.CircuitBreaker

/-!
# When the breaker lets a destination through again

`OPEN` gives way to the clock, but `half_tested` has no expiry: in state
`HALF_OPEN` with the token taken, only the report of a delivery already
admitted can change anything. `never_blocked_iff` says which runs reach such
a state with no delivery left to report.
-/

namespace WebhookRelay.Delivery

open Foundation

/-- With no admitted delivery in flight, `is_open` asked late enough and with
nothing in between says no. -/
def Recovers (settings : Settings) (s : BreakerSystem) : Prop :=
  (∀ i, (s.calls i).InFlight = false) →
    ∃ T, s.clock ≤ T ∧ (isOpen settings T s.keys).1 = false

/-- Half open, and the probe token taken. -/
def Stuck (keys : BreakerKeys) : Prop :=
  keys.state.slot.map Prod.fst = some .HALF_OPEN ∧ keys.halfTested.slot.isSome = true

/-- The keys `is_open` reads never expire. -/
structure KeysOk (keys : BreakerKeys) : Prop where
  state : keys.state.Lasting
  openSince : keys.openSince.Lasting
  halfTested : keys.halfTested.Lasting

variable {settings : Settings}

/-! ## What each command does to the keys -/

theorem keysOk_advance {now : Time} {keys keys' : BreakerKeys} {phase phase' : CallPhase}
    (h : KeysOk keys) (hstep : advance settings now keys phase = some (phase', keys')) :
    KeysOk keys' := by
  cases phase with
  | idle => cases hstep
  | admitted => cases hstep
  | asking =>
      simp only [advance] at hstep
      split at hstep <;> cases hstep <;> exact h
  | sawOpen =>
      cases hstep
      exact h
  | gotSince openSince =>
      simp only [advance] at hstep
      split at hstep <;> cases hstep <;> exact h
  | cooledDown =>
      cases hstep
      exact ⟨Cell.lasting_set keys.state _, h.openSince, h.halfTested⟩
  | sawHalfOpen =>
      cases hstep
      exact ⟨h.state, h.openSince, Cell.lasting_setnx h.halfTested now ()⟩
  | succeeding =>
      cases hstep
      exact ⟨Cell.lasting_empty, Cell.lasting_empty, Cell.lasting_empty⟩
  | failing =>
      cases hstep
      exact ⟨h.state, h.openSince, h.halfTested⟩
  | counted count =>
      cases hstep
      exact ⟨h.state, h.openSince, h.halfTested⟩
  | tripping =>
      cases hstep
      exact ⟨Cell.lasting_set keys.state _, h.openSince, h.halfTested⟩
  | tripped =>
      cases hstep
      exact h
  | stamping openSince =>
      cases hstep
      exact ⟨h.state, Cell.lasting_set keys.openSince _, h.halfTested⟩

theorem keysOk_next {s t : BreakerSystem} {label : BreakerLabel} (h : KeysOk s.keys)
    (hstep : breakerNext settings s label = some t) : KeysOk t.keys := by
  cases label with
  | tick now =>
      obtain ⟨_, rfl⟩ := breaker_tick hstep
      exact h
  | start i =>
      obtain ⟨_, rfl⟩ := breaker_start hstep
      exact h
  | step i =>
      obtain ⟨phase, keys, hadvance, rfl⟩ := breaker_step hstep
      exact keysOk_advance h hadvance
  | settle i call =>
      obtain ⟨_, rfl⟩ := breaker_settle hstep
      exact h
  | fault i =>
      obtain ⟨_, rfl⟩ := breaker_fault hstep
      exact h

/-- `OPEN` yields once the cooldown is over, `HALF_OPEN` to whoever takes the
token; with the token taken it never yields. -/
theorem exists_not_isOpen_iff {keys : BreakerKeys} (h : KeysOk keys) (clock : Time) :
    (∃ T, clock ≤ T ∧ (isOpen settings T keys).1 = false) ↔ ¬ Stuck keys := by
  have hstate := fun T => Cell.get_of_lasting h.state T
  have hsince := fun T => Cell.get_of_lasting h.openSince T
  have htested := fun T => Cell.get_of_lasting h.halfTested T
  unfold Stuck isOpen
  cases hs : keys.state.slot.map Prod.fst with
  | none =>
      refine iff_of_true ⟨clock, le_refl clock, ?_⟩ (by simp)
      simp [hstate, hs]
  | some state =>
      cases state with
      | OPEN =>
          -- an instant late enough for the cooldown
          refine iff_of_true ⟨max clock (settings.circuitBreakerCooldownS +
            (keys.openSince.slot.map Prod.fst).getD 0), le_max_left _ _, ?_⟩ (by simp)
          have hcooled : settings.circuitBreakerCooldownS ≤
              max clock (settings.circuitBreakerCooldownS +
                (keys.openSince.slot.map Prod.fst).getD 0) -
              (keys.openSince.slot.map Prod.fst).getD 0 := by
            have := le_max_right clock (settings.circuitBreakerCooldownS +
              (keys.openSince.slot.map Prod.fst).getD 0)
            linarith
          simp only [hstate, hs, hsince]
          rw [if_pos hcooled]
      | HALF_OPEN =>
          cases ht : keys.halfTested.slot with
          | none =>
              refine iff_of_true ⟨clock, le_refl clock, ?_⟩ (by simp)
              have hfree : keys.halfTested.get clock = none := by rw [htested, ht]; rfl
              simp [hstate, hs, Cell.setnx_of_none hfree]
          | some token =>
              -- `half_tested` has no expiry: the token is there at every instant
              refine iff_of_false ?_ (by simp)
              rintro ⟨T, _, hclosed⟩
              have htaken : keys.halfTested.get T = some token.1 := by rw [htested, ht]; rfl
              simp [hstate, hs, Cell.setnx_of_some htaken] at hclosed

/-- A command that ends or leaves a call out of flight neither strands nor
frees the destination, except for the `DEL` of `record_success`. -/
theorem stuck_advance {now : Time} {keys keys' : BreakerKeys} {phase phase' : CallPhase}
    (hstep : advance settings now keys phase = some (phase', keys'))
    (hout : phase'.InFlight = false) : Stuck keys' ↔ Stuck keys ∧ phase ≠ .succeeding := by
  cases phase with
  | idle => cases hstep
  | admitted => cases hstep
  | asking =>
      simp only [advance] at hstep
      split at hstep <;> cases hstep <;> simp
  | sawOpen =>
      cases hstep
      simp
  | gotSince openSince =>
      simp only [advance] at hstep
      split at hstep <;> cases hstep <;> simp
  | cooledDown =>
      -- these leave a call in flight and are not asked about
      cases hstep
      cases hout
  | sawHalfOpen =>
      unfold advance at hstep
      cases hget : keys.halfTested.get now with
      | none =>
          rw [Cell.setnx_of_none hget] at hstep
          cases hstep
          cases hout
      | some token =>
          rw [Cell.setnx_of_some hget] at hstep
          cases hstep
          simp
  | succeeding =>
      cases hstep
      refine iff_of_false ?_ (by simp)
      rintro ⟨hstate, _⟩
      cases hstate
  | failing =>
      cases hstep
      cases hout
  | counted count =>
      cases hstep
      simp [Stuck]
  | tripping =>
      cases hstep
      cases hout
  | tripped =>
      cases hstep
      cases hout
  | stamping openSince =>
      cases hstep
      simp [Stuck]

/-! ## Which steps strand the destination -/

/-- The last command of a call that does not close the breaker. -/
def CallPhase.EndsQuietly (settings : Settings) : CallPhase → Prop
  | .counted count => count < settings.circuitBreakerThreshold
  | .stamping _ => True
  | _ => False

/-- The step takes call `i` out of flight without a `record_success`: a rate
limit or an exception ends it with no report, a failure is below the
threshold, or the `OPEN` its failure wrote has been overwritten. -/
def EndsUnclosed (settings : Settings) (s : BreakerSystem) (i : ℕ) : BreakerLabel → Prop
  | .settle j call => j = i ∧ call.report settings = none
  | .step j => j = i ∧ (s.calls i).EndsQuietly settings
  | .fault j => j = i
  | .tick _ => False
  | .start _ => False

/-- The only delivery in flight. -/
def LastInFlight (s : BreakerSystem) (i : ℕ) : Prop :=
  (s.calls i).InFlight = true ∧ ∀ j, j ≠ i → (s.calls j).InFlight = false

/-- Half open and the token taken, the last delivery in flight ends without
closing the breaker. -/
def Strands (settings : Settings) (m : Move BreakerSystem BreakerLabel) : Prop :=
  Stuck m.src.keys ∧ ∃ i, LastInFlight m.src i ∧ EndsUnclosed settings m.src i m.label

theorem recovers_iff {s : BreakerSystem} (h : KeysOk s.keys) :
    Recovers settings s ↔ ((∀ i, (s.calls i).InFlight = false) → ¬ Stuck s.keys) := by
  unfold Recovers
  rw [exists_not_isOpen_iff h]

theorem endsQuietly_iff {now : Time} {keys keys' : BreakerKeys} {phase phase' : CallPhase}
    (hstep : advance settings now keys phase = some (phase', keys')) :
    phase.EndsQuietly settings ↔
      phase.InFlight = true ∧ phase'.InFlight = false ∧ phase ≠ .succeeding := by
  cases phase with
  | counted count =>
      simp only [advance, Option.some.injEq, Prod.mk.injEq] at hstep
      obtain ⟨rfl, _⟩ := hstep
      by_cases htrip : settings.circuitBreakerThreshold ≤ count
      · simp [CallPhase.EndsQuietly, CallPhase.InFlight, htrip]
      · simp only [CallPhase.EndsQuietly, if_neg htrip]
        simpa [CallPhase.InFlight] using htrip
  | idle => cases hstep
  | admitted => cases hstep
  | asking => simp [CallPhase.EndsQuietly, CallPhase.InFlight]
  | sawOpen => simp [CallPhase.EndsQuietly, CallPhase.InFlight]
  | gotSince openSince => simp [CallPhase.EndsQuietly, CallPhase.InFlight]
  | cooledDown => simp [CallPhase.EndsQuietly, CallPhase.InFlight]
  | sawHalfOpen => simp [CallPhase.EndsQuietly, CallPhase.InFlight]
  | succeeding => simp [CallPhase.EndsQuietly]
  | failing =>
      cases hstep
      simp [CallPhase.EndsQuietly, CallPhase.InFlight]
  | tripping =>
      cases hstep
      simp [CallPhase.EndsQuietly, CallPhase.InFlight]
  | tripped =>
      cases hstep
      simp [CallPhase.EndsQuietly, CallPhase.InFlight]
  | stamping openSince =>
      cases hstep
      simp [CallPhase.EndsQuietly, CallPhase.InFlight]

/-- After one call moves, nobody is in flight exactly when it is not and the
others were not. -/
theorem idle_after_iff {s : BreakerSystem} {i : ℕ} {phase : CallPhase} :
    (∀ j, (Function.update s.calls i phase j).InFlight = false) ↔
      phase.InFlight = false ∧ ∀ j, j ≠ i → (s.calls j).InFlight = false := by
  constructor
  · intro h
    refine ⟨by simpa using h i, ?_⟩
    intro j hj
    simpa [hj] using h j
  · rintro ⟨hi, hothers⟩ j
    by_cases hj : j = i
    · subst hj
      simpa using hi
    · simpa [hj] using hothers j hj

/-- One call moves and the destination is stranded afterwards: exactly when
the call was the last in flight, ended now, and the keys were stuck. -/
theorem recovers_after_iff {s t : BreakerSystem} {i : ℕ} {phase : CallPhase}
    {frees : Prop} (hs : KeysOk s.keys) (ht : KeysOk t.keys) (hrecovers : Recovers settings s)
    (hcalls : t.calls = Function.update s.calls i phase)
    (hkeys : phase.InFlight = false → (Stuck t.keys ↔ Stuck s.keys ∧ ¬ frees)) :
    Recovers settings t ↔
      ¬ (Stuck s.keys ∧ LastInFlight s i ∧ phase.InFlight = false ∧ ¬ frees) := by
  rw [recovers_iff ht, hcalls, idle_after_iff]
  rw [recovers_iff hs] at hrecovers
  constructor
  · rintro h ⟨hstuck, hlast, hout, hnot⟩
    exact h ⟨hout, hlast.2⟩ ((hkeys hout).mpr ⟨hstuck, hnot⟩)
  · rintro h ⟨hout, hothers⟩ hstuck
    obtain ⟨hstuck, hnot⟩ := (hkeys hout).mp hstuck
    refine h ⟨hstuck, ⟨?_, hothers⟩, hout, hnot⟩
    -- had it not been in flight, the destination was stranded before
    by_contra hidle
    rw [Bool.not_eq_true] at hidle
    refine hrecovers ?_ hstuck
    intro j
    by_cases hj : j = i
    · rw [hj, hidle]
    · exact hothers j hj

theorem report_inFlight {call : AdmittedCall} {phase : CallPhase}
    (h : call.report settings = some phase) : phase.InFlight = true := by
  unfold AdmittedCall.report at h
  obtain ⟨effect, _, heffect⟩ := List.exists_of_findSome?_eq_some h
  split at heffect <;> cases heffect <;> rfl

/-- Each step from a state that recovers leads to one that recovers, unless
it strands the destination. -/
theorem recovers_next {s t : BreakerSystem} {label : BreakerLabel} (hs : KeysOk s.keys)
    (hrecovers : Recovers settings s) (hstep : breakerNext settings s label = some t) :
    Recovers settings t ↔ ¬ Strands settings ⟨s, label, t⟩ := by
  have ht := keysOk_next hs hstep
  have hsame : Stuck s.keys ↔ Stuck s.keys ∧ ¬ False := by simp
  cases label with
  | tick now =>
      obtain ⟨_, rfl⟩ := breaker_tick hstep
      refine iff_of_true ?_ ?_
      · rw [recovers_iff ht]
        exact (recovers_iff hs).mp hrecovers
      · rintro ⟨_, i, _, hends⟩
        exact hends
  | start i =>
      -- one more call under way, none of them in flight by it
      obtain ⟨hidle, rfl⟩ := breaker_start hstep
      refine iff_of_true ?_ ?_
      · rw [recovers_iff ht]
        rw [recovers_iff hs] at hrecovers
        intro hnone
        apply hrecovers
        intro j
        by_cases hj : j = i
        · rw [hj, hidle]
          rfl
        · simpa [hj] using hnone j
      · rintro ⟨_, i, _, hends⟩
        exact hends
  | step i =>
      obtain ⟨phase, keys, hadvance, rfl⟩ := breaker_step hstep
      rw [recovers_after_iff hs ht hrecovers rfl (stuck_advance hadvance)]
      apply not_congr
      constructor
      · rintro ⟨hstuck, hlast, hout, hnot⟩
        exact ⟨hstuck, i, hlast, rfl, (endsQuietly_iff hadvance).mpr ⟨hlast.1, hout, hnot⟩⟩
      · rintro ⟨hstuck, j, hlast, rfl, hquiet⟩
        obtain ⟨_, hout, hnot⟩ := (endsQuietly_iff hadvance).mp hquiet
        exact ⟨hstuck, hlast, hout, hnot⟩
  | settle i call =>
      obtain ⟨_, rfl⟩ := breaker_settle hstep
      rw [recovers_after_iff hs ht hrecovers rfl (fun _ => hsame)]
      apply not_congr
      constructor
      · rintro ⟨hstuck, hlast, hout, _⟩
        refine ⟨hstuck, i, hlast, rfl, ?_⟩
        cases hreport : call.report settings with
        | none => rfl
        | some phase =>
            rw [hreport] at hout
            rw [Option.getD_some, report_inFlight hreport] at hout
            cases hout
      · rintro ⟨hstuck, j, hlast, rfl, hreport⟩
        refine ⟨hstuck, hlast, ?_, not_false⟩
        rw [hreport]
        rfl
  | fault i =>
      obtain ⟨_, rfl⟩ := breaker_fault hstep
      rw [recovers_after_iff hs ht hrecovers rfl (fun _ => hsame)]
      apply not_congr
      constructor
      · rintro ⟨hstuck, hlast, _, _⟩
        exact ⟨hstuck, i, hlast, rfl⟩
      · rintro ⟨hstuck, j, hlast, rfl⟩
        exact ⟨hstuck, hlast, rfl, not_false⟩

theorem keysOk_init {s : BreakerSystem} (h : (breaker settings).init s) : KeysOk s.keys := by
  rw [h.1]
  exact ⟨Cell.lasting_empty, Cell.lasting_empty, Cell.lasting_empty⟩

/-- A run keeps every destination reachable, in every state it visits, exactly
when none of its steps strands it: takes the last admitted delivery out of
flight, otherwise than by `record_success`, while the breaker is half open
with its token taken. -/
theorem never_blocked_iff {s t : BreakerSystem} {moves : List (Move BreakerSystem BreakerLabel)}
    (hinit : (breaker settings).init s) (run : (breaker settings).Run s moves t) :
    (∀ v, Machine.Visited s moves v → Recovers settings v) ↔
      ∀ m ∈ moves, ¬ Strands settings m := by
  have hok := keysOk_init hinit
  have hstart : Recovers settings s := by
    rw [recovers_iff hok, hinit.1]
    rintro _ ⟨hstate, _⟩
    cases hstate
  exact run.forall_visited_iff (fun _ _ _ => keysOk_next) (fun _ _ _ => recovers_next) hok hstart

/-! ## A stranded destination -/

def slowRoute : RouteDict where
  id := 7
  url := "https://example.com/hook"

/-- A call that is answered 503, and one the destination limiter turns away. -/
def failingCall : AdmittedCall := { route := slowRoute, answers := { http := .response 503 "" } }

def limitedCall : AdmittedCall := { route := slowRoute, answers := { destAllows := .ok false } }

/-- Ten failures open the breaker. After the cooldown one call is let through
and one more takes the token; the limiter turns both away. -/
def strandingRun : List BreakerLabel :=
  (List.range 10).flatMap (fun i =>
    [.start i, .step i, .settle i failingCall, .step i, .step i]) ++
  [.step 9, .step 9, .step 9, .tick 30,
    .start 10, .step 10, .step 10, .step 10, .step 10, .settle 10 limitedCall,
    .start 11, .step 11, .step 11, .settle 11 limitedCall]

/-- The call a label is about. -/
def BreakerLabel.call : BreakerLabel → Option ℕ
  | .tick _ => none
  | .start i | .step i | .settle i _ | .fault i => some i

theorem calls_of_exec {s t : BreakerSystem} {labels : List BreakerLabel} {i : ℕ}
    (h : (breaker settings).exec s labels = some t) (hi : some i ∉ labels.map BreakerLabel.call) :
    t.calls i = s.calls i := by
  induction labels generalizing s with
  | nil =>
      cases h
      rfl
  | cons label rest ih =>
      simp only [Machine.exec, Option.bind_eq_some_iff] at h
      obtain ⟨u, hstep, hrest⟩ := h
      rw [List.map_cons, List.mem_cons, not_or] at hi
      rw [ih hrest hi.2]
      have hother : ∀ j phase, some j = label.call →
          Function.update s.calls j phase i = s.calls i := by
        intro j phase hj
        apply Function.update_of_ne
        rintro rfl
        exact hi.1 hj
      cases label with
      | tick now =>
          simp only [breaker, breakerNext, Option.ite_none_right_eq_some, Option.some.injEq]
            at hstep
          obtain ⟨_, rfl⟩ := hstep
          rfl
      | step j =>
          simp only [breaker, breakerNext, Option.map_eq_some_iff, Prod.exists] at hstep
          obtain ⟨phase, keys, _, rfl⟩ := hstep
          exact hother j phase rfl
      | start j | settle j call | fault j =>
          simp only [breaker, breakerNext, Option.ite_none_right_eq_some, Option.some.injEq]
            at hstep
          obtain ⟨_, rfl⟩ := hstep
          exact hother j _ rfl

def freshBreaker : BreakerSystem := ⟨0, {}, fun _ => .idle⟩

def strandedBreaker : BreakerSystem := (breaker {}).after freshBreaker strandingRun

theorem exec_strandingRun : (breaker {}).exec freshBreaker strandingRun = some strandedBreaker :=
  Machine.exec_eq_after (by decide +kernel)

theorem not_recovers_strandedBreaker : ¬ Recovers {} strandedBreaker := by
  have hstuck : Stuck strandedBreaker.keys := by
    unfold Stuck
    decide +kernel
  have hdone : ∀ i : Fin 12, (strandedBreaker.calls i).InFlight = false := by
    decide +kernel
  have hcalls : strandingRun.map BreakerLabel.call ⊆ none :: (List.range 12).map some := by
    decide +kernel
  have hreach := Machine.reachable_of_exec (M := breaker {}) ⟨rfl, rfl⟩ exec_strandingRun
  have hok := hreach.invariant (fun _ => keysOk_init) (fun _ _ _ => keysOk_next)
  intro hrecovers
  refine (recovers_iff hok).mp hrecovers ?_ hstuck
  intro i
  by_cases hi : i < 12
  · exact hdone ⟨i, hi⟩
  · -- calls from 12 on never started
    rw [calls_of_exec exec_strandingRun]
    · rfl
    · intro hmem
      have hlisted := hcalls hmem
      simp only [List.mem_cons, reduceCtorEq, List.mem_map, List.mem_range, Option.some.injEq,
        exists_eq_right, false_or] at hlisted
      exact hi hlisted

theorem stranded_by_rate_limit :
    ¬ ∀ s, (breaker {}).Reachable s → Recovers {} s := by
  intro h
  have hinit : (breaker {}).init freshBreaker := ⟨rfl, rfl⟩
  exact not_recovers_strandedBreaker (h _ (Machine.reachable_of_exec hinit exec_strandingRun))

theorem some_move_of_strandingRun_strands :
    ∃ moves, (breaker {}).Run freshBreaker moves strandedBreaker ∧
      moves.map Move.label = strandingRun ∧ ∃ m ∈ moves, Strands {} m := by
  obtain ⟨moves, run, hlabels⟩ := Machine.exists_run_of_exec exec_strandingRun
  refine ⟨moves, run, hlabels, ?_⟩
  by_contra hnone
  have hmoves : ∀ m ∈ moves, ¬ Strands {} m := fun m hm hstrands => hnone ⟨m, hm, hstrands⟩
  have hall := (never_blocked_iff ⟨rfl, rfl⟩ run).mpr hmoves
  exact not_recovers_strandedBreaker (hall _ run.visited_last)

end WebhookRelay.Delivery
