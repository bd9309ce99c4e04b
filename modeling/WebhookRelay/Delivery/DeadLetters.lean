import WebhookRelay.Delivery.Worker

/-!
# Which deliveries leave a trace

A delivery should end with an answer of the destination (2xx, or a 4xx that
retrying would not change) or with a dead letter. Of the exits of
`_deliver_with_retry` only the exhausted one publishes the dead letter;
`accounted_iff_last_decides` reads off the last call's answers whether the
delivery was dropped.
-/

namespace WebhookRelay.Delivery

def deadLetters (effects : List Effect) : List KafkaMessage :=
  effects.filterMap (fun e => match e with
    | .deadLetter message => some message
    | _ => none)

/-- The statuses of the responses obtained. -/
def statuses (effects : List Effect) : List ℕ :=
  effects.filterMap (fun e => match e with
    | .request _ outcome => outcome.status
    | _ => none)

/-- Some attempt obtained a 2xx or a 4xx response. -/
def Answered (effects : List Effect) : Prop :=
  ∃ s ∈ statuses effects, (200 ≤ s ∧ s < 300) ∨ (400 ≤ s ∧ s < 500)

def IsDeadLetterFor (settings : Settings) (eventId : UUID) (route : RouteDict)
    (message : KafkaMessage) : Prop :=
  message.topic = settings.kafkaTopicDeadLetter ∧
    message.value.lookup "event_id" = some (.str eventId.str) ∧
    message.value.lookup "route_id" = some (.str route.id.str)

/-- Exactly one dead letter without an answer, none with one. -/
def Accounted (settings : Settings) (eventId : UUID) (route : RouteDict)
    (effects : List Effect) : Prop :=
  (¬ Answered effects → ∃ m, deadLetters effects = [m] ∧ IsDeadLetterFor settings eventId route m) ∧
    (Answered effects → deadLetters effects = [])

/-- An outcome after which a last attempt is not dropped: an exception, or a
status the code tests for. -/
def Conclusive (outcome : HttpOutcome) : Prop :=
  match outcome.status with
  | some s => (200 ≤ s ∧ s < 300) ∨ 400 ≤ s
  | none => True

/-- The call got as far as its request, and the request was conclusive. -/
def Decides (route : RouteDict) (ans : CallAnswers) : Prop :=
  ans.isOpen = .ok false ∧ (route.rateLimitRpm.isSome = true → ans.routeAllows = .ok true) ∧
    ans.destAllows = .ok true ∧ (ans.urlCheck = .ok () → Conclusive ans.http)

/-! ## Effects of the stretches of a call -/

section Effects

@[simp] theorem deadLetters_append (first second : List Effect) :
    deadLetters (first ++ second) = deadLetters first ++ deadLetters second :=
  List.filterMap_append

@[simp] theorem statuses_append (first second : List Effect) :
    statuses (first ++ second) = statuses first ++ statuses second :=
  List.filterMap_append

/-- Effects that neither answer the delivery nor bury it. -/
def Undecided (effects : List Effect) : Prop := ¬ Answered effects ∧ deadLetters effects = []

variable {settings : Settings} {eventId : UUID} {route : RouteDict} {body : Json}

/-- What precedes is no matter as long as it left the delivery undecided. -/
theorem accounted_append_of_undecided {first second : List Effect} (h : Undecided first) :
    Accounted settings eventId route (first ++ second) ↔
      Accounted settings eventId route second := by
  obtain ⟨hanswered, hletters⟩ := h
  have hiff : Answered (first ++ second) ↔ Answered second := by
    constructor
    · rintro ⟨s, hs, hstatus⟩
      rw [statuses_append] at hs
      rcases List.mem_append.mp hs with hs | hs
      · exact absurd ⟨s, hs, hstatus⟩ hanswered
      · exact ⟨s, hs, hstatus⟩
    · rintro ⟨s, hs, hstatus⟩
      refine ⟨s, ?_, hstatus⟩
      rw [statuses_append]
      exact List.mem_append_right _ hs
  unfold Accounted
  rw [hiff, deadLetters_append, hletters, List.nil_append]

/-- Nothing was sent and nothing buried: the delivery is dropped. -/
theorem not_accounted_of_undecided {effects : List Effect} (h : Undecided effects) :
    ¬ Accounted settings eventId route effects := by
  intro haccounted
  obtain ⟨m, hm, _⟩ := haccounted.1 h.1
  rw [h.2] at hm
  cases hm

variable {attempt waits : ℕ} {ans : CallAnswers} {effects : List Effect} {next : Next}

theorem recorded_cases {row : DeliveryAttempt} {rest : List Effect × Next}
    (h : recorded ans row rest = (effects, next)) (hnext : ∀ exc, next ≠ .raised exc) :
    effects = .attempt row :: rest.1 ∧ next = rest.2 := by
  unfold recorded at h
  split at h
  · rename_i exc _
    rw [Prod.mk.injEq] at h
    exact absurd h.2.symm (hnext exc)
  · rw [Prod.mk.injEq] at h
    exact ⟨h.1.symm, h.2.symm⟩

theorem reported_cases {report : Effect} {rest : List Effect × Next}
    (h : reported ans report rest = (effects, next)) (hnext : ∀ exc, next ≠ .raised exc) :
    effects = report :: rest.1 ∧ next = rest.2 := by
  unfold reported at h
  split at h
  · rename_i exc _
    rw [Prod.mk.injEq] at h
    exact absurd h.2.symm (hnext exc)
  · rw [Prod.mk.injEq] at h
    exact ⟨h.1.symm, h.2.symm⟩

/-- Where a call may go on: to the next attempt, or to the same attempt after
waiting for the destination limiter. -/
def Advances (settings : Settings) (route : RouteDict) (attempt waits attempt' waits' : ℕ) : Prop :=
  (attempt' = attempt + 1 ∧ waits' = 0 ∧ (attempt : ℤ) + 1 < maxRetries settings route) ∨
    (attempt' = attempt ∧ waits' = waits + 1 ∧ waits < maxRateLimitWaits)

theorem conclude_again {outcome : HttpOutcome} {attempt' waits' : ℕ}
    (h : conclude settings eventId route body attempt ans outcome =
      (effects, .again attempt' waits')) :
    statuses effects = [] ∧ deadLetters effects = [] ∧ outcome.isSuccess = false ∧
      outcome.isClientError = false ∧ attempt' = attempt + 1 ∧ waits' = 0 ∧
      (attempt : ℤ) + 1 < maxRetries settings route := by
  unfold conclude at h
  split at h
  · obtain ⟨_, hnext⟩ := reported_cases h (by simp)
    cases hnext
  · rename_i hsuccess
    obtain ⟨rfl, hnext⟩ := reported_cases h (by simp)
    split at hnext
    · cases hnext
    · rename_i hclient
      rw [if_neg hclient]
      split at hnext
      · rename_i hretry
        rw [if_pos hretry]
        split at hnext
        · rename_i hmore
          rw [if_pos hmore]
          cases hnext
          exact ⟨rfl, rfl, by simpa using hsuccess, by simpa using hclient, rfl, rfl, hmore⟩
        · unfold bury at hnext
          split at hnext <;> cases hnext
      · cases hnext

/-- With a producer that acknowledges, a last attempt is buried exactly when
it ends in an error or a status of 500 and above. -/
theorem conclude_returned {outcome : HttpOutcome} (hacked : ans.deadLetter = .acked)
    (h : conclude settings eventId route body attempt ans outcome = (effects, .returned)) :
    statuses effects = [] ∧ deadLetters effects =
      if outcome.isSuccess ∨ outcome.isClientError ∨ ¬ outcome.isRetryable then []
      else [deadLetterMessage settings eventId route body outcome] := by
  unfold conclude at h
  split at h
  · rename_i hsuccess
    obtain ⟨rfl, _⟩ := reported_cases h (by simp)
    exact ⟨rfl, by rw [if_pos (Or.inl hsuccess)]; rfl⟩
  · rename_i hsuccess
    obtain ⟨rfl, hnext⟩ := reported_cases h (by simp)
    split at hnext
    · rename_i hclient
      rw [if_pos hclient, if_pos (Or.inr (Or.inl hclient))]
      exact ⟨rfl, rfl⟩
    · rename_i hclient
      rw [if_neg hclient]
      split at hnext
      · rename_i hretry
        rw [if_pos hretry]
        split at hnext
        · cases hnext
        · rename_i hlast
          -- the three tests, in the order the code makes them
          have hbury : ¬ (outcome.isSuccess = true ∨ outcome.isClientError = true ∨
              ¬ outcome.isRetryable = true) := by
            rintro (hcontra | hcontra | hcontra)
            · exact hsuccess hcontra
            · exact hclient hcontra
            · exact hcontra hretry
          rw [if_neg hlast, if_neg hbury]
          unfold bury
          rw [hacked]
          exact ⟨rfl, rfl⟩
      · rename_i hretry
        rw [if_neg hretry, if_pos (Or.inr (Or.inr hretry))]
        exact ⟨rfl, rfl⟩

/-- What the `try` block around the request comes to. -/
def CallAnswers.outcome (ans : CallAnswers) : HttpOutcome :=
  match ans.urlCheck with
  | .error exc => .raised exc
  | .ok _ => ans.http

theorem requested_cases (h : requested settings eventId route body attempt ans = (effects, next))
    (hnext : ∀ exc, next ≠ .raised exc) :
    ∃ sent rest, effects = sent ++ rest ∧ statuses sent = ans.outcome.status.toList ∧
      deadLetters sent = [] ∧
      conclude settings eventId route body attempt ans ans.outcome = (rest, next) := by
  unfold requested at h
  split at h
  · rename_i exc hcheck
    obtain ⟨rfl, hrest⟩ := recorded_cases h hnext
    have houtcome : ans.outcome = .raised exc := by simp only [CallAnswers.outcome, hcheck]
    rw [houtcome]
    exact ⟨[.attempt (attemptRow eventId route body attempt ans (.raised exc))], _, rfl, rfl, rfl,
      Prod.ext rfl hrest.symm⟩
  · rename_i hcheck
    generalize hrecorded : recorded ans (attemptRow eventId route body attempt ans ans.http)
      (conclude settings eventId route body attempt ans ans.http) = result at h
    obtain ⟨fx, last⟩ := result
    simp only [Prod.mk.injEq] at h
    obtain ⟨rfl, rfl⟩ := h
    obtain ⟨hfx, hnext'⟩ := recorded_cases hrecorded hnext
    have houtcome : ans.outcome = ans.http := by simp only [CallAnswers.outcome, hcheck]
    rw [houtcome]
    refine ⟨[.request (request settings route body) ans.http,
      .attempt (attemptRow eventId route body attempt ans ans.http)], _, ?_, ?_, rfl,
      Prod.ext rfl hnext'.symm⟩
    · rw [hfx]
      rfl
    · cases ans.http <;> rfl

theorem answered_iff {sent rest : List Effect} {outcome : HttpOutcome}
    (hsent : statuses sent = outcome.status.toList) (hrest : statuses rest = []) :
    Answered (sent ++ rest) ↔ outcome.isSuccess = true ∨ outcome.isClientError = true := by
  unfold Answered HttpOutcome.isSuccess HttpOutcome.isClientError
  rw [statuses_append, hsent, hrest, List.append_nil]
  cases outcome.status with
  | none => simp
  | some s => simp

theorem isDeadLetterFor_deadLetterMessage (outcome : HttpOutcome) :
    IsDeadLetterFor settings eventId route
      (deadLetterMessage settings eventId route body outcome) :=
  ⟨rfl, rfl, rfl⟩

/-- Between them, the three tests on the outcome account for every outcome
but a status below 200 or from 300 to 399. -/
theorem accounted_iff_conclusive {outcome : HttpOutcome}
    (hanswered : Answered effects ↔ outcome.isSuccess = true ∨ outcome.isClientError = true)
    (hletters : deadLetters effects =
      if outcome.isSuccess ∨ outcome.isClientError ∨ ¬ outcome.isRetryable then []
      else [deadLetterMessage settings eventId route body outcome]) :
    Accounted settings eventId route effects ↔ Conclusive outcome := by
  have hbury : ¬ Answered effects → outcome.isRetryable = true →
      ∃ m, deadLetters effects = [m] ∧ IsDeadLetterFor settings eventId route m := by
    intro hnot hretry
    rw [hanswered, not_or] at hnot
    refine ⟨deadLetterMessage settings eventId route body outcome, ?_,
      isDeadLetterFor_deadLetterMessage outcome⟩
    rw [hletters, if_neg]
    rintro (h | h | h)
    · exact hnot.1 h
    · exact hnot.2 h
    · exact h hretry
  have hspare : Answered effects → deadLetters effects = [] := by
    intro h
    rw [hletters, if_pos]
    rcases hanswered.mp h with h | h
    · exact Or.inl h
    · exact Or.inr (Or.inl h)
  -- 2xx, 4xx and from 500 on leave out what is below 200 and 3xx
  have hconclusive : Conclusive outcome ↔ Answered effects ∨ outcome.isRetryable = true := by
    rw [hanswered]
    unfold Conclusive HttpOutcome.isSuccess HttpOutcome.isClientError HttpOutcome.isRetryable
    cases outcome.status with
    | none => simp
    | some s =>
        simp only [Bool.and_eq_true, decide_eq_true_eq]
        omega
  rw [hconclusive]
  constructor
  · intro haccounted
    by_contra hnot
    rw [not_or] at hnot
    obtain ⟨m, hm, _⟩ := haccounted.1 hnot.1
    rw [hletters, if_pos (Or.inr (Or.inr hnot.2))] at hm
    cases hm
  · intro h
    exact ⟨fun hnot => hbury hnot (h.resolve_left hnot), hspare⟩

/-- A call that recurses leaves the delivery undecided. -/
theorem deliverCall_again {attempt' waits' : ℕ}
    (h : deliverCall settings eventId route body attempt waits ans =
      (effects, .again attempt' waits')) :
    Undecided effects ∧ Advances settings route attempt waits attempt' waits' := by
  have hnext : ∀ exc, (Next.again attempt' waits') ≠ .raised exc := by simp
  have quiet : ∀ fx : List Effect, statuses fx = [] → deadLetters fx = [] → Undecided fx := by
    intro fx hstatuses hletters
    refine ⟨?_, hletters⟩
    rintro ⟨s, hs, _⟩
    rw [hstatuses] at hs
    cases hs
  unfold deliverCall at h
  split at h
  · cases h
  · obtain ⟨rfl, hrest⟩ := recorded_cases h hnext
    split at hrest
    · rename_i hmore
      rw [if_pos hmore]
      cases hrest
      exact ⟨quiet _ rfl rfl, Or.inl ⟨rfl, rfl, hmore⟩⟩
    · cases hrest
  · unfold admitted at h
    split at h
    · cases h
    · obtain ⟨_, hrest⟩ := recorded_cases h hnext
      cases hrest
    · split at h
      · cases h
      · split at h
        · obtain ⟨_, hrest⟩ := recorded_cases h hnext
          cases hrest
        · rename_i hwaits
          cases h
          exact ⟨quiet _ rfl rfl, Or.inr ⟨rfl, rfl, by omega⟩⟩
      · obtain ⟨sent, rest, rfl, hsent, hletters, hconclude⟩ := requested_cases h hnext
        obtain ⟨hrest, hnone, hsuccess, hclient, hadvance⟩ := conclude_again hconclude
        refine ⟨⟨?_, ?_⟩, Or.inl hadvance⟩
        · rw [answered_iff hsent hrest, hsuccess, hclient]
          simp
        · rw [deadLetters_append, hletters, hnone]
          rfl

/-- A call that returns leaves the delivery accounted for exactly when it
decides it. -/
theorem accounted_of_returned (hacked : ans.deadLetter = .acked)
    (h : deliverCall settings eventId route body attempt waits ans = (effects, .returned)) :
    Accounted settings eventId route effects ↔ Decides route ans := by
  have hnext : ∀ exc, Next.returned ≠ .raised exc := by simp
  have dropped : ∀ row, ¬ Decides route ans →
      (Accounted settings eventId route [.attempt row] ↔ Decides route ans) := by
    intro row hnot
    have hundecided : Undecided [Effect.attempt row] := ⟨by simp [Answered, statuses], rfl⟩
    exact iff_of_false (not_accounted_of_undecided hundecided) hnot
  unfold deliverCall at h
  split at h
  · cases h
  · rename_i hopen
    obtain ⟨rfl, hrest⟩ := recorded_cases h hnext
    split at hrest
    · cases hrest
    · rename_i hlast
      rw [if_neg hlast]
      apply dropped
      rintro ⟨hbreaker, _⟩
      rw [hopen] at hbreaker
      cases hbreaker
  · rename_i hclosed
    -- past the breaker; a limiter that says no ends it as well
    unfold admitted at h
    split at h
    · cases h
    · rename_i hroute
      obtain ⟨rfl, _⟩ := recorded_cases h hnext
      apply dropped
      rintro ⟨_, hallows, _⟩
      split at hroute
      · rename_i hsome
        rw [hallows hsome] at hroute
        cases hroute
      · cases hroute
    · rename_i hroute
      split at h
      · cases h
      · rename_i hdest
        split at h
        · obtain ⟨rfl, _⟩ := recorded_cases h hnext
          apply dropped
          rintro ⟨_, _, hallows, _⟩
          rw [hdest] at hallows
          cases hallows
        · cases h
      · rename_i hdest
        obtain ⟨sent, rest, rfl, hsent, hletters, hconclude⟩ := requested_cases h hnext
        obtain ⟨hrest, hburied⟩ := conclude_returned hacked hconclude
        -- all three questions were answered well, so only the outcome is left
        have hdecides : Decides route ans ↔ Conclusive ans.outcome := by
          have hlimits : route.rateLimitRpm.isSome = true → ans.routeAllows = .ok true := by
            intro hsome
            rwa [if_pos hsome] at hroute
          unfold Decides CallAnswers.outcome
          cases hcheck : ans.urlCheck with
          | error exc =>
              simp only [hclosed, hdest, Conclusive, HttpOutcome.status]
              simpa using hlimits
          | ok _ =>
              simp only [hclosed, hdest]
              constructor
              · intro h
                exact h.2.2.2 trivial
              · intro h
                exact ⟨trivial, hlimits, trivial, fun _ => h⟩
        rw [hdecides]
        have hall : deadLetters (sent ++ rest) = deadLetters rest := by
          rw [deadLetters_append, hletters, List.nil_append]
        exact accounted_iff_conclusive (answered_iff hsent hrest) (hall.trans hburied)

end Effects

/-! ## The whole delivery -/

section Delivery

variable {settings : Settings} {eventId : UUID} {route : RouteDict} {body : Json}

/-- Bounds the calls still to come. -/
def callBudget (settings : Settings) (route : RouteDict) (attempt waits : ℕ) : ℕ :=
  (maxRateLimitWaits + 1) * (maxRetries settings route - attempt).toNat +
    (maxRateLimitWaits - waits)

theorem callBudget_lt {attempt waits attempt' waits' : ℕ}
    (h : Advances settings route attempt waits attempt' waits') :
    callBudget settings route attempt' waits' < callBudget settings route attempt waits := by
  unfold callBudget
  unfold Advances at h
  simp only [maxRateLimitWaits] at h ⊢
  rcases h with ⟨rfl, rfl, hmore⟩ | ⟨rfl, rfl, hwaits⟩
  · push_cast
    omega
  · omega

theorem accounted_deliver {answers : List CallAnswers} {attempt waits : ℕ} {effects : List Effect}
    (hacked : ∀ ans ∈ answers, ans.deadLetter = .acked)
    (h : deliver settings eventId route body attempt waits answers = some (effects, .ok ())) :
    Accounted settings eventId route effects ↔ ∃ last ∈ answers.getLast?, Decides route last := by
  induction answers generalizing attempt waits effects with
  | nil => cases h
  | cons ans rest ih =>
      unfold deliver at h
      split at h
      · -- the call recursed: what it did so far decides nothing
        rename_i first attempt' waits' hcall
        simp only [Option.map_eq_some_iff, Prod.exists, Prod.mk.injEq] at h
        obtain ⟨second, result, hrest, rfl, rfl⟩ := h
        have hne : rest ≠ [] := by
          rintro rfl
          cases hrest
        rw [accounted_append_of_undecided (deliverCall_again hcall).1, List.getLast?_cons_of_ne_nil
          hne]
        exact ih (fun a ha => hacked a (List.mem_cons_of_mem _ ha)) hrest
      · rename_i last hcall
        split at h
        · rename_i hend
          cases h
          rw [List.isEmpty_iff] at hend
          subst hend
          rw [accounted_of_returned (hacked ans List.mem_cons_self) hcall]
          simp
        · cases h
      · split at h <;> cases h

/-- A delivery that returns, every dead letter being acknowledged, is
accounted for exactly when its last call found the breaker closed and both
limiters willing, and its request ended in an exception or in a status that
is 2xx or at least 400. -/
theorem accounted_iff_last_decides {answers : List CallAnswers} {effects : List Effect}
    (hacked : ∀ ans ∈ answers, ans.deadLetter = .acked)
    (h : deliver settings eventId route body 0 0 answers = some (effects, .ok ())) :
    Accounted settings eventId route effects ↔ ∃ last ∈ answers.getLast?, Decides route last :=
  accounted_deliver hacked h

end Delivery

/-! ## A dropped delivery -/

def lonelyRoute : RouteDict where
  id := 7
  url := "https://example.com/hook"
  maxRetries := some 1

/-- Its one attempt finds the breaker open. -/
def shutOut : List CallAnswers := [{ isOpen := .ok true }]

/-- The delivery returns, no request was sent and no dead letter published. -/
theorem dropped_at_open_breaker :
    ¬ ∀ (route : RouteDict) (answers : List CallAnswers) (effects : List Effect),
      1 ≤ maxRetries {} route → (∀ ans ∈ answers, ans.deadLetter = .acked) →
      deliver {} 1 route .null 0 0 answers = some (effects, .ok ()) →
      Accounted {} 1 route effects := by
  intro h
  have hrun : deliver {} 1 lonelyRoute .null 0 0 shutOut =
      some ([.attempt (skippedRow 1 lonelyRoute .null 0 { isOpen := .ok true }
        "circuit_breaker_open")], .ok ()) := by
    rfl
  have haccounted := h lonelyRoute shutOut _ (by decide) (by simp [shutOut]) hrun
  exact not_accounted_of_undecided ⟨by simp [Answered, statuses], rfl⟩ haccounted

/-- A timeout, a retry and a 503. -/
def timeoutThen503 : List CallAnswers := [{ http := .timeout "" }, { http := .response 503 "" }]

theorem accounted_after_503 : ∃ effects,
    deliver {} 1 { lonelyRoute with maxRetries := some 2 } .null 0 0 timeoutThen503 =
        some (effects, .ok ()) ∧
      Accounted {} 1 { lonelyRoute with maxRetries := some 2 } effects := by
  have hacked : ∀ ans ∈ timeoutThen503, ans.deadLetter = .acked := by simp [timeoutThen503]
  refine ⟨_, rfl, (accounted_iff_last_decides hacked rfl).mpr ?_⟩
  refine ⟨{ http := .response 503 "" }, rfl, rfl, ?_, rfl, fun _ => Or.inr (by norm_num)⟩
  intro hsome
  cases hsome

end WebhookRelay.Delivery
