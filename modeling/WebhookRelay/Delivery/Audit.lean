import WebhookRelay.Delivery.DeadLetters

/-!
# What the attempt rows say

The rows `_deliver_with_retry` leaves for one event and one route are read as
the record of that delivery. `Course` is the shape a delivery can take, call by
call: pauses for the destination limiter, attempts that are retried, and the
attempt it ends with. Every delivery whose questions are answered takes such a
course, and what the rows say is read off the course alone.
-/

namespace WebhookRelay.Delivery

def rowsOf (effects : List Effect) : List DeliveryAttempt :=
  effects.filterMap (fun e => match e with
    | .attempt row => some row
    | _ => none)

/-- How the requests sent came out. -/
def outcomesOf (effects : List Effect) : List HttpOutcome :=
  effects.filterMap (fun e => match e with
    | .request _ outcome => some outcome
    | _ => none)

/-- One call of the recursion: its attempt number and what it did. -/
abbrev Call := ℕ × List Effect

def effectsOf (trace : List Call) : List Effect := trace.flatMap Prod.snd

@[simp] theorem effectsOf_cons (call : Call) (rest : List Call) :
    effectsOf (call :: rest) = call.2 ++ effectsOf rest := rfl

@[simp] theorem rowsOf_append (first second : List Effect) :
    rowsOf (first ++ second) = rowsOf first ++ rowsOf second :=
  List.filterMap_append

/-- The rows of that attempt. -/
def rowsAt (number : ℕ) (rows : List DeliveryAttempt) : List DeliveryAttempt :=
  rows.filter (fun row => row.attemptNumber = (number : ℤ))

/-- The row has the status or the error of that outcome. -/
def Records (row : DeliveryAttempt) (outcome : HttpOutcome) : Prop :=
  row.responseStatus = outcome.status ∧ row.error = outcome.error

/-- The row of a 2xx or a 4xx response. -/
def Settled (row : DeliveryAttempt) : Prop :=
  ∃ s, row.responseStatus = some s ∧ ((200 ≤ s ∧ s < 300) ∨ (400 ≤ s ∧ s < 500))

/-- A call that notes its attempt: one row, for the request it sent if it sent one. -/
structure Notes (attempt : ℕ) (effects : List Effect) (row : DeliveryAttempt) : Prop where
  rows : rowsOf effects = [row]
  number : row.attemptNumber = attempt
  outcome : outcomesOf effects = [] ∨ ∃ o, outcomesOf effects = [o] ∧ Records row o

/-- The courses a delivery can take from an attempt on. -/
inductive Course (limit : ℤ) : ℕ → List Call → Prop where
  | ended {attempt : ℕ} {effects : List Effect} {row : DeliveryAttempt} :
      Notes attempt effects row → Course limit attempt [(attempt, effects)]
  | paused {attempt : ℕ} {effects : List Effect} {rest : List Call} :
      rowsOf effects = [] → outcomesOf effects = [] → Course limit attempt rest →
      Course limit attempt ((attempt, effects) :: rest)
  | retried {attempt : ℕ} {effects : List Effect} {row : DeliveryAttempt} {rest : List Call} :
      Notes attempt effects row → ¬ Settled row → (attempt : ℤ) + 1 < limit →
      Course limit (attempt + 1) rest → Course limit attempt ((attempt, effects) :: rest)

/-! ## What a course leaves -/

section Course

variable {limit : ℤ} {attempt : ℕ} {trace : List Call}

theorem Course.rows_numbered (h : Course limit attempt trace) :
    (rowsOf (effectsOf trace)).map (·.attemptNumber) =
      (List.range' attempt (rowsOf (effectsOf trace)).length).map Int.ofNat := by
  induction h with
  | ended hnotes => simp [effectsOf, hnotes.rows, hnotes.number]
  | paused hrows _ _ ih =>
      rw [effectsOf_cons, rowsOf_append, hrows, List.nil_append]
      exact ih
  | retried hnotes _ _ _ ih =>
      rw [effectsOf_cons, rowsOf_append, hnotes.rows, List.singleton_append, List.map_cons, ih,
        hnotes.number, List.length_cons, List.range'_succ, List.map_cons]
      rfl

/-- Rows number upwards: none of a course that starts later has this number. -/
theorem Course.rowsAt_eq_nil (h : Course limit attempt trace) {number : ℕ}
    (hlt : number < attempt) : rowsAt number (rowsOf (effectsOf trace)) = [] := by
  apply List.filter_eq_nil_iff.mpr
  intro row hrow
  have hmem : row.attemptNumber ∈ (rowsOf (effectsOf trace)).map (·.attemptNumber) :=
    List.mem_map_of_mem hrow
  rw [h.rows_numbered] at hmem
  obtain ⟨k, hk, heq⟩ := List.mem_map.mp hmem
  have hle := (List.mem_range'_1.mp hk).1
  simp only [Int.ofNat_eq_natCast] at heq
  simp only [decide_eq_true_eq]
  omega

theorem Course.le_of_mem (h : Course limit attempt trace) {call : Call} (hcall : call ∈ trace) :
    attempt ≤ call.1 := by
  induction h with
  | ended =>
      rw [List.mem_singleton] at hcall
      rw [hcall]
  | paused _ _ _ ih =>
      rcases List.mem_cons.mp hcall with rfl | hcall
      · exact le_refl _
      · exact ih hcall
  | retried _ _ _ _ ih =>
      rcases List.mem_cons.mp hcall with rfl | hcall
      · exact le_refl _
      · exact le_trans (Nat.le_succ _) (ih hcall)

/-- A call that noted its attempt has its own row, first among those to come. -/
theorem Notes.rowsAt_append {effects : List Effect} {row : DeliveryAttempt}
    (h : Notes attempt effects row) {rest : List DeliveryAttempt}
    (hrest : rowsAt attempt rest = []) : rowsAt attempt (rowsOf effects ++ rest) = [row] := by
  unfold rowsAt at hrest ⊢
  rw [h.rows, List.singleton_append, List.filter_cons_of_pos, hrest]
  simpa using h.number

theorem Notes.records {effects : List Effect} {row : DeliveryAttempt}
    (h : Notes attempt effects row) {outcome : HttpOutcome} (hout : outcome ∈ outcomesOf effects) :
    Records row outcome := by
  rcases h.outcome with hnone | ⟨o, hone, hrecords⟩
  · rw [hnone] at hout
    cases hout
  · rw [hone, List.mem_singleton] at hout
    rw [hout]
    exact hrecords

theorem Course.recorded (h : Course limit attempt trace) {call : Call} (hcall : call ∈ trace)
    {outcome : HttpOutcome} (hout : outcome ∈ outcomesOf call.2) :
    ∃ row, rowsAt call.1 (rowsOf (effectsOf trace)) = [row] ∧ Records row outcome := by
  induction h with
  | ended hnotes =>
      rw [List.mem_singleton] at hcall
      subst hcall
      rw [effectsOf_cons, rowsOf_append]
      exact ⟨_, hnotes.rowsAt_append rfl, hnotes.records hout⟩
  | paused hrows hnone _ ih =>
      rcases List.mem_cons.mp hcall with rfl | hcall
      · rw [hnone] at hout
        cases hout
      · rw [effectsOf_cons, rowsOf_append, hrows, List.nil_append]
        exact ih hcall
  | retried hnotes _ _ hrest ih =>
      rcases List.mem_cons.mp hcall with rfl | hcall
      · rw [effectsOf_cons, rowsOf_append]
        exact ⟨_, hnotes.rowsAt_append (hrest.rowsAt_eq_nil (Nat.lt_succ_self _)),
          hnotes.records hout⟩
      · -- a later call: the row of this attempt has a smaller number
        obtain ⟨row', hfilter, hrecords⟩ := ih hcall
        refine ⟨row', ?_, hrecords⟩
        have hle := hrest.le_of_mem hcall
        rw [effectsOf_cons, rowsOf_append, hnotes.rows, List.singleton_append]
        unfold rowsAt at hfilter ⊢
        rw [List.filter_cons_of_neg, hfilter]
        rw [decide_eq_true_eq, hnotes.number]
        omega

end Course

/-! ## Every delivery takes such a course -/

section Delivery

variable {settings : Settings} {eventId : UUID} {route : RouteDict} {body : Json}
  {attempt waits : ℕ} {ans : CallAnswers} {effects : List Effect} {next : Next}

variable (settings eventId route body) in
/-- `deliver`, with what each call did kept apart. -/
def callsOf : ℕ → ℕ → List CallAnswers → List Call
  | _, _, [] => []
  | attempt, waits, ans :: rest =>
      match deliverCall settings eventId route body attempt waits ans with
      | (effects, .again attempt' waits') => (attempt, effects) :: callsOf attempt' waits' rest
      | (effects, _) => [(attempt, effects)]

end Delivery

end WebhookRelay.Delivery
