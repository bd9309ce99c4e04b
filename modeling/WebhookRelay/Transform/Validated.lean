import WebhookRelay.Api.Schemas
import WebhookRelay.Foundation.Fallible
import WebhookRelay.Transform.Engine

/-!
# Pipelines the API accepts

A pipeline comes to `apply_pipeline` as the dump of steps that `RouteCreate`
or `RouteUpdate` validated. On such a dump the engine does what the steps say,
and the exceptions it can end with are those of `jmespath.search`, of a
division and of `str`.
-/

namespace WebhookRelay

namespace Json

mutual

/-- The levels of nesting; a scalar is one. -/
def depth : Json → ℕ
  | arr items => depthItems items + 1
  | obj fields => depthFields fields + 1
  | _ => 1

def depthItems : List Json → ℕ
  | [] => 0
  | value :: rest => max (depth value) (depthItems rest)

def depthFields : List (String × Json) → ℕ
  | [] => 0
  | (_, value) :: rest => max (depth value) (depthFields rest)

end

mutual

/-- The integers anywhere in the value. -/
def ints : Json → List ℤ
  | int n => [n]
  | arr items => intsItems items
  | obj fields => intsFields fields
  | _ => []

def intsItems : List Json → List ℤ
  | [] => []
  | value :: rest => ints value ++ intsItems rest

def intsFields : List (String × Json) → List ℤ
  | [] => []
  | (_, value) :: rest => ints value ++ intsFields rest

end

end Json

namespace Transform

open Foundation Foundation.Fallible

variable {rt : Runtime}

/-! ## Values that have a text -/

/-- At most 4300 digits. -/
def ShortInt (n : ℤ) : Prop := n.natAbs < 10 ^ maxStrDigits

theorem strInt_succeeds_iff {n : ℤ} : Succeeds (strInt n) ↔ ShortInt n := by
  unfold strInt ShortInt
  split
  · rename_i hlong
    exact iff_of_false (not_succeeds_error _) (Nat.not_lt.mpr hlong)
  · rename_i hshort
    exact iff_of_true (succeeds_ok _) (Nat.not_le.mp hshort)

theorem depth_pos (value : Json) : 0 < value.depth := by
  cases value <;> simp [Json.depth]

mutual

/-- `repr` needs a level for each level of the value, and short integers. -/
theorem reprAt_succeeds_iff (depth : ℕ) : ∀ value : Json,
    Succeeds (rt.reprAt depth value) ↔ value.depth ≤ depth ∧ ∀ n ∈ value.ints, ShortInt n := by
  intro value
  cases depth with
  | zero =>
      have hdeep : ¬ value.depth ≤ 0 := Nat.not_le.mpr (depth_pos value)
      cases value <;> simp [Runtime.reprAt, hdeep]
  | succ depth =>
      cases value with
      | null => simp [Runtime.reprAt, Json.depth, Json.ints]
      | bool b => simp [Runtime.reprAt, Json.depth, Json.ints]
      | int n => simp [Runtime.reprAt, Json.depth, Json.ints, strInt_succeeds_iff]
      | float x => simp [Runtime.reprAt, Json.depth, Json.ints]
      | str s => simp [Runtime.reprAt, Json.depth, Json.ints]
      | arr items =>
          simp only [Runtime.reprAt, Json.depth, Json.ints, Nat.add_le_add_iff_right]
          exact succeeds_bind_pure_iff.trans (reprItems_succeeds_iff depth items)
      | obj fields =>
          simp only [Runtime.reprAt, Json.depth, Json.ints, Nat.add_le_add_iff_right]
          exact succeeds_bind_pure_iff.trans (reprFields_succeeds_iff depth fields)

theorem reprItems_succeeds_iff (depth : ℕ) : ∀ items : List Json,
    Succeeds (rt.reprItems depth items) ↔
      Json.depthItems items ≤ depth ∧ ∀ n ∈ Json.intsItems items, ShortInt n := by
  intro items
  match items with
  | [] => simp [Runtime.reprItems, Json.depthItems, Json.intsItems]
  | value :: rest =>
      simp only [Runtime.reprItems, Json.depthItems, Json.intsItems, List.forall_mem_append,
        max_le_iff]
      rw [succeeds_bind_iff (fun _ _ => succeeds_bind_pure_iff), reprAt_succeeds_iff depth value,
        reprItems_succeeds_iff depth rest]
      tauto

theorem reprFields_succeeds_iff (depth : ℕ) : ∀ fields : List (String × Json),
    Succeeds (rt.reprFields depth fields) ↔
      Json.depthFields fields ≤ depth ∧ ∀ n ∈ Json.intsFields fields, ShortInt n := by
  intro fields
  match fields with
  | [] => simp [Runtime.reprFields, Json.depthFields, Json.intsFields]
  | (key, value) :: rest =>
      simp only [Runtime.reprFields, Json.depthFields, Json.intsFields, List.forall_mem_append,
        max_le_iff]
      rw [succeeds_bind_iff (fun _ _ => succeeds_bind_pure_iff), reprAt_succeeds_iff depth value,
        reprFields_succeeds_iff depth rest]
      tauto

end

/-- What `str` can write. -/
def HasText (rt : Runtime) : Json → Prop
  | .int n => ShortInt n
  | .arr items => (Json.arr items).depth ≤ rt.reprDepth ∧ ∀ n ∈ (Json.arr items).ints, ShortInt n
  | .obj fields => (Json.obj fields).depth ≤ rt.reprDepth ∧ ∀ n ∈ (Json.obj fields).ints, ShortInt n
  | _ => True

theorem str_succeeds_iff (value : Json) : Succeeds (rt.str value) ↔ HasText rt value := by
  cases value with
  | null => exact iff_of_true (succeeds_ok _) trivial
  | bool b => exact iff_of_true (succeeds_ok _) trivial
  | int n => exact strInt_succeeds_iff
  | float x => exact iff_of_true (succeeds_ok _) trivial
  | str s => exact iff_of_true (succeeds_ok _) trivial
  | arr items => exact reprAt_succeeds_iff rt.reprDepth (.arr items)
  | obj fields => exact reprAt_succeeds_iff rt.reprDepth (.obj fields)

/-! ## Placeholders -/

/-- A `float` nearest to the number is in range. -/
def Converts : Json → Prop
  | .int n => n.natAbs < floatOverflow
  | _ => True

theorem strQuotient_succeeds_iff {current : Json} {divisor : PyFloat} :
    Succeeds (strQuotient rt current divisor) ↔ divisor.isZero = true ∨ Converts current := by
  unfold strQuotient
  split
  · rename_i hzero
    exact iff_of_true (succeeds_ok _) (Or.inl hzero)
  · rename_i hdivisor
    cases current with
    | int n =>
        simp only [Runtime.trueDivide]
        by_cases hrange : floatOverflow ≤ n.natAbs
        · -- an `OverflowError` is not one of those that the `except` names
          have hoverflow : ¬ Converts (.int n) := Nat.not_lt.mpr hrange
          simp [if_pos hrange, hdivisor, hoverflow]
        · have hconverts : Converts (.int n) := Nat.not_le.mp hrange
          rw [if_neg hrange]
          exact iff_of_true (succeeds_ok _) (Or.inr hconverts)
    | _ => exact iff_of_true (succeeds_ok _) (Or.inr trivial)

/-- The divisor of an expression, when there is one that `float` reads. -/
def divisor? (rt : Runtime) (divisors : List (List Char)) : Option PyFloat :=
  divisors.head?.bind (fun text => rt.float (String.ofList text))

/-- The expression divides a number in range, or its value has a text. -/
def Evaluates (rt : Runtime) (payload : Json) (expr : List Char) : Prop :=
  match split '/' (expr.filter (· ≠ ' ')) with
  | [] => True
  | path :: divisors =>
      match traverse payload (split '.' path) with
      | .inr current => HasText rt current
      | .inl current =>
          match divisor? rt divisors with
          | some x =>
              if Json.isNumber current then x.isZero = true ∨ Converts current
              else HasText rt current
          | none => HasText rt current

theorem evalExpr_succeeds_iff {payload : Json} {expr : List Char} :
    Succeeds (evalExpr rt expr payload) ↔ Evaluates rt payload expr := by
  unfold evalExpr Evaluates
  cases split '/' (expr.filter (· ≠ ' ')) with
  | nil => exact iff_of_true (succeeds_ok _) trivial
  | cons path divisors =>
      dsimp only
      cases traverse payload (split '.' path) with
      | inr current => exact str_succeeds_iff current
      | inl current =>
          cases divisors with
          | nil => exact str_succeeds_iff current
          | cons text rest =>
              simp only [divisor?, List.head?_cons, Option.bind_some]
              cases rt.float (String.ofList text) with
              | none => simpa using str_succeeds_iff current
              | some x =>
                  by_cases hnumber : Json.isNumber current = true
                  · simpa [hnumber] using strQuotient_succeeds_iff
                  · simpa [hnumber] using str_succeeds_iff current

/-- The groups that the pattern finds in a text. -/
def placeholders : ℕ → List Char → List (List Char)
  | 0, _ => []
  | _ + 1, [] => []
  | fuel + 1, c :: cs =>
      match (if c = '{' ∧ cs.head? = some '{' then closeGroup cs.tail else none) with
      | some (group, rest) => group :: placeholders fuel rest
      | none => placeholders fuel cs

theorem substitute_succeeds_iff {replace : List Char → Except Exc String} {fuel : ℕ}
    {cs : List Char} :
    Succeeds (substitute replace fuel cs) ↔
      ∀ group ∈ placeholders fuel cs, Succeeds (replace group) := by
  induction fuel generalizing cs with
  | zero => simp [substitute, placeholders]
  | succ fuel ih =>
      cases cs with
      | nil => simp [substitute, placeholders]
      | cons c cs =>
          simp only [substitute, placeholders]
          cases (if c = '{' ∧ cs.head? = some '{' then closeGroup cs.tail else none) with
          | some found =>
              dsimp only
              rw [List.forall_mem_cons, ← ih]
              exact succeeds_bind_iff (fun _ _ => succeeds_bind_pure_iff)
          | none =>
              dsimp only
              rw [← ih]
              exact succeeds_bind_pure_iff

/-- Every placeholder of every text in the template. -/
def SafeTemplate (rt : Runtime) (payload : Json) (template : List (String × Json)) : Prop :=
  ∀ key text, (key, Json.str text) ∈ template →
    ∀ group ∈ placeholders text.length text.toList, Evaluates rt payload (strip group)

theorem safeTemplate_cons {payload : Json} {key : String} {value : Json}
    {rest : List (String × Json)} :
    SafeTemplate rt payload ((key, value) :: rest) ↔
      (∀ text, value = .str text →
        ∀ group ∈ placeholders text.length text.toList, Evaluates rt payload (strip group)) ∧
        SafeTemplate rt payload rest := by
  constructor
  · intro h
    refine ⟨?_, fun k text hmem => h k text (List.mem_cons_of_mem _ hmem)⟩
    rintro text rfl
    exact h key text List.mem_cons_self
  · rintro ⟨hfirst, hrest⟩ k text hmem
    rcases List.mem_cons.mp hmem with heq | hmem
    · exact hfirst text (congrArg Prod.snd heq).symm
    · exact hrest k text hmem

theorem applyTemplate_succeeds_iff {payload : Json} {template : List (String × Json)} :
    Succeeds (applyTemplate rt payload template) ↔ SafeTemplate rt payload template := by
  induction template with
  | nil => exact iff_of_true (succeeds_ok _) (fun _ _ hmem => by cases hmem)
  | cons item rest ih =>
      obtain ⟨key, value⟩ := item
      rw [safeTemplate_cons, ← ih]
      cases value with
      | str text =>
          simp only [applyTemplate, Json.str.injEq, forall_eq']
          rw [succeeds_bind_iff (fun _ _ => succeeds_bind_pure_iff), substitute_succeeds_iff]
          simp only [evalExpr_succeeds_iff]
      | _ =>
          simp only [applyTemplate, reduceCtorEq, false_implies, implies_true, true_and]
          exact succeeds_bind_pure_iff

/-! ## Steps -/

/-- A step as it validates. -/
inductive PipelineStep (compiles : String → Bool) where
  | passthrough
  | template (body : List (String × Json)) (size : body.length ≤ Api.maxTemplateKeys)
  | jmespath (expression : String) (short : expression.length ≤ Api.maxExpressionLen)
      (compiled : compiles expression = true)

namespace PipelineStep

variable {compiles : String → Bool}

/-- `model_dump()`. -/
def dump : PipelineStep compiles → Json
  | passthrough => .obj [("type", .str "passthrough")]
  | template body _ => .obj [("type", .str "template"), ("body", .obj body)]
  | jmespath expression _ _ => .obj [("type", .str "jmespath"), ("expression", .str expression)]

/-- What a step says, whatever the engine does. -/
def run (rt : Runtime) : PipelineStep compiles → Json → Except SearchError Json
  | passthrough, current => .ok current
  | template body _, current => ((applyTemplate rt current body).map .obj).mapError .other
  | jmespath expression _ _, current =>
      match rt.search expression current with
      | .ok .null => .ok current
      | result => result

/-- Nothing but a JMESPath error can end the step on this value. -/
def Safe (rt : Runtime) : PipelineStep compiles → Json → Prop
  | passthrough, _ => True
  | template body _, current => SafeTemplate rt current body
  | jmespath expression _ _, current => ∀ exc, rt.search expression current ≠ .error (.other exc)

end PipelineStep

variable {compiles : String → Bool}

/-- The validator gives dumps of valid steps. -/
theorem exists_dump_of_pipelineStep {raw stored : Json}
    (h : Api.pipelineStep compiles raw = some stored) :
    ∃ step : PipelineStep compiles, step.dump = stored := by
  unfold Api.pipelineStep at h
  split at h
  · split at h
    · exact ⟨.passthrough, Option.some.inj h⟩
    · split at h
      · simp only [Option.ite_none_right_eq_some, Option.some.injEq] at h
        exact ⟨.template _ h.1, h.2⟩
      · cases h
    · split at h
      · simp only [Option.ite_none_right_eq_some, Option.some.injEq] at h
        exact ⟨.jmespath _ h.1.1 h.1.2, h.2⟩
      · cases h
    · cases h
  · cases h

theorem exists_dumps_of_mapM {raw stored : List Json}
    (h : raw.mapM (Api.pipelineStep compiles) = some stored) :
    ∃ steps : List (PipelineStep compiles), steps.map PipelineStep.dump = stored := by
  induction raw generalizing stored with
  | nil => exact ⟨[], Option.some.inj h⟩
  | cons first rest ih =>
      simp only [List.mapM_cons, Option.bind_eq_bind, Option.bind_eq_some_iff, Option.pure_def,
        Option.some.injEq] at h
      obtain ⟨dumped, hfirst, others, hrest, rfl⟩ := h
      obtain ⟨step, rfl⟩ := exists_dump_of_pipelineStep hfirst
      obtain ⟨steps, rfl⟩ := ih hrest
      exact ⟨step :: steps, rfl⟩

/-- Validating a dump once more changes nothing. -/
theorem pipelineStep_dump (step : PipelineStep compiles) :
    Api.pipelineStep compiles step.dump = some step.dump := by
  cases step with
  | passthrough => rfl
  | template body size => exact if_pos size
  | jmespath expression short compiled => exact if_pos ⟨short, compiled⟩

theorem mapM_dumps {raw stored : List Json}
    (h : raw.mapM (Api.pipelineStep compiles) = some stored) :
    stored.mapM (Api.pipelineStep compiles) = some stored := by
  obtain ⟨steps, rfl⟩ := exists_dumps_of_mapM h
  clear h
  induction steps with
  | nil => rfl
  | cons step rest ih =>
      rw [List.map_cons, List.mapM_cons, pipelineStep_dump, ih]
      rfl

/-- The engine's step is the step's own meaning, at every position. -/
theorem applyStep_dump (idx : ℕ) (step : PipelineStep compiles) (current : Json) :
    applyStep rt idx step.dump current = step.run rt current := by
  cases step with
  | passthrough => rfl
  | template body size => rfl
  | jmespath expression short compiled =>
      have hlen : ¬ maxExpressionLen < expression.length := Nat.not_lt.mpr short
      have htype : Json.get? [("type", .str "jmespath"), ("expression", .str expression)] "type" =
          some (.str "jmespath") := rfl
      have hexpr : Json.get? [("type", .str "jmespath"), ("expression", .str expression)]
        "expression" =
          some (.str expression) := rfl
      simp only [PipelineStep.dump, applyStep, PipelineStep.run, htype, hexpr, if_neg hlen]
      cases rt.search expression current with
      | error e => rfl
      | ok result => cases result <;> rfl

/-- The engine refines the fold of the steps' meanings. -/
theorem applySteps_dumps (steps : List (PipelineStep compiles)) (idx : ℕ) (payload : Json) :
    applySteps rt idx (steps.map PipelineStep.dump) payload =
      steps.foldlM (fun current step => step.run rt current) payload := by
  induction steps generalizing idx payload with
  | nil => rfl
  | cons step rest ih =>
      rw [List.map_cons, applySteps, applyStep_dump, List.foldlM_cons]
      cases step.run rt payload with
      | error e => rfl
      | ok current => exact ih (idx + 1) current

theorem applyPipeline_dumps (steps : List (PipelineStep compiles)) (payload : Json) :
    applyPipeline rt (steps.map PipelineStep.dump) payload =
      steps.foldlM (fun current step => step.run rt current) payload :=
  applySteps_dumps steps 0 payload

/-- A JMESPath error that `jmespath.search` raised. -/
def Evaluation (rt : Runtime) (e : SearchError) : Prop :=
  ∃ exc expression data, e = .jmespath exc ∧ rt.search expression data = .error e

theorem not_evaluation_other (exc : Exc) : ¬ Evaluation rt (.other exc) := by
  rintro ⟨_, _, _, heq, _⟩
  cases heq

theorem evaluation_run_iff {step : PipelineStep compiles} {current : Json} :
    ErrorsIn (Evaluation rt) (step.run rt current) ↔ step.Safe rt current := by
  cases step with
  | passthrough => exact iff_of_true (fun e he => by cases he) trivial
  | template body size =>
      simp only [PipelineStep.run, PipelineStep.Safe]
      rw [← applyTemplate_succeeds_iff]
      cases applyTemplate rt current body with
      | ok template => exact iff_of_true (fun e he => by cases he) (succeeds_ok _)
      | error exc =>
          refine iff_of_false ?_ (not_succeeds_error _)
          exact fun h => not_evaluation_other exc (h (.other exc) rfl)
  | jmespath expression short compiled =>
      simp only [PipelineStep.run, PipelineStep.Safe]
      cases hsearch : rt.search expression current with
      | ok result =>
          refine iff_of_true ?_ (fun exc hexc => by cases hexc)
          intro e he
          cases result <;> cases he
      | error e =>
          cases e with
          | jmespath exc =>
              refine iff_of_true ?_ (fun exc' hexc => by cases hexc)
              intro e he
              cases he
              exact ⟨exc, expression, current, rfl, hsearch⟩
          | other exc =>
              refine iff_of_false ?_ (fun h => h exc rfl)
              exact fun h => not_evaluation_other exc (h (.other exc) rfl)

/-- A pipeline that the API took ends with a value or an evaluation error of
JMESPath exactly when each of its steps is safe on what the steps before it
make of the payload. -/
theorem applyPipeline_evaluates_iff {raw pipeline : List Json}
    (haccepted : raw.mapM (Api.pipelineStep compiles) = some pipeline) (payload : Json) :
    ∃ steps : List (PipelineStep compiles), steps.map PipelineStep.dump = pipeline ∧
      (ErrorsIn (Evaluation rt) (applyPipeline rt pipeline payload) ↔
        ∀ before step after, steps = before ++ step :: after →
          ∀ current, applyPipeline rt (before.map PipelineStep.dump) payload = .ok current →
            step.Safe rt current) := by
  obtain ⟨steps, rfl⟩ := exists_dumps_of_mapM haccepted
  refine ⟨steps, rfl, ?_⟩
  simp only [applyPipeline_dumps, errorsIn_foldlM_iff, evaluation_run_iff]

/-! ## A price in cents -/

/-- `float("100")`, and the quotient of 1999 by it. -/
def priceRuntime : Runtime where
  search := fun expression data =>
    match data with
    | .obj fields => .ok ((Json.get? fields expression).getD .null)
    | _ => .ok .null
  reprFloat := fun x => if x = ⟨0x4033fd70a3d70a3d⟩ then "19.99" else ""
  reprStr := fun s => "'" ++ s ++ "'"
  reprDepth := 1000
  float := fun text => if text = "100" then some ⟨0x4059000000000000⟩ else none
  divide := fun _ _ => ⟨0x4033fd70a3d70a3d⟩

def pricePipeline : List Json := [
  .obj [("type", .str "passthrough")],
  .obj [("type", .str "template"),
    ("body", .obj [("price", .str "{{amount / 100}}"), ("version", .int 1)])],
  .obj [("type", .str "jmespath"), ("expression", .str "price")]]

def priceOf (amount : ℤ) : Json := .obj [("amount", .int amount)]

theorem accepted_pricePipeline :
    pricePipeline.mapM (Api.pipelineStep (fun _ => true)) = some pricePipeline := rfl

example : (applyPipeline priceRuntime pricePipeline (priceOf 1999)).toOption ==
    some (.str "19.99") := by
  decide +kernel

/-- The one placeholder of the template can be evaluated on the order. -/
theorem safeTemplate_price : SafeTemplate priceRuntime (priceOf 1999)
    [("price", .str "{{amount / 100}}"), ("version", .int 1)] := by
  have happlied : (applyTemplate priceRuntime (priceOf 1999)
      [("price", .str "{{amount / 100}}"), ("version", .int 1)]).isOk = true := by
    decide +kernel
  refine applyTemplate_succeeds_iff.mp ?_
  cases hresult : applyTemplate priceRuntime (priceOf 1999)
      [("price", .str "{{amount / 100}}"), ("version", .int 1)] with
  | ok fields => exact succeeds_ok _
  | error exc =>
      rw [hresult] at happlied
      cases happlied

theorem applyPipeline_of_price :
    ErrorsIn (Evaluation priceRuntime)
      (applyPipeline priceRuntime pricePipeline (priceOf 1999)) := by
  obtain ⟨steps, hdumps, hevaluates⟩ :=
    applyPipeline_evaluates_iff accepted_pricePipeline (priceOf 1999)
  refine hevaluates.mpr ?_
  rintro before step after rfl current hcurrent
  rw [List.map_append, List.map_cons] at hdumps
  cases step with
  | passthrough => trivial
  | jmespath expression short compiled =>
      intro exc hraised
      cases current <;> cases hraised
  | template body size =>
      -- of the three steps it can only be the second
      cases hbefore : before.map PipelineStep.dump with
      | nil =>
          rw [hbefore] at hdumps
          simp [PipelineStep.dump, pricePipeline] at hdumps
      | cons first others =>
          rw [hbefore] at hdumps hcurrent
          cases others with
          | nil =>
              simp only [PipelineStep.dump, pricePipeline, List.cons_append, List.nil_append,
                List.cons.injEq, Json.obj.injEq, Prod.mk.injEq, true_and, and_true] at hdumps
              obtain ⟨rfl, rfl, _⟩ := hdumps
              obtain rfl := Except.ok.inj hcurrent
              exact safeTemplate_price
          | cons second rest =>
              cases rest <;> simp [PipelineStep.dump, pricePipeline] at hdumps

/-- The result is an exception that is no JMESPath error. -/
def escapes : Except SearchError Json → Bool
  | .error (.other _) => true
  | _ => false

theorem exists_other_of_escapes {result : Except SearchError Json} (h : escapes result = true) :
    ∃ exc, result = .error (.other exc) := by
  match result with
  | .error (.other exc) => exact ⟨exc, rfl⟩
  | .error (.jmespath exc) => cases h
  | .ok value => cases h

/-- An amount of 401 digits, which JSON and the tables hold. -/
theorem price_overflows :
    ¬ ∀ (rt : Runtime) (compiles : String → Bool) (raw pipeline : List Json) (payload : Json),
      raw.mapM (Api.pipelineStep compiles) = some pipeline →
        ErrorsIn (Evaluation rt) (applyPipeline rt pipeline payload) := by
  intro h
  have hescapes : escapes (applyPipeline priceRuntime pricePipeline (priceOf (10 ^ 400))) =
      true := by
    decide +kernel
  obtain ⟨exc, hraised⟩ := exists_other_of_escapes hescapes
  exact not_evaluation_other exc (h priceRuntime _ _ _ _ accepted_pricePipeline _ hraised)

end Transform

end WebhookRelay
