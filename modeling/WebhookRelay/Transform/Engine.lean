import WebhookRelay.Core.Json

/-!
# The transform engine

`app/transform/engine.py`. A pipeline is a list of steps applied in turn to a
payload; `Runtime` is what the engine takes from the JMESPath package and from
Python's floats. Template placeholders are found as the pattern
`\{\{(.+?)\}\}` finds them: leftmost first, each closed as early as possible,
never across a line break.
-/

namespace WebhookRelay.Transform

/-- `jmespath.search` raises its own errors and, on a payload it cannot
handle, others. What the engine itself raises is another. -/
inductive SearchError where
  | jmespath (exc : Exc)
  | other (exc : Exc)

def SearchError.exc : SearchError → Exc
  | jmespath exc => exc
  | other exc => exc

structure Runtime where
  search : (expression : String) → (data : Json) → Except SearchError Json
  reprFloat : PyFloat → String
  reprStr : String → String
  /-- How many values deep `repr` goes before its `RecursionError`. -/
  reprDepth : ℕ
  /-- `float(text)`; `none` is its `ValueError`. -/
  float : String → Option PyFloat
  /-- The quotient in floating point, of a number that converts. -/
  divide : Json → PyFloat → PyFloat

/-! ## Values as text -/

/-- `sys.int_info.default_max_str_digits`. -/
def maxStrDigits : ℕ := 4300

/-- The text of an `int`. -/
def strInt (n : ℤ) : Except Exc String :=
  if 10 ^ maxStrDigits ≤ n.natAbs then
    .error
      ⟨"ValueError", s!"Exceeds the limit ({maxStrDigits} digits) for integer string conversion"⟩
  else .ok (toString n)

def strBool (b : Bool) : String := if b then "True" else "False"

def recursionError : Exc :=
  ⟨"RecursionError", "maximum recursion depth exceeded while getting the repr of an object"⟩

mutual

/-- `repr(value)`, with as many levels left as `depth` says. -/
def Runtime.reprAt (rt : Runtime) : ℕ → Json → Except Exc String
  | 0, _ => .error recursionError
  | _ + 1, .null => .ok "None"
  | _ + 1, .bool b => .ok (strBool b)
  | _ + 1, .int n => strInt n
  | _ + 1, .float x => .ok (rt.reprFloat x)
  | _ + 1, .str s => .ok (rt.reprStr s)
  | depth + 1, .arr items => do
      let texts ← rt.reprItems depth items
      return "[" ++ ", ".intercalate texts ++ "]"
  | depth + 1, .obj fields => do
      let texts ← rt.reprFields depth fields
      return "\x7b" ++ ", ".intercalate texts ++ "\x7d"

def Runtime.reprItems (rt : Runtime) : ℕ → List Json → Except Exc (List String)
  | _, [] => .ok []
  | depth, value :: rest => do
      let text ← rt.reprAt depth value
      let texts ← rt.reprItems depth rest
      return text :: texts

/-- The text of a key fails only if that of its value does. -/
def Runtime.reprFields (rt : Runtime) : ℕ → List (String × Json) → Except Exc (List String)
  | _, [] => .ok []
  | depth, (key, value) :: rest => do
      let text ← rt.reprAt depth value
      let texts ← rt.reprFields depth rest
      return (rt.reprStr key ++ ": " ++ text) :: texts

end

def Runtime.repr (rt : Runtime) (value : Json) : Except Exc String := rt.reprAt rt.reprDepth value

/-- `str(value)`. -/
def Runtime.str (rt : Runtime) : Json → Except Exc String
  | .null => .ok "None"
  | .bool b => .ok (strBool b)
  | .int n => strInt n
  | .float x => .ok (rt.reprFloat x)
  | .str s => .ok s
  | value => rt.repr value

/-- The least absolute value whose nearest `float` is out of range. -/
def floatOverflow : ℕ := 2 ^ 1024 - 2 ^ 970

/-- `number / divisor`, the divisor not zero. -/
def Runtime.trueDivide (rt : Runtime) (number : Json) (divisor : PyFloat) : Except Exc Json :=
  match number with
  | .int n =>
      if floatOverflow ≤ n.natAbs then .error ⟨"OverflowError", "int too large to convert to float"⟩
      else .ok (.float (rt.divide (.int n) divisor))
  | number => .ok (.float (rt.divide number divisor))

/-! ## Expressions -/

/-- Characters `str.strip` removes. -/
def isWhitespace (c : Char) : Bool :=
  let n := c.toNat
  (9 ≤ n && n ≤ 13) || (28 ≤ n && n ≤ 32) || n = 0x85 || n = 0xa0 || n = 0x1680 ||
    (0x2000 ≤ n && n ≤ 0x200a) || n = 0x2028 || n = 0x2029 || n = 0x202f || n = 0x205f || n = 0x3000

def strip (cs : List Char) : List Char :=
  ((cs.dropWhile isWhitespace).reverse.dropWhile isWhitespace).reverse

/-- `text.split(sep)` for a one-character separator. -/
def split (sep : Char) : List Char → List (List Char)
  | [] => [[]]
  | c :: cs =>
      if c = sep then [] :: split sep cs
      else
        match split sep cs with
        | part :: parts => (c :: part) :: parts
        | [] => [[c]]

/-- The traversal of `_eval_expr`. `inr` is the early `return str(current)`. -/
def traverse : Json → List (List Char) → Json ⊕ Json
  | current, [] => .inl current
  | .obj fields, part :: parts =>
      traverse ((Json.get? fields (String.ofList part)).getD (.str "")) parts
  | current, _ :: _ => .inr current

def Json.isNumber : Json → Bool
  | .int _ | .float _ | .bool _ => true
  | _ => false

/-- `str(current / divisor)`, where the `except` goes back to `str(current)`. -/
def strQuotient (rt : Runtime) (current : Json) (divisor : PyFloat) : Except Exc String :=
  if divisor.isZero then .ok "0"
  else
    match rt.trueDivide current divisor with
    | .error exc =>
        if exc.type = "ValueError" ∨ exc.type = "ZeroDivisionError" then rt.str current
        else .error exc
    | .ok quotient => rt.str quotient

/-- `_eval_expr`. -/
def evalExpr (rt : Runtime) (expr : List Char) (payload : Json) : Except Exc String :=
  match split '/' (expr.filter (· ≠ ' ')) with
  | [] => .ok ""
  | path :: divisors =>
      match traverse payload (split '.' path) with
      | .inr current => rt.str current
      | .inl current =>
          match divisors with
          | [] => rt.str current
          | divisor :: _ =>
              if Json.isNumber current then
                match rt.float (String.ofList divisor) with
                | none => rt.str current
                | some x => strQuotient rt current x
              else rt.str current

/-! ## Templates -/

/-- The shortest `(.+?)\}\}` from here: the group and what follows. -/
def closeGroup : List Char → Option (List Char × List Char)
  | [] => none
  | c :: cs =>
      if c = '\n' then none
      else
        match cs with
        | '}' :: '}' :: rest => some ([c], rest)
        | _ => (closeGroup cs).map (fun found => (c :: found.1, found.2))

/-- `TEMPLATE_PATTERN.sub(replace, text)`; `fuel` bounds the characters. -/
def substitute (replace : List Char → Except Exc String) : ℕ → List Char → Except Exc (List Char)
  | 0, cs => .ok cs
  | _ + 1, [] => .ok []
  | fuel + 1, c :: cs =>
      match (if c = '{' ∧ cs.head? = some '{' then closeGroup cs.tail else none) with
      | some (group, rest) => do
          let value ← replace group
          let rest ← substitute replace fuel rest
          return value.toList ++ rest
      | none => do
          let rest ← substitute replace fuel cs
          return c :: rest

/-- `_apply_template`, on the items of the template. -/
def applyTemplate (rt : Runtime) (payload : Json) : List (String × Json) →
    Except Exc (List (String × Json))
  | [] => .ok []
  | (key, .str text) :: rest => do
      let text ← substitute (fun group => evalExpr rt (strip group) payload) text.length text.toList
      let rest ← applyTemplate rt payload rest
      return (key, .str (String.ofList text)) :: rest
  | (key, value) :: rest => do
      let rest ← applyTemplate rt payload rest
      return (key, value) :: rest

/-! ## Pipelines -/

def maxExpressionLen : ℕ := 2048

def keyError (idx : ℕ) (type field : String) : Exc :=
  ⟨"KeyError", s!"Pipeline step {idx} ({type}) is missing the required '{field}' field."⟩

def unknownStep (idx : ℕ) (type : String) : Exc :=
  ⟨"ValueError", s!"Pipeline step {idx}: unknown step type {type}. " ++
    "Allowed types: 'passthrough', 'template', 'jmespath'."⟩

/-- One step of `apply_pipeline`, at position `idx`. -/
def applyStep (rt : Runtime) (idx : ℕ) (step : Json) (current : Json) : Except SearchError Json :=
  match step with
  | .obj fields =>
      match Json.get? fields "type" with
      | some (.str "passthrough") => .ok current
      | some (.str "template") =>
          match Json.get? fields "body" with
          | none => .error (.other (keyError idx "template" "body"))
          | some (.obj template) => ((applyTemplate rt current template).map .obj).mapError .other
          | some _ => .error (.other ⟨"AttributeError", "object has no attribute 'items'"⟩)
      | some (.str "jmespath") =>
          match Json.get? fields "expression" with
          | none => .error (.other (keyError idx "jmespath" "expression"))
          | some (.str expr) =>
              if maxExpressionLen < expr.length then
                .error (.other ⟨"ValueError",
                  s!"Pipeline step {idx}: jmespath expression exceeds {maxExpressionLen} character limit."⟩)
              else
                match rt.search expr current with
                | .ok .null => .ok current
                | .ok result => .ok result
                | .error e => .error e
          | some _ => .error (.other ⟨"TypeError", "jmespath expression is not a string"⟩)
      | type =>
          match rt.repr (type.getD .null) with
          | .error exc => .error (.other exc)
          | .ok text => .error (.other (unknownStep idx text))
  | _ => .error (.other ⟨"AttributeError", "object has no attribute 'get'"⟩)

def applySteps (rt : Runtime) : ℕ → List Json → Json → Except SearchError Json
  | _, [], current => .ok current
  | idx, step :: steps, current => do
      let current ← applyStep rt idx step current
      applySteps rt (idx + 1) steps current

def applyPipeline (rt : Runtime) (pipeline : List Json) (payload : Json) :
    Except SearchError Json :=
  applySteps rt 0 pipeline payload

end WebhookRelay.Transform
