import Mathlib.Data.Rat.Defs
import Mathlib.Tactic

/-!
# JSON values as Python holds them

Payloads, headers, pipelines and Kafka messages are decoded JSON. A `dict` is
an association list in insertion order with unique keys. Floats are kept as
their bit patterns: the relay stores and forwards them, and the only
arithmetic on them (a division in a template) belongs to the runtime.
-/

namespace WebhookRelay

structure PyFloat where
  bits : BitVec 64
  deriving DecidableEq

/-- Positive or negative zero. -/
def PyFloat.isZero (x : PyFloat) : Bool := x.bits.toNat % 2 ^ 63 = 0

inductive Json where
  | null
  | bool (b : Bool)
  | int (n : ℤ)
  | float (x : PyFloat)
  | str (s : String)
  | arr (items : List Json)
  | obj (fields : List (String × Json))

namespace Json

/-- Python's `bool(value)`. -/
def truthy : Json → Bool
  | null => false
  | bool b => b
  | int n => n ≠ 0
  | float x => !x.isZero
  | str s => s ≠ ""
  | arr items => !items.isEmpty
  | obj fields => !fields.isEmpty

/-- `data.get(key)` on a `dict`; `none` for an absent key. -/
def get? (fields : List (String × Json)) (key : String) : Option Json :=
  fields.lookup key

/-- `not data.get(key)`: absent, null and empty values alike. -/
def missing (fields : List (String × Json)) (key : String) : Bool :=
  match get? fields key with
  | some v => !v.truthy
  | none => true

/-! Equality of two documents as `json.dumps` writes them: the keys of a
`dict` in their order. -/

mutual

def beq : Json → Json → Bool
  | null, null => true
  | bool a, bool b => a == b
  | int a, int b => a == b
  | float a, float b => a == b
  | str a, str b => a == b
  | arr as, arr bs => beqItems as bs
  | obj as, obj bs => beqFields as bs
  | _, _ => false

def beqItems : List Json → List Json → Bool
  | [], [] => true
  | a :: as, b :: bs => beq a b && beqItems as bs
  | _, _ => false

def beqFields : List (String × Json) → List (String × Json) → Bool
  | [], [] => true
  | (k, a) :: as, (l, b) :: bs => k == l && beq a b && beqFields as bs
  | _, _ => false

end

instance : BEq Json := ⟨beq⟩

end Json

/-- An exception as `except Exception as exc` sees it. -/
structure Exc where
  type : String
  message : String
  deriving DecidableEq

/-- `f"{type(exc).__name__}: {exc}"`. -/
def Exc.text (exc : Exc) : String := exc.type ++ ": " ++ exc.message

/-- A computation that ended well had its first step end well. -/
theorem exists_of_bind_eq_ok {ε α β : Type} {x : Except ε α} {f : α → Except ε β} {b : β}
    (h : (x >>= f) = .ok b) : ∃ a, x = .ok a ∧ f a = .ok b := by
  cases x with
  | error failure => cases h
  | ok a => exact ⟨a, rfl, h⟩

/-- How a request handler ends without an answer: an `HTTPException`, a body
or query that FastAPI refuses, or an exception nothing catches. -/
inductive Failure where
  | http (status : ℕ) (detail : String)
  | unprocessable
  | raised (exc : Exc)
  deriving DecidableEq

/-- Instants and durations, in seconds. -/
abbrev Time := ℚ

end WebhookRelay
