import WebhookRelay.Core.Uuid
import WebhookRelay.Foundation.Reading
import WebhookRelay.Transform.Validated

/-!
# JSON as a text

`json.dumps` and `json.loads` as the relay calls them: in the serializers of
`app/core/kafka.py` and of the workers, and around the schema column of an
endpoint. Texts are lists of characters. `JsonRuntime` is what both take from
Python's floats and from the interpreter's stack.
-/

namespace WebhookRelay.Wire

open Foundation Transform

structure JsonRuntime where
  /-- `float.__repr__` on a finite number. -/
  reprFloat : PyFloat → String
  /-- `float(text)` on the text of a number. -/
  float : List Char → PyFloat
  /-- How many levels of lists and dicts are written before a
  `RecursionError`, and how many are read. -/
  encodeDepth : ℕ
  decodeDepth : ℕ

def posInfinity : PyFloat := ⟨0x7ff0000000000000#64⟩

def negInfinity : PyFloat := ⟨0xfff0000000000000#64⟩

/-- `float('nan')`. -/
def nan : PyFloat := ⟨0x7ff8000000000000#64⟩

/-- Neither infinite nor a `nan`. -/
def isFinite (x : PyFloat) : Bool := x.bits.toNat / 2 ^ 52 % 2 ^ 11 ≠ 2 ^ 11 - 1

/-! ## Writing -/

/-- `\uXXXX`. -/
def unicodeEscape (n : ℕ) : List Char := '\\' :: 'u' :: UUID.hexDigits 4 n

/-- One character with `ensure_ascii`: short escapes, printable ASCII as it
is, two surrogates beyond the basic plane. -/
def escapeChar (c : Char) : List Char :=
  if c = '"' then ['\\', '"']
  else if c = '\\' then ['\\', '\\']
  else if c = '\n' then ['\\', 'n']
  else if c = '\r' then ['\\', 'r']
  else if c = '\t' then ['\\', 't']
  else if c = '\x0c' then ['\\', 'f']
  else if c = '\x08' then ['\\', 'b']
  else if ' ' ≤ c ∧ c ≤ '~' then [c]
  else if c.toNat < 0x10000 then unicodeEscape c.toNat
  else unicodeEscape (0xd800 + (c.toNat - 0x10000) / 0x400) ++
    unicodeEscape (0xdc00 + (c.toNat - 0x10000) % 0x400)

/-- What stands between the quotes, and the closing one. -/
def stringTail (s : String) : List Char := s.toList.flatMap escapeChar ++ ['"']

def stringText (s : String) : List Char := '"' :: stringTail s

section

variable (rt : JsonRuntime)

def floatText (x : PyFloat) : List Char :=
  if isFinite x then (rt.reprFloat x).toList
  else if x = posInfinity then "Infinity".toList
  else if x = negInfinity then "-Infinity".toList
  else "NaN".toList

def nestedTooDeep : Exc :=
  ⟨"RecursionError", "maximum recursion depth exceeded while encoding a JSON object"⟩

mutual

/-- The text of a value, with as many levels left as `depth` says. -/
def dumpAt : ℕ → Json → Except Exc (List Char)
  | _, .null => .ok "null".toList
  | _, .bool b => .ok (if b then "true".toList else "false".toList)
  | _, .int n => (strInt n).map String.toList
  | _, .float x => .ok (floatText rt x)
  | _, .str s => .ok (stringText s)
  | 0, .arr _ => .error nestedTooDeep
  | 0, .obj _ => .error nestedTooDeep
  | depth + 1, .arr items =>
      (dumpItems depth items).map (fun texts => '[' :: joined [',', ' '] [']'] texts)
  | depth + 1, .obj fields =>
      (dumpFields depth fields).map (fun texts => '{' :: joined [',', ' '] ['}'] texts)

def dumpItems : ℕ → List Json → Except Exc (List (List Char))
  | _, [] => .ok []
  | depth, value :: rest => do
      let text ← dumpAt depth value
      let texts ← dumpItems depth rest
      return text :: texts

def dumpFields : ℕ → List (String × Json) → Except Exc (List (List Char))
  | _, [] => .ok []
  | depth, (key, value) :: rest => do
      let text ← dumpAt depth value
      let texts ← dumpFields depth rest
      return (stringText key ++ (':' :: ' ' :: text)) :: texts

end

/-- `json.dumps(value)`. -/
def dumps (value : Json) : Except Exc String :=
  (dumpAt rt rt.encodeDepth value).map String.ofList

end

/-! ## Reading -/

/-- How reading fails: bytes that are no UTF-8, a `JSONDecodeError`, the
`ValueError` of an integer with too many digits, a `RecursionError`.
`surrogate` is no error of Python's: the text has an escape of a lone
surrogate, and a value with such a `str` is not among those of `Json`. -/
inductive LoadError where
  | unicode
  | decode
  | digits
  | recursion
  | surrogate
  deriving DecidableEq

def isJsonSpace (c : Char) : Bool := c = ' ' || c = '\t' || c = '\n' || c = '\r'

def skip (text : List Char) : List Char := text.dropWhile isJsonSpace

/-- Four hexadecimal digits. -/
def hex4 (a b c d : Char) : Option ℕ := do
  let a ← UUID.hexValue a
  let b ← UUID.hexValue b
  let c ← UUID.hexValue c
  let d ← UUID.hexValue d
  return ((a * 16 + b) * 16 + c) * 16 + d

/-- The escapes of one letter. -/
def unescape (c : Char) : Option Char :=
  if c = '"' then some '"'
  else if c = '\\' then some '\\'
  else if c = '/' then some '/'
  else if c = 'b' then some '\x08'
  else if c = 'f' then some '\x0c'
  else if c = 'n' then some '\n'
  else if c = 'r' then some '\r'
  else if c = 't' then some '\t'
  else none

def isHighSurrogate (n : ℕ) : Bool := 0xd800 ≤ n && n < 0xdc00

def isLowSurrogate (n : ℕ) : Bool := 0xdc00 ≤ n && n < 0xe000

def consChar (c : Char) (rest : Except LoadError (List Char × List Char)) :
    Except LoadError (List Char × List Char) :=
  rest.map (fun r => (c :: r.1, r.2))

/-- `scanstring` behind the opening quote. -/
def scanString : Reader Char LoadError (List Char)
  | [] => .error .decode
  | '"' :: rest => .ok ([], rest)
  | '\\' :: 'u' :: a :: b :: c :: d :: rest =>
      match hex4 a b c d with
      | none => .error .decode
      | some high =>
          if isHighSurrogate high then
            match rest with
            | '\\' :: 'u' :: a :: b :: c :: d :: rest =>
                match hex4 a b c d with
                | none => .error .decode
                | some low =>
                    if isLowSurrogate low then
                      consChar (Char.ofNat (0x10000 + (high - 0xd800) * 0x400 + (low - 0xdc00)))
                        (scanString rest)
                    else .error .surrogate
            | _ => .error .surrogate
          else if isLowSurrogate high then .error .surrogate
          else consChar (Char.ofNat high) (scanString rest)
  | '\\' :: c :: rest =>
      match unescape c with
      | some c => consChar c (scanString rest)
      | none => .error .decode
  | ['\\'] => .error .decode
  | c :: rest => if c.toNat < 0x20 then .error .decode else consChar c (scanString rest)

/-- A point and at least one digit, or nothing. -/
def scanFraction (text : List Char) : List Char × List Char :=
  match text with
  | '.' :: rest =>
      if rest.takeWhile Char.isDigit = [] then ([], text)
      else ('.' :: rest.takeWhile Char.isDigit, rest.dropWhile Char.isDigit)
  | _ => ([], text)

/-- The sign of an exponent, if there is one. -/
def scanSign (text : List Char) : List Char × List Char :=
  match text with
  | c :: rest => if c = '+' ∨ c = '-' then ([c], rest) else ([], text)
  | [] => ([], [])

/-- An `e`, a sign and at least one digit, or nothing. -/
def scanExponent (text : List Char) : List Char × List Char :=
  match text with
  | c :: rest =>
      if c = 'e' ∨ c = 'E' then
        let (sign, digits) := scanSign rest
        if digits.takeWhile Char.isDigit = [] then ([], text)
        else (c :: sign ++ digits.takeWhile Char.isDigit, digits.dropWhile Char.isDigit)
      else ([], text)
  | [] => ([], [])

/-- The digits before the point: `0`, or several without a leading zero. -/
def scanDigits (text : List Char) : Option (List Char × List Char) :=
  match text with
  | '0' :: rest => some (['0'], rest)
  | c :: _ =>
      if c.isDigit then some (text.takeWhile Char.isDigit, text.dropWhile Char.isDigit) else none
  | [] => none

def signText (negative : Bool) : List Char := if negative then ['-'] else []

/-- `int(text)` on a sign and digits. -/
def readInt (negative : Bool) (digits : List Char) : Except LoadError Json :=
  if maxStrDigits < digits.length then .error .digits
  else
    let n : ℤ := Nat.ofDigitChars 10 digits 0
    .ok (.int (if negative then -n else n))

section

variable (rt : JsonRuntime)

/-- A number behind its sign. -/
def scanUnsigned (negative : Bool) : Reader Char LoadError Json := fun text =>
  match scanDigits text with
  | none => .error .decode
  | some (digits, rest) =>
      let (fraction, rest) := scanFraction rest
      let (exponent, rest) := scanExponent rest
      if fraction = [] ∧ exponent = [] then (readInt negative digits).map (fun v => (v, rest))
      else
        .ok (.float (rt.float (signText negative ++ digits ++ fraction ++ exponent)), rest)

/-- Behind an item of a list or a dict. -/
def more (close : Char) : Reader Char LoadError Bool := fun text =>
  match skip text with
  | c :: rest =>
      if c = close then .ok (false, rest)
      else if c = ',' then .ok (true, skip rest)
      else .error .decode
  | [] => .error .decode

/-- `d[key] = value`. -/
def assign (fields : List (String × Json)) (field : String × Json) : List (String × Json) :=
  if field.1 ∈ fields.map Prod.fst then
    fields.map (fun f => if f.1 = field.1 then field else f)
  else fields ++ [field]

/-- A key, a colon and a value that `inner` reads. -/
def scanField (inner : Reader Char LoadError Json) : Reader Char LoadError (String × Json)
  | '"' :: rest => do
      let (key, rest) ← scanString rest
      match skip rest with
      | ':' :: rest =>
          let (value, rest) ← inner (skip rest)
          return ((String.ofList key, value), rest)
      | _ => .error .decode
  | _ => .error .decode

/-- Behind the opening bracket of a list or a dict; `inner` is none at the
depth where the interpreter gives up. -/
def scanItems {β : Type} (close : Char) (item : Reader Char LoadError β) :
    Reader Char LoadError (List β) := fun text =>
  match skip text with
  | [] => .error .decode
  | c :: rest =>
      if c = close then .ok ([], rest)
      else readItems item (more close) .decode ((c :: rest).length + 1) (c :: rest)

/-- `scan_once`, with `inner` for the values inside a list or a dict. -/
def scanValue (inner : Option (Reader Char LoadError Json)) : Reader Char LoadError Json
  | '"' :: rest => do
      let (cs, rest) ← scanString rest
      return (.str (String.ofList cs), rest)
  | '[' :: rest =>
      match inner with
      | none => .error .recursion
      | some inner => do
          let (items, rest) ← scanItems ']' inner rest
          return (.arr items, rest)
  | '{' :: rest =>
      match inner with
      | none => .error .recursion
      | some inner => do
          let (fields, rest) ← scanItems '}' (scanField inner) rest
          return (.obj (fields.foldl assign []), rest)
  | 'n' :: 'u' :: 'l' :: 'l' :: rest => .ok (.null, rest)
  | 't' :: 'r' :: 'u' :: 'e' :: rest => .ok (.bool true, rest)
  | 'f' :: 'a' :: 'l' :: 's' :: 'e' :: rest => .ok (.bool false, rest)
  | 'N' :: 'a' :: 'N' :: rest => .ok (.float nan, rest)
  | 'I' :: 'n' :: 'f' :: 'i' :: 'n' :: 'i' :: 't' :: 'y' :: rest => .ok (.float posInfinity, rest)
  | '-' :: 'I' :: 'n' :: 'f' :: 'i' :: 'n' :: 'i' :: 't' :: 'y' :: rest =>
      .ok (.float negInfinity, rest)
  | '-' :: rest => scanUnsigned rt true rest
  | text => scanUnsigned rt false text

def scanOnce : ℕ → Reader Char LoadError Json
  | 0 => scanValue rt none
  | depth + 1 => scanValue rt (some (scanOnce depth))

/-- `json.loads(text)`. -/
def loads (text : String) : Except LoadError Json := do
  let (value, rest) ← scanOnce rt rt.decodeDepth (skip text.toList)
  if skip rest = [] then return value else .error .decode

end

end WebhookRelay.Wire
