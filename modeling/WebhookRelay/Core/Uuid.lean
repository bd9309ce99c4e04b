import Mathlib.Data.Nat.Digits.Defs
import Mathlib.Order.Lattice
import Mathlib.Tactic

/-!
# Identifiers

`uuid.UUID` as the relay uses it: rows are keyed by 128-bit values, and the
text form travels in paths, Kafka messages and Redis keys. `UUID.parse` is
the constructor `uuid.UUID(text)`, which accepts more texts than `UUID.str`
writes; `parse_str` is what every hop of the pipeline relies on.
-/

namespace WebhookRelay

structure UUID where
  int : ℕ
  lt : int < 2 ^ 128
  deriving DecidableEq

namespace UUID

/-- `uuid.UUID(int=n)`, for the literals of runs. -/
instance (n : ℕ) : OfNat UUID n := ⟨⟨n % 2 ^ 128, Nat.mod_lt n (Nat.two_pow_pos 128)⟩⟩

instance : Inhabited UUID := ⟨0⟩

instance : LinearOrder UUID :=
  LinearOrder.lift' UUID.int (fun a b h => by cases a; cases b; simp_all)

/-! ## Writing -/

def hexDigit (d : ℕ) : Char :=
  if d < 10 then Char.ofNat (48 + d) else Char.ofNat (87 + d)

/-- The last `k` hexadecimal digits of `n`, most significant first. -/
def hexDigits : ℕ → ℕ → List Char
  | 0, _ => []
  | k + 1, n => hexDigits k (n / 16) ++ [hexDigit (n % 16)]

/-- The 8-4-4-4-12 grouping of `str(uuid)`. -/
def dashed (h : List Char) : List Char :=
  h.take 8 ++ '-' :: ((h.drop 8).take 4 ++ '-' :: ((h.drop 12).take 4 ++
    '-' :: ((h.drop 16).take 4 ++ '-' :: h.drop 20)))

def str (u : UUID) : String := String.ofList (dashed (hexDigits 32 u.int))

/-! ## Reading -/

/-- `text.replace(pat, '')`, scanning from the left; `skip` counts the
characters of a match still to be dropped. -/
def removeAll (pat : List Char) : ℕ → List Char → List Char
  | _, [] => []
  | skip + 1, _ :: cs => removeAll pat skip cs
  | 0, c :: cs =>
      if pat.isPrefixOf (c :: cs) then removeAll pat (pat.length - 1) cs
      else c :: removeAll pat 0 cs

/-- `text.strip('{}')`. -/
def stripBraces (cs : List Char) : List Char :=
  let brace := fun c => c = '{' || c = '}'
  ((cs.dropWhile brace).reverse.dropWhile brace).reverse

def hexValue (c : Char) : Option ℕ :=
  if '0' ≤ c ∧ c ≤ '9' then some (c.toNat - 48)
  else if 'a' ≤ c ∧ c ≤ 'f' then some (c.toNat - 87)
  else if 'A' ≤ c ∧ c ≤ 'F' then some (c.toNat - 55)
  else none

/-- The digits of `int(text, 16)`: single underscores may stand between
digits. -/
def readHex (acc : ℕ) (afterDigit : Bool) : List Char → Option ℕ
  | [] => if afterDigit then some acc else none
  | c :: cs =>
      if c = '_' then
        if afterDigit then readHex acc false cs else none
      else
        match hexValue c with
        | some d => readHex (16 * acc + d) true cs
        | none => none

def isPySpace (c : Char) : Bool :=
  c = ' ' || c = '\t' || c = '\n' || c = '\x0b' || c = '\x0c' || c = '\r'

/-- `int(text, 16)` on a text without `-`: surrounding space, a plus sign and
a `0x` mark are accepted. -/
def intBase16 (cs : List Char) : Option ℕ :=
  let cs := ((cs.dropWhile isPySpace).reverse.dropWhile isPySpace).reverse
  let cs := match cs with
    | '+' :: rest => rest
    | _ => cs
  match cs with
  | '0' :: x :: rest =>
      if x = 'x' ∨ x = 'X' then
        match rest with
        | '_' :: rest => readHex 0 false rest
        | _ => readHex 0 false rest
      else readHex 0 false cs
  | _ => readHex 0 false cs

/-- `uuid.UUID(text)`; `none` is its `ValueError`. The digits read are the ASCII
ones, as documented: the `int(text, 16)` of CPython also takes other Unicode
decimal digits and white space. -/
def parse (text : String) : Option UUID :=
  let cs := removeAll "urn:".toList 0 text.toList
  let cs := removeAll "uuid:".toList 0 cs
  let cs := (stripBraces cs).filter (· ≠ '-')
  if cs.length = 32 then
    match intBase16 cs with
    | some n => if h : n < 2 ^ 128 then some ⟨n, h⟩ else none
    | none => none
  else none

/-! ## Reading back what was written -/

/-- The characters `str` writes, dashes apart. -/
def isLowerHex (c : Char) : Bool := ('0' ≤ c ∧ c ≤ '9') || ('a' ≤ c ∧ c ≤ 'f')

theorem hexDigit_isLowerHex {d : ℕ} (h : d < 16) : isLowerHex (hexDigit d) = true := by
  interval_cases d <;> decide

theorem hexValue_hexDigit {d : ℕ} (h : d < 16) : hexValue (hexDigit d) = some d := by
  interval_cases d <;> decide

@[simp] theorem length_hexDigits (k n : ℕ) : (hexDigits k n).length = k := by
  induction k generalizing n with
  | zero => rfl
  | succ k ih => simp [hexDigits, ih]

theorem mem_hexDigits {k n : ℕ} {c : Char} (h : c ∈ hexDigits k n) : isLowerHex c = true := by
  induction k generalizing n with
  | zero => simp [hexDigits] at h
  | succ k ih =>
      rcases List.mem_append.mp h with h | h
      · exact ih h
      · rw [List.mem_singleton] at h
        subst h
        exact hexDigit_isLowerHex (Nat.mod_lt _ (by norm_num))

theorem readHex_digit {acc d : ℕ} {b : Bool} {cs : List Char} (h : d < 16) :
    readHex acc b (hexDigit d :: cs) = readHex (16 * acc + d) true cs := by
  have hne : hexDigit d ≠ '_' := by
    interval_cases d <;> decide
  simp [readHex, hne, hexValue_hexDigit h]

theorem readHex_hexDigits (k n acc : ℕ) (cs : List Char) :
    readHex acc true (hexDigits k n ++ cs) = readHex (16 ^ k * acc + n % 16 ^ k) true cs := by
  induction k generalizing n acc cs with
  | zero => simp [hexDigits, Nat.mod_one]
  | succ k ih =>
      rw [hexDigits, List.append_assoc, ih, List.singleton_append,
        readHex_digit (Nat.mod_lt _ (by norm_num))]
      congr 1
      rw [pow_succ, mul_comm (16 ^ k) 16, Nat.mod_mul]
      ring

theorem dropWhile_eq_self {p : Char → Bool} {cs : List Char} (h : ∀ c ∈ cs, p c = false) :
    cs.dropWhile p = cs := by
  cases cs with
  | nil => rfl
  | cons c cs => simp [h c]

theorem removeAll_eq_self {p : Char} {pat cs : List Char} (h : p ∉ cs) :
    removeAll (p :: pat) 0 cs = cs := by
  induction cs with
  | nil => rfl
  | cons c cs ih =>
      have hne : p ≠ c := fun heq => h (by simp [heq])
      have hcs : p ∉ cs := fun hmem => h (List.mem_cons_of_mem _ hmem)
      simp [removeAll, List.isPrefixOf, hne, ih hcs]

theorem strip_eq_self {p : Char → Bool} {cs : List Char} (h : ∀ c ∈ cs, p c = false) :
    ((cs.dropWhile p).reverse.dropWhile p).reverse = cs := by
  rw [dropWhile_eq_self h, dropWhile_eq_self (by simpa using h), List.reverse_reverse]

theorem mem_dashed {h : List Char} {c : Char} (hc : c ∈ dashed h) : c ∈ h ∨ c = '-' := by
  simp only [dashed, List.mem_append, List.mem_cons] at hc
  rcases hc with hc | hc | hc | hc | hc | hc | hc | hc | hc
  · exact Or.inl (List.mem_of_mem_take hc)
  · exact Or.inr hc
  · exact Or.inl (List.mem_of_mem_drop (List.mem_of_mem_take hc))
  · exact Or.inr hc
  · exact Or.inl (List.mem_of_mem_drop (List.mem_of_mem_take hc))
  · exact Or.inr hc
  · exact Or.inl (List.mem_of_mem_drop (List.mem_of_mem_take hc))
  · exact Or.inr hc
  · exact Or.inl (List.mem_of_mem_drop hc)

theorem filter_dashed {h : List Char} (hdash : '-' ∉ h) : (dashed h).filter (· ≠ '-') = h := by
  have keep : ∀ l : List Char, (∀ c ∈ l, c ∈ h) → l.filter (· ≠ '-') = l := by
    intro l hl
    rw [List.filter_eq_self]
    intro c hc
    have hne : c ≠ '-' := fun heq => hdash (heq ▸ hl c hc)
    simpa using hne
  have group : ∀ i j, (h.drop i).take j ++ h.drop (i + j) = h.drop i := by
    intro i j
    rw [← List.drop_drop, List.take_append_drop]
  have hsub : ∀ i j c, c ∈ (h.drop i).take j → c ∈ h :=
    fun i j c hc => List.mem_of_mem_drop (List.mem_of_mem_take hc)
  simp only [dashed, List.filter_append, List.filter_cons, ne_eq, not_true_eq_false,
    decide_false, Bool.false_eq_true, if_false]
  rw [keep _ (fun c hc => List.mem_of_mem_take hc), keep _ (hsub 8 4), keep _ (hsub 12 4),
    keep _ (hsub 16 4), keep _ (fun c hc => List.mem_of_mem_drop hc),
    group 16 4, group 12 4, group 8 4, List.take_append_drop]

theorem lowerHex_ne {c d : Char} (h : isLowerHex c = true) (hd : isLowerHex d = false) : c ≠ d := by
  rintro rfl
  rw [h] at hd
  cases hd

/-- On 32 plain digits `int(text, 16)` reads the number they denote. -/
theorem intBase16_hexDigits (n : ℕ) : intBase16 (hexDigits 32 n) = some (n % 16 ^ 32) := by
  have hlow : ∀ c ∈ hexDigits 32 n, isLowerHex c = true := fun c hc => mem_hexDigits hc
  have hspace : ∀ c ∈ hexDigits 32 n, isPySpace c = false := by
    intro c hc
    have hlo := hlow c hc
    simp only [isPySpace, Bool.or_eq_false_iff, decide_eq_false_iff_not]
    refine ⟨⟨⟨⟨⟨?_, ?_⟩, ?_⟩, ?_⟩, ?_⟩, ?_⟩ <;> exact lowerHex_ne hlo (by decide)
  have hread : readHex 0 false (hexDigits 32 n) = some (n % 16 ^ 32) := by
    have hfirst : hexDigits 32 n = hexDigit (n / 16 ^ 31 % 16) :: hexDigits 31 n := by
      simp [hexDigits, Nat.div_div_eq_div_mul]
    rw [hfirst, readHex_digit (Nat.mod_lt _ (by norm_num)), ← List.append_nil (hexDigits 31 n),
      readHex_hexDigits]
    simp only [readHex, if_true, Option.some.injEq]
    have hsplit := Nat.mod_mul (x := n) (a := 16 ^ 31) (b := 16)
    rw [show (16 : ℕ) ^ 32 = 16 ^ 31 * 16 by norm_num, hsplit]
    ring
  unfold intBase16
  simp only [strip_eq_self hspace]
  split
  · rename_i heq
    split at heq
    · rename_i rest hplus
      have := hlow '+' (hplus ▸ List.mem_cons_self)
      exact absurd this (by decide)
    · have hx := hlow _ (heq ▸ List.mem_cons_of_mem _ List.mem_cons_self)
      rw [if_neg, hread]
      rintro (rfl | rfl) <;> exact absurd hx (by decide)
  · split
    · rename_i rest hplus
      have := hlow '+' (hplus ▸ List.mem_cons_self)
      exact absurd this (by decide)
    · exact hread

/-- `uuid.UUID(str(u)) = u`. -/
@[simp] theorem parse_str (u : UUID) : parse u.str = some u := by
  have hlow : ∀ c ∈ hexDigits 32 u.int, isLowerHex c = true := fun c hc => mem_hexDigits hc
  have hchar : ∀ c ∈ dashed (hexDigits 32 u.int), isLowerHex c = true ∨ c = '-' := by
    intro c hc
    exact (mem_dashed hc).imp_left (hlow c)
  have habsent : ∀ d, isLowerHex d = false → d ≠ '-' → d ∉ dashed (hexDigits 32 u.int) := by
    intro d hd hdash hmem
    rcases hchar d hmem with h | h
    · exact lowerHex_ne h hd rfl
    · exact hdash h
  have hu : 'u' ∉ dashed (hexDigits 32 u.int) := habsent 'u' (by decide) (by decide)
  have hbrace : ∀ c ∈ dashed (hexDigits 32 u.int), (c = '{' || c = '}') = false := by
    intro c hc
    have h1 : c ≠ '{' := fun h => habsent '{' (by decide) (by decide) (h ▸ hc)
    have h2 : c ≠ '}' := fun h => habsent '}' (by decide) (by decide) (h ▸ hc)
    simp [h1, h2]
  have hdigits : '-' ∉ hexDigits 32 u.int := fun hmem => absurd (hlow _ hmem) (by decide)
  have hlt : u.int % 16 ^ 32 = u.int := Nat.mod_eq_of_lt (by simpa using u.lt)
  unfold parse str
  simp only [String.toList_ofList]
  rw [show "urn:".toList = 'u' :: ['r', 'n', ':'] from rfl, removeAll_eq_self hu,
    show "uuid:".toList = 'u' :: ['u', 'i', 'd', ':'] from rfl, removeAll_eq_self hu]
  simp only [stripBraces, strip_eq_self hbrace, filter_dashed hdigits, length_hexDigits,
    intBase16_hexDigits, hlt, if_true, u.lt, dite_true]

theorem length_str (u : UUID) : u.str.toList.length = 36 := by
  simp [str, dashed]

theorem str_injective : Function.Injective str := by
  intro a b h
  have := congrArg parse h
  simpa using this

end UUID

end WebhookRelay
