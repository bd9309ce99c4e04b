import WebhookRelay.Wire.JsonText

/-!
# What is written is read back

`json.loads` undoes `json.dumps`: piece by piece for the characters of a
string, the digits of a number and the fields of a dict, each in front of
whatever follows it, and then by induction on the value. A number is the only
piece whose end shows only in what follows (`Delimited`).
-/

namespace WebhookRelay.Wire

open Foundation Fallible Transform

/-! ## Characters -/

theorem hexDigits_four (n : ℕ) :
    UUID.hexDigits 4 n = [UUID.hexDigit (n / 16 / 16 / 16 % 16), UUID.hexDigit (n / 16 / 16 % 16),
      UUID.hexDigit (n / 16 % 16), UUID.hexDigit (n % 16)] := rfl

theorem hex4_hexDigits {n : ℕ} (h : n < 0x10000) :
    hex4 (UUID.hexDigit (n / 16 / 16 / 16 % 16)) (UUID.hexDigit (n / 16 / 16 % 16))
      (UUID.hexDigit (n / 16 % 16)) (UUID.hexDigit (n % 16)) = some n := by
  have hmod : ∀ k, k % 16 < 16 := fun k => Nat.mod_lt k (by norm_num)
  unfold hex4
  simp only [UUID.hexValue_hexDigit (hmod _), Option.bind_eq_bind, Option.bind_some, Option.pure_def,
    Option.some.injEq]
  omega

/-- The escape of a code unit that is no surrogate. -/
theorem scanString_unicodeEscape {n : ℕ} (h : n < 0x10000) (hlow : isLowSurrogate n = false)
    (hhigh : isHighSurrogate n = false) (rest : List Char) :
    scanString (unicodeEscape n ++ rest) = consChar (Char.ofNat n) (scanString rest) := by
  unfold unicodeEscape
  rw [hexDigits_four]
  simp only [List.cons_append, List.nil_append, scanString, hex4_hexDigits h, hhigh, hlow,
    Bool.false_eq_true, if_false]

/-- Two surrogates that belong together. -/
theorem scanString_surrogates {high low : ℕ} (hhigh : isHighSurrogate high = true)
    (hlow : isLowSurrogate low = true) (rest : List Char) :
    scanString (unicodeEscape high ++ (unicodeEscape low ++ rest)) =
      consChar (Char.ofNat (0x10000 + (high - 0xd800) * 0x400 + (low - 0xdc00)))
        (scanString rest) := by
  have hhigh' : high < 0x10000 := by
    simp only [isHighSurrogate, Bool.and_eq_true, decide_eq_true_eq] at hhigh
    omega
  have hlow' : low < 0x10000 := by
    simp only [isLowSurrogate, Bool.and_eq_true, decide_eq_true_eq] at hlow
    omega
  unfold unicodeEscape
  rw [hexDigits_four, hexDigits_four]
  simp only [List.cons_append, List.nil_append, scanString, hex4_hexDigits hhigh',
    hex4_hexDigits hlow', hhigh, hlow, if_true]

/-- A character that stands for itself. -/
theorem scanString_plain {c : Char} (hquote : c ≠ '"') (hslash : c ≠ '\\') (hc : 0x20 ≤ c.toNat)
    (rest : List Char) : scanString (c :: rest) = consChar c (scanString rest) := by
  rw [scanString]
  · rw [if_neg (Nat.not_lt.mpr hc)]
  · rintro rfl
    exact absurd rfl hquote
  all_goals
    intros
    exact hslash (by assumption)

/-- Every character is read back from its escape. -/
theorem scanString_escapeChar (c : Char) (rest : List Char) :
    scanString (escapeChar c ++ rest) = consChar c (scanString rest) := by
  unfold escapeChar
  split
  · subst c; rfl
  split
  · subst c; rfl
  split
  · subst c; rfl
  split
  · subst c; rfl
  split
  · subst c; rfl
  split
  · subst c; rfl
  split
  · subst c; rfl
  rename_i hquote hslash _ _ _ _ _
  have hvalid : c.toNat < 0xd800 ∨ 0xdfff < c.toNat ∧ c.toNat < 0x110000 := c.valid
  split
  · rename_i hprintable
    exact scanString_plain hquote hslash hprintable.1 rest
  split
  · rename_i hbasic
    rw [scanString_unicodeEscape hbasic, Char.ofNat_toNat]
    · simp only [isLowSurrogate, Bool.and_eq_false_iff, decide_eq_false_iff_not]
      omega
    · simp only [isHighSurrogate, Bool.and_eq_false_iff, decide_eq_false_iff_not]
      omega
  · rename_i hbeyond
    have hunits : 0x10000 + (0xd800 + (c.toNat - 0x10000) / 0x400 - 0xd800) * 0x400 +
        (0xdc00 + (c.toNat - 0x10000) % 0x400 - 0xdc00) = c.toNat := by
      omega
    rw [List.append_assoc, scanString_surrogates, hunits, Char.ofNat_toNat]
    · simp only [isHighSurrogate, Bool.and_eq_true, decide_eq_true_eq]
      omega
    · simp only [isLowSurrogate, Bool.and_eq_true, decide_eq_true_eq]
      omega

theorem scanString_stringTail (s : String) (rest : List Char) :
    scanString (stringTail s ++ rest) = .ok (s.toList, rest) := by
  unfold stringTail
  rw [List.append_assoc]
  induction s.toList with
  | nil => rfl
  | cons c cs ih =>
      rw [List.flatMap_cons, List.append_assoc, scanString_escapeChar, ih]
      rfl

/-! ## Numbers -/

/-- What follows does not go on with a number. -/
def Delimited (rest : List Char) : Prop :=
  ∀ c, rest.head? = some c → c.isDigit = false ∧ c ≠ '.' ∧ c ≠ 'e' ∧ c ≠ 'E'

theorem delimited_nil : Delimited [] := by
  intro c hc
  cases hc

theorem delimited_cons {c : Char} (hdigit : c.isDigit = false) (hpoint : c ≠ '.') (he : c ≠ 'e')
    (hE : c ≠ 'E') (rest : List Char) : Delimited (c :: rest) := by
  intro d hd
  obtain rfl := Option.some.inj hd
  exact ⟨hdigit, hpoint, he, hE⟩

/-- Digits, as many as there are. -/
theorem span_digits {digits rest : List Char} (hdigits : ∀ c ∈ digits, c.isDigit = true)
    (hrest : ∀ c, rest.head? = some c → c.isDigit = false) :
    (digits ++ rest).takeWhile Char.isDigit = digits ∧
      (digits ++ rest).dropWhile Char.isDigit = rest := by
  rw [List.takeWhile_append_of_pos hdigits, List.dropWhile_append_of_pos hdigits]
  cases rest with
  | nil => simp
  | cons c rest =>
      have hc : c.isDigit = false := hrest c rfl
      simp [hc]

/-- The digits of an integer as Python writes it. -/
def IsDigits (digits : List Char) : Prop :=
  digits ≠ [] ∧ (∀ c ∈ digits, c.isDigit = true) ∧ (digits.head? = some '0' → digits = ['0'])

theorem scanDigits_append {digits rest : List Char} (h : IsDigits digits)
    (hrest : ∀ c, rest.head? = some c → c.isDigit = false) :
    scanDigits (digits ++ rest) = some (digits, rest) := by
  obtain ⟨hne, hdigits, hzero⟩ := h
  obtain ⟨htake, hdrop⟩ := span_digits hdigits hrest
  cases digits with
  | nil => exact absurd rfl hne
  | cons c digits =>
      by_cases hc : c = '0'
      · subst hc
        obtain rfl : digits = [] := (List.cons.inj (hzero rfl)).2
        rfl
      · rw [List.cons_append] at htake hdrop ⊢
        unfold scanDigits
        split
        · rename_i heq
          exact absurd (List.cons.inj heq).1 hc
        · rename_i heq
          obtain ⟨rfl, rfl⟩ := List.cons.inj heq
          rw [if_pos (hdigits _ List.mem_cons_self), htake, hdrop]
        · rename_i heq
          cases heq

/-- The digits of a fraction or an exponent. -/
def IsRun (digits : List Char) : Prop := digits ≠ [] ∧ ∀ c ∈ digits, c.isDigit = true

inductive IsFraction : List Char → Prop where
  | none : IsFraction []
  | some {digits : List Char} : IsRun digits → IsFraction ('.' :: digits)

inductive IsExponent : List Char → Prop where
  | none : IsExponent []
  | some {sign digits : List Char} : sign = [] ∨ sign = ['+'] ∨ sign = ['-'] → IsRun digits →
      IsExponent ('e' :: (sign ++ digits))

theorem scanFraction_append {fraction rest : List Char} (h : IsFraction fraction)
    (hrest : ∀ c, rest.head? = some c → c.isDigit = false ∧ c ≠ '.') :
    scanFraction (fraction ++ rest) = (fraction, rest) := by
  cases h with
  | none =>
      rw [List.nil_append]
      unfold scanFraction
      split
      · exact absurd rfl (hrest '.' rfl).2
      · rfl
  | some hrun =>
      obtain ⟨htake, hdrop⟩ := span_digits hrun.2 (fun c hc => (hrest c hc).1)
      rw [List.cons_append]
      simp only [scanFraction, htake, hdrop, if_neg hrun.1]

theorem scanExponent_append {exponent rest : List Char} (h : IsExponent exponent)
    (hrest : ∀ c, rest.head? = some c → c.isDigit = false ∧ c ≠ 'e' ∧ c ≠ 'E') :
    scanExponent (exponent ++ rest) = (exponent, rest) := by
  cases h with
  | none =>
      rw [List.nil_append]
      unfold scanExponent
      split
      · rename_i c rest
        rw [if_neg]
        rintro (rfl | rfl)
        · exact (hrest _ rfl).2.1 rfl
        · exact (hrest _ rfl).2.2 rfl
      · rfl
  | @some sign digits hsign hrun =>
      obtain ⟨htake, hdrop⟩ := span_digits hrun.2 (fun c hc => (hrest c hc).1)
      have hscan : scanSign (sign ++ (digits ++ rest)) = (sign, digits ++ rest) := by
        rcases hsign with rfl | rfl | rfl
        · obtain ⟨first, others, rfl⟩ := List.exists_cons_of_ne_nil hrun.1
          have hfirst := hrun.2 first List.mem_cons_self
          unfold scanSign
          rw [List.nil_append, List.cons_append]
          dsimp only
          rw [if_neg]
          rintro (rfl | rfl) <;> exact absurd hfirst (by decide)
        · rfl
        · rfl
      rw [List.cons_append, List.append_assoc]
      simp only [scanExponent, true_or, if_true, hscan, htake, hdrop, if_neg hrun.1,
        List.cons_append]

theorem head?_append_ne_nil {α : Type} {first second : List α} (h : first ≠ []) :
    (first ++ second).head? = first.head? := by
  cases first with
  | nil => exact absurd rfl h
  | cons a first => rfl

/-- How the text of a `float` looks. -/
structure IsFloatText (digits fraction exponent : List Char) : Prop where
  integral : IsDigits digits
  fractional : IsFraction fraction
  exponential : IsExponent exponent
  notInt : fraction ≠ [] ∨ exponent ≠ []

/-- Python's promises about `float`: the text of a finite number is a literal
and gives the number back, and what begins with digits is no `nan`. -/
structure FloatsReadBack (rt : JsonRuntime) : Prop where
  literal : ∀ x, isFinite x = true → ∃ negative digits fraction exponent,
    IsFloatText digits fraction exponent ∧
      (rt.reprFloat x).toList = signText negative ++ digits ++ fraction ++ exponent
  back : ∀ x, isFinite x = true → rt.float (rt.reprFloat x).toList = x
  number : ∀ negative digits rest, IsDigits digits →
    let x := rt.float (signText negative ++ digits ++ rest)
    isFinite x = true ∨ x = posInfinity ∨ x = negInfinity

variable {rt : JsonRuntime}

theorem scanUnsigned_int {negative : Bool} {digits rest : List Char} (h : IsDigits digits)
    (hrest : Delimited rest) :
    scanUnsigned rt negative (digits ++ rest) =
      (readInt negative digits).map (fun v => (v, rest)) := by
  unfold scanUnsigned
  rw [scanDigits_append h (fun c hc => (hrest c hc).1)]
  dsimp only
  have hfraction := scanFraction_append .none
    (fun c hc => ⟨(hrest c hc).1, (hrest c hc).2.1⟩)
  have hexponent := scanExponent_append .none
    (fun c hc => ⟨(hrest c hc).1, (hrest c hc).2.2⟩)
  rw [List.nil_append] at hfraction hexponent
  simp only [hfraction, hexponent, and_self, if_true]

theorem scanUnsigned_float {negative : Bool} {digits fraction exponent rest : List Char}
    (h : IsFloatText digits fraction exponent) (hrest : Delimited rest) :
    scanUnsigned rt negative (digits ++ (fraction ++ (exponent ++ rest))) =
      .ok (.float (rt.float (signText negative ++ digits ++ fraction ++ exponent)), rest) := by
  have hexponent : ∀ c, (exponent ++ rest).head? = some c → c.isDigit = false ∧ c ≠ '.' := by
    intro c hc
    cases h.exponential with
    | none => exact ⟨(hrest c hc).1, (hrest c hc).2.1⟩
    | some _ _ =>
        obtain rfl := Option.some.inj hc
        exact ⟨by decide, by decide⟩
  have hfraction : ∀ c, (fraction ++ (exponent ++ rest)).head? = some c → c.isDigit = false := by
    intro c hc
    cases h.fractional with
    | none => exact (hexponent c hc).1
    | some _ =>
        obtain rfl := Option.some.inj hc
        decide
  unfold scanUnsigned
  rw [scanDigits_append h.integral hfraction]
  dsimp only
  rw [scanFraction_append h.fractional hexponent]
  dsimp only
  rw [scanExponent_append h.exponential (fun c hc => ⟨(hrest c hc).1, (hrest c hc).2.2⟩)]
  dsimp only
  rw [if_neg (not_and_or.mpr h.notInt)]

/-- A text that begins with a digit is a number. -/
theorem scanValue_digit {inner : Option (Reader Char LoadError Json)} {text : List Char} {c : Char}
    (hhead : text.head? = some c) (hc : c.isDigit = true) :
    scanValue rt inner text = scanUnsigned rt false text := by
  unfold scanValue
  split
  all_goals first
    | rfl
    | (obtain rfl := Option.some.inj hhead
       exact absurd hc (by decide))

theorem scanValue_minus {inner : Option (Reader Char LoadError Json)} {text : List Char} {c : Char}
    (hhead : text.head? = some c) (hc : c.isDigit = true) :
    scanValue rt inner ('-' :: text) = scanUnsigned rt true text := by
  cases text with
  | nil => cases hhead
  | cons d text =>
      obtain rfl := Option.some.inj hhead
      unfold scanValue
      split
      all_goals rename_i heq
      all_goals first
        | (obtain ⟨hd, _⟩ := List.cons.inj heq
           exact absurd hd (by decide))
        | skip
      · obtain ⟨_, hrest⟩ := List.cons.inj heq
        obtain ⟨rfl, _⟩ := List.cons.inj hrest
        exact absurd hc (by decide)
      · obtain ⟨_, rfl⟩ := List.cons.inj heq
        rfl
      · exact absurd rfl (heq _)

/-! ## Values -/

mutual

/-- The value is one that Python holds: a `dict` has each key once, and every
`nan` is that of `float('nan')`. -/
def Proper : Json → Prop
  | .float x => isFinite x = true ∨ x = posInfinity ∨ x = negInfinity ∨ x = nan
  | .arr items => ProperItems items
  | .obj fields => (fields.map Prod.fst).Nodup ∧ ProperFields fields
  | _ => True

def ProperItems : List Json → Prop
  | [] => True
  | value :: rest => Proper value ∧ ProperItems rest

def ProperFields : List (String × Json) → Prop
  | [] => True
  | (_, value) :: rest => Proper value ∧ ProperFields rest

end

mutual

def decidableProper : (value : Json) → Decidable (Proper value)
  | .null => isTrue trivial
  | .bool _ => isTrue trivial
  | .int _ => isTrue trivial
  | .float x =>
      inferInstanceAs (Decidable (isFinite x = true ∨ x = posInfinity ∨ x = negInfinity ∨ x = nan))
  | .str _ => isTrue trivial
  | .arr items => decidableProperItems items
  | .obj fields => @instDecidableAnd _ _ inferInstance (decidableProperFields fields)

def decidableProperItems : (items : List Json) → Decidable (ProperItems items)
  | [] => isTrue trivial
  | value :: rest => @instDecidableAnd _ _ (decidableProper value) (decidableProperItems rest)

def decidableProperFields : (fields : List (String × Json)) → Decidable (ProperFields fields)
  | [] => isTrue trivial
  | (_, value) :: rest =>
      @instDecidableAnd _ _ (decidableProper value) (decidableProperFields rest)

end

instance (value : Json) : Decidable (Proper value) := decidableProper value

/-- The text begins with a character of its own. -/
def Starts (text : List Char) : Prop :=
  ∃ c rest, text = c :: rest ∧ isJsonSpace c = false ∧ c ≠ ']' ∧ c ≠ '}'

theorem Starts.ne_nil {text : List Char} (h : Starts text) : text ≠ [] := by
  obtain ⟨c, rest, rfl, _⟩ := h
  exact List.cons_ne_nil c rest

theorem Starts.skip {text : List Char} (h : Starts text) (rest : List Char) :
    skip (text ++ rest) = text ++ rest := by
  obtain ⟨c, tail, rfl, hspace, _⟩ := h
  exact List.dropWhile_cons_of_neg (by simp [hspace])

theorem starts_of_head {c : Char} {rest : List Char} (hspace : isJsonSpace c = false)
    (hclose : c ≠ ']') (hbrace : c ≠ '}') : Starts (c :: rest) :=
  ⟨c, rest, rfl, hspace, hclose, hbrace⟩

theorem starts_digit {c : Char} {rest : List Char} (hc : c.isDigit = true) : Starts (c :: rest) := by
  apply starts_of_head
  · simp only [isJsonSpace, Bool.or_eq_false_iff, decide_eq_false_iff_not]
    refine ⟨⟨⟨?_, ?_⟩, ?_⟩, ?_⟩ <;> (rintro rfl; exact absurd hc (by decide))
  · rintro rfl
    exact absurd hc (by decide)
  · rintro rfl
    exact absurd hc (by decide)

/-- Digits with or without a sign. -/
theorem starts_signed (negative : Bool) {digits : List Char} (rest : List Char) (h : IsDigits digits) :
    Starts (signText negative ++ digits ++ rest) := by
  cases negative with
  | true => exact starts_of_head (by decide) (by decide) (by decide)
  | false =>
      obtain ⟨c, digits, rfl⟩ := List.exists_cons_of_ne_nil h.1
      exact starts_digit (h.2.1 c List.mem_cons_self)

theorem isDigits_toDigits (n : ℕ) : IsDigits (Nat.toDigits 10 n) := by
  refine ⟨Nat.toDigits_ne_nil, ?_, ?_⟩
  · intro c hc
    exact Nat.isDigit_of_mem_toDigits (by norm_num) (by norm_num) hc
  · intro hzero
    induction n using Nat.strongRecOn with
    | ind n ih =>
        by_cases hn : n < 10
        · rw [Nat.toDigits_of_lt_base hn] at hzero ⊢
          rw [List.head?_cons, Option.some.injEq] at hzero
          rw [hzero]
        · -- the first digit is that of a smaller number, which is not zero
          rw [Nat.toDigits_of_base_le (by norm_num) (Nat.not_lt.mp hn),
            head?_append_ne_nil Nat.toDigits_ne_nil] at hzero
          have hfirst := ih (n / 10) (by omega) hzero
          have hvalue := congrArg (fun digits => Nat.ofDigitChars 10 digits 0) hfirst
          simp only [Nat.ofDigitChars_ten_toDigits] at hvalue
          exfalso
          have : Nat.ofDigitChars 10 ['0'] 0 = 0 := by decide
          omega

/-- The text of an integer. -/
theorem toList_toString (n : ℤ) :
    (toString n).toList = signText (decide (n < 0)) ++ Nat.toDigits 10 n.natAbs := by
  cases n with
  | ofNat n =>
      show (Nat.repr n).toList = _
      rw [Nat.toList_repr]
      rfl
  | negSucc n =>
      show ("-" ++ Nat.repr (n + 1)).toList = _
      rw [String.toList_append, Nat.toList_repr]
      have hneg : Int.negSucc n < 0 := Int.negSucc_lt_zero n
      simp [signText, hneg]

theorem readInt_toDigits {n : ℤ} (h : ShortInt n) :
    readInt (decide (n < 0)) (Nat.toDigits 10 n.natAbs) = .ok (.int n) := by
  unfold readInt
  have hlength : (Nat.toDigits 10 n.natAbs).length ≤ maxStrDigits :=
    (Nat.length_toDigits_le_iff (by norm_num) (by decide)).mpr h
  have hvalue : (if decide (n < 0) = true then -(n.natAbs : ℤ) else (n.natAbs : ℤ)) = n := by
    split
    all_goals
      rename_i hneg
      rw [decide_eq_true_eq] at hneg
      omega
  rw [if_neg (Nat.not_lt.mpr hlength), Nat.ofDigitChars_ten_toDigits]
  exact congrArg (fun m => Except.ok (Json.int m)) hvalue

/-- A signed number is scanned behind its sign. -/
theorem scanValue_signed {inner : Option (Reader Char LoadError Json)} {negative : Bool}
    {digits rest : List Char} (h : IsDigits digits) :
    scanValue rt inner (signText negative ++ (digits ++ rest)) =
      scanUnsigned rt negative (digits ++ rest) := by
  obtain ⟨c, digits, rfl⟩ := List.exists_cons_of_ne_nil h.1
  have hc := h.2.1 c List.mem_cons_self
  cases negative with
  | true => exact scanValue_minus rfl hc
  | false => exact scanValue_digit rfl hc

theorem reads_int (inner : Option (Reader Char LoadError Json)) {n : ℤ} (h : ShortInt n) :
    Reads (scanValue rt inner) Delimited (toString n).toList (.int n) := by
  intro rest hrest
  rw [toList_toString, List.append_assoc, scanValue_signed (isDigits_toDigits _),
    scanUnsigned_int (isDigits_toDigits _) hrest, readInt_toDigits h]
  rfl

theorem reads_float (hrt : FloatsReadBack rt) (inner : Option (Reader Char LoadError Json))
    {x : PyFloat} (h : Proper (.float x)) :
    Reads (scanValue rt inner) Delimited (floatText rt x) (.float x) := by
  intro rest hrest
  unfold floatText
  by_cases hfinite : isFinite x = true
  · obtain ⟨negative, digits, fraction, exponent, htext, heq⟩ := hrt.literal x hfinite
    have hback := hrt.back x hfinite
    rw [heq] at hback
    rw [if_pos hfinite, heq]
    simp only [List.append_assoc]
    rw [scanValue_signed htext.integral, scanUnsigned_float htext hrest, hback]
  · rw [if_neg hfinite]
    rcases h.resolve_left hfinite with rfl | rfl | rfl
    · rfl
    · rfl
    · rfl

/-! ## Lists and dicts -/

theorem delimited_sep (rest : List Char) : Delimited ([',', ' '] ++ rest) :=
  delimited_cons (by decide) (by decide) (by decide) (by decide) _

/-- The brackets that close a list and a dict. -/
def IsBracket (c : Char) : Prop := c = ']' ∨ c = '}'

section

variable {close : Char} (hclose : IsBracket close)

include hclose

theorem delimited_close (rest : List Char) : Delimited ([close] ++ rest) := by
  rcases hclose with rfl | rfl
  all_goals exact delimited_cons (by decide) (by decide) (by decide) (by decide) rest

theorem skip_close (rest : List Char) : skip (close :: rest) = close :: rest := by
  rcases hclose with rfl | rfl <;> rfl

theorem more_close (rest : List Char) : more close ([close] ++ rest) = .ok (false, rest) := by
  rw [List.singleton_append]
  unfold more
  rw [skip_close hclose]
  dsimp only
  rw [if_pos rfl]

theorem more_sep {next : List Char} (hnext : Starts next) (rest : List Char) :
    more close ([',', ' '] ++ (next ++ rest)) = .ok (true, next ++ rest) := by
  have hcomma : ',' ≠ close := by
    rcases hclose with rfl | rfl <;> decide
  have hskip : ∀ text, skip (',' :: text) = ',' :: text := fun _ => rfl
  have hspace : ∀ text, skip (' ' :: text) = skip text := fun _ => rfl
  rw [List.cons_append, List.singleton_append]
  unfold more
  rw [hskip]
  dsimp only
  rw [if_neg hcomma, if_pos rfl, hspace, hnext.skip]

/-- A list or a dict from its items. -/
theorem reads_items {β : Type} {item : Reader Char LoadError β} {texts : List (List Char)}
    {bs : List β} (hreads : List.Forall₂ (Reads item Delimited) texts bs)
    (hstarts : ∀ t ∈ texts, Starts t) :
    Reads (scanItems close item) (fun _ => True) (joined [',', ' '] [close] texts) bs := by
  intro rest _
  cases hreads with
  | nil =>
      show scanItems close item (close :: rest) = _
      unfold scanItems
      rw [skip_close hclose]
      dsimp only
      rw [if_pos rfl]
  | @cons text b texts bs hfirst hothers =>
      have htext := hstarts text List.mem_cons_self
      obtain ⟨tail, htail⟩ :=
        exists_joined_eq [',', ' '] [close] text texts rest
      have hfuel : texts.length <
          (joined [',', ' '] [close] (text :: texts) ++ rest).length + 1 := by
        have hlength := length_le_joined [',', ' '] [close]
          (fun t ht => (hstarts t ht).ne_nil)
        simp only [List.length_cons, List.length_append] at hlength ⊢
        omega
      have hjoined := reads_joined LoadError.decode delimited_sep (delimited_close hclose)
        (more_close hclose) hfirst hothers
        (fun next hnext => more_sep hclose (hstarts next (List.mem_cons_of_mem _ hnext)))
        hfuel rest trivial
      unfold scanItems
      rw [htail, htext.skip tail]
      obtain ⟨c, others, rfl, _, hbracket, hbrace⟩ := htext
      rw [List.cons_append]
      dsimp only
      rw [if_neg, ← List.cons_append, ← htail]
      · exact hjoined
      · rcases hclose with rfl | rfl
        · exact hbracket
        · exact hbrace

end

/-- A field, from the text of its value. -/
theorem reads_field {inner : Reader Char LoadError Json} (key : String) {text : List Char}
    {value : Json} (hstarts : Starts text) (h : Reads inner Delimited text value) :
    Reads (scanField inner) Delimited (stringText key ++ (':' :: ' ' :: text)) (key, value) := by
  intro rest hrest
  show scanField inner ('"' :: (stringTail key ++ (':' :: ' ' :: text)) ++ rest) = _
  rw [List.cons_append, List.append_assoc]
  simp only [scanField, scanString_stringTail, ok_bind, List.cons_append]
  show (do
    let r ← inner (skip (text ++ rest))
    pure ((String.ofList key.toList, r.1), r.2)) = _
  rw [hstarts.skip, h rest hrest, ok_bind, String.ofList_toList]
  rfl

/-- Each key once: the dict has its fields in the order they come. -/
theorem foldl_assign (before : List (String × Json)) {fields : List (String × Json)}
    (h : ((before ++ fields).map Prod.fst).Nodup) :
    fields.foldl assign before = before ++ fields := by
  induction fields generalizing before with
  | nil => rw [List.foldl_nil, List.append_nil]
  | cons field fields ih =>
      have hfresh : field.1 ∉ before.map Prod.fst := by
        intro hmem
        rw [List.map_append, List.nodup_append] at h
        exact h.2.2 _ hmem _ List.mem_cons_self rfl
      have happend : before ++ field :: fields = (before ++ [field]) ++ fields := by simp
      rw [List.foldl_cons, assign, if_neg hfresh, happend]
      exact ih _ (happend ▸ h)

/-! ## The whole text -/

/-- At every depth the scalars are read in the same way. -/
theorem exists_scanOnce_eq (rt : JsonRuntime) (depth : ℕ) : ∃ inner, scanOnce rt depth = scanValue rt inner := by
  cases depth with
  | zero => exact ⟨none, rfl⟩
  | succ depth => exact ⟨some (scanOnce rt depth), rfl⟩

theorem reads_str (inner : Option (Reader Char LoadError Json)) (s : String) :
    Reads (scanValue rt inner) Delimited (stringText s) (.str s) := by
  intro rest _
  show scanValue rt inner ('"' :: (stringTail s ++ rest)) = _
  simp only [scanValue, scanString_stringTail, ok_bind, String.ofList_toList]
  rfl

theorem strInt_eq {n : ℤ} {s : String} (h : strInt n = .ok s) : ShortInt n ∧ s = toString n := by
  refine ⟨strInt_succeeds_iff.mp ⟨s, h⟩, ?_⟩
  unfold strInt at h
  split at h
  · cases h
  · exact (Except.ok.inj h).symm

/-- An integer that has a text. -/
theorem starts_toString (n : ℤ) : Starts (toString n).toList := by
  have hstarts := starts_signed (decide (n < 0)) [] (isDigits_toDigits n.natAbs)
  rwa [List.append_nil, ← toList_toString] at hstarts

theorem starts_floatText (hrt : FloatsReadBack rt) (x : PyFloat) : Starts (floatText rt x) := by
  unfold floatText
  split
  · rename_i hfinite
    obtain ⟨negative, digits, fraction, exponent, htext, heq⟩ := hrt.literal x hfinite
    rw [heq, List.append_assoc]
    exact starts_signed negative _ htext.integral
  split
  · exact starts_of_head (by decide) (by decide) (by decide)
  split
  · exact starts_of_head (by decide) (by decide) (by decide)
  · exact starts_of_head (by decide) (by decide) (by decide)

mutual

/-- The levels of lists and dicts in a value. -/
def nesting : Json → ℕ
  | .arr items => nestingItems items + 1
  | .obj fields => nestingFields fields + 1
  | _ => 0

def nestingItems : List Json → ℕ
  | [] => 0
  | value :: rest => max (nesting value) (nestingItems rest)

def nestingFields : List (String × Json) → ℕ
  | [] => 0
  | (_, value) :: rest => max (nesting value) (nestingFields rest)

end

mutual

/-- The text of a value is read as the value, in as many levels as it has. -/
theorem reads_dumpAt (hrt : FloatsReadBack rt) (depth levels : ℕ) :
    ∀ (value : Json) {text : List Char}, Proper value → nesting value ≤ levels →
      dumpAt rt depth value = .ok text →
      Starts text ∧ Reads (scanOnce rt levels) Delimited text value := by
  intro value text hproper hlevels htext
  obtain ⟨inner, hinner⟩ := exists_scanOnce_eq rt levels
  cases value with
  | null =>
      obtain rfl := Except.ok.inj htext
      exact ⟨starts_of_head (by decide) (by decide) (by decide), fun rest _ => by rw [hinner]; rfl⟩
  | bool b =>
      obtain rfl := Except.ok.inj htext
      cases b with
      | true =>
          refine ⟨starts_of_head (by decide) (by decide) (by decide), fun rest _ => ?_⟩
          rw [hinner]
          rfl
      | false =>
          refine ⟨starts_of_head (by decide) (by decide) (by decide), fun rest _ => ?_⟩
          rw [hinner]
          rfl
  | int n =>
      rw [dumpAt, map_eq_ok_iff] at htext
      obtain ⟨s, hs, rfl⟩ := htext
      obtain ⟨hshort, rfl⟩ := strInt_eq hs
      exact ⟨starts_toString n, hinner ▸ reads_int inner hshort⟩
  | float x =>
      obtain rfl := Except.ok.inj htext
      exact ⟨starts_floatText hrt x, hinner ▸ reads_float hrt inner hproper⟩
  | str s =>
      obtain rfl := Except.ok.inj htext
      exact ⟨starts_of_head (by decide) (by decide) (by decide), hinner ▸ reads_str inner s⟩
  | arr items =>
      cases depth with
      | zero => cases htext
      | succ depth =>
          obtain ⟨levels, rfl⟩ := Nat.exists_eq_add_one.mpr (Nat.zero_lt_of_lt hlevels)
          rw [dumpAt, map_eq_ok_iff] at htext
          obtain ⟨texts, htexts, rfl⟩ := htext
          obtain ⟨hstarts, hreads⟩ :=
            reads_dumpItems hrt depth levels items hproper (Nat.le_of_succ_le_succ hlevels) htexts
          refine ⟨starts_of_head (by decide) (by decide) (by decide), fun rest _ => ?_⟩
          have hitems := reads_items (Or.inl rfl) hreads hstarts rest trivial
          simp only [List.cons_append, scanOnce, scanValue, hitems, ok_bind]
          rfl
  | obj fields =>
      cases depth with
      | zero => cases htext
      | succ depth =>
          obtain ⟨levels, rfl⟩ := Nat.exists_eq_add_one.mpr (Nat.zero_lt_of_lt hlevels)
          rw [dumpAt, map_eq_ok_iff] at htext
          obtain ⟨texts, htexts, rfl⟩ := htext
          obtain ⟨hstarts, hreads⟩ :=
            reads_dumpFields hrt depth levels fields hproper.2 (Nat.le_of_succ_le_succ hlevels) htexts
          refine ⟨starts_of_head (by decide) (by decide) (by decide), fun rest _ => ?_⟩
          have hitems := reads_items (Or.inr rfl) hreads hstarts rest trivial
          have hassign : fields.foldl assign [] = fields := foldl_assign [] hproper.1
          simp only [List.cons_append, scanOnce, scanValue, hitems, ok_bind, hassign]
          rfl

theorem reads_dumpItems (hrt : FloatsReadBack rt) (depth levels : ℕ) :
    ∀ (items : List Json) {texts : List (List Char)}, ProperItems items →
      nestingItems items ≤ levels → dumpItems rt depth items = .ok texts →
      (∀ t ∈ texts, Starts t) ∧
        List.Forall₂ (Reads (scanOnce rt levels) Delimited) texts items := by
  intro items texts hproper hlevels htexts
  match items with
  | [] =>
      obtain rfl := Except.ok.inj htexts
      exact ⟨fun t ht => absurd ht List.not_mem_nil, .nil⟩
  | value :: rest =>
      rw [dumpItems, bind_eq_ok_iff] at htexts
      obtain ⟨text, htext, htexts⟩ := htexts
      rw [bind_eq_ok_iff] at htexts
      obtain ⟨others, hothers, heq⟩ := htexts
      obtain rfl := Except.ok.inj heq
      obtain ⟨hvalue, hrest⟩ := max_le_iff.mp hlevels
      obtain ⟨hstarts, hreads⟩ := reads_dumpAt hrt depth levels value hproper.1 hvalue htext
      obtain ⟨hstarts', hreads'⟩ := reads_dumpItems hrt depth levels rest hproper.2 hrest hothers
      exact ⟨List.forall_mem_cons.mpr ⟨hstarts, hstarts'⟩, .cons hreads hreads'⟩

theorem reads_dumpFields (hrt : FloatsReadBack rt) (depth levels : ℕ) :
    ∀ (fields : List (String × Json)) {texts : List (List Char)}, ProperFields fields →
      nestingFields fields ≤ levels → dumpFields rt depth fields = .ok texts →
      (∀ t ∈ texts, Starts t) ∧
        List.Forall₂ (Reads (scanField (scanOnce rt levels)) Delimited) texts fields := by
  intro fields texts hproper hlevels htexts
  match fields with
  | [] =>
      obtain rfl := Except.ok.inj htexts
      exact ⟨fun t ht => absurd ht List.not_mem_nil, .nil⟩
  | (key, value) :: rest =>
      rw [dumpFields, bind_eq_ok_iff] at htexts
      obtain ⟨text, htext, htexts⟩ := htexts
      rw [bind_eq_ok_iff] at htexts
      obtain ⟨others, hothers, heq⟩ := htexts
      obtain rfl := Except.ok.inj heq
      obtain ⟨hvalue, hrest⟩ := max_le_iff.mp hlevels
      obtain ⟨hstarts, hreads⟩ := reads_dumpAt hrt depth levels value hproper.1 hvalue htext
      obtain ⟨hstarts', hreads'⟩ := reads_dumpFields hrt depth levels rest hproper.2 hrest hothers
      refine ⟨List.forall_mem_cons.mpr ⟨?_, hstarts'⟩, .cons (reads_field key hstarts hreads) hreads'⟩
      exact starts_of_head (by decide) (by decide) (by decide)

end

mutual

/-- What `json.dumps` can write: short integers, and lists and dicts in as
many levels as there are. -/
theorem dumpAt_succeeds_iff (depth : ℕ) : ∀ value : Json,
    Succeeds (dumpAt rt depth value) ↔ nesting value ≤ depth ∧ ∀ n ∈ value.ints, ShortInt n := by
  intro value
  match value, depth with
  | .null, _ => simp [dumpAt, nesting, Json.ints]
  | .bool b, _ => simp [dumpAt, nesting, Json.ints]
  | .int n, _ => simp [dumpAt, nesting, Json.ints, succeeds_map_iff, strInt_succeeds_iff]
  | .float x, _ => simp [dumpAt, nesting, Json.ints]
  | .str s, _ => simp [dumpAt, nesting, Json.ints]
  | .arr items, 0 => simp [dumpAt, nesting]
  | .obj fields, 0 => simp [dumpAt, nesting]
  | .arr items, depth + 1 =>
      simp only [dumpAt, nesting, Json.ints, Nat.add_le_add_iff_right, succeeds_map_iff]
      exact dumpItems_succeeds_iff depth items
  | .obj fields, depth + 1 =>
      simp only [dumpAt, nesting, Json.ints, Nat.add_le_add_iff_right, succeeds_map_iff]
      exact dumpFields_succeeds_iff depth fields

theorem dumpItems_succeeds_iff (depth : ℕ) : ∀ items : List Json,
    Succeeds (dumpItems rt depth items) ↔
      nestingItems items ≤ depth ∧ ∀ n ∈ Json.intsItems items, ShortInt n := by
  intro items
  match items with
  | [] => simp [dumpItems, nestingItems, Json.intsItems]
  | value :: rest =>
      simp only [dumpItems, nestingItems, Json.intsItems, List.forall_mem_append, max_le_iff]
      rw [succeeds_bind_iff (fun _ _ => succeeds_bind_pure_iff), dumpAt_succeeds_iff depth value,
        dumpItems_succeeds_iff depth rest]
      tauto

theorem dumpFields_succeeds_iff (depth : ℕ) : ∀ fields : List (String × Json),
    Succeeds (dumpFields rt depth fields) ↔
      nestingFields fields ≤ depth ∧ ∀ n ∈ Json.intsFields fields, ShortInt n := by
  intro fields
  match fields with
  | [] => simp [dumpFields, nestingFields, Json.intsFields]
  | (key, value) :: rest =>
      simp only [dumpFields, nestingFields, Json.intsFields, List.forall_mem_append, max_le_iff]
      rw [succeeds_bind_iff (fun _ _ => succeeds_bind_pure_iff), dumpAt_succeeds_iff depth value,
        dumpFields_succeeds_iff depth rest]
      tauto

end

/-- A value that has a text is what that text is read as. -/
theorem loads_dumps (hrt : FloatsReadBack rt) {value : Json} (hproper : Proper value)
    (hlevels : nesting value ≤ rt.decodeDepth) {text : String} (h : dumps rt value = .ok text) :
    loads rt text = .ok value := by
  rw [dumps, map_eq_ok_iff] at h
  obtain ⟨cs, hcs, rfl⟩ := h
  obtain ⟨hstarts, hreads⟩ := reads_dumpAt hrt rt.encodeDepth rt.decodeDepth value hproper hlevels hcs
  have hskip : skip cs = cs := by simpa using hstarts.skip []
  have hvalue := hreads [] delimited_nil
  rw [List.append_nil] at hvalue
  unfold loads
  rw [String.toList_ofList, hskip, hvalue]
  rfl

end WebhookRelay.Wire
