import Mathlib.Data.List.TakeWhile
import WebhookRelay.Wire.RoundTrip

/-!
# What is accepted

Every value `json.loads` comes to can be held, stored and written again:
`Held` says what the reader promises of a value, whatever the text. The second
part shows that the reader comes to an end by itself: no bound on the items of
a list cuts it short.
-/

namespace WebhookRelay.Wire

open Foundation Fallible Transform

variable {rt : JsonRuntime}

/-! ## Values -/

/-- A value within so many levels of lists and dicts, with short integers. -/
def Held (levels : ℕ) (value : Json) : Prop :=
  Proper value ∧ nesting value ≤ levels ∧ ∀ n ∈ value.ints, ShortInt n

instance (n : ℤ) : Decidable (ShortInt n) := inferInstanceAs (Decidable (_ < _))

instance (levels : ℕ) (value : Json) : Decidable (Held levels value) :=
  inferInstanceAs (Decidable (_ ∧ _ ∧ _))

theorem held_arr {levels : ℕ} {items : List Json} (h : ∀ v ∈ items, Held levels v) :
    Held (levels + 1) (.arr items) := by
  have hitems : ProperItems items ∧ nestingItems items ≤ levels ∧
      ∀ n ∈ Json.intsItems items, ShortInt n := by
    induction items with
    | nil => exact ⟨trivial, Nat.zero_le _, fun n hn => absurd hn List.not_mem_nil⟩
    | cons value rest ih =>
        obtain ⟨⟨hproper, hnesting, hints⟩, hrest⟩ := List.forall_mem_cons.mp h
        obtain ⟨hproper', hnesting', hints'⟩ := ih hrest
        exact ⟨⟨hproper, hproper'⟩, max_le hnesting hnesting',
          List.forall_mem_append.mpr ⟨hints, hints'⟩⟩
  exact ⟨hitems.1, Nat.succ_le_succ hitems.2.1, hitems.2.2⟩

theorem held_obj {levels : ℕ} {fields : List (String × Json)}
    (hkeys : (fields.map Prod.fst).Nodup) (h : ∀ f ∈ fields, Held levels f.2) :
    Held (levels + 1) (.obj fields) := by
  have hfields : ProperFields fields ∧ nestingFields fields ≤ levels ∧
      ∀ n ∈ Json.intsFields fields, ShortInt n := by
    clear hkeys
    induction fields with
    | nil => exact ⟨trivial, Nat.zero_le _, fun n hn => absurd hn List.not_mem_nil⟩
    | cons field rest ih =>
        obtain ⟨⟨hproper, hnesting, hints⟩, hrest⟩ := List.forall_mem_cons.mp h
        obtain ⟨hproper', hnesting', hints'⟩ := ih hrest
        exact ⟨⟨hproper, hproper'⟩, max_le hnesting hnesting',
          List.forall_mem_append.mpr ⟨hints, hints'⟩⟩
  exact ⟨⟨hkeys, hfields.1⟩, Nat.succ_le_succ hfields.2.1, hfields.2.2⟩

/-- One more field keeps the keys apart and the values as they should be. -/
theorem assign_keeps {P : Json → Prop} {fields : List (String × Json)} {field : String × Json}
    (hkeys : (fields.map Prod.fst).Nodup) (hfields : ∀ f ∈ fields, P f.2) (hfield : P field.2) :
    ((assign fields field).map Prod.fst).Nodup ∧ ∀ f ∈ assign fields field, P f.2 := by
  unfold assign
  split
  · constructor
    · have hsame : (fields.map (fun f => if f.1 = field.1 then field else f)).map Prod.fst =
          fields.map Prod.fst := by
        rw [List.map_map]
        apply List.map_congr_left
        intro f _
        dsimp only [Function.comp_apply]
        split
        · rename_i heq
          exact heq.symm
        · rfl
      rwa [hsame]
    · intro f hf
      obtain ⟨g, hg, rfl⟩ := List.mem_map.mp hf
      split
      · exact hfield
      · exact hfields g hg
  · rename_i hfresh
    constructor
    · rw [List.map_append, List.nodup_append]
      refine ⟨hkeys, List.nodup_singleton _, ?_⟩
      rintro key hkey _ hlast rfl
      exact hfresh (List.mem_singleton.mp hlast ▸ hkey)
    · intro f hf
      rcases List.mem_append.mp hf with hf | hf
      · exact hfields f hf
      · exact List.mem_singleton.mp hf ▸ hfield

theorem foldl_assign_keeps {P : Json → Prop} (before : List (String × Json))
    {fields : List (String × Json)}
    (hkeys : (before.map Prod.fst).Nodup) (hbefore : ∀ f ∈ before, P f.2)
    (hfields : ∀ f ∈ fields, P f.2) :
    ((fields.foldl assign before).map Prod.fst).Nodup ∧
      ∀ f ∈ fields.foldl assign before, P f.2 := by
  induction fields generalizing before with
  | nil => exact ⟨hkeys, hbefore⟩
  | cons field rest ih =>
      obtain ⟨hfield, hrest⟩ := List.forall_mem_cons.mp hfields
      obtain ⟨hkeys', hbefore'⟩ := assign_keeps hkeys hbefore hfield
      exact ih _ hkeys' hbefore' hrest

/-! ## Numbers -/

theorem isDigits_scanDigits {text digits rest : List Char}
    (h : scanDigits text = some (digits, rest)) : IsDigits digits := by
  unfold scanDigits at h
  split at h
  · obtain ⟨rfl, _⟩ := Prod.mk.inj (Option.some.inj h)
    exact ⟨by decide, List.forall_mem_singleton.mpr rfl, fun _ => rfl⟩
  · rename_i c others hzero
    split at h
    · rename_i hdigit
      obtain ⟨rfl, _⟩ := Prod.mk.inj (Option.some.inj h)
      rw [List.takeWhile_cons_of_pos hdigit]
      refine ⟨List.cons_ne_nil _ _, ?_, ?_⟩
      · intro d hd
        rcases List.mem_cons.mp hd with rfl | hd
        · exact hdigit
        · exact List.mem_takeWhile_imp hd
      · intro hhead
        obtain rfl := Option.some.inj hhead
        exact absurd rfl hzero
    · cases h
  · cases h

/-- So many digits. -/
theorem ofDigitChars_lt {digits : List Char} (h : ∀ c ∈ digits, c.isDigit = true) (init : ℕ) :
    Nat.ofDigitChars 10 digits init < (init + 1) * 10 ^ digits.length := by
  induction digits generalizing init with
  | nil => simp
  | cons c digits ih =>
      have hc : c.toNat - '0'.toNat < 10 := by
        have hdigit := h c List.mem_cons_self
        simp only [Char.isDigit, Bool.and_eq_true, decide_eq_true_eq] at hdigit
        have hle : c.toNat ≤ '9'.toNat := hdigit.2
        have : '9'.toNat = 57 := rfl
        have : '0'.toNat = 48 := rfl
        omega
      have hrest := ih (fun d hd => h d (List.mem_cons_of_mem _ hd)) (10 * init + (c.toNat - '0'.toNat))
      rw [Nat.ofDigitChars_cons]
      calc Nat.ofDigitChars 10 digits (10 * init + (c.toNat - '0'.toNat))
          < (10 * init + (c.toNat - '0'.toNat) + 1) * 10 ^ digits.length := hrest
        _ ≤ (10 * (init + 1)) * 10 ^ digits.length := Nat.mul_le_mul_right _ (by omega)
        _ = (init + 1) * 10 ^ (c :: digits).length := by
          rw [List.length_cons, pow_succ]
          ring

theorem held_readInt {negative : Bool} {digits : List Char} (hdigits : IsDigits digits)
    {value : Json} (h : readInt negative digits = .ok value) (levels : ℕ) : Held levels value := by
  unfold readInt at h
  split at h
  · cases h
  · rename_i hshort
    obtain rfl := Except.ok.inj h
    refine ⟨trivial, Nat.zero_le _, ?_⟩
    intro n hn
    obtain rfl := List.mem_singleton.mp hn
    have hlt := ofDigitChars_lt hdigits.2.1 0
    rw [Nat.zero_add, Nat.one_mul] at hlt
    have hle : 10 ^ digits.length ≤ 10 ^ maxStrDigits :=
      Nat.pow_le_pow_right (by norm_num) (Nat.not_lt.mp hshort)
    have habs : (if negative = true then -(Nat.ofDigitChars 10 digits 0 : ℤ)
        else (Nat.ofDigitChars 10 digits 0 : ℤ)).natAbs = Nat.ofDigitChars 10 digits 0 := by
      split
      · rw [Int.natAbs_neg, Int.natAbs_natCast]
      · exact Int.natAbs_natCast _
    unfold ShortInt
    rw [habs]
    exact Nat.lt_of_lt_of_le hlt hle

theorem yields_scanUnsigned (hrt : FloatsReadBack rt) (negative : Bool) (levels : ℕ) :
    Yields (scanUnsigned rt negative) (Held levels) := by
  intro text value rest h
  unfold scanUnsigned at h
  split at h
  · cases h
  · rename_i digits behind hscan
    have hdigits := isDigits_scanDigits hscan
    dsimp only at h
    split at h
    · obtain ⟨v, hint, heq⟩ := map_eq_ok_iff.mp h
      obtain ⟨rfl, _⟩ := Prod.mk.inj heq
      exact held_readInt hdigits hint levels
    · obtain ⟨rfl, _⟩ := Prod.mk.inj (Except.ok.inj h)
      refine ⟨?_, Nat.zero_le _, fun n hn => absurd hn List.not_mem_nil⟩
      have hnumber := hrt.number negative digits
        ((scanFraction behind).1 ++ (scanExponent (scanFraction behind).2).1) hdigits
      rw [← List.append_assoc] at hnumber
      rcases hnumber with hfinite | hinf | hneg
      · exact Or.inl hfinite
      · exact Or.inr (Or.inl hinf)
      · exact Or.inr (Or.inr (Or.inl hneg))

/-! ## The whole text -/

theorem yields_scanField {inner : Reader Char LoadError Json} {P : Json → Prop}
    (h : Yields inner P) : Yields (scanField inner) (fun f => P f.2) := by
  intro text field rest hfield
  unfold scanField at hfield
  split at hfield
  · rw [bind_eq_ok_iff] at hfield
    obtain ⟨⟨key, colon⟩, _, hfield⟩ := hfield
    dsimp only at hfield
    split at hfield
    · obtain ⟨⟨v, last⟩, hvalue, hend⟩ := bind_eq_ok_iff.mp hfield
      cases hend
      exact h _ _ _ hvalue
    · cases hfield
  · cases hfield

theorem yields_scanItems {β : Type} {close : Char} {item : Reader Char LoadError β}
    {P : β → Prop} (h : Yields item P) : Yields (scanItems close item) (fun bs => ∀ b ∈ bs, P b) := by
  intro text bs rest hbs
  unfold scanItems at hbs
  split at hbs
  · cases hbs
  · split at hbs
    · cases hbs
      exact fun b hb => absurd hb List.not_mem_nil
    · exact yields_readItems h _ _ _ _ hbs

/-- A scalar of the grammar. -/
theorem held_scalar (value : Json) (hproper : Proper value) (hnesting : nesting value = 0)
    (hints : value.ints = []) (levels : ℕ) : Held levels value :=
  ⟨hproper, hnesting ▸ Nat.zero_le _, fun _ hn => absurd (hints ▸ hn) List.not_mem_nil⟩

/-- A value is one level deeper than those inside it. -/
theorem yields_scanValue (hrt : FloatsReadBack rt) {inner : Option (Reader Char LoadError Json)}
    {levels : ℕ} (h : ∀ read, inner = some read →
      ∃ below, levels = below + 1 ∧ Yields read (Held below)) :
    Yields (scanValue rt inner) (Held levels) := by
  intro text value rest hvalue
  unfold scanValue at hvalue
  split at hvalue
  · obtain ⟨⟨cs, last⟩, _, hend⟩ := bind_eq_ok_iff.mp hvalue
    cases hend
    exact held_scalar (.str _) trivial rfl rfl levels
  · split at hvalue
    · cases hvalue
    · obtain ⟨below, rfl, hread⟩ := h _ rfl
      obtain ⟨⟨items, last⟩, hitems, hend⟩ := bind_eq_ok_iff.mp hvalue
      cases hend
      exact held_arr (yields_scanItems hread _ _ _ hitems)
  · split at hvalue
    · cases hvalue
    · obtain ⟨below, rfl, hread⟩ := h _ rfl
      obtain ⟨⟨fields, last⟩, hfields, hend⟩ := bind_eq_ok_iff.mp hvalue
      cases hend
      have hvalues := yields_scanItems (yields_scanField hread) _ _ _ hfields
      obtain ⟨hkeys, hkept⟩ := foldl_assign_keeps [] List.nodup_nil
        (fun f hf => absurd hf List.not_mem_nil) hvalues
      exact held_obj hkeys hkept
  · cases hvalue
    exact held_scalar .null trivial rfl rfl levels
  · cases hvalue
    exact held_scalar (.bool true) trivial rfl rfl levels
  · cases hvalue
    exact held_scalar (.bool false) trivial rfl rfl levels
  · cases hvalue
    exact held_scalar (.float nan) (Or.inr (Or.inr (Or.inr rfl))) rfl rfl levels
  · cases hvalue
    exact held_scalar (.float posInfinity) (Or.inr (Or.inl rfl)) rfl rfl levels
  · cases hvalue
    exact held_scalar (.float negInfinity) (Or.inr (Or.inr (Or.inl rfl))) rfl rfl levels
  · exact yields_scanUnsigned hrt true levels _ _ _ hvalue
  · exact yields_scanUnsigned hrt false levels _ _ _ hvalue

theorem yields_scanOnce (hrt : FloatsReadBack rt) (levels : ℕ) :
    Yields (scanOnce rt levels) (Held levels) := by
  induction levels with
  | zero => exact yields_scanValue hrt (fun read hread => nomatch hread)
  | succ levels ih =>
      refine yields_scanValue hrt (fun read hread => ⟨levels, rfl, ?_⟩)
      obtain rfl := Option.some.inj hread
      exact ih

theorem held_loads (hrt : FloatsReadBack rt) {text : String} {value : Json}
    (h : loads rt text = .ok value) : Held rt.decodeDepth value := by
  unfold loads at h
  obtain ⟨⟨v, rest⟩, hscan, hend⟩ := bind_eq_ok_iff.mp h
  dsimp only at hend
  split at hend
  · cases hend
    exact yields_scanOnce hrt rt.decodeDepth _ _ _ hscan
  · cases hend

/-! ## More levels -/

theorem readsMore_scanField {inner inner' : Reader Char LoadError Json} (h : ReadsMore inner' inner) :
    ReadsMore (scanField inner') (scanField inner) := by
  intro text r hr
  unfold scanField at hr ⊢
  split at hr
  · obtain ⟨⟨key, colon⟩, hkey, hr⟩ := bind_eq_ok_iff.mp hr
    simp only [hkey, ok_bind]
    dsimp only at hr
    split at hr
    · obtain ⟨v, hvalue, hend⟩ := bind_eq_ok_iff.mp hr
      rw [h _ _ hvalue]
      exact hend
    · cases hr
  · cases hr

theorem readsMore_scanItems {β : Type} {close : Char} {item item' : Reader Char LoadError β}
    (h : ReadsMore item' item) : ReadsMore (scanItems close item') (scanItems close item) := by
  intro text r hr
  unfold scanItems at hr ⊢
  split at hr
  · cases hr
  · split at hr
    · rename_i hclosed
      rw [if_pos hclosed]
      exact hr
    · rename_i hopen
      rw [if_neg hopen]
      exact readsMore_readItems h _ _ _ hr

theorem readsMore_scanValue {inner inner' : Option (Reader Char LoadError Json)}
    (h : ∀ read, inner = some read → ∃ read', inner' = some read' ∧ ReadsMore read' read) :
    ReadsMore (scanValue rt inner') (scanValue rt inner) := by
  intro text r hr
  unfold scanValue at hr ⊢
  split at hr
  · exact hr
  · split at hr
    · cases hr
    · obtain ⟨read', rfl, hread⟩ := h _ rfl
      obtain ⟨⟨items, last⟩, hitems, hend⟩ := bind_eq_ok_iff.mp hr
      simp only [readsMore_scanItems hread _ _ hitems, ok_bind]
      exact hend
  · split at hr
    · cases hr
    · obtain ⟨read', rfl, hread⟩ := h _ rfl
      obtain ⟨⟨fields, last⟩, hfields, hend⟩ := bind_eq_ok_iff.mp hr
      simp only [readsMore_scanItems (readsMore_scanField hread) _ _ hfields, ok_bind]
      exact hend
  all_goals exact hr

theorem readsMore_scanOnce {levels levels' : ℕ} (h : levels ≤ levels') :
    ReadsMore (scanOnce rt levels') (scanOnce rt levels) := by
  induction levels generalizing levels' with
  | zero =>
      obtain ⟨inner, hinner⟩ := exists_scanOnce_eq rt levels'
      rw [hinner]
      exact readsMore_scanValue (fun read hread => nomatch hread)
  | succ levels ih =>
      obtain ⟨levels', rfl⟩ := Nat.exists_eq_add_one.mpr (Nat.zero_lt_of_lt h)
      refine readsMore_scanValue (fun read hread => ⟨scanOnce rt levels', rfl, ?_⟩)
      obtain rfl := Option.some.inj hread
      exact ih (Nat.le_of_succ_le_succ h)

/-- Reading what was written gives the value or fails: it fails just when the
value has too many levels. -/
theorem loads_dumps_iff (hrt : FloatsReadBack rt) {value : Json} (hproper : Proper value)
    {text : String} (h : dumps rt value = .ok text) (value' : Json) :
    loads rt text = .ok value' ↔ value' = value ∧ nesting value ≤ rt.decodeDepth := by
  constructor
  · intro hloads
    have hheld := held_loads hrt hloads
    rw [dumps, map_eq_ok_iff] at h
    obtain ⟨cs, hcs, rfl⟩ := h
    obtain ⟨⟨v, rest⟩, hscan, hend⟩ := bind_eq_ok_iff.mp hloads
    have hv : v = value' := by
      dsimp only at hend
      split at hend
      · exact Except.ok.inj hend
      · cases hend
    subst hv
    -- with levels for the value the reader comes to it, and to nothing else
    obtain ⟨hstarts, hreads⟩ := reads_dumpAt hrt rt.encodeDepth
      (max rt.decodeDepth (nesting value)) value hproper (le_max_right _ _) hcs
    have hskip : skip cs = cs := by simpa using hstarts.skip []
    have hvalue := hreads [] delimited_nil
    rw [String.toList_ofList, hskip] at hscan
    rw [List.append_nil, readsMore_scanOnce (le_max_left _ _) _ _ hscan] at hvalue
    obtain ⟨rfl, _⟩ := Prod.mk.inj (Except.ok.inj hvalue)
    exact ⟨rfl, hheld.2.1⟩
  · rintro ⟨rfl, hlevels⟩
    exact loads_dumps hrt hproper hlevels h

/-! ## The reader comes to an end -/

/-- A character in front of a text that loses characters. -/
theorem length_lt_of_consChar {c : Char} {text : List Char} {k : ℕ}
    (ih : ∀ cs rest, scanString text = .ok (cs, rest) → rest.length < text.length)
    (hk : text.length ≤ k) {cs rest : List Char}
    (h : consChar c (scanString text) = .ok (cs, rest)) : rest.length < k := by
  unfold consChar at h
  obtain ⟨⟨cs', rest'⟩, hscanned, heq⟩ := map_eq_ok_iff.mp h
  obtain ⟨_, rfl⟩ := Prod.mk.inj heq
  exact Nat.lt_of_lt_of_le (ih cs' rest' hscanned) hk

theorem consumes_scanString : Consumes scanString := by
  intro text
  fun_induction scanString text with
  | case2 rest =>
      intro cs rest' h
      obtain ⟨_, rfl⟩ := Prod.mk.inj (Except.ok.inj h)
      exact Nat.lt_succ_self _
  | case5 =>
      rename_i ih
      intro cs rest' h
      refine length_lt_of_consChar ih ?_ h
      simp only [List.length_cons]
      omega
  | case9 =>
      rename_i ih
      intro cs rest' h
      refine length_lt_of_consChar ih ?_ h
      simp only [List.length_cons]
      omega
  | case10 =>
      rename_i ih
      intro cs rest' h
      refine length_lt_of_consChar ih ?_ h
      simp only [List.length_cons]
      omega
  | case14 =>
      rename_i ih
      intro cs rest' h
      refine length_lt_of_consChar ih ?_ h
      simp only [List.length_cons]
      omega
  | _ =>
     intro cs rest' h
     cases h

theorem length_skip_le (text : List Char) : (skip text).length ≤ text.length :=
  (List.dropWhile_sublist _).length_le

theorem length_scanFraction_le (text : List Char) :
    (scanFraction text).2.length ≤ text.length := by
  unfold scanFraction
  split
  · rename_i rest
    split
    · exact Nat.le_refl _
    · exact Nat.le_succ_of_le (List.dropWhile_sublist _).length_le
  · exact Nat.le_refl _

theorem length_scanSign_le (text : List Char) : (scanSign text).2.length ≤ text.length := by
  unfold scanSign
  split
  · split
    · exact Nat.le_succ _
    · exact Nat.le_refl _
  · exact Nat.le_refl _

theorem length_scanExponent_le (text : List Char) :
    (scanExponent text).2.length ≤ text.length := by
  unfold scanExponent
  split
  · rename_i c rest
    have hsign := length_scanSign_le rest
    have hdigits := (List.dropWhile_sublist (l := (scanSign rest).2) Char.isDigit).length_le
    split
    · dsimp only
      split
      · exact Nat.le_refl _
      · simp only [List.length_cons]
        omega
    · exact Nat.le_refl _
  · exact Nat.le_refl _

theorem length_scanDigits_lt {text digits rest : List Char}
    (h : scanDigits text = some (digits, rest)) : rest.length < text.length := by
  unfold scanDigits at h
  split at h
  · obtain ⟨_, rfl⟩ := Prod.mk.inj (Option.some.inj h)
    exact Nat.lt_succ_self _
  · rename_i c others _
    split at h
    · rename_i hdigit
      obtain ⟨_, rfl⟩ := Prod.mk.inj (Option.some.inj h)
      rw [List.dropWhile_cons_of_pos hdigit]
      exact Nat.lt_succ_of_le (List.dropWhile_sublist _).length_le
    · cases h
  · cases h

theorem consumes_scanUnsigned (negative : Bool) :
    Consumes (scanUnsigned rt negative) := by
  intro text value rest h
  unfold scanUnsigned at h
  split at h
  · cases h
  · rename_i digits behind hdigits
    have hfirst := length_scanDigits_lt hdigits
    have hfraction := length_scanFraction_le behind
    have hexponent := length_scanExponent_le (scanFraction behind).2
    have hrest : rest = (scanExponent (scanFraction behind).2).2 := by
      dsimp only at h
      split at h
      · obtain ⟨_, _, heq⟩ := map_eq_ok_iff.mp h
        exact (Prod.mk.inj heq).2.symm
      · exact (Prod.mk.inj (Except.ok.inj h)).2.symm
    rw [hrest]
    omega

theorem length_more_le (close : Char) (text : List Char) (another : Bool) (rest : List Char)
    (h : more close text = .ok (another, rest)) : rest.length ≤ text.length := by
  have hskip := length_skip_le text
  unfold more at h
  split at h
  · rename_i c behind hbehind
    rw [hbehind, List.length_cons] at hskip
    split at h
    · obtain ⟨_, rfl⟩ := Prod.mk.inj (Except.ok.inj h)
      omega
    split at h
    · obtain ⟨_, rfl⟩ := Prod.mk.inj (Except.ok.inj h)
      have hbehind := length_skip_le behind
      omega
    · cases h
  · cases h

theorem consumes_scanField {inner : Reader Char LoadError Json} (h : Consumes inner) :
    Consumes (scanField inner) := by
  intro text field rest hfield
  unfold scanField at hfield
  split at hfield
  · rename_i behind
    rw [bind_eq_ok_iff] at hfield
    obtain ⟨⟨key, colon⟩, hkey, hfield⟩ := hfield
    have hfirst := consumes_scanString behind key colon hkey
    have hcolon := length_skip_le colon
    dsimp only at hfield
    split at hfield
    · rename_i value heq
      obtain ⟨⟨v, last⟩, hvalue, hend⟩ := bind_eq_ok_iff.mp hfield
      have hlast := h _ _ _ hvalue
      have hvalue := length_skip_le value
      cases hend
      rw [heq, List.length_cons] at hcolon
      simp only [List.length_cons]
      omega
    · cases hfield
  · cases hfield

theorem length_scanItems_le {β : Type} {close : Char} {item : Reader Char LoadError β}
    (h : Consumes item) {text : List Char} {bs : List β} {rest : List Char}
    (hitems : scanItems close item text = .ok (bs, rest)) : rest.length < text.length := by
  have hskip := length_skip_le text
  unfold scanItems at hitems
  split at hitems
  · cases hitems
  · rename_i c behind heq
    rw [heq, List.length_cons] at hskip
    split at hitems
    · obtain ⟨_, rfl⟩ := Prod.mk.inj (Except.ok.inj hitems)
      omega
    · have hlast := consumes_readItems h (length_more_le close) _ _ _ _ hitems
      rw [List.length_cons] at hlast
      omega

theorem consumes_scanValue {inner : Option (Reader Char LoadError Json)}
    (h : ∀ read, inner = some read → Consumes read) : Consumes (scanValue rt inner) := by
  intro text value rest hvalue
  unfold scanValue at hvalue
  split at hvalue
  · rename_i behind
    obtain ⟨⟨cs, last⟩, hstring, hend⟩ := bind_eq_ok_iff.mp hvalue
    cases hend
    exact Nat.lt_succ_of_lt (consumes_scanString _ _ _ hstring)
  · split at hvalue
    · cases hvalue
    · obtain ⟨⟨items, last⟩, hitems, hend⟩ := bind_eq_ok_iff.mp hvalue
      cases hend
      exact Nat.lt_succ_of_lt (length_scanItems_le (h _ rfl) hitems)
  · split at hvalue
    · cases hvalue
    · obtain ⟨⟨fields, last⟩, hfields, hend⟩ := bind_eq_ok_iff.mp hvalue
      cases hend
      exact Nat.lt_succ_of_lt (length_scanItems_le (consumes_scanField (h _ rfl)) hfields)
  · cases hvalue
    simp only [List.length_cons]
    omega
  · cases hvalue
    simp only [List.length_cons]
    omega
  · cases hvalue
    simp only [List.length_cons]
    omega
  · cases hvalue
    simp only [List.length_cons]
    omega
  · cases hvalue
    simp only [List.length_cons]
    omega
  · cases hvalue
    simp only [List.length_cons]
    omega
  · exact Nat.lt_succ_of_lt (consumes_scanUnsigned true _ _ _ hvalue)
  · exact consumes_scanUnsigned false _ _ _ hvalue

theorem consumes_scanOnce (depth : ℕ) : Consumes (scanOnce rt depth) := by
  induction depth with
  | zero => exact consumes_scanValue (fun read hread => nomatch hread)
  | succ depth ih =>
      refine consumes_scanValue (fun read hread => ?_)
      obtain rfl := Option.some.inj hread
      exact ih

/-- The loop over the items never meets its bound: with more fuel it reads
the same. -/
theorem scanItems_fuel {β : Type} {close : Char} {item : Reader Char LoadError β}
    (h : Consumes item) {c : Char} {text rest : List Char} (hskip : skip text = c :: rest)
    (hopen : c ≠ close) {fuel : ℕ} (hfuel : text.length < fuel) :
    scanItems close item text = readItems item (more close) .decode fuel (c :: rest) := by
  have hlength := length_skip_le text
  rw [hskip] at hlength
  unfold scanItems
  rw [hskip]
  dsimp only
  rw [if_neg hopen]
  exact readItems_fuel h (length_more_le close) (Nat.lt_succ_self _)
    (Nat.lt_of_le_of_lt hlength hfuel)

end WebhookRelay.Wire
