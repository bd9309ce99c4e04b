import WebhookRelay.Transform.Validated

/-!
# What a template comes to

Two laws a template could be expected to obey: a placeholder with a dotted path
stands for the value at that path, and every string of the template has its
placeholders replaced. `_eval_expr` takes the spaces out of an expression
before it looks a key up, and `_apply_template` looks at the outermost values
only; each law is given with what it takes for the code to keep it.
-/

namespace WebhookRelay.Transform

open Foundation Foundation.Fallible

/-! ## Paths and keys -/

/-- The value at a path of keys through nested objects. -/
def valueAt : Json → List String → Option Json
  | value, [] => some value
  | .obj fields, key :: path => (Json.get? fields key).bind (fun value => valueAt value path)
  | _, _ :: _ => none

/-- As far as the path leads: an absent key is an empty text, and anything but
an object is the end. -/
def reachedAt : Json → List String → Json
  | value, [] => value
  | .obj fields, key :: path => reachedAt ((Json.get? fields key).getD (.str "")) path
  | value, _ :: _ => value

/-- A key that a dotted path can name. -/
structure PathKey (key : String) : Prop where
  nonempty : key ≠ ""
  plain : ∀ c ∈ key.toList, c ≠ '.' ∧ c ≠ '/' ∧ c ≠ '{' ∧ c ≠ '}' ∧ c ≠ '\n'
  trimmed : strip key.toList = key.toList

/-- The key without the spaces in it. -/
def squeezed (key : String) : String := String.ofList (key.toList.filter (· ≠ ' '))

/-- The text with one placeholder, the dotted path. -/
def placeholderText (before : String) (path : List String) (after : String) : String :=
  before ++ "\x7b\x7b" ++ ".".intercalate path ++ "\x7d\x7d" ++ after

section

variable {c sep : Char} {cs group before after : List Char}

theorem split_of_not_mem (h : sep ∉ cs) : split sep cs = [cs] := by
  induction cs with
  | nil => rfl
  | cons c cs ih =>
      rw [List.mem_cons, not_or] at h
      obtain ⟨hne, hrest⟩ := h
      rw [split, if_neg (Ne.symm hne), ih hrest]

theorem split_append (h : sep ∉ before) :
    split sep (before ++ sep :: cs) = before :: split sep cs := by
  induction before with
  | nil => simp [split]
  | cons c before ih =>
      rw [List.mem_cons, not_or] at h
      obtain ⟨hne, hrest⟩ := h
      rw [List.cons_append, split, if_neg (Ne.symm hne), ih hrest]

/-- The parts of a joined text are what was joined. -/
theorem split_intercalate {parts : List (List Char)} (hne : parts ≠ [])
    (h : ∀ part ∈ parts, sep ∉ part) : split sep ([sep].intercalate parts) = parts := by
  induction parts with
  | nil => exact absurd rfl hne
  | cons part rest ih =>
      cases rest with
      | nil => simpa using split_of_not_mem (h part List.mem_cons_self)
      | cons next rest =>
          rw [List.intercalate_cons_cons, List.append_assoc, List.singleton_append,
            split_append (h part List.mem_cons_self),
            ih (by simp) (fun p hp => h p (List.mem_cons_of_mem _ hp))]

theorem filter_intercalate {p : Char → Bool} (hsep : p sep = true) (parts : List (List Char)) :
    ([sep].intercalate parts).filter p = [sep].intercalate (parts.map (List.filter p)) := by
  induction parts with
  | nil => rfl
  | cons part rest ih =>
      cases rest with
      | nil => simp
      | cons next rest =>
          simp only [List.map_cons] at ih ⊢
          rw [List.intercalate_cons_cons, List.filter_append, List.filter_append, ih,
            List.intercalate_cons_cons, List.filter_cons_of_pos hsep, List.filter_nil]

theorem mem_intercalate {parts : List (List Char)} (h : c ∈ [sep].intercalate parts) :
    c = sep ∨ ∃ part ∈ parts, c ∈ part := by
  induction parts with
  | nil => cases h
  | cons part rest ih =>
      cases rest with
      | nil => exact Or.inr ⟨part, List.mem_cons_self, by simpa using h⟩
      | cons next rest =>
          rw [List.intercalate_cons_cons, List.append_assoc] at h
          rcases List.mem_append.mp h with hpart | h
          · exact Or.inr ⟨part, List.mem_cons_self, hpart⟩
          · rcases List.mem_cons.mp h with hsep | h
            · exact Or.inl hsep
            · rcases ih h with hsep | ⟨other, hother, hc⟩
              · exact Or.inl hsep
              · exact Or.inr ⟨other, List.mem_cons_of_mem _ hother, hc⟩

/-! ## Trimming -/

/-- No white space to remove on the left. -/
def TrimmedLeft (cs : List Char) : Prop := cs.dropWhile isWhitespace = cs

theorem trimmedLeft_append (hne : cs ≠ []) (h : TrimmedLeft cs) (rest : List Char) :
    TrimmedLeft (cs ++ rest) := by
  unfold TrimmedLeft at h ⊢
  rw [List.dropWhile_append, h, if_neg (by simpa using hne)]

theorem strip_eq_self_iff : strip cs = cs ↔ TrimmedLeft cs ∧ TrimmedLeft cs.reverse := by
  unfold strip TrimmedLeft
  constructor
  · intro h
    have hleft : cs.dropWhile isWhitespace = cs := by
      apply (List.dropWhile_suffix isWhitespace).eq_of_length_le
      calc cs.length
          = (((cs.dropWhile isWhitespace).reverse.dropWhile isWhitespace).reverse).length := by
            rw [h]
        _ ≤ (cs.dropWhile isWhitespace).length := by
            rw [List.length_reverse]
            apply le_trans (List.dropWhile_suffix isWhitespace).length_le
            rw [List.length_reverse]
    refine ⟨hleft, ?_⟩
    rw [hleft] at h
    rw [← List.reverse_inj, h, List.reverse_reverse]
  · rintro ⟨hleft, hright⟩
    rw [hleft, hright, List.reverse_reverse]

/-- A joined text is trimmed if its first and last parts are. -/
theorem trimmed_intercalate {parts : List (List Char)} (hne : parts ≠ [])
    (h : ∀ part ∈ parts, part ≠ [] ∧ strip part = part) :
    strip ([sep].intercalate parts) = [sep].intercalate parts := by
  suffices hall : [sep].intercalate parts ≠ [] ∧ TrimmedLeft ([sep].intercalate parts) ∧
      TrimmedLeft ([sep].intercalate parts).reverse from strip_eq_self_iff.mpr hall.2
  induction parts with
  | nil => exact absurd rfl hne
  | cons part rest ih =>
      obtain ⟨hpart, hstrip⟩ := h part List.mem_cons_self
      obtain ⟨hleft, hright⟩ := strip_eq_self_iff.mp hstrip
      cases rest with
      | nil => simpa using ⟨hpart, hleft, hright⟩
      | cons next rest =>
          obtain ⟨hrest, _, hlast⟩ :=
            ih (by simp) (fun p hp => h p (List.mem_cons_of_mem _ hp))
          rw [List.intercalate_cons_cons, List.append_assoc]
          refine ⟨by simp [hpart], trimmedLeft_append hpart hleft _, ?_⟩
          rw [List.reverse_append, List.reverse_append, List.append_assoc]
          exact trimmedLeft_append (by simpa using hrest) hlast _

/-! ## The placeholder -/

theorem closeGroup_append (hne : group ≠ []) (h : ∀ c ∈ group, c ≠ '}' ∧ c ≠ '\n') :
    closeGroup (group ++ '}' :: '}' :: after) = some (group, after) := by
  induction group with
  | nil => exact absurd rfl hne
  | cons c rest ih =>
      have hc := h c List.mem_cons_self
      cases rest with
      | nil => simp [closeGroup, hc.2]
      | cons next rest =>
          have hnext := h next (List.mem_cons_of_mem _ List.mem_cons_self)
          have hrest := ih (by simp) (fun d hd => h d (List.mem_cons_of_mem _ hd))
          rw [List.cons_append] at hrest ⊢
          rw [List.cons_append, closeGroup, if_neg hc.2, hrest]
          · rfl
          · rintro more heq
            rw [List.cons.injEq] at heq
            exact hnext.1 heq.1

variable {replace : List Char → Except Exc String}

theorem substitute_of_no_brace (h : ∀ c ∈ cs, c ≠ '{') (fuel : ℕ) :
    substitute replace fuel cs = .ok cs := by
  induction cs generalizing fuel with
  | nil => cases fuel <;> rfl
  | cons c cs ih =>
      obtain ⟨hc, hrest⟩ := List.forall_mem_cons.mp h
      cases fuel with
      | zero => rfl
      | succ fuel =>
          rw [substitute, if_neg (fun hopen => hc hopen.1)]
          show (substitute replace fuel cs >>= _) = _
          rw [ih hrest fuel]
          rfl

/-- Text before the first brace stays. -/
theorem substitute_append (h : ∀ c ∈ before, c ≠ '{') (fuel : ℕ) :
    substitute replace (before.length + fuel) (before ++ cs) =
      (substitute replace fuel cs).map (before ++ ·) := by
  induction before with
  | nil =>
      rw [List.length_nil, Nat.zero_add, List.nil_append]
      cases substitute replace fuel cs <;> rfl
  | cons c before ih =>
      obtain ⟨hc, hrest⟩ := List.forall_mem_cons.mp h
      rw [List.length_cons, Nat.add_right_comm, List.cons_append, substitute,
        if_neg (fun hopen => hc hopen.1)]
      show (substitute replace (before.length + fuel) (before ++ cs) >>= _) = _
      rw [ih hrest]
      cases substitute replace fuel cs <;> rfl

/-- One placeholder between texts without braces. -/
theorem substitute_placeholder (hbefore : ∀ c ∈ before, c ≠ '{') (hafter : ∀ c ∈ after, c ≠ '{')
    (hne : group ≠ []) (hgroup : ∀ c ∈ group, c ≠ '}' ∧ c ≠ '\n') (fuel : ℕ) :
    substitute replace (before.length + (fuel + 1))
        (before ++ '{' :: '{' :: (group ++ '}' :: '}' :: after)) =
      (replace group).map (fun value => before ++ (value.toList ++ after)) := by
  rw [substitute_append hbefore, substitute, if_pos ⟨rfl, rfl⟩, List.tail_cons,
    closeGroup_append hne hgroup]
  show Except.map _ (replace group >>= fun value => substitute replace fuel after >>= _) = _
  rw [substitute_of_no_brace hafter]
  cases replace group <;> rfl

end

/-! ## Rendering a template -/

section

variable {rt : Runtime} {payload : Json} {path : List String} {before after : String}

variable (rt payload) in
/-- A text with its placeholders replaced. -/
def renderText (text : String) : Except Exc String :=
  (substitute (fun group => evalExpr rt (strip group) payload) text.length text.toList).map
    String.ofList

theorem applyTemplate_cons_str {key text : String} {rest : List (String × Json)} :
    applyTemplate rt payload ((key, .str text) :: rest) =
      renderText rt payload text >>= fun text =>
        (applyTemplate rt payload rest).map ((key, .str text) :: ·) := by
  unfold renderText
  rw [applyTemplate]
  cases substitute (fun group => evalExpr rt (strip group) payload) text.length text.toList with
  | error exc => rfl
  | ok cs => cases applyTemplate rt payload rest <;> rfl

theorem applyTemplate_cons_of_ne {key : String} {value : Json} {rest : List (String × Json)}
    (h : ∀ text, value ≠ .str text) :
    applyTemplate rt payload ((key, value) :: rest) =
      (applyTemplate rt payload rest).map ((key, value) :: ·) := by
  cases value with
  | str text => exact absurd rfl (h text)
  | _ => cases hrest : applyTemplate rt payload rest <;> simp [applyTemplate, hrest] <;> rfl

theorem applyTemplate_append {first second : List (String × Json)} :
    applyTemplate rt payload (first ++ second) =
      applyTemplate rt payload first >>= fun a =>
        (applyTemplate rt payload second).map (a ++ ·) := by
  induction first with
  | nil => cases hsecond : applyTemplate rt payload second <;> simp [applyTemplate, hsecond] <;> rfl
  | cons item rest ih =>
      obtain ⟨key, value⟩ := item
      by_cases hstr : ∃ text, value = .str text
      · obtain ⟨text, rfl⟩ := hstr
        rw [List.cons_append, applyTemplate_cons_str, applyTemplate_cons_str, ih]
        cases renderText rt payload text with
        | error exc => rfl
        | ok text =>
            cases applyTemplate rt payload rest with
            | error exc => rfl
            | ok a => cases applyTemplate rt payload second <;> rfl
      · have hne : ∀ text, value ≠ .str text := fun text h => hstr ⟨text, h⟩
        rw [List.cons_append, applyTemplate_cons_of_ne hne, applyTemplate_cons_of_ne hne, ih]
        cases applyTemplate rt payload rest with
        | error exc => rfl
        | ok a => cases applyTemplate rt payload second <;> rfl

/-! ## What a dotted path stands for -/

theorem reachedAt_of_valueAt {leaf : Json} (h : valueAt payload path = some leaf) :
    reachedAt payload path = leaf := by
  induction path generalizing payload with
  | nil => exact Option.some.inj h
  | cons key path ih =>
      cases payload with
      | obj fields =>
          obtain ⟨value, hvalue, hrest⟩ := Option.bind_eq_some_iff.mp h
          rw [reachedAt, hvalue]
          exact ih hrest
      | _ => cases h

theorem traverse_eq (parts : List (List Char)) :
    Sum.elim id id (traverse payload parts) = reachedAt payload (parts.map String.ofList) := by
  induction parts generalizing payload with
  | nil => cases payload <;> rfl
  | cons part parts ih =>
      cases payload with
      | obj fields =>
          rw [traverse, List.map_cons, reachedAt]
          exact ih
      | _ => rfl

theorem squeezed_eq_self {key : String} (h : ' ' ∉ key.toList) : squeezed key = key := by
  unfold squeezed
  rw [List.filter_eq_self.mpr, String.ofList_toList]
  intro c hc
  have hne : c ≠ ' ' := by
    rintro rfl
    exact h hc
  simpa using hne

theorem toList_path : (".".intercalate path).toList = ['.'].intercalate (path.map String.toList) :=
  String.toList_intercalate

theorem strip_path (hne : path ≠ []) (hkeys : ∀ key ∈ path, PathKey key) :
    strip (".".intercalate path).toList = (".".intercalate path).toList := by
  rw [toList_path]
  apply trimmed_intercalate (by simpa using hne)
  intro part hpart
  obtain ⟨key, hkey, rfl⟩ := List.mem_map.mp hpart
  refine ⟨?_, (hkeys key hkey).trimmed⟩
  intro hnil
  exact (hkeys key hkey).nonempty (String.toList_inj.mp hnil)

/-- The characters of a path are dots and those of its keys. -/
theorem plain_path (hkeys : ∀ key ∈ path, PathKey key) :
    ∀ c ∈ (".".intercalate path).toList, c ≠ '/' ∧ c ≠ '{' ∧ c ≠ '}' ∧ c ≠ '\n' := by
  intro c hc
  rw [toList_path] at hc
  rcases mem_intercalate hc with rfl | ⟨part, hpart, hc⟩
  · decide
  · obtain ⟨key, hkey, rfl⟩ := List.mem_map.mp hpart
    exact ((hkeys key hkey).plain c hc).2

/-- The expression of a path is taken apart into the keys without their spaces. -/
theorem evalExpr_path (hne : path ≠ []) (hkeys : ∀ key ∈ path, PathKey key) :
    evalExpr rt (strip (".".intercalate path).toList) payload =
      rt.str (reachedAt payload (path.map squeezed)) := by
  have hslash : split '/' ((".".intercalate path).toList.filter (· ≠ ' ')) =
      [(".".intercalate path).toList.filter (· ≠ ' ')] := by
    apply split_of_not_mem
    intro hmem
    exact (plain_path hkeys _ (List.mem_filter.mp hmem).1).1 rfl
  have hdots : split '.' ((".".intercalate path).toList.filter (· ≠ ' ')) =
      (path.map String.toList).map (List.filter (· ≠ ' ')) := by
    rw [toList_path, filter_intercalate (by decide)]
    apply split_intercalate (by simpa using hne)
    intro part hpart hdot
    obtain ⟨key, hkey, rfl⟩ := List.mem_map.mp (List.map_map ▸ hpart)
    exact ((hkeys key hkey).plain '.' (List.mem_filter.mp hdot).1).1 rfl
  have hreached : Sum.elim id id (traverse payload
      ((path.map String.toList).map (List.filter (· ≠ ' ')))) =
        reachedAt payload (path.map squeezed) := by
    rw [traverse_eq, List.map_map, List.map_map]
    rfl
  unfold evalExpr
  rw [strip_path hne hkeys, hslash]
  dsimp only
  rw [hdots, ← hreached]
  cases traverse payload ((path.map String.toList).map (List.filter (· ≠ ' '))) <;> rfl

theorem toList_placeholderText : (placeholderText before path after).toList =
    before.toList ++
      '{' :: '{' :: ((".".intercalate path).toList ++ '}' :: '}' :: after.toList) := by
  simp [placeholderText]

theorem path_ne_nil (hne : path ≠ []) (hkeys : ∀ key ∈ path, PathKey key) :
    (".".intercalate path).toList ≠ [] := by
  cases path with
  | nil => exact absurd rfl hne
  | cons key rest =>
      have hkey : key.toList ≠ [] := by
        intro hnil
        exact (hkeys key List.mem_cons_self).nonempty (String.toList_inj.mp hnil)
      cases rest with
      | nil => simpa using hkey
      | cons next rest => simp [hkey]

/-- The text is rendered with the value that the squeezed path reaches. -/
theorem renderText_placeholder (hne : path ≠ []) (hkeys : ∀ key ∈ path, PathKey key)
    (hbefore : '{' ∉ before.toList) (hafter : '{' ∉ after.toList) :
    renderText rt payload (placeholderText before path after) =
      (rt.str (reachedAt payload (path.map squeezed))).map
        (fun value => before ++ value ++ after) := by
  have hgroup : (".".intercalate path).toList ≠ [] := path_ne_nil hne hkeys
  have hlength : (placeholderText before path after).length = before.toList.length +
      (((".".intercalate path).toList.length + after.toList.length + 3) + 1) := by
    rw [← String.length_toList, toList_placeholderText]
    simp only [List.length_append, List.length_cons]
    omega
  unfold renderText
  rw [hlength, toList_placeholderText, substitute_placeholder]
  · rw [evalExpr_path hne hkeys]
    cases rt.str (reachedAt payload (path.map squeezed)) with
    | error exc => rfl
    | ok value =>
        show Except.ok _ = Except.ok _
        congr 1
        apply String.toList_inj.mp
        simp
  · intro c hc hbrace
    exact hbefore (hbrace ▸ hc)
  · intro c hc hbrace
    exact hafter (hbrace ▸ hc)
  · exact hgroup
  · intro c hc
    exact (plain_path hkeys c hc).2.2

/-! ## Faithful look-up -/

variable (rt payload) in
/-- A string of a template is replaced by that text, wherever it stands. -/
def RendersAs (text : String) (value : Except Exc String) : Prop :=
  ∀ key first second, applyTemplate rt payload (first ++ (key, .str text) :: second) = do
    let a ← applyTemplate rt payload first
    let text ← value
    let b ← applyTemplate rt payload second
    return a ++ (key, .str text) :: b

theorem rendersAs_iff {text : String} {value : Except Exc String} :
    RendersAs rt payload text value ↔ renderText rt payload text = value := by
  constructor
  · intro h
    have hone := h "" [] []
    rw [List.nil_append, applyTemplate_cons_str] at hone
    cases hrender : renderText rt payload text with
    | error exc =>
        rw [hrender] at hone
        cases value with
        | error exc' => exact congrArg Except.error (Except.error.inj hone)
        | ok text' => cases hone
    | ok rendered =>
        rw [hrender] at hone
        cases value with
        | error exc' => cases hone
        | ok text' =>
            have hsame := Except.ok.inj hone
            simp only [List.nil_append, List.cons.injEq, Prod.mk.injEq, Json.str.injEq] at hsame
            rw [hsame.1.2]
  · rintro rfl key first second
    rw [applyTemplate_append, applyTemplate_cons_str]
    cases applyTemplate rt payload first with
    | error exc => rfl
    | ok a =>
        cases renderText rt payload text with
        | error exc => rfl
        | ok text => cases applyTemplate rt payload second <;> rfl

variable (rt payload path before after) in
/-- The placeholder comes out as the text of the value at its path. -/
def Faithful : Prop :=
  ∀ leaf, valueAt payload path = some leaf →
    RendersAs rt payload (placeholderText before path after)
      ((rt.str leaf).map (fun value => before ++ value ++ after))

variable (rt payload path) in
/-- The path without the spaces in its keys leads to a value with the same text. -/
def SameWithoutSpaces : Prop :=
  ∀ leaf, valueAt payload path = some leaf →
    rt.str (reachedAt payload (path.map squeezed)) = rt.str leaf

theorem map_surround_inj {first second : Except Exc String} :
    first.map (fun value => before ++ value ++ after) =
      second.map (fun value => before ++ value ++ after) ↔ first = second := by
  constructor
  · intro h
    cases first with
    | error exc =>
        cases second with
        | error exc' => exact congrArg Except.error (Except.error.inj h)
        | ok text => cases h
    | ok text =>
        cases second with
        | error exc => cases h
        | ok text' =>
            have hsame := Except.ok.inj h
            rw [String.append_left_inj, String.append_right_inj] at hsame
            rw [hsame]
  · rintro rfl
    rfl

/-- Between texts without braces, the placeholder of a path is faithful
exactly when the spaces in the keys do not matter. -/
theorem faithful_iff (hne : path ≠ []) (hkeys : ∀ key ∈ path, PathKey key)
    (hbefore : ∀ c ∈ before.toList, c ≠ '{' ∧ c ≠ '}')
    (hafter : ∀ c ∈ after.toList, c ≠ '{' ∧ c ≠ '}') :
    Faithful rt payload path before after ↔ SameWithoutSpaces rt payload path := by
  unfold Faithful SameWithoutSpaces
  apply forall_congr'
  intro leaf
  apply imp_congr_right
  intro _
  rw [rendersAs_iff, renderText_placeholder hne hkeys (fun h => (hbefore _ h).1 rfl)
    (fun h => (hafter _ h).1 rfl)]
  exact map_surround_inj

theorem sameWithoutSpaces_of_no_space (h : ∀ key ∈ path, ' ' ∉ key.toList) :
    SameWithoutSpaces rt payload path := by
  intro leaf hleaf
  have hsame : path.map squeezed = path := by
    rw [List.map_congr_left (fun key hkey => squeezed_eq_self (h key hkey)), List.map_id']
  rw [hsame, reachedAt_of_valueAt hleaf]

end

/-! ## A key of two words -/

/-- A runtime asked for nothing but texts. -/
def textRuntime : Runtime where
  search := fun _ data => .ok data
  reprFloat := fun _ => ""
  reprStr := fun s => s
  reprDepth := 1000
  float := fun _ => none
  divide := fun _ x => x

def person : Json := .obj [("first name", .str "Ann"), ("user", .obj [("email", .str "a@b.c")])]

/-- The placeholder of the key `first name` comes out empty. -/
theorem first_name_not_faithful :
    ¬ ∀ (rt : Runtime) (payload : Json) (path : List String) (before after : String),
      path ≠ [] → (∀ key ∈ path, PathKey key) → (∀ c ∈ before.toList, c ≠ '{' ∧ c ≠ '}') →
      (∀ c ∈ after.toList, c ≠ '{' ∧ c ≠ '}') → Faithful rt payload path before after := by
  intro h
  have hkey : PathKey "first name" := ⟨by simp, by simp, by decide +kernel⟩
  have hrenders := h textRuntime person ["first name"] "" "" (by simp)
    (fun key hmem => by rwa [List.mem_singleton.mp hmem]) (by simp) (by simp) (.str "Ann") rfl
  rw [rendersAs_iff] at hrenders
  have hempty : renderText textRuntime person (placeholderText "" ["first name"] "") = .ok "" := by
    decide +kernel
  rw [hempty] at hrenders
  have hsame : "" = "" ++ "Ann" ++ "" := Except.ok.inj hrenders
  revert hsame
  decide

/-- Keys of one word are looked up as they are. -/
theorem email_faithful :
    Faithful textRuntime person ["user", "email"] "to: " "" := by
  have hkeys : ∀ key ∈ ["user", "email"], PathKey key := by
    intro key hkey
    simp only [List.mem_cons, List.not_mem_nil, or_false] at hkey
    rcases hkey with rfl | rfl
    · exact ⟨by simp, by simp, by decide +kernel⟩
    · exact ⟨by simp, by simp, by decide +kernel⟩
  apply (faithful_iff (by simp) hkeys (by simp) (by simp)).mpr
  apply sameWithoutSpaces_of_no_space
  simp

/-! ## Every string of a template -/

section

variable (rt : Runtime) (payload : Json)

mutual

/-- The value with the placeholders of every string in it replaced. -/
def renderValue : Json → Except Exc Json
  | .str text => (renderText rt payload text).map .str
  | .arr items => (renderItems items).map .arr
  | .obj fields => (renderFields fields).map .obj
  | value => .ok value

def renderItems : List Json → Except Exc (List Json)
  | [] => .ok []
  | value :: rest =>
      renderValue value >>= fun value => (renderItems rest).map (value :: ·)

def renderFields : List (String × Json) → Except Exc (List (String × Json))
  | [] => .ok []
  | (key, value) :: rest =>
      renderValue value >>= fun value => (renderFields rest).map ((key, value) :: ·)

end

mutual

/-- The strings anywhere in a value, keys left out. -/
def stringsOf : Json → List String
  | .str text => [text]
  | .arr items => stringsOfItems items
  | .obj fields => stringsOfFields fields
  | _ => []

def stringsOfItems : List Json → List String
  | [] => []
  | value :: rest => stringsOf value ++ stringsOfItems rest

def stringsOfFields : List (String × Json) → List String
  | [] => []
  | (_, value) :: rest => stringsOf value ++ stringsOfFields rest

end

/-- The strings that stand inside a value of the template. -/
def nestedStrings (template : List (String × Json)) : List String :=
  template.flatMap (fun item => match item.2 with
    | .str _ => []
    | value => stringsOf value)

theorem nestedStrings_cons_str {key text : String} {rest : List (String × Json)} :
    nestedStrings ((key, .str text) :: rest) = nestedStrings rest := rfl

theorem nestedStrings_cons_of_ne {key : String} {value : Json} {rest : List (String × Json)}
    (h : ∀ text, value ≠ .str text) :
    nestedStrings ((key, value) :: rest) = stringsOf value ++ nestedStrings rest := by
  cases value with
  | str text => exact absurd rfl (h text)
  | _ => rfl

/-- The string comes out as it is; one without placeholders does. -/
def Inert (text : String) : Prop := renderText rt payload text = .ok text

/-- `_apply_template` returns, and returns the template with every string of
it rendered. -/
def SubstitutesAll (template : List (String × Json)) : Prop :=
  ∃ result, applyTemplate rt payload template = .ok result ∧
    renderFields rt payload template = .ok result

variable {rt payload}

mutual

/-- A value is left as it is exactly when each of its strings is. -/
theorem renderValue_eq_self_iff : ∀ value : Json,
    renderValue rt payload value = .ok value ↔ ∀ text ∈ stringsOf value, Inert rt payload text := by
  intro value
  cases value with
  | str text =>
      simp only [renderValue, stringsOf, List.mem_singleton, forall_eq, Inert]
      rw [map_eq_ok_iff]
      simp
  | arr items =>
      simp only [renderValue, stringsOf]
      rw [← renderItems_eq_self_iff items, map_eq_ok_iff]
      simp
  | obj fields =>
      simp only [renderValue, stringsOf]
      rw [← renderFields_eq_self_iff fields, map_eq_ok_iff]
      simp
  | null => simp [renderValue, stringsOf]
  | bool b => simp [renderValue, stringsOf]
  | int n => simp [renderValue, stringsOf]
  | float x => simp [renderValue, stringsOf]

theorem renderItems_eq_self_iff : ∀ items : List Json,
    renderItems rt payload items = .ok items ↔
      ∀ text ∈ stringsOfItems items, Inert rt payload text := by
  intro items
  match items with
  | [] => simp [renderItems, stringsOfItems]
  | value :: rest =>
      simp only [stringsOfItems, List.forall_mem_append]
      rw [← renderValue_eq_self_iff value, ← renderItems_eq_self_iff rest, renderItems,
        bind_map_eq_ok_iff]
      simp

theorem renderFields_eq_self_iff : ∀ fields : List (String × Json),
    renderFields rt payload fields = .ok fields ↔
      ∀ text ∈ stringsOfFields fields, Inert rt payload text := by
  intro fields
  match fields with
  | [] => simp [renderFields, stringsOfFields]
  | (key, value) :: rest =>
      simp only [stringsOfFields, List.forall_mem_append]
      rw [← renderValue_eq_self_iff value, ← renderFields_eq_self_iff rest, renderFields,
        bind_map_eq_ok_iff]
      simp

end

theorem renderText_succeeds_iff {text : String} :
    Succeeds (renderText rt payload text) ↔
      ∀ group ∈ placeholders text.length text.toList, Evaluates rt payload (strip group) := by
  simp only [← evalExpr_succeeds_iff]
  rw [← substitute_succeeds_iff]
  unfold renderText
  cases substitute (fun group => evalExpr rt (strip group) payload) text.length text.toList with
  | error exc => exact iff_of_false (not_succeeds_error _) (not_succeeds_error _)
  | ok cs => exact iff_of_true (succeeds_ok _) (succeeds_ok _)

theorem substitutesAll_cons_str {key text : String} {rest : List (String × Json)} :
    SubstitutesAll rt payload ((key, .str text) :: rest) ↔
      Succeeds (renderText rt payload text) ∧ SubstitutesAll rt payload rest := by
  unfold SubstitutesAll
  rw [applyTemplate_cons_str, renderFields, renderValue]
  constructor
  · rintro ⟨result, happly, hrender⟩
    obtain ⟨rendered, copied, htext, hcopied, rfl⟩ := bind_map_eq_ok_iff.mp happly
    obtain ⟨value', rest', _, hrest, heq⟩ := bind_map_eq_ok_iff.mp hrender
    rw [List.cons.injEq] at heq
    rw [heq.2] at hrest
    exact ⟨⟨rendered, htext⟩, copied, hcopied, hrest⟩
  · rintro ⟨⟨rendered, htext⟩, result, happly, hrender⟩
    exact ⟨(key, .str rendered) :: result,
      bind_map_eq_ok_iff.mpr ⟨rendered, result, htext, happly, rfl⟩,
      bind_map_eq_ok_iff.mpr ⟨.str rendered, result, map_eq_ok_iff.mpr ⟨rendered, htext, rfl⟩,
        hrender, rfl⟩⟩

/-- A value that is no string is copied, so it must be what rendering makes of it. -/
theorem substitutesAll_cons_of_ne {key : String} {value : Json} {rest : List (String × Json)}
    (h : ∀ text, value ≠ .str text) :
    SubstitutesAll rt payload ((key, value) :: rest) ↔
      renderValue rt payload value = .ok value ∧ SubstitutesAll rt payload rest := by
  unfold SubstitutesAll
  rw [applyTemplate_cons_of_ne h, renderFields]
  constructor
  · rintro ⟨result, happly, hrender⟩
    obtain ⟨copied, hcopied, rfl⟩ := map_eq_ok_iff.mp happly
    obtain ⟨value', rest', hvalue, hrest, heq⟩ := bind_map_eq_ok_iff.mp hrender
    simp only [List.cons.injEq, Prod.mk.injEq] at heq
    obtain ⟨⟨_, rfl⟩, rfl⟩ := heq
    exact ⟨hvalue, rest', hcopied, hrest⟩
  · rintro ⟨hvalue, result, happly, hrender⟩
    exact ⟨(key, value) :: result, map_eq_ok_iff.mpr ⟨result, happly, rfl⟩,
      bind_map_eq_ok_iff.mpr ⟨value, result, hvalue, hrender, rfl⟩⟩

variable (rt payload) in
/-- The engine renders every string of a template exactly when the
placeholders of its outermost strings evaluate and the strings further in
would come out as they are. -/
theorem substitutesAll_iff (template : List (String × Json)) :
    SubstitutesAll rt payload template ↔
      SafeTemplate rt payload template ∧
        ∀ text ∈ nestedStrings template, Inert rt payload text := by
  induction template with
  | nil =>
      have hsafe : SafeTemplate rt payload [] := by
        intro key text hmem
        cases hmem
      exact iff_of_true ⟨[], rfl, rfl⟩ ⟨hsafe, by simp [nestedStrings]⟩
  | cons item rest ih =>
      obtain ⟨key, value⟩ := item
      rw [safeTemplate_cons]
      by_cases hstr : ∃ text, value = .str text
      · obtain ⟨text, rfl⟩ := hstr
        rw [substitutesAll_cons_str, ih, renderText_succeeds_iff, nestedStrings_cons_str,
          and_assoc]
        simp only [Json.str.injEq, forall_eq']
      · have hne : ∀ text, value ≠ .str text := fun text h => hstr ⟨text, h⟩
        rw [substitutesAll_cons_of_ne hne, ih, renderValue_eq_self_iff,
          nestedStrings_cons_of_ne hne, List.forall_mem_append]
        constructor
        · rintro ⟨hvalue, hsafe, hnested⟩
          exact ⟨⟨fun text heq => absurd heq (hne text), hsafe⟩, hvalue, hnested⟩
        · rintro ⟨⟨_, hsafe⟩, hvalue, hnested⟩
          exact ⟨hvalue, hsafe, hnested⟩

end

/-- A template with the placeholder one level down. -/
def nestedTemplate : List (String × Json) :=
  [("user", .obj [("name", .str "\x7b\x7bname\x7d\x7d")])]

/-- It is accepted, and its placeholder goes out as it is. -/
theorem nested_placeholder_kept :
    ¬ ∀ (rt : Runtime) (compiles : String → Bool) (raw payload : Json)
      (template : List (String × Json)),
      Api.pipelineStep compiles raw =
        some (.obj [("type", .str "template"), ("body", .obj template)]) →
      SubstitutesAll rt payload template := by
  intro h
  have hall := h textRuntime (fun _ => true)
    (.obj [("type", .str "template"), ("body", .obj nestedTemplate)])
    (.obj [("name", .str "Ann")]) nestedTemplate rfl
  have hself := (substitutesAll_cons_of_ne (by simp)).mp hall
  have hinert := (renderValue_eq_self_iff _).mp hself.1 "\x7b\x7bname\x7d\x7d"
    (by simp [stringsOf, stringsOfFields])
  have hrendered : renderText textRuntime (.obj [("name", .str "Ann")])
      "\x7b\x7bname\x7d\x7d" = .ok "Ann" := by decide +kernel
  unfold Inert at hinert
  rw [hrendered] at hinert
  have hsame := Except.ok.inj hinert
  revert hsame
  decide

end WebhookRelay.Transform
