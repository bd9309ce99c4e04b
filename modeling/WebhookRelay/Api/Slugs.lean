import WebhookRelay.Api.Ownership

/-!
# Whose slug it is

`register` and `create_workspace` put the caller's id into the text that
`_slugify` shortens, behind the name. The cut at 63 characters is what decides
whether the id is still there: `keptChars` is what a name leaves of itself, and
up to 25 of them the slug is shorter than the cut, so that it ends with the
whole id and nobody else can have it. From 26 on the slug fills the 63
characters, and it is also what another user gets for a name of that text.
-/

namespace WebhookRelay.Api

open Foundation

/-- The characters of `c.lower()` that are of use to a slug. Two letters that
are not ASCII have ASCII in lower case: the dotted I and the Kelvin sign. -/
def slugLetters (c : Char) : List Char :=
  if 'A' ≤ c ∧ c ≤ 'Z' then [c.toLower]
  else if c = '\u0130' then ['i']
  else if c = '\u212A' then ['k']
  else if isSlugChar c || c = ' ' then [c]
  else []

/-- `str.lower` goes by characters, as far as a slug can tell. -/
structure LowersText (rt : AccountRuntime) : Prop where
  kept : ∀ text, (rt.lower text).toList.filter (fun c => isSlugChar c || c = ' ') =
    text.toList.flatMap slugLetters

/-- `.replace(" ", "-")`. -/
def dash (c : Char) : Char := if c = ' ' then '-' else c

/-- What the slug has of a text before it is cut. -/
def keptChars (text : String) : List Char := (text.toList.flatMap slugLetters).map dash

/-- The slug of both handlers. -/
def workspaceSlug (rt : AccountRuntime) (name : String) (user : UUID) : String :=
  slugify rt (name ++ "-" ++ user.str)

/-- No name gives another user this slug. -/
def SlugIsOwn (rt : AccountRuntime) (user : UUID) (name : String) : Prop :=
  ∀ other n, other ≠ user → workspaceSlug rt n other ≠ workspaceSlug rt name user

/-! ## The characters of a slug -/

theorem slugLetters_of_isSlugChar {c : Char} (h : isSlugChar c = true) : slugLetters c = [c] := by
  have hupper : ¬ ('A' ≤ c ∧ c ≤ 'Z') := by
    rintro ⟨hA, hZ⟩
    simp only [isSlugChar, Bool.or_eq_true, Bool.and_eq_true, decide_eq_true_eq] at h
    rcases h with (⟨ha, -⟩ | ⟨-, h9⟩) | rfl
    · exact absurd (Char.le_trans ha hZ) (by decide)
    · exact absurd (Char.le_trans hA h9) (by decide)
    · exact absurd hA (by decide)
  have hdotted : c ≠ '\u0130' := by
    rintro rfl
    exact absurd h (by decide)
  have hkelvin : c ≠ '\u212A' := by
    rintro rfl
    exact absurd h (by decide)
  simp [slugLetters, hupper, hdotted, hkelvin, h]

theorem dash_of_isSlugChar {c : Char} (h : isSlugChar c = true) : dash c = c := by
  have hblank : c ≠ ' ' := by
    rintro rfl
    exact absurd h (by decide)
  simp [dash, hblank]

theorem isSlugChar_dash (c : Char) : isSlugChar (dash c) = (isSlugChar c || c = ' ') := by
  by_cases hblank : c = ' '
  · subst hblank
    decide
  · simp [dash, hblank]

theorem isSlugChar_of_isLowerHex {c : Char} (h : UUID.isLowerHex c = true) :
    isSlugChar c = true := by
  simp only [UUID.isLowerHex, Bool.or_eq_true, decide_eq_true_eq] at h
  simp only [isSlugChar, Bool.or_eq_true, Bool.and_eq_true, decide_eq_true_eq]
  rcases h with h | ⟨ha, hf⟩
  · exact Or.inl (Or.inr h)
  · exact Or.inl (Or.inl ⟨ha, Char.le_trans hf (by decide)⟩)

theorem isSlugChar_of_mem_str {user : UUID} {c : Char} (h : c ∈ user.str.toList) :
    isSlugChar c = true := by
  simp only [UUID.str, String.toList_ofList] at h
  rcases UUID.mem_dashed h with hdigit | rfl
  · exact isSlugChar_of_isLowerHex (UUID.mem_hexDigits hdigit)
  · decide

/-- A text of such characters is kept as it is. -/
theorem keptChars_eq_self {text : String} (h : ∀ c ∈ text.toList, isSlugChar c = true) :
    keptChars text = text.toList := by
  unfold keptChars
  revert h
  induction text.toList with
  | nil => exact fun _ => rfl
  | cons c rest ih =>
      intro h
      have hc := h c List.mem_cons_self
      rw [List.flatMap_cons, slugLetters_of_isSlugChar hc, List.map_append,
        ih (fun d hd => h d (List.mem_cons_of_mem _ hd))]
      simp [dash_of_isSlugChar hc]

theorem keptChars_append (a b : String) : keptChars (a ++ b) = keptChars a ++ keptChars b := by
  simp [keptChars]

section

variable {rt : AccountRuntime}

theorem keptChars_eq (hrt : LowersText rt) (text : String) :
    ((rt.lower text).toList.map dash).filter isSlugChar = keptChars text := by
  have hcomp : isSlugChar ∘ dash = fun c => isSlugChar c || c = ' ' := by
    funext c
    exact isSlugChar_dash c
  rw [List.filter_map, hcomp, hrt.kept, keptChars]

theorem isSlugChar_of_mem_keptChars (hrt : LowersText rt) {text : String} {c : Char}
    (h : c ∈ keptChars text) : isSlugChar c = true := by
  rw [← keptChars_eq hrt] at h
  exact (List.mem_filter.mp h).2

/-- Before the cut there are the name, a dash and the 36 characters of the id. -/
theorem toList_workspaceSlug (hrt : LowersText rt) (name : String) (user : UUID) :
    (workspaceSlug rt name user).toList =
      (keptChars name ++ '-' :: user.str.toList).take 63 := by
  have hkept : keptChars (name ++ "-" ++ user.str) =
      keptChars name ++ '-' :: user.str.toList := by
    have hdash : keptChars "-" = ['-'] := by decide
    rw [keptChars_append, keptChars_append, hdash,
      keptChars_eq_self (fun c hc => isSlugChar_of_mem_str hc), List.append_assoc]
    rfl
  have hslug : ((rt.lower (name ++ "-" ++ user.str)).toList.map
      (fun c => if c = ' ' then '-' else c)).filter isSlugChar =
        keptChars name ++ '-' :: user.str.toList :=
    (keptChars_eq hrt _).trans hkept
  unfold workspaceSlug slugify
  simp only [hslug]
  rw [if_neg (by simp), String.toList_ofList]

/-- An id is in its place as long as the cut does not reach it. -/
theorem id_eq_of_take_eq {a b : List Char} {u v : UUID} (hshort : a.length ≤ 25)
    (h : (b ++ '-' :: v.str.toList).take 63 = (a ++ '-' :: u.str.toList).take 63) : v = u := by
  have hu := u.length_str
  have hv := v.length_str
  have hwhole : (a ++ '-' :: u.str.toList).take 63 = a ++ '-' :: u.str.toList := by
    apply List.take_of_length_le
    simp only [List.length_append, List.length_cons, hu]
    omega
  rw [hwhole] at h
  have hlength := congrArg List.length h
  simp only [List.length_take, List.length_append, List.length_cons, hu, hv] at hlength
  have hother : (b ++ '-' :: v.str.toList).take 63 = b ++ '-' :: v.str.toList := by
    apply List.take_of_length_le
    simp only [List.length_append, List.length_cons, hv]
    omega
  rw [hother] at h
  have hids := List.append_inj_right' h (by simp only [List.length_cons, hu, hv])
  exact UUID.str_injective (String.toList_injective (List.cons.inj hids).2)

/-- The slug of a name of 26 characters or more, as a name. -/
theorem keptChars_workspaceSlug (hrt : LowersText rt) (name : String) (user : UUID) :
    keptChars (workspaceSlug rt name user) = (workspaceSlug rt name user).toList := by
  apply keptChars_eq_self
  intro c hc
  rw [toList_workspaceSlug hrt] at hc
  rcases List.mem_append.mp (List.mem_of_mem_take hc) with hname | hid
  · exact isSlugChar_of_mem_keptChars hrt hname
  · rcases List.mem_cons.mp hid with rfl | hid
    · decide
    · exact isSlugChar_of_mem_str hid

theorem length_workspaceSlug (hrt : LowersText rt) {name : String}
    (hlong : 26 ≤ (keptChars name).length) (user : UUID) :
    (workspaceSlug rt name user).toList.length = 63 := by
  rw [toList_workspaceSlug hrt, List.length_take]
  simp only [List.length_append, List.length_cons, user.length_str]
  omega

/-- Anybody who takes a slug of 63 characters for a name gets it for a slug. -/
theorem workspaceSlug_workspaceSlug (hrt : LowersText rt) {name : String}
    (hlong : 26 ≤ (keptChars name).length) (user other : UUID) :
    workspaceSlug rt (workspaceSlug rt name user) other = workspaceSlug rt name user := by
  apply String.toList_injective
  rw [toList_workspaceSlug hrt (workspaceSlug rt name user), keptChars_workspaceSlug hrt,
    List.take_append_of_le_length (length_workspaceSlug hrt hlong user).ge]
  exact List.take_of_length_le (length_workspaceSlug hrt hlong user).le

theorem exists_other (user : UUID) : ∃ other : UUID, other ≠ user := by
  by_cases h : user = 1
  · exact ⟨2, h ▸ by decide⟩
  · exact ⟨1, fun heq => h heq.symm⟩

theorem slugIsOwn_iff_length (hrt : LowersText rt) (user : UUID) (name : String) :
    SlugIsOwn rt user name ↔ (keptChars name).length ≤ 25 := by
  constructor
  · intro hown
    by_contra hlong
    obtain ⟨other, hother⟩ := exists_other user
    exact hown other (workspaceSlug rt name user) hother
      (workspaceSlug_workspaceSlug hrt (by omega) user other)
  · intro hshort other n hother hsame
    have hlists := congrArg String.toList hsame
    rw [toList_workspaceSlug hrt, toList_workspaceSlug hrt] at hlists
    exact hother (id_eq_of_take_eq hshort hlists)

/-! ## The slugs there are -/

/-- Every workspace has a slug of the user who created it. -/
def SlugsOfCreators (rt : AccountRuntime) (s : AccountState) : Prop :=
  ∀ ws ∈ s.db.workspaces, ∃ user name, (ws.id, user) ∈ s.created ∧
    ws.slug = workspaceSlug rt name user

/-- A write leaves no other workspaces than there were, or one more, of its
creator. -/
theorem mem_workspaces_apply {env : AccountEnv} {db : Database} {write : AccountWrite}
    {ws : Workspace} (h : ws ∈ (write.apply rt env db).workspaces) :
    ws ∈ db.workspaces ∨ ∃ user name, write.creator env = some user ∧
      ws.id = env.workspaceId ∧ ws.slug = workspaceSlug rt name user := by
  match write with
  | .register body =>
      rcases List.mem_append.mp h with hold | hnew
      · exact Or.inl hold
      · rw [List.mem_singleton.mp hnew]
        exact Or.inr ⟨env.userId, body.displayName, rfl, rfl, rfl⟩
  | .createWorkspace user name =>
      rcases List.mem_append.mp h with hold | hnew
      · exact Or.inl hold
      · rw [List.mem_singleton.mp hnew]
        exact Or.inr ⟨user, name, rfl, rfl, rfl⟩
  | .deleteWorkspace id => exact Or.inl (Rows.mem_remove_iff.mp h).1
  | .addMember _ | .updateMemberRole _ _ | .removeMember _ => exact Or.inl h

theorem slugsOfCreators_step {s t : AccountState} (h : SlugsOfCreators rt s) {a : AccountLabel}
    (hstep : accountNext rt s a = some t) : SlugsOfCreators rt t := by
  match a with
  | .ask i call =>
      obtain ⟨_, rfl⟩ := ask_cases hstep
      exact h
  | .authorize i =>
      obtain ⟨call, _, rfl⟩ := authorize_cases hstep
      exact h
  | .lookUp i =>
      obtain ⟨_, call, _, rfl⟩ := lookUp_cases hstep
      exact h
  | .checkExisting i =>
      obtain ⟨m, _, rfl⟩ := checkExisting_cases hstep
      exact h
  | .commit i env =>
      obtain ⟨write, _, _, ⟨exc, rfl⟩ | ⟨_, rfl⟩⟩ := commitWrite_cases hstep
      · exact h
      · intro ws hws
        rcases mem_workspaces_apply hws with hold | ⟨user, name, hcreator, hid, hslug⟩
        · obtain ⟨user, name, hmem, hslug⟩ := h ws hold
          exact ⟨user, name, List.mem_append_left _ hmem, hslug⟩
        · refine ⟨user, name, List.mem_append_right _ ?_, hslug⟩
          rw [hcreator, hid]
          exact List.mem_singleton_self _
  | .fail i failure =>
      obtain rfl := Option.some.inj hstep
      exact h
  | .elsewhere endpoints routes events =>
      obtain rfl := Option.some.inj hstep
      exact h

theorem slugsOfCreators_of_reachable {s : AccountState} (h : (accounts rt).Reachable s) :
    SlugsOfCreators rt s := by
  refine h.invariant ?_ ?_
  · rintro s ⟨hws, -⟩ ws hmem
    rw [hws] at hmem
    cases hmem
  · intro s a t hinv hstep
    exact slugsOfCreators_step hinv hstep

/-- Whatever was registered and created, a workspace with this slug is the
user's own. -/
def SlugStaysOwn (rt : AccountRuntime) (user : UUID) (name : String) : Prop :=
  ∀ s, (accounts rt).Reachable s → ∀ ws ∈ s.db.workspaces,
    ws.slug = workspaceSlug rt name user → (ws.id, user) ∈ s.created

/-- A name that fits its column is somebody's first workspace in some run. -/
theorem exists_workspace (hrt : LowersText rt) (user : UUID) {name : String}
    (hname : name.toList.length ≤ 255) :
    ∃ s, (accounts rt).Reachable s ∧ s.created = [(1, user)] ∧
      s.db.workspaces = [⟨1, name, workspaceSlug rt name user⟩] := by
  let start : AccountState :=
    { db := { users := [{ id := user, email := "", displayName := "", passwordHash := "" }] } }
  have hslug : (workspaceSlug rt name user).toList.length ≤ 255 := by
    rw [toList_workspaceSlug hrt]
    exact (List.length_take_le _ _).trans (by decide)
  let asked := start.moveTo 0 (.asked (.createWorkspace (.ok user) name))
  let ready := asked.moveTo 0 (.ready (.createWorkspace user name))
  let env : AccountEnv := { userId := user, workspaceId := 1 }
  have hready : (accounts rt).Reachable ready := by
    have hstart : (accounts rt).Reachable start := .start ⟨rfl, rfl, rfl, rfl⟩
    have hasked : (accounts rt).next start (.ask 0 (.createWorkspace (.ok user) name)) =
        some asked := rfl
    have hauthorized : (accounts rt).next asked (.authorize 0) = some ready := by
      simp only [accounts, accountNext, asked, AccountState.moveTo, Function.update_self]
      rfl
    exact (hstart.step hasked).step hauthorized
  have hcheck : (AccountWrite.createWorkspace user name).check rt env ready.db = .ok () := by
    have hfits : AccountWrite.checkWorkspace ready.db (newWorkspace rt env user name) = .ok () := by
      have hcolumns : (fitsVarchar 255 name && fitsVarchar 255 (workspaceSlug rt name user)) =
          true := by
        simp only [fitsVarchar, Bool.and_eq_true, decide_eq_true_eq, ← String.length_toList]
        exact ⟨hname, hslug⟩
      exact if_pos hcolumns
    have huser : user ∈ ready.db.users.map User.id := List.mem_singleton_self user
    simp only [AccountWrite.check, hfits]
    exact if_pos huser
  have hcommit : (accounts rt).next ready (.commit 0 env) =
      some { ready.moveTo 0 (.ended (.ok 201)) with
        db := (AccountWrite.createWorkspace user name).apply rt env ready.db
        created := [(1, user)] } := by
    simp only [accounts, accountNext, ready, AccountState.moveTo, Function.update_self]
    unfold commitWrite
    rw [if_neg (by simp [asked, start, AccountState.moveTo])]
    simp only [ready, AccountState.moveTo] at hcheck
    rw [hcheck]
    rfl
  exact ⟨_, hready.step hcommit, rfl, rfl⟩

theorem slugStaysOwn_iff_length (hrt : LowersText rt) (user : UUID) (name : String) :
    SlugStaysOwn rt user name ↔ (keptChars name).length ≤ 25 := by
  constructor
  · intro hown
    by_contra hlong
    have hlong' : 26 ≤ (keptChars name).length := by omega
    obtain ⟨other, hother⟩ := exists_other user
    have hfits : (workspaceSlug rt name user).toList.length ≤ 255 := by
      rw [length_workspaceSlug hrt hlong']
      decide
    obtain ⟨s, hs, hcreated, hworkspaces⟩ := exists_workspace hrt other hfits
    have hmem := hown s hs _ (hworkspaces ▸ List.mem_singleton_self _)
      (workspaceSlug_workspaceSlug hrt hlong' user other)
    rw [hcreated, List.mem_singleton] at hmem
    exact hother (congrArg Prod.snd hmem).symm
  · intro hshort s hs ws hws hslug
    obtain ⟨owner, n, hmem, hown⟩ := slugsOfCreators_of_reachable hs ws hws
    by_cases howner : owner = user
    · exact howner ▸ hmem
    · have hdiffer := (slugIsOwn_iff_length hrt user name).mpr hshort owner n howner
      exact absurd (hown.symm.trans hslug) hdiffer

/-- A slug is its user's own, among all that are computed and among all
workspaces there ever are, exactly when the name leaves no more than 25
characters of itself. -/
theorem slugIsOwn_iff (hrt : LowersText rt) (user : UUID) (name : String) :
    (SlugIsOwn rt user name ↔ (keptChars name).length ≤ 25) ∧
    (SlugStaysOwn rt user name ↔ (keptChars name).length ≤ 25) :=
  ⟨slugIsOwn_iff_length hrt user name, slugStaysOwn_iff_length hrt user name⟩

end

/-! ## Two users and one long name -/

/-- `c.lower()`, as far as the names here go. -/
def lowerChar (c : Char) : List Char :=
  if 'A' ≤ c ∧ c ≤ 'Z' then [c.toLower]
  else if c = '\u0130' then ['i', '\u0307']
  else if c = '\u212A' then ['k']
  else [c]

def lowerText : AccountRuntime := ⟨id, fun text => String.ofList (text.toList.flatMap lowerChar)⟩

theorem isSlugChar_toLower {c : Char} (h : 'A' ≤ c ∧ c ≤ 'Z') : isSlugChar c.toLower = true := by
  obtain ⟨hA, hZ⟩ := h
  have hlow : 65 ≤ c.toNat := hA
  have hhigh : c.toNat ≤ 90 := hZ
  rw [← Char.ofNat_toNat c]
  generalize c.toNat = n at hlow hhigh
  interval_cases n <;> decide

theorem lowersText_lowerText : LowersText lowerText := by
  refine ⟨fun text => ?_⟩
  simp only [lowerText, String.toList_ofList, List.filter_flatMap]
  congr 1
  funext c
  unfold lowerChar slugLetters
  split_ifs with hupper hdotted hkelvin hslug
  · simp [isSlugChar_toLower hupper]
  · decide
  · decide
  · simp [hslug]
  · simpa using hslug

/-- Two users whose names are the same 63 letters. -/
theorem same_slug :
    ¬ ∀ rt, LowersText rt → ∀ (u v : UUID) (m n : String), u ≠ v →
      workspaceSlug rt m u ≠ workspaceSlug rt n v := by
  intro h
  let name := String.ofList (List.replicate 63 'a')
  have hdiffer := h lowerText lowersText_lowerText 1 2 name name (by decide)
  apply hdiffer
  apply String.toList_injective
  rw [toList_workspaceSlug lowersText_lowerText, toList_workspaceSlug lowersText_lowerText]
  decide +kernel

theorem slugIsOwn_ann : SlugIsOwn lowerText 1 "Ann" ∧ SlugStaysOwn lowerText 1 "Ann" := by
  obtain ⟨hown, hstays⟩ := slugIsOwn_iff lowersText_lowerText 1 "Ann"
  have hlength : (keptChars "Ann").length ≤ 25 := by decide +kernel
  exact ⟨hown.mpr hlength, hstays.mpr hlength⟩

end WebhookRelay.Api
