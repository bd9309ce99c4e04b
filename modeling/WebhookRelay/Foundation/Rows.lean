import Mathlib.Data.List.Nodup
import Mathlib.Data.List.Perm.Basic
import Mathlib.Tactic

/-!
# Keyed tables

A table is the list of its rows, and a primary key keeps their keys apart.
The order of the list has no meaning: two tables hold the same rows when one
is a permutation of the other, and `perm_of_mem_iff` is how clients get there.
-/

namespace WebhookRelay.Foundation.Rows

variable {α κ : Type} {key : α → κ}

section

variable [DecidableEq κ]

/-- `db.get`. -/
def get (key : α → κ) (rows : List α) (k : κ) : Option α :=
  rows.find? (fun a => key a = k)

/-- `UPDATE` of one row. -/
def put (key : α → κ) (a : α) (rows : List α) : List α :=
  rows.map (fun b => if key b = key a then a else b)

/-- `DELETE` of one row. -/
def remove (key : α → κ) (k : κ) (rows : List α) : List α :=
  rows.filter (fun a => key a ≠ k)

end

variable {rows rows' : List α} {a b : α} {k : κ}

/-- A primary key identifies its row. -/
theorem eq_of_key_eq (nodup : (rows.map key).Nodup) (ha : a ∈ rows) (hb : b ∈ rows)
    (h : key a = key b) : a = b :=
  List.inj_on_of_nodup_map nodup ha hb h

theorem nodup_of_map (nodup : (rows.map key).Nodup) : rows.Nodup :=
  List.Nodup.of_map key nodup

/-- A list without repetitions all of whose elements are one and the same. -/
theorem eq_singleton_of_nodup (nodup : rows.Nodup) (hmem : a ∈ rows) (hall : ∀ b ∈ rows, b = a) :
    rows = [a] := by
  refine List.perm_singleton.mp ((List.perm_ext_iff_of_nodup nodup (List.nodup_singleton a)).mpr ?_)
  intro b
  rw [List.mem_singleton]
  constructor
  · exact hall b
  · rintro rfl
    exact hmem

/-- An `INSERT` under a new key. -/
theorem nodup_snoc (nodup : (rows.map key).Nodup) (fresh : key a ∉ rows.map key) :
    ((rows ++ [a]).map key).Nodup := by
  rw [List.map_append, List.map_singleton]
  exact nodup.append (List.nodup_singleton _) (by simpa using fresh)

/-- Two tables with primary keys that have the same rows are permutations of
one another. -/
theorem perm_of_mem_iff (nodup : (rows.map key).Nodup) (nodup' : (rows'.map key).Nodup)
    (h : ∀ a, a ∈ rows ↔ a ∈ rows') : rows.Perm rows' :=
  (List.perm_ext_iff_of_nodup (nodup_of_map nodup) (nodup_of_map nodup')).mpr h

/-- Selections from two tables that agree on the selected rows. -/
theorem filter_perm_of_mem_iff {p : α → Bool} {p' : α → Bool} (nodup : (rows.map key).Nodup)
    (nodup' : (rows'.map key).Nodup)
    (h : ∀ a, a ∈ rows ∧ p a = true ↔ a ∈ rows' ∧ p' a = true) :
    (rows.filter p).Perm (rows'.filter p') := by
  refine perm_of_mem_iff (nodup.sublist (List.filter_sublist.map key))
    (nodup'.sublist (List.filter_sublist.map key)) ?_
  intro a
  rw [List.mem_filter, List.mem_filter]
  exact h a

/-! ## Reading and writing one row -/

variable [DecidableEq κ]

theorem get_eq_some_iff (nodup : (rows.map key).Nodup) :
    get key rows k = some a ↔ a ∈ rows ∧ key a = k := by
  constructor
  · intro h
    exact ⟨List.mem_of_find?_eq_some h, by simpa using List.find?_some h⟩
  · rintro ⟨ha, rfl⟩
    cases hget : get key rows (key a) with
    | none =>
        have hnone := List.find?_eq_none.mp hget a ha
        simp at hnone
    | some b =>
        have hkey : key b = key a := by simpa using List.find?_some hget
        rw [eq_of_key_eq nodup (List.mem_of_find?_eq_some hget) ha hkey]

/-- Two tables with the same keys in the same order and the same row under
each key are the same list. -/
theorem ext_get (hkeys : rows.map key = rows'.map key) (nodup : (rows.map key).Nodup)
    (hget : ∀ k, get key rows k = get key rows' k) : rows = rows' := by
  have nodup' : (rows'.map key).Nodup := hkeys ▸ nodup
  have hlength : rows.length = rows'.length := by simpa using congrArg List.length hkeys
  apply List.ext_getElem hlength
  intro i hi hi'
  have hsame : key rows[i] = key rows'[i] := by
    have hat := List.getElem_of_eq hkeys (by rwa [List.length_map])
    rwa [List.getElem_map, List.getElem_map] at hat
  have hrow : get key rows (key rows[i]) = some rows[i] :=
    (get_eq_some_iff nodup).mpr ⟨List.getElem_mem hi, rfl⟩
  rw [hget] at hrow
  exact eq_of_key_eq nodup' ((get_eq_some_iff nodup').mp hrow).1 (List.getElem_mem hi') hsame

theorem mem_remove_iff : a ∈ remove key k rows ↔ a ∈ rows ∧ key a ≠ k := by
  simp [remove]

/-- With its own key among the rows, the new row replaces exactly the old one. -/
theorem mem_put_iff (h : key a ∈ rows.map key) :
    b ∈ put key a rows ↔ b = a ∨ (b ∈ rows ∧ key b ≠ key a) := by
  unfold put
  constructor
  · intro hb
    obtain ⟨c, hc, hceq⟩ := List.mem_map.mp hb
    split at hceq
    · exact Or.inl hceq.symm
    · rename_i hne
      subst hceq
      exact Or.inr ⟨hc, hne⟩
  · rintro (rfl | ⟨hb, hne⟩)
    · obtain ⟨c, hc, hkey⟩ := List.mem_map.mp h
      exact List.mem_map.mpr ⟨c, hc, if_pos hkey⟩
    · exact List.mem_map.mpr ⟨b, hb, if_neg hne⟩

/-- An update never changes which keys there are. -/
theorem map_key_put : (put key a rows).map key = rows.map key := by
  unfold put
  rw [List.map_map]
  apply List.map_congr_left
  intro b _
  by_cases hkey : key b = key a
  · simp [hkey]
  · simp [hkey]

/-- An update of a row keeps the columns it agrees on with the row. -/
theorem map_put_of_eq {φ : Type} {facts : α → φ} {old : α} (nodup : (rows.map key).Nodup)
    (hold : old ∈ rows) (hkey : key old = key a) (hfacts : facts a = facts old) :
    (put key a rows).map facts = rows.map facts := by
  unfold put
  rw [List.map_map]
  apply List.map_congr_left
  intro b hb
  show facts (if key b = key a then a else b) = facts b
  split
  · rename_i hsame
    rw [hfacts, eq_of_key_eq nodup hold hb (hkey.trans hsame.symm)]
  · rfl

/-- A row after an update that may have met none. -/
theorem mem_put (hb : b ∈ put key a rows) :
    (b = a ∧ key a ∈ rows.map key) ∨ (b ∈ rows ∧ key b ≠ key a) := by
  obtain ⟨c, hc, hceq⟩ := List.mem_map.mp hb
  split at hceq
  · rename_i hkey
    exact Or.inl ⟨hceq.symm, hkey ▸ List.mem_map_of_mem hc⟩
  · rename_i hne
    subst hceq
    exact Or.inr ⟨hc, hne⟩

theorem mem_put_of_ne (hb : b ∈ rows) (hne : key b ≠ key a) : b ∈ put key a rows :=
  List.mem_map.mpr ⟨b, hb, if_neg hne⟩

omit [DecidableEq κ] in
/-- An update needs the old row to be there. -/
theorem key_mem_of_old {old : α} (hold : old ∈ rows) (h : key old = key a) :
    key a ∈ rows.map key :=
  h ▸ List.mem_map_of_mem hold

/-! ## What a write does to the selected rows

`P` selects rows. A write of a selected row shows among them, and a write of a
row that is not selected leaves them alone. -/

variable {P : α → Prop}

omit [DecidableEq κ] in
theorem mem_insert_and_iff (ha : P a) : (b ∈ rows ++ [a] ∧ P b) ↔ (b ∈ rows ∧ P b) ∨ b = a := by
  rw [List.mem_append, List.mem_singleton]
  constructor
  · rintro ⟨hb | rfl, hP⟩
    · exact Or.inl ⟨hb, hP⟩
    · exact Or.inr rfl
  · rintro (⟨hb, hP⟩ | rfl)
    · exact ⟨Or.inl hb, hP⟩
    · exact ⟨Or.inr rfl, ha⟩

omit [DecidableEq κ] in
theorem mem_insert_and_iff_of_not (ha : ¬ P a) : (b ∈ rows ++ [a] ∧ P b) ↔ b ∈ rows ∧ P b := by
  apply and_congr_left
  intro hP
  rw [List.mem_append, List.mem_singleton]
  constructor
  · rintro (hb | rfl)
    · exact hb
    · exact absurd hP ha
  · exact Or.inl

theorem mem_put_and_iff (h : key a ∈ rows.map key) (ha : P a) :
    (b ∈ put key a rows ∧ P b) ↔ b = a ∨ ((b ∈ rows ∧ P b) ∧ key b ≠ key a) := by
  rw [mem_put_iff h]
  constructor
  · rintro ⟨rfl | ⟨hb, hne⟩, hP⟩
    · exact Or.inl rfl
    · exact Or.inr ⟨⟨hb, hP⟩, hne⟩
  · rintro (rfl | ⟨⟨hb, hP⟩, hne⟩)
    · exact ⟨Or.inl rfl, ha⟩
    · exact ⟨Or.inr ⟨hb, hne⟩, hP⟩

theorem mem_put_and_iff_of_not (nodup : (rows.map key).Nodup) {old : α} (hold : old ∈ rows)
    (hkey : key old = key a) (hP : P old → P a) (ha : ¬ P a) :
    (b ∈ put key a rows ∧ P b) ↔ b ∈ rows ∧ P b := by
  rw [mem_put_iff (key_mem_of_old hold hkey)]
  apply and_congr_left
  intro hPb
  constructor
  · rintro (rfl | ⟨hb, _⟩)
    · exact absurd hPb ha
    · exact hb
  · intro hb
    refine Or.inr ⟨hb, ?_⟩
    intro hsame
    exact ha (hP (eq_of_key_eq nodup hb hold (hsame.trans hkey.symm) ▸ hPb))

theorem mem_remove_and_iff :
    (b ∈ remove key k rows ∧ P b) ↔ (b ∈ rows ∧ P b) ∧ key b ≠ k := by
  rw [mem_remove_iff, and_right_comm]

theorem mem_remove_and_iff_of_not (nodup : (rows.map key).Nodup) {old : α} (hold : old ∈ rows)
    (hkey : key old = k) (hPold : ¬ P old) : (b ∈ remove key k rows ∧ P b) ↔ b ∈ rows ∧ P b := by
  rw [mem_remove_and_iff, and_iff_left_iff_imp]
  rintro ⟨hb, hP⟩ hsame
  exact hPold (eq_of_key_eq nodup hb hold (hsame.trans hkey.symm) ▸ hP)

theorem mem_of_get (h : get key rows k = some a) : a ∈ rows ∧ key a = k := by
  refine ⟨List.mem_of_find?_eq_some h, ?_⟩
  have hfind : rows.find? (fun b => key b = k) = some a := h
  simpa using List.find?_some hfind

/-! ## Writes on other rows -/

theorem get_append_of_ne (hne : key a ≠ k) : get key (rows ++ [a]) k = get key rows k := by
  unfold get
  rw [List.find?_append]
  simp [hne]

theorem get_put_of_ne (hne : key a ≠ k) : get key (put key a rows) k = get key rows k := by
  induction rows with
  | nil => rfl
  | cons b rest ih =>
      have hcons : put key a (b :: rest) = (if key b = key a then a else b) :: put key a rest := rfl
      unfold get at ih ⊢
      rw [hcons, List.find?_cons, List.find?_cons, ih]
      by_cases hkey : key b = key a
      · simp [hkey, hne]
      · simp [hkey]

theorem get_remove_of_ne {k' : κ} (hne : k' ≠ k) :
    get key (remove key k' rows) k = get key rows k := by
  unfold get remove
  rw [List.find?_filter]
  congr 1
  funext b
  by_cases hkey : key b = k
  · simp [hkey, hne.symm]
  · simp [hkey]

theorem filter_put_of_not {p : α → Bool} (ha : p a = false)
    (hrows : ∀ b, key b = key a → p b = false) : (put key a rows).filter p = rows.filter p := by
  induction rows with
  | nil => rfl
  | cons b rest ih =>
      have hcons : put key a (b :: rest) = (if key b = key a then a else b) :: put key a rest := rfl
      rw [hcons, List.filter_cons, List.filter_cons, ih]
      by_cases hkey : key b = key a
      · simp [hkey, ha, hrows b hkey]
      · simp [hkey]

theorem filter_remove_of_not {p : α → Bool} (hrows : ∀ b, key b = k → p b = false) :
    (remove key k rows).filter p = rows.filter p := by
  unfold remove
  rw [List.filter_filter]
  apply List.filter_congr
  intro b _
  by_cases hkey : key b = k
  · simp [hkey, hrows b hkey]
  · simp [hkey]

/-! ## Rows changed without their keys -/

variable {f : α → α}

theorem get_map (hf : ∀ a, key (f a) = key a) (rows : List α) (k : κ) :
    get key (rows.map f) k = (get key rows k).map f := by
  unfold get
  rw [List.find?_map]
  simp only [Function.comp_def, hf]

theorem put_map (hf : ∀ a, key (f a) = key a) (a : α) (rows : List α) :
    put key (f a) (rows.map f) = (put key a rows).map f := by
  unfold put
  rw [List.map_map, List.map_map]
  apply List.map_congr_left
  intro b _
  simp only [Function.comp_apply, hf]
  split <;> rfl

theorem remove_map (hf : ∀ a, key (f a) = key a) (k : κ) (rows : List α) :
    remove key k (rows.map f) = (remove key k rows).map f := by
  unfold remove
  rw [List.filter_map]
  simp only [Function.comp_def, hf]

end WebhookRelay.Foundation.Rows
