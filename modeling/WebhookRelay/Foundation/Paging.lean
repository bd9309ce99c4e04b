import Mathlib.Data.List.Perm.Subperm
import WebhookRelay.Foundation.Query

/-!
# The first rows of an ordered query

What the first `n` rows can be when the database chooses the order of rows
with equal keys: which rows some choice puts among them, and when every choice
leaves at most one row of each group there.
-/

namespace WebhookRelay.Foundation

variable {α β κ ι ω : Type} [LinearOrder κ] [LinearOrder ι] [LinearOrder ω]

section Kept

variable {rank : α → ω} {rows : List α} {n : ℕ} {a b : α}

/-- A row before one that a limit keeps is kept. -/
theorem mem_take_of_lt (ha : a ∈ (orderBy rank rows).take n) (hb : b ∈ rows)
    (hlt : rank b < rank a) : b ∈ (orderBy rank rows).take n := by
  have hpair := orderBy_sorted rank rows
  rw [← List.take_append_drop n (orderBy rank rows), List.pairwise_append] at hpair
  have hmem : b ∈ (orderBy rank rows).take n ++ (orderBy rank rows).drop n := by
    rw [List.take_append_drop]
    exact mem_orderBy.mpr hb
  rcases List.mem_append.mp hmem with hkept | hdropped
  · exact hkept
  · exact absurd (hpair.2.2 a ha b hdropped) (not_le.mpr hlt)

theorem mem_take_of_mem_page {limit offset : ℕ} (h : a ∈ page limit offset rows) :
    a ∈ rows.take (offset + limit) := by
  unfold page at h
  rw [List.take_drop] at h
  exact List.mem_of_mem_drop h

/-- With offsets up to `last`, pages of `limit` rows show the first
`last + limit` rows. -/
theorem exists_mem_page_of_mem_take {limit last : ℕ} (hlimit : 0 < limit)
    (h : a ∈ rows.take (last + limit)) : ∃ offset ≤ last, a ∈ page limit offset rows := by
  obtain ⟨i, hi, rfl⟩ := List.mem_iff_getElem.mp h
  rw [List.length_take] at hi
  refine ⟨min i last, min_le_right i last, ?_⟩
  rw [List.getElem_take]
  refine List.mem_iff_getElem.mpr ⟨i - min i last, ?_, ?_⟩
  · rw [page, List.length_take, List.length_drop]
    omega
  · simp only [page, List.getElem_take, List.getElem_drop]
    congr 1
    omega

/-- A row that shares its rank with no other is on the page its place is on. -/
theorem mem_page_of_place {limit offset : ℕ} (ha : a ∈ rows)
    (alone : ∀ b ∈ rows, rank b = rank a → b = a)
    (hfrom : offset ≤ rows.countP (fun b => rank b < rank a))
    (hto : rows.countP (fun b => rank b < rank a) < offset + limit) :
    a ∈ page limit offset (orderBy rank rows) := by
  have hkept : a ∈ (orderBy rank rows).take (offset + limit) := mem_take_of_countP_lt ha alone hto
  have hnot : a ∉ (orderBy rank rows).take offset := by
    intro hmem
    exact absurd (countP_lt_of_mem_take hmem) (not_lt.mpr hfrom)
  rw [page, List.take_drop]
  rw [← List.take_append_drop offset ((orderBy rank rows).take (offset + limit))] at hkept
  rcases List.mem_append.mp hkept with hfirst | hrest
  · rw [List.take_take, min_eq_left (Nat.le_add_right offset limit)] at hfirst
    exact absurd hfirst hnot
  · exact hrest

/-- After a page that is not full there are no more rows. -/
theorem length_lt_of_page_lt {limit offset : ℕ} (h : (page limit offset rows).length < limit) :
    rows.length < offset + limit := by
  rw [page, List.length_take, List.length_drop] at h
  omega

/-- A place that only moves back is on one of the pages up to the last. -/
theorem exists_page_of_place {place : ℕ → ℕ} {limit last : ℕ}
    (hback : ∀ k < last, place k ≤ place (k + 1)) (hlast : place last < last * limit + limit) :
    ∃ k ≤ last, k * limit ≤ place k ∧ place k < k * limit + limit := by
  induction last with
  | zero => exact ⟨0, le_rfl, by omega, hlast⟩
  | succ last ih =>
      by_cases hreached : (last + 1) * limit ≤ place (last + 1)
      · exact ⟨last + 1, le_rfl, hreached, hlast⟩
      · have hstep := hback last (Nat.lt_succ_self last)
        rw [Nat.succ_mul] at hreached
        obtain ⟨k, hk, hplace⟩ := ih (fun k hk => hback k (by omega)) (by omega)
        exact ⟨k, by omega, hplace⟩

end Kept

section Ties

variable {key : α → κ} {tie : ι → ℕ} {ident : α → ι} {rows : List α} {n : ℕ} {a b : α}

theorem rankBy_lt_iff :
    rankBy key tie ident b < rankBy key tie ident a ↔
      key b < key a ∨ key b = key a ∧ (tie (ident b) < tie (ident a) ∨
        tie (ident b) = tie (ident a) ∧ ident b < ident a) := by
  simp only [rankBy, Prod.Lex.toLex_lt_toLex]

theorem rankBy_lt_of_key_lt (h : key b < key a) :
    rankBy key tie ident b < rankBy key tie ident a :=
  rankBy_lt_iff.mpr (Or.inl h)

theorem rankBy_lt_of_tie_lt (h : key b ≤ key a) (htie : tie (ident b) < tie (ident a)) :
    rankBy key tie ident b < rankBy key tie ident a := by
  rw [rankBy_lt_iff]
  rcases lt_or_eq_of_le h with hlt | heq
  · exact Or.inl hlt
  · exact Or.inr ⟨heq, Or.inl htie⟩

/-- The database may put a row among the first `n` if and only if fewer than
`n` rows have a smaller key. -/
theorem exists_tie_mem_take_iff (key : α → κ) (n : ℕ) (nodup : (rows.map ident).Nodup)
    (ha : a ∈ rows) :
    (∃ tie : ι → ℕ, a ∈ (orderBy (rankBy key tie ident) rows).take n) ↔
      rows.countP (fun b => key b < key a) < n := by
  constructor
  · rintro ⟨tie, hmem⟩
    have hfew := countP_lt_of_mem_take hmem
    refine lt_of_le_of_lt (List.countP_mono_left ?_) hfew
    intro b _ hlt
    rw [decide_eq_true_eq] at hlt ⊢
    exact rankBy_lt_of_key_lt hlt
  · intro hfew
    -- `a` comes first among the rows with its key
    refine ⟨fun i => if i = ident a then 0 else 1, mem_take_of_countP_lt ha ?_ ?_⟩
    · intro b hb heq
      exact Rows.eq_of_key_eq nodup hb ha (rankBy_injOn heq)
    · refine lt_of_le_of_lt (List.countP_mono_left ?_) hfew
      intro b _ hlt
      rw [decide_eq_true_eq, rankBy_lt_iff] at hlt
      rw [decide_eq_true_eq]
      rcases hlt with hkey | ⟨-, htie | ⟨htie, hident⟩⟩
      · exact hkey
      · simp at htie
      · by_cases hsame : ident b = ident a
        · exact absurd hident (hsame ▸ lt_irrefl _)
        · simp [hsame] at htie

/-- Among rows with other keys, the ties do not matter. -/
theorem countP_rankBy_of_alone (alone : ∀ b ∈ rows, key b = key a → b = a) :
    rows.countP (fun b => rankBy key tie ident b < rankBy key tie ident a) =
      rows.countP (fun b => key b < key a) := by
  apply List.countP_congr
  intro b hb
  rw [decide_eq_true_eq, decide_eq_true_eq, rankBy_lt_iff]
  constructor
  · rintro (hlt | ⟨hkey, hties⟩)
    · exact hlt
    · rw [alone b hb hkey] at hties
      simp at hties
  · exact Or.inl

end Ties

/-! ## One row of each group -/

section Groups

variable {key : β → κ} {owner : α → β} {tie : ι → ℕ} {ident : α → ι} {rows : List α}
  {groups : List β} {n : ℕ} {a b : α}

/-- The first `n` rows in the order of the keys of their groups. -/
def firstRows (key : β → κ) (owner : α → β) (tie : ι → ℕ) (ident : α → ι) (n : ℕ)
    (rows : List α) : List α :=
  (orderBy (rankBy (fun a => key (owner a)) tie ident) rows).take n

theorem mem_of_mem_firstRows (ha : a ∈ firstRows key owner tie ident n rows) : a ∈ rows :=
  mem_orderBy.mp (List.mem_of_mem_take ha)

theorem length_firstRows_le : (firstRows key owner tie ident n rows).length ≤ n :=
  List.length_take_le n _

theorem nodup_firstRows (nodup : rows.Nodup) : (firstRows key owner tie ident n rows).Nodup :=
  ((orderBy_perm _ rows).nodup_iff.mpr nodup).sublist (List.take_sublist n _)

theorem firstRows_sublist {m : ℕ} (h : m ≤ n) :
    (firstRows key owner tie ident m rows).Sublist (firstRows key owner tie ident n rows) :=
  (List.take_prefix_take_left h).sublist

theorem firstRows_perm (h : rows.length ≤ n) :
    (firstRows key owner tie ident n rows).Perm rows := by
  unfold firstRows
  rw [List.take_of_length_le (by rw [length_orderBy]; exact h)]
  exact orderBy_perm _ rows

/-- `n` groups of which all but the last one have one row: a second row of the
last group comes too late. -/
theorem nodup_owner_of_full (nodup : rows.Nodup) (groups_nodup : groups.Nodup)
    (hfull : groups.length = n) {g₀ : β} (hg₀ : g₀ ∈ groups)
    (hone : ∀ g ∈ groups, g ≠ g₀ → (∃! a, a ∈ rows ∧ owner a = g) ∧ key g < key g₀)
    (howner : ∀ a ∈ rows, owner a ∈ groups) :
    ((firstRows key owner tie ident n rows).map owner).Nodup := by
  classical
  refine (nodup_firstRows nodup).map_on ?_
  intro a ha b hb hsame
  by_contra hne
  have harows := mem_of_mem_firstRows ha
  have hbrows := mem_of_mem_firstRows hb
  have hlast : owner a = g₀ := by
    by_contra hother
    obtain ⟨c, -, hunique⟩ := (hone (owner a) (howner a harows) hother).1
    have hac := hunique a ⟨harows, rfl⟩
    have hbc := hunique b ⟨hbrows, hsame.symm⟩
    exact hne (hac.trans hbc.symm)
  let rest := rows.filter (fun c => owner c ≠ g₀)
  have hrest : n - 1 ≤ rest.length := by
    have hsub : groups.erase g₀ ⊆ rest.map owner := by
      intro g hg
      rw [groups_nodup.mem_erase_iff] at hg
      obtain ⟨c, ⟨hc, hcg⟩, -⟩ := (hone g hg.2 hg.1).1
      exact List.mem_map.mpr ⟨c, List.mem_filter.mpr ⟨hc, by simpa [hcg] using hg.1⟩, hcg⟩
    have hlen := ((groups_nodup.erase g₀).subperm hsub).length_le
    rwa [List.length_map, List.length_erase_of_mem hg₀, hfull] at hlen
  have hall : a :: b :: rest ⊆ firstRows key owner tie ident n rows := by
    intro c hc
    rcases List.mem_cons.mp hc with rfl | hc
    · exact ha
    rcases List.mem_cons.mp hc with rfl | hc
    · exact hb
    obtain ⟨hcrows, hcother⟩ := List.mem_filter.mp hc
    have hkey := (hone (owner c) (howner c hcrows) (by simpa using hcother)).2
    exact mem_take_of_lt ha hcrows (rankBy_lt_of_key_lt (hlast ▸ hkey))
  have hdistinct : (a :: b :: rest).Nodup := by
    have hout : ∀ c, owner c = g₀ → c ∉ rest := fun c hc hmem =>
      (by simpa using (List.mem_filter.mp hmem).2 : owner c ≠ g₀) hc
    refine List.nodup_cons.mpr ⟨?_, List.nodup_cons.mpr ⟨?_, nodup.filter _⟩⟩
    · rw [List.mem_cons, not_or]
      exact ⟨hne, hout a hlast⟩
    · exact hout b (hsame ▸ hlast)
  have hlen := (hdistinct.subperm hall).length_le
  have hbound : (firstRows key owner tie ident n rows).length ≤ n := length_firstRows_le
  have hpos : 0 < groups.length := List.length_pos_of_mem hg₀
  rw [List.length_cons, List.length_cons] at hlen
  omega

/-- A group with two rows comes after every group that still gets a row. -/
theorem key_lt_of_twice (nodup : (rows.map ident).Nodup)
    (hnodup : ∀ tie : ι → ℕ, ((firstRows key owner tie ident n rows).map owner).Nodup) {g : β}
    (hg : ∀ tie : ι → ℕ, ∃ c ∈ firstRows key owner tie ident n rows, owner c = g)
    (ha : a ∈ rows) (hb : b ∈ rows) (hne : a ≠ b) (hsame : owner a = owner b)
    (hother : g ≠ owner a) : key g < key (owner a) := by
  classical
  by_contra hle
  rw [not_lt] at hle
  -- the rows of `a`'s group first among those with its key
  let tie : ι → ℕ := fun i => if ∃ r ∈ rows, ident r = i ∧ owner r = owner a then 0 else 1
  have htie : ∀ r ∈ rows, owner r = owner a → tie (ident r) = 0 := by
    intro r hr hra
    exact if_pos ⟨r, hr, rfl, hra⟩
  obtain ⟨c, hc, hcg⟩ := hg tie
  have hcrows := mem_of_mem_firstRows hc
  have hctie : tie (ident c) = 1 := by
    apply if_neg
    rintro ⟨r, hr, hid, hra⟩
    have hrc := Rows.eq_of_key_eq nodup hr hcrows hid
    exact hother (hcg ▸ hrc ▸ hra)
  have hkept : ∀ r ∈ rows, owner r = owner a → r ∈ firstRows key owner tie ident n rows := by
    intro r hr hra
    apply mem_take_of_lt hc hr
    apply rankBy_lt_of_tie_lt
    · rw [hra, hcg]
      exact hle
    · rw [htie r hr hra, hctie]
      exact Nat.zero_lt_one
  exact hne (List.inj_on_of_nodup_map (hnodup tie) (hkept a ha rfl) (hkept b hb hsame.symm) hsame)

/-- Every choice of the database leaves at most one row of each group among
the first `n` in two cases: no group has two rows; or there are `n` groups,
and all but the last have exactly one. -/
theorem nodup_owner_firstRows_iff (key : β → κ) (nodup : (rows.map ident).Nodup)
    (groups_nodup : groups.Nodup) (howner : ∀ a ∈ rows, owner a ∈ groups)
    (hlen : groups.length ≤ n) :
    (∀ tie : ι → ℕ, ((firstRows key owner tie ident n rows).map owner).Nodup) ↔
      (rows.map owner).Nodup ∨
        groups.length = n ∧ ∃ g₀ ∈ groups, ∀ g ∈ groups, g ≠ g₀ →
          (∃! a, a ∈ rows ∧ owner a = g) ∧ key g < key g₀ := by
  have hrows : rows.Nodup := List.Nodup.of_map _ nodup
  constructor
  · intro hnodup
    by_cases hone : (rows.map owner).Nodup
    · exact Or.inl hone
    right
    rw [List.nodup_map_iff_inj_on hrows] at hone
    push Not at hone
    obtain ⟨a, ha, b, hb, hsame, hne⟩ := hone
    have hlong : n < rows.length := by
      by_contra hshort
      have hperm : (firstRows key owner (fun _ => 0) ident n rows).Perm rows :=
        firstRows_perm (not_lt.mp hshort)
      have hall := (hperm.map owner).nodup_iff.mp (hnodup _)
      exact hne (List.inj_on_of_nodup_map hall ha hb hsame)
    have hpage : ∀ tie : ι → ℕ, ((firstRows key owner tie ident n rows).map owner).length = n := by
      intro tie
      rw [List.length_map, firstRows, List.length_take, length_orderBy]
      omega
    have hsub : ∀ tie : ι → ℕ, ((firstRows key owner tie ident n rows).map owner) ⊆ groups := by
      intro tie g hg
      obtain ⟨c, hc, rfl⟩ := List.mem_map.mp hg
      exact howner c (mem_of_mem_firstRows hc)
    have hfull : groups.length = n := by
      have := ((hnodup (fun _ => 0)).subperm (hsub _)).length_le
      rw [hpage] at this
      omega
    have hkept : ∀ g ∈ groups, ∀ tie : ι → ℕ,
        ∃ c ∈ firstRows key owner tie ident n rows, owner c = g := by
      intro g hg tie
      have hperm := ((hnodup tie).subperm (hsub tie)).perm_of_length_le (by rw [hpage]; exact hlen)
      exact List.mem_map.mp (hperm.mem_iff.mpr hg)
    refine ⟨hfull, owner a, howner a ha, ?_⟩
    intro g hg hother
    have hlt := key_lt_of_twice nodup hnodup (hkept g hg) ha hb hne hsame hother
    refine ⟨?_, hlt⟩
    obtain ⟨c, hc, rfl⟩ := hkept g hg (fun _ => 0)
    refine ⟨c, ⟨mem_of_mem_firstRows hc, rfl⟩, ?_⟩
    rintro d ⟨hd, hdc⟩
    by_contra hdne
    have hgt := key_lt_of_twice nodup hnodup (hkept (owner a) (howner a ha)) hd
      (mem_of_mem_firstRows hc) hdne hdc (hdc ▸ hother.symm)
    exact lt_asymm hlt (hdc ▸ hgt)
  · rintro (hone | ⟨hfull, g₀, hg₀, hrest⟩) tie
    · have hperm := (orderBy_perm (rankBy (fun a => key (owner a)) tie ident) rows).map owner
      exact (hperm.nodup_iff.mpr hone).sublist ((List.take_sublist n _).map owner)
    · exact nodup_owner_of_full hrows groups_nodup hfull hg₀ hrest howner

end Groups

end WebhookRelay.Foundation
