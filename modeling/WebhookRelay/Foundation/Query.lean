import Mathlib.Data.List.Sort
import Mathlib.Data.Prod.Lex
import Mathlib.Tactic
import WebhookRelay.Foundation.Rows

/-!
# Ordered queries

`ORDER BY` leaves the order of rows with equal keys to the database. A query
is run here with a rank into a linear order: the requested key first, then
whatever the database uses among equals. Quantifying over the second part of
the rank covers every answer the database may give.
-/

namespace WebhookRelay.Foundation

variable {α ω : Type} [LinearOrder ω]

def orderBy (rank : α → ω) (rows : List α) : List α :=
  rows.insertionSort (fun a b => rank a ≤ rank b)

/-- `LIMIT` and `OFFSET`. -/
def page (limit offset : ℕ) (rows : List α) : List α :=
  (rows.drop offset).take limit

/-- A rank that orders by `key` and leaves equal keys to `tie`, with a unique
identifier last so that the order is total. -/
def rankBy {κ ι : Type} (key : α → κ) (tie : ι → ℕ) (ident : α → ι) (a : α) : κ ×ₗ ℕ ×ₗ ι :=
  toLex (key a, toLex (tie (ident a), ident a))

theorem rankBy_injOn {κ ι : Type} {key : α → κ} {tie : ι → ℕ} {ident : α → ι}
    {a b : α} (h : rankBy key tie ident a = rankBy key tie ident b) : ident a = ident b := by
  simp only [rankBy, EmbeddingLike.apply_eq_iff_eq, Prod.mk.injEq] at h
  exact h.2.2

variable {rank : α → ω} {rows rows' : List α}

theorem orderBy_perm (rank : α → ω) (rows : List α) : (orderBy rank rows).Perm rows :=
  List.perm_insertionSort _ rows

@[simp] theorem mem_orderBy {a : α} : a ∈ orderBy rank rows ↔ a ∈ rows :=
  (orderBy_perm rank rows).mem_iff

@[simp] theorem length_orderBy : (orderBy rank rows).length = rows.length :=
  (orderBy_perm rank rows).length_eq

theorem orderBy_sorted (rank : α → ω) (rows : List α) :
    (orderBy rank rows).Pairwise (fun a b => rank a ≤ rank b) := by
  have total : Std.Total (fun a b : α => rank a ≤ rank b) := ⟨fun a b => le_total _ _⟩
  have trans : IsTrans α (fun a b : α => rank a ≤ rank b) := ⟨fun a b c => le_trans⟩
  exact List.pairwise_insertionSort _ rows

/-- Rows changed in nothing the query looks at. -/
theorem orderBy_map (f : α → α) (hrank : ∀ a, rank (f a) = rank a) (rows : List α) :
    orderBy rank (rows.map f) = (orderBy rank rows).map f := by
  unfold orderBy
  apply Eq.symm
  apply List.map_insertionSort
  intro a _ b _
  rw [hrank, hrank]

theorem orderBy_filter_map (f : α → α) {p : α → Bool} (hrank : ∀ a, rank (f a) = rank a)
    (hp : ∀ a, p (f a) = p a) (rows : List α) :
    orderBy rank ((rows.map f).filter p) = (orderBy rank (rows.filter p)).map f := by
  rw [← orderBy_map f hrank, List.filter_map]
  simp only [Function.comp_def, hp]

/-- The answer of an ordered query depends on the set of rows only. -/
theorem orderBy_eq_of_perm (inj : ∀ a ∈ rows, ∀ b ∈ rows, rank a = rank b → a = b)
    (h : rows.Perm rows') : orderBy rank rows = orderBy rank rows' := by
  refine List.Perm.eq_of_pairwise ?_ (orderBy_sorted rank rows) (orderBy_sorted rank rows')
    ((orderBy_perm rank rows).trans (h.trans (orderBy_perm rank rows').symm))
  intro a b ha hb hab hba
  have hb' : b ∈ rows := h.mem_iff.mpr (mem_orderBy.mp hb)
  exact inj a (mem_orderBy.mp ha) b hb' (le_antisymm hab hba)

/-- Queries on two keyed tables give the same answer if they select the same
rows. -/
theorem orderBy_filter_congr {κ ι : Type} [LinearOrder κ] [LinearOrder ι] {ident : α → ι}
    (key : α → κ) (tie : ι → ℕ) (nodup : (rows.map ident).Nodup) (nodup' : (rows'.map ident).Nodup)
    {p p' : α → Bool} (h : ∀ a, a ∈ rows ∧ p a = true ↔ a ∈ rows' ∧ p' a = true) :
    orderBy (rankBy key tie ident) (rows.filter p) =
      orderBy (rankBy key tie ident) (rows'.filter p') := by
  refine orderBy_eq_of_perm ?_ (Rows.filter_perm_of_mem_iff nodup nodup' h)
  intro a ha b hb heq
  exact Rows.eq_of_key_eq nodup (List.mem_of_mem_filter ha) (List.mem_of_mem_filter hb)
    (rankBy_injOn heq)

/-! ## Which rows a limit keeps -/

/-- In a sorted list, at most `i` rows are strictly below the row at `i`. -/
theorem countP_lt_getElem_le {sorted : List α}
    (hpair : sorted.Pairwise (fun a b => rank a ≤ rank b)) {i : ℕ} (hi : i < sorted.length) :
    sorted.countP (fun b => rank b < rank sorted[i]) ≤ i := by
  have hrest : (sorted.drop i).countP (fun b => rank b < rank sorted[i]) = 0 := by
    rw [List.countP_eq_zero]
    intro b hb
    have htail := hpair.drop (i := i)
    rw [List.drop_eq_getElem_cons hi, List.pairwise_cons] at htail
    rw [List.drop_eq_getElem_cons hi, List.mem_cons] at hb
    rcases hb with rfl | hb
    · simp
    · simpa using htail.1 b hb
  have hfirst := List.countP_le_length (p := fun b => rank b < rank sorted[i])
    (l := sorted.take i)
  rw [List.length_take] at hfirst
  calc sorted.countP (fun b => rank b < rank sorted[i])
      = (sorted.take i ++ sorted.drop i).countP (fun b => rank b < rank sorted[i]) := by
        rw [List.take_append_drop]
    _ ≤ i := by
        rw [List.countP_append, hrest]
        omega

/-- A row a limit of `n` keeps has fewer than `n` rows strictly before it. -/
theorem countP_lt_of_mem_take {n : ℕ} {a : α} (h : a ∈ (orderBy rank rows).take n) :
    rows.countP (fun b => rank b < rank a) < n := by
  obtain ⟨i, hi, rfl⟩ := List.mem_iff_getElem.mp h
  rw [List.length_take] at hi
  have hbound := countP_lt_getElem_le (orderBy_sorted rank rows) (i := i) (by omega)
  rw [(orderBy_perm rank rows).countP_eq] at hbound
  rw [List.getElem_take]
  omega

/-- A row with fewer than `n` rows strictly before it is kept by a limit of
`n`, if no other row shares its rank. -/
theorem mem_take_of_countP_lt {n : ℕ} {a : α} (ha : a ∈ rows)
    (alone : ∀ b ∈ rows, rank b = rank a → b = a)
    (h : rows.countP (fun b => rank b < rank a) < n) : a ∈ (orderBy rank rows).take n := by
  by_contra hnot
  have hmem : a ∈ (orderBy rank rows).take n ++ (orderBy rank rows).drop n := by
    rw [List.take_append_drop]
    exact mem_orderBy.mpr ha
  have hdrop : a ∈ (orderBy rank rows).drop n :=
    (List.mem_append.mp hmem).resolve_left hnot
  have hlen : ((orderBy rank rows).take n).length = n := by
    rw [List.length_take]
    have := List.length_pos_of_mem hdrop
    rw [List.length_drop] at this
    omega
  have hpair := orderBy_sorted rank rows
  rw [← List.take_append_drop n (orderBy rank rows), List.pairwise_append] at hpair
  have hall : ((orderBy rank rows).take n).countP (fun b => rank b < rank a)
      = ((orderBy rank rows).take n).length := by
    rw [List.countP_eq_length]
    intro b hb
    have hle := hpair.2.2 b hb a hdrop
    have hne : rank b ≠ rank a := by
      intro heq
      have hba := alone b (mem_orderBy.mp (List.mem_of_mem_take hb)) heq
      exact hnot (hba ▸ hb)
    simpa using lt_of_le_of_ne hle hne
  have hsplit : rows.countP (fun b => rank b < rank a)
      = ((orderBy rank rows).take n).countP (fun b => rank b < rank a)
        + ((orderBy rank rows).drop n).countP (fun b => rank b < rank a) := by
    rw [← List.countP_append, List.take_append_drop, (orderBy_perm rank rows).countP_eq]
  omega

/-- A row that a limit of `n` leaves out comes after `n` others. -/
theorem full_of_not_mem_take {n : ℕ} {a : α} (ha : a ∈ rows)
    (hnot : a ∉ (orderBy rank rows).take n) :
    ((orderBy rank rows).take n).length = n ∧ ∀ b ∈ (orderBy rank rows).take n, rank b ≤ rank a := by
  have hmem : a ∈ (orderBy rank rows).take n ++ (orderBy rank rows).drop n := by
    rw [List.take_append_drop]
    exact mem_orderBy.mpr ha
  have hdrop : a ∈ (orderBy rank rows).drop n := (List.mem_append.mp hmem).resolve_left hnot
  refine ⟨?_, ?_⟩
  · have hpos := List.length_pos_of_mem hdrop
    rw [List.length_drop] at hpos
    rw [List.length_take]
    omega
  · intro b hb
    have hpair := orderBy_sorted rank rows
    rw [← List.take_append_drop n (orderBy rank rows), List.pairwise_append] at hpair
    exact hpair.2.2 b hb a hdrop

end WebhookRelay.Foundation
