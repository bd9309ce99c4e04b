import Mathlib.Algebra.BigOperators.Group.Finset.Basic
import Mathlib.Algebra.Order.BigOperators.Group.Finset
import WebhookRelay.Foundation.Machine

/-!
# Working off a backlog

Tasks that each have some tries left, and rounds that serve at least `k` of
them, or all if there are fewer. A served task loses a try; one with no try
left is done. `rounds` is a number of rounds that is enough: it drops with
every round that serves, and nothing else raises it. While there are `k`
tasks it is their total of tries that a round lowers by `k`; when there are
fewer, it is the longest of them that counts.
-/

namespace WebhookRelay.Foundation

namespace Backlog

variable {α : Type}

/-- The tasks that are not done. -/
def active (tasks : Finset α) (left : α → ℕ) : Finset α := tasks.filter (fun a => 0 < left a)

/-- A round: at least `k` tasks are served, or all that are left. -/
structure Round (k : ℕ) (tasks : Finset α) (left left' : α → ℕ) : Prop where
  le : ∀ a ∈ tasks, left' a ≤ left a
  served : ∃ batch ⊆ active tasks left, min k (active tasks left).card ≤ batch.card ∧
    ∀ a ∈ batch, left' a < left a

/-- Enough rounds of `k` for tasks with at most `tries` tries each. -/
def rounds (k tries : ℕ) (tasks : Finset α) (left : α → ℕ) : ℕ :=
  if (active tasks left).card < k then tasks.sup left
  else (∑ a ∈ tasks, left a - 1) / k + tries

variable {k tries : ℕ} {tasks : Finset α} {left left' : α → ℕ}

theorem active_mono (h : ∀ a ∈ tasks, left' a ≤ left a) : active tasks left' ⊆ active tasks left := by
  intro a ha
  obtain ⟨hmem, hpos⟩ := Finset.mem_filter.mp ha
  exact Finset.mem_filter.mpr ⟨hmem, hpos.trans_le (h a hmem)⟩

theorem card_active_le_sum : (active tasks left).card ≤ ∑ a ∈ tasks, left a := by
  calc (active tasks left).card = ∑ a ∈ active tasks left, 1 := Finset.card_eq_sum_ones _
    _ ≤ ∑ a ∈ active tasks left, left a :=
        Finset.sum_le_sum (fun a ha => (Finset.mem_filter.mp ha).2)
    _ ≤ ∑ a ∈ tasks, left a := Finset.sum_le_sum_of_subset (Finset.filter_subset _ _)

/-- With few tasks to do, all of them are served. -/
theorem Round.serves_all (h : Round k tasks left left') (hfew : (active tasks left).card < k) :
    ∀ a ∈ active tasks left, left' a < left a := by
  obtain ⟨batch, hsub, hcard, hserved⟩ := h.served
  rw [min_eq_right hfew.le] at hcard
  rw [← Finset.eq_of_subset_of_card_le hsub hcard]
  exact hserved

/-- With enough to do, the tries lost are `k` at least. -/
theorem Round.sum_add_le (h : Round k tasks left left') (hmany : k ≤ (active tasks left).card) :
    ∑ a ∈ tasks, left' a + k ≤ ∑ a ∈ tasks, left a := by
  classical
  obtain ⟨batch, hsub, hcard, hserved⟩ := h.served
  rw [min_eq_left hmany] at hcard
  have hbatch : batch ⊆ tasks := hsub.trans (Finset.filter_subset _ _)
  have hlost : ∑ a ∈ batch, left' a + batch.card ≤ ∑ a ∈ batch, left a := by
    rw [Finset.card_eq_sum_ones, ← Finset.sum_add_distrib]
    exact Finset.sum_le_sum (fun a ha => hserved a ha)
  have hothers : ∑ a ∈ tasks \ batch, left' a ≤ ∑ a ∈ tasks \ batch, left a :=
    Finset.sum_le_sum (fun a ha => h.le a (Finset.mem_sdiff.mp ha).1)
  rw [← Finset.sum_sdiff hbatch, ← Finset.sum_sdiff hbatch]
  omega

/-- Every round that serves is one round less to come. -/
theorem Round.rounds_le (hk : 0 < k) (htries : ∀ a ∈ tasks, left a ≤ tries)
    (h : Round k tasks left left') : rounds k tries tasks left' ≤ rounds k tries tasks left - 1 := by
  have hmono := Finset.card_le_card (active_mono h.le)
  unfold rounds
  by_cases hfew : (active tasks left).card < k
  · rw [if_pos hfew, if_pos (hmono.trans_lt hfew)]
    refine Finset.sup_le (fun a ha => ?_)
    have hle : left a ≤ tasks.sup left := Finset.le_sup ha
    by_cases hpos : 0 < left a
    · have hlt := h.serves_all hfew a (Finset.mem_filter.mpr ⟨ha, hpos⟩)
      omega
    · have := h.le a ha
      omega
  · rw [if_neg hfew]
    have hsum := h.sum_add_le (not_lt.mp hfew)
    by_cases hlast : (active tasks left').card < k
    · -- the round after which few are left: there was more than one batch of tries
      rw [if_pos hlast]
      have hsup : tasks.sup left' ≤ tries :=
        Finset.sup_le (fun a ha => (h.le a ha).trans (htries a ha))
      by_cases hdone : ∑ a ∈ tasks, left' a = 0
      · have hzero : tasks.sup left' = 0 := by
          refine Nat.le_zero.mp (Finset.sup_le (fun a ha => ?_))
          exact (Finset.sum_eq_zero_iff.mp hdone a ha).le
        omega
      · have hquotient : 1 ≤ (∑ a ∈ tasks, left a - 1) / k :=
          (Nat.one_le_div_iff hk).mpr (by omega)
        omega
    · rw [if_neg hlast]
      have hpos : k ≤ ∑ a ∈ tasks, left' a := (not_lt.mp hlast).trans card_active_le_sum
      have hquotient : (∑ a ∈ tasks, left' a - 1) / k + 1 ≤ (∑ a ∈ tasks, left a - 1) / k := by
        rw [← Nat.add_div_right _ hk]
        exact Nat.div_le_div_right (by omega)
      omega

/-- What takes no try back does not make the rounds more. -/
theorem rounds_mono (htries : ∀ a ∈ tasks, left a ≤ tries) (h : ∀ a ∈ tasks, left' a ≤ left a) :
    rounds k tries tasks left' ≤ rounds k tries tasks left := by
  have hsup : tasks.sup left' ≤ tries := Finset.sup_le (fun a ha => (h a ha).trans (htries a ha))
  have hmono := Finset.card_le_card (active_mono h)
  have hsum : ∑ a ∈ tasks, left' a ≤ ∑ a ∈ tasks, left a := Finset.sum_le_sum h
  unfold rounds
  split
  · split
    · exact Finset.sup_mono_fun h
    · exact hsup.trans (Nat.le_add_left _ _)
  · rename_i hmany'
    rw [if_neg (fun hfew => hmany' (hmono.trans_lt hfew))]
    have := Nat.div_le_div_right (c := k) (Nat.sub_le_sub_right hsum 1)
    omega

theorem rounds_le (htries : ∀ a ∈ tasks, left a ≤ tries) :
    rounds k tries tasks left ≤ (tries * tasks.card - 1) / k + tries := by
  have hsup : tasks.sup left ≤ tries := Finset.sup_le htries
  have hsum : ∑ a ∈ tasks, left a ≤ tries * tasks.card := by
    rw [mul_comm]
    exact Finset.sum_le_card_nsmul tasks left tries htries
  unfold rounds
  split
  · exact hsup.trans (Nat.le_add_left _ _)
  · have := Nat.div_le_div_right (c := k) (Nat.sub_le_sub_right hsum 1)
    omega

/-- With no round to come, all tasks are done. -/
theorem done_of_rounds_eq_zero (htries : ∀ a ∈ tasks, left a ≤ tries)
    (h : rounds k tries tasks left = 0) : ∀ a ∈ tasks, left a = 0 := by
  intro a ha
  unfold rounds at h
  split at h
  · exact Nat.le_zero.mp (h ▸ Finset.le_sup ha)
  · obtain ⟨_, hnone⟩ := Nat.add_eq_zero_iff.mp h
    exact Nat.le_zero.mp (hnone ▸ htries a ha)

end Backlog

/-! ## Countdowns along a run -/

namespace Machine

variable {σ β : Type} {M : Machine σ β}

/-- A number that no step raises and that every step of one kind lowers, until
it is zero. -/
theorem Run.countdown {counts : Move σ β → Bool} {Inv : σ → Prop} {C : Move σ β → Prop} {Φ : σ → ℕ}
    (inv : ∀ s a t, Inv s → C ⟨s, a, t⟩ → M.next s a = some t → Inv t)
    (step : ∀ s a t, Inv s → C ⟨s, a, t⟩ → M.next s a = some t →
      Φ t ≤ Φ s - if counts ⟨s, a, t⟩ then 1 else 0)
    {s t : σ} {moves : List (Move σ β)} (run : Run M s moves t) (hs : Inv s)
    (hmoves : ∀ m ∈ moves, C m) :
    Inv t ∧ Φ t ≤ Φ s - moves.countP counts := by
  induction run with
  | nil => exact ⟨hs, by simp⟩
  | snoc _ hstep ih =>
      obtain ⟨hinv, hle⟩ := ih (fun m hm => hmoves m (List.mem_append_left _ hm))
      have hlast := hmoves _ (List.mem_append_right _ (List.mem_singleton_self _))
      refine ⟨inv _ _ _ hinv hlast hstep, ?_⟩
      have hdrop := step _ _ _ hinv hlast hstep
      simp only [List.countP_append, List.countP_singleton]
      omega

end Machine

end WebhookRelay.Foundation
