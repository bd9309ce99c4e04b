import Mathlib.Data.List.Basic
import WebhookRelay.Foundation.Cell

/-!
# Sorted sets

A set of members with scores, as Redis keeps one under a key: the key is
absent when the set is empty, and may expire as a whole. A window over time is
kept in it by scoring each member with its instant and dropping the scores
that have left the window.
-/

namespace WebhookRelay.Foundation

abbrev SortedSet (τ μ : Type) := List (μ × τ)

variable {τ μ : Type} [LinearOrder τ]

namespace SortedSet

/-- `ZREMRANGEBYSCORE`. -/
def removeRangeByScore (lo hi : τ) (z : SortedSet τ μ) : SortedSet τ μ :=
  z.filter (fun e => ¬ (lo ≤ e.2 ∧ e.2 ≤ hi))

/-- `ZADD` of one member: a member that is there gets the new score. -/
def add [DecidableEq μ] (member : μ) (score : τ) (z : SortedSet τ μ) : SortedSet τ μ :=
  z.filter (fun e => e.1 ≠ member) ++ [(member, score)]

theorem mem_removeRangeByScore_iff {lo hi : τ} {z : SortedSet τ μ} {e : μ × τ} :
    e ∈ z.removeRangeByScore lo hi ↔ e ∈ z ∧ ¬ (lo ≤ e.2 ∧ e.2 ≤ hi) := by
  simp only [removeRangeByScore, List.mem_filter, decide_eq_true_eq]

omit [LinearOrder τ] in
theorem add_of_fresh [DecidableEq μ] {member : μ} {z : SortedSet τ μ} (h : member ∉ z.map Prod.fst)
    (score : τ) : z.add member score = z ++ [(member, score)] := by
  unfold add
  congr 1
  rw [List.filter_eq_self]
  intro e he
  have hne : e.1 ≠ member := by
    rintro rfl
    exact h (List.mem_map_of_mem he)
  simpa using hne

end SortedSet

/-- What commands see of a sorted set under a key. -/
def Cell.members (c : Cell τ (SortedSet τ μ)) (now : τ) : SortedSet τ μ := (c.get now).getD []

theorem Cell.members_expiring (z : SortedSet τ μ) (expiry now : τ) :
    (⟨some (z, some expiry)⟩ : Cell τ (SortedSet τ μ)).members now =
      if now < expiry then z else [] := by
  unfold Cell.members
  rw [Cell.get_expiring]
  split <;> rfl

end WebhookRelay.Foundation
