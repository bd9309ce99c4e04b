import Mathlib.Data.List.Basic
import Mathlib.Logic.Function.Basic
import Mathlib.Tactic

/-!
# Requests in the order of their effects

A history of requests that come, take effect and are answered, each at a
moment of its own. The order of the effects respects real time: a request that
was answered before another came has taken effect before it. What the requests
do together is then what they do one after another, in that order.
-/

namespace WebhookRelay.Foundation

/-- `before i` are the requests that had been answered when `i` came. -/
structure History (ι : Type) where
  arrived : List ι := []
  effects : List ι := []
  answered : List ι := []
  before : ι → List ι := fun _ => []

namespace History

variable {ι : Type}

def ask [DecidableEq ι] (h : History ι) (i : ι) : History ι :=
  { h with arrived := h.arrived ++ [i], before := Function.update h.before i h.answered }

def takeEffect (h : History ι) (i : ι) : History ι :=
  { h with effects := h.effects ++ [i] }

def answer (h : History ι) (i : ι) : History ι :=
  { h with answered := h.answered ++ [i] }

/-- An order in which the answered requests can have been served one by one,
with some that are not answered yet: no request stands before one that had
been answered when it came. -/
structure Linearizes (h : History ι) (order : List ι) : Prop where
  nodup : order.Nodup
  answered : ∀ i ∈ h.answered, i ∈ order
  arrived : ∀ i ∈ order, i ∈ h.arrived
  realTime : order.Pairwise (fun i j => j ∉ h.before i)

/-- The effects so far are such an order, and nobody had been answered who is
not among them. -/
structure Lawful (h : History ι) : Prop where
  linear : h.Linearizes h.effects
  before : ∀ i, ∀ j ∈ h.before i, j ∈ h.answered

variable {h : History ι} {i : ι}

theorem lawful_empty : Lawful ({} : History ι) :=
  ⟨⟨List.nodup_nil, nofun, nofun, List.Pairwise.nil⟩, nofun⟩

theorem Lawful.ask [DecidableEq ι] (hlaw : Lawful h) (hnew : i ∉ h.arrived) : Lawful (h.ask i) where
  linear := by
    refine ⟨hlaw.linear.nodup, hlaw.linear.answered,
      fun j hj => List.mem_append_left _ (hlaw.linear.arrived j hj), ?_⟩
    refine hlaw.linear.realTime.imp_of_mem ?_
    intro j k hj _ hjk
    have hne : j ≠ i := by
      rintro rfl
      exact hnew (hlaw.linear.arrived j hj)
    show k ∉ Function.update h.before i h.answered j
    rwa [Function.update_of_ne hne]
  before := by
    intro j k hk
    by_cases hj : j = i
    · subst hj
      simpa [History.ask] using hk
    · apply hlaw.before j k
      simpa [History.ask, Function.update_of_ne hj] using hk

theorem Lawful.takeEffect (hlaw : Lawful h) (harrived : i ∈ h.arrived) (hpending : i ∉ h.effects) :
    Lawful (h.takeEffect i) where
  linear := by
    refine ⟨?_, fun j hj => List.mem_append_left _ (hlaw.linear.answered j hj), ?_, ?_⟩
    · exact List.Nodup.append hlaw.linear.nodup (List.nodup_singleton i)
        (by simpa [List.disjoint_singleton] using hpending)
    · intro j hj
      rcases List.mem_append.mp hj with hold | hnew
      · exact hlaw.linear.arrived j hold
      · exact List.mem_singleton.mp hnew ▸ harrived
    · refine List.pairwise_append.mpr ⟨hlaw.linear.realTime, List.pairwise_singleton _ _, ?_⟩
      intro j _ k hk hbefore
      -- whoever had been answered before has taken effect
      obtain rfl := List.mem_singleton.mp hk
      exact hpending (hlaw.linear.answered k (hlaw.before j k hbefore))
  before := hlaw.before

theorem Lawful.answer (hlaw : Lawful h) (hdone : i ∈ h.effects) : Lawful (h.answer i) where
  linear := by
    refine ⟨hlaw.linear.nodup, ?_, hlaw.linear.arrived, hlaw.linear.realTime⟩
    intro j hj
    rcases List.mem_append.mp hj with hold | hnew
    · exact hlaw.linear.answered j hold
    · exact List.mem_singleton.mp hnew ▸ hdone
  before := fun j k hk => List.mem_append_left _ (hlaw.before j k hk)

/-! ## What the moves of one request mean to another -/

/-- Nothing has changed about `i`. -/
structure SameAt (h h' : History ι) (i : ι) : Prop where
  arrived : i ∈ h'.arrived ↔ i ∈ h.arrived
  effects : i ∈ h'.effects ↔ i ∈ h.effects
  answered : i ∈ h'.answered ↔ i ∈ h.answered

theorem SameAt.refl : SameAt h h i := ⟨Iff.rfl, Iff.rfl, Iff.rfl⟩

variable {j : ι}

theorem sameAt_ask [DecidableEq ι] (hne : j ≠ i) : SameAt h (h.ask i) j :=
  ⟨by simp [History.ask, hne], Iff.rfl, Iff.rfl⟩

theorem sameAt_takeEffect (hne : j ≠ i) : SameAt h (h.takeEffect i) j :=
  ⟨Iff.rfl, by simp [History.takeEffect, hne], Iff.rfl⟩

theorem sameAt_answer (hne : j ≠ i) : SameAt h (h.answer i) j :=
  ⟨Iff.rfl, Iff.rfl, by simp [History.answer, hne]⟩

end History

end WebhookRelay.Foundation
