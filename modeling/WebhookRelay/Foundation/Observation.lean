import Mathlib.Tactic

/-!
# What can be observed of a system

A system that answers every input. Two of its states cannot be told apart
when no sequence of inputs is answered differently from them; a relation that
every input keeps, and under which it is answered alike, shows that.
-/

namespace WebhookRelay.Foundation

variable {σ α ρ : Type}

/-- The answers to one input after the other. -/
def answers (respond : σ → α → ρ × σ) : σ → List α → List ρ
  | _, [] => []
  | s, a :: rest => (respond s a).1 :: answers respond (respond s a).2 rest

variable {respond : σ → α → ρ × σ} {R : σ → σ → Prop}

/-- An input is answered alike from related states, which stay related. -/
def Unseen (respond : σ → α → ρ × σ) (R : σ → σ → Prop) : Prop :=
  ∀ s t a, R s t → (respond s a).1 = (respond t a).1 ∧ R (respond s a).2 (respond t a).2

theorem Unseen.answers_eq (h : Unseen respond R) {s t : σ} (hst : R s t) (inputs : List α) :
    answers respond s inputs = answers respond t inputs := by
  induction inputs generalizing s t with
  | nil => rfl
  | cons a rest ih =>
      obtain ⟨hanswer, hnext⟩ := h s t a hst
      unfold answers
      rw [hanswer, ih hnext]

end WebhookRelay.Foundation
