import WebhookRelay.Foundation.Machine

/-!
# Simulations between machines

A relation between the states of two machines that every step of the first
can be followed along by a step of the second. What the second never does,
the first then never does, in the runs whose moves all meet the side
condition.
-/

namespace WebhookRelay.Foundation

namespace Machine

variable {σ τ α β : Type}

/-- Steps of `C` that meet `P` are steps of `A`, seen through `R`. -/
structure Simulates (C : Machine σ α) (A : Machine τ β) (P : Move σ α → Prop)
    (R : σ → τ → Prop) : Prop where
  start : ∀ s, C.init s → ∃ t, A.init t ∧ R s t
  step : ∀ s t a s', R s t → C.next s a = some s' → P ⟨s, a, s'⟩ →
    ∃ b t', A.next t b = some t' ∧ R s' t'

variable {C : Machine σ α} {A : Machine τ β} {P : Move σ α → Prop} {R : σ → τ → Prop}

theorem Simulates.run (sim : Simulates C A P R) {s s' : σ} {moves : List (Move σ α)}
    (run : C.Run s moves s') (hmoves : ∀ m ∈ moves, P m) {t : τ} (h : R s t) :
    ∃ moves' t', A.Run t moves' t' ∧ R s' t' := by
  induction run with
  | nil => exact ⟨[], t, .nil t, h⟩
  | snoc _ hstep ih =>
      obtain ⟨moves', u, hrun, hu⟩ := ih (fun m hm => hmoves m (List.mem_append_left _ hm))
      have hmove := hmoves _ (List.mem_append_right _ (List.mem_singleton_self _))
      obtain ⟨b, u', hnext, hu'⟩ := sim.step _ u _ _ hu hstep hmove
      exact ⟨_, u', hrun.snoc hnext, hu'⟩

/-- From the start: the second machine reaches a state that stands for the
one that the first has come to. -/
theorem Simulates.exists_reachable (sim : Simulates C A P R) {s s' : σ}
    {moves : List (Move σ α)} (hinit : C.init s) (run : C.Run s moves s')
    (hmoves : ∀ m ∈ moves, P m) : ∃ t, A.Reachable t ∧ R s' t := by
  obtain ⟨t, ht, h⟩ := sim.start s hinit
  obtain ⟨_, t', hrun, h'⟩ := sim.run run hmoves h
  exact ⟨t', hrun.reachable (.start ht), h'⟩

end Machine

end WebhookRelay.Foundation
