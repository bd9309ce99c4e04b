import Mathlib.Tactic

/-!
# Computations that may fail

When a computation in `Except` ends well, and what a fold that stops at the
first error has to do with its steps.
-/

namespace WebhookRelay.Foundation.Fallible

variable {ε α β γ : Type}

theorem ok_bind (a : α) (f : α → Except ε β) : ((Except.ok a : Except ε α) >>= f) = f a := rfl

/-- The computation comes to a value. -/
def Succeeds (x : Except ε α) : Prop := ∃ a, x = .ok a

@[simp] theorem succeeds_ok (a : α) : Succeeds (Except.ok a : Except ε α) := ⟨a, rfl⟩

@[simp] theorem not_succeeds_error (e : ε) : ¬ Succeeds (Except.error e : Except ε α) := by
  rintro ⟨a, ha⟩
  cases ha

/-- A step whose success does not depend on what came before it. -/
theorem succeeds_bind_iff {x : Except ε α} {f : α → Except ε β} {P : Prop}
    (hf : ∀ a, x = .ok a → (Succeeds (f a) ↔ P)) : Succeeds (x >>= f) ↔ Succeeds x ∧ P := by
  cases x with
  | error e => simp [bind, Except.bind]
  | ok a => simpa [bind, Except.bind] using hf a rfl

theorem succeeds_bind_pure_iff {x : Except ε α} {f : α → β} :
    Succeeds (x >>= fun a => (pure (f a) : Except ε β)) ↔ Succeeds x := by
  refine (succeeds_bind_iff (P := True) ?_).trans (and_iff_left trivial)
  intro a _
  exact iff_true_intro (succeeds_ok (f a))

/-! ## What it comes to -/

theorem map_eq_ok_iff {f : α → β} {x : Except ε α} {b : β} :
    x.map f = .ok b ↔ ∃ a, x = .ok a ∧ f a = b := by
  cases x with
  | error e => simp [Except.map]
  | ok a => simp [Except.map]

theorem succeeds_map_iff {f : α → β} {x : Except ε α} : Succeeds (x.map f) ↔ Succeeds x := by
  simp [Succeeds, map_eq_ok_iff]

theorem map_bind {f : α → Except ε β} {g : β → γ} {x : Except ε α} :
    (x >>= f).map g = x >>= fun a => (f a).map g := by
  cases x <;> rfl

theorem bind_eq_ok_iff {x : Except ε α} {f : α → Except ε β} {b : β} :
    (x >>= f) = .ok b ↔ ∃ a, x = .ok a ∧ f a = .ok b := by
  cases x with
  | error e => simp [bind, Except.bind]
  | ok a => simp [ok_bind]

/-- Two computations and what is made of both. -/
theorem bind_map_eq_ok_iff {x : Except ε α} {y : Except ε β} {f : α → β → γ} {c : γ} :
    (x >>= fun a => y.map (f a)) = .ok c ↔ ∃ a b, x = .ok a ∧ y = .ok b ∧ f a b = c := by
  cases x with
  | error e => simp [bind, Except.bind]
  | ok a =>
      show y.map (f a) = .ok c ↔ _
      simp [map_eq_ok_iff]

/-! ## Which errors -/

/-- Any error the computation ends with is one of these. -/
def ErrorsIn (P : ε → Prop) (x : Except ε α) : Prop := ∀ e, x = .error e → P e

variable {P : ε → Prop}

@[simp] theorem errorsIn_ok (a : α) : ErrorsIn P (Except.ok a : Except ε α) := by
  intro e he
  cases he

@[simp] theorem errorsIn_error_iff {e : ε} : ErrorsIn P (Except.error e : Except ε α) ↔ P e := by
  constructor
  · intro h
    exact h e rfl
  · intro h e' he
    cases he
    exact h

/-- The errors of a sequence are those of its first part and, when that comes
to a value, those of the rest. -/
theorem errorsIn_bind_iff {x : Except ε α} {f : α → Except ε β} :
    ErrorsIn P (x >>= f) ↔ ErrorsIn P x ∧ ∀ a, x = .ok a → ErrorsIn P (f a) := by
  cases x with
  | error e =>
      have hstop : (Except.error e >>= f) = Except.error e := rfl
      simp [hstop]
  | ok a =>
      simp [ok_bind]

/-- The errors of a fold are the ones of its steps, each on the value that the
steps before it come to. -/
theorem errorsIn_foldlM_iff {f : α → β → Except ε α} {steps : List β} {a : α} :
    ErrorsIn P (steps.foldlM f a) ↔
      ∀ before step after, steps = before ++ step :: after →
        ∀ b, before.foldlM f a = .ok b → ErrorsIn P (f b step) := by
  induction steps generalizing a with
  | nil =>
      apply iff_of_true (errorsIn_ok a)
      intro before step after heq
      exact absurd heq (by simp)
  | cons first rest ih =>
      rw [List.foldlM_cons, errorsIn_bind_iff]
      constructor
      · rintro ⟨hfirst, hrest⟩ before step after heq b hb
        match before with
        | [] =>
            obtain ⟨rfl, rfl⟩ := List.cons.inj heq
            obtain rfl : a = b := Except.ok.inj hb
            exact hfirst
        | x :: before =>
            obtain ⟨rfl, htail⟩ := List.cons.inj heq
            rw [List.foldlM_cons] at hb
            cases hc : f a first with
            | error e =>
                rw [hc] at hb
                cases hb
            | ok c =>
                rw [hc] at hb
                exact ih.mp (hrest c hc) before step after htail b hb
      · intro h
        refine ⟨h [] first rest rfl a rfl, ?_⟩
        intro c hc
        apply ih.mpr
        intro before step after heq b hb
        apply h (first :: before) step after (by rw [heq, List.cons_append]) b
        rw [List.foldlM_cons, hc]
        exact hb

/-- Each result of a pass over a list is that of one of its elements. -/
theorem exists_mem_of_mapM {f : α → Except ε β} {xs : List α} {ys : List β}
    (h : xs.mapM f = .ok ys) : ∀ y ∈ ys, ∃ x ∈ xs, f x = .ok y := by
  induction xs generalizing ys with
  | nil =>
      obtain rfl := Except.ok.inj h
      intro y hy
      cases hy
  | cons x rest ih =>
      rw [List.mapM_cons] at h
      cases hx : f x with
      | error e =>
          rw [hx] at h
          cases h
      | ok first =>
          cases hrest : rest.mapM f with
          | error e =>
              rw [hx, hrest] at h
              cases h
          | ok others =>
              rw [hx, hrest] at h
              obtain rfl := Except.ok.inj h
              intro y hy
              rcases List.mem_cons.mp hy with rfl | hy
              · exact ⟨x, List.mem_cons_self, hx⟩
              · obtain ⟨x', hx', heq⟩ := ih hrest y hy
                exact ⟨x', List.mem_cons_of_mem _ hx', heq⟩

/-- A pass over a list whose every element has a result. -/
theorem exists_mapM_eq_ok {f : α → Except ε β} {xs : List α} (h : ∀ x ∈ xs, Succeeds (f x)) :
    ∃ ys, xs.mapM f = .ok ys ∧ List.Forall₂ (fun x y => f x = .ok y) xs ys := by
  induction xs with
  | nil => exact ⟨[], rfl, .nil⟩
  | cons x rest ih =>
      obtain ⟨⟨y, hy⟩, hrest⟩ := List.forall_mem_cons.mp h
      obtain ⟨ys, hys, hall⟩ := ih hrest
      refine ⟨y :: ys, ?_, .cons hy hall⟩
      rw [List.mapM_cons, hy, hys]
      rfl

end WebhookRelay.Foundation.Fallible
