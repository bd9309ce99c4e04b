import WebhookRelay.Foundation.Fallible

/-!
# Transactions that fail as a whole

A transaction works on a state of its own until one of its statements fails.
From then on every statement of it is refused, and COMMIT keeps what was
committed before it began. A client that goes on after an error therefore gets
all of its statements or none: `commit_attemptAll`. What it may have wanted
is each statement on its own, `alone`; when a statement never takes anything
away, the two agree exactly when no statement fails or none has anything to
add: `commit_attemptAll_eq_iff` and `foldl_alone_adds`.
-/

namespace WebhookRelay.Foundation

structure Transaction (σ : Type) where
  committed : σ
  /-- `none` once a statement has failed. -/
  working : Option σ

namespace Transaction

variable {σ ε α : Type}

def start (s : σ) : Transaction σ where
  committed := s
  working := some s

/-- COMMIT. -/
def commit (tx : Transaction σ) : σ := tx.working.getD tx.committed

def rollback (tx : Transaction σ) : σ := tx.committed

/-- One statement; `refused` is the error for a statement of a transaction
that has failed. -/
def execute (refused : ε) (run : σ → Except ε σ) (tx : Transaction σ) :
    Except ε Unit × Transaction σ :=
  match tx.working with
  | none => (.error refused, tx)
  | some s =>
      match run s with
      | .ok t => (.ok (), { tx with working := some t })
      | .error e => (.error e, { tx with working := none })

/-- One statement whose error is not looked at. -/
def attempt (refused : ε) (run : σ → Except ε σ) (tx : Transaction σ) : Transaction σ :=
  (tx.execute refused run).2

def attemptAll (refused : ε) (run : α → σ → Except ε σ) (statements : List α)
    (tx : Transaction σ) : Transaction σ :=
  statements.foldl (fun tx a => tx.attempt refused (run a)) tx

/-- What one statement makes of the state when its failure is its own. -/
def alone (run : σ → Except ε σ) (s : σ) : σ :=
  match run s with
  | .ok t => t
  | .error _ => s

variable {refused : ε} {run : α → σ → Except ε σ}

theorem attemptAll_of_failed {tx : Transaction σ} (h : tx.working = none) (statements : List α) :
    attemptAll refused run statements tx = tx := by
  induction statements with
  | nil => rfl
  | cons a rest ih =>
      have hrefused : tx.attempt refused (run a) = tx := by
        simp only [attempt, execute, h]
      rw [attemptAll, List.foldl_cons, hrefused]
      exact ih

/-- All statements or none. -/
theorem commit_attemptAll (committed s : σ) (statements : List α) :
    (attemptAll refused run statements ⟨committed, some s⟩).commit =
      match statements.foldlM (fun s a => run a s) s with
      | .ok t => t
      | .error _ => committed := by
  induction statements generalizing s with
  | nil => rfl
  | cons a rest ih =>
      rw [attemptAll, List.foldl_cons, List.foldlM_cons]
      cases hrun : run a s with
      | error e =>
          have hfailed : (⟨committed, some s⟩ : Transaction σ).attempt refused (run a) =
              ⟨committed, none⟩ := by
            simp only [attempt, execute, hrun]
          rw [hfailed]
          exact congrArg commit (attemptAll_of_failed rfl rest)
      | ok t =>
          have htaken : (⟨committed, some s⟩ : Transaction σ).attempt refused (run a) =
              ⟨committed, some t⟩ := by
            simp only [attempt, execute, hrun]
          rw [htaken]
          exact ih t

/-- Statements that all succeed do so on their own. -/
theorem foldl_alone_of_ok {s t : σ} {statements : List α}
    (h : statements.foldlM (fun s a => run a s) s = .ok t) :
    statements.foldl (fun s a => alone (run a) s) s = t := by
  induction statements generalizing s with
  | nil => exact Except.ok.inj h
  | cons a rest ih =>
      rw [List.foldlM_cons] at h
      cases hrun : run a s with
      | error e =>
          rw [hrun] at h
          cases h
      | ok u =>
          rw [hrun] at h
          have hstep : alone (run a) s = u := by
            simp only [alone, hrun]
          rw [List.foldl_cons, hstep]
          exact ih h

/-- The client gets what each statement does on its own exactly when all of
them succeed or there is nothing to get. -/
theorem commit_attemptAll_eq_iff (refused : ε) (run : α → σ → Except ε σ) (committed s : σ)
    (statements : List α) :
    (attemptAll refused run statements ⟨committed, some s⟩).commit =
        statements.foldl (fun s a => alone (run a) s) s ↔
      Fallible.Succeeds (statements.foldlM (fun s a => run a s) s) ∨
        statements.foldl (fun s a => alone (run a) s) s = committed := by
  rw [commit_attemptAll]
  cases hall : statements.foldlM (fun s a => run a s) s with
  | error e => simp [eq_comm]
  | ok t => simp [foldl_alone_of_ok hall]

theorem foldlM_of_fixed {s : σ} {statements : List α} (h : ∀ a ∈ statements, run a s = .ok s) :
    statements.foldlM (fun s a => run a s) s = .ok s := by
  induction statements with
  | nil => rfl
  | cons a rest ih =>
      rw [List.foldlM_cons, h a List.mem_cons_self]
      exact ih (fun b hb => h b (List.mem_cons_of_mem _ hb))

theorem foldl_alone_of_fixed {s : σ} {statements : List α}
    (h : ∀ a ∈ statements, alone (run a) s = s) :
    statements.foldl (fun s a => alone (run a) s) s = s := by
  induction statements with
  | nil => rfl
  | cons a rest ih =>
      rw [List.foldl_cons, h a List.mem_cons_self]
      exact ih (fun b hb => h b (List.mem_cons_of_mem _ hb))

/-! ## Statements that only add -/

variable {size : σ → ℕ}

/-- The statement leaves the state as it is or makes it larger. -/
def Adds (size : σ → ℕ) (run : σ → Except ε σ) : Prop :=
  ∀ s t, run s = .ok t → t = s ∨ size s < size t

theorem Adds.alone {run : σ → Except ε σ} (h : Adds size run) (s : σ) :
    alone run s = s ∨ size s < size (alone run s) := by
  unfold Transaction.alone
  cases hrun : run s with
  | error e => exact Or.inl rfl
  | ok t => exact h s t hrun

theorem foldlM_adds (run : α → σ → Except ε σ) {s t : σ} {statements : List α}
    (hadds : ∀ a ∈ statements, Adds size (run a))
    (h : statements.foldlM (fun s a => run a s) s = .ok t) :
    (t = s ∧ ∀ a ∈ statements, run a s = .ok s) ∨ size s < size t := by
  induction statements generalizing s with
  | nil =>
      obtain rfl := Except.ok.inj h
      exact Or.inl ⟨rfl, nofun⟩
  | cons a rest ih =>
      rw [List.foldlM_cons] at h
      cases hrun : run a s with
      | error e =>
          rw [hrun] at h
          cases h
      | ok u =>
          rw [hrun] at h
          have hrest := ih (fun b hb => hadds b (List.mem_cons_of_mem _ hb)) h
          rcases hadds a List.mem_cons_self s u hrun with rfl | hlarger
          · rcases hrest with ⟨rfl, hall⟩ | hlarger
            · refine Or.inl ⟨rfl, ?_⟩
              intro b hb
              rcases List.mem_cons.mp hb with rfl | hb
              · exact hrun
              · exact hall b hb
            · exact Or.inr hlarger
          · refine Or.inr ?_
            rcases hrest with ⟨rfl, -⟩ | hmore
            · exact hlarger
            · exact hlarger.trans hmore

/-- On their own, statements add nothing exactly when each adds nothing. -/
theorem foldl_alone_adds {statements : List α} (hadds : ∀ a ∈ statements, Adds size (run a))
    (s : σ) :
    (statements.foldl (fun s a => alone (run a) s) s = s ∧
      ∀ a ∈ statements, alone (run a) s = s) ∨
    size s < size (statements.foldl (fun s a => alone (run a) s) s) := by
  have hpure : statements.foldlM (fun s a => (Except.ok (alone (run a) s) : Except ε σ)) s =
      .ok (statements.foldl (fun s a => alone (run a) s) s) := List.foldlM_pure
  have htotal : ∀ a ∈ statements,
      Adds size (fun s => (Except.ok (alone (run a) s) : Except ε σ)) := by
    intro a ha s t hrun
    obtain rfl := Except.ok.inj hrun
    exact (hadds a ha).alone s
  rcases foldlM_adds (fun a s => .ok (alone (run a) s)) htotal hpure with ⟨hsame, hall⟩ | hlarger
  · exact Or.inl ⟨hsame, fun a ha => Except.ok.inj (hall a ha)⟩
  · exact Or.inr hlarger

end Transaction

end WebhookRelay.Foundation
