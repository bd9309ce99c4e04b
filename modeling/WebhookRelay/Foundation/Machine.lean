import Mathlib.Data.List.Basic
import Mathlib.Tactic

/-!
# Machines and their runs

A machine has initial states and a partial step function. Every choice the
environment makes is carried by the label, so a run is determined by its
labels and can be evaluated (`exec`). Safety arguments are stated over `Run`,
which records each move with its source and target.

The rules at the end are the only inductions over runs a client needs: an
invariant of every step is an invariant of every run, and a property that a
step can only lose by breaking a side condition holds along a run exactly
when every move of the run meets that condition. `Pending` is for conditions
on pairs of moves: one that still waits for another to follow it.
-/

namespace WebhookRelay.Foundation

structure Machine (σ α : Type) where
  init : σ → Prop
  next : σ → α → Option σ

/-- One transition of a machine. -/
structure Move (σ α : Type) where
  src : σ
  label : α
  dst : σ

namespace Machine

variable {σ α : Type} {M : Machine σ α}

inductive Run (M : Machine σ α) : σ → List (Move σ α) → σ → Prop where
  | nil (s : σ) : Run M s [] s
  | snoc {s : σ} {moves : List (Move σ α)} {t : σ} {a : α} {u : σ} :
      Run M s moves t → M.next t a = some u → Run M s (moves ++ [⟨t, a, u⟩]) u

inductive Reachable (M : Machine σ α) : σ → Prop where
  | start {s : σ} : M.init s → Reachable M s
  | step {s : σ} {a : α} {t : σ} : Reachable M s → M.next s a = some t → Reachable M t

theorem Run.reachable {s t : σ} {moves : List (Move σ α)} (run : Run M s moves t)
    (hs : Reachable M s) : Reachable M t := by
  induction run with
  | nil => exact hs
  | snoc _ hstep ih => exact ih.step hstep

theorem Run.append {s t u : σ} {first second : List (Move σ α)}
    (left : Run M s first t) (right : Run M t second u) :
    Run M s (first ++ second) u := by
  induction right with
  | nil => simpa using left
  | snoc _ hstep ih =>
      rw [← List.append_assoc]
      exact ih.snoc hstep

theorem Run.single {s t : σ} {a : α} (h : M.next s a = some t) : Run M s [⟨s, a, t⟩] t :=
  (Run.nil s).snoc h

/-! ## Evaluating a list of labels -/

def exec (M : Machine σ α) : σ → List α → Option σ
  | s, [] => some s
  | s, a :: rest => (M.next s a).bind (fun t => exec M t rest)

theorem exec_append (s : σ) (first second : List α) :
    M.exec s (first ++ second) = (M.exec s first).bind (fun t => M.exec t second) := by
  induction first generalizing s with
  | nil => rfl
  | cons a rest ih =>
      simp only [List.cons_append, exec, Option.bind_assoc]
      congr 1
      funext t
      exact ih t

theorem exists_run_of_exec {s t : σ} {labels : List α} (h : M.exec s labels = some t) :
    ∃ moves, Run M s moves t ∧ moves.map Move.label = labels := by
  induction labels generalizing s with
  | nil =>
      simp only [exec, Option.some.injEq] at h
      subst h
      exact ⟨[], .nil _, rfl⟩
  | cons a rest ih =>
      simp only [exec, Option.bind_eq_some_iff] at h
      obtain ⟨u, hstep, hrest⟩ := h
      obtain ⟨moves, run, hmap⟩ := ih hrest
      exact ⟨[⟨s, a, u⟩] ++ moves, (Run.single hstep).append run, by simp [hmap]⟩

theorem reachable_of_exec {s t : σ} {labels : List α} (hs : M.init s)
    (h : M.exec s labels = some t) : Reachable M t := by
  obtain ⟨_, run, _⟩ := exists_run_of_exec h
  exact run.reachable (.start hs)

/-- Where a list of labels leads, if every one of them can be taken. -/
def after (M : Machine σ α) (s : σ) (labels : List α) : σ := (M.exec s labels).getD s

theorem exec_eq_after {s : σ} {labels : List α} (h : (M.exec s labels).isSome = true) :
    M.exec s labels = some (M.after s labels) := by
  unfold after
  rw [Option.getD_of_ne_none (Option.isSome_iff_ne_none.mp h)]

theorem reachable_after {s : σ} {labels : List α} (hs : M.init s)
    (h : (M.exec s labels).isSome = true) : Reachable M (M.after s labels) :=
  reachable_of_exec hs (exec_eq_after h)

/-- The moves of evaluating a list of labels, up to the first that cannot be
taken. -/
def trace (M : Machine σ α) : σ → List α → List (Move σ α)
  | _, [] => []
  | s, a :: rest =>
      match M.next s a with
      | some t => ⟨s, a, t⟩ :: trace M t rest
      | none => []

theorem run_trace {s t : σ} {labels : List α} (h : M.exec s labels = some t) :
    Run M s (M.trace s labels) t := by
  induction labels generalizing s with
  | nil =>
      simp only [exec, Option.some.injEq] at h
      subst h
      exact .nil _
  | cons a rest ih =>
      simp only [exec, Option.bind_eq_some_iff] at h
      obtain ⟨u, hstep, hrest⟩ := h
      simp only [trace, hstep]
      exact (Run.single hstep).append (ih hrest)

theorem label_mem_of_mem_trace {s : σ} {labels : List α} {m : Move σ α}
    (h : m ∈ M.trace s labels) : m.label ∈ labels := by
  induction labels generalizing s with
  | nil => cases h
  | cons a rest ih =>
      unfold trace at h
      cases hnext : M.next s a with
      | none =>
          rw [hnext] at h
          cases h
      | some t =>
          rw [hnext] at h
          rcases List.mem_cons.mp h with rfl | hrest
          · exact List.mem_cons_self
          · exact List.mem_cons_of_mem _ (ih hrest)

theorem forall_mem_trace {s : σ} {labels : List α} {P : α → Prop} (h : ∀ a ∈ labels, P a) :
    ∀ m ∈ M.trace s labels, P m.label :=
  fun _ hm => h _ (label_mem_of_mem_trace hm)

/-! ## History variables -/

/-- The machine with a history variable: `note` brings it up to date at every
move and never stands in the way of one. -/
def withHistory {η : Type} (M : Machine σ α) (start : η) (note : Move σ α → η → η) :
    Machine (σ × η) α where
  init := fun s => M.init s.1 ∧ s.2 = start
  next := fun s a => (M.next s.1 a).map (fun t => (t, note ⟨s.1, a, t⟩ s.2))

theorem withHistory_next_iff {η : Type} {start : η} {note : Move σ α → η → η} {s t : σ × η}
    {a : α} : (M.withHistory start note).next s a = some t ↔
      M.next s.1 a = some t.1 ∧ t.2 = note ⟨s.1, a, t.1⟩ s.2 := by
  simp only [withHistory, Option.map_eq_some_iff]
  constructor
  · rintro ⟨u, hstep, rfl⟩
    exact ⟨hstep, rfl⟩
  · rintro ⟨hstep, hnote⟩
    exact ⟨t.1, hstep, Prod.ext rfl hnote.symm⟩

/-! ## Invariant rules -/

/-- An invariant of the initial states and of every step holds in every
reachable state. -/
theorem Reachable.invariant {Inv : σ → Prop} (start : ∀ s, M.init s → Inv s)
    (step : ∀ s a t, Inv s → M.next s a = some t → Inv t) {t : σ} (h : Reachable M t) :
    Inv t := by
  induction h with
  | start hs => exact start _ hs
  | step _ hstep ih => exact step _ _ _ ih hstep

/-- A property kept by every step from an invariant state is kept by a run. -/
theorem Run.preserves {Inv P : σ → Prop}
    (inv : ∀ s a t, Inv s → M.next s a = some t → Inv t)
    (step : ∀ s a t, Inv s → P s → M.next s a = some t → P t)
    {s t : σ} {moves : List (Move σ α)} (run : Run M s moves t) (hs : Inv s) (hp : P s) :
    P t := by
  have both : Inv t ∧ P t := by
    induction run with
    | nil => exact ⟨hs, hp⟩
    | snoc _ hstep ih =>
        exact ⟨inv _ _ _ ih.1 hstep, step _ _ _ ih.1 ih.2 hstep⟩
  exact both.2

/-- The states a run from `s` visits, `s` itself included. -/
def Visited (s : σ) (moves : List (Move σ α)) (v : σ) : Prop :=
  v = s ∨ ∃ m ∈ moves, v = m.dst

theorem Run.visited_last {s t : σ} {moves : List (Move σ α)} (run : Run M s moves t) :
    Visited s moves t := by
  cases run with
  | nil => exact Or.inl rfl
  | snoc _ _ => exact Or.inr ⟨_, List.mem_append_right _ (List.mem_singleton_self _), rfl⟩

/-- A property that every move meeting `C` keeps holds throughout a run whose
moves all meet `C`. -/
theorem Run.forall_visited {P : σ → Prop} {C : Move σ α → Prop}
    (keep : ∀ s a t, P s → C ⟨s, a, t⟩ → M.next s a = some t → P t)
    {s t : σ} {moves : List (Move σ α)} (run : Run M s moves t) (hs : P s)
    (hmoves : ∀ m ∈ moves, C m) : ∀ v, Visited s moves v → P v := by
  induction run with
  | nil =>
      rintro v (rfl | ⟨m, hm, _⟩)
      · exact hs
      · cases hm
  | @snoc moves t a u run hstep ih =>
      have hfirst := ih (fun m hm => hmoves m (List.mem_append_left _ hm))
      rintro v (rfl | ⟨m, hm, rfl⟩)
      · exact hs
      · rcases List.mem_append.mp hm with hm | hm
        · exact hfirst _ (Or.inr ⟨m, hm, rfl⟩)
        · rw [List.mem_singleton] at hm
          subst hm
          exact keep _ _ _ (hfirst t run.visited_last) (hmoves _ (by simp)) hstep

/-- What a step from a state satisfying `P` ensures of its move holds of every
move of a run whose moves all meet `C`. -/
theorem Run.forall_moves {P : σ → Prop} {C D : Move σ α → Prop}
    (keep : ∀ s a t, P s → C ⟨s, a, t⟩ → M.next s a = some t → P t)
    (ensure : ∀ s a t, P s → C ⟨s, a, t⟩ → M.next s a = some t → D ⟨s, a, t⟩)
    {s t : σ} {moves : List (Move σ α)} (run : Run M s moves t) (hs : P s)
    (hmoves : ∀ m ∈ moves, C m) : ∀ m ∈ moves, D m := by
  induction run with
  | nil =>
      intro m hm
      cases hm
  | @snoc moves t a u run hstep ih =>
      have hbefore : ∀ m ∈ moves, C m := fun m hm => hmoves m (List.mem_append_left _ hm)
      have hlast : C ⟨t, a, u⟩ := hmoves _ (by simp)
      intro m hm
      rcases List.mem_append.mp hm with hm | hm
      · exact ih hbefore m hm
      · rw [List.mem_singleton] at hm
        subst hm
        exact ensure _ _ _ (run.forall_visited keep hs hbefore t run.visited_last) hlast hstep

/-- If each step taken in a state satisfying `P` keeps `P` exactly when its
move meets `C`, then `P` holds throughout a run exactly when all moves of the
run meet `C`. -/
theorem Run.forall_visited_iff {Inv P : σ → Prop} {C : Move σ α → Prop}
    (inv : ∀ s a t, Inv s → M.next s a = some t → Inv t)
    (keep : ∀ s a t, Inv s → P s → M.next s a = some t → (P t ↔ C ⟨s, a, t⟩))
    {s t : σ} {moves : List (Move σ α)} (run : Run M s moves t) (hinv : Inv s) (hs : P s) :
    (∀ v, Visited s moves v → P v) ↔ ∀ m ∈ moves, C m := by
  induction run with
  | nil => simp [Visited, hs]
  | @snoc moves t a u run hstep ih =>
      have hbefore : (∀ v, Visited s (moves ++ [⟨t, a, u⟩]) v → P v) →
          ∀ v, Visited s moves v → P v := by
        rintro hall v (rfl | ⟨m, hm, rfl⟩)
        · exact hs
        · exact hall _ (Or.inr ⟨m, List.mem_append_left _ hm, rfl⟩)
      have hInv : Inv t := run.preserves inv (fun _ _ _ h _ => inv _ _ _ h) hinv hinv
      constructor
      · intro hall m hm
        rcases List.mem_append.mp hm with hm | hm
        · exact ih.mp (hbefore hall) m hm
        · rw [List.mem_singleton] at hm
          subst hm
          have ht := hbefore hall t run.visited_last
          exact (keep _ _ _ hInv ht hstep).mp (hall u (run.snoc hstep).visited_last)
      · intro hall
        have hfirst := ih.mpr (fun m hm => hall m (List.mem_append_left _ hm))
        have ht := hfirst t run.visited_last
        rintro v (rfl | ⟨m, hm, rfl⟩)
        · exact hs
        · rcases List.mem_append.mp hm with hm | hm
          · exact hfirst _ (Or.inr ⟨m, hm, rfl⟩)
          · rw [List.mem_singleton] at hm
            subst hm
            exact (keep _ _ _ hInv ht hstep).mpr (hall _ (by simp))

end Machine

/-! ## What is still to be followed -/

section Pending

variable {β : Type} {C D : β → Prop} {l : List β} {a : β}

/-- Something of `C` has come, and nothing of `D` since. -/
def Pending (C D : β → Prop) (l : List β) : Prop :=
  ∃ before b after, l = before ++ b :: after ∧ C b ∧ ∀ d ∈ after, ¬ D d

theorem not_pending_nil : ¬ Pending C D [] := by
  rintro ⟨before, b, after, heq, _⟩
  cases before <;> cases heq

theorem pending_snoc : Pending C D (l ++ [a]) ↔ C a ∨ (Pending C D l ∧ ¬ D a) := by
  constructor
  · rintro ⟨before, b, after, heq, hb, hafter⟩
    rcases List.eq_nil_or_concat after with rfl | ⟨after, d, rfl⟩
    · obtain ⟨_, hlast⟩ := List.append_inj' heq rfl
      obtain rfl := List.singleton_inj.mp hlast
      exact Or.inl hb
    · rw [List.concat_eq_append] at hafter heq
      rw [← List.cons_append, ← List.append_assoc] at heq
      obtain ⟨rfl, hlast⟩ := List.append_inj' heq rfl
      obtain rfl := List.singleton_inj.mp hlast
      refine Or.inr ⟨⟨before, b, after, rfl, hb, ?_⟩, ?_⟩
      · exact fun d hd => hafter d (List.mem_append_left _ hd)
      · exact hafter a (List.mem_append_right _ (List.mem_singleton_self a))
  · rintro (ha | ⟨⟨before, b, after, rfl, hb, hafter⟩, hnot⟩)
    · exact ⟨l, a, [], rfl, ha, nofun⟩
    · refine ⟨before, b, after ++ [a], by simp, hb, ?_⟩
      intro d hd
      rcases List.mem_append.mp hd with hold | hnew
      · exact hafter d hold
      · exact List.mem_singleton.mp hnew ▸ hnot

end Pending

end WebhookRelay.Foundation
