import Mathlib.Data.Set.Function
import Mathlib.Order.Defs.LinearOrder
import Mathlib.Tactic
import WebhookRelay.Foundation.Machine

/-!
# Clients of a keyed store

Commands on a store say which keys they read and write. A client is a program
that sends one command after another, and any number of clients share the
store, a command at a time. A client within a set of keys writes nothing
outside of it and comes to the same whatever is there. Clients that have no
key in common with the rest come to what they come to alone.
-/

namespace WebhookRelay.Foundation

variable {κ ν γ ρ τ α ι : Type}

/-- Commands `γ` with replies `ρ`, executed at an instant. What one does to
the keys it names depends on these alone, and the others stay as they are. -/
structure Commands (κ ν γ ρ τ : Type) where
  keys : γ → List κ
  exec : τ → γ → (κ → ν) → ρ × (κ → ν)
  frame : ∀ now command store, ∀ k, k ∉ keys command → (exec now command store).2 k = store k
  own : ∀ now command store store', (∀ k ∈ keys command, store k = store' k) →
    (exec now command store).1 = (exec now command store').1 ∧
      ∀ k ∈ keys command, (exec now command store).2 k = (exec now command store').2 k

/-- It has ended, it reads the clock, or it sends a command and goes on with
the reply. -/
inductive Program (γ ρ τ α : Type) where
  | ended (answer : α)
  | clock (next : τ → Program γ ρ τ α)
  | send (command : γ) (next : ρ → Program γ ρ τ α)

namespace Program

/-- Whatever the replies, the program names keys of `K` only. -/
def Within (C : Commands κ ν γ ρ τ) (K : Set κ) : Program γ ρ τ α → Prop
  | ended _ => True
  | clock next => ∀ now, (next now).Within C K
  | send command next => (∀ k ∈ C.keys command, k ∈ K) ∧ ∀ reply, (next reply).Within C K

/-- The next command, or reading of the clock. -/
def advance (C : Commands κ ν γ ρ τ) (now : τ) (store : κ → ν) :
    Program γ ρ τ α → Option (Program γ ρ τ α × (κ → ν))
  | ended _ => none
  | clock next => some (next now, store)
  | send command next =>
      let (reply, store) := C.exec now command store
      some (next reply, store)

/-- The whole program at one instant, with nothing in between. -/
def run (C : Commands κ ν γ ρ τ) (now : τ) : Program γ ρ τ α → (κ → ν) → α × (κ → ν)
  | ended answer, store => (answer, store)
  | clock next, store => (next now).run C now store
  | send command next, store =>
      let (reply, store) := C.exec now command store
      (next reply).run C now store

end Program

structure ClientState (κ ν γ ρ τ α ι : Type) where
  now : τ
  store : κ → ν
  /-- `none` once the client is gone. -/
  calls : ι → Option (Program γ ρ τ α)

inductive ClientLabel (τ ι : Type) where
  | tick (now : τ)
  | step (i : ι)
  | cut (i : ι)

section Steps

variable [LinearOrder τ] [DecidableEq ι]

def clientNext (C : Commands κ ν γ ρ τ) (s : ClientState κ ν γ ρ τ α ι) :
    ClientLabel τ ι → Option (ClientState κ ν γ ρ τ α ι)
  | .tick now => if s.now ≤ now then some { s with now := now } else none
  | .step i =>
      ((s.calls i).bind (fun program => program.advance C s.now s.store)).map (fun after =>
        { s with store := after.2, calls := Function.update s.calls i (some after.1) })
  | .cut i => (s.calls i).map (fun _ => { s with calls := Function.update s.calls i none })

/-- Clients that run these programs, over any store. -/
def clients (C : Commands κ ν γ ρ τ) (programs : ι → Program γ ρ τ α) :
    Machine (ClientState κ ν γ ρ τ α ι) (ClientLabel τ ι) where
  init := fun s => s.calls = fun i => some (programs i)
  next := clientNext C

end Steps

/-! ## One command -/

section Run

variable {C : Commands κ ν γ ρ τ} {now : τ} {store : κ → ν}

@[simp] theorem run_ended (answer : α) :
    (Program.ended answer : Program γ ρ τ α).run C now store = (answer, store) := rfl

@[simp] theorem run_clock (next : τ → Program γ ρ τ α) :
    (Program.clock next).run C now store = (next now).run C now store := rfl

@[simp] theorem run_send (command : γ) (next : ρ → Program γ ρ τ α) :
    (Program.send command next).run C now store =
      (next (C.exec now command store).1).run C now (C.exec now command store).2 := rfl

end Run

section Advance

variable {C : Commands κ ν γ ρ τ} {K : Set κ} {now : τ} {store other store' : κ → ν}
  {program program' : Program γ ρ τ α}

theorem Program.Within.mono {K' : Set κ} (h : program.Within C K) (hsub : K ⊆ K') :
    program.Within C K' := by
  induction program with
  | ended answer => trivial
  | clock next ih => exact fun now => ih now (h now)
  | send command next ih => exact ⟨fun k hk => hsub (h.1 k hk), fun reply => ih reply (h.2 reply)⟩

theorem advance_within (h : program.Within C K)
    (hadvance : program.advance C now store = some (program', store')) :
    program'.Within C K ∧ ∀ k, k ∉ K → store' k = store k := by
  cases program with
  | ended answer => cases hadvance
  | clock next =>
      cases hadvance
      exact ⟨h now, fun _ _ => rfl⟩
  | send command next =>
      cases hadvance
      exact ⟨h.2 _, fun k hk => C.frame now command store k (fun hmem => hk (h.1 k hmem))⟩

/-- A store that agrees on the keys of the program makes no difference. -/
theorem advance_agree (h : program.Within C K) (hagree : Set.EqOn other store K)
    (hadvance : program.advance C now store = some (program', store')) :
    ∃ other', program.advance C now other = some (program', other') ∧
      Set.EqOn other' store' K := by
  cases program with
  | ended answer => cases hadvance
  | clock next =>
      cases hadvance
      exact ⟨other, rfl, hagree⟩
  | send command next =>
      cases hadvance
      obtain ⟨hreply, hown⟩ := C.own now command other store (fun k hk => hagree (h.1 k hk))
      refine ⟨(C.exec now command other).2, ?_, ?_⟩
      · show some (next (C.exec now command other).1, _) = _
        rw [hreply]
      · intro k hk
        by_cases hmem : k ∈ C.keys command
        · exact hown k hmem
        · rw [C.frame now command other k hmem, C.frame now command store k hmem]
          exact hagree hk

end Advance

/-! ## Runs -/

section Runs

variable [LinearOrder τ] [DecidableEq ι] {C : Commands κ ν γ ρ τ}
  {programs : ι → Program γ ρ τ α} {s t u : ClientState κ ν γ ρ τ α ι}
  {moves : List (Move (ClientState κ ν γ ρ τ α ι) (ClientLabel τ ι))} {K : Set κ}

theorem clientStep_cases {i : ι} (hstep : clientNext C s (.step i) = some t) :
    ∃ program after store, s.calls i = some program ∧
      program.advance C s.now s.store = some (after, store) ∧
      t = { s with store := store, calls := Function.update s.calls i (some after) } := by
  obtain ⟨⟨after, store⟩, hbind, rfl⟩ := Option.map_eq_some_iff.mp hstep
  obtain ⟨program, hcall, hadvance⟩ := Option.bind_eq_some_iff.mp hbind
  exact ⟨program, after, store, hcall, hadvance, rfl⟩

/-- Every client names keys of its own set only. -/
def ClientsWithin (C : Commands κ ν γ ρ τ) (keys : ι → Set κ) (s : ClientState κ ν γ ρ τ α ι) :
    Prop :=
  ∀ i program, s.calls i = some program → program.Within C (keys i)

variable {keys : ι → Set κ}

theorem clientsWithin_step {a : ClientLabel τ ι} (h : ClientsWithin C keys s)
    (hstep : clientNext C s a = some t) : ClientsWithin C keys t := by
  cases a with
  | tick now =>
      simp only [clientNext, Option.ite_none_right_eq_some, Option.some.injEq] at hstep
      obtain ⟨_, rfl⟩ := hstep
      exact h
  | step j =>
      obtain ⟨before, after, store, hcall, hadvance, rfl⟩ := clientStep_cases hstep
      intro i program hi
      by_cases hij : i = j
      · subst hij
        obtain rfl : after = program := by simpa using hi
        exact (advance_within (h i before hcall) hadvance).1
      · exact h i program (by simpa [hij] using hi)
  | cut j =>
      obtain ⟨_, _, rfl⟩ := Option.map_eq_some_iff.mp hstep
      intro i program hi
      by_cases hij : i = j
      · subst hij
        simp at hi
      · exact h i program (by simpa [hij] using hi)

theorem clientsWithin_init (hkeys : ∀ i, (programs i).Within C (keys i))
    (hs : (clients C programs).init s) : ClientsWithin C keys s := by
  intro i program hi
  have hcall : s.calls i = some (programs i) := congrFun hs i
  obtain rfl := Option.some.inj (hcall.symm.trans hi)
  exact hkeys i

theorem clientsWithin_run (hs : ClientsWithin C keys s)
    (run : (clients C programs).Run s moves t) : ClientsWithin C keys t := by
  induction run with
  | nil => exact hs
  | snoc _ hstep ih => exact clientsWithin_step ih hstep

/-- A step of a client writes nothing outside of its keys. -/
theorem store_of_step {i : ι} (h : ClientsWithin C keys s)
    (hstep : clientNext C s (.step i) = some t) : ∀ k, k ∉ keys i → t.store k = s.store k := by
  obtain ⟨program, after, store, hcall, hadvance, rfl⟩ := clientStep_cases hstep
  exact (advance_within (h i program hcall) hadvance).2

/-- And comes to the same over any store that agrees on them. -/
theorem step_agree {i : ι} (h : ClientsWithin C keys s)
    (hstep : clientNext C s (.step i) = some t) (hnow : u.now = s.now)
    (hcalls : u.calls i = s.calls i) (hagree : Set.EqOn u.store s.store (keys i)) :
    ∃ v, clientNext C u (.step i) = some v ∧ v.calls i = t.calls i ∧
      Set.EqOn v.store t.store (keys i) := by
  obtain ⟨program, after, store, hcall, hadvance, rfl⟩ := clientStep_cases hstep
  obtain ⟨other, hother, hsame⟩ := advance_agree (h i program hcall) hagree hadvance
  refine ⟨{ u with store := other, calls := Function.update u.calls i (some after) }, ?_, ?_, hsame⟩
  · simp [clientNext, hcalls, hcall, hnow, hother]
  · simp

/-! ## Clients on their own -/

/-- The moves of some of the clients, and those of the clock. -/
def ClientLabel.ofSome (mine : ι → Prop) [DecidablePred mine] : ClientLabel τ ι → Bool
  | tick _ => true
  | step i | cut i => decide (mine i)

/-- What some of the clients see of a state. -/
structure SameFor (mine : ι → Prop) (K : Set κ) (u t : ClientState κ ν γ ρ τ α ι) : Prop where
  now : u.now = t.now
  calls : ∀ i, mine i → u.calls i = t.calls i
  store : Set.EqOn u.store t.store K

/-- A move of theirs can be made in a state that looks the same. -/
theorem sameFor_step {mine : ι → Prop} [DecidablePred mine] {a : ClientLabel τ ι}
    {u : ClientState κ ν γ ρ τ α ι} (hwithin : ClientsWithin C keys s)
    (hkeys : ∀ i, mine i → keys i ⊆ K) (hsame : SameFor mine K u s)
    (ha : a.ofSome mine = true) (hstep : clientNext C s a = some t) :
    ∃ v, clientNext C u a = some v ∧ SameFor mine K v t := by
  cases a with
  | tick now =>
      simp only [clientNext, Option.ite_none_right_eq_some, Option.some.injEq] at hstep
      obtain ⟨hnow, rfl⟩ := hstep
      refine ⟨{ u with now := now }, ?_, ⟨rfl, hsame.calls, hsame.store⟩⟩
      show (if u.now ≤ now then some _ else none) = _
      rw [hsame.now, if_pos hnow]
  | step i =>
      have hmine : mine i := of_decide_eq_true ha
      obtain ⟨program, after, store, hcall, hadvance, rfl⟩ := clientStep_cases hstep
      have hprogram : program.Within C K := (hwithin i program hcall).mono (hkeys i hmine)
      obtain ⟨other, hother, hagree⟩ := advance_agree hprogram hsame.store hadvance
      refine ⟨{ u with store := other, calls := Function.update u.calls i (some after) }, ?_,
        ⟨hsame.now, ?_, hagree⟩⟩
      · simp [clientNext, hsame.calls i hmine, hcall, hsame.now, hother]
      · intro j hj
        by_cases hij : j = i
        · simp [hij]
        · simpa [hij] using hsame.calls j hj
  | cut i =>
      have hmine : mine i := of_decide_eq_true ha
      obtain ⟨program, hcall, rfl⟩ := Option.map_eq_some_iff.mp hstep
      refine ⟨{ u with calls := Function.update u.calls i none }, ?_, ⟨hsame.now, ?_, hsame.store⟩⟩
      · simp [clientNext, hsame.calls i hmine, hcall]
      · intro j hj
        by_cases hij : j = i
        · simp [hij]
        · simpa [hij] using hsame.calls j hj

/-- A move of the others shows nowhere. -/
theorem sameFor_others {mine : ι → Prop} [DecidablePred mine] {a : ClientLabel τ ι}
    {u : ClientState κ ν γ ρ τ α ι} (hwithin : ClientsWithin C keys s)
    (hkeys : ∀ i, ¬ mine i → ∀ k ∈ K, k ∉ keys i) (hsame : SameFor mine K u s)
    (ha : a.ofSome mine = false) (hstep : clientNext C s a = some t) : SameFor mine K u t := by
  have hcalls : ∀ i, ¬ mine i → ∀ program, ∀ j, mine j →
      Function.update s.calls i program j = s.calls j := by
    intro i hi program j hj
    have hne : j ≠ i := by
      rintro rfl
      exact hi hj
    exact Function.update_of_ne hne _ _
  cases a with
  | tick now => cases ha
  | step i =>
      have hnot : ¬ mine i := of_decide_eq_false ha
      have hstore := store_of_step hwithin hstep
      obtain ⟨_, _, _, _, _, rfl⟩ := clientStep_cases hstep
      exact ⟨hsame.now, fun j hj => (hsame.calls j hj).trans (hcalls i hnot _ j hj).symm,
        fun k hk => (hsame.store hk).trans (hstore k (hkeys i hnot k hk)).symm⟩
  | cut i =>
      have hnot : ¬ mine i := of_decide_eq_false ha
      obtain ⟨_, _, rfl⟩ := Option.map_eq_some_iff.mp hstep
      exact ⟨hsame.now, fun j hj => (hsame.calls j hj).trans (hcalls i hnot _ j hj).symm,
        hsame.store⟩

/-- With the moves of the others left out, theirs can be made all the same,
with the same replies and to the same effect. -/
theorem exec_alone {mine : ι → Prop} [DecidablePred mine]
    (hs : ClientsWithin C keys s) (hmine : ∀ i, mine i → keys i ⊆ K)
    (hothers : ∀ i, ¬ mine i → ∀ k ∈ K, k ∉ keys i)
    (run : (clients C programs).Run s moves t) :
    ∃ u, (clients C programs).exec s ((moves.map Move.label).filter (ClientLabel.ofSome mine)) =
      some u ∧ SameFor mine K u t := by
  induction run with
  | nil => exact ⟨s, rfl, ⟨rfl, fun _ _ => rfl, fun _ _ => rfl⟩⟩
  | @snoc moves t a v run hstep ih =>
      obtain ⟨u, hexec, hsame⟩ := ih
      rw [List.map_append, List.filter_append, Machine.exec_append, hexec]
      cases ha : a.ofSome mine with
      | true =>
          obtain ⟨w, hnext, hafter⟩ := sameFor_step (clientsWithin_run hs run) hmine hsame ha hstep
          refine ⟨w, ?_, hafter⟩
          have hlabel : List.filter (ClientLabel.ofSome mine) [a] = [a] := by simp [ha]
          show (clients C programs).exec u (List.filter _ [a]) = some w
          rw [hlabel]
          show (clientNext C u a).bind some = some w
          rw [hnext]
          rfl
      | false =>
          refine ⟨u, ?_, sameFor_others (clientsWithin_run hs run) hothers hsame ha hstep⟩
          have hlabel : List.filter (ClientLabel.ofSome mine) [a] = [] := by simp [ha]
          show (clients C programs).exec u (List.filter _ [a]) = some u
          rw [hlabel]
          rfl

end Runs

end WebhookRelay.Foundation
