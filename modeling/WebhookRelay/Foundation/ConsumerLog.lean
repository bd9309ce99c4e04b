import Mathlib.Data.List.Basic
import Mathlib.Tactic

/-!
# Partitioned logs and committed offsets

What a consumer group sees of a topic: a log for each partition, the position
a running process has been handed messages up to, and the offsets committed
for the group. `commit` commits the position of every partition at once, as a
client does when it is given no offsets. A restarted process resumes from the
committed offsets.

`AtLeastOnce` is the property commits are for; `atLeastOnce_commit_iff` says
what a commit needs.
-/

namespace WebhookRelay.Foundation

variable {π μ : Type}

structure ConsumerLog (π μ : Type) where
  log : π → List μ
  /-- Where the running process resumed. -/
  start : π → ℕ
  position : π → ℕ
  committed : π → ℕ

namespace ConsumerLog

def empty : ConsumerLog π μ := ⟨fun _ => [], fun _ => 0, fun _ => 0, fun _ => 0⟩

def commit (L : ConsumerLog π μ) : ConsumerLog π μ := { L with committed := L.position }

def resume (L : ConsumerLog π μ) : ConsumerLog π μ :=
  { L with start := L.committed, position := L.committed }

section

variable [DecidableEq π]

def append (L : ConsumerLog π μ) (p : π) (m : μ) : ConsumerLog π μ :=
  { L with log := Function.update L.log p (L.log p ++ [m]) }

/-- The next message of a partition is handed to the process. -/
def take (L : ConsumerLog π μ) (p : π) : Option (μ × ConsumerLog π μ) :=
  (L.log p)[L.position p]?.map
    (fun m => (m, { L with position := Function.update L.position p (L.position p + 1) }))

end

/-- The message is one the running process was handed. -/
def Handed (L : ConsumerLog π μ) (p : π) (offset : ℕ) : Prop :=
  L.start p ≤ offset ∧ offset < L.position p

/-- Every message below a committed offset is `done`. -/
def AtLeastOnce (done : π → ℕ → μ → Prop) (L : ConsumerLog π μ) : Prop :=
  ∀ p offset m, offset < L.committed p → (L.log p)[offset]? = some m → done p offset m

structure Ordered (L : ConsumerLog π μ) : Prop where
  start_le : ∀ p, L.start p ≤ L.committed p
  committed_le : ∀ p, L.committed p ≤ L.position p
  position_le : ∀ p, L.position p ≤ (L.log p).length

variable {L : ConsumerLog π μ}

theorem ordered_empty : Ordered (empty : ConsumerLog π μ) := by
  constructor <;> intro p <;> exact le_refl 0

theorem Ordered.commit (h : Ordered L) : Ordered L.commit :=
  ⟨fun p => (h.start_le p).trans (h.committed_le p), fun _ => le_refl _, h.position_le⟩

theorem Ordered.resume (h : Ordered L) : Ordered L.resume :=
  ⟨fun _ => le_refl _, fun _ => le_refl _, fun p => (h.committed_le p).trans (h.position_le p)⟩

/-- A resumed process has been handed nothing yet. -/
theorem not_handed_resume (p : π) (offset : ℕ) : ¬ L.resume.Handed p offset :=
  fun hhanded => absurd hhanded.2 (Nat.not_lt.mpr hhanded.1)

/-- Given at-least-once so far, a commit keeps it exactly when everything the
process was handed is done. -/
theorem atLeastOnce_commit_iff {done : π → ℕ → μ → Prop} (h : Ordered L)
    (before : AtLeastOnce done L) :
    AtLeastOnce done L.commit ↔
      ∀ p offset m, L.Handed p offset → (L.log p)[offset]? = some m → done p offset m := by
  constructor
  · intro after p offset m hhanded
    exact after p offset m hhanded.2
  · intro hall p offset m hlt hget
    by_cases hcommitted : offset < L.committed p
    · exact before p offset m hcommitted hget
    · have hle := h.start_le p
      exact hall p offset m ⟨by omega, hlt⟩ hget

/-- Committed messages stay done if what makes them so does not change for
those below the committed offsets. -/
theorem AtLeastOnce.mono {done done' : π → ℕ → μ → Prop} (h : AtLeastOnce done L)
    (hdone : ∀ p offset m, offset < L.committed p → done p offset m → done' p offset m) :
    AtLeastOnce done' L :=
  fun p offset m hlt hget => hdone p offset m hlt (h p offset m hlt hget)

variable [DecidableEq π]

theorem take_cases {p : π} {m : μ} {L' : ConsumerLog π μ} (h : L.take p = some (m, L')) :
    (L.log p)[L.position p]? = some m ∧
      L' = { L with position := Function.update L.position p (L.position p + 1) } := by
  simp only [take, Option.map_eq_some_iff, Prod.mk.injEq] at h
  obtain ⟨m', hget, rfl, rfl⟩ := h
  exact ⟨hget, rfl⟩

theorem Ordered.take (h : Ordered L) {p : π} {m : μ} {L' : ConsumerLog π μ}
    (hstep : L.take p = some (m, L')) : Ordered L' := by
  obtain ⟨hget, rfl⟩ := take_cases hstep
  obtain ⟨hlt, _⟩ := List.getElem?_eq_some_iff.mp hget
  refine ⟨h.start_le, ?_, ?_⟩ <;> intro q <;> by_cases hq : q = p
  · subst hq
    simpa using (h.committed_le q).trans (Nat.le_succ _)
  · simpa [hq] using h.committed_le q
  · subst hq
    simpa using hlt
  · simpa [hq] using h.position_le q

/-- What a process was handed after one more message. -/
theorem handed_take_iff (h : Ordered L) {p : π} {m : μ} {L' : ConsumerLog π μ}
    (hstep : L.take p = some (m, L')) (q : π) (offset : ℕ) :
    L'.Handed q offset ↔ L.Handed q offset ∨ (q = p ∧ offset = L.position p) := by
  obtain ⟨_, rfl⟩ := take_cases hstep
  unfold Handed
  by_cases hq : q = p
  · subst hq
    have hle := (h.start_le q).trans (h.committed_le q)
    simp only [Function.update_self, true_and]
    omega
  · simp [hq]

theorem getElem?_append_of_lt {p q : π} {m : μ} {offset : ℕ} (h : offset < (L.log q).length) :
    ((L.append p m).log q)[offset]? = (L.log q)[offset]? := by
  by_cases hq : q = p
  · subst hq
    simp [append, List.getElem?_append_left h]
  · simp [append, hq]

theorem Ordered.append (h : Ordered L) (p : π) (m : μ) : Ordered (L.append p m) := by
  refine ⟨h.start_le, h.committed_le, ?_⟩
  intro q
  apply (h.position_le q).trans
  by_cases hq : q = p
  · subst hq
    simp [ConsumerLog.append]
  · simp [ConsumerLog.append, hq]

/-- Later messages leave those handed to the process as they were. -/
theorem Ordered.getElem?_append_of_handed (h : Ordered L) (p : π) (m : μ) {q : π} {offset : ℕ}
    (hhanded : L.Handed q offset) : ((L.append p m).log q)[offset]? = (L.log q)[offset]? :=
  getElem?_append_of_lt (lt_of_lt_of_le hhanded.2 (h.position_le q))

theorem AtLeastOnce.append {done : π → ℕ → μ → Prop} (hL : Ordered L) (h : AtLeastOnce done L)
    (p : π) (m : μ) : AtLeastOnce done (L.append p m) := by
  intro q offset m' hlt hget
  have hlen := ((hL.committed_le q).trans (hL.position_le q))
  rw [getElem?_append_of_lt (lt_of_lt_of_le hlt hlen)] at hget
  exact h q offset m' hlt hget

end ConsumerLog

end WebhookRelay.Foundation
