import Mathlib.Data.List.Basic
import Mathlib.Data.List.Nodup
import Mathlib.Logic.Function.Basic
import Mathlib.Tactic
import WebhookRelay.Foundation.Rows

/-!
# Transactions holding row locks

A table of rows with a key, and transactions that lock rows with
`SELECT ... FOR UPDATE SKIP LOCKED`, write new versions of rows they hold,
and commit or abort. The committed table is a list of rows; a transaction's
writes stay staged until it commits. `WellLocked` is what every operation
keeps: no row is held twice, and a held row is still the committed version
its holder loaded.
-/

namespace WebhookRelay.Foundation

variable {ξ ι ρ : Type}

/-- Lock table, and per transaction the rows it holds, as loaded, and the new
versions it has written. -/
structure RowLocks (ξ ι ρ : Type) where
  table : List ι
  held : ξ → List ρ
  staged : ξ → List ρ

namespace RowLocks

def empty : RowLocks ξ ι ρ := ⟨[], fun _ => [], fun _ => []⟩

/-- The locks `SELECT ... FOR UPDATE` takes on the rows it returns. -/
def lock [DecidableEq ξ] (key : ρ → ι) (L : RowLocks ξ ι ρ) (x : ξ) (batch : List ρ) :
    RowLocks ξ ι ρ where
  table := batch.map key ++ L.table
  held := Function.update L.held x batch
  staged := Function.update L.staged x []

def stage [DecidableEq ξ] (L : RowLocks ξ ι ρ) (x : ξ) (r : ρ) : RowLocks ξ ι ρ :=
  { L with staged := Function.update L.staged x (L.staged x ++ [r]) }

/-- The end of a transaction: its locks are gone. -/
def release [DecidableEq ξ] [DecidableEq ι] (key : ρ → ι) (L : RowLocks ξ ι ρ) (x : ξ) :
    RowLocks ξ ι ρ where
  table := L.table.filter (fun k => k ∉ (L.held x).map key)
  held := Function.update L.held x []
  staged := Function.update L.staged x []

/-- The table once the new versions `writes` are committed. -/
def write [DecidableEq ι] (key : ρ → ι) (writes rows : List ρ) : List ρ :=
  rows.map (fun r => (writes.find? (fun w => key w = key r)).getD r)

variable {key : ρ → ι} {rows : List ρ} {L : RowLocks ξ ι ρ}

/-! ## What each transaction holds and has staged -/

section

variable [DecidableEq ξ] {x y : ξ} {batch : List ρ} {r : ρ}

@[simp] theorem held_lock_self : (L.lock key x batch).held x = batch :=
  Function.update_self _ _ _

@[simp] theorem held_lock_of_ne (hy : y ≠ x) : (L.lock key x batch).held y = L.held y :=
  Function.update_of_ne hy _ _

@[simp] theorem staged_lock_self : (L.lock key x batch).staged x = [] :=
  Function.update_self _ _ _

@[simp] theorem staged_lock_of_ne (hy : y ≠ x) : (L.lock key x batch).staged y = L.staged y :=
  Function.update_of_ne hy _ _

@[simp] theorem held_stage : (L.stage x r).held = L.held := rfl

@[simp] theorem staged_stage_self : (L.stage x r).staged x = L.staged x ++ [r] :=
  Function.update_self _ _ _

@[simp] theorem staged_stage_of_ne (hy : y ≠ x) : (L.stage x r).staged y = L.staged y :=
  Function.update_of_ne hy _ _

variable [DecidableEq ι]

@[simp] theorem held_release_self : (L.release key x).held x = [] :=
  Function.update_self _ _ _

@[simp] theorem held_release_of_ne (hy : y ≠ x) : (L.release key x).held y = L.held y :=
  Function.update_of_ne hy _ _

@[simp] theorem staged_release_self : (L.release key x).staged x = [] :=
  Function.update_self _ _ _

@[simp] theorem staged_release_of_ne (hy : y ≠ x) : (L.release key x).staged y = L.staged y :=
  Function.update_of_ne hy _ _

/-- Releasing `x` leaves nothing with it. -/
theorem ne_of_held_release (h : (L.release key x).held y ≠ []) : y ≠ x ∧ L.held y ≠ [] := by
  have hy : y ≠ x := by
    rintro rfl
    exact h held_release_self
  rw [held_release_of_ne hy] at h
  exact ⟨hy, h⟩

end

/-! ## Writing back -/

section

variable [DecidableEq ι]

theorem key_write (r : ρ) (writes : List ρ) :
    key ((writes.find? (fun w => key w = key r)).getD r) = key r := by
  cases h : writes.find? (fun w => key w = key r) with
  | none => rfl
  | some w => simpa using List.find?_some h

theorem map_key_write (writes rows : List ρ) :
    (write key writes rows).map key = rows.map key := by
  unfold write
  rw [List.map_map]
  exact List.map_congr_left (fun r _ => key_write r writes)

/-- A row no write is about is left alone. -/
theorem mem_write_of_unwritten {writes : List ρ} {r : ρ} (hr : r ∈ rows)
    (h : ∀ w ∈ writes, key w ≠ key r) : r ∈ write key writes rows := by
  refine List.mem_map.mpr ⟨r, hr, ?_⟩
  have hnone : writes.find? (fun w => key w = key r) = none := by
    rw [List.find?_eq_none]
    intro w hw
    simpa using h w hw
  rw [hnone]
  rfl

/-- A row of the new table is a write, or an old row no write is about. -/
theorem mem_write {writes : List ρ} {r : ρ} (h : r ∈ write key writes rows) :
    (r ∈ writes ∧ ∃ old ∈ rows, key old = key r) ∨
      (r ∈ rows ∧ ∀ w ∈ writes, key w ≠ key r) := by
  obtain ⟨old, hold, rfl⟩ := List.mem_map.mp h
  cases hfind : writes.find? (fun w => key w = key old) with
  | none =>
      refine Or.inr ⟨hold, ?_⟩
      intro w hw
      simpa using (List.find?_eq_none.mp hfind) w hw
  | some w =>
      have hkey : key w = key old := by simpa using List.find?_some hfind
      exact Or.inl ⟨List.mem_of_find?_eq_some hfind, old, hold, hkey.symm⟩

/-- With one write per key, each write about an existing row is in the new
table. -/
theorem mem_write_of_mem {writes : List ρ} (nodup : (writes.map key).Nodup) {w r : ρ}
    (hw : w ∈ writes) (hr : r ∈ rows) (hkey : key w = key r) : w ∈ write key writes rows := by
  refine List.mem_map.mpr ⟨r, hr, ?_⟩
  cases hfind : writes.find? (fun v => key v = key r) with
  | none => exact absurd hkey (by simpa using (List.find?_eq_none.mp hfind) w hw)
  | some v =>
      have hv : key v = key r := by simpa using List.find?_some hfind
      exact List.inj_on_of_nodup_map nodup (List.mem_of_find?_eq_some hfind) hw
        (hv.trans hkey.symm)

/-- Writing the image of some of the table's rows rewrites exactly those. -/
theorem write_map {f : ρ → ρ} (hf : ∀ r, key (f r) = key r) (nodup : (rows.map key).Nodup)
    {batch : List ρ} (sub : ∀ r ∈ batch, r ∈ rows) :
    write key (batch.map f) rows =
      rows.map (fun r => if key r ∈ batch.map key then f r else r) := by
  refine List.map_congr_left (fun r hr => ?_)
  have same : ∀ b ∈ batch, key b = key r → b = r := fun b hb hkey =>
    List.inj_on_of_nodup_map nodup (sub b hb) hr hkey
  cases hfind : (batch.map f).find? (fun w => key w = key r) with
  | none =>
      rw [if_neg]
      · rfl
      · intro hmem
        obtain ⟨b, hb, hkey⟩ := List.mem_map.mp hmem
        have := (List.find?_eq_none.mp hfind) (f b) (List.mem_map_of_mem hb)
        exact this (by simpa [hf] using hkey)
  | some w =>
      have hw : key w = key r := by simpa using List.find?_some hfind
      obtain ⟨b, hb, rfl⟩ := List.mem_map.mp (List.mem_of_find?_eq_some hfind)
      rw [hf] at hw
      rw [if_pos (List.mem_map.mpr ⟨b, hb, hw⟩), same b hb hw]
      rfl

end

/-! ## The invariant -/

structure WellLocked (key : ρ → ι) (rows : List ρ) (L : RowLocks ξ ι ρ) : Prop where
  rows_nodup : (rows.map key).Nodup
  held_mem : ∀ x, ∀ r ∈ L.held x, r ∈ rows
  held_nodup : ∀ x, ((L.held x).map key).Nodup
  held_disjoint : ∀ x y, x ≠ y → ∀ r ∈ L.held x, ∀ r' ∈ L.held y, key r ≠ key r'
  mem_table : ∀ k, k ∈ L.table ↔ ∃ x, ∃ r ∈ L.held x, key r = k
  staged_held : ∀ x, ∀ w ∈ L.staged x, ∃ r ∈ L.held x, key r = key w

/-- Two committed rows with one key are the same row. -/
theorem WellLocked.row_unique (h : WellLocked key rows L) {r r' : ρ} (hr : r ∈ rows)
    (hr' : r' ∈ rows) (hkey : key r = key r') : r = r' :=
  List.inj_on_of_nodup_map h.rows_nodup hr hr' hkey

/-- A row is held by at most one transaction. -/
theorem WellLocked.holder_unique (h : WellLocked key rows L) {x y : ξ} {r r' : ρ}
    (hr : r ∈ L.held x) (hr' : r' ∈ L.held y) (hkey : key r = key r') : x = y := by
  by_contra hne
  exact h.held_disjoint x y hne r hr r' hr' hkey

theorem wellLocked_empty (nodup : (rows.map key).Nodup) :
    WellLocked key rows (empty : RowLocks ξ ι ρ) := by
  refine ⟨nodup, ?_, ?_, ?_, ?_, ?_⟩ <;> simp [empty]

theorem WellLocked.insert (h : WellLocked key rows L) {r : ρ} (fresh : key r ∉ rows.map key) :
    WellLocked key (rows ++ [r]) L := by
  refine ⟨?_, ?_, h.held_nodup, h.held_disjoint, h.mem_table, h.staged_held⟩
  · rw [List.map_append, List.nodup_append]
    refine ⟨h.rows_nodup, by simp, ?_⟩
    intro k hk k' hk' heq
    simp only [List.map_cons, List.map_nil, List.mem_singleton] at hk'
    exact fresh (hk' ▸ heq ▸ hk)
  · intro x r' hr'
    exact List.mem_append_left _ (h.held_mem x r' hr')

/-- An update of a row that nobody holds. -/
theorem WellLocked.put [DecidableEq ι] (h : WellLocked key rows L) {r : ρ}
    (free : key r ∉ L.table) : WellLocked key (Rows.put key r rows) L := by
  refine ⟨?_, ?_, h.held_nodup, h.held_disjoint, h.mem_table, h.staged_held⟩
  · rw [Rows.map_key_put]
    exact h.rows_nodup
  · intro x r' hr'
    apply Rows.mem_put_of_ne (h.held_mem x r' hr')
    intro heq
    exact free ((h.mem_table _).mpr ⟨x, r', hr', heq⟩)

section

variable [DecidableEq ξ]

theorem WellLocked.lock (h : WellLocked key rows L) {x : ξ} {batch : List ρ}
    (idle : L.held x = []) (sub : ∀ r ∈ batch, r ∈ rows)
    (skip : ∀ r ∈ batch, key r ∉ L.table) (nodup : (batch.map key).Nodup) :
    WellLocked key rows (L.lock key x batch) := by
  -- the batch skipped every row that was locked
  have free : ∀ y, ∀ r' ∈ L.held y, ∀ r ∈ batch, key r ≠ key r' := by
    intro y r' hr' r hr heq
    exact skip r hr ((h.mem_table _).mpr ⟨y, r', hr', heq.symm⟩)
  refine ⟨h.rows_nodup, ?_, ?_, ?_, ?_, ?_⟩
  · intro y r hr
    by_cases hy : y = x
    · subst hy
      rw [held_lock_self] at hr
      exact sub r hr
    · rw [held_lock_of_ne hy] at hr
      exact h.held_mem y r hr
  · intro y
    by_cases hy : y = x
    · subst hy
      rwa [held_lock_self]
    · rw [held_lock_of_ne hy]
      exact h.held_nodup y
  · intro y z hyz r hr r' hr'
    by_cases hy : y = x
    · subst hy
      rw [held_lock_self] at hr
      rw [held_lock_of_ne (Ne.symm hyz)] at hr'
      exact free z r' hr' r hr
    · rw [held_lock_of_ne hy] at hr
      by_cases hz : z = x
      · subst hz
        rw [held_lock_self] at hr'
        exact (free y r hr r' hr').symm
      · rw [held_lock_of_ne hz] at hr'
        exact h.held_disjoint y z hyz r hr r' hr'
  · intro k
    constructor
    · intro hk
      rcases List.mem_append.mp hk with hk | hk
      · obtain ⟨r, hr, rfl⟩ := List.mem_map.mp hk
        exact ⟨x, r, by rwa [held_lock_self], rfl⟩
      -- `x` held nothing, so that the older locks are those of others
      · obtain ⟨y, r, hr, rfl⟩ := (h.mem_table k).mp hk
        have hy : y ≠ x := by
          rintro rfl
          rw [idle] at hr
          cases hr
        exact ⟨y, r, by rwa [held_lock_of_ne hy], rfl⟩
    · rintro ⟨y, r, hr, rfl⟩
      by_cases hy : y = x
      · subst hy
        rw [held_lock_self] at hr
        exact List.mem_append_left _ (List.mem_map_of_mem hr)
      · rw [held_lock_of_ne hy] at hr
        exact List.mem_append_right _ ((h.mem_table _).mpr ⟨y, r, hr, rfl⟩)
  · intro y w hw
    by_cases hy : y = x
    · subst hy
      rw [staged_lock_self] at hw
      cases hw
    · rw [held_lock_of_ne hy]
      rw [staged_lock_of_ne hy] at hw
      exact h.staged_held y w hw

theorem WellLocked.stage (h : WellLocked key rows L) {x : ξ} {r w : ρ} (hr : r ∈ L.held x)
    (hkey : key r = key w) : WellLocked key rows (L.stage x w) := by
  refine ⟨h.rows_nodup, h.held_mem, h.held_nodup, h.held_disjoint, h.mem_table, ?_⟩
  intro y v hv
  by_cases hy : y = x
  · subst hy
    rw [staged_stage_self, List.mem_append, List.mem_singleton] at hv
    rcases hv with hv | rfl
    · exact h.staged_held y v hv
    · exact ⟨r, hr, hkey⟩
  · rw [staged_stage_of_ne hy] at hv
    exact h.staged_held y v hv

variable [DecidableEq ι]

/-- Releasing one transaction's locks, over a table that keeps the rows the
others hold. -/
theorem WellLocked.release (h : WellLocked key rows L) (x : ξ) {rows' : List ρ}
    (nodup : (rows'.map key).Nodup)
    (keep : ∀ y, y ≠ x → ∀ r ∈ L.held y, r ∈ rows') :
    WellLocked key rows' (L.release key x) := by
  refine ⟨nodup, ?_, ?_, ?_, ?_, ?_⟩
  · intro y r hr
    by_cases hy : y = x
    · subst hy
      simp at hr
    · rw [held_release_of_ne hy] at hr
      exact keep y hy r hr
  · intro y
    by_cases hy : y = x
    · subst hy
      simp
    · rw [held_release_of_ne hy]
      exact h.held_nodup y
  · intro y z hyz r hr r' hr'
    by_cases hy : y = x
    · subst hy
      simp at hr
    · by_cases hz : z = x
      · subst hz
        simp at hr'
      · rw [held_release_of_ne hy] at hr
        rw [held_release_of_ne hz] at hr'
        exact h.held_disjoint y z hyz r hr r' hr'
  · intro k
    show k ∈ L.table.filter _ ↔ _
    simp only [List.mem_filter, decide_eq_true_eq, h.mem_table]
    constructor
    · rintro ⟨⟨y, r, hr, rfl⟩, hnot⟩
      have hy : y ≠ x := by
        rintro rfl
        exact hnot (List.mem_map_of_mem hr)
      exact ⟨y, r, by rwa [held_release_of_ne hy], rfl⟩
    -- what another holds is not among the rows of `x`
    · rintro ⟨y, r, hr, rfl⟩
      by_cases hy : y = x
      · subst hy
        simp at hr
      · rw [held_release_of_ne hy] at hr
        refine ⟨⟨y, r, hr, rfl⟩, ?_⟩
        intro hmem
        obtain ⟨r', hr', heq⟩ := List.mem_map.mp hmem
        exact h.held_disjoint x y (Ne.symm hy) r' hr' r hr heq
  · intro y w hw
    by_cases hy : y = x
    · subst hy
      simp at hw
    · rw [held_release_of_ne hy]
      rw [staged_release_of_ne hy] at hw
      exact h.staged_held y w hw

theorem WellLocked.abort (h : WellLocked key rows L) (x : ξ) :
    WellLocked key rows (L.release key x) :=
  h.release x h.rows_nodup (fun y _ => h.held_mem y)

theorem WellLocked.commit (h : WellLocked key rows L) (x : ξ) :
    WellLocked key (write key (L.staged x) rows) (L.release key x) := by
  refine h.release x ?_ ?_
  · rw [map_key_write]
    exact h.rows_nodup
  · intro y hy r hr
    apply mem_write_of_unwritten (h.held_mem y r hr)
    intro w hw heq
    obtain ⟨r', hr', hkey⟩ := h.staged_held x w hw
    exact h.held_disjoint x y (Ne.symm hy) r' hr' r hr (hkey.trans heq)

end

/-- A commit leaves every row its transaction does not hold as it was. -/
theorem WellLocked.mem_commit_of_unheld [DecidableEq ι] (h : WellLocked key rows L) {x : ξ}
    {r : ρ} (hr : r ∈ rows) (unheld : ∀ r' ∈ L.held x, key r' ≠ key r) :
    r ∈ write key (L.staged x) rows := by
  apply mem_write_of_unwritten hr
  intro w hw heq
  obtain ⟨r', hr', hkey⟩ := h.staged_held x w hw
  exact unheld r' hr' (hkey.trans heq)

/-- Rows that nobody holds may change. -/
theorem WellLocked.rows_congr (h : WellLocked key rows L) {rows' : List ρ}
    (hkeys : rows'.map key = rows.map key)
    (hsame : ∀ r ∈ rows, key r ∈ L.table → r ∈ rows') : WellLocked key rows' L := by
  refine ⟨hkeys ▸ h.rows_nodup, ?_, h.held_nodup, h.held_disjoint, h.mem_table, h.staged_held⟩
  intro x r hr
  exact hsame r (h.held_mem x r hr) ((h.mem_table _).mpr ⟨x, r, hr, rfl⟩)

/-! ## Columns no transaction writes

`facts` are columns that determine the key. If every version a transaction has
loaded or staged agrees with the table on them, a commit leaves them alone. -/

variable {φ : Type} {facts : ρ → φ}

def Keeps (facts : ρ → φ) (rows : List ρ) (L : RowLocks ξ ι ρ) : Prop :=
  ∀ x, (∀ w ∈ L.held x, facts w ∈ rows.map facts) ∧ ∀ w ∈ L.staged x, facts w ∈ rows.map facts

theorem keeps_empty (rows : List ρ) : Keeps facts rows (empty : RowLocks ξ ι ρ) := by
  intro x
  constructor <;> simp [empty]

theorem Keeps.mono (h : Keeps facts rows L) {rows' : List ρ}
    (hsub : ∀ f ∈ rows.map facts, f ∈ rows'.map facts) : Keeps facts rows' L :=
  fun x => ⟨fun w hw => hsub _ ((h x).1 w hw), fun w hw => hsub _ ((h x).2 w hw)⟩

theorem Keeps.lock [DecidableEq ξ] (h : Keeps facts rows L) {x : ξ} {batch : List ρ}
    (sub : ∀ r ∈ batch, r ∈ rows) : Keeps facts rows (L.lock key x batch) := by
  intro y
  by_cases hy : y = x
  · subst hy
    rw [held_lock_self, staged_lock_self]
    refine ⟨fun w hw => List.mem_map_of_mem (sub w hw), ?_⟩
    intro w hw
    cases hw
  · rw [held_lock_of_ne hy, staged_lock_of_ne hy]
    exact h y

theorem Keeps.stage [DecidableEq ξ] (h : Keeps facts rows L) {x : ξ} {w : ρ}
    (hw : facts w ∈ rows.map facts) : Keeps facts rows (L.stage x w) := by
  intro y
  refine ⟨(h y).1, ?_⟩
  by_cases hy : y = x
  · subst hy
    rw [staged_stage_self]
    intro v hv
    rcases List.mem_append.mp hv with hold | hnew
    · exact (h y).2 v hold
    · rw [List.mem_singleton.mp hnew]
      exact hw
  · rw [staged_stage_of_ne hy]
    exact (h y).2

theorem Keeps.release [DecidableEq ξ] [DecidableEq ι] (h : Keeps facts rows L) (x : ξ) :
    Keeps facts rows (L.release key x) := by
  intro y
  by_cases hy : y = x
  · subst hy
    rw [held_release_self, staged_release_self]
    constructor <;> simp
  · rw [held_release_of_ne hy, staged_release_of_ne hy]
    exact h y

theorem Keeps.map_commit [DecidableEq ι] (h : Keeps facts rows L)
    (hkey : ∀ a b, facts a = facts b → key a = key b) (nodup : (rows.map key).Nodup) (x : ξ) :
    (write key (L.staged x) rows).map facts = rows.map facts := by
  unfold write
  rw [List.map_map]
  apply List.map_congr_left
  intro r hr
  show facts (((L.staged x).find? (fun w => key w = key r)).getD r) = facts r
  match hfind : (L.staged x).find? (fun w => key w = key r) with
  | none => rfl
  | some w =>
      have hw : key w = key r := by simpa using List.find?_some hfind
      obtain ⟨old, hold, hfacts⟩ := List.mem_map.mp ((h x).2 w (List.mem_of_find?_eq_some hfind))
      have hsame : old = r := Rows.eq_of_key_eq nodup hold hr ((hkey _ _ hfacts).trans hw)
      exact hsame ▸ hfacts.symm

/-- What a transaction has staged agrees with the row it has loaded. -/
def StagedLike (facts : ρ → φ) (L : RowLocks ξ ι ρ) : Prop :=
  ∀ x, ∀ w ∈ L.staged x, ∃ r ∈ L.held x, facts r = facts w

theorem stagedLike_empty : StagedLike facts (empty : RowLocks ξ ι ρ) := by
  intro x w hw
  cases hw

theorem StagedLike.lock [DecidableEq ξ] (h : StagedLike facts L) {x : ξ} {batch : List ρ} :
    StagedLike facts (L.lock key x batch) := by
  intro y w hw
  by_cases hy : y = x
  · subst hy
    rw [staged_lock_self] at hw
    cases hw
  · rw [staged_lock_of_ne hy] at hw
    rw [held_lock_of_ne hy]
    exact h y w hw

theorem StagedLike.stage [DecidableEq ξ] (h : StagedLike facts L) {x : ξ} {r w : ρ}
    (hr : r ∈ L.held x) (hfacts : facts r = facts w) : StagedLike facts (L.stage x w) := by
  intro y v hv
  by_cases hy : y = x
  · subst hy
    rw [staged_stage_self] at hv
    rcases List.mem_append.mp hv with hold | hnew
    · exact h y v hold
    · rw [List.mem_singleton.mp hnew]
      exact ⟨r, hr, hfacts⟩
  · rw [staged_stage_of_ne hy] at hv
    exact h y v hv

theorem StagedLike.release [DecidableEq ξ] [DecidableEq ι] (h : StagedLike facts L) (x : ξ) :
    StagedLike facts (L.release key x) := by
  intro y w hw
  by_cases hy : y = x
  · subst hy
    rw [staged_release_self] at hw
    cases hw
  · rw [staged_release_of_ne hy] at hw
    rw [held_release_of_ne hy]
    exact h y w hw

/-- Loaded rows are as the table has them, so what is staged like them is too. -/
theorem StagedLike.keeps (h : StagedLike facts L) (hlocked : WellLocked key rows L) :
    Keeps facts rows L := by
  intro x
  refine ⟨fun w hw => List.mem_map_of_mem (hlocked.held_mem x w hw), ?_⟩
  intro w hw
  obtain ⟨r, hr, hfacts⟩ := h x w hw
  exact hfacts ▸ List.mem_map_of_mem (hlocked.held_mem x r hr)

end RowLocks

end WebhookRelay.Foundation
