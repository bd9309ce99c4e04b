import Mathlib.Order.Defs.LinearOrder
import Mathlib.Tactic

/-!
# Expiring cells

One key of a cache whose entries may carry an expiry instant, as Redis has
them. A cell is read at an instant of the server's clock; an entry is present
strictly before its expiry instant. Each operation is one atomic command.
-/

namespace WebhookRelay.Foundation

/-- The value of one key and the instant it expires, if it does. -/
structure Cell (τ α : Type) where
  slot : Option (α × Option τ)
  deriving DecidableEq

namespace Cell

variable {τ α : Type} [LinearOrder τ]

/-- The key after `DEL`. -/
def empty : Cell τ α := ⟨none⟩

/-- Whether an entry with this expiry is present at `now`. -/
def alive (expiry : Option τ) (now : τ) : Bool :=
  match expiry with
  | none => true
  | some e => decide (now < e)

/-- `GET`, and the value other commands see. -/
def get (c : Cell τ α) (now : τ) : Option α :=
  match c.slot with
  | none => none
  | some (v, expiry) => if alive expiry now then some v else none

/-- `SET`, which removes an expiry the key had. -/
def set (_ : Cell τ α) (v : α) : Cell τ α := ⟨some (v, none)⟩

/-- `SET ... EX`. -/
def setEx (_ : Cell τ α) (v : α) (expiry : τ) : Cell τ α := ⟨some (v, some expiry)⟩

/-- `SETNX`: whether the key was set, and the key afterwards. -/
def setnx (c : Cell τ α) (now : τ) (v : α) : Bool × Cell τ α :=
  match c.get now with
  | some _ => (false, c)
  | none => (true, ⟨some (v, none)⟩)

/-- `SET ... NX EX`: like `setnx`, with an expiry. -/
def setnxEx (c : Cell τ α) (now : τ) (v : α) (expiry : τ) : Bool × Cell τ α :=
  match c.get now with
  | some _ => (false, c)
  | none => (true, ⟨some (v, some expiry)⟩)

/-- `EXPIRE`: nothing happens to an absent key. -/
def expire (c : Cell τ α) (now : τ) (expiry : τ) : Cell τ α :=
  match c.get now with
  | some v => ⟨some (v, some expiry)⟩
  | none => c

/-- `INCR`: an absent key counts as zero; a present one keeps its expiry. -/
def incr (c : Cell τ ℕ) (now : τ) : ℕ × Cell τ ℕ :=
  match c.slot with
  | none => (1, ⟨some (1, none)⟩)
  | some (n, expiry) =>
      if alive expiry now then (n + 1, ⟨some (n + 1, expiry)⟩) else (1, ⟨some (1, none)⟩)

/-! ## Entries of another type -/

def map {β : Type} (f : α → β) (c : Cell τ α) : Cell τ β := ⟨c.slot.map (fun e => (f e.1, e.2))⟩

/-- The key as one for entries that `f` reads; there is none if it holds
another one. -/
def decode {β : Type} (f : α → Option β) (now : τ) (c : Cell τ α) : Option (Cell τ β) :=
  match c.slot with
  | none => some .empty
  | some (v, expiry) =>
      match f v with
      | some b => some ⟨some (b, expiry)⟩
      | none => if alive expiry now then none else some .empty

@[simp] theorem get_set (c : Cell τ α) (v : α) (now : τ) : (c.set v).get now = some v := rfl

theorem get_expiring (v : α) (expiry now : τ) :
    (⟨some (v, some expiry)⟩ : Cell τ α).get now = if now < expiry then some v else none := by
  simp [get, alive]

theorem get_none_of_slot {c : Cell τ α} (h : c.slot = none) (now : τ) : c.get now = none := by
  simp [get, h]

/-- What is gone stays gone. -/
theorem get_none_of_get_none {c : Cell τ α} {now later : τ} (hle : now ≤ later)
    (h : c.get now = none) :
    c.get later = none := by
  rcases c with ⟨_ | ⟨v, expiry⟩⟩
  · rfl
  · match expiry with
    | none => cases h
    | some e =>
        rw [get_expiring] at h ⊢
        split at h
        · cases h
        · rename_i hexpired
          rw [if_neg (fun hlater => hexpired (lt_of_le_of_lt hle hlater))]

theorem slot_of_get_some {c : Cell τ α} {v : α} {now : τ} (h : c.get now = some v) :
    c.slot.map Prod.fst = some v := by
  rcases c with ⟨_ | ⟨w, expiry⟩⟩
  · cases h
  · unfold get at h
    dsimp only at h
    split at h
    · exact h
    · cases h

section Map

variable {β : Type} {f : α → β}

theorem get_map (c : Cell τ α) (now : τ) : (c.map f).get now = (c.get now).map f := by
  rcases c with ⟨_ | ⟨v, expiry⟩⟩
  · rfl
  · by_cases hal : alive expiry now = true <;> simp [map, get, hal]

theorem setnx_map (c : Cell τ α) (now : τ) (v : α) :
    (c.map f).setnx now (f v) = ((c.setnx now v).1, (c.setnx now v).2.map f) := by
  unfold setnx
  rw [get_map]
  cases c.get now <;> rfl

theorem setnxEx_map (c : Cell τ α) (now : τ) (v : α) (expiry : τ) :
    (c.map f).setnxEx now (f v) expiry =
      ((c.setnxEx now v expiry).1, (c.setnxEx now v expiry).2.map f) := by
  unfold setnxEx
  rw [get_map]
  cases c.get now <;> rfl

theorem expire_map (c : Cell τ α) (now expiry : τ) :
    (c.map f).expire now expiry = (c.expire now expiry).map f := by
  unfold expire
  rw [get_map]
  cases c.get now <;> rfl

theorem decode_map {g : β → Option α} (h : ∀ v, g (f v) = some v) (c : Cell τ α) (now : τ) :
    (c.map f).decode g now = some c := by
  rcases c with ⟨_ | ⟨v, expiry⟩⟩
  · rfl
  · simp [map, decode, h]

end Map

/-! ## Cells without an expiry -/

/-- The entry, if any, never expires. -/
def Lasting (c : Cell τ α) : Prop := ∀ v expiry, c.slot = some (v, expiry) → expiry = none

theorem get_of_lasting {c : Cell τ α} (h : c.Lasting) (now : τ) :
    c.get now = c.slot.map Prod.fst := by
  rcases c with ⟨_ | ⟨v, expiry⟩⟩
  · rfl
  · have hnone : expiry = none := h v expiry rfl
    subst hnone
    rfl

omit [LinearOrder τ] in
theorem lasting_empty : (empty : Cell τ α).Lasting := by
  intro v expiry h
  cases h

omit [LinearOrder τ] in
theorem lasting_set (c : Cell τ α) (v : α) : (c.set v).Lasting := by
  intro w expiry h
  cases h
  rfl

theorem lasting_setnx {c : Cell τ α} (h : c.Lasting) (now : τ) (v : α) :
    (c.setnx now v).2.Lasting := by
  unfold setnx
  split
  · exact h
  · intro w expiry hslot
    cases hslot
    rfl

/-! ## Conditional writes -/

theorem setnx_of_none {c : Cell τ α} {now : τ} {v : α} (h : c.get now = none) :
    c.setnx now v = (true, ⟨some (v, none)⟩) := by
  simp [setnx, h]

theorem setnx_of_some {c : Cell τ α} {now : τ} {v w : α} (h : c.get now = some w) :
    c.setnx now v = (false, c) := by
  simp [setnx, h]

theorem setnxEx_of_none {c : Cell τ α} {now expiry : τ} {v : α} (h : c.get now = none) :
    c.setnxEx now v expiry = (true, ⟨some (v, some expiry)⟩) := by
  simp [setnxEx, h]

theorem setnxEx_of_some {c : Cell τ α} {now expiry : τ} {v w : α} (h : c.get now = some w) :
    c.setnxEx now v expiry = (false, c) := by
  simp [setnxEx, h]

/-! ## Counters -/

theorem incr_fst (c : Cell τ ℕ) (now : τ) : (c.incr now).1 = (c.get now).getD 0 + 1 := by
  rcases c with ⟨_ | ⟨n, expiry⟩⟩
  · rfl
  · by_cases hal : alive expiry now = true
    · simp [incr, get, hal]
    · simp [incr, get, hal]

theorem incr_of_get_none {c : Cell τ ℕ} {now : τ} (h : c.get now = none) :
    c.incr now = (1, ⟨some (1, none)⟩) := by
  rcases c with ⟨_ | ⟨n, expiry⟩⟩
  · rfl
  · have hgone : ¬ alive expiry now = true := by
      intro hal
      simp [get, hal] at h
    simp [incr, hgone]

theorem incr_of_get_some {c : Cell τ ℕ} {now : τ} {n : ℕ} (h : c.get now = some n) :
    ∃ expiry, c.slot = some (n, expiry) ∧ c.incr now = (n + 1, ⟨some (n + 1, expiry)⟩) := by
  rcases c with ⟨_ | ⟨m, expiry⟩⟩
  · cases h
  · by_cases hal : alive expiry now = true
    · obtain rfl : m = n := by simpa [get, hal] using h
      exact ⟨expiry, rfl, by simp [incr, hal]⟩
    · simp [get, hal] at h

/-- `INCR` and then `EXPIRE`: the count starts again once the key has expired. -/
theorem expire_incr (c : Cell τ ℕ) (now expiry : τ) :
    (c.incr now).2.expire now expiry = ⟨some ((c.get now).getD 0 + 1, some expiry)⟩ := by
  rcases c with ⟨_ | ⟨n, old⟩⟩
  · rfl
  · by_cases hal : alive old now = true
    · simp [incr, get, expire, hal]
    · simp [incr, get, expire, hal, show alive (none : Option τ) now = true from rfl]

/-- `EXPIRE` of a key that had none. -/
theorem expire_of_lasting {c : Cell τ α} {v : α} (h : c.slot = some (v, none)) (now expiry : τ) :
    c.expire now expiry = ⟨some (v, some expiry)⟩ := by
  simp [expire, get, h, alive]

theorem get_none_of_expiry_le {c : Cell τ α} {v : α} {now expiry : τ}
    (h : c.slot = some (v, some expiry)) (hle : expiry ≤ now) : c.get now = none := by
  simp [get, h, alive, hle]

/-- An absent key that holds an entry holds an expired one. -/
theorem expiry_le_of_get_none {c : Cell τ α} {now expiry : τ} {v : α} (h : c.get now = none)
    (hslot : c.slot = some (v, some expiry)) : expiry ≤ now := by
  unfold get at h
  rw [hslot] at h
  simpa [alive] using h

end Cell

end WebhookRelay.Foundation
