import Mathlib.Data.BitVec
import Mathlib.Order.Basic
import Mathlib.Tactic.Common

/-!
# Address blocks

A network is the block of the addresses that agree with its own on the first
`length` bits. Two networks are nested or disjoint: whether they share an
address can be told from their own addresses.
-/

namespace WebhookRelay

structure Network (w : ℕ) where
  address : BitVec w
  length : ℕ
  deriving DecidableEq

namespace Network

variable {w : ℕ}

def netmask (n : Network w) : BitVec w := BitVec.allOnes w <<< (w - n.length)

def Contains (n : Network w) (a : BitVec w) : Prop := a &&& n.netmask = n.address

instance (n : Network w) (a : BitVec w) : Decidable (n.Contains a) :=
  inferInstanceAs (Decidable (_ = _))

/-- One of the two holds the other's own address. -/
def Overlaps (n m : Network w) : Prop := n.Contains m.address ∨ m.Contains n.address

instance (n m : Network w) : Decidable (n.Overlaps m) :=
  inferInstanceAs (Decidable (_ ∨ _))

/-- The shorter mask is the part both masks have. -/
theorem netmask_and_netmask {n m : Network w} (h : n.length ≤ m.length) :
    m.netmask &&& n.netmask = n.netmask := by
  unfold netmask
  ext i hi
  simp only [BitVec.getElem_and, BitVec.getElem_shiftLeft, BitVec.getElem_allOnes]
  by_cases hlow : i < w - n.length
  · simp [hlow]
  · have hlow' : ¬ i < w - m.length := by omega
    simp [hlow, hlow']

theorem contains_address_of_le {n m : Network w} {a : BitVec w} (h : n.length ≤ m.length)
    (hn : n.Contains a) (hm : m.Contains a) : n.Contains m.address := by
  unfold Contains at hn hm ⊢
  rw [← hm, BitVec.and_assoc, netmask_and_netmask h, hn]

/-- Networks with an address in common overlap. -/
theorem overlaps_of_contains {n m : Network w} {a : BitVec w} (hn : n.Contains a)
    (hm : m.Contains a) : n.Overlaps m := by
  rcases Nat.le_total n.length m.length with h | h
  · exact Or.inl (contains_address_of_le h hn hm)
  · exact Or.inr (contains_address_of_le h hm hn)

/-- What lies in a network lies in none of the networks apart from it. -/
theorem not_contains_of_forall_not_overlaps {n : Network w} {networks : List (Network w)}
    {a : BitVec w} (ha : n.Contains a) (h : ∀ m ∈ networks, ¬ n.Overlaps m) :
    ∀ m ∈ networks, ¬ m.Contains a := by
  intro m hm hcontains
  exact h m hm (overlaps_of_contains ha hcontains)

/-- `any(a in network for network in networks)`. -/
def covers (networks : List (Network w)) (a : BitVec w) : Bool :=
  networks.any (fun n => n.Contains a)

theorem covers_eq_false_iff {networks : List (Network w)} {a : BitVec w} :
    covers networks a = false ↔ ∀ n ∈ networks, ¬ n.Contains a := by
  unfold covers
  rw [List.any_eq_false]
  simp only [decide_eq_true_eq]

theorem covers_of_mem {n : Network w} {networks : List (Network w)} {a : BitVec w}
    (hn : n ∈ networks) (ha : n.Contains a) : covers networks a = true := by
  unfold covers
  rw [List.any_eq_true]
  exact ⟨n, hn, decide_eq_true ha⟩

theorem covers_eq_false_of_apart {n : Network w} {networks : List (Network w)} {a : BitVec w}
    (ha : n.Contains a) (h : ∀ m ∈ networks, ¬ n.Overlaps m) : covers networks a = false :=
  covers_eq_false_iff.mpr (not_contains_of_forall_not_overlaps ha h)

end Network

end WebhookRelay
