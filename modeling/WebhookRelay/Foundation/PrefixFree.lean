import Mathlib.Data.List.Infix
import Mathlib.Tactic

/-!
# Texts told apart by their ends

A family of texts of which none begins with another can stand in front of
anything: both parts can be read off the whole. So can a family of which none
ends with another, behind anything.
-/

namespace WebhookRelay.Foundation

variable {ι α : Type} {f : ι → List α} {i j : ι} {x y : List α}

def PrefixFree (f : ι → List α) : Prop := ∀ i j, f i <+: f j → i = j

def SuffixFree (f : ι → List α) : Prop := ∀ i j, f i <:+ f j → i = j

theorem PrefixFree.append_inj (hf : PrefixFree f) (h : f i ++ x = f j ++ y) : i = j ∧ x = y := by
  have hfirst : f i <+: f i ++ x := List.prefix_append _ _
  have hsecond : f j <+: f i ++ x := h ▸ List.prefix_append _ _
  obtain rfl : i = j := by
    rcases List.prefix_or_prefix_of_prefix hfirst hsecond with hpre | hpre
    · exact hf i j hpre
    · exact (hf j i hpre).symm
  exact ⟨rfl, List.append_cancel_left h⟩

theorem SuffixFree.append_inj (hf : SuffixFree f) (h : x ++ f i = y ++ f j) : x = y ∧ i = j := by
  have hfirst : f i <:+ x ++ f i := List.suffix_append _ _
  have hsecond : f j <:+ x ++ f i := h ▸ List.suffix_append _ _
  obtain rfl : i = j := by
    rcases List.suffix_or_suffix_of_suffix hfirst hsecond with hsuf | hsuf
    · exact hf i j hsuf
    · exact (hf j i hsuf).symm
  exact ⟨List.append_cancel_right h, rfl⟩

end WebhookRelay.Foundation
