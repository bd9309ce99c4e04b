import Mathlib.Data.List.Basic
import Mathlib.Tactic
import WebhookRelay.Foundation.Fallible

/-!
# Readers

A reader takes a value off the front of a text and leaves the rest. `Reads`
says of one text that it is read as one value, whatever comes behind it, as
long as that does not belong to the text: it is what a writer and a reader of
a format have to agree on, piece by piece. `readItems` is the loop over the
items of a bracketed list, and `reads_joined` its rule.
-/

namespace WebhookRelay.Foundation

open Fallible

variable {α β ε : Type}

abbrev Reader (α ε β : Type) := List α → Except ε (β × List α)

/-- In front of anything that `ok` allows, `text` is read as `b`. -/
def Reads (read : Reader α ε β) (ok : List α → Prop) (text : List α) (b : β) : Prop :=
  ∀ rest, ok rest → read (text ++ rest) = .ok (b, rest)

/-- The reader takes something off every text it reads. -/
def Consumes (read : Reader α ε β) : Prop :=
  ∀ text b rest, read text = .ok (b, rest) → rest.length < text.length

/-- Every value the reader comes to is such a value. -/
def Yields (read : Reader α ε β) (P : β → Prop) : Prop :=
  ∀ text b rest, read text = .ok (b, rest) → P b

/-- What the one reads, the other reads as well. -/
def ReadsMore (read' read : Reader α ε β) : Prop :=
  ∀ text r, read text = .ok r → read' text = .ok r

/-! ## Items and what stands between them -/

/-- Items one after another. `more` looks at what follows an item: it takes
the separator and says that another comes, or takes the closing bracket. -/
def readItems (read : Reader α ε β) (more : Reader α ε Bool) (short : ε) :
    ℕ → Reader α ε (List β)
  | 0, _ => .error short
  | fuel + 1, text => do
      let (b, text) ← read text
      let (another, text) ← more text
      if another then
        let (bs, text) ← readItems read more short fuel text
        return (b :: bs, text)
      else return ([b], text)

/-- The texts with `sep` between them and `close` at the end. -/
def joined (sep close : List α) : List (List α) → List α
  | [] => close
  | [text] => text ++ close
  | text :: next :: rest => text ++ (sep ++ joined sep close (next :: rest))

variable {read : Reader α ε β} {more : Reader α ε Bool} {short : ε} {ok : List α → Prop}
  {sep close : List α}

/-- The first text stands in front. -/
theorem exists_joined_eq (sep close text : List α) (texts : List (List α)) (rest : List α) :
    ∃ tail, joined sep close (text :: texts) ++ rest = text ++ tail := by
  cases texts with
  | nil => exact ⟨close ++ rest, by simp [joined]⟩
  | cons next texts =>
      refine ⟨sep ++ (joined sep close (next :: texts) ++ rest), ?_⟩
      simp only [joined, List.append_assoc]

/-- The rule of the loop, for items that `more` tells from the closing
bracket. -/
theorem reads_joined (short : ε) (hsep : ∀ rest, ok (sep ++ rest)) (hclose : ∀ rest, ok (close ++ rest))
    (hend : ∀ rest, more (close ++ rest) = .ok (false, rest)) {text : List α} {b : β}
    {texts : List (List α)} {bs : List β} (hfirst : Reads read ok text b)
    (hothers : List.Forall₂ (Reads read ok) texts bs)
    (hmore : ∀ next ∈ texts, ∀ rest, more (sep ++ (next ++ rest)) = .ok (true, next ++ rest))
    {fuel : ℕ} (hfuel : texts.length < fuel) :
    Reads (readItems read more short fuel) (fun _ => True) (joined sep close (text :: texts))
      (b :: bs) := by
  induction hothers generalizing text b fuel with
  | nil =>
      obtain ⟨fuel, rfl⟩ := Nat.exists_eq_add_one.mpr (Nat.lt_of_le_of_lt (Nat.zero_le _) hfuel)
      intro rest _
      have hitem := hfirst (close ++ rest) (hclose rest)
      simp only [joined, List.append_assoc, readItems, hitem, ok_bind, hend]
      rfl
  | @cons next c texts bs hnext _ ih =>
      obtain ⟨fuel, rfl⟩ := Nat.exists_eq_add_one.mpr (Nat.lt_of_le_of_lt (Nat.zero_le _) hfuel)
      intro rest _
      have hrest := ih hnext (fun t ht => hmore t (List.mem_cons_of_mem _ ht))
        (Nat.lt_of_succ_lt_succ hfuel) rest trivial
      obtain ⟨tail, htail⟩ := exists_joined_eq sep close next texts rest
      have hitem := hfirst (sep ++ (joined sep close (next :: texts) ++ rest)) (hsep _)
      have hanother := hmore next List.mem_cons_self tail
      rw [← htail] at hanother
      simp only [joined, List.append_assoc, readItems, hitem, ok_bind, hanother, if_true]
      rw [hrest]
      rfl

/-- A list of what its items are. -/
theorem yields_readItems {P : β → Prop} (h : Yields read P) (fuel : ℕ) :
    Yields (readItems read more short fuel) (fun bs => ∀ b ∈ bs, P b) := by
  induction fuel with
  | zero =>
      intro text bs rest hbs
      cases hbs
  | succ fuel ih =>
      intro text bs rest hbs
      rw [readItems, bind_eq_ok_iff] at hbs
      obtain ⟨⟨b, behind⟩, hfirst, hbs⟩ := hbs
      rw [bind_eq_ok_iff] at hbs
      obtain ⟨⟨another, left⟩, _, hbs⟩ := hbs
      have hb := h text b behind hfirst
      dsimp only at hbs
      split at hbs
      · obtain ⟨⟨others, last⟩, hothers, hend⟩ := bind_eq_ok_iff.mp hbs
        cases hend
        exact List.forall_mem_cons.mpr ⟨hb, ih left others last hothers⟩
      · cases hbs
        exact List.forall_mem_singleton.mpr hb

/-- With a reader of the items that reads more, the loop reads more. -/
theorem readsMore_readItems {read' : Reader α ε β} (h : ReadsMore read' read) (fuel : ℕ) :
    ReadsMore (readItems read' more short fuel) (readItems read more short fuel) := by
  induction fuel with
  | zero =>
      intro text r hr
      cases hr
  | succ fuel ih =>
      intro text r hr
      rw [readItems, bind_eq_ok_iff] at hr
      obtain ⟨⟨b, behind⟩, hfirst, hr⟩ := hr
      rw [bind_eq_ok_iff] at hr
      obtain ⟨⟨another, left⟩, hmore, hr⟩ := hr
      simp only [readItems, h text _ hfirst, ok_bind, hmore]
      dsimp only at hr
      split at hr
      · rename_i hanother
        obtain ⟨⟨others, last⟩, hothers, hend⟩ := bind_eq_ok_iff.mp hr
        rw [if_pos hanother, ih _ _ hothers]
        exact hend
      · rename_i hend
        rw [if_neg hend]
        exact hr

/-- No more items than characters. -/
theorem length_le_joined (sep close : List α) {texts : List (List α)} (h : ∀ t ∈ texts, t ≠ []) :
    texts.length ≤ (joined sep close texts).length := by
  induction texts with
  | nil => exact Nat.zero_le _
  | cons text texts ih =>
      have hpos := List.length_pos_iff.mpr (h text List.mem_cons_self)
      have hrest := ih (fun t ht => h t (List.mem_cons_of_mem _ ht))
      cases texts with
      | nil =>
          simp only [joined, List.length_append, List.length_cons, List.length_nil]
          omega
      | cons next texts =>
          simp only [joined, List.length_append, List.length_cons] at hrest ⊢
          omega

/-- The bound on the items is never met, if each takes something off. -/
theorem readItems_fuel (hread : Consumes read)
    (hmore : ∀ text another rest, more text = .ok (another, rest) → rest.length ≤ text.length)
    {fuel fuel' : ℕ} {text : List α} (h : text.length < fuel) (h' : text.length < fuel') :
    readItems read more short fuel text = readItems read more short fuel' text := by
  induction fuel generalizing fuel' text with
  | zero => cases h
  | succ fuel ih =>
      cases fuel' with
      | zero => cases h'
      | succ fuel' =>
          unfold readItems
          cases hfirst : read text with
          | error e => rfl
          | ok first =>
              obtain ⟨b, behind⟩ := first
              have hshorter := hread text b behind hfirst
              cases hnext : more behind with
              | error e => simp only [bind, Except.bind, hnext]
              | ok next =>
                  obtain ⟨another, left⟩ := next
                  have hleft := hmore behind another left hnext
                  simp only [bind, Except.bind, hnext]
                  have hfuel : left.length < fuel := by omega
                  have hfuel' : left.length < fuel' := by omega
                  rw [ih hfuel hfuel']

/-- So is a text taken off by the loop. -/
theorem consumes_readItems (hread : Consumes read)
    (hmore : ∀ text another rest, more text = .ok (another, rest) → rest.length ≤ text.length)
    (fuel : ℕ) : Consumes (readItems read more short fuel) := by
  induction fuel with
  | zero =>
      intro text bs rest h
      cases h
  | succ fuel ih =>
      intro text bs rest h
      rw [readItems, bind_eq_ok_iff] at h
      obtain ⟨⟨b, behind⟩, hfirst, h⟩ := h
      rw [bind_eq_ok_iff] at h
      obtain ⟨⟨another, left⟩, hnext, h⟩ := h
      have hshorter := hread text b behind hfirst
      have hleft := hmore behind another left hnext
      dsimp only at h
      split at h
      · obtain ⟨⟨others, last⟩, hothers, hend⟩ := bind_eq_ok_iff.mp h
        have hlast := ih left others last hothers
        cases hend
        exact hlast.trans (Nat.lt_of_le_of_lt hleft hshorter)
      · cases h
        exact Nat.lt_of_le_of_lt hleft hshorter

end WebhookRelay.Foundation
