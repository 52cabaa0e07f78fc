import Mathlib.Data.List.Nodup
import Mathlib.Data.List.Pairwise

/-!
# Pairs of a list

Each entry of a list with each later one (`laterPairs`). In a list that is
sorted by a strict order these are the pairs of its entries that are in the
order.
-/

namespace SyncPlus

variable {α : Type} {l : List α}

def laterPairs : List α → List (α × α)
  | [] => []
  | a :: l => l.map (fun b => (a, b)) ++ laterPairs l

theorem mem_of_mem_laterPairs {pair : α × α} (h : pair ∈ laterPairs l) :
    pair.1 ∈ l ∧ pair.2 ∈ l := by
  induction l with
  | nil => cases h
  | cons a l ih =>
      rcases List.mem_append.mp h with h | h
      · obtain ⟨b, hb, rfl⟩ := List.mem_map.mp h
        exact ⟨.head _, .tail _ hb⟩
      · exact ⟨.tail _ (ih h).1, .tail _ (ih h).2⟩

theorem nodup_laterPairs (h : l.Nodup) : (laterPairs l).Nodup := by
  induction l with
  | nil => exact List.nodup_nil
  | cons a l ih =>
      obtain ⟨hnew, hl⟩ := List.nodup_cons.mp h
      refine List.nodup_append.mpr ⟨hl.map fun b b' h => (Prod.mk.inj h).2, ih hl, ?_⟩
      intro pair hpair pair' hpair' heq
      obtain ⟨b, -, rfl⟩ := List.mem_map.mp hpair
      rw [← heq] at hpair'
      exact hnew (mem_of_mem_laterPairs hpair').1

/-- The pairs of a sorted list. -/
theorem mem_laterPairs {R : α → α → Prop} (hsorted : l.Pairwise R)
    (hasymm : ∀ a b, R a b → ¬ R b a) {pair : α × α} :
    pair ∈ laterPairs l ↔ pair.1 ∈ l ∧ pair.2 ∈ l ∧ R pair.1 pair.2 := by
  induction l with
  | nil => simp [laterPairs]
  | cons a l ih =>
      obtain ⟨hfirst, hrest⟩ := List.pairwise_cons.mp hsorted
      obtain ⟨b, c⟩ := pair
      rw [laterPairs, List.mem_append, ih hrest]
      constructor
      · rintro (h | ⟨hb, hc, h⟩)
        · obtain ⟨c', hc', heq⟩ := List.mem_map.mp h
          obtain ⟨rfl, rfl⟩ := Prod.mk.inj heq
          exact ⟨.head _, .tail _ hc', hfirst _ hc'⟩
        · exact ⟨.tail _ hb, .tail _ hc, h⟩
      · intro ⟨hb, hc, h⟩
        dsimp only at hb hc h
        rcases List.mem_cons.mp hb with rfl | hbefore
        · rcases List.mem_cons.mp hc with rfl | hlater
          · exact absurd h (hasymm _ _ h)
          · exact .inl (List.mem_map.mpr ⟨c, hlater, rfl⟩)
        · rcases List.mem_cons.mp hc with rfl | hlater
          · exact absurd h (hasymm _ _ (hfirst b hbefore))
          · exact .inr ⟨hbefore, hlater, h⟩

/-- In a list without repetition a symmetric relation is pairwise when it is
between any two entries. -/
theorem pairwise_iff_of_nodup {R : α → α → Prop} (hl : l.Nodup) (hsymm : ∀ a b, R a b → R b a) :
    l.Pairwise R ↔ ∀ a ∈ l, ∀ b ∈ l, a ≠ b → R a b := by
  constructor
  · intro h a ha b hb hne
    have : Std.Symm R := ⟨hsymm⟩
    exact h.forall ha hb hne
  · exact hl.pairwise_of_forall_ne

end SyncPlus
