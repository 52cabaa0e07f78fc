import Mathlib.Data.List.Basic

/-!
# What holds at each entry of a trace

A trace grows at its end. A property of each entry, given the entries
before it, is proved entry by entry as the trace is made
(`atEach_snoc`), and read off the finished trace at any place of it.
-/

namespace SyncPlus

variable {α : Type}

/-- `F` holds of each entry, given those before it. -/
def AtEach (F : List α → α → Prop) (trace : List α) : Prop :=
  ∀ before entry after, trace = before ++ entry :: after → F before entry

theorem atEach_nil {F : List α → α → Prop} : AtEach F [] := by
  intro before entry after h
  simp at h

theorem atEach_snoc {F : List α → α → Prop} {trace : List α} {entry : α} :
    AtEach F (trace ++ [entry]) ↔ AtEach F trace ∧ F trace entry := by
  constructor
  · intro h
    refine ⟨fun before e after heq => h before e (after ++ [entry]) ?_, ?_⟩
    · rw [heq, List.append_assoc, List.cons_append]
    · exact h trace entry [] rfl
  · rintro ⟨h, hlast⟩ before e after heq
    rcases List.eq_nil_or_concat' after with rfl | ⟨init, last, rfl⟩
    · obtain ⟨rfl, hone⟩ := List.append_inj' heq rfl
      obtain rfl := List.singleton_inj.mp hone
      exact hlast
    · rw [← List.cons_append, ← List.append_assoc] at heq
      exact h before e init (List.append_inj' heq rfl).1

theorem AtEach.init {F : List α → α → Prop} {trace rest : List α}
    (h : AtEach F (trace ++ rest)) : AtEach F trace := by
  intro before entry after heq
  refine h before entry (after ++ rest) ?_
  rw [heq, List.append_assoc, List.cons_append]

theorem AtEach.mono {F G : List α → α → Prop} {trace : List α} (h : AtEach F trace)
    (hFG : ∀ before entry, F before entry → G before entry) : AtEach G trace :=
  fun before entry after heq => hFG _ _ (h before entry after heq)

end SyncPlus
