import SyncPlus.ActionOrder
import SyncPlus.MachineRules

/-!
# How a trace grows

`Grows N method` relates a trace to those it can become: calls of kind `N` are added at its
end, and an event is added as journaled only where the journal takes it. `Journals N` are the
programs that do nothing else to the trace of their machine. Every part of a driver is one,
for some `N`.
-/

namespace SyncPlus

/-- `c'` is `c` and more calls of kind `N`, whose journaled events were acceptable. -/
inductive Grows {χ : Type} (N : Call χ → Prop) (method : Option String) (c : List (Call χ)) :
    List (Call χ) → Prop where
  | refl : Grows N method c c
  | snoc {c' : List (Call χ)} {call : Call χ} : Grows N method c c' → N call →
      (∀ event, call = .journaled event → Accepts method (accepted c') event) →
      Grows N method c (c' ++ [call])

namespace Grows

variable {χ : Type} {N N' : Call χ → Prop} {method : Option String} {c c' c'' : List (Call χ)}

theorem trans (h : Grows N method c c') (h' : Grows N method c' c'') : Grows N method c c'' := by
  induction h' with
  | refl => exact h
  | snoc _ hN haccepts ih => exact ih.snoc hN haccepts

theorem mono (h : Grows N method c c') (hN : ∀ call, N call → N' call) :
    Grows N' method c c' := by
  induction h with
  | refl => exact .refl
  | snoc _ hcall haccepts ih => exact ih.snoc (hN _ hcall) haccepts

/-- The calls that were added. -/
theorem new (h : Grows N method c c') : ∃ new, c' = c ++ new ∧ ∀ call ∈ new, N call := by
  induction h with
  | refl => exact ⟨[], (List.append_nil _).symm, fun _ hcall => absurd hcall List.not_mem_nil⟩
  | @snoc c' call _ hN _ ih =>
      obtain ⟨new, rfl, hnew⟩ := ih
      refine ⟨new ++ [call], List.append_assoc _ _ _, fun d hd => ?_⟩
      rcases List.mem_append.mp hd with hd | hd
      · exact hnew d hd
      · exact List.mem_singleton.mp hd ▸ hN

/-- What was accepted stays accepted one by one. -/
theorem keepsAccepted (h : Grows N method c c') (hc : Accepted method (accepted c)) :
    Accepted method (accepted c') := by
  induction h with
  | refl => exact hc
  | @snoc c' call _ _ haccepts ih =>
      cases call with
      | journaled event => simpa using ih.snoc (haccepts event rfl)
      | _ => simpa using ih

/-- One call that journals nothing. -/
theorem call {call : Call χ} (hN : N call) (hcall : call.event? = none) :
    Grows N method c (c ++ [call]) := by
  refine refl.snoc hN fun event h => ?_
  subst h
  cases hcall

end Grows

/-! ## Programs -/

variable {σ χ ε α β : Type} {N : Call χ → Prop}

/-- All that the program does to the trace is to add calls of kind `N`. -/
def Journals (N : Call χ → Prop) (p : Program (Machine σ χ) ε α) : Prop :=
  ∀ m, (p m).2.run.deletionMethod = m.run.deletionMethod ∧
    Grows N m.run.deletionMethod m.calls (p m).2.calls

namespace Journals

variable {p : Program (Machine σ χ) ε α}

theorem adds (h : Journals N p) : Adds N p :=
  fun m => (h m).2.new

theorem mono {N' : Call χ → Prop} (h : Journals N p) (hN : ∀ call, N call → N' call) :
    Journals N' p :=
  fun m => ⟨(h m).1, (h m).2.mono hN⟩

theorem pure {a : α} : Journals N (Pure.pure a : Program (Machine σ χ) ε α) :=
  fun _ => ⟨rfl, .refl⟩

theorem fail {e : ε} : Journals N (.fail e : Program (Machine σ χ) ε α) :=
  fun _ => ⟨rfl, .refl⟩

theorem ofExcept {r : Except ε α} : Journals N (.ofExcept r : Program (Machine σ χ) ε α) := by
  cases r
  · exact fail
  · exact pure

theorem bind {f : α → Program (Machine σ χ) ε β} (h : Journals N p)
    (hf : ∀ a, Journals N (f a)) : Journals N (p >>= f) := by
  intro m
  obtain ⟨hmethod, hgrows⟩ := h m
  change (Program.bind p f m).2.run.deletionMethod = _ ∧
    Grows N _ _ (Program.bind p f m).2.calls
  unfold Program.bind
  rcases hp : p m with ⟨a | a, m'⟩ <;> rw [hp] at hmethod hgrows
  · exact ⟨hmethod, hgrows⟩
  · obtain ⟨hmethod', hgrows'⟩ := hf a m'
    change m'.run.deletionMethod = _ at hmethod
    rw [hmethod] at hmethod' hgrows'
    exact ⟨hmethod', hgrows.trans hgrows'⟩

theorem attempt {ε' : Type} (h : Journals N p) :
    Journals N (p.attempt : Program (Machine σ χ) ε' (Except ε α)) := h

theorem ite {b : Prop} [Decidable b] {q : Program (Machine σ χ) ε α}
    (hp : b → Journals N p) (hq : ¬ b → Journals N q) : Journals N (if b then p else q) := by
  split
  · exact hp ‹_›
  · exact hq ‹_›

theorem forEach {f : β → Program (Machine σ χ) ε Unit} {bs : List β}
    (h : ∀ b ∈ bs, Journals N (f b)) : Journals N (.forEach f bs) := by
  induction bs with
  | nil => exact pure
  | cons b bs ih =>
      exact (h b (by simp)).bind fun _ => ih fun b hb => h b (by simp [hb])

theorem inquire {question : σ → α × σ} :
    Journals N (inquire question : Program (Machine σ χ) ε α) :=
  fun _ => ⟨rfl, .refl⟩

theorem ask {question : σ → α × σ} {answered : α → χ}
    (h : ∀ a, N (.answered (answered a))) :
    Journals N (ask question answered : Program (Machine σ χ) ε α) :=
  fun _ => ⟨rfl, .call (h _) rfl⟩

theorem record {answer : χ} (h : N (.answered answer)) :
    Journals N (record answer : Program (Machine σ χ) ε Unit) :=
  fun _ => ⟨rfl, .call h rfl⟩

theorem poll {env : Surroundings σ} (h : ∀ cancel, N (.polled cancel)) :
    Journals N (poll env : Program (Machine σ χ) ε Bool) :=
  fun _ => ⟨rfl, .call (h _) rfl⟩

section

variable {env : Surroundings σ} {event : JournalEvent} {action : PlanAction}

theorem appendEvent (h : Offers N event) :
    Journals N (appendEvent event : Program (Machine σ χ) ε _) := by
  intro m
  unfold SyncPlus.appendEvent Program.step
  dsimp only
  split
  · rename_i run hrun
    obtain ⟨haccepts, rfl⟩ :=
      (Machine.At.appendEvent_eq_ok (m := m) ⟨rfl, rfl⟩).mp hrun
    refine ⟨rfl, Grows.refl.snoc h.1 fun e he => ?_⟩
    cases he
    exact haccepts
  · exact ⟨rfl, .call (h.2 _) rfl⟩

theorem journal (h : Offers N event) :
    Journals N (journal event : Program (Machine σ χ) WorkflowError Unit) :=
  (appendEvent h).bind fun r => by
    cases r
    · exact fail
    · exact pure

theorem observeActionBoundary :
    Journals N (observeActionBoundary env action : Program (Machine σ χ) ε _) :=
  inquire.bind fun _ => inquire.bind fun _ => pure

theorem recordJournalFailure {error : WorkflowError}
    (h : ∀ evidence, Offers N
      (.recoveryReview action.actionId .interruptedBoundary evidence)) :
    Journals N (recordJournalFailure env action error :
      Program (Machine σ χ) WorkflowError α) := by
  refine observeActionBoundary.bind fun evidence => (appendEvent (h evidence)).bind fun r => ?_
  cases r <;> exact fail

theorem journalOrReview (hevent : Offers N event)
    (h : ∀ evidence, Offers N
      (.recoveryReview action.actionId .interruptedBoundary evidence)) :
    Journals N (journalOrReview env action event :
      Program (Machine σ χ) WorkflowError Unit) :=
  (appendEvent hevent).bind fun r => by
    cases r
    · exact recordJournalFailure h
    · exact pure

theorem reportProgress {a : ActionId} {progress : List UInt64}
    (h : ∀ bytes, Offers N (.progress a bytes)) :
    Journals N (reportProgress a progress : Program (Machine σ χ) ε _) := by
  induction progress with
  | nil => exact pure
  | cons bytes rest ih =>
      refine (appendEvent (h bytes)).bind fun r => ?_
      cases r
      · exact pure
      · exact ih

theorem cancelRemaining {actions : List PlanAction}
    (h : ∀ action ∈ actions, Offers N (.cancelled action.actionId)) :
    Journals N (cancelRemaining actions : Program (Machine σ χ) WorkflowError Unit) :=
  .forEach fun action haction => .journal (h action haction)

end

end Journals

end SyncPlus
