import SyncPlus.Lib.Traces
import SyncPlus.Machine

/-!
# What a driver adds to its trace

A program only ever adds calls at the end of the trace. `Adds N` are the
programs whose calls are all of kind `N`: every part of a driver but its
critical section is of this kind for some `N` that leaves the critical
calls out, and keeps whatever such calls keep (`Adds.keeps`). A critical
section is followed call by call instead (`appendEvent_calls` and the
rules after it).
-/

namespace SyncPlus

variable {σ χ ε α β : Type} {N : Call χ → Prop}

/-- All calls of the program are of kind `N`. -/
def Adds (N : Call χ → Prop) (p : Program (Machine σ χ) ε α) : Prop :=
  ∀ m, ∃ new, (p m).2.calls = m.calls ++ new ∧ ∀ call ∈ new, N call

namespace Adds

variable {p : Program (Machine σ χ) ε α}

theorem keeps (h : Adds N p) {I : List (Call χ) → Prop}
    (hI : ∀ calls call, N call → I calls → I (calls ++ [call])) :
    Triple (fun m => I m.calls) p (fun _ m => I m.calls) (fun _ m => I m.calls) := by
  have hadd : ∀ new calls, I calls → (∀ call ∈ new, N call) → I (calls ++ new) := by
    intro new
    induction new with
    | nil => exact fun calls hc _ => by simpa using hc
    | cons call new ih =>
      intro calls hc hN
      rw [List.append_cons]
      exact ih _ (hI calls call (hN call (by simp)) hc) fun d hd => hN d (by simp [hd])
  intro m hm
  obtain ⟨new, hcalls, hN⟩ := h m
  have hend := hadd new m.calls hm hN
  rw [← hcalls] at hend
  revert hend
  rcases p m with ⟨a | a, m'⟩ <;> exact id

/-- What was called before stays. -/
theorem keepsBefore {c : List (Call χ)} {Q : α → Machine σ χ → Prop}
    {E : ε → Machine σ χ → Prop} (h : Adds N p) (ht : Triple (fun m => m.calls = c) p Q E) :
    Triple (fun m => m.calls = c) p (fun a m => Q a m ∧ c ⊆ m.calls) E := by
  intro m hm
  obtain ⟨new, hcalls, -⟩ := h m
  have hp := ht m hm
  revert hp hcalls
  rcases p m with ⟨a | a, m'⟩ <;> intro hcalls hp
  · exact hp
  · change m'.calls = m.calls ++ new at hcalls
    exact ⟨hp, by simp [hcalls, hm]⟩

theorem mono {N' : Call χ → Prop} (h : Adds N p) (hN : ∀ call, N call → N' call) :
    Adds N' p := fun m =>
  let ⟨new, hcalls, hnew⟩ := h m
  ⟨new, hcalls, fun call hcall => hN call (hnew call hcall)⟩

theorem pure {a : α} : Adds N (Pure.pure a : Program (Machine σ χ) ε α) :=
  fun m => ⟨[], (List.append_nil _).symm, by simp⟩

theorem fail {e : ε} : Adds N (.fail e : Program (Machine σ χ) ε α) :=
  fun m => ⟨[], (List.append_nil _).symm, by simp⟩

theorem ofExcept {r : Except ε α} : Adds N (.ofExcept r : Program (Machine σ χ) ε α) := by
  cases r
  · exact fail
  · exact pure

theorem bind {f : α → Program (Machine σ χ) ε β} (h : Adds N p) (hf : ∀ a, Adds N (f a)) :
    Adds N (p >>= f) := by
  intro m
  obtain ⟨new, hcalls, hN⟩ := h m
  change ∃ new, (Program.bind p f m).2.calls = m.calls ++ new ∧ ∀ call ∈ new, N call
  unfold Program.bind
  rcases hp : p m with ⟨a | a, m'⟩ <;> rw [hp] at hcalls
  · exact ⟨new, hcalls, hN⟩
  · obtain ⟨rest, hrest, hN'⟩ := hf a m'
    refine ⟨new ++ rest, ?_, fun call hcall => ?_⟩
    · rw [← List.append_assoc, ← hcalls]
      exact hrest
    · exact (List.mem_append.mp hcall).elim (hN call) (hN' call)

theorem attempt {ε' : Type} (h : Adds N p) :
    Adds N (p.attempt : Program (Machine σ χ) ε' (Except ε α)) := h

theorem ite {c : Prop} [Decidable c] {q : Program (Machine σ χ) ε α}
    (hp : c → Adds N p) (hq : ¬ c → Adds N q) : Adds N (if c then p else q) := by
  split
  · exact hp ‹_›
  · exact hq ‹_›

theorem forEach {f : β → Program (Machine σ χ) ε Unit} {bs : List β}
    (h : ∀ b ∈ bs, Adds N (f b)) : Adds N (.forEach f bs) := by
  induction bs with
  | nil => exact pure
  | cons b bs ih =>
    exact (h b (by simp)).bind fun _ => ih fun b hb => h b (by simp [hb])

theorem inquire {question : σ → α × σ} :
    Adds N (inquire question : Program (Machine σ χ) ε α) :=
  fun m => ⟨[], (List.append_nil _).symm, by simp⟩

theorem ask {question : σ → α × σ} {answered : α → χ}
    (h : ∀ a, N (.answered (answered a))) :
    Adds N (ask question answered : Program (Machine σ χ) ε α) :=
  fun m => ⟨[_], rfl, by simpa using h _⟩

theorem record {answer : χ} (h : N (.answered answer)) :
    Adds N (record answer : Program (Machine σ χ) ε Unit) :=
  fun m => ⟨[_], rfl, by simpa using h⟩

theorem poll {env : Surroundings σ} (h : ∀ cancel, N (.polled cancel)) :
    Adds N (poll env : Program (Machine σ χ) ε Bool) :=
  fun m => ⟨[_], rfl, by simpa using h _⟩

end Adds

/-! ## The journal -/

/-- Both ends of an offer are of kind `N`. -/
def Offers (N : Call χ → Prop) (event : JournalEvent) : Prop :=
  N (.journaled event) ∧ ∀ error, N (.rejected event error)

section

variable {env : Surroundings σ} {event : JournalEvent} {action : PlanAction}

theorem appendEvent_step (ε : Type) (event : JournalEvent) (m : Machine σ χ) :
    ((appendEvent (ε := ε) event m).1 = .ok (.ok ()) ∧
      (appendEvent (ε := ε) event m).2.calls = m.calls ++ [.journaled event]) ∨
    ∃ error, (appendEvent (ε := ε) event m).1 = .ok (.error error) ∧
      (appendEvent (ε := ε) event m).2.calls = m.calls ++ [.rejected event error] := by
  simp only [appendEvent, Program.step]
  split
  · exact .inl ⟨rfl, rfl⟩
  · exact .inr ⟨_, rfl, rfl⟩

theorem Adds.appendEvent (h : Offers N event) :
    Adds N (appendEvent event : Program (Machine σ χ) ε _) := by
  intro m
  rcases appendEvent_step ε event m with
    ⟨-, hcalls⟩ | ⟨error, -, hcalls⟩
  · exact ⟨_, hcalls, by simpa using h.1⟩
  · exact ⟨_, hcalls, by simpa using h.2 error⟩

theorem Adds.journal (h : Offers N event) :
    Adds N (journal event : Program (Machine σ χ) WorkflowError Unit) :=
  (Adds.appendEvent h).bind fun r => by
    cases r
    · exact .fail
    · exact .pure

theorem Adds.observeActionBoundary :
    Adds N (observeActionBoundary env action : Program (Machine σ χ) ε _) :=
  Adds.inquire.bind fun _ => Adds.inquire.bind fun _ => .pure

theorem Adds.recordJournalFailure {error : WorkflowError}
    (h : ∀ evidence, Offers N
      (.recoveryReview action.actionId .interruptedBoundary evidence)) :
    Adds N (recordJournalFailure env action error :
      Program (Machine σ χ) WorkflowError α) := by
  refine Adds.observeActionBoundary.bind fun evidence =>
    (Adds.appendEvent (h evidence)).bind fun r => ?_
  cases r <;> exact .fail

theorem Adds.journalOrReview (hevent : Offers N event)
    (h : ∀ evidence, Offers N
      (.recoveryReview action.actionId .interruptedBoundary evidence)) :
    Adds N (journalOrReview env action event :
      Program (Machine σ χ) WorkflowError Unit) :=
  (Adds.appendEvent hevent).bind fun r => by
    cases r
    · exact .recordJournalFailure h
    · exact .pure

theorem Adds.reportProgress {a : ActionId} {progress : List UInt64}
    (h : ∀ bytes, Offers N (.progress a bytes)) :
    Adds N (reportProgress a progress : Program (Machine σ χ) ε _) := by
  induction progress with
  | nil => exact .pure
  | cons bytes rest ih =>
    refine (Adds.appendEvent (h bytes)).bind fun r => ?_
    cases r
    · exact .pure
    · exact ih

theorem Adds.cancelRemaining {actions : List PlanAction}
    (h : ∀ a, Offers N (.cancelled a)) :
    Adds N (cancelRemaining actions : Program (Machine σ χ) WorkflowError Unit) :=
  .forEach fun action _ => .journal (h action.actionId)

end

/-! ## Call by call -/

section

variable {env : Surroundings σ} {event : JournalEvent} {action : PlanAction}
  {c : List (Call χ)}

theorem appendEvent_calls :
    Triple (fun m => m.calls = c) (appendEvent event : Program (Machine σ χ) ε _)
      (fun r m => match r with
        | .ok () => m.calls = c ++ [.journaled event]
        | .error error => m.calls = c ++ [.rejected event error])
      fun _ _ => False := by
  rintro m rfl
  have hstep := appendEvent_step ε event m
  revert hstep
  rcases SyncPlus.appendEvent event m with ⟨e | r, m'⟩
  · simp
  · rintro (⟨hr, hcalls⟩ | ⟨error, hr, hcalls⟩) <;> cases hr <;> exact hcalls

theorem journal_calls {I : List (Call χ) → Prop}
    (hI : ∀ error, I (c ++ [.rejected event error])) :
    Triple (fun m => m.calls = c)
      (journal event : Program (Machine σ χ) WorkflowError Unit)
      (fun _ m => m.calls = c ++ [.journaled event]) (fun _ m => I m.calls) := by
  refine (appendEvent_calls.weaken (fun _ h => h) (fun _ _ h => h) nofun).bind fun r => ?_
  rcases r with error | ⟨⟩
  · exact .fail fun m hm => hm ▸ hI error
  · exact .pure fun _ hm => hm

/-- A journal failure is recorded and never returned from. -/
theorem recordJournalFailure_keeps {I : List (Call χ) → Prop} {error : WorkflowError}
    (hI : ∀ calls call, N call → I calls → I (calls ++ [call]))
    (h : ∀ evidence, Offers N
      (.recoveryReview action.actionId .interruptedBoundary evidence)) :
    Triple (fun m => I m.calls)
      (recordJournalFailure env action error : Program (Machine σ χ) WorkflowError α)
      (fun _ _ => False) (fun _ m => I m.calls) := by
  refine (Adds.observeActionBoundary.keeps hI).bind fun evidence =>
    ((Adds.appendEvent (h evidence)).keeps hI).bind fun r => ?_
  cases r <;> exact .fail fun _ hm => hm

theorem journalOrReview_calls {I : List (Call χ) → Prop}
    (hI : ∀ calls call, N call → I calls → I (calls ++ [call]))
    (hrejected : ∀ error, I (c ++ [.rejected event error]))
    (hreview : ∀ evidence, Offers N
      (.recoveryReview action.actionId .interruptedBoundary evidence)) :
    Triple (fun m => m.calls = c)
      (journalOrReview env action event : Program (Machine σ χ) WorkflowError Unit)
      (fun _ m => m.calls = c ++ [.journaled event]) (fun _ m => I m.calls) := by
  refine (appendEvent_calls.weaken (fun _ h => h) (fun _ _ h => h) nofun).bind fun r => ?_
  rcases r with error | ⟨⟩
  · exact (recordJournalFailure_keeps hI hreview).weaken
      (fun m hm => hm ▸ hrejected error) (fun _ _ h => h.elim) fun _ _ h => h
  · exact .pure fun _ hm => hm

theorem ask_calls {question : σ → α × σ} {answered : α → χ} :
    Triple (fun m => m.calls = c) (ask question answered : Program (Machine σ χ) ε α)
      (fun a m => m.calls = c ++ [.answered (answered a)]) fun _ _ => False := by
  rintro m rfl
  rfl

theorem record_calls {answer : χ} :
    Triple (fun m => m.calls = c) (record answer : Program (Machine σ χ) ε Unit)
      (fun _ m => m.calls = c ++ [.answered answer]) fun _ _ => False := by
  rintro m rfl
  rfl

theorem inquire_calls {question : σ → α × σ} :
    Triple (fun m => m.calls = c) (inquire question : Program (Machine σ χ) ε α)
      (fun _ m => m.calls = c) fun _ _ => False := by
  rintro m rfl
  rfl

end

/-! ## Offers that are known to be accepted

The machine at a trace, with the deletion method of its run. What is accepted there is
known of the events of the trace alone (`Accepts`). -/

section

variable {event : JournalEvent} {c : List (Call χ)} {method : Option String}
  {E : ε → Machine σ χ → Prop}

def Machine.At (method : Option String) (c : List (Call χ)) (m : Machine σ χ) : Prop :=
  m.calls = c ∧ m.run.deletionMethod = method

theorem Machine.At.appendEvent_eq_ok {m : Machine σ χ} {run : RunJournal} (h : m.At method c) :
    m.run.appendEvent event = .ok run ↔
      Accepts method (accepted c) event ∧ run = m.run.insert event := by
  obtain ⟨rfl, rfl⟩ := h
  exact SyncPlus.appendEvent_eq_ok m.journal.stores (m.journal.histories _)

theorem appendEvent_accepted (h : Accepts method (accepted c) event) :
    Triple (Machine.At method c) (appendEvent event : Program (Machine σ χ) ε _)
      (fun r m => r = .ok () ∧ m.At method (c ++ [.journaled event])) E := by
  intro m hm
  unfold appendEvent Program.step
  dsimp only
  split
  · rename_i run hrun
    obtain ⟨-, rfl⟩ := hm.appendEvent_eq_ok.mp hrun
    exact ⟨rfl, congrArg (· ++ [Call.journaled event]) hm.1, hm.2⟩
  · rename_i error herror
    have hok := hm.appendEvent_eq_ok.mpr ⟨h, rfl⟩
    rw [herror] at hok
    cases hok

theorem appendEvent_refused (h : ¬ Accepts method (accepted c) event) :
    Triple (Machine.At method c) (appendEvent event : Program (Machine σ χ) ε _)
      (fun r m => ∃ error, r = .error error ∧ m.At method (c ++ [.rejected event error]))
      E := by
  intro m hm
  unfold appendEvent Program.step
  dsimp only
  split
  · rename_i run hrun
    exact absurd (hm.appendEvent_eq_ok.mp hrun).1 h
  · rename_i error herror
    exact ⟨error, rfl, congrArg (· ++ [Call.rejected event error]) hm.1, hm.2⟩

theorem journal_accepted (h : Accepts method (accepted c) event) :
    Triple (Machine.At method c) (journal event : Program (Machine σ χ) WorkflowError Unit)
      (fun _ m => m.At method (c ++ [.journaled event])) fun _ _ => False := by
  refine (appendEvent_accepted h).bind fun r => .of_pre ?_
  rintro rfl
  exact .pure fun _ hm => hm

theorem journal_refused (h : ¬ Accepts method (accepted c) event) :
    Triple (Machine.At method c) (journal event : Program (Machine σ χ) WorkflowError Unit)
      (fun _ _ => False) fun _ m => ∃ error, m.At method (c ++ [.rejected event error]) := by
  refine (appendEvent_refused h).bind fun r => .exists_pre fun error => .of_pre ?_
  rintro rfl
  exact .fail fun _ hm => ⟨error, hm⟩

/-- Whatever method the run has frozen. -/
theorem Machine.At.anyMethod {p : Program (Machine σ χ) ε α} {Q : α → Machine σ χ → Prop}
    (h : ∀ method, Triple (Machine.At method c) p Q E) :
    Triple (fun m => m.calls = c) p Q E :=
  fun m hm => h m.run.deletionMethod m ⟨hm, rfl⟩

theorem appendEvent_taken (h : ∀ method, Accepts method (accepted c) event) :
    Triple (fun m => m.calls = c) (appendEvent event : Program (Machine σ χ) ε _)
      (fun r m => r = .ok () ∧ m.calls = c ++ [.journaled event]) E :=
  Machine.At.anyMethod fun method => (appendEvent_accepted (h method)).post fun _ _ hr =>
    ⟨hr.1, hr.2.1⟩

/-- An event that was taken was acceptable. -/
theorem appendEvent_explained :
    Triple (fun m => m.calls = c) (appendEvent event : Program (Machine σ χ) ε _)
      (fun r m => match r with
        | .ok () => (∃ method, Accepts method (accepted c) event) ∧
            m.calls = c ++ [.journaled event]
        | .error error => m.calls = c ++ [.rejected event error]) E := by
  refine Machine.At.anyMethod fun method => ?_
  by_cases h : Accepts method (accepted c) event
  · refine (appendEvent_accepted h).post fun r m hr => ?_
    obtain ⟨rfl, hcalls, -⟩ := hr
    exact ⟨⟨method, h⟩, hcalls⟩
  · refine (appendEvent_refused h).post fun r m hr => ?_
    obtain ⟨error, rfl, hcalls, -⟩ := hr
    exact hcalls

theorem ask_at {question : σ → α × σ} {answered : α → χ} :
    Triple (Machine.At method c) (ask question answered : Program (Machine σ χ) ε α)
      (fun a m => m.At method (c ++ [.answered (answered a)])) E := by
  rintro m ⟨rfl, rfl⟩
  exact ⟨rfl, rfl⟩

theorem inquire_at {question : σ → α × σ} :
    Triple (Machine.At method c) (inquire question : Program (Machine σ χ) ε α)
      (fun _ m => m.At method c) E := by
  rintro m ⟨rfl, rfl⟩
  exact ⟨rfl, rfl⟩

theorem record_at {answer : χ} :
    Triple (Machine.At method c) (record answer : Program (Machine σ χ) ε Unit)
      (fun _ m => m.At method (c ++ [.answered answer])) E := by
  rintro m ⟨rfl, rfl⟩
  exact ⟨rfl, rfl⟩

end

/-! ## What a part of a driver shows

Beside the kind of its calls, what a part of a driver has called for when it returns: the
value it returns and its own calls tell, whatever the world answered. -/

/-- Run at the trace `c`, the program makes calls of kind `N`, and where it returns these
calls and its value satisfy `F`. -/
def Gives (N : Call χ → Prop) (c : List (Call χ)) (p : Program (Machine σ χ) ε α)
    (F : α → List (Call χ) → Prop) : Prop :=
  ∀ m, m.calls = c → ∃ new, (p m).2.calls = c ++ new ∧ (∀ call ∈ new, N call) ∧
    ∀ a, (p m).1 = .ok a → F a new

namespace Gives

variable {c : List (Call χ)} {p : Program (Machine σ χ) ε α} {F G : α → List (Call χ) → Prop}

theorem mono (h : Gives N c p F) (hFG : ∀ a new, F a new → G a new) : Gives N c p G :=
  fun m hm =>
    let ⟨new, hcalls, hN, hF⟩ := h m hm
    ⟨new, hcalls, hN, fun a ha => hFG a new (hF a ha)⟩

/-- The kind of the calls is known with them. -/
theorem kind (h : Gives N c p F) :
    Gives N c p fun a new => F a new ∧ ∀ call ∈ new, N call :=
  fun m hm =>
    let ⟨new, hcalls, hN, hF⟩ := h m hm
    ⟨new, hcalls, hN, fun a ha => ⟨hF a ha, hN⟩⟩

theorem of_adds (h : Adds N p) (hF : ∀ a new, F a new) : Gives N c p F := by
  rintro m rfl
  obtain ⟨new, hcalls, hN⟩ := h m
  exact ⟨new, hcalls, hN, fun a _ => hF a new⟩

theorem pure {a : α} (h : F a []) : Gives N c (Pure.pure a : Program (Machine σ χ) ε α) F := by
  rintro m rfl
  refine ⟨[], (List.append_nil _).symm, by simp, fun b hb => ?_⟩
  cases hb
  exact h

theorem fail {e : ε} : Gives N c (.fail e : Program (Machine σ χ) ε α) F := by
  rintro m rfl
  exact ⟨[], (List.append_nil _).symm, by simp, nofun⟩

theorem ofExcept {r : Except ε α} (h : ∀ a, r = .ok a → F a []) :
    Gives N c (.ofExcept r : Program (Machine σ χ) ε α) F := by
  cases r with
  | ok a => exact pure (h a rfl)
  | error e => exact fail

/-- A check of what is known already. -/
theorem checked {r : Except ε α} : Gives N c (.ofExcept r : Program (Machine σ χ) ε α)
    fun a new => new = [] ∧ r = .ok a :=
  ofExcept fun _ h => ⟨rfl, h⟩

theorem bind {f : α → Program (Machine σ χ) ε β} {H : β → List (Call χ) → Prop}
    (h : Gives N c p F)
    (hf : ∀ a new, F a new → Gives N (c ++ new) (f a) fun b rest => H b (new ++ rest)) :
    Gives N c (p >>= f) H := by
  intro m hm
  obtain ⟨new, hcalls, hN, hF⟩ := h m hm
  change ∃ all, (Program.bind p f m).2.calls = c ++ all ∧ (∀ call ∈ all, N call) ∧
    ∀ b, (Program.bind p f m).1 = .ok b → H b all
  unfold Program.bind
  rcases hp : p m with ⟨e | a, m'⟩ <;> rw [hp] at hcalls hF
  · exact ⟨new, hcalls, hN, nofun⟩
  · obtain ⟨rest, hrest, hN', hH⟩ := hf a new (hF a rfl) m' hcalls
    refine ⟨new ++ rest, ?_, fun call hcall => ?_, hH⟩
    · rw [← List.append_assoc]
      exact hrest
    · exact (List.mem_append.mp hcall).elim (hN call) (hN' call)

theorem ite {b : Prop} [Decidable b] {q : Program (Machine σ χ) ε α}
    (hp : b → Gives N c p F) (hq : ¬ b → Gives N c q F) :
    Gives N c (if b then p else q) F := by
  split
  · exact hp ‹_›
  · exact hq ‹_›

theorem attempt {ε' : Type} (h : Gives N c p F) :
    Gives N c (p.attempt : Program (Machine σ χ) ε' (Except ε α)) fun r new =>
      ∀ a, r = .ok a → F a new := by
  intro m hm
  obtain ⟨new, hcalls, hN, hF⟩ := h m hm
  refine ⟨new, hcalls, hN, fun r hr a ha => hF a ?_⟩
  exact (Except.ok.inj hr).trans ha

theorem ask {question : σ → α × σ} {answered : α → χ} (h : ∀ a, N (.answered (answered a))) :
    Gives N c (ask question answered : Program (Machine σ χ) ε α) fun a new =>
      new = [.answered (answered a)] := by
  rintro m rfl
  refine ⟨_, rfl, by simpa using h _, fun a ha => ?_⟩
  obtain rfl := Except.ok.inj ha
  rfl

theorem inquire {question : σ → α × σ} :
    Gives N c (inquire question : Program (Machine σ χ) ε α) fun _ new => new = [] := by
  rintro m rfl
  exact ⟨[], (List.append_nil _).symm, by simp, fun _ _ => rfl⟩

theorem record {answer : χ} (h : N (.answered answer)) :
    Gives N c (record answer : Program (Machine σ χ) ε Unit) fun _ new =>
      new = [.answered answer] := by
  rintro m rfl
  exact ⟨_, rfl, by simpa using h, fun _ _ => rfl⟩

/-- A journal failure is never returned from. -/
theorem recordJournalFailure {c : List (Call χ)} {G : α → List (Call χ) → Prop}
    {env : Surroundings σ} {action : PlanAction} {error : WorkflowError}
    (h : ∀ evidence, Offers N
      (.recoveryReview action.actionId .interruptedBoundary evidence)) :
    Gives N c (recordJournalFailure env action error :
      Program (Machine σ χ) WorkflowError α) G := by
  refine (of_adds Adds.observeActionBoundary fun _ _ => trivial).bind (F := fun _ _ => True)
    fun evidence _ _ => (of_adds (Adds.appendEvent (h evidence)) fun _ _ => trivial).bind
      (F := fun _ _ => True) fun r _ _ => ?_
  cases r <;> exact fail

theorem triple (h : Gives N c p F) :
    Triple (fun m => m.calls = c) p
      (fun a m => ∃ new, m.calls = c ++ new ∧ (∀ call ∈ new, N call) ∧ F a new)
      fun _ m => ∃ new, m.calls = c ++ new ∧ ∀ call ∈ new, N call := by
  intro m hm
  obtain ⟨new, hcalls, hN, hF⟩ := h m hm
  revert hcalls hF
  rcases p m with ⟨e | a, m'⟩ <;> intro hcalls hF
  · exact ⟨new, hcalls, hN⟩
  · exact ⟨new, hcalls, hN, hF a rfl⟩

/-- What follows such a part goes on from its calls. -/
theorem andThen {f : α → Program (Machine σ χ) ε β} {Q : β → Machine σ χ → Prop}
    {E : ε → Machine σ χ → Prop} (h : Gives N c p F)
    (hE : ∀ e m new, (∀ call ∈ new, N call) → m.calls = c ++ new → E e m)
    (hf : ∀ a new, (∀ call ∈ new, N call) → F a new →
      Triple (fun m => m.calls = c ++ new) (f a) Q E) :
    Triple (fun m => m.calls = c) (p >>= f) Q E := by
  refine Triple.bind (h.triple.weaken (fun _ hm => hm) (fun _ _ hq => hq) ?_) fun a => ?_
  · rintro e m ⟨new, hcalls, hN⟩
    exact hE e m new hN hcalls
  · exact .exists_pre fun new m ⟨hcalls, hN, hF⟩ => hf a new hN hF m hcalls

end Gives

end SyncPlus
