/-!
# Programs over a state

A program reads and changes a state, and returns a value or fails. What
it did to the state before it failed stays done: failing undoes nothing.

`Triple P p Q E` is the pre- and postcondition of a program: started in
a state of `P` it ends in one of `Q` with the value it returns, or in
one of `E` with the error it fails with. Every program ends, so the rules
are those of the constructs alone.
-/

namespace SyncPlus

def Program (σ ε α : Type) := σ → Except ε α × σ

namespace Program

variable {σ ε ε' α β : Type}

protected def pure (a : α) : Program σ ε α := fun s => (.ok a, s)

protected def bind (p : Program σ ε α) (f : α → Program σ ε β) : Program σ ε β :=
  fun s =>
    match p s with
    | (.ok a, s) => f a s
    | (.error e, s) => (.error e, s)

instance : Monad (Program σ ε) where
  pure := Program.pure
  bind := Program.bind

def fail (e : ε) : Program σ ε α := fun s => (.error e, s)

/-- What the program returns or fails with, as a value. -/
def attempt (p : Program σ ε α) : Program σ ε' (Except ε α) := fun s =>
  (.ok (p s).1, (p s).2)

def ofExcept : Except ε α → Program σ ε α
  | .ok a => pure a
  | .error e => fail e

/-- Fail with another error. -/
def mapError (f : ε → ε') (p : Program σ ε α) : Program σ ε' α := fun s =>
  ((p s).1.mapError f, (p s).2)

/-- One step: a value read off the state, and the next state. -/
def step (f : σ → α × σ) : Program σ ε α := fun s => (.ok (f s).1, (f s).2)

/-- The same program for each of a list. -/
def forEach (f : β → Program σ ε Unit) : List β → Program σ ε Unit
  | [] => pure ()
  | b :: bs => do
      f b
      forEach f bs

end Program

/-! ## Triples -/

def Triple {σ ε α : Type} (P : σ → Prop) (p : Program σ ε α) (Q : α → σ → Prop)
    (E : ε → σ → Prop) : Prop :=
  ∀ s, P s →
    match p s with
    | (.ok a, s') => Q a s'
    | (.error e, s') => E e s'

namespace Triple

variable {σ ε ε' α β : Type} {P P' : σ → Prop} {p : Program σ ε α}
  {Q Q' : α → σ → Prop} {E E' : ε → σ → Prop}

theorem weaken (h : Triple P p Q E) (hP : ∀ s, P' s → P s)
    (hQ : ∀ a s, Q a s → Q' a s) (hE : ∀ e s, E e s → E' e s) : Triple P' p Q' E' := by
  intro s hs
  have hp := h s (hP s hs)
  revert hp
  rcases p s with ⟨a | a, s'⟩
  · exact hE _ _
  · exact hQ _ _

theorem pre (h : Triple P p Q E) (hP : ∀ s, P' s → P s) : Triple P' p Q E :=
  h.weaken hP (fun _ _ hq => hq) fun _ _ he => he

theorem post (h : Triple P p Q E) (hQ : ∀ a s, Q a s → Q' a s) : Triple P p Q' E :=
  h.weaken (fun _ hs => hs) hQ fun _ _ he => he

/-- Known of the state before, whatever the state is. -/
theorem of_pre {φ : Prop} (h : φ → Triple P p Q E) : Triple (fun s => φ ∧ P s) p Q E :=
  fun s hs => h hs.1 s hs.2

theorem exists_pre {ι : Type} {P : ι → σ → Prop} (h : ∀ i, Triple (P i) p Q E) :
    Triple (fun s => ∃ i, P i s) p Q E :=
  fun s ⟨i, hs⟩ => h i s hs

/-- Fix what is read off the state before. -/
theorem of_value {ι : Type} {f : σ → ι} {I : ι → Prop}
    (h : ∀ i, I i → Triple (fun s => f s = i) p Q E) : Triple (fun s => I (f s)) p Q E :=
  fun s hs => h (f s) hs s rfl

theorem pure {a : α} (h : ∀ s, P s → Q a s) :
    Triple P (Pure.pure a : Program σ ε α) Q E :=
  h

theorem fail {e : ε} (h : ∀ s, P s → E e s) :
    Triple P (Program.fail e : Program σ ε α) Q E :=
  h

theorem bind {f : α → Program σ ε β} {R : β → σ → Prop} (h : Triple P p Q E)
    (hf : ∀ a, Triple (Q a) (f a) R E) : Triple P (p >>= f) R E := by
  intro s hs
  have hp := h s hs
  change match Program.bind p f s with | (.ok b, s') => R b s' | (.error e, s') => E e s'
  unfold Program.bind
  revert hp
  rcases p s with ⟨a | a, s'⟩
  · exact id
  · exact hf a s'

theorem attempt {Q : Except ε α → σ → Prop} {E' : ε' → σ → Prop}
    (h : Triple P p (fun a => Q (.ok a)) fun e => Q (.error e)) :
    Triple P (p.attempt : Program σ ε' (Except ε α)) Q E' := by
  intro s hs
  have hp := h s hs
  unfold Program.attempt
  revert hp
  rcases p s with ⟨a | a, s'⟩ <;> exact id

theorem mapError {f : ε → ε'} {E' : ε' → σ → Prop}
    (h : Triple P p Q fun e => E' (f e)) : Triple P (p.mapError f) Q E' := by
  intro s hs
  have hp := h s hs
  unfold Program.mapError
  revert hp
  rcases p s with ⟨a | a, s'⟩ <;> exact id

theorem step {f : σ → α × σ} (h : ∀ s, P s → Q (f s).1 (f s).2) :
    Triple P (Program.step f : Program σ ε α) Q E :=
  h

theorem ofExcept {r : Except ε α} (hok : ∀ a, r = .ok a → ∀ s, P s → Q a s)
    (herror : ∀ e, r = .error e → ∀ s, P s → E e s) :
    Triple P (Program.ofExcept r) Q E := by
  cases r with
  | ok a => exact hok a rfl
  | error e => exact herror e rfl

theorem ite {c : Prop} [Decidable c] {p' : Program σ ε α} (h : c → Triple P p Q E)
    (h' : ¬ c → Triple P p' Q E) : Triple P (if c then p else p') Q E := by
  split
  · exact h ‹_›
  · exact h' ‹_›

/-- A loop keeps what each of its rounds keeps. -/
theorem forEach {f : β → Program σ ε Unit} {bs : List β}
    (h : ∀ b ∈ bs, Triple P (f b) (fun _ => P) E) :
    Triple P (Program.forEach f bs) (fun _ => P) E := by
  induction bs with
  | nil => exact pure fun _ hs => hs
  | cons b bs ih =>
    exact bind (h b (by simp)) fun _ => ih fun b hb => h b (by simp [hb])

end Triple

end SyncPlus
