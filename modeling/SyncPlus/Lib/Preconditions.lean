import SyncPlus.Lib.Procedures

/-!
# Preconditions of procedures

A procedure alone on its state, in an environment that answers every step as it
likes among the answers it is allowed (`allows`, which may look at the step's
label and at the state the step is taken in).

`p.Ensures allows Q` is the weakest precondition of `Q`: from a state of it `p`
ends in `Q`, whatever the environment answers. `Q` speaks of the result, a value
or an error, and of the state that is left, which a procedure that fails may have
changed.
-/

namespace SyncPlus

namespace Procedure

variable {ε σ ℓ ω φ φ' α β : Type}

/-- What the procedure returns or fails with, as a value. -/
def attempt : Procedure ε σ ℓ ω φ α → Procedure ε σ ℓ ω φ' (Except φ α)
  | .done r => .done (.ok r)
  | .step label act next => .step label act fun moment s => (next moment s).attempt

/-- Errors get another name. -/
def mapError (f : φ → φ') : Procedure ε σ ℓ ω φ α → Procedure ε σ ℓ ω φ' α
  | .done r => .done (r.mapError f)
  | .step label act next => .step label act fun moment s => (next moment s).mapError f

/-- One step, which may change the state and fail as well. -/
def call (label : ℓ) (f : ε → σ → Except φ α × σ) : Procedure ε σ ℓ ω φ α :=
  .step label (fun moment s => ((f moment s).2, [])) fun moment s => .done (f moment s).1

/-- Run alone, with every step answered as allowed. -/
inductive ReturnsUnder (allows : ℓ → ε → σ → Prop) :
    Procedure ε σ ℓ ω φ α → σ → Except φ α → σ → Prop
  | done {r s} : ReturnsUnder allows (.done r) s r s
  | step {label act next s r s'} (moment : ε) : allows label moment s →
      ReturnsUnder allows (next moment s) (act moment s).1 r s' →
        ReturnsUnder allows (.step label act next) s r s'

def Ensures (allows : ℓ → ε → σ → Prop) (Q : Except φ α → σ → Prop) :
    Procedure ε σ ℓ ω φ α → σ → Prop
  | .done r, s => Q r s
  | .step label act next, s =>
      ∀ moment, allows label moment s → (next moment s).Ensures allows Q (act moment s).1

/-- **The precondition is sound.** -/
theorem ReturnsUnder.of_ensures {allows : ℓ → ε → σ → Prop} {Q : Except φ α → σ → Prop}
    {p : Procedure ε σ ℓ ω φ α} {s s' : σ} {r : Except φ α} (hp : p.ReturnsUnder allows s r s')
    (h : p.Ensures allows Q s) : Q r s' := by
  induction hp with
  | done => exact h
  | step moment hallows _ ih => exact ih (h moment hallows)

/-- Every step of the run with this answer is allowed it. -/
def AllowedAlong (allows : ℓ → ε → σ → Prop) (moment : ε) : Procedure ε σ ℓ ω φ α → σ → Prop
  | .done _, _ => True
  | .step label act next, s =>
      allows label moment s ∧ (next moment s).AllowedAlong allows moment (act moment s).1

instance decideAllowedAlong {allows : ℓ → ε → σ → Prop}
    [∀ label moment s, Decidable (allows label moment s)] (moment : ε) :
    (p : Procedure ε σ ℓ ω φ α) → (s : σ) → Decidable (p.AllowedAlong allows moment s)
  | .done _, _ => isTrue trivial
  | .step _ act next, s =>
      have : Decidable ((next moment s).AllowedAlong allows moment (act moment s).1) :=
        decideAllowedAlong moment (next moment s) (act moment s).1
      inferInstanceAs (Decidable (_ ∧ _))

theorem returnsUnder_run {allows : ℓ → ε → σ → Prop} {moment : ε}
    {p : Procedure ε σ ℓ ω φ α} {s : σ} (h : p.AllowedAlong allows moment s) :
    p.ReturnsUnder allows s (p.run moment s).1 (p.run moment s).2.1 := by
  induction p generalizing s with
  | done r => exact .done
  | step label act next ih => exact .step moment h.1 (ih moment _ h.2)

/-- Run with an answer of its own for every step, from the `n`th one on. -/
def outcome (answers : Nat → ε) : Nat → Procedure ε σ ℓ ω φ α → σ → Except φ α × σ
  | _, .done r, s => (r, s)
  | n, .step _ act next, s =>
      (next (answers n) s).outcome answers (n + 1) (act (answers n) s).1

def AllowedSince (allows : ℓ → ε → σ → Prop) (answers : Nat → ε) :
    Nat → Procedure ε σ ℓ ω φ α → σ → Prop
  | _, .done _, _ => True
  | n, .step label act next, s =>
      allows label (answers n) s ∧
        (next (answers n) s).AllowedSince allows answers (n + 1) (act (answers n) s).1

instance decideAllowedSince {allows : ℓ → ε → σ → Prop}
    [∀ label moment s, Decidable (allows label moment s)] (answers : Nat → ε) :
    (n : Nat) → (p : Procedure ε σ ℓ ω φ α) → (s : σ) →
      Decidable (p.AllowedSince allows answers n s)
  | _, .done _, _ => isTrue trivial
  | n, .step _ act next, s =>
      have : Decidable ((next (answers n) s).AllowedSince allows answers (n + 1)
          (act (answers n) s).1) :=
        decideAllowedSince answers (n + 1) (next (answers n) s) (act (answers n) s).1
      inferInstanceAs (Decidable (_ ∧ _))

theorem allowedSince_of_forall {allows : ℓ → ε → σ → Prop} {answers : Nat → ε}
    (h : ∀ label moment s, allows label moment s) (n : Nat) (p : Procedure ε σ ℓ ω φ α) (s : σ) :
    p.AllowedSince allows answers n s := by
  induction p generalizing n s with
  | done r => trivial
  | step label act next ih => exact ⟨h _ _ _, ih _ _ _ _⟩

theorem AllowedSince.mono {allows allows' : ℓ → ε → σ → Prop} {answers : Nat → ε} {n : Nat}
    {p : Procedure ε σ ℓ ω φ α} {s : σ} (h : p.AllowedSince allows answers n s)
    (hallows : ∀ label moment s, allows label moment s → allows' label moment s) :
    p.AllowedSince allows' answers n s := by
  induction p generalizing n s with
  | done r => trivial
  | step label act next ih => exact ⟨hallows _ _ _ h.1, ih _ _ h.2⟩

theorem returnsUnder_outcome {allows : ℓ → ε → σ → Prop} {answers : Nat → ε} {n : Nat}
    {p : Procedure ε σ ℓ ω φ α} {s : σ} (h : p.AllowedSince allows answers n s) :
    p.ReturnsUnder allows s (p.outcome answers n s).1 (p.outcome answers n s).2 := by
  induction p generalizing n s with
  | done r => exact .done
  | step label act next ih => exact .step (answers n) h.1 (ih (answers n) s h.2)

namespace Ensures

variable {allows : ℓ → ε → σ → Prop} {s : σ}

theorem mono {p : Procedure ε σ ℓ ω φ α} {P Q : Except φ α → σ → Prop}
    (h : p.Ensures allows P s) (hPQ : ∀ r t, P r t → Q r t) : p.Ensures allows Q s := by
  induction p generalizing s with
  | done r => exact hPQ r s h
  | step label act next ih => exact fun moment hallows => ih moment s (h moment hallows)

theorem of_forall {p : Procedure ε σ ℓ ω φ α} {Q : Except φ α → σ → Prop} (h : ∀ r t, Q r t) :
    p.Ensures allows Q s := by
  induction p generalizing s with
  | done r => exact h r s
  | step label act next ih => exact fun moment _ => ih moment s

/-- Where less is allowed as much is ensured. -/
theorem under {allows' : ℓ → ε → σ → Prop} {p : Procedure ε σ ℓ ω φ α}
    {Q : Except φ α → σ → Prop} (h : p.Ensures allows Q s)
    (hallows : ∀ label moment s, allows' label moment s → allows label moment s) :
    p.Ensures allows' Q s := by
  induction p generalizing s with
  | done r => exact h
  | step label act next ih =>
      exact fun moment hmoment => ih moment s (h moment (hallows label moment s hmoment))

theorem pure {a : α} {Q : Except φ α → σ → Prop} (h : Q (.ok a) s) :
    (Pure.pure a : Procedure ε σ ℓ ω φ α).Ensures allows Q s := h

theorem ofExcept {r : Except φ α} {Q : Except φ α → σ → Prop} (h : Q r s) :
    (ofExcept r : Procedure ε σ ℓ ω φ α).Ensures allows Q s := h

theorem call {label : ℓ} {f : ε → σ → Except φ α × σ} {Q : Except φ α → σ → Prop}
    (h : ∀ moment, allows label moment s → Q (f moment s).1 (f moment s).2) :
    (call label f : Procedure ε σ ℓ ω φ α).Ensures allows Q s := h

theorem and {p : Procedure ε σ ℓ ω φ α} {P Q : Except φ α → σ → Prop} (hP : p.Ensures allows P s)
    (hQ : p.Ensures allows Q s) : p.Ensures allows (fun r t => P r t ∧ Q r t) s := by
  induction p generalizing s with
  | done r => exact ⟨hP, hQ⟩
  | step label act next ih =>
      exact fun moment hallows => ih moment s (hP moment hallows) (hQ moment hallows)

/-- A sequence goes on where the first part returns, and ends where it fails. -/
theorem bind {p : Procedure ε σ ℓ ω φ α} {f : α → Procedure ε σ ℓ ω φ β}
    {P : Except φ α → σ → Prop} {Q : Except φ β → σ → Prop} (hp : p.Ensures allows P s)
    (hok : ∀ a t, P (.ok a) t → (f a).Ensures allows Q t)
    (herror : ∀ e t, P (.error e) t → Q (.error e) t) : (p >>= f).Ensures allows Q s := by
  change (p.bind f).Ensures allows Q s
  induction p generalizing s with
  | done r =>
      cases r with
      | ok a => exact hok a s hp
      | error e => exact herror e s hp
  | step label act next ih => exact fun moment hallows => ih moment s (hp moment hallows)

/-- The first part always returns. -/
theorem bind_returns {p : Procedure ε σ ℓ ω φ α} {f : α → Procedure ε σ ℓ ω φ β}
    {P : α → σ → Prop} {Q : Except φ β → σ → Prop}
    (hp : p.Ensures allows (fun r t => ∃ a, r = .ok a ∧ P a t) s)
    (hf : ∀ a t, P a t → (f a).Ensures allows Q t) : (p >>= f).Ensures allows Q s := by
  refine bind hp ?_ ?_
  · rintro a t ⟨_, ⟨⟩, h⟩
    exact hf a t h
  · rintro e t ⟨_, ⟨⟩, -⟩

theorem attempt {p : Procedure ε σ ℓ ω φ α} {Q : Except φ' (Except φ α) → σ → Prop}
    (h : p.Ensures allows (fun r t => Q (.ok r) t) s) : p.attempt.Ensures allows Q s := by
  induction p generalizing s with
  | done r => exact h
  | step label act next ih => exact fun moment hallows => ih moment s (h moment hallows)

theorem mapError {f : φ → φ'} {p : Procedure ε σ ℓ ω φ α} {Q : Except φ' α → σ → Prop}
    (h : p.Ensures allows (fun r t => Q (r.mapError f) t) s) :
    (p.mapError f).Ensures allows Q s := by
  induction p generalizing s with
  | done r => exact h
  | step label act next ih => exact fun moment hallows => ih moment s (h moment hallows)

/-- A check that fails ends the sequence, and leaves the state. -/
theorem ofExcept_bind {r : Except φ α} {f : α → Procedure ε σ ℓ ω φ β}
    {Q : Except φ β → σ → Prop} (hok : ∀ a, r = .ok a → (f a).Ensures allows Q s)
    (herror : ∀ e, r = .error e → Q (.error e) s) :
    (Procedure.ofExcept r >>= f).Ensures allows Q s :=
  bind (P := fun r' t => r' = r ∧ t = s) ⟨rfl, rfl⟩
    (by rintro a t ⟨hr, rfl⟩; exact hok a hr.symm)
    (by rintro e t ⟨hr, rfl⟩; exact herror e hr.symm)

end Ensures

/-- The first part goes on as it returns, or ends the sequence. -/
theorem ensures_guarded {allows : ℓ → ε → σ → Prop} {s : σ} {p : Procedure ε σ ℓ ω φ α}
    {f : α → Procedure ε σ ℓ ω φ β} {Q : Except φ β → σ → Prop}
    (hp : p.Ensures allows (fun r t => (∃ a, r = .ok a ∧ (f a).Ensures allows Q t) ∨
      ∃ e, r = .error e ∧ Q (.error e) t) s) : (p >>= f).Ensures allows Q s := by
  refine .bind hp ?_ ?_
  · rintro a t (⟨_, ⟨⟩, h⟩ | ⟨_, ⟨⟩, _⟩)
    exact h
  · rintro e t (⟨_, ⟨⟩, _⟩ | ⟨_, ⟨⟩, h⟩)
    exact h

end Procedure

end SyncPlus
