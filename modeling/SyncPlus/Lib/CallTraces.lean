import SyncPlus.Lib.Preconditions

/-!
# The calls of a run

A procedure alone on its state makes calls: each of its steps, by its label, with the
answer that the environment gave it. `ReturnsAlong` is a run with the calls it makes,
in their order, which it leaves to no part of the procedure to write down.

`p.EnsuresAlong allows Q` is the weakest precondition of a `Q` that speaks of the
calls as well, those before `p` included. What `Ensures` says of a part is carried
over with the labels that the part has (`Labels`, `EnsuresAlong.of_ensures`).
-/

namespace SyncPlus

namespace Procedure

variable {ε σ ℓ ω φ φ' α β : Type}

/-- Run alone, with these calls, each answered as allowed. -/
inductive ReturnsAlong (allows : ℓ → ε → σ → Prop) :
    Procedure ε σ ℓ ω φ α → σ → List (ℓ × ε) → Except φ α → σ → Prop
  | done {r s} : ReturnsAlong allows (.done r) s [] r s
  | step {label act next s calls r s'} (moment : ε) : allows label moment s →
      ReturnsAlong allows (next moment s) (act moment s).1 calls r s' →
        ReturnsAlong allows (.step label act next) s ((label, moment) :: calls) r s'

def EnsuresAlong (allows : ℓ → ε → σ → Prop) (Q : Except φ α → List (ℓ × ε) → σ → Prop) :
    Procedure ε σ ℓ ω φ α → List (ℓ × ε) → σ → Prop
  | .done r, calls, s => Q r calls s
  | .step label act next, calls, s =>
      ∀ moment, allows label moment s →
        (next moment s).EnsuresAlong allows Q (calls ++ [(label, moment)]) (act moment s).1

/-- **The precondition is sound.** -/
theorem ReturnsAlong.of_ensuresAlong {allows : ℓ → ε → σ → Prop}
    {Q : Except φ α → List (ℓ × ε) → σ → Prop} {p : Procedure ε σ ℓ ω φ α} {s s' : σ}
    {calls before : List (ℓ × ε)} {r : Except φ α} (hp : p.ReturnsAlong allows s calls r s')
    (h : p.EnsuresAlong allows Q before s) : Q r (before ++ calls) s' := by
  induction hp generalizing before with
  | done => rwa [List.append_nil]
  | step moment hallows _ ih =>
      have hrest := ih (h moment hallows)
      rwa [List.append_assoc, List.singleton_append] at hrest

/-- The calls of the run with an answer of its own for every step. -/
def callsOf (answers : Nat → ε) : Nat → Procedure ε σ ℓ ω φ α → σ → List (ℓ × ε)
  | _, .done _, _ => []
  | n, .step label act next, s =>
      (label, answers n) :: (next (answers n) s).callsOf answers (n + 1) (act (answers n) s).1

theorem returnsAlong_outcome {allows : ℓ → ε → σ → Prop} {answers : Nat → ε} {n : Nat}
    {p : Procedure ε σ ℓ ω φ α} {s : σ} (h : p.AllowedSince allows answers n s) :
    p.ReturnsAlong allows s (p.callsOf answers n s) (p.outcome answers n s).1
      (p.outcome answers n s).2 := by
  induction p generalizing n s with
  | done r => exact .done
  | step label act next ih => exact .step (answers n) h.1 (ih (answers n) s h.2)

/-! ## Labels -/

/-- The calls made since then have labels of `L`. -/
def CallsSince (L : ℓ → Prop) (calls after : List (ℓ × ε)) : Prop :=
  ∃ own, after = calls ++ own ∧ ∀ call ∈ own, L call.1

namespace CallsSince

variable {L L' : ℓ → Prop} {calls after later : List (ℓ × ε)}

theorem refl : CallsSince L calls calls := ⟨[], (List.append_nil calls).symm, nofun⟩

theorem snoc {label : ℓ} {moment : ε} (h : L label) :
    CallsSince L calls (calls ++ [(label, moment)]) :=
  ⟨_, rfl, fun call hcall => by rw [List.mem_singleton.mp hcall]; exact h⟩

theorem trans (h : CallsSince L calls after) (h' : CallsSince L after later) :
    CallsSince L calls later := by
  obtain ⟨own, rfl, hown⟩ := h
  obtain ⟨own', rfl, hown'⟩ := h'
  exact ⟨own ++ own', List.append_assoc .., List.forall_mem_append.mpr ⟨hown, hown'⟩⟩

theorem mono (h : CallsSince L calls after) (hL : ∀ label, L label → L' label) :
    CallsSince L' calls after := by
  obtain ⟨own, rfl, hown⟩ := h
  exact ⟨own, rfl, fun call hcall => hL _ (hown call hcall)⟩

end CallsSince

/-- Every step of the procedure has a label of `L`. -/
def Labels (L : ℓ → Prop) : Procedure ε σ ℓ ω φ α → Prop
  | .done _ => True
  | .step label _ next => L label ∧ ∀ moment s, (next moment s).Labels L

namespace Labels

variable {L L' : ℓ → Prop}

theorem mono {p : Procedure ε σ ℓ ω φ α} (h : p.Labels L) (hL : ∀ label, L label → L' label) :
    p.Labels L' := by
  induction p with
  | done r => trivial
  | step label act next ih => exact ⟨hL _ h.1, fun moment s => ih moment s (h.2 moment s)⟩

theorem pure {a : α} : (Pure.pure a : Procedure ε σ ℓ ω φ α).Labels L := trivial

theorem ofExcept {r : Except φ α} : (ofExcept r : Procedure ε σ ℓ ω φ α).Labels L := trivial

theorem call {label : ℓ} {f : ε → σ → Except φ α × σ} (h : L label) :
    (call label f : Procedure ε σ ℓ ω φ α).Labels L := ⟨h, fun _ _ => trivial⟩

theorem bind {p : Procedure ε σ ℓ ω φ α} {f : α → Procedure ε σ ℓ ω φ β} (hp : p.Labels L)
    (hf : ∀ a, (f a).Labels L) : (p >>= f).Labels L := by
  change (p.bind f).Labels L
  induction p with
  | done r =>
      cases r with
      | ok a => exact hf a
      | error e => trivial
  | step label act next ih => exact ⟨hp.1, fun moment s => ih moment s (hp.2 moment s)⟩

theorem attempt {p : Procedure ε σ ℓ ω φ α} (hp : p.Labels L) :
    (p.attempt : Procedure ε σ ℓ ω φ' (Except φ α)).Labels L := by
  induction p with
  | done r => trivial
  | step label act next ih => exact ⟨hp.1, fun moment s => ih moment s (hp.2 moment s)⟩

theorem mapError {f : φ → φ'} {p : Procedure ε σ ℓ ω φ α} (hp : p.Labels L) :
    (p.mapError f).Labels L := by
  induction p with
  | done r => trivial
  | step label act next ih => exact ⟨hp.1, fun moment s => ih moment s (hp.2 moment s)⟩

end Labels

/-! ## Rules -/

namespace EnsuresAlong

variable {allows : ℓ → ε → σ → Prop} {calls : List (ℓ × ε)} {s : σ}

theorem mono {p : Procedure ε σ ℓ ω φ α} {P Q : Except φ α → List (ℓ × ε) → σ → Prop}
    (h : p.EnsuresAlong allows P calls s) (hPQ : ∀ r calls t, P r calls t → Q r calls t) :
    p.EnsuresAlong allows Q calls s := by
  induction p generalizing calls s with
  | done r => exact hPQ r calls s h
  | step label act next ih => exact fun moment hallows => ih moment s (h moment hallows)

theorem pure {a : α} {Q : Except φ α → List (ℓ × ε) → σ → Prop} (h : Q (.ok a) calls s) :
    (Pure.pure a : Procedure ε σ ℓ ω φ α).EnsuresAlong allows Q calls s := h

theorem ofExcept {r : Except φ α} {Q : Except φ α → List (ℓ × ε) → σ → Prop} (h : Q r calls s) :
    (ofExcept r : Procedure ε σ ℓ ω φ α).EnsuresAlong allows Q calls s := h

theorem call {label : ℓ} {f : ε → σ → Except φ α × σ}
    {Q : Except φ α → List (ℓ × ε) → σ → Prop}
    (h : ∀ moment, allows label moment s →
      Q (f moment s).1 (calls ++ [(label, moment)]) (f moment s).2) :
    (call label f : Procedure ε σ ℓ ω φ α).EnsuresAlong allows Q calls s := h

/-- A sequence goes on where the first part returns, and ends where it fails. -/
theorem bind {p : Procedure ε σ ℓ ω φ α} {f : α → Procedure ε σ ℓ ω φ β}
    {P : Except φ α → List (ℓ × ε) → σ → Prop} {Q : Except φ β → List (ℓ × ε) → σ → Prop}
    (hp : p.EnsuresAlong allows P calls s)
    (hok : ∀ a calls t, P (.ok a) calls t → (f a).EnsuresAlong allows Q calls t)
    (herror : ∀ e calls t, P (.error e) calls t → Q (.error e) calls t) :
    (p >>= f).EnsuresAlong allows Q calls s := by
  change (p.bind f).EnsuresAlong allows Q calls s
  induction p generalizing calls s with
  | done r =>
      cases r with
      | ok a => exact hok a calls s hp
      | error e => exact herror e calls s hp
  | step label act next ih => exact fun moment hallows => ih moment s (hp moment hallows)

/-- The first part always returns. -/
theorem bind_returns {p : Procedure ε σ ℓ ω φ α} {f : α → Procedure ε σ ℓ ω φ β}
    {P : α → List (ℓ × ε) → σ → Prop} {Q : Except φ β → List (ℓ × ε) → σ → Prop}
    (hp : p.EnsuresAlong allows (fun r calls t => ∃ a, r = .ok a ∧ P a calls t) calls s)
    (hf : ∀ a calls t, P a calls t → (f a).EnsuresAlong allows Q calls t) :
    (p >>= f).EnsuresAlong allows Q calls s := by
  refine bind hp ?_ ?_
  · rintro a calls t ⟨_, ⟨⟩, h⟩
    exact hf a calls t h
  · rintro e calls t ⟨_, ⟨⟩, -⟩

theorem attempt {p : Procedure ε σ ℓ ω φ α}
    {Q : Except φ' (Except φ α) → List (ℓ × ε) → σ → Prop}
    (h : p.EnsuresAlong allows (fun r calls t => Q (.ok r) calls t) calls s) :
    p.attempt.EnsuresAlong allows Q calls s := by
  induction p generalizing calls s with
  | done r => exact h
  | step label act next ih => exact fun moment hallows => ih moment s (h moment hallows)

theorem mapError {f : φ → φ'} {p : Procedure ε σ ℓ ω φ α}
    {Q : Except φ' α → List (ℓ × ε) → σ → Prop}
    (h : p.EnsuresAlong allows (fun r calls t => Q (r.mapError f) calls t) calls s) :
    (p.mapError f).EnsuresAlong allows Q calls s := by
  induction p generalizing calls s with
  | done r => exact h
  | step label act next ih => exact fun moment hallows => ih moment s (h moment hallows)

/-- A check that fails ends the sequence, and makes no call. -/
theorem ofExcept_bind {r : Except φ α} {f : α → Procedure ε σ ℓ ω φ β}
    {Q : Except φ β → List (ℓ × ε) → σ → Prop}
    (hok : ∀ a, r = .ok a → (f a).EnsuresAlong allows Q calls s)
    (herror : ∀ e, r = .error e → Q (.error e) calls s) :
    (Procedure.ofExcept r >>= f).EnsuresAlong allows Q calls s :=
  bind (P := fun r' calls' t => r' = r ∧ calls' = calls ∧ t = s) ⟨rfl, rfl, rfl⟩
    (by rintro a _ t ⟨hr, rfl, rfl⟩; exact hok a hr.symm)
    (by rintro e _ t ⟨hr, rfl, rfl⟩; exact herror e hr.symm)

/-- The first part goes on as it returns, or ends the sequence. -/
theorem guarded {p : Procedure ε σ ℓ ω φ α} {f : α → Procedure ε σ ℓ ω φ β}
    {Q : Except φ β → List (ℓ × ε) → σ → Prop}
    (hp : p.EnsuresAlong allows (fun r calls t =>
      (∃ a, r = .ok a ∧ (f a).EnsuresAlong allows Q calls t) ∨
        ∃ e, r = .error e ∧ Q (.error e) calls t) calls s) :
    (p >>= f).EnsuresAlong allows Q calls s := by
  refine bind hp ?_ ?_
  · rintro a calls t (⟨_, ⟨⟩, h⟩ | ⟨_, ⟨⟩, _⟩)
    exact h
  · rintro e calls t (⟨_, ⟨⟩, _⟩ | ⟨_, ⟨⟩, h⟩)
    exact h

/-- What is ensured without the calls is ensured along them. -/
theorem along {p : Procedure ε σ ℓ ω φ α} {Q : Except φ α → σ → Prop} (h : p.Ensures allows Q s) :
    p.EnsuresAlong allows (fun r _ t => Q r t) calls s := by
  induction p generalizing calls s with
  | done r => exact h
  | step label act next ih => exact fun moment hallows => ih moment s (h moment hallows)

/-- **A part whose steps have labels of `L`** makes calls of `L` only. -/
theorem labelled {L : ℓ → Prop} {p : Procedure ε σ ℓ ω φ α}
    {Q : Except φ α → List (ℓ × ε) → σ → Prop} (h : p.EnsuresAlong allows Q calls s)
    (hlabels : p.Labels L) :
    p.EnsuresAlong allows (fun r after t => Q r after t ∧ CallsSince L calls after) calls s := by
  induction p generalizing calls s with
  | done r => exact ⟨h, .refl⟩
  | step label act next ih =>
      intro moment hallows
      refine (ih moment s (h moment hallows) (hlabels.2 moment s)).mono ?_
      rintro r after t ⟨hQ, hafter⟩
      exact ⟨hQ, (CallsSince.snoc hlabels.1).trans hafter⟩

theorem of_ensures {L : ℓ → Prop} {p : Procedure ε σ ℓ ω φ α} {Q : Except φ α → σ → Prop}
    (h : p.Ensures allows Q s) (hlabels : p.Labels L) :
    p.EnsuresAlong allows (fun r after t => Q r t ∧ CallsSince L calls after) calls s :=
  (along h).labelled hlabels

end EnsuresAlong

end Procedure

end SyncPlus
