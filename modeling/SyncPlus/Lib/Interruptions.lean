import SyncPlus.Lib.Preconditions

/-!
# Interrupted procedures

A process may die between any two steps of a procedure, and what the steps before have
done stays done. `p.interrupted answers n k` is the state after the first `k` steps.

Where the label of a step says all that the step may do (`Takes`), an invariant of every
interrupted state is a matter of the labels: if it is kept by the steps that are allowed
and broken by any other, then it holds in every interrupted state of a run exactly when
every step of the run is allowed (`interrupted_invariant_iff`).

Where an invariant depends on what has been returned as well, `p.Keeps allows I Q` is shown
along the program, by the same rules as `Ensures`; where it depends on nothing else, every
part of the program preserves it (`Preserves`).
-/

namespace SyncPlus

namespace Procedure

variable {ε σ ℓ ω φ φ' α β : Type}

/-- The state after `k` steps, or at the end, the first of them with the `n`th answer. -/
def interrupted (answers : Nat → ε) : Nat → Nat → Procedure ε σ ℓ ω φ α → σ → σ
  | _, 0, _, s => s
  | _, _ + 1, .done _, s => s
  | n, k + 1, .step _ act next, s =>
      (next (answers n) s).interrupted answers (n + 1) k (act (answers n) s).1

/-- Every step has a label of `L`, and does what its label says; what is returned is one
of `Q`. -/
def Takes (effect : ℓ → ε → σ → σ) (L : ℓ → Prop) (Q : α → Prop) :
    Procedure ε σ ℓ ω φ α → Prop
  | .done r => ∀ a, r = .ok a → Q a
  | .step label act next =>
      L label ∧ (∀ moment s, (act moment s).1 = effect label moment s) ∧
        ∀ moment s, (next moment s).Takes effect L Q

namespace Takes

variable {effect : ℓ → ε → σ → σ} {L : ℓ → Prop} {Q Q' : α → Prop}

theorem pure {a : α} (h : Q a) : (Pure.pure a : Procedure ε σ ℓ ω φ α).Takes effect L Q := by
  intro b hb
  cases hb
  exact h

theorem ofExcept {r : Except φ α} (h : ∀ a, r = .ok a → Q a) :
    (ofExcept r : Procedure ε σ ℓ ω φ α).Takes effect L Q :=
  h

theorem call {label : ℓ} {f : ε → σ → Except φ α × σ} (hlabel : L label)
    (heffect : ∀ moment s, (f moment s).2 = effect label moment s)
    (hresult : ∀ moment s a, (f moment s).1 = .ok a → Q a) :
    (call label f : Procedure ε σ ℓ ω φ α).Takes effect L Q :=
  ⟨hlabel, heffect, hresult⟩

theorem bind {R : β → Prop} {p : Procedure ε σ ℓ ω φ α} {f : α → Procedure ε σ ℓ ω φ β}
    (hp : p.Takes effect L Q) (hf : ∀ a, Q a → (f a).Takes effect L R) :
    (p >>= f).Takes effect L R := by
  show (p.bind f).Takes effect L R
  induction p with
  | done r =>
      cases r with
      | ok a => exact hf a (hp a rfl)
      | error e => nofun
  | step label act next ih =>
      obtain ⟨hlabel, heffect, hnext⟩ := hp
      exact ⟨hlabel, heffect, fun moment s => ih moment s (hnext moment s)⟩

theorem attempt {p : Procedure ε σ ℓ ω φ α} (hp : p.Takes effect L Q) :
    (p.attempt : Procedure ε σ ℓ ω φ' (Except φ α)).Takes effect L fun r =>
      ∀ a, r = .ok a → Q a := by
  induction p with
  | done r =>
      intro b hb
      cases hb
      exact hp
  | step label act next ih =>
      obtain ⟨hlabel, heffect, hnext⟩ := hp
      exact ⟨hlabel, heffect, fun moment s => ih moment s (hnext moment s)⟩

theorem mapError {f : φ → φ'} {p : Procedure ε σ ℓ ω φ α} (hp : p.Takes effect L Q) :
    (p.mapError f).Takes effect L Q := by
  induction p with
  | done r =>
      cases r with
      | ok a => exact fun b hb => hp b (by cases hb; rfl)
      | error e => nofun
  | step label act next ih =>
      obtain ⟨hlabel, heffect, hnext⟩ := hp
      exact ⟨hlabel, heffect, fun moment s => ih moment s (hnext moment s)⟩

end Takes

/-- **An invariant of every interrupted state** is one of the steps: allowed steps keep it,
and any other breaks it. -/
theorem interrupted_invariant_iff {effect : ℓ → ε → σ → σ} {L : ℓ → Prop} {Q : α → Prop}
    {allows : ℓ → ε → σ → Prop} {I : σ → Prop} {answers : Nat → ε}
    (hkeeps : ∀ label moment s, L label → I s → allows label moment s →
      I (effect label moment s))
    (hbreaks : ∀ label moment s, L label → I s → ¬ allows label moment s →
      ¬ I (effect label moment s))
    {p : Procedure ε σ ℓ ω φ α} (hp : p.Takes effect L Q) {n : Nat} {s : σ} (hs : I s) :
    (∀ k, I (p.interrupted answers n k s)) ↔ p.AllowedSince allows answers n s := by
  induction p generalizing n s with
  | done r =>
      refine iff_of_true (fun k => ?_) trivial
      cases k <;> exact hs
  | step label act next ih =>
      obtain ⟨hlabel, heffect, hnext⟩ := hp
      have hfirst := heffect (answers n) s
      constructor
      · intro hall
        have hallowed : allows label (answers n) s := by
          by_contra hnot
          have hbroken := hbreaks label (answers n) s hlabel hs hnot
          rw [← hfirst] at hbroken
          have hone := hall 1
          unfold interrupted at hone
          cases next (answers n) s <;> exact hbroken hone
        have hkept := hkeeps label (answers n) s hlabel hs hallowed
        rw [← hfirst] at hkept
        exact ⟨hallowed, (ih _ _ (hnext _ _) hkept).mp fun k => hall (k + 1)⟩
      · rintro ⟨hallowed, hrest⟩ k
        have hkept := hkeeps label (answers n) s hlabel hs hallowed
        rw [← hfirst] at hkept
        cases k with
        | zero => exact hs
        | succ k => exact (ih _ _ (hnext _ _) hkept).mpr hrest k

/-! ## Invariants at every step -/

/-- The invariant holds between any two steps, whatever is answered among what is allowed,
and the procedure ends in `Q`. -/
def Keeps (allows : ℓ → ε → σ → Prop) (I : σ → Prop) (Q : Except φ α → σ → Prop) :
    Procedure ε σ ℓ ω φ α → σ → Prop
  | .done r, s => I s ∧ Q r s
  | .step label act next, s =>
      I s ∧ ∀ moment, allows label moment s → (next moment s).Keeps allows I Q (act moment s).1

/-- **A procedure that keeps an invariant** may be interrupted at any step. -/
theorem Keeps.interrupted {allows : ℓ → ε → σ → Prop} {I : σ → Prop}
    {Q : Except φ α → σ → Prop} {answers : Nat → ε} {p : Procedure ε σ ℓ ω φ α} {n : Nat} {s : σ}
    (h : p.Keeps allows I Q s) (hallowed : p.AllowedSince allows answers n s) (k : Nat) :
    I (p.interrupted answers n k s) := by
  induction p generalizing n s k with
  | done r => cases k <;> exact h.1
  | step label act next ih =>
      cases k with
      | zero => exact h.1
      | succ k => exact ih (answers n) s (h.2 _ hallowed.1) hallowed.2 k

namespace Keeps

variable {allows : ℓ → ε → σ → Prop} {I J : σ → Prop} {s : σ}

theorem mono {p : Procedure ε σ ℓ ω φ α} {P Q : Except φ α → σ → Prop} (h : p.Keeps allows I P s)
    (hI : ∀ t, I t → J t) (hQ : ∀ r t, I t → P r t → Q r t) : p.Keeps allows J Q s := by
  induction p generalizing s with
  | done r => exact ⟨hI s h.1, hQ r s h.1 h.2⟩
  | step label act next ih =>
      exact ⟨hI s h.1, fun moment hallows => ih moment s (h.2 moment hallows)⟩

theorem pure {a : α} {Q : Except φ α → σ → Prop} (hI : I s) (hQ : Q (.ok a) s) :
    (Pure.pure a : Procedure ε σ ℓ ω φ α).Keeps allows I Q s :=
  ⟨hI, hQ⟩

theorem ofExcept {r : Except φ α} {Q : Except φ α → σ → Prop} (hI : I s) (hQ : Q r s) :
    (ofExcept r : Procedure ε σ ℓ ω φ α).Keeps allows I Q s :=
  ⟨hI, hQ⟩

theorem call {label : ℓ} {f : ε → σ → Except φ α × σ} {Q : Except φ α → σ → Prop} (hI : I s)
    (h : ∀ moment, allows label moment s →
      I (f moment s).2 ∧ Q (f moment s).1 (f moment s).2) :
    (call label f : Procedure ε σ ℓ ω φ α).Keeps allows I Q s :=
  ⟨hI, h⟩

theorem bind {p : Procedure ε σ ℓ ω φ α} {f : α → Procedure ε σ ℓ ω φ β}
    {P : Except φ α → σ → Prop} {Q : Except φ β → σ → Prop} (hp : p.Keeps allows I P s)
    (hok : ∀ a t, I t → P (.ok a) t → (f a).Keeps allows I Q t)
    (herror : ∀ e t, I t → P (.error e) t → Q (.error e) t) : (p >>= f).Keeps allows I Q s := by
  change (p.bind f).Keeps allows I Q s
  induction p generalizing s with
  | done r =>
      cases r with
      | ok a => exact hok a s hp.1 hp.2
      | error e => exact ⟨hp.1, herror e s hp.1 hp.2⟩
  | step label act next ih =>
      exact ⟨hp.1, fun moment hallows => ih moment s (hp.2 moment hallows)⟩

theorem attempt {p : Procedure ε σ ℓ ω φ α} {Q : Except φ' (Except φ α) → σ → Prop}
    (h : p.Keeps allows I (fun r t => Q (.ok r) t) s) : p.attempt.Keeps allows I Q s := by
  induction p generalizing s with
  | done r => exact h
  | step label act next ih => exact ⟨h.1, fun moment hallows => ih moment s (h.2 moment hallows)⟩

end Keeps

/-- The invariant is kept from every state of it on, whatever is returned. -/
def Preserves (allows : ℓ → ε → σ → Prop) (I : σ → Prop) (p : Procedure ε σ ℓ ω φ α) : Prop :=
  ∀ s, I s → p.Keeps allows I (fun _ _ => True) s

namespace Preserves

variable {allows : ℓ → ε → σ → Prop} {I : σ → Prop}

theorem pure {a : α} : (Pure.pure a : Procedure ε σ ℓ ω φ α).Preserves allows I :=
  fun _ hI => .pure hI trivial

theorem ofExcept {r : Except φ α} : (ofExcept r : Procedure ε σ ℓ ω φ α).Preserves allows I :=
  fun _ hI => .ofExcept hI trivial

theorem call {label : ℓ} {f : ε → σ → Except φ α × σ}
    (h : ∀ moment s, I s → allows label moment s → I (f moment s).2) :
    (call label f : Procedure ε σ ℓ ω φ α).Preserves allows I :=
  fun s hI => .call hI fun moment hallows => ⟨h moment s hI hallows, trivial⟩

theorem bind {p : Procedure ε σ ℓ ω φ α} {f : α → Procedure ε σ ℓ ω φ β}
    (hp : p.Preserves allows I) (hf : ∀ a, (f a).Preserves allows I) :
    (p >>= f).Preserves allows I :=
  fun s hI => .bind (hp s hI) (fun a t ht _ => hf a t ht) fun _ _ _ _ => trivial

theorem attempt {p : Procedure ε σ ℓ ω φ α} (hp : p.Preserves allows I) :
    (p.attempt : Procedure ε σ ℓ ω φ' (Except φ α)).Preserves allows I :=
  fun s hI => .attempt (hp s hI)

theorem interrupted {p : Procedure ε σ ℓ ω φ α} {answers : Nat → ε} {n k : Nat} {s : σ}
    (hp : p.Preserves allows I) (hs : I s) (hallowed : p.AllowedSince allows answers n s) :
    I (p.interrupted answers n k s) :=
  (hp s hs).interrupted hallowed k

end Preserves

/-! ## Runs that can be had -/

namespace ReturnsUnder

variable {allows : ℓ → ε → σ → Prop} {s t u : σ}

theorem call {label : ℓ} {f : ε → σ → Except φ α × σ} {r : Except φ α} (moment : ε)
    (hallows : allows label moment s) (hf : f moment s = (r, t)) :
    (call label f : Procedure ε σ ℓ ω φ α).ReturnsUnder allows s r t := by
  refine .step moment hallows ?_
  rw [hf]
  exact .done

theorem bind {p : Procedure ε σ ℓ ω φ α} {f : α → Procedure ε σ ℓ ω φ β} {a : α}
    {r : Except φ β} (hp : p.ReturnsUnder allows s (.ok a) t)
    (hf : (f a).ReturnsUnder allows t r u) : (p >>= f).ReturnsUnder allows s r u := by
  change (p.bind f).ReturnsUnder allows s r u
  generalize hr : Except.ok a = result at hp
  induction hp with
  | done =>
      subst hr
      exact hf
  | step moment hallows _ ih => exact .step moment hallows (ih hf hr)

theorem attempt {p : Procedure ε σ ℓ ω φ α} {r : Except φ α} (hp : p.ReturnsUnder allows s r t) :
    (p.attempt : Procedure ε σ ℓ ω φ' (Except φ α)).ReturnsUnder allows s (.ok r) t := by
  induction hp with
  | done => exact .done
  | step moment hallows _ ih => exact .step moment hallows ih

end ReturnsUnder

/-- A run that can be had is the run of some answers. -/
theorem ReturnsUnder.exists_answers {allows : ℓ → ε → σ → Prop} {p : Procedure ε σ ℓ ω φ α}
    {s t : σ} {r : Except φ α} (default : ε) (h : p.ReturnsUnder allows s r t) (n : Nat) :
    ∃ answers, p.AllowedSince allows answers n s ∧ p.outcome answers n s = (r, t) := by
  induction h generalizing n with
  | done => exact ⟨fun _ => default, trivial, rfl⟩
  | @step label act next s r t moment hallows _ ih =>
      obtain ⟨answers, hallowed, houtcome⟩ := ih (n + 1)
      -- only the answers from `n + 1` on matter to the rest
      have hrest : ∀ (q : Procedure ε σ ℓ ω φ α) (m : Nat) (s : σ), n < m →
          (q.AllowedSince allows (Function.update answers n moment) m s ↔
            q.AllowedSince allows answers m s) ∧
          q.outcome (Function.update answers n moment) m s = q.outcome answers m s := by
        intro q
        induction q with
        | done r => exact fun _ _ _ => ⟨Iff.rfl, rfl⟩
        | step label act next ih =>
            intro m s hm
            have hne : Function.update answers n moment m = answers m :=
              Function.update_of_ne (Nat.ne_of_gt hm) ..
            simp only [AllowedSince, outcome, hne]
            exact ⟨and_congr_right fun _ => (ih _ _ (m + 1) _ (by omega)).1,
              (ih _ _ (m + 1) _ (by omega)).2⟩
      refine ⟨Function.update answers n moment, ?_, ?_⟩
      · simp only [AllowedSince, Function.update_self]
        exact ⟨hallows, (hrest _ _ _ (Nat.lt_succ_self n)).1.mpr hallowed⟩
      · simp only [outcome, Function.update_self]
        exact (hrest _ _ _ (Nat.lt_succ_self n)).2.trans houtcome

/-- The end of a run is one of its states. -/
theorem exists_interrupted_eq (answers : Nat → ε) (p : Procedure ε σ ℓ ω φ α) (n : Nat) (s : σ) :
    ∃ k, p.interrupted answers n k s = (p.outcome answers n s).2 := by
  induction p generalizing n s with
  | done r => exact ⟨0, rfl⟩
  | step label act next ih =>
      obtain ⟨k, hk⟩ := ih (answers n) s (n + 1) (act (answers n) s).1
      exact ⟨k + 1, hk⟩

end Procedure

end SyncPlus
