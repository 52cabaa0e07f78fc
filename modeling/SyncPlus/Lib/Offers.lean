import Mathlib.Data.List.Induction

/-!
# Offered events

A component that accepts or rejects what it is offered: a step function
that fails on a rejected event and leaves the state as it was. A run
takes a list of offers in order and keeps the list of those accepted.

The one induction over runs is `offerAll_invariant`: a relation between
the state and the accepted events that every accepted offer extends
holds after any run. Consumers prove the step, never the run.
-/

namespace SyncPlus

variable {σ ε α : Type*}

/-- One offer: an accepted event moves the state and joins the accepted
list, a rejected one changes neither. -/
def offer (step : σ → α → Except ε σ) (r : σ × List α) (e : α) : σ × List α :=
  match step r.1 e with
  | .ok s => (s, r.2 ++ [e])
  | .error _ => r

/-- Offer a list of events in order, from a state and what it has
accepted so far. -/
def offerAll (step : σ → α → Except ε σ) (r : σ × List α) (es : List α) :
    σ × List α :=
  es.foldl (offer step) r

section

variable {step : σ → α → Except ε σ}

@[simp] theorem offerAll_nil (r : σ × List α) : offerAll step r [] = r := rfl

@[simp] theorem offerAll_cons (r : σ × List α) (e : α) (es : List α) :
    offerAll step r (e :: es) = offerAll step (offer step r e) es := rfl

theorem offerAll_append (r : σ × List α) (es fs : List α) :
    offerAll step r (es ++ fs) = offerAll step (offerAll step r es) fs :=
  List.foldl_append

theorem offer_of_ok {r : σ × List α} {e : α} {s : σ} (h : step r.1 e = .ok s) :
    offer step r e = (s, r.2 ++ [e]) := by
  simp [offer, h]

theorem offer_of_error {r : σ × List α} {e : α} {x : ε}
    (h : step r.1 e = .error x) : offer step r e = r := by
  simp [offer, h]

/-- **The invariant rule.** A relation between state and accepted events
that holds at the start and is kept by every accepted step holds after
every run. -/
theorem offerAll_invariant (Inv : σ → List α → Prop)
    (hstep : ∀ s acc e s', Inv s acc → step s e = .ok s' → Inv s' (acc ++ [e]))
    {r : σ × List α} (h : Inv r.1 r.2) (es : List α) :
    Inv (offerAll step r es).1 (offerAll step r es).2 := by
  induction es generalizing r with
  | nil => exact h
  | cons e es ih =>
      rw [offerAll_cons]
      apply ih
      cases hs : step r.1 e with
      | error x => rwa [offer_of_error hs]
      | ok s' =>
          rw [offer_of_ok hs]
          exact hstep _ _ _ _ h hs

end

end SyncPlus
