import Mathlib.Tactic.Common

/-!
# Checks in sequence

A fallible function of the modeled program is a sequence of checks
over `Except`: each check either lets the computation go on or ends it
with an error. The lemmas here take such a sequence apart one check at
a time, so that no consumer ever unfolds `bind`.
-/

namespace SyncPlus

variable {ε α β : Type}

/-- Go on when `p` holds, end with `e` otherwise. -/
def ensure (p : Prop) [Decidable p] (e : ε) : Except ε Unit :=
  if p then .ok () else .error e

/-- The value of `x`, or the error `e` when there is none. -/
def orError (x : Option α) (e : ε) : Except ε α :=
  match x with
  | some a => .ok a
  | none => .error e

@[simp] theorem ensure_eq_ok {p : Prop} [Decidable p] {e : ε} {u : Unit} :
    ensure p e = .ok u ↔ p := by
  unfold ensure
  split <;> simp_all

@[simp] theorem ensure_eq_error {p : Prop} [Decidable p] {e e' : ε} :
    ensure p e = .error e' ↔ ¬ p ∧ e = e' := by
  unfold ensure
  split <;> simp_all

theorem ensure_of {p : Prop} [Decidable p] {e : ε} (h : p) :
    ensure p e = .ok () :=
  ensure_eq_ok.mpr h

@[simp] theorem orError_eq_ok {x : Option α} {e : ε} {a : α} :
    orError x e = .ok a ↔ x = some a := by
  cases x <;> simp [orError]

@[simp] theorem orError_some {e : ε} {a : α} : orError (some a) e = .ok a := rfl

/-- A bind succeeds exactly when both halves do. -/
theorem bind_eq_ok {x : Except ε α} {f : α → Except ε β} {b : β} :
    (x >>= f) = .ok b ↔ ∃ a, x = .ok a ∧ f a = .ok b := by
  rcases x with e | a <;> simp [bind, Except.bind]

theorem bind_eq_error {x : Except ε α} {f : α → Except ε β} {e : ε} :
    (x >>= f) = .error e ↔ x = .error e ∨ ∃ a, x = .ok a ∧ f a = .error e := by
  rcases x with e' | a <;> simp [bind, Except.bind]

theorem bind_ok {x : Except ε α} {f : α → Except ε β} {a : α} (h : x = .ok a) :
    (x >>= f) = f a := by
  subst h; rfl

@[simp] theorem ok_bind {f : α → Except ε β} {a : α} :
    ((Except.ok a : Except ε α) >>= f) = f a := rfl

theorem map_eq_ok {x : Except ε α} {f : α → β} {b : β} :
    x.map f = .ok b ↔ ∃ a, x = .ok a ∧ f a = b := by
  cases x <;> simp [Except.map]

theorem mapError_eq_ok {ε' : Type} {x : Except ε α} {f : ε → ε'} {a : α} :
    x.mapError f = .ok a ↔ x = .ok a := by
  cases x <;> simp [Except.mapError]

theorem unit_bind_eq_ok {x : Except ε Unit} {f : Unit → Except ε β} {b : β} :
    (x >>= f) = .ok b ↔ x = .ok () ∧ f () = .ok b := by
  rcases x with e | ⟨⟩ <;> simp [bind, Except.bind]

/-- A check followed by a computation. -/
theorem ensure_bind_eq_ok {p : Prop} [Decidable p] {e : ε} {f : Unit → Except ε β}
    {b : β} : (ensure p e >>= f) = .ok b ↔ p ∧ f () = .ok b := by
  rw [unit_bind_eq_ok, ensure_eq_ok]

/-- A check of every entry of a list. -/
theorem forM_eq_ok {f : α → Except ε Unit} {l : List α} :
    l.forM f = .ok () ↔ ∀ a ∈ l, f a = .ok () := by
  induction l with
  | nil => simp [pure, Except.pure]
  | cons a l ih =>
      have hcons : (a :: l).forM f = .ok () ↔ f a = .ok () ∧ l.forM f = .ok () :=
        unit_bind_eq_ok
      rw [hcons, ih]
      simp

/-- A function that succeeds where `P` holds, with a value that is known,
applied to every entry of a list. -/
theorem mapM_eq_ok {f : α → Except ε β} {g : α → β} {P : α → Prop} {l : List α}
    {bs : List β} (h : ∀ a ∈ l, ∀ b, f a = .ok b ↔ b = g a ∧ P a) :
    l.mapM f = .ok bs ↔ bs = l.map g ∧ ∀ a ∈ l, P a := by
  induction l generalizing bs with
  | nil =>
      rw [List.mapM_nil]
      simp [pure, Except.pure, eq_comm]
  | cons a l ih =>
      obtain ⟨hfirst, hrest⟩ := List.forall_mem_cons.mp h
      rw [List.mapM_cons, bind_eq_ok]
      constructor
      · rintro ⟨b, hb, hbs⟩
        obtain ⟨bs', hbs', hbs⟩ := bind_eq_ok.mp hbs
        cases hbs
        obtain ⟨rfl, ha⟩ := (hfirst b).mp hb
        obtain ⟨rfl, hl⟩ := (ih hrest).mp hbs'
        exact ⟨rfl, List.forall_mem_cons.mpr ⟨ha, hl⟩⟩
      · rintro ⟨rfl, hall⟩
        obtain ⟨ha, hl⟩ := List.forall_mem_cons.mp hall
        refine ⟨g a, (hfirst _).mpr ⟨rfl, ha⟩, bind_eq_ok.mpr ⟨l.map g, ?_, rfl⟩⟩
        exact (ih hrest).mpr ⟨rfl, hl⟩

/-- What succeeds with a value that passes a test. -/
theorem exists_ok {ε α : Type} {x : Except ε α} {test : α → Bool}
    (h : x.toOption.any test = true) : ∃ a, x = .ok a ∧ test a = true := by
  cases x with
  | error error => cases h
  | ok a => exact ⟨a, rfl, h⟩

end SyncPlus
