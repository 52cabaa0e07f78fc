import Mathlib.Logic.Function.Basic
import SyncPlus.Lib.Checks

/-!
# Procedures of several connections

Connections work on one shared state. Each runs a procedure at a time: a
sequence of atomic steps, each of which may read and change the state,
and between which every other connection may take steps of its own. A
step also leaves marks in a trace of what was done, and sees a moment of
what surrounds the state, such as a clock.

`Outline` is the proof outline of a procedure against a `Discipline`: an
invariant of the world, what a connection relies on while it waits at a
step, and what each step guarantees in return. When every step that is
allowed gives the others what they rely on, the invariant holds in every
world the connections reach (`Reached.outline`).
-/

namespace SyncPlus

/-- A procedure has ended, or takes a step and goes on by what it saw. The
label says what the step is for. -/
inductive Procedure (ε σ ℓ ω φ α : Type) where
  | done (result : Except φ α)
  | step (label : ℓ) (act : ε → σ → σ × List ω)
      (next : ε → σ → Procedure ε σ ℓ ω φ α)

namespace Procedure

variable {ε σ ℓ ω φ α β : Type}

protected def bind (p : Procedure ε σ ℓ ω φ α) (f : α → Procedure ε σ ℓ ω φ β) :
    Procedure ε σ ℓ ω φ β :=
  match p with
  | .done (.ok a) => f a
  | .done (.error e) => .done (.error e)
  | .step label act next => .step label act fun moment s => (next moment s).bind f

instance : Monad (Procedure ε σ ℓ ω φ) where
  pure a := .done (.ok a)
  bind := Procedure.bind

/-- What needs no step. -/
def ofExcept (r : Except φ α) : Procedure ε σ ℓ ω φ α := .done r

instance : MonadLift (Except φ) (Procedure ε σ ℓ ω φ) where
  monadLift := ofExcept

/-- The effect of a step: none when it fails. -/
def effect (s : σ) : Except φ (α × σ × List ω) → σ × List ω
  | .ok (_, s', marks) => (s', marks)
  | .error _ => (s, [])

/-- One step that takes effect when it succeeds. -/
def transaction (label : ℓ) (f : ε → σ → Except φ (α × σ × List ω)) :
    Procedure ε σ ℓ ω φ α :=
  .step label (fun moment s => effect s (f moment s))
    fun moment s => .done ((f moment s).map (·.1))

/-- One step that reads. -/
def query (label : ℓ) (f : ε → σ → Except φ α) : Procedure ε σ ℓ ω φ α :=
  transaction label fun moment s => (f moment s).map fun a => (a, s, [])

theorem bind_assoc {γ : Type} (p : Procedure ε σ ℓ ω φ α) (f : α → Procedure ε σ ℓ ω φ β)
    (g : β → Procedure ε σ ℓ ω φ γ) : p >>= f >>= g = p >>= fun a => f a >>= g := by
  change (p.bind f).bind g = p.bind fun a => (f a).bind g
  induction p with
  | done r => cases r <;> rfl
  | step label act next ih =>
      simp only [Procedure.bind, step.injEq, true_and]
      funext moment s
      exact ih moment s

theorem ofExcept_ok_bind (a : α) (f : α → Procedure ε σ ℓ ω φ β) :
    ofExcept (.ok a) >>= f = f a := rfl

/-! ## One procedure alone -/

/-- Run with no other connection in between, in whatever moments. -/
inductive Returns : Procedure ε σ ℓ ω φ α → σ → Except φ α → σ → Prop
  | done {r s} : Returns (.done r) s r s
  | step {label act next s r s'} (moment : ε) :
      Returns (next moment s) (act moment s).1 r s' → Returns (.step label act next) s r s'

/-- Run with every step in the same moment: the result, the state, the marks. -/
def run (moment : ε) : Procedure ε σ ℓ ω φ α → σ → Except φ α × σ × List ω
  | .done r, s => (r, s, [])
  | .step _ act next, s =>
      let rest := (next moment s).run moment (act moment s).1
      (rest.1, rest.2.1, (act moment s).2 ++ rest.2.2)

/-- Every step of the run is one that is asked for, by its label and the marks
so far. -/
def passes (moment : ε) (ok : ℓ → List ω → Bool) : Procedure ε σ ℓ ω φ α → List ω → σ → Bool
  | .done _, _, _ => true
  | .step label act next, marks, s => ok label marks &&
      (next moment s).passes moment ok (marks ++ (act moment s).2) (act moment s).1

theorem passes_true (moment : ε) (p : Procedure ε σ ℓ ω φ α) (marks : List ω) (s : σ) :
    p.passes moment (fun _ _ => true) marks s = true := by
  induction p generalizing marks s with
  | done r => rfl
  | step label act next ih => simp [passes, ih]

theorem returns_run (moment : ε) (p : Procedure ε σ ℓ ω φ α) (s : σ) :
    p.Returns s (p.run moment s).1 (p.run moment s).2.1 := by
  induction p generalizing s with
  | done r => exact .done
  | step label act next ih => exact .step moment (ih moment s (act moment s).1)

theorem returns_done {r r' : Except φ α} {s s' : σ} :
    (done r : Procedure ε σ ℓ ω φ α).Returns s r' s' ↔ r' = r ∧ s' = s := by
  constructor
  · intro h
    cases h
    exact ⟨rfl, rfl⟩
  · rintro ⟨rfl, rfl⟩
    exact .done

theorem Returns.bind {p : Procedure ε σ ℓ ω φ α} {f : α → Procedure ε σ ℓ ω φ β} {b : β}
    {s s' : σ} (h : (p >>= f).Returns s (.ok b) s') :
    ∃ a s₁, p.Returns s (.ok a) s₁ ∧ (f a).Returns s₁ (.ok b) s' := by
  change (p.bind f).Returns s (.ok b) s' at h
  induction p generalizing s with
  | done result =>
      cases result with
      | error e => cases h
      | ok a => exact ⟨a, s, .done, h⟩
  | step label act next ih =>
      cases h with
      | step moment h =>
        obtain ⟨a, s₁, hp, hf⟩ := ih moment s h
        exact ⟨a, s₁, .step moment hp, hf⟩

theorem Returns.ofExcept_bind {r : Except φ α} {f : α → Procedure ε σ ℓ ω φ β} {b : β}
    {s s' : σ} (h : (ofExcept r >>= f).Returns s (.ok b) s') :
    ∃ a, r = .ok a ∧ (f a).Returns s (.ok b) s' := by
  obtain ⟨a, s₁, hr, hf⟩ := h.bind
  obtain ⟨rfl, rfl⟩ := returns_done.mp hr
  exact ⟨a, rfl, hf⟩

theorem Returns.transaction {label : ℓ} {f : ε → σ → Except φ (α × σ × List ω)} {a : α}
    {s s' : σ} (h : (Procedure.transaction label f).Returns s (.ok a) s') :
    ∃ moment marks, f moment s = .ok (a, s', marks) := by
  cases h with
  | step moment h =>
    obtain ⟨hr, rfl⟩ := returns_done.mp h
    obtain ⟨⟨a', s₁, marks⟩, hf, rfl⟩ := map_eq_ok.mp hr.symm
    exact ⟨moment, marks, by simp [effect, hf]⟩

theorem Returns.query {label : ℓ} {f : ε → σ → Except φ α} {a : α} {s s' : σ}
    (h : (Procedure.query label f : Procedure ε σ ℓ ω φ α).Returns s (.ok a) s') :
    s' = s ∧ ∃ moment, f moment s = .ok a := by
  obtain ⟨moment, marks, hf⟩ := Returns.transaction h
  obtain ⟨a', hr, heq⟩ := map_eq_ok.mp hf
  cases heq
  exact ⟨rfl, moment, hr⟩

/-- What a procedure that fails has changed was changed before it failed. -/
theorem Returns.bind_error {p : Procedure ε σ ℓ ω φ α} {f : α → Procedure ε σ ℓ ω φ β} {e : φ}
    {s s' : σ} (h : (p >>= f).Returns s (.error e) s') :
    p.Returns s (.error e) s' ∨
      ∃ a s₁, p.Returns s (.ok a) s₁ ∧ (f a).Returns s₁ (.error e) s' := by
  change (p.bind f).Returns s (.error e) s' at h
  induction p generalizing s with
  | done result =>
      cases result with
      | error e' =>
          obtain ⟨hr, rfl⟩ := returns_done.mp h
          cases hr
          exact .inl .done
      | ok a => exact .inr ⟨a, s, .done, h⟩
  | step label act next ih =>
      cases h with
      | step moment h =>
        rcases ih moment s h with hp | ⟨a, s₁, hp, hf⟩
        · exact .inl (.step moment hp)
        · exact .inr ⟨a, s₁, .step moment hp, hf⟩

theorem Returns.transaction_error {label : ℓ} {f : ε → σ → Except φ (α × σ × List ω)} {e : φ}
    {s s' : σ} (h : (Procedure.transaction label f).Returns s (.error e) s') : s' = s := by
  cases h with
  | step moment h =>
    obtain ⟨hr, rfl⟩ := returns_done.mp h
    cases hf : f moment s with
    | ok result =>
        rw [hf] at hr
        cases hr
    | error e' =>
        show (effect s (f moment s)).1 = s
        rw [hf]
        rfl

/-- With every step in the same moment, the procedure ends with this value in
this state. -/
def RunsTo (moment : ε) (p : Procedure ε σ ℓ ω φ α) (s : σ) (a : α) (s' : σ) : Prop :=
  (p.run moment s).1 = .ok a ∧ (p.run moment s).2.1 = s'

theorem runsTo_pure {moment : ε} {a b : α} {s s' : σ} :
    RunsTo moment (pure a : Procedure ε σ ℓ ω φ α) s b s' ↔ b = a ∧ s' = s := by
  change (Except.ok a = .ok b ∧ s = s') ↔ _
  rw [Except.ok.injEq, eq_comm (a := a), eq_comm (a := s)]

theorem runsTo_ofExcept {moment : ε} {r : Except φ α} {a : α} {s s' : σ} :
    RunsTo moment (ofExcept r : Procedure ε σ ℓ ω φ α) s a s' ↔ r = .ok a ∧ s' = s := by
  change (r = .ok a ∧ s = s') ↔ _
  rw [eq_comm (a := s)]

theorem runsTo_bind {moment : ε} {p : Procedure ε σ ℓ ω φ α}
    {f : α → Procedure ε σ ℓ ω φ β} {b : β} {s s' : σ} :
    RunsTo moment (p >>= f) s b s' ↔
      ∃ a s₁, RunsTo moment p s a s₁ ∧ RunsTo moment (f a) s₁ b s' := by
  change RunsTo moment (p.bind f) s b s' ↔ _
  induction p generalizing s with
  | done result =>
      cases result with
      | error e => simp [RunsTo, run, Procedure.bind]
      | ok a => simp [RunsTo, run, Procedure.bind]
  | step label act next ih => exact ih moment s

theorem runsTo_transaction {moment : ε} {label : ℓ}
    {f : ε → σ → Except φ (α × σ × List ω)} {a : α} {s s' : σ} :
    RunsTo moment (transaction label f) s a s' ↔ ∃ marks, f moment s = .ok (a, s', marks) := by
  unfold RunsTo
  rcases hf : f moment s with e | ⟨a', s₁, marks⟩ <;>
    simp [transaction, run, effect, hf, Except.map]

theorem runsTo_query {moment : ε} {label : ℓ} {f : ε → σ → Except φ α} {a : α} {s s' : σ} :
    RunsTo moment (query label f : Procedure ε σ ℓ ω φ α) s a s' ↔
      f moment s = .ok a ∧ s' = s := by
  rw [query, runsTo_transaction]
  rcases hf : f moment s with e | a' <;> simp [Except.map, eq_comm]

end Procedure

/-! ## Several connections -/

/-- What the trace shows of a connection. -/
inductive Event (ι κ ω φ α : Type) where
  | called (connection : ι) (call : κ)
  | left (connection : ι) (mark : ω)
  | returned (connection : ι) (call : κ) (marks : List ω) (result : Except φ α)

structure World (ι κ σ ω φ α : Type) where
  shared : σ
  trace : List (Event ι κ ω φ α)

/-- A call that is under way: what is left of it to do, and the marks it has
left so far. -/
structure Activity (ε κ σ ℓ ω φ α : Type) where
  call : κ
  rest : Procedure ε σ ℓ ω φ α
  marks : List ω

structure System (ι ε κ σ ℓ ω φ α : Type) where
  world : World ι κ σ ω φ α
  running : ι → Option (Activity ε κ σ ℓ ω φ α)

section

variable {ι ε κ σ ℓ ω φ α β : Type}

namespace World

def afterCall (w : World ι κ σ ω φ α) (c : ι) (call : κ) : World ι κ σ ω φ α :=
  { w with trace := w.trace ++ [.called c call] }

def afterStep (w : World ι κ σ ω φ α) (c : ι) (next : σ × List ω) : World ι κ σ ω φ α where
  shared := next.1
  trace := w.trace ++ next.2.map (.left c)

def afterReturn (w : World ι κ σ ω φ α) (c : ι) (call : κ) (marks : List ω)
    (result : Except φ α) : World ι κ σ ω φ α :=
  { w with trace := w.trace ++ [.returned c call marks result] }

section

variable (w : World ι κ σ ω φ α) (c : ι)

@[simp] theorem afterCall_shared (call : κ) : (w.afterCall c call).shared = w.shared := rfl

@[simp] theorem afterCall_trace (call : κ) :
    (w.afterCall c call).trace = w.trace ++ [.called c call] := rfl

@[simp] theorem afterStep_shared (next : σ × List ω) :
    (w.afterStep c next).shared = next.1 := rfl

@[simp] theorem afterStep_trace (next : σ × List ω) :
    (w.afterStep c next).trace = w.trace ++ next.2.map (.left c) := rfl

@[simp] theorem afterReturn_shared (call : κ) (marks : List ω) (result : Except φ α) :
    (w.afterReturn c call marks result).shared = w.shared := rfl

@[simp] theorem afterReturn_trace (call : κ) (marks : List ω) (result : Except φ α) :
    (w.afterReturn c call marks result).trace =
      w.trace ++ [.returned c call marks result] := rfl

@[simp] theorem afterStep_self : w.afterStep c (w.shared, []) = w := by
  simp [afterStep]

end

end World

/-- Every system that the connections reach from an initial state, by steps
that are allowed. -/
inductive Reached [DecidableEq ι] (body : κ → Procedure ε σ ℓ ω φ α)
    (allowed : System ι ε κ σ ℓ ω φ α → ι → ε → Prop) (init : σ) :
    System ι ε κ σ ℓ ω φ α → Prop
  | start : Reached body allowed init ⟨⟨init, []⟩, fun _ => none⟩
  | call {s} (c : ι) (call : κ) : Reached body allowed init s → s.running c = none →
      Reached body allowed init
        ⟨s.world.afterCall c call, Function.update s.running c (some ⟨call, body call, []⟩)⟩
  | step {s} (c : ι) (moment : ε) {call label act next marks} :
      Reached body allowed init s → s.running c = some ⟨call, .step label act next, marks⟩ →
      allowed s c moment →
      Reached body allowed init
        ⟨s.world.afterStep c (act moment s.world.shared),
          Function.update s.running c
            (some ⟨call, next moment s.world.shared,
              marks ++ (act moment s.world.shared).2⟩)⟩
  | finish {s} (c : ι) {call result marks} : Reached body allowed init s →
      s.running c = some ⟨call, .done result, marks⟩ →
      Reached body allowed init
        ⟨s.world.afterReturn c call marks result, Function.update s.running c none⟩

namespace Reached

variable [DecidableEq ι] {body : κ → Procedure ε σ ℓ ω φ α}
  {allowed : System ι ε κ σ ℓ ω φ α → ι → ε → Prop} {init : σ}

/-- A call that is under way reads. -/
theorem read {p : Procedure ε σ ℓ ω φ α} {f : ε → σ → Except φ β}
    {g : β → Procedure ε σ ℓ ω φ α} {label : ℓ} {s : System ι ε κ σ ℓ ω φ α} {c : ι} {call : κ}
    {marks : List ω} {b : β} (moment : ε) (h : Reached body allowed init s)
    (hrunning : s.running c = some ⟨call, p, marks⟩)
    (hp : p = Procedure.query label f >>= g) (hallowed : allowed s c moment)
    (hf : f moment s.world.shared = .ok b) :
    ∃ s', Reached body allowed init s' ∧
      s'.running = Function.update s.running c (some ⟨call, g b, marks⟩) ∧
      s'.world = s.world := by
  subst hp
  refine ⟨_, .step c moment h hrunning hallowed, ?_, ?_⟩
  · simp [hf, Procedure.effect, Procedure.bind, Except.map]
  · simp [hf, Procedure.effect, Except.map]

/-- A call that is under way runs to its end while the others wait. -/
theorem finishPassing {p : Procedure ε σ ℓ ω φ α} {s : System ι ε κ σ ℓ ω φ α} {c : ι}
    {call : κ} {marks : List ω} (moment : ε) (ok : ℓ → List ω → Bool)
    (h : Reached body allowed init s) (hrunning : s.running c = some ⟨call, p, marks⟩)
    (hpasses : p.passes moment ok marks s.world.shared = true)
    (hallowed : ∀ s' label act next marks, (∀ c', c' ≠ c → s'.running c' = s.running c') →
      s'.running c = some ⟨call, .step label act next, marks⟩ → ok label marks = true →
        allowed s' c moment) :
    ∃ s', Reached body allowed init s' ∧ s'.running = Function.update s.running c none ∧
      s'.world = ⟨(p.run moment s.world.shared).2.1,
        s.world.trace ++ (p.run moment s.world.shared).2.2.map (.left c) ++
          [.returned c call (marks ++ (p.run moment s.world.shared).2.2)
            (p.run moment s.world.shared).1]⟩ := by
  induction p generalizing s marks with
  | done r =>
      refine ⟨_, .finish c h hrunning, rfl, ?_⟩
      simp [World.afterReturn, Procedure.run]
  | step label act next ih =>
      obtain ⟨hok, hpasses⟩ := Bool.and_eq_true_iff.mp hpasses
      have hstep := Reached.step c moment h hrunning
        (hallowed s _ _ _ _ (fun _ _ => rfl) hrunning hok)
      obtain ⟨s', hs', hrunning', hworld⟩ := ih moment s.world.shared hstep
        (Function.update_self _ _ _) hpasses fun s' label act next marks hothers =>
          hallowed s' label act next marks fun c' hc =>
            (hothers c' hc).trans (Function.update_of_ne hc _ _)
      refine ⟨s', hs', ?_, ?_⟩
      · rw [hrunning', Function.update_idem]
      · rw [hworld]
        simp [Procedure.run]

/-- The same for a call whose steps are all allowed. -/
theorem finishAlone {p : Procedure ε σ ℓ ω φ α} {s : System ι ε κ σ ℓ ω φ α} {c : ι}
    {call : κ} {marks : List ω} (moment : ε) (h : Reached body allowed init s)
    (hrunning : s.running c = some ⟨call, p, marks⟩)
    (hallowed : ∀ s' a, s'.running c = some a → a.call = call → allowed s' c moment) :
    ∃ s', Reached body allowed init s' ∧ s'.running = Function.update s.running c none ∧
      s'.world = ⟨(p.run moment s.world.shared).2.1,
        s.world.trace ++ (p.run moment s.world.shared).2.2.map (.left c) ++
          [.returned c call (marks ++ (p.run moment s.world.shared).2.2)
            (p.run moment s.world.shared).1]⟩ :=
  h.finishPassing moment _ hrunning (p.passes_true moment marks _)
    fun s' _ _ _ _ _ hrun _ => hallowed s' _ hrun rfl

/-- A call that no other interrupts. -/
theorem alone {s : System ι ε κ σ ℓ ω φ α} (c : ι) (call : κ) (moment : ε)
    (h : Reached body allowed init s) (hrunning : s.running c = none)
    (hallowed : ∀ s' a, s'.running c = some a → a.call = call → allowed s' c moment) :
    ∃ s', Reached body allowed init s' ∧ s'.running = s.running ∧
      s'.world = ⟨((body call).run moment s.world.shared).2.1,
        s.world.trace ++ .called c call ::
          (((body call).run moment s.world.shared).2.2.map (.left c) ++
            [.returned c call ((body call).run moment s.world.shared).2.2
              ((body call).run moment s.world.shared).1])⟩ := by
  obtain ⟨s', hs', hrunning', hworld⟩ := (Reached.call c call h hrunning).finishAlone moment
    (Function.update_self _ _ _) hallowed
  refine ⟨s', hs', ?_, ?_⟩
  · rw [hrunning', Function.update_idem, ← hrunning, Function.update_eq_self]
  · rw [hworld]
    simp

end Reached

/-! ## Proof outlines -/

/-- What the steps of the connections owe one another. -/
structure Discipline (ι ε κ σ ℓ ω φ α : Type) where
  inv : World ι κ σ ω φ α → Prop
  /-- What the others may do to the world while a connection waits at a step. -/
  rely : ℓ → World ι κ σ ω φ α → World ι κ σ ω φ α → Prop
  /-- What is known of a step that is taken, with the marks of its call so far. -/
  admits : κ → List ω → ℓ → ε → World ι κ σ ω φ α → Prop
  /-- What a step does to the world. -/
  guar : ℓ → World ι κ σ ω φ α → World ι κ σ ω φ α → Prop
  guar_refl : ∀ label w, guar label w w
  rely_refl : ∀ label w, rely label w w
  rely_trans : ∀ {label w₁ w₂ w₃}, rely label w₁ w₂ → rely label w₂ w₃ → rely label w₁ w₃

variable (D : Discipline ι ε κ σ ℓ ω φ α) (c : ι) (call : κ)

/-- From this world on, every step of the procedure finds the invariant and
keeps it, gives its guarantee, and the procedure ends in a world of `post`. -/
def Outline (post : Except φ β → List ω → World ι κ σ ω φ α → Prop) :
    Procedure ε σ ℓ ω φ β → List ω → World ι κ σ ω φ α → Prop
  | .done r, marks, w => post r marks w
  | .step label act next, marks, w =>
      ∀ w', D.rely label w w' → D.inv w' → ∀ moment, D.admits call marks label moment w' →
        D.inv (w'.afterStep c (act moment w'.shared)) ∧
        D.guar label w' (w'.afterStep c (act moment w'.shared)) ∧
        Outline post (next moment w'.shared) (marks ++ (act moment w'.shared).2)
          (w'.afterStep c (act moment w'.shared))

/-- What a procedure that goes on as `f` has to end in. -/
def Outline.andThen (post : Except φ β → List ω → World ι κ σ ω φ α → Prop)
    (f : α' → Procedure ε σ ℓ ω φ β) :
    Except φ α' → List ω → World ι κ σ ω φ α → Prop
  | .ok a, marks, w => Outline D c call post (f a) marks w
  | .error e, marks, w => post (.error e) marks w

namespace Outline

variable {D c call} {post : Except φ β → List ω → World ι κ σ ω φ α → Prop}
  {marks : List ω} {w : World ι κ σ ω φ α}

/-- A connection waiting at a step relies on what the others do there. -/
theorem stable {label : ℓ} {act : ε → σ → σ × List ω}
    {next : ε → σ → Procedure ε σ ℓ ω φ β} {w' : World ι κ σ ω φ α}
    (h : Outline D c call post (.step label act next) marks w) (hrely : D.rely label w w') :
    Outline D c call post (.step label act next) marks w' :=
  fun w'' hrely' hinv => h w'' (D.rely_trans hrely hrely') hinv

theorem mono {p : Procedure ε σ ℓ ω φ β}
    {post' : Except φ β → List ω → World ι κ σ ω φ α → Prop}
    (h : Outline D c call post p marks w) (hpost : ∀ r marks w, post r marks w → post' r marks w) :
    Outline D c call post' p marks w := by
  induction p generalizing marks w with
  | done r => exact hpost _ _ _ h
  | step label act next ih =>
      intro w' hrely hinv moment hadmits
      obtain ⟨hinv', hguar, hrest⟩ := h w' hrely hinv moment hadmits
      exact ⟨hinv', hguar, ih _ _ hrest⟩

theorem bind {p : Procedure ε σ ℓ ω φ α'} {f : α' → Procedure ε σ ℓ ω φ β}
    (h : Outline D c call (andThen D c call post f) p marks w) :
    Outline D c call post (p >>= f) marks w := by
  change Outline D c call post (p.bind f) marks w
  induction p generalizing marks w with
  | done r =>
      cases r with
      | ok a => exact h
      | error e => exact h
  | step label act next ih =>
      intro w' hrely hinv moment hadmits
      obtain ⟨hinv', hguar, hrest⟩ := h w' hrely hinv moment hadmits
      exact ⟨hinv', hguar, ih _ _ hrest⟩

/-- A procedure that may take no step keeps every discipline. -/
theorem of_not_admits {p : Procedure ε σ ℓ ω φ β}
    (h : ∀ marks label moment w, ¬ D.admits call marks label moment w) :
    Outline D c call (fun _ _ _ => True) p marks w := by
  cases p with
  | done r => trivial
  | step label act next => exact fun w' _ _ moment hadmits => absurd hadmits (h _ _ _ _)

theorem ofExcept_bind {r : Except φ α'} {f : α' → Procedure ε σ ℓ ω φ β}
    (hok : ∀ a, r = .ok a → Outline D c call post (f a) marks w)
    (herror : ∀ e, r = .error e → post (.error e) marks w) :
    Outline D c call post (Procedure.ofExcept r >>= f) marks w := by
  cases r with
  | ok a => exact hok a rfl
  | error e => exact herror e rfl

/-- A step that succeeds, and the same step failing. -/
theorem transaction {label : ℓ} {f : ε → σ → Except φ (β × σ × List ω)}
    (hok : ∀ w', D.rely label w w' → D.inv w' → ∀ moment,
      D.admits call marks label moment w' → ∀ b s new, f moment w'.shared = .ok (b, s, new) →
        D.inv (w'.afterStep c (s, new)) ∧ D.guar label w' (w'.afterStep c (s, new)) ∧
          post (.ok b) (marks ++ new) (w'.afterStep c (s, new)))
    (herror : ∀ w', D.rely label w w' → D.inv w' → ∀ moment,
      D.admits call marks label moment w' → ∀ e, f moment w'.shared = .error e →
        post (.error e) marks w') :
    Outline D c call post (Procedure.transaction label f) marks w := by
  intro w' hrely hinv moment hadmits
  dsimp only
  cases hf : f moment w'.shared with
  | error e =>
      simp only [Procedure.effect, World.afterStep_self, List.append_nil]
      exact ⟨hinv, D.guar_refl label w', herror w' hrely hinv moment hadmits e hf⟩
  | ok result => exact hok w' hrely hinv moment hadmits result.1 result.2.1 result.2.2 hf

theorem transaction_bind {label : ℓ} {f : ε → σ → Except φ (α' × σ × List ω)}
    {g : α' → Procedure ε σ ℓ ω φ β}
    (hok : ∀ w', D.rely label w w' → D.inv w' → ∀ moment,
      D.admits call marks label moment w' → ∀ a s new, f moment w'.shared = .ok (a, s, new) →
        D.inv (w'.afterStep c (s, new)) ∧ D.guar label w' (w'.afterStep c (s, new)) ∧
          Outline D c call post (g a) (marks ++ new) (w'.afterStep c (s, new)))
    (herror : ∀ w', D.rely label w w' → D.inv w' → ∀ moment,
      D.admits call marks label moment w' → ∀ e, f moment w'.shared = .error e →
        post (.error e) marks w') :
    Outline D c call post (Procedure.transaction label f >>= g) marks w :=
  bind (transaction hok herror)

theorem query {label : ℓ} {f : ε → σ → Except φ β}
    (h : ∀ w', D.rely label w w' → D.inv w' → ∀ moment,
      D.admits call marks label moment w' → post (f moment w'.shared) marks w') :
    Outline D c call post (Procedure.query label f) marks w := by
  refine transaction (fun w' hrely hinv moment hadmits b s new hb => ?_)
    fun w' hrely hinv moment hadmits e he => ?_
  · have hpost := h w' hrely hinv moment hadmits
    obtain ⟨b', hb', heq⟩ := map_eq_ok.mp hb
    cases heq
    rw [World.afterStep_self, List.append_nil]
    exact ⟨hinv, D.guar_refl label w', hb' ▸ hpost⟩
  · have hpost := h w' hrely hinv moment hadmits
    cases hf : f moment w'.shared with
    | ok b =>
        rw [hf] at he
        cases he
    | error e' =>
        rw [hf] at he hpost
        cases he
        exact hpost

theorem query_bind {label : ℓ} {f : ε → σ → Except φ α'} {g : α' → Procedure ε σ ℓ ω φ β}
    (hok : ∀ w', D.rely label w w' → D.inv w' → ∀ moment,
      D.admits call marks label moment w' → ∀ a, f moment w'.shared = .ok a →
        Outline D c call post (g a) marks w')
    (herror : ∀ w', D.rely label w w' → D.inv w' → ∀ moment,
      D.admits call marks label moment w' → ∀ e, f moment w'.shared = .error e →
        post (.error e) marks w') :
    Outline D c call post (Procedure.query label f >>= g) marks w := by
  refine bind (query fun w' hrely hinv moment hadmits => ?_)
  cases hf : f moment w'.shared with
  | ok a => exact hok w' hrely hinv moment hadmits a hf
  | error e => exact herror w' hrely hinv moment hadmits e hf

end Outline

/-- What a connection that is waiting at a step relies on is what the others
do: calls, returns, and steps that are allowed. -/
structure Discipline.Kept [DecidableEq ι] (D : Discipline ι ε κ σ ℓ ω φ α)
    (body : κ → Procedure ε σ ℓ ω φ α)
    (allowed : System ι ε κ σ ℓ ω φ α → ι → ε → Prop)
    (post : κ → Except φ α → List ω → Prop) : Prop where
  call : ∀ c call w, D.inv w → D.inv (w.afterCall c call) ∧
    Outline D c call (fun r marks _ => post call r marks) (body call) [] (w.afterCall c call)
  finish : ∀ c call marks r w, D.inv w → post call r marks →
    D.inv (w.afterReturn c call marks r)
  rely_call : ∀ label c call w, D.rely label w (w.afterCall c call)
  rely_finish : ∀ label c call marks r w, D.rely label w (w.afterReturn c call marks r)
  admits : ∀ s c moment call label act next marks, allowed s c moment →
    s.running c = some ⟨call, .step label act next, marks⟩ →
    D.admits call marks label moment s.world
  rely_step : ∀ s c moment call label act next marks c' call' label' act' next' marks',
    allowed s c moment → s.running c = some ⟨call, .step label act next, marks⟩ →
    c' ≠ c → s.running c' = some ⟨call', .step label' act' next', marks'⟩ →
    D.guar label s.world (s.world.afterStep c (act moment s.world.shared)) →
    D.rely label' s.world (s.world.afterStep c (act moment s.world.shared))

/-- **Soundness.** The invariant holds in every world that is reached, and
every call under way has its outline from there. -/
theorem Reached.outline [DecidableEq ι] {D : Discipline ι ε κ σ ℓ ω φ α}
    {body : κ → Procedure ε σ ℓ ω φ α}
    {allowed : System ι ε κ σ ℓ ω φ α → ι → ε → Prop}
    {post : κ → Except φ α → List ω → Prop} (hkept : D.Kept body allowed post)
    {init : σ} (hinit : D.inv ⟨init, []⟩) {s : System ι ε κ σ ℓ ω φ α}
    (h : Reached body allowed init s) :
    D.inv s.world ∧ ∀ c a, s.running c = some a →
      Outline D c a.call (fun r marks _ => post a.call r marks) a.rest a.marks s.world := by
  -- a call of another connection that waits at a step stays outlined
  have others : ∀ {s : System ι ε κ σ ℓ ω φ α} {w : World ι κ σ ω φ α} {c c' : ι}
      {a : Activity ε κ σ ℓ ω φ α} {b : Option (Activity ε κ σ ℓ ω φ α)},
      (∀ c a, s.running c = some a →
        Outline D c a.call (fun r marks _ => post a.call r marks) a.rest a.marks s.world) →
      (∀ call' label' act' next' marks',
        s.running c' = some ⟨call', .step label' act' next', marks'⟩ →
          D.rely label' s.world w) →
      c' ≠ c → Function.update s.running c b c' = some a →
      Outline D c' a.call (fun r marks _ => post a.call r marks) a.rest a.marks w := by
    intro s w c c' a b hall hrely hne ha
    rw [Function.update_of_ne hne] at ha
    have hout := hall c' a ha
    rcases a with ⟨call', r | ⟨label', act', next'⟩, marks'⟩
    · exact hout
    · exact hout.stable (hrely _ _ _ _ _ ha)
  induction h with
  | start => exact ⟨hinit, fun c a ha => by cases ha⟩
  | @call s c call _ _ ih =>
      obtain ⟨hinv, hall⟩ := ih
      obtain ⟨hinv', hbody⟩ := hkept.call c call s.world hinv
      refine ⟨hinv', fun c' a ha => ?_⟩
      dsimp only at ha ⊢
      by_cases hc : c' = c
      · subst hc
        rw [Function.update_self] at ha
        cases ha
        exact hbody
      · exact others hall (fun _ _ _ _ _ _ => hkept.rely_call _ _ _ _) hc ha
  | @step s c moment call label act next marks _ hrunning hallowed ih =>
      obtain ⟨hinv, hall⟩ := ih
      obtain ⟨hinv', hguar, hrest⟩ := hall c _ hrunning s.world (D.rely_refl _ _) hinv moment
        (hkept.admits _ _ _ _ _ _ _ _ hallowed hrunning)
      refine ⟨hinv', fun c' a ha => ?_⟩
      dsimp only at ha ⊢
      by_cases hc : c' = c
      · subst hc
        rw [Function.update_self] at ha
        cases ha
        exact hrest
      · exact others hall (fun _ _ _ _ _ h =>
          hkept.rely_step _ _ _ _ _ _ _ _ _ _ _ _ _ _ hallowed hrunning hc h hguar) hc ha
  | @finish s c call r marks _ hrunning ih =>
      obtain ⟨hinv, hall⟩ := ih
      refine ⟨hkept.finish _ _ _ _ _ hinv (hall c _ hrunning), fun c' a ha => ?_⟩
      dsimp only at ha ⊢
      by_cases hc : c' = c
      · subst hc
        rw [Function.update_self] at ha
        cases ha
      · exact others hall (fun _ _ _ _ _ _ => hkept.rely_finish _ _ _ _ _ _) hc ha

end

end SyncPlus
