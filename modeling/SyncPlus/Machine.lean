import SyncPlus.JournalAppend
import SyncPlus.Lib.Programs
import SyncPlus.Plan

/-!
# Driving a run

What the two drivers of a confirmed plan share. A driver is a program
over a machine: the world it runs in, of which nothing is known but the
answers it gives, the journal of the run, and the calls made so far - the
events offered, with what became of them, and the answers of the world
that matter later. The world is any state at all and may answer a question
differently each time. A machine carries that its journal is the one its
accepted events make.
-/

namespace SyncPlus

/-! ## Machines -/

/-- One entry of the trace of a run. `χ` are the answers the driver keeps. -/
inductive Call (χ : Type) where
  | journaled (event : JournalEvent)
  | rejected (event : JournalEvent) (error : StorageError)
  | polled (cancel : Bool)
  | answered (answer : χ)
  deriving DecidableEq

def Call.event? {χ : Type} : Call χ → Option JournalEvent
  | .journaled event => some event
  | _ => none

/-- The accepted events of a trace. -/
def accepted {χ : Type} (calls : List (Call χ)) : List JournalEvent :=
  calls.filterMap Call.event?

section

variable {χ : Type} {calls calls' : List (Call χ)} {event : JournalEvent}

@[simp] theorem accepted_nil : accepted ([] : List (Call χ)) = [] := rfl

@[simp] theorem accepted_append :
    accepted (calls ++ calls') = accepted calls ++ accepted calls' :=
  List.filterMap_append

@[simp] theorem accepted_cons_journaled :
    accepted (.journaled event :: calls) = event :: accepted calls := rfl

@[simp] theorem accepted_cons_rejected {error : StorageError} :
    accepted (.rejected event error :: calls) = accepted calls := rfl

@[simp] theorem accepted_cons_polled {cancel : Bool} :
    accepted (.polled cancel :: calls) = accepted calls := rfl

@[simp] theorem accepted_cons_answered {answer : χ} :
    accepted (.answered answer :: calls) = accepted calls := rfl

theorem mem_accepted : event ∈ accepted calls ↔ .journaled event ∈ calls := by
  simp only [accepted, List.mem_filterMap]
  constructor
  · rintro ⟨call, hcall, hevent⟩
    cases call <;> cases hevent
    exact hcall
  · exact fun h => ⟨_, h, rfl⟩

theorem JournalInv.appended {run run' : RunJournal}
    (h : JournalInv run.deletionMethod run (accepted calls))
    (happend : run.appendEvent event = .ok run') :
    JournalInv run'.deletionMethod run' (accepted (calls ++ [.journaled event])) := by
  have hinv := (h.append happend).2
  rw [hinv.frozen]
  simpa using hinv

end

structure Machine (σ χ : Type) where
  world : σ
  run : RunJournal
  calls : List (Call χ)
  journal : JournalInv run.deletionMethod run (accepted calls)

/-- The machine a run begins with. -/
def Machine.opened {σ : Type} (χ : Type) (world : σ) (method : Option String) :
    Machine σ χ where
  world
  run := RunJournal.opened method
  calls := []
  journal := JournalInv.opened

inductive WorkflowError where
  | invalidRun (reason : String)
  | storage (error : StorageError)
  | io (reason : String)
  deriving DecidableEq

/-- What a path holds: `observe_content`. -/
structure PathObservation where
  present : Bool
  content : Option ContentProof

/-- The answers both drivers ask for. -/
structure Surroundings (σ : Type) where
  shouldCancel : σ → Bool × σ
  sleepInterruptibly : σ → Bool × σ
  currentUnixNanos : σ → Int64 × σ
  observePaths : PlanAction → σ → (PathObservation × PathObservation) × σ

/-! ## Steps -/

section

variable {σ χ ε α : Type}

/-- Ask the world and keep no record. -/
def inquire (question : σ → α × σ) : Program (Machine σ χ) ε α :=
  .step fun m => ((question m.world).1, { m with world := (question m.world).2 })

/-- Ask the world and record its answer. -/
def ask (question : σ → α × σ) (answered : α → χ) : Program (Machine σ χ) ε α :=
  .step fun m => ((question m.world).1,
    { m with
      world := (question m.world).2
      calls := m.calls ++ [.answered (answered (question m.world).1)]
      journal := by simpa using m.journal })

def poll (env : Surroundings σ) : Program (Machine σ χ) ε Bool :=
  .step fun m => ((env.shouldCancel m.world).1,
    { m with
      world := (env.shouldCancel m.world).2
      calls := m.calls ++ [.polled (env.shouldCancel m.world).1]
      journal := by simpa using m.journal })

/-- Record an answer that was inquired for. -/
def record (answer : χ) : Program (Machine σ χ) ε Unit :=
  .step fun m => ((),
    { m with
      calls := m.calls ++ [.answered answer]
      journal := by simpa using m.journal })

/-- `RunEvidenceStore::append_event`. -/
def appendEvent (event : JournalEvent) :
    Program (Machine σ χ) ε (Except StorageError Unit) :=
  .step fun m =>
    match h : m.run.appendEvent event with
    | .ok run => (.ok (),
        { m with
          run
          calls := m.calls ++ [.journaled event]
          journal := m.journal.appended h })
    | .error error => (.error error,
        { m with
          calls := m.calls ++ [.rejected event error]
          journal := by simpa using m.journal })

/-- `append_event(..)?`. -/
def journal (event : JournalEvent) : Program (Machine σ χ) WorkflowError Unit := do
  match ← appendEvent event with
  | .ok () => return ()
  | .error error => .fail (.storage error)

/-- `observe_action_boundary`. -/
def observeActionBoundary (env : Surroundings σ) (action : PlanAction) :
    Program (Machine σ χ) ε RecoveryEvidence := do
  let now ← inquire env.currentUnixNanos
  let (source, destination) ← inquire (env.observePaths action)
  return RecoveryEvidence.new now none source.present destination.present false
    (source.content.map (·.size)) (destination.content.map (·.size))
    (source.content.map (·.sha256)) (destination.content.map (·.sha256))

/-- An event that could not be journaled leaves the action in review and ends
the run. -/
def recordJournalFailure (env : Surroundings σ) (action : PlanAction)
    (error : WorkflowError) : Program (Machine σ χ) WorkflowError α := do
  let evidence ← observeActionBoundary env action
  match ← appendEvent (.recoveryReview action.actionId .interruptedBoundary evidence) with
  | .ok () => .fail error
  | .error reviewError => .fail (.storage reviewError)

def journalOrReview (env : Surroundings σ) (action : PlanAction) (event : JournalEvent) :
    Program (Machine σ χ) WorkflowError Unit := do
  match ← appendEvent event with
  | .ok () => return ()
  | .error error => recordJournalFailure env action (.storage error)

/-- Progress reports, up to the first the journal rejects. -/
def reportProgress (actionId : ActionId) :
    List UInt64 → Program (Machine σ χ) ε (Except StorageError Unit)
  | [] => return .ok ()
  | bytes :: rest => do
      match ← appendEvent (.progress actionId bytes) with
      | .ok () => reportProgress actionId rest
      | .error error => return .error error

/-! ## The loop over the actions -/

inductive ActionDisposition where
  | continue
  | stop
  deriving Repr, DecidableEq

def cancelRemaining (actions : List PlanAction) :
    Program (Machine σ χ) WorkflowError Unit :=
  .forEach (fun action => journal (.cancelled action.actionId)) actions

/-- Execute the actions in order, until one stops the run or the run is
cancelled; the rest is then cancelled. `τ` is what earlier actions leave for
later ones. -/
def runActions {τ : Type} (env : Surroundings σ)
    (execute : PlanAction → τ → Program (Machine σ χ) WorkflowError (ActionDisposition × τ)) :
    List PlanAction → τ → Program (Machine σ χ) WorkflowError Unit
  | [], _ => return ()
  | action :: rest, kept => do
      if ← poll env then cancelRemaining (action :: rest)
      else
        match ← execute action kept with
        | (.stop, _) => cancelRemaining rest
        | (.continue, kept) => runActions env execute rest kept

/-- Journal every action of the plan before the first is executed. -/
def persistPlan
    (planRecord : PlanAction → Program (Machine σ χ) WorkflowError PlanRecord)
    (actions : List PlanAction) : Program (Machine σ χ) WorkflowError Unit :=
  .forEach (fun action => do
    let plan ← planRecord action
    journal (.planned plan)) actions

end

/-! ## What earlier actions leave, by path -/

/-- A map keyed by paths. -/
abbrev PathMap (α : Type) := List (PathBuf × α)

namespace PathMap

variable {α : Type}

def insert (map : PathMap α) (path : PathBuf) (a : α) : PathMap α :=
  (path, a) :: map.filter fun entry => !entry.1.same path

def get (map : PathMap α) (path : PathBuf) : Option α :=
  (map.find? fun entry => entry.1.same path).map (·.2)

def erase (map : PathMap α) (path : PathBuf) : PathMap α :=
  map.filter fun entry => !entry.1.same path

end PathMap

end SyncPlus
