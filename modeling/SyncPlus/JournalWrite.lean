import Mathlib.Data.List.Dedup
import Mathlib.Data.List.Sort
import SyncPlus.JournalRows

/-!
# Appending an event

The write side of the journal. An event is checked against what the
table already holds for its action - the latest phase, the planned
operation and item type, the frozen deletion method, the stored proof -
and against the actions before it, and is then inserted with the next
sequence number. One append is one immediate transaction: a check that
fails leaves the table as it was.
-/

namespace SyncPlus

/-- What the journal reads of a run: the frozen deletion method of its
snapshot and its rows of `action_events`. -/
structure RunJournal where
  deletionMethod : Option String
  actionEvents : List ActionEventRow
  deriving DecidableEq

/-! ## Queries -/

/-- A column that the query reads as not null. -/
def notNull {α : Type} (column : Nat) (x : Option α) : Except StorageError α :=
  orError x (.sqlite (.invalidColumnType column))

/-- `ORDER BY sequence DESC LIMIT 1`. -/
def latestRow (rows : List ActionEventRow) : Option ActionEventRow :=
  rows.foldl (fun latest row =>
    match latest with
    | some r => if r.sequence < row.sequence then some row else some r
    | none => some row) none

namespace RunJournal

def rowsOf (run : RunJournal) (actionId : ActionId) : List ActionEventRow :=
  run.actionEvents.filter fun r => r.actionId = actionId

/-- The rows of an action in one phase. -/
def rowsIn (run : RunJournal) (actionId : ActionId) (phase : String) :
    List ActionEventRow :=
  (run.rowsOf actionId).filter fun r => r.fields.phase = phase

def hasPlan (run : RunJournal) (actionId : ActionId) : Bool :=
  (run.rowsIn actionId "planned").length ≠ 0

def currentPhase (run : RunJournal) (actionId : ActionId) : Option String :=
  (latestRow (run.rowsOf actionId)).map (·.fields.phase)

/-- One column of the planned row, when there is such a row. -/
def plannedColumn (run : RunJournal) (actionId : ActionId)
    (column : EventFields → Option String) : Except StorageError (Option String) :=
  match (run.rowsIn actionId "planned").head? with
  | none => .ok none
  | some row => (notNull 0 (column row.fields)).map some

/-- `COALESCE(MAX(sequence), -1) + 1`. -/
def nextSequence (run : RunJournal) (actionId : ActionId) : Int :=
  (((run.rowsOf actionId).map (·.sequence)).max?).getD (-1) + 1

/-- The actions before this one that have rows, each with its latest
phase. -/
def priorActions (run : RunJournal) (actionId : ActionId) :
    List (ActionId × String) :=
  let ids := (run.actionEvents.map (·.actionId)).filter (· < actionId)
  (ids.dedup.insertionSort (· ≤ ·)).filterMap fun prior =>
    (run.currentPhase prior).map fun phase => (prior, phase)

end RunJournal

/-! ## Checks on the event alone -/

/-- Evidence that shows source and destination, each with its size and,
where content counts, its hash, and no recovered item. -/
def IndependentProof (contentProofRequired : Bool) (evidence : RecoveryEvidence) :
    Prop :=
  evidence.sourcePresent = true ∧ evidence.destinationPresent = true ∧
    evidence.recoveryPresent = false ∧ evidence.recoveryTarget = none ∧
    evidence.sourceSize.isSome = true ∧
    (contentProofRequired = true → evidence.sourceSha256.isSome = true) ∧
    evidence.destinationSize.isSome = true ∧
    (contentProofRequired = true → evidence.destinationSha256.isSome = true)

instance (c : Bool) (evidence : RecoveryEvidence) :
    Decidable (IndependentProof c evidence) :=
  inferInstanceAs (Decidable (_ ∧ _ ∧ _ ∧ _ ∧ _ ∧ _ ∧ _ ∧ _))

/-- The recovery outcome a deletion method asks for. -/
def ValidRecovery (method : DeletionMethod) (evidence : RecoveryEvidence) : Prop :=
  match method with
  | .trash =>
      evidence.recoveryPresent = true ∧ evidence.recoveryTarget.isSome = true
  | .permanentRemoval =>
      evidence.recoveryPresent = false ∧ evidence.recoveryTarget = none

instance (method : DeletionMethod) (evidence : RecoveryEvidence) :
    Decidable (ValidRecovery method evidence) := by
  cases method <;> exact inferInstanceAs (Decidable (_ ∧ _))

/-- The operations that move content. -/
def transfersContent (operation : Option String) : Prop :=
  operation = some "copy_to_destination" ∨ operation = some "overwrite_destination" ∨
    operation = some "remove_source_after_verification"

instance (operation : Option String) : Decidable (transfersContent operation) :=
  inferInstanceAs (Decidable (_ ∨ _ ∨ _))

def checkTransferBoundary (event : JournalEvent) (currentPhase plannedOperation :
    Option String) (contentProofRequired : Bool) : Except StorageError Unit :=
  match event with
  | .transferVerified _ evidence metadataVerified =>
      ensure (transfersContent plannedOperation ∧ metadataVerified = true ∧
          IndependentProof contentProofRequired evidence ∧
          (currentPhase = some "started" ∨ currentPhase = some "progress"))
        (.invalidEvent "verified transfer boundary is incomplete or out of order")
  | _ => .ok ()

def checkProofBoundary (event : JournalEvent) (currentPhase plannedOperation :
    Option String) (contentProofRequired : Bool) : Except StorageError Unit :=
  match event with
  | .proofBoundary _ _ evidence metadataVerified => do
      ensure (metadataVerified = true ∧ IndependentProof contentProofRequired evidence)
        (.invalidEvent
          "proof boundary is missing independent destination or metadata evidence")
      ensure (plannedOperation = some "remove_source_after_verification" →
          currentPhase = some "transfer_verified")
        (.invalidEvent
          "Safe Delete proof boundary requires a verified transfer boundary")
  | _ => .ok ()

def checkGenericCompletion (event : JournalEvent) (plannedOperation : Option String) :
    Except StorageError Unit :=
  match event with
  | .completed _ =>
      ensure (plannedOperation ≠ some "remove_source_after_verification")
        (.invalidEvent "source-removal actions must settle through RemovalCompleted")
  | .recoveryResolved _ (.completed _) =>
      ensure (plannedOperation ≠ some "remove_source_after_verification")
        (.invalidEvent <| "Safe Delete recovery cannot be marked completed without a " ++
          "RemovalCompleted result")
  | _ => .ok ()

/-- The deletion method an event names. -/
def eventMethod : JournalEvent → Option DeletionMethod
  | .proofBoundary _ deletionMethod _ _ => some deletionMethod
  | .removalStarted _ deletionMethod => some deletionMethod
  | .removalCompleted _ result => some result.deletionMethod
  | _ => none

def checkDeletionMethod (event : JournalEvent)
    (plannedOperation configuredDeletionMethod : Option String) :
    Except StorageError Unit :=
  match eventMethod event with
  | some method =>
      ensure (plannedOperation = some "remove_source_after_verification" ∧
          configuredDeletionMethod = some (encodeDeletionMethod method))
        (.invalidEvent "removal boundary does not match the frozen Safe Delete method")
  | none => .ok ()

def checkRemovalResult (event : JournalEvent) (contentProofRequired : Bool) :
    Except StorageError Unit :=
  match event with
  | .removalCompleted _ result =>
      ensure (result.evidence.sourcePresent = false ∧
          result.evidence.destinationPresent = true ∧
          result.evidence.destinationSize.isSome = true ∧
          (contentProofRequired = true →
            result.evidence.destinationSha256.isSome = true) ∧
          ValidRecovery result.deletionMethod result.evidence)
        (.invalidEvent <| "removal result does not prove source absence and the selected " ++
          "recovery outcome")
  | _ => .ok ()

/-! ## The transition table -/

/-- Phases after which an action takes no further boundary. -/
def closedPhases : List String :=
  ["completed", "failed", "cancelled", "interrupted", "deferred", "unresolved",
    "removal_completed"]

/-- Phases of an action that is under way. -/
def runningPhases : List String :=
  ["started", "progress", "transfer_verified", "proof_boundary", "removal_started"]

def mayFollow (phase : String) (current : String) : Bool :=
  match phase with
  | "started" => current = "planned"
  | "progress" => current ∈ ["started", "progress"]
  | "transfer_verified" => current ∈ ["started", "progress"]
  | "proof_boundary" => current = "transfer_verified"
  | "removal_started" => current = "proof_boundary"
  | "removal_completed" => current = "removal_started"
  | "recovery_resolved" => current = "recovery_review"
  | "completed" | "failed" | "deferred" | "unresolved" => current ∈ runningPhases
  | "cancelled" | "interrupted" => current ∈ ["planned", "started", "progress"]
  | "recovery_review" => current ∈ runningPhases
  | _ => false

/-- `format!("{current_phase:?}")`. -/
def debugPhase : Option String → String
  | none => "None"
  | some phase => "Some(\"" ++ phase ++ "\")"

def checkTransition (event : JournalEvent) (hasPlan : Bool)
    (currentPhase : Option String) : Except StorageError Unit :=
  let phase := eventPhase event
  if phase = "planned" then do
    ensure (hasPlan = false) (.invalidEvent "an action can have only one planned boundary")
    ensure (currentPhase = none)
      (.invalidEvent "planned must be the first action boundary")
  else do
    ensure (hasPlan = true)
      (.invalidEvent "an action must be planned before its next boundary")
    ensure (∀ current ∈ currentPhase, current ∉ closedPhases)
      (.invalidEvent "a settled action cannot receive another boundary")
    ensure (∃ current ∈ currentPhase, mayFollow phase current = true)
      (.invalidEvent (phase ++ " cannot follow " ++ debugPhase currentPhase))

def validateEvent (event : JournalEvent) (hasPlan : Bool)
    (currentPhase plannedOperation plannedItemType configuredDeletionMethod :
      Option String) : Except StorageError Unit := do
  let contentProofRequired := decide (plannedItemType = some "regular_file")
  checkTransferBoundary event currentPhase plannedOperation contentProofRequired
  checkProofBoundary event currentPhase plannedOperation contentProofRequired
  checkGenericCompletion event plannedOperation
  checkDeletionMethod event plannedOperation configuredDeletionMethod
  checkRemovalResult event contentProofRequired
  checkTransition event hasPlan currentPhase

/-! ## Checks against the table -/

/-- Verified evidence names the source that was planned. -/
def validateTransferEventAgainstPlan (run : RunJournal) (actionId : ActionId)
    (event : JournalEvent) : Except StorageError Unit :=
  match event with
  | .transferVerified _ evidence _ => do
      let row ← orError (run.rowsIn actionId "planned").head?
        (.invalidEvent "verified transfer boundary requires a planned action")
      let itemType ← notNull 0 row.fields.preItemType
      let size ← orError (row.fields.preSize.bind tryU64)
        (.invalidEvent "planned action has no source size")
      let sha256 ← decodeHash row.fields.preSha256
      ensure (itemType = "regular_file" → sha256.isSome = true)
        (.invalidEvent "planned action has no source SHA-256")
      ensure (evidence.sourceSize = some size ∧ evidence.sourceSha256 = sha256)
        (.invalidEvent "verified transfer boundary does not match the planned source")
  | _ => .ok ()

/-- A removal result shows the destination its proof boundary showed. -/
def validateRemovalResultAgainstProof (run : RunJournal) (actionId : ActionId)
    (event : JournalEvent) : Except StorageError Unit :=
  match event with
  | .removalCompleted _ result => do
      let row ← orError (latestRow (run.rowsIn actionId "proof_boundary"))
        (.invalidEvent "removal result requires a persisted proof boundary")
      let itemType ← notNull 0
        ((run.rowsIn actionId "planned").head?.bind (·.fields.preItemType))
      let proofSize ← orError (row.fields.proofDestinationSize.bind tryU64)
        (.invalidEvent "proof boundary has no destination size")
      let proofSha256 ← decodeHash row.fields.proofDestinationSha256
      ensure (itemType = "regular_file" → proofSha256.isSome = true)
        (.invalidEvent "proof boundary has no destination SHA-256")
      ensure (result.evidence.destinationSize = some proofSize ∧
          result.evidence.destinationSha256 = proofSha256)
        (.invalidEvent "removal result does not match the persisted proof boundary")
  | _ => .ok ()

def eventAdvancesAction : JournalEvent → Bool
  | .planned _ => false
  | _ => true

def settledPhases : List String :=
  ["completed", "failed", "cancelled", "interrupted", "deferred", "unresolved",
    "removal_completed", "recovery_resolved"]

def isSettledPhase (phase : String) : Bool := phase ∈ settledPhases

/-- An action advances only when every action before it is settled. -/
def validateActionOrder (run : RunJournal) (actionId : ActionId)
    (event : JournalEvent) : Except StorageError Unit :=
  match event with
  | .cancelled _ | .interrupted _ => .ok ()
  | _ =>
      if eventAdvancesAction event then
        match (run.priorActions actionId).find? (fun p => !isSettledPhase p.2) with
        | none => .ok ()
        | some (prior, phase) =>
            .error (.invalidEvent ("action " ++ toString actionId ++
              " cannot settle before prior action " ++ toString prior ++
              " (" ++ phase ++ ")"))
      else .ok ()

/-- A completed resolution needs evidence newer than its review. -/
def validateRecoveryResolution (run : RunJournal) (actionId : ActionId)
    (event : JournalEvent) : Except StorageError Unit :=
  match event with
  | .recoveryResolved _ (.completed evidence) => do
      let row ← orError (latestRow (run.rowsIn actionId "recovery_review"))
        (.invalidEvent "completed recovery resolution requires a persisted Recovery Review")
      let reviewObservedAt ← notNull 0 row.fields.recoveryObservedAtUnixNanos
      ensure (reviewObservedAt < evidence.observedAtUnixNanos)
        (.invalidEvent <| "completed recovery resolution requires newer filesystem " ++
          "inspection evidence")
  | _ => .ok ()

/-- `append_event`, for a run that exists. -/
def RunJournal.appendEvent (run : RunJournal) (event : JournalEvent) :
    Except StorageError RunJournal := do
  let actionId := eventActionId event
  bindU64 actionId
  let hasPlan := run.hasPlan actionId
  let currentPhase := run.currentPhase actionId
  let plannedOperation ← run.plannedColumn actionId (·.operation)
  let plannedItemType ← run.plannedColumn actionId (·.preItemType)
  validateEvent event hasPlan currentPhase plannedOperation plannedItemType
    run.deletionMethod
  validateTransferEventAgainstPlan run actionId event
  validateRemovalResultAgainstProof run actionId event
  validateActionOrder run actionId event
  validateRecoveryResolution run actionId event
  let sequence := run.nextSequence actionId
  let fields := EventFields.fromEvent event
  bindFields fields
  return { run with
    actionEvents := run.actionEvents ++ [{ actionId, sequence, fields }] }

end SyncPlus
