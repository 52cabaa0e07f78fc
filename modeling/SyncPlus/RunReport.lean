import SyncPlus.JournalAppend
import SyncPlus.JournalReplay
import SyncPlus.RunSnapshot

/-!
# The report of a run

What the store keeps of one run besides its journal, the operations
that write it, and the report derived from it. The report has three
answers of its own, each derived from the same rows: the status, the
execution result and the lifecycle. The acknowledgement that the user
gives at the end is a flag of the run (`reviewCleared`) which nothing
resets.
-/

namespace SyncPlus

/-! ## What is recorded -/

inductive AnalysisOutcome where
  | included
  | excluded
  | unsupported
  deriving Repr, DecidableEq

structure InventorySnapshotItem where
  relativePath : PathBuf
  itemType : ItemType
  outcome : AnalysisOutcome
  size : UInt64
  modifiedAtUnixNanos : Option Int64
  readonly : Bool
  permissions : Option UInt32
  symlinkTarget : Option PathBuf
  contentFingerprint : Option Sha256
  deriving DecidableEq

inductive ReconciliationReason where
  | unexplained
  | excluded
  | newlyAppeared
  | changed
  | failed (reason : ActionReason)
  | unavailable
  | unverifiable
  deriving Repr, DecidableEq

structure ReconciliationFinding where
  relativePath : PathBuf
  reason : ReconciliationReason
  deriving Repr, DecidableEq

inductive SourceDrainStatus where
  | notApplicable
  | drained
  | notEmpty
  deriving Repr, DecidableEq

structure CompletionReconciliation where
  sourceDrainStatus : SourceDrainStatus
  findings : List ReconciliationFinding
  deriving Repr, DecidableEq

def CompletionReconciliation.requiresReview (r : CompletionReconciliation) : Bool :=
  !r.findings.isEmpty

inductive ConflictResolution where
  | keepPeerA
  | keepPeerB
  | preserveBoth
  | renamePreserveForReview
  | defer
  deriving Repr, DecidableEq

inductive ResolutionOperation where
  | copyWholeFile
  | preserveBoth
  | renamePreserveForReview
  | defer
  deriving Repr, DecidableEq

inductive MirrorResolutionOutcome where
  | completed
  | deferred
  | failed (reason : ActionReason)
  | unresolved (reason : ActionReason)
  deriving Repr, DecidableEq

inductive MirrorResolutionReviewState where
  | settled
  | reviewLater
  deriving Repr, DecidableEq

def ConflictResolution.preserves : ConflictResolution → Bool
  | preserveBoth => true
  | renamePreserveForReview => true
  | _ => false

/-- A reviewed Mirror outcome. Its constructor leaves every preserved copy
for later review. -/
structure MirrorResolutionReportItem where
  originalPath : PathBuf
  generatedPath : Option PathBuf
  resolution : ConflictResolution
  operation : ResolutionOperation
  sourcePeer : Option PeerSide
  targetPeer : Option PeerSide
  outcome : MirrorResolutionOutcome
  reviewState : MirrorResolutionReviewState
  preserved_later : resolution.preserves = true → reviewState = .reviewLater
  deriving DecidableEq

def MirrorResolutionReportItem.requiresReview (r : MirrorResolutionReportItem) : Bool :=
  r.resolution.preserves || r.outcome ≠ .completed || r.reviewState = .reviewLater

/-- What the store keeps of one run: the columns of its snapshot that the
report reads, and the rows that belong to it. -/
structure RunRow where
  mode : SyncMode
  journal : RunJournal
  sourceInventoryRecorded : Bool
  destinationInventoryRecorded : Bool
  sourceInventory : List InventorySnapshotItem
  destinationInventory : List InventorySnapshotItem
  blockedReason : Option String
  reconciliation : Option CompletionReconciliation
  mirrorResolutions : List MirrorResolutionReportItem
  reviewCleared : Bool
  deriving DecidableEq

/-! ## The report -/

inductive RunExecutionResult where
  | notStarted
  | inProgress
  | succeeded
  | failed
  | cancelled
  | interrupted
  | blocked
  | recoveryReview
  deriving Repr, DecidableEq

inductive RunLifecycle where
  | open
  | reviewRequired
  | reviewCleared
  deriving Repr, DecidableEq

structure RunReport where
  items : List ActionJournalEntry
  status : RunReportStatus
  executionResult : RunExecutionResult
  lifecycle : RunLifecycle
  blockedReason : Option String
  reconciliation : Option CompletionReconciliation
  reconciliationRequired : Bool
  peerAInventory : Option (List InventorySnapshotItem)
  peerBInventory : Option (List InventorySnapshotItem)
  mirrorResolutions : List MirrorResolutionReportItem
  deriving DecidableEq

namespace ActionOutcome

def isFailed : ActionOutcome → Bool
  | failed _ => true
  | _ => false

def isUnresolved : ActionOutcome → Bool
  | unresolved _ => true
  | _ => false

def isRecoveryReview : ActionOutcome → Bool
  | recoveryReview _ => true
  | _ => false

end ActionOutcome

def MirrorResolutionOutcome.fails : MirrorResolutionOutcome → Bool
  | failed _ => true
  | unresolved _ => true
  | _ => false

def reconciliationRequiresReview (r : Option CompletionReconciliation) : Bool :=
  r.any (·.requiresReview)

def reportStatus (items : List ActionJournalEntry)
    (mirrorResolutions : List MirrorResolutionReportItem) (reviewCleared blocked : Bool)
    (reconciliation : Option CompletionReconciliation) (inventoryRecorded : Bool) :
    RunReportStatus :=
  if blocked then .blocked
  else if items.any (·.outcome = .inProgress) ||
      (items.isEmpty && inventoryRecorded && reconciliation.isNone) then .inProgress
  else if items.any (·.outcome.isRecoveryReview) then .recoveryReview
  else if items.any (·.outcome.isFailed) || mirrorResolutions.any (·.outcome.fails) then
    .failed
  else if items.any (·.outcome = .interrupted) then .interrupted
  else if items.any (·.outcome = .cancelled) then .cancelled
  else if items.any (fun item => item.outcome = .deferred || item.outcome.isUnresolved) ||
      mirrorResolutions.any (·.requiresReview) ||
      reconciliationRequiresReview reconciliation ||
      (inventoryRecorded && reconciliation.isNone) then .completedWithReviewRequired
  else if reviewCleared then .reviewCleared
  else .completed

def executionResult (items : List ActionJournalEntry)
    (blocked reconciliationRecorded : Bool) : RunExecutionResult :=
  if blocked then .blocked
  else if items.isEmpty && !reconciliationRecorded then .notStarted
  else if items.any (·.outcome = .inProgress) then .inProgress
  else if items.any (·.outcome.isRecoveryReview) then .recoveryReview
  else if items.any (·.outcome.isFailed) then .failed
  else if items.any (·.outcome = .interrupted) then .interrupted
  else if items.any (·.outcome = .cancelled) then .cancelled
  else .succeeded

/-- The outcomes that keep a report under review. -/
def ActionOutcome.keepsReview : ActionOutcome → Bool
  | failed _ | cancelled | interrupted | deferred | unresolved _ | recoveryReview _ => true
  | inProgress | completed => false

def reportLifecycle (items : List ActionJournalEntry)
    (mirrorResolutions : List MirrorResolutionReportItem) (reviewCleared blocked : Bool)
    (reconciliation : Option CompletionReconciliation) : RunLifecycle :=
  if reviewCleared then
    if mirrorResolutions.any (·.requiresReview) ||
        reconciliationRequiresReview reconciliation then .reviewRequired
    else .reviewCleared
  else if blocked || reconciliationRequiresReview reconciliation ||
      mirrorResolutions.any (·.requiresReview) then .reviewRequired
  else if items.any (·.outcome.keepsReview) then .reviewRequired
  else .open

/-- Read an inventory back. Its sizes were written with `as i64`. -/
def loadInventoryTable (items : List InventorySnapshotItem) :
    Except StorageError (List InventorySnapshotItem) :=
  items.mapM fun item =>
    (orError (tryU64 item.size.toInt64)
      (.corruptEvidence "source inventory contains a negative size")).map fun size =>
        { item with size }

def RunRow.inventoriesRecorded (run : RunRow) : Bool :=
  match run.mode with
  | .mirror => run.sourceInventoryRecorded && run.destinationInventoryRecorded
  | .oneWay => run.sourceInventoryRecorded

/-- The inventory of one peer, which only a Mirror report shows. -/
def RunRow.peerInventory (run : RunRow) (recorded : Bool)
    (items : List InventorySnapshotItem) :
    Except StorageError (Option (List InventorySnapshotItem)) :=
  if run.mode = .mirror ∧ recorded = true then (loadInventoryTable items).map some
  else .ok none

/-- `load_report`, for a run that exists. -/
def RunRow.loadReport (run : RunRow) : Except StorageError RunReport := do
  let items ← run.journal.loadJournal
  let peerAInventory ← run.peerInventory run.sourceInventoryRecorded run.sourceInventory
  let peerBInventory ←
    run.peerInventory run.destinationInventoryRecorded run.destinationInventory
  return {
    items
    status := reportStatus items run.mirrorResolutions run.reviewCleared
      run.blockedReason.isSome run.reconciliation run.inventoriesRecorded
    executionResult :=
      SyncPlus.executionResult items run.blockedReason.isSome run.reconciliation.isSome
    lifecycle := reportLifecycle items run.mirrorResolutions run.reviewCleared
      run.blockedReason.isSome run.reconciliation
    blockedReason := run.blockedReason
    reconciliation := run.reconciliation
    reconciliationRequired := run.inventoriesRecorded
    peerAInventory
    peerBInventory
    mirrorResolutions := run.mirrorResolutions }

def RunReport.canMarkReviewCleared (report : RunReport) : Bool :=
  report.lifecycle = .open && report.executionResult = .succeeded &&
    (!report.reconciliationRequired || report.reconciliation.any (!·.requiresReview)) &&
    report.mirrorResolutions.all (!·.requiresReview)

/-! ## The operations -/

inductive StoreOperation where
  | beginRun (snapshot : RunSnapshot)
  | recordSourceInventory (items : List InventorySnapshotItem)
  | recordDestinationInventory (items : List InventorySnapshotItem)
  | appendEvent (event : JournalEvent)
  | markBlocked (reason : String)
  | recordReconciliation (reconciliation : CompletionReconciliation)
  | recordMirrorResolutions (resolutions : List MirrorResolutionReportItem)
  | markReviewCleared

def RunRow.opened (snapshot : RunSnapshot) : RunRow :=
  { mode := snapshot.profile.mode
    journal := .opened (snapshot.validatedOptions.deletionMethod.map encodeDeletionMethod)
    sourceInventoryRecorded := false
    destinationInventoryRecorded := false
    sourceInventory := []
    destinationInventory := []
    blockedReason := none
    reconciliation := none
    mirrorResolutions := []
    reviewCleared := false }

/-- Insert inventory rows. Ordinals start at 0 and are unique in a run,
and so are paths. -/
def insertInventory (existing items : List InventorySnapshotItem) :
    Except StorageError (List InventorySnapshotItem) := do
  ensure (existing = [] ∨ items = []) (.sqlite .constraintViolation)
  ensure (items.map (·.relativePath)).Nodup (.sqlite .constraintViolation)
  return existing ++ items

def RunRow.apply (run : RunRow) :
    StoreOperation → Except StorageError RunRow
  | .beginRun _ => .error (.sqlite .constraintViolation)
  | .recordSourceInventory items => do
      let sourceInventory ← insertInventory run.sourceInventory items
      return { run with sourceInventory, sourceInventoryRecorded := true }
  | .recordDestinationInventory items => do
      let destinationInventory ← insertInventory run.destinationInventory items
      return { run with destinationInventory, destinationInventoryRecorded := true }
  | .appendEvent event => do
      let journal ← run.journal.appendEvent event
      return { run with journal }
  | .markBlocked reason => .ok { run with blockedReason := some reason }
  | .recordReconciliation reconciliation =>
      .ok { run with reconciliation := some reconciliation }
  | .recordMirrorResolutions mirrorResolutions => do
      ensure (run.mode = .mirror)
        (.invalidEvent "Mirror resolution evidence requires a Mirror run")
      return { run with mirrorResolutions }
  | .markReviewCleared => do
      let report ← run.loadReport
      ensure (report.canMarkReviewCleared = true)
        (.invalidEvent <| "Review-Cleared requires settled actions and a reconciliation " ++
          "with no findings")
      return { run with reviewCleared := true }

def missingRun (runId : RunId) : StorageError :=
  .invalidEvent ("run " ++ toString runId.value ++ " does not exist")

/-- An operation on a run that was never begun. -/
def applyMissing (runId : RunId) : StoreOperation → Except StorageError RunRow
  | .beginRun snapshot => do
      bindU64 runId.value
      return .opened snapshot
  | .recordSourceInventory [] => .error (missingRun runId)
  | .recordDestinationInventory [] => .error (missingRun runId)
  | .recordSourceInventory _ => .error (.sqlite .constraintViolation)
  | .recordDestinationInventory _ => .error (.sqlite .constraintViolation)
  | .appendEvent _ => .error (missingRun runId)
  | .markBlocked _ => .error (missingRun runId)
  | .recordReconciliation _ => .error (.sqlite .constraintViolation)
  | .recordMirrorResolutions _ => .error (.sqlite .queryReturnedNoRows)
  | .markReviewCleared => .error (.reportNotFound runId)

/-- One operation on the store, for the run of this id. -/
def applyOperation (runId : RunId) (run : Option RunRow) (op : StoreOperation) :
    Except StorageError (Option RunRow) :=
  match run with
  | some run => (run.apply op).map some
  | none => (applyMissing runId op).map some

end SyncPlus
