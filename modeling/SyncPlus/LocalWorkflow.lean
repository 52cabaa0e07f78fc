import SyncPlus.Machine
import SyncPlus.RecoveryPaths
import SyncPlus.Replacement
import SyncPlus.RunPaths
import SyncPlus.RunSnapshot
import SyncPlus.SshTransfer

/-!
# The local driver

`execute_confirmed_with_authorizations`, from the plan on: the plan is journaled as the
items are found, the actions are executed one after another, and a source is removed by
`SafeDeleteExecutor::settle_one` alone. The file system, the external transfer and the rows
of the store that a run does not write are answers of the world. The run ends with the
reconciliation, which offers no event and is not part of the driver here.
-/

namespace SyncPlus

/-! ## The texts of errors -/

def VerificationError.text : VerificationError → String
  | .io reason => "filesystem verification failed: " ++ reason
  | .cancelled => "verification was cancelled"
  | .unsupportedItem => "only regular files can be transferred"
  | .sourceChanged => "source changed during verification"
  | .sizeMismatch expected actual =>
      "size mismatch: expected " ++ toString expected ++ ", observed " ++ toString actual
  | .hashMismatch => "SHA-256 verification mismatch"
  | .sizeOverflow => "file size exceeded supported range"

/-- `{:?}`. -/
def PlanActionKind.debug : PlanActionKind → String
  | .copyToDestination => "CopyToDestination"
  | .overwriteDestination => "OverwriteDestination"
  | .removeSourceAfterVerification => "RemoveSourceAfterVerification"
  | .removeDestination => "RemoveDestination"

/-- `debug` is how a path is shown. -/
def PlanError.text (debug : PathBuf → String) : PlanError → String
  | .actionOutsideApprovedScope path =>
      "plan action is outside the approved scope: " ++ debug path
  | .actionNotInPlan path => "plan does not contain the requested action: " ++ debug path
  | .actionNotAllowed kind =>
      "plan action is not allowed by the process specification: " ++ kind.debug

def TransferPathError.text (debug : PathBuf → String) : TransferPathError → String
  | .actionSourceMismatch => "plan action belongs to a different source peer"
  | .invalidTransferPath path =>
      "transfer path is not a normalized relative item path: " ++ debug path

namespace LocalWorkflow

/-! ## Errors of a transfer -/

/-- `ReplacementError`, with the process errors that the run tells apart. -/
inductive ReplacementError where
  | io (reason : String)
  | transfer (reason : String)
  | process (error : ProcessError)
  | processExit (exitCode signal : Option Int)
  | verification (error : VerificationError)
  | metadataMismatch
  | cancelled
  | recoveryUncertain (reason : String)
  deriving Repr, DecidableEq

inductive TransferError where
  | invalidProcessSpecification (error : TransferPathError)
  | invalidPlan (error : PlanError)
  | process (error : ProcessError)
  | replacement (error : ReplacementError)
  | malformedOutput
  deriving Repr, DecidableEq

namespace TransferError

def isTransient : TransferError → Bool
  | .process (.io _) => true
  | .replacement (.process (.io _)) => true
  | .replacement (.processExit exitCode signal) =>
      signal.isNone && exitCode ∈ [some 10, some 11, some 30, some 35]
  | _ => false

def requiresRecoveryReview : TransferError → Bool
  | .process .orphanedProcessGroup => true
  | .process (.processGroup _) => true
  | .replacement (.process .orphanedProcessGroup) => true
  | .replacement (.process (.processGroup _)) => true
  | .replacement (.processExit _ (some _)) => true
  | .replacement (.recoveryUncertain _) => true
  | _ => false

end TransferError

def transferReason : TransferError → ActionReason
  | .replacement (.verification .sourceChanged) => .sourceChanged
  | .replacement (.verification _) => .verificationMismatch
  | .replacement .metadataMismatch => .verificationMismatch
  | .replacement (.recoveryUncertain _) => .interruptedBoundary
  | .replacement (.process .orphanedProcessGroup) => .interruptedBoundary
  | .replacement (.process (.processGroup _)) => .interruptedBoundary
  | .process .orphanedProcessGroup => .interruptedBoundary
  | .process (.processGroup _) => .interruptedBoundary
  | _ => .transferFailed

/-- `action_reason`, which the executor of the removal journals. -/
def actionReason : SafeDeleteError → ActionReason
  | .verification .sourceChanged => .sourceChanged
  | .verification _ => .verificationMismatch
  | .recoveryUnavailable _ => .destinationUnavailable
  | .recoveryUncertain _ => .interruptedBoundary
  | .invalidPlan _ | .invalidAction _ | .io _ | .storage _ => .permissionDenied

/-- `safe_delete_reason`, which the driver journals for an executor that did not. -/
def safeDeleteReason : SafeDeleteError → ActionReason
  | .verification .sourceChanged => .sourceChanged
  | .verification _ => .verificationMismatch
  | .recoveryUncertain _ => .interruptedBoundary
  | .recoveryUnavailable _ => .destinationUnavailable
  | .invalidPlan _ | .invalidAction _ | .io _ | .storage _ => .transferFailed

def isUncertain : SafeDeleteError → Bool
  | .recoveryUncertain _ => true
  | _ => false

/-! ## The run, its backend and its answers -/

structure VerifiedReplacement where
  source : PathBuf
  destination : PathBuf
  previousDestination : Option PathBuf
  proof : VerifiedTransferProof
  metadata : MetadataRequirements
  deriving DecidableEq

/-- The confirmed plan with the specification it is for, and how sources are removed. -/
structure LocalRun where
  runId : RunId
  confirmed : ConfirmedPlan
  specification : ProcessSpecification
  recoveryMethod : RecoveryMethod
  options_eq : specification.options = confirmed.plan.options
  mode_eq : specification.mode = confirmed.plan.mode

/-- What `perform_removal` is told to remove. -/
structure SourceRemoval where
  action : PlanAction
  sourceRoot : PathBuf
  source : PathBuf
  proof : VerifiedTransferProof
  metadata : MetadataRequirements
  provenance : Option RecoveryProvenance
  deriving DecidableEq

structure LocalBackend (σ : Type) extends Surroundings σ where
  debug : PathBuf → String
  storageText : StorageError → String
  captureMetadata : PathBuf → σ → Except VerificationError FileMetadataProof × σ
  contentFromPath : PathBuf → σ → Except VerificationError ContentProof × σ
  /-- The progress reported on the way, and the recovery artifact and the proof. -/
  performVerifiedReplacement : PathBuf → PathBuf → σ →
    (Option UInt64 × Except ReplacementError (Option PathBuf × VerifiedTransferProof)) × σ
  isScheduledRun : σ → Except StorageError Bool × σ
  recordSchedulerRetry : UInt32 → Bool → σ → Except StorageError Unit × σ
  loadSnapshot : σ → Except StorageError RunSnapshot × σ
  validateSourceItemPath : PathBuf → PathBuf → σ → Except SafeDeleteError Unit × σ
  canonicalize : PathBuf → σ → Except String PathBuf × σ
  recheck : SourceObservation → PathBuf → σ → Except VerificationError Unit × σ
  verifyContent : PathBuf → ContentProof → σ → Except VerificationError ContentProof × σ
  /-- The recovery target, and whether it is on the file system of the source. -/
  validateRecoveryRoot : PathBuf → PathBuf → AbsolutePath → σ →
    Except SafeDeleteError (PathBuf × Bool) × σ
  pathExists : PathBuf → σ → Except String Bool × σ
  ensureRecoverySpace : AbsolutePath → UInt64 → σ → Except SafeDeleteError Unit × σ
  performRemoval : SourceRemoval → σ → Except SafeDeleteError RemovalResult × σ
  observeContent : PathBuf → σ → PathObservation × σ

inductive LocalAnswer where
  | transferred (action : PlanAction) (result : Except TransferError VerifiedReplacement)
  | polledAtRemoval (cancel : Bool)
  | scheduled (result : Except StorageError Bool)
  | snapshotLoaded (result : Except StorageError RunSnapshot)
  | rechecked (source : PathBuf) (observation : SourceObservation)
      (result : Except VerificationError Unit)
  | contentVerified (destination : PathBuf) (expected : ContentProof)
      (result : Except VerificationError ContentProof)
  | captured (path : PathBuf) (result : Except VerificationError FileMetadataProof)
  | removed (removal : SourceRemoval) (result : Except SafeDeleteError RemovalResult)
  deriving DecidableEq

abbrev LocalProgram (σ : Type) := Program (Machine σ LocalAnswer) WorkflowError

abbrev SafeDeleteProgram (σ : Type) := Program (Machine σ LocalAnswer) SafeDeleteError

namespace LocalRun

def plan (run : LocalRun) : OneWayPlan := run.confirmed.plan

/-- `OneWayPlan::validate`. -/
def validate (run : LocalRun) : Except PlanError Unit :=
  run.plan.actions.forM (validateAction run.specification run.plan.sourceInventory
    run.plan.destinationInventory)

/-- The paths of a transfer that an action of kind `allowed` asks for. -/
def transferPathsFor (run : LocalRun) (action : PlanAction)
    (allowed : PlanActionKind → Bool) : Except TransferError (PathBuf × PathBuf) := do
  run.validate.mapError .invalidPlan
  ensure (action ∈ run.plan.actions) (.invalidPlan (.actionNotInPlan action.relativePath))
  ensure (allowed action.kind = true) (.invalidPlan (.actionNotAllowed action.kind))
  let source ← (run.specification.sourcePath action).mapError .invalidProcessSpecification
  let destination ←
    (run.specification.destinationPath action).mapError .invalidProcessSpecification
  return (source, destination)

/-- What `execute_with_progress_and_policy` checks. -/
def transferPaths (run : LocalRun) (action : PlanAction) :
    Except TransferError (PathBuf × PathBuf) :=
  run.transferPathsFor action (fun kind =>
    kind = .copyToDestination || kind = .overwriteDestination)

/-- What `execute_source_verification` checks. -/
def verificationPaths (run : LocalRun) (action : PlanAction) :
    Except TransferError (PathBuf × PathBuf) :=
  run.transferPathsFor action (· = .removeSourceAfterVerification)

end LocalRun

section

variable {σ : Type} (backend : LocalBackend σ) (run : LocalRun) (action : PlanAction)

/-! ## Planning -/

def capturedPreAction (path : PathBuf) : LocalProgram σ PreActionState := do
  match ← inquire (backend.captureMetadata path) with
  | .error error => .fail (.io error.text)
  | .ok metadata =>
      let state (sha256 : Option Sha256) : PreActionState := {
        itemType := metadata.itemType
        size := metadata.size
        modifiedAtUnixNanos := metadata.modifiedAtUnixNanos
        identity := metadata.identity
        sha256 }
      if metadata.itemType = .regularFile then
        match ← inquire (backend.contentFromPath path) with
        | .error error => .fail (.io error.text)
        | .ok content => return state (some content.sha256)
      else return state none

/-- The item at the source, or at the destination when that is to be removed. -/
def planRecord : LocalProgram σ PlanRecord := do
  let path ← .ofExcept ((if action.kind = .removeDestination then
      run.specification.destinationPath action
    else run.specification.sourcePath action).mapError fun error =>
      .invalidRun (error.text backend.debug))
  let preAction ← capturedPreAction backend path
  return {
    actionId := action.actionId
    relativePath := action.relativePath
    operation := action.kind
    affectedSide := action.sourceSide
    plannedBytes := action.size
    preAction }

/-! ## Transfers -/

/-- The progress callback: once an event was rejected, none is offered. -/
def reportUnlessFailed (failed : Option StorageError) (progress : Option UInt64) :
    LocalProgram σ (Option StorageError) := do
  match failed with
  | some error => return some error
  | none =>
      match ← reportProgress action.actionId progress.toList with
      | .ok () => return none
      | .error error => return some error

/-- What `perform_verified_replacement` has answered, between these paths. -/
def transferResult (source destination : PathBuf) :
    Except ReplacementError (Option PathBuf × VerifiedTransferProof) →
      Except TransferError VerifiedReplacement
  | .error error => .error (.replacement error)
  | .ok (previousDestination, proof) => .ok {
      source
      destination
      previousDestination
      proof
      metadata := run.specification.options.metadata }

/-- One attempt at the paths that the checks have given. -/
def attemptTransfer (paths : Except TransferError (PathBuf × PathBuf))
    (failed : Option StorageError) :
    LocalProgram σ (Option StorageError × Except TransferError VerifiedReplacement) := do
  match paths with
  | .error error => return (failed, .error error)
  | .ok (source, destination) =>
      let (progress, answer) ← inquire (backend.performVerifiedReplacement source destination)
      let failed ← reportUnlessFailed action failed progress
      let result := transferResult run source destination answer
      record (.transferred action result)
      return (failed, result)

/-- One attempt of those that `retried` retries led to; `retry` is what follows a transient
failure while attempts are left. -/
def attemptOnce (paths : Except TransferError (PathBuf × PathBuf)) (retried : Nat)
    (failed : Option StorageError)
    (retry : Option (Option StorageError → LocalProgram σ
      (Nat × Option StorageError × Except TransferError VerifiedReplacement))) :
    LocalProgram σ (Nat × Option StorageError × Except TransferError VerifiedReplacement) := do
  if ← poll backend.toSurroundings then
    return (retried, failed, .error (.replacement .cancelled))
  else
    let (failed, result) ← attemptTransfer backend run action paths failed
    match result, retry with
    | .error error, some retry =>
        if error.isTransient then retry failed else return (retried, failed, .error error)
    | result, _ => return (retried, failed, result)

/-- `retry_transfer_with_hook`, with the retries that are left and those that were made. -/
def retryTransferWithHook (paths : Except TransferError (PathBuf × PathBuf)) :
    Nat → Nat → Option StorageError →
      LocalProgram σ (Nat × Option StorageError × Except TransferError VerifiedReplacement)
  | 0, retried, failed => attemptOnce backend run action paths retried failed none
  | left + 1, retried, failed =>
      attemptOnce backend run action paths retried failed (some fun failed => do
        if ← inquire backend.sleepInterruptibly then
          retryTransferWithHook paths left (retried + 1) failed
        else return (retried + 1, failed, .error (.replacement .cancelled)))

def recordSchedulerRetryIfNeeded (retried : Nat)
    (result : Except TransferError VerifiedReplacement) : LocalProgram σ Unit := do
  if retried = 0 then return ()
  else
    match ← inquire backend.isScheduledRun with
    | .error error => .fail (.storage error)
    | .ok false => return ()
    | .ok true =>
        let exhausted :=
          match result with
          | .error error => error.isTransient &&
              decide (run.specification.options.retryPolicy.maxAttempts.toNat ≤ retried + 1)
          | .ok _ => false
        match ← inquire (backend.recordSchedulerRetry (.ofNat retried) exhausted) with
        | .error error => .fail (.storage error)
        | .ok () => return ()

/-- The transfer of an action with its retries; a progress event that was rejected leaves the
action in review. -/
def runTransfer (paths : Except TransferError (PathBuf × PathBuf)) :
    LocalProgram σ (Except TransferError VerifiedReplacement) := do
  let (retried, failed, result) ← retryTransferWithHook backend run action paths
    run.specification.options.retryPolicy.retries 0 none
  recordSchedulerRetryIfNeeded backend run retried result
  match failed with
  | some error => recordJournalFailure backend.toSurroundings action (.storage error)
  | none => return result

def recordTransferFailure (error : TransferError) : LocalProgram σ ActionDisposition := do
  if error = .replacement .cancelled then
    journal (.cancelled action.actionId)
    return .stop
  else if error.requiresRecoveryReview then
    let evidence ← observeActionBoundary backend.toSurroundings action
    journal (.recoveryReview action.actionId (transferReason error) evidence)
    return .stop
  else
    journal (.failed action.actionId (transferReason error))
    return .continue

def localTransferEvidence (replacement : VerifiedReplacement) :
    LocalProgram σ (Except WorkflowError RecoveryEvidence) := do
  match ← inquire (backend.captureMetadata replacement.destination) with
  | .error error => return .error (.io error.text)
  | .ok destination =>
      let now ← inquire backend.currentUnixNanos
      let sourceAfter := replacement.proof.sourceAfter
      let installed := replacement.proof.installedDestination
      return .ok (RecoveryEvidence.new now none true true false
        (some sourceAfter.metadata.size)
        (some ((installed.map (·.size)).getD destination.size))
        (sourceAfter.content.map (·.sha256)) (installed.map (·.sha256)))

def executeCopy (replacements : PathMap VerifiedReplacement) :
    LocalProgram σ (ActionDisposition × PathMap VerifiedReplacement) := do
  match ← runTransfer backend run action (run.transferPaths action) with
  | .error error =>
      let disposition ← recordTransferFailure backend action error
      return (disposition, replacements)
  | .ok replacement =>
      match ← localTransferEvidence backend replacement with
      | .error error => recordJournalFailure backend.toSurroundings action error
      | .ok evidence =>
          journalOrReview backend.toSurroundings action
            (.transferVerified action.actionId evidence true)
          journalOrReview backend.toSurroundings action (.completed action.actionId)
          return (.continue,
            if action.kind = .copyToDestination ∨ run.specification.options.safeDelete = true
            then replacements.insert action.relativePath replacement
            else replacements)

/-! ## Removals -/

/-- `append_event(..)?` of the executor. -/
def journalRemoval (event : JournalEvent) : SafeDeleteProgram σ Unit := do
  match ← appendEvent event with
  | .ok () => return ()
  | .error error => .fail (.storage error)

def failUnresolved {α : Type} (error : SafeDeleteError) : SafeDeleteProgram σ α := do
  journalRemoval (.unresolved action.actionId (actionReason error))
  .fail error

/-- Checks none of whose failures is journaled before they end. -/
def orUnresolved {α : Type} (checks : SafeDeleteProgram σ α) : SafeDeleteProgram σ α := do
  match ← checks.attempt with
  | .ok a => return a
  | .error error => failUnresolved action error

/-- `RunEvidenceStore::load_journal`. -/
def readJournal {ε : Type} :
    Program (Machine σ LocalAnswer) ε (Except StorageError (List ActionJournalEntry)) :=
  .step fun m => (m.run.loadJournal, m)

def loadJournal : SafeDeleteProgram σ (List ActionJournalEntry) := do
  match ← readJournal with
  | .ok entries => return entries
  | .error error => .fail (.storage error)

/-- The question, whose failure is raised as `raise` has it. -/
def questioned {α ε : Type} (question : σ → Except ε α × σ) (raise : ε → SafeDeleteError) :
    SafeDeleteProgram σ α := do
  match ← inquire question with
  | .ok a => return a
  | .error error => .fail (raise error)

/-- The question, asked on the record. -/
def recorded {α ε : Type} (question : σ → Except ε α × σ)
    (answered : Except ε α → LocalAnswer) (raise : ε → SafeDeleteError) :
    SafeDeleteProgram σ α := do
  match ← ask question answered with
  | .ok a => return a
  | .error error => .fail (raise error)

/-- The action is planned as it is, and the executor removes as the plan has frozen. -/
def checkPlanned : Except SafeDeleteError DeletionMethod := do
  run.validate.mapError fun error => .invalidPlan (error.text backend.debug)
  let planned ← orError (run.plan.actions.find? (·.actionId = action.actionId))
    (.invalidAction ("action " ++ toString action.actionId ++ " is not in the plan"))
  ensure (planned = action)
    (.invalidAction "the supplied action does not match the planned action")
  ensure (action.kind = .removeSourceAfterVerification) (.invalidAction
    "only source-removal actions can enter the Safe Delete proof boundary")
  let selected ← orError run.specification.options.deletionMethod
    (.invalidPlan "Safe Delete requires an explicitly selected deletion method")
  ensure (selected = run.recoveryMethod.deletionMethod) (.invalidAction
    "the executor method does not match the frozen profile selection")
  return selected

/-- A scheduled run removes permanently only where its snapshot says so. -/
def checkUnattended (selected : DeletionMethod) : SafeDeleteProgram σ Unit := do
  if selected = .permanentRemoval then
    if ← recorded backend.isScheduledRun .scheduled .storage then
      let snapshot ← recorded backend.loadSnapshot .snapshotLoaded .storage
      .ofExcept (ensure (snapshot.authorizations.allowUnattendedPermanentRemoval = true)
        (.invalidAction "scheduled Permanent Removal requires separate explicit authorization"))

/-- What `ensure_prior_source_removals_settled` asks of one earlier action. -/
def checkPriorRemoval (journal : List ActionJournalEntry) (prior : PlanAction) :
    Except SafeDeleteError Unit := do
  let entry ← orError (journal.find? (·.plan.actionId = prior.actionId))
    (.invalidAction ("source-removal action " ++ toString prior.actionId ++
      " must be journaled before action " ++ toString action.actionId))
  ensure (entry.outcome = .completed) (.invalidAction ("source-removal action " ++
    toString prior.actionId ++ " is not settled before action " ++ toString action.actionId))

def priorRemovals : List PlanAction :=
  run.plan.actions.filter fun prior =>
    prior.actionId < action.actionId ∧ prior.kind = .removeSourceAfterVerification

def ensurePriorSourceRemovalsSettled : SafeDeleteProgram σ Unit := do
  let journal ← loadJournal
  .ofExcept ((priorRemovals run action).forM (checkPriorRemoval action journal))

/-- The source as it was planned. -/
def PlannedAs (planned : PreActionState) (source : SourceObservation) : Prop :=
  planned.itemType = source.metadata.itemType ∧ planned.size = source.metadata.size ∧
    planned.modifiedAtUnixNanos = source.metadata.modifiedAtUnixNanos ∧
    planned.identity = source.metadata.identity ∧
    planned.sha256 = source.content.map (·.sha256)

instance (planned : PreActionState) (source : SourceObservation) :
    Decidable (PlannedAs planned source) :=
  inferInstanceAs (Decidable (_ ∧ _ ∧ _ ∧ _ ∧ _))

/-- What `ensure_journaled_source_proof` asks of the journal. -/
def checkJournaledSource (proof : VerifiedTransferProof) (journal : List ActionJournalEntry) :
    Except SafeDeleteError Unit := do
  let entry ← orError (journal.find? (·.plan.actionId = action.actionId))
    (.invalidAction ("Safe Delete action " ++ toString action.actionId ++
      " must have a durable plan boundary"))
  ensure (entry.started = true ∧ entry.outcome = .inProgress)
    (.invalidAction ("Safe Delete action " ++ toString action.actionId ++
      " is not in a transferable journal state"))
  ensure (PlannedAs entry.plan.preAction proof.sourceAfter) (.verification .sourceChanged)

/-- What the proof is about, as the file system has it now. -/
structure ProvedSource where
  sourceRoot : PathBuf
  source : PathBuf
  destinationContent : Option ContentProof

/-- The destination, when a file was installed, is read again. -/
def verifyInstalled (destination : PathBuf) :
    Option ContentProof → SafeDeleteProgram σ (Option ContentProof)
  | none => return none
  | some expected => do
      let content ← recorded (backend.verifyContent destination expected)
        (.contentVerified destination expected) .verification
      return some content

/-- The proof fits the journal, the source and the destination. -/
def proveSource (replacement : VerifiedReplacement) (destination : PathBuf) :
    SafeDeleteProgram σ ProvedSource := do
  let proof := replacement.proof
  questioned (backend.validateSourceItemPath run.specification.sourceRoot action.relativePath) id
  let sourceRoot ← questioned (backend.canonicalize run.specification.sourceRoot) .io
  let source := sourceRoot.join action.relativePath
  .ofExcept (ensure (replacement.metadata = run.specification.options.metadata) (.invalidAction
    "transfer proof metadata requirements do not match the frozen profile"))
  let journal ← loadJournal
  .ofExcept (checkJournaledSource action proof journal)
  .ofExcept (ensure (proof.sourceBefore = proof.sourceAfter) (.verification .sourceChanged))
  .ofExcept (ensure (proof.sourceAfter.metadata.itemType = .regularFile ∨
    proof.sourceAfter.metadata.itemType = .symlink) (.verification .unsupportedItem))
  recorded (backend.recheck proof.sourceAfter source) (.rechecked source proof.sourceAfter)
    .verification
  let destinationContent ← verifyInstalled backend destination proof.installedDestination
  let metadata ← recorded (backend.captureMetadata destination) (.captured destination)
    .verification
  .ofExcept (ensure (proof.sourceAfter.metadata.matchesTransferMetadata metadata
    run.specification.options.metadata = true) (.verification .hashMismatch))
  return { sourceRoot, source, destinationContent }

/-- The size of what is recovered. -/
def recoveredSize (proof : VerifiedTransferProof) : UInt64 :=
  (proof.sourceAfter.content.map (·.size)).getD proof.sourceAfter.metadata.size

/-- The recovery target is free, and there is room for what is copied to it. -/
def checkRecoveryTarget (proof : VerifiedTransferProof) (proved : ProvedSource) :
    SafeDeleteProgram σ (Option PathBuf) := do
  match run.recoveryMethod.recoveryRoot with
  | none => return none
  | some root =>
      let (target, sameFilesystem) ←
        questioned (backend.validateRecoveryRoot proved.sourceRoot proved.source root) id
      if ← questioned (backend.pathExists target) .io then
        .fail (.recoveryUnavailable "the recovery target already exists")
      else
        if !sameFilesystem then
          questioned (backend.ensureRecoverySpace root (recoveredSize proof)) id
        return some target

/-- `RecoveryProvenance::new_for_action_with_target`. -/
def newProvenance (now : Int64) (peer : String) (selected : DeletionMethod)
    (proof : VerifiedTransferProof) (proved : ProvedSource) :
    Except SafeDeleteError RecoveryProvenance := do
  let metadata := proof.sourceAfter.metadata
  let provenance ← (RecoveryProvenance.fromRecordWithDetails (some action.actionId) peer
    proved.sourceRoot action.relativePath run.runId now selected .verified metadata.itemType
    proof.sourceAfter.content metadata.identity metadata.symlinkTarget).mapError
      fun error => .recoveryUnavailable error.text
  ensure (metadata.itemType = .symlink → metadata.symlinkTarget.isSome = true)
    (.recoveryUnavailable (RestoreError.text
      (.invalidProvenance "symlink recovery provenance is missing its target")))
  return provenance

def removalProvenance (selected : DeletionMethod) (proof : VerifiedTransferProof)
    (proved : ProvedSource) : SafeDeleteProgram σ (Option RecoveryProvenance) := do
  match run.recoveryMethod.recoveryRoot with
  | none => return none
  | some _ =>
      let snapshot ← questioned backend.loadSnapshot .storage
      let now ← inquire backend.currentUnixNanos
      let provenance ← .ofExcept (newProvenance run action now
        (peerForSide snapshot.profile action.sourceSide).name selected proof proved)
      return some provenance

/-- The evidence of the transfer that a removal goes on with. -/
def removalTransferEvidence (now : Int64) (proof : VerifiedTransferProof)
    (destinationContent : Option ContentProof) : RecoveryEvidence :=
  RecoveryEvidence.new now none true true false (some (recoveredSize proof))
    (some ((destinationContent.map (·.size)).getD proof.sourceAfter.metadata.size))
    (proof.sourceAfter.content.map (·.sha256)) (destinationContent.map (·.sha256))

def observePresent {ε : Type} : Option PathBuf → Program (Machine σ LocalAnswer) ε Bool
  | none => return false
  | some path => do
      let observed ← inquire (backend.observeContent path)
      return observed.present

/-- `observe_recovery_boundary`. -/
def observeRecoveryBoundary {ε : Type} (source destination : PathBuf)
    (recoveryTarget : Option PathBuf) :
    Program (Machine σ LocalAnswer) ε RecoveryEvidence := do
  let atSource ← inquire (backend.observeContent source)
  let atDestination ← inquire (backend.observeContent destination)
  let recoveryPresent ← observePresent backend recoveryTarget
  let now ← inquire backend.currentUnixNanos
  return RecoveryEvidence.new now recoveryTarget atSource.present atDestination.present
    recoveryPresent (atSource.content.map (·.size)) (atDestination.content.map (·.size))
    (atSource.content.map (·.sha256)) (atDestination.content.map (·.sha256))

/-- The failure of a removal that was started. -/
def recordFailure {α : Type} (source destination : PathBuf) (recoveryTarget : Option PathBuf)
    (error : SafeDeleteError) : SafeDeleteProgram σ α := do
  if isUncertain error then
    let evidence ← observeRecoveryBoundary backend source destination recoveryTarget
    journalRemoval (.recoveryReview action.actionId (actionReason error) evidence)
  else journalRemoval (.unresolved action.actionId (actionReason error))
  .fail error

/-- The removal proper, once the file system has been told to remove. -/
def settleRemoval (source destination : PathBuf) (recoveryTarget : Option PathBuf) :
    Except SafeDeleteError RemovalResult → SafeDeleteProgram σ Unit
  | .error error => recordFailure backend action source destination recoveryTarget error
  | .ok result => do
      match ← appendEvent (.removalCompleted action.actionId result) with
      | .ok () => return ()
      | .error error =>
          recordFailure backend action source destination recoveryTarget
            (.recoveryUncertain
              ("RemovalCompleted journal write failed after filesystem mutation: " ++
                backend.storageText error))

/-- What the checks of a removal have established. -/
structure CheckedRemoval extends ProvedSource where
  selected : DeletionMethod
  destination : PathBuf
  recoveryTarget : Option PathBuf

/-- The checks of `settle_one`. -/
def checkRemoval (replacement : VerifiedReplacement) : SafeDeleteProgram σ CheckedRemoval := do
  let selected ← .ofExcept (checkPlanned backend run action)
  checkUnattended backend selected
  ensurePriorSourceRemovalsSettled run action
  let source ← .ofExcept ((run.specification.sourcePath action).mapError fun error =>
    .invalidAction (error.text backend.debug))
  let destination ← .ofExcept ((run.specification.destinationPath action).mapError fun error =>
    .invalidAction (error.text backend.debug))
  .ofExcept (ensure (replacement.source.same source = true ∧
    replacement.destination.same destination = true)
    (.invalidAction "transfer proof is bound to a different source or destination"))
  orUnresolved action do
    let proved ← proveSource backend run action replacement destination
    let recoveryTarget ← checkRecoveryTarget backend run replacement.proof proved
    return { proved with selected, destination, recoveryTarget }

/-- From the checks on: the boundaries, and the removal of the source. -/
def removeProved (replacement : VerifiedReplacement) (checked : CheckedRemoval) :
    SafeDeleteProgram σ Unit := do
  let proof := replacement.proof
  let provenance ← removalProvenance backend run action checked.selected proof
    checked.toProvedSource
  let now ← inquire backend.currentUnixNanos
  let evidence := removalTransferEvidence now proof checked.destinationContent
  journalRemoval (.transferVerified action.actionId evidence true)
  journalRemoval (.proofBoundary action.actionId checked.selected evidence true)
  journalRemoval (.removalStarted action.actionId checked.selected)
  let removal : SourceRemoval := {
    action
    sourceRoot := checked.sourceRoot
    source := checked.source
    proof
    metadata := run.specification.options.metadata
    provenance }
  let result ← ask (backend.performRemoval removal) (.removed removal)
  settleRemoval backend action checked.source checked.destination checked.recoveryTarget result

def settleOne (replacement : VerifiedReplacement) : SafeDeleteProgram σ Unit := do
  let checked ← checkRemoval backend run action replacement
  removeProved backend run action replacement checked

/-- An action that the executor left in progress is journaled by the driver. -/
def recordUnsettled (error : SafeDeleteError) : LocalProgram σ Unit := do
  let read ← readJournal
  let entries ← .ofExcept (read.mapError .storage)
  if (entries.find? (·.plan.actionId = action.actionId)).any (·.outcome ≠ .inProgress) then
    return ()
  else if isUncertain error then
    let evidence ← observeActionBoundary backend.toSurroundings action
    journal (.recoveryReview action.actionId (safeDeleteReason error) evidence)
  else journal (.unresolved action.actionId (safeDeleteReason error))

def settleSourceRemoval (replacement : VerifiedReplacement) :
    LocalProgram σ ActionDisposition := do
  if ← ask backend.shouldCancel .polledAtRemoval then
    journal (.cancelled action.actionId)
    return .stop
  else
    match ← (settleOne backend run action replacement).attempt with
    | .ok () => return .continue
    | .error error =>
        recordUnsettled backend action error
        return if isUncertain error then .stop else .continue

/-! ## Actions -/

/-- The transfer of an earlier copy is what its source is removed on; without one the source
is verified now. -/
def executeRemoval (replacements : PathMap VerifiedReplacement) :
    LocalProgram σ (ActionDisposition × PathMap VerifiedReplacement) := do
  let left := replacements.erase action.relativePath
  match replacements.get action.relativePath with
  | some replacement =>
      let disposition ← settleSourceRemoval backend run action replacement
      return (disposition, left)
  | none =>
      match ← runTransfer backend run action (run.verificationPaths action) with
      | .ok replacement =>
          let disposition ← settleSourceRemoval backend run action replacement
          return (disposition, left)
      | .error error =>
          let disposition ← recordTransferFailure backend action error
          return (disposition, left)

def executeAction (replacements : PathMap VerifiedReplacement) :
    LocalProgram σ (ActionDisposition × PathMap VerifiedReplacement) := do
  journal (.started action.actionId)
  journal (.progress action.actionId 0)
  match action.kind with
  | .copyToDestination | .overwriteDestination =>
      executeCopy backend run action replacements
  | .removeSourceAfterVerification => executeRemoval backend run action replacements
  | .removeDestination =>
      journal (.deferred action.actionId)
      return (.continue, replacements)

end

section

variable {σ : Type} (backend : LocalBackend σ) (run : LocalRun)

def executeConfirmed : LocalProgram σ Unit := do
  .ofExcept (run.validate.mapError fun error => .invalidRun (error.text backend.debug))
  persistPlan (planRecord backend run) run.plan.actions
  runActions backend.toSurroundings (executeAction backend run) run.plan.actions []

/-- The machine a local run leaves. -/
def runFrom (world : σ) : Except WorkflowError Unit × Machine σ LocalAnswer :=
  executeConfirmed backend run
    (Machine.opened LocalAnswer world run.confirmed.frozenMethod)

end

end LocalWorkflow

end SyncPlus
