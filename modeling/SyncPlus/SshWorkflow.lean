import SyncPlus.Machine
import SyncPlus.SshTransfer

/-!
# The SSH driver

`execute_ssh_confirmed`: the plan is journaled from the frozen
inventories, the actions are executed one after another, and each one's
source is removed only through the backend's `recoverSource`. The run
ends with the reconciliation, which offers no event and is not part of
the driver here.
-/

namespace SyncPlus

/-! ## The backend and its answers -/

structure SshBackend (σ : Type) extends Surroundings σ where
  /-- The progress reported on the way, and the result. -/
  transfer : SshTransferRequest → σ →
    (List UInt64 × Except SshRunError SshTransferEvidence) × σ
  recoverSource : SshTransferRequest → SshTransferEvidence → σ →
    Except SshRunError RecoveryEvidence × σ

inductive SshAnswer where
  | transferred (request : SshTransferRequest)
      (result : Except SshRunError SshTransferEvidence)
  | polledAtBoundary (cancel : Bool)
  | recovered (request : SshTransferRequest) (transfer : SshTransferEvidence)
      (result : Except SshRunError RecoveryEvidence)
  deriving DecidableEq

inductive SshTransferExecutionError where
  | remote (error : SshRunError)
  | journal (error : StorageError)

/-- What an SSH run is given: the confirmed plan with its profile, whether
unattended permanent removal is authorized, and what the precheck permit
says of the remote Trash. -/
structure SshRun where
  runId : RunId
  confirmed : ConfirmedPlan
  allowUnattendedPermanentRemoval : Bool
  requireRecovery : Bool
  trashLocation : Option PathBuf

abbrev SshProgram (σ : Type) := Program (Machine σ SshAnswer) WorkflowError

/-! ## Planning -/

def sshItem (message : String) (plan : OneWayPlan) (action : PlanAction) :
    Except WorkflowError InventoryItem :=
  orError ((plan.inventory action).item action.relativePath) (.invalidRun message)

def sshSourceItem : OneWayPlan → PlanAction → Except WorkflowError InventoryItem :=
  sshItem "SSH action is outside the frozen source inventory"

def sshPlanRecord (plan : OneWayPlan) (action : PlanAction) :
    Except WorkflowError PlanRecord := do
  let item ← sshItem "SSH action is outside the frozen inventory" plan action
  return {
    actionId := action.actionId
    relativePath := action.relativePath
    operation := action.kind
    affectedSide := action.sourceSide
    plannedBytes := action.size
    preAction := {
      itemType := item.itemType
      size := item.metadata.size
      modifiedAtUnixNanos := unixNanos item.metadata.modifiedAt
      identity := none
      sha256 := item.contentFingerprint } }

section

variable {σ : Type}

/-! ## Transfers -/

/-- One attempt; `retry` is what follows a retryable failure while attempts
are left. -/
def attemptTransfer (backend : SshBackend σ) (request : SshTransferRequest)
    (retry : Option (SshProgram σ (Except SshTransferExecutionError SshTransferEvidence))) :
    SshProgram σ (Except SshTransferExecutionError SshTransferEvidence) := do
  if ← poll backend.toSurroundings then return .error (.remote .cancelled)
  else
    let (progress, result) ← inquire (backend.transfer request)
    let reported ← reportProgress request.action.actionId progress
    record (.transferred request result)
    match reported, result with
    | .error error, _ => return .error (.journal error)
    | .ok (), .ok evidence => return .ok evidence
    | .ok (), .error error =>
        match retry with
        | some retry => if error.isRetryable then retry else return .error (.remote error)
        | none => return .error (.remote error)

/-- `run_ssh_transfer`, with the retries that are left after the attempt. -/
def runSshTransfer (backend : SshBackend σ) (request : SshTransferRequest) :
    Nat → SshProgram σ (Except SshTransferExecutionError SshTransferEvidence)
  | 0 => attemptTransfer backend request none
  | retries + 1 => attemptTransfer backend request (some do
      if ← inquire backend.sleepInterruptibly then runSshTransfer backend request retries
      else return .error (.remote .cancelled))

def recordSshFailure (backend : SshBackend σ) (action : PlanAction) (error : SshRunError) :
    SshProgram σ ActionDisposition := do
  if error = .cancelled then
    journal (.cancelled action.actionId)
    return .stop
  else if error.requiresRecoveryReview then
    let now ← inquire backend.currentUnixNanos
    let evidence := error.recoveryEvidence.getD
      (RecoveryEvidence.new now none false false false none none none none)
    journal (.recoveryReview action.actionId error.actionReason evidence)
    return .stop
  else if error.unresolved then
    journal (.unresolved action.actionId error.actionReason)
    return .continue
  else
    journal (.failed action.actionId error.actionReason)
    return .continue

def recordTransferFailure (backend : SshBackend σ) (action : PlanAction) :
    SshTransferExecutionError → SshProgram σ ActionDisposition
  | .journal error => recordJournalFailure backend.toSurroundings action (.storage error)
  | .remote error => recordSshFailure backend action error

/-- The evidence fits the request and the frozen item. -/
def verified (plan : OneWayPlan) (request : SshTransferRequest) (item : InventoryItem)
    (evidence : SshTransferEvidence) : Bool :=
  evidence.matchesRequest request &&
    evidence.matchesInventory item plan.options.metadata

/-- Journal the verified transfer, and return its evidence as journaled. -/
def journalVerified (backend : SshBackend σ) (action : PlanAction)
    (evidence : SshTransferEvidence) (missing : String) :
    SshProgram σ RecoveryEvidence := do
  let now ← inquire backend.currentUnixNanos
  match evidence.recoveryEvidence now with
  | none => recordJournalFailure backend.toSurroundings action (.invalidRun missing)
  | some proof =>
      journalOrReview backend.toSurroundings action
        (.transferVerified action.actionId proof evidence.metadataVerified)
      return proof

/-- Evidence that does not fit leaves the action unresolved. -/
def leaveUnverified (backend : SshBackend σ) (action : PlanAction)
    (transfers : PathMap SshTransferEvidence) :
    SshProgram σ (ActionDisposition × PathMap SshTransferEvidence) := do
  journalOrReview backend.toSurroundings action
    (.unresolved action.actionId .verificationMismatch)
  return (.continue, transfers)

def sshCopy (backend : SshBackend σ) (plan : OneWayPlan) (request : SshTransferRequest)
    (transfers : PathMap SshTransferEvidence) :
    SshProgram σ (ActionDisposition × PathMap SshTransferEvidence) := do
  let action := request.action
  match ← runSshTransfer backend request plan.options.retryPolicy.retries with
  | .error error =>
      let disposition ← recordTransferFailure backend action error
      return (disposition, transfers)
  | .ok evidence =>
      let item ← .ofExcept (sshSourceItem plan action)
      if verified plan request item evidence then
        let _ ← journalVerified backend action evidence
          "a verified SSH transfer has no metadata or content evidence"
        journalOrReview backend.toSurroundings action (.completed action.actionId)
        return (.continue, transfers.insert action.relativePath evidence)
      else leaveUnverified backend action transfers

/-! ## Removals -/

/-- The removal proper, once the backend has been told to recover. -/
def settleRecovery (backend : SshBackend σ) (request : SshTransferRequest)
    (evidence : SshTransferEvidence) :
    Except SshRunError RecoveryEvidence → SshProgram σ ActionDisposition
  | .ok recovery =>
      if validateRemoteRecovery request evidence recovery then do
        journalOrReview backend.toSurroundings request.action
          (.removalCompleted request.action.actionId
            { deletionMethod := .trash, evidence := recovery })
        return .continue
      else
        recordSshFailure backend request.action
          (.remoteRecoveryAmbiguous .recoveryStarted (some recovery))
  | .error error => recordSshFailure backend request.action error

/-- From the verified transfer on: the proof boundary, the last poll, and the
recovery of the source. -/
def removeVerified (backend : SshBackend σ) (request : SshTransferRequest)
    (evidence : SshTransferEvidence) : SshProgram σ ActionDisposition := do
  let action := request.action
  let proof ← journalVerified backend action evidence
    "a verified SSH removal has no source or destination evidence"
  if request.deletionMethod ≠ some .trash then
    journal (.unresolved action.actionId .destinationUnavailable)
    return .continue
  else if request.remoteRecoveryTarget.isNone then
    recordSshFailure backend action .remoteRecoveryUnavailable
  else
    journalOrReview backend.toSurroundings action
      (.proofBoundary action.actionId .trash proof evidence.metadataVerified)
    if ← ask backend.shouldCancel .polledAtBoundary then
      journal (.cancelled action.actionId)
      return .stop
    else
      journal (.removalStarted action.actionId .trash)
      let result ← ask (backend.recoverSource request evidence) (.recovered request evidence)
      settleRecovery backend request evidence result

/-- The evidence of the copy of this run, or of a transfer made now. -/
def sshTransferFor (backend : SshBackend σ) (plan : OneWayPlan)
    (request : SshTransferRequest) (transfers : PathMap SshTransferEvidence) :
    SshProgram σ (Except SshTransferExecutionError SshTransferEvidence) :=
  match transfers.get request.action.relativePath with
  | some evidence => return .ok evidence
  | none => runSshTransfer backend request plan.options.retryPolicy.retries

def sshRemove (backend : SshBackend σ) (plan : OneWayPlan) (request : SshTransferRequest)
    (transfers : PathMap SshTransferEvidence) :
    SshProgram σ (ActionDisposition × PathMap SshTransferEvidence) := do
  let action := request.action
  let left := transfers.erase action.relativePath
  match ← sshTransferFor backend plan request transfers with
  | .error error =>
      let disposition ← recordTransferFailure backend action error
      return (disposition, left)
  | .ok evidence =>
      let item ← .ofExcept (sshSourceItem plan action)
      if verified plan request item evidence then
        let disposition ← removeVerified backend request evidence
        return (disposition, left)
      else leaveUnverified backend action left

/-! ## Actions -/

def SshRun.request (run : SshRun) (action : PlanAction) (remotePeer : SshPeer) :
    SshTransferRequest where
  runId := run.runId
  options := run.confirmed.plan.options
  action
  sourcePeer := peerForSide run.confirmed.profile action.sourceSide
  destinationPeer := peerForSide run.confirmed.profile action.sourceSide.opposite
  remotePeer
  requireRecovery := run.requireRecovery
  trashLocation := run.trashLocation

/-- Destinations are never removed over SSH, and local sources only by the
local driver. -/
def SshRun.defers (run : SshRun) (action : PlanAction) : Bool :=
  match action.kind with
  | .removeDestination => true
  | .removeSourceAfterVerification =>
      !(peerForSide run.confirmed.profile action.sourceSide).isSsh
  | _ => false

def executeSshAction (backend : SshBackend σ) (run : SshRun) (action : PlanAction)
    (transfers : PathMap SshTransferEvidence) :
    SshProgram σ (ActionDisposition × PathMap SshTransferEvidence) := do
  journal (.started action.actionId)
  journal (.progress action.actionId 0)
  if run.defers action then
    journal (.deferred action.actionId)
    return (.continue, transfers)
  else
    let sourcePeer := peerForSide run.confirmed.profile action.sourceSide
    let destinationPeer := peerForSide run.confirmed.profile action.sourceSide.opposite
    let remotePeer ← .ofExcept (orError (sourcePeer.sshPeer.or destinationPeer.sshPeer)
      (.invalidRun "SSH action has no remote endpoint"))
    let request := run.request action remotePeer
    if action.kind = .removeSourceAfterVerification then
      sshRemove backend run.confirmed.plan request transfers
    else sshCopy backend run.confirmed.plan request transfers

def executeSshConfirmed (backend : SshBackend σ) (run : SshRun) : SshProgram σ Unit := do
  let plan := run.confirmed.plan
  if plan.options.deletionMethod = some .permanentRemoval ∧
      run.allowUnattendedPermanentRemoval = false then
    .fail (.invalidRun "SSH Permanent Removal requires separate explicit authorization")
  else
    persistPlan (fun action => .ofExcept (sshPlanRecord plan action)) plan.actions
    runActions backend.toSurroundings (executeSshAction backend run) plan.actions []

/-- The machine an SSH run leaves. -/
def sshRunFrom (backend : SshBackend σ) (run : SshRun) (world : σ) :
    Except WorkflowError Unit × Machine σ SshAnswer :=
  executeSshConfirmed backend run
    (Machine.opened SshAnswer world run.confirmed.frozenMethod)

end

end SyncPlus
