import Mathlib.Data.Vector.Defs
import SyncPlus.Lib.Checks
import SyncPlus.Path

/-!
# Run evidence

The values an action's history is written in: the plan record with the
state its item was in before the action, the evidence gathered at each
boundary, the events of the journal and the entry a journal is read
back as.

Two of these can only be built by checked constructors, and carry what
the constructors check. A recovery provenance names a normalized
relative path, an absolute root and a peer on one line; evidence has a
hash of the recovered item only together with its size.
-/

namespace SyncPlus

/-! ## Scalars and enumerations -/

abbrev ActionId := UInt64

abbrev Blob := List UInt8

/-- A SHA-256 digest: `[u8; 32]`. -/
abbrev Sha256 := List.Vector UInt8 32

def Sha256.ofByte (byte : UInt8) : Sha256 := ⟨List.replicate 32 byte, List.length_replicate⟩

structure RunId where
  value : UInt64
  deriving Repr, DecidableEq

structure SyncProfileId where
  value : UInt64
  deriving Repr, DecidableEq

inductive ItemType where
  | regularFile
  | directory
  | symlink
  | unsupported
  deriving Repr, DecidableEq

inductive PlanActionKind where
  | copyToDestination
  | overwriteDestination
  | removeDestination
  | removeSourceAfterVerification
  deriving Repr, DecidableEq

inductive PeerSide where
  | peerA
  | peerB
  deriving Repr, DecidableEq

inductive DeletionMethod where
  | trash
  | permanentRemoval
  deriving Repr, DecidableEq

inductive ActionReason where
  | transferFailed
  | verificationMismatch
  | sourceChanged
  | permissionDenied
  | cancellationRequested
  | deferredForReview
  | filesystemUncertain
  | interruptedBoundary
  | destinationUnavailable
  deriving Repr, DecidableEq

inductive RecoveryVerificationState where
  | verified
  | reviewRequired
  | unverified
  deriving Repr, DecidableEq

/-! ## Errors -/

inductive RestoreError where
  | invalidProvenance (reason : String)
  | sidecarInvalid (reason : String)
  | io (reason : String)
  deriving Repr, DecidableEq

def RestoreError.text : RestoreError → String
  | invalidProvenance reason => "invalid recovery provenance: " ++ reason
  | sidecarInvalid reason => "invalid recovery sidecar: " ++ reason
  | io reason => "restore filesystem error: " ++ reason

/-- The failures of the database and its binding that the store can meet. -/
inductive SqliteError where
  | toSqlConversionFailure (value : UInt64)
  | integralValueOutOfRange (column : Nat) (value : Int64)
  | invalidColumnType (column : Nat)
  | queryReturnedNoRows
  | constraintViolation
  | full
  | busy
  deriving Repr, DecidableEq

/-- What the checks of a profile refuse. -/
inductive ProcessSpecError where
  | invalidOptionCombination (reason : String)
  | emptyPeerPath (peer : String)
  | nulInPeerPath (peer : String)
  | invalidExclusionPattern (reason : String)
  | unsupportedSshTopology
  | invalidRetryPolicy (maxAttempts : UInt8)
  | invalidRetryDelay (milliseconds : Nat)
  | invalidBandwidthLimit (kibibytesPerSecond : UInt64)
  | deletionMethodRequired
  deriving Repr, DecidableEq

inductive RunReportStatus where
  | inProgress
  | completed
  | failed
  | cancelled
  | interrupted
  | blocked
  | recoveryReview
  | completedWithReviewRequired
  | reviewCleared
  deriving Repr, DecidableEq

inductive StorageError where
  | sqlite (error : SqliteError)
  | invalidSnapshot (reason : String)
  | invalidEvent (reason : String)
  | corruptEvidence (reason : String)
  | reportNotFound (runId : RunId)
  | reportActionNotAllowed (runId : RunId) (action : String) (status : RunReportStatus)
  | invalidProfile (error : ProcessSpecError)
  | invalidProfileName
  | invalidPeerName
  | invalidAuthorization (reason : String)
  | invalidSchedule (reason : String)
  | scheduleRequiresAdvanced
  | duplicateEndpointPair
  | profileNotFound (id : SyncProfileId)
  | concurrentProfileUpdate
  deriving Repr, DecidableEq

/-! ## Recovery provenance -/

structure FileIdentity where
  device : UInt64
  inode : UInt64
  deriving Repr, DecidableEq

structure ContentProof where
  size : UInt64
  sha256 : Sha256
  deriving DecidableEq

def ValidRelativePath (path : PathBuf) : Prop :=
  path.isEmpty = false ∧ path.isAbsolute = false ∧
    ∀ c ∈ path.components, c.isNormal = true

instance (path : PathBuf) : Decidable (ValidRelativePath path) :=
  inferInstanceAs (Decidable (_ ∧ _ ∧ _))

def ValidOriginalRoot (path : PathBuf) : Prop :=
  path.isEmpty = false ∧ path.isAbsolute = true

instance (path : PathBuf) : Decidable (ValidOriginalRoot path) :=
  inferInstanceAs (Decidable (_ ∧ _))

/-- The characters `str::trim` removes: Unicode `White_Space`. -/
def isWhiteSpace (c : Char) : Bool :=
  (9 ≤ c.toNat ∧ c.toNat ≤ 13) ∨ c.toNat = 0x20 ∨ c.toNat = 0x85 ∨
    c.toNat = 0xA0 ∨ c.toNat = 0x1680 ∨ (0x2000 ≤ c.toNat ∧ c.toNat ≤ 0x200A) ∨
    c.toNat = 0x2028 ∨ c.toNat = 0x2029 ∨ c.toNat = 0x202F ∨ c.toNat = 0x205F ∨
    c.toNat = 0x3000

def ValidPeer (peer : String) : Prop :=
  peer.toList.all isWhiteSpace = false ∧
    ∀ c ∈ peer.toList, ¬ (c = '\n' ∨ c = '\r')

instance (peer : String) : Decidable (ValidPeer peer) :=
  @instDecidableAnd _ _ inferInstance (List.decidableBAll _ _)

/-- Where a recovered item came from. The last three fields are what
every constructor of the type checks. -/
structure RecoveryProvenance where
  actionId : Option ActionId
  peer : String
  originalRoot : PathBuf
  relativePath : PathBuf
  runId : RunId
  removedAtUnixNanos : Int64
  recoveryMethod : DeletionMethod
  verificationState : RecoveryVerificationState
  itemType : ItemType
  content : Option ContentProof
  sourceIdentity : Option FileIdentity
  symlinkTarget : Option PathBuf
  relative_valid : ValidRelativePath relativePath
  root_valid : ValidOriginalRoot originalRoot
  peer_valid : ValidPeer peer
  deriving DecidableEq

/-- Rebuild a provenance from a stored record. -/
def RecoveryProvenance.fromRecordWithDetails (actionId : Option ActionId)
    (peer : String) (originalRoot relativePath : PathBuf) (runId : RunId)
    (removedAtUnixNanos : Int64) (recoveryMethod : DeletionMethod)
    (verificationState : RecoveryVerificationState) (itemType : ItemType)
    (content : Option ContentProof) (sourceIdentity : Option FileIdentity)
    (symlinkTarget : Option PathBuf) : Except RestoreError RecoveryProvenance :=
  if relative_valid : ValidRelativePath relativePath then
    if root_valid : ValidOriginalRoot originalRoot then
      if peer_valid : ValidPeer peer then
        .ok { actionId, peer, originalRoot, relativePath, runId,
              removedAtUnixNanos, recoveryMethod, verificationState, itemType,
              content, sourceIdentity, symlinkTarget,
              relative_valid, root_valid, peer_valid }
      else .error (.invalidProvenance "recovery peer is missing or malformed")
    else .error (.invalidProvenance "original peer root must be an absolute path")
  else
    .error (.invalidProvenance
      "original path must be a non-empty normalized relative path")

/-- What the fields of a provenance are rebuilt to. -/
theorem fromRecordWithDetails_self (p : RecoveryProvenance) :
    RecoveryProvenance.fromRecordWithDetails p.actionId p.peer p.originalRoot
      p.relativePath p.runId p.removedAtUnixNanos p.recoveryMethod p.verificationState
      p.itemType p.content p.sourceIdentity p.symlinkTarget = .ok p := by
  simp [RecoveryProvenance.fromRecordWithDetails, p.relative_valid, p.root_valid,
    p.peer_valid]

/-! ## Evidence -/

structure PreActionState where
  itemType : ItemType
  size : UInt64
  modifiedAtUnixNanos : Option Int64
  identity : Option FileIdentity
  sha256 : Option Sha256
  deriving DecidableEq

/-- What was observed at a boundary. The recovered item's hash is only
ever set together with its size. -/
structure RecoveryEvidence where
  observedAtUnixNanos : Int64
  recoveryTarget : Option PathBuf
  sourcePresent : Bool
  destinationPresent : Bool
  recoveryPresent : Bool
  sourceSize : Option UInt64
  destinationSize : Option UInt64
  sourceSha256 : Option Sha256
  destinationSha256 : Option Sha256
  recoverySize : Option UInt64
  recoverySha256 : Option Sha256
  provenance : Option RecoveryProvenance
  sized : recoverySize = none → recoverySha256 = none
  deriving DecidableEq

namespace RecoveryEvidence

def new (observedAtUnixNanos : Int64) (recoveryTarget : Option PathBuf)
    (sourcePresent destinationPresent recoveryPresent : Bool)
    (sourceSize destinationSize : Option UInt64)
    (sourceSha256 destinationSha256 : Option Sha256) : RecoveryEvidence :=
  { observedAtUnixNanos, recoveryTarget, sourcePresent, destinationPresent,
    recoveryPresent, sourceSize, destinationSize, sourceSha256,
    destinationSha256
    recoverySize := none
    recoverySha256 := none
    provenance := none
    sized := fun _ => rfl }

def withProvenance (e : RecoveryEvidence) (provenance : RecoveryProvenance) :
    RecoveryEvidence :=
  { e with provenance := some provenance }

def withRecoveryProof (e : RecoveryEvidence) (size : UInt64)
    (sha256 : Option Sha256) : RecoveryEvidence :=
  { e with recoverySize := some size, recoverySha256 := sha256, sized := nofun }

def isNewerThan (e earlier : RecoveryEvidence) : Bool :=
  e.observedAtUnixNanos > earlier.observedAtUnixNanos

end RecoveryEvidence

structure PlanRecord where
  actionId : ActionId
  relativePath : PathBuf
  operation : PlanActionKind
  affectedSide : PeerSide
  plannedBytes : Option UInt64
  preAction : PreActionState
  deriving DecidableEq

inductive RecoveryResolution where
  | completed (evidence : RecoveryEvidence)
  | unresolved (reason : ActionReason)
  deriving DecidableEq

structure RemovalResult where
  deletionMethod : DeletionMethod
  evidence : RecoveryEvidence
  deriving DecidableEq

/-! ## Journal events and entries -/

inductive JournalEvent where
  | planned (action : PlanRecord)
  | started (actionId : ActionId)
  | progress (actionId : ActionId) (completedBytes : UInt64)
  | transferVerified (actionId : ActionId) (evidence : RecoveryEvidence)
      (metadataVerified : Bool)
  | proofBoundary (actionId : ActionId) (deletionMethod : DeletionMethod)
      (evidence : RecoveryEvidence) (metadataVerified : Bool)
  | removalStarted (actionId : ActionId) (deletionMethod : DeletionMethod)
  | removalCompleted (actionId : ActionId) (result : RemovalResult)
  | completed (actionId : ActionId)
  | failed (actionId : ActionId) (reason : ActionReason)
  | cancelled (actionId : ActionId)
  | interrupted (actionId : ActionId)
  | deferred (actionId : ActionId)
  | unresolved (actionId : ActionId) (reason : ActionReason)
  | recoveryReview (actionId : ActionId) (reason : ActionReason)
      (evidence : RecoveryEvidence)
  | recoveryResolved (actionId : ActionId) (resolution : RecoveryResolution)
  deriving DecidableEq

/-- The action an event belongs to. -/
def eventActionId : JournalEvent → ActionId
  | .planned action => action.actionId
  | .started actionId
  | .progress actionId _
  | .transferVerified actionId _ _
  | .proofBoundary actionId _ _ _
  | .removalStarted actionId _
  | .removalCompleted actionId _
  | .completed actionId
  | .failed actionId _
  | .cancelled actionId
  | .interrupted actionId
  | .deferred actionId
  | .unresolved actionId _
  | .recoveryReview actionId _ _
  | .recoveryResolved actionId _ => actionId

/-- The phase an event puts its action in. -/
def eventPhase : JournalEvent → String
  | .planned _ => "planned"
  | .started _ => "started"
  | .progress _ _ => "progress"
  | .transferVerified _ _ _ => "transfer_verified"
  | .proofBoundary _ _ _ _ => "proof_boundary"
  | .removalStarted _ _ => "removal_started"
  | .removalCompleted _ _ => "removal_completed"
  | .completed _ => "completed"
  | .failed _ _ => "failed"
  | .cancelled _ => "cancelled"
  | .interrupted _ => "interrupted"
  | .deferred _ => "deferred"
  | .unresolved _ _ => "unresolved"
  | .recoveryReview _ _ _ => "recovery_review"
  | .recoveryResolved _ _ => "recovery_resolved"

inductive ActionOutcome where
  | inProgress
  | completed
  | failed (reason : ActionReason)
  | cancelled
  | interrupted
  | deferred
  | unresolved (reason : ActionReason)
  | recoveryReview (reason : ActionReason)
  deriving Repr, DecidableEq

structure ActionJournalEntry where
  plan : PlanRecord
  lastPhase : String
  started : Bool
  progressBytes : List UInt64
  outcome : ActionOutcome
  transferEvidence : Option RecoveryEvidence
  proofBoundary : Option RecoveryEvidence
  removalResult : Option RemovalResult
  recoveryEvidence : Option RecoveryEvidence
  recoveryResolutionEvidence : Option RecoveryEvidence
  deriving DecidableEq

end SyncPlus
