import SyncPlus.Plan

/-!
# What an SSH backend answers

A backend transfers an item, or moves a source into the remote recovery
location, and answers with evidence or an error. The driver believes
neither: evidence of a transfer has to name the paths of the request
(`matchesRequest`) and to fit the item of the frozen inventory
(`matchesInventory`), and recovery evidence has to fit the transfer it
follows (`validateRemoteRecovery`).
-/

namespace SyncPlus

/-! ## Errors -/

inductive ProcessError where
  | spawn (reason : String)
  | io (reason : String)
  | processGroup (reason : String)
  | outputReader (reason : String)
  | orphanedProcessGroup
  deriving Repr, DecidableEq

inductive SshTransferBoundary where
  | beforeTransfer
  | temporaryDestination
  | destinationInstalled
  | verificationComplete
  deriving Repr, DecidableEq

inductive SshRecoveryBoundary where
  | beforeRecovery
  | recoveryStarted
  deriving Repr, DecidableEq

def SshTransferBoundary.requiresRecoveryReview : SshTransferBoundary → Bool
  | destinationInstalled | verificationComplete => true
  | _ => false

def SshTransferBoundary.isRetryable : SshTransferBoundary → Bool
  | beforeTransfer | temporaryDestination => true
  | _ => false

inductive SshRunError where
  | precheck (reason : String)
  | remoteUnavailable
  | remoteVerificationUnavailable (boundary : SshTransferBoundary)
  | remoteVerificationMismatch (boundary : SshTransferBoundary)
  | remoteRecoveryUnavailable
  | remoteRecoveryFailed (boundary : SshRecoveryBoundary)
      (evidence : Option RecoveryEvidence)
  | remoteRecoveryAmbiguous (boundary : SshRecoveryBoundary)
      (evidence : Option RecoveryEvidence)
  | disconnected (boundary : SshTransferBoundary)
  | process (boundary : SshTransferBoundary) (error : ProcessError)
  | sourceChanged
  | metadataMismatch
  | cancelled
  | invalidOperation
  deriving DecidableEq

namespace SshRunError

def boundary : SshRunError → SshTransferBoundary
  | remoteVerificationUnavailable boundary
  | remoteVerificationMismatch boundary
  | disconnected boundary
  | process boundary _ => boundary
  | _ => .beforeTransfer

def isRetryable : SshRunError → Bool
  | disconnected boundary | process boundary _ => boundary.isRetryable
  | _ => false

def requiresRecoveryReview (error : SshRunError) : Bool :=
  error.boundary.requiresRecoveryReview ||
    match error with
    | remoteRecoveryUnavailable | remoteRecoveryFailed _ _
    | remoteRecoveryAmbiguous _ _ => true
    | _ => false

def actionReason : SshRunError → ActionReason
  | remoteVerificationUnavailable _ | remoteVerificationMismatch _
  | metadataMismatch => .verificationMismatch
  | remoteRecoveryAmbiguous _ _ => .interruptedBoundary
  | sourceChanged => .sourceChanged
  | cancelled => .cancellationRequested
  | precheck _ | remoteUnavailable | remoteRecoveryUnavailable
  | remoteRecoveryFailed _ _ | disconnected _ | process _ _ => .destinationUnavailable
  | invalidOperation => .transferFailed

/-- The errors that leave an action unresolved rather than failed. -/
def unresolved : SshRunError → Bool
  | remoteVerificationUnavailable _ | remoteVerificationMismatch _ | sourceChanged
  | metadataMismatch => true
  | _ => false

/-- The evidence a recovery error carries. -/
def recoveryEvidence : SshRunError → Option RecoveryEvidence
  | remoteRecoveryFailed _ evidence | remoteRecoveryAmbiguous _ evidence => evidence
  | _ => none

end SshRunError

/-! ## Requests -/

/-- What the driver reads of the request it hands to the backend. The trash
location is the one the precheck permit was issued for. -/
structure SshTransferRequest where
  runId : RunId
  options : ValidatedSyncOptions
  action : PlanAction
  sourcePeer : Peer
  destinationPeer : Peer
  remotePeer : SshPeer
  requireRecovery : Bool
  trashLocation : Option PathBuf
  deriving DecidableEq

namespace SshTransferRequest

def destination (request : SshTransferRequest) : PathBuf :=
  request.destinationPeer.root.join request.action.relativePath

def remoteRecoveryTarget (request : SshTransferRequest) : Option PathBuf :=
  if request.requireRecovery then
    request.trashLocation.map fun root => root.join request.action.relativePath
  else none

def deletionMethod (request : SshTransferRequest) : Option DeletionMethod :=
  request.options.deletionMethod

end SshTransferRequest

/-! ## Evidence of a transfer -/

structure SshMetadataProof where
  itemType : ItemType
  metadata : ItemMetadata
  deriving DecidableEq

/-- The metadata the profile asks for agrees. -/
def MetadataRequirements.agree (requirements : MetadataRequirements)
    (itemType : ItemType) (metadata : ItemMetadata) (itemType' : ItemType)
    (metadata' : ItemMetadata) : Bool :=
  !requirements.specialist.any &&
    (!requirements.fileType || itemType = itemType') &&
    (!requirements.executablePermissions ||
      metadata.executablePermissions = metadata'.executablePermissions) &&
    (!requirements.symlinkTargets ||
      match metadata.symlinkTarget, metadata'.symlinkTarget with
      | some target, some target' => target.same target'
      | none, none => true
      | _, _ => false) &&
    (!requirements.timestamps || metadata.modifiedAt = metadata'.modifiedAt)

def SshMetadataProof.matchesItem (proof : SshMetadataProof) (item : InventoryItem)
    (requirements : MetadataRequirements) : Bool :=
  requirements.agree proof.itemType proof.metadata item.itemType item.metadata

def SshMetadataProof.matchesOther (proof other : SshMetadataProof)
    (requirements : MetadataRequirements) : Bool :=
  requirements.agree proof.itemType proof.metadata other.itemType other.metadata

structure SshTransferEvidence where
  sourcePath : Option PathBuf
  destinationPath : Option PathBuf
  sourceMetadata : Option SshMetadataProof
  destinationMetadata : Option SshMetadataProof
  sourceIdentity : Option FileIdentity
  source : Option ContentProof
  destination : Option ContentProof
  metadataVerified : Bool
  sourceStabilityVerified : Bool
  deriving DecidableEq

namespace SshTransferEvidence

/-- An item that is no regular file has its metadata compared and no more. -/
def matchesInventory (evidence : SshTransferEvidence) (item : InventoryItem)
    (requirements : MetadataRequirements) : Bool :=
  if !evidence.metadataVerified || !evidence.sourceStabilityVerified then false
  else
    match evidence.sourceMetadata, evidence.destinationMetadata with
    | some sourceMetadata, some destinationMetadata =>
        if !sourceMetadata.matchesItem item requirements ||
            !destinationMetadata.matchesOther sourceMetadata requirements then false
        else if item.itemType ≠ .regularFile then true
        else
          match item.contentFingerprint, evidence.source, evidence.destination with
          | some expectedHash, some source, some destination =>
              source.size = item.metadata.size && source.sha256 = expectedHash &&
                (destination.size = source.size && destination.sha256 = source.sha256)
          | _, _, _ => false
    | _, _ => false

def matchesRequest (evidence : SshTransferEvidence) (request : SshTransferRequest) :
    Bool :=
  (match evidence.sourcePath with
    | some path => path.same (request.sourcePeer.root.join request.action.relativePath)
    | none => false) &&
  (match evidence.destinationPath with
    | some path => path.same request.destination
    | none => false)

def sourceSize (evidence : SshTransferEvidence) : Option UInt64 :=
  (evidence.source.map (·.size)).or (evidence.sourceMetadata.map (·.metadata.size))

def destinationSize (evidence : SshTransferEvidence) : Option UInt64 :=
  (evidence.destination.map (·.size)).or
    (evidence.destinationMetadata.map (·.metadata.size))

def recoveryEvidence (evidence : SshTransferEvidence) (observedAtUnixNanos : Int64) :
    Option RecoveryEvidence :=
  if evidence.sourceSize.isNone || evidence.destinationSize.isNone then none
  else some (RecoveryEvidence.new observedAtUnixNanos none true true false
    evidence.sourceSize evidence.destinationSize
    (evidence.source.map (·.sha256)) (evidence.destination.map (·.sha256)))

end SshTransferEvidence

/-! ## Evidence of a recovery -/

/-- The peer a remote provenance has to name. -/
def SshPeer.account (peer : SshPeer) : String :=
  peer.username ++ "@" ++ peer.server ++ ":" ++ toString peer.port

/-- The provenance names the source of the request, and its content where
the transfer has one. -/
def provenanceMatches (request : SshTransferRequest) (transfer : SshTransferEvidence)
    (sourceMetadata : SshMetadataProof) (sourceIdentity : FileIdentity)
    (provenance : RecoveryProvenance) : Bool :=
  provenance.peer = request.remotePeer.account &&
    provenance.originalRoot.same request.remotePeer.remotePath &&
    provenance.relativePath.same request.action.relativePath &&
    provenance.runId = request.runId &&
    provenance.itemType = sourceMetadata.itemType &&
    provenance.sourceIdentity = some sourceIdentity &&
    provenance.content = transfer.source

/-- The recovery target is apart from the source, above and below. -/
def targetApart (target source : PathBuf) : Bool :=
  !(target.same source || target.startsWith source || source.startsWith target)

def validateRemoteRecovery (request : SshTransferRequest)
    (transfer : SshTransferEvidence) (recovery : RecoveryEvidence) : Bool :=
  match request.remoteRecoveryTarget, transfer.recoveryEvidence 0, transfer.source,
    transfer.sourceIdentity, recovery.provenance, transfer.sourceMetadata with
  | some expectedTarget, some expectedTransfer, some source, some sourceIdentity,
    some provenance, some sourceMetadata =>
      transfer.sourceStabilityVerified &&
        targetApart expectedTarget
          (request.remotePeer.remotePath.join request.action.relativePath) &&
        !recovery.sourcePresent && recovery.destinationPresent &&
        recovery.recoveryPresent &&
        (match recovery.recoveryTarget with
          | some target => target.same expectedTarget
          | none => false) &&
        recovery.sourceSize = expectedTransfer.sourceSize &&
        recovery.destinationSize = expectedTransfer.destinationSize &&
        recovery.sourceSha256 = expectedTransfer.sourceSha256 &&
        recovery.destinationSha256 = expectedTransfer.destinationSha256 &&
        recovery.recoverySize = some source.size &&
        recovery.recoverySha256 = some source.sha256 &&
        provenanceMatches request transfer sourceMetadata sourceIdentity provenance
  | _, _, _, _, _, _ => false

end SyncPlus
