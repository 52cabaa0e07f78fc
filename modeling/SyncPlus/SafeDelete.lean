import SyncPlus.ArtifactNames
import SyncPlus.RecoveryPaths

/-!
# The removal of a source

`SafeDeleteExecutor::perform_removal`: a hard link beside the source, its guard, keeps the
item while the source is moved to its recovery target, copied there and unlinked, or
unlinked without recovery.

The file system is the environment: each call succeeds or fails as its answer says, a write
that fails may have written a part, and the log notes the guards that are made. The two
roots are canonical. A reason ends where the source appends the text of another error.
-/

namespace SyncPlus

open Procedure

/-! ## Errors, answers and events -/

/-- `SafeDeleteError`, of the errors that a removal can end in. -/
inductive RemovalError where
  | invalidAction (reason : String)
  | verification (error : ItemProofError)
  | recoveryUnavailable (reason : String)
  | recoveryUncertain (reason : String)
  | io (kind : IoErrorKind)
  deriving DecidableEq

def RemovalError.isUncertain : RemovalError → Bool
  | recoveryUncertain _ => true
  | _ => false

structure RemovalAnswer where
  /-- The next number of a count. -/
  sequence : UInt64
  /-- What a path is without links. -/
  canonical : AbsolutePath
  /-- Whether a link leads to an item. -/
  leads : Bool
  /-- A new file or directory, whatever its content. -/
  created : FileItem
  /-- What a write that fails has written. -/
  written : FileBytes
  /-- The free space, when it is a number of 64 bits. -/
  available : Option UInt64

inductive RemovalEvent where
  | guarded (path : AbsolutePath)
  deriving DecidableEq

abbrev RemovalDisk := ItemDisk AbsolutePath RemovalEvent

abbrev RemovalCall (φ α : Type) := ItemCall AbsolutePath RemovalEvent Unit RemovalAnswer φ α

abbrev Removal (α : Type) := RemovalCall RemovalError α

/-- What `perform_removal` returns: the target that the evidence of its result records, and
the guard that is left. -/
structure RemovalAttempt where
  deletionMethod : DeletionMethod
  recoveryTarget : Option AbsolutePath
  sourceGuard : AbsolutePath
  deriving DecidableEq

namespace SafeDelete

/-! ## Calls -/

def fail {α : Type} (error : RemovalError) : Removal α := Procedure.ofExcept (.error error)

/-- A call that changes no item: `canonicalize`, a lock, a sync, the end of a descriptor. -/
def touch : RemovalCall IoErrorKind Unit := ItemCall.fsCall () fun _ disk => .ok ((), disk)

def nextSequence : Removal UInt64 :=
  .call () fun answer disk => (.ok answer.extra.sequence, disk)

/-- `Path::exists`, which follows links. -/
def pathExists (path : AbsolutePath) : Removal Bool :=
  .call () fun answer disk =>
    (.ok (!answer.fails && (disk.files path).any fun item =>
      item.itemType ≠ .symlink || answer.extra.leads), disk)

def createNew (path : AbsolutePath) : RemovalCall IoErrorKind Unit :=
  ItemCall.fsCall () fun answer disk =>
    match disk.files path with
    | some _ => .error .alreadyExists
    | none =>
        .ok ((), disk.set path
          (some { answer.extra.created with content := .file .empty }))

def makeDirectory (path : AbsolutePath) : RemovalCall IoErrorKind Unit :=
  ItemCall.fsCall () fun answer disk =>
    match disk.files path with
    | some _ => .error .alreadyExists
    | none => .ok ((), disk.set path (some { answer.extra.created with content := .directory [] 0 }))

/-- What is done to an open file. -/
def changeFile (path : AbsolutePath) (change : FileItem → FileItem) :
    RemovalCall IoErrorKind Unit :=
  ItemCall.fsCall () fun _ disk => .ok ((), disk.set path ((disk.files path).map change))

/-- Write to a file that is open and empty. -/
def writeBytes (path : AbsolutePath) (bytes : FileBytes) : RemovalCall IoErrorKind Unit :=
  .call () fun answer disk =>
    let write := fun bytes => disk.set path ((disk.files path).map fun item =>
      { item with content := .file bytes, modified := answer.extra.created.modified })
    if answer.fails then (.error .other, write answer.extra.written)
    else (.ok (), write bytes)

/-- `linkat` of a file or a link. -/
def linkFile (events : List RemovalEvent) (original link : AbsolutePath) :
    RemovalCall IoErrorKind Unit :=
  ItemCall.fsCall () fun _ disk =>
    match disk.files original, disk.files link with
    | some item, none => .ok ((), (disk.set link (some item)).note events)
    | some _, some _ => .error .alreadyExists
    | none, _ => .error .notFound

/-- `rename_at_noreplace`. -/
def renameNoReplace (source target : AbsolutePath) : RemovalCall IoErrorKind Unit :=
  ItemCall.fsCall () fun _ disk =>
    match disk.files source, disk.files target with
    | some item, none => .ok ((), (disk.set source none).set target (some item))
    | some _, some _ => .error .alreadyExists
    | none, _ => .error .notFound

def unlink (path : AbsolutePath) : RemovalCall IoErrorKind Unit :=
  ItemCall.fsCall () fun _ disk =>
    match disk.files path with
    | some item => if item.itemType = .directory then .error .other else .ok ((), disk.set path none)
    | none => .error .notFound

/-- What it returns does not matter. -/
def ignoring {φ α : Type} (p : RemovalCall φ α) : Removal Unit := do
  let _ ← (p.attempt : Removal (Except φ α))
  return ()

/-- What fails is handled. -/
def orElse {α : Type} (p : Removal α) (handler : RemovalError → Removal α) : Removal α := do
  match ← p.attempt with
  | .ok a => return a
  | .error error => handler error

/-! ## Directories -/

/-- `canonical_directory`, of a path without links. -/
def canonicalDirectory (path : AbsolutePath) (label : String) : Removal Unit := do
  let item ← (ItemCall.symlinkMetadata () path).mapError fun _ =>
    .recoveryUnavailable (label ++ " is unavailable")
  Procedure.ofExcept (ensure (item.itemType = .directory)
    (.recoveryUnavailable (label ++ " must be a non-symlink directory")))
  touch.mapError .io

def openDirectory (path : AbsolutePath) : Removal Unit := do
  let expected ← (ItemCall.symlinkMetadata () path).mapError .io
  Procedure.ofExcept (ensure (expected.itemType = .directory)
    (.recoveryUnavailable "a recovery root was replaced with a non-directory"))
  touch.mapError .io
  let status ← (ItemCall.symlinkMetadata () path).mapError .io
  Procedure.ofExcept (ensure (status.identity = expected.identity)
    (.recoveryUnavailable "a recovery root changed during safety validation"))

/-- `openat` of a directory that is no link. -/
def openAt (path : AbsolutePath) : RemovalCall IoErrorKind Unit :=
  ItemCall.fsCall () fun _ disk =>
    match disk.files path with
    | some item => if item.itemType = .directory then .ok ((), disk) else .error .other
    | none => .error .notFound

/-- The directories below a root, from the root down. -/
def directoriesBelow (root : AbsolutePath) (directory : RelativePath) : List AbsolutePath :=
  directory.inits.tail.map (root ++ ·)

def openEach : List AbsolutePath → Removal Unit
  | [] => return ()
  | path :: rest => do
      (openAt path).mapError .io
      openEach rest

def openRelativeParent (root : AbsolutePath) (directory : RelativePath) : Removal Unit := do
  openDirectory root
  openEach (directoriesBelow root directory)

def openOrCreateEach : List AbsolutePath → Removal Unit
  | [] => return ()
  | path :: rest => do
      match ← (openAt path).attempt with
      | .ok () => openOrCreateEach rest
      | .error .notFound => do
          match ← (makeDirectory path).attempt with
          | .ok () | .error .alreadyExists => do
              (openAt path).mapError .io
              openOrCreateEach rest
          | .error kind => fail (.io kind)
      | .error kind => fail (.io kind)

def openOrCreateRelativeParent (root : AbsolutePath) (directory : RelativePath) :
    Removal Unit := do
  openDirectory root
  openOrCreateEach (directoriesBelow root directory)

/-- `fs::create_dir_all`: what is missing is made, from the top down. -/
def createDirAll : List AbsolutePath → Removal Unit
  | [] => return ()
  | path :: rest => do
      let present ← pathExists path
      if present then createDirAll rest
      else do
        (makeDirectory path).mapError .io
        createDirAll rest

/-! ## Proofs of the source and of what was recovered -/

def matchesOpenFileMetadata (proof : FileMetadataProof) (item : FileItem) : Bool :=
  proof.itemType = .regularFile && item.itemType = .regularFile && proof.size = item.size &&
    proof.modifiedAtUnixNanos = item.modifiedAtUnixNanos &&
    proof.identity = some item.identity && proof.permissions = some item.mode

def matchesOpenTransferMetadata (proof : FileMetadataProof) (requirements : MetadataRequirements)
    (item : FileItem) : Bool :=
  if requirements.specialist.any then false
  else
    (!requirements.fileType ||
        (proof.itemType = .regularFile && item.itemType = .regularFile)) &&
      (!requirements.executablePermissions ||
        proof.executablePermissions = some (item.mode &&& 0o111)) &&
      (!requirements.timestamps || proof.modifiedAtUnixNanos = item.modifiedAtUnixNanos)

section

variable (sha256 : List UInt8 → Sha256) (proof : VerifiedTransferProof)

/-- The content of a file that is open. `ContentProof::from_reader`. -/
def contentFromReader (path : AbsolutePath) : Removal ContentProof := do
  let bytes ← (readToEnd () false path).mapError .verification
  return .ofBytes sha256 bytes

/-- `matches`, of the content that was proved. A regular file always has one. -/
def contentMatches (content : ContentProof) : Bool :=
  proof.sourceAfter.content.any fun expected => expected = content

def ensureSourceEntryMatches (source : AbsolutePath) : Removal Unit := do
  let status ← (ItemCall.symlinkMetadata () source).mapError .io
  let expectedIdentity ← Procedure.ofExcept
    (orError proof.sourceAfter.metadata.identity (.verification .sourceChanged))
  let expectedType := proof.sourceAfter.metadata.itemType
  Procedure.ofExcept (ensure (expectedType = .regularFile ∨ expectedType = .symlink)
    (.verification .unsupportedItem))
  Procedure.ofExcept (ensure (status.identity = expectedIdentity ∧
      status.size = proof.sourceAfter.metadata.size ∧ status.itemType = expectedType ∧
      status.mode = proof.sourceAfter.metadata.permissions.getD 0)
    (.verification .sourceChanged))
  if expectedType = .symlink then return ()
  else do
    (ItemCall.openNoFollow () source).mapError .io
    touch.mapError fun _ =>
      .recoveryUnavailable "the source is locked by another cooperating process"
    let opened ← (ItemCall.symlinkMetadata () source).mapError .io
    Procedure.ofExcept (ensure
      (matchesOpenFileMetadata proof.sourceAfter.metadata opened = true)
      (.verification .sourceChanged))
    let content ← contentFromReader sha256 source
    let finished ← (ItemCall.symlinkMetadata () source).mapError .io
    Procedure.ofExcept (ensure (contentMatches proof content = true ∧
        matchesOpenFileMetadata proof.sourceAfter.metadata finished = true)
      (.verification .sourceChanged))

def verifyRecoveryFile (requirements : MetadataRequirements) (path : AbsolutePath) :
    Removal Unit := do
  let opened ← (ItemCall.symlinkMetadata () path).mapError .io
  Procedure.ofExcept (ensure
    (matchesOpenTransferMetadata proof.sourceAfter.metadata requirements opened = true)
    (.recoveryUncertain "the recovery item failed metadata verification"))
  touch.mapError .io
  let content ← contentFromReader sha256 path
  let finished ← (ItemCall.symlinkMetadata () path).mapError .io
  Procedure.ofExcept (ensure (contentMatches proof content = true ∧
      matchesOpenTransferMetadata proof.sourceAfter.metadata requirements finished = true)
    (.recoveryUncertain "the recovery item failed content or metadata verification"))

def verifyRecoveryEntry (requirements : MetadataRequirements) (path : AbsolutePath) :
    Removal Unit := do
  if proof.sourceAfter.metadata.itemType = .symlink then do
    let metadata ← (FileMetadataProof.capture () path).mapError .verification
    Procedure.ofExcept (ensure
      (proof.sourceAfter.metadata.matchesTransferMetadata metadata requirements = true)
      (.recoveryUncertain "the recovered symlink failed metadata verification"))
  else do
    (ItemCall.openNoFollow () path).mapError fun _ =>
      .recoveryUncertain "the installed recovery item could not be opened"
    verifyRecoveryFile sha256 proof requirements path

end

def ensureEntryAbsent (path : AbsolutePath) : Removal Unit := do
  match ← (ItemCall.symlinkMetadata () path).attempt with
  | .ok _ => fail (.recoveryUncertain "an item remained at the source boundary")
  | .error .notFound => return ()
  | .error _ => fail (.recoveryUncertain "item absence could not be verified")

/-! ## The source and its guard -/

/-- What a removal is about: the source, the proof of its transfer, and what of the
metadata a recovered item must have. -/
structure RemovalRequest where
  sourceRoot : AbsolutePath
  item : ItemPath
  proof : VerifiedTransferProof
  requirements : MetadataRequirements

variable (sha256 : List UInt8 → Sha256) (request : RemovalRequest)

namespace RemovalRequest

def parent : AbsolutePath := request.sourceRoot ++ request.item.directory

def source : AbsolutePath := request.parent ++ [request.item.name]

def guardPath (sequence : UInt64) : AbsolutePath :=
  request.parent ++ [sourceGuardName sequence request.item.name]

end RemovalRequest

def lockSource : Removal Unit := do
  openRelativeParent request.sourceRoot request.item.directory
  ensureSourceEntryMatches sha256 request.proof request.source

/-- The attempts of `create_source_guard`. -/
def guardWithin : Nat → Removal AbsolutePath
  | 0 => fail (.recoveryUnavailable "could not allocate a source preservation guard")
  | attempts + 1 => do
      let sequence ← nextSequence
      match ← (linkFile [.guarded (request.guardPath sequence)] request.source
          (request.guardPath sequence)).attempt with
      | .ok () => do
          touch.mapError .io
          return request.guardPath sequence
      | .error .alreadyExists => guardWithin attempts
      | .error _ =>
          fail (.recoveryUnavailable "the source could not be protected before removal")

def createSourceGuard : Removal AbsolutePath := guardWithin request 1024

def createSourceGuardForPath : Removal AbsolutePath := do
  lockSource sha256 request
  createSourceGuard request

/-- The guard is dropped, unless it is retained. -/
def dropGuard {α : Type} (sourceGuard : AbsolutePath) (error : RemovalError) : Removal α := do
  (if error.isUncertain then return () else ignoring (unlink sourceGuard))
  fail error

def restoreSourceFromGuard (sourceGuard : AbsolutePath) : Removal Unit := do
  match ← (ItemCall.symlinkMetadata () request.source).attempt with
  | .ok _ => fail (.recoveryUncertain "the source path was recreated before restoration")
  | .error .notFound => do
      (linkFile [] sourceGuard request.source).mapError fun _ =>
        .recoveryUncertain "the original source could not be restored"
      ensureSourceEntryMatches sha256 request.proof request.source
  | .error _ =>
      fail (.recoveryUncertain "the source path could not be inspected during restoration")

def removeSourceExact (sourceGuard : AbsolutePath) : Removal Unit := do
  lockSource sha256 request
  match ← (unlink request.source).attempt with
  | .error _ => do
      ignoring (restoreSourceFromGuard sha256 request sourceGuard)
      fail (.recoveryUncertain "source removal returned an uncertain result")
  | .ok () => orElse (ensureEntryAbsent request.source) fun error => do
      ignoring (restoreSourceFromGuard sha256 request sourceGuard)
      fail error

def performPermanentRemoval : Removal RemovalAttempt := do
  let sourceGuard ← createSourceGuardForPath sha256 request
  orElse (do
      removeSourceExact sha256 request sourceGuard
      return ⟨.permanentRemoval, none, sourceGuard⟩)
    (dropGuard sourceGuard)

/-! ## The recovery location -/

/-- Returns whether the source and the recovery root are on one device. -/
def validateRecoveryRoot (recoveryRoot : AbsolutePath) : Removal Bool := do
  canonicalDirectory request.sourceRoot "source root"
  canonicalDirectory recoveryRoot "recovery root"
  Procedure.ofExcept (ensure (¬ request.sourceRoot <+: recoveryRoot)
    (.recoveryUnavailable "the recovery root overlaps the selected source root"))
  let sourceItem ← (ItemCall.symlinkMetadata () request.source).mapError .io
  let sourceForOverlap ← (if sourceItem.itemType = .symlink then return request.source
    else (ItemCall.fsCall () fun answer disk => .ok (answer.extra.canonical, disk)).mapError .io)
  Procedure.ofExcept (ensure (¬ recoveryRoot <+: sourceForOverlap)
    (.recoveryUnavailable "the recovery root overlaps the source item"))
  let sourceItem ← (ItemCall.symlinkMetadata () request.source).mapError .io
  let rootItem ← (ItemCall.symlinkMetadata () recoveryRoot).mapError .io
  return decide (sourceItem.identity.device = rootItem.identity.device)

/-- A new file for its owner alone. -/
def writeRecord (path : AbsolutePath) (contents : FileBytes) : RemovalCall IoErrorKind Unit := do
  createNew path
  changeFile path fun item => { item with mode := 0o600 }
  writeBytes path contents
  touch

/-- `prepare_recovery_provenance`, after the directories above the target are made for a
recovery folder. -/
def prepareProvenance (method : RecoveryMethod) (target record : AbsolutePath)
    (contents : FileBytes) : Removal Unit :=
  match method with
  | .nativeTrash _ => do
      createDirAll record.dropLast.inits
      let present ← pathExists record
      Procedure.ofExcept (ensure (present = false)
        (.recoveryUnavailable "native Trash provenance already exists"))
      (writeRecord record contents).mapError .io
  | _ => do
      createDirAll target.dropLast.inits
      (writeRecord record contents).mapError fun _ =>
        .recoveryUnavailable "the recovery record could not be written"

def moveToSameFilesystemRecovery (recoveryRoot target : AbsolutePath) :
    Removal RemovalAttempt := do
  openRelativeParent request.sourceRoot request.item.directory
  openOrCreateRelativeParent recoveryRoot request.item.directory
  ensureSourceEntryMatches sha256 request.proof request.source
  let sourceGuard ← createSourceGuard request
  (renameNoReplace request.source target).mapError fun _ =>
    .recoveryUncertain "atomic recovery move failed"
  orElse (do
      ensureEntryAbsent request.source
      verifyRecoveryEntry sha256 request.proof request.requirements target
      return ⟨.trash, some target, sourceGuard⟩)
    fun _ => do
      match ← (restoreSourceFromGuard sha256 request sourceGuard).attempt with
      | .ok () => do
          ignoring (unlink sourceGuard)
          fail (.recoveryUnavailable "recovery verification failed and the source was restored")
      | .error (_ : RemovalError) =>
          fail (.recoveryUncertain
            "recovery verification failed and the source restoration is uncertain")

def ensureRecoverySpace (required : UInt64) : Removal Unit := do
  let available ← (ItemCall.fsCall () fun answer disk =>
    .ok (answer.extra.available, disk)).mapError .io
  let available ← Procedure.ofExcept (orError available
    (.recoveryUnavailable "recovery volume free-space value overflowed"))
  Procedure.ofExcept (ensure (required ≤ available)
    (.recoveryUnavailable "recovery volume has fewer bytes available than required"))

/-- The attempts of `create_recovery_temporary`. -/
def recoveryTemporaryWithin (directory : AbsolutePath) : Nat → Removal AbsolutePath
  | 0 => fail (.recoveryUnavailable "could not allocate a unique recovery temporary")
  | attempts + 1 => do
      let sequence ← nextSequence
      let temporary := directory ++ [recoveryTemporaryName sequence request.item.name]
      match ← (createNew temporary).attempt with
      | .ok () => return temporary
      | .error .alreadyExists => recoveryTemporaryWithin directory attempts
      | .error kind => fail (.io kind)

/-- Read the source and write its bytes. -/
def copyBytes (source temporary : AbsolutePath) : Removal Unit := do
  let bytes ← (.call () fun answer disk =>
    if answer.fails then (.error (.io .other), disk)
    else
      match disk.files source with
      | some { content := .file bytes, .. } => (.ok bytes, disk)
      | _ => (.error (.io .other), disk))
  (writeBytes temporary bytes).mapError .io

def copySourceWithoutFollowing (temporary : AbsolutePath) : Removal Unit := do
  openRelativeParent request.sourceRoot request.item.directory
  (ItemCall.openNoFollow () request.source).mapError .io
  let sourceItem ← (ItemCall.symlinkMetadata () request.source).mapError .io
  Procedure.ofExcept (ensure
    (matchesOpenFileMetadata request.proof.sourceAfter.metadata sourceItem = true)
    (.verification .sourceChanged))
  (changeFile temporary fun item => { item with content := .file .empty }).mapError .io
  copyBytes request.source temporary
  (match request.proof.sourceAfter.metadata.permissions with
    | some permissions =>
        (changeFile temporary fun item => { item with mode := permissions }).mapError .io
    | none => return ())
  (if request.requirements.timestamps then do
    let modifiedAt ← Procedure.ofExcept
      (orError request.proof.sourceAfter.metadata.modifiedAt (.verification .hashMismatch))
    (changeFile temporary fun item => { item with modified := modifiedAt }).mapError .io
  else return ())

/-- The copy, its verification and its installation, and then the removal. -/
def copyAndRemove (sourceGuard temporary target : AbsolutePath) : Removal Unit := do
  copySourceWithoutFollowing request temporary
  verifyRecoveryFile sha256 request.proof request.requirements temporary
  touch.mapError .io
  (renameNoReplace temporary target).mapError fun _ =>
    .recoveryUncertain "atomic recovery move failed"
  verifyRecoveryEntry sha256 request.proof request.requirements target
  removeSourceExact sha256 request sourceGuard

def copyToCrossFilesystemRecovery (recoveryRoot target : AbsolutePath) :
    Removal RemovalAttempt := do
  Procedure.ofExcept (ensure (request.proof.sourceAfter.metadata.itemType = .regularFile)
    (.recoveryUnavailable "cross-filesystem recovery currently supports regular files only"))
  ensureRecoverySpace ((request.proof.sourceAfter.content.map (·.size)).getD 0)
  openOrCreateRelativeParent recoveryRoot request.item.directory
  let sourceGuard ← createSourceGuardForPath sha256 request
  let temporary ← orElse (recoveryTemporaryWithin request target.dropLast 1024)
    (dropGuard sourceGuard)
  orElse (do
      copyAndRemove sha256 request sourceGuard temporary target
      return ⟨.trash, some target, sourceGuard⟩)
    fun error => do
      ignoring (unlink temporary)
      dropGuard sourceGuard error

/-- `provenance` has the bytes of the record, when there is one. -/
def performRemoval (method : RecoveryMethod) (provenance : Option FileBytes) :
    Removal RemovalAttempt :=
  match method.recoveryRoot, recoveryPaths method request.item with
  | some recoveryRoot, .ok (some (target, record)) => do
      let contents ← Procedure.ofExcept (orError provenance
        (.recoveryUnavailable "recovery provenance is unavailable"))
      let sameFilesystem ← validateRecoveryRoot request recoveryRoot
      prepareProvenance method target record contents
      orElse
        (if sameFilesystem then moveToSameFilesystemRecovery sha256 request recoveryRoot target
        else copyToCrossFilesystemRecovery sha256 request recoveryRoot target)
        fun error => do
          ignoring (unlink record)
          fail error
  | none, _ => performPermanentRemoval sha256 request
  | _, _ => fail (.recoveryUnavailable "native Trash target has no file name")

end SafeDelete

end SyncPlus
