import SyncPlus.ItemFiles

/-!
# Verified replacement

`perform_verified_replacement_with_cancel_and_metadata_and_partial`: an item is
staged at a temporary path next to its destination and verified there, what was at
the destination is moved aside, the staged item is installed without replacing
anything and verified once more. What fails after the installation is rolled back.

The file system, the callback that cancels and the transfer are the environment:
each call succeeds or fails as its answer says. Every call has its name
(`ReplacementStep`).
-/

namespace SyncPlus

/-! ## Paths, errors and answers -/

inductive SiblingKind where
  | temporary
  | partialTransfer
  | previous
  | failed
  deriving DecidableEq

/-- The source and the destination lie below roots that do not overlap, and the
names beside the destination are the transfer's own. -/
inductive ReplacementPath where
  | source
  | destination
  | sibling (kind : SiblingKind) (sequence : UInt64)
  | elsewhere (path : PathBuf)
  deriving DecidableEq

inductive IoReason where
  | call (kind : IoErrorKind)
  | destinationHasNoFileName
  deriving DecidableEq

inductive UncertainReason where
  | previousNotCaptured
  | previousNotVerified
  | previousChanged
  | installedChangedAfterVerification
  | installedNotIdentified
  | installedChangedBeforeRollback
  | installedNotIdentifiedBeforeRollback
  | installedChangedType
  | installedContentChanged
  | noRecoveryPath
  | failedNotPreserved
  | failedChanged
  | failedNotVerified
  | failedContentChanged
  | failedPreserved
  | previousNotRestored
  | temporaryNotCleanedUp
  deriving DecidableEq

inductive ReplacementError where
  | io (reason : IoReason)
  | transfer (reason : String)
  | process (reason : String)
  | processExit (exitCode signal : Option Int)
  | verification (error : ItemProofError)
  | metadataMismatch
  | cancelled
  | recoveryUncertain (reason : UncertainReason)
  deriving DecidableEq

def ReplacementError.ofIo (kind : IoErrorKind) : ReplacementError := .io (.call kind)

def ReplacementError.isUncertain : ReplacementError → Bool
  | recoveryUncertain _ => true
  | _ => false

def mapVerificationError : ItemProofError → ReplacementError
  | .cancelled => .cancelled
  | error => .verification error

structure ReplacementAnswer where
  /-- `NEXT_SIBLING`. -/
  sequence : UInt64
  /-- Where a link leads that a call follows. -/
  leadsTo : ReplacementPath
  /-- A new file, whatever its content. -/
  created : FileItem
  /-- What the transfer leaves at the temporary path. -/
  transferred : Option FileItem
  transferError : Option ReplacementError

/-- The calls. A proof, and a flush, is a call of its own for each of its parts. -/
inductive ReplacementStep where
  | shouldCancel
  | observeSource
  | nextSibling (kind : SiblingKind)
  | createStaged
  | transfer
  | syncItem (path : ReplacementPath)
  | openForTime
  | setModified (path : ReplacementPath)
  | stagedMetadata
  | content (path : ReplacementPath)
  | destinationMetadata
  | previousMetadata
  | moveAside
  | movedMetadata
  | install
  | installedMetadata
  | finalMetadata
  | rollbackMetadata
  | currentMetadata
  | moveFailed
  | failedMetadata
  | moveBack
  | cleanupMetadata
  | removeStaged
  deriving DecidableEq

/-- Nothing is noted. -/
abbrev ReplacementDisk := ItemDisk ReplacementPath Empty

abbrev ReplacementCall (φ α : Type) :=
  ItemCall ReplacementPath Empty ReplacementStep ReplacementAnswer φ α

abbrev Replace (α : Type) := ReplacementCall ReplacementError α

structure VerifiedTransferProof where
  sourceBefore : SourceObservation
  temporaryDestination : Option ContentProof
  sourceAfter : SourceObservation
  installedDestination : Option ContentProof
  deriving DecidableEq

structure VerifiedReplacement where
  source : ReplacementPath
  destination : ReplacementPath
  previousDestination : Option ReplacementPath
  proof : VerifiedTransferProof
  metadata : MetadataRequirements
  deriving DecidableEq

/-! ## Calls -/

namespace Replace

def fail {α : Type} (error : ReplacementError) : Replace α := Procedure.ofExcept (.error error)

def uncertain {φ α : Type} (reason : UncertainReason) (p : ReplacementCall φ α) : Replace α :=
  p.mapError fun _ => .recoveryUncertain reason

/-- What fails is handled. -/
def orElse {α : Type} (p : Replace α) (handler : ReplacementError → Replace α) :
    Replace α := do
  match ← p.attempt with
  | .ok a => return a
  | .error error => handler error

end Replace

/-- The path that opening this one reaches, links followed. -/
def reachedPath (disk : ReplacementDisk) (leadsTo path : ReplacementPath) :
    Option ReplacementPath :=
  (disk.files path).bind fun item =>
    if item.itemType = .symlink then
      (disk.files leadsTo).bind fun target =>
        if target.itemType = .symlink then none else some leadsTo
    else some path

section

variable (sha256 : List UInt8 → Sha256) (named : Bool)

def checkCancelled : Replace Unit := do
  let cancelled ← ItemCall.shouldCancel .shouldCancel
  if cancelled then .fail .cancelled else return ()

/-- `named`: the destination has a file name. -/
def temporarySibling (kind : SiblingKind) : Replace ReplacementPath :=
  .call (.nextSibling kind) fun answer disk =>
    if named then (.ok (.sibling kind answer.extra.sequence), disk)
    else (.error (.io .destinationHasNoFileName), disk)

def createEmptyFile (path : ReplacementPath) : Replace Unit :=
  (ItemCall.fsCall .createStaged fun answer disk =>
    match disk.files path with
    | some _ => .error .alreadyExists
    | none =>
        .ok ((), disk.set path
          (some { answer.extra.created with content := .file .empty }))).mapError .ofIo

/-- The closure, which writes the temporary path. -/
def transfer (temporary : ReplacementPath) : Replace Unit :=
  .call .transfer fun answer disk =>
    ((match answer.extra.transferError with
      | some error => .error error
      | none => .ok ()),
      disk.set temporary answer.extra.transferred)

def renameWithoutReplacement (label : ReplacementStep)
    (sourcePath destinationPath : ReplacementPath) : ReplacementCall IoErrorKind Unit :=
  ItemCall.fsCall label fun _ disk =>
    match disk.files sourcePath, disk.files destinationPath with
    | some item, none =>
        .ok ((), (disk.set sourcePath none).set destinationPath (some item))
    | some _, some _ => .error .alreadyExists
    | none, _ => .error .notFound

def syncFile (path : ReplacementPath) : Replace Unit := do
  (ItemCall.openNoFollow (.syncItem path) path).mapError .ofIo
  (ItemCall.fsCall (.syncItem path) fun _ disk => .ok ((), disk)).mapError .ofIo

def syncStagedItem (path : ReplacementPath) : Replace Unit := do
  let item ← (ItemCall.symlinkMetadata (.syncItem path) path).mapError .ofIo
  match item.itemType with
  | .regularFile => syncFile path
  | .directory | .symlink => return ()
  | .unsupported => .fail (.verification .unsupportedItem)

/-- `remove_dir_all` or `remove_file`. -/
def removeItem (path : ReplacementPath) : ReplacementCall IoErrorKind Unit :=
  ItemCall.fsCall .removeStaged fun _ disk =>
    match disk.files path with
    | some _ => .ok ((), disk.set path none)
    | none => .error .notFound

def removeStagedItem (path : ReplacementPath) : ReplacementCall IoErrorKind Unit := do
  match ← (ItemCall.symlinkMetadata .cleanupMetadata path).attempt with
  | .ok _ => removeItem path
  | .error .notFound => return ()
  | .error kind => Procedure.ofExcept (.error kind)

/-- Open an existing file, a link followed. A directory is not opened for
writing. -/
def openFollowing (write : Bool) (path : ReplacementPath) :
    ReplacementCall IoErrorKind ReplacementPath :=
  ItemCall.fsCall .openForTime fun answer disk =>
    match reachedPath disk answer.extra.leadsTo path with
    | some reached =>
        if write && (disk.files reached).any (fun item => item.itemType = .directory) then .error .other
        else .ok (reached, disk)
    | none => .error .notFound

def setModified (path : ReplacementPath) (modifiedAt : Int) :
    ReplacementCall IoErrorKind Unit :=
  ItemCall.fsCall (.setModified path) fun _ disk =>
    match disk.files path with
    | some item => .ok ((), disk.set path (some { item with modified := modifiedAt }))
    | none => .error .notFound

def openForTime (path : ReplacementPath) (itemType : ItemType) : Replace ReplacementPath :=
  match itemType with
  | .regularFile => (openFollowing true path).mapError .ofIo
  | .directory => (openFollowing false path).mapError .ofIo
  | _ => .fail .metadataMismatch

def applyMetadataRequirements (path : ReplacementPath) (source : FileMetadataProof)
    (requirements : MetadataRequirements) : Replace Unit := do
  if requirements.timestamps then
    let modifiedAt ← Procedure.ofExcept (orError source.modifiedAt .metadataMismatch)
    let reached ← openForTime path source.itemType
    (setModified reached modifiedAt).mapError .ofIo
  else return ()

/-! ## Rollback and cleanup -/

def restorePrevious {α : Type} (previousDestination : Option ReplacementPath)
    (originalError : ReplacementError) : Replace α := do
  match previousDestination with
  | some previous =>
      Replace.uncertain .previousNotRestored (renameWithoutReplacement .moveBack previous .destination)
      .fail originalError
  | none => .fail originalError

def verifyExpected (path : ReplacementPath) (expectedContent : Option ContentProof)
    (reason : UncertainReason) : Replace Unit := do
  match expectedContent with
  | some content =>
      let _ ← Replace.uncertain reason (verifyContentWithCancel sha256 (.content path) false path content)
      return ()
  | none => return ()

/-- The end of `restore_after_failed_install`: the failed item is preserved. -/
def restoreFromFailed {α : Type} (previousDestination : Option ReplacementPath)
    (expectedMetadata : FileMetadataProof) (expectedContent : Option ContentProof)
    (originalError : ReplacementError) (failedDestination : ReplacementPath) : Replace α := do
  let failedMetadata ← Replace.uncertain .failedNotVerified
    (FileMetadataProof.capture .failedMetadata failedDestination)
  Procedure.ofExcept (ensure (failedMetadata = expectedMetadata)
    (.recoveryUncertain .failedChanged))
  verifyExpected sha256 failedDestination expectedContent .failedContentChanged
  match previousDestination with
  | some previous => restorePrevious (some previous) originalError
  | none => .fail (.recoveryUncertain .failedPreserved)

/-- `restore_after_failed_install`, where the installed item was identified. -/
def rollbackInstalled {α : Type} (previousDestination : Option ReplacementPath)
    (expectedMetadata : FileMetadataProof) (expectedContent : Option ContentProof)
    (originalError : ReplacementError) : Replace α := do
  let currentMetadata ← Replace.uncertain .installedNotIdentifiedBeforeRollback
    (FileMetadataProof.capture .currentMetadata .destination)
  Procedure.ofExcept (ensure (currentMetadata = expectedMetadata)
    (.recoveryUncertain .installedChangedBeforeRollback))
  Procedure.ofExcept (ensure (expectedContent.isSome = true →
    currentMetadata.itemType = .regularFile) (.recoveryUncertain .installedChangedType))
  verifyExpected sha256 .destination expectedContent .installedContentChanged
  let failedDestination ← Replace.uncertain .noRecoveryPath (temporarySibling named .failed)
  Replace.uncertain .failedNotPreserved
    (renameWithoutReplacement .moveFailed .destination failedDestination)
  restoreFromFailed sha256 previousDestination expectedMetadata expectedContent originalError
    failedDestination

def restoreAfterFailedInstall {α : Type} (previousDestination : Option ReplacementPath)
    (expectedMetadata : Option FileMetadataProof) (expectedContent : Option ContentProof)
    (originalError : ReplacementError) : Replace α := do
  match expectedMetadata with
  | some expected =>
      rollbackInstalled sha256 named previousDestination expected expectedContent originalError
  | none =>
      match ← (ItemCall.symlinkMetadata .rollbackMetadata .destination).attempt with
      | .ok _ => .fail (.recoveryUncertain .installedNotIdentified)
      | .error _ => restorePrevious previousDestination originalError

def cleanupTemporary {α : Type} (path : ReplacementPath) (originalError : ReplacementError) :
    Replace α := do
  match ← (removeStagedItem path).attempt with
  | .ok () | .error .notFound => .fail originalError
  | .error _ => .fail (.recoveryUncertain .temporaryNotCleanedUp)

def cleanupTemporaryAccordingToPolicy {α : Type} (path : ReplacementPath)
    (policy : PartialTransferPolicy) (originalError : ReplacementError) : Replace α :=
  match policy with
  | .cleanup => cleanupTemporary path originalError
  | .keepPartialForResume => .fail originalError

/-! ## The replacement -/

/-- The content of the item at the path is that of the source. -/
def verifyObserved (path : ReplacementPath) (content : Option ContentProof) :
    Replace (Option ContentProof) := do
  match content with
  | some content =>
      let proof ← (verifyContentWithCancel sha256 (.content path) true path content).mapError mapVerificationError
      return some proof
  | none => return none

/-- The first part of the closure: the staged item is what the source was. -/
def verifyStaged (temporary : ReplacementPath) (metadata : MetadataRequirements)
    (sourceBefore : SourceObservation) : Replace (Option ContentProof × SourceObservation) := do
  checkCancelled
  syncStagedItem temporary
  checkCancelled
  applyMetadataRequirements temporary sourceBefore.metadata metadata
  let temporaryMetadata ← (FileMetadataProof.capture .stagedMetadata temporary).mapError .verification
  Procedure.ofExcept (ensure
    (sourceBefore.metadata.matchesTransferMetadata temporaryMetadata metadata = true)
    .metadataMismatch)
  let temporaryDestination ← verifyObserved sha256 temporary sourceBefore.content
  let sourceAfter ← (SourceObservation.captureWithCancel sha256 .observeSource .source).mapError
    mapVerificationError
  Procedure.ofExcept (ensure (sourceAfter = sourceBefore) (.verification .sourceChanged))
  checkCancelled
  return (temporaryDestination, sourceAfter)

/-- Its second part: what is at the destination is moved aside. -/
def preservePrevious : Replace (Option ReplacementPath) := do
  match ← (ItemCall.symlinkMetadata .destinationMetadata .destination).attempt with
  | .error .notFound => return none
  | .error kind => .fail (.ofIo kind)
  | .ok _ =>
      let previousMetadata ← Replace.uncertain .previousNotCaptured
        (FileMetadataProof.capture .previousMetadata .destination)
      let previous ← temporarySibling named .previous
      (renameWithoutReplacement .moveAside .destination previous).mapError .ofIo
      match ← (FileMetadataProof.capture .movedMetadata previous).attempt with
      | .error _ => restorePrevious (some previous) (.recoveryUncertain .previousNotVerified)
      | .ok movedMetadata =>
          if movedMetadata = previousMetadata then return some previous
          else restorePrevious (some previous) (.recoveryUncertain .previousChanged)

/-- What is installed is what was staged. -/
def verifyInstalled (metadata : MetadataRequirements) (sourceBefore sourceAfter : SourceObservation)
    (installedMetadata : FileMetadataProof) :
    Replace (Option ContentProof × SourceObservation) := do
  Procedure.ofExcept (ensure
    (sourceBefore.metadata.matchesTransferMetadata installedMetadata metadata = true)
    .metadataMismatch)
  checkCancelled
  syncStagedItem .destination
  let installedDestination ← verifyObserved sha256 .destination sourceBefore.content
  let finalInstalledMetadata ← (FileMetadataProof.capture .finalMetadata .destination).mapError .verification
  Procedure.ofExcept (ensure (finalInstalledMetadata = installedMetadata)
    (.recoveryUncertain .installedChangedAfterVerification))
  let finalSource ← (SourceObservation.captureWithCancel sha256 .observeSource .source).mapError
    mapVerificationError
  Procedure.ofExcept (ensure (finalSource = sourceAfter) (.verification .sourceChanged))
  checkCancelled
  return (installedDestination, finalSource)

/-- Its last part: the staged item is installed and verified. -/
def installVerified (temporary : ReplacementPath) (metadata : MetadataRequirements)
    (sourceBefore : SourceObservation) (temporaryDestination : Option ContentProof)
    (sourceAfter : SourceObservation) (previousDestination : Option ReplacementPath) :
    Replace VerifiedReplacement := do
  checkCancelled.orElse (restoreAfterFailedInstall sha256 named previousDestination none none)
  Replace.orElse ((renameWithoutReplacement .install temporary .destination).mapError .ofIo)
    (restoreAfterFailedInstall sha256 named previousDestination none none)
  let installedMetadata ← Replace.orElse
    ((FileMetadataProof.capture .installedMetadata .destination).mapError .verification)
    (restoreAfterFailedInstall sha256 named previousDestination none none)
  let (installedDestination, finalSource) ← Replace.orElse
    (verifyInstalled sha256 metadata sourceBefore sourceAfter installedMetadata)
    (restoreAfterFailedInstall sha256 named previousDestination (some installedMetadata)
      sourceBefore.content)
  return {
    source := .source
    destination := .destination
    previousDestination
    proof := ⟨sourceBefore, temporaryDestination, finalSource, installedDestination⟩
    metadata }

def stageAndInstall (temporary : ReplacementPath) (metadata : MetadataRequirements)
    (sourceBefore : SourceObservation) : Replace VerifiedReplacement := do
  let (temporaryDestination, sourceAfter) ← verifyStaged sha256 temporary metadata sourceBefore
  let previousDestination ← preservePrevious named
  installVerified sha256 named temporary metadata sourceBefore temporaryDestination sourceAfter
    previousDestination

def temporaryKind : PartialTransferPolicy → SiblingKind
  | .cleanup => .temporary
  | .keepPartialForResume => .partialTransfer

def createStaged (itemType : ItemType) (temporary : ReplacementPath) : Replace Unit :=
  if itemType = .regularFile then createEmptyFile temporary else return ()

/-- `perform_verified_replacement_with_cancel_and_metadata_and_partial`. -/
def performVerifiedReplacement (metadata : MetadataRequirements)
    (partialPolicy : PartialTransferPolicy) : Replace VerifiedReplacement := do
  checkCancelled
  let sourceBefore ← (SourceObservation.captureWithCancel sha256 .observeSource .source).mapError
    mapVerificationError
  let temporary ← temporarySibling named (temporaryKind partialPolicy)
  createStaged sourceBefore.metadata.itemType temporary
  Replace.orElse (transfer temporary) (cleanupTemporaryAccordingToPolicy temporary partialPolicy)
  checkCancelled.orElse (cleanupTemporaryAccordingToPolicy temporary partialPolicy)
  Replace.orElse (stageAndInstall sha256 named temporary metadata sourceBefore)
    (cleanupTemporaryAccordingToPolicy temporary partialPolicy)

end

/-! ## What the calls end in -/

section

open Procedure

variable {α β : Type} {allows : ReplacementStep → CallAnswer ReplacementAnswer → ReplacementDisk → Prop}
  {s : ReplacementDisk} {path : ReplacementPath} {sha256 : List UInt8 → Sha256} {named : Bool}

theorem Replace.ensures_fail {e : ReplacementError} {Q : Except ReplacementError α → _ → Prop}
    (h : Q (.error e) s) : (Replace.fail e).Ensures allows Q s := h

theorem Replace.ensures_orElse {p : Replace α} {handler : ReplacementError → Replace α}
    {P Q : Except ReplacementError α → ReplacementDisk → Prop} (hp : p.Ensures allows P s)
    (hok : ∀ a t, P (.ok a) t → Q (.ok a) t)
    (herror : ∀ e t, P (.error e) t → (handler e).Ensures allows Q t) :
    (p.orElse handler).Ensures allows Q s := by
  refine .bind_returns (.attempt (hp.mono fun r t h => ⟨r, rfl, h⟩)) ?_
  rintro (e | a) t h
  · exact herror e t h
  · exact .pure (hok a t h)

/-- What fails is handled, and fails then as well. -/
theorem ensures_orElse_bind {p : Replace α} {handler : ReplacementError → Replace α}
    {f : α → Replace β} {Q : Except ReplacementError β → ReplacementDisk → Prop}
    (hp : p.Ensures allows (fun r t => (∃ a, r = .ok a ∧ (f a).Ensures allows Q t) ∨
      ∃ e, r = .error e ∧ (handler e).Ensures allows
        (fun r' t' => ∃ e', r' = .error e' ∧ Q (.error e') t') t) s) :
    (p.orElse handler >>= f).Ensures allows Q s := by
  refine ensures_guarded (Replace.ensures_orElse hp ?_ ?_)
  · rintro a t (h | ⟨_, ⟨⟩, _⟩)
    exact .inl h
  · rintro e t (⟨_, ⟨⟩, _⟩ | ⟨_, ⟨⟩, h⟩)
    exact h.mono fun _ _ h' => .inr h'

/-- The same along the calls. -/
theorem ensuresAlong_orElse_bind {p : Replace α} {handler : ReplacementError → Replace α}
    {f : α → Replace β} {calls : List (ReplacementStep × CallAnswer ReplacementAnswer)}
    {Q : Except ReplacementError β → List (ReplacementStep × CallAnswer ReplacementAnswer) →
      ReplacementDisk → Prop}
    (hp : p.EnsuresAlong allows (fun r after t =>
      (∃ a, r = .ok a ∧ (f a).EnsuresAlong allows Q after t) ∨
        ∃ e, r = .error e ∧ (handler e).EnsuresAlong allows
          (fun r' after' t' => ∃ e', r' = .error e' ∧ Q (.error e') after' t') after t) calls s) :
    (p.orElse handler >>= f).EnsuresAlong allows Q calls s := by
  refine .guarded (.bind_returns (.attempt (hp.mono fun r after t h => ⟨r, rfl, h⟩)) ?_)
  rintro (e | a) after t (⟨_, hr, h⟩ | ⟨_, hr, h⟩)
  · cases hr
  · cases hr
    exact h.mono fun _ _ _ h' => .inr h'
  · cases hr
    exact .pure (.inl ⟨a, rfl, h⟩)
  · cases hr

theorem ensures_checkCancelled {Q : Except ReplacementError Unit → ReplacementDisk → Prop}
    (hok : Q (.ok ()) s) (hcancelled : Disturbed allows s → Q (.error .cancelled) s) :
    checkCancelled.Ensures allows Q s := by
  refine .bind_returns (P := fun cancelled t => t = s ∧ (cancelled = true → Disturbed allows s))
    (.call fun answer hallows => ⟨_, rfl, rfl, fun h => ⟨_, answer, hallows, .inr h⟩⟩) ?_
  rintro cancelled t ⟨rfl, h⟩
  cases cancelled with
  | true => exact hcancelled (h rfl)
  | false => exact hok

theorem ensures_temporarySibling {kind : SiblingKind}
    {Q : Except ReplacementError ReplacementPath → ReplacementDisk → Prop}
    (hok : named = true → ∀ answer, allows (.nextSibling kind) answer s →
      Q (.ok (.sibling kind answer.extra.sequence)) s)
    (herror : named = false → Q (.error (.io .destinationHasNoFileName)) s) :
    (temporarySibling named kind).Ensures allows Q s := by
  refine .call fun answer hallows => ?_
  cases named with
  | true => exact hok rfl answer hallows
  | false => exact herror rfl

theorem ensures_renameItem {label : ReplacementStep} {sourcePath destinationPath : ReplacementPath}
    {Q : Except IoErrorKind Unit → ReplacementDisk → Prop}
    (hok : ∀ item, s.files sourcePath = some item → s.files destinationPath = none →
      Q (.ok ()) ((s.set sourcePath none).set destinationPath (some item)))
    (herror : ∀ kind, (Disturbed allows s ∨ s.files sourcePath = none ∨
      s.files destinationPath ≠ none) → Q (.error kind) s) :
    (renameWithoutReplacement label sourcePath destinationPath).Ensures allows Q s := by
  refine ensures_itemCall ?_ ?_ ?_
  · intro answer _ a t hf
    split at hf
    · rename_i item hsource hdestination
      cases hf
      exact hok item hsource hdestination
    · cases hf
    · cases hf
  · intro answer _ kind hf
    split at hf
    · cases hf
    · rename_i hdestination
      refine herror kind (.inr (.inr ?_))
      rw [hdestination]
      nofun
    · rename_i hsource
      exact herror kind (.inr (.inl hsource))
  · exact fun hdisturbed => herror _ (.inl hdisturbed)

/-- The item that is synchronized stays as it is. -/
theorem ensures_syncStagedItem {Q : Except ReplacementError Unit → ReplacementDisk → Prop}
    (hok : Q (.ok ()) s)
    (herror : ∀ e, (Disturbed allows s ∨
      ¬ ∃ item, s.files path = some item ∧ item.itemType ≠ .unsupported) → Q (.error e) s) :
    (syncStagedItem path).Ensures allows Q s := by
  refine ensures_guarded (.mapError (ensures_itemMetadata ?_ ?_ ?_))
  · intro item hitem
    refine .inl ⟨item, rfl, ?_⟩
    split <;> rename_i htype
    · refine ensures_guarded (.mapError (ensures_itemCall ?_ ?_ ?_))
      · intro answer _ a t hf
        simp only [hitem, htype, reduceCtorEq, if_false, Except.ok.injEq, Prod.mk.injEq] at hf
        obtain ⟨-, rfl⟩ := hf
        refine .inl ⟨a, rfl, .mapError (ensures_itemCall ?_ ?_ ?_)⟩
        · rintro _ _ _ _ ⟨⟩
          exact hok
        · rintro _ _ _ ⟨⟩
        · intro hdisturbed
          exact herror _ (.inl hdisturbed)
      · intro answer _ kind hf
        simp [hitem, htype] at hf
      · intro hdisturbed
        exact .inr ⟨_, rfl, herror _ (.inl hdisturbed)⟩
    · exact .pure hok
    · exact .pure hok
    · refine herror _ (.inr ?_)
      rintro ⟨other, hother, hsupported⟩
      obtain rfl : item = other := Option.some.inj (hitem.symm.trans hother)
      exact hsupported htype
  · intro hnone
    refine .inr ⟨_, rfl, herror _ (.inr ?_)⟩
    rintro ⟨item, hitem, -⟩
    rw [hnone] at hitem
    cases hitem
  · intro hdisturbed
    exact .inr ⟨_, rfl, herror _ (.inl hdisturbed)⟩

/-- The content that is verified is the one that was observed. -/
theorem ensures_verifyObserved {content : Option ContentProof}
    {Q : Except ReplacementError (Option ContentProof) → ReplacementDisk → Prop}
    (hok : (∀ expected, content = some expected → ∃ item bytes, s.files path = some item ∧
      item.content = .file bytes ∧ ContentProof.ofBytes sha256 bytes.bytes = expected) →
        Q (.ok content) s)
    (herror : ∀ e, (Disturbed allows s ∨ ∃ expected, content = some expected ∧
      ¬ ∃ item bytes, s.files path = some item ∧ item.content = .file bytes ∧
        ContentProof.ofBytes sha256 bytes.bytes = expected) → Q (.error e) s) :
    (verifyObserved sha256 path content).Ensures allows Q s := by
  unfold verifyObserved
  cases content with
  | none => exact .pure (hok (by rintro _ ⟨⟩))
  | some expected =>
      refine ensures_guarded (.mapError (ensures_verifyContent ?_ ?_))
      · intro item bytes hitem hbytes hexpected
        refine .inl ⟨expected, rfl, .pure (hok ?_)⟩
        rintro _ ⟨⟩
        exact ⟨item, bytes, hitem, hbytes, hexpected⟩
      · intro e he
        refine .inr ⟨_, rfl, herror _ (he.imp_right fun hnone => ⟨expected, rfl, hnone⟩)⟩

theorem reachedPath_some {leadsTo reached : ReplacementPath}
    (h : reachedPath s leadsTo path = some reached) : ∃ item, s.files reached = some item ∧
      item.itemType ≠ .symlink ∧ ∃ found, s.files path = some found ∧
        (found.itemType ≠ .symlink → reached = path) := by
  unfold reachedPath at h
  obtain ⟨found, hfound, h⟩ := Option.bind_eq_some_iff.mp h
  split at h
  · rename_i hlink
    obtain ⟨target, htarget, h⟩ := Option.bind_eq_some_iff.mp h
    split at h
    · cases h
    · rename_i hnot
      cases h
      exact ⟨target, htarget, hnot, found, hfound, fun hunlinked => absurd hlink hunlinked⟩
  · rename_i hnot
    cases h
    exact ⟨found, hfound, hnot, found, hfound, fun _ => rfl⟩

/-- The disk after the time of an item was set. -/
def dateItem (disk : ReplacementDisk) (path : ReplacementPath) (item : FileItem)
    (modifiedAt : Int) : ReplacementDisk :=
  disk.set path (some { item with modified := modifiedAt })

theorem ensures_openForTime {itemType : ItemType}
    {Q : Except ReplacementError ReplacementPath → ReplacementDisk → Prop}
    (hok : ∀ leadsTo reached, (itemType = .regularFile ∨ itemType = .directory) →
      reachedPath s leadsTo path = some reached → Q (.ok reached) s)
    (herror : ∀ e, (Disturbed allows s ∨ (itemType ≠ .regularFile ∧ itemType ≠ .directory) ∨
      ∀ item, s.files path = some item → item.itemType ≠ itemType) → Q (.error e) s) :
    (openForTime path itemType).Ensures allows Q s := by
  have hopen : ∀ write : Bool, (write = true → itemType = .regularFile) →
      (write = false → itemType = .directory) →
      ((openFollowing write path).mapError ReplacementError.ofIo).Ensures allows Q s := by
    intro write hfile hdirectory
    have htype : itemType = .regularFile ∨ itemType = .directory := by
      cases write with
      | true => exact .inl (hfile rfl)
      | false => exact .inr (hdirectory rfl)
    have hunlinked : itemType ≠ .symlink := by
      rcases htype with rfl | rfl <;> nofun
    refine .mapError (ensures_itemCall ?_ ?_ ?_)
    · intro answer _ a t hf
      split at hf
      · rename_i reached hreached
        split at hf
        · cases hf
        · cases hf
          exact hok _ _ htype hreached
      · cases hf
    · intro answer _ kind hf
      refine herror _ (.inr (.inr fun item hitem htype => ?_))
      have hnot : item.itemType ≠ .symlink := htype ▸ hunlinked
      have hreached : reachedPath s answer.extra.leadsTo path = some path := by
        unfold reachedPath
        rw [hitem, Option.bind_some, if_neg hnot]
      rw [hreached] at hf
      simp only [hitem, Option.any_some] at hf
      split at hf
      · rename_i hdirectory'
        simp only [Bool.and_eq_true, decide_eq_true_eq] at hdirectory'
        have hregular := hfile hdirectory'.1
        rw [← htype, hdirectory'.2] at hregular
        cases hregular
      · cases hf
    · intro hdisturbed
      exact herror _ (.inl hdisturbed)
  unfold openForTime
  split
  · exact hopen true (fun _ => rfl) nofun
  · exact hopen false nofun fun _ => rfl
  · rename_i hfile hdirectory
    exact herror _ (.inr (.inl ⟨hfile, hdirectory⟩))

/-- The time of the source is set at what the path reaches. -/
theorem ensures_applyMetadataRequirements {source : FileMetadataProof}
    {requirements : MetadataRequirements}
    {Q : Except ReplacementError Unit → ReplacementDisk → Prop}
    (hskip : requirements.timestamps = false → Q (.ok ()) s)
    (hset : ∀ leadsTo reached item time, requirements.timestamps = true →
      (source.itemType = .regularFile ∨ source.itemType = .directory) →
        source.modifiedAt = some time → reachedPath s leadsTo path = some reached →
          s.files reached = some item → Q (.ok ()) (dateItem s reached item time))
    (herror : ∀ e, (Disturbed allows s ∨ (requirements.timestamps = true ∧
      (source.modifiedAt = none ∨
        (source.itemType ≠ .regularFile ∧ source.itemType ≠ .directory) ∨
          ∀ item, s.files path = some item → item.itemType ≠ source.itemType))) →
        Q (.error e) s) :
    (applyMetadataRequirements path source requirements).Ensures allows Q s := by
  unfold applyMetadataRequirements
  split
  · rename_i htimestamps
    refine .ofExcept_bind (fun time htime => ?_) ?_
    · have htime : source.modifiedAt = some time := orError_eq_ok.mp htime
      refine ensures_guarded (ensures_openForTime ?_ ?_)
      · intro leadsTo reached htype hreached
        refine .inl ⟨reached, rfl, ?_⟩
        obtain ⟨item, hitem, -, -⟩ := reachedPath_some hreached
        refine .mapError (ensures_itemCall ?_ ?_ ?_)
        · intro answer _ a t hf
          simp only [hitem, Except.ok.injEq, Prod.mk.injEq] at hf
          rw [← hf.2]
          exact hset leadsTo reached item time htimestamps htype htime hreached hitem
        · intro answer _ kind hf
          simp [hitem] at hf
        · intro hdisturbed
          exact herror _ (.inl hdisturbed)
      · rintro e (hdisturbed | htype)
        · exact .inr ⟨e, rfl, herror _ (.inl hdisturbed)⟩
        · exact .inr ⟨e, rfl, herror _ (.inr ⟨htimestamps, .inr htype⟩)⟩
    · intro e he
      refine herror e (.inr ⟨htimestamps, .inl ?_⟩)
      cases hmodified : source.modifiedAt with
      | none => rfl
      | some time =>
          rw [hmodified] at he
          cases he
  · rename_i htimestamps
    exact .pure (hskip (Bool.eq_false_iff.mpr htimestamps))

/-- A new file is written at the temporary path only. -/
theorem ensures_createStaged {itemType : ItemType} (temporary : ReplacementPath) :
    (createStaged itemType temporary).Ensures allows
      (fun r t => (∀ path, path ≠ temporary → t.files path = s.files path) ∧
        ∀ e, r = .error e → t = s ∧ (Disturbed allows s ∨ s.files temporary ≠ none)) s := by
  unfold createStaged
  split
  · refine .mapError (ensures_itemCall ?_ ?_ ?_)
    · intro answer _ a t hf
      split at hf
      · cases hf
      · cases hf
        exact ⟨fun path hpath => ItemDisk.set_of_ne hpath, by rintro _ ⟨⟩⟩
    · intro answer _ kind hf
      refine ⟨fun _ _ => rfl, fun _ _ => ⟨rfl, .inr fun hnone => ?_⟩⟩
      simp [hnone] at hf
    · intro hdisturbed
      exact ⟨fun _ _ => rfl, fun _ _ => ⟨rfl, .inl hdisturbed⟩⟩
  · exact .pure ⟨fun _ _ => rfl, by rintro _ ⟨⟩⟩

end

/-! ## The calls of the parts -/

section

open Procedure

variable {α : Type} {L : ReplacementStep → Prop} {path : ReplacementPath}
  {sha256 : List UInt8 → Sha256}

theorem Replace.labels_fail {e : ReplacementError} : (Replace.fail e : Replace α).Labels L := trivial

theorem Replace.labels_orElse {p : Replace α} {handler : ReplacementError → Replace α}
    (hp : p.Labels L) (hhandler : ∀ e, (handler e).Labels L) : (p.orElse handler).Labels L := by
  refine .bind (.attempt hp) fun r => ?_
  cases r with
  | ok a => exact .pure
  | error e => exact hhandler e

theorem labels_checkCancelled (h : L .shouldCancel) : checkCancelled.Labels L := by
  refine .bind (.call h) fun cancelled => ?_
  cases cancelled with
  | true => exact Replace.labels_fail
  | false => exact .pure

theorem labels_syncStagedItem (h : L (.syncItem path)) : (syncStagedItem path).Labels L := by
  refine .bind (.mapError (.call h)) fun item => ?_
  split
  · exact .bind (.mapError (.call h)) fun _ => .mapError (.call h)
  · exact .pure
  · exact .pure
  · exact Replace.labels_fail

theorem labels_createStaged {itemType : ItemType} (h : L .createStaged) :
    (createStaged itemType path).Labels L := by
  unfold createStaged
  split
  · exact .mapError (.call h)
  · exact .pure

theorem labels_verifyObserved {content : Option ContentProof} (h : L (.content path)) :
    (verifyObserved sha256 path content).Labels L := by
  unfold verifyObserved
  cases content with
  | none => exact .pure
  | some content => exact .bind (.mapError (labels_verifyContent h)) fun _ => .pure

theorem labels_verifyExpected {content : Option ContentProof} {reason : UncertainReason}
    (h : L (.content path)) : (verifyExpected sha256 path content reason).Labels L := by
  unfold verifyExpected
  cases content with
  | none => exact .pure
  | some content => exact .bind (.mapError (labels_verifyContent h)) fun _ => .pure

theorem labels_openForTime {itemType : ItemType} (h : L .openForTime) :
    (openForTime path itemType).Labels L := by
  unfold openForTime
  split
  · exact .mapError (.call h)
  · exact .mapError (.call h)
  · exact Replace.labels_fail

theorem labels_restorePrevious {previous : Option ReplacementPath} {e : ReplacementError}
    (h : L .moveBack) : (restorePrevious previous e : Replace α).Labels L := by
  unfold restorePrevious
  cases previous with
  | none => exact Replace.labels_fail
  | some previous => exact .bind (.mapError (.call h)) fun _ => Replace.labels_fail

end

end SyncPlus
