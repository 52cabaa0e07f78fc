import SyncPlus.LocalOperations
import SyncPlus.RecoveryPaths

/-!
# Safe Delete on a local peer

The removal of a source by `SafeDeleteExecutor::perform_removal`, as calls of the file
system. A hard link beside the source, its guard, keeps the item while the source is moved
into the recovery location or unlinked, and stays there when the removal succeeds or ends
in doubt.
-/

namespace SyncPlus

open LocalProcedure

/-- The source of a removal. -/
structure RemovalSource (peers : PeerRoots) where
  root : AbsolutePath
  mem : root ∈ peers.roots
  item : ItemPath

namespace RemovalSource

variable {peers : PeerRoots} (source : RemovalSource peers)

def peerPath : PeerPath peers := ⟨source.root, source.mem, source.item.directory, source.item.name⟩

def place : Place := source.peerPath.place

def path : AbsolutePath := source.peerPath.path

/-! ## The source and its guard -/

/-- The attempts of `create_source_guard`. -/
def guardWithin : Nat → LocalProcedure Place
  | 0 => fail .failed
  | attempts + 1 => do
      let sequence ← nextCount
      let guard : Place :=
        ⟨.sourceGuard, source.peerPath.beside (sourceGuardName sequence source.item.name)⟩
      match ← (perform (.link source.place guard)).attempt with
      | .ok () => do
          look source.peerPath.parent
          return guard
      | .error (.io .alreadyExists) => guardWithin attempts
      | .error _ => fail .failed

def createSourceGuard : LocalProcedure Place := source.guardWithin 1024

/-- `open_relative_parent` and `ensure_source_entry_matches`. -/
def lockSource : LocalProcedure Unit := do
  look source.peerPath.parent
  look source.path

def createSourceGuardForPath : LocalProcedure Place := do
  source.lockSource
  source.createSourceGuard

def restoreSourceFromGuard (guard : Place) : LocalProcedure Unit := do
  ensureAbsent source.path
  uncertain (perform (.link guard source.place))
  look source.path

def removeSourceExact (guard : Place) : LocalProcedure Unit := do
  source.lockSource
  onError (perform (.removeFile source.place)) fun _ => do
    ignore (source.restoreSourceFromGuard guard)
    fail .uncertain
  onError (ensureAbsent source.path) fun failure => do
    ignore (source.restoreSourceFromGuard guard)
    fail failure

/-- The guard is dropped, unless what failed is in doubt. -/
def dropGuard {α : Type} (guard : Place) (failure : LocalFailure) : LocalProcedure α := do
  (if failure = .uncertain then return () else ignore (perform (.removeFile guard)))
  fail failure

def performPermanentRemoval : LocalProcedure Unit := do
  let guard ← source.createSourceGuardForPath
  onError (source.removeSourceExact guard) (dropGuard guard)

/-! ## The recovery location -/

/-- `validate_recovery_root`: neither of the roots is in the other. Returns whether the
source and the recovery root are on one file system. -/
def validateRecoveryRoot (recoveryRoot : AbsolutePath) : LocalProcedure Bool := do
  look source.root
  look recoveryRoot
  (if source.root <+: recoveryRoot then fail .failed else return ())
  look source.path
  (if recoveryRoot <+: source.path then fail .failed else return ())
  let answer ← inspect recoveryRoot
  return answer.sameFilesystem

/-- What is done before the record is written: the directories above the target are made
for a recovery folder, and the `info` directory for the native Trash, whose record must not
be there. -/
def prepareRecordDirectory (method : RecoveryMethod) (target record : AbsolutePath) :
    LocalProcedure Unit :=
  match method with
  | .nativeTrash _ => do
      makeMissing .recovery record.dropLast.inits
      match ← (stat record).attempt with
      | .ok () => fail .failed
      | .error (_ : LocalFailure) => return ()
  | _ => makeMissing .recovery target.dropLast.inits

def prepareProvenance (method : RecoveryMethod) (target record : AbsolutePath) :
    LocalProcedure Unit := do
  prepareRecordDirectory method target record
  perform (.create ⟨.recovery, record⟩)
  look record

/-- `open_or_create_relative_parent`. -/
def openRecoveryParent (recoveryRoot : AbsolutePath) : LocalProcedure Unit := do
  look recoveryRoot
  makeMissing .recovery (source.item.directory.inits.map (recoveryRoot ++ ·))

/-- What was recovered could be read and is not the source, or it could not be read. -/
def verifyRecovery (path : AbsolutePath) : LocalProcedure Unit :=
  .call (.look path) fun answer items =>
    (if answer.fails then .error (if answer.differs then .uncertain else .failed) else .ok (),
      items)

def moveToSameFilesystemRecovery (recoveryRoot target : AbsolutePath) : LocalProcedure Unit := do
  look source.peerPath.parent
  source.openRecoveryParent recoveryRoot
  look source.path
  let guard ← source.createSourceGuard
  uncertain (perform (.moveFile source.place ⟨.recovery, target⟩))
  onError (do ensureAbsent source.path; verifyRecovery target) fun _ => do
    match ← (source.restoreSourceFromGuard guard).attempt with
    | .ok () => do
        ignore (perform (.removeFile guard))
        fail .failed
    | .error (_ : LocalFailure) => fail .uncertain

/-- The attempts of `create_recovery_temporary`. -/
def recoveryTemporaryWithin (directory : AbsolutePath) : Nat → LocalProcedure Place
  | 0 => fail .failed
  | attempts + 1 => do
      let sequence ← nextCount
      let temporary : Place :=
        ⟨.recovery, directory ++ [recoveryTemporaryName sequence source.item.name]⟩
      match ← (perform (.create temporary)).attempt with
      | .ok () => return temporary
      | .error (.io .alreadyExists) => recoveryTemporaryWithin directory attempts
      | .error failure => fail failure

/-- The copy, its verification and its installation, and then the removal. -/
def copyAndRemove (guard temporary : Place) (target : AbsolutePath) : LocalProcedure Unit := do
  look source.path
  look temporary.path
  verifyRecovery temporary.path
  look temporary.path
  uncertain (perform (.moveFile temporary ⟨.recovery, target⟩))
  verifyRecovery target
  source.removeSourceExact guard

def copyToCrossFilesystemRecovery (recoveryRoot target : AbsolutePath) :
    LocalProcedure Unit := do
  let answer ← inspect target.dropLast
  (if answer.regular then return () else fail .failed)
  source.openRecoveryParent recoveryRoot
  let guard ← source.createSourceGuardForPath
  let temporary ← onError (source.recoveryTemporaryWithin target.dropLast 1024) (dropGuard guard)
  onError (source.copyAndRemove guard temporary target) fun failure => do
    ignore (perform (.removeFile temporary))
    dropGuard guard failure

def performRemoval (method : RecoveryMethod) : LocalProcedure Unit := do
  match method.recoveryRoot, recoveryPaths method source.item with
  | some recoveryRoot, .ok (some (target, record)) => do
      let sameFilesystem ← source.validateRecoveryRoot recoveryRoot
      prepareProvenance method target record
      onError
        (if sameFilesystem then source.moveToSameFilesystemRecovery recoveryRoot target
        else source.copyToCrossFilesystemRecovery recoveryRoot target)
        fun failure => do
          ignore (perform (.removeFile ⟨.recovery, record⟩))
          fail failure
  | none, _ => source.performPermanentRemoval
  | _, _ => fail .failed

end RemovalSource

end SyncPlus
