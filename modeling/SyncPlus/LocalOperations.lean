import SyncPlus.PathOrder
import SyncPlus.PeerPlaces
import SyncPlus.PreservedCopies

/-!
# The operations on local peers

A verified replacement, the execution of a preserved-copy plan, and the removal of a
source behind its guard, as calls of the file system at the places in the peer roots. The
content and the metadata of the items are in `SyncPlus.Replacement`; here one look stands
for the calls in a row that read, set or compare something at a path, and the callback
that cancels is asked with them. Paths are canonical.
-/

namespace SyncPlus

/-! ## Procedures -/

inductive LocalFailure where
  | io (kind : IoErrorKind)
  | failed
  /-- `RecoveryUncertain`. -/
  | uncertain
  deriving DecidableEq

abbrev LocalProcedure (α : Type) :=
  Procedure FileAnswer PlacedItems FileCall Unit LocalFailure α

namespace LocalProcedure

variable {α : Type}

def fail (failure : LocalFailure) : LocalProcedure α := Procedure.ofExcept (.error failure)

def perform (call : FileCall) : LocalProcedure Unit :=
  .call call fun answer items =>
    (if call.succeeds answer items then .ok () else .error (.io (call.obstacle answer items)),
      call.effect answer items)

/-- What is looked at is as it should be. The answer tells what else was seen. -/
def inspect (path : AbsolutePath) : LocalProcedure FileAnswer :=
  .call (.look path) fun answer items =>
    (if answer.fails then .error .failed else .ok answer, items)

def look (path : AbsolutePath) : LocalProcedure Unit := do
  let _ ← inspect path
  return ()

/-- `fs::symlink_metadata`. -/
def stat (path : AbsolutePath) : LocalProcedure Unit :=
  .call (.look path) fun answer items =>
    (if answer.fails then .error (.io .other)
      else if items path then .ok () else .error (.io .notFound), items)

/-- `ensure_entry_absent`. -/
def ensureAbsent (path : AbsolutePath) : LocalProcedure Unit :=
  .call (.look path) fun answer items =>
    (if answer.fails || items path then .error .uncertain else .ok (), items)

/-- `fetch_add` on a count of the process. -/
def nextCount : LocalProcedure UInt64 :=
  .call .count fun answer items => (.ok answer.sequence, items)

def uncertain (p : LocalProcedure α) : LocalProcedure α := p.mapError fun _ => .uncertain

/-- What fails is handled. -/
def onError (p : LocalProcedure α) (handler : LocalFailure → LocalProcedure α) :
    LocalProcedure α := do
  match ← p.attempt with
  | .ok a => return a
  | .error failure => handler failure

/-- What it returns does not matter. -/
def ignore (p : LocalProcedure α) : LocalProcedure Unit := do
  let _ ← (p.attempt : LocalProcedure (Except LocalFailure α))
  return ()

/-- The directories that are missing are made, from the top down. -/
def makeMissing (kind : PlaceKind) : List AbsolutePath → LocalProcedure Unit
  | [] => return ()
  | directory :: rest => do
      match ← (stat directory).attempt with
      | .ok () => makeMissing kind rest
      | .error (.io .notFound) => do
          match ← (perform (.makeDirectory ⟨kind, directory⟩)).attempt with
          | .ok () | .error (.io .alreadyExists) => do
              look directory
              makeMissing kind rest
          | .error failure => fail failure
      | .error failure => fail failure

end LocalProcedure

/-- A path below a peer root. -/
structure PeerPath (peers : PeerRoots) where
  root : AbsolutePath
  mem : root ∈ peers.roots
  directory : List Name
  name : Name

namespace PeerPath

variable {peers : PeerRoots} (target : PeerPath peers)

def parent : AbsolutePath := target.root ++ target.directory

/-- The path of this name in the same directory. -/
def beside (name : Name) : AbsolutePath := target.root ++ (target.directory ++ [name])

def path : AbsolutePath := target.beside target.name

/-- The place that an operation was asked for. -/
def place : Place := ⟨.requested, target.path⟩

end PeerPath

open LocalProcedure

/-! ## Verified replacement -/

namespace PlacedReplacement

variable {peers : PeerRoots} (processId : UInt32) (source : AbsolutePath)
  (destination : PeerPath peers)

def temporarySibling (kind : SiblingKind) : LocalProcedure Place := do
  let sequence ← nextCount
  return ⟨.sibling kind,
    destination.beside (siblingName kind processId sequence destination.name)⟩

def restorePrevious {α : Type} (previous : Option Place) (originalError : LocalFailure) :
    LocalProcedure α := do
  match previous with
  | some previous =>
      uncertain (perform (.rename previous destination.place))
      fail originalError
  | none => fail originalError

/-- `restore_after_failed_install`; `identified`: the metadata of the installed item is
known. -/
def restoreAfterFailedInstall {α : Type} (previous : Option Place) (identified : Bool)
    (originalError : LocalFailure) : LocalProcedure α :=
  if identified then do
    uncertain (look destination.path)
    let failed ← temporarySibling processId destination .failed
    uncertain (perform (.rename destination.place failed))
    uncertain (look failed.path)
    if previous.isSome then restorePrevious destination previous originalError
    else fail .uncertain
  else do
    match ← (stat destination.path).attempt with
    | .ok () => fail .uncertain
    | .error (_ : LocalFailure) => restorePrevious destination previous originalError

def cleanupTemporary {α : Type} (temporary : Place) (policy : PartialTransferPolicy)
    (originalError : LocalFailure) : LocalProcedure α :=
  match policy with
  | .cleanup => do
      match ← (do stat temporary.path; perform (.removeAll temporary)).attempt with
      | .ok () | .error (.io .notFound) => fail originalError
      | .error _ => fail .uncertain
  | .keepPartialForResume => fail originalError

/-- What is at the destination is moved aside. -/
def preservePrevious : LocalProcedure (Option Place) := do
  match ← (stat destination.path).attempt with
  | .error (.io .notFound) => return none
  | .error failure => fail failure
  | .ok () =>
      uncertain (look destination.path)
      let previous ← temporarySibling processId destination .previous
      perform (.rename destination.place previous)
      onError (do look previous.path; return some previous) fun _ =>
        restorePrevious destination (some previous) .uncertain

/-- The staged item is installed and verified. -/
def installVerified (temporary : Place) (previous : Option Place) : LocalProcedure Unit := do
  onError (look destination.path)
    (restoreAfterFailedInstall processId destination previous false)
  onError (perform (.rename temporary destination.place))
    (restoreAfterFailedInstall processId destination previous false)
  onError (look destination.path)
    (restoreAfterFailedInstall processId destination previous false)
  onError (do look destination.path; look source)
    (restoreAfterFailedInstall processId destination previous true)

def stageAndInstall (temporary : Place) : LocalProcedure Unit := do
  look temporary.path
  look source
  let previous ← preservePrevious processId destination
  installVerified processId source destination temporary previous

/-- `perform_verified_replacement_with_cancel_and_metadata_and_partial`. -/
def performVerifiedReplacement (policy : PartialTransferPolicy) : LocalProcedure Unit := do
  let sourceBefore ← inspect source
  let temporary ← temporarySibling processId destination (temporaryKind policy)
  (if sourceBefore.regular then perform (.create temporary) else return ())
  onError (perform (.transfer temporary)) (cleanupTemporary temporary policy)
  onError (look temporary.path) (cleanupTemporary temporary policy)
  onError (stageAndInstall processId source destination temporary)
    (cleanupTemporary temporary policy)

end PlacedReplacement

/-! ## Preserved copies -/

/-- The roots of the two peers. -/
structure PreservedCopyExecutor (peers : PeerRoots) where
  peerARoot : AbsolutePath
  peerBRoot : AbsolutePath
  memA : peerARoot ∈ peers.roots
  memB : peerBRoot ∈ peers.roots

namespace PreservedCopyExecutor

variable {peers : PeerRoots} (lossy : LossyNames) (executor : PreservedCopyExecutor peers)

def root : PeerSide → AbsolutePath
  | .peerA => executor.peerARoot
  | .peerB => executor.peerBRoot

theorem root_mem (side : PeerSide) : executor.root side ∈ peers.roots := by
  cases side with
  | peerA => exact executor.memA
  | peerB => exact executor.memB

/-- The path of these names below a peer's root, when there are any. -/
def pathOn (side : PeerSide) (relative : PathBuf) : Option (PeerPath peers) :=
  (namesOf relative).getLast?.map fun name =>
    ⟨executor.root side, executor.root_mem side, (namesOf relative).dropLast, name⟩

def ensureWithinRoot (path : PeerPath peers) : LocalProcedure Unit := do
  look path.root
  stat path.parent
  look path.parent

def copyToTemporary (source : PeerPath peers) (temporary : Place) : LocalProcedure Unit := do
  look source.path
  perform (.create temporary)
  look temporary.path

/-- `execute_copy` from the target's directory on. -/
def installCopy (source target : PeerPath peers) : LocalProcedure Unit := do
  match ← (stat target.path).attempt with
  | .ok () => fail .failed
  | .error (_ : LocalFailure) => do
      let sequence ← nextCount
      let temporary : Place :=
        ⟨.preservedTemporary, target.beside (preservedTemporaryName lossy sequence target.name)⟩
      let abandon := fun failure => do
        ignore (perform (.removeFile temporary))
        fail failure
      onError (copyToTemporary source temporary) abandon
      match ← (stat target.path).attempt with
      | .ok () => abandon .failed
      | .error (_ : LocalFailure) => do
          onError (perform (.link temporary target.place)) abandon
          perform (.removeFile temporary)
          look target.path
          look source.path

def executeCopy (copy : PreservedCopyReportItem) : LocalProcedure Unit := do
  Procedure.ofExcept ((validateRelativePath copy.originalPath).mapError fun _ => .failed)
  Procedure.ofExcept ((validateRelativePath copy.generatedPath).mapError fun _ => .failed)
  match executor.pathOn copy.sourcePeer copy.originalPath,
    executor.pathOn copy.targetPeer copy.generatedPath with
  | some source, some target => do
      ensureWithinRoot source
      ensureWithinRoot target
      look source.path
      makeMissing .missingDirectory target.parent.inits
      ensureWithinRoot target
      installCopy lossy source target
  | _, _ => fail .failed

/-- The outcomes of the copies, one after another. -/
def execute : List PreservedCopyReportItem →
    LocalProcedure (List (PreservedCopyReportItem × Except LocalFailure Unit))
  | [] => return []
  | copy :: rest => do
      let outcome ← (executor.executeCopy lossy copy).attempt
      let outcomes ← execute rest
      return (copy, outcome) :: outcomes

end PreservedCopyExecutor

end SyncPlus
