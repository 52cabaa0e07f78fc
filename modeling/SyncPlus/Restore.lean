import SyncPlus.ItemFiles
import SyncPlus.Exclusions
import SyncPlus.Lib.Numerals

/-!
# Collision-safe restore

`CollisionSafeRestore::restore`: a recovered file is copied to a temporary path
next to its original place, verified there and linked to the place, which nothing
may stand at.

The file system and the callback that cancels are the environment: each call
succeeds or fails as its answer says, and a copy that fails may have written a
part. Every call has its name (`RestoreStep`).
-/

namespace SyncPlus

open Procedure

/-! ## Names -/

def restoreTemporaryName (lossy : LossyNames) (name : Name) : Name :=
  textBytes (".syncplus-restore-".toList ++ encodeBytes (textBytes (lossy.text name)))

theorem length_textBytes (text : List Char) : text.length ≤ (textBytes text).length := by
  rw [textBytes, PathBuf.bytes_ofText, String.toList_ofList]
  show text.length ≤ (text.flatMap String.utf8EncodeChar).length
  induction text with
  | nil => exact Nat.zero_le _
  | cons c text ih =>
      have hpos : 0 < (String.utf8EncodeChar c).length := by
        rw [String.length_utf8EncodeChar]
        exact c.utf8Size_pos
      rw [List.flatMap_cons, List.length_append, List.length_cons]
      omega

/-- The temporary is not the file itself. -/
theorem restoreTemporaryName_ne (lossy : LossyNames) (name : Name) :
    restoreTemporaryName lossy name ≠ name := by
  intro h
  have htext : lossy.text name =
      ".syncplus-restore-".toList ++ encodeBytes (textBytes (lossy.text name)) := by
    conv_lhs => rw [← h]
    exact text_textBytes lossy _
  have hlength := congrArg List.length htext
  have hbytes := length_textBytes (lossy.text name)
  rw [List.length_append, length_encodeBytes] at hlength
  have hfront : ".syncplus-restore-".toList.length = 18 := by decide
  omega

/-! ## Errors, answers and names of calls -/

/-- `RestoreError`. `Verification` holds a text of its own, or that of the error of
a content proof. -/
inductive RestoreFailure where
  | invalidProvenance (reason : String)
  | collision (path : AbsolutePath) (reason : String)
  | io (kind : IoErrorKind)
  | verification (reason : String)
  | unproved (error : ItemProofError)
  | cancelled
  deriving DecidableEq

inductive RestoreOutcome where
  | restored
  | alreadyPresent
  deriving DecidableEq

structure RestoreAnswer where
  /-- Whether a link leads to an item. -/
  leads : Bool
  /-- What a path is without links. -/
  canonical : AbsolutePath
  /-- A new file or directory, whatever its content. -/
  created : FileItem
  /-- What a copy that fails has written. -/
  written : FileBytes

/-- The calls in their order. A proof is a call of its own for each of its parts. -/
inductive RestoreStep where
  | canonicalizeRoot
  | recoveredMetadata
  | recoveredProof
  | destinationMetadata
  | destinationProof
  | shouldCancel
  | ancestorExists
  | canonicalizeAncestor
  | createParent
  | temporaryMetadata
  | createTemporary
  | openRecovered
  | copy
  | syncTemporary
  | temporaryProof
  | vacantDestination
  | linkDestination
  | unlinkTemporary
  | removeTemporary
  deriving DecidableEq

/-- Nothing is noted. -/
abbrev RestoreDisk := ItemDisk AbsolutePath Empty

abbrev RestoreCall (φ α : Type) := ItemCall AbsolutePath Empty RestoreStep RestoreAnswer φ α

/-! ## Calls -/

namespace CollisionSafeRestore

def canonicalizeRoot (root : AbsolutePath) : RestoreCall RestoreFailure AbsolutePath :=
  (ItemCall.fsCall .canonicalizeRoot fun _ disk => .ok (root, disk)).mapError .io

def canonicalize : RestoreCall RestoreFailure AbsolutePath :=
  (ItemCall.fsCall .canonicalizeAncestor fun answer disk =>
    .ok (answer.extra.canonical, disk)).mapError .io

/-- `Path::exists`, which follows links. -/
def pathExists {φ : Type} (path : AbsolutePath) : RestoreCall φ Bool :=
  .call .ancestorExists fun answer disk =>
    (.ok (!answer.fails && (disk.files path).any fun item =>
      item.itemType ≠ .symlink || answer.extra.leads), disk)

/-- The directories on the path that are not there are made. -/
def makeDirectories (disk : RestoreDisk) (created : FileItem) (path : AbsolutePath) :
    RestoreDisk :=
  { disk with files := fun p =>
      if p <+: path ∧ disk.files p = none then some { created with content := .directory [] 0 }
      else disk.files p }

def createDirAll (path : AbsolutePath) : RestoreCall RestoreFailure Unit :=
  (ItemCall.fsCall .createParent fun answer disk =>
    if ∀ above ∈ path.inits, (disk.files above).all (fun item =>
        item.itemType = .directory || (item.itemType = .symlink && answer.extra.leads)) = true then
      .ok ((), makeDirectories disk answer.extra.created path)
    else .error .other).mapError .io

def createNewFile (path : AbsolutePath) : RestoreCall RestoreFailure Unit :=
  (ItemCall.fsCall .createTemporary fun answer disk =>
    match disk.files path with
    | some _ => .error .alreadyExists
    | none =>
        .ok ((), disk.set path
          (some { answer.extra.created with content := .file .empty }))).mapError .io

/-- Open the recovered file. -/
def openRecovered (recovered : AbsolutePath) : RestoreCall RestoreFailure Unit :=
  (ItemCall.fsCall .openRecovered fun _ disk =>
    match disk.files recovered with
    | some _ => .ok ((), disk)
    | none => .error .notFound).mapError .io

/-- Write to an open file. -/
def writeFile (disk : RestoreDisk) (path : AbsolutePath) (modified : Int) (bytes : FileBytes) :
    RestoreDisk :=
  disk.set path ((disk.files path).map fun item => { item with content := .file bytes, modified })

/-- `io::copy` between the two open files. -/
def copyFile (recovered temporary : AbsolutePath) : RestoreCall RestoreFailure Unit :=
  .call .copy fun answer disk =>
    if answer.fails then
      (.error (.io .other),
        writeFile disk temporary answer.extra.created.modified answer.extra.written)
    else
      match disk.files recovered with
      | some { content := .file bytes, .. } =>
          (.ok (), writeFile disk temporary answer.extra.created.modified bytes)
      | _ => (.error (.io .other), disk)

def syncAll : RestoreCall RestoreFailure Unit :=
  (ItemCall.fsCall .syncTemporary fun _ disk => .ok ((), disk)).mapError .io

def hardLink (original link : AbsolutePath) : RestoreCall IoErrorKind Unit :=
  ItemCall.fsCall .linkDestination fun _ disk =>
    match disk.files original, disk.files link with
    | some item, none => .ok ((), disk.set link (some item))
    | some _, some _ => .error .alreadyExists
    | none, _ => .error .notFound

def removeFile (label : RestoreStep) (path : AbsolutePath) : RestoreCall IoErrorKind Unit :=
  ItemCall.fsCall label fun _ disk =>
    match disk.files path with
    | some item => if item.itemType = .directory then .error .other else .ok ((), disk.set path none)
    | none => .error .notFound

/-- When the part fails, try to remove the temporary. -/
def orRemoveTemporary {α : Type} (temporary : AbsolutePath) (p : RestoreCall RestoreFailure α) :
    RestoreCall RestoreFailure α := do
  match ← p.attempt with
  | .ok a => return a
  | .error e =>
      let _ ← (removeFile .removeTemporary temporary).attempt
      Procedure.ofExcept (.error e)

end CollisionSafeRestore

/-! ## The restore -/

namespace RecoveryProvenance

def destinationPath (root : AbsolutePath) (provenance : RecoveryProvenance) : AbsolutePath :=
  root ++ namesOf provenance.relativePath

/-- `root` is what the original root is without links. -/
def destination (root : AbsolutePath) (provenance : RecoveryProvenance) :
    RestoreCall RestoreFailure AbsolutePath := do
  let root ← CollisionSafeRestore.canonicalizeRoot root
  Procedure.ofExcept (ensure (root <+: provenance.destinationPath root)
    (.invalidProvenance "recovery path escapes its original peer root"))
  return provenance.destinationPath root

end RecoveryProvenance

namespace CollisionSafeRestore

/-- The loop of `ensure_parent_within_root`: the nearest path above that exists. The
names of the path are given last to first. -/
def existingAncestor : List Name → RestoreCall RestoreFailure AbsolutePath
  | [] => do
      let found ← pathExists []
      if found then return []
      else Procedure.ofExcept (.error (.invalidProvenance "destination parent is unavailable"))
  | name :: above => do
      let found ← pathExists (above.reverse ++ [name])
      if found then return above.reverse ++ [name] else existingAncestor above

def ensureParentWithinRoot (root parent : AbsolutePath) : RestoreCall RestoreFailure Unit := do
  let root ← canonicalizeRoot root
  let _ ← existingAncestor parent.reverse
  let canonical ← canonicalize
  Procedure.ofExcept (ensure (root <+: canonical)
    (.invalidProvenance "destination parent escapes its original peer root"))

def installWithoutReplacement (temporary destination : AbsolutePath) :
    RestoreCall RestoreFailure Unit := do
  (hardLink temporary destination).mapError fun
    | .alreadyExists => .collision destination
        "destination appeared during restore; no overwrite was performed"
    | kind => .io kind
  (removeFile .unlinkTemporary temporary).mapError .io

section

variable (lossy : LossyNames) (sha256 : List UInt8 → Sha256)

/-- The recovered item is the file that was removed. -/
def verifyRecovered (recovered : AbsolutePath) (provenance : RecoveryProvenance) :
    RestoreCall RestoreFailure ContentProof := do
  let item ← (ItemCall.symlinkMetadata .recoveredMetadata recovered).mapError .io
  Procedure.ofExcept (ensure (provenance.itemType = .regularFile ∧ item.itemType = .regularFile)
    (.verification "only regular-file restore is supported and the recovered item type must match provenance"))
  let expected ← Procedure.ofExcept (orError provenance.content
    (.invalidProvenance "regular-file recovery is missing its content verification proof"))
  let actual ← (ContentProof.fromPathWithCancel sha256 .recoveredProof false recovered).mapError
    .unproved
  Procedure.ofExcept (ensure (expected = actual)
    (.verification "recovered content does not match provenance"))
  return expected

def hasContent (destination : AbsolutePath) (expected : ContentProof) (existing : FileItem) :
    RestoreCall RestoreFailure Bool := do
  if existing.itemType = .regularFile then
    let actual ← (ContentProof.fromPathWithCancel sha256 .destinationProof false
      destination).mapError .unproved
    return decide (expected = actual)
  else return false

/-- The item that stands at the destination has the content already, or the restore
is refused. -/
def matchExisting (destination : AbsolutePath) (expected : ContentProof) (existing : FileItem) :
    RestoreCall RestoreFailure RestoreOutcome := do
  let present ← hasContent sha256 destination expected existing
  Procedure.ofExcept (ensure (present = true) (.collision destination
    "destination is newer, different, or lacks matching proof; no overwrite was performed"))
  return .alreadyPresent

/-- From the copy on, the temporary is the restore's own. -/
def copyAndInstall (recovered destination temporary : AbsolutePath) (expected : ContentProof) :
    RestoreCall RestoreFailure RestoreOutcome := do
  openRecovered recovered
  orRemoveTemporary temporary (copyFile recovered temporary)
  orRemoveTemporary temporary syncAll
  let proof ← (ContentProof.fromPathWithCancel sha256 .temporaryProof false temporary).mapError
    .unproved
  orRemoveTemporary temporary (Procedure.ofExcept (ensure (expected = proof)
    (.verification "temporary restore content changed before installation")))
  orRemoveTemporary temporary do
    match ← (ItemCall.symlinkMetadata .vacantDestination destination).attempt with
    | .ok _ => Procedure.ofExcept (.error (.collision destination
        "destination appeared during restore; no overwrite was performed"))
    | .error _ => return ()
  orRemoveTemporary temporary (installWithoutReplacement temporary destination)
  return .restored

def restoreVacant (root recovered destination : AbsolutePath) (expected : ContentProof) :
    RestoreCall RestoreFailure RestoreOutcome := do
  let cancelled ← ItemCall.shouldCancel .shouldCancel
  Procedure.ofExcept (ensure (cancelled = false) .cancelled)
  let parent ← Procedure.ofExcept (orError destination.parent
    (.invalidProvenance "destination has no parent"))
  ensureParentWithinRoot root parent
  createDirAll parent
  ensureParentWithinRoot root parent
  let name ← Procedure.ofExcept (orError destination.fileName
    (.invalidProvenance "destination has no name"))
  let temporary := parent ++ [restoreTemporaryName lossy name]
  match ← (ItemCall.symlinkMetadata .temporaryMetadata temporary).attempt with
  | .ok _ => Procedure.ofExcept (.error (.collision temporary
      "restore temporary path already exists"))
  | .error _ => do
      createNewFile temporary
      copyAndInstall sha256 recovered destination temporary expected

def restore (root recovered : AbsolutePath) (provenance : RecoveryProvenance) :
    RestoreCall RestoreFailure RestoreOutcome := do
  Procedure.ofExcept (ensure (ValidRelativePath provenance.relativePath)
    (.invalidProvenance "original path must be a non-empty normalized relative path"))
  Procedure.ofExcept (ensure (provenance.verificationState = .verified) (.invalidProvenance
    "recovery provenance is not independently verified and remains in Recovery Review"))
  let destination ← provenance.destination root
  let expected ← verifyRecovered sha256 recovered provenance
  match ← (ItemCall.symlinkMetadata .destinationMetadata destination).attempt with
  | .ok existing => matchExisting sha256 destination expected existing
  | .error .notFound => restoreVacant lossy sha256 root recovered destination expected
  | .error kind => Procedure.ofExcept (.error (.io kind))

end

end CollisionSafeRestore

end SyncPlus
