import SyncPlus.Lib.Numerals
import SyncPlus.Lib.Texts
import SyncPlus.RecoveryPaths

/-!
# Recovery sidecars

The record of a recovered item's origin: twelve lines `field=value` and a last line with
the SHA-256 of what stands before it. Texts and paths are written in hexadecimal and
numbers in decimal, so no value holds the end of a line, and an absent value is an empty
one. The reader finds the last line by its key, compares the hash, and only then reads the
fields.

The hash is a parameter: it is computed by a library.
-/

namespace SyncPlus

/-! ## The fields -/

inductive SidecarField where
  | actionId
  | peer
  | root
  | relative
  | runId
  | removedAtUnixNanos
  | recoveryMethod
  | verificationState
  | itemType
  | content
  | sourceIdentity
  | symlinkTarget
  deriving DecidableEq

namespace SidecarField

def key : SidecarField → List Char
  | actionId => "action_id".toList
  | peer => "peer_hex".toList
  | root => "root_hex".toList
  | relative => "relative_hex".toList
  | runId => "run_id".toList
  | removedAtUnixNanos => "removed_at_unix_nanos".toList
  | recoveryMethod => "recovery_method".toList
  | verificationState => "verification_state".toList
  | itemType => "item_type".toList
  | content => "content".toList
  | sourceIdentity => "source_identity".toList
  | symlinkTarget => "symlink_target_hex".toList

/-- The fields in the order they are written. -/
def all : List SidecarField :=
  [actionId, peer, root, relative, runId, removedAtUnixNanos, recoveryMethod, verificationState,
    itemType, content, sourceIdentity, symlinkTarget]

def ofKey (key : List Char) : Option SidecarField := all.find? fun field => field.key = key

end SidecarField

def checksumKey : List Char := "checksum=".toList

def encodeString (value : String) : List Char := encodeBytes (PathBuf.ofText value).bytes

def encodePath (path : PathBuf) : List Char := encodeBytes path.bytes

def sidecarMethod : DeletionMethod → List Char
  | .trash => "trash".toList
  | .permanentRemoval => "permanent_removal".toList

def sidecarState : RecoveryVerificationState → List Char
  | .verified => "verified".toList
  | .reviewRequired => "review_required".toList
  | .unverified => "unverified".toList

def sidecarItemType : ItemType → List Char
  | .regularFile => "regular_file".toList
  | .directory => "directory".toList
  | .symlink => "symlink".toList
  | .unsupported => "unsupported".toList

def sidecarContent (proof : ContentProof) : List Char :=
  decimal proof.size.toNat ++ ':' :: encodeBytes proof.sha256.toList

def sidecarIdentity (identity : FileIdentity) : List Char :=
  decimal identity.device.toNat ++ ':' :: decimal identity.inode.toNat

/-! ## Writing -/

section

variable (sha256 : Blob → Sha256)

def digestText (value : List Char) : List Char := encodeBytes (sha256 (textBytes value)).toList

/-- The last line of a file with this payload. -/
def checksumLine (payload : List Char) : List Char :=
  checksumKey ++ digestText sha256 payload ++ ['\n']

def sealed (payload : List Char) : List Char := payload ++ checksumLine sha256 payload

namespace RecoveryProvenance

def sidecarValue (provenance : RecoveryProvenance) : SidecarField → List Char
  | .actionId => (provenance.actionId.map fun id => decimal id.toNat).getD []
  | .peer => encodeString provenance.peer
  | .root => encodePath provenance.originalRoot
  | .relative => encodePath provenance.relativePath
  | .runId => decimal provenance.runId.value.toNat
  | .removedAtUnixNanos => signedDecimal provenance.removedAtUnixNanos.toInt
  | .recoveryMethod => sidecarMethod provenance.recoveryMethod
  | .verificationState => sidecarState provenance.verificationState
  | .itemType => sidecarItemType provenance.itemType
  | .content => (provenance.content.map sidecarContent).getD []
  | .sourceIdentity => (provenance.sourceIdentity.map sidecarIdentity).getD []
  | .symlinkTarget => (provenance.symlinkTarget.map encodePath).getD []

def sidecarLine (provenance : RecoveryProvenance) (field : SidecarField) : List Char :=
  field.key ++ '=' :: provenance.sidecarValue field

def sidecarPayload (provenance : RecoveryProvenance) : List Char :=
  SidecarField.all.flatMap fun field => provenance.sidecarLine field ++ ['\n']

/-- What the file of a provenance holds. -/
def sidecarBytes (provenance : RecoveryProvenance) : Blob :=
  textBytes (sealed sha256 provenance.sidecarPayload)

end RecoveryProvenance

/-- The files of the disk. -/
abbrev SidecarFiles := AbsolutePath → Option Blob

/-- The file is created new, or a call fails. -/
def RecoveryProvenance.writeSidecar (provenance : RecoveryProvenance) (path : AbsolutePath)
    (failed : Option String) (files : SidecarFiles) : Except RestoreError SidecarFiles :=
  match failed, files path with
  | some reason, _ => .error (.io reason)
  | none, some _ => .error (.io "File exists (os error 17)")
  | none, none => .ok (Function.update files path (some (provenance.sidecarBytes sha256)))

def RecoveryProvenance.writeSidecarFor (provenance : RecoveryProvenance)
    (recovered : AbsolutePath) (failed : Option String) (files : SidecarFiles) :
    Except RestoreError (AbsolutePath × SidecarFiles) := do
  let path := sidecarPath recovered
  let files ← provenance.writeSidecar sha256 path failed files
  return (path, files)

/-! ## Reading -/

abbrev SidecarValues := List (SidecarField × List Char)

/-- The loop over the lines of the payload. -/
def collectValues : List (List Char) → SidecarValues → Except RestoreError SidecarValues
  | [], values => .ok values
  | line :: lines, values => do
      let (key, value) ← orError (splitOnce ['='] line)
        (.sidecarInvalid "sidecar field is malformed")
      let field ← orError (SidecarField.ofKey key)
        (.sidecarInvalid "sidecar has an unknown or duplicate field")
      ensure (values.lookup field = none)
        (.sidecarInvalid "sidecar has an unknown or duplicate field")
      collectValues lines (values ++ [(field, value)])

def decodeBytes (value : List Char) : Except RestoreError Blob := do
  ensure (value.length % 2 = 0 ∧ value.all isHexDigit)
    (.sidecarInvalid "encoded sidecar value is invalid")
  orError (parsePairs value) (.sidecarInvalid "encoded sidecar value is invalid")

def decodeString (value : List Char) : Except RestoreError String := do
  let bytes ← decodeBytes value
  orError (PathBuf.toText ⟨bytes⟩) (.sidecarInvalid "peer is not valid UTF-8")

def decodePath (value : List Char) : Except RestoreError PathBuf :=
  (decodeBytes value).map PathBuf.mk

def parseU64 (value : List Char) : Option UInt64 := (parseUnsigned (2 ^ 64) value).map UInt64.ofNat

def parseI64 (value : List Char) : Option Int64 := (parseSigned (2 ^ 63) value).map Int64.ofInt

def decodeSidecarMethod (value : List Char) : Except RestoreError DeletionMethod :=
  orError ([DeletionMethod.trash, .permanentRemoval].find? fun method =>
    sidecarMethod method = value) (.sidecarInvalid "recovery method is invalid")

def decodeSidecarState (value : List Char) : Except RestoreError RecoveryVerificationState :=
  orError ([RecoveryVerificationState.verified, .reviewRequired, .unverified].find? fun state =>
    sidecarState state = value) (.sidecarInvalid "verification state is invalid")

def parseContent (value : List Char) : Except RestoreError ContentProof := do
  let (size, hash) ← orError (splitOnce [':'] value)
    (.sidecarInvalid "content proof is malformed")
  let size ← orError (parseU64 size) (.sidecarInvalid "content size is invalid")
  ensure (hash.length = 64) (.sidecarInvalid "content digest is invalid")
  let digest ← orError (parsePairs hash) (.sidecarInvalid "content digest is invalid")
  if h : digest.length = 32 then return ⟨size, ⟨digest, h⟩⟩
  else .error (.sidecarInvalid "content digest is invalid")

def parseIdentity (value : List Char) : Except RestoreError FileIdentity := do
  let (device, inode) ← orError (splitOnce [':'] value)
    (.sidecarInvalid "source identity is malformed")
  let device ← orError (parseU64 device) (.sidecarInvalid "source device is invalid")
  let inode ← orError (parseU64 inode) (.sidecarInvalid "source inode is invalid")
  return ⟨device, inode⟩

namespace SidecarValues

def required (values : SidecarValues) (field : SidecarField) (label : String) :
    Except RestoreError (List Char) :=
  orError (values.lookup field) (.sidecarInvalid (label ++ " is missing"))

/-- A value that may be empty or left out. -/
def optional {α : Type} (values : SidecarValues) (field : SidecarField)
    (decode : List Char → Except RestoreError α) : Except RestoreError (Option α) :=
  match (values.lookup field).filter fun value => !value.isEmpty with
  | none => .ok none
  | some value => (decode value).map some

end SidecarValues

/-- What `read_sidecar` makes of the fields. -/
def decodeValues (values : SidecarValues) : Except RestoreError RecoveryProvenance := do
  let actionId ← values.optional .actionId fun value =>
    orError (parseU64 value) (.sidecarInvalid "action id is invalid")
  let peer ← decodeString (← values.required .peer "peer")
  let root ← decodePath (← values.required .root "original root")
  let relative ← decodePath (← values.required .relative "relative path")
  let runId ← orError ((values.lookup .runId).bind parseU64)
    (.sidecarInvalid "run id is invalid")
  let removedAtUnixNanos ← orError ((values.lookup .removedAtUnixNanos).bind parseI64)
    (.sidecarInvalid "removal time is invalid")
  let recoveryMethod ← decodeSidecarMethod (← values.required .recoveryMethod "recovery method")
  let verificationState ← decodeSidecarState
    (← values.required .verificationState "verification state")
  let itemType ← orError ([ItemType.regularFile, .directory, .symlink, .unsupported].find?
    fun itemType => values.lookup .itemType = some (sidecarItemType itemType))
    (.sidecarInvalid "item type is invalid")
  let content ← values.optional .content parseContent
  let sourceIdentity ← values.optional .sourceIdentity parseIdentity
  let symlinkTarget ← values.optional .symlinkTarget decodePath
  ensure (itemType = .symlink → symlinkTarget.isSome)
    (.sidecarInvalid "symlink recovery provenance is missing its target")
  (RecoveryProvenance.fromRecordWithDetails actionId peer root relative ⟨runId⟩
    removedAtUnixNanos recoveryMethod verificationState itemType content sourceIdentity
    symlinkTarget).mapError fun error => .sidecarInvalid error.text

/-- `read_sidecar`, of the text of the file. -/
def readContents (contents : List Char) : Except RestoreError RecoveryProvenance := do
  let (before, value) ← orError (splitLast ('\n' :: checksumKey) contents)
    (.sidecarInvalid "checksum is missing")
  let payload := before ++ ['\n']
  let checksum ← orError (if value.getLast? = some '\n' then some value.dropLast else none)
    (.sidecarInvalid "sidecar is malformed")
  ensure (checksum.length = 64 ∧ checksum.all isHexDigit ∧ digestText sha256 payload = checksum)
    (.sidecarInvalid "sidecar integrity check failed")
  let values ← collectValues (linesOf '\n' '\r' payload) []
  decodeValues values

def readBytes (bytes : Blob) : Except RestoreError RecoveryProvenance := do
  let contents ← orError (PathBuf.toText ⟨bytes⟩)
    (.io "stream did not contain valid UTF-8")
  readContents sha256 contents.toList

def RecoveryProvenance.readSidecar (path : AbsolutePath) (failed : Option String)
    (files : SidecarFiles) : Except RestoreError RecoveryProvenance :=
  match failed, files path with
  | some reason, _ => .error (.io reason)
  | none, none => .error (.sidecarInvalid "recovery provenance sidecar is missing")
  | none, some bytes => readBytes sha256 bytes

end

end SyncPlus
