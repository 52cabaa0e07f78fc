import SyncPlus.ProfileColumns
import SyncPlus.RunSnapshot

/-!
# Snapshot rows

A run freezes its snapshot in one row and the rows of its exclusions, and
reads it back when it is resumed or launched. The reader checks the
profile once more, on the file system and by the clock of the time it
reads.

The row keeps everything but the part of the retry delay below a
millisecond, which `as_millis` drops.
-/

namespace SyncPlus

/-! ## Volume identities -/

/-- `to_le_bytes`, for so many bytes. -/
def leBytes : Nat → Nat → List UInt8
  | 0, _ => []
  | k + 1, n => .ofNat (n % 256) :: leBytes k (n / 256)

def ofLeBytes : List UInt8 → Nat
  | [] => 0
  | byte :: bytes => byte.toNat + 256 * ofLeBytes bytes

@[simp] theorem length_leBytes (k n : Nat) : (leBytes k n).length = k := by
  induction k generalizing n with
  | zero => rfl
  | succ k ih => simp [leBytes, ih]

theorem ofLeBytes_leBytes (k n : Nat) : ofLeBytes (leBytes k n) = n % 256 ^ k := by
  induction k generalizing n with
  | zero => simp [leBytes, ofLeBytes, Nat.mod_one]
  | succ k ih =>
      have hbyte : (UInt8.ofNat (n % 256)).toNat = n % 256 := by
        simp [UInt8.toNat_ofNat']
      simp only [leBytes, ofLeBytes, ih, hbyte]
      rw [Nat.pow_succ, Nat.mul_comm (256 ^ k), Nat.mod_mul]

def volumeIdentityToBlob (identity : VolumeIdentity) : Blob :=
  leBytes 8 identity.device.toNat

def decodeVolumeIdentity : Option Blob → Except StorageError (Option VolumeIdentity)
  | none => .ok none
  | some bytes => do
      ensure (bytes.length = 8)
        (.corruptEvidence "volume identity must contain an 8-byte device number")
      return some ⟨.ofNat (ofLeBytes bytes)⟩

@[simp] theorem decodeVolumeIdentity_toBlob (identity : Option VolumeIdentity) :
    decodeVolumeIdentity (identity.map volumeIdentityToBlob) = .ok identity := by
  rcases identity with _ | ⟨⟨device⟩⟩
  · rfl
  · have hdevice : UInt64.ofNat (ofLeBytes (leBytes 8 device.toNat)) = device := by
      rw [ofLeBytes_leBytes, Nat.mod_eq_of_lt (by have := device.toNat_lt; omega),
        UInt64.ofNat_toNat]
    simp [decodeVolumeIdentity, volumeIdentityToBlob, hdevice, ensure, pure, Except.pure]

/-! ## Rows -/

/-- A row of `run_snapshots` with its exclusions in their order. -/
structure SnapshotRow where
  runId : Int
  snapshotId : Int
  profileName : String
  peerA : PeerColumns
  peerB : PeerColumns
  peerAVolumeIdentity : Option Blob
  peerBVolumeIdentity : Option Blob
  mode : String
  source : String
  options : OptionColumns
  allowUnattendedDestructive : Int
  allowUnattendedPermanentRemoval : Int
  createdAtUnixSeconds : Int
  exclusions : List String
  deriving DecidableEq

/-- The row of a snapshot, as `begin_run_in_transaction` inserts it. -/
def SnapshotRow.ofSnapshot (snapshot : RunSnapshot) : Except StorageError SnapshotRow := do
  let options := snapshot.validatedOptions.toSyncOptions
  let delay := UInt64.ofNat options.retryPolicy.initialDelay.asMillis
  bindU64 snapshot.runId.value
  bindU64 snapshot.snapshotId
  bindU64 delay
  bindOptU64 options.bandwidthLimitKibPerSecond
  ensure (0 ≤ snapshot.createdAtUnixSeconds.toInt) (.sqlite .constraintViolation)
  ensure (options.bandwidthLimitKibPerSecond.all
      (fun limit => 1 ≤ limit ∧ limit ≤ 4000000) = true)
    (.sqlite .constraintViolation)
  return {
    runId := snapshot.runId.value.toNat
    snapshotId := snapshot.snapshotId.toNat
    profileName := snapshot.profile.name
    peerA := .ofPeer snapshot.profile.peerA
    peerB := .ofPeer snapshot.profile.peerB
    peerAVolumeIdentity := snapshot.peerAVolumeIdentity.map volumeIdentityToBlob
    peerBVolumeIdentity := snapshot.peerBVolumeIdentity.map volumeIdentityToBlob
    mode := encodeSyncMode snapshot.profile.mode
    source := encodeSource snapshot.profile.source
    options := .ofOptions options delay.toNat
      (optColumn (options.bandwidthLimitKibPerSecond.map UInt64.toNat))
    allowUnattendedDestructive := boolColumn snapshot.authorizations.allowUnattendedDestructive
    allowUnattendedPermanentRemoval :=
      boolColumn snapshot.authorizations.allowUnattendedPermanentRemoval
    createdAtUnixSeconds := snapshot.createdAtUnixSeconds.toInt
    exclusions := snapshot.profile.exclusions }

theorem SnapshotRow.ofSnapshot_runId {snapshot : RunSnapshot} {row : SnapshotRow}
    (h : ofSnapshot snapshot = .ok row) : row.runId = snapshot.runId.value.toNat := by
  unfold ofSnapshot at h
  obtain ⟨-, h⟩ := unit_bind_eq_ok.mp h
  obtain ⟨-, h⟩ := unit_bind_eq_ok.mp h
  obtain ⟨-, h⟩ := unit_bind_eq_ok.mp h
  obtain ⟨-, h⟩ := unit_bind_eq_ok.mp h
  obtain ⟨-, h⟩ := ensure_bind_eq_ok.mp h
  obtain ⟨-, h⟩ := ensure_bind_eq_ok.mp h
  cases h
  rfl

/-- `row.get` for an unsigned type of so many bits. -/
def readUnsigned (bits column : Nat) (v : Int) : Except StorageError Nat :=
  orError (tryUnsigned bits v) (.sqlite (.integralValueOutOfRange column (.ofInt v)))

def readOptUnsigned (bits column : Nat) : Option Int → Except StorageError (Option Nat)
  | none => .ok none
  | some v => (readUnsigned bits column v).map some

/-- The options of a snapshot. The numbers were read with the row. -/
def OptionColumns.decodeSnapshot (raw : OptionColumns) (maxAttempts delay : Nat)
    (bandwidthLimit : Option Nat) : Except StorageError SyncOptions := do
  let deletionMethod ← raw.deletionMethod.mapM decodeDeletionMethod
  let partialTransferPolicy ← orError (decodePartialTransferPolicy raw.partialTransferPolicy)
    (.corruptEvidence ("unsupported partial transfer policy " ++ raw.partialTransferPolicy))
  return {
    safeDelete := readBool raw.safeDelete
    destinationCleanup := readBool raw.destinationCleanup
    deletionMethod
    metadata := {
      fileType := readBool raw.metadataFileType
      executablePermissions := readBool raw.metadataExecutablePermissions
      symlinkTargets := readBool raw.metadataSymlinkTargets
      timestamps := readBool raw.metadataTimestamps
      specialist := {
        ownership := readBool raw.metadataOwnership
        accessControlLists := readBool raw.metadataAccessControlLists
        extendedAttributes := readBool raw.metadataExtendedAttributes } }
    partialTransferPolicy
    retryPolicy := { maxAttempts := .ofNat maxAttempts, initialDelay := .fromMillis delay }
    bandwidthLimitKibPerSecond := bandwidthLimit.map UInt64.ofNat }

/-- `load_snapshot`, for a row that exists. -/
def SnapshotRow.load (env : Environment) (lossy : LossyText) (runId : RunId)
    (row : SnapshotRow) : Except StorageError RunSnapshot := do
  let snapshotId ← readUnsigned 64 0 row.snapshotId
  let _ ← readOptUnsigned 16 14 row.peerA.port
  let _ ← readOptUnsigned 16 20 row.peerB.port
  let maxAttempts ← readUnsigned 8 35 row.options.retryMaxAttempts
  let delay ← readUnsigned 64 36 row.options.retryInitialDelayMillis
  let bandwidthLimit ← readOptUnsigned 64 38 row.options.bandwidthLimitKibPerSecond
  let peerA ← decodeSnapshotPeer lossy row.peerA
  let peerB ← decodeSnapshotPeer lossy row.peerB
  let mode ← orError (decodeSyncMode row.mode)
    (.corruptEvidence ("unsupported stored sync mode " ++ row.mode))
  let source ← orError (decodeSource row.source)
    (.corruptEvidence ("unknown source " ++ row.source))
  let options ← row.options.decodeSnapshot maxAttempts delay bandwidthLimit
  let peerAVolumeIdentity ← decodeVolumeIdentity row.peerAVolumeIdentity
  let peerBVolumeIdentity ← decodeVolumeIdentity row.peerBVolumeIdentity
  let snapshot ← RunSnapshot.fromProfileWithVolumeIdentities env runId
    { name := row.profileName
      peerA, peerB, mode, source, options
      exclusions := row.exclusions }
    { allowUnattendedDestructive := readBool row.allowUnattendedDestructive
      allowUnattendedPermanentRemoval := readBool row.allowUnattendedPermanentRemoval }
    peerAVolumeIdentity peerBVolumeIdentity
  return { snapshot with
    snapshotId := .ofNat snapshotId
    createdAtUnixSeconds := .ofInt row.createdAtUnixSeconds }

end SyncPlus
