import SyncPlus.Columns
import SyncPlus.Profile

/-!
# Profile columns

How the values of a profile are written to columns. Two tables hold them:
the profiles themselves, and the snapshots that runs freeze. They are
written alike and read back by readers of their own, which refuse
different things.

Every value comes back as it was written, except one. A retry delay is
written in whole milliseconds, so that `SyncOptions.stored` is what the
columns keep of the options.
-/

namespace SyncPlus

/-! ## Integers -/

/-- `try_from` to an unsigned type of so many bits. -/
def tryUnsigned (bits : Nat) (v : Int) : Option Nat :=
  if 0 ≤ v ∧ v.toNat < 2 ^ bits then some v.toNat else none

theorem tryUnsigned_ofNat {bits n : Nat} (h : n < 2 ^ bits) :
    tryUnsigned bits n = some n := by
  simp [tryUnsigned, h]

/-- `i64::try_from(n).unwrap_or(i64::MAX)`. -/
def saturateI64 (n : Nat) : Int := if n < 2 ^ 63 then n else (2 ^ 63 - 1 : Nat)

theorem saturateI64_of_fits {n : Nat} (h : n < 2 ^ 63) : saturateI64 n = n :=
  if_pos h

/-- An optional number in its column. -/
def optColumn (n : Option Nat) : Option Int := n.map Int.ofNat

def boolColumn (b : Bool) : Int := if b then 1 else 0

def corruptProfile : StorageError := .corruptEvidence "corrupt Sync Profile record"

def decodeProfileBool (v : Int) : Except StorageError Bool :=
  if v = 0 then .ok false else if v = 1 then .ok true else .error corruptProfile

@[simp] theorem decodeProfileBool_boolColumn (b : Bool) :
    decodeProfileBool (boolColumn b) = .ok b := by
  cases b <;> rfl

/-- `row.get::<_, bool>`. -/
def readBool (v : Int) : Bool := v ≠ 0

@[simp] theorem readBool_boolColumn (b : Bool) : readBool (boolColumn b) = b := by
  cases b <;> rfl

/-! ## Enumerations -/

def encodeSyncMode : SyncMode → String
  | .oneWay => "one_way"
  | .mirror => "mirror"

def decodeSyncMode : String → Option SyncMode
  | "one_way" => some .oneWay
  | "mirror" => some .mirror
  | _ => none

def encodeSource : OneWaySource → String
  | .peerA => "peer_a"
  | .peerB => "peer_b"

def decodeSource : String → Option OneWaySource
  | "peer_a" => some .peerA
  | "peer_b" => some .peerB
  | _ => none

def encodePartialTransferPolicy : PartialTransferPolicy → String
  | .cleanup => "cleanup"
  | .keepPartialForResume => "keep_partial_for_resume"

def decodePartialTransferPolicy : String → Option PartialTransferPolicy
  | "cleanup" => some .cleanup
  | "keep_partial_for_resume" => some .keepPartialForResume
  | _ => none

@[simp] theorem decodeSyncMode_encode (m : SyncMode) :
    decodeSyncMode (encodeSyncMode m) = some m := by
  cases m <;> rfl

@[simp] theorem decodeSource_encode (s : OneWaySource) :
    decodeSource (encodeSource s) = some s := by
  cases s <;> rfl

@[simp] theorem decodePartialTransferPolicy_encode (p : PartialTransferPolicy) :
    decodePartialTransferPolicy (encodePartialTransferPolicy p) = some p := by
  cases p <;> rfl

/-! ## Authentication -/

def encodeAuthentication : SshAuthentication → String
  | .key => "key"
  | .agent => "agent"
  | .interactivePassword => "interactive_password"
  | .savedPassword reference => "saved_password:" ++ reference.id

/-- The reader of the profiles. -/
def decodeAuthentication : Option String → Except StorageError SshAuthentication
  | some "key" => .ok .key
  | some "agent" => .ok .agent
  | some "interactive_password" => .ok .interactivePassword
  | some value => do
      let reference ← orError (stripPrefix "saved_password:" value) corruptProfile
      let reference ← orError (SavedSecretReference.new reference) corruptProfile
      return .savedPassword reference
  | none => .error corruptProfile

/-- `str::trim_start_matches`: every repetition of the prefix goes. Each one
is at least a character, so the length is enough of them. -/
def trimStartMatches (pre : List Char) : Nat → List Char → List Char
  | 0, text => text
  | n + 1, text =>
      if pre.isPrefixOf text then trimStartMatches pre n (text.drop pre.length) else text

/-- The message of `SecretReferenceError`. -/
def secretReferenceError (id : String) : String :=
  if id = "" then "saved secret reference must not be empty"
  else if 128 < id.utf8ByteSize then "saved secret reference is too long"
  else "saved secret reference contains unsupported characters"

/-- The reader of the snapshots. -/
def decodeSnapshotAuthentication : Option String → Except StorageError SshAuthentication
  | some "key" => .ok .key
  | some "agent" => .ok .agent
  | some "interactive_password" => .ok .interactivePassword
  | some value =>
      if "saved_password:".toList.isPrefixOf value.toList then do
        let id := String.ofList
          (trimStartMatches "saved_password:".toList value.toList.length value.toList)
        let reference ← orError (SavedSecretReference.new id) (.corruptEvidence
          ("invalid saved SSH secret reference in snapshot: " ++ secretReferenceError id))
        return .savedPassword reference
      else .error (.corruptEvidence ("unsupported SSH authentication " ++ value))
  | none => .error (.corruptEvidence "SSH snapshot peer has no authentication")

theorem SavedSecretReference.new_id (reference : SavedSecretReference) :
    SavedSecretReference.new reference.id = some reference :=
  dif_pos reference.valid

/-- No reference has a colon, so none repeats the prefix. -/
theorem SavedSecretReference.not_prefix (reference : SavedSecretReference) :
    "saved_password:".toList.isPrefixOf reference.id.toList = false := by
  rw [← Bool.not_eq_true, List.isPrefixOf_iff_prefix]
  intro h
  have hcolon : ':' ∈ reference.id.toList := h.subset (by decide)
  have hall := List.all_eq_true.mp reference.valid.2.2 _ hcolon
  revert hall
  decide

@[simp] theorem stripPrefix_append (pre text : String) :
    stripPrefix pre (pre ++ text) = some text := by
  simp [stripPrefix, List.isPrefixOf_iff_prefix]

theorem saved_ne (id : String) :
    "saved_password:" ++ id ≠ "key" ∧ "saved_password:" ++ id ≠ "agent" ∧
      "saved_password:" ++ id ≠ "interactive_password" := by
  refine ⟨?_, ?_, ?_⟩ <;>
  · intro h
    have := congrArg (fun s => s.toList.head?) h
    simp at this

@[simp] theorem decodeAuthentication_encode (a : SshAuthentication) :
    decodeAuthentication (some (encodeAuthentication a)) = .ok a := by
  cases a with
  | savedPassword reference =>
      obtain ⟨hkey, hagent, hinteractive⟩ := saved_ne reference.id
      simp only [encodeAuthentication]
      unfold decodeAuthentication
      split
      · simp_all
      · simp_all
      · simp_all
      · rename_i h
        cases h
        simp only [stripPrefix_append, orError_some, ok_bind, SavedSecretReference.new_id]
        rfl
      · simp_all
  | _ => rfl

theorem trimStartMatches_saved (reference : SavedSecretReference) (n : Nat) :
    trimStartMatches "saved_password:".toList (n + 1)
        ("saved_password:" ++ reference.id).toList = reference.id.toList := by
  have hstop : ∀ n, trimStartMatches "saved_password:".toList n reference.id.toList =
      reference.id.toList := by
    intro n
    cases n with
    | zero => rfl
    | succ n => simp only [trimStartMatches, reference.not_prefix, Bool.false_eq_true, if_false]
  rw [trimStartMatches, String.toList_append, if_pos (by simp),
    List.drop_left, hstop]

@[simp] theorem decodeSnapshotAuthentication_encode (a : SshAuthentication) :
    decodeSnapshotAuthentication (some (encodeAuthentication a)) = .ok a := by
  cases a with
  | savedPassword reference =>
      obtain ⟨hkey, hagent, hinteractive⟩ := saved_ne reference.id
      have hlength : ("saved_password:" ++ reference.id).toList.length =
          14 + reference.id.toList.length + 1 := by
        rw [String.toList_append, List.length_append]
        simp only [String.reduceToList, List.length_cons, List.length_nil]
        omega
      have hstarts : "saved_password:".toList.isPrefixOf
          ("saved_password:" ++ reference.id).toList = true := by
        simp
      simp only [encodeAuthentication]
      unfold decodeSnapshotAuthentication
      split
      · simp_all
      · simp_all
      · simp_all
      · rename_i h
        cases h
        rw [if_pos hstarts, hlength, trimStartMatches_saved, String.ofList_toList]
        simp only [SavedSecretReference.new_id, orError_some, ok_bind]
        rfl
      · simp_all
  | _ => rfl

/-! ## Peers -/

/-- The columns of one peer. -/
structure PeerColumns where
  name : String
  kind : String
  root : Blob
  server : Option String
  username : Option String
  port : Option Int
  identity : Option Blob
  authentication : Option String
  deriving DecidableEq

def PeerColumns.ofPeer (peer : Peer) : PeerColumns :=
  match peer.endpoint with
  | .local root => {
      name := peer.name
      kind := "local"
      root := pathToBlob root
      server := none
      username := none
      port := none
      identity := none
      authentication := none }
  | .ssh ssh => {
      name := peer.name
      kind := "ssh"
      root := pathToBlob ssh.remotePath
      server := some ssh.server
      username := some ssh.username
      port := some ssh.port.toNat
      identity := ssh.identity.map pathToBlob
      authentication := some (encodeAuthentication ssh.authentication) }

/-- The reader of the profiles. -/
def decodePeer (raw : PeerColumns) : Except StorageError Peer :=
  match raw.kind with
  | "local" => do
      ensure (raw.server = none ∧ raw.username = none ∧ raw.port = none ∧
        raw.identity = none ∧ raw.authentication = none) corruptProfile
      return ⟨raw.name, .local (blobToPath raw.root)⟩
  | "ssh" => do
      let server ← orError raw.server corruptProfile
      let username ← orError raw.username corruptProfile
      let port ← orError raw.port corruptProfile
      let port ← orError (tryUnsigned 16 port) corruptProfile
      let authentication ← decodeAuthentication raw.authentication
      let remotePath ← orError (blobToPath raw.root).toText corruptProfile
      let ssh ← (SshPeer.new server username (.ofNat port) (raw.identity.map blobToPath)
        authentication remotePath).mapError fun _ => corruptProfile
      return ⟨raw.name, .ssh ssh⟩
  | _ => .error corruptProfile

/-- `Path::to_string_lossy`: the text of a path that has one, and a repaired
text for any other path. -/
structure LossyText where
  text : PathBuf → String
  text_eq : ∀ path t, path.toText = some t → text path = t

/-- The reader of the snapshots. -/
def decodeSnapshotPeer (lossy : LossyText) (raw : PeerColumns) :
    Except StorageError Peer :=
  match raw.kind with
  | "local" => .ok ⟨raw.name, .local (blobToPath raw.root)⟩
  | "ssh" => do
      let server ← orError raw.server (.corruptEvidence "SSH snapshot peer has no server")
      let username ← orError raw.username
        (.corruptEvidence "SSH snapshot peer has no username")
      let port ← orError raw.port (.corruptEvidence "SSH snapshot peer has no port")
      let authentication ← decodeSnapshotAuthentication raw.authentication
      let ssh ← (SshPeer.new server username (.ofNat port.toNat)
        (raw.identity.map blobToPath) authentication
        (lossy.text (blobToPath raw.root))).mapError fun error =>
          .corruptEvidence ("invalid SSH peer in run snapshot: " ++ error.text)
      return ⟨raw.name, .ssh ssh⟩
  | value => .error (.corruptEvidence ("unsupported snapshot endpoint kind " ++ value))

@[simp] theorem map_blobToPath_pathToBlob (path : Option PathBuf) :
    path.map (blobToPath ∘ pathToBlob) = path := by
  cases path <;> rfl

@[simp] theorem decodePeer_ofPeer (peer : Peer) : decodePeer (.ofPeer peer) = .ok peer := by
  rcases peer with ⟨name, root | ssh⟩
  · rfl
  · obtain ⟨text, htext⟩ := ssh.toText_remotePath
    have hnew := ssh.new_self htext
    have hlt := ssh.port.toNat_lt
    have hport : tryUnsigned 16 ssh.port.toNat = some ssh.port.toNat :=
      tryUnsigned_ofNat (by omega)
    simp [decodePeer, PeerColumns.ofPeer, hport, htext, hnew, Except.mapError, pure,
      Except.pure]

@[simp] theorem decodeSnapshotPeer_ofPeer (lossy : LossyText) (peer : Peer) :
    decodeSnapshotPeer lossy (.ofPeer peer) = .ok peer := by
  rcases peer with ⟨name, root | ssh⟩
  · rfl
  · obtain ⟨text, htext⟩ := ssh.toText_remotePath
    have hnew := ssh.new_self htext
    simp [decodeSnapshotPeer, PeerColumns.ofPeer, lossy.text_eq _ _ htext, hnew,
      Except.mapError, pure, Except.pure]

/-! ## Options -/

/-- The columns of the options. -/
structure OptionColumns where
  safeDelete : Int
  destinationCleanup : Int
  deletionMethod : Option String
  metadataFileType : Int
  metadataExecutablePermissions : Int
  metadataSymlinkTargets : Int
  metadataTimestamps : Int
  metadataOwnership : Int
  metadataAccessControlLists : Int
  metadataExtendedAttributes : Int
  partialTransferPolicy : String
  retryMaxAttempts : Int
  retryInitialDelayMillis : Int
  bandwidthLimitKibPerSecond : Option Int
  deriving DecidableEq

/-- The columns, with the two numbers that each table binds its own way. -/
def OptionColumns.ofOptions (options : SyncOptions) (retryInitialDelayMillis : Int)
    (bandwidthLimitKibPerSecond : Option Int) : OptionColumns where
  safeDelete := boolColumn options.safeDelete
  destinationCleanup := boolColumn options.destinationCleanup
  deletionMethod := options.deletionMethod.map encodeDeletionMethod
  metadataFileType := boolColumn options.metadata.fileType
  metadataExecutablePermissions := boolColumn options.metadata.executablePermissions
  metadataSymlinkTargets := boolColumn options.metadata.symlinkTargets
  metadataTimestamps := boolColumn options.metadata.timestamps
  metadataOwnership := boolColumn options.metadata.specialist.ownership
  metadataAccessControlLists := boolColumn options.metadata.specialist.accessControlLists
  metadataExtendedAttributes := boolColumn options.metadata.specialist.extendedAttributes
  partialTransferPolicy := encodePartialTransferPolicy options.partialTransferPolicy
  retryMaxAttempts := options.retryPolicy.maxAttempts.toNat
  retryInitialDelayMillis
  bandwidthLimitKibPerSecond

section

variable (options : SyncOptions) (millis : Int) (limit : Option Int)

@[simp] theorem OptionColumns.ofOptions_retryMaxAttempts :
    (ofOptions options millis limit).retryMaxAttempts =
      options.retryPolicy.maxAttempts.toNat := rfl

@[simp] theorem OptionColumns.ofOptions_retryInitialDelayMillis :
    (ofOptions options millis limit).retryInitialDelayMillis = millis := rfl

@[simp] theorem OptionColumns.ofOptions_bandwidthLimitKibPerSecond :
    (ofOptions options millis limit).bandwidthLimitKibPerSecond = limit := rfl

end

/-- The columns in the table of the profiles. -/
def OptionColumns.ofProfile (options : SyncOptions) : OptionColumns :=
  .ofOptions options (saturateI64 options.retryPolicy.initialDelay.asMillis)
    (options.bandwidthLimitKibPerSecond.map fun limit => saturateI64 limit.toNat)

/-- The reader of the profiles. -/
def OptionColumns.decodeProfile (raw : OptionColumns) : Except StorageError SyncOptions := do
  let safeDelete ← decodeProfileBool raw.safeDelete
  let destinationCleanup ← decodeProfileBool raw.destinationCleanup
  let deletionMethod ← (raw.deletionMethod.mapM decodeDeletionMethod).mapError
    fun _ => corruptProfile
  let fileType ← decodeProfileBool raw.metadataFileType
  let executablePermissions ← decodeProfileBool raw.metadataExecutablePermissions
  let symlinkTargets ← decodeProfileBool raw.metadataSymlinkTargets
  let timestamps ← decodeProfileBool raw.metadataTimestamps
  let ownership ← decodeProfileBool raw.metadataOwnership
  let accessControlLists ← decodeProfileBool raw.metadataAccessControlLists
  let extendedAttributes ← decodeProfileBool raw.metadataExtendedAttributes
  let partialTransferPolicy ←
    orError (decodePartialTransferPolicy raw.partialTransferPolicy) corruptProfile
  let maxAttempts ← orError (tryUnsigned 8 raw.retryMaxAttempts) corruptProfile
  let initialDelay ← orError (tryUnsigned 64 raw.retryInitialDelayMillis) corruptProfile
  let bandwidthLimit ←
    orError (raw.bandwidthLimitKibPerSecond.mapM (tryUnsigned 64)) corruptProfile
  return {
    safeDelete, destinationCleanup, deletionMethod
    metadata := {
      fileType, executablePermissions, symlinkTargets, timestamps
      specialist := { ownership, accessControlLists, extendedAttributes } }
    partialTransferPolicy
    retryPolicy := {
      maxAttempts := .ofNat maxAttempts
      initialDelay := .fromMillis initialDelay }
    bandwidthLimitKibPerSecond := bandwidthLimit.map UInt64.ofNat }

/-- What the columns keep of options: the delay to the millisecond. -/
def SyncOptions.stored (options : SyncOptions) : SyncOptions :=
  { options with
    retryPolicy := {
      options.retryPolicy with
      initialDelay := .fromMillis options.retryPolicy.initialDelay.asMillis } }

theorem SyncOptions.stored_eq_self {options : SyncOptions} :
    options.stored = options ↔ options.retryPolicy.initialDelay.IsWholeMillis := by
  rw [← Duration.fromMillis_asMillis]
  constructor
  · intro h
    exact congrArg (·.retryPolicy.initialDelay) h
  · intro h
    rcases options with ⟨_, _, _, _, _, ⟨_, _⟩, _⟩
    simp only [stored] at h ⊢
    rw [h]

/-- The profile with its options as their columns keep them. -/
def SyncProfile.stored (profile : SyncProfile) : SyncProfile :=
  { profile with options := profile.options.stored }

theorem SyncProfile.stored_eq_self {profile : SyncProfile} :
    profile.stored = profile ↔
      profile.options.retryPolicy.initialDelay.IsWholeMillis := by
  rw [← SyncOptions.stored_eq_self]
  constructor
  · intro h
    exact congrArg (fun p => p.options) h
  · intro h
    rw [stored, h]

/-- What the checks of the options say of their numbers. -/
theorem SyncOptions.check_bounds {options : SyncOptions} (h : options.check = .ok ()) :
    options.retryPolicy.initialDelay.nanos ≤ 3600000000000 ∧
      ∀ limit ∈ options.bandwidthLimitKibPerSecond, 1 ≤ limit ∧ limit ≤ 4000000 := by
  unfold check at h
  obtain ⟨-, h⟩ := ensure_bind_eq_ok.mp h
  obtain ⟨-, h⟩ := ensure_bind_eq_ok.mp h
  obtain ⟨hdelay, h⟩ := ensure_bind_eq_ok.mp h
  refine ⟨hdelay, ?_⟩
  rintro limit hlimit
  rw [Option.mem_def] at hlimit
  simpa [hlimit] using h

theorem asMillis_le {options : SyncOptions} (h : options.check = .ok ()) :
    options.retryPolicy.initialDelay.asMillis ≤ 3600000 := by
  have hdelay := (SyncOptions.check_bounds h).1
  unfold Duration.asMillis
  omega

/-- Options that pass their checks come back as their columns keep them. -/
theorem OptionColumns.decodeProfile_ofProfile {options : SyncOptions}
    (h : options.check = .ok ()) :
    (OptionColumns.ofProfile options).decodeProfile = .ok options.stored := by
  have hmillis := asMillis_le h
  have hdelay : tryUnsigned 64 (saturateI64 options.retryPolicy.initialDelay.asMillis) =
      some options.retryPolicy.initialDelay.asMillis := by
    rw [saturateI64_of_fits (by omega)]
    exact tryUnsigned_ofNat (by omega)
  have hlt := options.retryPolicy.maxAttempts.toNat_lt
  have hattempts : tryUnsigned 8 options.retryPolicy.maxAttempts.toNat =
      some options.retryPolicy.maxAttempts.toNat := tryUnsigned_ofNat (by omega)
  have hmethod : (options.deletionMethod.map encodeDeletionMethod).mapM
      decodeDeletionMethod = .ok options.deletionMethod := by
    cases options.deletionMethod <;> simp [pure, Except.pure]
  have hlimit : (options.bandwidthLimitKibPerSecond.map fun limit =>
        saturateI64 limit.toNat).mapM (tryUnsigned 64) =
      some (options.bandwidthLimitKibPerSecond.map UInt64.toNat) := by
    cases hb : options.bandwidthLimitKibPerSecond with
    | none => rfl
    | some limit =>
        have hle := ((SyncOptions.check_bounds h).2 limit hb).2
        rw [UInt64.le_iff_toNat_le] at hle
        have hle : limit.toNat ≤ 4000000 := hle
        have hread : tryUnsigned 64 limit.toNat = some limit.toNat :=
          tryUnsigned_ofNat (by omega)
        simp [saturateI64_of_fits (show limit.toNat < 2 ^ 63 by omega), hread]
  have hback : (options.bandwidthLimitKibPerSecond.map UInt64.toNat).map UInt64.ofNat =
      options.bandwidthLimitKibPerSecond := by
    cases options.bandwidthLimitKibPerSecond <;> simp
  unfold decodeProfile
  simp only [ofProfile, ofOptions, hdelay, hattempts, hmethod, hlimit, hback, Except.mapError,
    decodeProfileBool_boolColumn, decodePartialTransferPolicy_encode, orError_some, ok_bind,
    UInt8.ofNat_toNat]
  rfl

end SyncPlus
