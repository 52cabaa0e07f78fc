import SyncPlus.Evidence

/-!
# Profiles

What a user configures: two peers, the direction between them, the
options of a run and the exclusions. A profile can hold anything the
forms let through; what may be stored or run is decided by the checks
of its process specification, and validated options carry the result of
those checks.

One of the checks looks at the file system. A One-Way Sync writes below
its destination, into the folder named after the source when there is
one, so the path that is checked depends on whether that folder exists
(`processDestinationRoot`).
-/

namespace SyncPlus

/-! ## Texts -/

def nulChar : Char := Char.ofNat 0

def trimIsEmpty (text : String) : Bool := text.toList.all isWhiteSpace

def containsNul (text : String) : Bool := text.toList.contains nulChar

/-! ## Peers -/

def ValidSecretReference (id : String) : Prop :=
  id ≠ "" ∧ id.utf8ByteSize ≤ 128 ∧
    id.toList.all (fun c => c.isAlphanum || c = '.' || c = '_' || c = '-') = true

instance (id : String) : Decidable (ValidSecretReference id) :=
  inferInstanceAs (Decidable (_ ∧ _ ∧ _))

/-- A nonsecret identifier for a password kept in the keyring. -/
structure SavedSecretReference where
  id : String
  valid : ValidSecretReference id
  deriving DecidableEq

def SavedSecretReference.new (id : String) : Option SavedSecretReference :=
  if h : ValidSecretReference id then some ⟨id, h⟩ else none

inductive SshAuthentication where
  | key
  | agent
  | interactivePassword
  | savedPassword (reference : SavedSecretReference)
  deriving DecidableEq

def isAddressChar (c : Char) : Bool :=
  c.isAlphanum || c = ':' || c = '%' || c = '.' || c = '-'

/-- A host name, or an address in brackets. -/
def isValidSshServer (server : String) : Bool :=
  let chars := server.toList
  if chars.head? = some '[' || chars.getLast? = some ']' then
    chars.head? = some '[' && chars.tail.getLast? = some ']' &&
      !chars.tail.dropLast.isEmpty && chars.tail.dropLast.all isAddressChar
  else chars.all fun c => c.isAlphanum || c = '.' || c = '-'

def isValidSshUsername (username : String) : Bool :=
  username.toList.all fun c => c.isAlphanum || c = '.' || c = '_' || c = '-'

inductive SshPeerError where
  | emptyServer
  | invalidServer
  | emptyUsername
  | invalidUsername
  | invalidPort
  | emptyIdentity
  | nulInIdentity
  | missingIdentityForKey
  | emptyRemotePath
  | nulInRemotePath
  deriving Repr, DecidableEq

def SshPeerError.text : SshPeerError → String
  | emptyServer => "SSH server must not be empty"
  | invalidServer => "SSH server contains unsupported characters"
  | emptyUsername => "SSH username must not be empty"
  | invalidUsername => "SSH username contains unsupported characters"
  | invalidPort => "SSH port must be between 1 and 65535"
  | emptyIdentity => "SSH identity path must not be empty"
  | nulInIdentity => "SSH identity path contains NUL"
  | missingIdentityForKey => "SSH key authentication requires a selected identity file"
  | emptyRemotePath => "SSH remote path must not be empty"
  | nulInRemotePath => "SSH remote path contains NUL"

/-- What `SshPeer::new` checks before the remote path. -/
def SshAccess (server username : String) (port : UInt16) (identity : Option PathBuf)
    (authentication : SshAuthentication) : Except SshPeerError Unit := do
  ensure (server ≠ "") .emptyServer
  ensure (isValidSshServer server = true) .invalidServer
  ensure (username ≠ "") .emptyUsername
  ensure (isValidSshUsername username = true) .invalidUsername
  ensure (port ≠ 0) .invalidPort
  ensure (∀ path ∈ identity, path.isEmpty = false) .emptyIdentity
  ensure (∀ path ∈ identity, 0 ∉ path.bytes) .nulInIdentity
  ensure (authentication = .key → identity.isSome = true) .missingIdentityForKey

/-- A remote path is the path of a nonempty text without NUL. -/
def IsRemotePath (path : PathBuf) : Prop :=
  ∃ text : String, text ≠ "" ∧ containsNul text = false ∧ path = .ofText text

structure SshPeer where
  server : String
  username : String
  port : UInt16
  identity : Option PathBuf
  authentication : SshAuthentication
  remotePath : PathBuf
  access : SshAccess server username port identity authentication = .ok ()
  remote : IsRemotePath remotePath
  deriving DecidableEq

def SshPeer.new (server username : String) (port : UInt16) (identity : Option PathBuf)
    (authentication : SshAuthentication) (remotePath : String) :
    Except SshPeerError SshPeer :=
  match access : SshAccess server username port identity authentication with
  | .error error => .error error
  | .ok () =>
      if hempty : remotePath = "" then .error .emptyRemotePath
      else if hnul : containsNul remotePath = true then .error .nulInRemotePath
      else .ok {
        server, username, port, identity, authentication
        remotePath := .ofText remotePath
        access
        remote := ⟨remotePath, hempty, by simpa using hnul, rfl⟩ }

/-- A peer is accepted again when it is rebuilt from its own fields. -/
theorem SshPeer.new_self (peer : SshPeer) {text : String}
    (htext : peer.remotePath.toText = some text) :
    SshPeer.new peer.server peer.username peer.port peer.identity peer.authentication
      text = .ok peer := by
  obtain ⟨text', hempty, hnul, hpath⟩ := peer.remote
  rw [hpath, PathBuf.toText_ofText] at htext
  cases htext
  unfold SshPeer.new
  split
  · rename_i h
    exact absurd (h.symm.trans peer.access) (by simp)
  · rw [dif_neg hempty, dif_neg (by simp [hnul])]
    cases peer
    cases hpath
    rfl

theorem SshPeer.toText_remotePath (peer : SshPeer) :
    ∃ text, peer.remotePath.toText = some text := by
  obtain ⟨text, -, -, hpath⟩ := peer.remote
  exact ⟨text, by rw [hpath, PathBuf.toText_ofText]⟩

inductive PeerEndpoint where
  | local (root : PathBuf)
  | ssh (peer : SshPeer)
  deriving DecidableEq

structure Peer where
  name : String
  endpoint : PeerEndpoint
  deriving DecidableEq

def Peer.sshPeer (peer : Peer) : Option SshPeer :=
  match peer.endpoint with
  | .local _ => none
  | .ssh peer => some peer

def Peer.isSsh (peer : Peer) : Bool := peer.sshPeer.isSome

def Peer.root (peer : Peer) : PathBuf :=
  match peer.endpoint with
  | .local root => root
  | .ssh peer => peer.remotePath

/-! ## Options -/

inductive SyncMode where
  | oneWay
  | mirror
  deriving Repr, DecidableEq

inductive OneWaySource where
  | peerA
  | peerB
  deriving Repr, DecidableEq

inductive PartialTransferPolicy where
  | cleanup
  | keepPartialForResume
  deriving Repr, DecidableEq

/-- A span of time, to the nanosecond. -/
structure Duration where
  nanos : Nat
  deriving Repr, DecidableEq

namespace Duration

def fromMillis (millis : Nat) : Duration := ⟨millis * 1000000⟩

def asMillis (d : Duration) : Nat := d.nanos / 1000000

/-- The span is a whole number of milliseconds. -/
def IsWholeMillis (d : Duration) : Prop := d.nanos % 1000000 = 0

instance (d : Duration) : Decidable d.IsWholeMillis :=
  inferInstanceAs (Decidable (_ = _))

theorem fromMillis_asMillis {d : Duration} : fromMillis d.asMillis = d ↔ d.IsWholeMillis := by
  rcases d with ⟨n⟩
  simp only [fromMillis, asMillis, IsWholeMillis, mk.injEq]
  omega

theorem isWholeMillis_fromMillis (millis : Nat) : (fromMillis millis).IsWholeMillis :=
  Nat.mul_mod_left _ _

end Duration

structure RetryPolicy where
  maxAttempts : UInt8
  initialDelay : Duration
  deriving Repr, DecidableEq

/-- The attempts after the first. -/
def RetryPolicy.retries (policy : RetryPolicy) : Nat := policy.maxAttempts.toNat - 1

structure SpecialistMetadataRequirements where
  ownership : Bool
  accessControlLists : Bool
  extendedAttributes : Bool
  deriving Repr, DecidableEq

def SpecialistMetadataRequirements.any (s : SpecialistMetadataRequirements) : Bool :=
  s.ownership || s.accessControlLists || s.extendedAttributes

structure MetadataRequirements where
  fileType : Bool
  executablePermissions : Bool
  symlinkTargets : Bool
  timestamps : Bool
  specialist : SpecialistMetadataRequirements
  deriving Repr, DecidableEq

structure SyncOptions where
  safeDelete : Bool
  destinationCleanup : Bool
  deletionMethod : Option DeletionMethod
  metadata : MetadataRequirements
  partialTransferPolicy : PartialTransferPolicy
  retryPolicy : RetryPolicy
  bandwidthLimitKibPerSecond : Option UInt64
  deriving Repr, DecidableEq

/-- The options of a new profile. -/
def SyncOptions.default : SyncOptions where
  safeDelete := false
  destinationCleanup := false
  deletionMethod := none
  metadata := ⟨true, true, true, false, ⟨false, false, false⟩⟩
  partialTransferPolicy := .cleanup
  retryPolicy := ⟨3, .fromMillis 100⟩
  bandwidthLimitKibPerSecond := none

/-- `SyncOptions::validate`, up to the value it returns. -/
def SyncOptions.check (options : SyncOptions) : Except ProcessSpecError Unit := do
  ensure (options.deletionMethod.isSome = true →
      (options.safeDelete || options.destinationCleanup) = true)
    (.invalidOptionCombination "a deletion method requires an explicit destructive action")
  ensure (1 ≤ options.retryPolicy.maxAttempts ∧ options.retryPolicy.maxAttempts ≤ 10)
    (.invalidRetryPolicy options.retryPolicy.maxAttempts)
  ensure (options.retryPolicy.initialDelay.nanos ≤ 3600000000000)
    (.invalidRetryDelay options.retryPolicy.initialDelay.asMillis)
  match options.bandwidthLimitKibPerSecond with
  | some limit => ensure (1 ≤ limit ∧ limit ≤ 4000000) (.invalidBandwidthLimit limit)
  | none => .ok ()

structure ValidatedSyncOptions extends SyncOptions where
  checked : toSyncOptions.check = .ok ()
  deriving DecidableEq

def ValidatedSyncOptions.default : ValidatedSyncOptions := ⟨.default, by decide +kernel⟩

def SyncOptions.validate (options : SyncOptions) :
    Except ProcessSpecError ValidatedSyncOptions :=
  match checked : options.check with
  | .error error => .error error
  | .ok () => .ok { options with checked }

theorem SyncOptions.validate_eq_ok {options : SyncOptions}
    {validated : ValidatedSyncOptions} :
    options.validate = .ok validated ↔ validated.toSyncOptions = options := by
  constructor
  · intro h
    unfold validate at h
    split at h
    · cases h
    · exact (Except.ok.inj h) ▸ rfl
  · rintro rfl
    unfold validate
    split
    · rename_i h
      exact absurd (h.symm.trans validated.checked) (by simp)
    · rfl

structure AuthorizationSnapshot where
  allowUnattendedDestructive : Bool
  allowUnattendedPermanentRemoval : Bool
  deriving Repr, DecidableEq

/-- No authorization: the default of every profile. -/
def AuthorizationSnapshot.default : AuthorizationSnapshot := ⟨false, false⟩

/-! ## Profiles -/

structure SyncProfile where
  name : String
  peerA : Peer
  peerB : Peer
  mode : SyncMode
  source : OneWaySource
  options : SyncOptions
  exclusions : List String
  deriving DecidableEq

def peerForSide (profile : SyncProfile) : PeerSide → Peer
  | .peerA => profile.peerA
  | .peerB => profile.peerB

namespace SyncProfile

def new (name : String) (peerA peerB : Peer) : SyncProfile where
  name := name
  peerA := peerA
  peerB := peerB
  mode := .oneWay
  source := .peerA
  options := .default
  exclusions := []

def sourcePeer (profile : SyncProfile) : Peer :=
  match profile.source with
  | .peerA => profile.peerA
  | .peerB => profile.peerB

def destinationPeer (profile : SyncProfile) : Peer :=
  match profile.source with
  | .peerA => profile.peerB
  | .peerB => profile.peerA

def effectiveDestinationRoot (profile : SyncProfile) : PathBuf :=
  if profile.mode = .mirror then profile.destinationPeer.root
  else
    match profile.sourcePeer.root.fileName with
    | none => profile.destinationPeer.root
    | some sourceName =>
        if profile.destinationPeer.root.fileName = some sourceName then
          profile.destinationPeer.root
        else profile.destinationPeer.root.join ⟨sourceName⟩

end SyncProfile

/-! ## Process specifications -/

/-- `Path::is_dir`, on the file system as it is at the time of the call. -/
abbrev Directories := PathBuf → Bool

def processDestinationRoot (isDir : Directories) (profile : SyncProfile) : PathBuf :=
  if profile.mode = .oneWay ∧ profile.destinationPeer.isSsh = false ∧
      isDir profile.effectiveDestinationRoot = true then
    profile.effectiveDestinationRoot
  else profile.destinationPeer.root

def validatePeerPath (peer : String) (path : PathBuf) : Except ProcessSpecError Unit := do
  ensure (path.isEmpty = false) (.emptyPeerPath peer)
  ensure (0 ∉ path.bytes) (.nulInPeerPath peer)

def validateExclusionPattern (pattern : String) : Except ProcessSpecError Unit := do
  ensure (pattern ≠ "") (.invalidExclusionPattern "the pattern must not be empty")
  ensure (containsNul pattern = false)
    (.invalidExclusionPattern "the pattern contains NUL")

/-- What the model uses of a specification: the options and the roots. -/
structure ProcessSpecification where
  options : ValidatedSyncOptions
  source : OneWaySource
  mode : SyncMode
  sourceRoot : PathBuf
  destinationRoot : PathBuf
  peerARoot : PathBuf
  peerBRoot : PathBuf
  exclusions : List String
  deriving DecidableEq

theorem effectiveDestinationRoot_cases (profile : SyncProfile) :
    profile.effectiveDestinationRoot = profile.destinationPeer.root ∨
      ∃ name, profile.sourcePeer.root.fileName = some name ∧
        profile.effectiveDestinationRoot = profile.destinationPeer.root.join ⟨name⟩ := by
  unfold SyncProfile.effectiveDestinationRoot
  split
  · exact .inl rfl
  · split
    · exact .inl rfl
    · rename_i name hname
      split
      · exact .inl rfl
      · exact .inr ⟨name, hname, rfl⟩

/-- The destination of a profile is the selected folder, or one below it. -/
theorem processDestinationRoot_cases (isDir : Directories) (profile : SyncProfile) :
    processDestinationRoot isDir profile = profile.destinationPeer.root ∨
      ∃ name, profile.sourcePeer.root.fileName = some name ∧
        processDestinationRoot isDir profile = profile.destinationPeer.root.join ⟨name⟩ := by
  unfold processDestinationRoot
  split
  · exact effectiveDestinationRoot_cases profile
  · exact .inl rfl

theorem validatePeerPath_eq_ok {peer : String} {path : PathBuf} :
    validatePeerPath peer path = .ok () ↔ path.isEmpty = false ∧ 0 ∉ path.bytes := by
  unfold validatePeerPath
  rw [ensure_bind_eq_ok, ensure_eq_ok]

theorem validateExclusionPattern_eq_ok {pattern : String} :
    validateExclusionPattern pattern = .ok () ↔
      pattern ≠ "" ∧ containsNul pattern = false := by
  unfold validateExclusionPattern
  rw [ensure_bind_eq_ok, ensure_eq_ok]

/-- What a specification checks of the profile alone. -/
structure ProfileChecks (profile : SyncProfile) : Prop where
  mirror : profile.mode = .mirror →
    (profile.options.safeDelete || profile.options.destinationCleanup) = false
  topology : (profile.peerA.isSsh && profile.peerB.isSsh) = false
  source : profile.sourcePeer.root.isEmpty = false ∧ 0 ∉ profile.sourcePeer.root.bytes
  destination : 0 ∉ profile.destinationPeer.root.bytes
  exclusions : ∀ pattern ∈ profile.exclusions,
    validateExclusionPattern pattern = .ok ()

namespace ProcessSpecification

/-- The checks of `from_profile` after those of the options. -/
def checkProfile (isDir : Directories) (profile : SyncProfile) :
    Except ProcessSpecError Unit := do
  ensure (profile.mode = .mirror →
      (profile.options.safeDelete || profile.options.destinationCleanup) = false)
    (.invalidOptionCombination "Mirror cannot enable One-Way deletion options")
  ensure ((profile.peerA.isSsh && profile.peerB.isSsh) = false) .unsupportedSshTopology
  validatePeerPath profile.sourcePeer.name profile.sourcePeer.root
  validatePeerPath profile.destinationPeer.name (processDestinationRoot isDir profile)
  profile.exclusions.forM validateExclusionPattern
  if profile.destinationPeer.isSsh then
    validatePeerPath "remote target" (processDestinationRoot isDir profile)

/-- **What the file system adds.** The destination of a checked profile is
checked again wherever it is found, and only an empty one can be missing. -/
theorem checkProfile_eq_ok {isDir : Directories} {profile : SyncProfile} :
    checkProfile isDir profile = .ok () ↔
      ProfileChecks profile ∧ (processDestinationRoot isDir profile).isEmpty = false := by
  have hnul : 0 ∉ profile.sourcePeer.root.bytes →
      (0 ∉ (processDestinationRoot isDir profile).bytes ↔
        0 ∉ profile.destinationPeer.root.bytes) := by
    intro hsource
    rcases processDestinationRoot_cases isDir profile with h | ⟨name, hname, h⟩
    · rw [h]
    · obtain ⟨hne, hbytes⟩ := PathBuf.fileName_bytes hname
      have hzero : 0 ∉ name := fun h => hsource (hbytes 0 h).1
      rw [h, (PathBuf.join_name hne fun b hb => (hbytes b hb).2).2]
      simp [hzero]
  have hremote : (if profile.destinationPeer.isSsh = true then
        validatePeerPath "remote target" (processDestinationRoot isDir profile)
      else pure ()) = .ok () ↔
      (profile.destinationPeer.isSsh = true →
        (processDestinationRoot isDir profile).isEmpty = false ∧
          0 ∉ (processDestinationRoot isDir profile).bytes) := by
    split <;> simp_all [validatePeerPath_eq_ok, pure, Except.pure]
  unfold checkProfile
  rw [ensure_bind_eq_ok, ensure_bind_eq_ok, unit_bind_eq_ok, unit_bind_eq_ok, unit_bind_eq_ok,
    hremote]
  simp only [validatePeerPath_eq_ok, forM_eq_ok]
  constructor
  · rintro ⟨hmirror, htopology, hsource, ⟨hempty, hzero⟩, hexclusions, -⟩
    exact ⟨⟨hmirror, htopology, hsource, (hnul hsource.2).mp hzero, hexclusions⟩, hempty⟩
  · rintro ⟨h, hempty⟩
    have hzero := (hnul h.source.2).mpr h.destination
    exact ⟨h.mirror, h.topology, h.source, ⟨hempty, hzero⟩, h.exclusions,
      fun _ => ⟨hempty, hzero⟩⟩

def fromProfile (isDir : Directories) (profile : SyncProfile) :
    Except ProcessSpecError ProcessSpecification := do
  let options ← profile.options.validate
  checkProfile isDir profile
  let destinationRoot := processDestinationRoot isDir profile
  return {
    options
    source := profile.source
    mode := profile.mode
    sourceRoot := profile.sourcePeer.root
    destinationRoot
    peerARoot :=
      if profile.mode = .oneWay ∧ profile.source = .peerB then destinationRoot
      else profile.peerA.root
    peerBRoot :=
      if profile.mode = .oneWay ∧ profile.source = .peerA then destinationRoot
      else profile.peerB.root
    exclusions := profile.exclusions }

def fromProfileForRun (isDir : Directories) (profile : SyncProfile) :
    Except ProcessSpecError ProcessSpecification := do
  let specification ← fromProfile isDir profile
  ensure (specification.options.safeDelete = true →
    specification.options.deletionMethod.isSome = true) .deletionMethodRequired
  return specification

end ProcessSpecification

end SyncPlus
