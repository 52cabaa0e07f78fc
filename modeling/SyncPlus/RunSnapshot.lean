import SyncPlus.Profile

/-!
# Run snapshots

What a run freezes before it changes any file: the profile with its
validated options, the authorizations it was started with, and the
volumes the peers were found on.
-/

namespace SyncPlus

structure VolumeIdentity where
  device : UInt64
  deriving Repr, DecidableEq

structure RunSnapshot where
  runId : RunId
  snapshotId : UInt64
  createdAtUnixSeconds : Int64
  profile : SyncProfile
  validatedOptions : ValidatedSyncOptions
  authorizations : AuthorizationSnapshot
  peerAVolumeIdentity : Option VolumeIdentity
  peerBVolumeIdentity : Option VolumeIdentity
  deriving DecidableEq

/-- What a call sees of the machine it runs on: its directories, and its
clock as `current_unix_seconds` reads it. -/
structure Environment where
  isDir : Directories
  currentUnixSeconds : Except StorageError Int64

namespace RunSnapshot

def fromProfileWithVolumeIdentities (env : Environment) (runId : RunId)
    (profile : SyncProfile) (authorizations : AuthorizationSnapshot)
    (peerAVolumeIdentity peerBVolumeIdentity : Option VolumeIdentity) :
    Except StorageError RunSnapshot := do
  let specification ←
    (ProcessSpecification.fromProfileForRun env.isDir profile).mapError .invalidProfile
  ensure (authorizations.allowUnattendedPermanentRemoval = true →
      specification.options.deletionMethod = some .permanentRemoval ∧
        specification.options.safeDelete = true)
    (.invalidSnapshot <| "unattended permanent removal requires Safe Delete with Permanent " ++
      "Removal selected")
  let createdAtUnixSeconds ← env.currentUnixSeconds
  return {
    runId
    snapshotId := runId.value
    createdAtUnixSeconds
    profile
    validatedOptions := specification.options
    authorizations
    peerAVolumeIdentity
    peerBVolumeIdentity }

def fromProfile (env : Environment) (runId : RunId) (profile : SyncProfile)
    (authorizations : AuthorizationSnapshot) : Except StorageError RunSnapshot :=
  fromProfileWithVolumeIdentities env runId profile authorizations none none

/-- What freezing a profile checks, and what it freezes. -/
structure Freezes (env : Environment) (runId : RunId) (profile : SyncProfile)
    (authorizations : AuthorizationSnapshot)
    (peerAVolumeIdentity peerBVolumeIdentity : Option VolumeIdentity)
    (snapshot : RunSnapshot) : Prop where
  run_eq : snapshot.runId = runId
  snapshotId_eq : snapshot.snapshotId = runId.value
  created : env.currentUnixSeconds = .ok snapshot.createdAtUnixSeconds
  profile_eq : snapshot.profile = profile
  options_eq : snapshot.validatedOptions.toSyncOptions = profile.options
  authorizations_eq : snapshot.authorizations = authorizations
  peerA_eq : snapshot.peerAVolumeIdentity = peerAVolumeIdentity
  peerB_eq : snapshot.peerBVolumeIdentity = peerBVolumeIdentity
  checked : ProcessSpecification.checkProfile env.isDir profile = .ok ()
  method : profile.options.safeDelete = true → profile.options.deletionMethod.isSome = true
  permanent : authorizations.allowUnattendedPermanentRemoval = true →
    profile.options.deletionMethod = some .permanentRemoval ∧
      profile.options.safeDelete = true

theorem fromProfileWithVolumeIdentities_eq_ok {env : Environment} {runId : RunId}
    {profile : SyncProfile} {authorizations : AuthorizationSnapshot}
    {peerA peerB : Option VolumeIdentity} {snapshot : RunSnapshot} :
    fromProfileWithVolumeIdentities env runId profile authorizations peerA peerB =
        .ok snapshot ↔
      Freezes env runId profile authorizations peerA peerB snapshot := by
  unfold fromProfileWithVolumeIdentities ProcessSpecification.fromProfileForRun
    ProcessSpecification.fromProfile
  constructor
  · intro h
    obtain ⟨specification, hspec, h⟩ := bind_eq_ok.mp h
    obtain ⟨hpermanent, h⟩ := ensure_bind_eq_ok.mp h
    obtain ⟨created, hcreated, h⟩ := bind_eq_ok.mp h
    cases h
    obtain ⟨_, hspec, hrun⟩ := bind_eq_ok.mp (mapError_eq_ok.mp hspec)
    obtain ⟨options, hoptions, hspec⟩ := bind_eq_ok.mp hspec
    obtain ⟨hchecked, hspec⟩ := unit_bind_eq_ok.mp hspec
    obtain ⟨hmethod, hrun⟩ := ensure_bind_eq_ok.mp hrun
    cases hrun
    cases hspec
    have hoptions := SyncOptions.validate_eq_ok.mp hoptions
    exact {
      run_eq := rfl
      snapshotId_eq := rfl
      created := hcreated
      profile_eq := rfl
      options_eq := hoptions
      authorizations_eq := rfl
      peerA_eq := rfl
      peerB_eq := rfl
      checked := hchecked
      method := hoptions ▸ hmethod
      permanent := hoptions ▸ hpermanent }
  · intro h
    have hvalidate := SyncOptions.validate_eq_ok.mpr h.options_eq
    have hmethod := h.method
    have hpermanent := h.permanent
    rw [← h.options_eq] at hmethod hpermanent
    rw [hvalidate, ok_bind, h.checked, ok_bind]
    simp only [pure, Except.pure, ok_bind, Except.mapError, ensure_of hmethod,
      ensure_of hpermanent, h.created]
    rw [← h.snapshotId_eq, ← h.run_eq, ← h.profile_eq, ← h.authorizations_eq, ← h.peerA_eq,
      ← h.peerB_eq]

end RunSnapshot

end SyncPlus
