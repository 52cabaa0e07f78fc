import SyncPlus.ProfileStore

/-!
# Profiles as stored

What a row of the table is for: a profile with its schedule and its
authorizations, and how often it was edited (`StoredProfile`). Such a
record is written to a row column by column; when it satisfies what its
writers check, the row is read back as the record, but for the fraction
of a millisecond in a retry delay (`materializeProfile_row`).
-/

namespace SyncPlus

/-! ## What the checks say -/

/-- What the checks of a profile look at, apart from the file system. -/
structure SyncProfile.Storable (profile : SyncProfile) : Prop where
  name : validPeerName profile.name
  peerA : validPeerName profile.peerA.name
  peerB : validPeerName profile.peerB.name
  options : profile.options.check = .ok ()
  checks : ProfileChecks profile

theorem fromProfile_eq_ok {isDir : Directories} {profile : SyncProfile} :
    (∃ specification, ProcessSpecification.fromProfile isDir profile = .ok specification) ↔
      profile.options.check = .ok () ∧
        ProcessSpecification.checkProfile isDir profile = .ok () := by
  unfold ProcessSpecification.fromProfile
  constructor
  · rintro ⟨specification, h⟩
    obtain ⟨options, hoptions, h⟩ := bind_eq_ok.mp h
    obtain ⟨hchecked, -⟩ := unit_bind_eq_ok.mp h
    exact ⟨SyncOptions.validate_eq_ok.mp hoptions ▸ options.checked, hchecked⟩
  · rintro ⟨checked, hchecked⟩
    have hoptions : profile.options.validate = .ok { profile.options with checked } :=
      SyncOptions.validate_eq_ok.mpr rfl
    rw [hoptions, ok_bind, hchecked, ok_bind]
    exact ⟨_, rfl⟩

theorem validateProfile_eq_ok {isDir : Directories} {profile : SyncProfile} :
    validateProfile isDir profile = .ok () ↔
      profile.Storable ∧ (processDestinationRoot isDir profile).isEmpty = false := by
  have hrun : ((ProcessSpecification.fromProfile isDir profile).mapError
        StorageError.invalidProfile >>= fun _ => pure ()) = .ok () ↔
      profile.options.check = .ok () ∧
        ProcessSpecification.checkProfile isDir profile = .ok () := by
    rw [bind_eq_ok, ← fromProfile_eq_ok]
    simp [mapError_eq_ok, pure, Except.pure]
  unfold validateProfile
  rw [ensure_bind_eq_ok, ensure_bind_eq_ok, ensure_bind_eq_ok, hrun,
    ProcessSpecification.checkProfile_eq_ok]
  constructor
  · rintro ⟨hname, hpeerA, hpeerB, hoptions, hchecks, hdestination⟩
    exact ⟨⟨hname, hpeerA, hpeerB, hoptions, hchecks⟩, hdestination⟩
  · rintro ⟨h, hdestination⟩
    exact ⟨h.name, h.peerA, h.peerB, h.options, h.checks, hdestination⟩

/-! ## What the columns keep -/

theorem SyncOptions.check_stored {options : SyncOptions} (h : options.check = .ok ()) :
    options.stored.check = .ok () := by
  unfold check at h ⊢
  obtain ⟨hmethod, h⟩ := ensure_bind_eq_ok.mp h
  obtain ⟨hattempts, h⟩ := ensure_bind_eq_ok.mp h
  obtain ⟨hdelay, h⟩ := ensure_bind_eq_ok.mp h
  have hdelay' : options.stored.retryPolicy.initialDelay.nanos ≤ 3600000000000 := by
    simp only [stored, Duration.fromMillis, Duration.asMillis]
    omega
  exact ensure_bind_eq_ok.mpr ⟨hmethod, ensure_bind_eq_ok.mpr ⟨hattempts,
    ensure_bind_eq_ok.mpr ⟨hdelay', h⟩⟩⟩

theorem SyncProfile.Storable.stored {profile : SyncProfile} (h : profile.Storable) :
    profile.stored.Storable where
  name := h.name
  peerA := h.peerA
  peerB := h.peerB
  options := SyncOptions.check_stored h.options
  checks := ⟨h.checks.mirror, h.checks.topology, h.checks.source, h.checks.destination,
    h.checks.exclusions⟩

/-! ## Records -/

structure StoredProfile where
  id : SyncProfileId
  profile : SyncProfile
  schedule : Option ScheduleDefinition
  authorizations : AuthorizationSnapshot
  edits : Nat

namespace StoredProfile

def row (stored : StoredProfile) : ProfileRow :=
  { ProfileValues.fromProfile stored.profile with
    profileId := stored.id.value.toNat
    scheduleEnabled := boolColumn (isScheduleEnabled stored.schedule)
    allowUnattendedDestructive := boolColumn stored.authorizations.allowUnattendedDestructive
    allowUnattendedPermanentRemoval :=
      boolColumn stored.authorizations.allowUnattendedPermanentRemoval
    profileRevision := stored.edits
    exclusions := stored.profile.exclusions
    schedule := stored.schedule.map .ofSchedule }

def persisted (stored : StoredProfile) : PersistedSyncProfile where
  id := stored.id
  profile := stored.profile
  scheduleEnabled := isScheduleEnabled stored.schedule
  schedule := stored.schedule
  revision := .ofNat stored.edits
  authorizations := stored.authorizations

/-- What the row of a record is read back as. -/
def kept (stored : StoredProfile) : StoredProfile :=
  { stored with profile := stored.profile.stored }

/-- What the writers of a record check. -/
structure Valid (stored : StoredProfile) : Prop where
  id : FitsI64 stored.id.value
  profile : stored.profile.Storable
  authorizations : validateAuthorizations stored.profile stored.authorizations = .ok ()
  schedule : ∀ schedule ∈ stored.schedule, schedule.Valid

section

variable (stored : StoredProfile)

@[simp] theorem row_profileId : stored.row.profileId = stored.id.value.toNat := rfl

@[simp] theorem row_profileRevision : stored.row.profileRevision = stored.edits := rfl

@[simp] theorem row_name : stored.row.name = stored.profile.name := rfl

@[simp] theorem row_authorizations :
    stored.row.authorizations = .ok stored.authorizations := by
  simp [ProfileRow.authorizations, row, pure, Except.pure]

end

theorem decode_row {stored : StoredProfile} (h : stored.Valid) :
    stored.row.decode = .ok stored.profile.stored := by
  have hoptions := OptionColumns.decodeProfile_ofProfile h.profile.options
  unfold ProfileRow.decode
  simp only [row, ProfileValues.fromProfile, decodePeer_ofPeer, decodeSyncMode_encode,
    decodeSource_encode, orError_some, ok_bind, hoptions]
  rfl

theorem loadSchedule_row {stored : StoredProfile} (h : stored.Valid) :
    loadSchedule stored.row.schedule = .ok stored.schedule := by
  rcases hschedule : stored.schedule with _ | schedule
  · simp [row, hschedule, loadSchedule]
  · have hvalid := ScheduleDefinition.validate_eq_ok.mpr (h.schedule schedule hschedule)
    have hlt := schedule.intervalMinutes.toNat_lt
    have hminutes : tryUnsigned 32 schedule.intervalMinutes.toNat =
        some schedule.intervalMinutes.toNat := tryUnsigned_ofNat (by omega)
    have hnext : (schedule.nextRunAtUnixSeconds.map Int64.toInt).map Int64.ofInt =
        schedule.nextRunAtUnixSeconds := by
      cases schedule.nextRunAtUnixSeconds <;> simp
    simp only [row, hschedule, Option.map_some, loadSchedule, ScheduleRow.ofSchedule, hminutes,
      orError_some, ok_bind, decodeProfileBool_boolColumn, UInt32.ofNat_toNat, hnext, hvalid]
    rfl

/-- **Reading a row back.** It can only fail when the destination of the
profile is found to be the empty path. -/
theorem materializeProfile_row {stored : StoredProfile} (h : stored.Valid)
    (hedits : stored.edits < 2 ^ 63) {isDir : Directories}
    {persisted : PersistedSyncProfile} :
    materializeProfile isDir stored.row = .ok persisted ↔
      persisted = stored.kept.persisted ∧
        (processDestinationRoot isDir stored.profile).isEmpty = false := by
  have hid : tryUnsigned 64 stored.id.value.toNat = some stored.id.value.toNat :=
    tryUnsigned_ofNat stored.id.value.toNat_lt
  have hrevision : tryUnsigned 64 stored.edits = some stored.edits :=
    tryUnsigned_ofNat (by omega)
  have hvalidate : validateProfile isDir stored.profile.stored = .ok () ↔
      (processDestinationRoot isDir stored.profile).isEmpty = false :=
    validateProfile_eq_ok.trans (and_iff_right h.profile.stored)
  have hauthorizations : validateAuthorizations stored.profile.stored stored.authorizations =
      .ok () := h.authorizations
  unfold materializeProfile ProfileRow.intoProfile
  rw [row_profileId, hid, orError_some, ok_bind, loadSchedule_row h, row_authorizations,
    row_profileRevision, hrevision, decode_row h]
  simp only [row, decodeProfileBool_boolColumn, ok_bind, orError_some]
  rw [ensure_of trivial, ok_bind]
  constructor
  · intro hread
    obtain ⟨profile, hprofile, hread⟩ := bind_eq_ok.mp hread
    obtain ⟨hvalid, hprofile⟩ := unit_bind_eq_ok.mp hprofile
    obtain ⟨-, hread⟩ := unit_bind_eq_ok.mp hread
    cases hprofile
    cases hread
    exact ⟨by simp [StoredProfile.persisted, kept], hvalidate.mp hvalid⟩
  · rintro ⟨rfl, hdestination⟩
    rw [hvalidate.mpr hdestination, ok_bind]
    simp only [pure, Except.pure, ok_bind, hauthorizations]
    simp [StoredProfile.persisted, kept]

end StoredProfile

end SyncPlus
