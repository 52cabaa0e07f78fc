import SyncPlus.PeerScope
import SyncPlus.ProfileColumns
import SyncPlus.Schedule

/-!
# The table of profiles

Profiles with their schedules and exclusions, which are rows of their own
tables that live and die with the profile: one row of the model holds all
three. The database gives out each profile identifier once, and keeps no
two profiles of one name and no pattern twice in one profile; the other
constraints of its schema repeat what the writers check before.

Every edit of a profile or of its schedule counts up a revision, and is
written only over the revision it was made from.
-/

namespace SyncPlus

structure PersistedSyncProfile where
  id : SyncProfileId
  profile : SyncProfile
  scheduleEnabled : Bool
  schedule : Option ScheduleDefinition
  revision : UInt64
  authorizations : AuthorizationSnapshot
  deriving DecidableEq

/-! ## Checks -/

def validPeerName (name : String) : Prop :=
  trimIsEmpty name = false ∧ name.utf8ByteSize ≤ 255 ∧ containsNul name = false

instance (name : String) : Decidable (validPeerName name) :=
  inferInstanceAs (Decidable (_ ∧ _ ∧ _))

def validateProfile (isDir : Directories) (profile : SyncProfile) :
    Except StorageError Unit := do
  ensure (validPeerName profile.name) .invalidProfileName
  ensure (validPeerName profile.peerA.name) .invalidPeerName
  ensure (validPeerName profile.peerB.name) .invalidPeerName
  let _ ← (ProcessSpecification.fromProfile isDir profile).mapError .invalidProfile

def validateAuthorizations (profile : SyncProfile)
    (authorizations : AuthorizationSnapshot) : Except StorageError Unit := do
  ensure (authorizations.allowUnattendedDestructive = true →
      (profile.options.safeDelete || profile.options.destinationCleanup) = true)
    (.invalidAuthorization
      "unattended destructive authorization requires Safe Delete or Destination Cleanup")
  ensure (authorizations.allowUnattendedPermanentRemoval = true →
      profile.options.safeDelete = true ∧
        profile.options.deletionMethod = some .permanentRemoval)
    (.invalidAuthorization <| "unattended Permanent Removal requires Safe Delete with " ++
      "Permanent Removal selected")

def unattendedAuthorizationScopeChanged (before after : SyncProfile) : Bool :=
  !before.peerA.same after.peerA || !before.peerB.same after.peerB ||
    before.mode ≠ after.mode || before.source ≠ after.source ||
    before.options ≠ after.options || before.exclusions ≠ after.exclusions

/-! ## Rows -/

structure ProfileValues where
  name : String
  mode : String
  source : String
  peerA : PeerColumns
  peerB : PeerColumns
  options : OptionColumns
  deriving DecidableEq

def ProfileValues.fromProfile (profile : SyncProfile) : ProfileValues where
  name := profile.name
  mode := encodeSyncMode profile.mode
  source := encodeSource profile.source
  peerA := .ofPeer profile.peerA
  peerB := .ofPeer profile.peerB
  options := .ofProfile profile.options

structure ScheduleRow where
  intervalMinutes : Int
  timezone : String
  enabled : Int
  nextRunAtUnixSeconds : Option Int
  deriving DecidableEq

def ScheduleRow.ofSchedule (schedule : ScheduleDefinition) : ScheduleRow where
  intervalMinutes := schedule.intervalMinutes.toNat
  timezone := schedule.timezone
  enabled := boolColumn schedule.enabled
  nextRunAtUnixSeconds := schedule.nextRunAtUnixSeconds.map Int64.toInt

/-- The revision column counts on past the 64-bit integers as a real number,
which its reader refuses. -/
structure ProfileRow extends ProfileValues where
  profileId : Int
  scheduleEnabled : Int
  allowUnattendedDestructive : Int
  allowUnattendedPermanentRemoval : Int
  profileRevision : Int
  exclusions : List String
  schedule : Option ScheduleRow
  deriving DecidableEq

def ProfileRow.readRevision (column : Nat) (row : ProfileRow) : Except StorageError Unit :=
  ensure (row.profileRevision ≤ 9223372036854775807) (.sqlite (.invalidColumnType column))

/-- `RawProfile::from_row`, where the column types are read. -/
def ProfileRow.fromRow (row : ProfileRow) : Except StorageError Unit := row.readRevision 36

/-- `RawProfile::into_profile`, before its last check. -/
def ProfileRow.decode (row : ProfileRow) : Except StorageError SyncProfile := do
  let peerA ← decodePeer row.peerA
  let peerB ← decodePeer row.peerB
  let mode ← orError (decodeSyncMode row.mode) corruptProfile
  let source ← orError (decodeSource row.source) corruptProfile
  let options ← row.options.decodeProfile
  return { name := row.name, peerA, peerB, mode, source, options, exclusions := row.exclusions }

def ProfileRow.intoProfile (isDir : Directories) (row : ProfileRow) :
    Except StorageError SyncProfile := do
  let profile ← row.decode
  validateProfile isDir profile
  return profile

def loadSchedule : Option ScheduleRow → Except StorageError (Option ScheduleDefinition)
  | none => .ok none
  | some row => do
      let minutes ← orError (tryUnsigned 32 row.intervalMinutes)
        (.invalidSchedule "invalid interval")
      let enabled ← decodeProfileBool row.enabled
      let schedule : ScheduleDefinition := {
        intervalMinutes := .ofNat minutes
        timezone := row.timezone
        enabled
        nextRunAtUnixSeconds := row.nextRunAtUnixSeconds.map Int64.ofInt }
      schedule.validate
      return some schedule

/-- The authorizations of a row, decoded. -/
def ProfileRow.authorizations (row : ProfileRow) :
    Except StorageError AuthorizationSnapshot := do
  let destructive ← decodeProfileBool row.allowUnattendedDestructive
  let permanentRemoval ← decodeProfileBool row.allowUnattendedPermanentRemoval
  return ⟨destructive, permanentRemoval⟩

def isScheduleEnabled (schedule : Option ScheduleDefinition) : Bool :=
  schedule.any (·.enabled)

def materializeProfile (isDir : Directories) (row : ProfileRow) :
    Except StorageError PersistedSyncProfile := do
  let id ← orError (tryUnsigned 64 row.profileId)
    (.corruptEvidence "invalid profile identifier")
  let scheduleEnabled ← decodeProfileBool row.scheduleEnabled
  let schedule ← loadSchedule row.schedule
  ensure (isScheduleEnabled schedule = scheduleEnabled)
    (.corruptEvidence "profile schedule enabled state differs from its definition")
  let authorizations ← row.authorizations
  let revision ← orError (tryUnsigned 64 row.profileRevision)
    (.corruptEvidence "invalid profile revision")
  let profile ← row.intoProfile isDir
  validateAuthorizations profile authorizations
  return {
    id := ⟨.ofNat id⟩, profile, scheduleEnabled, schedule
    revision := .ofNat revision, authorizations }

/-! ## The table -/

def SyncProfileId.valueAsI64 (id : SyncProfileId) : Except StorageError Int := do
  ensure (FitsI64 id.value) (.corruptEvidence "profile identifier is out of range")
  return id.value.toNat

/-- The rows, in the order of their identifiers, and the largest identifier
that was ever given out. -/
structure ProfileTable where
  sequence : Int
  rows : List ProfileRow

namespace ProfileTable

def empty : ProfileTable where
  sequence := 0
  rows := []

/-- Rewrite the row of an identifier. -/
def modifyRow (table : ProfileTable) (id : Int) (f : ProfileRow → ProfileRow) :
    ProfileTable :=
  { table with rows := table.rows.map fun row => if row.profileId = id then f row else row }

def loadProfile (isDir : Directories) (table : ProfileTable) (id : SyncProfileId) :
    Except StorageError (Option PersistedSyncProfile) := do
  let id ← id.valueAsI64
  match table.rows.find? fun row => row.profileId = id with
  | none => return none
  | some row => do
      row.fromRow
      return some (← materializeProfile isDir row)

def listProfiles (isDir : Directories) (table : ProfileTable) :
    Except StorageError (List PersistedSyncProfile) := do
  table.rows.forM ProfileRow.fromRow
  table.rows.mapM (materializeProfile isDir)

def insertProfile (table : ProfileTable) (values : ProfileValues)
    (authorizations : AuthorizationSnapshot) : Except StorageError (ProfileTable × Int) := do
  let id ← orError (checkedI64 (table.sequence + 1)) (.sqlite .full)
  ensure (∀ row ∈ table.rows, row.name ≠ values.name) (.sqlite .constraintViolation)
  let row : ProfileRow := { values with
    profileId := id
    scheduleEnabled := 0
    allowUnattendedDestructive := boolColumn authorizations.allowUnattendedDestructive
    allowUnattendedPermanentRemoval := boolColumn authorizations.allowUnattendedPermanentRemoval
    profileRevision := 0
    exclusions := []
    schedule := none }
  return ({ sequence := id, rows := table.rows ++ [row] }, id)

/-- The number of rows changed is 1 or 0: the identifier is a key. -/
def updateProfileRow (table : ProfileTable) (id : SyncProfileId) (values : ProfileValues)
    (authorizations : AuthorizationSnapshot) (expectedRevision : UInt64) :
    Except StorageError (ProfileTable × Nat) := do
  let id ← id.valueAsI64
  bindU64 expectedRevision
  if ∃ row ∈ table.rows, row.profileId = id ∧
      row.profileRevision = expectedRevision.toNat then do
    ensure (∀ row ∈ table.rows, row.profileId ≠ id → row.name ≠ values.name)
      (.sqlite .constraintViolation)
    return (table.modifyRow id fun row => { row with
      toProfileValues := values
      allowUnattendedDestructive := boolColumn authorizations.allowUnattendedDestructive
      allowUnattendedPermanentRemoval :=
        boolColumn authorizations.allowUnattendedPermanentRemoval
      profileRevision := row.profileRevision + 1 }, 1)
  else return (table, 0)

def insertExclusions (table : ProfileTable) (id : Int) (exclusions : List String) :
    Except StorageError ProfileTable := do
  ensure exclusions.Nodup (.sqlite .constraintViolation)
  return table.modifyRow id fun row => { row with exclusions }

end ProfileTable

end SyncPlus
