import SyncPlus.Lib.Procedures
import SyncPlus.ProfileStore

/-!
# Calls on the table of profiles

The store is used over several connections at a time, by the application
and by the background process. A call on one connection is a sequence of
transactions. Most of them read a profile in one transaction, decide, and
write in another, and what happens in between is only noticed as far as
the second transaction asks.
-/

namespace SyncPlus

/-! ## The database -/

inductive SchedulerEventKind where
  | scheduledRunClaimed
  deriving DecidableEq

structure SchedulerEvent where
  profileId : SyncProfileId
  runId : RunId
  kind : SchedulerEventKind
  createdAtUnixSeconds : Int64
  deriving DecidableEq

structure Database where
  profiles : ProfileTable
  runs : RunTable
  schedulerEvents : List SchedulerEvent

def Database.empty : Database where
  profiles := .empty
  runs := .empty
  schedulerEvents := []

/-- What a step sees besides the database, and whether the database refuses
it, as it does when another connection keeps it busy for too long. -/
structure Moment extends Environment where
  refused : Option SqliteError

def Environment.admitted (env : Environment) : Moment := { env with refused := none }

def Moment.begin (moment : Moment) : Except StorageError Unit :=
  match moment.refused with
  | none => .ok ()
  | some error => .error (.sqlite error)

structure ImportedProfile where
  profile : SyncProfile
  schedule : Option ScheduleDefinition
  deriving DecidableEq

structure ClaimedScheduledRun where
  profileId : SyncProfileId
  runId : RunId
  scheduledAtUnixSeconds : Int64
  snapshot : RunSnapshot
  deriving DecidableEq

/-- What a step is for. -/
inductive StoreStep where
  | look
  | load (id : SyncProfileId)
  | list
  | scan (profile : SyncProfile) (excluded : Option SyncProfileId)
  | store (profile : SyncProfile) (id : Option SyncProfileId)
  | replace (profiles : List ImportedProfile)
  | schedule (id : SyncProfileId)
  | claim (existing : PersistedSyncProfile) (scheduledAt now : Int64)
  | remove (id : SyncProfileId)

/-- A claim as its transaction saw it: the row of the profile before and
after. -/
structure ScheduleClaim where
  before : ProfileRow
  after : ProfileRow
  now : Int64
  claim : ClaimedScheduledRun
  deriving DecidableEq

/-- What transactions leave in the trace. -/
inductive Commit where
  | scheduleEdited (id : SyncProfileId)
  | claimed (claim : ScheduleClaim)
  deriving DecidableEq

abbrev StoreCall := Procedure Moment Database StoreStep Commit StorageError

namespace StoreCall

variable {α : Type}

/-- A look at the file system, outside of any transaction. -/
def look (f : Directories → Except StorageError α) : StoreCall α :=
  .query .look fun moment _ => f moment.isDir

def read (label : StoreStep) (f : Moment → Database → Except StorageError α) :
    StoreCall α :=
  .query label fun moment db => do
    moment.begin
    f moment db

def write (label : StoreStep)
    (f : Moment → Database → Except StorageError (α × Database × List Commit)) :
    StoreCall α :=
  .transaction label fun moment db => do
    moment.begin
    f moment db

def check (r : Except StorageError α) : StoreCall α := .ofExcept r

end StoreCall

open StoreCall

/-! ## Profiles -/

def loadProfile (id : SyncProfileId) : StoreCall (Option PersistedSyncProfile) :=
  read (.load id) fun moment db => db.profiles.loadProfile moment.isDir id

def loadExisting (id : SyncProfileId) : StoreCall PersistedSyncProfile := do
  let existing ← loadProfile id
  check (orError existing (.profileNotFound id))

section

variable (currentDir : Option PathBuf)

def rejectDuplicateEndpointPair (profile : SyncProfile)
    (excluded : Option SyncProfileId) : StoreCall Unit :=
  read (.scan profile excluded) fun moment db => do
    let profiles ← db.profiles.listProfiles moment.isDir
    ensure (∀ persisted ∈ profiles, some persisted.id ≠ excluded →
        ¬ (persisted.profile.peerA.sameEndpoint currentDir profile.peerA = true ∧
          persisted.profile.peerB.sameEndpoint currentDir profile.peerB = true))
      .duplicateEndpointPair

def createTransaction (profile : SyncProfile) (authorizations : AuthorizationSnapshot)
    (db : Database) : Except StorageError (Int × Database × List Commit) := do
  let (profiles, id) ← db.profiles.insertProfile (.fromProfile profile) authorizations
  let profiles ← profiles.insertExclusions id profile.exclusions
  return (id, { db with profiles }, [])

def createProfileWithAuthorizations (profile : SyncProfile)
    (authorizations : AuthorizationSnapshot) : StoreCall PersistedSyncProfile := do
  look fun isDir => validateProfile isDir profile
  check (validateAuthorizations profile authorizations)
  rejectDuplicateEndpointPair currentDir profile none
  let id ← write (.store profile none) fun _ => createTransaction profile authorizations
  let id ← check (orError (tryUnsigned 64 id) (.corruptEvidence "invalid profile identifier"))
  return {
    id := ⟨.ofNat id⟩, profile, scheduleEnabled := false, schedule := none, revision := 0,
    authorizations }

def createProfile (profile : SyncProfile) : StoreCall PersistedSyncProfile :=
  createProfileWithAuthorizations currentDir profile .default

def revisionExhausted : StorageError := .corruptEvidence "profile revision is exhausted"

/-- `u64::checked_add(1)`. -/
def nextRevision (revision : UInt64) : Except StorageError UInt64 :=
  if revision.toNat + 1 < 2 ^ 64 then .ok (revision + 1) else .error revisionExhausted

def updateTransaction (id : SyncProfileId) (profile : SyncProfile)
    (authorizations : AuthorizationSnapshot) (expectedRevision : UInt64) (db : Database) :
    Except StorageError (Unit × Database × List Commit) := do
  let (profiles, changed) ←
    db.profiles.updateProfileRow id (.fromProfile profile) authorizations expectedRevision
  ensure (changed = 1) .concurrentProfileUpdate
  let key ← id.valueAsI64
  let profiles ← profiles.insertExclusions key profile.exclusions
  return ((), { db with profiles }, [])

def updateProfileWithAuthorizationsIfRevision (id : SyncProfileId) (profile : SyncProfile)
    (authorizations : AuthorizationSnapshot) (expectedRevision : UInt64) :
    StoreCall PersistedSyncProfile := do
  look fun isDir => validateProfile isDir profile
  let existing ← loadExisting id
  check (ensure (existing.revision = expectedRevision) .concurrentProfileUpdate)
  rejectDuplicateEndpointPair currentDir profile (some id)
  let authorizations :=
    if unattendedAuthorizationScopeChanged existing.profile profile then .default
    else authorizations
  check (validateAuthorizations profile authorizations)
  write (.store profile (some id)) fun _ =>
    updateTransaction id profile authorizations expectedRevision
  let revision ← check (nextRevision existing.revision)
  return {
    id, profile, scheduleEnabled := existing.scheduleEnabled, schedule := existing.schedule,
    revision, authorizations }

def updateProfileWithAuthorizations (id : SyncProfileId) (profile : SyncProfile)
    (authorizations : AuthorizationSnapshot) : StoreCall PersistedSyncProfile := do
  look fun isDir => validateProfile isDir profile
  let existing ← loadExisting id
  updateProfileWithAuthorizationsIfRevision currentDir id profile authorizations
    existing.revision

def updateProfile (id : SyncProfileId) (profile : SyncProfile) :
    StoreCall PersistedSyncProfile := do
  let existing ← loadExisting id
  updateProfileWithAuthorizationsIfRevision currentDir id profile existing.authorizations
    existing.revision

def removeTransaction (id : SyncProfileId) (db : Database) :
    Except StorageError (Bool × Database × List Commit) := do
  let key ← id.valueAsI64
  return (db.profiles.rows.any fun row => row.profileId = key,
    { db with profiles := { db.profiles with
        rows := db.profiles.rows.filter fun row => row.profileId ≠ key } }, [])

def removeProfile (id : SyncProfileId) : StoreCall Bool :=
  write (.remove id) fun _ => removeTransaction id

/-! ## Imports -/

def validateImportedSchedule : Option ScheduleDefinition → Except StorageError Unit
  | none => .ok ()
  | some schedule => do
      schedule.validate
      ensure (schedule.enabled = false)
        (.invalidSchedule "imported schedules must be disabled until explicitly enabled")

/-- The checks of an import, with the profiles checked so far. -/
def validateImport (isDir : Directories) (checked : List SyncProfile) :
    List ImportedProfile → Except StorageError Unit
  | [] => .ok ()
  | imported :: rest => do
      validateProfile isDir imported.profile
      ensure (∀ profile ∈ checked, profile.name ≠ imported.profile.name)
        (.corruptEvidence "import contains duplicate Sync Profile names")
      validateImportedSchedule imported.schedule
      ensure (∀ profile ∈ checked,
          ¬ (profile.peerA.sameEndpoint currentDir imported.profile.peerA = true ∧
            profile.peerB.sameEndpoint currentDir imported.profile.peerB = true))
        .duplicateEndpointPair
      validateImport isDir (checked ++ [imported.profile]) rest

def insertImported (table : ProfileTable) (imported : ImportedProfile) :
    Except StorageError ProfileTable := do
  let (table, id) ← table.insertProfile (.fromProfile imported.profile) .default
  let table ← table.insertExclusions id imported.profile.exclusions
  match imported.schedule with
  | none => return table
  | some schedule =>
      return table.modifyRow id fun row => { row with
        schedule := some {
          intervalMinutes := schedule.intervalMinutes.toNat
          timezone := schedule.timezone
          enabled := 0
          nextRunAtUnixSeconds := none } }

def replaceTransaction (profiles : List ImportedProfile) (db : Database) :
    Except StorageError (Unit × Database × List Commit) := do
  let table ← profiles.foldlM insertImported { db.profiles with rows := [] }
  return ((), { db with profiles := table }, [])

def replaceConfiguration (profiles : List ImportedProfile) : StoreCall Unit := do
  look fun isDir => validateImport currentDir isDir [] profiles
  write (.replace profiles) fun _ => replaceTransaction profiles

end

/-! ## Schedules -/

def nonnegativeTime (now : Int64) : Except StorageError Unit :=
  ensure (0 ≤ now) (.invalidSchedule "current time must be a nonnegative Unix timestamp")

/-- What `update_schedule_at` checks against the profile. -/
def checkSchedule (existing : SyncProfile) (mode : ApplicationMode) :
    Option ScheduleDefinition → Except StorageError Unit
  | none => .ok ()
  | some schedule => do
      schedule.validate
      ensure (schedule.enabled = true → mode = .advanced) .scheduleRequiresAdvanced
      ensure (schedule.enabled = true → existing.options.safeDelete = true →
          existing.options.deletionMethod.isSome = true)
        (.invalidSchedule
          "scheduled Safe Delete requires an explicitly selected Deletion Method")

def scheduleTransaction (id : SyncProfileId) (schedule : Option ScheduleDefinition)
    (existing revision : UInt64) (db : Database) :
    Except StorageError (Unit × Database × List Commit) := do
  let key ← id.valueAsI64
  bindU64 revision
  bindU64 existing
  ensure (∃ row ∈ db.profiles.rows, row.profileId = key ∧
      row.profileRevision = existing.toNat) .concurrentProfileUpdate
  let profiles := db.profiles.modifyRow key fun row => { row with
    scheduleEnabled := boolColumn (isScheduleEnabled schedule)
    profileRevision := revision.toNat
    schedule := schedule.map .ofSchedule }
  return ((), { db with profiles }, [.scheduleEdited id])

def updateScheduleAt (id : SyncProfileId) (schedule : Option ScheduleDefinition)
    (mode : ApplicationMode) (now : Int64) : StoreCall PersistedSyncProfile := do
  check (nonnegativeTime now)
  let schedule ← check (schedule.mapM (withDefaultNextRun now))
  let existing ← loadExisting id
  check (checkSchedule existing.profile mode schedule)
  let revision ← check (nextRevision existing.revision)
  write (.schedule id) fun _ => scheduleTransaction id schedule existing.revision revision
  loadExisting id

/-! ## Claims -/

/-- The schedule of a row after a claim; none when it is not due at the
claimed time. -/
def ProfileRow.claimed (row : ProfileRow) (scheduledAt nextRun : Int64) :
    Option ProfileRow :=
  match row.schedule with
  | none => none
  | some schedule =>
      if schedule.enabled = 1 ∧ schedule.nextRunAtUnixSeconds = some scheduledAt.toInt then
        some { row with
          schedule := some { schedule with nextRunAtUnixSeconds := some nextRun.toInt } }
      else none

def claimTransaction (existing : PersistedSyncProfile) (scheduledAt nextRun now : Int64)
    (env : Environment) (db : Database) :
    Except StorageError (Option ClaimedScheduledRun × Database × List Commit) := do
  let key ← existing.id.valueAsI64
  let row ← orError (db.profiles.rows.find? fun row => row.profileId = key)
    (.sqlite .queryReturnedNoRows)
  row.readRevision 0
  if tryUnsigned 64 row.profileRevision ≠ some existing.revision.toNat then
    return (none, db, [])
  else do
    let (runs, runId) ← db.runs.allocateRunIdInTransaction
    let snapshot ←
      RunSnapshot.fromProfile env runId existing.profile existing.authorizations
    match row.claimed scheduledAt nextRun with
    | none => return (none, { db with runs }, [])
    | some after => do
        let runs ← runs.beginRunInTransaction snapshot
        let claim : ClaimedScheduledRun := {
          profileId := existing.id, runId, scheduledAtUnixSeconds := scheduledAt, snapshot }
        return (some claim, {
          profiles := db.profiles.modifyRow key fun _ => after
          runs
          schedulerEvents := db.schedulerEvents ++
            [⟨existing.id, runId, .scheduledRunClaimed, now⟩] },
          [.claimed { before := row, after, now, claim }])

def claimDueSchedule (id : SyncProfileId) (now : Int64) :
    StoreCall (Option ClaimedScheduledRun) := do
  check (nonnegativeTime now)
  let existing ← loadExisting id
  match existing.schedule with
  | none => return none
  | some schedule =>
      match schedule.nextRunAtUnixSeconds with
      | none => return none
      | some scheduledAt =>
          if schedule.enabled = false ∨ now < scheduledAt then return none
          else do
            let nextRun ← check (nextOccurrence schedule.intervalMinutes scheduledAt now)
            write (.claim existing scheduledAt now) fun moment db =>
              claimTransaction existing scheduledAt nextRun now moment.toEnvironment db

structure ScheduledRun where
  profileId : SyncProfileId
  runId : RunId
  scheduledAtUnixSeconds : Int64
  snapshot : RunSnapshot
  deriving DecidableEq

def ScheduledRun.fromClaim (claim : ClaimedScheduledRun) : ScheduledRun where
  profileId := claim.profileId
  runId := claim.runId
  scheduledAtUnixSeconds := claim.scheduledAtUnixSeconds
  snapshot := claim.snapshot

/-- The loop of `poll_due`, with the runs claimed so far. -/
def pollProfiles (now : Int64) (runs : List ScheduledRun) :
    List PersistedSyncProfile → StoreCall (List ScheduledRun)
  | [] => return runs
  | profile :: rest => do
      match ← claimDueSchedule profile.id now with
      | some claim => pollProfiles now (runs ++ [.fromClaim claim]) rest
      | none => pollProfiles now runs rest

/-- At the time that the clock of the scheduler showed. -/
def pollDue (now : Int64) : StoreCall (List ScheduledRun) := do
  let profiles ← read .list fun moment db => db.profiles.listProfiles moment.isDir
  pollProfiles now [] (profiles.filter (·.scheduleEnabled))

/-! ## Requests -/

inductive Request where
  | createProfile (profile : SyncProfile)
  | createProfileWithAuthorizations (profile : SyncProfile)
      (authorizations : AuthorizationSnapshot)
  | updateProfile (id : SyncProfileId) (profile : SyncProfile)
  | updateProfileWithAuthorizations (id : SyncProfileId) (profile : SyncProfile)
      (authorizations : AuthorizationSnapshot)
  | updateProfileWithAuthorizationsIfRevision (id : SyncProfileId) (profile : SyncProfile)
      (authorizations : AuthorizationSnapshot) (expectedRevision : UInt64)
  | replaceConfiguration (profiles : List ImportedProfile)
  | updateScheduleAt (id : SyncProfileId) (schedule : Option ScheduleDefinition)
      (mode : ApplicationMode) (now : Int64)
  | removeProfile (id : SyncProfileId)
  | claimDueSchedule (id : SyncProfileId) (now : Int64)
  | pollDue (now : Int64)

inductive Answer where
  | profile (persisted : PersistedSyncProfile)
  | replaced
  | removed (changed : Bool)
  | claimed (claim : Option ClaimedScheduledRun)
  | polled (runs : List ScheduledRun)
  deriving DecidableEq

def Request.body (currentDir : Option PathBuf) : Request → StoreCall Answer
  | .createProfile profile => do
      return .profile (← SyncPlus.createProfile currentDir profile)
  | .createProfileWithAuthorizations profile authorizations => do
      return .profile
        (← SyncPlus.createProfileWithAuthorizations currentDir profile authorizations)
  | .updateProfile id profile => do
      return .profile (← SyncPlus.updateProfile currentDir id profile)
  | .updateProfileWithAuthorizations id profile authorizations => do
      return .profile
        (← SyncPlus.updateProfileWithAuthorizations currentDir id profile authorizations)
  | .updateProfileWithAuthorizationsIfRevision id profile authorizations expectedRevision => do
      return .profile (← SyncPlus.updateProfileWithAuthorizationsIfRevision currentDir id
        profile authorizations expectedRevision)
  | .replaceConfiguration profiles => do
      SyncPlus.replaceConfiguration currentDir profiles
      return .replaced
  | .updateScheduleAt id schedule mode now => do
      return .profile (← SyncPlus.updateScheduleAt id schedule mode now)
  | .removeProfile id => do
      return .removed (← SyncPlus.removeProfile id)
  | .claimDueSchedule id now => do
      return .claimed (← SyncPlus.claimDueSchedule id now)
  | .pollDue now => do
      return .polled (← SyncPlus.pollDue now)

end SyncPlus
