import SyncPlus.ProfileCalls

/-!
# Configuration transfer

Settings and profiles leave the store as one JSON document and come back
from one. An export reads what the store holds; an import reads the whole
document, checks it, and replaces settings and profiles in one transaction.

The document has no place for credentials, and an import takes the
authority to delete and to run unattended from what it reads: options are
stripped, schedules are switched off, authorizations are the default.

The text of a document is left to its JSON codec, of which only one thing is
known: what it writes is read back.
-/

namespace SyncPlus

/-! ## Settings -/

inductive ThemePreference where
  | system
  | light
  | dark
  deriving Repr, DecidableEq

structure ApplicationSettings where
  mode : ApplicationMode
  theme : ThemePreference
  hideToTrayOnWindowClose : Bool
  deriving Repr, DecidableEq

def encodeApplicationMode : ApplicationMode → String
  | .simple => "simple"
  | .advanced => "advanced"

def corruptSettings : StorageError := .corruptEvidence "corrupt application settings"

def decodeApplicationMode (value : String) : Except StorageError ApplicationMode :=
  if value = "simple" then .ok .simple
  else if value = "advanced" then .ok .advanced
  else .error corruptSettings

def encodeThemePreference : ThemePreference → String
  | .system => "system"
  | .light => "light"
  | .dark => "dark"

def decodeThemePreference (value : String) : Except StorageError ThemePreference :=
  if value = "system" then .ok .system
  else if value = "light" then .ok .light
  else if value = "dark" then .ok .dark
  else .error corruptSettings

def encodeBoolText (value : Bool) : String := if value then "true" else "false"

def decodeBoolText (value field : String) : Except StorageError Bool :=
  if value = "true" then .ok true
  else if value = "false" then .ok false
  else .error (.corruptEvidence ("corrupt application setting " ++ field))

/-- The values of the keys `ui_mode`, `theme` and `hide_to_tray_on_close`. -/
structure SettingsTable where
  uiMode : Option String
  theme : Option String
  hideToTrayOnClose : Option String
  deriving DecidableEq

def SettingsTable.empty : SettingsTable := ⟨none, none, none⟩

/-- What a value is read as, when there is one. -/
def readSetting {α : Type} (value : Option String) (decode : String → Except StorageError α)
    (default : α) : Except StorageError α :=
  match value with
  | none => .ok default
  | some value => decode value

def SettingsTable.loadSettings (table : SettingsTable) :
    Except StorageError ApplicationSettings := do
  let mode ← readSetting table.uiMode decodeApplicationMode .simple
  let theme ← readSetting table.theme decodeThemePreference .system
  let hideToTrayOnWindowClose ← readSetting table.hideToTrayOnClose
    (fun value => decodeBoolText value "hide_to_tray_on_close") true
  return { mode, theme, hideToTrayOnWindowClose }

/-- The rows that are written for settings, over whatever there was. -/
def SettingsTable.ofSettings (settings : ApplicationSettings) : SettingsTable where
  uiMode := some (encodeApplicationMode settings.mode)
  theme := some (encodeThemePreference settings.theme)
  hideToTrayOnClose := some (encodeBoolText settings.hideToTrayOnWindowClose)

/-- What was saved is loaded. -/
theorem loadSettings_ofSettings (settings : ApplicationSettings) :
    (SettingsTable.ofSettings settings).loadSettings = .ok settings := by
  rcases settings with ⟨mode, theme, hide⟩
  cases mode <;> cases theme <;> cases hide <;> rfl

/-! ## The document -/

def currentSchemaVersion : UInt32 := 1

def maxProfiles : Nat := 1000

def maxExclusionsPerProfile : Nat := 10000

inductive ExportAuthentication where
  | key
  | agent
  | interactive
  deriving DecidableEq

inductive ExportPeer where
  | local (name root : String)
  | ssh (name server username : String) (port : UInt16) (identity : Option String)
      (authentication : ExportAuthentication) (remotePath : String)
  deriving DecidableEq

structure ExportOptions where
  safeDelete : Bool
  destinationCleanup : Bool
  deletionMethod : Option DeletionMethod
  metadata : MetadataRequirements
  partialTransferPolicy : PartialTransferPolicy
  retryMaxAttempts : UInt8
  retryInitialDelayMillis : UInt64
  bandwidthLimitKibPerSecond : Option UInt64
  deriving DecidableEq

structure ExportSchedule where
  intervalMinutes : UInt32
  timezone : String
  enabled : Bool
  deriving DecidableEq

structure ExportProfile where
  name : String
  peerA : ExportPeer
  peerB : ExportPeer
  mode : SyncMode
  source : OneWaySource
  options : ExportOptions
  exclusions : List String
  schedule : Option ExportSchedule
  deriving DecidableEq

structure ExportConfiguration where
  schemaVersion : UInt32
  settings : ApplicationSettings
  profiles : List ExportProfile
  deriving DecidableEq

structure JsonError where
  message : String
  deriving DecidableEq

/-- Writing a document as JSON, and reading JSON as a document. -/
structure JsonCodec where
  toStringPretty : ExportConfiguration → Except JsonError String
  fromStr : String → Except JsonError ExportConfiguration
  fromStr_toStringPretty : ∀ document text,
    toStringPretty document = .ok text → fromStr text = .ok document

/-- What is wrong with a field: a text, or what another check reports. -/
inductive InvalidReason where
  | text (reason : String)
  | peer (error : SshPeerError)
  | schedule (error : StorageError)
  | notExecutable (error : ProcessSpecError)
  deriving DecidableEq

inductive ConfigurationTransferError where
  | json (error : JsonError)
  | unsupportedSchemaVersion (version : UInt32)
  | invalidConfiguration (field : String) (reason : InvalidReason)
  | storage (error : StorageError)
  deriving DecidableEq

def invalid (field reason : String) : ConfigurationTransferError :=
  .invalidConfiguration field (.text reason)

/-! ## Exports -/

def pathToString (path : PathBuf) (field : String) :
    Except ConfigurationTransferError String :=
  orError path.toText
    (invalid field "contains a non-Unicode path that cannot be represented in JSON")

/-- A saved password is exported as a password to be asked for. -/
def ExportAuthentication.ofAuthentication : SshAuthentication → ExportAuthentication
  | .key => key
  | .agent => agent
  | .interactivePassword | .savedPassword _ => interactive

def ExportPeer.fromPeer (peer : Peer) (field : String) :
    Except ConfigurationTransferError ExportPeer :=
  match peer.endpoint with
  | .local root => do
      return .local peer.name (← pathToString root field)
  | .ssh remote => do
      let identity ← remote.identity.mapM fun path => pathToString path field
      let remotePath ← pathToString remote.remotePath field
      return .ssh peer.name remote.server remote.username remote.port identity
        (.ofAuthentication remote.authentication) remotePath

def ExportOptions.fromOptions (options : SyncOptions) : ExportOptions where
  safeDelete := options.safeDelete
  destinationCleanup := options.destinationCleanup
  deletionMethod := options.deletionMethod
  metadata := options.metadata
  partialTransferPolicy := options.partialTransferPolicy
  retryMaxAttempts := options.retryPolicy.maxAttempts
  retryInitialDelayMillis := .ofNat options.retryPolicy.initialDelay.asMillis
  bandwidthLimitKibPerSecond := options.bandwidthLimitKibPerSecond

def ExportSchedule.fromSchedule (schedule : ScheduleDefinition) : ExportSchedule where
  intervalMinutes := schedule.intervalMinutes
  timezone := schedule.timezone
  enabled := schedule.enabled

def ExportProfile.fromPersisted (persisted : PersistedSyncProfile) :
    Except ConfigurationTransferError ExportProfile := do
  let profile := persisted.profile
  let peerA ← ExportPeer.fromPeer profile.peerA "peer_a"
  let peerB ← ExportPeer.fromPeer profile.peerB "peer_b"
  return {
    name := profile.name, peerA, peerB, mode := profile.mode, source := profile.source
    options := .fromOptions profile.options, exclusions := profile.exclusions
    schedule := persisted.schedule.map .fromSchedule }

structure ApplicationDatabase extends Database where
  settings : SettingsTable

def ApplicationDatabase.listProfiles (db : ApplicationDatabase) (moment : Moment) :
    Except ConfigurationTransferError (List PersistedSyncProfile) :=
  Except.mapError .storage do
    moment.begin
    db.profiles.listProfiles moment.isDir

def exportConfiguration (json : JsonCodec) (moment : Moment) (db : ApplicationDatabase) :
    Except ConfigurationTransferError String := do
  moment.begin.mapError .storage
  let settings ← db.settings.loadSettings.mapError .storage
  let persisted ← db.listProfiles moment
  let profiles ← persisted.mapM ExportProfile.fromPersisted
  (json.toStringPretty { schemaVersion := currentSchemaVersion, settings, profiles }).mapError
    .json

/-! ## Imports -/

def ExportAuthentication.authentication : ExportAuthentication → SshAuthentication
  | key => .key
  | agent => .agent
  | interactive => .interactivePassword

/-- The peer, and whether its password has to be set up again. -/
def ExportPeer.intoPeer (field : String) :
    ExportPeer → Except ConfigurationTransferError (Peer × Bool)
  | .local name root => .ok (⟨name, .local (.ofText root)⟩, false)
  | .ssh name server username port identity authentication remotePath => do
      let peer ← (SshPeer.new server username port (identity.map .ofText)
        authentication.authentication remotePath).mapError
          fun error => .invalidConfiguration field (.peer error)
      return (⟨name, .ssh peer⟩, authentication = .interactive)

/-- The options without the destructive ones, and whether there were any. -/
def ExportOptions.intoSafeOptions (options : ExportOptions) : SyncOptions × Bool :=
  ({ safeDelete := false
     destinationCleanup := false
     deletionMethod := none
     metadata := options.metadata
     partialTransferPolicy := options.partialTransferPolicy
     retryPolicy := {
       maxAttempts := options.retryMaxAttempts
       initialDelay := .fromMillis options.retryInitialDelayMillis.toNat }
     bandwidthLimitKibPerSecond := options.bandwidthLimitKibPerSecond },
    options.safeDelete || options.destinationCleanup || options.deletionMethod.isSome)

/-- `ScheduleDefinition::new`, switched off. -/
def ExportSchedule.intoSchedule (schedule : ExportSchedule) (field : String) :
    Except ConfigurationTransferError ScheduleDefinition := do
  let definition : ScheduleDefinition := {
    intervalMinutes := schedule.intervalMinutes
    timezone := schedule.timezone
    enabled := false
    nextRunAtUnixSeconds := none }
  definition.validate.mapError fun error => .invalidConfiguration field (.schedule error)
  return definition

structure PreparedProfile where
  imported : ImportedProfile
  strippedDestructive : Bool
  requiresReconfiguration : Bool
  wasEnabled : Bool
  deriving DecidableEq

section

variable (currentDir : Option PathBuf) (isDir : Directories)

/-- One profile of a document, with those before it. -/
def prepareProfile (index : Nat) (checked : List SyncProfile) (exported : ExportProfile) :
    Except ConfigurationTransferError PreparedProfile := do
  let field := s!"profiles[{index}]"
  let invalidName := "must be a nonempty value of at most 255 characters"
  ensure (∀ profile ∈ checked, profile.name ≠ exported.name)
    (invalid (field ++ ".name") "profile names must be unique")
  ensure (validPeerName exported.name) (invalid (field ++ ".name") invalidName)
  ensure (exported.exclusions.length ≤ maxExclusionsPerProfile)
    (invalid (field ++ ".exclusions") s!"must contain at most {maxExclusionsPerProfile} patterns")
  let (peerA, reconfigureA) ← exported.peerA.intoPeer (field ++ ".peer_a")
  let (peerB, reconfigureB) ← exported.peerB.intoPeer (field ++ ".peer_b")
  ensure (validPeerName peerA.name) (invalid (field ++ ".peer_a.name") invalidName)
  ensure (validPeerName peerB.name) (invalid (field ++ ".peer_b.name") invalidName)
  ensure (∀ profile ∈ checked, ¬ (profile.peerA.sameEndpoint currentDir peerA = true ∧
      profile.peerB.sameEndpoint currentDir peerB = true))
    (invalid field "the endpoint pair duplicates another imported Sync Profile")
  let (options, strippedDestructive) := exported.options.intoSafeOptions
  let schedule ← exported.schedule.mapM fun schedule =>
    schedule.intoSchedule (field ++ ".schedule")
  let profile : SyncProfile := {
    name := exported.name, peerA, peerB, mode := exported.mode, source := exported.source
    options, exclusions := exported.exclusions }
  let _ ← (ProcessSpecification.fromProfile isDir profile).mapError
    fun error => .invalidConfiguration (field ++ ".options") (.notExecutable error)
  return {
    imported := ⟨profile, schedule⟩, strippedDestructive
    requiresReconfiguration := reconfigureA || reconfigureB
    wasEnabled := exported.schedule.any (·.enabled) }

/-- The profiles of a document, with what was prepared so far. -/
def prepareProfiles (prepared : List PreparedProfile) :
    List ExportProfile → Except ConfigurationTransferError (List PreparedProfile)
  | [] => .ok prepared
  | exported :: rest => do
      let next ← prepareProfile currentDir isDir prepared.length
        (prepared.map (·.imported.profile)) exported
      prepareProfiles (prepared ++ [next]) rest

structure ConfigurationImportPreview where
  profileNames : List String
  scheduleCount : Nat
  replacesExistingProfiles : Bool
  destructiveOptionsStripped : Nat
  credentialsRequiringReconfiguration : Nat
  enabledSchedulesDisabled : Nat
  deriving DecidableEq

structure PreparedImport where
  settings : ApplicationSettings
  profiles : List ImportedProfile
  preview : ConfigurationImportPreview

def prepareImport (json : JsonCodec) (text : String) (existingProfileCount : Nat) :
    Except ConfigurationTransferError PreparedImport := do
  let document ← (json.fromStr text).mapError .json
  ensure (document.schemaVersion = currentSchemaVersion)
    (.unsupportedSchemaVersion document.schemaVersion)
  ensure (document.profiles.length ≤ maxProfiles)
    (invalid "profiles" s!"must contain at most {maxProfiles} profiles")
  let prepared ← prepareProfiles currentDir isDir [] document.profiles
  return {
    settings := document.settings
    profiles := prepared.map (·.imported)
    preview := {
      profileNames := prepared.map (·.imported.profile.name)
      scheduleCount := (prepared.filter (·.imported.schedule.isSome)).length
      replacesExistingProfiles := 0 < existingProfileCount
      destructiveOptionsStripped := (prepared.filter (·.strippedDestructive)).length
      credentialsRequiringReconfiguration :=
        (prepared.filter (·.requiresReconfiguration)).length
      enabledSchedulesDisabled := (prepared.filter (·.wasEnabled)).length } }

end

/-- What a step of a transfer is for. -/
inductive TransferStep where
  | list
  | prepare
  | validate
  | replace

abbrev TransferCall :=
  Procedure Moment ApplicationDatabase TransferStep Unit ConfigurationTransferError

/-- The transaction of `replace_configuration`, with the settings. -/
def replaceAll (settings : ApplicationSettings) (profiles : List ImportedProfile)
    (moment : Moment) (db : ApplicationDatabase) :
    Except ConfigurationTransferError (Unit × ApplicationDatabase × List Unit) :=
  Except.mapError .storage do
    moment.begin
    let (_, replaced, _) ← replaceTransaction profiles db.toDatabase
    return ((), { toDatabase := replaced, settings := .ofSettings settings }, [])

def importConfiguration (json : JsonCodec) (currentDir : Option PathBuf) (text : String) :
    TransferCall ConfigurationImportPreview := do
  let existing ← .query .list fun moment db => db.listProfiles moment
  let prepared ← .query .prepare fun moment _ =>
    prepareImport currentDir moment.isDir json text existing.length
  .query .validate fun moment _ =>
    (validateImport currentDir moment.isDir [] prepared.profiles).mapError
      ConfigurationTransferError.storage
  .transaction .replace (replaceAll prepared.settings prepared.profiles)
  return prepared.preview

end SyncPlus
