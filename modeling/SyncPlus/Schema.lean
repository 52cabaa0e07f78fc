import SyncPlus.Lib.Tables

/-!
# The schema

The tables and indexes of the application database, and what each migration creates or
adds, for the schema versions in order. The type of a column does not restrict its
values, a row identifier apart; foreign keys are not part of what `integrity_check`
looks at, and no migration removes a row that one refers to.
-/

namespace SyncPlus

/-! ## Columns and checks -/

/-- The checks of a column. None of them refuses NULL. -/
inductive ColumnCheck where
  | isBoolean
  | isOneOf (texts : List String)
  | isNotEmpty
  | hasLengthBetween (least most : Nat)
  | isBetween (least most : Int64)
  | isAtLeast (least : Int64)
  | isPositive

namespace SqlValue

def isInteger : SqlValue → Bool
  | integer _ => true
  | _ => false

/-- `length(X)`: the characters of a text before the first NUL, or the bytes. -/
def length : SqlValue → Nat
  | null => 0
  | integer value => (toString value).length
  | text value => (value.toList.takeWhile (· ≠ Char.ofNat 0)).length
  | blob bytes => bytes.length

/-- The order of values: NULL, then integers, texts and blobs. -/
def le : SqlValue → SqlValue → Bool
  | null, _ => true
  | integer a, integer b => decide (a ≤ b)
  | integer _, text _ | integer _, blob _ | text _, blob _ => true
  | text a, text b => decide (a ≤ b)
  | blob a, blob b => decide (a ≤ b)
  | _, _ => false

/-- `MAX(X, Y)`, of values that are not NULL. -/
def max (a b : SqlValue) : SqlValue := if a.le b then b else a

end SqlValue

namespace ColumnCheck

def holds : ColumnCheck → SqlValue → Bool
  | _, .null => true
  | isBoolean, value => value = .integer 0 || value = .integer 1
  | isOneOf texts, value => texts.any fun text => value = .text text
  | isNotEmpty, value => 0 < value.length
  | hasLengthBetween least most, value => least ≤ value.length && value.length ≤ most
  | isBetween least most, value => (SqlValue.integer least).le value && value.le (.integer most)
  | isAtLeast least, value => (SqlValue.integer least).le value
  | isPositive, value => (SqlValue.integer 1).le value

end ColumnCheck

namespace ColumnDefinition

def nullable (name : String) : ColumnDefinition := ⟨name, .null, fun _ => true⟩

def notNull (name : String) : ColumnDefinition := ⟨name, .null, fun value => value ≠ .null⟩

/-- `NOT NULL DEFAULT`. -/
def withDefault (name : String) (default : SqlValue) : ColumnDefinition :=
  { notNull name with default }

/-- `INTEGER PRIMARY KEY`. -/
def rowId (name : String) : ColumnDefinition := ⟨name, .null, SqlValue.isInteger⟩

def checked (column : ColumnDefinition) (check : ColumnCheck) : ColumnDefinition :=
  { column with allows := fun value => column.allows value && check.holds value }

end ColumnDefinition

/-- `CHECK (column >= other)`. -/
def RowCheck.isAtLeastColumn (column other : String) : RowCheck where
  columns := [column, other]
  holds
    | [a, b] => a = .null || b.le a
    | _ => true

/-! ## Tables -/

inductive TableName where
  | runSnapshots
  | snapshotExclusions
  | actionEvents
  | sourceInventoryItems
  | reconciliationRuns
  | reconciliationFindings
  | destinationInventoryItems
  | syncBaselines
  | syncBaselineItems
  | mirrorResolutionItems
  | sshHostFingerprints
  | applicationSettings
  | applicationSettingsV19
  | syncProfiles
  | syncProfileExclusions
  | syncProfileSchedules
  | runIdSequence
  | missedScheduleNotices
  | schedulerEvents
  deriving DecidableEq

inductive IndexName where
  | actionEventsByRun
  | mirrorResolutionItemsByRun
  | syncProfilesByName
  | missedScheduleNoticesByProfile
  | onePendingMissedScheduleNoticePerProfile
  | schedulerEventsByRun
  | schedulerEventsByProfile
  deriving DecidableEq

def TableName.runSnapshotsDefinition : TableDefinition where
  columns := 
    [.rowId "run_id", .notNull "snapshot_id", .notNull "profile_name", .notNull "peer_a_name",
     .notNull "peer_a_root", .notNull "peer_b_name", .notNull "peer_b_root", .notNull "mode",
     .notNull "source", .notNull "safe_delete", .notNull "destination_cleanup",
     .nullable "deletion_method", .notNull "allow_unattended_destructive",
     .notNull "allow_unattended_permanent_removal"]
  checks := []
  keys := [["run_id"]]

def TableName.snapshotExclusionsDefinition : TableDefinition where
  columns := 
    [.notNull "run_id", .notNull "ordinal", .notNull "pattern"]
  checks := []
  keys := [["run_id", "ordinal"]]

def TableName.actionEventsDefinition : TableDefinition where
  columns := 
    [.notNull "run_id", .notNull "action_id", .notNull "sequence", .notNull "phase",
     .nullable "relative_path", .nullable "operation", .nullable "affected_side",
     .nullable "planned_bytes", .nullable "pre_item_type", .nullable "pre_size",
     .nullable "pre_modified_at_unix_nanos", .nullable "pre_device", .nullable "pre_inode",
     .nullable "pre_sha256", .nullable "progress_bytes", .nullable "reason"]
  checks := []
  keys := [["run_id", "action_id", "sequence"]]

def TableName.sourceInventoryItemsDefinition : TableDefinition where
  columns := 
    [.notNull "run_id", .notNull "ordinal", .notNull "relative_path", .notNull "item_type",
     .notNull "outcome", .notNull "size", .nullable "modified_at_unix_nanos", .notNull "readonly",
     .nullable "symlink_target", .nullable "content_fingerprint"]
  checks := []
  keys := [["run_id", "ordinal"], ["run_id", "relative_path"]]

def TableName.reconciliationRunsDefinition : TableDefinition where
  columns := 
    [.rowId "run_id", .notNull "source_drain_status"]
  checks := []
  keys := [["run_id"]]

def TableName.reconciliationFindingsDefinition : TableDefinition where
  columns := 
    [.notNull "run_id", .notNull "ordinal", .notNull "relative_path", .notNull "kind",
     .notNull "reason", .nullable "action_reason"]
  checks := []
  keys := [["run_id", "ordinal"]]

def TableName.destinationInventoryItemsDefinition : TableDefinition where
  columns := 
    [.notNull "run_id", .notNull "ordinal", .notNull "relative_path", .notNull "item_type",
     .notNull "outcome", .notNull "size", .nullable "modified_at_unix_nanos", .notNull "readonly",
     .nullable "permissions", .nullable "symlink_target", .nullable "content_fingerprint"]
  checks := []
  keys := [["run_id", "ordinal"], ["run_id", "relative_path"]]

def TableName.syncBaselinesDefinition : TableDefinition where
  columns := 
    [.nullable "profile_name", .notNull "peer_a_name", .notNull "peer_a_root",
     .notNull "peer_b_name", .notNull "peer_b_root", .notNull "metadata_file_type",
     .notNull "metadata_executable_permissions", .notNull "metadata_symlink_targets",
     .notNull "metadata_timestamps", .notNull "metadata_ownership",
     .notNull "metadata_access_control_lists", .notNull "metadata_extended_attributes"]
  checks := []
  keys := [["profile_name"]]

def TableName.syncBaselineItemsDefinition : TableDefinition where
  columns := 
    [.notNull "profile_name", .notNull "ordinal", .notNull "relative_path",
     .notNull "peer_a_present", .nullable "peer_a_item_type", .nullable "peer_a_size",
     .nullable "peer_a_modified_at_unix_nanos", .nullable "peer_a_readonly",
     .nullable "peer_a_permissions", .nullable "peer_a_symlink_target",
     .nullable "peer_a_content_fingerprint", .notNull "peer_b_present",
     .nullable "peer_b_item_type", .nullable "peer_b_size",
     .nullable "peer_b_modified_at_unix_nanos", .nullable "peer_b_readonly",
     .nullable "peer_b_permissions", .nullable "peer_b_symlink_target",
     .nullable "peer_b_content_fingerprint"]
  checks := []
  keys := [["profile_name", "ordinal"], ["profile_name", "relative_path"]]

def TableName.mirrorResolutionItemsDefinition : TableDefinition where
  columns := 
    [.notNull "run_id", .notNull "ordinal", .notNull "original_path", .nullable "generated_path",
     .notNull "resolution", .notNull "operation", .nullable "source_peer",
     .nullable "target_peer", .notNull "outcome", .nullable "action_reason",
     .notNull "review_state"]
  checks := []
  keys := [["run_id", "ordinal"]]

def TableName.sshHostFingerprintsDefinition : TableDefinition where
  columns := 
    [.notNull "server", .notNull "port", .notNull "algorithm", .notNull "digest"]
  checks := []
  keys := [["server", "port"]]

def TableName.applicationSettingsDefinition : TableDefinition where
  columns := 
    [.checked (.nullable "key") (.isOneOf ["ui_mode", "theme", "hide_to_tray_on_close"]),
     .checked (.notNull "value") .isNotEmpty]
  checks := []
  keys := [["key"]]

def TableName.syncProfilesDefinition : TableDefinition where
  columns := 
    [.rowId "profile_id", .notNull "name",
     .checked (.notNull "mode") (.isOneOf ["one_way", "mirror"]),
     .checked (.notNull "source") (.isOneOf ["peer_a", "peer_b"]), .notNull "peer_a_name",
     .checked (.notNull "peer_a_endpoint_kind") (.isOneOf ["local", "ssh"]),
     .notNull "peer_a_root", .nullable "peer_a_server", .nullable "peer_a_username",
     .nullable "peer_a_port", .nullable "peer_a_identity", .nullable "peer_a_authentication",
     .notNull "peer_b_name",
     .checked (.notNull "peer_b_endpoint_kind") (.isOneOf ["local", "ssh"]),
     .notNull "peer_b_root", .nullable "peer_b_server", .nullable "peer_b_username",
     .nullable "peer_b_port", .nullable "peer_b_identity", .nullable "peer_b_authentication",
     .checked (.notNull "safe_delete") .isBoolean,
     .checked (.notNull "destination_cleanup") .isBoolean,
     .checked (.nullable "deletion_method") (.isOneOf ["trash", "permanent_removal"]),
     .checked (.notNull "metadata_file_type") .isBoolean,
     .checked (.notNull "metadata_executable_permissions") .isBoolean,
     .checked (.notNull "metadata_symlink_targets") .isBoolean,
     .checked (.notNull "metadata_timestamps") .isBoolean,
     .checked (.notNull "metadata_ownership") .isBoolean,
     .checked (.notNull "metadata_access_control_lists") .isBoolean,
     .checked (.notNull "metadata_extended_attributes") .isBoolean,
     .checked (.notNull "partial_transfer_policy")
       (.isOneOf ["cleanup", "keep_partial_for_resume"]),
     .notNull "retry_max_attempts", .notNull "retry_initial_delay_millis",
     .checked (.withDefault "schedule_enabled" (.integer 0)) .isBoolean,
     .checked (.withDefault "allow_unattended_destructive" (.integer 0)) .isBoolean,
     .checked (.withDefault "allow_unattended_permanent_removal" (.integer 0)) .isBoolean]
  checks := []
  keys := [["profile_id"], ["name"]]

def TableName.syncProfileExclusionsDefinition : TableDefinition where
  columns := 
    [.notNull "profile_id", .notNull "ordinal", .notNull "pattern"]
  checks := []
  keys := [["profile_id", "ordinal"], ["profile_id", "pattern"]]

def TableName.syncProfileSchedulesDefinition : TableDefinition where
  columns := 
    [.rowId "profile_id", .checked (.notNull "interval_minutes") (.isBetween 1 10080),
     .checked (.notNull "timezone") (.hasLengthBetween 1 128),
     .checked (.withDefault "enabled" (.integer 0)) .isBoolean]
  checks := []
  keys := [["profile_id"]]

def TableName.runIdSequenceDefinition : TableDefinition where
  columns := 
    [.checked (.rowId "sequence_id") (.isBetween 1 1),
     .checked (.notNull "next_run_id") (.isAtLeast 1)]
  checks := []
  keys := [["sequence_id"]]

def TableName.missedScheduleNoticesDefinition : TableDefinition where
  columns := 
    [.rowId "notice_id", .notNull "profile_id", .notNull "run_id",
     .checked (.notNull "first_scheduled_at_unix_seconds") (.isAtLeast 0),
     .notNull "latest_scheduled_at_unix_seconds", .checked (.notNull "reason") .isNotEmpty,
     .checked (.notNull "decision") (.isOneOf ["pending", "run_now", "not_now"]),
     .checked (.notNull "missed_count") .isPositive, .notNull "created_at_unix_seconds"]
  checks := [.isAtLeastColumn "latest_scheduled_at_unix_seconds" "first_scheduled_at_unix_seconds"]
  keys := [["notice_id"]]

def TableName.schedulerEventsDefinition : TableDefinition where
  columns := 
    [.rowId "event_id", .notNull "profile_id", .notNull "run_id",
     .checked (.notNull "event_kind")
       (.isOneOf ["scheduled_run_claimed", "completed", "failed", "cancelled", "interrupted",
         "pending_review", "review_cleared", "missed", "skipped_overlap", "blocked_preflight",
         "retry", "retry_exhausted"]),
     .checked (.notNull "reason") .isNotEmpty, .checked (.notNull "next_action") .isNotEmpty,
     .checked (.notNull "created_at_unix_seconds") (.isAtLeast 0), .nullable "missed_notice_id",
     .checked (.nullable "retry_count") .isPositive]
  checks := []
  keys := [["event_id"]]

def TableName.definition : TableName → TableDefinition
  | runSnapshots => runSnapshotsDefinition
  | snapshotExclusions => snapshotExclusionsDefinition
  | actionEvents => actionEventsDefinition
  | sourceInventoryItems => sourceInventoryItemsDefinition
  | reconciliationRuns => reconciliationRunsDefinition
  | reconciliationFindings => reconciliationFindingsDefinition
  | destinationInventoryItems => destinationInventoryItemsDefinition
  | syncBaselines => syncBaselinesDefinition
  | syncBaselineItems => syncBaselineItemsDefinition
  | mirrorResolutionItems => mirrorResolutionItemsDefinition
  | sshHostFingerprints => sshHostFingerprintsDefinition
  | applicationSettings => applicationSettingsDefinition
  | applicationSettingsV19 => applicationSettingsDefinition
  | syncProfiles => syncProfilesDefinition
  | syncProfileExclusions => syncProfileExclusionsDefinition
  | syncProfileSchedules => syncProfileSchedulesDefinition
  | runIdSequence => runIdSequenceDefinition
  | missedScheduleNotices => missedScheduleNoticesDefinition
  | schedulerEvents => schedulerEventsDefinition

def IndexName.definition : IndexName → IndexDefinition TableName
  | actionEventsByRun => ⟨.actionEvents, ["run_id", "action_id", "sequence"], none⟩
  | mirrorResolutionItemsByRun => ⟨.mirrorResolutionItems, ["run_id", "ordinal"], none⟩
  | syncProfilesByName => ⟨.syncProfiles, ["name"], none⟩
  | missedScheduleNoticesByProfile =>
      ⟨.missedScheduleNotices, ["profile_id", "latest_scheduled_at_unix_seconds"], none⟩
  | onePendingMissedScheduleNoticePerProfile =>
      ⟨.missedScheduleNotices, ["profile_id"],
        some ⟨["decision"], fun values => values = [.text "pending"]⟩⟩
  | schedulerEventsByRun => ⟨.schedulerEvents, ["run_id", "event_id"], none⟩
  | schedulerEventsByProfile => ⟨.schedulerEvents, ["profile_id", "event_id"], none⟩

def TableName.all : List TableName :=
  [.runSnapshots, .snapshotExclusions, .actionEvents, .sourceInventoryItems, .reconciliationRuns,
   .reconciliationFindings, .destinationInventoryItems, .syncBaselines, .syncBaselineItems,
   .mirrorResolutionItems, .sshHostFingerprints, .applicationSettings, .applicationSettingsV19,
   .syncProfiles, .syncProfileExclusions, .syncProfileSchedules, .runIdSequence,
   .missedScheduleNotices, .schedulerEvents]

def IndexName.all : List IndexName :=
  [.actionEventsByRun, .mirrorResolutionItemsByRun, .syncProfilesByName,
   .missedScheduleNoticesByProfile, .onePendingMissedScheduleNoticePerProfile,
   .schedulerEventsByRun, .schedulerEventsByProfile]

theorem TableName.mem_all (name : TableName) : name ∈ all := by
  cases name <;> decide

theorem IndexName.mem_all (name : IndexName) : name ∈ all := by
  cases name <;> decide

theorem TableName.closed (name : TableName) : name.definition.Closed := by
  cases name <;> decide

theorem IndexName.closed (name : IndexName) :
    name.definition.Closed name.definition.table.definition := by
  cases name <;> decide

def applicationSchema : Schema TableName IndexName where
  table := TableName.definition
  index := IndexName.definition
  names := TableName.all
  indexNames := IndexName.all
  mem_names := TableName.mem_all
  mem_indexNames := IndexName.mem_all
  closed := TableName.closed
  indexClosed := IndexName.closed

abbrev ApplicationTables := SqlDatabase TableName IndexName

end SyncPlus
