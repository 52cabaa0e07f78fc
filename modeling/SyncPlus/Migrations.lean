import SyncPlus.Schema

/-!
# Migrations

The twenty-two migrations of `from_connection`, each a transaction that takes a
database from one schema version to the next. Most are lists of schema changes, some of
which look first whether the column is there; three write rows as well. They number
the runs that are there, set the next run of the schedules that are on, and rebuild the
table of the settings.

A database of a supported version (`Supported`) is one that the changes of the earlier
migrations built, later ones perhaps in part, where these look first. On such a database
every migration goes through and keeps all rows (`Supported.migrate`), but the one that numbers
the runs, which needs their greatest number to fit (`RunIdsFit`).
-/

namespace SyncPlus

/-! ## The code -/

abbrev ApplicationChange := SchemaChange TableName IndexName

namespace ApplicationChange

def createTable (name : TableName) : ApplicationChange := ⟨.createTable name, false⟩

def createIndex (name : IndexName) : ApplicationChange := ⟨.createIndex name, false⟩

def addColumn (table : TableName) (column : ColumnDefinition) : ApplicationChange :=
  ⟨.addColumn table column, false⟩

/-- `IF NOT EXISTS`, or a look at the columns that are there. -/
def unlessThere (change : ApplicationChange) : ApplicationChange := { change with ifMissing := true }

end ApplicationChange

open ApplicationChange

def nextRunAtUnixSeconds : ColumnDefinition :=
  .checked (.nullable "next_run_at_unix_seconds") (.isAtLeast 0)

def bandwidthLimitKibPerSecond : ColumnDefinition :=
  .checked (.nullable "bandwidth_limit_kib_per_second") (.isBetween 1 4000000)

/-- The schema changes of the migration from this version to the next. -/
def schemaChanges : Nat → List ApplicationChange
  | 0 =>
      [createTable .runSnapshots, createTable .snapshotExclusions, createTable .actionEvents,
       createIndex .actionEventsByRun]
  | 1 =>
      addColumn .runSnapshots (.withDefault "review_cleared" (.integer 0)) ::
        ["recovery_observed_at_unix_nanos", "recovery_target", "recovery_source_present",
         "recovery_destination_present", "recovery_present", "recovery_source_size",
         "recovery_destination_size", "recovery_source_sha256", "recovery_destination_sha256",
         "resolution"].map fun name => addColumn .actionEvents (.nullable name)
  | 2 =>
      ["proof_destination_size", "proof_destination_sha256", "proof_metadata_verified",
       "deletion_method"].map fun name => addColumn .actionEvents (.nullable name)
  | 3 =>
      [("metadata_file_type", 1), ("metadata_executable_permissions", 1),
       ("metadata_symlink_targets", 1), ("metadata_timestamps", 0)].map fun column =>
        unlessThere (addColumn .runSnapshots (.withDefault column.1 (.integer column.2)))
  | 4 =>
      [addColumn .runSnapshots (.withDefault "partial_transfer_policy" (.text "cleanup")),
       addColumn .runSnapshots (.withDefault "retry_max_attempts" (.integer 3)),
       addColumn .runSnapshots (.withDefault "retry_initial_delay_millis" (.integer 100))]
  | 5 =>
      [addColumn .runSnapshots (.nullable "blocked_reason"),
       addColumn .runSnapshots (.withDefault "source_inventory_recorded" (.integer 0)),
       createTable .sourceInventoryItems, createTable .reconciliationRuns,
       createTable .reconciliationFindings]
  | 6 =>
      [addColumn .runSnapshots (.nullable "peer_a_volume_identity"),
       addColumn .runSnapshots (.nullable "peer_b_volume_identity"),
       addColumn .sourceInventoryItems (.nullable "permissions")]
  | 7 =>
      [addColumn .runSnapshots (.withDefault "destination_inventory_recorded" (.integer 0)),
       createTable .destinationInventoryItems]
  | 8 => [createTable .syncBaselines, createTable .syncBaselineItems]
  | 9 => [createTable .mirrorResolutionItems, createIndex .mirrorResolutionItemsByRun]
  | 10 => [createTable .sshHostFingerprints]
  | 11 =>
      [.withDefault "peer_a_endpoint_kind" (.text "local"), .nullable "peer_a_server",
       .nullable "peer_a_username", .nullable "peer_a_port", .nullable "peer_a_identity",
       .nullable "peer_a_authentication", .withDefault "peer_b_endpoint_kind" (.text "local"),
       .nullable "peer_b_server", .nullable "peer_b_username", .nullable "peer_b_port",
       .nullable "peer_b_identity", .nullable "peer_b_authentication"].map fun column =>
        unlessThere (addColumn .runSnapshots column)
  | 12 =>
      ["recovery_provenance_peer", "recovery_provenance_root", "recovery_provenance_relative",
       "recovery_provenance_run_id", "recovery_provenance_removed_at_unix_nanos",
       "recovery_provenance_item_type", "recovery_provenance_device",
       "recovery_provenance_inode"].map fun name =>
        unlessThere (addColumn .actionEvents (.nullable name))
  | 13 =>
      ["recovery_item_size", "recovery_item_sha256"].map fun name =>
        unlessThere (addColumn .actionEvents (.nullable name))
  | 14 =>
      [createTable .applicationSettings, createTable .syncProfiles,
       createTable .syncProfileExclusions, createIndex .syncProfilesByName]
  | 15 =>
      [unlessThere (createTable .syncProfileSchedules), unlessThere (createTable .runIdSequence),
       unlessThere (addColumn .runSnapshots (.withDefault "metadata_ownership" (.integer 0))),
       unlessThere (addColumn .runSnapshots
         (.withDefault "metadata_access_control_lists" (.integer 0))),
       unlessThere (addColumn .runSnapshots
         (.withDefault "metadata_extended_attributes" (.integer 0))),
       unlessThere (addColumn .syncProfiles
         (.checked (.withDefault "profile_revision" (.integer 0)) (.isAtLeast 0)))]
  | 16 => [unlessThere (addColumn .syncProfileSchedules nextRunAtUnixSeconds)]
  | 17 =>
      [unlessThere (createTable .missedScheduleNotices),
       unlessThere (createIndex .missedScheduleNoticesByProfile),
       unlessThere (createIndex .onePendingMissedScheduleNoticePerProfile)]
  | 18 =>
      [unlessThere (createTable .schedulerEvents), unlessThere (createIndex .schedulerEventsByRun),
       unlessThere (createIndex .schedulerEventsByProfile)]
  | 20 =>
      [unlessThere (addColumn .runSnapshots
        (.checked (.withDefault "created_at_unix_seconds" (.integer 0)) (.isAtLeast 0)))]
  | 21 =>
      [unlessThere (addColumn .syncProfiles bandwidthLimitKibPerSecond),
       unlessThere (addColumn .runSnapshots bandwidthLimitKibPerSecond)]
  | _ => []

def changesBefore (version : Nat) : List (SchemaStatement TableName IndexName) :=
  ((List.range version).flatMap schemaChanges).map (·.statement)

/-- What a migration finds missing or not, and what may be there before it runs. -/
def optionalChanges : List (SchemaStatement TableName IndexName) :=
  (((List.range 22).flatMap schemaChanges).filter (·.ifMissing)).map (·.statement)

/-- `COALESCE(MAX(run_id), 0) + 1`, read as an integer. -/
def nextRunId (snapshots : List SqlRow) : Except SqlError Int64 :=
  match (snapshots.map fun row => row "run_id").foldl SqlValue.max .null with
  | .null => .ok 1
  | .integer greatest =>
      -- the sum is a real number from 2⁶³ on
      if greatest = Int64.maxValue then .error .typeMismatch else .ok (greatest + 1)
  | _ => .error .typeMismatch

section

variable (db : ApplicationTables)

/-- The run identifiers are counted on from the greatest one, or from where an earlier
count was. -/
def seedRunIds : Except SqlError ApplicationTables := do
  let snapshots ← orError (db.tables .runSnapshots) .noSuchTable
  let next ← nextRunId snapshots.rows
  let sequence ← orError (db.tables .runIdSequence) .noSuchTable
  let row := sequence.definition.row [("sequence_id", .integer 1), ("next_run_id", .integer next)]
  ensure (sequence.definition.Allows row) .constraint
  db.write applicationSchema .runIdSequence <|
    if sequence.rows.any fun old => old "sequence_id" = .integer 1 then
      sequence.rows.map fun old =>
        if old "sequence_id" = .integer 1 then
          Function.update old "next_run_id" ((old "next_run_id").max (.integer next))
        else old
    else sequence.rows ++ [row]

/-- Schedules that are on are due at once. -/
def startSchedules (now : Int64) : Except SqlError ApplicationTables := do
  let schedules ← orError (db.tables .syncProfileSchedules) .noSuchTable
  db.write applicationSchema .syncProfileSchedules <| schedules.rows.map fun row =>
    if row "enabled" = .integer 1 ∧ row "next_run_at_unix_seconds" = .null then
      Function.update row "next_run_at_unix_seconds" (.integer now)
    else row

def rebuildSettings : Except SqlError ApplicationTables := do
  let db ← db.renameTable .applicationSettings .applicationSettingsV19
  let db ← db.apply applicationSchema (createTable .applicationSettings)
  let old ← orError (db.tables .applicationSettingsV19) .noSuchTable
  let settings ← orError (db.tables .applicationSettings) .noSuchTable
  let copied := old.rows.map fun row =>
    settings.definition.row [("key", row "key"), ("value", row "value")]
  let db ← db.write applicationSchema .applicationSettings copied
  let hideToTray := settings.definition.row
    [("key", .text "hide_to_tray_on_close"), ("value", .text "true")]
  let db ← db.write applicationSchema .applicationSettings <|
    if copied.any fun row => row "key" = .text "hide_to_tray_on_close" then copied
    else copied ++ [hideToTray]
  db.dropTable .applicationSettingsV19

end

/-- What the migration from this version does, in a transaction begun at this time. -/
def migrate (now : Int64) (db : ApplicationTables) : Nat → Except SqlError ApplicationTables
  | 15 => do
      let db ← db.applyAll applicationSchema (schemaChanges 15)
      seedRunIds db
  | 16 =>
      if db.Has (.addColumn .syncProfileSchedules nextRunAtUnixSeconds) then .ok db
      else do
        let db ← db.applyAll applicationSchema (schemaChanges 16)
        startSchedules db now
  | 19 => rebuildSettings db
  | version => db.applyAll applicationSchema (schemaChanges version)

inductive MigrationError where
  | sqlite (error : SqlError)
  | integrityCheckFailed

/-- A migration, which is committed unless it fails. Later ones look at the constraints
first. -/
def migrationTransaction (now : Int64) (db : ApplicationTables) (version : Nat) :
    Except MigrationError ApplicationTables := do
  let db ← (migrate now db version).mapError .sqlite
  let db := { db with version := version + 1 }
  if 14 ≤ version then ensure (db.Intact applicationSchema) .integrityCheckFailed
  return db

/-! ## Run identifiers -/

/-- No run is there, or the greatest run identifier is one that can be counted on. -/
def RunIdsFit (db : ApplicationTables) : Prop :=
  ∀ table ∈ db.tables .runSnapshots, table.rows = [] ∨
    (∃ row ∈ table.rows, ∃ id, row "run_id" = .integer id ∧ 0 ≤ id) ∧
      ∀ row ∈ table.rows, row "run_id" ≠ .integer Int64.maxValue

/-- The greatest of the integers is found. -/
theorem foldl_max_integer (first : Int64) (ids : List Int64) :
    ∃ greatest ∈ first :: ids, (∀ id ∈ first :: ids, id ≤ greatest) ∧
      (ids.map SqlValue.integer).foldl SqlValue.max (.integer first) = .integer greatest := by
  induction ids generalizing first with
  | nil => exact ⟨first, .head _, by simp, rfl⟩
  | cons id ids ih =>
      by_cases hle : first ≤ id
      · obtain ⟨greatest, hmem, hall, heq⟩ := ih id
        refine ⟨greatest, .tail _ hmem, fun a ha => ?_, ?_⟩
        · rcases List.mem_cons.mp ha with rfl | ha
          · exact Int64.le_trans hle (hall id (.head _))
          · exact hall a ha
        · simpa [SqlValue.max, SqlValue.le, hle] using heq
      · obtain ⟨greatest, hmem, hall, heq⟩ := ih first
        have hfirst : first ≤ greatest := hall first (.head _)
        have hid : id ≤ first := (Int64.le_total first id).resolve_left hle
        refine ⟨greatest, ?_, fun a ha => ?_, ?_⟩
        · rcases List.mem_cons.mp hmem with rfl | hmem
          · exact .head _
          · exact .tail _ (.tail _ hmem)
        · rcases List.mem_cons.mp ha with rfl | ha
          · exact hfirst
          · rcases List.mem_cons.mp ha with rfl | ha
            · exact Int64.le_trans hid hfirst
            · exact hall a (.tail _ ha)
        · simpa [SqlValue.max, SqlValue.le, hle] using heq

/-- Counting on from a run identifier that is not the last one there is. -/
theorem one_le_add_one {greatest : Int64} (h : greatest ≠ Int64.maxValue) :
    1 ≤ greatest + 1 ↔ 0 ≤ greatest := by
  rw [Int64.le_iff_toInt_le, Int64.le_iff_toInt_le, Int64.toInt_add]
  have hlt := Int64.toInt_lt greatest
  have hle := Int64.le_toInt greatest
  have hne : greatest.toInt ≠ 2 ^ 63 - 1 := by
    intro heq
    exact h (Int64.toInt_inj.mp (by rw [heq]; rfl))
  have hone : (1 : Int64).toInt = 1 := rfl
  have hzero : (0 : Int64).toInt = 0 := rfl
  rw [hone, hzero, Int.bmod_def]
  omega

theorem nextRunId_fits {rows : List SqlRow} {ids : List Int64}
    (hids : rows.map (fun row => row "run_id") = ids.map .integer) :
    (∃ next, nextRunId rows = .ok next ∧ 1 ≤ next) ↔
      ids = [] ∨ (∃ id ∈ ids, 0 ≤ id) ∧ Int64.maxValue ∉ ids := by
  unfold nextRunId
  rw [hids]
  cases ids with
  | nil => exact iff_of_true ⟨1, rfl, by decide⟩ (.inl rfl)
  | cons first rest =>
      obtain ⟨greatest, hmem, hall, heq⟩ := foldl_max_integer first rest
      have hfold : ((first :: rest).map SqlValue.integer).foldl SqlValue.max .null =
          .integer greatest := heq
      simp only [hfold, reduceCtorEq, false_or]
      by_cases hlast : greatest = Int64.maxValue
      · rw [if_pos hlast]
        refine iff_of_false nofun ?_
        rintro ⟨-, hnot⟩
        exact hnot (hlast ▸ hmem)
      · rw [if_neg hlast]
        constructor
        · rintro ⟨_, ⟨⟩, hnext⟩
          refine ⟨⟨greatest, hmem, (one_le_add_one hlast).mp hnext⟩, fun hmax => hlast ?_⟩
          exact Int64.le_antisymm (Int64.le_maxValue greatest) (hall _ hmax)
        · rintro ⟨⟨id, hid, hpos⟩, -⟩
          exact ⟨_, rfl, (one_le_add_one hlast).mpr (Int64.le_trans hpos (hall id hid))⟩

/-! ## What the migrations build -/

theorem schemaChanges_inOrder : ∀ version < 22, InOrder applicationSchema (changesBefore version)
    (changesBefore version ++ optionalChanges) (schemaChanges version) := by
  decide +kernel

/-- A database of this schema version, with whatever rows its constraints admit. -/
structure Supported (version : Nat) (db : ApplicationTables) : Prop where
  version_eq : db.version = version
  built : Built applicationSchema (changesBefore version) (changesBefore version ++ optionalChanges)
    db

theorem changesBefore_succ (version : Nat) : changesBefore (version + 1) =
    changesBefore version ++ (schemaChanges version).map (·.statement) := by
  simp [changesBefore, List.range_succ, List.flatMap_append]

/-- What a migration made, added to what was there. -/
theorem built_succ (version : Nat) {db : ApplicationTables}
    (h : Built applicationSchema ((schemaChanges version).map (·.statement) ++ changesBefore version)
      ((schemaChanges version).map (·.statement) ++ (changesBefore version ++ optionalChanges)) db) :
    Built applicationSchema (changesBefore (version + 1))
      (changesBefore (version + 1) ++ optionalChanges) db := by
  refine h.mono ?_ ?_
  · intro s hs
    rw [changesBefore_succ] at hs
    simp only [List.mem_append] at hs ⊢
    tauto
  · intro s hs
    rw [changesBefore_succ]
    simp only [List.mem_append] at hs ⊢
    tauto

/-- The schema changes of the next migration go through. -/
theorem Supported.applyAll {version : Nat} {db : ApplicationTables} (h : Supported version db)
    (hversion : version < 22) :
    ∃ db', db.applyAll applicationSchema (schemaChanges version) = .ok db' ∧
      Built applicationSchema (changesBefore (version + 1))
        (changesBefore (version + 1) ++ optionalChanges) db' ∧ db.Widens db' := by
  obtain ⟨db', happly, hbuilt, hwidens, -⟩ :=
    h.built.applyAll (schemaChanges_inOrder version hversion)
  exact ⟨db', happly, built_succ version hbuilt, hwidens⟩

section

variable {made allowed : List (SchemaStatement TableName IndexName)} {db : ApplicationTables}

/-- Run identifiers are integers. -/
theorem exists_runIds (h : Built applicationSchema made allowed db) {table : SqlTable}
    (htable : db.tables .runSnapshots = some table) :
    ∃ ids : List Int64, table.rows.map (fun row => row "run_id") = ids.map .integer := by
  have hinteger : ∀ row ∈ table.rows, ∃ id, row "run_id" = .integer id := by
    intro row hrow
    have hallows : (row "run_id").isInteger = true := h.allows htable hrow (.head _)
    cases hvalue : row "run_id" with
    | integer id => exact ⟨id, rfl⟩
    | _ => simp [hvalue, SqlValue.isInteger] at hallows
  generalize table.rows = rows at hinteger
  induction rows with
  | nil => exact ⟨[], rfl⟩
  | cons row rows ih =>
      obtain ⟨id, hid⟩ := hinteger row (.head _)
      obtain ⟨ids, hids⟩ := ih fun row hrow => hinteger row (.tail _ hrow)
      exact ⟨id :: ids, by rw [List.map_cons, List.map_cons, hid, hids]⟩

/-- The next run identifier is found exactly when the run identifiers fit. -/
theorem runIdsFit_iff (h : Built applicationSchema made allowed db) {table : SqlTable}
    (htable : db.tables .runSnapshots = some table) :
    RunIdsFit db ↔ ∃ next, nextRunId table.rows = .ok next ∧ 1 ≤ next := by
  obtain ⟨ids, hids⟩ := exists_runIds h htable
  have hmem : ∀ id, id ∈ ids ↔ ∃ row ∈ table.rows, row "run_id" = .integer id := by
    intro id
    have hmap : SqlValue.integer id ∈ ids.map SqlValue.integer ↔ id ∈ ids :=
      List.mem_map_of_injective fun a b hab => SqlValue.integer.inj hab
    rw [← hmap, ← hids, List.mem_map]
  have hnil : ids = [] ↔ table.rows = [] := by
    rw [← List.map_eq_nil_iff (f := SqlValue.integer), ← hids, List.map_eq_nil_iff]
  rw [nextRunId_fits hids, hnil, hmem]
  unfold RunIdsFit
  rw [htable]
  simp only [Option.mem_some_iff, forall_eq']
  refine or_congr_right (and_congr ?_ ?_)
  · constructor
    · rintro ⟨row, hrow, id, hid, hpos⟩
      exact ⟨id, (hmem id).mpr ⟨row, hrow, hid⟩, hpos⟩
    · rintro ⟨id, hid, hpos⟩
      obtain ⟨row, hrow, heq⟩ := (hmem id).mp hid
      exact ⟨row, hrow, id, heq, hpos⟩
  · simp only [not_exists, not_and, ne_eq]

/-! ## Migrations that write rows -/

theorem runIdSequence_allows {row : SqlRow} : TableName.runIdSequenceDefinition.Allows row ↔
    row "sequence_id" = .integer 1 ∧ row "next_run_id" ≠ .null ∧
      (SqlValue.integer 1).le (row "next_run_id") = true := by
  have hid : ∀ value : SqlValue, (value.isInteger = true ∧
      (ColumnCheck.isBetween 1 1).holds value = true) ↔ value = .integer 1 := by
    intro value
    cases value with
    | integer id =>
        simp only [SqlValue.isInteger, ColumnCheck.holds, SqlValue.le, Bool.and_eq_true,
          decide_eq_true_eq, true_and, SqlValue.integer.injEq]
        exact ⟨fun h => (Int64.le_antisymm h.1 h.2).symm, by rintro rfl; decide⟩
    | _ => simp [SqlValue.isInteger]
  have hnext : ∀ value : SqlValue, (value ≠ .null ∧
      (ColumnCheck.isAtLeast 1).holds value = true) ↔
        value ≠ .null ∧ (SqlValue.integer 1).le value = true := by
    intro value
    cases value <;> simp [ColumnCheck.holds]
  simp only [TableDefinition.Allows, TableName.runIdSequenceDefinition, ColumnDefinition.checked,
    ColumnDefinition.rowId, ColumnDefinition.notNull, List.mem_cons, List.not_mem_nil, or_false,
    forall_eq_or_imp, forall_eq, Bool.and_eq_true, decide_eq_true_eq, hid, hnext, false_imp_iff,
    implies_true, and_true]

theorem le_max {value : SqlValue} {next : Int64} (hnull : value ≠ .null)
    (hle : (SqlValue.integer 1).le value = true) (hnext : 1 ≤ next) :
    value.max (.integer next) ≠ .null ∧
      (SqlValue.integer 1).le (value.max (.integer next)) = true := by
  unfold SqlValue.max
  split
  · exact ⟨nofun, decide_eq_true hnext⟩
  · exact ⟨hnull, hle⟩

/-- The run identifiers that fit are counted on. -/
theorem seedRunIds_ok (h : Built applicationSchema made allowed db)
    (hfixed : ∀ s ∈ allowed, ¬ s.AddsTo .runIdSequence) {snapshots sequence : SqlTable}
    (hsnapshots : db.tables .runSnapshots = some snapshots)
    (hsequence : db.tables .runIdSequence = some sequence) (hfits : RunIdsFit db) :
    ∃ db', seedRunIds db = .ok db' ∧ Built applicationSchema made allowed db' ∧
      db.ExtendsOn (· ≠ .runIdSequence) db' := by
  obtain ⟨next, hnext, hpositive⟩ := (runIdsFit_iff h hsnapshots).mp hfits
  have hdefinition : sequence.definition = TableName.runIdSequenceDefinition :=
    h.definition_eq hfixed hsequence
  obtain ⟨hold, hkeys⟩ := h.sound _ _ hsequence
  let row := sequence.definition.row [("sequence_id", .integer 1), ("next_run_id", .integer next)]
  have hallows : sequence.definition.Allows row := by
    rw [hdefinition, runIdSequence_allows]
    exact ⟨rfl, nofun, decide_eq_true hpositive⟩
  have hkey : sequence.definition.keys = [["sequence_id"]] := by rw [hdefinition]; rfl
  let rows := if sequence.rows.any fun old => old "sequence_id" = .integer 1 then
      sequence.rows.map fun old =>
        if old "sequence_id" = .integer 1 then
          Function.update old "next_run_id" ((old "next_run_id").max (.integer next))
        else old
    else sequence.rows ++ [row]
  have hsound : SqlTable.Sound ⟨sequence.definition, rows⟩ := by
    rw [hdefinition] at hold hkeys
    have hnewSound : ∀ {rows' : List SqlRow},
        (∀ old ∈ rows', TableName.runIdSequenceDefinition.Allows old) →
          (rows'.Pairwise fun old old' => ¬ SameKey ["sequence_id"] old old') →
            SqlTable.Sound ⟨sequence.definition, rows'⟩ := by
      intro rows' hall hpairwise
      rw [hdefinition]
      refine ⟨hall, fun key hmem => ?_⟩
      obtain rfl := List.mem_singleton.mp hmem
      exact hpairwise
    have hpairwise := hkeys _ (.head _)
    have hsame : ∀ {old : SqlRow}, ∀ name ∈ ["sequence_id"],
        (if old "sequence_id" = .integer 1 then
          Function.update old "next_run_id" ((old "next_run_id").max (.integer next))
        else old) name = old name := by
      intro old name hname
      split
      · exact SqlTable.update_of_not_mem (by decide) name hname
      · rfl
    show SqlTable.Sound ⟨sequence.definition, if _ then _ else _⟩
    split
    · refine hnewSound ?_ (List.pairwise_map.mpr (hpairwise.imp ?_))
      · intro old' hold'
        obtain ⟨old, hmem, rfl⟩ := List.mem_map.mp hold'
        have hallowsOld := hold old hmem
        split
        · obtain ⟨hid, hnull, hle⟩ := runIdSequence_allows.mp hallowsOld
          exact runIdSequence_allows.mpr
            ⟨(Function.update_of_ne (by decide) ..).trans hid, by
              rw [Function.update_self]
              exact le_max hnull hle hpositive⟩
        · exact hallowsOld
      · intro old old' hdiffer
        rwa [SqlTable.sameKey_congr hsame hsame]
    · rename_i hnone
      have hother : ∀ old ∈ sequence.rows, old "sequence_id" ≠ .integer 1 := by
        simpa using hnone
      refine hnewSound ?_ (List.pairwise_append.mpr ⟨hpairwise, List.pairwise_singleton .., ?_⟩)
      · intro old hmem
        rcases List.mem_append.mp hmem with hmem | hmem
        · exact hold old hmem
        · rw [List.mem_singleton.mp hmem]
          exact hdefinition ▸ hallows
      · intro old hmem new hnew hkey
        obtain rfl := List.mem_singleton.mp hnew
        exact hother old hmem (hkey "sequence_id" (.head _)).2.symm
  have hseparated : ∀ index, (applicationSchema.index index).table = .runIdSequence →
      (applicationSchema.index index).Separates rows := by
    intro index hindex
    cases index <;> cases hindex
  have hwrite := SqlDatabase.write_eq_ok hsequence hsound hseparated
  refine ⟨_, ?_, h.rows hsequence rows hsound hseparated,
    SqlDatabase.extendsOn_setTable_of_not (by simp)⟩
  simp only [seedRunIds, hsnapshots, hsequence, orError_some, ok_bind, hnext]
  exact (bind_ok (ensure_of hallows)).trans hwrite

/-- A count that goes through has found run identifiers that fit. -/
theorem runIdsFit_of_seedRunIds {db' : ApplicationTables} (h : Built applicationSchema made allowed db)
    (hfixed : ∀ s ∈ allowed, ¬ s.AddsTo .runIdSequence) (hseed : seedRunIds db = .ok db') :
    RunIdsFit db := by
  obtain ⟨snapshots, hsnapshots, hseed⟩ := bind_eq_ok.mp hseed
  obtain ⟨next, hnext, hseed⟩ := bind_eq_ok.mp hseed
  obtain ⟨sequence, hsequence, hseed⟩ := bind_eq_ok.mp hseed
  obtain ⟨_, hallows, _⟩ := bind_eq_ok.mp hseed
  refine (runIdsFit_iff h (orError_eq_ok.mp hsnapshots)).mpr ⟨next, hnext, ?_⟩
  rw [ensure_eq_ok, h.definition_eq hfixed (orError_eq_ok.mp hsequence)] at hallows
  exact of_decide_eq_true (runIdSequence_allows.mp hallows).2.2

end

theorem nextRunAt_allows {now : Int64} (hnow : 0 ≤ now) (enabled : Prop) [Decidable enabled] :
    nextRunAtUnixSeconds.allows (if enabled then .integer now else .null) = true := by
  split
  · exact decide_eq_true hnow
  · rfl

/-- The next run is a new column, or one that was there before. -/
theorem migrate_sixteen {now : Int64} {db : ApplicationTables} (h : Supported 16 db)
    (hnow : 0 ≤ now) :
    ∃ db', migrate now db 16 = .ok db' ∧ Built applicationSchema (changesBefore 17)
      (changesBefore 17 ++ optionalChanges) db' ∧ db.Widens db' := by
  by_cases hhas : db.Has (.addColumn .syncProfileSchedules nextRunAtUnixSeconds)
  · exact ⟨db, if_pos hhas, built_succ 16 (h.built.skip hhas), .refl⟩
  · obtain ⟨table, htable⟩ : ∃ table, db.tables .syncProfileSchedules = some table :=
      h.built.table_of_made (by decide +kernel)
    have hnew : nextRunAtUnixSeconds.name ∉ table.definition.names :=
      fun hmem => hhas ⟨table, htable, hmem⟩
    let due : SqlRow → SqlValue := fun row =>
      if row "enabled" = .integer 1 then .integer now else .null
    have hallows : ∀ row ∈ table.rows, nextRunAtUnixSeconds.allows (due row) = true :=
      fun row _ => nextRunAt_allows hnow _
    have hbuilt := h.built.fillColumn htable hnew hallows
    refine ⟨_, ?_, built_succ 16 hbuilt, SqlDatabase.widens_setTable ?_ ?_⟩
    · have hadd : db.applyAll applicationSchema (schemaChanges 16) =
          .ok (db.setTable .syncProfileSchedules (some (table.addColumn nextRunAtUnixSeconds))) :=
        bind_ok ((SqlDatabase.apply_of_not_has hhas).trans
          (SqlDatabase.make_addColumn htable rfl))
      have hrows : ((table.addColumn nextRunAtUnixSeconds).rows.map fun row =>
          if row "enabled" = .integer 1 ∧ row "next_run_at_unix_seconds" = .null then
            Function.update row "next_run_at_unix_seconds" (.integer now)
          else row) = (table.fillColumn nextRunAtUnixSeconds due).rows := by
        rw [SqlTable.addColumn, SqlTable.fillColumn, List.map_map]
        refine List.map_congr_left fun row _ => ?_
        have hother : Function.update row nextRunAtUnixSeconds.name .null "enabled" =
            row "enabled" := Function.update_of_ne (by decide) ..
        have hnull : Function.update row nextRunAtUnixSeconds.name .null
            "next_run_at_unix_seconds" = .null := Function.update_self ..
        show (if Function.update row nextRunAtUnixSeconds.name .null "enabled" = .integer 1 ∧
          Function.update row nextRunAtUnixSeconds.name .null "next_run_at_unix_seconds" = .null
            then _ else _) = Function.update row _ (if _ then _ else _)
        rw [hother, hnull]
        split_ifs with hboth henabled henabled
        · exact Function.update_idem ..
        · exact absurd hboth.1 henabled
        · exact absurd ⟨henabled, rfl⟩ hboth
        · rfl
      refine (if_neg hhas).trans ((bind_ok hadd).trans ?_)
      simp only [startSchedules, SqlDatabase.setTable_self, orError_some, ok_bind, hrows]
      refine (SqlDatabase.write_eq_ok (SqlDatabase.setTable_self ..)
        (hbuilt.sound _ _ (SqlDatabase.setTable_self ..)) ?_).trans ?_
      · intro index hindex
        cases index <;> cases hindex
      · exact congrArg Except.ok (SqlDatabase.setTable_setTable ..)
    · intro table' htable'
      obtain rfl : table = table' := Option.some.inj (htable.symm.trans htable')
      exact SqlTable.widens_fillColumn hnew
    · intro hnone
      rw [htable] at hnone
      cases hnone

theorem applicationSettings_allows {row : SqlRow} :
    TableName.applicationSettingsDefinition.Allows row ↔
      (ColumnCheck.isOneOf ["ui_mode", "theme", "hide_to_tray_on_close"]).holds (row "key") = true ∧
        row "value" ≠ .null ∧ ColumnCheck.isNotEmpty.holds (row "value") = true := by
  simp only [TableDefinition.Allows, TableName.applicationSettingsDefinition,
    ColumnDefinition.checked, ColumnDefinition.nullable, ColumnDefinition.notNull, List.mem_cons,
    List.not_mem_nil, or_false, forall_eq_or_imp, forall_eq, Bool.and_eq_true, decide_eq_true_eq,
    true_and, false_imp_iff, implies_true, and_true]

/-- The settings are copied, and the one that is new is set unless it is there. -/
theorem rebuildSettings_ok {db : ApplicationTables}
    {made allowed : List (SchemaStatement TableName IndexName)}
    (h : Built applicationSchema made allowed db)
    (hfixed : ∀ s ∈ allowed, ¬ s.AddsTo .applicationSettings)
    (hnever : ∀ s ∈ allowed, ¬ (SchemaStatement.createTable .applicationSettingsV19).MadeBy
      applicationSchema s)
    {settings : SqlTable} (hsettings : db.tables .applicationSettings = some settings) :
    ∃ db', rebuildSettings db = .ok db' ∧ Built applicationSchema made allowed db' ∧
      ∀ on, db.ExtendsOn on db' := by
  have hold : db.tables .applicationSettingsV19 = none := h.tables_eq_none hnever
  have hdefinition : settings.definition = TableName.applicationSettingsDefinition :=
    h.definition_eq hfixed hsettings
  obtain ⟨hallows, hkeys⟩ := h.sound _ _ hsettings
  rw [hdefinition] at hallows hkeys
  let copy : SqlRow → SqlRow := fun row =>
    TableName.applicationSettingsDefinition.row [("key", row "key"), ("value", row "value")]
  let copied := settings.rows.map copy
  let hideToTray := TableName.applicationSettingsDefinition.row
    [("key", .text "hide_to_tray_on_close"), ("value", .text "true")]
  let rows := if copied.any fun row => row "key" = .text "hide_to_tray_on_close" then copied
    else copied ++ [hideToTray]
  have hkey : ∀ row, copy row "key" = row "key" := fun _ => rfl
  have hvalue : ∀ row, copy row "value" = row "value" := fun _ => rfl
  have hcopied : SqlTable.Sound ⟨TableName.applicationSettingsDefinition, copied⟩ := by
    constructor
    · intro row' hrow'
      obtain ⟨row, hrow, rfl⟩ := List.mem_map.mp hrow'
      rw [applicationSettings_allows, hkey, hvalue]
      exact applicationSettings_allows.mp (hallows row hrow)
    · intro key hkey'
      obtain rfl := List.mem_singleton.mp hkey'
      refine List.pairwise_map.mpr ((hkeys _ (.head _)).imp fun hdiffer => ?_)
      rwa [SqlTable.sameKey_congr (by simpa using hkey _) (by simpa using hkey _)]
  have hrows : SqlTable.Sound ⟨TableName.applicationSettingsDefinition, rows⟩ := by
    show SqlTable.Sound ⟨_, if _ then _ else _⟩
    split
    · exact hcopied
    · rename_i hmissing
      have hother : ∀ row ∈ copied, row "key" ≠ .text "hide_to_tray_on_close" := by
        simpa using hmissing
      constructor
      · intro row hrow
        rcases List.mem_append.mp hrow with hrow | hrow
        · exact hcopied.1 row hrow
        · obtain rfl := List.mem_singleton.mp hrow
          exact applicationSettings_allows.mpr ⟨by decide, nofun, by decide⟩
      · intro key hkey'
        have hpairwise := hcopied.2 key hkey'
        obtain rfl := List.mem_singleton.mp hkey'
        refine List.pairwise_append.mpr ⟨hpairwise, List.pairwise_singleton .., ?_⟩
        intro row hrow new hnew hsame
        obtain rfl := List.mem_singleton.mp hnew
        exact hother row hrow (hsame "key" (.head _)).2.symm
  have hseparated : ∀ {rows : List SqlRow}, ∀ index,
      (applicationSchema.index index).table = .applicationSettings →
        (applicationSchema.index index).Separates rows := by
    intro rows index hindex
    cases index <;> cases hindex
  let renamed := (db.setTable .applicationSettings none).setTable .applicationSettingsV19
    (some settings)
  let created := renamed.setTable .applicationSettings
    (some ⟨TableName.applicationSettingsDefinition, []⟩)
  have hrename : db.renameTable .applicationSettings .applicationSettingsV19 = .ok renamed := by
    simp only [SqlDatabase.renameTable, hsettings, orError_some, ok_bind, ensure_of hold]
    rfl
  have hmissing : ¬ renamed.Has (.createTable .applicationSettings) := by
    simp [renamed, SqlDatabase.Has, SqlDatabase.setTable_of_ne]
  have hcreate : renamed.apply applicationSchema (createTable .applicationSettings) = .ok created :=
    SqlDatabase.apply_of_not_has hmissing
  have hcreated : created.tables .applicationSettings =
      some ⟨TableName.applicationSettingsDefinition, []⟩ := SqlDatabase.setTable_self ..
  have hrenamed : created.tables .applicationSettingsV19 = some settings :=
    (SqlDatabase.setTable_of_ne (by decide)).trans (SqlDatabase.setTable_self ..)
  have hwrite := SqlDatabase.write_eq_ok hcreated hcopied hseparated
  have hwritten : (created.setTable .applicationSettings
      (some ⟨TableName.applicationSettingsDefinition, copied⟩)).tables .applicationSettings =
        some ⟨TableName.applicationSettingsDefinition, copied⟩ := SqlDatabase.setTable_self ..
  have hwrite' := SqlDatabase.write_eq_ok hwritten hrows hseparated
  refine ⟨db.setTable .applicationSettings (some ⟨TableName.applicationSettingsDefinition, rows⟩),
    ?_, ?_, fun on => SqlDatabase.extendsOn_setTable hsettings ⟨?_, fun row hrow => ?_⟩⟩
  · simp only [rebuildSettings, hrename, ok_bind, hcreate, hrenamed, hcreated, orError_some]
    refine (bind_ok hwrite).trans ((bind_ok hwrite').trans ?_)
    rw [SqlDatabase.setTable_setTable]
    have hlast : (created.setTable .applicationSettings
        (some ⟨TableName.applicationSettingsDefinition, rows⟩)).tables .applicationSettingsV19 =
          some settings := (SqlDatabase.setTable_of_ne (by decide)).trans hrenamed
    simp only [SqlDatabase.dropTable, hlast, orError_some, ok_bind]
    -- the name that was used in between is free again
    refine congrArg Except.ok ?_
    rw [SqlDatabase.mk.injEq]
    refine ⟨funext fun name => ?_, rfl, rfl⟩
    by_cases hname : name = .applicationSettingsV19
    · subst hname
      exact (SqlDatabase.setTable_self ..).trans
        ((SqlDatabase.setTable_of_ne (by decide)).trans hold).symm
    rw [SqlDatabase.setTable_of_ne hname]
    by_cases hname' : name = .applicationSettings
    · subst hname'
      rw [SqlDatabase.setTable_self, SqlDatabase.setTable_self]
    · rw [SqlDatabase.setTable_of_ne hname', SqlDatabase.setTable_of_ne hname',
        SqlDatabase.setTable_of_ne hname', SqlDatabase.setTable_of_ne hname,
        SqlDatabase.setTable_of_ne hname']
  · rw [← hdefinition] at hrows ⊢
    exact h.rows hsettings rows hrows hseparated
  · rw [hdefinition]
    exact List.Subset.refl _
  · refine ⟨copy row, ?_, ?_⟩
    · have hmem : copy row ∈ copied := List.mem_map_of_mem hrow
      show copy row ∈ if _ then _ else _
      split
      · exact hmem
      · exact List.mem_append_left _ hmem
    · rw [hdefinition]
      intro name hname
      have hnames : TableName.applicationSettingsDefinition.names = ["key", "value"] := rfl
      rw [hnames, List.mem_cons, List.mem_singleton] at hname
      rcases hname with rfl | rfl
      · exact hkey row
      · exact hvalue row

/-! ## Every migration -/

/-- Schema changes leave the run identifiers. -/
theorem runIdsFit_of_widens {made made' allowed allowed' : List (SchemaStatement TableName IndexName)}
    {db db' : ApplicationTables} (h : Built applicationSchema made allowed db)
    (h' : Built applicationSchema made' allowed' db') (hwidens : db.Widens db') :
    RunIdsFit db' ↔ RunIdsFit db := by
  cases htable : db.tables .runSnapshots with
  | none =>
      refine iff_of_true (fun table' htable' => .inl ?_) ?_
      · exact hwidens.created _ table' htable htable'
      · intro table htable'
        rw [htable] at htable'
        cases htable'
  | some table =>
      obtain ⟨table', htable', hrows⟩ := hwidens.tables _ table htable
      have hids := hrows.map_eq (h.names htable (show "run_id" ∈ _ by decide))
      rw [runIdsFit_iff h htable, runIdsFit_iff h' htable']
      simp only [nextRunId, hids]

theorem migrate_eq_applyAll {version : Nat} (now : Int64) (db : ApplicationTables)
    (h : version ≠ 15) (h' : version ≠ 16) (h'' : version ≠ 19) :
    migrate now db version = db.applyAll applicationSchema (schemaChanges version) := by
  unfold migrate
  split <;> first | contradiction | rfl

/-- **Every migration goes through** and keeps all rows, the count of the runs apart. -/
theorem Supported.migrate {version : Nat} {db : ApplicationTables} {now : Int64}
    (h : Supported version db) (hversion : version < 22) (hids : version = 15 → RunIdsFit db)
    (hnow : 0 ≤ now) :
    ∃ db', migrate now db version = .ok db' ∧ Built applicationSchema (changesBefore (version + 1))
      (changesBefore (version + 1) ++ optionalChanges) db' ∧
        db.ExtendsOn (· ≠ .runIdSequence) db' ∧
          (version < 15 → (RunIdsFit db' ↔ RunIdsFit db)) := by
  obtain ⟨db₁, happly, hbuilt, hwidens⟩ := h.applyAll hversion
  have hfit := runIdsFit_of_widens h.built hbuilt hwidens
  by_cases h15 : version = 15
  · subst h15
    obtain ⟨snapshots, hsnapshots⟩ : ∃ table, db₁.tables .runSnapshots = some table :=
      hbuilt.table_of_made (by decide +kernel)
    obtain ⟨sequence, hsequence⟩ : ∃ table, db₁.tables .runIdSequence = some table :=
      hbuilt.table_of_made (by decide +kernel)
    obtain ⟨db₂, hseed, hbuilt', hextends⟩ := seedRunIds_ok hbuilt (by decide +kernel) hsnapshots
      hsequence (hfit.mpr (hids rfl))
    exact ⟨db₂, (bind_ok happly).trans hseed, hbuilt', hwidens.extendsOn.trans hextends,
      fun hlt => absurd hlt (by decide)⟩
  by_cases h16 : version = 16
  · subst h16
    obtain ⟨db₂, hmigrate, hbuilt', hwidens'⟩ := migrate_sixteen h hnow
    exact ⟨db₂, hmigrate, hbuilt', hwidens'.extendsOn, fun hlt => absurd hlt (by decide)⟩
  by_cases h19 : version = 19
  · subst h19
    obtain ⟨settings, hsettings⟩ : ∃ table, db.tables .applicationSettings = some table :=
      h.built.table_of_made (by decide +kernel)
    obtain ⟨db₂, hrebuild, hbuilt', hextends⟩ := rebuildSettings_ok h.built (by decide +kernel)
      (by decide +kernel) hsettings
    exact ⟨db₂, hrebuild, built_succ 19 hbuilt', hextends _, fun hlt => absurd hlt (by decide)⟩
  exact ⟨db₁, (migrate_eq_applyAll now db h15 h16 h19).trans happly, hbuilt, hwidens.extendsOn,
    fun _ => hfit⟩

/-- **Every transaction is committed**, and leaves a database of the next version. -/
theorem Supported.migrationTransaction {version : Nat} {db : ApplicationTables} {now : Int64}
    (h : Supported version db) (hversion : version < 22) (hids : version = 15 → RunIdsFit db)
    (hnow : 0 ≤ now) :
    ∃ db', migrationTransaction now db version = .ok db' ∧ Supported (version + 1) db' ∧
      db.ExtendsOn (· ≠ .runIdSequence) db' ∧
        (version < 15 → (RunIdsFit db' ↔ RunIdsFit db)) := by
  obtain ⟨db', hmigrate, hbuilt, hextends, hfit⟩ := h.migrate hversion hids hnow
  have hbuilt' := hbuilt.setVersion (version + 1)
  refine ⟨{ db' with version := version + 1 }, ?_, ⟨by push_cast; rfl, hbuilt'⟩, hextends, hfit⟩
  simp only [SyncPlus.migrationTransaction, hmigrate, Except.mapError, ok_bind]
  split
  · rw [ensure_of hbuilt'.intact]
    rfl
  · rfl

/-- The database stays at version 15 when the run identifiers do not fit. -/
theorem Supported.runIdsFit {db db' : ApplicationTables} {now : Int64} (h : Supported 15 db)
    (hmigrated : SyncPlus.migrationTransaction now db 15 = .ok db') : RunIdsFit db := by
  obtain ⟨db₁, happly, hbuilt, hwidens⟩ := h.applyAll (by decide)
  obtain ⟨db₂, hmigrate, -⟩ := bind_eq_ok.mp hmigrated
  obtain ⟨db₁', happly', hseed⟩ := bind_eq_ok.mp (mapError_eq_ok.mp hmigrate)
  obtain rfl : db₁ = db₁' := Except.ok.inj (happly.symm.trans happly')
  exact (runIdsFit_of_widens h.built hbuilt hwidens).mp
    (runIdsFit_of_seedRunIds hbuilt (by decide +kernel) hseed)

end SyncPlus
