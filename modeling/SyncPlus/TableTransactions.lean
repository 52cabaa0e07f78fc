import SyncPlus.StoredTable

/-!
# What each transaction does

One lemma for each transaction of the store that writes profiles: when it
succeeds on a table that stores a list of profiles, which list the table
stores afterwards. All of them only let the table advance.
-/

namespace SyncPlus

/-- What a transaction leaves alone. -/
structure Database.SameRuns (db db' : Database) : Prop where
  runs : db'.runs = db.runs
  schedulerEvents : db'.schedulerEvents = db.schedulerEvents

section

variable {db db' : Database} {marks : List Commit} {entries : List StoredProfile}

/-! ## Reads -/

/-- What a profile that is found was stored as. -/
theorem loadProfile_eq_ok {table : ProfileTable} (h : table.Stores entries)
    {isDir : Directories} {id : SyncProfileId} {found : Option PersistedSyncProfile}
    (hload : table.loadProfile isDir id = .ok found) :
    FitsI64 id.value ∧
      (found = none ∨ ∃ e ∈ entries, e.id = id ∧ e.edits < 2 ^ 63 ∧
        (processDestinationRoot isDir e.profile).isEmpty = false ∧
        found = some e.kept.persisted) := by
  unfold ProfileTable.loadProfile at hload
  obtain ⟨key, hkey, hload⟩ := bind_eq_ok.mp hload
  obtain ⟨hfits, rfl⟩ := SyncProfileId.valueAsI64_eq_ok.mp hkey
  refine ⟨hfits, ?_⟩
  rw [h.find?_row] at hload
  rcases hfind : entries.find? fun e => e.id = id with _ | e
  · rw [hfind] at hload
    cases hload
    exact .inl rfl
  · rw [hfind] at hload
    have he := List.mem_of_find?_eq_some hfind
    have hid : e.id = id := by simpa using List.find?_some hfind
    obtain ⟨hrevision, hload⟩ := unit_bind_eq_ok.mp hload
    obtain ⟨persisted, hpersisted, hload⟩ := bind_eq_ok.mp hload
    cases hload
    have hedits : e.edits < 2 ^ 63 := by
      have : (e.edits : Int) ≤ 9223372036854775807 := ensure_eq_ok.mp hrevision
      omega
    obtain ⟨rfl, hdestination⟩ :=
      (StoredProfile.materializeProfile_row (h.valid e he) hedits).mp hpersisted
    exact .inr ⟨e, he, hid, hedits, hdestination, rfl⟩

/-- A profile that is stored is found. -/
theorem loadProfile_of_mem {table : ProfileTable} (h : table.Stores entries)
    {isDir : Directories} {e : StoredProfile} (he : e ∈ entries) (hedits : e.edits < 2 ^ 63)
    (hdestination : (processDestinationRoot isDir e.profile).isEmpty = false) :
    table.loadProfile isDir e.id = .ok (some e.kept.persisted) := by
  have hkey : e.id.valueAsI64 = .ok (e.id.value.toNat : Int) :=
    SyncProfileId.valueAsI64_eq_ok.mpr ⟨(h.valid e he).id, rfl⟩
  have hfind := h.find?_of_mem he
  have hrevision : e.row.fromRow = .ok () := ensure_eq_ok.mpr (by simp; omega)
  have hread := (StoredProfile.materializeProfile_row (h.valid e he) hedits).mpr
    ⟨rfl, hdestination⟩
  unfold ProfileTable.loadProfile
  rw [hkey, ok_bind, hfind]
  simp only [hrevision, ok_bind, hread]
  rfl

/-- The list of the profiles is what their rows are read back as. -/
theorem listProfiles_eq_ok {table : ProfileTable} (h : table.Stores entries)
    {isDir : Directories} {listed : List PersistedSyncProfile} :
    table.listProfiles isDir = .ok listed ↔
      listed = entries.map (fun e => e.kept.persisted) ∧ ∀ e ∈ entries,
        e.edits < 2 ^ 63 ∧ (processDestinationRoot isDir e.profile).isEmpty = false := by
  have hrevisions : table.rows.forM ProfileRow.fromRow = .ok () ↔
      ∀ e ∈ entries, e.edits < 2 ^ 63 := by
    rw [forM_eq_ok, h.rows_eq, List.forall_mem_map]
    refine forall₂_congr fun e _ => ?_
    have hread : e.row.fromRow = .ok () ↔ (e.edits : Int) ≤ 9223372036854775807 := ensure_eq_ok
    rw [hread]
    omega
  unfold ProfileTable.listProfiles
  rw [unit_bind_eq_ok, hrevisions, h.rows_eq, List.mapM_map]
  constructor
  · rintro ⟨hedits, hlisted⟩
    obtain ⟨rfl, hdestination⟩ := (mapM_eq_ok fun e he _ =>
      StoredProfile.materializeProfile_row (h.valid e he) (hedits e he)).mp hlisted
    exact ⟨rfl, fun e he => ⟨hedits e he, hdestination e he⟩⟩
  · rintro ⟨rfl, hall⟩
    refine ⟨fun e he => (hall e he).1, ?_⟩
    exact (mapM_eq_ok fun e he _ => StoredProfile.materializeProfile_row (h.valid e he)
      (hall e he).1).mpr ⟨rfl, fun e he => (hall e he).2⟩

/-! ## Profiles -/

theorem createTransaction_eq_ok {profile : SyncProfile}
    {authorizations : AuthorizationSnapshot} {key : Int}
    (h : db.profiles.Stores entries) (hprofile : profile.Storable)
    (hauthorizations : validateAuthorizations profile authorizations = .ok ())
    (hrun : createTransaction profile authorizations db = .ok (key, db', marks)) :
    ∃ id : SyncProfileId, key = id.value.toNat ∧ db.profiles.sequence < key ∧
      db'.profiles.Stores (entries ++ [⟨id, profile, none, authorizations, 0⟩]) ∧
      db.profiles.Advances db'.profiles ∧ db.SameRuns db' ∧ marks = [] := by
  unfold createTransaction at hrun
  obtain ⟨⟨table₁, key'⟩, hinsert, hrun⟩ := bind_eq_ok.mp hrun
  obtain ⟨table₂, hexclusions, hrun⟩ := bind_eq_ok.mp hrun
  cases hrun
  obtain ⟨id, -, hkey, hnext, -, rfl, hstores⟩ :=
    h.insert hprofile hauthorizations hinsert hexclusions
  refine ⟨id, hkey, by omega, hstores, ?_, ⟨rfl, rfl⟩, rfl⟩
  have hlt : db.profiles.sequence <
      (StoredProfile.row ⟨id, profile, none, authorizations, 0⟩).profileId := by
    show db.profiles.sequence < (id.value.toNat : Int)
    omega
  rw [hkey]
  exact ProfileTable.advances_append hlt

theorem updateTransaction_eq_ok {id : SyncProfileId} {profile : SyncProfile}
    {authorizations : AuthorizationSnapshot} {expected : UInt64} {u : Unit}
    (h : db.profiles.Stores entries) (hprofile : profile.Storable)
    (hauthorizations : validateAuthorizations profile authorizations = .ok ())
    (hrun : updateTransaction id profile authorizations expected db = .ok (u, db', marks)) :
    (∃ e ∈ entries, e.id = id ∧ e.edits = expected.toNat) ∧
      db'.profiles.Stores (modifyEntry entries id fun e =>
        { e with profile, authorizations, edits := e.edits + 1 }) ∧
      db.profiles.Advances db'.profiles ∧ db.SameRuns db' ∧ marks = [] := by
  unfold updateTransaction ProfileTable.updateProfileRow at hrun
  obtain ⟨⟨table₁, changed⟩, hupdate, hrun⟩ := bind_eq_ok.mp hrun
  obtain ⟨hchanged, hrun⟩ := ensure_bind_eq_ok.mp hrun
  obtain ⟨key, hkey, hrun⟩ := bind_eq_ok.mp hrun
  obtain ⟨table₂, hexclusions, hrun⟩ := bind_eq_ok.mp hrun
  cases hrun
  obtain ⟨key', hkey', hupdate⟩ := bind_eq_ok.mp hupdate
  obtain ⟨-, hupdate⟩ := unit_bind_eq_ok.mp hupdate
  obtain ⟨hfits, rfl⟩ := SyncProfileId.valueAsI64_eq_ok.mp hkey
  obtain ⟨-, rfl⟩ := SyncProfileId.valueAsI64_eq_ok.mp hkey'
  split at hupdate
  · rename_i hcurrent
    obtain ⟨-, hupdate⟩ := ensure_bind_eq_ok.mp hupdate
    cases hupdate
    obtain ⟨-, hexclusions⟩ := ensure_bind_eq_ok.mp hexclusions
    cases hexclusions
    rw [ProfileTable.modifyRow_modifyRow (by simp)]
    obtain ⟨row, hrow, hid, hrevision⟩ := hcurrent
    obtain ⟨e, he, rfl⟩ := h.mem_row.mp hrow
    refine ⟨⟨e, he, SyncProfileId.toNat_inj.mp hid, Int.ofNat_inj.mp hrevision⟩, ?_, ?_,
      ⟨rfl, rfl⟩, rfl⟩
    · refine h.modifyRow (fun e _ hid => rfl) fun e he hid => ⟨hid, ?_⟩
      have hvalid := h.valid e he
      exact ⟨hvalid.id, hprofile, hauthorizations, hvalid.schedule⟩
    · refine ProfileTable.advances_modifyRow fun row _ hid => ⟨hid, .inl ?_⟩
      exact Int.lt_succ _
  · cases hupdate
    cases hchanged

theorem removeTransaction_eq_ok {id : SyncProfileId} {changed : Bool}
    (h : db.profiles.Stores entries)
    (hrun : removeTransaction id db = .ok (changed, db', marks)) :
    db'.profiles.Stores (entries.filter fun e => e.id ≠ id) ∧
      db.profiles.Advances db'.profiles ∧ db.SameRuns db' ∧ marks = [] := by
  unfold removeTransaction at hrun
  obtain ⟨key, hkey, hrun⟩ := bind_eq_ok.mp hrun
  cases hrun
  obtain ⟨-, rfl⟩ := SyncProfileId.valueAsI64_eq_ok.mp hkey
  refine ⟨h.filter _ ?_, ProfileTable.advances_of_subset List.filter_sublist.subset, ⟨rfl, rfl⟩,
    rfl⟩
  rw [h.rows_eq, List.filter_map]
  congr 1
  refine congrArg (fun p => entries.filter p) (funext fun e => ?_)
  exact decide_eq_decide.mpr (not_congr (Int.ofNat_inj.trans SyncProfileId.toNat_eq))

/-! ## Imports -/

/-- What an import stores: its profiles, numbered on. -/
def importedEntries (first : Nat) : List ImportedProfile → List StoredProfile
  | [] => []
  | imported :: rest =>
      ⟨⟨.ofNat first⟩, imported.profile, imported.schedule, .default, 0⟩ ::
        importedEntries (first + 1) rest

theorem mem_importedEntries {first : Nat} {profiles : List ImportedProfile}
    {e : StoredProfile} (h : e ∈ importedEntries first profiles) :
    ∃ imported ∈ profiles, e.profile = imported.profile ∧ e.authorizations = .default := by
  induction profiles generalizing first with
  | nil => cases h
  | cons imported rest ih =>
      rcases List.mem_cons.mp h with rfl | h
      · exact ⟨imported, .head _, rfl, rfl⟩
      · obtain ⟨other, hother, hprofile⟩ := ih h
        exact ⟨other, .tail _ hother, hprofile⟩

theorem importedEntries_profile {α : Type} {f : SyncProfile → α} (first : Nat)
    (profiles : List ImportedProfile) :
    (importedEntries first profiles).map (fun e => f e.profile) =
      profiles.map fun imported => f imported.profile := by
  induction profiles generalizing first with
  | nil => rfl
  | cons imported rest ih =>
      rw [importedEntries, List.map_cons, List.map_cons, ih]

/-- What the checks of an import say of each of its profiles. -/
structure ImportedProfile.Storable (imported : ImportedProfile) : Prop where
  profile : imported.profile.Storable
  schedule : ∀ schedule ∈ imported.schedule, schedule.Valid ∧ schedule.enabled = false

theorem validateImport_eq_ok {currentDir : Option PathBuf} {isDir : Directories}
    {checked : List SyncProfile} {profiles : List ImportedProfile}
    (h : validateImport currentDir isDir checked profiles = .ok ()) :
    (∀ imported ∈ profiles, imported.Storable) ∧
      (profiles.map fun imported => imported.profile.endpoints currentDir).Nodup ∧
      ∀ imported ∈ profiles, ∀ profile ∈ checked,
        profile.endpoints currentDir ≠ imported.profile.endpoints currentDir := by
  induction profiles generalizing checked with
  | nil => simp
  | cons imported rest ih =>
      unfold validateImport at h
      obtain ⟨hprofile, h⟩ := unit_bind_eq_ok.mp h
      obtain ⟨-, h⟩ := ensure_bind_eq_ok.mp h
      obtain ⟨hschedule, h⟩ := unit_bind_eq_ok.mp h
      obtain ⟨hendpoints, h⟩ := ensure_bind_eq_ok.mp h
      obtain ⟨hall, hnodup, hnew⟩ := ih h
      have hfirst : imported.Storable := by
        refine ⟨(validateProfile_eq_ok.mp hprofile).1, fun schedule hmem => ?_⟩
        rw [Option.mem_def] at hmem
        rw [hmem] at hschedule
        obtain ⟨hvalid, hdisabled⟩ := unit_bind_eq_ok.mp hschedule
        exact ⟨ScheduleDefinition.validate_eq_ok.mp hvalid, ensure_eq_ok.mp hdisabled⟩
      refine ⟨List.forall_mem_cons.mpr ⟨hfirst, hall⟩, ?_, ?_⟩
      · rw [List.map_cons, List.nodup_cons]
        refine ⟨fun hmem => ?_, hnodup⟩
        obtain ⟨other, hother, heq⟩ := List.mem_map.mp hmem
        exact hnew other hother imported.profile (by simp) heq.symm
      · refine List.forall_mem_cons.mpr ⟨fun profile hmem heq => ?_, fun other hother profile hmem =>
          hnew other hother profile (by simp [hmem])⟩
        exact hendpoints profile hmem (SyncProfile.endpoints_eq_iff.mp heq)

theorem validateAuthorizations_default (profile : SyncProfile) :
    validateAuthorizations profile .default = .ok () := by
  simp [validateAuthorizations, AuthorizationSnapshot.default, ensure]

theorem insertImported_eq_ok {table table' : ProfileTable} {imported : ImportedProfile}
    (h : table.Stores entries) (himported : imported.Storable)
    (hrun : insertImported table imported = .ok table') :
    table'.Stores
        (entries ++ [⟨⟨.ofNat (table.sequence + 1).toNat⟩, imported.profile, imported.schedule,
          .default, 0⟩]) ∧
      table.Advances table' ∧ table'.sequence = table.sequence + 1 := by
  unfold insertImported at hrun
  obtain ⟨⟨table₁, key⟩, hinsert, hrun⟩ := bind_eq_ok.mp hrun
  obtain ⟨table₂, hexclusions, hrun⟩ := bind_eq_ok.mp hrun
  obtain ⟨id, hid, hkey, hnext, hfits, rfl, hstores⟩ := h.insert himported.profile
    (validateAuthorizations_default _) hinsert hexclusions
  have hadvances (row : ProfileRow) (hrow : row.profileId = key) :
      table.Advances ⟨key, table.rows ++ [row]⟩ := by
    rw [← hrow]
    exact ProfileTable.advances_append (by omega)
  rw [← hid]
  rcases hschedule : imported.schedule with _ | schedule
  · rw [hschedule] at hrun
    cases hrun
    exact ⟨hstores, hadvances _ hkey.symm, hnext⟩
  · rw [hschedule] at hrun
    cases hrun
    obtain ⟨hvalid, hdisabled⟩ := himported.schedule schedule hschedule
    have hold : ∀ r ∈ table.rows, r.profileId ≠ key := by
      intro r hr
      obtain ⟨e, he, rfl⟩ := h.mem_row.mp hr
      have := h.known e he
      rw [StoredProfile.row_profileId]
      omega
    have hrow : ({ StoredProfile.row ⟨id, imported.profile, none, .default, 0⟩ with
          schedule := some {
            intervalMinutes := schedule.intervalMinutes.toNat
            timezone := schedule.timezone
            enabled := 0
            nextRunAtUnixSeconds := none } } : ProfileRow) =
        StoredProfile.row ⟨id, imported.profile, some schedule, .default, 0⟩ := by
      simp [StoredProfile.row, ScheduleRow.ofSchedule, isScheduleEnabled, hdisabled,
        hvalid.disabled hdisabled, boolColumn]
    rw [ProfileTable.modifyRow_append hold hkey.symm]
    refine ⟨?_, hadvances _ hkey.symm, hnext⟩
    have happend := h.append (e := ⟨id, imported.profile, some schedule, .default, 0⟩)
      ⟨hfits, himported.profile, validateAuthorizations_default _, by simpa using hvalid⟩
      (by rw [← hkey]; omega)
    rw [← hkey] at happend
    rw [hrow]
    exact happend

theorem foldlM_insertImported {profiles : List ImportedProfile} {table table' : ProfileTable}
    (h : table.Stores entries) (hprofiles : ∀ imported ∈ profiles, imported.Storable)
    (hrun : profiles.foldlM insertImported table = .ok table') :
    table'.Stores (entries ++ importedEntries (table.sequence + 1).toNat profiles) ∧
      table.Advances table' := by
  induction profiles generalizing table entries with
  | nil =>
      cases hrun
      rw [importedEntries, List.append_nil]
      exact ⟨h, ProfileTable.advances_refl _⟩
  | cons imported rest ih =>
      rw [List.foldlM_cons] at hrun
      obtain ⟨table₁, hfirst, hrest⟩ := bind_eq_ok.mp hrun
      obtain ⟨himported, hrests⟩ := List.forall_mem_cons.mp hprofiles
      obtain ⟨hstores, hadvances, hsequence⟩ := insertImported_eq_ok h himported hfirst
      obtain ⟨hstores', hadvances'⟩ := ih hstores hrests hrest
      refine ⟨?_, hadvances.trans hadvances'⟩
      have hnext : (table₁.sequence + 1).toNat = (table.sequence + 1).toNat + 1 := by
        have := h.sequence
        omega
      rw [hnext, List.append_assoc] at hstores'
      exact hstores'

theorem replaceTransaction_eq_ok {profiles : List ImportedProfile} {u : Unit}
    (h : db.profiles.Stores entries) (hprofiles : ∀ imported ∈ profiles, imported.Storable)
    (hrun : replaceTransaction profiles db = .ok (u, db', marks)) :
    db'.profiles.Stores (importedEntries (db.profiles.sequence + 1).toNat profiles) ∧
      (∀ e ∈ importedEntries (db.profiles.sequence + 1).toNat profiles,
        db.profiles.sequence < e.id.value.toNat) ∧
      db.profiles.Advances db'.profiles ∧ db.SameRuns db' ∧ marks = [] := by
  unfold replaceTransaction at hrun
  obtain ⟨table, hfold, hrun⟩ := bind_eq_ok.mp hrun
  cases hrun
  have hempty : ProfileTable.Stores { db.profiles with rows := [] } [] :=
    ⟨rfl, by simp, by simp, by simp, h.sequence⟩
  obtain ⟨hstores, hadvances⟩ := foldlM_insertImported hempty hprofiles hfold
  refine ⟨hstores, fun e he => ?_,
    (ProfileTable.advances_of_subset (List.nil_subset _)).trans hadvances, ⟨rfl, rfl⟩, rfl⟩
  rcases hadvances.rows e.row (hstores.mem_row.mpr ⟨e, he, rfl⟩) with hnew | ⟨_, hrow, -⟩
  · exact hnew
  · cases hrow

/-! ## Schedules -/

theorem nextRevision_eq_ok {revision next : UInt64} (h : nextRevision revision = .ok next) :
    next.toNat = revision.toNat + 1 := by
  unfold nextRevision at h
  split at h
  · cases h
    rw [UInt64.toNat_add]
    exact Nat.mod_eq_of_lt ‹_›
  · cases h

theorem checkSchedule_valid {existing : SyncProfile} {mode : ApplicationMode}
    {schedule : Option ScheduleDefinition} (h : checkSchedule existing mode schedule = .ok ()) :
    ∀ s ∈ schedule, s.Valid := by
  intro s hs
  rw [Option.mem_def] at hs
  rw [hs] at h
  exact ScheduleDefinition.validate_eq_ok.mp (unit_bind_eq_ok.mp h).1

theorem scheduleTransaction_eq_ok {id : SyncProfileId} {schedule : Option ScheduleDefinition}
    {existing revision : UInt64} {u : Unit} (h : db.profiles.Stores entries)
    (hschedule : ∀ s ∈ schedule, s.Valid) (hrevision : nextRevision existing = .ok revision)
    (hrun : scheduleTransaction id schedule existing revision db = .ok (u, db', marks)) :
    (∃ e ∈ entries, e.id = id ∧ e.edits = existing.toNat) ∧
      db'.profiles.Stores (modifyEntry entries id fun e =>
        { e with schedule, edits := e.edits + 1 }) ∧
      db.profiles.Advances db'.profiles ∧ db.SameRuns db' ∧ marks = [.scheduleEdited id] := by
  unfold scheduleTransaction at hrun
  obtain ⟨key, hkey, hrun⟩ := bind_eq_ok.mp hrun
  obtain ⟨-, hrun⟩ := unit_bind_eq_ok.mp hrun
  obtain ⟨-, hrun⟩ := unit_bind_eq_ok.mp hrun
  obtain ⟨hcurrent, hrun⟩ := ensure_bind_eq_ok.mp hrun
  cases hrun
  obtain ⟨-, rfl⟩ := SyncProfileId.valueAsI64_eq_ok.mp hkey
  obtain ⟨row, hrow, hid, hcas⟩ := hcurrent
  obtain ⟨current, hmem, rfl⟩ := h.mem_row.mp hrow
  rw [StoredProfile.row_profileId, SyncProfileId.toNat_inj] at hid
  rw [StoredProfile.row_profileRevision, Int.ofNat_inj] at hcas
  have hnext := nextRevision_eq_ok hrevision
  have hcounted : ∀ e ∈ entries, e.id = id → e.edits + 1 = revision.toNat := by
    intro e he heq
    obtain rfl := h.entry_eq he hmem (heq.trans hid.symm)
    omega
  refine ⟨⟨current, hmem, hid, hcas⟩, ?_, ?_, ⟨rfl, rfl⟩, rfl⟩
  · refine h.modifyRow (fun e he heq => ?_) fun e he heq => ⟨heq, ?_⟩
    · simp only [StoredProfile.row, hcounted e he heq]
    · have hvalid := h.valid e he
      exact ⟨hvalid.id, hvalid.profile, hvalid.authorizations, hschedule⟩
  · refine ProfileTable.advances_modifyRow fun row hrow heq => ⟨heq, .inl ?_⟩
    obtain ⟨e, he, rfl⟩ := h.mem_row.mp hrow
    have := hcounted e he (SyncProfileId.toNat_inj.mp heq)
    simp only [StoredProfile.row_profileRevision]
    omega

/-! ## Claims -/

/-- The record after a claim. -/
def StoredProfile.moveTo (e : StoredProfile) (nextRun : Int64) : StoredProfile :=
  { e with
    schedule := e.schedule.map fun schedule =>
      { schedule with nextRunAtUnixSeconds := some nextRun } }

/-- What a claim is made of: the record it found, and what it made of it. -/
structure Claims (entries : List StoredProfile) (existing : PersistedSyncProfile)
    (scheduledAt nextRun now : Int64) (env : Environment) (db db' : Database)
    (claim : ScheduleClaim) (e : StoredProfile) (schedule : ScheduleDefinition) : Prop where
  mem : e ∈ entries
  id_eq : e.id = existing.id
  current : e.edits = existing.revision.toNat
  schedule_eq : e.schedule = some schedule
  enabled : schedule.enabled = true
  due : schedule.nextRunAtUnixSeconds = some scheduledAt
  before : claim.before = e.row
  after : claim.after = (e.moveTo nextRun).row
  now_eq : claim.now = now
  profileId : claim.claim.profileId = existing.id
  scheduledAt_eq : claim.claim.scheduledAtUnixSeconds = scheduledAt
  snapshot : RunSnapshot.fromProfile env claim.claim.runId existing.profile
    existing.authorizations = .ok claim.claim.snapshot
  records : ∃ record, db'.runs.records = db.runs.records ++ [record] ∧
    SnapshotRow.ofSnapshot claim.claim.snapshot = .ok record.snapshot
  stores : db'.profiles.Stores (modifyEntry entries existing.id fun e => e.moveTo nextRun)

/-- A row is due at a time when its schedule is enabled and runs next then. -/
theorem claimed_row {e : StoredProfile} {scheduledAt nextRun : Int64} {after : ProfileRow}
    (h : e.row.claimed scheduledAt nextRun = some after) :
    (∃ schedule, e.schedule = some schedule ∧ schedule.enabled = true ∧
      schedule.nextRunAtUnixSeconds = some scheduledAt) ∧
      after = (e.moveTo nextRun).row := by
  unfold ProfileRow.claimed at h
  rcases hschedule : e.schedule with _ | schedule
  · simp [StoredProfile.row, hschedule] at h
  · have hrow : e.row.schedule = some (.ofSchedule schedule) := by
      simp [StoredProfile.row, hschedule]
    rw [hrow] at h
    dsimp only at h
    split at h
    · rename_i hdue
      cases h
      obtain ⟨henabled, hnext⟩ := hdue
      refine ⟨⟨schedule, rfl, ?_, ?_⟩, ?_⟩
      · cases hb : schedule.enabled
        · simp [ScheduleRow.ofSchedule, hb, boolColumn] at henabled
        · rfl
      · obtain ⟨next, hnext, heq⟩ := Option.map_eq_some_iff.mp hnext
        rw [hnext, Int64.toInt_inj.mp heq]
      · simp [StoredProfile.row, StoredProfile.moveTo, hschedule, ScheduleRow.ofSchedule,
          isScheduleEnabled]
    · cases h

theorem StoredProfile.Valid.moveTo {e : StoredProfile} (h : e.Valid) {nextRun : Int64}
    (hnext : 0 ≤ nextRun) (henabled : ∀ s ∈ e.schedule, s.enabled = true) :
    (e.moveTo nextRun).Valid where
  id := h.id
  profile := h.profile
  authorizations := h.authorizations
  schedule := by
    intro s hs
    obtain ⟨old, hold, rfl⟩ := Option.map_eq_some_iff.mp hs
    have hvalid := h.schedule old hold
    refine ⟨hvalid.interval, hvalid.timezone, ?_, fun hdisabled => ?_⟩
    · rintro next hmem
      cases hmem
      exact hnext
    · exact absurd (henabled old hold) (by simpa using hdisabled)

theorem StoredProfile.version_moveTo (e : StoredProfile) (nextRun : Int64) :
    e.row.version = (e.moveTo nextRun).row.version := by
  cases hschedule : e.schedule <;>
    simp [ProfileRow.version, row, moveTo, hschedule, ScheduleRow.ofSchedule, isScheduleEnabled]

theorem allocateRunId_records {table table' : RunTable} {runId : RunId}
    (h : table.allocateRunIdInTransaction = .ok (table', runId)) :
    table'.records = table.records := by
  unfold RunTable.allocateRunIdInTransaction at h
  obtain ⟨_, -, h₁⟩ := bind_eq_ok.mp h
  obtain ⟨_, -, h₂⟩ := bind_eq_ok.mp h₁
  obtain ⟨_, -, h₃⟩ := bind_eq_ok.mp h₂
  cases h₃
  rfl

theorem beginRun_records {table table' : RunTable} {snapshot : RunSnapshot}
    (h : table.beginRunInTransaction snapshot = .ok table') :
    ∃ record, table'.records = table.records ++ [record] ∧
      SnapshotRow.ofSnapshot snapshot = .ok record.snapshot := by
  unfold RunTable.beginRunInTransaction at h
  obtain ⟨row, hrow, h₁⟩ := bind_eq_ok.mp h
  obtain ⟨-, h₂⟩ := ensure_bind_eq_ok.mp h₁
  obtain ⟨_, -, h₃⟩ := bind_eq_ok.mp h₂
  cases h₃
  exact ⟨_, rfl, hrow⟩

theorem claimTransaction_eq_ok {existing : PersistedSyncProfile}
    {scheduledAt nextRun now : Int64} {env : Environment}
    {claimed : Option ClaimedScheduledRun} (h : db.profiles.Stores entries)
    (hnext : 0 ≤ nextRun)
    (hrun : claimTransaction existing scheduledAt nextRun now env db =
      .ok (claimed, db', marks)) :
    db.profiles.Advances db'.profiles ∧
      ((claimed = none ∧ marks = [] ∧ db'.profiles = db.profiles ∧
          db'.runs.records = db.runs.records) ∨
        ∃ claim e schedule, claimed = some claim.claim ∧ marks = [.claimed claim] ∧
          Claims entries existing scheduledAt nextRun now env db db' claim e schedule) := by
  unfold claimTransaction at hrun
  obtain ⟨key, hkey, hrun₁⟩ := bind_eq_ok.mp hrun
  obtain ⟨-, rfl⟩ := SyncProfileId.valueAsI64_eq_ok.mp hkey
  obtain ⟨row, hrow, hrun₂⟩ := bind_eq_ok.mp hrun₁
  obtain ⟨hrevision, hrun₃⟩ := unit_bind_eq_ok.mp hrun₂
  rw [orError_eq_ok, h.find?_row] at hrow
  obtain ⟨e, hfind, rfl⟩ := Option.map_eq_some_iff.mp hrow
  have he := List.mem_of_find?_eq_some hfind
  have hid : e.id = existing.id := by simpa using List.find?_some hfind
  have hbound : (e.edits : Int) ≤ 9223372036854775807 := ensure_eq_ok.mp hrevision
  have hread : tryUnsigned 64 e.row.profileRevision = some e.edits :=
    tryUnsigned_ofNat (by omega)
  rw [hread] at hrun₃
  split at hrun₃
  · cases hrun₃
    exact ⟨ProfileTable.advances_refl _, .inl ⟨rfl, rfl, rfl, rfl⟩⟩
  · rename_i hcurrent
    obtain ⟨⟨runs, runId⟩, hallocate, hrun₄⟩ := bind_eq_ok.mp hrun₃
    obtain ⟨snapshot, hsnapshot, hrun₅⟩ := bind_eq_ok.mp hrun₄
    have hrecords := allocateRunId_records hallocate
    cases hclaimed : e.row.claimed scheduledAt nextRun with
    | none =>
        rw [hclaimed] at hrun₅
        cases hrun₅
        exact ⟨ProfileTable.advances_refl _, .inl ⟨rfl, rfl, rfl, hrecords⟩⟩
    | some after =>
        rw [hclaimed] at hrun₅
        obtain ⟨runs', hbegin, hrun₆⟩ := bind_eq_ok.mp hrun₅
        cases hrun₆
        obtain ⟨⟨schedule, hschedule, henabled, hdue⟩, rfl⟩ := claimed_row hclaimed
        obtain ⟨record, happend, hrecord⟩ := beginRun_records hbegin
        have hsame : ∀ other ∈ entries, other.id = existing.id → other = e :=
          fun other hother heq => h.entry_eq hother he (heq.trans hid.symm)
        refine ⟨?_, .inr ⟨_, e, schedule, rfl, rfl, ?_⟩⟩
        · refine ProfileTable.advances_modifyRow fun other hother heq => ?_
          obtain ⟨entry, hentry, rfl⟩ := h.mem_row.mp hother
          obtain rfl := hsame entry hentry (SyncProfileId.toNat_inj.mp heq)
          exact ⟨heq, .inr (entry.version_moveTo nextRun)⟩
        · exact {
            mem := he
            id_eq := hid
            current := by simpa using hcurrent
            schedule_eq := hschedule
            enabled := henabled
            due := hdue
            before := rfl
            after := rfl
            now_eq := rfl
            profileId := rfl
            scheduledAt_eq := rfl
            snapshot := hsnapshot
            records := ⟨record, hrecords ▸ happend, hrecord⟩
            stores := by
              refine h.modifyRow (fun other hother heq => ?_) fun other hother heq => ?_
              · rw [hsame other hother heq]
              · obtain rfl := hsame other hother heq
                refine ⟨heq, (h.valid other he).moveTo hnext fun s hs => ?_⟩
                rw [hschedule, Option.mem_def] at hs
                cases hs
                exact henabled }

end

end SyncPlus
