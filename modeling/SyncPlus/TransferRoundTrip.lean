import SyncPlus.ConfigurationText
import SyncPlus.ProfileNames
import SyncPlus.ScheduleClaims
import SyncPlus.TransferReset

/-!
# Configurations there and back

What an export wrote is imported as it was, up to what an import resets on
purpose. The importer asks for more than the store: it takes at most so many
profiles, and so many patterns in each of them, and it looks at the endpoints
and the directories of the machine it runs on. So a configuration that was
stored and exported need not be imported again; when it is, is said exactly
(`configuration_round_trip_iff`).
-/

namespace SyncPlus

open Procedure (RunsTo runsTo_pure runsTo_ofExcept runsTo_bind runsTo_query runsTo_transaction
  Returns)

/-! ## A list of profiles -/

/-- The profile of a persisted one, prepared for an import. -/
def preparedOf (persisted : PersistedSyncProfile) : PreparedProfile where
  imported := ⟨persisted.profile.reset, persisted.schedule.map ScheduleDefinition.reset⟩
  strippedDestructive := (ExportOptions.fromOptions persisted.profile.options).intoSafeOptions.2
  requiresReconfiguration :=
    persisted.profile.peerA.reset.asksPassword || persisted.profile.peerB.reset.asksPassword
  wasEnabled := isScheduleEnabled persisted.schedule

/-- The profiles that a list is imported as. -/
def importedOf (listed : List PersistedSyncProfile) : List ImportedProfile :=
  listed.map fun persisted => (preparedOf persisted).imported

/-- A profile as a store lists it. -/
structure PersistedSyncProfile.Listed (persisted : PersistedSyncProfile) : Prop where
  profile : persisted.profile.Storable
  schedule : ∀ schedule ∈ persisted.schedule, schedule.Valid
  millis : persisted.profile.stored = persisted.profile

/-- What an import asks of each profile beyond what a store does. -/
structure SyncProfile.Importable (isDir : Directories) (profile : SyncProfile) : Prop where
  patterns : profile.exclusions.length ≤ maxExclusionsPerProfile
  destination : (processDestinationRoot isDir profile).isEmpty = false

theorem wasEnabled_fromPersisted (schedule : Option ScheduleDefinition) :
    (schedule.map ExportSchedule.fromSchedule).any (·.enabled) = isScheduleEnabled schedule := by
  cases schedule <;> rfl

section

variable {currentDir : Option PathBuf} {isDir : Directories}

theorem fromProfile_mapError (isDir : Directories) (profile : SyncProfile)
    (f : ProcessSpecError → ConfigurationTransferError) :
    (∃ specification, (ProcessSpecification.fromProfile isDir profile).mapError f =
      .ok specification) ↔
      profile.options.check = .ok () ∧ ProfileChecks profile ∧
        (processDestinationRoot isDir profile).isEmpty = false := by
  simp only [mapError_eq_ok]
  rw [fromProfile_eq_ok, ProcessSpecification.checkProfile_eq_ok]

/-- **One profile of a document.** It is taken when its name and its endpoints
are new, its patterns are few enough and its destination is found. -/
theorem prepareProfile_eq_ok {persisted : PersistedSyncProfile} (hlisted : persisted.Listed)
    {exported : ExportProfile} (hexport : ExportProfile.fromPersisted persisted = .ok exported)
    {index : Nat} {checked : List SyncProfile} {prepared : PreparedProfile} :
    prepareProfile currentDir isDir index checked exported = .ok prepared ↔
      prepared = preparedOf persisted ∧
        (∀ profile ∈ checked, profile.name ≠ persisted.profile.name) ∧
        persisted.profile.Importable isDir ∧
        ∀ profile ∈ checked,
          profile.endpoints currentDir ≠ persisted.profile.endpoints currentDir := by
  have hprofile := hlisted.profile
  have hreset := hprofile.reset
  obtain ⟨peerA, hpeerA, hexport⟩ := bind_eq_ok.mp hexport
  obtain ⟨peerB, hpeerB, hexport⟩ := bind_eq_ok.mp hexport
  cases hexport
  have hoptions : (ExportOptions.fromOptions persisted.profile.options).intoSafeOptions =
      (persisted.profile.options.reset,
        (ExportOptions.fromOptions persisted.profile.options).intoSafeOptions.2) := by
    rw [← intoSafeOptions_fromOptions hprofile.options
      (congrArg (fun p => p.options) hlisted.millis)]
  have hendpoints : ∀ profile : SyncProfile,
      (profile.peerA.sameEndpoint currentDir persisted.profile.peerA.reset = true ∧
        profile.peerB.sameEndpoint currentDir persisted.profile.peerB.reset = true) ↔
        profile.endpoints currentDir = persisted.profile.endpoints currentDir := by
    intro profile
    rw [SyncProfile.endpoints_eq_iff]
    simp [Peer.sameEndpoint]
  have hexecutable := fromProfile_mapError isDir persisted.profile.reset fun error =>
    .invalidConfiguration (s!"profiles[{index}]" ++ ".options") (.notExecutable error)
  rw [processDestinationRoot_reset] at hexecutable
  unfold prepareProfile
  dsimp only
  rw [ensure_bind_eq_ok, ensure_bind_eq_ok, ensure_bind_eq_ok, intoPeer_fromPeer hpeerA, ok_bind,
    intoPeer_fromPeer hpeerB, ok_bind, ensure_bind_eq_ok, ensure_bind_eq_ok, ensure_bind_eq_ok,
    hoptions, mapM_intoSchedule hlisted.schedule, ok_bind, Peer.reset_name, Peer.reset_name]
  simp only [hendpoints]
  constructor
  · rintro ⟨hnames, -, hpatterns, -, -, hfresh, hrun⟩
    obtain ⟨specification, hspecification, hrun⟩ := bind_eq_ok.mp hrun
    cases hrun
    have hfound := (hexecutable.mp ⟨specification, hspecification⟩).2.2
    exact ⟨by simp [preparedOf, SyncProfile.reset, wasEnabled_fromPersisted], hnames,
      ⟨hpatterns, hfound⟩, hfresh⟩
  · rintro ⟨rfl, hnames, himportable, hfresh⟩
    refine ⟨hnames, hprofile.name, himportable.patterns, hprofile.peerA, hprofile.peerB, hfresh,
      ?_⟩
    obtain ⟨specification, hspecification⟩ :=
      hexecutable.mpr ⟨hreset.options, hreset.checks, himportable.destination⟩
    refine bind_eq_ok.mpr ⟨specification, hspecification, ?_⟩
    simp [preparedOf, SyncProfile.reset, wasEnabled_fromPersisted, pure, Except.pure]

/-- Endpoints that no two of the profiles share. -/
def EndpointsDistinct (currentDir : Option PathBuf) (profiles : List SyncProfile) : Prop :=
  (profiles.map fun profile => profile.endpoints currentDir).Nodup

theorem endpointsDistinct_append {checked : List SyncProfile} {profile : SyncProfile} :
    EndpointsDistinct currentDir (checked ++ [profile]) ↔
      EndpointsDistinct currentDir checked ∧
        ∀ other ∈ checked, other.endpoints currentDir ≠ profile.endpoints currentDir := by
  unfold EndpointsDistinct
  rw [List.map_append, List.map_singleton, List.nodup_append]
  simp only [List.nodup_singleton, true_and, List.mem_singleton, forall_eq, List.mem_map,
    forall_exists_index, and_imp, forall_apply_eq_imp_iff₂]

theorem EndpointsDistinct.of_append {profiles rest : List SyncProfile}
    (h : EndpointsDistinct currentDir (profiles ++ rest)) :
    EndpointsDistinct currentDir profiles := by
  unfold EndpointsDistinct at h ⊢
  rw [List.map_append] at h
  exact (List.nodup_append.mp h).1

/-- **The profiles of a document.** They are taken together when each of them
is and no two share their endpoints. -/
theorem prepareProfiles_eq_ok (done : List PreparedProfile) (profiles : List SyncProfile)
    {listed : List PersistedSyncProfile} {exported : List ExportProfile}
    {result : List PreparedProfile} (hlisted : ∀ persisted ∈ listed, persisted.Listed)
    (hexport : listed.mapM ExportProfile.fromPersisted = .ok exported)
    (hdone : done.map (·.imported.profile) = profiles.map SyncProfile.reset)
    (hnames : ((profiles ++ listed.map (·.profile)).map (·.name)).Nodup)
    (hendpoints : EndpointsDistinct currentDir profiles) :
    prepareProfiles currentDir isDir done exported = .ok result ↔
      result = done ++ listed.map preparedOf ∧
        (∀ persisted ∈ listed, persisted.profile.Importable isDir) ∧
        EndpointsDistinct currentDir (profiles ++ listed.map (·.profile)) := by
  induction listed generalizing done profiles exported with
  | nil =>
      rw [List.mapM_nil] at hexport
      cases hexport
      simp [prepareProfiles, hendpoints, eq_comm]
  | cons persisted rest ih =>
      rw [List.mapM_cons] at hexport
      obtain ⟨first, hfirst, hexport⟩ := bind_eq_ok.mp hexport
      obtain ⟨others, hothers, hexport⟩ := bind_eq_ok.mp hexport
      cases hexport
      obtain ⟨hlisted, hrest⟩ := List.forall_mem_cons.mp hlisted
      rw [List.map_cons] at hnames
      have hfresh : ∀ profile ∈ done.map (·.imported.profile),
          profile.name ≠ persisted.profile.name := by
        rw [hdone]
        intro profile hprofile
        obtain ⟨other, hother, rfl⟩ := List.mem_map.mp hprofile
        rw [List.map_append, List.nodup_append] at hnames
        exact hnames.2.2 other.name (List.mem_map_of_mem hother) persisted.profile.name (by simp)
      have hends : (∀ profile ∈ done.map (·.imported.profile),
            profile.endpoints currentDir ≠ persisted.profile.endpoints currentDir) ↔
          EndpointsDistinct currentDir (profiles ++ [persisted.profile]) := by
        rw [hdone, endpointsDistinct_append, List.forall_mem_map]
        simp [hendpoints]
      have hassoc : profiles ++ persisted.profile :: rest.map (·.profile) =
          profiles ++ [persisted.profile] ++ rest.map (·.profile) := by simp
      have hstep := fun hends' => ih (done ++ [preparedOf persisted])
        (profiles ++ [persisted.profile]) hrest hothers
        (by rw [List.map_append, List.map_append, hdone]; rfl) (by rwa [hassoc] at hnames) hends'
      unfold prepareProfiles
      rw [bind_eq_ok]
      simp only [prepareProfile_eq_ok hlisted hfirst, hends]
      rw [List.map_cons, List.map_cons, hassoc]
      constructor
      · rintro ⟨next, ⟨rfl, -, himportable, hends'⟩, hrun⟩
        obtain ⟨rfl, hall, hdistinct⟩ := (hstep hends').mp hrun
        exact ⟨by simp, List.forall_mem_cons.mpr ⟨himportable, hall⟩, hdistinct⟩
      · rintro ⟨rfl, hall, hdistinct⟩
        obtain ⟨himportable, hall⟩ := List.forall_mem_cons.mp hall
        have hends' := hdistinct.of_append
        refine ⟨_, ⟨rfl, hfresh, himportable, hends'⟩, ?_⟩
        exact (hstep hends').mpr ⟨by simp, hall, hdistinct⟩

/-! ## What is prepared is stored -/

/-- What was prepared passes the checks of the store as well. -/
theorem validateImport_of {checked : List SyncProfile} {profiles : List ImportedProfile}
    (hstorable : ∀ imported ∈ profiles, imported.Storable)
    (hfound : ∀ imported ∈ profiles,
      (processDestinationRoot isDir imported.profile).isEmpty = false)
    (hnames : ((checked ++ profiles.map (·.profile)).map (·.name)).Nodup)
    (hendpoints : EndpointsDistinct currentDir (checked ++ profiles.map (·.profile))) :
    validateImport currentDir isDir checked profiles = .ok () := by
  induction profiles generalizing checked with
  | nil => rfl
  | cons imported rest ih =>
      obtain ⟨hfirst, hrest⟩ := List.forall_mem_cons.mp hstorable
      obtain ⟨hfirst', hrest'⟩ := List.forall_mem_cons.mp hfound
      have hassoc : checked ++ (imported :: rest).map (·.profile) =
          checked ++ [imported.profile] ++ rest.map (·.profile) := by simp
      rw [hassoc] at hnames hendpoints
      have hfresh : ∀ profile ∈ checked, profile.name ≠ imported.profile.name := by
        intro profile hprofile
        rw [List.map_append, List.map_append, List.nodup_append] at hnames
        exact (List.nodup_append.mp hnames.1).2.2 profile.name (List.mem_map_of_mem hprofile)
          imported.profile.name (by simp)
      have hends := (endpointsDistinct_append.mp hendpoints.of_append).2
      have hschedule : validateImportedSchedule imported.schedule = .ok () := by
        cases hs : imported.schedule with
        | none => rfl
        | some schedule =>
            obtain ⟨hvalid, hdisabled⟩ := hfirst.schedule schedule hs
            exact unit_bind_eq_ok.mpr ⟨ScheduleDefinition.validate_eq_ok.mpr hvalid,
              ensure_of hdisabled⟩
      unfold validateImport
      rw [unit_bind_eq_ok, ensure_bind_eq_ok, unit_bind_eq_ok, ensure_bind_eq_ok]
      exact ⟨validateProfile_eq_ok.mpr ⟨hfirst.profile, hfirst'⟩, hfresh, hschedule,
        fun profile hprofile heq =>
          hends profile hprofile (SyncProfile.endpoints_eq_iff.mpr heq),
        ih hrest hrest' hnames hendpoints⟩

end

theorem insertImported_succeeds {table : ProfileTable} {entries : List StoredProfile}
    {imported : ImportedProfile} (h : table.Stores entries)
    (hname : ∀ profile ∈ profilesOf entries, profile.name ≠ imported.profile.name)
    (hpatterns : imported.profile.exclusions.Nodup) :
    (∃ table', insertImported table imported = .ok table') ↔
      table.sequence + 1 ≤ 9223372036854775807 := by
  have hnonneg := h.sequence
  have hfresh : ∀ row ∈ table.rows,
      row.name ≠ (ProfileValues.fromProfile imported.profile).name := by
    intro row hrow
    obtain ⟨e, he, rfl⟩ := h.mem_row.mp hrow
    exact hname e.profile (mem_profilesOf.mpr ⟨e, he, rfl⟩)
  unfold insertImported ProfileTable.insertProfile ProfileTable.insertExclusions
  rw [ensure_of hfresh, ensure_of hpatterns]
  by_cases hroom : table.sequence + 1 ≤ 9223372036854775807
  · have hid : checkedI64 (table.sequence + 1) = some (table.sequence + 1) :=
      checkedI64_eq_some.mpr ⟨rfl, by omega, by omega⟩
    rw [hid]
    simp only [orError_some, ok_bind, pure_bind, hroom, iff_true]
    cases imported.schedule with
    | none => exact ⟨_, rfl⟩
    | some schedule => exact ⟨_, rfl⟩
  · have hid : checkedI64 (table.sequence + 1) = none := by
      unfold checkedI64
      rw [if_neg (by omega)]
    rw [hid]
    simp only [hroom, iff_false]
    rintro ⟨table', hrun⟩
    cases hrun

theorem foldlM_insertImported_succeeds {profiles : List ImportedProfile} {table : ProfileTable}
    {entries : List StoredProfile} (h : table.Stores entries)
    (hprofiles : ∀ imported ∈ profiles, imported.Storable)
    (hdistinct : DistinctNames (profilesOf entries ++ profiles.map (·.profile))) :
    (∃ table', profiles.foldlM insertImported table = .ok table') ↔
      profiles = [] ∨ table.sequence + profiles.length ≤ 9223372036854775807 := by
  induction profiles generalizing table entries with
  | nil => exact ⟨fun _ => .inl rfl, fun _ => ⟨table, rfl⟩⟩
  | cons imported rest ih =>
      obtain ⟨hfirst, hrest⟩ := List.forall_mem_cons.mp hprofiles
      have hassoc : profilesOf entries ++ (imported :: rest).map (·.profile) =
          profilesOf entries ++ [imported.profile] ++ rest.map (·.profile) := by simp
      have hnames := hdistinct.names
      rw [hassoc, List.map_append, List.map_append, List.nodup_append] at hnames
      have hname : ∀ profile ∈ profilesOf entries, profile.name ≠ imported.profile.name :=
        fun profile hmem => (List.nodup_append.mp hnames.1).2.2 profile.name
          (List.mem_map_of_mem hmem) imported.profile.name (by simp)
      have hpatterns : imported.profile.exclusions.Nodup :=
        hdistinct.patterns imported.profile (by simp)
      have hroom := insertImported_succeeds h hname hpatterns
      rw [List.foldlM_cons]
      simp only [bind_eq_ok, reduceCtorEq, false_or, List.length_cons]
      constructor
      · rintro ⟨table', table₁, hinsert, hfold⟩
        obtain ⟨hstores, -, hsequence⟩ := insertImported_eq_ok h hfirst hinsert
        have hrest' := (ih hstores hrest (by rw [profilesOf_append]; rwa [hassoc] at hdistinct)).mp
          ⟨table', hfold⟩
        have hone := hroom.mp ⟨table₁, hinsert⟩
        rcases hrest' with rfl | hle
        · simpa using hone
        · omega
      · intro hle
        obtain ⟨table₁, hinsert⟩ := hroom.mpr (by omega)
        obtain ⟨hstores, -, hsequence⟩ := insertImported_eq_ok h hfirst hinsert
        obtain ⟨table', hfold⟩ :=
          (ih hstores hrest (by rw [profilesOf_append]; rwa [hassoc] at hdistinct)).mpr
            (.inr (by omega))
        exact ⟨table', table₁, hinsert, hfold⟩

/-- Whether the identifiers that are left suffice for the profiles. -/
def IdentifiersLeft (table : ProfileTable) (count : Nat) : Prop :=
  count = 0 ∨ table.sequence + count ≤ 9223372036854775807

instance (table : ProfileTable) (count : Nat) : Decidable (IdentifiersLeft table count) :=
  inferInstanceAs (Decidable (_ ∨ _))

theorem replaceTransaction_succeeds {db : Database} {entries : List StoredProfile}
    {profiles : List ImportedProfile} (h : db.profiles.Stores entries)
    (hprofiles : ∀ imported ∈ profiles, imported.Storable)
    (hdistinct : DistinctNames (profiles.map (·.profile))) :
    (∃ result, replaceTransaction profiles db = .ok result) ↔
      IdentifiersLeft db.profiles profiles.length := by
  have hempty : ProfileTable.Stores { db.profiles with rows := [] } [] :=
    ⟨rfl, by simp, by simp, by simp, h.sequence⟩
  have hfold := foldlM_insertImported_succeeds hempty hprofiles
    (by simpa [profilesOf] using hdistinct)
  unfold IdentifiersLeft
  rw [List.length_eq_zero_iff]
  refine Iff.trans ?_ hfold
  unfold replaceTransaction
  simp only [bind_eq_ok]
  constructor
  · rintro ⟨result, table', hrun, -⟩
    exact ⟨table', hrun⟩
  · rintro ⟨table', hrun⟩
    exact ⟨_, table', hrun, rfl⟩

/-! ## Listing what was imported -/

theorem content_importedEntries (first : Nat) (listed : List PersistedSyncProfile)
    (hmillis : ∀ persisted ∈ listed, persisted.profile.stored = persisted.profile) :
    (importedEntries first (importedOf listed)).map (fun e => e.kept.persisted.content) =
      listed.map fun persisted => persisted.content.reset := by
  induction listed generalizing first with
  | nil => rfl
  | cons persisted rest ih =>
      obtain ⟨hfirst, hrest⟩ := List.forall_mem_cons.mp hmillis
      have hstored : persisted.profile.reset.stored = persisted.profile.reset := by
        rw [SyncProfile.stored_eq_self] at hfirst ⊢
        exact hfirst
      have hdisabled : isScheduleEnabled (persisted.schedule.map ScheduleDefinition.reset) =
          false := by
        cases persisted.schedule <;> rfl
      have hhead : (StoredProfile.kept ⟨⟨.ofNat first⟩, persisted.profile.reset,
            persisted.schedule.map ScheduleDefinition.reset, .default, 0⟩).persisted.content =
          persisted.content.reset := by
        simp [StoredProfile.kept, StoredProfile.persisted, PersistedSyncProfile.content,
          ProfileContent.reset, hstored, hdisabled]
      rw [importedOf, List.map_cons, importedEntries, List.map_cons, List.map_cons]
      exact congrArg₂ List.cons hhead (ih _ hrest)

theorem edits_importedEntries {first : Nat} {profiles : List ImportedProfile}
    {e : StoredProfile} (h : e ∈ importedEntries first profiles) : e.edits = 0 := by
  induction profiles generalizing first with
  | nil => cases h
  | cons imported rest ih =>
      rcases List.mem_cons.mp h with rfl | h
      · rfl
      · exact ih h

theorem storable_preparedOf {persisted : PersistedSyncProfile} (h : persisted.Listed) :
    (preparedOf persisted).imported.Storable where
  profile := h.profile.reset
  schedule := by
    intro schedule hschedule
    obtain ⟨original, horiginal, rfl⟩ := Option.map_eq_some_iff.mp hschedule
    exact ⟨(h.schedule original horiginal).reset, rfl⟩

/-- What a store lists satisfies its checks. -/
theorem listed_of_stores {table : ProfileTable} {entries : List StoredProfile}
    {isDir : Directories} {listed : List PersistedSyncProfile} (h : table.Stores entries)
    (hlisted : table.listProfiles isDir = .ok listed) :
    ∀ persisted ∈ listed, persisted.Listed := by
  obtain ⟨rfl, -⟩ := (listProfiles_eq_ok h).mp hlisted
  intro persisted hpersisted
  obtain ⟨e, he, rfl⟩ := List.mem_map.mp hpersisted
  have hvalid := h.valid e he
  refine ⟨hvalid.profile.stored, hvalid.schedule, ?_⟩
  rw [SyncProfile.stored_eq_self]
  exact Duration.isWholeMillis_fromMillis _

/-! ## The round trip -/

/-- What an import asks of a list of profiles, of the machine it runs on and of
the store it goes to. -/
structure Importable (currentDir : Option PathBuf) (importing : Moment)
    (profiles : List SyncProfile) (target : ApplicationDatabase) : Prop where
  answers : importing.refused = none
  listable : ∃ existing, target.profiles.listProfiles importing.isDir = .ok existing
  count : profiles.length ≤ maxProfiles
  each : ∀ profile ∈ profiles, profile.Importable importing.isDir
  endpoints : EndpointsDistinct currentDir profiles
  identifiers : IdentifiersLeft target.profiles profiles.length

/-- The import succeeds, and leaves these settings and these profiles, reset. -/
def RoundTrips (json : JsonCodec) (currentDir : Option PathBuf) (importing : Moment)
    (text : String) (settings : ApplicationSettings) (listed : List PersistedSyncProfile)
    (target : ApplicationDatabase) : Prop :=
  ∃ preview target' listed',
    RunsTo importing (importConfiguration json currentDir text) target preview target' ∧
    target'.settings.loadSettings = .ok settings ∧
    target'.listProfiles importing = .ok listed' ∧
    listed'.map (·.content) = listed.map (·.content.reset)

theorem begin_eq_ok {moment : Moment} : moment.begin = .ok () ↔ moment.refused = none := by
  unfold Moment.begin
  cases moment.refused <;> simp

theorem listProfiles_eq_ok_iff {db : ApplicationDatabase} {moment : Moment}
    {listed : List PersistedSyncProfile} :
    db.listProfiles moment = .ok listed ↔
      moment.refused = none ∧ db.profiles.listProfiles moment.isDir = .ok listed := by
  unfold ApplicationDatabase.listProfiles
  rw [mapError_eq_ok, unit_bind_eq_ok, begin_eq_ok]

/-- What the text of an export was made from. -/
theorem exportConfiguration_eq_ok {json : JsonCodec} {moment : Moment}
    {db : ApplicationDatabase} {text : String}
    (h : exportConfiguration json moment db = .ok text) :
    ∃ settings listed exported, db.settings.loadSettings = .ok settings ∧
      db.listProfiles moment = .ok listed ∧
      listed.mapM ExportProfile.fromPersisted = .ok exported ∧
      json.fromStr text = .ok ⟨currentSchemaVersion, settings, exported⟩ := by
  unfold exportConfiguration at h
  obtain ⟨-, h⟩ := unit_bind_eq_ok.mp h
  obtain ⟨settings, hsettings, h⟩ := bind_eq_ok.mp h
  obtain ⟨listed, hlisted, h⟩ := bind_eq_ok.mp h
  obtain ⟨exported, hexported, h⟩ := bind_eq_ok.mp h
  exact ⟨settings, listed, exported, mapError_eq_ok.mp hsettings, hlisted, hexported,
    json.fromStr_toStringPretty _ _ (mapError_eq_ok.mp h)⟩

theorem length_mapM {α β ε : Type} {f : α → Except ε β} {l : List α} {bs : List β}
    (h : l.mapM f = .ok bs) : bs.length = l.length := by
  induction l generalizing bs with
  | nil =>
      rw [List.mapM_nil] at h
      cases h
      rfl
  | cons a l ih =>
      rw [List.mapM_cons] at h
      obtain ⟨b, -, h⟩ := bind_eq_ok.mp h
      obtain ⟨rest, hrest, h⟩ := bind_eq_ok.mp h
      cases h
      simp [ih hrest]

/-- The text of an export is prepared when the importer takes all its profiles. -/
theorem prepareImport_eq_ok {json : JsonCodec} {currentDir : Option PathBuf}
    {isDir : Directories} {text : String} {settings : ApplicationSettings}
    {listed : List PersistedSyncProfile} {exported : List ExportProfile} {existing : Nat}
    (hlisted : ∀ persisted ∈ listed, persisted.Listed)
    (hnames : ((listed.map (·.profile)).map (·.name)).Nodup)
    (hexported : listed.mapM ExportProfile.fromPersisted = .ok exported)
    (htext : json.fromStr text = .ok ⟨currentSchemaVersion, settings, exported⟩)
    {prepared : PreparedImport}
    (hrun : prepareImport currentDir isDir json text existing = .ok prepared) :
    prepared.settings = settings ∧
      prepared.profiles = importedOf listed ∧
      listed.length ≤ maxProfiles ∧
      (∀ persisted ∈ listed, persisted.profile.Importable isDir) ∧
      EndpointsDistinct currentDir (listed.map (·.profile)) := by
  unfold prepareImport at hrun
  obtain ⟨document, hdocument, hrun⟩ := bind_eq_ok.mp hrun
  rw [mapError_eq_ok, htext] at hdocument
  cases hdocument
  obtain ⟨-, hrun⟩ := ensure_bind_eq_ok.mp hrun
  obtain ⟨hcount, hrun⟩ := ensure_bind_eq_ok.mp hrun
  obtain ⟨result, hresult, hrun⟩ := bind_eq_ok.mp hrun
  cases hrun
  obtain ⟨rfl, hall, hdistinct⟩ := (prepareProfiles_eq_ok [] [] hlisted hexported rfl
    hnames List.nodup_nil).mp hresult
  rw [length_mapM hexported] at hcount
  exact ⟨rfl, by simp [importedOf], hcount, hall, hdistinct⟩

theorem prepareImport_of {json : JsonCodec} {currentDir : Option PathBuf}
    {isDir : Directories} {text : String} {settings : ApplicationSettings}
    {listed : List PersistedSyncProfile} {exported : List ExportProfile} (existing : Nat)
    (hlisted : ∀ persisted ∈ listed, persisted.Listed)
    (hnames : ((listed.map (·.profile)).map (·.name)).Nodup)
    (hexported : listed.mapM ExportProfile.fromPersisted = .ok exported)
    (htext : json.fromStr text = .ok ⟨currentSchemaVersion, settings, exported⟩)
    (hcount : listed.length ≤ maxProfiles)
    (hall : ∀ persisted ∈ listed, persisted.profile.Importable isDir)
    (hdistinct : EndpointsDistinct currentDir (listed.map (·.profile))) :
    ∃ prepared, prepareImport currentDir isDir json text existing = .ok prepared := by
  have hprepared := (prepareProfiles_eq_ok [] [] hlisted hexported rfl hnames
    List.nodup_nil).mpr ⟨rfl, hall, hdistinct⟩
  have hcount : exported.length ≤ maxProfiles := by rwa [length_mapM hexported]
  unfold prepareImport
  rw [mapError_eq_ok.mpr htext, ok_bind, ensure_of rfl, ok_bind]
  dsimp only
  rw [ensure_of hcount, ok_bind, hprepared, ok_bind]
  exact ⟨_, rfl⟩

section

variable {json : JsonCodec} {currentDir : Option PathBuf} {importing : Moment} {text : String}
  {settings : ApplicationSettings} {listed : List PersistedSyncProfile}
  {exported : List ExportProfile} {target : ApplicationDatabase} {entries : List StoredProfile}

theorem profiles_importedOf :
    (importedOf listed).map (·.profile) = (listed.map (·.profile)).map SyncProfile.reset := by
  simp [importedOf, preparedOf, Function.comp_def]

theorem storable_importedOf (hlisted : ∀ persisted ∈ listed, persisted.Listed) :
    ∀ imported ∈ importedOf listed, imported.Storable := by
  intro imported hmem
  obtain ⟨persisted, hpersisted, rfl⟩ := List.mem_map.mp hmem
  exact storable_preparedOf (hlisted persisted hpersisted)

theorem distinctNames_importedOf (h : DistinctNames (listed.map (·.profile))) :
    DistinctNames ((importedOf listed).map (·.profile)) := by
  rw [profiles_importedOf]
  refine ⟨by simpa [Function.comp_def] using h.names, fun profile hmem => ?_⟩
  obtain ⟨other, hother, rfl⟩ := List.mem_map.mp hmem
  exact h.patterns other hother

/-- An import that succeeds took the profiles. -/
theorem importable_of_runsTo (htarget : target.profiles.Stores entries)
    (hlisted : ∀ persisted ∈ listed, persisted.Listed)
    (hdistinct : DistinctNames (listed.map (·.profile)))
    (hexported : listed.mapM ExportProfile.fromPersisted = .ok exported)
    (htext : json.fromStr text = .ok ⟨currentSchemaVersion, settings, exported⟩)
    {preview : ConfigurationImportPreview} {target' : ApplicationDatabase}
    (hrun : RunsTo importing (importConfiguration json currentDir text) target preview target') :
    Importable currentDir importing (listed.map (·.profile)) target := by
  unfold importConfiguration at hrun
  simp only [runsTo_bind, runsTo_query, runsTo_transaction, runsTo_pure] at hrun
  obtain ⟨existing, _, ⟨hexisting, rfl⟩, prepared, _, ⟨hprepared, rfl⟩, _, _, ⟨-, rfl⟩, _, _,
    ⟨marks, hreplace⟩, -, rfl⟩ := hrun
  obtain ⟨hanswers, hexisting⟩ := listProfiles_eq_ok_iff.mp hexisting
  obtain ⟨-, heq, hcount, hall, hendpoints⟩ :=
    prepareImport_eq_ok hlisted hdistinct.names hexported htext hprepared
  refine ⟨hanswers, ⟨existing, hexisting⟩, by simpa using hcount, ?_, hendpoints, ?_⟩
  · intro profile hmem
    obtain ⟨persisted, hpersisted, rfl⟩ := List.mem_map.mp hmem
    exact hall persisted hpersisted
  · unfold replaceAll at hreplace
    obtain ⟨-, hreplace⟩ := unit_bind_eq_ok.mp (mapError_eq_ok.mp hreplace)
    obtain ⟨result, hresult, -⟩ := bind_eq_ok.mp hreplace
    have hroom := (replaceTransaction_succeeds htarget (storable_importedOf hlisted)
      (distinctNames_importedOf hdistinct)).mp ⟨result, heq ▸ hresult⟩
    simpa [importedOf] using hroom

/-- Profiles that the importer takes come back reset. -/
theorem roundTrips_of_importable (htarget : target.profiles.Stores entries)
    (hlisted : ∀ persisted ∈ listed, persisted.Listed)
    (hdistinct : DistinctNames (listed.map (·.profile)))
    (hexported : listed.mapM ExportProfile.fromPersisted = .ok exported)
    (htext : json.fromStr text = .ok ⟨currentSchemaVersion, settings, exported⟩)
    (h : Importable currentDir importing (listed.map (·.profile)) target) :
    RoundTrips json currentDir importing text settings listed target := by
  have himported := storable_importedOf hlisted
  have hreset := distinctNames_importedOf hdistinct
  obtain ⟨existing, hexisting⟩ := h.listable
  have hall : ∀ persisted ∈ listed, persisted.profile.Importable importing.isDir :=
    fun persisted hmem => h.each _ (List.mem_map_of_mem hmem)
  have hcount : listed.length ≤ maxProfiles := by simpa using h.count
  obtain ⟨prepared, hprepared⟩ := prepareImport_of existing.length hlisted hdistinct.names
    hexported htext hcount hall h.endpoints
  obtain ⟨hsettings, heq, -⟩ :=
    prepareImport_eq_ok hlisted hdistinct.names hexported htext hprepared
  have hfound : ∀ imported ∈ importedOf listed,
      (processDestinationRoot importing.isDir imported.profile).isEmpty = false := by
    intro imported hmem
    obtain ⟨persisted, hpersisted, rfl⟩ := List.mem_map.mp hmem
    simpa [preparedOf] using (hall persisted hpersisted).destination
  have hvalidate : validateImport currentDir importing.isDir [] (importedOf listed) = .ok () := by
    refine validateImport_of himported hfound hreset.names ?_
    rw [List.nil_append, profiles_importedOf]
    simpa [EndpointsDistinct, Function.comp_def] using h.endpoints
  have hleft : IdentifiersLeft target.profiles (importedOf listed).length := by
    simpa [importedOf] using h.identifiers
  obtain ⟨⟨_, replaced, marks⟩, hreplace⟩ :=
    (replaceTransaction_succeeds htarget himported hreset).mpr hleft
  obtain ⟨hstores, -⟩ := replaceTransaction_eq_ok htarget himported hreplace
  have hrun : replaceAll prepared.settings prepared.profiles importing target =
      .ok ((), ⟨replaced, .ofSettings settings⟩, []) := by
    unfold replaceAll
    rw [hsettings, heq, mapError_eq_ok, begin_eq_ok.mpr h.answers, ok_bind, hreplace, ok_bind]
    rfl
  have hlisted' : replaced.profiles.listProfiles importing.isDir =
      .ok ((importedEntries (target.profiles.sequence + 1).toNat (importedOf listed)).map
        fun e => e.kept.persisted) := by
    refine (listProfiles_eq_ok hstores).mpr ⟨rfl, fun e he => ?_⟩
    obtain ⟨imported, hmem, hprofile, -⟩ := mem_importedEntries he
    refine ⟨by rw [edits_importedEntries he]; decide, ?_⟩
    rw [hprofile]
    exact hfound imported hmem
  refine ⟨prepared.preview, ⟨replaced, .ofSettings settings⟩, _, ?_,
    loadSettings_ofSettings settings, listProfiles_eq_ok_iff.mpr ⟨h.answers, hlisted'⟩, ?_⟩
  · unfold importConfiguration
    simp only [runsTo_bind, runsTo_query, runsTo_transaction, runsTo_pure]
    exact ⟨existing, _, ⟨listProfiles_eq_ok_iff.mpr ⟨h.answers, hexisting⟩, rfl⟩, prepared, _,
      ⟨hprepared, rfl⟩, (), _, ⟨mapError_eq_ok.mpr (heq ▸ hvalidate), rfl⟩, (), _, ⟨[], hrun⟩,
      rfl, rfl⟩
  · rw [List.map_map]
    exact content_importedEntries _ listed fun persisted hmem => (hlisted persisted hmem).millis

end

/-- **A failed import changes nothing**, whatever happens around its steps. -/
theorem importConfiguration_error {json : JsonCodec} {currentDir : Option PathBuf}
    {text : String} {db db' : ApplicationDatabase} {error : ConfigurationTransferError}
    (h : (importConfiguration json currentDir text).Returns db (.error error) db') :
    db' = db := by
  unfold importConfiguration at h
  rcases h.bind_error with hlist | ⟨existing, s₁, hlist, hrest₁⟩
  · exact hlist.transaction_error
  · obtain ⟨rfl, -⟩ := hlist.query
    rcases hrest₁.bind_error with hprepare | ⟨prepared, s₂, hprepare, hrest₂⟩
    · exact hprepare.transaction_error
    · obtain ⟨rfl, -⟩ := hprepare.query
      rcases hrest₂.bind_error with hvalidate | ⟨_, s₃, hvalidate, hrest₃⟩
      · exact hvalidate.transaction_error
      · obtain ⟨rfl, -⟩ := hvalidate.query
        rcases hrest₃.bind_error with hreplace | ⟨_, s₄, -, hdone⟩
        · exact hreplace.transaction_error
        · cases hdone

/-- **Export and import.** For stores as any run of store calls leaves them, an
export that returns a text is imported, up to what is reset, exactly when the
importer takes its profiles; and an import that fails changes nothing. -/
theorem configuration_round_trip_iff {ι ι' : Type} [DecidableEq ι] [DecidableEq ι']
    (json : JsonCodec) {sourceDir targetDir : Option PathBuf} {s : StoreSystem ι}
    {t : StoreSystem ι'}
    (hs : Reached (Request.body sourceDir) (fun _ _ _ => True) Database.empty s)
    (ht : Reached (Request.body targetDir) (fun _ _ _ => True) Database.empty t)
    {settings settings' : SettingsTable} {exporting : Moment} {text : String}
    (hexport : exportConfiguration json exporting ⟨s.world.shared, settings⟩ = .ok text)
    (currentDir : Option PathBuf) (importing : Moment) :
    (∃ loaded listed, settings.loadSettings = .ok loaded ∧
      s.world.shared.profiles.listProfiles exporting.isDir = .ok listed ∧
      (RoundTrips json currentDir importing text loaded listed ⟨t.world.shared, settings'⟩ ↔
        Importable currentDir importing (listed.map (·.profile))
          ⟨t.world.shared, settings'⟩)) ∧
      ∀ text' error target',
        (importConfiguration json currentDir text').Returns ⟨t.world.shared, settings'⟩
          (.error error) target' → target' = ⟨t.world.shared, settings'⟩ := by
  refine ⟨?_, fun _ _ _ h => importConfiguration_error h⟩
  obtain ⟨loaded, listed, exported, hloaded, hlisted, hexported, htext⟩ :=
    exportConfiguration_eq_ok hexport
  obtain ⟨-, hlisted⟩ := listProfiles_eq_ok_iff.mp hlisted
  obtain ⟨entries, hstores, hdistinct⟩ := distinct_names hs
  obtain ⟨targets, htarget, -⟩ := distinct_names ht
  have hkept := (listProfiles_eq_ok hstores).mp hlisted
  have hprofiles : DistinctNames (listed.map (·.profile)) := by
    have hlist : listed.map (·.profile) = (profilesOf entries).map SyncProfile.stored := by
      rw [hkept.1, List.map_map, profilesOf, List.map_map]
      rfl
    rw [hlist]
    refine ⟨by rw [List.map_map]; exact hdistinct.names, fun profile hmem => ?_⟩
    obtain ⟨other, hother, rfl⟩ := List.mem_map.mp hmem
    exact hdistinct.patterns other hother
  have hall := listed_of_stores hstores hlisted
  refine ⟨loaded, listed, hloaded, hlisted, ?_,
    roundTrips_of_importable htarget hall hprofiles hexported htext⟩
  rintro ⟨preview, target', listed', hrun, -⟩
  exact importable_of_runsTo htarget hall hprofiles hexported htext hrun

/-! ### One profile, and one with too many patterns -/

/-- The profile is created on an empty store. -/
theorem runsTo_createProfile {profile : SyncProfile} {moment : Moment}
    (hanswers : moment.refused = none) (hprofile : profile.Storable)
    (hdestination : (processDestinationRoot moment.isDir profile).isEmpty = false)
    (hpatterns : profile.exclusions.Nodup) :
    ∃ persisted db id, RunsTo moment (createProfile none profile) Database.empty persisted db ∧
      db.profiles.sequence = 1 ∧ db.profiles.Stores [⟨id, profile, none, .default, 0⟩] := by
  have hvalidate : validateProfile moment.isDir profile = .ok () :=
    validateProfile_eq_ok.mpr ⟨hprofile, hdestination⟩
  have hbegin := begin_eq_ok.mpr hanswers
  have hinsert : ∃ db, createTransaction profile .default Database.empty = .ok (1, db, []) ∧
      db.profiles.sequence = 1 := by
    unfold createTransaction ProfileTable.insertExclusions
    rw [ensure_of hpatterns]
    exact ⟨_, rfl, rfl⟩
  obtain ⟨db, hinsert, hsequence⟩ := hinsert
  have hempty : Database.empty.profiles.Stores [] := stores_empty
  obtain ⟨id, -, -, hstores, -⟩ := createTransaction_eq_ok hempty hprofile
    (validateAuthorizations_default profile) hinsert
  refine ⟨⟨⟨1⟩, profile, false, none, 0, .default⟩, db, id, ?_, hsequence, hstores⟩
  unfold createProfile createProfileWithAuthorizations rejectDuplicateEndpointPair StoreCall.look
    StoreCall.read StoreCall.write StoreCall.check
  simp only [runsTo_bind, runsTo_query, runsTo_transaction, runsTo_ofExcept, runsTo_pure]
  refine ⟨(), _, ⟨hvalidate, rfl⟩, (), _, ⟨validateAuthorizations_default profile, rfl⟩, (), _,
    ⟨?_, rfl⟩, 1, db, ⟨[], ?_⟩, 1, db, ⟨rfl, rfl⟩, rfl, rfl⟩
  · rw [hbegin]
    rfl
  · rw [hbegin, ok_bind]
    exact hinsert

/-- A profile of two local peers, with the patterns. -/
def patternsProfile (patterns : List String) : SyncProfile :=
  { plannedProfile "Documents" false with exclusions := patterns }

theorem storable_plannedProfile : (plannedProfile "Documents" false).Storable where
  name := by decide +kernel
  peerA := by decide +kernel
  peerB := by decide +kernel
  options := by decide
  checks := {
    mirror := by decide
    topology := by decide
    source := by decide +kernel
    destination := by decide +kernel
    exclusions := by simp [plannedProfile, SyncProfile.new] }

theorem storable_patternsProfile {patterns : List String}
    (h : ∀ pattern ∈ patterns, validateExclusionPattern pattern = .ok ()) :
    (patternsProfile patterns).Storable where
  name := storable_plannedProfile.name
  peerA := storable_plannedProfile.peerA
  peerB := storable_plannedProfile.peerB
  options := storable_plannedProfile.options
  checks := { storable_plannedProfile.checks with exclusions := h }

theorem distinctNames_patternsProfile {patterns : List String} (h : patterns.Nodup) :
    DistinctNames [patternsProfile patterns] :=
  ⟨List.nodup_singleton _, List.forall_mem_singleton.mpr h⟩

theorem patterns_le_of_importable {currentDir : Option PathBuf} {importing : Moment}
    {patterns : List String} {target : ApplicationDatabase}
    (h : Importable currentDir importing [patternsProfile patterns] target) :
    patterns.length ≤ maxExclusionsPerProfile :=
  (h.each (patternsProfile patterns) (.head _)).patterns

/-- What the profile is exported as. -/
def exportedPatterns (patterns : List String) : ExportProfile where
  name := "Documents"
  peerA := .local "Laptop" "/Documents"
  peerB := .local "Server" "/backup"
  mode := .oneWay
  source := .peerA
  options := .fromOptions .default
  exclusions := patterns
  schedule := none

/-- The profile, created and exported on a machine without its folders. -/
theorem reached_patternsProfile {patterns : List String}
    (h : ∀ pattern ∈ patterns, validateExclusionPattern pattern = .ok ())
    (hnodup : patterns.Nodup) :
    ∃ (s : StoreSystem Unit) (id : SyncProfileId),
      Reached (Request.body none) (fun _ _ _ => True) Database.empty s ∧
      s.world.shared.profiles.sequence = 1 ∧
      s.world.shared.profiles.Stores [⟨id, patternsProfile patterns, none, .default, 0⟩] ∧
      s.world.shared.profiles.listProfiles plainMachine.isDir =
        .ok [⟨id, patternsProfile patterns, false, none, 0, .default⟩] := by
  have hplanned : (processDestinationRoot plainMachine.isDir
      (plannedProfile "Documents" false)).isEmpty = false := by decide +kernel
  have hdestination : (processDestinationRoot plainMachine.admitted.isDir
      (patternsProfile patterns)).isEmpty = false := hplanned
  obtain ⟨persisted, db, id, hrun, hsequence, hstores⟩ :=
    runsTo_createProfile rfl (storable_patternsProfile h) hdestination hnodup
  obtain ⟨s, hs, -, hworld⟩ := Reached.alone () (.createProfile (patternsProfile patterns))
    plainMachine.admitted
    (.start : Reached (Request.body none) (fun _ _ _ => True) Database.empty _) rfl
    (fun _ _ _ _ => trivial)
  have hbody : RunsTo plainMachine.admitted
      ((Request.createProfile (patternsProfile patterns)).body none) Database.empty
      (.profile persisted) db := runsTo_bind.mpr ⟨persisted, db, hrun, rfl, rfl⟩
  have hshared : s.world.shared = db := by
    rw [hworld]
    exact hbody.2
  rw [← hshared] at hstores hsequence
  refine ⟨s, id, hs, hsequence, hstores, (listProfiles_eq_ok hstores).mpr ⟨?_, ?_⟩⟩
  · have hstored : (patternsProfile patterns).stored = patternsProfile patterns :=
      SyncProfile.stored_eq_self.mpr (Duration.isWholeMillis_fromMillis 100)
    simp [StoredProfile.kept, StoredProfile.persisted, hstored, isScheduleEnabled]
  · intro e he
    obtain rfl := List.mem_singleton.mp he
    exact ⟨Nat.two_pow_pos 63, hdestination⟩

theorem fromPersisted_patternsProfile (id : SyncProfileId) (patterns : List String) :
    ExportProfile.fromPersisted ⟨id, patternsProfile patterns, false, none, 0, .default⟩ =
      .ok (exportedPatterns patterns) := by
  have hpath : ∀ text field, pathToString (.ofText text) field = .ok text := by
    intro text field
    rw [pathToString_eq_ok, PathBuf.toText_ofText]
  unfold ExportProfile.fromPersisted ExportPeer.fromPeer
  simp only [patternsProfile, plannedProfile, SyncProfile.new, hpath, ok_bind]
  rfl

/-- Its text. -/
theorem export_patternsProfile {db : Database} {id : SyncProfileId} {patterns : List String}
    (h : db.profiles.listProfiles plainMachine.isDir =
      .ok [⟨id, patternsProfile patterns, false, none, 0, .default⟩]) :
    exportConfiguration (documentCodec (documentOf (exportedPatterns patterns)))
        plainMachine.admitted ⟨db, .empty⟩ =
      .ok (documentOf (exportedPatterns patterns)).text := by
  have hlisted : (⟨db, .empty⟩ : ApplicationDatabase).listProfiles plainMachine.admitted =
      .ok [⟨id, patternsProfile patterns, false, none, 0, .default⟩] :=
    listProfiles_eq_ok_iff.mpr ⟨rfl, h⟩
  have hexported : [⟨id, patternsProfile patterns, false, none, 0, .default⟩].mapM
      ExportProfile.fromPersisted = .ok [exportedPatterns patterns] := by
    rw [List.mapM_cons, fromPersisted_patternsProfile]
    rfl
  have hwrites : (documentCodec (documentOf (exportedPatterns patterns))).toStringPretty
      (documentOf (exportedPatterns patterns)) =
        .ok (documentOf (exportedPatterns patterns)).text := if_pos rfl
  have hbegin : plainMachine.admitted.begin.mapError ConfigurationTransferError.storage =
      .ok () := rfl
  have hsettings : SettingsTable.empty.loadSettings.mapError ConfigurationTransferError.storage =
      .ok ⟨.simple, .system, true⟩ := rfl
  unfold exportConfiguration
  rw [hbegin, ok_bind, hsettings, ok_bind, hlisted, ok_bind, hexported, ok_bind]
  exact mapError_eq_ok.mpr hwrites

/-- A profile with two patterns is imported again into the store it came from. -/
theorem configuration_round_trip_two_patterns :
    ∃ (s : StoreSystem Unit) (loaded : ApplicationSettings) (listed : List PersistedSyncProfile),
      listed.map (·.profile.exclusions) = [["*.tmp", "private/"]] ∧
      RoundTrips (documentCodec (documentOf (exportedPatterns ["*.tmp", "private/"]))) none
        plainMachine.admitted (documentOf (exportedPatterns ["*.tmp", "private/"])).text loaded
        listed ⟨s.world.shared, .empty⟩ := by
  have hpatterns : ∀ pattern ∈ ["*.tmp", "private/"],
      validateExclusionPattern pattern = .ok () := by decide +kernel
  obtain ⟨s, id, hs, hsequence, hstores, hlisted⟩ :=
    reached_patternsProfile hpatterns (by decide)
  obtain ⟨⟨loaded, listed, hloaded, hlisted', hiff⟩, -⟩ := configuration_round_trip_iff _ hs hs
    (export_patternsProfile hlisted) none plainMachine.admitted
  obtain rfl := Except.ok.inj (hlisted.symm.trans hlisted')
  refine ⟨s, loaded, _, rfl, hiff.mpr ?_⟩
  have hdestination : (processDestinationRoot plainMachine.admitted.isDir
      (patternsProfile ["*.tmp", "private/"])).isEmpty = false := by decide +kernel
  exact {
    answers := rfl
    listable := ⟨_, hlisted⟩
    count := by simp [maxProfiles]
    each := by
      intro profile hprofile
      obtain rfl := List.mem_singleton.mp hprofile
      exact ⟨by simp [patternsProfile, maxExclusionsPerProfile], hdestination⟩
    endpoints := by simp [EndpointsDistinct]
    identifiers := by simp [IdentifiersLeft, hsequence] }

/-- One pattern more than an import takes. -/
def crowdedPatterns : List String :=
  (List.range (maxExclusionsPerProfile + 1)).map fun n =>
    String.ofList (List.replicate (n + 1) 'x')

theorem length_crowdedPatterns : crowdedPatterns.length = maxExclusionsPerProfile + 1 := by
  unfold crowdedPatterns
  rw [List.length_map]
  exact List.length_range

theorem crowdedPatterns_nodup : crowdedPatterns.Nodup := by
  refine List.Nodup.map (fun m n h => ?_) List.nodup_range
  have hlength := congrArg (fun text => text.toList.length) h
  simpa using hlength

theorem validate_crowdedPatterns :
    ∀ pattern ∈ crowdedPatterns, validateExclusionPattern pattern = .ok () := by
  intro pattern hpattern
  obtain ⟨n, -, rfl⟩ := List.mem_map.mp hpattern
  rw [validateExclusionPattern_eq_ok]
  refine ⟨fun h => ?_, ?_⟩
  · have hlength := congrArg (fun text => text.toList.length) h
    simp at hlength
  · have hx : nulChar ≠ 'x' := by decide
    simp [containsNul, hx]

/-- A profile with 10001 patterns is stored and exported, and no import takes
it. -/
theorem configuration_round_trip_fails :
    ¬ ∀ (json : JsonCodec) (currentDir : Option PathBuf) (s t : StoreSystem Unit)
      (settings settings' : SettingsTable) (moment : Moment) (text : String)
      (loaded : ApplicationSettings) (listed : List PersistedSyncProfile),
      Reached (Request.body currentDir) (fun _ _ _ => True) Database.empty s →
      Reached (Request.body currentDir) (fun _ _ _ => True) Database.empty t →
      exportConfiguration json moment ⟨s.world.shared, settings⟩ = .ok text →
      settings.loadSettings = .ok loaded →
      s.world.shared.profiles.listProfiles moment.isDir = .ok listed →
        RoundTrips json currentDir moment text loaded listed ⟨t.world.shared, settings'⟩ := by
  intro h
  obtain ⟨s, id, hs, -, hstores, hlisted⟩ :=
    reached_patternsProfile validate_crowdedPatterns crowdedPatterns_nodup
  have hexport := export_patternsProfile hlisted
  obtain ⟨preview, target', listed', hrun, -⟩ := h _ none s s .empty .empty
    plainMachine.admitted _ ⟨.simple, .system, true⟩ _ hs hs hexport rfl hlisted
  obtain ⟨loaded, listed, exported, hloaded, hfound, hexported, htext⟩ :=
    exportConfiguration_eq_ok hexport
  obtain ⟨-, hfound⟩ := listProfiles_eq_ok_iff.mp hfound
  obtain rfl := Except.ok.inj (hlisted.symm.trans hfound)
  have htaken := importable_of_runsTo hstores (listed_of_stores hstores hlisted)
    (distinctNames_patternsProfile crowdedPatterns_nodup) hexported htext hrun
  have hfew := patterns_le_of_importable htaken
  rw [length_crowdedPatterns] at hfew
  exact Nat.not_succ_le_self _ hfew

end SyncPlus
