import SyncPlus.StoreOutlines

/-!
# Names of profiles

The database keeps no two profiles of one name, and no pattern twice in one
profile. Every call that writes a profile is stopped by these constraints
before it breaks them, whatever it has checked itself, so they hold in every
run of all calls over any connections (`distinct_names`).
-/

namespace SyncPlus

variable {ι : Type}

/-- No name twice, and no pattern twice in one profile. -/
structure DistinctNames (profiles : List SyncProfile) : Prop where
  names : (profiles.map (·.name)).Nodup
  patterns : ∀ profile ∈ profiles, profile.exclusions.Nodup

theorem distinctNames_nil : DistinctNames [] := ⟨List.nodup_nil, by simp⟩

theorem DistinctNames.append {profiles : List SyncProfile} {profile : SyncProfile}
    (h : DistinctNames profiles) (hname : ∀ other ∈ profiles, other.name ≠ profile.name)
    (hpatterns : profile.exclusions.Nodup) : DistinctNames (profiles ++ [profile]) where
  names := by
    rw [List.map_append, List.map_singleton]
    refine h.names.append (List.nodup_singleton _) ?_
    rintro name hmem hlast
    obtain rfl := List.mem_singleton.mp hlast
    obtain ⟨other, hother, heq⟩ := List.mem_map.mp hmem
    exact hname other hother heq
  patterns := by
    intro other hother
    rcases List.mem_append.mp hother with hold | hlast
    · exact h.patterns other hold
    · obtain rfl := List.mem_singleton.mp hlast
      exact hpatterns

/-- The profiles of a list of records. -/
def profilesOf (entries : List StoredProfile) : List SyncProfile := entries.map (·.profile)

theorem mem_profilesOf {entries : List StoredProfile} {profile : SyncProfile} :
    profile ∈ profilesOf entries ↔ ∃ e ∈ entries, e.profile = profile := List.mem_map

@[simp] theorem profilesOf_append (entries entries' : List StoredProfile) :
    profilesOf (entries ++ entries') = profilesOf entries ++ profilesOf entries' :=
  List.map_append

theorem profilesOf_modifyEntry {entries : List StoredProfile} {id : SyncProfileId}
    {g : StoredProfile → StoredProfile} (hg : ∀ e, (g e).profile = e.profile) :
    profilesOf (modifyEntry entries id g) = profilesOf entries := by
  unfold profilesOf modifyEntry
  rw [List.map_map]
  refine List.map_congr_left fun e _ => ?_
  by_cases hid : e.id = id
  · simp [hid, hg]
  · simp [hid]

/-! ## What a transaction is stopped by -/

section

variable {db db' : Database} {marks : List Commit} {entries : List StoredProfile}

theorem insertProfile_fresh {table table' : ProfileTable} {profile : SyncProfile}
    {authorizations : AuthorizationSnapshot} {key : Int} (h : table.Stores entries)
    (hrun : table.insertProfile (.fromProfile profile) authorizations = .ok (table', key)) :
    ∀ other ∈ profilesOf entries, other.name ≠ profile.name := by
  unfold ProfileTable.insertProfile at hrun
  obtain ⟨_, -, hrun⟩ := bind_eq_ok.mp hrun
  obtain ⟨hfresh, -⟩ := ensure_bind_eq_ok.mp hrun
  intro other hother
  obtain ⟨e, he, rfl⟩ := mem_profilesOf.mp hother
  exact hfresh e.row (h.mem_row.mpr ⟨e, he, rfl⟩)

theorem createTransaction_fresh {profile : SyncProfile}
    {authorizations : AuthorizationSnapshot} {key : Int} (h : db.profiles.Stores entries)
    (hrun : createTransaction profile authorizations db = .ok (key, db', marks)) :
    (∀ other ∈ profilesOf entries, other.name ≠ profile.name) ∧ profile.exclusions.Nodup := by
  unfold createTransaction at hrun
  obtain ⟨⟨table₁, key'⟩, hinsert, hrun⟩ := bind_eq_ok.mp hrun
  obtain ⟨table₂, hexclusions, -⟩ := bind_eq_ok.mp hrun
  exact ⟨insertProfile_fresh h hinsert, (ensure_bind_eq_ok.mp hexclusions).1⟩

theorem updateTransaction_fresh {id : SyncProfileId} {profile : SyncProfile}
    {authorizations : AuthorizationSnapshot} {expected : UInt64} {u : Unit}
    (h : db.profiles.Stores entries)
    (hrun : updateTransaction id profile authorizations expected db = .ok (u, db', marks)) :
    (∀ e ∈ entries, e.id ≠ id → e.profile.name ≠ profile.name) ∧ profile.exclusions.Nodup := by
  unfold updateTransaction ProfileTable.updateProfileRow at hrun
  obtain ⟨⟨table₁, changed⟩, hupdate, hrun⟩ := bind_eq_ok.mp hrun
  obtain ⟨hchanged, hrun⟩ := ensure_bind_eq_ok.mp hrun
  obtain ⟨key, -, hrun⟩ := bind_eq_ok.mp hrun
  obtain ⟨table₂, hexclusions, -⟩ := bind_eq_ok.mp hrun
  refine ⟨?_, (ensure_bind_eq_ok.mp hexclusions).1⟩
  obtain ⟨key', hkey', hupdate⟩ := bind_eq_ok.mp hupdate
  obtain ⟨-, hupdate⟩ := unit_bind_eq_ok.mp hupdate
  obtain ⟨-, rfl⟩ := SyncProfileId.valueAsI64_eq_ok.mp hkey'
  split at hupdate
  · obtain ⟨hfresh, -⟩ := ensure_bind_eq_ok.mp hupdate
    intro e he hid
    refine hfresh e.row (h.mem_row.mpr ⟨e, he, rfl⟩) ?_
    rw [StoredProfile.row_profileId]
    exact fun heq => hid (SyncProfileId.toNat_inj.mp heq)
  · cases hupdate
    cases hchanged

theorem DistinctNames.modifyEntry {id : SyncProfileId} {profile : SyncProfile}
    {g : StoredProfile → StoredProfile} (h : DistinctNames (profilesOf entries))
    (hnodup : (entries.map (·.id)).Nodup) (hg : ∀ e, (g e).profile = profile)
    (hname : ∀ e ∈ entries, e.id ≠ id → e.profile.name ≠ profile.name)
    (hpatterns : profile.exclusions.Nodup) :
    DistinctNames (profilesOf (SyncPlus.modifyEntry entries id g)) := by
  have hpattern : ∀ e ∈ entries,
      (if e.id = id then g e else e).profile.exclusions.Nodup := by
    intro e he
    split
    · rw [hg]
      exact hpatterns
    · exact h.patterns e.profile (mem_profilesOf.mpr ⟨e, he, rfl⟩)
  constructor
  · unfold profilesOf SyncPlus.modifyEntry
    rw [List.map_map, List.map_map]
    refine List.Nodup.map_on ?_ (List.Nodup.of_map _ hnodup)
    intro e he e' he' heq
    simp only [Function.comp_apply] at heq
    by_cases hid : e.id = id <;> by_cases hid' : e'.id = id
    · exact List.inj_on_of_nodup_map hnodup he he' (hid.trans hid'.symm)
    · rw [if_pos hid, if_neg hid', hg] at heq
      exact absurd heq.symm (hname e' he' hid')
    · rw [if_neg hid, if_pos hid', hg] at heq
      exact absurd heq (hname e he hid)
    · rw [if_neg hid, if_neg hid'] at heq
      have hnames := h.names
      rw [profilesOf, List.map_map] at hnames
      exact List.inj_on_of_nodup_map hnames he he' heq
  · intro other hother
    obtain ⟨e, he, rfl⟩ := mem_profilesOf.mp hother
    obtain ⟨old, hold, rfl⟩ := mem_modifyEntry.mp he
    exact hpattern old hold

theorem DistinctNames.insertImported {table table' : ProfileTable} {imported : ImportedProfile}
    (h : DistinctNames (profilesOf entries)) (hstores : table.Stores entries)
    (hrun : SyncPlus.insertImported table imported = .ok table') :
    DistinctNames (profilesOf entries ++ [imported.profile]) := by
  unfold SyncPlus.insertImported at hrun
  obtain ⟨⟨table₁, key⟩, hinsert, hrun⟩ := bind_eq_ok.mp hrun
  obtain ⟨table₂, hexclusions, -⟩ := bind_eq_ok.mp hrun
  exact h.append (insertProfile_fresh hstores hinsert) (ensure_bind_eq_ok.mp hexclusions).1

theorem DistinctNames.foldlM_insertImported {profiles : List ImportedProfile}
    {table table' : ProfileTable} (h : DistinctNames (profilesOf entries))
    (hstores : table.Stores entries) (hprofiles : ∀ imported ∈ profiles, imported.Storable)
    (hrun : profiles.foldlM SyncPlus.insertImported table = .ok table') :
    DistinctNames (profilesOf entries ++ profiles.map (·.profile)) := by
  induction profiles generalizing table entries with
  | nil => simpa using h
  | cons imported rest ih =>
      rw [List.foldlM_cons] at hrun
      obtain ⟨table₁, hfirst, hrest⟩ := bind_eq_ok.mp hrun
      obtain ⟨himported, hrests⟩ := List.forall_mem_cons.mp hprofiles
      obtain ⟨hstores₁, -⟩ := insertImported_eq_ok hstores himported hfirst
      have hfirst := h.insertImported hstores hfirst
      have hall := ih (by simpa [profilesOf] using hfirst) hstores₁ hrests hrest
      simpa [profilesOf] using hall

theorem profilesOf_importedEntries (first : Nat) (profiles : List ImportedProfile) :
    profilesOf (importedEntries first profiles) = profiles.map (·.profile) :=
  importedEntries_profile (f := id) first profiles

theorem replaceTransaction_distinct {profiles : List ImportedProfile} {u : Unit}
    (h : db.profiles.Stores entries) (hprofiles : ∀ imported ∈ profiles, imported.Storable)
    (hrun : replaceTransaction profiles db = .ok (u, db', marks)) :
    DistinctNames (profiles.map (·.profile)) := by
  unfold replaceTransaction at hrun
  obtain ⟨table, hfold, -⟩ := bind_eq_ok.mp hrun
  have hempty : ProfileTable.Stores { db.profiles with rows := [] } [] :=
    ⟨rfl, by simp, by simp, by simp, h.sequence⟩
  have hnil : DistinctNames (profilesOf []) := distinctNames_nil
  simpa [profilesOf] using hnil.foldlM_insertImported hempty hprofiles hfold

end

/-! ## The outlines -/

def namesDiscipline (ι : Type) : StoreDiscipline ι where
  inv w := ∃ entries, w.shared.profiles.Stores entries ∧ DistinctNames (profilesOf entries)
  rely _ _ _ := True
  admits _ _ _ _ _ := True
  guar _ _ _ := True
  guar_refl _ _ := trivial
  rely_refl _ _ := trivial
  rely_trans _ _ := trivial

section

variable {currentDir : Option PathBuf} {c : ι} {request : Request} {w : StoreWorld ι}
  {marks : List Commit}

theorem names_create {profile : SyncProfile} {authorizations : AuthorizationSnapshot} :
    Outline (namesDiscipline ι) c request (fun _ _ _ => True)
      (createProfileWithAuthorizations currentDir profile authorizations) marks w := by
  refine Outline.create fun _ _ w₃ _ key db new _ _ _ _ hinv₃ _ hstorable hauthorizations _
    hrun => ⟨?_, trivial⟩
  obtain ⟨entries, hstores, hdistinct⟩ := hinv₃
  obtain ⟨id, -, -, hstores', -⟩ :=
    createTransaction_eq_ok hstores hstorable hauthorizations hrun
  obtain ⟨hname, hpatterns⟩ := createTransaction_fresh hstores hrun
  refine ⟨_, hstores', ?_⟩
  rw [profilesOf_append]
  exact hdistinct.append hname hpatterns

theorem names_update {id : SyncProfileId} {profile : SyncProfile}
    {authorizations : AuthorizationSnapshot} {expected : UInt64} :
    Outline (namesDiscipline ι) c request (fun _ _ _ => True)
      (updateProfileWithAuthorizationsIfRevision currentDir id profile authorizations expected)
      marks w := by
  refine Outline.updateIfRevision fun _ _ _ w₄ _ _ existing db new _ _ _ _ _ _ hinv₄ _
    hstorable _ _ _ hauthorizations hrun => ⟨?_, trivial⟩
  obtain ⟨entries, hstores, hdistinct⟩ := hinv₄
  obtain ⟨-, hstores', -⟩ := updateTransaction_eq_ok hstores hstorable hauthorizations hrun
  obtain ⟨hname, hpatterns⟩ := updateTransaction_fresh hstores hrun
  exact ⟨_, hstores', hdistinct.modifyEntry hstores.nodup (fun _ => rfl) hname hpatterns⟩

theorem names_remove {id : SyncProfileId} :
    Outline (namesDiscipline ι) c request (fun _ _ _ => True) (removeProfile id) marks w := by
  refine Outline.remove fun w₁ _ _ db new _ hinv _ hrun => ⟨?_, trivial⟩
  obtain ⟨entries, hstores, hdistinct⟩ := hinv
  obtain ⟨hstores', -⟩ := removeTransaction_eq_ok hstores hrun
  have hsub : (profilesOf (entries.filter fun e => e.id ≠ id)).Sublist (profilesOf entries) :=
    List.filter_sublist.map _
  exact ⟨_, hstores', hdistinct.names.sublist (hsub.map _),
    fun profile hmem => hdistinct.patterns profile (hsub.subset hmem)⟩

theorem names_replace {profiles : List ImportedProfile} :
    Outline (namesDiscipline ι) c request (fun _ _ _ => True)
      (replaceConfiguration currentDir profiles) marks w := by
  refine Outline.replace fun _ w₂ _ db new _ _ hinv _ ⟨isDir, hvalidate⟩ hrun => ⟨?_, trivial⟩
  obtain ⟨entries, hstores, -⟩ := hinv
  have himported := (validateImport_eq_ok hvalidate).1
  obtain ⟨hstores', -⟩ := replaceTransaction_eq_ok hstores himported hrun
  refine ⟨_, hstores', ?_⟩
  rw [profilesOf_importedEntries]
  exact replaceTransaction_distinct hstores himported hrun

theorem names_updateSchedule {id : SyncProfileId} {schedule : Option ScheduleDefinition}
    {mode : ApplicationMode} {now : Int64} :
    Outline (namesDiscipline ι) c request (fun _ _ _ => True)
      (updateScheduleAt id schedule mode now) marks w := by
  refine Outline.updateSchedule fun _ w₂ _ _ accepted existing revision db new _ _ _ _ hinv₂ _
    _ hcheck hrevision hrun => ⟨?_, trivial⟩
  obtain ⟨entries, hstores, hdistinct⟩ := hinv₂
  obtain ⟨-, hstores', -⟩ :=
    scheduleTransaction_eq_ok hstores (checkSchedule_valid hcheck) hrevision hrun
  refine ⟨_, hstores', ?_⟩
  rw [profilesOf_modifyEntry]
  · exact hdistinct
  · exact fun _ => rfl

theorem names_claim {id : SyncProfileId} {now : Int64} :
    Outline (namesDiscipline ι) c request (fun _ _ _ => True)
      (claimDueSchedule id now) marks w := by
  refine Outline.claim (fun _ => trivial) (fun _ _ => trivial) (fun _ _ _ _ _ _ _ => trivial)
    (fun _ _ _ _ _ _ _ => trivial) fun w₁ w₂ moment existing schedule scheduledAt nextRun
      hfound hnext _ hinv₂ _ => ⟨fun _ _ => trivial, fun claimed db new hrun => ?_⟩
  obtain ⟨entries, hstores, -⟩ := hfound.inv
  obtain ⟨entries₂, hstores₂, hdistinct⟩ := hinv₂
  obtain ⟨_, -, hfind⟩ := hfound.found
  obtain ⟨e, he, -, -, -, rfl⟩ := findExisting_eq_ok hstores hfind
  have hvalid := (hstores.valid e he).schedule schedule hfound.schedule_eq
  have hnonneg := (hvalid.nextOccurrence hfound.scheduled hfound.due hnext).2
  obtain ⟨-, ⟨-, -, hprofiles, -⟩ | ⟨claim, e₂, schedule₂, -, -, hclaims⟩⟩ :=
    claimTransaction_eq_ok hstores₂ hnonneg hrun
  · exact ⟨⟨entries₂, hprofiles ▸ hstores₂, hdistinct⟩, trivial, trivial⟩
  · refine ⟨⟨_, hclaims.stores, ?_⟩, trivial, trivial⟩
    rw [profilesOf_modifyEntry]
    · exact hdistinct
    · exact fun _ => rfl

/-- Every call keeps the discipline. -/
theorem names_kept : (namesDiscipline ι).KeptByCalls currentDir c request where
  create _ _ _ := names_create
  update _ _ _ _ _ := names_update
  replace _ _ := names_replace
  schedule _ _ _ _ _ := names_updateSchedule
  remove _ _ := names_remove
  claim _ _ _ := names_claim
  poll _ _ _ := .poll fun _ _ _ => names_claim

end

theorem namesDiscipline_kept [DecidableEq ι] {currentDir : Option PathBuf} :
    (namesDiscipline ι).Kept (Request.body currentDir) (fun _ _ _ => True)
      (fun _ _ _ => True) where
  call _ request _ hinv := ⟨hinv, names_kept.body request⟩
  finish _ _ _ _ _ hinv _ := hinv
  rely_call _ _ _ _ := trivial
  rely_finish _ _ _ _ _ _ := trivial
  admits _ _ _ _ _ _ _ _ _ _ := trivial
  rely_step _ _ _ _ _ _ _ _ _ _ _ _ _ _ _ _ _ _ _ := trivial

/-- **Names and patterns are distinct** in every state that is reached. -/
theorem distinct_names [DecidableEq ι] {currentDir : Option PathBuf} {s : StoreSystem ι}
    (h : Reached (Request.body currentDir) (fun _ _ _ => True) Database.empty s) :
    ∃ entries, s.world.shared.profiles.Stores entries ∧ DistinctNames (profilesOf entries) :=
  (Reached.outline namesDiscipline_kept ⟨[], stores_empty, distinctNames_nil⟩ h).1

end SyncPlus
