import SyncPlus.SnapshotFrozen
import SyncPlus.StoreOutlines

/-!
# Endpoint pairs

No two profiles should synchronize the same pair of endpoints. Nothing in
the database says so: a call that creates or updates a profile lists all
profiles, looks for the pair, and writes in a transaction of its own.

The pairs stay unique as long as nobody stores a pair that another call
has looked for and is about to store (`endpoint_pairs_unique`). Two calls
that both look before either writes store the pair twice
(`endpoint_pairs_duplicated`).
-/

namespace SyncPlus

variable {ι : Type}

/-! ## Pairs of a table -/

section

variable (currentDir : Option PathBuf)

/-- A row of the identifier holds a profile of the pair. -/
def StoresPair (table : ProfileTable) (key : Int) (pair : PeerScope × PeerScope) : Prop :=
  ∃ row ∈ table.rows, row.profileId = key ∧
    ∃ profile, row.decode = .ok profile ∧ profile.endpoints currentDir = pair

/-- No two profiles of the table share their endpoints. -/
def EndpointsUnique (table : ProfileTable) : Prop :=
  ∀ row ∈ table.rows, ∀ row' ∈ table.rows, ∀ profile profile',
    row.decode = .ok profile → row'.decode = .ok profile' →
      profile.peerA.sameEndpoint currentDir profile'.peerA = true →
        profile.peerB.sameEndpoint currentDir profile'.peerB = true → row = row'

/-- No profile but the excluded one has the pair. -/
def PairFree (profile : SyncProfile) (excluded : Option SyncProfileId)
    (table : ProfileTable) : Prop :=
  ∀ key, StoresPair currentDir table key (profile.endpoints currentDir) →
    ∃ id, excluded = some id ∧ key = id.value.toNat

/-- The pairs that a step writes. -/
def StoreStep.Writes (label : StoreStep) (key : Int) (pair : PeerScope × PeerScope) : Prop :=
  match label with
  | .store profile id =>
      pair = profile.endpoints currentDir ∧ ∀ x, id = some x → key = x.value.toNat
  | .replace profiles => ∃ imported ∈ profiles, imported.profile.endpoints currentDir = pair
  | _ => False

/-- The step writes the pair that another call is about to store. Only two
updates of one profile may do that: the revision stops the later one. -/
def StoreStep.Overtakes (label : StoreStep) (profile : SyncProfile)
    (id : Option SyncProfileId) : Prop :=
  match label with
  | .store other otherId =>
      other.endpoints currentDir = profile.endpoints currentDir ∧
        ¬ ∃ x, otherId = some x ∧ id = some x
  | .replace profiles => ∃ imported ∈ profiles,
      imported.profile.endpoints currentDir = profile.endpoints currentDir
  | _ => False

/-- A step may be taken when it overtakes no call that has scanned for its pair
and is about to store it. -/
def NoOvertaking (s : StoreSystem ι) (c : ι) (_ : Moment) : Prop :=
  ∀ call label act next marks, s.running c = some ⟨call, .step label act next, marks⟩ →
    ∀ c', c' ≠ c → ∀ call' profile id act' next' marks',
      s.running c' = some ⟨call', .step (.store profile id) act' next', marks'⟩ →
        ¬ label.Overtakes currentDir profile id

/-! ## The discipline -/

/-- The pairs are looked at through the table alone. -/
def pairDiscipline (ι : Type) : StoreDiscipline ι where
  inv w := (∃ entries, w.shared.profiles.Stores entries) ∧
    ∀ key key' pair, StoresPair currentDir w.shared.profiles key pair →
      StoresPair currentDir w.shared.profiles key' pair → key = key'
  rely label w w' :=
    match label with
    | .store profile id => PairFree currentDir profile id w.shared.profiles →
        PairFree currentDir profile id w'.shared.profiles
    | _ => True
  admits _ _ _ _ _ := True
  guar label w w' := ∀ key pair, StoresPair currentDir w'.shared.profiles key pair →
    StoresPair currentDir w.shared.profiles key pair ∨ label.Writes currentDir key pair
  guar_refl _ _ := fun _ _ h => .inl h
  rely_refl label _ := by cases label <;> simp
  rely_trans {label} := by
    cases label <;> simp only [implies_true]
    intro w₁ w₂ w₃ h h' hfree
    exact h' (h hfree)

end

variable {currentDir : Option PathBuf}

theorem storesPair_iff {table : ProfileTable} {entries : List StoredProfile}
    (h : table.Stores entries) {key : Int} {pair : PeerScope × PeerScope} :
    StoresPair currentDir table key pair ↔
      ∃ e ∈ entries, (e.id.value.toNat : Int) = key ∧ e.profile.endpoints currentDir = pair := by
  constructor
  · rintro ⟨row, hrow, hkey, profile, hdecode, hpair⟩
    obtain ⟨e, he, rfl⟩ := h.mem_row.mp hrow
    rw [StoredProfile.decode_row (h.valid e he)] at hdecode
    cases hdecode
    exact ⟨e, he, hkey, hpair⟩
  · rintro ⟨e, he, hkey, hpair⟩
    exact ⟨e.row, h.mem_row.mpr ⟨e, he, rfl⟩, hkey, _, StoredProfile.decode_row (h.valid e he),
      hpair⟩

theorem endpointsUnique_of_pairs {table : ProfileTable} {entries : List StoredProfile}
    (h : table.Stores entries)
    (hunique : ∀ key key' pair, StoresPair currentDir table key pair →
      StoresPair currentDir table key' pair → key = key') :
    EndpointsUnique currentDir table := by
  intro row hrow row' hrow' profile profile' hdecode hdecode' hpeerA hpeerB
  have hid := hunique row.profileId row'.profileId _ ⟨row, hrow, rfl, profile, hdecode, rfl⟩
    ⟨row', hrow', rfl, profile', hdecode',
      (SyncProfile.endpoints_eq_iff.mpr ⟨hpeerA, hpeerB⟩).symm⟩
  obtain ⟨e, he, rfl⟩ := h.mem_row.mp hrow
  obtain ⟨e', he', rfl⟩ := h.mem_row.mp hrow'
  rw [h.entry_eq he he' (SyncProfileId.toNat_inj.mp hid)]

/-- A scan that found no profile of the pair. -/
theorem pairFree_of_clear {profile : SyncProfile} {excluded : Option SyncProfileId}
    {db : Database} {entries : List StoredProfile}
    (h : Outline.Clear currentDir profile excluded db)
    (hstores : db.profiles.Stores entries) :
    PairFree currentDir profile excluded db.profiles := by
  obtain ⟨isDir, listed, hlisted, hclear⟩ := h
  obtain ⟨rfl, -⟩ := (listProfiles_eq_ok hstores).mp hlisted
  intro key hpair
  obtain ⟨e, he, rfl, hsame⟩ := (storesPair_iff hstores).mp hpair
  by_contra hne
  refine hclear _ (List.mem_map_of_mem he) (fun hid => hne ⟨e.id, hid.symm, rfl⟩) ?_
  exact hsame

/-! ## The outlines -/

section

variable {c : ι} {request : Request} {w : StoreWorld ι} {marks : List Commit}

/-- A transaction that adds no pair. -/
theorem pairs_step {db : Database} {new : List Commit} {label : StoreStep}
    {entries' : List StoredProfile} (hinv : (pairDiscipline currentDir ι).inv w)
    (hstores : db.profiles.Stores entries')
    (hpairs : ∀ key pair, StoresPair currentDir db.profiles key pair →
      StoresPair currentDir w.shared.profiles key pair) :
    (pairDiscipline currentDir ι).inv (w.afterStep c (db, new)) ∧
      (pairDiscipline currentDir ι).guar label w (w.afterStep c (db, new)) :=
  ⟨⟨⟨entries', hstores⟩, fun _ _ _ h h' =>
    hinv.2 _ _ _ (hpairs _ _ h) (hpairs _ _ h')⟩, fun _ _ h => .inl (hpairs _ _ h)⟩

theorem pairs_create {profile : SyncProfile} {authorizations : AuthorizationSnapshot} :
    Outline (pairDiscipline currentDir ι) c request (fun _ _ _ => True)
      (createProfileWithAuthorizations currentDir profile authorizations) marks w := by
  refine Outline.create fun w₁ w₂ w₃ _ key db new _ _ hrely hinv₂ hinv₃ _ hstorable
    hauthorizations hclear hrun => ?_
  obtain ⟨⟨entries₂, hstores₂⟩, -⟩ := hinv₂
  obtain ⟨⟨entries, hstores⟩, hunique⟩ := hinv₃
  have hfree : PairFree currentDir profile none w₃.shared.profiles :=
    hrely (pairFree_of_clear hclear hstores₂)
  obtain ⟨id, -, -, hstores', -⟩ :=
    createTransaction_eq_ok hstores hstorable hauthorizations hrun
  have hcases : ∀ key pair, StoresPair currentDir db.profiles key pair →
      StoresPair currentDir w₃.shared.profiles key pair ∨
        (key = id.value.toNat ∧ profile.endpoints currentDir = pair) := by
    intro key pair hpair
    obtain ⟨e, he, hkey, hsame⟩ := (storesPair_iff hstores').mp hpair
    rcases List.mem_append.mp he with hold | hnew
    · exact .inl ((storesPair_iff hstores).mpr ⟨e, hold, hkey, hsame⟩)
    · obtain rfl := List.mem_singleton.mp hnew
      exact .inr ⟨hkey.symm, hsame⟩
  have hnone : ∀ key, ¬ StoresPair currentDir w₃.shared.profiles key
      (profile.endpoints currentDir) := by
    intro key hpair
    obtain ⟨_, h, -⟩ := hfree key hpair
    cases h
  refine ⟨⟨⟨_, hstores'⟩, fun key key' pair h h' => ?_⟩, fun key pair h => ?_⟩
  · rcases hcases key pair h with hold | ⟨rfl, rfl⟩ <;>
      rcases hcases key' _ h' with hold' | ⟨rfl, hsame⟩
    · exact hunique key key' pair hold hold'
    · exact absurd (hsame ▸ hold) (hnone key)
    · exact absurd hold' (hnone key')
    · rfl
  · rcases hcases key pair h with hold | ⟨-, rfl⟩
    · exact .inl hold
    · exact .inr ⟨rfl, by simp⟩

theorem pairs_update {id : SyncProfileId} {profile : SyncProfile}
    {authorizations : AuthorizationSnapshot} {expected : UInt64} :
    Outline (pairDiscipline currentDir ι) c request (fun _ _ _ => True)
      (updateProfileWithAuthorizationsIfRevision currentDir id profile authorizations expected)
      marks w := by
  refine Outline.updateIfRevision fun w₁ w₂ w₃ w₄ _ _ existing db new _ _ _ hrely _ hinv₃ hinv₄ _
    hstorable _ _ hclear hauthorizations hrun => ?_
  obtain ⟨⟨entries₃, hstores₃⟩, -⟩ := hinv₃
  obtain ⟨⟨entries, hstores⟩, hunique⟩ := hinv₄
  have hfree : PairFree currentDir profile (some id) w₄.shared.profiles :=
    hrely (pairFree_of_clear hclear hstores₃)
  obtain ⟨-, hstores', -⟩ := updateTransaction_eq_ok hstores hstorable hauthorizations hrun
  have hcases : ∀ key pair, StoresPair currentDir db.profiles key pair →
      StoresPair currentDir w₄.shared.profiles key pair ∨
        (key = id.value.toNat ∧ profile.endpoints currentDir = pair) := by
    intro key pair hpair
    obtain ⟨e, he, hkey, hsame⟩ := (storesPair_iff hstores').mp hpair
    obtain ⟨old, hold, rfl⟩ := mem_modifyEntry.mp he
    by_cases hid : old.id = id
    · rw [if_pos hid] at hkey hsame
      exact .inr ⟨hid ▸ hkey.symm, hsame⟩
    · rw [if_neg hid] at hkey hsame
      exact .inl ((storesPair_iff hstores).mpr ⟨old, hold, hkey, hsame⟩)
  have hown : ∀ key, StoresPair currentDir w₄.shared.profiles key
      (profile.endpoints currentDir) → key = id.value.toNat := by
    intro key hpair
    obtain ⟨x, hx, hkey⟩ := hfree key hpair
    cases hx
    exact hkey
  refine ⟨⟨⟨_, hstores'⟩, fun key key' pair h h' => ?_⟩, fun key pair h => ?_⟩
  · rcases hcases key pair h with hold | ⟨rfl, rfl⟩ <;>
      rcases hcases key' _ h' with hold' | ⟨rfl, hsame⟩
    · exact hunique key key' pair hold hold'
    · exact hown key (hsame ▸ hold)
    · exact (hown key' hold').symm
    · rfl
  · rcases hcases key pair h with hold | ⟨rfl, rfl⟩
    · exact .inl hold
    · exact .inr ⟨rfl, by simp⟩

theorem pairs_replace {profiles : List ImportedProfile} :
    Outline (pairDiscipline currentDir ι) c request (fun _ _ _ => True)
      (replaceConfiguration currentDir profiles) marks w := by
  refine Outline.replace fun w₁ w₂ _ db new _ _ hinv _ ⟨isDir, hvalidate⟩ hrun => ?_
  obtain ⟨⟨entries, hstores⟩, -⟩ := hinv
  obtain ⟨hall, hnodup, -⟩ := validateImport_eq_ok hvalidate
  obtain ⟨hstores', -⟩ := replaceTransaction_eq_ok hstores hall hrun
  refine ⟨⟨⟨_, hstores'⟩, fun key key' pair h h' => ?_⟩, fun key pair h => .inr ?_⟩
  · obtain ⟨e, he, rfl, hsame⟩ := (storesPair_iff hstores').mp h
    obtain ⟨e', he', rfl, hsame'⟩ := (storesPair_iff hstores').mp h'
    rw [← importedEntries_profile (w₂.shared.profiles.sequence + 1).toNat profiles] at hnodup
    rw [List.inj_on_of_nodup_map hnodup he he' (hsame.trans hsame'.symm)]
  · obtain ⟨e, he, -, hsame⟩ := (storesPair_iff hstores').mp h
    obtain ⟨imported, himported, hprofile, -⟩ := mem_importedEntries he
    exact ⟨imported, himported, hprofile ▸ hsame⟩

theorem pairs_modifyEntry {table table' : ProfileTable} {entries : List StoredProfile}
    {id : SyncProfileId} {g : StoredProfile → StoredProfile} (hstores : table.Stores entries)
    (hstores' : table'.Stores (modifyEntry entries id g))
    (hg : ∀ e, (g e).id = e.id ∧ (g e).profile = e.profile) (key : Int)
    (pair : PeerScope × PeerScope) (h : StoresPair currentDir table' key pair) :
    StoresPair currentDir table key pair := by
  obtain ⟨e, he, hkey, hsame⟩ := (storesPair_iff hstores').mp h
  obtain ⟨old, hold, rfl⟩ := mem_modifyEntry.mp he
  refine (storesPair_iff hstores).mpr ⟨old, hold, ?_, ?_⟩
  · rw [← hkey]
    split <;> simp [hg]
  · rw [← hsame]
    split <;> simp [hg]

theorem pairs_remove {id : SyncProfileId} :
    Outline (pairDiscipline currentDir ι) c request (fun _ _ _ => True) (removeProfile id)
      marks w := by
  refine Outline.remove fun w₁ _ _ db new _ hinv _ hrun => ?_
  obtain ⟨entries, hstores⟩ := hinv.1
  obtain ⟨hstores', -⟩ := removeTransaction_eq_ok hstores hrun
  refine pairs_step hinv hstores' fun key pair h => ?_
  obtain ⟨e, he, hpair⟩ := (storesPair_iff hstores').mp h
  exact (storesPair_iff hstores).mpr ⟨e, List.mem_of_mem_filter he, hpair⟩

theorem pairs_updateSchedule {id : SyncProfileId} {schedule : Option ScheduleDefinition}
    {mode : ApplicationMode} {now : Int64} :
    Outline (pairDiscipline currentDir ι) c request (fun _ _ _ => True)
      (updateScheduleAt id schedule mode now) marks w := by
  refine Outline.updateSchedule fun w₁ w₂ _ _ accepted existing revision db new _ _ _ _ hinv _ _
    hcheck hrevision hrun => ?_
  obtain ⟨entries, hstores⟩ := hinv.1
  obtain ⟨-, hstores', -⟩ := scheduleTransaction_eq_ok hstores (checkSchedule_valid hcheck) hrevision hrun
  exact pairs_step hinv hstores' (pairs_modifyEntry hstores hstores' fun _ => ⟨rfl, rfl⟩)

theorem pairs_claim {id : SyncProfileId} {now : Int64} :
    Outline (pairDiscipline currentDir ι) c request (fun _ _ _ => True)
      (claimDueSchedule id now) marks w := by
  refine Outline.claim (fun _ => trivial) (fun _ _ => trivial) (fun _ _ _ _ _ _ _ => trivial)
    (fun _ _ _ _ _ _ _ => trivial) fun w₁ w₂ moment existing schedule scheduledAt nextRun
      hfound hnext _ hinv₂ _ => ⟨fun _ _ => trivial, fun claimed db new hrun => ?_⟩
  obtain ⟨entries, hstores⟩ := hfound.inv.1
  obtain ⟨entries₂, hstores₂⟩ := hinv₂.1
  obtain ⟨_, -, hfind⟩ := hfound.found
  obtain ⟨e, he, -, -, -, rfl⟩ := findExisting_eq_ok hstores hfind
  have hvalid := (hstores.valid e he).schedule schedule hfound.schedule_eq
  have hnonneg := (hvalid.nextOccurrence hfound.scheduled hfound.due hnext).2
  obtain ⟨-, ⟨rfl, rfl, hprofiles, -⟩ | ⟨claim, e₂, schedule₂, rfl, rfl, hclaims⟩⟩ :=
    claimTransaction_eq_ok hstores₂ hnonneg hrun
  · obtain ⟨hinv', hguar⟩ := pairs_step hinv₂ (hprofiles ▸ hstores₂)
      fun key pair h => hprofiles ▸ h
    exact ⟨hinv', hguar, trivial⟩
  · obtain ⟨hinv', hguar⟩ := pairs_step hinv₂ hclaims.stores
      (pairs_modifyEntry hstores₂ hclaims.stores fun _ => ⟨rfl, rfl⟩)
    exact ⟨hinv', hguar, trivial⟩

/-- Every call keeps the discipline. -/
theorem pairs_kept : (pairDiscipline currentDir ι).KeptByCalls currentDir c request where
  create _ _ _ := pairs_create
  update _ _ _ _ _ := pairs_update
  replace _ _ := pairs_replace
  schedule _ _ _ _ _ := pairs_updateSchedule
  remove _ _ := pairs_remove
  claim _ _ _ := pairs_claim
  poll _ _ _ := .poll fun _ _ _ => pairs_claim

end

/-! ## Every run -/

/-- A pair that nobody has stays free over a step that does not overtake. -/
theorem pairFree_step {label : StoreStep} {profile : SyncProfile} {id : Option SyncProfileId}
    {table table' : ProfileTable} (hovertakes : ¬ label.Overtakes currentDir profile id)
    (hguar : ∀ key pair, StoresPair currentDir table' key pair →
      StoresPair currentDir table key pair ∨ label.Writes currentDir key pair)
    (hfree : PairFree currentDir profile id table) : PairFree currentDir profile id table' := by
  intro key hpair
  rcases hguar key _ hpair with hold | hwrites
  · exact hfree key hold
  · cases label with
    | store other otherId =>
        obtain ⟨hsame, hkey⟩ := hwrites
        by_cases hown : ∃ x, otherId = some x ∧ id = some x
        · obtain ⟨x, hother, hid⟩ := hown
          exact ⟨x, hid, hkey x hother⟩
        · exact absurd ⟨hsame.symm, hown⟩ hovertakes
    | replace profiles => exact absurd hwrites hovertakes
    | _ => exact hwrites.elim

theorem pairDiscipline_kept [DecidableEq ι] :
    (pairDiscipline currentDir ι).Kept (Request.body currentDir) (NoOvertaking currentDir)
      (fun _ _ _ => True) where
  call _ request _ hinv := ⟨hinv, pairs_kept.body request⟩
  finish _ _ _ _ _ hinv _ := hinv
  rely_call label c call w := (pairDiscipline currentDir ι).rely_refl label w
  rely_finish label c call marks r w := (pairDiscipline currentDir ι).rely_refl label w
  admits _ _ _ _ _ _ _ _ _ _ := trivial
  rely_step s c moment call label act next marks c' call' label' act' next' marks' hallowed
      hrunning hne hrunning' hguar := by
    cases label' with
    | store profile id =>
        exact pairFree_step
          (hallowed _ _ _ _ _ hrunning c' hne _ _ _ _ _ _ hrunning') hguar
    | _ => trivial

/-- **No two profiles share their endpoints**, as long as no step overtakes a
call that has scanned for its pair. -/
theorem endpoint_pairs_unique [DecidableEq ι] {s : StoreSystem ι}
    (h : Reached (Request.body currentDir) (NoOvertaking currentDir) Database.empty s) :
    EndpointsUnique currentDir s.world.shared.profiles := by
  have hempty : ∀ key pair, ¬ StoresPair currentDir ProfileTable.empty key pair := by
    rintro key pair ⟨row, hrow, -⟩
    cases hrow
  obtain ⟨⟨⟨entries, hstores⟩, hunique⟩, -⟩ := Reached.outline pairDiscipline_kept
    ⟨⟨[], stores_empty⟩, fun key _ pair hpair => absurd hpair (hempty key pair)⟩ h
  exact endpointsUnique_of_pairs hstores hunique

/-! ### Two connections that create a profile each -/

def pairProfile (name directory : String) : SyncProfile :=
  .new name ⟨"Laptop", .local (.ofText directory)⟩ ⟨"Server", .local (.ofText "/b")⟩

def pairEntry (id : UInt64) (name directory : String) : StoredProfile where
  id := ⟨id⟩
  profile := pairProfile name directory
  schedule := none
  authorizations := .default
  edits := 0

/-- The step stores no other profile than this. -/
def storesOnly (profile : SyncProfile) : StoreStep → Bool
  | .store other _ => other = profile
  | .replace _ => false
  | _ => true

/-- What a call that creates this profile does after its scan. -/
def createScanned (profile : SyncProfile) : StoreCall PersistedSyncProfile := do
  let id ← StoreCall.write (.store profile none) fun _ => createTransaction profile .default
  let id ← Procedure.ofExcept (orError (tryUnsigned 64 id)
    (.corruptEvidence "invalid profile identifier"))
  return {
    id := ⟨.ofNat id⟩, profile, scheduleEnabled := false, schedule := none, revision := 0,
    authorizations := .default }

def answerScanned (profile : SyncProfile) : StoreCall Answer := do
  return .profile (← createScanned profile)

/-- The first connection has looked and scanned, and waits to store. -/
theorem exists_scanned (allowed : StoreSystem Bool → Bool → Moment → Prop)
    (hallowed : ∀ s moment, (∀ c, c ≠ true → s.running c = none) → allowed s true moment) :
    ∃ s : StoreSystem Bool, Reached (Request.body none) allowed Database.empty s ∧
      s.running = Function.update (fun _ => none) true
        (some ⟨.createProfile (pairProfile "Documents" "/a"),
          answerScanned (pairProfile "Documents" "/a"), []⟩) ∧
      s.world = ⟨Database.empty, [.called true (.createProfile (pairProfile "Documents" "/a"))]⟩ := by
  have hcalled := Reached.call true (.createProfile (pairProfile "Documents" "/a"))
    (.start : Reached (Request.body none) allowed Database.empty _) rfl
  obtain ⟨s₁, hs₁, hrunning₁, hworld₁⟩ := hcalled.read (b := ())
    plainMachine.admitted (Function.update_self _ _ _) (Procedure.bind_assoc _ _ _)
    (hallowed _ _ fun c hc => Function.update_of_ne hc _ _) (by decide +kernel)
  have hauthorizations : validateAuthorizations (pairProfile "Documents" "/a") .default = .ok () :=
    by decide +kernel
  simp only [StoreCall.check, hauthorizations, Procedure.ofExcept_ok_bind,
    Function.update_idem] at hrunning₁
  have hwaits₁ := congrFun hrunning₁ true
  rw [Function.update_self] at hwaits₁
  obtain ⟨s₂, hs₂, hrunning₂, hworld₂⟩ := hs₁.read (b := ())
    plainMachine.admitted hwaits₁ (Procedure.bind_assoc _ _ _)
    (hallowed _ _ fun c hc => by
      rw [hrunning₁]
      exact Function.update_of_ne hc _ _)
    (by rw [hworld₁]; decide +kernel)
  refine ⟨s₂, hs₂, ?_, hworld₂.trans hworld₁⟩
  rw [hrunning₂, hrunning₁, Function.update_idem]
  rfl

/-- A connection that is alone overtakes nothing. -/
theorem noOvertaking_alone {s : StoreSystem ι} {c : ι} {moment : Moment}
    (h : ∀ c', c' ≠ c → s.running c' = none) : NoOvertaking currentDir s c moment := by
  intro _ _ _ _ _ _ c' hc' _ _ _ _ _ _ hrunning
  rw [h c' hc'] at hrunning
  cases hrunning

/-- Two connections that create different pairs keep them apart, though the first has
scanned when the second creates its own. -/
theorem endpoint_pairs_apart :
    ∃ s : StoreSystem Bool, s.world.shared.profiles.rows =
        [(pairEntry 1 "Pictures" "/c").row, (pairEntry 2 "Documents" "/a").row] ∧
      EndpointsUnique none s.world.shared.profiles := by
  obtain ⟨s₂, hs₂, hrunning₂, hworld₂⟩ :=
    exists_scanned (NoOvertaking none) fun _ _ => noOvertaking_alone
  have hwaits₂ : s₂.running true = some ⟨.createProfile (pairProfile "Documents" "/a"),
      answerScanned (pairProfile "Documents" "/a"), []⟩ := by
    rw [hrunning₂, Function.update_self]
  -- the second connection creates another pair
  have hcalled₂ := Reached.call false (.createProfile (pairProfile "Pictures" "/c")) hs₂
    (by rw [hrunning₂]; simp)
  obtain ⟨s₃, hs₃, hrunning₃, hworld₃⟩ := hcalled₂.finishPassing plainMachine.admitted
    (fun label _ => storesOnly (pairProfile "Pictures" "/c") label) (Function.update_self _ _ _)
    (by rw [World.afterCall_shared, hworld₂]; decide +kernel)
    (by
      intro s' label act next marks hothers hrunning hstores _ _ _ _ _ hrunning' c' hc'
        _ profile id _ _ _ hwaits hovertakes
      obtain rfl : c' = true := by simpa using hc'
      have htrue : s'.running true = s₂.running true := by
        rw [hothers true hc']
        simp
      rw [htrue, hwaits₂] at hwaits
      rw [hrunning] at hrunning'
      cases hwaits
      cases hrunning'
      cases label with
      | store other otherId =>
          obtain rfl := of_decide_eq_true hstores
          exact absurd hovertakes.1 (by decide +kernel)
      | replace profiles => cases hstores
      | _ => exact hovertakes)
  -- the first connection stores its own
  obtain ⟨s₄, hs₄, -, hworld₄⟩ := hs₃.finishPassing (c := true) plainMachine.admitted
    (fun _ _ => true)
    (by rw [hrunning₃, Function.update_idem, Function.update_of_ne (by decide), hwaits₂])
    (Procedure.passes_true _ _ _ _)
    fun s' _ _ _ _ hothers _ _ => noOvertaking_alone fun c hc => by
      obtain rfl : c = false := by simpa using hc
      rw [hothers false hc, hrunning₃, Function.update_self]
  refine ⟨s₄, ?_, endpoint_pairs_unique hs₄⟩
  rw [hworld₄, hworld₃]
  dsimp only
  rw [hworld₂]
  decide +kernel

/-- Two connections that both scan before either stores do not. -/
theorem endpoint_pairs_duplicated :
    ¬ ∀ (currentDir : Option PathBuf) (s : StoreSystem Bool),
      Reached (Request.body currentDir) (fun _ _ _ => True) Database.empty s →
        EndpointsUnique currentDir s.world.shared.profiles := by
  intro h
  obtain ⟨s₂, hs₂, hrunning₂, hworld₂⟩ :=
    exists_scanned (fun _ _ _ => True) fun _ _ _ => trivial
  -- the second connection creates the pair
  obtain ⟨s₃, hs₃, hrunning₃, hworld₃⟩ := Reached.alone false
    (.createProfile (pairProfile "Copy" "/a")) plainMachine.admitted hs₂
    (by rw [hrunning₂]; simp) (fun _ _ _ _ => trivial)
  -- the first connection stores it
  obtain ⟨s₄, hs₄, -, hworld₄⟩ := hs₃.finishAlone (c := true) plainMachine.admitted
    (by rw [hrunning₃, hrunning₂, Function.update_self]) (fun _ _ _ _ => trivial)
  have hfirst : (pairEntry 1 "Copy" "/a").row ∈ s₄.world.shared.profiles.rows := by
    rw [hworld₄, hworld₃, hworld₂]
    decide +kernel
  have hsecond : (pairEntry 2 "Documents" "/a").row ∈ s₄.world.shared.profiles.rows := by
    rw [hworld₄, hworld₃, hworld₂]
    decide +kernel
  have heq := h none s₄ hs₄ _ hfirst _ hsecond (pairProfile "Copy" "/a")
    (pairProfile "Documents" "/a") (by decide +kernel) (by decide +kernel) (by decide +kernel)
    (by decide +kernel)
  revert heq
  decide +kernel

end SyncPlus
