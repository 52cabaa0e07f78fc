import SyncPlus.ScheduleClaims

/-!
# Schedules that can run

A schedule that is enabled has a next run and an interval, and its profile
can be run: with Safe Delete on, it has a deletion method. The last is
checked when the schedule is edited, against the profile as it is then, and
by no other call. So the schedules stay runnable as long as no profile is
updated to Safe Delete without a method while its schedule is enabled
(`enabled_schedules_runnable`), and one such update is enough to break it
(`enabled_schedule_stuck`).
-/

namespace SyncPlus

variable {ι : Type}

/-! ## Runnable rows -/

/-- Safe Delete comes with a deletion method. -/
def SyncOptions.MethodChosen (options : SyncOptions) : Prop :=
  options.safeDelete = true → options.deletionMethod.isSome = true

instance (options : SyncOptions) : Decidable options.MethodChosen :=
  inferInstanceAs (Decidable (_ → _))

/-- A profile whose schedule is enabled has a next run, an interval and, when
it needs one, a deletion method. -/
def ProfileRow.Runnable (row : ProfileRow) : Prop :=
  row.scheduleEnabled = 1 → ∃ schedule, row.schedule = some schedule ∧ schedule.enabled = 1 ∧
    0 < schedule.intervalMinutes ∧ schedule.nextRunAtUnixSeconds.isSome = true ∧
    ∀ profile, row.decode = .ok profile → profile.options.MethodChosen

/-- Every enabled schedule of the table is runnable. -/
def SchedulesRunnable (table : ProfileTable) : Prop := ∀ row ∈ table.rows, row.Runnable

/-- What a record with an enabled schedule has. -/
def StoredProfile.Runnable (e : StoredProfile) : Prop :=
  ∀ schedule, e.schedule = some schedule → schedule.enabled = true →
    schedule.nextRunAtUnixSeconds.isSome = true ∧ e.profile.options.MethodChosen

theorem StoredProfile.runnable_row {e : StoredProfile} (hvalid : e.Valid) (h : e.Runnable) :
    e.row.Runnable := by
  intro henabled
  cases hschedule : e.schedule with
  | none => simp [row, hschedule, isScheduleEnabled, boolColumn] at henabled
  | some schedule =>
      have hon : schedule.enabled = true := by
        cases hon : schedule.enabled with
        | true => rfl
        | false => simp [row, hschedule, isScheduleEnabled, hon, boolColumn] at henabled
      obtain ⟨hnext, hchosen⟩ := h schedule hschedule hon
      have hone := UInt32.le_iff_toNat_le.mp (hvalid.schedule schedule hschedule).interval.1
      have hone : 1 ≤ schedule.intervalMinutes.toNat := hone
      refine ⟨.ofSchedule schedule, by simp [row, hschedule], ?_, ?_, ?_, ?_⟩
      · simp [ScheduleRow.ofSchedule, hon, boolColumn]
      · simp only [ScheduleRow.ofSchedule]
        omega
      · simpa [ScheduleRow.ofSchedule] using hnext
      · intro profile hdecode
        rw [decode_row hvalid] at hdecode
        cases hdecode
        exact hchosen

theorem schedulesRunnable_of_entries {table : ProfileTable} {entries : List StoredProfile}
    (h : table.Stores entries) (hall : ∀ e ∈ entries, e.Runnable) : SchedulesRunnable table := by
  intro row hrow
  obtain ⟨e, he, rfl⟩ := h.mem_row.mp hrow
  exact StoredProfile.runnable_row (h.valid e he) (hall e he)

/-- The next step of the connection does not store a profile with Safe Delete
and without a method over one whose schedule is enabled. -/
def MethodsChosen (s : StoreSystem ι) (c : ι) (_ : Moment) : Prop :=
  ∀ call profile id act next marks,
    s.running c = some ⟨call, .step (.store profile (some id)) act next, marks⟩ →
      ¬ profile.options.MethodChosen →
        ∀ row ∈ s.world.shared.profiles.rows, row.profileId = id.value.toNat →
          row.scheduleEnabled ≠ 1

/-! ## The outlines -/

/-- The step stores no such profile over an enabled schedule. -/
def StoreStep.KeepsMethod (label : StoreStep) (table : ProfileTable) : Prop :=
  match label with
  | .store profile (some id) => ¬ profile.options.MethodChosen →
      ∀ row ∈ table.rows, row.profileId = id.value.toNat → row.scheduleEnabled ≠ 1
  | _ => True

def runnableDiscipline (ι : Type) : StoreDiscipline ι where
  inv w := ∃ entries, w.shared.profiles.Stores entries ∧ ∀ e ∈ entries, e.Runnable
  rely _ w w' := w.shared.profiles.Advances w'.shared.profiles
  admits _ _ label _ w := label.KeepsMethod w.shared.profiles
  guar _ w w' := w.shared.profiles.Advances w'.shared.profiles
  guar_refl := StoreWorld.advances_refl
  rely_refl := StoreWorld.advances_refl
  rely_trans := @StoreWorld.advances_trans ι

section

variable {currentDir : Option PathBuf} {c : ι} {request : Request} {w : StoreWorld ι}
  {marks : List Commit}

/-- A time is found for every schedule that is enabled. -/
theorem withDefaultNextRun_next {schedule accepted : Option ScheduleDefinition} {now : Int64}
    (h : schedule.mapM (withDefaultNextRun now) = .ok accepted) {s : ScheduleDefinition}
    (hs : accepted = some s) (henabled : s.enabled = true) :
    s.nextRunAtUnixSeconds.isSome = true := by
  subst hs
  cases schedule with
  | none => cases h
  | some given =>
      obtain ⟨s', hs', h⟩ := bind_eq_ok.mp h
      cases h
      unfold withDefaultNextRun at hs'
      split at hs'
      · obtain ⟨interval, -, hs'⟩ := bind_eq_ok.mp hs'
        obtain ⟨next, -, hs'⟩ := bind_eq_ok.mp hs'
        cases hs'
        rfl
      · rename_i hgiven
        cases hs'
        cases hnext : s.nextRunAtUnixSeconds with
        | none => exact absurd ⟨henabled, hnext⟩ hgiven
        | some next => rfl

/-- Records of one version have one choice of method. -/
theorem methodChosen_of_version {e e' : StoredProfile} (hvalid : e.Valid) (hvalid' : e'.Valid)
    (h : e.row.version = e'.row.version) :
    e.profile.options.MethodChosen ↔ e'.profile.options.MethodChosen := by
  have hdecode : e.row.version.decode = e'.row.version.decode := by rw [h]
  have hprofile : e.profile.stored = e'.profile.stored := by
    have heq : e.row.decode = e'.row.decode := hdecode
    rw [StoredProfile.decode_row hvalid, StoredProfile.decode_row hvalid'] at heq
    exact Except.ok.inj heq
  have hchosen : e.profile.stored.options.MethodChosen ↔
      e'.profile.stored.options.MethodChosen := by rw [hprofile]
  exact hchosen

theorem runnable_create {profile : SyncProfile} {authorizations : AuthorizationSnapshot} :
    Outline (runnableDiscipline ι) c request (fun _ _ _ => True)
      (createProfileWithAuthorizations currentDir profile authorizations) marks w := by
  refine Outline.create fun w₁ w₂ w₃ _ key db new _ _ _ _ hinv₃ _ hstorable hauthorizations _
    hrun => ?_
  obtain ⟨entries, hstores, hall⟩ := hinv₃
  obtain ⟨id, -, -, hstores', hadvances, -⟩ :=
    createTransaction_eq_ok hstores hstorable hauthorizations hrun
  refine ⟨⟨_, hstores', fun e he => ?_⟩, hadvances⟩
  rcases List.mem_append.mp he with hold | hlast
  · exact hall e hold
  · obtain rfl := List.mem_singleton.mp hlast
    exact nofun

theorem runnable_update {id : SyncProfileId} {profile : SyncProfile}
    {authorizations : AuthorizationSnapshot} {expected : UInt64} :
    Outline (runnableDiscipline ι) c request (fun _ _ _ => True)
      (updateProfileWithAuthorizationsIfRevision currentDir id profile authorizations expected)
      marks w := by
  refine Outline.updateIfRevision fun w₁ w₂ w₃ w₄ _ _ existing db new _ _ _ _ _ _ hinv₄ hadmits
    hstorable _ _ _ hauthorizations hrun => ?_
  obtain ⟨entries, hstores, hall⟩ := hinv₄
  obtain ⟨-, hstores', hadvances, -⟩ :=
    updateTransaction_eq_ok hstores hstorable hauthorizations hrun
  refine ⟨⟨_, hstores', fun e he => ?_⟩, hadvances⟩
  obtain ⟨old, hold, rfl⟩ := mem_modifyEntry.mp he
  split
  · rename_i hid
    intro schedule hschedule henabled
    obtain ⟨hnext, -⟩ := hall old hold schedule hschedule henabled
    refine ⟨hnext, ?_⟩
    -- the schedule of the record that is replaced is enabled
    by_contra hchosen
    refine hadmits hchosen old.row (hstores.mem_row.mpr ⟨old, hold, rfl⟩) ?_ ?_
    · rw [StoredProfile.row_profileId, hid]
    · have hschedule : old.schedule = some schedule := hschedule
      simp [StoredProfile.row, hschedule, isScheduleEnabled, henabled, boolColumn]
  · exact hall old hold

theorem runnable_remove {id : SyncProfileId} :
    Outline (runnableDiscipline ι) c request (fun _ _ _ => True) (removeProfile id) marks w := by
  refine Outline.remove fun w₁ _ _ db new _ hinv _ hrun => ?_
  obtain ⟨entries, hstores, hall⟩ := hinv
  obtain ⟨hstores', hadvances, -⟩ := removeTransaction_eq_ok hstores hrun
  exact ⟨⟨_, hstores', fun e he => hall e (List.mem_of_mem_filter he)⟩, hadvances⟩

theorem disabled_importedEntries {first : Nat} {profiles : List ImportedProfile}
    (h : ∀ imported ∈ profiles, imported.Storable) {e : StoredProfile}
    (he : e ∈ importedEntries first profiles) : e.Runnable := by
  induction profiles generalizing first with
  | nil => cases he
  | cons imported rest ih =>
      obtain ⟨himported, hrest⟩ := List.forall_mem_cons.mp h
      rcases List.mem_cons.mp he with rfl | he
      · intro schedule hschedule henabled
        have hdisabled := (himported.schedule schedule hschedule).2
        rw [henabled] at hdisabled
        cases hdisabled
      · exact ih hrest he

theorem runnable_replace {profiles : List ImportedProfile} :
    Outline (runnableDiscipline ι) c request (fun _ _ _ => True)
      (replaceConfiguration currentDir profiles) marks w := by
  refine Outline.replace fun w₁ w₂ _ db new _ _ hinv _ ⟨isDir, hvalidate⟩ hrun => ?_
  obtain ⟨entries, hstores, -⟩ := hinv
  have himported := (validateImport_eq_ok hvalidate).1
  obtain ⟨hstores', -, hadvances, -⟩ := replaceTransaction_eq_ok hstores himported hrun
  exact ⟨⟨_, hstores', fun e he => disabled_importedEntries himported he⟩, hadvances⟩

theorem runnable_updateSchedule {id : SyncProfileId} {schedule : Option ScheduleDefinition}
    {mode : ApplicationMode} {now : Int64} :
    Outline (runnableDiscipline ι) c request (fun _ _ _ => True)
      (updateScheduleAt id schedule mode now) marks w := by
  refine Outline.updateSchedule fun w₁ w₂ _ _ accepted existing revision db new _ hinv₁ hfind
    hrely₂ hinv₂ _ haccepted hcheck hrevision hrun => ?_
  obtain ⟨entries₁, hstores₁, -⟩ := hinv₁
  obtain ⟨entries₂, hstores₂, hall₂⟩ := hinv₂
  obtain ⟨e₁, he₁, hid₁, hedits₁, -, rfl⟩ := findExisting_eq_ok hstores₁ hfind
  obtain ⟨⟨e₂, he₂, hid₂, hedits₂⟩, hstores', hadvances, -⟩ :=
    scheduleTransaction_eq_ok hstores₂ (checkSchedule_valid hcheck) hrevision hrun
  -- the revision says that the profile is the one that was checked
  have hversion : e₁.row.version = e₂.row.version := by
    refine hstores₂.version_eq ((hstores₁.seen he₁).advances hrely₂) he₂ ?_ ?_
    · rw [StoredProfile.row_profileId, hid₁, hid₂]
    · have hrevision : e₁.kept.persisted.revision.toNat = e₁.edits :=
        Nat.mod_eq_of_lt (by omega : e₁.edits < 2 ^ 64)
      rw [StoredProfile.row_profileRevision, hedits₂, hrevision]
  have hchosen : ∀ s, accepted = some s → s.enabled = true →
      e₂.profile.options.MethodChosen := by
    rintro s rfl henabled
    obtain ⟨-, hcheck⟩ := unit_bind_eq_ok.mp hcheck
    obtain ⟨-, hcheck⟩ := ensure_bind_eq_ok.mp hcheck
    have hmethod := ensure_eq_ok.mp hcheck henabled
    exact (methodChosen_of_version (hstores₁.valid e₁ he₁) (hstores₂.valid e₂ he₂)
      hversion).mp hmethod
  refine ⟨⟨_, hstores', fun e he => ?_⟩, hadvances⟩
  obtain ⟨old, hold, rfl⟩ := mem_modifyEntry.mp he
  split
  · rename_i hid
    intro s hs henabled
    obtain rfl := hstores₂.entry_eq hold he₂ (hid.trans hid₂.symm)
    exact ⟨withDefaultNextRun_next haccepted hs henabled, hchosen s hs henabled⟩
  · exact hall₂ old hold

theorem runnable_claim {id : SyncProfileId} {now : Int64} :
    Outline (runnableDiscipline ι) c request (fun _ _ _ => True)
      (claimDueSchedule id now) marks w := by
  refine Outline.claim (fun _ => trivial) (fun _ _ => trivial) (fun _ _ _ _ _ _ _ => trivial)
    (fun _ _ _ _ _ _ _ => trivial) fun w₁ w₂ moment existing schedule scheduledAt nextRun
      hfound hnext _ hinv₂ _ => ⟨fun _ _ => trivial, fun claimed db new hrun => ?_⟩
  obtain ⟨entries, hstores, -⟩ := hfound.inv
  obtain ⟨entries₂, hstores₂, hall₂⟩ := hinv₂
  obtain ⟨_, -, hfind⟩ := hfound.found
  obtain ⟨e, he, -, -, -, rfl⟩ := findExisting_eq_ok hstores hfind
  have hvalid := (hstores.valid e he).schedule schedule hfound.schedule_eq
  have hnonneg := (hvalid.nextOccurrence hfound.scheduled hfound.due hnext).2
  obtain ⟨hadvances, ⟨rfl, rfl, hprofiles, -⟩ | ⟨claim, e₂, schedule₂, rfl, rfl, hclaims⟩⟩ :=
    claimTransaction_eq_ok hstores₂ hnonneg hrun
  · exact ⟨⟨entries₂, hprofiles ▸ hstores₂, hall₂⟩, hadvances, trivial⟩
  · refine ⟨⟨_, hclaims.stores, fun e he => ?_⟩, hadvances, trivial⟩
    obtain ⟨old, hold, rfl⟩ := mem_modifyEntry.mp he
    split
    · intro s hs henabled
      obtain ⟨before, hbefore, rfl⟩ := Option.map_eq_some_iff.mp hs
      exact ⟨rfl, (hall₂ old hold before hbefore henabled).2⟩
    · exact hall₂ old hold

/-- Every call keeps the discipline. -/
theorem runnable_kept : (runnableDiscipline ι).KeptByCalls currentDir c request where
  create _ _ _ := runnable_create
  update _ _ _ _ _ := runnable_update
  replace _ _ := runnable_replace
  schedule _ _ _ _ _ := runnable_updateSchedule
  remove _ _ := runnable_remove
  claim _ _ _ := runnable_claim
  poll _ _ _ := .poll fun _ _ _ => runnable_claim

end

/-! ## Every run -/

theorem runnableDiscipline_kept [DecidableEq ι] {currentDir : Option PathBuf} :
    (runnableDiscipline ι).Kept (Request.body currentDir) MethodsChosen
      (fun _ _ _ => True) where
  call _ request _ hinv := ⟨hinv, runnable_kept.body request⟩
  finish _ _ _ _ _ hinv _ := hinv
  rely_call _ _ _ _ := ProfileTable.advances_refl _
  rely_finish _ _ _ _ _ _ := ProfileTable.advances_refl _
  admits s c moment call label act next marks hallowed hrunning := by
    cases label with
    | store profile id =>
        cases id with
        | none => trivial
        | some id => exact hallowed _ _ _ _ _ _ hrunning
    | _ => trivial
  rely_step _ _ _ _ _ _ _ _ _ _ _ _ _ _ _ _ _ _ hguar := hguar

/-- **Enabled schedules are runnable**, as long as no profile is updated to Safe
Delete without a method while its schedule is enabled. -/
theorem enabled_schedules_runnable [DecidableEq ι] {currentDir : Option PathBuf}
    {s : StoreSystem ι} (h : Reached (Request.body currentDir) MethodsChosen Database.empty s) :
    SchedulesRunnable s.world.shared.profiles := by
  obtain ⟨⟨entries, hstores, hall⟩, -⟩ := Reached.outline runnableDiscipline_kept
    ⟨[], stores_empty, by simp⟩ h
  exact schedulesRunnable_of_entries hstores hall

/-- The condition leaves nothing out: an update of that kind that is stored leaves
a schedule that cannot run. -/
theorem updateTransaction_stuck {db db' : Database} {entries : List StoredProfile}
    {id : SyncProfileId} {profile : SyncProfile} {authorizations : AuthorizationSnapshot}
    {expected : UInt64} {marks : List Commit} (hstores : db.profiles.Stores entries)
    (hstorable : profile.Storable)
    (hauthorizations : validateAuthorizations profile authorizations = .ok ())
    (hrun : updateTransaction id profile authorizations expected db = .ok ((), db', marks))
    (hunchosen : ¬ profile.options.MethodChosen)
    (henabled : ∃ row ∈ db.profiles.rows, row.profileId = id.value.toNat ∧
      row.scheduleEnabled = 1) :
    ¬ SchedulesRunnable db'.profiles := by
  obtain ⟨-, hstores', -⟩ := updateTransaction_eq_ok hstores hstorable hauthorizations hrun
  obtain ⟨row, hrow, hid, henabled⟩ := henabled
  obtain ⟨e, he, rfl⟩ := hstores.mem_row.mp hrow
  have hid : e.id = id := SyncProfileId.toNat_inj.mp hid
  have hmem : { e with profile, authorizations, edits := e.edits + 1 } ∈
      modifyEntry entries id fun e => { e with profile, authorizations, edits := e.edits + 1 } :=
    mem_modifyEntry.mpr ⟨e, he, by rw [if_pos hid]⟩
  intro hrunnable
  obtain ⟨schedule, -, -, -, -, hchosen⟩ :=
    hrunnable _ (hstores'.mem_row.mpr ⟨_, hmem, rfl⟩) henabled
  have hstored := hchosen _ (StoredProfile.decode_row (hstores'.valid _ hmem))
  exact hunchosen hstored

/-! ### A profile that is edited after it was scheduled -/

/-- The requests, answered one after another, take steps that are asked for
only. -/
def passesAll (ok : StoreStep → List Commit → Bool) : List Request → Database → Bool
  | [], _ => true
  | request :: rest, db => (request.body none).passes plainMachine.admitted ok [] db &&
      passesAll ok rest ((request.body none).run plainMachine.admitted db).2.1

theorem reached_answerPassing {allowed : StoreSystem Unit → Unit → Moment → Prop}
    (ok : StoreStep → List Commit → Bool) (requests : List Request) {s : StoreSystem Unit}
    (h : Reached (Request.body none) allowed Database.empty s)
    (hidle : s.running = fun _ => none) (hpasses : passesAll ok requests s.world.shared = true)
    (hallowed : ∀ s' request label act next marks,
      s'.running () = some ⟨request, .step label act next, marks⟩ → ok label marks = true →
        allowed s' () plainMachine.admitted) :
    ∃ s', Reached (Request.body none) allowed Database.empty s' ∧
      s'.running = (fun _ => none) ∧ s'.world.shared = answerAll requests s.world.shared := by
  induction requests generalizing s with
  | nil => exact ⟨s, h, hidle, rfl⟩
  | cons request rest ih =>
      obtain ⟨hfirst, hrest⟩ := Bool.and_eq_true_iff.mp hpasses
      have hcalled := Reached.call () request h (by rw [hidle])
      have hwaits : Function.update s.running () (some ⟨request, request.body none, []⟩) () =
          some ⟨request, request.body none, []⟩ := by simp
      obtain ⟨s₁, hs₁, hidle₁, hworld₁⟩ := hcalled.finishPassing (c := ()) plainMachine.admitted ok
        hwaits hfirst fun s' label act next marks _ => hallowed s' request label act next marks
      have hidle₁ : s₁.running = fun _ => none := by
        rw [hidle₁, Function.update_idem]
        funext u
        rw [Function.update_self]
      have hshared₁ : s₁.world.shared =
          ((request.body none).run plainMachine.admitted s.world.shared).2.1 := by
        rw [hworld₁]
        rfl
      obtain ⟨s₂, hs₂, hidle₂, hshared₂⟩ := ih hs₁ hidle₁ (by rw [hshared₁]; exact hrest)
      refine ⟨s₂, hs₂, hidle₂, ?_⟩
      rw [hshared₂, hshared₁]
      rfl

def chosenStep (label : StoreStep) (_ : List Commit) : Bool :=
  match label with
  | .store profile (some _) => profile.options.MethodChosen
  | _ => true

theorem methodsChosen_of_chosenStep {s : StoreSystem Unit} {request : Request}
    {label : StoreStep} {act : Moment → Database → Database × List Commit}
    {next : Moment → Database → StoreCall Answer} {marks : List Commit}
    (h : s.running () = some ⟨request, .step label act next, marks⟩)
    (hok : chosenStep label marks = true) : MethodsChosen s () plainMachine.admitted := by
  intro call profile id act' next' marks' h' hunchosen
  rw [h] at h'
  cases h'
  exact absurd (of_decide_eq_true hok) hunchosen

/-- The profile with Safe Delete, with or without a method. -/
def drainedProfile (deletionMethod : Option DeletionMethod) : SyncProfile :=
  let profile := plannedProfile "Documents" true
  { profile with options := { profile.options with deletionMethod } }

/-- Schedule a profile and edit it then. -/
def planAndEdit (deletionMethod : Option DeletionMethod) : List Request :=
  plan ⟨1⟩ "Documents" ++ [.updateProfile ⟨1⟩ (drainedProfile deletionMethod)]

/-- Edited to Safe Delete with a method, the schedule stays runnable. -/
theorem enabled_schedules_runnable_one :
    ∃ s : StoreSystem Unit,
      (s.world.shared.profiles.rows.any fun row =>
        row.scheduleEnabled = 1 ∧ row.options.safeDelete = 1) = true ∧
        SchedulesRunnable s.world.shared.profiles := by
  obtain ⟨s, hs, -, hshared⟩ := reached_answerPassing chosenStep (planAndEdit (some .trash))
    (.start : Reached (Request.body none) MethodsChosen Database.empty _) rfl
    (by decide +kernel) fun _ _ _ _ _ _ => methodsChosen_of_chosenStep
  refine ⟨s, ?_, enabled_schedules_runnable hs⟩
  rw [hshared]
  decide +kernel

/-- Edited to Safe Delete without one, it is not. -/
theorem enabled_schedule_stuck :
    ¬ ∀ (currentDir : Option PathBuf) (s : StoreSystem Unit),
      Reached (Request.body currentDir) (fun _ _ _ => True) Database.empty s →
        SchedulesRunnable s.world.shared.profiles := by
  intro h
  obtain ⟨s, hs, -, hshared⟩ := reached_answerAll (planAndEdit none)
    (.start : Reached (Request.body none) (fun _ _ _ => True) Database.empty _) rfl
    (fun _ _ _ _ _ _ => trivial)
  have hrunnable := h none s hs
  rw [hshared] at hrunnable
  have hrows : ∃ row ∈ (answerAll (planAndEdit none) .empty).profiles.rows,
      row.scheduleEnabled = 1 ∧ row.decode = .ok (drainedProfile none) := by
    have hfound : ((answerAll (planAndEdit none) .empty).profiles.rows.any fun row =>
        row.scheduleEnabled = 1 ∧ row.decode = .ok (drainedProfile none)) = true := by
      decide +kernel
    obtain ⟨row, hrow, hmatch⟩ := List.any_eq_true.mp hfound
    exact ⟨row, hrow, of_decide_eq_true hmatch⟩
  obtain ⟨row, hrow, henabled, hdecode⟩ := hrows
  obtain ⟨schedule, -, -, -, -, hchosen⟩ := hrunnable row hrow henabled
  have hmethod := hchosen _ hdecode
  revert hmethod
  decide +kernel

end SyncPlus
