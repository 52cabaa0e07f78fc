import SyncPlus.TableTransactions

/-!
# Outlines of store calls

The rules of proof outlines for the steps that store calls are made of,
and what a connection may assume of a profile it has loaded.
-/

namespace SyncPlus

abbrev StoreWorld (ι : Type) := World ι Request Database Commit StorageError Answer

abbrev StoreSystem (ι : Type) :=
  System ι Moment Request Database StoreStep Commit StorageError Answer

abbrev StoreDiscipline (ι : Type) :=
  Discipline ι Moment Request Database StoreStep Commit StorageError Answer

/-! ## Worlds whose profiles advance -/

namespace StoreWorld

variable {ι : Type}

theorem advances_refl (_ : StoreStep) (w : StoreWorld ι) :
    w.shared.profiles.Advances w.shared.profiles :=
  ProfileTable.advances_refl _

theorem advances_trans {_ : StoreStep} {w₁ w₂ w₃ : StoreWorld ι}
    (h : w₁.shared.profiles.Advances w₂.shared.profiles)
    (h' : w₂.shared.profiles.Advances w₃.shared.profiles) :
    w₁.shared.profiles.Advances w₃.shared.profiles :=
  h.trans h'

end StoreWorld

/-! ## The steps of calls -/

/-- Loading a profile that has to be there, as one transaction. -/
def findExisting (moment : Moment) (id : SyncProfileId) (db : Database) :
    Except StorageError PersistedSyncProfile := do
  moment.begin
  let found ← db.profiles.loadProfile moment.isDir id
  orError found (.profileNotFound id)

theorem findExisting_eq_ok {moment : Moment} {id : SyncProfileId} {db : Database}
    {entries : List StoredProfile} {existing : PersistedSyncProfile}
    (h : db.profiles.Stores entries) (hfind : findExisting moment id db = .ok existing) :
    ∃ e ∈ entries, e.id = id ∧ e.edits < 2 ^ 63 ∧
      (processDestinationRoot moment.isDir e.profile).isEmpty = false ∧
      existing = e.kept.persisted := by
  unfold findExisting at hfind
  obtain ⟨-, hfind⟩ := unit_bind_eq_ok.mp hfind
  obtain ⟨found, hload, hfound⟩ := bind_eq_ok.mp hfind
  obtain ⟨-, rfl | ⟨e, he, hid, hedits, hdestination, rfl⟩⟩ := loadProfile_eq_ok h hload
  · cases hfound
  · cases hfound
    exact ⟨e, he, hid, hedits, hdestination, rfl⟩

namespace Outline

variable {ι : Type} {D : StoreDiscipline ι} {c : ι} {call : Request} {α β : Type}
  {post : Except StorageError β → List Commit → StoreWorld ι → Prop}
  {marks : List Commit} {w : StoreWorld ι}

theorem look_bind {f : Directories → Except StorageError α} {g : α → StoreCall β}
    (hok : ∀ w', D.rely .look w w' → D.inv w' → ∀ moment,
      D.admits call marks .look moment w' → ∀ a, f moment.isDir = .ok a →
        Outline D c call post (g a) marks w')
    (herror : ∀ e w', post (.error e) marks w') :
    Outline D c call post (StoreCall.look f >>= g) marks w :=
  query_bind (fun w' hrely hinv moment hadmits a ha => hok w' hrely hinv moment hadmits a ha)
    fun w' _ _ _ _ e _ => herror e w'

theorem read_bind {label : StoreStep} {f : Moment → Database → Except StorageError α}
    {g : α → StoreCall β}
    (hok : ∀ w', D.rely label w w' → D.inv w' → ∀ moment,
      D.admits call marks label moment w' → ∀ a, f moment w'.shared = .ok a →
        Outline D c call post (g a) marks w')
    (herror : ∀ e w', post (.error e) marks w') :
    Outline D c call post (StoreCall.read label f >>= g) marks w :=
  query_bind
    (fun w' hrely hinv moment hadmits a ha =>
      hok w' hrely hinv moment hadmits a (unit_bind_eq_ok.mp ha).2)
    fun w' _ _ _ _ e _ => herror e w'

theorem write_bind {label : StoreStep}
    {f : Moment → Database → Except StorageError (α × Database × List Commit)}
    {g : α → StoreCall β}
    (hok : ∀ w', D.rely label w w' → D.inv w' → ∀ moment,
      D.admits call marks label moment w' → ∀ a db new, f moment w'.shared = .ok (a, db, new) →
        D.inv (w'.afterStep c (db, new)) ∧ D.guar label w' (w'.afterStep c (db, new)) ∧
          Outline D c call post (g a) (marks ++ new) (w'.afterStep c (db, new)))
    (herror : ∀ e w', post (.error e) marks w') :
    Outline D c call post (StoreCall.write label f >>= g) marks w :=
  transaction_bind
    (fun w' hrely hinv moment hadmits a db new ha =>
      hok w' hrely hinv moment hadmits a db new (unit_bind_eq_ok.mp ha).2)
    fun w' _ _ _ _ e _ => herror e w'

theorem write {label : StoreStep}
    {f : Moment → Database → Except StorageError (β × Database × List Commit)}
    (hok : ∀ w', D.rely label w w' → D.inv w' → ∀ moment,
      D.admits call marks label moment w' → ∀ b db new, f moment w'.shared = .ok (b, db, new) →
        D.inv (w'.afterStep c (db, new)) ∧ D.guar label w' (w'.afterStep c (db, new)) ∧
          post (.ok b) (marks ++ new) (w'.afterStep c (db, new)))
    (herror : ∀ e w', post (.error e) marks w') :
    Outline D c call post (StoreCall.write label f) marks w :=
  transaction
    (fun w' hrely hinv moment hadmits b db new hb =>
      hok w' hrely hinv moment hadmits b db new (unit_bind_eq_ok.mp hb).2)
    fun w' _ _ _ _ e _ => herror e w'

theorem check_bind {r : Except StorageError α} {g : α → StoreCall β}
    (hok : ∀ a, r = .ok a → Outline D c call post (g a) marks w)
    (herror : ∀ e, post (.error e) marks w) :
    Outline D c call post (StoreCall.check r >>= g) marks w :=
  ofExcept_bind hok fun e _ => herror e

theorem findExisting_bind {id : SyncProfileId} {g : PersistedSyncProfile → StoreCall β}
    (hok : ∀ w', D.rely (.load id) w w' → D.inv w' → ∀ moment,
      D.admits call marks (.load id) moment w' → ∀ existing,
        findExisting moment id w'.shared = .ok existing →
          Outline D c call post (g existing) marks w')
    (herror : ∀ w', D.rely (.load id) w w' → D.inv w' → ∀ moment,
      D.admits call marks (.load id) moment w' → ∀ e,
        findExisting moment id w'.shared = .error e → post (.error e) marks w') :
    Outline D c call post (loadExisting id >>= g) marks w := by
  refine bind (query_bind (fun w' hrely hinv moment hadmits found hfound => ?_)
    fun w' hrely hinv moment hadmits e he => ?_)
  · obtain ⟨hopen, hload⟩ := unit_bind_eq_ok.mp hfound
    have hload : w'.shared.profiles.loadProfile moment.isDir id = .ok found := hload
    have hfind : findExisting moment id w'.shared =
        orError found (StorageError.profileNotFound id) := by
      unfold findExisting
      rw [hopen, ok_bind, hload, ok_bind]
    cases hr : orError found (StorageError.profileNotFound id) with
    | ok existing =>
        rw [hr] at hfind
        exact hok w' hrely hinv moment hadmits existing hfind
    | error e =>
        rw [hr] at hfind
        exact herror w' hrely hinv moment hadmits e hfind
  · refine herror w' hrely hinv moment hadmits e ?_
    unfold findExisting
    cases hopen : moment.begin with
    | error e' =>
        rw [hopen] at he
        cases he
        rfl
    | ok =>
        rw [hopen, ok_bind] at he
        have he : w'.shared.profiles.loadProfile moment.isDir id = .error e := he
        rw [ok_bind, he]
        rfl

theorem loadExisting_bind {id : SyncProfileId} {g : PersistedSyncProfile → StoreCall β}
    (hok : ∀ w', D.rely (.load id) w w' → D.inv w' → ∀ moment existing,
      findExisting moment id w'.shared = .ok existing →
        Outline D c call post (g existing) marks w')
    (herror : ∀ e w', post (.error e) marks w') :
    Outline D c call post (loadExisting id >>= g) marks w :=
  findExisting_bind
    (fun w' hrely hinv moment _ existing hfind => hok w' hrely hinv moment existing hfind)
    fun w' _ _ _ _ e _ => herror e w'

theorem loadExisting {id : SyncProfileId}
    {post : Except StorageError PersistedSyncProfile → List Commit → StoreWorld ι → Prop}
    (hpost : ∀ r w', post r marks w') :
    Outline D c call post (loadExisting id) marks w :=
  bind (query fun w' _ _ moment _ => by
    cases moment.begin >>= fun _ => w'.shared.profiles.loadProfile moment.isDir id with
    | ok found => exact hpost _ _
    | error e => exact hpost _ _)

/-! ## The calls, up to what they write

Each rule walks through a call once: what is left to show is that its
write keeps the discipline, from all that the call has seen before. -/

variable {currentDir : Option PathBuf}

/-- The scan for a profile of the same endpoints found none. -/
def Clear (currentDir : Option PathBuf) (profile : SyncProfile)
    (excluded : Option SyncProfileId) (db : Database) : Prop :=
  ∃ isDir listed, db.profiles.listProfiles isDir = .ok listed ∧
    ∀ persisted ∈ listed, some persisted.id ≠ excluded →
      persisted.profile.endpoints currentDir ≠ profile.endpoints currentDir

theorem scan_bind {profile : SyncProfile} {excluded : Option SyncProfileId}
    {g : Unit → StoreCall β}
    (hok : ∀ w', D.rely (.scan profile excluded) w w' → D.inv w' →
      Clear currentDir profile excluded w'.shared → Outline D c call post (g ()) marks w')
    (herror : ∀ e w', post (.error e) marks w') :
    Outline D c call post (rejectDuplicateEndpointPair currentDir profile excluded >>= g)
      marks w := by
  refine read_bind (fun w' hrely hinv moment _ _ hscan => ?_) herror
  obtain ⟨listed, hlisted, hclear⟩ := bind_eq_ok.mp hscan
  refine hok w' hrely hinv ⟨moment.isDir, listed, hlisted, fun persisted hmem hne heq => ?_⟩
  exact ensure_eq_ok.mp hclear persisted hmem hne (SyncProfile.endpoints_eq_iff.mp heq)

theorem create {profile : SyncProfile} {authorizations : AuthorizationSnapshot}
    (hwrite : ∀ w₁ w₂ w₃ moment key db new, D.rely .look w w₁ →
      D.rely (.scan profile none) w₁ w₂ → D.rely (.store profile none) w₂ w₃ →
      D.inv w₂ → D.inv w₃ → D.admits call marks (.store profile none) moment w₃ →
      profile.Storable → validateAuthorizations profile authorizations = .ok () →
      Clear currentDir profile none w₂.shared →
      createTransaction profile authorizations w₃.shared = .ok (key, db, new) →
        D.inv (w₃.afterStep c (db, new)) ∧
          D.guar (.store profile none) w₃ (w₃.afterStep c (db, new))) :
    Outline D c call (fun _ _ _ => True)
      (createProfileWithAuthorizations currentDir profile authorizations) marks w := by
  unfold createProfileWithAuthorizations
  refine look_bind (fun w₁ hrely₁ _ _ _ _ hvalidate => ?_) fun _ _ => trivial
  refine check_bind (fun _ hauthorizations => ?_) fun _ => trivial
  refine scan_bind (fun w₂ hrely₂ hinv₂ hclear => ?_) fun _ _ => trivial
  refine write_bind (fun w₃ hrely₃ hinv₃ moment hadmits key db new hrun => ?_) fun _ _ => trivial
  obtain ⟨hinv, hguar⟩ := hwrite w₁ w₂ w₃ moment key db new hrely₁ hrely₂ hrely₃ hinv₂ hinv₃
    hadmits (validateProfile_eq_ok.mp hvalidate).1 hauthorizations hclear hrun
  exact ⟨hinv, hguar, check_bind (fun _ _ => trivial) fun _ => trivial⟩

/-- What an update stores of the authorizations it is called with. -/
def scopedAuthorizations (existing profile : SyncProfile)
    (authorizations : AuthorizationSnapshot) : AuthorizationSnapshot :=
  if unattendedAuthorizationScopeChanged existing profile then .default else authorizations

theorem updateIfRevision {id : SyncProfileId} {profile : SyncProfile}
    {authorizations : AuthorizationSnapshot} {expected : UInt64}
    (hwrite : ∀ w₁ w₂ w₃ w₄ moment₂ moment₄ existing db new, D.rely .look w w₁ →
      D.rely (.load id) w₁ w₂ → D.rely (.scan profile (some id)) w₂ w₃ →
      D.rely (.store profile (some id)) w₃ w₄ → D.inv w₂ → D.inv w₃ → D.inv w₄ →
      D.admits call marks (.store profile (some id)) moment₄ w₄ → profile.Storable →
      findExisting moment₂ id w₂.shared = .ok existing → existing.revision = expected →
      Clear currentDir profile (some id) w₃.shared →
      validateAuthorizations profile
        (scopedAuthorizations existing.profile profile authorizations) = .ok () →
      updateTransaction id profile
        (scopedAuthorizations existing.profile profile authorizations) expected w₄.shared =
          .ok ((), db, new) →
        D.inv (w₄.afterStep c (db, new)) ∧
          D.guar (.store profile (some id)) w₄ (w₄.afterStep c (db, new))) :
    Outline D c call (fun _ _ _ => True)
      (updateProfileWithAuthorizationsIfRevision currentDir id profile authorizations expected)
      marks w := by
  unfold updateProfileWithAuthorizationsIfRevision
  refine look_bind (fun w₁ hrely₁ _ _ _ _ hvalidate => ?_) fun _ _ => trivial
  refine loadExisting_bind (fun w₂ hrely₂ hinv₂ moment₂ existing hfind => ?_) fun _ _ => trivial
  refine check_bind (fun _ hrevision => ?_) fun _ => trivial
  refine scan_bind (fun w₃ hrely₃ hinv₃ hclear => ?_) fun _ _ => trivial
  refine check_bind (fun _ hauthorizations => ?_) fun _ => trivial
  refine write_bind (fun w₄ hrely₄ hinv₄ moment₄ hadmits _ db new hrun => ?_) fun _ _ => trivial
  obtain ⟨hinv, hguar⟩ := hwrite w₁ w₂ w₃ w₄ moment₂ moment₄ existing db new hrely₁ hrely₂
    hrely₃ hrely₄ hinv₂ hinv₃ hinv₄ hadmits (validateProfile_eq_ok.mp hvalidate).1 hfind
    (ensure_eq_ok.mp hrevision) hclear hauthorizations hrun
  exact ⟨hinv, hguar, check_bind (fun _ _ => trivial) fun _ => trivial⟩

theorem remove {id : SyncProfileId}
    (hwrite : ∀ w' moment changed db new, D.rely (.remove id) w w' → D.inv w' →
      D.admits call marks (.remove id) moment w' →
      removeTransaction id w'.shared = .ok (changed, db, new) →
        D.inv (w'.afterStep c (db, new)) ∧ D.guar (.remove id) w' (w'.afterStep c (db, new))) :
    Outline D c call (fun _ _ _ => True) (removeProfile id) marks w := by
  refine write (fun w' hrely hinv moment hadmits changed db new hrun => ?_) fun _ _ => trivial
  obtain ⟨hinv', hguar⟩ := hwrite w' moment changed db new hrely hinv hadmits hrun
  exact ⟨hinv', hguar, trivial⟩

theorem replace {profiles : List ImportedProfile}
    (hwrite : ∀ w₁ w₂ moment db new, D.rely .look w w₁ → D.rely (.replace profiles) w₁ w₂ →
      D.inv w₂ → D.admits call marks (.replace profiles) moment w₂ →
      (∃ isDir, validateImport currentDir isDir [] profiles = .ok ()) →
      replaceTransaction profiles w₂.shared = .ok ((), db, new) →
        D.inv (w₂.afterStep c (db, new)) ∧
          D.guar (.replace profiles) w₂ (w₂.afterStep c (db, new))) :
    Outline D c call (fun _ _ _ => True) (replaceConfiguration currentDir profiles) marks w := by
  unfold replaceConfiguration
  refine look_bind (fun w₁ hrely₁ _ moment₁ _ _ hvalidate => ?_) fun _ _ => trivial
  refine write (fun w₂ hrely₂ hinv₂ moment hadmits _ db new hrun => ?_) fun _ _ => trivial
  obtain ⟨hinv, hguar⟩ :=
    hwrite w₁ w₂ moment db new hrely₁ hrely₂ hinv₂ hadmits ⟨moment₁.isDir, hvalidate⟩ hrun
  exact ⟨hinv, hguar, trivial⟩

theorem updateSchedule {id : SyncProfileId} {schedule : Option ScheduleDefinition}
    {mode : ApplicationMode} {now : Int64}
    (hwrite : ∀ w₁ w₂ moment₁ moment accepted existing revision db new,
      D.rely (.load id) w w₁ → D.inv w₁ → findExisting moment₁ id w₁.shared = .ok existing →
      D.rely (.schedule id) w₁ w₂ → D.inv w₂ → D.admits call marks (.schedule id) moment w₂ →
      schedule.mapM (withDefaultNextRun now) = .ok accepted →
      checkSchedule existing.profile mode accepted = .ok () →
      nextRevision existing.revision = .ok revision →
      scheduleTransaction id accepted existing.revision revision w₂.shared =
          .ok ((), db, new) →
        D.inv (w₂.afterStep c (db, new)) ∧
          D.guar (.schedule id) w₂ (w₂.afterStep c (db, new))) :
    Outline D c call (fun _ _ _ => True) (updateScheduleAt id schedule mode now) marks w := by
  unfold updateScheduleAt
  refine check_bind (fun _ _ => ?_) fun _ => trivial
  refine check_bind (fun accepted haccepted => ?_) fun _ => trivial
  refine loadExisting_bind (fun w₁ hrely₁ hinv₁ moment₁ existing hfind => ?_) fun _ _ => trivial
  refine check_bind (fun _ hcheck => ?_) fun _ => trivial
  refine check_bind (fun revision hrevision => ?_) fun _ => trivial
  refine write_bind (fun w₂ hrely₂ hinv₂ moment hadmits _ db new hrun => ?_) fun _ _ => trivial
  obtain ⟨hinv, hguar⟩ := hwrite w₁ w₂ moment₁ moment accepted existing revision db new
    hrely₁ hinv₁ hfind hrely₂ hinv₂ hadmits haccepted hcheck hrevision hrun
  exact ⟨hinv, hguar, loadExisting fun _ _ => trivial⟩

/-- What a claim has seen when it decides that the profile is due. -/
structure FoundDue (D : StoreDiscipline ι) (call : Request) (marks : List Commit)
    (id : SyncProfileId) (now : Int64) (w w₁ : StoreWorld ι)
    (existing : PersistedSyncProfile) (schedule : ScheduleDefinition) (scheduledAt : Int64) :
    Prop where
  rely : D.rely (.load id) w w₁
  inv : D.inv w₁
  found : ∃ moment, D.admits call marks (.load id) moment w₁ ∧
    findExisting moment id w₁.shared = .ok existing
  schedule_eq : existing.schedule = some schedule
  scheduled : schedule.nextRunAtUnixSeconds = some scheduledAt
  enabled : schedule.enabled = true
  due : ¬ now < scheduledAt

/-- A claim ends without a run, in one of its failures, or in its transaction. -/
theorem claim {id : SyncProfileId} {now : Int64}
    {post : Except StorageError (Option ClaimedScheduledRun) → List Commit →
      StoreWorld ι → Prop}
    (hnone : ∀ w', post (.ok none) marks w')
    (htime : ¬ 0 ≤ now → ∀ e, post (.error e) marks w)
    (hload : ∀ w₁ moment e, D.rely (.load id) w w₁ → D.inv w₁ →
      D.admits call marks (.load id) moment w₁ → findExisting moment id w₁.shared = .error e →
        post (.error e) marks w₁)
    (hnext : ∀ w₁ existing schedule scheduledAt e,
      FoundDue D call marks id now w w₁ existing schedule scheduledAt →
      nextOccurrence schedule.intervalMinutes scheduledAt now = .error e →
        post (.error e) marks w₁)
    (hclaim : ∀ w₁ w₂ moment existing schedule scheduledAt nextRun,
      FoundDue D call marks id now w w₁ existing schedule scheduledAt →
      nextOccurrence schedule.intervalMinutes scheduledAt now = .ok nextRun →
      D.rely (.claim existing scheduledAt now) w₁ w₂ → D.inv w₂ →
      D.admits call marks (.claim existing scheduledAt now) moment w₂ →
      (∀ e, (moment.begin >>= fun _ => claimTransaction existing scheduledAt nextRun now
        moment.toEnvironment w₂.shared) = .error e → post (.error e) marks w₂) ∧
      ∀ claimed db new, claimTransaction existing scheduledAt nextRun now
          moment.toEnvironment w₂.shared = .ok (claimed, db, new) →
        D.inv (w₂.afterStep c (db, new)) ∧
          D.guar (.claim existing scheduledAt now) w₂ (w₂.afterStep c (db, new)) ∧
          post (.ok claimed) (marks ++ new) (w₂.afterStep c (db, new))) :
    Outline D c call post (claimDueSchedule id now) marks w := by
  unfold claimDueSchedule
  refine ofExcept_bind (fun _ _ => ?_) fun e he => ?_
  · refine findExisting_bind (fun w₁ hrely₁ hinv₁ moment₁ hadmits₁ existing hfind => ?_)
      fun w₁ hrely₁ hinv₁ moment₁ hadmits₁ e he => hload w₁ moment₁ e hrely₁ hinv₁ hadmits₁ he
    split
    · exact hnone w₁
    · rename_i schedule hschedule
      split
      · exact hnone w₁
      · rename_i scheduledAt hscheduled
        split
        · exact hnone w₁
        · rename_i hdue
          have hfound : FoundDue D call marks id now w w₁ existing schedule scheduledAt :=
            ⟨hrely₁, hinv₁, ⟨moment₁, hadmits₁, hfind⟩, hschedule, hscheduled,
              by simpa using fun h => hdue (.inl h), fun h => hdue (.inr h)⟩
          refine ofExcept_bind (fun nextRun hnextRun => ?_) fun e he =>
            hnext w₁ existing schedule scheduledAt e hfound he
          refine transaction (fun w₂ hrely₂ hinv₂ moment₂ hadmits₂ claimed db new hrun => ?_)
            fun w₂ hrely₂ hinv₂ moment₂ hadmits₂ e he => ?_
          · exact (hclaim w₁ w₂ moment₂ existing schedule scheduledAt nextRun hfound hnextRun
              hrely₂ hinv₂ hadmits₂).2 claimed db new (unit_bind_eq_ok.mp hrun).2
          · exact (hclaim w₁ w₂ moment₂ existing schedule scheduledAt nextRun hfound hnextRun
              hrely₂ hinv₂ hadmits₂).1 e he
  · exact htime (ensure_eq_error.mp he).1 e

/-- Wrapping up what a procedure returns, where nothing is asked of it. -/
theorem wrap {p : StoreCall α} {f : α → β}
    (h : Outline D c call (fun _ _ _ => True) p marks w) :
    Outline D c call (fun _ _ _ => True) (p >>= fun a => pure (f a)) marks w :=
  bind (h.mono fun r _ _ _ => by cases r <;> trivial)

theorem poll {now : Int64} {runs : List ScheduledRun} {profiles : List PersistedSyncProfile}
    (hclaim : ∀ id marks w, Outline D c call (fun _ _ _ => True) (claimDueSchedule id now)
      marks w) :
    Outline D c call (fun _ _ _ => True) (pollProfiles now runs profiles) marks w := by
  induction profiles generalizing runs marks w with
  | nil => trivial
  | cons profile rest ih =>
      unfold pollProfiles
      refine bind ((hclaim profile.id marks w).mono fun r marks' w' _ => ?_)
      rcases r with _ | _ | claim
      · trivial
      · exact ih
      · exact ih

end Outline

/-! ## Requests -/

section

variable {ι : Type} {D : StoreDiscipline ι} {c : ι} {call : Request} {w : StoreWorld ι}

/-- Each of the calls that write keeps the discipline. -/
structure Discipline.KeptByCalls (D : StoreDiscipline ι) (currentDir : Option PathBuf)
    (c : ι) (call : Request) : Prop where
  create : ∀ profile authorizations w, Outline D c call (fun _ _ _ => True)
    (createProfileWithAuthorizations currentDir profile authorizations) [] w
  update : ∀ id profile authorizations expected w, Outline D c call (fun _ _ _ => True)
    (updateProfileWithAuthorizationsIfRevision currentDir id profile authorizations expected) [] w
  replace : ∀ profiles w, Outline D c call (fun _ _ _ => True)
    (replaceConfiguration currentDir profiles) [] w
  schedule : ∀ id schedule mode now w, Outline D c call (fun _ _ _ => True)
    (updateScheduleAt id schedule mode now) [] w
  remove : ∀ id w, Outline D c call (fun _ _ _ => True) (removeProfile id) [] w
  claim : ∀ id now w, Outline D c call (fun _ _ _ => True) (claimDueSchedule id now) [] w
  poll : ∀ now profiles w, Outline D c call (fun _ _ _ => True) (pollProfiles now [] profiles) [] w

/-- **A discipline that each of the calls keeps** is kept by every request. -/
theorem Discipline.KeptByCalls.body {currentDir : Option PathBuf}
    (h : D.KeptByCalls currentDir c call) (request : Request) :
    Outline D c call (fun _ _ _ => True) (request.body currentDir) [] w := by
  cases request with
  | createProfile profile => exact (h.create _ _ _).wrap
  | createProfileWithAuthorizations profile authorizations => exact (h.create _ _ _).wrap
  | updateProfile id profile =>
      exact (Outline.loadExisting_bind (fun _ _ _ _ _ _ => h.update _ _ _ _ _)
        fun _ _ => trivial).wrap
  | updateProfileWithAuthorizations id profile authorizations =>
      refine Outline.wrap (Outline.look_bind (fun _ _ _ _ _ _ _ => ?_) fun _ _ => trivial)
      exact Outline.loadExisting_bind (fun _ _ _ _ _ _ => h.update _ _ _ _ _) fun _ _ => trivial
  | updateProfileWithAuthorizationsIfRevision id profile authorizations expected =>
      exact (h.update _ _ _ _ _).wrap
  | replaceConfiguration profiles => exact (h.replace _ _).wrap
  | updateScheduleAt id schedule mode now => exact (h.schedule _ _ _ _ _).wrap
  | removeProfile id => exact (h.remove _ _).wrap
  | claimDueSchedule id now => exact (h.claim _ _ _).wrap
  | pollDue now =>
      exact (Outline.read_bind (fun _ _ _ _ _ _ _ => h.poll _ _ _) fun _ _ => trivial).wrap

end

end SyncPlus
