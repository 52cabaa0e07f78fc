import SyncPlus.SnapshotFrozen
import SyncPlus.TableTransactions

/-!
# Listing what was accepted

`StoreHistory` is the history of a store: calls that succeeded, one after the
other, with what was accepted of each profile that is still there. The
list of the profiles is what was accepted, exactly when every retry delay
is a whole number of milliseconds (`listProfiles_eq_accepted_iff`). Apart
from that only a destination that is found to be the empty path, or a
profile edited 2⁶³ times, can make the list fail.
-/

namespace SyncPlus

open Procedure (Returns)

/-! ## Calls alone -/

namespace StoreCall

variable {α β : Type} {db db' : Database}

theorem returns_look {f : Directories → Except StorageError α} {a : α}
    (h : (look f).Returns db (.ok a) db') : db' = db ∧ ∃ isDir, f isDir = .ok a := by
  obtain ⟨rfl, moment, hf⟩ := Returns.query h
  exact ⟨rfl, moment.isDir, hf⟩

theorem returns_read {label : StoreStep} {f : Moment → Database → Except StorageError α}
    {a : α} (h : (read label f).Returns db (.ok a) db') :
    db' = db ∧ ∃ moment, f moment db = .ok a := by
  obtain ⟨rfl, moment, hf⟩ := Returns.query h
  exact ⟨rfl, moment, (unit_bind_eq_ok.mp hf).2⟩

theorem returns_write {label : StoreStep}
    {f : Moment → Database → Except StorageError (α × Database × List Commit)} {a : α}
    (h : (write label f).Returns db (.ok a) db') :
    ∃ moment marks, f moment db = .ok (a, db', marks) := by
  obtain ⟨moment, marks, hf⟩ := Returns.transaction h
  exact ⟨moment, marks, (unit_bind_eq_ok.mp hf).2⟩

theorem returns_check_bind {r : Except StorageError α} {f : α → StoreCall β} {b : β}
    (h : (check r >>= f).Returns db (.ok b) db') :
    ∃ a, r = .ok a ∧ (f a).Returns db (.ok b) db' :=
  Returns.ofExcept_bind h

end StoreCall

section

variable {db db' : Database} {entries : List StoredProfile}

theorem returns_loadExisting (h : db.profiles.Stores entries) {id : SyncProfileId}
    {existing : PersistedSyncProfile}
    (hload : (loadExisting id).Returns db (.ok existing) db') :
    db' = db ∧ ∃ e ∈ entries, e.id = id ∧ e.edits < 2 ^ 63 ∧
      existing = e.kept.persisted := by
  obtain ⟨found, db₁, hread, hcheck⟩ := hload.bind
  obtain ⟨rfl, moment, hfound⟩ := StoreCall.returns_read hread
  obtain ⟨hresult, rfl⟩ := Procedure.returns_done.mp hcheck
  obtain ⟨-, rfl | ⟨e, he, hid, hedits, -, rfl⟩⟩ := loadProfile_eq_ok h hfound
  · cases hresult
  · cases hresult
    exact ⟨rfl, e, he, hid, hedits, rfl⟩

/-! ## What each call accepts -/

variable {currentDir : Option PathBuf}

theorem returns_createProfileWithAuthorizations (h : db.profiles.Stores entries)
    {profile : SyncProfile} {authorizations : AuthorizationSnapshot}
    {persisted : PersistedSyncProfile}
    (hrun : (createProfileWithAuthorizations currentDir profile authorizations).Returns db
      (.ok persisted) db') :
    db'.profiles.Stores (entries ++ [⟨persisted.id, profile, none, authorizations, 0⟩]) := by
  unfold createProfileWithAuthorizations at hrun
  obtain ⟨_, db₁, hlook, hrun₁⟩ := hrun.bind
  obtain ⟨rfl, isDir, hvalidate⟩ := StoreCall.returns_look hlook
  obtain ⟨_, hauthorizations, hrun₂⟩ := StoreCall.returns_check_bind hrun₁
  obtain ⟨_, db₂, hscan, hrun₃⟩ := hrun₂.bind
  obtain ⟨rfl, -⟩ := StoreCall.returns_read hscan
  obtain ⟨key, db₃, hwrite, hrun₄⟩ := hrun₃.bind
  obtain ⟨moment, marks, hwrite⟩ := StoreCall.returns_write hwrite
  obtain ⟨n, hn, hrun₅⟩ := StoreCall.returns_check_bind hrun₄
  obtain ⟨hresult, rfl⟩ := Procedure.returns_done.mp hrun₅
  obtain ⟨id, rfl, -, hstores, -⟩ := createTransaction_eq_ok h
    (validateProfile_eq_ok.mp hvalidate).1 hauthorizations hwrite
  rw [tryUnsigned_ofNat id.value.toNat_lt, orError_some] at hn
  cases hn
  cases hresult
  simpa using hstores

theorem returns_updateProfileWithAuthorizationsIfRevision (h : db.profiles.Stores entries)
    {id : SyncProfileId} {profile : SyncProfile} {authorizations : AuthorizationSnapshot}
    {expected : UInt64} {persisted : PersistedSyncProfile}
    (hrun : (updateProfileWithAuthorizationsIfRevision currentDir id profile authorizations
      expected).Returns db (.ok persisted) db') :
    db'.profiles.Stores (modifyEntry entries id fun e =>
      { e with profile, authorizations := persisted.authorizations, edits := e.edits + 1 }) := by
  unfold updateProfileWithAuthorizationsIfRevision at hrun
  obtain ⟨_, db₁, hlook, hrun₁⟩ := hrun.bind
  obtain ⟨rfl, isDir, hvalidate⟩ := StoreCall.returns_look hlook
  obtain ⟨existing, db₂, hload, hrun₂⟩ := hrun₁.bind
  obtain ⟨rfl, -⟩ := returns_loadExisting h hload
  obtain ⟨_, -, hrun₃⟩ := StoreCall.returns_check_bind hrun₂
  obtain ⟨_, db₃, hscan, hrun₄⟩ := hrun₃.bind
  obtain ⟨rfl, -⟩ := StoreCall.returns_read hscan
  obtain ⟨_, hauthorizations, hrun₅⟩ := StoreCall.returns_check_bind hrun₄
  obtain ⟨u, db₄, hwrite, hrun₆⟩ := hrun₅.bind
  obtain ⟨moment, marks, hwrite⟩ := StoreCall.returns_write hwrite
  obtain ⟨revision, -, hrun₇⟩ := StoreCall.returns_check_bind hrun₆
  obtain ⟨hresult, rfl⟩ := Procedure.returns_done.mp hrun₇
  cases hresult
  exact (updateTransaction_eq_ok h (validateProfile_eq_ok.mp hvalidate).1 hauthorizations
    hwrite).2.1

theorem returns_updateScheduleAt (h : db.profiles.Stores entries) {id : SyncProfileId}
    {schedule : Option ScheduleDefinition} {mode : ApplicationMode} {now : Int64}
    {persisted : PersistedSyncProfile}
    (hrun : (updateScheduleAt id schedule mode now).Returns db (.ok persisted) db') :
    ∃ accepted, schedule.mapM (withDefaultNextRun now) = .ok accepted ∧
      db'.profiles.Stores (modifyEntry entries id fun e =>
        { e with schedule := accepted, edits := e.edits + 1 }) := by
  unfold updateScheduleAt at hrun
  obtain ⟨_, -, hrun₁⟩ := StoreCall.returns_check_bind hrun
  obtain ⟨accepted, haccepted, hrun₂⟩ := StoreCall.returns_check_bind hrun₁
  obtain ⟨existing, db₁, hload, hrun₃⟩ := hrun₂.bind
  obtain ⟨rfl, -⟩ := returns_loadExisting h hload
  obtain ⟨_, hcheck, hrun₄⟩ := StoreCall.returns_check_bind hrun₃
  obtain ⟨revision, hrevision, hrun₅⟩ := StoreCall.returns_check_bind hrun₄
  obtain ⟨u, db₂, hwrite, hrun₆⟩ := hrun₅.bind
  obtain ⟨moment, marks, hwrite⟩ := StoreCall.returns_write hwrite
  obtain ⟨-, hstores, -⟩ :=
    scheduleTransaction_eq_ok h (checkSchedule_valid hcheck) hrevision hwrite
  obtain ⟨rfl, -⟩ := returns_loadExisting hstores hrun₆
  exact ⟨accepted, haccepted, hstores⟩

theorem returns_replaceConfiguration (h : db.profiles.Stores entries)
    {profiles : List ImportedProfile} {u : Unit}
    (hrun : (replaceConfiguration currentDir profiles).Returns db (.ok u) db') :
    db'.profiles.Stores (importedEntries (db.profiles.sequence + 1).toNat profiles) := by
  unfold replaceConfiguration at hrun
  obtain ⟨_, db₁, hlook, hrun₁⟩ := hrun.bind
  obtain ⟨rfl, isDir, hvalidate⟩ := StoreCall.returns_look hlook
  obtain ⟨moment, marks, hwrite⟩ := StoreCall.returns_write hrun₁
  exact (replaceTransaction_eq_ok h (validateImport_eq_ok hvalidate).1 hwrite).1

theorem returns_removeProfile (h : db.profiles.Stores entries) {id : SyncProfileId}
    {changed : Bool} (hrun : (removeProfile id).Returns db (.ok changed) db') :
    db'.profiles.Stores (entries.filter fun e => e.id ≠ id) := by
  obtain ⟨moment, marks, hwrite⟩ := StoreCall.returns_write hrun
  exact (removeTransaction_eq_ok h hwrite).1

end

/-! ## The history of a store -/

/-- What was accepted of each profile in a history of successful calls, each
in whatever surroundings. -/
inductive StoreHistory (currentDir : Option PathBuf) : List StoredProfile → Database → Prop
  | empty : StoreHistory currentDir [] .empty
  | create {entries db db' profile authorizations persisted} :
      StoreHistory currentDir entries db →
      (createProfileWithAuthorizations currentDir profile authorizations).Returns db
        (.ok persisted) db' →
      StoreHistory currentDir (entries ++ [⟨persisted.id, profile, none, authorizations, 0⟩]) db'
  | update {entries db db' id profile authorizations expected persisted} :
      StoreHistory currentDir entries db →
      (updateProfileWithAuthorizationsIfRevision currentDir id profile authorizations
        expected).Returns db (.ok persisted) db' →
      StoreHistory currentDir (modifyEntry entries id fun e =>
        { e with
          profile, authorizations := persisted.authorizations, edits := e.edits + 1 }) db'
  | schedule {entries db db' id schedule mode now persisted accepted} :
      StoreHistory currentDir entries db →
      (updateScheduleAt id schedule mode now).Returns db (.ok persisted) db' →
      schedule.mapM (withDefaultNextRun now) = .ok accepted →
      StoreHistory currentDir (modifyEntry entries id fun e =>
        { e with schedule := accepted, edits := e.edits + 1 }) db'
  | replace {entries db db' profiles} : StoreHistory currentDir entries db →
      (replaceConfiguration currentDir profiles).Returns db (.ok ()) db' →
      StoreHistory currentDir
        (importedEntries (db.profiles.sequence + 1).toNat profiles) db'
  | remove {entries db db' id changed} : StoreHistory currentDir entries db →
      (removeProfile id).Returns db (.ok changed) db' →
      StoreHistory currentDir (entries.filter fun e => e.id ≠ id) db'

theorem StoreHistory.stores {currentDir : Option PathBuf} {entries : List StoredProfile}
    {db : Database} (h : StoreHistory currentDir entries db) : db.profiles.Stores entries := by
  induction h with
  | empty => exact stores_empty
  | create _ hrun ih => exact returns_createProfileWithAuthorizations ih hrun
  | update _ hrun ih => exact returns_updateProfileWithAuthorizationsIfRevision ih hrun
  | schedule _ hrun haccepted ih =>
      obtain ⟨accepted, haccepted', hstores⟩ := returns_updateScheduleAt ih hrun
      rw [haccepted] at haccepted'
      cases haccepted'
      exact hstores
  | replace _ hrun ih => exact returns_replaceConfiguration ih hrun
  | remove _ hrun ih => exact returns_removeProfile ih hrun

/-- **The profiles are listed as they were accepted** exactly when every retry
delay is a whole number of milliseconds, no destination is found to be the
empty path, and no profile was edited more often than revisions can count. -/
theorem listProfiles_eq_accepted_iff {currentDir : Option PathBuf}
    {entries : List StoredProfile} {db : Database} (h : StoreHistory currentDir entries db)
    (isDir : Directories) :
    db.profiles.listProfiles isDir = .ok (entries.map StoredProfile.persisted) ↔
      ∀ e ∈ entries, e.profile.options.retryPolicy.initialDelay.IsWholeMillis ∧
        (processDestinationRoot isDir e.profile).isEmpty = false ∧ e.edits < 2 ^ 63 := by
  have hkept (e : StoredProfile) : e.persisted = e.kept.persisted ↔
      e.profile.options.retryPolicy.initialDelay.IsWholeMillis := by
    rw [← SyncProfile.stored_eq_self]
    constructor
    · intro heq
      exact (congrArg (fun p => p.profile) heq).symm
    · intro heq
      simp [StoredProfile.persisted, StoredProfile.kept, heq]
  rw [listProfiles_eq_ok h.stores, List.map_inj_left]
  constructor
  · rintro ⟨heq, hall⟩ e he
    exact ⟨(hkept e).mp (heq e he), (hall e he).2, (hall e he).1⟩
  · intro hall
    exact ⟨fun e he => (hkept e).mpr (hall e he).1, fun e he => ⟨(hall e he).2.2, (hall e he).2.1⟩⟩

/-! ### A delay of half a millisecond more -/

def delayedEntry (nanos : Nat) : StoredProfile where
  id := ⟨1⟩
  profile := delayedProfile nanos
  schedule := none
  authorizations := .default
  edits := 0

theorem accepted_delayed (nanos : Nat)
    (h : ((createProfileWithAuthorizations none (delayedProfile nanos) .default).run
      plainMachine.admitted .empty).1 = .ok (delayedEntry nanos).persisted) :
    ∃ db, StoreHistory none [delayedEntry nanos] db := by
  have hrun := Procedure.returns_run plainMachine.admitted
    (createProfileWithAuthorizations none (delayedProfile nanos) .default) .empty
  rw [h] at hrun
  exact ⟨_, .create .empty hrun⟩

/-- With two milliseconds the profile is listed as it was accepted. -/
theorem listProfiles_delayed :
    ∃ db, StoreHistory none [delayedEntry 2000000] db ∧
      db.profiles.listProfiles plainMachine.isDir = .ok [(delayedEntry 2000000).persisted] := by
  obtain ⟨db, h⟩ := accepted_delayed 2000000 (by decide +kernel)
  refine ⟨db, h, (listProfiles_eq_accepted_iff h plainMachine.isDir).mpr ?_⟩
  decide +kernel

/-- With a millisecond and a half it is not. -/
theorem listProfiles_shortened :
    ¬ ∀ (currentDir : Option PathBuf) (entries : List StoredProfile) (db : Database),
      StoreHistory currentDir entries db → ∀ isDir, db.profiles.listProfiles isDir =
        .ok (entries.map StoredProfile.persisted) := by
  intro h
  obtain ⟨db, haccepted⟩ := accepted_delayed 1500000 (by decide +kernel)
  have hlisted := h none _ db haccepted plainMachine.isDir
  obtain ⟨heq, -⟩ := (listProfiles_eq_ok haccepted.stores).mp hlisted
  revert heq
  decide +kernel

end SyncPlus
