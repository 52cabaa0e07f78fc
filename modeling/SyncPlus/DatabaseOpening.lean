import SyncPlus.BackupSnapshot
import SyncPlus.Lib.Interruptions
import SyncPlus.Migrations

/-!
# Opening the database

`open_canonical_path`: a database that is there is backed up when its schema version is
less than 20, and then migrated, one transaction for each version. The process may stop
between any two of its steps, and is started again on what is left; in between, anything
but the live database may change (`Reopened`).

What holds in every such state: the rows of the database that was there are there with
their values, it is one of a supported version, and nothing but the greatest run
identifier can keep the next opening from the current one (`reopened_keeps_rows`,
`openCanonicalPath_current_iff`). A migration from a version below 20 is committed only
when a backup of what was opened is there; from the versions 20 and 21 none is made
(`backed_up_iff`).
-/

namespace SyncPlus

/-! ## The code -/

/-- What SQLite leaves in the files of the live database when it commits this content,
and the file it makes of a snapshot. -/
structure DatabaseEngine where
  commit : AppFiles → ApplicationTables → DatabasePart → Option FileNode
  vacuum : ApplicationTables → List UInt8

structure ApplicationData where
  files : AppFiles
  /-- What a connection reads from the live database. -/
  database : ApplicationTables

structure OpenAnswer where
  fails : Bool
  now : Int64
  /-- The answers to the calls of a backup or a quarantine. -/
  calls : Nat → FsAnswer

inductive OpenSite where
  | plain
  | existence
  | backup
  | quarantine
  | migration (version : Nat)

inductive OpenFailure where
  | versionUnread
  | backupFailed (error : BackupError)
  | corruptEvidence

inductive QuarantineOutcome where
  | notPrepared
  | stillHealthy
  | failed (error : BackupError)
  | quarantined (path : AppPath)

/-- The errors an opening ends with. -/
inductive OpenError where
  | io
  | unsafeDatabasePath
  | sqlite
  | corruptEvidence
  | backupNotPrepared
  | backupFailed (error : BackupError)
  | openFailure (failure : OpenFailure) (outcome : QuarantineOutcome)

abbrev Opening := Procedure OpenAnswer ApplicationData OpenSite Unit OpenError

def AppFiles.withLive (files : AppFiles) (parts : DatabasePart → Option FileNode) : AppFiles
  | .live part => parts part
  | path => files path

namespace ApplicationData

variable (engine : DatabaseEngine) (data : ApplicationData)

def commit (database : ApplicationTables) : ApplicationData where
  files := data.files.withLive (engine.commit data.files database)
  database := database

def connection : LiveConnection where
  intact := decide (data.database.Intact applicationSchema)
  snapshot := engine.vacuum data.database

end ApplicationData

/-- A call that fails, or does what `f` says. -/
def openCall {α : Type} (site : OpenSite) (error : OpenError)
    (f : OpenAnswer → ApplicationData → Except OpenError (α × ApplicationData)) : Opening α :=
  .call site fun answer data =>
    if answer.fails then (.error error, data)
    else
      match f answer data with
      | .ok (a, data') => (.ok a, data')
      | .error e => (.error e, data)

/-- Calls that change no file of the application and no table. -/
def openTouch (error : OpenError) : Opening Unit :=
  openCall .plain error fun _ data => .ok ((), data)

section

variable (format : DatabaseFormat) (compress : List UInt8 → List UInt8)
  (engine : DatabaseEngine)

def openCanonicalConnection : Opening Unit :=
  openCall .plain .io fun _ data =>
    match data.files (.live .database) with
    | some (.file _) => .ok ((), data)
    | some .other => .error .io
    | none =>
        .ok ((), ⟨data.files.set (.live .database) (some (.file [])), SqlDatabase.empty⟩)

/-- The database path is not one of a symbolic link or a directory, as far as can be seen. -/
def checkDatabasePath : Opening Unit :=
  .call .plain fun answer data =>
    (ensure (answer.fails = true ∨
      ∀ node ∈ data.files (.live .database), node.isFile = true) .unsafeDatabasePath, data)

def existedBeforeOpen : Opening Bool :=
  .call .existence fun answer data =>
    (.ok (!answer.fails && (data.files (.live .database)).isSome), data)

def userVersion : Opening Int :=
  openCall .plain .sqlite fun _ data => .ok (data.database.version, data)

/-- `quarantine_live_database`, as one step. -/
def quarantineStep : Opening (Except BackupError AppPath) :=
  .call .quarantine fun answer data =>
    let outcome := (quarantineLiveDatabase format).outcome answer.calls 0 data.files
    (.ok outcome.1, { data with files := outcome.2 })

def quarantineAfterOpenFailure {α : Type} (failure : OpenFailure) : Opening α := do
  match ← (openTouch .backupNotPrepared).attempt with
  | .error _ => .ofExcept (.error (.openFailure failure .notPrepared))
  | .ok () =>
      match ← quarantineStep format with
      | .ok path => .ofExcept (.error (.openFailure failure (.quarantined path)))
      | .error .liveDatabaseHealthy => .ofExcept (.error (.openFailure failure .stillHealthy))
      | .error e => .ofExcept (.error (.openFailure failure (.failed e)))

/-- `create_validated_backup`, as one step. -/
def backupStep : Opening (Except BackupError Name) :=
  .call .backup fun answer data =>
    let outcome := (createValidatedBackup format compress (data.connection engine)).outcome
      answer.calls 0 data.files
    (.ok outcome.1, { data with files := outcome.2 })

/-- The backup of a database that is going to be migrated. -/
def backUp : Opening Unit := do
  openTouch .backupNotPrepared
  match ← backupStep format compress engine with
  | .ok _ => return ()
  | .error .integrity => quarantineAfterOpenFailure format (.backupFailed .integrity)
  | .error .sqlite => quarantineAfterOpenFailure format (.backupFailed .sqlite)
  | .error e => .ofExcept (.error (.backupFailed e))

/-- What precedes the migrations, of a database that was there. -/
def prepareMigration (existed : Bool) : Opening Unit := do
  if existed then
    match ← userVersion.attempt with
    | .error _ => quarantineAfterOpenFailure format .versionUnread
    | .ok version => if version < 20 then backUp format compress engine else return ()
  else return ()

def verifyIntegrity : Opening Unit :=
  openCall .plain .sqlite fun _ data => do
    ensure (data.database.Intact applicationSchema) .corruptEvidence
    return ((), data)

/-- `PRAGMA journal_mode = WAL`, which may write the files. -/
def enableWriteAheadLog : Opening Unit :=
  openCall .plain .sqlite fun _ data => .ok ((), data.commit engine data.database)

/-- The transaction of one migration. -/
def migrateOnce (version : Nat) : Opening Unit :=
  openCall (.migration version) .sqlite fun answer data =>
    match migrationTransaction answer.now data.database version with
    | .ok database => .ok ((), data.commit engine database)
    | .error (.sqlite _) => .error .sqlite
    | .error .integrityCheckFailed => .error .corruptEvidence

/-- The chain of `if version == …`, over the version that was read. -/
def migrateFrom (version : Int) : List Nat → Opening Unit
  | [] => return ()
  | n :: rest =>
      if version = n then do
        migrateOnce engine n
        migrateFrom (n + 1) rest
      else migrateFrom version rest

def fromConnection : Opening Unit := do
  openTouch .sqlite
  openTouch .sqlite
  enableWriteAheadLog engine
  openTouch .sqlite
  let version ← userVersion
  Procedure.ofExcept (ensure (version ≤ 22) .corruptEvidence)
  verifyIntegrity
  migrateFrom engine version (List.range 22)
  verifyIntegrity

/-- `from_connection` as `open_canonical_path` calls it. -/
def openStore : Opening Unit := do
  match ← (fromConnection engine).attempt with
  | .ok () => openTouch .io
  | .error .corruptEvidence => quarantineAfterOpenFailure format .corruptEvidence
  | .error e => .ofExcept (.error e)

def openCanonicalPath : Opening Unit := do
  openTouch .unsafeDatabasePath
  openTouch .io
  openTouch .io
  checkDatabasePath
  let existed ← existedBeforeOpen
  openCanonicalConnection
  prepareMigration format compress engine existed
  openStore format engine

end

/-! ## The rules of a run -/

section

variable (format : DatabaseFormat) (compress : List UInt8 → List UInt8)
  (engine : DatabaseEngine)

/-- SQLite writes a database whose constraints hold so that it is found intact. -/
structure DatabaseEngine.Sound : Prop where
  commit : ∀ (files : AppFiles) (database : ApplicationTables),
    database.Intact applicationSchema →
      Healthy format (files.withLive (engine.commit files database))
  vacuum : ∀ database : ApplicationTables, database.Intact applicationSchema →
    format.integrityOk (engine.vacuum database) none none = true

/-- What the environment may answer: the look at a file that is there does not fail, the
clock is not one before 1970, and a quarantine is answered as it has to be. -/
def OpenAllows : OpenSite → OpenAnswer → ApplicationData → Prop
  | .existence, answer, _ => answer.fails = false
  | .migration _, answer, _ => 0 ≤ answer.now
  | .quarantine, answer, data =>
      (quarantineLiveDatabase format).AllowedSince (Allows format) answer.calls 0 data.files
  | _, _, _ => True

/-- An opening in which no call fails and a backup that is asked for is made. -/
def OpenUndisturbed (site : OpenSite) (answer : OpenAnswer) (data : ApplicationData) : Prop :=
  OpenAllows format site answer data ∧ match site with
    | .backup => ((createValidatedBackup format compress (data.connection engine)).outcome
        answer.calls 0 data.files).1.isOk = true
    | _ => answer.fails = false

/-- Openings that may stop anywhere lead from one state to another. In between all but the
live database may change. -/
inductive Reopened (start : ApplicationData) : ApplicationData → Prop
  | start : Reopened start start
  | opening {data : ApplicationData} {answers : Nat → OpenAnswer} (k : Nat) :
      Reopened start data →
      (openCanonicalPath format compress engine).AllowedSince (OpenAllows format) answers 0 data →
        Reopened start
          ((openCanonicalPath format compress engine).interrupted answers 0 k data)
  | elsewhere {data : ApplicationData} {files : AppFiles} : Reopened start data →
      SameLive data.files files → Reopened start { data with files := files }

end

/-- Nothing but run identifiers that cannot be counted on stands against the migrations. -/
def Migratable (version : Nat) (database : ApplicationTables) : Prop :=
  version ≤ 15 → RunIdsFit database

/-- A database of a supported version with the rows of an earlier one. -/
structure Migrated (version : Nat) (before after : ApplicationTables) (now : Nat) : Prop where
  le : version ≤ now
  current : now ≤ 22
  supported : Supported now after
  rows : before.ExtendsOn (· ≠ .runIdSequence) after
  migratable : Migratable now after ↔ Migratable version before

namespace Migrated

variable {version now now' : Nat} {before db after : ApplicationTables}

theorem refl (h : Supported version db) (hversion : version ≤ 22) :
    Migrated version db db version :=
  ⟨Nat.le_refl _, hversion, h, .refl, Iff.rfl⟩

theorem trans (h : Migrated version before db now) (h' : Migrated now db after now') :
    Migrated version before after now' where
  le := Nat.le_trans h.le h'.le
  current := h'.current
  supported := h'.supported
  rows := h.rows.trans h'.rows
  migratable := h'.migratable.trans h.migratable

/-- A transaction that is committed is the next migration. -/
theorem committed {clock : Int64} (h : Supported now db) (hnow : now < 22) (hclock : 0 ≤ clock)
    (hcommit : migrationTransaction clock db now = .ok after) :
    Migrated now db after (now + 1) := by
  have hids : now = 15 → RunIdsFit db := by
    rintro rfl
    exact h.runIdsFit hcommit
  obtain ⟨db', hcommit', hsupported, hrows, hfit⟩ := h.migrationTransaction hnow hids hclock
  obtain rfl : db' = after := Except.ok.inj (hcommit'.symm.trans hcommit)
  refine ⟨Nat.le_succ _, hnow, hsupported, hrows, ?_⟩
  unfold Migratable
  rcases Nat.lt_trichotomy now 15 with hlt | rfl | hgt
  · rw [hfit hlt]
    exact ⟨fun h _ => h hlt, fun h _ => h (Nat.le_of_lt hlt)⟩
  · exact ⟨fun _ _ => hids rfl, fun _ h => absurd h (by decide)⟩
  · exact ⟨fun _ h => absurd h (by omega), fun _ h => absurd h (by omega)⟩

end Migrated

/-! ## Openings at every step -/

section

variable {format : DatabaseFormat} {compress : List UInt8 → List UInt8}
  {engine : DatabaseEngine} {version : Nat} {start : ApplicationTables} {data : ApplicationData}
  {allows : OpenSite → OpenAnswer → ApplicationData → Prop} {I : ApplicationData → Prop}

theorem keeps_openCall {α : Type} {site : OpenSite} {error : OpenError}
    {f : OpenAnswer → ApplicationData → Except OpenError (α × ApplicationData)}
    {Q : Except OpenError α → ApplicationData → Prop} (hI : I data)
    (hok : ∀ answer, allows site answer data → answer.fails = false → ∀ a data',
      f answer data = .ok (a, data') → I data' ∧ Q (.ok a) data')
    (herror : ∀ e, Q (.error e) data) : (openCall site error f).Keeps allows I Q data := by
  refine .call hI fun answer hallows => ?_
  cases hanswer : answer.fails with
  | true => exact ⟨hI, herror _⟩
  | false =>
      cases hf : f answer data with
      | ok result => exact hok answer hallows hanswer _ _ hf
      | error e => exact ⟨hI, herror e⟩

theorem keeps_openTouch {error : OpenError} (hI : I data) :
    (openTouch error).Keeps allows I (fun _ t => t = data) data :=
  keeps_openCall hI (by rintro _ _ _ _ _ ⟨⟩; exact ⟨hI, rfl⟩) fun _ => rfl

theorem keeps_userVersion (hI : I data) : userVersion.Keeps allows I
    (fun r t => t = data ∧ ∀ version, r = .ok version → version = data.database.version) data :=
  keeps_openCall hI (by rintro _ _ _ _ _ ⟨⟩; exact ⟨hI, rfl, by rintro _ ⟨⟩; rfl⟩)
    fun _ => ⟨rfl, nofun⟩

/-- What an opening has come to, the backups being such as `F` says. -/
def Progress (format : DatabaseFormat) (version : Nat) (start : ApplicationTables)
    (F : AppFiles → Prop) (data : ApplicationData) : Prop :=
  (∃ now, Migrated version start data.database now) ∧ Healthy format data.files ∧ F data.files

/-- Nothing but the backups matters. -/
def OfBackups (F : AppFiles → Prop) : Prop :=
  ∀ s t : AppFiles, (∀ name, t (.backup name) = s (.backup name)) → F s → F t

variable {F : AppFiles → Prop}

/-- A quarantine leaves a healthy database, and the backups. -/
theorem keeps_quarantineAfterOpenFailure {α : Type} {failure : OpenFailure}
    (hhealthy : Healthy format data.files) (hI : I data)
    (hkept : ∀ files, SameLive data.files files →
      (∀ name, files (.backup name) = data.files (.backup name)) → I { data with files := files }) :
    (quarantineAfterOpenFailure format failure : Opening α).Keeps (OpenAllows format) I
      (fun r t => t.database = data.database ∧ ∃ e, r = .error e) data := by
  refine .bind (P := fun _ t => t = data) (.attempt (keeps_openTouch hI)) ?_
    (by rintro e _ - rfl; exact ⟨rfl, e, rfl⟩)
  rintro (e | u) data - rfl
  · exact .ofExcept hI ⟨rfl, _, rfl⟩
  · refine .bind (P := fun _ t => t.database = data.database)
      (.call hI fun answer hallows => ⟨?_, rfl⟩) ?_ fun e _ _ h => ⟨h, e, rfl⟩
    · obtain ⟨hretains, hbackups, -⟩ := (Procedure.returnsUnder_outcome hallows).of_ensures
        ensures_quarantineLiveDatabase
      exact hkept _ (hretains.healthy hhealthy) hbackups
    · intro r t ht hsame
      split
      · exact .ofExcept ht ⟨hsame, _, rfl⟩
      · exact .ofExcept ht ⟨hsame, _, rfl⟩
      · exact .ofExcept ht ⟨hsame, _, rfl⟩

theorem SameLive.healthy {files files' : AppFiles} (h : SameLive files files')
    (hhealthy : Healthy format files) : Healthy format files' := by
  obtain ⟨bytes, hlive, hok⟩ := hhealthy
  exact ⟨bytes, by rw [h, hlive], by rw [h, h, hok]⟩

theorem Progress.quarantined (hF : OfBackups F) (h : Progress format version start F data)
    {files : AppFiles} (hlive : SameLive data.files files)
    (hbackups : ∀ name, files (.backup name) = data.files (.backup name)) :
    Progress format version start F { data with files := files } :=
  ⟨h.1, hlive.healthy h.2.1, hF _ _ hbackups h.2.2⟩

/-- A database that is committed is found healthy, and the backups stay. -/
theorem Progress.commit (hengine : engine.Sound format) (hF : OfBackups F)
    (h : Progress format version start F data) {database : ApplicationTables} {now : Nat}
    (hmigrated : Migrated version start database now) :
    Progress format version start F (data.commit engine database) :=
  ⟨⟨now, hmigrated⟩, hengine.commit _ _ hmigrated.supported.built.intact,
    hF data.files _ (fun _ => rfl) h.2.2⟩

theorem keeps_migrateFrom (hengine : engine.Sound format) (hF : OfBackups F) (count first : Nat)
    {now : Nat} (hlast : first + count = 22) (hfirst : first ≤ now)
    (h : Progress format version start F data) (hnow : Migrated version start data.database now) :
    (migrateFrom engine now (List.range' first count)).Keeps (OpenAllows format)
      (Progress format version start F)
      (fun r t => ∀ u, r = .ok u → Migrated version start t.database 22) data := by
  induction count generalizing first now data with
  | zero =>
      obtain rfl : now = 22 := by have := hnow.current; omega
      exact .pure h fun _ _ => hnow
  | succ count ih =>
      rw [List.range'_succ, migrateFrom]
      by_cases heq : (now : Int) = first
      · rw [if_pos heq]
        obtain rfl : now = first := Int.ofNat_inj.mp heq
        refine .bind (P := fun r t => ∀ u, r = .ok u → Migrated version start t.database (now + 1))
          (keeps_openCall h ?_ fun _ => nofun) ?_ fun _ _ _ _ => nofun
        · intro answer hallows _ u data' hcommit
          cases hmigrate : migrationTransaction answer.now data.database now with
          | ok database =>
              rw [hmigrate] at hcommit
              cases hcommit
              have hnext := hnow.trans
                (.committed hnow.supported (by omega) hallows hmigrate)
              exact ⟨h.commit hengine hF hnext, fun _ _ => hnext⟩
          | error e =>
              rw [hmigrate] at hcommit
              cases e <;> cases hcommit
        · intro u t ht hnext
          exact ih (now + 1) (by omega) (Nat.le_refl _) ht (hnext u rfl)
      · rw [if_neg heq]
        exact ih (first + 1) (by omega) (by omega) h hnow

theorem keeps_verifyIntegrity (hI : I data) :
    verifyIntegrity.Keeps allows I (fun _ t => t = data) data := by
  refine keeps_openCall hI ?_ fun _ => rfl
  intro _ _ _ u data' hcheck
  obtain ⟨_, -, hcheck⟩ := bind_eq_ok.mp hcheck
  cases hcheck
  exact ⟨hI, rfl⟩

theorem keeps_fromConnection (hengine : engine.Sound format) (hF : OfBackups F)
    (h : Progress format version start F data) :
    (fromConnection engine).Keeps (OpenAllows format) (Progress format version start F)
      (fun _ _ => True) data := by
  refine .bind (keeps_openTouch h) ?_ fun _ _ _ _ => trivial
  rintro _ _ - rfl
  refine .bind (keeps_openTouch h) ?_ fun _ _ _ _ => trivial
  rintro _ data - rfl
  obtain ⟨now, hnow⟩ := h.1
  refine .bind (P := fun _ t => t.database = data.database) (keeps_openCall h ?_ fun _ => rfl) ?_
    fun _ _ _ _ => trivial
  · rintro _ _ _ _ _ ⟨⟩
    exact ⟨h.commit hengine hF hnow, rfl⟩
  intro _ data₁ h hsame
  rw [← hsame] at hnow
  refine .bind (keeps_openTouch h) ?_ fun _ _ _ _ => trivial
  rintro _ data₁ - rfl
  refine .bind (keeps_userVersion h) ?_ fun _ _ _ _ => trivial
  rintro read data₁ - ⟨rfl, hread⟩
  obtain rfl := (hread read rfl).trans hnow.supported.version_eq
  refine .bind (P := fun _ t => t = data₁) (.ofExcept h rfl) ?_ fun _ _ _ _ => trivial
  rintro _ data₁ - rfl
  refine .bind (keeps_verifyIntegrity h) ?_ fun _ _ _ _ => trivial
  rintro _ data₁ - rfl
  refine .bind (List.range_eq_range' ▸ keeps_migrateFrom hengine hF 22 0 rfl (Nat.zero_le _) h hnow)
    ?_ fun _ _ _ _ => trivial
  intro _ data₂ h _
  exact (keeps_verifyIntegrity h).mono (fun _ ht => ht) fun _ _ _ _ => trivial

theorem keeps_openStore (hengine : engine.Sound format) (hF : OfBackups F)
    (h : Progress format version start F data) :
    (openStore format engine).Keeps (OpenAllows format) (Progress format version start F)
      (fun _ _ => True) data := by
  refine .bind (P := fun _ _ => True) (.attempt (keeps_fromConnection hengine hF h)) ?_
    fun _ _ _ _ => trivial
  intro r t ht _
  split
  · exact (keeps_openTouch ht).mono (fun _ h => h) fun _ _ _ _ => trivial
  · exact (keeps_quarantineAfterOpenFailure ht.2.1 ht fun _ => ht.quarantined hF).mono
      (fun _ h => h) fun _ _ _ _ => trivial
  · exact .ofExcept ht trivial

/-- A database that is there is seen, and is the one that is opened. -/
theorem keeps_beginning {Q : Except OpenError Unit → ApplicationData → Prop}
    {p : Bool → Opening Unit} (hhealthy : Healthy format data.files) (hI : I data)
    (hp : (p true).Keeps (OpenAllows format) I Q data) (herror : ∀ e, Q (.error e) data) :
    (do
      openTouch .unsafeDatabasePath
      openTouch .io
      openTouch .io
      checkDatabasePath
      let existed ← existedBeforeOpen
      openCanonicalConnection
      p existed : Opening Unit).Keeps (OpenAllows format) I Q data := by
  obtain ⟨bytes, hlive, -⟩ := hhealthy
  refine .bind (keeps_openTouch hI) ?_ (by rintro e _ - rfl; exact herror e)
  rintro _ data - rfl
  refine .bind (keeps_openTouch hI) ?_ (by rintro e _ - rfl; exact herror e)
  rintro _ data - rfl
  refine .bind (keeps_openTouch hI) ?_ (by rintro e _ - rfl; exact herror e)
  rintro _ data - rfl
  refine .bind (P := fun _ t => t = data) (.call hI fun _ _ => ⟨hI, rfl⟩) ?_
    (by rintro e _ - rfl; exact herror e)
  rintro _ data - rfl
  refine .bind (P := fun r t => t = data ∧ r = .ok true) (.call hI fun answer hallows => ⟨hI, rfl, ?_⟩)
    ?_ (by rintro e _ - ⟨rfl, -⟩; exact herror e)
  · rw [hlive, show answer.fails = false from hallows]
    rfl
  rintro existed data - ⟨rfl, heq⟩
  cases heq
  refine .bind (P := fun _ t => t = data) (keeps_openCall hI ?_ fun _ => rfl) ?_
    (by rintro e _ - rfl; exact herror e)
  · intro _ _ _ u data' hopened
    rw [hlive] at hopened
    cases hopened
    exact ⟨hI, rfl⟩
  rintro _ data - rfl
  exact hp

/-- The version that decides about a backup is the one of the database. -/
theorem keeps_prepareMigration {Q : Except OpenError Unit → ApplicationData → Prop}
    (hI : I data)
    (hunread : (quarantineAfterOpenFailure format .versionUnread : Opening Unit).Keeps
      (OpenAllows format) I Q data)
    (hbackUp : data.database.version < 20 →
      (backUp format compress engine).Keeps (OpenAllows format) I Q data)
    (hno : 20 ≤ data.database.version → Q (.ok ()) data) :
    (prepareMigration format compress engine true).Keeps (OpenAllows format) I Q data := by
  refine .bind (P := fun r t => t = data ∧ ∃ read, r = .ok read ∧
      ∀ version, read = .ok version → version = data.database.version)
    (.attempt ((keeps_userVersion hI).mono (fun _ h => h) fun r t _ h => ⟨h.1, r, rfl, h.2⟩)) ?_
    (by rintro e t - ⟨-, _, hr, -⟩; cases hr)
  rintro r t - ⟨rfl, _, hr, hread⟩
  cases hr
  cases r with
  | error e => exact hunread
  | ok version =>
      obtain rfl := hread version rfl
      show (if _ then _ else _ : Opening Unit).Keeps _ _ _ _
      split
      · exact hbackUp ‹_›
      · exact .pure hI (hno (Int.not_lt.mp ‹_›))

/-- From version 20 on the backups are left as they are. -/
theorem keeps_openCanonicalPath (hengine : engine.Sound format) (hF : OfBackups F)
    (hversion : 20 ≤ data.database.version) (h : Progress format version start F data) :
    (openCanonicalPath format compress engine).Keeps (OpenAllows format)
      (Progress format version start F) (fun _ _ => True) data := by
  refine keeps_beginning (p := fun existed => do
    prepareMigration format compress engine existed
    openStore format engine) h.2.1 h ?_ fun _ => trivial
  refine .bind (P := fun _ _ => True) (keeps_prepareMigration h ?_ (fun hlt => ?_) fun _ => trivial)
    (fun _ _ ht _ => keeps_openStore hengine hF ht) fun _ _ _ _ => trivial
  · exact (keeps_quarantineAfterOpenFailure h.2.1 h fun _ => h.quarantined hF).mono
      (fun _ h => h) fun _ _ _ _ => trivial
  · exact absurd hversion (Int.not_le.mpr hlt)

/-- A backup of this content is there. -/
def BackedUp (format : DatabaseFormat) (engine : DatabaseEngine) (database : ApplicationTables)
    (files : AppFiles) : Prop :=
  ∃ name, BackupOf format (engine.vacuum database) files name

theorem ofBackups_backedUp {database : ApplicationTables} :
    OfBackups (BackedUp format engine database) :=
  fun _ _ hsame ⟨name, h⟩ => ⟨name, h.of_same (hsame name)⟩

/-- The database has not changed yet, and is healthy. -/
def Unmigrated (format : DatabaseFormat) (database : ApplicationTables) (data : ApplicationData) :
    Prop :=
  data.database = database ∧ Healthy format data.files

/-- A backup that is made is one of what was opened. -/
theorem keeps_backUp (hcompress : ∀ bytes, format.decompress (compress bytes) = some bytes)
    (hhealthy : Healthy format data.files) :
    (backUp format compress engine).Keeps (OpenAllows format) (Unmigrated format data.database)
      (fun r t => ∀ u, r = .ok u → BackedUp format engine data.database t.files) data := by
  have hI : Unmigrated format data.database data := ⟨rfl, hhealthy⟩
  refine .bind (keeps_openTouch hI) ?_ fun _ _ _ _ => nofun
  rintro _ data - rfl
  refine .bind (P := fun r t => ∃ made, r = .ok made ∧
      ∀ name, made = .ok name → BackedUp format engine data.database t.files)
    (.call hI fun answer _ => ?_) ?_ fun _ _ _ _ => nofun
  · obtain ⟨hlive, hmade⟩ := (Procedure.returnsUnder_outcome
      (Procedure.allowedSince_of_forall (fun _ _ _ => trivial) 0 _ data.files)).of_ensures
        (ensures_createValidatedBackup hcompress)
    exact ⟨⟨rfl, hlive.healthy hhealthy⟩, _, rfl, fun name hname => ⟨name, hmade name hname⟩⟩
  · rintro made t ht ⟨_, hr, hmade⟩
    cases hr
    have hquarantine : ∀ failure, (quarantineAfterOpenFailure format failure : Opening Unit).Keeps
        (OpenAllows format) (Unmigrated format data.database)
          (fun r t => ∀ u, r = .ok u → BackedUp format engine data.database t.files) t := by
      intro failure
      refine (keeps_quarantineAfterOpenFailure ht.2 ht fun files hlive _ =>
        ⟨ht.1, hlive.healthy ht.2⟩).mono (fun _ h => h) ?_
      rintro _ _ - ⟨-, e, rfl⟩
      nofun
    split
    · exact .pure ht fun _ _ => hmade _ rfl
    · exact hquarantine _
    · exact hquarantine _
    · exact .ofExcept ht nofun

/-- What an opening of a database below version 20 keeps: a migration needs the backup. -/
def Guarded (format : DatabaseFormat) (engine : DatabaseEngine) (version : Nat)
    (database : ApplicationTables) (data : ApplicationData) : Prop :=
  Unmigrated format database data ∨
    Progress format version database (BackedUp format engine database) data

theorem keeps_openCanonicalPath_of_lt
    (hcompress : ∀ bytes, format.decompress (compress bytes) = some bytes)
    (hengine : engine.Sound format) (hsupported : Supported version data.database)
    (hversion : version < 20) (hhealthy : Healthy format data.files) :
    (openCanonicalPath format compress engine).Keeps (OpenAllows format)
      (Guarded format engine version data.database) (fun _ _ => True) data := by
  have hunmigrated : Unmigrated format data.database data := ⟨rfl, hhealthy⟩
  have hprepared : (prepareMigration format compress engine true).Keeps (OpenAllows format)
      (Unmigrated format data.database)
      (fun r t => ∀ u, r = .ok u → BackedUp format engine data.database t.files) data := by
    refine keeps_prepareMigration hunmigrated ?_ (fun _ => keeps_backUp hcompress hhealthy) ?_
    · refine (keeps_quarantineAfterOpenFailure hhealthy hunmigrated fun files hlive _ =>
        ⟨rfl, hlive.healthy hhealthy⟩).mono (fun _ h => h) ?_
      rintro _ _ - ⟨-, e, rfl⟩
      nofun
    · intro hle
      have := hsupported.version_eq
      omega
  refine keeps_beginning (p := fun existed => do
    prepareMigration format compress engine existed
    openStore format engine) hhealthy (.inl hunmigrated) ?_ fun _ => trivial
  refine .bind (P := fun r t => Unmigrated format data.database t ∧
      ∀ u, r = .ok u → BackedUp format engine data.database t.files)
    (hprepared.mono (fun _ h => .inl h) fun r t hI h => ⟨hI, h⟩) ?_ fun _ _ _ _ => trivial
  rintro u t - ⟨⟨hsame, hstill⟩, hbackup⟩
  have hstart : Progress format version data.database
      (BackedUp format engine data.database) t :=
    ⟨⟨version, hsame ▸ .refl (hsame ▸ hsupported) (by omega)⟩, hstill, hbackup u rfl⟩
  exact (keeps_openStore hengine ofBackups_backedUp hstart).mono (fun _ h => .inr h)
    fun _ _ _ h => h

theorem Guarded.progress (h : Guarded format engine version start data)
    (hsupported : Supported version start) (hversion : version ≤ 22) :
    Progress format version start (fun _ => True) data := by
  rcases h with ⟨hsame, hhealthy⟩ | ⟨hmigrated, hhealthy, -⟩
  · refine ⟨⟨version, ?_⟩, hhealthy, trivial⟩
    rw [hsame]
    exact .refl hsupported hversion
  · exact ⟨hmigrated, hhealthy, trivial⟩

/-- Wherever an opening stops, the database is one of a supported version. -/
theorem progress_interrupted (hcompress : ∀ bytes, format.decompress (compress bytes) = some bytes)
    (hengine : engine.Sound format) {answers : Nat → OpenAnswer}
    (h : Progress format version start (fun _ => True) data)
    (hallowed : (openCanonicalPath format compress engine).AllowedSince (OpenAllows format)
      answers 0 data) (k : Nat) :
    Progress format version start (fun _ => True)
      ((openCanonicalPath format compress engine).interrupted answers 0 k data) := by
  obtain ⟨⟨now, hnow⟩, hhealthy, -⟩ := h
  have hversion := hnow.supported.version_eq
  by_cases hlt : now < 20
  · have hguarded := (keeps_openCanonicalPath_of_lt hcompress hengine hnow.supported hlt
      hhealthy).interrupted hallowed k
    obtain ⟨⟨now', hnow'⟩, hstill⟩ := hguarded.progress hnow.supported hnow.current
    exact ⟨⟨now', hnow.trans hnow'⟩, hstill⟩
  · exact (keeps_openCanonicalPath hengine (fun _ _ _ _ => trivial) (by omega)
      ⟨⟨now, hnow⟩, hhealthy, trivial⟩).interrupted hallowed k

theorem Reopened.progress (hcompress : ∀ bytes, format.decompress (compress bytes) = some bytes)
    (hengine : engine.Sound format) {start : ApplicationData}
    (hsupported : Supported version start.database) (hversion : version ≤ 22)
    (hhealthy : Healthy format start.files)
    (h : Reopened format compress engine start data) :
    Progress format version start.database (fun _ => True) data := by
  induction h with
  | start => exact ⟨⟨version, .refl hsupported hversion⟩, hhealthy, trivial⟩
  | opening k _ hallowed ih => exact progress_interrupted hcompress hengine ih hallowed k
  | elsewhere _ hlive ih => exact ⟨ih.1, hlive.healthy ih.2.1, trivial⟩

/-- **Rows are kept.** However often the process stopped while it opened the database, that
is one of a supported version, with every row of the one that was there. -/
theorem reopened_keeps_rows
    (hcompress : ∀ bytes, format.decompress (compress bytes) = some bytes)
    (hengine : engine.Sound format) {start : ApplicationData}
    (hsupported : Supported version start.database) (hversion : version ≤ 22)
    (hhealthy : Healthy format start.files)
    (h : Reopened format compress engine start data) :
    (∃ now, Migrated version start.database data.database now) ∧ Healthy format data.files := by
  obtain ⟨hmigrated, hstill, -⟩ := h.progress hcompress hengine hsupported hversion hhealthy
  exact ⟨hmigrated, hstill⟩

end

/-! ## Openings that are not disturbed -/

section

variable {format : DatabaseFormat} {compress : List UInt8 → List UInt8}
  {engine : DatabaseEngine} {version : Nat} {start : ApplicationTables} {data : ApplicationData}

theorem returns_openCall {α : Type} {allows : OpenSite → OpenAnswer → ApplicationData → Prop}
    {site : OpenSite} {error : OpenError}
    {f : OpenAnswer → ApplicationData → Except OpenError (α × ApplicationData)} {a : α}
    {data' : ApplicationData} (answer : OpenAnswer) (hallows : allows site answer data)
    (hfails : answer.fails = false) (hf : f answer data = .ok (a, data')) :
    (openCall site error f).ReturnsUnder allows data (.ok a) data' := by
  refine .call answer hallows ?_
  simp only [hfails, hf]
  rfl

/-- An answer without a failure, in 1970. -/
def plainAnswer : OpenAnswer := ⟨false, 0, fun _ => ⟨false, (0, 0), [], []⟩⟩

/-- The transactions that are left can be committed one after the other. -/
theorem returns_migrateFrom (count first : Nat) {now : Nat} (hlast : first + count = 22)
    (hfirst : first ≤ now) (hnow : 16 ≤ now) (hcurrent : now ≤ 22)
    (h : Supported now data.database) :
    ∃ t, (migrateFrom engine now (List.range' first count)).ReturnsUnder (OpenAllows format)
      data (.ok ()) t ∧ Supported 22 t.database ∧
        ∀ name, t.files (.backup name) = data.files (.backup name) := by
  induction count generalizing first now data with
  | zero =>
      obtain rfl : now = 22 := by omega
      exact ⟨data, .done, h, fun _ => rfl⟩
  | succ count ih =>
      rw [List.range'_succ, migrateFrom]
      by_cases heq : (now : Int) = first
      · rw [if_pos heq]
        obtain rfl : now = first := Int.ofNat_inj.mp heq
        obtain ⟨database, hcommit, hnext, -⟩ := h.migrationTransaction (by omega)
          (fun h15 => absurd h15 (by omega)) (Int64.le_refl 0)
        have hnext' : Supported (now + 1) (data.commit engine database).database := hnext
        obtain ⟨t, hrest, hsupported, hbackups⟩ := ih (now + 1) (by omega) (Nat.le_refl _)
          (by omega) (by omega) hnext'
        refine ⟨t, .bind (a := ()) (returns_openCall plainAnswer (Int64.le_refl 0) rfl ?_) hrest,
          hsupported, hbackups⟩
        simp only [plainAnswer, hcommit]
      · rw [if_neg heq]
        exact ih (first + 1) (by omega) (by omega) hnow hcurrent h

theorem returns_openTouch {error : OpenError} :
    (openTouch error).ReturnsUnder (OpenAllows format) data (.ok ()) data :=
  returns_openCall plainAnswer trivial rfl rfl

theorem returns_verifyIntegrity (h : data.database.Intact applicationSchema) :
    verifyIntegrity.ReturnsUnder (OpenAllows format) data (.ok ()) data :=
  returns_openCall plainAnswer trivial rfl (bind_ok (ensure_of h))

/-- A database of the version 20 or 21 can be opened, and no backup is made. -/
theorem returns_openCanonicalPath {now : Nat} (hhealthy : Healthy format data.files)
    (h : Supported now data.database) (hnow : 20 ≤ now) (hcurrent : now ≤ 22) :
    ∃ t, (openCanonicalPath format compress engine).ReturnsUnder (OpenAllows format) data
      (.ok ()) t ∧ t.database.version = 22 ∧
        ∀ name, t.files (.backup name) = data.files (.backup name) := by
  obtain ⟨bytes, hlive, -⟩ := hhealthy
  have hversion := h.version_eq
  let data₁ := data.commit engine data.database
  have h₁ : Supported now data₁.database := h
  obtain ⟨t, hmigrated, hsupported, hbackups⟩ : ∃ t, (migrateFrom engine now
      (List.range' 0 22)).ReturnsUnder (OpenAllows format) data₁ (.ok ()) t ∧ _ :=
    returns_migrateFrom 22 0 rfl (Nat.zero_le _) (by omega) hcurrent h₁
  refine ⟨t, ?_, hsupported.version_eq, hbackups⟩
  have hconnection : (fromConnection engine).ReturnsUnder (OpenAllows format) data (.ok ()) t := by
    refine .bind (a := ()) returns_openTouch (.bind (a := ()) returns_openTouch ?_)
    refine .bind (a := ()) (t := data₁) (returns_openCall plainAnswer trivial rfl rfl) ?_
    refine .bind (a := ()) returns_openTouch ?_
    refine .bind (a := data₁.database.version) (returns_openCall plainAnswer trivial rfl rfl) ?_
    refine .bind (a := ()) (t := data₁) ?_ ?_
    · have hle : data₁.database.version ≤ 22 := by
        show data.database.version ≤ 22
        omega
      rw [ensure_of hle]
      exact .done
    refine .bind (a := ()) (returns_verifyIntegrity h.built.intact) ?_
    refine .bind (a := ()) ?_ (returns_verifyIntegrity hsupported.built.intact)
    rw [List.range_eq_range', show data₁.database.version = now from h.version_eq]
    exact hmigrated
  refine .bind (a := ()) returns_openTouch (.bind (a := ()) returns_openTouch
    (.bind (a := ()) returns_openTouch ?_))
  refine .bind (a := ()) (t := data) (.call plainAnswer trivial ?_) ?_
  · rw [hlive, ensure_of (by simp [FileNode.isFile])]
  refine .bind (a := true) (t := data) (.call plainAnswer rfl ?_) ?_
  · rw [hlive]
    rfl
  refine .bind (a := ()) (t := data) (returns_openCall plainAnswer trivial rfl ?_) ?_
  · rw [hlive]
  refine .bind (a := ()) (t := data) ?_ ?_
  · refine .bind (a := .ok data.database.version) (t := data)
      (.attempt (returns_openCall plainAnswer trivial rfl rfl)) ?_
    have hnot : ¬ data.database.version < 20 := by omega
    show Procedure.ReturnsUnder _ (if _ then _ else _) _ _ _
    rw [if_neg hnot]
    exact .done
  · exact .bind (a := .ok ()) (.attempt hconnection) returns_openTouch

/-- **Backups before migrations.** Of a database that is reached, every migration an opening
commits has a backup of what was opened, exactly when the database is not one of the
versions 20 and 21, or such a backup is there already. -/
theorem backed_up_iff (hcompress : ∀ bytes, format.decompress (compress bytes) = some bytes)
    (hengine : engine.Sound format) {start : ApplicationData}
    (hsupported : Supported version start.database) (hversion : version ≤ 22)
    (hhealthy : Healthy format start.files)
    (h : Reopened format compress engine start data) :
    (∀ answers k, (openCanonicalPath format compress engine).AllowedSince (OpenAllows format)
        answers 0 data →
      ((openCanonicalPath format compress engine).interrupted answers 0 k data).database.version ≠
        data.database.version →
      BackedUp format engine data.database
        ((openCanonicalPath format compress engine).interrupted answers 0 k data).files) ↔
      (data.database.version ≠ 20 ∧ data.database.version ≠ 21) ∨
        BackedUp format engine data.database data.files := by
  obtain ⟨⟨now, hnow⟩, hstill, -⟩ := h.progress hcompress hengine hsupported hversion hhealthy
  have heq := hnow.supported.version_eq
  have hcurrent := hnow.current
  constructor
  · intro hall
    by_cases hrange : now = 20 ∨ now = 21
    · right
      obtain ⟨t, hreturns, hlast, hbackups⟩ : ∃ t, (openCanonicalPath format compress
          engine).ReturnsUnder (OpenAllows format) data (.ok ()) t ∧ _ :=
        returns_openCanonicalPath hstill hnow.supported (by omega) hcurrent
      obtain ⟨answers, hallowed, houtcome⟩ := hreturns.exists_answers plainAnswer 0
      obtain ⟨k, hk⟩ := Procedure.exists_interrupted_eq answers
        (openCanonicalPath format compress engine) 0 data
      rw [houtcome] at hk
      have hbacked := hall answers k hallowed (by rw [hk]; show t.database.version ≠ _; omega)
      rw [hk] at hbacked
      exact ofBackups_backedUp t.files data.files (fun name => (hbackups name).symm) hbacked
    · left
      omega
  · rintro hcase answers k hallowed hchanged
    by_cases hlt : now < 20
    · have hguarded := (keeps_openCanonicalPath_of_lt hcompress hengine hnow.supported hlt
        hstill).interrupted hallowed k
      rcases hguarded with ⟨hsame, -⟩ | hprogress
      · exact absurd (by rw [hsame]) hchanged
      · exact hprogress.2.2
    · rcases hcase with hnot | hbacked
      · -- the version is the current one, and there is nothing to migrate
        obtain ⟨⟨now', hnow'⟩, -⟩ := (keeps_openCanonicalPath hengine (F := fun _ => True)
          (fun _ _ _ _ => trivial) (by omega)
            ⟨⟨now, .refl hnow.supported hcurrent⟩, hstill, trivial⟩).interrupted hallowed k
        have hle := hnow'.le
        have hlast := hnow'.current
        have hversion' := hnow'.supported.version_eq
        exact absurd (by omega) hchanged
      · exact ((keeps_openCanonicalPath hengine ofBackups_backedUp (by omega)
          ⟨⟨now, .refl hnow.supported hcurrent⟩, hstill, hbacked⟩).interrupted hallowed k).2.2

end

/-! ## Ending at the current version -/

section

variable {format : DatabaseFormat} {compress : List UInt8 → List UInt8}
  {engine : DatabaseEngine} {version : Nat} {data : ApplicationData}

theorem ensures_openCall {α : Type} {site : OpenSite} {error : OpenError}
    {f : OpenAnswer → ApplicationData → Except OpenError (α × ApplicationData)}
    {Q : Except OpenError α → ApplicationData → Prop}
    (hsite : ∀ answer, OpenUndisturbed format compress engine site answer data →
      answer.fails = false ∧ ∃ a data', f answer data = .ok (a, data') ∧ Q (.ok a) data') :
    (openCall site error f).Ensures (OpenUndisturbed format compress engine) Q data := by
  refine .call fun answer hallows => ?_
  obtain ⟨hfails, a, data', hf, hQ⟩ := hsite answer hallows
  simp only [hfails, hf]
  exact hQ

theorem ensures_openTouch {error : OpenError} : (openTouch error).Ensures
    (OpenUndisturbed format compress engine) (fun r t => ∃ u, r = .ok u ∧ t = data) data :=
  ensures_openCall fun _ h => ⟨h.2, (), data, rfl, (), rfl, rfl⟩

theorem ensures_userVersion : userVersion.Ensures (OpenUndisturbed format compress engine)
    (fun r t => ∃ read, r = .ok read ∧ read = data.database.version ∧ t = data) data :=
  ensures_openCall fun _ h => ⟨h.2, _, data, rfl, _, rfl, rfl, rfl⟩

theorem ensures_verifyIntegrity (h : data.database.Intact applicationSchema) :
    verifyIntegrity.Ensures (OpenUndisturbed format compress engine)
      (fun r t => ∃ u, r = .ok u ∧ t = data) data :=
  ensures_openCall fun _ hallows =>
    ⟨hallows.2, (), data, bind_ok (ensure_of h), (), rfl, rfl⟩

/-- Run identifiers that fit, and every transaction is committed. -/
theorem ensures_migrateFrom (count first : Nat) {now : Nat} (hlast : first + count = 22)
    (hfirst : first ≤ now) (hcurrent : now ≤ 22) (h : Supported now data.database)
    (hids : Migratable now data.database) :
    (migrateFrom engine now (List.range' first count)).Ensures
      (OpenUndisturbed format compress engine)
      (fun r t => ∃ u, r = .ok u ∧ Supported 22 t.database) data := by
  induction count generalizing first now data with
  | zero =>
      obtain rfl : now = 22 := by omega
      exact .pure ⟨(), rfl, h⟩
  | succ count ih =>
      rw [List.range'_succ, migrateFrom]
      by_cases heq : (now : Int) = first
      · rw [if_pos heq]
        obtain rfl : now = first := Int.ofNat_inj.mp heq
        have hnow : now + 1 ≤ 22 := by omega
        refine .bind_returns (P := fun _ t => Supported (now + 1) t.database ∧
          Migratable (now + 1) t.database) (ensures_openCall fun answer hallows => ?_) ?_
        · obtain ⟨database, hcommit, hnext, -⟩ := h.migrationTransaction (by omega)
            (fun h15 => hids (by omega)) hallows.1
          have hmigrated := Migrated.committed h (by omega) hallows.1 hcommit
          refine ⟨hallows.2, (), data.commit engine database, ?_, (), rfl, hnext,
            hmigrated.migratable.mpr hids⟩
          simp only [hcommit]
        · rintro u t ⟨hnext, hids'⟩
          exact ih (now + 1) (by omega) (Nat.le_refl _) hnow hnext hids'
      · rw [if_neg heq]
        exact ih (first + 1) (by omega) (by omega) hcurrent h hids

theorem ensures_fromConnection {now : Nat} (hcurrent : now ≤ 22)
    (h : Supported now data.database) (hids : Migratable now data.database) :
    (fromConnection engine).Ensures (OpenUndisturbed format compress engine)
      (fun r t => ∃ u, r = .ok u ∧ Supported 22 t.database) data := by
  refine .bind_returns ensures_openTouch ?_
  rintro _ _ rfl
  refine .bind_returns ensures_openTouch ?_
  rintro _ data rfl
  refine .bind_returns (P := fun _ t => t.database = data.database)
    (ensures_openCall fun answer hallows => ⟨hallows.2, (), _, rfl, (), rfl, rfl⟩) ?_
  intro _ data₁ hsame
  rw [← hsame] at h hids
  refine .bind_returns ensures_openTouch ?_
  rintro _ data₁ rfl
  refine .bind_returns (P := fun read t => read = data₁.database.version ∧ t = data₁)
    ensures_userVersion ?_
  rintro _ data₁ ⟨rfl, rfl⟩
  have hversion := h.version_eq
  refine .ofExcept_bind (fun _ _ => ?_) fun e he => absurd ?_ (ensure_eq_error.mp he).1
  · refine .bind_returns (ensures_verifyIntegrity h.built.intact) ?_
    rintro _ data₁ rfl
    rw [List.range_eq_range', hversion]
    refine .bind_returns (ensures_migrateFrom 22 0 rfl (Nat.zero_le _) hcurrent h hids) ?_
    intro _ data₂ h₂
    exact (ensures_verifyIntegrity h₂.built.intact).mono fun _ _ ⟨u, hr, ht⟩ => ⟨u, hr, ht ▸ h₂⟩
  · omega

theorem ensures_openCanonicalPath {now : Nat} (hcurrent : now ≤ 22)
    (hhealthy : Healthy format data.files) (h : Supported now data.database) (hids : Migratable now data.database) :
    (openCanonicalPath format compress engine).Ensures (OpenUndisturbed format compress engine)
      (fun r t => r = .ok () ∧ t.database.version = 22) data := by
  obtain ⟨bytes, hlive, -⟩ := hhealthy
  refine .bind_returns ensures_openTouch ?_
  rintro _ _ rfl
  refine .bind_returns ensures_openTouch ?_
  rintro _ _ rfl
  refine .bind_returns ensures_openTouch ?_
  rintro _ data rfl
  refine .bind_returns (P := fun _ t => t = data) (.call fun answer _ => ⟨(), ?_, rfl⟩) ?_
  · rw [hlive, ensure_of (by simp [FileNode.isFile])]
  rintro _ data rfl
  refine .bind_returns (P := fun existed t => existed = true ∧ t = data)
    (.call fun answer hallows => ⟨_, rfl, ?_, rfl⟩) ?_
  · rw [hlive, hallows.2]
    rfl
  rintro _ data ⟨rfl, rfl⟩
  refine .bind_returns (P := fun _ t => t = data)
    (ensures_openCall fun answer hallows => ⟨hallows.2, (), data, ?_, (), rfl, rfl⟩) ?_
  · rw [hlive]
  rintro _ data rfl
  refine .bind_returns (P := fun _ t => t.database = data.database) ?_ ?_
  · refine .bind_returns (P := fun r t => r = .ok data.database.version ∧ t = data)
      (.attempt (ensures_userVersion.mono ?_)) ?_
    · rintro _ _ ⟨read, rfl, rfl, rfl⟩
      exact ⟨_, rfl, rfl, rfl⟩
    rintro _ data ⟨rfl, rfl⟩
    show (if _ then _ else _ : Opening Unit).Ensures _ _ _
    split
    · refine .bind_returns ensures_openTouch ?_
      rintro _ data rfl
      refine .bind_returns (P := fun made t => made.isOk = true ∧ t.database = data.database)
        (.call fun answer hallows => ⟨_, rfl, hallows.2, rfl⟩) ?_
      rintro made t ⟨hmade, hsame⟩
      cases made with
      | ok name => exact .pure ⟨(), rfl, hsame⟩
      | error e => cases hmade
    · exact .pure ⟨(), rfl, rfl⟩
  · intro _ data₁ hsame
    rw [← hsame] at h hids
    refine .bind_returns (P := fun r t => r = .ok () ∧ Supported 22 t.database)
      (.attempt ((ensures_fromConnection hcurrent h hids).mono ?_)) ?_
    · rintro _ t ⟨u, rfl, h₂⟩
      exact ⟨_, rfl, rfl, h₂⟩
    rintro _ data₂ ⟨rfl, h₂⟩
    refine ensures_openTouch.mono ?_
    rintro _ _ ⟨u, rfl, rfl⟩
    exact ⟨rfl, h₂.version_eq⟩

/-- **The current version is reached.** After whatever stops, an opening that is not
disturbed ends at version 22, exactly when the run identifiers of the database that was
there can be counted on, or its version is past the migration that counts them. -/
theorem openCanonicalPath_current_iff
    (hcompress : ∀ bytes, format.decompress (compress bytes) = some bytes)
    (hengine : engine.Sound format) {start : ApplicationData}
    (hsupported : Supported version start.database) (hversion : version ≤ 22)
    (hhealthy : Healthy format start.files)
    (h : Reopened format compress engine start data) {answers : Nat → OpenAnswer}
    (hallowed : (openCanonicalPath format compress engine).AllowedSince
      (OpenUndisturbed format compress engine) answers 0 data) :
    (((openCanonicalPath format compress engine).outcome answers 0 data).1 = .ok () ∧
      ((openCanonicalPath format compress engine).outcome answers 0 data).2.database.version =
        22) ↔ (version ≤ 15 → RunIdsFit start.database) := by
  obtain ⟨⟨now, hnow⟩, hstill, -⟩ := h.progress hcompress hengine hsupported hversion hhealthy
  show _ ↔ Migratable version start.database
  rw [← hnow.migratable]
  constructor
  · rintro ⟨-, hlast⟩
    obtain ⟨k, hk⟩ := Procedure.exists_interrupted_eq answers
      (openCanonicalPath format compress engine) 0 data
    obtain ⟨⟨now', hnow'⟩, -⟩ := progress_interrupted hcompress hengine
      ⟨⟨now, .refl hnow.supported hnow.current⟩, hstill, trivial⟩
        (hallowed.mono fun _ _ _ h => h.1) k
    rw [hk] at hnow'
    have hversion' := hnow'.supported.version_eq
    exact hnow'.migratable.mp fun hle => absurd hle (by omega)
  · intro hids
    exact (Procedure.returnsUnder_outcome hallowed).of_ensures
      (ensures_openCanonicalPath hnow.current hstill hnow.supported hids)

end

/-! ### A database of the first version -/

instance (format : DatabaseFormat) : (site : OpenSite) → (answer : OpenAnswer) →
    (data : ApplicationData) → Decidable (OpenAllows format site answer data)
  | .plain, _, _ | .backup, _, _ => isTrue trivial
  | .existence, answer, _ => inferInstanceAs (Decidable (answer.fails = false))
  | .migration _, answer, _ => inferInstanceAs (Decidable (0 ≤ answer.now))
  | .quarantine, answer, data => inferInstanceAs (Decidable
      ((quarantineLiveDatabase format).AllowedSince (Allows format) answer.calls 0 data.files))

instance (format : DatabaseFormat) (compress : List UInt8 → List UInt8) (engine : DatabaseEngine) :
    (site : OpenSite) → (answer : OpenAnswer) → (data : ApplicationData) →
      Decidable (OpenUndisturbed format compress engine site answer data)
  | .backup, _, _ => inferInstanceAs (Decidable (_ ∧ _ = _))
  | .plain, _, _ | .existence, _, _ | .quarantine, _, _ | .migration _, _, _ =>
      inferInstanceAs (Decidable (_ ∧ _ = _))

/-- The database alone, by the number of its version, beside which nothing lies. -/
def versionEngine : DatabaseEngine where
  commit _ database
    | .database => some (.file [UInt8.ofNat database.version.toNat])
    | .wal | .shm => none
  vacuum database := [UInt8.ofNat database.version.toNat]

theorem versionEngine_sound : versionEngine.Sound headerFormat where
  commit _ database _ := ⟨[UInt8.ofNat database.version.toNat], rfl, rfl⟩
  vacuum _ _ := rfl

theorem supported_empty : Supported 0 SqlDatabase.empty where
  version_eq := rfl
  built := {
    has := nofun
    only := by
      intro s hs
      cases s with
      | createTable name => cases hs
      | createIndex name => cases hs
      | addColumn name column =>
          obtain ⟨_, hnone, -⟩ := hs
          cases hnone
    definition := nofun
    sound := nofun
    separated := nofun }

/-- A run of the first version. -/
def firstRun : SqlRow :=
  TableName.runSnapshotsDefinition.row
    [("run_id", .integer 7), ("snapshot_id", .integer 7), ("profile_name", .text "home"),
     ("peer_a_name", .text "a"), ("peer_a_root", .blob [47]), ("peer_b_name", .text "b"),
     ("peer_b_root", .blob [47]), ("mode", .text "one_way"), ("source", .text "peer_a"),
     ("safe_delete", .integer 0), ("destination_cleanup", .integer 0),
     ("allow_unattended_destructive", .integer 0),
     ("allow_unattended_permanent_removal", .integer 0)]

def firstDatabase : ApplicationTables :=
  match migrationTransaction 0 SqlDatabase.empty 0 with
  | .ok db => db.setTable .runSnapshots (some ⟨TableName.runSnapshotsDefinition, [firstRun]⟩)
  | .error _ => SqlDatabase.empty

theorem supported_firstDatabase : Supported 1 firstDatabase := by
  obtain ⟨db, hdb, h, -⟩ := supported_empty.migrationTransaction (by decide) nofun
    (Int64.le_refl 0)
  have htable : db.tables .runSnapshots = some ⟨TableName.runSnapshotsDefinition, []⟩ := by
    cases hdb
    rfl
  have hrows := h.built.rows htable [firstRun] (by decide +kernel) fun index hindex => by
    cases index <;> cases hindex
  have hfirst : firstDatabase = db.setTable .runSnapshots
      (some ⟨TableName.runSnapshotsDefinition, [firstRun]⟩) := by
    unfold firstDatabase
    rw [hdb]
  rw [hfirst]
  exact ⟨h.version_eq, hrows⟩

def firstData : ApplicationData where
  files := AppFiles.withLive (fun _ => none) (versionEngine.commit (fun _ => none) firstDatabase)
  database := firstDatabase

/-- Answers without a failure; the clock of the backups shows `clock`. -/
def openAnswers (clock : Nat) (n : Nat) : OpenAnswer :=
  ⟨false, 0, clockAnswers clock (100 * n) [backupFileName (3, 10), backupFileName (4, 10)]⟩

def openFirst : Opening Unit := openCanonicalPath headerFormat headerCompress versionEngine

/-- The process stops after some of the migrations. -/
def stoppedData : ApplicationData := openFirst.interrupted (openAnswers 3) 0 22 firstData

theorem reopened_stopped :
    Reopened headerFormat headerCompress versionEngine firstData stoppedData :=
  .opening 22 .start (by decide +kernel)

theorem healthy_first : Healthy headerFormat firstData.files :=
  ⟨[1], by decide +kernel, rfl⟩

theorem reopened_keeps_first :
    (∃ now, Migrated 1 firstData.database stoppedData.database now) ∧
      Healthy headerFormat stoppedData.files :=
  reopened_keeps_rows headerFormat_compress versionEngine_sound supported_firstDatabase
    (by decide) healthy_first reopened_stopped

theorem backed_up_stopped :
    (∀ answers k, openFirst.AllowedSince (OpenAllows headerFormat) answers 0 stoppedData →
      (openFirst.interrupted answers 0 k stoppedData).database.version ≠
        stoppedData.database.version →
      BackedUp headerFormat versionEngine stoppedData.database
        (openFirst.interrupted answers 0 k stoppedData).files) ↔
      (stoppedData.database.version ≠ 20 ∧ stoppedData.database.version ≠ 21) ∨
        BackedUp headerFormat versionEngine stoppedData.database stoppedData.files :=
  backed_up_iff headerFormat_compress versionEngine_sound supported_firstDatabase (by decide)
    healthy_first reopened_stopped

theorem openCanonicalPath_current_stopped :
    ((openFirst.outcome (openAnswers 4) 0 stoppedData).1 = .ok () ∧
      (openFirst.outcome (openAnswers 4) 0 stoppedData).2.database.version = 22) ↔
        (1 ≤ 15 → RunIdsFit firstData.database) :=
  openCanonicalPath_current_iff headerFormat_compress versionEngine_sound supported_firstDatabase
    (by decide) healthy_first reopened_stopped (by decide +kernel)

end SyncPlus
