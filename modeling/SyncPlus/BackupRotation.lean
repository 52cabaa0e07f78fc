import SyncPlus.CleanRestore

/-!
# Backup rotation

`create_validated_backup` snapshots the database, compresses and validates the
snapshot, gives it a name that begins with the clock, and removes the oldest of the
validated backups while there are more than two. The oldest is the one whose name
comes first, as text: numbers of the clock and of the count have no leading zeros.

Over all calls none of whose steps fails the two newest backups are kept exactly as
long as the older of two backups has the least name of the three when a new one
comes (`newest_two_iff`).
-/

namespace SyncPlus

/-! ## The code -/

/-- A connection, by what `PRAGMA integrity_check` says on it and what `VACUUM INTO`
writes. -/
structure LiveConnection where
  intact : Bool
  snapshot : List UInt8

/-- `unique_token`. -/
def tokenText (token : Token) : String := toString token.1 ++ "-" ++ toString token.2

def backupFileName (token : Token) : Name :=
  (PathBuf.ofText ("syncplus-" ++ tokenText token ++ ".sqlite.gz")).bytes

def stagingFileName (token : Token) : Name :=
  (PathBuf.ofText (".syncplus-backup-" ++ tokenText token ++ ".sqlite.gz")).bytes

section

variable (format : DatabaseFormat) (compress : List UInt8 → List UInt8)
  (connection : LiveConnection)

def verifyConnection : Backup Unit :=
  .call .plain fun answer files =>
    (do
      ensure (answer.fails = false) .sqlite
      ensure (connection.intact = true) .integrity, files)

/-- A place SQLite writes a new database to. -/
def AppFiles.Vacant (files : AppFiles) (path : AppPath) : Prop :=
  files path = none ∨ files path = some (.file [])

instance (files : AppFiles) (path : AppPath) : Decidable (files.Vacant path) :=
  inferInstanceAs (Decidable (_ ∨ _))

def vacuumInto (destination : AppPath) : Backup Unit := do
  Procedure.call .plain fun answer files =>
    if files.Vacant destination then
      if answer.fails then (.error .sqlite, files.set destination (some (.file answer.written)))
      else (.ok (), files.set destination (some (.file connection.snapshot)))
    else (.error .sqlite, files)
  touch

def compressFile (source destination : AppPath) : Backup Unit := do
  let input ← openFile source
  openCreateNew destination
  touch
  copyInto (some (compress input)) (.io .other) destination
  touch

/-- `fs::hard_link`, which never replaces. -/
def hardLink (source target : AppPath) : Backup Unit :=
  fsCall .plain fun _ files =>
    match files source, files target with
    | some node, none => .ok ((), files.set target (some node))
    | some _, some _ => .error .alreadyExists
    | none, _ => .error .notFound

/-- The loop of `rotate_validated_backups`, over the backups from the last one on. -/
def removeOldest (newest : Name) : List Name → Backup Unit
  | oldest :: a :: b :: rest => do
      Procedure.ofExcept (ensure (oldest ≠ newest) (.rotation .selectedNewest))
      Backup.mapError (removeFile (.backup oldest)) fun e => .rotation (.couldNotRemove (ioKind e))
      removeOldest newest (a :: b :: rest)
  | _ => return ()

def rotateValidatedBackups (newest : Name) : Backup Unit := do
  let backups ← listValidatedBackups format
  removeOldest newest backups.reverse
  touch

/-- The database that is there is a file and intact. -/
def checkLive : Backup Unit := do
  match ← (symlinkMetadata .plain (.live .database)).attempt with
  | .error _ => return ()
  | .ok isFile =>
      Procedure.ofExcept
        (ensure (isFile = true) (.invalidPath "live database path is not a regular file"))
      touch
      validateSqliteFile format .plain (.live .database)

/-- A snapshot becomes the validated backup of this name. -/
def writeBackup (snapshot staging : AppPath) (name : Name) : Backup Name := do
  vacuumInto connection snapshot
  validateSqliteFile format .plain snapshot
  compressFile compress snapshot staging
  validateCompressedBackup format staging
  hardLink staging (.backup name)
  removeFile staging
  touch
  rotateValidatedBackups format name
  return name

def createValidatedBackup : Backup Name := do
  ensureLayout
  checkLive format
  verifyConnection connection
  let snapshotToken ← uniqueToken .snapshotName
  let stagingToken ← uniqueToken .stagingName
  let token ← uniqueToken .backupName
  let snapshot := AppPath.temporary "snapshot" snapshotToken
  let staging := AppPath.backup (stagingFileName stagingToken)
  let result ← Procedure.attempt
    (writeBackup format compress connection snapshot staging (backupFileName token))
  Backup.ignore (removeFile snapshot)
  Backup.ignore (removeFile staging)
  Procedure.ofExcept result

end

/-! ## Calls without failures -/

/-- What is created is not there yet, and the new backup gets this name. -/
def TokenFree (name : Name) : Site → Token → AppFiles → Prop
  | .plain, token, files => files (.temporary "validate" token) = none
  | .snapshotName, token, files => files.Vacant (.temporary "snapshot" token)
  | .stagingName, token, files => files (.backup (stagingFileName token)) = none
  | .backupName, token, files => backupFileName token = name ∧ files (.backup name) = none
  | _, _, _ => True

/-- A step of the call that makes the backup `name`, where no call fails and the
directory lists the backups. -/
structure NoFailure (name : Name) (earlier : List Name) (site : Site) (answer : FsAnswer)
    (files : AppFiles) : Prop where
  succeeds : answer.fails = false
  nodup : answer.entries.Nodup
  listed : ∀ backup ∈ name :: earlier, backup ∈ answer.entries
  free : TokenFree name site answer.token files

structure FinishedCall where
  name : Name
  result : Except BackupError Name
  files : AppFiles

instance : (name : Name) → (site : Site) → (token : Token) → (files : AppFiles) →
    Decidable (TokenFree name site token files)
  | _, .plain, token, files =>
      inferInstanceAs (Decidable (files (.temporary "validate" token) = none))
  | _, .snapshotName, token, files =>
      inferInstanceAs (Decidable (files.Vacant (.temporary "snapshot" token)))
  | _, .stagingName, token, files =>
      inferInstanceAs (Decidable (files (.backup (stagingFileName token)) = none))
  | name, .backupName, token, files =>
      inferInstanceAs (Decidable (backupFileName token = name ∧ files (.backup name) = none))
  | _, .quarantineCheck, _, _ | _, .quarantineName, _, _ => isTrue trivial

instance (name : Name) (earlier : List Name) (site : Site) (answer : FsAnswer) (files : AppFiles) :
    Decidable (NoFailure name earlier site answer files) :=
  decidable_of_iff (answer.fails = false ∧ answer.entries.Nodup ∧
      (∀ backup ∈ name :: earlier, backup ∈ answer.entries) ∧
        TokenFree name site answer.token files)
    ⟨fun ⟨h, h', h'', h'''⟩ => ⟨h, h', h'', h'''⟩, fun ⟨h, h', h'', h'''⟩ => ⟨h, h', h'', h'''⟩⟩

section

variable (format : DatabaseFormat) (compress : List UInt8 → List UInt8)

/-- The database is intact, as a file and on the connection, and SQLite writes
intact databases. -/
structure SoundDatabase (connection : LiveConnection) (files : AppFiles) : Prop where
  live : files (.live .database) = none ∨ Healthy format files
  intact : connection.intact = true
  snapshot : format.integrityOk connection.snapshot none none = true

/-- Calls of `create_validated_backup` in an empty backup directory, the last one
first, and the files now. Besides the calls nobody changes the backups. -/
inductive CreationHistory : List FinishedCall → AppFiles → Prop
  | empty {files : AppFiles} : (∀ name, files (.backup name) = none) → CreationHistory [] files
  | elsewhere {calls : List FinishedCall} {files files' : AppFiles} :
      CreationHistory calls files → (∀ name, files' (.backup name) = files (.backup name)) →
        CreationHistory calls files'
  | created {calls : List FinishedCall} {files files' : AppFiles} {connection : LiveConnection}
      {name : Name} {r : Except BackupError Name} : CreationHistory calls files →
      SoundDatabase format connection files →
      (createValidatedBackup format compress connection).ReturnsUnder
        (NoFailure name (calls.map (·.name))) files r files' →
          CreationHistory (⟨name, r, files'⟩ :: calls) files'

/-- Every call returned its backup and left the two newest ones, and no other. -/
def KeepsNewestTwo (calls : List FinishedCall) : Prop :=
  ∀ call past, call :: past <:+ calls →
    call.result = .ok call.name ∧
      let newest := ((call :: past).map (·.name)).take 2
      newest.Nodup ∧ ∀ name,
        (isBackupName name = true ∧ ValidBackup format call.files name) ↔ name ∈ newest

end

/-- Whenever a third backup comes, the older one of the two has the least name. -/
def OldestLeast (names : List Name) : Prop :=
  ∀ new newer older past, new :: newer :: older :: past <:+ names → older < newer ∧ older < new

/-! ## Names -/

theorem isBackupName_ofText (text : String) :
    isBackupName (PathBuf.ofText text).bytes =
      ("syncplus-".toList.isPrefixOf text.toList && ".sqlite.gz".toList.isSuffixOf text.toList) := by
  show (PathBuf.toText (PathBuf.ofText text)).any _ = _
  rw [PathBuf.toText_ofText, Option.any_some]

theorem isBackupName_backupFileName (token : Token) : isBackupName (backupFileName token) = true := by
  rw [backupFileName, isBackupName_ofText, Bool.and_eq_true, List.isPrefixOf_iff_prefix,
    List.isSuffixOf_iff_suffix, String.toList_append, String.toList_append]
  refine ⟨?_, List.suffix_append ..⟩
  rw [List.append_assoc]
  exact List.prefix_append ..

theorem isBackupName_stagingFileName (token : Token) :
    isBackupName (stagingFileName token) = false := by
  have hhead : (".syncplus-backup-" ++ tokenText token ++ ".sqlite.gz").toList =
      '.' :: ("syncplus-backup-" ++ tokenText token ++ ".sqlite.gz").toList := by
    simp only [String.toList_append]
    rfl
  rw [stagingFileName, isBackupName_ofText, hhead]
  rfl

/-! ## What the calls do when none fails -/

section

variable {format : DatabaseFormat} {name : Name} {earlier : List Name} {s : AppFiles}
  {site : Site} {path : AppPath}

/-- A call of the file system does what it says. -/
theorem noFailure_fsCall {α : Type} {f : FsAnswer → AppFiles → Except IoErrorKind (α × AppFiles)}
    {Q : Except BackupError α → AppFiles → Prop}
    (hok : ∀ answer, NoFailure name earlier site answer s → ∀ a s', f answer s = .ok (a, s') →
      Q (.ok a) s')
    (herror : ∀ answer, NoFailure name earlier site answer s → ∀ kind, f answer s = .error kind →
      Q (.error (.io kind)) s) :
    (fsCall site f).Ensures (NoFailure name earlier) Q s :=
  ensures_fsCall (fun _ hallows hfails => absurd hfails (by simp [hallows.succeeds]))
    (fun answer hallows _ => hok answer hallows) (fun answer hallows _ => herror answer hallows)

theorem returns_touch :
    touch.Ensures (NoFailure name earlier) (fun r t => ∃ u, r = .ok u ∧ t = s) s :=
  noFailure_fsCall (by rintro _ _ _ _ ⟨⟩; exact ⟨(), rfl, rfl⟩) (by rintro _ _ _ ⟨⟩)

theorem returns_ensureLayout :
    ensureLayout.Ensures (NoFailure name earlier) (fun r t => ∃ u, r = .ok u ∧ t = s) s := by
  have hdir : ∀ s, ensurePrivateDir.Ensures (NoFailure name earlier)
      (fun r t => ∃ u, r = .ok u ∧ t = s) s := fun s =>
    .bind_returns returns_touch (by rintro _ _ rfl; exact returns_touch)
  refine .bind_returns (hdir s) ?_
  rintro _ _ rfl
  refine .bind_returns (hdir _) ?_
  rintro _ _ rfl
  exact hdir _

theorem result_symlinkMetadata : (symlinkMetadata site path).Ensures (NoFailure name earlier)
    (fun r t => t = s ∧ r = (match s path with
      | some node => .ok node.isFile
      | none => .error (.io .notFound))) s := by
  refine noFailure_fsCall ?_ ?_
  · intro _ _ isFile s' hf
    cases hnode : s path with
    | none => simp [hnode] at hf
    | some node =>
        simp only [hnode, Except.ok.injEq, Prod.mk.injEq] at hf
        exact ⟨hf.2.symm, congrArg Except.ok hf.1.symm⟩
  · intro _ _ kind hf
    cases hnode : s path with
    | none =>
        simp only [hnode, Except.error.injEq] at hf
        obtain rfl := hf
        exact ⟨rfl, rfl⟩
    | some node => simp [hnode] at hf

theorem returns_isRegularFile : (isRegularFile path).Ensures (NoFailure name earlier)
    (fun r t => ∃ isFile, r = .ok isFile ∧ isFile = (s path).any FileNode.isFile ∧ t = s) s := by
  refine .bind_returns (.attempt (result_symlinkMetadata.mono fun r t h => ⟨r, rfl, h⟩)) ?_
  rintro _ s ⟨rfl, rfl⟩
  cases hnode : s path with
  | none => exact .pure ⟨_, rfl, rfl, rfl⟩
  | some node => exact .pure ⟨_, rfl, rfl, rfl⟩

/-- A database passes when it is a file and intact. -/
theorem result_validateSqliteFile :
    (validateSqliteFile format site path).Ensures (NoFailure name earlier)
      (fun r t => t = s ∧ (r = .ok () ↔ ∃ bytes, s path = some (.file bytes) ∧
        format.integrityOk bytes (s.beside .wal path) (s.beside .shm path) = true)) s := by
  refine .bind result_symlinkMetadata ?_ ?_
  · rintro isFile t ⟨rfl, hisFile⟩
    refine .ofExcept_bind (fun _ _ => ?_) fun e he => ⟨rfl, ?_⟩
    · refine .call fun answer hallows => ⟨rfl, integrity_eq_ok.trans ?_⟩
      exact and_iff_right hallows.succeeds
    · obtain ⟨hnot, -⟩ := ensure_eq_error.mp he
      refine iff_of_false nofun ?_
      rintro ⟨bytes, hbytes, -⟩
      rw [hbytes] at hisFile
      cases hisFile
      exact hnot rfl
  · rintro e t ⟨rfl, herror⟩
    refine ⟨rfl, iff_of_false nofun ?_⟩
    rintro ⟨bytes, hbytes, -⟩
    rw [hbytes] at herror
    cases herror

/-- A compressed file is written to a free temporary place when it can be
decompressed. -/
theorem result_decompressFile {label : String} {token : Token}
    (hfree : s (.temporary label token) = none) :
    (decompressFile format path (.temporary label token)).Ensures (NoFailure name earlier)
      (fun r t => SameApplication s t ∧ ((∃ u, r = .ok u) ↔ ∃ bytes restored,
        s path = some (.file bytes) ∧ format.decompress bytes = some restored) ∧
          ∀ bytes restored, s path = some (.file bytes) → format.decompress bytes = some restored →
            t (.temporary label token) = some (.file restored)) s := by
  refine .bind (P := fun r t => t = s ∧ ∀ bytes, r = .ok bytes ↔ s path = some (.file bytes))
    (noFailure_fsCall ?_ ?_) ?_ ?_
  · intro _ _ bytes s' hf
    rcases hnode : s path with _ | (bytes' | _)
    · simp [hnode] at hf
    · simp only [hnode, Except.ok.injEq, Prod.mk.injEq] at hf
      obtain ⟨rfl, rfl⟩ := hf
      simp
    · simp [hnode] at hf
  · intro _ _ kind hf
    rcases hnode : s path with _ | (bytes' | _)
    · simp
    · simp [hnode] at hf
    · simp
  · rintro input s ⟨rfl, hinput⟩
    have hbytes := (hinput input).mp rfl
    refine .bind_returns (P := fun _ t => t = s.set (.temporary label token) (some (.file [])))
      (noFailure_fsCall ?_ ?_) ?_
    · intro _ _ u s' hf
      simp only [hfree, Except.ok.injEq, Prod.mk.injEq] at hf
      exact ⟨u, rfl, hf.2.symm⟩
    · intro _ _ kind hf
      simp [hfree] at hf
    rintro _ _ rfl
    refine .bind_returns returns_touch ?_
    rintro _ _ rfl
    refine .bind (P := fun r t => ∃ written, t = s.set (.temporary label token) (some (.file written)) ∧
      (∀ restored, format.decompress input = some restored → written = restored ∧ r = .ok ()) ∧
        (format.decompress input = none → ∃ e, r = .error e)) (.call fun answer hallows => ?_) ?_ ?_
    · have hset := AppFiles.set_set s (.temporary label token) (some (.file []))
      cases hdecompressed : format.decompress input with
      | none => exact ⟨answer.written, hset _, nofun, fun _ => ⟨_, rfl⟩⟩
      | some restored =>
          simp only [hallows.succeeds]
          exact ⟨restored, hset _, by rintro _ ⟨⟩; exact ⟨rfl, rfl⟩, nofun⟩
    · rintro u _ ⟨written, rfl, hok, hnone⟩
      refine returns_touch.mono ?_
      rintro _ _ ⟨_, rfl, rfl⟩
      cases hdecompressed : format.decompress input with
      | none => exact absurd (hnone hdecompressed) (by simp)
      | some restored =>
          obtain ⟨rfl, -⟩ := hok restored hdecompressed
          refine ⟨.set, iff_of_true ⟨_, rfl⟩ ⟨input, written, hbytes, hdecompressed⟩, ?_⟩
          rintro bytes restored hbytes' hrestored
          obtain rfl : input = bytes := by simpa [hbytes] using hbytes'
          rw [hdecompressed] at hrestored
          cases hrestored
          exact AppFiles.set_same ..
    · rintro e _ ⟨written, rfl, hok, -⟩
      have hnot : ∀ bytes restored, s path = some (.file bytes) →
          format.decompress bytes = some restored → False := by
        intro bytes restored hbytes' hrestored
        obtain rfl : input = bytes := by simpa [hbytes] using hbytes'
        obtain ⟨-, hr⟩ := hok restored hrestored
        cases hr
      refine ⟨.set, iff_of_false (by simp) ?_, fun bytes restored hb hr => (hnot bytes restored hb hr).elim⟩
      rintro ⟨bytes, restored, hb, hr⟩
      exact hnot bytes restored hb hr
  · rintro e s ⟨rfl, hinput⟩
    have hnot : ∀ bytes, s path ≠ some (.file bytes) := fun bytes hbytes => by
      have := (hinput bytes).mpr hbytes
      cases this
    refine ⟨.refl, iff_of_false (by simp) ?_, fun bytes _ hbytes => absurd hbytes (hnot bytes)⟩
    rintro ⟨bytes, -, hbytes, -⟩
    exact hnot bytes hbytes

/-- A backup passes exactly when it is valid. -/
theorem result_validateCompressedBackup {backup : Name} :
    (validateCompressedBackup format (.backup backup)).Ensures (NoFailure name earlier)
      (fun r t => SameApplication s t ∧ (r = .ok () ↔ ValidBackup format s backup)) s := by
  have hinvalid : ∀ s : AppFiles, (s (.backup backup)).any FileNode.isFile ≠ true →
      ¬ ValidBackup format s backup := by
    rintro s hnot ⟨bytes, -, hbytes, -⟩
    rw [hbytes] at hnot
    exact hnot rfl
  refine .bind_returns returns_isRegularFile ?_
  rintro isFile s ⟨rfl, rfl⟩
  refine .ofExcept_bind (fun _ _ => ?_) fun e he =>
    ⟨.refl, iff_of_false nofun (hinvalid s (ensure_eq_error.mp he).1)⟩
  refine .bind_returns (P := fun token t => t = s ∧ s (.temporary "validate" token) = none)
    (.call fun answer hallows => ⟨_, rfl, rfl, hallows.free⟩) ?_
  rintro token s ⟨rfl, hfree⟩
  refine .bind_returns (P := fun v t => SameApplication s t ∧
    (v = .ok () ↔ ValidBackup format s backup)) (.attempt ?_) ?_
  · refine .bind (result_decompressFile hfree) ?_ ?_
    · rintro u t ⟨hsame, hiff, hrestored⟩
      obtain ⟨bytes, restored, hbytes, hdecompressed⟩ := hiff.mp ⟨u, rfl⟩
      have hfile := hrestored bytes restored hbytes hdecompressed
      refine result_validateSqliteFile.mono ?_
      rintro r _ ⟨rfl, hvalid⟩
      refine ⟨r, rfl, hsame, hvalid.trans ⟨?_, ?_⟩⟩
      · rintro ⟨bytes', hbytes', hok⟩
        rw [hfile] at hbytes'
        cases hbytes'
        exact ⟨bytes, restored, hbytes, hdecompressed, hok⟩
      · rintro ⟨bytes', restored', hbytes', hdecompressed', hok⟩
        exact ⟨restored', hrestored bytes' restored' hbytes' hdecompressed', hok⟩
    · rintro e t ⟨hsame, hiff, -⟩
      refine ⟨_, rfl, hsame, iff_of_false nofun ?_⟩
      rintro ⟨bytes, restored, hbytes, hdecompressed, -⟩
      obtain ⟨_, hr⟩ := hiff.mpr ⟨bytes, restored, hbytes, hdecompressed⟩
      cases hr
  · rintro v t ⟨hsame, hvalid⟩
    refine .bind_returns (P := fun _ t' => SameApplication t t')
      (ensures_removeTemporary.mono fun r t' h => ⟨(), h.1, h.2⟩) ?_
    rintro _ t' hsame'
    exact .ofExcept ⟨hsame.trans hsame', hvalid⟩

/-- The valid backups among the entries, in their order. -/
theorem returns_listEntries (names : List Name) : (listEntries format names).Ensures
    (NoFailure name earlier) (fun r t => ∃ backups, r = .ok backups ∧ SameApplication s t ∧
      backups.Sublist names ∧ ∀ backup, backup ∈ backups ↔
        backup ∈ names ∧ isBackupName backup = true ∧ ValidBackup format s backup) s := by
  induction names generalizing s with
  | nil => exact .pure ⟨[], rfl, .refl, .slnil, by simp⟩
  | cons entry rest ih =>
      -- an entry that is passed over leaves the backups of the rest
      have hskip : ∀ s : AppFiles, ¬ (isBackupName entry = true ∧ ValidBackup format s entry) →
          (listEntries format rest).Ensures (NoFailure name earlier)
            (fun r t => ∃ backups, r = .ok backups ∧ SameApplication s t ∧
              backups.Sublist (entry :: rest) ∧ ∀ backup, backup ∈ backups ↔
                backup ∈ entry :: rest ∧ isBackupName backup = true ∧ ValidBackup format s backup)
            s := by
        intro s hnot
        refine ih.mono ?_
        rintro _ t ⟨backups, rfl, hsame, hsub, hmem⟩
        refine ⟨backups, rfl, hsame, hsub.cons entry, fun backup => (hmem backup).trans ?_⟩
        rw [List.mem_cons]
        refine and_congr_left fun hvalid => ⟨.inr, fun h => h.resolve_left ?_⟩
        rintro rfl
        exact hnot hvalid
      refine .bind_returns returns_touch ?_
      rintro _ s rfl
      split
      · rename_i hname
        refine .bind_returns returns_isRegularFile ?_
        rintro isFile s ⟨rfl, rfl⟩
        split
        · refine .bind_returns (P := fun v t => SameApplication s t ∧
            (v = .ok () ↔ ValidBackup format s entry))
            (.attempt (result_validateCompressedBackup.mono fun r t h => ⟨r, rfl, h⟩)) ?_
          rintro v t ⟨hsame, hvalid⟩
          refine .bind_returns ih ?_
          rintro backups t' ⟨hsame', hsub, hmem⟩
          have hmem' : ∀ backup, backup ∈ backups ↔
              backup ∈ rest ∧ isBackupName backup = true ∧ ValidBackup format s backup :=
            fun backup => by rw [hmem, hsame.validBackup]
          rcases v with e | u
          · have hnot : ¬ ValidBackup format s entry := fun h => nomatch hvalid.mpr h
            refine .pure ⟨backups, rfl, hsame.trans hsame', hsub.cons entry, fun backup => ?_⟩
            rw [hmem', List.mem_cons]
            refine and_congr_left fun hback => ⟨.inr, fun h => h.resolve_left ?_⟩
            rintro rfl
            exact hnot hback.2
          · refine .pure ⟨entry :: backups, rfl, hsame.trans hsame', hsub.cons_cons entry,
              fun backup => ?_⟩
            rw [List.mem_cons, List.mem_cons, hmem', or_and_right]
            refine or_congr_left ⟨?_, And.left⟩
            rintro rfl
            exact ⟨rfl, hname, hvalid.mp rfl⟩
        · rename_i hnot
          refine hskip s fun h => hnot ?_
          obtain ⟨bytes, -, hbytes, -⟩ := h.2
          rw [hbytes]
          rfl
      · rename_i hname
        exact hskip s fun h => hname h.1

/-- In the backup directory there are these validated backups, and nothing else. -/
structure HoldsBackups (format : DatabaseFormat) (files : AppFiles) (names : List Name) : Prop where
  nodup : names.Nodup
  there : ∀ backup, files (.backup backup) ≠ none ↔ backup ∈ names
  valid : ∀ backup ∈ names, isBackupName backup = true ∧ ValidBackup format files backup

theorem HoldsBackups.of_same {names : List Name} {t : AppFiles} (h : HoldsBackups format s names)
    (hsame : ∀ backup, t (.backup backup) = s (.backup backup)) : HoldsBackups format t names where
  nodup := h.nodup
  there backup := by rw [hsame, h.there]
  valid backup hmem := by
    obtain ⟨hname, bytes, restored, hbytes, hrest⟩ := h.valid backup hmem
    exact ⟨hname, bytes, restored, (hsame backup).trans hbytes, hrest⟩

theorem SameApplication.backups {t : AppFiles} (h : SameApplication s t) (backup : Name) :
    t (.backup backup) = s (.backup backup) := h _ (by simp)

theorem HoldsBackups.valid_iff {names : List Name} (h : HoldsBackups format s names)
    (backup : Name) : (isBackupName backup = true ∧ ValidBackup format s backup) ↔
      backup ∈ names := by
  refine ⟨?_, h.valid backup⟩
  rintro ⟨-, bytes, -, hbytes, -⟩
  exact (h.there backup).mp (by simp [hbytes])

/-- The validated backups, the one with the greatest name first. -/
theorem returns_listValidatedBackups {names : List Name} (h : HoldsBackups format s names)
    (hknown : ∀ backup ∈ names, backup ∈ name :: earlier) :
    (listValidatedBackups format).Ensures (NoFailure name earlier)
      (fun r t => ∃ backups, r = .ok backups ∧ SameApplication s t ∧ backups.Perm names ∧
        backups.reverse.Pairwise (· ≤ ·)) s := by
  refine .bind_returns returns_ensureLayout ?_
  rintro _ s rfl
  refine .bind_returns (P := fun entries t => t = s ∧ entries.Nodup ∧
    ∀ backup ∈ names, backup ∈ entries) (noFailure_fsCall ?_ ?_) ?_
  · rintro answer hallows entries s' ⟨⟩
    refine ⟨_, rfl, rfl, hallows.nodup.filter _, fun backup hmem => List.mem_filter.mpr ⟨?_, ?_⟩⟩
    · exact hallows.listed backup (hknown backup hmem)
    · rw [Option.isSome_iff_ne_none]
      exact (h.there backup).mpr hmem
  · rintro _ _ _ ⟨⟩
  rintro entries s ⟨rfl, hnodup, hlisted⟩
  refine .bind_returns (returns_listEntries entries) ?_
  rintro backups t ⟨hsame, hsub, hmem⟩
  refine .pure ⟨_, rfl, hsame, ?_, ?_⟩
  · refine (List.reverse_perm _).trans ((List.perm_insertionSort _ _).trans ?_)
    refine (List.perm_ext_iff_of_nodup (hnodup.sublist hsub) h.nodup).mpr fun backup => ?_
    rw [hmem]
    refine ⟨fun hb => (h.valid_iff backup).mp hb.2, fun hb => ⟨hlisted backup hb, h.valid backup hb⟩⟩
  · rw [List.reverse_reverse]
    exact List.pairwise_insertionSort _ _

theorem returns_removeFile (hthere : s path ≠ none) : (removeFile path).Ensures
    (NoFailure name earlier) (fun r t => ∃ u, r = .ok u ∧ t = s.set path none) s := by
  refine noFailure_fsCall ?_ ?_
  · intro _ _ u s' hf
    cases hnode : s path with
    | none => exact absurd hnode hthere
    | some node =>
        simp only [hnode, Except.ok.injEq, Prod.mk.injEq] at hf
        exact ⟨u, rfl, hf.2.symm⟩
  · intro _ _ kind hf
    cases hnode : s path with
    | none => exact absurd hnode hthere
    | some node => simp [hnode] at hf

theorem HoldsBackups.remove {names : List Name} (h : HoldsBackups format s names) (oldest : Name) :
    HoldsBackups format (s.set (.backup oldest) none) (names.erase oldest) where
  nodup := h.nodup.erase oldest
  there backup := by
    rw [h.nodup.mem_erase_iff, ← h.there]
    by_cases heq : backup = oldest
    · subst heq
      simp
    · rw [AppFiles.set_of_ne (by simp [heq])]
      simp [heq]
  valid backup hmem := by
    obtain ⟨hne, hmem⟩ := h.nodup.mem_erase_iff.mp hmem
    obtain ⟨hname, bytes, restored, hbytes, hrest⟩ := h.valid backup hmem
    exact ⟨hname, bytes, restored, by rw [AppFiles.set_of_ne (by simp [hne]), hbytes], hrest⟩

/-- What a rotation makes of at most three backups: the one with the least name of
three goes, and an error is returned instead when that is the new one. -/
def Rotated (format : DatabaseFormat) (names : List Name) (newest : Name)
    (r : Except BackupError Unit) (t : AppFiles) : Prop :=
  (names.length ≤ 2 ∧ r = .ok () ∧ HoldsBackups format t names) ∨
    names.length = 3 ∧ ∃ oldest ∈ names, (∀ backup ∈ names, oldest ≤ backup) ∧
      ((oldest = newest ∧ (∃ e, r = .error e) ∧ HoldsBackups format t names) ∨
        (oldest ≠ newest ∧ r = .ok () ∧ HoldsBackups format t (names.erase oldest)))

theorem result_rotateValidatedBackups {names : List Name} {newest : Name}
    (h : HoldsBackups format s names) (hknown : ∀ backup ∈ names, backup ∈ name :: earlier)
    (hlength : names.length ≤ 3) :
    (rotateValidatedBackups format newest).Ensures (NoFailure name earlier)
      (Rotated format names newest) s := by
  refine .bind_returns (returns_listValidatedBackups h hknown) ?_
  rintro backups t ⟨hsame, hperm, hsorted⟩
  have ht := h.of_same hsame.backups
  have hrev : backups.reverse.Perm names := (List.reverse_perm _).trans hperm
  have hlen : backups.reverse.length = names.length := hrev.length_eq
  match hback : backups.reverse with
  | [] | [_] | [_, _] =>
      refine .bind_returns (P := fun _ t' => t' = t) (.pure ⟨(), rfl, rfl⟩) ?_
      rintro _ _ rfl
      refine returns_touch.mono ?_
      rintro _ _ ⟨_, rfl, rfl⟩
      refine .inl ⟨?_, rfl, ht⟩
      rw [← hlen, hback]
      simp
  | [oldest, a, b] =>
      have hthree : names.length = 3 := by rw [← hlen, hback]; rfl
      have hmem : oldest ∈ names := hrev.mem_iff.mp (by simp [hback])
      have hleast : ∀ backup ∈ names, oldest ≤ backup := by
        intro backup hbackup
        have hin := hrev.mem_iff.mpr hbackup
        rw [hback] at hin hsorted
        rcases List.mem_cons.mp hin with rfl | hin
        · exact List.le_refl _
        · exact List.rel_of_pairwise_cons hsorted hin
      by_cases heq : oldest = newest
      · refine .bind (P := fun r t' => (∃ e, r = .error e) ∧ t' = t) ?_ ?_ ?_
        · refine .ofExcept_bind (fun _ hne => absurd heq (ensure_eq_ok.mp hne)) fun e _ => ⟨⟨e, rfl⟩, rfl⟩
        · rintro _ _ ⟨⟨_, hr⟩, -⟩
          cases hr
        · rintro e t' ⟨-, rfl⟩
          exact .inr ⟨hthree, oldest, hmem, hleast, .inl ⟨heq, ⟨e, rfl⟩, ht⟩⟩
      · refine .bind_returns (P := fun _ t' => t' = t.set (.backup oldest) none) ?_ ?_
        · refine .ofExcept_bind (fun _ _ => ?_) fun e he => absurd heq (ensure_eq_error.mp he).1
          refine .bind_returns (P := fun _ t' => t' = t.set (.backup oldest) none)
            (ensures_mapError ((returns_removeFile ?_).mono ?_)) ?_
          · exact (ht.there oldest).mpr hmem
          · rintro _ t' ⟨u, rfl, rfl⟩
            exact ⟨u, rfl, rfl⟩
          · rintro _ _ rfl
            exact .pure ⟨(), rfl, rfl⟩
        · rintro _ _ rfl
          refine returns_touch.mono ?_
          rintro _ _ ⟨_, rfl, rfl⟩
          exact .inr ⟨hthree, oldest, hmem, hleast, .inr ⟨heq, rfl, ht.remove oldest⟩⟩
  | _ :: _ :: _ :: _ :: _ =>
      rw [← hlen, hback] at hlength
      simp only [List.length_cons] at hlength
      omega

theorem returns_vacuumInto {connection : LiveConnection} (h : s.Vacant path) :
    (vacuumInto connection path).Ensures (NoFailure name earlier)
      (fun r t => ∃ u, r = .ok u ∧ t = s.set path (some (.file connection.snapshot))) s := by
  refine .bind_returns (P := fun _ t => t = s.set path (some (.file connection.snapshot)))
    (.call fun answer hallows => ?_) ?_
  · rw [if_pos h, hallows.succeeds]
    exact ⟨(), rfl, rfl⟩
  · rintro _ _ rfl
    exact returns_touch

theorem returns_compressFile {compress : List UInt8 → List UInt8} {target : AppPath}
    {bytes : List UInt8} (hsource : s path = some (.file bytes)) (hfree : s target = none) :
    (compressFile compress path target).Ensures (NoFailure name earlier)
      (fun r t => ∃ u, r = .ok u ∧ t = s.set target (some (.file (compress bytes)))) s := by
  refine .bind_returns (P := fun input t => input = bytes ∧ t = s) (noFailure_fsCall ?_ ?_) ?_
  · intro _ _ input s' hf
    simp only [hsource, Except.ok.injEq, Prod.mk.injEq] at hf
    exact ⟨input, rfl, hf.1.symm, hf.2.symm⟩
  · intro _ _ kind hf
    simp [hsource] at hf
  rintro _ s ⟨rfl, rfl⟩
  rename_i input
  refine .bind_returns (P := fun _ t => t = s.set target (some (.file []))) (noFailure_fsCall ?_ ?_) ?_
  · intro _ _ u s' hf
    simp only [hfree, Except.ok.injEq, Prod.mk.injEq] at hf
    exact ⟨u, rfl, hf.2.symm⟩
  · intro _ _ kind hf
    simp [hfree] at hf
  rintro _ _ rfl
  refine .bind_returns returns_touch ?_
  rintro _ _ rfl
  refine .bind_returns (P := fun _ t => t = s.set target (some (.file (compress input))))
    (.call fun answer hallows => ?_) ?_
  · simp only [hallows.succeeds]
    exact ⟨(), rfl, AppFiles.set_set ..⟩
  · rintro _ _ rfl
    exact returns_touch

theorem returns_hardLink {target : AppPath} {node : FileNode} (hsource : s path = some node)
    (hfree : s target = none) : (hardLink path target).Ensures (NoFailure name earlier)
      (fun r t => ∃ u, r = .ok u ∧ t = s.set target (some node)) s := by
  refine noFailure_fsCall ?_ ?_
  · intro _ _ u s' hf
    simp only [hsource, hfree, Except.ok.injEq, Prod.mk.injEq] at hf
    exact ⟨u, rfl, hf.2.symm⟩
  · intro _ _ kind hf
    simp [hsource, hfree] at hf

/-- A new backup beside those that are there. -/
theorem HoldsBackups.add {names : List Name} {t : AppFiles} (h : HoldsBackups format s names)
    {new : Name} (hname : isBackupName new = true) (hfree : s (.backup new) = none)
    (hvalid : ValidBackup format t new)
    (hsame : ∀ backup, backup ≠ new → t (.backup backup) = s (.backup backup)) :
    HoldsBackups format t (new :: names) := by
  have hnew : new ∉ names := fun hmem => (h.there new).mpr hmem hfree
  have hother : ∀ backup ∈ names, backup ≠ new := fun backup hmem heq => hnew (heq ▸ hmem)
  refine ⟨List.nodup_cons.mpr ⟨hnew, h.nodup⟩, fun backup => ?_, fun backup hmem => ?_⟩
  · rw [List.mem_cons]
    by_cases heq : backup = new
    · obtain ⟨bytes, -, hbytes, -⟩ := hvalid
      rw [heq]
      simp [hbytes]
    · rw [hsame backup heq, h.there]
      simp [heq]
  · rcases List.mem_cons.mp hmem with rfl | hmem
    · exact ⟨hname, hvalid⟩
    · obtain ⟨hback, bytes, restored, hbytes, hrest⟩ := h.valid backup hmem
      exact ⟨hback, bytes, restored, by rw [hsame backup (hother backup hmem), hbytes], hrest⟩

variable {compress : List UInt8 → List UInt8} {connection : LiveConnection}

/-- The new backup is written, and the backups are rotated. -/
theorem result_writeBackup {names : List Name} {token : Token} {staging : Name}
    (hcompress : ∀ bytes, format.decompress (compress bytes) = some bytes)
    (hsnapshot : format.integrityOk connection.snapshot none none = true)
    (h : HoldsBackups format s names) (hlength : names.length ≤ 2)
    (hknown : ∀ backup ∈ names, backup ∈ earlier) (hname : isBackupName name = true)
    (hstaging : isBackupName staging = false) (hvacant : s.Vacant (.temporary "snapshot" token))
    (hunstaged : s (.backup staging) = none) (hnew : s (.backup name) = none) :
    (writeBackup format compress connection (.temporary "snapshot" token) (.backup staging)
        name).Ensures (NoFailure name earlier)
      (fun r t => t (.backup staging) = none ∧ ∃ rotated, Rotated format (name :: names) name rotated t ∧
        r = rotated.map fun _ => name) s := by
  have hne : staging ≠ name := by
    rintro rfl
    rw [hname] at hstaging
    cases hstaging
  refine .bind_returns (returns_vacuumInto hvacant) ?_
  rintro _ t rfl
  refine .bind_returns (P := fun _ t => t = s.set (.temporary "snapshot" token)
    (some (.file connection.snapshot))) (result_validateSqliteFile.mono ?_) ?_
  · rintro r _ ⟨rfl, hiff⟩
    exact ⟨(), hiff.mpr ⟨connection.snapshot, AppFiles.set_same .., hsnapshot⟩, rfl⟩
  rintro _ _ rfl
  refine .bind_returns (returns_compressFile (AppFiles.set_same ..) ?_) ?_
  · rw [AppFiles.set_of_ne (by simp), hunstaged]
  rintro _ t rfl
  have hstaged : ∀ backup, ((s.set (.temporary "snapshot" token)
      (some (.file connection.snapshot))).set (.backup staging)
        (some (.file (compress connection.snapshot)))) (.backup backup) =
      if backup = staging then some (.file (compress connection.snapshot)) else s (.backup backup) := by
    intro backup
    by_cases heq : backup = staging
    · rw [heq, AppFiles.set_same, if_pos rfl]
    · rw [AppFiles.set_of_ne (by simp [heq]), AppFiles.set_of_ne (by simp), if_neg heq]
  refine .bind_returns (P := fun _ t => ∀ backup, t (.backup backup) =
      if backup = staging then some (.file (compress connection.snapshot)) else s (.backup backup))
    (result_validateCompressedBackup.mono ?_) ?_
  · rintro r t ⟨hsame, hiff⟩
    refine ⟨(), hiff.mpr ⟨_, connection.snapshot, ?_, hcompress _, hsnapshot⟩, fun backup => ?_⟩
    · rw [hstaged, if_pos rfl]
    · rw [hsame.backups, hstaged]
  rintro _ t ht
  refine .bind_returns (returns_hardLink (by rw [ht, if_pos rfl]) ?_) ?_
  · rw [ht, if_neg hne.symm, hnew]
  rintro _ _ rfl
  refine .bind_returns (returns_removeFile ?_) ?_
  · rw [AppFiles.set_of_ne (by simp [hne]), ht, if_pos rfl]
    nofun
  rintro _ _ rfl
  refine .bind_returns returns_touch ?_
  rintro _ _ rfl
  have hadded : HoldsBackups format ((t.set (.backup name)
      (some (.file (compress connection.snapshot)))).set (.backup staging) none) (name :: names) := by
    refine h.add hname hnew ?_ fun backup hback => ?_
    · refine ⟨_, connection.snapshot, ?_, hcompress _, hsnapshot⟩
      rw [AppFiles.set_of_ne (by simp [hne.symm]), AppFiles.set_same]
    · by_cases heq : backup = staging
      · rw [heq, AppFiles.set_same, hunstaged]
      · rw [AppFiles.set_of_ne (by simp [heq]), AppFiles.set_of_ne (by simp [hback]), ht, if_neg heq]
  have hbounded : (name :: names).length ≤ 3 := Nat.succ_le_succ hlength
  have hlisted : ∀ backup ∈ name :: names, backup ∈ name :: earlier := by
    intro backup hmem
    rcases List.mem_cons.mp hmem with rfl | hmem
    · exact .head _
    · exact .tail _ (hknown backup hmem)
  -- the staging file is no backup, so none of the backups that are left
  have hgone : ∀ rotated t', Rotated format (name :: names) name rotated t' →
      t' (.backup staging) = none := by
    have hnone : ∀ {t' : AppFiles} {left : List Name}, HoldsBackups format t' left →
        t' (.backup staging) = none := by
      intro t' left hleft
      by_contra hthere
      obtain ⟨hback, -⟩ := hleft.valid staging ((hleft.there staging).mp hthere)
      rw [hback] at hstaging
      cases hstaging
    rintro rotated t' (⟨-, -, hleft⟩ | ⟨-, _, -, -, ⟨-, -, hleft⟩ | ⟨-, -, hleft⟩⟩)
    · exact hnone hleft
    · exact hnone hleft
    · exact hnone hleft
  refine .bind (result_rotateValidatedBackups hadded hlisted hbounded) ?_ ?_
  · rintro u t' hrotated
    exact .pure ⟨hgone _ _ hrotated, .ok u, hrotated, rfl⟩
  · rintro e t' hrotated
    exact ⟨hgone _ _ hrotated, .error e, hrotated, rfl⟩

theorem returns_checkLive (hsound : SoundDatabase format connection s) :
    (checkLive format).Ensures (NoFailure name earlier) (fun r t => ∃ u, r = .ok u ∧ t = s) s := by
  refine .bind_returns (.attempt (result_symlinkMetadata.mono fun r t h => ⟨r, rfl, h⟩)) ?_
  rintro v t ⟨rfl, rfl⟩
  rcases hsound.live with hnone | ⟨bytes, hlive, hok⟩
  · rw [hnone]
    exact .pure ⟨(), rfl, rfl⟩
  · rw [hlive]
    refine .ofExcept_bind (fun _ _ => ?_) fun e he => absurd rfl (ensure_eq_error.mp he).1
    refine .bind_returns returns_touch ?_
    rintro _ _ rfl
    refine result_validateSqliteFile.mono ?_
    rintro r _ ⟨rfl, hiff⟩
    exact ⟨(), hiff.mpr ⟨bytes, hlive, hok⟩, rfl⟩

theorem Rotated.of_same {names : List Name} {newest : Name} {r : Except BackupError Unit}
    {t t' : AppFiles} (h : Rotated format names newest r t)
    (hsame : ∀ backup, t' (.backup backup) = t (.backup backup)) :
    Rotated format names newest r t' := by
  rcases h with ⟨hlength, hr, hleft⟩ | ⟨hlength, oldest, hmem, hleast, hcase⟩
  · exact .inl ⟨hlength, hr, hleft.of_same hsame⟩
  · refine .inr ⟨hlength, oldest, hmem, hleast, ?_⟩
    rcases hcase with ⟨heq, hr, hleft⟩ | ⟨hne, hr, hleft⟩
    · exact .inl ⟨heq, hr, hleft.of_same hsame⟩
    · exact .inr ⟨hne, hr, hleft.of_same hsame⟩

/-- **One call.** The new backup joins those that are there, and they are rotated. -/
theorem result_createValidatedBackup {names : List Name}
    (hcompress : ∀ bytes, format.decompress (compress bytes) = some bytes)
    (hsound : SoundDatabase format connection s) (h : HoldsBackups format s names)
    (hlength : names.length ≤ 2) (hknown : ∀ backup ∈ names, backup ∈ earlier) :
    (createValidatedBackup format compress connection).Ensures (NoFailure name earlier)
      (fun r t => name ∉ names ∧ ∃ rotated, Rotated format (name :: names) name rotated t ∧
        r = rotated.map fun _ => name) s := by
  refine .bind_returns returns_ensureLayout ?_
  rintro _ s rfl
  refine .bind_returns (returns_checkLive hsound) ?_
  rintro _ s rfl
  refine .bind_returns (P := fun _ t => t = s) (.call fun answer hallows => ?_) ?_
  · refine ⟨(), ?_, rfl⟩
    rw [unit_bind_eq_ok, ensure_eq_ok, ensure_eq_ok]
    exact ⟨hallows.succeeds, hsound.intact⟩
  rintro _ s rfl
  refine .bind_returns (P := fun token t => t = s ∧ s.Vacant (.temporary "snapshot" token))
    (.call fun answer hallows => ⟨_, rfl, rfl, hallows.free⟩) ?_
  rintro snapshotToken s ⟨rfl, hvacant⟩
  refine .bind_returns (P := fun token t => t = s ∧ s (.backup (stagingFileName token)) = none)
    (.call fun answer hallows => ⟨_, rfl, rfl, hallows.free⟩) ?_
  rintro stagingToken s ⟨rfl, hunstaged⟩
  refine .bind_returns
    (P := fun token t => t = s ∧ backupFileName token = name ∧ s (.backup name) = none)
    (.call fun answer hallows => ⟨_, rfl, rfl, hallows.free⟩) ?_
  rintro token s ⟨rfl, rfl, hnew⟩
  have hfresh : backupFileName token ∉ names := fun hmem => (h.there _).mpr hmem hnew
  have hwritten := result_writeBackup hcompress hsound.snapshot h hlength
    hknown (isBackupName_backupFileName token) (isBackupName_stagingFileName stagingToken) hvacant
    hunstaged hnew
  refine .bind_returns (.attempt (hwritten.mono fun r t ht => ⟨r, rfl, ht⟩)) ?_
  rintro r t ⟨hgone, rotated, hrotated, hr⟩
  refine .bind_returns (P := fun _ t' => SameApplication t t')
    (ensures_removeTemporary.mono fun r t' h => ⟨(), h.1, h.2⟩) ?_
  rintro _ t' hsame
  refine .bind_returns (P := fun _ t'' => ∀ backup, t'' (.backup backup) = t' (.backup backup))
    ((ensures_ignore (ensures_removeFile.mono ?_)).mono fun r t'' h => ⟨(), h.1, h.2⟩) ?_
  · rintro _ _ (rfl | rfl) backup
    · rfl
    · by_cases heq : backup = stagingFileName stagingToken
      · rw [heq, AppFiles.set_same, hsame.backups, hgone]
      · exact AppFiles.set_of_ne (by simp [heq])
  rintro _ t'' hsame'
  refine .ofExcept ⟨hfresh, rotated, hrotated.of_same fun backup => ?_, hr⟩
  rw [hsame' backup, hsame.backups]

end

/-! ## Histories -/

section

variable {format : DatabaseFormat} {compress : List UInt8 → List UInt8}

theorem KeepsNewestTwo.past {call : FinishedCall} {calls : List FinishedCall}
    (h : KeepsNewestTwo format (call :: calls)) : KeepsNewestTwo format calls :=
  fun call' past hsuffix => h call' past (hsuffix.trans (List.suffix_cons call calls))

theorem OldestLeast.past {name : Name} {names : List Name} (h : OldestLeast (name :: names)) :
    OldestLeast names :=
  fun new newer older past hsuffix => h new newer older past (hsuffix.trans (List.suffix_cons name names))

/-- The condition of one call, after those of `past`. -/
def OlderLeast (name : Name) (past : List Name) : Prop :=
  ∀ newer older rest, past = newer :: older :: rest → older < newer ∧ older < name

theorem oldestLeast_cons {name : Name} {past : List Name} :
    OldestLeast (name :: past) ↔ OlderLeast name past ∧ OldestLeast past := by
  constructor
  · intro h
    refine ⟨?_, h.past⟩
    rintro newer older rest rfl
    exact h name newer older rest (List.suffix_refl _)
  · rintro ⟨hhere, hpast⟩ new newer older rest hsuffix
    rcases List.suffix_cons_iff.mp hsuffix with heq | hsuffix
    · obtain ⟨rfl, hrest⟩ := List.cons.inj heq
      exact hhere newer older rest hrest.symm
    · exact hpast new newer older rest hsuffix

theorem lt_of_least {a b : Name} (hle : a ≤ b) (hne : a ≠ b) : a < b := by
  by_contra hnot
  exact hne (List.le_antisymm hle hnot)

/-- **What a call leaves.** The two newest backups, when the condition held, and
otherwise not. -/
theorem Rotated.keeps_iff {name : Name} {past : List Name} {r : Except BackupError Unit}
    {t : AppFiles} (h : Rotated format (name :: past.take 2) name r t)
    (hnodup : (name :: past.take 2).Nodup) :
    (OlderLeast name past → r = .ok () ∧ HoldsBackups format t ((name :: past).take 2)) ∧
      (¬ OlderLeast name past → r ≠ .ok () ∨ ∃ newer, newer ∈ (name :: past).take 2 ∧
        ¬ (isBackupName newer = true ∧ ValidBackup format t newer)) := by
  match past with
  | [] =>
      rcases h with ⟨-, hr, hleft⟩ | ⟨hthree, -⟩
      · exact ⟨fun _ => ⟨hr, hleft⟩, fun hnot => absurd nofun hnot⟩
      · cases hthree
  | [newer] =>
      rcases h with ⟨-, hr, hleft⟩ | ⟨hthree, -⟩
      · exact ⟨fun _ => ⟨hr, hleft⟩, fun hnot => absurd nofun hnot⟩
      · cases hthree
  | newer :: older :: rest =>
      have hnames : name ≠ newer ∧ name ≠ older ∧ newer ≠ older := by
        simpa [not_or, and_assoc] using hnodup
      obtain ⟨hnewer, holder, hpast⟩ := hnames
      rcases h with ⟨htwo, -, -⟩ | ⟨-, oldest, hmem, hleast, hcase⟩
      · exact absurd htwo (by simp)
      · have hname := hleast name (by simp)
        have hleastNewer := hleast newer (by simp)
        have hleastOlder := hleast older (by simp)
        rcases hcase with ⟨rfl, ⟨e, hr⟩, -⟩ | ⟨hne, hr, hleft⟩
        · refine ⟨fun hcond => ?_, fun _ => .inl (by rw [hr]; nofun)⟩
          exact absurd (hcond newer older rest rfl).2 hleastOlder
        · rcases (by simpa using hmem : oldest = name ∨ oldest = newer ∨ oldest = older) with
            rfl | rfl | rfl
          · exact absurd rfl hne
          · -- the newer one of the two is gone
            refine ⟨fun hcond => absurd (hcond _ older rest rfl).1 hleastOlder, fun _ => .inr ?_⟩
            refine ⟨oldest, by simp, fun hvalid => ?_⟩
            have hin := (hleft.valid_iff oldest).mp hvalid
            exact (hnodup.mem_erase_iff.mp hin).1 rfl
          · refine ⟨fun _ => ⟨hr, ?_⟩, fun hnot => absurd ?_ hnot⟩
            · have herase : (name :: (newer :: oldest :: rest).take 2).erase oldest = [name, newer] := by
                simp [holder, hpast]
              rw [herase] at hleft
              exact hleft
            · rintro _ _ _ ⟨⟩
              exact ⟨lt_of_least hleastNewer hpast.symm, lt_of_least hname holder.symm⟩

/-- The last call, when those before it kept the two newest. -/
theorem keepsNewestTwo_cons {call : FinishedCall} {calls : List FinishedCall} :
    KeepsNewestTwo format (call :: calls) ↔
      (call.result = .ok call.name ∧
        let newest := ((call :: calls).map (·.name)).take 2
        newest.Nodup ∧ ∀ name,
          (isBackupName name = true ∧ ValidBackup format call.files name) ↔ name ∈ newest) ∧
        KeepsNewestTwo format calls := by
  constructor
  · exact fun h => ⟨h call calls (List.suffix_refl _), h.past⟩
  · rintro ⟨hhere, hpast⟩ call' past hsuffix
    rcases List.suffix_cons_iff.mp hsuffix with heq | hsuffix
    · cases heq
      exact hhere
    · exact hpast call' past hsuffix

/-- As long as the condition held, the directory holds the two newest backups. -/
theorem CreationHistory.keeps {calls : List FinishedCall} {files : AppFiles}
    (hcompress : ∀ bytes, format.decompress (compress bytes) = some bytes)
    (h : CreationHistory format compress calls files) :
    (OldestLeast (calls.map (·.name)) →
      KeepsNewestTwo format calls ∧ HoldsBackups format files ((calls.map (·.name)).take 2)) ∧
    (KeepsNewestTwo format calls → OldestLeast (calls.map (·.name))) := by
  induction h with
  | empty hnone =>
      refine ⟨fun _ => ⟨fun _ _ hsuffix => ?_, ?_⟩, fun _ _ _ _ _ hsuffix => ?_⟩
      · cases List.suffix_nil.mp hsuffix
      · exact ⟨List.nodup_nil, fun backup => by simp [hnone], by simp⟩
      · cases List.suffix_nil.mp hsuffix
  | elsewhere _ hsame ih =>
      exact ⟨fun hcond => ⟨(ih.1 hcond).1, (ih.1 hcond).2.of_same hsame⟩, ih.2⟩
  | @created calls files files' connection name r _ hsound hreturns ih =>
      rw [List.map_cons, oldestLeast_cons, keepsNewestTwo_cons]
      -- what the call left, as the earlier calls kept the two newest
      have hstep : OldestLeast (calls.map (·.name)) → ∃ rotated,
          Rotated format (name :: (calls.map (·.name)).take 2) name rotated files' ∧
            (name :: (calls.map (·.name)).take 2).Nodup ∧ r = rotated.map fun _ => name := by
        intro hpast
        have hholds := (ih.1 hpast).2
        obtain ⟨hfresh, rotated, hrotated, hr⟩ := hreturns.of_ensures
          (result_createValidatedBackup hcompress hsound hholds
            (List.length_take_le 2 _) fun backup hmem => List.mem_of_mem_take hmem)
        exact ⟨rotated, hrotated, List.nodup_cons.mpr ⟨hfresh, hholds.nodup⟩, hr⟩
      constructor
      · rintro ⟨hhere, hpast⟩
        obtain ⟨rotated, hrotated, hnodup, hr⟩ := hstep hpast
        obtain ⟨rfl, hleft⟩ := (hrotated.keeps_iff hnodup).1 hhere
        exact ⟨⟨⟨hr, hleft.nodup, hleft.valid_iff⟩, (ih.1 hpast).1⟩, hleft⟩
      · rintro ⟨⟨hresult, -, hiff⟩, hkept⟩
        have hpast := ih.2 hkept
        obtain ⟨rotated, hrotated, hnodup, hr⟩ := hstep hpast
        refine ⟨?_, hpast⟩
        by_contra hnot
        rcases (hrotated.keeps_iff hnodup).2 hnot with hbad | ⟨newer, hmem, hinvalid⟩
        · rw [hr] at hresult
          cases rotated with
          | ok u => exact hbad rfl
          | error e => cases hresult
        · exact hinvalid ((hiff newer).mpr hmem)

end

/-- **The two newest backups are kept** in every history without failures exactly when
the older one of two backups has the least name whenever a third one comes. -/
theorem newest_two_iff {format : DatabaseFormat} {compress : List UInt8 → List UInt8}
    {calls : List FinishedCall} {files : AppFiles}
    (hcompress : ∀ bytes, format.decompress (compress bytes) = some bytes)
    (h : CreationHistory format compress calls files) :
    KeepsNewestTwo format calls ↔ OldestLeast (calls.map (·.name)) :=
  ⟨(h.keeps hcompress).2, fun hcond => ((h.keeps hcompress).1 hcond).1⟩

/-! ### A clock that goes back -/

/-- Every file is a database, and compressed by one more byte, or by the header when it
is empty. -/
def headerFormat : DatabaseFormat where
  integrityOk _ _ _ := true
  decompress bytes :=
    if bytes = emptyCompressed then some [] else match bytes with
      | 0 :: rest => some rest
      | _ => none

def headerCompress (bytes : List UInt8) : List UInt8 :=
  if bytes = [] then emptyCompressed else 0 :: bytes

theorem headerFormat_compress (bytes : List UInt8) :
    headerFormat.decompress (headerCompress bytes) = some bytes := by
  by_cases hempty : bytes = []
  · subst hempty
    rfl
  · rw [headerCompress, if_neg hempty]
    rfl

def emptyConnection : LiveConnection := ⟨true, []⟩

/-- The answers when the clock shows `clock` throughout, the count begins at `first`,
and the backups are these. -/
def clockAnswers (clock : Nat) (first : Nat) (entries : List Name) (n : Nat) : FsAnswer :=
  ⟨false, (clock, UInt64.ofNat (first + n)), entries, []⟩

def creating (answers : Nat → FsAnswer) (files : AppFiles) : Except BackupError Name × AppFiles :=
  (createValidatedBackup headerFormat headerCompress emptyConnection).outcome answers 0 files

/-- The names that the three calls below take. -/
def clockNames : List Name :=
  [backupFileName (2, 210), backupFileName (4, 110), backupFileName (3, 10)]

theorem creating_creates {calls : List FinishedCall} {files : AppFiles} {answers : Nat → FsAnswer}
    {name : Name} (h : CreationHistory headerFormat headerCompress calls files)
    (hlive : files (.live .database) = none)
    (hallowed : (createValidatedBackup headerFormat headerCompress emptyConnection).AllowedSince
      (NoFailure name (calls.map (·.name))) answers 0 files) :
    CreationHistory headerFormat headerCompress
      (⟨name, (creating answers files).1, (creating answers files).2⟩ :: calls)
      (creating answers files).2 :=
  .created h ⟨.inl hlive, rfl, rfl⟩ (Procedure.returnsUnder_outcome hallowed)

def firstCall : Except BackupError Name × AppFiles :=
  creating (clockAnswers 3 0 [backupFileName (3, 10)]) fun _ => none

def secondCall : Except BackupError Name × AppFiles :=
  creating (clockAnswers 4 100 [backupFileName (4, 110), backupFileName (3, 10)]) firstCall.2

theorem twoCreated : CreationHistory headerFormat headerCompress
    [⟨backupFileName (4, 110), secondCall.1, secondCall.2⟩,
      ⟨backupFileName (3, 10), firstCall.1, firstCall.2⟩] secondCall.2 := by
  have hfirst : CreationHistory headerFormat headerCompress
      [⟨backupFileName (3, 10), firstCall.1, firstCall.2⟩] firstCall.2 :=
    creating_creates (.empty fun _ => rfl) rfl (by decide +kernel)
  exact creating_creates hfirst (by decide +kernel) (by decide +kernel)

/-- The clock has gone on. -/
def laterCall : Except BackupError Name × AppFiles :=
  creating (clockAnswers 5 200
    [backupFileName (5, 210), backupFileName (4, 110), backupFileName (3, 10)]) secondCall.2

/-- While the clock goes on, the first of three backups is removed. -/
theorem newest_two_first :
    KeepsNewestTwo headerFormat [⟨backupFileName (5, 210), laterCall.1, laterCall.2⟩,
      ⟨backupFileName (4, 110), secondCall.1, secondCall.2⟩,
      ⟨backupFileName (3, 10), firstCall.1, firstCall.2⟩] ∧
      laterCall.2 (.backup (backupFileName (3, 10))) = none := by
  have hlater : CreationHistory headerFormat headerCompress
      [⟨backupFileName (5, 210), laterCall.1, laterCall.2⟩,
        ⟨backupFileName (4, 110), secondCall.1, secondCall.2⟩,
        ⟨backupFileName (3, 10), firstCall.1, firstCall.2⟩] laterCall.2 :=
    creating_creates twoCreated (by decide +kernel) (by decide +kernel)
  refine ⟨(newest_two_iff headerFormat_compress hlater).mpr ?_, by decide +kernel⟩
  rintro new newer older past ⟨front, hnames⟩
  have hlength := congrArg List.length hnames
  simp only [List.length_append, List.length_cons, List.length_map, List.length_nil] at hlength
  obtain rfl : front = [] := List.length_eq_zero_iff.mp (by omega)
  change new :: newer :: older :: past =
    [backupFileName (5, 210), backupFileName (4, 110), backupFileName (3, 10)] at hnames
  injection hnames with hnew hnames
  injection hnames with hnewer hnames
  injection hnames with holder
  rw [hnew, hnewer, holder]
  exact ⟨by decide +kernel, by decide +kernel⟩

/-- The clock has gone back. -/
def thirdCall : Except BackupError Name × AppFiles :=
  creating (clockAnswers 2 200 clockNames) secondCall.2

theorem clockHistory : CreationHistory headerFormat headerCompress
    [⟨backupFileName (2, 210), thirdCall.1, thirdCall.2⟩,
      ⟨backupFileName (4, 110), secondCall.1, secondCall.2⟩,
      ⟨backupFileName (3, 10), firstCall.1, firstCall.2⟩] thirdCall.2 :=
  creating_creates twoCreated (by decide +kernel) (by decide +kernel)

/-- The third backup has the least name, and the call that made it fails. -/
theorem newest_two_not_kept :
    ¬ ∀ (format : DatabaseFormat) (compress : List UInt8 → List UInt8) (calls : List FinishedCall)
      (files : AppFiles), (∀ bytes, format.decompress (compress bytes) = some bytes) →
        CreationHistory format compress calls files → KeepsNewestTwo format calls := by
  intro h
  have hkept := h _ _ _ _ headerFormat_compress clockHistory
  have hresult := (hkept _ _ (List.suffix_refl _)).1
  have herror : thirdCall.1 = .error (.rotation .selectedNewest) := by decide +kernel
  rw [herror] at hresult
  cases hresult

end SyncPlus
