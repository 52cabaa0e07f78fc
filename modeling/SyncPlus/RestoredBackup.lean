import SyncPlus.BackupSnapshot
import SyncPlus.Lib.Interruptions

/-!
# A backup brings the database back

After a backup was returned as created the application goes on: it makes other backups,
sets databases aside and restores some, any of these calls may fail or be cut short at any
step, and whatever lies outside the backup directory changes as it likes. The backup is
then as it was made, or it has been rotated away. A restore of it that succeeds leaves the
snapshot at the live path, and one that nothing hinders does succeed as long as the backup
is there (`restored_snapshot`).
-/

namespace SyncPlus

/-! ## The backup in later runs -/

section

variable (format : DatabaseFormat) (name : Name)

/-- A new backup gets another name than this one. -/
def OtherName : Site → FsAnswer → AppFiles → Prop
  | .backupName, answer, _ => backupFileName answer.token ≠ name
  | _, _, _ => True

/-- What becomes of the files after the backup `name` was made. Each call may be
interrupted. -/
inductive AfterBackup (start : AppFiles) : AppFiles → Prop
  | start : AfterBackup start start
  | created {files : AppFiles} (compress : List UInt8 → List UInt8) (connection : LiveConnection)
      (answers : Nat → FsAnswer) (k : Nat) : AfterBackup start files →
        (createValidatedBackup format compress connection).AllowedSince (OtherName name) answers 0
          files →
        AfterBackup start
          ((createValidatedBackup format compress connection).interrupted answers 0 k files)
  | called {files : AppFiles} (call : BackupCall) (answers : Nat → FsAnswer) (k : Nat) :
      AfterBackup start files →
        AfterBackup start ((call.body format).interrupted answers 0 k files)
  | changed {files files' : AppFiles} : AfterBackup start files →
      (∀ backup, files' (.backup backup) = files (.backup backup)) → AfterBackup start files'

/-- The backup is what it was made, or gone. -/
def KeptOrGone (node : FileNode) (files : AppFiles) : Prop :=
  files (.backup name) = some node ∨ files (.backup name) = none

end

section

variable {format : DatabaseFormat} {allows : Site → FsAnswer → AppFiles → Prop} {name : Name}
  {node : FileNode} {site : Site} {path : AppPath}

theorem KeptOrGone.congr {s t : AppFiles} (h : KeptOrGone name node s)
    (hsame : t (.backup name) = s (.backup name)) : KeptOrGone name node t := by
  unfold KeptOrGone
  rw [hsame]
  exact h

theorem KeptOrGone.set {s : AppFiles} {node' : Option FileNode} (h : KeptOrGone name node s)
    (hpath : path ≠ .backup name) : KeptOrGone name node (s.set path node') :=
  h.congr (AppFiles.set_of_ne hpath.symm)

theorem KeptOrGone.set_none {s : AppFiles} (h : KeptOrGone name node s) :
    KeptOrGone name node (s.set path none) := by
  by_cases hpath : path = .backup name
  · subst hpath
    exact .inr (AppFiles.set_same ..)
  · exact h.set hpath

theorem preserves_fsCall {α : Type} {f : FsAnswer → AppFiles → Except IoErrorKind (α × AppFiles)}
    (h : ∀ answer s a s', KeptOrGone name node s → f answer s = .ok (a, s') →
      KeptOrGone name node s') :
    (fsCall site f).Preserves allows (KeptOrGone name node) := by
  refine .call fun answer s hs _ => ?_
  split
  · exact hs
  · cases hf : f answer s with
    | ok result => exact h answer s result.1 result.2 hs hf
    | error kind => exact hs

theorem preserves_touch : touch.Preserves allows (KeptOrGone name node) :=
  preserves_fsCall (by rintro _ _ _ _ hs ⟨⟩; exact hs)

theorem preserves_symlinkMetadata :
    (symlinkMetadata site path).Preserves allows (KeptOrGone name node) := by
  refine preserves_fsCall fun _ s _ s' hs hf => ?_
  cases hnode : s path <;> simp only [hnode] at hf
  · cases hf
  · cases hf
    exact hs

theorem preserves_openFile : (openFile path).Preserves allows (KeptOrGone name node) := by
  refine preserves_fsCall fun _ s _ s' hs hf => ?_
  rcases hnode : s path with _ | (bytes | _) <;> simp only [hnode] at hf
  · cases hf
  · cases hf
    exact hs
  · cases hf

theorem preserves_openCreateNew (hpath : path ≠ .backup name) :
    (openCreateNew path).Preserves allows (KeptOrGone name node) := by
  refine preserves_fsCall fun _ s _ s' hs hf => ?_
  cases hnode : s path <;> simp only [hnode] at hf
  · cases hf
    exact hs.set hpath
  · cases hf

theorem preserves_removeFile : (removeFile path).Preserves allows (KeptOrGone name node) := by
  refine preserves_fsCall fun _ s _ s' hs hf => ?_
  cases hnode : s path <;> simp only [hnode] at hf
  · cases hf
  · cases hf
    exact hs.set_none

theorem preserves_rename {target : AppPath} (htarget : target ≠ .backup name) :
    (rename path target).Preserves allows (KeptOrGone name node) := by
  refine preserves_fsCall fun _ s _ s' hs hf => ?_
  cases hnode : s path <;> simp only [hnode] at hf
  · cases hf
  · cases hf
    exact hs.set_none.set htarget

theorem preserves_hardLink {target : AppPath} (htarget : target ≠ .backup name) :
    (hardLink path target).Preserves allows (KeptOrGone name node) := by
  refine preserves_fsCall fun _ s _ s' hs hf => ?_
  split at hf
  · cases hf
    exact hs.set htarget
  · cases hf
  · cases hf

theorem preserves_copyInto {read : Option (List UInt8)} {error : BackupError}
    (hpath : path ≠ .backup name) :
    (copyInto read error path).Preserves allows (KeptOrGone name node) := by
  refine .call fun answer s hs _ => ?_
  split
  · split
    · exact hs.set hpath
    · exact hs.set hpath
  · exact hs.set hpath

theorem preserves_readDir : readDir.Preserves allows (KeptOrGone name node) :=
  preserves_fsCall (by rintro _ _ _ _ hs ⟨⟩; exact hs)

theorem preserves_uniqueToken : (uniqueToken site).Preserves allows (KeptOrGone name node) :=
  .call fun _ _ hs _ => hs

theorem preserves_mapError {α : Type} {p : Backup α} {f : BackupError → BackupError}
    (hp : p.Preserves allows (KeptOrGone name node)) :
    (p.mapError f).Preserves allows (KeptOrGone name node) := by
  refine .bind (.attempt hp) fun r => ?_
  cases r with
  | ok a => exact .pure
  | error e => exact .ofExcept

theorem preserves_ignore {p : Backup Unit} (hp : p.Preserves allows (KeptOrGone name node)) :
    (Backup.ignore p).Preserves allows (KeptOrGone name node) :=
  .bind (.attempt hp) fun _ => .pure

/-! ### The calls -/

theorem preserves_ensureLayout : ensureLayout.Preserves allows (KeptOrGone name node) := by
  have hdir : ensurePrivateDir.Preserves allows (KeptOrGone name node) :=
    .bind preserves_touch fun _ => preserves_touch
  exact .bind hdir fun _ => .bind hdir fun _ => hdir

theorem preserves_validateSqliteFile :
    (validateSqliteFile format site path).Preserves allows (KeptOrGone name node) :=
  .bind preserves_symlinkMetadata fun _ => .bind .ofExcept fun _ => .call fun _ _ hs _ => hs

theorem preserves_decompressFile {target : AppPath} (htarget : target ≠ .backup name) :
    (decompressFile format path target).Preserves allows (KeptOrGone name node) :=
  .bind preserves_openFile fun _ => .bind (preserves_openCreateNew htarget) fun _ =>
    .bind preserves_touch fun _ => .bind (preserves_copyInto htarget) fun _ => preserves_touch

theorem preserves_isRegularFile :
    (isRegularFile path).Preserves allows (KeptOrGone name node) := by
  refine .bind (.attempt preserves_symlinkMetadata) fun r => ?_
  cases r with
  | ok isFile => exact .pure
  | error e => exact .pure

theorem preserves_validateCompressedBackup :
    (validateCompressedBackup format path).Preserves allows (KeptOrGone name node) :=
  .bind preserves_isRegularFile fun _ => .bind .ofExcept fun _ =>
    .bind preserves_uniqueToken fun _ =>
      .bind (.attempt (.bind (preserves_decompressFile (by simp)) fun _ =>
        preserves_validateSqliteFile)) fun _ =>
        .bind (preserves_ignore preserves_removeFile) fun _ => .ofExcept

theorem preserves_listEntries (names : List Name) :
    (listEntries format names).Preserves allows (KeptOrGone name node) := by
  induction names with
  | nil => exact .pure
  | cons entry rest ih =>
      refine .bind preserves_touch fun _ => ?_
      split
      · refine .bind preserves_isRegularFile fun isFile => ?_
        split
        · exact .bind (.attempt preserves_validateCompressedBackup) fun _ => .bind ih fun _ => .pure
        · exact ih
      · exact ih

theorem preserves_listValidatedBackups :
    (listValidatedBackups format).Preserves allows (KeptOrGone name node) :=
  .bind preserves_ensureLayout fun _ => .bind preserves_readDir fun entries =>
    .bind (preserves_listEntries entries) fun _ => .pure

theorem preserves_validateSelectedBackup {selected : AppPath} :
    (validateSelectedBackup format selected).Preserves allows (KeptOrGone name node) := by
  unfold validateSelectedBackup
  split
  · exact .bind .ofExcept fun _ => .bind preserves_listValidatedBackups fun _ => .ofExcept
  · split
    · exact .ofExcept
    · exact .ofExcept
  · exact .ofExcept

theorem preserves_regularSidecars (parts : List DatabasePart) :
    (regularSidecars parts).Preserves allows (KeptOrGone name node) := by
  induction parts with
  | nil => exact .pure
  | cons part rest ih =>
      refine .bind (.attempt preserves_symlinkMetadata) fun r => ?_
      split
      · exact .bind ih fun _ => .pure
      · exact .ofExcept
      · exact ih
      · exact .ofExcept

theorem preserves_moveSidecars {token : Token} (parts : List DatabasePart) :
    (moveSidecars token parts).Preserves allows (KeptOrGone name node) := by
  induction parts with
  | nil => exact .pure
  | cons part rest ih =>
      exact .bind (preserves_mapError (preserves_rename (by simp))) fun _ =>
        .bind preserves_touch fun _ => ih

theorem preserves_quarantineLiveDatabase :
    (quarantineLiveDatabase format).Preserves allows (KeptOrGone name node) :=
  .bind preserves_ensureLayout fun _ =>
    .bind (preserves_mapError preserves_symlinkMetadata) fun _ => .bind .ofExcept fun _ =>
      .bind (.attempt preserves_validateSqliteFile) fun _ => .bind .ofExcept fun _ =>
        .bind (preserves_regularSidecars _) fun _ => .bind preserves_uniqueToken fun _ =>
          .bind (preserves_mapError (preserves_rename (by simp))) fun _ =>
            .bind (preserves_moveSidecars _) fun _ =>
              .bind preserves_touch fun _ => .bind preserves_touch fun _ => .pure

theorem preserves_installDatabase {target : AppPath} (htarget : target ≠ .backup name) :
    (installDatabase path target).Preserves allows (KeptOrGone name node) := by
  have hdrop : ∀ e, (Backup.ignore (removeFile target) >>= fun _ =>
      (Procedure.ofExcept (.error e) : Backup Unit)).Preserves allows (KeptOrGone name node) :=
    fun _ => .bind (preserves_ignore preserves_removeFile) fun _ => .ofExcept
  refine .bind (.attempt preserves_symlinkMetadata) fun _ => .bind .ofExcept fun _ =>
    .bind preserves_openFile fun _ => .bind (preserves_openCreateNew htarget) fun _ =>
      .bind (.attempt preserves_touch) fun r => ?_
  cases r with
  | error e => exact hdrop e
  | ok u =>
      refine .bind (.attempt (.bind (preserves_copyInto htarget) fun _ =>
        .bind preserves_touch fun _ => preserves_touch)) fun result => ?_
      cases result with
      | ok u => exact .pure
      | error e => exact hdrop e

theorem preserves_setAside : (setAside format).Preserves allows (KeptOrGone name node) := by
  refine .bind (.attempt preserves_symlinkMetadata) fun r => ?_
  cases r with
  | error e => exact .pure
  | ok isFile =>
      exact .bind .ofExcept fun _ => .bind (.attempt preserves_validateSqliteFile) fun _ =>
        .bind .ofExcept fun _ => .bind preserves_quarantineLiveDatabase fun _ => .pure

theorem preserves_checkInstalled (installed : Except BackupError Unit) :
    (checkInstalled format installed).Preserves allows (KeptOrGone name node) := by
  cases installed with
  | error e => exact .pure
  | ok u =>
      refine .bind (.attempt preserves_validateSqliteFile) fun r => ?_
      cases r with
      | ok u => exact .pure
      | error e => exact .bind (preserves_ignore preserves_removeFile) fun _ => .pure

theorem preserves_installSelected {selected : Name} :
    (installSelected format selected).Preserves allows (KeptOrGone name node) :=
  .bind preserves_uniqueToken fun _ =>
    .bind (.attempt (.bind (preserves_decompressFile (by simp)) fun _ =>
      .bind preserves_validateSqliteFile fun _ => preserves_installDatabase (by simp))) fun _ =>
      .bind (preserves_checkInstalled _) fun _ =>
        .bind (preserves_ignore preserves_removeFile) fun _ => .bind .ofExcept fun _ => .pure

/-- A quarantine and a restore leave the backups. -/
theorem preserves_call (call : BackupCall) :
    (call.body format).Preserves allows (KeptOrGone name node) := by
  cases call with
  | quarantineLiveDatabase => exact preserves_quarantineLiveDatabase
  | restoreValidatedBackup selected =>
      exact .bind preserves_ensureLayout fun _ => .bind preserves_validateSelectedBackup fun _ =>
        .bind preserves_setAside fun _ => preserves_installSelected

theorem preserves_vacuumInto {connection : LiveConnection} (hpath : path ≠ .backup name) :
    (vacuumInto connection path).Preserves allows (KeptOrGone name node) := by
  refine .bind (.call fun answer s hs _ => ?_) fun _ => preserves_touch
  split
  · split
    · exact hs.set hpath
    · exact hs.set hpath
  · exact hs

theorem preserves_compressFile {compress : List UInt8 → List UInt8} {target : AppPath}
    (htarget : target ≠ .backup name) :
    (compressFile compress path target).Preserves allows (KeptOrGone name node) :=
  .bind preserves_openFile fun _ => .bind (preserves_openCreateNew htarget) fun _ =>
    .bind preserves_touch fun _ => .bind (preserves_copyInto htarget) fun _ => preserves_touch

/-- A rotation removes backups, and changes none. -/
theorem preserves_rotateValidatedBackups {newest : Name} :
    (rotateValidatedBackups format newest).Preserves allows (KeptOrGone name node) := by
  have hremove : ∀ backups, (removeOldest newest backups).Preserves allows
      (KeptOrGone name node) := by
    intro backups
    fun_induction removeOldest newest backups with
    | case1 oldest a b rest ih =>
        exact .bind .ofExcept fun _ => .bind (preserves_mapError preserves_removeFile) fun _ => ih
    | case2 => exact .pure
  exact .bind preserves_listValidatedBackups fun backups => .bind (hremove _) fun _ =>
    preserves_touch

theorem preserves_checkLive : (checkLive format).Preserves allows (KeptOrGone name node) := by
  refine .bind (.attempt preserves_symlinkMetadata) fun r => ?_
  cases r with
  | error e => exact .pure
  | ok isFile => exact .bind .ofExcept fun _ => .bind preserves_touch fun _ =>
      preserves_validateSqliteFile

/-- A new backup is written elsewhere. -/
theorem preserves_writeBackup {compress : List UInt8 → List UInt8} {connection : LiveConnection}
    {label : String} {token : Token} {staging newest : Name} (hstaging : staging ≠ name)
    (hnewest : newest ≠ name) :
    (writeBackup format compress connection (.temporary label token) (.backup staging)
      newest).Preserves allows (KeptOrGone name node) :=
  .bind (preserves_vacuumInto (by simp)) fun _ => .bind preserves_validateSqliteFile fun _ =>
    .bind (preserves_compressFile (by simpa using hstaging)) fun _ =>
      .bind preserves_validateCompressedBackup fun _ =>
        .bind (preserves_hardLink (by simpa using hnewest)) fun _ =>
          .bind preserves_removeFile fun _ => .bind preserves_touch fun _ =>
            .bind preserves_rotateValidatedBackups fun _ => .pure

theorem preserves_createValidatedBackup {compress : List UInt8 → List UInt8}
    {connection : LiveConnection} (hname : isBackupName name = true) :
    (createValidatedBackup format compress connection).Preserves (OtherName name)
      (KeptOrGone name node) := by
  refine .bind preserves_ensureLayout fun _ => .bind preserves_checkLive fun _ =>
    .bind (.call fun _ _ hs _ => hs) fun _ => .bind preserves_uniqueToken fun _ =>
      .bind preserves_uniqueToken fun stagingToken => ?_
  have hstaging : stagingFileName stagingToken ≠ name := by
    rintro rfl
    rw [isBackupName_stagingFileName] at hname
    cases hname
  -- the rule of the run is about the token that names the backup
  intro s hs
  refine .bind (P := fun r _ => ∀ token, r = .ok token → backupFileName token ≠ name)
    (.call hs fun answer hallows => ⟨hs, by rintro _ ⟨⟩; exact hallows⟩) ?_ fun _ _ _ _ => trivial
  intro token t ht hnew
  exact (Procedure.Preserves.bind (.attempt (preserves_writeBackup hstaging (hnew token rfl)))
    fun _ => .bind (preserves_ignore preserves_removeFile) fun _ =>
      .bind (preserves_ignore preserves_removeFile) fun _ => .ofExcept) t ht

/-- **A backup is never changed.** -/
theorem AfterBackup.keptOrGone {start files : AppFiles} (h : AfterBackup format name start files)
    (hname : isBackupName name = true) (hstart : start (.backup name) = some node) :
    KeptOrGone name node files := by
  induction h with
  | start => exact .inl hstart
  | created compress connection answers k _ hallowed ih =>
      exact (preserves_createValidatedBackup hname).interrupted ih hallowed
  | called call answers k _ ih =>
      have hkeeps : (call.body format).Preserves (fun _ _ _ => True) (KeptOrGone name node) :=
        preserves_call call
      exact hkeeps.interrupted ih (Procedure.allowedSince_of_forall (fun _ _ _ => trivial) ..)
  | changed _ hsame ih => exact ih.congr (hsame name)

end

/-! ## A restore that nothing hinders -/

section

variable (format : DatabaseFormat)

/-- No call fails, the directory lists the backup, and what is named anew is not there. -/
structure Unhindered (name : Name) (site : Site) (answer : FsAnswer) (files : AppFiles) : Prop where
  noFailure : NoFailure name [] site answer files
  restoring : site = .plain → files (.temporary "restore" answer.token) = none
  setAside : site = .quarantineName → files (.quarantined answer.token .database) = none

instance (name : Name) (site : Site) (answer : FsAnswer) (files : AppFiles) :
    Decidable (Unhindered name site answer files) :=
  decidable_of_iff (NoFailure name [] site answer files ∧
      (site = .plain → files (.temporary "restore" answer.token) = none) ∧
        (site = .quarantineName → files (.quarantined answer.token .database) = none))
    ⟨fun ⟨h, h', h''⟩ => ⟨h, h', h''⟩, fun ⟨h, h', h''⟩ => ⟨h, h', h''⟩⟩

/-- No database is live, or a file that is not intact, with files beside it. -/
def Replaceable (files : AppFiles) : Prop :=
  (∀ part, files (.live part) = none) ∨
    (∃ bytes, files (.live .database) = some (.file bytes)) ∧ ¬ Healthy format files ∧
      ∀ part ∈ sqliteSidecars, ∀ node, files (.live part) = some node → node.isFile = true

/-- The live database has these bytes, and nothing lies beside it. -/
def LiveAlone (bytes : List UInt8) (files : AppFiles) : Prop :=
  files (.live .database) = some (.file bytes) ∧ files (.live .wal) = none ∧
    files (.live .shm) = none

end

section

variable {format : DatabaseFormat} {name : Name} {s : AppFiles} {path : AppPath}

theorem Unhindered.allows {site : Site} {answer : FsAnswer} (h : Unhindered name site answer s) :
    Allows format site answer s := by
  cases site with
  | quarantineCheck => exact fun _ => h.noFailure.succeeds
  | quarantineName => exact h.setAside rfl
  | _ => trivial

theorem noFailure_of_unhindered (site : Site) (answer : FsAnswer) (files : AppFiles)
    (h : Unhindered name site answer files) : NoFailure name [] site answer files :=
  h.noFailure

theorem returns_validateSelectedBackup (hname : isBackupName name = true)
    (hvalid : ValidBackup format s name) :
    (validateSelectedBackup format (.backup name)).Ensures (NoFailure name [])
      (fun r t => ∃ selected, r = .ok selected ∧ selected = name ∧ SameApplication s t) s := by
  refine .ofExcept_bind (fun _ _ => ?_) fun e he => absurd hname (ensure_eq_error.mp he).1
  refine .bind_returns (P := fun backups t => name ∈ backups ∧ SameApplication s t) ?_ ?_
  · refine .bind_returns returns_ensureLayout ?_
    rintro _ s rfl
    refine .bind_returns (P := fun entries t => name ∈ entries ∧ t = s) (noFailure_fsCall ?_ ?_) ?_
    · rintro answer hallows entries s' ⟨⟩
      refine ⟨_, rfl, List.mem_filter.mpr ⟨hallows.listed name (.head _), ?_⟩, rfl⟩
      obtain ⟨bytes, -, hbytes, -⟩ := hvalid
      rw [hbytes]
      rfl
    · rintro _ _ _ ⟨⟩
    rintro entries s ⟨hentry, rfl⟩
    refine .bind_returns (returns_listEntries entries) ?_
    rintro backups t ⟨hsame, -, hmem⟩
    refine .pure ⟨_, rfl, ?_, hsame⟩
    rw [List.mem_reverse, List.mem_insertionSort]
    exact (hmem name).mpr ⟨hentry, hname, hvalid⟩
  · rintro backups t ⟨hmem, hsame⟩
    cases hfound : backups.find? (· = name) with
    | none =>
        have hnot := List.find?_eq_none.mp hfound name hmem
        simp at hnot
    | some found => exact .ofExcept ⟨found, rfl, by simpa using List.find?_some hfound, hsame⟩

theorem returns_rename {target : AppPath} {f : BackupError → BackupError}
    (hthere : s path ≠ none) : (Backup.mapError (rename path target) f).Ensures (NoFailure name [])
      (fun r t => ∃ u, r = .ok u ∧ ∃ node, t = (s.set path none).set target (some node)) s := by
  refine ensures_mapError (noFailure_fsCall ?_ ?_)
  · intro _ _ u s' hf
    cases hnode : s path with
    | none => exact absurd hnode hthere
    | some node =>
        simp only [hnode, Except.ok.injEq, Prod.mk.injEq] at hf
        exact ⟨u, rfl, node, hf.2.symm⟩
  · intro _ _ kind hf
    cases hnode : s path with
    | none => exact absurd hnode hthere
    | some node => simp [hnode] at hf

/-- Sidecars that are there are files. -/
def SidecarsRegular (parts : List DatabasePart) (files : AppFiles) : Prop :=
  ∀ part ∈ parts, ∀ node, files (.live part) = some node → node.isFile = true

theorem returns_regularSidecars (parts : List DatabasePart) (h : SidecarsRegular parts s) :
    (regularSidecars parts).Ensures (NoFailure name [])
      (fun r t => ∃ sidecars, r = .ok sidecars ∧ t = s ∧ sidecars.Sublist parts ∧
        ∀ part ∈ sidecars, s (.live part) ≠ none) s := by
  induction parts with
  | nil => exact .pure ⟨[], rfl, rfl, .slnil, by simp⟩
  | cons part rest ih =>
      have ih := ih fun p hp => h p (.tail _ hp)
      refine .bind_returns (.attempt (result_symlinkMetadata.mono fun r t h => ⟨r, rfl, h⟩)) ?_
      rintro _ s ⟨rfl, rfl⟩
      cases hnode : s (.live part) with
      | none =>
          refine ih.mono ?_
          rintro _ _ ⟨sidecars, rfl, rfl, hsub, hthere⟩
          exact ⟨sidecars, rfl, rfl, hsub.cons part, hthere⟩
      | some node =>
          have hfile := h part (.head _) node hnode
          simp only [hfile]
          refine .bind_returns ih ?_
          rintro sidecars _ ⟨rfl, hsub, hthere⟩
          refine .pure ⟨_, rfl, rfl, hsub.cons_cons part, fun p hp => ?_⟩
          rcases List.mem_cons.mp hp with rfl | hp
          · simp [hnode]
          · exact hthere p hp

theorem returns_moveSidecars {token : Token} (parts : List DatabasePart) (hnodup : parts.Nodup)
    (hthere : ∀ part ∈ parts, s (.live part) ≠ none) :
    (moveSidecars token parts).Ensures (NoFailure name []) (fun r _ => ∃ u, r = .ok u) s := by
  induction parts generalizing s with
  | nil => exact .pure ⟨(), rfl⟩
  | cons part rest ih =>
      obtain ⟨hnot, hnodup⟩ := List.nodup_cons.mp hnodup
      refine .bind_returns (returns_rename (hthere part (.head _))) ?_
      rintro _ _ ⟨node, rfl⟩
      refine .bind_returns returns_touch ?_
      rintro _ _ rfl
      refine ih hnodup fun p hp => ?_
      have hne : p ≠ part := fun heq => hnot (heq ▸ hp)
      rw [AppFiles.set_of_ne (by simp), AppFiles.set_of_ne (by simpa using hne)]
      exact hthere p (.tail _ hp)

/-- A database that is not intact is set aside. -/
theorem returns_quarantineLiveDatabase {bytes : List UInt8}
    (hfile : s (.live .database) = some (.file bytes)) (hhealthy : ¬ Healthy format s)
    (hsidecars : SidecarsRegular sqliteSidecars s) :
    (quarantineLiveDatabase format).Ensures (NoFailure name []) (fun r _ => ∃ p, r = .ok p) s := by
  refine .bind_returns returns_ensureLayout ?_
  rintro _ s rfl
  refine .bind_returns (P := fun isFile t => isFile = true ∧ t = s)
    (ensures_mapError (result_symlinkMetadata.mono ?_)) ?_
  · rintro _ _ ⟨rfl, rfl⟩
    rw [hfile]
    exact ⟨true, rfl, rfl, rfl⟩
  rintro _ s ⟨rfl, rfl⟩
  refine .ofExcept_bind (fun _ _ => ?_) (by rintro e ⟨⟩)
  refine .bind_returns (P := fun v t => v ≠ .ok () ∧ t = s)
    (.attempt (result_validateSqliteFile.mono ?_)) ?_
  · rintro r t ⟨rfl, hok⟩
    exact ⟨r, rfl, fun hr => hhealthy (hok.mp hr), rfl⟩
  rintro v s ⟨hv, rfl⟩
  have hunhealthy : v.isOk = false := by
    cases v with
    | ok u => exact absurd rfl hv
    | error e => rfl
  refine .ofExcept_bind (fun _ _ => ?_) fun e he => absurd hunhealthy (ensure_eq_error.mp he).1
  refine .bind_returns (returns_regularSidecars sqliteSidecars hsidecars) ?_
  rintro sidecars s ⟨rfl, hsub, hthere⟩
  refine .bind_returns (P := fun _ t => t = s) (.call fun _ _ => ⟨_, rfl, rfl⟩) ?_
  rintro token s rfl
  refine .bind_returns (returns_rename (by simp [hfile])) ?_
  rintro _ _ ⟨node, rfl⟩
  refine .bind_returns (P := fun _ _ => True)
    ((returns_moveSidecars sidecars (List.Nodup.sublist hsub (by decide)) ?_).mono
      fun r _ ⟨u, hu⟩ => ⟨u, hu, trivial⟩) ?_
  · intro part hpart
    have hne : part ≠ .database := by
      rintro rfl
      exact absurd (hsub.subset hpart) (by decide)
    rw [AppFiles.set_of_ne (by simp), AppFiles.set_of_ne (by simpa using hne)]
    exact hthere part hpart
  rintro _ _ -
  refine .bind_returns returns_touch ?_
  rintro _ _ rfl
  refine .bind_returns returns_touch ?_
  rintro _ _ rfl
  exact .pure ⟨_, rfl⟩

/-- What is live is set aside. -/
theorem returns_setAside (h : Replaceable format s) : (setAside format).Ensures (Unhindered name)
    (fun r t => ∃ u, r = .ok u ∧ ∀ part, t (.live part) = none) s := by
  refine .bind_returns (.attempt ((result_symlinkMetadata.under noFailure_of_unhindered).mono
    fun r t h => ⟨r, rfl, h⟩)) ?_
  rintro _ s ⟨rfl, rfl⟩
  rcases h with hnone | ⟨⟨bytes, hfile⟩, hhealthy, hsidecars⟩
  · rw [hnone]
    exact .pure ⟨_, rfl, hnone⟩
  · rw [hfile]
    refine .ofExcept_bind (fun _ _ => ?_) (by rintro e ⟨⟩)
    refine .bind_returns (P := fun v t => v ≠ .ok () ∧ t = s)
      (.attempt ((result_validateSqliteFile.under noFailure_of_unhindered).mono ?_)) ?_
    · rintro r t ⟨rfl, hok⟩
      exact ⟨r, rfl, fun hr => hhealthy (hok.mp hr), rfl⟩
    rintro v s ⟨hv, rfl⟩
    have hunhealthy : v.isOk = false := by
      cases v with
      | ok u => exact absurd rfl hv
      | error e => rfl
    refine .ofExcept_bind (fun _ _ => ?_) fun e he => absurd hunhealthy (ensure_eq_error.mp he).1
    refine .bind_returns (P := fun _ t => ∀ part, t (.live part) = none)
      ((((returns_quarantineLiveDatabase hfile hhealthy hsidecars).under noFailure_of_unhindered).and
        (ensures_quarantineLiveDatabase.under fun _ _ _ h => h.allows)).mono ?_) ?_
    · rintro _ t ⟨⟨p, rfl⟩, -, -, hgone⟩
      exact ⟨p, rfl, hgone p rfl⟩
    rintro _ t hgone
    exact .pure ⟨_, rfl, hgone⟩

/-- Where no database is live one is installed. -/
theorem returns_installDatabase {bytes : List UInt8} (hsource : s path = some (.file bytes))
    (hnone : s (.live .database) = none) : (installDatabase path (.live .database)).Ensures
      (NoFailure name []) (fun r _ => r = .ok ()) s := by
  refine .bind_returns (.attempt (result_symlinkMetadata.mono fun r t h => ⟨r, rfl, h⟩)) ?_
  rintro _ s ⟨rfl, rfl⟩
  rw [hnone]
  refine .ofExcept_bind (fun _ _ => ?_) (by rintro e ⟨⟩)
  refine .bind_returns (P := fun _ t => t = s) (noFailure_fsCall ?_ ?_) ?_
  · intro _ _ input s' hf
    simp only [hsource, Except.ok.injEq, Prod.mk.injEq] at hf
    exact ⟨input, rfl, hf.2.symm⟩
  · intro _ _ kind hf
    simp [hsource] at hf
  rintro input s rfl
  refine .bind_returns (P := fun _ _ => True) (noFailure_fsCall ?_ ?_) ?_
  · intro _ _ u s' hf
    exact ⟨u, rfl, trivial⟩
  · intro _ _ kind hf
    simp [hnone] at hf
  rintro _ t -
  refine .bind_returns (P := fun v t' => v = .ok () ∧ t' = t)
    (.attempt (returns_touch.mono fun r t' h => ⟨r, rfl, h.choose_spec.1, h.choose_spec.2⟩)) ?_
  rintro _ t ⟨rfl, rfl⟩
  refine .bind_returns (P := fun v _ => v = .ok ()) (.attempt ?_) ?_
  · refine .bind_returns (P := fun _ _ => True) (.call fun answer hallows => ?_) ?_
    · simp only [hallows.succeeds]
      exact ⟨(), rfl, trivial⟩
    rintro _ t -
    refine .bind_returns returns_touch ?_
    rintro _ t rfl
    exact returns_touch.mono fun r _ h => ⟨r, rfl, h.choose_spec.1⟩
  · rintro _ t rfl
    exact .pure rfl

/-- A valid backup is installed where nothing is live. -/
theorem returns_installSelected (hvalid : ValidBackup format s name)
    (hlive : ∀ part, s (.live part) = none) : (installSelected format name).Ensures
      (Unhindered name) (fun r _ => r = .ok (.live .database)) s := by
  obtain ⟨bytes, restored, hbytes, hrestored, hok⟩ := hvalid
  refine .bind_returns (P := fun token t => s (.temporary "restore" token) = none ∧ t = s)
    (.call fun answer hallows => ⟨_, rfl, hallows.restoring rfl, rfl⟩) ?_
  rintro token s ⟨hfree, rfl⟩
  refine .bind_returns (P := fun v t => v = .ok () ∧ FillsGap s t ∧
    t (.live .database) = some (.file restored)) (.attempt ?_) ?_
  · refine .bind_returns (P := fun _ t => SameApplication s t ∧
      t (.temporary "restore" token) = some (.file restored))
      (((result_decompressFile hfree).under noFailure_of_unhindered).mono ?_) ?_
    · rintro r t ⟨hsame, hiff, hfile⟩
      obtain ⟨u, hu⟩ := hiff.mpr ⟨bytes, restored, hbytes, hrestored⟩
      exact ⟨u, hu, hsame, hfile bytes restored hbytes hrestored⟩
    rintro _ t ⟨hsame, hfile⟩
    refine .bind_returns (P := fun _ t' => t' = t)
      ((result_validateSqliteFile.under noFailure_of_unhindered).mono fun r t' h =>
        ⟨(), h.2.mpr ⟨restored, hfile, hok⟩, h.1⟩) ?_
    rintro _ t rfl
    have hnone : t (.live .database) = none := (hsame _ (by simp)).trans (hlive .database)
    refine (((returns_installDatabase hfile hnone).and ensures_installDatabase).under noFailure_of_unhindered).mono ?_
    rintro _ t' ⟨rfl, hfills, hinstalled⟩
    obtain ⟨-, content, hcontent, hdatabase⟩ := hinstalled rfl
    obtain rfl : restored = content := by simpa [hfile] using hcontent
    exact ⟨_, rfl, rfl, hsame.fillsGap.trans hfills, hdatabase⟩
  · rintro _ t ⟨rfl, hfills, hdatabase⟩
    have hsidecar : ∀ part, part ≠ .database → t (.live part) = none := fun part hne =>
      (hfills _ (by simp) (by simp [hne])).trans (hlive part)
    refine .bind_returns (P := fun v _ => v = .ok ()) ?_ ?_
    · refine .bind_returns (P := fun v _ => v = .ok ())
        (.attempt ((result_validateSqliteFile.under noFailure_of_unhindered).mono fun r t' h =>
          ⟨r, rfl, h.2.mpr ⟨restored, hdatabase, ?_⟩⟩)) ?_
      · simp only [AppFiles.beside, hsidecar _ (show DatabasePart.wal ≠ .database by decide),
          hsidecar _ (show DatabasePart.shm ≠ .database by decide), hok]
      · rintro _ t' rfl
        exact .pure ⟨_, rfl, rfl⟩
    · rintro _ t' rfl
      refine .bind_returns (P := fun _ _ => True)
        (ensures_removeTemporary.mono fun r _ h => ⟨(), h.1, trivial⟩) ?_
      rintro _ _ -
      exact .pure rfl

/-- A restore that nothing hinders succeeds. -/
theorem returns_restoreValidatedBackup (hname : isBackupName name = true)
    (hvalid : ValidBackup format s name) (h : Replaceable format s) :
    (restoreValidatedBackup format (.backup name)).Ensures (Unhindered name)
      (fun r _ => r = .ok (.live .database)) s := by
  refine .bind_returns (returns_ensureLayout.under noFailure_of_unhindered) ?_
  rintro _ s rfl
  refine .bind_returns (P := fun selected t => selected = name ∧ SameApplication s t)
    ((returns_validateSelectedBackup hname hvalid).under noFailure_of_unhindered) ?_
  rintro _ t ⟨rfl, hsame⟩
  have hlive : ∀ part, t (.live part) = s (.live part) := fun part => hsame _ (by simp)
  have hreplaceable : Replaceable format t := by
    simp only [Replaceable, Healthy, hlive]
    exact h
  refine .bind_returns (P := fun _ t' => (∀ backup, t' (.backup backup) = t (.backup backup)) ∧
      ∀ part, t' (.live part) = none)
    (((returns_setAside hreplaceable).and
      (ensures_setAside.under fun _ _ _ h => h.allows)).mono ?_) ?_
  · rintro _ t' ⟨⟨u, rfl, hgone⟩, -, hbackups, -⟩
    exact ⟨u, rfl, hbackups, hgone⟩
  rintro _ t' ⟨hbackups, hgone⟩
  refine returns_installSelected ?_ hgone
  obtain ⟨bytes, restored, hbytes, hrest⟩ := hvalid
  exact ⟨bytes, restored, (hbackups _).trans ((hsame _ (by simp)).trans hbytes), hrest⟩

theorem Replaceable.ready (h : Replaceable format s) :
    BackupCall.Ready format s (.restoreValidatedBackup path) := by
  intro hnone _
  rcases h with hnone | ⟨⟨bytes, hfile⟩, -⟩
  · exact ⟨hnone .wal, hnone .shm⟩
  · rw [hfile] at hnone
    cases hnone

end

/-- **A backup brings the database back.** Whatever calls come after it was made, cut short
or not, and whatever happens outside the backup directory: a restore of it that succeeds
leaves the snapshot of its connection at the live path, alone, and one that nothing hinders
succeeds if the backup was not rotated away. -/
theorem restored_snapshot {format : DatabaseFormat} {compress : List UInt8 → List UInt8}
    {connection : LiveConnection} {name : Name} {start created files : AppFiles}
    (hcompress : ∀ bytes, format.decompress (compress bytes) = some bytes)
    (hcreated : (createValidatedBackup format compress connection).ReturnsUnder
      (fun _ _ _ => True) start (.ok name) created)
    (hrun : AfterBackup format name created files) :
    (∀ path files', BackupCall.Ready format files (.restoreValidatedBackup (.backup name)) →
      (restoreValidatedBackup format (.backup name)).ReturnsUnder (Allows format) files (.ok path)
        files' → LiveAlone connection.snapshot files') ∧
      (files (.backup name) ≠ none → Replaceable format files → ∀ r files',
        (restoreValidatedBackup format (.backup name)).ReturnsUnder (Unhindered name) files r files' →
          r = .ok (.live .database) ∧ LiveAlone connection.snapshot files') := by
  obtain ⟨hname, bytes, hbytes, hsnapshot, hok⟩ :=
    (hcreated.of_ensures (ensures_createValidatedBackup hcompress)).2 name rfl
  have hkept := hrun.keptOrGone hname hbytes
  have hrestored : ∀ {files'}, Restored format (.backup name) files files' →
      LiveAlone connection.snapshot files' := by
    rintro files' ⟨_, bytes', restored, ⟨⟩, hbytes', hdecompressed, -, hlive⟩
    rcases hkept with hthere | hgone
    · obtain rfl : bytes = bytes' := by simpa [hthere] using hbytes'
      obtain rfl := Option.some.inj (hsnapshot.symm.trans hdecompressed)
      exact hlive
    · rw [hgone] at hbytes'
      cases hbytes'
  refine ⟨fun path files' hready hcall => ?_, fun hthere hreplaceable r files' hcall => ?_⟩
  · exact hrestored ((hcall.of_ensures (ensures_restoreValidatedBackup hready)).2 path rfl).2
  · have hvalid : ValidBackup format files name :=
      ⟨bytes, connection.snapshot, hkept.resolve_right hthere, hsnapshot, hok⟩
    have hreturned := hcall.of_ensures (returns_restoreValidatedBackup hname hvalid hreplaceable)
    have hready : BackupCall.Ready format files (.restoreValidatedBackup (.backup name)) :=
      hreplaceable.ready
    have hends := hcall.of_ensures
      ((ensures_restoreValidatedBackup hready).under fun _ _ _ h => h.allows)
    exact ⟨hreturned, hrestored (hends.2 _ hreturned).2⟩

/-! ### A corrupt database is replaced -/

/-- A database that begins with the byte 1 is corrupt. -/
def markedFormat : DatabaseFormat where
  integrityOk bytes _ _ := bytes.head? ≠ some 1
  decompress := headerFormat.decompress

theorem markedFormat_compress (bytes : List UInt8) :
    markedFormat.decompress (headerCompress bytes) = some bytes :=
  headerFormat_compress bytes

def markedBackup : Except BackupError Name × AppFiles :=
  (createValidatedBackup markedFormat headerCompress emptyConnection).outcome
    (clockAnswers 3 0 [backupFileName (3, 10)]) 0 fun _ => none

/-- A corrupt database with a log has come to the live path. -/
def corrupted : AppFiles :=
  (markedBackup.2.set (.live .database) (some (.file [1]))).set (.live .wal) (some (.file [2]))

def restoredMarked : Except BackupError AppPath × AppFiles :=
  (restoreValidatedBackup markedFormat (.backup (backupFileName (3, 10)))).outcome
    (clockAnswers 5 0 [backupFileName (3, 10)]) 0 corrupted

theorem restored_snapshot_corrupted :
    restoredMarked.1 = .ok (.live .database) ∧ LiveAlone [] restoredMarked.2 := by
  have hcreated : (createValidatedBackup markedFormat headerCompress emptyConnection).ReturnsUnder
      (fun _ _ _ => True) (fun _ => none) (.ok (backupFileName (3, 10))) markedBackup.2 := by
    have hok : markedBackup.1 = .ok (backupFileName (3, 10)) := by decide +kernel
    rw [← hok]
    exact Procedure.returnsUnder_outcome
      (Procedure.allowedSince_of_forall (fun _ _ _ => trivial) ..)
  have hrun : AfterBackup markedFormat (backupFileName (3, 10)) markedBackup.2 corrupted :=
    .changed .start fun _ => by
      unfold corrupted
      rw [AppFiles.set_of_ne (by simp), AppFiles.set_of_ne (by simp)]
  have hallowed : (restoreValidatedBackup markedFormat (.backup (backupFileName (3, 10)))).AllowedSince
      (Unhindered (backupFileName (3, 10))) (clockAnswers 5 0 [backupFileName (3, 10)]) 0
        corrupted := by
    decide +kernel
  refine (restored_snapshot markedFormat_compress hcreated hrun).2 (by decide +kernel)
    (.inr ⟨⟨[1], by decide +kernel⟩, by decide +kernel, ?_⟩) _ _
    (Procedure.returnsUnder_outcome hallowed)
  intro part hpart node hnode
  rcases List.mem_pair.mp hpart with rfl | rfl
  · obtain rfl : FileNode.file [2] = node := by simpa [corrupted] using hnode
    rfl
  · have hnone : corrupted (.live .shm) = none := by decide +kernel
    rw [hnone] at hnode
    cases hnode

end SyncPlus
