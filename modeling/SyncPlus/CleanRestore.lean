import SyncPlus.DatabaseBackup

/-!
# Restore after corruption

What any sequence of quarantines and restores does with the live database,
whatever calls of the file system fail. A healthy one stays where it is, any other
is kept, and a restore that succeeds leaves the selected backup alone at the live
path (`restore_clean`), in runs that keep three rules: the check that precedes a
quarantine does not fail for another reason than the database, the name it takes in
the quarantine directory is new, and no restore begins where the live database is
missing and a file of it was left.
-/

namespace SyncPlus

/-! ## The rules of a run -/

section

variable (format : DatabaseFormat)

def Healthy (files : AppFiles) : Prop :=
  ∃ bytes, files (.live .database) = some (.file bytes) ∧
    format.integrityOk bytes (files (.live .wal)) (files (.live .shm)) = true

/-- The content was live and is so still, or it is in quarantine. -/
def Recoverable (bytes : List UInt8) (files : AppFiles) : Prop :=
  files (.live .database) = some (.file bytes) ∨
    ∃ token, files (.quarantined token .database) = some (.file bytes)

def ValidBackup (files : AppFiles) (name : Name) : Prop :=
  ∃ bytes restored, files (.backup name) = some (.file bytes) ∧
    format.decompress bytes = some restored ∧ format.integrityOk restored none none = true

/-- What the environment may answer a step. -/
def Allows : Site → FsAnswer → AppFiles → Prop
  | .quarantineCheck, answer, files => Healthy format files → answer.fails = false
  | .quarantineName, answer, files => files (.quarantined answer.token .database) = none
  | _, _, _ => True

instance (files : AppFiles) : Decidable (Healthy format files) :=
  decidable_of_iff ((match files (.live .database) with
    | some (.file bytes) => format.integrityOk bytes (files (.live .wal)) (files (.live .shm))
    | _ => false) = true) (by
      unfold Healthy
      rcases files (.live .database) with _ | (bytes | _) <;> simp)

instance : (site : Site) → (answer : FsAnswer) → (files : AppFiles) →
    Decidable (Allows format site answer files)
  | .plain, _, _ | .snapshotName, _, _ | .stagingName, _, _ | .backupName, _, _ => isTrue trivial
  | .quarantineCheck, answer, files =>
      inferInstanceAs (Decidable (Healthy format files → answer.fails = false))
  | .quarantineName, answer, files =>
      inferInstanceAs (Decidable (files (.quarantined answer.token .database) = none))

inductive BackupCall where
  | quarantineLiveDatabase
  | restoreValidatedBackup (selected : AppPath)

def BackupCall.body : BackupCall → Backup AppPath
  | quarantineLiveDatabase => SyncPlus.quarantineLiveDatabase format
  | restoreValidatedBackup selected => SyncPlus.restoreValidatedBackup format selected

/-- No file of an earlier database is left where a valid backup would be
installed. -/
def BackupCall.Ready (files : AppFiles) : BackupCall → Prop
  | quarantineLiveDatabase => True
  | restoreValidatedBackup selected =>
      files (.live .database) = none →
        (∃ name, selected = .backup name ∧ ValidBackup format files name) →
          files (.live .wal) = none ∧ files (.live .shm) = none

/-- Calls lead from one state of the files to another. -/
inductive BackupRun (start : AppFiles) : AppFiles → Prop
  | start : BackupRun start start
  | call {files files' : AppFiles} {call : BackupCall} {r : Except BackupError AppPath} :
      BackupRun start files → call.Ready format files →
        (call.body format).ReturnsUnder (Allows format) files r files' →
          BackupRun start files'

/-- The restored content is the selected backup's, and nothing lies beside it. -/
def Restored (selected : AppPath) (before after : AppFiles) : Prop :=
  ∃ name bytes restored, selected = .backup name ∧ before (.backup name) = some (.file bytes) ∧
    format.decompress bytes = some restored ∧ format.integrityOk restored none none = true ∧
    after (.live .database) = some (.file restored) ∧ after (.live .wal) = none ∧
    after (.live .shm) = none

/-- What a call may do to the databases. -/
structure Retains (before after : AppFiles) : Prop where
  quarantined : ∀ token bytes, before (.quarantined token .database) = some (.file bytes) →
    after (.quarantined token .database) = some (.file bytes)
  live : ∀ bytes, before (.live .database) = some (.file bytes) → Recoverable bytes after
  healthy : Healthy format before → ∀ part, after (.live part) = before (.live part)

end

/-- Only temporary files differ. -/
def SameApplication (before after : AppFiles) : Prop :=
  ∀ path, (∀ label token, path ≠ .temporary label token) → after path = before path

/-- Besides temporary files only the live database differs, if there was none. -/
def FillsGap (before after : AppFiles) : Prop :=
  ∀ path, (∀ label token, path ≠ .temporary label token) →
    (path = .live .database → before path ≠ none) → after path = before path

section

variable {format : DatabaseFormat} {s t u : AppFiles} {name : Name}

theorem SameApplication.refl : SameApplication s s := fun _ _ => rfl

theorem SameApplication.trans (h : SameApplication s t) (h' : SameApplication t u) :
    SameApplication s u :=
  fun path hpath => (h' path hpath).trans (h path hpath)

theorem SameApplication.set {label : String} {token : Token} {node : Option FileNode} :
    SameApplication s (s.set (.temporary label token) node) :=
  fun _ hpath => AppFiles.set_of_ne (hpath label token)

theorem SameApplication.fillsGap (h : SameApplication s t) : FillsGap s t :=
  fun path hpath _ => h path hpath

theorem FillsGap.trans (h : FillsGap s t) (h' : FillsGap t u) : FillsGap s u := by
  intro path hpath hthere
  have hleft := h path hpath hthere
  rw [h' path hpath fun heq hnone => hthere heq (hleft ▸ hnone), hleft]

theorem FillsGap.set {node : Option FileNode} (h : s (.live .database) = none) :
    FillsGap s (s.set (.live .database) node) := by
  intro path _ hthere
  refine AppFiles.set_of_ne fun heq => hthere heq ?_
  rw [heq, h]

theorem SameApplication.validBackup (h : SameApplication s t) :
    ValidBackup format t name ↔ ValidBackup format s name := by
  unfold ValidBackup
  rw [h (.backup name) (by simp)]

namespace Retains

theorem refl : Retains format s s where
  quarantined _ _ := id
  live _ h := .inl h
  healthy _ _ := rfl

/-- A content that is kept is kept by what a call does. -/
theorem recoverable (h : Retains format s t) {bytes : List UInt8} (hrecoverable : Recoverable bytes s) :
    Recoverable bytes t := by
  rcases hrecoverable with hlive | ⟨token, hquarantined⟩
  · exact h.live bytes hlive
  · exact .inr ⟨token, h.quarantined token bytes hquarantined⟩

theorem stillHealthy (h : Retains format s t) (hs : Healthy format s) : Healthy format t := by
  obtain ⟨bytes, hlive, hok⟩ := id hs
  refine ⟨bytes, ?_, ?_⟩
  · rw [h.healthy hs, hlive]
  · rw [h.healthy hs, h.healthy hs, hok]

theorem trans (h : Retains format s t) (h' : Retains format t u) : Retains format s u where
  quarantined token bytes hs := h'.quarantined token bytes (h.quarantined token bytes hs)
  live bytes hs := h'.recoverable (h.live bytes hs)
  healthy hs part := by rw [h'.healthy (h.stillHealthy hs), h.healthy hs]

end Retains

theorem FillsGap.retains (h : FillsGap s t) : Retains format s t where
  quarantined token bytes hs := by rw [h _ (by simp) (by simp), hs]
  live bytes hs := .inl (by rw [h _ (by simp) (by simp [hs]), hs])
  healthy := by
    rintro ⟨bytes, hlive, -⟩ part
    exact h _ (by simp) (by rintro heq; simp [heq, hlive])

end

/-! ## What the calls of the file system do -/

section

variable {allows : Site → FsAnswer → AppFiles → Prop} {s : AppFiles} {site : Site} {path : AppPath}

theorem ensures_fsCall {α : Type} {f : FsAnswer → AppFiles → Except IoErrorKind (α × AppFiles)}
    {Q : Except BackupError α → AppFiles → Prop}
    (hfails : ∀ answer, allows site answer s → answer.fails = true → Q (.error (.io .other)) s)
    (hok : ∀ answer, allows site answer s → answer.fails = false → ∀ a s', f answer s = .ok (a, s') →
      Q (.ok a) s')
    (herror : ∀ answer, allows site answer s → answer.fails = false → ∀ kind,
      f answer s = .error kind → Q (.error (.io kind)) s) :
    (fsCall site f).Ensures allows Q s := by
  refine .call fun answer hallows => ?_
  by_cases hanswer : answer.fails = true
  · rw [if_pos hanswer]
    exact hfails answer hallows hanswer
  · rw [if_neg hanswer]
    have hanswer := Bool.eq_false_iff.mpr hanswer
    cases hf : f answer s with
    | ok result => exact hok answer hallows hanswer _ _ hf
    | error kind => exact herror answer hallows hanswer kind hf

theorem ensures_touch : touch.Ensures allows (fun _ t => t = s) s :=
  ensures_fsCall (fun _ _ _ => rfl) (by rintro _ _ _ _ _ ⟨⟩; rfl) (by rintro _ _ _ _ ⟨⟩)

theorem ensures_symlinkMetadata : (symlinkMetadata site path).Ensures allows
    (fun r t => t = s ∧ (∀ isFile, r = .ok isFile → (s path).map FileNode.isFile = some isFile) ∧
      (r = .error (.io .notFound) → s path = none)) s := by
  refine ensures_fsCall (fun _ _ _ => ⟨rfl, nofun, nofun⟩) ?_ ?_
  · intro _ _ _ isFile s' hf
    cases hnode : s path with
    | none => simp [hnode] at hf
    | some node =>
        simp only [hnode, Except.ok.injEq, Prod.mk.injEq] at hf
        obtain ⟨rfl, rfl⟩ := hf
        exact ⟨rfl, by rintro _ ⟨⟩; rfl, nofun⟩
  · intro _ _ _ kind hf
    cases hnode : s path with
    | none => exact ⟨rfl, nofun, fun _ => rfl⟩
    | some node => simp [hnode] at hf

theorem ensures_openFile : (openFile path).Ensures allows
    (fun r t => t = s ∧ ∀ bytes, r = .ok bytes → s path = some (.file bytes)) s := by
  refine ensures_fsCall (fun _ _ _ => ⟨rfl, nofun⟩) ?_ (fun _ _ _ _ _ => ⟨rfl, nofun⟩)
  intro _ _ _ bytes s' hf
  rcases hnode : s path with _ | (bytes | _)
  · simp [hnode] at hf
  · simp only [hnode, Except.ok.injEq, Prod.mk.injEq] at hf
    obtain ⟨rfl, rfl⟩ := hf
    exact ⟨rfl, by rintro _ ⟨⟩; rfl⟩
  · simp [hnode] at hf

theorem ensures_openCreateNew : (openCreateNew path).Ensures allows
    (fun r t => (∀ e, r = .error e → t = s) ∧
      (∀ u, r = .ok u → s path = none ∧ t = s.set path (some (.file [])))) s := by
  refine ensures_fsCall (fun _ _ _ => ⟨fun _ _ => rfl, nofun⟩) ?_
    (fun _ _ _ _ _ => ⟨fun _ _ => rfl, nofun⟩)
  intro _ _ _ u s' hf
  cases hnode : s path with
  | none =>
      simp only [hnode, Except.ok.injEq, Prod.mk.injEq] at hf
      exact ⟨nofun, fun _ _ => ⟨rfl, hf.2.symm⟩⟩
  | some node => simp [hnode] at hf

theorem ensures_removeFile :
    (removeFile path).Ensures allows (fun _ t => t = s ∨ t = s.set path none) s := by
  refine ensures_fsCall (fun _ _ _ => .inl rfl) ?_ (fun _ _ _ _ _ => .inl rfl)
  intro _ _ _ u s' hf
  cases hnode : s path with
  | none => simp [hnode] at hf
  | some node =>
      simp only [hnode, Except.ok.injEq, Prod.mk.injEq] at hf
      exact .inr hf.2.symm

theorem ensures_ignore {p : Backup Unit} {P : AppFiles → Prop}
    (h : p.Ensures allows (fun _ t => P t) s) :
    (Backup.ignore p).Ensures allows (fun r t => r = .ok () ∧ P t) s :=
  .bind (P := fun r t => (∃ v, r = .ok v) ∧ P t) (.attempt (h.mono fun r _ ht => ⟨⟨r, rfl⟩, ht⟩))
    (fun _ _ ht => ⟨rfl, ht.2⟩) (fun _ _ ht => by obtain ⟨⟨_, hv⟩, -⟩ := ht; cases hv)

theorem ensures_rename {target : AppPath} : (rename path target).Ensures allows
    (fun r t => (∀ e, r = .error e → t = s) ∧
      (∀ u, r = .ok u → ∃ node, s path = some node ∧
        t = (s.set path none).set target (some node))) s := by
  refine ensures_fsCall (fun _ _ _ => ⟨fun _ _ => rfl, nofun⟩) ?_
    (fun _ _ _ _ _ => ⟨fun _ _ => rfl, nofun⟩)
  intro _ _ _ u s' hf
  cases hnode : s path with
  | none => simp [hnode] at hf
  | some node =>
      simp only [hnode, Except.ok.injEq, Prod.mk.injEq] at hf
      exact ⟨nofun, fun _ _ => ⟨node, rfl, hf.2.symm⟩⟩

theorem ensures_mapError {α : Type} {p : Backup α} {f : BackupError → BackupError}
    {Q : Except BackupError α → AppFiles → Prop}
    (h : p.Ensures allows (fun r t => Q (r.mapError f) t) s) :
    (p.mapError f).Ensures allows Q s := by
  refine .bind (P := fun r t => ∃ v, r = .ok v ∧ Q (v.mapError f) t)
    (.attempt (h.mono fun r _ ht => ⟨r, rfl, ht⟩)) ?_ ?_
  · rintro v t ⟨_, hv, ht⟩
    cases hv
    cases v with
    | ok a => exact ht
    | error e => exact ht
  · rintro e t ⟨_, hv, -⟩
    cases hv

theorem ensures_renameAs {target : AppPath} {f : BackupError → BackupError} :
    (Backup.mapError (rename path target) f).Ensures allows
      (fun r t => (∀ e, r = .error e → t = s) ∧
        (∀ u, r = .ok u → ∃ node, s path = some node ∧
          t = (s.set path none).set target (some node))) s := by
  refine ensures_mapError (ensures_rename.mono ?_)
  rintro (e | u) t ⟨hsame, hmoved⟩
  · exact ⟨fun _ _ => hsame e rfl, nofun⟩
  · exact ⟨nofun, fun _ _ => hmoved u rfl⟩

/-- A copy leaves what was read, or fails and leaves anything. -/
theorem ensures_copyInto {read : Option (List UInt8)} {error : BackupError} :
    (copyInto read error path).Ensures allows
      (fun r t => ∃ bytes, t = s.set path (some (.file bytes)) ∧
        ∀ u, r = .ok u → read = some bytes) s := by
  refine .call fun answer _ => ?_
  cases read with
  | none => exact ⟨answer.written, rfl, nofun⟩
  | some bytes =>
      cases hanswer : answer.fails with
      | true => exact ⟨answer.written, rfl, nofun⟩
      | false => exact ⟨bytes, rfl, fun _ _ => rfl⟩

end

/-! ## Validation -/

section

variable {format : DatabaseFormat} {allows : Site → FsAnswer → AppFiles → Prop}
  {s : AppFiles} {site : Site} {path : AppPath} {label : String} {token : Token} {name : Name}

theorem ensures_touches : ensureLayout.Ensures allows (fun _ t => t = s) s := by
  have hdir : ensurePrivateDir.Ensures allows (fun _ t => t = s) s :=
    .bind ensures_touch (by rintro _ _ rfl; exact ensures_touch) (by rintro _ _ rfl; rfl)
  refine .bind hdir ?_ (by rintro _ _ rfl; rfl)
  rintro _ _ rfl
  refine .bind hdir ?_ (by rintro _ _ rfl; rfl)
  rintro _ _ rfl
  exact hdir

theorem integrity_eq_ok {answer : FsAnswer} :
    s.integrity format answer path = .ok () ↔ answer.fails = false ∧ ∃ bytes,
      s path = some (.file bytes) ∧
        format.integrityOk bytes (s.beside .wal path) (s.beside .shm path) = true := by
  unfold AppFiles.integrity
  rcases s path with _ | (bytes | _) <;> simp [unit_bind_eq_ok]

/-- A database is validated as it is, with the files beside it. -/
theorem ensures_validateSqliteFile : (validateSqliteFile format site path).Ensures allows
    (fun r t => t = s ∧ (r = .ok () → ∃ bytes, s path = some (.file bytes) ∧
      format.integrityOk bytes (s.beside .wal path) (s.beside .shm path) = true)) s := by
  refine .bind ensures_symlinkMetadata ?_ (by rintro _ _ ⟨rfl, -⟩; exact ⟨rfl, nofun⟩)
  rintro isFile t ⟨rfl, -, -⟩
  refine .ofExcept_bind (fun _ _ => ?_) (fun _ _ => ⟨rfl, nofun⟩)
  exact .call fun answer _ => ⟨rfl, fun hok => (integrity_eq_ok.mp hok).2⟩

theorem ensures_decompressFile : (decompressFile format path (.temporary label token)).Ensures
    allows (fun r t => SameApplication s t ∧ ∀ u, r = .ok u → ∃ bytes restored,
      s path = some (.file bytes) ∧ format.decompress bytes = some restored ∧
        t (.temporary label token) = some (.file restored)) s := by
  refine .bind ensures_openFile ?_ (by rintro _ _ ⟨rfl, -⟩; exact ⟨.refl, nofun⟩)
  rintro input t ⟨rfl, hinput⟩
  refine .bind ensures_openCreateNew ?_ ?_
  · rintro u t' ⟨-, hnew⟩
    obtain ⟨-, rfl⟩ := hnew u rfl
    refine .bind ensures_touch ?_ (by rintro _ _ rfl; exact ⟨.set, nofun⟩)
    rintro _ _ rfl
    refine .bind ensures_copyInto ?_ ?_
    · rintro u t' ⟨restored, rfl, hread⟩
      refine ensures_touch.mono ?_
      rintro r _ rfl
      exact ⟨.trans .set .set, fun _ _ =>
        ⟨input, restored, hinput input rfl, hread u rfl, AppFiles.set_same ..⟩⟩
    · rintro e t' ⟨written, rfl, -⟩
      exact ⟨.trans .set .set, nofun⟩
  · rintro e t' ⟨hsame, -⟩
    obtain rfl := hsame e rfl
    exact ⟨.refl, nofun⟩

theorem ensures_isRegularFile : (isRegularFile path).Ensures allows (fun _ t => t = s) s := by
  refine .bind (P := fun _ t => t = s)
    (.attempt (ensures_symlinkMetadata.mono fun _ _ ht => ht.1)) ?_ (by rintro _ _ rfl; rfl)
  rintro (_ | _) _ rfl
  · exact .pure rfl
  · exact .pure rfl

/-- Removing a temporary file, whether it succeeds or not. -/
theorem ensures_removeTemporary : (Backup.ignore (removeFile (.temporary label token))).Ensures
    allows (fun r t => r = .ok () ∧ SameApplication s t) s :=
  ensures_ignore (ensures_removeFile.mono (by
    rintro _ _ (rfl | rfl)
    · exact .refl
    · exact .set))

theorem ensures_validateCompressedBackup :
    (validateCompressedBackup format (.backup name)).Ensures allows
      (fun r t => SameApplication s t ∧ ∀ u, r = .ok u → ValidBackup format s name) s := by
  refine .bind ensures_isRegularFile ?_ (by rintro _ _ rfl; exact ⟨.refl, nofun⟩)
  rintro isFile s rfl
  refine .ofExcept_bind (fun _ _ => ?_) (fun _ _ => ⟨.refl, nofun⟩)
  refine .bind (P := fun _ t => t = s) (.call fun _ _ => rfl) ?_
    (by rintro _ _ rfl; exact ⟨.refl, nofun⟩)
  rintro token s rfl
  refine .bind (P := fun r t => (∃ v, r = .ok v ∧ ∀ u, v = .ok u → ValidBackup format s name) ∧
    SameApplication s t) (.attempt ?_) ?_ (by rintro _ _ ⟨⟨_, hv, -⟩, -⟩; cases hv)
  · refine .bind ensures_decompressFile ?_ (by rintro e _ ⟨h, -⟩; exact ⟨⟨_, rfl, nofun⟩, h⟩)
    rintro u t ⟨hsame, hdecompressed⟩
    obtain ⟨bytes, restored, hbytes, hrestored, hfile⟩ := hdecompressed u rfl
    refine ensures_validateSqliteFile.mono ?_
    rintro r _ ⟨rfl, hvalid⟩
    refine ⟨⟨r, rfl, fun u' hr => ?_⟩, hsame⟩
    obtain ⟨bytes', hbytes', hok⟩ := hvalid hr
    rw [hfile] at hbytes'
    cases hbytes'
    exact ⟨bytes, restored, hbytes, hrestored, hok⟩
  · rintro v t ⟨⟨_, hv, hvalid⟩, hsame⟩
    cases hv
    refine .bind ensures_removeTemporary ?_ (by rintro _ _ ⟨hv, -⟩; cases hv)
    rintro _ t' ⟨-, hsame'⟩
    exact .ofExcept ⟨hsame.trans hsame', hvalid⟩

/-- Whatever the directory lists, only valid backups are returned. -/
theorem ensures_listEntries (names : List Name) : (listEntries format names).Ensures allows
    (fun r t => SameApplication s t ∧
      ∀ backups, r = .ok backups → ∀ name ∈ backups, ValidBackup format s name) s := by
  induction names generalizing s with
  | nil => exact .pure ⟨.refl, by rintro _ ⟨⟩; simp⟩
  | cons name rest ih =>
      refine .bind ensures_touch ?_ (by rintro _ _ rfl; exact ⟨.refl, nofun⟩)
      rintro _ _ rfl
      split
      · refine .bind ensures_isRegularFile ?_ (by rintro _ _ rfl; exact ⟨.refl, nofun⟩)
        rintro isFile s rfl
        split
        · refine .bind (P := fun r t => (∃ v, r = .ok v ∧ ∀ u, v = .ok u → ValidBackup format s name) ∧
            SameApplication s t)
            (.attempt (ensures_validateCompressedBackup.mono fun r _ h => ⟨⟨r, rfl, h.2⟩, h.1⟩)) ?_
            (by rintro _ _ ⟨⟨_, hv, -⟩, -⟩; cases hv)
          rintro v t ⟨⟨_, hv, hvalid⟩, hsame⟩
          cases hv
          refine .bind ih ?_ (by rintro _ _ ⟨h, -⟩; exact ⟨hsame.trans h, nofun⟩)
          rintro backups t' ⟨hsame', hbackups⟩
          refine .pure ⟨hsame.trans hsame', ?_⟩
          rintro _ ⟨⟩ backup hbackup
          have hrest : ∀ backup ∈ backups, ValidBackup format s backup := fun backup h =>
            hsame.validBackup.mp (hbackups backups rfl backup h)
          split at hbackup
          · rename_i hok
            rcases List.mem_cons.mp hbackup with rfl | hbackup
            · cases v with
              | ok u => exact hvalid u rfl
              | error e => cases hok
            · exact hrest backup hbackup
          · exact hrest backup hbackup
        · exact ih
      · exact ih

theorem ensures_listValidatedBackups : (listValidatedBackups format).Ensures allows
    (fun r t => SameApplication s t ∧
      ∀ backups, r = .ok backups → ∀ name ∈ backups, ValidBackup format s name) s := by
  refine .bind ensures_touches ?_ (by rintro _ _ rfl; exact ⟨.refl, nofun⟩)
  rintro _ s rfl
  refine .bind (P := fun _ t => t = s) (ensures_fsCall (fun _ _ _ => rfl)
    (by rintro _ _ _ _ _ ⟨⟩; rfl) (by rintro _ _ _ _ ⟨⟩)) ?_
    (by rintro _ _ rfl; exact ⟨.refl, nofun⟩)
  rintro entries s rfl
  refine .bind (ensures_listEntries entries) ?_ (by rintro _ _ ⟨h, -⟩; exact ⟨h, nofun⟩)
  rintro backups t ⟨hsame, hbackups⟩
  refine .pure ⟨hsame, ?_⟩
  rintro _ ⟨⟩ backup hbackup
  rw [List.mem_reverse, List.mem_insertionSort] at hbackup
  exact hbackups backups rfl backup hbackup

theorem ensures_validateSelectedBackup {selected : AppPath} :
    (validateSelectedBackup format selected).Ensures allows
      (fun r t => SameApplication s t ∧
        ∀ name, r = .ok name → selected = .backup name ∧ ValidBackup format s name) s := by
  unfold validateSelectedBackup
  split
  · rename_i name
    refine .ofExcept_bind (fun _ _ => ?_) (fun _ _ => ⟨.refl, nofun⟩)
    refine .bind ensures_listValidatedBackups ?_ (by rintro _ _ ⟨h, -⟩; exact ⟨h, nofun⟩)
    rintro backups t ⟨hsame, hbackups⟩
    refine .ofExcept ⟨hsame, fun found hfound => ?_⟩
    have hfind := orError_eq_ok.mp hfound
    have hname : found = name := by simpa using List.find?_some (p := fun n => decide (n = name)) hfind
    subst hname
    exact ⟨rfl, hbackups backups rfl _ (List.mem_of_find?_eq_some hfind)⟩
  · split
    · exact .ofExcept ⟨.refl, nofun⟩
    · exact .ofExcept ⟨.refl, nofun⟩
  · exact .ofExcept ⟨.refl, nofun⟩

end

/-! ## Quarantine -/

section

variable {format : DatabaseFormat} {allows : Site → FsAnswer → AppFiles → Prop} {s : AppFiles}

/-- The check before a quarantine finds a healthy database healthy. -/
theorem ensures_quarantineCheck (h : Healthy format s) :
    (validateSqliteFile format .quarantineCheck (.live .database)).Ensures (Allows format)
      (fun r t => r = .ok () ∧ t = s) s := by
  obtain ⟨bytes, hlive, hok⟩ := id h
  refine .bind (P := fun r t => r = .ok true ∧ t = s) ?_ ?_ (by rintro _ _ ⟨hr, -⟩; cases hr)
  · refine ensures_fsCall (fun answer hallows hfails => ?_) ?_ ?_
    · rw [hallows h] at hfails
      cases hfails
    · intro _ _ _ isFile s' hf
      simp only [hlive, Except.ok.injEq, Prod.mk.injEq] at hf
      exact ⟨by rw [← hf.1]; rfl, hf.2.symm⟩
    · intro _ _ _ kind hf
      simp [hlive] at hf
  · rintro isFile t ⟨hfile, rfl⟩
    cases hfile
    refine .ofExcept_bind (fun _ _ => ?_) (by rintro e ⟨⟩)
    exact .call fun answer hallows =>
      ⟨integrity_eq_ok.mpr ⟨hallows h, bytes, hlive, hok⟩, rfl⟩

theorem ensures_regularSidecars (parts : List DatabasePart) :
    (regularSidecars parts).Ensures allows
      (fun r t => t = s ∧ ∀ sidecars, r = .ok sidecars → (∀ part ∈ sidecars, part ∈ parts) ∧
        ∀ part ∈ parts, part ∉ sidecars → s (.live part) = none) s := by
  induction parts with
  | nil => exact .pure ⟨rfl, by rintro _ ⟨⟩; simp⟩
  | cons part rest ih =>
      refine .bind (P := fun r t => t = s ∧ ∃ v, r = .ok v ∧
        (v = .error (.io .notFound) → s (.live part) = none))
        (.attempt (ensures_symlinkMetadata.mono fun r _ h => ⟨h.1, r, rfl, h.2.2⟩)) ?_
        (by rintro _ _ ⟨-, _, hv, -⟩; cases hv)
      rintro v t ⟨rfl, _, hv, hnone⟩
      cases hv
      split
      · refine .bind ih ?_ (by rintro _ _ ⟨rfl, -⟩; exact ⟨rfl, nofun⟩)
        rintro sidecars t ⟨rfl, hsidecars⟩
        obtain ⟨hsub, hrest⟩ := hsidecars sidecars rfl
        refine .pure ⟨rfl, ?_⟩
        rintro _ ⟨⟩
        refine ⟨fun p hp => ?_, fun p hp hnot => ?_⟩
        · rcases List.mem_cons.mp hp with rfl | hp
          · exact .head _
          · exact .tail _ (hsub p hp)
        · rw [List.mem_cons, not_or] at hnot
          rcases List.mem_cons.mp hp with rfl | hp
          · exact absurd rfl hnot.1
          · exact hrest p hp hnot.2
      · exact .ofExcept ⟨rfl, nofun⟩
      · refine ih.mono fun r t' h => ⟨h.1, fun sidecars hr => ?_⟩
        obtain ⟨hsub, hrest⟩ := h.2 sidecars hr
        refine ⟨fun p hp => .tail _ (hsub p hp), fun p hp hnot => ?_⟩
        rcases List.mem_cons.mp hp with rfl | hp
        · exact hnone rfl
        · exact hrest p hp hnot
      · exact .ofExcept ⟨rfl, nofun⟩

/-- Moving sidecars changes their two places; when it succeeds none is left. -/
theorem ensures_moveSidecars {token : Token} (parts : List DatabasePart) :
    (moveSidecars token parts).Ensures allows
      (fun r t => (∀ path, (∀ part ∈ parts, path ≠ .live part ∧ path ≠ .quarantined token part) →
          t path = s path) ∧
        (r = .ok () → ∀ part ∈ parts, t (.live part) = none)) s := by
  induction parts generalizing s with
  | nil => exact .pure ⟨fun _ _ => rfl, by simp⟩
  | cons part rest ih =>
      refine .bind (P := fun r t => (∀ path, path ≠ .live part → path ≠ .quarantined token part →
          t path = s path) ∧ (r = .ok () → t (.live part) = none))
        (ensures_renameAs.mono ?_) ?_ ?_
      · rintro (e | u) t ⟨herror, hok⟩
        · obtain rfl := herror e rfl
          exact ⟨fun _ _ _ => rfl, nofun⟩
        · obtain ⟨node, -, rfl⟩ := hok u rfl
          refine ⟨fun path hlive hquarantined => ?_, fun _ => ?_⟩
          · rw [AppFiles.set_of_ne hquarantined, AppFiles.set_of_ne hlive]
          · rw [AppFiles.set_of_ne (by simp), AppFiles.set_same]
      · rintro u t ⟨hsame, hnone⟩
        refine .bind ensures_touch ?_ ?_
        · rintro _ _ rfl
          rename_i t
          refine ih.mono fun r t' ⟨hsame', hnone'⟩ => ⟨fun path hpath => ?_, fun hr p hp => ?_⟩
          · have hhere := hpath part (.head _)
            rw [hsame' path fun p hp => hpath p (.tail _ hp), hsame path hhere.1 hhere.2]
          · by_cases hrest : p ∈ rest
            · exact hnone' hr p hrest
            · obtain rfl : p = part := (List.mem_cons.mp hp).resolve_right hrest
              rw [hsame' _ fun q hq => ⟨by rintro ⟨⟩; exact hrest hq, by simp⟩]
              exact hnone rfl
        · rintro e _ rfl
          refine ⟨fun path hpath => ?_, nofun⟩
          have hhere := hpath part (.head _)
          exact hsame path hhere.1 hhere.2
      · rintro e t ⟨hsame, -⟩
        refine ⟨fun path hpath => ?_, nofun⟩
        have hhere := hpath part (.head _)
        exact hsame path hhere.1 hhere.2

/-- The live database renamed to a new name in quarantine, and its sidecars
possibly moved, is what a quarantine does. -/
theorem retains_of_moved {token : Token} {t : AppFiles} {node : FileNode}
    (hhealthy : ¬ Healthy format s) (hlive : s (.live .database) = some node)
    (hnew : s (.quarantined token .database) = none)
    (hnode : t (.quarantined token .database) = some node)
    (hsame : ∀ other, other ≠ token → t (.quarantined other .database) =
      s (.quarantined other .database)) : Retains format s t where
  quarantined other bytes hs := by
    rw [hsame other (by rintro rfl; rw [hnew] at hs; cases hs), hs]
  live bytes hs := .inr ⟨token, by rw [hnode, ← hlive, hs]⟩
  healthy h := absurd h hhealthy

theorem ensures_quarantineLiveDatabase : (quarantineLiveDatabase format).Ensures (Allows format)
    (fun r t => Retains format s t ∧ (∀ name, t (.backup name) = s (.backup name)) ∧
      ∀ path, r = .ok path → ∀ part, t (.live part) = none) s := by
  refine .bind ensures_touches ?_ (by rintro _ _ rfl; exact ⟨.refl, fun _ => rfl, nofun⟩)
  rintro _ s rfl
  refine .bind (P := fun _ t => t = s)
    (ensures_mapError (ensures_symlinkMetadata.mono fun _ _ h => h.1)) ?_
    (by rintro _ _ rfl; exact ⟨.refl, fun _ => rfl, nofun⟩)
  rintro isFile s rfl
  refine .ofExcept_bind (fun _ _ => ?_) (fun _ _ => ⟨.refl, fun _ => rfl, nofun⟩)
  refine .bind (P := fun r t => t = s ∧ ∃ v, r = .ok v ∧ (Healthy format s → v = .ok ()))
    (.attempt ?_) ?_ (by rintro _ _ ⟨-, _, hv, -⟩; cases hv)
  · by_cases h : Healthy format s
    · exact (ensures_quarantineCheck h).mono fun r t hr => ⟨hr.2, r, rfl, fun _ => hr.1⟩
    · exact ensures_validateSqliteFile.mono fun r t hr => ⟨hr.1, r, rfl, fun hs => absurd hs h⟩
  rintro v s ⟨rfl, _, hv, hcheck⟩
  cases hv
  refine .ofExcept_bind (fun _ hunhealthy => ?_) (fun _ _ => ⟨.refl, fun _ => rfl, nofun⟩)
  have hhealthy : ¬ Healthy format s := by
    intro h
    rw [hcheck h, ensure_eq_ok] at hunhealthy
    cases hunhealthy
  refine .bind (ensures_regularSidecars sqliteSidecars) ?_
    (by rintro _ _ ⟨rfl, -⟩; exact ⟨.refl, fun _ => rfl, nofun⟩)
  rintro sidecars s ⟨rfl, hsidecars⟩
  obtain ⟨hsub, hnone⟩ := hsidecars sidecars rfl
  refine .bind (P := fun r t => t = s ∧ ∀ token, r = .ok token →
    s (.quarantined token .database) = none) (.call fun answer hallows => ?_) ?_
    (by rintro _ _ ⟨rfl, -⟩; exact ⟨.refl, fun _ => rfl, nofun⟩)
  · exact ⟨rfl, by rintro _ ⟨⟩; exact hallows⟩
  rintro token s ⟨rfl, hnew⟩
  have hnew := hnew token rfl
  refine .bind ensures_renameAs ?_ ?_
  · rintro u t ⟨-, hmoved⟩
    obtain ⟨node, hlive, rfl⟩ := hmoved u rfl
    have hparts : ∀ part ∈ sidecars, part ≠ .database := by
      rintro _ hpart rfl
      have := hsub _ hpart
      simp [sqliteSidecars] at this
    -- whatever becomes of the sidecars, the database is in quarantine
    have hafter : ∀ t, (∀ path, (∀ part ∈ sidecars, path ≠ .live part ∧
        path ≠ .quarantined token part) →
          t path = ((s.set (.live .database) none).set (.quarantined token .database)
            (some node)) path) →
        Retains format s t ∧ (∀ name, t (.backup name) = s (.backup name)) ∧
          (∀ part, part ∉ sidecars → t (.live part) = none) := by
      intro t hsame
      refine ⟨retains_of_moved hhealthy hlive hnew ?_ ?_, ?_, ?_⟩
      · rw [hsame _ fun part hpart => ⟨by simp, by simp [(hparts part hpart).symm]⟩,
          AppFiles.set_same]
      · intro other hother
        rw [hsame _ fun part hpart => ⟨by simp, by simp [hother]⟩,
          AppFiles.set_of_ne (by simp [hother]), AppFiles.set_of_ne (by simp)]
      · intro name
        rw [hsame _ fun part hpart => ⟨by simp, by simp⟩, AppFiles.set_of_ne (by simp),
          AppFiles.set_of_ne (by simp)]
      · intro part hpart
        rw [hsame _ fun q hq => ⟨by rintro ⟨⟩; exact hpart hq, by simp⟩,
          AppFiles.set_of_ne (by simp)]
        by_cases hdatabase : part = .database
        · rw [hdatabase, AppFiles.set_same]
        · rw [AppFiles.set_of_ne (by simp [hdatabase])]
          refine hnone part ?_ hpart
          cases part <;> simp_all [sqliteSidecars]
    refine .bind (ensures_moveSidecars sidecars) ?_ ?_
    · rintro u t ⟨hsame, hmoved⟩
      obtain ⟨hretains, hbackups, hleft⟩ := hafter t hsame
      have hgone : ∀ part, t (.live part) = none := by
        intro part
        by_cases hpart : part ∈ sidecars
        · exact hmoved rfl part hpart
        · exact hleft part hpart
      refine .bind ensures_touch ?_ (by rintro _ _ rfl; exact ⟨hretains, hbackups, nofun⟩)
      rintro _ _ rfl
      refine .bind ensures_touch ?_ (by rintro _ _ rfl; exact ⟨hretains, hbackups, nofun⟩)
      rintro _ _ rfl
      exact .pure ⟨hretains, hbackups, fun _ _ => hgone⟩
    · rintro e t ⟨hsame, -⟩
      obtain ⟨hretains, hbackups, -⟩ := hafter t hsame
      exact ⟨hretains, hbackups, nofun⟩
  · rintro e t ⟨hsame, -⟩
    obtain rfl := hsame e rfl
    exact ⟨.refl, fun _ => rfl, nofun⟩

end

/-! ## Restore -/

section

variable {format : DatabaseFormat} {allows : Site → FsAnswer → AppFiles → Prop} {s : AppFiles}
  {name : Name}

/-- Setting the live database aside leaves nothing live, or has looked and changed
nothing. -/
theorem ensures_setAside : (setAside format).Ensures (Allows format)
    (fun r t => Retains format s t ∧ (∀ name, t (.backup name) = s (.backup name)) ∧
      (r = .ok () → t = s ∨ ∀ part, t (.live part) = none)) s := by
  refine .bind (P := fun r t => t = s ∧ ∃ v, r = .ok v)
    (.attempt (ensures_symlinkMetadata.mono fun r _ h => ⟨h.1, r, rfl⟩)) ?_
    (by rintro _ _ ⟨-, _, hv⟩; cases hv)
  rintro (e | isFile) s ⟨rfl, -⟩
  · exact .pure ⟨.refl, fun _ => rfl, fun _ => .inl rfl⟩
  · refine .ofExcept_bind (fun _ _ => ?_) (fun _ _ => ⟨.refl, fun _ => rfl, nofun⟩)
    refine .bind (P := fun r t => t = s ∧ ∃ v, r = .ok v)
      (.attempt (ensures_validateSqliteFile.mono fun r _ h => ⟨h.1, r, rfl⟩)) ?_
      (by rintro _ _ ⟨-, _, hv⟩; cases hv)
    rintro healthy s ⟨rfl, -⟩
    refine .ofExcept_bind (fun _ _ => ?_) (fun _ _ => ⟨.refl, fun _ => rfl, nofun⟩)
    refine .bind ensures_quarantineLiveDatabase ?_ ?_
    · rintro path t ⟨hretains, hbackups, hgone⟩
      exact .pure ⟨hretains, hbackups, fun _ => .inr (hgone path rfl)⟩
    · rintro e t ⟨hretains, hbackups, -⟩
      exact ⟨hretains, hbackups, nofun⟩

/-- Removing what was put where nothing was. -/
theorem ensures_removeLive {t : AppFiles} (hnone : s (.live .database) = none)
    (h : FillsGap s t) : (Backup.ignore (removeFile (.live .database))).Ensures allows
      (fun r t' => r = .ok () ∧ FillsGap s t') t := by
  refine ensures_ignore (ensures_removeFile.mono ?_)
  rintro _ _ (rfl | rfl)
  · exact h
  · intro path hpath hthere
    rw [AppFiles.set_of_ne fun heq => hthere heq (heq ▸ hnone), h path hpath hthere]

theorem ensures_installDatabase {source : AppPath} :
    (installDatabase source (.live .database)).Ensures allows
      (fun r t => FillsGap s t ∧ (r = .ok () → s (.live .database) = none ∧
        ∃ bytes, s source = some (.file bytes) ∧ t (.live .database) = some (.file bytes))) s := by
  have hrefl : ∀ s : AppFiles, FillsGap s s := fun _ _ _ _ => rfl
  refine .bind (P := fun r t => t = s ∧ ∃ v, r = .ok v)
    (.attempt (ensures_symlinkMetadata.mono fun r _ h => ⟨h.1, r, rfl⟩)) ?_
    (by rintro _ _ ⟨-, _, hv⟩; cases hv)
  rintro appeared s ⟨rfl, -⟩
  refine .ofExcept_bind (fun _ _ => ?_) (fun _ _ => ⟨hrefl s, nofun⟩)
  refine .bind ensures_openFile ?_ (by rintro _ _ ⟨rfl, -⟩; exact ⟨hrefl _, nofun⟩)
  rintro input s ⟨rfl, hinput⟩
  refine .bind ensures_openCreateNew ?_ ?_
  · rintro u t ⟨-, hcreated⟩
    obtain ⟨hnone, rfl⟩ := hcreated u rfl
    refine .bind (P := fun r t => t = s.set (.live .database) (some (.file [])) ∧ ∃ v, r = .ok v)
      (.attempt (ensures_touch.mono fun r _ h => ⟨h, r, rfl⟩)) ?_
      (by rintro _ _ ⟨-, _, hv⟩; cases hv)
    rintro (e | u) _ ⟨rfl, -⟩
    · refine .bind (ensures_removeLive hnone (.set hnone)) ?_ (by rintro _ _ ⟨hv, -⟩; cases hv)
      rintro _ t ⟨-, hfills⟩
      exact .ofExcept ⟨hfills, nofun⟩
    · refine .bind (P := fun r t => (∃ v, r = .ok v ∧
          (v = .ok () → t (.live .database) = some (.file input))) ∧ FillsGap s t) (.attempt ?_) ?_
        (by rintro _ _ ⟨⟨_, hv, -⟩, -⟩; cases hv)
      · have hfills : ∀ bytes, FillsGap s ((s.set (.live .database) (some (.file []))).set
            (.live .database) (some (.file bytes))) := by
          intro bytes path hpath hthere
          have hne : path ≠ .live .database := fun heq => hthere heq (heq ▸ hnone)
          rw [AppFiles.set_of_ne hne, AppFiles.set_of_ne hne]
        refine .bind ensures_copyInto ?_ ?_
        · rintro u t ⟨bytes, rfl, hread⟩
          obtain rfl := Option.some.inj (hread u rfl)
          refine .bind ensures_touch ?_ (by rintro _ _ rfl; exact ⟨⟨_, rfl, nofun⟩, hfills _⟩)
          rintro _ _ rfl
          refine ensures_touch.mono ?_
          rintro r _ rfl
          exact ⟨⟨r, rfl, fun _ => AppFiles.set_same ..⟩, hfills _⟩
        · rintro e t ⟨bytes, rfl, -⟩
          exact ⟨⟨_, rfl, nofun⟩, hfills _⟩
      · rintro v t ⟨⟨_, hv, hcopied⟩, hfills⟩
        cases hv
        rcases v with e | u
        · refine .bind (ensures_removeLive hnone hfills) ?_ (by rintro _ _ ⟨hv, -⟩; cases hv)
          rintro _ t' ⟨-, hfills'⟩
          exact .ofExcept ⟨hfills', nofun⟩
        · exact .pure ⟨hfills, fun _ => ⟨hnone, input, hinput input rfl, hcopied rfl⟩⟩
  · rintro e t ⟨hsame, -⟩
    obtain rfl := hsame e rfl
    exact ⟨hrefl _, nofun⟩

theorem ensures_installSelected : (installSelected format name).Ensures allows
    (fun r t => FillsGap s t ∧ ∀ path, r = .ok path → path = .live .database ∧
      s (.live .database) = none ∧ ∃ bytes restored, s (.backup name) = some (.file bytes) ∧
        format.decompress bytes = some restored ∧ format.integrityOk restored none none = true ∧
        t (.live .database) = some (.file restored)) s := by
  have hrefl : ∀ s : AppFiles, FillsGap s s := fun _ _ _ _ => rfl
  refine .bind (P := fun _ t => t = s) (.call fun _ _ => rfl) ?_
    (by rintro _ _ rfl; exact ⟨hrefl _, nofun⟩)
  rintro token s rfl
  -- the installed content is the backup's, decompressed and validated
  refine .bind (P := fun r t => (∃ v, r = .ok v ∧ (v = .ok () → s (.live .database) = none ∧
      ∃ bytes restored, s (.backup name) = some (.file bytes) ∧
        format.decompress bytes = some restored ∧ format.integrityOk restored none none = true ∧
        t (.live .database) = some (.file restored))) ∧ FillsGap s t) (.attempt ?_) ?_
    (by rintro _ _ ⟨⟨_, hv, -⟩, -⟩; cases hv)
  · refine .bind ensures_decompressFile ?_
      (by rintro e t ⟨h, -⟩; exact ⟨⟨_, rfl, nofun⟩, h.fillsGap⟩)
    rintro u t ⟨hsame, hdecompressed⟩
    obtain ⟨bytes, restored, hbytes, hrestored, hfile⟩ := hdecompressed u rfl
    refine .bind ensures_validateSqliteFile ?_
      (by rintro e _ ⟨rfl, -⟩; exact ⟨⟨_, rfl, nofun⟩, hsame.fillsGap⟩)
    rintro u t ⟨rfl, hvalid⟩
    obtain ⟨bytes', hfile', hok⟩ := hvalid rfl
    rw [hfile] at hfile'
    cases hfile'
    refine ensures_installDatabase.mono ?_
    rintro r t' ⟨hfills, hinstalled⟩
    refine ⟨⟨r, rfl, fun hr => ?_⟩, hsame.fillsGap.trans hfills⟩
    obtain ⟨hnone, content, hcontent, hlive⟩ := hinstalled hr
    rw [hfile] at hcontent
    cases hcontent
    exact ⟨(hsame _ (by simp)).symm.trans hnone, bytes, restored, hbytes, hrestored, hok, hlive⟩
  · rintro v t ⟨⟨_, hv, hinstalled⟩, hfills⟩
    cases hv
    -- a database that is installed is there to stay only when it is found intact
    refine .bind (P := fun r t' => ∃ result, r = .ok result ∧ FillsGap s t' ∧
      (result = .ok () → v = .ok () ∧ t' = t)) ?_ ?_ (by rintro _ _ ⟨_, hv, -⟩; cases hv)
    · rcases v with e | u
      · exact .pure ⟨_, rfl, hfills, nofun⟩
      · have hnone := (hinstalled rfl).1
        refine .bind (P := fun r t' => t' = t ∧ ∃ v, r = .ok v)
          (.attempt (ensures_validateSqliteFile.mono fun r _ h => ⟨h.1, r, rfl⟩)) ?_
          (by rintro _ _ ⟨-, _, hv⟩; cases hv)
        rintro checked t ⟨rfl, -⟩
        rcases checked with e | u
        · refine .bind (ensures_removeLive hnone hfills) ?_ (by rintro _ _ ⟨hv, -⟩; cases hv)
          rintro _ t' ⟨-, hfills'⟩
          exact .pure ⟨_, rfl, hfills', nofun⟩
        · exact .pure ⟨_, rfl, hfills, fun _ => ⟨rfl, rfl⟩⟩
    · rintro result t' ⟨_, hr, hfills', hresult⟩
      cases hr
      refine .bind ensures_removeTemporary ?_ (by rintro _ _ ⟨hv, -⟩; cases hv)
      rintro _ t'' ⟨-, hsame⟩
      refine .ofExcept_bind (fun _ hr => ?_) fun _ _ => ⟨hfills'.trans hsame.fillsGap, nofun⟩
      obtain ⟨hv, rfl⟩ := hresult hr
      obtain ⟨hnone, bytes, restored, hbytes, hrestored, hok, hlive⟩ := hinstalled hv
      refine .pure ⟨hfills'.trans hsame.fillsGap, ?_⟩
      rintro _ ⟨⟩
      exact ⟨rfl, hnone, bytes, restored, hbytes, hrestored, hok,
        (hsame _ (by simp)).trans hlive⟩

/-- **A restore that succeeds** leaves the selected backup at the live path, alone
when no file of an earlier database was left there. -/
theorem ensures_restoreValidatedBackup {selected : AppPath}
    (hready : BackupCall.Ready format s (.restoreValidatedBackup selected)) :
    (restoreValidatedBackup format selected).Ensures (Allows format)
      (fun r t => Retains format s t ∧
        ∀ path, r = .ok path → path = .live .database ∧ Restored format selected s t) s := by
  refine .bind ensures_touches ?_ (by rintro _ _ rfl; exact ⟨.refl, nofun⟩)
  rintro _ s rfl
  refine .bind ensures_validateSelectedBackup ?_
    (by rintro _ _ ⟨h, -⟩; exact ⟨h.fillsGap.retains, nofun⟩)
  rintro name t ⟨hsame, hselected⟩
  obtain ⟨rfl, hvalid⟩ := hselected name rfl
  have hretains : Retains format s t := hsame.fillsGap.retains
  refine .bind ensures_setAside ?_
    (by rintro _ _ ⟨h, -⟩; exact ⟨hretains.trans h, nofun⟩)
  rintro u t' ⟨haside, hbackups, hgone⟩
  refine ensures_installSelected.mono ?_
  rintro r t'' ⟨hfills, hinstalled⟩
  refine ⟨(hretains.trans haside).trans hfills.retains, fun path hr => ?_⟩
  obtain ⟨hpath, hnone, bytes, restored, hbytes, hrestored, hok, hlive⟩ := hinstalled path hr
  have hsidecars : t' (.live .wal) = none ∧ t' (.live .shm) = none := by
    rcases hgone rfl with rfl | hall
    · rw [hsame _ (by simp)] at hnone
      obtain ⟨hwal, hshm⟩ := hready hnone ⟨name, rfl, hvalid⟩
      exact ⟨by rw [hsame _ (by simp), hwal], by rw [hsame _ (by simp), hshm]⟩
    · exact ⟨hall .wal, hall .shm⟩
  rw [hbackups, hsame _ (by simp)] at hbytes
  refine ⟨hpath, name, bytes, restored, rfl, hbytes, hrestored, hok, hlive, ?_, ?_⟩
  · rw [hfills _ (by simp) (by simp), hsidecars.1]
  · rw [hfills _ (by simp) (by simp), hsidecars.2]

theorem retains_of_call {call : BackupCall} {r : Except BackupError AppPath} {t : AppFiles}
    (hready : call.Ready format s)
    (h : (call.body format).ReturnsUnder (Allows format) s r t) : Retains format s t := by
  cases call with
  | quarantineLiveDatabase => exact (h.of_ensures ensures_quarantineLiveDatabase).1
  | restoreValidatedBackup selected =>
      exact (h.of_ensures (ensures_restoreValidatedBackup hready)).1

theorem BackupRun.retains {t : AppFiles} (h : BackupRun format s t) : Retains format s t := by
  induction h with
  | start => exact .refl
  | call _ hready hcall ih => exact ih.trans (retains_of_call hready hcall)

end

/-- **Restore after corruption is clean.** Over any calls that keep the rules, with
whatever failures: a healthy live database stays where it is, a content that was
live is live or in quarantine ever after, and a restore that succeeds leaves the
selected backup alone at the live path. -/
theorem restore_clean {format : DatabaseFormat} {start files : AppFiles}
    (h : BackupRun format start files) :
    (Healthy format start → ∀ part, files (.live part) = start (.live part)) ∧
      (∀ bytes, start (.live .database) = some (.file bytes) → Recoverable bytes files) ∧
      ∀ selected path files',
        BackupCall.Ready format files (.restoreValidatedBackup selected) →
        (restoreValidatedBackup format selected).ReturnsUnder (Allows format) files (.ok path)
          files' → path = .live .database ∧ Restored format selected files files' :=
  ⟨h.retains.healthy, h.retains.live, fun _ path _ hready hcall =>
    (hcall.of_ensures (ensures_restoreValidatedBackup hready)).2 path rfl⟩

/-! ### A backup of an empty database -/

/-- The backup `syncplus-1.sqlite.gz`. -/
def backupName : Name := "syncplus-1.sqlite.gz".toUTF8.toList

/-- An empty file, compressed. -/
def emptyCompressed : List UInt8 :=
  [31, 139, 8, 0, 0, 0, 0, 0, 0, 3, 3, 0, 0, 0, 0, 0, 0, 0, 0, 0]

/-- An empty file is a database, any other here is none. -/
def emptyFormat : DatabaseFormat where
  integrityOk bytes _ _ := bytes = []
  decompress bytes := if bytes = emptyCompressed then some [] else none

/-- The backup, and these files of the live database. -/
def withBackup (database wal shm : Option FileNode) : AppFiles
  | .live .database => database
  | .live .wal => wal
  | .live .shm => shm
  | .backup name => if name = backupName then some (.file emptyCompressed) else none
  | _ => none

/-- No call fails. -/
def succeeding : FsAnswer := ⟨false, (0, 0), [backupName], []⟩

def restoring (files : AppFiles) : Except BackupError AppPath × AppFiles :=
  let outcome := (restoreValidatedBackup emptyFormat (.backup backupName)).run succeeding files
  (outcome.1, outcome.2.1)

/-- A corrupt database and its log are set aside, and the backup is restored. -/
theorem restore_clean_corrupt :
    let corrupt := withBackup (some (.file [1])) (some (.file [2])) none
    Recoverable [1] (restoring corrupt).2 ∧
      Restored emptyFormat (.backup backupName) corrupt (restoring corrupt).2 := by
  intro corrupt
  have hready : BackupCall.Ready emptyFormat corrupt (.restoreValidatedBackup (.backup backupName)) :=
    nofun
  have hallowed : (restoreValidatedBackup emptyFormat (.backup backupName)).AllowedAlong
      (Allows emptyFormat) succeeding corrupt := by
    decide +kernel
  have hreturns := Procedure.returnsUnder_run hallowed
  have hok : (restoring corrupt).1 = .ok (.live .database) := by decide +kernel
  refine ⟨(restore_clean (.call .start hready hreturns)).2.1 [1] rfl, ?_⟩
  exact ((restore_clean .start).2.2 _ (.live .database) _ hready (hok ▸ hreturns)).2

/-- No database is live, and a file of an earlier one was left: the backup is restored
beside it. -/
theorem restore_not_clean :
    ¬ ∀ (format : DatabaseFormat) (files files' : AppFiles) (selected path : AppPath),
      (restoreValidatedBackup format selected).ReturnsUnder (fun _ _ _ => True) files (.ok path)
        files' → Restored format selected files files' := by
  intro h
  have hallowed : (restoreValidatedBackup emptyFormat (.backup backupName)).AllowedAlong
      (fun _ _ _ => True) succeeding (withBackup none none (some (.file [3]))) := by
    decide +kernel
  have hreturns := Procedure.returnsUnder_run hallowed
  have hok : (restoring (withBackup none none (some (.file [3])))).1 = .ok (.live .database) := by
    decide +kernel
  obtain ⟨-, -, -, -, -, -, -, -, -, hshm⟩ := h _ _ _ _ (.live .database) (hok ▸ hreturns)
  exact absurd hshm (by decide +kernel)

end SyncPlus
