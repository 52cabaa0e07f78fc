import SyncPlus.BackupRotation

/-!
# What a new backup holds

Whatever calls of the file system fail: a backup that is returned as created is there,
valid, and decompresses to the snapshot of the connection it was made on, and the live
database is as it was (`ensures_createValidatedBackup`).
-/

namespace SyncPlus

section

variable {format : DatabaseFormat} {compress : List UInt8 → List UInt8}
  {connection : LiveConnection} {allows : Site → FsAnswer → AppFiles → Prop} {s t u : AppFiles}
  {path : AppPath} {name : Name}

def SameLive (before after : AppFiles) : Prop :=
  ∀ part, after (.live part) = before (.live part)

theorem SameLive.refl : SameLive s s := fun _ => rfl

theorem SameLive.trans (h : SameLive s t) (h' : SameLive t u) : SameLive s u :=
  fun part => (h' part).trans (h part)

theorem SameLive.set {node : Option FileNode} (hpath : ∀ part, path ≠ .live part) :
    SameLive s (s.set path node) :=
  fun part => AppFiles.set_of_ne (hpath part).symm

theorem SameApplication.live (h : SameApplication s t) : SameLive s t :=
  fun part => h (.live part) (by simp)

/-- A valid backup of this name decompresses to these bytes. -/
def BackupOf (format : DatabaseFormat) (snapshot : List UInt8) (files : AppFiles) (name : Name) :
    Prop :=
  isBackupName name = true ∧ ∃ bytes, files (.backup name) = some (.file bytes) ∧
    format.decompress bytes = some snapshot ∧ format.integrityOk snapshot none none = true

theorem BackupOf.of_same {snapshot : List UInt8} (h : BackupOf format snapshot s name)
    (hsame : t (.backup name) = s (.backup name)) : BackupOf format snapshot t name := by
  obtain ⟨hname, bytes, hbytes, hrest⟩ := h
  exact ⟨hname, bytes, hsame.trans hbytes, hrest⟩

/-! ## The calls -/

def ChangesOnly (path : AppPath) (before after : AppFiles) : Prop :=
  ∀ other, other ≠ path → after other = before other

theorem ChangesOnly.refl : ChangesOnly path s s := fun _ _ => rfl

theorem ChangesOnly.set {node : Option FileNode} : ChangesOnly path s (s.set path node) :=
  fun _ => AppFiles.set_of_ne

theorem ChangesOnly.trans (h : ChangesOnly path s t) (h' : ChangesOnly path t u) :
    ChangesOnly path s u :=
  fun other hother => (h' other hother).trans (h other hother)

theorem ChangesOnly.live (h : ChangesOnly path s t) (hpath : ∀ part, path ≠ .live part) :
    SameLive s t :=
  fun part => h (.live part) (hpath part).symm

theorem ensures_vacuumInto : (vacuumInto connection path).Ensures allows
    (fun r t => ChangesOnly path s t ∧
      ∀ u, r = .ok u → t = s.set path (some (.file connection.snapshot))) s := by
  refine .bind (P := fun r t => ChangesOnly path s t ∧
      ∀ u, r = .ok u → t = s.set path (some (.file connection.snapshot)))
    (.call fun answer _ => ?_) ?_ fun e t h => ⟨h.1, nofun⟩
  · split
    · split
      · exact ⟨.set, nofun⟩
      · exact ⟨.set, fun _ _ => rfl⟩
    · exact ⟨.refl, nofun⟩
  · rintro u t ⟨hsame, hwritten⟩
    refine ensures_touch.mono ?_
    rintro r _ rfl
    exact ⟨hsame, fun _ _ => hwritten u rfl⟩

theorem ensures_compressFile {target : AppPath} : (compressFile compress path target).Ensures allows
    (fun r t => ChangesOnly target s t ∧ ∀ u, r = .ok u → ∃ bytes, s path = some (.file bytes) ∧
      t = s.set target (some (.file (compress bytes)))) s := by
  refine .bind ensures_openFile ?_ (by rintro _ _ ⟨rfl, -⟩; exact ⟨.refl, nofun⟩)
  rintro input t ⟨rfl, hinput⟩
  refine .bind ensures_openCreateNew ?_
    (by rintro e _ ⟨hsame, -⟩; obtain rfl := hsame e rfl; exact ⟨.refl, nofun⟩)
  rintro u t' ⟨-, hnew⟩
  obtain ⟨-, rfl⟩ := hnew u rfl
  refine .bind ensures_touch ?_ (by rintro _ _ rfl; exact ⟨.set, nofun⟩)
  rintro _ _ rfl
  refine .bind ensures_copyInto ?_
    (by rintro e _ ⟨bytes, rfl, -⟩; exact ⟨.trans .set .set, nofun⟩)
  rintro u t' ⟨bytes, rfl, hread⟩
  refine ensures_touch.mono ?_
  rintro r _ rfl
  refine ⟨.trans .set .set, fun _ _ => ⟨input, hinput input rfl, ?_⟩⟩
  cases hread u rfl
  exact AppFiles.set_set ..

theorem ensures_hardLink {target : AppPath} : (hardLink path target).Ensures allows
    (fun r t => ChangesOnly target s t ∧
      ∀ u, r = .ok u → ∃ node, s path = some node ∧ t = s.set target (some node)) s := by
  refine ensures_fsCall (fun _ _ _ => ⟨.refl, nofun⟩) ?_ (fun _ _ _ _ _ => ⟨.refl, nofun⟩)
  intro answer _ _ u s' hf
  split at hf
  · rename_i node hsource _
    cases hf
    exact ⟨.set, fun _ _ => ⟨node, hsource, rfl⟩⟩
  · cases hf
  · cases hf

/-- Removals keep the newest backup, and everything that is no backup. -/
theorem ensures_removeOldest {newest : Name} (backups : List Name) :
    (removeOldest newest backups).Ensures allows
      (fun _ t => SameLive s t ∧ t (.backup newest) = s (.backup newest)) s := by
  fun_induction removeOldest newest backups generalizing s with
  | case1 oldest a b rest ih =>
      refine .ofExcept_bind (fun _ hne => ?_) fun _ _ => ⟨.refl, rfl⟩
      rw [ensure_eq_ok] at hne
      have hremoved : ∀ {t : AppFiles}, (t = s ∨ t = s.set (.backup oldest) none) →
          SameLive s t ∧ t (.backup newest) = s (.backup newest) := by
        rintro t (rfl | rfl)
        · exact ⟨.refl, rfl⟩
        · exact ⟨.set (by simp), AppFiles.set_of_ne (by simpa using hne.symm)⟩
      refine .bind (P := fun _ t => SameLive s t ∧ t (.backup newest) = s (.backup newest))
        (ensures_mapError (ensures_removeFile.mono fun _ _ h => hremoved h)) ?_ fun _ _ h => h
      rintro _ t ⟨hlive, hnewest⟩
      exact ih.mono fun _ _ h => ⟨hlive.trans h.1, h.2.trans hnewest⟩
  | case2 => exact .pure ⟨.refl, rfl⟩

theorem ensures_rotateValidatedBackups {newest : Name} :
    (rotateValidatedBackups format newest).Ensures allows
      (fun _ t => SameLive s t ∧ t (.backup newest) = s (.backup newest)) s := by
  refine .bind ensures_listValidatedBackups ?_ fun _ _ h => ⟨h.1.live, h.1 _ (by simp)⟩
  rintro backups t ⟨hsame, -⟩
  refine .bind (ensures_removeOldest backups.reverse) ?_
    fun _ _ h => ⟨hsame.live.trans h.1, h.2.trans (hsame _ (by simp))⟩
  rintro _ t' ⟨hlive, hnewest⟩
  refine ensures_touch.mono ?_
  rintro _ _ rfl
  exact ⟨hsame.live.trans hlive, hnewest.trans (hsame _ (by simp))⟩

theorem ensures_checkLive : (checkLive format).Ensures allows (fun _ t => t = s) s := by
  refine .bind (P := fun _ t => t = s)
    (.attempt (ensures_symlinkMetadata.mono fun _ _ h => h.1)) ?_ fun _ _ h => h
  rintro v s rfl
  split
  · exact .pure rfl
  · refine .ofExcept_bind (fun _ _ => ?_) fun _ _ => rfl
    refine .bind ensures_touch ?_ fun _ _ h => h
    rintro _ _ rfl
    exact ensures_validateSqliteFile.mono fun _ _ h => h.1

/-- The backup that is returned holds the snapshot. -/
theorem ensures_writeBackup {label : String} {token : Token} {staging : Name}
    (hcompress : ∀ bytes, format.decompress (compress bytes) = some bytes)
    (hname : isBackupName name = true) (hstaging : staging ≠ name) :
    (writeBackup format compress connection (.temporary label token) (.backup staging)
        name).Ensures allows
      (fun r t => SameLive s t ∧
        ∀ written, r = .ok written → written = name ∧ BackupOf format connection.snapshot t name) s := by
  have hlive : ∀ {t : AppFiles}, ChangesOnly (.temporary label token) s t → SameLive s t :=
    fun h => h.live (by simp)
  refine .bind ensures_vacuumInto ?_ fun e t h => ⟨hlive h.1, nofun⟩
  rintro u _ ⟨-, hwritten⟩
  obtain rfl := hwritten u rfl
  have hset : SameLive s (s.set (.temporary label token) (some (.file connection.snapshot))) :=
    .set (by simp)
  refine .bind ensures_validateSqliteFile ?_ (by rintro e _ ⟨rfl, -⟩; exact ⟨hset, nofun⟩)
  rintro u t ⟨rfl, hvalid⟩
  obtain ⟨bytes, hbytes, hok⟩ := hvalid rfl
  rw [AppFiles.set_same] at hbytes
  cases hbytes
  refine .bind ensures_compressFile ?_
    fun e t h => ⟨hset.trans (h.1.live (by simp)), nofun⟩
  rintro u t ⟨hchanged, hcompressed⟩
  obtain ⟨bytes, hbytes, ht⟩ := hcompressed u rfl
  rw [AppFiles.set_same] at hbytes
  cases hbytes
  have hlive₁ := hset.trans (hchanged.live (by simp))
  have hstaged : t (.backup staging) = some (.file (compress connection.snapshot)) := by
    rw [ht, AppFiles.set_same]
  refine .bind ensures_validateCompressedBackup ?_
    fun e t h => ⟨hlive₁.trans h.1.live, nofun⟩
  rintro _ t' ⟨hsame, -⟩
  have hlive₂ := hlive₁.trans hsame.live
  have hstaged' : t' (.backup staging) = some (.file (compress connection.snapshot)) :=
    (hsame _ (by simp)).trans hstaged
  refine .bind ensures_hardLink ?_ fun e t h => ⟨hlive₂.trans (h.1.live (by simp)), nofun⟩
  rintro u _ ⟨hlinked, hnode⟩
  obtain ⟨node, hsource, rfl⟩ := hnode u rfl
  obtain rfl := Option.some.inj (hstaged'.symm.trans hsource)
  have hlive₃ := hlive₂.trans (hlinked.live (by simp))
  have hthere : ∀ {t : AppFiles}, (t = t'.set (.backup name)
      (some (.file (compress connection.snapshot))) ∨ t = (t'.set (.backup name)
        (some (.file (compress connection.snapshot)))).set (.backup staging) none) →
          SameLive s t ∧ t (.backup name) = some (.file (compress connection.snapshot)) := by
    rintro t (rfl | rfl)
    · exact ⟨hlive₃, AppFiles.set_same ..⟩
    · refine ⟨hlive₃.trans (.set (by simp)), ?_⟩
      rw [AppFiles.set_of_ne (by simpa using hstaging.symm), AppFiles.set_same]
  refine .bind (ensures_removeFile.mono fun _ _ h => hthere h) ?_ fun e t h => ⟨h.1, nofun⟩
  rintro _ t ⟨hlive₄, hbackup⟩
  refine .bind ensures_touch ?_ (by rintro _ _ rfl; exact ⟨hlive₄, nofun⟩)
  rintro _ t rfl
  refine .bind ensures_rotateValidatedBackups ?_ fun e t h => ⟨hlive₄.trans h.1, nofun⟩
  rintro _ t' ⟨hlive₅, hnewest⟩
  refine .pure ⟨hlive₄.trans hlive₅, ?_⟩
  rintro _ ⟨⟩
  exact ⟨rfl, hname, _, hnewest.trans hbackup, hcompress _, hok⟩

/-- **A backup that is created** holds what the connection had. -/
theorem ensures_createValidatedBackup
    (hcompress : ∀ bytes, format.decompress (compress bytes) = some bytes) :
    (createValidatedBackup format compress connection).Ensures allows
      (fun r t => SameLive s t ∧
        ∀ name, r = .ok name → BackupOf format connection.snapshot t name) s := by
  refine .bind ensures_touches ?_ (by rintro _ _ rfl; exact ⟨.refl, nofun⟩)
  rintro _ s rfl
  refine .bind ensures_checkLive ?_ (by rintro _ _ rfl; exact ⟨.refl, nofun⟩)
  rintro _ s rfl
  refine .bind (P := fun _ t => t = s) (.call fun _ _ => rfl) ?_
    (by rintro _ _ rfl; exact ⟨.refl, nofun⟩)
  rintro _ s rfl
  have htoken : ∀ {site : Site} {s : AppFiles}, (uniqueToken site).Ensures allows
      (fun r t => ∃ token, r = .ok token ∧ t = s) s := .call fun _ _ => ⟨_, rfl, rfl⟩
  refine .bind_returns htoken ?_
  rintro snapshotToken s rfl
  refine .bind_returns htoken ?_
  rintro stagingToken s rfl
  refine .bind_returns htoken ?_
  rintro token s rfl
  have hname := isBackupName_backupFileName token
  have hstaging : stagingFileName stagingToken ≠ backupFileName token := by
    intro heq
    rw [← heq, isBackupName_stagingFileName] at hname
    cases hname
  have hwritten : (writeBackup format compress connection (.temporary "snapshot" snapshotToken)
      (.backup (stagingFileName stagingToken)) (backupFileName token)).Ensures allows _ s :=
    ensures_writeBackup hcompress hname hstaging
  refine .bind_returns (.attempt (hwritten.mono fun r t h => ⟨r, rfl, h⟩)) ?_
  rintro r t ⟨hlive, hbackup⟩
  refine .bind_returns (P := fun _ t' => SameApplication t t')
    (ensures_removeTemporary.mono fun r t' h => ⟨(), h.1, h.2⟩) ?_
  rintro _ t' hsame
  refine .bind_returns (P := fun _ t'' => ChangesOnly (.backup (stagingFileName stagingToken)) t' t'')
    ((ensures_ignore (ensures_removeFile.mono ?_)).mono fun r t'' h => ⟨(), h.1, h.2⟩) ?_
  · rintro _ _ (rfl | rfl)
    · exact .refl
    · exact .set
  rintro _ t'' hchanged
  refine .ofExcept ⟨(hlive.trans hsame.live).trans (hchanged.live (by simp)), fun name hr => ?_⟩
  obtain ⟨rfl, hthere⟩ := hbackup name hr
  exact hthere.of_same ((hchanged _ (by simpa using hstaging.symm)).trans (hsame _ (by simp)))

end

end SyncPlus
