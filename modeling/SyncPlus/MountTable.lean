import SyncPlus.LocalMount

/-!
# What the mount table is asked for

The mount that a path lies on is the longest one: mount points above one path are
ordered in the same way by their letters and by their names (`length_lt_iff`). It decides
whether a drive is mounted (`dedicatedMountCovers_points`). For restricted names any
mount above the path decides (`restrictedFilesystem_iff`), so a drive with an
unrestricted file system that is mounted in a folder of a restricted one is taken for the
latter.
-/

namespace SyncPlus

/-! ## The longest mount point -/

theorem letterPath_bytes (text : List Char) :
    (letterPath text).bytes = text.flatMap String.utf8EncodeChar := by
  rw [letterPath, PathBuf.bytes_ofText, String.toList_ofList]

theorem letterPath_inj {text text' : List Char} :
    letterPath text = letterPath text' ↔ text = text' := by
  constructor
  · intro h
    have hread := congrArg PathBuf.toText h
    rw [letterPath, letterPath, PathBuf.toText_ofText, PathBuf.toText_ofText,
      Option.some.injEq] at hread
    simpa using congrArg String.toList hread
  · rintro rfl
    rfl

namespace MountPoint

variable {point : MountPoint} {path : PathBuf}

/-- The names as the system has them. -/
def byteNames (point : MountPoint) : List Name :=
  point.names.map fun name => (letterPath name).bytes

theorem validName_of_mem {name : Name} (h : name ∈ point.byteNames) : ValidName name := by
  obtain ⟨letters, hmem, rfl⟩ := List.mem_map.mp h
  exact point.valid letters hmem

theorem path_bytes (point : MountPoint) : point.path.bytes =
    if point.byteNames = [] then [slash] else point.byteNames.flatMap (slash :: ·) := by
  have hslash : String.utf8EncodeChar '/' = [slash] := rfl
  rw [path, letterPath_bytes, text]
  by_cases hnames : point.names = []
  · simp [hnames, byteNames, hslash]
  · rw [if_neg hnames, if_neg (by simpa [byteNames] using hnames), byteNames, List.flatMap_map,
      List.flatMap_assoc]
    refine List.flatMap_congr fun name _ => ?_
    rw [List.flatMap_cons, hslash, letterPath_bytes]
    rfl

theorem segments_names {first : Name} {names : List Name} (hfirst : ValidName first)
    (hnames : ∀ name ∈ names, ValidName name) :
    (⟨first ++ names.flatMap (slash :: ·)⟩ : PathBuf).segments = first :: names := by
  induction names generalizing first with
  | nil =>
      rw [List.flatMap_nil, List.append_nil]
      exact segments_name hfirst
  | cons name names ih =>
      obtain ⟨hname, hnames⟩ := List.forall_mem_cons.mp hnames
      rw [List.flatMap_cons, List.cons_append, PathBuf.segments_append_slash, segments_name hfirst,
        ih hname hnames]
      rfl

theorem path_components (point : MountPoint) :
    point.path.components = .rootDir :: point.byteNames.map .normal := by
  have hbytes := point.path_bytes
  have hvalid : ∀ name ∈ point.byteNames, ValidName name := fun name => validName_of_mem
  have hpath : point.path = ⟨point.path.bytes⟩ := rfl
  rw [hpath, hbytes]
  cases hnames : point.byteNames with
  | nil => rfl
  | cons first names =>
      rw [hnames] at hvalid
      have hroot : (⟨[] ++ [slash]⟩ : PathBuf).components = [.rootDir] := rfl
      have hparts : ∀ names : List Name, (∀ name ∈ names, ValidName name) →
          names.filterMap segmentComponent? = names.map .normal := by
        intro names hvalid
        rw [← List.filterMap_eq_map]
        refine List.filterMap_congr fun name hmem => ?_
        obtain ⟨hne, hdot, hdots, -, -⟩ := hvalid name hmem
        simp [segmentComponent?, hne, hdot, hdots]
      obtain ⟨hfirst, hrest⟩ := List.forall_mem_cons.mp hvalid
      rw [if_neg (by simp), List.flatMap_cons, List.cons_append, ← List.nil_append (slash :: _),
        PathBuf.components_append_slash, hroot, segments_names hfirst hrest,
        hparts (first :: names) hvalid]
      rfl

theorem startsWith_iff : path.startsWith point.path = true ↔
    .rootDir :: point.byteNames.map .normal <+: path.components := by
  rw [PathBuf.startsWith, path_components, List.isPrefixOf_iff_prefix]

theorem bytes_lt {names names' : List Name} (hvalid : ∀ name ∈ names', ValidName name)
    (h : names <+: names') (hlt : names.length < names'.length) :
    (if names = [] then [slash] else names.flatMap (slash :: ·)).length <
      (if names' = [] then [slash] else names'.flatMap (slash :: ·)).length := by
  obtain ⟨rest, rfl⟩ := h
  cases rest with
  | nil => simp at hlt
  | cons name rest =>
      have hname : 0 < name.length := List.length_pos_iff.mpr (hvalid name (by simp)).1
      have hne : names ++ name :: rest ≠ [] := by simp
      rw [if_neg hne, List.flatMap_append, List.flatMap_cons, List.length_append,
        List.length_append, List.length_cons]
      split
      · simp only [List.length_singleton]
        omega
      · omega

/-- Of mount points above one path the one with more letters has more names. -/
theorem length_lt_iff {point' : MountPoint} (h : path.startsWith point.path = true)
    (h' : path.startsWith point'.path = true) :
    point.path.bytes.length < point'.path.bytes.length ↔
      point.names.length < point'.names.length := by
  have hnormal : Function.Injective Component.normal := fun _ _ heq => Component.normal.inj heq
  have hboth : point.byteNames <+: point'.byteNames ∨ point'.byteNames <+: point.byteNames := by
    rw [startsWith_iff] at h h'
    refine (List.prefix_or_prefix_of_prefix h h').imp ?_ ?_
    · intro hway
      exact (List.prefix_map_iff_of_injective hnormal).mp (List.cons_prefix_cons.mp hway).2
    · intro hway
      exact (List.prefix_map_iff_of_injective hnormal).mp (List.cons_prefix_cons.mp hway).2
  have hlength : ∀ point : MountPoint, point.names.length = point.byteNames.length := by
    intro point
    simp [byteNames]
  rw [path_bytes, path_bytes, hlength, hlength]
  constructor
  · intro hlt
    by_contra hle
    have hge : point'.byteNames.length ≤ point.byteNames.length := Nat.le_of_not_lt hle
    rcases hboth with hway | hway
    · have heq := hway.eq_of_length_le hge
      rw [heq] at hlt
      exact Nat.lt_irrefl _ hlt
    · rcases Nat.lt_or_eq_of_le hge with hless | heq
      · exact Nat.lt_asymm hlt (bytes_lt (fun name => validName_of_mem) hway hless)
      · rw [hway.eq_of_length heq] at hlt
        exact Nat.lt_irrefl _ hlt
  · intro hlt
    refine bytes_lt (fun name => validName_of_mem) ?_ hlt
    rcases hboth with hway | hway
    · exact hway
    · exact absurd hway.length_le (Nat.not_le_of_lt hlt)

end MountPoint

namespace MountInfo

variable {mount : MountInfo} {mounts : List MountInfo} {path : PathBuf}

theorem mem_covering : mount ∈ covering mounts path ↔
    mount ∈ mounts ∧ path.startsWith mount.point.path = true := by
  simp [covering]

theorem isLongest_iff : IsLongest mounts path mount ↔
    maxByKey (·.point.names.length) (covering mounts path) = some mount :=
  maxByKey_eq_some_iff.symm

/-- **What the longest mount point is asked for.** -/
theorem dedicatedMountCovers_points {root : PathBuf} (hroot : remountPrefix path = some root) :
    dedicatedMountCovers path (mounts.map (·.point.path)) = some true ↔
      ∃ mount, IsLongest mounts path mount ∧ mount.point.path.startsWith root = true := by
  have hmax : maxByKey (·.bytes.length) ((mounts.map (·.point.path)).filter (path.startsWith ·)) =
      (maxByKey (·.point.names.length) (covering mounts path)).map (·.point.path) := by
    rw [List.filter_map, maxByKey_map]
    refine congrArg _ (maxByKey_congr fun first hfirst second hsecond => ?_)
    exact MountPoint.length_lt_iff (mem_covering.mp hfirst).2 (mem_covering.mp hsecond).2
  rw [dedicatedMountCovers, hroot, hmax]
  simp only [isLongest_iff]
  cases maxByKey (fun mount => mount.point.names.length) (covering mounts path) with
  | none => simp
  | some mount => simp

end MountInfo

/-! ## Restricted names -/

theorem PathBuf.parent_components {path above : PathBuf} (h : path.parent = some above) :
    above.components = path.components.dropLast := by
  unfold PathBuf.parent at h
  split at h
  · cases h
  · cases h
  · simpa using List.find?_some h

/-- The probe looks at a place that the same mounts are above. -/
theorem probeTarget_startsWith {probe : MountProbe} {path base : PathBuf}
    (hexists : base.same path = true → probe.pathExists path = true) :
    (probeTarget probe path).startsWith base = true ↔ path.startsWith base = true := by
  unfold probeTarget
  split
  · rfl
  · rename_i hmissing
    cases hparent : path.parent with
    | none => rfl
    | some above =>
        rw [Option.getD_some, PathBuf.startsWith, PathBuf.startsWith,
          List.isPrefixOf_iff_prefix, List.isPrefixOf_iff_prefix,
          PathBuf.parent_components hparent]
        constructor
        · intro h
          exact h.trans (List.dropLast_prefix _)
        · rintro ⟨rest, heq⟩
          rcases List.eq_nil_or_concat rest with rfl | ⟨rest, last, rfl⟩
          · rw [List.append_nil] at heq
            exact absurd (hexists (PathBuf.same_iff.mpr heq)) hmissing
          · rw [← heq, List.concat_eq_append, ← List.append_assoc, List.dropLast_concat]
            exact List.prefix_append _ _

theorem startsWith_of_same {path base : PathBuf} (h : path.same base = true) :
    path.startsWith base = true := by
  rw [PathBuf.startsWith, PathBuf.same_iff.mp h]
  simp

namespace MountInfo

variable {mount : MountInfo} {mounts : List MountInfo} {path : PathBuf} {probe : MountProbe}

/-- The second reader reads the mount point too. -/
theorem decodeMountinfoPath_iff :
    decodeMountinfoPath (escaped mount.point.text) = mount.point.path ↔
      '\n' ∉ mount.point.text := by
  rw [decodeMountinfoPath, MountPoint.path, letterPath_inj, decodeMountinfoLetters_escaped_iff]

/-- **What the types are asked for**, where the table is read right: any mount above the
path. -/
theorem restrictedFilesystem_iff (htable : probe.mountinfo = some (written mounts))
    (hmagic : (probe.filesystemType path).any (· ∈ restrictedMagic) = false)
    (hexists : ∀ mount ∈ mounts, mount.point.path.same path = true →
      probe.pathExists path = true)
    (hreads : ∀ mount ∈ mounts, mount.ReadsPoint ∧ '\n' ∉ mount.point.text) :
    restrictedFilesystem probe path = true ↔
      ∃ mount ∈ covering mounts path, mount.Restricted := by
  obtain ⟨behind, hlines⟩ := textLines_written mounts
  rw [restrictedFilesystem, hmagic, htable, if_neg (by simp)]
  dsimp only
  rw [hlines, List.any_map, List.any_eq_true]
  have hmount : ∀ mount ∈ mounts,
      restrictedLine (probeTarget probe path) (mount.lineWith (behind mount)) = true ↔
        mount.Restricted ∧ path.startsWith mount.point.path = true := by
    intro mount hmem
    obtain ⟨hpoint, hnewline⟩ := hreads mount hmem
    rw [restrictedLine_lineWith, readsPoint_iff.mp hpoint, decodeMountinfoPath_iff.mpr hnewline,
      Bool.and_eq_true, decide_eq_true_iff, Bool.or_eq_true]
    rw [or_iff_right_of_imp startsWith_of_same, probeTarget_startsWith (hexists mount hmem)]
    rfl
  constructor
  · rintro ⟨mount, hmem, hline⟩
    obtain ⟨hrestricted, hcovers⟩ := (hmount mount hmem).mp hline
    exact ⟨mount, mem_covering.mpr ⟨hmem, hcovers⟩, hrestricted⟩
  · rintro ⟨mount, hmem, hrestricted⟩
    obtain ⟨hmem, hcovers⟩ := mem_covering.mp hmem
    exact ⟨mount, hmem, (hmount mount hmem).mpr ⟨hrestricted, hcovers⟩⟩

theorem parseMountinfoPoints_iff :
    parseMountinfoPoints (written mounts) = mounts.map (·.point.path) ↔
      ∀ mount ∈ mounts, mount.ReadsPoint := by
  rw [parseMountinfoPoints_written, List.map_inj_left]
  refine forall₂_congr fun mount _ => ?_
  rw [MountPoint.path, letterPath_inj, readsPoint_iff]

/-- A path below a mount has a longest one. -/
theorem exists_isLongest (h : mount ∈ covering mounts path) :
    ∃ longest, IsLongest mounts path longest := by
  cases hmax : maxByKey (·.point.names.length) (covering mounts path) with
  | none => simp [maxByKey_eq_none.mp hmax] at h
  | some longest => exact ⟨longest, isLongest_iff.mpr hmax⟩

theorem IsLongest.mem_covering (h : IsLongest mounts path mount) : mount ∈ covering mounts path :=
  maxByKey_mem (isLongest_iff.mp h)

theorem IsLongest.eq {other : MountInfo} (h : IsLongest mounts path mount)
    (h' : IsLongest mounts path other) : mount = other :=
  Option.some.inj ((isLongest_iff.mp h).symm.trans (isLongest_iff.mp h'))

/-- **The mount table is read exactly** where no mount point has a newline or white space
that is not escaped, and no mount with restricted names is above the longest one without. -/
theorem mount_table_exact_iff {root : PathBuf} (hroot : remountPrefix path = some root)
    (htable : probe.mountinfo = some (written mounts))
    (hmagic : (probe.filesystemType path).any (· ∈ restrictedMagic) = false)
    (hexists : ∀ mount ∈ mounts, mount.point.path.same path = true →
      probe.pathExists path = true) :
    (parseMountinfoPoints (written mounts) = mounts.map (·.point.path) ∧
      (∀ mount ∈ mounts,
        decodeMountinfoPath (escaped mount.point.text) = mount.point.path) ∧
      (dedicatedMountCovers path (parseMountinfoPoints (written mounts)) = some true ↔
        ∃ mount, IsLongest mounts path mount ∧ mount.point.path.startsWith root = true) ∧
      (restrictedFilesystem probe path = true ↔
        ∃ mount, IsLongest mounts path mount ∧ mount.Restricted)) ↔
    (∀ mount ∈ mounts, mount.ReadsPoint ∧ '\n' ∉ mount.point.text) ∧
      ∀ mount ∈ covering mounts path, mount.Restricted →
        ∀ longest, IsLongest mounts path longest → longest.Restricted := by
  constructor
  · rintro ⟨hparse, hdecode, -, htypes⟩
    have hreads : ∀ mount ∈ mounts, mount.ReadsPoint ∧ '\n' ∉ mount.point.text :=
      fun mount hmem => ⟨parseMountinfoPoints_iff.mp hparse mount hmem,
        decodeMountinfoPath_iff.mp (hdecode mount hmem)⟩
    refine ⟨hreads, fun mount hcovers hrestricted longest hlongest => ?_⟩
    rw [restrictedFilesystem_iff htable hmagic hexists hreads] at htypes
    obtain ⟨other, hother, hrestricted⟩ := htypes.mp ⟨mount, hcovers, hrestricted⟩
    rwa [hlongest.eq hother]
  · rintro ⟨hreads, hlongest⟩
    have hparse := parseMountinfoPoints_iff.mpr fun mount hmem => (hreads mount hmem).1
    refine ⟨hparse, fun mount hmem => decodeMountinfoPath_iff.mpr (hreads mount hmem).2, ?_, ?_⟩
    · rw [hparse]
      exact dedicatedMountCovers_points hroot
    · rw [restrictedFilesystem_iff htable hmagic hexists hreads]
      constructor
      · rintro ⟨mount, hcovers, hrestricted⟩
        obtain ⟨longest, hmax⟩ := exists_isLongest hcovers
        exact ⟨longest, hmax, hlongest mount hcovers hrestricted longest hmax⟩
      · rintro ⟨mount, hmax, hrestricted⟩
        exact ⟨mount, hmax.mem_covering, hrestricted⟩

/-! ### A drive, a drive on a drive, and names that are read otherwise -/

/-- A mount of a whole file system below `/mnt`, at these names. -/
def mountAt (names : List (List Char)) (filesystem : List Char)
    (valid : ∀ name ∈ ['m', 'n', 't'] :: names, ValidName (letterPath name).bytes)
    (word : IsWord filesystem) : MountInfo where
  id := ['3', '6']
  parent := ['1']
  device := ['8', ':', '1', '7']
  root := ['/']
  point := ⟨['m', 'n', 't'] :: names, valid⟩
  options := ['r', 'w']
  optional := []
  filesystem
  behind := ['/', 'd', 'e', 'v', ' ', 'r', 'w']
  numbers := by decide
  root_begins := ⟨'/', [], by decide⟩
  fields := by
    simp only [List.forall_mem_cons, IsField]
    decide
  type_word := word
  behind_line := by decide

/-- The drive `/mnt/d` with a FAT file system. -/
def fatDrive : MountInfo := mountAt [['d']] ['v', 'f', 'a', 't'] (by decide) (by decide)

/-- The folder `/mnt/d/e` of this drive, where another drive is mounted. -/
def driveOnDrive : MountInfo :=
  mountAt [['d'], ['e']] ['e', 'x', 't', '4'] (by decide) (by decide)

/-- A no-break space, which the kernel writes as it is. -/
abbrev noBreakSpace : Char := Char.ofNat 160

def spacedDrive : MountInfo :=
  mountAt [['d', noBreakSpace]] ['e', 'x', 't', '4'] (by decide) (by decide)

def brokenDrive : MountInfo := mountAt [['d', '\n']] ['e', 'x', 't', '4'] (by decide) (by decide)

/-- A system with these mounts, where every path is there. -/
def mountedProbe (mounts : List MountInfo) : MountProbe where
  filesystemType _ := some 0xef53
  pathExists _ := true
  mountinfo := some (written mounts)

/-- The drive `/mnt/d` with room for folders where others are mounted. -/
def dataDrive : MountInfo := mountAt [['d']] ['e', 'x', 't', '4'] (by decide) (by decide)

/-- A FAT stick on this drive, whose blank the kernel escapes. -/
def stickOnDrive : MountInfo :=
  mountAt [['d'], ['m', 'y', ' ', 's', 't', 'i', 'c', 'k']] ['v', 'f', 'a', 't'] (by decide)
    (by decide)

/-- A file on the stick. -/
def stickFile : PathBuf := .ofText "/mnt/d/my stick/f"

theorem mount_table_exact_drive :
    parseMountinfoPoints (written [dataDrive, stickOnDrive]) =
      [dataDrive, stickOnDrive].map (·.point.path) ∧
    (∀ mount ∈ [dataDrive, stickOnDrive],
      decodeMountinfoPath (escaped mount.point.text) = mount.point.path) ∧
    (dedicatedMountCovers stickFile (parseMountinfoPoints (written [dataDrive, stickOnDrive])) =
        some true ↔
      ∃ mount, IsLongest [dataDrive, stickOnDrive] stickFile mount ∧
        mount.point.path.startsWith (.ofText "/mnt") = true) ∧
    (restrictedFilesystem (mountedProbe [dataDrive, stickOnDrive]) stickFile = true ↔
      ∃ mount, IsLongest [dataDrive, stickOnDrive] stickFile mount ∧ mount.Restricted) := by
  refine (mount_table_exact_iff (by decide)
    (show (mountedProbe [dataDrive, stickOnDrive]).mountinfo = _ from rfl) (by decide)
    fun _ _ _ => rfl).mpr ⟨?_, ?_⟩
  · simp only [List.forall_mem_cons]
    decide
  · intro _ _ _ longest hlongest
    have hmax : IsLongest [dataDrive, stickOnDrive] stickFile stickOnDrive :=
      ⟨[dataDrive], [], rfl, by decide, by simp⟩
    rw [hlongest.eq hmax]
    decide

/-- A no-break space ends the mount point for the first reader, a newline is left as it was
written by the second, and the drive below decides for the drive on it. -/
theorem mount_table_misread :
    parseMountinfoPoints (written [spacedDrive]) ≠ [spacedDrive.point.path] ∧
    decodeMountinfoPath (escaped brokenDrive.point.text) ≠ brokenDrive.point.path ∧
    ¬ (restrictedFilesystem (mountedProbe [fatDrive, driveOnDrive]) driveOnDrive.point.path =
        true ↔
      ∃ mount, IsLongest [fatDrive, driveOnDrive] driveOnDrive.point.path mount ∧
        mount.Restricted) := by
  refine ⟨?_, ?_, ?_⟩
  · intro h
    have hreads := parseMountinfoPoints_iff.mp h spacedDrive (.head _)
    exact absurd hreads (by decide)
  · intro h
    exact decodeMountinfoPath_iff.mp h (by decide)
  · have hreads : ∀ mount ∈ [fatDrive, driveOnDrive],
        mount.ReadsPoint ∧ '\n' ∉ mount.point.text := by
      simp only [List.forall_mem_cons]
      decide
    rw [restrictedFilesystem_iff (show _ = some (written [fatDrive, driveOnDrive]) from rfl)
      (by decide) (fun _ _ _ => rfl) hreads]
    intro h
    have hfat : fatDrive ∈ covering [fatDrive, driveOnDrive] driveOnDrive.point.path :=
      mem_covering.mpr ⟨by simp, by decide⟩
    obtain ⟨mount, hlongest, hrestricted⟩ := h.mp ⟨fatDrive, hfat, by decide⟩
    have hmax : IsLongest [fatDrive, driveOnDrive] driveOnDrive.point.path driveOnDrive :=
      ⟨[fatDrive], [], rfl, by decide, by simp⟩
    rw [hlongest.eq hmax] at hrestricted
    exact absurd hrestricted (by decide)

end MountInfo

end SyncPlus
