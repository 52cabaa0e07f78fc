import Mathlib.Data.Bool.AllAny
import SyncPlus.Evidence
import SyncPlus.Lib.Texts
import SyncPlus.PathOrder

/-!
# The mount table

`/proc/self/mountinfo` is read twice. The mount points decide whether a path where
drives are mounted lies on a drive (`dedicatedMountCovers`), the types of the mounts
above a path decide whether names are restricted there (`restrictedFilesystem`). Each
reader cuts the lines into words and undoes the kernel's escapes in its own way.

The kernel writes blank, tab, newline and backslash as octal numbers. The first reader
undoes all of them (`unescapeMount_escaped`), the second leaves a newline as it was
written (`decodeMountinfoLetters_escaped_iff`), and both end a mount point at white space
that the kernel leaves as it is (`readPoint`).
-/

namespace SyncPlus

/-- The path of a text. -/
def letterPath (text : List Char) : PathBuf := .ofText (.ofList text)

/-- `str::split_whitespace` -/
def splitWhitespace (text : List Char) : List (List Char) := pieces isWhiteSpace text

/-- `str::lines` -/
def textLines (text : List Char) : List (List Char) := linesOf '\n' '\r' text

abbrev backslashLetter : Char := Char.ofNat 92

/-! ## Whether a drive is mounted -/

def remountPrefix (path : PathBuf) : Option PathBuf :=
  if path.startsWith (.ofText "/run/media") then some (.ofText "/run/media")
  else if path.startsWith (.ofText "/media") then some (.ofText "/media")
  else if path.startsWith (.ofText "/mnt") then some (.ofText "/mnt")
  else none

def dedicatedMountCovers (path : PathBuf) (mounts : List PathBuf) : Option Bool :=
  (remountPrefix path).map fun root =>
    match maxByKey (·.bytes.length) (mounts.filter (path.startsWith ·)) with
    | none => false
    | some mount => mount.startsWith root

/-- `u8::from_str_radix` to base 8, of decimal digits. -/
def octalByte (digits : List Char) : Option Nat :=
  let value := digits.foldl (fun n d => 8 * n + (d.toNat - 48)) 0
  if digits ≠ [] ∧ digits.all (·.toNat < 56) ∧ value < 256 then some value else none

def unescapeMount : List Char → List Char
  | [] => []
  | c :: rest =>
      if c = backslashLetter then
        let octal := (rest.take 3).takeWhile (·.isDigit)
        match octalByte octal with
        | some code => Char.ofNat code :: unescapeMount (rest.drop octal.length)
        | none => backslashLetter :: octal ++ unescapeMount (rest.drop octal.length)
      else c :: unescapeMount rest
termination_by text => text.length
decreasing_by all_goals simp only [List.length_drop, List.length_cons]; omega

def parseMountinfoPoints (body : List Char) : List PathBuf :=
  (textLines body).filterMap fun line =>
    (splitWhitespace line)[4]?.map fun mount => letterPath (unescapeMount mount)

/-! ## Whether names are restricted -/

def decodeMountinfoLetters : List Char → List Char
  | [] => []
  | c :: rest =>
      if c = backslashLetter then
        let escape := rest.take 3
        (if escape = ['0', '4', '0'] then [' ']
          else if escape = ['0', '1', '1'] then ['\t']
          else if escape = ['1', '3', '4'] then [backslashLetter]
          else backslashLetter :: escape) ++ decodeMountinfoLetters (rest.drop 3)
      else c :: decodeMountinfoLetters rest
termination_by text => text.length
decreasing_by all_goals simp only [List.length_drop, List.length_cons]; omega

def decodeMountinfoPath (value : List Char) : PathBuf := letterPath (decodeMountinfoLetters value)

/-- The types whose names are restricted. -/
def restrictedTypes : List (List Char) :=
  ["fuseblk", "vfat", "msdos", "exfat", "ntfs", "ntfs3"].map String.toList

/-- The line of a mount with restricted names, of the target or above it. -/
def restrictedLine (target : PathBuf) (line : List Char) : Bool :=
  match splitOnce [' ', '-', ' '] line with
  | none => false
  | some (mountFields, filesystemFields) =>
      match (splitWhitespace mountFields)[4]?, (splitWhitespace filesystemFields).head? with
      | some mountPoint, some filesystem =>
          decide (filesystem ∈ restrictedTypes) &&
            (target.same (decodeMountinfoPath mountPoint) ||
              target.startsWith (decodeMountinfoPath mountPoint))
      | _, _ => false

/-- What the precheck asks the system for: the number `statfs` gives for the type, whether
something is there, and the mount table. -/
structure MountProbe where
  filesystemType : PathBuf → Option Int
  pathExists : PathBuf → Bool
  mountinfo : Option (List Char)

/-- `Path::parent`: what is left of the path without its last component. -/
def PathBuf.parent (path : PathBuf) : Option PathBuf :=
  match path.components.getLast? with
  | none | some .rootDir => none
  | some _ =>
      (path.bytes.inits.map PathBuf.mk).find? (·.components = path.components.dropLast)

def probeTarget (probe : MountProbe) (path : PathBuf) : PathBuf :=
  if probe.pathExists path then path else path.parent.getD path

/-- The numbers of exFAT, NTFS and FAT. -/
def restrictedMagic : List Int := [0x2011bab0, 0x5346544e, 0x4d44]

def restrictedFilesystem (probe : MountProbe) (path : PathBuf) : Bool :=
  if (probe.filesystemType path).any (· ∈ restrictedMagic) then true
  else
    match probe.mountinfo with
    | none => false
    | some mounts => (textLines mounts).any (restrictedLine (probeTarget probe path))

/-! ## The table as it is written -/

/-- A mount point: the names below `/`. -/
structure MountPoint where
  names : List (List Char)
  valid : ∀ name ∈ names, ValidName (letterPath name).bytes

def MountPoint.text (point : MountPoint) : List Char :=
  if point.names = [] then ['/'] else point.names.flatMap ('/' :: ·)

def MountPoint.path (point : MountPoint) : PathBuf := letterPath point.text

/-- Blank, tab, newline and backslash are written as octal numbers. -/
def escapeLetter (c : Char) : List Char :=
  if c = ' ' then [backslashLetter, '0', '4', '0']
  else if c = '\t' then [backslashLetter, '0', '1', '1']
  else if c = '\n' then [backslashLetter, '0', '1', '2']
  else if c = backslashLetter then [backslashLetter, '1', '3', '4']
  else [c]

def escaped (text : List Char) : List Char := text.flatMap escapeLetter

/-- White space that is not escaped. -/
def leftWhite (c : Char) : Bool := isWhiteSpace c && c ∉ [' ', '\t', '\n']

/-- A field that a reader takes for one word. -/
def IsWord (field : List Char) : Prop := field ≠ [] ∧ ∀ c ∈ field, isWhiteSpace c = false

instance (field : List Char) : Decidable (IsWord field) :=
  decidable_of_iff (field ≠ [] ∧ field.all fun c => isWhiteSpace c = false)
    (and_congr_right' List.all_iff_forall_prop)

/-- A field between blanks that is not the dash before the type. -/
def IsField (field : List Char) : Prop := ' ' ∉ field ∧ '\n' ∉ field ∧ field ≠ ['-']

instance (field : List Char) : Decidable (IsField field) :=
  inferInstanceAs (Decidable (_ ∧ _ ∧ _))

/-- A mount, with the fields of its line that are no paths as they are written. Its root,
a path in the file system that is mounted, begins with a letter. -/
structure MountInfo where
  id : List Char
  parent : List Char
  device : List Char
  root : List Char
  point : MountPoint
  options : List Char
  optional : List (List Char)
  filesystem : List Char
  behind : List Char
  numbers : ∀ field ∈ [id, parent, device], IsWord field ∧ field ≠ ['-']
  root_begins : ∃ c rest, root = c :: rest ∧ isWhiteSpace c = false ∧ root ≠ ['-']
  fields : ∀ field ∈ options :: optional, IsField field
  type_word : IsWord filesystem
  behind_line : '\n' ∉ behind

namespace MountInfo

/-- The fields behind the first, up to the dash. -/
def mountFields (mount : MountInfo) : List (List Char) :=
  [mount.parent, mount.device, escaped mount.root, escaped mount.point.text, mount.options] ++
    mount.optional

def lineWith (mount : MountInfo) (behind : List Char) : List Char :=
  mount.id ++ (mount.mountFields.flatMap (' ' :: ·) ++
    ' ' :: '-' :: ' ' :: (mount.filesystem ++ ' ' :: behind))

def line (mount : MountInfo) : List Char := mount.lineWith mount.behind

def written (mounts : List MountInfo) : List Char := (mounts.map line).flatMap (· ++ ['\n'])

/-- The mounts of the path and above it. -/
def covering (mounts : List MountInfo) (path : PathBuf) : List MountInfo :=
  mounts.filter fun mount => path.startsWith mount.point.path

def Restricted (mount : MountInfo) : Prop := mount.filesystem ∈ restrictedTypes

instance (mount : MountInfo) : Decidable mount.Restricted :=
  inferInstanceAs (Decidable (_ ∈ _))

/-- The mount that the path lies on: its mount point has the most names, and it is the last
of those in the table. -/
def IsLongest (mounts : List MountInfo) (path : PathBuf) (mount : MountInfo) : Prop :=
  ∃ before after, covering mounts path = before ++ mount :: after ∧
    (∀ other ∈ before, other.point.names.length ≤ mount.point.names.length) ∧
    ∀ other ∈ after, other.point.names.length < mount.point.names.length

/-- Cut at the white space that is not escaped, the root and the mount point give the mount
point as the second word. -/
def ReadsPoint (mount : MountInfo) : Prop :=
  (pieces leftWhite mount.root ++ pieces leftWhite mount.point.text)[1]? =
    some mount.point.text

instance (mount : MountInfo) : Decidable mount.ReadsPoint :=
  inferInstanceAs (Decidable (_ = _))

end MountInfo

/-! ## Escapes undone -/

theorem escapeLetter_cases (c : Char) :
    (c = ' ' ∨ c = '\t' ∨ c = '\n' ∨ c = backslashLetter) ∨
      (escapeLetter c = [c] ∧ c ≠ ' ' ∧ c ≠ '\t' ∧ c ≠ '\n' ∧ c ≠ backslashLetter) := by
  unfold escapeLetter
  by_cases hblank : c = ' '
  · exact .inl (.inl hblank)
  by_cases htab : c = '\t'
  · exact .inl (.inr (.inl htab))
  by_cases hnewline : c = '\n'
  · exact .inl (.inr (.inr (.inl hnewline)))
  by_cases hbackslash : c = backslashLetter
  · exact .inl (.inr (.inr (.inr hbackslash)))
  exact .inr ⟨by simp [hblank, htab, hnewline, hbackslash], hblank, htab, hnewline, hbackslash⟩

theorem unescapeMount_escapeLetter (c : Char) (rest : List Char) :
    unescapeMount (escapeLetter c ++ rest) = c :: unescapeMount rest := by
  rcases escapeLetter_cases c with (rfl | rfl | rfl | rfl) | ⟨heq, -, -, -, hbackslash⟩
  · simp [escapeLetter, unescapeMount, octalByte]
  · simp [escapeLetter, unescapeMount, octalByte]
  · simp [escapeLetter, unescapeMount, octalByte]
  · have hescape : escapeLetter backslashLetter = [backslashLetter, '1', '3', '4'] := rfl
    simp [hescape, unescapeMount, octalByte]
  · rw [heq, List.singleton_append, unescapeMount, if_neg hbackslash]

/-- The first reader undoes the escapes. -/
theorem unescapeMount_escaped (text : List Char) : unescapeMount (escaped text) = text := by
  induction text with
  | nil => simp [escaped, unescapeMount]
  | cons c text ih =>
      rw [escaped, List.flatMap_cons, unescapeMount_escapeLetter]
      exact congrArg _ ih

/-- The second reader leaves a newline as it is written. -/
theorem decodeMountinfoLetters_escapeLetter (c : Char) (rest : List Char) :
    decodeMountinfoLetters (escapeLetter c ++ rest) =
      (if c = '\n' then [backslashLetter, '0', '1', '2'] else [c]) ++
        decodeMountinfoLetters rest := by
  rcases escapeLetter_cases c with (rfl | rfl | rfl | rfl) | ⟨heq, -, -, hnewline, hbackslash⟩
  · simp [escapeLetter, decodeMountinfoLetters]
  · simp [escapeLetter, decodeMountinfoLetters]
  · simp [escapeLetter, decodeMountinfoLetters]
  · have hescape : escapeLetter backslashLetter = [backslashLetter, '1', '3', '4'] := rfl
    have hne : backslashLetter ≠ '\n' := by decide
    simp [hescape, decodeMountinfoLetters, hne]
  · rw [heq, List.singleton_append, decodeMountinfoLetters, if_neg hbackslash, if_neg hnewline]
    rfl

theorem decodeMountinfoLetters_escaped (text : List Char) :
    decodeMountinfoLetters (escaped text) =
      text.flatMap fun c => if c = '\n' then [backslashLetter, '0', '1', '2'] else [c] := by
  induction text with
  | nil => simp [escaped, decodeMountinfoLetters]
  | cons c text ih =>
      rw [escaped, List.flatMap_cons, decodeMountinfoLetters_escapeLetter, List.flatMap_cons]
      exact congrArg _ ih

theorem decodeMountinfoLetters_escaped_iff {text : List Char} :
    decodeMountinfoLetters (escaped text) = text ↔ '\n' ∉ text := by
  rw [decodeMountinfoLetters_escaped]
  constructor
  · intro h hmem
    -- each newline is longer than it was
    have hlength : ∀ l : List Char, l.length ≤ (l.flatMap fun c =>
        if c = '\n' then [backslashLetter, '0', '1', '2'] else [c]).length := by
      intro l
      induction l with
      | nil => simp
      | cons c l ih =>
          rw [List.flatMap_cons, List.length_append, List.length_cons]
          split <;> simp only [List.length_cons, List.length_nil] <;> omega
    obtain ⟨front, back, rfl⟩ := List.append_of_mem hmem
    have hlen := congrArg List.length h
    rw [List.flatMap_append, List.flatMap_cons, if_pos rfl] at hlen
    have hfront := hlength front
    have hback := hlength back
    simp only [List.length_append, List.length_cons, List.length_nil] at hlen hfront hback
    omega
  · intro h
    have hsame : ∀ c ∈ text,
        (if c = '\n' then [backslashLetter, '0', '1', '2'] else [c]) = [c] := by
      intro c hc
      refine if_neg ?_
      rintro rfl
      exact h hc
    rw [List.flatMap_congr hsame]
    simp

/-! ## Words of a line -/

theorem splitOnP_escaped (text : List Char) :
    (escaped text).splitOnP isWhiteSpace = (text.splitOnP leftWhite).map escaped := by
  induction text with
  | nil => simp [escaped]
  | cons c text ih =>
      have hmap : ∀ parts : List (List Char),
          (parts.map escaped).modifyHead (escapeLetter c ++ ·) =
            (parts.modifyHead (c :: ·)).map escaped := by
        intro parts
        cases parts with
        | nil => rfl
        | cons part parts => rfl
      rw [List.splitOnP_cons_eq_if_modifyHead]
      by_cases hleft : leftWhite c = true
      · have hletter : escapeLetter c = [c] ∧ isWhiteSpace c = true := by
          unfold leftWhite at hleft
          rcases escapeLetter_cases c with (rfl | rfl | rfl | rfl) | ⟨heq, -⟩
          · simp at hleft
          · simp at hleft
          · simp at hleft
          · exact absurd hleft (by decide)
          · exact ⟨heq, (Bool.and_eq_true _ _ ▸ hleft).1⟩
        have hcons : escaped (c :: text) = c :: escaped text := by
          rw [escaped, List.flatMap_cons, hletter.1]
          rfl
        rw [if_pos hleft, hcons, List.splitOnP_cons_eq_if_modifyHead, if_pos hletter.2, ih]
        rfl
      · have hletter : ∀ d ∈ escapeLetter c, isWhiteSpace d = false := by
          rcases escapeLetter_cases c with
            (rfl | rfl | rfl | rfl) | ⟨heq, hblank, htab, hnewline, -⟩
          · exact List.all_iff_forall_prop.mp (by decide)
          · exact List.all_iff_forall_prop.mp (by decide)
          · exact List.all_iff_forall_prop.mp (by decide)
          · exact List.all_iff_forall_prop.mp (by decide)
          · rw [heq]
            intro d hd
            obtain rfl := List.mem_singleton.mp hd
            simpa [leftWhite, hblank, htab, hnewline] using hleft
        rw [if_neg hleft, ← hmap, ← ih]
        exact splitOnP_append_of_forall hletter

/-- Words of what is escaped are what was between the white space that is not. -/
theorem splitWhitespace_escaped (text : List Char) :
    splitWhitespace (escaped text) = (pieces leftWhite text).map escaped := by
  have hempty : ∀ piece : List Char, (escaped piece).isEmpty = piece.isEmpty := by
    intro piece
    cases piece with
    | nil => rfl
    | cons c piece =>
        rw [escaped, List.flatMap_cons]
        rcases escapeLetter_cases c with (rfl | rfl | rfl | rfl) | ⟨heq, -⟩
        · rfl
        · rfl
        · rfl
        · rfl
        · rw [heq]
          rfl
  rw [splitWhitespace, pieces, splitOnP_escaped, List.filter_map, pieces]
  congr 1
  exact List.filter_congr fun piece _ => by simp [hempty]

theorem splitWhitespace_word {field : List Char} (h : IsWord field) :
    splitWhitespace field = [field] :=
  pieces_of_forall h.1 h.2

theorem splitWhitespace_blank (front back : List Char) :
    splitWhitespace (front ++ ' ' :: back) = splitWhitespace front ++ splitWhitespace back :=
  pieces_append_cons (by decide)

namespace MountInfo

variable {mount : MountInfo} {mounts : List MountInfo} {path : PathBuf}

theorem point_text_begins (point : MountPoint) : ∃ rest, point.text = '/' :: rest := by
  unfold MountPoint.text
  split
  · exact ⟨[], rfl⟩
  · rename_i hne
    cases hnames : point.names with
    | nil => exact absurd hnames hne
    | cons name names => exact ⟨_, rfl⟩

/-- What the readers take for the mount point. -/
theorem exists_second (mount : MountInfo) : ∃ second,
    (pieces leftWhite mount.root ++ pieces leftWhite mount.point.text)[1]? = some second := by
  have hroot : pieces leftWhite mount.root ≠ [] := by
    obtain ⟨c, rest, heq, hc, -⟩ := mount.root_begins
    rw [heq]
    exact pieces_ne_nil (by simp [leftWhite, hc])
  have hpoint : pieces leftWhite mount.point.text ≠ [] := by
    obtain ⟨rest, heq⟩ := point_text_begins mount.point
    rw [heq]
    exact pieces_ne_nil (by decide)
  have hlength : 1 < (pieces leftWhite mount.root ++ pieces leftWhite mount.point.text).length := by
    have h₁ := List.length_pos_iff.mpr hroot
    have h₂ := List.length_pos_iff.mpr hpoint
    rw [List.length_append]
    omega
  exact ⟨_, List.getElem?_eq_getElem hlength⟩

/-- The fifth word of a line that begins with the first five fields. -/
theorem fifth_word {second rest : List Char}
    (hsecond : (pieces leftWhite mount.root ++ pieces leftWhite mount.point.text)[1]? =
      some second) :
    (splitWhitespace (mount.id ++ ' ' :: (mount.parent ++ ' ' :: (mount.device ++
      ' ' :: (escaped mount.root ++ ' ' :: (escaped mount.point.text ++ ' ' :: rest))))))[4]? =
        some (escaped second) := by
  have hword : ∀ field ∈ [mount.id, mount.parent, mount.device],
      splitWhitespace field = [field] :=
    fun field hmem => splitWhitespace_word (mount.numbers field hmem).1
  simp only [splitWhitespace_blank]
  rw [hword mount.id (by simp), hword mount.parent (by simp), hword mount.device (by simp),
    splitWhitespace_escaped, splitWhitespace_escaped]
  simp only [List.cons_append, List.nil_append, List.getElem?_cons_succ]
  rw [← List.append_assoc, ← List.map_append]
  obtain ⟨hlt, heq⟩ := List.getElem?_eq_some_iff.mp hsecond
  rw [List.getElem?_append_left (by simpa using hlt), List.getElem?_map, hsecond]
  rfl

/-- What both readers take for the mount point. -/
def readPoint (mount : MountInfo) : List Char :=
  ((pieces leftWhite mount.root ++ pieces leftWhite mount.point.text)[1]?).getD []

theorem readsPoint_iff : mount.ReadsPoint ↔ mount.readPoint = mount.point.text := by
  obtain ⟨second, hsecond⟩ := exists_second mount
  rw [ReadsPoint, readPoint, hsecond]
  simp

theorem fifth_word_readPoint (mount : MountInfo) (rest : List Char) :
    (splitWhitespace (mount.id ++ ' ' :: (mount.parent ++ ' ' :: (mount.device ++
      ' ' :: (escaped mount.root ++ ' ' :: (escaped mount.point.text ++ ' ' :: rest))))))[4]? =
        some (escaped mount.readPoint) := by
  obtain ⟨second, hsecond⟩ := exists_second mount
  rw [fifth_word hsecond, readPoint, hsecond]
  rfl

/-- A return at the end belongs to what no reader looks at. -/
theorem stripEnd_line (mount : MountInfo) :
    ∃ behind, stripEnd '\r' mount.line = mount.lineWith behind := by
  have hline : ∀ behind, mount.lineWith behind =
      (mount.id ++ (mount.mountFields.flatMap (' ' :: ·) ++
        ' ' :: '-' :: ' ' :: mount.filesystem)) ++ ' ' :: behind := by
    intro behind
    simp [lineWith]
  obtain ⟨behind, hbehind⟩ := stripEnd_append_cons (mount.id ++
    (mount.mountFields.flatMap (' ' :: ·) ++ ' ' :: '-' :: ' ' :: mount.filesystem))
    mount.behind (show ' ' ≠ '\r' by decide)
  exact ⟨behind, by rw [line, hline, hbehind, hline]⟩

theorem separators_notMem_escapeLetter (c : Char) :
    ' ' ∉ escapeLetter c ∧ '\n' ∉ escapeLetter c := by
  rcases escapeLetter_cases c with (rfl | rfl | rfl | rfl) | ⟨heq, hblank, -, hnewline, -⟩
  · decide
  · decide
  · decide
  · decide
  · rw [heq, List.mem_singleton, List.mem_singleton]
    exact ⟨hblank.symm, hnewline.symm⟩

theorem newline_notMem_escaped (text : List Char) : '\n' ∉ escaped text := by
  intro h
  obtain ⟨c, -, hc⟩ := List.mem_flatMap.mp h
  exact (separators_notMem_escapeLetter c).2 hc

theorem blank_notMem_escaped (text : List Char) : ' ' ∉ escaped text := by
  intro h
  obtain ⟨c, -, hc⟩ := List.mem_flatMap.mp h
  exact (separators_notMem_escapeLetter c).1 hc

theorem escaped_ne_dash {text : List Char} (h : text ≠ ['-']) : escaped text ≠ ['-'] := by
  intro heq
  have hdash : escaped ['-'] = ['-'] := rfl
  rw [← hdash] at heq
  have hsame := congrArg unescapeMount heq
  rw [unescapeMount_escaped, unescapeMount_escaped] at hsame
  exact h hsame

/-- Each field before the dash is a field. -/
theorem isField_of_mem (mount : MountInfo) {field : List Char}
    (hfield : field = mount.id ∨ field ∈ mount.mountFields) : IsField field := by
  have hword : ∀ field ∈ [mount.id, mount.parent, mount.device], IsField field := by
    intro field hmem
    obtain ⟨⟨-, hwhite⟩, hdash⟩ := mount.numbers field hmem
    refine ⟨fun h => ?_, fun h => ?_, hdash⟩
    · exact absurd (hwhite _ h) (by decide)
    · exact absurd (hwhite _ h) (by decide)
  rcases hfield with rfl | hmem
  · exact hword _ (by simp)
  · simp only [mountFields, List.cons_append, List.nil_append, List.mem_cons] at hmem
    rcases hmem with rfl | rfl | rfl | rfl | hrest
    · exact hword _ (by simp)
    · exact hword _ (by simp)
    · obtain ⟨-, -, -, -, hroot⟩ := mount.root_begins
      exact ⟨blank_notMem_escaped _, newline_notMem_escaped _, escaped_ne_dash hroot⟩
    · obtain ⟨rest, hpoint⟩ := point_text_begins mount.point
      refine ⟨blank_notMem_escaped _, newline_notMem_escaped _, escaped_ne_dash ?_⟩
      rw [hpoint]
      simp
    · exact mount.fields field (by simpa using hrest)

theorem newline_notMem_line (mount : MountInfo) : '\n' ∉ mount.line := by
  have hfields : '\n' ∉ mount.mountFields.flatMap (' ' :: ·) := by
    intro h
    obtain ⟨field, hfield, hmem⟩ := List.mem_flatMap.mp h
    rcases List.mem_cons.mp hmem with heq | hmem
    · exact absurd heq (by decide)
    · exact (mount.isField_of_mem (.inr hfield)).2.1 hmem
  have htype : '\n' ∉ mount.filesystem := by
    intro h
    exact absurd (mount.type_word.2 _ h) (by decide)
  have hid := (mount.isField_of_mem (.inl rfl)).2.1
  have hbehind := mount.behind_line
  simp [line, lineWith, hfields, htype, hid, hbehind]

theorem textLines_written (mounts : List MountInfo) : ∃ behind : MountInfo → List Char,
    textLines (written mounts) = mounts.map fun mount => mount.lineWith (behind mount) := by
  choose behind hbehind using stripEnd_line
  refine ⟨behind, ?_⟩
  rw [textLines, written, linesOf_flatMap]
  · rw [List.map_map]
    exact List.map_congr_left fun mount _ => hbehind mount
  · intro line hline
    obtain ⟨mount, -, rfl⟩ := List.mem_map.mp hline
    exact mount.newline_notMem_line

theorem fields_eq (mount : MountInfo) (rest : List Char) :
    mount.id ++ (mount.mountFields.flatMap (' ' :: ·) ++ rest) = mount.id ++ ' ' ::
      (mount.parent ++ ' ' :: (mount.device ++ ' ' :: (escaped mount.root ++ ' ' ::
        (escaped mount.point.text ++ ' ' :: (mount.options ++
          (mount.optional.flatMap (' ' :: ·) ++ rest)))))) := by
  simp only [mountFields, List.cons_append, List.nil_append, List.flatMap_cons,
    List.append_assoc]

/-- **What the first reader gets of the table.** -/
theorem parseMountinfoPoints_written :
    parseMountinfoPoints (written mounts) = mounts.map fun mount => letterPath mount.readPoint := by
  obtain ⟨behind, hlines⟩ := textLines_written mounts
  rw [parseMountinfoPoints, hlines, List.filterMap_map, ← List.filterMap_eq_map]
  refine List.filterMap_congr fun mount _ => ?_
  simp only [Function.comp_apply, lineWith, fields_eq, fifth_word_readPoint, Option.map_some,
    unescapeMount_escaped]

/-- **What the second reader finds out about a mount.** -/
theorem restrictedLine_lineWith (mount : MountInfo) (target : PathBuf) (behind : List Char) :
    restrictedLine target (mount.lineWith behind) =
      (decide (mount.filesystem ∈ restrictedTypes) &&
        (target.same (decodeMountinfoPath (escaped mount.readPoint)) ||
          target.startsWith (decodeMountinfoPath (escaped mount.readPoint)))) := by
  have hcut : splitOnce [' ', '-', ' '] (mount.lineWith behind) =
      some (mount.id ++ mount.mountFields.flatMap (' ' :: ·),
        mount.filesystem ++ ' ' :: behind) := by
    refine splitOnce_fields (by decide) (mount.isField_of_mem (.inl rfl)).1 fun field hfield => ?_
    have h := mount.isField_of_mem (.inr hfield)
    exact ⟨h.1, h.2.2⟩
  have htype : (splitWhitespace (mount.filesystem ++ ' ' :: behind)).head? =
      some mount.filesystem := by
    rw [splitWhitespace_blank, splitWhitespace_word mount.type_word]
    rfl
  rw [restrictedLine, hcut]
  have hfields := mount.fields_eq []
  rw [List.append_nil] at hfields
  dsimp only
  rw [hfields, fifth_word_readPoint, htype]

end MountInfo

end SyncPlus
