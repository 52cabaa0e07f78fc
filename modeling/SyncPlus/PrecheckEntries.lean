import SyncPlus.WalkedInventory

/-!
# The entries of a precheck

How the precheck lists a peer. It reads the exclusion patterns in its own
way: a leading `./` is dropped, and a pattern is matched against the whole path
and against every name on it, by a table with a row for each letter of the
pattern (`wildcardMatches`). What is excluded is left out with everything below
it, so the walk returns the paths that no pattern matches at any level
(`mem_collectEntries`).
-/

namespace SyncPlus

structure PrecheckError where
  path : PathBuf
  operation : String
  detail : String
  deriving Repr, DecidableEq

/-! ## Patterns -/

/-- `trim_start_matches("./")`. -/
def trimStartDotSlash : List Char → List Char
  | '.' :: '/' :: pattern => trimStartDotSlash pattern
  | pattern => pattern

/-- The entries of a row of the table after its first, from the row above. -/
def nextEntries (character : Char) (left : Bool) : List Char → List Bool → List Bool
  | v :: value, diagonal :: above :: row =>
      let entry := if character = '*' then above || left else diagonal && character = v
      entry :: nextEntries character entry value (above :: row)
  | _, _ => []

def nextRow (value : List Char) (row : List Bool) (character : Char) : List Bool :=
  let first := character = '*' && row.headD false
  first :: nextEntries character first value row

/-- `wildcard_matches`: the last entry of the last row. -/
def wildcardMatches (pattern value : List Char) : Bool :=
  (pattern.foldl (nextRow value) (true :: value.map fun _ => false)).getLastD false

/-- What `is_excluded` asks of one pattern. -/
def patternExcludes (lossy : LossyNames) (path : PathBuf) (isDirectory : Bool)
    (pattern : String) : Bool :=
  let text := pathForMatching lossy path
  let trimmed := trimEndSlashes (trimStartDotSlash pattern.toList)
  if isDirectoryPattern pattern = true ∧ isDirectory = false then false
  else wildcardMatches trimmed text ||
    (text.splitOn '/').any fun component => wildcardMatches trimmed component

def isExcluded (lossy : LossyNames) (path : PathBuf) (isDirectory : Bool)
    (exclusions : List String) : Bool :=
  exclusions.any (patternExcludes lossy path isDirectory)

/-! ## The walk -/

/-- `read_dir`, for a directory whose entries give this. -/
def readEntries (directory : PathBuf) (listError : Option String)
    (entries : Except PrecheckError (List PathBuf)) : Except PrecheckError (List PathBuf) :=
  match listError with
  | some detail => .error ⟨directory, "read directory", detail⟩
  | none => entries

/-- `file_type`, of an entry. -/
def entryType (child : PathBuf) (found : Found) : Except PrecheckError ItemType :=
  match found.inspectError with
  | some detail => .error ⟨child, "inspect directory entry", detail⟩
  | none => .ok found.itemType

namespace WalkScope

variable (w : WalkScope)

/-- `collect_entries_recursive`, for the entries of one directory. -/
def collectEntriesBelow (root relative : PathBuf) : Entries → Except PrecheckError (List PathBuf)
  | .nil => .ok []
  | .cons name found below rest => do
      let child := if relative.isEmpty then ⟨name⟩ else relative.join ⟨name⟩
      let itemType ← entryType child found
      let isDirectory := decide (itemType = .directory)
      let inner : Except PrecheckError (List PathBuf) :=
        if isDirectory then
          readEntries (root.join child) found.listError (collectEntriesBelow root child below)
        else .ok []
      if isExcluded w.lossy child isDirectory w.exclusions then
        collectEntriesBelow root relative rest
      else do
        let inner ← inner
        let others ← collectEntriesBelow root relative rest
        return child :: (inner ++ others)

/-- `collect_entries`. A root that is no directory cannot be read, with the
text the system has for it. -/
def collectEntries (root : PathBuf) (tree : FileTree) : Except PrecheckError (List PathBuf) :=
  match tree.root with
  | none => .error ⟨root, "read directory", "No such file or directory (os error 2)"⟩
  | some found =>
      if found.itemType = .directory then
        readEntries root found.listError (w.collectEntriesBelow root ⟨[]⟩ tree.entries)
      else .error ⟨root, "read directory", "Not a directory (os error 20)"⟩

/-- Whether the place at these names is left out: its path is excluded, or that
of a directory above it. -/
def skippedAt (relative : PathBuf) : List Name → ItemType → Bool
  | [], _ => false
  | [name], itemType =>
      isExcluded w.lossy (relative.join ⟨name⟩) (itemType = .directory) w.exclusions
  | name :: names, itemType =>
      isExcluded w.lossy (relative.join ⟨name⟩) true w.exclusions ||
        skippedAt (relative.join ⟨name⟩) names itemType

end WalkScope

/-! ## What the walk returns -/

theorem PathBuf.join_of_isEmpty {p : PathBuf} (h : p.isEmpty = true) (q : PathBuf) :
    p.join q = q := by
  obtain ⟨bytes⟩ := p
  obtain rfl : bytes = [] := by simpa [isEmpty] using h
  unfold join
  split
  · rfl
  · simp

theorem PathBuf.ite_isEmpty_join (relative : PathBuf) (name : Name) :
    (if relative.isEmpty = true then (⟨name⟩ : PathBuf) else relative.join ⟨name⟩) =
      relative.join ⟨name⟩ := by
  split
  · rename_i hempty
    rw [PathBuf.join_of_isEmpty hempty]
  · rfl

theorem entryType_eq_ok {child : PathBuf} {found : Found} {itemType : ItemType}
    (h : entryType child found = .ok itemType) : itemType = found.itemType := by
  unfold entryType at h
  split at h
  · cases h
  · exact (Except.ok.inj h).symm

theorem readEntries_eq_ok {directory : PathBuf} {listError : Option String}
    {entries : Except PrecheckError (List PathBuf)} {paths : List PathBuf}
    (h : readEntries directory listError entries = .ok paths) : entries = .ok paths := by
  unfold readEntries at h
  split at h
  · cases h
  · exact h

namespace WalkScope

variable {w : WalkScope} {root relative path : PathBuf} {paths : List PathBuf}

theorem skippedAt_cons {name : Name} {names : List Name} {itemType : ItemType}
    (h : names ≠ []) :
    w.skippedAt relative (name :: names) itemType =
      (isExcluded w.lossy (relative.join ⟨name⟩) true w.exclusions ||
        w.skippedAt (relative.join ⟨name⟩) names itemType) := by
  obtain ⟨head, tail, rfl⟩ := List.exists_cons_of_ne_nil h
  rfl

/-- A place is left out with the directory above it, or for its own path. -/
theorem skippedAt_concat {names : List Name} {name : Name} {itemType : ItemType} :
    w.skippedAt relative (names ++ [name]) itemType =
      (w.skippedAt relative names .directory ||
        isExcluded w.lossy ((names ++ [name]).foldl (fun path name => path.join ⟨name⟩) relative)
          (itemType = .directory) w.exclusions) := by
  induction names generalizing relative with
  | nil => simp [skippedAt]
  | cons first names ih =>
      rw [List.cons_append, skippedAt_cons (by simp), ih]
      cases names with
      | nil => simp [skippedAt]
      | cons second names =>
          rw [skippedAt_cons (List.cons_ne_nil second names), Bool.or_assoc]
          rfl

/-- The entries of a directory give the places below it that are not left
out. -/
theorem mem_collectEntriesBelow {entries : Entries}
    (h : w.collectEntriesBelow root relative entries = .ok paths) :
    path ∈ paths ↔ ∃ place ∈ entries.located, w.skippedAt relative place.1 place.2.itemType = false ∧
      path = place.1.foldl (fun path name => path.join ⟨name⟩) relative := by
  induction entries generalizing relative paths with
  | nil =>
      cases h
      simp [Entries.located]
  | cons name found below rest ihbelow ihrest =>
      rw [collectEntriesBelow] at h
      dsimp only at h
      rw [PathBuf.ite_isEmpty_join] at h
      obtain ⟨itemType, htype, h⟩ := bind_eq_ok.mp h
      obtain rfl := entryType_eq_ok htype
      have hself : w.skippedAt relative [name] found.itemType =
          isExcluded w.lossy (relative.join ⟨name⟩) (found.itemType = .directory)
            w.exclusions := rfl
      -- a place below the entry is left out with it
      have hinner : ∀ place ∈ below.located, found.itemType = .directory →
          w.skippedAt relative (name :: place.1) place.2.itemType =
            (w.skippedAt relative [name] found.itemType ||
              w.skippedAt (relative.join ⟨name⟩) place.1 place.2.itemType) := by
        intro place hplace hdirectory
        rw [skippedAt_cons (Entries.located_ne_nil hplace), hself, hdirectory]
        simp
      have hlocated : ∀ {P : List Name × Found → Prop},
          (∃ place ∈ (Entries.cons name found below rest).located, P place) ↔
            P ([name], found) ∨ (found.itemType = .directory ∧
              ∃ place ∈ below.located, P (name :: place.1, place.2)) ∨
              ∃ place ∈ rest.located, P place := by
        intro P
        have hdescend : (∃ place ∈ (if found.itemType = .directory then
              below.located.map fun place => (name :: place.1, place.2) else []), P place) ↔
            found.itemType = .directory ∧ ∃ place ∈ below.located, P (name :: place.1, place.2) := by
          split <;> rename_i hdirectory
          · constructor
            · rintro ⟨place, hplace, h⟩
              obtain ⟨inner, hinner, rfl⟩ := List.mem_map.mp hplace
              exact ⟨hdirectory, inner, hinner, h⟩
            · rintro ⟨-, inner, hinner, h⟩
              exact ⟨_, List.mem_map.mpr ⟨inner, hinner, rfl⟩, h⟩
          · simp [hdirectory]
        rw [← hdescend]
        simp only [Entries.located, List.mem_cons, List.mem_append, or_and_right, exists_or,
          exists_eq_left]
      rw [hlocated]
      rw [← hself] at h
      split at h <;> rename_i hskipped
      · -- the entry is excluded, and so is what is below it
        rw [ihrest h]
        constructor
        · exact fun hrest => .inr (.inr hrest)
        · dsimp only
          rintro (⟨hhere, -⟩ | ⟨hdirectory, place, hplace, hhere, -⟩ | hrest)
          · rw [hskipped] at hhere
            cases hhere
          · rw [hinner place hplace hdirectory, hskipped] at hhere
            cases hhere
          · exact hrest
      · rw [Bool.not_eq_true] at hskipped
        obtain ⟨inner, hbelow, h⟩ := bind_eq_ok.mp h
        obtain ⟨others, hrest, h⟩ := bind_eq_ok.mp h
        cases h
        rw [List.mem_cons, List.mem_append, ihrest hrest]
        refine or_congr ?_ (or_congr ?_ Iff.rfl)
        · simp [hskipped]
        · by_cases hdirectory : found.itemType = .directory
          · rw [if_pos (by simp [hdirectory])] at hbelow
            rw [ihbelow (readEntries_eq_ok hbelow)]
            constructor
            · rintro ⟨place, hplace, hnone, rfl⟩
              refine ⟨hdirectory, place, hplace, ?_, rfl⟩
              rw [hinner place hplace hdirectory, hskipped, hnone]
              rfl
            · rintro ⟨-, place, hplace, hnone, rfl⟩
              rw [hinner place hplace hdirectory, hskipped, Bool.false_or] at hnone
              exact ⟨place, hplace, hnone, rfl⟩
          · rw [if_neg (by simp [hdirectory])] at hbelow
            cases hbelow
            simp [hdirectory]

/-- **A walk that succeeds returns the places that are not left out.** -/
theorem mem_collectEntries {tree : FileTree} (h : w.collectEntries root tree = .ok paths) :
    path ∈ paths ↔ ∃ place ∈ tree.entries.located,
      w.skippedAt ⟨[]⟩ place.1 place.2.itemType = false ∧ path = pathOf place.1 := by
  unfold collectEntries at h
  split at h
  · cases h
  · split at h
    · exact mem_collectEntriesBelow (readEntries_eq_ok h)
    · cases h

end WalkScope

end SyncPlus
