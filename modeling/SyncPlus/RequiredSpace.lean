import SyncPlus.Lib.Totals
import SyncPlus.Analysis
import SyncPlus.PrecheckEntries

/-!
# The space a precheck asks for

How the precheck estimates what a run will write. It adds up the files of the
peer they come from, in a counter that saturates, leaving out what its own
matcher excludes (`directorySizeEntries_eq_ok`). The first call of the walk that
fails ends it, and then the estimate is zero (`requiredSpace_of_failure`).
-/

namespace SyncPlus

/-- The calls of a walk that fail, with the texts of their errors, by the path
below the root. `readDir` is the call that opens a directory and those that give
its entries. -/
structure FailedCalls where
  fileType : PathBuf → Option String
  metadata : PathBuf → Option String
  readDir : PathBuf → Option String

def FailedCalls.none : FailedCalls := ⟨fun _ => .none, fun _ => .none, fun _ => .none⟩

/-- A call that fails with this text, if it does. -/
def attempted (failure : Option String) (error : String → PrecheckError) :
    Except PrecheckError Unit :=
  match failure with
  | some detail => .error (error detail)
  | none => .ok ()

@[simp] theorem attempted_eq_ok {failure : Option String} {error : String → PrecheckError} :
    attempted failure error = .ok () ↔ failure = none := by
  cases failure <;> simp [attempted]

/-- The size of what is found, when it is a file. -/
def Found.fileSize (found : Found) : Nat :=
  if found.itemType = .regularFile then found.metadata.size.toNat else 0

namespace WalkScope

variable (w : WalkScope) (failed : FailedCalls)

/-- `directory_size_recursive`, for what is found at one path: `below` is what
the entries there come to. -/
def itemSize (path relative : PathBuf) (found : Found) (below : Except PrecheckError UInt64) :
    Except PrecheckError UInt64 := do
  attempted (failed.metadata relative) (⟨path, "inspect source", ·⟩)
  match found.itemType with
  | .regularFile => return found.metadata.size
  | .directory => do
      attempted (failed.readDir relative) (⟨path, "read source", ·⟩)
      below
  | _ => return 0

/-- The entries of one directory, added to the size so far. -/
def directorySizeEntries (path relative : PathBuf) (size : UInt64) :
    Entries → Except PrecheckError UInt64
  | .nil => .ok size
  | .cons name found below rest => do
      let child := if relative.isEmpty then ⟨name⟩ else relative.join ⟨name⟩
      let childPath := path.join ⟨name⟩
      attempted (failed.fileType child) (⟨child, "inspect source", ·⟩)
      if isExcluded w.lossy child (found.itemType = .directory) w.exclusions then
        directorySizeEntries path relative size rest
      else do
        let inner ← itemSize failed childPath child found
          (directorySizeEntries childPath child 0 below)
        directorySizeEntries path relative (saturatingAdd size inner) rest

/-- `directory_size`. -/
def directorySize (path : PathBuf) (tree : FileTree) : Except PrecheckError UInt64 :=
  match tree.root with
  | none => .error ⟨path, "inspect source", "No such file or directory (os error 2)"⟩
  | some found =>
      itemSize failed path ⟨[]⟩ found (w.directorySizeEntries failed path ⟨[]⟩ 0 tree.entries)

/-! ## What the walk adds up -/

/-- The bytes the walk counts at a place. -/
def countedBytes (relative : PathBuf) (place : List Name × Found) : Nat :=
  if w.skippedAt relative place.1 place.2.itemType then 0 else place.2.fileSize

/-- No call that the walk makes at a place fails. It comes to the places below
directories that it does not leave out. -/
def InspectedAt (relative : PathBuf) (place : List Name × Found) : Prop :=
  let path := place.1.foldl (fun path name => path.join ⟨name⟩) relative
  w.skippedAt relative place.1.dropLast .directory = false →
    failed.fileType path = none ∧
      (w.skippedAt relative place.1 place.2.itemType = false →
        failed.metadata path = none ∧
          (place.2.itemType = .directory → failed.readDir path = none))

instance (relative : PathBuf) (place : List Name × Found) :
    Decidable (w.InspectedAt failed relative place) :=
  inferInstanceAs (Decidable (_ → _))

/-- The walk of a tree succeeds. -/
def Inspected (tree : FileTree) : Prop :=
  tree.root.isSome = true ∧ failed.metadata ⟨[]⟩ = none ∧
    (tree.root.any (·.itemType = .directory) = true →
      failed.readDir ⟨[]⟩ = none ∧
        ∀ place ∈ tree.entries.located, w.InspectedAt failed ⟨[]⟩ place)

instance (tree : FileTree) : Decidable (w.Inspected failed tree) :=
  inferInstanceAs (Decidable (_ ∧ _ ∧ (_ → _)))

end WalkScope

section

variable {w : WalkScope} {failed : FailedCalls} {path relative : PathBuf}

theorem WalkScope.skippedAt_cons_directory {name : Name} {names : List Name} :
    w.skippedAt relative (name :: names) .directory =
      (isExcluded w.lossy (relative.join ⟨name⟩) true w.exclusions ||
        w.skippedAt (relative.join ⟨name⟩) names .directory) := by
  cases names <;> simp [skippedAt]

/-- A property of every place of a directory, entry by entry. -/
theorem Entries.forall_located_cons {name : Name} {found : Found} {below rest : Entries}
    {P : List Name × Found → Prop} :
    (∀ place ∈ (Entries.cons name found below rest).located, P place) ↔
      P ([name], found) ∧
        (found.itemType = .directory → ∀ place ∈ below.located, P (name :: place.1, place.2)) ∧
        ∀ place ∈ rest.located, P place := by
  rw [located, List.forall_mem_cons, List.forall_mem_append]
  refine and_congr_right fun _ => and_congr_left fun _ => ?_
  split <;> rename_i hdirectory
  · rw [List.forall_mem_map]
    exact ⟨fun h _ => h, fun h => h hdirectory⟩
  · simp [hdirectory]

/-- A total over the places of a directory, entry by entry. -/
theorem Entries.sum_located_cons {name : Name} {found : Found} {below rest : Entries}
    (f : List Name × Found → Nat) :
    ((Entries.cons name found below rest).located.map f).sum =
      f ([name], found) +
        (if found.itemType = .directory then
          (below.located.map fun place => f (name :: place.1, place.2)).sum else 0) +
        (rest.located.map f).sum := by
  rw [located, List.map_cons, List.map_append, List.sum_cons, List.sum_append, Nat.add_assoc]
  congr 2
  split
  · rw [List.map_map]
    rfl
  · rfl

namespace WalkScope

theorem itemSize_eq_ok {found : Found} {below : Except PrecheckError UInt64} {size : UInt64} :
    itemSize failed path relative found below = .ok size ↔
      failed.metadata relative = none ∧
        (if found.itemType = .directory then failed.readDir relative = none ∧ below = .ok size
        else size = saturate found.fileSize) := by
  unfold itemSize
  rw [unit_bind_eq_ok, attempted_eq_ok]
  refine and_congr_right fun _ => ?_
  unfold Found.fileSize
  cases found.itemType with
  | regularFile =>
      rw [if_neg (by decide), if_pos rfl, saturate_toNat]
      exact ⟨fun h => (Except.ok.inj h).symm, fun h => congrArg Except.ok h.symm⟩
  | directory =>
      rw [if_pos rfl]
      dsimp only
      rw [unit_bind_eq_ok, attempted_eq_ok]
  | symlink =>
      rw [if_neg (by decide), if_neg (by decide), saturate_zero]
      exact ⟨fun h => (Except.ok.inj h).symm, fun h => congrArg Except.ok h.symm⟩
  | unsupported =>
      rw [if_neg (by decide), if_neg (by decide), saturate_zero]
      exact ⟨fun h => (Except.ok.inj h).symm, fun h => congrArg Except.ok h.symm⟩

theorem skippedAt_singleton {name : Name} {itemType : ItemType} :
    w.skippedAt relative [name] itemType =
      isExcluded w.lossy (relative.join ⟨name⟩) (itemType = .directory) w.exclusions := rfl

/-- The calls at an entry and below it. -/
theorem forall_inspectedAt_cons {name : Name} {found : Found} {below rest : Entries} :
    (∀ place ∈ (Entries.cons name found below rest).located, w.InspectedAt failed relative place) ↔
      failed.fileType (relative.join ⟨name⟩) = none ∧
        (w.skippedAt relative [name] found.itemType = false →
          failed.metadata (relative.join ⟨name⟩) = none ∧
            (found.itemType = .directory → failed.readDir (relative.join ⟨name⟩) = none ∧
              ∀ place ∈ below.located, w.InspectedAt failed (relative.join ⟨name⟩) place)) ∧
        ∀ place ∈ rest.located, w.InspectedAt failed relative place := by
  have hhere : w.InspectedAt failed relative ([name], found) ↔
      failed.fileType (relative.join ⟨name⟩) = none ∧
        (w.skippedAt relative [name] found.itemType = false →
          failed.metadata (relative.join ⟨name⟩) = none ∧
            (found.itemType = .directory → failed.readDir (relative.join ⟨name⟩) = none)) :=
    ⟨fun h => h rfl, fun h _ => h⟩
  have hbelow : ∀ place ∈ below.located,
      (w.InspectedAt failed relative (name :: place.1, place.2) ↔
        (w.skippedAt relative [name] .directory = false →
          w.InspectedAt failed (relative.join ⟨name⟩) place)) := by
    intro place hplace
    have hne := Entries.located_ne_nil hplace
    have hdrop : (name :: place.1).dropLast = name :: place.1.dropLast :=
      List.dropLast_cons_of_ne_nil hne
    unfold InspectedAt
    dsimp only
    rw [hdrop, skippedAt_cons_directory, skippedAt_cons hne, List.foldl_cons,
      skippedAt_singleton]
    simp only [decide_true]
    cases isExcluded w.lossy (relative.join ⟨name⟩) true w.exclusions <;> simp
  rw [Entries.forall_located_cons, hhere]
  constructor
  · intro ⟨⟨htype, hself⟩, hinner, hrest⟩
    refine ⟨htype, fun hskipped => ?_, hrest⟩
    obtain ⟨hmetadata, hread⟩ := hself hskipped
    refine ⟨hmetadata, fun hdirectory => ⟨hread hdirectory, fun place hplace => ?_⟩⟩
    exact (hbelow place hplace).mp (hinner hdirectory place hplace) (hdirectory ▸ hskipped)
  · intro ⟨htype, hself, hrest⟩
    refine ⟨⟨htype, fun hskipped => ?_⟩, fun hdirectory place hplace => ?_, hrest⟩
    · obtain ⟨hmetadata, hread⟩ := hself hskipped
      exact ⟨hmetadata, fun hdirectory => (hread hdirectory).1⟩
    · refine (hbelow place hplace).mpr fun hskipped => ?_
      exact ((hself (hdirectory ▸ hskipped)).2 hdirectory).2 place hplace

/-- The bytes counted at an entry and below it. -/
theorem sum_countedBytes_cons {name : Name} {found : Found} {below rest : Entries} :
    ((Entries.cons name found below rest).located.map (w.countedBytes relative)).sum =
      (if w.skippedAt relative [name] found.itemType then 0
        else if found.itemType = .directory then
          (below.located.map (w.countedBytes (relative.join ⟨name⟩))).sum
        else found.fileSize) +
        (rest.located.map (w.countedBytes relative)).sum := by
  have hbelow : ∀ place ∈ below.located,
      w.countedBytes relative (name :: place.1, place.2) =
        if w.skippedAt relative [name] .directory then 0
        else w.countedBytes (relative.join ⟨name⟩) place := by
    intro place hplace
    unfold countedBytes
    rw [skippedAt_cons (Entries.located_ne_nil hplace), skippedAt_singleton]
    simp only [decide_true]
    cases isExcluded w.lossy (relative.join ⟨name⟩) true w.exclusions <;> simp
  rw [Entries.sum_located_cons, List.map_congr_left hbelow]
  congr 1
  by_cases hdirectory : found.itemType = .directory
  · have hfile : found.fileSize = 0 := by
      rw [Found.fileSize, if_neg (by rw [hdirectory]; decide)]
    rw [if_pos hdirectory, if_pos hdirectory, countedBytes, hfile, hdirectory]
    split <;> rename_i hskipped
    · simp
    · rw [Nat.zero_add]
  · rw [if_neg hdirectory, if_neg hdirectory, Nat.add_zero]
    rfl

/-- **The walk adds up the files it does not leave out**, when none of its
calls fails. -/
theorem directorySizeEntries_eq_ok {entries : Entries} {n : Nat} {size : UInt64} :
    w.directorySizeEntries failed path relative (saturate n) entries = .ok size ↔
      (∀ place ∈ entries.located, w.InspectedAt failed relative place) ∧
        size = saturate (n + (entries.located.map (w.countedBytes relative)).sum) := by
  induction entries generalizing path relative n size with
  | nil =>
      rw [directorySizeEntries, Entries.located, List.map_nil, List.sum_nil, Nat.add_zero]
      exact ⟨fun h => ⟨List.forall_mem_nil _, (Except.ok.inj h).symm⟩,
        fun h => congrArg Except.ok h.2.symm⟩
  | cons name found below rest ihbelow ihrest =>
      rw [directorySizeEntries, PathBuf.ite_isEmpty_join, unit_bind_eq_ok, attempted_eq_ok, ← skippedAt_singleton,
        forall_inspectedAt_cons, sum_countedBytes_cons, and_assoc]
      refine and_congr_right fun _ => ?_
      cases hskipped : w.skippedAt relative [name] found.itemType with
      | true =>
          rw [if_pos rfl, if_pos rfl, ihrest, Nat.zero_add]
          simp
      | false =>
          rw [if_neg (by simp), if_neg (by simp), bind_eq_ok]
          simp only [itemSize_eq_ok, ← saturate_zero]
          by_cases hdirectory : found.itemType = .directory
          · simp only [if_pos hdirectory, ihbelow]
            constructor
            · rintro ⟨inner, ⟨hmetadata, hread, hinner, heq⟩, hrest⟩
              rw [heq, saturatingAdd_saturate, ihrest] at hrest
              refine ⟨⟨fun _ => ⟨hmetadata, fun _ => ⟨hread, hinner⟩⟩, hrest.1⟩, ?_⟩
              rw [hrest.2, Nat.zero_add, Nat.add_assoc]
            · rintro ⟨⟨hself, hrest⟩, heq⟩
              obtain ⟨hmetadata, hinner⟩ := hself trivial
              obtain ⟨hread, hinner⟩ := hinner hdirectory
              refine ⟨_, ⟨hmetadata, hread, hinner, rfl⟩, ?_⟩
              rw [saturatingAdd_saturate, ihrest, heq, Nat.zero_add, Nat.add_assoc]
              exact ⟨hrest, rfl⟩
          · simp only [if_neg hdirectory]
            constructor
            · rintro ⟨inner, ⟨hmetadata, heq⟩, hrest⟩
              rw [heq, saturatingAdd_saturate, ihrest] at hrest
              refine ⟨⟨fun _ => ⟨hmetadata, fun h => absurd h hdirectory⟩, hrest.1⟩, ?_⟩
              rw [hrest.2, Nat.add_assoc]
            · rintro ⟨⟨hself, hrest⟩, heq⟩
              refine ⟨_, ⟨(hself trivial).1, rfl⟩, ?_⟩
              rw [saturatingAdd_saturate, ihrest, heq, Nat.add_assoc]
              exact ⟨hrest, rfl⟩

/-- All that the walk of a tree counts. -/
def countedTotal (w : WalkScope) (tree : FileTree) : Nat :=
  (tree.root.map fun found =>
    if found.itemType = .directory then
      (tree.entries.located.map (w.countedBytes ⟨[]⟩)).sum
    else found.fileSize).getD 0

theorem directorySize_eq_ok {tree : FileTree} {size : UInt64} :
    w.directorySize failed path tree = .ok size ↔
      w.Inspected failed tree ∧ size = saturate (w.countedTotal tree) := by
  unfold directorySize Inspected countedTotal
  cases tree.root with
  | none => simp
  | some found =>
      dsimp only
      rw [itemSize_eq_ok, ← saturate_zero]
      by_cases hdirectory : found.itemType = .directory
      · rw [if_pos hdirectory, directorySizeEntries_eq_ok]
        simp [hdirectory, and_assoc]
      · rw [if_neg hdirectory]
        simp [hdirectory]

end WalkScope

end

/-! ## The estimate -/

/-- What a precheck asks of the system: the trees, the calls of its own walk
that fail, by the root of the walk, and the device of a path. -/
structure LocalPrecheckProbe where
  fs : FileSystem
  failed : PathBuf → FailedCalls
  deviceId : PathBuf → Option UInt64

namespace LocalPrecheckProbe

variable (probe : LocalPrecheckProbe)

def sameFilesystem (left right : PathBuf) : Bool :=
  match probe.deviceId left, probe.deviceId right with
  | some left, some right => left == right
  | _, _ => false

/-- `directory_size(..).unwrap_or_default()`. -/
def transferBytes (source : PathBuf) (exclusions : List String) : UInt64 :=
  match WalkScope.directorySize ⟨probe.fs.lossy, exclusions⟩ (probe.failed source) source
      (probe.fs.tree source) with
  | .ok size => size
  | .error _ => 0

def requiredSpace (source destination : PathBuf) (options : ValidatedSyncOptions)
    (exclusions : List String) : UInt64 :=
  let transferBytes := probe.transferBytes source exclusions
  if options.deletionMethod = some .trash ∧ probe.sameFilesystem source destination = false then
    saturatingMul transferBytes 2
  else transferBytes

/-- How often the estimate has a file that is counted. -/
def copiesCounted (source destination : PathBuf) (options : ValidatedSyncOptions) : Nat :=
  if options.deletionMethod = some .trash ∧ probe.sameFilesystem source destination = false then 2
  else 1

/-- The same system with every call of the walks answered. -/
def answering : LocalPrecheckProbe := { probe with failed := fun _ => .none }

variable {probe : LocalPrecheckProbe} {source destination : PathBuf}
  {options : ValidatedSyncOptions} {exclusions : List String}

/-- **The estimate of a walk that succeeds**: what is counted, once or twice,
or the greatest number there is. -/
theorem requiredSpace_of_inspected
    (h : WalkScope.Inspected ⟨probe.fs.lossy, exclusions⟩ (probe.failed source)
      (probe.fs.tree source)) :
    probe.requiredSpace source destination options exclusions =
      saturate (probe.copiesCounted source destination options *
        WalkScope.countedTotal ⟨probe.fs.lossy, exclusions⟩ (probe.fs.tree source)) := by
  have hbytes : probe.transferBytes source exclusions =
      saturate (WalkScope.countedTotal ⟨probe.fs.lossy, exclusions⟩ (probe.fs.tree source)) := by
    unfold transferBytes
    rw [WalkScope.directorySize_eq_ok.mpr ⟨h, rfl⟩]
  unfold requiredSpace copiesCounted
  dsimp only
  rw [hbytes]
  by_cases hdoubled : options.deletionMethod = some .trash ∧
      probe.sameFilesystem source destination = false
  · rw [if_pos hdoubled, if_pos hdoubled, saturatingMul_two]
  · rw [if_neg hdoubled, if_neg hdoubled, Nat.one_mul]

/-- **A call that fails leaves no estimate.** -/
theorem requiredSpace_of_failure
    (h : ¬ WalkScope.Inspected ⟨probe.fs.lossy, exclusions⟩ (probe.failed source)
      (probe.fs.tree source)) :
    probe.requiredSpace source destination options exclusions = 0 := by
  have hbytes : probe.transferBytes source exclusions = 0 := by
    unfold transferBytes
    split
    · rename_i size hsize
      exact absurd (WalkScope.directorySize_eq_ok.mp hsize).1 h
    · rfl
  unfold requiredSpace
  dsimp only
  rw [hbytes]
  split <;> rfl

end LocalPrecheckProbe

end SyncPlus
