import Mathlib.Data.List.Sort
import SyncPlus.Exclusions
import SyncPlus.Plan

/-!
# The directory walk

How an analysis takes the inventory of a peer. The file system is what it
answers to the walk: the entries of a directory, each with what is found
there and the entries below it (`Entries`), and which calls fail. The walk
visits a directory in the order of the names, leaves out the files the
program keeps for itself, and descends into every directory, an excluded
one included.

What a walk that succeeds returns is described once (`collectInventory_perm`):
one item for every place of the tree (`located`) that is not below an
internal file, whose outcome depends on the names of its path and the
types on it only.
-/

namespace SyncPlus

/-! ## Errors -/

inductive PlanError where
  | actionOutsideApprovedScope (path : PathBuf)
  | actionNotInPlan (path : PathBuf)
  | actionNotAllowed (kind : PlanActionKind)
  deriving Repr, DecidableEq

inductive AnalysisError where
  | processSpecification (error : ProcessSpecError)
  | unsupportedRemotePeer (peer : String)
  | rootUnavailable (peer : String) (path : PathBuf)
  | rootNotDirectory (peer : String) (path : PathBuf)
  | readDirectory (peer : String) (path : PathBuf)
  | readMetadata (peer : String) (path : PathBuf)
  | plan (error : PlanError)
  | profileChanged
  | staleAnalysis (changedPaths : List PathBuf)
  deriving Repr, DecidableEq

/-! ## Trees -/

/-- What the calls on one entry answer: the type, the metadata with the
target of a link, the hash of the content where it can be read, and the
message of the call that fails, of those on the entry and of those that
list it. -/
structure Found where
  itemType : ItemType
  metadata : ItemMetadata
  content : Option Sha256
  inspectError : Option String
  listError : Option String
  deriving DecidableEq

/-- The entries of a directory, in the order the system lists them. -/
inductive Entries where
  | nil
  | cons (name : Name) (found : Found) (below rest : Entries)
  deriving DecidableEq

namespace Entries

def names : Entries → List Name
  | nil => []
  | cons name _ _ rest => name :: rest.names

/-- Every name can stand on a path, and no directory has one twice. -/
def WellFormed : Entries → Prop
  | nil => True
  | cons name _ below rest =>
      ValidName name ∧ name ∉ rest.names ∧ below.WellFormed ∧ rest.WellFormed

def decideWellFormed : (entries : Entries) → Decidable entries.WellFormed
  | nil => .isTrue trivial
  | cons name _ below rest =>
      have := decideWellFormed below
      have := decideWellFormed rest
      inferInstanceAs (Decidable (ValidName name ∧ name ∉ rest.names ∧ _ ∧ _))

instance : DecidablePred WellFormed := decideWellFormed

/-- Every place below a directory, by the names that lead to it. -/
def located : Entries → List (List Name × Found)
  | nil => []
  | cons name found below rest =>
      ([name], found) ::
        ((if found.itemType = .directory then
          below.located.map fun place => (name :: place.1, place.2)
        else []) ++ rest.located)

end Entries

/-- What is at a root: nothing that can be inspected, or what is found and
the entries below it. -/
structure FileTree where
  root : Option Found
  entries : Entries
  wellFormed : entries.WellFormed

/-! ## The walk -/

/-- What decides the scope of a walk. -/
structure WalkScope where
  lossy : LossyNames
  exclusions : List String

def isSyncplusInternalArtifact (lossy : LossyNames) (name : Name) : Bool :=
  let name := lossy.text name
  ".syncplus-partial-".toList.isPrefixOf name ||
    ".syncplus-temporary-".toList.isPrefixOf name ||
    ".syncplus-previous-".toList.isPrefixOf name

def metadataSnapshot (found : Found) : ItemMetadata :=
  if found.itemType = .symlink then found.metadata
  else { found.metadata with symlinkTarget := none }

def analysisOutcome (excluded : Bool) (itemType : ItemType) : AnalysisOutcome :=
  if excluded then .excluded
  else if itemType = .unsupported then .unsupported
  else .included

def inventoryItem (relativePath : PathBuf) (excluded : Bool) (found : Found) :
    InventoryItem where
  relativePath
  itemType := found.itemType
  metadata := metadataSnapshot found
  outcome := analysisOutcome excluded found.itemType
  contentFingerprint :=
    if analysisOutcome excluded found.itemType = .included ∧ found.itemType = .regularFile then
      found.content
    else none

/-- The name of an entry, and what its visit returns: the items at it and
below it. -/
structure Visit where
  name : Name
  items : Except AnalysisError (List InventoryItem)

/-- The visits of a directory's entries in the order of the names, up to the
first that fails. -/
def inOrder (visits : List Visit) : Except AnalysisError (List InventoryItem) :=
  ((visits.insertionSort fun v v' => (compare v.name v'.name).isLE = true).mapM
    Visit.items).map List.flatten

/-- Read a directory, whose entries are visited so. -/
def readDirectory (peer : String) (directory : PathBuf) (listError : Option String)
    (visits : List Visit) : Except AnalysisError (List InventoryItem) := do
  ensure (listError = none) (.readDirectory peer directory)
  inOrder visits

namespace WalkScope

variable (w : WalkScope)

def excludes (relativePath : PathBuf) (itemType : ItemType) : Bool :=
  w.exclusions.any fun pattern => matchesExclusion w.lossy relativePath itemType pattern


/-- `walk_directory`: the visits of the entries. -/
def walkDirectory (peer : String) (directory relativeDirectory : PathBuf) (inheritedExclusion : Bool) :
    Entries → List Visit
  | .nil => []
  | .cons name found below rest =>
      ⟨name,
        if isSyncplusInternalArtifact w.lossy name then .ok []
        else do
          let absolutePath := directory.join ⟨name⟩
          let relativePath := relativeDirectory.join ⟨name⟩
          ensure (found.inspectError = none) (.readMetadata peer relativePath)
          let excluded := inheritedExclusion || w.excludes relativePath found.itemType
          let item := inventoryItem relativePath excluded found
          if found.itemType = .directory then
            let items ← readDirectory peer absolutePath found.listError
              (walkDirectory peer absolutePath relativePath excluded below)
            return item :: items
          else return [item]⟩ ::
        walkDirectory peer directory relativeDirectory inheritedExclusion rest

def collectInventory (peer : String) (root : PathBuf) (tree : FileTree) :
    Except AnalysisError SourceInventory := do
  let found ← orError tree.root (.rootUnavailable peer root)
  ensure (found.itemType = .directory) (.rootNotDirectory peer root)
  let items ← readDirectory peer root found.listError
    (w.walkDirectory peer root ⟨[]⟩ false tree.entries)
  return ⟨items.insertionSort fun i j =>
    (compare i.relativePath.components j.relativePath.components).isLE = true⟩

/-! ## What a walk finds -/

/-- Whether the place at these names is excluded: by a pattern on its own
path, or with a directory above it. -/
def excludedAt (relativeDirectory : PathBuf) (inheritedExclusion : Bool) :
    List Name → ItemType → Bool
  | [], _ => inheritedExclusion
  | [name], itemType =>
      inheritedExclusion || w.excludes (relativeDirectory.join ⟨name⟩) itemType
  | name :: names, itemType =>
      excludedAt (relativeDirectory.join ⟨name⟩)
        (inheritedExclusion || w.excludes (relativeDirectory.join ⟨name⟩) .directory) names
        itemType

def itemAt (relativeDirectory : PathBuf) (inheritedExclusion : Bool)
    (place : List Name × Found) : InventoryItem :=
  inventoryItem (place.1.foldl (fun path name => path.join ⟨name⟩) relativeDirectory)
    (w.excludedAt relativeDirectory inheritedExclusion place.1 place.2.itemType) place.2

/-- The place is not an internal file and not below one. -/
def Visible (place : List Name × Found) : Prop :=
  ∀ name ∈ place.1, isSyncplusInternalArtifact w.lossy name = false

instance : DecidablePred w.Visible := fun place =>
  inferInstanceAs (Decidable (∀ name ∈ place.1, _))

end WalkScope

/-- The items of a walk that succeeds. -/
def walked : Except AnalysisError (List InventoryItem) → List InventoryItem
  | .ok items => items
  | .error _ => []

/-- Visits succeed together, with the items of each. -/
theorem inOrder_eq_ok {visits : List Visit} {items : List InventoryItem}
    (h : inOrder visits = .ok items) :
    (∀ visit ∈ visits, visit.items = .ok (walked visit.items)) ∧
      items.Perm (visits.map fun visit => walked visit.items).flatten := by
  obtain ⟨parts, hparts, rfl⟩ := map_eq_ok.mp h
  have hok : ∀ (visit : Visit) (part : List InventoryItem), visit.items = .ok part ↔
      part = walked visit.items ∧ visit.items = .ok (walked visit.items) := by
    intro visit part
    cases visit.items <;> simp [walked, eq_comm]
  obtain ⟨rfl, hall⟩ := (mapM_eq_ok fun visit _ => hok visit).mp hparts
  refine ⟨fun visit hvisit => hall visit ((List.mem_insertionSort _).mpr hvisit), ?_⟩
  exact ((List.perm_insertionSort _ visits).map _).flatten

theorem Entries.located_ne_nil {entries : Entries} {place : List Name × Found}
    (h : place ∈ entries.located) : place.1 ≠ [] := by
  induction entries with
  | nil => cases h
  | cons name found below rest _ ihrest =>
      rw [located, List.mem_cons, List.mem_append] at h
      rcases h with rfl | hbelow | hrest
      · exact List.cons_ne_nil _ _
      · split at hbelow
        · obtain ⟨place, -, rfl⟩ := List.mem_map.mp hbelow
          exact List.cons_ne_nil _ _
        · cases hbelow
      · exact ihrest hrest

namespace WalkScope

variable {w : WalkScope} {peer : String} {directory relativeDirectory : PathBuf} {inheritedExclusion : Bool}

@[simp] theorem visible_cons {name : Name} {names : List Name} {found : Found} :
    w.Visible (name :: names, found) ↔
      isSyncplusInternalArtifact w.lossy name = false ∧ w.Visible (names, found) := by
  simp [Visible]

/-- The item at a place below a directory is the item at the rest of the
path from there. -/
theorem itemAt_cons {name : Name} {place : List Name × Found} (h : place.1 ≠ []) :
    w.itemAt relativeDirectory inheritedExclusion (name :: place.1, place.2) =
      w.itemAt (relativeDirectory.join ⟨name⟩)
        (inheritedExclusion || w.excludes (relativeDirectory.join ⟨name⟩) .directory) place := by
  rcases place with ⟨_ | ⟨name', names⟩, found⟩
  · exact absurd rfl h
  · rfl

/-- The visits of a directory find what is located there. -/
theorem walkDirectory_perm {entries : Entries}
    (h : ∀ visit ∈ w.walkDirectory peer directory relativeDirectory inheritedExclusion entries,
      visit.items = .ok (walked visit.items)) :
    ((w.walkDirectory peer directory relativeDirectory inheritedExclusion entries).map
        fun visit => walked visit.items).flatten.Perm
      ((entries.located.filter fun place => w.Visible place).map
        (w.itemAt relativeDirectory inheritedExclusion)) := by
  induction entries generalizing directory relativeDirectory inheritedExclusion with
  | nil => exact .nil
  | cons name found below rest ihbelow ihrest =>
      rw [walkDirectory] at h ⊢
      obtain ⟨hfirst, hrest⟩ := List.forall_mem_cons.mp h
      rw [Entries.located, ← List.cons_append, List.filter_append, List.map_append,
        List.map_cons, List.flatten_cons]
      refine List.Perm.append ?_ (ihrest hrest)
      dsimp only at hfirst ⊢
      by_cases hartifact : isSyncplusInternalArtifact w.lossy name = true
      · -- nothing at an internal file or below it is visible
        rw [if_pos hartifact, List.filter_eq_nil_iff.mpr]
        · exact .nil
        · intro place hplace
          have hname : ∃ names found', place = (name :: names, found') := by
            rcases List.mem_cons.mp hplace with rfl | hbelow
            · exact ⟨[], found, rfl⟩
            · split at hbelow
              · obtain ⟨place, -, rfl⟩ := List.mem_map.mp hbelow
                exact ⟨place.1, place.2, rfl⟩
              · cases hbelow
          obtain ⟨names, found', rfl⟩ := hname
          simp [hartifact]
      · rw [Bool.not_eq_true] at hartifact
        rw [if_neg (by simp [hartifact])] at hfirst ⊢
        rw [hfirst, walked]
        generalize walked _ = items at hfirst ⊢
        obtain ⟨-, hfirst⟩ := ensure_bind_eq_ok.mp hfirst
        have hhere : w.itemAt relativeDirectory inheritedExclusion ([name], found) =
          inventoryItem (relativeDirectory.join ⟨name⟩) (inheritedExclusion ||
            w.excludes (relativeDirectory.join ⟨name⟩) found.itemType) found := rfl
        have hvisible : w.Visible ([name], found) := by
          simpa [Visible] using hartifact
        split at hfirst
        · rename_i hdirectory
          obtain ⟨inner, hinner, hitems⟩ := bind_eq_ok.mp hfirst
          cases hitems
          obtain ⟨-, hinner⟩ := ensure_bind_eq_ok.mp hinner
          obtain ⟨hvisits, hperm⟩ := inOrder_eq_ok hinner
          have hbelow := hperm.trans (ihbelow hvisits)
          rw [List.filter_cons_of_pos (by simpa using hvisible), List.map_cons, hhere]
          refine .cons _ (hbelow.trans (.of_eq ?_))
          rw [if_pos hdirectory, List.filter_map, List.map_map]
          have hfilter : (below.located.filter fun place =>
                decide (w.Visible (name :: place.1, place.2))) =
              below.located.filter fun place => decide (w.Visible place) :=
            List.filter_congr fun place _ => by simp [hartifact]
          refine (List.map_congr_left fun place hplace => ?_).trans
            (congrArg (List.map _) hfilter.symm)
          have hne := Entries.located_ne_nil (List.mem_of_mem_filter hplace)
          rw [Function.comp_apply, itemAt_cons hne, hdirectory]
        · rename_i hdirectory
          cases hfirst
          rw [if_neg hdirectory, List.filter_cons_of_pos (by simpa using hvisible)]
          exact .of_eq (by rw [List.filter_nil, List.map_singleton, hhere])

/-- **A walk that succeeds finds what is located below the root.** -/
theorem collectInventory_perm {root : PathBuf} {tree : FileTree} {inventory : SourceInventory}
    (h : w.collectInventory peer root tree = .ok inventory) :
    inventory.items.Perm ((tree.entries.located.filter fun place => w.Visible place).map
      (w.itemAt ⟨[]⟩ false)) := by
  obtain ⟨found, -, h⟩ := bind_eq_ok.mp h
  obtain ⟨-, h⟩ := ensure_bind_eq_ok.mp h
  obtain ⟨items, hitems, h⟩ := bind_eq_ok.mp h
  cases h
  obtain ⟨-, hitems⟩ := ensure_bind_eq_ok.mp hitems
  obtain ⟨hvisits, hperm⟩ := inOrder_eq_ok hitems
  exact (List.perm_insertionSort _ items).trans (hperm.trans (walkDirectory_perm hvisits))

end WalkScope

end SyncPlus
