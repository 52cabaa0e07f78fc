import SyncPlus.DirectoryWalk

/-!
# Walked inventories

What every inventory of a walk has (`WalkScope.InScope`): its paths are
made of names and each belongs to one item, above every item below the root
stands a directory, and the outcome of an item is a function of its path
and type that is the same for every walk of one scope. All that follows
about plans and reviews is derived from these facts and not from the walk.
-/

namespace SyncPlus

namespace Entries

variable {entries : Entries}

theorem located_head {place : List Name × Found} (h : place ∈ entries.located) :
    ∃ name names, place.1 = name :: names ∧ name ∈ entries.names := by
  induction entries with
  | nil => cases h
  | cons name found below rest _ ihrest =>
      rw [located, List.mem_cons, List.mem_append] at h
      rcases h with rfl | hbelow | hrest
      · exact ⟨name, [], rfl, .head _⟩
      · split at hbelow
        · obtain ⟨place, -, rfl⟩ := List.mem_map.mp hbelow
          exact ⟨name, place.1, rfl, .head _⟩
        · cases hbelow
      · obtain ⟨name', names, hplace, hname⟩ := ihrest hrest
        exact ⟨name', names, hplace, .tail _ hname⟩

theorem WellFormed.valid (hwf : entries.WellFormed) {place : List Name × Found}
    (h : place ∈ entries.located) : ∀ name ∈ place.1, ValidName name := by
  induction entries generalizing place with
  | nil => cases h
  | cons name found below rest ihbelow ihrest =>
      obtain ⟨hname, -, hbelow, hrest⟩ := hwf
      rw [located, List.mem_cons, List.mem_append] at h
      rcases h with rfl | h | h
      · simpa using hname
      · split at h
        · obtain ⟨place, hplace, rfl⟩ := List.mem_map.mp h
          exact List.forall_mem_cons.mpr ⟨hname, ihbelow hbelow hplace⟩
        · cases h
      · exact ihrest hrest h

/-- A place is met once. -/
theorem WellFormed.nodup (hwf : entries.WellFormed) :
    (entries.located.map Prod.fst).Nodup := by
  induction entries with
  | nil => exact List.nodup_nil
  | cons name found below rest ihbelow ihrest =>
      obtain ⟨-, hname, hbelow, hrest⟩ := hwf
      have hother : ∀ place ∈ rest.located, ∀ names, place.1 ≠ name :: names := by
        intro place hplace names heq
        obtain ⟨name', names', hplace', hmem⟩ := located_head hplace
        rw [hplace', List.cons.injEq] at heq
        exact hname (heq.1 ▸ hmem)
      rw [located, List.map_cons, List.map_append, List.nodup_cons, List.nodup_append]
      refine ⟨fun h => ?_, ?_, ihrest hrest, fun a ha b hb heq => ?_⟩
      · rcases List.mem_append.mp h with h | h
        · split at h
          · obtain ⟨place, hplace, heq⟩ := List.mem_map.mp h
            obtain ⟨inner, hinner, rfl⟩ := List.mem_map.mp hplace
            have hne := located_ne_nil hinner
            simp at heq
            exact hne heq
          · cases h
        · obtain ⟨place, hplace, heq⟩ := List.mem_map.mp h
          exact hother place hplace [] heq
      · split
        · rw [List.map_map]
          have hcons : ((Prod.fst ∘ fun place : List Name × Found => (name :: place.1, place.2))) =
              (fun names => name :: names) ∘ Prod.fst := rfl
          rw [hcons, ← List.map_map]
          exact (ihbelow hbelow).map fun _ _ h => (List.cons.inj h).2
        · exact List.nodup_nil
      · subst heq
        obtain ⟨place, hplace, rfl⟩ := List.mem_map.mp hb
        split at ha
        · obtain ⟨outer, houter, heq⟩ := List.mem_map.mp ha
          obtain ⟨inner, -, rfl⟩ := List.mem_map.mp houter
          exact hother place hplace inner.1 heq.symm
        · cases ha

/-- Above a place stands a directory. -/
theorem located_above {names : List Name} {name : Name} {found : Found}
    (h : (names ++ [name], found) ∈ entries.located) (hne : names ≠ []) :
    ∃ found', (names, found') ∈ entries.located ∧ found'.itemType = .directory := by
  induction entries generalizing names with
  | nil => cases h
  | cons first found' below rest ihbelow ihrest =>
      rw [located, List.mem_cons, List.mem_append] at h
      rcases h with h | h | h
      · obtain ⟨head, names, rfl⟩ := List.exists_cons_of_ne_nil hne
        simp at h
      · split at h
        · rename_i hdirectory
          obtain ⟨place, hplace, heq⟩ := List.mem_map.mp h
          obtain ⟨head, names, rfl⟩ := List.exists_cons_of_ne_nil hne
          rw [List.cons_append, Prod.mk.injEq, List.cons.injEq] at heq
          obtain ⟨⟨rfl, hnames⟩, hfound⟩ := heq
          by_cases hnil : names = []
          · subst hnil
            exact ⟨found', by simp [located], hdirectory⟩
          · have hplace' : (names ++ [name], found) ∈ below.located := by
              rw [← hnames, ← hfound]
              exact hplace
            obtain ⟨above, habove, htype⟩ := ihbelow hplace' hnil
            refine ⟨above, ?_, htype⟩
            rw [located, List.mem_cons, List.mem_append, if_pos hdirectory]
            exact .inr (.inl (List.mem_map.mpr ⟨_, habove, rfl⟩))
        · cases h
      · obtain ⟨above, habove, htype⟩ := ihrest h hne
        refine ⟨above, ?_, htype⟩
        rw [located, List.mem_cons, List.mem_append]
        exact .inr (.inr habove)

end Entries

theorem SourceInventory.item_same {inventory : SourceInventory} {p : PathBuf} {item : InventoryItem}
    (h : inventory.item p = some item) :
    item ∈ inventory.items ∧ item.relativePath.components = p.components := by
  have hsame : item.relativePath.same p = true := by
    simpa using List.find?_some (p := fun item : InventoryItem => item.relativePath.same p) h
  exact ⟨List.mem_of_find?_eq_some h, PathBuf.same_iff.mp hsame⟩

namespace SourceInventory

/-- No two items have one path. -/
def DistinctPaths (inventory : SourceInventory) : Prop :=
  (inventory.items.map (·.relativePath.components)).Nodup

instance : DecidablePred DistinctPaths := fun _ => inferInstanceAs (Decidable (List.Nodup _))

namespace DistinctPaths

variable {inventory : SourceInventory}

theorem item_eq_some (h : inventory.DistinctPaths) {p : PathBuf} {item : InventoryItem} :
    inventory.item p = some item ↔
      item ∈ inventory.items ∧ item.relativePath.components = p.components := by
  constructor
  · exact item_same
  · rintro ⟨hmem, hpath⟩
    cases hfind : inventory.item p with
    | none =>
        have hne := List.find?_eq_none.mp hfind item hmem
        exact absurd (PathBuf.same_iff.mpr hpath) hne
    | some found =>
        obtain ⟨hfound, hsame⟩ := item_same hfind
        have heq := List.inj_on_of_nodup_map h hmem hfound (hpath.trans hsame.symm)
        rw [heq]

/-- The map of the items by path holds what the inventory finds. -/
theorem getByPath_eq (h : inventory.DistinctPaths) (p : PathBuf) :
    getByPath InventoryItem.relativePath inventory.items p = inventory.item p := by
  cases hget : getByPath InventoryItem.relativePath inventory.items p with
  | none =>
      symm
      refine List.find?_eq_none.mpr fun item hitem hsame => ?_
      exact getByPath_eq_none.mp hget item hitem (PathBuf.same_iff.mp hsame)
  | some item => exact (h.item_eq_some.mpr (getByPath_mem hget)).symm

end DistinctPaths

end SourceInventory

namespace WalkScope

variable {w : WalkScope}

/-- What every inventory taken in a scope has. -/
structure InScope (w : WalkScope) (inventory : SourceInventory) : Prop where
  named : ∀ item ∈ inventory.items, ∃ names found, names ≠ [] ∧
    (∀ name ∈ names, ValidName name) ∧ item = w.itemAt ⟨[]⟩ false (names, found)
  nodup : (inventory.items.map (·.relativePath.components)).Nodup
  above : ∀ item ∈ inventory.items, ∀ names name,
    item.relativePath.components = (names ++ [name]).map Component.normal → names ≠ [] →
      ∃ item' ∈ inventory.items, item'.relativePath.components = names.map Component.normal ∧
        item'.itemType = .directory

theorem relativePath_itemAt (names : List Name) (found : Found) :
    (w.itemAt ⟨[]⟩ false (names, found)).relativePath = pathOf names := rfl

/-- The item at a place is excluded with the directory above it, or by a
pattern on its own path. -/
theorem excludedAt_concat {relativeDirectory : PathBuf} {inherited : Bool}
    {names : List Name} {name : Name} {itemType : ItemType} :
    w.excludedAt relativeDirectory inherited (names ++ [name]) itemType =
      (w.excludedAt relativeDirectory inherited names .directory ||
        w.excludes ((names ++ [name]).foldl (fun path name => path.join ⟨name⟩)
          relativeDirectory) itemType) := by
  induction names generalizing relativeDirectory inherited with
  | nil => rfl
  | cons first names ih =>
      have hne : names ++ [name] ≠ [] := by simp
      have hstep : w.excludedAt relativeDirectory inherited (first :: (names ++ [name])) itemType =
          w.excludedAt (relativeDirectory.join ⟨first⟩)
            (inherited || w.excludes (relativeDirectory.join ⟨first⟩) .directory)
            (names ++ [name]) itemType := by
        obtain ⟨head, tail, heq⟩ := List.exists_cons_of_ne_nil hne
        rw [heq]
        rfl
      rw [List.cons_append, hstep, ih]
      congr 1
      cases names <;> rfl

theorem mem_collectInventory {peer : String} {root : PathBuf} {tree : FileTree}
    {inventory : SourceInventory} (h : w.collectInventory peer root tree = .ok inventory)
    (item : InventoryItem) : item ∈ inventory.items ↔
      ∃ place ∈ tree.entries.located, w.Visible place ∧ w.itemAt ⟨[]⟩ false place = item := by
  rw [(collectInventory_perm h).mem_iff, List.mem_map]
  simp [and_assoc]

/-- **A walk leaves an inventory in its scope.** -/
theorem collectInventory_inScope {peer : String} {root : PathBuf} {tree : FileTree}
    {inventory : SourceInventory}
    (h : w.collectInventory peer root tree = .ok inventory) : w.InScope inventory := by
  have hperm := collectInventory_perm h
  have hmem := mem_collectInventory h
  have hvalid : ∀ {place}, place ∈ tree.entries.located → ∀ name ∈ place.1, ValidName name :=
    tree.wellFormed.valid
  constructor
  · intro item hitem
    obtain ⟨⟨names, found⟩, hplace, -, rfl⟩ := (hmem item).mp hitem
    exact ⟨names, found, Entries.located_ne_nil hplace, hvalid hplace, rfl⟩
  · refine (hperm.map _).nodup_iff.mpr ?_
    rw [List.map_map]
    have hplaces : ((tree.entries.located.filter fun place => w.Visible place).map
        Prod.fst).Nodup :=
      (List.filter_sublist.map Prod.fst).nodup tree.wellFormed.nodup
    refine List.Nodup.map_on (fun place hp place' hp' heq => ?_) hplaces.of_map
    have hp := List.mem_of_mem_filter hp
    have hp' := List.mem_of_mem_filter hp'
    have hnames : place.1 = place'.1 := (pathOf_inj (hvalid hp) (hvalid hp')).mp heq
    exact List.inj_on_of_nodup_map tree.wellFormed.nodup hp hp' hnames
  · intro item hitem names name hcomponents hne
    obtain ⟨⟨names', found⟩, hplace, hvisible, rfl⟩ := (hmem item).mp hitem
    rw [relativePath_itemAt, components_pathOf (hvalid hplace)] at hcomponents
    have hnames : names' = names ++ [name] :=
      List.map_injective_iff.mpr (fun _ _ h => Component.normal.inj h) hcomponents
    subst hnames
    obtain ⟨found', habove, htype⟩ := Entries.located_above hplace hne
    refine ⟨w.itemAt ⟨[]⟩ false (names, found'), (hmem _).mpr ⟨_, habove, ?_, rfl⟩, ?_, htype⟩
    · intro name' hname'
      exact hvisible name' (List.mem_append_left _ hname')
    · rw [relativePath_itemAt, components_pathOf (hvalid habove)]

namespace InScope

variable {inventory other : SourceInventory}

theorem item_eq_some (h : w.InScope inventory) {p : PathBuf} {item : InventoryItem} :
    inventory.item p = some item ↔
      item ∈ inventory.items ∧ item.relativePath.components = p.components :=
  SourceInventory.DistinctPaths.item_eq_some h.nodup

/-- The map of the items by path holds what the inventory finds. -/
theorem getByPath_eq (h : w.InScope inventory) (p : PathBuf) :
    getByPath InventoryItem.relativePath inventory.items p = inventory.item p :=
  SourceInventory.DistinctPaths.getByPath_eq h.nodup p

/-- **One scope gives a path and a type one outcome.** -/
theorem outcome_eq (h : w.InScope inventory) (h' : w.InScope other)
    {item item' : InventoryItem} (hitem : item ∈ inventory.items) (hitem' : item' ∈ other.items)
    (hpath : item.relativePath.components = item'.relativePath.components)
    (htype : item.itemType = item'.itemType) : item.outcome = item'.outcome := by
  obtain ⟨names, found, -, hvalid, rfl⟩ := h.named item hitem
  obtain ⟨names', found', -, hvalid', rfl⟩ := h'.named item' hitem'
  have hnames : names = names' := (pathOf_inj hvalid hvalid').mp hpath
  subst hnames
  have htype : found.itemType = found'.itemType := htype
  show analysisOutcome (w.excludedAt ⟨[]⟩ false names found.itemType) found.itemType =
    analysisOutcome (w.excludedAt ⟨[]⟩ false names found'.itemType) found'.itemType
  rw [htype]

/-- Above an item of the scope stands an included directory. -/
theorem ancestor (h : w.InScope inventory) {item : InventoryItem}
    (hitem : item ∈ inventory.items) {names rest : List Name}
    (hpath : item.relativePath.components = (names ++ rest).map Component.normal)
    (hne : names ≠ []) (hrest : rest ≠ []) :
    ∃ item' ∈ inventory.items, item'.relativePath.components = names.map Component.normal ∧
      item'.itemType = .directory ∧ (item.outcome ≠ .excluded → item'.outcome = .included) := by
  induction rest using List.reverseRecOn generalizing item with
  | nil => exact absurd rfl hrest
  | append_singleton rest name ih =>
      rw [← List.append_assoc] at hpath
      have hnames : names ++ rest ≠ [] := by simp [hne]
      obtain ⟨above, habove, hcomponents, htype⟩ :=
        h.above item hitem (names ++ rest) name hpath hnames
      have hincluded : item.outcome ≠ .excluded → above.outcome = .included := by
        obtain ⟨names', found, -, hvalid, rfl⟩ := h.named item hitem
        obtain ⟨names'', found', -, hvalid', rfl⟩ := h.named above habove
        have hinj : Function.Injective (List.map Component.normal) :=
          List.map_injective_iff.mpr fun _ _ h => Component.normal.inj h
        rw [relativePath_itemAt, components_pathOf hvalid] at hpath
        rw [relativePath_itemAt, components_pathOf hvalid'] at hcomponents
        obtain rfl : names' = names ++ rest ++ [name] := hinj hpath
        obtain rfl : names'' = names ++ rest := hinj hcomponents
        have htype : found'.itemType = .directory := htype
        show analysisOutcome (w.excludedAt ⟨[]⟩ false (names ++ rest ++ [name]) found.itemType)
            found.itemType ≠ .excluded →
          analysisOutcome (w.excludedAt ⟨[]⟩ false (names ++ rest) found'.itemType)
            found'.itemType = .included
        rw [excludedAt_concat, htype]
        cases w.excludedAt ⟨[]⟩ false (names ++ rest) .directory <;> simp [analysisOutcome]
      by_cases hnil : rest = []
      · subst hnil
        rw [List.append_nil] at hcomponents
        exact ⟨above, habove, hcomponents, htype, hincluded⟩
      · obtain ⟨item', hitem', hcomponents', htype', hincluded'⟩ :=
          ih habove hcomponents hnil
        refine ⟨item', hitem', hcomponents', htype', fun hin => hincluded' ?_⟩
        rw [hincluded hin]
        decide

end InScope

end WalkScope

/-! ### Small trees -/

def zeroHash : Sha256 := .ofByte 0

/-- A file of five bytes. -/
def plainFile (content : Sha256) : Found where
  itemType := .regularFile
  metadata := ⟨5, some 0, false, some 0o644, none⟩
  content := some content
  inspectError := none
  listError := none

def plainDirectory : Found where
  itemType := .directory
  metadata := ⟨0, some 0, false, some 0o755, none⟩
  content := none
  inspectError := none
  listError := none

/-- The tree of a directory with these entries. -/
def FileTree.ofEntries (entries : Entries) (h : entries.WellFormed) : FileTree :=
  ⟨some plainDirectory, entries, h⟩

/-- The tree that has this as `a`, and nothing else. -/
def FileTree.ofLetter (found : Found) : FileTree :=
  .ofEntries (.cons [97] found .nil .nil) ⟨by decide, by decide, trivial, trivial⟩

/-- The file `x` that one peer has alone. -/
def aloneItem : InventoryItem := inventoryItem ⟨[120]⟩ false (plainFile zeroHash)

def aloneTree : FileTree :=
  .ofEntries (.cons [120] (plainFile zeroHash) .nil .nil) (by decide)

theorem collectInventory_alone :
    WalkScope.collectInventory ⟨.utf8, []⟩ "Laptop" ⟨[47, 97]⟩ aloneTree =
        .ok ⟨[aloneItem]⟩ ∧
      WalkScope.collectInventory ⟨.utf8, []⟩ "Server" ⟨[47, 98]⟩ (.ofEntries .nil trivial) =
        .ok ⟨[]⟩ := by
  decide +kernel

end SyncPlus
