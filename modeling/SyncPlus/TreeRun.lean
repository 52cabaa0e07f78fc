import SyncPlus.NamesChecked
import SyncPlus.DrainComplete

/-!
# One-Way runs over trees

What the Copy and Overwrite actions of a plan leave below the destination root
(`executeTree`), on trees in which each entry that is made, renamed or removed
gives its directory a new time. A directory that replaces a directory is made anew
with what was in it: files are linked, links and directories are made again.

With a stable root, a run whose actions all succeed reaches its goal exactly when
no such change leaves a required time wrong (`one_way_goal_iff`).
-/

namespace SyncPlus

/-! ## Trees -/

/-- What stands at a place of a tree. -/
structure TreeItem where
  itemType : ItemType
  metadata : ItemMetadata
  content : Option Sha256
  deriving DecidableEq

def Found.treeItem (found : Found) : TreeItem where
  itemType := found.itemType
  metadata := found.metadata
  content := found.content

/-- The item of an inventory that finds it, without exclusions. -/
def TreeItem.inventoryItem (item : TreeItem) (names : List Name) : InventoryItem :=
  SyncPlus.inventoryItem (pathOf names) false
    ⟨item.itemType, item.metadata, item.content, none, none⟩

/-- What stands below a root, by the names that lead there. -/
abbrev TreeDisk := List Name → Option TreeItem

def FileTree.disk (tree : FileTree) : TreeDisk := fun names =>
  (tree.entries.located.find? fun place => place.1 = names).map fun place => place.2.treeItem

/-- No name on the way is that of an internal file. -/
def VisibleNames (lossy : LossyNames) (names : List Name) : Prop :=
  ∀ name ∈ names, isSyncplusInternalArtifact lossy name = false

section

variable {tree : FileTree} {names rest : List Name} {item : TreeItem} {lossy : LossyNames}
  {peer : String} {root : PathBuf} {inventory : SourceInventory}

theorem FileTree.disk_eq_some : tree.disk names = some item ↔
    ∃ found, (names, found) ∈ tree.entries.located ∧ found.treeItem = item := by
  unfold FileTree.disk
  rw [Option.map_eq_some_iff]
  constructor
  · rintro ⟨⟨names', found⟩, hfind, rfl⟩
    obtain rfl : names' = names := by
      simpa using List.find?_some (p := fun place : List Name × Found => place.1 = names) hfind
    exact ⟨found, List.mem_of_find?_eq_some hfind, rfl⟩
  · rintro ⟨found, hfound, rfl⟩
    cases hfind : tree.entries.located.find? fun place => place.1 = names with
    | none => exact absurd (List.find?_eq_none.mp hfind _ hfound) (by simp)
    | some place =>
        have hnames : place.1 = names := by
          simpa using List.find?_some (p := fun place : List Name × Found => place.1 = names) hfind
        have hsame : place = (names, found) := List.inj_on_of_nodup_map tree.wellFormed.nodup
          (List.mem_of_find?_eq_some hfind) hfound hnames
        exact ⟨place, rfl, by rw [hsame]⟩

theorem FileTree.disk_valid (h : tree.disk names = some item) :
    names ≠ [] ∧ ∀ name ∈ names, ValidName name := by
  obtain ⟨found, hfound, -⟩ := FileTree.disk_eq_some.mp h
  exact ⟨Entries.located_ne_nil hfound, tree.wellFormed.valid hfound⟩

/-- Above an item stands a directory. -/
theorem FileTree.disk_above (h : tree.disk (names ++ rest) = some item) (hne : names ≠ [])
    (hrest : rest ≠ []) :
    ∃ above, tree.disk names = some above ∧ above.itemType = .directory := by
  induction rest using List.reverseRecOn generalizing item with
  | nil => exact absurd rfl hrest
  | append_singleton rest name ih =>
      obtain ⟨found, hfound, -⟩ := FileTree.disk_eq_some.mp h
      rw [← List.append_assoc] at hfound
      obtain ⟨above, habove, hdirectory⟩ := Entries.located_above hfound (by simp [hne])
      have hdisk := FileTree.disk_eq_some.mpr ⟨above, habove, rfl⟩
      by_cases hnil : rest = []
      · subst hnil
        rw [List.append_nil] at hdisk
        exact ⟨_, hdisk, hdirectory⟩
      · exact ih hdisk hnil

theorem excludedAt_nil {relativeDirectory : PathBuf} {itemType : ItemType} :
    WalkScope.excludedAt ⟨lossy, []⟩ relativeDirectory false names itemType = false := by
  induction names generalizing relativeDirectory with
  | nil => rfl
  | cons name names ih =>
      cases names with
      | nil => rfl
      | cons name' names => exact ih

/-- **An inventory without exclusions is what stands at the visible places.** -/
theorem mem_items_disk
    (h : WalkScope.collectInventory ⟨lossy, []⟩ peer root tree = .ok inventory)
    {found : InventoryItem} : found ∈ inventory.items ↔ ∃ names item, VisibleNames lossy names ∧
      tree.disk names = some item ∧ found = item.inventoryItem names := by
  rw [(WalkScope.collectInventory_perm h).mem_iff, List.mem_map]
  have hitem : ∀ place : List Name × Found,
      WalkScope.itemAt ⟨lossy, []⟩ ⟨[]⟩ false place = place.2.treeItem.inventoryItem place.1 := by
    intro place
    unfold WalkScope.itemAt
    rw [excludedAt_nil]
    rfl
  constructor
  · rintro ⟨⟨names, here⟩, hplace, rfl⟩
    obtain ⟨hmem, hvisible⟩ := List.mem_filter.mp hplace
    have hvisible : WalkScope.Visible ⟨lossy, []⟩ (names, here) := of_decide_eq_true hvisible
    exact ⟨names, here.treeItem, hvisible, FileTree.disk_eq_some.mpr ⟨here, hmem, rfl⟩, hitem _⟩
  · rintro ⟨names, item, hvisible, hdisk, rfl⟩
    obtain ⟨here, hmem, rfl⟩ := FileTree.disk_eq_some.mp hdisk
    have hvisible : WalkScope.Visible ⟨lossy, []⟩ (names, here) := hvisible
    exact ⟨(names, here), List.mem_filter.mpr ⟨hmem, decide_eq_true hvisible⟩, hitem _⟩

theorem item_pathOf (h : WalkScope.collectInventory ⟨lossy, []⟩ peer root tree = .ok inventory)
    (hvisible : VisibleNames lossy names) (hvalid : ∀ name ∈ names, ValidName name) :
    inventory.item (pathOf names) = (tree.disk names).map (·.inventoryItem names) := by
  have hscope := WalkScope.collectInventory_inScope h
  have hsome : ∀ found, inventory.item (pathOf names) = some found ↔
      (tree.disk names).map (·.inventoryItem names) = some found := by
    intro found
    rw [hscope.item_eq_some, mem_items_disk h, Option.map_eq_some_iff]
    constructor
    · rintro ⟨⟨names', item, -, hdisk, rfl⟩, hpath⟩
      obtain rfl : names' = names := (pathOf_inj (FileTree.disk_valid hdisk).2 hvalid).mp hpath
      exact ⟨item, hdisk, rfl⟩
    · rintro ⟨item, hdisk, rfl⟩
      exact ⟨⟨names, item, hvisible, hdisk, rfl⟩, rfl⟩
  exact Option.ext hsome

end

/-! ## What an action leaves -/

/-- What the file system gives to what an action makes or changes at each place, and
the mode of a directory it makes. -/
structure TreeAnswer where
  size : List Name → UInt64
  time : List Name → Option Int
  readonly : Bool
  permissions : Option UInt32

/-- An entry of the directory, or what stands there, is made again. -/
def TreeItem.stirred (answer : TreeAnswer) (names : List Name) (item : TreeItem) : TreeItem :=
  { item with metadata := { item.metadata with
    size := if item.itemType = .directory then answer.size names else item.metadata.size
    modifiedAt := answer.time names } }

/-- `preserve_existing_directory`, for one entry below: a file is linked, a directory
is made with its mode, a link is made with its target. -/
def TreeItem.preserved (answer : TreeAnswer) (names : List Name) (item : TreeItem) : TreeItem :=
  if item.itemType = .regularFile then item else item.stirred answer names

/-- What is installed for the item of the source: what `rsync -a` copies, or a new
directory with the mode and the time that are required. -/
def TreeItem.staged (metadata : MetadataRequirements) (answer : TreeAnswer) (names : List Name)
    (item : TreeItem) : TreeItem :=
  if item.itemType = .directory then
    { item with metadata := {
        size := answer.size names
        modifiedAt := if metadata.timestamps then item.metadata.modifiedAt else answer.time names
        readonly := answer.readonly
        permissions :=
          if metadata.executablePermissions then item.metadata.permissions else answer.permissions
        symlinkTarget := item.metadata.symlinkTarget } }
  else item

/-- The item of the source is installed at these names, and its directory has a new
entry. A directory keeps what was in the one it replaces. -/
def TreeDisk.install (metadata : MetadataRequirements) (answer : TreeAnswer) (names : List Name)
    (item : TreeItem) (disk : TreeDisk) : TreeDisk := fun place =>
  if place = names then some (item.staged metadata answer names)
  else if names <+: place then
    if item.itemType = .directory ∧
        (disk names).any (fun old => old.itemType = .directory) = true then
      (disk place).map (·.preserved answer place)
    else none
  else if place = names.dropLast then (disk place).map (·.stirred answer place)
  else disk place

/-- One Copy or Overwrite. -/
def executeAction (metadata : MetadataRequirements) (answers : ActionId → TreeAnswer)
    (source : TreeDisk) (disk : TreeDisk) (action : PlanAction) : TreeDisk :=
  match source (namesOf action.relativePath) with
  | some item =>
      disk.install metadata (answers action.actionId) (namesOf action.relativePath) item
  | none => disk

def executeTree (metadata : MetadataRequirements) (answers : ActionId → TreeAnswer)
    (source : TreeDisk) (actions : List PlanAction) (disk : TreeDisk) : TreeDisk :=
  actions.foldl (executeAction metadata answers source) disk

/-- The action makes a new entry in the directory, or makes again what stands below
the directory it replaces. -/
def PlanAction.Stirs (action : PlanAction) (names : List Name) (item : TreeItem) : Prop :=
  (namesOf action.relativePath).dropLast = names ∨
    (namesOf action.relativePath <+: names ∧ item.itemType ≠ .regularFile)

instance (action : PlanAction) (names : List Name) (item : TreeItem) :
    Decidable (action.Stirs names item) :=
  inferInstanceAs (Decidable (_ ∨ _))

/-- The time that the run gives last to what stands at the names, when it does so
after it has installed the item there. -/
def givenTime (answers : ActionId → TreeAnswer) (actions : List PlanAction) (names : List Name)
    (item : TreeItem) : Option (Option Int) :=
  actions.foldl (fun given action =>
    if namesOf action.relativePath = names then none
    else if action.Stirs names item then some ((answers action.actionId).time names)
    else given) none

/-! ## Equal items -/

/-- The requirements less the timestamps. -/
def MetadataRequirements.untimed (metadata : MetadataRequirements) : MetadataRequirements :=
  { metadata with timestamps := false }

/-- The values of an item that equality looks at. -/
def TreeItem.parts (item : TreeItem) : MirrorParts := (item.inventoryItem []).parts

section

variable {metadata : MetadataRequirements} {answer : TreeAnswer} {names : List Name}
  {item found : TreeItem}

theorem equalParts_untimed {left right : MirrorParts} : equalParts metadata left right = true ↔
    equalParts metadata.untimed left right = true ∧
      (metadata.timestamps = true → left.modifiedAt = right.modifiedAt) := by
  rw [equalParts_iff, equalParts_iff]
  unfold MirrorParts.Comparable MirrorParts.compared MetadataRequirements.untimed
  simp only [Prod.mk.injEq]
  cases metadata.timestamps with
  | true => simp [and_assoc]
  | false => simp

theorem TreeItem.itemType_eq (h : equalParts metadata item.parts found.parts = true) :
    item.itemType = found.itemType :=
  congrArg Prod.fst (equalParts_iff.mp h).2

theorem TreeItem.preserved_of_file (h : found.itemType = .regularFile) :
    found.preserved answer names = found := by
  unfold TreeItem.preserved
  rw [if_pos h]

theorem TreeItem.preserved_of_ne (h : found.itemType ≠ .regularFile) :
    found.preserved answer names = found.stirred answer names := by
  unfold TreeItem.preserved
  rw [if_neg h]

/-- A new time, and a new size of a directory, leave an item equal otherwise. -/
theorem equal_stirred (h : equalParts metadata.untimed item.parts found.parts = true)
    (htype : found.itemType ≠ .regularFile) :
    equalParts metadata.untimed item.parts (found.stirred answer names).parts = true := by
  obtain ⟨hcomparable, hcompared⟩ := equalParts_iff.mp h
  refine equalParts_iff.mpr ⟨hcomparable, hcompared.trans ?_⟩
  have hfile : found.parts.itemType ≠ .regularFile := htype
  unfold MirrorParts.compared
  rw [if_neg hfile, if_neg (show (found.stirred answer names).parts.itemType ≠ .regularFile from
    htype)]
  unfold TreeItem.parts TreeItem.stirred TreeItem.inventoryItem inventoryItem metadataSnapshot
  by_cases hlink : found.itemType = .symlink <;>
    simp [hlink, InventoryItem.parts, ItemMetadata.executablePermissions,
      MetadataRequirements.untimed]

/-- What is installed is equal to the item of the source, a new directory's time
apart where none is required. -/
theorem equal_staged (hspecialist : metadata.specialist.any = false)
    (hcontent : item.itemType = .regularFile → item.content ≠ none) :
    equalParts metadata item.parts (item.staged metadata answer names).parts = true := by
  refine equalParts_iff.mpr ⟨⟨hspecialist, ?_⟩, ?_⟩
  · intro hfile
    have hfile : item.itemType = .regularFile := hfile
    unfold TreeItem.parts TreeItem.inventoryItem inventoryItem analysisOutcome
    simp [InventoryItem.parts, hfile, hcontent hfile]
  · unfold TreeItem.staged
    split
    · rename_i hdirectory
      unfold MirrorParts.compared TreeItem.parts TreeItem.inventoryItem inventoryItem
        metadataSnapshot
      cases metadata.executablePermissions <;> cases metadata.timestamps <;>
        simp [hdirectory, InventoryItem.parts, ItemMetadata.executablePermissions]
    · rfl

end

/-! ## What a run leaves -/

/-- What a One-Way plan of the two trees is to a run: every action installs an item of
the source, none comes after one at its own path or below, and what has no action is
equal at the destination. -/
structure PlansTree (metadata : MetadataRequirements) (Visible : List Name → Prop)
    (source destination : TreeDisk) (actions : List PlanAction) : Prop where
  aboveSource : ∀ names rest item, source (names ++ rest) = some item → names ≠ [] → rest ≠ [] →
    ∃ above, source names = some above ∧ above.itemType = .directory
  aboveDestination : ∀ names rest item, destination (names ++ rest) = some item → names ≠ [] →
    rest ≠ [] → ∃ above, destination names = some above ∧ above.itemType = .directory
  rooted : ∀ names item, source names = some item → names ≠ []
  specialist : metadata.specialist.any = false
  sourced : ∀ action ∈ actions, ∃ item, source (namesOf action.relativePath) = some item ∧
    (item.itemType = .regularFile → item.content ≠ none)
  ordered : actions.Pairwise fun action action' =>
    ¬ namesOf action'.relativePath <+: namesOf action.relativePath
  equal : ∀ names item, Visible names → source names = some item →
    (∀ action ∈ actions, namesOf action.relativePath ≠ names) →
      ∃ found, destination names = some found ∧
        equalParts metadata item.parts found.parts = true

section

variable {metadata : MetadataRequirements} {answers : ActionId → TreeAnswer}
  {Visible : List Name → Prop} {source destination : TreeDisk} {actions earlier : List PlanAction}
  {action : PlanAction} {names : List Name} {item found : TreeItem}

theorem modifiedAt_parts (item : TreeItem) :
    item.parts.modifiedAt = intoUnixNanos item.metadata.modifiedAt := by
  show intoUnixNanos (metadataSnapshot _).modifiedAt = _
  unfold metadataSnapshot
  split <;> rfl

theorem executeTree_concat :
    executeTree metadata answers source (earlier ++ [action]) destination =
      executeAction metadata answers source
        (executeTree metadata answers source earlier destination) action := by
  unfold executeTree
  rw [List.foldl_append]
  rfl

theorem executeAction_of {disk : TreeDisk}
    (h : source (namesOf action.relativePath) = some item) :
    executeAction metadata answers source disk action =
      disk.install metadata (answers action.actionId) (namesOf action.relativePath) item := by
  unfold executeAction
  rw [h]

theorem givenTime_concat :
    givenTime answers (earlier ++ [action]) names item =
      if namesOf action.relativePath = names then none
      else if action.Stirs names item then some ((answers action.actionId).time names)
      else givenTime answers earlier names item := by
  unfold givenTime
  rw [List.foldl_append]
  rfl

theorem exists_rest_of_isPrefix {above names : List Name} (h : above <+: names)
    (hne : names ≠ above) : ∃ rest, names = above ++ rest ∧ rest ≠ [] := by
  obtain ⟨rest, rfl⟩ := h
  refine ⟨rest, rfl, ?_⟩
  rintro rfl
  exact hne (List.append_nil _)

namespace PlansTree

/-- A directory of both trees is one throughout the run. -/
theorem directory (h : PlansTree metadata Visible source destination actions)
    (hrun : ∀ action ∈ earlier, action ∈ actions) (hne : names ≠ [])
    (hsource : source names = some item) (hitem : item.itemType = .directory)
    (hdestination : destination names = some found) (hfound : found.itemType = .directory) :
    ∃ left, executeTree metadata answers source earlier destination names = some left ∧
      left.itemType = .directory := by
  induction earlier using List.reverseRecOn generalizing names item found with
  | nil => exact ⟨found, hdestination, hfound⟩
  | append_singleton earlier action ih =>
      have hbefore : ∀ action ∈ earlier, action ∈ actions := fun a ha =>
        hrun a (List.mem_append_left _ ha)
      obtain ⟨installed, hinstalled, -⟩ := h.sourced action (hrun action (by simp))
      have hplace := h.rooted _ _ hinstalled
      obtain ⟨left, hleft, hdirectory⟩ :=
        ih hbefore hne hsource hitem hdestination hfound
      rw [executeTree_concat]
      rw [executeAction_of hinstalled]
      unfold TreeDisk.install
      by_cases hhere : names = namesOf action.relativePath
      · rw [if_pos hhere]
        rw [← hhere, hsource] at hinstalled
        obtain rfl := Option.some.inj hinstalled
        refine ⟨_, rfl, ?_⟩
        unfold TreeItem.staged
        rw [if_pos hitem]
        exact hitem
      · rw [if_neg hhere]
        by_cases habove : namesOf action.relativePath <+: names
        · rw [if_pos habove]
          obtain ⟨rest, hrest, hrestne⟩ := exists_rest_of_isPrefix habove hhere
          -- the directory that is replaced holds this one
          obtain ⟨above, habove', habovetype⟩ :=
            h.aboveSource _ rest item (hrest ▸ hsource) hplace hrestne
          rw [hinstalled] at habove'
          obtain rfl := Option.some.inj habove'
          obtain ⟨old, hold, holdtype⟩ :=
            h.aboveDestination _ rest found (hrest ▸ hdestination) hplace hrestne
          obtain ⟨kept, hkept, hkepttype⟩ :=
            ih hbefore hplace hinstalled habovetype hold holdtype
          rw [if_pos ⟨habovetype, by rw [hkept]; simpa using hkepttype⟩, hleft]
          refine ⟨_, rfl, ?_⟩
          show (left.preserved _ _).itemType = .directory
          rw [TreeItem.preserved_of_ne (by rw [hdirectory]; nofun)]
          exact hdirectory
        · rw [if_neg habove]
          split
          · rw [hleft]
            exact ⟨_, rfl, hdirectory⟩
          · exact ⟨left, hleft, hdirectory⟩

/-- What stands at the names is as it will be, but for what the run stirs. -/
def SettledAt (actions earlier : List PlanAction) (names : List Name) : Prop :=
  (∃ action ∈ earlier, namesOf action.relativePath = names) ∨
    ∀ action ∈ actions, namesOf action.relativePath ≠ names

/-- **What the run has left** at a place that is settled: an equal item, with the time
that the run has given it last. -/
theorem settled (h : PlansTree metadata Visible source destination actions)
    {later : List PlanAction} (hrun : actions = earlier ++ later) (hvisible : Visible names)
    (hsource : source names = some item) (hsettled : SettledAt actions earlier names) :
    ∃ left, executeTree metadata answers source earlier destination names = some left ∧
      equalParts metadata.untimed item.parts left.parts = true ∧
      (metadata.timestamps = true → left.parts.modifiedAt =
        intoUnixNanos ((givenTime answers earlier names item).getD item.metadata.modifiedAt)) := by
  induction earlier using List.reverseRecOn generalizing later with
  | nil =>
      rcases hsettled with ⟨_, hmem, _⟩ | hnone
      · cases hmem
      · obtain ⟨found, hfound, hequal⟩ := h.equal names item hvisible hsource hnone
        obtain ⟨huntimed, htime⟩ := equalParts_untimed.mp hequal
        refine ⟨found, hfound, huntimed, fun htimestamps => ?_⟩
        rw [← htime htimestamps, modifiedAt_parts]
        rfl
  | append_singleton earlier action ih =>
      have hrun' : actions = earlier ++ action :: later := by
        rw [hrun, List.append_assoc]
        rfl
      have hmem : action ∈ actions := by
        rw [hrun']
        simp
      have hbefore : ∀ a ∈ earlier, a ∈ actions := by
        intro a ha
        rw [hrun']
        exact List.mem_append_left _ ha
      have hordered := h.ordered
      rw [hrun'] at hordered
      obtain ⟨-, -, hcross⟩ := List.pairwise_append.mp hordered
      obtain ⟨installed, hinstalled, hcontent⟩ := h.sourced action hmem
      have hplace := h.rooted _ _ hinstalled
      rw [executeTree_concat, givenTime_concat]
      rw [executeAction_of hinstalled]
      unfold TreeDisk.install
      by_cases hhere : namesOf action.relativePath = names
      · rw [if_pos hhere.symm, if_pos hhere]
        rw [hhere, hsource] at hinstalled
        obtain rfl := Option.some.inj hinstalled
        obtain ⟨huntimed, htime⟩ := equalParts_untimed.mp (equal_staged h.specialist hcontent)
        refine ⟨_, rfl, huntimed, fun htimestamps => ?_⟩
        rw [← htime htimestamps, modifiedAt_parts]
        rfl
      · rw [if_neg (fun heq => hhere heq.symm), if_neg hhere]
        have hsettled' : SettledAt actions earlier names := by
          rcases hsettled with ⟨a, ha, hat⟩ | hnone
          · rcases List.mem_append.mp ha with ha | ha
            · exact .inl ⟨a, ha, hat⟩
            · rw [List.mem_singleton.mp ha] at hat
              exact absurd hat hhere
          · exact .inr hnone
        obtain ⟨left, hleft, hequal, htime⟩ := ih hrun' hsettled'
        have htype : item.itemType = left.itemType := TreeItem.itemType_eq hequal
        by_cases habove : namesOf action.relativePath <+: names
        · rw [if_pos habove]
          obtain ⟨rest, hrest, hrestne⟩ := exists_rest_of_isPrefix habove fun heq => hhere heq.symm
          -- nothing was installed here before, for the plan goes downwards
          have hnone : ∀ a ∈ actions, namesOf a.relativePath ≠ names := by
            rcases hsettled' with ⟨a, ha, hat⟩ | hnone
            · exact absurd (hat ▸ habove) (hcross a ha action (.head _))
            · exact hnone
          obtain ⟨found, hfound, hfoundEqual⟩ := h.equal names item hvisible hsource hnone
          obtain ⟨above, habove', habovetype⟩ :=
            h.aboveSource _ rest item (hrest ▸ hsource) hplace hrestne
          rw [hinstalled] at habove'
          obtain rfl := Option.some.inj habove'
          obtain ⟨old, hold, holdtype⟩ :=
            h.aboveDestination _ rest found (hrest ▸ hfound) hplace hrestne
          obtain ⟨kept, hkept, hkepttype⟩ :=
            h.directory hbefore hplace hinstalled habovetype hold holdtype
          rw [if_pos ⟨habovetype, by rw [hkept]; simpa using hkepttype⟩, hleft, Option.map_some]
          by_cases hfile : item.itemType = .regularFile
          · have hstill : ¬ action.Stirs names item := by
              rintro (hparent | ⟨-, hnot⟩)
              · have hlength := congrArg List.length hparent
                rw [List.length_dropLast] at hlength
                have := habove.length_le
                have := List.length_pos_iff.mpr hplace
                omega
              · exact hnot hfile
            rw [TreeItem.preserved_of_file (htype ▸ hfile), if_neg hstill]
            exact ⟨left, rfl, hequal, htime⟩
          · have hfile' : left.itemType ≠ .regularFile := htype ▸ hfile
            rw [TreeItem.preserved_of_ne hfile', if_pos (.inr ⟨habove, hfile⟩)]
            refine ⟨_, rfl, equal_stirred hequal hfile', fun _ => ?_⟩
            rw [modifiedAt_parts]
            rfl
        · rw [if_neg habove]
          by_cases hparent : names = (namesOf action.relativePath).dropLast
          · -- a directory that gets an entry
            have hne : names ≠ [] := h.rooted names item hsource
            obtain ⟨above, habove', habovetype⟩ := h.aboveSource names
              [(namesOf action.relativePath).getLast hplace] installed
              (by rw [hparent, List.dropLast_append_getLast]; exact hinstalled) hne (by simp)
            rw [hsource] at habove'
            obtain rfl := Option.some.inj habove'
            have hfile' : left.itemType ≠ .regularFile := by
              rw [← htype, habovetype]
              nofun
            rw [if_pos hparent, if_pos (.inl hparent.symm), hleft, Option.map_some]
            refine ⟨_, rfl, equal_stirred hequal hfile', fun _ => ?_⟩
            rw [modifiedAt_parts]
            rfl
          · have hstill : ¬ action.Stirs names item := by
              rintro (hsame | ⟨hway, -⟩)
              · exact hparent hsame.symm
              · exact habove hway
            rw [if_neg hparent, if_neg hstill]
            exact ⟨left, hleft, hequal, htime⟩

end PlansTree

end

/-! ## The plan of two trees -/

section

variable {w : WalkScope} {specification : ProcessSpecification}
  {source destination : SourceInventory} {draft : ActionDraft}

/-- A One-Way plan without Safe Delete and Destination Cleanup only transfers. -/
theorem mem_transferDrafts (hmode : specification.mode = .oneWay)
    (hsafe : specification.options.safeDelete = false)
    (hcleanup : specification.options.destinationCleanup = false) :
    draft ∈ planDrafts specification source destination ↔ ∃ item ∈ source.items,
      item.outcome = .included ∧
      transferKind specification.options.metadata item
        (sourceByPath destination item.relativePath) = some draft.kind ∧
      draft = ⟨item.relativePath, draft.kind, .ofSource specification.source, dataSize item⟩ := by
  rw [mem_oneWayDrafts hmode]
  constructor
  · rintro (⟨item, hmem, hincluded, heq, htransfer | ⟨-, hremoves, -⟩⟩ | ⟨hcleans, -⟩)
    · exact ⟨item, hmem, hincluded, htransfer, heq⟩
    · rw [hsafe] at hremoves
      cases hremoves
    · rw [hcleanup] at hcleans
      cases hcleans
  · rintro ⟨item, hmem, hincluded, htransfer, heq⟩
    exact .inl ⟨item, hmem, hincluded, heq, .inl htransfer⟩

/-- In a sorted inventory nothing comes after what lies below it. -/
theorem namesOf_pairwise (hscope : w.InScope source)
    (hsorted : source.items.Pairwise fun i j =>
      (compare i.relativePath.components j.relativePath.components).isLE = true) :
    source.items.Pairwise fun i j => ¬ namesOf j.relativePath <+: namesOf i.relativePath := by
  have hdistinct := List.pairwise_map.mp hscope.nodup
  refine (hsorted.and hdistinct).imp_of_mem fun {i j} hi hj ⟨hle, hne⟩ hway => ?_
  obtain ⟨rest, hrest⟩ := hway
  have hpath : i.relativePath.components =
      j.relativePath.components ++ rest.map Component.normal := by
    rw [(components_of_namesOf hscope hi).2, (components_of_namesOf hscope hj).2, ← hrest,
      List.map_append]
  by_cases hnil : rest = []
  · subst hnil
    exact hne (by rw [hpath]; simp)
  · have hgt : compare i.relativePath.components j.relativePath.components = .gt := by
      rw [Std.OrientedOrd.eq_swap (a := i.relativePath.components), hpath,
        compare_append (by simpa using hnil)]
      rfl
    rw [hgt] at hle
    cases hle

theorem transferDrafts_ordered (destination : SourceInventory)
    (hmode : specification.mode = .oneWay)
    (hsafe : specification.options.safeDelete = false)
    (hcleanup : specification.options.destinationCleanup = false) (hscope : w.InScope source)
    (hsorted : source.items.Pairwise fun i j =>
      (compare i.relativePath.components j.relativePath.components).isLE = true) :
    (planDrafts specification source destination).Pairwise fun draft draft' =>
      ¬ namesOf draft'.relativePath <+: namesOf draft.relativePath := by
  have hcleanups : cleanupDrafts specification source destination = [] := by
    unfold cleanupDrafts
    rw [hcleanup]
    rfl
  rw [planDrafts_oneWay hmode, hcleanups, List.append_nil]
  refine List.pairwise_flatMap.mpr ⟨fun item _ => ?_, ?_⟩
  · unfold sourceDrafts
    dsimp only
    rw [hsafe, if_neg (by simp), List.append_nil]
    cases transferKind specification.options.metadata item
      (sourceByPath destination item.relativePath) <;> simp
  · refine ((namesOf_pairwise hscope hsorted).sublist List.filter_sublist).imp ?_
    intro i j hbelow draft hdraft draft' hdraft'
    rw [relativePath_of_sourceDrafts hdraft, relativePath_of_sourceDrafts hdraft']
    exact hbelow

end

/-! ## Times -/

/-- Times that are equal as 64-bit numbers are equal in a frozen inventory. -/
theorem unixNanos_congr {time time' : Option Int} (h : intoUnixNanos time = intoUnixNanos time') :
    unixNanos time = unixNanos time' := by
  have hsome : ∀ {time : Option Int} {nanos : Int64}, intoUnixNanos time = some nanos →
      time = some nanos.toInt := by
    intro time nanos hnanos
    obtain ⟨t, rfl, ht⟩ := Option.bind_eq_some_iff.mp hnanos
    split at ht <;> rename_i hrange
    · rw [← Option.some.inj ht, Int64.toInt_ofInt_of_le hrange.1 hrange.2]
    · cases ht
  have hnone : ∀ {time : Option Int}, intoUnixNanos time = none → unixNanos time = none := by
    intro time hnanos
    refine Option.bind_eq_none_iff.mpr fun t ht => ?_
    have hrange := Option.bind_eq_none_iff.mp hnanos t ht
    split at hrange <;> rename_i hout
    · cases hrange
    · rw [if_neg]
      intro hin
      exact hout ⟨by omega, by omega⟩
  cases htime : intoUnixNanos time with
  | none => rw [hnone htime, hnone (h.symm.trans htime)]
  | some nanos => rw [hsome htime, hsome (h.symm.trans htime)]

section

variable {metadata : MetadataRequirements} {item found : TreeItem} {names : List Name}

theorem inventoryItem_included (names : List Name) (hitem : item.itemType ≠ .unsupported) :
    (item.inventoryItem names).outcome = .included := by
  show analysisOutcome false item.itemType = .included
  unfold analysisOutcome
  rw [if_neg (by simp), if_neg hitem]

/-- Items that are equal in two inventories are equal in a frozen one. -/
theorem equal_fromItem (hitem : item.itemType ≠ .unsupported)
    (h : equalParts metadata item.parts found.parts = true) :
    MirrorEquality.equal ⟨metadata⟩ (.fromItem (item.inventoryItem names))
      (.fromItem (found.inventoryItem names)) = true := by
  obtain ⟨huntimed, htime⟩ := equalParts_untimed.mp h
  have hfound : found.itemType ≠ .unsupported := TreeItem.itemType_eq h ▸ hitem
  refine MirrorEquality.equal_iff.mpr ⟨inventoryItem_included names hitem,
    inventoryItem_included names hfound, equalParts_untimed.mpr ⟨?_, ?_⟩⟩
  · rw [← huntimed]
    rfl
  · intro htimestamps
    have hmodified := htime htimestamps
    exact unixNanos_congr hmodified

end

/-! ## Runs and what is found afterwards -/

/-- A One-Way run over two trees of files, directories and links whose actions all
succeed, and the moment after it, at which nobody else has changed the trees. -/
structure CompletedTreeRun (fs fs' : FileSystem) (answers : ActionId → TreeAnswer)
    (profile : SyncProfile) (analysis analysis' : FreshAnalysis)
    (journal : List ActionJournalEntry) : Prop where
  oneWay : profile.mode = .oneWay
  unfiltered : profile.exclusions = []
  safeDelete : profile.options.safeDelete = false
  cleanup : profile.options.destinationCleanup = false
  specialist : profile.options.metadata.specialist.any = false
  analyzed : FreshAnalysis.analyze fs profile = .ok analysis
  supported : ∀ root names item, VisibleNames fs.lossy names →
    root = profile.sourcePeer.root ∨ root = (analysisDestinationPeer fs.isDir profile).root →
    (fs.tree root).disk names = some item → item.itemType ≠ .unsupported
  /-- The bytes that were sent have been read. -/
  sourced : ∀ action ∈ analysis.actions, ∀ item,
    (fs.tree profile.sourcePeer.root).disk (namesOf action.relativePath) = some item →
      item.itemType = .regularFile → item.content ≠ none
  completed : ∀ entry ∈ journal, entry.outcome = .completed
  lossy : fs'.lossy = fs.lossy
  stable : StableRoot fs.isDir fs'.isDir profile
  source : ∀ names, VisibleNames fs.lossy names →
    (fs'.tree profile.sourcePeer.root).disk names = (fs.tree profile.sourcePeer.root).disk names
  destination : ∀ names, VisibleNames fs.lossy names →
    (fs'.tree (analysisDestinationPeer fs.isDir profile).root).disk names =
      executeTree profile.options.metadata answers (fs.tree profile.sourcePeer.root).disk
        analysis.actions (fs.tree (analysisDestinationPeer fs.isDir profile).root).disk names
  analyzedAfter : FreshAnalysis.analyze fs' profile = .ok analysis'

/-- The run has reached its goal: nothing is left to transfer, and the trees are
found as they should be. -/
def GoalReached (analysis analysis' : FreshAnalysis) (journal : List ActionJournalEntry) : Prop :=
  (∀ action ∈ analysis'.actions, ¬ action.kind.Transfers) ∧
    (CompletionReconciliation.reconcile analysis.profile analysis.sourceSnapshot analysis'
      journal).findings = []

/-- What the run changes at a place after it has installed the item there leaves it
the time of the source. -/
def TimesKept (fs : FileSystem) (answers : ActionId → TreeAnswer) (profile : SyncProfile)
    (actions : List PlanAction) : Prop :=
  ∀ names item time, VisibleNames fs.lossy names →
    (fs.tree profile.sourcePeer.root).disk names = some item →
    givenTime answers actions names item = some time →
      intoUnixNanos time = intoUnixNanos item.metadata.modifiedAt

section

variable {fs fs' : FileSystem} {answers : ActionId → TreeAnswer} {profile : SyncProfile}
  {analysis analysis' : FreshAnalysis} {journal : List ActionJournalEntry} {names : List Name}
  {item : TreeItem}

/-- The inventories of an analysis without exclusions are the two trees. -/
structure OfTrees (fs : FileSystem) (profile : SyncProfile) (root : PathBuf)
    (analysis : FreshAnalysis) : Prop where
  profile_eq : analysis.profile = profile
  oneWay : analysis.specification.mode = .oneWay
  options : analysis.specification.options.toSyncOptions = profile.options
  source : ∃ peer root, WalkScope.collectInventory ⟨fs.lossy, []⟩ peer root
    (fs.tree profile.sourcePeer.root) = .ok analysis.sourceInventory
  destination : ∃ peer root', WalkScope.collectInventory ⟨fs.lossy, []⟩ peer root'
    (fs.tree root) = .ok analysis.destinationInventory

theorem ofTrees_of_analyze (hmode : profile.mode = .oneWay) (hexclusions : profile.exclusions = [])
    (h : FreshAnalysis.analyze fs profile = .ok analysis) :
    OfTrees fs profile (analysisDestinationPeer fs.isDir profile).root analysis := by
  obtain ⟨hprofile, hspecified, -, ⟨peer, hsource⟩, peer', hdestination⟩ :=
    walked_of_analyze .peerA h
  have hone : analysis.specification.mode = .oneWay := hspecified.trans hmode
  unfold sendingInventory checkedRoots at hsource
  unfold receivingInventory writtenRoot at hdestination
  rw [hone, hmode, hexclusions] at hsource hdestination
  exact ⟨hprofile, hone, by rw [analysis.options_eq, hprofile], ⟨peer, _, hsource⟩,
    peer', _, hdestination⟩

/-- Nothing is transferred exactly where the destination has an equal item. -/
theorem transferKind_eq_none (names : List Name) {metadata : MetadataRequirements}
    {destination : Option TreeItem} (hitem : item.itemType ≠ .unsupported)
    (hdestination : ∀ found, destination = some found → found.itemType ≠ .unsupported) :
    transferKind metadata (item.inventoryItem names)
        (destination.map (·.inventoryItem names)) = none ↔
      ∃ found, destination = some found ∧ equalParts metadata item.parts found.parts = true := by
  cases destination with
  | none =>
      constructor
      · intro hnone
        cases hnone
      · rintro ⟨found, hfound, -⟩
        cases hfound
  | some found =>
      have hincluded := inventoryItem_included names (hdestination found rfl)
      have hequal : MirrorEquality.equalInventory ⟨metadata⟩ (item.inventoryItem names)
          (found.inventoryItem names) = equalParts metadata item.parts found.parts := by
        unfold MirrorEquality.equalInventory
        rw [if_neg (by simp [inventoryItem_included names hitem, hincluded])]
        rfl
      have heligible : (found.inventoryItem names).isEligible = true := by
        simpa [InventoryItem.isEligible] using hincluded
      rw [Option.map_some]
      unfold transferKind
      dsimp only
      simp only [heligible, hequal, Option.some.injEq, exists_eq_left']
      cases equalParts metadata item.parts found.parts <;> simp

namespace OfTrees

variable {root : PathBuf} {action : PlanAction}

theorem source_item (h : OfTrees fs profile root analysis) (hvisible : VisibleNames fs.lossy names)
    (hvalid : ∀ name ∈ names, ValidName name) : analysis.sourceInventory.item (pathOf names) =
      ((fs.tree profile.sourcePeer.root).disk names).map (·.inventoryItem names) := by
  obtain ⟨peer, place, hsource⟩ := h.source
  exact item_pathOf hsource hvisible hvalid

theorem destination_item (h : OfTrees fs profile root analysis)
    (hvisible : VisibleNames fs.lossy names) (hvalid : ∀ name ∈ names, ValidName name) :
    analysis.destinationInventory.item (pathOf names) =
      ((fs.tree root).disk names).map (·.inventoryItem names) := by
  obtain ⟨peer, place, hdestination⟩ := h.destination
  exact item_pathOf hdestination hvisible hvalid

theorem destination_byPath (h : OfTrees fs profile root analysis)
    (hvisible : VisibleNames fs.lossy names) (hvalid : ∀ name ∈ names, ValidName name) :
    sourceByPath analysis.destinationInventory (pathOf names) =
      ((fs.tree root).disk names).map (·.inventoryItem names) := by
  obtain ⟨peer, place, hdestination⟩ := h.destination
  rw [← h.destination_item hvisible hvalid]
  exact (WalkScope.collectInventory_inScope hdestination).getByPath_eq _

/-- Every action transfers a visible item of the source. -/
theorem action_item (h : OfTrees fs profile root analysis)
    (hsafe : profile.options.safeDelete = false)
    (hcleanup : profile.options.destinationCleanup = false) (hmem : action ∈ analysis.actions) :
    ∃ names item, VisibleNames fs.lossy names ∧
      (fs.tree profile.sourcePeer.root).disk names = some item ∧
      action.relativePath = pathOf names ∧
      transferKind profile.options.metadata (item.inventoryItem names)
        (((fs.tree root).disk names).map (·.inventoryItem names)) = some action.kind := by
  have hdraft := draft_mem_of_mem ((buildPlan_eq_ok.mp analysis.planned).1 ▸ hmem)
  obtain ⟨found, hfound, -, htransfer, heq⟩ := (mem_transferDrafts h.oneWay
    (by rw [h.options, hsafe]) (by rw [h.options, hcleanup])).mp hdraft
  obtain ⟨peer, place, hsource⟩ := h.source
  obtain ⟨names, item, hvisible, hdisk, rfl⟩ := (mem_items_disk hsource).mp hfound
  refine ⟨names, item, hvisible, hdisk, congrArg ActionDraft.relativePath heq, ?_⟩
  rw [← h.destination_byPath hvisible (FileTree.disk_valid hdisk).2, ← h.options]
  exact htransfer

/-- What is to be transferred has its action. -/
theorem exists_action (h : OfTrees fs profile root analysis)
    (hsafe : profile.options.safeDelete = false)
    (hcleanup : profile.options.destinationCleanup = false) {kind : PlanActionKind}
    (hvisible : VisibleNames fs.lossy names)
    (hdisk : (fs.tree profile.sourcePeer.root).disk names = some item)
    (hitem : item.itemType ≠ .unsupported)
    (htransfer : transferKind profile.options.metadata (item.inventoryItem names)
      (((fs.tree root).disk names).map (·.inventoryItem names)) = some kind) :
    ∃ action ∈ analysis.actions, action.kind = kind ∧ action.relativePath = pathOf names := by
  obtain ⟨peer, place, hsource⟩ := h.source
  have hdraft : (⟨pathOf names, kind, .ofSource analysis.specification.source,
      dataSize (item.inventoryItem names)⟩ : ActionDraft) ∈
        planDrafts analysis.specification analysis.sourceInventory
          analysis.destinationInventory := by
    refine (mem_transferDrafts h.oneWay (by rw [h.options, hsafe])
      (by rw [h.options, hcleanup])).mpr ⟨item.inventoryItem names,
        (mem_items_disk hsource).mpr ⟨names, item, hvisible, hdisk, rfl⟩,
        inventoryItem_included names hitem, ?_, rfl⟩
    rw [h.options]
    refine Eq.trans ?_ htransfer
    rw [← h.destination_byPath hvisible (FileTree.disk_valid hdisk).2]
    rfl
  obtain ⟨action, haction, heq⟩ := exists_mem_of_draft_mem hdraft
  rw [← (buildPlan_eq_ok.mp analysis.planned).1] at haction
  exact ⟨action, haction, congrArg ActionDraft.kind heq,
    congrArg ActionDraft.relativePath heq⟩

/-- The names of actions go downwards. -/
theorem actions_ordered (h : OfTrees fs profile root analysis)
    (hsafe : profile.options.safeDelete = false)
    (hcleanup : profile.options.destinationCleanup = false) :
    analysis.actions.Pairwise fun action action' =>
      ¬ namesOf action'.relativePath <+: namesOf action.relativePath := by
  obtain ⟨peer, place, hsource⟩ := h.source
  have hdrafts := transferDrafts_ordered analysis.destinationInventory h.oneWay
    (by rw [h.options, hsafe]) (by rw [h.options, hcleanup])
    (WalkScope.collectInventory_inScope hsource) (sorted_of_collectInventory hsource)
  rw [← map_draft_numberDrafts (planDrafts _ _ _), List.pairwise_map] at hdrafts
  rw [(buildPlan_eq_ok.mp analysis.planned).1]
  exact hdrafts

end OfTrees

namespace CompletedTreeRun

theorem ofTrees (h : CompletedTreeRun fs fs' answers profile analysis analysis' journal) :
    OfTrees fs profile (analysisDestinationPeer fs.isDir profile).root analysis :=
  ofTrees_of_analyze h.oneWay h.unfiltered h.analyzed

theorem ofTrees_after (h : CompletedTreeRun fs fs' answers profile analysis analysis' journal) :
    OfTrees fs' profile (analysisDestinationPeer fs.isDir profile).root analysis' := by
  rw [← h.stable.analysis]
  exact ofTrees_of_analyze h.oneWay h.unfiltered h.analyzedAfter

theorem plansTree (h : CompletedTreeRun fs fs' answers profile analysis analysis' journal) :
    PlansTree profile.options.metadata (VisibleNames fs.lossy)
      (fs.tree profile.sourcePeer.root).disk
      (fs.tree (analysisDestinationPeer fs.isDir profile).root).disk analysis.actions where
  aboveSource names rest item hitem hne hrest := FileTree.disk_above hitem hne hrest
  aboveDestination names rest item hitem hne hrest := FileTree.disk_above hitem hne hrest
  rooted names item hitem := (FileTree.disk_valid hitem).1
  specialist := h.specialist
  sourced := by
    intro action hmem
    obtain ⟨names, item, -, hdisk, hpath, -⟩ :=
      h.ofTrees.action_item h.safeDelete h.cleanup hmem
    have hnames : namesOf action.relativePath = names := by
      rw [hpath, namesOf_pathOf (FileTree.disk_valid hdisk).2]
    rw [← hnames] at hdisk
    exact ⟨item, hdisk, h.sourced action hmem item hdisk⟩
  ordered := h.ofTrees.actions_ordered h.safeDelete h.cleanup
  equal := by
    intro names item hvisible hdisk hnone
    have hitem := h.supported _ names item hvisible (.inl rfl) hdisk
    refine (transferKind_eq_none names hitem fun found hfound =>
      h.supported _ names found hvisible (.inr rfl) hfound).mp ?_
    rw [Option.eq_none_iff_forall_ne_some]
    intro kind htransfer
    obtain ⟨action, haction, -, hpath⟩ :=
      h.ofTrees.exists_action h.safeDelete h.cleanup hvisible hdisk hitem htransfer
    refine hnone action haction ?_
    rw [hpath, namesOf_pathOf (FileTree.disk_valid hdisk).2]

/-- What the run leaves for an item of the source. -/
theorem left_after (h : CompletedTreeRun fs fs' answers profile analysis analysis' journal)
    (hvisible : VisibleNames fs.lossy names)
    (hdisk : (fs.tree profile.sourcePeer.root).disk names = some item) :
    ∃ left, (fs'.tree (analysisDestinationPeer fs.isDir profile).root).disk names = some left ∧
      equalParts profile.options.metadata.untimed item.parts left.parts = true ∧
      (profile.options.metadata.timestamps = true → left.parts.modifiedAt = intoUnixNanos
        ((givenTime answers analysis.actions names item).getD item.metadata.modifiedAt)) := by
  have hsettled : PlansTree.SettledAt analysis.actions analysis.actions names := by
    by_cases hat : ∃ action ∈ analysis.actions, namesOf action.relativePath = names
    · exact .inl hat
    · exact .inr fun action haction heq => hat ⟨action, haction, heq⟩
  rw [h.destination names hvisible]
  exact h.plansTree.settled (List.append_nil _).symm hvisible hdisk hsettled

theorem supported_after (h : CompletedTreeRun fs fs' answers profile analysis analysis' journal)
    (hvisible : VisibleNames fs.lossy names)
    (hdisk : (fs.tree profile.sourcePeer.root).disk names = some item) {found : TreeItem}
    (hfound : (fs'.tree (analysisDestinationPeer fs.isDir profile).root).disk names = some found) :
    found.itemType ≠ .unsupported := by
  obtain ⟨left, hleft, huntimed, -⟩ := h.left_after hvisible hdisk
  obtain rfl := Option.some.inj (hleft.symm.trans hfound)
  rw [← TreeItem.itemType_eq huntimed]
  exact h.supported _ names item hvisible (.inl rfl) hdisk

/-- It is equal to the item exactly when the run has given it no other time. -/
theorem equal_after_iff (h : CompletedTreeRun fs fs' answers profile analysis analysis' journal)
    (hvisible : VisibleNames fs.lossy names)
    (hdisk : (fs.tree profile.sourcePeer.root).disk names = some item) :
    (∃ left, (fs'.tree (analysisDestinationPeer fs.isDir profile).root).disk names = some left ∧
        equalParts profile.options.metadata item.parts left.parts = true) ↔
      (profile.options.metadata.timestamps = true → ∀ time,
        givenTime answers analysis.actions names item = some time →
          intoUnixNanos time = intoUnixNanos item.metadata.modifiedAt) := by
  obtain ⟨left, hleft, huntimed, htime⟩ := h.left_after hvisible hdisk
  constructor
  · rintro ⟨left', hleft', hequal⟩ htimestamps time hgiven
    obtain rfl := Option.some.inj (hleft.symm.trans hleft')
    have hmodified := htime htimestamps
    rw [hgiven, Option.getD_some] at hmodified
    rw [← hmodified, ← (equalParts_untimed.mp hequal).2 htimestamps, modifiedAt_parts]
  · intro hkept
    refine ⟨left, hleft, equalParts_untimed.mpr ⟨huntimed, fun htimestamps => ?_⟩⟩
    rw [htime htimestamps, modifiedAt_parts]
    cases hgiven : givenTime answers analysis.actions names item with
    | none => rfl
    | some time => exact (hkept htimestamps time hgiven).symm

/-- Nothing is left to transfer exactly when the destination has an equal item for
each of the source. -/
theorem noTransfer_iff (h : CompletedTreeRun fs fs' answers profile analysis analysis' journal) :
    (∀ action ∈ analysis'.actions, ¬ action.kind.Transfers) ↔
      ∀ names item, VisibleNames fs.lossy names →
        (fs.tree profile.sourcePeer.root).disk names = some item →
          ∃ left, (fs'.tree (analysisDestinationPeer fs.isDir profile).root).disk names =
              some left ∧
            equalParts profile.options.metadata item.parts left.parts = true := by
  constructor
  · intro hnone names item hvisible hdisk
    have hitem := h.supported _ names item hvisible (.inl rfl) hdisk
    refine (transferKind_eq_none names hitem fun found hfound =>
      h.supported_after hvisible hdisk hfound).mp ?_
    rw [Option.eq_none_iff_forall_ne_some]
    intro kind htransfer
    obtain ⟨action, haction, hkind, -⟩ := h.ofTrees_after.exists_action h.safeDelete h.cleanup
      (h.lossy ▸ hvisible) ((h.source names hvisible).trans hdisk) hitem htransfer
    refine hnone action haction ?_
    rw [hkind]
    rcases transferKind_cases htransfer with ⟨hcopy, -⟩ | ⟨hoverwrite, -⟩
    · exact .inl hcopy
    · exact .inr hoverwrite
  · intro hequal action haction
    obtain ⟨names, item, hvisible, hdisk, -, htransfer⟩ :=
      h.ofTrees_after.action_item h.safeDelete h.cleanup haction
    rw [h.lossy] at hvisible
    rw [h.source names hvisible] at hdisk
    have hitem := h.supported _ names item hvisible (.inl rfl) hdisk
    have hnone := (transferKind_eq_none names hitem fun found hfound =>
      h.supported_after hvisible hdisk hfound).mpr (hequal names item hvisible hdisk)
    rw [hnone] at htransfer
    cases htransfer

/-- Where the destination has an equal item, the first loop finds nothing. -/
theorem expectedReason_equal
    (h : CompletedTreeRun fs fs' answers profile analysis analysis' journal)
    (hvisible : VisibleNames fs.lossy names)
    (hdisk : (fs.tree profile.sourcePeer.root).disk names = some item) {left : TreeItem}
    (hleft : (fs'.tree (analysisDestinationPeer fs.isDir profile).root).disk names = some left)
    (hequal : equalParts profile.options.metadata item.parts left.parts = true) :
    CompletionReconciliation.expectedReason profile analysis' journal
      (.fromItem (item.inventoryItem names)) = none := by
  have hitem := h.supported _ names item hvisible (.inl rfl) hdisk
  have hincluded : (InventorySnapshotItem.fromItem (item.inventoryItem names)).outcome =
      .included := inventoryItem_included names hitem
  have hvalid := (FileTree.disk_valid hdisk).2
  have hvisible' : VisibleNames fs'.lossy names := h.lossy ▸ hvisible
  have hsource : analysis'.sourceInventory.item
      (InventorySnapshotItem.fromItem (item.inventoryItem names)).relativePath =
        some (item.inventoryItem names) := by
    show analysis'.sourceInventory.item (pathOf names) = _
    rw [h.ofTrees_after.source_item hvisible' hvalid, h.source names hvisible, hdisk]
    rfl
  have hunchanged : sourceMatchesSnapshot profile (.fromItem (item.inventoryItem names))
      (item.inventoryItem names) = true :=
    sourceMatchesSnapshot_iff.mpr ⟨rfl, rfl, rfl, rfl, rfl, sameOptionPath_iff.mpr rfl, rfl,
      fun _ => rfl⟩
  have hequalAt : EqualAtDestination profile analysis' (.fromItem (item.inventoryItem names)) := by
    refine ⟨left.inventoryItem names, ?_, equal_fromItem hitem hequal⟩
    show analysis'.destinationInventory.item (pathOf names) = _
    rw [h.ofTrees_after.destination_item hvisible' hvalid, hleft]
    rfl
  have hdestination := any_destinationMatchesSource hequalAt
  unfold CompletionReconciliation.expectedReason
  dsimp only
  rw [if_neg (by rw [hincluded]; nofun), if_neg (by rw [hincluded]; nofun), hsource,
    if_neg (by simp [hunchanged]), journalReason_journalAt h.completed]
  simp [h.safeDelete, hdestination]

/-- A run that leaves an equal item for each of the source has no findings. -/
theorem noFindings (h : CompletedTreeRun fs fs' answers profile analysis analysis' journal)
    (hequal : ∀ names item, VisibleNames fs.lossy names →
      (fs.tree profile.sourcePeer.root).disk names = some item →
        ∃ left, (fs'.tree (analysisDestinationPeer fs.isDir profile).root).disk names = some left ∧
          equalParts profile.options.metadata item.parts left.parts = true) :
    (CompletionReconciliation.reconcile analysis.profile analysis.sourceSnapshot analysis'
      journal).findings = [] := by
  obtain ⟨peer, place, hsource⟩ := h.ofTrees.source
  obtain ⟨peer', place', hsource'⟩ := h.ofTrees_after.source
  rw [h.ofTrees.profile_eq, findings_eq_nil_iff]
  refine ⟨?_, ?_, ?_⟩
  · intro expected hexpected
    obtain ⟨found, hfound, rfl⟩ := List.mem_map.mp hexpected
    obtain ⟨names, item, hvisible, hdisk, rfl⟩ := (mem_items_disk hsource).mp hfound
    obtain ⟨left, hleft, hsame⟩ := hequal names item hvisible hdisk
    exact h.expectedReason_equal hvisible hdisk hleft hsame
  · intro found hfound
    obtain ⟨names, item, hvisible, hdisk, rfl⟩ := (mem_items_disk hsource').mp hfound
    rw [h.lossy] at hvisible
    rw [h.source names hvisible] at hdisk
    refine appearedReason_eq_none.mpr ⟨pathOf names, ?_, rfl⟩
    have hitem : item.inventoryItem names ∈ analysis.sourceInventory.items :=
      (mem_items_disk hsource).mpr ⟨names, item, hvisible, hdisk, rfl⟩
    exact List.mem_map.mpr ⟨.fromItem (item.inventoryItem names), List.mem_map_of_mem hitem, rfl⟩
  · intro hcleanup
    rw [h.cleanup] at hcleanup
    cases hcleanup

end CompletedTreeRun

end

/-- **When a One-Way run reaches its goal.** A run whose actions all succeed and that
leaves its destination root what it was reaches its goal exactly when timestamps are
not required or no directory gets another time after its own action, and no link below
one that is replaced. -/
theorem one_way_goal_iff {fs fs' : FileSystem} {answers : ActionId → TreeAnswer}
    {profile : SyncProfile} {analysis analysis' : FreshAnalysis}
    {journal : List ActionJournalEntry}
    (h : CompletedTreeRun fs fs' answers profile analysis analysis' journal) :
    GoalReached analysis analysis' journal ↔
      (profile.options.metadata.timestamps = true →
        TimesKept fs answers profile analysis.actions) := by
  have hkept : (profile.options.metadata.timestamps = true →
        TimesKept fs answers profile analysis.actions) ↔
      ∀ names item, VisibleNames fs.lossy names →
        (fs.tree profile.sourcePeer.root).disk names = some item →
          ∃ left, (fs'.tree (analysisDestinationPeer fs.isDir profile).root).disk names =
              some left ∧
            equalParts profile.options.metadata item.parts left.parts = true := by
    constructor
    · intro hkept names item hvisible hdisk
      exact (h.equal_after_iff hvisible hdisk).mpr fun htimestamps time hgiven =>
        hkept htimestamps names item time hvisible hdisk hgiven
    · intro hequal htimestamps names item time hvisible hdisk hgiven
      exact (h.equal_after_iff hvisible hdisk).mp (hequal names item hvisible hdisk)
        htimestamps time hgiven
  unfold GoalReached
  rw [hkept, ← h.noTransfer_iff]
  constructor
  · rintro ⟨hnone, -⟩
    exact hnone
  · intro hnone
    exact ⟨hnone, h.noFindings (h.noTransfer_iff.mp hnone)⟩

/-! ### A folder with a file -/

/-- From `/a` to `/b`, with timestamps. -/
def datedProfile : SyncProfile :=
  { copyingProfile with options := { SyncOptions.default with
    metadata := ⟨true, true, true, true, ⟨false, false, false⟩⟩ } }

/-- The folder `d` with this time, and the file `x` in it. -/
def datedFolder (time : Int) : FileTree :=
  .ofEntries (.cons [100]
      { plainDirectory with metadata := { plainDirectory.metadata with modifiedAt := some time } }
      (.cons [120] (plainFile zeroHash) .nil .nil) .nil)
    ⟨by decide, by decide, by decide, trivial⟩

/-- A moment at which `/a` has the folder, of time 0, and `/b` has this. -/
def folderBeside (arrived : FileTree) : FileSystem where
  lossy := .utf8
  isDir _ := false
  tree root := if root = ⟨[47, 97]⟩ then datedFolder 0 else arrived

def beforeFolder : FileSystem := folderBeside (.ofEntries .nil trivial)

/-- The file has given the folder the time at which it was copied. -/
def afterFolder (time : Int) : FileSystem := folderBeside (datedFolder time)

/-- The file system gives this time. -/
def timeAnswer (time : Int) : TreeAnswer := ⟨fun _ => 0, fun _ => some time, false, some 0o755⟩

def folderPaths : List (List Name) := [[[100]], [[100], [120]]]

/-- All that is planned has been copied. -/
def folderJournal : List ActionJournalEntry :=
  folderPaths.zipIdx.map fun place =>
    { movedEntry with
      plan := { movedEntry.plan with
        actionId := .ofNat (place.2 + 1)
        relativePath := pathOf place.1
        operation := .copyToDestination }
      removalResult := none }

theorem disk_datedFolder (time : Int) (names : List Name) :
    (datedFolder time).disk names =
      if names = [[100]] then some ⟨.directory, ⟨0, some time, false, some 0o755, none⟩, none⟩
      else if names = [[100], [120]] then
        some ⟨.regularFile, ⟨5, some 0, false, some 0o644, none⟩, some zeroHash⟩
      else none := by
  by_cases hfolder : names = [[100]]
  · subst hfolder
    rfl
  · by_cases hfile : names = [[100], [120]]
    · subst hfile
      rfl
    · rw [if_neg hfolder, if_neg hfile]
      have hfolder' : [[100]] ≠ names := fun h => hfolder h.symm
      have hfile' : [[100], [120]] ≠ names := fun h => hfile h.symm
      simp [FileTree.disk, datedFolder, FileTree.ofEntries, Entries.located, plainDirectory,
        hfolder', hfile']

/-- With one answer for all actions the run depends on their names only. -/
theorem executeTree_const {metadata : MetadataRequirements} {answer : TreeAnswer}
    {source disk : TreeDisk} {actions : List PlanAction} :
    executeTree metadata (fun _ => answer) source actions disk =
      (actions.map fun action => namesOf action.relativePath).foldl (fun disk names =>
        match source names with
        | some item => disk.install metadata answer names item
        | none => disk) disk := by
  unfold executeTree
  rw [List.foldl_map]
  rfl

theorem givenTime_const {answer : TreeAnswer} {actions : List PlanAction} {names : List Name}
    {item : TreeItem} : givenTime (fun _ => answer) actions names item =
      (actions.map fun action => namesOf action.relativePath).foldl (fun given place =>
        if place = names then none
        else if place.dropLast = names ∨ (place <+: names ∧ item.itemType ≠ .regularFile) then
          some (answer.time names)
        else given) none := by
  unfold givenTime
  rw [List.foldl_map]
  rfl

theorem executeTree_folder {actions : List PlanAction} (time : Int)
    (hpaths : (actions.map fun action => namesOf action.relativePath) = folderPaths)
    (names : List Name) :
    (datedFolder time).disk names =
      executeTree datedProfile.options.metadata (fun _ => timeAnswer time) (datedFolder 0).disk
        actions (FileTree.disk (.ofEntries .nil trivial)) names := by
  have hnone : FileTree.disk (.ofEntries .nil trivial) = fun _ => none := rfl
  have hfolder : (datedFolder 0).disk [[100]] =
      some ⟨.directory, ⟨0, some 0, false, some 0o755, none⟩, none⟩ := rfl
  have hfile : (datedFolder 0).disk [[100], [120]] =
      some ⟨.regularFile, ⟨5, some 0, false, some 0o644, none⟩, some zeroHash⟩ := rfl
  rw [executeTree_const, hpaths, hnone]
  simp only [folderPaths, List.foldl_cons, List.foldl_nil, hfolder, hfile]
  rw [disk_datedFolder]
  unfold TreeDisk.install
  dsimp only
  by_cases hnames : names = [[100]]
  · subst hnames
    rfl
  · rw [if_neg hnames]
    by_cases hbelow : names = [[100], [120]]
    · subst hbelow
      rfl
    · rw [if_neg hbelow, if_neg hbelow]
      simp [hnames]

theorem completedTreeRun_folder (time : Int) {analysis analysis' : FreshAnalysis}
    (h : FreshAnalysis.analyze beforeFolder datedProfile = .ok analysis)
    (hpaths : (analysis.actions.map fun action => namesOf action.relativePath) = folderPaths)
    (h' : FreshAnalysis.analyze (afterFolder time) datedProfile = .ok analysis') :
    CompletedTreeRun beforeFolder (afterFolder time) (fun _ => timeAnswer time) datedProfile
      analysis analysis' folderJournal where
  oneWay := rfl
  unfiltered := rfl
  safeDelete := rfl
  cleanup := rfl
  specialist := rfl
  analyzed := h
  supported := by
    rintro root names item - (rfl | rfl) hdisk
    · rw [show (beforeFolder.tree datedProfile.sourcePeer.root).disk names =
        (datedFolder 0).disk names from rfl, disk_datedFolder] at hdisk
      split at hdisk
      · cases hdisk
        nofun
      · split at hdisk
        · cases hdisk
          nofun
        · cases hdisk
    · cases hdisk
  sourced := by
    intro action _ item hdisk hfile
    rw [show (beforeFolder.tree datedProfile.sourcePeer.root).disk = (datedFolder 0).disk from rfl,
      disk_datedFolder] at hdisk
    split at hdisk
    · cases hdisk
      cases hfile
    · split at hdisk
      · cases hdisk
        nofun
      · cases hdisk
  completed := by
    intro entry hentry
    obtain ⟨place, -, rfl⟩ := List.mem_map.mp hentry
    rfl
  lossy := rfl
  stable := ⟨rfl, rfl⟩
  source _ _ := rfl
  destination names _ := executeTree_folder time hpaths names
  analyzedAfter := h'

theorem exists_folder_analysis : ∃ analysis,
    FreshAnalysis.analyze beforeFolder datedProfile = .ok analysis ∧
      (analysis.actions.map fun action => namesOf action.relativePath) = folderPaths := by
  obtain ⟨analysis, hanalysis, hpaths⟩ := exists_analysis beforeFolder datedProfile
    (fun analysis => (analysis.actions.map fun action => namesOf action.relativePath) =
      folderPaths) (by decide +kernel)
  exact ⟨analysis, hanalysis, of_decide_eq_true hpaths⟩

/-- The time at which the file is copied is that of the folder at the source. -/
theorem one_way_goal_folder : ∃ analysis analysis',
    FreshAnalysis.analyze beforeFolder datedProfile = .ok analysis ∧
      FreshAnalysis.analyze (afterFolder 0) datedProfile = .ok analysis' ∧
      (analysis.actions.map fun action => namesOf action.relativePath) = folderPaths ∧
      GoalReached analysis analysis' folderJournal := by
  obtain ⟨analysis, hanalysis, hpaths⟩ := exists_folder_analysis
  obtain ⟨analysis', hanalysis', -⟩ := exists_analysis (afterFolder 0) datedProfile
    (fun _ => true) (by decide +kernel)
  refine ⟨analysis, analysis', hanalysis, hanalysis', hpaths,
    (one_way_goal_iff (completedTreeRun_folder 0 hanalysis hpaths hanalysis')).mpr ?_⟩
  intro _ names item time _ hdisk hgiven
  rw [show (beforeFolder.tree datedProfile.sourcePeer.root).disk names =
    (datedFolder 0).disk names from rfl, disk_datedFolder] at hdisk
  rw [givenTime_const, hpaths] at hgiven
  split at hdisk
  · rename_i hfolder
    subst hfolder
    cases hdisk
    obtain rfl := Option.some.inj hgiven
    rfl
  · split at hdisk
    · rename_i hfile
      subst hfile
      cases hdisk
      cases hgiven
    · cases hdisk

/-- The file gives its folder another time. -/
theorem one_way_goal_missed :
    ¬ ∀ (fs fs' : FileSystem) (answers : ActionId → TreeAnswer) (profile : SyncProfile)
      (analysis analysis' : FreshAnalysis) (journal : List ActionJournalEntry),
        CompletedTreeRun fs fs' answers profile analysis analysis' journal →
          GoalReached analysis analysis' journal := by
  intro h
  obtain ⟨analysis, hanalysis, hpaths⟩ := exists_folder_analysis
  obtain ⟨analysis', hanalysis', hplanned⟩ := exists_analysis (afterFolder 7) datedProfile
    (fun analysis => analysis.actions.any fun action => action.kind = .overwriteDestination)
    (by decide +kernel)
  obtain ⟨action, haction, hkind⟩ : ∃ action ∈ analysis'.actions,
      action.kind = .overwriteDestination := by simpa using hplanned
  exact (h _ _ _ _ _ _ _ (completedTreeRun_folder 7 hanalysis hpaths hanalysis')).1
    action haction (.inr hkind)

end SyncPlus
