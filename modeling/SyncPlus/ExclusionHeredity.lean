import SyncPlus.Confirmation
import SyncPlus.ExclusionAgreement

/-!
# Excluded directories

In every walk exclusion is hereditary: an item is excluded when a pattern matches it or a
directory above it, what is below an excluded directory is excluded too, and of no excluded
item the content is read (`exclusion_hereditary`).

A plan keeps that promise path by path only. A directory that is included itself may have
excluded items below it, and a cleanup plans to remove it, or an overwrite replaces it by
a file, with all that is below it. `exclusion_kept_iff` says for which trees no plan does.
-/

namespace SyncPlus

/-! ## What is promised -/

/-- The item stands below the other one. -/
def Below (above item : InventoryItem) : Prop :=
  above.relativePath.components <+: item.relativePath.components ∧
    above.relativePath.components ≠ item.relativePath.components

/-- The item, or a directory above it. -/
def AtOrAbove (above item : InventoryItem) : Prop :=
  above = item ∨ above.itemType = .directory ∧ Below above item

structure ExclusionHereditary (w : WalkScope) (inventory : SourceInventory) : Prop where
  exact : ∀ item ∈ inventory.items, item.outcome = .excluded ↔
    ∃ above ∈ inventory.items, AtOrAbove above item ∧
      ∃ pattern ∈ w.exclusions,
        matchesExclusion w.lossy above.relativePath above.itemType pattern = true
  inherited : ∀ above ∈ inventory.items, above.itemType = .directory → above.outcome = .excluded →
    ∀ item ∈ inventory.items, Below above item → item.outcome = .excluded
  unread : ∀ item ∈ inventory.items, item.outcome = .excluded → item.contentFingerprint = none

/-- Nothing excluded or unsupported stands below the directory at this path. -/
def FreeBelow (inventory : SourceInventory) (p : PathBuf) : Prop :=
  ∀ above ∈ inventory.items, above.relativePath.components = p.components →
    above.itemType = .directory → ∀ item ∈ inventory.items, Below above item →
      item.outcome = .included

/-- No removal and no overwrite by a non-directory takes away what is excluded or
unsupported. -/
structure DirectoriesSpared (source destination : SourceInventory) (actions : List PlanAction) :
    Prop where
  removed : ∀ action ∈ actions, action.kind = .removeDestination →
    FreeBelow destination action.relativePath
  overwritten : ∀ action ∈ actions, action.kind = .overwriteDestination →
    ∀ item ∈ source.items, item.relativePath.components = action.relativePath.components →
      item.itemType ≠ .directory → FreeBelow destination action.relativePath

namespace WalkScope

variable (w : WalkScope)

/-- The walk of the tree lists this place. -/
def Lists (tree : FileTree) (names : List Name) (found : Found) : Prop :=
  (names, found) ∈ tree.entries.located ∧ w.Visible (names, found)

/-- The place is neither excluded nor unsupported. -/
def Includes (names : List Name) (found : Found) : Prop :=
  w.excludedAt ⟨[]⟩ false names found.itemType = false ∧ found.itemType ≠ .unsupported

/-- An included directory with something excluded or unsupported below it. -/
def KeepsBelow (tree : FileTree) (names : List Name) : Prop :=
  ∃ found, w.Lists tree names found ∧ w.Includes names found ∧ found.itemType = .directory ∧
    ∃ rest found', rest ≠ [] ∧ w.Lists tree (names ++ rest) found' ∧
      ¬ w.Includes (names ++ rest) found'

end WalkScope

/-- Every directory of the destination that has something to keep below it stays one. -/
def StaysDirectory (cleanup : Bool) (w w' : WalkScope) (tree tree' : FileTree) : Prop :=
  ∀ names, w'.KeepsBelow tree' names →
    (cleanup = true → ∃ found, w.Lists tree names found) ∧
      ∀ found, w.Lists tree names found → w.Includes names found → found.itemType = .directory

/-! ## Items and places -/

namespace WalkScope

section

variable {w : WalkScope} {names : List Name} {found : Found}

theorem outcome_itemAt_eq_excluded : (w.itemAt ⟨[]⟩ false (names, found)).outcome = .excluded ↔
    w.excludedAt ⟨[]⟩ false names found.itemType = true := by
  show analysisOutcome (w.excludedAt ⟨[]⟩ false names found.itemType) found.itemType = _ ↔ _
  generalize w.excludedAt ⟨[]⟩ false names found.itemType = excluded
  cases excluded <;> cases found.itemType <;> simp [analysisOutcome]

theorem outcome_itemAt_eq_included :
    (w.itemAt ⟨[]⟩ false (names, found)).outcome = .included ↔ w.Includes names found := by
  show analysisOutcome (w.excludedAt ⟨[]⟩ false names found.itemType) found.itemType = _ ↔ _
  unfold Includes
  generalize w.excludedAt ⟨[]⟩ false names found.itemType = excluded
  cases excluded <;> cases found.itemType <;> simp [analysisOutcome]

theorem excludes_eq_true {p : PathBuf} {itemType : ItemType} : w.excludes p itemType = true ↔
    ∃ pattern ∈ w.exclusions, matchesExclusion w.lossy p itemType pattern = true := by
  rw [excludes, List.any_eq_true]

theorem excludedAt_eq_false : w.excludedAt ⟨[]⟩ false names .directory = false ↔
    ∀ above, above ≠ [] → above <+: names → w.excludes (pathOf above) .directory = false := by
  induction names using List.reverseRecOn with
  | nil => exact iff_of_true rfl forall_prefix_nil
  | append_singleton names name ih =>
      rw [excludedAt_concat, Bool.or_eq_false_iff, ih, forall_prefix_concat]
      rfl

/-- A place is excluded by a pattern on it or on a directory above it. -/
theorem excludedAt_concat_eq_true {name : Name} {itemType : ItemType} :
    w.excludedAt ⟨[]⟩ false (names ++ [name]) itemType = true ↔
      (∃ above, above ≠ [] ∧ above <+: names ∧ w.excludes (pathOf above) .directory = true) ∨
        w.excludes (pathOf (names ++ [name])) itemType = true := by
  have hdirectories : w.excludedAt ⟨[]⟩ false names .directory = false ↔ _ := excludedAt_eq_false
  rw [excludedAt_concat, Bool.or_eq_true, ← Bool.not_eq_false, hdirectories]
  push Not
  simp only [Bool.not_eq_false]
  rfl

/-- A prefix of the components of a path of names is a prefix of the names. -/
theorem prefix_of_components {above rest : List Name}
    (h : above.map Component.normal <+: rest.map Component.normal) : above <+: rest := by
  have hinj : Function.Injective Component.normal := fun _ _ => Component.normal.inj
  obtain ⟨tail, htail⟩ := h
  obtain ⟨front, back, rfl, hfront, -⟩ := List.map_eq_append_iff.mp htail.symm
  rw [List.map_injective_iff.mpr hinj hfront]
  exact List.prefix_append _ _

end

namespace InScope

variable {w : WalkScope} {inventory : SourceInventory}

/-- Above an item of the scope stand directories, included ones unless it is excluded. -/
theorem of_below (h : w.InScope inventory) {above item : InventoryItem}
    (habove : above ∈ inventory.items) (hitem : item ∈ inventory.items)
    (hbelow : Below above item) :
    above.itemType = .directory ∧ (item.outcome ≠ .excluded → above.outcome = .included) := by
  obtain ⟨names, found, hne, hvalid, rfl⟩ := h.named above habove
  obtain ⟨names', found', -, hvalid', rfl⟩ := h.named item hitem
  obtain ⟨hbegins, hdiffer⟩ := hbelow
  rw [relativePath_itemAt, relativePath_itemAt, components_pathOf hvalid,
    components_pathOf hvalid'] at hbegins hdiffer
  obtain ⟨rest, rfl⟩ := prefix_of_components hbegins
  have hrest : rest ≠ [] := by
    rintro rfl
    simp at hdiffer
  obtain ⟨other, hother, hcomponents, htype, hincluded⟩ :=
    h.ancestor hitem (components_pathOf hvalid') hne hrest
  have heq := List.inj_on_of_nodup_map h.nodup hother habove
    (hcomponents.trans (components_pathOf hvalid).symm)
  rw [← heq]
  exact ⟨htype, hincluded⟩

/-- A listed path is the path of its names. -/
theorem relativePath_eq (h : w.InScope inventory) {item : InventoryItem}
    (hitem : item ∈ inventory.items) {names : List Name}
    (hpath : item.relativePath.components = names.map Component.normal) :
    item.relativePath = pathOf names := by
  obtain ⟨names', found, -, hvalid, rfl⟩ := h.named item hitem
  rw [relativePath_itemAt, components_pathOf hvalid] at hpath
  have hinj : Function.Injective Component.normal := fun _ _ => Component.normal.inj
  rw [relativePath_itemAt, List.map_injective_iff.mpr hinj hpath]

theorem excluded_iff (h : w.InScope inventory) {item : InventoryItem}
    (hitem : item ∈ inventory.items) : item.outcome = .excluded ↔
      ∃ above ∈ inventory.items, AtOrAbove above item ∧
        w.excludes above.relativePath above.itemType = true := by
  obtain ⟨names, found, hne, hvalid, rfl⟩ := h.named item hitem
  obtain ⟨init, name, rfl⟩ := (List.eq_nil_or_concat' names).resolve_left hne
  rw [outcome_itemAt_eq_excluded, excludedAt_concat_eq_true]
  constructor
  · rintro (⟨above, habove, hbegins, hexcludes⟩ | hexcludes)
    · obtain ⟨rest, rfl⟩ := hbegins
      have hcomponents :
          (w.itemAt ⟨[]⟩ false (above ++ rest ++ [name], found)).relativePath.components =
            (above ++ (rest ++ [name])).map Component.normal := by
        rw [relativePath_itemAt, components_pathOf hvalid, List.append_assoc]
      obtain ⟨directory, hmem, hpath, htype, -⟩ :=
        h.ancestor hitem hcomponents habove (by simp)
      refine ⟨directory, hmem, .inr ⟨htype, ?_, ?_⟩, ?_⟩
      · rw [hpath, hcomponents, List.map_append]
        exact List.prefix_append _ _
      · rw [hpath, hcomponents]
        simp
      · rwa [h.relativePath_eq hmem hpath, htype]
    · exact ⟨_, hitem, .inl rfl, hexcludes⟩
  · rintro ⟨above, hmem, rfl | ⟨htype, hbegins, hdiffer⟩, hexcludes⟩
    · exact .inr hexcludes
    · obtain ⟨names', found', hne', hvalid', rfl⟩ := h.named above hmem
      rw [relativePath_itemAt, relativePath_itemAt, components_pathOf hvalid,
        components_pathOf hvalid'] at hbegins hdiffer
      refine .inl ⟨names', hne', ?_, ?_⟩
      · rcases List.prefix_concat_iff.mp (prefix_of_components hbegins) with rfl | h
        · exact absurd rfl hdiffer
        · exact h
      · rwa [htype] at hexcludes

/-- **Exclusion is hereditary.** -/
theorem exclusion_hereditary (h : w.InScope inventory) : ExclusionHereditary w inventory := by
  refine ⟨fun item hitem => ?_, fun above habove _ hexcluded item hitem hbelow => ?_,
    fun item hitem hexcluded => ?_⟩
  · rw [h.excluded_iff hitem]
    simp only [excludes_eq_true]
  · by_contra hitemIn
    have hincluded := (h.of_below habove hitem hbelow).2 hitemIn
    rw [hexcluded] at hincluded
    cases hincluded
  · obtain ⟨names, found, -, -, rfl⟩ := h.named item hitem
    exact if_neg fun hread => absurd (hexcluded.symm.trans hread.1) (by decide)

end InScope

end WalkScope

/-! ## Directories of a destination -/

/-- `StaysDirectory`, of the inventories. -/
def DirectoriesStay (cleanup : Bool) (source destination : SourceInventory) : Prop :=
  ∀ above ∈ destination.items, above.outcome = .included → above.itemType = .directory →
    (∃ item ∈ destination.items, Below above item ∧ item.outcome ≠ .included) →
      (cleanup = true → ∃ item ∈ source.items,
        item.relativePath.components = above.relativePath.components) ∧
      ∀ item ∈ source.items, item.relativePath.components = above.relativePath.components →
        item.outcome = .included → item.itemType = .directory

section

open WalkScope

variable {w w' : WalkScope} {peer peer' : String} {root root' : PathBuf} {tree tree' : FileTree}
  {source destination inventory : SourceInventory} {cleanup : Bool}

theorem mem_iff_lists (h : w.collectInventory peer root tree = .ok inventory)
    {item : InventoryItem} : item ∈ inventory.items ↔
      ∃ names found, w.Lists tree names found ∧ item = w.itemAt ⟨[]⟩ false (names, found) := by
  rw [mem_collectInventory h]
  constructor
  · rintro ⟨⟨names, found⟩, hplace, hvisible, rfl⟩
    exact ⟨names, found, ⟨hplace, hvisible⟩, rfl⟩
  · rintro ⟨names, found, ⟨hplace, hvisible⟩, rfl⟩
    exact ⟨(names, found), hplace, hvisible, rfl⟩

theorem Lists.valid {names : List Name} {found : Found} (h : w.Lists tree names found) :
    ∀ name ∈ names, ValidName name :=
  tree.wellFormed.valid h.1

theorem below_itemAt {names names' : List Name} {found found' : Found}
    (h : w.Lists tree names found) (h' : w.Lists tree names' found') :
    Below (w.itemAt ⟨[]⟩ false (names, found)) (w.itemAt ⟨[]⟩ false (names', found')) ↔
      ∃ rest, rest ≠ [] ∧ names' = names ++ rest := by
  unfold Below
  rw [relativePath_itemAt, relativePath_itemAt, components_pathOf (Lists.valid h),
    components_pathOf (Lists.valid h')]
  constructor
  · rintro ⟨hbegins, hdiffer⟩
    obtain ⟨rest, rfl⟩ := prefix_of_components hbegins
    refine ⟨rest, ?_, rfl⟩
    rintro rfl
    simp at hdiffer
  · rintro ⟨rest, hrest, rfl⟩
    rw [List.map_append]
    exact ⟨List.prefix_append _ _, by simpa using hrest⟩

theorem staysDirectory_iff (hsource : w.collectInventory peer root tree = .ok source)
    (hdestination : w'.collectInventory peer' root' tree' = .ok destination) :
    StaysDirectory cleanup w w' tree tree' ↔ DirectoriesStay cleanup source destination := by
  constructor
  · intro h above habove hincluded hdirectory hkeeps
    obtain ⟨names, found, hlists, rfl⟩ := (mem_iff_lists hdestination).mp habove
    obtain ⟨item, hitem, hbelow, hkept⟩ := hkeeps
    obtain ⟨names', found', hlists', rfl⟩ := (mem_iff_lists hdestination).mp hitem
    obtain ⟨rest, hrest, rfl⟩ := (below_itemAt hlists hlists').mp hbelow
    obtain ⟨hpresent, hstays⟩ := h names ⟨found, hlists, outcome_itemAt_eq_included.mp hincluded,
      hdirectory, rest, found', hrest, hlists', fun h => hkept (outcome_itemAt_eq_included.mpr h)⟩
    refine ⟨fun hcleanup => ?_, fun other hother hpath hin => ?_⟩
    · obtain ⟨there, hthere⟩ := hpresent hcleanup
      exact ⟨_, (mem_iff_lists hsource).mpr ⟨names, there, hthere, rfl⟩, rfl⟩
    · obtain ⟨other, there, hthere, rfl⟩ := (mem_iff_lists hsource).mp hother
      obtain rfl : other = names :=
        (pathOf_inj (Lists.valid hthere) (Lists.valid hlists)).mp hpath
      exact hstays there hthere (outcome_itemAt_eq_included.mp hin)
  · rintro h names ⟨found, hlists, hincluded, hdirectory, rest, found', hrest, hlists', hkept⟩
    have hbelow := (below_itemAt hlists hlists').mpr ⟨rest, hrest, rfl⟩
    obtain ⟨hpresent, hstays⟩ := h _ ((mem_iff_lists hdestination).mpr ⟨names, found, hlists, rfl⟩)
      (outcome_itemAt_eq_included.mpr hincluded) hdirectory
      ⟨_, (mem_iff_lists hdestination).mpr ⟨_, _, hlists', rfl⟩, hbelow,
        fun h => hkept (outcome_itemAt_eq_included.mp h)⟩
    refine ⟨fun hcleanup => ?_, fun there hthere hin => ?_⟩
    · obtain ⟨item, hitem, hpath⟩ := hpresent hcleanup
      obtain ⟨other, there, hthere, rfl⟩ := (mem_iff_lists hsource).mp hitem
      obtain rfl : other = names :=
        (pathOf_inj (Lists.valid hthere) (Lists.valid hlists)).mp hpath
      exact ⟨there, hthere⟩
    · exact hstays _ ((mem_iff_lists hsource).mpr ⟨names, there, hthere, rfl⟩) rfl
        (outcome_itemAt_eq_included.mpr hin)

end

/-! ## Plans -/

section

variable {specification : ProcessSpecification} {source destination : SourceInventory}
  {actions : List PlanAction}

/-- Items of two types are not equal. -/
theorem equalInventory_of_type_ne {metadata : MetadataRequirements} {left right : InventoryItem}
    (h : left.itemType ≠ right.itemType) :
    MirrorEquality.equalInventory ⟨metadata⟩ left right = false := by
  rw [← Bool.not_eq_true]
  intro hequal
  unfold MirrorEquality.equalInventory at hequal
  split at hequal
  · cases hequal
  · exact h (congrArg Prod.fst (equalParts_iff.mp hequal).2)

theorem freeBelow_of_included (hdestination : destination.DistinctPaths) {above : InventoryItem}
    (habove : above ∈ destination.items) {p : PathBuf}
    (hpath : above.relativePath.components = p.components)
    (h : above.itemType = .directory → ∀ item ∈ destination.items, Below above item →
      item.outcome = .included) : FreeBelow destination p := by
  intro other hother hother' hdirectory item hitem hbelow
  obtain rfl := List.inj_on_of_nodup_map hdestination hother habove (hother'.trans hpath.symm)
  exact h hdirectory item hitem hbelow

/-- **What a One-Way plan takes away.** -/
theorem directoriesSpared_iff (hmode : specification.mode = .oneWay)
    (hsource : source.DistinctPaths) (hdestination : destination.DistinctPaths) :
    DirectoriesSpared source destination
        (numberDrafts (planDrafts specification source destination)) ↔
      DirectoriesStay specification.options.destinationCleanup source destination := by
  constructor
  · intro h above habove hincluded hdirectory ⟨item, hitem, hbelow, hkept⟩
    have hused : ∀ p : PathBuf, above.relativePath.components = p.components →
        ¬ FreeBelow destination p := fun p hpath hfree =>
      hkept (hfree above habove hpath hdirectory item hitem hbelow)
    refine ⟨fun hcleanup => ?_, fun sourceItem hsourceItem hpath hin => ?_⟩
    · -- otherwise a cleanup removes the directory
      by_contra hmissing
      push Not at hmissing
      obtain ⟨action, haction, hdraft⟩ := exists_mem_of_draft_mem
        ((removal_mem_oneWayDrafts hmode rfl).mpr
          ⟨hcleanup, above, habove, hincluded, getByPath_eq_none.mpr hmissing, rfl⟩)
      have hkind : action.kind = .removeDestination := congrArg ActionDraft.kind hdraft
      have hsame : action.relativePath = above.relativePath :=
        congrArg ActionDraft.relativePath hdraft
      exact hused _ (by rw [hsame]) (h.removed action haction hkind)
    · -- otherwise the item of the source takes its place
      by_contra hother
      have hfound : sourceByPath destination sourceItem.relativePath = some above :=
        (hdestination.getByPath_eq _).trans (hdestination.item_eq_some.mpr ⟨habove, hpath.symm⟩)
      have htransfer : transferKind specification.options.metadata sourceItem (some above) =
          some .overwriteDestination := by
        unfold transferKind
        dsimp only
        rw [equalInventory_of_type_ne (by rwa [hdirectory])]
        simp [InventoryItem.isEligible, hincluded]
      have hplanned : (⟨sourceItem.relativePath, .overwriteDestination,
          .ofSource specification.source, dataSize sourceItem⟩ : ActionDraft) ∈
            planDrafts specification source destination :=
        (transfer_mem_oneWayDrafts hmode (.inr rfl)).mpr
          ⟨sourceItem, hsourceItem, hin, rfl, hfound ▸ htransfer⟩
      obtain ⟨action, haction, hdraft⟩ := exists_mem_of_draft_mem hplanned
      have hkind : action.kind = .overwriteDestination := congrArg ActionDraft.kind hdraft
      have hsame : action.relativePath = sourceItem.relativePath :=
        congrArg ActionDraft.relativePath hdraft
      refine hused _ (by rw [hsame, hpath]) (h.overwritten action haction hkind sourceItem
        hsourceItem (by rw [hsame]) hother)
  · intro h
    refine ⟨fun action haction hkind => ?_, fun action haction hkind item hitem hpath htype => ?_⟩
    · obtain ⟨hcleanup, above, habove, hincluded, hnone, heq⟩ :=
        (removal_mem_oneWayDrafts hmode hkind).mp (draft_mem_of_mem haction)
      have hsame : action.relativePath = above.relativePath :=
        congrArg ActionDraft.relativePath heq
      refine freeBelow_of_included hdestination habove (by rw [hsame]) fun hdirectory => ?_
      by_contra hkept
      push Not at hkept
      obtain ⟨item, hitem, hpath⟩ := (h above habove hincluded hdirectory hkept).1 hcleanup
      exact getByPath_eq_none.mp hnone item hitem hpath
    · obtain ⟨sourceItem, hmem, hin, heq, htransfer⟩ :=
        (transfer_mem_oneWayDrafts hmode (.inr hkind)).mp (draft_mem_of_mem haction)
      have hsame : action.relativePath = sourceItem.relativePath :=
        congrArg ActionDraft.relativePath heq
      obtain rfl : item = sourceItem :=
        List.inj_on_of_nodup_map hsource hitem hmem (by rw [hpath, hsame])
      rcases transferKind_cases htransfer with ⟨hcopy, -⟩ | ⟨-, above, hfound, hincluded, -⟩
      · exact absurd (hkind.symm.trans hcopy) (by decide)
      · obtain ⟨habove, hplace⟩ := getByPath_mem hfound
        refine freeBelow_of_included hdestination habove (by rw [hplace, hsame])
          fun hdirectory => ?_
        by_contra hkept
        push Not at hkept
        exact htype ((h above habove hincluded hdirectory hkept).2 item hmem hplace.symm hin)

/-- A Mirror plan takes nothing away. -/
theorem directoriesSpared_mirror (hmode : specification.mode = .mirror) :
    DirectoriesSpared source destination
      (numberDrafts (planDrafts specification source destination)) := by
  have hcopy : ∀ action ∈ numberDrafts (planDrafts specification source destination),
      action.kind = .copyToDestination := by
    intro action haction
    have hdraft := draft_mem_of_mem haction
    rw [planDrafts_mirror hmode] at hdraft
    exact (sourced_of_mem_mirrorDrafts hdraft).1
  refine ⟨fun action haction hkind => ?_, fun action haction hkind => ?_⟩
  · exact absurd (hkind.symm.trans (hcopy action haction)) (by decide)
  · exact absurd (hkind.symm.trans (hcopy action haction)) (by decide)

variable {w w' : WalkScope} {peer peer' : String} {root root' : PathBuf} {tree tree' : FileTree}

/-- **Exclusion is hereditary, and reaches no action where directories stay.** -/
theorem exclusion_kept_iff (hsource : w.collectInventory peer root tree = .ok source)
    (hdestination : w'.collectInventory peer' root' tree' = .ok destination)
    (hplan : buildPlan specification source destination = .ok actions) :
    (ExclusionHereditary w source ∧ ExclusionHereditary w' destination ∧
        DirectoriesSpared source destination actions) ↔
      (specification.mode = .oneWay →
        StaysDirectory specification.options.destinationCleanup w w' tree tree') := by
  have hscope := WalkScope.collectInventory_inScope hsource
  have hscope' := WalkScope.collectInventory_inScope hdestination
  have hspared : DirectoriesSpared source destination actions ↔ (specification.mode = .oneWay →
      StaysDirectory specification.options.destinationCleanup w w' tree tree') := by
    rw [(buildPlan_eq_ok.mp hplan).1]
    cases hmode : specification.mode with
    | mirror => exact ⟨nofun, fun _ => directoriesSpared_mirror hmode⟩
    | oneWay =>
        rw [directoriesSpared_iff hmode hscope.nodup hscope'.nodup,
          staysDirectory_iff hsource hdestination]
        exact ⟨fun h _ => h, fun h => h rfl⟩
  rw [hspared]
  exact ⟨fun h => h.2.2,
    fun h => ⟨hscope.exclusion_hereditary, hscope'.exclusion_hereditary, h⟩⟩

end

/-! ### A log file that is kept -/

/-- The scope that leaves out `*.log`. -/
def logScope : WalkScope := ⟨.replacing, ["*.log"]⟩

/-- The directory `d` with the file `a.log`, and the file `x`. -/
def logTree : FileTree :=
  .ofEntries (.cons [100] plainDirectory
    (.cons [97, 46, 108, 111, 103] (plainFile zeroHash) .nil .nil)
    (.cons [120] (plainFile zeroHash) .nil .nil)) (by decide)

def logInventory : SourceInventory :=
  ⟨[inventoryItem ⟨[100]⟩ false plainDirectory,
    inventoryItem ⟨[100, 47, 97, 46, 108, 111, 103]⟩ true (plainFile zeroHash),
    inventoryItem ⟨[120]⟩ false (plainFile zeroHash)]⟩

/-- The tree with the directory `d` alone. -/
def directoryTree : FileTree := .ofEntries (.cons [100] plainDirectory .nil .nil) (by decide)

def directoryInventory : SourceInventory := ⟨[inventoryItem ⟨[100]⟩ false plainDirectory]⟩

def cleaningSpecification : ProcessSpecification :=
  { copyingSpecification with
    options := { SyncOptions.default with
      destinationCleanup := true
      checked := by decide +kernel }
    exclusions := ["*.log"] }

theorem logScope_excludes : logScope.excludes ⟨[100]⟩ .directory = false ∧
    logScope.excludes ⟨[100, 47, 97, 46, 108, 111, 103]⟩ .regularFile = true ∧
    logScope.excludes ⟨[120]⟩ .regularFile = false := by
  have halone : ∀ p itemType, logScope.excludes p itemType =
      matchesExclusion .replacing p itemType "*.log" := fun _ _ => Bool.or_false _
  rw [halone, halone, halone]
  refine ⟨?_, ?_, ?_⟩
  · show wildcardMatch ['*', '.', 'l', 'o', 'g'] ['d'] = false
    simp [wildcardMatch, wildcardLoop]
  · show wildcardMatch ['*', '.', 'l', 'o', 'g'] ['a', '.', 'l', 'o', 'g'] = true
    simp [wildcardMatch, wildcardLoop]
  · show wildcardMatch ['*', '.', 'l', 'o', 'g'] ['x'] = false
    simp [wildcardMatch, wildcardLoop]

theorem collectInventory_log : logScope.collectInventory "Server" ⟨[47, 98]⟩ logTree =
    .ok logInventory := by
  obtain ⟨hd, hlog, hx⟩ := logScope_excludes
  have hnames : isSyncplusInternalArtifact logScope.lossy [100] = false ∧
      isSyncplusInternalArtifact logScope.lossy [97, 46, 108, 111, 103] = false ∧
      isSyncplusInternalArtifact logScope.lossy [120] = false := by
    decide +kernel
  have hjoin : (⟨[]⟩ : PathBuf).join ⟨[100]⟩ = ⟨[100]⟩ ∧
      (⟨[100]⟩ : PathBuf).join ⟨[97, 46, 108, 111, 103]⟩ = ⟨[100, 47, 97, 46, 108, 111, 103]⟩ ∧
      (⟨[]⟩ : PathBuf).join ⟨[120]⟩ = ⟨[120]⟩ := by
    decide
  have htype : plainDirectory.itemType = .directory ∧
      (plainFile zeroHash).itemType = .regularFile := ⟨rfl, rfl⟩
  simp only [WalkScope.collectInventory, logTree, FileTree.ofEntries, WalkScope.walkDirectory,
    hnames, hjoin, htype, hd, hlog, hx, Bool.false_or]
  rfl

theorem collectInventory_directory : logScope.collectInventory "Laptop" ⟨[47, 97]⟩
    directoryTree = .ok directoryInventory := by
  obtain ⟨hd, -, -⟩ := logScope_excludes
  have hname : isSyncplusInternalArtifact logScope.lossy [100] = false := by decide +kernel
  have hjoin : (⟨[]⟩ : PathBuf).join ⟨[100]⟩ = ⟨[100]⟩ := by decide
  have htype : plainDirectory.itemType = .directory := rfl
  simp only [WalkScope.collectInventory, directoryTree, FileTree.ofEntries,
    WalkScope.walkDirectory, hname, hjoin, htype, hd, Bool.false_or]
  rfl

/-- The source has `d`: the plan removes `x` alone. -/
theorem exclusion_kept_directory :
    ∃ actions, buildPlan cleaningSpecification directoryInventory logInventory = .ok actions ∧
      ExclusionHereditary logScope directoryInventory ∧
      ExclusionHereditary logScope logInventory ∧
      DirectoriesSpared directoryInventory logInventory actions := by
  have hplan : buildPlan cleaningSpecification directoryInventory logInventory =
      .ok [⟨1, ⟨[120]⟩, .removeDestination, .peerA, some 5⟩] := by
    decide +kernel
  refine ⟨_, hplan, (exclusion_kept_iff collectInventory_directory collectInventory_log
    hplan).mpr fun _ => (staysDirectory_iff collectInventory_directory
      collectInventory_log).mpr ?_⟩
  unfold DirectoriesStay Below
  decide +kernel

/-- The source is empty: the plan removes `d`, and with it the log file. -/
theorem exclusion_not_kept :
    ¬ ∀ (w : WalkScope) (specification : ProcessSpecification) (peer peer' : String)
      (root root' : PathBuf) (tree tree' : FileTree) (source destination : SourceInventory)
      (actions : List PlanAction), w.collectInventory peer root tree = .ok source →
        w.collectInventory peer' root' tree' = .ok destination →
        buildPlan specification source destination = .ok actions →
          ExclusionHereditary w source ∧ ExclusionHereditary w destination ∧
            DirectoriesSpared source destination actions := by
  intro h
  have hempty : logScope.collectInventory "Laptop" ⟨[47, 97]⟩ (.ofEntries .nil (by decide)) =
      .ok ⟨[]⟩ := by
    rfl
  have hplan : buildPlan cleaningSpecification ⟨[]⟩ logInventory =
      .ok [⟨1, ⟨[100]⟩, .removeDestination, .peerA, none⟩,
        ⟨2, ⟨[120]⟩, .removeDestination, .peerA, some 5⟩] := by
    decide +kernel
  obtain ⟨-, -, hspared⟩ := h _ _ _ _ _ _ _ _ _ _ _ hempty collectInventory_log hplan
  have hfree := hspared.removed _ (.head _) rfl _ (.head _) rfl rfl _ (.tail _ (.head _))
  exact absurd (hfree (by unfold Below; decide)) (by decide)

end SyncPlus
