import SyncPlus.MirrorEquality
import SyncPlus.WalkedInventory

/-!
# Analyses

From the inventories of the two peers to a plan. A Mirror plan copies every
included item that one peer has alone; a One-Way plan goes through the
source and then, for a cleanup, through the destination. The actions are
numbered from 1 in the order they are planned, and the plan is validated
against the inventories before it is returned (`buildPlan`). A fresh
analysis carries the inventories with the plan built from them.
-/

namespace SyncPlus

def PeerSide.ofSource : OneWaySource → PeerSide
  | .peerA => .peerA
  | .peerB => .peerB

/-! ## The actions of a plan -/

/-- An action before it has its number. -/
structure ActionDraft where
  relativePath : PathBuf
  kind : PlanActionKind
  sourceSide : PeerSide
  size : Option UInt64
  deriving DecidableEq

def ActionDraft.numbered (draft : ActionDraft) (actionId : ActionId) : PlanAction where
  actionId
  relativePath := draft.relativePath
  kind := draft.kind
  sourceSide := draft.sourceSide
  size := draft.size

def PlanAction.draft (action : PlanAction) : ActionDraft where
  relativePath := action.relativePath
  kind := action.kind
  sourceSide := action.sourceSide
  size := action.size

/-- The action ids count from 1. -/
def numberDrafts (drafts : List ActionDraft) : List PlanAction :=
  drafts.zipIdx.map fun entry => entry.1.numbered (UInt64.ofNat (entry.2 + 1))

def dataSize (item : InventoryItem) : Option UInt64 :=
  if item.itemType = .regularFile then some item.metadata.size else none

def InventoryItem.bytes (item : InventoryItem) : Nat := ((dataSize item).map UInt64.toNat).getD 0

def sourceByPath (inventory : SourceInventory) : PathBuf → Option InventoryItem :=
  getByPath InventoryItem.relativePath inventory.items

def copyDraft (relativePath : PathBuf) (sourceSide : PeerSide) (item : InventoryItem) :
    Option ActionDraft :=
  if item.isEligible then
    some ⟨relativePath, .copyToDestination, sourceSide, dataSize item⟩
  else none

/-- What a Mirror plan does about one path. -/
def mirrorDraft (source destination : SourceInventory) (relativePath : PathBuf) :
    Option ActionDraft :=
  match sourceByPath source relativePath, sourceByPath destination relativePath with
  | some item, none => copyDraft relativePath .peerA item
  | none, some item => copyDraft relativePath .peerB item
  | _, _ => none

def allPaths (source destination : SourceInventory) : List PathBuf :=
  pathSet (source.items.map (·.relativePath) ++ destination.items.map (·.relativePath))

def mirrorDrafts (source destination : SourceInventory) : List ActionDraft :=
  (allPaths source destination).filterMap (mirrorDraft source destination)

/-- How an item of the source is transferred over what the destination has at
its path. -/
def transferKind (metadata : MetadataRequirements) (sourceItem : InventoryItem) :
    Option InventoryItem → Option PlanActionKind
  | none => some .copyToDestination
  | some destinationItem =>
      if !destinationItem.isEligible then none
      else if !MirrorEquality.equalInventory ⟨metadata⟩ sourceItem destinationItem then
        some .overwriteDestination
      else none

/-- What a One-Way plan does about one item of the source. -/
def sourceDrafts (specification : ProcessSpecification) (destination : SourceInventory)
    (sourceItem : InventoryItem) : List ActionDraft :=
  let sourceSide := PeerSide.ofSource specification.source
  let destinationItem := sourceByPath destination sourceItem.relativePath
  let draft (kind : PlanActionKind) : ActionDraft :=
    ⟨sourceItem.relativePath, kind, sourceSide, dataSize sourceItem⟩
  ((transferKind specification.options.metadata sourceItem destinationItem).map
      draft).toList ++
    if specification.options.safeDelete ∧
        destinationItem.all (·.isEligible) = true ∧
        (sourceItem.itemType = .regularFile ∨ sourceItem.itemType = .symlink) then
      [draft .removeSourceAfterVerification]
    else []

def cleanupDrafts (specification : ProcessSpecification) (source destination : SourceInventory) :
    List ActionDraft :=
  if specification.options.destinationCleanup then
    (destination.includedItems.filter fun item =>
      (sourceByPath source item.relativePath).isNone).map fun item =>
        ⟨item.relativePath, .removeDestination, .ofSource specification.source,
          dataSize item⟩
  else []

def planDrafts (specification : ProcessSpecification) (source destination : SourceInventory) :
    List ActionDraft :=
  match specification.mode with
  | .mirror => mirrorDrafts source destination
  | .oneWay => source.includedItems.flatMap (sourceDrafts specification destination) ++
      cleanupDrafts specification source destination

/-! ## Validation -/

/-- The peer that sends what actions of this side write. -/
def sendingInventory (specification : ProcessSpecification) (source destination : SourceInventory)
    (side : PeerSide) : SourceInventory :=
  match specification.mode, side with
  | .mirror, .peerB => destination
  | _, _ => source

section

variable {specification : ProcessSpecification} {source destination : SourceInventory}

theorem sendingInventory_oneWay (hmode : specification.mode = .oneWay) (side : PeerSide) :
    sendingInventory specification source destination side = source := by
  unfold sendingInventory
  rw [hmode]

theorem sendingInventory_peerA :
    sendingInventory specification source destination .peerA = source := by
  unfold sendingInventory
  cases specification.mode <;> rfl

theorem sendingInventory_peerB (hmode : specification.mode = .mirror) :
    sendingInventory specification source destination .peerB = destination := by
  unfold sendingInventory
  rw [hmode]

end

/-- What `OneWayPlan::validate` checks of one action. -/
def validateAction (specification : ProcessSpecification)
    (source destination : SourceInventory) (action : PlanAction) : Except PlanError Unit := do
  let inventory := sendingInventory specification source destination action.sourceSide
  ensure ((inventory.item action.relativePath).all (·.isEligible) = true)
    (.actionOutsideApprovedScope action.relativePath)
  match action.kind with
  | .removeDestination =>
      ensure (specification.options.destinationCleanup = true) (.actionNotAllowed action.kind)
  | .removeSourceAfterVerification =>
      ensure (specification.options.safeDelete = true) (.actionNotAllowed action.kind)
  | _ => return ()

def buildPlan (specification : ProcessSpecification) (source destination : SourceInventory) :
    Except AnalysisError (List PlanAction) := do
  let actions := numberDrafts (planDrafts specification source destination)
  (actions.forM (validateAction specification source destination)).mapError .plan
  return actions

/-! ## What is planned -/

section

variable {specification : ProcessSpecification} {source destination : SourceInventory}
  {drafts : List ActionDraft} {actions : List PlanAction} {action : PlanAction}
  {draft : ActionDraft}

@[simp] theorem numbered_draft (draft : ActionDraft) (actionId : ActionId) :
    (draft.numbered actionId).draft = draft := rfl

@[simp] theorem length_numberDrafts (drafts : List ActionDraft) :
    (numberDrafts drafts).length = drafts.length := by
  simp [numberDrafts]

/-- Numbering changes nothing else. -/
@[simp] theorem map_draft_numberDrafts (drafts : List ActionDraft) :
    (numberDrafts drafts).map PlanAction.draft = drafts := by
  rw [numberDrafts, List.map_map]
  exact List.zipIdx_map_fst 0 drafts

theorem map_actionId_numberDrafts (drafts : List ActionDraft) :
    (numberDrafts drafts).map (·.actionId) =
      (List.range drafts.length).map fun i => UInt64.ofNat (i + 1) := by
  have hids : (numberDrafts drafts).map (·.actionId) =
      (drafts.zipIdx.map Prod.snd).map fun i => UInt64.ofNat (i + 1) := by
    rw [numberDrafts, List.map_map, List.map_map]
    rfl
  rw [hids, List.zipIdx_map_snd, List.range_eq_range']

theorem draft_mem_of_mem (h : action ∈ numberDrafts drafts) : action.draft ∈ drafts := by
  have hmem := List.mem_map_of_mem (f := PlanAction.draft) h
  rwa [map_draft_numberDrafts] at hmem

theorem exists_mem_of_draft_mem (h : draft ∈ drafts) :
    ∃ action ∈ numberDrafts drafts, action.draft = draft := by
  rw [← map_draft_numberDrafts drafts] at h
  exact List.mem_map.mp h

theorem buildPlan_eq_ok : buildPlan specification source destination = .ok actions ↔
    actions = numberDrafts (planDrafts specification source destination) ∧
      ∀ action ∈ actions, validateAction specification source destination action = .ok () := by
  unfold buildPlan
  dsimp only
  rw [unit_bind_eq_ok, mapError_eq_ok, forM_eq_ok]
  constructor
  · rintro ⟨hvalid, hactions⟩
    cases hactions
    exact ⟨rfl, hvalid⟩
  · rintro ⟨rfl, hvalid⟩
    exact ⟨hvalid, rfl⟩

theorem item_isSome {inventory : SourceInventory} {p : PathBuf} {item : InventoryItem}
    (hmem : item ∈ inventory.items) (h : item.relativePath.components = p.components) :
    (inventory.item p).isSome = true := by
  rw [SourceInventory.item, List.find?_isSome]
  exact ⟨item, hmem, PathBuf.same_iff.mpr h⟩

theorem mem_copyDraft {p : PathBuf} {side : PeerSide} {item : InventoryItem} :
    copyDraft p side item = some draft ↔ item.outcome = .included ∧
      draft = ⟨p, .copyToDestination, side, dataSize item⟩ := by
  unfold copyDraft InventoryItem.isEligible
  split <;> rename_i h
  · simp_all [eq_comm]
  · simp_all

/-- **What a Mirror plan has**: a copy of every included item that one peer
has alone. -/
theorem mem_mirrorDrafts : draft ∈ mirrorDrafts source destination ↔
    draft.relativePath ∈ allPaths source destination ∧
      ((∃ item, sourceByPath source draft.relativePath = some item ∧
          sourceByPath destination draft.relativePath = none ∧ item.outcome = .included ∧
          draft = ⟨draft.relativePath, .copyToDestination, .peerA, dataSize item⟩) ∨
        ∃ item, sourceByPath source draft.relativePath = none ∧
          sourceByPath destination draft.relativePath = some item ∧
          item.outcome = .included ∧
          draft = ⟨draft.relativePath, .copyToDestination, .peerB, dataSize item⟩) := by
  have hdraft : ∀ p, mirrorDraft source destination p = some draft ↔
      p = draft.relativePath ∧
      ((∃ item, sourceByPath source p = some item ∧ sourceByPath destination p = none ∧
          item.outcome = .included ∧ draft = ⟨p, .copyToDestination, .peerA, dataSize item⟩) ∨
        ∃ item, sourceByPath source p = none ∧ sourceByPath destination p = some item ∧
          item.outcome = .included ∧
          draft = ⟨p, .copyToDestination, .peerB, dataSize item⟩) := by
    intro p
    unfold mirrorDraft
    cases hsource : sourceByPath source p <;> cases hdestination : sourceByPath destination p <;>
      simp only [reduceCtorEq, mem_copyDraft, Option.some.injEq, exists_eq_left', false_and,
        exists_false, and_false, or_false, false_or, true_and]
    · exact ⟨fun h => ⟨by rw [h.2], h⟩, And.right⟩
    · exact ⟨fun h => ⟨by rw [h.2], h⟩, And.right⟩
  rw [mirrorDrafts, List.mem_filterMap]
  constructor
  · rintro ⟨p, hp, h⟩
    obtain ⟨rfl, h⟩ := (hdraft p).mp h
    exact ⟨hp, h⟩
  · rintro ⟨hp, h⟩
    exact ⟨_, hp, (hdraft _).mpr ⟨rfl, h⟩⟩

/-- An action of a Mirror plan takes its item from the peer that has it. -/
theorem sourced_of_mem_mirrorDrafts (h : draft ∈ mirrorDrafts source destination) :
    draft.kind = .copyToDestination ∧
      ∃ item, item.relativePath.components = draft.relativePath.components ∧
        ((draft.sourceSide = .peerA ∧ item ∈ source.items) ∨
          (draft.sourceSide = .peerB ∧ item ∈ destination.items)) := by
  rcases (mem_mirrorDrafts.mp h).2 with ⟨item, hget, -, -, heq⟩ | ⟨item, -, hget, -, heq⟩
  · obtain ⟨hmem, hpath⟩ := getByPath_mem hget
    rw [heq]
    exact ⟨rfl, item, hpath, .inl ⟨rfl, hmem⟩⟩
  · obtain ⟨hmem, hpath⟩ := getByPath_mem hget
    rw [heq]
    exact ⟨rfl, item, hpath, .inr ⟨rfl, hmem⟩⟩

theorem mem_includedItems {inventory : SourceInventory} {item : InventoryItem} :
    item ∈ inventory.includedItems ↔ item ∈ inventory.items ∧ item.outcome = .included := by
  simp [SourceInventory.includedItems, InventoryItem.isEligible]

theorem mem_sourceDrafts {item : InventoryItem} :
    draft ∈ sourceDrafts specification destination item ↔
      draft = ⟨item.relativePath, draft.kind, .ofSource specification.source, dataSize item⟩ ∧
        (transferKind specification.options.metadata item
            (sourceByPath destination item.relativePath) = some draft.kind ∨
          draft.kind = .removeSourceAfterVerification ∧
            specification.options.safeDelete = true ∧
            (sourceByPath destination item.relativePath).all (·.isEligible) = true ∧
            (item.itemType = .regularFile ∨ item.itemType = .symlink)) := by
  unfold sourceDrafts
  dsimp only
  rw [List.mem_append, Option.mem_toList, Option.map_eq_some_iff]
  constructor
  · rintro (⟨kind, hkind, rfl⟩ | hremoval)
    · exact ⟨rfl, .inl hkind⟩
    · split at hremoval
      · rename_i hcondition
        obtain rfl := List.mem_singleton.mp hremoval
        exact ⟨rfl, .inr ⟨rfl, hcondition⟩⟩
      · cases hremoval
  · rintro ⟨heq, hkind | ⟨hkind, hcondition⟩⟩
    · exact .inl ⟨draft.kind, hkind, heq.symm⟩
    · right
      rw [if_pos hcondition, heq, hkind]
      exact .head _

theorem mem_cleanupDrafts : draft ∈ cleanupDrafts specification source destination ↔
    specification.options.destinationCleanup = true ∧
      ∃ item ∈ destination.items, item.outcome = .included ∧
        sourceByPath source item.relativePath = none ∧
        draft = ⟨item.relativePath, .removeDestination, .ofSource specification.source,
          dataSize item⟩ := by
  unfold cleanupDrafts
  split <;> rename_i h
  · simp only [h, true_and, List.mem_map, List.mem_filter, mem_includedItems,
      Option.isNone_iff_eq_none, and_assoc]
    exact ⟨fun ⟨item, hitem, hin, hnone, heq⟩ => ⟨item, hitem, hin, hnone, heq.symm⟩,
      fun ⟨item, hitem, hin, hnone, heq⟩ => ⟨item, hitem, hin, hnone, heq.symm⟩⟩
  · simp [h]

theorem planDrafts_oneWay (hmode : specification.mode = .oneWay)
    (source destination : SourceInventory) :
    planDrafts specification source destination =
      source.includedItems.flatMap (sourceDrafts specification destination) ++
        cleanupDrafts specification source destination := by
  unfold planDrafts
  rw [hmode]

theorem planDrafts_mirror (hmode : specification.mode = .mirror)
    (source destination : SourceInventory) :
    planDrafts specification source destination = mirrorDrafts source destination := by
  unfold planDrafts
  rw [hmode]

theorem transferKind_cases {metadata : MetadataRequirements} {item : InventoryItem}
    {destinationItem : Option InventoryItem} {kind : PlanActionKind}
    (h : transferKind metadata item destinationItem = some kind) :
    (kind = .copyToDestination ∧ destinationItem = none) ∨
      (kind = .overwriteDestination ∧ ∃ found, destinationItem = some found ∧
        found.outcome = .included ∧
        MirrorEquality.equalInventory ⟨metadata⟩ item found = false) := by
  cases destinationItem with
  | none =>
      cases h
      exact .inl ⟨rfl, rfl⟩
  | some found =>
      unfold transferKind at h
      dsimp only at h
      split at h
      · cases h
      · rename_i heligible
        split at h
        · rename_i hunequal
          cases h
          simp [InventoryItem.isEligible] at heligible hunequal
          exact .inr ⟨rfl, found, rfl, heligible, hunequal⟩
        · cases h

/-- **What a One-Way plan has**: of the source the items to transfer and to drain, of the
destination those to clean up. -/
theorem mem_oneWayDrafts (hmode : specification.mode = .oneWay) :
    draft ∈ planDrafts specification source destination ↔
      (∃ item ∈ source.items, item.outcome = .included ∧
        draft = ⟨item.relativePath, draft.kind, .ofSource specification.source, dataSize item⟩ ∧
        (transferKind specification.options.metadata item
            (sourceByPath destination item.relativePath) = some draft.kind ∨
          draft.kind = .removeSourceAfterVerification ∧
            specification.options.safeDelete = true ∧
            (sourceByPath destination item.relativePath).all (·.isEligible) = true ∧
            (item.itemType = .regularFile ∨ item.itemType = .symlink))) ∨
      specification.options.destinationCleanup = true ∧
        ∃ item ∈ destination.items, item.outcome = .included ∧
          sourceByPath source item.relativePath = none ∧
          draft = ⟨item.relativePath, .removeDestination, .ofSource specification.source,
            dataSize item⟩ := by
  rw [planDrafts_oneWay hmode, List.mem_append, List.mem_flatMap, mem_cleanupDrafts]
  simp only [mem_includedItems, mem_sourceDrafts, and_assoc]

/-- Its transfers, -/
theorem transfer_mem_oneWayDrafts (hmode : specification.mode = .oneWay)
    (hkind : draft.kind = .copyToDestination ∨ draft.kind = .overwriteDestination) :
    draft ∈ planDrafts specification source destination ↔
      ∃ item ∈ source.items, item.outcome = .included ∧
        draft = ⟨item.relativePath, draft.kind, .ofSource specification.source, dataSize item⟩ ∧
        transferKind specification.options.metadata item
          (sourceByPath destination item.relativePath) = some draft.kind := by
  rw [mem_oneWayDrafts hmode]
  constructor
  · rintro (⟨item, hmem, hin, heq, htransfer | ⟨hremoval, -⟩⟩ | ⟨-, item, -, -, -, heq⟩)
    · exact ⟨item, hmem, hin, heq, htransfer⟩
    · rw [hremoval] at hkind
      rcases hkind with hkind | hkind <;> cases hkind
    · rw [heq] at hkind
      rcases hkind with hkind | hkind <;> cases hkind
  · rintro ⟨item, hmem, hin, heq, htransfer⟩
    exact .inl ⟨item, hmem, hin, heq, .inl htransfer⟩

/-- and its removals. -/
theorem removal_mem_oneWayDrafts (hmode : specification.mode = .oneWay)
    (hkind : draft.kind = .removeDestination) :
    draft ∈ planDrafts specification source destination ↔
      specification.options.destinationCleanup = true ∧
        ∃ item ∈ destination.items, item.outcome = .included ∧
          sourceByPath source item.relativePath = none ∧
          draft = ⟨item.relativePath, .removeDestination, .ofSource specification.source,
            dataSize item⟩ := by
  rw [mem_oneWayDrafts hmode, or_iff_right]
  rintro ⟨item, -, -, -, htransfer | ⟨hremoval, -⟩⟩
  · rcases transferKind_cases htransfer with ⟨hcopy, -⟩ | ⟨hoverwrite, -⟩
    · exact absurd (hkind.symm.trans hcopy) (by decide)
    · exact absurd (hkind.symm.trans hoverwrite) (by decide)
  · exact absurd (hkind.symm.trans hremoval) (by decide)

/-- Every planned action has its item in the inventory it is about. -/
theorem covered_of_mem_planDrafts (h : action.draft ∈ planDrafts specification source destination) :
    ((planInventory specification.mode source destination action).item
      action.relativePath).isSome = true := by
  cases hmode : specification.mode with
  | mirror =>
      rw [planDrafts_mirror hmode] at h
      obtain ⟨hcopy, item, hpath, hsides⟩ := sourced_of_mem_mirrorDrafts h
      have hkind : action.kind = .copyToDestination := hcopy
      rcases hsides with ⟨hside, hmem⟩ | ⟨hside, hmem⟩
      · have hside : action.sourceSide = .peerA := hside
        have hinventory : planInventory .mirror source destination action = source := by
          simp [planInventory, hkind, hside]
        rw [hinventory]
        exact item_isSome hmem hpath
      · have hside : action.sourceSide = .peerB := hside
        have hinventory : planInventory .mirror source destination action = destination := by
          simp [planInventory, hkind, hside]
        rw [hinventory]
        exact item_isSome hmem hpath
  | oneWay =>
      unfold planInventory
      by_cases hremoval : action.kind = .removeDestination
      · obtain ⟨-, item, hmem, -, -, heq⟩ := (removal_mem_oneWayDrafts hmode hremoval).mp h
        have hpath : action.relativePath = item.relativePath :=
          congrArg ActionDraft.relativePath heq
        rw [if_pos hremoval]
        exact item_isSome hmem (by rw [hpath])
      · rw [if_neg hremoval]
        rcases (mem_oneWayDrafts hmode).mp h with ⟨item, hmem, -, heq, -⟩ | ⟨-, item, -, -, -, heq⟩
        · have hpath : action.relativePath = item.relativePath :=
            congrArg ActionDraft.relativePath heq
          exact item_isSome hmem (by rw [hpath])
        · exact absurd (congrArg ActionDraft.kind heq) hremoval

/-- **Validation finds nothing.** A plan of two inventories without a path twice is
returned as it was built. -/
theorem buildPlan_distinct (hsource : source.DistinctPaths)
    (hdestination : destination.DistinctPaths) :
    buildPlan specification source destination =
      .ok (numberDrafts (planDrafts specification source destination)) := by
  have hitem := fun p => hsource.getByPath_eq p
  have hitem' := fun p => hdestination.getByPath_eq p
  refine buildPlan_eq_ok.mpr ⟨rfl, fun action haction => ?_⟩
  have hdraft := draft_mem_of_mem haction
  unfold validateAction
  dsimp only
  rw [ensure_bind_eq_ok]
  cases hmode : specification.mode with
  | mirror =>
      rw [planDrafts_mirror hmode] at hdraft
      have hcopy : action.kind = .copyToDestination := (sourced_of_mem_mirrorDrafts hdraft).1
      rcases (mem_mirrorDrafts.mp hdraft).2 with ⟨item, hget, -, hin, heq⟩ |
        ⟨item, -, hget, hin, heq⟩
      · have hside : action.sourceSide = .peerA := congrArg ActionDraft.sourceSide heq
        have hfound : source.item action.relativePath = some item :=
          (hitem action.relativePath).symm.trans hget
        rw [hside, hcopy, sendingInventory_peerA]
        exact ⟨by simp [hfound, InventoryItem.isEligible, hin], rfl⟩
      · have hside : action.sourceSide = .peerB := congrArg ActionDraft.sourceSide heq
        have hfound : destination.item action.relativePath = some item :=
          (hitem' action.relativePath).symm.trans hget
        rw [hside, hcopy, sendingInventory_peerB hmode]
        exact ⟨by simp [hfound, InventoryItem.isEligible, hin], rfl⟩
  | oneWay =>
      rw [sendingInventory_oneWay hmode]
      rcases (mem_oneWayDrafts hmode).mp hdraft with ⟨item, hmem, hin, heq, hkind⟩ |
        ⟨hcleanup, item, -, -, hnone, heq⟩
      · have hpath : action.relativePath = item.relativePath :=
          congrArg ActionDraft.relativePath heq
        have hfound : source.item action.relativePath = some item :=
          hsource.item_eq_some.mpr ⟨hmem, by rw [hpath]⟩
        refine ⟨by simp [hfound, InventoryItem.isEligible, hin], ?_⟩
        have hkind' : action.draft.kind = action.kind := rfl
        rw [hkind'] at hkind
        rcases hkind with hkind | ⟨hkind, hsafe, -⟩
        · rcases transferKind_cases hkind with ⟨hkind, -⟩ | ⟨hkind, -⟩ <;> rw [hkind] <;> rfl
        · rw [hkind]
          exact ensure_of hsafe
      · have hkind : action.kind = .removeDestination := congrArg ActionDraft.kind heq
        have hpath : action.relativePath = item.relativePath :=
          congrArg ActionDraft.relativePath heq
        have hfound : source.item action.relativePath = none := by
          rw [hpath, ← hitem item.relativePath]
          exact hnone
        rw [hkind, hfound]
        exact ⟨rfl, ensure_of hcleanup⟩

theorem buildPlan_inScope {w : WalkScope} (hsource : w.InScope source)
    (hdestination : w.InScope destination) :
    buildPlan specification source destination =
      .ok (numberDrafts (planDrafts specification source destination)) :=
  buildPlan_distinct hsource.nodup hdestination.nodup

end

/-! ## Fresh analyses -/

/-- An analysis: its specification is that of its profile, and its plan the one
built from its inventories. -/
structure FreshAnalysis where
  profile : SyncProfile
  specification : ProcessSpecification
  specified : ∃ isDir, ProcessSpecification.fromProfile isDir profile = .ok specification
  sourceInventory : SourceInventory
  destinationInventory : SourceInventory
  actions : List PlanAction
  planned : buildPlan specification sourceInventory destinationInventory = .ok actions

namespace FreshAnalysis

def fromInventories (profile : SyncProfile) (specification : ProcessSpecification)
    (specified : ∃ isDir, ProcessSpecification.fromProfile isDir profile = .ok specification)
    (source destination : SourceInventory) : Except AnalysisError FreshAnalysis :=
  match planned : buildPlan specification source destination with
  | .error error => .error error
  | .ok actions => .ok {
      profile, specification, specified, actions, planned
      sourceInventory := source
      destinationInventory := destination }

/-- The mode of an analysis is its profile's. -/
theorem mode_eq (analysis : FreshAnalysis) :
    analysis.specification.mode = analysis.profile.mode := by
  obtain ⟨isDir, h⟩ := analysis.specified
  unfold ProcessSpecification.fromProfile at h
  obtain ⟨options, -, h⟩ := bind_eq_ok.mp h
  obtain ⟨-, h⟩ := unit_bind_eq_ok.mp h
  exact (Except.ok.inj h) ▸ rfl

/-- The options of an analysis are its profile's. -/
theorem options_eq (analysis : FreshAnalysis) :
    analysis.specification.options.toSyncOptions = analysis.profile.options := by
  obtain ⟨isDir, h⟩ := analysis.specified
  unfold ProcessSpecification.fromProfile at h
  obtain ⟨options, hoptions, h⟩ := bind_eq_ok.mp h
  obtain ⟨-, h⟩ := unit_bind_eq_ok.mp h
  rw [← Except.ok.inj h]
  exact SyncOptions.validate_eq_ok.mp hoptions

def sourceSnapshot (analysis : FreshAnalysis) : SourceInventorySnapshot :=
  let peer :=
    if analysis.profile.mode = .mirror then analysis.profile.peerA
    else analysis.profile.sourcePeer
  .fromInventory peer.name peer.root analysis.sourceInventory

def destinationSnapshot (analysis : FreshAnalysis) : SourceInventorySnapshot :=
  if analysis.profile.mode = .mirror then
    .fromInventory analysis.profile.peerB.name analysis.profile.peerB.root
      analysis.destinationInventory
  else
    .fromInventory analysis.profile.destinationPeer.name analysis.specification.destinationRoot
      analysis.destinationInventory

/-- The plan of an analysis, as a run executes it: no list is longer than
memory is large. -/
def plan (analysis : FreshAnalysis) (bounded : analysis.actions.length < 2 ^ 63) :
    OneWayPlan where
  mode := analysis.specification.mode
  options := analysis.specification.options
  sourceInventory := analysis.sourceInventory
  destinationInventory := analysis.destinationInventory
  actions := analysis.actions
  numbered := by
    obtain ⟨hactions, -⟩ := buildPlan_eq_ok.mp analysis.planned
    rw [hactions, map_actionId_numberDrafts, length_numberDrafts]
  bounded
  covered := by
    intro action haction
    obtain ⟨hactions, -⟩ := buildPlan_eq_ok.mp analysis.planned
    rw [hactions] at haction
    exact covered_of_mem_planDrafts (draft_mem_of_mem haction)

end FreshAnalysis

/-- The file system of a moment, as an analysis asks it. -/
structure FileSystem where
  lossy : LossyNames
  isDir : Directories
  tree : PathBuf → FileTree

/-- `selected_peers`: the source and the destination. -/
def selectedPeers (profile : SyncProfile) : Peer × Peer :=
  (profile.sourcePeer, profile.destinationPeer)

def analysisDestinationPeer (isDir : Directories) (profile : SyncProfile) : Peer :=
  if profile.mode = .mirror then profile.peerB
  else
    let destination := (selectedPeers profile).2
    let effectiveRoot := profile.effectiveDestinationRoot
    if destination.isSsh = false ∧ isDir effectiveRoot = true then
      ⟨destination.name, .local effectiveRoot⟩
    else destination

def analysisSourcePeer (profile : SyncProfile) : Peer :=
  if profile.mode = .mirror then profile.peerA else (selectedPeers profile).1

def FileSystem.collect (fs : FileSystem) (exclusions : List String) (peer : Peer) :
    Except AnalysisError SourceInventory :=
  WalkScope.collectInventory ⟨fs.lossy, exclusions⟩ peer.name peer.root (fs.tree peer.root)

/-- `FreshAnalysis::analyze`. -/
def FreshAnalysis.analyze (fs : FileSystem) (profile : SyncProfile) :
    Except AnalysisError FreshAnalysis :=
  match specified : ProcessSpecification.fromProfile fs.isDir profile with
  | .error error => .error (.processSpecification error)
  | .ok specification =>
      match [profile.peerA, profile.peerB].find? (·.isSsh) with
      | some peer => .error (.unsupportedRemotePeer peer.name)
      | none => do
          let source ← fs.collect specification.exclusions (analysisSourcePeer profile)
          let destination ← fs.collect specification.exclusions
            (analysisDestinationPeer fs.isDir profile)
          fromInventories profile specification ⟨fs.isDir, specified⟩ source destination

theorem FreshAnalysis.analyze_eq_ok {fs : FileSystem} {profile : SyncProfile}
    {analysis : FreshAnalysis} (h : analyze fs profile = .ok analysis) :
    analysis.profile = profile ∧
      ProcessSpecification.fromProfile fs.isDir profile = .ok analysis.specification ∧
      (profile.peerA.isSsh = false ∧ profile.peerB.isSsh = false) ∧
      fs.collect analysis.specification.exclusions (analysisSourcePeer profile) =
        .ok analysis.sourceInventory ∧
      fs.collect analysis.specification.exclusions (analysisDestinationPeer fs.isDir profile) =
        .ok analysis.destinationInventory := by
  unfold analyze at h
  split at h
  · cases h
  · rename_i specification hspecification
    split at h
    · cases h
    · rename_i hlocal
      obtain ⟨source, hsource, h⟩ := bind_eq_ok.mp h
      obtain ⟨destination, hdestination, h⟩ := bind_eq_ok.mp h
      unfold fromInventories at h
      split at h
      · cases h
      · cases h
        refine ⟨rfl, hspecification, ?_, hsource, hdestination⟩
        simpa using hlocal

end SyncPlus
