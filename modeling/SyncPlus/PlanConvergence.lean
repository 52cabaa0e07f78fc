import SyncPlus.Confirmation

/-!
# Plans converge

A One-Way plan that was applied plans nothing more to transfer. To apply a plan is to put,
for each of its copies and overwrites, an included item at the path of the action that is
like the source's (`applyTransfers`). What is put there equals the item of the source
under every requirement, and elsewhere the destination is as it was, so the next plan
finds nothing to copy or overwrite (`planning_converges`). No action of either plan
names a path whose item is excluded or unsupported on one side.
-/

namespace SyncPlus

/-! ## Applying a plan -/

def PlanActionKind.isTransfer : PlanActionKind → Bool
  | copyToDestination | overwriteDestination => true
  | removeDestination | removeSourceAfterVerification => false

/-- The included item with the type, size, time, mode, link target and fingerprint of this one. -/
def InventoryItem.transferred (item : InventoryItem) (relativePath : PathBuf) (readonly : Bool) :
    InventoryItem where
  relativePath
  itemType := item.itemType
  metadata := { item.metadata with readonly }
  outcome := .included
  contentFingerprint := item.contentFingerprint

namespace SourceInventory

def set (inventory : SourceInventory) (item : InventoryItem) : SourceInventory :=
  ⟨(inventory.items.filter fun other => !other.relativePath.same item.relativePath) ++ [item]⟩

/-- `readonly`: the flag of the written items, which nothing compares. -/
def applyTransfer (readonly : PathBuf → Bool) (source inventory : SourceInventory)
    (action : PlanAction) : SourceInventory :=
  if action.kind.isTransfer then
    match source.item action.relativePath with
    | some item =>
        inventory.set (item.transferred action.relativePath (readonly action.relativePath))
    | none => inventory
  else inventory

def applyTransfers (readonly : PathBuf → Bool) (source destination : SourceInventory)
    (actions : List PlanAction) : SourceInventory :=
  actions.foldl (applyTransfer readonly source) destination

/-- At the path stands the item that was transferred there. -/
def HasTransferred (inventory : SourceInventory) (p : PathBuf) (item : InventoryItem) : Prop :=
  ∃ relativePath readonly, inventory.item p = some (item.transferred relativePath readonly)

section

variable {inventory source destination : SourceInventory} {item : InventoryItem} {p : PathBuf}
  {readonly : PathBuf → Bool} {action : PlanAction} {actions : List PlanAction}

theorem item_set_of_same (h : item.relativePath.components = p.components) :
    (inventory.set item).item p = some item := by
  unfold SourceInventory.item set
  rw [List.find?_append, List.find?_eq_none.mpr, Option.none_or]
  · exact List.find?_cons_of_pos (p := fun other : InventoryItem => other.relativePath.same p)
      (PathBuf.same_iff.mpr h)
  · intro other hother hsame
    have hkept := (List.mem_filter.mp hother).2
    rw [Bool.not_eq_true', ← Bool.not_eq_true, PathBuf.same_iff] at hkept
    exact hkept ((PathBuf.same_iff.mp hsame).trans h.symm)

theorem item_set_of_ne (h : item.relativePath.components ≠ p.components) :
    (inventory.set item).item p = inventory.item p := by
  have hlast : [item].find? (fun other => other.relativePath.same p) = none := by
    simpa [PathBuf.same] using h
  unfold SourceInventory.item set
  rw [List.find?_append, hlast, Option.or_none, List.find?_filter]
  refine congrArg (List.find? · inventory.items) (funext fun other => ?_)
  by_cases hsame : other.relativePath.same p = true
  · have hkept : other.relativePath.same item.relativePath = false := by
      rw [← Bool.not_eq_true, PathBuf.same_iff, PathBuf.same_iff.mp hsame]
      exact Ne.symm h
    rw [hkept, hsame]
    rfl
  · simp [hsame]

theorem DistinctPaths.set (h : inventory.DistinctPaths) : (inventory.set item).DistinctPaths := by
  unfold DistinctPaths SourceInventory.set
  rw [List.map_append, List.nodup_append]
  refine ⟨(List.filter_sublist.map _).nodup h, by simp, ?_⟩
  rintro components hkept last hlast rfl
  obtain ⟨other, hother, hsame⟩ := List.mem_map.mp hkept
  obtain rfl := List.mem_singleton.mp hlast
  have hne := (List.mem_filter.mp hother).2
  rw [PathBuf.same_iff.mpr hsame] at hne
  cases hne

/-- **One action.** It puts the item at its path, -/
theorem hasTransferred_applyTransfer (htransfer : action.kind.isTransfer = true)
    (hpath : action.relativePath.components = p.components) (hitem : source.item p = some item) :
    (applyTransfer readonly source inventory action).HasTransferred p item := by
  unfold applyTransfer
  rw [if_pos htransfer, source.item_congr hpath, hitem]
  exact ⟨_, _, item_set_of_same hpath⟩

/-- and leaves every other path as it is. -/
theorem item_applyTransfer (h : ¬ (action.kind.isTransfer = true ∧
    action.relativePath.components = p.components)) :
    (applyTransfer readonly source inventory action).item p = inventory.item p := by
  unfold applyTransfer
  split
  · rename_i htransfer
    split
    · exact item_set_of_ne fun hpath => h ⟨htransfer, hpath⟩
    · rfl
  · rfl

/-- The action transfers an item to this path. -/
def Transfers (action : PlanAction) (p : PathBuf) : Prop :=
  action.kind.isTransfer = true ∧ action.relativePath.components = p.components

theorem hasTransferred_applyTransfers (hitem : source.item p = some item)
    (h : inventory.HasTransferred p item ∨ ∃ action ∈ actions, Transfers action p) :
    (applyTransfers readonly source inventory actions).HasTransferred p item := by
  induction actions generalizing inventory with
  | nil => exact h.resolve_right (by simp)
  | cons action actions ih =>
      refine ih ?_
      by_cases hhere : Transfers action p
      · exact .inl (hasTransferred_applyTransfer hhere.1 hhere.2 hitem)
      · rcases h with ⟨relativePath, flag, hfound⟩ | ⟨other, hother, htransfers⟩
        · exact .inl ⟨relativePath, flag, (item_applyTransfer hhere).trans hfound⟩
        · rcases List.mem_cons.mp hother with rfl | hother
          · exact absurd htransfers hhere
          · exact .inr ⟨other, hother, htransfers⟩

theorem item_applyTransfers (h : ∀ action ∈ actions, ¬ Transfers action p) :
    (applyTransfers readonly source inventory actions).item p = inventory.item p := by
  induction actions generalizing inventory with
  | nil => rfl
  | cons action actions ih =>
      obtain ⟨hhere, hrest⟩ := List.forall_mem_cons.mp h
      exact (ih hrest).trans (item_applyTransfer hhere)

theorem DistinctPaths.applyTransfers (h : inventory.DistinctPaths) (readonly : PathBuf → Bool)
    (source : SourceInventory) (actions : List PlanAction) :
    (applyTransfers readonly source inventory actions).DistinctPaths := by
  induction actions generalizing inventory with
  | nil => exact h
  | cons action actions ih =>
      refine ih ?_
      unfold applyTransfer
      split
      · split
        · exact h.set
        · exact h
      · exact h

end

end SourceInventory

/-! ## What a transfer leaves to do -/

section

variable {metadata : MetadataRequirements} {item : InventoryItem}

/-- **What was transferred is equal**, unless nothing can be. -/
theorem equalInventory_transferred (hincluded : item.outcome = .included)
    (hcomparable : item.parts.Comparable metadata) (relativePath : PathBuf) (readonly : Bool) :
    MirrorEquality.equalInventory ⟨metadata⟩ item (item.transferred relativePath readonly) =
      true := by
  have hparts : (item.transferred relativePath readonly).parts = item.parts := rfl
  unfold MirrorEquality.equalInventory
  rw [if_neg, hparts, equalParts_iff]
  · exact ⟨hcomparable, rfl⟩
  · rw [hincluded]
    simp [InventoryItem.transferred]

theorem transferKind_transferred (hincluded : item.outcome = .included)
    (hcomparable : item.parts.Comparable metadata) (relativePath : PathBuf) (readonly : Bool) :
    transferKind metadata item (some (item.transferred relativePath readonly)) = none := by
  unfold transferKind
  dsimp only
  rw [equalInventory_transferred hincluded hcomparable]
  rfl

end

/-! ## Eligible paths -/

/-- No action names a path whose item is excluded or unsupported on one side. -/
def NamesEligible (source destination : SourceInventory) (actions : List PlanAction) : Prop :=
  ∀ action ∈ actions, ∀ item, item ∈ source.items ∨ item ∈ destination.items →
    item.relativePath.components = action.relativePath.components → item.outcome = .included

section

variable {specification : ProcessSpecification} {source destination : SourceInventory}
  {readonly : PathBuf → Bool}

theorem namesEligible_planDrafts (hmode : specification.mode = .oneWay)
    (hsource : source.DistinctPaths) (hdestination : destination.DistinctPaths) :
    NamesEligible source destination
      (numberDrafts (planDrafts specification source destination)) := by
  intro action haction item hitem hpath
  have hdraft := draft_mem_of_mem haction
  rcases (mem_oneWayDrafts hmode).mp hdraft with ⟨found, hmem, hincluded, heq, hkind⟩ |
    ⟨-, found, hmem, hincluded, hnone, heq⟩
  · have hsame : action.relativePath = found.relativePath := congrArg ActionDraft.relativePath heq
    rw [hsame] at hpath
    rcases hitem with hitem | hitem
    · rwa [List.inj_on_of_nodup_map hsource hitem hmem hpath]
    · have hget : sourceByPath destination found.relativePath = some item :=
        (hdestination.getByPath_eq _).trans (hdestination.item_eq_some.mpr ⟨hitem, hpath⟩)
      rw [hget] at hkind
      rcases hkind with hkind | ⟨-, -, heligible, -⟩
      · rcases transferKind_cases hkind with ⟨-, hnone⟩ | ⟨-, other, hother, hin, -⟩
        · cases hnone
        · cases hother
          exact hin
      · simpa [InventoryItem.isEligible] using heligible
  · have hsame : action.relativePath = found.relativePath := congrArg ActionDraft.relativePath heq
    rw [hsame] at hpath
    rcases hitem with hitem | hitem
    · exact absurd hpath (getByPath_eq_none.mp hnone item hitem)
    · rwa [List.inj_on_of_nodup_map hdestination hitem hmem hpath]

/-- **After the plan no item of the source is transferred.** -/
theorem transferKind_applyTransfers (hmode : specification.mode = .oneWay)
    (hspecialist : specification.options.metadata.specialist.any = false)
    (hsource : source.DistinctPaths) (hdestination : destination.DistinctPaths)
    (hfingerprints : ∀ item ∈ source.items, item.outcome = .included →
      item.itemType = .regularFile → item.contentFingerprint.isSome = true)
    {item : InventoryItem} (hitem : item ∈ source.includedItems) :
    transferKind specification.options.metadata item
      (sourceByPath (source.applyTransfers readonly destination
        (numberDrafts (planDrafts specification source destination))) item.relativePath) = none := by
  obtain ⟨hmem, hincluded⟩ := mem_includedItems.mp hitem
  have hget := (hdestination.applyTransfers readonly source
    (numberDrafts (planDrafts specification source destination))).getByPath_eq item.relativePath
  rw [sourceByPath, hget]
  by_cases htransfers : ∃ action ∈ numberDrafts (planDrafts specification source destination),
      SourceInventory.Transfers action item.relativePath
  · obtain ⟨relativePath, flag, hfound⟩ := SourceInventory.hasTransferred_applyTransfers
      (hsource.item_eq_some.mpr ⟨hmem, rfl⟩) (.inr htransfers)
    rw [hfound]
    refine transferKind_transferred hincluded ⟨hspecialist, fun hfile => ?_⟩ _ _
    have hsome := hfingerprints item hmem hincluded hfile
    exact Option.isSome_iff_ne_none.mp hsome
  · rw [SourceInventory.item_applyTransfers fun action haction h => htransfers ⟨action, haction, h⟩,
      ← hdestination.getByPath_eq]
    -- what the first plan does not transfer, it has found to be no transfer
    cases hkind : transferKind specification.options.metadata item
        (sourceByPath destination item.relativePath) with
    | none => exact hkind
    | some kind =>
        exfalso
        have hdraft : (⟨item.relativePath, kind, .ofSource specification.source, dataSize item⟩ :
            ActionDraft) ∈ planDrafts specification source destination :=
          (mem_oneWayDrafts hmode).mpr (.inl ⟨item, hmem, hincluded, rfl, .inl hkind⟩)
        obtain ⟨action, haction, heq⟩ := exists_mem_of_draft_mem hdraft
        have hactionKind : action.kind = kind := congrArg ActionDraft.kind heq
        have hactionPath : action.relativePath = item.relativePath :=
          congrArg ActionDraft.relativePath heq
        refine htransfers ⟨action, haction, ?_, by rw [hactionPath]⟩
        rw [hactionKind]
        rcases transferKind_cases hkind with ⟨rfl, -⟩ | ⟨rfl, -⟩ <;> rfl

/-- **One-Way planning converges.** -/
theorem planning_converges (hmode : specification.mode = .oneWay)
    (hspecialist : specification.options.metadata.specialist.any = false)
    (hsource : source.DistinctPaths) (hdestination : destination.DistinctPaths)
    (hfingerprints : ∀ item ∈ source.items, item.outcome = .included →
      item.itemType = .regularFile → item.contentFingerprint.isSome = true) :
    ∃ actions, buildPlan specification source destination = .ok actions ∧
      ∃ actions', buildPlan specification source
          (source.applyTransfers readonly destination actions) = .ok actions' ∧
        (∀ action ∈ actions', action.kind.isTransfer = false) ∧
        NamesEligible source destination actions ∧
        NamesEligible source (source.applyTransfers readonly destination actions) actions' ∧
        NamesEligible source destination actions' := by
  have happlied := hdestination.applyTransfers readonly source
    (numberDrafts (planDrafts specification source destination))
  have hfirst := namesEligible_planDrafts hmode hsource hdestination
  have hsecond := namesEligible_planDrafts hmode hsource happlied
  refine ⟨_, buildPlan_distinct hsource hdestination, _, buildPlan_distinct hsource happlied,
    ?_, hfirst, hsecond, ?_⟩
  · intro action haction
    rcases (mem_oneWayDrafts hmode).mp (draft_mem_of_mem haction) with
      ⟨item, hmem, hincluded, -, hkind | ⟨hkind, -⟩⟩ | ⟨-, item, -, -, -, heq⟩
    · have hnone : transferKind specification.options.metadata item
          (sourceByPath (source.applyTransfers readonly destination (numberDrafts
            (planDrafts specification source destination))) item.relativePath) = none :=
        transferKind_applyTransfers hmode hspecialist hsource hdestination hfingerprints
          (mem_includedItems.mpr ⟨hmem, hincluded⟩)
      rw [hnone] at hkind
      cases hkind
    · rw [show action.kind = .removeSourceAfterVerification from hkind]
      rfl
    · rw [show action.kind = .removeDestination from congrArg ActionDraft.kind heq]
      rfl
  · intro action haction item hitem hpath
    rcases hitem with hitem | hitem
    · exact hsecond action haction item (.inl hitem) hpath
    · by_cases htransfers : ∃ transfer ∈ numberDrafts (planDrafts specification source destination),
          SourceInventory.Transfers transfer action.relativePath
      · obtain ⟨transfer, htransfer, -, hsame⟩ := htransfers
        exact hfirst transfer htransfer item (.inr hitem) (hpath.trans hsame.symm)
      · have hfound : (source.applyTransfers readonly destination (numberDrafts
            (planDrafts specification source destination))).item action.relativePath = some item := by
          rw [SourceInventory.item_applyTransfers fun transfer htransfer h =>
            htransfers ⟨transfer, htransfer, h⟩]
          exact hdestination.item_eq_some.mpr ⟨hitem, hpath⟩
        exact hsecond action haction item (.inr (happlied.item_eq_some.mp hfound).1) hpath

end

/-! ### A file that is overwritten -/

def contentX (content : Sha256) : SourceInventory :=
  ⟨[inventoryItem ⟨[120]⟩ false (plainFile content)]⟩

theorem planning_converges_overwritten :
    ∃ actions, buildPlan copyingSpecification (contentX zeroHash) (contentX otherHash) =
        .ok actions ∧
      ∃ actions', buildPlan copyingSpecification (contentX zeroHash)
          ((contentX zeroHash).applyTransfers (fun _ => false) (contentX otherHash) actions) =
            .ok actions' ∧
        (∀ action ∈ actions', action.kind.isTransfer = false) ∧
        NamesEligible (contentX zeroHash) (contentX otherHash) actions ∧
        NamesEligible (contentX zeroHash)
          ((contentX zeroHash).applyTransfers (fun _ => false) (contentX otherHash) actions)
            actions' ∧
        NamesEligible (contentX zeroHash) (contentX otherHash) actions' :=
  planning_converges rfl rfl (by decide) (by decide) (by decide)

end SyncPlus
