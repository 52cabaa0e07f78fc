import SyncPlus.Analysis

/-!
# Confirmation

A reviewed analysis is confirmed against one made just before the run. The
two are compared path by path (`AnalysisRevision.changedPaths`), by type,
metadata and outcome; the content is part of a revision but not of the
comparison. The plans are compared too, and when they differ every path of
either is reported. So a path whose content alone has changed goes unnoticed
unless its action is one of a plan that has changed (`confirmation_fresh_iff`).
-/

namespace SyncPlus

/-! ## Equal values -/

def SyncProfile.same (profile other : SyncProfile) : Bool :=
  profile.name = other.name && profile.peerA.same other.peerA &&
    profile.peerB.same other.peerB && profile.mode = other.mode &&
    profile.source = other.source && profile.options = other.options &&
    profile.exclusions = other.exclusions

/-- What the equality of actions compares. The text of the consequence follows
from the mode, the kind and the side. -/
def PlanAction.compared (action : PlanAction) :
    ActionId × List Component × PlanActionKind × PeerSide × Option UInt64 :=
  (action.actionId, action.relativePath.components, action.kind, action.sourceSide, action.size)

/-! ## Revisions -/

/-- The values of an entry of `revision_map`, as their equality compares
them. -/
structure RevisionValue where
  itemType : ItemType
  size : UInt64
  modifiedAt : Option Int
  readonly : Bool
  permissions : Option UInt32
  symlinkTarget : Option (List Component)
  outcome : AnalysisOutcome
  deriving DecidableEq

def revisionValue (itemType : ItemType) (metadata : ItemMetadata) (outcome : AnalysisOutcome) :
    RevisionValue where
  itemType
  size := metadata.size
  modifiedAt := metadata.modifiedAt
  readonly := metadata.readonly
  permissions := metadata.permissions
  symlinkTarget := metadata.symlinkTarget.map PathBuf.components
  outcome

structure RevisionItem where
  relativePath : PathBuf
  itemType : ItemType
  metadata : ItemMetadata
  outcome : AnalysisOutcome
  contentFingerprint : Option Sha256
  deriving DecidableEq

def RevisionItem.fromItem (item : InventoryItem) : RevisionItem where
  relativePath := item.relativePath
  itemType := item.itemType
  metadata := item.metadata
  outcome := item.outcome
  contentFingerprint := item.contentFingerprint

structure AnalysisRevision where
  source : List RevisionItem
  destination : List RevisionItem
  deriving DecidableEq

def AnalysisRevision.fromInventories (source destination : SourceInventory) :
    AnalysisRevision where
  source := source.items.map .fromItem
  destination := destination.items.map .fromItem

/-- `revision_map`, asked for the values at a path. -/
def revisionMap (items : List RevisionItem) (path : PathBuf) : Option RevisionValue :=
  (getByPath RevisionItem.relativePath items path).map fun item =>
    revisionValue item.itemType item.metadata item.outcome

def changedPathsFor (left right : List RevisionItem) : List PathBuf :=
  (left.map (·.relativePath) ++ right.map (·.relativePath)).filter fun path =>
    revisionMap left path ≠ revisionMap right path

/-- `AnalysisRevision::changed_paths`. Equal maps have no changed path. -/
def AnalysisRevision.changedPaths (revision other : AnalysisRevision) : List PathBuf :=
  pathSet (changedPathsFor revision.source other.source ++
    changedPathsFor revision.destination other.destination)

namespace FreshAnalysis

def revision (analysis : FreshAnalysis) : AnalysisRevision :=
  .fromInventories analysis.sourceInventory analysis.destinationInventory

/-- The paths a confirmation reports. -/
def stalePaths (reviewed refreshed : FreshAnalysis) : List PathBuf :=
  let changedPaths := reviewed.revision.changedPaths refreshed.revision
  if reviewed.actions.map PlanAction.compared ≠ refreshed.actions.map PlanAction.compared then
    pathSet (changedPaths ++ reviewed.actions.map (·.relativePath) ++
      refreshed.actions.map (·.relativePath))
  else changedPaths

def confirmRefreshedUnchecked (reviewed : FreshAnalysis)
    (bounded : reviewed.actions.length < 2 ^ 63) (currentProfile : SyncProfile)
    (refreshed : FreshAnalysis) : Except AnalysisError ConfirmedPlan := do
  let changedPaths := reviewed.stalePaths refreshed
  ensure (changedPaths = []) (.staleAnalysis changedPaths)
  return ⟨reviewed.plan bounded, currentProfile⟩

def confirmRefreshed (reviewed : FreshAnalysis) (bounded : reviewed.actions.length < 2 ^ 63)
    (currentProfile : SyncProfile) (refreshed : FreshAnalysis) :
    Except AnalysisError ConfirmedPlan := do
  ensure (reviewed.profile.same currentProfile = true) .profileChanged
  reviewed.confirmRefreshedUnchecked bounded currentProfile refreshed

end FreshAnalysis

/-! ## What is reported -/

/-- What an inventory has of an item, but for its content. -/
def InventoryItem.value (item : InventoryItem) : RevisionValue :=
  revisionValue item.itemType item.metadata item.outcome

/-- What an inventory has of an item, its content included. -/
def InventoryItem.state (item : InventoryItem) : RevisionValue × Option Sha256 :=
  (item.value, item.contentFingerprint)

/-- The path is in both inventories as the same item, or in neither. -/
def SameAt (inventory other : SourceInventory) (p : PathBuf) : Prop :=
  (sourceByPath inventory p).map InventoryItem.state =
    (sourceByPath other p).map InventoryItem.state

instance (inventory other : SourceInventory) (p : PathBuf) :
    Decidable (SameAt inventory other p) :=
  inferInstanceAs (Decidable (_ = _))

/-- The path is in both inventories as items that differ in their contents at
most, or in neither. -/
def SameButContent (inventory other : SourceInventory) (p : PathBuf) : Prop :=
  (sourceByPath inventory p).map InventoryItem.value =
    (sourceByPath other p).map InventoryItem.value

instance (inventory other : SourceInventory) (p : PathBuf) :
    Decidable (SameButContent inventory other p) :=
  inferInstanceAs (Decidable (_ = _))

namespace FreshAnalysis

/-- The path is as it was when the analysis was reviewed, on both peers. -/
def FreshAt (reviewed refreshed : FreshAnalysis) (p : PathBuf) : Prop :=
  SameAt reviewed.sourceInventory refreshed.sourceInventory p ∧
    SameAt reviewed.destinationInventory refreshed.destinationInventory p

/-- The content of the path has changed, and nothing else of it. -/
def ContentOnlyChanged (reviewed refreshed : FreshAnalysis) (p : PathBuf) : Prop :=
  SameButContent reviewed.sourceInventory refreshed.sourceInventory p ∧
    SameButContent reviewed.destinationInventory refreshed.destinationInventory p ∧
    ¬ reviewed.FreshAt refreshed p

/-- The plans differ and one of them has an action at the path. -/
def Replanned (reviewed refreshed : FreshAnalysis) (p : PathBuf) : Prop :=
  reviewed.actions.map PlanAction.compared ≠ refreshed.actions.map PlanAction.compared ∧
    ∃ action ∈ reviewed.actions ++ refreshed.actions,
      action.relativePath.components = p.components

/-- The confirmation succeeds only for what was reviewed, and a failing one
lists every path that has changed. -/
structure ConfirmedFresh (reviewed refreshed : FreshAnalysis)
    (bounded : reviewed.actions.length < 2 ^ 63) : Prop where
  succeeds : ∀ confirmed,
    reviewed.confirmRefreshed bounded refreshed.profile refreshed = .ok confirmed →
      ∀ p, reviewed.FreshAt refreshed p
  lists : ∀ changedPaths,
    reviewed.confirmRefreshed bounded refreshed.profile refreshed =
      .error (.staleAnalysis changedPaths) →
      ∀ p, ¬ reviewed.FreshAt refreshed p → ∃ q ∈ changedPaths, q.components = p.components

end FreshAnalysis

section

variable {reviewed refreshed : FreshAnalysis} {p : PathBuf}

theorem getByPath_map {ι κ : Type} {f : ι → κ} {path : κ → PathBuf} {items : List ι} :
    getByPath path (items.map f) p = (getByPath (fun i => path (f i)) items p).map f := by
  rw [getByPath_eq_find, getByPath_eq_find, ← List.map_reverse, List.find?_map]
  rfl

theorem revisionMap_eq {inventory other : SourceInventory} :
    revisionMap (inventory.items.map .fromItem) p = revisionMap (other.items.map .fromItem) p ↔
      SameButContent inventory other p := by
  unfold revisionMap SameButContent
  rw [getByPath_map, getByPath_map, Option.map_map, Option.map_map]
  rfl

theorem SameAt.sameButContent {inventory other : SourceInventory} (h : SameAt inventory other p) :
    SameButContent inventory other p := by
  have hmap := congrArg (Option.map Prod.fst) h
  rw [Option.map_map, Option.map_map] at hmap
  exact hmap

/-- What a map holds at a path depends on its components only. -/
theorem getByPath_congr {ι : Type} {path : ι → PathBuf} {items : List ι} {q : PathBuf}
    (h : p.components = q.components) : getByPath path items p = getByPath path items q := by
  rw [getByPath_eq_find, getByPath_eq_find, h]

theorem mem_changedPathsFor {inventory other : SourceInventory} :
    (∃ q ∈ changedPathsFor (inventory.items.map .fromItem) (other.items.map .fromItem),
        q.components = p.components) ↔ ¬ SameButContent inventory other p := by
  rw [← revisionMap_eq]
  constructor
  · rintro ⟨q, hq, hpath⟩
    have hne := (List.mem_filter.mp hq).2
    unfold revisionMap at hne ⊢
    rw [getByPath_congr hpath, getByPath_congr hpath] at hne
    simpa using hne
  · intro hne
    have hitem : ∃ item ∈ inventory.items.map RevisionItem.fromItem ++
        other.items.map RevisionItem.fromItem, item.relativePath.components = p.components := by
      by_contra hnone
      push Not at hnone
      refine hne ?_
      unfold revisionMap
      rw [getByPath_eq_none.mpr fun item hitem => hnone item (List.mem_append_left _ hitem),
        getByPath_eq_none.mpr fun item hitem => hnone item (List.mem_append_right _ hitem)]
    obtain ⟨item, hitem, hpath⟩ := hitem
    refine ⟨item.relativePath, List.mem_filter.mpr ⟨?_, ?_⟩, hpath⟩
    · rw [← List.map_append]
      exact List.mem_map_of_mem hitem
    · unfold revisionMap at hne ⊢
      rw [getByPath_congr hpath, getByPath_congr hpath]
      simpa using hne

theorem exists_mem_pathSet_iff {paths : List PathBuf} :
    (∃ q ∈ pathSet paths, q.components = p.components) ↔
      ∃ q ∈ paths, q.components = p.components := by
  constructor
  · rintro ⟨q, hq, hpath⟩
    exact ⟨q, mem_pathSet hq, hpath⟩
  · rintro ⟨q, hq, hpath⟩
    obtain ⟨r, hr, hsame⟩ := exists_mem_pathSet hq
    exact ⟨r, hr, hsame.trans hpath⟩

/-- **What a confirmation reports**: the paths that changed in more than their
content, and every path of two plans that differ. -/
theorem mem_stalePaths : (∃ q ∈ reviewed.stalePaths refreshed, q.components = p.components) ↔
    ¬ SameButContent reviewed.sourceInventory refreshed.sourceInventory p ∨
      ¬ SameButContent reviewed.destinationInventory refreshed.destinationInventory p ∨
      reviewed.Replanned refreshed p := by
  have hchanged : (∃ q ∈ reviewed.revision.changedPaths refreshed.revision,
      q.components = p.components) ↔
      ¬ SameButContent reviewed.sourceInventory refreshed.sourceInventory p ∨
        ¬ SameButContent reviewed.destinationInventory refreshed.destinationInventory p := by
    unfold AnalysisRevision.changedPaths
    rw [exists_mem_pathSet_iff, ← mem_changedPathsFor, ← mem_changedPathsFor]
    simp only [List.mem_append, or_and_right, exists_or]
    rfl
  rw [← or_assoc, ← hchanged]
  unfold FreshAnalysis.stalePaths FreshAnalysis.Replanned
  dsimp only
  split <;> rename_i hplans
  · rw [exists_mem_pathSet_iff]
    constructor
    · rintro ⟨q, hq, hpath⟩
      rw [List.append_assoc, List.mem_append, ← List.map_append] at hq
      rcases hq with hq | hq
      · exact .inl ⟨q, hq, hpath⟩
      · obtain ⟨action, haction, rfl⟩ := List.mem_map.mp hq
        exact .inr ⟨hplans, action, haction, hpath⟩
    · rintro (⟨q, hq, hpath⟩ | ⟨-, action, haction, hpath⟩)
      · exact ⟨q, List.mem_append_left _ (List.mem_append_left _ hq), hpath⟩
      · refine ⟨action.relativePath, ?_, hpath⟩
        rw [List.append_assoc, List.mem_append, ← List.map_append]
        exact .inr (List.mem_map_of_mem haction)
  · simp [hplans]

variable (reviewed refreshed) in
theorem confirmRefreshed_eq (hsame : reviewed.profile.same refreshed.profile = true)
    (bounded : reviewed.actions.length < 2 ^ 63) :
    reviewed.confirmRefreshed bounded refreshed.profile refreshed =
      if reviewed.stalePaths refreshed = [] then .ok ⟨reviewed.plan bounded, refreshed.profile⟩
      else .error (.staleAnalysis (reviewed.stalePaths refreshed)) := by
  unfold FreshAnalysis.confirmRefreshed FreshAnalysis.confirmRefreshedUnchecked
  rw [ensure_of hsame, ok_bind]
  dsimp only
  unfold ensure
  split <;> rfl

end

/-- **When a confirmation is fresh.** A confirmation succeeds only for what was
reviewed, and lists every change otherwise, exactly when each path whose
content alone has changed has an action of one of two plans that differ. -/
theorem confirmation_fresh_iff {reviewed refreshed : FreshAnalysis}
    (bounded : reviewed.actions.length < 2 ^ 63)
    (hsame : reviewed.profile.same refreshed.profile = true) :
    reviewed.ConfirmedFresh refreshed bounded ↔
      ∀ p, reviewed.ContentOnlyChanged refreshed p → reviewed.Replanned refreshed p := by
  have hconfirm := confirmRefreshed_eq reviewed refreshed hsame bounded
  constructor
  · rintro h p ⟨hsource, hdestination, hchanged⟩
    have hlisted : ∃ q ∈ reviewed.stalePaths refreshed, q.components = p.components := by
      by_cases hstale : reviewed.stalePaths refreshed = []
      · rw [if_pos hstale] at hconfirm
        exact absurd (h.succeeds _ hconfirm p) hchanged
      · rw [if_neg hstale] at hconfirm
        exact h.lists _ hconfirm p hchanged
    rcases mem_stalePaths.mp hlisted with hlisted | hlisted | hlisted
    · exact absurd hsource hlisted
    · exact absurd hdestination hlisted
    · exact hlisted
  · intro h
    have hlisted : ∀ p, ¬ reviewed.FreshAt refreshed p →
        ∃ q ∈ reviewed.stalePaths refreshed, q.components = p.components := by
      intro p hchanged
      rw [mem_stalePaths]
      by_cases hsource : SameButContent reviewed.sourceInventory refreshed.sourceInventory p
      · by_cases hdestination :
          SameButContent reviewed.destinationInventory refreshed.destinationInventory p
        · exact .inr (.inr (h p ⟨hsource, hdestination, hchanged⟩))
        · exact .inr (.inl hdestination)
      · exact .inl hsource
    constructor
    · intro confirmed hok p
      by_contra hchanged
      obtain ⟨q, hq, -⟩ := hlisted p hchanged
      rw [hconfirm, if_neg (List.ne_nil_of_mem hq)] at hok
      cases hok
    · intro changedPaths herror p hchanged
      by_cases hstale : reviewed.stalePaths refreshed = []
      · rw [hconfirm, if_pos hstale] at herror
        cases herror
      · rw [hconfirm, if_neg hstale] at herror
        cases herror
        exact hlisted p hchanged

/-! ### A file whose content alone changes -/

/-- From `/a` to `/b` with the default options. -/
def copyingProfile : SyncProfile :=
  .new "Documents" ⟨"Laptop", .local ⟨[47, 97]⟩⟩ ⟨"Server", .local ⟨[47, 98]⟩⟩

def copyingSpecification : ProcessSpecification where
  options := .default
  source := .peerA
  mode := .oneWay
  sourceRoot := ⟨[47, 97]⟩
  destinationRoot := ⟨[47, 98]⟩
  peerARoot := ⟨[47, 97]⟩
  peerBRoot := ⟨[47, 98]⟩
  exclusions := []

/-- The source has the file `x` with this content, the destination nothing. -/
def copyingAnalysis (content : Sha256) : FreshAnalysis where
  profile := copyingProfile
  specification := copyingSpecification
  specified := ⟨fun _ => false, by decide +kernel⟩
  sourceInventory := ⟨[inventoryItem ⟨[120]⟩ false (plainFile content)]⟩
  destinationInventory := ⟨[]⟩
  actions := [⟨1, ⟨[120]⟩, .copyToDestination, .peerA, some 5⟩]
  planned := rfl

def otherHash : Sha256 := .ofByte 1

/-- Nothing has changed, and the confirmation is fresh. -/
theorem confirmation_fresh_unchanged :
    (copyingAnalysis zeroHash).ConfirmedFresh (copyingAnalysis zeroHash) (by decide) :=
  (confirmation_fresh_iff (by decide) (by decide +kernel)).mpr
    fun _ h => absurd ⟨rfl, rfl⟩ h.2.2

/-- The content of the file has changed, and the confirmation succeeds. -/
theorem confirmation_not_fresh :
    ¬ ∀ (reviewed refreshed : FreshAnalysis) (bounded : reviewed.actions.length < 2 ^ 63),
      reviewed.profile.same refreshed.profile = true →
        reviewed.ConfirmedFresh refreshed bounded := by
  intro h
  have hfresh := h (copyingAnalysis zeroHash) (copyingAnalysis otherHash) (by decide)
    (by decide +kernel)
  have hconfirmed : (copyingAnalysis zeroHash).stalePaths (copyingAnalysis otherHash) = [] := by
    decide +kernel
  have hchanged : ¬ SameAt (copyingAnalysis zeroHash).sourceInventory
      (copyingAnalysis otherHash).sourceInventory ⟨[120]⟩ := by
    decide +kernel
  have hok := confirmRefreshed_eq (copyingAnalysis zeroHash) (copyingAnalysis otherHash)
    (by decide +kernel) (by decide)
  rw [if_pos hconfirmed] at hok
  exact hchanged (hfresh.succeeds _ hok ⟨[120]⟩).1

end SyncPlus
