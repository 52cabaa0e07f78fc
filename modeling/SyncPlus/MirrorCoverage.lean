import SyncPlus.ConflictReview

/-!
# Every path of a Mirror pair is accounted for

The plan copies what one peer has alone, the review asks about what both
have and differ on. The two are computed apart, the plan by presence and
outcome, the review by contents and types, and together they leave no path
out. A path that one peer has belongs to exactly one class, and the plan
and the review do for it what its class says (`mirror_path_classified`).
The two meet where one peer excludes what the other includes: since the
outcome of a path is decided by its type, such items differ in type and
the review shows them.
-/

namespace SyncPlus

/-! ## The classes -/

inductive PathClass where
  | oneSided (side : PeerSide)
  | differing
  | agreeing
  | outside
  deriving DecidableEq

/-- The inventory of one peer. -/
def sideInventory (peerA peerB : SourceInventory) : PeerSide → SourceInventory
  | .peerA => peerA
  | .peerB => peerB

def InventoryItem.Included (item : InventoryItem) : Prop := item.outcome = .included

/-- The path is in the class. -/
def PathClass.Holds (metadata : MetadataRequirements) (peerA peerB : SourceInventory)
    (p : PathBuf) : PathClass → Prop
  | oneSided side => ∃ item, (sideInventory peerA peerB side).item p = some item ∧
      (sideInventory peerA peerB side.opposite).item p = none ∧ item.Included
  | differing => ∃ left right, peerA.item p = some left ∧ peerB.item p = some right ∧
      (left.Included ∨ right.Included) ∧
      MirrorEquality.equal ⟨metadata⟩ (.fromItem left) (.fromItem right) = false
  | agreeing => ∃ left right, peerA.item p = some left ∧ peerB.item p = some right ∧
      left.Included ∧ right.Included ∧
      MirrorEquality.equal ⟨metadata⟩ (.fromItem left) (.fromItem right) = true
  | outside => (∀ item, peerA.item p = some item → ¬ item.Included) ∧
      ∀ item, peerB.item p = some item → ¬ item.Included

def actionsAt (actions : List PlanAction) (p : PathBuf) : List PlanAction :=
  actions.filter (·.relativePath.same p)

def ConflictReview.samePathAt (review : ConflictReview) (p : PathBuf) : List ConflictEntry :=
  review.entries.filter fun entry => entry.kind = .samePath ∧ entry.relativePath.same p = true

/-- What the plan and the review do for a path of the class. -/
def PathClass.Served (actions : List PlanAction) (review : ConflictReview) (p : PathBuf) :
    PathClass → Prop
  | oneSided side => ∃ action, actionsAt actions p = [action] ∧
      action.kind = .copyToDestination ∧ action.sourceSide = side
  | differing => actionsAt actions p = [] ∧ ∃ entry, review.samePathAt p = [entry]
  | agreeing => actionsAt actions p = [] ∧ review.samePathAt p = []
  | outside => actionsAt actions p = [] ∧ review.samePathAt p = []

/-! ## The plan at a path -/

section

variable {peerA peerB : SourceInventory} {p q : PathBuf} {metadata : MetadataRequirements}
  {w : WalkScope}

theorem actionsAt_numberDrafts (drafts : List ActionDraft) :
    (actionsAt (numberDrafts drafts) p).map PlanAction.draft =
      drafts.filter (·.relativePath.same p) := by
  have hfilter : actionsAt (numberDrafts drafts) p =
      (numberDrafts drafts).filter
        ((fun draft : ActionDraft => draft.relativePath.same p) ∘ PlanAction.draft) := rfl
  rw [hfilter, ← List.filter_map, map_draft_numberDrafts]

theorem relativePath_of_mirrorDraft {draft : ActionDraft}
    (h : mirrorDraft peerA peerB q = some draft) : draft.relativePath = q := by
  unfold mirrorDraft at h
  split at h
  · rw [(mem_copyDraft.mp h).2]
  · rw [(mem_copyDraft.mp h).2]
  · cases h

/-- The drafts of a Mirror plan at a path are what is drafted for it. -/
theorem filter_mirrorDrafts :
    (mirrorDrafts peerA peerB).filter (·.relativePath.same p) =
      (((allPaths peerA peerB).find? (·.same p)).bind (mirrorDraft peerA peerB)).toList :=
  filter_filterMap_of_nodup (fun _ _ => relativePath_of_mirrorDraft) (nodup_pathSet _) p

theorem find_allPaths (h : (peerA.item p).isSome = true ∨ (peerB.item p).isSome = true) :
    ∃ q, (allPaths peerA peerB).find? (·.same p) = some q ∧
      q.components = p.components := by
  cases hfind : (allPaths peerA peerB).find? (·.same p) with
  | some q => exact ⟨q, rfl, PathBuf.same_iff.mp (by simpa using List.find?_some hfind)⟩
  | none =>
      have hnone := find_pathSet.mp hfind
      rcases h with h | h
      · obtain ⟨item, hitem⟩ := Option.isSome_iff_exists.mp h
        obtain ⟨hmem, hpath⟩ := SourceInventory.item_same hitem
        exact absurd hpath (hnone _ (List.mem_append_left _ (List.mem_map_of_mem hmem)))
      · obtain ⟨item, hitem⟩ := Option.isSome_iff_exists.mp h
        obtain ⟨hmem, hpath⟩ := SourceInventory.item_same hitem
        exact absurd hpath (hnone _ (List.mem_append_right _ (List.mem_map_of_mem hmem)))

/-- The draft of a Mirror plan at a path, from the items the peers have
there. -/
def draftAt (relativePath : PathBuf) : Option InventoryItem → Option InventoryItem →
    Option ActionDraft
  | some item, none => copyDraft relativePath .peerA item
  | none, some item => copyDraft relativePath .peerB item
  | _, _ => none

theorem actionsAt_mirror (hA : w.InScope peerA) (hB : w.InScope peerB)
    (h : (peerA.item p).isSome = true ∨ (peerB.item p).isSome = true) :
    ∃ q, (actionsAt (numberDrafts (mirrorDrafts peerA peerB)) p).map PlanAction.draft =
      (draftAt q (peerA.item p) (peerB.item p)).toList := by
  obtain ⟨q, hfind, hq⟩ := find_allPaths h
  refine ⟨q, ?_⟩
  rw [actionsAt_numberDrafts, filter_mirrorDrafts, hfind, Option.bind_some, mirrorDraft,
    sourceByPath, sourceByPath, hA.getByPath_eq, hB.getByPath_eq, peerA.item_congr hq,
    peerB.item_congr hq]
  rfl

/-! ## The review at a path -/

/-- What the review makes of one path. -/
def samePathAt? (snapshotA snapshotB : SourceInventorySnapshot)
    (metadata : MetadataRequirements) (relativePath : PathBuf) : Option ConflictEntry :=
  match snapshotA.item relativePath, snapshotB.item relativePath with
  | some left, some right =>
      if reviewEqual metadata left right then none
      else some (ConflictReview.samePathEntry relativePath)
  | _, _ => none

theorem eq_of_samePathAt? {snapshotA snapshotB : SourceInventorySnapshot}
    {entry : ConflictEntry} (h : samePathAt? snapshotA snapshotB metadata q = some entry) :
    entry = ConflictReview.samePathEntry q := by
  unfold samePathAt? at h
  split at h
  · split at h
    · cases h
    · exact (Option.some.inj h).symm
  · cases h

theorem samePathAt_fromInventories {snapshotA snapshotB : SourceInventorySnapshot} :
    (ConflictReview.fromInventories snapshotA snapshotB metadata).samePathAt p =
      (((pathSet (snapshotA.includedItems.map (·.relativePath) ++
        snapshotB.includedItems.map (·.relativePath))).find? (·.same p)).bind
        (samePathAt? snapshotA snapshotB metadata)).toList := by
  rw [ConflictReview.samePathAt, ConflictReview.fromInventories]
  dsimp only
  rw [List.filter_append]
  have hduplicates : ∀ locations : List (Sha256 × PeerSide × PathBuf),
      (ConflictReview.duplicateEntries locations).filter (fun entry =>
        decide (entry.kind = .samePath ∧ entry.relativePath.same p = true)) = [] := by
    intro locations
    refine List.filter_eq_nil_iff.mpr fun entry hentry => ?_
    simp [kind_of_mem_duplicateEntries hentry]
  rw [hduplicates, List.append_nil]
  have hpath : ∀ q entry, samePathAt? snapshotA snapshotB metadata q = some entry →
      entry.relativePath = q := fun q entry h => by rw [eq_of_samePathAt? h]; rfl
  refine Eq.trans (List.filter_congr fun entry hentry => ?_)
    (filter_filterMap_of_nodup hpath (nodup_pathSet _) p)
  obtain ⟨q, -, hq⟩ := List.mem_filterMap.mp hentry
  rw [eq_of_samePathAt? hq]
  simp [ConflictReview.samePathEntry]

variable {nameA nameB : String} {rootA rootB : PathBuf}

theorem mem_includedPaths {name : String} {root : PathBuf} {inventory : SourceInventory}
    {q : PathBuf} :
    q ∈ (SourceInventorySnapshot.fromInventory name root inventory).includedItems.map
        (·.relativePath) ↔
      ∃ item ∈ inventory.items, item.Included ∧ item.relativePath = q := by
  simp [SourceInventorySnapshot.includedItems, SourceInventorySnapshot.fromInventory,
    InventoryItem.Included, InventorySnapshotItem.fromItem, and_assoc]

/-- The review has nothing at a path that no peer includes. -/
theorem samePathAt_of_outside (hA : w.InScope peerA) (hB : w.InScope peerB)
    (h : PathClass.outside.Holds metadata peerA peerB p) :
    (ConflictReview.fromInventories (.fromInventory nameA rootA peerA)
      (.fromInventory nameB rootB peerB) metadata).samePathAt p = [] := by
  rw [samePathAt_fromInventories, find_pathSet.mpr]
  · rfl
  · intro q hq heq
    rcases List.mem_append.mp hq with hq | hq
    · obtain ⟨item, hitem, hin, rfl⟩ := mem_includedPaths.mp hq
      exact h.1 item (hA.item_eq_some.mpr ⟨hitem, heq⟩) hin
    · obtain ⟨item, hitem, hin, rfl⟩ := mem_includedPaths.mp hq
      exact h.2 item (hB.item_eq_some.mpr ⟨hitem, heq⟩) hin

variable (nameA nameB rootA rootB metadata) in
/-- At a path that both peers have and one includes, the review asks when the
contents differ. -/
theorem samePathAt_of_both {left right : InventoryItem} (hleft : peerA.item p = some left)
    (hright : peerB.item p = some right) (hin : left.Included ∨ right.Included) :
    ∃ q, (ConflictReview.fromInventories (.fromInventory nameA rootA peerA)
      (.fromInventory nameB rootB peerB) metadata).samePathAt p =
        if reviewEqual metadata (.fromItem left) (.fromItem right) then []
        else [ConflictReview.samePathEntry q] := by
  rw [samePathAt_fromInventories]
  cases hfind : (pathSet _).find? (·.same p) with
  | none =>
      have hnone := find_pathSet.mp hfind
      obtain ⟨hmemA, hpathA⟩ := SourceInventory.item_same hleft
      obtain ⟨hmemB, hpathB⟩ := SourceInventory.item_same hright
      rcases hin with hin | hin
      · exact absurd hpathA (hnone _ (List.mem_append_left _
          (mem_includedPaths.mpr ⟨left, hmemA, hin, rfl⟩)))
      · exact absurd hpathB (hnone _ (List.mem_append_right _
          (mem_includedPaths.mpr ⟨right, hmemB, hin, rfl⟩)))
  | some q =>
      have hq : q.components = p.components := by
        have hsame : q.same p = true := by
          simpa using List.find?_some (p := fun q : PathBuf => q.same p) hfind
        exact PathBuf.same_iff.mp hsame
      refine ⟨q, ?_⟩
      rw [Option.bind_some, samePathAt?, SourceInventorySnapshot.item_fromInventory,
        SourceInventorySnapshot.item_fromInventory, peerA.item_congr hq, peerB.item_congr hq,
        hleft, hright]
      dsimp only [Option.map_some]
      split <;> rfl

/-- **Items the review calls equal are equal**, when one of them is included:
one scope gives items of one type one outcome. -/
theorem equal_of_reviewEqual (hA : w.InScope peerA) (hB : w.InScope peerB)
    {left right : InventoryItem} (hleft : peerA.item p = some left)
    (hright : peerB.item p = some right) (hin : left.Included ∨ right.Included)
    (h : reviewEqual metadata (.fromItem left) (.fromItem right) = true) :
    MirrorEquality.equal ⟨metadata⟩ (.fromItem left) (.fromItem right) = true := by
  obtain ⟨hmemA, hpathA⟩ := SourceInventory.item_same hleft
  obtain ⟨hmemB, hpathB⟩ := SourceInventory.item_same hright
  have htype : left.itemType = right.itemType := congrArg Prod.fst (equalParts_iff.mp h).2
  have houtcome := hA.outcome_eq hB hmemA hmemB (hpathA.trans hpathB.symm) htype
  have hboth : left.Included ∧ right.Included := by
    rcases hin with hin | hin
    · exact ⟨hin, houtcome.symm.trans hin⟩
    · exact ⟨houtcome.trans hin, hin⟩
  exact MirrorEquality.equal_iff.mpr ⟨hboth.1, hboth.2, h⟩

/-! ## One class for each path -/

/-- The class of a path, from the items the peers have there. -/
def classAt (metadata : MetadataRequirements) :
    Option InventoryItem → Option InventoryItem → PathClass
  | some item, none => if item.outcome = .included then .oneSided .peerA else .outside
  | none, some item => if item.outcome = .included then .oneSided .peerB else .outside
  | some left, some right =>
      if left.outcome = .included ∨ right.outcome = .included then
        if MirrorEquality.equal ⟨metadata⟩ (.fromItem left) (.fromItem right) then .agreeing
        else .differing
      else .outside
  | none, none => .outside

theorem holds_iff {cls : PathClass} : cls.Holds metadata peerA peerB p ↔
    classAt metadata (peerA.item p) (peerB.item p) = cls := by
  have hboth : ∀ left right : InventoryItem,
      MirrorEquality.equal ⟨metadata⟩ (.fromItem left) (.fromItem right) = true →
        left.outcome = .included ∧ right.outcome = .included := by
    intro left right h
    obtain ⟨hleft, hright, -⟩ := MirrorEquality.equal_iff.mp h
    exact ⟨hleft, hright⟩
  cases hA : peerA.item p with
  | none =>
      cases hB : peerB.item p with
      | none => rcases cls with ⟨_ | _⟩ | _ | _ | _ <;>
          simp [PathClass.Holds, classAt, sideInventory, PeerSide.opposite, hA, hB]
      | some right =>
          by_cases hin : right.outcome = .included <;>
            rcases cls with ⟨_ | _⟩ | _ | _ | _ <;>
            simp [PathClass.Holds, classAt, sideInventory, PeerSide.opposite, hA, hB, hin,
              InventoryItem.Included]
  | some left =>
      cases hB : peerB.item p with
      | none =>
          by_cases hin : left.outcome = .included <;>
            rcases cls with ⟨_ | _⟩ | _ | _ | _ <;>
            simp [PathClass.Holds, classAt, sideInventory, PeerSide.opposite, hA, hB, hin,
              InventoryItem.Included]
      | some right =>
          have hequal := hboth left right
          by_cases hin : left.outcome = .included <;>
            by_cases hin' : right.outcome = .included <;>
            cases heq : MirrorEquality.equal ⟨metadata⟩ (.fromItem left) (.fromItem right) <;>
            rcases cls with ⟨_ | _⟩ | _ | _ | _ <;>
            simp_all [PathClass.Holds, classAt, sideInventory, PeerSide.opposite,
              InventoryItem.Included]

/-- **The plan and the review serve a path as its class says.** -/
theorem PathClass.Holds.served (hA : w.InScope peerA) (hB : w.InScope peerB)
    (hpresent : (peerA.item p).isSome = true ∨ (peerB.item p).isSome = true)
    {cls : PathClass} (h : cls.Holds metadata peerA peerB p) :
    cls.Served (numberDrafts (mirrorDrafts peerA peerB))
      (ConflictReview.fromInventories (.fromInventory nameA rootA peerA)
        (.fromInventory nameB rootB peerB) metadata) p := by
  obtain ⟨q, hactions⟩ := actionsAt_mirror hA hB hpresent
  have hnone : draftAt q (peerA.item p) (peerB.item p) = none →
      actionsAt (numberDrafts (mirrorDrafts peerA peerB)) p = [] := by
    intro hdraft
    rw [hdraft] at hactions
    exact List.map_eq_nil_iff.mp hactions
  have hone : ∀ draft, draftAt q (peerA.item p) (peerB.item p) = some draft →
      ∃ action, actionsAt (numberDrafts (mirrorDrafts peerA peerB)) p = [action] ∧
        action.draft = draft := by
    intro draft hdraft
    rw [hdraft] at hactions
    exact List.map_eq_singleton_iff.mp hactions
  cases cls with
  | oneSided side =>
      obtain ⟨item, hitem, hmissing, hin⟩ := h
      have hdraft : draftAt q (peerA.item p) (peerB.item p) =
          some ⟨q, .copyToDestination, side, dataSize item⟩ := by
        cases side with
        | peerA =>
            have hitem : peerA.item p = some item := hitem
            have hmissing : peerB.item p = none := hmissing
            rw [hitem, hmissing]
            exact mem_copyDraft.mpr ⟨hin, rfl⟩
        | peerB =>
            have hitem : peerB.item p = some item := hitem
            have hmissing : peerA.item p = none := hmissing
            rw [hitem, hmissing]
            exact mem_copyDraft.mpr ⟨hin, rfl⟩
      obtain ⟨action, haction, heq⟩ := hone _ hdraft
      exact ⟨action, haction, congrArg ActionDraft.kind heq,
        congrArg ActionDraft.sourceSide heq⟩
  | differing =>
      obtain ⟨left, right, hleft, hright, hin, hunequal⟩ := h
      refine ⟨hnone (by rw [hleft, hright]; rfl), ?_⟩
      obtain ⟨q', hreview⟩ := samePathAt_of_both metadata nameA nameB rootA rootB hleft
        hright hin
      have hreviewed : ¬ reviewEqual metadata (.fromItem left) (.fromItem right) = true := by
        intro heq
        rw [equal_of_reviewEqual hA hB hleft hright hin heq] at hunequal
        cases hunequal
      rw [hreview, if_neg hreviewed]
      exact ⟨_, rfl⟩
  | agreeing =>
      obtain ⟨left, right, hleft, hright, hin, -, hequal⟩ := h
      refine ⟨hnone (by rw [hleft, hright]; rfl), ?_⟩
      obtain ⟨q', hreview⟩ := samePathAt_of_both metadata nameA nameB rootA rootB hleft
        hright (.inl hin)
      have hreviewed : reviewEqual metadata (.fromItem left) (.fromItem right) = true :=
        (MirrorEquality.equal_iff.mp hequal).2.2
      rw [hreview, if_pos hreviewed]
  | outside =>
      refine ⟨hnone ?_, samePathAt_of_outside hA hB h⟩
      cases hleft : peerA.item p with
      | none =>
          cases hright : peerB.item p with
          | none => rfl
          | some right =>
              exact if_neg (by
                simpa [InventoryItem.isEligible, InventoryItem.Included] using h.2 right hright)
      | some left =>
          cases hright : peerB.item p with
          | none =>
              exact if_neg (by
                simpa [InventoryItem.isEligible, InventoryItem.Included] using h.1 left hleft)
          | some right => rfl

end

/-- **Mirror coverage.** A path that one of two peers walked in one scope has
is in exactly one class, and the plan and the review do for it what the class
says. -/
theorem mirror_path_classified {lossy : LossyNames} {exclusions : List String}
    {nameA nameB : String} {rootA rootB : PathBuf} {treeA treeB : FileTree}
    {peerA peerB : SourceInventory}
    (hA : WalkScope.collectInventory ⟨lossy, exclusions⟩ nameA rootA treeA = .ok peerA)
    (hB : WalkScope.collectInventory ⟨lossy, exclusions⟩ nameB rootB treeB = .ok peerB)
    {specification : ProcessSpecification} (hmode : specification.mode = .mirror)
    (metadata : MetadataRequirements) (p : PathBuf)
    (hpresent : (peerA.item p).isSome = true ∨ (peerB.item p).isSome = true) :
    ∃ actions, buildPlan specification peerA peerB = .ok actions ∧
      (∃! cls : PathClass, cls.Holds metadata peerA peerB p) ∧
      ∀ cls : PathClass, cls.Holds metadata peerA peerB p →
        cls.Served actions (.fromInventories (.fromInventory nameA rootA peerA)
          (.fromInventory nameB rootB peerB) metadata) p := by
  have hA := WalkScope.collectInventory_inScope hA
  have hB := WalkScope.collectInventory_inScope hB
  refine ⟨_, buildPlan_inScope hA hB, ⟨_, holds_iff.mpr rfl, fun cls h => ?_⟩, ?_⟩
  · exact (holds_iff.mp h).symm
  · intro cls h
    rw [planDrafts_mirror hmode]
    exact h.served hA hB hpresent

/-! ### A folder that the peers share in part -/

/-- A Mirror of two folders with the default options. -/
def mirrorSpecification : ProcessSpecification where
  options := .default
  source := .peerA
  mode := .mirror
  sourceRoot := ⟨[47, 97]⟩
  destinationRoot := ⟨[47, 98]⟩
  peerARoot := ⟨[47, 97]⟩
  peerBRoot := ⟨[47, 98]⟩
  exclusions := []

/-- A named pipe, which is not synchronized. -/
def namedPipe : Found := { plainFile zeroHash with itemType := .unsupported }

/-- The directory `d` of the files `a`, `x` and `y`, and the pipe `p`. -/
def sharedTreeA : FileTree :=
  .ofEntries (.cons [100] plainDirectory
    (.cons [97] (plainFile zeroHash) .nil
      (.cons [120] (plainFile zeroHash) .nil (.cons [121] (plainFile zeroHash) .nil .nil)))
    (.cons [112] namedPipe .nil .nil)) (by decide)

/-- The directory `d` without `y` and with another `x`, and the file `z`. -/
def sharedTreeB : FileTree :=
  .ofEntries (.cons [100] plainDirectory
    (.cons [97] (plainFile zeroHash) .nil (.cons [120] (plainFile (.ofByte 1)) .nil .nil))
    (.cons [122] (plainFile zeroHash) .nil .nil)) (by decide)

def sharedInventoryA : SourceInventory :=
  ⟨[inventoryItem ⟨[100]⟩ false plainDirectory,
    inventoryItem ⟨[100, 47, 97]⟩ false (plainFile zeroHash),
    inventoryItem ⟨[100, 47, 120]⟩ false (plainFile zeroHash),
    inventoryItem ⟨[100, 47, 121]⟩ false (plainFile zeroHash),
    inventoryItem ⟨[112]⟩ false namedPipe]⟩

def sharedInventoryB : SourceInventory :=
  ⟨[inventoryItem ⟨[100]⟩ false plainDirectory,
    inventoryItem ⟨[100, 47, 97]⟩ false (plainFile zeroHash),
    inventoryItem ⟨[100, 47, 120]⟩ false (plainFile (.ofByte 1)),
    inventoryItem ⟨[122]⟩ false (plainFile zeroHash)]⟩

theorem collectInventory_shared :
    WalkScope.collectInventory ⟨.utf8, []⟩ "Laptop" ⟨[47, 97]⟩ sharedTreeA =
        .ok sharedInventoryA ∧
      WalkScope.collectInventory ⟨.utf8, []⟩ "Server" ⟨[47, 98]⟩ sharedTreeB =
        .ok sharedInventoryB := by
  decide +kernel

/-- The paths of the two trees with their classes. -/
def sharedClasses : List (PathBuf × PathClass) :=
  [(⟨[100]⟩, .agreeing), (⟨[100, 47, 97]⟩, .agreeing), (⟨[100, 47, 120]⟩, .differing),
    (⟨[100, 47, 121]⟩, .oneSided .peerA), (⟨[112]⟩, .outside), (⟨[122]⟩, .oneSided .peerB)]

theorem mirror_path_classified_shared :
    sharedClasses.Forall fun entry =>
      entry.2.Holds SyncOptions.default.metadata sharedInventoryA sharedInventoryB entry.1 ∧
      ∃ actions, buildPlan mirrorSpecification sharedInventoryA sharedInventoryB = .ok actions ∧
        (∃! cls : PathClass, cls.Holds SyncOptions.default.metadata sharedInventoryA
          sharedInventoryB entry.1) ∧
        ∀ cls : PathClass, cls.Holds SyncOptions.default.metadata sharedInventoryA
            sharedInventoryB entry.1 →
          cls.Served actions (.fromInventories
            (.fromInventory "Laptop" ⟨[47, 97]⟩ sharedInventoryA)
            (.fromInventory "Server" ⟨[47, 98]⟩ sharedInventoryB)
            SyncOptions.default.metadata) entry.1 := by
  have hclasses : ∀ entry ∈ sharedClasses, classAt SyncOptions.default.metadata
      (sharedInventoryA.item entry.1) (sharedInventoryB.item entry.1) = entry.2 := by
    decide +kernel
  have hpresent : ∀ entry ∈ sharedClasses, (sharedInventoryA.item entry.1).isSome = true ∨
      (sharedInventoryB.item entry.1).isSome = true := by
    decide +kernel
  refine List.forall_iff_forall_mem.mpr fun entry hentry => ⟨?_, ?_⟩
  · exact holds_iff.mpr (hclasses entry hentry)
  · exact mirror_path_classified collectInventory_shared.1 collectInventory_shared.2 rfl
      SyncOptions.default.metadata entry.1 (hpresent entry hentry)

end SyncPlus
