import SyncPlus.Confirmation
import SyncPlus.MirrorCoverage
import SyncPlus.MirrorDeletion

/-!
# Pending deletions and the plan

A Mirror plan and the deletion review read the same inventories and not each
other. The plan copies every included item that one peer has alone, whether
it is new there or the other peer has deleted it; only the baseline tells the
two apart, and the plan has no baseline. So a path waiting for a decision
(`SyncBaselineItem.Pending`) is always copied as well, and the plan leaves the
candidates alone exactly when there are none
(`candidates_not_copied_iff`).
-/

namespace SyncPlus

/-! ## What is pending -/

def SyncBaselineItem.side (item : SyncBaselineItem) : PeerSide → Option SyncBaselineItemState
  | .peerA => item.peerA
  | .peerB => item.peerB

/-- The baseline has the item alike on both sides, one peer still has it so,
and the other has nothing at its path. -/
def SyncBaselineItem.Pending (metadata : MetadataRequirements) (peerA peerB : SourceInventory)
    (item : SyncBaselineItem) : Prop :=
  ∃ side missing remaining current,
    item.side side = some remaining ∧ item.side side.opposite = some missing ∧
      equalParts metadata missing.parts remaining.parts = true ∧
      sourceByPath (sideInventory peerA peerB side) (pathOf item.relativePath) = some current ∧
      sourceByPath (sideInventory peerA peerB side.opposite) (pathOf item.relativePath) = none ∧
      current.outcome = .included ∧
      remaining.equalInventory (.fromItem current) ⟨metadata⟩ = true

/-- No copy of the plan is at the path of a candidate. -/
def LeavesCandidates (baseline : SyncBaseline) (snapshotA snapshotB : SourceInventorySnapshot)
    (actions : List PlanAction) : Prop :=
  ∀ candidate ∈ baseline.deletionCandidates snapshotA snapshotB, ∀ action ∈ actions,
    action.kind = .copyToDestination →
      action.relativePath.components ≠ (pathOf candidate.relativePath).components

instance (baseline : SyncBaseline) (snapshotA snapshotB : SourceInventorySnapshot)
    (actions : List PlanAction) :
    Decidable (LeavesCandidates baseline snapshotA snapshotB actions) :=
  inferInstanceAs (Decidable (∀ candidate ∈ _, ∀ action ∈ _, _ → _))

section

variable {metadata : MetadataRequirements} {peerA peerB : SourceInventory}
  {item : SyncBaselineItem} {candidate : MirrorDeletionCandidate}

theorem currentItem_fromInventory (name : String) (root : PathBuf) (inventory : SourceInventory)
    (relativePath : RelativePath) :
    (SourceInventorySnapshot.fromInventory name root inventory).currentItem relativePath =
      (sourceByPath inventory (pathOf relativePath)).map .fromItem := by
  unfold SourceInventorySnapshot.currentItem SourceInventorySnapshot.fromInventory
  rw [getByPath_map]
  rfl

theorem remainingCandidate_eq_some {relativePath : RelativePath} {missing affected : PeerSide}
    {baselineMissing baselineRemaining : SyncBaselineItemState} {current : InventorySnapshotItem} :
    remainingCandidate ⟨metadata⟩ relativePath missing affected baselineMissing baselineRemaining
        current = some candidate ↔
      current.outcome = .included ∧
        baselineRemaining.equalInventory current ⟨metadata⟩ = true ∧
        candidate = ⟨relativePath, missing, affected,
          ⟨baselineMissing, baselineRemaining, .fromSnapshot current⟩⟩ := by
  unfold remainingCandidate
  split <;> rename_i h
  · simp [h, eq_comm]
  · rw [not_and] at h
    constructor
    · intro hnone
      cases hnone
    · rintro ⟨hin, hequal, -⟩
      exact absurd hequal (h hin)

variable (nameA nameB : String) (rootA rootB : PathBuf) in
/-- **A candidate is an item whose deletion is pending.** -/
theorem exists_deletionCandidate :
    (∃ candidate, deletionCandidate ⟨metadata⟩ (.fromInventory nameA rootA peerA)
        (.fromInventory nameB rootB peerB) item = some candidate) ↔
      item.Pending metadata peerA peerB := by
  unfold deletionCandidate
  simp only [Option.bind_eq_bind, Option.bind_eq_some_iff, currentItem_fromInventory]
  constructor
  · rintro ⟨candidate, stateA, hA, stateB, hB, h⟩
    split at h
    · rename_i hequal
      split at h
      · rename_i hcurrentA hcurrentB
        obtain ⟨current, hfound, rfl⟩ := Option.map_eq_some_iff.mp hcurrentB
        obtain ⟨hin, hremaining, -⟩ := remainingCandidate_eq_some.mp h
        exact ⟨.peerB, stateA, stateB, current, hB, hA, hequal, hfound,
          Option.map_eq_none_iff.mp hcurrentA, hin, hremaining⟩
      · rename_i hcurrentA hcurrentB
        obtain ⟨current, hfound, rfl⟩ := Option.map_eq_some_iff.mp hcurrentA
        obtain ⟨hin, hremaining, -⟩ := remainingCandidate_eq_some.mp h
        refine ⟨.peerA, stateB, stateA, current, hA, hB, ?_, hfound,
          Option.map_eq_none_iff.mp hcurrentB, hin, hremaining⟩
        rw [equalParts_comm]
        exact hequal
      · cases h
    · cases h
  · rintro ⟨side, missing, remaining, current, hremaining, hmissing, hequal, hfound, hnone, hin,
      hcurrent⟩
    cases side with
    | peerA =>
        have hfound : sourceByPath peerA (pathOf item.relativePath) = some current := hfound
        have hnone : sourceByPath peerB (pathOf item.relativePath) = none := hnone
        have hequal : remaining.equalState missing ⟨metadata⟩ = true := by
          rw [SyncBaselineItemState.equalState, equalParts_comm]
          exact hequal
        refine ⟨⟨item.relativePath, .peerB, .peerA,
          ⟨missing, remaining, .fromSnapshot (.fromItem current)⟩⟩,
          remaining, hremaining, missing, hmissing, ?_⟩
        rw [if_pos hequal, hfound, hnone]
        exact remainingCandidate_eq_some.mpr ⟨hin, hcurrent, rfl⟩
    | peerB =>
        have hfound : sourceByPath peerB (pathOf item.relativePath) = some current := hfound
        have hnone : sourceByPath peerA (pathOf item.relativePath) = none := hnone
        have hequal : missing.equalState remaining ⟨metadata⟩ = true := hequal
        refine ⟨⟨item.relativePath, .peerA, .peerB,
          ⟨missing, remaining, .fromSnapshot (.fromItem current)⟩⟩,
          missing, hmissing, remaining, hremaining, ?_⟩
        rw [if_pos hequal, hfound, hnone]
        exact remainingCandidate_eq_some.mpr ⟨hin, hcurrent, rfl⟩

theorem relativePath_of_deletionCandidate {equality : MirrorEquality}
    {snapshotA snapshotB : SourceInventorySnapshot}
    (h : deletionCandidate equality snapshotA snapshotB item = some candidate) :
    candidate.relativePath = item.relativePath := by
  have hremaining : ∀ {missing affected baselineMissing baselineRemaining current},
      remainingCandidate equality item.relativePath missing affected baselineMissing
        baselineRemaining current = some candidate →
      candidate.relativePath = item.relativePath := by
    intro missing affected baselineMissing baselineRemaining current hsome
    obtain ⟨metadata⟩ := equality
    rw [(remainingCandidate_eq_some.mp hsome).2.2]
  unfold deletionCandidate at h
  simp only [Option.bind_eq_bind, Option.bind_eq_some_iff] at h
  obtain ⟨stateA, -, stateB, -, h⟩ := h
  split at h
  · split at h
    · exact hremaining h
    · exact hremaining h
    · cases h
  · cases h

/-! ## What is copied -/

theorem sourceByPath_congr {inventory : SourceInventory} {p q : PathBuf}
    (h : p.components = q.components) : sourceByPath inventory p = sourceByPath inventory q :=
  getByPath_congr h

/-- A path that one inventory has is one of the paths of the plan. -/
theorem exists_mem_allPaths {side : PeerSide} {p : PathBuf} {found : InventoryItem}
    (h : sourceByPath (sideInventory peerA peerB side) p = some found) :
    ∃ q ∈ allPaths peerA peerB, q.components = p.components := by
  obtain ⟨hmem, hpath⟩ := getByPath_mem h
  refine exists_mem_pathSet_iff.mpr ⟨found.relativePath, ?_, hpath⟩
  rw [List.mem_append]
  cases side with
  | peerA => exact .inl (List.mem_map_of_mem hmem)
  | peerB => exact .inr (List.mem_map_of_mem hmem)

/-- **What one peer has alone is copied.** -/
theorem exists_copy_of_alone {side : PeerSide} {p : PathBuf} {found : InventoryItem}
    (h : sourceByPath (sideInventory peerA peerB side) p = some found)
    (hnone : sourceByPath (sideInventory peerA peerB side.opposite) p = none)
    (hin : found.outcome = .included) :
    ∃ draft ∈ mirrorDrafts peerA peerB, draft.kind = .copyToDestination ∧
      draft.relativePath.components = p.components := by
  obtain ⟨q, hq, hpath⟩ := exists_mem_allPaths h
  rw [← sourceByPath_congr hpath] at h hnone
  refine ⟨⟨q, .copyToDestination, side, dataSize found⟩, mem_mirrorDrafts.mpr ⟨hq, ?_⟩, rfl, hpath⟩
  cases side with
  | peerA => exact .inl ⟨found, h, hnone, hin, rfl⟩
  | peerB => exact .inr ⟨found, hnone, h, hin, rfl⟩

end

/-- **When a Mirror plan leaves pending deletions alone.** No candidate is
copied exactly when the baseline has no item whose deletion is pending. -/
theorem candidates_not_copied_iff {specification : ProcessSpecification}
    {peerA peerB : SourceInventory} {actions : List PlanAction} (baseline : SyncBaseline)
    (nameA nameB : String) (rootA rootB : PathBuf)
    (hmode : specification.mode = .mirror)
    (hplan : buildPlan specification peerA peerB = .ok actions) :
    LeavesCandidates baseline (.fromInventory nameA rootA peerA)
        (.fromInventory nameB rootB peerB) actions ↔
      ∀ item ∈ baseline.items, ¬ item.Pending baseline.metadata peerA peerB := by
  obtain ⟨hactions, -⟩ := buildPlan_eq_ok.mp hplan
  constructor
  · intro h item hitem hpending
    obtain ⟨candidate, hcandidate⟩ :=
      (exists_deletionCandidate nameA nameB rootA rootB).mpr hpending
    obtain ⟨side, _, _, current, -, -, -, hfound, hnone, hin, -⟩ := hpending
    obtain ⟨draft, hdraft, hkind, hpath⟩ := exists_copy_of_alone hfound hnone hin
    have hdrafts : draft ∈ planDrafts specification peerA peerB := by
      rw [planDrafts, hmode]
      exact hdraft
    obtain ⟨action, haction, rfl⟩ := exists_mem_of_draft_mem hdrafts
    refine h candidate (List.mem_filterMap.mpr ⟨item, hitem, hcandidate⟩) action
      (hactions ▸ haction) hkind ?_
    rw [relativePath_of_deletionCandidate hcandidate]
    exact hpath
  · intro h candidate hcandidate
    obtain ⟨item, hitem, hcandidate⟩ := List.mem_filterMap.mp hcandidate
    exact absurd ((exists_deletionCandidate nameA nameB rootA rootB).mp ⟨candidate, hcandidate⟩)
      (h item hitem)

/-! ### A file that one peer has deleted -/

def plainState : SyncBaselineItemState where
  itemType := .regularFile
  size := 5
  modifiedAtUnixNanos := some 0
  readonly := false
  executablePermissions := some 0
  symlinkTarget := none
  contentFingerprint := some zeroHash

/-- The baseline after the file `x` was settled on both sides. -/
def settledBaseline : SyncBaseline where
  profileName := "Documents"
  peerAName := "Laptop"
  peerARoot := PathBuf.components ⟨[47, 97]⟩
  peerBName := "Server"
  peerBRoot := PathBuf.components ⟨[47, 98]⟩
  metadata := SyncOptions.default.metadata
  items := [⟨[[120]], some plainState, some plainState⟩]
  sorted := List.pairwise_singleton _ _

def restoringActions : List PlanAction := [⟨1, ⟨[120]⟩, .copyToDestination, .peerB, some 5⟩]

/-- Both peers have the file, and nothing is planned. -/
theorem candidates_not_copied_settled :
    LeavesCandidates settledBaseline (.fromInventory "Laptop" ⟨[47, 97]⟩ ⟨[aloneItem]⟩)
      (.fromInventory "Server" ⟨[47, 98]⟩ ⟨[aloneItem]⟩) [] := by
  have hplan : buildPlan mirrorSpecification ⟨[aloneItem]⟩ ⟨[aloneItem]⟩ = .ok [] :=
    rfl
  refine (candidates_not_copied_iff settledBaseline _ _ _ _ rfl hplan).mpr ?_
  rintro item hitem ⟨side, _, _, _, -, -, -, -, hnone, -⟩
  obtain rfl := List.mem_singleton.mp hitem
  have hsome : sourceByPath ⟨[aloneItem]⟩ (pathOf [[120]]) ≠ none := by decide +kernel
  cases side with
  | peerA => exact hsome hnone
  | peerB => exact hsome hnone

/-- One peer has deleted the file: the plan copies it back while the decision
is pending. -/
theorem candidate_copied :
    ¬ ∀ (specification : ProcessSpecification) (peerA peerB : SourceInventory)
      (actions : List PlanAction) (baseline : SyncBaseline),
      specification.mode = .mirror → buildPlan specification peerA peerB = .ok actions →
        LeavesCandidates baseline
          (.fromInventory baseline.peerAName specification.peerARoot peerA)
          (.fromInventory baseline.peerBName specification.peerBRoot peerB) actions := by
  intro h
  have hplan : buildPlan mirrorSpecification ⟨[]⟩ ⟨[aloneItem]⟩ = .ok restoringActions :=
    rfl
  have hcopied : ¬ LeavesCandidates settledBaseline (.fromInventory "Laptop" ⟨[47, 97]⟩ ⟨[]⟩)
      (.fromInventory "Server" ⟨[47, 98]⟩ ⟨[aloneItem]⟩) restoringActions := by
    decide +kernel
  exact hcopied (h _ _ _ _ settledBaseline rfl hplan)

end SyncPlus
