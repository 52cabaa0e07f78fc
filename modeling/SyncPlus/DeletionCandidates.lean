import SyncPlus.BaselineComparisons
import SyncPlus.PendingDeletions

/-!
# Deletion candidates

Two functions read a baseline and the current inventories: one lists deletion
candidates and looks at items of every outcome, the other reports statuses and
looks at the included ones. They agree about deletions: a path is a candidate
exactly when the report has it absent on one peer and unchanged on the other,
the two sides of the baseline are equal, and the first peer has nothing there
(`deletion_candidates_exact`).
-/

namespace SyncPlus

def SyncBaselineComparison.side (comparison : SyncBaselineComparison) :
    PeerSide → SyncBaselineItemStatus
  | .peerA => comparison.peerA
  | .peerB => comparison.peerB

/-- What justifies the deletion of a path that this peer has no more. -/
structure DeletionJustified (baseline : SyncBaseline) (peerA peerB : SourceInventorySnapshot)
    (p : PathBuf) (missing : PeerSide) : Prop where
  recorded : ∃ item stateA stateB, baseline.itemAt p = some item ∧ item.peerA = some stateA ∧
    item.peerB = some stateB ∧ stateA.equalState stateB ⟨baseline.metadata⟩ = true
  compared : ∃ comparison ∈ baseline.compare peerA peerB,
    comparison.relativePath.components = p.components ∧ comparison.side missing = .absent ∧
      comparison.side missing.opposite = .unchanged
  gone : (sideSnapshot peerA peerB missing).item p = none

/-- The candidates are the justified deletions, each of them once. -/
structure DeletionsJustified (baseline : SyncBaseline) (peerA peerB : SourceInventorySnapshot) :
    Prop where
  listed : ∀ p missing,
    (∃ candidate ∈ baseline.deletionCandidates peerA peerB,
        (pathOf candidate.relativePath).components = p.components ∧
          candidate.missingPeer = missing) ↔
      DeletionJustified baseline peerA peerB p missing
  once : ((baseline.deletionCandidates peerA peerB).map
    fun candidate => (pathOf candidate.relativePath).components).Nodup
  affected : ∀ candidate ∈ baseline.deletionCandidates peerA peerB,
    candidate.affectedPeer = candidate.missingPeer.opposite
  remaining : ∀ candidate ∈ baseline.deletionCandidates peerA peerB, ∃ current,
    (sideSnapshot peerA peerB candidate.affectedPeer).item (pathOf candidate.relativePath) =
        some current ∧
      candidate.evidence.currentRemainingState = .fromSnapshot current

section

variable {baseline : SyncBaseline} {peerA peerB snapshot : SourceInventorySnapshot}
  {metadata : MetadataRequirements} {item : SyncBaselineItem}
  {candidate : MirrorDeletionCandidate} {p : PathBuf}

/-- An item of the baseline that one peer has lost, and the other has as it was. -/
structure LostOn (metadata : MetadataRequirements) (peerA peerB : SourceInventorySnapshot)
    (item : SyncBaselineItem) (missing : PeerSide) (lost kept : SyncBaselineItemState)
    (current : InventorySnapshotItem) : Prop where
  lost_side : item.side missing = some lost
  kept_side : item.side missing.opposite = some kept
  equal : equalParts metadata lost.parts kept.parts = true
  gone : (sideSnapshot peerA peerB missing).currentItem item.relativePath = none
  found : (sideSnapshot peerA peerB missing.opposite).currentItem item.relativePath = some current
  included : current.outcome = .included
  unchanged : kept.equalInventory current ⟨metadata⟩ = true

/-- What the loop makes of an item. -/
theorem deletionCandidate_eq_some :
    deletionCandidate ⟨metadata⟩ peerA peerB item = some candidate ↔
      ∃ missing lost kept current, LostOn metadata peerA peerB item missing lost kept current ∧
        candidate = ⟨item.relativePath, missing, missing.opposite,
          ⟨lost, kept, .fromSnapshot current⟩⟩ := by
  unfold deletionCandidate
  simp only [Option.bind_eq_bind, Option.bind_eq_some_iff]
  constructor
  · intro ⟨stateA, hA, stateB, hB, h⟩
    split at h
    · rename_i hequal
      split at h
      · rename_i current hgone hfound
        obtain ⟨hincluded, hunchanged, rfl⟩ := remainingCandidate_eq_some.mp h
        exact ⟨.peerA, stateA, stateB, current,
          ⟨hA, hB, hequal, hgone, hfound, hincluded, hunchanged⟩, rfl⟩
      · rename_i current hfound hgone
        obtain ⟨hincluded, hunchanged, rfl⟩ := remainingCandidate_eq_some.mp h
        exact ⟨.peerB, stateB, stateA, current, ⟨hB, hA, by rw [equalParts_comm]; exact hequal,
          hgone, hfound, hincluded, hunchanged⟩, rfl⟩
      · cases h
    · cases h
  · intro ⟨missing, lost, kept, current, hlost, heq⟩
    obtain ⟨hlostSide, hkeptSide, hequal, hgone, hfound, hincluded, hunchanged⟩ := hlost
    cases missing with
    | peerA =>
        refine ⟨lost, hlostSide, kept, hkeptSide, ?_⟩
        have hgone : peerA.currentItem item.relativePath = none := hgone
        have hfound : peerB.currentItem item.relativePath = some current := hfound
        have hequal : lost.equalState kept ⟨metadata⟩ = true := hequal
        rw [if_pos hequal, hgone, hfound]
        exact remainingCandidate_eq_some.mpr ⟨hincluded, hunchanged, heq⟩
    | peerB =>
        refine ⟨kept, hkeptSide, lost, hlostSide, ?_⟩
        have hgone : peerB.currentItem item.relativePath = none := hgone
        have hfound : peerA.currentItem item.relativePath = some current := hfound
        have hequal : kept.equalState lost ⟨metadata⟩ = true := by
          rw [SyncBaselineItemState.equalState, equalParts_comm]
          exact hequal
        rw [if_pos hequal, hgone, hfound]
        exact remainingCandidate_eq_some.mpr ⟨hincluded, hunchanged, heq⟩

theorem currentItem_eq (hnodup : (snapshot.items.map (·.relativePath.components)).Nodup)
    (relativePath : RelativePath) :
    snapshot.currentItem relativePath = snapshot.item (pathOf relativePath) := by
  refine Option.ext fun item => ?_
  rw [SourceInventorySnapshot.currentItem, getByPath_eq_some hnodup,
    SourceInventorySnapshot.item_eq_some hnodup]

/-- The entry of a path, when no two entries have one path. -/
theorem itemAt_eq_some
    (hnodup : (baseline.items.map fun item => (pathOf item.relativePath).components).Nodup) :
    baseline.itemAt p = some item ↔
      item ∈ baseline.items ∧ (pathOf item.relativePath).components = p.components := by
  constructor
  · intro h
    have hsame := List.find?_some (p := fun item : SyncBaselineItem =>
      (pathOf item.relativePath).same p) h
    exact ⟨List.mem_of_find?_eq_some h, PathBuf.same_iff.mp hsame⟩
  · intro ⟨hitem, hpath⟩
    cases hfound : baseline.itemAt p with
    | none =>
        have hnone := List.find?_eq_none.mp hfound item hitem
        exact absurd (PathBuf.same_iff.mpr hpath) hnone
    | some found =>
        have hsame := List.find?_some (p := fun item : SyncBaselineItem =>
          (pathOf item.relativePath).same p) hfound
        rw [List.inj_on_of_nodup_map hnodup (List.mem_of_find?_eq_some hfound) hitem
          ((PathBuf.same_iff.mp hsame).trans hpath.symm)]

/-- One side of a report. -/
theorem compareSide_eq_absent {state : Option SyncBaselineItemState}
    {current : Option InventorySnapshotItem} {equality : MirrorEquality} :
    compareSide state current equality = .absent ↔ state.isSome = true ∧ current = none := by
  cases state <;> cases current <;> simp [compareSide]
  split <;> simp

theorem compareSide_eq_unchanged {state : SyncBaselineItemState}
    {current : Option InventorySnapshotItem} {equality : MirrorEquality} :
    compareSide (some state) current equality = .unchanged ↔
      ∃ item, current = some item ∧ state.equalInventory item equality = true := by
  cases current <;> simp [compareSide]

/-- How one peer compares with the baseline at a path. -/
def SyncBaseline.statusOn (baseline : SyncBaseline) (peerA peerB : SourceInventorySnapshot)
    (p : PathBuf) (side : PeerSide) : SyncBaselineItemStatus :=
  compareSide ((baseline.itemAt p).bind (·.side side))
    ((sideSnapshot peerA peerB side).includedAt p) ⟨baseline.metadata⟩

/-- What is reported about both peers, one of them first. -/
theorem compared_iff (hA : (peerA.items.map (·.relativePath.components)).Nodup)
    (hB : (peerB.items.map (·.relativePath.components)).Nodup) {missing : PeerSide}
    {status other : SyncBaselineItemStatus} :
    (∃ comparison ∈ baseline.compare peerA peerB,
        comparison.relativePath.components = p.components ∧ comparison.side missing = status ∧
          comparison.side missing.opposite = other) ↔
      baseline.Mentions peerA peerB p ∧ baseline.statusOn peerA peerB p missing = status ∧
        baseline.statusOn peerA peerB p missing.opposite = other := by
  cases missing with
  | peerA =>
      have hstatuses : ∀ statuses : SyncBaselineItemStatus × SyncBaselineItemStatus,
          baseline.statusesAt peerA peerB p = statuses ↔
            baseline.statusOn peerA peerB p .peerA = statuses.1 ∧
              baseline.statusOn peerA peerB p .peerB = statuses.2 := fun _ => Prod.ext_iff
      have hreport := @SyncBaseline.mem_compare baseline peerA peerB p hA hB (status, other)
      rw [hstatuses] at hreport
      simp only [Prod.mk.injEq] at hreport
      exact hreport
  | peerB =>
      have hstatuses : ∀ statuses : SyncBaselineItemStatus × SyncBaselineItemStatus,
          baseline.statusesAt peerA peerB p = statuses ↔
            baseline.statusOn peerA peerB p .peerB = statuses.2 ∧
              baseline.statusOn peerA peerB p .peerA = statuses.1 :=
        fun _ => Prod.ext_iff.trans and_comm
      have hreport := @SyncBaseline.mem_compare baseline peerA peerB p hA hB (other, status)
      rw [hstatuses] at hreport
      simp only [Prod.mk.injEq, and_comm (b := _ = status)] at hreport
      exact hreport

/-- Both sides of an entry, one of them first. -/
theorem equal_sides {stateA stateB : SyncBaselineItemState} (missing : PeerSide) :
    (item.peerA = some stateA ∧ item.peerB = some stateB ∧
        stateA.equalState stateB ⟨metadata⟩ = true) →
      ∃ lost kept, item.side missing = some lost ∧ item.side missing.opposite = some kept ∧
        equalParts metadata lost.parts kept.parts = true := by
  intro ⟨hA, hB, hequal⟩
  cases missing with
  | peerA => exact ⟨stateA, stateB, hA, hB, hequal⟩
  | peerB =>
      refine ⟨stateB, stateA, hB, hA, ?_⟩
      rw [equalParts_comm]
      exact hequal

theorem nodup_sideSnapshot (hA : (peerA.items.map (·.relativePath.components)).Nodup)
    (hB : (peerB.items.map (·.relativePath.components)).Nodup) (side : PeerSide) :
    ((sideSnapshot peerA peerB side).items.map (·.relativePath.components)).Nodup := by
  cases side with
  | peerA => exact hA
  | peerB => exact hB

theorem deletionJustified_iff
    (hnodup : (baseline.items.map fun item => (pathOf item.relativePath).components).Nodup)
    (hA : (peerA.items.map (·.relativePath.components)).Nodup)
    (hB : (peerB.items.map (·.relativePath.components)).Nodup) {missing : PeerSide} :
    DeletionJustified baseline peerA peerB p missing ↔
      ∃ item ∈ baseline.items, (pathOf item.relativePath).components = p.components ∧
        ∃ lost kept current,
          LostOn baseline.metadata peerA peerB item missing lost kept current := by
  have hside := nodup_sideSnapshot hA hB
  constructor
  · intro ⟨⟨item, stateA, stateB, hitem, hstates⟩, hcompared, hgone⟩
    obtain ⟨hmem, hpath⟩ := (itemAt_eq_some hnodup).mp hitem
    obtain ⟨lost, kept, hlost, hkept, hequal⟩ := equal_sides missing hstates
    obtain ⟨-, -, hunchanged⟩ := (compared_iff hA hB).mp hcompared
    rw [SyncBaseline.statusOn, hitem, Option.bind_some, hkept, compareSide_eq_unchanged]
      at hunchanged
    obtain ⟨current, hcurrent, hsame⟩ := hunchanged
    obtain ⟨hfound, hincluded⟩ := SourceInventorySnapshot.includedAt_eq_some.mp hcurrent
    refine ⟨item, hmem, hpath, lost, kept, current, hlost, hkept, hequal, ?_, ?_, hincluded, hsame⟩
    · rw [currentItem_eq (hside _), SourceInventorySnapshot.item_congr _ hpath]
      exact hgone
    · rw [currentItem_eq (hside _), SourceInventorySnapshot.item_congr _ hpath]
      exact hfound
  · intro ⟨item, hmem, hpath, lost, kept, current, hlost⟩
    have hitem := (itemAt_eq_some hnodup).mpr ⟨hmem, hpath⟩
    have hgone := hlost.gone
    have hfound := hlost.found
    rw [currentItem_eq (hside _), SourceInventorySnapshot.item_congr _ hpath] at hgone hfound
    refine ⟨?_, (compared_iff hA hB).mpr ⟨.inl (Option.isSome_of_eq_some hitem), ?_, ?_⟩, hgone⟩
    · have hequal := hlost.equal
      cases missing with
      | peerA => exact ⟨item, lost, kept, hitem, hlost.lost_side, hlost.kept_side, hequal⟩
      | peerB =>
          rw [equalParts_comm] at hequal
          exact ⟨item, kept, lost, hitem, hlost.kept_side, hlost.lost_side, hequal⟩
    · rw [SyncBaseline.statusOn, hitem, Option.bind_some, compareSide_eq_absent,
        hlost.lost_side, SourceInventorySnapshot.includedAt, hgone]
      exact ⟨rfl, rfl⟩
    · rw [SyncBaseline.statusOn, hitem, Option.bind_some, hlost.kept_side,
        compareSide_eq_unchanged]
      exact ⟨current, SourceInventorySnapshot.includedAt_eq_some.mpr ⟨hfound, hlost.included⟩,
        hlost.unchanged⟩

theorem mem_deletionCandidates : candidate ∈ baseline.deletionCandidates peerA peerB ↔
    ∃ item ∈ baseline.items, ∃ missing lost kept current,
      LostOn baseline.metadata peerA peerB item missing lost kept current ∧
        candidate = ⟨item.relativePath, missing, missing.opposite,
          ⟨lost, kept, .fromSnapshot current⟩⟩ := by
  rw [SyncBaseline.deletionCandidates, List.mem_filterMap]
  simp only [deletionCandidate_eq_some]

end

/-- **The candidates are the justified deletions.** -/
theorem deletion_candidates_exact {baseline : SyncBaseline}
    {peerA peerB : SourceInventorySnapshot}
    (hnodup : (baseline.items.map fun item => (pathOf item.relativePath).components).Nodup)
    (hA : (peerA.items.map (·.relativePath.components)).Nodup)
    (hB : (peerB.items.map (·.relativePath.components)).Nodup) :
    DeletionsJustified baseline peerA peerB where
  listed p missing := by
    rw [deletionJustified_iff hnodup hA hB]
    simp only [mem_deletionCandidates]
    constructor
    · intro ⟨candidate, ⟨item, hmem, missing', lost, kept, current, hlost, heq⟩, hpath, hmissing⟩
      subst heq
      subst hmissing
      exact ⟨item, hmem, hpath, lost, kept, current, hlost⟩
    · intro ⟨item, hmem, hpath, lost, kept, current, hlost⟩
      exact ⟨_, ⟨item, hmem, missing, lost, kept, current, hlost, rfl⟩, hpath, rfl⟩
  once := by
    rw [List.nodup_iff_pairwise_ne, List.pairwise_map] at hnodup ⊢
    refine hnodup.filterMap _ fun item item' hne candidate hcandidate candidate' hcandidate' => ?_
    rw [relativePath_of_deletionCandidate hcandidate, relativePath_of_deletionCandidate hcandidate']
    exact hne
  affected candidate hcandidate := by
    obtain ⟨item, -, missing, lost, kept, current, -, rfl⟩ := mem_deletionCandidates.mp hcandidate
    rfl
  remaining candidate hcandidate := by
    obtain ⟨item, -, missing, lost, kept, current, hlost, rfl⟩ :=
      mem_deletionCandidates.mp hcandidate
    refine ⟨current, ?_, rfl⟩
    rw [← currentItem_eq (nodup_sideSnapshot hA hB _)]
    exact hlost.found

/-- A file that both peers had, and the first has no more. -/
theorem deletion_candidates_lost :
    DeletionJustified settledBaseline (.fromInventory "Laptop" ⟨[47, 97]⟩ ⟨[]⟩)
      (.fromInventory "Server" ⟨[47, 98]⟩ ⟨[aloneItem]⟩) ⟨[120]⟩ .peerA :=
  ((deletion_candidates_exact (by decide +kernel) (by decide) (by decide +kernel)).listed
    ⟨[120]⟩ .peerA).mp (by decide +kernel)

end SyncPlus
