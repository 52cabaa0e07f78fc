import SyncPlus.BaselineContents

/-!
# Comparisons with a baseline

What a baseline reports about one path. `SyncBaseline.compare` lists every path
that the baseline or an included item of a peer has, once, and its statuses
follow from the baseline's entry and the peers' included items there
(`mem_compare`).
-/

namespace SyncPlus

namespace SourceInventorySnapshot

variable {snapshot : SourceInventorySnapshot} {p : PathBuf} {item : InventorySnapshotItem}

/-- The included item at a path. -/
def includedAt (snapshot : SourceInventorySnapshot) (p : PathBuf) :
    Option InventorySnapshotItem :=
  (snapshot.item p).filter (·.outcome = .included)

theorem includedAt_eq_some :
    snapshot.includedAt p = some item ↔ snapshot.item p = some item ∧ item.outcome = .included := by
  unfold includedAt
  rw [Option.filter_eq_some_iff, decide_eq_true_eq]

theorem nodup_includedItems (hnodup : (snapshot.items.map (·.relativePath.components)).Nodup) :
    (snapshot.includedItems.map (·.relativePath.components)).Nodup :=
  hnodup.sublist (List.filter_sublist.map _)

theorem getByPath_includedItems
    (hnodup : (snapshot.items.map (·.relativePath.components)).Nodup) :
    getByPath InventorySnapshotItem.relativePath snapshot.includedItems p =
      snapshot.includedAt p := by
  refine Option.ext fun item => ?_
  rw [getByPath_eq_some (nodup_includedItems hnodup), includedAt_eq_some, item_eq_some hnodup,
    includedItems, List.mem_filter, decide_eq_true_eq]
  exact and_right_comm

end SourceInventorySnapshot

namespace SyncBaseline

variable {baseline : SyncBaseline} {peerA peerB : SourceInventorySnapshot} {p : PathBuf}

/-- The entry of a path depends on its components only. -/
theorem itemAt_congr (baseline : SyncBaseline) {q : PathBuf} (h : p.components = q.components) :
    baseline.itemAt p = baseline.itemAt q := by
  have hsame : ∀ r : PathBuf, r.same p = r.same q := by
    intro r
    rw [Bool.eq_iff_iff, PathBuf.same_iff, PathBuf.same_iff, h]
  simp only [itemAt, hsame]

/-- How both peers compare with the baseline at a path. -/
def statusesAt (baseline : SyncBaseline) (peerA peerB : SourceInventorySnapshot) (p : PathBuf) :
    SyncBaselineItemStatus × SyncBaselineItemStatus :=
  (compareSide ((baseline.itemAt p).bind (·.peerA)) (peerA.includedAt p) ⟨baseline.metadata⟩,
    compareSide ((baseline.itemAt p).bind (·.peerB)) (peerB.includedAt p) ⟨baseline.metadata⟩)

/-- The baseline or a peer has the path. -/
def Mentions (baseline : SyncBaseline) (peerA peerB : SourceInventorySnapshot) (p : PathBuf) :
    Prop :=
  (baseline.itemAt p).isSome = true ∨ (peerA.includedAt p).isSome = true ∨
    (peerB.includedAt p).isSome = true

/-- No path is listed twice. -/
theorem nodup_compare : ((baseline.compare peerA peerB).map (·.relativePath.components)).Nodup := by
  unfold compare
  rw [List.map_map]
  exact nodup_pathSet _

theorem mentions_iff (hA : (peerA.items.map (·.relativePath.components)).Nodup)
    (hB : (peerB.items.map (·.relativePath.components)).Nodup) :
    baseline.Mentions peerA peerB p ↔
      ∃ q ∈ baseline.items.map (fun item => pathOf item.relativePath) ++
        peerA.includedItems.map (·.relativePath) ++ peerB.includedItems.map (·.relativePath),
          q.components = p.components := by
  have hbaseline : (baseline.itemAt p).isSome = true ↔
      ∃ item ∈ baseline.items, (pathOf item.relativePath).components = p.components := by
    unfold itemAt
    rw [List.find?_isSome]
    simp only [PathBuf.same_iff]
  have hpeer : ∀ {snapshot : SourceInventorySnapshot},
      (snapshot.items.map (·.relativePath.components)).Nodup →
        ((snapshot.includedAt p).isSome = true ↔
          ∃ item ∈ snapshot.includedItems, item.relativePath.components = p.components) := by
    intro snapshot h
    rw [← SourceInventorySnapshot.getByPath_includedItems h, Option.isSome_iff_exists]
    exact exists_congr fun item =>
      getByPath_eq_some (SourceInventorySnapshot.nodup_includedItems h)
  unfold Mentions
  rw [hbaseline, hpeer hA, hpeer hB]
  simp only [List.mem_append, or_and_right, exists_or, List.mem_map, exists_exists_and_eq_and,
    or_assoc]

/-- **What a baseline reports.** -/
theorem mem_compare (hA : (peerA.items.map (·.relativePath.components)).Nodup)
    (hB : (peerB.items.map (·.relativePath.components)).Nodup)
    {statuses : SyncBaselineItemStatus × SyncBaselineItemStatus} :
    (∃ comparison ∈ baseline.compare peerA peerB,
        comparison.relativePath.components = p.components ∧
          (comparison.peerA, comparison.peerB) = statuses) ↔
      baseline.Mentions peerA peerB p ∧ baseline.statusesAt peerA peerB p = statuses := by
  have hstatuses : ∀ {q : PathBuf}, q.components = p.components →
      (compareSide ((baseline.itemAt q).bind (·.peerA))
          (getByPath InventorySnapshotItem.relativePath peerA.includedItems q)
          ⟨baseline.metadata⟩,
        compareSide ((baseline.itemAt q).bind (·.peerB))
          (getByPath InventorySnapshotItem.relativePath peerB.includedItems q)
          ⟨baseline.metadata⟩) = baseline.statusesAt peerA peerB p := by
    intro q hpath
    rw [baseline.itemAt_congr hpath, SourceInventorySnapshot.getByPath_includedItems hA,
      SourceInventorySnapshot.getByPath_includedItems hB,
      SourceInventorySnapshot.includedAt, SourceInventorySnapshot.includedAt,
      peerA.item_congr hpath, peerB.item_congr hpath]
    rfl
  rw [mentions_iff hA hB, ← exists_mem_pathSet_iff]
  unfold compare
  constructor
  · intro ⟨comparison, hcomparison, hpath, heq⟩
    obtain ⟨q, hq, rfl⟩ := List.mem_map.mp hcomparison
    exact ⟨⟨q, hq, hpath⟩, (hstatuses hpath).symm.trans heq⟩
  · intro ⟨⟨q, hq, hpath⟩, heq⟩
    exact ⟨_, List.mem_map_of_mem hq, hpath, (hstatuses hpath).trans heq⟩

end SyncBaseline

end SyncPlus
