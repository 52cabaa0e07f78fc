import SyncPlus.PendingDeletions
import SyncPlus.RunReport

/-!
# Baselines of settled runs

What a Mirror run adds to the baseline of its profile. Of the current
inventories it takes the paths that both peers have, equal and included, with
no finding and no unfinished action (`MirrorRun.Settles`), and the update
merges these into what is stored. A path that neither peer has is in no such
update, so a completed deletion leaves the stored entry of its path as it was,
and so does every later run that does not settle the path
(`deletion_evidence_kept`).
-/

namespace SyncPlus

open Std (ExtTreeMap)

/-! ## Baselines from inventories -/

namespace SyncBaseline

/-- What `by_path` holds at a path: the included items of the peers. -/
def entryOf (peerA peerB : SourceInventorySnapshot) (path : PathBuf) : SyncBaselineItem where
  relativePath := namesOf path
  peerA :=
    (getByPath InventorySnapshotItem.relativePath peerA.includedItems path).map .fromSnapshot
  peerB :=
    (getByPath InventorySnapshotItem.relativePath peerB.includedItems path).map .fromSnapshot

def fromInventories (profileName : String) (peerA peerB : SourceInventorySnapshot)
    (metadata : MetadataRequirements) : SyncBaseline where
  profileName
  peerAName := peerA.peerName
  peerARoot := peerA.root.components
  peerBName := peerB.peerName
  peerBRoot := peerB.root.components
  metadata
  items := overlay (·.relativePath) []
    ((pathSet (peerA.includedItems.map (·.relativePath) ++
      peerB.includedItems.map (·.relativePath))).map (entryOf peerA peerB))
  sorted := sortedBy_overlay

/-- The path has a finding, or an action that is not completed. -/
def blocked (journal : List ActionJournalEntry) (reconciliation : CompletionReconciliation)
    (path : PathBuf) : Bool :=
  reconciliation.findings.any (·.relativePath.same path) ||
    journal.any fun entry => entry.plan.relativePath.same path && entry.outcome ≠ .completed

/-- The loop of `from_reconciled_inventories`, for one path. -/
def settledPair (equality : MirrorEquality) (peerA peerB : SourceInventorySnapshot)
    (journal : List ActionJournalEntry) (reconciliation : CompletionReconciliation)
    (path : PathBuf) : Option (InventorySnapshotItem × InventorySnapshotItem) :=
  if blocked journal reconciliation path then none
  else
    match peerA.item path, peerB.item path with
    | some left, some right => if equality.equal left right then some (left, right) else none
    | _, _ => none

def fromReconciledInventories (profileName : String) (peerA peerB : SourceInventorySnapshot)
    (journal : List ActionJournalEntry) (reconciliation : CompletionReconciliation)
    (metadata : MetadataRequirements) : SyncBaseline :=
  let settled := (pathSet (peerA.items.map (·.relativePath) ++
    peerB.items.map (·.relativePath))).filterMap
      (settledPair ⟨metadata⟩ peerA peerB journal reconciliation)
  fromInventories profileName
    { peerName := peerA.peerName, root := peerA.root, items := settled.map Prod.fst }
    { peerName := peerB.peerName, root := peerB.root, items := settled.map Prod.snd }
    metadata

end SyncBaseline

/-! ## Runs -/

/-- What a Mirror run is reconciled from: the current inventories, which are
walks of one scope, its journal and what reconciliation found. -/
structure MirrorRun where
  profileName : String
  nameA : String
  nameB : String
  rootA : PathBuf
  rootB : PathBuf
  scope : WalkScope
  peerA : SourceInventory
  peerB : SourceInventory
  inScopeA : scope.InScope peerA
  inScopeB : scope.InScope peerB
  journal : List ActionJournalEntry
  reconciliation : CompletionReconciliation
  metadata : MetadataRequirements

namespace MirrorRun

def baseline (run : MirrorRun) : SyncBaseline :=
  .fromReconciledInventories run.profileName (.fromInventory run.nameA run.rootA run.peerA)
    (.fromInventory run.nameB run.rootB run.peerB) run.journal run.reconciliation run.metadata

/-- Both peers have the path, equal, and nothing of the run is open there. -/
def Settles (run : MirrorRun) (p : RelativePath) : Prop :=
  ∃ left right, run.peerA.item (pathOf p) = some left ∧ run.peerB.item (pathOf p) = some right ∧
    MirrorEquality.equal ⟨run.metadata⟩ (.fromItem left) (.fromItem right) = true ∧
    SyncBaseline.blocked run.journal run.reconciliation (pathOf p) = false

/-- The deletion of the path was completed: neither peer has it, and nothing
of the run is open there. -/
structure Deleted (run : MirrorRun) (p : RelativePath) : Prop where
  absentA : run.peerA.item (pathOf p) = none
  absentB : run.peerB.item (pathOf p) = none
  closed : SyncBaseline.blocked run.journal run.reconciliation (pathOf p) = false

end MirrorRun

/-- The baseline table after the runs, one after the other. -/
def BaselineTable.updateAll (table : BaselineTable) (runs : List MirrorRun) :
    Except StorageError BaselineTable :=
  runs.foldlM (fun table run => table.updateMirrorBaseline run.baseline) table

/-! ## What a run settles -/

section

variable {peerA peerB : SourceInventorySnapshot} {journal : List ActionJournalEntry}
  {reconciliation : CompletionReconciliation} {metadata : MetadataRequirements}

theorem settledPair_eq_some {path : PathBuf} {left right : InventorySnapshotItem}
    (h : SyncBaseline.settledPair ⟨metadata⟩ peerA peerB journal reconciliation path =
      some (left, right)) :
    SyncBaseline.blocked journal reconciliation path = false ∧ peerA.item path = some left ∧
      peerB.item path = some right ∧ MirrorEquality.equal ⟨metadata⟩ left right = true := by
  unfold SyncBaseline.settledPair at h
  split at h
  · cases h
  · rename_i hblocked
    split at h
    · rename_i hleft hright
      split at h
      · rename_i hequal
        cases h
        exact ⟨Bool.not_eq_true _ ▸ hblocked, hleft, hright, hequal⟩
      · cases h
    · cases h

theorem blocked_congr {p q : PathBuf} (h : p.components = q.components) :
    SyncBaseline.blocked journal reconciliation p =
      SyncBaseline.blocked journal reconciliation q := by
  have hsame : ∀ r : PathBuf, r.same p = r.same q := by
    intro r
    rw [Bool.eq_iff_iff, PathBuf.same_iff, PathBuf.same_iff, h]
  simp only [SyncBaseline.blocked, hsame]

/-- An entry of a reconciled baseline is at a path both inventories have. -/
theorem settled_of_mem {profileName : String} {item : SyncBaselineItem}
    (h : item ∈ (SyncBaseline.fromReconciledInventories profileName peerA peerB journal
      reconciliation metadata).items) :
    ∃ path left right, item.relativePath = namesOf path ∧
      SyncBaseline.blocked journal reconciliation path = false ∧ peerA.item path = some left ∧
      peerB.item path = some right ∧ MirrorEquality.equal ⟨metadata⟩ left right = true := by
  unfold SyncBaseline.fromReconciledInventories SyncBaseline.fromInventories at h
  dsimp only at h
  obtain ⟨path, hpath, rfl⟩ := List.mem_map.mp (mem_of_mem_overlay_nil h)
  have hpath := mem_pathSet hpath
  -- the path is that of one of the two items of a settled pair
  have hpair : ∃ q left right, SyncBaseline.settledPair ⟨metadata⟩ peerA peerB journal
      reconciliation q = some (left, right) ∧
        (left.relativePath = path ∨ right.relativePath = path) := by
    rcases List.mem_append.mp hpath with hpath | hpath
    · obtain ⟨left, hleft, rfl⟩ := List.mem_map.mp hpath
      obtain ⟨⟨left, right⟩, hpair, rfl⟩ := List.mem_map.mp (List.mem_of_mem_filter hleft)
      obtain ⟨q, -, hq⟩ := List.mem_filterMap.mp hpair
      exact ⟨q, left, right, hq, .inl rfl⟩
    · obtain ⟨right, hright, rfl⟩ := List.mem_map.mp hpath
      obtain ⟨⟨left, right⟩, hpair, rfl⟩ := List.mem_map.mp (List.mem_of_mem_filter hright)
      obtain ⟨q, -, hq⟩ := List.mem_filterMap.mp hpair
      exact ⟨q, left, right, hq, .inr rfl⟩
  obtain ⟨q, left, right, hq, hside⟩ := hpair
  obtain ⟨hblocked, hleft, hright, hequal⟩ := settledPair_eq_some hq
  have hcomponents : path.components = q.components := by
    rcases hside with rfl | rfl
    · exact (SourceInventorySnapshot.item_same hleft).2
    · exact (SourceInventorySnapshot.item_same hright).2
  exact ⟨q, left, right, namesOf_congr hcomponents, hblocked, hleft, hright, hequal⟩

end

namespace MirrorRun

variable {run : MirrorRun} {p : RelativePath}

/-- **A run adds only what it settles.** -/
theorem settles_of_item (h : run.baseline.item p ≠ none) : run.Settles p := by
  obtain ⟨item, hitem⟩ := Option.ne_none_iff_exists'.mp h
  obtain ⟨hmem, rfl⟩ := (lookup_eq_some run.baseline.sorted).mp hitem
  obtain ⟨path, left, right, hpath, hblocked, hleft, hright, hequal⟩ := settled_of_mem hmem
  rw [SourceInventorySnapshot.item_fromInventory] at hleft hright
  obtain ⟨leftItem, hfoundA, rfl⟩ := Option.map_eq_some_iff.mp hleft
  obtain ⟨rightItem, hfoundB, rfl⟩ := Option.map_eq_some_iff.mp hright
  -- a walked path is made of the names it is read as
  have hcomponents : path.components = (pathOf item.relativePath).components := by
    obtain ⟨hmemA, hsame⟩ := SourceInventory.item_same hfoundA
    obtain ⟨names, found, -, hvalid, rfl⟩ := run.inScopeA.named leftItem hmemA
    rw [hpath, ← namesOf_congr hsame, WalkScope.relativePath_itemAt, namesOf_pathOf hvalid, ← hsame,
      WalkScope.relativePath_itemAt]
  refine ⟨leftItem, rightItem, ?_, ?_, hequal, ?_⟩
  · rw [← run.peerA.item_congr hcomponents]
    exact hfoundA
  · rw [← run.peerB.item_congr hcomponents]
    exact hfoundB
  · rw [← blocked_congr hcomponents]
    exact hblocked

theorem Deleted.not_settles (h : run.Deleted p) : ¬ run.Settles p := by
  rintro ⟨left, right, hleft, -⟩
  rw [h.absentA] at hleft
  cases hleft

end MirrorRun

/-! ## What stays stored -/

/-- The rows of the profile are those of this baseline. -/
def BaselineTable.Holds (table : BaselineTable) (b : SyncBaseline) : Prop :=
  table[b.profileName]? = some (.ofBaseline b)

namespace BaselineTable

variable {table table' : BaselineTable} {b after : SyncBaseline} {existing : Option SyncBaseline}
  {run : MirrorRun} {p : RelativePath}

theorem holds_write (table : BaselineTable) (b : SyncBaseline) : (table.write b).Holds b := by
  simp [Holds, write]

theorem Holds.write_of_ne {other : SyncBaseline} (h : table.Holds b)
    (hne : other.profileName ≠ b.profileName) : (table.write other).Holds b := by
  have hget : (table.write other)[b.profileName]? = table[b.profileName]? := by
    simp [write, ExtTreeMap.getElem?_insert, hne]
  exact hget.trans h

theorem Holds.eq_of_load (h : table.Holds b)
    (hload : table.loadMirrorBaseline b.profileName = .ok existing) : existing = some b := by
  unfold loadMirrorBaseline at hload
  rw [h] at hload
  obtain ⟨read, hread, rfl⟩ := map_eq_ok.mp hload
  rw [(decode_ofBaseline.mp hread).2]

theorem Holds.load (h : table.Holds b) (hreadable : b.Readable) :
    table.loadMirrorBaseline b.profileName = .ok (some b) := by
  unfold loadMirrorBaseline
  rw [h]
  exact map_eq_ok.mpr ⟨b, decode_ofBaseline.mpr ⟨hreadable, rfl⟩, rfl⟩

theorem updateMirrorBaseline_eq_ok :
    table.updateMirrorBaseline b = .ok table' ↔
      ∃ existing, table.loadMirrorBaseline b.profileName = .ok existing ∧
        table' = table.write (settle existing b) := by
  unfold updateMirrorBaseline
  rw [bind_eq_ok]
  constructor
  · rintro ⟨existing, hexisting, hwrite⟩
    cases hwrite
    exact ⟨existing, hexisting, rfl⟩
  · rintro ⟨existing, hexisting, rfl⟩
    exact ⟨existing, hexisting, rfl⟩

/-- The step: an update of the same peers that does not settle the path keeps
what is stored there. -/
theorem Holds.update (h : table.Holds b)
    (hsame : run.profileName = b.profileName → SameEndpoints b run.baseline ∧ ¬ run.Settles p)
    (hupdate : table.updateMirrorBaseline run.baseline = .ok table') :
    ∃ b', table'.Holds b' ∧ SameEndpoints b b' ∧ b'.item p = b.item p := by
  obtain ⟨existing, hexisting, rfl⟩ := updateMirrorBaseline_eq_ok.mp hupdate
  have hheader := (settle_header existing run.baseline).1
  by_cases hname : run.profileName = b.profileName
  · obtain ⟨hendpoints, hunsettled⟩ := hsame hname
    obtain rfl : existing = some b := h.eq_of_load (hname ▸ hexisting)
    have hnone : run.baseline.item p = none := by
      by_contra hsome
      exact hunsettled (MirrorRun.settles_of_item hsome)
    refine ⟨settle (some b) run.baseline, holds_write _ _, ?_, ?_⟩
    · obtain ⟨h1, h2, h3, h4, h5⟩ := hheader
      obtain ⟨k1, k2, k3, k4, k5⟩ := hendpoints
      exact ⟨k1.trans h1.symm, k2.trans h2.symm, k3.trans h3.symm, k4.trans h4.symm,
        k5.trans h5.symm⟩
    · rw [item_settle, hnone, storedAt, if_pos hendpoints]
      rfl
  · refine ⟨b, h.write_of_ne ?_, ⟨rfl, rfl, rfl, rfl, rfl⟩, rfl⟩
    rw [hheader.1]
    exact hname

/-- The run: so does every sequence of such updates. -/
theorem Holds.updateAll {runs : List MirrorRun} (h : table.Holds b)
    (hsame : ∀ run ∈ runs, run.profileName = b.profileName →
      SameEndpoints b run.baseline ∧ ¬ run.Settles p)
    (hruns : table.updateAll runs = .ok table') :
    ∃ b', table'.Holds b' ∧ SameEndpoints b b' ∧ b'.item p = b.item p := by
  induction runs generalizing table b with
  | nil =>
      cases hruns
      exact ⟨b, h, ⟨rfl, rfl, rfl, rfl, rfl⟩, rfl⟩
  | cons run runs ih =>
      rw [BaselineTable.updateAll, List.foldlM_cons] at hruns
      obtain ⟨next, hnext, hrest⟩ := bind_eq_ok.mp hruns
      obtain ⟨b', hholds, hendpoints, hitem⟩ := h.update (hsame run (.head _)) hnext
      obtain ⟨h1, h2, h3, h4, h5⟩ := hendpoints
      have hlater : ∀ later ∈ runs, later.profileName = b'.profileName →
          SameEndpoints b' later.baseline ∧ ¬ later.Settles p := by
        intro later hmem hname
        obtain ⟨⟨k1, k2, k3, k4, k5⟩, hunsettled⟩ :=
          hsame later (.tail _ hmem) (hname.trans h1.symm)
        exact ⟨⟨h1.symm.trans k1, h2.symm.trans k2, h3.symm.trans k3, h4.symm.trans k4,
          h5.symm.trans k5⟩, hunsettled⟩
      obtain ⟨last, hlast, ⟨k1, k2, k3, k4, k5⟩, hkept⟩ := ih hholds hlater hrest
      exact ⟨last, hlast, ⟨h1.trans k1, h2.trans k2, h3.trans k3, h4.trans k4, h5.trans k5⟩,
        hkept.trans hitem⟩

end BaselineTable

/-- A path is a candidate exactly when the deletion of its entry is pending. -/
theorem candidate_at_iff {baseline : SyncBaseline} {p : RelativePath} (nameA nameB : String)
    (rootA rootB : PathBuf) (peerA peerB : SourceInventory) :
    (∃ candidate ∈ baseline.deletionCandidates (.fromInventory nameA rootA peerA)
        (.fromInventory nameB rootB peerB), candidate.relativePath = p) ↔
      ∃ item, baseline.item p = some item ∧ item.Pending baseline.metadata peerA peerB := by
  constructor
  · rintro ⟨candidate, hcandidate, rfl⟩
    obtain ⟨item, hitem, hcandidate⟩ := List.mem_filterMap.mp hcandidate
    rw [relativePath_of_deletionCandidate hcandidate]
    exact ⟨item, mem_items_iff.mp hitem,
      (exists_deletionCandidate nameA nameB rootA rootB).mp ⟨candidate, hcandidate⟩⟩
  · rintro ⟨item, hitem, hpending⟩
    obtain ⟨hmem, rfl⟩ := (lookup_eq_some baseline.sorted).mp hitem
    obtain ⟨candidate, hcandidate⟩ :=
      (exists_deletionCandidate nameA nameB rootA rootB).mpr hpending
    exact ⟨candidate, List.mem_filterMap.mpr ⟨item, hmem, hcandidate⟩,
      relativePath_of_deletionCandidate hcandidate⟩

/-- **A completed deletion leaves the evidence.** After a run in which the
deletion of a path was completed, and any later runs of the same peers that
do not settle it, the baseline holds at the path what was stored there for
these peers before the run; so what one peer has there is a candidate exactly
when that entry makes it one. -/
theorem deletion_evidence_kept {table table' : BaselineTable} {existing : Option SyncBaseline}
    {run : MirrorRun} {later : List MirrorRun} {after : SyncBaseline} {p : RelativePath}
    (hexisting : table.loadMirrorBaseline run.profileName = .ok existing)
    (hdeleted : run.Deleted p)
    (hlater : ∀ next ∈ later, next.profileName = run.profileName →
      SameEndpoints run.baseline next.baseline ∧ ¬ next.Settles p)
    (hruns : table.updateAll (run :: later) = .ok table')
    (hafter : table'.loadMirrorBaseline run.profileName = .ok (some after)) :
    after.item p = storedAt existing run.baseline p ∧
      ∀ nameA nameB rootA rootB peerA peerB,
        (∃ candidate ∈ after.deletionCandidates (.fromInventory nameA rootA peerA)
            (.fromInventory nameB rootB peerB), candidate.relativePath = p) ↔
          ∃ item, storedAt existing run.baseline p = some item ∧
            item.Pending after.metadata peerA peerB := by
  rw [BaselineTable.updateAll, List.foldlM_cons] at hruns
  obtain ⟨next, hnext, hrest⟩ := bind_eq_ok.mp hruns
  obtain ⟨existing', hexisting', rfl⟩ := BaselineTable.updateMirrorBaseline_eq_ok.mp hnext
  obtain rfl : existing = existing' := Except.ok.inj (hexisting.symm.trans hexisting')
  have hnone : run.baseline.item p = none := by
    by_contra hsome
    exact hdeleted.not_settles (MirrorRun.settles_of_item hsome)
  have hstored : (BaselineTable.settle existing run.baseline).item p =
      storedAt existing run.baseline p := by
    rw [item_settle, hnone]
    rfl
  obtain ⟨h1, h2, h3, h4, h5⟩ := (settle_header existing run.baseline).1
  have hkept : ∀ next ∈ later,
      next.profileName = (BaselineTable.settle existing run.baseline).profileName →
        SameEndpoints (BaselineTable.settle existing run.baseline) next.baseline ∧
          ¬ next.Settles p := by
    intro next hmem hname
    obtain ⟨⟨k1, k2, k3, k4, k5⟩, hunsettled⟩ := hlater next hmem (hname.trans h1)
    exact ⟨⟨h1.trans k1, h2.trans k2, h3.trans k3, h4.trans k4, h5.trans k5⟩, hunsettled⟩
  obtain ⟨last, hlast, ⟨k1, -⟩, hitem⟩ :=
    (BaselineTable.holds_write table _).updateAll hkept hrest
  have hname : run.profileName = last.profileName := h1.symm.trans k1
  rw [hname] at hafter
  obtain rfl : after = last := Option.some.inj (hlast.eq_of_load hafter)
  have hkeptItem : after.item p = storedAt existing run.baseline p := hitem.trans hstored
  refine ⟨hkeptItem, fun nameA nameB rootA rootB peerA peerB => ?_⟩
  rw [candidate_at_iff, hkeptItem]

/-! ### A file deleted on both peers -/

theorem alone_inScope : WalkScope.InScope ⟨.utf8, []⟩ ⟨[aloneItem]⟩ ∧
    WalkScope.InScope ⟨.utf8, []⟩ ⟨[]⟩ :=
  ⟨WalkScope.collectInventory_inScope collectInventory_alone.1,
    WalkScope.collectInventory_inScope collectInventory_alone.2⟩

/-- Both peers have the file `x`. -/
def settlingRun : MirrorRun where
  profileName := "Documents"
  nameA := "Laptop"
  nameB := "Server"
  rootA := ⟨[47, 97]⟩
  rootB := ⟨[47, 98]⟩
  scope := ⟨.utf8, []⟩
  peerA := ⟨[aloneItem]⟩
  peerB := ⟨[aloneItem]⟩
  inScopeA := alone_inScope.1
  inScopeB := alone_inScope.1
  journal := []
  reconciliation := ⟨.notApplicable, []⟩
  metadata := SyncOptions.default.metadata

/-- Neither peer has it any more. -/
def deletingRun : MirrorRun :=
  { settlingRun with
    peerA := ⟨[]⟩
    peerB := ⟨[]⟩
    inScopeA := alone_inScope.2
    inScopeB := alone_inScope.2 }

theorem deletingRun_deleted : deletingRun.Deleted [[120]] := ⟨rfl, rfl, rfl⟩

/-- What is stored after both runs. -/
def deletedBaseline : SyncBaseline :=
  BaselineTable.settle (some settlingRun.baseline) deletingRun.baseline

theorem deletedBaseline_item :
    storedAt (some settlingRun.baseline) deletingRun.baseline [[120]] =
        some ⟨[[120]], some plainState, some plainState⟩ ∧
      deletedBaseline.profileName = "Documents" ∧ deletedBaseline.Readable := by
  decide +kernel

theorem settling_load : (BaselineTable.write ∅ settlingRun.baseline).loadMirrorBaseline "Documents" =
    .ok (some settlingRun.baseline) :=
  (BaselineTable.holds_write ∅ settlingRun.baseline).load (by decide +kernel)

theorem deleting_update :
    (BaselineTable.write ∅ settlingRun.baseline).updateMirrorBaseline deletingRun.baseline =
      .ok ((BaselineTable.write ∅ settlingRun.baseline).write deletedBaseline) :=
  BaselineTable.updateMirrorBaseline_eq_ok.mpr ⟨_, settling_load, rfl⟩

theorem deleted_load :
    ((BaselineTable.write ∅ settlingRun.baseline).write deletedBaseline).loadMirrorBaseline
      "Documents" = .ok (some deletedBaseline) := by
  obtain ⟨-, hname, hreadable⟩ := deletedBaseline_item
  rw [← hname]
  exact (BaselineTable.holds_write _ _).load hreadable

/-- The entry is kept, and the file is a candidate as soon as one peer has it
again. -/
theorem deletion_evidence_kept_file :
    deletedBaseline.item [[120]] = some ⟨[[120]], some plainState, some plainState⟩ ∧
      ∃ candidate ∈ deletedBaseline.deletionCandidates
        (.fromInventory "Laptop" ⟨[47, 97]⟩ ⟨[aloneItem]⟩)
        (.fromInventory "Server" ⟨[47, 98]⟩ ⟨[]⟩), candidate.relativePath = [[120]] := by
  have hruns : (BaselineTable.write ∅ settlingRun.baseline).updateAll [deletingRun] =
      .ok ((BaselineTable.write ∅ settlingRun.baseline).write deletedBaseline) := by
    rw [BaselineTable.updateAll, List.foldlM_cons, deleting_update]
    rfl
  obtain ⟨hitem, hcandidates⟩ := deletion_evidence_kept settling_load deletingRun_deleted
    (by simp) hruns deleted_load
  rw [deletedBaseline_item.1] at hitem
  refine ⟨hitem, (hcandidates _ _ _ _ _ _).mpr ⟨_, deletedBaseline_item.1, ?_⟩⟩
  exact ⟨.peerA, plainState, plainState, aloneItem, rfl, rfl, by decide +kernel, by decide +kernel,
    by decide +kernel, by decide +kernel, by decide +kernel⟩

/-- The file is deleted on both peers, and the baseline still has it. -/
theorem deletion_not_forgotten :
    ¬ ∀ (runs : List MirrorRun) (run : MirrorRun) (p : RelativePath) (table : BaselineTable)
      (after : SyncBaseline), BaselineTable.updateAll ∅ (runs ++ [run]) = .ok table →
        run.Deleted p → table.loadMirrorBaseline run.profileName = .ok (some after) →
          after.item p = none := by
  intro h
  have hfirst : BaselineTable.updateMirrorBaseline ∅ settlingRun.baseline =
      .ok (BaselineTable.write ∅ settlingRun.baseline) :=
    BaselineTable.updateMirrorBaseline_eq_ok.mpr ⟨none, rfl, rfl⟩
  have hruns : BaselineTable.updateAll ∅ ([settlingRun] ++ [deletingRun]) =
      .ok ((BaselineTable.write ∅ settlingRun.baseline).write deletedBaseline) := by
    rw [BaselineTable.updateAll, List.singleton_append, List.foldlM_cons, hfirst, ok_bind,
      List.foldlM_cons, deleting_update]
    rfl
  have hnone := h [settlingRun] deletingRun [[120]] _ deletedBaseline hruns deletingRun_deleted
    deleted_load
  have hsome : deletedBaseline.item [[120]] ≠ none := by decide +kernel
  exact hsome hnone

end SyncPlus
