import SyncPlus.SettledBaseline

/-!
# What a baseline records

A path is in the baseline of a reconciled run exactly when both current inventories have
an equal item there and the run has nothing open at the path (`recorded_iff`), and its
entry holds the states of these two items. Stored for a profile without a baseline it
reads back as itself, as long as no size is 2⁶³ or more, which no file has: the writer casts
a size to a signed number and the reader refuses the negative ones.
-/

namespace SyncPlus

/-! ## The header's columns -/

/-- The columns of the metadata requirements in `sync_baselines`. -/
structure MetadataColumns where
  fileType : Int64
  executablePermissions : Int64
  symlinkTargets : Int64
  timestamps : Int64
  ownership : Int64
  accessControlLists : Int64
  extendedAttributes : Int64
  deriving DecidableEq

def MetadataColumns.ofRequirements (metadata : MetadataRequirements) : MetadataColumns where
  fileType := boolToInt metadata.fileType
  executablePermissions := boolToInt metadata.executablePermissions
  symlinkTargets := boolToInt metadata.symlinkTargets
  timestamps := boolToInt metadata.timestamps
  ownership := boolToInt metadata.specialist.ownership
  accessControlLists := boolToInt metadata.specialist.accessControlLists
  extendedAttributes := boolToInt metadata.specialist.extendedAttributes

def MetadataColumns.decode (columns : MetadataColumns) :
    Except StorageError MetadataRequirements := do
  let ownership ← decodeBool columns.ownership "baseline ownership requirement"
  let accessControlLists ← decodeBool columns.accessControlLists "baseline ACL requirement"
  let extendedAttributes ← decodeBool columns.extendedAttributes
    "baseline extended-attribute requirement"
  let fileType ← decodeBool columns.fileType "baseline file-type requirement"
  let executablePermissions ← decodeBool columns.executablePermissions
    "baseline executable-permission requirement"
  let symlinkTargets ← decodeBool columns.symlinkTargets "baseline symlink-target requirement"
  let timestamps ← decodeBool columns.timestamps "baseline timestamp requirement"
  return {
    fileType, executablePermissions, symlinkTargets, timestamps
    specialist := { ownership, accessControlLists, extendedAttributes } }

theorem MetadataColumns.decode_ofRequirements (metadata : MetadataRequirements) :
    (MetadataColumns.ofRequirements metadata).decode = .ok metadata := by
  unfold decode ofRequirements
  simp only [decodeBool_boolToInt, ok_bind]
  rfl

/-- `load_mirror_baseline`, with the columns the requirements of a row stand for. -/
def BaselineTable.readMirrorBaseline (table : BaselineTable) (profileName : String) :
    Except StorageError (Option SyncBaseline) := do
  match ← table.loadMirrorBaseline profileName with
  | none => return none
  | some baseline =>
      let metadata ← (MetadataColumns.ofRequirements baseline.metadata).decode
      return some { baseline with metadata }

/-! ## Comparing -/

inductive SyncBaselineItemStatus where
  | unchanged
  | new
  | changed
  | absent
  deriving DecidableEq

structure SyncBaselineComparison where
  relativePath : PathBuf
  peerA : SyncBaselineItemStatus
  peerB : SyncBaselineItemStatus
  deriving DecidableEq

def compareSide (baseline : Option SyncBaselineItemState) (current : Option InventorySnapshotItem)
    (equality : MirrorEquality) : SyncBaselineItemStatus :=
  match baseline, current with
  | none, none => .unchanged
  | none, some _ => .new
  | some _, none => .absent
  | some baseline, some current =>
      if baseline.equalInventory current equality then .unchanged else .changed

namespace SyncBaseline

def itemAt (baseline : SyncBaseline) (relativePath : PathBuf) : Option SyncBaselineItem :=
  baseline.items.find? fun item => (pathOf item.relativePath).same relativePath

def compare (baseline : SyncBaseline) (peerA peerB : SourceInventorySnapshot) :
    List SyncBaselineComparison :=
  (pathSet (baseline.items.map (fun item => pathOf item.relativePath) ++
    peerA.includedItems.map (·.relativePath) ++
    peerB.includedItems.map (·.relativePath))).map fun relativePath =>
      let item := baseline.itemAt relativePath
      { relativePath
        peerA := compareSide (item.bind (·.peerA))
          (getByPath InventorySnapshotItem.relativePath peerA.includedItems relativePath)
          ⟨baseline.metadata⟩
        peerB := compareSide (item.bind (·.peerB))
          (getByPath InventorySnapshotItem.relativePath peerB.includedItems relativePath)
          ⟨baseline.metadata⟩ }

end SyncBaseline

/-! ## Current inventories -/

/-- The paths of a peer's items are made of names, as a walk makes them, and distinct. -/
structure SourceInventorySnapshot.Current (snapshot : SourceInventorySnapshot) : Prop where
  named : ∀ item ∈ snapshot.items, ∃ names, (∀ name ∈ names, ValidName name) ∧
    item.relativePath.components = (pathOf names).components
  distinct : (snapshot.items.map (·.relativePath.components)).Nodup

/-- Both inventories have an equal item at the path. -/
structure EqualAt (peerA peerB : SourceInventorySnapshot) (metadata : MetadataRequirements)
    (path : PathBuf) (left right : InventorySnapshotItem) : Prop where
  left_mem : left ∈ peerA.items
  right_mem : right ∈ peerB.items
  left_path : left.relativePath.same path = true
  right_path : right.relativePath.same path = true
  left_included : left.outcome = .included
  right_included : right.outcome = .included
  equal : MirrorEquality.equal ⟨metadata⟩ left right = true

/-- No finding names the path, and what the journal has at it is completed. -/
def ClosedAt (journal : List ActionJournalEntry) (reconciliation : CompletionReconciliation)
    (path : PathBuf) : Prop :=
  (∀ finding ∈ reconciliation.findings, finding.relativePath.same path = false) ∧
    ∀ entry ∈ journal, entry.plan.relativePath.same path = true → entry.outcome = .completed

/-- What the loop takes. -/
def settledPairs (peerA peerB : SourceInventorySnapshot) (journal : List ActionJournalEntry)
    (reconciliation : CompletionReconciliation) (metadata : MetadataRequirements) :
    List (InventorySnapshotItem × InventorySnapshotItem) :=
  (pathSet (peerA.items.map (·.relativePath) ++ peerB.items.map (·.relativePath))).filterMap
    (SyncBaseline.settledPair ⟨metadata⟩ peerA peerB journal reconciliation)

section

variable {peerA peerB : SourceInventorySnapshot} {journal : List ActionJournalEntry}
  {reconciliation : CompletionReconciliation} {metadata : MetadataRequirements} {path : PathBuf}
  {left right : InventorySnapshotItem}

/-- A walk of a scope leaves such an inventory. -/
theorem WalkScope.InScope.current {w : WalkScope} {inventory : SourceInventory}
    (h : w.InScope inventory) (peerName : String) (root : PathBuf) :
    (SourceInventorySnapshot.fromInventory peerName root inventory).Current := by
  constructor
  · intro item hitem
    obtain ⟨walked, hwalked, rfl⟩ := List.mem_map.mp hitem
    obtain ⟨names, found, _, hvalid, rfl⟩ := h.named walked hwalked
    exact ⟨names, hvalid, rfl⟩
  · rw [SourceInventorySnapshot.fromInventory, List.map_map]
    exact h.nodup

theorem SourceInventorySnapshot.Current.item_eq_some (h : peerA.Current) :
    peerA.item path = some left ↔ left ∈ peerA.items ∧ left.relativePath.same path = true := by
  rw [SourceInventorySnapshot.item_eq_some h.distinct, PathBuf.same_iff]

theorem blocked_eq_false_iff :
    SyncBaseline.blocked journal reconciliation path = false ↔
      ClosedAt journal reconciliation path := by
  unfold SyncBaseline.blocked ClosedAt
  rw [Bool.or_eq_false_iff, List.any_eq_false, List.any_eq_false]
  simp

/-- The loop takes a path exactly when its items are equal and nothing is open there. -/
theorem settledPair_eq_some_iff (hA : peerA.Current) (hB : peerB.Current) :
    SyncBaseline.settledPair ⟨metadata⟩ peerA peerB journal reconciliation path =
        some (left, right) ↔
      EqualAt peerA peerB metadata path left right ∧ ClosedAt journal reconciliation path := by
  rw [← blocked_eq_false_iff]
  constructor
  · intro h
    obtain ⟨hblocked, hleft, hright, hequal⟩ := settledPair_eq_some h
    obtain ⟨hleftMem, hleftPath⟩ := hA.item_eq_some.mp hleft
    obtain ⟨hrightMem, hrightPath⟩ := hB.item_eq_some.mp hright
    obtain ⟨hleftIncluded, hrightIncluded, _⟩ := MirrorEquality.equal_iff.mp hequal
    exact ⟨⟨hleftMem, hrightMem, hleftPath, hrightPath, hleftIncluded, hrightIncluded, hequal⟩,
      hblocked⟩
  · rintro ⟨hat, hblocked⟩
    have hleft := hA.item_eq_some.mpr ⟨hat.left_mem, hat.left_path⟩
    have hright := hB.item_eq_some.mpr ⟨hat.right_mem, hat.right_path⟩
    rw [SyncBaseline.settledPair, if_neg (by simp [hblocked]), hleft, hright]
    exact if_pos hat.equal

/-- The items the baseline is made of. -/
theorem mem_settledPairs (hA : peerA.Current) (hB : peerB.Current) :
    (left, right) ∈ settledPairs peerA peerB journal reconciliation metadata ↔
      EqualAt peerA peerB metadata left.relativePath left right ∧
        ClosedAt journal reconciliation left.relativePath := by
  rw [settledPairs, List.mem_filterMap]
  constructor
  · rintro ⟨path, _, hpair⟩
    obtain ⟨hblocked, hleft, hright, hequal⟩ := settledPair_eq_some hpair
    have hpath := (SourceInventorySnapshot.item_same hleft).2
    refine (settledPair_eq_some_iff hA hB).mp ?_
    rw [SyncBaseline.settledPair, blocked_congr hpath, if_neg (by simp [hblocked]),
      peerA.item_congr hpath, peerB.item_congr hpath, hleft, hright]
    exact if_pos hequal
  · rintro hsettled
    have hpair := (settledPair_eq_some_iff hA hB).mpr hsettled
    obtain ⟨hblocked, hleft, hright, hequal⟩ := settledPair_eq_some hpair
    have hmem : left.relativePath ∈ peerA.items.map (·.relativePath) ++
        peerB.items.map (·.relativePath) :=
      List.mem_append_left _ (List.mem_map_of_mem hsettled.1.left_mem)
    obtain ⟨path, hpath, hcomponents⟩ := exists_mem_pathSet hmem
    refine ⟨path, hpath, ?_⟩
    rw [SyncBaseline.settledPair, blocked_congr hcomponents, if_neg (by simp [hblocked]),
      peerA.item_congr hcomponents, peerB.item_congr hcomponents, hleft, hright]
    exact if_pos hequal

/-- The names of an item's path lead back to it. -/
theorem SourceInventorySnapshot.Current.same_pathOf (hA : peerA.Current) (hmem : left ∈ peerA.items)
    (hpath : path.components = left.relativePath.components) :
    (pathOf (namesOf path)).components = path.components := by
  obtain ⟨names, hvalid, hnames⟩ := hA.named left hmem
  rw [namesOf_congr (hpath.trans hnames), namesOf_pathOf hvalid, hpath, hnames]

/-- Of some items of a peer, the one at a path is found. -/
theorem SourceInventorySnapshot.Current.getByPath_eq (hA : peerA.Current)
    (left : InventorySnapshotItem) {items : List InventorySnapshotItem} (hitems : ∀ item ∈ items, item ∈ peerA.items)
    (hmem : left ∈ items) (hpath : left.relativePath.components = path.components) :
    getByPath InventorySnapshotItem.relativePath items path = some left := by
  cases hfound : getByPath InventorySnapshotItem.relativePath items path with
  | none => exact absurd hpath (getByPath_eq_none.mp hfound left hmem)
  | some found =>
      obtain ⟨hfoundMem, hfoundPath⟩ := getByPath_mem hfound
      rw [List.inj_on_of_nodup_map hA.distinct (hitems left hmem) (hitems found hfoundMem)
        (hpath.trans hfoundPath.symm)]

/-! ## What is recorded -/

variable {profileName : String} {item : SyncBaselineItem}

theorem mem_fromInventories
    (h : item ∈ (SyncBaseline.fromInventories profileName peerA peerB metadata).items) :
    ∃ path, (path ∈ peerA.includedItems.map (·.relativePath) ∨
        path ∈ peerB.includedItems.map (·.relativePath)) ∧
      item = SyncBaseline.entryOf peerA peerB path := by
  obtain ⟨path, hpath, rfl⟩ := List.mem_map.mp (mem_of_mem_overlay_nil h)
  exact ⟨path, List.mem_append.mp (mem_pathSet hpath), rfl⟩

theorem exists_mem_fromInventories (h : left ∈ peerA.includedItems) :
    ∃ item ∈ (SyncBaseline.fromInventories profileName peerA peerB metadata).items,
      ∃ path, path.components = left.relativePath.components ∧
        item.relativePath = namesOf path := by
  have hmem : left.relativePath ∈ peerA.includedItems.map (·.relativePath) ++
      peerB.includedItems.map (·.relativePath) :=
    List.mem_append_left _ (List.mem_map_of_mem h)
  obtain ⟨path, hpath, hcomponents⟩ := exists_mem_pathSet hmem
  obtain ⟨item, hitem, hname⟩ := exists_mem_overlay_nil SyncBaselineItem.relativePath
    (List.mem_map_of_mem (f := SyncBaseline.entryOf peerA peerB) hpath)
  exact ⟨item, hitem, path, hcomponents, hname⟩

theorem fromReconciledInventories_eq :
    SyncBaseline.fromReconciledInventories profileName peerA peerB journal reconciliation metadata =
      .fromInventories profileName
        ⟨peerA.peerName, peerA.root,
          (settledPairs peerA peerB journal reconciliation metadata).map Prod.fst⟩
        ⟨peerB.peerName, peerB.root,
          (settledPairs peerA peerB journal reconciliation metadata).map Prod.snd⟩ metadata :=
  rfl

/-- **An entry** holds the states of two equal items, where nothing is open. -/
theorem mem_reconciled (hA : peerA.Current) (hB : peerB.Current)
    (h : item ∈ (SyncBaseline.fromReconciledInventories profileName peerA peerB journal
      reconciliation metadata).items) :
    ∃ left right, EqualAt peerA peerB metadata left.relativePath left right ∧
      ClosedAt journal reconciliation left.relativePath ∧
      (pathOf item.relativePath).same left.relativePath = true ∧
      item.peerA = some (.fromSnapshot left) ∧ item.peerB = some (.fromSnapshot right) := by
  rw [fromReconciledInventories_eq] at h
  obtain ⟨path, hside, rfl⟩ := mem_fromInventories h
  have hpair : ∃ left right, (left, right) ∈
      settledPairs peerA peerB journal reconciliation metadata ∧
        (path = left.relativePath ∨ path = right.relativePath) := by
    rcases hside with hside | hside
    · obtain ⟨left, hleft, rfl⟩ := List.mem_map.mp hside
      obtain ⟨⟨_, right⟩, hpair, rfl⟩ := List.mem_map.mp (List.mem_of_mem_filter hleft)
      exact ⟨_, right, hpair, .inl rfl⟩
    · obtain ⟨right, hright, rfl⟩ := List.mem_map.mp hside
      obtain ⟨⟨left, _⟩, hpair, rfl⟩ := List.mem_map.mp (List.mem_of_mem_filter hright)
      exact ⟨left, _, hpair, .inr rfl⟩
  obtain ⟨left, right, hpair, hpath⟩ := hpair
  obtain ⟨hat, hclosed⟩ := (mem_settledPairs hA hB).mp hpair
  have hright := PathBuf.same_iff.mp hat.right_path
  have hcomponents : path.components = left.relativePath.components := by
    rcases hpath with rfl | rfl
    · rfl
    · exact hright
  refine ⟨left, right, hat, hclosed, ?_, ?_, ?_⟩
  · rw [PathBuf.same_iff, ← hcomponents]
    exact hA.same_pathOf hat.left_mem hcomponents
  · unfold SyncBaseline.entryOf
    dsimp only
    rw [hA.getByPath_eq left ?_ ?_ hcomponents.symm]
    · rfl
    · intro other hother
      obtain ⟨⟨first, second⟩, hpairs, rfl⟩ := List.mem_map.mp (List.mem_of_mem_filter hother)
      exact ((mem_settledPairs hA hB).mp hpairs).1.left_mem
    · exact List.mem_filter.mpr ⟨List.mem_map.mpr ⟨_, hpair, rfl⟩, by simp [hat.left_included]⟩
  · unfold SyncBaseline.entryOf
    dsimp only
    rw [hB.getByPath_eq right ?_ ?_ (hright.trans hcomponents.symm)]
    · rfl
    · intro other hother
      obtain ⟨⟨first, second⟩, hpairs, rfl⟩ := List.mem_map.mp (List.mem_of_mem_filter hother)
      exact ((mem_settledPairs hA hB).mp hpairs).1.right_mem
    · exact List.mem_filter.mpr ⟨List.mem_map.mpr ⟨_, hpair, rfl⟩, by simp [hat.right_included]⟩

/-- Nothing that settled is left out. -/
theorem exists_mem_reconciled (profileName : String) (hA : peerA.Current) (hB : peerB.Current)
    (hat : EqualAt peerA peerB metadata left.relativePath left right)
    (hclosed : ClosedAt journal reconciliation left.relativePath) :
    ∃ item ∈ (SyncBaseline.fromReconciledInventories profileName peerA peerB journal
      reconciliation metadata).items, (pathOf item.relativePath).same left.relativePath = true := by
  have hmem := (mem_settledPairs hA hB).mpr ⟨hat, hclosed⟩
  have hincluded : left ∈ SourceInventorySnapshot.includedItems ⟨peerA.peerName, peerA.root,
      (settledPairs peerA peerB journal reconciliation metadata).map Prod.fst⟩ :=
    List.mem_filter.mpr ⟨List.mem_map.mpr ⟨_, hmem, rfl⟩, by simp [hat.left_included]⟩
  rw [fromReconciledInventories_eq]
  obtain ⟨item, hitem, path, hcomponents, hname⟩ := exists_mem_fromInventories hincluded
  refine ⟨item, hitem, ?_⟩
  rw [PathBuf.same_iff, hname]
  exact (hA.same_pathOf hat.left_mem hcomponents).trans hcomponents

/-- **A path is recorded** exactly when it is settled. -/
theorem recorded_iff (hA : peerA.Current) (hB : peerB.Current) :
    (∃ item ∈ (SyncBaseline.fromReconciledInventories profileName peerA peerB journal
        reconciliation metadata).items, (pathOf item.relativePath).same path = true) ↔
      (∃ left right, EqualAt peerA peerB metadata path left right) ∧
        ClosedAt journal reconciliation path := by
  have hcongr {q : PathBuf} (h : q.components = path.components) :
      ∀ r : PathBuf, r.same q = r.same path := by
    intro r
    rw [Bool.eq_iff_iff, PathBuf.same_iff, PathBuf.same_iff, h]
  constructor
  · rintro ⟨item, hitem, hpath⟩
    obtain ⟨left, right, hat, hclosed, hleft, _, _⟩ := mem_reconciled hA hB hitem
    have hsame := hcongr ((PathBuf.same_iff.mp hleft).symm.trans (PathBuf.same_iff.mp hpath))
    refine ⟨⟨left, right, { hat with left_path := ?_, right_path := ?_ }⟩, ?_⟩
    · rw [← hsame]
      exact hat.left_path
    · rw [← hsame]
      exact hat.right_path
    · unfold ClosedAt at hclosed ⊢
      simpa only [hsame] using hclosed
  · rintro ⟨⟨left, right, hat⟩, hclosed⟩
    have hleft := PathBuf.same_iff.mp hat.left_path
    have hsame := hcongr hleft
    have hat' : EqualAt peerA peerB metadata left.relativePath left right :=
      { hat with
        left_path := PathBuf.same_iff.mpr rfl
        right_path := (hsame _).trans hat.right_path }
    have hclosed' : ClosedAt journal reconciliation left.relativePath := by
      unfold ClosedAt at hclosed ⊢
      simpa only [hsame] using hclosed
    obtain ⟨item, hitem, hpath⟩ := exists_mem_reconciled profileName hA hB
      hat' hclosed'
    exact ⟨item, hitem, (hsame _).symm.trans hpath⟩

/-! ## What is kept -/

/-- The sizes of the inventories are sizes of files. -/
theorem readable_reconciled (hA : peerA.Current) (hB : peerB.Current)
    (hsizeA : ∀ item ∈ peerA.items, FitsI64 item.size)
    (hsizeB : ∀ item ∈ peerB.items, FitsI64 item.size) :
    (SyncBaseline.fromReconciledInventories profileName peerA peerB journal reconciliation
      metadata).Readable := by
  intro item hitem
  obtain ⟨left, right, hat, _, _, hleft, hright⟩ := mem_reconciled hA hB hitem
  rw [SyncBaselineItem.Fits, hleft, hright]
  exact ⟨fitsOpt_some.mpr (hsizeA left hat.left_mem), fitsOpt_some.mpr (hsizeB right hat.right_mem)⟩

end

namespace BaselineTable

variable {table : BaselineTable} {b : SyncBaseline}

theorem updateMirrorBaseline_new (h : table[b.profileName]? = none) :
    table.updateMirrorBaseline b = .ok (table.write b) := by
  refine updateMirrorBaseline_eq_ok.mpr ⟨none, ?_, rfl⟩
  unfold loadMirrorBaseline
  rw [h]

theorem Holds.readable_of_load {existing : Option SyncBaseline} (h : table.Holds b)
    (hload : table.loadMirrorBaseline b.profileName = .ok existing) : b.Readable := by
  unfold loadMirrorBaseline at hload
  rw [h] at hload
  obtain ⟨_, hdecode, _⟩ := map_eq_ok.mp hload
  exact (decode_ofBaseline.mp hdecode).1

theorem Holds.read (h : table.Holds b) (hreadable : b.Readable) :
    table.readMirrorBaseline b.profileName = .ok (some b) := by
  rw [readMirrorBaseline, h.load hreadable, ok_bind]
  dsimp only
  rw [MetadataColumns.decode_ofRequirements, ok_bind]
  rfl

end BaselineTable

/-- **The baseline records what was settled and keeps it.** The paths of a reconciled
baseline are those with equal items and nothing open; stored for a profile without one, it
is read back, and compares and proposes as before. -/
theorem baseline_records_settled {peerA peerB : SourceInventorySnapshot} (profileName : String)
    (journal : List ActionJournalEntry) (reconciliation : CompletionReconciliation)
    (metadata : MetadataRequirements) (hA : peerA.Current) (hB : peerB.Current) :
    let baseline := SyncBaseline.fromReconciledInventories profileName peerA peerB journal
      reconciliation metadata
    (∀ path : PathBuf,
      (∃ item ∈ baseline.items, (pathOf item.relativePath).same path = true) ↔
        (∃ left right, EqualAt peerA peerB metadata path left right) ∧
          ClosedAt journal reconciliation path) ∧
    ((∀ item ∈ peerA.items, FitsI64 item.size) → (∀ item ∈ peerB.items, FitsI64 item.size) →
      ∀ table : BaselineTable, table[profileName]? = none →
        ∃ table' loaded, table.updateMirrorBaseline baseline = .ok table' ∧
          table'.readMirrorBaseline profileName = .ok (some loaded) ∧
          ∀ currentA currentB, loaded.compare currentA currentB =
              baseline.compare currentA currentB ∧
            loaded.deletionCandidates currentA currentB =
              baseline.deletionCandidates currentA currentB) := by
  intro baseline
  refine ⟨fun path => recorded_iff hA hB, ?_⟩
  intro hsizeA hsizeB table hnone
  have hreadable : baseline.Readable := readable_reconciled hA hB hsizeA hsizeB
  refine ⟨table.write baseline, baseline, BaselineTable.updateMirrorBaseline_new hnone, ?_, ?_⟩
  · exact (BaselineTable.holds_write table baseline).read hreadable
  · intro currentA currentB
    exact ⟨rfl, rfl⟩

/-! ### A file, and one that is too large -/

/-- A peer with the file `x` of the given size. -/
def peerWithFile (peerName : String) (size : UInt64) : SourceInventorySnapshot where
  peerName
  root := ⟨[47, 97]⟩
  items := [{ InventorySnapshotItem.fromItem aloneItem with size }]

theorem peerWithFile_current (peerName : String) (size : UInt64) :
    (peerWithFile peerName size).Current where
  named := by
    intro item hitem
    obtain rfl := List.mem_singleton.mp hitem
    exact ⟨[[120]], by decide, rfl⟩
  distinct := List.nodup_singleton _

/-- What both peers have is recorded, and read back. -/
theorem baseline_records_settled_file :
    let baseline := SyncBaseline.fromReconciledInventories "Documents" (peerWithFile "Laptop" 5)
      (peerWithFile "Server" 5) [] ⟨.notApplicable, []⟩ SyncOptions.default.metadata
    (∃ item ∈ baseline.items, (pathOf item.relativePath).same ⟨[120]⟩ = true) ∧
      ∃ table' loaded, BaselineTable.updateMirrorBaseline ∅ baseline = .ok table' ∧
        table'.readMirrorBaseline "Documents" = .ok (some loaded) := by
  obtain ⟨hrecorded, hkept⟩ := baseline_records_settled "Documents" [] ⟨.notApplicable, []⟩
    SyncOptions.default.metadata (peerWithFile_current "Laptop" 5)
    (peerWithFile_current "Server" 5)
  constructor
  · refine (hrecorded ⟨[120]⟩).mpr ⟨⟨_, _, ⟨List.mem_singleton_self _, List.mem_singleton_self _,
      by decide +kernel, by decide +kernel, rfl, rfl, by decide +kernel⟩⟩, ?_⟩
    simp [ClosedAt]
  · obtain ⟨table', loaded, hupdate, hread, _⟩ :=
      hkept (by decide +kernel) (by decide +kernel) ∅ (by simp)
    exact ⟨table', loaded, hupdate, hread⟩

/-- A size of 2⁶³ is stored, and not read. -/
theorem baseline_size_refused :
    ¬ ∀ (profileName : String) (peerA peerB : SourceInventorySnapshot)
      (journal : List ActionJournalEntry) (reconciliation : CompletionReconciliation)
      (metadata : MetadataRequirements), peerA.Current → peerB.Current →
      ∀ table : BaselineTable, table[profileName]? = none →
        ∃ table' loaded, table.updateMirrorBaseline (.fromReconciledInventories profileName peerA
            peerB journal reconciliation metadata) = .ok table' ∧
          table'.readMirrorBaseline profileName = .ok (some loaded) := by
  intro h
  obtain ⟨table', loaded, hupdate, hread⟩ := h "Documents" _ _ [] ⟨.notApplicable, []⟩
    SyncOptions.default.metadata (peerWithFile_current "Laptop" 9223372036854775808)
    (peerWithFile_current "Server" 9223372036854775808) ∅ (by simp)
  rw [BaselineTable.updateMirrorBaseline_new (by simp)] at hupdate
  cases hupdate
  obtain ⟨existing, hload, _⟩ := bind_eq_ok.mp hread
  exact absurd ((BaselineTable.holds_write ∅ _).readable_of_load hload) (by decide +kernel)

end SyncPlus
