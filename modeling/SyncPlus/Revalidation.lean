import SyncPlus.BaselineComparisons
import SyncPlus.Confirmation
import SyncPlus.ResolutionRuns
import SyncPlus.ReviewRows

/-!
# Revalidated runs

A run is prepared by reviewing its decisions again. When nothing has changed
since, every check of the revalidation passes up to the last: the review is asked
about the path of each decision instead of its row. So what was reviewed is
confirmed exactly when all of its decisions are about same-path rows
(`revalidation_iff`).
-/

namespace SyncPlus

/-! ## Inventories that agree -/

/-- What reviews and baselines look at in an item. -/
def InventorySnapshotItem.view (item : InventorySnapshotItem) :
    AnalysisOutcome × ItemType × UInt64 × Option Int64 × Option UInt32 ×
      Option (List Component) × Option Sha256 :=
  (item.outcome, item.itemType, item.size, item.modifiedAtUnixNanos, item.executablePermissions,
    item.symlinkTarget.map PathBuf.components, item.contentFingerprint)

/-- The inventories have the same at every path. -/
def SourceInventorySnapshot.Agrees (snapshot other : SourceInventorySnapshot) : Prop :=
  ∀ p, (snapshot.item p).map InventorySnapshotItem.view =
    (other.item p).map InventorySnapshotItem.view

section

variable {item item' left left' right right' : InventorySnapshotItem}
  {metadata : MetadataRequirements}

theorem InventorySnapshotItem.compared_of_view (h : item.view = item'.view) :
    item.parts.compared metadata = item'.parts.compared metadata ∧
      (item.parts.Comparable metadata ↔ item'.parts.Comparable metadata) := by
  simp only [view, Prod.mk.injEq] at h
  obtain ⟨-, htype, hsize, htime, hpermissions, htarget, hhash⟩ := h
  unfold MirrorParts.compared MirrorParts.Comparable
  simp only [InventorySnapshotItem.parts, htype, hsize, htime, hpermissions, htarget, hhash]
  exact ⟨rfl, trivial⟩

theorem equalParts_of_view {parts : MirrorParts} (h : item.view = item'.view) :
    equalParts metadata parts item.parts = equalParts metadata parts item'.parts := by
  rw [Bool.eq_iff_iff, equalParts_iff, equalParts_iff,
    (InventorySnapshotItem.compared_of_view h).1]

theorem reviewEqual_of_view (hleft : left.view = left'.view) (hright : right.view = right'.view) :
    reviewEqual metadata left right = reviewEqual metadata left' right' := by
  unfold reviewEqual
  rw [equalParts_of_view hright, equalParts_comm, equalParts_of_view hleft, equalParts_comm]

/-- Items of one state are frozen as items that agree. -/
theorem InventorySnapshotItem.view_fromItem {item item' : InventoryItem}
    (h : item.state = item'.state) :
    (InventorySnapshotItem.fromItem item).view = (InventorySnapshotItem.fromItem item').view := by
  simp only [InventoryItem.state, InventoryItem.value, revisionValue, Prod.mk.injEq,
    RevisionValue.mk.injEq] at h
  obtain ⟨⟨htype, hsize, htime, hreadonly, hpermissions, htarget, houtcome⟩, hhash⟩ := h
  simp only [InventorySnapshotItem.view, InventorySnapshotItem.fromItem,
    InventorySnapshotItem.executablePermissions, htype, hsize, htime, hpermissions, htarget,
    houtcome, hhash]

end

namespace SourceInventorySnapshot.Agrees

variable {snapshot other : SourceInventorySnapshot} {p : PathBuf} {item : InventorySnapshotItem}

theorem symm (h : snapshot.Agrees other) : other.Agrees snapshot := fun p => (h p).symm

theorem item_eq_some (h : snapshot.Agrees other) (hitem : snapshot.item p = some item) :
    ∃ item', other.item p = some item' ∧ item.view = item'.view := by
  have hview := h p
  rw [hitem, Option.map_some] at hview
  obtain ⟨item', hitem', hsame⟩ := Option.map_eq_some_iff.mp hview.symm
  exact ⟨item', hitem', hsame.symm⟩

theorem includedAt_eq_some (h : snapshot.Agrees other) (hitem : snapshot.includedAt p = some item) :
    ∃ item', other.includedAt p = some item' ∧ item.view = item'.view := by
  obtain ⟨hfound, hincluded⟩ := SourceInventorySnapshot.includedAt_eq_some.mp hitem
  obtain ⟨item', hfound', hview⟩ := h.item_eq_some hfound
  have houtcome : item.outcome = item'.outcome := congrArg Prod.fst hview
  exact ⟨item', SourceInventorySnapshot.includedAt_eq_some.mpr
    ⟨hfound', houtcome.symm.trans hincluded⟩, hview⟩

theorem includedAt (h : snapshot.Agrees other) (p : PathBuf) :
    (snapshot.includedAt p).map InventorySnapshotItem.view =
      (other.includedAt p).map InventorySnapshotItem.view := by
  cases hitem : snapshot.includedAt p with
  | some item =>
      obtain ⟨item', hitem', hview⟩ := h.includedAt_eq_some hitem
      rw [hitem', Option.map_some, Option.map_some, hview]
  | none =>
      cases hitem' : other.includedAt p with
      | none => rfl
      | some item' =>
          obtain ⟨item, hfound, -⟩ := h.symm.includedAt_eq_some hitem'
          rw [hitem] at hfound
          cases hfound

theorem fileAt (h : snapshot.Agrees other)
    (hnodup : (snapshot.items.map (·.relativePath.components)).Nodup) {hash : Sha256}
    (hfile : FileAt snapshot p hash) : FileAt other p hash := by
  obtain ⟨item, hitem, htype, hhash, hpath⟩ := hfile
  obtain ⟨hmem, hincluded⟩ := List.mem_filter.mp hitem
  obtain ⟨item', hfound, hview⟩ := h.includedAt_eq_some
    (SourceInventorySnapshot.includedAt_eq_some.mpr
      ⟨(SourceInventorySnapshot.item_eq_some hnodup).mpr ⟨hmem, hpath⟩,
        decide_eq_true_eq.mp hincluded⟩)
  obtain ⟨hitem', hincluded'⟩ := SourceInventorySnapshot.includedAt_eq_some.mp hfound
  obtain ⟨hmem', hpath'⟩ := SourceInventorySnapshot.item_same hitem'
  simp only [InventorySnapshotItem.view, Prod.mk.injEq] at hview
  obtain ⟨-, htype', -, -, -, -, hhash'⟩ := hview
  exact ⟨item', List.mem_filter.mpr ⟨hmem', decide_eq_true hincluded'⟩, htype' ▸ htype,
    hhash' ▸ hhash, hpath'⟩

end SourceInventorySnapshot.Agrees

/-! ## The review -/

section

variable {peerA peerB peerA' peerB' : SourceInventorySnapshot} {metadata : MetadataRequirements}

/-- A path that an included item of either peer has. -/
theorem mem_reviewedPaths {snapshot : SourceInventorySnapshot} {p : PathBuf}
    (hnodup : (snapshot.items.map (·.relativePath.components)).Nodup) :
    (∃ q ∈ snapshot.includedItems.map (·.relativePath), q.components = p.components) ↔
      ∃ item, snapshot.includedAt p = some item := by
  simp only [List.mem_map, exists_exists_and_eq_and]
  refine exists_congr fun item => ?_
  rw [← SourceInventorySnapshot.getByPath_includedItems hnodup,
    getByPath_eq_some (SourceInventorySnapshot.nodup_includedItems hnodup)]

/-- Inventories that agree have rows of the same keys. -/
theorem exists_key (hA : (peerA.items.map (·.relativePath.components)).Nodup)
    (hB : (peerB.items.map (·.relativePath.components)).Nodup)
    (hA' : (peerA'.items.map (·.relativePath.components)).Nodup)
    (hB' : (peerB'.items.map (·.relativePath.components)).Nodup)
    (hagreesA : peerA.Agrees peerA') (hagreesB : peerB.Agrees peerB') {key : ConflictEntryKey}
    (h : ∃ entry ∈ (ConflictReview.fromInventories peerA peerB metadata).entries,
      entry.key.same key = true) :
    ∃ entry ∈ (ConflictReview.fromInventories peerA' peerB' metadata).entries,
      entry.key.same key = true := by
  obtain ⟨entry, hentry, hsame⟩ := h
  suffices hrow : ∃ entry' ∈ (ConflictReview.fromInventories peerA' peerB' metadata).entries,
      entry'.key.same entry.key = true by
    obtain ⟨entry', hentry', hsame'⟩ := hrow
    exact ⟨entry', hentry', ConflictEntryKey.same_trans hsame' hsame⟩
  rcases List.mem_append.mp hentry with hentry | hentry
  · obtain ⟨p, hp, hentry⟩ := List.mem_filterMap.mp hentry
    split at hentry
    · rename_i left right hleft hright
      split at hentry
      · cases hentry
      · rename_i hunequal
        cases hentry
        obtain ⟨left', hleft', hviewLeft⟩ := hagreesA.item_eq_some hleft
        obtain ⟨right', hright', hviewRight⟩ := hagreesB.item_eq_some hright
        obtain ⟨q, hq, hpath⟩ : ∃ q ∈ pathSet (peerA'.includedItems.map (·.relativePath) ++
            peerB'.includedItems.map (·.relativePath)), q.components = p.components := by
          refine exists_mem_pathSet_iff.mpr ?_
          rcases List.mem_append.mp (mem_pathSet hp) with hp | hp
          · obtain ⟨item, hitem⟩ := (mem_reviewedPaths hA).mp ⟨p, hp, rfl⟩
            obtain ⟨item', hitem', -⟩ := hagreesA.includedAt_eq_some hitem
            obtain ⟨q, hq, hpath⟩ := (mem_reviewedPaths hA').mpr ⟨item', hitem'⟩
            exact ⟨q, List.mem_append_left _ hq, hpath⟩
          · obtain ⟨item, hitem⟩ := (mem_reviewedPaths hB).mp ⟨p, hp, rfl⟩
            obtain ⟨item', hitem', -⟩ := hagreesB.includedAt_eq_some hitem
            obtain ⟨q, hq, hpath⟩ := (mem_reviewedPaths hB').mpr ⟨item', hitem'⟩
            exact ⟨q, List.mem_append_right _ hq, hpath⟩
        refine ⟨ConflictReview.samePathEntry q, List.mem_append_left _
          (List.mem_filterMap.mpr ⟨q, hq, ?_⟩),
          ConflictEntryKey.same_iff.mpr ⟨rfl, hpath, rfl, rfl⟩⟩
        rw [peerA'.item_congr hpath, peerB'.item_congr hpath, hleft', hright']
        dsimp only
        rw [← reviewEqual_of_view hviewLeft hviewRight, if_neg hunequal]
    · cases hentry
  · change entry ∈ ConflictReview.duplicateEntries (sortedLocations peerA peerB) at hentry
    rw [duplicateEntries_eq] at hentry
    obtain ⟨pair, hpair, hrow⟩ := List.mem_filterMap.mp hentry
    obtain ⟨⟨hash, hfile, hfile'⟩, hsides⟩ := sharesContent_of_row hA hB hpair hrow
    obtain ⟨-, hne, rfl⟩ := rowOf_eq_some.mp hrow
    have hagrees : ∀ side p, FileAt (sideSnapshot peerA peerB side) p hash →
        FileAt (sideSnapshot peerA' peerB' side) p hash := by
      intro side p
      cases side with
      | peerA => exact hagreesA.fileAt hA
      | peerB => exact hagreesB.fileAt hB
    have hordered : ConflictReview.sideRank pair.1.2.1 < ConflictReview.sideRank pair.2.2.1 ∨
        pair.1.2.1 = pair.2.2.1 ∧
          compare pair.1.2.2.components pair.2.2.2.components = .lt := by
      refine hsides.imp_left fun ⟨hfirst, hsecond⟩ => ?_
      rw [hfirst, hsecond]
      decide
    obtain ⟨pair', hpair', -, -, p, q, hrow', hp, hq⟩ := exists_row hA' hB' hne hordered
      ⟨hash, hagrees _ _ hfile, hagrees _ _ hfile'⟩
    refine ⟨_, List.mem_append_right _ ?_, same_row.mpr ⟨hp, hq⟩⟩
    change _ ∈ ConflictReview.duplicateEntries (sortedLocations peerA' peerB')
    rw [duplicateEntries_eq]
    exact List.mem_filterMap.mpr ⟨pair', hpair', hrow'⟩

/-! ## The baseline -/

variable {baseline : SyncBaseline} {p : PathBuf}

theorem compareSide_of_view {state : Option SyncBaselineItemState} {equality : MirrorEquality}
    {current current' : Option InventorySnapshotItem}
    (h : current.map InventorySnapshotItem.view = current'.map InventorySnapshotItem.view) :
    compareSide state current equality = compareSide state current' equality := by
  cases current with
  | none =>
      cases current' with
      | none => rfl
      | some item' => cases h
  | some item =>
      cases current' with
      | none => cases h
      | some item' =>
          cases state with
          | none => rfl
          | some state =>
              have hequal : state.equalInventory item equality =
                  state.equalInventory item' equality :=
                equalParts_of_view (Option.some.inj h)
              rw [compareSide, compareSide, hequal]

/-- Inventories that agree compare alike with a baseline. -/
theorem compare_of_agrees (hA : (peerA.items.map (·.relativePath.components)).Nodup)
    (hB : (peerB.items.map (·.relativePath.components)).Nodup)
    (hA' : (peerA'.items.map (·.relativePath.components)).Nodup)
    (hB' : (peerB'.items.map (·.relativePath.components)).Nodup)
    (hagreesA : peerA.Agrees peerA') (hagreesB : peerB.Agrees peerB')
    {statuses : SyncBaselineItemStatus × SyncBaselineItemStatus} :
    (∃ comparison ∈ baseline.compare peerA peerB,
        comparison.relativePath.components = p.components ∧
          (comparison.peerA, comparison.peerB) = statuses) ↔
      ∃ comparison ∈ baseline.compare peerA' peerB',
        comparison.relativePath.components = p.components ∧
          (comparison.peerA, comparison.peerB) = statuses := by
  have hsome : ∀ {snapshot other : SourceInventorySnapshot}, snapshot.Agrees other →
      (snapshot.includedAt p).isSome = (other.includedAt p).isSome := by
    intro snapshot other h
    have hview := congrArg Option.isSome (h.includedAt p)
    rwa [Option.isSome_map, Option.isSome_map] at hview
  rw [SyncBaseline.mem_compare hA hB, SyncBaseline.mem_compare hA' hB']
  unfold SyncBaseline.Mentions SyncBaseline.statusesAt
  rw [hsome hagreesA, hsome hagreesB, compareSide_of_view (hagreesA.includedAt p),
    compareSide_of_view (hagreesB.includedAt p)]

end

/-! ## Analyses of the same peers -/

namespace FreshAnalysis

variable {fs fs' : FileSystem} {profile currentProfile : SyncProfile}
  {analysis fresh : FreshAnalysis}

theorem nodup_sourceSnapshot (h : analyze fs profile = .ok analysis) :
    (analysis.sourceSnapshot.items.map (·.relativePath.components)).Nodup := by
  obtain ⟨-, -, -, hsource, -⟩ := analyze_eq_ok h
  unfold sourceSnapshot SourceInventorySnapshot.fromInventory
  rw [List.map_map]
  exact (WalkScope.collectInventory_inScope hsource).nodup

theorem nodup_destinationSnapshot (h : analyze fs profile = .ok analysis) :
    (analysis.destinationSnapshot.items.map (·.relativePath.components)).Nodup := by
  obtain ⟨-, -, -, -, hdestination⟩ := analyze_eq_ok h
  have hnodup := (WalkScope.collectInventory_inScope hdestination).nodup
  unfold destinationSnapshot SourceInventorySnapshot.fromInventory
  split <;>
  · rw [List.map_map]
    exact hnodup

/-- Inventories of one state at every path are frozen as inventories that agree. -/
theorem agrees_of_sameAt {inventory other : SourceInventory} {w w' : WalkScope}
    (hscope : w.InScope inventory) (hscope' : w'.InScope other)
    (h : ∀ p, SameAt inventory other p) {snapshot snapshot' : SourceInventorySnapshot}
    (hitem : ∀ p, snapshot.item p = (inventory.item p).map .fromItem)
    (hitem' : ∀ p, snapshot'.item p = (other.item p).map .fromItem) :
    snapshot.Agrees snapshot' := by
  intro p
  have hstate := h p
  unfold SameAt sourceByPath at hstate
  rw [hscope.getByPath_eq, hscope'.getByPath_eq] at hstate
  rw [hitem, hitem']
  cases hfound : inventory.item p with
  | none =>
      rw [hfound] at hstate
      rw [Option.map_eq_none_iff.mp hstate.symm]
  | some item =>
      rw [hfound, Option.map_some] at hstate
      obtain ⟨item', hfound', hsame⟩ := Option.map_eq_some_iff.mp hstate.symm
      rw [hfound', Option.map_some, Option.map_some, Option.map_some, Option.map_some,
        InventorySnapshotItem.view_fromItem hsame]

theorem item_sourceSnapshot (analysis : FreshAnalysis) (p : PathBuf) :
    analysis.sourceSnapshot.item p = (analysis.sourceInventory.item p).map .fromItem := by
  unfold sourceSnapshot
  exact SourceInventorySnapshot.item_fromInventory _ _ _ _

theorem item_destinationSnapshot (analysis : FreshAnalysis) (p : PathBuf) :
    analysis.destinationSnapshot.item p =
      (analysis.destinationInventory.item p).map .fromItem := by
  unfold destinationSnapshot
  split <;> exact SourceInventorySnapshot.item_fromInventory _ _ _ _

theorem agrees_of_freshAt (h : analyze fs profile = .ok analysis)
    (h' : analyze fs' currentProfile = .ok fresh) (hsame : ∀ p, analysis.FreshAt fresh p) :
    analysis.sourceSnapshot.Agrees fresh.sourceSnapshot ∧
      analysis.destinationSnapshot.Agrees fresh.destinationSnapshot := by
  obtain ⟨-, -, -, hsource, hdestination⟩ := analyze_eq_ok h
  obtain ⟨-, -, -, hsource', hdestination'⟩ := analyze_eq_ok h'
  exact ⟨agrees_of_sameAt (WalkScope.collectInventory_inScope hsource)
      (WalkScope.collectInventory_inScope hsource') (fun p => (hsame p).1)
      analysis.item_sourceSnapshot fresh.item_sourceSnapshot,
    agrees_of_sameAt (WalkScope.collectInventory_inScope hdestination)
      (WalkScope.collectInventory_inScope hdestination') (fun p => (hsame p).2)
      analysis.item_destinationSnapshot fresh.item_destinationSnapshot⟩

/-- No path has changed between the two. -/
theorem changedPaths_of_freshAt (hsame : ∀ p, analysis.FreshAt fresh p) :
    analysis.revision.changedPaths fresh.revision = [] := by
  refine List.eq_nil_iff_forall_not_mem.mpr fun p hp => ?_
  rcases List.mem_append.mp (mem_pathSet hp) with hp | hp
  · exact mem_changedPathsFor.mp ⟨p, hp, rfl⟩ (hsame p).1.sameButContent
  · exact mem_changedPathsFor.mp ⟨p, hp, rfl⟩ (hsame p).2.sameButContent

end FreshAnalysis

/-! ## The run -/

namespace ReviewedBaseline

variable {baseline : SyncBaseline} {paths : List PathBuf} {analysis fresh : FreshAnalysis}
  {p : PathBuf}

theorem statusAt_eq_some {comparisons : List SyncBaselineComparison}
    (hnodup : (comparisons.map (·.relativePath.components)).Nodup)
    {statuses : SyncBaselineItemStatus × SyncBaselineItemStatus} :
    statusAt comparisons p = some statuses ↔
      ∃ comparison ∈ comparisons, comparison.relativePath.components = p.components ∧
        (comparison.peerA, comparison.peerB) = statuses := by
  unfold statusAt
  rw [Option.map_eq_some_iff]
  simp only [getByPath_eq_some hnodup, and_assoc]

/-- At a reviewed path nothing is filtered out. -/
theorem statusAt_comparisonsAt (hp : p ∈ paths) :
    statusAt (comparisonsAt baseline paths analysis) p =
      statusAt (baseline.compare analysis.sourceSnapshot analysis.destinationSnapshot) p := by
  have hnodup : ((comparisonsAt baseline paths analysis).map (·.relativePath.components)).Nodup :=
    SyncBaseline.nodup_compare.sublist (List.filter_sublist.map _)
  refine Option.ext fun statuses => ?_
  rw [statusAt_eq_some hnodup, statusAt_eq_some SyncBaseline.nodup_compare]
  refine exists_congr fun comparison => ?_
  unfold comparisonsAt
  rw [List.mem_filter, List.any_eq_true, and_assoc]
  refine and_congr_right fun _ => ⟨fun h => h.2, fun h => ⟨⟨p, hp, ?_⟩, h⟩⟩
  exact PathBuf.same_iff.mpr h.1.symm

/-- A baseline that was captured has not changed for an analysis of the same peers. -/
theorem changedPaths_capture {fs fs' : FileSystem} {profile currentProfile : SyncProfile}
    (h : FreshAnalysis.analyze fs profile = .ok analysis)
    (h' : FreshAnalysis.analyze fs' currentProfile = .ok fresh)
    (hsame : ∀ p, analysis.FreshAt fresh p) :
    (capture baseline paths analysis).changedPaths baseline fresh = [] := by
  obtain ⟨hagreesA, hagreesB⟩ := FreshAnalysis.agrees_of_freshAt h h' hsame
  refine List.eq_nil_iff_forall_not_mem.mpr fun p hp => ?_
  obtain ⟨⟨q, item⟩, hq, rfl⟩ := List.mem_map.mp (mem_pathSet hp)
  obtain ⟨hmem, hchanged⟩ := List.mem_filter.mp hq
  obtain ⟨path, hpath, heq⟩ := List.mem_map.mp hmem
  cases heq
  have hpaths : (capture baseline paths analysis).items.map Prod.fst = paths := by
    unfold capture
    rw [List.map_map]
    exact List.map_id' _
  have hstatus : statusAt (capture baseline paths analysis).comparisons q =
      statusAt (comparisonsAt baseline ((capture baseline paths analysis).items.map Prod.fst)
        fresh) q := by
    rw [hpaths, statusAt_comparisonsAt hpath]
    refine (statusAt_comparisonsAt hpath).trans (Option.ext fun statuses => ?_)
    rw [statusAt_eq_some SyncBaseline.nodup_compare, statusAt_eq_some SyncBaseline.nodup_compare]
    exact compare_of_agrees (FreshAnalysis.nodup_sourceSnapshot h)
      (FreshAnalysis.nodup_destinationSnapshot h) (FreshAnalysis.nodup_sourceSnapshot h')
      (FreshAnalysis.nodup_destinationSnapshot h') hagreesA hagreesB
  simp [hstatus] at hchanged

end ReviewedBaseline

namespace ResolutionRun

variable {analysis fresh : FreshAnalysis} {decisions : List ConflictDecision}
  {plan : List ConflictResolutionAction} {baseline : Option SyncBaseline} {run : ResolutionRun}
  {fs fs' : FileSystem} {profile currentProfile : SyncProfile}

theorem fromAnalysis_eq_ok (h : fromAnalysis analysis plan baseline = .ok run) :
    (ConflictReview.fromAnalysis analysis).resolve (plan.map ConflictResolutionAction.decision) =
        .ok run.plan ∧
      (∀ current ∈ baseline, current.matchesProfile analysis.profile = true ∧
        current.metadata = analysis.specification.options.metadata) ∧
      run.profile = analysis.profile ∧ run.reviewedAnalysis = analysis ∧
      run.reviewedBaseline = baseline.map fun baseline =>
        .capture baseline (pathSet (run.plan.map (·.relativePath))) analysis := by
  unfold fromAnalysis at h
  obtain ⟨-, h⟩ := ensure_bind_eq_ok.mp h
  obtain ⟨validated, hvalidated, h⟩ := bind_eq_ok.mp h
  obtain ⟨hbaseline, h⟩ := ensure_bind_eq_ok.mp h
  cases h
  refine ⟨mapError_eq_ok.mp hvalidated, fun current hcurrent => ?_, rfl, rfl, rfl⟩
  rw [Option.mem_def.mp hcurrent] at hbaseline
  simpa using hbaseline

/-- The actions of a plan are those of its decisions. -/
theorem decided_plan (hplan : (ConflictReview.fromAnalysis analysis).resolve decisions = .ok plan) :
    (ConflictReview.fromAnalysis analysis).Decides
        (plan.map ConflictResolutionAction.decision) ∧
      ConflictReview.byPath ((plan.map ConflictResolutionAction.decision).map .fromDecision) =
        plan := by
  obtain ⟨hdecides, heq⟩ := ConflictReview.resolve_eq_ok_iff.mp hplan
  have hperm : plan.Perm (decisions.map .fromDecision) := by
    rw [heq]
    exact ConflictReview.perm_byPath _
  have hself : (plan.map ConflictResolutionAction.decision).map .fromDecision = plan := by
    rw [List.map_map]
    refine (List.map_congr_left fun action haction => ?_).trans (List.map_id plan)
    obtain ⟨decision, -, rfl⟩ := List.mem_map.mp (hperm.mem_iff.mp haction)
    rfl
  constructor
  · refine hdecides.perm ?_
    have hdecisions := (hperm.map ConflictResolutionAction.decision).symm
    rwa [List.map_map, List.map_id'' (f := ConflictResolutionAction.decision ∘ .fromDecision) fun _ => rfl]
      at hdecisions
  · rw [hself, heq, ConflictReview.byPath_byPath]

/-- The run has the plan that was reviewed. -/
theorem plan_fromAnalysis
    (hplan : (ConflictReview.fromAnalysis analysis).resolve decisions = .ok plan)
    (hrun : fromAnalysis analysis plan baseline = .ok run) : run.plan = plan := by
  obtain ⟨-, heq⟩ := ConflictReview.resolve_eq_ok_iff.mp (fromAnalysis_eq_ok hrun).1
  exact heq.trans (decided_plan hplan).2

/-- The decision about a same-path row is the decision about its path. -/
theorem pathDecision_eq (hplan : (ConflictReview.fromAnalysis analysis).resolve decisions = .ok plan)
    {action : ConflictResolutionAction} (haction : action ∈ plan)
    (hkind : action.entryKey.kind = .samePath) : action.pathDecision = action.decision := by
  obtain ⟨decision, -, rfl, entry, hentry, hsame, -⟩ := ConflictReview.mem_resolve hplan haction
  obtain ⟨hentryKind, -, hrelated, hdestination⟩ := ConflictEntryKey.same_iff.mp hsame
  obtain ⟨hrow, -⟩ := eq_samePathEntry hentry (hentryKind.trans hkind)
  rw [hrow] at hrelated hdestination
  obtain ⟨⟨kind, path, related, destination⟩, resolution⟩ := decision
  change kind = .samePath at hkind
  cases hkind
  cases Option.map_eq_none_iff.mp hrelated.symm
  cases Option.map_eq_none_iff.mp hdestination.symm
  rfl

theorem kind_of_confirmed {confirmed : ConfirmedResolutionRun} {action : ConflictResolutionAction}
    (haction : action ∈ confirmed.actions) : action.entryKey.kind = .samePath := by
  rw [ConfirmedResolutionRun.eq_fromDecision haction]
  rfl

theorem root_of_same {peer other : Peer} (h : peer.same other = true) :
    peer.name = other.name ∧ peer.root.components = other.root.components := by
  have hkey := Peer.same_iff.mp h
  obtain ⟨name, endpoint⟩ := peer
  obtain ⟨name', endpoint'⟩ := other
  unfold Peer.key at hkey
  cases endpoint <;> cases endpoint' <;> simp_all [Peer.root]

theorem metadata_of_same (hanalysis : FreshAnalysis.analyze fs profile = .ok analysis)
    (hfresh : FreshAnalysis.analyze fs' currentProfile = .ok fresh)
    (hprofile : profile.same currentProfile = true) :
    analysis.specification.options.metadata = fresh.specification.options.metadata := by
  simp only [SyncProfile.same, Bool.and_eq_true, decide_eq_true_eq] at hprofile
  obtain ⟨⟨-, hoptions⟩, -⟩ := hprofile
  have heq : analysis.specification.options.toSyncOptions =
      fresh.specification.options.toSyncOptions := by
    rw [analysis.options_eq, fresh.options_eq, (FreshAnalysis.analyze_eq_ok hanalysis).1,
      (FreshAnalysis.analyze_eq_ok hfresh).1, hoptions]
  exact congrArg SyncOptions.metadata heq

theorem matchesProfile_of_same {current : SyncBaseline}
    (hprofile : profile.same currentProfile = true)
    (h : current.matchesProfile profile = true) : current.matchesProfile currentProfile = true := by
  simp only [SyncProfile.same, Bool.and_eq_true, decide_eq_true_eq] at hprofile
  obtain ⟨⟨⟨⟨⟨⟨hname, hA⟩, hB⟩, -⟩, -⟩, -⟩, -⟩ := hprofile
  unfold SyncBaseline.matchesProfile at h ⊢
  rw [← hname, ← (root_of_same hA).1, ← (root_of_same hA).2, ← (root_of_same hB).1,
    ← (root_of_same hB).2]
  exact h

/-- The review of the same peers accepts the same decisions. -/
theorem decides_of_freshAt (hanalysis : FreshAnalysis.analyze fs profile = .ok analysis)
    (hfresh : FreshAnalysis.analyze fs' currentProfile = .ok fresh)
    (hprofile : profile.same currentProfile = true) (hsame : ∀ p, analysis.FreshAt fresh p)
    (h : (ConflictReview.fromAnalysis analysis).Decides decisions) :
    (ConflictReview.fromAnalysis fresh).Decides decisions := by
  obtain ⟨hagreesA, hagreesB⟩ := FreshAnalysis.agrees_of_freshAt hanalysis hfresh hsame
  have hA := FreshAnalysis.nodup_sourceSnapshot hanalysis
  have hB := FreshAnalysis.nodup_destinationSnapshot hanalysis
  have hA' := FreshAnalysis.nodup_sourceSnapshot hfresh
  have hB' := FreshAnalysis.nodup_destinationSnapshot hfresh
  refine h.of_keys fun key => ?_
  unfold ConflictReview.fromAnalysis
  rw [metadata_of_same hanalysis hfresh hprofile]
  exact ⟨exists_key hA hB hA' hB' hagreesA hagreesB,
    exists_key hA' hB' hA hB hagreesA.symm hagreesB.symm⟩

theorem checkBaseline_of_freshAt (hanalysis : FreshAnalysis.analyze fs profile = .ok analysis)
    (hfresh : FreshAnalysis.analyze fs' currentProfile = .ok fresh)
    (hprofile : profile.same currentProfile = true) (hsame : ∀ p, analysis.FreshAt fresh p)
    (hrun : fromAnalysis analysis plan baseline = .ok run) :
    run.checkBaseline currentProfile baseline fresh = .ok () := by
  obtain ⟨-, hbaseline, -, -, hreviewed⟩ := fromAnalysis_eq_ok hrun
  unfold checkBaseline
  cases baseline with
  | none => rw [hreviewed, Option.map_none]
  | some current =>
      obtain ⟨hmatches, hmetadata⟩ := hbaseline current rfl
      rw [hreviewed, Option.map_some]
      dsimp only
      rw [ReviewedBaseline.changedPaths_capture hanalysis hfresh hsame]
      refine ensure_bind_eq_ok.mpr ⟨⟨?_, ?_⟩, rfl⟩
      · rw [(FreshAnalysis.analyze_eq_ok hanalysis).1] at hmatches
        exact matchesProfile_of_same hprofile hmatches
      · exact hmetadata.trans (metadata_of_same hanalysis hfresh hprofile)

/-- What a preparation does when all checks before the decisions pass. -/
theorem prepare_eq_ok_iff (hanalysis : FreshAnalysis.analyze fs profile = .ok analysis)
    (hfresh : FreshAnalysis.analyze fs' currentProfile = .ok fresh)
    (hprofile : profile.same currentProfile = true) (hsame : ∀ p, analysis.FreshAt fresh p)
    (hrun : fromAnalysis analysis plan baseline = .ok run)
    {actions : List ConflictResolutionAction} :
    (∃ confirmed, run.prepare fs' currentProfile baseline true = .ok confirmed ∧
        confirmed.actions = actions) ↔
      (ConflictReview.fromAnalysis fresh).resolve
        (run.plan.map ConflictResolutionAction.pathDecision) = .ok actions := by
  obtain ⟨-, -, hownProfile, hreviewed, -⟩ := fromAnalysis_eq_ok hrun
  rw [(FreshAnalysis.analyze_eq_ok hanalysis).1] at hownProfile
  have hunchanged : ((run.reviewedAnalysis.revision.changedPaths fresh.revision).filter
      fun path => run.reviewedPaths.any (·.same path)) = [] := by
    rw [hreviewed, FreshAnalysis.changedPaths_of_freshAt hsame]
    rfl
  constructor
  · intro ⟨confirmed, hprepare, hactions⟩
    unfold prepare at hprepare
    obtain ⟨confirmed', hrevalidate, hconfirmed⟩ := bind_eq_ok.mp hprepare
    obtain ⟨-, hconfirmed⟩ := ensure_bind_eq_ok.mp hconfirmed
    cases hconfirmed
    unfold revalidate at hrevalidate
    obtain ⟨-, hrevalidate⟩ := ensure_bind_eq_ok.mp hrevalidate
    split at hrevalidate
    · cases hrevalidate
    · rename_i found hfound
      rw [hfresh] at hfound
      cases hfound
      obtain ⟨-, hrevalidate⟩ := ensure_bind_eq_ok.mp hrevalidate
      obtain ⟨-, hrevalidate⟩ := unit_bind_eq_ok.mp hrevalidate
      split at hrevalidate
      · cases hrevalidate
      · rename_i resolved hresolved
        cases hrevalidate
        rw [hresolved]
        exact congrArg _ hactions
  · intro hresolve
    obtain ⟨confirmed, hrevalidate, hactions⟩ : ∃ confirmed,
        run.revalidate fs' currentProfile baseline = .ok confirmed ∧
          confirmed.actions = actions := by
      unfold revalidate
      rw [ensure_of (hownProfile.symm ▸ hprofile), ok_bind]
      split
      · rename_i hfound
        rw [hfresh] at hfound
        cases hfound
      · rename_i found hfound
        rw [hfresh] at hfound
        cases hfound
        dsimp only
        rw [ensure_of hunchanged, ok_bind,
          checkBaseline_of_freshAt hanalysis hfresh hprofile hsame hrun, ok_bind]
        split
        · rename_i hresolved
          rw [hresolve] at hresolved
          cases hresolved
        · rename_i resolved hresolved
          rw [hresolve] at hresolved
          exact ⟨_, rfl, (Except.ok.inj hresolved).symm⟩
    refine ⟨confirmed, ?_, hactions⟩
    unfold prepare
    rw [hrevalidate, ok_bind, ensure_of fun _ => rfl, ok_bind]
    rfl

end ResolutionRun

/-- **When an unchanged review is confirmed.** -/
theorem revalidation_iff {fs fs' : FileSystem} {profile currentProfile : SyncProfile}
    {analysis fresh : FreshAnalysis} {decisions : List ConflictDecision}
    {plan : List ConflictResolutionAction} {baseline : Option SyncBaseline} {run : ResolutionRun}
    (hanalysis : FreshAnalysis.analyze fs profile = .ok analysis)
    (hplan : (ConflictReview.fromAnalysis analysis).resolve decisions = .ok plan)
    (hrun : ResolutionRun.fromAnalysis analysis plan baseline = .ok run)
    (hprofile : profile.same currentProfile = true)
    (hfresh : FreshAnalysis.analyze fs' currentProfile = .ok fresh)
    (hsame : ∀ p, analysis.FreshAt fresh p) :
    (∃ confirmed, run.prepare fs' currentProfile baseline true = .ok confirmed ∧
        confirmed.actions = plan) ↔
      ∀ action ∈ plan, action.entryKey.kind = .samePath := by
  constructor
  · intro ⟨confirmed, _, hactions⟩ action haction
    exact ResolutionRun.kind_of_confirmed (hactions.symm ▸ haction)
  · intro hkinds
    refine (ResolutionRun.prepare_eq_ok_iff hanalysis hfresh hprofile hsame hrun).mpr ?_
    have hdecisions : run.plan.map ConflictResolutionAction.pathDecision =
        plan.map ConflictResolutionAction.decision := by
      rw [ResolutionRun.plan_fromAnalysis hplan hrun]
      exact List.map_congr_left fun action haction =>
        ResolutionRun.pathDecision_eq hplan haction (hkinds action haction)
    obtain ⟨hdecides, hactions⟩ := ResolutionRun.decided_plan hplan
    rw [hdecisions]
    exact ConflictReview.resolve_eq_ok_iff.mpr ⟨ResolutionRun.decides_of_freshAt hanalysis hfresh
      hprofile hsame hdecides, hactions.symm⟩

/-! ### A file on each peer -/

def pairedProfile : SyncProfile := { copyingProfile with mode := .mirror }

/-- A peer with the file `a`, or with the file `b`. -/
def letterTree (second : Bool) (found : Found) : FileTree :=
  if second then .ofEntries (.cons [98] found .nil .nil) ⟨by decide, by decide, trivial, trivial⟩
  else .ofLetter found

/-- The first peer has the file `a`, and the other this one. -/
def besideLetter (second : Bool) (hash : Sha256) : FileSystem where
  lossy := .utf8
  isDir _ := false
  tree root :=
    if root = ⟨[47, 97]⟩ then letterTree false (plainFile zeroHash)
    else letterTree second (plainFile hash)

/-- The decisions are reviewed, and a run made of them. -/
def reviewedRun (fs : FileSystem) (decisions : List ConflictDecision) :
    Except ResolutionRunError (List ConflictResolutionAction × ResolutionRun) := do
  let analysis ← (FreshAnalysis.analyze fs pairedProfile).mapError .analysis
  let plan ← ((ConflictReview.fromAnalysis analysis).resolve decisions).mapError .invalidDecision
  let run ← ResolutionRun.fromAnalysis analysis plan none
  return (plan, run)

theorem reviewedRun_eq_ok {fs : FileSystem} {decisions : List ConflictDecision}
    {reviewed : List ConflictResolutionAction × ResolutionRun}
    (h : reviewedRun fs decisions = .ok reviewed) :
    ∃ analysis, FreshAnalysis.analyze fs pairedProfile = .ok analysis ∧
      (ConflictReview.fromAnalysis analysis).resolve decisions = .ok reviewed.1 ∧
      ResolutionRun.fromAnalysis analysis reviewed.1 none = .ok reviewed.2 := by
  unfold reviewedRun at h
  obtain ⟨analysis, hanalysis, h⟩ := bind_eq_ok.mp h
  obtain ⟨plan, hplan, h⟩ := bind_eq_ok.mp h
  obtain ⟨run, hrun, h⟩ := bind_eq_ok.mp h
  cases h
  exact ⟨analysis, mapError_eq_ok.mp hanalysis, mapError_eq_ok.mp hplan, hrun⟩

/-- Each peer has its own version of a file, and the first one's is kept. -/
theorem revalidation_kept :
    ∃ plan run confirmed, reviewedRun (besideLetter false otherHash)
        [.new ⟨[97]⟩ .keepPeerA] = .ok (plan, run) ∧
      run.prepare (besideLetter false otherHash) pairedProfile none true = .ok confirmed ∧
      confirmed.actions = plan := by
  obtain ⟨⟨plan, run⟩, hreviewed, hkinds⟩ := @exists_ok _ _
    (reviewedRun (besideLetter false otherHash) [.new ⟨[97]⟩ .keepPeerA])
    (fun reviewed => reviewed.1.all (·.entryKey.kind = .samePath)) (by decide +kernel)
  obtain ⟨analysis, hanalysis, hplan, hrun⟩ := reviewedRun_eq_ok hreviewed
  obtain ⟨confirmed, hconfirmed, hactions⟩ :=
    (revalidation_iff hanalysis hplan hrun (by decide) hanalysis fun _ => ⟨rfl, rfl⟩).mpr
      (by simpa using hkinds)
  exact ⟨plan, run, confirmed, hreviewed, hconfirmed, hactions⟩

/-- A file has another name on the second peer, and both are preserved. -/
theorem revalidation_renamed :
    ¬ ∀ (fs : FileSystem) (profile : SyncProfile) (analysis : FreshAnalysis)
      (decisions : List ConflictDecision) (plan : List ConflictResolutionAction)
      (baseline : Option SyncBaseline) (run : ResolutionRun),
      FreshAnalysis.analyze fs profile = .ok analysis →
        (ConflictReview.fromAnalysis analysis).resolve decisions = .ok plan →
        ResolutionRun.fromAnalysis analysis plan baseline = .ok run →
          ∃ confirmed, run.prepare fs profile baseline true = .ok confirmed ∧
            confirmed.actions = plan := by
  intro h
  obtain ⟨⟨plan, run⟩, hreviewed, hkinds⟩ := @exists_ok _ _
    (reviewedRun (besideLetter true zeroHash)
      [⟨⟨.possibleDuplicateOrRename, ⟨[97]⟩, some ⟨[98]⟩, none⟩, .preserveBoth⟩])
    (fun reviewed => reviewed.1.any (·.entryKey.kind ≠ .samePath)) (by decide +kernel)
  obtain ⟨analysis, hanalysis, hplan, hrun⟩ := reviewedRun_eq_ok hreviewed
  obtain ⟨confirmed, -, hactions⟩ := h _ _ analysis _ plan none run hanalysis hplan hrun
  obtain ⟨action, haction, hkind⟩ := List.any_eq_true.mp hkinds
  rw [← hactions] at haction
  exact decide_eq_true_eq.mp hkind (ResolutionRun.kind_of_confirmed haction)

end SyncPlus
