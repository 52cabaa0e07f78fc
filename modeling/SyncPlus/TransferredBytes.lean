import SyncPlus.NamesChecked
import SyncPlus.RequiredSpace

/-!
# The bytes a run writes

What executing a plan writes to the filesystem of its destination, when every
call succeeds. A transfer writes a file once: a removal after a transfer of its
own run uses the verified replacement that it left, and only without one it
transfers again. A removed source is copied to the recovery directory when that
lies on another device than the file. One item of the source adds what
`timesWritten` says (`foldl_sourceDrafts`), and so does the whole plan
(`transferredBytes_eq`).
-/

namespace SyncPlus

/-- Where a run reads and writes: the roots of the two peers, with the side the
transfers come from, the device of every path, and the recovery directory of the
run's method, when it has one. -/
structure RunSites where
  options : ValidatedSyncOptions
  side : PeerSide
  source : PathBuf
  destination : PathBuf
  device : PathBuf → UInt64
  recoveryRoot : Option PathBuf

/-- How far a run is: the keys of its `replacements` map, and the bytes written
so far to the destination's filesystem. -/
structure RunWrites where
  replacements : List PathBuf
  bytes : Nat
  deriving DecidableEq

def ActionDraft.bytes (draft : ActionDraft) : Nat := (draft.size.map UInt64.toNat).getD 0

namespace RunSites

variable (run : RunSites)

/-- `execute_paths`: the item is written to a temporary file beside its place. -/
def transfer (writes : RunWrites) (draft : ActionDraft) : RunWrites :=
  if draft.sourceSide = run.side then { writes with bytes := writes.bytes + draft.bytes }
  else writes

/-- The removal of an item leaves a copy on the destination's filesystem: the
recovery directory is there and the item is not, so that it cannot be renamed. -/
def copiesToRecovery (relativePath : PathBuf) : Bool :=
  run.options.deletionMethod = some .trash &&
    run.recoveryRoot.any fun root =>
      run.device (run.source.join relativePath) != run.device root &&
        run.device root == run.device run.destination

/-- `settle_source_removal`. -/
def settleSourceRemoval (writes : RunWrites) (draft : ActionDraft) : RunWrites :=
  if draft.sourceSide = run.side ∧ run.copiesToRecovery draft.relativePath = true then
    { writes with bytes := writes.bytes + draft.bytes }
  else writes

/-- `execute_action`. A removal from the destination is deferred. -/
def executeAction (writes : RunWrites) (draft : ActionDraft) : RunWrites :=
  match draft.kind with
  | .copyToDestination | .overwriteDestination =>
      let writes := run.transfer writes draft
      if draft.kind = .copyToDestination ∨ run.options.safeDelete = true then
        { writes with replacements := draft.relativePath :: writes.replacements }
      else writes
  | .removeSourceAfterVerification =>
      if writes.replacements.any (·.same draft.relativePath) then
        run.settleSourceRemoval
          { writes with
            replacements := writes.replacements.filter fun p => !p.same draft.relativePath }
          draft
      else run.settleSourceRemoval (run.transfer writes draft) draft
  | .removeDestination => writes

/-- All that the actions of a plan write. -/
def transferredBytes (actions : List PlanAction) : Nat :=
  ((actions.map PlanAction.draft).foldl run.executeAction ⟨[], 0⟩).bytes

end RunSites

/-! ## What is written of one item -/

/-- The plan removes the source of an item, given what the destination has at its
path. -/
def removesSource (options : ValidatedSyncOptions) (item : InventoryItem)
    (destinationItem : Option InventoryItem) : Bool :=
  options.safeDelete = true ∧ destinationItem.all (·.isEligible) = true ∧
    (item.itemType = .regularFile ∨ item.itemType = .symlink)

/-- How often a run writes an included item, given what the destination has at
its path. -/
def RunSites.timesWritten (run : RunSites) (mode : SyncMode) (item : InventoryItem)
    (destinationItem : Option InventoryItem) : Nat :=
  match mode with
  | .mirror => if destinationItem.isNone then 1 else 0
  | .oneWay =>
      (if (transferKind run.options.metadata item destinationItem).isSome ∨
          removesSource run.options item destinationItem = true then 1 else 0) +
        if removesSource run.options item destinationItem = true ∧
          run.copiesToRecovery item.relativePath = true then 1 else 0

/-- **An item is written twice** when its source is removed and goes to a recovery directory on
the filesystem of the destination. -/
theorem RunSites.two_le_timesWritten_iff {run : RunSites} {mode : SyncMode}
    {item : InventoryItem} {destinationItem : Option InventoryItem} :
    2 ≤ run.timesWritten mode item destinationItem ↔ mode = .oneWay ∧
      removesSource run.options item destinationItem = true ∧
        run.copiesToRecovery item.relativePath = true := by
  unfold timesWritten
  cases mode with
  | mirror =>
      refine iff_of_false ?_ fun h => nomatch h.1
      dsimp only
      split <;> omega
  | oneWay =>
      rw [and_iff_right rfl]
      dsimp only
      by_cases hmoved : removesSource run.options item destinationItem = true ∧
          run.copiesToRecovery item.relativePath = true
      · rw [if_pos (.inr hmoved.1), if_pos hmoved]
        exact iff_of_true (Nat.le_refl _) hmoved
      · rw [if_neg hmoved]
        refine iff_of_false ?_ hmoved
        split <;> omega

section

variable {run : RunSites} {writes : RunWrites} {draft : ActionDraft}

/-- A transfer writes the item once and keeps its replacement for a removal. -/
theorem executeAction_transfer (writes : RunWrites) (draft : ActionDraft)
    (hside : draft.sourceSide = run.side)
    (hkind : draft.kind = .copyToDestination ∨ draft.kind = .overwriteDestination) :
    run.executeAction writes draft =
      ⟨if draft.kind = .copyToDestination ∨ run.options.safeDelete = true then
          draft.relativePath :: writes.replacements
        else writes.replacements, writes.bytes + draft.bytes⟩ := by
  unfold RunSites.executeAction RunSites.transfer
  rw [if_pos hside]
  rcases hkind with hkind | hkind <;> rw [hkind] <;> dsimp only
  · rw [if_pos (.inl rfl), if_pos (.inl rfl)]
  · split <;> rfl

/-- What a removal adds to the bytes: a copy for the recovery directory, where
it needs one. -/
theorem bytes_settleSourceRemoval (hside : draft.sourceSide = run.side) :
    run.settleSourceRemoval writes draft =
      ⟨writes.replacements, writes.bytes +
        (if run.copiesToRecovery draft.relativePath = true then 1 else 0) * draft.bytes⟩ := by
  unfold RunSites.settleSourceRemoval
  by_cases hcopies : run.copiesToRecovery draft.relativePath = true
  · rw [if_pos ⟨hside, hcopies⟩, if_pos hcopies, Nat.one_mul]
  · rw [if_neg fun h => hcopies h.2, if_neg hcopies, Nat.zero_mul]
    rfl

theorem executeAction_removal (writes : RunWrites) (draft : ActionDraft)
    (hside : draft.sourceSide = run.side)
    (hkind : draft.kind = .removeSourceAfterVerification) :
    (run.executeAction writes draft).bytes = writes.bytes +
        ((if writes.replacements.any (·.same draft.relativePath) then 0 else 1) +
          (if run.copiesToRecovery draft.relativePath = true then 1 else 0)) * draft.bytes ∧
      ∀ p ∈ (run.executeAction writes draft).replacements, p ∈ writes.replacements := by
  unfold RunSites.executeAction
  rw [hkind]
  dsimp only
  split <;> rename_i hreplaced
  · rw [bytes_settleSourceRemoval hside, Nat.zero_add]
    exact ⟨rfl, fun p hp => List.mem_of_mem_filter hp⟩
  · unfold RunSites.transfer
    rw [if_pos hside, bytes_settleSourceRemoval hside]
    exact ⟨by dsimp only; rw [Nat.add_mul, Nat.one_mul, Nat.add_assoc], fun p hp => hp⟩

variable {specification : ProcessSpecification} {destination : SourceInventory}
  {item : InventoryItem}

/-- **One item of a One-Way plan.** The actions for it write it as often as
`timesWritten` says, and leave no replacement at another path. -/
theorem foldl_sourceDrafts (destination : SourceInventory)
    (hoptions : run.options = specification.options)
    (hside : .ofSource specification.source = run.side)
    (hnew : writes.replacements.any (·.same item.relativePath) = false) :
    ((sourceDrafts specification destination item).foldl run.executeAction writes).bytes =
        writes.bytes + run.timesWritten .oneWay item
          (sourceByPath destination item.relativePath) * item.bytes ∧
      ∀ p ∈ ((sourceDrafts specification destination item).foldl run.executeAction
        writes).replacements, p ∈ writes.replacements ∨ p = item.relativePath := by
  unfold sourceDrafts RunSites.timesWritten
  dsimp only
  rw [hoptions]
  generalize sourceByPath destination item.relativePath = destinationItem
  have hremoves : (specification.options.safeDelete = true ∧
      destinationItem.all (·.isEligible) = true ∧
      (item.itemType = .regularFile ∨ item.itemType = .symlink)) ↔
      removesSource specification.options item destinationItem = true := by
    simp [removesSource]
  rw [if_congr hremoves rfl rfl]
  have hsafe : removesSource specification.options item destinationItem = true →
      run.options.safeDelete = true := by
    intro h
    rw [hoptions]
    exact (hremoves.mpr h).1
  have hremoval := fun writes' : RunWrites => executeAction_removal writes'
    ⟨item.relativePath, .removeSourceAfterVerification, .ofSource specification.source,
      dataSize item⟩ hside rfl
  cases hkind : transferKind specification.options.metadata item destinationItem with
  | none =>
      rw [Option.map_none, Option.toList_none, List.nil_append]
      by_cases hremove : removesSource specification.options item destinationItem = true
      · obtain ⟨hbytes, hkeys⟩ := hremoval writes
        rw [if_pos hremove, List.foldl_cons, List.foldl_nil, hbytes, hnew]
        refine ⟨?_, fun p hp => .inl (hkeys p hp)⟩
        simp [hremove, InventoryItem.bytes, ActionDraft.bytes]
      · rw [if_neg hremove, List.foldl_nil]
        exact ⟨by simp [hremove], fun p hp => .inl hp⟩
  | some kind =>
      have hkinds : kind = .copyToDestination ∨ kind = .overwriteDestination :=
        (transferKind_cases hkind).imp And.left And.left
      have htransfer := executeAction_transfer writes
        ⟨item.relativePath, kind, .ofSource specification.source, dataSize item⟩ hside hkinds
      rw [Option.map_some, Option.toList_some, List.singleton_append, List.foldl_cons, htransfer]
      by_cases hremove : removesSource specification.options item destinationItem = true
      · -- the removal finds the replacement of the transfer
        rw [if_pos (.inr (hsafe hremove)), if_pos hremove, List.foldl_cons, List.foldl_nil]
        obtain ⟨hbytes, hkeys⟩ := hremoval ⟨item.relativePath :: writes.replacements,
          writes.bytes + item.bytes⟩
        have hfound : (item.relativePath :: writes.replacements).any
            (·.same item.relativePath) = true := by
          rw [List.any_cons, PathBuf.same_iff.mpr rfl]
          rfl
        rw [hfound, if_pos rfl, Nat.zero_add] at hbytes
        refine ⟨hbytes.trans ?_, fun p hp => ?_⟩
        · simp only [hremove, Option.isSome_some, true_or, true_and, if_true]
          rw [Nat.add_mul, Nat.one_mul, Nat.add_assoc]
          rfl
        · exact (List.mem_cons.mp (hkeys p hp)).symm
      · rw [if_neg hremove, List.foldl_nil]
        refine ⟨by simp [hremove, InventoryItem.bytes, ActionDraft.bytes], fun p hp => ?_⟩
        dsimp only at hp
        split at hp
        · exact (List.mem_cons.mp hp).symm
        · exact .inl hp

/-- **All the items of a One-Way plan**: the induction carries that no
replacement is left at a path that is still to come. -/
theorem foldl_flatMap_sourceDrafts (hoptions : run.options = specification.options)
    (hside : .ofSource specification.source = run.side) {items : List InventoryItem}
    (hnodup : (items.map (·.relativePath.components)).Nodup)
    (hnew : ∀ item ∈ items, writes.replacements.any (·.same item.relativePath) = false) :
    ((items.flatMap (sourceDrafts specification destination)).foldl run.executeAction
        writes).bytes =
      writes.bytes + (items.map fun item => run.timesWritten .oneWay item
        (sourceByPath destination item.relativePath) * item.bytes).sum := by
  induction items generalizing writes with
  | nil => rfl
  | cons item items ih =>
      rw [List.map_cons, List.nodup_cons] at hnodup
      obtain ⟨hfresh, hnodup⟩ := hnodup
      obtain ⟨hfirst, hrest⟩ := List.forall_mem_cons.mp hnew
      obtain ⟨hbytes, hkeys⟩ := foldl_sourceDrafts destination hoptions hside hfirst
      rw [List.flatMap_cons, List.foldl_append, ih hnodup, hbytes, List.map_cons, List.sum_cons,
        Nat.add_assoc]
      intro item' hitem'
      refine List.any_eq_false.mpr fun p hp hsame => ?_
      rcases hkeys p hp with hp | rfl
      · exact List.any_eq_false.mp (hrest item' hitem') p hp hsame
      · refine hfresh ?_
        rw [PathBuf.same_iff.mp hsame]
        exact List.mem_map_of_mem hitem'

/-- A cleanup is deferred. -/
theorem foldl_cleanupDrafts {source : SourceInventory} :
    (cleanupDrafts specification source destination).foldl run.executeAction writes =
      writes := by
  have hdeferred : ∀ draft ∈ cleanupDrafts specification source destination,
      draft.kind = .removeDestination := by
    intro draft hdraft
    obtain ⟨-, item, -, -, -, heq⟩ := mem_cleanupDrafts.mp hdraft
    rw [heq]
  generalize cleanupDrafts specification source destination = drafts at hdeferred
  induction drafts with
  | nil => rfl
  | cons draft drafts ih =>
      obtain ⟨hfirst, hrest⟩ := List.forall_mem_cons.mp hdeferred
      have hstep : run.executeAction writes draft = writes := by
        unfold RunSites.executeAction
        rw [hfirst]
      rw [List.foldl_cons, hstep, ih hrest]

/-- Copies write each item once. -/
theorem foldl_copies {drafts : List ActionDraft}
    (h : ∀ draft ∈ drafts, draft.kind = .copyToDestination) :
    (drafts.foldl run.executeAction writes).bytes =
      writes.bytes + ((drafts.filter (·.sourceSide = run.side)).map ActionDraft.bytes).sum := by
  induction drafts generalizing writes with
  | nil => rfl
  | cons draft drafts ih =>
      obtain ⟨hfirst, hrest⟩ := List.forall_mem_cons.mp h
      rw [List.foldl_cons, ih hrest]
      by_cases hside : draft.sourceSide = run.side
      · rw [executeAction_transfer writes draft hside (.inl hfirst), List.filter_cons_of_pos (by simpa using hside),
          List.map_cons, List.sum_cons, Nat.add_assoc]
      · have hstep : (run.executeAction writes draft).bytes = writes.bytes := by
          unfold RunSites.executeAction RunSites.transfer
          rw [hfirst]
          dsimp only
          rw [if_neg hside, if_pos (.inl rfl)]
        rw [hstep, List.filter_cons_of_neg (by simpa using hside)]

/-- The copies of one side of a Mirror plan. -/
theorem mem_mirrorDrafts_side {w : WalkScope} {source : SourceInventory}
    (hs : w.InScope source) (hd : w.InScope destination) {components : List Component} {n : Nat}
    {side : PeerSide} :
    (∃ draft ∈ mirrorDrafts source destination, draft.sourceSide = side ∧
        (draft.relativePath.components, draft.bytes) = (components, n)) ↔
      ∃ item ∈ (sideInventory source destination side).items, item.outcome = .included ∧
        (sideInventory source destination side.opposite).item item.relativePath = none ∧
          (item.relativePath.components, item.bytes) = (components, n) := by
  have hget : ∀ {p item}, sourceByPath source p = some item ↔
      item ∈ source.items ∧ item.relativePath.components = p.components := by
    intro p item
    rw [← hs.item_eq_some, ← hs.getByPath_eq]
    rfl
  have hget' : ∀ {p item}, sourceByPath destination p = some item ↔
      item ∈ destination.items ∧ item.relativePath.components = p.components := by
    intro p item
    rw [← hd.item_eq_some, ← hd.getByPath_eq]
    rfl
  have hnone : ∀ {p}, sourceByPath source p = none ↔ source.item p = none := by
    intro p
    rw [← hs.getByPath_eq]
    rfl
  have hnone' : ∀ {p}, sourceByPath destination p = none ↔ destination.item p = none := by
    intro p
    rw [← hd.getByPath_eq]
    rfl
  constructor
  · intro ⟨draft, hdraft, hside, hpair⟩
    rcases (mem_mirrorDrafts.mp hdraft).2 with ⟨item, hfound, hlacks, hin, heq⟩ |
      ⟨item, hlacks, hfound, hin, heq⟩
    · obtain ⟨hmem, hpath⟩ := hget.mp hfound
      obtain rfl : .peerA = side := (congrArg ActionDraft.sourceSide heq).symm.trans hside
      refine ⟨item, hmem, hin, (destination.item_congr hpath).trans (hnone'.mp hlacks), ?_⟩
      rw [← hpair, hpath, heq]
      rfl
    · obtain ⟨hmem, hpath⟩ := hget'.mp hfound
      obtain rfl : .peerB = side := (congrArg ActionDraft.sourceSide heq).symm.trans hside
      refine ⟨item, hmem, hin, (source.item_congr hpath).trans (hnone.mp hlacks), ?_⟩
      rw [← hpair, hpath, heq]
      rfl
  · intro ⟨item, hmem, hin, hlacks, hpair⟩
    cases side with
    | peerA =>
        obtain ⟨p, hp, hpath⟩ := exists_mem_pathSet (List.mem_append_left _
          (List.mem_map_of_mem (f := InventoryItem.relativePath) hmem))
        refine ⟨⟨p, .copyToDestination, .peerA, dataSize item⟩, mem_mirrorDrafts.mpr ⟨hp, .inl
          ⟨item, hget.mpr ⟨hmem, hpath.symm⟩, hnone'.mpr ?_, hin, rfl⟩⟩, rfl, ?_⟩
        · exact (destination.item_congr hpath).trans hlacks
        · rw [← hpair, ← hpath]
          rfl
    | peerB =>
        obtain ⟨p, hp, hpath⟩ := exists_mem_pathSet (List.mem_append_right _
          (List.mem_map_of_mem (f := InventoryItem.relativePath) hmem))
        refine ⟨⟨p, .copyToDestination, .peerB, dataSize item⟩, mem_mirrorDrafts.mpr ⟨hp, .inr
          ⟨item, hnone.mpr ?_, hget'.mpr ⟨hmem, hpath.symm⟩, hin, rfl⟩⟩, rfl, ?_⟩
        · exact (source.item_congr hpath).trans hlacks
        · rw [← hpair, ← hpath]
          rfl

/-- A Mirror plan drafts a path once. -/
theorem nodup_mirrorDrafts {source : SourceInventory} :
    ((mirrorDrafts source destination).map (·.relativePath.components)).Nodup := by
  rw [List.nodup_iff_pairwise_ne, List.pairwise_map]
  have hpaths := nodup_pathSet (source.items.map (·.relativePath) ++
    destination.items.map (·.relativePath))
  rw [List.nodup_iff_pairwise_ne, List.pairwise_map] at hpaths
  refine hpaths.filterMap _ fun p q hne draft hdraft draft' hdraft' => ?_
  rw [relativePath_of_mirrorDraft hdraft, relativePath_of_mirrorDraft hdraft']
  exact hne

/-- **The copies of one side**: a Mirror plan sends what one peer has alone. -/
theorem sum_mirrorDrafts (run : RunSites) {w : WalkScope} {source : SourceInventory} (hs : w.InScope source)
    (hd : w.InScope destination) (side : PeerSide) :
    (((mirrorDrafts source destination).filter (·.sourceSide = side)).map ActionDraft.bytes).sum =
      ((sideInventory source destination side).includedItems.map fun item =>
        run.timesWritten .mirror item
          ((sideInventory source destination side.opposite).item item.relativePath) *
            item.bytes).sum := by
  have hown : w.InScope (sideInventory source destination side) := by
    cases side
    · exact hs
    · exact hd
  let sent := (sideInventory source destination side).includedItems.filter fun item =>
    ((sideInventory source destination side.opposite).item item.relativePath).isNone
  have hperm : (((mirrorDrafts source destination).filter (·.sourceSide = side)).map
        fun draft => (draft.relativePath.components, draft.bytes)).Perm
      (sent.map fun item => (item.relativePath.components, item.bytes)) := by
    refine (List.perm_ext_iff_of_nodup ?_ ?_).mpr fun pair => ?_
    · refine List.Nodup.of_map Prod.fst ?_
      rw [List.map_map]
      exact (List.filter_sublist.map _).nodup nodup_mirrorDrafts
    · refine List.Nodup.of_map Prod.fst ?_
      rw [List.map_map]
      exact ((List.filter_sublist.trans List.filter_sublist).map _).nodup hown.nodup
    · obtain ⟨components, n⟩ := pair
      rw [List.mem_map, List.mem_map]
      simp only [sent, List.mem_filter, decide_eq_true_eq, and_assoc, mem_includedItems,
        Option.isNone_iff_eq_none]
      exact mem_mirrorDrafts_side hs hd
  have hbytes : ((mirrorDrafts source destination).filter (·.sourceSide = side)).map
      ActionDraft.bytes = (((mirrorDrafts source destination).filter (·.sourceSide = side)).map
        fun draft => (draft.relativePath.components, draft.bytes)).map Prod.snd := by
    rw [List.map_map]
    rfl
  rw [hbytes, (hperm.map Prod.snd).sum_eq, List.map_map]
  exact sum_map_filter _ _ _

/-- **What a plan writes**: every item of the sender as often as `timesWritten`
says. -/
theorem transferredBytes_eq {w : WalkScope} {source : SourceInventory} {actions : List PlanAction}
    (hs : w.InScope source) (hd : w.InScope destination)
    (hoptions : run.options = specification.options) (hside : SendsFrom specification run.side)
    (hplan : buildPlan specification source destination = .ok actions) :
    run.transferredBytes actions =
      ((sendingInventory specification source destination run.side).includedItems.map fun item =>
        run.timesWritten specification.mode item
          ((receivingInventory specification source destination run.side).item
            item.relativePath) * item.bytes).sum := by
  unfold RunSites.transferredBytes
  rw [(buildPlan_eq_ok.mp hplan).1, map_draft_numberDrafts]
  unfold planDrafts sendingInventory receivingInventory
  unfold SendsFrom at hside
  cases hmode : specification.mode with
  | mirror =>
      have hcopies : ∀ draft ∈ mirrorDrafts source destination,
          draft.kind = .copyToDestination :=
        fun draft hdraft => (sourced_of_mem_mirrorDrafts hdraft).1
      dsimp only
      rw [foldl_copies hcopies, Nat.zero_add, sum_mirrorDrafts run hs hd]
      cases run.side <;> rfl
  | oneWay =>
      have hnodup : (source.includedItems.map (·.relativePath.components)).Nodup :=
        (List.filter_sublist.map _).nodup hs.nodup
      have hget : ∀ p, sourceByPath destination p = destination.item p :=
        fun p => hd.getByPath_eq p
      dsimp only
      rw [List.foldl_append, foldl_cleanupDrafts,
        foldl_flatMap_sourceDrafts hoptions (hside hmode).symm hnodup fun _ _ => rfl, Nat.zero_add]
      simp only [hget]

end

end SyncPlus
