import SyncPlus.Baseline
import SyncPlus.MirrorEquality
import SyncPlus.PathOrder

/-!
# Mirror deletions

When a Mirror pair asks about a deletion. A path that the baseline knows on
both sides, that one peer has no more and the other still has as it was, is
a candidate (`deletionCandidates`). The user decides about every candidate,
and only a decision to delete the counterpart is carried out. A result says
that the pair agrees again exactly when the deletion was completed.
-/

namespace SyncPlus

/-! ## Candidates -/

namespace SyncBaselineItemState

def parts (state : SyncBaselineItemState) : MirrorParts where
  itemType := state.itemType
  size := state.size
  modifiedAt := state.modifiedAtUnixNanos
  executablePermissions := state.executablePermissions
  symlinkTarget := state.symlinkTarget
  contentFingerprint := state.contentFingerprint

def fromSnapshot (item : InventorySnapshotItem) : SyncBaselineItemState where
  itemType := item.itemType
  size := item.size
  modifiedAtUnixNanos := item.modifiedAtUnixNanos
  readonly := item.readonly
  executablePermissions := item.executablePermissions
  symlinkTarget := item.symlinkTarget
  contentFingerprint := item.contentFingerprint

def equalState (state other : SyncBaselineItemState) (equality : MirrorEquality) : Bool :=
  equalParts equality.metadata state.parts other.parts

def equalInventory (state : SyncBaselineItemState) (current : InventorySnapshotItem)
    (equality : MirrorEquality) : Bool :=
  state.equalState (.fromSnapshot current) equality

end SyncBaselineItemState

structure MirrorDeletionEvidence where
  baselineMissingState : SyncBaselineItemState
  baselineRemainingState : SyncBaselineItemState
  currentRemainingState : SyncBaselineItemState
  deriving DecidableEq

structure MirrorDeletionCandidate where
  relativePath : RelativePath
  missingPeer : PeerSide
  affectedPeer : PeerSide
  evidence : MirrorDeletionEvidence
  deriving DecidableEq

/-- `current_items`, asked for the item at a path. -/
def SourceInventorySnapshot.currentItem (snapshot : SourceInventorySnapshot)
    (relativePath : RelativePath) : Option InventorySnapshotItem :=
  getByPath InventorySnapshotItem.relativePath snapshot.items (pathOf relativePath)

/-- The item one peer still has, when it is included and as the baseline has
it. -/
def remainingCandidate (equality : MirrorEquality) (relativePath : RelativePath)
    (missingPeer affectedPeer : PeerSide)
    (baselineMissing baselineRemaining : SyncBaselineItemState)
    (current : InventorySnapshotItem) : Option MirrorDeletionCandidate :=
  if current.outcome = .included ∧ baselineRemaining.equalInventory current equality = true then
    some ⟨relativePath, missingPeer, affectedPeer,
      ⟨baselineMissing, baselineRemaining, .fromSnapshot current⟩⟩
  else none

/-- The loop of `deletion_candidates`, for one item of the baseline. -/
def deletionCandidate (equality : MirrorEquality) (peerA peerB : SourceInventorySnapshot)
    (baselineItem : SyncBaselineItem) : Option MirrorDeletionCandidate := do
  let baselineA ← baselineItem.peerA
  let baselineB ← baselineItem.peerB
  if baselineA.equalState baselineB equality then
    let path := baselineItem.relativePath
    match peerA.currentItem path, peerB.currentItem path with
    | none, some current => remainingCandidate equality path .peerA .peerB baselineA baselineB current
    | some current, none => remainingCandidate equality path .peerB .peerA baselineB baselineA current
    | _, _ => none
  else none

def SyncBaseline.deletionCandidates (baseline : SyncBaseline)
    (peerA peerB : SourceInventorySnapshot) : List MirrorDeletionCandidate :=
  baseline.items.filterMap (deletionCandidate ⟨baseline.metadata⟩ peerA peerB)

/-! ## Decisions and results -/

inductive MirrorDeletionChoice where
  | deleteCounterpart
  | preserveRemaining
  | defer
  deriving Repr, DecidableEq

inductive MirrorDeletionOutcome where
  | completed
  | failedPreserved
  | deferred
  deriving Repr, DecidableEq

/-- What came of a deletion. The pair agrees again exactly when it was
completed. -/
structure MirrorDeletionResult where
  relativePath : RelativePath
  affectedPeer : PeerSide
  outcome : MirrorDeletionOutcome
  preservesRemainingCopy : Bool
  mirrorInvariantRestored : Bool
  restored : mirrorInvariantRestored = true ↔ outcome = .completed
  deriving DecidableEq

def MirrorDeletionResult.requiresReview (result : MirrorDeletionResult) : Bool :=
  !result.mirrorInvariantRestored

structure MirrorDeletionAction where
  candidate : MirrorDeletionCandidate
  choice : MirrorDeletionChoice
  deriving DecidableEq

namespace MirrorDeletionAction

def mutatesFiles (action : MirrorDeletionAction) : Bool := action.choice = .deleteCounterpart

def completed (action : MirrorDeletionAction) : MirrorDeletionResult :=
  if action.mutatesFiles then
    { relativePath := action.candidate.relativePath
      affectedPeer := action.candidate.affectedPeer
      outcome := .completed
      preservesRemainingCopy := false
      mirrorInvariantRestored := true
      restored := by simp }
  else
    { relativePath := action.candidate.relativePath
      affectedPeer := action.candidate.affectedPeer
      outcome := .deferred
      preservesRemainingCopy := true
      mirrorInvariantRestored := false
      restored := by simp }

end MirrorDeletionAction

theorem MirrorDeletionResult.requiresReview_eq_false {result : MirrorDeletionResult} :
    result.requiresReview = false ↔ result.outcome = .completed := by
  rw [← result.restored]
  simp [requiresReview]

end SyncPlus
