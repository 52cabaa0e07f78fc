import SyncPlus.BaselineContents
import SyncPlus.MirrorCoverage

/-!
# Resolution runs

The decisions about a Mirror conflict are reviewed once, when a run starts, and once more
when it is prepared: on an analysis made then, none of whose paths has changed since, and
on the baseline as it was. The second review takes each decision to be about its path
alone, so what is confirmed has one action a path, and both peers have an item there
(`ConfirmedResolutionRun.item_isSome`, `ConfirmedResolutionRun.distinct`).
-/

namespace SyncPlus

/-! ## Reviewed baselines -/

inductive ResolutionRunError where
  | analysis (error : AnalysisError)
  | invalidMode
  | invalidDecision (error : ConflictResolutionError)
  | baselineMismatch
  | baselineChanged (changedPaths : List PathBuf)
  | staleDecision (changedPaths : List PathBuf)
  | finalConfirmationRequired
  deriving DecidableEq

/-- `baseline_matches_profile`. -/
def SyncBaseline.matchesProfile (baseline : SyncBaseline) (profile : SyncProfile) : Bool :=
  baseline.profileName = profile.name && baseline.peerAName = profile.peerA.name &&
    baseline.peerARoot = profile.peerA.root.components &&
    baseline.peerBName = profile.peerB.name &&
    baseline.peerBRoot = profile.peerB.root.components

/-- What a baseline had at the reviewed paths, and how both peers compared with it. -/
structure ReviewedBaseline where
  items : List (PathBuf × Option SyncBaselineItem)
  comparisons : List SyncBaselineComparison

namespace ReviewedBaseline

/-- The comparisons at these paths. -/
def comparisonsAt (baseline : SyncBaseline) (paths : List PathBuf) (analysis : FreshAnalysis) :
    List SyncBaselineComparison :=
  (baseline.compare analysis.sourceSnapshot analysis.destinationSnapshot).filter
    fun comparison => paths.any (·.same comparison.relativePath)

def capture (baseline : SyncBaseline) (paths : List PathBuf) (analysis : FreshAnalysis) :
    ReviewedBaseline where
  items := paths.map fun path => (path, baseline.itemAt path)
  comparisons := comparisonsAt baseline paths analysis

def statusAt (comparisons : List SyncBaselineComparison) (path : PathBuf) :
    Option (SyncBaselineItemStatus × SyncBaselineItemStatus) :=
  (getByPath SyncBaselineComparison.relativePath comparisons path).map fun comparison =>
    (comparison.peerA, comparison.peerB)

def changedPaths (reviewed : ReviewedBaseline) (baseline : SyncBaseline)
    (analysis : FreshAnalysis) : List PathBuf :=
  let current := comparisonsAt baseline (reviewed.items.map Prod.fst) analysis
  pathSet ((reviewed.items.filter fun (path, item) =>
    baseline.itemAt path ≠ item ||
      statusAt reviewed.comparisons path ≠ statusAt current path).map Prod.fst)

end ReviewedBaseline

/-! ## Runs -/

/-- `ConflictDecision::new`: a decision about the path. -/
def ConflictDecision.new (relativePath : PathBuf) (resolution : ConflictResolution) :
    ConflictDecision where
  entryKey := ⟨.samePath, relativePath, none, none⟩
  resolution

def ConflictResolutionAction.decision (action : ConflictResolutionAction) : ConflictDecision :=
  ⟨action.entryKey, action.resolution⟩

/-- The decision about the action's path, whatever entry the action was about. -/
def ConflictResolutionAction.pathDecision (action : ConflictResolutionAction) :
    ConflictDecision :=
  .new action.relativePath action.resolution

structure ResolutionRun where
  profile : SyncProfile
  reviewedAnalysis : FreshAnalysis
  plan : List ConflictResolutionAction
  reviewedBaseline : Option ReviewedBaseline

/-- A run whose decisions were reviewed again on a fresh analysis. -/
structure ConfirmedResolutionRun where
  freshAnalysis : FreshAnalysis
  actions : List ConflictResolutionAction
  analyzed : ∃ fs profile, FreshAnalysis.analyze fs profile = .ok freshAnalysis
  resolved : ∃ plan : List ConflictResolutionAction, (ConflictReview.fromAnalysis
    freshAnalysis).resolve (plan.map ConflictResolutionAction.pathDecision) = .ok actions

namespace ResolutionRun

def fromAnalysis (analysis : FreshAnalysis) (plan : List ConflictResolutionAction)
    (baseline : Option SyncBaseline) : Except ResolutionRunError ResolutionRun := do
  ensure (analysis.profile.mode = .mirror) .invalidMode
  let validated ← ((ConflictReview.fromAnalysis analysis).resolve
    (plan.map ConflictResolutionAction.decision)).mapError .invalidDecision
  let paths := pathSet (validated.map (·.relativePath))
  ensure (baseline.all fun baseline => baseline.matchesProfile analysis.profile &&
    baseline.metadata = analysis.specification.options.metadata) .baselineMismatch
  return ⟨analysis.profile, analysis, validated,
    baseline.map fun baseline => .capture baseline paths analysis⟩

/-- `start`. -/
def start (fs : FileSystem) (profile : SyncProfile) (decisions : List ConflictDecision)
    (baseline : Option SyncBaseline) : Except ResolutionRunError ResolutionRun := do
  let analysis ← (FreshAnalysis.analyze fs profile).mapError .analysis
  let plan ← ((ConflictReview.fromAnalysis analysis).resolve decisions).mapError .invalidDecision
  fromAnalysis analysis plan baseline

variable (run : ResolutionRun)

def reviewedPaths : List PathBuf := pathSet (run.plan.map (·.relativePath))

/-- What `revalidate` asks of the baseline there is now. -/
def checkBaseline (currentProfile : SyncProfile) (currentBaseline : Option SyncBaseline)
    (freshAnalysis : FreshAnalysis) : Except ResolutionRunError Unit :=
  match run.reviewedBaseline, currentBaseline with
  | some reviewed, some current => do
      ensure (current.matchesProfile currentProfile = true ∧
        current.metadata = freshAnalysis.specification.options.metadata)
        (.baselineChanged run.reviewedPaths)
      let changed := reviewed.changedPaths current freshAnalysis
      ensure (changed = []) (.baselineChanged changed)
  | none, none => .ok ()
  | _, _ => .error (.baselineChanged run.reviewedPaths)

/-- `revalidate`, on the file system of the moment. -/
def revalidate (fs : FileSystem) (currentProfile : SyncProfile)
    (currentBaseline : Option SyncBaseline) : Except ResolutionRunError ConfirmedResolutionRun := do
  ensure (run.profile.same currentProfile = true) (.analysis .profileChanged)
  match analyzed : FreshAnalysis.analyze fs currentProfile with
  | .error error => .error (.analysis error)
  | .ok freshAnalysis =>
      let changedPaths := (run.reviewedAnalysis.revision.changedPaths
        freshAnalysis.revision).filter fun path => run.reviewedPaths.any (·.same path)
      ensure (changedPaths = []) (.staleDecision changedPaths)
      run.checkBaseline currentProfile currentBaseline freshAnalysis
      match resolved : (ConflictReview.fromAnalysis freshAnalysis).resolve
          (run.plan.map ConflictResolutionAction.pathDecision) with
      | .error _ => .error (.staleDecision run.reviewedPaths)
      | .ok actions => .ok ⟨freshAnalysis, actions, ⟨fs, currentProfile, analyzed⟩, ⟨run.plan, resolved⟩⟩

def prepare (fs : FileSystem) (currentProfile : SyncProfile)
    (currentBaseline : Option SyncBaseline) (finalConfirmation : Bool) :
    Except ResolutionRunError ConfirmedResolutionRun := do
  let confirmed ← run.revalidate fs currentProfile currentBaseline
  ensure ((confirmed.actions.any fun action => action.resolution ≠ .defer) = true →
    finalConfirmation = true) .finalConfirmationRequired
  return confirmed

end ResolutionRun

/-! ## What is confirmed -/

/-- The inventory of a peer, where the source is the first peer. -/
def FreshAnalysis.inventoryOf (analysis : FreshAnalysis) : PeerSide → SourceInventory :=
  sideInventory analysis.sourceInventory analysis.destinationInventory

theorem ConflictDecision.new_same (path path' : PathBuf)
    (resolution resolution' : ConflictResolution) :
    (ConflictDecision.new path resolution).entryKey.same
      (ConflictDecision.new path' resolution').entryKey = path.same path' := by
  simp [ConflictDecision.new, ConflictEntryKey.same, sameOptionPath]

namespace ConfirmedResolutionRun

variable {confirmed : ConfirmedResolutionRun} {action : ConflictResolutionAction}

/-- Every action is the decision about its own path. -/
theorem eq_fromDecision (haction : action ∈ confirmed.actions) :
    action = .fromDecision action.pathDecision := by
  obtain ⟨plan, hresolve⟩ := confirmed.resolved
  obtain ⟨decision, hdecision, rfl, -⟩ := ConflictReview.mem_resolve hresolve haction
  obtain ⟨reviewed, -, rfl⟩ := List.mem_map.mp hdecision
  rfl

/-- No two actions are about one path. -/
theorem distinct (confirmed : ConfirmedResolutionRun) :
    (confirmed.actions.map (·.relativePath.components)).Nodup := by
  obtain ⟨plan, hresolve⟩ := confirmed.resolved
  obtain ⟨seen, actions, hactions, hperm⟩ := ConflictReview.resolve_eq_ok hresolve
  refine (hperm.map _).nodup_iff.mpr (List.pairwise_map.mpr ?_)
  refine (ConflictReview.resolveEach_distinct hactions).2.imp_of_mem ?_
  intro action action' haction haction' hkeys hsame
  rw [eq_fromDecision (hperm.mem_iff.mpr haction),
    eq_fromDecision (hperm.mem_iff.mpr haction')] at hkeys
  have hpaths : action.relativePath.same action'.relativePath = false :=
    (ConflictDecision.new_same _ _ action.resolution action'.resolution).symm.trans hkeys
  rw [PathBuf.same_iff.mpr hsame] at hpaths
  cases hpaths

/-- Both peers have an item at the path of an action. -/
theorem item_isSome (haction : action ∈ confirmed.actions) (side : PeerSide) :
    ((confirmed.freshAnalysis.inventoryOf side).item action.relativePath).isSome = true := by
  obtain ⟨plan, hresolve⟩ := confirmed.resolved
  obtain ⟨decision, hdecision, haction', entry, hentry, hsame, -⟩ :=
    ConflictReview.mem_resolve hresolve haction
  obtain ⟨reviewed, -, rfl⟩ := List.mem_map.mp hdecision
  simp only [ConflictEntryKey.same, Bool.and_eq_true, decide_eq_true_eq] at hsame
  obtain ⟨⟨⟨hkind, hpath⟩, -⟩, -⟩ := hsame
  obtain ⟨-, hA, hB⟩ := eq_samePathEntry hentry hkind
  have hcomponents : entry.relativePath.components = action.relativePath.components := by
    rw [haction']
    exact PathBuf.same_iff.mp hpath
  rw [SourceInventorySnapshot.item_congr _ hcomponents] at hA hB
  cases side with
  | peerA =>
      unfold FreshAnalysis.sourceSnapshot at hA
      rwa [SourceInventorySnapshot.item_fromInventory, Option.isSome_map] at hA
  | peerB =>
      unfold FreshAnalysis.destinationSnapshot at hB
      split at hB <;> rwa [SourceInventorySnapshot.item_fromInventory, Option.isSome_map] at hB

/-- Only a regular file has the hash of its content in an inventory. -/
theorem regular_of_fingerprint {side : PeerSide} {path : PathBuf} {item : InventoryItem}
    (hitem : (confirmed.freshAnalysis.inventoryOf side).item path = some item)
    (hhash : item.contentFingerprint.isSome = true) : item.itemType = .regularFile := by
  obtain ⟨fs, profile, hanalyze⟩ := confirmed.analyzed
  obtain ⟨-, -, -, hsource, hdestination⟩ := FreshAnalysis.analyze_eq_ok hanalyze
  have hmem : item ∈ (confirmed.freshAnalysis.inventoryOf side).items :=
    List.mem_of_find?_eq_some hitem
  have hwalked : ∃ names found, item =
      WalkScope.itemAt ⟨fs.lossy, confirmed.freshAnalysis.specification.exclusions⟩ ⟨[]⟩ false
        (names, found) := by
    cases side with
    | peerA =>
        obtain ⟨names, found, -, -, heq⟩ :=
          (WalkScope.collectInventory_inScope hsource).named item hmem
        exact ⟨names, found, heq⟩
    | peerB =>
        obtain ⟨names, found, -, -, heq⟩ :=
          (WalkScope.collectInventory_inScope hdestination).named item hmem
        exact ⟨names, found, heq⟩
  obtain ⟨names, found, rfl⟩ := hwalked
  unfold WalkScope.itemAt inventoryItem at hhash
  dsimp only at hhash
  split at hhash
  · rename_i hfile
    exact hfile.2
  · cases hhash

end ConfirmedResolutionRun

end SyncPlus
