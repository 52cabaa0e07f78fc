import SyncPlus.Confirmation

/-!
# The paths of a run

Where the absolute paths of an action come from. The executor joins the path of
an action to the roots of the specification, whose destination may be the
folder below the selected one that has the name of the source. The report and
the evidence of a recovery join it to the roots of the profile. So they name
other paths than were used exactly when that folder was there and is not the
selected one itself (`reported_paths_used_iff`).
-/

namespace SyncPlus

/-! ## The paths of the executor -/

/-- What the paths of an action fail with, of the errors a specification has. -/
inductive TransferPathError where
  | actionSourceMismatch
  | invalidTransferPath (path : PathBuf)
  deriving Repr, DecidableEq

def validateRelativeTransferPath (path : PathBuf) : Except TransferPathError Unit :=
  ensure (path.isEmpty = false ∧ path.isAbsolute = false ∧
    ∀ component ∈ path.components, component.isNormal = true) (.invalidTransferPath path)

namespace ProcessSpecification

def peerRoot (specification : ProcessSpecification) : PeerSide → PathBuf
  | .peerA => specification.peerARoot
  | .peerB => specification.peerBRoot

/-- The path of an action below the root for its side, in a specification
without an SSH transport. -/
def actionPath (specification : ProcessSpecification) (root : PeerSide → PathBuf)
    (action : PlanAction) : Except TransferPathError PathBuf := do
  ensure (specification.mode = .oneWay → action.sourceSide = .ofSource specification.source)
    .actionSourceMismatch
  validateRelativeTransferPath action.relativePath
  return (root action.sourceSide).join action.relativePath

def sourcePath (specification : ProcessSpecification) (action : PlanAction) :
    Except TransferPathError PathBuf :=
  specification.actionPath specification.peerRoot action

def destinationPath (specification : ProcessSpecification) (action : PlanAction) :
    Except TransferPathError PathBuf :=
  specification.actionPath (fun side => specification.peerRoot side.opposite) action

end ProcessSpecification

/-! ## The paths of reports and evidence -/

/-- The record of an action in the journal of its run. -/
structure PlanRecord.Records (record : PlanRecord) (action : PlanAction) : Prop where
  actionId : record.actionId = action.actionId
  relativePath : record.relativePath = action.relativePath
  operation : record.operation = action.kind
  affectedSide : record.affectedSide = action.sourceSide

def SyncProfile.peerRoot (profile : SyncProfile) : PeerSide → PathBuf
  | .peerA => profile.peerA.root
  | .peerB => profile.peerB.root

structure RunReportItem where
  journal : ActionJournalEntry
  sourcePath : PathBuf
  destinationPath : PathBuf
  deriving DecidableEq

/-- `RunReportItem::from_journal`; the profile is that of the run's snapshot. -/
def RunReportItem.fromJournal (profile : SyncProfile) (journal : ActionJournalEntry) :
    RunReportItem where
  journal
  sourcePath := (profile.peerRoot journal.plan.affectedSide).join journal.plan.relativePath
  destinationPath :=
    (profile.peerRoot journal.plan.affectedSide.opposite).join journal.plan.relativePath

/-- What looking at a path finds: whether something is there, and of a file
that can be read its size and its hash. -/
abbrev Observation := Bool × Option UInt64 × Option Sha256

def observePaths (now : Int64) (observeContent : PathBuf → Observation)
    (source destination : PathBuf) : RecoveryEvidence :=
  .new now none (observeContent source).1 (observeContent destination).1 false
    (observeContent source).2.1 (observeContent destination).2.1 (observeContent source).2.2
    (observeContent destination).2.2

/-- The two paths `observe_journal_boundary` looks at. -/
def journalBoundaryPaths (profile : SyncProfile) (action : PlanRecord) : PathBuf × PathBuf :=
  ((profile.peerRoot action.affectedSide).join action.relativePath,
    (profile.peerRoot action.affectedSide.opposite).join action.relativePath)

def observeJournalBoundary (now : Int64) (observeContent : PathBuf → Observation)
    (profile : SyncProfile) (action : PlanRecord) : RecoveryEvidence :=
  observePaths now observeContent (journalBoundaryPaths profile action).1
    (journalBoundaryPaths profile action).2

/-- The report of a journaled action and the evidence taken for it name these
paths. -/
structure NamesPaths (profile : SyncProfile) (journal : ActionJournalEntry)
    (source destination : PathBuf) : Prop where
  reportedSource : (RunReportItem.fromJournal profile journal).sourcePath.same source = true
  reportedDestination :
    (RunReportItem.fromJournal profile journal).destinationPath.same destination = true
  observedSource : (journalBoundaryPaths profile journal.plan).1.same source = true
  observedDestination : (journalBoundaryPaths profile journal.plan).2.same destination = true

/-! ## Where they agree -/

namespace PathBuf

variable {p q : PathBuf} {name : Name}

/-- A name of a path is not empty, no dots and no slash, and made of bytes of
the path. -/
theorem normal_mem_components (h : .normal name ∈ p.components) :
    name ≠ [] ∧ name ≠ [dot] ∧ name ≠ [dot, dot] ∧ ∀ b ∈ name, b ∈ p.bytes ∧ b ≠ slash := by
  rw [components, List.mem_append] at h
  rcases h with h | h
  · unfold opening at h
    split at h
    · simp at h
    · split at h <;> simp at h
  · obtain ⟨segment, hsegment, hcomponent⟩ := List.mem_filterMap.mp h
    unfold segmentComponent? at hcomponent
    split at hcomponent
    · cases hcomponent
    · rename_i hplain
      split at hcomponent
      · cases hcomponent
      · rename_i hdots
        cases hcomponent
        rw [not_or] at hplain
        exact ⟨hplain.1, hplain.2, hdots, fun b hb => mem_splitOn hsegment hb⟩

theorem fileName_valid (h : p.fileName = some name) (hnul : 0 ∉ p.bytes) : ValidName name := by
  unfold fileName at h
  split at h
  · rename_i n hlast
    cases h
    obtain ⟨hne, hdot, hdots, hbytes⟩ := normal_mem_components (List.mem_of_getLast? hlast)
    exact ⟨hne, hdot, hdots, fun hb => (hbytes _ hb).2 rfl, fun hb => hnul (hbytes _ hb).1⟩
  · cases h

/-- A path of names opens with nothing. -/
theorem opening_of_normal (h : ∀ component ∈ p.components, component.isNormal = true) :
    p.opening = [] := by
  have hopening : ∀ component ∈ p.opening, component.isNormal = true :=
    fun component hmem => h component (List.mem_append_left _ hmem)
  unfold opening at hopening ⊢
  split at hopening
  · cases hopening .rootDir (.head _)
  · split at hopening
    · cases hopening .curDir (.head _)
    · rename_i habsolute hdot
      rw [if_neg habsolute, if_neg hdot]

/-- Joining the same path of names tells apart what it is joined to. -/
theorem same_join {relative : PathBuf}
    (h : ∀ component ∈ relative.components, component.isNormal = true) :
    (p.join relative).same (q.join relative) = true ↔ p.components = q.components := by
  rw [same_iff, components_join (opening_of_normal h), components_join (opening_of_normal h)]
  exact List.append_left_inj _

end PathBuf

section

variable {isDir : Directories} {profile : SyncProfile}

/-- The folder below the selected one is another folder. -/
theorem effectiveDestinationRoot_components (hnul : 0 ∉ profile.sourcePeer.root.bytes) :
    profile.effectiveDestinationRoot.components = profile.destinationPeer.root.components ↔
      profile.effectiveDestinationRoot = profile.destinationPeer.root := by
  constructor
  · intro h
    rcases effectiveDestinationRoot_cases profile with heq | ⟨name, hname, heq⟩
    · exact heq
    · rw [heq, components_join_name (PathBuf.fileName_valid hname hnul)] at h
      have hlength := congrArg List.length h
      rw [List.length_append, List.length_singleton] at hlength
      omega
  · intro h
    rw [h]

/-- **Where a One-Way run writes**: into the selected folder, unless the folder
below it with the source's name is there. -/
theorem processDestinationRoot_components (hmode : profile.mode = .oneWay)
    (hlocal : profile.destinationPeer.isSsh = false)
    (hnul : 0 ∉ profile.sourcePeer.root.bytes) :
    (processDestinationRoot isDir profile).components = profile.destinationPeer.root.components ↔
      (isDir profile.effectiveDestinationRoot = true →
        profile.effectiveDestinationRoot = profile.destinationPeer.root) := by
  unfold processDestinationRoot
  by_cases hdir : isDir profile.effectiveDestinationRoot = true
  · rw [if_pos ⟨hmode, hlocal, hdir⟩, effectiveDestinationRoot_components hnul]
    simp [hdir]
  · rw [if_neg fun h => hdir h.2.2]
    simp [hdir]

theorem actionPath_eq_ok {specification : ProcessSpecification} {root : PeerSide → PathBuf}
    {action : PlanAction} {path : PathBuf} (h : specification.actionPath root action = .ok path) :
    (specification.mode = .oneWay → action.sourceSide = .ofSource specification.source) ∧
      (∀ component ∈ action.relativePath.components, component.isNormal = true) ∧
      path = (root action.sourceSide).join action.relativePath := by
  obtain ⟨hside, h⟩ := ensure_bind_eq_ok.mp h
  obtain ⟨hvalid, h⟩ := unit_bind_eq_ok.mp h
  exact ⟨hside, (ensure_eq_ok.mp hvalid).2.2, (Except.ok.inj h).symm⟩

end

/-- **When reports name the paths that were used.** The report and the evidence
of an action name the paths the executor was given exactly when the folder
below the selected one is not there or is the selected one. -/
theorem reported_paths_used_iff {isDir : Directories} {profile : SyncProfile}
    {specification : ProcessSpecification} {action : PlanAction} {journal : ActionJournalEntry}
    {source destination : PathBuf}
    (hspec : ProcessSpecification.fromProfile isDir profile = .ok specification)
    (hmode : profile.mode = .oneWay)
    (hlocal : profile.peerA.isSsh = false ∧ profile.peerB.isSsh = false)
    (hrecord : journal.plan.Records action)
    (hsource : specification.sourcePath action = .ok source)
    (hdestination : specification.destinationPath action = .ok destination) :
    NamesPaths profile journal source destination ↔
      (isDir profile.effectiveDestinationRoot = true →
        profile.effectiveDestinationRoot = profile.destinationPeer.root) := by
  obtain ⟨options, -, hspec⟩ := bind_eq_ok.mp hspec
  obtain ⟨hchecks, hspec⟩ := unit_bind_eq_ok.mp hspec
  obtain ⟨hprofile, -⟩ := ProcessSpecification.checkProfile_eq_ok.mp hchecks
  have hspec := (Except.ok.inj hspec).symm
  have hnul := hprofile.source.2
  obtain ⟨hside, hnormal, rfl⟩ := actionPath_eq_ok hsource
  obtain ⟨-, -, rfl⟩ := actionPath_eq_ok hdestination
  have hside : action.sourceSide = .ofSource profile.source := by
    have hmodes : specification.mode = profile.mode ∧ specification.source = profile.source := by
      rw [hspec]
      exact ⟨rfl, rfl⟩
    rw [← hmodes.2]
    exact hside (hmodes.1.trans hmode)
  have hdestinationLocal : profile.destinationPeer.isSsh = false := by
    unfold SyncProfile.destinationPeer
    split
    · exact hlocal.2
    · exact hlocal.1
  -- the roots, each way round
  have hsourceRoot : profile.peerRoot (.ofSource profile.source) = profile.sourcePeer.root ∧
      specification.peerRoot (.ofSource profile.source) = profile.sourcePeer.root := by
    rw [hspec]
    unfold SyncProfile.sourcePeer
    cases hcase : profile.source <;>
      simp [PeerSide.ofSource, SyncProfile.peerRoot, ProcessSpecification.peerRoot]
  have hdestinationRoot :
      profile.peerRoot (PeerSide.ofSource profile.source).opposite = profile.destinationPeer.root ∧
        specification.peerRoot (PeerSide.ofSource profile.source).opposite =
          processDestinationRoot isDir profile := by
    rw [hspec]
    unfold SyncProfile.destinationPeer
    cases hcase : profile.source <;>
      simp [PeerSide.ofSource, PeerSide.opposite, SyncProfile.peerRoot,
        ProcessSpecification.peerRoot, hmode]
  rw [← processDestinationRoot_components hmode hdestinationLocal hnul]
  have hsame : ∀ p q : PathBuf,
      (p.join journal.plan.relativePath).same (q.join action.relativePath) = true ↔
        p.components = q.components := by
    intro p q
    rw [hrecord.relativePath]
    exact PathBuf.same_join hnormal
  have hsourceUsed : ((profile.peerRoot journal.plan.affectedSide).join
      journal.plan.relativePath).same ((specification.peerRoot action.sourceSide).join
        action.relativePath) = true := by
    rw [hsame, hrecord.affectedSide, hside, hsourceRoot.1, hsourceRoot.2]
  have hdestinationUsed : ((profile.peerRoot journal.plan.affectedSide.opposite).join
      journal.plan.relativePath).same ((specification.peerRoot action.sourceSide.opposite).join
        action.relativePath) = true ↔
      (processDestinationRoot isDir profile).components =
        profile.destinationPeer.root.components := by
    rw [hsame, hrecord.affectedSide, hside, hdestinationRoot.1, hdestinationRoot.2]
    exact eq_comm
  rw [← hdestinationUsed]
  exact ⟨fun h => h.reportedDestination, fun h => ⟨hsourceUsed, h, hsourceUsed, h⟩⟩

/-! ### A destination that holds a copy already -/

def copyAction : PlanAction := ⟨1, ⟨[120]⟩, .copyToDestination, .peerA, some 5⟩

def copyJournal : ActionJournalEntry where
  plan := {
    actionId := 1
    relativePath := ⟨[120]⟩
    operation := .copyToDestination
    affectedSide := .peerA
    plannedBytes := some 5
    preAction := ⟨.regularFile, 5, some 0, none, some zeroHash⟩ }
  lastPhase := "planned"
  started := false
  progressBytes := []
  outcome := .inProgress
  transferEvidence := none
  proofBoundary := none
  removalResult := none
  recoveryEvidence := none
  recoveryResolutionEvidence := none

theorem copyJournal_records : copyJournal.plan.Records copyAction := ⟨rfl, rfl, rfl, rfl⟩

/-- `/b/a` is not there, and the report names `/b/x`, which is written. -/
theorem reported_paths_used_first : NamesPaths copyingProfile copyJournal
    ⟨[47, 97, 47, 120]⟩ ⟨[47, 98, 47, 120]⟩ := by
  have hspec : ProcessSpecification.fromProfile (fun _ => false) copyingProfile =
      .ok copyingSpecification := by
    decide +kernel
  exact (reported_paths_used_iff hspec rfl ⟨rfl, rfl⟩ copyJournal_records rfl rfl).mpr nofun

/-- `/b/a` is there: the action writes `/b/a/x`, the report names `/b/x`. -/
theorem reported_paths_not_used :
    ¬ ∀ (isDir : Directories) (profile : SyncProfile) (specification : ProcessSpecification)
      (action : PlanAction) (journal : ActionJournalEntry) (source destination : PathBuf),
      ProcessSpecification.fromProfile isDir profile = .ok specification →
        profile.mode = .oneWay → profile.peerA.isSsh = false ∧ profile.peerB.isSsh = false →
        journal.plan.Records action → specification.sourcePath action = .ok source →
        specification.destinationPath action = .ok destination →
          NamesPaths profile journal source destination := by
  intro h
  have hspec : ProcessSpecification.fromProfile (fun p => p = ⟨[47, 98, 47, 97]⟩) copyingProfile =
      .ok { copyingSpecification with
        destinationRoot := ⟨[47, 98, 47, 97]⟩
        peerBRoot := ⟨[47, 98, 47, 97]⟩ } := by
    decide +kernel
  have hnamed := h _ _ _ _ _ ⟨[47, 97, 47, 120]⟩ ⟨[47, 98, 47, 97, 47, 120]⟩ hspec rfl ⟨rfl, rfl⟩
    copyJournal_records rfl rfl
  have hdiffer : (RunReportItem.fromJournal copyingProfile copyJournal).destinationPath.same
      ⟨[47, 98, 47, 97, 47, 120]⟩ = false := by
    decide +kernel
  rw [hnamed.reportedDestination] at hdiffer
  cases hdiffer

end SyncPlus
