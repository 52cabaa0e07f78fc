import SyncPlus.MachineRules
import SyncPlus.ResolutionRuns

/-!
# Journaling a resolution run

A confirmed resolution run is journaled like an ordinary one: every action is planned
before the first is executed, and each execution is offered to the journal step by step.
The actions have a number and a plan record each (`ConfirmedResolutionRun.numbered`,
`ConfirmedResolutionRun.planned`). What is offered is accepted, but for one event: after a
copy both paths are looked at for the content of a file, and what is there instead, a
folder or a link, leaves the transfer without the sizes the journal asks for.
-/

namespace SyncPlus

/-! ## Numbers and plans -/

/-- `resolution_action_ids`, asked for the number at a path: its position, from one. -/
def resolutionActionIds (actions : List ConflictResolutionAction) (path : PathBuf) :
    Option ActionId :=
  (getByPath (·.1.relativePath) actions.zipIdx path).map fun numbered =>
    UInt64.ofNat (numbered.2 + 1)

/-- The side of a plan record: the first peer's for a decision that takes from neither. -/
def affectedSide (action : ConflictResolutionAction) : PeerSide :=
  action.sourceSide.getD .peerA

/-- `debug` is how a path is shown. -/
def resolutionPlanRecord (debug : PathBuf → String) (analysis : FreshAnalysis)
    (actionId : ActionId) (action : ConflictResolutionAction) :
    Except WorkflowError PlanRecord := do
  let item ← orError ((analysis.inventoryOf (affectedSide action)).item action.relativePath)
    (.invalidRun ("resolution action " ++ debug action.relativePath ++
      " is outside the fresh inventory"))
  return {
    actionId
    relativePath := action.relativePath
    operation := .copyToDestination
    affectedSide := affectedSide action
    plannedBytes := if item.itemType = .regularFile then some item.metadata.size else none
    preAction := {
      itemType := item.itemType
      size := item.metadata.size
      modifiedAtUnixNanos := unixNanos item.metadata.modifiedAt
      identity := none
      sha256 := item.contentFingerprint } }

/-! ## The journaled executor -/

/-- What the run keeps of the answers of the world: whether the executor could be set up,
what became of an execution, and what its two paths held after a copy. -/
inductive ResolutionAnswer where
  | prepared (executor : Bool)
  | executed (action : ConflictResolutionAction) (outcome : Except ActionReason Unit)
  | transferred (action : ConflictResolutionAction) (source destination : PathObservation)

/-- The world of a resolution run. -/
structure ResolutionSurroundings (σ : Type) where
  prepare : σ → Bool × σ
  execute : ConflictResolutionAction → σ → Except ActionReason Unit × σ
  currentUnixNanos : σ → Int64 × σ
  observePaths : PathBuf → PathBuf → σ → (PathObservation × PathObservation) × σ

abbrev ResolutionProgram (σ : Type) := Program (Machine σ ResolutionAnswer)

section

variable {σ : Type} (env : ResolutionSurroundings σ) (debug : PathBuf → String)

/-- The evidence of what was seen at the paths. -/
def observedEvidence (now : Int64) (source destination : PathObservation) : RecoveryEvidence :=
  .new now none source.present destination.present false
    (source.content.map (·.size)) (destination.content.map (·.size))
    (source.content.map (·.sha256)) (destination.content.map (·.sha256))

/-- `empty_recovery_evidence`. -/
def emptyRecoveryEvidence (now : Int64) : RecoveryEvidence :=
  .new now none false false false none none none none

def peerRootOf (analysis : FreshAnalysis) : PeerSide → PathBuf
  | .peerA => analysis.profile.peerA.root
  | .peerB => analysis.profile.peerB.root

/-- The paths a boundary is observed at, of an action that has two sides. -/
def boundaryPaths (analysis : FreshAnalysis) (action : ConflictResolutionAction) :
    Option (PathBuf × PathBuf) :=
  action.sourceSide.bind fun source => action.targetSide.map fun target =>
    ((peerRootOf analysis source).join action.relativePath,
      (peerRootOf analysis target).join action.relativePath)

/-- `boundary_evidence`; `seen` keeps what was seen, or nothing. -/
def boundaryEvidence {ε : Type} (analysis : FreshAnalysis) (action : ConflictResolutionAction)
    (seen : Option (PathObservation → PathObservation → ResolutionAnswer)) :
    ResolutionProgram σ ε RecoveryEvidence := do
  match boundaryPaths analysis action with
  | none =>
      let now ← inquire env.currentUnixNanos
      return emptyRecoveryEvidence now
  | some (source, destination) =>
      let (source, destination) ← inquire (env.observePaths source destination)
      seen.elim (pure ()) fun answer => record (answer source destination)
      let now ← inquire env.currentUnixNanos
      return observedEvidence now source destination

/-- An event that the executor offers. -/
def offerEvent (event : JournalEvent) : ResolutionProgram σ ActionReason Unit := do
  match ← appendEvent event with
  | .ok () => return ()
  | .error _ => .fail .interruptedBoundary

def recordRecoveryReview (analysis : FreshAnalysis) (actionId : ActionId)
    (action : ConflictResolutionAction) : ResolutionProgram σ ActionReason Unit := do
  let evidence ← boundaryEvidence env analysis action none
  offerEvent (.recoveryReview actionId .interruptedBoundary evidence)

/-- The event that settles an execution. -/
def settlingEvent (actionId : ActionId) : Except ActionReason Unit → JournalEvent
  | .ok () => .completed actionId
  | .error reason => .unresolved actionId reason

def finish (analysis : FreshAnalysis) (actionId : ActionId) (action : ConflictResolutionAction)
    (outcome : Except ActionReason Unit) : ResolutionProgram σ ActionReason Unit := do
  match ← appendEvent (settlingEvent actionId outcome) with
  | .ok () => return ()
  | .error _ => recordRecoveryReview env analysis actionId action

/-- The boundary of a copy that was executed. -/
def verifyTransferred (analysis : FreshAnalysis) (actionId : ActionId)
    (action : ConflictResolutionAction) : ResolutionProgram σ ActionReason Unit := do
  let evidence ← boundaryEvidence env analysis action (some (.transferred action))
  match ← appendEvent (.transferVerified actionId evidence true) with
  | .ok () => return ()
  | .error _ => do
      let _ ← (recordRecoveryReview env analysis actionId action).attempt
      .fail .interruptedBoundary

def executeJournaled (analysis : FreshAnalysis) (actionId : ActionId)
    (action : ConflictResolutionAction) : ResolutionProgram σ ActionReason Unit := do
  offerEvent (.started actionId)
  let result ← ask (env.execute action) (.executed action)
  (if result.isOk = true ∧ action.operation = .copyWholeFile then
    verifyTransferred env analysis actionId action else pure ())
  match ← (finish env analysis actionId action result).attempt with
  | .ok () => .ofExcept result
  | .error (_ : ActionReason) => .fail .interruptedBoundary

def deferJournaled (actionId : ActionId) : ResolutionProgram σ ActionReason Unit := do
  offerEvent (.started actionId)
  offerEvent (.deferred actionId)

def cancelJournaled (actionId : ActionId) : ResolutionProgram σ ActionReason Unit :=
  offerEvent (.cancelled actionId)

/-! ## The run -/

inductive ResolutionRunOutcome where
  | completed
  | deferred
  | unresolved (reason : ActionReason)
  deriving DecidableEq

structure ResolutionRunResult where
  relativePath : PathBuf
  outcome : ResolutionRunOutcome
  preservesItem : Bool
  deriving DecidableEq

def ResolutionRunOutcome.stops : ResolutionRunOutcome → Bool
  | .unresolved .cancellationRequested | .unresolved .interruptedBoundary => true
  | _ => false

/-- The result of an action with this outcome. -/
def ConflictResolutionAction.result (action : ConflictResolutionAction)
    (outcome : ResolutionRunOutcome) : ResolutionRunResult where
  relativePath := action.relativePath
  outcome
  preservesItem := outcome ≠ .completed || action.resolution = .preserveBoth ||
    action.resolution = .renamePreserveForReview

/-- The outcome of an attempt, when it succeeds and when it fails. -/
def ResolutionRunOutcome.ofAttempt (succeeded : ResolutionRunOutcome) :
    Except ActionReason Unit → ResolutionRunOutcome
  | .ok () => succeeded
  | .error reason => .unresolved reason

variable (analysis : FreshAnalysis) (number : ConflictResolutionAction → ActionId)

/-- One action of the loop. -/
def attemptAction {ε : Type} (action : ConflictResolutionAction) :
    ResolutionProgram σ ε ResolutionRunOutcome :=
  if action.resolution = .defer then do
    return .ofAttempt .deferred (← (deferJournaled (number action)).attempt)
  else do
    return .ofAttempt .completed
      (← (executeJournaled env analysis (number action) action).attempt)

/-- The actions after one that stopped the run. -/
def cancelAll {ε : Type} : List ConflictResolutionAction →
    ResolutionProgram σ ε (List ResolutionRunResult)
  | [] => return []
  | action :: rest => do
      let outcome ← (cancelJournaled (number action)).attempt
      let results ← cancelAll rest
      return ⟨action.relativePath, .ofAttempt (.unresolved .cancellationRequested) outcome, true⟩ ::
        results

/-- `ConfirmedResolutionRun::execute`. -/
def executeActions {ε : Type} : List ConflictResolutionAction →
    ResolutionProgram σ ε (List ResolutionRunResult)
  | [] => return []
  | action :: rest => do
      let outcome ← attemptAction env analysis number action
      let results ← (if outcome.stops = true then cancelAll number rest else executeActions rest)
      return action.result outcome :: results

/-- `record_resolution_setup_failure`. -/
def recordSetupFailure (reason : ActionReason) :
    List ConflictResolutionAction → ResolutionProgram σ WorkflowError Unit :=
  .forEach fun action => do
    journal (.started (number action))
    if action.resolution = .defer then journal (.deferred (number action))
    else journal (.unresolved (number action) reason)

/-- Journal every action before the first is executed. -/
def persistResolutions : List ConflictResolutionAction → ResolutionProgram σ WorkflowError Unit :=
  .forEach fun action => do
    let plan ← .ofExcept (resolutionPlanRecord debug analysis (number action) action)
    journal (.planned plan)

end

namespace ConfirmedResolutionRun

/-- The number of an action. The run stops at an action without one. -/
def number (confirmed : ConfirmedResolutionRun) (action : ConflictResolutionAction) : ActionId :=
  (resolutionActionIds confirmed.actions action.relativePath).getD 0

/-- What is journaled of a confirmed run: its plan, and its execution or, where the
executor cannot be set up, that it failed. -/
def journalRun {σ : Type} (env : ResolutionSurroundings σ) (debug : PathBuf → String)
    (confirmed : ConfirmedResolutionRun) :
    ResolutionProgram σ WorkflowError (List ResolutionRunResult) := do
  persistResolutions debug confirmed.freshAnalysis confirmed.number confirmed.actions
  if ← ask env.prepare .prepared then
    executeActions env confirmed.freshAnalysis confirmed.number confirmed.actions
  else do
    recordSetupFailure confirmed.number .transferFailed confirmed.actions
    return []

/-! ## Numbers and plan records -/

variable {confirmed : ConfirmedResolutionRun} {action : ConflictResolutionAction}
  {debug : PathBuf → String}

/-- **Every action has the number of its position.** -/
theorem resolutionActionIds_getElem (confirmed : ConfirmedResolutionRun) {i : Nat}
    (hi : i < confirmed.actions.length) :
    resolutionActionIds confirmed.actions confirmed.actions[i].relativePath =
      some (UInt64.ofNat (i + 1)) := by
  unfold resolutionActionIds
  have hmem : (confirmed.actions[i], i) ∈ confirmed.actions.zipIdx := by
    rw [List.mk_mem_zipIdx_iff_getElem?, List.getElem?_eq_getElem hi]
  cases hfound : getByPath (·.1.relativePath) confirmed.actions.zipIdx
      confirmed.actions[i].relativePath with
  | none => exact absurd rfl (getByPath_eq_none.mp hfound _ hmem)
  | some found =>
      obtain ⟨hfoundMem, hpath⟩ := getByPath_mem hfound
      obtain ⟨action, j⟩ := found
      rw [List.mk_mem_zipIdx_iff_getElem?] at hfoundMem
      obtain ⟨hj, rfl⟩ := List.getElem?_eq_some_iff.mp hfoundMem
      have hindex : j = i := by
        have hdistinct := confirmed.distinct
        rw [List.nodup_iff_injective_getElem] at hdistinct
        have heq := @hdistinct ⟨j, by simpa using hj⟩ ⟨i, by simpa using hi⟩ (by simpa using hpath)
        exact congrArg Fin.val heq
      subst hindex
      rfl

theorem number_getElem {i : Nat} (hi : i < confirmed.actions.length) :
    confirmed.number confirmed.actions[i] = UInt64.ofNat (i + 1) := by
  rw [number, resolutionActionIds_getElem confirmed hi, Option.getD_some]

theorem fits_number (bounded : confirmed.actions.length < 2 ^ 63)
    (haction : action ∈ confirmed.actions) : FitsI64 (confirmed.number action) := by
  obtain ⟨i, hi, rfl⟩ := List.getElem_of_mem haction
  rw [number_getElem hi, FitsI64, UInt64.toNat_ofNat']
  omega

/-- The numbers go up along the plan. -/
theorem number_lt (bounded : confirmed.actions.length < 2 ^ 63) :
    confirmed.actions.Pairwise fun action action' =>
      confirmed.number action < confirmed.number action' := by
  rw [List.pairwise_iff_getElem]
  intro i j hi hj hlt
  rw [number_getElem hi, number_getElem hj, UInt64.lt_iff_toNat_lt, UInt64.toNat_ofNat',
    UInt64.toNat_ofNat']
  omega

/-- **Every action has a plan record**: of the item its side has at its path. -/
theorem planned (haction : action ∈ confirmed.actions) (id : ActionId) :
    ∃ plan item, resolutionPlanRecord debug confirmed.freshAnalysis id action = .ok plan ∧
      (confirmed.freshAnalysis.inventoryOf (affectedSide action)).item action.relativePath =
        some item ∧
      plan.actionId = id ∧ plan.operation = .copyToDestination ∧
      plan.preAction.size = item.metadata.size ∧
      plan.preAction.sha256 = item.contentFingerprint ∧ plan.preAction.identity = none := by
  obtain ⟨item, hitem⟩ := Option.isSome_iff_exists.mp
    (item_isSome haction (affectedSide action))
  unfold resolutionPlanRecord
  rw [hitem, orError_some, ok_bind]
  exact ⟨_, item, rfl, rfl, rfl, rfl, rfl, rfl, rfl⟩

end ConfirmedResolutionRun

end SyncPlus
