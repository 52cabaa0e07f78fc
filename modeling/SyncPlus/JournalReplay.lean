import SyncPlus.JournalWrite
import SyncPlus.Lib.KeyedReplay

/-!
# Reading the journal back

The read side: the rows of a run, in action and sequence order, replayed
into one entry an action. The replay trusts nothing the writer checked.
It has a transition table of its own, decodes every evidence value from
its columns and validates it again.
-/

namespace SyncPlus

open Std (ExtTreeMap)

/-! ## Decoding evidence -/

def corrupt (reason : String) : StorageError := .corruptEvidence reason

/-- A file identity is stored in two columns, both or neither. -/
def decodeIdentity (message : String) :
    Option UInt64 → Option UInt64 → Except StorageError (Option FileIdentity)
  | some device, some inode => .ok (some { device, inode })
  | none, none => .ok none
  | _, _ => .error (corrupt message)

/-- The content proof of a source, from its size and hash, both or
neither. -/
def decodeContent : Option UInt64 → Option Sha256 →
    Except StorageError (Option ContentProof)
  | some size, some sha256 => .ok (some { size, sha256 })
  | none, none => .ok none
  | _, _ => .error (corrupt "recovery provenance content proof is incomplete")

/-- The recovery method of a row: Trash where no method is stored. -/
def decodeRecoveryMethod : Option String → Except StorageError DeletionMethod
  | some method => decodeDeletionMethod method
  | none => .ok .trash

/-- A provenance is stored without its action, recovery method,
verification state, content and symlink target. They are taken from
other columns of the row, or are none. -/
def decodeRecoveryProvenance (row : StoredEvent) :
    Except StorageError (Option RecoveryProvenance) :=
  if row.recoveryProvenancePeer.isSome ∨ row.recoveryProvenanceRoot.isSome ∨
      row.recoveryProvenanceRelative.isSome ∨ row.recoveryProvenanceRunId.isSome ∨
      row.recoveryProvenanceRemovedAtUnixNanos.isSome ∨
      row.recoveryProvenanceItemType.isSome ∨ row.recoveryProvenanceDevice.isSome ∨
      row.recoveryProvenanceInode.isSome
  then do
    let peer ← orError row.recoveryProvenancePeer
      (corrupt "recovery provenance has no peer")
    let root ← orError row.recoveryProvenanceRoot
      (corrupt "recovery provenance has no original root")
    let relative ← orError row.recoveryProvenanceRelative
      (corrupt "recovery provenance has no relative path")
    let runId ← orError row.recoveryProvenanceRunId
      (corrupt "recovery provenance has no run id")
    let removedAt ← orError row.recoveryProvenanceRemovedAtUnixNanos
      (corrupt "recovery provenance has no removal time")
    let itemTypeText ← orError row.recoveryProvenanceItemType
      (corrupt "recovery provenance has no item type")
    let itemType ← decodeItemType itemTypeText
    let sourceIdentity ← decodeIdentity "recovery provenance identity is incomplete"
      row.recoveryProvenanceDevice row.recoveryProvenanceInode
    let sourceSha256 ← decodeHash row.recoverySourceSha256
    let content ← decodeContent row.recoverySourceSize sourceSha256
    let recoveryMethod ← decodeRecoveryMethod row.deletionMethod
    let verificationState : RecoveryVerificationState :=
      if row.phase = "removal_completed" then .verified else .reviewRequired
    let runId ← orError (tryU64 runId)
      (corrupt "recovery provenance run id is invalid")
    match RecoveryProvenance.fromRecordWithDetails (some row.actionId) peer
        (blobToPath root) (blobToPath relative) ⟨runId⟩ removedAt recoveryMethod
        verificationState itemType content sourceIdentity none with
    | .ok provenance => .ok (some provenance)
    | .error error => .error (corrupt error.text)
  else .ok none

/-- The size and hash of the recovered item, added to the evidence. -/
def decodeRecoveryProof (evidence : RecoveryEvidence) :
    Option UInt64 → Option Blob → Except StorageError RecoveryEvidence
  | some size, sha256 => (decodeHash sha256).map (evidence.withRecoveryProof size)
  | none, some _ => .error (corrupt "recovery item content proof is incomplete")
  | none, none => .ok evidence

def decodeRecoveryEvidence (row : StoredEvent) :
    Except StorageError RecoveryEvidence := do
  let observedAtUnixNanos ← orError row.recoveryObservedAtUnixNanos
    (corrupt "recovery review has no observation time")
  let sourcePresent ← orError row.recoverySourcePresent
    (corrupt "recovery review has no source presence evidence")
  let destinationPresent ← orError row.recoveryDestinationPresent
    (corrupt "recovery review has no destination presence evidence")
  let recoveryPresent ← orError row.recoveryPresent
    (corrupt "recovery review has no recovery presence evidence")
  let sourceSha256 ← decodeHash row.recoverySourceSha256
  let destinationSha256 ← decodeHash row.recoveryDestinationSha256
  let evidence := RecoveryEvidence.new observedAtUnixNanos
    (row.recoveryTarget.map blobToPath) sourcePresent destinationPresent
    recoveryPresent row.recoverySourceSize row.recoveryDestinationSize
    sourceSha256 destinationSha256
  let evidence ← decodeRecoveryProof evidence row.recoveryItemSize row.recoveryItemSha256
  let provenance ← decodeRecoveryProvenance row
  match provenance with
  | some provenance => .ok (evidence.withProvenance provenance)
  | none => .ok evidence

def decodeResolution (resolution : String) (row : StoredEvent) :
    Except StorageError RecoveryResolution :=
  if resolution = "completed" then
    (decodeRecoveryEvidence row).map .completed
  else do
    let reason ← orError (stripPrefix "unresolved:" resolution)
      (corrupt ("unknown recovery resolution " ++ resolution))
    (decodeReason reason).map .unresolved

/-! ## Validating a replayed boundary -/

def PlanActionKind.transfers (operation : PlanActionKind) : Bool :=
  operation ∈ [.copyToDestination, .overwriteDestination, .removeSourceAfterVerification]

def PlanActionKind.removesSource (operation : PlanActionKind) : Bool :=
  operation = .removeSourceAfterVerification

/-- The reader's transition table. -/
def mayReplay (entry : ActionJournalEntry) (nextPhase : String) : Bool :=
  match nextPhase with
  | "started" => entry.lastPhase = "planned"
  | "progress" => entry.lastPhase ∈ ["started", "progress"]
  | "transfer_verified" =>
      entry.plan.operation.transfers && entry.lastPhase ∈ ["started", "progress"] &&
        entry.transferEvidence.isNone
  | "proof_boundary" =>
      (!entry.plan.operation.removesSource && entry.lastPhase ∈ ["started", "progress"] ||
        entry.plan.operation.removesSource && entry.lastPhase = "transfer_verified" &&
          entry.transferEvidence.isSome) &&
        entry.proofBoundary.isNone
  | "removal_started" =>
      entry.lastPhase = "proof_boundary" && entry.proofBoundary.isSome
  | "removal_completed" =>
      entry.lastPhase = "removal_started" && entry.proofBoundary.isSome &&
        entry.removalResult.isNone
  | "recovery_review" =>
      entry.lastPhase ∈
          ["started", "progress", "proof_boundary", "removal_started",
            "transfer_verified"] &&
        entry.recoveryEvidence.isNone
  | "recovery_resolved" =>
      entry.lastPhase = "recovery_review" && entry.recoveryEvidence.isSome &&
        entry.recoveryResolutionEvidence.isNone
  | "cancelled" | "interrupted" =>
      entry.lastPhase = "planned" || entry.lastPhase ∈ ["started", "progress"]
  | "completed" | "failed" | "deferred" | "unresolved" =>
      entry.lastPhase ∈
        ["started", "progress", "transfer_verified", "proof_boundary",
          "removal_started"]
  | _ => false

def validateReplayedTransition (entry : ActionJournalEntry) (nextPhase : String) :
    Except StorageError Unit :=
  ensure (mayReplay entry nextPhase = true)
    (corrupt (nextPhase ++ " cannot follow " ++ entry.lastPhase ++
      " during journal replay"))

/-- The plan is for a regular file, whose content has to be proved. -/
def PlanRecord.regular (plan : PlanRecord) : Bool :=
  plan.preAction.itemType = .regularFile

/-- A removal result's provenance belongs to the action, its method and
a verified removal. -/
def ValidProvenance (entry : ActionJournalEntry) (method : DeletionMethod)
    (evidence : RecoveryEvidence) : Prop :=
  ∀ provenance ∈ evidence.provenance,
    provenance.actionId = some entry.plan.actionId ∧
      provenance.recoveryMethod = method ∧ provenance.verificationState = .verified

instance (entry : ActionJournalEntry) (method : DeletionMethod)
    (evidence : RecoveryEvidence) : Decidable (ValidProvenance entry method evidence) :=
  inferInstanceAs (Decidable (∀ provenance ∈ evidence.provenance, _))

def validateRemovalEvidence (entry : ActionJournalEntry) (method : DeletionMethod)
    (evidence : RecoveryEvidence) : Except StorageError Unit :=
  ensure (evidence.sourcePresent = false ∧ evidence.destinationPresent = true ∧
      evidence.destinationSize.isSome = true ∧
      (entry.plan.regular = true → evidence.destinationSha256.isSome = true) ∧
      (entry.plan.regular = true → evidence.provenance.isSome = true →
        evidence.recoverySize.isSome = true ∧ evidence.recoverySha256.isSome = true) ∧
      ValidProvenance entry method evidence ∧ ValidRecovery method evidence)
    (corrupt <| "removal result does not prove source absence and the selected recovery " ++
      "outcome")

def validateTransferEvidence (entry : ActionJournalEntry)
    (evidence : RecoveryEvidence) : Except StorageError Unit :=
  ensure (evidence.sourcePresent = true ∧ evidence.destinationPresent = true ∧
      evidence.recoveryPresent = false ∧ evidence.recoveryTarget = none ∧
      evidence.sourceSize = some entry.plan.preAction.size ∧
      (entry.plan.regular = true → evidence.sourceSha256 = entry.plan.preAction.sha256) ∧
      evidence.destinationSize.isSome = true ∧
      (entry.plan.regular = true → evidence.destinationSha256.isSome = true))
    (corrupt "verified transfer boundary does not match the frozen source proof")

def validateReplayedDeletionMethod (entry : ActionJournalEntry)
    (method : DeletionMethod) (configuredDeletionMethod : Option String) :
    Except StorageError Unit :=
  ensure (entry.plan.operation = .removeSourceAfterVerification ∧
      configuredDeletionMethod = some (encodeDeletionMethod method))
    (corrupt "replayed removal boundary does not match the frozen Safe Delete method")

/-! ## One row -/

/-- The entry a planned row opens. -/
def replayPlanned (existing : Option ActionJournalEntry) (row : StoredEvent) :
    Except StorageError ActionJournalEntry := do
  let path ← orError row.relativePath (corrupt "planned action has no path")
  let operationText ← orError row.operation (corrupt "planned action has no operation")
  let operation ← decodeOperation operationText
  let sideText ← orError row.affectedSide
    (corrupt "planned action has no affected side")
  let affectedSide ← decodeSide sideText
  let itemTypeText ← orError row.preItemType
    (corrupt "planned action has no item type")
  let itemType ← decodeItemType itemTypeText
  let size ← orError row.preSize (corrupt "planned action has no size")
  let sha256 ← decodeDigest "stored SHA-256 digest has the wrong length" row.preSha256
  ensure (existing = none) (corrupt "action has more than one planned boundary")
  let identity ← decodeIdentity "stored file identity is incomplete" row.preDevice
    row.preInode
  return {
    plan := {
      actionId := row.actionId
      relativePath := blobToPath path
      operation
      affectedSide
      plannedBytes := row.plannedBytes
      preAction := {
        itemType, size, identity, sha256
        modifiedAtUnixNanos := row.preModifiedAtUnixNanos } }
    lastPhase := "planned"
    started := false
    progressBytes := []
    outcome := .inProgress
    transferEvidence := none
    proofBoundary := none
    removalResult := none
    recoveryEvidence := none
    recoveryResolutionEvidence := none }

def replayTransferVerified (entry : ActionJournalEntry) (row : StoredEvent) :
    Except StorageError ActionJournalEntry := do
  ensure (entry.plan.operation.transfers = true ∧ row.proofMetadataVerified = some true)
    (corrupt "verified transfer boundary needs a supported action and metadata proof")
  let evidence ← decodeRecoveryEvidence row
  validateTransferEvidence entry evidence
  return { entry with transferEvidence := some evidence, outcome := .inProgress }

def replayProofBoundary (entry : ActionJournalEntry) (row : StoredEvent)
    (configuredDeletionMethod : Option String) :
    Except StorageError ActionJournalEntry := do
  ensure (entry.plan.operation = .removeSourceAfterVerification →
      entry.transferEvidence.isSome = true)
    (corrupt "Safe Delete proof boundary has no verified transfer boundary")
  let methodText ← orError row.deletionMethod
    (corrupt "proof boundary has no deletion method")
  let method ← decodeDeletionMethod methodText
  validateReplayedDeletionMethod entry method configuredDeletionMethod
  ensure (row.proofMetadataVerified = some true ∧ row.proofDestinationSize.isSome = true ∧
      (entry.plan.regular = true → row.proofDestinationSha256.isSome = true))
    (corrupt "proof boundary is missing metadata or destination content evidence")
  let evidence ← decodeRecoveryEvidence row
  let proofDestinationSize ← orError row.proofDestinationSize
    (corrupt "proof boundary has no destination size")
  let proofDestinationSha256 ← decodeHash row.proofDestinationSha256
  ensure (entry.plan.regular = true → proofDestinationSha256.isSome = true)
    (corrupt "proof boundary has no destination SHA-256")
  ensure (evidence.sourcePresent = true ∧ evidence.destinationPresent = true ∧
      evidence.recoveryPresent = false ∧ evidence.recoveryTarget = none ∧
      evidence.sourceSize.isSome = true ∧
      (entry.plan.regular = true → evidence.sourceSha256.isSome = true) ∧
      evidence.destinationSize = some proofDestinationSize ∧
      evidence.destinationSha256 = proofDestinationSha256)
    (corrupt "proof boundary has incomplete source or destination evidence")
  return { entry with
    proofBoundary := some evidence
    outcome := .recoveryReview .interruptedBoundary }

def replayRemovalStarted (entry : ActionJournalEntry) (row : StoredEvent)
    (configuredDeletionMethod : Option String) :
    Except StorageError ActionJournalEntry := do
  let methodText ← orError row.deletionMethod
    (corrupt "removal start has no deletion method")
  let method ← decodeDeletionMethod methodText
  validateReplayedDeletionMethod entry method configuredDeletionMethod
  return { entry with outcome := .recoveryReview .interruptedBoundary }

def replayRemovalCompleted (entry : ActionJournalEntry) (row : StoredEvent)
    (configuredDeletionMethod : Option String) :
    Except StorageError ActionJournalEntry := do
  let methodText ← orError row.deletionMethod
    (corrupt "removal result has no deletion method")
  let evidence ← decodeRecoveryEvidence row
  let method ← decodeDeletionMethod methodText
  validateReplayedDeletionMethod entry method configuredDeletionMethod
  validateRemovalEvidence entry method evidence
  ensure (∀ proof ∈ entry.proofBoundary,
      proof.destinationSize = evidence.destinationSize ∧
        proof.destinationSha256 = evidence.destinationSha256)
    (corrupt "removal result does not match the persisted proof boundary")
  return { entry with
    removalResult := some { deletionMethod := method, evidence }
    outcome := .completed }

def replayRecoveryResolved (entry : ActionJournalEntry) (row : StoredEvent) :
    Except StorageError ActionJournalEntry := do
  let text ← orError row.resolution (corrupt "recovery resolution has no outcome")
  let resolution ← decodeResolution text row
  match resolution with
  | .completed evidence => do
      ensure (entry.plan.operation ≠ .removeSourceAfterVerification)
        (corrupt "Safe Delete action has an unverified recovery completion")
      ensure (∀ review ∈ entry.recoveryEvidence, evidence.isNewerThan review = true)
        (corrupt "recovery resolution evidence is not newer than its review")
      return { entry with
        recoveryResolutionEvidence := some evidence
        outcome := .completed }
  | .unresolved reason => return { entry with outcome := .unresolved reason }

def replayBoundary (entry : ActionJournalEntry) (row : StoredEvent)
    (configuredDeletionMethod : Option String) :
    Except StorageError ActionJournalEntry :=
  match row.phase with
  | "started" => .ok { entry with started := true }
  | "progress" => do
      let bytes ← orError row.progressBytes
        (corrupt "progress boundary has no byte count")
      return { entry with progressBytes := entry.progressBytes ++ [bytes] }
  | "transfer_verified" => replayTransferVerified entry row
  | "proof_boundary" => replayProofBoundary entry row configuredDeletionMethod
  | "removal_started" => replayRemovalStarted entry row configuredDeletionMethod
  | "removal_completed" => replayRemovalCompleted entry row configuredDeletionMethod
  | "completed" => do
      ensure (entry.plan.operation ≠ .removeSourceAfterVerification)
        (corrupt "Safe Delete action has generic completion without a removal result")
      return { entry with outcome := .completed }
  | "failed" => do
      let text ← orError row.reason (corrupt "failed boundary has no reason")
      let reason ← decodeReason text
      return { entry with outcome := .failed reason }
  | "cancelled" => .ok { entry with outcome := .cancelled }
  | "interrupted" => .ok { entry with outcome := .interrupted }
  | "deferred" => .ok { entry with outcome := .deferred }
  | "unresolved" => do
      let text ← orError row.reason (corrupt "unresolved boundary has no reason")
      let reason ← decodeReason text
      return { entry with outcome := .unresolved reason }
  | "recovery_review" => do
      let evidence ← decodeRecoveryEvidence row
      let text ← orError row.reason (corrupt "recovery review boundary has no reason")
      let reason ← decodeReason text
      return { entry with
        recoveryEvidence := some evidence
        outcome := .recoveryReview reason }
  | "recovery_resolved" => replayRecoveryResolved entry row
  | phase => .error (corrupt ("unknown journal phase " ++ phase))

/-- What one row makes of its action's entry. -/
def replayEntry (configuredDeletionMethod : Option String)
    (existing : Option ActionJournalEntry) (row : StoredEvent) :
    Except StorageError ActionJournalEntry :=
  if row.phase = "planned" then replayPlanned existing row
  else do
    let entry ← orError existing (corrupt "non-planned boundary has no planned action")
    validateReplayedTransition entry row.phase
    let entry ← replayBoundary entry row configuredDeletionMethod
    return { entry with lastPhase := row.phase }

def applyStoredEvent (configuredDeletionMethod : Option String) :
    ExtTreeMap ActionId ActionJournalEntry → StoredEvent →
      Except StorageError (ExtTreeMap ActionId ActionJournalEntry) :=
  applyKeyed (·.actionId) (replayEntry configuredDeletionMethod)

/-! ## The whole journal -/

/-- `ORDER BY action_id, sequence`. -/
def rowOrder (r s : ActionEventRow) : Prop :=
  r.actionId < s.actionId ∨ r.actionId = s.actionId ∧ r.sequence ≤ s.sequence

instance : DecidableRel rowOrder := fun _ _ =>
  inferInstanceAs (Decidable (_ ∨ _ ∧ _))

instance : Std.Total rowOrder where
  total r s := by
    unfold rowOrder
    by_cases h : r.actionId = s.actionId
    · rcases Int.le_total r.sequence s.sequence with hs | hs
      · exact .inl (.inr ⟨h, hs⟩)
      · exact .inr (.inr ⟨h.symm, hs⟩)
    · rcases UInt64.lt_or_lt_of_ne h with h | h
      · exact .inl (.inl h)
      · exact .inr (.inl h)

instance : IsTrans ActionEventRow rowOrder where
  trans r s t := by
    rintro (h | ⟨h, hs⟩) (h' | ⟨h', hs'⟩)
    · exact .inl (UInt64.lt_trans h h')
    · exact .inl (h' ▸ h)
    · exact .inl (h ▸ h')
    · exact .inr ⟨h.trans h', Int.le_trans hs hs'⟩

/-- `load_journal`, for a run that has a snapshot. -/
def RunJournal.loadJournal (run : RunJournal) :
    Except StorageError (List ActionJournalEntry) := do
  let rows ← (run.actionEvents.insertionSort rowOrder).mapM StoredEvent.ofRow
  let entries ← rows.foldlM (applyStoredEvent run.deletionMethod) ∅
  return intoValues entries

end SyncPlus
