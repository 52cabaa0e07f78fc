import SyncPlus.Columns

/-!
# Rows of the event table

The journal is a table of rows, one an event. `EventFields.fromEvent`
is the writer's side: which columns an event fills. `StoredEvent.ofRow`
is the reader's: the same columns under the types the reader asks for.
Between the two an unsigned size that was cast to a signed column comes
back only when it is below 2⁶³ (`ofRow_eq_ok`).
-/

namespace SyncPlus

/-- The columns an event fills; every column but the phase may be empty. -/
structure EventFields where
  phase : String
  relativePath : Option Blob := none
  operation : Option String := none
  affectedSide : Option String := none
  plannedBytes : Option Int64 := none
  preItemType : Option String := none
  preSize : Option Int64 := none
  preModifiedAtUnixNanos : Option Int64 := none
  preDevice : Option UInt64 := none
  preInode : Option UInt64 := none
  preSha256 : Option Blob := none
  progressBytes : Option Int64 := none
  reason : Option String := none
  recoveryObservedAtUnixNanos : Option Int64 := none
  recoveryTarget : Option Blob := none
  recoverySourcePresent : Option Int64 := none
  recoveryDestinationPresent : Option Int64 := none
  recoveryPresent : Option Int64 := none
  recoverySourceSize : Option Int64 := none
  recoveryDestinationSize : Option Int64 := none
  recoverySourceSha256 : Option Blob := none
  recoveryDestinationSha256 : Option Blob := none
  resolution : Option String := none
  proofDestinationSize : Option Int64 := none
  proofDestinationSha256 : Option Blob := none
  proofMetadataVerified : Option Int64 := none
  deletionMethod : Option String := none
  recoveryProvenancePeer : Option String := none
  recoveryProvenanceRoot : Option Blob := none
  recoveryProvenanceRelative : Option Blob := none
  recoveryProvenanceRunId : Option Int64 := none
  recoveryProvenanceRemovedAtUnixNanos : Option Int64 := none
  recoveryProvenanceItemType : Option String := none
  recoveryProvenanceDevice : Option UInt64 := none
  recoveryProvenanceInode : Option UInt64 := none
  recoveryItemSize : Option Int64 := none
  recoveryItemSha256 : Option Blob := none
  deriving DecidableEq

/-- The columns of an evidence value. -/
def setRecoveryFields (fields : EventFields) (evidence : RecoveryEvidence) :
    EventFields :=
  { fields with
    recoveryObservedAtUnixNanos := some evidence.observedAtUnixNanos
    recoveryTarget := evidence.recoveryTarget.map pathToBlob
    recoverySourcePresent := some (boolToInt evidence.sourcePresent)
    recoveryDestinationPresent := some (boolToInt evidence.destinationPresent)
    recoveryPresent := some (boolToInt evidence.recoveryPresent)
    recoverySourceSize := evidence.sourceSize.map UInt64.toInt64
    recoveryDestinationSize := evidence.destinationSize.map UInt64.toInt64
    recoverySourceSha256 := evidence.sourceSha256.map List.Vector.toList
    recoveryDestinationSha256 := evidence.destinationSha256.map List.Vector.toList
    recoveryItemSize := evidence.recoverySize.map UInt64.toInt64
    recoveryItemSha256 := evidence.recoverySha256.map List.Vector.toList
    recoveryProvenancePeer := evidence.provenance.map (·.peer)
    recoveryProvenanceRoot := evidence.provenance.map (pathToBlob ·.originalRoot)
    recoveryProvenanceRelative := evidence.provenance.map (pathToBlob ·.relativePath)
    recoveryProvenanceRunId := evidence.provenance.map (·.runId.value.toInt64)
    recoveryProvenanceRemovedAtUnixNanos :=
      evidence.provenance.map (·.removedAtUnixNanos)
    recoveryProvenanceItemType := evidence.provenance.map (encodeItemType ·.itemType)
    recoveryProvenanceDevice :=
      evidence.provenance.bind (·.sourceIdentity.map (·.device))
    recoveryProvenanceInode :=
      evidence.provenance.bind (·.sourceIdentity.map (·.inode)) }

def terminalFields (phase : String) (reason : ActionReason) : EventFields :=
  { phase, reason := some (encodeReason reason) }

def EventFields.fromEvent : JournalEvent → EventFields
  | .planned action =>
      { phase := "planned"
        relativePath := some (pathToBlob action.relativePath)
        operation := some (encodeOperation action.operation)
        affectedSide := some (encodeSide action.affectedSide)
        plannedBytes := action.plannedBytes.map UInt64.toInt64
        preItemType := some (encodeItemType action.preAction.itemType)
        preSize := some action.preAction.size.toInt64
        preModifiedAtUnixNanos := action.preAction.modifiedAtUnixNanos
        preDevice := action.preAction.identity.map (·.device)
        preInode := action.preAction.identity.map (·.inode)
        preSha256 := action.preAction.sha256.map List.Vector.toList }
  | .started _ => { phase := "started" }
  | .progress _ completedBytes =>
      { phase := "progress", progressBytes := some completedBytes.toInt64 }
  | .transferVerified _ evidence metadataVerified =>
      setRecoveryFields
        { phase := "transfer_verified"
          proofDestinationSize := evidence.destinationSize.map UInt64.toInt64
          proofDestinationSha256 := evidence.destinationSha256.map List.Vector.toList
          proofMetadataVerified := some (boolToInt metadataVerified) }
        evidence
  | .proofBoundary _ deletionMethod evidence metadataVerified =>
      setRecoveryFields
        { phase := "proof_boundary"
          deletionMethod := some (encodeDeletionMethod deletionMethod)
          proofDestinationSize := evidence.destinationSize.map UInt64.toInt64
          proofDestinationSha256 := evidence.destinationSha256.map List.Vector.toList
          proofMetadataVerified := some (boolToInt metadataVerified) }
        evidence
  | .removalStarted _ deletionMethod =>
      { phase := "removal_started"
        deletionMethod := some (encodeDeletionMethod deletionMethod) }
  | .removalCompleted _ result =>
      setRecoveryFields
        { phase := "removal_completed"
          deletionMethod := some (encodeDeletionMethod result.deletionMethod) }
        result.evidence
  | .completed _ => { phase := "completed" }
  | .failed _ reason => terminalFields "failed" reason
  | .cancelled _ => { phase := "cancelled" }
  | .interrupted _ => { phase := "interrupted" }
  | .deferred _ =>
      { phase := "deferred", reason := some (encodeReason .deferredForReview) }
  | .unresolved _ reason => terminalFields "unresolved" reason
  | .recoveryReview _ reason evidence =>
      setRecoveryFields (terminalFields "recovery_review" reason) evidence
  | .recoveryResolved _ resolution =>
      match resolution with
      | .completed evidence =>
          setRecoveryFields
            { phase := "recovery_resolved"
              resolution := some (encodeResolution resolution) }
            evidence
      | .unresolved _ =>
          { phase := "recovery_resolved"
            resolution := some (encodeResolution resolution) }

@[simp] theorem setRecoveryFields_phase (fields : EventFields)
    (evidence : RecoveryEvidence) :
    (setRecoveryFields fields evidence).phase = fields.phase := rfl

@[simp] theorem fromEvent_phase (event : JournalEvent) :
    (EventFields.fromEvent event).phase = eventPhase event := by
  cases event with
  | recoveryResolved actionId resolution => cases resolution <;> rfl
  | _ => rfl

/-- One row of `action_events`, less the run it belongs to. -/
structure ActionEventRow where
  actionId : ActionId
  sequence : Int
  fields : EventFields
  deriving DecidableEq

/-- The parameters of an insertion that the binding may refuse. -/
def bindFields (fields : EventFields) : Except StorageError Unit := do
  bindOptU64 fields.preDevice
  bindOptU64 fields.preInode
  bindOptU64 fields.recoveryProvenanceDevice
  bindOptU64 fields.recoveryProvenanceInode

/-! ## The reader's columns -/

structure StoredEvent where
  actionId : ActionId
  phase : String
  relativePath : Option Blob := none
  operation : Option String := none
  affectedSide : Option String := none
  plannedBytes : Option UInt64 := none
  preItemType : Option String := none
  preSize : Option UInt64 := none
  preModifiedAtUnixNanos : Option Int64 := none
  preDevice : Option UInt64 := none
  preInode : Option UInt64 := none
  preSha256 : Option Blob := none
  progressBytes : Option UInt64 := none
  reason : Option String := none
  recoveryObservedAtUnixNanos : Option Int64 := none
  recoveryTarget : Option Blob := none
  recoverySourcePresent : Option Bool := none
  recoveryDestinationPresent : Option Bool := none
  recoveryPresent : Option Bool := none
  recoverySourceSize : Option UInt64 := none
  recoveryDestinationSize : Option UInt64 := none
  recoverySourceSha256 : Option Blob := none
  recoveryDestinationSha256 : Option Blob := none
  resolution : Option String := none
  proofDestinationSize : Option UInt64 := none
  proofDestinationSha256 : Option Blob := none
  proofMetadataVerified : Option Bool := none
  deletionMethod : Option String := none
  recoveryProvenancePeer : Option String := none
  recoveryProvenanceRoot : Option Blob := none
  recoveryProvenanceRelative : Option Blob := none
  recoveryProvenanceRunId : Option Int64 := none
  recoveryProvenanceRemovedAtUnixNanos : Option Int64 := none
  recoveryProvenanceItemType : Option String := none
  recoveryProvenanceDevice : Option UInt64 := none
  recoveryProvenanceInode : Option UInt64 := none
  recoveryItemSize : Option UInt64 := none
  recoveryItemSha256 : Option Blob := none
  deriving DecidableEq

/-- Read one row, column by column in the order of the query. -/
def StoredEvent.ofRow (row : ActionEventRow) : Except StorageError StoredEvent := do
  let f := row.fields
  let plannedBytes ← fromSqlOptU64 6 f.plannedBytes
  let preSize ← fromSqlOptU64 8 f.preSize
  let progressBytes ← fromSqlOptU64 13 f.progressBytes
  let recoverySourceSize ← fromSqlOptU64 20 f.recoverySourceSize
  let recoveryDestinationSize ← fromSqlOptU64 21 f.recoveryDestinationSize
  let proofDestinationSize ← fromSqlOptU64 25 f.proofDestinationSize
  let recoveryItemSize ← fromSqlOptU64 37 f.recoveryItemSize
  return {
    actionId := row.actionId
    phase := f.phase
    relativePath := f.relativePath
    operation := f.operation
    affectedSide := f.affectedSide
    plannedBytes := plannedBytes
    preItemType := f.preItemType
    preSize := preSize
    preModifiedAtUnixNanos := f.preModifiedAtUnixNanos
    preDevice := f.preDevice
    preInode := f.preInode
    preSha256 := f.preSha256
    progressBytes := progressBytes
    reason := f.reason
    recoveryObservedAtUnixNanos := f.recoveryObservedAtUnixNanos
    recoveryTarget := f.recoveryTarget
    recoverySourcePresent := f.recoverySourcePresent.map fromSqlBool
    recoveryDestinationPresent := f.recoveryDestinationPresent.map fromSqlBool
    recoveryPresent := f.recoveryPresent.map fromSqlBool
    recoverySourceSize := recoverySourceSize
    recoveryDestinationSize := recoveryDestinationSize
    recoverySourceSha256 := f.recoverySourceSha256
    recoveryDestinationSha256 := f.recoveryDestinationSha256
    resolution := f.resolution
    proofDestinationSize := proofDestinationSize
    proofDestinationSha256 := f.proofDestinationSha256
    proofMetadataVerified := f.proofMetadataVerified.map fromSqlBool
    deletionMethod := f.deletionMethod
    recoveryProvenancePeer := f.recoveryProvenancePeer
    recoveryProvenanceRoot := f.recoveryProvenanceRoot
    recoveryProvenanceRelative := f.recoveryProvenanceRelative
    recoveryProvenanceRunId := f.recoveryProvenanceRunId
    recoveryProvenanceRemovedAtUnixNanos := f.recoveryProvenanceRemovedAtUnixNanos
    recoveryProvenanceItemType := f.recoveryProvenanceItemType
    recoveryProvenanceDevice := f.recoveryProvenanceDevice
    recoveryProvenanceInode := f.recoveryProvenanceInode
    recoveryItemSize := recoveryItemSize
    recoveryItemSha256 := f.recoveryItemSha256 }

/-! ## Reading back what was written -/

/-- The row with its integer columns read as the unsigned numbers of the
same bits. -/
def StoredEvent.bits (row : ActionEventRow) : StoredEvent :=
  let f := row.fields
  { actionId := row.actionId
    phase := f.phase
    relativePath := f.relativePath
    operation := f.operation
    affectedSide := f.affectedSide
    plannedBytes := f.plannedBytes.map Int64.toUInt64
    preItemType := f.preItemType
    preSize := f.preSize.map Int64.toUInt64
    preModifiedAtUnixNanos := f.preModifiedAtUnixNanos
    preDevice := f.preDevice
    preInode := f.preInode
    preSha256 := f.preSha256
    progressBytes := f.progressBytes.map Int64.toUInt64
    reason := f.reason
    recoveryObservedAtUnixNanos := f.recoveryObservedAtUnixNanos
    recoveryTarget := f.recoveryTarget
    recoverySourcePresent := f.recoverySourcePresent.map fromSqlBool
    recoveryDestinationPresent := f.recoveryDestinationPresent.map fromSqlBool
    recoveryPresent := f.recoveryPresent.map fromSqlBool
    recoverySourceSize := f.recoverySourceSize.map Int64.toUInt64
    recoveryDestinationSize := f.recoveryDestinationSize.map Int64.toUInt64
    recoverySourceSha256 := f.recoverySourceSha256
    recoveryDestinationSha256 := f.recoveryDestinationSha256
    resolution := f.resolution
    proofDestinationSize := f.proofDestinationSize.map Int64.toUInt64
    proofDestinationSha256 := f.proofDestinationSha256
    proofMetadataVerified := f.proofMetadataVerified.map fromSqlBool
    deletionMethod := f.deletionMethod
    recoveryProvenancePeer := f.recoveryProvenancePeer
    recoveryProvenanceRoot := f.recoveryProvenanceRoot
    recoveryProvenanceRelative := f.recoveryProvenanceRelative
    recoveryProvenanceRunId := f.recoveryProvenanceRunId
    recoveryProvenanceRemovedAtUnixNanos := f.recoveryProvenanceRemovedAtUnixNanos
    recoveryProvenanceItemType := f.recoveryProvenanceItemType
    recoveryProvenanceDevice := f.recoveryProvenanceDevice
    recoveryProvenanceInode := f.recoveryProvenanceInode
    recoveryItemSize := f.recoveryItemSize.map Int64.toUInt64
    recoveryItemSha256 := f.recoveryItemSha256 }

/-- The columns that are read as unsigned hold no negative number. -/
def EventFields.Fits (f : EventFields) : Prop :=
  ColumnFits f.plannedBytes ∧ ColumnFits f.preSize ∧ ColumnFits f.progressBytes ∧
    ColumnFits f.recoverySourceSize ∧ ColumnFits f.recoveryDestinationSize ∧
    ColumnFits f.proofDestinationSize ∧ ColumnFits f.recoveryItemSize

theorem ofRow_eq_ok {row : ActionEventRow} {stored : StoredEvent} :
    StoredEvent.ofRow row = .ok stored ↔
      row.fields.Fits ∧ stored = StoredEvent.bits row := by
  simp only [StoredEvent.ofRow, bind_eq_ok, fromSqlOptU64_eq_ok, EventFields.Fits]
  constructor
  · rintro ⟨_, ⟨h1, rfl⟩, _, ⟨h2, rfl⟩, _, ⟨h3, rfl⟩, _, ⟨h4, rfl⟩, _, ⟨h5, rfl⟩, _,
      ⟨h6, rfl⟩, _, ⟨h7, rfl⟩, h⟩
    exact ⟨⟨h1, h2, h3, h4, h5, h6, h7⟩, (Except.ok.inj h).symm⟩
  · rintro ⟨⟨h1, h2, h3, h4, h5, h6, h7⟩, rfl⟩
    exact ⟨_, ⟨h1, rfl⟩, _, ⟨h2, rfl⟩, _, ⟨h3, rfl⟩, _, ⟨h4, rfl⟩, _, ⟨h5, rfl⟩, _,
      ⟨h6, rfl⟩, _, ⟨h7, rfl⟩, rfl⟩

/-- Rows are read one by one; one that does not fit fails them all. -/
theorem mapM_ofRow_eq_ok {rows : List ActionEventRow} {stored : List StoredEvent} :
    rows.mapM StoredEvent.ofRow = .ok stored ↔
      (∀ row ∈ rows, row.fields.Fits) ∧ stored = rows.map StoredEvent.bits := by
  induction rows generalizing stored with
  | nil => simp [pure, Except.pure, eq_comm]
  | cons row rows ih =>
      simp only [List.mapM_cons, bind_eq_ok, ofRow_eq_ok, ih, List.forall_mem_cons,
        List.map_cons]
      constructor
      · rintro ⟨_, ⟨hrow, rfl⟩, _, ⟨hrows, rfl⟩, h⟩
        exact ⟨⟨hrow, hrows⟩, (Except.ok.inj h).symm⟩
      · rintro ⟨⟨hrow, hrows⟩, rfl⟩
        exact ⟨_, ⟨hrow, rfl⟩, _, ⟨hrows, rfl⟩, rfl⟩

end SyncPlus
