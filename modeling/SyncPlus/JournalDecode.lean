import SyncPlus.JournalAppend

/-!
# Decoding the evidence of a stored event

What the reader makes of the evidence columns of an event. Sizes, hashes,
presence flags and times come back as they were. A provenance does not:
five of its parts are not stored with it, and are read off other columns
of the row. `ProvenanceKept` says when that gives the same provenance
back, and `decodeRecoveryEvidence_storedOf` that this is all there is to
it.
-/

namespace SyncPlus

/-- The stored form of an event, its integer columns taken at face
value. -/
def storedOf (e : JournalEvent) : StoredEvent :=
  StoredEvent.bits
    { actionId := eventActionId e, sequence := 0, fields := EventFields.fromEvent e }

@[simp] theorem storedOf_actionId (e : JournalEvent) :
    (storedOf e).actionId = eventActionId e := rfl

@[simp] theorem storedOf_phase (e : JournalEvent) :
    (storedOf e).phase = eventPhase e :=
  fromEvent_phase e

@[simp] theorem storedOf_deletionMethod (e : JournalEvent) :
    (storedOf e).deletionMethod = (eventMethod e).map encodeDeletionMethod := by
  cases e with
  | recoveryResolved _ resolution => cases resolution <;> rfl
  | _ => rfl

/-! ## The evidence columns -/

/-- The stored event has the evidence columns of `evidence`. -/
structure Carries (s : StoredEvent) (evidence : RecoveryEvidence) : Prop where
  observed : s.recoveryObservedAtUnixNanos = some evidence.observedAtUnixNanos
  target : s.recoveryTarget.map blobToPath = evidence.recoveryTarget
  sourcePresent : s.recoverySourcePresent = some evidence.sourcePresent
  destinationPresent : s.recoveryDestinationPresent = some evidence.destinationPresent
  recoveryPresent : s.recoveryPresent = some evidence.recoveryPresent
  sourceSize : s.recoverySourceSize = evidence.sourceSize
  destinationSize : s.recoveryDestinationSize = evidence.destinationSize
  sourceSha256 : s.recoverySourceSha256 = evidence.sourceSha256.map List.Vector.toList
  destinationSha256 :
    s.recoveryDestinationSha256 = evidence.destinationSha256.map List.Vector.toList
  itemSize : s.recoveryItemSize = evidence.recoverySize
  itemSha256 : s.recoveryItemSha256 = evidence.recoverySha256.map List.Vector.toList
  peer : s.recoveryProvenancePeer = evidence.provenance.map (·.peer)
  root : s.recoveryProvenanceRoot =
    evidence.provenance.map (pathToBlob ·.originalRoot)
  relative : s.recoveryProvenanceRelative =
    evidence.provenance.map (pathToBlob ·.relativePath)
  runId : s.recoveryProvenanceRunId =
    evidence.provenance.map (·.runId.value.toInt64)
  removedAt : s.recoveryProvenanceRemovedAtUnixNanos =
    evidence.provenance.map (·.removedAtUnixNanos)
  itemType : s.recoveryProvenanceItemType =
    evidence.provenance.map (encodeItemType ·.itemType)
  device : s.recoveryProvenanceDevice =
    evidence.provenance.bind (·.sourceIdentity.map (·.device))
  inode : s.recoveryProvenanceInode =
    evidence.provenance.bind (·.sourceIdentity.map (·.inode))

theorem carries_bits {a : ActionId} {n : Int} {f : EventFields}
    {evidence : RecoveryEvidence} :
    Carries (StoredEvent.bits
      { actionId := a, sequence := n, fields := setRecoveryFields f evidence })
      evidence := by
  constructor <;> simp [StoredEvent.bits, setRecoveryFields, Function.comp_def]

theorem carries_storedOf {e : JournalEvent} {evidence : RecoveryEvidence}
    (h : evidenceOf e = some evidence) : Carries (storedOf e) evidence := by
  cases e with
  | transferVerified _ _ _ => cases h; exact carries_bits
  | proofBoundary _ _ _ _ => cases h; exact carries_bits
  | removalCompleted _ _ => cases h; exact carries_bits
  | recoveryReview _ _ _ => cases h; exact carries_bits
  | recoveryResolved _ resolution =>
      cases resolution with
      | completed _ => cases h; exact carries_bits
      | unresolved _ => cases h
  | _ => cases h

/-! ## The provenance -/

/-- Everything the reader takes from elsewhere is what the provenance
says. -/
structure ProvenanceKept (e : JournalEvent) (evidence : RecoveryEvidence)
    (provenance : RecoveryProvenance) : Prop where
  actionId : provenance.actionId = some (eventActionId e)
  runId : FitsI64 provenance.runId.value
  method : provenance.recoveryMethod = (eventMethod e).getD .trash
  state : provenance.verificationState =
    if eventPhase e = "removal_completed" then .verified else .reviewRequired
  content : decodeContent evidence.sourceSize evidence.sourceSha256 =
    .ok provenance.content
  target : provenance.symlinkTarget = none

theorem fromRecordWithDetails_eq_ok {actionId : Option ActionId} {peer : String}
    {root relative : PathBuf} {runId : RunId} {removedAt : Int64}
    {method : DeletionMethod} {state : RecoveryVerificationState} {itemType : ItemType}
    {content : Option ContentProof} {identity : Option FileIdentity}
    {target : Option PathBuf} {p : RecoveryProvenance}
    (h : RecoveryProvenance.fromRecordWithDetails actionId peer root relative runId
      removedAt method state itemType content identity target = .ok p) :
    p.actionId = actionId ∧ p.recoveryMethod = method ∧ p.verificationState = state ∧
      p.content = content ∧ p.symlinkTarget = target := by
  unfold RecoveryProvenance.fromRecordWithDetails at h
  split at h
  · split at h
    · split at h
      · cases h
        exact ⟨rfl, rfl, rfl, rfl, rfl⟩
      · cases h
    · cases h
  · cases h

section

variable {e : JournalEvent} {evidence : RecoveryEvidence}

/-- **When the provenance of an event comes back as it was written.** -/
theorem decodeRecoveryProvenance_storedOf (h : evidenceOf e = some evidence) :
    decodeRecoveryProvenance (storedOf e) = .ok evidence.provenance ↔
      ∀ p ∈ evidence.provenance, ProvenanceKept e evidence p := by
  have hc := carries_storedOf h
  unfold decodeRecoveryProvenance
  cases hp : evidence.provenance with
  | none =>
      simp [hc.peer, hc.root, hc.relative, hc.runId, hc.removedAt, hc.itemType, hc.device,
        hc.inode, hp]
  | some p =>
      have hidentity : decodeIdentity "recovery provenance identity is incomplete"
          (p.sourceIdentity.map (·.device)) (p.sourceIdentity.map (·.inode)) =
          .ok p.sourceIdentity := by
        cases p.sourceIdentity <;> rfl
      have hmethod : decodeRecoveryMethod ((eventMethod e).map encodeDeletionMethod) =
          .ok ((eventMethod e).getD .trash) := by
        cases eventMethod e <;> simp [decodeRecoveryMethod]
      simp only [hc.peer, hc.root, hc.relative, hc.runId, hc.removedAt, hc.itemType,
        hc.device, hc.inode, hp, Option.map_some, Option.isSome_some, true_or, if_true,
        orError_some, ok_bind, decodeItemType_encode, Option.bind_some, hidentity,
        hc.sourceSha256, decodeHash_toList, hc.sourceSize, storedOf_deletionMethod,
        hmethod, storedOf_phase, storedOf_actionId, bind_eq_ok, orError_eq_ok,
        tryU64_toInt64, blobToPath_pathToBlob, Option.mem_some_iff, forall_eq']
      constructor
      · rintro ⟨content, hcontent, _, ⟨hfits, rfl⟩, hrec⟩
        split at hrec
        · next q hq =>
          cases hrec
          obtain ⟨h1, h2, h3, h4, h5⟩ := fromRecordWithDetails_eq_ok hq
          exact ⟨h1, hfits, h2, h3, by rw [hcontent, h4], h5⟩
        · cases hrec
      · intro hk
        refine ⟨p.content, hk.content, p.runId.value, ⟨hk.runId, rfl⟩, ?_⟩
        have hself := fromRecordWithDetails_self p
        rw [hk.actionId, hk.method, hk.state, hk.target] at hself
        rw [hself]

theorem decodeRecoveryProof_self (evidence : RecoveryEvidence) :
    decodeRecoveryProof
        (RecoveryEvidence.new evidence.observedAtUnixNanos evidence.recoveryTarget
          evidence.sourcePresent evidence.destinationPresent evidence.recoveryPresent
          evidence.sourceSize evidence.destinationSize evidence.sourceSha256
          evidence.destinationSha256)
        evidence.recoverySize (evidence.recoverySha256.map List.Vector.toList) =
      .ok { evidence with provenance := none } := by
  obtain ⟨_, _, _, _, _, _, _, _, _, size, sha256, _, sized⟩ := evidence
  cases size with
  | none =>
      obtain rfl := sized rfl
      rfl
  | some size =>
      simp [decodeRecoveryProof, RecoveryEvidence.withRecoveryProof,
        RecoveryEvidence.new, Except.map]

/-- **When the evidence of an event comes back as it was written.** -/
theorem decodeRecoveryEvidence_storedOf (h : evidenceOf e = some evidence) :
    decodeRecoveryEvidence (storedOf e) = .ok evidence ↔
      ∀ p ∈ evidence.provenance, ProvenanceKept e evidence p := by
  have hc := carries_storedOf h
  rw [← decodeRecoveryProvenance_storedOf h]
  simp only [decodeRecoveryEvidence, hc.observed, hc.sourcePresent, hc.destinationPresent,
    hc.recoveryPresent, orError_some, ok_bind, hc.sourceSha256, hc.destinationSha256,
    decodeHash_toList, hc.target, hc.sourceSize, hc.destinationSize, hc.itemSize,
    hc.itemSha256, decodeRecoveryProof_self]
  cases decodeRecoveryProvenance (storedOf e) with
  | error error => simp [bind, Except.bind]
  | ok decoded =>
      obtain ⟨_, _, _, _, _, _, _, _, _, _, _, provenance, _⟩ := evidence
      cases decoded <;> cases provenance <;>
        simp [RecoveryEvidence.withProvenance]

theorem decodeResolution_unresolved (reason : ActionReason) (row : StoredEvent) :
    decodeResolution (encodeResolution (.unresolved reason)) row =
      .ok (.unresolved reason) := by
  have hne : encodeResolution (.unresolved reason) ≠ "completed" := by
    cases reason <;> simp [encodeResolution]
  simp [decodeResolution, hne, Except.map]

end

end SyncPlus
