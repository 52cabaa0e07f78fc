import SyncPlus.JournalDecode

/-!
# The journal reads back as it was written

The writer and the reader are two machines over the same events, each
with its own table of transitions and its own checks. This file walks
them in step: an event the writer admits to a history, and whose values
the columns keep (`Kept`), is taken by the reader, and takes the entry
of the history to the entry of the history with the event
(`replayEntry_admitted`). The replay of a whole history follows
(`replayOne_history`), and from it the round trip of a run
(`JournalInv.loadJournal`).

The columns do not keep every value the event types allow: numbers from
2⁶³ on, parts of a provenance that are stored nowhere, and a removal
result without the recovered item's own size and hash. What `Kept` asks
is exactly that none of these occurs.
-/

namespace SyncPlus

/-! ## What the columns keep -/

/-- The numbers of an event that are cast to signed columns. -/
def NumbersFit (e : JournalEvent) : Prop :=
  (∀ p ∈ plan? [e], FitsOpt p.plannedBytes ∧ FitsI64 p.preAction.size) ∧
    FitsOpt (progressOf e) ∧
    ∀ evidence ∈ evidenceOf e, FitsOpt evidence.sourceSize ∧
      FitsOpt evidence.destinationSize ∧ FitsOpt evidence.recoverySize

/-- The values of an event are ones that the columns keep and the reader
accepts, given the plan of its action. -/
structure Kept (plan : Option PlanRecord) (e : JournalEvent) : Prop where
  numbers : NumbersFit e
  provenance : ∀ evidence ∈ evidenceOf e, ∀ p ∈ evidence.provenance,
    ProvenanceKept e evidence p
  recovered : ∀ p ∈ plan, ∀ result ∈ removalOf e, p.regular = true →
    result.evidence.provenance.isSome = true →
      result.evidence.recoverySize.isSome = true ∧
        result.evidence.recoverySha256.isSome = true

theorem fits_setRecoveryFields {f : EventFields} {evidence : RecoveryEvidence}
    (h1 : f.plannedBytes = none) (h2 : f.preSize = none) (h3 : f.progressBytes = none)
    (h4 : f.proofDestinationSize = none ∨
      f.proofDestinationSize = evidence.destinationSize.map UInt64.toInt64) :
    (setRecoveryFields f evidence).Fits ↔
      FitsOpt evidence.sourceSize ∧ FitsOpt evidence.destinationSize ∧
        FitsOpt evidence.recoverySize := by
  rcases h4 with h4 | h4 <;>
    simp [EventFields.Fits, setRecoveryFields, h1, h2, h3, h4]

theorem fits_fromEvent (e : JournalEvent) :
    (EventFields.fromEvent e).Fits ↔ NumbersFit e := by
  cases e with
  | planned p =>
      simp [EventFields.Fits, EventFields.fromEvent, NumbersFit, plan?, progressOf,
        evidenceOf]
  | progress _ bytes =>
      simp [EventFields.Fits, EventFields.fromEvent, NumbersFit, plan?, progressOf,
        evidenceOf]
  | recoveryResolved _ resolution =>
      cases resolution with
      | completed evidence =>
          simp [EventFields.fromEvent, fits_setRecoveryFields, NumbersFit, plan?,
            progressOf, evidenceOf]
      | unresolved _ =>
          simp [EventFields.Fits, EventFields.fromEvent, NumbersFit, plan?, progressOf,
            evidenceOf]
  | _ =>
      simp [EventFields.fromEvent, fits_setRecoveryFields, NumbersFit, plan?, progressOf,
        evidenceOf, terminalFields] <;> simp [EventFields.Fits]

/-! ## What a history holds at each phase -/

/-- The phases that the events of a history can have had when it has
reached a phase. -/
def soFar : String → List String
  | "planned" => ["planned"]
  | "started" => ["planned", "started"]
  | "progress" => ["planned", "started", "progress"]
  | "transfer_verified" => ["planned", "started", "progress", "transfer_verified"]
  | "proof_boundary" =>
      ["planned", "started", "progress", "transfer_verified", "proof_boundary"]
  | "removal_started" => "planned" :: runningPhases
  | "recovery_review" => "recovery_review" :: "planned" :: runningPhases
  | phase => phase :: "recovery_review" :: "planned" :: runningPhases

theorem soFar_mono {phase ph : String} (h : mayFollow phase ph = true) :
    soFar ph ⊆ soFar phase := by
  have key : ∀ {phases : List String}, ph ∈ phases →
      (∀ p ∈ phases, soFar p ⊆ soFar phase) → soFar ph ⊆ soFar phase :=
    fun h hall => hall ph h
  unfold mayFollow at h
  split at h <;> simp only [decide_eq_true_eq, Bool.false_eq_true] at h
  all_goals first
    | (subst h; decide)
    | exact key h (by decide)

theorem self_mem_soFar (phase : String) : phase ∈ soFar phase := by
  unfold soFar
  split <;> simp [runningPhases]

section

variable {method : Option String} {hs : List JournalEvent}

theorem History.mem_soFar (h : History method hs) {ph : String}
    (hph : phase? hs = some ph) : ∀ d ∈ hs, eventPhase d ∈ soFar ph := by
  induction h generalizing ph with
  | nil => simp
  | @snoc hs e _ hadm ih =>
      rw [phase?_snoc] at hph
      obtain rfl := Option.some.inj hph
      intro d hd
      rcases List.mem_append.mp hd with hd | hd
      · rcases hadm.after with ⟨_, _, rfl⟩ | ⟨_, ph, hcur, hmay⟩
        · cases hd
        · exact soFar_mono hmay (ih hcur d hd)
      · rw [List.mem_singleton.mp hd]
        exact self_mem_soFar _

/-- A history has nothing for `f` to read before the phase `f` is about. -/
theorem History.latest?_none (h : History method hs) {α : Type}
    {f : JournalEvent → Option α} {phase : String}
    (hf : ∀ e, (f e).isSome = true → eventPhase e = phase) {phases : List String}
    (hafter : After hs phases) (hlate : ∀ ph ∈ phases, phase ∉ soFar ph) :
    latest? f hs = none := by
  obtain ⟨ph, hmem, hph⟩ := hafter
  unfold latest?
  rw [List.getLast?_eq_none_iff, List.filterMap_eq_nil_iff]
  intro d hd
  by_contra hne
  have hsome : (f d).isSome = true := Option.isSome_iff_ne_none.mpr hne
  exact hlate ph hmem (hf d hsome ▸ h.mem_soFar hph d hd)

end

theorem After.last {hs : List JournalEvent} {phases : List String}
    (h : After hs phases) : ∃ init e, hs = init ++ [e] ∧ eventPhase e ∈ phases := by
  rcases List.eq_nil_or_concat' hs with rfl | ⟨init, e, rfl⟩
  · exact absurd h not_after_nil
  · exact ⟨init, e, rfl, after_snoc.mp h⟩

/-- What `f` reads of the last event is what it reads of the history. -/
theorem After.latest?_isSome {hs : List JournalEvent} {α : Type}
    {f : JournalEvent → Option α} {phase : String}
    (hf : ∀ e, (f e).isSome = true ↔ eventPhase e = phase) (h : After hs [phase]) :
    (latest? f hs).isSome = true := by
  obtain ⟨init, e, rfl, he⟩ := h.last
  obtain ⟨x, hx⟩ := Option.isSome_iff_exists.mp
    ((hf e).mpr (List.mem_singleton.mp he))
  simp [hx]

theorem transferOf_isSome (e : JournalEvent) :
    (transferOf e).isSome = true ↔ eventPhase e = "transfer_verified" := by
  cases e <;> simp [transferOf, eventPhase]

theorem removalOf_isSome (e : JournalEvent) :
    (removalOf e).isSome = true ↔ eventPhase e = "removal_completed" := by
  cases e <;> simp [removalOf, eventPhase]

theorem resolutionOf_isSome (e : JournalEvent) (h : (resolutionOf e).isSome = true) :
    eventPhase e = "recovery_resolved" := by
  cases e <;> simp_all [resolutionOf, eventPhase]

/-! ## One step of the two machines -/

section

variable {method : Option String} {hs : List JournalEvent} {e : JournalEvent}
  {entry : ActionJournalEntry}

theorem entryOf_eq_some (h : entryOf hs = some entry) :
    plan? hs = some entry.plan ∧ entry.lastPhase = (phase? hs).getD "" ∧
      entry.transferEvidence = latest? transferOf hs ∧
      entry.proofBoundary = latest? proofOf hs ∧
      entry.removalResult = latest? removalOf hs ∧
      entry.recoveryEvidence = latest? reviewOf hs ∧
      entry.recoveryResolutionEvidence = latest? resolutionOf hs := by
  obtain ⟨plan, hplan, rfl⟩ := Option.map_eq_some_iff.mp h
  exact ⟨hplan, rfl, rfl, rfl, rfl, rfl, rfl⟩

/-- The entry of a history has reached the history's phase. -/
theorem lastPhase_mem (h : entryOf hs = some entry) {phases : List String}
    (hafter : After hs phases) : entry.lastPhase ∈ phases := by
  obtain ⟨ph, hmem, hph⟩ := hafter
  rw [(entryOf_eq_some h).2.1, hph]
  exact hmem

/-- **What the writer admits, the reader's table allows.** -/
theorem mayReplay_admitted (hh : History method hs) (hadm : Admits method hs e)
    (h : entryOf hs = some entry) (he : eventPhase e ≠ "planned") :
    mayReplay entry (eventPhase e) = true := by
  obtain ⟨hplan, -, htransfer, hproof, hremoval, hreview, hresolution⟩ :=
    entryOf_eq_some h
  have hlast : ∀ {phases}, After hs phases → entry.lastPhase ∈ phases :=
    lastPhase_mem h
  cases e with
  | planned _ => exact absurd rfl he
  | started _ => simpa [mayReplay, eventPhase] using hlast hadm
  | progress _ _ => simpa [mayReplay, eventPhase] using hlast hadm
  | transferVerified _ _ _ =>
      obtain ⟨-, hafter, plan, hp, ht, -⟩ := hadm
      obtain rfl := Option.some.inj (hp.symm.trans hplan)
      have hnone : entry.transferEvidence = none := by
        rw [htransfer]
        exact hh.latest?_none (fun d => (transferOf_isSome d).mp) hafter (by decide)
      simpa [mayReplay, eventPhase, ht, hnone] using hlast hafter
  | proofBoundary _ _ _ _ =>
      obtain ⟨-, hafter, plan, hp, ⟨hop, -⟩, -⟩ := hadm
      obtain rfl := Option.some.inj (hp.symm.trans hplan)
      have hsome : entry.transferEvidence.isSome = true := by
        rw [htransfer]
        exact hafter.latest?_isSome transferOf_isSome
      have hnone : entry.proofBoundary = none := by
        rw [hproof]
        exact hh.latest?_none (fun d => (proofOf_isSome d).mp) hafter (by decide)
      have := hlast hafter
      simp [mayReplay, eventPhase, PlanActionKind.removesSource, hop, hsome, hnone] at this ⊢
      exact this
  | removalStarted _ _ =>
      obtain ⟨hafter, -⟩ := hadm
      have hsome : entry.proofBoundary.isSome = true := by
        rw [hproof]
        exact hafter.latest?_isSome proofOf_isSome
      simpa [mayReplay, eventPhase, hsome] using hlast hafter
  | removalCompleted _ _ =>
      obtain ⟨hafter, -, -, -, -, -, proof, hp, -⟩ := hadm
      have hnone : entry.removalResult = none := by
        rw [hremoval]
        exact hh.latest?_none (fun d => (removalOf_isSome d).mp) hafter (by decide)
      have := hlast hafter
      simp [mayReplay, eventPhase, hproof, hp, hnone] at this ⊢
      exact this
  | completed _ =>
      simpa [mayReplay, eventPhase, runningPhases] using hlast hadm.1
  | failed _ _ => simpa [mayReplay, eventPhase, runningPhases] using hlast hadm
  | cancelled _ => simpa [mayReplay, eventPhase] using hlast hadm
  | interrupted _ => simpa [mayReplay, eventPhase] using hlast hadm
  | deferred _ => simpa [mayReplay, eventPhase, runningPhases] using hlast hadm
  | unresolved _ _ => simpa [mayReplay, eventPhase, runningPhases] using hlast hadm
  | recoveryReview _ _ _ =>
      have hnone : entry.recoveryEvidence = none := by
        rw [hreview]
        exact hh.latest?_none (fun d => (reviewOf_isSome d).mp) hadm (by decide)
      have := hlast hadm
      simp [mayReplay, eventPhase, runningPhases, hnone] at this ⊢
      tauto
  | recoveryResolved _ _ =>
      obtain ⟨hafter, -⟩ := hadm
      have hsome : entry.recoveryEvidence.isSome = true := by
        rw [hreview]
        exact hafter.latest?_isSome reviewOf_isSome
      have hnone : entry.recoveryResolutionEvidence = none := by
        rw [hresolution]
        exact hh.latest?_none resolutionOf_isSome hafter (by decide)
      have := hlast hafter
      simp [mayReplay, eventPhase, hsome, hnone] at this ⊢
      exact this

theorem methodText_storedOf {m : DeletionMethod} (h : eventMethod e = some m) :
    (storedOf e).deletionMethod = some (encodeDeletionMethod m) := by
  rw [storedOf_deletionMethod, h, Option.map_some]

theorem validateReplayedDeletionMethod_of {m : DeletionMethod}
    (h : RemovesBy method m entry.plan) :
    validateReplayedDeletionMethod entry m method = .ok () :=
  ensure_of h

/-- A verified transfer, replayed. -/
theorem replayTransferVerified_admitted {a : ActionId} {evidence : RecoveryEvidence}
    {verified : Bool} (hadm : Admits method hs (.transferVerified a evidence verified))
    (hplan : plan? hs = some entry.plan)
    (hdecode : decodeRecoveryEvidence (storedOf (.transferVerified a evidence verified)) =
      .ok evidence) :
    replayTransferVerified entry (storedOf (.transferVerified a evidence verified)) =
      .ok { entry with transferEvidence := some evidence, outcome := .inProgress } := by
  obtain ⟨rfl, -, plan, hp, ht, hind, -, hsize, hsha⟩ := hadm
  obtain rfl := Option.some.inj (hp.symm.trans hplan)
  have hmeta : (storedOf (.transferVerified a evidence true)).proofMetadataVerified =
      some true := rfl
  have hvalid : validateTransferEvidence entry evidence = .ok () :=
    ensure_of ⟨hind.1, hind.2.1, hind.2.2.1, hind.2.2.2.1, hsize, fun _ => hsha,
      hind.2.2.2.2.2.2.1, fun hr => hind.2.2.2.2.2.2.2 hr⟩
  unfold replayTransferVerified
  rw [bind_ok (ensure_of ⟨ht, hmeta⟩), bind_ok hdecode, bind_ok hvalid]
  rfl

/-- A proof boundary, replayed. -/
theorem replayProofBoundary_admitted {a : ActionId} {m : DeletionMethod}
    {evidence : RecoveryEvidence} {verified : Bool}
    (hadm : Admits method hs (.proofBoundary a m evidence verified))
    (h : entryOf hs = some entry)
    (hdecode : decodeRecoveryEvidence (storedOf (.proofBoundary a m evidence verified)) =
      .ok evidence) :
    replayProofBoundary entry (storedOf (.proofBoundary a m evidence verified)) method =
      .ok { entry with
        proofBoundary := some evidence
        outcome := .recoveryReview .interruptedBoundary } := by
  obtain ⟨hplan, -, htransfer, -⟩ := entryOf_eq_some h
  obtain ⟨rfl, hafter, plan, hp, hrem, hind⟩ := hadm
  obtain rfl := Option.some.inj (hp.symm.trans hplan)
  obtain ⟨hsrc, hdst, hrec, htgt, hsrcSize, hsrcSha, hdstSize, hdstSha⟩ := hind
  have hsome : entry.transferEvidence.isSome = true := by
    rw [htransfer]
    exact hafter.latest?_isSome transferOf_isSome
  obtain ⟨size, hsize⟩ := Option.isSome_iff_exists.mp hdstSize
  have hmeta : (storedOf (.proofBoundary a m evidence true)).proofMetadataVerified =
      some true := rfl
  have hrowSize : (storedOf (.proofBoundary a m evidence true)).proofDestinationSize =
      some size :=
    (map_toUInt64_toInt64 _).trans hsize
  have hrowSha : (storedOf (.proofBoundary a m evidence true)).proofDestinationSha256 =
      evidence.destinationSha256.map List.Vector.toList := rfl
  unfold replayProofBoundary
  rw [bind_ok (ensure_of fun _ => hsome), methodText_storedOf rfl, orError_some, ok_bind,
    decodeDeletionMethod_encode, ok_bind,
    bind_ok (validateReplayedDeletionMethod_of hrem),
    bind_ok (ensure_of ⟨hmeta, by rw [hrowSize]; rfl, fun hr => by
      rw [hrowSha, Option.isSome_map]; exact hdstSha hr⟩),
    bind_ok hdecode, hrowSize, orError_some, ok_bind, hrowSha, decodeHash_toList, ok_bind,
    bind_ok (ensure_of hdstSha),
    bind_ok (ensure_of ⟨hsrc, hdst, hrec, htgt, hsrcSize, hsrcSha, hsize, rfl⟩)]
  rfl

/-- A removal result, replayed. The writer does not look at the
provenance of a result; the reader does. -/
theorem replayRemovalCompleted_admitted {a : ActionId} {result : RemovalResult}
    (hadm : Admits method hs (.removalCompleted a result))
    (hkept : Kept (plan? hs) (.removalCompleted a result))
    (h : entryOf hs = some entry) (ha : entry.plan.actionId = a) :
    replayRemovalCompleted entry (storedOf (.removalCompleted a result)) method =
      .ok { entry with removalResult := some result, outcome := .completed } := by
  obtain ⟨hplan, -, -, hproof, -⟩ := entryOf_eq_some h
  obtain ⟨hafter, ⟨plan, hp, hrem, hreg⟩, hsrc, hdst, hsize, hval, proof, hlatest, -,
    hproofSize, hproofSha⟩ := hadm
  obtain rfl := Option.some.inj (hp.symm.trans hplan)
  have hprovenance := hkept.provenance result.evidence rfl
  have hdecode := (decodeRecoveryEvidence_storedOf (e := .removalCompleted a result)
    rfl).mpr hprovenance
  have hvalid : ValidProvenance entry result.deletionMethod result.evidence := by
    intro p hpmem
    have hk := hprovenance p hpmem
    exact ⟨by rw [hk.actionId, ha]; rfl, hk.method, hk.state⟩
  unfold replayRemovalCompleted
  rw [methodText_storedOf rfl, orError_some, ok_bind, bind_ok hdecode,
    decodeDeletionMethod_encode, ok_bind, bind_ok (validateReplayedDeletionMethod_of hrem),
    validateRemovalEvidence, bind_ok (ensure_of ⟨hsrc, hdst, hsize, hreg,
      hkept.recovered _ hplan result rfl, hvalid, hval⟩), bind_ok (ensure_of ?_)]
  · rfl
  · intro q hq
    rw [hproof, hlatest] at hq
    obtain rfl := Option.some.inj hq
    exact ⟨hproofSize.symm, hproofSha.symm⟩

/-- A resolved review, replayed. -/
theorem replayRecoveryResolved_admitted {a : ActionId} {resolution : RecoveryResolution}
    (hadm : Admits method hs (.recoveryResolved a resolution))
    (h : entryOf hs = some entry)
    (hkept : Kept (plan? hs) (.recoveryResolved a resolution)) :
    replayRecoveryResolved entry (storedOf (.recoveryResolved a resolution)) =
      .ok { entry with
        recoveryResolutionEvidence :=
          (resolutionOf (.recoveryResolved a resolution)).or
            entry.recoveryResolutionEvidence
        outcome := (outcomeOf (.recoveryResolved a resolution)).getD entry.outcome } := by
  obtain ⟨hplan, -, -, -, -, hreview, -⟩ := entryOf_eq_some h
  have htext : (storedOf (.recoveryResolved a resolution)).resolution =
      some (encodeResolution resolution) := by
    cases resolution <;> rfl
  unfold replayRecoveryResolved
  rw [htext, orError_some, ok_bind]
  cases resolution with
  | completed evidence =>
      obtain ⟨-, ⟨plan, hp, hop⟩, review, hlatest, hnewer⟩ := hadm
      obtain rfl := Option.some.inj (hp.symm.trans hplan)
      have hdecode := (decodeRecoveryEvidence_storedOf
        (e := .recoveryResolved a (.completed evidence)) rfl).mpr
          (hkept.provenance evidence rfl)
      have hres : decodeResolution (encodeResolution (.completed evidence))
          (storedOf (.recoveryResolved a (.completed evidence))) =
            .ok (.completed evidence) := by
        simp [decodeResolution, encodeResolution, hdecode, Except.map]
      rw [bind_ok hres]
      simp only
      rw [bind_ok (ensure_of hop), bind_ok (ensure_of ?_)]
      · rfl
      · intro r hr
        rw [hreview, hlatest] at hr
        obtain rfl := Option.some.inj hr
        simpa [RecoveryEvidence.isNewerThan] using hnewer
  | unresolved reason =>
      rw [bind_ok (decodeResolution_unresolved _ _)]
      rfl

theorem replayPlanned_storedOf (p : PlanRecord) :
    replayPlanned none (storedOf (.planned p)) =
      .ok {
        plan := p
        lastPhase := "planned"
        started := false
        progressBytes := []
        outcome := .inProgress
        transferEvidence := none
        proofBoundary := none
        removalResult := none
        recoveryEvidence := none
        recoveryResolutionEvidence := none } := by
  obtain ⟨a, path, operation, side, bytes, itemType, size, modified, identity, sha256⟩ := p
  have hidentity : decodeIdentity "stored file identity is incomplete"
      (identity.map (·.device)) (identity.map (·.inode)) = .ok identity := by
    cases identity <;> rfl
  simp only [replayPlanned, storedOf, StoredEvent.bits, EventFields.fromEvent,
    Option.map_some, orError_some, ok_bind, decodeOperation_encode, decodeSide_encode,
    decodeItemType_encode, decodeDigest_toList, hidentity, map_toUInt64_toInt64,
    eventActionId, UInt64.toUInt64_toInt64, blobToPath_pathToBlob]
  rfl

/-- **A boundary the writer admits is replayed as what it records.** -/
theorem replayBoundary_admitted (hadm : Admits method hs e)
    (hkept : Kept (plan? hs) e) (h : entryOf hs = some entry)
    (ha : entry.plan.actionId = eventActionId e) (he : eventPhase e ≠ "planned") :
    replayBoundary entry (storedOf e) method =
      .ok { entry.record e with lastPhase := entry.lastPhase } := by
  have hplan := (entryOf_eq_some h).1
  unfold replayBoundary ActionJournalEntry.record
  rw [storedOf_phase]
  cases e with
  | planned _ => exact absurd rfl he
  | transferVerified a evidence verified =>
      rw [show eventPhase (.transferVerified a evidence verified) = "transfer_verified"
        from rfl]
      simp only
      rw [replayTransferVerified_admitted hadm hplan
        ((decodeRecoveryEvidence_storedOf rfl).mpr (hkept.provenance evidence rfl))]
      simp [isStarted, progressOf, outcomeOf, transferOf, proofOf, removalOf, reviewOf,
        resolutionOf]
  | proofBoundary a m evidence verified =>
      rw [show eventPhase (.proofBoundary a m evidence verified) = "proof_boundary"
        from rfl]
      simp only
      rw [replayProofBoundary_admitted hadm h
        ((decodeRecoveryEvidence_storedOf rfl).mpr (hkept.provenance evidence rfl))]
      simp [isStarted, progressOf, outcomeOf, transferOf, proofOf, removalOf, reviewOf,
        resolutionOf]
  | removalStarted a m =>
      obtain ⟨-, plan, hp, hrem⟩ := hadm
      obtain rfl := Option.some.inj (hp.symm.trans hplan)
      rw [show eventPhase (.removalStarted a m) = "removal_started" from rfl]
      simp only [replayRemovalStarted]
      rw [methodText_storedOf rfl, orError_some, ok_bind, decodeDeletionMethod_encode,
        ok_bind, bind_ok (validateReplayedDeletionMethod_of hrem)]
      simp [isStarted, progressOf, outcomeOf, transferOf, proofOf, removalOf, reviewOf,
        resolutionOf, pure, Except.pure]
  | removalCompleted a result =>
      rw [show eventPhase (.removalCompleted a result) = "removal_completed" from rfl]
      simp only
      rw [replayRemovalCompleted_admitted hadm hkept h ha]
      simp [isStarted, progressOf, outcomeOf, transferOf, proofOf, removalOf, reviewOf,
        resolutionOf]
  | completed a =>
      obtain ⟨-, plan, hp, hop⟩ := hadm
      obtain rfl := Option.some.inj (hp.symm.trans hplan)
      rw [show eventPhase (.completed a) = "completed" from rfl]
      simp only
      rw [bind_ok (ensure_of hop)]
      simp [isStarted, progressOf, outcomeOf, transferOf, proofOf, removalOf, reviewOf,
        resolutionOf, pure, Except.pure]
  | recoveryReview a reason evidence =>
      have hdecode := (decodeRecoveryEvidence_storedOf (e := .recoveryReview a reason
        evidence) rfl).mpr (hkept.provenance evidence rfl)
      have hreason : (storedOf (.recoveryReview a reason evidence)).reason =
          some (encodeReason reason) := rfl
      rw [show eventPhase (.recoveryReview a reason evidence) = "recovery_review" from rfl]
      simp only
      rw [bind_ok hdecode, hreason, orError_some, ok_bind, decodeReason_encode, ok_bind]
      simp [isStarted, progressOf, outcomeOf, transferOf, proofOf, removalOf, reviewOf,
        resolutionOf, pure, Except.pure]
  | recoveryResolved a resolution =>
      rw [show eventPhase (.recoveryResolved a resolution) = "recovery_resolved" from rfl]
      simp only
      rw [replayRecoveryResolved_admitted hadm h hkept]
      simp [isStarted, progressOf, transferOf, proofOf, removalOf, reviewOf]
  | _ =>
      simp [eventPhase, isStarted, progressOf, outcomeOf, transferOf, proofOf, removalOf,
        reviewOf, resolutionOf, storedOf, StoredEvent.bits, EventFields.fromEvent,
        terminalFields, pure, Except.pure]

/-- **One step of the two machines.** An admitted event that the columns
keep takes the entry of the history to the entry of the longer one. -/
theorem replayEntry_admitted (hh : History method hs) (hadm : Admits method hs e)
    (hkept : Kept (plan? hs) e)
    (hid : ∀ p ∈ plan? hs, p.actionId = eventActionId e) :
    ∃ entry', replayEntry method (entryOf hs) (storedOf e) = .ok entry' ∧
      entryOf (hs ++ [e]) = some entry' := by
  unfold replayEntry
  rw [storedOf_phase]
  by_cases he : eventPhase e = "planned"
  · obtain ⟨p, rfl⟩ := eventPhase_eq_planned.mp he
    obtain rfl : hs = [] := hadm
    rw [if_pos he]
    exact ⟨_, replayPlanned_storedOf p, rfl⟩
  · rw [if_neg he]
    have hne : hs ≠ [] := by
      rintro rfl
      rcases hadm.after with ⟨p, rfl, -⟩ | ⟨-, ph, hph, -⟩
      · exact he rfl
      · cases hph
    obtain ⟨plan, tail, rfl, -⟩ := hh.opens hne
    obtain ⟨entry, hentry⟩ : ∃ entry, entryOf (.planned plan :: tail) = some entry :=
      ⟨_, rfl⟩
    have hplan := (entryOf_eq_some hentry).1
    refine ⟨entry.record e, ?_, entryOf_snoc hentry⟩
    rw [hentry, orError_some, ok_bind, validateReplayedTransition,
      bind_ok (ensure_of (mayReplay_admitted hh hadm hentry he)),
      replayBoundary_admitted hadm hkept hentry (hid _ hplan) he]
    rfl

end

/-! ## Whole histories -/

/-- Every event of a history is kept, given the plan before it. -/
def AllKept (hs : List JournalEvent) : Prop :=
  ∀ init e tail, hs = init ++ e :: tail → Kept (plan? init) e

theorem AllKept.init {hs : List JournalEvent} {e : JournalEvent}
    (h : AllKept (hs ++ [e])) : AllKept hs ∧ Kept (plan? hs) e :=
  ⟨fun init d tail heq => h init d (tail ++ [e]) (by simp [heq]), h hs e [] rfl⟩

/-- **The replay of a history ends in the entry of the history.** -/
theorem replayOne_history {method : Option String} {hs : List JournalEvent}
    (hh : History method hs) (hkept : AllKept hs) {a : ActionId}
    (hid : ∀ e ∈ hs, eventActionId e = a) :
    replayOne (replayEntry method) none (hs.map storedOf) = .ok (entryOf hs) := by
  induction hh with
  | nil => rfl
  | @snoc hs e hh hadm ih =>
      have hplanId : ∀ p ∈ plan? hs, p.actionId = eventActionId e := by
        intro p hp
        obtain ⟨tail, rfl⟩ := plan?_eq_some.mp hp
        rw [hid e (by simp)]
        exact hid (.planned p) (by simp)
      obtain ⟨entry', hstep, hentry⟩ :=
        replayEntry_admitted hh hadm hkept.init.2 hplanId
      rw [List.map_append, List.map_singleton, hentry]
      exact replayOne_snoc
        (ih hkept.init.1 fun d hd => hid d (List.mem_append_left _ hd)) hstep

/-! ## Whole journals -/

/-- The id of the action an event plans. -/
def plannedId : JournalEvent → Option ActionId
  | .planned p => some p.actionId
  | _ => none

/-- **The journal that the accepted events stand for**: one entry a
planned action, in action order, each the entry of its own history. -/
def journalOf (accepted : List JournalEvent) : List ActionJournalEntry :=
  ((accepted.filterMap plannedId).insertionSort (· ≤ ·)).filterMap fun a =>
    entryOf (historyOf accepted a)

section

variable {method : Option String} {run : RunJournal} {acc : List JournalEvent}

theorem plannedId_eq_some {e : JournalEvent} {a : ActionId} :
    plannedId e = some a ↔ ∃ p, e = .planned p ∧ p.actionId = a := by
  cases e <;> simp [plannedId]

theorem mem_plannedIds (hhs : ∀ a, History method (historyOf acc a)) {a : ActionId} :
    a ∈ acc.filterMap plannedId ↔ (entryOf (historyOf acc a)).isSome = true := by
  rw [entryOf, Option.isSome_map, List.mem_filterMap]
  constructor
  · rintro ⟨e, he, hid⟩
    obtain ⟨p, rfl, rfl⟩ := plannedId_eq_some.mp hid
    have hmem : JournalEvent.planned p ∈ historyOf acc p.actionId :=
      List.mem_filter.mpr ⟨he, by simp [eventActionId]⟩
    rw [Option.isSome_iff_ne_none, Ne, (hhs _).plan?_none]
    exact List.ne_nil_of_mem hmem
  · intro h
    obtain ⟨p, hp⟩ := Option.isSome_iff_exists.mp h
    obtain ⟨tail, htail⟩ := plan?_eq_some.mp hp
    have hmem : JournalEvent.planned p ∈ historyOf acc a := by simp [htail]
    exact ⟨_, (List.mem_filter.mp hmem).1,
      plannedId_eq_some.mpr ⟨p, rfl, historyOf_actionId hmem⟩⟩

/-- No action is planned twice. -/
theorem nodup_plannedIds (hhs : ∀ a, History method (historyOf acc a)) :
    (acc.filterMap plannedId).Nodup := by
  rw [List.nodup_iff_count_le_one]
  intro a
  have hcount : (acc.filterMap plannedId).count a =
      ((historyOf acc a).filter fun e => eventPhase e = "planned").length := by
    rw [List.count, List.countP_filterMap, historyOf, List.filter_filter,
      List.countP_eq_length_filter]
    congr 1
    refine List.filter_congr fun e _ => ?_
    cases e <;> simp [plannedId, eventPhase, eventActionId]
    exact decide_eq_decide.mpr Iff.rfl
  rw [hcount, (hhs a).filter_planned]
  cases plan? (historyOf acc a) <;> simp

theorem sortedIds (hhs : ∀ a, History method (historyOf acc a)) :
    ((acc.filterMap plannedId).insertionSort (· ≤ ·)).Pairwise
      fun a b => compare a b = .lt := by
  have hle := List.pairwise_insertionSort (· ≤ ·) (acc.filterMap plannedId)
  have hne : ((acc.filterMap plannedId).insertionSort (· ≤ ·)).Nodup :=
    (List.perm_insertionSort _ _).nodup_iff.mpr (nodup_plannedIds hhs)
  exact (hle.and hne).imp fun ⟨hle, hne⟩ =>
    compareOfLessAndEq_eq_lt.mpr (UInt64.lt_of_le_of_ne hle hne)

/-- The stored rows of an action, read in replay order, are its history. -/
theorem Stores.sorted_filter (hst : Stores run acc) (a : ActionId) :
    ((run.actionEvents.insertionSort rowOrder).map StoredEvent.bits).filter
        (fun s => s.actionId = a) =
      (historyOf acc a).map storedOf := by
  have hsorted : (run.rowsOf a).Pairwise rowOrder := by
    refine (hst.ascending a).imp_of_mem fun {r s} hr hs hlt =>
      .inr ⟨?_, Int.le_of_lt hlt⟩
    have hra : r.actionId = a := by simpa using (List.mem_filter.mp hr).2
    have hsa : s.actionId = a := by simpa using (List.mem_filter.mp hs).2
    rw [hra, hsa]
  have hfilter : ((run.actionEvents.insertionSort rowOrder).map StoredEvent.bits).filter
      (fun s => s.actionId = a) = (run.rowsOf a).map StoredEvent.bits := by
    rw [List.filter_map]
    exact congrArg (List.map StoredEvent.bits)
      (filter_insertionSort (p := fun r : ActionEventRow => r.actionId = a) hsorted)
  have hbits : StoredEvent.bits = fun r : ActionEventRow => StoredEvent.bits
      { actionId := r.actionId, sequence := 0, fields := r.fields } := rfl
  rw [hfilter, hbits]
  have h := congrArg
    (fun l => (l.filter fun p : ActionId × EventFields => p.1 = a).map fun p =>
      StoredEvent.bits { actionId := p.1, sequence := 0, fields := p.2 }) hst.rows
  simp only [List.filter_map, Function.comp_def, List.map_map] at h
  exact h

theorem Stores.fits (hst : Stores run acc) (h : ∀ e ∈ acc, NumbersFit e) :
    ∀ row ∈ run.actionEvents, row.fields.Fits := by
  intro row hrow
  have hmem : (row.actionId, row.fields) ∈
      run.actionEvents.map fun r => (r.actionId, r.fields) :=
    List.mem_map_of_mem hrow
  rw [hst.rows] at hmem
  obtain ⟨e, he, heq⟩ := List.mem_map.mp hmem
  rw [← (Prod.mk.inj heq).2]
  exact (fits_fromEvent e).mpr (h e he)

theorem AllKept.mem {hs : List JournalEvent} (h : AllKept hs) {e : JournalEvent}
    (he : e ∈ hs) : NumbersFit e := by
  obtain ⟨init, tail, rfl⟩ := List.append_of_mem he
  exact (h init e tail rfl).numbers

/-- **The round trip of a stored journal.** -/
theorem JournalInv.loadJournal (h : JournalInv method run acc)
    (hkept : ∀ a, AllKept (historyOf acc a)) :
    run.loadJournal = .ok (journalOf acc) := by
  have hreplay : ∀ a, replayOne (replayEntry method)
      (∅ : Std.ExtTreeMap ActionId ActionJournalEntry)[a]?
      (((run.actionEvents.insertionSort rowOrder).map StoredEvent.bits).filter
        fun s => s.actionId = a) = .ok (entryOf (historyOf acc a)) := by
    intro a
    rw [h.stores.sorted_filter, Std.ExtTreeMap.getElem?_empty]
    exact replayOne_history (h.histories a) (hkept a) fun e he => historyOf_actionId he
  obtain ⟨entries, hentries⟩ := exists_replayKeyed fun a => ⟨_, hreplay a⟩
  have hentry : ∀ a, entries[a]? = entryOf (historyOf acc a) := fun a =>
    Except.ok.inj ((replayKeyed_eq_ok.mp hentries a).symm.trans (hreplay a))
  have hrows : (run.actionEvents.insertionSort rowOrder).mapM StoredEvent.ofRow =
      .ok ((run.actionEvents.insertionSort rowOrder).map StoredEvent.bits) := by
    refine mapM_ofRow_eq_ok.mpr ⟨fun row hrow => ?_, rfl⟩
    refine h.stores.fits (fun e he => ?_) row ((List.mem_insertionSort _).mp hrow)
    exact (hkept (eventActionId e)).mem (List.mem_filter.mpr ⟨he, by simp⟩)
  unfold RunJournal.loadJournal
  rw [bind_ok hrows, h.frozen]
  unfold replayKeyed at hentries
  unfold applyStoredEvent
  rw [bind_ok hentries]
  refine congrArg Except.ok ?_
  rw [intoValues_eq (sortedIds h.histories) fun a => by
    rw [List.mem_insertionSort, mem_plannedIds h.histories, hentry]]
  exact List.filterMap_congr fun a _ => hentry a

end

end SyncPlus
