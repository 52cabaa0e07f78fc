import SyncPlus.JournalStep
import SyncPlus.Lib.Offers

/-!
# The specification of one append

The five validators of the writer, put together: under `Stores`, an
append succeeds exactly when the event is admitted by the history of its
action, comes in turn, and binds (`appendEvent_eq_ok`). From it follows
what any sequence of offers leaves behind (`offers_journalInv`): a table
that stores the accepted events, each action's of them a history.
-/

namespace SyncPlus

/-! ## The checks on the event -/

theorem mayFollow_open {phase ph : String} (hne : phase ≠ "planned")
    (h : mayFollow phase ph = true) : ph ∉ closedPhases := by
  have key : ∀ {phases : List String}, ph ∈ phases →
      (∀ p ∈ phases, p ∉ closedPhases) → ph ∉ closedPhases := fun h hall => hall ph h
  unfold mayFollow at h
  split at h <;> simp only [decide_eq_true_eq, Bool.false_eq_true] at h
  all_goals first
    | (subst h; decide)
    | exact key h (by decide)

theorem checkTransition_running {e : JournalEvent} {ph : String}
    (he : eventPhase e ≠ "planned") :
    checkTransition e true (some ph) = .ok () ↔ mayFollow (eventPhase e) ph = true := by
  unfold checkTransition
  simp only [if_neg he, unit_bind_eq_ok, ensure_eq_ok, Option.mem_def,
    Option.some.injEq, exists_eq_left', forall_eq', true_and]
  exact ⟨fun h => h.2, fun h => ⟨mayFollow_open he h, h⟩⟩

theorem transfersContent_encode {o : PlanActionKind} :
    transfersContent (some (encodeOperation o)) ↔ o.transfers = true := by
  cases o <;> simp [transfersContent, encodeOperation, PlanActionKind.transfers]

/-- What the checks ask of an event besides its place in the history. -/
def SuitsPlan (method : Option String) (plan : PlanRecord) : JournalEvent → Prop
  | .transferVerified _ evidence metadataVerified =>
      metadataVerified = true ∧ plan.operation.transfers = true ∧
        IndependentProof plan.regular evidence
  | .proofBoundary _ m evidence metadataVerified =>
      metadataVerified = true ∧ RemovesBy method m plan ∧
        IndependentProof plan.regular evidence
  | .removalStarted _ m => RemovesBy method m plan
  | .removalCompleted _ result =>
      RemovesBy method result.deletionMethod plan ∧
        result.evidence.sourcePresent = false ∧
        result.evidence.destinationPresent = true ∧
        result.evidence.destinationSize.isSome = true ∧
        (plan.regular = true → result.evidence.destinationSha256.isSome = true) ∧
        ValidRecovery result.deletionMethod result.evidence
  | .completed _ => plan.operation ≠ .removeSourceAfterVerification
  | .recoveryResolved _ (.completed _) =>
      plan.operation ≠ .removeSourceAfterVerification
  | _ => True

/-- The checks of an event of a planned action. One case an event kind. -/
theorem validateEvent_running {e : JournalEvent} {ph : String} {plan : PlanRecord}
    {method : Option String} (he : eventPhase e ≠ "planned") :
    validateEvent e true (some ph) (some (encodeOperation plan.operation))
        (some (encodeItemType plan.preAction.itemType)) method = .ok () ↔
      mayFollow (eventPhase e) ph = true ∧ SuitsPlan method plan e := by
  have hregular : decide (some (encodeItemType plan.preAction.itemType) =
      some "regular_file") = plan.regular := by simp [PlanRecord.regular]
  simp only [validateEvent, unit_bind_eq_ok, checkTransition_running he, hregular]
  cases e with
  | planned _ => exact absurd rfl he
  | transferVerified _ evidence verified =>
      simp only [checkTransferBoundary, checkProofBoundary, checkGenericCompletion,
        checkDeletionMethod, eventMethod, checkRemovalResult, ensure_eq_ok, eventPhase,
        mayFollow, transfersContent_encode, SuitsPlan, Option.some.injEq,
        decide_eq_true_eq, List.mem_cons, List.not_mem_nil, or_false]
      tauto
  | proofBoundary _ m evidence verified =>
      simp only [checkTransferBoundary, checkProofBoundary, checkGenericCompletion,
        checkDeletionMethod, eventMethod, checkRemovalResult, ensure_eq_ok, eventPhase,
        mayFollow, SuitsPlan, RemovesBy, unit_bind_eq_ok, Option.some.injEq,
        decide_eq_true_eq, encodeOperation_eq_removal]
      tauto
  | removalCompleted _ result =>
      simp only [checkTransferBoundary, checkProofBoundary, checkGenericCompletion,
        checkDeletionMethod, eventMethod, checkRemovalResult, ensure_eq_ok, eventPhase,
        mayFollow, SuitsPlan, RemovesBy, Option.some.injEq, decide_eq_true_eq,
        encodeOperation_eq_removal]
      tauto
  | recoveryResolved _ resolution =>
      cases resolution <;>
        simp [checkTransferBoundary, checkProofBoundary, checkGenericCompletion,
          checkDeletionMethod, eventMethod, checkRemovalResult, SuitsPlan, and_comm]
  | _ =>
      simp [checkTransferBoundary, checkProofBoundary, checkGenericCompletion,
        checkDeletionMethod, eventMethod, checkRemovalResult, SuitsPlan, RemovesBy,
        and_comm]

theorem after_iff {hs : List JournalEvent} {phases : List String} {ph : String}
    (h : phase? hs = some ph) : After hs phases ↔ ph ∈ phases := by
  simp [After, h]

theorem planned_iff {hs : List JournalEvent} {P : PlanRecord → Prop}
    {plan : PlanRecord} (h : plan? hs = some plan) : Planned hs P ↔ P plan := by
  simp [Planned, h]

section

variable {run : RunJournal} {acc : List JournalEvent}

/-- The event passes the checks that look at its own action. -/
def PassesOwn (run : RunJournal) (hs : List JournalEvent) (e : JournalEvent) : Prop :=
  validateEvent e (plan? hs).isSome (phase? hs)
      ((plan? hs).map fun plan => encodeOperation plan.operation)
      ((plan? hs).map fun plan => encodeItemType plan.preAction.itemType)
      run.deletionMethod = .ok () ∧
    validateTransferEventAgainstPlan run (eventActionId e) e = .ok () ∧
    validateRemovalResultAgainstProof run (eventActionId e) e = .ok () ∧
    validateRecoveryResolution run (eventActionId e) e = .ok ()

theorem passesOwn_unplanned {e : JournalEvent} :
    PassesOwn run [] e ↔ Admits run.deletionMethod [] e := by
  cases e <;> simp [PassesOwn, validateEvent, checkTransferBoundary, checkProofBoundary,
    checkGenericCompletion, checkDeletionMethod, eventMethod, checkRemovalResult,
    checkTransition, unit_bind_eq_ok, Admits, not_after_nil, plan?, eventPhase,
    validateTransferEventAgainstPlan, validateRemovalResultAgainstProof,
    validateRecoveryResolution]

/-- **The writer's own-action checks are `Admits`.** One case an event. -/
theorem Stores.passesOwn (hst : Stores run acc) {e : JournalEvent}
    (hh : History run.deletionMethod (historyOf acc (eventActionId e))) :
    PassesOwn run (historyOf acc (eventActionId e)) e ↔
      Admits run.deletionMethod (historyOf acc (eventActionId e)) e := by
  cases hplan : plan? (historyOf acc (eventActionId e)) with
  | none =>
      rw [hh.plan?_none.mp hplan]
      exact passesOwn_unplanned
  | some plan =>
      obtain ⟨ph, hph⟩ := hh.phase?_isSome hplan
      have hne := plan?_ne_nil hplan
      unfold PassesOwn
      simp only [hplan, hph, Option.isSome_some, Option.map_some]
      by_cases he : eventPhase e = "planned"
      · obtain ⟨p, rfl⟩ := eventPhase_eq_planned.mp he
        simp [validateEvent, checkTransition, he, unit_bind_eq_ok, Admits, hne]
      · rw [validateEvent_running he]
        cases e with
        | planned _ => exact absurd rfl he
        | transferVerified b evidence verified =>
            rw [hst.validateTransfer hh]
            simp only [eventActionId] at hplan hph
            simp only [planned_iff hplan, after_iff hph, Admits, SuitsPlan, eventActionId,
              validateRemovalResultAgainstProof, validateRecoveryResolution, eventPhase,
              mayFollow, decide_eq_true_eq]
            constructor
            · rintro ⟨⟨hmay, hv, ht, hind⟩, ⟨hfits, _, hsize, hsha⟩, -, -⟩
              exact ⟨hv, hmay, ht, hind, hfits, hsize, hsha⟩
            · rintro ⟨hv, hmay, ht, hind, hfits, hsize, hsha⟩
              exact ⟨⟨hmay, hv, ht, hind⟩,
                ⟨hfits, fun hr => hsha ▸ hind.2.2.2.2.2.1 hr, hsize, hsha⟩, trivial, trivial⟩
        | removalCompleted b result =>
            rw [hst.validateRemovalResult hh hplan]
            simp only [eventActionId] at hplan hph
            simp only [planned_iff hplan, after_iff hph, Admits, SuitsPlan, eventActionId,
              validateTransferEventAgainstPlan, validateRecoveryResolution, eventPhase,
              mayFollow, decide_eq_true_eq, List.mem_singleton]
            constructor
            · rintro ⟨⟨hmay, hrem, hsrc, hdst, hsize, hreg, hval⟩, -,
                ⟨proof, hproof, -, hfits, -, heq⟩, -⟩
              exact ⟨hmay, ⟨hrem, hreg⟩, hsrc, hdst, hsize, hval, proof, hproof, hfits,
                heq⟩
            · rintro ⟨hmay, ⟨hrem, hreg⟩, hsrc, hdst, hsize, hval, proof, hproof, hfits,
                heq⟩
              exact ⟨⟨hmay, hrem, hsrc, hdst, hsize, hreg, hval⟩, trivial,
                ⟨proof, hproof, heq.1 ▸ hsize, hfits, fun hr => heq.2 ▸ hreg hr, heq⟩,
                trivial⟩
        | recoveryResolved b resolution =>
            cases resolution with
            | completed evidence =>
                rw [hst.validateResolution]
                simp only [eventActionId] at hplan hph
                simp only [planned_iff hplan, after_iff hph, Admits, SuitsPlan,
                  eventActionId, validateTransferEventAgainstPlan,
                  validateRemovalResultAgainstProof, eventPhase, mayFollow,
                  decide_eq_true_eq, List.mem_singleton]
                tauto
            | unresolved reason =>
                simp only [eventActionId] at hplan hph
                simp [after_iff hph, Admits, SuitsPlan, eventActionId,
                  validateTransferEventAgainstPlan, validateRemovalResultAgainstProof,
                  validateRecoveryResolution, eventPhase, mayFollow]
        | _ =>
            simp only [eventActionId] at hplan hph
            simp [after_iff hph, planned_iff hplan, Admits, SuitsPlan, eventActionId,
              validateTransferEventAgainstPlan, validateRemovalResultAgainstProof,
              validateRecoveryResolution, eventPhase, mayFollow, and_comm, and_left_comm]

end

/-! ## The whole append -/

/-- The evidence an event carries. -/
def evidenceOf : JournalEvent → Option RecoveryEvidence
  | .transferVerified _ evidence _ => some evidence
  | .proofBoundary _ _ evidence _ => some evidence
  | .removalCompleted _ result => some result.evidence
  | .recoveryReview _ _ evidence => some evidence
  | .recoveryResolved _ (.completed evidence) => some evidence
  | _ => none

def IdentityFits (identity : Option FileIdentity) : Prop :=
  ∀ i ∈ identity, FitsI64 i.device ∧ FitsI64 i.inode

/-- The binding takes the event's file identities. -/
def Binds (e : JournalEvent) : Prop :=
  (∀ p ∈ plan? [e], IdentityFits p.preAction.identity) ∧
    ∀ evidence ∈ evidenceOf e, ∀ p ∈ evidence.provenance,
      IdentityFits p.sourceIdentity

theorem binds_of_bare {e : JournalEvent} (hplan : plan? [e] = none)
    (hevidence : evidenceOf e = none) : Binds e := by
  simp [Binds, hplan, hevidence]

theorem identityFits_iff {identity : Option FileIdentity} :
    IdentityFits identity ↔
      FitsOpt (identity.map (·.device)) ∧ FitsOpt (identity.map (·.inode)) := by
  cases identity <;> simp [IdentityFits]

theorem bindFields_setRecoveryFields {fields : EventFields}
    {evidence : RecoveryEvidence} (hd : fields.preDevice = none)
    (hi : fields.preInode = none) :
    bindFields (setRecoveryFields fields evidence) = .ok () ↔
      ∀ p ∈ evidence.provenance, IdentityFits p.sourceIdentity := by
  cases hp : evidence.provenance <;>
    simp [bindFields, unit_bind_eq_ok, setRecoveryFields, hp, hd, hi, identityFits_iff]

theorem bindFields_fromEvent (e : JournalEvent) :
    bindFields (EventFields.fromEvent e) = .ok () ↔ Binds e := by
  cases e with
  | planned p =>
      simp [bindFields, unit_bind_eq_ok, EventFields.fromEvent, Binds, plan?, evidenceOf,
        identityFits_iff]
  | recoveryResolved _ resolution =>
      cases resolution with
      | completed evidence =>
          simp [EventFields.fromEvent, bindFields_setRecoveryFields, Binds, plan?,
            evidenceOf]
      | unresolved reason =>
          simp [bindFields, unit_bind_eq_ok, EventFields.fromEvent, Binds, plan?,
            evidenceOf]
  | _ =>
      simp [EventFields.fromEvent, bindFields_setRecoveryFields, terminalFields, Binds,
        plan?, evidenceOf] <;> simp [bindFields, unit_bind_eq_ok]

/-- **What it takes for an event to be accepted.** -/
structure Accepts (method : Option String) (accepted : List JournalEvent)
    (e : JournalEvent) : Prop where
  actionId : FitsI64 (eventActionId e)
  admits : Admits method (historyOf accepted (eventActionId e)) e
  inTurn : InTurn accepted e
  binds : Binds e

/-- The run with one more row. -/
def RunJournal.insert (run : RunJournal) (e : JournalEvent) : RunJournal :=
  { run with
    actionEvents := run.actionEvents ++
      [{ actionId := eventActionId e
         sequence := run.nextSequence (eventActionId e)
         fields := EventFields.fromEvent e }] }

section

variable {run run' : RunJournal} {acc : List JournalEvent} {e : JournalEvent}

/-- **One append.** -/
theorem appendEvent_eq_ok (hst : Stores run acc)
    (hh : History run.deletionMethod (historyOf acc (eventActionId e))) :
    run.appendEvent e = .ok run' ↔
      Accepts run.deletionMethod acc e ∧ run' = run.insert e := by
  have hown := hst.passesOwn (e := e) hh
  unfold RunJournal.appendEvent
  simp only [hst.plannedOperation hh, hst.plannedItemType hh, hst.hasPlan hh,
    hst.currentPhase, unit_bind_eq_ok, bindU64_eq_ok, bindFields_fromEvent,
    hst.validateOrder, ok_bind]
  constructor
  · rintro ⟨hfits, hval, htr, hrm, hturn, hres, hbinds, hrun⟩
    exact ⟨⟨hfits, hown.mp ⟨hval, htr, hrm, hres⟩, hturn, hbinds⟩,
      (Except.ok.inj hrun).symm⟩
  · rintro ⟨⟨hfits, hadm, hturn, hbinds⟩, rfl⟩
    obtain ⟨hval, htr, hrm, hres⟩ := hown.mpr hadm
    exact ⟨hfits, hval, htr, hrm, hturn, hres, hbinds, rfl⟩

theorem Stores.insert (hst : Stores run acc) (e : JournalEvent) :
    Stores (run.insert e) (acc ++ [e]) := by
  refine ⟨by simp [RunJournal.insert, hst.rows], fun a => ?_⟩
  by_cases ha : eventActionId e = a
  · subst ha
    have : (run.insert e).rowsOf (eventActionId e) = run.rowsOf (eventActionId e) ++
        [{ actionId := eventActionId e
           sequence := run.nextSequence (eventActionId e)
           fields := EventFields.fromEvent e }] := by
      simp [RunJournal.insert, RunJournal.rowsOf]
    rw [this, List.map_append, hst.numbered]
    simp [List.range_succ, hst.nextSequence]
  · have : (run.insert e).rowsOf a = run.rowsOf a := by
      simp [RunJournal.insert, RunJournal.rowsOf, ha]
    rw [this, hst.numbered]

end

/-! ## Runs of offers -/

/-- What every sequence of offers keeps: the table stores the accepted
events, and each action's of them are a history. -/
structure JournalInv (method : Option String) (run : RunJournal)
    (accepted : List JournalEvent) : Prop where
  frozen : run.deletionMethod = method
  stores : Stores run accepted
  histories : ∀ a, History method (historyOf accepted a)

/-- A run as its snapshot opens it. -/
def RunJournal.opened (method : Option String) : RunJournal :=
  { deletionMethod := method, actionEvents := [] }

/-- The events of a list that the run accepts, offered in order. -/
def RunJournal.offers (method : Option String) (events : List JournalEvent) :
    RunJournal × List JournalEvent :=
  offerAll RunJournal.appendEvent (RunJournal.opened method, []) events

section

variable {method : Option String}

theorem JournalInv.opened : JournalInv method (RunJournal.opened method) [] :=
  ⟨rfl, Stores.nil method, fun _ => History.nil⟩

theorem JournalInv.append {run run' : RunJournal} {acc : List JournalEvent}
    {e : JournalEvent} (h : JournalInv method run acc)
    (happ : run.appendEvent e = .ok run') :
    Accepts method acc e ∧ JournalInv method run' (acc ++ [e]) := by
  obtain ⟨rfl, hst, hhs⟩ := h
  obtain ⟨hacc, rfl⟩ := (appendEvent_eq_ok hst (hhs _)).mp happ
  refine ⟨hacc, rfl, hst.insert e, fun a => ?_⟩
  by_cases ha : eventActionId e = a
  · subst ha
    rw [historyOf_snoc_self]
    exact (hhs _).snoc hacc.admits
  · rw [historyOf_snoc_other ha]
    exact hhs a

/-- **Every sequence of offers leaves a stored journal of histories.** -/
theorem offers_journalInv (method : Option String) (events : List JournalEvent) :
    JournalInv method (RunJournal.offers method events).1
      (RunJournal.offers method events).2 :=
  offerAll_invariant _ (fun _ _ _ _ h happ => (h.append happ).2) JournalInv.opened events

end

end SyncPlus
