import Mathlib.Data.List.Induction
import SyncPlus.JournalReplay

/-!
# The history of an action

What the journal is for, apart from how the table stores it: each action
has a history, the events accepted for it in order, and a history says
what the action's entry is (`entryOf`).

`Admits` puts in one place everything an event has to satisfy against
the history of its own action, and `History` is the histories built from
admitted events alone. The shape of a history follows by inversion, one
event back at a time: an event names the phases it may follow, and a
phase names the event that set it (`History.last`).
-/

namespace SyncPlus

/-- The accepted events of one action. -/
def historyOf (accepted : List JournalEvent) (actionId : ActionId) :
    List JournalEvent :=
  accepted.filter fun e => eventActionId e = actionId

/-! ## Reading a history -/

def plan? : List JournalEvent → Option PlanRecord
  | .planned plan :: _ => some plan
  | _ => none

/-- The phase a history has reached. -/
def phase? (hs : List JournalEvent) : Option String :=
  hs.getLast?.map eventPhase

def After (hs : List JournalEvent) (phases : List String) : Prop :=
  ∃ phase ∈ phases, phase? hs = some phase

def isStarted : JournalEvent → Bool
  | .started _ => true
  | _ => false

def isProgress : JournalEvent → Bool
  | .progress _ _ => true
  | _ => false

def progressOf : JournalEvent → Option UInt64
  | .progress _ bytes => some bytes
  | _ => none

def transferOf : JournalEvent → Option RecoveryEvidence
  | .transferVerified _ evidence _ => some evidence
  | _ => none

def proofOf : JournalEvent → Option RecoveryEvidence
  | .proofBoundary _ _ evidence _ => some evidence
  | _ => none

def removalOf : JournalEvent → Option RemovalResult
  | .removalCompleted _ result => some result
  | _ => none

def reviewOf : JournalEvent → Option RecoveryEvidence
  | .recoveryReview _ _ evidence => some evidence
  | _ => none

def resolutionOf : JournalEvent → Option RecoveryEvidence
  | .recoveryResolved _ (.completed evidence) => some evidence
  | _ => none

/-- The outcome an event gives its action, when it gives one. -/
def outcomeOf : JournalEvent → Option ActionOutcome
  | .planned _ => some .inProgress
  | .started _ => none
  | .progress _ _ => none
  | .transferVerified _ _ _ => some .inProgress
  | .proofBoundary _ _ _ _ => some (.recoveryReview .interruptedBoundary)
  | .removalStarted _ _ => some (.recoveryReview .interruptedBoundary)
  | .removalCompleted _ _ => some .completed
  | .completed _ => some .completed
  | .failed _ reason => some (.failed reason)
  | .cancelled _ => some .cancelled
  | .interrupted _ => some .interrupted
  | .deferred _ => some .deferred
  | .unresolved _ reason => some (.unresolved reason)
  | .recoveryReview _ reason _ => some (.recoveryReview reason)
  | .recoveryResolved _ (.completed _) => some .completed
  | .recoveryResolved _ (.unresolved reason) => some (.unresolved reason)

/-- The last event of a history that `f` reads something from. -/
def latest? {α : Type} (f : JournalEvent → Option α) (hs : List JournalEvent) :
    Option α :=
  (hs.filterMap f).getLast?

/-- **The entry a history stands for.** -/
def entryOf (hs : List JournalEvent) : Option ActionJournalEntry :=
  (plan? hs).map fun plan => {
    plan
    lastPhase := (phase? hs).getD ""
    started := hs.any isStarted
    progressBytes := hs.filterMap progressOf
    outcome := (latest? outcomeOf hs).getD .inProgress
    transferEvidence := latest? transferOf hs
    proofBoundary := latest? proofOf hs
    removalResult := latest? removalOf hs
    recoveryEvidence := latest? reviewOf hs
    recoveryResolutionEvidence := latest? resolutionOf hs }

/-! ## Appending to a history -/

section

variable {hs : List JournalEvent} {e : JournalEvent}

@[simp] theorem phase?_nil : phase? [] = none := rfl

@[simp] theorem phase?_snoc : phase? (hs ++ [e]) = some (eventPhase e) := by
  simp [phase?]

@[simp] theorem latest?_snoc {α : Type} {f : JournalEvent → Option α} :
    latest? f (hs ++ [e]) = (f e).or (latest? f hs) := by
  cases h : f e <;> simp [latest?, h]

theorem plan?_snoc {plan : PlanRecord} (h : plan? hs = some plan) :
    plan? (hs ++ [e]) = some plan := by
  cases hs with
  | nil => cases h
  | cons d ds => cases d <;> simp_all [plan?]

theorem plan?_ne_nil {plan : PlanRecord} (h : plan? hs = some plan) : hs ≠ [] := by
  rintro rfl
  cases h

theorem plan?_eq_some {plan : PlanRecord} :
    plan? hs = some plan ↔ ∃ tail, hs = .planned plan :: tail := by
  cases hs with
  | nil => simp [plan?]
  | cons d ds => cases d <;> simp [plan?]

theorem after_snoc {phases : List String} :
    After (hs ++ [e]) phases ↔ eventPhase e ∈ phases := by
  simp [After]

theorem not_after_nil {phases : List String} : ¬ After [] phases := by
  simp [After]

end

/-- What the entry of an action becomes with one more event. -/
def ActionJournalEntry.record (entry : ActionJournalEntry) (e : JournalEvent) :
    ActionJournalEntry :=
  { entry with
    lastPhase := eventPhase e
    started := entry.started || isStarted e
    progressBytes := entry.progressBytes ++ (progressOf e).toList
    outcome := (outcomeOf e).getD entry.outcome
    transferEvidence := (transferOf e).or entry.transferEvidence
    proofBoundary := (proofOf e).or entry.proofBoundary
    removalResult := (removalOf e).or entry.removalResult
    recoveryEvidence := (reviewOf e).or entry.recoveryEvidence
    recoveryResolutionEvidence :=
      (resolutionOf e).or entry.recoveryResolutionEvidence }

theorem entryOf_snoc {hs : List JournalEvent} {e : JournalEvent}
    {entry : ActionJournalEntry} (h : entryOf hs = some entry) :
    entryOf (hs ++ [e]) = some (entry.record e) := by
  unfold entryOf at h ⊢
  obtain ⟨plan, hplan, rfl⟩ := Option.map_eq_some_iff.mp h
  rw [plan?_snoc hplan, Option.map_some]
  have hprogress : (hs ++ [e]).filterMap progressOf =
      hs.filterMap progressOf ++ (progressOf e).toList := by
    cases hp : progressOf e <;> simp [hp]
  have houtcome : ((outcomeOf e).or (latest? outcomeOf hs)).getD .inProgress =
      (outcomeOf e).getD ((latest? outcomeOf hs).getD .inProgress) := by
    cases outcomeOf e <;> rfl
  simp [ActionJournalEntry.record, hprogress, houtcome]

/-! ## Admitted events -/

/-- The plan of a history, with what an event asks of it. -/
def Planned (hs : List JournalEvent) (P : PlanRecord → Prop) : Prop :=
  ∃ plan, plan? hs = some plan ∧ P plan

/-- The plan removes its source, by the method the run has frozen. -/
def RemovesBy (method : Option String) (m : DeletionMethod) (plan : PlanRecord) :
    Prop :=
  plan.operation = .removeSourceAfterVerification ∧
    method = some (encodeDeletionMethod m)

/-- Everything an event has to satisfy against the history of its own
action. `method` is the deletion method frozen with the run. -/
def Admits (method : Option String) (hs : List JournalEvent) : JournalEvent → Prop
  | .planned _ => hs = []
  | .started _ => After hs ["planned"]
  | .progress _ _ => After hs ["started", "progress"]
  | .transferVerified _ evidence metadataVerified =>
      metadataVerified = true ∧ After hs ["started", "progress"] ∧
        Planned hs fun plan =>
          plan.operation.transfers = true ∧ IndependentProof plan.regular evidence ∧
            FitsI64 plan.preAction.size ∧
            evidence.sourceSize = some plan.preAction.size ∧
            evidence.sourceSha256 = plan.preAction.sha256
  | .proofBoundary _ m evidence metadataVerified =>
      metadataVerified = true ∧ After hs ["transfer_verified"] ∧
        Planned hs fun plan =>
          RemovesBy method m plan ∧ IndependentProof plan.regular evidence
  | .removalStarted _ m =>
      After hs ["proof_boundary"] ∧ Planned hs (RemovesBy method m)
  | .removalCompleted _ result =>
      After hs ["removal_started"] ∧
        Planned hs (fun plan =>
          RemovesBy method result.deletionMethod plan ∧
            (plan.regular = true → result.evidence.destinationSha256.isSome = true)) ∧
        result.evidence.sourcePresent = false ∧
        result.evidence.destinationPresent = true ∧
        result.evidence.destinationSize.isSome = true ∧
        ValidRecovery result.deletionMethod result.evidence ∧
        ∃ proof, latest? proofOf hs = some proof ∧ FitsOpt proof.destinationSize ∧
          result.evidence.destinationSize = proof.destinationSize ∧
          result.evidence.destinationSha256 = proof.destinationSha256
  | .completed _ =>
      After hs runningPhases ∧
        Planned hs fun plan => plan.operation ≠ .removeSourceAfterVerification
  | .failed _ _ => After hs runningPhases
  | .cancelled _ => After hs ["planned", "started", "progress"]
  | .interrupted _ => After hs ["planned", "started", "progress"]
  | .deferred _ => After hs runningPhases
  | .unresolved _ _ => After hs runningPhases
  | .recoveryReview _ _ _ => After hs runningPhases
  | .recoveryResolved _ resolution =>
      After hs ["recovery_review"] ∧
        match resolution with
        | .completed evidence =>
            Planned hs (fun plan => plan.operation ≠ .removeSourceAfterVerification) ∧
              ∃ review, latest? reviewOf hs = some review ∧
                review.observedAtUnixNanos < evidence.observedAtUnixNanos
        | .unresolved _ => True

/-- Histories all of whose events were admitted. -/
inductive History (method : Option String) : List JournalEvent → Prop where
  | nil : History method []
  | snoc {hs : List JournalEvent} {e : JournalEvent} :
      History method hs → Admits method hs e → History method (hs ++ [e])

/-- A history is one at each of its events: what came before is a history
that admits the event. -/
theorem History.split {method : Option String} {init tail : List JournalEvent}
    {e : JournalEvent} (h : History method (init ++ e :: tail)) :
    History method init ∧ Admits method init e := by
  induction tail using List.reverseRecOn with
  | nil =>
      generalize hl : init ++ [e] = l at h
      cases h with
      | nil => simp at hl
      | snoc h hadm =>
          obtain ⟨rfl, heq⟩ := List.append_inj' hl rfl
          obtain rfl := List.singleton_inj.mp heq
          exact ⟨h, hadm⟩
  | append_singleton tail d ih =>
      apply ih
      generalize hl : init ++ e :: (tail ++ [d]) = l at h
      cases h with
      | nil => simp at hl
      | snoc h hadm =>
          rw [← List.cons_append, ← List.append_assoc] at hl
          obtain ⟨rfl, -⟩ := List.append_inj' hl rfl
          exact h

theorem History.last {method : Option String} {init : List JournalEvent}
    {e : JournalEvent} (h : History method (init ++ [e])) :
    History method init ∧ Admits method init e :=
  History.split h

end SyncPlus
