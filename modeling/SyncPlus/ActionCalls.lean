import SyncPlus.LocalWorkflow
import SyncPlus.SshWorkflow
import SyncPlus.TraceGrowth

/-!
# The calls of an action

Whatever a driver does for an action, every event it offers is of that action and plans
nothing, and it adds to the trace in no other way. So what one action does leaves the history
of every other as it is.
-/

namespace SyncPlus

/-- The call offers no event, or one of this action other than its plan. -/
def OfAction {χ : Type} (a : ActionId) : Call χ → Prop
  | .journaled event => eventActionId event = a ∧ plan? [event] = none
  | .rejected event _ => eventActionId event = a ∧ plan? [event] = none
  | _ => True

/-- `N` has every event of the action but its plan and the result of its removal. -/
def Takes {χ : Type} (N : Call χ → Prop) (a : ActionId) : Prop :=
  ∀ event, eventActionId event = a → plan? [event] = none → removalOf event = none →
    Offers N event

theorem Offers.ofAction {χ : Type} {a : ActionId} {event : JournalEvent}
    (hid : eventActionId event = a) (hplan : plan? [event] = none) :
    Offers (OfAction (χ := χ) a) event :=
  ⟨⟨hid, hplan⟩, fun _ => ⟨hid, hplan⟩⟩

theorem takes_ofAction {χ : Type} (a : ActionId) : Takes (OfAction (χ := χ) a) a :=
  fun _ hid hplan _ => .ofAction hid hplan

theorem Takes.review {χ : Type} {N : Call χ → Prop} {action : PlanAction}
    (h : Takes N action.actionId) (evidence : RecoveryEvidence) :
    Offers N (.recoveryReview action.actionId .interruptedBoundary evidence) :=
  h _ rfl rfl rfl

/-! ## SSH actions -/

section

variable {σ : Type} {backend : SshBackend σ} {run : SshRun} {plan : OneWayPlan}
  {request : SshTransferRequest} {action : PlanAction}

theorem journals_attemptTransfer
    {retry : Option (SshProgram σ (Except SshTransferExecutionError SshTransferEvidence))}
    (h : ∀ p ∈ retry, Journals (OfAction request.action.actionId) p) :
    Journals (OfAction request.action.actionId) (attemptTransfer backend request retry) := by
  refine (Journals.poll fun _ => trivial).bind fun cancel => .ite (fun _ => .pure) fun _ => ?_
  refine Journals.inquire.bind fun (progress, result) =>
    (Journals.reportProgress fun _ => .ofAction rfl rfl).bind fun reported =>
      (Journals.record trivial).bind fun _ => ?_
  rcases reported with error | ⟨⟩
  · exact .pure
  · cases result with
    | ok evidence => exact .pure
    | error error =>
        cases retry with
        | none => exact .pure
        | some retry => exact .ite (fun _ => h retry rfl) fun _ => .pure

theorem journals_runSshTransfer (retries : Nat) :
    Journals (OfAction request.action.actionId) (runSshTransfer backend request retries) := by
  induction retries with
  | zero => exact journals_attemptTransfer fun p hp => by cases hp
  | succ retries ih =>
      refine journals_attemptTransfer fun p hp => ?_
      obtain rfl := Option.some.inj hp
      exact Journals.inquire.bind fun _ => .ite (fun _ => ih) fun _ => .pure

theorem journals_recordSshFailure {error : SshRunError} :
    Journals (OfAction action.actionId) (recordSshFailure backend action error) := by
  unfold recordSshFailure
  refine .ite (fun _ => ?_) fun _ => .ite (fun _ => Journals.inquire.bind fun _ => ?_)
    fun _ => .ite (fun _ => ?_) fun _ => ?_ <;>
  exact (Journals.journal (.ofAction rfl rfl)).bind fun _ => .pure

theorem journals_recordTransferFailure {error : SshTransferExecutionError} :
    Journals (OfAction action.actionId) (recordTransferFailure backend action error) := by
  cases error with
  | journal error => exact .recordJournalFailure (takes_ofAction _).review
  | remote error => exact journals_recordSshFailure

theorem journals_journalOrReview {event : JournalEvent}
    (h : Offers (OfAction (χ := SshAnswer) action.actionId) event) :
    Journals (OfAction action.actionId)
      (journalOrReview backend.toSurroundings action event : SshProgram σ Unit) :=
  .journalOrReview h (takes_ofAction _).review

theorem journals_journalVerified {evidence : SshTransferEvidence} {missing : String} :
    Journals (OfAction action.actionId)
      (journalVerified backend action evidence missing) := by
  refine Journals.inquire.bind fun now => ?_
  cases evidence.recoveryEvidence now with
  | none => exact .recordJournalFailure (takes_ofAction _).review
  | some proof =>
      exact Journals.bind (journals_journalOrReview (.ofAction rfl rfl)) fun _ => .pure

theorem journals_leaveUnverified {transfers : PathMap SshTransferEvidence} :
    Journals (OfAction action.actionId) (leaveUnverified backend action transfers) :=
  Journals.bind (journals_journalOrReview (.ofAction rfl rfl)) fun _ => .pure

theorem journals_sshCopy (request : SshTransferRequest) {transfers : PathMap SshTransferEvidence} :
    Journals (OfAction request.action.actionId)
      (sshCopy backend plan request transfers) := by
  refine (journals_runSshTransfer _).bind fun result => ?_
  cases result with
  | error error => exact journals_recordTransferFailure.bind fun _ => .pure
  | ok evidence =>
      refine Journals.ofExcept.bind fun item => .ite (fun _ => ?_)
        fun _ => journals_leaveUnverified
      exact journals_journalVerified.bind fun _ =>
        Journals.bind (journals_journalOrReview (.ofAction rfl rfl)) fun _ => .pure

theorem journals_settleRecovery {evidence : SshTransferEvidence}
    {result : Except SshRunError RecoveryEvidence} :
    Journals (OfAction request.action.actionId)
      (settleRecovery backend request evidence result) := by
  cases result with
  | error error => exact journals_recordSshFailure
  | ok recovery =>
      exact .ite (fun _ => Journals.bind (journals_journalOrReview (.ofAction rfl rfl))
        fun _ => .pure) fun _ => journals_recordSshFailure

theorem journals_removeVerified {evidence : SshTransferEvidence} :
    Journals (OfAction request.action.actionId) (removeVerified backend request evidence) := by
  refine journals_journalVerified.bind fun proof => .ite
    (fun _ => (Journals.journal (.ofAction rfl rfl)).bind fun _ => .pure) fun _ =>
      .ite (fun _ => journals_recordSshFailure) fun _ => ?_
  refine Journals.bind (journals_journalOrReview (.ofAction rfl rfl)) fun _ =>
    (Journals.ask fun _ => trivial).bind fun cancel => .ite
      (fun _ => (Journals.journal (.ofAction rfl rfl)).bind fun _ => .pure) fun _ => ?_
  exact (Journals.journal (.ofAction rfl rfl)).bind fun _ =>
    (Journals.ask fun _ => trivial).bind fun _ => journals_settleRecovery

theorem journals_sshRemove (request : SshTransferRequest)
    {transfers : PathMap SshTransferEvidence} :
    Journals (OfAction request.action.actionId)
      (sshRemove backend plan request transfers) := by
  have hevidence : Journals (OfAction request.action.actionId)
      (sshTransferFor backend plan request transfers) := by
    unfold sshTransferFor
    cases transfers.get request.action.relativePath with
    | some evidence => exact .pure
    | none => exact journals_runSshTransfer _
  refine hevidence.bind fun result => ?_
  cases result with
  | error error => exact journals_recordTransferFailure.bind fun _ => .pure
  | ok evidence =>
      exact Journals.ofExcept.bind fun item => .ite
        (fun _ => journals_removeVerified.bind fun _ => .pure) fun _ => journals_leaveUnverified

theorem journals_executeSshAction {transfers : PathMap SshTransferEvidence} :
    Journals (OfAction action.actionId) (executeSshAction backend run action transfers) := by
  refine (Journals.journal (.ofAction rfl rfl)).bind fun _ =>
    (Journals.journal (.ofAction rfl rfl)).bind fun _ => .ite
      (fun _ => (Journals.journal (.ofAction rfl rfl)).bind fun _ => .pure) fun _ =>
        Journals.ofExcept.bind fun remotePeer => .ite
          (fun _ => journals_sshRemove (run.request action remotePeer)) fun _ =>
            journals_sshCopy (run.request action remotePeer)

end

/-! ## Local actions -/

namespace LocalWorkflow

section

variable {σ : Type} {backend : LocalBackend σ} {run : LocalRun} {action : PlanAction}
  {N : Call LocalAnswer → Prop}

theorem journals_reportUnlessFailed {failed : Option StorageError} {progress : Option UInt64}
    (h : Takes N action.actionId) :
    Journals N (reportUnlessFailed (σ := σ) action failed progress) := by
  cases failed with
  | some error => exact .pure
  | none =>
      refine (Journals.reportProgress fun _ => h _ rfl rfl rfl).bind fun r => ?_
      cases r <;> exact .pure

theorem journals_attemptTransfer {paths : Except TransferError (PathBuf × PathBuf)}
    {failed : Option StorageError} :
    Journals (OfAction action.actionId) (attemptTransfer backend run action paths failed) := by
  unfold attemptTransfer
  cases paths with
  | error error => exact .pure
  | ok paths =>
      exact Journals.inquire.bind fun _ =>
        (journals_reportUnlessFailed (takes_ofAction _)).bind fun _ =>
          (Journals.record trivial).bind fun _ => .pure

theorem journals_attemptOnce {paths : Except TransferError (PathBuf × PathBuf)} {retried : Nat}
    {failed : Option StorageError}
    {retry : Option (Option StorageError → LocalProgram σ
      (Nat × Option StorageError × Except TransferError VerifiedReplacement))}
    (h : ∀ p ∈ retry, ∀ failed, Journals (OfAction action.actionId) (p failed)) :
    Journals (OfAction action.actionId)
      (attemptOnce backend run action paths retried failed retry) := by
  refine (Journals.poll fun _ => trivial).bind fun cancel => .ite (fun _ => .pure) fun _ =>
    journals_attemptTransfer.bind fun (failed, result) => ?_
  cases result with
  | ok replacement => exact .pure
  | error error =>
      cases retry with
      | none => exact .pure
      | some retry => exact .ite (fun _ => h retry rfl failed) fun _ => .pure

theorem journals_retryTransferWithHook {paths : Except TransferError (PathBuf × PathBuf)}
    (left : Nat) : ∀ (retried : Nat) (failed : Option StorageError),
      Journals (OfAction action.actionId)
        (retryTransferWithHook backend run action paths left retried failed) := by
  induction left with
  | zero => exact fun _ _ => journals_attemptOnce nofun
  | succ left ih =>
      refine fun retried _ => journals_attemptOnce fun p hp failed => ?_
      obtain rfl := Option.some.inj hp
      exact Journals.inquire.bind fun _ => .ite (fun _ => ih _ _) fun _ => .pure

theorem journals_recordSchedulerRetryIfNeeded {retried : Nat}
    {result : Except TransferError VerifiedReplacement} :
    Journals N (recordSchedulerRetryIfNeeded backend run retried result) := by
  refine .ite (fun _ => .pure) fun _ => Journals.inquire.bind fun scheduled => ?_
  rcases scheduled with error | (_ | _)
  · exact .fail
  · exact .pure
  · refine Journals.inquire.bind fun r => ?_
    rcases r with error | ⟨⟩
    · exact .fail
    · exact .pure

theorem journals_runTransfer {paths : Except TransferError (PathBuf × PathBuf)} :
    Journals (OfAction action.actionId) (runTransfer backend run action paths) := by
  refine (journals_retryTransferWithHook _ _ _).bind fun (retried, failed, result) =>
    journals_recordSchedulerRetryIfNeeded.bind fun _ => ?_
  cases failed with
  | some error => exact .recordJournalFailure (takes_ofAction _).review
  | none => exact .pure

theorem journals_recordTransferFailure {error : TransferError} (h : Takes N action.actionId) :
    Journals N (recordTransferFailure backend action error) := by
  refine .ite (fun _ => ?_) fun _ => .ite (fun _ => ?_) fun _ => ?_
  · exact (Journals.journal (h _ rfl rfl rfl)).bind fun _ => .pure
  · exact Journals.observeActionBoundary.bind fun _ =>
      (Journals.journal (h _ rfl rfl rfl)).bind fun _ => .pure
  · exact (Journals.journal (h _ rfl rfl rfl)).bind fun _ => .pure

theorem journals_localTransferEvidence {replacement : VerifiedReplacement} :
    Journals N (localTransferEvidence backend replacement) := by
  refine Journals.inquire.bind fun r => ?_
  cases r with
  | error error => exact .pure
  | ok destination => exact Journals.inquire.bind fun _ => .pure

theorem journals_executeCopy {replacements : PathMap VerifiedReplacement} :
    Journals (OfAction action.actionId) (executeCopy backend run action replacements) := by
  refine journals_runTransfer.bind fun result => ?_
  cases result with
  | error error => exact (journals_recordTransferFailure (takes_ofAction _)).bind fun _ => .pure
  | ok replacement =>
      refine journals_localTransferEvidence.bind fun evidence => ?_
      cases evidence with
      | error error => exact .recordJournalFailure (takes_ofAction _).review
      | ok evidence =>
          refine (Journals.journalOrReview (.ofAction rfl rfl) (takes_ofAction _).review).bind
            fun _ => ?_
          exact (Journals.journalOrReview (.ofAction rfl rfl) (takes_ofAction _).review).bind
            fun _ => .pure

/-! ### Removals -/

theorem journals_journalRemoval {event : JournalEvent} (h : Offers N event) :
    Journals N (journalRemoval event : SafeDeleteProgram σ Unit) :=
  (Journals.appendEvent h).bind fun r => by
    cases r
    · exact .fail
    · exact .pure

theorem journals_readJournal {ε : Type} :
    Journals N (readJournal : Program (Machine σ LocalAnswer) ε _) :=
  fun _ => ⟨rfl, .refl⟩

theorem journals_loadJournal : Journals N (loadJournal : SafeDeleteProgram σ _) :=
  journals_readJournal.bind fun r => by
    cases r
    · exact .fail
    · exact .pure

theorem journals_questioned {α ε : Type} {question : σ → Except ε α × σ}
    {raise : ε → SafeDeleteError} : Journals N (questioned question raise) :=
  Journals.inquire.bind fun r => by
    cases r
    · exact .fail
    · exact .pure

theorem journals_recorded {α ε : Type} {question : σ → Except ε α × σ}
    {answered : Except ε α → LocalAnswer} {raise : ε → SafeDeleteError}
    (h : ∀ r, N (.answered (answered r))) : Journals N (recorded question answered raise) :=
  (Journals.ask h).bind fun r => by
    cases r
    · exact .fail
    · exact .pure

theorem journals_orUnresolved {α : Type} {checks : SafeDeleteProgram σ α}
    (h : Journals (OfAction action.actionId) checks) :
    Journals (OfAction action.actionId) (orUnresolved action checks) :=
  h.attempt.bind fun r => by
    cases r
    · exact (journals_journalRemoval (.ofAction rfl rfl)).bind fun _ => .fail
    · exact .pure

theorem journals_checkUnattended {selected : DeletionMethod} :
    Journals (OfAction action.actionId) (checkUnattended backend selected) :=
  .ite (fun _ => (journals_recorded fun _ => trivial).bind fun _ => .ite
    (fun _ => (journals_recorded fun _ => trivial).bind fun _ => .ofExcept) fun _ => .pure)
    fun _ => .pure

theorem journals_proveSource {replacement : VerifiedReplacement} {destination : PathBuf} :
    Journals (OfAction action.actionId)
      (proveSource backend run action replacement destination) := by
  have hinstalled : Journals (OfAction action.actionId)
      (verifyInstalled backend destination replacement.proof.installedDestination) := by
    cases replacement.proof.installedDestination with
    | none => exact .pure
    | some expected => exact (journals_recorded fun _ => trivial).bind fun _ => .pure
  exact journals_questioned.bind fun _ => journals_questioned.bind fun _ =>
    Journals.ofExcept.bind fun _ => journals_loadJournal.bind fun _ =>
      Journals.ofExcept.bind fun _ => Journals.ofExcept.bind fun _ =>
        Journals.ofExcept.bind fun _ => (journals_recorded fun _ => trivial).bind fun _ =>
          hinstalled.bind fun _ => (journals_recorded fun _ => trivial).bind fun _ =>
            Journals.ofExcept.bind fun _ => .pure

theorem journals_checkRecoveryTarget {proof : VerifiedTransferProof} {proved : ProvedSource} :
    Journals N (checkRecoveryTarget backend run proof proved) := by
  unfold checkRecoveryTarget
  cases run.recoveryMethod.recoveryRoot with
  | none => exact .pure
  | some root =>
      exact journals_questioned.bind fun _ => journals_questioned.bind fun _ =>
        .ite (fun _ => .fail)
          fun _ => .ite (fun _ => journals_questioned.bind fun _ => .pure) fun _ => .pure

theorem journals_checkRemoval {replacement : VerifiedReplacement} :
    Journals (OfAction action.actionId) (checkRemoval backend run action replacement) :=
  Journals.ofExcept.bind fun _ => journals_checkUnattended.bind fun _ =>
    (journals_loadJournal.bind fun _ => .ofExcept).bind fun _ => Journals.ofExcept.bind fun _ =>
      Journals.ofExcept.bind fun _ => Journals.ofExcept.bind fun _ => journals_orUnresolved
        (journals_proveSource.bind fun _ => journals_checkRecoveryTarget.bind fun _ => .pure)

theorem journals_removalProvenance {selected : DeletionMethod} {proof : VerifiedTransferProof}
    {proved : ProvedSource} :
    Journals N (removalProvenance backend run action selected proof proved) := by
  unfold removalProvenance
  cases run.recoveryMethod.recoveryRoot with
  | none => exact .pure
  | some root =>
      exact journals_questioned.bind fun _ => Journals.inquire.bind fun _ => Journals.ofExcept.bind
        fun _ => .pure

theorem journals_observeRecoveryBoundary {ε : Type} {source destination : PathBuf}
    {recoveryTarget : Option PathBuf} :
    Journals N (observeRecoveryBoundary backend source destination recoveryTarget :
      Program (Machine σ LocalAnswer) ε _) := by
  have hpresent : Journals N (observePresent backend recoveryTarget :
      Program (Machine σ LocalAnswer) ε _) := by
    cases recoveryTarget with
    | none => exact .pure
    | some path => exact Journals.inquire.bind fun _ => .pure
  exact Journals.inquire.bind fun _ => Journals.inquire.bind fun _ => hpresent.bind fun _ =>
    Journals.inquire.bind fun _ => .pure

theorem journals_recordFailure {α : Type} {source destination : PathBuf}
    {recoveryTarget : Option PathBuf} {error : SafeDeleteError} :
    Journals (OfAction action.actionId)
      (recordFailure backend action source destination recoveryTarget error :
        SafeDeleteProgram σ α) :=
  .ite (fun _ => journals_observeRecoveryBoundary.bind fun _ =>
    (journals_journalRemoval (.ofAction rfl rfl)).bind fun _ => .fail) fun _ =>
    (journals_journalRemoval (.ofAction rfl rfl)).bind fun _ => .fail

theorem journals_settleRemoval {source destination : PathBuf} {recoveryTarget : Option PathBuf}
    {result : Except SafeDeleteError RemovalResult} :
    Journals (OfAction action.actionId)
      (settleRemoval backend action source destination recoveryTarget result) := by
  cases result with
  | error error => exact journals_recordFailure
  | ok result =>
      refine (Journals.appendEvent (.ofAction rfl rfl)).bind fun r => ?_
      cases r with
      | error error => exact journals_recordFailure
      | ok _ => exact .pure

theorem journals_removeProved {replacement : VerifiedReplacement} {checked : CheckedRemoval} :
    Journals (OfAction action.actionId)
      (removeProved backend run action replacement checked) :=
  journals_removalProvenance.bind fun _ => Journals.inquire.bind fun _ =>
    (journals_journalRemoval (.ofAction rfl rfl)).bind fun _ =>
      (journals_journalRemoval (.ofAction rfl rfl)).bind fun _ =>
        (journals_journalRemoval (.ofAction rfl rfl)).bind fun _ =>
          (Journals.ask fun _ => trivial).bind fun _ => journals_settleRemoval

theorem journals_recordUnsettled {error : SafeDeleteError} (h : Takes N action.actionId) :
    Journals N (recordUnsettled backend action error) := by
  refine journals_readJournal.bind fun _ => Journals.ofExcept.bind fun _ => .ite (fun _ => .pure)
    fun _ => .ite (fun _ => ?_) fun _ => .journal (h _ rfl rfl rfl)
  exact Journals.observeActionBoundary.bind fun _ => .journal (h _ rfl rfl rfl)

theorem journals_settleSourceRemoval {replacement : VerifiedReplacement} :
    Journals (OfAction action.actionId) (settleSourceRemoval backend run action replacement) := by
  refine (Journals.ask fun _ => trivial).bind fun cancel => .ite
    (fun _ => (Journals.journal (.ofAction rfl rfl)).bind fun _ => .pure) fun _ =>
      (journals_checkRemoval.bind fun _ => journals_removeProved).attempt.bind fun r => ?_
  cases r with
  | ok _ => exact .pure
  | error error => exact (journals_recordUnsettled (takes_ofAction _)).bind fun _ => .pure

theorem journals_executeRemoval {replacements : PathMap VerifiedReplacement} :
    Journals (OfAction action.actionId) (executeRemoval backend run action replacements) := by
  unfold executeRemoval
  cases replacements.get action.relativePath with
  | some replacement => exact journals_settleSourceRemoval.bind fun _ => .pure
  | none =>
      refine journals_runTransfer.bind fun result => ?_
      cases result with
      | ok replacement => exact journals_settleSourceRemoval.bind fun _ => .pure
      | error error => exact (journals_recordTransferFailure (takes_ofAction _)).bind fun _ => .pure

theorem journals_executeAction {replacements : PathMap VerifiedReplacement} :
    Journals (OfAction action.actionId) (executeAction backend run action replacements) := by
  refine (Journals.journal (.ofAction rfl rfl)).bind fun _ =>
    (Journals.journal (.ofAction rfl rfl)).bind fun _ => ?_
  cases action.kind with
  | copyToDestination => exact journals_executeCopy
  | overwriteDestination => exact journals_executeCopy
  | removeSourceAfterVerification => exact journals_executeRemoval
  | removeDestination => exact (Journals.journal (.ofAction rfl rfl)).bind fun _ => .pure

end

end LocalWorkflow

end SyncPlus
