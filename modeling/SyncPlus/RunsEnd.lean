import SyncPlus.ActionCalls
import SyncPlus.JournalExact

/-!
# Runs and their ends

Both drivers journal the plan first, then execute one action after another in one loop. So
every run keeps the order the journal asks for, with at most one action in flight at a time;
and a run that returns, finished or stopped, has brought every planned action to an outcome:
the action itself was executed to one, or it was cancelled with the rest.
-/

namespace SyncPlus

/-! ## Outcomes -/

/-- The action has come to an outcome. -/
def Concluded {χ : Type} (a : ActionId) (calls : List (Call χ)) : Prop :=
  ∃ outcome, latest? outcomeOf (historyOf (accepted calls) a) = some outcome ∧
    outcome ≠ .inProgress

/-- The event brings its action to an outcome. -/
def concludes (event : JournalEvent) : Bool :=
  (outcomeOf event).any (· ≠ .inProgress)

section

variable {χ : Type} {a b : ActionId} {method : Option String} {c c' : List (Call χ)}
  {event : JournalEvent}

theorem concluded_snoc (h : concludes event = true) :
    Concluded (eventActionId event) (c ++ [.journaled event]) := by
  obtain ⟨outcome, houtcome, hne⟩ : ∃ outcome, outcomeOf event = some outcome ∧
      outcome ≠ .inProgress := by
    simpa [concludes, Option.any_eq_true] using h
  refine ⟨outcome, ?_, hne⟩
  rw [accepted_append, accepted_cons_journaled, accepted_nil, historyOf_snoc_self, latest?_snoc,
    houtcome]
  rfl

/-- What is done for one action leaves the history of every other. -/
theorem Grows.historyOf_other (h : Grows (OfAction b) method c c') (hne : b ≠ a) :
    historyOf (accepted c') a = historyOf (accepted c) a := by
  induction h with
  | refl => rfl
  | @snoc c' call _ hcall _ ih =>
      cases call with
      | journaled event =>
          rw [accepted_append, accepted_cons_journaled, accepted_nil,
            historyOf_snoc_other (hcall.1 ▸ hne), ih]
      | _ => simpa using ih

theorem Concluded.grows (h : Concluded a c) (hgrows : Grows (OfAction b) method c c')
    (hne : b ≠ a) : Concluded a c' := by
  unfold Concluded
  rwa [hgrows.historyOf_other hne]

end

/-! ## Programs that conclude an action -/

/-- When the program returns, the action has come to an outcome. -/
def Concludes {σ χ ε α : Type} (a : ActionId) (p : Program (Machine σ χ) ε α) : Prop :=
  Triple (fun _ => True) p (fun _ m => Concluded a m.calls) fun _ _ => True

section

variable {σ χ ε α β : Type} {a : ActionId} {p q : Program (Machine σ χ) ε α}

/-- Whatever came before. -/
theorem Concludes.after {f : α → Program (Machine σ χ) ε β} (h : ∀ x, Concludes a (f x)) :
    Concludes a (p >>= f) := by
  refine Triple.bind (Q := fun _ _ => True) (fun m _ => ?_) h
  rcases p m with ⟨e | x, m'⟩ <;> trivial

theorem Concludes.returns {g : α → β} (h : Concludes a p) :
    Concludes a (p >>= fun x => pure (g x)) :=
  Triple.bind h fun _ => .pure fun _ hm => hm

theorem Concludes.fail {e : ε} : Concludes a (.fail e : Program (Machine σ χ) ε α) :=
  Triple.fail fun _ _ => trivial

theorem Concludes.ite {b : Prop} [Decidable b] (hp : b → Concludes a p)
    (hq : ¬ b → Concludes a q) : Concludes a (if b then p else q) :=
  Triple.ite hp hq

variable {env : Surroundings σ} {action : PlanAction} {event : JournalEvent}

theorem Concludes.of_calls (h : ∀ c, Triple (fun m => m.calls = c) p
    (fun _ m => Concluded a m.calls) fun _ _ => True) : Concludes a p :=
  fun m _ => h m.calls m rfl

theorem concludes_journal (hid : eventActionId event = a) (h : concludes event = true) :
    Concludes a (journal event : Program (Machine σ χ) WorkflowError Unit) := by
  subst hid
  exact .of_calls fun c => (journal_calls (I := fun _ => True) fun _ => trivial).post
    fun _ _ hm => hm ▸ concluded_snoc h

/-- A journal failure is never returned from. -/
theorem concludes_recordJournalFailure {error : WorkflowError} :
    Concludes a (recordJournalFailure env action error :
      Program (Machine σ χ) WorkflowError α) := by
  refine .after fun evidence => .after fun r => ?_
  cases r <;> exact .fail

theorem concludes_journalOrReview (hid : eventActionId event = a)
    (h : concludes event = true) :
    Concludes a (journalOrReview env action event :
      Program (Machine σ χ) WorkflowError Unit) := by
  subst hid
  refine .of_calls fun c => Triple.bind (appendEvent_calls.weaken (fun _ h => h)
    (fun _ _ h => h) fun _ _ h => h.elim) fun r => ?_
  cases r with
  | error error => exact concludes_recordJournalFailure.pre fun _ _ => trivial
  | ok _ => exact .pure fun _ hm => hm ▸ concluded_snoc h

end

/-! ## SSH actions -/

section

variable {σ : Type} {backend : SshBackend σ} {run : SshRun} {plan : OneWayPlan}
  {request : SshTransferRequest} {action : PlanAction}

theorem concludes_recordSshFailure {error : SshRunError} :
    Concludes action.actionId (recordSshFailure backend action error) := by
  refine .ite (fun _ => (concludes_journal rfl rfl).returns) fun _ => .ite
    (fun _ => .after fun _ => ?_) fun _ => .ite (fun _ => ?_) fun _ => ?_
  all_goals exact (concludes_journal rfl (by simp [concludes, outcomeOf])).returns

theorem concludes_recordTransferFailure {error : SshTransferExecutionError} :
    Concludes action.actionId (recordTransferFailure backend action error) := by
  cases error with
  | journal error => exact concludes_recordJournalFailure
  | remote error => exact concludes_recordSshFailure

theorem concludes_leaveUnverified {transfers : PathMap SshTransferEvidence} :
    Concludes action.actionId (leaveUnverified backend action transfers) :=
  (concludes_journalOrReview rfl (by simp [concludes, outcomeOf])).returns

theorem concludes_sshCopy (request : SshTransferRequest) {transfers : PathMap SshTransferEvidence} :
    Concludes request.action.actionId (sshCopy backend plan request transfers) := by
  refine .after fun result => ?_
  cases result with
  | error error => exact concludes_recordTransferFailure.returns
  | ok evidence =>
      exact .after fun item => .ite
        (fun _ => .after fun _ => (concludes_journalOrReview rfl rfl).returns)
        fun _ => concludes_leaveUnverified

theorem concludes_settleRecovery {evidence : SshTransferEvidence}
    {result : Except SshRunError RecoveryEvidence} :
    Concludes request.action.actionId (settleRecovery backend request evidence result) := by
  cases result with
  | error error => exact concludes_recordSshFailure
  | ok recovery =>
      exact .ite (fun _ => (concludes_journalOrReview rfl rfl).returns)
        fun _ => concludes_recordSshFailure

theorem concludes_removeVerified {evidence : SshTransferEvidence} :
    Concludes request.action.actionId (removeVerified backend request evidence) :=
  .after fun _ => .ite
    (fun _ => (concludes_journal rfl (by simp [concludes, outcomeOf])).returns) fun _ => .ite
      (fun _ => concludes_recordSshFailure) fun _ => .after fun _ => .after fun cancel => .ite
        (fun _ => (concludes_journal rfl rfl).returns) fun _ => .after fun _ => .after
          fun _ => concludes_settleRecovery

theorem concludes_sshRemove (request : SshTransferRequest)
    {transfers : PathMap SshTransferEvidence} :
    Concludes request.action.actionId (sshRemove backend plan request transfers) := by
  refine .after fun result => ?_
  cases result with
  | error error => exact concludes_recordTransferFailure.returns
  | ok evidence =>
      exact .after fun item => .ite (fun _ => concludes_removeVerified.returns)
        fun _ => concludes_leaveUnverified

theorem concludes_executeSshAction {transfers : PathMap SshTransferEvidence} :
    Concludes action.actionId (executeSshAction backend run action transfers) :=
  .after fun _ => .after fun _ => .ite (fun _ => (concludes_journal rfl rfl).returns)
    fun _ => .after fun remotePeer => .ite
      (fun _ => concludes_sshRemove (run.request action remotePeer))
      fun _ => concludes_sshCopy (run.request action remotePeer)

end

/-! ## Local actions -/

namespace LocalWorkflow

section

variable {σ : Type} {backend : LocalBackend σ} {run : LocalRun} {action : PlanAction}

theorem concludes_recordTransferFailure {error : TransferError} :
    Concludes action.actionId (recordTransferFailure backend action error) := by
  refine .ite (fun _ => (concludes_journal rfl rfl).returns) fun _ => .ite
    (fun _ => .after fun _ => ?_) fun _ => ?_
  all_goals exact (concludes_journal rfl (by simp [concludes, outcomeOf])).returns

theorem concludes_executeCopy {replacements : PathMap VerifiedReplacement} :
    Concludes action.actionId (executeCopy backend run action replacements) := by
  refine .after fun result => ?_
  cases result with
  | error error => exact concludes_recordTransferFailure.returns
  | ok replacement =>
      refine .after fun evidence => ?_
      cases evidence with
      | error error => exact concludes_recordJournalFailure
      | ok evidence => exact .after fun _ => (concludes_journalOrReview rfl rfl).returns

/-- The failure of a removal is never returned from. -/
theorem concludes_recordFailure {α : Type} {source destination : PathBuf}
    {recoveryTarget : Option PathBuf} {error : SafeDeleteError} :
    Concludes action.actionId
      (recordFailure backend action source destination recoveryTarget error :
        SafeDeleteProgram σ α) :=
  .ite (fun _ => .after fun _ => .after fun _ => .fail) fun _ => .after fun _ => .fail

theorem concludes_settleOne {replacement : VerifiedReplacement} :
    Concludes action.actionId (settleOne backend run action replacement) := by
  refine .after fun checked => .after fun _ => .after fun _ => .after fun _ => .after fun _ =>
    .after fun _ => .after fun result => ?_
  cases result with
  | error error => exact concludes_recordFailure
  | ok result =>
      refine .of_calls fun c => Triple.bind (appendEvent_calls.weaken (fun _ h => h)
        (fun _ _ h => h) fun _ _ h => h.elim) fun r => ?_
      cases r with
      | error error => exact concludes_recordFailure.pre fun _ _ => trivial
      | ok _ => exact .pure fun _ hm => hm ▸ concluded_snoc rfl

/-- An entry that the journal shows with an outcome is of a concluded action. -/
theorem concluded_of_loaded {m : Machine σ LocalAnswer} {entries : List ActionJournalEntry}
    {a : ActionId} (hload : m.run.loadJournal = .ok entries)
    (h : (entries.find? (·.plan.actionId = a)).any (·.outcome ≠ .inProgress) = true) :
    Concluded a m.calls := by
  obtain ⟨entry, hfound, hne⟩ := (Option.any_eq_true _ _).mp h
  obtain rfl : entry.plan.actionId = a := by simpa using List.find?_some hfound
  obtain ⟨-, houtcome⟩ := m.journal.loaded hload (List.mem_of_find?_eq_some hfound)
  have hopen : entry.outcome ≠ .inProgress := of_decide_eq_true hne
  cases hlatest : latest? outcomeOf (historyOf (accepted m.calls) entry.plan.actionId) with
  | none =>
      rw [hlatest] at houtcome
      exact absurd houtcome hopen
  | some outcome =>
      rw [hlatest] at houtcome
      obtain rfl : entry.outcome = outcome := houtcome
      exact ⟨_, hlatest, hopen⟩

theorem concludes_recordUnsettled {error : SafeDeleteError} :
    Concludes action.actionId (recordUnsettled backend action error) := by
  have hread : Triple (fun _ => True) (readJournal : LocalProgram σ _)
      (fun read m => m.run.loadJournal = read) fun _ _ => True := fun _ _ => rfl
  refine Triple.bind hread fun read => Triple.bind (.ofExcept (fun entries hread m hm =>
    hm.trans (mapError_eq_ok.mp hread)) fun _ _ _ _ => trivial) fun entries => .ite
      (fun hany => .pure fun m hm => concluded_of_loaded hm hany) fun _ => ?_
  refine Triple.pre (.ite (fun _ => Concludes.after fun _ => concludes_journal rfl ?_)
    fun _ => concludes_journal rfl ?_) fun _ _ => trivial
  all_goals simp [concludes, outcomeOf]

theorem concludes_settleSourceRemoval {replacement : VerifiedReplacement} :
    Concludes action.actionId (settleSourceRemoval backend run action replacement) := by
  refine .after fun cancel => .ite (fun _ => (concludes_journal rfl rfl).returns) fun _ => ?_
  have hsettled : Triple (fun _ => True)
      ((settleOne backend run action replacement).attempt : LocalProgram σ _)
      (fun r m => ∀ u, r = .ok u → Concluded action.actionId m.calls) fun _ _ => True :=
    .attempt (concludes_settleOne.weaken (fun _ h => h) (fun _ _ h _ _ => h)
      fun _ _ _ _ he => by cases he)
  refine hsettled.bind fun r => ?_
  cases r with
  | ok u => exact .pure fun _ hm => hm u rfl
  | error error => exact concludes_recordUnsettled.returns.pre fun _ _ => trivial

theorem concludes_executeRemoval {replacements : PathMap VerifiedReplacement} :
    Concludes action.actionId (executeRemoval backend run action replacements) := by
  unfold executeRemoval
  cases replacements.get action.relativePath with
  | some replacement => exact concludes_settleSourceRemoval.returns
  | none =>
      refine .after fun result => ?_
      cases result with
      | ok replacement => exact concludes_settleSourceRemoval.returns
      | error error => exact concludes_recordTransferFailure.returns

theorem concludes_executeAction {replacements : PathMap VerifiedReplacement} :
    Concludes action.actionId (executeAction backend run action replacements) := by
  refine .after fun _ => .after fun _ => ?_
  cases action.kind with
  | copyToDestination => exact concludes_executeCopy
  | overwriteDestination => exact concludes_executeCopy
  | removeSourceAfterVerification => exact concludes_executeRemoval
  | removeDestination => exact (concludes_journal rfl rfl).returns

end

end LocalWorkflow

/-! ## The loop -/

/-- These actions have come to an outcome. -/
def AllConcluded {χ : Type} (as : List ActionId) (calls : List (Call χ)) : Prop :=
  ∀ a ∈ as, Concluded a calls

section

variable {σ χ ε α τ : Type} {a : ActionId} {done : List ActionId}
  {p : Program (Machine σ χ) ε α}
  {execute : PlanAction → τ → Program (Machine σ χ) WorkflowError (ActionDisposition × τ)}

/-- **One more action is concluded**, and those before it stay so. -/
theorem concludes_one (hjournals : Journals (OfAction a) p) (hconcludes : Concludes a p)
    (hfresh : a ∉ done) :
    Triple (fun m => AllConcluded done m.calls) p
      (fun _ m => AllConcluded (done ++ [a]) m.calls) fun _ _ => True := by
  intro m hm
  have hgrows := (hjournals m).2
  have hown := hconcludes m trivial
  revert hgrows hown
  rcases p m with ⟨e | x, m'⟩ <;> intro hgrows hown
  · trivial
  · intro b hb
    rcases List.mem_append.mp hb with hb | hb
    · refine (hm b hb).grows hgrows ?_
      rintro rfl
      exact hfresh hb
    · exact List.mem_singleton.mp hb ▸ hown

theorem fresh_of_nodup {rest : List ActionId} (h : (done ++ [a] ++ rest).Nodup) : a ∉ done :=
  fun hmem => List.disjoint_of_nodup_append (List.Nodup.of_append_left h) hmem
    List.mem_cons_self

theorem concludes_cancelRemaining (actions : List PlanAction) :
    ∀ done : List ActionId, (done ++ actions.map (·.actionId)).Nodup →
      Triple (fun m => AllConcluded done m.calls)
        (cancelRemaining actions : Program (Machine σ χ) WorkflowError Unit)
        (fun _ m => AllConcluded (done ++ actions.map (·.actionId)) m.calls)
        fun _ _ => True := by
  induction actions with
  | nil => exact fun done _ => .pure fun _ hm => by simpa using hm
  | cons action rest ih =>
      intro done hnodup
      rw [List.map_cons, List.append_cons] at hnodup ⊢
      exact Triple.bind (concludes_one (.journal (.ofAction rfl rfl))
        (concludes_journal rfl rfl) (fresh_of_nodup hnodup)) fun _ => ih _ hnodup

/-- **The loop concludes every action**: those it executes, and the rest it cancels. -/
theorem concludes_runActions (env : Surroundings σ)
    (hjournals : ∀ action kept, Journals (OfAction action.actionId) (execute action kept))
    (hconcludes : ∀ action kept, Concludes action.actionId (execute action kept))
    (actions : List PlanAction) :
    ∀ (done : List ActionId) (kept : τ), (done ++ actions.map (·.actionId)).Nodup →
      Triple (fun m => AllConcluded done m.calls) (runActions env execute actions kept)
        (fun _ m => AllConcluded (done ++ actions.map (·.actionId)) m.calls)
        fun _ _ => True := by
  induction actions with
  | nil => exact fun done _ _ => .pure fun _ hm => by simpa using hm
  | cons action rest ih =>
      intro done kept hnodup
      have hpoll : Triple (fun m => AllConcluded done m.calls)
          (poll env : Program (Machine σ χ) WorkflowError _)
          (fun _ m => AllConcluded done m.calls) fun _ _ => True := by
        intro m hm a ha
        simpa [Concluded] using hm a ha
      refine hpoll.bind fun cancel => .ite
        (fun _ => concludes_cancelRemaining (action :: rest) done hnodup) fun _ => ?_
      rw [List.map_cons, List.append_cons] at hnodup ⊢
      refine Triple.bind (concludes_one (hjournals action kept) (hconcludes action kept)
        (fresh_of_nodup hnodup)) fun (disposition, kept) => ?_
      cases disposition with
      | stop => exact concludes_cancelRemaining rest _ hnodup
      | «continue» => exact ih _ kept hnodup

end

/-! ## Plans first -/

/-- The calls of planning. -/
def Plans {χ : Type} : Call χ → Prop
  | .journaled event => eventPhase event = "planned"
  | _ => True

/-- The calls after it. -/
def Unplanned {χ : Type} : Call χ → Prop
  | .journaled event => eventPhase event ≠ "planned"
  | _ => True

section

variable {σ χ : Type} {method : Option String} {c c' : List (Call χ)}

theorem OfAction.unplanned {a : ActionId} {call : Call χ} (h : OfAction a call) :
    Unplanned call := by
  cases call with
  | journaled event =>
      intro hphase
      obtain ⟨plan, rfl⟩ := eventPhase_eq_planned.mp hphase
      cases h.2
  | _ => trivial

theorem plannedFirst_of_grows (hplans : Grows Plans method [] c)
    (hrun : Grows Unplanned method c c') : PlannedFirst (accepted c') := by
  obtain ⟨plans, hc, hplans⟩ := hplans.new
  obtain ⟨new, rfl, hnew⟩ := hrun.new
  have hfirst (e : JournalEvent) (he : e ∈ accepted c) : eventPhase e = "planned" := by
    rw [hc] at he
    exact hplans (.journaled e) (by simpa using mem_accepted.mp he)
  have hlast (e : JournalEvent) (he : e ∈ accepted new) : eventPhase e ≠ "planned" :=
    hnew (.journaled e) (mem_accepted.mp he)
  rw [accepted_append]
  refine List.pairwise_append.mpr ⟨?_, ?_, fun d hd _ _ _ => hfirst d hd⟩
  · exact List.pairwise_of_forall_mem_list fun d hd _ _ _ => hfirst d hd
  · exact List.pairwise_of_forall_mem_list fun _ _ e he h => absurd h (hlast e he)

/-- **An orderly run**: each event was acceptable after those before it; plans come first; at
every point at most one action is in flight; and when the driver returns, every action of the
plan has come to an outcome. -/
structure OrderlyRun (plan : OneWayPlan) (r : Except WorkflowError Unit × Machine σ χ) : Prop
    where
  acceptable : Accepted r.2.run.deletionMethod (accepted r.2.calls)
  plansFirst : PlannedFirst (accepted r.2.calls)
  oneInFlight : ∀ point rest, accepted r.2.calls = point ++ rest →
    ∀ a b, InFlight point a → InFlight point b → a = b
  concluded : r.1 = .ok () → ∀ action ∈ plan.actions, Concluded action.actionId r.2.calls

theorem orderlyRun_of {plan : OneWayPlan} {r : Except WorkflowError Unit × Machine σ χ}
    (haccepted : Accepted r.2.run.deletionMethod (accepted r.2.calls))
    (hfirst : PlannedFirst (accepted r.2.calls))
    (hconcluded : r.1 = .ok () → AllConcluded (plan.actions.map (·.actionId)) r.2.calls) :
    OrderlyRun plan r where
  acceptable := haccepted
  plansFirst := hfirst
  oneInFlight := by
    intro point rest heq a b ha hb
    rw [heq] at haccepted hfirst
    exact (haccepted.init.ordered (List.pairwise_append.mp hfirst).1).inFlight_unique ha hb
  concluded := fun hr action haction => hconcluded hr _ (List.mem_map_of_mem haction)

/-- Nothing was called. -/
theorem orderlyRun_failed {plan : OneWayPlan} {error : WorkflowError} {m : Machine σ χ}
    (hm : m.calls = []) : OrderlyRun plan (.error error, m) := by
  refine orderlyRun_of ?_ ?_ nofun
  · simpa [hm] using Accepted.nil
  · simp [hm, PlannedFirst]

variable {τ : Type} (env : Surroundings σ) {kept : τ}
  {planRecord : PlanAction → Program (Machine σ χ) WorkflowError PlanRecord}
  {execute : PlanAction → τ → Program (Machine σ χ) WorkflowError (ActionDisposition × τ)}

theorem journals_persistPlan (hplan : ∀ action, Journals Plans (planRecord action))
    (actions : List PlanAction) : Journals Plans (persistPlan planRecord actions) :=
  .forEach fun action _ => (hplan action).bind fun _ => .journal ⟨rfl, fun _ => trivial⟩

theorem journals_runActions
    (hjournals : ∀ action kept, Journals (OfAction action.actionId) (execute action kept))
    (actions : List PlanAction) :
    ∀ kept, Journals Unplanned (runActions env execute actions kept) := by
  have hcancel (rest : List PlanAction) :
      Journals Unplanned (cancelRemaining rest : Program (Machine σ χ) WorkflowError Unit) :=
    .cancelRemaining fun _ _ => ⟨by simp [Unplanned, eventPhase], fun _ => trivial⟩
  induction actions with
  | nil => exact fun _ => .pure
  | cons action rest ih =>
      refine fun kept => (Journals.poll fun _ => trivial).bind fun cancel => .ite
        (fun _ => hcancel _) fun _ => ((hjournals action kept).mono fun _ h => h.unplanned).bind
          fun next => ?_
      rcases next with ⟨_ | _, kept⟩
      · exact ih kept
      · exact hcancel rest

/-- **What both drivers do**: they journal the plan, and then run the loop. -/
theorem orderlyRun_planned (plan : OneWayPlan)
    (hplan : ∀ action, Journals Plans (planRecord action))
    (hjournals : ∀ action kept, Journals (OfAction action.actionId) (execute action kept))
    (hconcludes : ∀ action kept, Concludes action.actionId (execute action kept))
    {m : Machine σ χ} (hm : m.calls = []) :
    OrderlyRun plan ((do
      persistPlan planRecord plan.actions
      runActions env execute plan.actions kept) m) := by
  have hpersist := journals_persistPlan hplan plan.actions m
  rw [hm] at hpersist
  change OrderlyRun plan (Program.bind _ _ m)
  unfold Program.bind
  rcases hp : persistPlan planRecord plan.actions m with ⟨e | ⟨⟩, m'⟩ <;> rw [hp] at hpersist
  · change OrderlyRun plan (.error e, m')
    refine orderlyRun_of (hpersist.1 ▸ hpersist.2.keepsAccepted .nil)
      (plannedFirst_of_grows hpersist.2 .refl) nofun
  · have hloop := journals_runActions env hjournals plan.actions kept m'
    have hdone := concludes_runActions env hjournals hconcludes plan.actions [] kept
      plan.nodup_actionIds m' fun _ h => absurd h List.not_mem_nil
    change OrderlyRun plan (runActions env execute plan.actions kept m')
    change m'.run.deletionMethod = _ ∧ Grows Plans _ [] m'.calls at hpersist
    rw [hpersist.1] at hloop
    refine orderlyRun_of (hloop.1 ▸ hloop.2.keepsAccepted (hpersist.2.keepsAccepted .nil))
      (plannedFirst_of_grows hpersist.2 hloop.2) ?_
    revert hdone
    rcases runActions env execute plan.actions kept m' with ⟨e | ⟨⟩, m''⟩
    · exact fun _ => nofun
    · exact fun hdone _ => hdone

end

theorem journals_planRecord {σ : Type} {backend : LocalWorkflow.LocalBackend σ}
    {run : LocalWorkflow.LocalRun} {action : PlanAction} :
    Journals Plans (LocalWorkflow.planRecord backend run action) := by
  refine Journals.ofExcept.bind fun path => Journals.bind (Journals.inquire.bind fun r => ?_)
    fun _ => .pure
  cases r with
  | error error => exact .fail
  | ok metadata =>
      refine .ite (fun _ => Journals.inquire.bind fun content => ?_) fun _ => .pure
      cases content with
      | error error => exact .fail
      | ok content => exact .pure

theorem runFrom_orderly {σ : Type} (backend : LocalWorkflow.LocalBackend σ)
    (run : LocalWorkflow.LocalRun) (world : σ) :
    OrderlyRun run.confirmed.plan (LocalWorkflow.runFrom backend run world) := by
  unfold LocalWorkflow.runFrom LocalWorkflow.executeConfirmed
  cases (run.validate.mapError fun error =>
      WorkflowError.invalidRun (error.text backend.debug)) with
  | error error => exact orderlyRun_failed rfl
  | ok _ =>
      change OrderlyRun _ ((do
        persistPlan (LocalWorkflow.planRecord backend run) run.plan.actions
        runActions backend.toSurroundings (LocalWorkflow.executeAction backend run)
          run.plan.actions []) (Machine.opened _ world run.confirmed.frozenMethod))
      exact orderlyRun_planned _ run.plan (fun _ => journals_planRecord)
        (fun _ _ => LocalWorkflow.journals_executeAction)
        (fun _ _ => LocalWorkflow.concludes_executeAction) rfl

theorem sshRunFrom_orderly {σ : Type} (backend : SshBackend σ) (run : SshRun) (world : σ) :
    OrderlyRun run.confirmed.plan (sshRunFrom backend run world) := by
  unfold sshRunFrom executeSshConfirmed
  split
  · exact orderlyRun_failed rfl
  · exact orderlyRun_planned _ run.confirmed.plan (fun _ => .ofExcept)
      (fun _ _ => journals_executeSshAction) (fun _ _ => concludes_executeSshAction) rfl

/-- **Both drivers run in order and leave no action open**, whatever the world answers. -/
theorem drivers_orderly :
    (∀ (σ : Type) (backend : SshBackend σ) (run : SshRun) (world : σ),
      OrderlyRun run.confirmed.plan (sshRunFrom backend run world)) ∧
    ∀ (σ : Type) (backend : LocalWorkflow.LocalBackend σ) (run : LocalWorkflow.LocalRun)
      (world : σ),
      OrderlyRun run.confirmed.plan (LocalWorkflow.runFrom backend run world) :=
  ⟨fun _ => sshRunFrom_orderly, fun _ => runFrom_orderly⟩

end SyncPlus
