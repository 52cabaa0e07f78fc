import SyncPlus.ResolutionJournal

/-!
# Executing a resolution run

A confirmed run hands its actions to an executor, one after another. Nothing is known of
the executor but its answers, and it may answer a call differently each time. What it was
called for is seen with one that also keeps its calls (`ResolutionActionExecutor.recorded`):
each action of the plan is the action of one call, in the order of the plan, and its result
is read off the answer of that call. So a run has one result an action whatever the
executor answers (`ConfirmedResolutionRun.one_result_each`). The journaled run is a run of
such an executor (`executeActions_eq`).
-/

namespace SyncPlus

/-! ## Executors -/

/-- The trait: how an executor answers a call, and what becomes of it. -/
structure ResolutionActionExecutor (σ : Type) where
  execute : ConflictResolutionAction → FreshAnalysis → Program σ ActionReason Unit
  defer : ConflictResolutionAction → FreshAnalysis → Program σ ActionReason Unit
  cancel : ConflictResolutionAction → FreshAnalysis → Program σ ActionReason Unit

structure ResolutionExecutionReport where
  results : List ResolutionRunResult
  deriving DecidableEq

def ResolutionRunResult.requiresReview (result : ResolutionRunResult) : Bool :=
  result.preservesItem || decide (result.outcome ≠ .completed)

namespace ResolutionExecutionReport

variable (report : ResolutionExecutionReport)

def requiresReview : Bool :=
  report.results.any ResolutionRunResult.requiresReview

def isComplete : Bool :=
  !report.results.isEmpty && report.results.all fun result => !result.requiresReview

end ResolutionExecutionReport

/-- The result of an action that was cancelled because an earlier one stopped the run. -/
def ConflictResolutionAction.cancelled (action : ConflictResolutionAction)
    (answer : Except ActionReason Unit) : ResolutionRunResult where
  relativePath := action.relativePath
  outcome := .ofAttempt (.unresolved .cancellationRequested) answer
  preservesItem := true

section

variable {σ : Type} (executor : ResolutionActionExecutor σ) (analysis : FreshAnalysis)

/-- One action of the loop. -/
def attemptWith (action : ConflictResolutionAction) (s : σ) : ResolutionRunOutcome × σ :=
  if action.resolution = .defer then
    let (answer, s) := executor.defer action analysis s
    (.ofAttempt .deferred answer, s)
  else
    let (answer, s) := executor.execute action analysis s
    (.ofAttempt .completed answer, s)

/-- The loop over the remaining actions. -/
def cancelWith : List ConflictResolutionAction → σ → List ResolutionRunResult × σ
  | [], s => ([], s)
  | remaining :: rest, s =>
      let (answer, s) := executor.cancel remaining analysis s
      let (results, s) := cancelWith rest s
      (remaining.cancelled answer :: results, s)

def executeWith : List ConflictResolutionAction → σ → List ResolutionRunResult × σ
  | [], s => ([], s)
  | action :: rest, s =>
      let (outcome, s) := attemptWith executor analysis action s
      let (results, s) :=
        if outcome.stops = true then cancelWith executor analysis rest s else executeWith rest s
      (action.result outcome :: results, s)

end

/-- `ConfirmedResolutionRun::execute`. -/
def ConfirmedResolutionRun.execute {σ : Type} (confirmed : ConfirmedResolutionRun)
    (executor : ResolutionActionExecutor σ) (s : σ) : ResolutionExecutionReport × σ :=
  let (results, s) := executeWith executor confirmed.freshAnalysis confirmed.actions s
  (⟨results⟩, s)

/-! ## The calls of an executor -/

inductive ExecutorMethod where
  | execute
  | defer
  | cancel
  deriving DecidableEq

/-- A call of the executor, and its answer. -/
structure ExecutorCall where
  method : ExecutorMethod
  action : ConflictResolutionAction
  answer : Except ActionReason Unit

/-- The result that is read off the answer. -/
def ExecutorCall.result (call : ExecutorCall) : ResolutionRunResult :=
  match call.method with
  | .execute => call.action.result (.ofAttempt .completed call.answer)
  | .defer => call.action.result (.ofAttempt .deferred call.answer)
  | .cancel => call.action.cancelled call.answer

namespace ResolutionActionExecutor

/-- Answer a call as before, and keep it. -/
def keeping {σ : Type} (method : ExecutorMethod)
    (call : ConflictResolutionAction → FreshAnalysis → Program σ ActionReason Unit) :
    ConflictResolutionAction → FreshAnalysis →
      Program (σ × List ExecutorCall) ActionReason Unit :=
  fun action analysis (s, calls) =>
    let (answer, s) := call action analysis s
    (answer, s, calls ++ [⟨method, action, answer⟩])

/-- The same executor, keeping its calls. -/
def recorded {σ : Type} (executor : ResolutionActionExecutor σ) :
    ResolutionActionExecutor (σ × List ExecutorCall) where
  execute := keeping .execute executor.execute
  defer := keeping .defer executor.defer
  cancel := keeping .cancel executor.cancel

end ResolutionActionExecutor

/-- The calls that a run makes of an executor, from the first to the last. -/
def ConfirmedResolutionRun.calls {σ : Type} (confirmed : ConfirmedResolutionRun)
    (executor : ResolutionActionExecutor σ) (s : σ) : List ExecutorCall :=
  (confirmed.execute executor.recorded (s, [])).2.2

theorem ExecutorCall.result_relativePath (call : ExecutorCall) :
    call.result.relativePath = call.action.relativePath := by
  unfold result
  split <;> rfl

/-- A cancelled action is reported unresolved, and is preserved. -/
theorem ExecutorCall.result_of_cancel {call : ExecutorCall} (hcancel : call.method = .cancel) :
    (∃ reason, call.result.outcome = .unresolved reason) ∧
      call.result.preservesItem = true := by
  unfold result
  rw [hcancel]
  refine ⟨?_, rfl⟩
  unfold ConflictResolutionAction.cancelled
  cases call.answer with
  | error reason => exact ⟨reason, rfl⟩
  | ok => exact ⟨.cancellationRequested, rfl⟩

/-! ## One action -/

section

variable {σ : Type} (executor : ResolutionActionExecutor σ) (analysis : FreshAnalysis)

/-- The method an action is attempted with. -/
def ConflictResolutionAction.method (action : ConflictResolutionAction) : ExecutorMethod :=
  if action.resolution = .defer then .defer else .execute

/-- An attempt cancels nothing. -/
theorem ConflictResolutionAction.method_ne_cancel (action : ConflictResolutionAction) :
    action.method ≠ .cancel := by
  unfold ConflictResolutionAction.method
  split <;> nofun

/-- **An action is attempted with one call**, and its result is the one of that call. -/
theorem attemptWith_recorded (action : ConflictResolutionAction) (s : σ)
    (calls : List ExecutorCall) :
    ∃ answer,
      attemptWith executor.recorded analysis action (s, calls) =
        ((attemptWith executor analysis action s).1, (attemptWith executor analysis action s).2,
          calls ++ [⟨action.method, action, answer⟩]) ∧
      ExecutorCall.result ⟨action.method, action, answer⟩ =
        action.result (attemptWith executor analysis action s).1 := by
  unfold attemptWith ConflictResolutionAction.method
  by_cases hdefer : action.resolution = .defer
  · simp only [if_pos hdefer]
    exact ⟨_, rfl, rfl⟩
  · simp only [if_neg hdefer]
    exact ⟨_, rfl, rfl⟩

/-- The remaining actions are cancelled with one call each. -/
theorem cancelWith_recorded (actions : List ConflictResolutionAction) (s : σ)
    (calls : List ExecutorCall) :
    ∃ later : List ExecutorCall,
      cancelWith executor.recorded analysis actions (s, calls) =
        (later.map ExecutorCall.result, (cancelWith executor analysis actions s).2,
          calls ++ later) ∧
      (cancelWith executor analysis actions s).1 = later.map ExecutorCall.result ∧
      later.map (·.action) = actions ∧ ∀ call ∈ later, call.method = .cancel := by
  induction actions generalizing s calls with
  | nil => exact ⟨[], by simp [cancelWith]⟩
  | cons remaining rest ih =>
      obtain ⟨later, hrecorded, hresults, hactions, hmethods⟩ :=
        ih (executor.cancel remaining analysis s).2
          (calls ++ [⟨.cancel, remaining, (executor.cancel remaining analysis s).1⟩])
      refine ⟨⟨.cancel, remaining, (executor.cancel remaining analysis s).1⟩ :: later,
        ?_, ?_, ?_, ?_⟩
      · have happend := congrArg (fun run => (remaining.cancelled
          (executor.cancel remaining analysis s).1 :: run.1, run.2)) hrecorded
        rw [List.append_assoc, List.singleton_append] at happend
        exact happend
      · show _ :: (cancelWith executor analysis rest _).1 = _
        rw [hresults]
        rfl
      · rw [List.map_cons, hactions]
      · exact List.forall_mem_cons.mpr ⟨rfl, hmethods⟩

/-- A call whose result needs no review executed the decision to keep a side. -/
theorem ExecutorCall.kept_of_settled {call : ExecutorCall}
    (hmethod : call.method = .cancel ∨ call.method = call.action.method)
    (hsettled : call.result.requiresReview = false) :
    call.method = .execute ∧ call.answer = .ok () ∧
      (call.action.resolution = .keepPeerA ∨ call.action.resolution = .keepPeerB) := by
  unfold ResolutionRunResult.requiresReview at hsettled
  obtain ⟨hpreserves, hcompleted⟩ := Bool.or_eq_false_iff.mp hsettled
  have houtcome : call.result.outcome = .completed := by simpa using hcompleted
  cases hcall : call.method with
  | cancel =>
      rw [(result_of_cancel hcall).2] at hpreserves
      cases hpreserves
  | defer =>
      unfold result at houtcome
      rw [hcall] at houtcome
      cases hanswer : call.answer <;>
        simp [hanswer, ConflictResolutionAction.result, ResolutionRunOutcome.ofAttempt] at houtcome
  | execute =>
      unfold result at houtcome hpreserves
      rw [hcall] at houtcome hpreserves
      dsimp only at houtcome hpreserves
      have hattempted : call.action.method = .execute := by
        rw [hcall] at hmethod
        exact (hmethod.resolve_left nofun).symm
      unfold ConflictResolutionAction.method at hattempted
      split at hattempted
      · cases hattempted
      · rename_i hdefer
        cases hanswer : call.answer with
        | error reason =>
            simp [hanswer, ConflictResolutionAction.result,
              ResolutionRunOutcome.ofAttempt] at houtcome
        | ok =>
            refine ⟨rfl, rfl, ?_⟩
            cases hresolution : call.action.resolution <;>
              simp_all [ConflictResolutionAction.result, ResolutionRunOutcome.ofAttempt]

/-! ## Whole runs -/

/-- The order in which a run makes its calls: it attempts actions until one stops it, and
cancels those after it. -/
structure InPlanOrder (calls : List ExecutorCall) : Prop where
  methods : ∀ call ∈ calls, call.method = .cancel ∨ call.method = call.action.method
  stopped : calls.Pairwise fun call later =>
    call.result.outcome.stops = true → later.method = .cancel
  cancelled : ∀ call ∈ calls, call.method = .cancel →
    ∃ earlier, [earlier, call].Sublist calls ∧ earlier.result.outcome.stops = true

theorem InPlanOrder.nil : InPlanOrder [] where
  methods := List.forall_mem_nil _
  stopped := .nil
  cancelled := List.forall_mem_nil _

/-- An action that does not stop the run, before the others. -/
theorem InPlanOrder.goOn {action : ConflictResolutionAction} {answer : Except ActionReason Unit}
    {calls : List ExecutorCall} (h : InPlanOrder calls)
    (hgoes : (ExecutorCall.result ⟨action.method, action, answer⟩).outcome.stops = false) :
    InPlanOrder (⟨action.method, action, answer⟩ :: calls) where
  methods := List.forall_mem_cons.mpr ⟨.inr rfl, h.methods⟩
  stopped := List.pairwise_cons.mpr
    ⟨fun _ _ hstops => absurd hstops (hgoes ▸ Bool.false_ne_true), h.stopped⟩
  cancelled := by
    refine List.forall_mem_cons.mpr ⟨?_, ?_⟩
    · exact fun hcancel => absurd hcancel action.method_ne_cancel
    · intro call hcall hcancel
      obtain ⟨earlier, hsublist, hstops⟩ := h.cancelled call hcall hcancel
      exact ⟨earlier, hsublist.cons _, hstops⟩

/-- An action that stops the run, before those that are cancelled. -/
theorem InPlanOrder.stop {action : ConflictResolutionAction} {answer : Except ActionReason Unit}
    {calls : List ExecutorCall} (h : ∀ call ∈ calls, call.method = .cancel)
    (hstops : (ExecutorCall.result ⟨action.method, action, answer⟩).outcome.stops = true) :
    InPlanOrder (⟨action.method, action, answer⟩ :: calls) where
  methods := List.forall_mem_cons.mpr ⟨.inr rfl, fun call hcall => .inl (h call hcall)⟩
  stopped := List.pairwise_cons.mpr ⟨fun later hlater _ => h later hlater,
    List.pairwise_of_forall_mem_list fun _ _ later hlater _ => h later hlater⟩
  cancelled := by
    refine List.forall_mem_cons.mpr ⟨?_, ?_⟩
    · exact fun hcancel => absurd hcancel action.method_ne_cancel
    · intro call hcall _
      exact ⟨_, (List.singleton_sublist.mpr hcall).cons_cons _, hstops⟩

/-- **A run makes one call an action**, and its results are those of the calls. -/
theorem executeWith_recorded (actions : List ConflictResolutionAction) (s : σ)
    (calls : List ExecutorCall) :
    ∃ made : List ExecutorCall,
      executeWith executor.recorded analysis actions (s, calls) =
        (made.map ExecutorCall.result, (executeWith executor analysis actions s).2,
          calls ++ made) ∧
      (executeWith executor analysis actions s).1 = made.map ExecutorCall.result ∧
      made.map (·.action) = actions ∧ InPlanOrder made := by
  induction actions generalizing s calls with
  | nil => exact ⟨[], by simp [executeWith], rfl, rfl, .nil⟩
  | cons action rest ih =>
      obtain ⟨answer, hattempt, hresult⟩ :=
        attemptWith_recorded executor analysis action s calls
      unfold executeWith
      rw [hattempt]
      dsimp only
      by_cases hstops : (attemptWith executor analysis action s).1.stops = true
      · simp only [if_pos hstops]
        obtain ⟨later, hrecorded, hresults, hactions, hmethods⟩ :=
          cancelWith_recorded executor analysis rest
            (attemptWith executor analysis action s).2
            (calls ++ [⟨action.method, action, answer⟩])
        refine ⟨⟨action.method, action, answer⟩ :: later, ?_, ?_, ?_, .stop hmethods ?_⟩
        · rw [hrecorded, List.map_cons, hresult, List.append_assoc, List.singleton_append]
        · rw [hresults, List.map_cons, hresult]
        · rw [List.map_cons, hactions]
        · rw [hresult]
          exact hstops
      · simp only [if_neg hstops]
        obtain ⟨later, hrecorded, hresults, hactions, horder⟩ :=
          ih (attemptWith executor analysis action s).2
            (calls ++ [⟨action.method, action, answer⟩])
        refine ⟨⟨action.method, action, answer⟩ :: later, ?_, ?_, ?_, horder.goOn ?_⟩
        · rw [hrecorded, List.map_cons, hresult, List.append_assoc, List.singleton_append]
        · rw [hresults, List.map_cons, hresult]
        · rw [List.map_cons, hactions]
        · rw [hresult]
          exact Bool.eq_false_iff.mpr hstops

end

namespace ConfirmedResolutionRun

variable {σ : Type} (confirmed : ConfirmedResolutionRun) (executor : ResolutionActionExecutor σ)
  (s : σ)

theorem calls_eq :
    (confirmed.execute executor s).1.results =
        (confirmed.calls executor s).map ExecutorCall.result ∧
      (confirmed.calls executor s).map (·.action) = confirmed.actions ∧
      InPlanOrder (confirmed.calls executor s) := by
  obtain ⟨made, hrecorded, hresults, hactions, horder⟩ := executeWith_recorded
    executor confirmed.freshAnalysis confirmed.actions s []
  have hcalls : confirmed.calls executor s = made :=
    (congrArg (·.2.2) hrecorded).trans (List.nil_append made)
  rw [hcalls]
  exact ⟨hresults, hactions, horder⟩

/-- Keeping the calls of an executor changes nothing for it. -/
theorem execute_recorded :
    (confirmed.execute executor.recorded (s, [])).1 = (confirmed.execute executor s).1 ∧
      (confirmed.execute executor.recorded (s, [])).2.1 = (confirmed.execute executor s).2 := by
  obtain ⟨made, hrecorded, hresults, -⟩ := executeWith_recorded
    executor confirmed.freshAnalysis confirmed.actions s []
  constructor
  · exact congrArg ResolutionExecutionReport.mk
      ((congrArg Prod.fst hrecorded).trans hresults.symm)
  · exact congrArg (·.2.1) hrecorded

/-- What the calls of a run and its report say of the actions of its plan. -/
structure OneResultEach (actions : List ConflictResolutionAction) (calls : List ExecutorCall)
    (report : ResolutionExecutionReport) : Prop where
  called : calls.map (·.action) = actions
  reported : report.results.map (·.relativePath) = actions.map (·.relativePath)
  executed : ∀ call ∈ calls, call.method = .execute → call.action.resolution ≠ .defer
  stopped : (calls.zip report.results).Pairwise fun stop later =>
    stop.2.outcome.stops = true → later.1.method = .cancel ∧
      (∃ reason, later.2.outcome = .unresolved reason) ∧ later.2.preservesItem = true
  cancelled : ∀ call ∈ calls, call.method = .cancel →
    ∃ earlier, [earlier, call].Sublist calls ∧ earlier.result.outcome.stops = true
  complete : report.isComplete = true → ∀ call ∈ calls,
    call.method = .execute ∧ call.answer = .ok () ∧
      (call.action.resolution = .keepPeerA ∨ call.action.resolution = .keepPeerB)

/-- **One result per reviewed action**, whatever the executor answers: in the order of the
plan, nothing executed that was deferred, and after the action that stopped the run only
cancellations. A run is complete only if every action kept a side. -/
theorem one_result_each :
    OneResultEach confirmed.actions (confirmed.calls executor s)
      (confirmed.execute executor s).1 := by
  obtain ⟨hresults, hactions, horder⟩ := confirmed.calls_eq executor s
  generalize confirmed.calls executor s = calls at hresults hactions horder
  refine ⟨hactions, ?_, ?_, ?_, horder.cancelled, ?_⟩
  · rw [hresults, ← hactions, List.map_map, List.map_map]
    exact List.map_congr_left fun call _ => call.result_relativePath
  · intro call hcall hexecute hdefer
    have hmethod := (horder.methods call hcall).resolve_left (by rw [hexecute]; nofun)
    rw [hexecute, ConflictResolutionAction.method, if_pos hdefer] at hmethod
    cases hmethod
  · rw [hresults, ← List.map_prod_left_eq_zip]
    refine List.pairwise_map.mpr (horder.stopped.imp ?_)
    intro call later hlater hstops
    exact ⟨hlater hstops, ExecutorCall.result_of_cancel (hlater hstops)⟩
  · intro hcomplete call hcall
    obtain ⟨-, hall⟩ := Bool.and_eq_true_iff.mp hcomplete
    have hsettled := List.all_eq_true.mp hall call.result
      (hresults ▸ List.mem_map_of_mem hcall)
    exact ExecutorCall.kept_of_settled (horder.methods call hcall) (by simpa using hsettled)

end ConfirmedResolutionRun

/-! ## The journaled executor -/

section

variable {σ : Type} (env : ResolutionSurroundings σ) (analysis : FreshAnalysis)
  (number : ConflictResolutionAction → ActionId)

/-- `JournaledResolutionExecutor`. -/
def journaledResolutionExecutor : ResolutionActionExecutor (Machine σ ResolutionAnswer) where
  execute action analysis := executeJournaled env analysis (number action) action
  defer action _ := deferJournaled (number action)
  cancel action _ := cancelJournaled (number action)

theorem attemptAction_eq {ε : Type} (action : ConflictResolutionAction)
    (m : Machine σ ResolutionAnswer) :
    (attemptAction env analysis number action : ResolutionProgram σ ε _) m =
      (.ok (attemptWith (journaledResolutionExecutor env number) analysis action m).1,
        (attemptWith (journaledResolutionExecutor env number) analysis action m).2) := by
  unfold attemptAction attemptWith
  split <;> rfl

theorem cancelAll_eq {ε : Type} (actions : List ConflictResolutionAction)
    (m : Machine σ ResolutionAnswer) :
    (cancelAll number actions : ResolutionProgram σ ε _) m =
      (.ok (cancelWith (journaledResolutionExecutor env number) analysis actions m).1,
        (cancelWith (journaledResolutionExecutor env number) analysis actions m).2) := by
  induction actions generalizing m with
  | nil => rfl
  | cons remaining rest ih =>
      show Program.bind (cancelAll number rest) _ _ = _
      unfold Program.bind
      rw [ih]
      rfl

/-- **The run that is journaled is a run of the journaled executor.** -/
theorem executeActions_eq {ε : Type} (actions : List ConflictResolutionAction)
    (m : Machine σ ResolutionAnswer) :
    (executeActions env analysis number actions : ResolutionProgram σ ε _) m =
      (.ok (executeWith (journaledResolutionExecutor env number) analysis actions m).1,
        (executeWith (journaledResolutionExecutor env number) analysis actions m).2) := by
  induction actions generalizing m with
  | nil => rfl
  | cons action rest ih =>
      show Program.bind (attemptAction env analysis number action) _ _ = _
      unfold Program.bind executeWith
      rw [attemptAction_eq]
      dsimp only
      split
      · show Program.bind (cancelAll number rest) _ _ = _
        unfold Program.bind
        rw [cancelAll_eq env analysis]
        rfl
      · show Program.bind (executeActions env analysis number rest) _ _ = _
        unfold Program.bind
        rw [ih]
        rfl

end

end SyncPlus
