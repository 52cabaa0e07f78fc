import SyncPlus.ActionCalls
import SyncPlus.ActionOrder
import SyncPlus.MachineRules
import SyncPlus.RemovalProof

/-!
# Local sources are removed on proof

A local run tells the file system to remove a source in one place only, and by then the
trace shows why it may: the proof is that of a transfer of this run, the journal has the
source as it was planned, source and destination were looked at again since the action was
started, every earlier removal of the plan is completed, and the last three calls are the
boundaries of this very action. What a transfer or a removal leaves uncertain ends the run:
nothing is transferred or removed after it.
-/

namespace SyncPlus

namespace LocalWorkflow

/-! ## What the trace has to show -/

/-- The boundaries of a removal, at the end of a trace. -/
def boundaries (a : ActionId) (method : DeletionMethod) (evidence : RecoveryEvidence) :
    List (Call LocalAnswer) :=
  [.journaled (.transferVerified a evidence true),
    .journaled (.proofBoundary a method evidence true), .journaled (.removalStarted a method)]

/-- A scheduled run removes permanently with the authorization of its snapshot alone. -/
def Unattended (method : DeletionMethod) (calls : List (Call LocalAnswer)) : Prop :=
  method = .permanentRemoval → .answered (.scheduled (.ok false)) ∈ calls ∨
    ∃ snapshot, .answered (.snapshotLoaded (.ok snapshot)) ∈ calls ∧
      snapshot.authorizations.allowUnattendedPermanentRemoval = true

/-- What the checks on the file system have found of the source and the destination. -/
structure FoundAsProved (run : LocalRun) (proof : VerifiedTransferProof)
    (source destination : PathBuf) (content : Option ContentProof)
    (calls : List (Call LocalAnswer)) : Prop where
  source : .answered (.rechecked source proof.sourceAfter (.ok ())) ∈ calls
  metadata : ∃ metadata, .answered (.captured destination (.ok metadata)) ∈ calls ∧
    proof.sourceAfter.metadata.matchesTransferMetadata metadata
      run.specification.options.metadata = true
  content : ∀ expected ∈ proof.installedDestination, ∃ found, content = some found ∧
    .answered (.contentVerified destination expected (.ok found)) ∈ calls

/-- The transfer was between the paths of the action. -/
def BoundTo (run : LocalRun) (action : PlanAction) (replacement : VerifiedReplacement) : Prop :=
  (∃ source, run.specification.sourcePath action = .ok source ∧
    replacement.source.same source = true) ∧
  ∃ destination, run.specification.destinationPath action = .ok destination ∧
    replacement.destination.same destination = true

/-- **A proved removal**: what stands in the trace before the file system is told to remove
a source. -/
structure RemovalProved (run : LocalRun) (before : List (Call LocalAnswer))
    (removal : SourceRemoval) : Prop where
  planned : removal.action ∈ run.plan.actions
  kind : removal.action.kind = .removeSourceAfterVerification
  method : run.specification.options.deletionMethod = some run.recoveryMethod.deletionMethod
  prior : ∀ prior ∈ priorRemovals run removal.action,
    ∃ result, .journaled (.removalCompleted prior.actionId result) ∈ before
  source : removal.source = removal.sourceRoot.join removal.action.relativePath
  transferred : ∃ other replacement, .answered (.transferred other (.ok replacement)) ∈ before ∧
    BoundTo run removal.action replacement ∧
    replacement.proof = removal.proof ∧ replacement.metadata = removal.metadata
  frozen : ∃ plan, .journaled (.planned plan) ∈ before ∧
    plan.actionId = removal.action.actionId ∧ PlannedAs plan.preAction removal.proof.sourceAfter
  stable : removal.proof.sourceBefore = removal.proof.sourceAfter
  removable : removal.proof.sourceAfter.metadata.itemType = .regularFile ∨
    removal.proof.sourceAfter.metadata.itemType = .symlink
  checked : ∃ earlier middle destination content now,
    run.specification.destinationPath removal.action = .ok destination ∧
    Unattended run.recoveryMethod.deletionMethod middle ∧
    FoundAsProved run removal.proof removal.source destination content middle ∧
    before = earlier ++ .journaled (.started removal.action.actionId) :: middle ++
      boundaries removal.action.actionId run.recoveryMethod.deletionMethod
        (removalTransferEvidence now removal.proof content)

/-- The transfer did not fail so that the action has to be reviewed. -/
def TransferSure : Except TransferError VerifiedReplacement → Prop
  | .error error => error.requiresRecoveryReview = false
  | .ok _ => True

/-- The call leaves nothing uncertain: no transfer and no removal failed so, and no removal
was done and could not be journaled. -/
def Sure : Call LocalAnswer → Prop
  | .answered (.transferred _ result) => TransferSure result
  | .answered (.removed _ (.error error)) => isUncertain error = false
  | .rejected (.removalCompleted _ _) _ => False
  | _ => True

def Certain (calls : List (Call LocalAnswer)) : Prop :=
  ∀ call ∈ calls, Sure call

/-- The result of a removal is the answer to the removal just before it. -/
def RemovalTold (before : List (Call LocalAnswer)) (a : ActionId) (result : RemovalResult) :
    Prop :=
  ∃ earlier removal, before = earlier ++ [.answered (.removed removal (.ok result))] ∧
    removal.action.actionId = a

/-- What each call of a local run satisfies, given those before it. -/
def LocalStep (run : LocalRun) (before : List (Call LocalAnswer)) : Call LocalAnswer → Prop
  | .journaled (.planned plan) => ∃ action ∈ run.plan.actions,
      plan.actionId = action.actionId ∧ plan.operation = action.kind
  | .journaled (.removalCompleted a result) => RemovalTold before a result
  | .answered (.transferred _ _) => Certain before
  | .answered (.removed removal _) => Certain before ∧ RemovalProved run before removal
  | _ => True

/-- The calls that a driver may always make while nothing is uncertain. -/
def Safe : Call LocalAnswer → Prop
  | .journaled (.planned _) => False
  | .journaled (.removalCompleted _ _) => False
  | .rejected (.removalCompleted _ _) _ => False
  | .answered (.transferred _ result) => TransferSure result
  | .answered (.removed _ _) => False
  | _ => True

/-- The calls that a driver may make in any case. -/
def Quiet : Call LocalAnswer → Prop
  | .answered (.transferred _ _) => False
  | call => Safe call

/-- The steps of the trace so far, nothing of it uncertain. -/
def Going (run : LocalRun) (calls : List (Call LocalAnswer)) : Prop :=
  AtEach (LocalStep run) calls ∧ Certain calls

section

variable {run : LocalRun} {calls : List (Call LocalAnswer)} {call : Call LocalAnswer}

theorem Safe.step (h : Safe call) (hcertain : Certain calls) : LocalStep run calls call := by
  unfold Safe at h
  unfold LocalStep
  split <;> trivial

theorem Quiet.safe (h : Quiet call) : Safe call := by
  unfold Quiet at h
  split at h
  · exact h.elim
  · exact h

theorem Quiet.step (h : Quiet call) : LocalStep run calls call := by
  unfold Quiet Safe at h
  unfold LocalStep
  split <;> trivial

theorem Safe.sure (h : Safe call) : Sure call := by
  unfold Safe at h
  unfold Sure
  split
  · exact h
  all_goals trivial

theorem going_nil : Going run [] :=
  ⟨atEach_nil, fun _ hcall => absurd hcall List.not_mem_nil⟩

theorem certain_snoc : Certain (calls ++ [call]) ↔ Certain calls ∧ Sure call := by
  simp [Certain, or_imp, forall_and]

theorem going_snoc : Going run (calls ++ [call]) ↔
    Going run calls ∧ LocalStep run calls call ∧ Sure call := by
  simp only [Going, atEach_snoc, certain_snoc]
  tauto

theorem Going.steps (h : Going run calls) : AtEach (LocalStep run) calls :=
  h.1

theorem Going.safe (h : Going run calls) (hcall : Safe call) : Going run (calls ++ [call]) :=
  going_snoc.mpr ⟨h, hcall.step h.2, hcall.sure⟩

theorem Going.append {new : List (Call LocalAnswer)} (h : Going run calls)
    (hnew : ∀ call ∈ new, Safe call) : Going run (calls ++ new) := by
  induction new generalizing calls with
  | nil => simpa using h
  | cons call new ih =>
      rw [List.append_cons]
      exact ih (h.safe (hnew call (by simp))) fun d hd => hnew d (by simp [hd])

theorem keeps_steps (calls : List (Call LocalAnswer)) (call : Call LocalAnswer)
    (hcall : Quiet call) (h : AtEach (LocalStep run) calls) :
    AtEach (LocalStep run) (calls ++ [call]) :=
  atEach_snoc.mpr ⟨h, hcall.step⟩

end

/-! ## The parts of an action that remove nothing -/

section

variable {σ : Type} {backend : LocalBackend σ} {run : LocalRun} {action : PlanAction}
  {c : List (Call LocalAnswer)}

theorem takes_quiet (a : ActionId) : Takes Quiet a := by
  intro event _ hplan hremoval
  cases event with
  | planned plan => cases hplan
  | removalCompleted a result => cases hremoval
  | _ => exact ⟨trivial, fun _ => trivial⟩

theorem takes_safe (a : ActionId) : Takes Safe a := fun event hid hplan hremoval =>
  (takes_quiet a event hid hplan hremoval).imp Quiet.safe fun h error => (h error).safe


/-- What an attempt has transferred is on the record. -/
def OnRecord (action : PlanAction) (result : Except TransferError VerifiedReplacement)
    (calls : List (Call LocalAnswer)) : Prop :=
  ∀ replacement, result = .ok replacement →
    .answered (.transferred action (.ok replacement)) ∈ calls

theorem OnRecord.error {error : TransferError} {calls : List (Call LocalAnswer)} :
    OnRecord action (.error error) calls := by
  intro replacement h
  cases h

theorem OnRecord.mono {result : Except TransferError VerifiedReplacement}
    {calls calls' : List (Call LocalAnswer)} (h : OnRecord action result calls)
    (hsub : calls ⊆ calls') : OnRecord action result calls' :=
  fun replacement hr => hsub (h replacement hr)

theorem TransferError.requiresRecoveryReview_of_isTransient {error : TransferError}
    (h : error.isTransient = true) : error.requiresRecoveryReview = false := by
  unfold TransferError.isTransient at h
  split at h
  · rfl
  · rfl
  · rename_i exitCode signal
    cases signal with
    | none => rfl
    | some signal => cases h
  · cases h

/-- What the attempts of a transfer leave: what was transferred is on the record, and nothing
is uncertain unless their result is. -/
def Tried (run : LocalRun) (action : PlanAction) (c : List (Call LocalAnswer))
    (result : Except TransferError VerifiedReplacement) (calls : List (Call LocalAnswer)) : Prop :=
  ∃ new, calls = c ++ new ∧ OnRecord action result new ∧ AtEach (LocalStep run) calls ∧
    (TransferSure result → ∀ call ∈ new, Safe call)

section

variable {result : Except TransferError VerifiedReplacement} {calls new : List (Call LocalAnswer)}

theorem Going.tried (h : Going run c) (hnew : ∀ call ∈ new, Safe call)
    (hrecord : OnRecord action result new) : Tried run action c result (c ++ new) :=
  ⟨new, rfl, hrecord, (h.append hnew).1, fun _ => hnew⟩

theorem Going.tried_nil (h : Going run c) {error : TransferError} :
    Tried run action c (.error error) c :=
  ⟨[], (List.append_nil c).symm, .error, h.1, fun _ => List.forall_mem_nil _⟩

theorem Tried.trans (hnew : ∀ call ∈ new, Safe call)
    (h : Tried run action (c ++ new) result calls) : Tried run action c result calls := by
  obtain ⟨rest, rfl, hrecord, hsteps, hsafe⟩ := h
  refine ⟨new ++ rest, List.append_assoc .., hrecord.mono (by simp), hsteps, fun hsure => ?_⟩
  exact List.forall_mem_append.mpr ⟨hnew, hsafe hsure⟩

theorem keeps_tried (calls : List (Call LocalAnswer)) (call : Call LocalAnswer)
    (hcall : Quiet call) (h : Tried run action c result calls) :
    Tried run action c result (calls ++ [call]) := by
  obtain ⟨new, rfl, hrecord, hsteps, hsafe⟩ := h
  refine ⟨new ++ [call], List.append_assoc .., hrecord.mono (by simp), keeps_steps _ _ hcall hsteps,
    fun hsure => List.forall_mem_append.mpr ⟨hsafe hsure, ?_⟩⟩
  exact fun d hd => List.mem_singleton.mp hd ▸ hcall.safe

end

theorem attemptTransfer_steps {paths : Except TransferError (PathBuf × PathBuf)}
    {failed : Option StorageError} (hc : Going run c) :
    Triple (fun m => m.calls = c) (attemptTransfer backend run action paths failed)
      (fun r m => Tried run action c r.2 m.calls) fun _ m => AtEach (LocalStep run) m.calls := by
  unfold attemptTransfer
  cases paths with
  | error error =>
      refine .pure fun m hm => ?_
      rw [hm]
      exact hc.tried_nil
  | ok paths =>
      refine Triple.bind (inquire_calls.weaken (fun _ h => h) (fun _ _ h => h) nofun)
        fun (progress, answer) => ?_
      refine (Gives.of_adds (N := Safe) (F := fun _ _ => True)
        (journals_reportUnlessFailed (takes_safe _)).adds fun _ _ => trivial).andThen
          (fun _ _ _ hsafe hm => hm ▸ (hc.append hsafe).1) fun failed new hsafe _ => ?_
      refine Triple.bind (record_calls.weaken (fun _ h => h) (fun _ _ h => h) nofun)
        fun _ => .pure fun m hm => ?_
      have hgoing := hc.append hsafe
      refine ⟨new ++ [.answered (.transferred action (transferResult run paths.1 paths.2 answer))],
        by rw [hm, List.append_assoc], fun replacement hr => ?_, ?_, fun hsure => ?_⟩
      · dsimp only at hr
        rw [hr]
        simp
      · rw [hm]
        exact atEach_snoc.mpr ⟨hgoing.1, hgoing.2⟩
      · refine List.forall_mem_append.mpr ⟨hsafe, fun d hd => ?_⟩
        rw [List.mem_singleton.mp hd]
        exact hsure

theorem attemptOnce_steps {paths : Except TransferError (PathBuf × PathBuf)} {retried : Nat}
    {failed : Option StorageError}
    {retry : Option (Option StorageError → LocalProgram σ
      (Nat × Option StorageError × Except TransferError VerifiedReplacement))}
    (hc : Going run c)
    (h : ∀ p ∈ retry, ∀ failed c, Going run c → Triple (fun m => m.calls = c) (p failed)
      (fun r m => Tried run action c r.2.2 m.calls) fun _ m => AtEach (LocalStep run) m.calls) :
    Triple (fun m => m.calls = c) (attemptOnce backend run action paths retried failed retry)
      (fun r m => Tried run action c r.2.2 m.calls)
      fun _ m => AtEach (LocalStep run) m.calls := by
  refine (Gives.of_adds (N := Safe) (F := fun _ _ => True) (Adds.poll fun _ => trivial)
    fun _ _ => trivial).andThen (fun _ _ _ hsafe hm => hm ▸ (hc.append hsafe).1)
      fun cancel new hsafe _ => ?_
  refine .ite (fun _ => .pure fun m hm => hm ▸ hc.tried hsafe .error) fun _ => ?_
  refine Triple.bind (attemptTransfer_steps (hc.append hsafe)) fun (failed, result) => ?_
  cases result with
  | ok replacement => exact .pure fun _ hm => hm.trans hsafe
  | error error =>
      cases retry with
      | none => exact .pure fun _ hm => hm.trans hsafe
      | some retry =>
          refine .ite (fun htransient => ?_) fun _ => .pure fun _ hm => hm.trans hsafe
          refine .of_value fun c' htried => ?_
          obtain ⟨rest, hrest, -, -, hsafeIfSure⟩ := htried
          have hrestSafe := hsafeIfSure
            (TransferError.requiresRecoveryReview_of_isTransient htransient)
          have hgoing : Going run (c ++ new ++ rest) := (hc.append hsafe).append hrestSafe
          subst hrest
          exact (h retry rfl failed _ hgoing).post fun _ _ hm => (hm.trans hrestSafe).trans hsafe

theorem retryTransferWithHook_steps {paths : Except TransferError (PathBuf × PathBuf)}
    (left : Nat) : ∀ (retried : Nat) (failed : Option StorageError)
      (c : List (Call LocalAnswer)), Going run c →
      Triple (fun m => m.calls = c) (retryTransferWithHook backend run action paths left retried failed)
        (fun r m => Tried run action c r.2.2 m.calls)
        fun _ m => AtEach (LocalStep run) m.calls := by
  induction left with
  | zero => exact fun _ _ _ hc => attemptOnce_steps hc nofun
  | succ left ih =>
      refine fun retried _ _ hc => attemptOnce_steps hc fun p hp failed c hc => ?_
      obtain rfl := Option.some.inj hp
      refine Triple.bind (inquire_calls.weaken (fun _ h => h) (fun _ _ h => h) nofun)
        fun awake => .ite (fun _ => ih (retried + 1) failed c hc) fun _ => .pure fun m hm => ?_
      rw [hm]
      exact hc.tried_nil

theorem runTransfer_steps {paths : Except TransferError (PathBuf × PathBuf)} (hc : Going run c) :
    Triple (fun m => m.calls = c) (runTransfer backend run action paths)
      (fun result m => Tried run action c result m.calls)
      fun _ m => AtEach (LocalStep run) m.calls := by
  refine (retryTransferWithHook_steps _ _ _ _ hc).bind fun (retried, failed, result) => ?_
  refine ((journals_recordSchedulerRetryIfNeeded.adds.keeps keeps_tried).weaken
    (fun _ h => h) (fun _ _ h => h) fun _ _ ⟨_, _, _, hsteps, _⟩ => hsteps).bind fun _ => ?_
  cases failed with
  | some error =>
      exact (recordJournalFailure_keeps keeps_steps (takes_quiet _).review).weaken
        (fun _ ⟨_, _, _, hsteps, _⟩ => hsteps) (fun _ _ h => h.elim) fun _ _ h => h
  | none => exact .pure fun _ hm => hm

end

/-! ## What the checks show -/

/-- The entries are those of the journal that these calls have written. -/
structure ReadFrom (calls : List (Call LocalAnswer)) (entries : List ActionJournalEntry) :
    Prop where
  histories : ∃ method, ∀ a, History method (historyOf (accepted calls) a)
  loaded : ∀ entry ∈ entries,
    plan? (historyOf (accepted calls) entry.plan.actionId) = some entry.plan ∧
      entry.outcome =
        (latest? outcomeOf (historyOf (accepted calls) entry.plan.actionId)).getD .inProgress

section

variable {σ : Type} {backend : LocalBackend σ} {run : LocalRun} {action : PlanAction}
  {c : List (Call LocalAnswer)} {entries : List ActionJournalEntry} {entry : ActionJournalEntry}

theorem ReadFrom.planned (h : ReadFrom c entries) (hentry : entry ∈ entries) :
    .journaled (.planned entry.plan) ∈ c := by
  obtain ⟨tail, htail⟩ := plan?_eq_some.mp (h.loaded entry hentry).1
  have hmem : .planned entry.plan ∈ historyOf (accepted c) entry.plan.actionId :=
    htail ▸ List.mem_cons_self
  exact mem_accepted.mp (List.mem_filter.mp hmem).1

/-- A removal is completed by its result alone. -/
theorem ReadFrom.removed (h : ReadFrom c entries) (hentry : entry ∈ entries)
    (hop : entry.plan.operation = .removeSourceAfterVerification)
    (hout : entry.outcome = .completed) :
    ∃ result, .journaled (.removalCompleted entry.plan.actionId result) ∈ c := by
  obtain ⟨method, hh⟩ := h.histories
  obtain ⟨hplan, houtcome⟩ := h.loaded entry hentry
  have hlatest : latest? outcomeOf (historyOf (accepted c) entry.plan.actionId) =
      some .completed := by
    rw [hout] at houtcome
    cases hl : latest? outcomeOf (historyOf (accepted c) entry.plan.actionId) with
    | none =>
        rw [hl] at houtcome
        cases houtcome
    | some outcome =>
        rw [hl] at houtcome
        exact congrArg some houtcome.symm
  obtain ⟨init, a, result, heq⟩ := (hh _).completed_ends hplan hop hlatest
  have hmem : .removalCompleted a result ∈ historyOf (accepted c) entry.plan.actionId := by
    simp [heq]
  obtain rfl : a = entry.plan.actionId := historyOf_actionId hmem
  exact ⟨result, mem_accepted.mp (List.mem_filter.mp hmem).1⟩

theorem gives_readJournal {ε : Type} {N : Call LocalAnswer → Prop} :
    Gives N c (readJournal : Program (Machine σ LocalAnswer) ε _) fun r new =>
      new = [] ∧ ∀ entries, r = .ok entries → ReadFrom c entries := by
  rintro m rfl
  refine ⟨[], (List.append_nil _).symm, by simp, fun r hr => ⟨rfl, fun entries hentries => ?_⟩⟩
  obtain rfl := Except.ok.inj hr
  exact ⟨⟨_, m.journal.histories⟩, fun entry hentry => m.journal.loaded hentries hentry⟩

theorem gives_loadJournal {N : Call LocalAnswer → Prop} :
    Gives N c (loadJournal : SafeDeleteProgram σ _) fun entries new =>
      new = [] ∧ ReadFrom c entries := by
  refine gives_readJournal.bind fun r new ⟨hnew, hread⟩ => ?_
  cases r with
  | error error => exact .fail
  | ok entries => exact .pure ⟨by simp [hnew], hread entries rfl⟩

theorem gives_questioned {α ε : Type} {N : Call LocalAnswer → Prop}
    {question : σ → Except ε α × σ} {raise : ε → SafeDeleteError} :
    Gives N c (questioned question raise) fun _ new => new = [] := by
  refine Gives.inquire.bind fun r new hnew => ?_
  cases r with
  | error error => exact .fail
  | ok a => exact .pure (by simp [hnew])

theorem gives_recorded {α ε : Type} {N : Call LocalAnswer → Prop}
    {question : σ → Except ε α × σ} {answered : Except ε α → LocalAnswer}
    {raise : ε → SafeDeleteError} (h : ∀ r, N (.answered (answered r))) :
    Gives N c (recorded question answered raise) fun a new =>
      new = [.answered (answered (.ok a))] := by
  refine (Gives.ask h).bind fun r new hnew => ?_
  cases r with
  | error error => exact .fail
  | ok a => exact .pure (by simp [hnew])

theorem gives_orUnresolved {α : Type} {checks : SafeDeleteProgram σ α}
    {F : α → List (Call LocalAnswer) → Prop} (h : Gives Safe c checks F) :
    Gives Safe c (orUnresolved action checks) F := by
  refine h.attempt.bind fun r new hr => ?_
  cases r with
  | ok a => exact .pure (by simpa using hr a rfl)
  | error error =>
      refine (Gives.of_adds (journals_journalRemoval ⟨trivial, fun _ => trivial⟩).adds fun _ _ =>
        trivial).bind (F := fun _ _ => True) fun _ _ _ => .fail

theorem checkPlanned_eq_ok {selected : DeletionMethod}
    (h : checkPlanned backend run action = .ok selected) :
    action ∈ run.plan.actions ∧ action.kind = .removeSourceAfterVerification ∧
      run.specification.options.deletionMethod = some selected ∧
      selected = run.recoveryMethod.deletionMethod := by
  unfold checkPlanned at h
  obtain ⟨-, h⟩ := unit_bind_eq_ok.mp h
  obtain ⟨planned, hplanned, h⟩ := bind_eq_ok.mp h
  obtain ⟨rfl, h⟩ := ensure_bind_eq_ok.mp h
  obtain ⟨hkind, h⟩ := ensure_bind_eq_ok.mp h
  obtain ⟨selected', hselected, h⟩ := bind_eq_ok.mp h
  obtain ⟨hmethod, h⟩ := ensure_bind_eq_ok.mp h
  obtain rfl := Except.ok.inj h
  exact ⟨List.mem_of_find?_eq_some (orError_eq_ok.mp hplanned), hkind,
    orError_eq_ok.mp hselected, hmethod⟩

theorem gives_checkUnattended {selected : DeletionMethod} :
    Gives Safe c (checkUnattended backend selected) fun _ new => Unattended selected new := by
  refine .ite (fun _ => ?_) fun hother => .pure fun h => absurd h hother
  refine (gives_recorded fun _ => trivial).bind fun scheduled new hnew => .ite (fun _ => ?_)
    fun hnot => .pure fun _ => .inl ?_
  · refine (gives_recorded fun _ => trivial).bind fun snapshot new' hnew' =>
      .ofExcept fun _ hensure _ => .inr ⟨snapshot, by simp [hnew'], ensure_eq_ok.mp hensure⟩
  · rw [Bool.not_eq_true] at hnot
    simp [hnew, hnot]

/-- The removals planned before this one are completed. -/
theorem gives_ensurePriorSourceRemovalsSettled (hc : AtEach (LocalStep run) c) :
    Gives Safe c (ensurePriorSourceRemovalsSettled run action : SafeDeleteProgram σ Unit)
      fun _ new => new = [] ∧ ∀ prior ∈ priorRemovals run action,
        ∃ result, .journaled (.removalCompleted prior.actionId result) ∈ c := by
  refine gives_loadJournal.bind fun entries new ⟨hnew, hread⟩ => .ofExcept fun _ hall =>
    ⟨by simp [hnew], fun prior hprior => ?_⟩
  obtain ⟨entry, hentry, hcheck⟩ := bind_eq_ok.mp (forM_eq_ok.mp hall prior hprior)
  have hfound := orError_eq_ok.mp hentry
  have hmem := List.mem_of_find?_eq_some hfound
  have hid : entry.plan.actionId = prior.actionId := by simpa using List.find?_some hfound
  -- The event that planned the entry was made from the prior action itself.
  obtain ⟨before, after, hsplit⟩ := List.append_of_mem (hread.planned hmem)
  obtain ⟨action', haction', hid', hop⟩ := hc before _ after hsplit
  obtain ⟨hprior', hless, hkind⟩ : prior ∈ run.plan.actions ∧
      prior.actionId < action.actionId ∧ prior.kind = .removeSourceAfterVerification := by
    simpa [priorRemovals] using hprior
  obtain rfl := run.plan.eq_of_actionId haction' hprior' (hid'.symm.trans hid)
  exact hid ▸ hread.removed hmem (hop.trans hkind) (ensure_eq_ok.mp hcheck)

/-- The source is one that the journal has planned as it is. -/
theorem checkJournaledSource_eq_ok {proof : VerifiedTransferProof}
    (h : checkJournaledSource action proof entries = .ok ()) :
    ∃ entry ∈ entries, entry.plan.actionId = action.actionId ∧
      PlannedAs entry.plan.preAction proof.sourceAfter := by
  unfold checkJournaledSource at h
  obtain ⟨entry, hentry, h⟩ := bind_eq_ok.mp h
  have hfound := orError_eq_ok.mp hentry
  obtain ⟨-, h⟩ := ensure_bind_eq_ok.mp h
  exact ⟨entry, List.mem_of_find?_eq_some hfound, by simpa using List.find?_some hfound,
    ensure_eq_ok.mp h⟩

/-- What a proof has been checked for. -/
structure SourceProved (run : LocalRun) (action : PlanAction)
    (replacement : VerifiedReplacement) (before : List (Call LocalAnswer)) : Prop where
  metadata : replacement.metadata = run.specification.options.metadata
  frozen : ∃ plan, .journaled (.planned plan) ∈ before ∧ plan.actionId = action.actionId ∧
    PlannedAs plan.preAction replacement.proof.sourceAfter
  stable : replacement.proof.sourceBefore = replacement.proof.sourceAfter
  removable : replacement.proof.sourceAfter.metadata.itemType = .regularFile ∨
    replacement.proof.sourceAfter.metadata.itemType = .symlink

theorem gives_verifyInstalled {destination : PathBuf} {installed : Option ContentProof} :
    Gives Safe c (verifyInstalled backend destination installed) fun content new =>
      ∀ expected ∈ installed, ∃ found, content = some found ∧
        .answered (.contentVerified destination expected (.ok found)) ∈ new := by
  cases installed with
  | none => exact .pure nofun
  | some expected =>
      refine (gives_recorded fun _ => trivial).bind fun content new hnew => .pure ?_
      intro other hother
      obtain rfl := Option.mem_some_iff.mp hother
      exact ⟨content, rfl, by simp [hnew]⟩

theorem gives_proveSource {replacement : VerifiedReplacement} {destination : PathBuf} :
    Gives Safe c (proveSource backend run action replacement destination) fun proved new =>
      SourceProved run action replacement c ∧
        proved.source = proved.sourceRoot.join action.relativePath ∧
        FoundAsProved run replacement.proof proved.source destination
          proved.destinationContent new := by
  refine gives_questioned.bind fun _ _ hvalidated => gives_questioned.bind fun sourceRoot _ hroot =>
    Gives.checked.bind fun _ _ ⟨hnone, hmetadata⟩ => gives_loadJournal.bind
      fun entries _ ⟨hloaded, hread⟩ => Gives.checked.bind fun _ _ ⟨hnone', hjournaled⟩ =>
        Gives.checked.bind fun _ _ ⟨hnone₂, hstable⟩ => Gives.checked.bind
          fun _ _ ⟨hnone₃, hremovable⟩ => ?_
  subst hvalidated hroot hnone hloaded hnone' hnone₂ hnone₃
  refine (gives_recorded fun _ => trivial).bind fun _ _ hrechecked =>
    gives_verifyInstalled.bind fun content installed hcontent =>
      (gives_recorded fun _ => trivial).bind fun metadata _ hcaptured =>
        Gives.checked.bind fun _ _ ⟨hnone₄, hmatches⟩ => .pure ?_
  subst hrechecked hcaptured hnone₄
  obtain ⟨entry, hentry, hid, hplanned⟩ := checkJournaledSource_eq_ok hjournaled
  refine ⟨⟨ensure_eq_ok.mp hmetadata, ⟨entry.plan, ?_, hid, hplanned⟩,
    ensure_eq_ok.mp hstable, ensure_eq_ok.mp hremovable⟩, rfl, ?_⟩
  · simpa using hread.planned hentry
  · refine ⟨by simp, ⟨metadata, by simp, ensure_eq_ok.mp hmatches⟩, fun expected hexpected => ?_⟩
    obtain ⟨found, rfl, hmem⟩ := hcontent expected hexpected
    exact ⟨found, rfl, by simp [hmem]⟩

theorem gives_checkRecoveryTarget {proof : VerifiedTransferProof} {proved : ProvedSource} :
    Gives Safe c (checkRecoveryTarget backend run proof proved) fun _ new => new = [] := by
  unfold checkRecoveryTarget
  cases run.recoveryMethod.recoveryRoot with
  | none => exact .pure rfl
  | some root =>
      refine gives_questioned.bind fun (target, same) _ htarget => gives_questioned.bind
        fun taken _ htaken => .ite (fun _ => .fail) fun _ => ?_
      subst htarget htaken
      refine Gives.ite (fun _ => gives_questioned.bind fun _ _ hspace => .pure (by simp [hspace]))
        fun _ => .pure rfl

/-- **What the checks of a removal show**, of the trace before them and in their own calls. -/
structure RemovalChecked (run : LocalRun) (action : PlanAction)
    (replacement : VerifiedReplacement) (checked : CheckedRemoval)
    (before new : List (Call LocalAnswer)) : Prop where
  proved : SourceProved run action replacement (before ++ new)
  planned : action ∈ run.plan.actions
  kind : action.kind = .removeSourceAfterVerification
  method : run.specification.options.deletionMethod = some run.recoveryMethod.deletionMethod
  selected : checked.selected = run.recoveryMethod.deletionMethod
  prior : ∀ prior ∈ priorRemovals run action,
    ∃ result, .journaled (.removalCompleted prior.actionId result) ∈ before ++ new
  bound : BoundTo run action replacement
  source : checked.source = checked.sourceRoot.join action.relativePath
  destination : run.specification.destinationPath action = .ok checked.destination
  unattended : Unattended run.recoveryMethod.deletionMethod new
  found : FoundAsProved run replacement.proof checked.source checked.destination
    checked.destinationContent new

theorem Unattended.mono {method : DeletionMethod} {calls calls' : List (Call LocalAnswer)}
    (h : Unattended method calls) (hsub : calls ⊆ calls') : Unattended method calls' :=
  fun hmethod => (h hmethod).imp (fun hmem => hsub hmem) fun ⟨snapshot, hmem, hallowed⟩ =>
    ⟨snapshot, hsub hmem, hallowed⟩

theorem FoundAsProved.mono {proof : VerifiedTransferProof} {source destination : PathBuf}
    {content : Option ContentProof} {calls calls' : List (Call LocalAnswer)}
    (h : FoundAsProved run proof source destination content calls) (hsub : calls ⊆ calls') :
    FoundAsProved run proof source destination content calls' where
  source := hsub h.source
  metadata := h.metadata.imp fun _ hm => ⟨hsub hm.1, hm.2⟩
  content := fun expected hexpected => (h.content expected hexpected).imp fun _ hf =>
    ⟨hf.1, hsub hf.2⟩

theorem gives_checkRemoval {replacement : VerifiedReplacement} (hc : Going run c) :
    Gives Safe c (checkRemoval backend run action replacement) fun checked new =>
      RemovalChecked run action replacement checked c new := by
  refine Gives.checked.bind fun selected _ ⟨hnone, hselected⟩ => ?_
  subst hnone
  obtain ⟨hplanned, hkind, hmethod, rfl⟩ := checkPlanned_eq_ok hselected
  refine gives_checkUnattended.kind.bind fun _ unattended ⟨hunattended, hsafe⟩ => ?_
  have hc' : Going run (c ++ [] ++ unattended) := by simpa using hc.append hsafe
  refine (gives_ensurePriorSourceRemovalsSettled hc'.1).bind fun _ _ ⟨hloaded, hprior⟩ =>
    Gives.checked.bind fun source _ ⟨hnone, hsource⟩ => Gives.checked.bind
      fun destination _ ⟨hnone', hdestination⟩ => Gives.checked.bind
        fun _ _ ⟨hnone₂, hbound⟩ => ?_
  subst hloaded hnone hnone' hnone₂
  refine gives_orUnresolved (gives_proveSource.bind fun proved checks ⟨hproved, hpath, hfound⟩ =>
    gives_checkRecoveryTarget.bind fun target _ hnone => .pure ?_)
  subst hnone
  have hsame := ensure_eq_ok.mp hbound
  have hsub {call : Call LocalAnswer} (hcall : call ∈ c ++ unattended) :
      call ∈ c ++ (unattended ++ checks) := by
    rw [← List.append_assoc]
    exact List.mem_append_left _ hcall
  exact {
    proved := { hproved with
      frozen := hproved.frozen.imp fun plan hplan =>
        ⟨by simpa using hsub (by simpa using hplan.1), hplan.2⟩ }
    planned := hplanned
    kind := hkind
    method := hmethod
    selected := rfl
    prior := fun prior hmem => (hprior prior hmem).imp fun result hresult => by
      simpa using hsub (by simpa using hresult)
    bound := ⟨⟨source, mapError_eq_ok.mp hsource, hsame.1⟩,
      destination, mapError_eq_ok.mp hdestination, hsame.2⟩
    source := hpath
    destination := mapError_eq_ok.mp hdestination
    unattended := hunattended.mono (by simp)
    found := hfound.mono (by simp) }

end

/-! ## The removal -/

/-- A started removal can always be left in review. -/
theorem accepts_review {method : Option String} {acc : List JournalEvent} {a : ActionId}
    {deletionMethod : DeletionMethod} (h : Accepts method acc (.removalStarted a deletionMethod))
    (method' : Option String) (reason : ActionReason) {evidence : RecoveryEvidence}
    (hbare : evidence.provenance = none) :
    Accepts method' (acc ++ [.removalStarted a deletionMethod])
      (.recoveryReview a reason evidence) where
  actionId := h.actionId
  admits := by
    change After (historyOf (acc ++ [_])
      (eventActionId (.removalStarted a deletionMethod))) runningPhases
    rw [historyOf_snoc_self]
    exact after_snoc.mpr (by simp [eventPhase, runningPhases])
  inTurn := by
    intro b hb phase hphase
    have hne : eventActionId (.removalStarted a deletionMethod) ≠ b :=
      (UInt64.ne_of_lt hb).symm
    rw [historyOf_snoc_other hne] at hphase
    exact h.inTurn b hb phase hphase
  binds := by simp [Binds, plan?, evidenceOf, hbare]

/-- A removal that has failed: unless it is called uncertain, nothing is. -/
def Unsettled (run : LocalRun) (error : SafeDeleteError) (calls : List (Call LocalAnswer)) :
    Prop :=
  AtEach (LocalStep run) calls ∧ (isUncertain error = false → Certain calls)

section

variable {σ : Type} {backend : LocalBackend σ} {run : LocalRun} {action : PlanAction}
  {c : List (Call LocalAnswer)} {event : JournalEvent} {error : SafeDeleteError}
  {source destination : PathBuf} {recoveryTarget : Option PathBuf}

theorem Going.unsettled (h : Going run c) : Unsettled run error c :=
  ⟨h.1, fun _ => h.2⟩

theorem journalRemoval_calls {E : SafeDeleteError → List (Call LocalAnswer) → Prop}
    (hE : ∀ error, E (.storage error) (c ++ [.rejected event error])) :
    Triple (fun m => m.calls = c) (journalRemoval event : SafeDeleteProgram σ Unit)
      (fun _ m => (∃ method, Accepts method (accepted c) event) ∧
        m.calls = c ++ [.journaled event]) fun e m => E e m.calls := by
  refine appendEvent_explained.bind fun r => ?_
  rcases r with error | ⟨⟩
  · exact .fail fun m hm => hm ▸ hE error
  · exact .pure fun _ hm => hm

theorem journalRemoval_going (hevent : Offers Safe event) (hc : Going run c) :
    Triple (fun m => m.calls = c) (journalRemoval event : SafeDeleteProgram σ Unit)
      (fun _ m => (∃ method, Accepts method (accepted c) event) ∧
        m.calls = c ++ [.journaled event]) fun error m => Unsettled run error m.calls :=
  journalRemoval_calls fun error => (hc.safe (hevent.2 error)).unsettled

theorem journalRemoval_taken {E : SafeDeleteError → Machine σ LocalAnswer → Prop}
    (h : ∀ method, Accepts method (accepted c) event) :
    Triple (fun m => m.calls = c) (journalRemoval event)
      (fun _ m => m.calls = c ++ [.journaled event]) E := by
  refine (appendEvent_taken h).bind fun r => .of_pre fun hr => ?_
  subst hr
  exact .pure fun _ hm => hm

theorem observePresent_calls {ε : Type} :
    Triple (fun m => m.calls = c)
      (observePresent backend recoveryTarget : Program (Machine σ LocalAnswer) ε _)
      (fun _ m => m.calls = c) fun _ _ => False := by
  cases recoveryTarget with
  | none => exact .pure fun _ hm => hm
  | some path => exact inquire_calls.bind fun _ => .pure fun _ hm => hm

/-- Observing makes no calls and does not fail. -/
theorem observeRecoveryBoundary_calls {ε : Type} :
    Triple (fun m => m.calls = c)
      (observeRecoveryBoundary backend source destination recoveryTarget :
        Program (Machine σ LocalAnswer) ε _)
      (fun evidence m => evidence.provenance = none ∧ m.calls = c) fun _ _ => False :=
  inquire_calls.bind fun _ => inquire_calls.bind fun _ => observePresent_calls.bind fun _ =>
    inquire_calls.bind fun _ => .pure fun _ hm => ⟨rfl, hm⟩

/-- An uncertain removal is left in review, so that its error is told as what it is. -/
theorem recordFailure_steps {α : Type} (hc : Unsettled run error c)
    (hreview : ∀ method reason evidence, evidence.provenance = none →
      Accepts method (accepted c) (.recoveryReview action.actionId reason evidence)) :
    Triple (fun m => m.calls = c)
      (recordFailure backend action source destination recoveryTarget error :
        SafeDeleteProgram σ α)
      (fun _ _ => False) fun error m => Unsettled run error m.calls := by
  refine .ite (fun huncertain => ?_) fun hcertain => ?_
  · refine Triple.bind (observeRecoveryBoundary_calls.weaken (fun _ h => h) (fun _ _ h => h)
      nofun) fun evidence => .of_pre fun hbare => ?_
    refine (journalRemoval_taken fun method => hreview method _ evidence hbare).bind
      fun _ => .fail fun m hm => ?_
    rw [hm]
    exact ⟨atEach_snoc.mpr ⟨hc.1, trivial⟩, by simp [huncertain]⟩
  · have hgoing : Going run c := ⟨hc.1, hc.2 (by simpa using hcertain)⟩
    have hrejected (e : StorageError) : Unsettled run (.storage e)
        (c ++ [.rejected (.unresolved action.actionId (actionReason error)) e]) :=
      Going.unsettled (hgoing.safe trivial)
    refine (journalRemoval_calls hrejected).bind fun _ => .fail fun m hm => ?_
    rw [hm.2]
    exact Going.unsettled (hgoing.safe trivial)

/-- From the moment the file system was told to remove. -/
theorem settleRemoval_steps {removal : SourceRemoval}
    {result : Except SafeDeleteError RemovalResult} (hc : Going run c)
    (hproved : RemovalProved run c removal)
    (hreview : ∀ method reason evidence, evidence.provenance = none →
      Accepts method (accepted c) (.recoveryReview removal.action.actionId reason evidence)) :
    Triple (fun m => m.calls = c ++ [.answered (.removed removal result)])
      (settleRemoval backend removal.action source destination recoveryTarget result)
      (fun _ m => Going run m.calls) fun error m => Unsettled run error m.calls := by
  cases result with
  | error error =>
      have hfailed : Unsettled run error (c ++ [.answered (.removed removal (.error error))]) :=
        ⟨atEach_snoc.mpr ⟨hc.1, hc.2, hproved⟩, fun hcertain =>
          certain_snoc.mpr ⟨hc.2, hcertain⟩⟩
      exact (recordFailure_steps hfailed (by simpa using hreview)).post fun _ _ h => h.elim
  | ok result =>
      have hdone : Going run (c ++ [.answered (.removed removal (.ok result))]) :=
        going_snoc.mpr ⟨hc, ⟨hc.2, hproved⟩, trivial⟩
      refine (appendEvent_calls.weaken (fun _ h => h) (fun _ _ h => h) nofun).bind fun r => ?_
      rcases r with error | ⟨⟩
      · -- The source is gone and the journal does not have it.
        have hlost {reason : String} : Unsettled run (.recoveryUncertain reason)
            (c ++ [.answered (.removed removal (.ok result))] ++
              [.rejected (.removalCompleted removal.action.actionId result) error]) :=
          ⟨atEach_snoc.mpr ⟨hdone.1, trivial⟩, fun h => by cases h⟩
        exact (recordFailure_steps hlost (by simpa using hreview)).post fun _ _ h => h.elim
      · exact .pure fun m hm => hm ▸
          going_snoc.mpr ⟨hdone, ⟨c, removal, rfl, rfl⟩, trivial⟩

theorem gives_removalProvenance {selected : DeletionMethod} {proof : VerifiedTransferProof}
    {proved : ProvedSource} :
    Gives (fun _ => False) c (removalProvenance backend run action selected proof proved)
      fun _ new => new = [] := by
  unfold removalProvenance
  cases run.recoveryMethod.recoveryRoot with
  | none => exact .pure rfl
  | some root =>
      refine gives_questioned.bind fun _ _ hsnapshot => Gives.inquire.bind fun _ _ hnow =>
        Gives.checked.bind fun _ _ ⟨hnone, _⟩ => .pure ?_
      simp [hsnapshot, hnow, hnone]

/-- **The boundaries, and the removal**: behind the checks the file system is told to remove
with everything in the trace that a proved removal has to show. -/
theorem removeProved_steps {replacement : VerifiedReplacement} {checked : CheckedRemoval}
    {earlier middle new : List (Call LocalAnswer)}
    (hchecked : RemovalChecked run action replacement checked
      (earlier ++ .journaled (.started action.actionId) :: middle) new)
    (htransferred : ∃ other, .answered (.transferred other (.ok replacement)) ∈
      earlier ++ .journaled (.started action.actionId) :: middle)
    (hc : Going run (earlier ++ .journaled (.started action.actionId) :: middle ++ new)) :
    Triple (fun m => m.calls =
        earlier ++ .journaled (.started action.actionId) :: middle ++ new)
      (removeProved backend run action replacement checked)
      (fun _ m => Going run m.calls) fun error m => Unsettled run error m.calls := by
  generalize hbefore : earlier ++ Call.journaled (.started action.actionId) :: middle = before
    at *
  refine gives_removalProvenance.andThen (fun error m rest hrest hm => ?_)
    fun provenance rest _ hnone => ?_
  · obtain rfl : rest = [] := List.eq_nil_iff_forall_not_mem.mpr hrest
    exact hm ▸ Going.unsettled (by simpa using hc)
  subst hnone
  rw [List.append_nil]
  refine Triple.bind (inquire_calls.weaken (fun _ h => h) (fun _ _ h => h) nofun) fun now => ?_
  generalize hevidence : removalTransferEvidence now replacement.proof
    checked.destinationContent = evidence
  have hverified : Going run (before ++ new ++
    [.journaled (.transferVerified action.actionId evidence true)]) := hc.safe trivial
  have hboundary : Going run (before ++ new ++
    [.journaled (.transferVerified action.actionId evidence true)] ++
    [.journaled (.proofBoundary action.actionId checked.selected evidence true)]) :=
    hverified.safe trivial
  have hoffers : Offers Safe (.transferVerified action.actionId evidence true) ∧
      Offers Safe (.proofBoundary action.actionId checked.selected evidence true) ∧
      Offers Safe (.removalStarted action.actionId checked.selected) :=
    ⟨⟨trivial, fun _ => trivial⟩, ⟨trivial, fun _ => trivial⟩, trivial, fun _ => trivial⟩
  refine (journalRemoval_going hoffers.1 hc).bind fun _ => .of_pre fun _ => ?_
  refine (journalRemoval_going hoffers.2.1 hverified).bind fun _ => .of_pre fun _ => ?_
  refine (journalRemoval_going hoffers.2.2 hboundary).bind fun _ =>
    .of_pre fun ⟨method, haccepts⟩ => ?_
  refine Triple.bind (ask_calls.weaken (fun _ h => h) (fun _ _ h => h) nofun) fun result => ?_
  refine settleRemoval_steps (hboundary.safe trivial) ?_ ?_
  · have hkept {call : Call LocalAnswer} (h : call ∈ before ++ new) : call ∈ before ++ new ++
        [.journaled (.transferVerified action.actionId evidence true)] ++
        [.journaled (.proofBoundary action.actionId checked.selected evidence true)] ++
        [.journaled (.removalStarted action.actionId checked.selected)] :=
      List.mem_append_left _ (List.mem_append_left _ (List.mem_append_left _ h))
    exact {
      planned := hchecked.planned
      kind := hchecked.kind
      method := hchecked.method
      prior := fun prior hprior => (hchecked.prior prior hprior).imp fun _ h => hkept h
      source := hchecked.source
      transferred := htransferred.imp fun other h =>
        ⟨replacement, hkept (List.mem_append_left _ h), hchecked.bound, rfl,
          hchecked.proved.metadata⟩
      frozen := hchecked.proved.frozen.imp fun plan h => ⟨hkept h.1, h.2⟩
      stable := hchecked.proved.stable
      removable := hchecked.proved.removable
      checked := ⟨earlier, middle ++ new, checked.destination, checked.destinationContent, now,
        hchecked.destination, hchecked.unattended.mono (by simp), hchecked.found.mono (by simp),
        by simp [boundaries, ← hbefore, hevidence, hchecked.selected]⟩ }
  · intro method' reason evidence hbare
    rw [accepted_append]
    exact accepts_review haccepts method' reason hbare

/-- What an executor leaves. -/
def Settled (run : LocalRun) : Except SafeDeleteError Unit → List (Call LocalAnswer) → Prop
  | .ok _, calls => Going run calls
  | .error error, calls => Unsettled run error calls

/-- What was transferred is on the record. -/
def Transferred (replacement : VerifiedReplacement) (calls : List (Call LocalAnswer)) : Prop :=
  ∃ action, .answered (.transferred action (.ok replacement)) ∈ calls

theorem settleOne_steps {replacement : VerifiedReplacement}
    {earlier middle : List (Call LocalAnswer)}
    (htransferred : Transferred replacement
      (earlier ++ .journaled (.started action.actionId) :: middle))
    (hc : Going run (earlier ++ .journaled (.started action.actionId) :: middle)) :
    Triple (fun m => m.calls = earlier ++ .journaled (.started action.actionId) :: middle)
      (settleOne backend run action replacement)
      (fun _ m => Going run m.calls) fun error m => Unsettled run error m.calls :=
  (gives_checkRemoval hc).andThen
    (fun _ _ _ hsafe hm => hm ▸ (hc.append hsafe).unsettled)
    fun _ _ hsafe hchecked => removeProved_steps hchecked htransferred (hc.append hsafe)

theorem keeps_unsettled (calls : List (Call LocalAnswer)) (call : Call LocalAnswer)
    (hcall : Quiet call) (h : Unsettled run error calls) :
    Unsettled run error (calls ++ [call]) :=
  ⟨atEach_snoc.mpr ⟨h.1, hcall.step⟩, fun hcertain =>
    certain_snoc.mpr ⟨h.2 hcertain, hcall.safe.sure⟩⟩

/-- The action is under way, and nothing is uncertain. -/
def UnderWay (run : LocalRun) (a : ActionId) (calls : List (Call LocalAnswer)) : Prop :=
  Going run calls ∧ ∃ earlier middle, calls = earlier ++ .journaled (.started a) :: middle

/-- What an action leaves: the run goes on only while nothing is uncertain. -/
def Disposed (run : LocalRun) (disposition : ActionDisposition)
    (calls : List (Call LocalAnswer)) : Prop :=
  AtEach (LocalStep run) calls ∧ (disposition = .continue → Certain calls)

theorem UnderWay.append {a : ActionId} {new : List (Call LocalAnswer)}
    (h : UnderWay run a c) (hnew : ∀ call ∈ new, Safe call) : UnderWay run a (c ++ new) := by
  obtain ⟨hgoing, earlier, middle, rfl⟩ := h
  exact ⟨hgoing.append hnew, earlier, middle ++ new, by simp⟩

theorem settleSourceRemoval_steps {replacement : VerifiedReplacement}
    (hc : UnderWay run action.actionId c) (htransferred : Transferred replacement c) :
    Triple (fun m => m.calls = c) (settleSourceRemoval backend run action replacement)
      (fun disposition m => Disposed run disposition m.calls)
      fun _ m => AtEach (LocalStep run) m.calls := by
  refine Triple.bind (ask_calls.weaken (fun _ h => h) (fun _ _ h => h) nofun) fun cancel => ?_
  have hpolled : UnderWay run action.actionId (c ++ [.answered (.polledAtRemoval cancel)]) :=
    hc.append (by simp [Safe])
  refine .ite (fun _ => ?_) fun _ => ?_
  · refine Triple.bind (((Adds.journal ⟨trivial, fun _ => trivial⟩).keeps keeps_steps).pre
      fun m hm => hm ▸ hpolled.1.1) fun _ => .pure fun _ hm => ⟨hm, nofun⟩
  · obtain ⟨hgoing, earlier, middle, heq⟩ := hpolled
    rw [heq] at hgoing ⊢
    have hmem : Transferred replacement
        (earlier ++ .journaled (.started action.actionId) :: middle) :=
      htransferred.imp fun _ h => heq ▸ List.mem_append_left _ h
    have hsettled : Triple
        (fun m => m.calls = earlier ++ .journaled (.started action.actionId) :: middle)
        ((settleOne backend run action replacement).attempt : LocalProgram σ _)
        (fun r m => Settled run r m.calls) fun _ m => AtEach (LocalStep run) m.calls :=
      .attempt (settleOne_steps hmem hgoing)
    refine hsettled.bind fun r => ?_
    cases r with
    | ok _ => exact .pure fun _ hm => ⟨hm.1, fun _ => hm.2⟩
    | error error =>
        refine Triple.bind
          (((journals_recordUnsettled (takes_quiet _)).adds.keeps keeps_unsettled).weaken
            (fun _ h => h) (fun _ _ h => h) fun _ _ h => h.1)
          fun _ => .pure fun _ hm => ⟨hm.1, fun hdone => ?_⟩
        refine hm.2 ?_
        by_contra huncertain
        simp [huncertain] at hdone

end

/-! ## Actions -/

/-- What earlier actions leave was transferred in this run. -/
def Kept (replacements : PathMap VerifiedReplacement) (calls : List (Call LocalAnswer)) : Prop :=
  ∀ entry ∈ replacements, Transferred entry.2 calls

section

variable {σ : Type} {backend : LocalBackend σ} {run : LocalRun} {action : PlanAction}
  {c c' : List (Call LocalAnswer)} {replacements : PathMap VerifiedReplacement}
  {replacement : VerifiedReplacement} {path : PathBuf}

theorem Kept.nil : Kept [] c :=
  fun _ hentry => absurd hentry List.not_mem_nil

theorem Kept.mono (h : Kept replacements c) (hsub : c ⊆ c') : Kept replacements c' :=
  fun entry hentry => (h entry hentry).imp fun _ hmem => hsub hmem

theorem Kept.erase (h : Kept replacements c) : Kept (replacements.erase path) c :=
  fun entry hentry => h entry (List.mem_filter.mp hentry).1

theorem Kept.insert (h : Kept replacements c) (hr : Transferred replacement c) :
    Kept (replacements.insert path replacement) c := by
  intro entry hentry
  rcases List.mem_cons.mp hentry with rfl | hentry
  · exact hr
  · exact h entry (List.mem_filter.mp hentry).1

theorem Kept.get (h : Kept replacements c) (hget : replacements.get path = some replacement) :
    Transferred replacement c := by
  obtain ⟨entry, hentry, rfl⟩ := Option.map_eq_some_iff.mp hget
  exact h entry (List.mem_of_find?_eq_some hentry)

/-- What an action leaves, beside the trace. -/
def LeftAs (run : LocalRun) (left : ActionDisposition × PathMap VerifiedReplacement)
    (calls : List (Call LocalAnswer)) : Prop :=
  Disposed run left.1 calls ∧ Kept left.2 calls

theorem Going.leftAs (h : Going run c) {disposition : ActionDisposition}
    (hkept : Kept replacements c) : LeftAs run (disposition, replacements) c :=
  ⟨⟨h.1, fun _ => h.2⟩, hkept⟩

/-- A part that only makes safe calls, on what is kept. -/
def GoingWith (run : LocalRun) (replacements : PathMap VerifiedReplacement)
    (calls : List (Call LocalAnswer)) : Prop :=
  Going run calls ∧ Kept replacements calls

theorem keeps_goingWith (calls : List (Call LocalAnswer)) (call : Call LocalAnswer)
    (hcall : Safe call) (h : GoingWith run replacements calls) :
    GoingWith run replacements (calls ++ [call]) :=
  ⟨h.1.safe hcall, h.2.mono (by simp)⟩

/-- A transfer that failed: where the action has to be reviewed the run stops. -/
theorem recordTransferFailure_left {error : TransferError}
    (h : Tried run action c (.error error) c') (hc : Going run c)
    (hkept : Kept replacements c) :
    Triple (fun m => m.calls = c') (recordTransferFailure backend action error)
      (fun disposition m => LeftAs run (disposition, replacements) m.calls)
      fun _ m => AtEach (LocalStep run) m.calls := by
  obtain ⟨new, rfl, -, hsteps, hsafe⟩ := h
  have hkept' : Kept replacements (c ++ new) := hkept.mono (by simp)
  cases hreview : error.requiresRecoveryReview with
  | false =>
      have hgoing : GoingWith run replacements (c ++ new) := ⟨hc.append (hsafe hreview), hkept'⟩
      exact (Adds.keeps (journals_recordTransferFailure (takes_safe _)).adds keeps_goingWith).weaken
        (fun _ hm => hm ▸ hgoing) (fun _ _ hm => hm.1.leftAs hm.2) fun _ _ hm => hm.1.1
  | true =>
      have hkeeps : ∀ (calls : List (Call LocalAnswer)) (call : Call LocalAnswer), Quiet call →
          AtEach (LocalStep run) calls ∧ Kept replacements calls →
            AtEach (LocalStep run) (calls ++ [call]) ∧ Kept replacements (calls ++ [call]) :=
        fun calls call hcall hI => ⟨keeps_steps calls call hcall hI.1, hI.2.mono (by simp)⟩
      unfold recordTransferFailure
      refine .ite (fun hcancelled => ?_) fun _ => .ite (fun _ => ?_) fun hnot => ?_
      · rw [hcancelled] at hreview
        cases hreview
      · refine Triple.bind ((Adds.observeActionBoundary.keeps hkeeps).weaken
          (fun _ hm => hm ▸ ⟨hsteps, hkept'⟩) (fun _ _ hm => hm) fun _ _ hm => hm.1) fun evidence => ?_
        refine Triple.bind (((Adds.journal ⟨trivial, fun _ => trivial⟩).keeps hkeeps).weaken
          (fun _ hm => hm) (fun _ _ hm => hm) fun _ _ hm => hm.1) fun _ => .pure fun _ hm => ?_
        exact ⟨⟨hm.1, nofun⟩, hm.2⟩
      · exact absurd hreview hnot

theorem executeCopy_steps (hc : Going run c) (hkept : Kept replacements c) :
    Triple (fun m => m.calls = c) (executeCopy backend run action replacements)
      (fun left m => LeftAs run left m.calls) fun _ m => AtEach (LocalStep run) m.calls := by
  refine (runTransfer_steps hc).bind fun result => .of_value fun c' htried => ?_
  cases result with
  | error error =>
      exact (recordTransferFailure_left htried hc hkept).bind fun _ => .pure fun _ hm => hm
  | ok replacement =>
      obtain ⟨new, rfl, honrecord, -, hsafe⟩ := htried
      have hgoing : GoingWith run replacements (c ++ new) :=
        ⟨hc.append (hsafe trivial), hkept.mono (by simp)⟩
      have hdone : GoingWith run (if action.kind = .copyToDestination ∨
          run.specification.options.safeDelete = true
          then replacements.insert action.relativePath replacement else replacements)
          (c ++ new) := by
        refine ⟨hgoing.1, ?_⟩
        split
        · exact hgoing.2.insert ⟨action, List.mem_append_right _ (honrecord replacement rfl)⟩
        · exact hgoing.2
      refine Triple.bind ((journals_localTransferEvidence.adds.keeps keeps_goingWith).weaken
        (fun _ h => h ▸ hdone) (fun _ _ h => h) fun _ _ h => h.1.1) fun evidence => ?_
      cases evidence with
      | error error =>
          exact (recordJournalFailure_keeps keeps_goingWith (takes_safe _).review).weaken
            (fun _ h => h) (fun _ _ h => h.elim) fun _ _ h => h.1.1
      | ok evidence =>
          generalize (if action.kind = .copyToDestination ∨
            run.specification.options.safeDelete = true
            then replacements.insert action.relativePath replacement else replacements) = left
          have hjournaled {event : JournalEvent} (h : Offers Safe event) :
              Triple (fun m => GoingWith run left m.calls)
                (journalOrReview backend.toSurroundings action event : LocalProgram σ Unit)
                (fun _ m => GoingWith run left m.calls)
                fun _ m => AtEach (LocalStep run) m.calls :=
            ((Adds.journalOrReview h (takes_safe _).review).keeps keeps_goingWith).weaken
              (fun _ h => h) (fun _ _ h => h) fun _ _ h => h.1.1
          refine Triple.bind (hjournaled ⟨trivial, fun _ => trivial⟩) fun _ => ?_
          refine Triple.bind (hjournaled ⟨trivial, fun _ => trivial⟩) fun _ => ?_
          exact .pure fun _ hm => hm.1.leftAs hm.2

theorem settleAndLeave_steps (hc : UnderWay run action.actionId c) (hkept : Kept replacements c)
    (hr : Transferred replacement c) :
    Triple (fun m => m.calls = c) (do
      let disposition ← settleSourceRemoval backend run action replacement
      return (disposition, replacements))
      (fun left m => LeftAs run left m.calls) fun _ m => AtEach (LocalStep run) m.calls :=
  (journals_settleSourceRemoval.adds.keepsBefore (settleSourceRemoval_steps hc hr)).bind
    fun _ => .pure fun _ hm => ⟨hm.1, hkept.mono hm.2⟩

theorem executeRemoval_steps (hc : UnderWay run action.actionId c) (hkept : Kept replacements c) :
    Triple (fun m => m.calls = c) (executeRemoval backend run action replacements)
      (fun left m => LeftAs run left m.calls) fun _ m => AtEach (LocalStep run) m.calls := by
  unfold executeRemoval
  cases hget : replacements.get action.relativePath with
  | some replacement => exact settleAndLeave_steps hc hkept.erase (hkept.get hget)
  | none =>
      refine (runTransfer_steps hc.1).bind fun result => .of_value fun c' htried => ?_
      cases result with
      | error error =>
          exact (recordTransferFailure_left htried hc.1 hkept.erase).bind
            fun _ => .pure fun _ hm => hm
      | ok replacement =>
          obtain ⟨new, rfl, honrecord, -, hsafe⟩ := htried
          exact settleAndLeave_steps (hc.append (hsafe trivial)) (hkept.erase.mono (by simp))
            ⟨action, List.mem_append_right _ (honrecord replacement rfl)⟩

theorem executeAction_steps (hc : Going run c) (hkept : Kept replacements c) :
    Triple (fun m => m.calls = c) (executeAction backend run action replacements)
      (fun left m => LeftAs run left m.calls) fun _ m => AtEach (LocalStep run) m.calls := by
  have hjournal {c : List (Call LocalAnswer)} (hc : Going run c) {event : JournalEvent}
      (hevent : Offers Safe event) :
      Triple (fun m => m.calls = c) (journal event : LocalProgram σ Unit)
        (fun _ m => m.calls = c ++ [.journaled event])
        fun _ m => AtEach (LocalStep run) m.calls :=
    journal_calls fun error => (hc.safe (hevent.2 error)).1
  have hstarted : UnderWay run action.actionId (c ++ [.journaled (.started action.actionId)]) :=
    ⟨hc.safe trivial, c, [], rfl⟩
  have hprogress : UnderWay run action.actionId (c ++ [.journaled (.started action.actionId)] ++
      [.journaled (.progress action.actionId 0)]) := hstarted.append (by simp [Safe])
  have hleft : Kept replacements (c ++ [.journaled (.started action.actionId)] ++
      [.journaled (.progress action.actionId 0)]) := hkept.mono (by simp)
  refine (hjournal hc (by simp [Offers, Safe])).bind fun _ =>
    (hjournal hstarted.1 (by simp [Offers, Safe])).bind fun _ => ?_
  cases action.kind with
  | copyToDestination => exact executeCopy_steps hprogress.1 hleft
  | overwriteDestination => exact executeCopy_steps hprogress.1 hleft
  | removeSourceAfterVerification => exact executeRemoval_steps hprogress hleft
  | removeDestination =>
      have hdeferred : Going run (c ++ [.journaled (.started action.actionId)] ++
          [.journaled (.progress action.actionId 0)] ++
          [.journaled (.deferred action.actionId)]) := hprogress.1.safe trivial
      refine (hjournal hprogress.1 (by simp [Offers, Safe])).bind fun _ => .pure fun m hm => ?_
      exact hm ▸ hdeferred.leftAs (hleft.mono (by simp))

theorem runActions_steps (actions : List PlanAction) :
    ∀ (replacements : PathMap VerifiedReplacement) (c : List (Call LocalAnswer)),
      Going run c → Kept replacements c →
      Triple (fun m => m.calls = c)
        (runActions backend.toSurroundings (executeAction backend run) actions replacements)
        (fun _ m => AtEach (LocalStep run) m.calls)
        fun _ m => AtEach (LocalStep run) m.calls := by
  have hcancel (rest : List PlanAction) : Triple (fun m => AtEach (LocalStep run) m.calls)
      (cancelRemaining rest : LocalProgram σ Unit) (fun _ m => AtEach (LocalStep run) m.calls)
      fun _ m => AtEach (LocalStep run) m.calls :=
    (Adds.cancelRemaining fun _ => ⟨trivial, fun _ => trivial⟩).keeps keeps_steps
  induction actions with
  | nil => exact fun _ _ hc _ => .pure fun _ hm => hm ▸ hc.1
  | cons action rest ih =>
      intro replacements c hc hkept
      refine (Gives.of_adds (N := Safe) (F := fun _ _ => True) (Adds.poll fun _ => trivial)
        fun _ _ => trivial).andThen (fun _ _ _ hsafe hm => hm ▸ (hc.append hsafe).1)
          fun cancel new hsafe _ => ?_
      have hpolled : Going run (c ++ new) := hc.append hsafe
      refine .ite (fun _ => (hcancel _).pre fun _ hm => hm ▸ hpolled.1) fun _ => ?_
      refine Triple.bind (executeAction_steps hpolled (hkept.mono (by simp)))
        fun (disposition, left) => ?_
      cases disposition with
      | stop => exact (hcancel rest).pre fun _ hm => hm.1.1
      | «continue» =>
          exact .of_value fun c' hc' => ih left c' ⟨hc'.1.1, hc'.1.2 rfl⟩ hc'.2

/-! ## Planning -/

theorem gives_planRecord :
    Gives (fun _ => False) c (planRecord backend run action) fun plan new =>
      new = [] ∧ plan.actionId = action.actionId ∧ plan.operation = action.kind := by
  have hpre {path : PathBuf} : Gives (fun _ => False) (c ++ []) (capturedPreAction backend path)
      fun _ new => new = [] := by
    refine Gives.inquire.bind fun r new hnew => ?_
    subst hnew
    cases r with
    | error error => exact .fail
    | ok metadata =>
        refine .ite (fun _ => Gives.inquire.bind fun content new hnew => ?_) fun _ => .pure rfl
        cases content with
        | error error => exact .fail
        | ok content => exact .pure (by simp [hnew])
  refine Gives.checked.bind fun path new ⟨hnew, _⟩ => ?_
  subst hnew
  exact hpre.bind fun _ new hnew => .pure ⟨by simp [hnew], rfl, rfl⟩

theorem persistPlan_steps :
    Triple (fun m => Going run m.calls)
      (persistPlan (planRecord backend run) run.plan.actions)
      (fun _ m => Going run m.calls) fun _ m => AtEach (LocalStep run) m.calls := by
  refine .forEach fun action haction => .of_value fun c hc => ?_
  refine gives_planRecord.andThen (fun _ m new hnone hm => ?_)
    fun plan new _ ⟨hnew, hid, hop⟩ => ?_
  · obtain rfl : new = [] := List.eq_nil_iff_forall_not_mem.mpr hnone
    exact hm ▸ by simpa using hc.1
  · subst hnew
    rw [List.append_nil]
    have hrejected (error : StorageError) :
        AtEach (LocalStep run) (c ++ [.rejected (.planned plan) error]) :=
      Going.steps (hc.safe trivial)
    refine (journal_calls hrejected).post fun _ m hm => ?_
    rw [hm]
    exact going_snoc.mpr ⟨hc, ⟨action, haction, hid, hop⟩, trivial⟩

theorem localRun_steps (backend : LocalBackend σ) (run : LocalRun) (world : σ) :
    AtEach (LocalStep run) (runFrom backend run world).2.calls := by
  have h : Triple (fun m => m.calls = []) (executeConfirmed backend run)
      (fun _ m => AtEach (LocalStep run) m.calls)
      fun _ m => AtEach (LocalStep run) m.calls := by
    refine Triple.bind (Q := fun _ m => Going run m.calls) (.ofExcept (fun _ _ m hm => ?_)
      fun _ _ m hm => ?_) fun _ => ?_
    · exact hm ▸ going_nil
    · exact hm ▸ going_nil.steps
    · refine persistPlan_steps.bind fun _ => ?_
      exact .of_value fun c hc => runActions_steps _ [] c hc .nil
  have hrun := h (Machine.opened LocalAnswer world run.confirmed.frozenMethod) rfl
  unfold runFrom
  revert hrun
  rcases executeConfirmed backend run
    (Machine.opened LocalAnswer world run.confirmed.frozenMethod) with ⟨e | ⟨⟩, m⟩ <;> exact id

end

/-! ## Once for each action -/

/-- A boundary that sets a slot is drawn once in a history. -/
theorem boundary_once {method : Option String} {init tail : List JournalEvent}
    {d e : JournalEvent} (h : History method (init ++ e :: tail)) (hd : d ∈ init)
    (hslot : eventPhase e ∈ slotPhases) : eventPhase d ≠ eventPhase e := by
  intro heq
  obtain ⟨hpre, hadm⟩ := h.split
  rcases hadm.after with ⟨plan, rfl, rfl⟩ | ⟨-, ph, hph, hmay⟩
  · cases hd
  · exact slotPhase_once hslot hmay (heq ▸ hpre.mem_soFar hph d hd)

section

variable {σ : Type} {run : LocalRun}

theorem RemovalProved.boundary {before : List (Call LocalAnswer)} {removal : SourceRemoval}
    (h : RemovalProved run before removal) : ∃ earlier evidence,
      before = earlier ++ boundaries removal.action.actionId run.recoveryMethod.deletionMethod
        evidence := by
  obtain ⟨earlier, middle, -, content, now, -, -, -, heq⟩ := h.checked
  exact ⟨earlier ++ .journaled (.started removal.action.actionId) :: middle,
    removalTransferEvidence now removal.proof content, by simp [heq]⟩

/-- What was called before the last three calls stands before them. -/
theorem mem_of_boundaries {before earlier before' rest : List (Call LocalAnswer)}
    {a : ActionId} {method : DeletionMethod} {evidence : RecoveryEvidence}
    {answer : LocalAnswer} (heq : before = earlier ++ boundaries a method evidence)
    (hsplit : before = before' ++ .answered answer :: rest) : before' ⊆ earlier := by
  rw [heq] at hsplit
  rcases List.append_eq_append_iff.mp hsplit with ⟨mid, rfl, hlast⟩ | ⟨mid, rfl, hlast⟩
  · have hmem : .answered answer ∈ boundaries a method evidence := by simp [hlast]
    simp [boundaries] at hmem
  · simp

theorem removed_once {m : Machine σ LocalAnswer} {before after : List (Call LocalAnswer)}
    {removal : SourceRemoval} {result : Except SafeDeleteError RemovalResult}
    (hcalls : m.calls = before ++ .answered (.removed removal result) :: after)
    (hsteps : AtEach (LocalStep run) m.calls) {removal' : SourceRemoval}
    {result' : Except SafeDeleteError RemovalResult}
    (hmem : .answered (.removed removal' result') ∈ before) :
    removal'.action.actionId ≠ removal.action.actionId := by
  intro hid
  obtain ⟨before', rest, hsplit⟩ := List.append_of_mem hmem
  have hproved := (hsteps before _ after hcalls).2
  have hproved' : RemovalProved run before' removal' :=
    (hsteps before' (.answered (.removed removal' result'))
      (rest ++ .answered (.removed removal result) :: after)
      (by rw [hcalls, hsplit, List.append_assoc, List.cons_append])).2
  obtain ⟨earlier, evidence, hbefore⟩ := hproved.boundary
  obtain ⟨earlier', evidence', rfl⟩ := hproved'.boundary
  have hfirst : .journaled (.proofBoundary removal'.action.actionId
      run.recoveryMethod.deletionMethod evidence' true) ∈ earlier :=
    mem_of_boundaries hbefore hsplit (by simp [boundaries])
  -- Both boundaries are of the same history, one after the other.
  have hhistory := m.journal.histories removal.action.actionId
  have hsplit' : historyOf (accepted m.calls) removal.action.actionId =
      (historyOf (accepted earlier) removal.action.actionId ++
        [.transferVerified removal.action.actionId evidence true]) ++
      .proofBoundary removal.action.actionId run.recoveryMethod.deletionMethod evidence true ::
        .removalStarted removal.action.actionId run.recoveryMethod.deletionMethod ::
          historyOf (accepted after) removal.action.actionId := by
    simp [hcalls, hbefore, boundaries, historyOf, eventActionId]
  rw [hsplit'] at hhistory
  refine boundary_once hhistory (List.mem_append_left _ ?_) (by simp [eventPhase, slotPhases]) rfl
    (d := .proofBoundary removal'.action.actionId run.recoveryMethod.deletionMethod evidence' true)
  exact List.mem_filter.mpr ⟨mem_accepted.mpr hfirst, decide_eq_true hid⟩

end

/-- **Local sources are removed on proof.** In every run of the local driver, whatever the
file system and the store answer: the file system is told to remove a source only with
everything in the trace that a proved removal has to show, while nothing is uncertain, and
once for each action; a removal is journaled as completed with the result of the removal just
before; and nothing is transferred either after an uncertain transfer or removal. -/
theorem performRemoval_on_proof {σ : Type} (backend : LocalBackend σ) (run : LocalRun)
    (world : σ) :
    (∀ before removal result after,
      (runFrom backend run world).2.calls =
        before ++ .answered (.removed removal result) :: after →
      RemovalProved run before removal ∧ Certain before ∧
        ∀ removal' result', .answered (.removed removal' result') ∈ before →
          removal'.action.actionId ≠ removal.action.actionId) ∧
    (∀ before a result after,
      (runFrom backend run world).2.calls =
        before ++ .journaled (.removalCompleted a result) :: after →
      RemovalTold before a result) ∧
    ∀ before action result after,
      (runFrom backend run world).2.calls =
        before ++ .answered (.transferred action result) :: after → Certain before := by
  have hsteps := localRun_steps backend run world
  refine ⟨fun before removal result after h => ?_, fun before _ _ after h => ?_,
    fun before _ _ after h => ?_⟩
  · obtain ⟨hcertain, hproved⟩ := hsteps before _ after h
    exact ⟨hproved, hcertain, fun _ _ hmem => removed_once h hsteps hmem⟩
  · exact hsteps before _ after h
  · exact hsteps before _ after h

/-! ### A file of five bytes is moved

It is copied, and then its source is removed on the proof of that copy. -/

def movedContent : ContentProof where
  size := 5
  sha256 := sampleHash

def movedMetadata : FileMetadataProof where
  itemType := .regularFile
  size := 5
  modifiedAtUnixNanos := some 1
  identity := none
  permissions := none
  symlinkTarget := none

def movedProof : VerifiedTransferProof where
  sourceBefore := ⟨movedMetadata, some movedContent⟩
  temporaryDestination := some movedContent
  sourceAfter := ⟨movedMetadata, some movedContent⟩
  installedDestination := some movedContent

def movedItem : InventoryItem where
  relativePath := ⟨[97]⟩
  itemType := .regularFile
  metadata := {
    size := 5
    modifiedAt := none
    readonly := false
    permissions := none
    symlinkTarget := none }
  outcome := .included
  contentFingerprint := none

def movedAction (actionId : ActionId) (kind : PlanActionKind) : PlanAction where
  actionId
  relativePath := ⟨[97]⟩
  kind
  sourceSide := .peerA
  size := none

def movedOptions : ValidatedSyncOptions := {
  SyncOptions.default with
  safeDelete := true
  deletionMethod := some .permanentRemoval
  checked := by decide +kernel }

def movedRun : LocalRun where
  runId := ⟨1⟩
  confirmed := {
    plan := {
      mode := .oneWay
      options := movedOptions
      sourceInventory := ⟨[movedItem]⟩
      destinationInventory := ⟨[]⟩
      actions := [movedAction 1 .copyToDestination,
        movedAction 2 .removeSourceAfterVerification]
      numbered := by decide
      bounded := by decide
      covered := by decide }
    profile := .new "Move" ⟨"Here", .local ⟨[47, 115]⟩⟩ ⟨"There", .local ⟨[47, 100]⟩⟩ }
  specification := {
    options := movedOptions
    source := .peerA
    mode := .oneWay
    sourceRoot := ⟨[47, 115]⟩
    destinationRoot := ⟨[47, 100]⟩
    peerARoot := ⟨[47, 115]⟩
    peerBRoot := ⟨[47, 100]⟩
    exclusions := [] }
  recoveryMethod := .permanentRemoval
  options_eq := rfl
  mode_eq := rfl

def movedResult : RemovalResult where
  deletionMethod := .permanentRemoval
  evidence := RecoveryEvidence.new 9 none false true false none (some 5) none (some sampleHash)

def movedBackend : LocalBackend Unit where
  shouldCancel _ := (false, ())
  sleepInterruptibly _ := (true, ())
  currentUnixNanos _ := (1, ())
  observePaths _ _ := ((⟨true, none⟩, ⟨true, none⟩), ())
  debug _ := ""
  storageText _ := ""
  captureMetadata _ _ := (.ok movedMetadata, ())
  contentFromPath _ _ := (.ok movedContent, ())
  performVerifiedReplacement _ _ _ := ((some 5, .ok (none, movedProof)), ())
  isScheduledRun _ := (.ok false, ())
  recordSchedulerRetry _ _ _ := (.ok (), ())
  loadSnapshot _ := (.error (.invalidEvent ""), ())
  validateSourceItemPath _ _ _ := (.ok (), ())
  canonicalize path _ := (.ok path, ())
  recheck _ _ _ := (.ok (), ())
  verifyContent _ expected _ := (.ok expected, ())
  validateRecoveryRoot path _ _ _ := (.ok (path, true), ())
  pathExists _ _ := (.ok false, ())
  ensureRecoverySpace _ _ _ := (.ok (), ())
  performRemoval _ _ := (.ok movedResult, ())
  observeContent _ _ := (⟨true, none⟩, ())

def movedRemoval : SourceRemoval where
  action := movedAction 2 .removeSourceAfterVerification
  sourceRoot := ⟨[47, 115]⟩
  source := ⟨[47, 115, 47, 97]⟩
  proof := movedProof
  metadata := movedOptions.metadata
  provenance := none

/-- The source of the copied file is removed, on proof. -/
theorem performRemoval_on_proof_moved :
    ∃ before after, (runFrom movedBackend movedRun ()).2.calls =
        before ++ .answered (.removed movedRemoval (.ok movedResult)) :: after ∧
      RemovalProved movedRun before movedRemoval := by
  have hmem : .answered (.removed movedRemoval (.ok movedResult)) ∈
      (runFrom movedBackend movedRun ()).2.calls := by
    decide +kernel
  obtain ⟨before, after, heq⟩ := List.append_of_mem hmem
  exact ⟨before, after, heq,
    ((performRemoval_on_proof movedBackend movedRun ()).1 before _ _ after heq).1⟩

end LocalWorkflow

end SyncPlus
