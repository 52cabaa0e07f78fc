import SyncPlus.MachineRules
import SyncPlus.RemovalProof
import SyncPlus.SshWorkflow

/-!
# Remote sources are removed on proof

The backend decides nothing. It is asked to recover a source in one
place only, and by then the trace ends with the boundaries of that very
action: the transfer verified by the evidence that is handed on, the
proof boundary with the same evidence, a poll that was answered with no,
and the start of the removal. Everything else the driver does is `Plain`
and cannot disturb what the trace shows.

That the evidence is the frozen source's is the journal's doing: it took
the verified transfer only against the size and hash of the planned item.
What is left to the driver is the destination. For a regular file it is
the source's content. For any other item the driver asks for matching
metadata alone.
-/

namespace SyncPlus

/-! ## What the trace has to show -/

/-- The four boundaries of a removal, of one proof, at the end of a trace. -/
def removalBoundaries (a : ActionId) (proof : RecoveryEvidence) :
    List (Call SshAnswer) :=
  [.journaled (.transferVerified a proof true), .journaled (.proofBoundary a .trash proof true),
    .answered (.polledAtBoundary false), .journaled (.removalStarted a .trash)]

/-- The action is under way. -/
def StartedIn (a : ActionId) (calls : List (Call SshAnswer)) : Prop :=
  ∃ earlier middle, calls = earlier ++ .journaled (.started a) :: middle

/-- The evidence fits the request and the frozen item. -/
structure EvidenceProved (plan : OneWayPlan) (request : SshTransferRequest)
    (transfer : SshTransferEvidence) (item : InventoryItem) : Prop where
  frozen : (plan.inventory request.action).item request.action.relativePath = some item
  sourcePath : ∃ path, transfer.sourcePath = some path ∧
    path.same (request.sourcePeer.root.join request.action.relativePath) = true
  destinationPath : ∃ path, transfer.destinationPath = some path ∧
    path.same request.destination = true
  stable : transfer.sourceStabilityVerified = true
  metadata : ∃ source destination, transfer.sourceMetadata = some source ∧
    transfer.destinationMetadata = some destination ∧
    source.matchesItem item plan.options.metadata = true ∧
    destination.matchesOther source plan.options.metadata = true
  sourceSize : transfer.sourceSize = some item.metadata.size
  sourceSha256 : transfer.source.map (·.sha256) = item.contentFingerprint
  content : item.itemType = .regularFile →
    ∃ content, transfer.source = some content ∧ transfer.destination = some content

/-- **A proved recovery**: what stands in the trace before the backend is
asked to recover a source, and what the evidence handed to it shows. -/
structure RecoveryProved (run : SshRun) (before : List (Call SshAnswer))
    (request : SshTransferRequest) (transfer : SshTransferEvidence) : Prop where
  planned : request.action ∈ run.confirmed.plan.actions
  issued : ∃ remotePeer, request = run.request request.action remotePeer
  frozenMethod : run.confirmed.frozenMethod = some (encodeDeletionMethod .trash)
  boundaries : ∃ now proof earlier, transfer.recoveryEvidence now = some proof ∧
    StartedIn request.action.actionId earlier ∧
    before = earlier ++ removalBoundaries request.action.actionId proof
  evidence : ∃ item, EvidenceProved run.confirmed.plan request transfer item

/-- The result of a removal is the answer to the recovery just before it. -/
def RecoveryAccepted (before : List (Call SshAnswer)) (a : ActionId)
    (result : RemovalResult) : Prop :=
  ∃ earlier request transfer,
    before = earlier ++ [.answered (.recovered request transfer (.ok result.evidence))] ∧
      request.action.actionId = a ∧ result.deletionMethod = .trash ∧
      validateRemoteRecovery request transfer result.evidence = true

/-- What each call of an SSH run satisfies, given those before it. -/
def SshStep (run : SshRun) (before : List (Call SshAnswer)) : Call SshAnswer → Prop
  | .journaled (.planned plan) =>
      ∃ action ∈ run.confirmed.plan.actions,
        sshPlanRecord run.confirmed.plan action = .ok plan
  | .journaled (.removalCompleted a result) => RecoveryAccepted before a result
  | .answered (.recovered request transfer _) => RecoveryProved run before request transfer
  | _ => True

/-- The calls of which nothing is asked. -/
def Plain : Call SshAnswer → Prop
  | .journaled (.planned _) => False
  | .journaled (.removalCompleted _ _) => False
  | .answered (.recovered _ _ _) => False
  | _ => True

theorem Plain.step {run : SshRun} {before : List (Call SshAnswer)} {call : Call SshAnswer}
    (h : Plain call) : SshStep run before call := by
  unfold Plain at h
  unfold SshStep
  split at h
  · exact h.elim
  · exact h.elim
  · exact h.elim
  · trivial

/-! ## The plain parts -/

section

variable {σ : Type} {backend : SshBackend σ} {run : SshRun} {plan : OneWayPlan}
  {request : SshTransferRequest} {action : PlanAction}

theorem offers_review (evidence : RecoveryEvidence) : Offers Plain
    (.recoveryReview action.actionId .interruptedBoundary evidence) :=
  ⟨trivial, fun _ => trivial⟩

theorem adds_attemptTransfer
    {retry : Option (SshProgram σ (Except SshTransferExecutionError SshTransferEvidence))}
    (h : ∀ p ∈ retry, Adds Plain p) :
    Adds Plain (attemptTransfer backend request retry) := by
  refine (Adds.poll fun _ => trivial).bind fun cancel => .ite (fun _ => .pure) fun _ => ?_
  refine Adds.inquire.bind fun (progress, result) =>
    (Adds.reportProgress fun _ => ⟨trivial, fun _ => trivial⟩).bind fun reported =>
      (Adds.record trivial).bind fun _ => ?_
  rcases reported with error | ⟨⟩
  · exact .pure
  · cases result with
    | ok evidence => exact .pure
    | error error =>
      cases retry with
      | none => exact .pure
      | some retry => exact .ite (fun _ => h retry rfl) fun _ => .pure

theorem adds_runSshTransfer (retries : Nat) :
    Adds Plain (runSshTransfer backend request retries) := by
  induction retries with
  | zero => exact adds_attemptTransfer nofun
  | succ retries ih =>
    refine adds_attemptTransfer fun p hp => ?_
    obtain rfl := Option.some.inj hp
    exact Adds.inquire.bind fun _ => .ite (fun _ => ih) fun _ => .pure

theorem adds_sshTransferFor {transfers : PathMap SshTransferEvidence} :
    Adds Plain (sshTransferFor backend plan request transfers) := by
  unfold sshTransferFor
  cases transfers.get request.action.relativePath with
  | some evidence => exact .pure
  | none => exact adds_runSshTransfer _

theorem adds_recordSshFailure {error : SshRunError} :
    Adds Plain (recordSshFailure backend action error) := by
  unfold recordSshFailure
  refine .ite (fun _ => ?_) fun _ => .ite (fun _ => Adds.inquire.bind fun _ => ?_)
    fun _ => .ite (fun _ => ?_) fun _ => ?_ <;>
  exact (Adds.journal ⟨trivial, fun _ => trivial⟩).bind fun _ => .pure

theorem adds_recordTransferFailure {error : SshTransferExecutionError} :
    Adds Plain (recordTransferFailure backend action error) := by
  cases error with
  | journal error => exact .recordJournalFailure offers_review
  | remote error => exact adds_recordSshFailure

theorem adds_journalOrReview {event : JournalEvent} (h : Offers Plain event) :
    Adds Plain (journalOrReview backend.toSurroundings action event :
      SshProgram σ Unit) :=
  .journalOrReview h offers_review

theorem adds_journalVerified {evidence : SshTransferEvidence} {missing : String} :
    Adds Plain (journalVerified backend action evidence missing) := by
  refine Adds.inquire.bind fun now => ?_
  cases evidence.recoveryEvidence now with
  | none => exact .recordJournalFailure offers_review
  | some proof =>
    exact Adds.bind (adds_journalOrReview ⟨trivial, fun _ => trivial⟩) fun _ => .pure

theorem adds_leaveUnverified {transfers : PathMap SshTransferEvidence} :
    Adds Plain (leaveUnverified backend action transfers) :=
  Adds.bind (adds_journalOrReview ⟨trivial, fun _ => trivial⟩) fun _ => .pure

theorem adds_sshCopy {transfers : PathMap SshTransferEvidence} :
    Adds Plain (sshCopy backend plan request transfers) := by
  refine (adds_runSshTransfer _).bind fun result => ?_
  cases result with
  | error error => exact adds_recordTransferFailure.bind fun _ => .pure
  | ok evidence =>
    refine Adds.ofExcept.bind fun item => .ite (fun _ => ?_) fun _ => adds_leaveUnverified
    exact adds_journalVerified.bind fun _ =>
      Adds.bind (adds_journalOrReview ⟨trivial, fun _ => trivial⟩) fun _ => .pure

/-! ## The critical section -/

/-- The evidence that a verified transfer was journaled with is the planned
source's: nothing else would have been accepted. -/
theorem journaled_source {m : Machine σ SshAnswer} {earlier rest : List (Call SshAnswer)}
    {a : ActionId} {proof : RecoveryEvidence} {metadataVerified : Bool}
    (hcalls : m.calls = earlier ++ .journaled (.transferVerified a proof metadataVerified) ::
      rest) :
    ∃ p, .journaled (.planned p) ∈ earlier ∧ p.actionId = a ∧
      proof.sourceSize = some p.preAction.size ∧
      proof.sourceSha256 = p.preAction.sha256 := by
  have hhist := m.journal.histories a
  rw [hcalls, accepted_append, accepted_cons_journaled, historyOf_append] at hhist
  have hself : historyOf (.transferVerified a proof metadataVerified :: accepted rest) a =
      .transferVerified a proof metadataVerified :: historyOf (accepted rest) a := by
    simp [historyOf, eventActionId]
  rw [hself] at hhist
  obtain ⟨-, -, p, hplan, -, -, -, hsize, hsha⟩ := hhist.split.2
  obtain ⟨tail, htail⟩ := plan?_eq_some.mp hplan
  have hmem : .planned p ∈ historyOf (accepted earlier) a := htail ▸ List.mem_cons_self
  exact ⟨p, mem_accepted.mp (List.mem_filter.mp hmem).1, historyOf_actionId hmem, hsize, hsha⟩

theorem sshItem_eq_ok {message : String} {item : InventoryItem} :
    sshItem message plan action = .ok item ↔
      (plan.inventory action).item action.relativePath = some item :=
  orError_eq_ok

theorem recoveryEvidence_eq_some {transfer : SshTransferEvidence} {now : Int64}
    {proof : RecoveryEvidence} (h : transfer.recoveryEvidence now = some proof) :
    proof.sourceSize = transfer.sourceSize ∧
      proof.sourceSha256 = transfer.source.map (·.sha256) := by
  unfold SshTransferEvidence.recoveryEvidence at h
  split at h
  · cases h
  · cases h
    exact ⟨rfl, rfl⟩

theorem matchesInventory_facts {evidence : SshTransferEvidence} {item : InventoryItem}
    {requirements : MetadataRequirements}
    (h : evidence.matchesInventory item requirements = true) :
    evidence.metadataVerified = true ∧ evidence.sourceStabilityVerified = true ∧
      (∃ source destination, evidence.sourceMetadata = some source ∧
        evidence.destinationMetadata = some destination ∧
        source.matchesItem item requirements = true ∧
        destination.matchesOther source requirements = true) ∧
      (item.itemType = .regularFile →
        ∃ content, evidence.source = some content ∧ evidence.destination = some content) := by
  unfold SshTransferEvidence.matchesInventory at h
  split at h
  · cases h
  next hflags =>
  simp only [Bool.not_eq_true, Bool.or_eq_false_iff, Bool.not_eq_false'] at hflags
  split at h
  next source destination hsource hdestination =>
    split at h
    · cases h
    next hmeta =>
    simp only [Bool.not_eq_true, Bool.or_eq_false_iff, Bool.not_eq_false'] at hmeta
    refine ⟨hflags.1, hflags.2, ⟨source, destination, hsource, hdestination, hmeta⟩,
      fun hregular => ?_⟩
    rw [if_neg (by simpa using hregular)] at h
    split at h
    next hash content content' hhash hcontent hcontent' =>
      simp only [Bool.and_eq_true, decide_eq_true_eq] at h
      refine ⟨content, hcontent, hcontent'.trans (congrArg some ?_)⟩
      obtain ⟨-, hsize, hsha⟩ := h
      cases content
      cases content'
      simp_all
    · cases h
  · cases h

theorem matchesRequest_facts {evidence : SshTransferEvidence}
    (h : evidence.matchesRequest request = true) :
    (∃ path, evidence.sourcePath = some path ∧
      path.same (request.sourcePeer.root.join request.action.relativePath) = true) ∧
    ∃ path, evidence.destinationPath = some path ∧
      path.same request.destination = true := by
  unfold SshTransferEvidence.matchesRequest at h
  rw [Bool.and_eq_true] at h
  obtain ⟨hsource, hdestination⟩ := h
  cases hs : evidence.sourcePath <;> rw [hs] at hsource <;>
    cases hd : evidence.destinationPath <;> rw [hd] at hdestination <;> simp_all

/-- What the checks of the driver and the journal together show of evidence
that a removal goes on with. -/
theorem evidenceProved {m : Machine σ SshAnswer} {item : InventoryItem}
    {transfer : SshTransferEvidence} {now : Int64} {proof : RecoveryEvidence}
    {earlier r : List (Call SshAnswer)}
    (hplanned : request.action ∈ run.confirmed.plan.actions)
    (hitem : sshSourceItem run.confirmed.plan request.action = .ok item)
    (hverified : verified run.confirmed.plan request item transfer = true)
    (hproof : transfer.recoveryEvidence now = some proof)
    (hsteps : AtEach (SshStep run) earlier)
    (hcalls : m.calls = earlier ++
      .journaled (.transferVerified request.action.actionId proof true) :: r) :
    EvidenceProved run.confirmed.plan request transfer item := by
  obtain ⟨hrequest, hinventory⟩ := Bool.and_eq_true_iff.mp hverified
  obtain ⟨-, hstable, hmetadata, hcontent⟩ := matchesInventory_facts hinventory
  obtain ⟨hsource, hdestination⟩ := matchesRequest_facts hrequest
  have hfrozen := sshItem_eq_ok.mp hitem
  obtain ⟨p, hp, hid, hsize, hsha⟩ := journaled_source hcalls
  obtain ⟨hsize', hsha'⟩ := recoveryEvidence_eq_some hproof
  -- the planned event was recorded from this very action and its item
  obtain ⟨before, after, rfl⟩ := List.append_of_mem hp
  obtain ⟨action, haction, hrecord⟩ := hsteps before _ after rfl
  obtain ⟨item', hitem', hp'⟩ := bind_eq_ok.mp hrecord
  cases hp'
  obtain rfl := run.confirmed.plan.eq_of_actionId haction hplanned hid
  obtain rfl := Option.some.inj ((sshItem_eq_ok.mp hitem').symm.trans hfrozen)
  exact {
    frozen := hfrozen
    sourcePath := hsource
    destinationPath := hdestination
    stable := hstable
    metadata := hmetadata
    sourceSize := hsize'.symm.trans hsize
    sourceSha256 := hsha'.symm.trans hsha
    content := hcontent }

/-- Plain calls keep the steps of a trace and an action under way. -/
theorem keeps_plain (calls : List (Call SshAnswer)) (call : Call SshAnswer)
    (hcall : Plain call) (h : AtEach (SshStep run) calls) :
    AtEach (SshStep run) (calls ++ [call]) :=
  atEach_snoc.mpr ⟨h, hcall.step⟩

theorem StartedIn.snoc {a : ActionId} {calls : List (Call SshAnswer)}
    (h : StartedIn a calls) (call : Call SshAnswer) : StartedIn a (calls ++ [call]) := by
  obtain ⟨earlier, middle, rfl⟩ := h
  exact ⟨earlier, middle ++ [call], by simp⟩

theorem journalVerified_calls {evidence : SshTransferEvidence} {missing : String}
    {c : List (Call SshAnswer)} (hc : AtEach (SshStep run) c) :
    Triple (fun m => m.calls = c) (journalVerified backend action evidence missing)
      (fun proof m => (∃ now, evidence.recoveryEvidence now = some proof) ∧
        m.calls = c ++ [.journaled
          (.transferVerified action.actionId proof evidence.metadataVerified)])
      fun _ m => AtEach (SshStep run) m.calls := by
  refine (inquire_calls.weaken (fun _ h => h) (fun _ _ h => h) nofun).bind fun now => ?_
  cases hproof : evidence.recoveryEvidence now with
  | none =>
    exact (recordJournalFailure_keeps keeps_plain offers_review).weaken
      (fun m hm => hm ▸ hc) (fun _ _ h => h.elim) fun _ _ h => h
  | some proof =>
    refine (journalOrReview_calls keeps_plain
      (fun _ => keeps_plain c (.rejected _ _) trivial hc) offers_review).bind fun _ => ?_
    exact .pure fun m hm => ⟨⟨now, hproof⟩, hm⟩

/-- Whatever the backend answered, what follows is plain or the completion
that the answer was accepted for. -/
theorem settleRecovery_steps {evidence : SshTransferEvidence}
    {result : Except SshRunError RecoveryEvidence} {c : List (Call SshAnswer)}
    (hc : AtEach (SshStep run) (c ++ [.answered (.recovered request evidence result)])) :
    Triple (fun m => m.calls = c ++ [.answered (.recovered request evidence result)])
      (settleRecovery backend request evidence result)
      (fun _ m => AtEach (SshStep run) m.calls)
      fun _ m => AtEach (SshStep run) m.calls := by
  have hfailure : ∀ error, Triple
      (fun m => m.calls = c ++ [.answered (.recovered request evidence result)])
      (recordSshFailure backend request.action error)
      (fun _ m => AtEach (SshStep run) m.calls) fun _ m => AtEach (SshStep run) m.calls :=
    fun error => (adds_recordSshFailure.keeps keeps_plain).pre fun m hm => hm ▸ hc
  cases result with
  | error error => exact hfailure error
  | ok recovery =>
    refine .ite (fun hvalid => ?_) fun _ => hfailure _
    refine (journalOrReview_calls keeps_plain
      (fun _ => keeps_plain _ (.rejected _ _) trivial hc) offers_review).bind fun _ => ?_
    refine .pure fun m hm => ?_
    rw [hm]
    exact atEach_snoc.mpr ⟨hc, c, request, evidence, rfl, rfl, rfl, hvalid⟩

/-- **The critical section.** -/
theorem removeVerified_steps {item : InventoryItem} {evidence : SshTransferEvidence}
    (hplanned : request.action ∈ run.confirmed.plan.actions)
    (hissued : ∃ remotePeer, request = run.request request.action remotePeer)
    (hitem : sshSourceItem run.confirmed.plan request.action = .ok item)
    (hverified : verified run.confirmed.plan request item evidence = true)
    {c : List (Call SshAnswer)} (hc : AtEach (SshStep run) c)
    (hstarted : StartedIn request.action.actionId c) :
    Triple (fun m => m.calls = c) (removeVerified backend request evidence)
      (fun _ m => AtEach (SshStep run) m.calls)
      fun _ m => AtEach (SshStep run) m.calls := by
  have hmetadata : evidence.metadataVerified = true :=
    (matchesInventory_facts (Bool.and_eq_true_iff.mp hverified).2).1
  refine (journalVerified_calls hc).bind fun proof => .of_pre fun ⟨now, hproof⟩ => ?_
  rw [hmetadata]
  have hverifiedStep := keeps_plain c
    (.journaled (.transferVerified request.action.actionId proof true)) trivial hc
  refine .ite (fun _ => ?_) fun hmethod => .ite (fun _ => ?_) fun _ => ?_
  · exact ((Adds.journal ⟨trivial, fun _ => trivial⟩).bind fun _ => .pure).keeps keeps_plain
      |>.pre fun m hm => hm ▸ hverifiedStep
  · exact (adds_recordSshFailure.keeps keeps_plain).pre fun m hm => hm ▸ hverifiedStep
  rw [not_not] at hmethod
  refine (journalOrReview_calls keeps_plain
    (fun _ => keeps_plain _ (.rejected _ _) trivial hverifiedStep) offers_review).bind
    fun _ => ?_
  have hboundaryStep := keeps_plain _
    (.journaled (.proofBoundary request.action.actionId .trash proof true)) trivial
    hverifiedStep
  refine (ask_calls.weaken (fun _ h => h) (fun _ _ h => h) nofun).bind fun cancel => ?_
  have hpolledStep := keeps_plain _ (.answered (.polledAtBoundary cancel)) trivial
    hboundaryStep
  refine .ite (fun _ => ?_) fun hcancel => ?_
  · exact ((Adds.journal ⟨trivial, fun _ => trivial⟩).bind fun _ => .pure).keeps keeps_plain
      |>.pre fun m hm => hm ▸ hpolledStep
  rw [Bool.not_eq_true] at hcancel
  subst hcancel
  refine (journal_calls fun _ => keeps_plain _ (.rejected _ _) trivial hpolledStep).bind
    fun _ => ?_
  have hremovalStep := keeps_plain _
    (.journaled (.removalStarted request.action.actionId .trash)) trivial hpolledStep
  refine (ask_calls.weaken (fun _ h => h) (fun _ _ h => h) nofun).bind fun result => ?_
  intro m hm
  refine settleRecovery_steps (atEach_snoc.mpr ⟨hremovalStep, ?_⟩) m hm
  exact {
    planned := hplanned
    issued := hissued
    frozenMethod := by
      obtain ⟨remotePeer, hrequest⟩ := hissued
      rw [hrequest] at hmethod
      exact congrArg (Option.map encodeDeletionMethod) hmethod
    boundaries := ⟨now, proof, c, hproof, hstarted, by simp [removalBoundaries]⟩
    evidence := ⟨item, evidenceProved hplanned hitem hverified hproof hc
      (r := [.journaled (.proofBoundary request.action.actionId .trash proof true),
        .answered (.polledAtBoundary false),
        .journaled (.removalStarted request.action.actionId .trash),
        .answered (.recovered request evidence result)]) (by rw [hm]; simp)⟩ }

/-! ## The run -/

/-- The steps of the trace so far, with the action under way. -/
def UnderWay (run : SshRun) (a : ActionId) (calls : List (Call SshAnswer)) : Prop :=
  AtEach (SshStep run) calls ∧ StartedIn a calls

theorem UnderWay.plain {a : ActionId} (calls : List (Call SshAnswer))
    (call : Call SshAnswer) (hcall : Plain call) (h : UnderWay run a calls) :
    UnderWay run a (calls ++ [call]) :=
  ⟨keeps_plain calls call hcall h.1, h.2.snoc call⟩

theorem sshRemove_steps {transfers : PathMap SshTransferEvidence}
    (hplanned : request.action ∈ run.confirmed.plan.actions)
    (hissued : ∃ remotePeer, request = run.request request.action remotePeer) :
    Triple (fun m => UnderWay run request.action.actionId m.calls)
      (sshRemove backend run.confirmed.plan request transfers)
      (fun _ m => AtEach (SshStep run) m.calls)
      fun _ m => AtEach (SshStep run) m.calls := by
  refine ((adds_sshTransferFor.keeps UnderWay.plain).weaken (fun _ h => h) (fun _ _ h => h)
    fun _ _ h => h.1).bind fun result => ?_
  cases result with
  | error error =>
    exact ((adds_recordTransferFailure.bind fun _ => .pure).keeps keeps_plain).pre
      fun m hm => hm.1
  | ok evidence =>
    refine Triple.bind (Q := fun item m =>
      sshSourceItem run.confirmed.plan request.action = .ok item ∧
        UnderWay run request.action.actionId m.calls)
      (.ofExcept (fun item h m hm => ⟨h, hm⟩) fun _ _ m hm => hm.1) fun item =>
        .of_pre fun hitem => ?_
    refine .ite (fun hverified => ?_) fun _ => ?_
    · refine Triple.bind (.of_value fun c hc =>
        removeVerified_steps hplanned hissued hitem hverified hc.1 hc.2) fun _ => ?_
      exact .pure fun _ hm => hm
    · exact (adds_leaveUnverified.keeps keeps_plain).pre fun m hm => hm.1

theorem executeSshAction_steps {transfers : PathMap SshTransferEvidence}
    (hplanned : action ∈ run.confirmed.plan.actions) :
    Triple (fun m => AtEach (SshStep run) m.calls)
      (executeSshAction backend run action transfers)
      (fun _ m => AtEach (SshStep run) m.calls)
      fun _ m => AtEach (SshStep run) m.calls := by
  refine Triple.bind (Q := fun _ m => UnderWay run action.actionId m.calls) ?_ fun _ => ?_
  · refine .of_value fun c hc => (journal_calls fun _ =>
      keeps_plain c (.rejected _ _) trivial hc).post fun _ m hm => ?_
    rw [hm]
    exact ⟨keeps_plain c _ trivial hc, c, [], rfl⟩
  refine Triple.bind (((Adds.journal ⟨trivial, fun _ => trivial⟩).keeps
    UnderWay.plain).weaken (fun _ h => h) (fun _ _ h => h) fun _ _ h => h.1) fun _ => ?_
  refine .ite (fun _ => ?_) fun _ => ?_
  · exact Triple.pre (Adds.keeps (Adds.bind (Adds.journal ⟨trivial, fun _ => trivial⟩)
      fun _ => .pure) keeps_plain) fun m hm => hm.1
  refine Triple.bind ((Adds.ofExcept.keeps UnderWay.plain).weaken (fun _ h => h)
    (fun _ _ h => h) fun _ _ h => h.1) fun remotePeer => .ite (fun _ => ?_) fun _ => ?_
  · have hissued : ∃ peer, run.request action remotePeer = run.request action peer :=
      ⟨remotePeer, rfl⟩
    exact sshRemove_steps hplanned hissued
  · exact (adds_sshCopy.keeps keeps_plain).pre fun m hm => hm.1

theorem runActions_steps (actions : List PlanAction) (transfers : PathMap SshTransferEvidence)
    (hplanned : ∀ action ∈ actions, action ∈ run.confirmed.plan.actions) :
    Triple (fun m => AtEach (SshStep run) m.calls)
      (runActions backend.toSurroundings (executeSshAction backend run) actions transfers)
      (fun _ m => AtEach (SshStep run) m.calls)
      fun _ m => AtEach (SshStep run) m.calls := by
  have hcancel : ∀ rest, Triple (fun m => AtEach (SshStep run) m.calls)
      (cancelRemaining rest : SshProgram σ Unit) (fun _ m => AtEach (SshStep run) m.calls)
      fun _ m => AtEach (SshStep run) m.calls := fun rest =>
    (Adds.cancelRemaining fun _ => ⟨trivial, fun _ => trivial⟩).keeps keeps_plain
  induction actions generalizing transfers with
  | nil => exact .pure fun _ hm => hm
  | cons action rest ih =>
    refine Triple.bind ((Adds.poll fun _ => trivial).keeps keeps_plain) fun cancel =>
      .ite (fun _ => hcancel _) fun _ => ?_
    refine Triple.bind (executeSshAction_steps (hplanned action (by simp)))
      fun (disposition, transfers) => ?_
    cases disposition with
    | stop => exact hcancel rest
    | «continue» => exact ih transfers fun a ha => hplanned a (by simp [ha])

theorem persistPlan_steps :
    Triple (fun m => AtEach (SshStep run) m.calls)
      (persistPlan (fun action => .ofExcept (sshPlanRecord run.confirmed.plan action))
        run.confirmed.plan.actions : SshProgram σ Unit)
      (fun _ m => AtEach (SshStep run) m.calls)
      fun _ m => AtEach (SshStep run) m.calls := by
  refine .forEach fun action haction => ?_
  refine Triple.bind (Q := fun p m =>
    sshPlanRecord run.confirmed.plan action = .ok p ∧ AtEach (SshStep run) m.calls)
    (.ofExcept (fun _ h _ hm => ⟨h, hm⟩) fun _ _ _ hm => hm) fun p => .of_pre fun hp => ?_
  refine .of_value fun c hc => (journal_calls fun _ =>
    keeps_plain c (.rejected _ _) trivial hc).post fun _ m hm => ?_
  rw [hm]
  exact atEach_snoc.mpr ⟨hc, action, haction, hp⟩

theorem sshRun_steps (backend : SshBackend σ) (run : SshRun) (world : σ) :
    AtEach (SshStep run) (sshRunFrom backend run world).2.calls := by
  have h : Triple (fun m => AtEach (SshStep run) m.calls) (executeSshConfirmed backend run)
      (fun _ m => AtEach (SshStep run) m.calls) fun _ m => AtEach (SshStep run) m.calls := by
    refine .ite (fun _ => .fail fun _ hm => hm) fun _ => ?_
    exact persistPlan_steps.bind fun _ => runActions_steps _ _ fun _ h => h
  have hrun := h (Machine.opened SshAnswer world run.confirmed.frozenMethod) atEach_nil
  unfold sshRunFrom
  revert hrun
  rcases executeSshConfirmed backend run
    (Machine.opened SshAnswer world run.confirmed.frozenMethod) with ⟨e | ⟨⟩, m⟩ <;> exact id

end

/-- **Remote sources are removed on proof.** In every run of the SSH driver
the backend is asked to recover a source only after the boundaries of that
action, with evidence that fits the frozen item; and a removal is journaled
as completed only for recovery evidence that was accepted. -/
theorem recoverSource_on_proof {σ : Type} (backend : SshBackend σ) (run : SshRun)
    (world : σ) :
    (∀ before request transfer result after,
      (sshRunFrom backend run world).2.calls =
        before ++ .answered (.recovered request transfer result) :: after →
      RecoveryProved run before request transfer) ∧
    ∀ before a result after,
      (sshRunFrom backend run world).2.calls =
        before ++ .journaled (.removalCompleted a result) :: after →
      RecoveryAccepted before a result :=
  ⟨fun before _ _ _ after h => sshRun_steps backend run world before _ after h,
    fun before _ _ after h => sshRun_steps backend run world before _ after h⟩

/-! ### A symbolic link

The destination the backend answers with is not the link that was copied:
its metadata fits, its size and content do not. -/

def linkMetadata (size : UInt64) : ItemMetadata where
  size
  modifiedAt := none
  readonly := false
  permissions := none
  symlinkTarget := some ⟨[98]⟩

def linkItem : InventoryItem where
  relativePath := ⟨[97]⟩
  itemType := .symlink
  metadata := linkMetadata 4
  outcome := .included
  contentFingerprint := none

def linkAction : PlanAction where
  actionId := 1
  relativePath := ⟨[97]⟩
  kind := .removeSourceAfterVerification
  sourceSide := .peerA
  size := none

def linkPlan : OneWayPlan where
  mode := .oneWay
  options := {
    SyncOptions.default with
    safeDelete := true
    deletionMethod := some .trash
    retryPolicy := ⟨1, .fromMillis 100⟩
    checked := by decide }
  sourceInventory := ⟨[linkItem]⟩
  destinationInventory := ⟨[]⟩
  actions := [linkAction]
  numbered := by decide
  bounded := by decide
  covered := by decide

def linkPeer : SshPeer where
  server := "host"
  username := "sync"
  port := 22
  identity := none
  authentication := .agent
  remotePath := ⟨[47, 114]⟩
  access := by decide
  remote := ⟨"/r", by decide, by decide, by decide⟩

def linkRun : SshRun where
  runId := ⟨1⟩
  confirmed := {
    plan := linkPlan
    profile := .new "Links" ⟨"Server", .ssh linkPeer⟩ ⟨"Laptop", .local ⟨[47, 108]⟩⟩ }
  allowUnattendedPermanentRemoval := false
  requireRecovery := true
  trashLocation := some ⟨[47, 116]⟩

def linkEvidence : SshTransferEvidence where
  sourcePath := some ⟨[47, 114, 47, 97]⟩
  destinationPath := some ⟨[47, 108, 47, 97]⟩
  sourceMetadata := some ⟨.symlink, linkMetadata 4⟩
  destinationMetadata := some ⟨.symlink, linkMetadata 4⟩
  sourceIdentity := none
  source := none
  destination := some ⟨9, sampleHash⟩
  metadataVerified := true
  sourceStabilityVerified := true

def linkBackend : SshBackend Unit where
  shouldCancel _ := (false, ())
  sleepInterruptibly _ := (true, ())
  currentUnixNanos _ := (1, ())
  observePaths _ _ := ((⟨true, none⟩, ⟨true, none⟩), ())
  transfer _ _ := (([], .ok linkEvidence), ())
  recoverSource _ _ _ := (.error .remoteRecoveryUnavailable, ())

theorem recoverSource_of_other_content :
    ¬ ∀ (backend : SshBackend Unit) run before request transfer result after,
      (sshRunFrom backend run ()).2.calls =
        before ++ .answered (.recovered request transfer result) :: after →
      transfer.destinationSize = transfer.sourceSize ∧
        transfer.destination.map (·.sha256) = transfer.source.map (·.sha256) := by
  intro hall
  have hmem : .answered (.recovered (linkRun.request linkAction linkPeer)
      linkEvidence (.error .remoteRecoveryUnavailable)) ∈
        (sshRunFrom linkBackend linkRun ()).2.calls := by
    decide +kernel
  obtain ⟨before, after, heq⟩ := List.append_of_mem hmem
  exact absurd (hall linkBackend linkRun before _ _ _ after heq).1 (by decide)

end SyncPlus
