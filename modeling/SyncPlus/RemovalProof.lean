import SyncPlus.JournalExact

/-!
# Removals and their proof

Safe Delete removes a source only behind a chain of boundaries: the
verified transfer, the proof boundary, the start of the removal and its
result. The chain is read off a completed history from its end: the
result names the phase before it, that phase names the event that set
it, and so on back to the plan (`removalChain`).

What the chain ties together is the source with the plan, at the
verified transfer, and the destination of the result with the
destination of the proof boundary. Nothing ties the two ends to each
other, so whether a completed removal proves equal content is up to the
evidence of its proof boundary (`ProofChain.contentProved_iff`).
-/

namespace SyncPlus

/-! ## Reading a phase back -/

theorem eventPhase_cases {e : JournalEvent} :
    (eventPhase e = "removal_started" → ∃ a m, e = .removalStarted a m) ∧
      (eventPhase e = "proof_boundary" →
        ∃ a m evidence verified, e = .proofBoundary a m evidence verified) ∧
      (eventPhase e = "transfer_verified" →
        ∃ a evidence verified, e = .transferVerified a evidence verified) ∧
      (eventPhase e = "started" → ∃ a, e = .started a) ∧
      (eventPhase e = "progress" → ∃ a bytes, e = .progress a bytes) := by
  cases e <;> simp [eventPhase]

section

variable {method : Option String} {hs : List JournalEvent}

/-- A history that has reached a phase ends in an event of that phase,
which what came before it admits. -/
theorem History.ends (h : History method hs) {phases : List String}
    (hafter : After hs phases) :
    ∃ init e, hs = init ++ [e] ∧ eventPhase e ∈ phases ∧ History method init ∧
      Admits method init e := by
  obtain ⟨init, e, rfl, he⟩ := hafter.last
  obtain ⟨hinit, hadm⟩ := h.last
  exact ⟨init, e, rfl, he, hinit, hadm⟩

/-- The events of a history that are not progress. -/
def milestones (hs : List JournalEvent) : List JournalEvent :=
  hs.filter fun e => !isProgress e

@[simp] theorem milestones_snoc {e : JournalEvent} :
    milestones (hs ++ [e]) = milestones hs ++ if isProgress e then [] else [e] := by
  cases h : isProgress e <;> simp [milestones, h]

/-- A started action has its plan and its start, and progress besides. -/
theorem History.milestones_started (h : History method hs)
    (hafter : After hs ["started", "progress"]) :
    ∃ plan a, plan? hs = some plan ∧ milestones hs = [.planned plan, .started a] := by
  induction h with
  | nil => exact absurd hafter not_after_nil
  | @snoc hs e h hadm ih =>
      have he := after_snoc.mp hafter
      simp only [List.mem_cons, List.not_mem_nil, or_false] at he
      rcases he with he | he
      · obtain ⟨a, rfl⟩ := eventPhase_cases.2.2.2.1 he
        obtain ⟨init, d, rfl, hd, -, hadm'⟩ := h.ends hadm
        obtain ⟨plan, rfl⟩ := eventPhase_eq_planned.mp (List.mem_singleton.mp hd)
        obtain rfl : init = [] := hadm'
        exact ⟨plan, a, rfl, rfl⟩
      · obtain ⟨a, bytes, rfl⟩ := eventPhase_cases.2.2.2.2 he
        obtain ⟨plan, b, hplan, hm⟩ := ih hadm
        exact ⟨plan, b, plan?_snoc hplan, by simp [hm, isProgress]⟩

/-- An action under way has no outcome yet. -/
theorem History.outcome_started (h : History method hs)
    (hafter : After hs ["started", "progress"]) :
    latest? outcomeOf hs = some .inProgress := by
  induction h with
  | nil => exact absurd hafter not_after_nil
  | @snoc hs e h hadm ih =>
      have he := after_snoc.mp hafter
      simp only [List.mem_cons, List.not_mem_nil, or_false] at he
      rcases he with he | he
      · obtain ⟨a, rfl⟩ := eventPhase_cases.2.2.2.1 he
        obtain ⟨init, d, rfl, hd, -⟩ := h.ends hadm
        obtain ⟨plan, rfl⟩ := eventPhase_eq_planned.mp (List.mem_singleton.mp hd)
        rw [latest?_snoc, latest?_snoc]
        rfl
      · obtain ⟨a, bytes, rfl⟩ := eventPhase_cases.2.2.2.2 he
        rw [latest?_snoc, ih hadm]
        rfl

end

/-! ## The chain -/

/-- **The proof chain of a completed removal.** Apart from progress the
history is these six events and no others. -/
def ProofChain (method : Option String) (plan : PlanRecord)
    (hs : List JournalEvent) : Prop :=
  ∃ transfer proof removal m,
    milestones hs =
      [.planned plan, .started plan.actionId,
        .transferVerified plan.actionId transfer true,
        .proofBoundary plan.actionId m proof true,
        .removalStarted plan.actionId m,
        .removalCompleted plan.actionId { deletionMethod := m, evidence := removal }] ∧
      method = some (encodeDeletionMethod m) ∧
      transfer.sourceSize = some plan.preAction.size ∧
      transfer.sourceSha256 = plan.preAction.sha256 ∧
      removal.sourcePresent = false ∧ removal.destinationPresent = true ∧
      removal.destinationSize = proof.destinationSize ∧
      removal.destinationSha256 = proof.destinationSha256

section

variable {method : Option String} {hs : List JournalEvent} {plan : PlanRecord}

theorem Planned.apply {P : PlanRecord → Prop} {e : JournalEvent} (h : Planned hs P)
    (hplan : plan? (hs ++ [e]) = some plan) : plan? hs = some plan ∧ P plan := by
  obtain ⟨p, hp, hP⟩ := h
  obtain rfl := Option.some.inj ((plan?_snoc hp).symm.trans hplan)
  exact ⟨hp, hP⟩

/-- No generic result completes a removal. -/
theorem Admits.not_generic {e : JournalEvent} (h : Admits method hs e)
    (hplan : plan? (hs ++ [e]) = some plan)
    (hop : plan.operation = .removeSourceAfterVerification) :
    (∀ a, e ≠ .completed a) ∧ ∀ a evidence, e ≠ .recoveryResolved a (.completed evidence) := by
  constructor
  · rintro a rfl
    exact (h.2.apply hplan).2 hop
  · rintro a evidence rfl
    exact (h.2.1.apply hplan).2 hop

/-- A removal whose outcome is completed ends in its removal result. -/
theorem History.completed_ends (h : History method hs) (hplan : plan? hs = some plan)
    (hop : plan.operation = .removeSourceAfterVerification)
    (hout : latest? outcomeOf hs = some .completed) :
    ∃ init a result, hs = init ++ [.removalCompleted a result] := by
  cases h with
  | nil => cases hplan
  | @snoc hs e h hadm =>
      have hgeneric := hadm.not_generic hplan hop
      cases e with
      | removalCompleted a result => exact ⟨hs, a, result, rfl⟩
      | completed a => exact absurd rfl (hgeneric.1 a)
      | recoveryResolved a resolution =>
          cases resolution with
          | completed evidence => exact absurd rfl (hgeneric.2 a evidence)
          | unresolved reason => simp [outcomeOf] at hout
      | started a =>
          rw [(h.snoc hadm).outcome_started (after_snoc.mpr (by simp [eventPhase]))] at hout
          cases hout
      | progress a bytes =>
          rw [(h.snoc hadm).outcome_started (after_snoc.mpr (by simp [eventPhase]))] at hout
          cases hout
      | _ => simp [outcomeOf] at hout

/-- All events of the history are the plan's own. -/
def Own (plan : PlanRecord) (hs : List JournalEvent) : Prop :=
  ∀ e ∈ hs, eventActionId e = plan.actionId

theorem Own.snoc {e : JournalEvent} (h : Own plan (hs ++ [e])) :
    Own plan hs ∧ eventActionId e = plan.actionId :=
  ⟨fun d hd => h d (by simp [hd]), h e (by simp)⟩

/-- The chain up to the verified transfer. -/
theorem History.verified (h : History method hs) (hplan : plan? hs = some plan)
    (hown : Own plan hs) (hafter : After hs ["transfer_verified"]) :
    ∃ transfer,
      milestones hs = [.planned plan, .started plan.actionId,
        .transferVerified plan.actionId transfer true] ∧
      transfer.sourceSize = some plan.preAction.size ∧
      transfer.sourceSha256 = plan.preAction.sha256 := by
  obtain ⟨init, e, rfl, he, hh, hadm⟩ := h.ends hafter
  obtain ⟨a, transfer, verified, rfl⟩ :=
    eventPhase_cases.2.2.1 (List.mem_singleton.mp he)
  obtain ⟨rfl, hstarted, hsuits⟩ := hadm
  obtain ⟨hinit, -, -, -, hsize, hsha⟩ := hsuits.apply hplan
  obtain ⟨hown', rfl⟩ := hown.snoc
  obtain ⟨p, b, hp, hm⟩ := hh.milestones_started hstarted
  obtain rfl := Option.some.inj (hp.symm.trans hinit)
  have hb : eventActionId (.started b) = p.actionId := by
    have hmem : JournalEvent.started b ∈ milestones init := by simp [hm]
    exact hown' _ (List.mem_filter.mp hmem).1
  obtain rfl : b = p.actionId := hb
  exact ⟨transfer, by simp [hm, isProgress], hsize, hsha⟩

/-- The chain up to the proof boundary. -/
theorem History.proved (h : History method hs) (hplan : plan? hs = some plan)
    (hown : Own plan hs) (hafter : After hs ["proof_boundary"]) :
    ∃ transfer proof m,
      milestones hs = [.planned plan, .started plan.actionId,
        .transferVerified plan.actionId transfer true,
        .proofBoundary plan.actionId m proof true] ∧
      latest? proofOf hs = some proof ∧ method = some (encodeDeletionMethod m) ∧
      transfer.sourceSize = some plan.preAction.size ∧
      transfer.sourceSha256 = plan.preAction.sha256 := by
  obtain ⟨init, e, rfl, he, hh, hadm⟩ := h.ends hafter
  obtain ⟨a, m, proof, verified, rfl⟩ := eventPhase_cases.2.1 (List.mem_singleton.mp he)
  obtain ⟨rfl, hverified, hsuits⟩ := hadm
  obtain ⟨hinit, ⟨-, hmethod⟩, -⟩ := hsuits.apply hplan
  obtain ⟨hown', rfl⟩ := hown.snoc
  obtain ⟨transfer, hm, hsource⟩ := hh.verified hinit hown' hverified
  exact ⟨transfer, proof, m, by simp [hm, isProgress], by simp [proofOf], hmethod,
    hsource⟩

/-- **The chain of a removal**, read back from its result. -/
theorem History.removalChain {a : ActionId} {result : RemovalResult}
    (h : History method (hs ++ [.removalCompleted a result]))
    (hplan : plan? (hs ++ [.removalCompleted a result]) = some plan)
    (hown : Own plan (hs ++ [.removalCompleted a result])) :
    ProofChain method plan (hs ++ [.removalCompleted a result]) := by
  obtain ⟨hh, hafter, hsuits, hsource, hdestination, -, -, boundary, hboundary, -, hsize,
    hsha⟩ := h.last
  obtain ⟨hbefore, ⟨-, hmethod⟩, -⟩ := hsuits.apply hplan
  obtain ⟨hown', rfl⟩ := hown.snoc
  -- The removal was started by the method of its result.
  obtain ⟨init, e, rfl, he, hinit, hadm⟩ := hh.ends hafter
  obtain ⟨b, m, rfl⟩ := eventPhase_cases.1 (List.mem_singleton.mp he)
  obtain ⟨hproved, hsuits'⟩ := hadm
  obtain ⟨hplanned, -, hm⟩ := hsuits'.apply hbefore
  obtain ⟨hown'', rfl⟩ := hown'.snoc
  obtain ⟨transfer, proof, m', hchain, hproof, hm', hsrcSize, hsrcSha⟩ :=
    hinit.proved hplanned hown'' hproved
  obtain rfl := encodeDeletionMethod_inj (Option.some.inj (hm.symm.trans hmethod))
  obtain rfl := encodeDeletionMethod_inj (Option.some.inj (hm'.symm.trans hmethod))
  -- The stored proof is the one of the boundary.
  rw [latest?_snoc, hproof] at hboundary
  obtain rfl : proof = boundary := by simpa [proofOf] using hboundary
  exact ⟨transfer, proof, result.evidence, result.deletionMethod,
    by rw [milestones_snoc, milestones_snoc, hchain]; rfl, hmethod, hsrcSize, hsrcSha, hsource,
    hdestination, hsize, hsha⟩

end

/-! ## Every removal the journal completes -/

section

variable {method : Option String} {run : RunJournal} {acc : List JournalEvent}

/-- A removal that the journal reports completed. -/
structure CompletedRemoval (run : RunJournal) (entry : ActionJournalEntry) : Prop where
  reported : ∃ entries, run.loadJournal = .ok entries ∧ entry ∈ entries
  removes : entry.plan.operation = .removeSourceAfterVerification
  completed : entry.outcome = .completed

theorem JournalInv.removalChain (h : JournalInv method run acc)
    {entry : ActionJournalEntry} (hentry : CompletedRemoval run entry) :
    ProofChain method entry.plan (historyOf acc entry.plan.actionId) := by
  obtain ⟨entries, hload, hmem⟩ := hentry.reported
  obtain ⟨hplan, hout⟩ := h.loaded hload hmem
  have hhs := h.histories entry.plan.actionId
  have hlatest : latest? outcomeOf (historyOf acc entry.plan.actionId) =
      some .completed := by
    rw [hentry.completed] at hout
    cases hl : latest? outcomeOf (historyOf acc entry.plan.actionId) with
    | none => simp [hl] at hout
    | some outcome => simpa [hl, eq_comm] using hout
  obtain ⟨init, a, result, hend⟩ := hhs.completed_ends hplan hentry.removes hlatest
  have hown : Own entry.plan (historyOf acc entry.plan.actionId) :=
    fun e he => historyOf_actionId he
  rw [hend] at hhs hplan hown ⊢
  exact hhs.removalChain hplan hown

/-- The results that complete an action without saying how. -/
def isGenericCompletion : JournalEvent → Bool
  | .completed _ => true
  | .recoveryResolved _ (.completed _) => true
  | _ => false

theorem Admits.generic {hs : List JournalEvent} {e : JournalEvent}
    (h : Admits method hs e) (he : isGenericCompletion e = true) :
    Planned hs fun plan => plan.operation ≠ .removeSourceAfterVerification := by
  cases e with
  | completed a => exact h.2
  | recoveryResolved a resolution =>
      cases resolution with
      | completed evidence => exact h.2.1
      | unresolved reason => cases he
  | _ => cases he

/-- The plan accepted for an action is the plan of its history. -/
theorem JournalInv.plan?_accepted (h : JournalInv method run acc) {plan : PlanRecord}
    (hmem : .planned plan ∈ acc) : plan? (historyOf acc plan.actionId) = some plan := by
  have hin : JournalEvent.planned plan ∈
      (historyOf acc plan.actionId).filter fun e => eventPhase e = "planned" := by
    simp [historyOf, hmem, eventActionId, eventPhase]
  rw [(h.histories _).filter_planned] at hin
  simpa using hin

end

/-- **No removal without its proof chain.** A removal that the journal
reports completed has its six boundaries, and no generic result can
complete it at any point. -/
theorem removal_has_proof_chain (method : Option String) (events : List JournalEvent) :
    (∀ entry, CompletedRemoval (RunJournal.offers method events).1 entry →
      ProofChain method entry.plan
        (historyOf (RunJournal.offers method events).2 entry.plan.actionId)) ∧
    (∀ plan, .planned plan ∈ (RunJournal.offers method events).2 →
      plan.operation = .removeSourceAfterVerification →
      ∀ e, isGenericCompletion e = true → eventActionId e = plan.actionId →
        e ∉ (RunJournal.offers method events).2 ∧
          ∃ error, (RunJournal.offers method events).1.appendEvent e = .error error) := by
  have h := offers_journalInv method events
  refine ⟨fun entry hentry => h.removalChain hentry, ?_⟩
  intro plan hmem hop e he hid
  have hplan := h.plan?_accepted hmem
  have refused : ∀ init tail, historyOf (RunJournal.offers method events).2
      plan.actionId = init ++ tail → ¬ Admits method init e := by
    intro init tail heq hadm
    obtain ⟨p, hp, hne⟩ := hadm.generic he
    obtain ⟨rest, rfl⟩ := plan?_eq_some.mp hp
    rw [heq] at hplan
    exact hne (Option.some.inj hplan ▸ hop)
  constructor
  · intro hacc
    have hin : e ∈ historyOf (RunJournal.offers method events).2 plan.actionId := by
      simp [historyOf, hacc, hid]
    obtain ⟨init, tail, heq⟩ := List.append_of_mem hin
    have hhs := h.histories plan.actionId
    rw [heq] at hhs
    exact refused init _ heq hhs.split.2
  · cases happ : (RunJournal.offers method events).1.appendEvent e with
    | error error => exact ⟨error, rfl⟩
    | ok run' =>
        have hadm := (h.append happ).1.admits
        rw [hid] at hadm
        exact absurd hadm (refused _ [] (by simp))

/-! ## What the chain proves of the content -/

theorem latest?_milestones {α : Type} {f : JournalEvent → Option α}
    (hf : ∀ e, isProgress e = true → f e = none) (hs : List JournalEvent) :
    latest? f (milestones hs) = latest? f hs := by
  induction hs using List.reverseRecOn with
  | nil => rfl
  | append_singleton hs e ih =>
      cases he : isProgress e with
      | true => simp [he, ih, hf e he]
      | false => simp [he, ih]

theorem isProgress_eq_true {e : JournalEvent} :
    isProgress e = true ↔ ∃ a bytes, e = .progress a bytes := by
  cases e <;> simp [isProgress]

/-- The destination that the history's proof boundary and removal result
record is the planned source. -/
def ContentProved (plan : PlanRecord) (hs : List JournalEvent) : Prop :=
  ∃ proof result, latest? proofOf hs = some proof ∧ latest? removalOf hs = some result ∧
    proof.destinationSize = some plan.preAction.size ∧
    proof.destinationSha256 = plan.preAction.sha256 ∧
    result.evidence.destinationSize = some plan.preAction.size ∧
    result.evidence.destinationSha256 = plan.preAction.sha256

/-- The proof boundary was offered with the size and hash of the verified
source as those of its destination. -/
def BoundaryTied (hs : List JournalEvent) : Prop :=
  ∀ transfer ∈ latest? transferOf hs, ∀ proof ∈ latest? proofOf hs,
    proof.destinationSize = transfer.sourceSize ∧
      proof.destinationSha256 = transfer.sourceSha256

theorem ProofChain.contentProved_iff {method : Option String} {plan : PlanRecord}
    {hs : List JournalEvent} (h : ProofChain method plan hs) :
    ContentProved plan hs ↔ BoundaryTied hs := by
  obtain ⟨transfer, proof, removal, m, hchain, -, hsize, hsha, -, -, hdstSize, hdstSha⟩ :=
    h
  have read : ∀ {α : Type} {f : JournalEvent → Option α},
      (∀ a bytes, f (.progress a bytes) = none) → latest? f hs = latest? f (milestones hs) := by
    intro α f hf
    refine (latest?_milestones (fun e he => ?_) hs).symm
    obtain ⟨a, bytes, rfl⟩ := isProgress_eq_true.mp he
    exact hf a bytes
  have htransfer : latest? transferOf hs = some transfer := by
    rw [read fun _ _ => rfl, hchain]; rfl
  have hproof : latest? proofOf hs = some proof := by
    rw [read fun _ _ => rfl, hchain]; rfl
  have hresult : latest? removalOf hs =
      some { deletionMethod := m, evidence := removal } := by
    rw [read fun _ _ => rfl, hchain]; rfl
  simp only [ContentProved, BoundaryTied, htransfer, hproof, hresult, Option.some.injEq,
    Option.mem_def, exists_eq_left', forall_eq', exists_and_left, hsize, hsha]
  constructor
  · rintro ⟨hs, hh, -⟩
    exact ⟨hs, hh⟩
  · rintro ⟨hs, hh⟩
    exact ⟨hs, hh, hdstSize.trans hs, hdstSha.trans hh⟩

/-- **A completed removal proves equal content exactly when its proof
boundary was tied to the verified source**, for a regular file as for any
other item. -/
theorem removal_content_proved_iff (method : Option String)
    (events : List JournalEvent) (entry : ActionJournalEntry)
    (hentry : CompletedRemoval (RunJournal.offers method events).1 entry) :
    ContentProved entry.plan
        (historyOf (RunJournal.offers method events).2 entry.plan.actionId) ↔
      BoundaryTied
        (historyOf (RunJournal.offers method events).2 entry.plan.actionId) :=
  ((offers_journalInv method events).removalChain hentry).contentProved_iff

/-! ### Removals of a file of five bytes -/

/-- The journal of the removal, with a destination of the given size. -/
def removalEvents (size : UInt64) : List JournalEvent :=
  [.planned samplePlan, .started 1,
    .transferVerified 1 { sampleTransfer with destinationSize := some size } true,
    .proofBoundary 1 .permanentRemoval
      { sampleTransfer with destinationSize := some size } true,
    .removalStarted 1 .permanentRemoval,
    .removalCompleted 1
      { deletionMethod := .permanentRemoval
        evidence := RecoveryEvidence.new 20 none false true false none (some size) none
          (some sampleHash) }]

def removalEntry (size : UInt64) : ActionJournalEntry :=
  let proof := { sampleTransfer with destinationSize := some size }
  { plan := samplePlan
    lastPhase := "removal_completed"
    started := true
    progressBytes := []
    outcome := .completed
    transferEvidence := some proof
    proofBoundary := some proof
    removalResult := some
      { deletionMethod := .permanentRemoval
        evidence := RecoveryEvidence.new 20 none false true false none (some size) none
          (some sampleHash) }
    recoveryEvidence := none
    recoveryResolutionEvidence := none }

theorem removalEvents_completed (size : UInt64) (h : size = 5 ∨ size = 6) :
    CompletedRemoval
      (RunJournal.offers (some "permanent_removal") (removalEvents size)).1
      (removalEntry size) := by
  refine ⟨⟨[removalEntry size], ?_, by simp⟩, rfl, rfl⟩
  rcases h with rfl | rfl <;> decide +kernel

/-- The removal of the file has its chain. -/
theorem removalEvents_chain :
    ProofChain (some "permanent_removal") samplePlan
      (historyOf (RunJournal.offers (some "permanent_removal") (removalEvents 5)).2 1) :=
  (removal_has_proof_chain _ _).1 (removalEntry 5) (removalEvents_completed 5 (.inl rfl))

/-- With a copy of five bytes the content is proved. -/
theorem removalEvents_proved :
    ContentProved samplePlan
      (historyOf (RunJournal.offers (some "permanent_removal") (removalEvents 5)).2 1) :=
  (removal_content_proved_iff _ _ (removalEntry 5)
    (removalEvents_completed 5 (.inl rfl))).mpr (by
      have h : (RunJournal.offers (some "permanent_removal") (removalEvents 5)).2 =
          removalEvents 5 := by decide +kernel
      rw [h]
      intro transfer ht proof hp
      obtain rfl := Option.some.inj ht
      obtain rfl := Option.some.inj hp
      exact ⟨rfl, rfl⟩)

/-- A destination of six bytes completes the removal of the five. -/
theorem removalEvents_not_proved :
    ¬ ∀ method events entry,
      CompletedRemoval (RunJournal.offers method events).1 entry →
      entry.plan.regular = true →
      ContentProved entry.plan
        (historyOf (RunJournal.offers method events).2 entry.plan.actionId) := by
  intro h
  obtain ⟨proof, result, hproof, -, hsize, -⟩ := h (some "permanent_removal")
    (removalEvents 6) (removalEntry 6) (removalEvents_completed 6 (.inr rfl)) rfl
  have hevents : (RunJournal.offers (some "permanent_removal") (removalEvents 6)).2 =
      removalEvents 6 := by decide +kernel
  rw [hevents] at hproof
  obtain rfl := Option.some.inj hproof
  cases hsize

end SyncPlus
