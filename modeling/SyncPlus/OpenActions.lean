import SyncPlus.ActionOrder
import SyncPlus.JournalExact
import SyncPlus.Machine
import SyncPlus.RunPaths
import SyncPlus.RunReport

/-!
# What a stopped run leaves open

A run that stops in the middle leaves actions in progress. A resume reads the report of the run
and asks whether a new run may begin. Then it journals for each of the actions that it was
interrupted, or a review where a transfer had been verified, looks at the report again, and goes
on only when nothing is under review.

The report is replayed from the rows, so what it has of an action in progress is read off the
replay: the evidence of a transfer exactly where one was verified, and no proof of a removal
(`JournalInv.openItem`).
-/

namespace SyncPlus

/-! ## The classification -/

/-- What a resume asks while it classifies, and the texts of its errors. -/
structure ResumeProbe (σ : Type) where
  isDir : σ → Directories × σ
  observeContent : σ → (PathBuf → Observation) × σ
  currentUnixNanos : σ → Int64 × σ
  text : ProcessSpecError → String

/-- A resume over SSH, or of a run between two local peers. -/
inductive Resume (σ : Type) where
  | ssh
  | peers (probe : ResumeProbe σ) (profile : SyncProfile)

/-- What a resume journals of an action in progress. -/
def resumeEvent (actionId : ActionId) : Option RecoveryEvidence → JournalEvent
  | some evidence => .recoveryReview actionId .interruptedBoundary evidence
  | none => .interrupted actionId

section

variable {σ χ : Type}

/-- What the review of an action shows, where it has come to a boundary. -/
def Resume.evidence (resume : Resume σ) (item : ActionJournalEntry) :
    Program (Machine σ χ) WorkflowError (Option RecoveryEvidence) :=
  match resume with
  | .ssh => return item.transferEvidence
  | .peers probe profile =>
      if item.transferEvidence.isSome = true ∨ item.proofBoundary.isSome = true then do
        let observeContent ← inquire probe.observeContent
        let now ← inquire probe.currentUnixNanos
        return some (observeJournalBoundary now observeContent profile item.plan)
      else return none

def Resume.classifyAction (resume : Resume σ) (item : ActionJournalEntry) :
    Program (Machine σ χ) WorkflowError Unit :=
  if item.outcome = .inProgress then do
    let evidence ← resume.evidence item
    journal (resumeEvent item.plan.actionId evidence)
  else return ()

def classifySshOpenActions (items : List ActionJournalEntry) :
    Program (Machine σ χ) WorkflowError Unit :=
  .forEach (Resume.ssh.classifyAction) items

def classifyOpenActions (probe : ResumeProbe σ) (profile : SyncProfile)
    (items : List ActionJournalEntry) : Program (Machine σ χ) WorkflowError Unit := do
  let isDir ← inquire probe.isDir
  let _ ← .ofExcept ((ProcessSpecification.fromProfile isDir profile).mapError fun error =>
    .invalidRun (probe.text error))
  .forEach (Resume.peers probe profile).classifyAction items

def Resume.classify : Resume σ → List ActionJournalEntry →
    Program (Machine σ χ) WorkflowError Unit
  | .ssh, items => classifySshOpenActions items
  | .peers probe profile, items => classifyOpenActions probe profile items

def Resume.notIncomplete : Resume σ → String
  | .ssh => "only an incomplete SSH run can be resumed"
  | .peers _ _ =>
      "only an incomplete, cancelled, interrupted, or review-needed run can be resumed"

def Resume.unresolved : Resume σ → String
  | .ssh => "Recovery Review must be explicitly resolved before an SSH run can resume"
  | .peers _ _ => "Recovery Review must be explicitly resolved before a new run can resume"

/-- `RunEvidenceStore::load_report`. The journal of the run is that of the machine; `row` is
everything else that the store has of it. -/
def loadReport (row : RunRow) : Program (Machine σ χ) WorkflowError RunReport := do
  let report ← .step fun m => (RunRow.loadReport { row with journal := m.run }, m)
  .ofExcept (report.mapError .storage)

/-! A resume asks between its two looks at the report whether the new run may begin. What it
asks for moves the world, and may leave a blocked run behind under the identifier of the new run.
Of the stopped run nothing is changed. -/

/-- What `resume_ssh` asks for: the new identifier, the lock of both peers, and whether the
profile has a peer over SSH that the permits are of. -/
structure SshGates (σ : Type) where
  nextRunId : Program σ StorageError RunId
  acquireSshScope : RunId → Program σ WorkflowError Unit
  sshPeerForProfile : Except WorkflowError Unit
  remoteRequest : Except String Unit
  validateSshPermits : Except WorkflowError Unit

/-- Why a precheck gives no lease, and `is_replacement_only` of its blockers. -/
structure LeaseRefusal where
  error : WorkflowError
  replacementOnly : Bool

/-- What `resume_with_replacement_confirmation` asks for: the new identifier, the precheck with
the recorded volumes and its lock, first with other volumes refused. -/
structure PeerGates (σ : Type) where
  nextRunId : Program σ StorageError RunId
  acquirePrecheck : RunId → (allowReplacement : Bool) → Program σ LeaseRefusal Unit
  authorizeReplacement : Program σ WorkflowError Bool
  persistBlocked : RunId → Program σ WorkflowError Unit

/-- A resume as it is called. -/
inductive ResumeCall (σ : Type) where
  | ssh (gates : SshGates σ)
  | peers (gates : PeerGates σ) (probe : ResumeProbe σ) (profile : SyncProfile)

def ResumeCall.resume : ResumeCall σ → Resume σ
  | .ssh _ => .ssh
  | .peers _ probe profile => .peers probe profile

def SshGates.pass (gates : SshGates σ) : Program σ WorkflowError Unit := do
  let nextRunId ← gates.nextRunId.mapError .storage
  gates.acquireSshScope nextRunId
  .ofExcept gates.sshPeerForProfile
  .ofExcept (gates.remoteRequest.mapError .invalidRun)
  .ofExcept gates.validateSshPermits

/-- A run that gets no lease is stored as blocked. -/
def PeerGates.block (gates : PeerGates σ) (nextRunId : RunId) (refusal : LeaseRefusal) :
    Program σ WorkflowError Unit := do
  gates.persistBlocked nextRunId
  .fail refusal.error

def PeerGates.pass (gates : PeerGates σ) : Program σ WorkflowError Unit := do
  let nextRunId ← gates.nextRunId.mapError .storage
  match ← (gates.acquirePrecheck nextRunId false).attempt with
  | .ok () => return ()
  | .error refusal =>
      let authorized ←
        if refusal.replacementOnly = true then gates.authorizeReplacement else pure false
      if authorized = true then
        match ← (gates.acquirePrecheck nextRunId true).attempt with
        | .ok () => return ()
        | .error refusal => gates.block nextRunId refusal
      else gates.block nextRunId refusal

def ResumeCall.gates : ResumeCall σ → Program σ WorkflowError Unit
  | .ssh gates => gates.pass
  | .peers gates _ _ => gates.pass

/-- What a resume does before it analyses the peers again. -/
def ResumeCall.reopen (call : ResumeCall σ) (row : RunRow) :
    Program (Machine σ χ) WorkflowError RunReport := do
  let report ← loadReport row
  if report.status = .completed ∨ report.status = .reviewCleared then
    .fail (.invalidRun call.resume.notIncomplete)
  else if report.status = .recoveryReview then .fail (.invalidRun call.resume.unresolved)
  else
    let passed ← inquire call.gates
    .ofExcept passed
    call.resume.classify report.items
    let reopened ← loadReport row
    if reopened.status = .recoveryReview then .fail (.invalidRun call.resume.unresolved)
    else return reopened

/-- **The machines that resumes of a stopped run come to.** Each step is one action of a report
that was read at any point of the recovery; in between the world may change. So resumes may be
cut short anywhere, and may go by a report that others have overtaken. -/
inductive ResumeReaches (m : Machine σ χ) : Machine σ χ → Prop where
  | refl : ResumeReaches m m
  | elsewhere {now : Machine σ χ} (world : σ) :
      ResumeReaches m now → ResumeReaches m { now with world }
  | classified {read now : Machine σ χ} {items : List ActionJournalEntry}
      {item : ActionJournalEntry} (resume : Resume σ) : ResumeReaches m read →
      read.run.loadJournal = .ok items → item ∈ items → ResumeReaches m now →
      ResumeReaches m (resume.classifyAction item now).2

end

/-! ## Actions in progress -/

/-- The history has come to a phase in which its action is in progress. -/
def InProgress (hs : List JournalEvent) : Prop :=
  After hs ["planned", "started", "progress", "transfer_verified"]

section

variable {method : Option String} {hs : List JournalEvent}

theorem inProgress_iff :
    InProgress hs ↔
      After hs ["planned", "started", "progress"] ∨ After hs ["transfer_verified"] := by
  simp [InProgress, After, or_assoc]

theorem outcomeOf_inProgress {e : JournalEvent}
    (h : eventPhase e ∈ ["planned", "started", "progress", "transfer_verified"]) :
    outcomeOf e = none ∨ outcomeOf e = some .inProgress := by
  cases e <;> simp_all [eventPhase, outcomeOf]

/-- **The outcome of a history says whether its action is in progress.** -/
theorem History.outcome_inProgress (hh : History method hs) (hne : hs ≠ []) :
    (latest? outcomeOf hs).getD .inProgress = .inProgress ↔ InProgress hs := by
  constructor
  · intro h
    obtain ⟨init, e, rfl⟩ := (List.eq_nil_or_concat' hs).resolve_left hne
    rw [latest?_snoc] at h
    refine after_snoc.mpr ?_
    cases e with
    | recoveryResolved a resolution => cases resolution <;> simp [outcomeOf] at h
    | _ => simp_all [outcomeOf, eventPhase]
  · rintro ⟨ph, hmem, hph⟩
    have hall (e : JournalEvent) (he : e ∈ hs) :
        outcomeOf e = none ∨ outcomeOf e = some .inProgress := by
      refine outcomeOf_inProgress ?_
      have hsoFar := hh.mem_soFar hph e he
      revert hsoFar
      revert ph
      simp [soFar]
      tauto
    unfold latest?
    cases hlast : (hs.filterMap outcomeOf).getLast? with
    | none => rfl
    | some outcome =>
        obtain ⟨e, he, heq⟩ := List.mem_filterMap.mp (List.mem_of_getLast? hlast)
        rcases hall e he with h | h
        · rw [h] at heq
          cases heq
        · exact (Option.some.inj (heq.symm.trans h))

end

/-! ## What a report tells of an open action -/

/-- The file identity of a provenance is one that the columns keep. -/
def FitsProvenance (evidence : RecoveryEvidence) : Prop :=
  ∀ p ∈ evidence.provenance, IdentityFits p.sourceIdentity

section

variable {method : Option String} {e : JournalEvent} {entry entry' : ActionJournalEntry}

/-- Only its own event sets the evidence of a transfer, or of a proof. -/
theorem replayBoundary_leaves (h : replayBoundary entry (storedOf e) method = .ok entry') :
    (transferOf e = none → entry'.transferEvidence = entry.transferEvidence) ∧
      (proofOf e = none → entry'.proofBoundary = entry.proofBoundary) := by
  unfold replayBoundary at h
  rw [storedOf_phase] at h
  cases e with
  | planned _ => simp [eventPhase] at h
  | transferVerified a evidence verified =>
      simp only [eventPhase, replayTransferVerified, bind_eq_ok] at h
      obtain ⟨_, -, decoded, -, _, -, h⟩ := h
      obtain rfl := Except.ok.inj h
      exact ⟨fun h => absurd h (Option.some_ne_none evidence), fun _ => rfl⟩
  | proofBoundary a m evidence verified =>
      simp only [eventPhase, replayProofBoundary, bind_eq_ok] at h
      obtain ⟨_, -, _, -, _, -, _, -, _, -, decoded, -, _, -, _, -, _, -, _, -, h⟩ := h
      obtain rfl := Except.ok.inj h
      exact ⟨fun _ => rfl, fun h => absurd h (Option.some_ne_none evidence)⟩
  | removalStarted a m =>
      simp only [eventPhase, replayRemovalStarted, bind_eq_ok] at h
      obtain ⟨_, -, _, -, _, -, h⟩ := h
      obtain rfl := Except.ok.inj h
      exact ⟨fun _ => rfl, fun _ => rfl⟩
  | removalCompleted a result =>
      simp only [eventPhase, replayRemovalCompleted, bind_eq_ok] at h
      obtain ⟨_, -, decoded, -, m, -, _, -, _, -, _, -, h⟩ := h
      obtain rfl := Except.ok.inj h
      exact ⟨fun _ => rfl, fun _ => rfl⟩
  | recoveryReview a reason evidence =>
      simp only [eventPhase, bind_eq_ok] at h
      obtain ⟨_, -, _, -, _, -, h⟩ := h
      obtain rfl := Except.ok.inj h
      exact ⟨fun _ => rfl, fun _ => rfl⟩
  | recoveryResolved a resolution =>
      simp only [eventPhase, replayRecoveryResolved] at h
      obtain ⟨_, -, decoded, -, h⟩ := by simpa only [bind_eq_ok] using h
      cases decoded with
      | completed evidence =>
          simp only [bind_eq_ok] at h
          obtain ⟨_, -, _, -, h⟩ := h
          obtain rfl := Except.ok.inj h
          exact ⟨fun _ => rfl, fun _ => rfl⟩
      | unresolved reason =>
          obtain rfl := Except.ok.inj h
          exact ⟨fun _ => rfl, fun _ => rfl⟩
  | progress _ _ | completed _ =>
      simp only [eventPhase, bind_eq_ok] at h
      obtain ⟨_, -, h⟩ := h
      obtain rfl := Except.ok.inj h
      exact ⟨fun _ => rfl, fun _ => rfl⟩
  | failed _ _ | unresolved _ _ =>
      simp only [eventPhase, bind_eq_ok] at h
      obtain ⟨_, -, _, -, h⟩ := h
      obtain rfl := Except.ok.inj h
      exact ⟨fun _ => rfl, fun _ => rfl⟩
  | _ =>
      simp only [eventPhase] at h
      obtain rfl := Except.ok.inj h
      exact ⟨fun _ => rfl, fun _ => rfl⟩

end

section

variable {method : Option String} {hs : List JournalEvent}
  {entry : ActionJournalEntry} {evidence : RecoveryEvidence}

/-- The same for a whole history. -/
theorem replayOne_leaves
    (h : replayOne (replayEntry method) none (hs.map storedOf) = .ok (some entry)) :
    ((∀ e ∈ hs, transferOf e = none) → entry.transferEvidence = none) ∧
      ((∀ e ∈ hs, proofOf e = none) → entry.proofBoundary = none) := by
  induction hs using List.reverseRecOn generalizing entry with
  | nil => cases h
  | append_singleton hs e ih =>
      rw [List.map_append, replayOne_append] at h
      obtain ⟨before, hbefore, hlast⟩ := bind_eq_ok.mp h
      obtain ⟨_, hstep, hdone⟩ := bind_eq_ok.mp hlast
      obtain rfl := Option.some.inj (Except.ok.inj hdone)
      unfold replayEntry at hstep
      split at hstep
      · simp only [replayPlanned, bind_eq_ok] at hstep
        obtain ⟨_, -, _, -, _, -, _, -, _, -, _, -, _, -, _, -, _, -, _, -, _, -, h⟩ := hstep
        obtain rfl := Except.ok.inj h
        exact ⟨fun _ => rfl, fun _ => rfl⟩
      · obtain ⟨entry₀, hentry₀, hstep⟩ := bind_eq_ok.mp hstep
        obtain ⟨_, -, hstep⟩ := bind_eq_ok.mp hstep
        obtain ⟨replayed, hreplayed, hstep⟩ := bind_eq_ok.mp hstep
        obtain rfl := Except.ok.inj hstep
        obtain rfl := orError_eq_ok.mp hentry₀
        obtain ⟨htransfer, hproof⟩ := replayBoundary_leaves hreplayed
        obtain ⟨ihtransfer, ihproof⟩ := ih hbefore
        refine ⟨fun hnone => ?_, fun hnone => ?_⟩
        · exact (htransfer (hnone e (by simp))).trans
            (ihtransfer fun d hd => hnone d (by simp [hd]))
        · exact (hproof (hnone e (by simp))).trans (ihproof fun d hd => hnone d (by simp [hd]))

/-- A transfer that was verified is found decoded. -/
theorem replayOne_transfer {e : JournalEvent} (he : e ∈ hs) (hhead : plan? hs ≠ none)
    (htransfer : transferOf e = some evidence)
    (h : replayOne (replayEntry method) none (hs.map storedOf) = .ok (some entry)) :
    ∃ decoded, decodeRecoveryEvidence (storedOf e) = .ok decoded ∧
      entry.transferEvidence = some decoded := by
  obtain ⟨a, verified, rfl⟩ : ∃ a verified, e = .transferVerified a evidence verified := by
    cases e <;> simp_all [transferOf]
  obtain ⟨init, tail, rfl⟩ := List.append_of_mem he
  rw [List.map_append, replayOne_append] at h
  obtain ⟨before, hbefore, hafter⟩ := bind_eq_ok.mp h
  obtain ⟨entry', hstep, hrest⟩ := bind_eq_ok.mp hafter
  cases before with
  | none =>
      cases init with
      | nil => exact absurd rfl hhead
      | cons d init =>
          exact absurd ((replayOne_isSome hbefore).mpr (by simp)) (by simp)
  | some entry₀ =>
      obtain ⟨decoded, hdecode, hslot, -⟩ := (replayEntry_fills hstep).2.evidence evidence rfl
      obtain ⟨_, hlast, hext⟩ := replayOne_extends hrest
      obtain rfl := Option.some.inj hlast
      exact ⟨decoded, hdecode, hext.slots (.transferVerified a evidence verified) decoded hslot⟩

end

theorem fromRecordWithDetails_sourceIdentity {actionId : Option ActionId} {peer : String}
    {root relative : PathBuf} {runId : RunId} {removedAt : Int64} {method : DeletionMethod}
    {state : RecoveryVerificationState} {itemType : ItemType} {content : Option ContentProof}
    {identity : Option FileIdentity} {target : Option PathBuf} {p : RecoveryProvenance}
    (h : RecoveryProvenance.fromRecordWithDetails actionId peer root relative runId removedAt
      method state itemType content identity target = .ok p) : p.sourceIdentity = identity := by
  unfold RecoveryProvenance.fromRecordWithDetails at h
  split at h
  · split at h
    · split at h
      · cases h
        rfl
      · cases h
    · cases h
  · cases h

theorem decodeRecoveryProof_provenance {evidence evidence' : RecoveryEvidence}
    {size : Option UInt64} {sha256 : Option Blob}
    (h : decodeRecoveryProof evidence size sha256 = .ok evidence') :
    evidence'.provenance = evidence.provenance := by
  unfold decodeRecoveryProof at h
  split at h
  · obtain ⟨_, -, rfl⟩ := map_eq_ok.mp h
    rfl
  · cases h
  · cases h
    rfl

theorem decodeIdentity_self {message : String} (identity : Option FileIdentity) :
    decodeIdentity message (identity.map (·.device)) (identity.map (·.inode)) = .ok identity := by
  cases identity <;> rfl

/-- Decoding invents no file identity. -/
theorem fitsProvenance_decoded {e : JournalEvent} {evidence decoded : RecoveryEvidence}
    (h : evidenceOf e = some evidence) (hfits : FitsProvenance evidence)
    (hdecode : decodeRecoveryEvidence (storedOf e) = .ok decoded) : FitsProvenance decoded := by
  have hc := carries_storedOf h
  simp only [decodeRecoveryEvidence, bind_eq_ok] at hdecode
  obtain ⟨_, -, _, -, _, -, _, -, _, -, _, -, proved, hproved, provenance, hprovenance, hdone⟩ :=
    hdecode
  have hnone : proved.provenance = none := decodeRecoveryProof_provenance hproved
  cases provenance with
  | none =>
      obtain rfl := Except.ok.inj hdone
      simp [FitsProvenance, hnone]
  | some p =>
      obtain rfl := Except.ok.inj hdone
      rintro q hq
      obtain rfl : p = q := Option.some.inj hq
      unfold decodeRecoveryProvenance at hprovenance
      split at hprovenance
      · simp only [bind_eq_ok] at hprovenance
        obtain ⟨_, -, _, -, _, -, _, -, _, -, _, -, _, -, identity, hidentity, _, -, _, -, _, -,
          _, -, hrecord⟩ := hprovenance
        split at hrecord
        · rename_i record hrecord'
          obtain rfl := Option.some.inj (Except.ok.inj hrecord)
          rw [fromRecordWithDetails_sourceIdentity hrecord']
          have hbound : decodeIdentity "recovery provenance identity is incomplete"
              (evidence.provenance.bind (·.sourceIdentity.map (·.device)))
              (evidence.provenance.bind (·.sourceIdentity.map (·.inode))) =
                .ok (evidence.provenance.bind (·.sourceIdentity)) := by
            cases evidence.provenance with
            | none => rfl
            | some own => exact decodeIdentity_self own.sourceIdentity
          rw [hc.device, hc.inode] at hidentity
          obtain rfl := Except.ok.inj (hbound.symm.trans hidentity)
          intro i hi
          obtain ⟨own, hown, hi⟩ := Option.bind_eq_some_iff.mp hi
          exact hfits own hown i hi
        · cases hrecord
      · cases hprovenance

section

variable {method : Option String} {acc : List JournalEvent} {run : RunJournal}
  {entry : ActionJournalEntry} {items : List ActionJournalEntry}

theorem Accepted.of_mem {e : JournalEvent} (h : Accepted method acc) (he : e ∈ acc) :
    FitsI64 (eventActionId e) ∧ Binds e := by
  obtain ⟨init, tail, rfl⟩ := List.append_of_mem he
  exact ⟨h.accepts.actionId, h.accepts.binds⟩

/-- The entries of a report are those of the histories. -/
theorem JournalInv.entries (h : JournalInv method run acc) (hload : run.loadJournal = .ok items) :
    (items.map (·.plan.actionId)).Nodup ∧ ∀ entry ∈ items,
      replayOne (replayEntry method) none ((historyOf acc entry.plan.actionId).map storedOf) =
        .ok (some entry) := by
  obtain ⟨entries, -, rfl, hreplay⟩ := h.read hload
  have hkey : ∀ pair ∈ entries.toList, entries[pair.1]? = some pair.2 ∧
      pair.2.plan.actionId = pair.1 := by
    rintro ⟨a, entry⟩ hpair
    have hget := Std.ExtTreeMap.mem_toList_iff_getElem?_eq_some.mp hpair
    refine ⟨hget, ?_⟩
    have hplan := (replayOne_outcome (h.histories a) ((hreplay a).trans (by rw [hget]))).1
    obtain ⟨tail, htail⟩ := plan?_eq_some.mp hplan
    exact historyOf_actionId (htail ▸ List.mem_cons_self)
  constructor
  · have hkeys : (intoValues entries).map (·.plan.actionId) = entries.keys := by
      rw [intoValues, List.map_map, ← Std.ExtTreeMap.map_fst_toList_eq_keys]
      exact List.map_congr_left fun pair hpair => (hkey pair hpair).2
    rw [hkeys]
    exact entries.nodup_keys
  · intro entry hmem
    obtain ⟨pair, hpair, rfl⟩ := List.mem_map.mp hmem
    rw [(hkey pair hpair).2, hreplay, (hkey pair hpair).1]

/-- **What a report tells of an action in progress**: that no boundary of it is journaled, or
the evidence of its transfer. -/
theorem JournalInv.openItem (h : JournalInv method run acc) (hacc : Accepted method acc)
    (hload : run.loadJournal = .ok items) (hmem : entry ∈ items)
    (hopen : entry.outcome = .inProgress) :
    (After (historyOf acc entry.plan.actionId) ["planned", "started", "progress"] ∧
      entry.transferEvidence = none ∧ entry.proofBoundary = none) ∨
    (After (historyOf acc entry.plan.actionId) ["transfer_verified"] ∧
      ∃ evidence, entry.transferEvidence = some evidence ∧ FitsProvenance evidence) := by
  have hreplay := (h.entries hload).2 entry hmem
  obtain ⟨hplan, houtcome⟩ := h.loaded hload hmem
  have hh := h.histories entry.plan.actionId
  have hprogress : InProgress (historyOf acc entry.plan.actionId) :=
    (hh.outcome_inProgress (plan?_ne_nil hplan)).mp (houtcome ▸ hopen)
  rcases inProgress_iff.mp hprogress with hafter | hafter
  · refine .inl ⟨hafter, (replayOne_leaves hreplay).1 fun e he => ?_,
      (replayOne_leaves hreplay).2 fun e he => ?_⟩
    all_goals
      obtain ⟨ph, hmem, hph⟩ := hafter
      have hsoFar := hh.mem_soFar hph e he
      simp only [List.mem_cons, List.not_mem_nil, or_false] at hmem
      rcases hmem with rfl | rfl | rfl <;> cases e <;>
        simp_all [soFar, eventPhase, transferOf, proofOf]
  · refine .inr ⟨hafter, ?_⟩
    obtain ⟨init, e, heq, he⟩ := hafter.last
    obtain ⟨evidence, hevidence⟩ := Option.isSome_iff_exists.mp
      ((transferOf_isSome e).mpr (List.mem_singleton.mp he))
    have hlast : e ∈ historyOf acc entry.plan.actionId := by simp [heq]
    obtain ⟨decoded, hdecode, htransfer⟩ :=
      replayOne_transfer hlast (by simp [hplan]) hevidence hreplay
    have hevent : evidenceOf e = some evidence := by
      cases e <;> simp_all [transferOf, evidenceOf]
    refine ⟨decoded, htransfer, fitsProvenance_decoded hevent ?_ hdecode⟩
    exact (hacc.of_mem (List.mem_filter.mp hlast).1).2.2 evidence hevent

end

end SyncPlus
