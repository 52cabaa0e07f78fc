import SyncPlus.OpenActions
import SyncPlus.RemovedOnProof
import SyncPlus.ReviewCleared
import SyncPlus.RunsEnd

/-!
# Resumed runs

A resume may stop in the middle as well, and one that has read the report earlier may come in
between: what it still offers then is for the journal to refuse. So however often a run is
resumed, and in whatever order the resumes get to its actions, each history gains at most the
one event that its own phase asks for, and the first resume that is left alone gains it for
every action in progress. Whether it goes on, where the new run may begin, was decided when the
run stopped: by whether an action had passed a boundary by then (`drivers_resumed`).
-/

namespace SyncPlus

/-! ## What a recovery may add -/

/-- What an action in progress is settled with: an interruption before its first boundary, a
review after its transfer was verified. -/
inductive Recovers (hs : List JournalEvent) : JournalEvent → Prop where
  | interrupted {a : ActionId} : After hs ["planned", "started", "progress"] →
      Recovers hs (.interrupted a)
  | review {a : ActionId} {evidence : RecoveryEvidence} : After hs ["transfer_verified"] →
      Recovers hs (.recoveryReview a .interruptedBoundary evidence)

/-- The history as it was, or with that event. -/
def Resumed (hs hs' : List JournalEvent) : Prop :=
  hs' = hs ∨ ∃ e, Recovers hs e ∧ hs' = hs ++ [e]

/-- The history with that event, where its action was in progress. -/
def Classified (hs hs' : List JournalEvent) : Prop :=
  (InProgress hs → ∃ e, Recovers hs e ∧ hs' = hs ++ [e]) ∧ (¬ InProgress hs → hs' = hs)

section

variable {method : Option String} {hs hs' : List JournalEvent} {d e : JournalEvent}

theorem Recovers.inProgress (h : Recovers hs e) : InProgress hs := by
  cases h with
  | interrupted h => exact inProgress_iff.mpr (.inl h)
  | review h => exact inProgress_iff.mpr (.inr h)

theorem Recovers.ne_nil (h : Recovers hs e) : hs ≠ [] := by
  rintro rfl
  exact not_after_nil h.inProgress

/-- What has settled an action is not followed by anything that would. -/
theorem Recovers.phase (h : Recovers hs e) :
    eventPhase e = "interrupted" ∨ eventPhase e = "recovery_review" := by
  cases h with
  | interrupted _ => exact .inl rfl
  | review _ => exact .inr rfl

theorem Recovers.not_inProgress (h : Recovers hs e) : ¬ InProgress (hs ++ [e]) := by
  unfold InProgress
  rw [after_snoc]
  rcases h.phase with h | h <;> rw [h] <;> decide

theorem Recovers.not_admits (hd : Recovers hs d) (he : Recovers hs e) :
    ¬ Admits method (hs ++ [d]) e := by
  intro hadm
  cases he with
  | interrupted _ | review _ =>
      have hphase := after_snoc.mp hadm
      rcases hd.phase with h | h <;> rw [h] at hphase <;> revert hphase <;> decide

theorem Recovers.admits (h : Recovers hs e) : Admits method hs e := by
  cases h with
  | interrupted h => exact h
  | review h =>
      obtain ⟨ph, hmem, hph⟩ := h
      exact ⟨ph, List.mem_singleton.mp hmem ▸ by decide, hph⟩

/-- An action that is in progress still is as it was. -/
theorem Resumed.eq_of_inProgress (h : Resumed hs hs') (hopen : InProgress hs') : hs' = hs := by
  rcases h with rfl | ⟨e, he, rfl⟩
  · rfl
  · exact absurd hopen he.not_inProgress

theorem Resumed.classified (h : Resumed hs hs') (hdone : ¬ InProgress hs') :
    Classified hs hs' := by
  rcases h with rfl | ⟨e, he, rfl⟩
  · exact ⟨fun hopen => absurd hopen hdone, fun _ => rfl⟩
  · exact ⟨fun _ => ⟨e, he, rfl⟩, fun hopen => absurd he.inProgress hopen⟩

end

/-! ## Resumes in any order -/

/-- The machine is that of a stopped run and what resumes have added to it. -/
structure Recovering {σ χ : Type} (m now : Machine σ χ) : Prop where
  method : now.run.deletionMethod = m.run.deletionMethod
  acceptable : Accepted m.run.deletionMethod (accepted now.calls)
  plansFirst : PlannedFirst (accepted now.calls)
  histories : ∀ a, Resumed (historyOf (accepted m.calls) a) (historyOf (accepted now.calls) a)

section

variable {σ χ : Type} {m now : Machine σ χ} {event : JournalEvent} {resume : Resume σ}
  {items : List ActionJournalEntry} {item : ActionJournalEntry}

/-- **One event of a recovery.** Whether the journal takes it or not, each history is as it was
or has gained the event that it asks for. -/
theorem Recovering.journal (h : Recovering m now)
    (hevent : Recovers (historyOf (accepted m.calls) (eventActionId event)) event) :
    Recovering m (SyncPlus.journal event now).2 := by
  by_cases haccepts : Accepts now.run.deletionMethod (accepted now.calls) event
  · have hrun := journal_accepted haccepts now ⟨rfl, rfl⟩
    revert hrun
    rcases SyncPlus.journal event now with ⟨error | ⟨⟩, after⟩
    · exact False.elim
    rintro ⟨hcalls, hmethod⟩
    have hgained : accepted after.calls = accepted now.calls ++ [event] := by simp [hcalls]
    refine ⟨hmethod.trans h.method, ?_, ?_, fun a => ?_⟩
    · rw [hgained]
      exact h.acceptable.snoc (h.method ▸ haccepts)
    · rw [hgained]
      refine List.pairwise_append.mpr ⟨h.plansFirst, List.pairwise_singleton _ _, ?_⟩
      intro d _ e he hplanned
      obtain rfl := List.mem_singleton.mp he
      rcases hevent.phase with hphase | hphase <;> rw [hphase] at hplanned <;>
        exact absurd hplanned (by decide)
    · rw [hgained]
      by_cases ha : eventActionId event = a
      · subst ha
        rw [historyOf_snoc_self]
        rcases h.histories (eventActionId event) with heq | ⟨d, hd, heq⟩
        · exact .inr ⟨event, hevent, by rw [heq]⟩
        · exact absurd (heq ▸ haccepts.admits) (hd.not_admits hevent)
      · rw [historyOf_snoc_other ha]
        exact h.histories a
  · have hrun := journal_refused haccepts now ⟨rfl, rfl⟩
    revert hrun
    rcases SyncPlus.journal event now with ⟨error | ⟨⟩, after⟩
    · rintro ⟨refusal, hcalls, hmethod⟩
      have hsame : accepted after.calls = accepted now.calls := by simp [hcalls]
      exact ⟨hmethod.trans h.method, hsame ▸ h.acceptable, hsame ▸ h.plansFirst,
        hsame ▸ h.histories⟩
    · exact False.elim

/-- The journal takes the event that a history asks for and has not gained. -/
theorem Recovering.accepts (h : Recovering m now)
    (hevent : Recovers (historyOf (accepted now.calls) (eventActionId event)) event)
    (hbinds : Binds event) : Accepts now.run.deletionMethod (accepted now.calls) event := by
  have hacc := h.acceptable
  rw [← h.method] at hacc
  refine ⟨?_, hevent.admits, ?_, hbinds⟩
  · obtain ⟨e, he⟩ := List.exists_mem_of_ne_nil _ hevent.ne_nil
    rw [← historyOf_actionId he]
    exact (hacc.of_mem (List.mem_filter.mp he).1).1
  · cases hevent with
    | interrupted _ => trivial
    | review hafter =>
        obtain ⟨ph, hmem, hph⟩ := hafter
        exact (hacc.ordered h.plansFirst) _
          ⟨ph, List.mem_singleton.mp hmem ▸ by decide, hph⟩

/-! ### What a resume offers -/

/-- Of an action without a boundary a resume finds no evidence. -/
theorem Resume.evidence_none (resume : Resume σ) (htransfer : item.transferEvidence = none)
    (hproof : item.proofBoundary = none) : resume.evidence item now = (.ok none, now) := by
  cases resume with
  | ssh => exact congrArg (fun evidence => (Except.ok evidence, now)) htransfer
  | peers probe profile =>
      unfold Resume.evidence
      simp only [htransfer, hproof]
      rfl

/-- Of an action whose transfer was verified it finds evidence that the columns keep. -/
theorem Resume.evidence_some (resume : Resume σ) (now : Machine σ χ)
    {evidence : RecoveryEvidence}
    (htransfer : item.transferEvidence = some evidence) (hfits : FitsProvenance evidence) :
    ∃ world shown, FitsProvenance shown ∧
      resume.evidence item now = (.ok (some shown), { now with world }) := by
  cases resume with
  | ssh =>
      exact ⟨now.world, evidence, hfits,
        congrArg (fun evidence => (Except.ok evidence, now)) htransfer⟩
  | peers probe profile =>
      refine ⟨(probe.currentUnixNanos (probe.observeContent now.world).2).2,
        observeJournalBoundary (probe.currentUnixNanos (probe.observeContent now.world).2).1
          (probe.observeContent now.world).1 profile item.plan, ?_, ?_⟩
      · intro p hp
        cases hp
      · unfold Resume.evidence
        simp only [htransfer, Option.isSome_some, true_or, if_true]
        rfl

end

section

variable {σ χ : Type} {m now read : Machine σ χ} {resume : Resume σ}
  {items : List ActionJournalEntry} {item : ActionJournalEntry}

theorem Resume.classifyAction_closed (h : item.outcome ≠ .inProgress) :
    resume.classifyAction item now = (.ok (), now) := by
  unfold Resume.classifyAction
  rw [if_neg h]
  rfl

/-- **What a resume offers for an action in progress** is what its history asks for, as it was
read. -/
theorem Recovering.classifyAction_open (h : Recovering m read)
    (hload : read.run.loadJournal = .ok items) (hmem : item ∈ items)
    (hopen : item.outcome = .inProgress) (resume : Resume σ) (now : Machine σ χ) :
    ∃ world event, Recovers (historyOf (accepted read.calls) item.plan.actionId) event ∧
      eventActionId event = item.plan.actionId ∧ Binds event ∧
      resume.classifyAction item now = SyncPlus.journal event { now with world } := by
  have hacc := h.acceptable
  rw [← h.method] at hacc
  unfold Resume.classifyAction
  rw [if_pos hopen]
  rcases read.journal.openItem hacc hload hmem hopen with
    ⟨hafter, htransfer, hproof⟩ | ⟨hafter, evidence, htransfer, hfits⟩
  · refine ⟨now.world, .interrupted item.plan.actionId, .interrupted hafter, rfl,
      binds_of_bare rfl rfl, ?_⟩
    change Program.bind _ _ now = _
    unfold Program.bind
    rw [resume.evidence_none htransfer hproof]
    rfl
  · obtain ⟨world, shown, hshown, hevidence⟩ := resume.evidence_some now htransfer hfits
    refine ⟨world, .recoveryReview item.plan.actionId .interruptedBoundary shown,
      .review hafter, rfl, ⟨by simp [plan?], fun found hfound => ?_⟩, ?_⟩
    · obtain rfl := Option.some.inj hfound
      exact hshown
    · change Program.bind _ _ now = _
      unfold Program.bind
      rw [hevidence]
      rfl

theorem Recovering.elsewhere (h : Recovering m now) (world : σ) :
    Recovering m { now with world } :=
  ⟨h.method, h.acceptable, h.plansFirst, h.histories⟩

/-- **One action of a report**, whenever the report was read. -/
theorem Recovering.classifyAction (h : Recovering m now) (hread : Recovering m read)
    (hload : read.run.loadJournal = .ok items) (hmem : item ∈ items) :
    Recovering m (resume.classifyAction item now).2 := by
  by_cases hopen : item.outcome = .inProgress
  · obtain ⟨world, event, hevent, hid, -, heq⟩ :=
      hread.classifyAction_open hload hmem hopen resume now
    rw [heq]
    refine (h.elsewhere world).journal ?_
    have hsame := (hread.histories item.plan.actionId).eq_of_inProgress hevent.inProgress
    rw [hid]
    exact hsame ▸ hevent
  · rw [Resume.classifyAction_closed hopen]
    exact h

/-- **Every recovery**, by induction over its steps. -/
theorem ResumeReaches.recovering (hm : Recovering m m) (h : ResumeReaches m now) :
    Recovering m now := by
  induction h with
  | refl => exact hm
  | elsewhere world _ ih => exact ih.elsewhere world
  | classified resume _ hload hmem _ ihread ih => exact ih.classifyAction ihread hload hmem

/-! ### A resume that is left alone -/

/-- **One action of a report that was just read**: what is offered for it is taken. -/
theorem Recovering.classifyAction_alone (hread : Recovering m read)
    (hload : read.run.loadJournal = .ok items) (hmem : item ∈ items) (resume : Resume σ)
    (h : Recovering m now)
    (hsame : historyOf (accepted now.calls) item.plan.actionId =
      historyOf (accepted read.calls) item.plan.actionId) :
    ∃ next, resume.classifyAction item now = (.ok (), next) ∧ Recovering m next ∧
      (∀ a, a ≠ item.plan.actionId →
        historyOf (accepted next.calls) a = historyOf (accepted now.calls) a) ∧
      ¬ InProgress (historyOf (accepted next.calls) item.plan.actionId) := by
  by_cases hopen : item.outcome = .inProgress
  · have hkept : Recovering m (resume.classifyAction item now).2 :=
      h.classifyAction hread hload hmem
    obtain ⟨world, event, hevent, hid, hbinds, heq⟩ :=
      hread.classifyAction_open hload hmem hopen resume now
    rw [← hsame, ← hid] at hevent
    have haccepts := (h.elsewhere world).accepts hevent hbinds
    have hrun := journal_accepted haccepts { now with world } ⟨rfl, rfl⟩
    rw [heq] at hkept ⊢
    revert hkept hrun
    rcases SyncPlus.journal event { now with world } with ⟨error | ⟨⟩, next⟩
    · exact fun _ hfalse => hfalse.elim
    rintro hkept ⟨hcalls, -⟩
    have hgained : accepted next.calls = accepted now.calls ++ [event] := by simp [hcalls]
    refine ⟨next, rfl, hkept, fun a ha => ?_, ?_⟩
    · rw [hgained, historyOf_snoc_other (hid ▸ ha.symm)]
    · rw [hgained, ← hid, historyOf_snoc_self]
      exact hevent.not_inProgress
  · refine ⟨now, Resume.classifyAction_closed hopen, h, fun _ _ => rfl, ?_⟩
    obtain ⟨hplan, houtcome⟩ := read.journal.loaded hload hmem
    rw [hsame, ← (read.journal.histories _).outcome_inProgress (plan?_ne_nil hplan), ← houtcome]
    exact hopen

/-- **The loop over a report that was just read.** The journal takes every event that it offers,
and afterwards none of its actions is in progress. -/
theorem Recovering.forEach (hread : Recovering m read)
    (hload : read.run.loadJournal = .ok items) (resume : Resume σ)
    {todo : List ActionJournalEntry} (htodo : ∀ item ∈ todo, item ∈ items)
    (hnodup : (todo.map (·.plan.actionId)).Nodup) (h : Recovering m now)
    (hsame : ∀ item ∈ todo, historyOf (accepted now.calls) item.plan.actionId =
      historyOf (accepted read.calls) item.plan.actionId) :
    ∃ after, Program.forEach resume.classifyAction todo now = (.ok (), after) ∧
      Recovering m after ∧
      (∀ a, a ∉ todo.map (·.plan.actionId) →
        historyOf (accepted after.calls) a = historyOf (accepted now.calls) a) ∧
      ∀ item ∈ todo, ¬ InProgress (historyOf (accepted after.calls) item.plan.actionId) := by
  induction todo generalizing now with
  | nil => exact ⟨now, rfl, h, fun _ _ => rfl, fun _ h => absurd h List.not_mem_nil⟩
  | cons item todo ih =>
      obtain ⟨hfresh, hnodup⟩ := List.nodup_cons.mp hnodup
      obtain ⟨next, hstep, hnext, hothers, hdone⟩ := hread.classifyAction_alone hload
        (htodo item List.mem_cons_self) resume h (hsame item List.mem_cons_self)
      have hleft (d : ActionJournalEntry) (hd : d ∈ todo) :
          d.plan.actionId ≠ item.plan.actionId := by
        intro heq
        exact hfresh (List.mem_map.mpr ⟨d, hd, heq⟩)
      obtain ⟨after, hrun, hafter, hkept, hall⟩ := ih
        (fun d hd => htodo d (List.mem_cons_of_mem _ hd)) hnodup hnext fun d hd =>
          (hothers _ (hleft d hd)).trans (hsame d (List.mem_cons_of_mem _ hd))
      refine ⟨after, ?_, hafter, fun a ha => ?_, fun d hd => ?_⟩
      · change Program.bind _ _ now = _
        unfold Program.bind
        rw [hstep]
        exact hrun
      · rw [List.map_cons, List.mem_cons, not_or] at ha
        exact (hkept a ha.2).trans (hothers a ha.1)
      · rcases List.mem_cons.mp hd with rfl | hd
        · rwa [hkept _ hfresh]
        · exact hall d hd

end

section

variable {σ χ : Type} {m now : Machine σ χ} {items : List ActionJournalEntry}

/-- The specification of a local profile can still be made. -/
def Resume.Ready : Resume σ → σ → Prop
  | .ssh, _ => True
  | .peers probe profile, world =>
      ∃ specification, ProcessSpecification.fromProfile (probe.isDir world).1 profile =
        .ok specification

/-- **The classification of a report that was just read** is refused nothing, and leaves no
action in progress. -/
theorem Recovering.classify (h : Recovering m now) (hload : now.run.loadJournal = .ok items)
    (resume : Resume σ) (hready : resume.Ready now.world) :
    ∃ after, resume.classify items now = (.ok (), after) ∧ Recovering m after ∧
      ∀ a, Classified (historyOf (accepted m.calls) a) (historyOf (accepted after.calls) a) := by
  have hdone (s : Machine σ χ) (hs : Recovering m s) (hcalls : s.calls = now.calls) :
      ∃ after, Program.forEach resume.classifyAction items s = (.ok (), after) ∧
        Recovering m after ∧ ∀ a, Classified (historyOf (accepted m.calls) a)
          (historyOf (accepted after.calls) a) := by
    obtain ⟨after, hrun, hafter, hothers, hall⟩ := h.forEach hload resume (fun _ hd => hd)
      (now.journal.entries hload).1 hs fun _ _ => by rw [hcalls]
    refine ⟨after, hrun, hafter, fun a => (hafter.histories a).classified fun hopen => ?_⟩
    by_cases ha : a ∈ items.map (·.plan.actionId)
    · obtain ⟨item, hitem, rfl⟩ := List.mem_map.mp ha
      exact hall item hitem hopen
    · rw [hothers a ha, hcalls] at hopen
      have hne : historyOf (accepted now.calls) a ≠ [] := by
        intro hnil
        rw [hnil] at hopen
        exact not_after_nil hopen
      obtain ⟨entry, hentry, hplan, -⟩ := now.journal.entry_of_history hload hne
      obtain ⟨tail, htail⟩ := plan?_eq_some.mp hplan
      have hid : eventActionId (.planned entry.plan) = a :=
        historyOf_actionId (htail ▸ List.mem_cons_self)
      exact ha (List.mem_map.mpr ⟨entry, hentry, hid⟩)
  cases resume with
  | ssh => exact hdone now h rfl
  | peers probe profile =>
      obtain ⟨specification, hspecification⟩ := hready
      obtain ⟨after, hrun, hafter⟩ :=
        hdone { now with world := (probe.isDir now.world).2 } (h.elsewhere _) rfl
      refine ⟨after, ?_, hafter⟩
      rw [← hrun]
      simp only [Resume.classify, classifyOpenActions, bind, Program.bind, inquire, Program.step]
      rw [hspecification]
      rfl

end

/-! ## The gates of a resume -/

/-- The phases from which on an action is not repeated before it was reviewed. -/
def boundaryPhases : List String :=
  ["transfer_verified", "proof_boundary", "removal_started", "recovery_review"]

section

variable {method : Option String} {hs hs' : List JournalEvent} {e : JournalEvent}

/-- A recovery takes no boundary back and adds none. -/
theorem Resumed.boundary_iff (h : Resumed hs hs') :
    After hs' boundaryPhases ↔ After hs boundaryPhases := by
  rcases h with rfl | ⟨e, he, rfl⟩
  · rfl
  rw [after_snoc]
  cases he with
  | interrupted hafter =>
      obtain ⟨ph, hmem, hph⟩ := hafter
      refine iff_of_false (by simp [boundaryPhases, eventPhase]) ?_
      rintro ⟨ph', hmem', hph'⟩
      obtain rfl := Option.some.inj (hph.symm.trans hph')
      revert hmem hmem'
      simp only [boundaryPhases, List.mem_cons, List.not_mem_nil, or_false]
      rintro (rfl | rfl | rfl) <;> decide
  | review hafter =>
      obtain ⟨ph, hmem, hph⟩ := hafter
      refine iff_of_true (by simp [boundaryPhases, eventPhase])
        ⟨ph, List.mem_singleton.mp hmem ▸ by decide, hph⟩

/-- An action that is not in progress is under review exactly past a boundary. -/
theorem review_iff (hdone : ¬ InProgress hs) :
    ((latest? outcomeOf hs).getD .inProgress).isRecoveryReview = true ↔
      After hs boundaryPhases := by
  rcases List.eq_nil_or_concat' hs with rfl | ⟨init, e, rfl⟩
  · exact iff_of_false (by decide) not_after_nil
  unfold InProgress at hdone
  rw [after_snoc] at hdone ⊢
  rw [latest?_snoc]
  cases e with
  | recoveryResolved a resolution =>
      cases resolution <;>
        simp [outcomeOf, eventPhase, boundaryPhases, ActionOutcome.isRecoveryReview]
  | _ =>
      simp_all [outcomeOf, eventPhase, boundaryPhases, ActionOutcome.isRecoveryReview]

end

section

variable {method : Option String} {acc hs : List JournalEvent} {run : RunJournal}
  {entry : ActionJournalEntry}

/-- A journal whose histories replay can be read. -/
theorem JournalInv.loads (h : JournalInv method run acc) (hnumbers : ∀ e ∈ acc, NumbersFit e)
    (hreplay : ∀ a, ∃ x, replayOne (replayEntry method) none ((historyOf acc a).map storedOf) =
      .ok x) : ∃ items, run.loadJournal = .ok items := by
  choose x hx using hreplay
  have hkeyed : ∀ a, replayOne (replayEntry method)
      (∅ : Std.ExtTreeMap ActionId ActionJournalEntry)[a]?
      (((run.actionEvents.insertionSort rowOrder).map StoredEvent.bits).filter
        fun s => s.actionId = a) = .ok (x a) := by
    intro a
    rw [h.stores.sorted_filter, Std.ExtTreeMap.getElem?_empty]
    exact hx a
  obtain ⟨entries, hentries⟩ := exists_replayKeyed fun a => ⟨_, hkeyed a⟩
  have hrows : (run.actionEvents.insertionSort rowOrder).mapM StoredEvent.ofRow =
      .ok ((run.actionEvents.insertionSort rowOrder).map StoredEvent.bits) :=
    mapM_ofRow_eq_ok.mpr ⟨fun row hrow =>
      h.stores.fits hnumbers row ((List.mem_insertionSort _).mp hrow), rfl⟩
  refine ⟨intoValues entries, ?_⟩
  unfold RunJournal.loadJournal
  rw [bind_ok hrows, h.frozen]
  unfold replayKeyed at hentries
  unfold applyStoredEvent
  rw [bind_ok hentries]
  rfl

/-- A replayed entry has reached the phase of its history. -/
theorem replayOne_phase
    (h : replayOne (replayEntry method) none (hs.map storedOf) = .ok (some entry)) :
    phase? hs = some entry.lastPhase := by
  rcases List.eq_nil_or_concat' hs with rfl | ⟨init, e, rfl⟩
  · cases h
  rw [List.map_append, replayOne_append] at h
  obtain ⟨before, -, hlast⟩ := bind_eq_ok.mp h
  obtain ⟨_, hstep, hdone⟩ := bind_eq_ok.mp hlast
  obtain rfl := Option.some.inj (Except.ok.inj hdone)
  rw [phase?_snoc]
  unfold replayEntry at hstep
  rw [storedOf_phase] at hstep
  split at hstep
  · rename_i hplanned
    simp only [replayPlanned, bind_eq_ok] at hstep
    obtain ⟨_, -, _, -, _, -, _, -, _, -, _, -, _, -, _, -, _, -, _, -, _, -, h⟩ := hstep
    obtain rfl := Except.ok.inj h
    rw [hplanned]
  · obtain ⟨_, -, hstep⟩ := bind_eq_ok.mp hstep
    obtain ⟨_, -, hstep⟩ := bind_eq_ok.mp hstep
    obtain ⟨_, -, hstep⟩ := bind_eq_ok.mp hstep
    obtain rfl := Except.ok.inj hstep
    rfl

/-- An interruption of what was read can be read. -/
theorem replayOne_interrupted {a : ActionId}
    (h : replayOne (replayEntry method) none (hs.map storedOf) = .ok (some entry))
    (hafter : After hs ["planned", "started", "progress"]) :
    ∃ x, replayOne (replayEntry method) none
      ((hs ++ [JournalEvent.interrupted a]).map storedOf) = .ok x := by
  obtain ⟨ph, hmem, hph⟩ := hafter
  obtain rfl := Option.some.inj (hph.symm.trans (replayOne_phase h))
  have hmay : mayReplay entry (eventPhase (.interrupted a)) = true := by
    simpa [mayReplay, eventPhase] using hmem
  have hstep : replayEntry method (some entry) (storedOf (.interrupted a)) =
      .ok { entry with outcome := .interrupted, lastPhase := "interrupted" } := by
    unfold replayEntry
    rw [storedOf_phase, if_neg (by simp [eventPhase]), orError_some, ok_bind,
      validateReplayedTransition, bind_ok (ensure_of hmay)]
    rfl
  rw [List.map_append, List.map_singleton]
  exact ⟨_, replayOne_snoc h hstep⟩

/-- **A classification that only interrupts leaves a journal that can be read.** -/
theorem JournalInv.loads_classified {acc' : List JournalEvent} {run' : RunJournal}
    {items : List ActionJournalEntry} (h : JournalInv method run acc)
    (h' : JournalInv method run' acc') (hload : run.loadJournal = .ok items)
    (hclassified : ∀ a, Classified (historyOf acc a) (historyOf acc' a))
    (hnone : ∀ a, ¬ After (historyOf acc a) boundaryPhases) :
    ∃ items', run'.loadJournal = .ok items' := by
  obtain ⟨entries, hnumbers, -, hreplay⟩ := h.read hload
  have hgained (a : ActionId) : historyOf acc' a = historyOf acc a ∨
      historyOf acc' a = historyOf acc a ++ [.interrupted a] ∧
        After (historyOf acc a) ["planned", "started", "progress"] := by
    by_cases hopen : InProgress (historyOf acc a)
    · obtain ⟨e, he, heq⟩ := (hclassified a).1 hopen
      cases he with
      | @interrupted b hafter =>
          have hmem : .interrupted b ∈ historyOf acc' a := by simp [heq]
          obtain rfl : b = a := historyOf_actionId hmem
          exact .inr ⟨heq, hafter⟩
      | review hafter =>
          obtain ⟨ph, hmem, hph⟩ := hafter
          exact absurd ⟨ph, List.mem_singleton.mp hmem ▸ by decide, hph⟩ (hnone a)
    · exact .inl ((hclassified a).2 hopen)
  refine h'.loads (fun e he => ?_) fun a => ?_
  · have hmem : e ∈ historyOf acc' (eventActionId e) := List.mem_filter.mpr ⟨he, by simp⟩
    rcases hgained (eventActionId e) with heq | ⟨heq, -⟩
    · rw [heq] at hmem
      exact hnumbers e (List.mem_filter.mp hmem).1
    · rw [heq] at hmem
      rcases List.mem_append.mp hmem with hmem | hmem
      · exact hnumbers e (List.mem_filter.mp hmem).1
      · rw [List.mem_singleton.mp hmem]
        simp [NumbersFit, plan?, progressOf, evidenceOf]
  · rcases hgained a with heq | ⟨heq, hafter⟩
    · exact ⟨_, heq ▸ hreplay a⟩
    · rw [heq]
      have hne : historyOf acc a ≠ [] := by
        intro hnil
        rw [hnil] at hafter
        exact not_after_nil hafter
      obtain ⟨entry, hentry⟩ := Option.isSome_iff_exists.mp
        ((replayOne_isSome (hreplay a)).mpr (by simpa using hne))
      exact replayOne_interrupted ((hreplay a).trans (by rw [hentry])) hafter

variable {items : List ActionJournalEntry} {mirrorResolutions : List MirrorResolutionReportItem}
  {reviewCleared recorded : Bool} {reconciliation : Option CompletionReconciliation}

theorem item_of_reportStatus
    (h : reportStatus items mirrorResolutions reviewCleared false reconciliation recorded =
      .recoveryReview) : ∃ item ∈ items, item.outcome.isRecoveryReview = true := by
  unfold reportStatus at h
  rw [if_neg Bool.false_ne_true] at h
  split_ifs at h with hopen hreview
  exact List.any_eq_true.mp hreview

theorem reportStatus_of_item (hdone : ∀ item ∈ items, item.outcome ≠ .inProgress)
    (hreview : ∃ item ∈ items, item.outcome.isRecoveryReview = true) :
    reportStatus items mirrorResolutions reviewCleared false reconciliation recorded =
      .recoveryReview := by
  obtain ⟨item, hitem, -⟩ := id hreview
  have hopen : items.any (·.outcome = .inProgress) = false := by simpa using hdone
  have hempty : items.isEmpty = false := List.isEmpty_eq_false_iff.mpr (List.ne_nil_of_mem hitem)
  unfold reportStatus
  rw [if_neg Bool.false_ne_true, hopen, hempty, Bool.false_and, Bool.false_and, Bool.false_or,
    if_neg Bool.false_ne_true, if_pos (List.any_eq_true.mpr hreview)]

end

section

variable {σ χ : Type} {m now after : Machine σ χ} {items : List ActionJournalEntry}
  {item : ActionJournalEntry} {resume : Resume σ} {call : ResumeCall σ} {row : RunRow}
  {report : RunReport}

theorem loadReport_run (row : RunRow) (now : Machine σ χ) :
    loadReport row now =
      ((RunRow.loadReport { row with journal := now.run }).mapError .storage, now) := by
  simp only [loadReport, bind, Program.bind, Program.step]
  cases RunRow.loadReport { row with journal := now.run } <;> rfl

/-- The machine once the gates of a resume were asked. -/
def Machine.gated (now : Machine σ χ) (call : ResumeCall σ) : Machine σ χ :=
  { now with world := (call.gates now.world).2 }

/-- What is left of a resume once its gates are passed. -/
def ResumeCall.settle (call : ResumeCall σ) (row : RunRow) (items : List ActionJournalEntry) :
    Program (Machine σ χ) WorkflowError RunReport := do
  call.resume.classify items
  let reopened ← loadReport row
  if reopened.status = .recoveryReview then .fail (.invalidRun call.resume.unresolved)
  else return reopened

theorem ResumeCall.reopen_eq (call : ResumeCall σ) (row : RunRow) (now : Machine σ χ) :
    call.reopen row now =
      match RunRow.loadReport { row with journal := now.run } with
      | .error error => (.error (.storage error), now)
      | .ok report =>
          if report.status = .completed ∨ report.status = .reviewCleared then
            (.error (.invalidRun call.resume.notIncomplete), now)
          else if report.status = .recoveryReview then
            (.error (.invalidRun call.resume.unresolved), now)
          else
            match (call.gates now.world).1 with
            | .error error => (.error error, now.gated call)
            | .ok () => call.settle row report.items (now.gated call) := by
  unfold ResumeCall.reopen
  simp only [bind, Program.bind]
  rw [loadReport_run]
  cases RunRow.loadReport { row with journal := now.run } with
  | error error => rfl
  | ok report =>
      dsimp only [Except.mapError]
      split_ifs
      · rfl
      · rfl
      · unfold Program.bind
        dsimp only [inquire, Program.step, Machine.gated]
        cases (call.gates now.world).1 <;> rfl

/-- A run under review is refused. -/
theorem ResumeCall.reopen_review
    (hreport : RunRow.loadReport { row with journal := now.run } = .ok report)
    (hreview : report.status = .recoveryReview) :
    (call.reopen row now).1 = .error (.invalidRun call.resume.unresolved) := by
  rw [ResumeCall.reopen_eq, hreport]
  simp [hreview]

/-- **A resume that its gates refuse** journals nothing. -/
theorem ResumeCall.reopen_refused (call : ResumeCall σ) (row : RunRow) {error : WorkflowError}
    (hgates : (call.gates now.world).1 = .error error) :
    (∃ refusal, (call.reopen row now).1 = .error refusal) ∧
      (call.reopen row now).2.calls = now.calls := by
  rw [ResumeCall.reopen_eq, hgates]
  split
  · exact ⟨⟨_, rfl⟩, rfl⟩
  · split_ifs <;> exact ⟨⟨_, rfl⟩, rfl⟩

/-- What a resume comes to that its gates let pass, once the classification has come through. -/
theorem ResumeCall.reopen_run
    (hreport : RunRow.loadReport { row with journal := now.run } = .ok report)
    (hcompleted : report.status ≠ .completed) (hcleared : report.status ≠ .reviewCleared)
    (hreview : report.status ≠ .recoveryReview) (hgates : (call.gates now.world).1 = .ok ())
    (hrun : call.resume.classify report.items (now.gated call) = (.ok (), after)) :
    (∃ reopened, (call.reopen row now).1 = .ok reopened) ↔
      ∃ reopened, RunRow.loadReport { row with journal := after.run } = .ok reopened ∧
        reopened.status ≠ .recoveryReview := by
  rw [ResumeCall.reopen_eq, hreport, hgates]
  dsimp only
  rw [if_neg (not_or.mpr ⟨hcompleted, hcleared⟩), if_neg hreview]
  simp only [ResumeCall.settle, bind, Program.bind]
  rw [hrun]
  dsimp only
  rw [loadReport_run]
  cases RunRow.loadReport { row with journal := after.run } with
  | error error => simp [Except.mapError]
  | ok reopened =>
      dsimp only [Except.mapError]
      split
      · rename_i hstatus
        refine iff_of_false (fun ⟨_, h⟩ => nomatch h) ?_
        rintro ⟨_, heq, hne⟩
        exact hne (Except.ok.inj heq ▸ hstatus)
      · rename_i hstatus
        exact iff_of_true ⟨_, rfl⟩ ⟨_, rfl, hstatus⟩

/-- The program comes from such machines to such machines only. -/
def StaysReached {α : Type} (m : Machine σ χ) (p : Program (Machine σ χ) WorkflowError α) : Prop :=
  Triple (ResumeReaches m) p (fun _ => ResumeReaches m) fun _ => ResumeReaches m

theorem StaysReached.reaches {α : Type} {p : Program (Machine σ χ) WorkflowError α}
    (h : StaysReached m p) (hnow : ResumeReaches m now) : ResumeReaches m (p now).2 := by
  have hafter := h now hnow
  revert hafter
  rcases p now with ⟨_ | _, after⟩ <;> exact id

theorem Resume.classify_stays {read : Machine σ χ} (resume : Resume σ)
    (hread : ResumeReaches m read) (hload : read.run.loadJournal = .ok items) :
    StaysReached m (resume.classify items) := by
  have hitems : StaysReached m (.forEach resume.classifyAction items) := by
    refine .forEach fun item hitem s hs => ?_
    have hclassified := hread.classified resume hload hitem hs
    revert hclassified
    rcases resume.classifyAction item s with ⟨_ | _, after⟩ <;> exact id
  cases resume with
  | ssh => exact hitems
  | peers probe profile =>
      have hisDir : StaysReached m (inquire probe.isDir) := .step fun s hs => hs.elsewhere _
      refine hisDir.bind fun isDir => ?_
      exact .bind (Q := fun _ => ResumeReaches m)
        (.ofExcept (fun _ _ _ hs => hs) fun _ _ _ hs => hs) fun _ => hitems

theorem loadReport_stays (row : RunRow) : StaysReached m (loadReport row) := by
  intro s hs
  rw [loadReport_run]
  cases RunRow.loadReport { row with journal := s.run } <;> exact hs

/-- **Wherever a resume ends**, it has come to a machine that resumes come to. -/
theorem ResumeCall.reopen_reaches (call : ResumeCall σ) (row : RunRow)
    (h : ResumeReaches m now) : ResumeReaches m (call.reopen row now).2 := by
  rw [ResumeCall.reopen_eq]
  cases hreport : RunRow.loadReport { row with journal := now.run } with
  | error error => exact h
  | ok report =>
      obtain ⟨items, _, _, hload, -, -, rfl⟩ := RunRow.loadReport_eq_ok.mp hreport
      have hgated : ResumeReaches m (now.gated call) := h.elsewhere _
      have hsettle : StaysReached m (call.settle row items) :=
        (call.resume.classify_stays h hload).bind fun _ => (loadReport_stays row).bind fun _ =>
          .ite (fun _ => .fail fun _ hs => hs) fun _ => .pure fun _ hs => hs
      dsimp only
      split_ifs
      · exact h
      · exact h
      · cases (call.gates now.world).1 with
        | error error => exact hgated
        | ok passed => exact hsettle.reaches hgated

/-- An entry under review is of an action past a boundary. -/
theorem boundary_of_review (hload : now.run.loadJournal = .ok items) (hitem : item ∈ items)
    (hreview : item.outcome.isRecoveryReview = true) :
    After (historyOf (accepted now.calls) item.plan.actionId) boundaryPhases := by
  obtain ⟨hplan, houtcome⟩ := now.journal.loaded hload hitem
  rw [houtcome] at hreview
  refine (review_iff fun hopen => ?_).mp hreview
  rw [((now.journal.histories _).outcome_inProgress (plan?_ne_nil hplan)).mpr hopen] at hreview
  cases hreview

/-- With nothing in progress, an action past a boundary has an entry under review. -/
theorem review_of_boundary (hload : now.run.loadJournal = .ok items) {a : ActionId}
    (hdone : ¬ InProgress (historyOf (accepted now.calls) a))
    (hafter : After (historyOf (accepted now.calls) a) boundaryPhases) :
    ∃ item ∈ items, item.outcome.isRecoveryReview = true := by
  have hne : historyOf (accepted now.calls) a ≠ [] := by
    intro hnil
    rw [hnil] at hafter
    exact not_after_nil hafter
  obtain ⟨item, hitem, -, houtcome⟩ := now.journal.entry_of_history hload hne
  exact ⟨item, hitem, houtcome ▸ (review_iff hdone).mpr hafter⟩

theorem Classified.not_inProgress {hs hs' : List JournalEvent} (h : Classified hs hs') :
    ¬ InProgress hs' := by
  by_cases hopen : InProgress hs
  · obtain ⟨e, he, rfl⟩ := h.1 hopen
    exact he.not_inProgress
  · rwa [h.2 hopen]

/-- What a report of a run that is not blocked has of the journal. -/
theorem loadReport_items {journal : RunJournal} (hblocked : row.blockedReason = none)
    (h : RunRow.loadReport { row with journal } = .ok report) :
    journal.loadJournal = .ok report.items ∧
      report.status = reportStatus report.items row.mirrorResolutions row.reviewCleared false
        row.reconciliation row.inventoriesRecorded := by
  obtain ⟨items, _, _, hload, -, -, rfl⟩ := RunRow.loadReport_eq_ok.mp h
  refine ⟨hload, ?_⟩
  rw [hblocked]
  rfl

/-- A report that was read once is read again whenever the journal is. -/
theorem loadReport_again {journal journal' : RunJournal}
    (h : RunRow.loadReport { row with journal } = .ok report)
    (hload : journal'.loadJournal = .ok items) :
    ∃ report, RunRow.loadReport { row with journal := journal' } = .ok report := by
  obtain ⟨_, inventoryA, inventoryB, -, hinventoryA, hinventoryB, -⟩ :=
    RunRow.loadReport_eq_ok.mp h
  exact ⟨_, RunRow.loadReport_eq_ok.mpr
    ⟨items, inventoryA, inventoryB, hload, hinventoryA, hinventoryB, rfl⟩⟩

/-- **The gates of a resume** let it through exactly when no action is past a boundary. -/
theorem Recovering.reopen_iff (h : Recovering now now) (call : ResumeCall σ)
    (hblocked : row.blockedReason = none)
    (hreport : RunRow.loadReport { row with journal := now.run } = .ok report)
    (hcompleted : report.status ≠ .completed) (hcleared : report.status ≠ .reviewCleared)
    (hready : call.resume.Ready (call.gates now.world).2) :
    (∃ reopened, (call.reopen row now).1 = .ok reopened) ↔
      (call.gates now.world).1 = .ok () ∧
        ∀ a, ¬ After (historyOf (accepted now.calls) a) boundaryPhases := by
  obtain ⟨hload, hstatus⟩ := loadReport_items hblocked hreport
  by_cases hreview : report.status = .recoveryReview
  · -- refused at the first look
    obtain ⟨item, hitem, houtcome⟩ := item_of_reportStatus (hstatus ▸ hreview)
    refine iff_of_false ?_ fun hnone => hnone.2 _ (boundary_of_review hload hitem houtcome)
    rintro ⟨reopened, hreopened⟩
    rw [ResumeCall.reopen_review hreport hreview] at hreopened
    cases hreopened
  cases hgates : (call.gates now.world).1 with
  | error error =>
      obtain ⟨⟨_, hrefused⟩, -⟩ := call.reopen_refused row hgates
      refine iff_of_false (fun ⟨_, hreopened⟩ => ?_) fun hpassed => nomatch hpassed.1
      rw [hrefused] at hreopened
      cases hreopened
  | ok passed =>
  rw [and_iff_right rfl]
  obtain ⟨after, hrun, hafter, hclassified⟩ :=
    (h.elsewhere (call.gates now.world).2).classify hload call.resume hready
  rw [ResumeCall.reopen_run hreport hcompleted hcleared hreview hgates hrun]
  have hsame (a : ActionId) := (hafter.histories a).boundary_iff
  constructor
  · rintro ⟨reopened, hreopened, hpassed⟩ a hboundary
    obtain ⟨hload', hstatus'⟩ := loadReport_items hblocked hreopened
    have hdone : ∀ item ∈ reopened.items, item.outcome ≠ .inProgress := by
      intro item hitem hopen
      obtain ⟨hplan, houtcome⟩ := after.journal.loaded hload' hitem
      exact (hclassified item.plan.actionId).not_inProgress
        (((after.journal.histories _).outcome_inProgress (plan?_ne_nil hplan)).mp
          (houtcome ▸ hopen))
    refine hpassed (hstatus'.trans (reportStatus_of_item hdone ?_))
    exact review_of_boundary hload' (hclassified a).not_inProgress ((hsame a).mpr hboundary)
  · intro hnone
    have hjournal := after.journal
    rw [hafter.method] at hjournal
    obtain ⟨items', hload'⟩ := now.journal.loads_classified hjournal hload hclassified hnone
    obtain ⟨reopened, hreopened⟩ := loadReport_again hreport hload'
    refine ⟨reopened, hreopened, fun hrefused => ?_⟩
    obtain ⟨hload'', hstatus'⟩ := loadReport_items hblocked hreopened
    obtain ⟨item, hitem, houtcome⟩ := item_of_reportStatus (hstatus' ▸ hrefused)
    exact hnone _ ((hsame _).mp (boundary_of_review hload'' hitem houtcome))

end

/-! ## Stopped drivers -/

/-- The machine of a run that stopped at some point of the trace of `r`. -/
structure StoppedAt {σ χ : Type} (r m : Machine σ χ) : Prop where
  method : m.run.deletionMethod = r.run.deletionMethod
  calls : m.calls <+: r.calls

/-- **What resumes have made of a run that stopped at `m`**, and what the next one does when it
is left alone. -/
structure Recovered {σ χ : Type} (m now : Machine σ χ) : Prop where
  histories : ∀ a, Resumed (historyOf (accepted m.calls) a) (historyOf (accepted now.calls) a)
  classified : ∀ (resume : Resume σ) items, now.run.loadJournal = .ok items →
    resume.Ready now.world → ∃ after, resume.classify items now = (.ok (), after) ∧
      ∀ a, Classified (historyOf (accepted m.calls) a) (historyOf (accepted after.calls) a)
  reached : ∀ (call : ResumeCall σ) row, ResumeReaches m (call.reopen row now).2
  refused : ∀ (call : ResumeCall σ) row error, (call.gates now.world).1 = .error error →
    (∃ refusal, (call.reopen row now).1 = .error refusal) ∧
      (call.reopen row now).2.calls = now.calls
  gated : ∀ (call : ResumeCall σ) (row : RunRow) report, row.blockedReason = none →
    RunRow.loadReport { row with journal := now.run } = .ok report →
    report.status ≠ .completed → report.status ≠ .reviewCleared →
    call.resume.Ready (call.gates now.world).2 →
      ((∃ reopened, (call.reopen row now).1 = .ok reopened) ↔
        (call.gates now.world).1 = .ok () ∧
          ∀ a, ¬ After (historyOf (accepted m.calls) a) boundaryPhases)

section

variable {σ χ : Type} {plan : OneWayPlan} {r : Except WorkflowError Unit × Machine σ χ}
  {m now : Machine σ χ}

theorem OrderlyRun.stopped (h : OrderlyRun plan r) (hstopped : StoppedAt r.2 m) :
    Recovering m m := by
  obtain ⟨rest, hrest⟩ := hstopped.calls
  have hsplit : accepted r.2.calls = accepted m.calls ++ accepted rest := by
    rw [← hrest, accepted_append]
  have hacc := h.acceptable
  have hfirst := h.plansFirst
  rw [hsplit, ← hstopped.method] at hacc
  rw [hsplit] at hfirst
  exact ⟨rfl, hacc.init, (List.pairwise_append.mp hfirst).1, fun _ => .inl rfl⟩

theorem Recovering.refl (h : Recovering m now) : Recovering now now :=
  ⟨rfl, h.method ▸ h.acceptable, h.plansFirst, fun _ => .inl rfl⟩

/-- **An orderly run recovers**, wherever it stopped and however it was resumed. -/
theorem OrderlyRun.recovered (h : OrderlyRun plan r) (hstopped : StoppedAt r.2 m)
    (hreaches : ResumeReaches m now) : Recovered m now := by
  have hrecovering := hreaches.recovering (h.stopped hstopped)
  refine ⟨hrecovering.histories, fun resume items hload hready => ?_,
    fun call row => call.reopen_reaches row hreaches,
    fun call row error hgates => call.reopen_refused row hgates,
    fun call row report hblocked hreport hcompleted hcleared hready => ?_⟩
  · obtain ⟨after, hrun, -, hclassified⟩ := hrecovering.classify hload resume hready
    exact ⟨after, hrun, hclassified⟩
  · rw [hrecovering.refl.reopen_iff call hblocked hreport hcompleted hcleared hready]
    exact and_congr_right fun _ =>
      forall_congr' fun a => not_congr (hrecovering.histories a).boundary_iff

end

/-- **Both drivers can be stopped anywhere.** However often the run is then resumed, each of
the resumes cut short or not: every history is as it was left or has gained the one event that
it asks for; a resume that is left alone gains it for every action in progress. One that is
refused what it asks for before that journals nothing; and it goes on exactly when it is not
refused, and no action was past a boundary when the run stopped. -/
theorem drivers_resumed :
    (∀ (σ : Type) (backend : SshBackend σ) (run : SshRun) (world : σ)
      (m now : Machine σ SshAnswer), StoppedAt (sshRunFrom backend run world).2 m →
        ResumeReaches m now → Recovered m now) ∧
    ∀ (σ : Type) (backend : LocalWorkflow.LocalBackend σ) (run : LocalWorkflow.LocalRun)
      (world : σ) (m now : Machine σ LocalWorkflow.LocalAnswer),
      StoppedAt (LocalWorkflow.runFrom backend run world).2 m →
        ResumeReaches m now → Recovered m now :=
  ⟨fun _ backend run world _ _ => (sshRunFrom_orderly backend run world).recovered,
    fun _ backend run world _ _ => (runFrom_orderly backend run world).recovered⟩

/-! ### A move that stopped before its source was removed

The file was copied and the copy verified once more; then the machine went down. The resume
leaves the removal to be reviewed. -/

namespace LocalWorkflow

def stoppedCalls : List (Call LocalAnswer) :=
  (runFrom movedBackend movedRun ()).2.calls.take 19

theorem stoppedCalls_offered :
    (RunJournal.offers movedRun.confirmed.frozenMethod (accepted stoppedCalls)).2 =
      accepted stoppedCalls := by
  decide +kernel

def stoppedMove : Machine Unit LocalAnswer where
  world := ()
  run := (RunJournal.offers movedRun.confirmed.frozenMethod (accepted stoppedCalls)).1
  calls := stoppedCalls
  journal := by
    have h := offers_journalInv movedRun.confirmed.frozenMethod (accepted stoppedCalls)
    rw [stoppedCalls_offered] at h
    rwa [h.frozen]

def movedProbe : ResumeProbe Unit where
  isDir _ := (fun _ => true, ())
  observeContent _ := (fun _ => (true, some 5, some sampleHash), ())
  currentUnixNanos _ := (1, ())
  text _ := ""

/-- Every gate is passed. -/
def movedGates : PeerGates Unit where
  nextRunId := pure ⟨2⟩
  acquirePrecheck _ _ := pure ()
  authorizeReplacement := pure false
  persistBlocked _ := pure ()

def movedResume : ResumeCall Unit :=
  .peers movedGates movedProbe movedRun.confirmed.profile

/-- The rows of the move, with nothing recorded besides the journal. -/
def movedRow : RunRow where
  mode := movedRun.confirmed.profile.mode
  journal := stoppedMove.run
  sourceInventoryRecorded := false
  destinationInventoryRecorded := false
  sourceInventory := []
  destinationInventory := []
  blockedReason := none
  reconciliation := none
  mirrorResolutions := []
  reviewCleared := false

def resumedMove : Machine Unit LocalAnswer := (movedResume.reopen movedRow stoppedMove).2

end LocalWorkflow

open LocalWorkflow in
/-- The removal is left to be reviewed, and the run is not resumed before. -/
theorem drivers_resumed_moved :
    (movedResume.reopen movedRow stoppedMove).1 =
        .error (.invalidRun movedResume.resume.unresolved) ∧
      phase? (historyOf (accepted resumedMove.calls) 2) = some "recovery_review" ∧
      Recovered stoppedMove resumedMove := by
  have hstopped : StoppedAt (runFrom movedBackend movedRun ()).2 stoppedMove :=
    ⟨by decide +kernel, List.take_prefix _ _⟩
  have hreaches : ResumeReaches stoppedMove resumedMove :=
    movedResume.reopen_reaches movedRow .refl
  exact ⟨by decide +kernel, by decide +kernel,
    drivers_resumed.2 Unit movedBackend movedRun () stoppedMove resumedMove hstopped hreaches⟩

end SyncPlus
