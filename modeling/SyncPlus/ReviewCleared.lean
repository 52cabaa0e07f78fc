import SyncPlus.ActionOrder
import SyncPlus.RemovalProof
import SyncPlus.RunReport

/-!
# The acknowledgement of a run

A run is acknowledged when all its actions are completed, and the flag
stays. The journal cannot take that back: the events of a completed
action are over, so a journal of completed actions accepts nothing but
plans of new ones (`JournalInv.over`). What can take it back are the
operations that the flag does not stop: a new plan, a block, and an
inventory that nothing reconciles. In a run without these after its
acknowledgement, what the report calls Review-Cleared is earned
(`reviewCleared_earned`).
-/

namespace SyncPlus

/-! ## A journal of completed actions -/

section

variable {method : Option String} {run : RunJournal} {acc : List JournalEvent}

/-- A completed history has come to its end. -/
theorem History.settled_of_completed {hs : List JournalEvent} (h : History method hs)
    (hout : latest? outcomeOf hs = some .completed) {ph : String}
    (hph : phase? hs = some ph) : isSettledPhase ph = true := by
  cases h with
  | nil => cases hph
  | @snoc hs e h hadm =>
      rw [phase?_snoc] at hph
      obtain rfl := Option.some.inj hph
      have hstarted : eventPhase e ∈ ["started", "progress"] → False := by
        intro he
        rw [(h.snoc hadm).outcome_started (after_snoc.mpr he)] at hout
        cases hout
      cases e with
      | completed a => rfl
      | removalCompleted a result => rfl
      | recoveryResolved a resolution => rfl
      | started a => exact (hstarted (by simp [eventPhase])).elim
      | progress a bytes => exact (hstarted (by simp [eventPhase])).elim
      | _ => simp [outcomeOf] at hout

/-- Every action with events has its entry. -/
theorem JournalInv.entry_of_history (h : JournalInv method run acc)
    {list : List ActionJournalEntry} (hload : run.loadJournal = .ok list)
    {a : ActionId} (ha : historyOf acc a ≠ []) :
    ∃ entry ∈ list, plan? (historyOf acc a) = some entry.plan ∧
      entry.outcome = (latest? outcomeOf (historyOf acc a)).getD .inProgress := by
  obtain ⟨entries, -, rfl, hreplay⟩ := h.read hload
  have hsome : entries[a]?.isSome = true :=
    (replayOne_isSome (hreplay a)).mpr (by simpa using ha)
  obtain ⟨entry, hentry⟩ := Option.isSome_iff_exists.mp hsome
  have hmem : entry ∈ intoValues entries := List.mem_map.mpr
    ⟨(a, entry), Std.ExtTreeMap.mem_toList_iff_getElem?_eq_some.mpr hentry, rfl⟩
  exact ⟨entry, hmem,
    replayOne_outcome (h.histories a) ((hreplay a).trans (by rw [hentry]))⟩

/-- **A journal of completed actions is over.** It accepts no event but
the plan of a new action. -/
theorem JournalInv.over (h : JournalInv method run acc)
    {list : List ActionJournalEntry} (hload : run.loadJournal = .ok list)
    (hall : ∀ entry ∈ list, entry.outcome = .completed) {e : JournalEvent}
    {run' : RunJournal} (happ : run.appendEvent e = .ok run') :
    ∃ plan, e = .planned plan := by
  have hacc := (h.append happ).1
  rcases hacc.admits.after with ⟨plan, rfl, -⟩ | ⟨-, ph, hph, -⟩
  · exact ⟨plan, rfl⟩
  · have hne : historyOf acc (eventActionId e) ≠ [] := by
      intro hnil
      rw [hnil] at hph
      cases hph
    obtain ⟨entry, hmem, -, hout⟩ := h.entry_of_history hload hne
    have hcompleted : latest? outcomeOf (historyOf acc (eventActionId e)) =
        some .completed := by
      rw [hall entry hmem] at hout
      cases hl : latest? outcomeOf (historyOf acc (eventActionId e)) with
      | none => simp [hl] at hout
      | some outcome => simpa [hl, eq_comm] using hout
    have := (h.histories _).settled_of_completed hcompleted hph
    rw [hacc.not_settled hph] at this
    cases this

end

/-! ## The report of a cleared run -/

/-- What Review-Cleared says of a run. -/
structure Earned (report : RunReport) : Prop where
  status : report.status = .reviewCleared
  completed : ∀ item ∈ report.items, item.outcome = .completed
  notBlocked : report.blockedReason = none
  resolutions : ∀ r ∈ report.mirrorResolutions, r.requiresReview = false
  reconciled : report.reconciliationRequired = true →
    ∃ r, report.reconciliation = some r ∧ r.findings = []

/-- The cleared run has not been taken back: its actions are completed, it
is not blocked, and an inventory of it has been reconciled. -/
structure Cleared (run : RunRow) : Prop where
  completed : ∃ items, run.journal.loadJournal = .ok items ∧
    ∀ item ∈ items, item.outcome = .completed
  notBlocked : run.blockedReason = none
  reconciled : run.inventoriesRecorded = true → run.reconciliation.isSome = true

theorem RunRow.loadReport_eq_ok {run : RunRow} {report : RunReport} :
    run.loadReport = .ok report ↔
      ∃ items a b, run.journal.loadJournal = .ok items ∧
        run.peerInventory run.sourceInventoryRecorded run.sourceInventory = .ok a ∧
        run.peerInventory run.destinationInventoryRecorded run.destinationInventory =
          .ok b ∧
        report =
          { items
            status := reportStatus items run.mirrorResolutions run.reviewCleared
              run.blockedReason.isSome run.reconciliation run.inventoriesRecorded
            executionResult := SyncPlus.executionResult items run.blockedReason.isSome
              run.reconciliation.isSome
            lifecycle := reportLifecycle items run.mirrorResolutions run.reviewCleared
              run.blockedReason.isSome run.reconciliation
            blockedReason := run.blockedReason
            reconciliation := run.reconciliation
            reconciliationRequired := run.inventoriesRecorded
            peerAInventory := a
            peerBInventory := b
            mirrorResolutions := run.mirrorResolutions } := by
  unfold RunRow.loadReport
  simp only [bind_eq_ok, pure, Except.pure, Except.ok.injEq]
  constructor
  · rintro ⟨items, hitems, a, ha, b, hb, h⟩
    exact ⟨items, a, b, hitems, ha, hb, h.symm⟩
  · rintro ⟨items, a, b, hitems, ha, hb, h⟩
    exact ⟨items, hitems, a, ha, b, hb, h.symm⟩

/-- No resolution that failed is settled. -/
theorem requiresReview_of_fails {r : MirrorResolutionReportItem}
    (h : r.requiresReview = false) : r.outcome.fails = false := by
  simp only [MirrorResolutionReportItem.requiresReview, Bool.or_eq_false_iff,
    decide_eq_false_iff_not, ne_eq, not_not] at h
  rw [h.1.2]
  rfl

theorem lifecycle_cleared {items : List ActionJournalEntry}
    {resolutions : List MirrorResolutionReportItem} {cleared blocked : Bool}
    {reconciliation : Option CompletionReconciliation}
    (h : reportLifecycle items resolutions cleared blocked reconciliation =
      .reviewCleared) :
    cleared = true ∧ (∀ r ∈ resolutions, r.requiresReview = false) ∧
      reconciliationRequiresReview reconciliation = false := by
  unfold reportLifecycle at h
  split at h
  · rename_i hc
    split at h
    · cases h
    · rename_i hr
      simp only [Bool.or_eq_true, not_or, Bool.not_eq_true, List.any_eq_false] at hr
      exact ⟨hc, hr⟩
  · split at h
    · cases h
    · split at h <;> cases h

/-- Completed items leave no other status to a cleared run. -/
theorem reportStatus_cleared {items : List ActionJournalEntry}
    {resolutions : List MirrorResolutionReportItem} {inventory : Bool}
    {reconciliation : Option CompletionReconciliation}
    (hitems : ∀ item ∈ items, item.outcome = .completed)
    (hresolutions : ∀ r ∈ resolutions, r.requiresReview = false)
    (hreconciliation : reconciliationRequiresReview reconciliation = false)
    (hinventory : inventory = true → reconciliation.isSome = true) :
    reportStatus items resolutions true false reconciliation inventory =
      .reviewCleared := by
  have none_of : ∀ {p : ActionOutcome → Bool}, p .completed = false →
      items.any (fun item => p item.outcome) = false := by
    intro p hp
    rw [List.any_eq_false]
    intro item hitem
    simp [hitems item hitem, hp]
  have hfails : resolutions.any (·.outcome.fails) = false := by
    rw [List.any_eq_false]
    intro r hr
    simp [requiresReview_of_fails (hresolutions r hr)]
  have hreview : resolutions.any (·.requiresReview) = false := by
    rw [List.any_eq_false]
    intro r hr
    simp [hresolutions r hr]
  have hnone : (inventory && reconciliation.isNone) = false := by
    cases inventory with
    | false => rfl
    | true => simpa using hinventory rfl
  have hnone' : (items.isEmpty && inventory && reconciliation.isNone) = false := by
    rw [Bool.and_assoc, hnone, Bool.and_false]
  have h1 := none_of (p := fun o => decide (o = .inProgress)) (by decide)
  have h2 := none_of (p := ActionOutcome.isRecoveryReview) rfl
  have h3 := none_of (p := ActionOutcome.isFailed) rfl
  have h4 := none_of (p := fun o => decide (o = .interrupted)) (by decide)
  have h5 := none_of (p := fun o => decide (o = .cancelled)) (by decide)
  have h6 := none_of (p := fun o => decide (o = .deferred) || o.isUnresolved) (by decide)
  simp only [reportStatus, h1, h2, h3, h4, h5, h6, hfails, hreview, hnone, hnone',
    hreconciliation, Bool.or_self, Bool.false_eq_true, if_false, if_true]

/-- **The report of a run that stayed cleared is earned.** -/
theorem Cleared.earned {run : RunRow} (hc : Cleared run) {report : RunReport}
    (hreport : run.loadReport = .ok report) (hlife : report.lifecycle = .reviewCleared) :
    Earned report := by
  obtain ⟨items, a, b, hitems, -, -, rfl⟩ := RunRow.loadReport_eq_ok.mp hreport
  obtain ⟨items', hload, hall⟩ := hc.completed
  obtain rfl := Except.ok.inj (hitems.symm.trans hload)
  obtain ⟨hflag, hresolutions, hrec⟩ := lifecycle_cleared hlife
  refine ⟨?_, hall, hc.notBlocked, hresolutions, fun hreq => ?_⟩
  · simp only [hflag, hc.notBlocked, Option.isSome_none]
    exact reportStatus_cleared hall hresolutions hrec hc.reconciled
  · obtain ⟨r, hr⟩ := Option.isSome_iff_exists.mp (hc.reconciled hreq)
    refine ⟨r, hr, ?_⟩
    rw [hr] at hrec
    simpa [reconciliationRequiresReview, CompletionReconciliation.requiresReview] using hrec

/-! ## Runs of operations -/

/-- The run's rows after a list of operations, each accepted or refused. -/
def storeAfter (runId : RunId) (ops : List StoreOperation) : Option RunRow :=
  (offerAll (applyOperation runId) (none, []) ops).1

/-- The journal of the run is one that its events have built. -/
def JournalBuilt (run : Option RunRow) : Prop :=
  ∀ row ∈ run, ∃ acc, JournalInv row.journal.deletionMethod row.journal acc

section

variable {runId : RunId}

theorem applyMissing_eq_ok {op : StoreOperation} {row : RunRow}
    (h : applyMissing runId op = .ok row) : ∃ snapshot, row = .opened snapshot := by
  cases op with
  | beginRun snapshot =>
      obtain ⟨_, -, h⟩ := bind_eq_ok.mp h
      exact ⟨snapshot, (Except.ok.inj h).symm⟩
  | recordSourceInventory items => cases items <;> cases h
  | recordDestinationInventory items => cases items <;> cases h
  | _ => cases h

/-- What an accepted operation does to the journal and to the other rows. -/
theorem RunRow.apply_journal {row row' : RunRow} {op : StoreOperation}
    (h : row.apply op = .ok row') :
    (∃ e, op = .appendEvent e ∧ row.journal.appendEvent e = .ok row'.journal ∧
        row' = { row with journal := row'.journal }) ∨ row'.journal = row.journal := by
  cases op with
  | appendEvent e =>
      obtain ⟨journal, happ, h⟩ := bind_eq_ok.mp h
      obtain rfl := Except.ok.inj h
      exact .inl ⟨e, rfl, happ, rfl⟩
  | beginRun _ => cases h
  | markBlocked _ => cases h; exact .inr rfl
  | recordReconciliation _ => cases h; exact .inr rfl
  | recordSourceInventory _ =>
      obtain ⟨_, -, h⟩ := bind_eq_ok.mp h
      cases h
      exact .inr rfl
  | recordDestinationInventory _ =>
      obtain ⟨_, -, h⟩ := bind_eq_ok.mp h
      cases h
      exact .inr rfl
  | recordMirrorResolutions _ =>
      obtain ⟨_, -, h⟩ := bind_eq_ok.mp h
      cases h
      exact .inr rfl
  | markReviewCleared =>
      obtain ⟨_, -, h⟩ := bind_eq_ok.mp h
      obtain ⟨_, -, h⟩ := bind_eq_ok.mp h
      cases h
      exact .inr rfl

theorem JournalBuilt.apply {row row' : RunRow} {op : StoreOperation}
    (h : JournalBuilt (some row)) (happ : row.apply op = .ok row') :
    JournalBuilt (some row') := by
  obtain ⟨acc, hinv⟩ := h row rfl
  rintro _ ⟨⟩
  rcases RunRow.apply_journal happ with ⟨e, -, hevent, -⟩ | heq
  · have hinv' := (hinv.append hevent).2
    exact ⟨_, hinv'.frozen.symm ▸ hinv'⟩
  · exact ⟨acc, heq.symm ▸ hinv⟩

theorem applyOperation_eq_ok {run run' : Option RunRow} {op : StoreOperation}
    (h : applyOperation runId run op = .ok run') :
    (∃ row row', run = some row ∧ run' = some row' ∧ row.apply op = .ok row') ∨
      (run = none ∧ ∃ snapshot, run' = some (.opened snapshot)) := by
  cases run with
  | some row =>
      obtain ⟨row', happ, rfl⟩ := map_eq_ok.mp h
      exact .inl ⟨row, row', rfl, rfl, happ⟩
  | none =>
      obtain ⟨row', happ, rfl⟩ := map_eq_ok.mp h
      obtain ⟨snapshot, rfl⟩ := applyMissing_eq_ok happ
      exact .inr ⟨rfl, snapshot, rfl⟩

theorem storeAfter_journalBuilt (runId : RunId) (ops : List StoreOperation) :
    JournalBuilt (storeAfter runId ops) := by
  refine offerAll_invariant (fun run _ => JournalBuilt run) ?_ ?_ ops
  · intro run _ op run' h hop
    rcases applyOperation_eq_ok hop with ⟨row, row', rfl, rfl, happ⟩ | ⟨-, _, rfl⟩
    · exact h.apply happ
    · rintro _ ⟨⟩
      exact ⟨[], JournalInv.opened⟩
  · rintro row ⟨⟩

/-- **The operation leaves an acknowledged run alone**: it is refused, or it plans
no new action, does not block the run, and completes no inventory that nothing
reconciles. -/
def Undisturbed (run : Option RunRow) (op : StoreOperation) : Prop :=
  ∀ row ∈ run, row.reviewCleared = true →
    match op with
    | .appendEvent (.planned plan) =>
        ∃ error, row.journal.appendEvent (.planned plan) = .error error
    | .markBlocked _ => False
    | .recordSourceInventory items =>
        (∃ row', row.apply (.recordSourceInventory items) = .ok row') →
          ({ row with sourceInventoryRecorded := true } : RunRow).inventoriesRecorded =
            true → row.reconciliation.isSome = true
    | .recordDestinationInventory items =>
        (∃ row', row.apply (.recordDestinationInventory items) = .ok row') →
          ({ row with destinationInventoryRecorded := true } : RunRow).inventoriesRecorded =
            true → row.reconciliation.isSome = true
    | _ => True

/-- A report that may be acknowledged is of a run that is clear. -/
theorem cleared_of_canMark {row : RunRow} {report : RunReport}
    (hreport : row.loadReport = .ok report) (hcan : report.canMarkReviewCleared = true) :
    Cleared row := by
  obtain ⟨items, a, b, hitems, -, -, rfl⟩ := RunRow.loadReport_eq_ok.mp hreport
  simp only [RunReport.canMarkReviewCleared, Bool.and_eq_true, decide_eq_true_eq] at hcan
  obtain ⟨⟨⟨hopen, hsucceeded⟩, hreconciled⟩, -⟩ := hcan
  have hblocked : row.blockedReason = none := by
    cases hb : row.blockedReason with
    | none => rfl
    | some _ => simp [executionResult, hb] at hsucceeded
  refine ⟨⟨items, hitems, fun item hitem => ?_⟩, hblocked, fun hinv => ?_⟩
  · -- The lifecycle rules out every outcome but two, the result one of these.
    have hkeeps : item.outcome.keepsReview = false := by
      unfold reportLifecycle at hopen
      split at hopen
      · split at hopen <;> cases hopen
      · split at hopen
        · cases hopen
        · split at hopen
          · cases hopen
          · rename_i hany
            simp only [Bool.not_eq_true, List.any_eq_false] at hany
            exact Bool.not_eq_true _ ▸ hany item hitem
    have hprogress : item.outcome ≠ .inProgress := by
      intro hp
      have hany : items.any (·.outcome = .inProgress) = true :=
        List.any_eq_true.mpr ⟨item, hitem, by simp [hp]⟩
      simp only [executionResult, hany, if_true] at hsucceeded
      split at hsucceeded
      · cases hsucceeded
      · split at hsucceeded <;> cases hsucceeded
    cases ho : item.outcome <;> simp_all [ActionOutcome.keepsReview]
  · simp only [Bool.or_eq_true, Bool.not_eq_true', hinv, Bool.true_eq_false,
      false_or] at hreconciled
    cases hr : row.reconciliation with
    | none => simp [hr] at hreconciled
    | some r => rfl

/-- **One operation keeps an acknowledged run clear.** -/
theorem Cleared.apply {row row' : RunRow} {op : StoreOperation}
    (hbuilt : JournalBuilt (some row)) (h : row.reviewCleared = true → Cleared row)
    (hkeeps : Undisturbed (some row) op) (happ : row.apply op = .ok row') :
    row'.reviewCleared = true → Cleared row' := by
  have hkeeps := hkeeps row rfl
  have haccepted : ∃ row', row.apply op = .ok row' := ⟨row', happ⟩
  cases op with
  | beginRun _ => cases happ
  | markBlocked _ =>
      cases happ
      exact fun hc => (hkeeps hc).elim
  | recordReconciliation r =>
      cases happ
      exact fun hc => ⟨(h hc).completed, (h hc).notBlocked, fun _ => rfl⟩
  | recordSourceInventory items =>
      obtain ⟨_, -, happ⟩ := bind_eq_ok.mp happ
      cases happ
      exact fun hc => ⟨(h hc).completed, (h hc).notBlocked, hkeeps hc haccepted⟩
  | recordDestinationInventory items =>
      obtain ⟨_, -, happ⟩ := bind_eq_ok.mp happ
      cases happ
      exact fun hc => ⟨(h hc).completed, (h hc).notBlocked, hkeeps hc haccepted⟩
  | recordMirrorResolutions resolutions =>
      obtain ⟨_, -, happ⟩ := bind_eq_ok.mp happ
      cases happ
      exact fun hc => ⟨(h hc).completed, (h hc).notBlocked, (h hc).reconciled⟩
  | appendEvent e =>
      obtain ⟨journal, hevent, happ⟩ := bind_eq_ok.mp happ
      cases happ
      intro hc
      obtain ⟨acc, hinv⟩ := hbuilt row rfl
      obtain ⟨items, hload, hall⟩ := (h hc).completed
      obtain ⟨plan, rfl⟩ := hinv.over hload hall hevent
      obtain ⟨error, herror⟩ := hkeeps hc
      rw [hevent] at herror
      cases herror
  | markReviewCleared =>
      obtain ⟨report, hreport, happ⟩ := bind_eq_ok.mp happ
      obtain ⟨hcan, happ⟩ := ensure_bind_eq_ok.mp happ
      cases happ
      intro _
      have hclear := cleared_of_canMark hreport hcan
      exact ⟨hclear.completed, hclear.notBlocked, hclear.reconciled⟩

/-- Every operation of the list leaves an acknowledged run alone. -/
def AllUndisturbed (runId : RunId) (ops : List StoreOperation) : Prop :=
  ∀ init op tail, ops = init ++ op :: tail → Undisturbed (storeAfter runId init) op

theorem storeAfter_cleared {ops : List StoreOperation} (h : AllUndisturbed runId ops) :
    ∀ row ∈ storeAfter runId ops, row.reviewCleared = true → Cleared row := by
  induction ops using List.reverseRecOn with
  | nil => rintro row ⟨⟩
  | append_singleton ops op ih =>
      have ih := ih fun init op' tail heq => h init op' (tail ++ [op]) (by simp [heq])
      have hop : Undisturbed (storeAfter runId ops) op := h ops op [] rfl
      have hbuilt := storeAfter_journalBuilt runId ops
      unfold storeAfter at *
      rw [offerAll_append, offerAll_cons, offerAll_nil]
      cases hstep : applyOperation runId (offerAll (applyOperation runId) (none, []) ops).1
          op with
      | error x => rwa [offer_of_error hstep]
      | ok run' =>
          rw [offer_of_ok hstep]
          rcases applyOperation_eq_ok hstep with ⟨row, row', hrow, rfl, happ⟩ |
            ⟨-, snapshot, rfl⟩
          · rintro _ ⟨⟩
            rw [hrow] at ih hop hbuilt
            exact Cleared.apply hbuilt (ih row rfl) hop happ
          · rintro _ ⟨⟩ hc
            cases hc

/-- An operation that does disturb the run, and is accepted, takes its
acknowledgement back. -/
theorem not_earned_of_disturbed {row row' : RunRow} {op : StoreOperation}
    (hbuilt : JournalBuilt (some row)) (hop : ¬ Undisturbed (some row) op)
    (happ : row.apply op = .ok row') {report : RunReport}
    (hreport : row'.loadReport = .ok report) : ¬ Earned report := by
  intro hearned
  refine hop ?_
  rintro _ ⟨⟩ _
  obtain ⟨items, a, b, hitems, -, -, rfl⟩ := RunRow.loadReport_eq_ok.mp hreport
  cases op with
  | markBlocked reason =>
      cases happ
      cases hearned.notBlocked
  | recordSourceInventory items =>
      obtain ⟨_, -, happ⟩ := bind_eq_ok.mp happ
      cases happ
      intro _ hinv
      obtain ⟨r, hr, -⟩ := hearned.reconciled hinv
      exact Option.isSome_iff_exists.mpr ⟨r, hr⟩
  | recordDestinationInventory items =>
      obtain ⟨_, -, happ⟩ := bind_eq_ok.mp happ
      cases happ
      intro _ hinv
      obtain ⟨r, hr, -⟩ := hearned.reconciled hinv
      exact Option.isSome_iff_exists.mpr ⟨r, hr⟩
  | appendEvent e =>
      obtain ⟨journal, hevent, happ⟩ := bind_eq_ok.mp happ
      cases happ
      cases e with
      | planned plan =>
          obtain ⟨acc, hinv⟩ := hbuilt row rfl
          obtain ⟨hacc, hinv'⟩ := hinv.append hevent
          have hnil : historyOf acc plan.actionId = [] := hacc.admits
          have hnew : historyOf (acc ++ [.planned plan]) plan.actionId =
              [.planned plan] := by
            have := historyOf_snoc_self acc (.planned plan)
            rwa [show eventActionId (.planned plan) = plan.actionId from rfl, hnil] at this
          obtain ⟨entry, hmem, -, hout⟩ :=
            hinv'.entry_of_history hitems (a := plan.actionId) (by simp [hnew])
          rw [hearned.completed entry hmem, hnew] at hout
          cases hout
      | _ => trivial
  | _ => trivial

end

/-- **Review-Cleared is earned, and stays so while the acknowledged run is
left alone.** An accepted operation that does not leave it alone takes
it back, whatever the report then calls it. -/
theorem reviewCleared_earned (runId : RunId) (ops : List StoreOperation) :
    (AllUndisturbed runId ops → ∀ row ∈ storeAfter runId ops, ∀ report,
      row.loadReport = .ok report → report.lifecycle = .reviewCleared →
        Earned report) ∧
    (∀ row ∈ storeAfter runId ops, ∀ op row', ¬ Undisturbed (some row) op →
      row.apply op = .ok row' → ∀ report, row'.loadReport = .ok report →
        ¬ Earned report) := by
  refine ⟨fun h row hrow report hreport hlife => ?_, fun row hrow op row' hop happ report
    hreport => ?_⟩
  · have hflag : row.reviewCleared = true := by
      obtain ⟨_, _, _, -, -, -, rfl⟩ := RunRow.loadReport_eq_ok.mp hreport
      exact (lifecycle_cleared hlife).1
    exact (storeAfter_cleared h row hrow hflag).earned hreport hlife
  · refine not_earned_of_disturbed (fun d hd => ?_) hop happ hreport
    obtain rfl := Option.some.inj hd
    exact storeAfter_journalBuilt _ ops row hrow

/-! ### A run that is blocked after its acknowledgement -/

def clearedSnapshot : RunSnapshot where
  runId := ⟨1⟩
  snapshotId := 1
  createdAtUnixSeconds := 0
  profile := .new "Documents" ⟨"Laptop", .local ⟨[47, 97]⟩⟩ ⟨"Server", .local ⟨[47, 98]⟩⟩
  validatedOptions := .default
  authorizations := .default
  peerAVolumeIdentity := none
  peerBVolumeIdentity := none

def clearedRun : List StoreOperation :=
  [.beginRun clearedSnapshot,
    .recordReconciliation { sourceDrainStatus := .notApplicable, findings := [] },
    .markReviewCleared]

def clearedRow (blockedReason : Option String) : RunRow :=
  { RunRow.opened clearedSnapshot with
    blockedReason
    reconciliation := some { sourceDrainStatus := .notApplicable, findings := [] }
    reviewCleared := true }

def clearedReport (blockedReason : Option String) : RunReport :=
  { items := []
    status := if blockedReason.isSome then .blocked else .reviewCleared
    executionResult := if blockedReason.isSome then .blocked else .succeeded
    lifecycle := .reviewCleared
    blockedReason
    reconciliation := some { sourceDrainStatus := .notApplicable, findings := [] }
    reconciliationRequired := false
    peerAInventory := none
    peerBInventory := none
    mirrorResolutions := [] }

def reportedCopy : PlanRecord :=
  { samplePlan with operation := .copyToDestination, affectedSide := .peerB }

def reportedFile : InventorySnapshotItem where
  relativePath := reportedCopy.relativePath
  itemType := .regularFile
  outcome := .included
  size := 5
  modifiedAtUnixNanos := none
  readonly := false
  permissions := none
  symlinkTarget := none
  contentFingerprint := none

/-- A file is copied, the copy is reconciled, and the run acknowledged; then its plan is
offered once more. -/
def reconciledRun : List StoreOperation :=
  [.beginRun clearedSnapshot, .recordSourceInventory [reportedFile],
    .recordDestinationInventory [], .appendEvent (.planned reportedCopy),
    .appendEvent (.started 1), .appendEvent (.completed 1),
    .recordReconciliation { sourceDrainStatus := .notApplicable, findings := [] },
    .markReviewCleared, .appendEvent (.planned reportedCopy)]

def reconciledRow : RunRow := (storeAfter ⟨1⟩ reconciledRun).getD (.opened clearedSnapshot)

def reconciledReport : RunReport := reconciledRow.loadReport.toOption.getD (clearedReport none)

/-- Left alone, the acknowledged run is what its report says. -/
theorem clearedRun_earned :
    reconciledReport.items.map (·.plan) = [reportedCopy] ∧
      reconciledReport.reconciliationRequired = true ∧ Earned reconciledReport := by
  refine ⟨by decide +kernel, by decide +kernel, (reviewCleared_earned ⟨1⟩ reconciledRun).1 ?_
    reconciledRow (by decide +kernel) reconciledReport (by decide +kernel) (by decide +kernel)⟩
  -- no state before the acknowledgement is acknowledged, and the offer after it is refused
  have hbefore : ∀ n < 8, ∀ row ∈ storeAfter ⟨1⟩ (reconciledRun.take n),
      row.reviewCleared = false := by decide +kernel
  have hrefused : ∀ row ∈ storeAfter ⟨1⟩ (reconciledRun.take 8),
      (row.journal.appendEvent (.planned reportedCopy)).isOk = false := by decide +kernel
  intro init op tail heq row hrow hcleared
  have hinit : init = reconciledRun.take init.length := by rw [heq, List.take_left]
  have hlen := congrArg List.length heq
  rw [hinit] at hrow
  rcases Nat.lt_or_ge init.length 8 with hlt | hge
  · rw [hbefore init.length hlt row hrow] at hcleared
    cases hcleared
  · have hlast : init.length = 8 := by simp [reconciledRun] at hlen; omega
    have hop : reconciledRun[8]? = some op := by
      simp [heq, ← hlast]
    obtain rfl := Option.some.inj hop
    have hrow := hrefused row (hlast ▸ hrow)
    cases happend : row.journal.appendEvent (.planned reportedCopy) with
    | error error => exact ⟨error, happend⟩
    | ok journal =>
        rw [happend] at hrow
        cases hrow

/-- Blocked afterwards, the run is still reported Review-Cleared. -/
theorem clearedRun_blocked : ¬ ∀ runId ops, ∀ row ∈ storeAfter runId ops, ∀ report,
    row.loadReport = .ok report → report.lifecycle = .reviewCleared → Earned report := by
  intro h
  have := h ⟨1⟩ (clearedRun ++ [.markBlocked "the destination is not mounted"])
    (clearedRow (some "the destination is not mounted")) (by decide +kernel)
    (clearedReport (some "the destination is not mounted")) (by decide +kernel) rfl
  cases this.notBlocked

end SyncPlus
