import SyncPlus.JournalExact
import SyncPlus.ReviewCleared

/-!
# The status Completed

`Completed` is what is left when every other status has been ruled out. A report has it
exactly when the run is not blocked and not acknowledged, every action of its journal
is completed, no Mirror resolution and no finding is open, and the run has been
reconciled if its inventories are recorded (`reportStatus_completed_iff`). In every
history of store operations each action that was planned is one of these
(`completed_status_earned`).
-/

namespace SyncPlus

theorem ActionOutcome.eq_completed {outcome : ActionOutcome} (hprogress : outcome ≠ .inProgress)
    (hreview : outcome.isRecoveryReview = false) (hfailed : outcome.isFailed = false)
    (hinterrupted : outcome ≠ .interrupted) (hcancelled : outcome ≠ .cancelled)
    (hdeferred : outcome ≠ .deferred) (hunresolved : outcome.isUnresolved = false) :
    outcome = .completed := by
  cases outcome <;> simp_all [isRecoveryReview, isFailed, isUnresolved]

/-- The acknowledgement is looked at last. -/
theorem reportStatus_uncleared {items : List ActionJournalEntry}
    {resolutions : List MirrorResolutionReportItem} {blocked inventory : Bool}
    {reconciliation : Option CompletionReconciliation}
    (h : reportStatus items resolutions true blocked reconciliation inventory = .reviewCleared) :
    reportStatus items resolutions false blocked reconciliation inventory = .completed := by
  unfold reportStatus at h ⊢
  iterate 7
    split at h
    · cases h
    rename_i hnot
    rw [if_neg hnot]
  rfl

theorem reportStatus_completed_iff {items : List ActionJournalEntry}
    {resolutions : List MirrorResolutionReportItem} {cleared blocked inventory : Bool}
    {reconciliation : Option CompletionReconciliation} :
    reportStatus items resolutions cleared blocked reconciliation inventory = .completed ↔
      blocked = false ∧ cleared = false ∧ (∀ item ∈ items, item.outcome = .completed) ∧
        (∀ r ∈ resolutions, r.requiresReview = false) ∧
        reconciliationRequiresReview reconciliation = false ∧
        (inventory = true → reconciliation.isSome = true) := by
  constructor
  · intro h
    unfold reportStatus at h
    split_ifs at h with hblocked hprogress hreview hfailed hinterrupted hcancelled hopen hcleared
    simp only [Bool.or_eq_true, not_or, Bool.not_eq_true, List.any_eq_false]
      at hprogress hreview hfailed hinterrupted hcancelled hopen
    refine ⟨by simpa using hblocked, by simpa using hcleared, fun item hitem => ?_, ?_, ?_, ?_⟩
    · have hleft := hopen.1.1.1 item hitem
      exact ActionOutcome.eq_completed (by simpa using hprogress.1 item hitem)
        (by simpa using hreview item hitem) (by simpa using hfailed.1 item hitem)
        (by simpa using hinterrupted item hitem) (by simpa using hcancelled item hitem)
        (by simpa using hleft.1) (by simpa using hleft.2)
    · exact fun r hr => by simpa using hopen.1.1.2 r hr
    · exact hopen.1.2
    · rintro rfl
      simpa using hopen.2
  · rintro ⟨rfl, rfl, hitems, hresolutions, hreconciliation, hinventory⟩
    exact reportStatus_uncleared
      (reportStatus_cleared hitems hresolutions hreconciliation hinventory)

/-- The event a store operation offers to the journal. -/
def StoreOperation.journaled : StoreOperation → Option JournalEvent
  | appendEvent event => some event
  | _ => none

theorem StoreOperation.journaled_eq_some {op : StoreOperation} {event : JournalEvent} :
    op.journaled = some event ↔ op = .appendEvent event := by
  cases op <;> simp [journaled]

/-- The journal holds the events that were accepted. -/
theorem storeAfter_journalInv (runId : RunId) (ops : List StoreOperation) :
    ∀ row ∈ (offerAll (applyOperation runId) (none, []) ops).1,
      JournalInv row.journal.deletionMethod row.journal
        ((offerAll (applyOperation runId) (none, []) ops).2.filterMap StoreOperation.journaled) := by
  have hinv := @offerAll_invariant _ _ _ (applyOperation runId)
    (fun run accepted => (run = none → accepted = []) ∧ ∀ row ∈ run,
      JournalInv row.journal.deletionMethod row.journal
        (accepted.filterMap StoreOperation.journaled)) ?_ (r := (none, []))
    ⟨fun _ => rfl, nofun⟩ ops
  · exact hinv.2
  · rintro run accepted op run' ⟨hnone, hrow⟩ hop
    refine ⟨fun h => ?_, ?_⟩
    · rcases applyOperation_eq_ok hop with ⟨_, _, -, rfl, -⟩ | ⟨-, _, rfl⟩ <;> cases h
    rw [List.filterMap_append]
    rcases applyOperation_eq_ok hop with ⟨row, row', rfl, rfl, happ⟩ | ⟨rfl, snapshot, rfl⟩
    · rintro _ ⟨⟩
      cases hop' : op.journaled with
      | some event =>
          obtain rfl := StoreOperation.journaled_eq_some.mp hop'
          obtain ⟨journal, hevent, happ⟩ := bind_eq_ok.mp happ
          cases happ
          have hinv := ((hrow row rfl).append hevent).2
          rw [List.filterMap_cons_some hop', List.filterMap_nil]
          exact hinv.frozen.symm ▸ hinv
      | none =>
          rcases RunRow.apply_journal happ with ⟨event, rfl, -, -⟩ | heq
          · cases hop'
          · rw [List.filterMap_cons_none hop', List.filterMap_nil, List.append_nil, heq]
            exact hrow row rfl
    · rintro _ ⟨⟩
      have hbegun : [op].filterMap StoreOperation.journaled = [] := by
        cases op with
        | appendEvent event => cases hop
        | _ => rfl
      rw [hnone rfl, hbegun]
      exact JournalInv.opened

/-- An action is planned once, before all else. -/
theorem History.plan?_of_planned {method : Option String} {hs : List JournalEvent}
    (h : History method hs) {plan : PlanRecord} (hmem : .planned plan ∈ hs) :
    plan? hs = some plan := by
  induction h with
  | nil => cases hmem
  | @snoc hs e h hadm ih =>
      rcases List.mem_append.mp hmem with hmem | hmem
      · exact plan?_snoc (ih hmem)
      · obtain rfl := List.mem_singleton.mp hmem
        obtain rfl : hs = [] := hadm
        rfl

/-- What Completed says of a run, with the operations that were accepted. -/
structure CompletedRun (accepted : List StoreOperation) (report : RunReport) : Prop where
  planned : ∀ plan, .appendEvent (.planned plan) ∈ accepted →
    ∃ item ∈ report.items, item.plan = plan ∧ item.outcome = .completed
  completed : ∀ item ∈ report.items, item.outcome = .completed
  notBlocked : report.blockedReason = none
  resolutions : ∀ r ∈ report.mirrorResolutions, r.requiresReview = false
  findings : ∀ r ∈ report.reconciliation, r.findings = []
  reconciled : report.reconciliationRequired = true → report.reconciliation.isSome = true

/-- **Status Completed is earned.** After every history of store operations, accepted or
refused, a run that is reported as completed has every planned action completed, is not
blocked, leaves nothing to review, and was reconciled if its inventories are recorded. -/
theorem completed_status_earned (runId : RunId) (ops : List StoreOperation) :
    let store := offerAll (applyOperation runId) (none, []) ops
    ∀ row ∈ store.1, ∀ report, row.loadReport = .ok report → report.status = .completed →
      CompletedRun store.2 report := by
  intro store row hrow report hreport hstatus
  obtain ⟨items, a, b, hitems, -, -, rfl⟩ := RunRow.loadReport_eq_ok.mp hreport
  obtain ⟨hblocked, -, hcompleted, hresolutions, hfindings, hreconciled⟩ :=
    reportStatus_completed_iff.mp hstatus
  refine ⟨fun plan hplan => ?_, hcompleted, ?_, hresolutions, fun r hr => ?_, hreconciled⟩
  · have hinv := storeAfter_journalInv runId ops row hrow
    have hevent : JournalEvent.planned plan ∈ historyOf
        (store.2.filterMap StoreOperation.journaled) plan.actionId :=
      List.mem_filter.mpr ⟨List.mem_filterMap.mpr ⟨_, hplan, rfl⟩, by simp [eventActionId]⟩
    obtain ⟨item, hitem, hitemPlan, -⟩ :=
      hinv.entry_of_history hitems (List.ne_nil_of_mem hevent)
    have hfirst := (hinv.histories plan.actionId).plan?_of_planned hevent
    rw [hfirst] at hitemPlan
    exact ⟨item, hitem, (Option.some.inj hitemPlan).symm, hcompleted item hitem⟩
  · exact Option.not_isSome_iff_eq_none.mp (by simp [hblocked])
  · have hr : row.reconciliation = some r := hr
    rw [hr] at hfindings
    simpa [reconciliationRequiresReview, CompletionReconciliation.requiresReview] using hfindings

/-! ### A copy that was never reconciled -/

/-- The one action is planned, started and completed; no inventory is recorded. -/
def copiedRun : List StoreOperation :=
  [.beginRun clearedSnapshot, .appendEvent (.planned reportedCopy), .appendEvent (.started 1),
    .appendEvent (.completed 1)]

def copiedRow : RunRow := (storeAfter ⟨1⟩ copiedRun).getD (.opened clearedSnapshot)

def copiedReport : RunReport :=
  copiedRow.loadReport.toOption.getD (clearedReport none)

theorem completed_status_copied : ∀ item ∈ copiedReport.items, item.outcome = .completed :=
  (completed_status_earned ⟨1⟩ copiedRun copiedRow (by decide +kernel) copiedReport
    (by decide +kernel) (by decide +kernel)).completed

/-- The run is reported as completed, without an inventory or a reconciliation. -/
theorem completed_status_unreconciled :
    ¬ ∀ runId ops, ∀ row ∈ storeAfter runId ops, ∀ report, row.loadReport = .ok report →
      report.status = .completed →
        row.inventoriesRecorded = true ∧ ∃ r, report.reconciliation = some r ∧ r.findings = [] := by
  intro h
  have hinventories := (h ⟨1⟩ copiedRun copiedRow (by decide +kernel) copiedReport
    (by decide +kernel) (by decide +kernel)).1
  exact absurd hinventories (by decide +kernel)

end SyncPlus
