import SyncPlus.JournalHistory

/-!
# What one append does

`Stores` ties the table to the accepted events: the rows are the events'
columns in acceptance order, and the rows of one action are numbered
from 0. Under it every query of the writer reads the action's history,
and one append is described once and for all (`appendEvent_eq_ok`): the
event is admitted by its own history, the actions before it are settled,
the binding takes its numbers, and the new row is the event's.
-/

namespace SyncPlus

/-! ## The table and the accepted events -/

structure Stores (run : RunJournal) (accepted : List JournalEvent) : Prop where
  rows : run.actionEvents.map (fun r => (r.actionId, r.fields)) =
    accepted.map fun e => (eventActionId e, EventFields.fromEvent e)
  numbered : ∀ a, (run.rowsOf a).map (·.sequence) =
    (List.range (run.rowsOf a).length).map Int.ofNat

theorem Stores.nil (method : Option String) :
    Stores { deletionMethod := method, actionEvents := [] } [] :=
  ⟨rfl, fun _ => rfl⟩

theorem historyOf_append (acc acc' : List JournalEvent) (a : ActionId) :
    historyOf (acc ++ acc') a = historyOf acc a ++ historyOf acc' a :=
  List.filter_append ..

theorem historyOf_snoc_self (acc : List JournalEvent) (e : JournalEvent) :
    historyOf (acc ++ [e]) (eventActionId e) =
      historyOf acc (eventActionId e) ++ [e] := by
  simp [historyOf]

theorem historyOf_snoc_other {acc : List JournalEvent} {e : JournalEvent}
    {a : ActionId} (h : eventActionId e ≠ a) :
    historyOf (acc ++ [e]) a = historyOf acc a := by
  simp [historyOf, h]

theorem historyOf_actionId {acc : List JournalEvent} {a : ActionId}
    {e : JournalEvent} (h : e ∈ historyOf acc a) : eventActionId e = a := by
  simpa using (List.mem_filter.mp h).2

section

variable {run : RunJournal} {acc : List JournalEvent}

theorem Stores.rowsOf_fields (hst : Stores run acc) (a : ActionId) :
    (run.rowsOf a).map (·.fields) = (historyOf acc a).map EventFields.fromEvent := by
  have h := congrArg
    (fun l => (l.filter fun p : ActionId × EventFields => p.1 = a).map Prod.snd)
    hst.rows
  simpa [List.filter_map, Function.comp_def, RunJournal.rowsOf, historyOf] using h

theorem Stores.rowsIn_fields (hst : Stores run acc) (a : ActionId) (phase : String) :
    (run.rowsIn a phase).map (·.fields) =
      ((historyOf acc a).filter fun e => eventPhase e = phase).map
        EventFields.fromEvent := by
  have h := congrArg (fun l => l.filter fun f : EventFields => f.phase = phase)
    (hst.rowsOf_fields a)
  simpa [List.filter_map, Function.comp_def, RunJournal.rowsIn] using h

/-- The rows of an action stand in sequence order. -/
theorem Stores.ascending (hst : Stores run acc) (a : ActionId) :
    (run.rowsOf a).Pairwise fun r s => r.sequence < s.sequence := by
  rw [← List.pairwise_map (f := fun r : ActionEventRow => r.sequence), hst.numbered a,
    List.pairwise_map]
  exact List.pairwise_lt_range.imp fun h => Int.ofNat_lt.mpr h

theorem Stores.ascendingIn (hst : Stores run acc) (a : ActionId) (phase : String) :
    (run.rowsIn a phase).Pairwise fun r s => r.sequence < s.sequence :=
  (hst.ascending a).sublist List.filter_sublist

end

theorem latestRow_concat (init : List ActionEventRow) (last : ActionEventRow) :
    latestRow (init ++ [last]) =
      match latestRow init with
      | some r => if r.sequence < last.sequence then some last else some r
      | none => some last := by
  rw [latestRow, List.foldl_append]
  rfl

theorem latestRow_mem {rows : List ActionEventRow} {row : ActionEventRow}
    (h : latestRow rows = some row) : row ∈ rows := by
  induction rows using List.reverseRecOn with
  | nil => cases h
  | append_singleton init last ih =>
      rw [latestRow_concat] at h
      split at h
      · split at h
        · simp_all
        · cases h
          exact List.mem_append_left _ (ih ‹_›)
      · simp_all

/-- Among rows in sequence order the latest is the last. -/
theorem latestRow_of_ascending {rows : List ActionEventRow}
    (h : rows.Pairwise fun r s => r.sequence < s.sequence) :
    latestRow rows = rows.getLast? := by
  rcases List.eq_nil_or_concat' rows with rfl | ⟨init, last, rfl⟩
  · rfl
  · rw [List.getLast?_append, List.getLast?_singleton, Option.some_or]
    rw [latestRow_concat]
    cases hm : latestRow init with
    | none => rfl
    | some r =>
        have hr : r ∈ init := latestRow_mem hm
        have := (List.pairwise_append.mp h).2.2 r hr last (by simp)
        simp [this]

/-! ## The writer's queries -/

section

variable {run : RunJournal} {acc : List JournalEvent}

theorem Stores.currentPhase (hst : Stores run acc) (a : ActionId) :
    run.currentPhase a = phase? (historyOf acc a) := by
  unfold RunJournal.currentPhase phase?
  rw [latestRow_of_ascending (hst.ascending a)]
  have h := congrArg List.getLast? (hst.rowsOf_fields a)
  simp only [List.getLast?_map] at h
  calc (run.rowsOf a).getLast?.map (·.fields.phase)
      = ((run.rowsOf a).getLast?.map (·.fields)).map (·.phase) := by
        simp [Function.comp_def]
    _ = ((historyOf acc a).getLast?.map EventFields.fromEvent).map (·.phase) := by
        rw [h]
    _ = (historyOf acc a).getLast?.map eventPhase := by
        simp [Function.comp_def]

/-- The latest row of a phase holds the columns of the latest event of
that phase. -/
theorem Stores.latestIn (hst : Stores run acc) (a : ActionId) (phase : String) :
    (latestRow (run.rowsIn a phase)).map (·.fields) =
      ((historyOf acc a).filter fun e => eventPhase e = phase).getLast?.map
        EventFields.fromEvent := by
  rw [latestRow_of_ascending (hst.ascendingIn a phase), ← List.getLast?_map,
    ← List.getLast?_map, hst.rowsIn_fields]

theorem Stores.nextSequence (hst : Stores run acc) (a : ActionId) :
    run.nextSequence a = (run.rowsOf a).length := by
  unfold RunJournal.nextSequence
  rw [hst.numbered]
  cases hn : (run.rowsOf a).length with
  | zero => rfl
  | succ n =>
      have hmax : ((List.range (n + 1)).map Int.ofNat).max? = some (n : Int) := by
        rw [List.max?_eq_some_iff]
        simp only [List.mem_map, List.mem_range]
        exact ⟨⟨n, by omega, rfl⟩, by rintro _ ⟨m, hm, rfl⟩; simp; omega⟩
      rw [hmax]
      simp

end

/-! ## Histories -/

theorem eventPhase_eq_planned {e : JournalEvent} :
    eventPhase e = "planned" ↔ ∃ plan, e = .planned plan := by
  cases e <;> simp [eventPhase]

theorem Admits.after {method : Option String} {hs : List JournalEvent}
    {e : JournalEvent} (h : Admits method hs e) :
    (∃ plan, e = .planned plan ∧ hs = []) ∨
      (eventPhase e ≠ "planned" ∧
        ∃ ph, phase? hs = some ph ∧ mayFollow (eventPhase e) ph = true) := by
  have key : ∀ {phases : List String}, After hs phases →
      (∀ ph ∈ phases, mayFollow (eventPhase e) ph = true) →
        ∃ ph, phase? hs = some ph ∧ mayFollow (eventPhase e) ph = true :=
    fun ⟨ph, hmem, hph⟩ hall => ⟨ph, hph, hall ph hmem⟩
  cases e with
  | planned plan => exact .inl ⟨plan, rfl, h⟩
  | transferVerified _ _ _ => exact .inr ⟨by simp [eventPhase], key h.2.1 (by simp [eventPhase, mayFollow])⟩
  | proofBoundary _ _ _ _ => exact .inr ⟨by simp [eventPhase], key h.2.1 (by simp [eventPhase, mayFollow])⟩
  | removalStarted _ _ => exact .inr ⟨by simp [eventPhase], key h.1 (by simp [eventPhase, mayFollow])⟩
  | removalCompleted _ _ => exact .inr ⟨by simp [eventPhase], key h.1 (by simp [eventPhase, mayFollow])⟩
  | completed _ => exact .inr ⟨by simp [eventPhase], key h.1 (by simp [eventPhase, mayFollow])⟩
  | recoveryResolved _ _ => exact .inr ⟨by simp [eventPhase], key h.1 (by simp [eventPhase, mayFollow])⟩
  | _ => exact .inr ⟨by simp [eventPhase], key h (by simp [eventPhase, mayFollow])⟩

section

variable {method : Option String} {hs : List JournalEvent}

/-- A history that is not empty opens with its plan, and with no other. -/
theorem History.opens (h : History method hs) (hne : hs ≠ []) :
    ∃ plan tail, hs = .planned plan :: tail ∧
      ∀ e ∈ tail, eventPhase e ≠ "planned" := by
  induction h with
  | nil => exact absurd rfl hne
  | @snoc hs e _ hadm ih =>
      rcases hadm.after with ⟨plan, rfl, rfl⟩ | ⟨hph, ph, hcur, _⟩
      · exact ⟨plan, [], rfl, by simp⟩
      · have hne' : hs ≠ [] := by
          rintro rfl
          cases hcur
        obtain ⟨plan, tail, rfl, htail⟩ := ih hne'
        refine ⟨plan, tail ++ [e], rfl, fun d hd => ?_⟩
        rcases List.mem_append.mp hd with hd | hd
        · exact htail d hd
        · rw [List.mem_singleton.mp hd]
          exact hph

theorem History.plan?_none (h : History method hs) : plan? hs = none ↔ hs = [] := by
  constructor
  · intro hnone
    by_contra hne
    obtain ⟨plan, tail, rfl, _⟩ := h.opens hne
    cases hnone
  · rintro rfl
    rfl

theorem History.filter_planned (h : History method hs) :
    (hs.filter fun e => eventPhase e = "planned") =
      (plan? hs).toList.map .planned := by
  by_cases hne : hs = []
  · subst hne; rfl
  · obtain ⟨plan, tail, rfl, htail⟩ := h.opens hne
    have : tail.filter (fun e => decide (eventPhase e = "planned")) = [] :=
      List.filter_eq_nil_iff.mpr fun e he => by simpa using htail e he
    simp only [List.filter_cons, this]
    rfl

theorem History.phase?_isSome (h : History method hs) {plan : PlanRecord}
    (hplan : plan? hs = some plan) : ∃ ph, phase? hs = some ph := by
  obtain ⟨tail, rfl⟩ := plan?_eq_some.mp hplan
  cases hl : (JournalEvent.planned plan :: tail).getLast? with
  | none => simp at hl
  | some e => exact ⟨eventPhase e, by simp [phase?, hl]⟩

end

/-- What `f` reads last is what it reads of the last event of the phase
that `f` is about. -/
theorem latest?_eq_bind {α : Type} {f : JournalEvent → Option α} {phase : String}
    (hf : ∀ e, (f e).isSome = true ↔ eventPhase e = phase) (hs : List JournalEvent) :
    latest? f hs = (hs.filter fun e => eventPhase e = phase).getLast?.bind f := by
  induction hs using List.reverseRecOn with
  | nil => rfl
  | append_singleton hs e ih =>
      rw [latest?_snoc, ih, List.filter_append]
      cases hfe : f e with
      | none =>
          have : eventPhase e ≠ phase := fun h => by
            have hsome := (hf e).mpr h
            rw [hfe] at hsome
            cases hsome
          simp [this]
      | some x =>
          have : eventPhase e = phase := (hf e).mp (by simp [hfe])
          simp [this, hfe]

/-! ## The writer's checks -/

section

variable {run : RunJournal} {acc : List JournalEvent} {a : ActionId}

theorem Stores.plannedRows_none (hst : Stores run acc)
    (hh : History run.deletionMethod (historyOf acc a))
    (hplan : plan? (historyOf acc a) = none) : run.rowsIn a "planned" = [] := by
  have h := hst.rowsIn_fields a "planned"
  rw [hh.filter_planned, hplan] at h
  simpa using h

theorem Stores.plannedRows_some (hst : Stores run acc)
    (hh : History run.deletionMethod (historyOf acc a)) {plan : PlanRecord}
    (hplan : plan? (historyOf acc a) = some plan) :
    ∃ row, run.rowsIn a "planned" = [row] ∧
      row.fields = EventFields.fromEvent (.planned plan) := by
  have h := hst.rowsIn_fields a "planned"
  rw [hh.filter_planned, hplan] at h
  simp only [Option.toList_some, List.map_cons, List.map_nil] at h
  obtain ⟨row, tail, hrow, hfields, htail⟩ := List.map_eq_cons_iff.mp h
  rw [List.map_eq_nil_iff.mp htail] at hrow
  exact ⟨row, hrow, hfields⟩

theorem Stores.hasPlan (hst : Stores run acc)
    (hh : History run.deletionMethod (historyOf acc a)) :
    run.hasPlan a = (plan? (historyOf acc a)).isSome := by
  unfold RunJournal.hasPlan
  cases hplan : plan? (historyOf acc a) with
  | none => simp [hst.plannedRows_none hh hplan]
  | some plan =>
      obtain ⟨row, hrow, _⟩ := hst.plannedRows_some hh hplan
      simp [hrow]

theorem Stores.plannedOperation (hst : Stores run acc)
    (hh : History run.deletionMethod (historyOf acc a)) :
    run.plannedColumn a (·.operation) =
      .ok ((plan? (historyOf acc a)).map fun plan => encodeOperation plan.operation) := by
  unfold RunJournal.plannedColumn
  cases hplan : plan? (historyOf acc a) with
  | none => simp [hst.plannedRows_none hh hplan]
  | some plan =>
      obtain ⟨row, hrow, hfields⟩ := hst.plannedRows_some hh hplan
      rw [hrow, List.head?_cons]
      simp only [hfields]
      rfl

theorem Stores.plannedItemType (hst : Stores run acc)
    (hh : History run.deletionMethod (historyOf acc a)) :
    run.plannedColumn a (·.preItemType) =
      .ok ((plan? (historyOf acc a)).map fun plan =>
        encodeItemType plan.preAction.itemType) := by
  unfold RunJournal.plannedColumn
  cases hplan : plan? (historyOf acc a) with
  | none => simp [hst.plannedRows_none hh hplan]
  | some plan =>
      obtain ⟨row, hrow, hfields⟩ := hst.plannedRows_some hh hplan
      rw [hrow, List.head?_cons]
      simp only [hfields]
      rfl

/-- The check of verified evidence against the planned source. -/
theorem Stores.validateTransfer (hst : Stores run acc)
    (hh : History run.deletionMethod (historyOf acc a)) {b : ActionId}
    {evidence : RecoveryEvidence} {metadataVerified : Bool} :
    validateTransferEventAgainstPlan run a
        (.transferVerified b evidence metadataVerified) = .ok () ↔
      Planned (historyOf acc a) fun plan =>
        FitsI64 plan.preAction.size ∧
          (plan.regular = true → plan.preAction.sha256.isSome = true) ∧
          evidence.sourceSize = some plan.preAction.size ∧
          evidence.sourceSha256 = plan.preAction.sha256 := by
  unfold Planned validateTransferEventAgainstPlan
  cases hplan : plan? (historyOf acc a) with
  | none =>
      simp [hst.plannedRows_none hh hplan, bind_eq_ok]
  | some plan =>
      obtain ⟨row, hrow, hfields⟩ := hst.plannedRows_some hh hplan
      have hregular : (encodeItemType plan.preAction.itemType = "regular_file") =
          (plan.regular = true) := by simp [PlanRecord.regular]
      simp only [hrow, List.head?_cons, orError_some, bind_ok, hfields,
        EventFields.fromEvent, notNull, Option.bind_some, bind_eq_ok, ensure_eq_ok,
        orError_eq_ok, tryU64_toInt64, decodeHash_toList, Except.ok.injEq, hregular,
        Option.some.injEq]
      constructor
      · rintro ⟨_, ⟨hfits, rfl⟩, _, hsha, hsize, hsrc⟩
        exact ⟨plan, rfl, hfits, hsha, hsize, hsrc⟩
      · rintro ⟨_, rfl, hfits, hsha, hsize, hsrc⟩
        exact ⟨_, ⟨hfits, rfl⟩, (), hsha, hsize, hsrc⟩

/-- The latest row of a phase, through what `f` reads of its event. -/
theorem Stores.latestRow_cases (hst : Stores run acc) {α : Type}
    {f : JournalEvent → Option α} {phase : String}
    (hf : ∀ e, (f e).isSome = true ↔ eventPhase e = phase) :
    (latest? f (historyOf acc a) = none ∧ latestRow (run.rowsIn a phase) = none) ∨
      ∃ e x row, f e = some x ∧ latest? f (historyOf acc a) = some x ∧
        latestRow (run.rowsIn a phase) = some row ∧
        row.fields = EventFields.fromEvent e := by
  have hrow := hst.latestIn a phase
  rw [latest?_eq_bind hf]
  cases hlast : ((historyOf acc a).filter fun e => eventPhase e = phase).getLast? with
  | none =>
      rw [hlast] at hrow
      exact .inl ⟨rfl, Option.map_eq_none_iff.mp hrow⟩
  | some e =>
      rw [hlast] at hrow
      obtain ⟨row, hrow, hfields⟩ := Option.map_eq_some_iff.mp hrow
      have hphase : eventPhase e = phase := by
        simpa using (List.mem_filter.mp (List.mem_of_getLast? hlast)).2
      obtain ⟨x, hx⟩ := Option.isSome_iff_exists.mp ((hf e).mpr hphase)
      exact .inr ⟨e, x, row, hx, hx, hrow, hfields⟩

theorem proofOf_isSome (e : JournalEvent) :
    (proofOf e).isSome = true ↔ eventPhase e = "proof_boundary" := by
  cases e <;> simp [proofOf, eventPhase]

theorem reviewOf_isSome (e : JournalEvent) :
    (reviewOf e).isSome = true ↔ eventPhase e = "recovery_review" := by
  cases e <;> simp [reviewOf, eventPhase]

theorem proofOf_eq_some {e : JournalEvent} {proof : RecoveryEvidence} :
    proofOf e = some proof ↔
      ∃ b m verified, e = .proofBoundary b m proof verified := by
  cases e <;> simp [proofOf]

theorem reviewOf_eq_some {e : JournalEvent} {review : RecoveryEvidence} :
    reviewOf e = some review ↔ ∃ b reason, e = .recoveryReview b reason review := by
  cases e <;> simp [reviewOf]

/-- The check of a removal result against the stored proof boundary. -/
theorem Stores.validateRemovalResult (hst : Stores run acc)
    (hh : History run.deletionMethod (historyOf acc a)) {plan : PlanRecord}
    (hplan : plan? (historyOf acc a) = some plan) {b : ActionId}
    {result : RemovalResult} :
    validateRemovalResultAgainstProof run a (.removalCompleted b result) = .ok () ↔
      ∃ proof, latest? proofOf (historyOf acc a) = some proof ∧
        proof.destinationSize.isSome = true ∧ FitsOpt proof.destinationSize ∧
        (plan.regular = true → proof.destinationSha256.isSome = true) ∧
        result.evidence.destinationSize = proof.destinationSize ∧
        result.evidence.destinationSha256 = proof.destinationSha256 := by
  unfold validateRemovalResultAgainstProof
  obtain ⟨prow, hprow, hpfields⟩ := hst.plannedRows_some hh hplan
  rcases hst.latestRow_cases (a := a) proofOf_isSome with
    ⟨hnone, hrow⟩ | ⟨e, proof, row, he, hlatest, hrow, hfields⟩
  · simp [hnone, hrow, bind_eq_ok]
  · obtain ⟨c, m, verified, rfl⟩ := proofOf_eq_some.mp he
    have hregular : (encodeItemType plan.preAction.itemType = "regular_file") =
        (plan.regular = true) := by simp [PlanRecord.regular]
    have hsize : row.fields.proofDestinationSize =
        proof.destinationSize.map UInt64.toInt64 := by rw [hfields]; rfl
    have hsha : row.fields.proofDestinationSha256 =
        proof.destinationSha256.map List.Vector.toList := by rw [hfields]; rfl
    have htype : prow.fields.preItemType = some (encodeItemType plan.preAction.itemType) := by
      rw [hpfields]; rfl
    simp only [hrow, hprow, hlatest, List.head?_cons, Option.bind_some, orError_some,
      bind_ok, notNull, htype, hsize, hsha, bind_eq_ok, ensure_eq_ok, orError_eq_ok,
      decodeHash_toList, Except.ok.injEq, hregular, Option.some.injEq]
    cases hd : proof.destinationSize with
    | none => simp [hd]
    | some size =>
        simp only [Option.map_some, Option.bind_some, tryU64_toInt64]
        constructor
        · rintro ⟨_, ⟨hfits, rfl⟩, _, hreg, hres, hressha⟩
          exact ⟨proof, rfl, by simp [hd], by simpa [hd] using hfits, hreg,
            by rw [hres, hd], hressha⟩
        · rintro ⟨_, rfl, _, hfits, hreg, hres, hressha⟩
          exact ⟨size, ⟨by simpa [hd] using hfits, rfl⟩, (), hreg, by rw [hres, hd],
            hressha⟩

/-- The check of a completed resolution against its review. -/
theorem Stores.validateResolution (hst : Stores run acc) {b : ActionId}
    {evidence : RecoveryEvidence} :
    validateRecoveryResolution run a (.recoveryResolved b (.completed evidence)) =
        .ok () ↔
      ∃ review, latest? reviewOf (historyOf acc a) = some review ∧
        review.observedAtUnixNanos < evidence.observedAtUnixNanos := by
  unfold validateRecoveryResolution
  rcases hst.latestRow_cases (a := a) reviewOf_isSome with
    ⟨hnone, hrow⟩ | ⟨e, review, row, he, hlatest, hrow, hfields⟩
  · simp [hnone, hrow, bind_eq_ok]
  · obtain ⟨c, reason, rfl⟩ := reviewOf_eq_some.mp he
    have hobserved : row.fields.recoveryObservedAtUnixNanos =
        some review.observedAtUnixNanos := by rw [hfields]; rfl
    simp [hrow, hlatest, hobserved, notNull, bind_ok]

end

/-! ## The order of actions -/

/-- Every action before the event's own is settled, or the event is one
of those that need not wait. -/
def InTurn (accepted : List JournalEvent) (event : JournalEvent) : Prop :=
  match event with
  | .planned _ | .cancelled _ | .interrupted _ => True
  | _ => ∀ b < eventActionId event, ∀ phase ∈ phase? (historyOf accepted b),
      isSettledPhase phase = true

section

variable {run : RunJournal} {acc : List JournalEvent} {a : ActionId}

theorem Stores.mem_actionIds (hst : Stores run acc) {b : ActionId} :
    b ∈ run.actionEvents.map (·.actionId) ↔ historyOf acc b ≠ [] := by
  have h : run.actionEvents.map (·.actionId) = acc.map eventActionId := by
    simpa [Function.comp_def] using congrArg (List.map Prod.fst) hst.rows
  rw [h, historyOf, ne_eq, List.filter_eq_nil_iff]
  simp

theorem Stores.mem_priorActions (hst : Stores run acc) {b : ActionId}
    {phase : String} :
    (b, phase) ∈ run.priorActions a ↔ b < a ∧ phase? (historyOf acc b) = some phase := by
  simp only [RunJournal.priorActions, List.mem_filterMap, List.mem_insertionSort,
    List.mem_dedup, List.mem_filter, hst.mem_actionIds, hst.currentPhase,
    decide_eq_true_eq, Option.map_eq_some_iff, Prod.mk.injEq]
  constructor
  · rintro ⟨c, ⟨_, hc⟩, p, hp, rfl, rfl⟩
    exact ⟨hc, hp⟩
  · rintro ⟨hlt, hp⟩
    refine ⟨b, ⟨?_, hlt⟩, phase, hp, rfl, rfl⟩
    intro hnil
    rw [hnil] at hp
    cases hp

theorem Stores.validateOrder (hst : Stores run acc) {event : JournalEvent} :
    validateActionOrder run (eventActionId event) event = .ok () ↔ InTurn acc event := by
  have hnone : ∀ b, (run.priorActions b).find? (fun p => !isSettledPhase p.2) = none ↔
      ∀ c < b, ∀ phase ∈ phase? (historyOf acc c), isSettledPhase phase = true := by
    intro b
    rw [List.find?_eq_none]
    constructor
    · intro h c hc phase hphase
      simpa using h (c, phase) (hst.mem_priorActions.mpr ⟨hc, hphase⟩)
    · rintro h ⟨c, phase⟩ hmem
      obtain ⟨hc, hphase⟩ := hst.mem_priorActions.mp hmem
      simpa using h c hc phase hphase
  cases event with
  | planned _ => simp [validateActionOrder, InTurn, eventAdvancesAction]
  | cancelled _ => simp [validateActionOrder, InTurn]
  | interrupted _ => simp [validateActionOrder, InTurn]
  | _ =>
      unfold validateActionOrder InTurn
      dsimp only
      rw [← hnone, if_pos (show eventAdvancesAction _ = true from rfl)]
      cases (run.priorActions _).find? (fun p => !isSettledPhase p.2) <;> simp

end

end SyncPlus
