import SyncPlus.ResolutionJournal

/-!
# Resolution runs are journaled

Two states are enough to follow the loop over the actions. As long as nothing went wrong the
trace is clean: no event was refused, what was executed is completed, and what was copied is
a file at both paths; and every action that is left is planned and every other one settled
(`Pending`). After a copy of something else the trace is broken and stays so. A run ends in
one of the two (`journalRun_ends`), which is the condition of the result and its contrary
(`resolution_journaled_iff`).
-/

namespace SyncPlus

/-! ## Copies of files -/

/-- Both paths of a copy held what was planned: the action's item is a regular file, its
content is at the source as it was, and the destination has a file. -/
structure KeepsFile (analysis : FreshAnalysis) (action : ConflictResolutionAction)
    (source destination : PathObservation) : Prop where
  file : ∃ item hash,
    (analysis.inventoryOf (affectedSide action)).item action.relativePath = some item ∧
      item.itemType = .regularFile ∧ FitsI64 item.metadata.size ∧
      item.contentFingerprint = some hash ∧
      source.content = some ⟨item.metadata.size, hash⟩
  source_present : source.present = true
  destination_present : destination.present = true
  destination_file : destination.content.isSome = true

/-! ## Histories -/

section

variable {events own : List JournalEvent} {id other : ActionId}

theorem historyOf_own (h : ∀ event ∈ own, eventActionId event = id) :
    historyOf (events ++ own) id = historyOf events id ++ own := by
  rw [historyOf_append]
  congr 1
  exact List.filter_eq_self.mpr fun event hevent => by simpa using h event hevent

theorem historyOf_apart (h : ∀ event ∈ own, eventActionId event = id) (hne : other ≠ id) :
    historyOf (events ++ own) other = historyOf events other := by
  rw [historyOf_append]
  have hnone : historyOf own other = [] :=
    List.filter_eq_nil_iff.mpr fun event hevent => by
      simpa [h event hevent] using hne.symm
  rw [hnone, List.append_nil]

end

namespace ConfirmedResolutionRun

variable {confirmed : ConfirmedResolutionRun} {debug : PathBuf → String}
  {method : Option String} {action : ConflictResolutionAction}
  {todo rest : List ConflictResolutionAction} {events own : List JournalEvent}
  {event : JournalEvent}

/-! ## Actions that are left -/

/-- The actions that are left are planned, and every other one is settled. -/
structure Pending (confirmed : ConfirmedResolutionRun) (debug : PathBuf → String)
    (todo : List ConflictResolutionAction) (events : List JournalEvent) : Prop where
  planned : ∀ action ∈ todo, ∃ plan, resolutionPlanRecord debug confirmed.freshAnalysis
    (confirmed.number action) action = .ok plan ∧
      historyOf events (confirmed.number action) = [.planned plan]
  settled : ∀ id, ∀ phase ∈ phase? (historyOf events id),
    isSettledPhase phase = true ∨ ∃ action ∈ todo, confirmed.number action = id

/-- The first action that is left is accepted what its own history admits. -/
theorem Pending.accepts (h : Pending confirmed debug (action :: rest) events)
    (hlt : ∀ other ∈ rest, confirmed.number action < confirmed.number other)
    (hfits : FitsI64 (confirmed.number action))
    (hown : ∀ event ∈ own, eventActionId event = confirmed.number action)
    (hid : eventActionId event = confirmed.number action)
    (hadmits : Admits method (historyOf events (confirmed.number action) ++ own) event)
    (hbinds : Binds event) : Accepts method (events ++ own) event := by
  refine ⟨hid ▸ hfits, ?_, ?_, hbinds⟩
  · rw [hid, historyOf_own hown]
    exact hadmits
  · have hturn : ∀ b < confirmed.number action, ∀ phase ∈ phase? (historyOf (events ++ own) b),
        isSettledPhase phase = true := by
      intro b hb phase hphase
      rw [historyOf_apart hown (UInt64.ne_of_lt hb)] at hphase
      rcases h.settled b phase hphase with hsettled | ⟨waiting, hwaiting, rfl⟩
      · exact hsettled
      · rcases List.mem_cons.mp hwaiting with rfl | hwaiting
        · exact absurd hb (UInt64.lt_irrefl _)
        · exact absurd (UInt64.lt_trans hb (hlt waiting hwaiting)) (UInt64.lt_irrefl _)
    unfold InTurn
    split
    · trivial
    · trivial
    · trivial
    · rw [hid]
      exact hturn

theorem Pending.settle (h : Pending confirmed debug (action :: rest) events)
    (hlt : ∀ other ∈ rest, confirmed.number action < confirmed.number other)
    (hown : ∀ event ∈ own, eventActionId event = confirmed.number action)
    (hphase : ∀ phase ∈ phase? (historyOf events (confirmed.number action) ++ own),
      isSettledPhase phase = true) : Pending confirmed debug rest (events ++ own) := by
  refine ⟨?_, ?_⟩
  · intro other hother
    obtain ⟨plan, hplan, hhistory⟩ := h.planned other (List.mem_cons_of_mem _ hother)
    refine ⟨plan, hplan, ?_⟩
    rw [historyOf_apart hown (UInt64.ne_of_lt (hlt other hother)).symm, hhistory]
  · intro id phase hmem
    by_cases hid : id = confirmed.number action
    · subst hid
      rw [historyOf_own hown] at hmem
      exact .inl (hphase phase hmem)
    · rw [historyOf_apart hown hid] at hmem
      rcases h.settled id phase hmem with hsettled | ⟨waiting, hwaiting, rfl⟩
      · exact .inl hsettled
      · rcases List.mem_cons.mp hwaiting with rfl | hwaiting
        · exact absurd rfl hid
        · exact .inr ⟨waiting, hwaiting, rfl⟩

/-! ## Clean and broken traces -/

variable {calls calls' new : List (Call ResolutionAnswer)} {plan : PlanRecord}

/-- Nothing was refused, what was executed is completed, what was copied is a file. -/
structure Clean (confirmed : ConfirmedResolutionRun) (calls : List (Call ResolutionAnswer)) :
    Prop where
  accepted : ∀ event error, .rejected event error ∉ calls
  completed : ∀ action, .answered (.executed action (.ok ())) ∈ calls →
    latest? outcomeOf (historyOf (SyncPlus.accepted calls) (confirmed.number action)) =
      some .completed
  copied : ∀ action source destination,
    .answered (.transferred action source destination) ∈ calls →
      KeepsFile confirmed.freshAnalysis action source destination

/-- An event was refused, and something that was copied is no file. -/
structure Broken (confirmed : ConfirmedResolutionRun) (calls : List (Call ResolutionAnswer)) :
    Prop where
  refused : ∃ event error, .rejected event error ∈ calls
  copied : ∃ action source destination,
    .answered (.transferred action source destination) ∈ calls ∧
      ¬ KeepsFile confirmed.freshAnalysis action source destination

theorem Broken.mono (h : Broken confirmed calls) (hsub : calls ⊆ calls') :
    Broken confirmed calls' := by
  obtain ⟨⟨event, error, hrefused⟩, action, source, destination, hcopied, hnot⟩ := h
  exact ⟨⟨event, error, hsub hrefused⟩, action, source, destination, hsub hcopied, hnot⟩

/-- What an action may add to a clean trace. -/
structure Extends (confirmed : ConfirmedResolutionRun) (action : ConflictResolutionAction)
    (history : List JournalEvent) (new : List (Call ResolutionAnswer)) : Prop where
  own : ∀ event ∈ SyncPlus.accepted new, eventActionId event = confirmed.number action
  accepted : ∀ event error, .rejected event error ∉ new
  settled : ∀ phase ∈ phase? (history ++ SyncPlus.accepted new), isSettledPhase phase = true
  completed : ∀ other, .answered (.executed other (.ok ())) ∈ new → other = action ∧
    latest? outcomeOf (history ++ SyncPlus.accepted new) = some .completed
  copied : ∀ other source destination,
    .answered (.transferred other source destination) ∈ new →
      KeepsFile confirmed.freshAnalysis other source destination

/-- **One action.** A clean trace stays clean. -/
theorem Clean.extend (h : Clean confirmed calls)
    (hpending : Pending confirmed debug (action :: rest) (SyncPlus.accepted calls))
    (hlt : ∀ other ∈ rest, confirmed.number action < confirmed.number other)
    (hnew : Extends confirmed action
      (historyOf (SyncPlus.accepted calls) (confirmed.number action)) new) :
    Clean confirmed (calls ++ new) ∧
      Pending confirmed debug rest (SyncPlus.accepted (calls ++ new)) := by
  rw [accepted_append]
  refine ⟨⟨?_, ?_, ?_⟩, hpending.settle hlt hnew.own hnew.settled⟩
  · intro event error hmem
    rcases List.mem_append.mp hmem with hmem | hmem
    · exact h.accepted event error hmem
    · exact hnew.accepted event error hmem
  · intro other hmem
    rw [accepted_append]
    rcases List.mem_append.mp hmem with hmem | hmem
    · have hcompleted := h.completed other hmem
      -- the action itself is only planned so far
      have hne : confirmed.number other ≠ confirmed.number action := by
        intro heq
        obtain ⟨plan, -, hhistory⟩ := hpending.planned action List.mem_cons_self
        rw [heq, hhistory] at hcompleted
        cases hcompleted
      rw [historyOf_apart hnew.own hne]
      exact hcompleted
    · obtain ⟨rfl, hcompleted⟩ := hnew.completed other hmem
      rw [historyOf_own hnew.own]
      exact hcompleted
  · intro other source destination hmem
    rcases List.mem_append.mp hmem with hmem | hmem
    · exact h.copied other source destination hmem
    · exact hnew.copied other source destination hmem

/-! ## One execution -/

section

variable {σ : Type} {env : ResolutionSurroundings σ}
  {E : ActionReason → Machine σ ResolutionAnswer → Prop}

/-- The trace is clean, and these actions are left. -/
def Next (confirmed : ConfirmedResolutionRun) (debug : PathBuf → String)
    (method : Option String) (todo : List ConflictResolutionAction)
    (m : Machine σ ResolutionAnswer) : Prop :=
  ∃ c, m.At method c ∧ Clean confirmed c ∧ Pending confirmed debug todo (SyncPlus.accepted c)

theorem offerEvent_accepted (h : Accepts method (SyncPlus.accepted calls) event) :
    Triple (Machine.At method calls) (offerEvent event : ResolutionProgram σ ActionReason Unit)
      (fun _ m => m.At method (calls ++ [.journaled event])) E := by
  refine (appendEvent_accepted h).bind fun r => .of_pre ?_
  rintro rfl
  exact .pure fun _ hm => hm

theorem boundaryEvidence_seen {ε : Type} {F : ε → Machine σ ResolutionAnswer → Prop}
    {paths : PathBuf × PathBuf} (h : boundaryPaths confirmed.freshAnalysis action = some paths)
    (answer : PathObservation → PathObservation → ResolutionAnswer) :
    Triple (Machine.At method calls)
      (boundaryEvidence env confirmed.freshAnalysis action (some answer) :
        ResolutionProgram σ ε RecoveryEvidence)
      (fun evidence m => ∃ source destination now,
        evidence = observedEvidence now source destination ∧
          m.At method (calls ++ [.answered (answer source destination)])) F := by
  unfold boundaryEvidence
  rw [h]
  refine inquire_at.bind fun seen => ?_
  obtain ⟨source, destination⟩ := seen
  refine record_at.bind fun _ => inquire_at.bind fun now => .pure fun m hm => ?_
  exact ⟨source, destination, now, rfl, hm⟩

/-- What is accepted after a copy. -/
theorem admits_transferVerified {item : InventoryItem} {id : ActionId} {now : Int64}
    {source destination : PathObservation}
    (hitem : (confirmed.freshAnalysis.inventoryOf (affectedSide action)).item
      action.relativePath = some item)
    (hoperation : plan.operation = .copyToDestination)
    (hsize : plan.preAction.size = item.metadata.size)
    (hhash : plan.preAction.sha256 = item.contentFingerprint) :
    Admits method [.planned plan, .started id]
        (.transferVerified id (observedEvidence now source destination) true) ↔
      KeepsFile confirmed.freshAnalysis action source destination := by
  have hplanned : ∀ P : PlanRecord → Prop,
      Planned [.planned plan, .started id] P ↔ P plan := fun P => by simp [Planned, plan?]
  have hafter : After [.planned plan, .started id] ["started", "progress"] := by
    simp [After, phase?, eventPhase]
  have htransfers : PlanActionKind.transfers .copyToDestination = true := rfl
  simp only [Admits, hplanned, hafter, true_and, hoperation, hsize, hhash,
    htransfers, IndependentProof, observedEvidence, RecoveryEvidence.new,
    Option.isSome_map]
  constructor
  · rintro ⟨⟨hsource, hdestination, -, -, hfile, -⟩, hfits, hsame, hsha⟩
    obtain ⟨proof, hproof, hproofSize⟩ := Option.map_eq_some_iff.mp hsame
    rw [hproof, Option.map_some] at hsha
    have hregular := confirmed.regular_of_fingerprint hitem (by rw [← hsha]; rfl)
    refine ⟨⟨item, proof.sha256, hitem, hregular, hfits, hsha.symm, ?_⟩, hsource, hdestination,
      hfile⟩
    rw [hproof, ← hproofSize]
  · rintro ⟨⟨found, hash, hfound, -, hfits, hfingerprint, hcontent⟩, hsource, hdestination,
      hfile⟩
    obtain rfl := Option.some.inj (hitem.symm.trans hfound)
    simp [hsource, hdestination, hfile, hcontent, hfits, hfingerprint]

/-- Whatever is added, a broken trace stays broken. -/
theorem Broken.keeps {ε α : Type} {p : ResolutionProgram σ ε α} (h : Adds (fun _ => True) p) :
    Triple (fun m => Broken confirmed m.calls) p (fun _ m => Broken confirmed m.calls)
      fun _ m => Broken confirmed m.calls :=
  h.keeps fun _ _ _ hbroken => hbroken.mono (List.subset_append_left _ _)

theorem adds_offerEvent (event : JournalEvent) :
    Adds (fun _ => True) (offerEvent event : ResolutionProgram σ ActionReason Unit) :=
  (Adds.appendEvent ⟨trivial, fun _ => trivial⟩).bind fun r => by
    cases r
    · exact .fail
    · exact .pure

theorem adds_boundaryEvidence {ε : Type} (analysis : FreshAnalysis)
    (action : ConflictResolutionAction) :
    Adds (fun _ => True)
      (boundaryEvidence env analysis action none : ResolutionProgram σ ε RecoveryEvidence) := by
  unfold boundaryEvidence
  split
  · exact Adds.inquire.bind fun _ => .pure
  · exact Adds.inquire.bind fun _ => Adds.pure.bind fun _ => Adds.inquire.bind fun _ => .pure

theorem adds_recordRecoveryReview (analysis : FreshAnalysis) (id : ActionId)
    (action : ConflictResolutionAction) :
    Adds (fun _ => True) (recordRecoveryReview env analysis id action) :=
  (adds_boundaryEvidence analysis action).bind fun _ => adds_offerEvent _

/-- An action that is left, and the actions after it. -/
structure Head (confirmed : ConfirmedResolutionRun) (debug : PathBuf → String)
    (calls : List (Call ResolutionAnswer)) (action : ConflictResolutionAction)
    (rest : List ConflictResolutionAction) : Prop where
  mem : action ∈ confirmed.actions
  lt : ∀ other ∈ rest, confirmed.number action < confirmed.number other
  fits : FitsI64 (confirmed.number action)
  clean : Clean confirmed calls
  pending : Pending confirmed debug (action :: rest) (SyncPlus.accepted calls)

/-- The plan record of an action that is left, and the item it is about. -/
theorem Head.planned (h : Head confirmed debug calls action rest) :
    ∃ plan item,
      (confirmed.freshAnalysis.inventoryOf (affectedSide action)).item action.relativePath =
        some item ∧
      plan.operation = .copyToDestination ∧ plan.preAction.size = item.metadata.size ∧
      plan.preAction.sha256 = item.contentFingerprint ∧
      historyOf (SyncPlus.accepted calls) (confirmed.number action) = [.planned plan] := by
  obtain ⟨plan, hplan, hhistory⟩ := h.pending.planned action List.mem_cons_self
  obtain ⟨plan', item, hplan', hitem, -, hoperation, hsize, hhash, -⟩ :=
    ConfirmedResolutionRun.planned h.mem (confirmed.number action)
  obtain rfl := Except.ok.inj (hplan.symm.trans hplan')
  exact ⟨plan, item, hitem, hoperation, hsize, hhash, hhistory⟩

/-- The next event of the action is accepted when its history admits it. -/
theorem Head.accepts (h : Head confirmed debug calls action rest)
    (hnew : ∀ event ∈ SyncPlus.accepted new, eventActionId event = confirmed.number action)
    (hid : eventActionId event = confirmed.number action)
    (hadmits : Admits method (historyOf (SyncPlus.accepted calls) (confirmed.number action) ++
      SyncPlus.accepted new) event)
    (hbinds : Binds event) : Accepts method (SyncPlus.accepted (calls ++ new)) event := by
  rw [accepted_append]
  exact h.pending.accepts h.lt h.fits hnew hid hadmits hbinds

theorem Head.next (h : Head confirmed debug calls action rest) {m : Machine σ ResolutionAnswer}
    (hm : m.At method (calls ++ new))
    (hnew : Extends confirmed action
      (historyOf (SyncPlus.accepted calls) (confirmed.number action)) new) :
    Next confirmed debug method rest m :=
  ⟨_, hm, h.clean.extend h.pending h.lt hnew⟩

/-- A copy has two sides. -/
theorem exists_boundaryPaths (haction : action ∈ confirmed.actions)
    (hcopy : action.operation = .copyWholeFile) (analysis : FreshAnalysis) :
    ∃ paths, boundaryPaths analysis action = some paths := by
  have hdecision := eq_fromDecision haction
  generalize action.pathDecision = decision at hdecision
  obtain ⟨key, resolution⟩ := decision
  subst hdecision
  cases resolution <;> first
    | exact ⟨_, rfl⟩
    | cases hcopy

/-- What the trace has of the execution of an action. -/
def executed (id : ActionId) (action : ConflictResolutionAction)
    (outcome : Except ActionReason Unit) : List (Call ResolutionAnswer) :=
  [.journaled (.started id), .answered (.executed action outcome)]

/-- What it has of the boundary of a copy. -/
def verified (id : ActionId) (action : ConflictResolutionAction)
    (source destination : PathObservation) (now : Int64) : List (Call ResolutionAnswer) :=
  [.answered (.transferred action source destination),
    .journaled (.transferVerified id (observedEvidence now source destination) true)]

/-- **The boundary of a copy**: it is accepted for files, and for them alone. -/
theorem verifyTransferred_spec (h : Head confirmed debug calls action rest)
    (hcopy : action.operation = .copyWholeFile) :
    Triple
      (Machine.At method (calls ++ executed (confirmed.number action) action (.ok ())))
      (verifyTransferred env confirmed.freshAnalysis (confirmed.number action) action)
      (fun _ m => ∃ source destination now,
        KeepsFile confirmed.freshAnalysis action source destination ∧
          m.At method (calls ++ (executed (confirmed.number action) action (.ok ()) ++
            verified (confirmed.number action) action source destination now)))
      fun reason m => reason = .interruptedBoundary ∧ Broken confirmed m.calls := by
  obtain ⟨plan, item, hitem, hoperation, hsize, hhash, hhistory⟩ := h.planned
  obtain ⟨paths, hpaths⟩ := exists_boundaryPaths h.mem hcopy confirmed.freshAnalysis
  refine (boundaryEvidence_seen hpaths _).bind fun evidence => ?_
  refine .exists_pre fun source => .exists_pre fun destination => .exists_pre fun now =>
    .of_pre ?_
  rintro rfl
  have hadmits := @admits_transferVerified _ method _ _ _ (confirmed.number action) now source
    destination hitem hoperation hsize hhash
  have hbinds : Binds (.transferVerified (confirmed.number action)
      (observedEvidence now source destination) true) := by
    simp [Binds, plan?, evidenceOf, observedEvidence, RecoveryEvidence.new]
  by_cases hfile : KeepsFile confirmed.freshAnalysis action source destination
  · have haccepts : Accepts method (SyncPlus.accepted (calls ++
        executed (confirmed.number action) action (.ok ()) ++
          [.answered (.transferred action source destination)]))
        (.transferVerified (confirmed.number action)
          (observedEvidence now source destination) true) := by
      rw [List.append_assoc]
      refine h.accepts (by simp [executed, eventActionId]) rfl ?_ hbinds
      rw [hhistory]
      exact hadmits.mpr hfile
    refine (appendEvent_accepted haccepts).bind fun r => .of_pre ?_
    rintro rfl
    refine .pure fun m hm => ⟨source, destination, now, hfile, ?_⟩
    simpa [verified] using hm
  · have hrefused : ¬ Accepts method (SyncPlus.accepted (calls ++
        executed (confirmed.number action) action (.ok ()) ++
          [.answered (.transferred action source destination)]))
        (.transferVerified (confirmed.number action)
          (observedEvidence now source destination) true) := by
      intro haccepts
      have hhere := haccepts.admits
      have hown : ∀ event ∈ SyncPlus.accepted (executed (confirmed.number action) action (.ok ())),
          eventActionId event = confirmed.number action := by simp [executed, eventActionId]
      rw [accepted_append, accepted_append, accepted_cons_answered, accepted_nil,
        List.append_nil] at hhere
      rw [show eventActionId (.transferVerified (confirmed.number action)
        (observedEvidence now source destination) true) = confirmed.number action from rfl,
        historyOf_own hown, hhistory] at hhere
      exact hfile (hadmits.mp hhere)
    refine (appendEvent_refused hrefused).bind fun r => .exists_pre fun error => .of_pre ?_
    rintro rfl
    have hbroken : ∀ m : Machine σ ResolutionAnswer, m.At method (calls ++
        executed (confirmed.number action) action (.ok ()) ++
          [.answered (.transferred action source destination)] ++
        [.rejected (.transferVerified (confirmed.number action)
          (observedEvidence now source destination) true) error]) → Broken confirmed m.calls := by
      rintro m ⟨hcalls, -⟩
      rw [hcalls]
      exact ⟨⟨_, error, List.mem_append_right _ (List.mem_singleton.mpr rfl)⟩, action, source,
        destination, by simp, hfile⟩
    refine ((Broken.keeps (adds_recordRecoveryReview _ _ _)).pre hbroken).attempt.bind
      fun _ => .fail fun m hm => ⟨rfl, hm⟩

/-- The end of an execution that may be settled. -/
theorem finish_spec (h : Head confirmed debug calls action rest)
    {outcome : Except ActionReason Unit}
    (haccepts : Accepts method (SyncPlus.accepted (calls ++ new))
      (settlingEvent (confirmed.number action) outcome))
    (hextends : Extends confirmed action
      (historyOf (SyncPlus.accepted calls) (confirmed.number action))
      (new ++ [.journaled (settlingEvent (confirmed.number action) outcome)])) :
    Triple (Machine.At method (calls ++ new))
      (do
        match ← (finish env confirmed.freshAnalysis (confirmed.number action) action
          outcome).attempt with
        | .ok () => .ofExcept outcome
        | .error (_ : ActionReason) => .fail .interruptedBoundary :
          ResolutionProgram σ ActionReason Unit)
      (fun _ m => Next confirmed debug method rest m)
      fun _ m => Next confirmed debug method rest m := by
  have hfinish : Triple (Machine.At method (calls ++ new))
      (finish env confirmed.freshAnalysis (confirmed.number action) action outcome)
      (fun _ m => Next confirmed debug method rest m) fun _ _ => False := by
    refine (appendEvent_accepted haccepts).bind fun r => .of_pre ?_
    rintro rfl
    refine .pure fun m hm => h.next ?_ hextends
    rwa [← List.append_assoc]
  refine Triple.bind (.attempt (Q := fun r m => r = .ok () ∧ Next confirmed debug method rest m)
    (hfinish.weaken (fun _ hm => hm) (fun _ _ hm => ⟨rfl, hm⟩) fun _ _ hm => hm.elim)) fun r => ?_
  refine .of_pre ?_
  rintro rfl
  exact .ofExcept (fun _ _ _ hm => hm) fun _ _ _ hm => hm

/-- What settles an action that was executed is admitted. -/
theorem admits_settlingEvent {id : ActionId} {outcome : Except ActionReason Unit}
    {history : List JournalEvent} (hplan : plan? history = some plan)
    (hoperation : plan.operation = .copyToDestination) (hafter : After history runningPhases) :
    Admits method history (settlingEvent id outcome) := by
  cases outcome with
  | error reason => exact hafter
  | ok value =>
      refine ⟨hafter, plan, hplan, fun hremoves => ?_⟩
      rw [hoperation] at hremoves
      cases hremoves

theorem binds_settlingEvent {id : ActionId} {outcome : Except ActionReason Unit} :
    Binds (settlingEvent id outcome) := by
  cases outcome <;> simp [settlingEvent, Binds, plan?, evidenceOf]

/-- An execution that is not verified, and settled. -/
theorem extends_executed {outcome : Except ActionReason Unit} {history : List JournalEvent} :
    Extends confirmed action history
      (executed (confirmed.number action) action outcome ++
        [.journaled (settlingEvent (confirmed.number action) outcome)]) := by
  refine ⟨?_, ?_, ?_, ?_, ?_⟩
  · cases outcome <;> simp [executed, settlingEvent, eventActionId]
  · simp [executed]
  · rw [accepted_append, ← List.append_assoc]
    cases outcome <;> simp [phase?, settlingEvent, eventPhase, isSettledPhase, settledPhases]
  · intro other hother
    simp only [executed, List.cons_append, List.nil_append, List.mem_cons, reduceCtorEq,
      Call.answered.injEq, ResolutionAnswer.executed.injEq, List.not_mem_nil, or_false,
      false_or] at hother
    obtain ⟨rfl, rfl⟩ := hother
    refine ⟨rfl, ?_⟩
    rw [accepted_append, ← List.append_assoc]
    exact latest?_snoc.trans rfl
  · simp [executed]

/-- A copy that is verified, and settled. -/
theorem extends_verified {history : List JournalEvent} {source destination : PathObservation}
    {now : Int64} (hfile : KeepsFile confirmed.freshAnalysis action source destination) :
    Extends confirmed action history
      ((executed (confirmed.number action) action (.ok ()) ++
        verified (confirmed.number action) action source destination now) ++
          [.journaled (settlingEvent (confirmed.number action) (.ok ()))]) := by
  refine ⟨?_, ?_, ?_, ?_, ?_⟩
  · simp [executed, verified, settlingEvent, eventActionId]
  · simp [executed, verified]
  · rw [accepted_append, ← List.append_assoc]
    simp [phase?, settlingEvent, eventPhase, isSettledPhase, settledPhases]
  · intro other hother
    have hsame : other = action := by simpa [executed, verified] using hother
    refine ⟨hsame, ?_⟩
    rw [accepted_append, ← List.append_assoc]
    exact latest?_snoc.trans rfl
  · intro other source' destination' hother
    have hsame : other = action ∧ source' = source ∧ destination' = destination := by
      simpa [executed, verified] using hother
    obtain ⟨rfl, rfl, rfl⟩ := hsame
    exact hfile

/-- **One execution.** It settles the action on a clean trace, or breaks the trace and fails
as interrupted. -/
theorem executeJournaled_spec (h : Head confirmed debug calls action rest) :
    Triple (Machine.At method calls)
      (executeJournaled env confirmed.freshAnalysis (confirmed.number action) action)
      (fun _ m => Next confirmed debug method rest m)
      fun reason m => Next confirmed debug method rest m ∨
        reason = .interruptedBoundary ∧ Broken confirmed m.calls := by
  obtain ⟨plan, item, -, hoperation, -, -, hhistory⟩ := h.planned
  have hstarted : Accepts method (SyncPlus.accepted calls) (.started (confirmed.number action)) := by
    rw [← List.append_nil calls]
    refine h.accepts (by simp) rfl ?_ (binds_of_bare rfl rfl)
    simp [hhistory, Admits, After, phase?, eventPhase]
  refine (offerEvent_accepted hstarted).bind fun _ => ask_at.bind fun outcome => ?_
  rw [List.append_assoc]
  have hexecuted : ∀ outcome, Accepts method (SyncPlus.accepted (calls ++
      executed (confirmed.number action) action outcome))
      (settlingEvent (confirmed.number action) outcome) := by
    intro outcome
    refine h.accepts (by simp [executed, eventActionId]) (by cases outcome <;> rfl) ?_
      binds_settlingEvent
    rw [hhistory]
    exact admits_settlingEvent rfl hoperation
      (by simp [executed, After, phase?, eventPhase, runningPhases])
  by_cases hverifies : outcome.isOk = true ∧ action.operation = .copyWholeFile
  · obtain ⟨hok, hcopy⟩ := hverifies
    rw [if_pos ⟨hok, hcopy⟩]
    cases outcome with
    | error reason => cases hok
    | ok value =>
        refine ((verifyTransferred_spec h hcopy).weaken (fun _ hm => hm) (fun _ _ hm => hm)
          fun _ _ hm => .inr hm).bind fun _ => ?_
        refine .exists_pre fun source => .exists_pre fun destination => .exists_pre fun now =>
          .of_pre fun hfile => ?_
        refine (finish_spec h ?_ (extends_verified hfile)).weaken (fun _ hm => hm)
          (fun _ _ hm => hm) fun _ _ hm => .inl hm
        refine h.accepts (by simp [executed, verified, eventActionId]) rfl ?_ binds_settlingEvent
        rw [hhistory]
        exact admits_settlingEvent rfl hoperation
          (by simp [executed, verified, After, phase?, eventPhase, runningPhases])
  · rw [if_neg hverifies]
    refine Triple.bind (Q := fun _ m => m.At method
      (calls ++ executed (confirmed.number action) action outcome)) (.pure fun _ hm => hm)
      fun _ => ?_
    exact (finish_spec h (hexecuted outcome) extends_executed).weaken (fun _ hm => hm)
      (fun _ _ hm => hm) fun _ _ hm => .inl hm

/-! ## The loop -/

/-- Events of the action, the last of which settles it. -/
theorem extends_events {history : List JournalEvent} (front : List JournalEvent)
    (last : JournalEvent)
    (hown : ∀ event ∈ front ++ [last], eventActionId event = confirmed.number action)
    (hsettled : isSettledPhase (eventPhase last) = true) :
    Extends confirmed action history ((front ++ [last]).map .journaled) := by
  have haccepted : SyncPlus.accepted ((front ++ [last]).map (Call.journaled (χ :=
      ResolutionAnswer))) = front ++ [last] := by
    unfold SyncPlus.accepted
    rw [List.filterMap_map]
    exact List.filterMap_some
  refine ⟨?_, ?_, ?_, ?_, ?_⟩
  · rw [haccepted]
    exact hown
  · simp
  · rw [haccepted, ← List.append_assoc, phase?_snoc]
    simpa using hsettled
  · simp
  · simp

/-- A program follows from a clean trace what it follows from each. -/
theorem Next.pre {ε α : Type} {p : ResolutionProgram σ ε α}
    {Q : α → Machine σ ResolutionAnswer → Prop} {F : ε → Machine σ ResolutionAnswer → Prop}
    (h : ∀ c, Clean confirmed c → Pending confirmed debug todo (SyncPlus.accepted c) →
      Triple (Machine.At method c) p Q F) :
    Triple (Next confirmed debug method todo) p Q F := by
  rintro m ⟨c, hm, hclean, hpending⟩
  exact h c hclean hpending m hm

/-- Offers of the action alone. -/
theorem Head.accepts_first (h : Head confirmed debug calls action rest)
    (hid : eventActionId event = confirmed.number action)
    (hadmits : ∀ plan : PlanRecord, Admits method [.planned plan] event) (hbinds : Binds event) :
    Accepts method (SyncPlus.accepted calls) event := by
  obtain ⟨plan, -, -, -, -, -, hhistory⟩ := h.planned
  rw [← List.append_nil calls]
  refine h.accepts (by simp) hid ?_ hbinds
  rw [hhistory]
  exact hadmits plan

theorem Head.accepts_second (h : Head confirmed debug calls action rest)
    (hid : eventActionId event = confirmed.number action)
    (hadmits : ∀ plan : PlanRecord,
      Admits method [.planned plan, .started (confirmed.number action)] event)
    (hbinds : Binds event) :
    Accepts method (SyncPlus.accepted (calls ++
      [.journaled (.started (confirmed.number action))])) event := by
  obtain ⟨plan, -, -, -, -, -, hhistory⟩ := h.planned
  refine h.accepts (by simp [eventActionId]) hid ?_ hbinds
  rw [hhistory]
  exact hadmits plan

theorem Head.accepts_started (h : Head confirmed debug calls action rest) :
    Accepts method (SyncPlus.accepted calls) (.started (confirmed.number action)) :=
  h.accepts_first rfl (fun plan => by simp [Admits, After, phase?, eventPhase])
    (binds_of_bare rfl rfl)

theorem deferJournaled_spec (h : Head confirmed debug calls action rest) :
    Triple (Machine.At method calls)
      (deferJournaled (confirmed.number action) : ResolutionProgram σ ActionReason Unit)
      (fun _ m => Next confirmed debug method rest m) E := by
  refine (offerEvent_accepted h.accepts_started).bind fun _ => ?_
  have hdeferred : Accepts method (SyncPlus.accepted (calls ++
      [.journaled (.started (confirmed.number action))])) (.deferred (confirmed.number action)) :=
    h.accepts_second rfl (fun plan => by simp [Admits, After, phase?, eventPhase, runningPhases])
      (binds_of_bare rfl rfl)
  refine (offerEvent_accepted hdeferred).post fun _ m hm => h.next ?_
    (extends_events [.started (confirmed.number action)] (.deferred (confirmed.number action))
      (by simp [eventActionId]) rfl)
  simpa using hm

theorem cancelJournaled_spec (h : Head confirmed debug calls action rest) :
    Triple (Machine.At method calls)
      (cancelJournaled (confirmed.number action) : ResolutionProgram σ ActionReason Unit)
      (fun _ m => Next confirmed debug method rest m) E := by
  have hcancelled : Accepts method (SyncPlus.accepted calls)
      (.cancelled (confirmed.number action)) :=
    h.accepts_first rfl (fun plan => by simp [Admits, After, phase?, eventPhase])
      (binds_of_bare rfl rfl)
  exact (offerEvent_accepted hcancelled).post fun _ m hm => h.next hm
    (extends_events [] (.cancelled (confirmed.number action)) (by simp [eventActionId]) rfl)

/-- **One action of the loop.** -/
theorem attemptAction_spec {ε : Type} {F : ε → Machine σ ResolutionAnswer → Prop}
    (h : Head confirmed debug calls action rest) :
    Triple (Machine.At method calls)
      (attemptAction env confirmed.freshAnalysis confirmed.number action)
      (fun outcome m => Next confirmed debug method rest m ∨
        outcome.stops = true ∧ Broken confirmed m.calls) F := by
  unfold attemptAction
  split
  · refine (Triple.attempt (Q := fun _ m => Next confirmed debug method rest m)
      (deferJournaled_spec h)).bind fun _ => .pure fun _ hm => .inl hm
  · refine (Triple.attempt (Q := fun r m => Next confirmed debug method rest m ∨
      r = .error .interruptedBoundary ∧ Broken confirmed m.calls) ?_).bind fun r => .pure ?_
    · exact (executeJournaled_spec h).weaken (fun _ hm => hm) (fun _ _ hm => .inl hm)
        fun _ _ hm => hm.imp_right fun ⟨heq, hbroken⟩ => ⟨by rw [heq], hbroken⟩
    · rintro m (hm | ⟨rfl, hbroken⟩)
      · exact .inl hm
      · exact .inr ⟨rfl, hbroken⟩

/-- Actions of the plan, in its order. -/
structure InPlan (confirmed : ConfirmedResolutionRun) (todo : List ConflictResolutionAction) :
    Prop where
  bounded : confirmed.actions.length < 2 ^ 63
  mem : ∀ action ∈ todo, action ∈ confirmed.actions
  lt : todo.Pairwise fun action action' => confirmed.number action < confirmed.number action'

theorem InPlan.tail (h : InPlan confirmed (action :: rest)) : InPlan confirmed rest :=
  ⟨h.bounded, fun other hother => h.mem other (List.mem_cons_of_mem _ hother),
    (List.pairwise_cons.mp h.lt).2⟩

theorem InPlan.head (h : InPlan confirmed (action :: rest)) (hclean : Clean confirmed calls)
    (hpending : Pending confirmed debug (action :: rest) (SyncPlus.accepted calls)) :
    Head confirmed debug calls action rest :=
  ⟨h.mem action List.mem_cons_self, (List.pairwise_cons.mp h.lt).1,
    fits_number h.bounded (h.mem action List.mem_cons_self), hclean, hpending⟩

/-- The trace is of one of the two kinds. -/
def Decided (confirmed : ConfirmedResolutionRun) (m : Machine σ ResolutionAnswer) : Prop :=
  Clean confirmed m.calls ∨ Broken confirmed m.calls

theorem Next.decided {m : Machine σ ResolutionAnswer} (h : Next confirmed debug method todo m) :
    Decided confirmed m := by
  obtain ⟨c, hm, hclean, -⟩ := h
  exact .inl (hm.1 ▸ hclean)

variable {ε : Type} {F : ε → Machine σ ResolutionAnswer → Prop}

theorem cancelAll_spec (h : InPlan confirmed todo) :
    Triple (Next confirmed debug method todo)
      (cancelAll confirmed.number todo : ResolutionProgram σ ε _)
      (fun _ m => Next confirmed debug method [] m) F := by
  induction todo with
  | nil => exact .pure fun _ hm => hm
  | cons action rest ih =>
      refine Next.pre fun c hclean hpending => ?_
      refine (Triple.attempt (Q := fun _ m => Next confirmed debug method rest m)
        (cancelJournaled_spec (h.head hclean hpending))).bind fun _ => ?_
      exact (ih h.tail).bind fun _ => .pure fun _ hm => hm

theorem adds_cancelAll (todo : List ConflictResolutionAction) :
    Adds (fun _ => True) (cancelAll confirmed.number todo : ResolutionProgram σ ε _) := by
  induction todo with
  | nil => exact .pure
  | cons action rest ih =>
      exact (Adds.attempt (adds_offerEvent _)).bind fun _ => ih.bind fun _ => .pure

/-- **The loop over the actions.** -/
theorem executeActions_spec (h : InPlan confirmed todo) :
    Triple (Next confirmed debug method todo)
      (executeActions env confirmed.freshAnalysis confirmed.number todo : ResolutionProgram σ ε _)
      (fun _ m => Decided confirmed m) fun _ m => Decided confirmed m := by
  induction todo with
  | nil => exact .pure fun _ hm => hm.decided
  | cons action rest ih =>
      refine Next.pre fun c hclean hpending => ?_
      refine (attemptAction_spec (h.head hclean hpending)).bind fun outcome => ?_
      refine Triple.bind (Q := fun _ m => Decided confirmed m) ?_ fun _ => .pure fun _ hm => hm
      refine .ite (fun hstops => ?_) fun hgoes => ?_
      · rintro m (hm | ⟨-, hbroken⟩)
        · exact ((cancelAll_spec h.tail).post fun _ _ hm => hm.decided) m hm
        · exact ((Broken.keeps (adds_cancelAll rest)).weaken (fun _ hm => hm)
            (fun _ _ hm => .inr hm) fun _ _ hm => .inr hm) m hbroken
      · refine (ih h.tail).pre ?_
        rintro m (hm | ⟨hstops, -⟩)
        · exact hm
        · exact absurd hstops hgoes

/-! ## Before the loop -/

theorem journal_accepted {G : WorkflowError → Machine σ ResolutionAnswer → Prop}
    (h : Accepts method (SyncPlus.accepted calls) event) :
    Triple (Machine.At method calls) (journal event : ResolutionProgram σ WorkflowError Unit)
      (fun _ m => m.At method (calls ++ [.journaled event])) G := by
  refine (appendEvent_accepted h).bind fun r => .of_pre ?_
  rintro rfl
  exact .pure fun _ hm => hm

/-- The execution could not be set up: every action is deferred or unresolved. -/
theorem recordSetupFailure_spec {G : WorkflowError → Machine σ ResolutionAnswer → Prop}
    (reason : ActionReason) (h : InPlan confirmed todo) :
    Triple (Next confirmed debug method todo)
      (recordSetupFailure confirmed.number reason todo : ResolutionProgram σ WorkflowError Unit)
      (fun _ m => Next confirmed debug method [] m) G := by
  induction todo with
  | nil => exact .pure fun _ hm => hm
  | cons action rest ih =>
      refine Next.pre fun c hclean hpending => ?_
      have hhead := h.head hclean hpending
      refine Triple.bind (Q := fun _ m => Next confirmed debug method rest m) ?_ fun _ => ih h.tail
      refine (journal_accepted hhead.accepts_started).bind fun _ => ?_
      refine .ite (fun _ => ?_) fun _ => ?_
      · refine (journal_accepted (hhead.accepts_second rfl (fun plan => by
          simp [Admits, After, phase?, eventPhase, runningPhases])
          (binds_of_bare rfl rfl))).post fun _ m hm => hhead.next ?_
            (extends_events [.started (confirmed.number action)]
              (.deferred (confirmed.number action)) (by simp [eventActionId]) rfl)
        simpa using hm
      · refine (journal_accepted (hhead.accepts_second rfl (fun plan => by
          simp [Admits, After, phase?, eventPhase, runningPhases])
          (binds_of_bare rfl rfl))).post fun _ m hm => hhead.next ?_
            (extends_events [.started (confirmed.number action)]
              (.unresolved (confirmed.number action) reason) (by simp [eventActionId]) rfl)
        simpa using hm

/-- These actions are planned, and those are still to be planned. -/
def Planning (confirmed : ConfirmedResolutionRun) (debug : PathBuf → String)
    (method : Option String) (done todo : List ConflictResolutionAction)
    (m : Machine σ ResolutionAnswer) : Prop :=
  ∃ c, (Clean confirmed c ∧ Pending confirmed debug done (SyncPlus.accepted c) ∧
    ∀ action ∈ todo, historyOf (SyncPlus.accepted c) (confirmed.number action) = []) ∧
      m.At method c

/-- One more action is planned. -/
theorem Clean.planned {done : List ConflictResolutionAction} (hclean : Clean confirmed calls)
    (hpending : Pending confirmed debug done (SyncPlus.accepted calls))
    (hnew : historyOf (SyncPlus.accepted calls) (confirmed.number action) = [])
    (hplan : resolutionPlanRecord debug confirmed.freshAnalysis (confirmed.number action) action =
      .ok plan)
    (hid : plan.actionId = confirmed.number action) :
    Clean confirmed (calls ++ [.journaled (.planned plan)]) ∧
      Pending confirmed debug (done ++ [action])
        (SyncPlus.accepted (calls ++ [.journaled (.planned plan)])) := by
  have hown : ∀ event ∈ [JournalEvent.planned plan],
      eventActionId event = confirmed.number action := by simpa [eventActionId] using hid
  have hother : ∀ other, other ≠ confirmed.number action →
      historyOf (SyncPlus.accepted (calls ++ [.journaled (.planned plan)])) other =
        historyOf (SyncPlus.accepted calls) other := fun other hne => by
    rw [accepted_append]
    exact historyOf_apart hown hne
  have hhere : historyOf (SyncPlus.accepted (calls ++ [.journaled (.planned plan)]))
      (confirmed.number action) = [.planned plan] := by
    rw [accepted_append]
    exact (historyOf_own hown).trans (by rw [hnew, List.nil_append])
  refine ⟨⟨?_, ?_, ?_⟩, ?_, ?_⟩
  · intro event error hmem
    exact hclean.accepted event error (by simpa using hmem)
  · intro other hmem
    have hcompleted := hclean.completed other (by simpa using hmem)
    rw [hother _ fun heq => ?_]
    · exact hcompleted
    · rw [heq, hnew] at hcompleted
      cases hcompleted
  · intro other source destination hmem
    exact hclean.copied other source destination (by simpa using hmem)
  · intro other hmem
    rcases List.mem_append.mp hmem with hmem | hmem
    · obtain ⟨plan', hplan', hhistory⟩ := hpending.planned other hmem
      refine ⟨plan', hplan', ?_⟩
      rw [hother _ fun heq => ?_]
      · exact hhistory
      · rw [heq, hnew] at hhistory
        cases hhistory
    · obtain rfl := List.mem_singleton.mp hmem
      exact ⟨plan, hplan, hhere⟩
  · intro id phase hphase
    by_cases hsame : id = confirmed.number action
    · exact .inr ⟨action, List.mem_append_right _ (List.mem_singleton.mpr rfl), hsame.symm⟩
    · rw [hother id hsame] at hphase
      rcases hpending.settled id phase hphase with hsettled | ⟨waiting, hwaiting, hnumber⟩
      · exact .inl hsettled
      · exact .inr ⟨waiting, List.mem_append_left _ hwaiting, hnumber⟩

/-- **The plan is journaled.** -/
theorem persistResolutions_spec {G : WorkflowError → Machine σ ResolutionAnswer → Prop}
    (done : List ConflictResolutionAction) (h : InPlan confirmed todo) :
    Triple (Planning confirmed debug method done todo)
      (persistResolutions debug confirmed.freshAnalysis confirmed.number todo :
        ResolutionProgram σ WorkflowError Unit)
      (fun _ m => Next confirmed debug method (done ++ todo) m) G := by
  induction todo generalizing done with
  | nil =>
      refine .pure ?_
      rintro m ⟨c, ⟨hclean, hpending, -⟩, hm⟩
      rw [List.append_nil]
      exact ⟨c, hm, hclean, hpending⟩
  | cons action rest ih =>
      refine .exists_pre fun c => .of_pre ?_
      rintro ⟨hclean, hpending, hnew⟩
      have hmem := h.mem action List.mem_cons_self
      obtain ⟨plan, item, hplan, -, hid, -, -, -, hidentity⟩ :=
        @planned confirmed action debug hmem (confirmed.number action)
      have hhere := hnew action List.mem_cons_self
      have haccepts : Accepts method (SyncPlus.accepted c) (.planned plan) := by
        refine ⟨?_, ?_, trivial, ?_⟩
        · have hfits := fits_number h.bounded hmem
          rwa [← hid] at hfits
        · exact (congrArg (historyOf _) hid).trans hhere
        · simp [Binds, plan?, evidenceOf, IdentityFits, hidentity]
      refine Triple.bind (Q := fun _ m => Planning confirmed debug method (done ++ [action]) rest m)
        ?_ fun _ => ?_
      · dsimp only
        rw [hplan]
        change Triple (Machine.At method c) (journal (.planned plan)) _ _
        refine (journal_accepted haccepts).post fun _ m hm => ⟨_, ?_, hm⟩
        obtain ⟨hclean', hpending'⟩ := hclean.planned hpending hhere hplan hid
        refine ⟨hclean', hpending', fun other hother => ?_⟩
        have hlt := (List.pairwise_cons.mp h.lt).1 other hother
        have hown : ∀ event ∈ [JournalEvent.planned plan],
            eventActionId event = confirmed.number action := by simpa [eventActionId] using hid
        rw [accepted_append]
        exact (historyOf_apart hown (UInt64.ne_of_lt hlt).symm).trans
          (hnew other (List.mem_cons_of_mem _ hother))
      · have hall : done ++ action :: rest = done ++ [action] ++ rest := by simp
        rw [hall]
        exact ih (done ++ [action]) h.tail

/-- A trace before its first call, where nothing is planned yet. -/
theorem planning_opened (world : σ) :
    Planning confirmed debug method [] todo (Machine.opened ResolutionAnswer world method) := by
  refine ⟨[], ⟨⟨by simp, by simp, by simp⟩, ⟨by simp, ?_⟩, fun _ _ => rfl⟩, rfl, rfl⟩
  intro id phase hphase
  cases hphase

/-- **A run ends in one of the two.** -/
theorem journalRun_ends (bounded : confirmed.actions.length < 2 ^ 63) (world : σ) :
    Decided confirmed (journalRun env debug confirmed
      (Machine.opened ResolutionAnswer world method)).2 := by
  have hplan : InPlan confirmed confirmed.actions := ⟨bounded, fun _ h => h, number_lt bounded⟩
  have hrun : Triple (Planning confirmed debug method [] confirmed.actions)
      (journalRun env debug confirmed) (fun _ m => Decided confirmed m)
      fun _ m => Decided confirmed m := by
    refine (persistResolutions_spec [] hplan).bind fun _ => Next.pre fun c hclean hpending => ?_
    refine ask_at.bind fun executor => ?_
    have hnext : ∀ m : Machine σ ResolutionAnswer,
        m.At method (c ++ [.answered (.prepared executor)]) →
          Next confirmed debug method confirmed.actions m := by
      intro m hm
      refine ⟨_, hm, ⟨?_, ?_, ?_⟩, by simpa using hpending⟩
      · intro event error hmem
        exact hclean.accepted event error (by simpa using hmem)
      · intro other hmem
        simpa using hclean.completed other (by simpa using hmem)
      · intro other source destination hmem
        exact hclean.copied other source destination (by simpa using hmem)
    refine .ite (fun _ => ?_) fun _ => ?_
    · exact (executeActions_spec hplan).pre hnext
    · exact ((recordSetupFailure_spec .transferFailed hplan).pre hnext).bind fun _ =>
        .pure fun _ hm => hm.decided
  have hend := hrun _ (planning_opened world)
  revert hend
  rcases journalRun env debug confirmed (Machine.opened ResolutionAnswer world method) with
    ⟨_ | _, m⟩ <;> exact id

end

/-! ## The claim -/

/-- **A run is journaled**: its actions have numbers, no two the same, and a plan record
each; every event that is offered is accepted; and every action whose execution succeeded
is completed. -/
structure Journaled (confirmed : ConfirmedResolutionRun) (debug : PathBuf → String)
    (calls : List (Call ResolutionAnswer)) : Prop where
  numbered : ∀ action ∈ confirmed.actions,
    resolutionActionIds confirmed.actions action.relativePath = some (confirmed.number action)
  distinct : (confirmed.actions.map confirmed.number).Nodup
  planned : ∀ action ∈ confirmed.actions, ∃ plan, resolutionPlanRecord debug
    confirmed.freshAnalysis (confirmed.number action) action = .ok plan
  accepted : ∀ event error, .rejected event error ∉ calls
  completed : ∀ action, .answered (.executed action (.ok ())) ∈ calls →
    (entryOf (historyOf (SyncPlus.accepted calls) (confirmed.number action))).map (·.outcome) =
      some .completed

theorem journaled_of_clean (bounded : confirmed.actions.length < 2 ^ 63)
    (h : Clean confirmed calls)
    (hhistory : ∀ id, History method (historyOf (SyncPlus.accepted calls) id)) :
    Journaled confirmed debug calls := by
  refine ⟨?_, ?_, ?_, h.accepted, ?_⟩
  · intro action haction
    obtain ⟨i, hi, rfl⟩ := List.getElem_of_mem haction
    rw [number_getElem hi, resolutionActionIds_getElem confirmed hi]
  · exact List.pairwise_map.mpr ((number_lt bounded).imp fun hlt => UInt64.ne_of_lt hlt)
  · intro action haction
    obtain ⟨plan, -, hplan, -⟩ :=
      @ConfirmedResolutionRun.planned confirmed action debug haction (confirmed.number action)
    exact ⟨plan, hplan⟩
  · intro action haction
    have hcompleted := h.completed action haction
    cases hplan : plan? (historyOf (SyncPlus.accepted calls) (confirmed.number action)) with
    | none =>
        rw [(hhistory _).plan?_none.mp hplan] at hcompleted
        cases hcompleted
    | some plan =>
        rw [entryOf, hplan, hcompleted]
        rfl

end ConfirmedResolutionRun

open ConfirmedResolutionRun in
/-- **Resolution runs are journaled exactly when what they copy is files.** -/
theorem resolution_journaled_iff {σ : Type} (env : ResolutionSurroundings σ) (world : σ)
    (debug : PathBuf → String) (method : Option String) (confirmed : ConfirmedResolutionRun)
    (bounded : confirmed.actions.length < 2 ^ 63) :
    Journaled confirmed debug
        (journalRun env debug confirmed (Machine.opened _ world method)).2.calls ↔
      ∀ action source destination, .answered (.transferred action source destination) ∈
        (journalRun env debug confirmed (Machine.opened _ world method)).2.calls →
          KeepsFile confirmed.freshAnalysis action source destination := by
  have hends := @journalRun_ends confirmed debug method σ env bounded world
  have hhistory := (journalRun env debug confirmed (Machine.opened _ world method)).2.journal
  constructor
  · intro hjournaled
    rcases hends with hclean | hbroken
    · exact hclean.copied
    · obtain ⟨event, error, hrefused⟩ := hbroken.refused
      exact absurd hrefused (hjournaled.accepted event error)
  · intro hcopied
    rcases hends with hclean | hbroken
    · exact journaled_of_clean bounded hclean hhistory.histories
    · obtain ⟨action, source, destination, hmem, hnot⟩ := hbroken.copied
      exact absurd (hcopied action source destination hmem) hnot

/-! ### Keeping one of two versions -/

/-- A Mirror of `/a` and `/b` with the default options. -/
def facedProfile : SyncProfile := { copyingProfile with mode := .mirror }

def plainLink (target : PathBuf) : Found where
  itemType := .symlink
  metadata := ⟨1, some 0, false, some 0o777, some target⟩
  content := none
  inspectError := none
  listError := none

/-- A moment at which each peer has an entry `x`. -/
def facing (left right : Found) : FileSystem where
  lossy := .utf8
  isDir _ := false
  tree root := .ofEntries (.cons [120] (if root = ⟨[47, 97]⟩ then left else right) .nil .nil)
    ⟨by decide, by decide, trivial, trivial⟩

/-- The first peer's version is kept, and the run confirmed at once. -/
def keepFirst (fs : FileSystem) : Except ResolutionRunError ConfirmedResolutionRun := do
  let run ← ResolutionRun.start fs facedProfile [.new ⟨[120]⟩ .keepPeerA] none
  run.prepare fs facedProfile none true

/-- A world where every execution succeeds, and both paths of a copy hold this. -/
def holding (content : Option ContentProof) : ResolutionSurroundings Unit where
  prepare _ := (true, ())
  execute _ _ := (.ok (), ())
  currentUnixNanos _ := (0, ())
  observePaths _ _ _ := ((⟨true, content⟩, ⟨true, content⟩), ())

/-- The calls of a run of one copy. -/
def keptCalls (content : Option ContentProof) (confirmed : ConfirmedResolutionRun) :
    List (Call ResolutionAnswer) :=
  (confirmed.journalRun (holding content) (fun _ => "") (Machine.opened _ () none)).2.calls

/-- The item of the call's action is a file of this content, seen at both paths. -/
def sawFile (hash : Sha256) (analysis : FreshAnalysis) : Call ResolutionAnswer → Bool
  | .answered (.transferred action source destination) =>
      ((analysis.inventoryOf (affectedSide action)).item action.relativePath).any
        (fun item => item.itemType = .regularFile && FitsI64 item.metadata.size &&
          item.contentFingerprint = some hash &&
          source.content = some ⟨item.metadata.size, hash⟩) &&
        source.present && destination.present && destination.content.isSome
  | _ => true

theorem keepsFile_of_sawFile {hash : Sha256} {analysis : FreshAnalysis}
    {action : ConflictResolutionAction} {source destination : PathObservation}
    (h : sawFile hash analysis (.answered (.transferred action source destination)) = true) :
    KeepsFile analysis action source destination := by
  simp only [sawFile, Bool.and_eq_true, Option.any_eq_true, decide_eq_true_eq] at h
  obtain ⟨⟨⟨⟨item, hitem, ⟨⟨hregular, hfits⟩, hhash⟩, hcontent⟩, hsource⟩, hdestination⟩,
    hfile⟩ := h
  exact ⟨⟨item, hash, hitem, hregular, hfits, hhash, hcontent⟩, hsource, hdestination, hfile⟩

open ConfirmedResolutionRun in
/-- A file is kept, and the run journaled. -/
theorem resolution_journaled_file :
    ∃ confirmed, keepFirst (facing (plainFile zeroHash) (plainFile otherHash)) = .ok confirmed ∧
      Journaled confirmed (fun _ => "") (keptCalls (some ⟨5, zeroHash⟩) confirmed) := by
  obtain ⟨confirmed, hconfirmed, htest⟩ := @exists_ok _ _
    (keepFirst (facing (plainFile zeroHash) (plainFile otherHash)))
    (fun confirmed => confirmed.actions.length = 1 && (keptCalls (some ⟨5, zeroHash⟩)
      confirmed).all (sawFile zeroHash confirmed.freshAnalysis)) (by decide +kernel)
  simp only [Bool.and_eq_true, decide_eq_true_eq, List.all_eq_true] at htest
  obtain ⟨hone, hfiles⟩ := htest
  refine ⟨confirmed, hconfirmed, (resolution_journaled_iff (holding (some ⟨5, zeroHash⟩)) ()
    (fun _ => "") none confirmed (by omega)).mpr ?_⟩
  intro action source destination hmem
  exact keepsFile_of_sawFile (hfiles _ hmem)

open ConfirmedResolutionRun in
/-- Each peer has a link `x`, with another target. The copy of one succeeds and is not
accepted. -/
theorem resolution_not_journaled :
    ¬ ∀ (fs : FileSystem) (profile : SyncProfile) (decisions : List ConflictDecision)
      (run : ResolutionRun) (confirmed : ConfirmedResolutionRun) (σ : Type)
      (env : ResolutionSurroundings σ) (world : σ) (debug : PathBuf → String)
      (method : Option String), ResolutionRun.start fs profile decisions none = .ok run →
        run.prepare fs profile none true = .ok confirmed →
          confirmed.actions.length < 2 ^ 63 → Journaled confirmed debug
            (journalRun env debug confirmed (Machine.opened _ world method)).2.calls := by
  intro h
  obtain ⟨confirmed, hconfirmed, htest⟩ := @exists_ok _ _
    (keepFirst (facing (plainLink ⟨[97]⟩) (plainLink ⟨[98]⟩)))
    (fun confirmed => confirmed.actions.length = 1 && (keptCalls none confirmed).any
      fun call => match call with
        | .rejected _ _ => true
        | _ => false) (by decide +kernel)
  simp only [Bool.and_eq_true, decide_eq_true_eq, List.any_eq_true] at htest
  obtain ⟨hone, call, hcall, hrejected⟩ := htest
  obtain ⟨run, hrun, hprepare⟩ := bind_eq_ok.mp hconfirmed
  have hjournaled := h _ _ _ run confirmed Unit (holding none) () (fun _ => "") none hrun hprepare
    (by omega)
  cases call with
  | rejected event error => exact hjournaled.accepted event error hcall
  | _ => cases hrejected

end SyncPlus
