import SyncPlus.JournalAppend

/-!
# One action at a time

The writer orders the actions of a run with one check an event: all
actions with a smaller id must be settled, except when the event plans,
cancels or interrupts. What the check amounts to over a whole run needs
the plans to come first. Then an action that has left the planned phase
has only settled actions below it, at every later point (`Ordered`):
its own events keep that by the check, and the actions below it cannot
move, since nothing follows a settled phase.
-/

namespace SyncPlus

/-! ## Accepted sequences -/

/-- Sequences of events each of which was accepted after those before it. -/
inductive Accepted (method : Option String) : List JournalEvent → Prop where
  | nil : Accepted method []
  | snoc {acc : List JournalEvent} {e : JournalEvent} :
      Accepted method acc → Accepts method acc e → Accepted method (acc ++ [e])

section

variable {method : Option String} {acc : List JournalEvent}

theorem offers_accepted (method : Option String) (events : List JournalEvent) :
    Accepted method (RunJournal.offers method events).2 :=
  (offerAll_invariant (fun run acc => JournalInv method run acc ∧ Accepted method acc)
    (fun _ _ _ _ h happ => have happ := h.1.append happ
      ⟨happ.2, h.2.snoc happ.1⟩)
    ⟨JournalInv.opened, Accepted.nil⟩ events).2

theorem Accepted.init {tail : List JournalEvent} (h : Accepted method (acc ++ tail)) :
    Accepted method acc := by
  induction tail using List.reverseRecOn with
  | nil => simpa using h
  | append_singleton tail d ih =>
      apply ih
      generalize hl : acc ++ (tail ++ [d]) = l at h
      cases h with
      | nil => simp at hl
      | snoc h _ =>
          rw [← List.append_assoc] at hl
          obtain ⟨rfl, -⟩ := List.append_inj' hl rfl
          exact h

theorem Accepted.accepts {e : JournalEvent} {tail : List JournalEvent}
    (h : Accepted method (acc ++ e :: tail)) : Accepts method acc e := by
  have h' : Accepted method (acc ++ [e]) := by
    refine Accepted.init (?_ : Accepted method (acc ++ [e] ++ tail))
    simpa using h
  generalize hl : acc ++ [e] = l at h'
  cases h' with
  | nil => simp at hl
  | snoc _ hacc =>
      obtain ⟨rfl, heq⟩ := List.append_inj' hl rfl
      exact List.singleton_inj.mp heq ▸ hacc

theorem Accepted.last {e : JournalEvent} (h : Accepted method (acc ++ [e])) :
    Accepts method acc e :=
  Accepted.accepts h

end

/-! ## Phases and their places -/

/-- Phases of an action that has been started and is not settled. -/
def openPhases : List String :=
  ["started", "progress", "transfer_verified", "proof_boundary", "removal_started",
    "recovery_review"]

/-- The action is between its start and a settled phase. -/
def InFlight (acc : List JournalEvent) (a : ActionId) : Prop :=
  ∃ ph ∈ openPhases, phase? (historyOf acc a) = some ph

/-- A phase is planned, settled or open, and no two of these. -/
theorem open_not_settled {ph : String} (h : ph ∈ openPhases) :
    ph ≠ "planned" ∧ isSettledPhase ph = false := by
  revert ph
  decide

/-- Nothing follows a settled phase. -/
theorem not_mayFollow_settled {phase ph : String} (h : isSettledPhase ph = true) :
    mayFollow phase ph = false := by
  have key : ∀ {phases : List String},
      (∀ p ∈ phases, isSettledPhase p = false) → decide (ph ∈ phases) = false := by
    intro phases hall
    refine decide_eq_false fun hmem => ?_
    rw [hall ph hmem] at h
    cases h
  have single : ∀ {p : String}, isSettledPhase p = false → decide (ph = p) = false := by
    intro p hp
    refine decide_eq_false ?_
    rintro rfl
    rw [hp] at h
    cases h
  unfold mayFollow
  split
  all_goals first
    | rfl
    | exact single (by decide)
    | exact key (by decide)

/-- An event of a settled action is never accepted. -/
theorem Accepts.not_settled {method : Option String} {acc : List JournalEvent}
    {e : JournalEvent} (h : Accepts method acc e) {ph : String}
    (hph : phase? (historyOf acc (eventActionId e)) = some ph) :
    isSettledPhase ph = false := by
  rcases h.admits.after with ⟨plan, rfl, hnil⟩ | ⟨-, ph', hph', hmay⟩
  · rw [hnil] at hph
    cases hph
  · obtain rfl := Option.some.inj (hph.symm.trans hph')
    by_contra hset
    rw [not_mayFollow_settled (by simpa using hset)] at hmay
    cases hmay

/-- Events that wait for the actions before theirs. -/
def waits : JournalEvent → Bool
  | .planned _ => false
  | .cancelled _ => false
  | .interrupted _ => false
  | _ => true

theorem inTurn_iff {acc : List JournalEvent} {e : JournalEvent} (he : waits e = true) :
    InTurn acc e ↔ ∀ b < eventActionId e, ∀ phase ∈ phase? (historyOf acc b),
      isSettledPhase phase = true := by
  cases e <;> first | rfl | cases he

theorem waits_of_open {e : JournalEvent} (h : eventPhase e ∈ openPhases) :
    waits e = true := by
  cases e <;> simp_all [waits, eventPhase, openPhases]

/-! ## The order of a run -/

/-- All plans come before every other event. -/
def PlannedFirst (acc : List JournalEvent) : Prop :=
  acc.Pairwise fun d e => eventPhase e = "planned" → eventPhase d = "planned"

instance (acc : List JournalEvent) : Decidable (PlannedFirst acc) :=
  inferInstanceAs (Decidable (acc.Pairwise _))

/-- Below an action in flight everything is settled. -/
def Ordered (acc : List JournalEvent) : Prop :=
  ∀ b, InFlight acc b → ∀ a < b, ∀ ph ∈ phase? (historyOf acc a),
    isSettledPhase ph = true

section

variable {method : Option String} {acc : List JournalEvent}

theorem phase?_historyOf_snoc_self (e : JournalEvent) :
    phase? (historyOf (acc ++ [e]) (eventActionId e)) = some (eventPhase e) := by
  rw [historyOf_snoc_self, phase?_snoc]

/-- While every event plans, no action is in flight. -/
theorem not_inFlight_of_planned (h : ∀ e ∈ acc, eventPhase e = "planned") {a : ActionId} :
    ¬ InFlight acc a := by
  rintro ⟨ph, hopen, hph⟩
  obtain ⟨e, hlast, rfl⟩ := Option.map_eq_some_iff.mp hph
  have hmem : e ∈ acc := (List.mem_filter.mp (List.mem_of_getLast? hlast)).1
  exact (open_not_settled hopen).1 (h e hmem)

/-- **One step keeps the order.** -/
theorem Ordered.snoc {e : JournalEvent} (h : Ordered acc) (hacc : Accepts method acc e)
    (hfirst : PlannedFirst (acc ++ [e])) : Ordered (acc ++ [e]) := by
  intro b hb a hab ph hph
  by_cases he : eventPhase e = "planned"
  · refine absurd hb (not_inFlight_of_planned fun d hd => ?_)
    rcases List.mem_append.mp hd with hd | hd
    · exact (List.pairwise_append.mp hfirst).2.2 d hd e (by simp) he
    · exact List.mem_singleton.mp hd ▸ he
  by_cases hbe : eventActionId e = b
  · -- The event's own action: the writer has looked below it.
    subst hbe
    obtain ⟨p, hopen, hp⟩ := hb
    rw [phase?_historyOf_snoc_self, Option.some.injEq] at hp
    have hturn := (inTurn_iff (waits_of_open (hp ▸ hopen))).mp hacc.inTurn
    have hne : eventActionId e ≠ a := by
      rintro rfl
      exact absurd hab (by simp)
    rw [historyOf_snoc_other hne] at hph
    exact hturn a hab ph hph
  · rw [InFlight, historyOf_snoc_other hbe] at hb
    by_cases hae : eventActionId e = a
    · -- An action below one in flight is settled, and takes no event.
      subst hae
      rcases hacc.admits.after with ⟨plan, rfl, -⟩ | ⟨-, p, hp, -⟩
      · exact absurd rfl he
      · have := hacc.not_settled hp
        rw [h b hb _ hab p hp] at this
        cases this
    · rw [historyOf_snoc_other hae] at hph
      exact h b hb a hab ph hph

theorem Accepted.ordered (h : Accepted method acc) (hfirst : PlannedFirst acc) :
    Ordered acc := by
  induction h with
  | nil =>
      rintro b ⟨ph, -, hph⟩
      cases hph
  | snoc h hacc ih =>
      exact (ih (List.pairwise_append.mp hfirst).1).snoc hacc hfirst

/-- At most one action is in flight. -/
theorem Ordered.inFlight_unique (h : Ordered acc) {a b : ActionId} (ha : InFlight acc a)
    (hb : InFlight acc b) : a = b := by
  have key : ∀ {a b : ActionId}, InFlight acc a → InFlight acc b → ¬ a < b := by
    rintro a b ⟨ph, hopen, hph⟩ hb hlt
    have := h b hb a hlt ph hph
    rw [(open_not_settled hopen).2] at this
    cases this
  by_contra hne
  rcases UInt64.lt_or_lt_of_ne hne with hlt | hlt
  · exact key ha hb hlt
  · exact key hb ha hlt

/-- Nothing but its resolution follows a review. -/
theorem mayFollow_review {phase : String}
    (h : mayFollow phase "recovery_review" = true) : phase = "recovery_resolved" := by
  unfold mayFollow at h
  split at h
  all_goals first
    | rfl
    | exact absurd h (by decide)

theorem eventPhase_resolved {e : JournalEvent} (h : eventPhase e = "recovery_resolved") :
    ∃ resolution, e = .recoveryResolved (eventActionId e) resolution := by
  cases e <;> simp_all [eventPhase, eventActionId]

/-- A review stays where it is until it is resolved. -/
theorem Accepted.review_stays {mid : List JournalEvent} {b : ActionId}
    (h : Accepted method (acc ++ mid))
    (hreview : phase? (historyOf acc b) = some "recovery_review")
    (hopen : ∀ resolution, .recoveryResolved b resolution ∉ mid) :
    phase? (historyOf (acc ++ mid) b) = some "recovery_review" := by
  induction mid using List.reverseRecOn with
  | nil => simpa using hreview
  | append_singleton mid d ih =>
      rw [← List.append_assoc] at h ⊢
      have hstay := ih h.init fun resolution hmem => hopen resolution (by simp [hmem])
      by_cases hd : eventActionId d = b
      · subst hd
        rcases h.last.admits.after with
          ⟨plan, rfl, hnil⟩ | ⟨-, ph, hph, hmay⟩
        · rw [hnil] at hstay
          cases hstay
        · obtain rfl := Option.some.inj (hstay.symm.trans hph)
          obtain ⟨resolution, hd⟩ := eventPhase_resolved (mayFollow_review hmay)
          exact absurd (by simp [← hd]) (hopen resolution)
      · rwa [historyOf_snoc_other hd]

/-- No action is started while a review is unresolved. -/
theorem Accepted.not_started {a b : ActionId}
    (h : Accepted method (acc ++ [.started a]))
    (hfirst : PlannedFirst (acc ++ [.started a])) :
    phase? (historyOf acc b) ≠ some "recovery_review" := by
  intro hreview
  by_cases hab : eventActionId (.started a) = b
  · subst hab
    obtain ⟨ph, hmem, hph⟩ := h.last.admits
    obtain rfl := Option.some.inj (hreview.symm.trans hph)
    exact absurd hmem (by decide)
  · refine hab ((h.ordered hfirst).inFlight_unique ?_ ?_)
    · exact ⟨"started", by decide, phase?_historyOf_snoc_self (.started a)⟩
    · exact ⟨"recovery_review", by decide, by rw [historyOf_snoc_other hab, hreview]⟩

/-- An event that waits finds every planned action below its own settled. -/
theorem Accepted.settled_below {e : JournalEvent} {tail : List JournalEvent}
    (h : Accepted method (acc ++ e :: tail)) (hfirst : PlannedFirst (acc ++ e :: tail))
    (hwaits : waits e = true) {plan : PlanRecord}
    (hplan : .planned plan ∈ acc ++ e :: tail) (hlt : plan.actionId < eventActionId e) :
    ∃ ph, phase? (historyOf acc plan.actionId) = some ph ∧ isSettledPhase ph = true := by
  have hne : eventPhase e ≠ "planned" := by
    intro hplanned
    obtain ⟨p, rfl⟩ := eventPhase_eq_planned.mp hplanned
    cases hwaits
  -- The plan of the smaller action comes before every other event.
  have hbefore : JournalEvent.planned plan ∈ acc := by
    rcases List.mem_append.mp hplan with hin | hin
    · exact hin
    · rcases List.mem_cons.mp hin with rfl | hin
      · exact absurd rfl hne
      · have hrest := (List.pairwise_append.mp hfirst).2.1
        exact absurd ((List.pairwise_cons.mp hrest).1 _ hin rfl) hne
  have hmem : JournalEvent.planned plan ∈ historyOf acc plan.actionId := by
    simp [historyOf, hbefore, eventActionId]
  obtain ⟨init, last, hlast⟩ := (List.eq_nil_or_concat' _).resolve_left
    (List.ne_nil_of_mem hmem)
  have hphase : phase? (historyOf acc plan.actionId) = some (eventPhase last) := by
    rw [hlast, phase?_snoc]
  exact ⟨_, hphase, (inTurn_iff hwaits).mp h.accepts.inTurn _ hlt _ hphase⟩

/-- An event that leaves the plan of its action, and does not call the
action off, waits. -/
theorem Accepts.waits {e : JournalEvent} (h : Accepts method acc e)
    (hph : phase? (historyOf acc (eventActionId e)) = some "planned")
    (hcancel : eventPhase e ≠ "cancelled") (hinterrupt : eventPhase e ≠ "interrupted") :
    waits e = true := by
  cases e with
  | planned p =>
      have hnil : historyOf acc (eventActionId (.planned p)) = [] := h.admits
      rw [hnil] at hph
      cases hph
  | cancelled a => exact absurd rfl hcancel
  | interrupted a => exact absurd rfl hinterrupt
  | _ => rfl

end

/-- **One action in flight.** Of a run whose plans come first, at every
point: at most one action is in flight; an action that leaves its plan
other than by being cancelled or interrupted has only settled actions
below it; and while a review is unresolved no action is started. -/
theorem one_action_in_flight (method : Option String) (events : List JournalEvent)
    (hfirst : PlannedFirst (RunJournal.offers method events).2)
    (point rest : List JournalEvent)
    (hpoint : (RunJournal.offers method events).2 = point ++ rest) :
    (∀ a b, InFlight point a → InFlight point b → a = b) ∧
    (∀ e ∈ rest.head?,
      phase? (historyOf point (eventActionId e)) = some "planned" →
      eventPhase e ≠ "cancelled" → eventPhase e ≠ "interrupted" →
      ∀ plan, .planned plan ∈ (RunJournal.offers method events).2 →
        plan.actionId < eventActionId e →
        ∃ ph, phase? (historyOf point plan.actionId) = some ph ∧
          isSettledPhase ph = true) ∧
    (∀ b, phase? (historyOf point b) = some "recovery_review" →
      ∀ mid a tail, rest = mid ++ .started a :: tail →
        ∃ resolution, .recoveryResolved b resolution ∈ mid) := by
  have hacc := offers_accepted method events
  rw [hpoint] at hacc hfirst ⊢
  refine ⟨fun a b ha hb => ?_, fun e he hph hcancel hinterrupt plan hplan hlt => ?_,
    fun b hreview mid a tail hrest => ?_⟩
  · exact (hacc.init.ordered (List.pairwise_append.mp hfirst).1).inFlight_unique ha hb
  · obtain ⟨tail, rfl⟩ := List.head?_eq_some_iff.mp he
    exact hacc.settled_below hfirst (hacc.accepts.waits hph hcancel hinterrupt) hplan hlt
  · by_contra hnone
    have heq : point ++ rest = ((point ++ mid) ++ [.started a]) ++ tail := by
      simp [hrest]
    rw [heq] at hacc hfirst
    refine hacc.init.not_started (List.pairwise_append.mp hfirst).1 (b := b) ?_
    exact hacc.init.init.review_stays hreview fun resolution hmem =>
      hnone ⟨resolution, hmem⟩

/-! ### Two copies, the first with a review -/

def copyPlan (actionId : ActionId) : PlanRecord :=
  { actionId
    relativePath := ⟨[97]⟩
    operation := .copyToDestination
    affectedSide := .peerB
    plannedBytes := some 5
    preAction :=
      { itemType := .regularFile
        size := 5
        modifiedAtUnixNanos := none
        identity := none
        sha256 := none } }

def twoCopies : List JournalEvent :=
  [.planned (copyPlan 1), .planned (copyPlan 2), .started 1,
    .recoveryReview 1 .filesystemUncertain
      (RecoveryEvidence.new 10 none true true false none none none none),
    .started 2, .recoveryResolved 1 (.unresolved .filesystemUncertain), .started 2]

/-- The second copy starts where the review of the first is resolved. -/
theorem one_action_in_flight_twoCopies :
    ∃ point mid, point ++ mid ++ [.started 2] = (RunJournal.offers none twoCopies).2 ∧
      phase? (historyOf point 1) = some "recovery_review" ∧
      ∃ resolution, .recoveryResolved 1 resolution ∈ mid :=
  ⟨twoCopies.take 4, [.recoveryResolved 1 (.unresolved .filesystemUncertain)],
    by decide +kernel, by decide,
    (one_action_in_flight none twoCopies (by decide +kernel) (twoCopies.take 4) _
      (by decide +kernel)).2.2 1 (by decide) _ 2 [] rfl⟩

end SyncPlus
