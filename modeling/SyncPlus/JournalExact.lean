import SyncPlus.JournalRoundTrip

/-!
# Exactly when the journal reads back

The other direction of the round trip. A replay that ends in the entry
of a history has decoded every evidence value of it to itself: each row
with evidence fills one slot of the entry, a filled slot is never
written again (`replayEntry_fills`), and the entry of the history has
the event's own evidence in that slot (`slot_entryOf`). So the values of
every event are ones the columns keep, and `Kept` is not only enough but
necessary (`loadJournal_eq_ok_iff`).
-/

namespace SyncPlus

/-! ## Slots are written once -/

/-- The slot of an entry that an event with evidence fills. -/
def slotOf (e : JournalEvent) (entry : ActionJournalEntry) : Option RecoveryEvidence :=
  match e with
  | .transferVerified _ _ _ => entry.transferEvidence
  | .proofBoundary _ _ _ _ => entry.proofBoundary
  | .removalCompleted _ _ => entry.removalResult.map (·.evidence)
  | .recoveryReview _ _ _ => entry.recoveryEvidence
  | .recoveryResolved _ _ => entry.recoveryResolutionEvidence
  | _ => none

/-- `entry'` has the plan of `entry`, and its filled slots as they are. -/
structure Extends (entry entry' : ActionJournalEntry) : Prop where
  plan : entry'.plan = entry.plan
  slots : ∀ e x, slotOf e entry = some x → slotOf e entry' = some x

theorem Extends.refl (entry : ActionJournalEntry) : Extends entry entry :=
  ⟨rfl, fun _ _ h => h⟩

theorem Extends.trans {entry entry' entry'' : ActionJournalEntry}
    (h : Extends entry entry') (h' : Extends entry' entry'') : Extends entry entry'' :=
  ⟨h'.plan.trans h.plan, fun e x hx => h'.slots e x (h.slots e x hx)⟩

/-- An entry that differs in nothing but its progress and outcome. -/
theorem Extends.of_same {entry entry' : ActionJournalEntry}
    (h0 : entry'.plan = entry.plan)
    (h1 : entry.transferEvidence = none ∨
      entry'.transferEvidence = entry.transferEvidence)
    (h2 : entry.proofBoundary = none ∨ entry'.proofBoundary = entry.proofBoundary)
    (h3 : entry.removalResult = none ∨ entry'.removalResult = entry.removalResult)
    (h4 : entry.recoveryEvidence = none ∨
      entry'.recoveryEvidence = entry.recoveryEvidence)
    (h5 : entry.recoveryResolutionEvidence = none ∨
      entry'.recoveryResolutionEvidence = entry.recoveryResolutionEvidence) :
    Extends entry entry' := by
  refine ⟨h0, fun e x hx => ?_⟩
  cases e with
  | transferVerified _ _ _ =>
      rcases h1 with h | h <;> simp_all [slotOf]
  | proofBoundary _ _ _ _ =>
      rcases h2 with h | h <;> simp_all [slotOf]
  | removalCompleted _ _ =>
      rcases h3 with h | h <;> simp_all [slotOf]
  | recoveryReview _ _ _ =>
      rcases h4 with h | h <;> simp_all [slotOf]
  | recoveryResolved _ _ =>
      rcases h5 with h | h <;> simp_all [slotOf]
  | _ => cases hx

/-- What a replayed boundary leaves of its row in the entry. -/
structure Fills (e : JournalEvent) (entry entry' : ActionJournalEntry) : Prop where
  outcome : entry'.outcome = (outcomeOf e).getD entry.outcome
  evidence : ∀ evidence ∈ evidenceOf e, ∃ decoded,
    decodeRecoveryEvidence (storedOf e) = .ok decoded ∧
      slotOf e entry' = some decoded ∧
      ((removalOf e).isSome = true → entry.plan.regular = true →
        decoded.provenance.isSome = true →
          decoded.recoverySize.isSome = true ∧ decoded.recoverySha256.isSome = true)

theorem Fills.of_none {e : JournalEvent} {entry entry' : ActionJournalEntry}
    (ho : entry'.outcome = (outcomeOf e).getD entry.outcome)
    (h : evidenceOf e = none) : Fills e entry entry' :=
  ⟨ho, by simp [h]⟩

section

variable {method : Option String} {e : JournalEvent}
  {entry entry' : ActionJournalEntry}

/-- **One replayed boundary.** It keeps the filled slots, and fills its
own with what its row decodes to. -/
theorem replayBoundary_fills (hmay : mayReplay entry (eventPhase e) = true)
    (h : replayBoundary entry (storedOf e) method = .ok entry') :
    Extends entry entry' ∧ Fills e entry entry' := by
  unfold replayBoundary at h
  rw [storedOf_phase] at h
  have same : ∀ {entry' : ActionJournalEntry}, entry'.plan = entry.plan →
      (∀ e, slotOf e entry' = slotOf e entry) →
      entry'.outcome = (outcomeOf e).getD entry.outcome → evidenceOf e = none →
      Extends entry entry' ∧ Fills e entry entry' :=
    fun hp hs ho he => ⟨⟨hp, fun e x hx => by rw [hs e, hx]⟩, Fills.of_none ho he⟩
  cases e with
  | planned _ => simp [mayReplay, eventPhase] at hmay
  | transferVerified a evidence verified =>
      simp only [eventPhase, replayTransferVerified, bind_eq_ok, ensure_eq_ok] at h
      obtain ⟨_, -, decoded, hdecode, _, -, h⟩ := h
      obtain rfl := Except.ok.inj h
      have hnone : entry.transferEvidence = none := by
        simpa [mayReplay, eventPhase] using (Bool.and_eq_true_iff.mp hmay).2
      exact ⟨Extends.of_same rfl (.inl hnone) (.inr rfl) (.inr rfl) (.inr rfl) (.inr rfl),
        ⟨rfl, fun _ _ => ⟨decoded, hdecode, rfl, by simp [removalOf]⟩⟩⟩
  | proofBoundary a m evidence verified =>
      simp only [eventPhase, replayProofBoundary, bind_eq_ok, ensure_eq_ok] at h
      obtain ⟨_, -, _, -, _, -, _, -, _, -, decoded, hdecode, _, -, _, -, _, -, _, -, h⟩ := h
      obtain rfl := Except.ok.inj h
      have hnone : entry.proofBoundary = none := by
        simpa [mayReplay, eventPhase] using (Bool.and_eq_true_iff.mp hmay).2
      exact ⟨Extends.of_same rfl (.inr rfl) (.inl hnone) (.inr rfl) (.inr rfl) (.inr rfl),
        ⟨rfl, fun _ _ => ⟨decoded, hdecode, rfl, by simp [removalOf]⟩⟩⟩
  | removalStarted a m =>
      simp only [eventPhase, replayRemovalStarted, bind_eq_ok] at h
      obtain ⟨_, -, _, -, _, -, h⟩ := h
      obtain rfl := Except.ok.inj h
      exact same rfl (fun e => by cases e <;> rfl) rfl rfl
  | removalCompleted a result =>
      simp only [eventPhase, replayRemovalCompleted, bind_eq_ok, ensure_eq_ok,
        validateRemovalEvidence] at h
      obtain ⟨_, -, decoded, hdecode, m, -, _, -, _, hvalid, _, -, h⟩ := h
      obtain rfl := Except.ok.inj h
      have hnone : entry.removalResult = none := by
        simpa [mayReplay, eventPhase] using (Bool.and_eq_true_iff.mp hmay).2
      exact ⟨Extends.of_same rfl (.inr rfl) (.inr rfl) (.inl hnone) (.inr rfl) (.inr rfl),
        ⟨rfl, fun _ _ => ⟨decoded, hdecode, rfl, fun _ => hvalid.2.2.2.2.1⟩⟩⟩
  | completed a =>
      simp only [eventPhase, bind_eq_ok] at h
      obtain ⟨_, -, h⟩ := h
      obtain rfl := Except.ok.inj h
      exact same rfl (fun e => by cases e <;> rfl) rfl rfl
  | recoveryReview a reason evidence =>
      simp only [eventPhase] at h
      obtain ⟨decoded, hdecode, h⟩ := bind_eq_ok.mp h
      rw [show (storedOf (.recoveryReview a reason evidence)).reason =
        some (encodeReason reason) from rfl, orError_some, ok_bind,
        decodeReason_encode] at h
      obtain rfl := Except.ok.inj h
      have hnone : entry.recoveryEvidence = none := by
        simpa [mayReplay, eventPhase] using (Bool.and_eq_true_iff.mp hmay).2
      exact ⟨Extends.of_same rfl (.inr rfl) (.inr rfl) (.inr rfl) (.inl hnone) (.inr rfl),
        ⟨rfl, fun _ _ => ⟨decoded, hdecode, rfl, by simp [removalOf]⟩⟩⟩
  | recoveryResolved a resolution =>
      have hnone : entry.recoveryResolutionEvidence = none := by
        simpa [mayReplay, eventPhase] using (Bool.and_eq_true_iff.mp hmay).2
      have htext : (storedOf (.recoveryResolved a resolution)).resolution =
          some (encodeResolution resolution) := by
        cases resolution <;> rfl
      simp only [eventPhase, replayRecoveryResolved, htext, orError_some, ok_bind] at h
      cases resolution with
      | completed evidence =>
          simp only [decodeResolution, encodeResolution, if_true] at h
          obtain ⟨res, hres, h⟩ := bind_eq_ok.mp h
          obtain ⟨decoded, hdecode, rfl⟩ := map_eq_ok.mp hres
          simp only [bind_eq_ok] at h
          obtain ⟨_, -, _, -, h⟩ := h
          obtain rfl := Except.ok.inj h
          exact ⟨Extends.of_same rfl (.inr rfl) (.inr rfl) (.inr rfl) (.inr rfl)
            (.inl hnone), ⟨rfl, fun _ _ => ⟨decoded, hdecode, rfl, by simp [removalOf]⟩⟩⟩
      | unresolved reason =>
          rw [bind_ok (decodeResolution_unresolved _ _)] at h
          obtain rfl := Except.ok.inj h
          exact same rfl (fun e => by cases e <;> rfl) rfl rfl
  | progress a bytes =>
      simp only [eventPhase, bind_eq_ok] at h
      obtain ⟨_, -, h⟩ := h
      obtain rfl := Except.ok.inj h
      exact same rfl (fun e => by cases e <;> rfl) rfl rfl
  | failed a reason =>
      simp only [eventPhase] at h
      rw [show (storedOf (.failed a reason)).reason = some (encodeReason reason) from rfl,
        orError_some, ok_bind, decodeReason_encode] at h
      obtain rfl := Except.ok.inj h
      exact same rfl (fun e => by cases e <;> rfl) rfl rfl
  | unresolved a reason =>
      simp only [eventPhase] at h
      rw [show (storedOf (.unresolved a reason)).reason = some (encodeReason reason)
        from rfl, orError_some, ok_bind, decodeReason_encode] at h
      obtain rfl := Except.ok.inj h
      exact same rfl (fun e => by cases e <;> rfl) rfl rfl
  | _ =>
      simp only [eventPhase] at h
      obtain rfl := Except.ok.inj h
      exact same rfl (fun e => by cases e <;> rfl) rfl rfl

/-- **One replayed row** of an action that has an entry. -/
theorem replayEntry_fills
    (h : replayEntry method (some entry) (storedOf e) = .ok entry') :
    Extends entry entry' ∧ Fills e entry entry' := by
  unfold replayEntry at h
  rw [storedOf_phase] at h
  split at h
  · obtain ⟨p, rfl⟩ := eventPhase_eq_planned.mp ‹_›
    simp only [replayPlanned, bind_eq_ok, ensure_eq_ok] at h
    obtain ⟨_, -, _, -, _, -, _, -, _, -, _, -, _, -, _, -, _, -, _, hnone, -⟩ := h
    cases hnone
  · simp only [orError_some, ok_bind, validateReplayedTransition, bind_eq_ok,
      ensure_eq_ok] at h
    obtain ⟨_, hmay, replayed, hreplayed, h⟩ := h
    obtain rfl := Except.ok.inj h
    obtain ⟨hext, hfill⟩ := replayBoundary_fills hmay hreplayed
    have hlast : ∀ d, slotOf d { replayed with lastPhase := eventPhase e } =
        slotOf d replayed := fun d => by cases d <;> rfl
    exact ⟨⟨hext.plan, fun d x hx => (hlast d).trans (hext.slots d x hx)⟩,
      ⟨hfill.outcome, fun evidence hev => by
        obtain ⟨decoded, hdecode, hslot, hrec⟩ := hfill.evidence evidence hev
        exact ⟨decoded, hdecode, (hlast e).trans hslot, hrec⟩⟩⟩

/-- A replay that goes on from an entry keeps what the entry holds. -/
theorem replayOne_extends {es : List JournalEvent} {last : Option ActionJournalEntry}
    (h : replayOne (replayEntry method) (some entry) (es.map storedOf) = .ok last) :
    ∃ entry', last = some entry' ∧ Extends entry entry' := by
  induction es generalizing entry with
  | nil => exact ⟨entry, (Except.ok.inj h).symm, Extends.refl entry⟩
  | cons e es ih =>
      obtain ⟨next, hstep, hrest⟩ := bind_eq_ok.mp h
      obtain ⟨entry', hlast, hext⟩ := ih hrest
      exact ⟨entry', hlast, (replayEntry_fills hstep).1.trans hext⟩

/-- The plan and the outcome of a replayed entry are the history's own,
whatever became of its evidence. -/
theorem replayOne_outcome {hs : List JournalEvent} (hh : History method hs)
    (h : replayOne (replayEntry method) none (hs.map storedOf) = .ok (some entry)) :
    plan? hs = some entry.plan ∧
      entry.outcome = (latest? outcomeOf hs).getD .inProgress := by
  induction hh generalizing entry with
  | nil => cases h
  | @snoc hs e hh hadm ih =>
      rw [List.map_append, replayOne_append] at h
      obtain ⟨before, hbefore, hlast⟩ := bind_eq_ok.mp h
      obtain ⟨_, hstep, hdone⟩ := bind_eq_ok.mp hlast
      obtain rfl := Option.some.inj (Except.ok.inj hdone)
      cases before with
      | none =>
          obtain rfl : hs = [] := by
            by_contra hne
            exact absurd ((replayOne_isSome hbefore).mpr (by simpa using hne)) (by simp)
          rcases hadm.after with ⟨p, rfl, -⟩ | ⟨-, ph, hph, -⟩
          · have := hstep.symm.trans (replayPlanned_storedOf p)
            obtain rfl := Except.ok.inj this
            exact ⟨rfl, rfl⟩
          · cases hph
      | some entry₀ =>
          obtain ⟨hext, hfill⟩ := replayEntry_fills hstep
          obtain ⟨hplan, houtcome⟩ := ih hbefore
          refine ⟨plan?_snoc (hext.plan ▸ hplan), ?_⟩
          rw [hfill.outcome, latest?_snoc, houtcome]
          cases outcomeOf e <;> rfl

end

/-! ## The history's own slots -/

/-- The phases that set a slot. -/
def slotPhases : List String :=
  ["transfer_verified", "proof_boundary", "removal_completed", "recovery_review",
    "recovery_resolved"]

theorem slotPhase_once {phase ph : String} (hslot : phase ∈ slotPhases)
    (h : mayFollow phase ph = true) : phase ∉ soFar ph := by
  have key : ∀ {phases : List String}, ph ∈ phases →
      (∀ p ∈ phases, phase ∉ soFar p) → phase ∉ soFar ph := fun h hall => hall ph h
  simp only [slotPhases, List.mem_cons, List.not_mem_nil, or_false] at hslot
  rcases hslot with rfl | rfl | rfl | rfl | rfl <;>
    simp only [mayFollow, decide_eq_true_eq] at h
  all_goals first
    | (subst h; decide)
    | exact key h (by decide)

section

variable {method : Option String} {init tail : List JournalEvent} {e : JournalEvent}

/-- An event that sets a slot is the only one of its history to do so. -/
theorem History.latest?_at (hh : History method (init ++ e :: tail)) {α : Type}
    {f : JournalEvent → Option α} {phase : String} (hslot : phase ∈ slotPhases)
    (hf : ∀ d, (f d).isSome = true → eventPhase d = phase) {x : α} (hx : f e = some x) :
    latest? f (init ++ e :: tail) = some x := by
  have hphase : eventPhase e = phase := hf e (by simp [hx])
  have htail : tail.filterMap f = [] := by
    rw [List.filterMap_eq_nil_iff]
    intro d hd
    by_contra hne
    have hd' : eventPhase d = phase := hf d (Option.isSome_iff_ne_none.mpr hne)
    obtain ⟨t₁, t₂, rfl⟩ := List.append_of_mem hd
    have hh' : History method ((init ++ e :: t₁) ++ d :: t₂) := by simpa using hh
    obtain ⟨hpre, hadm⟩ := hh'.split
    rcases hadm.after with ⟨p, rfl, hnil⟩ | ⟨-, ph, hph, hmay⟩
    · simp at hnil
    · rw [hd'] at hmay
      exact slotPhase_once hslot hmay
        (hphase ▸ hpre.mem_soFar hph e (by simp))
  simp [latest?, hx, htail]

/-- **The entry of a history has each event's evidence in its slot.** -/
theorem slot_entryOf (hh : History method (init ++ e :: tail))
    {entry : ActionJournalEntry} (hentry : entryOf (init ++ e :: tail) = some entry)
    {evidence : RecoveryEvidence} (he : evidenceOf e = some evidence) :
    slotOf e entry = some evidence := by
  obtain ⟨-, -, htransfer, hproof, hremoval, hreview, hresolution⟩ :=
    entryOf_eq_some hentry
  cases e with
  | transferVerified a ev verified =>
      cases he
      exact htransfer.trans (hh.latest?_at (by decide)
        (fun d => (transferOf_isSome d).mp) rfl)
  | proofBoundary a m ev verified =>
      cases he
      exact hproof.trans (hh.latest?_at (by decide) (fun d => (proofOf_isSome d).mp) rfl)
  | removalCompleted a result =>
      cases he
      have := hremoval.trans (hh.latest?_at (by decide)
        (fun d => (removalOf_isSome d).mp) rfl)
      simp [slotOf, this]
  | recoveryReview a reason ev =>
      cases he
      exact hreview.trans (hh.latest?_at (by decide)
        (fun d => (reviewOf_isSome d).mp) rfl)
  | recoveryResolved a resolution =>
      cases resolution with
      | completed ev =>
          cases he
          exact hresolution.trans (hh.latest?_at (by decide) resolutionOf_isSome rfl)
      | unresolved _ => cases he
  | _ => cases he

end

/-! ## The converse -/

/-- A replay that ends in the entry of a history keeps its events. -/
theorem allKept_of_replayOne {method : Option String} {hs : List JournalEvent}
    (hh : History method hs) (hnumbers : ∀ e ∈ hs, NumbersFit e)
    (h : replayOne (replayEntry method) none (hs.map storedOf) = .ok (entryOf hs)) :
    AllKept hs := by
  rintro init e tail rfl
  by_cases hnone : evidenceOf e = none
  · refine ⟨hnumbers e (by simp), by simp [hnone], fun p hp result hresult => ?_⟩
    cases e <;> simp_all [removalOf, evidenceOf]
  obtain ⟨evidence, hev⟩ := Option.ne_none_iff_exists'.mp hnone
  have hne : init ≠ [] := by
    rintro rfl
    rcases hh.split.2.after with ⟨p, rfl, -⟩ | ⟨-, ph, hph, -⟩
    · cases hev
    · cases hph
  obtain ⟨plan, rest, rfl, -⟩ := hh.split.1.opens hne
  obtain ⟨last, hlast⟩ : ∃ last, entryOf ((.planned plan :: rest) ++ e :: tail) =
      some last := ⟨_, rfl⟩
  rw [List.map_append, replayOne_append, hlast] at h
  obtain ⟨before, hbefore, hafter⟩ := bind_eq_ok.mp h
  -- The entry before the event is there, and is for the plan of the history.
  obtain ⟨first, hfirst, hrest⟩ := bind_eq_ok.mp hbefore
  obtain ⟨entry, rfl, hext⟩ := replayOne_extends hrest
  have hplan : entry.plan = plan := by
    rw [hext.plan]
    have := hfirst.symm.trans (replayPlanned_storedOf plan)
    exact (Except.ok.inj this) ▸ rfl
  obtain ⟨entry', hstep, hrest'⟩ := bind_eq_ok.mp hafter
  obtain ⟨_, hlast', hext'⟩ := replayOne_extends hrest'
  obtain rfl := Option.some.inj hlast'
  obtain ⟨decoded, hdecode, hslot, hrecovered⟩ :=
    (replayEntry_fills hstep).2.evidence evidence hev
  -- What was decoded is what the history has.
  have hsame : decoded = evidence :=
    Option.some.inj ((hext'.slots e decoded hslot).symm.trans
      (slot_entryOf hh hlast hev))
  subst hsame
  refine ⟨hnumbers e (by simp), fun x hx => ?_, fun p hp result hresult hreg => ?_⟩
  · obtain rfl := Option.some.inj (hev.symm.trans hx)
    exact (decodeRecoveryEvidence_storedOf hev).mp hdecode
  · obtain rfl : plan = p := Option.some.inj hp
    have hres : result.evidence = decoded := by
      cases e <;> simp_all [removalOf, evidenceOf]
    rw [hres]
    exact hrecovered (by simp [Option.mem_def.mp hresult]) (hplan ▸ hreg)

/-- Every accepted event is kept, given the plan accepted for its action
before it. -/
def JournalKept (accepted : List JournalEvent) : Prop :=
  ∀ init e tail, accepted = init ++ e :: tail →
    Kept (plan? (historyOf init (eventActionId e))) e

theorem journalKept_iff {acc : List JournalEvent} :
    JournalKept acc ↔ ∀ a, AllKept (historyOf acc a) := by
  constructor
  · rintro h a init e tail heq
    obtain ⟨init', rest', rfl, rfl, hrest⟩ := List.filter_eq_append_iff.mp heq
    obtain ⟨skipped, tail', rfl, hskip, he, -⟩ := List.filter_eq_cons_iff.mp hrest
    have hid : eventActionId e = a := by simpa using he
    have := h (init' ++ skipped) e tail' (by simp)
    rw [historyOf_append, hid] at this
    have hnil : historyOf skipped a = [] := List.filter_eq_nil_iff.mpr hskip
    rwa [hnil, List.append_nil] at this
  · rintro h init e tail rfl
    refine h (eventActionId e) _ e (historyOf tail (eventActionId e)) ?_
    simp [historyOf]

theorem filterMap_inj_of_isSome {α β : Type} {f g : α → Option β} {l : List α}
    (hf : ∀ a ∈ l, (f a).isSome = true) (hg : ∀ a ∈ l, (g a).isSome = true)
    (h : l.filterMap f = l.filterMap g) : ∀ a ∈ l, f a = g a := by
  induction l with
  | nil => simp
  | cons a l ih =>
      obtain ⟨x, hx⟩ := Option.isSome_iff_exists.mp (hf a (by simp))
      obtain ⟨y, hy⟩ := Option.isSome_iff_exists.mp (hg a (by simp))
      simp only [List.filterMap_cons, hx, hy, List.cons.injEq] at h
      intro b hb
      rcases List.mem_cons.mp hb with rfl | hb
      · rw [hx, hy, h.1]
      · exact ih (fun c hc => hf c (List.mem_cons_of_mem _ hc))
          (fun c hc => hg c (List.mem_cons_of_mem _ hc)) h.2 b hb

section

variable {method : Option String} {run : RunJournal} {acc : List JournalEvent}

theorem Stores.numbersFit (hst : Stores run acc)
    (h : ∀ row ∈ run.actionEvents, row.fields.Fits) : ∀ e ∈ acc, NumbersFit e := by
  intro e he
  have hmem : (eventActionId e, EventFields.fromEvent e) ∈
      acc.map fun e => (eventActionId e, EventFields.fromEvent e) :=
    List.mem_map_of_mem he
  rw [← hst.rows] at hmem
  obtain ⟨row, hrow, heq⟩ := List.mem_map.mp hmem
  rw [← fits_fromEvent, ← (Prod.mk.inj heq).2]
  exact h row hrow

/-- A journal that can be read at all has been replayed action by action. -/
theorem JournalInv.read (h : JournalInv method run acc) {list : List ActionJournalEntry}
    (hload : run.loadJournal = .ok list) :
    ∃ entries : Std.ExtTreeMap ActionId ActionJournalEntry,
      (∀ e ∈ acc, NumbersFit e) ∧ intoValues entries = list ∧
        ∀ a, replayOne (replayEntry method) none ((historyOf acc a).map storedOf) =
          .ok entries[a]? := by
  unfold RunJournal.loadJournal at hload
  obtain ⟨stored, hstored, hread⟩ := bind_eq_ok.mp hload
  obtain ⟨hfits, rfl⟩ := mapM_ofRow_eq_ok.mp hstored
  obtain ⟨entries, hentries, hvalues⟩ := bind_eq_ok.mp hread
  refine ⟨entries, h.stores.numbersFit fun row hrow =>
    hfits row ((List.mem_insertionSort _).mpr hrow), Except.ok.inj hvalues, fun a => ?_⟩
  rw [h.frozen] at hentries
  have := replayKeyed_eq_ok.mp hentries a
  rwa [h.stores.sorted_filter, Std.ExtTreeMap.getElem?_empty] at this

/-- A journal that reads back as it was written keeps every event. -/
theorem JournalInv.journalKept (h : JournalInv method run acc)
    (hload : run.loadJournal = .ok (journalOf acc)) : JournalKept acc := by
  obtain ⟨entries, hnumbers, hvalues, hreplay⟩ := h.read hload
  have hpresent : ∀ a, entries[a]?.isSome = true ↔
      (entryOf (historyOf acc a)).isSome = true := by
    intro a
    rw [replayOne_isSome (hreplay a), entryOf, Option.isSome_map,
      Option.isSome_iff_ne_none, Ne, Ne, (h.histories a).plan?_none, List.map_eq_nil_iff]
  have hids : ∀ a, a ∈ (acc.filterMap plannedId).insertionSort (· ≤ ·) ↔
      entries[a]?.isSome = true := fun a => by
    rw [List.mem_insertionSort, mem_plannedIds h.histories, hpresent]
  rw [intoValues_eq (sortedIds h.histories) hids] at hvalues
  have hentry : ∀ a, entries[a]? = entryOf (historyOf acc a) := by
    intro a
    by_cases ha : a ∈ (acc.filterMap plannedId).insertionSort (· ≤ ·)
    · exact filterMap_inj_of_isSome (fun a ha => (hids a).mp ha)
        (fun a ha => (hpresent a).mp ((hids a).mp ha)) hvalues a ha
    · have h1 : entries[a]? = none := by
        simpa using fun hs => ha ((hids a).mpr hs)
      have h2 : entryOf (historyOf acc a) = none := by
        simpa using fun hs => ha ((hids a).mpr ((hpresent a).mpr hs))
      rw [h1, h2]
  refine journalKept_iff.mpr fun a => allKept_of_replayOne (h.histories a)
    (fun e he => hnumbers e (List.mem_filter.mp he).1) ?_
  rw [hreplay a, hentry a]

/-- What a loaded entry says of its action is true of its history. -/
theorem JournalInv.loaded (h : JournalInv method run acc)
    {list : List ActionJournalEntry} (hload : run.loadJournal = .ok list)
    {entry : ActionJournalEntry} (hmem : entry ∈ list) :
    plan? (historyOf acc entry.plan.actionId) = some entry.plan ∧
      entry.outcome =
        (latest? outcomeOf (historyOf acc entry.plan.actionId)).getD .inProgress := by
  obtain ⟨entries, -, rfl, hreplay⟩ := h.read hload
  obtain ⟨⟨a, _⟩, hpair, rfl⟩ := List.mem_map.mp hmem
  have hget := Std.ExtTreeMap.mem_toList_iff_getElem?_eq_some.mp hpair
  have hfacts := replayOne_outcome (h.histories a) ((hreplay a).trans (by rw [hget]))
  obtain ⟨tail, htail⟩ := plan?_eq_some.mp hfacts.1
  have ha : eventActionId (.planned _) = a := historyOf_actionId (htail ▸ List.mem_cons_self)
  exact (show _ = a from ha) ▸ hfacts

end

/-! ## The round trip, exactly -/

/-- **The journal of a run reads back as its accepted events exactly when
the columns keep every one of them.** -/
theorem loadJournal_eq_ok_iff (method : Option String) (events : List JournalEvent) :
    (RunJournal.offers method events).1.loadJournal =
        .ok (journalOf (RunJournal.offers method events).2) ↔
      JournalKept (RunJournal.offers method events).2 :=
  have h := offers_journalInv method events
  ⟨h.journalKept, fun hk => h.loadJournal (journalKept_iff.mp hk)⟩

/-! ### A removal into the Trash

A removal result as Safe Delete writes it for a regular file: the source
is gone, so the evidence has no source size or hash, while the provenance
proves the content that was removed. -/

def sampleHash : Sha256 := .ofByte 7

/-- A regular file of five bytes, to be removed once its copy is verified. -/
def samplePlan : PlanRecord :=
  { actionId := 1
    relativePath := ⟨[97]⟩
    operation := .removeSourceAfterVerification
    affectedSide := .peerA
    plannedBytes := none
    preAction :=
      { itemType := .regularFile
        size := 5
        modifiedAtUnixNanos := none
        identity := none
        sha256 := some sampleHash } }

def sampleTransfer : RecoveryEvidence :=
  RecoveryEvidence.new 10 none true true false (some 5) (some 5) (some sampleHash)
    (some sampleHash)

def sampleProvenance : RecoveryProvenance :=
  { actionId := some 1
    peer := "Peer A"
    originalRoot := ⟨[47, 114]⟩
    relativePath := ⟨[97]⟩
    runId := ⟨1⟩
    removedAtUnixNanos := 20
    recoveryMethod := .trash
    verificationState := .verified
    itemType := .regularFile
    content := some { size := 5, sha256 := sampleHash }
    sourceIdentity := none
    symlinkTarget := none
    relative_valid := by decide
    root_valid := by decide
    peer_valid := by decide +kernel }

def sampleRemoval : RemovalResult :=
  { deletionMethod := .trash
    evidence :=
      ((RecoveryEvidence.new 20 (some ⟨[47, 116, 47, 97]⟩) false true true none (some 5)
        none (some sampleHash)).withRecoveryProof 5 (some sampleHash)).withProvenance
          sampleProvenance }

def sampleEvents : List JournalEvent :=
  [.planned samplePlan, .started 1, .transferVerified 1 sampleTransfer true,
    .proofBoundary 1 .trash sampleTransfer true, .removalStarted 1 .trash,
    .removalCompleted 1 sampleRemoval]

/-- The content proof of a removed file does not come back. -/
theorem loadJournal_drops_content :
    ¬ ∀ method events, (RunJournal.offers method events).1.loadJournal =
      .ok (journalOf (RunJournal.offers method events).2) := by
  intro h
  have := h (some "trash") sampleEvents
  revert this
  decide +kernel

end SyncPlus
