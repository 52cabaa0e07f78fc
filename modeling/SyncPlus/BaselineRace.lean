import SyncPlus.Baseline

/-!
# Two updates of one baseline

The foreground application and the background scheduler are separate
processes, each with its own connection. Either may update the baseline
of a profile: load it, merge the settled paths into it, and write the
result in one transaction. The load stands outside the transaction, so
the two calls can both load before either writes, and then the call that
writes last puts back a baseline the other call's paths were never
merged into.

`updates_serializable_iff` says exactly when the outcome is nevertheless
that of running the calls one after the other.
-/

namespace SyncPlus

open BaselineTable (settle)

/-! ## Steps -/

inductive Caller where
  | first
  | second
  deriving Repr, DecidableEq

def Caller.other : Caller → Caller
  | first => second
  | second => first

@[simp] theorem Caller.other_other (c : Caller) : c.other.other = c := by
  cases c <;> rfl

@[simp] theorem Caller.other_ne (c : Caller) : c.other ≠ c := by
  cases c <;> decide

@[simp] theorem Caller.ne_other (c : Caller) : c ≠ c.other := by
  cases c <;> decide

/-- Where a call of `update_mirror_baseline` stands. -/
inductive CallState where
  | ready
  | loaded (existing : Option SyncBaseline)
  | finished (result : Except StorageError Unit)

structure Race where
  table : BaselineTable
  call : Caller → CallState

def loadedState : Except StorageError (Option SyncBaseline) → CallState
  | .ok existing => .loaded existing
  | .error e => .finished (.error e)

namespace Race

def start (table : BaselineTable) : Race := { table, call := fun _ => .ready }

/-- One database step of one call: its load, or its write transaction. -/
def step (updates : Caller → SyncBaseline) (r : Race) (c : Caller) : Race :=
  match r.call c with
  | .ready =>
      { r with
        call := Function.update r.call c
          (loadedState (r.table.loadMirrorBaseline (updates c).profileName)) }
  | .loaded existing =>
      { table := r.table.write (settle existing (updates c))
        call := Function.update r.call c (.finished (.ok ())) }
  | .finished _ => r

def run (updates : Caller → SyncBaseline) (table : BaselineTable)
    (schedule : List Caller) : Race :=
  schedule.foldl (step updates) (start table)

end Race

/-- Both steps of both calls, in some order. -/
def Complete (schedule : List Caller) : Prop :=
  schedule.Perm [.first, .first, .second, .second]

instance (schedule : List Caller) : Decidable (Complete schedule) :=
  inferInstanceAs (Decidable (schedule.Perm _))

/-- The table after a whole call. -/
def BaselineTable.after (table : BaselineTable) (b : SyncBaseline) : BaselineTable :=
  match table.updateMirrorBaseline b with
  | .ok table => table
  | .error _ => table

/-- The stored baseline ends as if one call had run after the other. -/
def Serializable (updates : Caller → SyncBaseline) (table : BaselineTable)
    (schedule : List Caller) : Prop :=
  ∃ c : Caller, (Race.run updates table schedule).table[(updates c).profileName]? =
    ((table.after (updates c)).after (updates c.other))[(updates c).profileName]?

/-- Both calls load before either writes. -/
def Overlaps (schedule : List Caller) : Prop :=
  ∃ c : Caller, schedule.take 2 = [c, c.other]

/-- The write of `last` over that of `before` does no harm: every path
that only `before` settles was stored in that state already. Where the
peers or roots of the two differ, `before` would have been replaced, and
`last` settles every path that was stored for its own. An update with a
size that cannot be read back stops the other call. -/
def Harmless (existing : Option SyncBaseline) (before last : SyncBaseline) : Prop :=
  last.Readable →
    before.Readable ∧
      if SameEndpoints before last then
        ∀ p, last.item p = none → ∀ i, before.item p = some i →
          storedAt existing last p = some i
      else ∀ p, last.item p = none → storedAt existing last p = none

/-! ## The schedules -/

theorem complete_cases {schedule : List Caller} (h : Complete schedule) :
    (∃ c : Caller, schedule = [c, c, c.other, c.other]) ∨
      ∃ c last : Caller, schedule = [c, c.other, last.other, last] := by
  have hlen : schedule.length = 4 := h.length_eq
  match schedule, hlen with
  | [a, b, c, d], _ =>
      have hcount := h.count_eq .first
      cases a <;> cases b <;> cases c <;> cases d <;>
        first
        | exact absurd hcount (by decide)
        | exact .inl ⟨.first, rfl⟩
        | exact .inl ⟨.second, rfl⟩
        | exact .inr ⟨.first, .first, rfl⟩
        | exact .inr ⟨.first, .second, rfl⟩
        | exact .inr ⟨.second, .first, rfl⟩
        | exact .inr ⟨.second, .second, rfl⟩

theorem not_overlaps_serial (c : Caller) : ¬ Overlaps [c, c, c.other, c.other] := by
  rintro ⟨d, h⟩
  cases c <;> cases d <;> cases h

theorem overlaps_overlapping (c last : Caller) :
    Overlaps [c, c.other, last.other, last] :=
  ⟨c, rfl⟩

section

variable {updates : Caller → SyncBaseline} {table : BaselineTable}

theorem BaselineTable.after_eq {b : SyncBaseline} {existing : Option SyncBaseline}
    (h : table.loadMirrorBaseline b.profileName = .ok existing) :
    table.after b = table.write (settle existing b) := by
  simp [BaselineTable.after, BaselineTable.updateMirrorBaseline, h, pure, Except.pure]

theorem BaselineTable.after_error {b : SyncBaseline} {e : StorageError}
    (h : table.loadMirrorBaseline b.profileName = .error e) : table.after b = table := by
  simp [BaselineTable.after, BaselineTable.updateMirrorBaseline, h, bind, Except.bind]

/-- The two steps of a call, one after the other, are the call. -/
theorem step_step (updates : Caller → SyncBaseline) {r : Race} {c : Caller}
    (h : r.call c = .ready) :
    (((r.step updates c).step updates c).table = r.table.after (updates c)) ∧
      ∀ d, d ≠ c → ((r.step updates c).step updates c).call d = r.call d := by
  cases hload : r.table.loadMirrorBaseline (updates c).profileName with
  | ok existing =>
      rw [BaselineTable.after_eq hload]
      refine ⟨?_, fun d hd => ?_⟩ <;> simp_all [Race.step, loadedState]
  | error e =>
      rw [BaselineTable.after_error hload]
      refine ⟨?_, fun d hd => ?_⟩ <;> simp_all [Race.step, loadedState]

theorem run_serial (c : Caller) :
    (Race.run updates table [c, c, c.other, c.other]).table =
      (table.after (updates c)).after (updates c.other) := by
  obtain ⟨htable, hcall⟩ := step_step updates (r := Race.start table) (c := c) rfl
  have h := (step_step updates (hcall c.other (by simp))).1
  rw [htable] at h
  exact h

variable {profile : String}

/-- Where both load first, both have loaded the same. -/
theorem run_overlapping (hprofile : ∀ c, (updates c).profileName = profile)
    (c last : Caller) {existing : Option SyncBaseline}
    (h : table.loadMirrorBaseline profile = .ok existing) :
    (Race.run updates table [c, c.other, last.other, last]).table =
      (table.write (settle existing (updates last.other))).write
        (settle existing (updates last)) := by
  cases c <;> cases last <;>
    simp [Race.run, Race.step, Race.start, Caller.other, hprofile, h, loadedState]

theorem run_overlapping_error (hprofile : ∀ c, (updates c).profileName = profile)
    (c last : Caller) {e : StorageError}
    (h : table.loadMirrorBaseline profile = .error e) :
    (Race.run updates table [c, c.other, last.other, last]).table = table := by
  cases c <;> cases last <;>
    simp [Race.run, Race.step, Race.start, Caller.other, hprofile, h, loadedState]

/-! ## What the table holds -/

theorem getElem?_write (b : SyncBaseline) :
    (table.write b)[b.profileName]? = some (BaselineRow.ofBaseline b) := by
  simp [BaselineTable.write]

theorem load_write (table : BaselineTable) {b : SyncBaseline} :
    (b.Readable → (table.write b).loadMirrorBaseline b.profileName = .ok (some b)) ∧
      (¬ b.Readable → ∃ e, (table.write b).loadMirrorBaseline b.profileName = .error e) := by
  simp only [BaselineTable.loadMirrorBaseline, getElem?_write]
  constructor
  · intro hread
    rw [decode_ofBaseline.mpr ⟨hread, rfl⟩]
    rfl
  · intro hread
    cases hd : (BaselineRow.ofBaseline b).decode b.profileName with
    | ok b' => exact absurd (decode_ofBaseline.mp hd).1 hread
    | error e => exact ⟨e, rfl⟩

theorem load_readable {existing : Option SyncBaseline}
    (h : table.loadMirrorBaseline profile = .ok existing) :
    ∀ e ∈ existing, e.Readable := by
  unfold BaselineTable.loadMirrorBaseline at h
  split at h
  · rw [← Except.ok.inj h]
    simp
  · obtain ⟨b, hb, rfl⟩ := map_eq_ok.mp h
    rintro e ⟨⟩
    exact (decode_readable hb).1

/-- The row that one call leaves after the other. -/
theorem after_after {existing : Option SyncBaseline} {b b' : SyncBaseline}
    (hb : b.profileName = profile) (hb' : b'.profileName = profile)
    (h : table.loadMirrorBaseline profile = .ok existing) :
    ((table.after b).after b')[profile]? =
      some (BaselineRow.ofBaseline
        (if b.Readable then settle (some (settle existing b)) b' else settle existing b)) := by
  have hname : ∀ {existing} {b : SyncBaseline}, (settle existing b).profileName =
      b.profileName := fun {existing b} => (settle_header existing b).1.1
  rw [BaselineTable.after_eq (b := b) (hb ▸ h)]
  by_cases hread : b.Readable
  · have hload := (load_write table).1
      ((readable_settle (load_readable h)).mpr hread)
    rw [hname, hb, ← hb'] at hload
    rw [BaselineTable.after_eq hload, if_pos hread, ← hb', ← hname, getElem?_write]
  · obtain ⟨e, hload⟩ := (load_write table).2
      (mt (readable_settle (load_readable h)).mp hread)
    rw [hname, hb, ← hb'] at hload
    rw [BaselineTable.after_error hload, if_neg hread, ← hb, ← hname, getElem?_write]

/-- The rows of a readable baseline and another are the same only when
the two are. -/
theorem ofBaseline_eq {b b' : SyncBaseline} (hread : b.Readable)
    (hname : b.profileName = b'.profileName) :
    BaselineRow.ofBaseline b = BaselineRow.ofBaseline b' ↔ b = b' := by
  constructor
  · intro h
    have hdecode := decode_ofBaseline.mpr ⟨hread, rfl⟩
    rw [h, hname] at hdecode
    exact (decode_ofBaseline.mp hdecode).2
  · rintro rfl
    rfl

end

/-! ## When the last write does no harm -/

section

variable {existing : Option SyncBaseline} {before last : SyncBaseline}

theorem SameEndpoints.symm {b b' : SyncBaseline} (h : SameEndpoints b b') :
    SameEndpoints b' b :=
  ⟨h.1.symm, h.2.1.symm, h.2.2.1.symm, h.2.2.2.1.symm, h.2.2.2.2.symm⟩

theorem SameEndpoints.trans {b b' b'' : SyncBaseline} (h : SameEndpoints b b')
    (h' : SameEndpoints b' b'') : SameEndpoints b b'' :=
  ⟨h.1.trans h'.1, h.2.1.trans h'.2.1, h.2.2.1.trans h'.2.2.1,
    h.2.2.2.1.trans h'.2.2.2.1, h.2.2.2.2.trans h'.2.2.2.2⟩

theorem storedAt_congr (h : SameEndpoints before last) (p : RelativePath) :
    storedAt existing before p = storedAt existing last p := by
  cases existing with
  | none => rfl
  | some e =>
      have : SameEndpoints e before ↔ SameEndpoints e last :=
        ⟨fun he => he.trans h, fun he => he.trans h.symm⟩
      simp [storedAt, this]

/-- What an update finds of another that went before it. -/
theorem storedAt_settle (p : RelativePath) :
    storedAt (some (settle existing before)) last p =
      if SameEndpoints before last then (before.item p).or (storedAt existing last p)
      else none := by
  have hiff : SameEndpoints (settle existing before) last ↔ SameEndpoints before last :=
    ⟨fun h => (settle_header existing before).1.symm.trans h,
      fun h => (settle_header existing before).1.trans h⟩
  rw [show storedAt (some (settle existing before)) last p =
    if SameEndpoints (settle existing before) last then (settle existing before).item p
    else none from rfl]
  simp only [hiff, item_settle]
  split
  · rw [storedAt_congr ‹_›]
  · rfl

theorem settle_eq_iff {existing' : Option SyncBaseline} :
    settle existing last = settle existing' last ↔
      ∀ p, last.item p = none → storedAt existing last p = storedAt existing' last p := by
  constructor
  · intro h p hp
    have := congrArg (fun b => b.item p) h
    simpa [item_settle, hp] using this
  · intro h
    have hl := settle_header existing last
    have hl' := settle_header existing' last
    refine SyncBaseline.ext_item (hl.1.trans hl'.1.symm) (hl.2.trans hl'.2.symm)
      fun p => ?_
    rw [item_settle, item_settle]
    cases hp : last.item p with
    | none => rw [h p hp]
    | some i => rfl

/-- The last call's baseline is the one it would have written after the
other exactly when that does no harm. -/
theorem settle_eq_settle_iff (existing : Option SyncBaseline) :
    settle existing last = settle (some (settle existing before)) last ↔
      if SameEndpoints before last then
        ∀ p, last.item p = none → ∀ i, before.item p = some i →
          storedAt existing last p = some i
      else ∀ p, last.item p = none → storedAt existing last p = none := by
  rw [settle_eq_iff]
  simp only [storedAt_settle]
  split
  · refine forall_congr' fun p => forall_congr' fun _ => ?_
    cases hp : before.item p <;> simp
  · rfl

/-- The other order does not give more. -/
theorem settle_eq_settle_of_swap
    (h : settle existing last = settle (some (settle existing last)) before) :
    settle existing last = settle (some (settle existing before)) last := by
  have hsame : SameEndpoints before last := by
    have h1 := (settle_header existing last).1
    have h2 := (settle_header (some (settle existing last)) before).1
    rw [← h] at h2
    exact h2.symm.trans h1
  rw [settle_eq_settle_iff, if_pos hsame]
  intro p hp i hi
  have := congrArg (fun b => b.item p) h
  simp only [item_settle, hp, hi, Option.none_or, Option.some_or] at this
  exact this

end

/-! ## Exactly when the calls are serializable -/

section

variable {updates : Caller → SyncBaseline} {table : BaselineTable} {profile : String}

theorem serializable_serial (c : Caller) :
    Serializable updates table [c, c, c.other, c.other] :=
  ⟨c, by rw [run_serial]⟩

theorem serializable_unreadable (hprofile : ∀ c, (updates c).profileName = profile)
    (c last : Caller) {e : StorageError}
    (h : table.loadMirrorBaseline profile = .error e) :
    Serializable updates table [c, c.other, last.other, last] := by
  refine ⟨c, ?_⟩
  have hafter : ∀ d, table.after (updates d) = table := fun d =>
    BaselineTable.after_error (by rw [hprofile d]; exact h)
  rw [run_overlapping_error hprofile c last h, hafter, hafter]

theorem settle_profileName (existing : Option SyncBaseline) (b : SyncBaseline) :
    (settle existing b).profileName = b.profileName :=
  (settle_header existing b).1.1

/-- **Overlapping calls.** Two cases for the order they could stand for,
and in each the sizes decide whether the second of them could load. -/
theorem serializable_overlapping (hprofile : ∀ c, (updates c).profileName = profile)
    (c last : Caller) {existing : Option SyncBaseline}
    (h : table.loadMirrorBaseline profile = .ok existing) :
    Serializable updates table [c, c.other, last.other, last] ↔
      Harmless existing (updates last.other) (updates last) := by
  have hrun : (Race.run updates table [c, c.other, last.other, last]).table[profile]? =
      some (BaselineRow.ofBaseline (settle existing (updates last))) := by
    rw [run_overlapping hprofile c last h, ← hprofile last,
      ← settle_profileName existing (updates last), getElem?_write]
  have hread : ∀ {b : SyncBaseline}, (settle existing b).Readable ↔ b.Readable :=
    readable_settle (load_readable h)
  -- One of the two orders, with its first call named.
  have hser : Serializable updates table [c, c.other, last.other, last] ↔
      ∃ d : Caller, BaselineRow.ofBaseline (settle existing (updates last)) =
        BaselineRow.ofBaseline (if (updates d).Readable then
          settle (some (settle existing (updates d))) (updates d.other)
          else settle existing (updates d)) := by
    refine exists_congr fun d => ?_
    rw [hprofile d, hrun, after_after (hprofile d) (hprofile d.other) h,
      Option.some.injEq]
  rw [hser]
  by_cases hlast : (updates last).Readable
  · -- The row that was written can be read, so rows agree when baselines do.
    have hrow : ∀ d, (BaselineRow.ofBaseline (settle existing (updates last)) =
        BaselineRow.ofBaseline (if (updates d).Readable then
          settle (some (settle existing (updates d))) (updates d.other)
          else settle existing (updates d))) ↔
        settle existing (updates last) = if (updates d).Readable then
          settle (some (settle existing (updates d))) (updates d.other)
          else settle existing (updates d) := by
      intro d
      refine ofBaseline_eq (hread.mpr hlast) ?_
      split <;> simp only [settle_profileName, hprofile]
    simp only [hrow, Harmless, hlast, true_implies]
    by_cases hbefore : (updates last.other).Readable
    · rw [← settle_eq_settle_iff existing]
      simp only [hbefore, true_and]
      constructor
      · rintro ⟨d, hd⟩
        by_cases hdl : d = last
        · subst hdl
          rw [if_pos hlast] at hd
          exact settle_eq_settle_of_swap hd
        · obtain rfl : d = last.other := by
            cases d <;> cases last <;> first | rfl | exact absurd rfl hdl
          rw [if_pos hbefore, Caller.other_other] at hd
          exact hd
      · intro heq
        exact ⟨last.other, by rw [if_pos hbefore, Caller.other_other, ← heq]⟩
    · simp only [hbefore, false_and, iff_false, not_exists]
      intro d hd
      by_cases hdl : d = last
      · subst hdl
        rw [if_pos hlast] at hd
        have hall : ∀ e ∈ some (settle existing (updates d)), e.Readable := by
          rintro e ⟨⟩
          exact hread.mpr hlast
        exact hbefore ((readable_settle hall).mp (hd ▸ hread.mpr hlast))
      · obtain rfl : d = last.other := by
          cases d <;> cases last <;> first | rfl | exact absurd rfl hdl
        rw [if_neg hbefore] at hd
        exact hbefore (hread.mp (hd ▸ hread.mpr hlast))
  · -- The other call could not have loaded after this one.
    simp only [Harmless, hlast, false_implies, iff_true]
    exact ⟨last, by rw [if_neg hlast]⟩

/-- A path that either call settles is there after both, when they ran
one after the other. -/
theorem settled_present (hprofile : ∀ c, (updates c).profileName = profile)
    (hsame : ∀ c c', SameEndpoints (updates c) (updates c'))
    (hread : ∀ c, (updates c).Readable) {existing : Option SyncBaseline}
    (h : table.loadMirrorBaseline profile = .ok existing) (c : Caller) :
    ∃ b : SyncBaseline, ((table.after (updates c)).after (updates c.other))[profile]? =
        some (BaselineRow.ofBaseline b) ∧
      ∀ d p, ((updates d).item p).isSome = true → (b.item p).isSome = true := by
  refine ⟨settle (some (settle existing (updates c))) (updates c.other), ?_, ?_⟩
  · rw [after_after (hprofile c) (hprofile c.other) h, if_pos (hread c)]
  · intro d p hp
    rw [item_settle, storedAt_settle, if_pos (hsame c c.other)]
    by_cases hd : d = c
    · subst hd
      cases h1 : (updates d.other).item p <;> cases h2 : (updates d).item p <;> simp_all
    · obtain rfl : d = c.other := by
        cases d <;> cases c <;> first | rfl | exact absurd rfl hd
      cases h1 : (updates c.other).item p <;> simp_all

end

/-- **Two updates of one profile.** Whatever the order of their database
steps, the stored baseline is that of running one after the other exactly
when they do not overlap or the last write does no harm to the other; and
then no path settled by either, for the same peers, is lost. -/
theorem updates_serializable_iff (updates : Caller → SyncBaseline)
    (table : BaselineTable) (schedule : List Caller)
    (hprofile : (updates .second).profileName = (updates .first).profileName)
    (hcomplete : Complete schedule) :
    (Serializable updates table schedule ↔
      (Overlaps schedule → ∀ last ∈ schedule.getLast?, ∀ existing,
        table.loadMirrorBaseline (updates .first).profileName = .ok existing →
          Harmless existing (updates last.other) (updates last))) ∧
    (Serializable updates table schedule →
      SameEndpoints (updates .first) (updates .second) →
      (∀ c, (updates c).Readable) →
      ∀ existing, table.loadMirrorBaseline (updates .first).profileName = .ok existing →
        ∃ b : SyncBaseline,
          (Race.run updates table schedule).table[(updates .first).profileName]? =
            some (BaselineRow.ofBaseline b) ∧
          ∀ c p, ((updates c).item p).isSome = true → (b.item p).isSome = true) := by
  have hall : ∀ c, (updates c).profileName = (updates .first).profileName := by
    intro c
    cases c
    · rfl
    · exact hprofile
  constructor
  · rcases complete_cases hcomplete with ⟨c, rfl⟩ | ⟨c, last, rfl⟩
    · exact iff_of_true (serializable_serial c) fun h => absurd h (not_overlaps_serial c)
    · simp only [overlaps_overlapping, true_implies, List.getLast?_cons_cons,
        List.getLast?_singleton, Option.mem_def, Option.some.injEq, forall_eq']
      cases hload : table.loadMirrorBaseline (updates .first).profileName with
      | ok existing =>
          rw [serializable_overlapping hall c last hload]
          simp
      | error e =>
          exact iff_of_true (serializable_unreadable hall c last hload) (by simp)
  · rintro ⟨c, hser⟩ hsame hread existing hload
    have hsames : ∀ c c', SameEndpoints (updates c) (updates c') := by
      rintro (_ | _) (_ | _)
      · exact ⟨rfl, rfl, rfl, rfl, rfl⟩
      · exact hsame
      · exact hsame.symm
      · exact ⟨rfl, rfl, rfl, rfl, rfl⟩
    obtain ⟨b, hb, hpresent⟩ := settled_present hall hsames hread hload c
    rw [hall c] at hser
    exact ⟨b, hser.trans hb, hpresent⟩

/-! ### Two calls that settle a path each -/

/-- A directory that both peers have. -/
def settledItem (name : UInt8) : SyncBaselineItem :=
  let state : SyncBaselineItemState :=
    { itemType := .directory
      size := 0
      modifiedAtUnixNanos := none
      readonly := false
      executablePermissions := none
      symlinkTarget := none
      contentFingerprint := none }
  { relativePath := [[name]], peerA := some state, peerB := some state }

def settledDirectory (name : UInt8) : SyncBaseline where
  profileName := "Photos"
  peerAName := "Peer A"
  peerARoot := [.rootDir, .normal [97]]
  peerBName := "Peer B"
  peerBRoot := [.rootDir, .normal [98]]
  metadata := ⟨true, false, false, false, ⟨false, false, false⟩⟩
  items := [settledItem name]
  sorted := List.pairwise_singleton _ _

/-- The second call settles what the first does, and one directory more. -/
def settledAlso : Caller → SyncBaseline
  | .first => settledDirectory 97
  | .second =>
      { settledDirectory 97 with
        items := [settledItem 97, settledItem 98]
        sorted := by decide }

def settledBy : Caller → SyncBaseline
  | .first => settledDirectory 97
  | .second => settledDirectory 98

/-- Both calls load before either writes, and the write of the second loses nothing. -/
theorem settledAlso_serializable :
    Overlaps [.first, .second, .first, .second] ∧
      Serializable settledAlso ∅ [.first, .second, .first, .second] := by
  refine ⟨⟨.first, rfl⟩,
    (updates_serializable_iff settledAlso ∅ _ rfl (by decide)).1.mpr fun _ last hlast existing _ => ?_⟩
  obtain rfl : Caller.second = last := Option.some.inj hlast
  refine fun _ => ⟨by decide +kernel, ?_⟩
  rw [if_pos (by decide)]
  intro p hnone item hitem
  obtain ⟨hmem, rfl⟩ := (lookup_eq_some (settledAlso .first).sorted).mp hitem
  obtain rfl := List.mem_singleton.mp hmem
  exact absurd rfl (lookup_eq_none.mp hnone (settledItem 97) List.mem_cons_self)

/-- Where both calls load before either writes, one path is lost. -/
theorem settledBy_not_serializable :
    ¬ ∀ updates table schedule,
      (updates Caller.second).profileName = (updates Caller.first).profileName →
      Complete schedule → Serializable updates table schedule := by
  intro h
  obtain ⟨c, hc⟩ := h settledBy ∅ [.first, .second, .first, .second] rfl (by decide)
  cases c <;> revert hc <;> decide +kernel

end SyncPlus
