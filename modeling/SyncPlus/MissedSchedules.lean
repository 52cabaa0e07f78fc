import Mathlib.Data.Finset.Dedup
import Mathlib.Data.Finset.Card
import Mathlib.Order.Bounds.Basic
import SyncPlus.ProfileStore

/-!
# Missed schedules

A Scheduled Run that could not proceed is recorded in a notice, which asks the user for
a decision. A profile has one pending notice at most; what is missed while it waits joins
it, and the notice keeps the first and the latest time and counts.

Only the run that made the notice is stored in it. A run that joined is forgotten: it is
counted once more when it is recorded again, and in a second notice when its own was
decided meanwhile. Of the times, the latest is a maximum, but the first stays what it was.
`missed_schedules_exact` says that nothing else goes wrong, in any run of calls.
-/

namespace SyncPlus

inductive MissedScheduleDecision where
  | pending
  | runNow
  | notNow
  deriving DecidableEq

/-- A row of `missed_schedule_notices`, and what it is decoded to. -/
structure MissedScheduleNotice where
  noticeId : Nat
  profileId : SyncProfileId
  runId : RunId
  firstScheduledAt : Int
  latestScheduledAt : Int
  reason : String
  decision : MissedScheduleDecision
  missedCount : Nat
  deriving DecidableEq

/-- A row of `scheduler_events` of the kind `missed`. -/
structure MissedEvent where
  profileId : SyncProfileId
  runId : RunId
  createdAt : Int64
  missedNoticeId : Nat
  deriving DecidableEq

/-- The errors of the storage, with the two that only a decision can end with. -/
inductive MissedScheduleError where
  | storage (error : StorageError)
  | notFound (noticeId : UInt64)
  | alreadyDecided (noticeId : UInt64) (decision : MissedScheduleDecision)
  deriving DecidableEq

/-- `length`, which counts the characters before the first NUL. -/
def sqlLength (text : String) : Nat := (text.toList.takeWhile (· ≠ nulChar)).length

def MissedScheduleNotice.decode (notice : MissedScheduleNotice) :
    Except StorageError MissedScheduleNotice := do
  ensure (0 ≤ notice.firstScheduledAt ∧ notice.firstScheduledAt ≤ notice.latestScheduledAt ∧
      notice.missedCount ≠ 0 ∧ trimIsEmpty notice.reason = false)
    (.corruptEvidence "missed schedule notice contains invalid values")
  return notice

/-- The two tables, and the largest identifier that a notice was ever given. -/
structure MissedStore where
  sequence : Nat
  notices : List MissedScheduleNotice
  missedEvents : List MissedEvent

/-- What a call meets besides the tables: its clock, whether the database refuses what
it writes, which is rolled back then, and whether it refuses what is read afterwards. -/
structure NoticeMoment where
  currentUnixSeconds : Except StorageError Int64
  refused : Option SqliteError
  unread : Option SqliteError

def admittedBy (failure : Option SqliteError) : Except StorageError Unit :=
  match failure with
  | none => .ok ()
  | some error => .error (.sqlite error)

namespace MissedStore

def existingForRun (store : MissedStore) (runId : RunId) : Option MissedScheduleNotice :=
  store.notices.find? fun notice => notice.runId = runId

def pendingForProfile (store : MissedStore) (profileId : SyncProfileId) :
    Option MissedScheduleNotice :=
  store.notices.find? fun notice => notice.profileId = profileId ∧ notice.decision = .pending

/-- The columns the update sets in the row of the pending notice. -/
def joined (notice : MissedScheduleNotice) (scheduledAt : Int) (reason : String) :
    MissedScheduleNotice :=
  { notice with
    latestScheduledAt := max notice.latestScheduledAt scheduledAt
    reason
    missedCount := notice.missedCount + 1 }

def update (store : MissedStore) (noticeId : Nat)
    (f : MissedScheduleNotice → MissedScheduleNotice) : MissedStore :=
  { store with notices := store.notices.map fun notice =>
      if notice.noticeId = noticeId then f notice else notice }

def insertNotice (store : MissedStore) (profileId : SyncProfileId) (runId : RunId)
    (scheduledAt : Int) (reason : String) : MissedStore :=
  { store with
    sequence := store.sequence + 1
    notices := store.notices ++ [{
      noticeId := store.sequence + 1
      profileId, runId
      firstScheduledAt := scheduledAt
      latestScheduledAt := scheduledAt
      reason
      decision := .pending
      missedCount := 1 }] }

/-- The notice a run is recorded into, and the table with it. The update and the insert
keep the other constraints of the schema by themselves. -/
def noticeFor (store : MissedStore) (profileId : SyncProfileId) (runId : RunId)
    (scheduledAt : Int) (reason : String) : Except StorageError (Nat × MissedStore) :=
  match store.existingForRun runId with
  | some notice => .ok (notice.noticeId, store)
  | none => do
      ensure (0 < sqlLength reason) (.sqlite .constraintViolation)
      match store.pendingForProfile profileId with
      | some notice =>
          return (notice.noticeId,
            store.update notice.noticeId fun row => joined row scheduledAt reason)
      | none =>
          ensure (store.sequence < 2 ^ 63 - 1) (.sqlite .full)
          return (store.sequence + 1, store.insertNotice profileId runId scheduledAt reason)

/-- Whether and how the run's event is written. -/
def insertMissedEvent (store : MissedStore) (profileId : SyncProfileId) (runId : RunId)
    (createdAt : Int64) (noticeId : Nat) : Except StorageError MissedStore :=
  if store.missedEvents.any fun event => event.runId = runId then .ok store
  else do
    ensure (0 ≤ createdAt) (.invalidEvent "scheduler event time must be nonnegative")
    return { store with missedEvents :=
      store.missedEvents ++ [⟨profileId, runId, createdAt, noticeId⟩] }

/-- `record_missed_schedule`, up to its commit. -/
def commitMissedSchedule (store : MissedStore) (profileId : SyncProfileId) (runId : RunId)
    (scheduledAt : Int) (reason : String) (moment : NoticeMoment) :
    Except StorageError (Nat × MissedStore) := do
  ensure (0 ≤ scheduledAt ∧ trimIsEmpty reason = false)
    (.invalidEvent "missed schedule notices require a nonnegative time and a reason")
  let _ ← profileId.valueAsI64
  ensure (FitsI64 runId.value) (.invalidEvent "missed schedule run identifier is out of range")
  let createdAt ← moment.currentUnixSeconds
  admittedBy moment.refused
  let (noticeId, stored) ← store.noticeFor profileId runId scheduledAt reason
  let stored ← stored.insertMissedEvent profileId runId createdAt noticeId
  return (noticeId, stored)

def loadMissedScheduleNotice (store : MissedStore) (noticeId : Nat)
    (unread : Option SqliteError) : Except StorageError (Option MissedScheduleNotice) := do
  admittedBy unread
  match store.notices.find? fun notice => notice.noticeId = noticeId with
  | none => return none
  | some notice => notice.decode.map some

def recordMissedSchedule (store : MissedStore) (profileId : SyncProfileId) (runId : RunId)
    (scheduledAt : Int) (reason : String) (moment : NoticeMoment) :
    Except StorageError MissedScheduleNotice × MissedStore :=
  match store.commitMissedSchedule profileId runId scheduledAt reason moment with
  | .error error => (.error error, store)
  | .ok (noticeId, stored) =>
      (do
        let notice ← stored.loadMissedScheduleNotice noticeId moment.unread
        orError notice (.corruptEvidence "new missed schedule notice disappeared"),
       stored)

/-- The update of a decision, which asks for a notice that is still pending. -/
def settle (store : MissedStore) (noticeId : Nat) (decision : MissedScheduleDecision) :
    MissedStore :=
  store.update noticeId fun row => if row.decision = .pending then { row with decision } else row

def settles (store : MissedStore) (noticeId : Nat) : Bool :=
  store.notices.any fun notice => notice.noticeId = noticeId ∧ notice.decision = .pending

/-- What is asked when the update changed no row. -/
def alreadySettled (store : MissedStore) (noticeId : UInt64) (decision : MissedScheduleDecision)
    (unread : Option SqliteError) : Except MissedScheduleError Unit := do
  (admittedBy unread).mapError .storage
  match store.notices.find? fun notice => notice.noticeId = noticeId.toNat with
  | none => .error (.notFound noticeId)
  | some existing =>
      ensure (existing.decision = decision) (.alreadyDecided noticeId existing.decision)

def markMissedScheduleDecision (store : MissedStore) (noticeId : UInt64)
    (decision : MissedScheduleDecision) (moment : NoticeMoment) :
    Except MissedScheduleError MissedScheduleNotice × MissedStore :=
  if decision = .pending then
    (.error (.storage
      (.invalidEvent "a missed schedule decision must be Run Now or Not Now")), store)
  else if ¬ FitsI64 noticeId then
    (.error (.storage (.invalidEvent "notice identifier is out of range")), store)
  else match moment.refused with
    | some error => (.error (.storage (.sqlite error)), store)
    | none =>
        let stored := store.settle noticeId.toNat decision
        (do
          if store.settles noticeId.toNat = false then
            stored.alreadySettled noticeId decision moment.unread
          let notice ←
            (stored.loadMissedScheduleNotice noticeId.toNat moment.unread).mapError .storage
          orError notice (.notFound noticeId),
         stored)

end MissedStore

/-! ## Runs of calls -/

inductive MissedCall where
  | recordMissedSchedule (profileId : SyncProfileId) (runId : RunId) (scheduledAt : Int)
      (reason : String) (moment : NoticeMoment)
  | markMissedScheduleDecision (noticeId : UInt64) (decision : MissedScheduleDecision)
      (moment : NoticeMoment)

/-- A recording that was committed, whatever its call returned then. -/
structure MissedRecording where
  runId : RunId
  scheduledAt : Int
  noticeId : Nat
  deriving DecidableEq

/-- The tables, and what was recorded so far, the last first. -/
structure MissedState where
  store : MissedStore
  recorded : List MissedRecording

/-- Each run once, as it was recorded first. -/
def firstRecordings : List MissedRecording → List MissedRecording
  | [] => []
  | recording :: past =>
      if past.any fun earlier => earlier.runId = recording.runId then firstRecordings past
      else recording :: firstRecordings past

def intoNotice (recorded : List MissedRecording) (noticeId : Nat) : List MissedRecording :=
  recorded.filter fun recording => recording.noticeId = noticeId

/-- The runs that were recorded into a notice. -/
def runsRecorded (recorded : List MissedRecording) (noticeId : Nat) : Finset RunId :=
  ((intoNotice recorded noticeId).map fun recording => recording.runId).toFinset

/-- The times those runs were scheduled at. -/
def timesRecorded (recorded : List MissedRecording) (noticeId : Nat) : Set Int :=
  {time | ∃ recording ∈ firstRecordings (intoNotice recorded noticeId),
    recording.scheduledAt = time}

namespace MissedState

def empty : MissedState := ⟨⟨0, [], []⟩, []⟩

def step (state : MissedState) : MissedCall → MissedState
  | .recordMissedSchedule profileId runId scheduledAt reason moment =>
      match state.store.commitMissedSchedule profileId runId scheduledAt reason moment with
      | .error _ => state
      | .ok (noticeId, stored) => ⟨stored, ⟨runId, scheduledAt, noticeId⟩ :: state.recorded⟩
  | .markMissedScheduleDecision noticeId decision moment =>
      { state with store := (state.store.markMissedScheduleDecision noticeId decision moment).2 }

/-- What a notice says of the runs that were recorded into it. -/
structure Tells (recorded : List MissedRecording) (notice : MissedScheduleNotice) : Prop where
  count : notice.missedCount = (runsRecorded recorded notice.noticeId).card
  first : IsLeast (timesRecorded recorded notice.noticeId) notice.firstScheduledAt
  latest : IsGreatest (timesRecorded recorded notice.noticeId) notice.latestScheduledAt

/-- The notices tell exactly what was recorded, and a profile has one pending notice at
most. -/
structure Exact (state : MissedState) : Prop where
  ids : (state.store.notices.map fun notice => notice.noticeId).Nodup
  pending : ∀ notice ∈ state.store.notices, ∀ other ∈ state.store.notices,
    notice.profileId = other.profileId → notice.decision = .pending →
      other.decision = .pending → notice = other
  tells : ∀ notice ∈ state.store.notices, Tells state.recorded notice
  once : ∀ recording ∈ state.recorded, ∃! notice, notice ∈ state.store.notices ∧
    ∃ again ∈ state.recorded, again.runId = recording.runId ∧ again.noticeId = notice.noticeId

/-- The notices that were decided are still there, as they were. -/
def DecisionsKept (earlier later : MissedState) : Prop :=
  ∀ notice ∈ earlier.store.notices, notice.decision ≠ .pending → notice ∈ later.store.notices

/-- A run is recorded again only if it is the stored run of a notice, and a run that joins
a pending notice was not scheduled before the notice's first. -/
def Meets (state : MissedState) : MissedCall → Prop
  | .recordMissedSchedule profileId runId scheduledAt _ _ =>
      (∃ notice ∈ state.store.notices, notice.runId = runId) ∨
      (∀ recording ∈ state.recorded, recording.runId ≠ runId) ∧
        ∀ notice ∈ state.store.notices, notice.profileId = profileId →
          notice.decision = .pending → notice.firstScheduledAt ≤ scheduledAt
  | .markMissedScheduleDecision .. => True

instance (state : MissedState) : (call : MissedCall) → Decidable (state.Meets call)
  | .recordMissedSchedule .. => inferInstanceAs (Decidable (_ ∨ _))
  | .markMissedScheduleDecision .. => inferInstanceAs (Decidable True)

end MissedState

/-- Calls on one database, the last one first, each with the state it was made in. -/
inductive MissedRun : List (MissedState × MissedCall) → MissedState → Prop
  | start : MissedRun [] .empty
  | call {past : List (MissedState × MissedCall)} {state : MissedState} {call : MissedCall} :
      MissedRun past state → MissedRun ((state, call) :: past) (state.step call)

theorem MissedRun.called {past : List (MissedState × MissedCall)} {state : MissedState}
    (h : MissedRun past state) (call : MissedCall) :
    MissedRun ((state, call) :: past) (state.step call) := h.call

/-! ## What was recorded -/

section

variable {recording : MissedRecording} {recorded : List MissedRecording} {noticeId : Nat}

theorem firstRecordings_again (recorded : List MissedRecording)
    (h : ∃ earlier ∈ recorded, earlier.runId = recording.runId) :
    firstRecordings (recording :: recorded) = firstRecordings recorded :=
  if_pos (by simpa using h)

theorem firstRecordings_new (recorded : List MissedRecording) (recording : MissedRecording)
    (h : ∀ earlier ∈ recorded, earlier.runId ≠ recording.runId) :
    firstRecordings (recording :: recorded) = recording :: firstRecordings recorded :=
  if_neg (by simpa using h)

theorem mem_intoNotice {other : MissedRecording} :
    other ∈ intoNotice recorded noticeId ↔ other ∈ recorded ∧ other.noticeId = noticeId := by
  simp [intoNotice]

theorem intoNotice_cons_of_ne (h : recording.noticeId ≠ noticeId) :
    intoNotice (recording :: recorded) noticeId = intoNotice recorded noticeId :=
  List.filter_cons_of_neg (by simpa using h)

theorem intoNotice_cons (h : recording.noticeId = noticeId) :
    intoNotice (recording :: recorded) noticeId = recording :: intoNotice recorded noticeId :=
  List.filter_cons_of_pos (by simpa using h)

theorem mem_runsRecorded {runId : RunId} : runId ∈ runsRecorded recorded noticeId ↔
    ∃ other ∈ recorded, other.runId = runId ∧ other.noticeId = noticeId := by
  rw [runsRecorded, List.mem_toFinset, List.mem_map]
  constructor
  · rintro ⟨other, hother, hrun⟩
    obtain ⟨hmem, hnotice⟩ := mem_intoNotice.mp hother
    exact ⟨other, hmem, hrun, hnotice⟩
  · rintro ⟨other, hmem, hrun, hnotice⟩
    exact ⟨other, mem_intoNotice.mpr ⟨hmem, hnotice⟩, hrun⟩

theorem runsRecorded_cons (h : recording.noticeId = noticeId) :
    runsRecorded (recording :: recorded) noticeId =
      insert recording.runId (runsRecorded recorded noticeId) := by
  rw [runsRecorded, intoNotice_cons h, List.map_cons, List.toFinset_cons]
  rfl

namespace MissedState

variable {notice : MissedScheduleNotice}

/-- Nothing was recorded into the notice. -/
theorem Tells.of_other (h : Tells recorded notice)
    (hnotice : recording.noticeId ≠ notice.noticeId) : Tells (recording :: recorded) notice := by
  obtain ⟨hcount, hfirst, hlatest⟩ := h
  refine ⟨?_, ?_, ?_⟩
  · rw [runsRecorded, intoNotice_cons_of_ne hnotice]
    exact hcount
  · rw [timesRecorded, intoNotice_cons_of_ne hnotice]
    exact hfirst
  · rw [timesRecorded, intoNotice_cons_of_ne hnotice]
    exact hlatest

/-- The run was recorded into the notice before. -/
theorem Tells.of_again (h : Tells recorded notice)
    (hagain : recording.runId ∈ runsRecorded recorded notice.noticeId) :
    Tells (recording :: recorded) notice := by
  by_cases hnotice : recording.noticeId = notice.noticeId
  · obtain ⟨hcount, hfirst, hlatest⟩ := h
    obtain ⟨earlier, hmem, hrun, hearlier⟩ := mem_runsRecorded.mp hagain
    have hfirsts := firstRecordings_again (intoNotice recorded notice.noticeId)
      ⟨earlier, mem_intoNotice.mpr ⟨hmem, hearlier⟩, hrun⟩
    refine ⟨?_, ?_, ?_⟩
    · rw [runsRecorded_cons hnotice, Finset.insert_eq_of_mem hagain]
      exact hcount
    · rw [timesRecorded, intoNotice_cons hnotice, hfirsts]
      exact hfirst
    · rw [timesRecorded, intoNotice_cons hnotice, hfirsts]
      exact hlatest
  · exact h.of_other hnotice

/-- A new run makes the count and the times what the update makes them. -/
theorem Tells.joined (recording : MissedRecording) (h : Tells recorded notice)
    (hnotice : recording.noticeId = notice.noticeId)
    (hnew : ∀ other ∈ recorded, other.runId ≠ recording.runId) (reason : String)
    (htime : notice.firstScheduledAt ≤ recording.scheduledAt) :
    Tells (recording :: recorded)
      (MissedStore.joined notice recording.scheduledAt reason) := by
  obtain ⟨hcount, hfirst, hlatest⟩ := h
  have hfirsts := firstRecordings_new (intoNotice recorded notice.noticeId)
    recording fun other hother => hnew other (mem_intoNotice.mp hother).1
  have htimes : timesRecorded (recording :: recorded) notice.noticeId =
      insert recording.scheduledAt (timesRecorded recorded notice.noticeId) := by
    rw [timesRecorded, intoNotice_cons hnotice, hfirsts]
    ext time
    simp [timesRecorded, eq_comm]
  refine ⟨?_, ?_, ?_⟩
  · have hnotMem : recording.runId ∉ runsRecorded recorded notice.noticeId := by
      intro hmem
      obtain ⟨other, hother, hrun, _⟩ := mem_runsRecorded.mp hmem
      exact hnew other hother hrun
    show notice.missedCount + 1 = (runsRecorded (recording :: recorded) notice.noticeId).card
    rw [runsRecorded_cons hnotice, Finset.card_insert_of_notMem hnotMem, hcount]
  · show IsLeast (timesRecorded (recording :: recorded) notice.noticeId) notice.firstScheduledAt
    rw [htimes, ← min_eq_right htime]
    exact hfirst.insert _
  · show IsGreatest (timesRecorded (recording :: recorded) notice.noticeId)
      (max notice.latestScheduledAt recording.scheduledAt)
    rw [htimes, max_comm]
    exact hlatest.insert _

/-- The first run of a notice. -/
theorem Tells.inserted (hnotice : recording.noticeId = notice.noticeId)
    (hnone : ∀ other ∈ recorded, other.noticeId ≠ notice.noticeId)
    (hcount : notice.missedCount = 1) (hfirst : notice.firstScheduledAt = recording.scheduledAt)
    (hlatest : notice.latestScheduledAt = recording.scheduledAt) :
    Tells (recording :: recorded) notice := by
  have hinto : intoNotice (recording :: recorded) notice.noticeId = [recording] := by
    rw [intoNotice_cons hnotice, intoNotice, List.filter_eq_nil_iff.mpr (by simpa using hnone)]
  have htimes : timesRecorded (recording :: recorded) notice.noticeId =
      {recording.scheduledAt} := by
    rw [timesRecorded, hinto]
    ext time
    simp [firstRecordings, eq_comm]
  refine ⟨?_, ?_, ?_⟩
  · rw [runsRecorded, hinto, hcount]
    rfl
  · rw [htimes, hfirst]
    exact isLeast_singleton
  · rw [htimes, hlatest]
    exact isGreatest_singleton

end MissedState

end

/-! ## What a call commits -/

namespace MissedStore

variable {store stored : MissedStore} {profileId : SyncProfileId} {runId : RunId}
  {scheduledAt : Int} {reason : String} {moment : NoticeMoment} {noticeId : Nat}

/-- The ways a run is recorded: it is stored in a notice, it joins the pending notice of
its profile, or it gets a notice. -/
inductive RecordedBy (store : MissedStore) (profileId : SyncProfileId) (runId : RunId)
    (scheduledAt : Int) (reason : String) : Nat → MissedStore → Prop
  | stored {notice : MissedScheduleNotice} (hmem : notice ∈ store.notices)
      (hrun : notice.runId = runId) :
      RecordedBy store profileId runId scheduledAt reason notice.noticeId store
  | joined {notice : MissedScheduleNotice} (hnew : ∀ other ∈ store.notices, other.runId ≠ runId)
      (hmem : notice ∈ store.notices) (hprofile : notice.profileId = profileId)
      (hpending : notice.decision = .pending) :
      RecordedBy store profileId runId scheduledAt reason notice.noticeId
        (store.update notice.noticeId fun row => MissedStore.joined row scheduledAt reason)
  | inserted (hnew : ∀ other ∈ store.notices, other.runId ≠ runId)
      (hnone : ∀ other ∈ store.notices, other.profileId = profileId →
        other.decision ≠ .pending) :
      RecordedBy store profileId runId scheduledAt reason (store.sequence + 1)
        (store.insertNotice profileId runId scheduledAt reason)

theorem noticeFor_eq_ok
    (h : store.noticeFor profileId runId scheduledAt reason = .ok (noticeId, stored)) :
    RecordedBy store profileId runId scheduledAt reason noticeId stored := by
  unfold noticeFor existingForRun at h
  split at h
  · rename_i notice hfound
    obtain ⟨rfl, rfl⟩ := Prod.mk.inj (Except.ok.inj h)
    exact .stored (List.mem_of_find?_eq_some hfound) (by simpa using List.find?_some hfound)
  · rename_i hfresh
    have hnew : ∀ other ∈ store.notices, other.runId ≠ runId := by
      simpa using List.find?_eq_none.mp hfresh
    obtain ⟨_, h⟩ := ensure_bind_eq_ok.mp h
    unfold pendingForProfile at h
    split at h
    · rename_i notice hfound
      obtain ⟨rfl, rfl⟩ := Prod.mk.inj (Except.ok.inj h)
      have hpending := List.find?_some hfound
      simp only [decide_eq_true_eq] at hpending
      exact .joined hnew (List.mem_of_find?_eq_some hfound) hpending.1 hpending.2
    · rename_i hnone
      obtain ⟨_, h⟩ := ensure_bind_eq_ok.mp h
      obtain ⟨rfl, rfl⟩ := Prod.mk.inj (Except.ok.inj h)
      exact .inserted hnew (by simpa using List.find?_eq_none.mp hnone)

theorem insertMissedEvent_eq_ok {createdAt : Int64}
    (h : store.insertMissedEvent profileId runId createdAt noticeId = .ok stored) :
    stored.notices = store.notices ∧ stored.sequence = store.sequence := by
  unfold insertMissedEvent at h
  split at h
  · obtain rfl := Except.ok.inj h
    exact ⟨rfl, rfl⟩
  · obtain ⟨_, h⟩ := ensure_bind_eq_ok.mp h
    obtain rfl := Except.ok.inj h
    exact ⟨rfl, rfl⟩

/-- **What a committed recording does**, to the notices. -/
theorem commitMissedSchedule_eq_ok
    (h : store.commitMissedSchedule profileId runId scheduledAt reason moment =
      .ok (noticeId, stored)) :
    ∃ noticed, RecordedBy store profileId runId scheduledAt reason noticeId noticed ∧
      stored.notices = noticed.notices ∧ stored.sequence = noticed.sequence := by
  obtain ⟨_, h⟩ := ensure_bind_eq_ok.mp h
  obtain ⟨_, _, h⟩ := bind_eq_ok.mp h
  obtain ⟨_, h⟩ := ensure_bind_eq_ok.mp h
  obtain ⟨_, _, h⟩ := bind_eq_ok.mp h
  obtain ⟨_, h⟩ := unit_bind_eq_ok.mp h
  obtain ⟨⟨id, noticed⟩, hnoticed, h⟩ := bind_eq_ok.mp h
  obtain ⟨last, hevent, h⟩ := bind_eq_ok.mp h
  obtain ⟨rfl, rfl⟩ := Prod.mk.inj (Except.ok.inj h)
  exact ⟨noticed, noticeFor_eq_ok hnoticed, insertMissedEvent_eq_ok hevent⟩

/-- A decision is set in a notice that was pending, or nothing is. -/
theorem markMissedScheduleDecision_store (noticeId : UInt64)
    (decision : MissedScheduleDecision) (moment : NoticeMoment) :
    (store.markMissedScheduleDecision noticeId decision moment).2 = store ∨
      decision ≠ .pending ∧ (store.markMissedScheduleDecision noticeId decision moment).2 =
        store.settle noticeId.toNat decision := by
  unfold markMissedScheduleDecision
  split
  · exact .inl rfl
  · rename_i hdecision
    split
    · exact .inl rfl
    · split
      · exact .inl rfl
      · exact .inr ⟨hdecision, rfl⟩

theorem mem_update {f : MissedScheduleNotice → MissedScheduleNotice} {id : Nat}
    {other : MissedScheduleNotice} : other ∈ (store.update id f).notices ↔
      ∃ notice ∈ store.notices, (if notice.noticeId = id then f notice else notice) = other :=
  List.mem_map

theorem update_ids {f : MissedScheduleNotice → MissedScheduleNotice} {id : Nat}
    (hf : ∀ notice, (f notice).noticeId = notice.noticeId) :
    (store.update id f).notices.map (fun notice => notice.noticeId) =
      store.notices.map fun notice => notice.noticeId := by
  rw [update, List.map_map]
  refine List.map_congr_left fun notice _ => ?_
  show (if notice.noticeId = id then f notice else notice).noticeId = notice.noticeId
  split
  · exact hf notice
  · rfl

end MissedStore

/-! ## What every call keeps -/

namespace MissedState

/-- The invariant of the runs: identifiers are given out once, the notice of a run is one
of the stored ones, and the run stored in a notice was recorded into it. -/
structure Sound (store : MissedStore) (recorded : List MissedRecording) : Prop where
  ids : (store.notices.map fun notice => notice.noticeId).Nodup
  bounded : ∀ notice ∈ store.notices, notice.noticeId ≤ store.sequence
  pending : ∀ notice ∈ store.notices, ∀ other ∈ store.notices,
    notice.profileId = other.profileId → notice.decision = .pending →
      other.decision = .pending → notice = other
  tells : ∀ notice ∈ store.notices, Tells recorded notice
  stored : ∀ notice ∈ store.notices, notice.runId ∈ runsRecorded recorded notice.noticeId
  within : ∀ recording ∈ recorded, ∃ notice ∈ store.notices,
    notice.noticeId = recording.noticeId
  one : ∀ recording ∈ recorded, ∀ other ∈ recorded, recording.runId = other.runId →
    recording.noticeId = other.noticeId

variable {store stored : MissedStore} {recorded : List MissedRecording}
  {recording : MissedRecording}

theorem Sound.congr (h : Sound store recorded) (hnotices : stored.notices = store.notices)
    (hsequence : stored.sequence = store.sequence) : Sound stored recorded := by
  obtain ⟨ids, bounded, pending, tells, hstored, within, one⟩ := h
  rw [← hnotices] at ids bounded pending tells hstored within
  rw [← hsequence] at bounded
  exact ⟨ids, bounded, pending, tells, hstored, within, one⟩

theorem Sound.eq_of_id (h : Sound store recorded) {notice other : MissedScheduleNotice}
    (hnotice : notice ∈ store.notices) (hother : other ∈ store.notices)
    (hid : notice.noticeId = other.noticeId) : notice = other :=
  List.inj_on_of_nodup_map h.ids hnotice hother hid

theorem Sound.exact {state : MissedState} (h : Sound state.store state.recorded) :
    state.Exact := by
  refine ⟨h.ids, h.pending, h.tells, ?_⟩
  intro recording hrecording
  obtain ⟨notice, hnotice, hid⟩ := h.within recording hrecording
  refine ⟨notice, ⟨hnotice, recording, hrecording, rfl, hid.symm⟩, ?_⟩
  rintro other ⟨hother, again, hagain, hrun, hin⟩
  have hsame := h.one again hagain recording hrecording hrun
  exact h.eq_of_id hother hnotice (by rw [← hin, hsame, hid])

/-- A recording that disagrees with no earlier one of its run. -/
theorem one_cons (h : ∀ first ∈ recorded, ∀ other ∈ recorded, first.runId = other.runId →
      first.noticeId = other.noticeId)
    (hnew : ∀ other ∈ recorded, other.runId = recording.runId →
      other.noticeId = recording.noticeId) :
    ∀ first ∈ recording :: recorded, ∀ other ∈ recording :: recorded,
      first.runId = other.runId → first.noticeId = other.noticeId := by
  intro first hfirst other hother hrun
  rcases List.mem_cons.mp hfirst with hlast | hpast
  · subst hlast
    rcases List.mem_cons.mp hother with hlast | hpast
    · rw [hlast]
    · exact (hnew other hpast hrun.symm).symm
  · rcases List.mem_cons.mp hother with hlast | hotherPast
    · subst hlast
      exact hnew first hpast hrun
    · exact h first hpast other hotherPast hrun

theorem runsRecorded_mono {runId : RunId} {noticeId : Nat}
    (h : runId ∈ runsRecorded recorded noticeId) :
    runId ∈ runsRecorded (recording :: recorded) noticeId := by
  obtain ⟨other, hother, hrun, hid⟩ := mem_runsRecorded.mp h
  exact mem_runsRecorded.mpr ⟨other, List.mem_cons_of_mem _ hother, hrun, hid⟩

variable {profileId : SyncProfileId} {runId : RunId} {scheduledAt : Int} {reason : String}

/-- A run that is stored in a notice is recorded again. -/
theorem Sound.again (h : Sound store recorded) {notice : MissedScheduleNotice}
    (hmem : notice ∈ store.notices) :
    Sound store (⟨notice.runId, scheduledAt, notice.noticeId⟩ :: recorded) := by
  have hrun := h.stored notice hmem
  refine ⟨h.ids, h.bounded, h.pending, ?_, fun other hother =>
    runsRecorded_mono (h.stored other hother), ?_, one_cons h.one ?_⟩
  · intro other hother
    by_cases hid : notice.noticeId = other.noticeId
    · exact (h.tells other hother).of_again (by rw [← hid]; exact hrun)
    · exact (h.tells other hother).of_other hid
  · intro recording hrecording
    rcases List.mem_cons.mp hrecording with rfl | hpast
    · exact ⟨notice, hmem, rfl⟩
    · exact h.within recording hpast
  · intro other hother hsame
    obtain ⟨first, hfirst, hfirstRun, hid⟩ := mem_runsRecorded.mp hrun
    rw [h.one other hother first hfirst (hsame.trans hfirstRun.symm), hid]

/-- A new run joins the pending notice of its profile. -/
theorem Sound.joins (h : Sound store recorded) {notice : MissedScheduleNotice}
    (hmem : notice ∈ store.notices) (hnew : ∀ other ∈ recorded, other.runId ≠ runId)
    (htime : notice.firstScheduledAt ≤ scheduledAt) :
    Sound (store.update notice.noticeId fun row => MissedStore.joined row scheduledAt reason)
      (⟨runId, scheduledAt, notice.noticeId⟩ :: recorded) := by
  refine ⟨?_, ?_, ?_, ?_, ?_, ?_, one_cons h.one ?_⟩
  · rw [MissedStore.update_ids (f := fun row => MissedStore.joined row scheduledAt reason)
      fun _ => rfl]
    exact h.ids
  · intro other hother
    obtain ⟨row, hrow, rfl⟩ := MissedStore.mem_update.mp hother
    split
    · exact h.bounded row hrow
    · exact h.bounded row hrow
  · intro first hfirst other hother hprofile hpending hpendingOther
    obtain ⟨row, hrow, rfl⟩ := MissedStore.mem_update.mp hfirst
    obtain ⟨second, hsecond, rfl⟩ := MissedStore.mem_update.mp hother
    have hkeeps (row : MissedScheduleNotice) : (if row.noticeId = notice.noticeId then
        MissedStore.joined row scheduledAt reason else row).profileId = row.profileId ∧
        (if row.noticeId = notice.noticeId then
          MissedStore.joined row scheduledAt reason else row).decision = row.decision := by
      split
      · exact ⟨rfl, rfl⟩
      · exact ⟨rfl, rfl⟩
    rw [(hkeeps row).1, (hkeeps second).1] at hprofile
    rw [(hkeeps row).2] at hpending
    rw [(hkeeps second).2] at hpendingOther
    rw [h.pending row hrow second hsecond hprofile hpending hpendingOther]
  · intro other hother
    obtain ⟨row, hrow, rfl⟩ := MissedStore.mem_update.mp hother
    split
    · rename_i hid
      obtain rfl := h.eq_of_id hrow hmem hid
      exact (h.tells row hrow).joined ⟨runId, scheduledAt, row.noticeId⟩
        rfl hnew reason htime
    · rename_i hid
      exact (h.tells row hrow).of_other fun heq => hid heq.symm
  · intro other hother
    obtain ⟨row, hrow, rfl⟩ := MissedStore.mem_update.mp hother
    split
    · exact runsRecorded_mono (h.stored row hrow)
    · exact runsRecorded_mono (h.stored row hrow)
  · intro recording hrecording
    have hstill (row : MissedScheduleNotice) (hrow : row ∈ store.notices) :
        ∃ other ∈ (store.update notice.noticeId fun row =>
          MissedStore.joined row scheduledAt reason).notices, other.noticeId = row.noticeId := by
      refine ⟨_, MissedStore.mem_update.mpr ⟨row, hrow, rfl⟩, ?_⟩
      split
      · rfl
      · rfl
    rcases List.mem_cons.mp hrecording with rfl | hpast
    · exact hstill notice hmem
    · obtain ⟨row, hrow, hid⟩ := h.within recording hpast
      obtain ⟨other, hother, hotherId⟩ := hstill row hrow
      exact ⟨other, hother, hotherId.trans hid⟩
  · intro other hother hsame
    exact absurd hsame (hnew other hother)

/-- A new run gets a notice of its own. -/
theorem Sound.inserts (h : Sound store recorded) (hnew : ∀ other ∈ recorded, other.runId ≠ runId)
    (hnone : ∀ other ∈ store.notices, other.profileId = profileId → other.decision ≠ .pending) :
    Sound (store.insertNotice profileId runId scheduledAt reason)
      (⟨runId, scheduledAt, store.sequence + 1⟩ :: recorded) := by
  have hfresh : ∀ notice ∈ store.notices, store.sequence + 1 ≠ notice.noticeId := by
    intro notice hnotice
    have := h.bounded notice hnotice
    omega
  have hunused : ∀ other ∈ recorded, other.noticeId ≠ store.sequence + 1 := by
    intro other hother hid
    obtain ⟨notice, hnotice, hnoticeId⟩ := h.within other hother
    exact hfresh notice hnotice (by rw [hnoticeId, hid])
  refine ⟨?_, ?_, ?_, ?_, ?_, ?_, one_cons h.one ?_⟩
  · rw [MissedStore.insertNotice, List.map_append, List.nodup_append]
    refine ⟨h.ids, List.nodup_singleton _, ?_⟩
    intro id hid other hother
    obtain ⟨notice, hnotice, rfl⟩ := List.mem_map.mp hid
    obtain rfl := List.mem_singleton.mp hother
    exact (hfresh notice hnotice).symm
  · intro notice hnotice
    rcases List.mem_append.mp hnotice with hold | hlast
    · exact (h.bounded notice hold).trans (Nat.le_succ _)
    · obtain rfl := List.mem_singleton.mp hlast
      exact Nat.le_refl _
  · intro first hfirst other hother hprofile hpending hpendingOther
    rcases List.mem_append.mp hfirst with hold | hlast
    · rcases List.mem_append.mp hother with hotherOld | hotherLast
      · exact h.pending first hold other hotherOld hprofile hpending hpendingOther
      · obtain rfl := List.mem_singleton.mp hotherLast
        exact absurd hpending (hnone first hold hprofile)
    · obtain rfl := List.mem_singleton.mp hlast
      rcases List.mem_append.mp hother with hotherOld | hotherLast
      · exact absurd hpendingOther (hnone other hotherOld hprofile.symm)
      · exact (List.mem_singleton.mp hotherLast).symm
  · intro notice hnotice
    rcases List.mem_append.mp hnotice with hold | hlast
    · exact (h.tells notice hold).of_other (hfresh notice hold)
    · obtain rfl := List.mem_singleton.mp hlast
      exact Tells.inserted rfl hunused rfl rfl rfl
  · intro notice hnotice
    rcases List.mem_append.mp hnotice with hold | hlast
    · exact runsRecorded_mono (h.stored notice hold)
    · obtain rfl := List.mem_singleton.mp hlast
      exact mem_runsRecorded.mpr ⟨_, List.mem_cons_self, rfl, rfl⟩
  · intro recording hrecording
    rcases List.mem_cons.mp hrecording with rfl | hpast
    · exact ⟨_, List.mem_append_right _ (List.mem_singleton_self _), rfl⟩
    · obtain ⟨notice, hnotice, hid⟩ := h.within recording hpast
      exact ⟨notice, List.mem_append_left _ hnotice, hid⟩
  · intro other hother hsame
    exact absurd hsame (hnew other hother)

/-- A decision changes nothing but the decision of a notice that was pending. -/
theorem Sound.settles (h : Sound store recorded) {noticeId : Nat}
    {decision : MissedScheduleDecision} (hdecision : decision ≠ .pending) :
    Sound (store.settle noticeId decision) recorded := by
  have hmem {other : MissedScheduleNotice}
      (hother : other ∈ (store.settle noticeId decision).notices) :
      ∃ row ∈ store.notices, other.noticeId = row.noticeId ∧ other.runId = row.runId ∧
        (Tells recorded row → Tells recorded other) ∧
          (other.decision = .pending → other = row) := by
    obtain ⟨row, hrow, rfl⟩ := MissedStore.mem_update.mp hother
    refine ⟨row, hrow, ?_⟩
    split
    · split
      · exact ⟨rfl, rfl, fun ⟨hcount, hfirst, hlatest⟩ => ⟨hcount, hfirst, hlatest⟩,
          fun hpending => absurd hpending hdecision⟩
      · exact ⟨rfl, rfl, id, fun _ => rfl⟩
    · exact ⟨rfl, rfl, id, fun _ => rfl⟩
  refine ⟨?_, ?_, ?_, ?_, ?_, ?_, h.one⟩
  · rw [MissedStore.settle, MissedStore.update_ids]
    · exact h.ids
    · intro notice
      split
      · rfl
      · rfl
  · intro other hother
    obtain ⟨row, hrow, hid, _⟩ := hmem hother
    rw [hid]
    exact h.bounded row hrow
  · intro first hfirst other hother hprofile hpending hpendingOther
    obtain ⟨row, hrow, _, _, _, hsame⟩ := hmem hfirst
    obtain ⟨second, hsecond, _, _, _, hsameOther⟩ := hmem hother
    obtain rfl := hsame hpending
    obtain rfl := hsameOther hpendingOther
    exact h.pending first hrow other hsecond hprofile hpending hpendingOther
  · intro other hother
    obtain ⟨row, hrow, _, _, htells, _⟩ := hmem hother
    exact htells (h.tells row hrow)
  · intro other hother
    obtain ⟨row, hrow, hid, hrun, _, _⟩ := hmem hother
    rw [hid, hrun]
    exact h.stored row hrow
  · intro recording hrecording
    obtain ⟨row, hrow, hid⟩ := h.within recording hrecording
    refine ⟨_, MissedStore.mem_update.mpr ⟨row, hrow, rfl⟩, ?_⟩
    split
    · split
      · exact hid
      · exact hid
    · exact hid

/-! ## Runs -/

variable {state : MissedState}

/-- **A step** keeps the invariant if it meets the condition. -/
theorem Sound.step (h : Sound state.store state.recorded) {call : MissedCall}
    (hmeets : state.Meets call) :
    Sound (state.step call).store (state.step call).recorded := by
  cases call with
  | markMissedScheduleDecision noticeId decision moment =>
      show Sound (state.store.markMissedScheduleDecision noticeId decision moment).2 state.recorded
      rcases state.store.markMissedScheduleDecision_store noticeId decision moment with
        hsame | ⟨hdecision, hsettled⟩
      · rw [hsame]
        exact h
      · rw [hsettled]
        exact h.settles hdecision
  | recordMissedSchedule profileId runId scheduledAt reason moment =>
      unfold MissedState.step
      dsimp only
      split
      · exact h
      · rename_i noticeId stored hcommit
        obtain ⟨noticed, hby, hnotices, hsequence⟩ :=
          MissedStore.commitMissedSchedule_eq_ok hcommit
        refine Sound.congr ?_ hnotices hsequence
        cases hby with
        | stored hmem hrun =>
            subst hrun
            exact h.again hmem
        | joined hfresh hmem hprofile hpending =>
            rcases hmeets with ⟨other, hother, hrun⟩ | ⟨hnew, htime⟩
            · exact absurd hrun (hfresh other hother)
            · exact h.joins hmem hnew (htime _ hmem hprofile hpending)
        | inserted hfresh hnone =>
            rcases hmeets with ⟨other, hother, hrun⟩ | ⟨hnew, _⟩
            · exact absurd hrun (hfresh other hother)
            · exact h.inserts hnew hnone

/-- No call changes a notice that is decided. -/
theorem decisionsKept_step (h : Sound state.store state.recorded) (call : MissedCall) :
    DecisionsKept state (state.step call) := by
  intro notice hmem hdecided
  cases call with
  | markMissedScheduleDecision noticeId decision moment =>
      show notice ∈ (state.store.markMissedScheduleDecision noticeId decision moment).2.notices
      rcases state.store.markMissedScheduleDecision_store noticeId decision moment with
        hsame | ⟨_, hsettled⟩
      · rw [hsame]
        exact hmem
      · rw [hsettled]
        refine MissedStore.mem_update.mpr ⟨notice, hmem, ?_⟩
        rw [if_neg hdecided, ite_self]
  | recordMissedSchedule profileId runId scheduledAt reason moment =>
      unfold MissedState.step
      dsimp only
      split
      · exact hmem
      · rename_i noticeId stored hcommit
        obtain ⟨noticed, hby, hnotices, _⟩ := MissedStore.commitMissedSchedule_eq_ok hcommit
        show notice ∈ stored.notices
        rw [hnotices]
        cases hby with
        | stored => exact hmem
        | joined _ hpendingMem _ hpending =>
            refine MissedStore.mem_update.mpr ⟨notice, hmem, if_neg ?_⟩
            intro hid
            rw [h.eq_of_id hmem hpendingMem hid] at hdecided
            exact hdecided hpending
        | inserted => exact List.mem_append_left _ hmem

theorem sound_empty : Sound MissedState.empty.store MissedState.empty.recorded where
  ids := List.nodup_nil
  bounded := by simp [MissedState.empty]
  pending := by simp [MissedState.empty]
  tells := by simp [MissedState.empty]
  stored := by simp [MissedState.empty]
  within := by simp [MissedState.empty]
  one := by simp [MissedState.empty]

theorem sound_of_run {past : List (MissedState × MissedCall)} (hrun : MissedRun past state)
    (hmeets : ∀ made ∈ past, made.1.Meets made.2) : Sound state.store state.recorded := by
  induction hrun with
  | start => exact sound_empty
  | call _ ih =>
      obtain ⟨hlast, hbefore⟩ := List.forall_mem_cons.mp hmeets
      exact (ih hbefore).step hlast

end MissedState

open MissedState in
/-- **Missed schedules.** In every run whose calls meet the condition, each state's notices
tell exactly what was recorded, and no decision ever changes. -/
theorem missed_schedules_exact {past : List (MissedState × MissedCall)} {state : MissedState}
    (hrun : MissedRun past state) (hmeets : ∀ made ∈ past, made.1.Meets made.2) :
    state.Exact ∧ ∀ made ∈ past, DecisionsKept made.1 state := by
  refine ⟨(sound_of_run hrun hmeets).exact, ?_⟩
  induction hrun with
  | start => simp
  | call before ih =>
      obtain ⟨hlast, hbefore⟩ := List.forall_mem_cons.mp hmeets
      have hstep := decisionsKept_step (sound_of_run before hbefore)
      refine List.forall_mem_cons.mpr ⟨hstep _, ?_⟩
      intro made hmade notice hmem hdecided
      exact hstep _ notice (ih hbefore made hmade notice hmem hdecided) hdecided

/-! ### Runs that meet the condition, and one that does not -/

/-- The first profile misses a run. -/
def misses (runId : UInt64) (scheduledAt : Int) : MissedCall :=
  .recordMissedSchedule ⟨1⟩ ⟨runId⟩ scheduledAt "the peer is offline" ⟨.ok 40, none, none⟩

def decidesOn (noticeId : UInt64) : MissedCall :=
  .markMissedScheduleDecision noticeId .notNow ⟨.ok 40, none, none⟩

/-- The first run is recorded twice, the second joins it, the third comes after the
decision. -/
theorem missed_schedules_exact_decided :
    let missed := ((MissedState.empty.step (misses 1 10)).step (misses 1 10)).step (misses 2 20)
    let decided := (missed.step (decidesOn 1)).step (misses 3 30)
    decided.Exact ∧ missed.DecisionsKept decided :=
  have hexact := missed_schedules_exact
    (((((MissedRun.start.called (misses 1 10)).called (misses 1 10)).called
      (misses 2 20)).called (decidesOn 1)).called (misses 3 30))
    (by decide +kernel)
  ⟨hexact.1, hexact.2 (_, decidesOn 1) (List.mem_cons_of_mem _ List.mem_cons_self)⟩

/-- The second run is recorded twice, and counted twice. -/
theorem missed_run_counted_twice :
    ¬ ∀ (past : List (MissedState × MissedCall)) (state : MissedState), MissedRun past state →
      state.Exact ∧ ∀ made ∈ past, made.1.DecisionsKept state := by
  intro h
  have hexact := (h _ _ (((MissedRun.start.called (misses 1 10)).called
    (misses 2 20)).called (misses 2 20))).1
  have hcount := (hexact.tells ⟨1, ⟨1⟩, ⟨1⟩, 10, 20, "the peer is offline", .pending, 3⟩
    (by decide +kernel)).count
  exact absurd hcount (by decide +kernel)

end SyncPlus
