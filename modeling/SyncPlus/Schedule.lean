import SyncPlus.RunTable

/-!
# Schedules

A schedule runs a profile at every multiple of its interval from its next
run on. When a due run is claimed, the schedule moves to the first of
these times that is still to come (`nextOccurrence`): runs that were
missed in between are not made up for.
-/

namespace SyncPlus

inductive ApplicationMode where
  | simple
  | advanced
  deriving Repr, DecidableEq

structure ScheduleDefinition where
  intervalMinutes : UInt32
  timezone : String
  enabled : Bool
  nextRunAtUnixSeconds : Option Int64
  deriving DecidableEq

namespace ScheduleDefinition

def validate (schedule : ScheduleDefinition) : Except StorageError Unit := do
  ensure (1 ≤ schedule.intervalMinutes ∧ schedule.intervalMinutes ≤ 10080)
    (.invalidSchedule "interval must be between 1 minute and 7 days")
  ensure (trimIsEmpty schedule.timezone = false ∧ schedule.timezone.utf8ByteSize ≤ 128 ∧
      containsNul schedule.timezone = false)
    (.invalidSchedule "timezone must be a nonempty value of at most 128 characters")
  ensure (schedule.nextRunAtUnixSeconds.any (fun next => next < 0) = false)
    (.invalidSchedule "next run must be a nonnegative Unix timestamp")
  ensure (schedule.enabled = false → schedule.nextRunAtUnixSeconds = none)
    (.invalidSchedule "a disabled schedule cannot have a next run")

/-- What a schedule that passes its checks satisfies. -/
structure Valid (schedule : ScheduleDefinition) : Prop where
  interval : 1 ≤ schedule.intervalMinutes ∧ schedule.intervalMinutes ≤ 10080
  timezone : trimIsEmpty schedule.timezone = false ∧
    schedule.timezone.utf8ByteSize ≤ 128 ∧ containsNul schedule.timezone = false
  nextRun : ∀ next ∈ schedule.nextRunAtUnixSeconds, 0 ≤ next
  disabled : schedule.enabled = false → schedule.nextRunAtUnixSeconds = none

theorem validate_eq_ok {schedule : ScheduleDefinition} :
    schedule.validate = .ok () ↔ schedule.Valid := by
  have hnonneg : schedule.nextRunAtUnixSeconds.any (fun next => next < 0) = false ↔
      ∀ next ∈ schedule.nextRunAtUnixSeconds, 0 ≤ next := by
    cases schedule.nextRunAtUnixSeconds <;> simp [Int64.not_lt]
  unfold validate
  rw [ensure_bind_eq_ok, ensure_bind_eq_ok, ensure_bind_eq_ok, ensure_eq_ok]
  constructor
  · rintro ⟨hinterval, htimezone, hnext, hdisabled⟩
    exact ⟨hinterval, htimezone, hnonneg.mp hnext, hdisabled⟩
  · intro h
    exact ⟨h.interval, h.timezone, hnonneg.mpr h.nextRun, h.disabled⟩

theorem Valid.seconds_pos {schedule : ScheduleDefinition} (h : schedule.Valid) :
    0 < (schedule.intervalMinutes.toNat * 60 : Int) := by
  have hone := UInt32.le_iff_toNat_le.mp h.interval.1
  have hone : 1 ≤ schedule.intervalMinutes.toNat := hone
  omega

end ScheduleDefinition

/-! ## The next occurrence -/

def intervalSeconds (minutes : UInt32) : Except StorageError Int :=
  orError (checkedI64 (minutes.toNat * 60)) (.invalidSchedule "interval is out of range")

/-- An enabled schedule without a next run starts an interval from now. -/
def withDefaultNextRun (now : Int64) (schedule : ScheduleDefinition) :
    Except StorageError ScheduleDefinition :=
  if schedule.enabled = true ∧ schedule.nextRunAtUnixSeconds = none then do
    let interval ← intervalSeconds schedule.intervalMinutes
    let next ← orError (checkedI64 (now.toInt + interval))
      (.invalidSchedule "next run is out of range")
    return { schedule with nextRunAtUnixSeconds := some (.ofInt next) }
  else .ok schedule

/-- `i64::checked_div`, for a nonnegative dividend. -/
def checkedDiv (a b : Int) : Option Int := if b = 0 then none else some (a.tdiv b)

def nextOccurrence (minutes : UInt32) (scheduledAt now : Int64) :
    Except StorageError Int64 := do
  let interval ← intervalSeconds minutes
  let elapsed ← orError (checkedI64 (now.toInt - scheduledAt.toInt))
    (.invalidSchedule "schedule time is out of range")
  let outOfRange := StorageError.invalidSchedule "next run is out of range"
  let occurrences ← orError ((checkedDiv elapsed interval).bind fun n => checkedI64 (n + 1))
    outOfRange
  let offset ← orError (checkedI64 (interval * occurrences)) outOfRange
  let next ← orError (checkedI64 (scheduledAt.toInt + offset)) outOfRange
  return .ofInt next

/-- The least time after now that is congruent to the claimed one. -/
structure NextAfter (interval scheduledAt now next : Int) : Prop where
  after : now < next
  congruent : next % interval = scheduledAt % interval
  least : ∀ t, now < t → t % interval = scheduledAt % interval → next ≤ t

theorem nextAfter_occurrence {interval scheduledAt now : Int} (hpos : 0 < interval) :
    NextAfter interval scheduledAt now
      (scheduledAt + interval * ((now - scheduledAt) / interval + 1)) := by
  have hdiv := Int.mul_ediv_add_emod (now - scheduledAt) interval
  have hmod := Int.emod_nonneg (now - scheduledAt) hpos.ne'
  have hlt := Int.emod_lt_of_pos (now - scheduledAt) hpos
  refine ⟨?_, Int.add_mul_emod_self_left _ _ _, fun t ht hcongruent => ?_⟩
  · rw [Int.mul_add]
    omega
  · obtain ⟨k, hk⟩ := Int.dvd_of_emod_eq_zero
      (Int.emod_eq_emod_iff_emod_sub_eq_zero.mp hcongruent)
    have hk' : (now - scheduledAt) / interval < k := by
      refine Int.ediv_lt_of_lt_mul hpos ?_
      rw [Int.mul_comm k, ← hk]
      omega
    have hle : interval * ((now - scheduledAt) / interval + 1) ≤ interval * k :=
      Int.mul_le_mul_of_nonneg_left hk' hpos.le
    omega

theorem toInt_bounds (n : Int64) :
    -9223372036854775808 ≤ n.toInt ∧ n.toInt ≤ 9223372036854775807 :=
  ⟨n.le_toInt, Int.le_of_lt_add_one n.toInt_lt⟩

theorem intervalSeconds_eq (minutes : UInt32) :
    intervalSeconds minutes = .ok (minutes.toNat * 60 : Int) := by
  have hlt := minutes.toNat_lt
  rw [intervalSeconds, orError_eq_ok, checkedI64_eq_some]
  omega

theorem NextAfter.unique {interval scheduledAt now next next' : Int}
    (h : NextAfter interval scheduledAt now next)
    (h' : NextAfter interval scheduledAt now next') : next = next' :=
  Int.le_antisymm (h.least _ h'.after h'.congruent) (h'.least _ h.after h.congruent)

/-- **Claiming a due run** moves the schedule to the next occurrence, which
fails only when that is past the last representable second. -/
theorem nextOccurrence_eq_ok {minutes : UInt32} {scheduledAt now next : Int64}
    (hpos : 0 < (minutes.toNat * 60 : Int)) (hnonneg : 0 ≤ scheduledAt.toInt)
    (hdue : scheduledAt.toInt ≤ now.toInt) :
    nextOccurrence minutes scheduledAt now = .ok next ↔
      NextAfter (minutes.toNat * 60) scheduledAt.toInt now.toInt next.toInt := by
  have hnow := toInt_bounds now
  have hnext := toInt_bounds next
  generalize hinterval : (minutes.toNat * 60 : Int) = interval at *
  have hspec : NextAfter interval scheduledAt.toInt now.toInt
      (scheduledAt.toInt + interval * ((now.toInt - scheduledAt.toInt) / interval + 1)) :=
    nextAfter_occurrence hpos
  have hdiv := Int.mul_ediv_add_emod (now.toInt - scheduledAt.toInt) interval
  have hmod := Int.emod_nonneg (now.toInt - scheduledAt.toInt) hpos.ne'
  have hlt := Int.emod_lt_of_pos (now.toInt - scheduledAt.toInt) hpos
  have hq := Int.ediv_nonneg (show 0 ≤ now.toInt - scheduledAt.toInt by omega) hpos.le
  have htdiv : (now.toInt - scheduledAt.toInt).tdiv interval =
      (now.toInt - scheduledAt.toInt) / interval :=
    Int.tdiv_eq_ediv_of_nonneg (by omega)
  unfold nextOccurrence checkedDiv
  rw [intervalSeconds_eq, hinterval, ok_bind]
  generalize (now.toInt - scheduledAt.toInt) / interval = q at *
  have hmul : interval * (q + 1) = interval * q + interval := by
    rw [Int.mul_add, Int.mul_one]
  -- the interval is at least a minute, so there are no more of them than seconds
  have hcount : 1 * q ≤ interval * q := Int.mul_le_mul_of_nonneg_right (by omega) hq
  constructor
  · intro h
    obtain ⟨elapsed, helapsed, h⟩ := bind_eq_ok.mp h
    rw [orError_eq_ok, checkedI64_eq_some] at helapsed
    obtain ⟨occurrences, hoccurrences, h⟩ := bind_eq_ok.mp h
    obtain ⟨offset, hoffset, h⟩ := bind_eq_ok.mp h
    obtain ⟨n, hn, h⟩ := bind_eq_ok.mp h
    rw [orError_eq_ok, checkedI64_eq_some] at hoffset hn
    rw [← helapsed.1, if_neg hpos.ne', htdiv, Option.bind_some, orError_eq_ok,
      checkedI64_eq_some] at hoccurrences
    have hnext' : n = next.toInt := by
      cases h
      exact (Int64.toInt_ofInt_of_le (by omega) (by omega)).symm
    have : next.toInt = scheduledAt.toInt + interval * (q + 1) := by
      rw [← hnext', ← hn.1, ← hoffset.1, ← hoccurrences.1]
    exact this ▸ hspec
  · intro h
    have heq := h.unique hspec
    have helapsed : checkedI64 (now.toInt - scheduledAt.toInt) =
        some (now.toInt - scheduledAt.toInt) := checkedI64_eq_some.mpr ⟨rfl, by omega⟩
    have hoccurrences : checkedI64 (q + 1) = some (q + 1) :=
      checkedI64_eq_some.mpr ⟨rfl, by omega⟩
    have hoffset : checkedI64 (interval * (q + 1)) = some (interval * (q + 1)) :=
      checkedI64_eq_some.mpr ⟨rfl, by omega⟩
    have hn : checkedI64 (scheduledAt.toInt + interval * (q + 1)) = some next.toInt :=
      checkedI64_eq_some.mpr ⟨heq.symm, by omega⟩
    simp only [helapsed, orError_some, ok_bind, if_neg hpos.ne', htdiv, Option.bind_some,
      hoccurrences, hoffset, hn, Int64.ofInt_toInt]
    rfl

/-- The next occurrence of a schedule that is due. -/
theorem ScheduleDefinition.Valid.nextOccurrence {schedule : ScheduleDefinition}
    (h : schedule.Valid) {scheduledAt now next : Int64}
    (hscheduled : schedule.nextRunAtUnixSeconds = some scheduledAt)
    (hdue : ¬ now < scheduledAt)
    (hnext : SyncPlus.nextOccurrence schedule.intervalMinutes scheduledAt now = .ok next) :
    NextAfter (schedule.intervalMinutes.toNat * 60) scheduledAt.toInt now.toInt next.toInt ∧
      0 ≤ next := by
  have hnonneg := Int64.le_iff_toInt_le.mp (h.nextRun scheduledAt hscheduled)
  have hnonneg : 0 ≤ scheduledAt.toInt := hnonneg
  rw [Int64.lt_iff_toInt_lt] at hdue
  have hspec := (nextOccurrence_eq_ok h.seconds_pos hnonneg (by omega)).mp hnext
  have hafter := hspec.after
  refine ⟨hspec, Int64.le_iff_toInt_le.mpr ?_⟩
  show (0 : Int) ≤ next.toInt
  omega

end SyncPlus
