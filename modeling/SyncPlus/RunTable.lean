import SyncPlus.RunReport
import SyncPlus.SnapshotRows

/-!
# The table of runs

All runs of a database, and the sequence their identifiers come from. An
identifier is taken from the sequence before its run begins, in the
transaction of a schedule's claim or in one of its own; a run may also
begin under an identifier that was chosen elsewhere. Reports are deleted
again, with the rows of their runs.

The sequence stands above every identifier that was ever taken
(`RunTable.Above`), which no deletion changes, so what it gives out next
is new.
-/

namespace SyncPlus

/-! ## Checked arithmetic -/

/-- The result of a checked 64-bit operation. -/
def checkedI64 (n : Int) : Option Int :=
  if -9223372036854775808 ≤ n ∧ n ≤ 9223372036854775807 then some n else none

theorem checkedI64_eq_some {n m : Int} :
    checkedI64 n = some m ↔
      n = m ∧ -9223372036854775808 ≤ n ∧ n ≤ 9223372036854775807 := by
  unfold checkedI64
  split
  · simp_all
  · simp only [reduceCtorEq, false_iff]
    rintro ⟨-, h⟩
    exact absurd h ‹_›

/-- The larger of two numbers. -/
def larger (a b : Int) : Int := if a < b then b else a

theorem le_larger (a b : Int) : a ≤ larger a b ∧ b ≤ larger a b := by
  unfold larger
  split <;> omega

theorem larger_le {a b c : Int} (ha : a ≤ c) (hb : b ≤ c) : larger a b ≤ c := by
  unfold larger
  split <;> assumption

/-! ## Records -/

/-- A run: its frozen snapshot, and what the store keeps of it besides. -/
structure RunRecord where
  snapshot : SnapshotRow
  run : RunRow

def RunRecord.runId (record : RunRecord) : Int := record.snapshot.runId

structure RunTable where
  nextRunId : Int
  records : List RunRecord

namespace RunTable

/-- The table of a new database. -/
def empty : RunTable where
  nextRunId := 1
  records := []

def find? (table : RunTable) (runId : RunId) : Option RunRecord :=
  table.records.find? fun record => record.runId = runId.value.toNat

/-- `COALESCE(MAX(run_id), 0)`. -/
def highestExisting (table : RunTable) : Int :=
  table.records.foldr (fun record highest => larger record.runId highest) 0

def allocateRunIdInTransaction (table : RunTable) : Except StorageError (RunTable × RunId) := do
  let exhausted := StorageError.invalidSnapshot "run identifier is exhausted"
  let afterHighest ← orError (checkedI64 (table.highestExisting + 1)) exhausted
  let next := larger table.nextRunId afterHighest
  let following ← orError (checkedI64 (next + 1)) exhausted
  let value ← orError (tryUnsigned 64 next) (.invalidSnapshot "run identifier is invalid")
  return ({ table with nextRunId := following }, ⟨.ofNat value⟩)

def beginRunInTransaction (table : RunTable) (snapshot : RunSnapshot) :
    Except StorageError RunTable := do
  let row ← SnapshotRow.ofSnapshot snapshot
  ensure (∀ record ∈ table.records, record.runId ≠ row.runId) (.sqlite .constraintViolation)
  let next ← orError (checkedI64 (snapshot.runId.value.toNat + 1))
    (.invalidSnapshot "run identifier is out of range")
  return {
    nextRunId := larger table.nextRunId next
    records := table.records ++ [{ snapshot := row, run := .opened snapshot }] }

def loadSnapshot (env : Environment) (lossy : LossyText) (table : RunTable) (runId : RunId) :
    Except StorageError RunSnapshot := do
  bindU64 runId.value
  let record ← orError (table.find? runId) (missingRun runId)
  record.snapshot.load env lossy runId

def deleteReportMetadata (table : RunTable) (runId : RunId) (action : String)
    (allowed : RunReportStatus → Bool) : Except StorageError RunTable := do
  let record ← orError (table.find? runId) (.reportNotFound runId)
  let report ← record.run.loadReport
  ensure (allowed report.status = true) (.reportActionNotAllowed runId action report.status)
  return { table with
    records := table.records.filter fun record => record.runId ≠ runId.value.toNat }

def removeCompletedReport (table : RunTable) (runId : RunId) : Except StorageError RunTable :=
  table.deleteReportMetadata runId "Remove Completed Report" fun status =>
    status = .completed || status = .reviewCleared

def discardUnresolvedRun (table : RunTable) (runId : RunId) : Except StorageError RunTable :=
  table.deleteReportMetadata runId "Discard Unresolved Run" fun status =>
    !(status = .completed || status = .reviewCleared || status = .inProgress)

/-- An operation on the rows of one run that has begun. -/
def onRun (table : RunTable) (runId : RunId) (op : StoreOperation) :
    Except StorageError RunTable := do
  let record ← orError (table.find? runId) (missingRun runId)
  let run ← record.run.apply op
  return { table with
    records := table.records.map fun other =>
      if other.runId = (runId.value.toNat : Int) then { other with run } else other }

end RunTable

/-! ## Histories -/

/-- How the transaction of an allocation goes on: it ends there, begins the
run of the identifier, or is rolled back. -/
inductive AfterAllocation where
  | commit
  | beginRun (snapshot : RunId → Except StorageError RunSnapshot)
  | rollback

inductive RunTableOperation where
  | nextRunId
  | allocateInTransaction (after : AfterAllocation)
  | beginRun (snapshot : RunSnapshot)
  | removeCompletedReport (runId : RunId)
  | discardUnresolvedRun (runId : RunId)
  | onRun (runId : RunId) (op : StoreOperation)

/-- What an operation has made of an identifier: it was given out, also in a
transaction that was then rolled back, or a run began under it. -/
inductive Issue where
  | allocated (runId : RunId)
  | rolledBack (runId : RunId)
  | begun (runId : RunId)
  deriving DecidableEq

namespace Issue

/-- The identifier that an allocation returned. -/
def returned? : Issue → Option RunId
  | allocated runId | rolledBack runId => some runId
  | begun _ => none

/-- The identifier that is in use from then on. -/
def taken? : Issue → Option RunId
  | allocated runId | begun runId => some runId
  | rolledBack _ => none

end Issue

/-- A table with the issues of its history. -/
abbrev IssuedTable := RunTable × List Issue

/-- The table after a transaction that changes no identifier, or as it was
when the transaction fails. -/
def settled (state : IssuedTable) (result : Except StorageError RunTable) : IssuedTable :=
  match result with
  | .ok table => (table, state.2)
  | .error _ => state

/-- An allocation, and the rest of its transaction. -/
def allocateThen (state : IssuedTable) (after : AfterAllocation) : IssuedTable :=
  match state.1.allocateRunIdInTransaction with
  | .error _ => state
  | .ok (table, runId) =>
    match after with
    | .commit => (table, state.2 ++ [.allocated runId])
    | .rollback => (state.1, state.2 ++ [.rolledBack runId])
    | .beginRun snapshot =>
      match snapshot runId with
      | .error _ => (state.1, state.2 ++ [.rolledBack runId])
      | .ok snapshot =>
        match table.beginRunInTransaction snapshot with
        | .error _ => (state.1, state.2 ++ [.rolledBack runId])
        | .ok table => (table, state.2 ++ [.allocated runId] ++ [.begun snapshot.runId])

def applyRunTable (state : IssuedTable) : RunTableOperation → IssuedTable
  | .nextRunId => allocateThen state .commit
  | .allocateInTransaction after => allocateThen state after
  | .beginRun snapshot =>
      match state.1.beginRunInTransaction snapshot with
      | .ok table => (table, state.2 ++ [.begun snapshot.runId])
      | .error _ => state
  | .removeCompletedReport runId => settled state (state.1.removeCompletedReport runId)
  | .discardUnresolvedRun runId => settled state (state.1.discardUnresolvedRun runId)
  | .onRun runId op => settled state (state.1.onRun runId op)

/-- The table and the issues of a history from a new database on. -/
def runTableAfter (ops : List RunTableOperation) : IssuedTable :=
  ops.foldl applyRunTable (.empty, [])

end SyncPlus
