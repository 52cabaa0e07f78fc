import SyncPlus.Lib.Traces
import SyncPlus.RunTable

/-!
# Run identifiers are new

Identifiers are given out from a sequence that stands above every
identifier in use, also of runs that have been deleted. An allocation
takes the number of the sequence itself and a run that begins pushes the
sequence past its own, so the sequence never falls back.
-/

namespace SyncPlus

/-- **The sequence is above.** Every run in the table, and every identifier
that was ever allocated or begun, is below the next one. -/
structure Above (state : IssuedTable) : Prop where
  positive : 1 ≤ state.1.nextRunId
  bounded : state.1.nextRunId ≤ 9223372036854775807
  records : ∀ record ∈ state.1.records, record.runId < state.1.nextRunId
  taken : ∀ issue ∈ state.2, ∀ runId ∈ issue.taken?,
    (runId.value.toNat : Int) < state.1.nextRunId

/-- An identifier that is returned is greater than all taken before it. -/
def New (before : List Issue) (issue : Issue) : Prop :=
  ∀ runId ∈ issue.returned?, ∀ earlier ∈ before, ∀ taken ∈ earlier.taken?,
    taken.value < runId.value

namespace Above

variable {state : IssuedTable}

theorem empty : Above (RunTable.empty, []) where
  positive := by decide
  bounded := by decide
  records := by simp [RunTable.empty]
  taken := by simp

/-- A transaction that keeps the sequence and begins no run. -/
theorem keep (h : Above state) {table : RunTable}
    (hnext : table.nextRunId = state.1.nextRunId)
    (hrecords : ∀ record ∈ table.records, ∃ old ∈ state.1.records,
      record.runId = old.runId) : Above (table, state.2) where
  positive := hnext ▸ h.positive
  bounded := hnext ▸ h.bounded
  records record hrecord := by
    obtain ⟨old, hold, heq⟩ := hrecords record hrecord
    rw [heq, hnext]
    exact h.records old hold
  taken := hnext ▸ h.taken

theorem highestExisting_lt (h : Above state) :
    state.1.highestExisting < state.1.nextRunId := by
  have hpositive := h.positive
  have hrecords := h.records
  unfold RunTable.highestExisting
  generalize state.1.records = records at hrecords
  induction records with
  | nil => simp only [List.foldr_nil]; omega
  | cons record records ih =>
      simp only [List.foldr_cons, larger]
      split
      · exact ih fun r hr => hrecords r (.tail _ hr)
      · exact hrecords record (.head _)

/-- **An allocation takes the number of the sequence.** -/
theorem allocate (h : Above state) {table : RunTable} {runId : RunId}
    (halloc : state.1.allocateRunIdInTransaction = .ok (table, runId)) :
    (runId.value.toNat : Int) = state.1.nextRunId ∧
      table = { state.1 with nextRunId := state.1.nextRunId + 1 } ∧
      state.1.nextRunId + 1 ≤ 9223372036854775807 := by
  have hhighest := h.highestExisting_lt
  have hpositive := h.positive
  unfold RunTable.allocateRunIdInTransaction at halloc
  obtain ⟨afterHighest, hafter, halloc⟩ := bind_eq_ok.mp halloc
  obtain ⟨following, hfollowing, halloc⟩ := bind_eq_ok.mp halloc
  obtain ⟨value, hvalue, hresult⟩ := bind_eq_ok.mp halloc
  rw [orError_eq_ok, checkedI64_eq_some] at hafter hfollowing
  obtain ⟨rfl, -⟩ := hafter
  have hnext : larger state.1.nextRunId (state.1.highestExisting + 1) =
      state.1.nextRunId := by
    unfold larger
    split <;> omega
  rw [hnext] at hfollowing hvalue
  obtain ⟨rfl, -, hbound⟩ := hfollowing
  cases hresult
  have hlt : state.1.nextRunId.toNat < 2 ^ 64 := by omega
  rw [orError_eq_ok, tryUnsigned, if_pos ⟨by omega, hlt⟩] at hvalue
  cases hvalue
  refine ⟨?_, rfl, hbound⟩
  simp only [UInt64.toNat_ofNat', Nat.mod_eq_of_lt hlt]
  omega

/-- The number of the sequence is above all that was taken. -/
theorem new (h : Above state) {issue : Issue}
    (hissue : ∀ runId ∈ issue.returned?, (runId.value.toNat : Int) = state.1.nextRunId) :
    New state.2 issue := by
  intro runId hrunId earlier hearlier taken htaken
  have hlt := h.taken earlier hearlier taken htaken
  have heq := hissue runId hrunId
  rw [UInt64.lt_iff_toNat_lt]
  omega

theorem rolledBack (h : Above state) (runId : RunId) :
    Above (state.1, state.2 ++ [.rolledBack runId]) where
  positive := h.positive
  bounded := h.bounded
  records := h.records
  taken issue hissue := by
    rcases List.mem_append.mp hissue with hissue | hissue
    · exact h.taken issue hissue
    · cases List.mem_singleton.mp hissue
      nofun

theorem allocated (h : Above state) {table : RunTable} {runId : RunId}
    (halloc : state.1.allocateRunIdInTransaction = .ok (table, runId)) :
    Above (table, state.2 ++ [.allocated runId]) := by
  have hpositive := h.positive
  obtain ⟨hrunId, rfl, hbound⟩ := h.allocate halloc
  refine ⟨by simp only; omega, hbound, fun record hrecord => ?_, fun issue hissue => ?_⟩
  · have := h.records record hrecord
    simp only
    omega
  · intro taken htaken
    rcases List.mem_append.mp hissue with hissue | hissue
    · have := h.taken issue hissue taken htaken
      simp only
      omega
    · cases List.mem_singleton.mp hissue
      cases htaken
      simp only
      omega

/-- A run that begins pushes the sequence past its identifier. -/
theorem begun (h : Above state) {table : RunTable} {snapshot : RunSnapshot}
    (hbegin : state.1.beginRunInTransaction snapshot = .ok table) :
    Above (table, state.2 ++ [.begun snapshot.runId]) := by
  unfold RunTable.beginRunInTransaction at hbegin
  obtain ⟨row, hrow, hbegin⟩ := bind_eq_ok.mp hbegin
  obtain ⟨-, hbegin⟩ := ensure_bind_eq_ok.mp hbegin
  obtain ⟨next, hnext, hbegin⟩ := bind_eq_ok.mp hbegin
  cases hbegin
  rw [orError_eq_ok, checkedI64_eq_some] at hnext
  obtain ⟨rfl, -, hbound⟩ := hnext
  have hrowId : row.runId = snapshot.runId.value.toNat := SnapshotRow.ofSnapshot_runId hrow
  obtain ⟨hold, hown⟩ := le_larger state.1.nextRunId (snapshot.runId.value.toNat + 1)
  have hpositive := h.positive
  refine ⟨by simp only; omega, larger_le h.bounded hbound, fun record hrecord => ?_,
    fun issue hissue taken htaken => ?_⟩
  · rcases List.mem_append.mp hrecord with hrecord | hrecord
    · have := h.records record hrecord
      simp only
      omega
    · cases List.mem_singleton.mp hrecord
      simp only [RunRecord.runId, hrowId]
      omega
  · rcases List.mem_append.mp hissue with hissue | hissue
    · have := h.taken issue hissue taken htaken
      simp only
      omega
    · cases List.mem_singleton.mp hissue
      cases htaken
      simp only
      omega

end Above

/-! ## Steps -/

/-- What every state of a history satisfies. -/
def NewSoFar (state : IssuedTable) : Prop := Above state ∧ AtEach New state.2

variable {state : IssuedTable}

theorem NewSoFar.settled (h : NewSoFar state) {result : Except StorageError RunTable}
    (hresult : ∀ table, result = .ok table → table.nextRunId = state.1.nextRunId ∧
      ∀ record ∈ table.records, ∃ old ∈ state.1.records, record.runId = old.runId) :
    NewSoFar (settled state result) := by
  cases result with
  | error e => exact h
  | ok table =>
      obtain ⟨hnext, hrecords⟩ := hresult table rfl
      exact ⟨h.1.keep hnext hrecords, h.2⟩

theorem NewSoFar.allocateThen (h : NewSoFar state) (after : AfterAllocation) :
    NewSoFar (allocateThen state after) := by
  unfold SyncPlus.allocateThen
  split
  · exact h
  · rename_i table runId halloc
    have hrunId := (h.1.allocate halloc).1
    have hallocated : NewSoFar (table, state.2 ++ [.allocated runId]) := by
      refine ⟨h.1.allocated halloc, atEach_snoc.mpr ⟨h.2, h.1.new ?_⟩⟩
      rintro _ ⟨⟩
      exact hrunId
    have hback : NewSoFar (state.1, state.2 ++ [.rolledBack runId]) := by
      refine ⟨h.1.rolledBack runId, atEach_snoc.mpr ⟨h.2, h.1.new ?_⟩⟩
      rintro _ ⟨⟩
      exact hrunId
    split
    · exact hallocated
    · exact hback
    · split
      · exact hback
      · split
        · exact hback
        · rename_i hbegin
          exact ⟨hallocated.1.begun hbegin, atEach_snoc.mpr ⟨hallocated.2, nofun⟩⟩

theorem deleteReportMetadata_records {table table' : RunTable} {runId : RunId}
    {action : String} {allowed : RunReportStatus → Bool}
    (h : table.deleteReportMetadata runId action allowed = .ok table') :
    table'.nextRunId = table.nextRunId ∧
      ∀ record ∈ table'.records, ∃ old ∈ table.records, record.runId = old.runId := by
  unfold RunTable.deleteReportMetadata at h
  obtain ⟨_, -, h⟩ := bind_eq_ok.mp h
  obtain ⟨_, -, h⟩ := bind_eq_ok.mp h
  obtain ⟨-, h⟩ := ensure_bind_eq_ok.mp h
  cases h
  exact ⟨rfl, fun record hrecord => ⟨record, (List.mem_filter.mp hrecord).1, rfl⟩⟩

theorem onRun_records {table table' : RunTable} {runId : RunId} {op : StoreOperation}
    (h : table.onRun runId op = .ok table') :
    table'.nextRunId = table.nextRunId ∧
      ∀ record ∈ table'.records, ∃ old ∈ table.records, record.runId = old.runId := by
  unfold RunTable.onRun at h
  obtain ⟨_, -, h⟩ := bind_eq_ok.mp h
  obtain ⟨_, -, h⟩ := bind_eq_ok.mp h
  cases h
  refine ⟨rfl, fun record hrecord => ?_⟩
  obtain ⟨old, hold, rfl⟩ := List.mem_map.mp hrecord
  refine ⟨old, hold, ?_⟩
  split <;> rfl

theorem NewSoFar.apply (h : NewSoFar state) (op : RunTableOperation) :
    NewSoFar (applyRunTable state op) := by
  cases op with
  | nextRunId => exact h.allocateThen .commit
  | allocateInTransaction after => exact h.allocateThen after
  | beginRun snapshot =>
      simp only [applyRunTable]
      split
      · rename_i hbegin
        exact ⟨h.1.begun hbegin, atEach_snoc.mpr ⟨h.2, nofun⟩⟩
      · exact h
  | removeCompletedReport runId => exact h.settled fun _ => deleteReportMetadata_records
  | discardUnresolvedRun runId => exact h.settled fun _ => deleteReportMetadata_records
  | onRun runId op => exact h.settled fun _ => onRun_records

/-- **Run identifiers are never reused.** In every history, an allocation
returns an identifier that is greater than every one allocated or begun
before it, whatever has been deleted since. -/
theorem runIds_new (ops : List RunTableOperation) :
    AtEach (fun before issue => ∀ runId ∈ issue.returned?, ∀ earlier ∈ before,
      ∀ taken ∈ earlier.taken?, taken.value < runId.value) (runTableAfter ops).2 := by
  have hall : ∀ state, NewSoFar state → NewSoFar (ops.foldl applyRunTable state) := by
    induction ops with
    | nil => exact fun state h => h
    | cons op ops ih => exact fun state h => ih _ (h.apply op)
  exact (hall _ ⟨.empty, atEach_nil⟩).2

end SyncPlus
