import SyncPlus.TransferredBytes

/-!
# Whether the space is enough

The estimate of a precheck beside what the plan of the same trees writes. Both are
totals over the places of the sending peer's tree: the estimate has each file that
the precheck counts once or twice, and the run writes each file as often as
`timesWritten` says. So the estimate is sufficient exactly when the calls of its walk
succeed, what the files written beyond it hold is no more than what the files beyond
those written hold, and the counter does not saturate below what is written
(`required_space_sufficient_iff`).
-/

namespace SyncPlus

/-- A run of an analyzed plan, as one side sends. -/
def FreshAnalysis.sites (analysis : FreshAnalysis) (device : PathBuf → UInt64)
    (recoveryRoot : Option PathBuf) (side : PeerSide) : RunSites where
  options := analysis.specification.options
  side
  source := (checkedRoots analysis.profile side).1
  destination := (checkedRoots analysis.profile side).2
  device
  recoveryRoot

section

variable (probe : LocalPrecheckProbe) (device : PathBuf → UInt64)
  (recoveryRoot : Option PathBuf) (analysis : FreshAnalysis) (side : PeerSide)

/-- What the precheck asks for, on the receiving peer of a side. -/
def LocalPrecheckProbe.requiredFor : UInt64 :=
  probe.requiredSpace (checkedRoots analysis.profile side).1
    (checkedRoots analysis.profile side).2 analysis.specification.options
    analysis.profile.exclusions

/-- The estimate covers what the run writes, and is not smaller than it would be if
every call of its walk had succeeded. -/
structure SpaceSufficient : Prop where
  covers : (analysis.sites device recoveryRoot side).transferredBytes analysis.actions ≤
    (probe.requiredFor analysis side).toNat
  unreduced : (probe.answering.requiredFor analysis side).toNat ≤
    (probe.requiredFor analysis side).toNat

/-- The scope of the two walks. -/
def LocalPrecheckProbe.scope : WalkScope := ⟨probe.fs.lossy, analysis.profile.exclusions⟩

/-- The tree of the peer that sends. -/
def LocalPrecheckProbe.sent : FileTree := probe.fs.tree (checkedRoots analysis.profile side).1

/-- How often the run writes the file at a place of that tree. -/
def timesWrittenAt (place : List Name × Found) : Nat :=
  let item := (probe.scope analysis).itemAt ⟨[]⟩ false place
  if (probe.scope analysis).Visible place ∧ item.outcome = .included then
    (analysis.sites device recoveryRoot side).timesWritten analysis.specification.mode item
      ((receivingInventory analysis.specification analysis.sourceInventory
        analysis.destinationInventory side).item item.relativePath)
  else 0

/-- How often the estimate has it. -/
def timesCountedAt (place : List Name × Found) : Nat :=
  if (probe.scope analysis).skippedAt ⟨[]⟩ place.1 place.2.itemType then 0
  else probe.copiesCounted (checkedRoots analysis.profile side).1
    (checkedRoots analysis.profile side).2 analysis.specification.options

/-- The bytes of all files of that tree, each taken as often as this. -/
def totalBytes (often : List Name × Found → Nat) : Nat :=
  ((probe.sent analysis side).entries.located.map fun place =>
    often place * place.2.fileSize).sum

theorem totalBytes_le_iff (often other : List Name × Found → Nat) :
    totalBytes probe analysis side often ≤ totalBytes probe analysis side other ↔
      totalBytes probe analysis side (fun place => often place - other place) ≤
        totalBytes probe analysis side (fun place => other place - often place) :=
  sum_le_sum_iff_excess often other (fun place => place.2.fileSize) _

/-- No call of the precheck's walk fails, unless it has nothing to count; what the
files written more often than they are counted (`counted_lt_written_iff`) add to the
estimate is no more than what those counted more often than they are written leave of
it; and 64 bits hold what is written. -/
structure SpaceCounted : Prop where
  inspected : (probe.scope analysis).Inspected
      (probe.failed (checkedRoots analysis.profile side).1) (probe.sent analysis side) ∨
    totalBytes probe analysis side (timesCountedAt probe analysis side) = 0
  excess : totalBytes probe analysis side (fun place =>
      timesWrittenAt probe device recoveryRoot analysis side place -
        timesCountedAt probe analysis side place) ≤
    totalBytes probe analysis side (fun place =>
      timesCountedAt probe analysis side place -
        timesWrittenAt probe device recoveryRoot analysis side place)
  representable : totalBytes probe analysis side
    (timesWrittenAt probe device recoveryRoot analysis side) < 2 ^ 64

/-- The source at a place is removed after its transfer and copied to a recovery directory on
the filesystem of the destination. -/
def CopiedToRecovery (place : List Name × Found) : Prop :=
  let item := (probe.scope analysis).itemAt ⟨[]⟩ false place
  (probe.scope analysis).Visible place ∧ item.outcome = .included ∧
    analysis.specification.mode = .oneWay ∧
    removesSource analysis.specification.options item
      ((receivingInventory analysis.specification analysis.sourceInventory
        analysis.destinationInventory side).item item.relativePath) = true ∧
    (analysis.sites device recoveryRoot side).copiesToRecovery item.relativePath = true

/-- **The places that are written more often than they are counted**: those that only the
precheck's matcher leaves out, and those copied to recovery as well but counted once. -/
theorem counted_lt_written_iff (place : List Name × Found) :
    timesCountedAt probe analysis side place <
        timesWrittenAt probe device recoveryRoot analysis side place ↔
      ((probe.scope analysis).skippedAt ⟨[]⟩ place.1 place.2.itemType = true ∧
        0 < timesWrittenAt probe device recoveryRoot analysis side place) ∨
      ((probe.scope analysis).skippedAt ⟨[]⟩ place.1 place.2.itemType = false ∧
        probe.copiesCounted (checkedRoots analysis.profile side).1
          (checkedRoots analysis.profile side).2 analysis.specification.options = 1 ∧
        CopiedToRecovery probe device recoveryRoot analysis side place) := by
  have htwice : 2 ≤ timesWrittenAt probe device recoveryRoot analysis side place ↔
      CopiedToRecovery probe device recoveryRoot analysis side place := by
    unfold timesWrittenAt CopiedToRecovery
    dsimp only
    split
    · rename_i hincluded
      rw [RunSites.two_le_timesWritten_iff, and_iff_right hincluded.1,
        and_iff_right hincluded.2]
      rfl
    · rename_i hincluded
      exact iff_of_false (by omega) fun h => hincluded ⟨h.1, h.2.1⟩
  have hatMost : timesWrittenAt probe device recoveryRoot analysis side place ≤ 2 := by
    unfold timesWrittenAt RunSites.timesWritten
    dsimp only
    repeat' split
    all_goals omega
  have hcopies : probe.copiesCounted (checkedRoots analysis.profile side).1
      (checkedRoots analysis.profile side).2 analysis.specification.options = 1 ∨
    probe.copiesCounted (checkedRoots analysis.profile side).1
      (checkedRoots analysis.profile side).2 analysis.specification.options = 2 := by
    unfold LocalPrecheckProbe.copiesCounted
    split
    · exact .inr rfl
    · exact .inl rfl
  rw [← htwice]
  unfold timesCountedAt
  cases hskipped : (probe.scope analysis).skippedAt ⟨[]⟩ place.1 place.2.itemType with
  | true => simp
  | false =>
      rw [if_neg Bool.false_ne_true]
      simp only [Bool.false_eq_true, false_and, true_and, false_or]
      omega

end

section

variable {probe : LocalPrecheckProbe} {analysis : FreshAnalysis} {profile : SyncProfile}
  {side : PeerSide}

theorem bytes_itemAt {w : WalkScope} {place : List Name × Found} :
    (w.itemAt ⟨[]⟩ false place).bytes = place.2.fileSize := by
  have hsize : (metadataSnapshot place.2).size = place.2.metadata.size := by
    unfold metadataSnapshot
    split <;> rfl
  unfold InventoryItem.bytes dataSize Found.fileSize
  show ((if place.2.itemType = .regularFile then some (metadataSnapshot place.2).size
    else none).map UInt64.toNat).getD 0 = _
  rw [hsize]
  split <;> rfl

/-- What the run writes, place by place. -/
theorem transferredBytes_eq_total (device : PathBuf → UInt64) (recoveryRoot : Option PathBuf)
    (h : FreshAnalysis.analyze probe.fs profile = .ok analysis)
    (hside : SendsFrom analysis.specification side) :
    (analysis.sites device recoveryRoot side).transferredBytes analysis.actions =
      totalBytes probe analysis side
        (timesWrittenAt probe device recoveryRoot analysis side) := by
  obtain ⟨rfl, -, -, ⟨peer, hsent⟩, -⟩ := walked_of_analyze side h
  obtain ⟨-, -, -, hsource, hdestination⟩ := FreshAnalysis.analyze_eq_ok h
  rw [transferredBytes_eq (WalkScope.collectInventory_inScope hsource)
    (WalkScope.collectInventory_inScope hdestination) rfl hside analysis.planned]
  have hperm := WalkScope.collectInventory_perm hsent
  show (((sendingInventory analysis.specification analysis.sourceInventory
    analysis.destinationInventory side).items.filter (·.isEligible)).map _).sum = _
  rw [sum_map_filter, (hperm.map _).sum_eq, List.map_map, sum_map_filter]
  refine congrArg List.sum (List.map_congr_left fun place _ => ?_)
  dsimp only [Function.comp_apply]
  rw [bytes_itemAt, ← Nat.mul_assoc, ← Nat.mul_assoc]
  congr 1
  unfold timesWrittenAt InventoryItem.isEligible
  by_cases hvisible : (probe.scope analysis).Visible place
  · by_cases hin : ((probe.scope analysis).itemAt ⟨[]⟩ false place).outcome = .included
    · rw [if_pos (⟨hvisible, hin⟩ : _ ∧ _)]
      unfold LocalPrecheckProbe.scope at hvisible hin ⊢
      simp only [hvisible, hin, decide_true, if_true, Nat.one_mul]
      rfl
    · rw [if_neg fun h : _ ∧ _ => hin h.2]
      unfold LocalPrecheckProbe.scope at hin
      simp [hin]
  · rw [if_neg fun h : _ ∧ _ => hvisible h.1]
    unfold LocalPrecheckProbe.scope at hvisible
    simp [hvisible]

/-- What the walk counts, as often as the estimate has it. -/
theorem counted_eq_total (side : PeerSide)
    (h : FreshAnalysis.analyze probe.fs profile = .ok analysis) :
    probe.copiesCounted (checkedRoots analysis.profile side).1
        (checkedRoots analysis.profile side).2 analysis.specification.options *
      (probe.scope analysis).countedTotal (probe.sent analysis side) =
      totalBytes probe analysis side (timesCountedAt probe analysis side) := by
  obtain ⟨rfl, -, -, ⟨peer, hsent⟩, -⟩ := walked_of_analyze side h
  obtain ⟨found, hroot, hsent⟩ := bind_eq_ok.mp hsent
  obtain ⟨hdirectory, -⟩ := ensure_bind_eq_ok.mp hsent
  rw [orError_eq_ok] at hroot
  unfold WalkScope.countedTotal totalBytes LocalPrecheckProbe.sent
  rw [hroot, Option.map_some, Option.getD_some, if_pos hdirectory, ← List.sum_map_mul_left]
  refine congrArg List.sum (List.map_congr_left fun place _ => ?_)
  unfold WalkScope.countedBytes timesCountedAt
  split
  · rw [Nat.mul_zero, Nat.zero_mul]
  · rfl

/-- The root is a directory that every call can be made on. -/
theorem inspected_none (h : FreshAnalysis.analyze probe.fs profile = .ok analysis) :
    (probe.scope analysis).Inspected .none (probe.sent analysis side) := by
  obtain ⟨rfl, -, -, ⟨peer, hsent⟩, -⟩ := walked_of_analyze side h
  exact ⟨root_isSome hsent, rfl, fun _ => ⟨rfl, fun _ _ _ => ⟨rfl, fun _ => ⟨rfl, fun _ => rfl⟩⟩⟩⟩

end

/-- **When the space is enough.** The estimate of the precheck covers what the plan
writes, and is not reduced by a failing call, exactly when `SpaceCounted` holds. -/
theorem required_space_sufficient_iff {probe : LocalPrecheckProbe} {device : PathBuf → UInt64}
    {recoveryRoot : Option PathBuf} {profile : SyncProfile} {analysis : FreshAnalysis}
    {side : PeerSide} (hanalysis : FreshAnalysis.analyze probe.fs profile = .ok analysis)
    (hside : SendsFrom analysis.specification side) :
    SpaceSufficient probe device recoveryRoot analysis side ↔
      SpaceCounted probe device recoveryRoot analysis side := by
  have hwritten := transferredBytes_eq_total device recoveryRoot hanalysis hside
  have hcounted := counted_eq_total side hanalysis
  have hanswered : probe.answering.requiredFor analysis side = saturate
      (totalBytes probe analysis side (timesCountedAt probe analysis side)) := by
    rw [← hcounted]
    exact LocalPrecheckProbe.requiredSpace_of_inspected (inspected_none hanalysis)
  have hexcess := totalBytes_le_iff probe analysis side
    (timesWrittenAt probe device recoveryRoot analysis side) (timesCountedAt probe analysis side)
  have hanswered := congrArg UInt64.toNat hanswered
  rw [toNat_saturate] at hanswered
  have hrequired : (probe.requiredFor analysis side).toNat =
      if (probe.scope analysis).Inspected (probe.failed (checkedRoots analysis.profile side).1)
          (probe.sent analysis side) then
        min (totalBytes probe analysis side (timesCountedAt probe analysis side)) (2 ^ 64 - 1)
      else 0 := by
    split <;> rename_i hinspected
    · rw [← toNat_saturate, ← hcounted]
      exact congrArg UInt64.toNat (LocalPrecheckProbe.requiredSpace_of_inspected hinspected)
    · exact congrArg UInt64.toNat (LocalPrecheckProbe.requiredSpace_of_failure hinspected)
  constructor
  · intro ⟨hcovers, hunreduced⟩
    rw [hwritten, hrequired] at hcovers
    rw [hanswered, hrequired] at hunreduced
    refine ⟨?_, hexcess.mp ?_, ?_⟩
    · split at hunreduced <;> rename_i hinspected
      · exact .inl hinspected
      · right
        omega
    · split at hcovers <;> omega
    · split at hcovers <;> omega
  · intro ⟨hinspected, hwithin, hrepresentable⟩
    have hwithin := hexcess.mpr hwithin
    refine ⟨?_, ?_⟩
    · rw [hwritten, hrequired]
      split <;> rename_i hcalls
      · omega
      · have hnothing := hinspected.resolve_left hcalls
        omega
    · rw [hanswered, hrequired]
      split <;> rename_i hcalls
      · omega
      · have hnothing := hinspected.resolve_left hcalls
        omega

/-! ### A file beside a folder that cannot be read -/

def partialName : Name := asciiBytes ".syncplus-partial-1"

/-- `/a` has the file `a` and a folder left by an interrupted transfer, which only the
precheck comes to. -/
def besideLeftover : FileSystem where
  lossy := .utf8
  isDir _ := false
  tree root :=
    if root = ⟨[47, 97]⟩ then
      .ofEntries (.cons [97] (plainFile zeroHash) .nil (.cons partialName plainDirectory .nil .nil))
        (by decide)
    else .ofEntries .nil trivial

/-- The calls that read the folder fail, or none does. -/
def leftoverProbe (readable : Bool) : LocalPrecheckProbe where
  fs := besideLeftover
  failed _ :=
    { FailedCalls.none with
      readDir := fun path =>
        if readable ∨ path ≠ ⟨partialName⟩ then none
        else some "Permission denied (os error 13)" }
  deviceId _ := some 1

/-- Where the folder can be read, the space for the file is asked for. -/
theorem required_space_sufficient_leftover : ∃ analysis,
    FreshAnalysis.analyze besideLeftover copyingProfile = .ok analysis ∧
      SpaceSufficient (leftoverProbe true) (fun _ => 1) none analysis .peerA := by
  obtain ⟨analysis, hanalysis, htest⟩ := exists_analysis besideLeftover copyingProfile
    (fun analysis => analysis.profile = copyingProfile ∧
      analysis.specification.source = .peerA ∧
      totalBytes (leftoverProbe true) analysis .peerA (fun place =>
        timesWrittenAt (leftoverProbe true) (fun _ => 1) none analysis .peerA place -
          timesCountedAt (leftoverProbe true) analysis .peerA place) = 0 ∧
      totalBytes (leftoverProbe true) analysis .peerA
        (timesWrittenAt (leftoverProbe true) (fun _ => 1) none analysis .peerA) < 2 ^ 64)
    (by decide +kernel)
  obtain ⟨hprofile, hsource, hexcess, hrepresentable⟩ := of_decide_eq_true htest
  refine ⟨analysis, hanalysis, (required_space_sufficient_iff hanalysis
    fun _ => ?_).mpr ⟨.inl ?_, ?_, hrepresentable⟩⟩
  · rw [hsource]
    rfl
  · unfold LocalPrecheckProbe.scope LocalPrecheckProbe.sent
    rw [hprofile]
    decide +kernel
  · rw [hexcess]
    exact Nat.zero_le _

/-- Where it cannot, none is, and the file is copied all the same. -/
theorem required_space_insufficient :
    ¬ ∀ (probe : LocalPrecheckProbe) (device : PathBuf → UInt64) (recoveryRoot : Option PathBuf)
      (profile : SyncProfile) (analysis : FreshAnalysis) (side : PeerSide),
      FreshAnalysis.analyze probe.fs profile = .ok analysis →
        SendsFrom analysis.specification side →
          SpaceSufficient probe device recoveryRoot analysis side := by
  intro h
  obtain ⟨analysis, hanalysis, htest⟩ := exists_analysis besideLeftover copyingProfile
    (fun analysis => analysis.profile = copyingProfile ∧
      analysis.specification.source = .peerA ∧
      (analysis.sites (fun _ => 1) none .peerA).transferredBytes analysis.actions = 5)
    (by decide +kernel)
  obtain ⟨hprofile, hsource, hwritten⟩ := of_decide_eq_true htest
  have hsufficient := h (leftoverProbe false) (fun _ => 1) none copyingProfile analysis .peerA
    hanalysis fun _ => by rw [hsource]; rfl
  have hrequired : (leftoverProbe false).requiredFor analysis .peerA = 0 := by
    refine LocalPrecheckProbe.requiredSpace_of_failure ?_
    rw [hprofile]
    decide +kernel
  have hcovers := hsufficient.covers
  rw [hwritten, hrequired] at hcovers
  exact absurd hcovers (by decide)

end SyncPlus
