import SyncPlus.ConflictReview
import SyncPlus.MirrorDeletion

/-!
# Completion reconciliation

What a run finds when it looks at the peers again. A One-Way run holds every
frozen item of its source against the peers as they are and against the
journal; a Mirror run does so with the frozen items of both peers, the
resolutions and the deletions. Both are a loop that pushes what it finds, so
that a verdict without findings says something of every item
(`findItems_eq_nil`), and the two verdicts are unfolded from there: a
drained source (`drained_sound`) and a Mirror pair that agrees
(`mirror_invariant`).
-/

namespace SyncPlus

/-! ## Findings -/

def pushUnique (findings : List ReconciliationFinding) (path : PathBuf)
    (reason : ReconciliationReason) : List ReconciliationFinding :=
  if findings.any fun finding =>
      finding.relativePath.same path && finding.reason = reason then findings
  else findings ++ [⟨path, reason⟩]

/-- A loop that pushes what it finds at each item. -/
def findItems {ι : Type} (path : ι → PathBuf) (reason : ι → Option ReconciliationReason)
    (findings : List ReconciliationFinding) (items : List ι) : List ReconciliationFinding :=
  items.foldl (fun findings item =>
    match reason item with
    | some reason => pushUnique findings (path item) reason
    | none => findings) findings

theorem pushUnique_ne_nil {findings : List ReconciliationFinding} {path : PathBuf}
    {reason : ReconciliationReason} : pushUnique findings path reason ≠ [] := by
  unfold pushUnique
  split <;> rename_i h
  · rintro rfl
    cases h
  · simp

/-- **A loop finds nothing** exactly when no item has a reason and nothing was
found before. -/
theorem findItems_eq_nil {ι : Type} {path : ι → PathBuf}
    {reason : ι → Option ReconciliationReason} {findings : List ReconciliationFinding}
    {items : List ι} : findItems path reason findings items = [] ↔
      findings = [] ∧ ∀ item ∈ items, reason item = none := by
  unfold findItems
  induction items generalizing findings with
  | nil => simp
  | cons item items ih =>
      rw [List.foldl_cons, ih]
      cases hreason : reason item with
      | none => simp [hreason]
      | some r => simp [hreason, pushUnique_ne_nil]

/-! ## Proofs and matches -/

def journalReason (entries : List ActionJournalEntry) : Option ReconciliationReason :=
  entries.findSome? fun entry =>
    match entry.outcome with
    | .failed reason | .unresolved reason =>
        some (if reason = .destinationUnavailable then .unavailable else .failed reason)
    | .recoveryReview _ | .cancelled | .interrupted | .deferred | .inProgress =>
        some .unverifiable
    | .completed => none

def journalAt (journal : List ActionJournalEntry) (path : PathBuf) : List ActionJournalEntry :=
  journal.filter (·.plan.relativePath.same path)

def sourceMatchesSnapshot (profile : SyncProfile) (expected : InventorySnapshotItem)
    (current : InventoryItem) : Bool :=
  if expected.itemType ≠ current.itemType ∨ expected.outcome ≠ current.outcome ∨
      expected.size ≠ current.metadata.size ∨ expected.readonly ≠ current.metadata.readonly ∨
      expected.executablePermissions ≠ current.metadata.executablePermissions ∨
      sameOptionPath expected.symlinkTarget current.metadata.symlinkTarget = false ∨
      expected.contentFingerprint ≠ current.contentFingerprint then false
  else if profile.options.metadata.timestamps then
    expected.modifiedAtUnixNanos = unixNanos current.metadata.modifiedAt
  else true

def mirrorItemMatches (profile : SyncProfile) (expected : InventorySnapshotItem)
    (current : InventoryItem) : Bool :=
  MirrorEquality.equal ⟨profile.options.metadata⟩ expected (.fromItem current)

def destinationMatchesSource (profile : SyncProfile) (expected : InventorySnapshotItem)
    (destination : InventoryItem) : Bool :=
  mirrorItemMatches profile expected destination

def snapshotItemsMatch (metadata : MetadataRequirements) (left right : InventorySnapshotItem) :
    Bool :=
  MirrorEquality.equal ⟨metadata⟩ left right

def removalEvidenceMatches (expected : InventorySnapshotItem) (evidence : RecoveryEvidence) :
    Bool :=
  evidence.destinationPresent && evidence.destinationSize = some expected.size &&
    expected.contentFingerprint.all fun hash => evidence.destinationSha256 = some hash

/-- An entry at the path of the item proves its removal. -/
def removalVerified (pathJournal : List ActionJournalEntry) (expected : InventorySnapshotItem) :
    Bool :=
  pathJournal.any fun entry =>
    entry.plan.operation = .removeSourceAfterVerification && entry.outcome = .completed &&
      entry.removalResult.any fun result => removalEvidenceMatches expected result.evidence

/-! ## One-Way runs -/

namespace CompletionReconciliation

/-- The first loop of `reconcile`, for one frozen item. -/
def expectedReason (profile : SyncProfile) (current : FreshAnalysis)
    (journal : List ActionJournalEntry) (expected : InventorySnapshotItem) :
    Option ReconciliationReason :=
  if expected.outcome = .excluded then some .excluded
  else if expected.outcome = .unsupported then some .unverifiable
  else
    let currentSource := current.sourceInventory.item expected.relativePath
    let currentDestination := current.destinationInventory.item expected.relativePath
    if currentSource.any (fun source => !sourceMatchesSnapshot profile expected source) then
      some .changed
    else
      let pathJournal := journalAt journal expected.relativePath
      match journalReason pathJournal with
      | some reason => some reason
      | none =>
          let destinationVerified := currentDestination.any (destinationMatchesSource profile expected)
          let removalVerified := removalVerified pathJournal expected
          if currentSource.isNone && !removalVerified then
            some (if pathJournal.isEmpty then .unexplained else .unverifiable)
          else if profile.options.safeDelete then
            let sourceRemovalRequired :=
              expected.itemType = .regularFile || expected.itemType = .symlink
            if sourceRemovalRequired && currentSource.isSome || !destinationVerified ||
                sourceRemovalRequired && !removalVerified then some .unverifiable
            else none
          else if currentSource.isNone || !destinationVerified then some .unverifiable
          else none

/-- An item that was not frozen. -/
def appearedReason (expectedPaths : List PathBuf) (item : InventoryItem) :
    Option ReconciliationReason :=
  if expectedPaths.any (·.same item.relativePath) then none
  else if item.outcome = .excluded then some .excluded
  else some .newlyAppeared

/-- The last loop of `reconcile`, for one item of the destination. -/
def cleanupReason (expectedPaths : List PathBuf) (journal : List ActionJournalEntry)
    (item : InventoryItem) : Option ReconciliationReason :=
  if item.outcome ≠ .included ∨ expectedPaths.any (·.same item.relativePath) = true then none
  else
    let pathJournal := journalAt journal item.relativePath
    if pathJournal.any fun entry =>
        entry.plan.operation = .removeDestination && entry.outcome = .completed then
      some .unverifiable
    else some ((journalReason pathJournal).getD .unexplained)

def reconcile (profile : SyncProfile) (inventory : SourceInventorySnapshot)
    (current : FreshAnalysis) (journal : List ActionJournalEntry) :
    CompletionReconciliation :=
  let expectedPaths := inventory.items.map (·.relativePath)
  let findings := findItems InventorySnapshotItem.relativePath
    (expectedReason profile current journal) [] inventory.items
  let findings := findItems InventoryItem.relativePath (appearedReason expectedPaths) findings
    current.sourceInventory.items
  let findings :=
    if profile.options.destinationCleanup then
      findItems InventoryItem.relativePath (cleanupReason expectedPaths journal) findings
        current.destinationInventory.items
    else findings
  { sourceDrainStatus :=
      if profile.options.safeDelete then
        if findings.isEmpty then .drained else .notEmpty
      else .notApplicable
    findings }

/-! ## Mirror runs -/

/-- A side that is expected, with an outcome. -/
def expectedWith (outcome : AnalysisOutcome) (peerA peerB : Option InventorySnapshotItem) : Bool :=
  peerA.any (·.outcome = outcome) || peerB.any (·.outcome = outcome)

/-- The reason of a path that both peers are expected to have. -/
def bothReason (profile : SyncProfile) (expectedA expectedB : InventorySnapshotItem)
    (currentA currentB : Option InventoryItem) : Option ReconciliationReason :=
  let stable := currentA.any (mirrorItemMatches profile expectedA) &&
    currentB.any (mirrorItemMatches profile expectedB)
  if !stable || !snapshotItemsMatch profile.options.metadata expectedA expectedB then
    some .changed
  else none

/-- The reason of a path that one peer was expected to give to the other. -/
def copiedReason (profile : SyncProfile) (expected : InventorySnapshotItem)
    (current counterpart : Option InventoryItem) : Option ReconciliationReason :=
  let sourceStable := current.any (mirrorItemMatches profile expected)
  let destinationVerified := counterpart.any (destinationMatchesSource profile expected)
  if !sourceStable || !destinationVerified then some .unverifiable else none

/-- What one peer is expected to have at a path: the item of the other peer
where the review decided to keep that one. -/
def expectedItem (reviewedResolution : Option ConflictResolution)
    (keepOther : ConflictResolution) (peer other : SourceInventorySnapshot)
    (relativePath : PathBuf) : Option InventorySnapshotItem :=
  if reviewedResolution = some keepOther then other.item relativePath
  else peer.item relativePath

/-- The reason of a path that no deletion is about. -/
def expectedReasonAt (profile : SyncProfile) (journal : List ActionJournalEntry)
    (relativePath : PathBuf) (expectedA expectedB : Option InventorySnapshotItem)
    (currentA currentB : Option InventoryItem) : Option ReconciliationReason :=
  if expectedWith .excluded expectedA expectedB then some .excluded
  else if expectedWith .unsupported expectedA expectedB then some .unverifiable
  else
    match journalReason (journalAt journal relativePath) with
    | some reason => some reason
    | none =>
        match expectedA, expectedB with
        | some expectedA, some expectedB => bothReason profile expectedA expectedB currentA currentB
        | some expectedA, none => copiedReason profile expectedA currentA currentB
        | none, some expectedB => copiedReason profile expectedB currentB currentA
        | none, none => none

/-- The loop of `reconcile_mirror_with_resolutions_and_deletions`, for one
path. -/
def mirrorReason (profile : SyncProfile) (peerA peerB : SourceInventorySnapshot)
    (current : FreshAnalysis) (journal : List ActionJournalEntry)
    (resolutions : List ConflictResolutionAction) (deletions : List MirrorDeletionResult)
    (relativePath : PathBuf) : Option ReconciliationReason :=
  let reviewedResolution := (resolutions.find? (·.relativePath.same relativePath)).map
    (·.resolution)
  let expectedA := expectedItem reviewedResolution .keepPeerB peerA peerB relativePath
  let expectedB := expectedItem reviewedResolution .keepPeerA peerB peerA relativePath
  let currentA := current.sourceInventory.item relativePath
  let currentB := current.destinationInventory.item relativePath
  if deletions.any fun result => (pathOf result.relativePath).same relativePath &&
      result.outcome = .completed && !result.requiresReview then
    if currentA.isSome || currentB.isSome then some .changed else none
  else expectedReasonAt profile journal relativePath expectedA expectedB currentA currentB

def reconcileMirrorWithResolutionsAndDeletions (profile : SyncProfile)
    (peerA peerB : SourceInventorySnapshot) (current : FreshAnalysis)
    (journal : List ActionJournalEntry) (resolutions : List ConflictResolutionAction)
    (deletions : List MirrorDeletionResult) : CompletionReconciliation :=
  let expectedPaths := pathSet (peerA.items.map (·.relativePath) ++
    peerB.items.map (·.relativePath))
  let findings := findItems id
    (mirrorReason profile peerA peerB current journal resolutions deletions) [] expectedPaths
  let findings := findItems InventoryItem.relativePath (appearedReason expectedPaths) findings
    (current.sourceInventory.items ++ current.destinationInventory.items)
  { sourceDrainStatus := .notApplicable
    findings }

end CompletionReconciliation

/-! ## A drained source -/

/-- The item is as it was frozen. -/
structure Unchanged (profile : SyncProfile) (expected : InventorySnapshotItem)
    (current : InventoryItem) : Prop where
  itemType : expected.itemType = current.itemType
  outcome : expected.outcome = current.outcome
  size : expected.size = current.metadata.size
  readonly : expected.readonly = current.metadata.readonly
  executablePermissions :
    expected.executablePermissions = current.metadata.executablePermissions
  symlinkTarget : sameOptionPath expected.symlinkTarget current.metadata.symlinkTarget = true
  contentFingerprint : expected.contentFingerprint = current.contentFingerprint
  modifiedAt : profile.options.metadata.timestamps = true →
    expected.modifiedAtUnixNanos = unixNanos current.metadata.modifiedAt

/-- The journal proves that the item was removed after it was verified. -/
def RemovalVerified (journal : List ActionJournalEntry) (expected : InventorySnapshotItem) :
    Prop :=
  ∃ entry ∈ journal, entry.plan.relativePath.same expected.relativePath = true ∧
    entry.plan.operation = .removeSourceAfterVerification ∧ entry.outcome = .completed ∧
    ∃ result, entry.removalResult = some result ∧ result.evidence.destinationPresent = true ∧
      result.evidence.destinationSize = some expected.size ∧
      ∀ hash, expected.contentFingerprint = some hash →
        result.evidence.destinationSha256 = some hash

/-- The destination has an equal item at the path. -/
def EqualAtDestination (profile : SyncProfile) (current : FreshAnalysis)
    (expected : InventorySnapshotItem) : Prop :=
  ∃ found, current.destinationInventory.item expected.relativePath = some found ∧
    MirrorEquality.equal ⟨profile.options.metadata⟩ expected (.fromItem found) = true

section

variable {profile : SyncProfile} {inventory : SourceInventorySnapshot} {current : FreshAnalysis}
  {journal : List ActionJournalEntry} {expected : InventorySnapshotItem} {found : InventoryItem}

theorem sourceMatchesSnapshot_iff :
    sourceMatchesSnapshot profile expected found = true ↔ Unchanged profile expected found := by
  unfold sourceMatchesSnapshot
  constructor
  · intro h
    split at h
    · cases h
    · rename_i hsame
      simp only [not_or, not_not, Bool.not_eq_false] at hsame
      obtain ⟨htype, houtcome, hsize, hreadonly, hpermissions, htarget, hcontent⟩ := hsame
      refine ⟨htype, houtcome, hsize, hreadonly, hpermissions, htarget, hcontent, ?_⟩
      intro htimestamps
      rw [if_pos htimestamps] at h
      simpa using h
  · intro h
    rw [if_neg]
    · split
      · rename_i htimestamps
        simpa using h.modifiedAt htimestamps
      · rfl
    · simp [h.itemType, h.outcome, h.size, h.readonly, h.executablePermissions,
        h.symlinkTarget, h.contentFingerprint]

theorem removalVerified_journalAt
    (h : removalVerified (journalAt journal expected.relativePath) expected = true) :
    RemovalVerified journal expected := by
  obtain ⟨entry, hentry, h⟩ := List.any_eq_true.mp h
  obtain ⟨hmem, hpath⟩ := List.mem_filter.mp hentry
  simp only [Bool.and_eq_true, decide_eq_true_eq, Option.any_eq_true] at h
  obtain ⟨⟨hoperation, houtcome⟩, result, hresult, hevidence⟩ := h
  simp only [removalEvidenceMatches, Bool.and_eq_true, decide_eq_true_eq] at hevidence
  obtain ⟨⟨hpresent, hsize⟩, hhash⟩ := hevidence
  refine ⟨entry, hmem, hpath, hoperation, houtcome, result, hresult, hpresent, hsize, ?_⟩
  intro hash heq
  rw [heq] at hhash
  simpa using hhash

/-- What no reason for a frozen item says, with Safe Delete on. -/
theorem expectedReason_eq_none (hsafe : profile.options.safeDelete = true)
    (h : CompletionReconciliation.expectedReason profile current journal expected = none) :
    expected.outcome = .included ∧ EqualAtDestination profile current expected ∧
      (expected.itemType = .regularFile ∨ expected.itemType = .symlink →
        current.sourceInventory.item expected.relativePath = none) ∧
      ((∃ source, current.sourceInventory.item expected.relativePath = some source ∧
          Unchanged profile expected source ∧
          ¬ (expected.itemType = .regularFile ∨ expected.itemType = .symlink)) ∨
        RemovalVerified journal expected) := by
  unfold CompletionReconciliation.expectedReason at h
  dsimp only at h
  split at h
  · cases h
  split at h
  · cases h
  rename_i hexcluded hunsupported
  have hincluded : expected.outcome = .included := by
    cases houtcome : expected.outcome with
    | included => rfl
    | excluded => exact absurd houtcome hexcluded
    | unsupported => exact absurd houtcome hunsupported
  split at h
  · cases h
  rename_i hunchanged
  split at h
  · cases h
  split at h
  · cases h
  rename_i hremoved
  split at h
  · cases h
  rename_i hverified
  simp only [Bool.or_eq_true, Bool.and_eq_true, Bool.not_eq_true', not_or, not_and,
    decide_eq_true_eq, Bool.not_eq_false, Option.any_eq_true, Option.isNone_iff_eq_none,
    Option.not_isSome_iff_eq_none] at hremoved hverified
  obtain ⟨⟨hgone, hdestination⟩, hremoval⟩ := hverified
  refine ⟨hincluded, hdestination, hgone, ?_⟩
  cases hsource : current.sourceInventory.item expected.relativePath with
  | none => exact .inr (removalVerified_journalAt (hremoved hsource))
  | some source =>
      by_cases hrequired : expected.itemType = .regularFile ∨ expected.itemType = .symlink
      · exact .inr (removalVerified_journalAt (hremoval hrequired))
      · refine .inl ⟨source, rfl, ?_, hrequired⟩
        rw [hsource] at hunchanged
        exact sourceMatchesSnapshot_iff.mp (by simpa using hunchanged)

theorem appearedReason_eq_none {expectedPaths : List PathBuf} {item : InventoryItem} :
    CompletionReconciliation.appearedReason expectedPaths item = none ↔
      ∃ path ∈ expectedPaths, path.components = item.relativePath.components := by
  unfold CompletionReconciliation.appearedReason
  split <;> rename_i h
  · simpa [PathBuf.same_iff] using h
  · simp only [List.any_eq_true, PathBuf.same_iff] at h
    split <;> simpa using h

theorem reconcile_status (profile : SyncProfile) (inventory : SourceInventorySnapshot)
    (current : FreshAnalysis) (journal : List ActionJournalEntry) :
    (CompletionReconciliation.reconcile profile inventory current journal).sourceDrainStatus =
      if profile.options.safeDelete then
        if (CompletionReconciliation.reconcile profile inventory current
          journal).findings.isEmpty then .drained else .notEmpty
      else .notApplicable := rfl

/-- A verdict without findings: none of the three loops found anything. -/
theorem findings_eq_nil_iff :
    (CompletionReconciliation.reconcile profile inventory current journal).findings = [] ↔
      (∀ expected ∈ inventory.items,
        CompletionReconciliation.expectedReason profile current journal expected = none) ∧
      (∀ item ∈ current.sourceInventory.items,
        CompletionReconciliation.appearedReason (inventory.items.map (·.relativePath)) item =
          none) ∧
      (profile.options.destinationCleanup = true → ∀ item ∈ current.destinationInventory.items,
        CompletionReconciliation.cleanupReason (inventory.items.map (·.relativePath)) journal
          item = none) := by
  unfold CompletionReconciliation.reconcile
  dsimp only
  split <;> rename_i hcleanup
  · rw [findItems_eq_nil, findItems_eq_nil, findItems_eq_nil]
    simp [hcleanup, and_assoc]
  · rw [findItems_eq_nil, findItems_eq_nil]
    simp [hcleanup]

/-- What a verdict without findings says of the frozen items and of the source
as it is. -/
theorem findings_eq_nil
    (h : (CompletionReconciliation.reconcile profile inventory current journal).findings = []) :
    (∀ expected ∈ inventory.items,
        CompletionReconciliation.expectedReason profile current journal expected = none) ∧
      ∀ item ∈ current.sourceInventory.items,
        ∃ expected ∈ inventory.items,
          expected.relativePath.components = item.relativePath.components := by
  obtain ⟨hexpected, happeared, -⟩ := findings_eq_nil_iff.mp h
  refine ⟨hexpected, fun item hitem => ?_⟩
  obtain ⟨path, hpath, hcomponents⟩ := appearedReason_eq_none.mp (happeared item hitem)
  obtain ⟨expected, hmem, rfl⟩ := List.mem_map.mp hpath
  exact ⟨expected, hmem, hcomponents⟩

end

/-- **A drained source is drained.** Every frozen item is included; each file
and link is gone from the source, has an equal item at the destination and a
journaled removal with its proof; each directory is as it was and equal at
the destination, or has such a removal; and the source has nothing that was
not frozen. -/
theorem drained_sound {profile : SyncProfile} {inventory : SourceInventorySnapshot}
    {current : FreshAnalysis} {journal : List ActionJournalEntry}
    (h : (CompletionReconciliation.reconcile profile inventory current
      journal).sourceDrainStatus = .drained) :
    (∀ expected ∈ inventory.items, expected.outcome = .included) ∧
      (∀ expected ∈ inventory.items,
        expected.itemType = .regularFile ∨ expected.itemType = .symlink →
          current.sourceInventory.item expected.relativePath = none ∧
            EqualAtDestination profile current expected ∧ RemovalVerified journal expected) ∧
      (∀ expected ∈ inventory.items, expected.itemType = .directory →
        (∃ source, current.sourceInventory.item expected.relativePath = some source ∧
            Unchanged profile expected source ∧ EqualAtDestination profile current expected) ∨
          RemovalVerified journal expected) ∧
      ∀ item ∈ current.sourceInventory.items, ∃ expected ∈ inventory.items,
        expected.relativePath.components = item.relativePath.components := by
  have hverdict : profile.options.safeDelete = true ∧
      (CompletionReconciliation.reconcile profile inventory current journal).findings = [] := by
    have hstatus := reconcile_status profile inventory current journal
    rw [h] at hstatus
    split at hstatus
    · rename_i hsafe
      split at hstatus
      · rename_i hempty
        exact ⟨hsafe, List.isEmpty_iff.mp hempty⟩
      · cases hstatus
    · cases hstatus
  obtain ⟨hsafe, hfindings⟩ := hverdict
  obtain ⟨hexpected, happeared⟩ := findings_eq_nil hfindings
  have hitem := fun expected hmem => expectedReason_eq_none hsafe (hexpected expected hmem)
  refine ⟨fun expected hmem => (hitem expected hmem).1, ?_, ?_, happeared⟩
  · intro expected hmem htype
    obtain ⟨-, hdestination, hgone, hkept | hremoval⟩ := hitem expected hmem
    · obtain ⟨-, -, -, hother⟩ := hkept
      exact absurd htype hother
    · exact ⟨hgone htype, hdestination, hremoval⟩
  · intro expected hmem htype
    obtain ⟨-, hdestination, -, hkept | hremoval⟩ := hitem expected hmem
    · obtain ⟨source, hsource, hunchanged, -⟩ := hkept
      exact .inl ⟨source, hsource, hunchanged, hdestination⟩
    · exact .inr hremoval

/-! ### A file that was moved -/

def movedItem : InventoryItem := inventoryItem ⟨[120]⟩ false (plainFile zeroHash)

/-- From `/a` to `/b` with Safe Delete. -/
def drainingProfile : SyncProfile :=
  { SyncProfile.new "Documents" ⟨"Laptop", .local ⟨[47, 97]⟩⟩ ⟨"Server", .local ⟨[47, 98]⟩⟩ with
    options := { SyncOptions.default with
      safeDelete := true
      deletionMethod := some .permanentRemoval } }

def movedSpecification : ProcessSpecification where
  options := { drainingProfile.options with checked := by decide +kernel }
  source := .peerA
  mode := .oneWay
  sourceRoot := ⟨[47, 97]⟩
  destinationRoot := ⟨[47, 98]⟩
  peerARoot := ⟨[47, 97]⟩
  peerBRoot := ⟨[47, 98]⟩
  exclusions := []

/-- The file `x` is at the destination and no more in the source. -/
def movedAnalysis : FreshAnalysis where
  profile := drainingProfile
  specification := movedSpecification
  specified := ⟨fun _ => false, by decide +kernel⟩
  sourceInventory := ⟨[]⟩
  destinationInventory := ⟨[movedItem]⟩
  actions := []
  planned := by decide +kernel

def movedEntry : ActionJournalEntry where
  plan :=
    { actionId := 2
      relativePath := ⟨[120]⟩
      operation := .removeSourceAfterVerification
      affectedSide := .peerA
      plannedBytes := none
      preAction := ⟨.regularFile, 5, some 0, none, some zeroHash⟩ }
  lastPhase := "removal_completed"
  started := true
  progressBytes := []
  outcome := .completed
  transferEvidence := none
  proofBoundary := none
  removalResult := some ⟨.permanentRemoval,
    .new 20 none false true false none (some 5) none (some zeroHash)⟩
  recoveryEvidence := none
  recoveryResolutionEvidence := none

def movedInventory : SourceInventorySnapshot :=
  .fromInventory "Laptop" ⟨[47, 97]⟩ ⟨[movedItem]⟩

theorem reconcile_moved :
    (CompletionReconciliation.reconcile drainingProfile movedInventory movedAnalysis
      [movedEntry]).sourceDrainStatus = .drained := by
  decide +kernel

/-- The source of the moved file is drained, with all that says. -/
theorem drained_sound_moved :
    (∀ expected ∈ movedInventory.items, expected.outcome = .included) ∧
      (∀ expected ∈ movedInventory.items,
        expected.itemType = .regularFile ∨ expected.itemType = .symlink →
          movedAnalysis.sourceInventory.item expected.relativePath = none ∧
            EqualAtDestination drainingProfile movedAnalysis expected ∧
              RemovalVerified [movedEntry] expected) ∧
      (∀ expected ∈ movedInventory.items, expected.itemType = .directory →
        (∃ source, movedAnalysis.sourceInventory.item expected.relativePath = some source ∧
            Unchanged drainingProfile expected source ∧
            EqualAtDestination drainingProfile movedAnalysis expected) ∨
          RemovalVerified [movedEntry] expected) ∧
      ∀ item ∈ movedAnalysis.sourceInventory.items, ∃ expected ∈ movedInventory.items,
        expected.relativePath.components = item.relativePath.components :=
  drained_sound reconcile_moved

/-! ## A Mirror pair that agrees -/

/-- A review of these two frozen inventories. -/
def ConflictReview.Reviews (peerA peerB : SourceInventorySnapshot) (review : ConflictReview) :
    Prop :=
  ∃ metadata, review = .fromInventories peerA peerB metadata ∨
    ∃ conflicts, review =
      (ConflictReview.fromInventories peerA peerB metadata).addCompatibilityConflicts conflicts

/-- What the two peers have at a path is included on both and equal. -/
def AgreesAt (profile : SyncProfile) (current : FreshAnalysis) (p : PathBuf) : Prop :=
  ∃ left right, current.sourceInventory.item p = some left ∧
    current.destinationInventory.item p = some right ∧
    left.outcome = .included ∧ right.outcome = .included ∧
    MirrorEquality.equal ⟨profile.options.metadata⟩ (.fromItem left) (.fromItem right) = true

section

variable {peerA peerB : SourceInventorySnapshot} {review : ConflictReview}
  {decisions : List ConflictDecision} {resolutions : List ConflictResolutionAction}

/-- A resolution that keeps one side is about a path both peers had. -/
theorem kept_in_both (hreview : review.Reviews peerA peerB)
    (hresolve : review.resolve decisions = .ok resolutions)
    {action : ConflictResolutionAction} (haction : action ∈ resolutions)
    (hkeep : action.resolution = .keepPeerA ∨ action.resolution = .keepPeerB) :
    (peerA.item action.relativePath).isSome = true ∧
      (peerB.item action.relativePath).isSome = true := by
  obtain ⟨decision, -, rfl, entry, hentry, hsame, havailable⟩ :=
    ConflictReview.mem_resolve hresolve haction
  have hkind : entry.kind = .samePath := by
    cases hkind : entry.kind with
    | samePath => rfl
    | possibleDuplicateOrRename =>
        simp [ConflictEntry.availableResolutions, hkind, preservationResolutions] at havailable
        have hresolution : (ConflictResolutionAction.fromDecision decision).resolution =
          decision.resolution := rfl
        rw [hresolution] at hkeep
        rcases hkeep with hkeep | hkeep <;> simp [hkeep] at havailable
    | destinationCompatibility =>
        simp [ConflictEntry.availableResolutions, hkind] at havailable
  have hpath : entry.relativePath.components = decision.entryKey.relativePath.components := by
    simp only [ConflictEntryKey.same, Bool.and_eq_true] at hsame
    exact PathBuf.same_iff.mp hsame.1.1.2
  have hboth : (peerA.item entry.relativePath).isSome = true ∧
      (peerB.item entry.relativePath).isSome = true := by
    obtain ⟨metadata, rfl | ⟨conflicts, rfl⟩⟩ := hreview
    · exact (eq_samePathEntry hentry hkind).2
    · rcases List.mem_append.mp ((List.mem_insertionSort _).mp hentry) with hentry | hentry
      · exact (eq_samePathEntry hentry hkind).2
      · obtain ⟨conflict, -, rfl⟩ := List.mem_map.mp hentry
        cases hkind
  rwa [peerA.item_congr hpath, peerB.item_congr hpath] at hboth

variable {profile : SyncProfile} {current : FreshAnalysis} {journal : List ActionJournalEntry}
  {deletions : List MirrorDeletionResult} {p : PathBuf}

/-- A completed deletion of the path. -/
def Deleted (deletions : List MirrorDeletionResult) (p : PathBuf) : Prop :=
  ∃ result ∈ deletions, (pathOf result.relativePath).components = p.components ∧
    result.outcome = .completed

theorem deleted_iff : Deleted deletions p ↔ (deletions.any fun result =>
    (pathOf result.relativePath).same p && result.outcome = .completed &&
      !result.requiresReview) = true := by
  simp only [Deleted, List.any_eq_true, Bool.and_eq_true, Bool.not_eq_true', decide_eq_true_eq,
    PathBuf.same_iff, MirrorDeletionResult.requiresReview_eq_false, and_assoc, and_self]

theorem agreesAt_of_both {expectedA expectedB : InventorySnapshotItem}
    (h : CompletionReconciliation.bothReason profile expectedA expectedB
      (current.sourceInventory.item p) (current.destinationInventory.item p) = none) :
    AgreesAt profile current p := by
  unfold CompletionReconciliation.bothReason at h
  dsimp only at h
  split at h
  · cases h
  rename_i hstable
  simp only [Bool.or_eq_true, Bool.not_eq_true', not_or, Bool.not_eq_false, Bool.and_eq_true,
    Option.any_eq_true] at hstable
  obtain ⟨⟨⟨left, hleft, hmatchA⟩, right, hright, hmatchB⟩, hexpected⟩ := hstable
  have hequal : MirrorEquality.equal ⟨profile.options.metadata⟩ (.fromItem left)
      (.fromItem right) = true :=
    MirrorEquality.equal_trans
      (MirrorEquality.equal_trans (MirrorEquality.equal_comm.trans hmatchA) hexpected) hmatchB
  obtain ⟨hinA, hinB, -⟩ := MirrorEquality.equal_iff.mp hequal
  exact ⟨left, right, hleft, hright, hinA, hinB, hequal⟩

/-- A copy that was verified leaves equal items. -/
theorem equal_of_copied {expected : InventorySnapshotItem} {found counterpart : Option InventoryItem}
    (h : CompletionReconciliation.copiedReason profile expected found counterpart = none) :
    ∃ left right, found = some left ∧ counterpart = some right ∧
      MirrorEquality.equal ⟨profile.options.metadata⟩ (.fromItem left) (.fromItem right) =
        true := by
  unfold CompletionReconciliation.copiedReason at h
  dsimp only at h
  split at h
  · cases h
  rename_i hstable
  simp only [Bool.or_eq_true, Bool.not_eq_true', not_or, Bool.not_eq_false,
    Option.any_eq_true] at hstable
  obtain ⟨⟨left, hleft, hmatch⟩, right, hright, hverified⟩ := hstable
  exact ⟨left, right, hleft, hright,
    MirrorEquality.equal_trans (MirrorEquality.equal_comm.trans hmatch) hverified⟩

/-- A peer is expected to have what the other had only where the review kept
that, and then both had it. -/
theorem expected_of_present (hreview : review.Reviews peerA peerB)
    (hresolve : review.resolve decisions = .ok resolutions)
    (hpresent : (peerA.item p).isSome = true ∨ (peerB.item p).isSome = true)
    {reviewed : Option ConflictResolution}
    (hreviewed : reviewed = (resolutions.find? (·.relativePath.same p)).map (·.resolution)) :
    (CompletionReconciliation.expectedItem reviewed .keepPeerB peerA peerB p).isSome = true ∨
      (CompletionReconciliation.expectedItem reviewed .keepPeerA peerB peerA p).isSome = true := by
  unfold CompletionReconciliation.expectedItem
  by_cases hkeep : reviewed = some .keepPeerA ∨ reviewed = some .keepPeerB
  · have hboth : (peerA.item p).isSome = true ∧ (peerB.item p).isSome = true := by
      have hsome : ∃ resolution, reviewed = some resolution ∧
          (resolution = .keepPeerA ∨ resolution = .keepPeerB) := by
        rcases hkeep with hkeep | hkeep
        · exact ⟨_, hkeep, .inl rfl⟩
        · exact ⟨_, hkeep, .inr rfl⟩
      obtain ⟨resolution, hresolution, hkept⟩ := hsome
      rw [hreviewed, Option.map_eq_some_iff] at hresolution
      obtain ⟨action, hfind, rfl⟩ := hresolution
      have hpath : action.relativePath.same p = true := by
        simpa using List.find?_some
          (p := fun action : ConflictResolutionAction => action.relativePath.same p) hfind
      have hboth := kept_in_both hreview hresolve (List.mem_of_find?_eq_some hfind) hkept
      rwa [peerA.item_congr (PathBuf.same_iff.mp hpath),
        peerB.item_congr (PathBuf.same_iff.mp hpath)] at hboth
    left
    split
    · exact hboth.2
    · exact hboth.1
  · rw [not_or] at hkeep
    rw [if_neg hkeep.1, if_neg hkeep.2]
    exact hpresent

theorem agreesAt_of_expected {expectedA expectedB : Option InventorySnapshotItem}
    (hexpected : expectedA.isSome = true ∨ expectedB.isSome = true)
    (h : CompletionReconciliation.expectedReasonAt profile journal p expectedA expectedB
      (current.sourceInventory.item p) (current.destinationInventory.item p) = none) :
    AgreesAt profile current p := by
  unfold CompletionReconciliation.expectedReasonAt at h
  split at h
  · cases h
  split at h
  · cases h
  split at h
  · cases h
  split at h
  · exact agreesAt_of_both h
  · obtain ⟨left, right, hleft, hright, hequal⟩ := equal_of_copied h
    obtain ⟨hinA, hinB, -⟩ := MirrorEquality.equal_iff.mp hequal
    exact ⟨left, right, hleft, hright, hinA, hinB, hequal⟩
  · obtain ⟨right, left, hright, hleft, hequal⟩ := equal_of_copied h
    rw [MirrorEquality.equal_comm] at hequal
    obtain ⟨hinA, hinB, -⟩ := MirrorEquality.equal_iff.mp hequal
    exact ⟨left, right, hleft, hright, hinA, hinB, hequal⟩
  · simp at hexpected

/-- **What no reason for a path says**: both peers have lost a deleted path, and
agree at any other. -/
theorem mirrorReason_eq_none (hreview : review.Reviews peerA peerB)
    (hresolve : review.resolve decisions = .ok resolutions)
    (hpresent : (peerA.item p).isSome = true ∨ (peerB.item p).isSome = true)
    (h : CompletionReconciliation.mirrorReason profile peerA peerB current journal resolutions
      deletions p = none) :
    (Deleted deletions p ∧ current.sourceInventory.item p = none ∧
        current.destinationInventory.item p = none) ∨
      (¬ Deleted deletions p ∧ AgreesAt profile current p) := by
  unfold CompletionReconciliation.mirrorReason at h
  dsimp only at h
  by_cases hdeleted : Deleted deletions p
  · rw [if_pos (deleted_iff.mp hdeleted)] at h
    split at h
    · cases h
    · rename_i hgone
      simp only [Bool.or_eq_true, not_or, Option.not_isSome_iff_eq_none] at hgone
      exact .inl ⟨hdeleted, hgone⟩
  · rw [if_neg (fun hany => hdeleted (deleted_iff.mpr hany))] at h
    exact .inr ⟨hdeleted,
      agreesAt_of_expected (expected_of_present hreview hresolve hpresent rfl) h⟩

end

theorem AgreesAt.congr {profile : SyncProfile} {current : FreshAnalysis} {p q : PathBuf}
    (hpath : q.components = p.components) (h : AgreesAt profile current q) :
    AgreesAt profile current p := by
  unfold AgreesAt at h
  rwa [current.sourceInventory.item_congr hpath, current.destinationInventory.item_congr hpath] at h

theorem SourceInventorySnapshot.item_isSome {snapshot : SourceInventorySnapshot} {p : PathBuf}
    {item : InventorySnapshotItem} (hmem : item ∈ snapshot.items)
    (h : item.relativePath.components = p.components) : (snapshot.item p).isSome = true := by
  rw [SourceInventorySnapshot.item, List.find?_isSome]
  exact ⟨item, hmem, PathBuf.same_iff.mpr h⟩

/-- **The Mirror Invariant.** When a Mirror run finds nothing, the peers agree at
every path either of them has, and neither has a path whose deletion was
completed. -/
theorem mirror_invariant {profile : SyncProfile} {peerA peerB : SourceInventorySnapshot}
    {current : FreshAnalysis} {journal : List ActionJournalEntry}
    {deletions : List MirrorDeletionResult} {review : ConflictReview}
    {decisions : List ConflictDecision} {resolutions : List ConflictResolutionAction}
    (hreview : review.Reviews peerA peerB) (hresolve : review.resolve decisions = .ok resolutions)
    (h : (CompletionReconciliation.reconcileMirrorWithResolutionsAndDeletions profile peerA peerB
      current journal resolutions deletions).findings = []) :
    (∀ p, (current.sourceInventory.item p).isSome = true ∨
        (current.destinationInventory.item p).isSome = true → AgreesAt profile current p) ∧
      ∀ p, Deleted deletions p → current.sourceInventory.item p = none ∧
        current.destinationInventory.item p = none := by
  unfold CompletionReconciliation.reconcileMirrorWithResolutionsAndDeletions at h
  dsimp only at h
  obtain ⟨hexpected, happeared⟩ := findItems_eq_nil.mp h
  have hexpected := (findItems_eq_nil.mp hexpected).2
  have hknown : ∀ p q, q ∈ pathSet (peerA.items.map (·.relativePath) ++
        peerB.items.map (·.relativePath)) → q.components = p.components →
      (Deleted deletions p ∧ current.sourceInventory.item p = none ∧
          current.destinationInventory.item p = none) ∨
        (¬ Deleted deletions p ∧ AgreesAt profile current p) := by
    intro p q hq hpath
    have hpresent : (peerA.item q).isSome = true ∨ (peerB.item q).isSome = true := by
      rcases List.mem_append.mp (mem_pathSet hq) with hmem | hmem
      · obtain ⟨item, hitem, rfl⟩ := List.mem_map.mp hmem
        exact .inl (SourceInventorySnapshot.item_isSome hitem rfl)
      · obtain ⟨item, hitem, rfl⟩ := List.mem_map.mp hmem
        exact .inr (SourceInventorySnapshot.item_isSome hitem rfl)
    have hdeleted : Deleted deletions q ↔ Deleted deletions p := by
      unfold Deleted
      rw [hpath]
    rcases mirrorReason_eq_none hreview hresolve hpresent (hexpected q hq) with
      ⟨hgone, hA, hB⟩ | ⟨hkept, hagrees⟩
    · rw [current.sourceInventory.item_congr hpath] at hA
      rw [current.destinationInventory.item_congr hpath] at hB
      exact .inl ⟨hdeleted.mp hgone, hA, hB⟩
    · exact .inr ⟨fun hgone => hkept (hdeleted.mpr hgone), hagrees.congr hpath⟩
  have hfrozen : ∀ p, (current.sourceInventory.item p).isSome = true ∨
      (current.destinationInventory.item p).isSome = true →
      ¬ Deleted deletions p ∧ AgreesAt profile current p := by
    intro p hpresent
    have hitem : ∃ item ∈ current.sourceInventory.items ++ current.destinationInventory.items,
        item.relativePath.components = p.components := by
      rcases hpresent with hpresent | hpresent
      · obtain ⟨item, hitem⟩ := Option.isSome_iff_exists.mp hpresent
        obtain ⟨hmem, hpath⟩ := SourceInventory.item_same hitem
        exact ⟨item, List.mem_append_left _ hmem, hpath⟩
      · obtain ⟨item, hitem⟩ := Option.isSome_iff_exists.mp hpresent
        obtain ⟨hmem, hpath⟩ := SourceInventory.item_same hitem
        exact ⟨item, List.mem_append_right _ hmem, hpath⟩
    obtain ⟨item, hmem, hpath⟩ := hitem
    obtain ⟨q, hq, hsame⟩ := appearedReason_eq_none.mp (happeared item hmem)
    rcases hknown p q hq (hsame.trans hpath) with ⟨-, hA, hB⟩ | hagrees
    · rw [hA, hB] at hpresent
      simp at hpresent
    · exact hagrees
  refine ⟨fun p hpresent => (hfrozen p hpresent).2, fun p hdeleted => ?_⟩
  refine ⟨?_, ?_⟩
  · by_contra hsome
    exact (hfrozen p (.inl (Option.isSome_iff_ne_none.mpr hsome))).1 hdeleted
  · by_contra hsome
    exact (hfrozen p (.inr (Option.isSome_iff_ne_none.mpr hsome))).1 hdeleted

/-! ### A file on both peers -/

/-- Both peers of a Mirror have the file `x`. -/
def agreeingAnalysis : FreshAnalysis where
  profile := { drainingProfile with mode := .mirror, options := .default }
  specification := { movedSpecification with
    options := .default
    mode := .mirror }
  specified := ⟨fun _ => false, by decide +kernel⟩
  sourceInventory := ⟨[movedItem]⟩
  destinationInventory := ⟨[movedItem]⟩
  actions := []
  planned := by decide +kernel

def emptyInventory : SourceInventorySnapshot :=
  .fromInventory "Server" ⟨[47, 98]⟩ ⟨[]⟩

theorem reviews_copied : ConflictReview.Reviews movedInventory emptyInventory
    (.fromInventories movedInventory emptyInventory SyncOptions.default.metadata) :=
  ⟨_, .inl rfl⟩

theorem resolve_copied :
    (ConflictReview.fromInventories movedInventory emptyInventory
      SyncOptions.default.metadata).resolve [] = .ok [] := by
  decide +kernel

theorem reconcileMirror_copied :
    (CompletionReconciliation.reconcileMirrorWithResolutionsAndDeletions
      agreeingAnalysis.profile movedInventory emptyInventory agreeingAnalysis [] [] []).findings =
        [] := by
  decide +kernel

/-- The run copied the file, found nothing, and the peers agree. -/
theorem mirror_invariant_copied :
    (∀ p, (agreeingAnalysis.sourceInventory.item p).isSome = true ∨
        (agreeingAnalysis.destinationInventory.item p).isSome = true →
          AgreesAt agreeingAnalysis.profile agreeingAnalysis p) ∧
      ∀ p, Deleted [] p → agreeingAnalysis.sourceInventory.item p = none ∧
        agreeingAnalysis.destinationInventory.item p = none :=
  mirror_invariant reviews_copied resolve_copied reconcileMirror_copied

end SyncPlus
