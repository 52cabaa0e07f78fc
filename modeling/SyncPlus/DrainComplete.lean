import SyncPlus.Confirmation
import SyncPlus.Reconciliation

/-!
# When a drained source is found drained

The converse of `drained_sound`. A One-Way run with Safe Delete removes the
files and links of its source and leaves the directories where they are; a
directory that lost an entry has a new modification time, and on some file
systems a new size. The comparison with the frozen inventory looks at both,
so that the source is found drained exactly when each directory that lost an
entry still has the size, and where timestamps are required the time, that it
was frozen with (`drain_complete_iff`).
-/

namespace SyncPlus

open CompletionReconciliation

/-! ## Runs that drain -/

/-- The source has to lose this item. -/
def InventoryItem.Drains (item : InventoryItem) : Prop :=
  item.itemType = .regularFile ∨ item.itemType = .symlink

/-- The plan removes an entry of this directory. -/
def LosesEntry (before : FreshAnalysis) (item : InventoryItem) : Prop :=
  ∃ action ∈ before.actions, action.kind = .removeSourceAfterVerification ∧
    action.relativePath.components ≠ [] ∧
    action.relativePath.components.dropLast = item.relativePath.components

/-- The item is where it was. Only a directory that lost an entry has another
size or time. -/
structure LeftInPlace (before : FreshAnalysis) (item found : InventoryItem) : Prop where
  same : found = { item with metadata := { item.metadata with
    size := found.metadata.size
    modifiedAt := found.metadata.modifiedAt } }
  untouched : ¬ LosesEntry before item → found = item

/-- What `removal_evidence` writes about the removal of the item. -/
def RemovalEvidenceOf (item : InventoryItem) (entry : ActionJournalEntry) : Prop :=
  ∃ result, entry.removalResult = some result ∧ result.evidence.destinationPresent = true ∧
    result.evidence.destinationSize = some item.metadata.size ∧
    result.evidence.destinationSha256 = item.contentFingerprint

/-- Every planned action is completed, and nobody else has changed a peer. -/
structure DrainRun (before current : FreshAnalysis) (journal : List ActionJournalEntry) :
    Prop where
  oneWay : before.profile.mode = .oneWay
  safeDelete : before.profile.options.safeDelete = true
  specialist : before.profile.options.metadata.specialist.any = false
  included : ∀ item ∈ before.sourceInventory.items, item.outcome = .included
  completed : ∀ entry ∈ journal, entry.outcome = .completed
  journaled : ∀ action ∈ before.actions, ∃ entry ∈ journal,
    entry.plan.relativePath = action.relativePath ∧ entry.plan.operation = action.kind
  proved : ∀ entry ∈ journal, entry.plan.operation = .removeSourceAfterVerification →
    ∀ item ∈ before.sourceInventory.items,
      item.relativePath.components = entry.plan.relativePath.components →
        RemovalEvidenceOf item entry
  removed : ∀ item ∈ before.sourceInventory.items, item.Drains →
    current.sourceInventory.item item.relativePath = none ∧
      ∃ action ∈ before.actions, action.kind = .removeSourceAfterVerification ∧
        action.relativePath.components = item.relativePath.components
  left : ∀ item ∈ before.sourceInventory.items, ¬ item.Drains →
    ∃ found, current.sourceInventory.item item.relativePath = some found ∧
      LeftInPlace before item found
  nothingNew : ∀ found ∈ current.sourceInventory.items,
    ∃ item ∈ before.sourceInventory.items,
      item.relativePath.components = found.relativePath.components
  equal : ∀ item ∈ before.sourceInventory.items,
    EqualAtDestination before.profile current (.fromItem item)
  destination : ∀ found ∈ current.destinationInventory.items,
    (∃ item ∈ before.sourceInventory.items,
        item.relativePath.components = found.relativePath.components) ∨
      ∃ item ∈ before.destinationInventory.items,
        item.relativePath.components = found.relativePath.components ∧
          item.outcome = found.outcome ∧
          ∀ action ∈ before.actions, action.kind = .removeDestination →
            action.relativePath.components ≠ item.relativePath.components

/-- A directory that lost an entry still has what it was frozen with. -/
def DirectoriesKept (before current : FreshAnalysis) : Prop :=
  ∀ item ∈ before.sourceInventory.items, LosesEntry before item →
    ∀ found, current.sourceInventory.item item.relativePath = some found →
      item.metadata.size = found.metadata.size ∧
        (before.profile.options.metadata.timestamps = true →
          unixNanos item.metadata.modifiedAt = unixNanos found.metadata.modifiedAt)

/-! ## What the loops say of it -/

section

variable {profile : SyncProfile} {before current : FreshAnalysis}
  {journal : List ActionJournalEntry} {expected : InventorySnapshotItem}
  {item found : InventoryItem}

theorem journalReason_completed {entries : List ActionJournalEntry}
    (h : ∀ entry ∈ entries, entry.outcome = .completed) : journalReason entries = none := by
  unfold journalReason
  rw [List.findSome?_eq_none_iff]
  intro entry hentry
  rw [h entry hentry]

theorem journalReason_journalAt (h : ∀ entry ∈ journal, entry.outcome = .completed)
    (path : PathBuf) : journalReason (journalAt journal path) = none :=
  journalReason_completed fun entry hentry => h entry (List.mem_filter.mp hentry).1

/-- The proof of a removal is found. -/
theorem removalVerified_of (h : RemovalVerified journal expected) :
    removalVerified (journalAt journal expected.relativePath) expected = true := by
  obtain ⟨entry, hentry, hpath, hoperation, houtcome, result, hresult, hpresent, hsize, hhash⟩ :=
    h
  refine List.any_eq_true.mpr ⟨entry, List.mem_filter.mpr ⟨hentry, hpath⟩, ?_⟩
  have hmatches : removalEvidenceMatches expected result.evidence = true := by
    unfold removalEvidenceMatches
    rw [hpresent, hsize]
    cases hcontent : expected.contentFingerprint with
    | none => simp
    | some hash => simp [hhash hash hcontent]
  simp [hoperation, houtcome, hresult, hmatches]

theorem any_destinationMatchesSource (h : EqualAtDestination profile current expected) :
    (current.destinationInventory.item expected.relativePath).any
      (destinationMatchesSource profile expected) = true := by
  obtain ⟨found, hfound, hequal⟩ := h
  rw [hfound]
  exact hequal

/-- With Safe Delete the verdict without findings is the one of a drained
source. -/
theorem reconcile_eq_drained {inventory : SourceInventorySnapshot}
    (hsafe : profile.options.safeDelete = true) :
    CompletionReconciliation.reconcile profile inventory current journal = ⟨.drained, []⟩ ↔
      (CompletionReconciliation.reconcile profile inventory current journal).findings = [] := by
  have hstatus := reconcile_status profile inventory current journal
  rw [if_pos hsafe] at hstatus
  cases hrun : CompletionReconciliation.reconcile profile inventory current journal with
  | mk status findings =>
      rw [hrun] at hstatus
      constructor
      · intro heq
        exact congrArg CompletionReconciliation.findings heq
      · rintro rfl
        rw [show status = .drained from hstatus]

/-- A file that was removed with its proof is as it should be. -/
theorem expectedReason_of_removed (hsafe : profile.options.safeDelete = true)
    (hincluded : expected.outcome = .included)
    (hcompleted : ∀ entry ∈ journal, entry.outcome = .completed)
    (hgone : current.sourceInventory.item expected.relativePath = none)
    (hequal : EqualAtDestination profile current expected)
    (hremoved : RemovalVerified journal expected) :
    expectedReason profile current journal expected = none := by
  have hverified := removalVerified_of hremoved
  have hdestination := any_destinationMatchesSource hequal
  unfold expectedReason
  simp [hincluded, hgone, journalReason_journalAt hcompleted, hverified, hdestination, hsafe]

/-- An item that is left in place is held against the frozen one, and nothing
else can be wrong with it. -/
theorem expectedReason_of_left (hsafe : profile.options.safeDelete = true)
    (hincluded : expected.outcome = .included)
    (hcompleted : ∀ entry ∈ journal, entry.outcome = .completed)
    (hfound : current.sourceInventory.item expected.relativePath = some found)
    (htype : ¬ (expected.itemType = .regularFile ∨ expected.itemType = .symlink))
    (hequal : EqualAtDestination profile current expected) :
    expectedReason profile current journal expected = none ↔
      Unchanged profile expected found := by
  have hdestination := any_destinationMatchesSource hequal
  obtain ⟨hfile, hlink⟩ := not_or.mp htype
  rw [← sourceMatchesSnapshot_iff]
  unfold expectedReason
  cases hmatches : sourceMatchesSnapshot profile expected found with
  | true =>
      simp [hincluded, hfound, hmatches, journalReason_journalAt hcompleted, hdestination, hsafe,
        hfile, hlink]
  | false => simp [hincluded, hfound, hmatches]

/-- An item that is left in place is unchanged when its size and its time are. -/
theorem LeftInPlace.unchanged_iff (h : LeftInPlace before item found) :
    Unchanged profile (.fromItem item) found ↔
      item.metadata.size = found.metadata.size ∧
        (profile.options.metadata.timestamps = true →
          unixNanos item.metadata.modifiedAt = unixNanos found.metadata.modifiedAt) := by
  constructor
  · intro hunchanged
    exact ⟨hunchanged.size, hunchanged.modifiedAt⟩
  · rintro ⟨hsize, htime⟩
    have hsame := h.same
    exact {
      itemType := by rw [hsame]; rfl
      outcome := by rw [hsame]; rfl
      size := hsize
      readonly := by rw [hsame]; rfl
      executablePermissions := by rw [hsame]; rfl
      symlinkTarget := by
        rw [sameOptionPath_iff, hsame]
        rfl
      contentFingerprint := by rw [hsame]; rfl
      modifiedAt := htime }

end

/-! ## The verdict -/

namespace DrainRun

variable {before current : FreshAnalysis} {journal : List ActionJournalEntry}
  {item : InventoryItem}

/-- Each item that had to go has its proof in the journal. -/
theorem removalVerified (h : DrainRun before current journal)
    (hitem : item ∈ before.sourceInventory.items) (hdrains : item.Drains) :
    RemovalVerified journal (.fromItem item) := by
  obtain ⟨-, action, haction, hkind, hpath⟩ := h.removed item hitem hdrains
  obtain ⟨entry, hentry, hentryPath, hoperation⟩ := h.journaled action haction
  rw [hkind] at hoperation
  have hcomponents : entry.plan.relativePath.components = item.relativePath.components := by
    rw [hentryPath, hpath]
  obtain ⟨result, hresult, hpresent, hsize, hhash⟩ :=
    h.proved entry hentry hoperation item hitem hcomponents.symm
  refine ⟨entry, hentry, PathBuf.same_iff.mpr hcomponents, hoperation,
    h.completed entry hentry, result, hresult, hpresent, hsize, ?_⟩
  intro hash heq
  rw [hhash]
  exact heq

/-- The first loop finds nothing at an item that had to go. -/
theorem expectedReason_drained (h : DrainRun before current journal)
    (hitem : item ∈ before.sourceInventory.items) (hdrains : item.Drains) :
    expectedReason before.profile current journal (.fromItem item) = none :=
  expectedReason_of_removed h.safeDelete (h.included item hitem) h.completed
    (h.removed item hitem hdrains).1 (h.equal item hitem) (h.removalVerified hitem hdrains)

/-- The first loop finds nothing at an item that was left in place when its size
and its time are the frozen ones. -/
theorem expectedReason_left (h : DrainRun before current journal)
    (hitem : item ∈ before.sourceInventory.items) (hdrains : ¬ item.Drains)
    {found : InventoryItem}
    (hfound : current.sourceInventory.item item.relativePath = some found)
    (hleft : LeftInPlace before item found) :
    expectedReason before.profile current journal (.fromItem item) = none ↔
      item.metadata.size = found.metadata.size ∧
        (before.profile.options.metadata.timestamps = true →
          unixNanos item.metadata.modifiedAt = unixNanos found.metadata.modifiedAt) := by
  have hreason : expectedReason before.profile current journal (.fromItem item) = none ↔
      Unchanged before.profile (.fromItem item) found :=
    expectedReason_of_left h.safeDelete (h.included item hitem) h.completed hfound hdrains
      (h.equal item hitem)
  rw [hreason, hleft.unchanged_iff]

/-- Nothing of the source is new. -/
theorem appearedReason_eq (h : DrainRun before current journal) {found : InventoryItem}
    (hfound : found ∈ current.sourceInventory.items) :
    appearedReason (before.sourceSnapshot.items.map (·.relativePath)) found = none := by
  obtain ⟨item, hitem, hpath⟩ := h.nothingNew found hfound
  refine appearedReason_eq_none.mpr ⟨item.relativePath, ?_, hpath⟩
  exact List.mem_map.mpr ⟨.fromItem item, List.mem_map_of_mem hitem, rfl⟩

/-- The cleanup has left nothing at the destination. -/
theorem cleanupReason_eq (h : DrainRun before current journal)
    (hcleanup : before.profile.options.destinationCleanup = true) {found : InventoryItem}
    (hfound : found ∈ current.destinationInventory.items) :
    cleanupReason (before.sourceSnapshot.items.map (·.relativePath)) journal found = none := by
  unfold cleanupReason
  by_cases hincluded : found.outcome = .included
  · rw [if_pos (Or.inr ?_)]
    by_cases hfrozen : ∃ item ∈ before.sourceInventory.items,
        item.relativePath.components = found.relativePath.components
    · obtain ⟨item, hitem, hpath⟩ := hfrozen
      refine List.any_eq_true.mpr ⟨item.relativePath, ?_, PathBuf.same_iff.mpr hpath⟩
      exact List.mem_map.mpr ⟨.fromItem item, List.mem_map_of_mem hitem, rfl⟩
    · -- the plan removes what the source does not have, and it was removed
      exfalso
      rcases h.destination found hfound with hfrozen' | ⟨item, hitem, hpath, houtcome, hkept⟩
      · exact hfrozen hfrozen'
      · have habsent : sourceByPath before.sourceInventory item.relativePath = none := by
          refine getByPath_eq_none.mpr fun other hother hsame => ?_
          exact hfrozen ⟨other, hother, hsame.trans hpath⟩
        have hdraft : (⟨item.relativePath, .removeDestination,
            .ofSource before.specification.source, dataSize item⟩ : ActionDraft) ∈
              planDrafts before.specification before.sourceInventory
                before.destinationInventory := by
          refine (removal_mem_oneWayDrafts (before.mode_eq.trans h.oneWay) rfl).mpr
            ⟨?_, item, hitem, ?_, habsent, rfl⟩
          · rw [before.options_eq]
            exact hcleanup
          · rw [houtcome, hincluded]
        obtain ⟨action, haction, heq⟩ := exists_mem_of_draft_mem hdraft
        rw [← (buildPlan_eq_ok.mp before.planned).1] at haction
        refine hkept action haction (congrArg ActionDraft.kind heq) ?_
        exact congrArg PathBuf.components (congrArg ActionDraft.relativePath heq)
  · rw [if_pos (Or.inl hincluded)]

end DrainRun

/-- **Draining is found complete** exactly when no directory that lost an entry
has another size or, where timestamps are required, another time. -/
theorem drain_complete_iff {before current : FreshAnalysis} {journal : List ActionJournalEntry}
    (h : DrainRun before current journal) :
    CompletionReconciliation.reconcile before.profile before.sourceSnapshot current journal =
        ⟨.drained, []⟩ ↔
      DirectoriesKept before current := by
  rw [reconcile_eq_drained h.safeDelete, findings_eq_nil_iff]
  constructor
  · rintro ⟨hexpected, -, -⟩ item hitem - found hfound
    by_cases hdrains : item.Drains
    · rw [(h.removed item hitem hdrains).1] at hfound
      cases hfound
    · obtain ⟨found', hfound', hleft⟩ := h.left item hitem hdrains
      obtain rfl : found' = found := Option.some.inj (hfound'.symm.trans hfound)
      have hreason := hexpected (.fromItem item) (List.mem_map_of_mem hitem)
      exact (h.expectedReason_left hitem hdrains hfound' hleft).mp hreason
  · intro hkept
    refine ⟨?_, fun found hfound => h.appearedReason_eq hfound,
      fun hcleanup found hfound => h.cleanupReason_eq hcleanup hfound⟩
    intro expected hexpected
    obtain ⟨item, hitem, rfl⟩ := List.mem_map.mp hexpected
    by_cases hdrains : item.Drains
    · exact h.expectedReason_drained hitem hdrains
    · obtain ⟨found, hfound, hleft⟩ := h.left item hitem hdrains
      refine (h.expectedReason_left hitem hdrains hfound hleft).mpr ?_
      by_cases hloses : LosesEntry before item
      · exact hkept item hitem hloses found hfound
      · rw [hleft.untouched hloses]
        exact ⟨rfl, fun _ => rfl⟩

/-! ### A directory that lost its file -/

/-- The directory `d`, of this time. -/
def drainedDirectory (modifiedAt : Int) : InventoryItem :=
  inventoryItem ⟨[100]⟩ false
    { plainDirectory with
      metadata := { plainDirectory.metadata with modifiedAt := some modifiedAt } }

/-- The file `d/x`. -/
def drainedFile : InventoryItem := inventoryItem ⟨[100, 47, 120]⟩ false (plainFile zeroHash)

def drainedOptions (timestamps : Bool) : SyncOptions :=
  { drainingProfile.options with
    metadata := ⟨true, true, true, timestamps, ⟨false, false, false⟩⟩ }

/-- The items of the source are at the destination, and the file has to go. -/
def drainingAnalysis (timestamps : Bool) : FreshAnalysis where
  profile := { drainingProfile with options := drainedOptions timestamps }
  specification := { movedSpecification with
    options := { drainedOptions timestamps with
      checked := by cases timestamps <;> decide +kernel } }
  specified := ⟨fun _ => false, by cases timestamps <;> decide +kernel⟩
  sourceInventory := ⟨[drainedDirectory 0, drainedFile]⟩
  destinationInventory := ⟨[drainedDirectory 0, drainedFile]⟩
  actions := [⟨1, ⟨[100, 47, 120]⟩, .removeSourceAfterVerification, .peerA, some 5⟩]
  planned := by cases timestamps <;> decide +kernel

/-- The file is gone, and the directory has the time of its removal. -/
def drainedAnalysis (timestamps : Bool) : FreshAnalysis :=
  { drainingAnalysis timestamps with
    sourceInventory := ⟨[drainedDirectory 7]⟩
    actions := if timestamps then [⟨1, ⟨[100]⟩, .overwriteDestination, .peerA, none⟩] else []
    planned := by cases timestamps <;> decide +kernel }

def drainedEntry : ActionJournalEntry :=
  { movedEntry with
    plan := { movedEntry.plan with actionId := 1, relativePath := ⟨[100, 47, 120]⟩ } }

theorem losesEntry_directory (timestamps : Bool) :
    LosesEntry (drainingAnalysis timestamps) (drainedDirectory 0) :=
  ⟨_, .head _, rfl, by decide +kernel, by decide +kernel⟩

theorem equalAtDestination_drained (timestamps : Bool) :
    ∀ item ∈ (drainingAnalysis timestamps).sourceInventory.items,
      EqualAtDestination (drainingAnalysis timestamps).profile (drainedAnalysis timestamps)
        (.fromItem item) := by
  intro item hitem
  refine ⟨item, ?_, ?_⟩
  · revert item
    cases timestamps <;> decide +kernel
  · revert item
    cases timestamps <;> decide +kernel

theorem drainedAnalysis_item (timestamps : Bool) :
    (drainedAnalysis timestamps).sourceInventory.item (drainedDirectory 0).relativePath =
      some (drainedDirectory 7) := by
  cases timestamps <;> decide +kernel

theorem drainRun_directory (timestamps : Bool) :
    DrainRun (drainingAnalysis timestamps) (drainedAnalysis timestamps) [drainedEntry] where
  oneWay := rfl
  safeDelete := rfl
  specialist := rfl
  included := by decide +kernel +revert
  completed := by decide +kernel
  journaled := by decide +kernel +revert
  proved := by
    intro entry hentry _ item hitem hpath
    obtain rfl := List.mem_singleton.mp hentry
    have hfile : item = drainedFile := by
      revert item
      cases timestamps <;> decide +kernel
    rw [hfile]
    exact ⟨_, rfl, rfl, by decide +kernel, by decide +kernel⟩
  removed := by
    unfold InventoryItem.Drains
    cases timestamps <;> decide +kernel
  left := by
    intro item hitem hdrains
    have hdirectory : item = drainedDirectory 0 := by
      rcases List.mem_cons.mp hitem with hfirst | hrest
      · exact hfirst
      · rw [List.mem_singleton.mp hrest] at hdrains
        exact absurd (Or.inl rfl) hdrains
    rw [hdirectory]
    refine ⟨drainedDirectory 7, drainedAnalysis_item timestamps, rfl, fun h => ?_⟩
    exact absurd (losesEntry_directory timestamps) h
  nothingNew := by decide +kernel +revert
  equal := equalAtDestination_drained timestamps
  destination := by
    intro found hfound
    exact .inl ⟨found, hfound, rfl⟩

/-- Without timestamps the directory is not held against its time. -/
theorem drain_complete_directory :
    CompletionReconciliation.reconcile (drainingAnalysis false).profile
        (drainingAnalysis false).sourceSnapshot (drainedAnalysis false) [drainedEntry] =
        ⟨.drained, []⟩ ↔
      DirectoriesKept (drainingAnalysis false) (drainedAnalysis false) :=
  drain_complete_iff (drainRun_directory false)

/-- The removal of the file has changed its directory, and the source is found
not empty. -/
theorem drain_not_complete :
    ¬ ∀ (before current : FreshAnalysis) (journal : List ActionJournalEntry),
      DrainRun before current journal →
        CompletionReconciliation.reconcile before.profile before.sourceSnapshot current journal =
          ⟨.drained, []⟩ := by
  intro h
  exact absurd (h _ _ _ (drainRun_directory true)) (by decide +kernel)

end SyncPlus
