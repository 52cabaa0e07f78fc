import SyncPlus.Analysis

/-!
# Conflict reviews

What the user is asked about a Mirror pair, and what may be answered. The
review has an entry for every path that both peers have and on which they
differ, one for every pair of files of the same content at different paths,
and the names the destination cannot hold (`ConflictReview`). It compares
items without their outcomes. A set of decisions is turned into a plan when
every decision is about an entry, is one the entry offers, and every entry
that offers any has one (`resolve`).
-/

namespace SyncPlus

/-! ## Entries -/

inductive NamingRule where
  | caseInsensitiveCollision
  | unicodeNormalizationCollision
  | reservedName
  | invalidCharacter
  | componentTooLong
  | pathTooLong
  | trailingDotOrSpace
  deriving Repr, DecidableEq

structure NamingConflict where
  sourcePath : PathBuf
  destinationPath : PathBuf
  relatedPath : Option PathBuf
  rule : NamingRule
  deriving Repr, DecidableEq

inductive ConflictKind where
  | samePath
  | possibleDuplicateOrRename
  | destinationCompatibility
  deriving Repr, DecidableEq

def ConflictKind.rank : ConflictKind → Nat
  | samePath => 0
  | possibleDuplicateOrRename => 1
  | destinationCompatibility => 2

structure ConflictEntryKey where
  kind : ConflictKind
  relativePath : PathBuf
  relatedPath : Option PathBuf
  destinationPath : Option PathBuf
  deriving Repr, DecidableEq

namespace ConflictEntryKey

/-- Keys are equal when their paths are. -/
def same (key other : ConflictEntryKey) : Bool :=
  key.kind = other.kind && key.relativePath.same other.relativePath &&
    sameOptionPath key.relatedPath other.relatedPath &&
    sameOptionPath key.destinationPath other.destinationPath

def order (key other : ConflictEntryKey) : Ordering :=
  (compare key.kind.rank other.kind.rank).then <|
    (compare key.relativePath.components other.relativePath.components).then <|
      (compare (key.relatedPath.map PathBuf.components)
        (other.relatedPath.map PathBuf.components)).then
        (compare (key.destinationPath.map PathBuf.components)
          (other.destinationPath.map PathBuf.components))

end ConflictEntryKey

structure ConflictEntry where
  kind : ConflictKind
  relativePath : PathBuf
  relatedPath : Option PathBuf
  destinationPath : Option PathBuf
  deriving Repr, DecidableEq

def ConflictEntry.key (entry : ConflictEntry) : ConflictEntryKey where
  kind := entry.kind
  relativePath := entry.relativePath
  relatedPath := entry.relatedPath
  destinationPath := entry.destinationPath

def allResolutions : List ConflictResolution :=
  [.keepPeerA, .keepPeerB, .preserveBoth, .renamePreserveForReview, .defer]

def preservationResolutions : List ConflictResolution :=
  [.preserveBoth, .renamePreserveForReview, .defer]

def ConflictEntry.availableResolutions (entry : ConflictEntry) : List ConflictResolution :=
  match entry.kind with
  | .samePath => allResolutions
  | .possibleDuplicateOrRename => preservationResolutions
  | .destinationCompatibility => []

/-! ## The review -/

/-- `MirrorReviewEquality::equal`: the outcomes are not looked at. -/
def reviewEqual (metadata : MetadataRequirements) (left right : InventorySnapshotItem) : Bool :=
  equalParts metadata left.parts right.parts

structure ConflictReview where
  entries : List ConflictEntry
  deriving DecidableEq

namespace SourceInventorySnapshot

def includedItems (snapshot : SourceInventorySnapshot) : List InventorySnapshotItem :=
  snapshot.items.filter (·.outcome = .included)

/-- The included files with a hash. -/
def contentLocations (side : PeerSide) (snapshot : SourceInventorySnapshot) :
    List (Sha256 × PeerSide × PathBuf) :=
  snapshot.includedItems.filterMap fun item =>
    if item.itemType = .regularFile then
      item.contentFingerprint.map fun hash => (hash, side, item.relativePath)
    else none

end SourceInventorySnapshot

namespace ConflictReview

def samePathEntry (relativePath : PathBuf) : ConflictEntry :=
  ⟨.samePath, relativePath, none, none⟩

def samePathEntries (peerA peerB : SourceInventorySnapshot)
    (metadata : MetadataRequirements) : List ConflictEntry :=
  (pathSet (peerA.includedItems.map (·.relativePath) ++
      peerB.includedItems.map (·.relativePath))).filterMap fun relativePath =>
    match peerA.item relativePath, peerB.item relativePath with
    | some left, some right =>
        if reviewEqual metadata left right then none else some (samePathEntry relativePath)
    | _, _ => none

def sideRank : PeerSide → Nat
  | .peerA => 0
  | .peerB => 1

def locationOrder (left right : Sha256 × PeerSide × PathBuf) : Ordering :=
  (compare (sideRank left.2.1) (sideRank right.2.1)).then
    (compare left.2.2.components right.2.2.components)

/-- The pairs of one content at two paths, each location with the later
ones. -/
def duplicateEntries : List (Sha256 × PeerSide × PathBuf) → List ConflictEntry
  | [] => []
  | (hash, _, path) :: later =>
      (later.filterMap fun (otherHash, _, otherPath) =>
        if hash ≠ otherHash ∨ path.same otherPath then none
        else some ⟨.possibleDuplicateOrRename, path, some otherPath, none⟩) ++
        duplicateEntries later

def fromInventories (peerA peerB : SourceInventorySnapshot)
    (metadata : MetadataRequirements) : ConflictReview where
  entries := samePathEntries peerA peerB metadata ++
    duplicateEntries ((peerA.contentLocations .peerA ++ peerB.contentLocations .peerB).insertionSort
      fun left right => (locationOrder left right).isLE = true)

def entryOrder (left right : ConflictEntry) : Ordering :=
  (compare left.relativePath.components right.relativePath.components).then
    (compare left.kind.rank right.kind.rank)

def compatibilityEntry (conflict : NamingConflict) : ConflictEntry :=
  ⟨.destinationCompatibility, conflict.sourcePath, conflict.relatedPath,
    some conflict.destinationPath⟩

def addCompatibilityConflicts (review : ConflictReview) (conflicts : List NamingConflict) :
    ConflictReview where
  entries := (review.entries ++ conflicts.map compatibilityEntry).insertionSort
    fun left right => (entryOrder left right).isLE = true

/-- `from_analysis`. -/
def fromAnalysis (analysis : FreshAnalysis) : ConflictReview :=
  fromInventories analysis.sourceSnapshot analysis.destinationSnapshot
    analysis.specification.options.metadata

end ConflictReview

theorem kind_of_mem_duplicateEntries {locations : List (Sha256 × PeerSide × PathBuf)}
    {entry : ConflictEntry} (h : entry ∈ ConflictReview.duplicateEntries locations) :
    entry.kind = .possibleDuplicateOrRename := by
  induction locations with
  | nil => cases h
  | cons location later ih =>
      rw [ConflictReview.duplicateEntries] at h
      rcases List.mem_append.mp h with h | h
      · obtain ⟨other, -, hentry⟩ := List.mem_filterMap.mp h
        dsimp only at hentry
        split at hentry
        · cases hentry
        · cases hentry
          rfl
      · exact ih h

/-- The entry of a path, when there is one. -/
theorem samePathEntry_of_eq_some {peerA peerB : SourceInventorySnapshot}
    {metadata : MetadataRequirements} {p : PathBuf} {entry : ConflictEntry}
    (h : (match peerA.item p, peerB.item p with
      | some left, some right =>
          if reviewEqual metadata left right then none
          else some (ConflictReview.samePathEntry p)
      | _, _ => none) = some entry) :
    entry = ConflictReview.samePathEntry p ∧
      (peerA.item p).isSome = true ∧ (peerB.item p).isSome = true := by
  split at h
  · rename_i left right hleft hright
    split at h
    · cases h
    · cases h
      exact ⟨rfl, Option.isSome_of_eq_some hleft, Option.isSome_of_eq_some hright⟩
  · cases h

/-- A same-path entry has its path alone, one that both peers have. -/
theorem eq_of_mem_samePathEntries {peerA peerB : SourceInventorySnapshot}
    {metadata : MetadataRequirements} {entry : ConflictEntry}
    (h : entry ∈ ConflictReview.samePathEntries peerA peerB metadata) :
    entry = ConflictReview.samePathEntry entry.relativePath ∧
      (peerA.item entry.relativePath).isSome = true ∧
      (peerB.item entry.relativePath).isSome = true := by
  obtain ⟨p, -, hentry⟩ := List.mem_filterMap.mp h
  obtain ⟨rfl, hA, hB⟩ := samePathEntry_of_eq_some hentry
  exact ⟨rfl, hA, hB⟩

/-- Of the entries of a review, those of the kind are the same-path entries. -/
theorem eq_samePathEntry {peerA peerB : SourceInventorySnapshot}
    {metadata : MetadataRequirements} {entry : ConflictEntry}
    (h : entry ∈ (ConflictReview.fromInventories peerA peerB metadata).entries)
    (hkind : entry.kind = .samePath) :
    entry = ConflictReview.samePathEntry entry.relativePath ∧
      (peerA.item entry.relativePath).isSome = true ∧
      (peerB.item entry.relativePath).isSome = true := by
  rcases List.mem_append.mp h with h | h
  · exact eq_of_mem_samePathEntries h
  · rw [kind_of_mem_duplicateEntries h] at hkind
    cases hkind

/-! ## Decisions -/

structure ConflictDecision where
  entryKey : ConflictEntryKey
  resolution : ConflictResolution
  deriving DecidableEq

def ConflictDecision.relativePath (decision : ConflictDecision) : PathBuf :=
  decision.entryKey.relativePath

inductive ConflictResolutionError where
  | missingDecision (relativePath : PathBuf)
  | unknownConflict (relativePath : PathBuf)
  | unavailableResolution (relativePath : PathBuf) (resolution : ConflictResolution)
  | duplicateDecision (relativePath : PathBuf)
  | finalConfirmationRequired
  deriving Repr, DecidableEq

structure ConflictResolutionAction where
  entryKey : ConflictEntryKey
  relativePath : PathBuf
  resolution : ConflictResolution
  operation : ResolutionOperation
  sourceSide : Option PeerSide
  targetSide : Option PeerSide
  deriving DecidableEq

def ConflictResolutionAction.fromDecision (decision : ConflictDecision) :
    ConflictResolutionAction :=
  let (operation, sourceSide, targetSide) :=
    match decision.resolution with
    | .keepPeerA => (ResolutionOperation.copyWholeFile, some PeerSide.peerA, some PeerSide.peerB)
    | .keepPeerB => (.copyWholeFile, some .peerB, some .peerA)
    | .preserveBoth => (.preserveBoth, none, none)
    | .renamePreserveForReview => (.renamePreserveForReview, none, none)
    | .defer => (.defer, none, none)
  { entryKey := decision.entryKey
    relativePath := decision.relativePath
    resolution := decision.resolution
    operation, sourceSide, targetSide }

namespace ConflictReview

/-- The loop over the decisions, with the keys decided so far. -/
def resolveEach (review : ConflictReview) (seen : List ConflictEntryKey) :
    List ConflictDecision →
      Except ConflictResolutionError (List ConflictEntryKey × List ConflictResolutionAction)
  | [] => .ok (seen, [])
  | decision :: decisions => do
      let entry ← orError (review.entries.find? fun entry => entry.key.same decision.entryKey)
        (.unknownConflict decision.relativePath)
      ensure (decision.resolution ∈ entry.availableResolutions)
        (.unavailableResolution decision.relativePath decision.resolution)
      ensure (seen.any (·.same decision.entryKey) = false)
        (.duplicateDecision decision.relativePath)
      let (seen, actions) ← resolveEach review (seen ++ [decision.entryKey]) decisions
      return (seen, .fromDecision decision :: actions)

def resolve (review : ConflictReview) (decisions : List ConflictDecision) :
    Except ConflictResolutionError (List ConflictResolutionAction) := do
  let expected := (review.entries.filter fun entry =>
    !entry.availableResolutions.isEmpty).map ConflictEntry.key
  let (seen, actions) ← review.resolveEach [] decisions
  let missing := (expected.filter fun key => !seen.any (·.same key)).insertionSort
    fun key other => (key.order other).isLE = true
  match missing with
  | key :: _ => .error (.missingDecision key.relativePath)
  | [] => return actions.insertionSort fun left right =>
      (compare left.relativePath.components right.relativePath.components).isLE = true

variable {review : ConflictReview} {decisions : List ConflictDecision}
  {resolutions : List ConflictResolutionAction}

/-- Every resolution is a decision about an entry that offers it. -/
theorem mem_resolveEach {seen seen' : List ConflictEntryKey}
    (h : review.resolveEach seen decisions = .ok (seen', resolutions))
    {action : ConflictResolutionAction} (haction : action ∈ resolutions) :
    ∃ decision ∈ decisions, action = .fromDecision decision ∧ ∃ entry ∈ review.entries,
      entry.key.same decision.entryKey = true ∧
        decision.resolution ∈ entry.availableResolutions := by
  induction decisions generalizing seen seen' resolutions with
  | nil =>
      cases h
      cases haction
  | cons decision decisions ih =>
      rw [resolveEach] at h
      obtain ⟨entry, hentry, h⟩ := bind_eq_ok.mp h
      obtain ⟨havailable, h⟩ := ensure_bind_eq_ok.mp h
      obtain ⟨-, h⟩ := ensure_bind_eq_ok.mp h
      obtain ⟨⟨seen'', rest⟩, hrest, h⟩ := bind_eq_ok.mp h
      cases h
      rcases List.mem_cons.mp haction with rfl | haction
      · have hfind := orError_eq_ok.mp hentry
        have hsame : entry.key.same decision.entryKey = true := by
          simpa using List.find?_some (p := fun entry : ConflictEntry =>
            entry.key.same decision.entryKey) hfind
        exact ⟨decision, List.mem_cons_self, rfl, entry, List.mem_of_find?_eq_some hfind, hsame,
          havailable⟩
      · obtain ⟨decision', hdecision', hrest'⟩ := ih hrest haction
        exact ⟨decision', List.mem_cons_of_mem _ hdecision', hrest'⟩

/-- No key is decided twice, nor one that was decided before. -/
theorem resolveEach_distinct {seen seen' : List ConflictEntryKey}
    (h : review.resolveEach seen decisions = .ok (seen', resolutions)) :
    (∀ action ∈ resolutions, ∀ key ∈ seen, key.same action.entryKey = false) ∧
      resolutions.Pairwise fun action action' =>
        action.entryKey.same action'.entryKey = false := by
  induction decisions generalizing seen seen' resolutions with
  | nil =>
      cases h
      exact ⟨by simp, List.Pairwise.nil⟩
  | cons decision decisions ih =>
      rw [resolveEach] at h
      obtain ⟨entry, -, h⟩ := bind_eq_ok.mp h
      obtain ⟨-, h⟩ := ensure_bind_eq_ok.mp h
      obtain ⟨hnew, h⟩ := ensure_bind_eq_ok.mp h
      obtain ⟨⟨seen'', rest⟩, hrest, h⟩ := bind_eq_ok.mp h
      cases h
      obtain ⟨hseen, hpairwise⟩ := ih hrest
      rw [List.any_eq_false] at hnew
      refine ⟨?_, List.pairwise_cons.mpr ⟨?_, hpairwise⟩⟩
      · intro action haction key hkey
        rcases List.mem_cons.mp haction with rfl | haction
        · exact Bool.eq_false_iff.mpr (hnew key hkey)
        · exact hseen action haction key (List.mem_append_left _ hkey)
      · intro action haction
        exact hseen action haction decision.entryKey
          (List.mem_append_right _ (List.mem_singleton.mpr rfl))

theorem resolve_eq_ok (h : review.resolve decisions = .ok resolutions) :
    ∃ seen actions, review.resolveEach [] decisions = .ok (seen, actions) ∧
      resolutions.Perm actions := by
  unfold resolve at h
  obtain ⟨⟨seen, actions⟩, hactions, h⟩ := bind_eq_ok.mp h
  dsimp only at h
  split at h
  · cases h
  · cases h
    exact ⟨seen, actions, hactions, List.perm_insertionSort _ _⟩

theorem mem_resolve (h : review.resolve decisions = .ok resolutions)
    {action : ConflictResolutionAction} (haction : action ∈ resolutions) :
    ∃ decision ∈ decisions, action = .fromDecision decision ∧ ∃ entry ∈ review.entries,
      entry.key.same decision.entryKey = true ∧
        decision.resolution ∈ entry.availableResolutions := by
  obtain ⟨seen, actions, hactions, hperm⟩ := resolve_eq_ok h
  exact mem_resolveEach hactions (hperm.mem_iff.mp haction)

end ConflictReview

end SyncPlus
