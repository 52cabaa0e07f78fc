import SyncPlus.ReviewDecisions
import SyncPlus.Lib.Pairs

/-!
# Rows of a review

Whether every row of a review can be decided on its own. The key of a row keeps
its paths and not the sides they are on, so two rows about one content have the
same key when they take the same two paths from other sides. For paths `p`
before `q` there are three such rows: `p` and `q` on one peer, on the other, and
`p` on the first with `q` on the second. The rows are distinct, and each can be
decided, exactly when of these three at most one is there (`review_rows_iff`).
-/

namespace SyncPlus

/-- Every row has its own key, and every choice of an offered resolution for each
row is accepted. -/
structure RowsDecided (review : ConflictReview) : Prop where
  distinct : review.entries.Pairwise fun entry other => entry.key.same other.key = false
  decided : ∀ choice : ConflictEntry → ConflictResolution,
    (∀ entry ∈ review.entries, choice entry ∈ entry.availableResolutions) →
      ∃ plan, review.resolve (review.entries.map fun entry => ⟨entry.key, choice entry⟩) =
        .ok plan

/-- The peer has an included file of this content at the path. -/
def FileAt (snapshot : SourceInventorySnapshot) (p : PathBuf) (hash : Sha256) : Prop :=
  ∃ item ∈ snapshot.includedItems, item.itemType = .regularFile ∧
    item.contentFingerprint = some hash ∧ item.relativePath.components = p.components

/-- The peers have files of one content at these paths. -/
def SharesContent (snapshot other : SourceInventorySnapshot) (p q : PathBuf) : Prop :=
  ∃ hash, FileAt snapshot p hash ∧ FileAt other q hash

/-- Of the rows that would have the paths `p` and `q` at most one is there. -/
structure OneRow (peerA peerB : SourceInventorySnapshot) (p q : PathBuf) : Prop where
  firstOnce : SharesContent peerA peerA p q → ¬ SharesContent peerA peerB p q
  secondOnce : SharesContent peerB peerB p q → ¬ SharesContent peerA peerB p q
  eitherPeer : SharesContent peerA peerA p q → ¬ SharesContent peerB peerB p q

/-! ## Locations -/

abbrev Location := Sha256 × PeerSide × PathBuf

def Location.Before (left right : Location) : Prop := ConflictReview.locationOrder left right = .lt

/-- The row of two locations, if they have one. -/
def rowOf (pair : Location × Location) : Option ConflictEntry :=
  if pair.1.1 ≠ pair.2.1 ∨ pair.1.2.2.same pair.2.2.2 then none
  else some ⟨.possibleDuplicateOrRename, pair.1.2.2, some pair.2.2.2, none⟩

theorem duplicateEntries_eq (locations : List Location) :
    ConflictReview.duplicateEntries locations = (laterPairs locations).filterMap rowOf := by
  induction locations with
  | nil => rfl
  | cons location later ih =>
      obtain ⟨hash, side, path⟩ := location
      rw [ConflictReview.duplicateEntries, laterPairs, List.filterMap_append, ih,
        List.filterMap_map]
      rfl

/-- The locations of a review, in their order. -/
def sortedLocations (peerA peerB : SourceInventorySnapshot) : List Location :=
  (peerA.contentLocations .peerA ++ peerB.contentLocations .peerB).insertionSort
    fun left right => (ConflictReview.locationOrder left right).isLE = true

section

variable {peerA peerB snapshot : SourceInventorySnapshot} {left right : Location}
  {side : PeerSide}

theorem Location.before_iff : left.Before right ↔
    ConflictReview.sideRank left.2.1 < ConflictReview.sideRank right.2.1 ∨
      left.2.1 = right.2.1 ∧ compare left.2.2.components right.2.2.components = .lt := by
  unfold Before ConflictReview.locationOrder
  rw [Ordering.then_eq_lt, Nat.compare_eq_lt, Nat.compare_eq_eq]
  refine or_congr_right (and_congr_left fun _ => ?_)
  cases left.2.1 <;> cases right.2.1 <;> simp [ConflictReview.sideRank]

theorem Location.before_asymm (left right : Location) (h : left.Before right) :
    ¬ right.Before left := by
  rw [before_iff] at h ⊢
  rintro (hside | ⟨hside, hpath⟩)
  · rcases h with h | ⟨hside', -⟩
    · omega
    · rw [hside'] at hside
      omega
  · rcases h with h | ⟨-, hpath'⟩
    · rw [hside] at h
      omega
    · rw [Std.OrientedOrd.eq_swap, hpath'] at hpath
      cases hpath

theorem mem_contentLocations : left ∈ snapshot.contentLocations side ↔
    left.2.1 = side ∧ ∃ item ∈ snapshot.includedItems, item.itemType = .regularFile ∧
      item.contentFingerprint = some left.1 ∧ item.relativePath = left.2.2 := by
  obtain ⟨hash, side', path⟩ := left
  rw [SourceInventorySnapshot.contentLocations, List.mem_filterMap]
  constructor
  · intro ⟨item, hitem, h⟩
    split at h
    · rename_i hfile
      obtain ⟨hash', hhash, heq⟩ := Option.map_eq_some_iff.mp h
      cases heq
      exact ⟨rfl, item, hitem, hfile, hhash, rfl⟩
    · cases h
  · intro ⟨hside, item, hitem, hfile, hhash, hpath⟩
    dsimp only at hside hhash hpath
    refine ⟨item, hitem, ?_⟩
    rw [if_pos hfile, hhash, Option.map_some, hside, hpath]

/-- A peer has a path once among its locations. -/
theorem nodup_contentLocations (side : PeerSide)
    (h : (snapshot.items.map (·.relativePath.components)).Nodup) :
    ((snapshot.contentLocations side).map (·.2.2.components)).Nodup := by
  rw [List.nodup_iff_pairwise_ne, List.pairwise_map] at h ⊢
  have hincluded := h.sublist (List.filter_sublist (p := fun item => item.outcome = .included))
  refine hincluded.filterMap _ fun item item' hne location hlocation location' hlocation' => ?_
  have hpath : ∀ {item : InventorySnapshotItem} {location : Location},
      location ∈ (if item.itemType = .regularFile then
        item.contentFingerprint.map fun hash => (hash, side, item.relativePath) else none) →
          location.2.2 = item.relativePath := by
    intro item location h
    split at h
    · obtain ⟨hash, -, rfl⟩ := Option.map_eq_some_iff.mp h
      rfl
    · cases h
  rw [hpath hlocation, hpath hlocation']
  exact hne

theorem mem_sortedLocations : left ∈ sortedLocations peerA peerB ↔
    left ∈ peerA.contentLocations .peerA ∨ left ∈ peerB.contentLocations .peerB := by
  rw [sortedLocations, List.mem_insertionSort, List.mem_append]

/-- The locations are in a strict order. -/
theorem sortedLocations_before (hA : (peerA.items.map (·.relativePath.components)).Nodup)
    (hB : (peerB.items.map (·.relativePath.components)).Nodup) :
    (sortedLocations peerA peerB).Pairwise Location.Before := by
  have : Std.TransCmp ConflictReview.locationOrder :=
    inferInstanceAs (Std.TransCmp (compareLex
      (compareOn fun location : Location => ConflictReview.sideRank location.2.1)
      (compareOn fun location : Location => location.2.2.components)))
  have : Std.Total fun left right : Location =>
      (ConflictReview.locationOrder left right).isLE = true := by
    refine ⟨fun left right => ?_⟩
    have hswap : ConflictReview.locationOrder right left =
        (ConflictReview.locationOrder left right).swap := Std.OrientedCmp.eq_swap
    rw [hswap]
    cases ConflictReview.locationOrder left right <;> simp
  have : IsTrans Location fun left right =>
      (ConflictReview.locationOrder left right).isLE = true :=
    ⟨fun _ _ _ => Std.TransCmp.isLE_trans⟩
  have hsorted := List.pairwise_insertionSort
    (fun left right : Location => (ConflictReview.locationOrder left right).isLE = true)
    (peerA.contentLocations .peerA ++ peerB.contentLocations .peerB)
  have heq : ∀ left right : Location, ConflictReview.locationOrder left right = .eq ↔
      ConflictReview.sideRank left.2.1 = ConflictReview.sideRank right.2.1 ∧
        left.2.2.components = right.2.2.components := by
    intro left right
    rw [ConflictReview.locationOrder, Ordering.then_eq_eq, Nat.compare_eq_eq,
      Std.LawfulEqOrd.compare_eq_iff_eq]
  have hpeer : ∀ {snapshot : SourceInventorySnapshot} {side : PeerSide},
      (snapshot.items.map (·.relativePath.components)).Nodup →
        (snapshot.contentLocations side).Pairwise fun left right =>
          ConflictReview.locationOrder left right ≠ .eq := by
    intro snapshot side h
    have hpaths := nodup_contentLocations side h
    rw [List.nodup_iff_pairwise_ne, List.pairwise_map] at hpaths
    exact hpaths.imp fun hne h => hne ((heq _ _).mp h).2
  have hne : (sortedLocations peerA peerB).Pairwise fun left right =>
      ConflictReview.locationOrder left right ≠ .eq := by
    refine ((List.perm_insertionSort _ _).pairwise_iff ?_).mpr
      (List.pairwise_append.mpr ⟨hpeer hA, hpeer hB, fun left hleft right hright h => ?_⟩)
    · intro left right hne h
      obtain ⟨hside, hpath⟩ := (heq _ _).mp h
      exact hne ((heq _ _).mpr ⟨hside.symm, hpath.symm⟩)
    · have hside := ((heq _ _).mp h).1
      rw [(mem_contentLocations.mp hleft).1, (mem_contentLocations.mp hright).1] at hside
      cases hside
  refine (hsorted.and hne).imp fun {left right} h => ?_
  unfold Location.Before
  cases hcompare : ConflictReview.locationOrder left right with
  | lt => rfl
  | eq => exact absurd hcompare h.2
  | gt => simp [hcompare] at h

/-! ## Rows -/

theorem rowOf_eq_some {pair : Location × Location} {entry : ConflictEntry} :
    rowOf pair = some entry ↔ pair.1.1 = pair.2.1 ∧
      pair.1.2.2.components ≠ pair.2.2.2.components ∧
      entry = ⟨.possibleDuplicateOrRename, pair.1.2.2, some pair.2.2.2, none⟩ := by
  unfold rowOf
  split <;> rename_i h
  · rw [PathBuf.same_iff] at h
    constructor
    · nofun
    · intro ⟨hhash, hpath, _⟩
      exact absurd h (not_or.mpr ⟨not_not.mpr hhash, hpath⟩)
  · rw [PathBuf.same_iff] at h
    obtain ⟨hhash, hpath⟩ := not_or.mp h
    rw [Option.some.injEq, eq_comm]
    exact ⟨fun heq => ⟨not_not.mp hhash, hpath, heq⟩, fun h => h.2.2⟩

theorem mem_sortedLocations_iff : left ∈ sortedLocations peerA peerB ↔
    ∃ item ∈ (sideSnapshot peerA peerB left.2.1).includedItems, item.itemType = .regularFile ∧
      item.contentFingerprint = some left.1 ∧ item.relativePath = left.2.2 := by
  rw [mem_sortedLocations, mem_contentLocations, mem_contentLocations]
  cases left.2.1 <;> simp [sideSnapshot]

variable {p q : PathBuf} {other : PeerSide}

/-- Two files of one content have a row, the earlier first. -/
theorem exists_row (hA : (peerA.items.map (·.relativePath.components)).Nodup)
    (hB : (peerB.items.map (·.relativePath.components)).Nodup)
    (hne : p.components ≠ q.components)
    (hsides : ConflictReview.sideRank side < ConflictReview.sideRank other ∨
      side = other ∧ compare p.components q.components = .lt)
    (h : SharesContent (sideSnapshot peerA peerB side) (sideSnapshot peerA peerB other) p q) :
    ∃ pair ∈ laterPairs (sortedLocations peerA peerB), pair.1.2.1 = side ∧ pair.2.2.1 = other ∧
      ∃ p' q', rowOf pair = some ⟨.possibleDuplicateOrRename, p', some q', none⟩ ∧
        p'.components = p.components ∧ q'.components = q.components := by
  obtain ⟨hash, ⟨item, hitem, hfile, hhash, hp⟩, item', hitem', hfile', hhash', hq⟩ := h
  refine ⟨((hash, side, item.relativePath), (hash, other, item'.relativePath)),
    (mem_laterPairs (sortedLocations_before hA hB) Location.before_asymm).mpr ⟨?_, ?_, ?_⟩,
    rfl, rfl, item.relativePath, item'.relativePath, rowOf_eq_some.mpr ⟨rfl, ?_, rfl⟩, hp, hq⟩
  · exact mem_sortedLocations_iff.mpr ⟨item, hitem, hfile, hhash, rfl⟩
  · exact mem_sortedLocations_iff.mpr ⟨item', hitem', hfile', hhash', rfl⟩
  · rw [Location.before_iff]
    dsimp only
    rw [hp, hq]
    exact hsides
  · dsimp only
    rw [hp, hq]
    exact hne

/-- The files of a row. -/
theorem sharesContent_of_row (hA : (peerA.items.map (·.relativePath.components)).Nodup)
    (hB : (peerB.items.map (·.relativePath.components)).Nodup) {pair : Location × Location}
    (hpair : pair ∈ laterPairs (sortedLocations peerA peerB)) {entry : ConflictEntry}
    (h : rowOf pair = some entry) :
    SharesContent (sideSnapshot peerA peerB pair.1.2.1) (sideSnapshot peerA peerB pair.2.2.1)
        pair.1.2.2 pair.2.2.2 ∧
      (pair.1.2.1 = .peerA ∧ pair.2.2.1 = .peerB ∨
        pair.1.2.1 = pair.2.2.1 ∧
          compare pair.1.2.2.components pair.2.2.2.components = .lt) := by
  obtain ⟨hfirst, hsecond, hbefore⟩ :=
    (mem_laterPairs (sortedLocations_before hA hB) Location.before_asymm).mp hpair
  obtain ⟨hhash, hpath, rfl⟩ := rowOf_eq_some.mp h
  obtain ⟨item, hitem, hfile, hfound, hp⟩ := mem_sortedLocations_iff.mp hfirst
  obtain ⟨item', hitem', hfile', hfound', hq⟩ := mem_sortedLocations_iff.mp hsecond
  refine ⟨⟨pair.1.1, ⟨item, hitem, hfile, hfound, by rw [hp]⟩,
    item', hitem', hfile', by rw [hhash, hfound'], by rw [hq]⟩, ?_⟩
  rcases Location.before_iff.mp hbefore with hside | hsame
  · left
    revert hside
    cases pair.1.2.1 <;> cases pair.2.2.1 <;> simp [ConflictReview.sideRank]
  · exact .inr hsame

theorem nodup_sortedLocations (hA : (peerA.items.map (·.relativePath.components)).Nodup)
    (hB : (peerB.items.map (·.relativePath.components)).Nodup) :
    (sortedLocations peerA peerB).Nodup := by
  refine (sortedLocations_before hA hB).imp fun {left right} h heq => ?_
  subst heq
  exact Location.before_asymm left left h h

/-- A location is the one of its side and path. -/
theorem location_eq (hA : (peerA.items.map (·.relativePath.components)).Nodup)
    (hB : (peerB.items.map (·.relativePath.components)).Nodup)
    (hleft : left ∈ sortedLocations peerA peerB) (hright : right ∈ sortedLocations peerA peerB)
    (hside : left.2.1 = right.2.1) (hpath : left.2.2.components = right.2.2.components) :
    left = right := by
  by_contra hne
  have hordered := (pairwise_iff_of_nodup (nodup_sortedLocations hA hB)
    fun _ _ h => Or.symm h).mp ((sortedLocations_before hA hB).imp fun {left right} h =>
      (Or.inl h : left.Before right ∨ right.Before left)) left hleft right hright hne
  rw [Location.before_iff, Location.before_iff, hside, hpath, Std.ReflOrd.compare_self] at hordered
  simp at hordered

theorem same_row {p q p' q' : PathBuf} :
    (ConflictEntry.key ⟨.possibleDuplicateOrRename, p, some q, none⟩).same
        (ConflictEntry.key ⟨.possibleDuplicateOrRename, p', some q', none⟩) = true ↔
      p.components = p'.components ∧ q.components = q'.components := by
  simp [ConflictEntryKey.same_iff, ConflictEntry.key]

/-- The rows about one content are distinct when no two of them take the same paths. -/
theorem duplicates_distinct_iff (hA : (peerA.items.map (·.relativePath.components)).Nodup)
    (hB : (peerB.items.map (·.relativePath.components)).Nodup) :
    ((ConflictReview.duplicateEntries (sortedLocations peerA peerB)).Pairwise
        fun entry other => entry.key.same other.key = false) ↔
      ∀ p q, compare p.components q.components = .lt → OneRow peerA peerB p q := by
  rw [duplicateEntries_eq, List.pairwise_filterMap,
    pairwise_iff_of_nodup (nodup_laterPairs (nodup_sortedLocations hA hB))]
  · constructor
    · intro h p q hlt
      -- two rows of these paths are two pairs with one key
      have hclash : ∀ side other side' other' : PeerSide,
          (ConflictReview.sideRank side < ConflictReview.sideRank other ∨ side = other) →
          (ConflictReview.sideRank side' < ConflictReview.sideRank other' ∨ side' = other') →
          (side, other) ≠ (side', other') →
          SharesContent (sideSnapshot peerA peerB side) (sideSnapshot peerA peerB other) p q →
          ¬ SharesContent (sideSnapshot peerA peerB side') (sideSnapshot peerA peerB other')
            p q := by
        intro side other side' other' hsides hsides' hne hshares hshares'
        obtain ⟨pair, hpair, rfl, rfl, r, t, hrow, hr, ht⟩ := exists_row hA hB
          (compare_lt_ne hlt) (hsides.imp_right fun h => ⟨h, hlt⟩) hshares
        obtain ⟨pair', hpair', rfl, rfl, r', t', hrow', hr', ht'⟩ := exists_row hA hB
          (compare_lt_ne hlt) (hsides'.imp_right fun h => ⟨h, hlt⟩) hshares'
        have hpairs : pair ≠ pair' := by
          rintro rfl
          exact hne rfl
        have hfalse := h pair hpair pair' hpair' hpairs _ hrow _ hrow'
        rw [same_row.mpr ⟨hr.trans hr'.symm, ht.trans ht'.symm⟩] at hfalse
        cases hfalse
      exact ⟨hclash .peerA .peerA .peerA .peerB (by decide) (by decide) (by decide),
        hclash .peerB .peerB .peerA .peerB (by decide) (by decide) (by decide),
        hclash .peerA .peerA .peerB .peerB (by decide) (by decide) (by decide)⟩
    · intro h pair hpair pair' hpair' hne entry hrow entry' hrow'
      rw [Bool.eq_false_iff]
      intro hsame
      obtain ⟨hshares, hsides⟩ := sharesContent_of_row hA hB hpair hrow
      obtain ⟨hshares', hsides'⟩ := sharesContent_of_row hA hB hpair' hrow'
      obtain ⟨-, -, rfl⟩ := rowOf_eq_some.mp hrow
      obtain ⟨-, -, rfl⟩ := rowOf_eq_some.mp hrow'
      obtain ⟨hp, hq⟩ := same_row.mp hsame
      have hmem := mem_of_mem_laterPairs hpair
      have hmem' := mem_of_mem_laterPairs hpair'
      have hother : ¬ (pair.1.2.1 = pair'.1.2.1 ∧ pair.2.2.1 = pair'.2.2.1) := by
        intro ⟨hfirst, hsecond⟩
        exact hne (Prod.ext (location_eq hA hB hmem.1 hmem'.1 hfirst hp)
          (location_eq hA hB hmem.2 hmem'.2 hsecond hq))
      have hshares' : SharesContent (sideSnapshot peerA peerB pair'.1.2.1)
          (sideSnapshot peerA peerB pair'.2.2.1) pair.1.2.2 pair.2.2.2 := by
        unfold SharesContent FileAt at hshares' ⊢
        rw [show pair.1.2.2.components = pair'.1.2.2.components from hp,
          show pair.2.2.2.components = pair'.2.2.2.components from hq]
        exact hshares'
      have hsides' : pair'.1.2.1 = .peerA ∧ pair'.2.2.1 = .peerB ∨ pair'.1.2.1 = pair'.2.2.1 ∧
          compare pair.1.2.2.components pair.2.2.2.components = .lt := by
        rw [show pair.1.2.2.components = pair'.1.2.2.components from hp,
          show pair.2.2.2.components = pair'.2.2.2.components from hq]
        exact hsides'
      have honce := h pair.1.2.2 pair.2.2.2
      generalize pair.1.2.1 = first, pair.2.2.1 = second, pair'.1.2.1 = first',
        pair'.2.2.1 = second' at hshares hshares' hsides hsides' hother
      rcases hsides with ⟨rfl, rfl⟩ | ⟨rfl, hlt⟩
      · rcases hsides' with ⟨rfl, rfl⟩ | ⟨rfl, hlt⟩
        · exact hother ⟨rfl, rfl⟩
        · cases first' with
          | peerA => exact (honce hlt).firstOnce hshares' hshares
          | peerB => exact (honce hlt).secondOnce hshares' hshares
      · rcases hsides' with ⟨rfl, rfl⟩ | ⟨rfl, -⟩
        · cases first with
          | peerA => exact (honce hlt).firstOnce hshares hshares'
          | peerB => exact (honce hlt).secondOnce hshares hshares'
        · cases first <;> cases first'
          · exact hother ⟨rfl, rfl⟩
          · exact (honce hlt).eitherPeer hshares hshares'
          · exact (honce hlt).eitherPeer hshares' hshares
          · exact hother ⟨rfl, rfl⟩
  · intro pair pair' h entry hrow entry' hrow'
    rw [ConflictEntryKey.same_comm]
    exact h entry' hrow' entry hrow

/-! ## The review -/

variable {metadata : MetadataRequirements}

/-- A same-path row is about a path of the set. -/
theorem samePathEntries_distinct :
    (ConflictReview.samePathEntries peerA peerB metadata).Pairwise
      fun entry other => entry.key.same other.key = false := by
  have hpaths := nodup_pathSet (peerA.includedItems.map (·.relativePath) ++
    peerB.includedItems.map (·.relativePath))
  rw [List.nodup_iff_pairwise_ne, List.pairwise_map] at hpaths
  refine hpaths.filterMap _ fun p q hne entry hentry other hother => ?_
  obtain ⟨rfl, -⟩ := samePathEntry_of_eq_some hentry
  obtain ⟨rfl, -⟩ := samePathEntry_of_eq_some hother
  rw [Bool.eq_false_iff]
  intro hsame
  exact hne (ConflictEntryKey.same_iff.mp hsame).2.1

/-- Only rows about one content can have one key. -/
theorem rows_distinct_iff (hA : (peerA.items.map (·.relativePath.components)).Nodup)
    (hB : (peerB.items.map (·.relativePath.components)).Nodup) :
    ((ConflictReview.fromInventories peerA peerB metadata).entries.Pairwise
        fun entry other => entry.key.same other.key = false) ↔
      ∀ p q, compare p.components q.components = .lt → OneRow peerA peerB p q := by
  rw [← duplicates_distinct_iff hA hB]
  refine List.pairwise_append.trans ⟨fun h => h.2.1, fun h => ⟨samePathEntries_distinct, h, ?_⟩⟩
  intro entry hentry other hother
  rw [Bool.eq_false_iff]
  intro hsame
  have hkind : entry.kind = other.kind := (ConflictEntryKey.same_iff.mp hsame).1
  rw [(eq_of_mem_samePathEntries hentry).1, kind_of_mem_duplicateEntries hother] at hkind
  cases hkind

end

/-! ## Decisions -/

/-- Rows with keys of their own are decided one by one. -/
theorem resolve_choice {review : ConflictReview} {choice : ConflictEntry → ConflictResolution}
    (hoffered : ∀ entry ∈ review.entries, choice entry ∈ entry.availableResolutions)
    (hdistinct : review.entries.Pairwise fun entry other => entry.key.same other.key = false) :
    ∃ plan, review.resolve (review.entries.map fun entry => ⟨entry.key, choice entry⟩) =
      .ok plan := by
  refine ⟨_, ConflictReview.resolve_eq_ok_iff.mpr ⟨⟨?_, ?_, ?_⟩, rfl⟩⟩
  · intro decision hdecision
    obtain ⟨entry, hentry, rfl⟩ := List.mem_map.mp hdecision
    exact ⟨entry, hentry, entry.key.same_self, hoffered entry hentry⟩
  · exact List.pairwise_map.mpr hdistinct
  · intro entry hentry _
    exact ⟨_, List.mem_map_of_mem hentry, entry.key.same_self⟩

/-- When each row of a review can be decided on its own. -/
theorem review_rows_iff {peerA peerB : SourceInventorySnapshot} (metadata : MetadataRequirements)
    (hA : (peerA.items.map (·.relativePath.components)).Nodup)
    (hB : (peerB.items.map (·.relativePath.components)).Nodup) :
    RowsDecided (ConflictReview.fromInventories peerA peerB metadata) ↔
      ∀ p q, compare p.components q.components = .lt → OneRow peerA peerB p q := by
  rw [← rows_distinct_iff hA hB]
  exact ⟨fun h => h.distinct, fun h => ⟨h, fun _ hoffered => resolve_choice hoffered h⟩⟩

/-- A file of this name, with this byte for its content. -/
def fileNamed (file : Char × UInt8) : InventorySnapshotItem where
  relativePath := ⟨[file.1.val.toUInt8]⟩
  itemType := .regularFile
  outcome := .included
  size := 1
  modifiedAtUnixNanos := some 0
  readonly := false
  permissions := some 420
  symlinkTarget := none
  contentFingerprint := some (Sha256.ofByte file.2)

def filesOn (peerName : String) (files : List (Char × UInt8)) : SourceInventorySnapshot where
  peerName
  root := ⟨[47, 109]⟩
  items := files.map fileNamed

/-- Two files that were renamed on the second peer. -/
def renamedReview : ConflictReview :=
  .fromInventories (filesOn "Laptop" [('a', 0), ('c', 1)]) (filesOn "Server" [('b', 0), ('d', 1)])
    SyncOptions.default.metadata

/-- Each has a row of its own. -/
theorem review_rows_renamed : renamedReview.entries.length = 2 ∧ RowsDecided renamedReview := by
  refine ⟨by decide +kernel, (review_rows_iff _ (by decide) (by decide)).mpr fun p q hlt => ?_⟩
  -- no two files of a peer have one content
  have honce (peerName : String) (files : List (Char × UInt8))
      (hfiles : ∀ file ∈ files, ∀ other ∈ files, file.2 = other.2 → file = other) :
      ¬ SharesContent (filesOn peerName files) (filesOn peerName files) p q := by
    rintro ⟨hash, ⟨item, hitem, -, hcontent, hp⟩, item', hitem', -, hcontent', hq⟩
    obtain ⟨file, hfile, rfl⟩ := List.mem_map.mp (List.mem_of_mem_filter hitem)
    obtain ⟨other, hother, rfl⟩ := List.mem_map.mp (List.mem_of_mem_filter hitem')
    have hbyte : file.2 = other.2 := by
      have hhash := Option.some.inj (hcontent.trans hcontent'.symm)
      exact (List.cons_eq_cons.mp (congrArg (·.toList) hhash)).1
    obtain rfl := hfiles file hfile other hother hbyte
    rw [← hp, ← hq, Std.ReflOrd.compare_self] at hlt
    cases hlt
  have hlaptop := honce "Laptop" [('a', 0), ('c', 1)] (by decide)
  have hserver := honce "Server" [('b', 0), ('d', 1)] (by decide)
  exact ⟨fun h => absurd h hlaptop, fun h => absurd h hserver, fun h => absurd h hlaptop⟩

/-- Two copies on each peer have one row for each peer and one between them. -/
theorem review_rows_repeated : ¬ RowsDecided (.fromInventories
    (filesOn "Laptop" [('a', 0), ('b', 0)]) (filesOn "Server" [('a', 0), ('b', 0)])
    SyncOptions.default.metadata) :=
  fun h => absurd h.distinct (by decide +kernel)

end SyncPlus
