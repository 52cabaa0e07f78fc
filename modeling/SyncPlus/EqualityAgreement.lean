import SyncPlus.MirrorDeletion
import SyncPlus.ConflictReview

/-!
# What equality says

Two items are compared in four places: while planning, on frozen inventories, in
a review, and in a baseline. They differ in when a modification time becomes a
number of nanoseconds, and in how: `into_unix_nanos` negates and then narrows,
`unix_nanos` narrows and then negates, and so has no number for -2⁶³. The four
agree unless that makes a difference (`equalities_agree_iff`). Times without a
number are equal to each other, which is when equality says too much
(`equality_sound_iff`).
-/

namespace SyncPlus

/-! ## The review's comparison -/

structure MirrorReviewEquality where
  metadata : MetadataRequirements

def MirrorReviewEquality.equal (equality : MirrorReviewEquality)
    (left right : InventorySnapshotItem) : Bool :=
  if left.itemType ≠ right.itemType then false
  else if equality.metadata.specialist.any then false
  else if left.itemType = .regularFile ∧ (left.size ≠ right.size ∨
      left.contentFingerprint = none ∨ left.contentFingerprint ≠ right.contentFingerprint) then
    false
  else if equality.metadata.executablePermissions = true ∧
      left.executablePermissions ≠ right.executablePermissions then false
  else if equality.metadata.symlinkTargets = true ∧
      sameOptionPath left.symlinkTarget right.symlinkTarget = false then false
  else if equality.metadata.timestamps then
    left.modifiedAtUnixNanos = right.modifiedAtUnixNanos
  else true

theorem MirrorReviewEquality.equal_eq (metadata : MetadataRequirements)
    (left right : InventorySnapshotItem) :
    MirrorReviewEquality.equal ⟨metadata⟩ left right = reviewEqual metadata left right := by
  have htimes : (if metadata.timestamps then
      decide (left.modifiedAtUnixNanos = right.modifiedAtUnixNanos) else true) =
      if metadata.timestamps = true ∧ left.modifiedAtUnixNanos ≠ right.modifiedAtUnixNanos then
        false else true := by
    cases metadata.timestamps <;>
      by_cases h : left.modifiedAtUnixNanos = right.modifiedAtUnixNanos <;> simp [h]
  unfold MirrorReviewEquality.equal reviewEqual equalParts
  dsimp only
  rw [htimes]
  rfl

/-! ## Times -/

/-- No signed 64-bit number of nanoseconds is the time. -/
def BeyondNanos (time : Option Int) : Prop := ∀ t, time = some t → t < -(2 ^ 63) ∨ 2 ^ 63 ≤ t

/-- One time is the least with a number of nanoseconds, and the other has none. -/
def SplitAtLimit (time other : Option Int) : Prop :=
  time = some (-(2 ^ 63)) ∧ BeyondNanos other ∨ other = some (-(2 ^ 63)) ∧ BeyondNanos time

section

variable {time other : Option Int} {t : Int}

theorem intoUnixNanos_eq_none : intoUnixNanos time = none ↔ BeyondNanos time := by
  cases time with
  | none => exact ⟨fun _ _ h => (by cases h), fun _ => rfl⟩
  | some t =>
      rw [intoUnixNanos, Option.bind_some]
      constructor
      · intro h t' heq
        cases heq
        split at h
        · cases h
        · omega
      · intro h
        have hbeyond := h t rfl
        rw [if_neg (by omega)]

theorem unixNanos_eq_none :
    unixNanos time = none ↔ BeyondNanos time ∨ time = some (-(2 ^ 63)) := by
  cases time with
  | none => exact ⟨fun _ => .inl fun _ h => (by cases h), fun _ => rfl⟩
  | some t =>
      rw [unixNanos, Option.bind_some]
      constructor
      · intro h
        split at h
        · cases h
        · by_cases hlimit : t = -(2 ^ 63)
          · exact .inr (congrArg some hlimit)
          · refine .inl fun t' heq => ?_
            cases heq
            omega
      · intro h
        have hnot : ¬ t.natAbs < 2 ^ 63 := by
          rcases h with h | h
          · have hbeyond := h t rfl
            omega
          · have hlimit := Option.some.inj h
            omega
        rw [if_neg hnot]

theorem intoUnixNanos_eq_some {n : Int64} : intoUnixNanos time = some n ↔ time = some n.toInt := by
  cases time with
  | none => exact ⟨fun h => (by cases h), fun h => (by cases h)⟩
  | some t =>
      rw [intoUnixNanos, Option.bind_some, Option.some.injEq]
      constructor
      · intro h
        split at h
        · rw [← Option.some.inj h, Int64.toInt_ofInt_of_le (by omega) (by omega)]
        · cases h
      · intro h
        have hle := n.le_toInt
        have hlt := n.toInt_lt
        rw [if_pos (by omega), h, Int64.ofInt_toInt]

/-- The numbers of both conversions are the same. -/
theorem unixNanos_eq_some {n : Int64} :
    unixNanos time = some n ↔ time = some n.toInt ∧ n.toInt ≠ -(2 ^ 63) := by
  cases time with
  | none => exact ⟨fun h => (by cases h), fun h => (by cases h.1)⟩
  | some t =>
      rw [unixNanos, Option.bind_some, Option.some.injEq]
      constructor
      · intro h
        split at h
        · rw [← Option.some.inj h, Int64.toInt_ofInt_of_le (by omega) (by omega)]
          exact ⟨rfl, by omega⟩
        · cases h
      · intro ⟨h, hlimit⟩
        have hle := n.le_toInt
        have hlt := n.toInt_lt
        rw [if_pos (by omega), h, Int64.ofInt_toInt]

/-- When equal numbers mean equal times. -/
theorem intoUnixNanos_eq_iff : intoUnixNanos time = intoUnixNanos other ↔
    time = other ∨ BeyondNanos time ∧ BeyondNanos other := by
  constructor
  · intro h
    cases hnanos : intoUnixNanos time with
    | none =>
        rw [hnanos] at h
        exact .inr ⟨intoUnixNanos_eq_none.mp hnanos, intoUnixNanos_eq_none.mp h.symm⟩
    | some n =>
        rw [hnanos] at h
        exact .inl ((intoUnixNanos_eq_some.mp hnanos).trans
          (intoUnixNanos_eq_some.mp h.symm).symm)
  · rintro (rfl | ⟨htime, hother⟩)
    · rfl
    · rw [intoUnixNanos_eq_none.mpr htime, intoUnixNanos_eq_none.mpr hother]

theorem unixNanos_eq_iff : unixNanos time = unixNanos other ↔
    time = other ∨ (BeyondNanos time ∨ time = some (-(2 ^ 63))) ∧
      (BeyondNanos other ∨ other = some (-(2 ^ 63))) := by
  constructor
  · intro h
    cases hnanos : unixNanos time with
    | none =>
        rw [hnanos] at h
        exact .inr ⟨unixNanos_eq_none.mp hnanos, unixNanos_eq_none.mp h.symm⟩
    | some n =>
        rw [hnanos] at h
        exact .inl ((unixNanos_eq_some.mp hnanos).1.trans (unixNanos_eq_some.mp h.symm).1.symm)
  · rintro (rfl | ⟨htime, hother⟩)
    · rfl
    · rw [unixNanos_eq_none.mpr htime, unixNanos_eq_none.mpr hother]

theorem not_beyondNanos_limit : ¬ BeyondNanos (some (-(2 ^ 63))) := by
  intro h
  have hlimit := h _ rfl
  omega

/-- The conversions tell the same times apart, but at the limit. -/
theorem nanos_agree_iff : (intoUnixNanos time = intoUnixNanos other ↔
    unixNanos time = unixNanos other) ↔ ¬ SplitAtLimit time other := by
  rw [intoUnixNanos_eq_iff, unixNanos_eq_iff]
  unfold SplitAtLimit
  have hlimit := not_beyondNanos_limit
  generalize (-(2 ^ 63) : Int) = limit at hlimit ⊢
  by_cases htime : time = some limit
  · subst htime
    by_cases hother : other = some limit
    · subst hother
      simp [hlimit]
    · have hne : some limit ≠ other := fun h => hother h.symm
      simp [hlimit, hother, hne]
  · by_cases hother : other = some limit
    · subst hother
      simp [hlimit, htime]
    · simp [htime, hother]

end

/-! ## Items -/

/-- The items are equal in what is required, leaving out their times. -/
structure EqualButTimes (metadata : MetadataRequirements) (left right : InventoryItem) : Prop where
  itemType : left.itemType = right.itemType
  specialist : metadata.specialist.any = false
  content : left.itemType = .regularFile → left.metadata.size = right.metadata.size ∧
    left.contentFingerprint ≠ none ∧ left.contentFingerprint = right.contentFingerprint
  executablePermissions : metadata.executablePermissions = true →
    left.metadata.executablePermissions = right.metadata.executablePermissions
  symlinkTarget : metadata.symlinkTargets = true →
    left.metadata.symlinkTarget.map PathBuf.components =
      right.metadata.symlinkTarget.map PathBuf.components

/-- Both items are included, and equal in all that is required. -/
structure TrulyEqual (metadata : MetadataRequirements) (left right : InventoryItem) : Prop where
  left_included : left.outcome = .included
  right_included : right.outcome = .included
  equal : EqualButTimes metadata left right
  modifiedAt : metadata.timestamps = true →
    left.metadata.modifiedAt = right.metadata.modifiedAt

/-- The comparisons of two items all have one result. -/
structure EqualitiesAgree (metadata : MetadataRequirements) (left right : InventoryItem) :
    Prop where
  snapshots : MirrorEquality.equalInventory ⟨metadata⟩ left right =
    MirrorEquality.equal ⟨metadata⟩ (.fromItem left) (.fromItem right)
  review : MirrorEquality.equalInventory ⟨metadata⟩ left right =
    MirrorReviewEquality.equal ⟨metadata⟩ (.fromItem left) (.fromItem right)
  baseline : MirrorEquality.equalInventory ⟨metadata⟩ left right =
    (SyncBaselineItemState.fromSnapshot (.fromItem left)).equalState
      (.fromSnapshot (.fromItem right)) ⟨metadata⟩

/-- What equality says of two items is so. -/
structure NeverOverclaims (metadata : MetadataRequirements) (left right : InventoryItem) :
    Prop where
  items : MirrorEquality.equalInventory ⟨metadata⟩ left right = true →
    TrulyEqual metadata left right
  snapshots : MirrorEquality.equal ⟨metadata⟩ (.fromItem left) (.fromItem right) = true →
    TrulyEqual metadata left right

section

variable {metadata : MetadataRequirements} {left right : InventoryItem}

/-- The parts of an item, with the time as some conversion has it. -/
def InventoryItem.partsAt (item : InventoryItem) (modifiedAt : Option Int64) : MirrorParts :=
  { item.parts with modifiedAt }

theorem equalParts_partsAt {time time' : Option Int64} :
    equalParts metadata (left.partsAt time) (right.partsAt time') = true ↔
      EqualButTimes metadata left right ∧ (metadata.timestamps = true → time = time') := by
  rw [equalParts_iff]
  unfold MirrorParts.Comparable MirrorParts.compared
  simp only [InventoryItem.partsAt, InventoryItem.parts, Prod.mk.injEq]
  constructor
  · intro ⟨⟨hspecialist, hhash⟩, htype, hfiles, hexecutable, htarget, htime⟩
    refine ⟨⟨htype, hspecialist, fun hfile => ?_, fun h => ?_, fun h => ?_⟩, fun h => ?_⟩
    · simp only [← htype, hfile, if_true, Option.some.injEq, Prod.mk.injEq] at hfiles
      exact ⟨hfiles.1, hhash hfile, hfiles.2⟩
    · rw [if_pos h, if_pos h] at hexecutable
      exact Option.some.inj hexecutable
    · rw [if_pos h, if_pos h] at htarget
      exact Option.some.inj htarget
    · rw [if_pos h, if_pos h] at htime
      exact Option.some.inj htime
  · intro ⟨⟨htype, hspecialist, hcontent, hexecutable, htarget⟩, htime⟩
    refine ⟨⟨hspecialist, fun hfile => (hcontent hfile).2.1⟩, htype, ?_, ?_, ?_, ?_⟩
    · by_cases hfile : left.itemType = .regularFile
      · obtain ⟨hsize, -, hhash⟩ := hcontent hfile
        simp only [← htype, hfile, if_true, hsize, hhash]
      · simp only [← htype, hfile, if_false]
    · split
      · rename_i h
        rw [hexecutable h]
      · rfl
    · split
      · rename_i h
        rw [htarget h]
      · rfl
    · split
      · rename_i h
        rw [htime h]
      · rfl

/-- Equality of items compares their times as `into_unix_nanos` has them. -/
theorem equalInventory_iff : MirrorEquality.equalInventory ⟨metadata⟩ left right = true ↔
    left.outcome = .included ∧ right.outcome = .included ∧ EqualButTimes metadata left right ∧
      (metadata.timestamps = true →
        intoUnixNanos left.metadata.modifiedAt = intoUnixNanos right.metadata.modifiedAt) := by
  unfold MirrorEquality.equalInventory
  split
  · rename_i h
    constructor
    · nofun
    · intro ⟨hleft, hright, _⟩
      exact absurd h (not_or.mpr ⟨not_not.mpr hleft, not_not.mpr hright⟩)
  · rename_i h
    obtain ⟨hleft, hright⟩ := not_or.mp h
    rw [← equalParts_partsAt]
    exact ⟨fun h => ⟨not_not.mp hleft, not_not.mp hright, h⟩, fun h => h.2.2⟩

/-- Everything else compares them as `unix_nanos` has them. -/
theorem equalParts_fromItem :
    equalParts metadata (InventorySnapshotItem.fromItem left).parts
        (InventorySnapshotItem.fromItem right).parts = true ↔
      EqualButTimes metadata left right ∧ (metadata.timestamps = true →
        unixNanos left.metadata.modifiedAt = unixNanos right.metadata.modifiedAt) := by
  rw [← equalParts_partsAt]
  rfl

end

/-- **When the comparisons agree.** -/
theorem equalities_agree_iff (metadata : MetadataRequirements) {left right : InventoryItem}
    (hleft : left.outcome = .included) (hright : right.outcome = .included) :
    EqualitiesAgree metadata left right ↔
      ¬ (metadata.timestamps = true ∧ EqualButTimes metadata left right ∧
        SplitAtLimit left.metadata.modifiedAt right.metadata.modifiedAt) := by
  have hitems : MirrorEquality.equalInventory ⟨metadata⟩ left right = true ↔
      EqualButTimes metadata left right ∧ (metadata.timestamps = true →
        intoUnixNanos left.metadata.modifiedAt = intoUnixNanos right.metadata.modifiedAt) := by
    rw [equalInventory_iff]
    exact ⟨fun h => h.2.2, fun h => ⟨hleft, hright, h⟩⟩
  have hsnapshots : MirrorEquality.equal ⟨metadata⟩ (.fromItem left) (.fromItem right) =
      equalParts metadata (InventorySnapshotItem.fromItem left).parts
        (InventorySnapshotItem.fromItem right).parts :=
    if_neg (not_or.mpr ⟨not_not.mpr hleft, not_not.mpr hright⟩)
  have hagree : MirrorEquality.equalInventory ⟨metadata⟩ left right =
      equalParts metadata (InventorySnapshotItem.fromItem left).parts
        (InventorySnapshotItem.fromItem right).parts ↔
      ¬ (metadata.timestamps = true ∧ EqualButTimes metadata left right ∧
        SplitAtLimit left.metadata.modifiedAt right.metadata.modifiedAt) := by
    rw [Bool.eq_iff_iff, hitems, equalParts_fromItem, and_congr_right_iff]
    constructor
    · intro h ⟨htimestamps, hequal, hsplit⟩
      refine nanos_agree_iff.mp ?_ hsplit
      have htimes := h hequal
      rwa [imp_iff_right htimestamps, imp_iff_right htimestamps] at htimes
    · intro h hequal
      refine imp_congr_right fun htimestamps => nanos_agree_iff.mpr fun hsplit => ?_
      exact h ⟨htimestamps, hequal, hsplit⟩
  refine ⟨fun h => hagree.mp (h.snapshots.trans hsnapshots), fun h => ?_⟩
  have hequal := hagree.mpr h
  exact ⟨hequal.trans hsnapshots.symm, hequal.trans (MirrorReviewEquality.equal_eq _ _ _).symm,
    hequal⟩

/-- **When equality can be relied on.** -/
theorem equality_sound_iff (metadata : MetadataRequirements) (left right : InventoryItem) :
    NeverOverclaims metadata left right ↔
      ¬ (left.outcome = .included ∧ right.outcome = .included ∧
        EqualButTimes metadata left right ∧ metadata.timestamps = true ∧
        left.metadata.modifiedAt ≠ right.metadata.modifiedAt ∧
        unixNanos left.metadata.modifiedAt = none ∧ unixNanos right.metadata.modifiedAt = none) := by
  constructor
  · intro h ⟨hleft, hright, hequal, htimestamps, hne, hnone, hnone'⟩
    refine hne ((h.snapshots ?_).modifiedAt htimestamps)
    rw [MirrorEquality.equal_iff]
    exact ⟨hleft, hright, equalParts_fromItem.mpr ⟨hequal, fun _ => hnone.trans hnone'.symm⟩⟩
  · intro h
    have htruly : ∀ (hleft : left.outcome = .included) (hright : right.outcome = .included)
        (hequal : EqualButTimes metadata left right), (metadata.timestamps = true →
          unixNanos left.metadata.modifiedAt = unixNanos right.metadata.modifiedAt) →
            TrulyEqual metadata left right := by
      intro hleft hright hequal htimes
      refine ⟨hleft, hright, hequal, fun htimestamps => ?_⟩
      by_contra hne
      obtain ⟨hnone, hnone'⟩ := (unixNanos_eq_iff.mp (htimes htimestamps)).resolve_left hne
      exact h ⟨hleft, hright, hequal, htimestamps, hne, unixNanos_eq_none.mpr hnone,
        unixNanos_eq_none.mpr hnone'⟩
    constructor
    · intro hitems
      obtain ⟨hleft, hright, hequal, htimes⟩ := equalInventory_iff.mp hitems
      refine htruly hleft hright hequal fun htimestamps => unixNanos_eq_iff.mpr ?_
      exact (intoUnixNanos_eq_iff.mp (htimes htimestamps)).imp_right fun ⟨hbeyond, hbeyond'⟩ =>
        ⟨.inl hbeyond, .inl hbeyond'⟩
    · intro hsnapshots
      obtain ⟨hleft, hright, hparts⟩ := MirrorEquality.equal_iff.mp hsnapshots
      obtain ⟨hequal, htimes⟩ := equalParts_fromItem.mp hparts
      exact htruly hleft hright hequal htimes

/-! ### Files of other times -/

/-- A file that was modified so many nanoseconds after 1970. -/
def fileOfTime (modifiedAt : Int) : InventoryItem where
  relativePath := ⟨[97]⟩
  itemType := .regularFile
  metadata := ⟨1, some modifiedAt, false, some 0o644, none⟩
  outcome := .included
  contentFingerprint := some (Sha256.ofByte 0)

def datedMetadata : MetadataRequirements := { SyncOptions.default.metadata with timestamps := true }

/-- Two files of recent times. -/
theorem equalities_agree_recent :
    EqualitiesAgree datedMetadata (fileOfTime 1700000000000000000) (fileOfTime 1700000000000000001) :=
  (equalities_agree_iff datedMetadata rfl rfl).mpr fun ⟨_, _, h⟩ => by
    rcases h with ⟨h, -⟩ | ⟨h, -⟩ <;> cases h

/-- The least time with a number, and one in the year 2300. -/
theorem equalities_differ_limit :
    ¬ EqualitiesAgree datedMetadata (fileOfTime (-9223372036854775808))
      (fileOfTime 10413792000000000000) :=
  fun h => absurd h.snapshots (by decide)

/-- Two times in the years 2300 and 2301. -/
theorem equality_overclaims_late :
    ¬ NeverOverclaims datedMetadata (fileOfTime 10413792000000000000)
      (fileOfTime 10445328000000000000) :=
  fun h => absurd ((h.items (by decide)).modifiedAt rfl) (by decide)

end SyncPlus
