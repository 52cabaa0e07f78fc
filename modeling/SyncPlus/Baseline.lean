import SyncPlus.Columns
import SyncPlus.Lib.Overlay
import SyncPlus.Profile

/-!
# The Sync Baseline

What a Mirror profile remembers of its settled paths: both sides' state
of each path at the time it was settled. An update merges newly settled
paths into the stored baseline and replaces it. The stored rows and
their reader come first, then the merge, read path by path
(`item_settle`).

The reader refuses a size from 2⁶³ on, which the writer has cast to a
negative number, so a stored baseline reads back exactly when its sizes
fit (`decode_ofBaseline`).
-/

namespace SyncPlus

open Std (ExtTreeMap)

/-! ## Baselines -/

/-- A root, up to the equality of the standard library: its components. -/
abbrev RootPath := List Component

structure SyncBaselineItemState where
  itemType : ItemType
  size : UInt64
  modifiedAtUnixNanos : Option Int64
  readonly : Bool
  executablePermissions : Option UInt32
  symlinkTarget : Option PathBuf
  contentFingerprint : Option Sha256
  deriving DecidableEq

structure SyncBaselineItem where
  relativePath : RelativePath
  peerA : Option SyncBaselineItemState
  peerB : Option SyncBaselineItemState
  deriving DecidableEq

/-- A baseline. Its items come out of an ordered map, so they stand in
strict path order. -/
structure SyncBaseline where
  profileName : String
  peerAName : String
  peerARoot : RootPath
  peerBName : String
  peerBRoot : RootPath
  metadata : MetadataRequirements
  items : List SyncBaselineItem
  sorted : SortedBy (·.relativePath) items
  deriving DecidableEq

/-- The two baselines are for the same peers of the same profile. -/
def SameEndpoints (b b' : SyncBaseline) : Prop :=
  b.profileName = b'.profileName ∧ b.peerAName = b'.peerAName ∧
    b.peerARoot = b'.peerARoot ∧ b.peerBName = b'.peerBName ∧ b.peerBRoot = b'.peerBRoot

instance (b b' : SyncBaseline) : Decidable (SameEndpoints b b') :=
  inferInstanceAs (Decidable (_ ∧ _ ∧ _ ∧ _ ∧ _))

namespace SyncBaseline

def item (b : SyncBaseline) (relativePath : RelativePath) : Option SyncBaselineItem :=
  lookup (·.relativePath) b.items relativePath

def mergeSettled (b updates : SyncBaseline) : SyncBaseline :=
  if SameEndpoints b updates then
    { profileName := b.profileName
      peerAName := b.peerAName
      peerARoot := b.peerARoot
      peerBName := b.peerBName
      peerBRoot := b.peerBRoot
      metadata := updates.metadata
      items := overlay (·.relativePath) b.items updates.items
      sorted := sortedBy_overlay }
  else updates

end SyncBaseline

/-! ## Rows -/

structure BaselineStateRow where
  present : Int64
  itemType : Option String
  size : Option Int64
  modifiedAtUnixNanos : Option Int64
  readonly : Option Int64
  permissions : Option Int64
  symlinkTarget : Option Blob
  contentFingerprint : Option Blob
  deriving DecidableEq

structure BaselineItemRow where
  relativePath : RelativePath
  peerA : BaselineStateRow
  peerB : BaselineStateRow
  deriving DecidableEq

/-- A row of `sync_baselines` with its items in ordinal order, which is
the order they had in the baseline. -/
structure BaselineRow where
  peerAName : String
  peerARoot : RootPath
  peerBName : String
  peerBRoot : RootPath
  metadata : MetadataRequirements
  items : List BaselineItemRow
  sorted : SortedBy (·.relativePath) items
  deriving DecidableEq

def BaselineStateRow.ofState (state : Option SyncBaselineItemState) : BaselineStateRow :=
  { present := boolToInt state.isSome
    itemType := state.map fun s => encodeItemType s.itemType
    size := state.map fun s => s.size.toInt64
    modifiedAtUnixNanos := state.bind (·.modifiedAtUnixNanos)
    readonly := state.map fun s => boolToInt s.readonly
    permissions := state.bind fun s =>
      s.executablePermissions.map fun p => p.toUInt64.toInt64
    symlinkTarget := state.bind fun s => s.symlinkTarget.map pathToBlob
    contentFingerprint := state.bind fun s =>
      s.contentFingerprint.map List.Vector.toList }

def BaselineItemRow.ofItem (item : SyncBaselineItem) : BaselineItemRow :=
  { relativePath := item.relativePath
    peerA := .ofState item.peerA
    peerB := .ofState item.peerB }

def BaselineRow.ofBaseline (b : SyncBaseline) : BaselineRow :=
  { peerAName := b.peerAName
    peerARoot := b.peerARoot
    peerBName := b.peerBName
    peerBRoot := b.peerBRoot
    metadata := b.metadata
    items := b.items.map .ofItem
    sorted := List.pairwise_map.mpr b.sorted }

/-! ## Reading rows -/

def decodeBool (value : Int64) (field : String) : Except StorageError Bool :=
  if value = 0 then .ok false
  else if value = 1 then .ok true
  else .error (.corruptEvidence (field ++ " is not a boolean"))

@[simp] theorem decodeBool_boolToInt (b : Bool) (field : String) :
    decodeBool (boolToInt b) field = .ok b := by
  cases b <;> rfl

/-- `u32::try_from` on a column value. -/
def tryU32 (v : Int64) : Option UInt32 :=
  if v < 0 ∨ 2 ^ 32 ≤ v.toUInt64.toNat then none else some v.toUInt64.toUInt32

@[simp] theorem tryU32_toInt64 (n : UInt32) :
    tryU32 n.toUInt64.toInt64 = some n := by
  have hlt : n.toNat < 2 ^ 32 := n.toNat_lt
  have hpos : ¬ n.toUInt64.toInt64 < 0 := by
    rw [toInt64_neg_iff, not_not, FitsI64, UInt32.toNat_toUInt64]
    omega
  have hsmall : ¬ 2 ^ 32 ≤ n.toUInt64.toInt64.toUInt64.toNat := by
    rw [UInt64.toUInt64_toInt64, UInt32.toNat_toUInt64]
    omega
  rw [tryU32, if_neg (not_or.mpr ⟨hpos, hsmall⟩)]
  simp

def decodePermissions : Option Int64 → Except StorageError (Option UInt32)
  | none => .ok none
  | some v =>
      (orError (tryU32 v)
        (.corruptEvidence "baseline item has invalid permissions")).map some

def decodeBaselineState (row : BaselineStateRow) :
    Except StorageError (Option SyncBaselineItemState) := do
  let present ← decodeBool row.present "baseline item presence"
  if present then
    let itemType ← orError row.itemType
      (.corruptEvidence "present baseline item has no item type")
    let itemType ← decodeItemType itemType
    let size ← orError row.size
      (.corruptEvidence "present baseline item has no size")
    let size ← orError (tryU64 size)
      (.corruptEvidence "baseline item has a negative size")
    let readonly ← orError row.readonly
      (.corruptEvidence "present baseline item has no readonly flag")
    let readonly ← decodeBool readonly "baseline readonly flag"
    let executablePermissions ← decodePermissions row.permissions
    let contentFingerprint ← decodeHash row.contentFingerprint
    return some
      { itemType, size, readonly, executablePermissions, contentFingerprint
        modifiedAtUnixNanos := row.modifiedAtUnixNanos
        symlinkTarget := row.symlinkTarget.map blobToPath }
  else
    ensure (row.itemType = none ∧ row.size = none ∧ row.modifiedAtUnixNanos = none ∧
        row.readonly = none ∧ row.permissions = none ∧ row.symlinkTarget = none ∧
        row.contentFingerprint = none)
      (.corruptEvidence "absent baseline item contains state")
    return none

def decodeBaselineItem (row : BaselineItemRow) : Except StorageError SyncBaselineItem := do
  let peerA ← decodeBaselineState row.peerA
  let peerB ← decodeBaselineState row.peerB
  return { relativePath := row.relativePath, peerA, peerB }

theorem decodeBaselineItem_relativePath {row : BaselineItemRow} {item : SyncBaselineItem}
    (h : decodeBaselineItem row = .ok item) : item.relativePath = row.relativePath := by
  obtain ⟨peerA, -, h⟩ := bind_eq_ok.mp h
  obtain ⟨peerB, -, h⟩ := bind_eq_ok.mp h
  exact (Except.ok.inj h) ▸ rfl

theorem sortedBy_decodeBaselineItems {rows : List BaselineItemRow}
    {items : List SyncBaselineItem} (hs : SortedBy (·.relativePath) rows)
    (h : rows.mapM decodeBaselineItem = .ok items) :
    SortedBy (·.relativePath) items := by
  have hpaths : items.map (·.relativePath) = rows.map (·.relativePath) := by
    clear hs
    induction rows generalizing items with
    | nil => rw [← Except.ok.inj h]; rfl
    | cons row rows ih =>
        rw [List.mapM_cons] at h
        obtain ⟨item, hitem, h⟩ := bind_eq_ok.mp h
        obtain ⟨rest, hrest, h⟩ := bind_eq_ok.mp h
        rw [← Except.ok.inj h, List.map_cons, List.map_cons, ih hrest,
          decodeBaselineItem_relativePath hitem]
  have : (items.map (·.relativePath)).Pairwise fun p q => compare p q = .lt := by
    rw [hpaths]
    exact List.pairwise_map.mpr hs
  exact List.pairwise_map.mp this

def BaselineRow.decode (row : BaselineRow) (profileName : String) :
    Except StorageError SyncBaseline :=
  match h : row.items.mapM decodeBaselineItem with
  | .ok items => .ok
      { profileName
        peerAName := row.peerAName
        peerARoot := row.peerARoot
        peerBName := row.peerBName
        peerBRoot := row.peerBRoot
        metadata := row.metadata
        items
        sorted := sortedBy_decodeBaselineItems row.sorted h }
  | .error e => .error e

/-! ## The tables -/

/-- The baseline tables, by profile. -/
abbrev BaselineTable := ExtTreeMap String BaselineRow

namespace BaselineTable

def loadMirrorBaseline (table : BaselineTable) (profileName : String) :
    Except StorageError (Option SyncBaseline) :=
  match table[profileName]? with
  | none => .ok none
  | some row => (row.decode profileName).map some

/-- The write transaction of an update: the profile's rows are replaced. -/
def write (table : BaselineTable) (b : SyncBaseline) : BaselineTable :=
  table.insert b.profileName (.ofBaseline b)

/-- What an update writes, given what it has loaded. -/
def settle (existing : Option SyncBaseline) (baseline : SyncBaseline) : SyncBaseline :=
  match existing with
  | some existing => existing.mergeSettled baseline
  | none => baseline

def updateMirrorBaseline (table : BaselineTable) (baseline : SyncBaseline) :
    Except StorageError BaselineTable := do
  let existing ← table.loadMirrorBaseline baseline.profileName
  return table.write (settle existing baseline)

end BaselineTable

/-! ## What the rows keep -/

/-- Every size of the item is one the reader takes. -/
def SyncBaselineItem.Fits (item : SyncBaselineItem) : Prop :=
  FitsOpt (item.peerA.map (·.size)) ∧ FitsOpt (item.peerB.map (·.size))

instance (item : SyncBaselineItem) : Decidable item.Fits :=
  inferInstanceAs (Decidable (_ ∧ _))

/-- Once stored, the baseline can be read. -/
def SyncBaseline.Readable (b : SyncBaseline) : Prop :=
  ∀ item ∈ b.items, item.Fits

instance (b : SyncBaseline) : Decidable b.Readable :=
  inferInstanceAs (Decidable (∀ item ∈ b.items, _))

theorem decodePermissions_toInt64 (permissions : Option UInt32) :
    decodePermissions (permissions.map fun p => p.toUInt64.toInt64) = .ok permissions := by
  cases permissions <;> simp [decodePermissions, Except.map]

theorem decodeBaselineState_ofState {state state' : Option SyncBaselineItemState} :
    decodeBaselineState (.ofState state) = .ok state' ↔
      FitsOpt (state.map (·.size)) ∧ state' = state := by
  cases state with
  | none =>
      have : decodeBaselineState (.ofState none) = .ok none := rfl
      simp [this, eq_comm]
  | some s =>
      have hlink : (s.symlinkTarget.map pathToBlob).map blobToPath = s.symlinkTarget := by
        simp [Function.comp_def]
      simp only [decodeBaselineState, BaselineStateRow.ofState, Option.isSome_some,
        decodeBool_boolToInt, ok_bind, if_true, Option.map_some, Option.bind_some,
        orError_some, decodeItemType_encode, decodePermissions_toInt64,
        decodeHash_toList, hlink, bind_eq_ok, orError_eq_ok, tryU64_toInt64,
        fitsOpt_some]
      constructor
      · rintro ⟨_, ⟨hfits, rfl⟩, h⟩
        exact ⟨hfits, (Except.ok.inj h).symm⟩
      · rintro ⟨hfits, rfl⟩
        exact ⟨s.size, ⟨hfits, rfl⟩, rfl⟩

theorem decodeBaselineState_fits {row : BaselineStateRow}
    {state : Option SyncBaselineItemState} (h : decodeBaselineState row = .ok state) :
    FitsOpt (state.map (·.size)) := by
  obtain ⟨present, -, h⟩ := bind_eq_ok.mp h
  cases present with
  | false =>
      obtain ⟨_, -, h⟩ := bind_eq_ok.mp h
      rw [← Except.ok.inj h]
      simp
  | true =>
      simp only [if_true, bind_eq_ok, orError_eq_ok] at h
      obtain ⟨_, -, _, -, v, -, size, hsize, _, -, _, -, _, -, _, -, h⟩ := h
      rw [← Except.ok.inj h, Option.map_some, fitsOpt_some]
      unfold tryU64 at hsize
      split at hsize
      · cases hsize
      · rw [← Option.some.inj hsize, ← toInt64_nonneg_iff]
        simpa using Int64.not_lt.mp ‹_›

theorem decodeBaselineItem_ofItem {item item' : SyncBaselineItem} :
    decodeBaselineItem (.ofItem item) = .ok item' ↔ item.Fits ∧ item' = item := by
  simp only [decodeBaselineItem, BaselineItemRow.ofItem, bind_eq_ok,
    decodeBaselineState_ofState, SyncBaselineItem.Fits]
  constructor
  · rintro ⟨_, ⟨hA, rfl⟩, _, ⟨hB, rfl⟩, h⟩
    exact ⟨⟨hA, hB⟩, (Except.ok.inj h).symm⟩
  · rintro ⟨⟨hA, hB⟩, rfl⟩
    exact ⟨_, ⟨hA, rfl⟩, _, ⟨hB, rfl⟩, rfl⟩

theorem mapM_decodeBaselineItem_ofItem {items items' : List SyncBaselineItem} :
    (items.map BaselineItemRow.ofItem).mapM decodeBaselineItem = .ok items' ↔
      (∀ item ∈ items, item.Fits) ∧ items' = items := by
  induction items generalizing items' with
  | nil =>
      have : (([] : List BaselineItemRow).mapM decodeBaselineItem) = .ok [] := rfl
      simp [this, eq_comm]
  | cons item items ih =>
      simp only [List.map_cons, List.mapM_cons, bind_eq_ok, decodeBaselineItem_ofItem, ih,
        List.forall_mem_cons]
      constructor
      · rintro ⟨_, ⟨hfits, rfl⟩, _, ⟨hrest, rfl⟩, h⟩
        exact ⟨⟨hfits, hrest⟩, (Except.ok.inj h).symm⟩
      · rintro ⟨⟨hfits, hrest⟩, rfl⟩
        exact ⟨_, ⟨hfits, rfl⟩, _, ⟨hrest, rfl⟩, rfl⟩

theorem mapM_decodeBaselineItem_fits {rows : List BaselineItemRow}
    {items : List SyncBaselineItem} (h : rows.mapM decodeBaselineItem = .ok items) :
    ∀ item ∈ items, item.Fits := by
  induction rows generalizing items with
  | nil => rw [← Except.ok.inj h]; simp
  | cons row rows ih =>
      rw [List.mapM_cons] at h
      obtain ⟨item, hitem, h⟩ := bind_eq_ok.mp h
      obtain ⟨rest, hrest, h⟩ := bind_eq_ok.mp h
      obtain ⟨peerA, hA, hitem⟩ := bind_eq_ok.mp hitem
      obtain ⟨peerB, hB, hitem⟩ := bind_eq_ok.mp hitem
      rw [← Except.ok.inj h, List.forall_mem_cons, ← Except.ok.inj hitem]
      exact ⟨⟨decodeBaselineState_fits hA, decodeBaselineState_fits hB⟩, ih hrest⟩

theorem BaselineRow.decode_eq_ok {row : BaselineRow} {profileName : String}
    {b : SyncBaseline} :
    row.decode profileName = .ok b ↔
      row.items.mapM decodeBaselineItem = .ok b.items ∧ b.profileName = profileName ∧
        b.peerAName = row.peerAName ∧ b.peerARoot = row.peerARoot ∧
        b.peerBName = row.peerBName ∧ b.peerBRoot = row.peerBRoot ∧
        b.metadata = row.metadata := by
  unfold BaselineRow.decode
  split
  · rename_i items h
    constructor
    · intro heq
      obtain rfl := Except.ok.inj heq
      exact ⟨h, rfl, rfl, rfl, rfl, rfl, rfl⟩
    · obtain ⟨_, _, _, _, _, _, _, _⟩ := b
      rintro ⟨hitems, rfl, rfl, rfl, rfl, rfl, rfl⟩
      obtain rfl := Except.ok.inj (h.symm.trans hitems)
      rfl
  · rename_i e h
    simp [h]

/-- **What is written reads back as itself**, or, where a size does not
fit, not at all. -/
theorem decode_ofBaseline {b b' : SyncBaseline} :
    (BaselineRow.ofBaseline b).decode b.profileName = .ok b' ↔ b.Readable ∧ b' = b := by
  rw [BaselineRow.decode_eq_ok]
  simp only [BaselineRow.ofBaseline, mapM_decodeBaselineItem_ofItem]
  constructor
  · rintro ⟨⟨hread, hitems⟩, hprofile, haName, haRoot, hbName, hbRoot, hmeta⟩
    refine ⟨hread, ?_⟩
    obtain ⟨_, _, _, _, _, _, _, _⟩ := b
    obtain ⟨_, _, _, _, _, _, _, _⟩ := b'
    simp_all
  · rintro ⟨hread, rfl⟩
    exact ⟨⟨hread, rfl⟩, rfl, rfl, rfl, rfl, rfl, rfl⟩

theorem decode_readable {row : BaselineRow} {profileName : String} {b : SyncBaseline}
    (h : row.decode profileName = .ok b) : b.Readable ∧ b.profileName = profileName := by
  obtain ⟨hitems, hprofile, -⟩ := BaselineRow.decode_eq_ok.mp h
  exact ⟨mapM_decodeBaselineItem_fits hitems, hprofile⟩

/-! ## The merge, path by path -/

/-- What the stored baseline holds at a path for an update of the given
endpoints. -/
def storedAt (existing : Option SyncBaseline) (b : SyncBaseline) (p : RelativePath) :
    Option SyncBaselineItem :=
  match existing with
  | some existing => if SameEndpoints existing b then existing.item p else none
  | none => none

/-- Two baselines with the same header are equal when they hold the same
at every path. -/
theorem SyncBaseline.ext_item {b b' : SyncBaseline} (he : SameEndpoints b b')
    (hmeta : b.metadata = b'.metadata) (h : ∀ p, b.item p = b'.item p) : b = b' := by
  have hitems : b.items = b'.items := ext_of_lookup b.sorted b'.sorted h
  obtain ⟨h1, h2, h3, h4, h5⟩ := he
  obtain ⟨_, _, _, _, _, _, _, _⟩ := b
  obtain ⟨_, _, _, _, _, _, _, _⟩ := b'
  simp_all

open BaselineTable (settle)

theorem item_settle (existing : Option SyncBaseline) (b : SyncBaseline)
    (p : RelativePath) :
    (settle existing b).item p = (b.item p).or (storedAt existing b p) := by
  cases existing with
  | none => simp [settle, storedAt]
  | some existing =>
      by_cases hsame : SameEndpoints existing b
      · simp only [settle, SyncBaseline.mergeSettled, if_pos hsame, storedAt]
        exact lookup_overlay existing.sorted b.sorted p
      · simp [settle, SyncBaseline.mergeSettled, storedAt, hsame]

theorem settle_header (existing : Option SyncBaseline) (b : SyncBaseline) :
    SameEndpoints (settle existing b) b ∧ (settle existing b).metadata = b.metadata := by
  cases existing with
  | none => exact ⟨⟨rfl, rfl, rfl, rfl, rfl⟩, rfl⟩
  | some existing =>
      by_cases hsame : SameEndpoints existing b
      · simp only [settle, SyncBaseline.mergeSettled, if_pos hsame]
        exact ⟨hsame, trivial⟩
      · simp only [settle, SyncBaseline.mergeSettled, if_neg hsame]
        exact ⟨⟨rfl, rfl, rfl, rfl, rfl⟩, trivial⟩

theorem mem_items_iff {b : SyncBaseline} {item : SyncBaselineItem} :
    item ∈ b.items ↔ b.item item.relativePath = some item := by
  rw [SyncBaseline.item, lookup_eq_some b.sorted]
  simp

/-- A merge can be read exactly when the update can. -/
theorem readable_settle {existing : Option SyncBaseline} {b : SyncBaseline}
    (h : ∀ e ∈ existing, e.Readable) : (settle existing b).Readable ↔ b.Readable := by
  constructor
  · intro hread item hitem
    refine hread item (mem_items_iff.mpr ?_)
    rw [item_settle, mem_items_iff.mp hitem]
    rfl
  · intro hread item hitem
    rw [mem_items_iff, item_settle, Option.or_eq_some_iff] at hitem
    rcases hitem with hitem | ⟨-, hitem⟩
    · exact hread item (mem_items_iff.mpr hitem)
    · cases existing with
      | none => cases hitem
      | some e =>
          simp only [storedAt] at hitem
          split at hitem
          · exact h e rfl item (mem_items_iff.mpr hitem)
          · cases hitem

end SyncPlus
