import SyncPlus.Plan
import SyncPlus.PeerScope

/-!
# Mirror equality

When two items of a Mirror path agree, and the frozen form of an inventory.
The type always counts, the size and the hash for regular files, and the
rest where the metadata requirements ask for it. A file without a hash
equals nothing, and neither does any item while specialist metadata is
required. Apart from that, equality is equality of the compared values
(`equalParts_iff`), so that it is symmetric and transitive.
-/

namespace SyncPlus

/-! ## What is compared -/

/-- The values of an item that equality looks at. -/
structure MirrorParts where
  itemType : ItemType
  size : UInt64
  modifiedAt : Option Int64
  executablePermissions : Option UInt32
  symlinkTarget : Option PathBuf
  contentFingerprint : Option Sha256
  deriving DecidableEq

def equalParts (metadata : MetadataRequirements) (left right : MirrorParts) : Bool :=
  if left.itemType ≠ right.itemType then false
  else if metadata.specialist.any then false
  else if left.itemType = .regularFile ∧ (left.size ≠ right.size ∨
      left.contentFingerprint = none ∨ left.contentFingerprint ≠ right.contentFingerprint) then
    false
  else if metadata.executablePermissions = true ∧
      left.executablePermissions ≠ right.executablePermissions then false
  else if metadata.symlinkTargets = true ∧
      sameOptionPath left.symlinkTarget right.symlinkTarget = false then false
  else if metadata.timestamps = true ∧ left.modifiedAt ≠ right.modifiedAt then false
  else true

/-- The values that have to be equal. -/
def MirrorParts.compared (metadata : MetadataRequirements) (parts : MirrorParts) :
    ItemType × Option (UInt64 × Option Sha256) × Option (Option UInt32) ×
      Option (Option (List Component)) × Option (Option Int64) :=
  (parts.itemType,
    if parts.itemType = .regularFile then some (parts.size, parts.contentFingerprint) else none,
    if metadata.executablePermissions then some parts.executablePermissions else none,
    if metadata.symlinkTargets then some (parts.symlinkTarget.map PathBuf.components) else none,
    if metadata.timestamps then some parts.modifiedAt else none)

/-- The values can be compared at all. -/
def MirrorParts.Comparable (metadata : MetadataRequirements) (parts : MirrorParts) : Prop :=
  metadata.specialist.any = false ∧
    (parts.itemType = .regularFile → parts.contentFingerprint ≠ none)

instance (metadata : MetadataRequirements) (parts : MirrorParts) :
    Decidable (parts.Comparable metadata) :=
  inferInstanceAs (Decidable (_ ∧ (_ → _)))

section

variable {metadata : MetadataRequirements} {left right parts : MirrorParts}

theorem sameOptionPath_eq_false {p q : Option PathBuf} :
    sameOptionPath p q = false ↔ p.map PathBuf.components ≠ q.map PathBuf.components := by
  rw [← Bool.not_eq_true, ne_eq, sameOptionPath_iff]

theorem equalParts_iff : equalParts metadata left right = true ↔
    left.Comparable metadata ∧ left.compared metadata = right.compared metadata := by
  unfold equalParts MirrorParts.Comparable MirrorParts.compared
  simp only [sameOptionPath_eq_false, Prod.mk.injEq]
  split <;> rename_i htype
  · simp [htype]
  · rw [not_not] at htype
    rw [← htype]
    cases metadata.specialist.any
    · cases metadata.executablePermissions <;> cases metadata.symlinkTargets <;>
        cases metadata.timestamps <;> by_cases hfile : left.itemType = .regularFile <;>
        simp [hfile] <;> grind
    · simp

theorem equalParts_comm : equalParts metadata left right = equalParts metadata right left := by
  have hsymm : ∀ {left right : MirrorParts}, equalParts metadata left right = true →
      equalParts metadata right left = true := by
    intro left right h
    obtain ⟨⟨hspecialist, hcontent⟩, hcompared⟩ := equalParts_iff.mp h
    refine equalParts_iff.mpr ⟨⟨hspecialist, fun hfile => ?_⟩, hcompared.symm⟩
    have htype : left.itemType = right.itemType := congrArg Prod.fst hcompared
    have hfiles := congrArg (fun compared => compared.2.1) hcompared
    simp only [MirrorParts.compared, htype, hfile, if_pos, Option.some.injEq,
      Prod.mk.injEq] at hfiles
    rw [← hfiles.2]
    exact hcontent (htype.trans hfile)
  rw [Bool.eq_iff_iff]
  exact ⟨hsymm, hsymm⟩

theorem equalParts_trans (h : equalParts metadata left parts = true)
    (h' : equalParts metadata parts right = true) : equalParts metadata left right = true := by
  obtain ⟨hcomparable, hcompared⟩ := equalParts_iff.mp h
  exact equalParts_iff.mpr ⟨hcomparable, hcompared.trans (equalParts_iff.mp h').2⟩

end

/-! ## Items -/

def InventorySnapshotItem.executablePermissions (item : InventorySnapshotItem) :
    Option UInt32 :=
  item.permissions.map fun permissions => permissions &&& 0o111

def InventorySnapshotItem.parts (item : InventorySnapshotItem) : MirrorParts where
  itemType := item.itemType
  size := item.size
  modifiedAt := item.modifiedAtUnixNanos
  executablePermissions := item.executablePermissions
  symlinkTarget := item.symlinkTarget
  contentFingerprint := item.contentFingerprint

/-- `into_unix_nanos`: the time, when a signed 64-bit number of nanoseconds
holds it. -/
def intoUnixNanos (time : Option Int) : Option Int64 :=
  time.bind fun t => if -(2 ^ 63) ≤ t ∧ t < 2 ^ 63 then some (Int64.ofInt t) else none

def InventoryItem.parts (item : InventoryItem) : MirrorParts where
  itemType := item.itemType
  size := item.metadata.size
  modifiedAt := intoUnixNanos item.metadata.modifiedAt
  executablePermissions := item.metadata.executablePermissions
  symlinkTarget := item.metadata.symlinkTarget
  contentFingerprint := item.contentFingerprint

structure MirrorEquality where
  metadata : MetadataRequirements
  deriving DecidableEq

namespace MirrorEquality

def equal (equality : MirrorEquality) (left right : InventorySnapshotItem) : Bool :=
  if left.outcome ≠ .included ∨ right.outcome ≠ .included then false
  else equalParts equality.metadata left.parts right.parts

def equalInventory (equality : MirrorEquality) (left right : InventoryItem) : Bool :=
  if left.outcome ≠ .included ∨ right.outcome ≠ .included then false
  else equalParts equality.metadata left.parts right.parts

variable {equality : MirrorEquality} {left right item : InventorySnapshotItem}

theorem equal_iff : equality.equal left right = true ↔
    left.outcome = .included ∧ right.outcome = .included ∧
      equalParts equality.metadata left.parts right.parts = true := by
  unfold equal
  split <;> rename_i h
  · refine ⟨nofun, fun ⟨hleft, hright, _⟩ => ?_⟩
    rcases h with h | h
    · exact absurd hleft h
    · exact absurd hright h
  · rw [not_or, not_not, not_not] at h
    simp [h]

theorem equal_comm : equality.equal left right = equality.equal right left := by
  rw [Bool.eq_iff_iff, equal_iff, equal_iff, equalParts_comm]
  exact ⟨fun ⟨h, h', heq⟩ => ⟨h', h, heq⟩, fun ⟨h, h', heq⟩ => ⟨h', h, heq⟩⟩

theorem equal_trans (h : equality.equal left item = true)
    (h' : equality.equal item right = true) : equality.equal left right = true := by
  obtain ⟨hleft, -, hparts⟩ := equal_iff.mp h
  obtain ⟨-, hright, hparts'⟩ := equal_iff.mp h'
  exact equal_iff.mpr ⟨hleft, hright, equalParts_trans hparts hparts'⟩

end MirrorEquality

/-! ## Frozen inventories -/

def InventorySnapshotItem.fromItem (item : InventoryItem) : InventorySnapshotItem where
  relativePath := item.relativePath
  itemType := item.itemType
  outcome := item.outcome
  size := item.metadata.size
  modifiedAtUnixNanos := unixNanos item.metadata.modifiedAt
  readonly := item.metadata.readonly
  permissions := item.metadata.permissions
  symlinkTarget := item.metadata.symlinkTarget
  contentFingerprint := item.contentFingerprint

/-- A frozen inventory; the name and the root are those of the peer. -/
structure SourceInventorySnapshot where
  peerName : String
  root : PathBuf
  items : List InventorySnapshotItem
  deriving DecidableEq

def sideSnapshot (peerA peerB : SourceInventorySnapshot) : PeerSide → SourceInventorySnapshot
  | .peerA => peerA
  | .peerB => peerB

namespace SourceInventorySnapshot

def fromInventory (peerName : String) (root : PathBuf) (inventory : SourceInventory) :
    SourceInventorySnapshot where
  peerName
  root
  items := inventory.items.map .fromItem

def item (snapshot : SourceInventorySnapshot) (relativePath : PathBuf) :
    Option InventorySnapshotItem :=
  snapshot.items.find? fun item => item.relativePath.same relativePath

theorem item_same {snapshot : SourceInventorySnapshot} {p : PathBuf}
    {item : InventorySnapshotItem} (h : snapshot.item p = some item) :
    item ∈ snapshot.items ∧ item.relativePath.components = p.components := by
  have hsame : item.relativePath.same p = true := by
    simpa using List.find?_some (p := fun item : InventorySnapshotItem =>
      item.relativePath.same p) h
  exact ⟨List.mem_of_find?_eq_some h, PathBuf.same_iff.mp hsame⟩

/-- What is found depends on the components of the path only. -/
theorem item_congr (snapshot : SourceInventorySnapshot) {p q : PathBuf}
    (h : p.components = q.components) : snapshot.item p = snapshot.item q := by
  have hsame : ∀ item : InventorySnapshotItem,
      item.relativePath.same p = item.relativePath.same q := by
    intro item
    rw [Bool.eq_iff_iff, PathBuf.same_iff, PathBuf.same_iff, h]
  simp only [SourceInventorySnapshot.item, hsame]

theorem item_eq_none {snapshot : SourceInventorySnapshot} {p : PathBuf} :
    snapshot.item p = none ↔
      ∀ item ∈ snapshot.items, item.relativePath.components ≠ p.components := by
  simp [SourceInventorySnapshot.item, PathBuf.same]

theorem item_eq_some {snapshot : SourceInventorySnapshot} {p : PathBuf}
    {item : InventorySnapshotItem}
    (hnodup : (snapshot.items.map (·.relativePath.components)).Nodup) :
    snapshot.item p = some item ↔
      item ∈ snapshot.items ∧ item.relativePath.components = p.components := by
  constructor
  · exact item_same
  · intro ⟨hitem, hpath⟩
    cases hfound : snapshot.item p with
    | none => exact absurd hpath (item_eq_none.mp hfound item hitem)
    | some found =>
        obtain ⟨hmem, hsame⟩ := item_same hfound
        rw [List.inj_on_of_nodup_map hnodup hmem hitem (hsame.trans hpath.symm)]

/-- The frozen inventory finds the frozen item. -/
theorem item_fromInventory (peerName : String) (root : PathBuf) (inventory : SourceInventory)
    (p : PathBuf) : (fromInventory peerName root inventory).item p =
      (inventory.item p).map .fromItem := by
  rw [SourceInventorySnapshot.item, fromInventory, List.find?_map]
  rfl

end SourceInventorySnapshot

/-- What the inventory finds depends on the components of the path only. -/
theorem SourceInventory.item_congr (inventory : SourceInventory) {p q : PathBuf}
    (h : p.components = q.components) : inventory.item p = inventory.item q := by
  have hsame : ∀ item : InventoryItem,
      item.relativePath.same p = item.relativePath.same q := by
    intro item
    rw [Bool.eq_iff_iff, PathBuf.same_iff, PathBuf.same_iff, h]
  simp only [SourceInventory.item, hsame]

end SyncPlus
