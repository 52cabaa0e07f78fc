import SyncPlus.RunReport

/-!
# Confirmed plans

What a run executes: the actions of a plan, over the two inventories
they were planned from, with the options and peers frozen when the plan
was confirmed. Every plan is built from its inventories and numbered from
1, so each action has its item and its own number; the plan carries both
facts. It was validated when it was built and does not change, so that the
validation a driver opens with succeeds.
-/

namespace SyncPlus

/-! ## Inventories -/

/-- The metadata an inventory has of an item. A time is in nanoseconds from
the epoch. -/
structure ItemMetadata where
  size : UInt64
  modifiedAt : Option Int
  readonly : Bool
  permissions : Option UInt32
  symlinkTarget : Option PathBuf
  deriving DecidableEq

def ItemMetadata.executablePermissions (m : ItemMetadata) : Option UInt32 :=
  m.permissions.map fun permissions => permissions &&& 0o111

/-- `unix_nanos`: the time, when a signed 64-bit number of nanoseconds holds
it and its negation. -/
def unixNanos (time : Option Int) : Option Int64 :=
  time.bind fun t =>
    if t.natAbs < 2 ^ 63 then some (Int64.ofInt t) else none

structure InventoryItem where
  relativePath : PathBuf
  itemType : ItemType
  metadata : ItemMetadata
  outcome : AnalysisOutcome
  contentFingerprint : Option Sha256
  deriving DecidableEq

def InventoryItem.isEligible (item : InventoryItem) : Bool := item.outcome = .included

structure SourceInventory where
  items : List InventoryItem
  deriving DecidableEq

def SourceInventory.item (inventory : SourceInventory) (relativePath : PathBuf) :
    Option InventoryItem :=
  inventory.items.find? fun item => item.relativePath.same relativePath

def SourceInventory.includedItems (inventory : SourceInventory) : List InventoryItem :=
  inventory.items.filter (·.isEligible)

def PeerSide.opposite : PeerSide → PeerSide
  | peerA => peerB
  | peerB => peerA

/-! ## Plans -/

structure PlanAction where
  actionId : ActionId
  relativePath : PathBuf
  kind : PlanActionKind
  sourceSide : PeerSide
  size : Option UInt64
  deriving DecidableEq

/-- The inventory the item of an action is in. -/
def planInventory (mode : SyncMode) (source destination : SourceInventory)
    (action : PlanAction) : SourceInventory :=
  if action.kind = .removeDestination then destination
  else
    match mode, action.sourceSide with
    | .mirror, .peerB => destination
    | _, _ => source

structure OneWayPlan where
  mode : SyncMode
  options : ValidatedSyncOptions
  sourceInventory : SourceInventory
  destinationInventory : SourceInventory
  actions : List PlanAction
  numbered : actions.map (·.actionId) =
    (List.range actions.length).map fun i => UInt64.ofNat (i + 1)
  bounded : actions.length < 2 ^ 63
  covered : ∀ action ∈ actions,
    ((planInventory mode sourceInventory destinationInventory action).item
      action.relativePath).isSome = true

def OneWayPlan.inventory (plan : OneWayPlan) (action : PlanAction) : SourceInventory :=
  planInventory plan.mode plan.sourceInventory plan.destinationInventory action

theorem OneWayPlan.nodup_actionIds (plan : OneWayPlan) :
    (plan.actions.map (·.actionId)).Nodup := by
  rw [plan.numbered]
  refine List.Nodup.map_on (fun i hi j hj heq => ?_) List.nodup_range
  have hbound := plan.bounded
  have heq := congrArg UInt64.toNat heq
  rw [List.mem_range] at hi hj
  simp only [UInt64.toNat_ofNat'] at heq
  omega

/-- The number of an action is its own. -/
theorem OneWayPlan.eq_of_actionId (plan : OneWayPlan) {action action' : PlanAction}
    (h : action ∈ plan.actions) (h' : action' ∈ plan.actions)
    (hid : action.actionId = action'.actionId) : action = action' :=
  List.inj_on_of_nodup_map plan.nodup_actionIds h h' hid

structure ConfirmedPlan where
  plan : OneWayPlan
  profile : SyncProfile

/-- The deletion method a run freezes in its snapshot. -/
def ConfirmedPlan.frozenMethod (confirmed : ConfirmedPlan) : Option String :=
  confirmed.plan.options.deletionMethod.map encodeDeletionMethod

end SyncPlus
