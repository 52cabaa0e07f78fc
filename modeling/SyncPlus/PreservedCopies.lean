import Mathlib.Data.Finset.Dedup
import Mathlib.Data.Finset.Insert
import SyncPlus.DestinationNames
import SyncPlus.Lib.Numerals
import SyncPlus.Lib.Searches
import SyncPlus.LocalMount

/-!
# The names of preserved copies

Where both sides of a conflict are to be preserved, each peer gets a copy of the other's
file beside its own, under a name that nothing there has. What is taken is kept as keys,
which a peer whose file system ignores case or normalises names compares as it would
(`PreservedPathInventory`). A name that is planned is taken from then on, and so is the
path of the conflict itself, on both peers. So over any run of calls every generated path
differs, for its peer, from all that was there or planned before it
(`PreservedCopyPlanner.names_never_collide`).
-/

namespace SyncPlus

/-- `Path::extension` of a name: what follows its last dot, unless that opens the name. -/
def fileExtension (name : Name) : Option Name :=
  match beforeLastDot name with
  | none | some [] => none
  | some _ => some (name.reverse.takeWhile (· ≠ dot)).reverse

inductive PreservedCopyError where
  | unsafeRelativePath (path : PathBuf)
  | missingFileName (path : PathBuf)
  | nonUtf8FileName (path : PathBuf)
  | invalidGeneratedPath (path : PathBuf) (rule : NamingRule)
  | noAvailableName (path : PathBuf) (sourcePeer : PeerSide)
  deriving DecidableEq

/-- The collision keys of the paths that are taken on each peer. -/
structure PreservedPathInventory where
  peerAPolicy : DestinationNamingPolicy
  peerBPolicy : DestinationNamingPolicy
  peerA : Finset (List Char)
  peerB : Finset (List Char)
  deriving DecidableEq

inductive PreservedCopyReviewState where
  | reviewLater
  deriving DecidableEq

/-- A generated path, on the target peer, of the original one on the source peer. -/
structure PreservedCopyReportItem where
  originalPath : PathBuf
  generatedPath : PathBuf
  sourcePeer : PeerSide
  targetPeer : PeerSide
  resolution : ConflictResolution
  reviewState : PreservedCopyReviewState
  deriving DecidableEq

structure PreservedCopyPlan where
  resolution : ConflictResolution
  copies : List PreservedCopyReportItem
  deriving DecidableEq

structure PreservedCopyPlanner where
  occupied : PreservedPathInventory
  deriving DecidableEq

section

variable (forms : TextForms) (lossy : LossyNames)

/-- `validate_generated_path`: which rule a generated path breaks. -/
def DestinationNamingPolicy.validateGeneratedPath (policy : DestinationNamingPolicy)
    (relative : PathBuf) : Option NamingRule :=
  (policy.validateRelative forms lossy relative relative).map (·.rule)

namespace PreservedPathInventory

def newWithPolicies (peerAPolicy peerBPolicy : DestinationNamingPolicy)
    (peerA peerB : List PathBuf) : PreservedPathInventory where
  peerAPolicy
  peerBPolicy
  peerA := (peerA.map (peerAPolicy.key forms lossy)).toFinset
  peerB := (peerB.map (peerBPolicy.key forms lossy)).toFinset

def policy (inventory : PreservedPathInventory) : PeerSide → DestinationNamingPolicy
  | .peerA => inventory.peerAPolicy
  | .peerB => inventory.peerBPolicy

def keys (inventory : PreservedPathInventory) : PeerSide → Finset (List Char)
  | .peerA => inventory.peerA
  | .peerB => inventory.peerB

/-- The collision key of a path on a peer. -/
def keyOn (inventory : PreservedPathInventory) (peer : PeerSide) (path : PathBuf) : List Char :=
  (inventory.policy peer).key forms lossy path

def contains (inventory : PreservedPathInventory) (peer : PeerSide) (path : PathBuf) : Bool :=
  inventory.keyOn forms lossy peer path ∈ inventory.keys peer

def reserve (inventory : PreservedPathInventory) (peer : PeerSide) (path : PathBuf) :
    PreservedPathInventory :=
  match peer with
  | .peerA => { inventory with
      peerA := insert (inventory.keyOn forms lossy .peerA path) inventory.peerA }
  | .peerB => { inventory with
      peerB := insert (inventory.keyOn forms lossy .peerB path) inventory.peerB }

end PreservedPathInventory

/-! ## Allocating a copy -/

/-- `saturating_add(1)`. -/
def suffixPlusOne (suffix : UInt32) : UInt32 :=
  (checkedNext suffix).getD suffix

def peerLabel : PeerSide → List Char
  | .peerA => "Peer A".toList
  | .peerB => "Peer B".toList

/-- The name with the label of the source peer, and from the second round on a number. -/
def generatedName (stem : String) (extension : Option String) (sourcePeer : PeerSide)
    (suffix : UInt32) : List Char :=
  let labelled := stem.toList ++ [' ', '('] ++ peerLabel sourcePeer ++ [')']
  let decorated :=
    if suffix = 0 then labelled
    else labelled ++ [' ', '('] ++ decimal (suffixPlusOne suffix).toNat ++ [')']
  match extension with
  | some extension => decorated ++ '.' :: extension.toList
  | none => decorated

/-- One round of the loop, of the path that it generates. -/
def tryPath (inventory : PreservedPathInventory) (sourcePeer targetPeer : PeerSide)
    (originalPath : PathBuf) (resolution : ConflictResolution) (generatedPath : PathBuf) :
    Option (Except PreservedCopyError (PreservedCopyReportItem × PreservedPathInventory)) :=
  match (inventory.policy targetPeer).validateGeneratedPath forms lossy generatedPath with
  | some rule => some (.error (.invalidGeneratedPath generatedPath rule))
  | none =>
      if inventory.contains forms lossy targetPeer generatedPath then none
      else some (.ok (⟨originalPath, generatedPath, sourcePeer, targetPeer, resolution, .reviewLater⟩,
        inventory.reserve forms lossy targetPeer generatedPath))

/-- The loop of `allocate_copy`. -/
def allocateNamed (inventory : PreservedPathInventory) (sourcePeer targetPeer : PeerSide)
    (originalPath : PathBuf) (resolution : ConflictResolution) (generated : UInt32 → PathBuf) :
    Except PreservedCopyError (PreservedCopyReportItem × PreservedPathInventory) :=
  searchFrom
    (fun suffix => tryPath forms lossy inventory sourcePeer targetPeer originalPath resolution
      (generated suffix))
    (.error (.noAvailableName originalPath sourcePeer)) 0

def allocateCopy (inventory : PreservedPathInventory) (sourcePeer targetPeer : PeerSide)
    (originalPath : PathBuf) (resolution : ConflictResolution) :
    Except PreservedCopyError (PreservedCopyReportItem × PreservedPathInventory) := do
  let name ← orError originalPath.fileName (.missingFileName originalPath)
  let fileName ← orError (PathBuf.mk name).toText (.nonUtf8FileName originalPath)
  let namePath := PathBuf.ofText fileName
  let stem ← orError ((namePath.fileName.map fileStem).bind fun stem => (PathBuf.mk stem).toText)
    (.nonUtf8FileName originalPath)
  let extension := (namePath.fileName.bind fileExtension).bind fun extension =>
    (PathBuf.mk extension).toText
  let parent := originalPath.parent.getD ⟨[]⟩
  allocateNamed forms lossy inventory sourcePeer targetPeer originalPath resolution fun suffix =>
    parent.join ⟨textBytes (generatedName stem extension sourcePeer suffix)⟩

def validateRelativePath (path : PathBuf) : Except PreservedCopyError Unit :=
  ensure (¬(path.isEmpty = true ∨ path.isAbsolute = true ∨
    path.components.any (fun component => !component.isNormal) = true)) (.unsafeRelativePath path)

/-! ## The planner -/

namespace PreservedCopyPlanner

/-- Both copies of a conflict, and what is taken with them. -/
def planCopies (occupied : PreservedPathInventory) (action : ConflictResolutionAction) :
    Except PreservedCopyError (PreservedCopyPlan × PreservedPathInventory) := do
  validateRelativePath action.relativePath
  let planned := (occupied.reserve forms lossy .peerA action.relativePath).reserve
    forms lossy .peerB action.relativePath
  let (peerACopy, planned) ←
    allocateCopy forms lossy planned .peerA .peerB action.relativePath action.resolution
  let (peerBCopy, planned) ←
    allocateCopy forms lossy planned .peerB .peerA action.relativePath action.resolution
  return (⟨action.resolution, [peerACopy, peerBCopy]⟩, planned)

def plan (planner : PreservedCopyPlanner) (action : ConflictResolutionAction) :
    Except PreservedCopyError (Option PreservedCopyPlan) × PreservedCopyPlanner :=
  if action.resolution = .preserveBoth ∨ action.resolution = .renamePreserveForReview then
    match planCopies forms lossy planner.occupied action with
    | .ok (plan, occupied) => (.ok (some plan), ⟨occupied⟩)
    | .error error => (.error error, planner)
  else (.ok none, planner)

/-- One call after another. -/
def planEach : List ConflictResolutionAction → PreservedCopyPlanner →
    List (Except PreservedCopyError (Option PreservedCopyPlan)) × PreservedCopyPlanner
  | [], planner => ([], planner)
  | action :: rest, planner =>
      let (result, planner) := planner.plan forms lossy action
      let (results, planner) := planEach rest planner
      (result :: results, planner)

end PreservedCopyPlanner

end

/-! ## What is taken -/

namespace PreservedPathInventory

variable {forms : TextForms} {lossy : LossyNames} {inventory : PreservedPathInventory}
  {peer peer' : PeerSide} {path : PathBuf}

@[simp] theorem policy_reserve :
    (inventory.reserve forms lossy peer path).policy = inventory.policy := by
  cases peer <;> rfl

@[simp] theorem keyOn_reserve :
    (inventory.reserve forms lossy peer path).keyOn forms lossy = inventory.keyOn forms lossy := by
  unfold keyOn
  rw [policy_reserve]

theorem mem_keys_reserve {key : List Char} :
    key ∈ (inventory.reserve forms lossy peer path).keys peer' ↔
      (peer = peer' ∧ key = inventory.keyOn forms lossy peer' path) ∨
        key ∈ inventory.keys peer' := by
  cases peer <;> cases peer' <;> simp [reserve, keys]

theorem contains_iff : inventory.contains forms lossy peer path = true ↔
    inventory.keyOn forms lossy peer path ∈ inventory.keys peer :=
  decide_eq_true_iff

end PreservedPathInventory

/-- A path that is taken on a peer: an original one, or one that was generated. -/
structure Reservation where
  peer : PeerSide
  path : PathBuf
  generated : Bool
  deriving DecidableEq

/-- What a plan takes, in the order it does. -/
def PreservedCopyPlan.reservations (plan : PreservedCopyPlan) (originalPath : PathBuf) :
    List Reservation :=
  ⟨.peerA, originalPath, false⟩ :: ⟨.peerB, originalPath, false⟩ ::
    plan.copies.map fun copy => ⟨copy.targetPeer, copy.generatedPath, true⟩

section

variable (forms : TextForms) (lossy : LossyNames)

def PreservedPathInventory.reserveAll (inventory : PreservedPathInventory)
    (reservations : List Reservation) : PreservedPathInventory :=
  reservations.foldl (fun inventory taken => inventory.reserve forms lossy taken.peer taken.path)
    inventory

/-- None of these generated paths is taken at the time it is generated. -/
def AllFresh (inventory : PreservedPathInventory) : List Reservation → Prop
  | [] => True
  | taken :: rest =>
      (taken.generated = true → inventory.contains forms lossy taken.peer taken.path = false) ∧
        AllFresh (inventory.reserve forms lossy taken.peer taken.path) rest

/-- A generated path has, on its peer, another key than a path that is taken before it. -/
def Differ (inventory : PreservedPathInventory) (earlier later : Reservation) : Prop :=
  later.generated = true → earlier.peer = later.peer →
    inventory.keyOn forms lossy later.peer earlier.path ≠
      inventory.keyOn forms lossy later.peer later.path

/-- What a call takes. -/
def reservationsOf (action : ConflictResolutionAction) :
    Except PreservedCopyError (Option PreservedCopyPlan) → List Reservation
  | .ok (some plan) => plan.reservations action.relativePath
  | _ => []

/-- What is taken over a sequence of calls. -/
def PreservedCopyPlanner.taken (planner : PreservedCopyPlanner)
    (actions : List ConflictResolutionAction) : List Reservation :=
  (actions.zip (planner.planEach forms lossy actions).1).flatMap fun (action, result) =>
    reservationsOf action result

end

section

variable {forms : TextForms} {lossy : LossyNames} {inventory : PreservedPathInventory}
  {reservations later : List Reservation}

theorem allFresh_append : AllFresh forms lossy inventory (reservations ++ later) ↔
    AllFresh forms lossy inventory reservations ∧
      AllFresh forms lossy (inventory.reserveAll forms lossy reservations) later := by
  induction reservations generalizing inventory with
  | nil => exact (and_iff_right trivial).symm
  | cons taken rest ih =>
      rw [List.cons_append, AllFresh, AllFresh, ih, and_assoc]
      rfl

theorem differ_reserve {peer : PeerSide} {path : PathBuf} :
    Differ forms lossy (inventory.reserve forms lossy peer path) =
      Differ forms lossy inventory := by
  unfold Differ
  rw [PreservedPathInventory.keyOn_reserve]

/-- **Fresh paths are distinct**: from those that are taken, and from those before them. -/
theorem AllFresh.distinct (h : AllFresh forms lossy inventory reservations) :
    reservations.Pairwise (Differ forms lossy inventory) ∧
      ∀ taken ∈ reservations, taken.generated = true →
        inventory.keyOn forms lossy taken.peer taken.path ∉ inventory.keys taken.peer := by
  induction reservations generalizing inventory with
  | nil => exact ⟨.nil, List.forall_mem_nil _⟩
  | cons taken rest ih =>
      obtain ⟨hhead, hrest⟩ := h
      obtain ⟨hpairs, hfresh⟩ := ih hrest
      rw [differ_reserve] at hpairs
      rw [PreservedPathInventory.keyOn_reserve] at hfresh
      refine ⟨List.pairwise_cons.mpr ⟨fun later hlater hgenerated hpeer hkey => ?_, hpairs⟩, ?_⟩
      · refine hfresh later hlater hgenerated (PreservedPathInventory.mem_keys_reserve.mpr ?_)
        exact .inl ⟨hpeer, hkey.symm⟩
      · refine List.forall_mem_cons.mpr ⟨fun hgenerated hmem => ?_, ?_⟩
        · have hfree := hhead hgenerated
          rw [PreservedPathInventory.contains_iff.mpr hmem] at hfree
          cases hfree
        · intro later hlater hgenerated hmem
          exact hfresh later hlater hgenerated
            (PreservedPathInventory.mem_keys_reserve.mpr (.inr hmem))

/-! ## One call -/

/-- What an allocated copy is, and what is taken after it. -/
structure Allocated (forms : TextForms) (lossy : LossyNames)
    (inventory : PreservedPathInventory) (targetPeer : PeerSide) (originalPath : PathBuf)
    (copy : PreservedCopyReportItem) (next : PreservedPathInventory) : Prop where
  target : copy.targetPeer = targetPeer
  original : copy.originalPath = originalPath
  free : inventory.contains forms lossy targetPeer copy.generatedPath = false
  next : next = inventory.reserve forms lossy targetPeer copy.generatedPath

variable {sourcePeer targetPeer : PeerSide} {originalPath : PathBuf}
  {resolution : ConflictResolution} {copy : PreservedCopyReportItem}
  {next : PreservedPathInventory}

theorem tryPath_eq_ok {generatedPath : PathBuf}
    (h : tryPath forms lossy inventory sourcePeer targetPeer originalPath resolution
      generatedPath = some (.ok (copy, next))) :
    Allocated forms lossy inventory targetPeer originalPath copy next := by
  unfold tryPath at h
  split at h
  · cases h
  · split at h
    · cases h
    · rename_i hfree
      cases h
      exact ⟨rfl, rfl, Bool.eq_false_iff.mpr hfree, rfl⟩

theorem allocateCopy_eq_ok
    (h : allocateCopy forms lossy inventory sourcePeer targetPeer originalPath resolution =
      .ok (copy, next)) :
    Allocated forms lossy inventory targetPeer originalPath copy next := by
  obtain ⟨name, -, h⟩ := bind_eq_ok.mp h
  obtain ⟨fileName, -, h⟩ := bind_eq_ok.mp h
  obtain ⟨stem, -, h⟩ := bind_eq_ok.mp h
  obtain ⟨suffix, htry⟩ := searchFrom_eq h nofun
  exact tryPath_eq_ok htry

namespace PreservedCopyPlanner

variable {planner : PreservedCopyPlanner} {action : ConflictResolutionAction}

/-- What a plan takes was free, and is taken after it. -/
theorem planCopies_eq_ok {plan : PreservedCopyPlan}
    (h : planCopies forms lossy inventory action = .ok (plan, next)) :
    AllFresh forms lossy inventory (plan.reservations action.relativePath) ∧
      next = inventory.reserveAll forms lossy (plan.reservations action.relativePath) ∧
      ∀ copy ∈ plan.copies, copy.originalPath = action.relativePath := by
  obtain ⟨-, -, h⟩ := bind_eq_ok.mp h
  obtain ⟨⟨peerACopy, afterA⟩, hA, h⟩ := bind_eq_ok.mp h
  obtain ⟨⟨peerBCopy, afterB⟩, hB, h⟩ := bind_eq_ok.mp h
  cases h
  obtain ⟨htargetA, horiginalA, hfreeA, rfl⟩ := allocateCopy_eq_ok hA
  obtain ⟨htargetB, horiginalB, hfreeB, rfl⟩ := allocateCopy_eq_ok hB
  refine ⟨⟨nofun, nofun, fun _ => ?_, fun _ => ?_, trivial⟩, ?_, ?_⟩
  · dsimp only
    rw [htargetA]
    exact hfreeA
  · dsimp only
    rw [htargetA, htargetB]
    exact hfreeB
  · simp [PreservedPathInventory.reserveAll, PreservedCopyPlan.reservations, htargetA, htargetB]
  · simp [horiginalA, horiginalB]

/-- A call takes what its plan does: free paths, or nothing at all. -/
theorem plan_step (forms : TextForms) (lossy : LossyNames) (planner : PreservedCopyPlanner)
    (action : ConflictResolutionAction) :
    AllFresh forms lossy planner.occupied
        (reservationsOf action (planner.plan forms lossy action).1) ∧
      (planner.plan forms lossy action).2.occupied = planner.occupied.reserveAll forms lossy
        (reservationsOf action (planner.plan forms lossy action).1) := by
  unfold plan
  split
  · cases hcopies : planCopies forms lossy planner.occupied action with
    | error error => exact ⟨trivial, rfl⟩
    | ok planned =>
        obtain ⟨hfresh, hnext, -⟩ := planCopies_eq_ok hcopies
        exact ⟨hfresh, hnext⟩
  · exact ⟨trivial, rfl⟩

/-- A call that fails takes nothing. -/
theorem plan_eq_error {error : PreservedCopyError}
    (h : (planner.plan forms lossy action).1 = .error error) :
    (planner.plan forms lossy action).2 = planner := by
  unfold plan at h ⊢
  split at h
  · rename_i hresolution
    rw [if_pos hresolution]
    split at h
    · cases h
    · rfl
  · cases h

/-! ## Whole runs -/

/-- **What is taken over a run of calls was free**, each path at its time. -/
theorem taken_fresh (forms : TextForms) (lossy : LossyNames) (planner : PreservedCopyPlanner)
    (actions : List ConflictResolutionAction) :
    AllFresh forms lossy planner.occupied (planner.taken forms lossy actions) := by
  induction actions generalizing planner with
  | nil => exact trivial
  | cons action rest ih =>
      obtain ⟨hfresh, hnext⟩ := plan_step forms lossy planner action
      have hrest := ih (planner.plan forms lossy action).2
      rw [hnext] at hrest
      exact allFresh_append.mpr ⟨hfresh, hrest⟩

end PreservedCopyPlanner

end

/-! ## No two names collide -/

/-- What is to hold of the names that are generated with these policies, where these paths
are there at the start. -/
structure NamesNeverCollide (forms : TextForms) (lossy : LossyNames)
    (policies : PeerSide → DestinationNamingPolicy) (present : PeerSide → List PathBuf)
    (taken : List Reservation) : Prop where
  present : ∀ later ∈ taken, later.generated = true → ∀ path ∈ present later.peer,
    (policies later.peer).key forms lossy path ≠ (policies later.peer).key forms lossy later.path
  earlier : taken.Pairwise fun earlier later => later.generated = true →
    earlier.peer = later.peer → (policies later.peer).key forms lossy earlier.path ≠
      (policies later.peer).key forms lossy later.path

/-- The loop of `allocate_copy` ends, for this inventory and these names, with its last
round. -/
def AllocationEnds (forms : TextForms) (lossy : LossyNames)
    (inventory : PreservedPathInventory) (sourcePeer targetPeer : PeerSide)
    (originalPath : PathBuf) (resolution : ConflictResolution)
    (generated : UInt32 → PathBuf) : Prop :=
  let round := fun suffix => tryPath forms lossy inventory sourcePeer targetPeer originalPath
    resolution (generated suffix)
  ∃ last, StopsAt round 0 last ∧
    allocateNamed forms lossy inventory sourcePeer targetPeer originalPath resolution generated =
      (round last).getD (.error (.noAvailableName originalPath sourcePeer))

theorem PreservedPathInventory.mem_keys_newWithPolicies {forms : TextForms} {lossy : LossyNames}
    {policies : PeerSide → DestinationNamingPolicy} {present : PeerSide → List PathBuf}
    {peer : PeerSide} {path : PathBuf} (hpath : path ∈ present peer) :
    (policies peer).key forms lossy path ∈ (newWithPolicies forms lossy (policies .peerA)
      (policies .peerB) (present .peerA) (present .peerB)).keys peer := by
  cases peer <;> exact List.mem_toFinset.mpr (List.mem_map_of_mem hpath)

/-- **Preserved-copy names never collide**, whatever the policies of the peers, the paths
that are there, and the actions: not with these paths, not with an original path, and not
with each other. A call that fails takes nothing, and every search for a name ends. -/
theorem PreservedCopyPlanner.names_never_collide (forms : TextForms) (lossy : LossyNames)
    (policies : PeerSide → DestinationNamingPolicy) (present : PeerSide → List PathBuf)
    (actions : List ConflictResolutionAction) :
    NamesNeverCollide forms lossy policies present
        ((PreservedCopyPlanner.mk (.newWithPolicies forms lossy (policies .peerA)
          (policies .peerB) (present .peerA) (present .peerB))).taken forms lossy actions) ∧
      (∀ (planner : PreservedCopyPlanner) (action : ConflictResolutionAction) error,
        (planner.plan forms lossy action).1 = .error error →
          (planner.plan forms lossy action).2 = planner) ∧
      ∀ inventory sourcePeer targetPeer originalPath resolution generated,
        AllocationEnds forms lossy inventory sourcePeer targetPeer originalPath resolution
          generated := by
  refine ⟨?_, fun planner action error => plan_eq_error, ?_⟩
  · generalize hplanner : PreservedCopyPlanner.mk (.newWithPolicies forms lossy
      (policies .peerA) (policies .peerB) (present .peerA) (present .peerB)) = planner
    have hkeyOn : ∀ peer path, planner.occupied.keyOn forms lossy peer path =
        (policies peer).key forms lossy path := by
      subst hplanner
      intro peer path
      cases peer <;> rfl
    obtain ⟨hearlier, hfree⟩ := (taken_fresh forms lossy planner actions).distinct
    refine ⟨fun later hlater hgenerated path hpath hkey => ?_, ?_⟩
    · refine hfree later hlater hgenerated ?_
      rw [hkeyOn, ← hkey, ← hplanner]
      exact PreservedPathInventory.mem_keys_newWithPolicies hpath
    · refine hearlier.imp fun hdiffer hgenerated hpeer => ?_
      rw [← hkeyOn, ← hkeyOn]
      exact hdiffer hgenerated hpeer
  · intro inventory sourcePeer targetPeer originalPath resolution generated
    exact exists_stopsAt 0

end SyncPlus
