import SyncPlus.ArtifactNames
import SyncPlus.Lib.Interruptions

/-!
# Places in the peer roots

What an operation on local peers does to the places in their roots: which of them has an
item. Each call of the file system makes, moves or removes the item at a place, or does
nothing; what is read, hashed, set or compared is not told apart, only whether it went
well. A directory moves with all that is below it.

What the next walk of a peer lists (`Listed`) is what has an item and no name, on the way
from the root, that is one of SyncPlus's own. A call changes the lists at the places it
names and below them only, and at such a place it does when it succeeds.
-/

namespace SyncPlus

/-! ## Places and items -/

/-- What is put or removed at a place. -/
inductive PlaceKind where
  | requested
  | sibling (kind : SiblingKind)
  | preservedTemporary
  | sourceGuard
  /-- What a removal keeps in its recovery folder. -/
  | recovery
  /-- A directory that is missing on the way to a requested path. -/
  | missingDirectory
  deriving DecidableEq

/-- What is there is listed by a walk, and not asked for. -/
def PlaceKind.unrecognised : PlaceKind → Bool
  | sibling .failed | preservedTemporary | sourceGuard | recovery => true
  | _ => false

structure Place where
  kind : PlaceKind
  path : AbsolutePath
  deriving DecidableEq

/-- Where there is an item. -/
abbrev PlacedItems := AbsolutePath → Bool

namespace PlacedItems

def set (items : PlacedItems) (path : AbsolutePath) (present : Bool) : PlacedItems :=
  fun p => if p = path then present else items p

/-- What is at the path and below it. -/
def below (items : PlacedItems) (path : AbsolutePath) : List Name → Bool :=
  fun names => items (path ++ names)

/-- Put this at the path and below it. -/
def graft (items : PlacedItems) (path : AbsolutePath) (tree : List Name → Bool) : PlacedItems :=
  fun p => if path <+: p then tree (p.drop path.length) else items p

variable {items : PlacedItems} {path p : AbsolutePath} {tree : List Name → Bool}

@[simp] theorem set_self {present : Bool} : items.set path present path = present := if_pos rfl

theorem set_of_ne {present : Bool} (h : p ≠ path) : items.set path present p = items p :=
  if_neg h

@[simp] theorem graft_self : items.graft path tree path = tree [] := by
  unfold graft
  rw [if_pos (List.prefix_refl path), List.drop_length]

theorem graft_of_not (h : ¬ path <+: p) : items.graft path tree p = items p := if_neg h

end PlacedItems

/-! ## Calls -/

/-- A call of the file system, or what else is asked between two calls. -/
inductive FileCall where
  /-- Whatever is read, set or compared at a path, and the callback that cancels. -/
  | look (path : AbsolutePath)
  /-- The next number of a process's count. -/
  | count
  | create (target : Place)
  | makeDirectory (target : Place)
  /-- The transfer, which writes its staged item. -/
  | transfer (staged : Place)
  /-- A rename without replacement. -/
  | rename (source target : Place)
  | moveFile (source target : Place)
  | link (source target : Place)
  | removeFile (target : Place)
  | removeAll (target : Place)

structure FileAnswer where
  fails : Bool
  /-- The item that was looked at is a regular file. -/
  regular : Bool
  /-- What was looked at could be read, and is not as it should be. -/
  differs : Bool
  /-- Two paths are on one file system. -/
  sameFilesystem : Bool
  sequence : UInt64
  /-- What a transfer leaves at its staged item and below, and which items a removal
  that fails leaves. -/
  left : List Name → Bool

namespace FileCall

/-- The places whose items the call is about. -/
def changes : FileCall → List Place
  | look _ | count => []
  | create target | makeDirectory target | removeFile target | removeAll target => [target]
  | transfer staged => [staged]
  | rename source target | moveFile source target => [source, target]
  | link _ target => [target]

def succeeds (call : FileCall) (answer : FileAnswer) (items : PlacedItems) : Bool :=
  !answer.fails &&
    match call with
    | look _ | count | transfer _ => true
    | create target | makeDirectory target => !items target.path
    | rename source target | moveFile source target | link source target =>
        items source.path && !items target.path
    | removeFile target | removeAll target => items target.path

def effect (call : FileCall) (answer : FileAnswer) (items : PlacedItems) : PlacedItems :=
  match call with
  | look _ | count => items
  | transfer staged => items.graft staged.path answer.left
  | create target | makeDirectory target | link _ target =>
      if call.succeeds answer items then items.set target.path true else items
  | moveFile source target =>
      if call.succeeds answer items then (items.set source.path false).set target.path true
      else items
  | rename source target =>
      if call.succeeds answer items then
        (items.graft source.path fun _ => false).graft target.path (items.below source.path)
      else items
  | removeFile target =>
      if call.succeeds answer items then items.set target.path false else items
  | removeAll target =>
      if call.succeeds answer items then items.graft target.path fun _ => false
      -- what was removed before it failed stays removed
      else items.graft target.path fun names => items.below target.path names && answer.left names

/-- Why a call does not succeed. -/
def obstacle (call : FileCall) (answer : FileAnswer) (items : PlacedItems) : IoErrorKind :=
  if answer.fails then .other
  else
    match call with
    | create _ | makeDirectory _ => .alreadyExists
    | rename source _ | moveFile source _ | link source _ =>
        if items source.path then .alreadyExists else .notFound
    | _ => .notFound

end FileCall

/-! ## What a walk lists -/

/-- The roots of the peers. None lies in another. -/
structure PeerRoots where
  roots : List AbsolutePath
  apart : ∀ root ∈ roots, ∀ root' ∈ roots, root <+: root' → root = root'

namespace PeerRoots

variable (peers : PeerRoots) (lossy : LossyNames) (requested : List AbsolutePath)

/-- The names below a root that its walk lists. -/
def Listed (items : PlacedItems) (root : AbsolutePath) (names : List Name) : Prop :=
  items (root ++ names) = true ∧ ∀ name ∈ names, isSyncplusInternalArtifact lossy name = false

/-- Neither a requested path, nor below one, nor on the way to one. -/
def Unrequested (path : AbsolutePath) : Prop := ∀ r ∈ requested, ¬ r <+: path ∧ ¬ path <+: r

/-- SyncPlus's own items stay hidden, where it was asked for the requested paths: what is
new in a root has a name of its own above it or at it, and the next walk of a peer lists
what one before it did. -/
structure ArtifactsHidden (before after : PlacedItems) : Prop where
  recognised : ∀ root ∈ peers.roots, ∀ names, Unrequested requested (root ++ names) →
    before (root ++ names) = false → after (root ++ names) = true →
      ∃ name ∈ names, isSyncplusInternalArtifact lossy name = true
  listed : ∀ root ∈ peers.roots, ∀ names, Unrequested requested (root ++ names) →
    (Listed lossy before root names ↔ Listed lossy after root names)

/-- A place that a walk lists when there is an item. -/
def Shown (path : AbsolutePath) : Prop :=
  (∃ root ∈ peers.roots, ∃ names, path = root ++ names ∧
    ∀ name ∈ names, isSyncplusInternalArtifact lossy name = false) ∧ Unrequested requested path

/-- Every place that a walk lists is as it was. -/
def SameShown (before after : PlacedItems) : Prop :=
  ∀ path, peers.Shown lossy requested path → after path = before path

instance : DecidablePred (Unrequested requested) := fun _ =>
  inferInstanceAs (Decidable (∀ r ∈ requested, _ ∧ _))

variable {peers lossy requested} {before after : PlacedItems} {path p : AbsolutePath}

theorem shown_iff : peers.Shown lossy requested path ↔
    (∃ root ∈ peers.roots, root <+: path ∧
      ∀ name ∈ path.drop root.length, isSyncplusInternalArtifact lossy name = false) ∧
      Unrequested requested path := by
  refine and_congr_left fun _ => exists_congr fun root => and_congr_right fun _ => ?_
  constructor
  · rintro ⟨names, rfl, hnames⟩
    rw [List.drop_left]
    exact ⟨List.prefix_append root names, hnames⟩
  · rintro ⟨⟨names, rfl⟩, hnames⟩
    rw [List.drop_left] at hnames
    exact ⟨names, rfl, hnames⟩

instance decidableShown : Decidable (peers.Shown lossy requested path) :=
  decidable_of_iff _ shown_iff.symm

theorem artifactsHidden_iff : peers.ArtifactsHidden lossy requested before after ↔
    peers.SameShown lossy requested before after := by
  constructor
  · rintro h path ⟨⟨root, hroot, names, rfl, hnames⟩, hpath⟩
    have hlisted := h.listed root hroot names hpath
    unfold Listed at hlisted
    rw [and_iff_left hnames, and_iff_left hnames] at hlisted
    exact Bool.eq_iff_iff.mpr hlisted.symm
  · intro h
    have hsame : ∀ root ∈ peers.roots, ∀ names, Unrequested requested (root ++ names) →
        (∀ name ∈ names, isSyncplusInternalArtifact lossy name = false) →
          after (root ++ names) = before (root ++ names) :=
      fun root hroot names hpath hnames => h _ ⟨⟨root, hroot, names, rfl, hnames⟩, hpath⟩
    refine ⟨fun root hroot names hpath hbefore hafter => ?_, fun root hroot names hpath => ?_⟩
    · by_contra hnone
      have hnames : ∀ name ∈ names, isSyncplusInternalArtifact lossy name = false :=
        fun name hname => Bool.eq_false_iff.mpr fun hartifact => hnone ⟨name, hname, hartifact⟩
      have hpresent := hsame root hroot names hpath hnames
      rw [hbefore, hafter] at hpresent
      cases hpresent
    · refine and_congr_left fun hnames => ?_
      rw [hsame root hroot names hpath hnames]

/-- Only one root leads to a path. -/
theorem root_unique {root root' : AbsolutePath} (hroot : root ∈ peers.roots)
    (hroot' : root' ∈ peers.roots) (h : root <+: p) (h' : root' <+: p) : root = root' := by
  rcases List.prefix_or_prefix_of_prefix h h' with hle | hle
  · exact peers.apart root hroot root' hroot' hle
  · exact (peers.apart root' hroot' root hroot hle).symm

variable (peers lossy requested) in
/-- No walk lists what is at the path or below it. -/
def Covered (path : AbsolutePath) : Prop :=
  ∀ p, path <+: p → ¬ peers.Shown lossy requested p

theorem covered_of_requested (h : path ∈ requested) : peers.Covered lossy requested path :=
  fun _ hbelow hshown => (hshown.2 path h).1 hbelow

theorem not_shown_of_onTheWay {r : AbsolutePath} (hr : r ∈ requested) (h : path <+: r) :
    ¬ peers.Shown lossy requested path :=
  fun hshown => (hshown.2 r hr).2 h

/-- A path with a name of SyncPlus's own. -/
theorem covered_of_artifact {root : AbsolutePath} {names : List Name} {name : Name}
    (hroot : root ∈ peers.roots) (hname : name ∈ names)
    (hartifact : isSyncplusInternalArtifact lossy name = true) :
    peers.Covered lossy requested (root ++ names) := by
  rintro p hbelow ⟨⟨root', hroot', names', rfl, hnames⟩, -⟩
  obtain rfl : root = root' := root_unique hroot hroot'
    ((List.prefix_append root names).trans hbelow) (List.prefix_append root' names')
  obtain ⟨more, rfl⟩ := (List.prefix_append_right_inj root).mp hbelow
  rw [hnames name (List.mem_append_left more hname)] at hartifact
  cases hartifact

/-- What is below a path in a root is left out with it, unless a requested path is. -/
theorem covered_of_not_shown {root : AbsolutePath} {names : List Name} (hroot : root ∈ peers.roots)
    (hrequested : ∀ r ∈ requested, root ++ names <+: r → r <+: root ++ names)
    (h : ¬ peers.Shown lossy requested (root ++ names)) :
    peers.Covered lossy requested (root ++ names) := by
  by_cases hnames : ∀ name ∈ names, isSyncplusInternalArtifact lossy name = false
  · have hnot : ¬ Unrequested requested (root ++ names) :=
      fun hunrequested => h ⟨⟨root, hroot, names, rfl, hnames⟩, hunrequested⟩
    unfold Unrequested at hnot
    push Not at hnot
    obtain ⟨r, hr, hway⟩ := hnot
    have hbelow : r <+: root ++ names := by
      by_contra habove
      exact habove (hrequested r hr (hway habove))
    exact fun p hp hshown => (hshown.2 r hr).1 (hbelow.trans hp)
  · push Not at hnames
    obtain ⟨name, hname, hartifact⟩ := hnames
    exact covered_of_artifact hroot hname (by simpa using hartifact)

end PeerRoots

/-! ## What a call does to the lists -/

namespace FileCall

open PeerRoots

section

variable (peers : PeerRoots) (lossy : LossyNames) (requested : List AbsolutePath)

/-- A place that the walks leave out, unless its kind is listed. -/
def PlaceFits (place : Place) : Prop :=
  place.kind.unrecognised = false → ¬ peers.Shown lossy requested place.path

/-- The places of a call are what their kinds say. What is moved, filled or removed with
all below it is left out by the walks, or moved to a place that is listed. -/
def Fits : FileCall → Prop
  | look _ | count => True
  | create target | makeDirectory target | link _ target | removeFile target =>
      PlaceFits peers lossy requested target
  | moveFile source target =>
      PlaceFits peers lossy requested source ∧ PlaceFits peers lossy requested target
  | rename source target =>
      peers.Covered lossy requested source.path ∧
        (peers.Covered lossy requested target.path ∨
          target.kind.unrecognised = true ∧ peers.Shown lossy requested target.path)
  | transfer target | removeAll target => peers.Covered lossy requested target.path

/-- The call does not succeed at a place that is listed. -/
def Spares (call : FileCall) (answer : FileAnswer) (items : PlacedItems) : Prop :=
  ∀ place ∈ call.changes, place.kind.unrecognised = true →
    peers.Shown lossy requested place.path → call.succeeds answer items = false

end

variable {peers : PeerRoots} {lossy : LossyNames} {requested : List AbsolutePath}
  {call : FileCall} {answer : FileAnswer} {items : PlacedItems} {path : AbsolutePath}

instance decidableSpares : Decidable (call.Spares peers lossy requested answer items) :=
  inferInstanceAs (Decidable (∀ place ∈ call.changes, _ → _ → _))

theorem ne_of_spares {place : Place} (hfits : PlaceFits peers lossy requested place)
    (hspares : call.Spares peers lossy requested answer items) (hplace : place ∈ call.changes)
    (hsucceeds : call.succeeds answer items = true) (hpath : peers.Shown lossy requested path) :
    path ≠ place.path := by
  rintro rfl
  cases hkind : place.kind.unrecognised with
  | false => exact hfits hkind hpath
  | true =>
      rw [hspares place hplace hkind hpath] at hsucceeds
      cases hsucceeds

/-- **A call that spares the listed places changes no list.** -/
theorem effect_of_spares (hfits : call.Fits peers lossy requested)
    (hspares : call.Spares peers lossy requested answer items)
    (hpath : peers.Shown lossy requested path) : call.effect answer items path = items path := by
  cases call with
  | look _ => rfl
  | count => rfl
  | create target | makeDirectory target | link _ target | removeFile target =>
      unfold effect
      dsimp only
      split
      · rename_i hsucceeds
        exact PlacedItems.set_of_ne
          (ne_of_spares hfits hspares (List.mem_singleton_self _) hsucceeds hpath)
      · rfl
  | transfer staged => exact PlacedItems.graft_of_not fun hle => hfits path hle hpath
  | rename source target =>
      obtain ⟨hsource, htarget⟩ := hfits
      unfold effect
      dsimp only
      split
      · rename_i hsucceeds
        have hcovered : peers.Covered lossy requested target.path := by
          rcases htarget with hcovered | ⟨hkind, hshown⟩
          · exact hcovered
          · have hfails := hspares target (.tail _ (.head _)) hkind hshown
            rw [hsucceeds] at hfails
            cases hfails
        rw [PlacedItems.graft_of_not fun hle => hcovered path hle hpath,
          PlacedItems.graft_of_not fun hle => hsource path hle hpath]
      · rfl
  | moveFile source target =>
      obtain ⟨hsource, htarget⟩ := hfits
      unfold effect
      dsimp only
      split
      · rename_i hsucceeds
        rw [PlacedItems.set_of_ne
            (ne_of_spares htarget hspares (.tail _ (.head _)) hsucceeds hpath),
          PlacedItems.set_of_ne (ne_of_spares hsource hspares (.head _) hsucceeds hpath)]
      · rfl
  | removeAll target =>
      unfold effect
      dsimp only
      split <;> exact PlacedItems.graft_of_not fun hle => hfits path hle hpath

/-- **A call that succeeds at a listed place changes a list.** -/
theorem effect_of_not_spares (hfits : call.Fits peers lossy requested)
    (h : ¬ call.Spares peers lossy requested answer items) :
    ∃ path, peers.Shown lossy requested path ∧ call.effect answer items path ≠ items path := by
  unfold Spares at h
  push Not at h
  obtain ⟨place, hplace, hkind, hshown, hsucceeds⟩ := h
  have hsucceeds : call.succeeds answer items = true := by simpa using hsucceeds
  refine ⟨place.path, hshown, ?_⟩
  have hplaced := (Bool.and_eq_true_iff.mp hsucceeds).2
  cases call with
  | look _ => cases hplace
  | count => cases hplace
  | create target | makeDirectory target =>
      obtain rfl := List.mem_singleton.mp hplace
      unfold effect
      dsimp only
      rw [if_pos hsucceeds, PlacedItems.set_self, (Bool.not_eq_true' _).mp hplaced]
      nofun
  | link source target =>
      obtain rfl := List.mem_singleton.mp hplace
      obtain ⟨-, hvacant⟩ := Bool.and_eq_true_iff.mp hplaced
      unfold effect
      dsimp only
      rw [if_pos hsucceeds, PlacedItems.set_self, (Bool.not_eq_true' _).mp hvacant]
      nofun
  | removeFile target =>
      obtain rfl := List.mem_singleton.mp hplace
      have hpresent : items place.path = true := hplaced
      unfold effect
      dsimp only
      rw [if_pos hsucceeds, PlacedItems.set_self, hpresent]
      nofun
  | transfer target | removeAll target =>
      obtain rfl := List.mem_singleton.mp hplace
      exact absurd hshown (hfits _ (List.prefix_refl _))
  | rename source target =>
      obtain ⟨hpresent, hvacant⟩ := Bool.and_eq_true_iff.mp hplaced
      rcases List.mem_cons.mp hplace with rfl | hplace
      · exact absurd hshown (hfits.1 _ (List.prefix_refl _))
      · obtain rfl := List.mem_singleton.mp hplace
        unfold effect
        dsimp only
        rw [if_pos hsucceeds, PlacedItems.graft_self, PlacedItems.below, List.append_nil, hpresent,
          (Bool.not_eq_true' _).mp hvacant]
        nofun
  | moveFile source target =>
      obtain ⟨hpresent, hvacant⟩ := Bool.and_eq_true_iff.mp hplaced
      have hvacant := (Bool.not_eq_true' _).mp hvacant
      unfold effect
      dsimp only
      rw [if_pos hsucceeds]
      rcases List.mem_cons.mp hplace with rfl | hplace
      · have hne : place.path ≠ target.path := by
          intro heq
          rw [heq, hvacant] at hpresent
          cases hpresent
        rw [PlacedItems.set_of_ne hne, PlacedItems.set_self, hpresent]
        nofun
      · obtain rfl := List.mem_singleton.mp hplace
        rw [PlacedItems.set_self, hvacant]
        nofun

variable {before : PlacedItems}

theorem sameShown_effect (hfits : call.Fits peers lossy requested)
    (h : peers.SameShown lossy requested before items)
    (hspares : call.Spares peers lossy requested answer items) :
    peers.SameShown lossy requested before (call.effect answer items) := by
  intro path hpath
  rw [effect_of_spares hfits hspares hpath, h path hpath]

theorem not_sameShown_effect (hfits : call.Fits peers lossy requested)
    (h : peers.SameShown lossy requested before items)
    (hnot : ¬ call.Spares peers lossy requested answer items) :
    ¬ peers.SameShown lossy requested before (call.effect answer items) := by
  intro hafter
  obtain ⟨path, hpath, hne⟩ := effect_of_not_spares hfits hnot
  exact hne ((hafter path hpath).trans (h path hpath).symm)

end FileCall

end SyncPlus
