import Mathlib.Data.List.Infix
import SyncPlus.Evidence

/-!
# Where recovered items and their records go

Safe Delete moves an item below its recovery root, at the relative path
it had, and writes a record of where the item came from beside it. The
record takes its name from the item with the extension replaced: in a
recovery folder a manifest in the item's own directory, in the native
Trash a file in the `info` directory two levels above the item. Two
items collide when one's record is the other's record, or is where the
other's item goes; and the removal of the one blocks that of the other
when it leaves a file where the other needs a directory. Both are read
off the names of the two items (`recoveryPaths_apart_iff`).
-/

namespace SyncPlus

/-! ## Errors and methods -/

inductive VerificationError where
  | io (reason : String)
  | cancelled
  | unsupportedItem
  | sourceChanged
  | sizeMismatch (expected actual : UInt64)
  | hashMismatch
  | sizeOverflow
  deriving Repr, DecidableEq

inductive SafeDeleteError where
  | invalidPlan (reason : String)
  | invalidAction (reason : String)
  | verification (error : VerificationError)
  | recoveryUnavailable (reason : String)
  | recoveryUncertain (reason : String)
  | io (reason : String)
  | storage (error : StorageError)
  deriving Repr, DecidableEq

/-- How a source is removed. `root` and `trash` are canonical: a recovery
folder is used by its canonical path, and so is the `files` directory of
the Trash, which may not itself be a symbolic link. -/
inductive RecoveryMethod where
  | verifiedRecoveryFolder (root : AbsolutePath)
  | nativeTrash (trash : AbsolutePath)
  | permanentRemoval
  deriving Repr, DecidableEq

def RecoveryMethod.deletionMethod : RecoveryMethod → DeletionMethod
  | verifiedRecoveryFolder _ => .trash
  | nativeTrash _ => .trash
  | permanentRemoval => .permanentRemoval

def RecoveryMethod.recoveryRoot : RecoveryMethod → Option AbsolutePath
  | verifiedRecoveryFolder root => some root
  | nativeTrash trash => some (trash ++ [asciiBytes "files"])
  | permanentRemoval => none

/-! ## The two paths of an item -/

/-- The relative path of an item: the directory it is in and its name. -/
structure ItemPath where
  directory : RelativePath
  name : Name
  valid : ∀ n ∈ directory ++ [name], ValidName n
  deriving DecidableEq

def ItemPath.relativePath (item : ItemPath) : RelativePath :=
  item.directory ++ [item.name]

/-- `RecoveryProvenance::sidecar_path`. A recovered item's path is absolute,
so it is never empty. -/
def sidecarPath (recovered : AbsolutePath) : AbsolutePath :=
  recovered.withExtension (asciiBytes "syncplus-manifest")

/-- The record of a native Trash target. -/
def nativeInfoPath (recoveryTarget : AbsolutePath) :
    Except SafeDeleteError AbsolutePath := do
  let above ← orError (recoveryTarget.parent.bind AbsolutePath.parent)
    (.recoveryUnavailable "native Trash target has no info directory")
  let infoRoot := above ++ [asciiBytes "info"]
  let name ← orError recoveryTarget.fileName
    (.recoveryUnavailable "native Trash target has no file name")
  return AbsolutePath.withExtension (infoRoot ++ [name]) (asciiBytes "trashinfo")

/-- The recovery target of an item and the record of its provenance, when
the method recovers it. -/
def recoveryPaths (method : RecoveryMethod) (item : ItemPath) :
    Except SafeDeleteError (Option (AbsolutePath × AbsolutePath)) :=
  match method with
  | .verifiedRecoveryFolder root =>
      let target := root ++ item.relativePath
      .ok (some (target, sidecarPath target))
  | .nativeTrash trash => do
      let target := trash ++ [asciiBytes "files"] ++ item.relativePath
      let info ← nativeInfoPath target
      return some (target, info)
  | .permanentRemoval => .ok none

def manifestName (item : ItemPath) : Name :=
  withExtensionName item.name (asciiBytes "syncplus-manifest")

def trashinfoName (item : ItemPath) : Name :=
  withExtensionName item.name (asciiBytes "trashinfo")

/-- The directory above the one that holds the item's target. -/
def aboveTarget (trash : AbsolutePath) (directory : RelativePath) : AbsolutePath :=
  if directory = [] then trash else trash ++ [asciiBytes "files"] ++ directory.dropLast

section

variable {item item' : ItemPath} {root trash : AbsolutePath}

theorem recoveryPaths_folder : recoveryPaths (.verifiedRecoveryFolder root) item =
    .ok (some (root ++ item.directory ++ [item.name],
      root ++ item.directory ++ [manifestName item])) := by
  simp only [recoveryPaths, ItemPath.relativePath, sidecarPath, ← List.append_assoc,
    AbsolutePath.withExtension_concat]
  rfl

theorem parent_target :
    AbsolutePath.parent (trash ++ [asciiBytes "files"] ++ item.directory) =
      some (aboveTarget trash item.directory) := by
  rcases List.eq_nil_or_concat' item.directory with h | ⟨init, last, h⟩
  · rw [h, List.append_nil, AbsolutePath.parent_concat]
    rfl
  · rw [h, ← List.append_assoc, AbsolutePath.parent_concat]
    simp [aboveTarget]

theorem recoveryPaths_native : recoveryPaths (.nativeTrash trash) item =
    .ok (some (trash ++ [asciiBytes "files"] ++ item.directory ++ [item.name],
      aboveTarget trash item.directory ++ [asciiBytes "info"] ++
        [trashinfoName item])) := by
  simp only [recoveryPaths, nativeInfoPath, ItemPath.relativePath]
  rw [← List.append_assoc _ item.directory [item.name], AbsolutePath.parent_concat,
    AbsolutePath.fileName_concat, Option.bind_some, parent_target]
  simp only [orError_some, ok_bind, AbsolutePath.withExtension_concat]
  rfl

end

/-! ## Placing one item after another -/

/-- What stands at a path of the recovery location: a directory, or what
the removal of an item put there, the item or its record. -/
inductive RecoveryEntry where
  | directory
  | file (item : ItemPath)
  deriving DecidableEq

abbrev RecoveryTree := AbsolutePath → Option RecoveryEntry

def RecoveryTree.isFile (tree : RecoveryTree) (path : AbsolutePath) : Bool :=
  match tree path with
  | some (.file _) => true
  | _ => false

/-- `create_dir_all`. -/
def createDirAll (tree : RecoveryTree) (path : AbsolutePath) : Option RecoveryTree :=
  if ∃ p ∈ path.inits, tree.isFile p then none
  else some fun p => if p <+: path then some .directory else tree p

/-- Creation without replacement, of a record or by a rename. -/
def createNew (item : ItemPath) (tree : RecoveryTree) (path : AbsolutePath) :
    Option RecoveryTree :=
  if tree path = none ∧ tree path.dropLast = some .directory then
    some fun p => if p = path then some (.file item) else tree p
  else none

/-- The record is written first, then the directories of the target are
opened or created and the item is put into its place. -/
def placeAt (item : ItemPath) (target record : AbsolutePath) (tree : RecoveryTree) :
    Option RecoveryTree := do
  let tree ← createDirAll tree record.dropLast
  let tree ← createNew item tree record
  let tree ← createDirAll tree target.dropLast
  createNew item tree target

/-- The recovery location after the removal of `item`. -/
def placeItem (method : RecoveryMethod) (item : ItemPath) (tree : RecoveryTree) :
    Option RecoveryTree :=
  match recoveryPaths method item with
  | .ok (some (target, record)) => placeAt item target record tree
  | _ => some tree

/-- Nothing stands at the path, and no file on the way to it. -/
def Free (tree : RecoveryTree) (path : AbsolutePath) : Prop :=
  tree path = none ∧ ∀ p, p <+: path → tree.isFile p = false

/-- The tree with an item and its record in place. -/
def placedTree (item : ItemPath) (target record : AbsolutePath) (tree : RecoveryTree) :
    RecoveryTree := fun p =>
  if p = target ∨ p = record then some (.file item)
  else if p <+: target ∨ p <+: record then some .directory
  else tree p

section

variable {item : ItemPath} {tree : RecoveryTree} {path target record : AbsolutePath}

theorem prefix_iff_dropLast (hpath : path ≠ []) {p : AbsolutePath} :
    p <+: path ↔ p = path ∨ p <+: path.dropLast := by
  conv_lhs => rw [← List.dropLast_append_getLast hpath]
  rw [List.prefix_concat_iff, List.dropLast_append_getLast]

theorem not_prefix_dropLast (hpath : path ≠ []) {p : AbsolutePath}
    (hlen : p.length = path.length) : ¬ p <+: path.dropLast := by
  intro h
  have hle := h.length_le
  have hpos := List.length_pos_of_ne_nil hpath
  rw [List.length_dropLast] at hle
  omega

theorem createDirAll_eq_some {tree' : RecoveryTree} :
    createDirAll tree path = some tree' ↔
      (∀ p, p <+: path → tree.isFile p = false) ∧
        tree' = fun p => if p <+: path then some .directory else tree p := by
  simp only [createDirAll]
  split
  · next h =>
    obtain ⟨p, hp, hfile⟩ := h
    simp only [reduceCtorEq, false_iff, not_and]
    intro hfree
    rw [hfree p ((List.mem_inits _ _).1 hp)] at hfile
    cases hfile
  · next h =>
    have hfree : ∀ p, p <+: path → tree.isFile p = false := fun p hp => by
      simpa using fun hfile => h ⟨p, (List.mem_inits _ _).2 hp, hfile⟩
    simp only [Option.some.injEq]
    exact ⟨fun heq => ⟨hfree, heq.symm⟩, fun heq => heq.2.symm⟩

theorem createNew_eq_some {tree' : RecoveryTree} :
    createNew item tree path = some tree' ↔
      tree path = none ∧ tree path.dropLast = some .directory ∧
        tree' = fun p => if p = path then some (.file item) else tree p := by
  simp only [createNew]
  split <;> grind

theorem free_iff (hpath : path ≠ []) :
    Free tree path ↔
      tree path = none ∧ ∀ p, p <+: path.dropLast → tree.isFile p = false := by
  refine and_congr_right fun hnone => ⟨fun h p hp => h p ?_, fun h p hp => ?_⟩
  · exact (prefix_iff_dropLast hpath).2 (.inr hp)
  · rcases (prefix_iff_dropLast hpath).1 hp with rfl | hp
    · simp [RecoveryTree.isFile, hnone]
    · exact h p hp

theorem placedTree_eq (htarget : target ≠ []) (hrecord : record ≠ [])
    (hrt : ¬ record <+: target.dropLast) :
    placedTree item target record tree = fun p =>
      if p = target then some (.file item)
      else if p <+: target.dropLast then some .directory
      else if p = record then some (.file item)
      else if p <+: record.dropLast then some .directory
      else tree p := by
  funext p
  simp only [placedTree, prefix_iff_dropLast htarget, prefix_iff_dropLast hrecord]
  by_cases ht : p = target
  · simp [ht]
  · by_cases hr : p = record
    · subst hr
      simp [ht, hrt]
    · by_cases htd : p <+: target.dropLast <;> simp [ht, hr, htd]

/-- **An item is placed exactly where its target and its record are free
and differ.** Both are as long, so neither lies below the other. -/
theorem placeAt_eq_some (htarget : target ≠ []) (hrecord : record ≠ [])
    (hlen : record.length = target.length) {tree' : RecoveryTree} :
    placeAt item target record tree = some tree' ↔
      target ≠ record ∧ Free tree target ∧ Free tree record ∧
        tree' = placedTree item target record tree := by
  have hrr := not_prefix_dropLast (p := record) hrecord rfl
  have htt := not_prefix_dropLast (p := target) htarget rfl
  have hrt := not_prefix_dropLast (p := record) htarget hlen
  have htr := not_prefix_dropLast (p := target) hrecord hlen.symm
  -- once the record is there, the way to the target holds no other file than before
  have hway : (∀ p, p <+: record.dropLast → tree.isFile p = false) →
      ∀ p, p <+: target.dropLast →
        RecoveryTree.isFile (fun q => if q = record then some (.file item)
          else if q <+: record.dropLast then some .directory else tree q) p =
            tree.isFile p := by
    intro hrecordWay p hp
    have hne : p ≠ record := fun h => hrt (h ▸ hp)
    by_cases hdir : p <+: record.dropLast
    · rw [hrecordWay p hdir]
      simp [RecoveryTree.isFile, hne, hdir]
    · simp [RecoveryTree.isFile, hne, hdir]
  rw [placedTree_eq htarget hrecord hrt]
  simp only [placeAt, bind, Option.bind_eq_some_iff, createDirAll_eq_some,
    createNew_eq_some, free_iff htarget, free_iff hrecord]
  constructor
  · rintro ⟨_, ⟨hrecordWay, rfl⟩, _, ⟨hrecordNone, -, rfl⟩, _, ⟨htargetWay, rfl⟩,
      htargetNone, -, rfl⟩
    simp only [hrr, htt, htr, if_false] at hrecordNone htargetNone
    have hne : target ≠ record := by
      rintro rfl
      simp at htargetNone
    rw [if_neg hne] at htargetNone
    exact ⟨hne, ⟨htargetNone, fun p hp => hway hrecordWay p hp ▸ htargetWay p hp⟩,
      ⟨hrecordNone, hrecordWay⟩, rfl⟩
  · rintro ⟨hne, ⟨htargetNone, htargetWay⟩, ⟨hrecordNone, hrecordWay⟩, rfl⟩
    refine ⟨_, ⟨hrecordWay, rfl⟩, _, ⟨?_, ?_, rfl⟩, _, ⟨?_, rfl⟩, ?_, ?_, rfl⟩
    · simpa [hrr] using hrecordNone
    · simp
    · exact fun p hp => (hway hrecordWay p hp).trans (htargetWay p hp)
    · simpa [htt, htr, hne] using htargetNone
    · simp

/-- **What stays free.** A free path is still free after the placing
unless one of it and the two placed paths lies on the way to the other. -/
theorem free_placedTree (htarget : Free tree target) (hrecord : Free tree record)
    (hpath : Free tree path) :
    Free (placedTree item target record tree) path ↔
      ∀ p ∈ [target, record], ¬ p <+: path ∧ ¬ path <+: p := by
  constructor
  · rintro ⟨hnone, hfile⟩ p hp
    have hplaced : placedTree item target record tree p = some (.file item) := by
      simp only [placedTree, if_pos (List.mem_pair.1 hp)]
    refine ⟨fun hway => ?_, fun hway => ?_⟩
    · have hno := hfile p hway
      rw [RecoveryTree.isFile, hplaced] at hno
      cases hno
    · have hon : path <+: target ∨ path <+: record := by
        rcases List.mem_pair.1 hp with rfl | rfl
        exacts [.inl hway, .inr hway]
      simp only [placedTree, if_pos hon] at hnone
      split at hnone <;> cases hnone
  · intro hapart
    obtain ⟨htp, hpt⟩ := hapart target (by simp)
    obtain ⟨hrp, hpr⟩ := hapart record (by simp)
    have hself : ∀ p, p <+: path → p ≠ target ∧ p ≠ record :=
      fun p hp => ⟨fun h => htp (h ▸ hp), fun h => hrp (h ▸ hp)⟩
    refine ⟨?_, fun p hp => ?_⟩
    · have hne := hself path List.prefix_rfl
      simp [placedTree, hne, hpt, hpr, hpath.1]
    · have hne := hself p hp
      by_cases hon : p <+: target ∨ p <+: record
      · simp [RecoveryTree.isFile, placedTree, hne, hon]
      · simpa [RecoveryTree.isFile, placedTree, hne, hon] using hpath.2 p hp

end

/-! ## Items that stay apart -/

/-- Target and record of the one item differ from both of the other. -/
def NoCollision (method : RecoveryMethod) (item item' : ItemPath) : Prop :=
  ∀ target record target' record',
    recoveryPaths method item = .ok (some (target, record)) →
    recoveryPaths method item' = .ok (some (target', record')) →
      target ≠ target' ∧ target ≠ record' ∧ record ≠ target' ∧ record ≠ record'

/-- Where each of the two can be removed, `item'` still can after `item`. -/
def NeverBlocks (method : RecoveryMethod) (item item' : ItemPath) : Prop :=
  ∀ tree, (placeItem method item tree).isSome → (placeItem method item' tree).isSome →
    ((placeItem method item tree).bind (placeItem method item')).isSome

/-- The record of `item'` would stand where `item` is recovered to. -/
def RecordTakes (item' item : ItemPath) : Prop :=
  item'.directory ≠ [] ∧
    item.directory = item'.directory.dropLast ++ [asciiBytes "info"] ∧
    item.name = trashinfoName item'

/-- In a recovery folder the items of one directory need different stems,
and none the name of another's manifest. In the Trash the items of one
`info` directory need different stems: all those at the top, and all
those whose directories lie in the same one. -/
def NamesApart (method : RecoveryMethod) (item item' : ItemPath) : Prop :=
  match method with
  | .verifiedRecoveryFolder _ =>
      item.directory = item'.directory →
        fileStem item.name ≠ fileStem item'.name ∧ item.name ≠ manifestName item' ∧
          item'.name ≠ manifestName item
  | .nativeTrash _ =>
      ((item.directory = [] ↔ item'.directory = []) →
        item.directory.dropLast = item'.directory.dropLast →
          fileStem item.name ≠ fileStem item'.name) ∧
        ¬ RecordTakes item item' ∧ ¬ RecordTakes item' item
  | .permanentRemoval => True

/-- The item's own record does not stand where the item goes. -/
def OwnApart (method : RecoveryMethod) (item : ItemPath) : Prop :=
  match method with
  | .verifiedRecoveryFolder _ => item.name ≠ manifestName item
  | .nativeTrash _ => ¬ RecordTakes item item
  | .permanentRemoval => True

/-- The files an item leaves below the directory of recovered items. -/
def filesLeft (method : RecoveryMethod) (item : ItemPath) : List RelativePath :=
  match method with
  | .verifiedRecoveryFolder _ =>
      [item.directory ++ [item.name], item.directory ++ [manifestName item]]
  | .nativeTrash _ =>
      (item.directory ++ [item.name]) :: if item.directory = [] then []
        else [item.directory.dropLast ++ [asciiBytes "info"] ++ [trashinfoName item]]
  | .permanentRemoval => []

/-- The directories an item needs there. -/
def directoriesNeeded (method : RecoveryMethod) (item : ItemPath) : List RelativePath :=
  match method with
  | .verifiedRecoveryFolder _ => [item.directory]
  | .nativeTrash _ =>
      item.directory :: if item.directory = [] then []
        else [item.directory.dropLast ++ [asciiBytes "info"]]
  | .permanentRemoval => []

/-- `item` leaves a file where `item'` needs a directory. -/
def OnTheWay (method : RecoveryMethod) (item item' : ItemPath) : Prop :=
  ∃ file ∈ filesLeft method item, ∃ directory ∈ directoriesNeeded method item',
    file <+: directory

/-- **Items that stay apart**: by their names, and, unless one of them
cannot be recovered for its own record, neither on the way to the other. -/
def Apart (method : RecoveryMethod) (item item' : ItemPath) : Prop :=
  NamesApart method item item' ∧
    (OwnApart method item → OwnApart method item' →
      ¬ OnTheWay method item item' ∧ ¬ OnTheWay method item' item)

section

variable {item item' : ItemPath} {root trash : AbsolutePath} {method : RecoveryMethod}
  {target record target' record' : AbsolutePath}

theorem ItemPath.ne_iff :
    item ≠ item' ↔ ¬ (item.directory = item'.directory ∧ item.name = item'.name) := by
  obtain ⟨_, _, _⟩ := item
  obtain ⟨_, _, _⟩ := item'
  simp

theorem append_concat_inj {base a b : AbsolutePath} {n m : Name} :
    base ++ a ++ [n] = base ++ b ++ [m] ↔ a = b ∧ n = m := by
  rw [List.append_assoc, List.append_assoc, List.append_cancel_left_eq,
    ← List.concat_eq_append, ← List.concat_eq_append, List.concat_inj]

theorem aboveTarget_inj (trash : AbsolutePath) {d d' : RelativePath} :
    aboveTarget trash d = aboveTarget trash d' ↔
      (d = [] ↔ d' = []) ∧ d.dropLast = d'.dropLast := by
  unfold aboveTarget
  by_cases h : d = [] <;> by_cases h' : d' = [] <;> simp [h, h']

theorem native_record_inj :
    aboveTarget trash item.directory ++ [asciiBytes "info"] ++ [trashinfoName item] =
        aboveTarget trash item'.directory ++ [asciiBytes "info"] ++
          [trashinfoName item'] ↔
      ((item.directory = [] ↔ item'.directory = []) ∧
        item.directory.dropLast = item'.directory.dropLast) ∧
          fileStem item.name = fileStem item'.name := by
  rw [← aboveTarget_inj trash, ← withExtensionName_inj (asciiBytes "trashinfo")]
  simp only [trashinfoName, ← List.concat_eq_append, List.concat_inj, and_true]

/-- The record of the native Trash is a target only below a directory. -/
theorem native_target_eq_record :
    trash ++ [asciiBytes "files"] ++ item.directory ++ [item.name] =
        aboveTarget trash item'.directory ++ [asciiBytes "info"] ++ [trashinfoName item'] ↔
      RecordTakes item' item := by
  unfold RecordTakes aboveTarget
  by_cases h : item'.directory = []
  · simp only [h, ne_eq, not_true, false_and, if_true, iff_false]
    rw [List.append_assoc trash, append_concat_inj, List.singleton_append]
    rintro ⟨heq, -⟩
    exact absurd (List.cons.inj heq).1 (by decide)
  · rw [if_neg h, List.append_assoc _ item'.directory.dropLast, append_concat_inj]
    simp [h]

theorem noCollision_iff
    (h : recoveryPaths method item = .ok (some (target, record)))
    (h' : recoveryPaths method item' = .ok (some (target', record'))) :
    NoCollision method item item' ↔
      target ≠ target' ∧ target ≠ record' ∧ record ≠ target' ∧ record ≠ record' := by
  refine ⟨fun hno => hno _ _ _ _ h h', fun hapart t r t' r' ht ht' => ?_⟩
  rw [h] at ht
  rw [h'] at ht'
  cases ht
  cases ht'
  exact hapart

theorem noCollision_iff_namesApart (hne : item ≠ item') :
    NoCollision method item item' ↔ NamesApart method item item' := by
  rw [ItemPath.ne_iff] at hne
  cases method with
  | verifiedRecoveryFolder root =>
    rw [noCollision_iff recoveryPaths_folder recoveryPaths_folder]
    simp only [ne_eq, append_concat_inj, manifestName, withExtensionName_inj, NamesApart]
    grind
  | nativeTrash trash =>
    rw [noCollision_iff recoveryPaths_native recoveryPaths_native]
    simp only [ne_eq, native_target_eq_record, native_record_inj, append_concat_inj,
      eq_comm (b := trash ++ [asciiBytes "files"] ++ item'.directory ++ [item'.name]),
      NamesApart]
    grind
  | permanentRemoval => simp [NoCollision, recoveryPaths, NamesApart]

/-! ## One removal after another -/

theorem recoveryPaths_length (h : recoveryPaths method item = .ok (some (target, record))) :
    target ≠ [] ∧ record ≠ [] ∧ record.length = target.length := by
  cases method with
  | verifiedRecoveryFolder root =>
    rw [recoveryPaths_folder] at h
    cases h
    simp
  | nativeTrash trash =>
    rw [recoveryPaths_native] at h
    cases h
    unfold aboveTarget
    split
    · next hd => simp [hd]
    · next hd =>
      have hpos := List.length_pos_of_ne_nil hd
      simp
      omega
  | permanentRemoval => cases h

theorem placeItem_eq_some (h : recoveryPaths method item = .ok (some (target, record)))
    {tree tree' : RecoveryTree} :
    placeItem method item tree = some tree' ↔
      target ≠ record ∧ Free tree target ∧ Free tree record ∧
        tree' = placedTree item target record tree := by
  obtain ⟨htarget, hrecord, hlen⟩ := recoveryPaths_length h
  rw [← placeAt_eq_some htarget hrecord hlen]
  simp only [placeItem, h]

theorem isSome_placeItem (h : recoveryPaths method item = .ok (some (target, record)))
    {tree : RecoveryTree} :
    (placeItem method item tree).isSome ↔
      target ≠ record ∧ Free tree target ∧ Free tree record := by
  rw [Option.isSome_iff_exists]
  simp only [placeItem_eq_some h]
  grind

theorem free_empty (path : AbsolutePath) : Free (fun _ => none) path :=
  ⟨rfl, fun _ _ => rfl⟩

/-- The empty tree, where both fit alone, is the worst case. -/
theorem neverBlocks_iff
    (h : recoveryPaths method item = .ok (some (target, record)))
    (h' : recoveryPaths method item' = .ok (some (target', record'))) :
    NeverBlocks method item item' ↔
      (target ≠ record → target' ≠ record' →
        ∀ p ∈ [target, record], ∀ q ∈ [target', record'], ¬ p <+: q ∧ ¬ q <+: p) := by
  have hafter : ∀ tree, target ≠ record → Free tree target → Free tree record →
      target' ≠ record' → Free tree target' → Free tree record' →
      (((placeItem method item tree).bind (placeItem method item')).isSome ↔
        ∀ p ∈ [target, record], ∀ q ∈ [target', record'], ¬ p <+: q ∧ ¬ q <+: p) := by
    intro tree hown ht hr hown' ht' hr'
    rw [(placeItem_eq_some h).2 ⟨hown, ht, hr, rfl⟩, Option.bind_some, isSome_placeItem h',
      free_placedTree ht hr ht', free_placedTree ht hr hr']
    simp only [List.mem_pair]
    grind
  constructor
  · intro hnever hown hown'
    refine (hafter _ hown (free_empty _) (free_empty _) hown' (free_empty _)
      (free_empty _)).1 (hnever _ ?_ ?_)
    · exact (isSome_placeItem h).2 ⟨hown, free_empty _, free_empty _⟩
    · exact (isSome_placeItem h').2 ⟨hown', free_empty _, free_empty _⟩
  · intro hapart tree hplaced hplaced'
    obtain ⟨hown, ht, hr⟩ := (isSome_placeItem h).1 hplaced
    obtain ⟨hown', ht', hr'⟩ := (isSome_placeItem h').1 hplaced'
    exact (hafter tree hown ht hr hown' ht' hr').2 (hapart hown hown')

theorem ownApart_iff (h : recoveryPaths method item = .ok (some (target, record))) :
    OwnApart method item ↔ target ≠ record := by
  cases method with
  | verifiedRecoveryFolder root =>
    rw [recoveryPaths_folder] at h
    cases h
    simp [OwnApart]
  | nativeTrash trash =>
    rw [recoveryPaths_native] at h
    cases h
    rw [ne_eq, native_target_eq_record]
    rfl
  | permanentRemoval => cases h

theorem onTheWay_iff
    (h : recoveryPaths method item = .ok (some (target, record)))
    (h' : recoveryPaths method item' = .ok (some (target', record'))) :
    OnTheWay method item item' ↔
      ∃ p ∈ [target, record], ∃ q ∈ [target', record'], p <+: q.dropLast := by
  cases method with
  | verifiedRecoveryFolder root =>
    rw [recoveryPaths_folder] at h h'
    cases h
    cases h'
    simp [OnTheWay, filesLeft, directoriesNeeded, List.append_assoc,
      List.prefix_append_right_inj]
  | nativeTrash trash =>
    rw [recoveryPaths_native] at h h'
    cases h
    cases h'
    have hdirs : asciiBytes "files" ≠ asciiBytes "info" := by decide
    simp only [List.mem_cons, List.not_mem_nil, or_false, exists_eq_or_imp,
      exists_eq_left, List.dropLast_concat]
    by_cases hd : item.directory = [] <;> by_cases hd' : item'.directory = [] <;>
      simp [OnTheWay, filesLeft, directoriesNeeded, aboveTarget, hd, hd', hdirs,
        hdirs.symm, List.append_assoc, List.prefix_append_right_inj, List.cons_prefix_cons]
  | permanentRemoval => cases h

theorem recoveryPaths_cases (method : RecoveryMethod) :
    method = .permanentRemoval ∨
      ∀ item, ∃ target record, recoveryPaths method item = .ok (some (target, record)) := by
  cases method with
  | verifiedRecoveryFolder root => exact .inr fun _ => ⟨_, _, recoveryPaths_folder⟩
  | nativeTrash trash => exact .inr fun _ => ⟨_, _, recoveryPaths_native⟩
  | permanentRemoval => exact .inl rfl

/-- **Two items stay apart exactly by their names.** Target and record of
two distinct items all differ, and neither removal makes the other fail,
if and only if the names of the two are `Apart`. -/
theorem recoveryPaths_apart_iff (method : RecoveryMethod) (item item' : ItemPath)
    (hne : item ≠ item') :
    (NoCollision method item item' ∧ NeverBlocks method item item' ∧
        NeverBlocks method item' item) ↔
      Apart method item item' := by
  rw [Apart, ← noCollision_iff_namesApart hne]
  refine and_congr_right fun hno => ?_
  rcases recoveryPaths_cases method with rfl | hpaths
  · simp [NeverBlocks, placeItem, recoveryPaths, OnTheWay, filesLeft]
  obtain ⟨target, record, h⟩ := hpaths item
  obtain ⟨target', record', h'⟩ := hpaths item'
  obtain ⟨ht, hr, -⟩ := recoveryPaths_length h
  obtain ⟨ht', hr', -⟩ := recoveryPaths_length h'
  obtain ⟨htt, htr, hrt, hrr⟩ := (noCollision_iff h h').1 hno
  rw [neverBlocks_iff h h', neverBlocks_iff h' h, ownApart_iff h, ownApart_iff h',
    onTheWay_iff h h', onTheWay_iff h' h]
  -- distinct paths meet only below the directory of one of them
  simp only [List.mem_pair, prefix_iff_dropLast ht, prefix_iff_dropLast hr,
    prefix_iff_dropLast ht', prefix_iff_dropLast hr', forall_eq_or_imp, forall_eq,
    exists_eq_or_imp, exists_eq_left]
  grind

instance (item' item : ItemPath) : Decidable (RecordTakes item' item) :=
  inferInstanceAs (Decidable (_ ∧ _ ∧ _))

instance (method : RecoveryMethod) (item item' : ItemPath) :
    Decidable (NamesApart method item item') :=
  match method with
  | .verifiedRecoveryFolder _ => inferInstanceAs (Decidable (_ → _ ∧ _ ∧ _))
  | .nativeTrash _ => inferInstanceAs (Decidable (((_ ↔ _) → _ → _) ∧ ¬ _ ∧ ¬ _))
  | .permanentRemoval => inferInstanceAs (Decidable True)

instance (method : RecoveryMethod) (item : ItemPath) : Decidable (OwnApart method item) :=
  match method with
  | .verifiedRecoveryFolder _ => inferInstanceAs (Decidable (_ ≠ _))
  | .nativeTrash _ => inferInstanceAs (Decidable (¬ RecordTakes _ _))
  | .permanentRemoval => inferInstanceAs (Decidable True)

instance (method : RecoveryMethod) (item item' : ItemPath) :
    Decidable (OnTheWay method item item') :=
  inferInstanceAs (Decidable (∃ file ∈ filesLeft _ _, ∃ directory ∈ directoriesNeeded _ _, _))

instance (method : RecoveryMethod) (item item' : ItemPath) :
    Decidable (Apart method item item') :=
  inferInstanceAs (Decidable (_ ∧ (_ → _ → ¬ _ ∧ ¬ _)))

/-! ### Two items of one directory -/

/-- A name below `docs`. -/
def docsItem (name : String) (valid : ValidName (asciiBytes name)) : ItemPath where
  directory := [asciiBytes "docs"]
  name := asciiBytes name
  valid := by
    intro n hn
    rcases List.mem_pair.1 hn with rfl | rfl
    · decide
    · exact valid

theorem recoveryPaths_apart_notes :
    docsItem "a.txt" (by decide) ≠ docsItem "b.txt" (by decide) ∧
      NoCollision (.nativeTrash [asciiBytes "Trash"]) (docsItem "a.txt" (by decide))
        (docsItem "b.txt" (by decide)) ∧
      NeverBlocks (.nativeTrash [asciiBytes "Trash"]) (docsItem "a.txt" (by decide))
        (docsItem "b.txt" (by decide)) := by
  have hne : docsItem "a.txt" (by decide) ≠ docsItem "b.txt" (by decide) := by decide
  have happart := (recoveryPaths_apart_iff (.nativeTrash [asciiBytes "Trash"]) _ _ hne).2
    (by decide)
  exact ⟨hne, happart.1, happart.2.1⟩

/-- Two files of one directory with one stem share their record. -/
theorem recoveryPaths_collide :
    ¬ ∀ method item item', item ≠ item' →
      NoCollision method item item' ∧ NeverBlocks method item item' := by
  intro hall
  have h := (hall (.verifiedRecoveryFolder [asciiBytes "recovery"])
    (docsItem "a.txt" (by decide)) (docsItem "a.md" (by decide)) (by decide)).1
  exact (h _ _ _ _ recoveryPaths_folder recoveryPaths_folder).2.2.2 (by decide)

end

end SyncPlus
