import SyncPlus.PrecheckEntries
import SyncPlus.RealDirectories

/-!
# The names a precheck compares

How the precheck looks for names that the destination cannot tell apart. It lists
the source with the exclusions and the selected destination without them, checks
each name of the source against the rules of the destination's file system, and
compares the keys of all (`DestinationNamingPolicy.findConflicts`). When it reports
nothing, the listed names of the source have keys of their own, and an entry of the
selected destination with one of these keys has that very path
(`findConflicts_eq_nil`).
-/

namespace SyncPlus

/-- What the libraries for text do: compatibility normalisation and lower case. -/
structure TextForms where
  nfkc : List Char → List Char
  toLowercase : List Char → List Char

structure DestinationNamingPolicy where
  caseInsensitive : Bool
  unicodeNormalization : Bool
  maxComponentBytes : Option Nat
  maxPathBytes : Option Nat
  reservedNames : List (List Char)
  invalidCharacters : List Char
  rejectControlCharacters : Bool
  rejectTrailingDotOrSpace : Bool
  deriving DecidableEq

def normalizeText (forms : TextForms) (value : List Char)
    (caseInsensitive unicodeNormalization : Bool) : List Char :=
  let normalized := if unicodeNormalization then forms.nfkc value else value
  if caseInsensitive then forms.toLowercase normalized else normalized

/-- `char::is_control`. -/
def isControl (c : Char) : Bool := c.toNat ≤ 0x1f || (0x7f ≤ c.toNat && c.toNat ≤ 0x9f)

def trimEndDotsAndSpaces (value : List Char) : List Char :=
  (value.reverse.dropWhile fun c => c = '.' || c = ' ').reverse

namespace DestinationNamingPolicy

variable (policy : DestinationNamingPolicy) (forms : TextForms) (lossy : LossyNames)

def keyComponent (value : List Char) : List Char :=
  normalizeText forms value policy.caseInsensitive policy.unicodeNormalization

def key (path : PathBuf) : List Char :=
  ['/'].intercalate (path.components.map fun c => policy.keyComponent forms (lossy.component c))

def reservedNameKey (value : List Char) : List Char :=
  policy.keyComponent forms ((trimEndDotsAndSpaces value).takeWhile (· ≠ '.'))

/-- What is wrong with one name. -/
def validateComponent (name : List Char) : Option NamingRule :=
  if policy.maxComponentBytes.any fun maximum => maximum < (String.ofList name).utf8ByteSize then
    some .componentTooLong
  else if policy.invalidCharacters.any fun c => name.contains c then some .invalidCharacter
  else if policy.rejectControlCharacters && name.any isControl then some .invalidCharacter
  else if policy.rejectTrailingDotOrSpace && name.getLast?.any (fun c => c = '.' || c = ' ') then
    some .trailingDotOrSpace
  else if policy.reservedNames.any fun reserved =>
      policy.reservedNameKey forms reserved = policy.reservedNameKey forms name then
    some .reservedName
  else none

def validateRelative (relative destination : PathBuf) : Option NamingConflict :=
  if policy.maxPathBytes.any fun maximum => maximum < destination.bytes.length then
    some ⟨relative, destination, none, .pathTooLong⟩
  else
    (relative.components.findSome? fun component =>
      policy.validateComponent forms (lossy.component component)).map fun rule =>
        ⟨relative, destination, none, rule⟩

/-- The rule two names of the source break together. -/
def collisionRule (relative existing : PathBuf) : NamingRule :=
  if policy.unicodeNormalization = true ∧
      normalizeText forms (pathForMatching lossy relative) false true =
        normalizeText forms (pathForMatching lossy existing) false true then
    .unicodeNormalizationCollision
  else .caseInsensitiveCollision

/-- The keys of the source so far, each with its first path. -/
abbrev SourceKeys := List (List Char × PathBuf)

def SourceKeys.get (keys : SourceKeys) (key : List Char) : Option PathBuf :=
  (keys.find? fun entry => entry.1 = key).map Prod.snd

/-- One entry of the source in the loop of `find_conflicts`. -/
def sourceStep (destination : PathBuf) (state : List NamingConflict × SourceKeys)
    (relative : PathBuf) : List NamingConflict × SourceKeys :=
  let conflicts :=
    state.1 ++ (policy.validateRelative forms lossy relative (destination.join relative)).toList
  let key := policy.key forms lossy relative
  match SourceKeys.get state.2 key with
  | some existing => (conflicts ++ [⟨relative, destination.join relative,
      some (destination.join existing), policy.collisionRule forms lossy relative existing⟩],
      state.2)
  | none => (conflicts, (key, relative) :: state.2)

/-- One entry of the destination. -/
def destinationConflict (destination : PathBuf) (keys : SourceKeys) (relative : PathBuf) :
    Option NamingConflict :=
  (SourceKeys.get keys (policy.key forms lossy relative)).bind fun source =>
    if relative.same source then none
    else some ⟨source, destination.join source, some (destination.join relative),
      .caseInsensitiveCollision⟩

/-- `find_conflicts`, of a policy that is that of the destination. -/
def findConflicts (exclusions : List String) (tree : PathBuf → FileTree)
    (source destination : PathBuf) : Except PrecheckError (List NamingConflict) := do
  let sourceEntries ← WalkScope.collectEntries ⟨lossy, exclusions⟩ source (tree source)
  let listed : Except PrecheckError (List PathBuf) :=
    if (tree destination).root.isSome then
      WalkScope.collectEntries ⟨lossy, []⟩ destination (tree destination)
    else .ok []
  let destinationEntries ← listed
  let state := sourceEntries.foldl (policy.sourceStep forms lossy destination) ([], [])
  return state.1 ++
    destinationEntries.filterMap (policy.destinationConflict forms lossy destination state.2)

end DestinationNamingPolicy

/-! ## Without conflicts -/

section

variable {policy : DestinationNamingPolicy} {forms : TextForms} {lossy : LossyNames}
  {destination : PathBuf}

open DestinationNamingPolicy

theorem sourceStep_eq {state : List NamingConflict × SourceKeys} {relative : PathBuf}
    (h : (policy.sourceStep forms lossy destination state relative).1 = []) :
    state.1 = [] ∧ SourceKeys.get state.2 (policy.key forms lossy relative) = none ∧
      policy.sourceStep forms lossy destination state relative =
        ([], (policy.key forms lossy relative, relative) :: state.2) := by
  unfold sourceStep at h ⊢
  dsimp only at h ⊢
  cases hget : SourceKeys.get state.2 (policy.key forms lossy relative) with
  | some existing => simp [hget] at h
  | none =>
      rw [hget] at h
      obtain ⟨hstate, hvalid⟩ := List.append_eq_nil_iff.mp h
      exact ⟨hstate, rfl, by simp [hstate, hvalid]⟩

/-- Without conflicts the keys of the source are its entries' and all different. -/
theorem foldl_sourceStep (entries : List PathBuf)
    (h : (entries.foldl (policy.sourceStep forms lossy destination) ([], [])).1 = []) :
    (entries.foldl (policy.sourceStep forms lossy destination) ([], [])).2 =
        (entries.map fun p => (policy.key forms lossy p, p)).reverse ∧
      (entries.map (policy.key forms lossy)).Nodup := by
  induction entries using List.reverseRecOn with
  | nil => exact ⟨rfl, List.nodup_nil⟩
  | append_singleton entries relative ih =>
      rw [List.foldl_append, List.foldl_cons, List.foldl_nil] at h ⊢
      obtain ⟨hbefore, hnew, heq⟩ := sourceStep_eq h
      obtain ⟨hkeys, hnodup⟩ := ih hbefore
      refine ⟨?_, ?_⟩
      · rw [heq, hkeys]
        simp
      · rw [List.map_append, List.map_singleton, ← List.concat_eq_append]
        refine hnodup.concat fun hmem => ?_
        obtain ⟨p, hp, hkey⟩ := List.mem_map.mp hmem
        rw [SourceKeys.get, Option.map_eq_none_iff, List.find?_eq_none, hkeys] at hnew
        have hentry := hnew (policy.key forms lossy p, p)
          (List.mem_reverse.mpr (List.mem_map.mpr ⟨p, hp, rfl⟩))
        exact hentry (decide_eq_true hkey)

/-- **What a precheck without conflicts has compared**: the listed names of the source
have different keys, and an entry of the destination that has one of them is at the
same path. -/
theorem findConflicts_eq_nil {exclusions : List String} {tree : PathBuf → FileTree}
    {source : PathBuf}
    (h : policy.findConflicts forms lossy exclusions tree source destination = .ok []) :
    ∃ entries, WalkScope.collectEntries ⟨lossy, exclusions⟩ source (tree source) = .ok entries ∧
      (∀ p ∈ entries, ∀ q ∈ entries, policy.key forms lossy p = policy.key forms lossy q →
        p = q) ∧
      ∀ entry ∈ (tree destination).entries.located, (tree destination).root.isSome = true →
        ∀ p ∈ entries, policy.key forms lossy (pathOf entry.1) = policy.key forms lossy p →
          (pathOf entry.1).same p = true := by
  obtain ⟨sourceEntries, hsource, h⟩ := bind_eq_ok.mp h
  obtain ⟨destinationEntries, hdestination, h⟩ := bind_eq_ok.mp h
  obtain ⟨hconflicts, hentries⟩ := List.append_eq_nil_iff.mp (Except.ok.inj h)
  obtain ⟨hkeys, hnodup⟩ := foldl_sourceStep sourceEntries hconflicts
  refine ⟨sourceEntries, hsource, fun p hp q hq hkey => ?_, ?_⟩
  · exact List.inj_on_of_nodup_map hnodup hp hq hkey
  · intro entry hentry hroot p hp hkey
    rw [if_pos hroot] at hdestination
    have hskipped : ∀ (relative : PathBuf) (names : List Name) (itemType : ItemType),
        WalkScope.skippedAt ⟨lossy, []⟩ relative names itemType = false := by
      intro relative names itemType
      induction names generalizing relative with
      | nil => rfl
      | cons name names ih =>
          cases names with
          | nil => rfl
          | cons second names => exact ih (relative.join ⟨name⟩)
    have hmem := (WalkScope.mem_collectEntries hdestination).mpr
      ⟨entry, hentry, hskipped _ _ _, rfl⟩
    have hnone := List.filterMap_eq_nil_iff.mp hentries _ hmem
    have hget : SourceKeys.get (sourceEntries.foldl
        (policy.sourceStep forms lossy destination) ([], [])).2
          (policy.key forms lossy (pathOf entry.1)) = some p := by
      rw [hkeys, SourceKeys.get, hkey]
      cases hfind : ((sourceEntries.map fun q => (policy.key forms lossy q, q)).reverse).find?
          fun found => found.1 = policy.key forms lossy p with
      | none =>
          have hall := List.find?_eq_none.mp hfind (policy.key forms lossy p, p)
            (List.mem_reverse.mpr (List.mem_map.mpr ⟨p, hp, rfl⟩))
          simp at hall
      | some found =>
          have hfound := List.mem_of_find?_eq_some hfind
          obtain ⟨q, hq, rfl⟩ := List.mem_map.mp (List.mem_reverse.mp hfound)
          have hsame := List.find?_some hfind
          have hsame : policy.key forms lossy q = policy.key forms lossy p := by simpa using hsame
          rw [List.inj_on_of_nodup_map hnodup hq hp hsame]
          rfl
    unfold destinationConflict at hnone
    rw [hget, Option.bind_some] at hnone
    by_contra hdiffer
    rw [if_neg hdiffer] at hnone
    cases hnone

end

end SyncPlus
