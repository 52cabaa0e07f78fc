import Mathlib.Data.List.Induction
import SyncPlus.Path
import SyncPlus.Lib.Overlay

/-!
# Paths as keys

Sets and maps of paths. A path is compared by its components, so a set of
paths is a list in the order of the components with one path for each
(`pathSet`), and a map of items finds an item by the components of its
path. Joining a name to a path adds one component at its end
(`components_join_name`); the paths of a walk are made so, one name after
another (`pathOf`), and are told apart by their names.
-/

namespace SyncPlus

open Std (ExtTreeMap)

/-! ## The order of components -/

/-- A component as a list of numbers, in the order components have: the
root, `.`, `..`, then the names by their bytes. -/
def Component.rank : Component → List Nat
  | rootDir => [0]
  | curDir => [1]
  | parentDir => [2]
  | normal name => 3 :: name.map UInt8.toNat

theorem Component.rank_inj {c d : Component} : c.rank = d.rank ↔ c = d := by
  refine ⟨fun h => ?_, fun h => h ▸ rfl⟩
  cases c <;> cases d <;> simp_all [rank]
  exact List.map_injective_iff.mpr (fun _ _ h => UInt8.toNat_inj.mp h) h

instance : Ord Component := ⟨fun c d => compare c.rank d.rank⟩

instance : Std.TransOrd Component where
  eq_swap {c d} := Std.OrientedOrd.eq_swap (a := c.rank) (b := d.rank)
  isLE_trans {c d e} h h' :=
    Std.TransOrd.isLE_trans (a := c.rank) (b := d.rank) (c := e.rank) h h'

instance : Std.LawfulEqOrd Component where
  compare_self := Std.ReflOrd.compare_self (α := List Nat)
  eq_of_compare h := Component.rank_inj.mp (Std.LawfulEqOrd.eq_of_compare h)

/-- `BTreeSet<PathBuf>`, as the list its iterator gives. -/
def pathSet (paths : List PathBuf) : List PathBuf :=
  intoValues (insertAll PathBuf.components ∅ paths)

/-- `BTreeMap<PathBuf, T>::get`, of the map collected from a list. -/
def getByPath {ι : Type} (path : ι → PathBuf) (items : List ι) (p : PathBuf) : Option ι :=
  (insertAll (fun i => (path i).components) ∅ items)[p.components]?

theorem sortedBy_pathSet (paths : List PathBuf) :
    SortedBy PathBuf.components (pathSet paths) :=
  (Keyed.empty.insertAll paths).sortedBy_intoValues

theorem mem_pathSet {paths : List PathBuf} {p : PathBuf} (h : p ∈ pathSet paths) :
    p ∈ paths := by
  rw [pathSet, (Keyed.empty.insertAll paths).mem_intoValues, getElem?_insertAll_last] at h
  have hfind : paths.reverse.find? (fun q => q.components = p.components) = some p := by
    simpa using h
  exact List.mem_reverse.mp (List.mem_of_find?_eq_some hfind)

theorem exists_mem_pathSet {paths : List PathBuf} {p : PathBuf} (h : p ∈ paths) :
    ∃ q ∈ pathSet paths, q.components = p.components := by
  cases hfind : paths.reverse.find? (fun q => q.components = p.components) with
  | none =>
      have hne := List.find?_eq_none.mp hfind p (List.mem_reverse.mpr h)
      simp at hne
  | some q =>
      have hq : q.components = p.components := by simpa using List.find?_some hfind
      refine ⟨q, ?_, hq⟩
      rw [pathSet, (Keyed.empty.insertAll paths).mem_intoValues, getElem?_insertAll_last, hq,
        hfind]
      rfl

/-- Entries made from distinct paths: the entries at a path are what is made
from it. -/
theorem filter_filterMap_of_nodup {ι : Type} {make : PathBuf → Option ι} {path : ι → PathBuf}
    (hmake : ∀ p i, make p = some i → path i = p) {paths : List PathBuf}
    (hnodup : (paths.map PathBuf.components).Nodup) (p : PathBuf) :
    (paths.filterMap make).filter (fun i => (path i).same p) =
      ((paths.find? (·.same p)).bind make).toList := by
  induction paths with
  | nil => rfl
  | cons q paths ih =>
      rw [List.map_cons, List.nodup_cons] at hnodup
      obtain ⟨hq, hnodup⟩ := hnodup
      by_cases hsame : q.same p = true
      · have hrest : paths.find? (·.same p) = none := by
          refine List.find?_eq_none.mpr fun r hr hrsame => hq ?_
          rw [PathBuf.same_iff.mp hsame, ← PathBuf.same_iff.mp hrsame]
          exact List.mem_map_of_mem hr
        rw [hrest, Option.bind_none, Option.toList_none] at ih
        rw [List.find?_cons_of_pos (p := fun r : PathBuf => r.same p) hsame, Option.bind_some]
        cases hmaken : make q with
        | none =>
            rw [List.filterMap_cons_none hmaken, ih hnodup]
            rfl
        | some i =>
            have hi : (path i).same p = true := by rw [hmake q i hmaken, hsame]
            rw [List.filterMap_cons_some hmaken, List.filter_cons_of_pos (p := fun i => (path i).same p) hi, ih hnodup]
            rfl
      · rw [List.find?_cons_of_neg (p := fun r : PathBuf => r.same p) hsame]
        cases hmaken : make q with
        | none => rw [List.filterMap_cons_none hmaken, ih hnodup]
        | some i =>
            have hi : ¬ (path i).same p = true := by rw [hmake q i hmaken]; exact hsame
            rw [List.filterMap_cons_some hmaken, List.filter_cons_of_neg (p := fun i => (path i).same p) hi, ih hnodup]

theorem nodup_pathSet (paths : List PathBuf) :
    ((pathSet paths).map PathBuf.components).Nodup := by
  rw [List.nodup_iff_pairwise_ne, List.pairwise_map]
  exact (sortedBy_pathSet paths).imp fun hlt => compare_lt_ne hlt

/-- A set of paths finds a path exactly when it was given one. -/
theorem find_pathSet {paths : List PathBuf} {p : PathBuf} :
    (pathSet paths).find? (·.same p) = none ↔ ∀ q ∈ paths, q.components ≠ p.components := by
  rw [List.find?_eq_none]
  constructor
  · intro h q hq heq
    obtain ⟨r, hr, hcomponents⟩ := exists_mem_pathSet hq
    exact h r hr (PathBuf.same_iff.mpr (hcomponents.trans heq))
  · intro h q hq hsame
    exact h q (mem_pathSet hq) (PathBuf.same_iff.mp hsame)

section

variable {ι : Type} {path : ι → PathBuf} {items : List ι} {p : PathBuf}

theorem getByPath_eq_find : getByPath path items p =
    items.reverse.find? fun i => (path i).components = p.components := by
  rw [getByPath, getElem?_insertAll_last]
  simp

theorem getByPath_mem {i : ι} (h : getByPath path items p = some i) :
    i ∈ items ∧ (path i).components = p.components := by
  rw [getByPath_eq_find] at h
  exact ⟨List.mem_reverse.mp (List.mem_of_find?_eq_some h), by simpa using List.find?_some h⟩

theorem getByPath_eq_none : getByPath path items p = none ↔
    ∀ i ∈ items, (path i).components ≠ p.components := by
  rw [getByPath_eq_find]
  simp

/-- What a map holds, when no two entries have one path. -/
theorem getByPath_eq_some {i : ι}
    (hnodup : (items.map fun i => (path i).components).Nodup) :
    getByPath path items p = some i ↔ i ∈ items ∧ (path i).components = p.components := by
  constructor
  · exact getByPath_mem
  · intro ⟨hitem, hpath⟩
    cases hfound : getByPath path items p with
    | none => exact absurd hpath (getByPath_eq_none.mp hfound i hitem)
    | some found =>
        obtain ⟨hmem, hsame⟩ := getByPath_mem hfound
        rw [List.inj_on_of_nodup_map hnodup hmem hitem (hsame.trans hpath.symm)]

end

/-! ## Paths below a root -/

namespace PathBuf

theorem segments_append_slash (l rest : List UInt8) :
    (⟨l ++ slash :: rest⟩ : PathBuf).segments =
      (⟨l⟩ : PathBuf).segments ++ (⟨rest⟩ : PathBuf).segments :=
  List.splitOnP_append_cons l rest (by simp)

/-- What opens a path is read before its first slash. -/
theorem opening_append_slash (l rest : List UInt8) :
    (⟨l ++ slash :: rest⟩ : PathBuf).opening = (⟨l ++ [slash]⟩ : PathBuf).opening := by
  have habsolute : (⟨l ++ slash :: rest⟩ : PathBuf).isAbsolute =
      (⟨l ++ [slash]⟩ : PathBuf).isAbsolute := by
    cases l <;> rfl
  have hne : (⟨l⟩ : PathBuf).segments ≠ [] := List.splitOnP_ne_nil _ _
  have hhead : (⟨l ++ slash :: rest⟩ : PathBuf).segments.head? =
      (⟨l ++ [slash]⟩ : PathBuf).segments.head? := by
    rw [segments_append_slash, segments_append_slash, List.head?_append_of_ne_nil _ hne,
      List.head?_append_of_ne_nil _ hne]
  rw [opening, habsolute, hhead, opening]

theorem components_append_slash (l rest : List UInt8) :
    (⟨l ++ slash :: rest⟩ : PathBuf).components = (⟨l ++ [slash]⟩ : PathBuf).components ++
      (⟨rest⟩ : PathBuf).segments.filterMap segmentComponent? := by
  have hempty : (⟨[]⟩ : PathBuf).segments.filterMap segmentComponent? = [] := rfl
  rw [components, components, opening_append_slash, segments_append_slash,
    segments_append_slash, List.filterMap_append, List.filterMap_append, hempty,
    List.append_nil, List.append_assoc]

theorem components_trailing_slash {l : List UInt8} (hl : l ≠ []) :
    (⟨l ++ [slash]⟩ : PathBuf).components = (⟨l⟩ : PathBuf).components := by
  have hempty : (⟨[]⟩ : PathBuf).segments = [[]] := rfl
  have habsolute : (⟨l ++ [slash]⟩ : PathBuf).isAbsolute = (⟨l⟩ : PathBuf).isAbsolute := by
    cases l with
    | nil => exact absurd rfl hl
    | cons b l => rfl
  have hne : (⟨l⟩ : PathBuf).segments ≠ [] := List.splitOnP_ne_nil _ _
  have hopening : (⟨l ++ [slash]⟩ : PathBuf).opening = (⟨l⟩ : PathBuf).opening := by
    rw [opening, habsolute, segments_append_slash, List.head?_append_of_ne_nil _ hne, opening]
  rw [components, hopening, segments_append_slash, List.filterMap_append, hempty]
  simp [components, segmentComponent?]

/-- A path that opens with nothing is appended to another, component by
component. -/
theorem components_join {p q : PathBuf} (hq : q.opening = []) :
    (p.join q).components = p.components ++ q.components := by
  have hrelative : q.isAbsolute = false := by
    unfold opening at hq
    split at hq
    · cases hq
    · rename_i h
      simpa using h
  have hparts : q.components = q.segments.filterMap segmentComponent? := by
    rw [components, hq, List.nil_append]
  unfold join
  rw [hrelative, if_neg (by simp)]
  rcases p with ⟨l⟩
  split
  · rename_i h
    rcases h with hempty | hlast
    · rw [List.isEmpty_iff] at hempty
      subst hempty
      rfl
    · obtain ⟨l, rfl⟩ := List.getLast?_eq_some_iff.mp hlast
      rw [List.append_assoc, List.singleton_append, components_append_slash, hparts]
  · rename_i h
    have hl : l ≠ [] := fun heq => h (.inl (by rw [heq]; rfl))
    rw [components_append_slash, components_trailing_slash hl, hparts]

end PathBuf

/-- A name is one segment. -/
theorem segments_name {name : Name} (h : ValidName name) :
    (⟨name⟩ : PathBuf).segments = [name] := by
  refine List.splitOnP_eq_singleton fun b hb => ?_
  have hb' : b ≠ slash := fun heq => h.2.2.2.1 (heq ▸ hb)
  simpa using hb'

/-- A name opens nothing. -/
theorem opening_name {name : Name} (h : ValidName name) : (⟨name⟩ : PathBuf).opening = [] := by
  have hrelative : (⟨name⟩ : PathBuf).isAbsolute = false := by
    cases name with
    | nil => exact absurd rfl h.1
    | cons b name =>
        have hb : b ≠ slash := fun heq => h.2.2.2.1 (heq ▸ .head _)
        simpa [PathBuf.isAbsolute] using hb
  simp [PathBuf.opening, segments_name h, hrelative, h.2.1]

theorem components_name {name : Name} (h : ValidName name) :
    (⟨name⟩ : PathBuf).components = [.normal name] := by
  obtain ⟨hne, hdot, hdots, -, -⟩ := id h
  simp [PathBuf.components, opening_name h, segments_name h, segmentComponent?, hne, hdot,
    hdots]

theorem components_join_name {name : Name} (h : ValidName name) (p : PathBuf) :
    (p.join ⟨name⟩).components = p.components ++ [.normal name] := by
  rw [PathBuf.components_join (opening_name h), components_name h]

/-- The path of the names on it, joined one after another. -/
def pathOf (names : List Name) : PathBuf :=
  names.foldl (fun path name => path.join ⟨name⟩) ⟨[]⟩

theorem pathOf_concat (names : List Name) (name : Name) :
    pathOf (names ++ [name]) = (pathOf names).join ⟨name⟩ := by
  simp [pathOf]

/-- A path is the names it was made of. -/
theorem components_pathOf {names : List Name} (h : ∀ name ∈ names, ValidName name) :
    (pathOf names).components = names.map Component.normal := by
  induction names using List.reverseRecOn with
  | nil => rfl
  | append_singleton names name ih =>
      have hname : ValidName name := h name (by simp)
      have hnames : ∀ name ∈ names, ValidName name := fun name hmem =>
        h name (List.mem_append_left _ hmem)
      rw [pathOf_concat, components_join_name hname, ih hnames, List.map_append]
      rfl

theorem pathOf_inj {names names' : List Name} (h : ∀ name ∈ names, ValidName name)
    (h' : ∀ name ∈ names', ValidName name) :
    (pathOf names).components = (pathOf names').components ↔ names = names' := by
  rw [components_pathOf h, components_pathOf h']
  exact ⟨fun heq => List.map_injective_iff.mpr (fun _ _ h => Component.normal.inj h) heq,
    fun heq => heq ▸ rfl⟩

def Component.name? : Component → Option Name
  | normal name => some name
  | _ => none

/-- The names on a path. -/
def namesOf (path : PathBuf) : RelativePath := path.components.filterMap Component.name?

theorem namesOf_pathOf {names : List Name} (h : ∀ name ∈ names, ValidName name) :
    namesOf (pathOf names) = names := by
  unfold namesOf
  rw [components_pathOf h, List.filterMap_map]
  exact List.filterMap_some

theorem namesOf_congr {p q : PathBuf} (h : p.components = q.components) :
    namesOf p = namesOf q := by
  rw [namesOf, namesOf, h]

end SyncPlus
