import SyncPlus.Lib.KeyedReplay

/-!
# Overlaid lists

Lists of keyed items in strict key order, and the merge that lays one
over another: the upper list decides the keys it has, the lower one the
rest. Such a list is determined by what it holds at each key
(`ext_of_lookup`), and the merge is a sorted list that holds at each key
what the upper list holds there or else the lower (`lookup_overlay`), so
two ways of merging are compared key by key.
-/

namespace SyncPlus

open Std (ExtTreeMap)

variable {κ ι : Type} [Ord κ] [Std.TransOrd κ] [Std.LawfulEqOrd κ] [DecidableEq κ]

/-- Items in strict key order. -/
def SortedBy (key : ι → κ) (items : List ι) : Prop :=
  items.Pairwise fun i j => compare (key i) (key j) = .lt

/-- The item at a key. -/
def lookup (key : ι → κ) (items : List ι) (k : κ) : Option ι :=
  items.find? fun i => key i = k

/-- Enter every item into a map, later ones over earlier ones. -/
def insertAll (key : ι → κ) (m : ExtTreeMap κ ι) (items : List ι) : ExtTreeMap κ ι :=
  items.foldl (fun m i => m.insert (key i) i) m

/-- Lay `top` over `base`. -/
def overlay (key : ι → κ) (base top : List ι) : List ι :=
  intoValues (insertAll key (insertAll key ∅ base) top)

section

variable {key : ι → κ} {items : List ι}

omit [Std.TransOrd κ] [Std.LawfulEqOrd κ] [DecidableEq κ] in
instance : Decidable (SortedBy key items) :=
  inferInstanceAs (Decidable (items.Pairwise _))

omit [Std.TransOrd κ] [DecidableEq κ] in
theorem compare_lt_ne {a b : κ} (h : compare a b = .lt) : a ≠ b := by
  rintro rfl
  rw [Std.ReflOrd.compare_self] at h
  cases h

omit [Std.TransOrd κ] in
theorem lookup_eq_some (hs : SortedBy key items) {k : κ} {i : ι} :
    lookup key items k = some i ↔ i ∈ items ∧ key i = k := by
  constructor
  · intro h
    exact ⟨List.mem_of_find?_eq_some h, by simpa using List.find?_some h⟩
  · rintro ⟨hmem, rfl⟩
    induction items with
    | nil => cases hmem
    | cons j items ih =>
        obtain ⟨hj, hs⟩ := List.pairwise_cons.mp hs
        rcases List.mem_cons.mp hmem with rfl | hmem
        · simp [lookup]
        · have hne : key j ≠ key i := compare_lt_ne (hj i hmem)
          have := ih hs hmem
          simpa [lookup, hne] using this

omit [Ord κ] [Std.TransOrd κ] [Std.LawfulEqOrd κ] in
theorem lookup_eq_none {k : κ} :
    lookup key items k = none ↔ ∀ i ∈ items, key i ≠ k := by
  simp [lookup]

/-- **A sorted list is what it holds at each key.** -/
theorem ext_of_lookup {items' : List ι} (hs : SortedBy key items)
    (hs' : SortedBy key items') (h : ∀ k, lookup key items k = lookup key items' k) :
    items = items' := by
  have hnodup : ∀ {l : List ι}, SortedBy key l → l.Nodup := fun hl =>
    hl.imp fun hlt heq => compare_lt_ne hlt (congrArg key heq)
  have hperm : items.Perm items' :=
    (List.perm_ext_iff_of_nodup (hnodup hs) (hnodup hs')).mpr fun i => by
      have hi := h (key i)
      constructor
      · intro hmem
        have := (lookup_eq_some hs).mpr ⟨hmem, rfl⟩
        exact ((lookup_eq_some hs').mp (hi ▸ this)).1
      · intro hmem
        have := (lookup_eq_some hs').mpr ⟨hmem, rfl⟩
        exact ((lookup_eq_some hs).mp (hi ▸ this)).1
  refine hperm.eq_of_pairwise (fun a b _ _ hab hba => ?_) hs hs'
  rw [Std.OrientedOrd.eq_swap, hab] at hba
  cases hba

/-! ## Maps of items -/

/-- Every item stands under its own key. -/
def Keyed (key : ι → κ) (m : ExtTreeMap κ ι) : Prop :=
  ∀ k i, m[k]? = some i → key i = k

omit [Std.LawfulEqOrd κ] [DecidableEq κ] in
theorem Keyed.empty : Keyed key ∅ := by
  intro k i h
  simp at h

omit [DecidableEq κ] in
theorem Keyed.insertAll {m : ExtTreeMap κ ι} (h : Keyed key m) (items : List ι) :
    Keyed key (insertAll key m items) := by
  induction items generalizing m with
  | nil => exact h
  | cons i items ih =>
      refine ih fun k j hj => ?_
      rw [ExtTreeMap.getElem?_insert] at hj
      split at hj
      · rename_i heq
        cases hj
        exact Std.LawfulEqOrd.eq_of_compare heq
      · exact h k j hj

theorem getElem?_insertAll {m : ExtTreeMap κ ι} (hs : SortedBy key items) (k : κ) :
    (insertAll key m items)[k]? = (lookup key items k).or m[k]? := by
  induction items generalizing m with
  | nil => rfl
  | cons i items ih =>
      obtain ⟨hi, hs⟩ := List.pairwise_cons.mp hs
      rw [show insertAll key m (i :: items) = insertAll key (m.insert (key i) i) items
        from rfl, ih hs]
      by_cases hk : key i = k
      · subst hk
        have hnone : lookup key items (key i) = none :=
          lookup_eq_none.mpr fun j hj => (compare_lt_ne (hi j hj)).symm
        rw [hnone]
        simp [lookup]
      · simp [lookup, hk, ExtTreeMap.getElem?_insert]

/-- **A map keeps the last item entered at each key.** -/
theorem getElem?_insertAll_last (m : ExtTreeMap κ ι) (items : List ι) (k : κ) :
    (insertAll key m items)[k]? = (items.reverse.find? fun i => key i = k).or m[k]? := by
  induction items generalizing m with
  | nil => rfl
  | cons i items ih =>
      have hinsert : insertAll key m (i :: items) = insertAll key (m.insert (key i) i) items :=
        rfl
      rw [hinsert, ih, List.reverse_cons, List.find?_append, Option.or_assoc]
      congr 1
      by_cases hk : key i = k
      · subst hk
        simp
      · simp [hk, ExtTreeMap.getElem?_insert]

omit [DecidableEq κ] in
theorem Keyed.mem_intoValues {m : ExtTreeMap κ ι} (h : Keyed key m) {i : ι} :
    i ∈ intoValues m ↔ m[key i]? = some i := by
  constructor
  · intro hi
    obtain ⟨⟨k, _⟩, hpair, rfl⟩ := List.mem_map.mp hi
    have hget := ExtTreeMap.mem_toList_iff_getElem?_eq_some.mp hpair
    rw [h k _ hget]
    exact hget
  · intro hi
    exact List.mem_map.mpr ⟨(key i, i),
      ExtTreeMap.mem_toList_iff_getElem?_eq_some.mpr hi, rfl⟩

omit [DecidableEq κ] in
theorem Keyed.sortedBy_intoValues {m : ExtTreeMap κ ι} (h : Keyed key m) :
    SortedBy key (intoValues m) := by
  unfold SortedBy intoValues
  rw [List.pairwise_map]
  refine m.ordered_keys_toList.imp_of_mem ?_
  rintro ⟨k, i⟩ ⟨k', i'⟩ hmem hmem' hlt
  rw [h k i (ExtTreeMap.mem_toList_iff_getElem?_eq_some.mp hmem),
    h k' i' (ExtTreeMap.mem_toList_iff_getElem?_eq_some.mp hmem')]
  exact hlt

theorem Keyed.lookup_intoValues {m : ExtTreeMap κ ι} (h : Keyed key m) (k : κ) :
    lookup key (intoValues m) k = m[k]? := by
  refine Option.ext fun i => ?_
  rw [lookup_eq_some h.sortedBy_intoValues, h.mem_intoValues]
  constructor
  · rintro ⟨hget, rfl⟩
    exact hget
  · intro hget
    obtain rfl := h k i hget
    exact ⟨hget, rfl⟩

/-! ## The merge -/

variable {base top : List ι}

omit [DecidableEq κ] in
theorem sortedBy_overlay : SortedBy key (overlay key base top) :=
  ((Keyed.empty.insertAll base).insertAll top).sortedBy_intoValues

/-- **The upper list decides its own keys.** -/
theorem lookup_overlay (hbase : SortedBy key base) (htop : SortedBy key top) (k : κ) :
    lookup key (overlay key base top) k = (lookup key top k).or (lookup key base k) := by
  rw [overlay, ((Keyed.empty.insertAll base).insertAll top).lookup_intoValues,
    getElem?_insertAll htop, getElem?_insertAll hbase]
  simp

/-- Laid over nothing, a list keeps one item of each of its keys. -/
theorem mem_of_mem_overlay_nil {i : ι} (h : i ∈ overlay key [] top) : i ∈ top := by
  rw [overlay, ((Keyed.empty.insertAll []).insertAll top).mem_intoValues,
    getElem?_insertAll_last] at h
  have hfind : top.reverse.find? (fun j => key j = key i) = some i := by
    simpa [insertAll] using h
  exact List.mem_reverse.mp (List.mem_of_find?_eq_some hfind)

theorem exists_mem_overlay_nil (key : ι → κ) {i : ι} (h : i ∈ top) :
    ∃ j ∈ overlay key [] top, key j = key i := by
  cases hfind : top.reverse.find? (fun j => key j = key i) with
  | none =>
      have hne := List.find?_eq_none.mp hfind i (List.mem_reverse.mpr h)
      simp at hne
  | some j =>
      have hj : key j = key i := by simpa using List.find?_some hfind
      refine ⟨j, ?_, hj⟩
      rw [overlay, ((Keyed.empty.insertAll []).insertAll top).mem_intoValues,
        getElem?_insertAll_last, hj, hfind]
      rfl

end

end SyncPlus
