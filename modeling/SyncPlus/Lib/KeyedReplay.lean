import Mathlib.Data.List.Sort
import Std.Data.ExtTreeMap
import SyncPlus.Lib.Checks

/-!
# Replaying keyed rows

A log whose rows carry a key, replayed into an ordered map of one entry
a key: each row updates the entry of its own key and no other. Such a
replay is the family of its per-key replays, each over the rows of that
key alone (`replayKeyed_eq_ok`), so a property of the whole log is a
property of each key's rows.

The log is read in key order and not in the order it was written. What
makes that harmless is that sorting is stable: where the rows of one key
already stand in order, sorting leaves them in that order
(`filter_insertionSort`).
-/

namespace SyncPlus

open Std (ExtTreeMap)

variable {κ ρ τ ε : Type} [Ord κ] [Std.TransOrd κ] [Std.LawfulEqOrd κ]
  [DecidableEq κ]

/-- One row: the entry of its key takes the step. -/
def applyKeyed (key : ρ → κ) (step : Option τ → ρ → Except ε τ)
    (m : ExtTreeMap κ τ) (r : ρ) : Except ε (ExtTreeMap κ τ) :=
  (step m[key r]? r).map fun t => m.insert (key r) t

/-- All rows in order. -/
def replayKeyed (key : ρ → κ) (step : Option τ → ρ → Except ε τ)
    (m : ExtTreeMap κ τ) (rows : List ρ) : Except ε (ExtTreeMap κ τ) :=
  rows.foldlM (applyKeyed key step) m

/-- The replay of one key's rows. -/
def replayOne (step : Option τ → ρ → Except ε τ) (x : Option τ) :
    List ρ → Except ε (Option τ)
  | [] => .ok x
  | r :: rows => step x r >>= fun t => replayOne step (some t) rows

section

variable {key : ρ → κ} {step : Option τ → ρ → Except ε τ}

@[simp] theorem replayOne_nil (x : Option τ) :
    replayOne step x [] = .ok x := rfl

theorem replayOne_append (x : Option τ) (rows rows' : List ρ) :
    replayOne step x (rows ++ rows') =
      (replayOne step x rows >>= fun y => replayOne step y rows') := by
  induction rows generalizing x with
  | nil => rfl
  | cons r rows ih =>
      simp only [List.cons_append, replayOne]
      cases step x r with
      | error e => rfl
      | ok t => exact ih (some t)

theorem replayOne_snoc {x y : Option τ} {rows : List ρ} {r : ρ} {t : τ}
    (h : replayOne step x rows = .ok y) (hr : step y r = .ok t) :
    replayOne step x (rows ++ [r]) = .ok (some t) := by
  rw [replayOne_append, bind_ok h]
  simp only [replayOne, bind_ok hr]

/-- A key has an entry after its rows exactly when it has rows. -/
theorem replayOne_isSome {rows : List ρ} {x : Option τ}
    (h : replayOne step none rows = .ok x) : x.isSome = true ↔ rows ≠ [] := by
  have hsome : ∀ {t : τ} {rows : List ρ}, replayOne step (some t) rows = .ok x →
      x.isSome = true := by
    intro t rows
    induction rows generalizing t with
    | nil => intro h; rw [← Except.ok.inj h]; rfl
    | cons r rows ih =>
        intro h
        obtain ⟨_, -, hrest⟩ := bind_eq_ok.mp h
        exact ih hrest
  cases rows with
  | nil => simp [← Except.ok.inj h]
  | cons r rows =>
      obtain ⟨_, -, hrest⟩ := bind_eq_ok.mp h
      simp [hsome hrest]

omit [Std.LawfulEqOrd κ] [DecidableEq κ] in
theorem applyKeyed_eq_ok {m m' : ExtTreeMap κ τ} {r : ρ} :
    applyKeyed key step m r = .ok m' ↔
      ∃ t, step m[key r]? r = .ok t ∧ m.insert (key r) t = m' :=
  map_eq_ok

/-- **A keyed replay is the family of its per-key replays.** -/
theorem replayKeyed_eq_ok {m m' : ExtTreeMap κ τ} {rows : List ρ} :
    replayKeyed key step m rows = .ok m' ↔
      ∀ k, replayOne step m[k]? (rows.filter fun r => key r = k) = .ok m'[k]? := by
  induction rows generalizing m with
  | nil =>
      simp only [replayKeyed, List.foldlM_nil, List.filter_nil, replayOne_nil,
        Except.ok.injEq, pure, Except.pure]
      exact ⟨fun h k => by rw [h], fun h => ExtTreeMap.ext_getElem? h⟩
  | cons r rows ih =>
      have hcons : replayKeyed key step m (r :: rows) =
          (applyKeyed key step m r >>= fun n => replayKeyed key step n rows) := by
        simp [replayKeyed, List.foldlM_cons]
      rw [hcons, bind_eq_ok]
      constructor
      · rintro ⟨n, hn, hrest⟩ k
        obtain ⟨t, ht, rfl⟩ := applyKeyed_eq_ok.mp hn
        have hk := ih.mp hrest k
        by_cases hkey : key r = k
        · subst hkey
          simp only [List.filter_cons, decide_true, if_true, replayOne, bind_ok ht]
          simpa using hk
        · have : (m.insert (key r) t)[k]? = m[k]? := by
            simp [ExtTreeMap.getElem?_insert, hkey]
          simpa [List.filter_cons, hkey, this] using hk
      · intro h
        have hself := h (key r)
        simp only [List.filter_cons, decide_true, if_true, replayOne] at hself
        obtain ⟨t, ht, hrest⟩ := bind_eq_ok.mp hself
        refine ⟨_, applyKeyed_eq_ok.mpr ⟨t, ht, rfl⟩, ih.mpr fun k => ?_⟩
        by_cases hkey : key r = k
        · subst hkey
          simpa using hrest
        · have : (m.insert (key r) t)[k]? = m[k]? := by
            simp [ExtTreeMap.getElem?_insert, hkey]
          have hk := h k
          simp only [List.filter_cons, hkey, decide_false, Bool.false_eq_true,
            if_false] at hk
          rwa [this]

/-- A keyed replay succeeds when each key's does. -/
theorem exists_replayKeyed {m : ExtTreeMap κ τ} {rows : List ρ}
    (h : ∀ k, ∃ x, replayOne step m[k]? (rows.filter fun r => key r = k) = .ok x) :
    ∃ m', replayKeyed key step m rows = .ok m' := by
  induction rows generalizing m with
  | nil => exact ⟨m, rfl⟩
  | cons r rows ih =>
      obtain ⟨x, hx⟩ := h (key r)
      simp only [List.filter_cons, decide_true, if_true, replayOne] at hx
      obtain ⟨t, ht, hrest⟩ := bind_eq_ok.mp hx
      have hstep : applyKeyed key step m r = .ok (m.insert (key r) t) :=
        applyKeyed_eq_ok.mpr ⟨t, ht, rfl⟩
      obtain ⟨m', hm'⟩ := ih (m := m.insert (key r) t) fun k => by
        by_cases hkey : key r = k
        · subst hkey
          exact ⟨x, by simpa using hrest⟩
        · obtain ⟨y, hy⟩ := h k
          simp only [List.filter_cons, hkey, decide_false, Bool.false_eq_true,
            if_false] at hy
          exact ⟨y, by simpa [ExtTreeMap.getElem?_insert, hkey] using hy⟩
      refine ⟨m', ?_⟩
      simp only [replayKeyed, List.foldlM_cons]
      rw [bind_ok hstep]
      exact hm'

end

/-! ## The entries in key order -/

/-- The entries of a map, in key order. -/
def intoValues (m : ExtTreeMap κ τ) : List τ := m.toList.map Prod.snd

omit [DecidableEq κ] in
/-- The entries in key order, from any ascending list of the keys. -/
theorem intoValues_eq {m : ExtTreeMap κ τ} {keys : List κ}
    (hsorted : keys.Pairwise fun a b => compare a b = .lt)
    (hmem : ∀ k, k ∈ keys ↔ m[k]?.isSome = true) :
    intoValues m = keys.filterMap fun k => m[k]? := by
  have hne : ∀ {a b : κ}, compare a b = .lt → a ≠ b := by
    rintro a _ h rfl
    rw [Std.ReflOrd.compare_self] at h
    cases h
  have hkeys : m.keys = keys := by
    have hperm : m.keys.Perm keys :=
      (List.perm_ext_iff_of_nodup m.nodup_keys (hsorted.imp hne)).mpr fun k => by
        rw [ExtTreeMap.mem_keys, ExtTreeMap.mem_iff_isSome_getElem?, hmem]
    refine hperm.eq_of_pairwise (fun a b _ _ hab hba => ?_) m.ordered_keys hsorted
    rw [Std.OrientedOrd.eq_swap, hab] at hba
    cases hba
  rw [← hkeys, ← ExtTreeMap.map_fst_toList_eq_keys, List.filterMap_map]
  have : m.toList.filterMap ((fun k => m[k]?) ∘ Prod.fst) =
      m.toList.filterMap (some ∘ Prod.snd) :=
    List.filterMap_congr fun p hp => ExtTreeMap.mem_toList_iff_getElem?_eq_some.mp hp
  rw [this, List.filterMap_eq_map]
  rfl

/-! ## Reading in order -/

/-- Sorting does not disturb rows that already stand in order. -/
theorem filter_insertionSort {r : ρ → ρ → Prop} [DecidableRel r]
    [Std.Total r] [IsTrans ρ r] {p : ρ → Bool} {rows : List ρ}
    (h : (rows.filter p).Pairwise r) :
    (rows.insertionSort r).filter p = rows.filter p := by
  have hsub : (rows.filter p).Sublist (rows.insertionSort r) :=
    List.sublist_insertionSort h List.filter_sublist
  have hsub' : (rows.filter p).Sublist ((rows.insertionSort r).filter p) := by
    have := hsub.filter p
    rwa [List.filter_filter, show (fun a => p a && p a) = p by funext a; simp] at this
  have hperm := (List.perm_insertionSort r rows).filter p
  exact (hsub'.eq_of_length hperm.length_eq.symm).symm

end SyncPlus
