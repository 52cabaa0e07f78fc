import SyncPlus.ConflictReview
import Mathlib.Data.List.Sort

/-!
# Decisions of a review

Which decisions a review accepts, and what it makes of them. They are accepted
when each is about a row and is one the row offers, no key is decided twice, and
each row that offers anything is decided (`Decides`); the plan is then the
decisions' actions in the order of their paths (`resolve_eq_ok_iff`). So the
order of the decisions does not count, and of a review only the keys of its rows
do (`Decides.of_keys`).
-/

namespace SyncPlus

namespace ConflictEntryKey

variable {key other : ConflictEntryKey}

theorem same_iff : key.same other = true ↔
    key.kind = other.kind ∧ key.relativePath.components = other.relativePath.components ∧
      key.relatedPath.map PathBuf.components = other.relatedPath.map PathBuf.components ∧
        key.destinationPath.map PathBuf.components =
          other.destinationPath.map PathBuf.components := by
  unfold same
  simp only [Bool.and_eq_true, decide_eq_true_eq, PathBuf.same_iff, sameOptionPath_iff, and_assoc]

theorem same_self (key : ConflictEntryKey) : key.same key = true :=
  same_iff.mpr ⟨rfl, rfl, rfl, rfl⟩

theorem same_comm (key other : ConflictEntryKey) : key.same other = other.same key := by
  rw [Bool.eq_iff_iff, same_iff, same_iff, eq_comm (a := key.kind),
    eq_comm (a := key.relativePath.components), eq_comm (a := key.relatedPath.map _),
    eq_comm (a := key.destinationPath.map _)]

theorem same_trans {next : ConflictEntryKey} (h : key.same other = true)
    (h' : other.same next = true) : key.same next = true := by
  obtain ⟨hkind, hpath, hrelated, hdestination⟩ := same_iff.mp h
  obtain ⟨hkind', hpath', hrelated', hdestination'⟩ := same_iff.mp h'
  exact same_iff.mpr ⟨hkind.trans hkind', hpath.trans hpath', hrelated.trans hrelated',
    hdestination.trans hdestination'⟩

end ConflictEntryKey

/-- What a row offers is known from its key. -/
theorem availableResolutions_of_same {entry other : ConflictEntry}
    (h : entry.key.same other.key = true) :
    entry.availableResolutions = other.availableResolutions := by
  have hkind : entry.kind = other.kind := (ConflictEntryKey.same_iff.mp h).1
  unfold ConflictEntry.availableResolutions
  rw [hkind]

namespace ConflictReview

/-- The decision is about a row, which offers it. -/
def Offers (review : ConflictReview) (decision : ConflictDecision) : Prop :=
  ∃ entry ∈ review.entries, entry.key.same decision.entryKey = true ∧
    decision.resolution ∈ entry.availableResolutions

/-- The decisions are about different keys. -/
def Distinct (decisions : List ConflictDecision) : Prop :=
  decisions.Pairwise fun decision other => decision.entryKey.same other.entryKey = false

/-- What a review asks of a set of decisions. -/
structure Decides (review : ConflictReview) (decisions : List ConflictDecision) : Prop where
  offered : ∀ decision ∈ decisions, review.Offers decision
  distinct : Distinct decisions
  complete : ∀ entry ∈ review.entries, entry.availableResolutions ≠ [] →
    ∃ decision ∈ decisions, decision.entryKey.same entry.key = true

/-- The actions in the order of their paths. -/
def byPath (actions : List ConflictResolutionAction) : List ConflictResolutionAction :=
  actions.insertionSort fun left right =>
    (compare left.relativePath.components right.relativePath.components).isLE = true

section

variable {review : ConflictReview} {decisions : List ConflictDecision}
  {decision : ConflictDecision}

/-- The row that is found for a decision offers what any row of the key does. -/
theorem offers_iff_find : review.Offers decision ↔
    ∃ entry, review.entries.find? (fun entry => entry.key.same decision.entryKey) = some entry ∧
      decision.resolution ∈ entry.availableResolutions := by
  constructor
  · intro ⟨entry, hentry, hsame, hoffered⟩
    obtain ⟨found, hfound⟩ : ∃ found, review.entries.find?
        (fun entry => entry.key.same decision.entryKey) = some found := by
      rw [← Option.isSome_iff_exists, List.find?_isSome]
      exact ⟨entry, hentry, hsame⟩
    have hkey := List.find?_some (p := fun entry : ConflictEntry =>
      entry.key.same decision.entryKey) hfound
    refine ⟨found, hfound, ?_⟩
    rw [ConflictEntryKey.same_comm] at hsame
    rw [availableResolutions_of_same (ConflictEntryKey.same_trans hkey hsame)]
    exact hoffered
  · intro ⟨entry, hfound, hoffered⟩
    exact ⟨entry, List.mem_of_find?_eq_some hfound,
      List.find?_some (p := fun entry : ConflictEntry => entry.key.same decision.entryKey) hfound,
      hoffered⟩

/-- What the loop over the decisions accepts. -/
theorem resolveEach_eq_ok_iff {seen seen' : List ConflictEntryKey}
    {actions : List ConflictResolutionAction} :
    review.resolveEach seen decisions = .ok (seen', actions) ↔
      (∀ decision ∈ decisions, review.Offers decision) ∧ Distinct decisions ∧
        (∀ decision ∈ decisions, ∀ key ∈ seen, key.same decision.entryKey = false) ∧
        seen' = seen ++ decisions.map (·.entryKey) ∧
        actions = decisions.map .fromDecision := by
  induction decisions generalizing seen seen' actions with
  | nil =>
      rw [resolveEach, Except.ok.injEq, Prod.mk.injEq, List.map_nil, List.append_nil,
        List.map_nil, eq_comm (a := seen), eq_comm (a := [])]
      constructor
      · rintro ⟨hseen, hactions⟩
        exact ⟨List.forall_mem_nil _, .nil, List.forall_mem_nil _, hseen, hactions⟩
      · rintro ⟨-, -, -, hseen, hactions⟩
        exact ⟨hseen, hactions⟩
  | cons decision decisions ih =>
      rw [resolveEach]
      constructor
      · intro h
        obtain ⟨entry, hentry, h⟩ := bind_eq_ok.mp h
        obtain ⟨hoffered, h⟩ := ensure_bind_eq_ok.mp h
        obtain ⟨hnew, h⟩ := ensure_bind_eq_ok.mp h
        obtain ⟨⟨seen'', rest⟩, hrest, h⟩ := bind_eq_ok.mp h
        cases h
        obtain ⟨hoffers, hdistinct, hseen, rfl, rfl⟩ := ih.mp hrest
        rw [List.any_eq_false] at hnew
        refine ⟨List.forall_mem_cons.mpr ⟨offers_iff_find.mpr ⟨entry, orError_eq_ok.mp hentry,
            hoffered⟩, hoffers⟩, List.pairwise_cons.mpr ⟨fun other hother => ?_, hdistinct⟩,
          List.forall_mem_cons.mpr ⟨fun key hkey => Bool.eq_false_iff.mpr (hnew key hkey),
            fun other hother key hkey => ?_⟩, ?_, rfl⟩
        · exact hseen other hother _ (List.mem_append_right _ (List.mem_singleton.mpr rfl))
        · exact hseen other hother key (List.mem_append_left _ hkey)
        · rw [List.map_cons, List.append_assoc]
          rfl
      · rintro ⟨hoffers, hdistinct, hseen, hseen', hactions⟩
        obtain ⟨hoffer, hoffers⟩ := List.forall_mem_cons.mp hoffers
        obtain ⟨hfirst, hdistinct⟩ := List.pairwise_cons.mp hdistinct
        obtain ⟨hnew, hseen⟩ := List.forall_mem_cons.mp hseen
        obtain ⟨entry, hentry, hoffered⟩ := offers_iff_find.mp hoffer
        refine bind_eq_ok.mpr ⟨entry, orError_eq_ok.mpr hentry, ensure_bind_eq_ok.mpr ⟨hoffered,
          ensure_bind_eq_ok.mpr ⟨?_, bind_eq_ok.mpr ⟨_, ih.mpr ⟨hoffers, hdistinct, ?_, rfl,
            rfl⟩, ?_⟩⟩⟩⟩
        · rw [List.any_eq_false]
          exact fun key hkey => Bool.eq_false_iff.mp (hnew key hkey)
        · intro other hother key hkey
          rcases List.mem_append.mp hkey with hkey | hkey
          · exact hseen other hother key hkey
          · rw [List.mem_singleton.mp hkey]
            exact hfirst other hother
        · rw [hseen', hactions, List.map_cons, List.append_assoc]
          rfl

/-- **What a review accepts**, and the plan it makes of it. -/
theorem resolve_eq_ok_iff {plan : List ConflictResolutionAction} :
    review.resolve decisions = .ok plan ↔
      review.Decides decisions ∧ plan = byPath (decisions.map .fromDecision) := by
  have hmissing : ((review.entries.filter fun entry =>
      !entry.availableResolutions.isEmpty).map ConflictEntry.key).filter (fun key =>
        !(decisions.map (·.entryKey)).any (·.same key)) = [] ↔
      ∀ entry ∈ review.entries, entry.availableResolutions ≠ [] →
        ∃ decision ∈ decisions, decision.entryKey.same entry.key = true := by
    rw [List.filter_eq_nil_iff]
    simp only [List.mem_map, List.mem_filter, Bool.not_eq_true', List.isEmpty_eq_false_iff,
      Bool.not_eq_false, List.any_eq_true]
    constructor
    · intro h entry hentry hoffers
      obtain ⟨key, ⟨decision, hdecision, rfl⟩, hsame⟩ := h entry.key ⟨entry, ⟨hentry, hoffers⟩, rfl⟩
      exact ⟨decision, hdecision, hsame⟩
    · intro h key ⟨entry, ⟨hentry, hoffers⟩, hkey⟩
      obtain ⟨decision, hdecision, hsame⟩ := h entry hentry hoffers
      rw [← hkey]
      exact ⟨decision.entryKey, ⟨decision, hdecision, rfl⟩, hsame⟩
  unfold resolve
  constructor
  · intro h
    obtain ⟨⟨seen, actions⟩, hactions, h⟩ := bind_eq_ok.mp h
    obtain ⟨hoffers, hdistinct, -, rfl, rfl⟩ := resolveEach_eq_ok_iff.mp hactions
    dsimp only at h
    split at h
    · cases h
    · rename_i hnone
      have hperm := List.perm_insertionSort (fun key other : ConflictEntryKey =>
        (key.order other).isLE = true) ((((review.entries.filter fun entry =>
          !entry.availableResolutions.isEmpty).map ConflictEntry.key).filter fun key =>
            !([] ++ decisions.map ConflictDecision.entryKey).any (·.same key)))
      rw [hnone, List.nil_append] at hperm
      exact ⟨⟨hoffers, hdistinct, hmissing.mp hperm.symm.eq_nil⟩, (Except.ok.inj h).symm⟩
  · intro ⟨hdecides, hplan⟩
    rw [bind_ok (resolveEach_eq_ok_iff.mpr ⟨hdecides.offered, hdecides.distinct,
      fun _ _ => List.forall_mem_nil _, rfl, rfl⟩)]
    dsimp only
    rw [List.nil_append, hmissing.mpr hdecides.complete, hplan]
    rfl

/-- The order of the decisions does not count. -/
theorem Decides.perm {decisions' : List ConflictDecision} (h : review.Decides decisions)
    (hperm : decisions.Perm decisions') : review.Decides decisions' where
  offered decision hdecision := h.offered decision (hperm.mem_iff.mpr hdecision)
  distinct := by
    refine (hperm.pairwise_iff fun {decision other} hne => ?_).mp h.distinct
    rw [ConflictEntryKey.same_comm]
    exact hne
  complete entry hentry hoffers := by
    obtain ⟨decision, hdecision, hsame⟩ := h.complete entry hentry hoffers
    exact ⟨decision, hperm.mem_iff.mp hdecision, hsame⟩

/-- Of a review only the keys of its rows count. -/
theorem Decides.of_keys {review' : ConflictReview} (h : review.Decides decisions)
    (hkeys : ∀ key, (∃ entry ∈ review.entries, entry.key.same key = true) ↔
      ∃ entry ∈ review'.entries, entry.key.same key = true) : review'.Decides decisions where
  offered decision hdecision := by
    obtain ⟨entry, hentry, hsame, hoffered⟩ := h.offered decision hdecision
    obtain ⟨entry', hentry', hsame'⟩ := (hkeys decision.entryKey).mp ⟨entry, hentry, hsame⟩
    rw [ConflictEntryKey.same_comm] at hsame
    rw [← availableResolutions_of_same (ConflictEntryKey.same_trans hsame' hsame)] at hoffered
    exact ⟨entry', hentry', hsame', hoffered⟩
  distinct := h.distinct
  complete entry' hentry' hoffers := by
    obtain ⟨entry, hentry, hsame⟩ := (hkeys entry'.key).mpr ⟨entry', hentry', entry'.key.same_self⟩
    rw [← availableResolutions_of_same hsame] at hoffers
    obtain ⟨decision, hdecision, hdecided⟩ := h.complete entry hentry hoffers
    exact ⟨decision, hdecision, ConflictEntryKey.same_trans hdecided hsame⟩

theorem perm_byPath (actions : List ConflictResolutionAction) : (byPath actions).Perm actions :=
  List.perm_insertionSort _ _

theorem byPath_byPath (actions : List ConflictResolutionAction) :
    byPath (byPath actions) = byPath actions := by
  have : Std.Total fun left right : ConflictResolutionAction =>
      (compare left.relativePath.components right.relativePath.components).isLE = true := by
    refine ⟨fun left right => ?_⟩
    rw [Std.OrientedOrd.eq_swap (a := right.relativePath.components)]
    cases compare left.relativePath.components right.relativePath.components <;> simp
  have : IsTrans ConflictResolutionAction fun left right =>
      (compare left.relativePath.components right.relativePath.components).isLE = true :=
    ⟨fun _ _ _ => Std.TransOrd.isLE_trans⟩
  exact (List.pairwise_insertionSort _ _).insertionSort_eq

end

end ConflictReview

end SyncPlus
