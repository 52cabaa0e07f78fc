import SyncPlus.Confirmation
import SyncPlus.Lib.Totals

/-!
# Totals of a plan

The summary of a plan counts its actions and adds up their sizes, each kind for itself, in
numbers of 64 bits and without a check. So a total of a plan is the sum of its sizes modulo
`2 ^ 64` (`toNat_bytes_planSummary`), and the totals are exact when the sizes of what the
inventories give to transfer, to remove and to drain fit (`totals_exact_iff`). Validation
takes the same sums again and sees nothing of it.
-/

namespace SyncPlus

/-! ## Summaries -/

structure ApprovedSyncScope where
  includedPaths : List PathBuf
  excludedPaths : List PathBuf
  deriving DecidableEq

def SourceInventory.approvedScope (inventory : SourceInventory) : ApprovedSyncScope where
  includedPaths := (inventory.items.filter (·.outcome = .included)).map (·.relativePath)
  excludedPaths := (inventory.items.filter (·.outcome = .excluded)).map (·.relativePath)

/-- A path that one peer includes is not an excluded one. -/
def mirrorApprovedScope (peerA peerB : SourceInventory) : ApprovedSyncScope :=
  let paths (outcome : AnalysisOutcome) : List PathBuf :=
    pathSet (((peerA.items ++ peerB.items).filter (·.outcome = outcome)).map (·.relativePath))
  { includedPaths := paths .included
    excludedPaths := (paths .excluded).filter fun path => !(paths .included).any (·.same path) }

structure PlanSummary where
  consideredCount : Nat
  includedCount : Nat
  excludedCount : Nat
  copyCount : Nat := 0
  overwriteCount : Nat := 0
  destinationRemovalCount : Nat := 0
  sourceRemovalCount : Nat := 0
  copyBytes : UInt64 := 0
  overwriteBytes : UInt64 := 0
  destinationRemovalBytes : UInt64 := 0
  sourceRemovalBytes : UInt64 := 0
  deriving DecidableEq

namespace PlanSummary

def totalBytes (summary : PlanSummary) : UInt64 := summary.copyBytes + summary.overwriteBytes

def totalActionCount (summary : PlanSummary) : Nat :=
  summary.copyCount + summary.overwriteCount + summary.destinationRemovalCount +
    summary.sourceRemovalCount

/-- The total of this kind. -/
def bytes (summary : PlanSummary) : PlanActionKind → UInt64
  | .copyToDestination => summary.copyBytes
  | .overwriteDestination => summary.overwriteBytes
  | .removeDestination => summary.destinationRemovalBytes
  | .removeSourceAfterVerification => summary.sourceRemovalBytes

/-- What the loops of both summaries do with an action. -/
def add (summary : PlanSummary) (action : PlanAction) : PlanSummary :=
  let size := action.size.getD 0
  match action.kind with
  | .copyToDestination =>
      { summary with
        copyCount := summary.copyCount + 1
        copyBytes := summary.copyBytes + size }
  | .overwriteDestination =>
      { summary with
        overwriteCount := summary.overwriteCount + 1
        overwriteBytes := summary.overwriteBytes + size }
  | .removeDestination =>
      { summary with
        destinationRemovalCount := summary.destinationRemovalCount + 1
        destinationRemovalBytes := summary.destinationRemovalBytes + size }
  | .removeSourceAfterVerification =>
      { summary with
        sourceRemovalCount := summary.sourceRemovalCount + 1
        sourceRemovalBytes := summary.sourceRemovalBytes + size }

end PlanSummary

def summaryFor (actions : List PlanAction) (source : SourceInventory) : PlanSummary :=
  actions.foldl PlanSummary.add {
    consideredCount := source.items.length
    includedCount := source.approvedScope.includedPaths.length
    excludedCount := source.approvedScope.excludedPaths.length }

def mirrorSummaryFor (actions : List PlanAction) (peerA peerB : SourceInventory) : PlanSummary :=
  actions.foldl PlanSummary.add {
    consideredCount := (allPaths peerA peerB).length
    includedCount := (mirrorApprovedScope peerA peerB).includedPaths.length
    excludedCount := (mirrorApprovedScope peerA peerB).excludedPaths.length }

/-- The summary of a plan with these actions. -/
def planSummary (specification : ProcessSpecification) (source destination : SourceInventory)
    (actions : List PlanAction) : PlanSummary :=
  match specification.mode with
  | .mirror => mirrorSummaryFor actions source destination
  | .oneWay => summaryFor actions source

/-! ## Sums -/

def PlanAction.bytes (action : PlanAction) : Nat := (action.size.map UInt64.toNat).getD 0

/-- The sizes of the actions of this kind together. -/
def bytesOf (kind : PlanActionKind) (actions : List PlanAction) : Nat :=
  ((actions.filter (·.kind = kind)).map (·.bytes)).sum

structure TotalsExact (specification : ProcessSpecification)
    (source destination : SourceInventory) (actions : List PlanAction) : Prop where
  totals : ∀ kind, ((planSummary specification source destination actions).bytes kind).toNat =
    bytesOf kind actions
  total : (planSummary specification source destination actions).totalBytes.toNat =
    (planSummary specification source destination actions).copyBytes.toNat +
      (planSummary specification source destination actions).overwriteBytes.toNat
  additions : ∀ before action after, actions = before ++ action :: after →
    ((planSummary specification source destination before).bytes action.kind).toNat +
      action.bytes < 2 ^ 64

/-- The size of an included item that one peer has alone. -/
def loneBytes (source destination : SourceInventory) (path : PathBuf) : Nat :=
  match sourceByPath source path, sourceByPath destination path with
  | some item, none | none, some item => if item.isEligible then item.bytes else 0
  | _, _ => 0

/-- The items that a plan is made of fit, by their sizes, into 64 bits. -/
structure TotalsFit (specification : ProcessSpecification)
    (source destination : SourceInventory) : Prop where
  alone : specification.mode = .mirror →
    ((allPaths source destination).map (loneBytes source destination)).sum < 2 ^ 64
  transferred : specification.mode = .oneWay →
    ((source.includedItems.filter fun item => (transferKind specification.options.metadata item
      (sourceByPath destination item.relativePath)).isSome).map (·.bytes)).sum < 2 ^ 64
  removed : specification.mode = .oneWay → specification.options.destinationCleanup = true →
    ((destination.includedItems.filter fun item =>
      (sourceByPath source item.relativePath).isNone).map (·.bytes)).sum < 2 ^ 64
  drained : specification.mode = .oneWay → specification.options.safeDelete = true →
    ((source.includedItems.filter fun item =>
      (sourceByPath destination item.relativePath).all (·.isEligible)).map (·.bytes)).sum < 2 ^ 64

/-! ## One addition, and a run of them -/

namespace PlanSummary

variable {summary : PlanSummary} {action : PlanAction} {kind : PlanActionKind}

theorem bytes_add_of_kind (h : action.kind = kind) :
    (summary.add action).bytes kind = summary.bytes kind + action.size.getD 0 := by
  subst h
  unfold add
  cases action.kind <;> rfl

theorem bytes_add_of_ne (h : action.kind ≠ kind) :
    (summary.add action).bytes kind = summary.bytes kind := by
  unfold add
  revert h
  cases action.kind <;> cases kind <;> intro h <;> first | rfl | exact absurd rfl h

@[simp] theorem totalActionCount_add :
    (summary.add action).totalActionCount = summary.totalActionCount + 1 := by
  unfold add totalActionCount
  cases action.kind <;> dsimp only <;> omega

end PlanSummary

section

variable {specification : ProcessSpecification} {source destination : SourceInventory}
  {action : PlanAction} {actions before after : List PlanAction} {kind : PlanActionKind}

@[simp] theorem bytesOf_nil : bytesOf kind [] = 0 := rfl

theorem bytesOf_append :
    bytesOf kind (before ++ after) = bytesOf kind before + bytesOf kind after := by
  unfold bytesOf
  rw [List.filter_append, List.map_append, List.sum_append]

theorem bytesOf_cons : bytesOf kind (action :: actions) =
    (if action.kind = kind then action.bytes else 0) + bytesOf kind actions := by
  unfold bytesOf
  by_cases h : action.kind = kind
  · rw [List.filter_cons_of_pos (by simpa using h), List.map_cons, List.sum_cons, if_pos h]
  · rw [List.filter_cons_of_neg (by simpa using h), if_neg h, Nat.zero_add]

/-- **A total wraps around.** -/
theorem toNat_bytes_foldl (start : PlanSummary) :
    ((actions.foldl PlanSummary.add start).bytes kind).toNat =
      ((start.bytes kind).toNat + bytesOf kind actions) % 2 ^ 64 := by
  induction actions generalizing start with
  | nil =>
      have hlt := (start.bytes kind).toNat_lt
      show (start.bytes kind).toNat = ((start.bytes kind).toNat + 0) % 2 ^ 64
      omega
  | cons action actions ih =>
      rw [List.foldl_cons, ih, bytesOf_cons]
      by_cases h : action.kind = kind
      · rw [PlanSummary.bytes_add_of_kind h, if_pos h, UInt64.toNat_add]
        have hsize : (action.size.getD 0).toNat = action.bytes := by
          unfold PlanAction.bytes
          cases action.size <;> rfl
        omega
      · rw [PlanSummary.bytes_add_of_ne h, if_neg h, Nat.zero_add]

theorem toNat_bytes_planSummary (kind : PlanActionKind) :
    ((planSummary specification source destination actions).bytes kind).toNat =
      bytesOf kind actions % 2 ^ 64 := by
  unfold planSummary mirrorSummaryFor summaryFor
  split
  · rw [toNat_bytes_foldl]
    cases kind <;> exact congrArg (· % 2 ^ 64) (Nat.zero_add _)
  · rw [toNat_bytes_foldl]
    cases kind <;> exact congrArg (· % 2 ^ 64) (Nat.zero_add _)

/-- The totals are exact where the sums fit. -/
theorem totalsExact_iff_sums : TotalsExact specification source destination actions ↔
    (∀ kind, bytesOf kind actions < 2 ^ 64) ∧
      bytesOf .copyToDestination actions + bytesOf .overwriteDestination actions < 2 ^ 64 := by
  have hcopy : (planSummary specification source destination actions).copyBytes.toNat =
      bytesOf .copyToDestination actions % 2 ^ 64 :=
    toNat_bytes_planSummary .copyToDestination
  have hoverwrite : (planSummary specification source destination actions).overwriteBytes.toNat =
      bytesOf .overwriteDestination actions % 2 ^ 64 :=
    toNat_bytes_planSummary .overwriteDestination
  constructor
  · intro h
    have hfits : ∀ kind, bytesOf kind actions < 2 ^ 64 := by
      intro kind
      rw [← h.totals kind]
      exact UInt64.toNat_lt _
    refine ⟨hfits, ?_⟩
    have htotal := h.total
    have hlt := (planSummary specification source destination actions).totalBytes.toNat_lt
    rw [htotal, hcopy, hoverwrite, Nat.mod_eq_of_lt (hfits _), Nat.mod_eq_of_lt (hfits _)] at hlt
    exact hlt
  · rintro ⟨hfits, hsum⟩
    refine ⟨fun kind => ?_, ?_, fun before action after heq => ?_⟩
    · rw [toNat_bytes_planSummary, Nat.mod_eq_of_lt (hfits kind)]
    · unfold PlanSummary.totalBytes
      rw [UInt64.toNat_add, hcopy, hoverwrite, Nat.mod_eq_of_lt (hfits _),
        Nat.mod_eq_of_lt (hfits _), Nat.mod_eq_of_lt hsum]
    · have hall := hfits action.kind
      rw [heq, bytesOf_append, bytesOf_cons, if_pos rfl] at hall
      rw [toNat_bytes_planSummary]
      omega

end

/-! ## What the plans add up -/

def ActionDraft.bytesOf (kind : PlanActionKind) (draft : ActionDraft) : Nat :=
  if draft.kind = kind then (draft.size.map UInt64.toNat).getD 0 else 0

section

variable {specification : ProcessSpecification} {source destination : SourceInventory}
  {item : InventoryItem} {actions : List PlanAction} {kind : PlanActionKind}

theorem bytesOf_numberDrafts (drafts : List ActionDraft) :
    bytesOf kind (numberDrafts drafts) = (drafts.map (·.bytesOf kind)).sum := by
  have hactions : ∀ actions : List PlanAction, bytesOf kind actions =
      ((actions.map PlanAction.draft).map (·.bytesOf kind)).sum := by
    intro actions
    induction actions with
    | nil => rfl
    | cons action actions ih =>
        rw [bytesOf_cons, ih, List.map_cons, List.map_cons, List.sum_cons]
        rfl
  rw [hactions, map_draft_numberDrafts]

/-- What the drafts about one item of the source add to the total of a kind. -/
theorem sum_sourceDrafts :
    ((sourceDrafts specification destination item).map (·.bytesOf kind)).sum =
      (if transferKind specification.options.metadata item
          (sourceByPath destination item.relativePath) = some kind then item.bytes else 0) +
        if kind = .removeSourceAfterVerification ∧ specification.options.safeDelete = true ∧
          (sourceByPath destination item.relativePath).all (·.isEligible) = true then
            item.bytes
        else 0 := by
  unfold sourceDrafts
  dsimp only
  rw [List.map_append, List.sum_append]
  congr 1
  · cases transferKind specification.options.metadata item
        (sourceByPath destination item.relativePath) with
    | none => rfl
    | some transfer =>
        show (if transfer = kind then item.bytes else 0) + 0 = _
        simp only [Nat.add_zero, Option.some.injEq]
  · split <;> rename_i hdrained
    · obtain ⟨hsafe, heligible, -⟩ := hdrained
      show (if PlanActionKind.removeSourceAfterVerification = kind then item.bytes else 0) +
        0 = _
      simp only [Nat.add_zero, hsafe, heligible, and_true, eq_comm]
    · -- of these types a file alone has a size
      rw [List.map_nil, List.sum_nil]
      by_cases hfile : item.itemType = .regularFile
      · rw [if_neg]
        rintro ⟨-, hsafe, heligible⟩
        exact hdrained ⟨hsafe, heligible, .inl hfile⟩
      · have hnone : item.bytes = 0 := by
          unfold InventoryItem.bytes dataSize
          rw [if_neg hfile]
          rfl
        rw [hnone, ite_self]

theorem sum_cleanupDrafts :
    ((cleanupDrafts specification source destination).map (·.bytesOf kind)).sum =
      if kind = .removeDestination ∧ specification.options.destinationCleanup = true then
        ((destination.includedItems.filter fun item =>
          (sourceByPath source item.relativePath).isNone).map (·.bytes)).sum
      else 0 := by
  unfold cleanupDrafts
  split <;> rename_i hcleanup
  · rw [List.map_map]
    by_cases hkind : kind = .removeDestination
    · subst hkind
      rw [if_pos ⟨rfl, hcleanup⟩]
      rfl
    · rw [if_neg fun h => hkind h.1]
      refine List.sum_eq_zero fun bytes hbytes => ?_
      obtain ⟨item, -, rfl⟩ := List.mem_map.mp hbytes
      exact if_neg (Ne.symm hkind)
  · rw [if_neg fun h => hcleanup h.2]
    rfl

theorem transferKind_ne {metadata : MetadataRequirements} {found : Option InventoryItem}
    (hcopy : kind ≠ .copyToDestination) (hoverwrite : kind ≠ .overwriteDestination) :
    transferKind metadata item found ≠ some kind := by
  intro h
  rcases transferKind_cases h with ⟨hkind, -⟩ | ⟨hkind, -⟩
  · exact hcopy hkind
  · exact hoverwrite hkind

/-- **What a One-Way plan adds up.** -/
theorem bytesOf_oneWay (hmode : specification.mode = .oneWay) :
    bytesOf kind (numberDrafts (planDrafts specification source destination)) =
      (source.includedItems.map fun item =>
        if transferKind specification.options.metadata item
          (sourceByPath destination item.relativePath) = some kind then item.bytes
        else 0).sum +
      (source.includedItems.map fun item =>
        if kind = .removeSourceAfterVerification ∧ specification.options.safeDelete = true ∧
          (sourceByPath destination item.relativePath).all (·.isEligible) = true then
            item.bytes
        else 0).sum +
      if kind = .removeDestination ∧ specification.options.destinationCleanup = true then
        ((destination.includedItems.filter fun item =>
          (sourceByPath source item.relativePath).isNone).map (·.bytes)).sum
      else 0 := by
  rw [bytesOf_numberDrafts, planDrafts_oneWay hmode, List.map_append, List.sum_append,
    sum_map_flatMap, sum_cleanupDrafts, ← List.sum_map_add]
  simp only [sum_sourceDrafts]

theorem transferred_oneWay (hmode : specification.mode = .oneWay) :
    bytesOf .copyToDestination (numberDrafts (planDrafts specification source destination)) +
        bytesOf .overwriteDestination (numberDrafts (planDrafts specification source destination)) =
      ((source.includedItems.filter fun item => (transferKind specification.options.metadata item
        (sourceByPath destination item.relativePath)).isSome).map (·.bytes)).sum := by
  rw [bytesOf_oneWay hmode, bytesOf_oneWay hmode]
  simp only [reduceCtorEq, false_and, if_false, List.sum_map_zero,
    Nat.add_zero]
  rw [sum_map_filter_ite, ← List.sum_map_add]
  refine congrArg List.sum (List.map_congr_left fun item _ => ?_)
  cases h : transferKind specification.options.metadata item
      (sourceByPath destination item.relativePath) with
  | none => rfl
  | some kind =>
      rcases transferKind_cases h with ⟨rfl, -⟩ | ⟨rfl, -⟩
      · exact Nat.add_zero _
      · exact Nat.zero_add _

theorem removed_oneWay (hmode : specification.mode = .oneWay) :
    bytesOf .removeDestination (numberDrafts (planDrafts specification source destination)) =
      if specification.options.destinationCleanup = true then
        ((destination.includedItems.filter fun item =>
          (sourceByPath source item.relativePath).isNone).map (·.bytes)).sum
      else 0 := by
  have hnever : ∀ item : InventoryItem, transferKind specification.options.metadata item
      (sourceByPath destination item.relativePath) ≠ some .removeDestination := fun _ =>
    transferKind_ne (by decide) (by decide)
  rw [bytesOf_oneWay hmode]
  simp only [hnever, reduceCtorEq, false_and, true_and, if_false,
    List.sum_map_zero, Nat.zero_add]

theorem drained_oneWay (hmode : specification.mode = .oneWay) :
    bytesOf .removeSourceAfterVerification
        (numberDrafts (planDrafts specification source destination)) =
      if specification.options.safeDelete = true then
        ((source.includedItems.filter fun item =>
          (sourceByPath destination item.relativePath).all (·.isEligible)).map (·.bytes)).sum
      else 0 := by
  have hnever : ∀ item : InventoryItem, transferKind specification.options.metadata item
      (sourceByPath destination item.relativePath) ≠ some .removeSourceAfterVerification := fun _ =>
    transferKind_ne (by decide) (by decide)
  rw [bytesOf_oneWay hmode]
  simp only [hnever, reduceCtorEq, false_and, true_and, if_false, List.sum_map_zero, Nat.zero_add,
    Nat.add_zero]
  split <;> rename_i hsafe
  · rw [sum_map_filter_ite]
    simp only [hsafe, true_and]
  · simp only [hsafe, Bool.false_eq_true, false_and, if_false, List.sum_map_zero]

/-- **What a Mirror plan adds up**: copies, and nothing else. -/
theorem bytesOf_mirror (hmode : specification.mode = .mirror) :
    bytesOf kind (numberDrafts (planDrafts specification source destination)) =
      if kind = .copyToDestination then
        ((allPaths source destination).map (loneBytes source destination)).sum
      else 0 := by
  have hcopy : ∀ path side item,
      ((copyDraft path side item).map (·.bytesOf kind)).getD 0 =
        if kind = .copyToDestination then if item.isEligible then item.bytes else 0
        else 0 := by
    intro path side item
    unfold copyDraft
    split
    · show (if PlanActionKind.copyToDestination = kind then item.bytes else 0) = _
      simp only [eq_comm]
    · rw [ite_self]
      rfl
  have hpath : ∀ path, ((mirrorDraft source destination path).map (·.bytesOf kind)).getD 0 =
      if kind = .copyToDestination then loneBytes source destination path else 0 := by
    intro path
    unfold mirrorDraft loneBytes
    cases sourceByPath source path <;> cases sourceByPath destination path
    · exact (ite_self 0).symm
    · exact hcopy _ _ _
    · exact hcopy _ _ _
    · exact (ite_self 0).symm
  rw [bytesOf_numberDrafts, planDrafts_mirror hmode, mirrorDrafts, sum_map_filterMap]
  simp only [hpath]
  split
  · rfl
  · rw [List.sum_map_zero]

/-- **The totals of a plan are exact where its sizes fit.** -/
theorem totals_exact_iff (hplan : buildPlan specification source destination = .ok actions) :
    TotalsExact specification source destination actions ↔
      TotalsFit specification source destination := by
  rw [totalsExact_iff_sums, (buildPlan_eq_ok.mp hplan).1]
  cases hmode : specification.mode with
  | mirror =>
      have hnot : specification.mode ≠ .oneWay := by
        rw [hmode]
        decide
      simp only [bytesOf_mirror hmode, reduceCtorEq, if_true, if_false, Nat.add_zero]
      constructor
      · rintro ⟨-, hsum⟩
        exact ⟨fun _ => hsum, fun h => absurd h hnot, fun h => absurd h hnot,
          fun h => absurd h hnot⟩
      · intro h
        refine ⟨fun kind => ?_, h.alone hmode⟩
        split
        · exact h.alone hmode
        · decide
  | oneWay =>
      have hnot : specification.mode ≠ .mirror := by
        rw [hmode]
        decide
      rw [transferred_oneWay hmode]
      constructor
      · rintro ⟨hsums, htransferred⟩
        refine ⟨fun h => absurd h hnot, fun _ => htransferred, fun _ hcleanup => ?_,
          fun _ hsafe => ?_⟩
        · have hremoved := hsums .removeDestination
          rwa [removed_oneWay hmode, if_pos hcleanup] at hremoved
        · have hdrained := hsums .removeSourceAfterVerification
          rwa [drained_oneWay hmode, if_pos hsafe] at hdrained
      · intro h
        have htransferred := h.transferred hmode
        refine ⟨fun kind => ?_, htransferred⟩
        rw [← transferred_oneWay hmode] at htransferred
        cases kind with
        | copyToDestination => omega
        | overwriteDestination => omega
        | removeDestination =>
            rw [removed_oneWay hmode]
            split <;> rename_i hcleanup
            · exact h.removed hmode hcleanup
            · decide
        | removeSourceAfterVerification =>
            rw [drained_oneWay hmode]
            split <;> rename_i hsafe
            · exact h.drained hmode hsafe
            · decide

end

/-! ### Sparse files -/

/-- A file of `2 ^ 63 - 1` bytes. -/
def sparseItem (name : UInt8) : InventoryItem :=
  inventoryItem ⟨[name]⟩ false { plainFile zeroHash with
    metadata := { (plainFile zeroHash).metadata with size := 9223372036854775807 } }

/-- Two of them are totalled right. -/
theorem totals_exact_two :
    TotalsExact copyingSpecification ⟨[sparseItem 97, sparseItem 98]⟩ ⟨[]⟩
      [⟨1, ⟨[97]⟩, .copyToDestination, .peerA, some 9223372036854775807⟩,
        ⟨2, ⟨[98]⟩, .copyToDestination, .peerA, some 9223372036854775807⟩] := by
  refine (totals_exact_iff (by decide +kernel)).mpr ⟨nofun, fun _ => ?_, fun _ _ => ?_, nofun⟩
  · decide +kernel
  · decide +kernel

/-- Three are not. -/
theorem totals_not_exact :
    ¬ ∀ (specification : ProcessSpecification) (source destination : SourceInventory)
      (actions : List PlanAction), buildPlan specification source destination = .ok actions →
        TotalsExact specification source destination actions := by
  intro h
  have hplan : buildPlan copyingSpecification
      ⟨[sparseItem 97, sparseItem 98, sparseItem 99]⟩ ⟨[]⟩ =
        .ok [⟨1, ⟨[97]⟩, .copyToDestination, .peerA, some 9223372036854775807⟩,
          ⟨2, ⟨[98]⟩, .copyToDestination, .peerA, some 9223372036854775807⟩,
          ⟨3, ⟨[99]⟩, .copyToDestination, .peerA, some 9223372036854775807⟩] := by
    decide +kernel
  have hcopied := (h _ _ _ _ hplan).totals .copyToDestination
  revert hcopied
  decide +kernel

end SyncPlus
