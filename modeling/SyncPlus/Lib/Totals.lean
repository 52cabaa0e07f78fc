import Mathlib.Algebra.BigOperators.Ring.List
import Mathlib.Algebra.Ring.Nat

/-!
# Totals

Sums of sizes, as a counter of 64 bits takes them and as numbers. A counter
that saturates stands at the true total or, past its range, at the greatest
number it has (`saturatingAdd_saturate`), whatever the order of the additions.
Two totals over one list compare as what each has beyond the other
(`sum_le_sum_iff_excess`).
-/

namespace SyncPlus

/-- The number, or the greatest of 64 bits. -/
def saturate (n : Nat) : UInt64 := UInt64.ofNat (min n (2 ^ 64 - 1))

/-- `u64::saturating_add`. -/
def saturatingAdd (a b : UInt64) : UInt64 := saturate (a.toNat + b.toNat)

/-- `u64::saturating_mul`. -/
def saturatingMul (a b : UInt64) : UInt64 := saturate (a.toNat * b.toNat)

theorem toNat_saturate (n : Nat) : (saturate n).toNat = min n (2 ^ 64 - 1) := by
  rw [saturate, UInt64.toNat_ofNat']
  omega

theorem saturate_toNat (a : UInt64) : saturate a.toNat = a := by
  have hlt := a.toNat_lt
  refine UInt64.toNat_inj.mp ?_
  rw [toNat_saturate]
  omega

theorem saturate_zero : saturate 0 = 0 := rfl

/-- The order of additions does not matter: what saturates stays. -/
theorem saturatingAdd_saturate (m n : Nat) :
    saturatingAdd (saturate m) (saturate n) = saturate (m + n) := by
  refine UInt64.toNat_inj.mp ?_
  rw [saturatingAdd, toNat_saturate, toNat_saturate, toNat_saturate, toNat_saturate]
  omega

theorem saturatingMul_two (n : Nat) : saturatingMul (saturate n) 2 = saturate (2 * n) := by
  have htwo : (2 : UInt64).toNat = 2 := rfl
  refine UInt64.toNat_inj.mp ?_
  rw [saturatingMul, toNat_saturate, toNat_saturate, toNat_saturate, htwo]
  omega

/-- The total over the entries that pass a test. -/
theorem sum_map_filter {α : Type} (test : α → Bool) (size : α → Nat) (l : List α) :
    ((l.filter test).map size).sum =
      (l.map fun x => (if test x = true then 1 else 0) * size x).sum := by
  induction l with
  | nil => rfl
  | cons x l ih =>
      rw [List.map_cons, List.sum_cons, ← ih]
      by_cases htest : test x = true
      · rw [List.filter_cons_of_pos htest, List.map_cons, List.sum_cons, if_pos htest, Nat.one_mul]
      · rw [List.filter_cons_of_neg htest, if_neg htest, Nat.zero_mul, Nat.zero_add]

/-- The same, entry by entry. -/
theorem sum_map_filter_ite {α : Type} (test : α → Bool) (size : α → Nat) (l : List α) :
    ((l.filter test).map size).sum = (l.map fun x => if test x = true then size x else 0).sum := by
  rw [sum_map_filter]
  refine congrArg List.sum (List.map_congr_left fun x _ => ?_)
  rw [ite_mul, Nat.one_mul, Nat.zero_mul]

theorem sum_map_flatMap {α β : Type} (size : β → Nat) (f : α → List β) (l : List α) :
    ((l.flatMap f).map size).sum = (l.map fun x => ((f x).map size).sum).sum := by
  rw [List.flatMap_def, List.map_flatten, List.sum_flatten, List.map_map, List.map_map]
  rfl

theorem sum_map_filterMap {α β : Type} (size : β → Nat) (f : α → Option β) (l : List α) :
    ((l.filterMap f).map size).sum = (l.map fun x => ((f x).map size).getD 0).sum := by
  induction l with
  | nil => rfl
  | cons x l ih =>
      rw [List.map_cons, List.sum_cons, ← ih]
      cases h : f x with
      | none => rw [List.filterMap_cons_none h, Option.map_none, Option.getD_none, Nat.zero_add]
      | some y => rw [List.filterMap_cons_some h, List.map_cons, List.sum_cons]; rfl

section

variable {α : Type} (often other size : α → Nat) (l : List α)

/-- What two totals have in common and beyond each other. -/
theorem sum_add_excess :
    (l.map fun x => often x * size x).sum + (l.map fun x => (other x - often x) * size x).sum =
      (l.map fun x => other x * size x).sum +
        (l.map fun x => (often x - other x) * size x).sum := by
  rw [← List.sum_map_add, ← List.sum_map_add]
  refine congrArg List.sum (List.map_congr_left fun x _ => ?_)
  rw [← Nat.add_mul, ← Nat.add_mul]
  congr 1
  omega

/-- **One total is within another** when what it has beyond the other is no
more than what the other has beyond it. -/
theorem sum_le_sum_iff_excess :
    (l.map fun x => often x * size x).sum ≤ (l.map fun x => other x * size x).sum ↔
      (l.map fun x => (often x - other x) * size x).sum ≤
        (l.map fun x => (other x - often x) * size x).sum := by
  have hexcess := sum_add_excess often other size l
  omega

end

end SyncPlus
