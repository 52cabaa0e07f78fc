import Mathlib.Algebra.Group.Nat.Defs

/-!
# Searches with a counter

A loop that counts its rounds in 32 bits. A round has an answer or goes on to the next
number, and after the last number there is no next one. So it ends after finitely many
rounds whatever they do, with the answer of the first round that has one
(`exists_stopsAt`).
-/

namespace SyncPlus

/-- `checked_add(1)`. -/
def checkedNext (n : UInt32) : Option UInt32 :=
  if n.toNat + 1 < 2 ^ 32 then some (n + 1) else none

theorem toNat_of_checkedNext {n next : UInt32} (h : checkedNext n = some next) :
    next.toNat = n.toNat + 1 := by
  unfold checkedNext at h
  split at h
  · rename_i hlt
    cases h
    rw [UInt32.toNat_add, UInt32.toNat_one]
    exact Nat.mod_eq_of_lt hlt
  · cases h

section

variable {β : Type} (round : UInt32 → Option β) (exhausted : β)

/-- The rounds from a number on. -/
def searchFrom (n : UInt32) : β :=
  match round n with
  | some answer => answer
  | none =>
      match _h : checkedNext n with
      | some next => searchFrom next
      | none => exhausted
termination_by 2 ^ 32 - n.toNat
decreasing_by
  have hnext := toNat_of_checkedNext _h
  have hlt := next.toNat_lt
  omega

/-- The loop ends with this round: it has gone through those before it. -/
structure StopsAt (n last : UInt32) : Prop where
  started : n.toNat ≤ last.toNat
  wentOn : ∀ k : UInt32, n.toNat ≤ k.toNat → k.toNat < last.toNat → round k = none
  stops : round last = none → checkedNext last = none

variable {round exhausted}

/-- **The search ends**, with the answer of its last round. -/
theorem exists_stopsAt (n : UInt32) :
    ∃ last, StopsAt round n last ∧ searchFrom round exhausted n = (round last).getD exhausted := by
  induction n using searchFrom.induct round with
  | case1 n answer hround =>
      refine ⟨n, ⟨Nat.le_refl _, fun k hle hlt => absurd hle (by omega), ?_⟩, ?_⟩
      · rw [hround]
        nofun
      · rw [searchFrom, hround]
        rfl
  | case2 n hround next hnext ih =>
      have hcount := toNat_of_checkedNext hnext
      obtain ⟨last, hstops, heq⟩ := ih
      have hstarted := hstops.started
      refine ⟨last, ⟨by omega, fun k hle hlt => ?_, hstops.stops⟩, ?_⟩
      · by_cases hk : k.toNat = n.toNat
        · rw [UInt32.toNat_inj.mp hk]
          exact hround
        · exact hstops.wentOn k (by omega) hlt
      · rw [searchFrom, hround]
        dsimp only
        split
        · rename_i next' hnext'
          rw [hnext] at hnext'
          cases hnext'
          exact heq
        · rename_i hnone
          rw [hnext] at hnone
          cases hnone
  | case3 n hround hnext =>
      refine ⟨n, ⟨Nat.le_refl _, fun k hle hlt => absurd hle (by omega), fun _ => hnext⟩, ?_⟩
      rw [searchFrom, hround]
      dsimp only
      split
      · rename_i next hsome
        rw [hnext] at hsome
        cases hsome
      · rfl

/-- A result other than the one of a search that found nothing is the answer of a round. -/
theorem searchFrom_eq {n : UInt32} {answer : β} (h : searchFrom round exhausted n = answer)
    (hne : answer ≠ exhausted) : ∃ k, round k = some answer := by
  have hstops : ∃ last, StopsAt round n last ∧
      searchFrom round exhausted n = (round last).getD exhausted := exists_stopsAt n
  obtain ⟨last, -, heq⟩ := hstops
  cases hround : round last with
  | none =>
      rw [hround] at heq
      exact absurd (h.symm.trans heq) hne
  | some found =>
      rw [hround] at heq
      exact ⟨last, hround.trans (congrArg some (heq.symm.trans h))⟩

end

end SyncPlus
