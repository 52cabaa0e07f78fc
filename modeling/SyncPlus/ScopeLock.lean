import Mathlib.Data.List.Sort
import SyncPlus.PathOrder
import SyncPlus.PeerScope

/-!
# Scope locks

The registry of the scopes that active runs hold. A run asks for all its scopes at
once and is granted a lease when none overlaps one that is held; dropping the lease
gives them back by its token. Along every history the scopes held are those of the
leases that are alive, lease by lease, each under a token of its own
(`LockHistory.wellHeld`); so scopes of different leases never overlap, and a lease
holds what it was asked for until it gives that back (`scope_locks_exclude`).
-/

namespace SyncPlus

structure ScopeLockOwner where
  profileName : String
  runId : RunId
  deriving DecidableEq

structure HeldScope where
  token : UInt64
  scope : PeerScope
  owner : ScopeLockOwner
  deriving DecidableEq

structure ScopeLockConflict where
  requested : PeerScope
  held : PeerScope
  owner : ScopeLockOwner
  deriving DecidableEq

inductive ScopeLockError where
  | emptyScopes
  | conflict (conflict : ScopeLockConflict)
  deriving DecidableEq

structure LockState where
  nextToken : UInt64
  held : List HeldScope

def LockState.empty : LockState := ⟨0, []⟩

/-- `starts_with` compares component by component. -/
def PeerScope.overlaps (scope other : PeerScope) : Bool :=
  scope.scope = other.scope &&
    (other.path.isPrefixOf scope.path || scope.path.isPrefixOf other.path)

/-- `Vec::dedup` past an element that is kept: repeated neighbours are dropped. -/
def dedupAfter {α : Type} [DecidableEq α] (kept : α) : List α → List α
  | [] => []
  | a :: rest => if a = kept then dedupAfter kept rest else a :: dedupAfter a rest

def dedup {α : Type} [DecidableEq α] : List α → List α
  | [] => []
  | a :: rest => a :: dedupAfter a rest

def requestedScopes (scopes : List PeerScope) : List PeerScope :=
  dedup (scopes.insertionSort fun left right => (compare left.path right.path).isLE = true)

namespace LockState

/-- The first requested scope that overlaps a held one, with that one. -/
def conflict? (state : LockState) (requested : List PeerScope) : Option ScopeLockConflict :=
  requested.findSome? fun scope =>
    (state.held.find? fun held => scope.overlaps held.scope).map fun held =>
      ⟨scope, held.scope, held.owner⟩

/-- `wrapping_add(1).max(1)`. -/
def followingToken (state : LockState) : UInt64 := max (state.nextToken + 1) 1

/-- `PeerScopeLockRegistry::acquire`, which returns the token of the lease. -/
def acquire (state : LockState) (owner : ScopeLockOwner) (scopes : List PeerScope) :
    Except ScopeLockError UInt64 × LockState :=
  let requested := requestedScopes scopes
  if requested.isEmpty then (.error .emptyScopes, state)
  else
    match state.conflict? requested with
    | some conflict => (.error (.conflict conflict), state)
    | none =>
        let token := state.followingToken
        (.ok token, ⟨token, state.held ++ requested.map fun scope => ⟨token, scope, owner⟩⟩)

def release (state : LockState) (token : UInt64) : LockState :=
  { state with held := state.held.filter fun held => held.token ≠ token }

end LockState

/-! ## Histories -/

/-- A lease that is alive, with the request that it was granted for. -/
structure PeerScopeLock where
  token : UInt64
  owner : ScopeLockOwner
  scopes : List PeerScope

/-- What the lease was granted. -/
def PeerScopeLock.acquired (lease : PeerScopeLock) : List HeldScope :=
  (requestedScopes lease.scopes).map fun scope => ⟨lease.token, scope, lease.owner⟩

structure LockRegistry where
  state : LockState
  leases : List PeerScopeLock
  granted : Nat

def LockRegistry.empty : LockRegistry := ⟨.empty, [], 0⟩

inductive LockHistory : LockRegistry → Prop
  | empty : LockHistory .empty
  | granted {registry : LockRegistry} {owner : ScopeLockOwner} {scopes : List PeerScope}
      {token : UInt64} {state : LockState} : LockHistory registry →
      registry.state.acquire owner scopes = (.ok token, state) →
        LockHistory ⟨state, registry.leases ++ [⟨token, owner, scopes⟩], registry.granted + 1⟩
  | refused {registry : LockRegistry} {owner : ScopeLockOwner} {scopes : List PeerScope}
      {error : ScopeLockError} {state : LockState} : LockHistory registry →
      registry.state.acquire owner scopes = (.error error, state) →
        LockHistory { registry with state }
  | dropped {registry : LockRegistry} {before after : List PeerScopeLock} {lease : PeerScopeLock} :
      LockHistory registry → registry.leases = before ++ lease :: after →
        LockHistory ⟨registry.state.release lease.token, before ++ after, registry.granted⟩

/-- What every history keeps. -/
structure LockRegistry.WellHeld (registry : LockRegistry) : Prop where
  next : registry.state.nextToken.toNat = registry.granted
  held : registry.state.held = registry.leases.flatMap (·.acquired)
  issued : ∀ lease ∈ registry.leases, lease.token.toNat ≤ registry.granted
  apart : (registry.leases.map (·.token)).Nodup
  exclusive : ∀ held ∈ registry.state.held, ∀ held' ∈ registry.state.held,
    held.token ≠ held'.token → held.scope.overlaps held'.scope = false

theorem PeerScope.overlaps_comm (scope other : PeerScope) :
    scope.overlaps other = other.overlaps scope := by
  have hscope : decide (scope.scope = other.scope) = decide (other.scope = scope.scope) :=
    decide_eq_decide.mpr eq_comm
  rw [overlaps, overlaps, hscope, Bool.or_comm]

theorem mem_dedupAfter {α : Type} [DecidableEq α] {a kept : α} {rest : List α} :
    a ∈ kept :: dedupAfter kept rest ↔ a ∈ kept :: rest := by
  induction rest generalizing kept with
  | nil => rfl
  | cons b rest ih =>
      by_cases hb : b = kept
      · subst hb
        rw [dedupAfter, if_pos rfl, ih]
        simp
      · rw [dedupAfter, if_neg hb, List.mem_cons, ih, List.mem_cons (l := b :: rest)]

/-- Sorting and dropping repetitions keep what was asked for. -/
theorem mem_requestedScopes {scope : PeerScope} {scopes : List PeerScope} :
    scope ∈ requestedScopes scopes ↔ scope ∈ scopes := by
  rw [← (List.perm_insertionSort (fun left right => (compare left.path right.path).isLE = true)
    scopes).mem_iff, requestedScopes]
  cases scopes.insertionSort fun left right => (compare left.path right.path).isLE = true with
  | nil => rfl
  | cons first rest => exact mem_dedupAfter

namespace PeerScopeLock

variable {lease : PeerScopeLock} {held : HeldScope}

theorem token_of_acquired (h : held ∈ lease.acquired) : held.token = lease.token := by
  obtain ⟨scope, -, rfl⟩ := List.mem_map.mp h
  rfl

theorem mem_acquired_iff {scope : PeerScope} :
    ⟨lease.token, scope, lease.owner⟩ ∈ lease.acquired ↔ scope ∈ lease.scopes := by
  rw [acquired, List.mem_map, ← mem_requestedScopes]
  constructor
  · rintro ⟨scope', hscope, heq⟩
    cases heq
    exact hscope
  · intro hscope
    exact ⟨scope, hscope, rfl⟩

end PeerScopeLock

/-- A refused request changes nothing. -/
theorem acquire_error {state state' : LockState} {owner : ScopeLockOwner}
    {scopes : List PeerScope} {error : ScopeLockError}
    (h : state.acquire owner scopes = (.error error, state')) : state' = state := by
  unfold LockState.acquire at h
  dsimp only at h
  split at h
  · exact (Prod.mk.inj h).2.symm
  · split at h
    · exact (Prod.mk.inj h).2.symm
    · cases h

/-- A granted request adds what it asks for under a new token, and none of its scopes
overlaps one that was held. -/
theorem acquire_ok {state state' : LockState} {owner : ScopeLockOwner}
    {scopes : List PeerScope} {token : UInt64}
    (h : state.acquire owner scopes = (.ok token, state')) :
    token = state.followingToken ∧ state'.nextToken = token ∧
      state'.held = state.held ++ (PeerScopeLock.mk token owner scopes).acquired ∧
      ∀ held ∈ (PeerScopeLock.mk token owner scopes).acquired, ∀ held' ∈ state.held,
        held.scope.overlaps held'.scope = false := by
  unfold LockState.acquire at h
  dsimp only at h
  split at h
  · cases h
  · split at h
    · cases h
    · rename_i hnone
      obtain ⟨htoken, rfl⟩ := Prod.mk.inj h
      cases htoken
      refine ⟨rfl, rfl, rfl, ?_⟩
      intro held hheld held' hheld'
      obtain ⟨scope, hscope, rfl⟩ := List.mem_map.mp hheld
      rw [LockState.conflict?, List.findSome?_eq_none_iff] at hnone
      have hfree := List.find?_eq_none.mp (Option.map_eq_none_iff.mp (hnone scope hscope)) held' hheld'
      exact Bool.eq_false_iff.mpr hfree

theorem followingToken_toNat {state : LockState} (h : state.nextToken.toNat + 1 < 2 ^ 64) :
    state.followingToken.toNat = state.nextToken.toNat + 1 := by
  have hnext : (state.nextToken + 1).toNat = state.nextToken.toNat + 1 := by
    rw [UInt64.toNat_add]
    exact Nat.mod_eq_of_lt h
  have hpos : ¬state.nextToken + 1 ≤ 1 ∨ state.nextToken + 1 = 1 := by
    rw [UInt64.le_iff_toNat_le, ← UInt64.toNat_inj, hnext]
    show ¬state.nextToken.toNat + 1 ≤ 1 ∨ state.nextToken.toNat + 1 = 1
    omega
  have hmax : max (state.nextToken + 1) 1 = state.nextToken + 1 := by
    show (if state.nextToken + 1 ≤ 1 then (1 : UInt64) else state.nextToken + 1) = _
    rcases hpos with hgt | heq
    · exact if_neg hgt
    · rw [heq]
      rfl
  rw [LockState.followingToken, hmax, hnext]

namespace LockRegistry.WellHeld

variable {registry : LockRegistry}

/-- Taking the entries of one lease out leaves those of the others. -/
theorem release_held (h : registry.WellHeld) {before after : List PeerScopeLock}
    {lease : PeerScopeLock} (hleases : registry.leases = before ++ lease :: after) :
    (registry.state.release lease.token).held = (before ++ after).flatMap (·.acquired) := by
  have hapart := h.apart
  rw [hleases, List.map_append, List.map_cons, List.nodup_middle, List.nodup_cons,
    ← List.map_append] at hapart
  have hother : ∀ other ∈ before ++ after, other.token ≠ lease.token := fun other hother heq =>
    hapart.1 (heq ▸ List.mem_map_of_mem hother)
  have hkeep : ∀ leases : List PeerScopeLock, (∀ other ∈ leases, other ∈ before ++ after) →
      (leases.flatMap (·.acquired)).filter (fun held => held.token ≠ lease.token) =
        leases.flatMap (·.acquired) := by
    intro leases hsub
    refine List.filter_eq_self.mpr fun held hheld => ?_
    obtain ⟨other, hmem, hheld⟩ := List.mem_flatMap.mp hheld
    have hne := hother other (hsub other hmem)
    rw [PeerScopeLock.token_of_acquired hheld]
    exact decide_eq_true hne
  have hgone : lease.acquired.filter (fun held => held.token ≠ lease.token) = [] := by
    refine List.filter_eq_nil_iff.mpr fun held hheld => ?_
    simp [PeerScopeLock.token_of_acquired hheld]
  rw [LockState.release, h.held, hleases, List.flatMap_append, List.flatMap_cons,
    List.filter_append, List.filter_append, hgone, List.nil_append,
    hkeep before fun other => List.mem_append_left _,
    hkeep after fun other => List.mem_append_right _, List.flatMap_append]

end LockRegistry.WellHeld

/-- **What a history keeps.** -/
theorem LockHistory.wellHeld {registry : LockRegistry} (h : LockHistory registry)
    (hfew : registry.granted < 2 ^ 64 - 1) : registry.WellHeld := by
  induction h with
  | empty => exact ⟨rfl, rfl, nofun, List.nodup_nil, nofun⟩
  | @granted registry owner scopes token state hhistory hacquire ih =>
      have hfew : registry.granted + 1 < 2 ^ 64 - 1 := hfew
      have ih := ih (by omega)
      obtain ⟨rfl, hnext, hheld, hfree⟩ := acquire_ok hacquire
      have htoken : registry.state.followingToken.toNat = registry.granted + 1 := by
        rw [followingToken_toNat, ih.next]
        rw [ih.next]
        omega
      have holder : ∀ held ∈ registry.state.held,
          held.token ≠ registry.state.followingToken := by
        intro held hmem heq
        rw [ih.held] at hmem
        obtain ⟨lease, hlease, hmem⟩ := List.mem_flatMap.mp hmem
        have hissued := ih.issued lease hlease
        rw [← PeerScopeLock.token_of_acquired hmem, heq, htoken] at hissued
        omega
      constructor
      · show state.nextToken.toNat = registry.granted + 1
        rw [hnext, htoken]
      · show state.held = _
        rw [hheld, List.flatMap_append, ih.held]
        simp
      · intro lease hlease
        rcases List.mem_append.mp hlease with hlease | hlease
        · exact (ih.issued lease hlease).trans (Nat.le_succ _)
        · obtain rfl := List.mem_singleton.mp hlease
          exact htoken.le
      · show (List.map _ (registry.leases ++ [_])).Nodup
        rw [List.map_append, List.map_singleton, ← List.concat_eq_append]
        refine ih.apart.concat fun hmem => ?_
        obtain ⟨lease, hlease, heq⟩ := List.mem_map.mp hmem
        have hissued := ih.issued lease hlease
        rw [heq, htoken] at hissued
        omega
      · show ∀ held ∈ state.held, ∀ held' ∈ state.held, _
        rw [hheld]
        intro held hmem held' hmem' hne
        rcases List.mem_append.mp hmem with hmem | hmem <;>
          rcases List.mem_append.mp hmem' with hmem' | hmem'
        · exact ih.exclusive held hmem held' hmem' hne
        · rw [PeerScope.overlaps_comm]
          exact hfree held' hmem' held hmem
        · exact hfree held hmem held' hmem'
        · have htokens := PeerScopeLock.token_of_acquired hmem
          exact absurd (htokens.trans (PeerScopeLock.token_of_acquired hmem').symm) hne
  | refused hhistory hacquire ih =>
      have ih := ih hfew
      rw [acquire_error hacquire]
      exact ih
  | @dropped registry before after lease hhistory hleases ih =>
      have ih := ih hfew
      have hsub : (before ++ after).Sublist registry.leases := by
        rw [hleases]
        exact (List.Sublist.refl before).append (List.sublist_cons_self lease after)
      exact {
        next := ih.next
        held := ih.release_held hleases
        issued := fun other hother => ih.issued other (hsub.mem hother)
        apart := (hsub.map _).nodup ih.apart
        exclusive := fun held hmem held' hmem' =>
          ih.exclusive held (List.mem_of_mem_filter hmem) held' (List.mem_of_mem_filter hmem') }

/-- **Scope locks exclude each other.** After every history of requests and drops:
scopes held under different leases do not overlap, the leases have different tokens,
what is held is what the leases were granted, and a lease holds exactly the scopes it
was asked for; a refused request changes nothing, and dropping a lease takes away
exactly what it was granted. -/
theorem scope_locks_exclude {registry : LockRegistry} (h : LockHistory registry)
    (hfew : registry.granted < 2 ^ 64 - 1) :
    (∀ held ∈ registry.state.held, ∀ held' ∈ registry.state.held,
      held.token ≠ held'.token → held.scope.overlaps held'.scope = false) ∧
    (registry.leases.map (·.token)).Nodup ∧
    registry.state.held = registry.leases.flatMap (·.acquired) ∧
    (∀ lease ∈ registry.leases, ∀ scope,
      ⟨lease.token, scope, lease.owner⟩ ∈ registry.state.held ↔ scope ∈ lease.scopes) ∧
    (∀ owner scopes error state, registry.state.acquire owner scopes = (.error error, state) →
      state = registry.state) ∧
    ∀ lease ∈ registry.leases, registry.state.held.Perm
      (lease.acquired ++ (registry.state.release lease.token).held) := by
  have hwell := h.wellHeld hfew
  refine ⟨hwell.exclusive, hwell.apart, hwell.held, ?_, fun _ _ _ _ => acquire_error, ?_⟩
  · intro lease hlease scope
    rw [← PeerScopeLock.mem_acquired_iff]
    constructor
    · -- an entry under the lease's token can only be the lease's own
      intro hmem
      rw [hwell.held] at hmem
      obtain ⟨other, hother, hmem⟩ := List.mem_flatMap.mp hmem
      have htoken : lease.token = other.token := PeerScopeLock.token_of_acquired hmem
      rwa [List.inj_on_of_nodup_map hwell.apart hlease hother htoken] at hmem ⊢
    · intro hmem
      rw [hwell.held]
      exact List.mem_flatMap_of_mem hlease hmem
  · intro lease hlease
    obtain ⟨before, after, hleases⟩ := List.append_of_mem hlease
    rw [hwell.release_held hleases, hwell.held, hleases, List.flatMap_append, List.flatMap_cons,
      List.flatMap_append]
    exact List.perm_append_comm_assoc _ _ _

/-! ### Two leases

The second run asks for two scopes, one of them twice; a third asks for a place below
a scope of the second and is refused. -/

def dataScope : PeerScope := ⟨.local, [.rootDir, .normal [100]]⟩

def photosScope : PeerScope := ⟨.local, [.rootDir, .normal [112]]⟩

def albumScope : PeerScope := ⟨.local, [.rootDir, .normal [112], .normal [49]]⟩

def remoteScope : PeerScope := ⟨.ssh "host" "user" 22, [.rootDir, .normal [100]]⟩

def secondLease : PeerScopeLock := ⟨2, ⟨"second", ⟨2⟩⟩, [remoteScope, photosScope, remoteScope]⟩

def twoLocks : LockState :=
  let first := (LockState.empty.acquire ⟨"first", ⟨1⟩⟩ [dataScope]).2
  (first.acquire secondLease.owner secondLease.scopes).2

theorem scope_locks_exclude_two :
    twoLocks.held = [⟨1, dataScope, ⟨"first", ⟨1⟩⟩⟩, ⟨2, remoteScope, ⟨"second", ⟨2⟩⟩⟩,
        ⟨2, photosScope, ⟨"second", ⟨2⟩⟩⟩] ∧
      (∀ held ∈ twoLocks.held, ∀ held' ∈ twoLocks.held,
        held.token ≠ held'.token → held.scope.overlaps held'.scope = false) ∧
      (∀ scope, ⟨2, scope, ⟨"second", ⟨2⟩⟩⟩ ∈ twoLocks.held ↔
        scope ∈ [remoteScope, photosScope, remoteScope]) ∧
      (twoLocks.acquire ⟨"third", ⟨3⟩⟩ [albumScope]).2 = twoLocks ∧
      twoLocks.held.Perm (secondLease.acquired ++ (twoLocks.release 2).held) :=
  let first := (LockState.empty.acquire ⟨"first", ⟨1⟩⟩ [dataScope]).2
  have hfirst : LockRegistry.empty.state.acquire ⟨"first", ⟨1⟩⟩ [dataScope] = (.ok 1, first) := rfl
  have hsecond : first.acquire secondLease.owner secondLease.scopes = (.ok 2, twoLocks) := rfl
  have hthird : twoLocks.acquire ⟨"third", ⟨3⟩⟩ [albumScope] =
      (.error (.conflict ⟨albumScope, photosScope, secondLease.owner⟩), twoLocks) := rfl
  have h : LockHistory ⟨twoLocks, [⟨1, ⟨"first", ⟨1⟩⟩, [dataScope]⟩, secondLease], 2⟩ :=
    .granted (.granted .empty hfirst) hsecond
  have hlocks := scope_locks_exclude h (by decide)
  ⟨by decide, hlocks.1, hlocks.2.2.2.1 secondLease (by simp), hlocks.2.2.2.2.1 _ _ _ _ hthird,
    hlocks.2.2.2.2.2 secondLease (by simp)⟩

end SyncPlus
