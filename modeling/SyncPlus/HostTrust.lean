import SyncPlus.Evidence
import SyncPlus.Profile

/-!
# SSH host identities

The fingerprint that is stored for a server and port, and the controllers that inspect
it, approve it and give out permits. A decision is made of what a probe observed and
what was stored then; `approve` applies it later, to a table that other controllers
may have written since, and replaces what it finds.

Permits are right in every run, and an approval that is unattended or meant for
another host stores nothing. What is stored stays, in a run, exactly when no first-use
decision is approved for a host that meanwhile has another fingerprint
(`identities_kept_iff`).
-/

namespace SyncPlus

structure SshHost where
  server : String
  port : UInt16
  deriving DecidableEq

def SshHost.fromPeer (peer : SshPeer) : SshHost := ⟨peer.server, peer.port⟩

structure SshHostFingerprint where
  digest : Sha256
  deriving DecidableEq

inductive SshHostFingerprintError where
  | unsupportedAlgorithm
  | invalidDigestLength
  deriving DecidableEq

def SshHostFingerprintError.text : SshHostFingerprintError → String
  | unsupportedAlgorithm => "unsupported SSH host fingerprint algorithm"
  | invalidDigestLength => "invalid SSH host fingerprint digest length"

/-- A row of `ssh_host_fingerprints`, whose key is the host. -/
structure FingerprintRow where
  algorithm : String
  digest : List UInt8
  deriving DecidableEq

def FingerprintRow.ofFingerprint (fingerprint : SshHostFingerprint) : FingerprintRow :=
  ⟨"sha256", fingerprint.digest.toList⟩

def SshHostFingerprint.fromStorage (row : FingerprintRow) :
    Except SshHostFingerprintError SshHostFingerprint := do
  ensure (row.algorithm = "sha256") .unsupportedAlgorithm
  if h : row.digest.length = 32 then return ⟨⟨row.digest, h⟩⟩
  else .error .invalidDigestLength

inductive SshHostIdentityError where
  | connectionUnavailable
  | fingerprintUnavailable
  | probeFailed
  deriving DecidableEq

inductive HostTrustDecision where
  | firstUseApprovalRequired (host : SshHost) (observed : SshHostFingerprint)
  | approved (host : SshHost) (fingerprint : SshHostFingerprint)
  | changedFingerprint (host : SshHost) (approved observed : SshHostFingerprint)
  deriving DecidableEq

inductive HostTrustMode where
  | interactive
  | unattended
  deriving DecidableEq

inductive HostTrustStoreError where
  | storage (detail : String)
  deriving DecidableEq

inductive HostTrustError where
  | identityProbe (error : SshHostIdentityError)
  | store (error : HostTrustStoreError)
  | firstUseApprovalRequired
  | changedFingerprintRejected
  | interactiveApprovalRequired
  | decisionForDifferentHost
  deriving DecidableEq

structure SshHostTrustPermit where
  host : SshHost
  fingerprint : SshHostFingerprint
  deriving DecidableEq

namespace HostTrustDecision

def intoPermit : HostTrustDecision → Except HostTrustError SshHostTrustPermit
  | approved host fingerprint => .ok ⟨host, fingerprint⟩
  | firstUseApprovalRequired .. => .error .firstUseApprovalRequired
  | changedFingerprint .. => .error .changedFingerprintRejected

def host : HostTrustDecision → SshHost
  | firstUseApprovalRequired host _ | approved host _ | changedFingerprint host _ _ => host

def observed : HostTrustDecision → SshHostFingerprint
  | firstUseApprovalRequired _ observed | changedFingerprint _ _ observed => observed
  | approved _ fingerprint => fingerprint

def isChanged : HostTrustDecision → Bool
  | changedFingerprint .. => true
  | _ => false

end HostTrustDecision

/-! ## The table and the controllers -/

abbrev FingerprintTable := SshHost → Option FingerprintRow

/-- What SQLite answers a transaction: nothing went wrong, or this. -/
abbrev SqliteFailure := Option String

namespace FingerprintTable

def loadSshHostFingerprint (rows : FingerprintTable) (host : SshHost) (failure : SqliteFailure) :
    Except HostTrustStoreError (Option SshHostFingerprint) :=
  match failure, rows host with
  | some detail, _ => .error (.storage detail)
  | none, none => .ok none
  | none, some row =>
      ((SshHostFingerprint.fromStorage row).map some).mapError fun e => .storage e.text

/-- An upsert: what is stored for the host is replaced. -/
def approveSshHostFingerprint (rows : FingerprintTable) (host : SshHost)
    (fingerprint : SshHostFingerprint) (failure : SqliteFailure) :
    Except HostTrustStoreError Unit × FingerprintTable :=
  match failure with
  | some detail => (.error (.storage detail), rows)
  | none => (.ok (), fun h => if h = host then some (.ofFingerprint fingerprint) else rows h)

def inspect (rows : FingerprintTable) (peer : SshPeer)
    (probe : Except SshHostIdentityError SshHostFingerprint) (failure : SqliteFailure) :
    Except HostTrustError HostTrustDecision := do
  let host := SshHost.fromPeer peer
  let observed ← probe.mapError .identityProbe
  let approved ← (rows.loadSshHostFingerprint host failure).mapError .store
  return match approved with
    | none => .firstUseApprovalRequired host observed
    | some approved =>
        if approved = observed then .approved host observed
        else .changedFingerprint host approved observed

def preMutationPermit (rows : FingerprintTable) (peer : SshPeer)
    (probe : Except SshHostIdentityError SshHostFingerprint) (failure : SqliteFailure) :
    Except HostTrustError SshHostTrustPermit := do
  let decision ← rows.inspect peer probe failure
  decision.intoPermit

def approve (rows : FingerprintTable) (peer : SshPeer) (decision : HostTrustDecision)
    (mode : HostTrustMode) (failure : SqliteFailure) :
    Except HostTrustError SshHostFingerprint × FingerprintTable :=
  if mode ≠ .interactive then (.error .interactiveApprovalRequired, rows)
  else if decision.host ≠ SshHost.fromPeer peer then (.error .decisionForDifferentHost, rows)
  else if decision.isChanged then (.error .changedFingerprintRejected, rows)
  else
    let stored := rows.approveSshHostFingerprint decision.host decision.observed failure
    ((stored.1.mapError .store).map fun _ => decision.observed, stored.2)

end FingerprintTable

/-! ## Runs of several controllers -/

inductive TrustCall where
  | inspect (peer : SshPeer) (probe : Except SshHostIdentityError SshHostFingerprint)
      (failure : SqliteFailure)
  | preMutationPermit (peer : SshPeer) (probe : Except SshHostIdentityError SshHostFingerprint)
      (failure : SqliteFailure)
  | approve (peer : SshPeer) (decision : HostTrustDecision) (mode : HostTrustMode)
      (failure : SqliteFailure)

/-- The table, and the decisions that were obtained so far. -/
structure TrustState where
  rows : FingerprintTable
  decisions : List HostTrustDecision

namespace TrustState

def step (state : TrustState) : TrustCall → TrustState
  | .inspect peer probe failure =>
      { state with decisions :=
          (state.rows.inspect peer probe failure).toOption.toList ++ state.decisions }
  | .preMutationPermit .. => state
  | .approve peer decision mode failure =>
      { state with rows := (state.rows.approve peer decision mode failure).2 }

/-- Only decisions that were obtained are approved. -/
def Offers (state : TrustState) : TrustCall → Prop
  | .approve _ decision _ _ => decision ∈ state.decisions
  | _ => True

/-- A first-use decision is approved while its host has no other fingerprint. -/
def Timely (state : TrustState) : TrustCall → Prop
  | .approve peer (.firstUseApprovalRequired host observed) .interactive none =>
      host = SshHost.fromPeer peer →
        ∀ row ∈ state.rows host, row = .ofFingerprint observed
  | _ => True

/-- What is stored stays. -/
def Keeps (state : TrustState) (call : TrustCall) : Prop :=
  ∀ host, ∀ row ∈ state.rows host, (state.step call).rows host = some row

end TrustState

/-- Calls of any controllers on one database, the last one first, each with the state
it was made in. -/
inductive TrustRun (rows : FingerprintTable) : List (TrustState × TrustCall) → TrustState → Prop
  | start : TrustRun rows [] ⟨rows, []⟩
  | call {past : List (TrustState × TrustCall)} {state : TrustState} {call : TrustCall} :
      TrustRun rows past state → state.Offers call →
        TrustRun rows ((state, call) :: past) (state.step call)

/-! ## What the calls do -/

section

variable {rows : FingerprintTable} {peer : SshPeer} {failure : SqliteFailure}
  {probe : Except SshHostIdentityError SshHostFingerprint}

theorem fromStorage_eq_ok {row : FingerprintRow} {fingerprint : SshHostFingerprint} :
    SshHostFingerprint.fromStorage row = .ok fingerprint ↔ row = .ofFingerprint fingerprint := by
  rcases row with ⟨algorithm, digest⟩
  rcases fingerprint with ⟨⟨bytes, hbytes⟩⟩
  unfold SshHostFingerprint.fromStorage FingerprintRow.ofFingerprint
  rw [unit_bind_eq_ok, ensure_eq_ok]
  constructor
  · rintro ⟨rfl, h⟩
    split at h
    · cases h
      rfl
    · cases h
  · intro h
    obtain ⟨rfl, rfl⟩ := FingerprintRow.mk.inj h
    refine ⟨rfl, ?_⟩
    rw [dif_pos hbytes]
    rfl

theorem loadSshHostFingerprint_eq_some {host : SshHost} {fingerprint : SshHostFingerprint}
    (h : rows.loadSshHostFingerprint host failure = .ok (some fingerprint)) :
    rows host = some (.ofFingerprint fingerprint) := by
  unfold FingerprintTable.loadSshHostFingerprint at h
  split at h
  · cases h
  · cases h
  · rename_i row hrow
    rw [mapError_eq_ok, map_eq_ok] at h
    obtain ⟨stored, hstored, hsome⟩ := h
    obtain rfl := Option.some.inj hsome
    rw [hrow, fromStorage_eq_ok.mp hstored]

/-- An approved decision is what is stored, observed again. -/
theorem inspect_approved {host : SshHost} {fingerprint : SshHostFingerprint}
    (h : rows.inspect peer probe failure = .ok (.approved host fingerprint)) :
    host = .fromPeer peer ∧ probe = .ok fingerprint ∧
      rows host = some (.ofFingerprint fingerprint) := by
  obtain ⟨observed, hprobe, h⟩ := bind_eq_ok.mp h
  obtain ⟨approved, hload, h⟩ := bind_eq_ok.mp h
  rw [mapError_eq_ok] at hprobe hload
  cases approved with
  | none => cases h
  | some approved =>
      have h : (if approved = observed then HostTrustDecision.approved (.fromPeer peer) observed
        else .changedFingerprint (.fromPeer peer) approved observed) = .approved host fingerprint :=
        Except.ok.inj h
      split at h
      · rename_i hsame
        obtain ⟨rfl, rfl⟩ := HostTrustDecision.approved.inj h
        exact ⟨rfl, hprobe, hsame ▸ loadSshHostFingerprint_eq_some hload⟩
      · cases h

/-- **A permit** is for the fingerprint that this call observed and that is stored. -/
theorem preMutationPermit_eq_ok {permit : SshHostTrustPermit}
    (h : rows.preMutationPermit peer probe failure = .ok permit) :
    permit.host = .fromPeer peer ∧ probe = .ok permit.fingerprint ∧
      rows (.fromPeer peer) = some (.ofFingerprint permit.fingerprint) := by
  obtain ⟨decision, hdecision, h⟩ := bind_eq_ok.mp h
  cases decision with
  | firstUseApprovalRequired host observed => cases h
  | changedFingerprint host approved observed => cases h
  | approved host fingerprint =>
      obtain rfl := Except.ok.inj h
      obtain ⟨rfl, hprobe, hrow⟩ := inspect_approved hdecision
      exact ⟨rfl, hprobe, hrow⟩

theorem approve_rows_of_refused {decision : HostTrustDecision} {mode : HostTrustMode}
    (h : mode = .unattended ∨ decision.host ≠ .fromPeer peer ∨ decision.isChanged = true ∨
      failure.isSome = true) : (rows.approve peer decision mode failure).2 = rows := by
  unfold FingerprintTable.approve
  split
  · rfl
  · rename_i hmode
    split
    · rfl
    · rename_i hhost
      split
      · rfl
      · rename_i hchanged
        rcases h with hunattended | hother | hrejected | hfailure
        · subst hunattended
          exact absurd (by simp) hmode
        · exact absurd hother hhost
        · exact absurd hrejected hchanged
        · obtain ⟨detail, rfl⟩ := Option.isSome_iff_exists.mp hfailure
          rfl

/-- An approval stores what the decision observed. -/
theorem approve_rows {decision : HostTrustDecision} (hhost : decision.host = .fromPeer peer)
    (hchanged : decision.isChanged = false) (host : SshHost) :
    (rows.approve peer decision .interactive none).2 host =
      if host = decision.host then some (.ofFingerprint decision.observed) else rows host := by
  rw [FingerprintTable.approve, if_neg (by simp), if_neg (by simp [hhost]), if_neg (by simp [hchanged])]
  rfl

/-- An approval keeps what is stored when its own fingerprint is what is stored. -/
theorem approve_keeps_iff {decision : HostTrustDecision} (hhost : decision.host = .fromPeer peer)
    (hchanged : decision.isChanged = false) :
    (∀ host, ∀ row ∈ rows host, (rows.approve peer decision .interactive none).2 host = some row) ↔
      ∀ row ∈ rows decision.host, row = .ofFingerprint decision.observed := by
  constructor
  · intro h row hrow
    have hafter := h decision.host row hrow
    rw [approve_rows hhost hchanged, if_pos rfl] at hafter
    exact (Option.some.inj hafter).symm
  · intro h host row hrow
    rw [approve_rows hhost hchanged]
    by_cases heq : host = decision.host
    · rw [if_pos heq, h row (heq ▸ hrow)]
    · rw [if_neg heq]
      exact hrow

end

/-! ## Runs -/

section

variable {rows : FingerprintTable} {past : List (TrustState × TrustCall)} {state : TrustState}

/-- While what is stored stays, the approved decisions are what is stored. -/
theorem TrustRun.approved_stored (h : TrustRun rows past state)
    (hkept : ∀ p ∈ past, p.1.Keeps p.2) : ∀ host fingerprint,
      .approved host fingerprint ∈ state.decisions →
        state.rows host = some (.ofFingerprint fingerprint) := by
  induction h with
  | start => simp
  | @call past state call _ _ ih =>
      have ih := ih fun p hp => hkept p (.tail _ hp)
      have hkeeps := hkept (state, call) (.head _)
      intro host fingerprint hmem
      cases call with
      | inspect peer probe failure =>
          rcases List.mem_append.mp hmem with hnew | hold
          · suffices happroved : state.rows.inspect peer probe failure =
                .ok (.approved host fingerprint) from (inspect_approved happroved).2.2
            cases hinspect : state.rows.inspect peer probe failure with
            | ok decision =>
                rw [hinspect] at hnew
                obtain rfl := List.mem_singleton.mp hnew
                rfl
            | error e =>
                rw [hinspect] at hnew
                cases hnew
          · exact ih host fingerprint hold
      | preMutationPermit peer probe failure => exact ih host fingerprint hmem
      | approve peer decision mode failure =>
          exact hkeeps host _ (ih host fingerprint hmem)

/-- **One call** keeps what is stored exactly when it is timely. -/
theorem TrustState.keeps_iff {call : TrustCall} (hoffers : state.Offers call)
    (hstored : ∀ host fingerprint, .approved host fingerprint ∈ state.decisions →
      state.rows host = some (.ofFingerprint fingerprint)) :
    state.Keeps call ↔ state.Timely call := by
  cases call with
  | inspect peer probe failure => exact iff_of_true (fun _ _ hrow => hrow) trivial
  | preMutationPermit peer probe failure => exact iff_of_true (fun _ _ hrow => hrow) trivial
  | approve peer decision mode failure =>
      have hsame : (state.rows.approve peer decision mode failure).2 = state.rows →
          state.Keeps (.approve peer decision mode failure) := by
        intro heq host row hrow
        show (state.rows.approve peer decision mode failure).2 host = some row
        rw [heq]
        exact hrow
      cases mode with
      | unattended =>
          refine iff_of_true (hsame (approve_rows_of_refused (.inl rfl))) ?_
          cases decision <;> trivial
      | interactive =>
          cases failure with
          | some detail =>
              refine iff_of_true (hsame (approve_rows_of_refused (by simp))) ?_
              cases decision <;> trivial
          | none =>
              by_cases hhost : decision.host = .fromPeer peer
              · cases decision with
                | changedFingerprint host approved observed =>
                    exact iff_of_true (hsame (approve_rows_of_refused (by simp [HostTrustDecision.isChanged])))
                      trivial
                | approved host fingerprint =>
                    have hthere := hstored host fingerprint hoffers
                    refine iff_of_true ((approve_keeps_iff hhost rfl).mpr fun row hrow => ?_) trivial
                    exact Option.some.inj ((Option.mem_def.mp hrow).symm.trans hthere)
                | firstUseApprovalRequired host observed =>
                    exact (approve_keeps_iff hhost rfl).trans ⟨fun h _ => h, fun h => h hhost⟩
              · refine iff_of_true (hsame (approve_rows_of_refused (.inr (.inl hhost)))) ?_
                cases decision with
                | firstUseApprovalRequired host observed => exact fun h => absurd h hhost
                | approved host fingerprint => trivial
                | changedFingerprint host approved observed => trivial

theorem TrustRun.keeps_iff (h : TrustRun rows past state) :
    (∀ p ∈ past, p.1.Keeps p.2) ↔ ∀ p ∈ past, p.1.Timely p.2 := by
  induction h with
  | start => simp
  | @call past state call hrun hoffers ih =>
      rw [List.forall_mem_cons, List.forall_mem_cons, ← ih, and_congr_left_iff]
      exact fun hkept => TrustState.keeps_iff hoffers (hrun.approved_stored hkept)

end

/-- **SSH host identities.** In every run what is stored for a host stays, call by
call, exactly when first-use decisions are approved in time; whatever was approved, a
permit is for the fingerprint that was observed in its call and is stored, and a call
that is unattended or decides about another host stores nothing. -/
theorem identities_kept_iff {rows : FingerprintTable} {past : List (TrustState × TrustCall)}
    {state : TrustState} (h : TrustRun rows past state) :
    ((∀ p ∈ past, p.1.Keeps p.2) ↔ ∀ p ∈ past, p.1.Timely p.2) ∧
    (∀ peer probe failure permit,
      state.rows.preMutationPermit peer probe failure = .ok permit →
        permit.host = .fromPeer peer ∧ probe = .ok permit.fingerprint ∧
          state.rows (.fromPeer peer) = some (.ofFingerprint permit.fingerprint)) ∧
    ∀ peer decision mode failure, mode = .unattended ∨ decision.host ≠ SshHost.fromPeer peer →
      (state.rows.approve peer decision mode failure).2 = state.rows :=
  ⟨h.keeps_iff, fun _ _ _ _ => preMutationPermit_eq_ok,
    fun _ _ _ _ hrefused => approve_rows_of_refused (hrefused.imp_right .inl)⟩

/-! ### Two first uses -/

/-- A server at its address, on port 22. -/
def trustPeer : SshPeer where
  server := "host"
  username := "user"
  port := 22
  identity := none
  authentication := .agent
  remotePath := .ofText "/srv"
  access := by decide
  remote := ⟨"/srv", by decide, by decide, rfl⟩

/-- A digest that repeats one byte. -/
def repeatedFingerprint (byte : UInt8) : SshHostFingerprint := ⟨List.Vector.replicate 32 byte⟩

def firstUse (byte : UInt8) : HostTrustDecision :=
  .firstUseApprovalRequired (.fromPeer trustPeer) (repeatedFingerprint byte)

def noRows : FingerprintTable := fun _ => none

def observing (byte : UInt8) : TrustCall :=
  .inspect trustPeer (.ok (repeatedFingerprint byte)) none

def approving (byte : UInt8) : TrustCall := .approve trustPeer (firstUse byte) .interactive none

/-- What the table holds after the approval. -/
def approvedRows (byte : UInt8) (rows : FingerprintTable) : FingerprintTable :=
  (rows.approve trustPeer (firstUse byte) .interactive none).2

theorem identities_kept_approved :
    (⟨noRows, [firstUse 1]⟩ : TrustState).Timely (approving 1) ∧
      ∀ p ∈ [((⟨noRows, [firstUse 1]⟩ : TrustState), approving 1), (⟨noRows, []⟩, observing 1)],
        p.1.Keeps p.2 := by
  have htimely : (⟨noRows, [firstUse 1]⟩ : TrustState).Timely (approving 1) := by
    simp [TrustState.Timely, approving, firstUse, noRows]
  have hobserved : TrustRun noRows [(⟨noRows, []⟩, observing 1)] ⟨noRows, [firstUse 1]⟩ :=
    .call .start trivial
  refine ⟨htimely, (identities_kept_iff (.call hobserved (List.mem_singleton.mpr rfl))).1.mpr ?_⟩
  simp [TrustState.Timely, approving, observing, firstUse, noRows]

/-- Two fingerprints are observed before either is approved: the second approval
replaces the first. -/
theorem identities_not_kept :
    ¬ ∀ (rows : FingerprintTable) (past : List (TrustState × TrustCall)) (state : TrustState),
      TrustRun rows past state → ∀ p ∈ past, p.1.Keeps p.2 := by
  intro h
  have hfirst : TrustRun noRows [(⟨noRows, []⟩, observing 1)] ⟨noRows, [firstUse 1]⟩ :=
    .call .start trivial
  have hsecond : TrustRun noRows ((_, observing 2) :: _) ⟨noRows, [firstUse 2, firstUse 1]⟩ :=
    .call hfirst trivial
  have hthird : TrustRun noRows ((_, approving 1) :: _)
      ⟨approvedRows 1 noRows, [firstUse 2, firstUse 1]⟩ :=
    .call hsecond (List.mem_of_mem_tail (.head _))
  have hfourth : TrustRun noRows ((_, approving 2) :: _)
      ⟨approvedRows 2 (approvedRows 1 noRows), [firstUse 2, firstUse 1]⟩ :=
    .call hthird (.head _)
  have hkeeps := h _ _ _ hfourth _ (.head _)
  have hrow := hkeeps (.fromPeer trustPeer) (.ofFingerprint (repeatedFingerprint 1)) rfl
  exact absurd hrow (by decide)

end SyncPlus
