import SyncPlus.PrecheckEntries
import SyncPlus.RunPaths
import SyncPlus.RunSnapshot

/-!
# The volumes of a resumed run

A run is resumed on the volumes it was recorded with. The snapshot keeps the identities
by peer, the precheck has them by source and destination, and they are turned from one
order to the other before the check (`expectedSource`, `expectedDestination`,
`precheckPeers`) and after it (`orientVolumeIdentities`).

For Mirror the order is always Peer A and Peer B, except in `expectedSource`, which goes
by the source field of the profile. Where that is Peer A, or the profile is One-Way, each
peer is checked against its own recorded identity, and what is stored for the new run is
what was observed at the same peer.
-/

namespace SyncPlus

/-! ## The precheck -/

inductive PrecheckBlockerKind where
  | peerUnavailable
  | sourceUnreadable
  | destinationNotWritable
  | requiredPermission
  | insufficientSpace
  | peerScopeOverlap
  | destinationNamingConflict
  | volumeIdentityMismatch
  | volumeIdentityUnavailable
  | specialistMetadataUnsupported
  deriving DecidableEq

structure PrecheckBlocker where
  kind : PrecheckBlockerKind
  path : PathBuf
  requirement : String
  reason : String
  remediation : String
  deriving DecidableEq

def PrecheckBlocker.new (kind : PrecheckBlockerKind) (path : PathBuf)
    (requirement remediation : String) : PrecheckBlocker :=
  ⟨kind, path, requirement, requirement, remediation⟩

structure PrecheckResult where
  source : PathBuf
  destination : PathBuf
  sourceVolumeIdentity : Option VolumeIdentity
  destinationVolumeIdentity : Option VolumeIdentity
  blockers : List PrecheckBlocker
  deriving DecidableEq

/-- A specification that SSH peers have no precheck for is an error of its own here. -/
inductive PrecheckErrorKind where
  | invalidSpecification (error : ProcessSpecError)
  | unsupportedSshFilesystemOperation
  | probe (error : PrecheckError)
  deriving DecidableEq

/-- What a precheck asks: the volume of a peer's root, whether the peers have to have one,
and everything that is checked after the volumes. -/
structure PrecheckProbe where
  volumeIdentity : PathBuf → Except PrecheckError (Option VolumeIdentity)
  requiresVolumeIdentity : Bool
  others : SyncProfile → Except PrecheckError (List PrecheckBlocker)

def VolumeIdentity.text (identity : VolumeIdentity) : String :=
  "filesystem device " ++ toString identity.device

def observedText (observed : Option VolumeIdentity) : String :=
  (observed.map VolumeIdentity.text).getD "no volume identity was detected"

def volumeIdentityBlocker (path : PathBuf) (peerLabel : String)
    (expected observed : Option VolumeIdentity) (allowReplacement : Bool) :
    List PrecheckBlocker :=
  match expected with
  | none => []
  | some identity =>
      if observed = some identity ∨ (allowReplacement = true ∧ observed.isSome = true) then []
      else [.new .volumeIdentityMismatch path
        ("the " ++ peerLabel ++ " must be on " ++ identity.text ++
          "; the current peer reports " ++ observedText observed)
        ("reconnect the recorded volume or explicitly review the replacement before " ++
          "resuming")]

def missingRecordedIdentityBlocker (path : PathBuf) (peerLabel : String)
    (expected observed : Option VolumeIdentity) : List PrecheckBlocker :=
  match expected with
  | some _ => []
  | none => [.new .volumeIdentityUnavailable path
      ("no recorded volume identity is available for the " ++ peerLabel ++
        "; the current peer reports " ++ observedText observed)
      ("start a new Sync Run after the peer is available so its volume identity can be " ++
        "recorded")]

/-- `selected_peers` of the precheck. -/
def precheckPeers (profile : SyncProfile) : Peer × Peer :=
  if profile.mode = .mirror then (profile.peerA, profile.peerB)
  else
    match profile.source with
    | .peerA => (profile.peerA, profile.peerB)
    | .peerB => (profile.peerB, profile.peerA)

/-- The blockers of both peers, and with `required` those for what was not recorded. -/
def volumeBlockers (source destination : PathBuf)
    (expectedSource expectedDestination sourceVolumeIdentity destinationVolumeIdentity :
      Option VolumeIdentity) (required allowReplacement : Bool) : List PrecheckBlocker :=
  volumeIdentityBlocker source "source" expectedSource sourceVolumeIdentity
    allowReplacement ++
  volumeIdentityBlocker destination "destination" expectedDestination
    destinationVolumeIdentity allowReplacement ++
  if required then
    missingRecordedIdentityBlocker source "source" expectedSource sourceVolumeIdentity ++
      missingRecordedIdentityBlocker destination "destination" expectedDestination
        destinationVolumeIdentity
  else []

/-- `check_with_volume_expectations`, as far as the volumes. -/
def checkVolumes (isDir : Directories) (profile : SyncProfile) (probe : PrecheckProbe)
    (expectedSource expectedDestination : Option VolumeIdentity)
    (requireRecordedIdentity allowReplacement : Bool) :
    Except PrecheckErrorKind PrecheckResult := do
  let _ ← (ProcessSpecification.fromProfile isDir profile).mapError .invalidSpecification
  ensure ((profile.peerA.isSsh || profile.peerB.isSsh) = false)
    .unsupportedSshFilesystemOperation
  let source := (precheckPeers profile).1.root
  let destination := (precheckPeers profile).2.root
  let sourceVolumeIdentity ← (probe.volumeIdentity source).mapError .probe
  let destinationVolumeIdentity ← (probe.volumeIdentity destination).mapError .probe
  return {
    source
    destination
    sourceVolumeIdentity
    destinationVolumeIdentity
    blockers := volumeBlockers source destination expectedSource expectedDestination
      sourceVolumeIdentity destinationVolumeIdentity
      (requireRecordedIdentity && probe.requiresVolumeIdentity) allowReplacement }

/-- A volume that was recorded and is not found ends the check. -/
def checkWithVolumeExpectations (isDir : Directories) (profile : SyncProfile)
    (probe : PrecheckProbe) (expectedSource expectedDestination : Option VolumeIdentity)
    (requireRecordedIdentity allowReplacement : Bool) :
    Except PrecheckErrorKind PrecheckResult := do
  let result ← checkVolumes isDir profile probe expectedSource expectedDestination
    requireRecordedIdentity allowReplacement
  if (expectedSource.isSome = true ∧ result.sourceVolumeIdentity.isNone = true) ∨
      (expectedDestination.isSome = true ∧ result.destinationVolumeIdentity.isNone = true) then
    return result
  else
    let others ← (probe.others profile).mapError .probe
    return { result with blockers := result.blockers ++ others }

structure PrecheckBlocked where
  blockers : List PrecheckBlocker
  sourceVolumeIdentity : Option VolumeIdentity
  destinationVolumeIdentity : Option VolumeIdentity
  deriving DecidableEq

def PrecheckBlocked.isReplacementOnly (blocked : PrecheckBlocked) : Bool :=
  blocked.sourceVolumeIdentity.isSome && blocked.destinationVolumeIdentity.isSome &&
    !blocked.blockers.isEmpty &&
    blocked.blockers.all fun blocker => blocker.kind = .volumeIdentityMismatch

inductive PrecheckFailure where
  | invalid (error : PrecheckErrorKind)
  | blocked (blocked : PrecheckBlocked)
  | scopeLocked
  deriving DecidableEq

def PrecheckResult.requirePassed (result : PrecheckResult) : Except PrecheckFailure Unit :=
  ensure (result.blockers = []) (.blocked
    ⟨result.blockers, result.sourceVolumeIdentity, result.destinationVolumeIdentity⟩)

/-! ## The resumed run -/

def RunSnapshot.volumeIdentity (snapshot : RunSnapshot) : PeerSide → Option VolumeIdentity
  | .peerA => snapshot.peerAVolumeIdentity
  | .peerB => snapshot.peerBVolumeIdentity

def expectedSource (snapshot : RunSnapshot) : Option VolumeIdentity :=
  snapshot.volumeIdentity (.ofSource snapshot.profile.source)

def expectedDestination (snapshot : RunSnapshot) : Option VolumeIdentity :=
  let sourceSide : PeerSide :=
    if snapshot.profile.mode = .mirror then .peerA else .ofSource snapshot.profile.source
  snapshot.volumeIdentity sourceSide.opposite

def orientVolumeIdentities (profile : SyncProfile)
    (sourceVolumeIdentity destinationVolumeIdentity : Option VolumeIdentity) :
    Option VolumeIdentity × Option VolumeIdentity :=
  if profile.mode = .mirror then (sourceVolumeIdentity, destinationVolumeIdentity)
  else
    match profile.source with
    | .peerA => (sourceVolumeIdentity, destinationVolumeIdentity)
    | .peerB => (destinationVolumeIdentity, sourceVolumeIdentity)

/-- What else decides how resuming goes: the answers of the probe at the three checks, whether
the scopes are locked, what the caller authorizes and confirms, and whether what lies
between the checks (the classification of the old run, the analysis) succeeds. -/
structure ResumeAnswers where
  first : PrecheckProbe
  firstLocked : Bool
  authorizeReplacement : PrecheckBlocked → Bool
  replacement : PrecheckProbe
  replacementLocked : Bool
  classified : Bool
  confirmed : Bool
  recheck : PrecheckProbe

/-- The new run: none, one that is stored as blocked, or one that is carried out, with the
volumes its snapshot is made with for Peer A and Peer B. -/
inductive ResumedRun where
  | refused
  | blocked (peerA peerB : Option VolumeIdentity)
  | executed (peerA peerB : Option VolumeIdentity)
  deriving DecidableEq

section

variable (isDir : Directories) (snapshot : RunSnapshot) (answers : ResumeAnswers)

/-- `acquire_precheck_with_expected_volumes` for a resumed run. -/
def acquirePrecheck (probe : PrecheckProbe) (locked allowReplacement : Bool) :
    Except PrecheckFailure PrecheckResult := do
  let result ← (checkWithVolumeExpectations isDir snapshot.profile probe
    (expectedSource snapshot) (expectedDestination snapshot) true allowReplacement).mapError
      .invalid
  result.requirePassed
  ensure (locked = false) .scopeLocked
  return result

def persistBlocked : ResumedRun :=
  let identities := orientVolumeIdentities snapshot.profile (expectedSource snapshot)
    (expectedDestination snapshot)
  .blocked identities.1 identities.2

/-- From the lease on. -/
def resumeWithLease (lease : PrecheckResult) : ResumedRun :=
  if answers.classified = false ∨ answers.confirmed = false then .refused
  else
    let recheck : Except PrecheckFailure Unit := do
      let result ← (checkWithVolumeExpectations isDir snapshot.profile answers.recheck
        lease.sourceVolumeIdentity lease.destinationVolumeIdentity true false).mapError .invalid
      result.requirePassed
    match recheck with
    | .error _ => persistBlocked snapshot
    | .ok () =>
        let identities := orientVolumeIdentities snapshot.profile lease.sourceVolumeIdentity
          lease.destinationVolumeIdentity
        .executed identities.1 identities.2

/-- `resume_with_replacement_confirmation` -/
def resume (status : RunReportStatus) : ResumedRun :=
  if status = .completed ∨ status = .reviewCleared ∨ status = .recoveryReview then .refused
  else
    match acquirePrecheck isDir snapshot answers.first answers.firstLocked false with
    | .ok lease => resumeWithLease isDir snapshot answers lease
    | .error (.blocked blocked) =>
        if blocked.isReplacementOnly && answers.authorizeReplacement blocked then
          match acquirePrecheck isDir snapshot answers.replacement answers.replacementLocked
              true with
          | .ok lease => resumeWithLease isDir snapshot answers lease
          | .error _ => persistBlocked snapshot
        else persistBlocked snapshot
    | .error _ => persistBlocked snapshot

end

/-! ## The volumes of the peers -/

/-- Two values for source and destination, as the precheck orders the peers, by side. -/
def bySide {α : Type} (profile : SyncProfile) (pair : α × α) : PeerSide → α
  | .peerA => if profile.mode = .oneWay ∧ profile.source = .peerB then pair.2 else pair.1
  | .peerB => if profile.mode = .oneWay ∧ profile.source = .peerB then pair.1 else pair.2

section

variable {isDir : Directories} {profile : SyncProfile} {snapshot : RunSnapshot}
  {probe : PrecheckProbe} {result : PrecheckResult} {side : PeerSide}
  {expected observed : Option VolumeIdentity} {path : PathBuf} {label : String}

theorem roots_bySide (profile : SyncProfile) (side : PeerSide) :
    bySide profile ((precheckPeers profile).1.root, (precheckPeers profile).2.root) side =
      profile.peerRoot side := by
  unfold bySide precheckPeers
  cases hmode : profile.mode <;> cases hsource : profile.source <;> cases side <;> rfl

/-- The identities of a new run are those of the precheck, by side. -/
theorem orientVolumeIdentities_eq (profile : SyncProfile) (pair : Option VolumeIdentity ×
    Option VolumeIdentity) : orientVolumeIdentities profile pair.1 pair.2 =
      (bySide profile pair .peerA, bySide profile pair .peerB) := by
  unfold orientVolumeIdentities bySide
  cases hmode : profile.mode <;> cases hsource : profile.source <;> rfl

/-- The recorded identities are in the order of the precheck, unless Mirror goes by its source
field. -/
theorem expected_bySide (hside : snapshot.profile.mode = .oneWay ∨
    snapshot.profile.source = .peerA) (side : PeerSide) :
    bySide snapshot.profile (expectedSource snapshot, expectedDestination snapshot) side =
      snapshot.volumeIdentity side := by
  unfold bySide expectedSource expectedDestination
  rcases hside with hmode | hsource
  · rw [hmode]
    cases hsource : snapshot.profile.source <;> cases side <;> rfl
  · rw [hsource]
    cases hmode : snapshot.profile.mode <;> cases side <;> rfl

theorem bySide_prod {α β : Type} (a c : α) (b d : β) :
    bySide profile ((a, b), (c, d)) side =
      (bySide profile (a, c) side, bySide profile (b, d) side) := by
  unfold bySide
  cases side <;> dsimp only <;> split <;> rfl

/-- What holds of both the source and the destination holds of both peers. -/
theorem forall_bySide {α : Type} (profile : SyncProfile) (P : α → Prop) (pair : α × α) :
    (∀ side, P (bySide profile pair side)) ↔ P pair.1 ∧ P pair.2 := by
  unfold bySide
  constructor
  · intro h
    have hA := h .peerA
    have hB := h .peerB
    dsimp only at hA hB
    split at hA
    · rename_i hcase
      rw [if_pos hcase] at hB
      exact ⟨hB, hA⟩
    · rename_i hcase
      rw [if_neg hcase] at hB
      exact ⟨hA, hB⟩
  · rintro ⟨hsource, hdestination⟩ side
    cases side <;> dsimp only <;> split <;> assumption

/-- What a peer is asked for: the volume that was recorded, and none was recorded only where
none is required. -/
def VolumeAccepted (expected observed : Option VolumeIdentity) (required : Bool) : Prop :=
  match expected with
  | some recorded => observed = some recorded
  | none => required = false

theorem volumeIdentityBlocker_eq_nil : volumeIdentityBlocker path label expected observed false =
    [] ↔ ∀ recorded, expected = some recorded → observed = some recorded := by
  unfold volumeIdentityBlocker
  cases expected with
  | none => simp
  | some recorded =>
      dsimp only
      split
      · rename_i h
        simpa using h
      · rename_i h
        simpa using h

theorem missingRecordedIdentityBlocker_eq_nil :
    missingRecordedIdentityBlocker path label expected observed = [] ↔ expected ≠ none := by
  unfold missingRecordedIdentityBlocker
  cases expected <;> simp

theorem volumeAccepted_iff {required : Bool} : VolumeAccepted expected observed required ↔
    (∀ recorded, expected = some recorded → observed = some recorded) ∧
      (required = true → expected ≠ none) := by
  cases expected with
  | none => simp [VolumeAccepted]
  | some recorded => simp [VolumeAccepted]

theorem volumeBlockers_eq_nil {source destination : PathBuf} {es ed sv dv : Option VolumeIdentity}
    {required : Bool} : volumeBlockers source destination es ed sv dv required false = [] ↔
      VolumeAccepted es sv required ∧ VolumeAccepted ed dv required := by
  rw [volumeBlockers, List.append_eq_nil_iff, List.append_eq_nil_iff,
    volumeIdentityBlocker_eq_nil, volumeIdentityBlocker_eq_nil, volumeAccepted_iff,
    volumeAccepted_iff]
  cases required with
  | true =>
      rw [if_pos rfl, List.append_eq_nil_iff, missingRecordedIdentityBlocker_eq_nil,
        missingRecordedIdentityBlocker_eq_nil]
      tauto
  | false => simp

theorem checkVolumes_eq_ok {es ed : Option VolumeIdentity} {required allow : Bool} :
    checkVolumes isDir profile probe es ed required allow = .ok result ↔
      (∃ specification, ProcessSpecification.fromProfile isDir profile = .ok specification) ∧
      (profile.peerA.isSsh || profile.peerB.isSsh) = false ∧
      ∃ sv dv, probe.volumeIdentity (precheckPeers profile).1.root = .ok sv ∧
        probe.volumeIdentity (precheckPeers profile).2.root = .ok dv ∧
        result = {
          source := (precheckPeers profile).1.root
          destination := (precheckPeers profile).2.root
          sourceVolumeIdentity := sv
          destinationVolumeIdentity := dv
          blockers := volumeBlockers (precheckPeers profile).1.root
            (precheckPeers profile).2.root es ed sv dv
            (required && probe.requiresVolumeIdentity) allow } := by
  unfold checkVolumes
  rw [bind_eq_ok]
  constructor
  · rintro ⟨specification, hspec, h⟩
    obtain ⟨hlocal, h⟩ := ensure_bind_eq_ok.mp h
    obtain ⟨sv, hsv, h⟩ := bind_eq_ok.mp h
    obtain ⟨dv, hdv, h⟩ := bind_eq_ok.mp h
    cases h
    exact ⟨⟨specification, mapError_eq_ok.mp hspec⟩, hlocal, sv, dv, mapError_eq_ok.mp hsv,
      mapError_eq_ok.mp hdv, rfl⟩
  · rintro ⟨⟨specification, hspec⟩, hlocal, sv, dv, hsv, hdv, rfl⟩
    refine ⟨specification, mapError_eq_ok.mpr hspec, ?_⟩
    rw [ensure_of hlocal, ok_bind]
    dsimp only
    rw [hsv, hdv]
    rfl

/-- A lease has what was observed at the two peers. -/
theorem acquirePrecheck_eq_ok {locked allow : Bool}
    (h : acquirePrecheck isDir snapshot probe locked allow = .ok result) (side : PeerSide) :
    probe.volumeIdentity (snapshot.profile.peerRoot side) =
      .ok (bySide snapshot.profile (result.sourceVolumeIdentity,
        result.destinationVolumeIdentity) side) := by
  unfold acquirePrecheck at h
  obtain ⟨checked, hcheck, h⟩ := bind_eq_ok.mp h
  obtain ⟨hpassed, h⟩ := unit_bind_eq_ok.mp h
  obtain ⟨-, h⟩ := ensure_bind_eq_ok.mp h
  obtain rfl : checked = result := Except.ok.inj h
  have hcheck := mapError_eq_ok.mp hcheck
  unfold checkWithVolumeExpectations at hcheck
  obtain ⟨volumes, hvolumes, hcheck⟩ := bind_eq_ok.mp hcheck
  have hsame : checked.sourceVolumeIdentity = volumes.sourceVolumeIdentity ∧
      checked.destinationVolumeIdentity = volumes.destinationVolumeIdentity := by
    split at hcheck
    · cases hcheck
      exact ⟨rfl, rfl⟩
    · obtain ⟨others, -, hcheck⟩ := bind_eq_ok.mp hcheck
      cases hcheck
      exact ⟨rfl, rfl⟩
  obtain ⟨-, -, sv, dv, hsv, hdv, rfl⟩ := checkVolumes_eq_ok.mp hvolumes
  rw [hsame.1, hsame.2, ← roots_bySide]
  unfold bySide
  cases side <;> dsimp only <;> split <;> assumption

/-- A run that is carried out has a lease. -/
theorem resumeWithLease_eq_executed {answers : ResumeAnswers} {a b : Option VolumeIdentity}
    (h : resumeWithLease isDir snapshot answers result = .executed a b) :
    (a, b) = orientVolumeIdentities snapshot.profile result.sourceVolumeIdentity
      result.destinationVolumeIdentity := by
  unfold resumeWithLease at h
  split at h
  · cases h
  · dsimp only at h
    split at h
    · cases h
    · cases h
      rfl

theorem resumeWithLease_eq_blocked {answers : ResumeAnswers} {a b : Option VolumeIdentity}
    (h : resumeWithLease isDir snapshot answers result = .blocked a b) :
    persistBlocked snapshot = .blocked a b := by
  unfold resumeWithLease at h
  split at h
  · cases h
  · dsimp only at h
    split at h
    · exact h
    · cases h

/-- The two ways to a lease. -/
theorem resume_eq_executed {answers : ResumeAnswers} {status : RunReportStatus}
    {a b : Option VolumeIdentity} (h : resume isDir snapshot answers status = .executed a b) :
    ∃ probe locked allow lease,
      ((probe = answers.first ∧ allow = false) ∨ (probe = answers.replacement ∧ allow = true)) ∧
      acquirePrecheck isDir snapshot probe locked allow = .ok lease ∧
      (a, b) = orientVolumeIdentities snapshot.profile lease.sourceVolumeIdentity
        lease.destinationVolumeIdentity := by
  unfold resume at h
  split at h
  · cases h
  split at h
  · rename_i lease hlease
    exact ⟨_, _, _, lease, .inl ⟨rfl, rfl⟩, hlease, resumeWithLease_eq_executed h⟩
  · split at h
    · split at h
      · rename_i lease hlease
        exact ⟨_, _, _, lease, .inr ⟨rfl, rfl⟩, hlease, resumeWithLease_eq_executed h⟩
      · cases h
    · cases h
  · cases h

theorem resume_eq_blocked {answers : ResumeAnswers} {status : RunReportStatus}
    {a b : Option VolumeIdentity} (h : resume isDir snapshot answers status = .blocked a b) :
    persistBlocked snapshot = .blocked a b := by
  unfold resume at h
  split at h
  · cases h
  split at h
  · exact resumeWithLease_eq_blocked h
  · split at h
    · split at h
      · exact resumeWithLease_eq_blocked h
      · exact h
    · exact h
  · exact h

/-- **Each peer is checked against its own recorded volume**, unless a Mirror run goes by its
source field, and the volumes of a run that is carried out are those observed at the same
peers. -/
theorem resume_own_volumes
    (hspec : ∃ specification,
      ProcessSpecification.fromProfile isDir snapshot.profile = .ok specification)
    (hlocal : (snapshot.profile.peerA.isSsh || snapshot.profile.peerB.isSsh) = false) :
    (snapshot.profile.mode = .oneWay ∨ snapshot.profile.source = .peerA →
      ((∃ result, checkVolumes isDir snapshot.profile probe (expectedSource snapshot)
          (expectedDestination snapshot) true false = .ok result ∧ result.blockers = []) ↔
        ∀ side, ∃ observed,
          probe.volumeIdentity (snapshot.profile.peerRoot side) = .ok observed ∧
            VolumeAccepted (snapshot.volumeIdentity side) observed
              probe.requiresVolumeIdentity) ∧
      ∀ answers status a b, resume isDir snapshot answers status = .blocked a b →
        a = snapshot.volumeIdentity .peerA ∧ b = snapshot.volumeIdentity .peerB) ∧
    ∀ answers status a b, resume isDir snapshot answers status = .executed a b →
      ∃ passed locked allow lease,
        ((passed = answers.first ∧ allow = false) ∨
          (passed = answers.replacement ∧ allow = true)) ∧
        acquirePrecheck isDir snapshot passed locked allow = .ok lease ∧
        passed.volumeIdentity (snapshot.profile.peerRoot .peerA) = .ok a ∧
        passed.volumeIdentity (snapshot.profile.peerRoot .peerB) = .ok b := by
  refine ⟨fun hside => ⟨?_, fun answers status a b h => ?_⟩, fun answers status a b h => ?_⟩
  · have hpeers : (∀ side, ∃ observed,
          probe.volumeIdentity (snapshot.profile.peerRoot side) = .ok observed ∧
            VolumeAccepted (snapshot.volumeIdentity side) observed
              probe.requiresVolumeIdentity) ↔
        (∃ observed, probe.volumeIdentity (precheckPeers snapshot.profile).1.root =
            .ok observed ∧
          VolumeAccepted (expectedSource snapshot) observed probe.requiresVolumeIdentity) ∧
        ∃ observed, probe.volumeIdentity (precheckPeers snapshot.profile).2.root =
            .ok observed ∧
          VolumeAccepted (expectedDestination snapshot) observed
            probe.requiresVolumeIdentity := by
      have hpair : ∀ side, bySide snapshot.profile
          (((precheckPeers snapshot.profile).1.root, expectedSource snapshot),
            ((precheckPeers snapshot.profile).2.root, expectedDestination snapshot)) side =
          (snapshot.profile.peerRoot side, snapshot.volumeIdentity side) := by
        intro side
        rw [bySide_prod, roots_bySide, expected_bySide hside]
      have hboth := forall_bySide snapshot.profile
        (fun peer : PathBuf × Option VolumeIdentity => ∃ observed,
          probe.volumeIdentity peer.1 = .ok observed ∧
            VolumeAccepted peer.2 observed probe.requiresVolumeIdentity)
        (((precheckPeers snapshot.profile).1.root, expectedSource snapshot),
          ((precheckPeers snapshot.profile).2.root, expectedDestination snapshot))
      simp only [hpair] at hboth
      exact hboth
    rw [hpeers]
    constructor
    · rintro ⟨result, hresult, hblockers⟩
      obtain ⟨-, -, sv, dv, hsv, hdv, rfl⟩ := checkVolumes_eq_ok.mp hresult
      obtain ⟨hsource, hdestination⟩ := volumeBlockers_eq_nil.mp hblockers
      exact ⟨⟨sv, hsv, hsource⟩, dv, hdv, hdestination⟩
    · rintro ⟨⟨sv, hsv, hsource⟩, dv, hdv, hdestination⟩
      exact ⟨_, checkVolumes_eq_ok.mpr ⟨hspec, hlocal, sv, dv, hsv, hdv, rfl⟩,
        volumeBlockers_eq_nil.mpr ⟨hsource, hdestination⟩⟩
  · have hblocked := resume_eq_blocked h
    have hpair := orientVolumeIdentities_eq snapshot.profile
      (expectedSource snapshot, expectedDestination snapshot)
    rw [expected_bySide hside, expected_bySide hside] at hpair
    unfold persistBlocked at hblocked
    dsimp only at hblocked hpair
    rw [hpair] at hblocked
    cases hblocked
    exact ⟨rfl, rfl⟩
  · obtain ⟨passed, locked, allow, lease, hpassed, hlease, hpair⟩ := resume_eq_executed h
    have horient := orientVolumeIdentities_eq snapshot.profile
      (lease.sourceVolumeIdentity, lease.destinationVolumeIdentity)
    dsimp only at horient
    rw [horient] at hpair
    obtain ⟨rfl, rfl⟩ := Prod.mk.inj hpair
    exact ⟨passed, locked, allow, lease, hpassed, hlease, acquirePrecheck_eq_ok hlease .peerA,
      acquirePrecheck_eq_ok hlease .peerB⟩

end

/-! ### A laptop and a drive -/

def volumeProfile (mode : SyncMode) (source : OneWaySource) : SyncProfile :=
  let profile := SyncProfile.new "Documents" ⟨"Laptop", .local ⟨[47, 97]⟩⟩
    ⟨"Drive", .local ⟨[47, 98]⟩⟩
  { profile with mode, source }

def volumeSnapshot (mode : SyncMode) (source : OneWaySource)
    (peerA peerB : Option VolumeIdentity) : RunSnapshot where
  runId := ⟨1⟩
  snapshotId := 1
  createdAtUnixSeconds := 0
  profile := volumeProfile mode source
  validatedOptions := .default
  authorizations := .default
  peerAVolumeIdentity := peerA
  peerBVolumeIdentity := peerB

/-- The laptop is on device 1, the drive on device 2. -/
def volumeProbe (requiresVolumeIdentity : Bool) : PrecheckProbe where
  volumeIdentity path := .ok (some (if path.bytes = [47, 97] then ⟨1⟩ else ⟨2⟩))
  requiresVolumeIdentity
  others _ := .ok []

/-- One-Way from the drive, on the recorded volumes. -/
theorem resume_own_volumes_drive :
    ∃ result, checkVolumes (fun _ => false)
      (volumeSnapshot .oneWay .peerB (some ⟨1⟩) (some ⟨2⟩)).profile (volumeProbe true)
      (expectedSource (volumeSnapshot .oneWay .peerB (some ⟨1⟩) (some ⟨2⟩)))
      (expectedDestination (volumeSnapshot .oneWay .peerB (some ⟨1⟩) (some ⟨2⟩))) true false =
        .ok result ∧ result.blockers = [] := by
  refine ((resume_own_volumes ⟨_, rfl⟩ (by decide)).1 (.inl rfl)).1.mpr fun side => ?_
  cases side
  · exact ⟨some ⟨1⟩, rfl, rfl⟩
  · exact ⟨some ⟨2⟩, rfl, rfl⟩

/-- A probe that requires no identity passes where none is recorded, and a Mirror run whose
source field says Peer B is blocked on the recorded volumes. -/
theorem resume_other_volumes :
    ¬ (∀ (isDir : Directories) (snapshot : RunSnapshot) (probe : PrecheckProbe),
      (∃ result, checkVolumes isDir snapshot.profile probe (expectedSource snapshot)
        (expectedDestination snapshot) true false = .ok result ∧ result.blockers = []) ↔
      ∀ side, ∃ recorded, snapshot.volumeIdentity side = some recorded ∧
        probe.volumeIdentity (snapshot.profile.peerRoot side) = .ok (some recorded)) ∧
    ¬ ∃ result, checkVolumes (fun _ => false)
      (volumeSnapshot .mirror .peerB (some ⟨1⟩) (some ⟨2⟩)).profile (volumeProbe true)
      (expectedSource (volumeSnapshot .mirror .peerB (some ⟨1⟩) (some ⟨2⟩)))
      (expectedDestination (volumeSnapshot .mirror .peerB (some ⟨1⟩) (some ⟨2⟩))) true false =
        .ok result ∧ result.blockers = [] := by
  constructor
  · intro h
    have hpass : ∃ result, checkVolumes (fun _ => false)
        (volumeSnapshot .oneWay .peerA none none).profile (volumeProbe false)
        (expectedSource (volumeSnapshot .oneWay .peerA none none))
        (expectedDestination (volumeSnapshot .oneWay .peerA none none)) true false =
          .ok result ∧ result.blockers = [] :=
      ⟨_, checkVolumes_eq_ok.mpr ⟨⟨_, rfl⟩, by decide, _, _, rfl, rfl, rfl⟩,
        volumeBlockers_eq_nil.mpr ⟨rfl, rfl⟩⟩
    obtain ⟨recorded, hrecorded, -⟩ := (h _ _ _).mp hpass .peerA
    cases hrecorded
  · rintro ⟨result, hresult, hblockers⟩
    obtain ⟨-, -, sv, dv, hsv, -, rfl⟩ := checkVolumes_eq_ok.mp hresult
    obtain ⟨hsource, -⟩ := volumeBlockers_eq_nil.mp hblockers
    cases hsv
    have hsame : some (⟨1⟩ : VolumeIdentity) = some ⟨2⟩ := hsource
    exact absurd hsame (by decide)

end SyncPlus
