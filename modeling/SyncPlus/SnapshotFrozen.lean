import SyncPlus.RunTable

/-!
# The frozen snapshot, read back

A snapshot that was accepted and begun is read back by building it anew
from its row: the reader makes the checks of a new snapshot and then puts
the stored numbers in place. What comes back is the snapshot itself
exactly when the row kept its delay, and when the checks that depend on
the machine still pass: the clock is readable and the destination is not
the empty path (`loadSnapshot_eq_ok_iff`).
-/

namespace SyncPlus

theorem readUnsigned_ofNat {bits column n : Nat} (h : n < 2 ^ bits) :
    readUnsigned bits column n = .ok n := by
  rw [readUnsigned, tryUnsigned_ofNat h, orError_some]

theorem readOptUnsigned_map {bits column : Nat} {n : Option Nat}
    (h : ∀ m ∈ n, m < 2 ^ bits) :
    readOptUnsigned bits column (optColumn n) = .ok n := by
  cases n with
  | none => rfl
  | some m =>
      have hread : readUnsigned bits column m = .ok m := readUnsigned_ofNat (h m rfl)
      simp [readOptUnsigned, optColumn, hread, Except.map]

theorem readOptUnsigned_port (column : Nat) (peer : Peer) :
    ∃ port, readOptUnsigned 16 column (PeerColumns.ofPeer peer).port = .ok port := by
  rcases peer with ⟨name, root | ssh⟩
  · exact ⟨none, rfl⟩
  · have hlt := ssh.port.toNat_lt
    exact ⟨some ssh.port.toNat,
      readOptUnsigned_map (n := some ssh.port.toNat) (by simp; omega)⟩

/-- The options of a snapshot come back as their columns keep them. -/
theorem OptionColumns.decodeSnapshot_ofOptions (options : SyncOptions) (millis : Int)
    (limit : Option Int) :
    (OptionColumns.ofOptions options millis limit).decodeSnapshot
        options.retryPolicy.maxAttempts.toNat options.retryPolicy.initialDelay.asMillis
        (options.bandwidthLimitKibPerSecond.map UInt64.toNat) = .ok options.stored := by
  have hmethod : (options.deletionMethod.map encodeDeletionMethod).mapM
      decodeDeletionMethod = .ok options.deletionMethod := by
    cases options.deletionMethod <;> simp [pure, Except.pure]
  have hback : (options.bandwidthLimitKibPerSecond.map UInt64.toNat).map UInt64.ofNat =
      options.bandwidthLimitKibPerSecond := by
    cases options.bandwidthLimitKibPerSecond <;> simp
  unfold decodeSnapshot
  simp only [ofOptions, hmethod, hback, decodePartialTransferPolicy_encode, orError_some,
    ok_bind, readBool_boolColumn, UInt8.ofNat_toNat]
  rfl

/-- The row a snapshot is written to, and what its numbers fit in. -/
theorem SnapshotRow.ofSnapshot_eq_ok {snapshot : RunSnapshot} {row : SnapshotRow}
    (h : ofSnapshot snapshot = .ok row) :
    FitsI64 snapshot.runId.value ∧
      row = {
        runId := snapshot.runId.value.toNat
        snapshotId := snapshot.snapshotId.toNat
        profileName := snapshot.profile.name
        peerA := .ofPeer snapshot.profile.peerA
        peerB := .ofPeer snapshot.profile.peerB
        peerAVolumeIdentity := snapshot.peerAVolumeIdentity.map volumeIdentityToBlob
        peerBVolumeIdentity := snapshot.peerBVolumeIdentity.map volumeIdentityToBlob
        mode := encodeSyncMode snapshot.profile.mode
        source := encodeSource snapshot.profile.source
        options := .ofOptions snapshot.validatedOptions.toSyncOptions
          snapshot.validatedOptions.retryPolicy.initialDelay.asMillis
          (optColumn (snapshot.validatedOptions.bandwidthLimitKibPerSecond.map UInt64.toNat))
        allowUnattendedDestructive :=
          boolColumn snapshot.authorizations.allowUnattendedDestructive
        allowUnattendedPermanentRemoval :=
          boolColumn snapshot.authorizations.allowUnattendedPermanentRemoval
        createdAtUnixSeconds := snapshot.createdAtUnixSeconds.toInt
        exclusions := snapshot.profile.exclusions } := by
  have hmillis := asMillis_le snapshot.validatedOptions.checked
  have hdelay : (UInt64.ofNat
      snapshot.validatedOptions.retryPolicy.initialDelay.asMillis).toNat =
        snapshot.validatedOptions.retryPolicy.initialDelay.asMillis := by
    rw [UInt64.toNat_ofNat']
    exact Nat.mod_eq_of_lt (by omega)
  unfold ofSnapshot at h
  obtain ⟨hrunId, h⟩ := unit_bind_eq_ok.mp h
  obtain ⟨-, h⟩ := unit_bind_eq_ok.mp h
  obtain ⟨-, h⟩ := unit_bind_eq_ok.mp h
  obtain ⟨-, h⟩ := unit_bind_eq_ok.mp h
  obtain ⟨-, h⟩ := ensure_bind_eq_ok.mp h
  obtain ⟨-, h⟩ := ensure_bind_eq_ok.mp h
  cases h
  refine ⟨bindU64_eq_ok.mp hrunId, ?_⟩
  rw [hdelay]

/-- **Reading a row** builds the snapshot of the profile that the row keeps. -/
theorem SnapshotRow.load_ofSnapshot {snapshot : RunSnapshot} {row : SnapshotRow}
    (h : ofSnapshot snapshot = .ok row) (env : Environment) (lossy : LossyText)
    (runId : RunId) :
    row.load env lossy runId =
      (RunSnapshot.fromProfileWithVolumeIdentities env runId
        { snapshot.profile with options := snapshot.validatedOptions.toSyncOptions.stored }
        snapshot.authorizations snapshot.peerAVolumeIdentity
        snapshot.peerBVolumeIdentity).map fun loaded =>
          { loaded with
            snapshotId := snapshot.snapshotId
            createdAtUnixSeconds := snapshot.createdAtUnixSeconds } := by
  obtain ⟨-, rfl⟩ := ofSnapshot_eq_ok h
  have hsnapshotId := snapshot.snapshotId.toNat_lt
  have hattempts := snapshot.validatedOptions.retryPolicy.maxAttempts.toNat_lt
  have hmillis := asMillis_le snapshot.validatedOptions.checked
  obtain ⟨portA, hportA⟩ := readOptUnsigned_port 14 snapshot.profile.peerA
  obtain ⟨portB, hportB⟩ := readOptUnsigned_port 20 snapshot.profile.peerB
  have hlimit : ∀ limit ∈
      snapshot.validatedOptions.bandwidthLimitKibPerSecond.map UInt64.toNat,
      limit < 2 ^ 64 := by
    rintro _ hlimit
    obtain ⟨limit, -, rfl⟩ := Option.map_eq_some_iff.mp hlimit
    exact limit.toNat_lt
  have hread : readUnsigned 64 0 snapshot.snapshotId.toNat = .ok snapshot.snapshotId.toNat :=
    readUnsigned_ofNat (by omega)
  have hreadAttempts : readUnsigned 8 35
      snapshot.validatedOptions.retryPolicy.maxAttempts.toNat =
        .ok snapshot.validatedOptions.retryPolicy.maxAttempts.toNat :=
    readUnsigned_ofNat (by omega)
  have hreadDelay : readUnsigned 64 36
      snapshot.validatedOptions.retryPolicy.initialDelay.asMillis =
        .ok snapshot.validatedOptions.retryPolicy.initialDelay.asMillis :=
    readUnsigned_ofNat (by omega)
  have hoptions := OptionColumns.decodeSnapshot_ofOptions
    snapshot.validatedOptions.toSyncOptions
    snapshot.validatedOptions.retryPolicy.initialDelay.asMillis
    (optColumn (snapshot.validatedOptions.bandwidthLimitKibPerSecond.map UInt64.toNat))
  unfold load
  simp only [hread, hportA, hportB, ok_bind, decodeSnapshotPeer_ofPeer,
    decodeSyncMode_encode, decodeSource_encode, orError_some, decodeVolumeIdentity_toBlob,
    readBool_boolColumn]
  simp only [OptionColumns.ofOptions_retryMaxAttempts, hreadAttempts, ok_bind,
    OptionColumns.ofOptions_retryInitialDelayMillis, hreadDelay,
    OptionColumns.ofOptions_bandwidthLimitKibPerSecond, readOptUnsigned_map hlimit, hoptions,
    UInt64.ofNat_toNat, Int64.ofInt_toInt]
  rfl

/-! ## A run that has begun -/

/-- The row of a run that has just begun. -/
theorem RunTable.find?_begun {table table' : RunTable} {snapshot : RunSnapshot}
    (h : table.beginRunInTransaction snapshot = .ok table') :
    ∃ row, SnapshotRow.ofSnapshot snapshot = .ok row ∧
      table'.find? snapshot.runId = some { snapshot := row, run := .opened snapshot } := by
  unfold beginRunInTransaction at h
  obtain ⟨row, hrow, h⟩ := bind_eq_ok.mp h
  obtain ⟨hnew, h⟩ := ensure_bind_eq_ok.mp h
  obtain ⟨next, -, h⟩ := bind_eq_ok.mp h
  cases h
  have hrunId := SnapshotRow.ofSnapshot_runId hrow
  refine ⟨row, hrow, ?_⟩
  have hold : table.records.find? (fun record => record.runId = (snapshot.runId.value.toNat : Int)) =
      none := by
    rw [List.find?_eq_none]
    intro record hrecord
    simpa [← hrunId] using hnew record hrecord
  rw [find?, List.find?_append, hold]
  simp [RunRecord.runId, hrunId]

/-- **The snapshot survives storage** exactly when its retry delay is a whole
number of milliseconds, and when the machine that reads it has a clock and
finds a destination that is not the empty path. -/
theorem loadSnapshot_eq_ok_iff {env env' : Environment} {lossy : LossyText}
    {table table' : RunTable} {runId : RunId} {profile : SyncProfile}
    {authorizations : AuthorizationSnapshot} {peerA peerB : Option VolumeIdentity}
    {snapshot : RunSnapshot}
    (haccepted : RunSnapshot.fromProfileWithVolumeIdentities env runId profile
      authorizations peerA peerB = .ok snapshot)
    (hbegun : table.beginRunInTransaction snapshot = .ok table') :
    table'.loadSnapshot env' lossy runId = .ok snapshot ↔
      profile.options.retryPolicy.initialDelay.IsWholeMillis ∧
        (processDestinationRoot env'.isDir profile).isEmpty = false ∧
        ∃ now, env'.currentUnixSeconds = .ok now := by
  have hfreezes := RunSnapshot.fromProfileWithVolumeIdentities_eq_ok.mp haccepted
  obtain ⟨row, hrow, hfind⟩ := RunTable.find?_begun hbegun
  have hfits := (SnapshotRow.ofSnapshot_eq_ok hrow).1
  rw [hfreezes.run_eq] at hfind hfits
  have hload : table'.loadSnapshot env' lossy runId =
      row.load env' lossy runId := by
    have hbind : bindU64 runId.value = .ok () := bindU64_eq_ok.mpr hfits
    unfold RunTable.loadSnapshot
    rw [hbind, ok_bind, hfind, orError_some, ok_bind]
  rw [hload, SnapshotRow.load_ofSnapshot hrow, map_eq_ok, hfreezes.options_eq,
    hfreezes.profile_eq, hfreezes.authorizations_eq, hfreezes.peerA_eq, hfreezes.peerB_eq,
    ← SyncOptions.stored_eq_self]
  simp only [RunSnapshot.fromProfileWithVolumeIdentities_eq_ok]
  constructor
  · rintro ⟨loaded, hloaded, heq⟩
    have hstored : profile.options.stored = profile.options := by
      rw [← heq] at hfreezes
      exact congrArg (·.options) (hloaded.profile_eq.symm.trans hfreezes.profile_eq)
    exact ⟨hstored, (ProcessSpecification.checkProfile_eq_ok.mp hloaded.checked).2,
      loaded.createdAtUnixSeconds, hloaded.created⟩
  · rintro ⟨hstored, hdestination, now, hnow⟩
    have hchecks := (ProcessSpecification.checkProfile_eq_ok.mp hfreezes.checked).1
    refine ⟨{ snapshot with createdAtUnixSeconds := now }, ?_, rfl⟩
    rw [hstored]
    exact {
      run_eq := hfreezes.run_eq
      snapshotId_eq := hfreezes.snapshotId_eq
      created := hnow
      profile_eq := hfreezes.profile_eq
      options_eq := hfreezes.options_eq
      authorizations_eq := hfreezes.authorizations_eq
      peerA_eq := hfreezes.peerA_eq
      peerB_eq := hfreezes.peerB_eq
      checked := ProcessSpecification.checkProfile_eq_ok.mpr ⟨hchecks, hdestination⟩
      method := hfreezes.method
      permanent := hfreezes.permanent }

/-! ### A delay of half a millisecond more -/

/-- A machine without the folders of the profile, a second after the epoch. -/
def plainMachine : Environment where
  isDir _ := false
  currentUnixSeconds := .ok 1

def plainText : LossyText where
  text path := path.toText.getD ""
  text_eq path t h := by rw [h, Option.getD_some]

def delayedProfile (nanos : Nat) : SyncProfile :=
  let profile := SyncProfile.new "Documents" ⟨"Laptop", .local ⟨[47, 97]⟩⟩
    ⟨"Server", .local ⟨[47, 98]⟩⟩
  { profile with
    options := { SyncOptions.default with retryPolicy := ⟨3, ⟨nanos⟩⟩ } }

def delayedSnapshot (nanos : Nat)
    (checked : (delayedProfile nanos).options.check = .ok ()) : RunSnapshot where
  runId := ⟨1⟩
  snapshotId := 1
  createdAtUnixSeconds := 1
  profile := delayedProfile nanos
  validatedOptions := { (delayedProfile nanos).options with checked }
  authorizations := .default
  peerAVolumeIdentity := none
  peerBVolumeIdentity := some ⟨7⟩

theorem delayedProfile_checked :
    (delayedProfile 2000000).options.check = .ok () ∧
      (delayedProfile 1500000).options.check = .ok () := by
  decide +kernel

theorem beginRunInTransaction_delayed {nanos : Nat}
    (checked : (delayedProfile nanos).options.check = .ok ())
    (h : (RunTable.empty.beginRunInTransaction (delayedSnapshot nanos checked)).isOk = true) :
    ∃ table, RunTable.empty.beginRunInTransaction (delayedSnapshot nanos checked) =
      .ok table := by
  cases hbegun : RunTable.empty.beginRunInTransaction (delayedSnapshot nanos checked) with
  | ok table => exact ⟨table, rfl⟩
  | error fault =>
    rw [hbegun] at h
    exact absurd h Bool.false_ne_true

/-- With two milliseconds the snapshot comes back. -/
theorem loadSnapshot_delayed :
    ∃ table, RunTable.empty.beginRunInTransaction
        (delayedSnapshot 2000000 delayedProfile_checked.1) = .ok table ∧
      table.loadSnapshot plainMachine plainText ⟨1⟩ =
        .ok (delayedSnapshot 2000000 delayedProfile_checked.1) := by
  obtain ⟨table, hbegun⟩ := beginRunInTransaction_delayed delayedProfile_checked.1
    (by decide +kernel)
  have haccepted : RunSnapshot.fromProfileWithVolumeIdentities plainMachine ⟨1⟩
      (delayedProfile 2000000) .default none (some ⟨7⟩) =
        .ok (delayedSnapshot 2000000 delayedProfile_checked.1) := rfl
  exact ⟨table, hbegun, (loadSnapshot_eq_ok_iff haccepted hbegun).mpr
    ⟨by decide +kernel, by decide +kernel, 1, rfl⟩⟩

/-- With a millisecond and a half it does not. -/
theorem loadSnapshot_shortened :
    ¬ ∀ (env : Environment) (lossy : LossyText) (table table' : RunTable) (runId : RunId)
      (profile : SyncProfile) (authorizations : AuthorizationSnapshot)
      (peerA peerB : Option VolumeIdentity) (snapshot : RunSnapshot),
      RunSnapshot.fromProfileWithVolumeIdentities env runId profile authorizations
          peerA peerB = .ok snapshot →
        table.beginRunInTransaction snapshot = .ok table' →
        table'.loadSnapshot env lossy runId = .ok snapshot := by
  intro h
  obtain ⟨table, hbegun⟩ := beginRunInTransaction_delayed delayedProfile_checked.2
    (by decide +kernel)
  have hload := h plainMachine plainText .empty table ⟨1⟩ (delayedProfile 1500000) .default
    none (some ⟨7⟩) (delayedSnapshot 1500000 delayedProfile_checked.2) rfl hbegun
  have hnanos : (RunTable.empty.beginRunInTransaction
      (delayedSnapshot 1500000 delayedProfile_checked.2) >>= fun begun =>
        (begun.loadSnapshot plainMachine plainText ⟨1⟩).map fun loaded =>
          loaded.profile.options.retryPolicy.initialDelay.nanos) = .ok 1000000 := by
    decide +kernel
  rw [hbegun, ok_bind, hload] at hnanos
  cases hnanos

end SyncPlus
