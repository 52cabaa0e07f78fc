import SyncPlus.ConfigurationTransfer
import SyncPlus.StoredProfiles

/-!
# What an import resets

A profile that was exported comes back as it was, but without what would let
it delete or run by itself: Safe Delete, Destination Cleanup and the deletion
method are cleared, its schedule is switched off, and a saved password is
asked for again. What it had to satisfy to be stored, it still satisfies.
-/

namespace SyncPlus

/-! ## What an import resets -/

def SshAuthentication.reset : SshAuthentication → SshAuthentication
  | .savedPassword _ => .interactivePassword
  | authentication => authentication

theorem SshAuthentication.reset_eq_key {authentication : SshAuthentication} :
    authentication.reset = .key ↔ authentication = .key := by
  cases authentication <;> simp [reset]

theorem SshAccess.reset {server username : String} {port : UInt16} {identity : Option PathBuf}
    {authentication : SshAuthentication}
    (h : SshAccess server username port identity authentication = .ok ()) :
    SshAccess server username port identity authentication.reset = .ok () := by
  unfold SshAccess at h ⊢
  simpa only [SshAuthentication.reset_eq_key] using h

def SshPeer.reset (peer : SshPeer) : SshPeer :=
  { peer with
    authentication := peer.authentication.reset
    access := SshAccess.reset peer.access }

def Peer.reset (peer : Peer) : Peer :=
  match peer.endpoint with
  | .local _ => peer
  | .ssh remote => { peer with endpoint := .ssh remote.reset }

def SyncOptions.reset (options : SyncOptions) : SyncOptions :=
  { options with safeDelete := false, destinationCleanup := false, deletionMethod := none }

def SyncProfile.reset (profile : SyncProfile) : SyncProfile :=
  { profile with
    peerA := profile.peerA.reset
    peerB := profile.peerB.reset
    options := profile.options.reset }

def ScheduleDefinition.reset (schedule : ScheduleDefinition) : ScheduleDefinition :=
  { schedule with enabled := false, nextRunAtUnixSeconds := none }

/-- What a user sees of a stored profile, whatever its number and revision. -/
structure ProfileContent where
  profile : SyncProfile
  schedule : Option ScheduleDefinition
  scheduleEnabled : Bool
  authorizations : AuthorizationSnapshot
  deriving DecidableEq

def PersistedSyncProfile.content (persisted : PersistedSyncProfile) : ProfileContent where
  profile := persisted.profile
  schedule := persisted.schedule
  scheduleEnabled := persisted.scheduleEnabled
  authorizations := persisted.authorizations

def ProfileContent.reset (content : ProfileContent) : ProfileContent where
  profile := content.profile.reset
  schedule := content.schedule.map ScheduleDefinition.reset
  scheduleEnabled := false
  authorizations := .default

section

variable (profile : SyncProfile) (peer : Peer)

@[simp] theorem Peer.reset_name : peer.reset.name = peer.name := by
  rcases peer with ⟨name, root | remote⟩ <;> rfl

@[simp] theorem Peer.reset_root : peer.reset.root = peer.root := by
  rcases peer with ⟨name, root | remote⟩ <;> rfl

@[simp] theorem Peer.reset_isSsh : peer.reset.isSsh = peer.isSsh := by
  rcases peer with ⟨name, root | remote⟩ <;> rfl

@[simp] theorem PeerScope.forPeer_reset (currentDir : Option PathBuf) :
    PeerScope.forPeer currentDir peer.reset = PeerScope.forPeer currentDir peer := by
  rcases peer with ⟨name, root | remote⟩ <;> rfl

@[simp] theorem SyncProfile.endpoints_reset (currentDir : Option PathBuf) :
    profile.reset.endpoints currentDir = profile.endpoints currentDir := by
  simp [endpoints, reset]

@[simp] theorem SyncProfile.reset_name : profile.reset.name = profile.name := rfl

@[simp] theorem SyncProfile.reset_exclusions :
    profile.reset.exclusions = profile.exclusions := rfl

theorem SyncProfile.sourcePeer_reset : profile.reset.sourcePeer = profile.sourcePeer.reset := by
  rcases profile with ⟨_, _, _, _, _ | _, _, _⟩ <;> rfl

theorem SyncProfile.destinationPeer_reset :
    profile.reset.destinationPeer = profile.destinationPeer.reset := by
  rcases profile with ⟨_, _, _, _, _ | _, _, _⟩ <;> rfl

/-- A reset profile writes where the profile does. -/
@[simp] theorem processDestinationRoot_reset (isDir : Directories) :
    processDestinationRoot isDir profile.reset = processDestinationRoot isDir profile := by
  have heffective : profile.reset.effectiveDestinationRoot =
      profile.effectiveDestinationRoot := by
    simp only [SyncProfile.effectiveDestinationRoot, SyncProfile.sourcePeer_reset,
      SyncProfile.destinationPeer_reset, Peer.reset_root]
    rfl
  simp only [processDestinationRoot, heffective, SyncProfile.destinationPeer_reset,
    Peer.reset_root, Peer.reset_isSsh]
  rfl

end

theorem SyncOptions.check_reset {options : SyncOptions} (h : options.check = .ok ()) :
    options.reset.check = .ok () := by
  unfold check at h ⊢
  obtain ⟨-, h⟩ := ensure_bind_eq_ok.mp h
  exact ensure_bind_eq_ok.mpr ⟨by simp [reset], h⟩

/-- What a profile satisfies to be stored, it satisfies after the reset. -/
theorem SyncProfile.Storable.reset {profile : SyncProfile} (h : profile.Storable) :
    profile.reset.Storable where
  name := h.name
  peerA := by simpa [SyncProfile.reset] using h.peerA
  peerB := by simpa [SyncProfile.reset] using h.peerB
  options := SyncOptions.check_reset h.options
  checks := {
    mirror := fun _ => rfl
    topology := by simpa [SyncProfile.reset] using h.checks.topology
    source := by simpa [SyncProfile.sourcePeer_reset] using h.checks.source
    destination := by simpa [SyncProfile.destinationPeer_reset] using h.checks.destination
    exclusions := h.checks.exclusions }

theorem ScheduleDefinition.Valid.reset {schedule : ScheduleDefinition} (h : schedule.Valid) :
    schedule.reset.Valid where
  interval := h.interval
  timezone := h.timezone
  nextRun := by simp [ScheduleDefinition.reset]
  disabled := by simp [ScheduleDefinition.reset]

/-! ## One profile -/

/-- The peer asks for its password. -/
def Peer.asksPassword (peer : Peer) : Bool :=
  peer.sshPeer.any fun remote => remote.authentication = .interactivePassword

theorem pathToString_eq_ok {path : PathBuf} {field text : String} :
    pathToString path field = .ok text ↔ path.toText = some text := orError_eq_ok

theorem authentication_ofAuthentication (authentication : SshAuthentication) :
    (ExportAuthentication.ofAuthentication authentication).authentication =
      authentication.reset := by
  cases authentication <;> rfl

theorem ofAuthentication_eq_interactive {authentication : SshAuthentication} :
    ExportAuthentication.ofAuthentication authentication = .interactive ↔
      authentication.reset = .interactivePassword := by
  cases authentication <;> simp [ExportAuthentication.ofAuthentication, SshAuthentication.reset]

theorem mapM_pathToString {identity : Option PathBuf} {field : String}
    {texts : Option String}
    (h : identity.mapM (fun path => pathToString path field) = .ok texts) :
    texts.map PathBuf.ofText = identity := by
  cases identity with
  | none =>
      cases h
      rfl
  | some path =>
      obtain ⟨text, htext, h⟩ := bind_eq_ok.mp h
      cases h
      rw [Option.map_some, PathBuf.ofText_toText (pathToString_eq_ok.mp htext)]

/-- A peer comes back from its export as it was, without a saved password. -/
theorem intoPeer_fromPeer {peer : Peer} {field : String} {exported : ExportPeer}
    (h : ExportPeer.fromPeer peer field = .ok exported) (field' : String) :
    exported.intoPeer field' = .ok (peer.reset, peer.reset.asksPassword) := by
  rcases peer with ⟨name, root | remote⟩
  · obtain ⟨text, htext, h⟩ := bind_eq_ok.mp h
    cases h
    simp [ExportPeer.intoPeer, PathBuf.ofText_toText (pathToString_eq_ok.mp htext), Peer.reset,
      Peer.asksPassword, Peer.sshPeer]
  · obtain ⟨identity, hidentity, h⟩ := bind_eq_ok.mp h
    obtain ⟨remotePath, hremote, h⟩ := bind_eq_ok.mp h
    cases h
    have hnew := SshPeer.new_self remote.reset (pathToString_eq_ok.mp hremote)
    simp only [ExportPeer.intoPeer, authentication_ofAuthentication, mapM_pathToString hidentity]
    rw [bind_eq_ok]
    refine ⟨remote.reset, mapError_eq_ok.mpr hnew, ?_⟩
    simp [Peer.reset, Peer.asksPassword, Peer.sshPeer, ofAuthentication_eq_interactive,
      SshPeer.reset, pure, Except.pure]

/-- Options come back from their export, in whole milliseconds, as they are
reset. -/
theorem intoSafeOptions_fromOptions {options : SyncOptions} (h : options.check = .ok ())
    (hstored : options.stored = options) :
    (ExportOptions.fromOptions options).intoSafeOptions.1 = options.reset := by
  obtain ⟨hdelay, -⟩ := SyncOptions.check_bounds h
  have hmillis : options.retryPolicy.initialDelay.asMillis < 2 ^ 64 := by
    unfold Duration.asMillis
    omega
  have hwhole : Duration.fromMillis options.retryPolicy.initialDelay.asMillis =
      options.retryPolicy.initialDelay :=
    Duration.fromMillis_asMillis.mpr (SyncOptions.stored_eq_self.mp hstored)
  simp only [ExportOptions.intoSafeOptions, ExportOptions.fromOptions, SyncOptions.reset,
    UInt64.toNat_ofNat', Nat.mod_eq_of_lt hmillis, hwhole]

theorem intoSchedule_fromSchedule {schedule : ScheduleDefinition} (h : schedule.Valid)
    (field : String) :
    (ExportSchedule.fromSchedule schedule).intoSchedule field = .ok schedule.reset := by
  have hvalid := ScheduleDefinition.validate_eq_ok.mpr h.reset
  have hvalid : (ScheduleDefinition.validate { schedule with
      enabled := false, nextRunAtUnixSeconds := none }) = .ok () := hvalid
  simp only [ExportSchedule.intoSchedule, ExportSchedule.fromSchedule, hvalid]
  rfl

theorem mapM_intoSchedule {schedule : Option ScheduleDefinition} (h : ∀ s ∈ schedule, s.Valid)
    (field : String) :
    (schedule.map ExportSchedule.fromSchedule).mapM (fun s => s.intoSchedule field) =
      .ok (schedule.map ScheduleDefinition.reset) := by
  cases schedule with
  | none => rfl
  | some s =>
      show (ExportSchedule.fromSchedule s).intoSchedule field >>= (fun s => pure (some s)) = _
      rw [intoSchedule_fromSchedule (h s rfl)]
      rfl

end SyncPlus
