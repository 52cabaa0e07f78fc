import SyncPlus.SnapshotFrozen
import SyncPlus.StoreOutlines

/-!
# Unattended authorization keeps its scope

An authorization to delete without anybody watching is given for a
profile, and holds for the peers, the mode, the source, the options and
the exclusions it was given for. Every update compares the stored
profile with the new one and drops the authorization when one of these
changed; an update that gives none carries the stored one on.

The stored profile is read, compared and written over in separate
transactions. That what was read is still what is stored follows from
the revision: rows of one revision are the same row.

In runs whose profiles all have retry delays of whole milliseconds, every
authorization that is stored or frozen was given for what it is stored
with (`unattended_authorization_given`). With any other delay the
profile that is stored is not the one the authorization was given for.
-/

namespace SyncPlus

/-! ## Scopes -/

/-- The two profiles are the same to an unattended authorization. -/
def SyncProfile.SameScope (profile other : SyncProfile) : Prop :=
  unattendedAuthorizationScopeChanged profile other = false

theorem SyncProfile.sameScope_iff {profile other : SyncProfile} :
    profile.SameScope other ↔
      profile.peerA.key = other.peerA.key ∧ profile.peerB.key = other.peerB.key ∧
        profile.mode = other.mode ∧ profile.source = other.source ∧
        profile.options = other.options ∧ profile.exclusions = other.exclusions := by
  simp [SameScope, unattendedAuthorizationScopeChanged, Peer.same_iff, and_assoc]

theorem SyncProfile.sameScope_refl (profile : SyncProfile) : profile.SameScope profile := by
  simp [sameScope_iff]

theorem SyncProfile.SameScope.trans {p₁ p₂ p₃ : SyncProfile} (h : p₁.SameScope p₂)
    (h' : p₂.SameScope p₃) : p₁.SameScope p₃ := by
  rw [sameScope_iff] at *
  obtain ⟨ha, hb, hmode, hsource, hoptions, hexclusions⟩ := h
  obtain ⟨ha', hb', hmode', hsource', hoptions', hexclusions'⟩ := h'
  exact ⟨ha.trans ha', hb.trans hb', hmode.trans hmode', hsource.trans hsource',
    hoptions.trans hoptions', hexclusions.trans hexclusions'⟩

/-! ## Giving an authorization -/

namespace Request

/-- The authorization that a call gives explicitly, and the profile it gives
it for. -/
def gives : Request → Option (SyncProfile × AuthorizationSnapshot)
  | .createProfileWithAuthorizations profile authorizations => some (profile, authorizations)
  | .updateProfileWithAuthorizations _ profile authorizations => some (profile, authorizations)
  | .updateProfileWithAuthorizationsIfRevision _ profile authorizations _ =>
      some (profile, authorizations)
  | _ => none

/-- The profiles that a call passes. -/
def profiles : Request → List SyncProfile
  | .createProfile profile => [profile]
  | .createProfileWithAuthorizations profile _ => [profile]
  | .updateProfile _ profile => [profile]
  | .updateProfileWithAuthorizations _ profile _ => [profile]
  | .updateProfileWithAuthorizationsIfRevision _ profile _ _ => [profile]
  | .replaceConfiguration imported => imported.map (·.profile)
  | _ => []

/-- Every retry delay that the call passes is a whole number of milliseconds. -/
def WholeMillis (request : Request) : Prop :=
  ∀ profile ∈ request.profiles, profile.options.retryPolicy.initialDelay.IsWholeMillis

instance (request : Request) : Decidable request.WholeMillis :=
  inferInstanceAs (Decidable (∀ profile ∈ request.profiles, _))

end Request

variable {ι : Type}

abbrev StoreTrace (ι : Type) := List (Event ι Request Commit StorageError Answer)

/-- An authorization that is held for the profile was given explicitly, in a
call for a profile of the same scope. -/
def Given (trace : StoreTrace ι) (profile : SyncProfile)
    (authorizations : AuthorizationSnapshot) : Prop :=
  authorizations ≠ .default → ∃ c request given, .called c request ∈ trace ∧
    request.gives = some (given, authorizations) ∧ given.SameScope profile

theorem given_default (trace : StoreTrace ι) (profile : SyncProfile) :
    Given trace profile .default :=
  fun h => absurd rfl h

theorem Given.mono {trace trace' : StoreTrace ι} {profile : SyncProfile}
    {authorizations : AuthorizationSnapshot} (h : Given trace profile authorizations)
    (hsub : trace ⊆ trace') : Given trace' profile authorizations := by
  intro hne
  obtain ⟨c, request, given, hcall, hgives, hscope⟩ := h hne
  exact ⟨c, request, given, hsub hcall, hgives, hscope⟩

theorem Given.sameScope {trace : StoreTrace ι} {profile other : SyncProfile}
    {authorizations : AuthorizationSnapshot} (h : Given trace profile authorizations)
    (hscope : profile.SameScope other) : Given trace other authorizations := by
  intro hne
  obtain ⟨c, request, given, hcall, hgives, hgiven⟩ := h hne
  exact ⟨c, request, given, hcall, hgives, hgiven.trans hscope⟩

/-! ## The discipline -/

/-- A record that holds no authorization but one that was given for it, and
that its columns keep as it is. -/
structure StoredProfile.GivenFor (trace : StoreTrace ι) (e : StoredProfile) : Prop where
  whole : e.profile.options.retryPolicy.initialDelay.IsWholeMillis
  given : Given trace e.profile e.authorizations

structure ScopeKept (w : StoreWorld ι) (entries : List StoredProfile) : Prop where
  stores : w.shared.profiles.Stores entries
  given : ∀ e ∈ entries, e.GivenFor w.trace
  claimed : ∀ c claim, .left c (.claimed claim) ∈ w.trace →
    Given w.trace claim.claim.snapshot.profile claim.claim.snapshot.authorizations
  records : ∀ record ∈ w.shared.runs.records, ∃ c claim,
    .left c (.claimed claim) ∈ w.trace ∧
      SnapshotRow.ofSnapshot claim.claim.snapshot = .ok record.snapshot

def scopeDiscipline (ι : Type) : StoreDiscipline ι where
  inv w := ∃ entries, ScopeKept w entries
  rely _ w w' := w.shared.profiles.Advances w'.shared.profiles ∧ w.trace ⊆ w'.trace
  admits request _ _ _ _ := request.WholeMillis
  guar _ w w' := w.shared.profiles.Advances w'.shared.profiles
  guar_refl := StoreWorld.advances_refl
  rely_refl _ _ := ⟨ProfileTable.advances_refl _, List.Subset.refl _⟩
  rely_trans h h' := ⟨h.1.trans h'.1, List.Subset.trans h.2 h'.2⟩

theorem StoredProfile.GivenFor.mono {trace trace' : StoreTrace ι} {e : StoredProfile}
    (h : e.GivenFor trace) (hsub : trace ⊆ trace') : e.GivenFor trace' :=
  ⟨h.whole, h.given.mono hsub⟩

theorem StoredProfile.GivenFor.kept_eq {trace : StoreTrace ι} {e : StoredProfile}
    (h : e.GivenFor trace) : e.kept = e := by
  have hstored := SyncProfile.stored_eq_self.mpr h.whole
  cases e
  simpa [StoredProfile.kept] using hstored

namespace ScopeKept

variable {w : StoreWorld ι} {entries entries' : List StoredProfile}

/-- A transaction that claims nothing. -/
theorem step (h : ScopeKept w entries) {c : ι} {db : Database} {marks : List Commit}
    (hstores : db.profiles.Stores entries') (hruns : w.shared.SameRuns db)
    (hmarks : ∀ claim, .claimed claim ∉ marks)
    (hgiven : ∀ e ∈ entries', e.GivenFor w.trace) :
    ScopeKept (w.afterStep c (db, marks)) entries' := by
  have hsub : w.trace ⊆ (w.afterStep c (db, marks)).trace := List.subset_append_left _ _
  refine ⟨hstores, fun e he => (hgiven e he).mono hsub, fun c' claim hclaim => ?_,
    fun record hrecord => ?_⟩
  · rcases List.mem_append.mp hclaim with hold | hnew
    · exact (h.claimed c' claim hold).mono hsub
    · obtain ⟨mark, hmark, heq⟩ := List.mem_map.mp hnew
      cases heq
      exact absurd hmark (hmarks claim)
  · rw [World.afterStep_shared, hruns.runs] at hrecord
    obtain ⟨c', claim, hclaim, hrow⟩ := h.records record hrecord
    exact ⟨c', claim, hsub hclaim, hrow⟩

/-- A transaction that finds nothing to claim. -/
theorem step_idle (h : ScopeKept w entries) {c : ι} {db : Database}
    (hprofiles : db.profiles = w.shared.profiles)
    (hrecords : db.runs.records = w.shared.runs.records) :
    ScopeKept (w.afterStep c (db, [])) entries := by
  have htrace : (w.afterStep c (db, [])).trace = w.trace := by simp
  refine ⟨hprofiles ▸ h.stores, htrace ▸ h.given, htrace ▸ h.claimed, ?_⟩
  rw [htrace, World.afterStep_shared, hrecords]
  exact h.records

/-- A transaction that claims a run of a profile as it was loaded. -/
theorem step_claim (h : ScopeKept w entries) {c : ι} {db : Database}
    {existing : PersistedSyncProfile} {scheduledAt nextRun now : Int64} {env : Environment}
    {claim : ScheduleClaim} {e : StoredProfile} {schedule : ScheduleDefinition}
    (hclaims : Claims entries existing scheduledAt nextRun now env w.shared db claim e schedule)
    (hgiven : Given w.trace existing.profile existing.authorizations) :
    ScopeKept (w.afterStep c (db, [.claimed claim]))
      (modifyEntry entries existing.id fun e => e.moveTo nextRun) := by
  have hsub : w.trace ⊆ (w.afterStep c (db, [.claimed claim])).trace :=
    List.subset_append_left _ _
  have hfrozen := RunSnapshot.fromProfileWithVolumeIdentities_eq_ok.mp hclaims.snapshot
  refine ⟨hclaims.stores, fun e' he' => ?_, fun c' other hclaim => ?_, fun record hrecord => ?_⟩
  · obtain ⟨old, hold, rfl⟩ := mem_modifyEntry.mp he'
    have hkept := (h.given old hold).mono hsub
    split
    · exact ⟨hkept.whole, hkept.given⟩
    · exact hkept
  · rcases List.mem_append.mp hclaim with hold | hnew
    · exact (h.claimed c' other hold).mono hsub
    · obtain ⟨mark, hmark, heq⟩ := List.mem_map.mp hnew
      obtain rfl := List.mem_singleton.mp hmark
      cases heq
      rw [hfrozen.profile_eq, hfrozen.authorizations_eq]
      exact hgiven.mono hsub
  · obtain ⟨record', happend, hrow⟩ := hclaims.records
    rw [World.afterStep_shared, happend] at hrecord
    rcases List.mem_append.mp hrecord with hold | hnew
    · obtain ⟨c', other, hclaim, hother⟩ := h.records record hold
      exact ⟨c', other, hsub hclaim, hother⟩
    · obtain rfl := List.mem_singleton.mp hnew
      exact ⟨c, claim, by simp, hrow⟩

/-- A call that starts or ends. -/
theorem snoc (h : ScopeKept w entries)
    {event : Event ι Request Commit StorageError Answer}
    (hevent : ∀ c mark, event ≠ .left c mark) :
    ScopeKept { w with trace := w.trace ++ [event] } entries := by
  have hsub : w.trace ⊆ w.trace ++ [event] := List.subset_append_left _ _
  refine ⟨h.stores, fun e he => (h.given e he).mono hsub, fun c' claim hclaim => ?_,
    fun record hrecord => ?_⟩
  · rcases List.mem_append.mp hclaim with hold | hnew
    · exact (h.claimed c' claim hold).mono hsub
    · exact absurd (List.mem_singleton.mp hnew).symm (hevent _ _)
  · obtain ⟨c', claim, hclaim, hrow⟩ := h.records record hrecord
    exact ⟨c', claim, hsub hclaim, hrow⟩

end ScopeKept

/-! ## The outlines -/

section

variable {currentDir : Option PathBuf} {c : ι} {request : Request} {w : StoreWorld ι}
  {marks : List Commit}

/-- The worlds that a connection may find when it takes its next step. -/
def Onward (w w' : StoreWorld ι) : Prop :=
  w.shared.profiles.Advances w'.shared.profiles ∧ w.trace ⊆ w'.trace

theorem Onward.trans {w₁ w₂ w₃ : StoreWorld ι} (h : Onward w₁ w₂) (h' : Onward w₂ w₃) :
    Onward w₁ w₃ :=
  ⟨h.1.trans h'.1, List.Subset.trans h.2 h'.2⟩

/-- What a profile is loaded as. -/
theorem ScopeKept.findExisting {entries : List StoredProfile} (h : ScopeKept w entries)
    {moment : Moment} {id : SyncProfileId} {existing : PersistedSyncProfile}
    (hfind : findExisting moment id w.shared = .ok existing) :
    ∃ e ∈ entries, e.id = id ∧ e.edits < 2 ^ 63 ∧ existing = e.persisted := by
  obtain ⟨e, he, hid, hedits, -, rfl⟩ := findExisting_eq_ok h.stores hfind
  exact ⟨e, he, hid, hedits, by rw [(h.given e he).kept_eq]⟩

/-- What was loaded is still stored under its revision. -/
theorem ScopeKept.same_profile {entries entries' : List StoredProfile} {w' : StoreWorld ι}
    (h : ScopeKept w entries) (honward : Onward w w') (h' : ScopeKept w' entries')
    {e e' : StoredProfile} (he : e ∈ entries) (he' : e' ∈ entries') (hid : e.id = e'.id)
    (hedits : e.edits = e'.edits) : e.profile = e'.profile := by
  have hversion := h'.stores.version_eq ((h.stores.seen he).advances honward.1) he'
    (SyncProfileId.toNat_inj.mpr hid.symm) (congrArg Int.ofNat hedits.symm)
  have hdecode : e.row.version.decode = e'.row.version.decode := by rw [hversion]
  change e.row.decode = e'.row.decode at hdecode
  rw [StoredProfile.decode_row (h.stores.valid e he),
    StoredProfile.decode_row (h'.stores.valid e' he'),
    SyncProfile.stored_eq_self.mpr (h.given e he).whole,
    SyncProfile.stored_eq_self.mpr (h'.given e' he').whole] at hdecode
  exact Except.ok.inj hdecode

/-- An update keeps the discipline when the authorization it is called with was
given for its profile, as far as the stored profile has the same scope. -/
theorem outline_updateIfRevision {id : SyncProfileId} {profile : SyncProfile}
    {authorizations : AuthorizationSnapshot} {expected : UInt64}
    (hwhole : profile.options.retryPolicy.initialDelay.IsWholeMillis)
    (hcarry : ∀ w' entries, Onward w w' → ScopeKept w' entries → ∀ e ∈ entries, e.id = id →
      e.edits = expected.toNat → e.profile.SameScope profile →
        Given w'.trace profile authorizations) :
    Outline (scopeDiscipline ι) c request (fun _ _ _ => True)
      (updateProfileWithAuthorizationsIfRevision currentDir id profile authorizations expected)
      marks w := by
  refine Outline.updateIfRevision fun w₁ w₂ w₃ w₄ _ _ existing db new hrely₁ hrely₂ hrely₃
    hrely₄ hinv₂ _ hinv₄ _ hstorable hfind hrevision _ hauthorizations hrun => ?_
  obtain ⟨entries, hkept⟩ := hinv₂
  obtain ⟨e, he, hid, hedits, rfl⟩ := hkept.findExisting hfind
  obtain ⟨entries₄, hkept₄⟩ := hinv₄
  obtain ⟨-, hstores, hadvances, hruns, rfl⟩ :=
    updateTransaction_eq_ok hkept₄.stores hstorable hauthorizations hrun
  have hexpected : e.edits = expected.toNat := by
    rw [← hrevision]
    exact (Nat.mod_eq_of_lt (by omega)).symm
  refine ⟨⟨_, hkept₄.step hstores hruns (by simp) fun e' he' => ?_⟩, hadvances⟩
  obtain ⟨old, hold, rfl⟩ := mem_modifyEntry.mp he'
  split
  · refine ⟨hwhole, ?_⟩
    show Given w₄.trace profile (if _ then _ else _)
    split
    · exact given_default _ _
    · rename_i hscope
      have hgiven := hcarry w₂ entries (Onward.trans hrely₁ hrely₂) hkept e he hid hexpected
        (Bool.eq_false_iff.mpr hscope)
      exact hgiven.mono (Onward.trans hrely₃ hrely₄).2
  · exact hkept₄.given old hold

theorem outline_create {profile : SyncProfile} {authorizations : AuthorizationSnapshot}
    (hwhole : profile.options.retryPolicy.initialDelay.IsWholeMillis)
    (hgiven : Given w.trace profile authorizations) :
    Outline (scopeDiscipline ι) c request (fun _ _ _ => True)
      (createProfileWithAuthorizations currentDir profile authorizations) marks w := by
  refine Outline.create fun w₁ w₂ w₃ _ key db new hrely₁ hrely₂ hrely₃ _ hinv₃ _ hstorable
    hauthorizations _ hrun => ?_
  obtain ⟨entries, hkept⟩ := hinv₃
  obtain ⟨id, -, -, hstores, hadvances, hruns, rfl⟩ :=
    createTransaction_eq_ok hkept.stores hstorable hauthorizations hrun
  refine ⟨⟨_, hkept.step hstores hruns (by simp) fun e he => ?_⟩, hadvances⟩
  rcases List.mem_append.mp he with hold | hnew
  · exact hkept.given e hold
  · obtain rfl := List.mem_singleton.mp hnew
    exact ⟨hwhole, hgiven.mono (Onward.trans hrely₁ (Onward.trans hrely₂ hrely₃)).2⟩

theorem outline_remove {id : SyncProfileId} :
    Outline (scopeDiscipline ι) c request (fun _ _ _ => True) (removeProfile id) marks w := by
  refine Outline.remove fun w₁ _ changed db new _ hinv _ hrun => ?_
  obtain ⟨entries, hkept⟩ := hinv
  obtain ⟨hstores, hadvances, hruns, rfl⟩ := removeTransaction_eq_ok hkept.stores hrun
  exact ⟨⟨_, hkept.step hstores hruns (by simp) fun e he =>
    hkept.given e (List.mem_of_mem_filter he)⟩, hadvances⟩

theorem outline_replace {profiles : List ImportedProfile}
    (hwhole : ∀ imported ∈ profiles,
      imported.profile.options.retryPolicy.initialDelay.IsWholeMillis) :
    Outline (scopeDiscipline ι) c request (fun _ _ _ => True)
      (replaceConfiguration currentDir profiles) marks w := by
  refine Outline.replace fun w₁ w₂ _ db new _ _ hinv _ ⟨isDir, hvalidate⟩ hrun => ?_
  obtain ⟨entries, hkept⟩ := hinv
  obtain ⟨hstores, -, hadvances, hruns, rfl⟩ :=
    replaceTransaction_eq_ok hkept.stores (validateImport_eq_ok hvalidate).1 hrun
  refine ⟨⟨_, hkept.step hstores hruns (by simp) fun e he => ?_⟩, hadvances⟩
  obtain ⟨imported, himported, hprofile, hauthorizations⟩ := mem_importedEntries he
  exact ⟨hprofile ▸ hwhole imported himported, hauthorizations ▸ given_default _ _⟩

theorem outline_updateSchedule {id : SyncProfileId} {schedule : Option ScheduleDefinition}
    {mode : ApplicationMode} {now : Int64} :
    Outline (scopeDiscipline ι) c request (fun _ _ _ => True)
      (updateScheduleAt id schedule mode now) marks w := by
  refine Outline.updateSchedule fun w₁ w₂ _ _ accepted existing revision db new _ _ _ _ hinv _ _
    hcheck hrevision hrun => ?_
  obtain ⟨entries, hkept⟩ := hinv
  obtain ⟨-, hstores, hadvances, hruns, rfl⟩ :=
    scheduleTransaction_eq_ok hkept.stores (checkSchedule_valid hcheck) hrevision hrun
  refine ⟨⟨_, hkept.step hstores hruns (by simp) fun e he => ?_⟩, hadvances⟩
  obtain ⟨old, hold, rfl⟩ := mem_modifyEntry.mp he
  have hgiven := hkept.given old hold
  split
  · exact ⟨hgiven.whole, hgiven.given⟩
  · exact hgiven

theorem outline_claim {id : SyncProfileId} {now : Int64} :
    Outline (scopeDiscipline ι) c request (fun _ _ _ => True) (claimDueSchedule id now)
      marks w := by
  refine Outline.claim (fun _ => trivial) (fun _ _ => trivial) (fun _ _ _ _ _ _ _ => trivial)
    (fun _ _ _ _ _ _ _ => trivial) fun w₁ w₂ moment existing schedule scheduledAt nextRun
      hfound hnext hrely₂ hinv₂ _ => ⟨fun _ _ => trivial, fun claimed db new hrun => ?_⟩
  obtain ⟨entries, hkept⟩ := hfound.inv
  obtain ⟨entries₂, hkept₂⟩ := hinv₂
  obtain ⟨_, -, hfind⟩ := hfound.found
  obtain ⟨e, he, -, -, rfl⟩ := hkept.findExisting hfind
  have hvalid := (hkept.stores.valid e he).schedule schedule hfound.schedule_eq
  have hnonneg := (hvalid.nextOccurrence hfound.scheduled hfound.due hnext).2
  have hgiven := (hkept.given e he).given.mono hrely₂.2
  obtain ⟨hadvances, ⟨rfl, rfl, hprofiles, hrecords⟩ |
      ⟨claim, e₂, schedule₂, rfl, rfl, hclaims⟩⟩ :=
    claimTransaction_eq_ok hkept₂.stores hnonneg hrun
  · exact ⟨⟨entries₂, hkept₂.step_idle hprofiles hrecords⟩, hadvances, trivial⟩
  · exact ⟨⟨_, hkept₂.step_claim hclaims hgiven⟩, hadvances, trivial⟩

/-- Every request keeps the discipline. -/
theorem outline_body (hwhole : request.WholeMillis)
    (hcalled : .called c request ∈ w.trace) :
    Outline (scopeDiscipline ι) c request (fun _ _ _ => True) (request.body currentDir)
      marks w := by
  have hown {profile : SyncProfile} {authorizations : AuthorizationSnapshot}
      (hgives : request.gives = some (profile, authorizations)) (w' : StoreWorld ι)
      (hsub : w.trace ⊆ w'.trace) : Given w'.trace profile authorizations :=
    fun _ => ⟨c, request, profile, hsub hcalled, hgives, profile.sameScope_refl⟩
  cases request with
  | createProfile profile =>
      exact (outline_create (hwhole profile (by simp [Request.profiles]))
        (given_default _ _)).wrap
  | createProfileWithAuthorizations profile authorizations =>
      exact (outline_create (hwhole profile (by simp [Request.profiles]))
        (hown rfl w (List.Subset.refl _))).wrap
  | updateProfile id profile =>
      refine Outline.wrap (Outline.loadExisting_bind
        (fun w₁ hrely hinv moment existing hfind => ?_) fun _ _ => trivial)
      refine outline_updateIfRevision (hwhole profile (by simp [Request.profiles])) ?_
      obtain ⟨entries, hkept⟩ := hinv
      obtain ⟨e, he, hid, hedits, rfl⟩ := hkept.findExisting hfind
      intro w₂ entries₂ honward hkept₂ e₂ he₂ hid₂ hedits₂ hscope
      have hsame := hkept.same_profile honward hkept₂ he he₂ (hid.trans hid₂.symm)
        (by
          rw [hedits₂]
          exact (Nat.mod_eq_of_lt (by omega)).symm)
      exact ((hkept.given e he).given.mono honward.2).sameScope (hsame ▸ hscope)
  | updateProfileWithAuthorizations id profile authorizations =>
      refine Outline.wrap (Outline.look_bind (fun w₁ hrely₁ _ _ _ _ _ => ?_) fun _ _ => trivial)
      refine Outline.loadExisting_bind (fun w₂ hrely₂ _ _ existing _ => ?_) fun _ _ => trivial
      exact outline_updateIfRevision (hwhole profile (by simp [Request.profiles]))
        fun w₃ _ honward _ _ _ _ _ _ => hown rfl w₃
          (Onward.trans hrely₁ (Onward.trans hrely₂ honward)).2
  | updateProfileWithAuthorizationsIfRevision id profile authorizations expected =>
      exact (outline_updateIfRevision (hwhole profile (by simp [Request.profiles]))
        fun w₁ _ honward _ _ _ _ _ _ => hown rfl w₁ honward.2).wrap
  | replaceConfiguration profiles =>
      exact (outline_replace fun imported himported =>
        hwhole imported.profile (List.mem_map_of_mem himported)).wrap
  | updateScheduleAt id schedule mode now => exact outline_updateSchedule.wrap
  | removeProfile id => exact outline_remove.wrap
  | claimDueSchedule id now => exact outline_claim.wrap
  | pollDue now =>
      refine Outline.wrap (Outline.read_bind (fun _ _ _ _ _ _ _ => ?_) fun _ _ => trivial)
      exact Outline.poll fun _ _ _ => outline_claim

end

/-! ## Every run -/

/-- A call takes steps when all retry delays it passes are whole. -/
def WholeMillisOnly (s : StoreSystem ι) (c : ι) (_ : Moment) : Prop :=
  ∀ activity, s.running c = some activity → activity.call.WholeMillis

theorem scopeDiscipline_kept [DecidableEq ι] {currentDir : Option PathBuf} :
    (scopeDiscipline ι).Kept (Request.body currentDir) WholeMillisOnly
      (fun _ _ _ => True) where
  call c request w hinv := by
    obtain ⟨entries, hkept⟩ := hinv
    refine ⟨⟨entries, hkept.snoc (by simp)⟩, ?_⟩
    by_cases hwhole : request.WholeMillis
    · exact outline_body hwhole (by simp)
    · exact Outline.of_not_admits fun _ _ _ _ => hwhole
  finish c request marks r w hinv _ := by
    obtain ⟨entries, hkept⟩ := hinv
    exact ⟨entries, hkept.snoc (by simp)⟩
  rely_call _ _ _ _ := ⟨ProfileTable.advances_refl _, List.subset_append_left _ _⟩
  rely_finish _ _ _ _ _ _ := ⟨ProfileTable.advances_refl _, List.subset_append_left _ _⟩
  admits _ _ _ _ _ _ _ _ hallowed hrunning := hallowed _ hrunning
  rely_step _ _ _ _ _ _ _ _ _ _ _ _ _ _ _ _ _ _ hguar :=
    ⟨hguar, List.subset_append_left _ _⟩

/-- Every authorization of a stored profile, of a claimed run and of a frozen
snapshot was given for a profile of the scope it is held for. -/
structure AuthorizationsGiven (w : StoreWorld ι) : Prop where
  stored : ∀ row ∈ w.shared.profiles.rows, ∀ profile authorizations,
    row.decode = .ok profile → row.authorizations = .ok authorizations →
      Given w.trace profile authorizations
  claimed : ∀ c claim, .left c (.claimed claim) ∈ w.trace →
    Given w.trace claim.claim.snapshot.profile claim.claim.snapshot.authorizations
  frozen : ∀ record ∈ w.shared.runs.records, ∃ snapshot,
    SnapshotRow.ofSnapshot snapshot = .ok record.snapshot ∧
      Given w.trace snapshot.profile snapshot.authorizations

/-- **Unattended authorization never outlives its scope**, when every profile
that is passed has a retry delay of whole milliseconds. -/
theorem unattended_authorization_given [DecidableEq ι] {currentDir : Option PathBuf}
    {s : StoreSystem ι}
    (h : Reached (Request.body currentDir) WholeMillisOnly Database.empty s) :
    AuthorizationsGiven s.world := by
  have hinit : ScopeKept (⟨Database.empty, []⟩ : StoreWorld ι) [] :=
    ⟨stores_empty, by simp, by simp, by simp [Database.empty, RunTable.empty]⟩
  obtain ⟨⟨entries, hkept⟩, -⟩ := Reached.outline scopeDiscipline_kept ⟨[], hinit⟩ h
  refine ⟨fun row hrow profile authorizations hdecode hauthorizations => ?_, hkept.claimed,
    fun record hrecord => ?_⟩
  · obtain ⟨e, he, rfl⟩ := hkept.stores.mem_row.mp hrow
    have hgiven := hkept.given e he
    rw [StoredProfile.decode_row (hkept.stores.valid e he),
      SyncProfile.stored_eq_self.mpr hgiven.whole] at hdecode
    rw [StoredProfile.row_authorizations] at hauthorizations
    cases hdecode
    cases hauthorizations
    exact hgiven.given
  · obtain ⟨c, claim, hclaim, hrow⟩ := hkept.records record hrecord
    exact ⟨claim.claim.snapshot, hrow, hkept.claimed c claim hclaim⟩

/-! ### An authorization for a profile that is stored as another -/

def movingProfile (nanos : Nat) : SyncProfile :=
  let profile := delayedProfile nanos
  { profile with options := { profile.options with safeDelete := true } }

/-- Create the profile and let it be cleaned up without anybody watching. -/
def authorizeMoving (nanos : Nat) : Request :=
  .createProfileWithAuthorizations (movingProfile nanos) ⟨true, false⟩

def movingEntry (nanos : Nat) : StoredProfile where
  id := ⟨1⟩
  profile := movingProfile nanos
  schedule := none
  authorizations := ⟨true, false⟩
  edits := 0

theorem unattended_authorization_moving :
    ∃ s : StoreSystem Unit, s.world.shared.profiles.rows.length = 1 ∧
      AuthorizationsGiven s.world := by
  obtain ⟨s, hs, -, hworld⟩ := Reached.alone () (authorizeMoving 2000000)
    plainMachine.admitted (.start : Reached (Request.body none) WholeMillisOnly _ _) rfl
    (fun s' a ha hcall activity hactivity => by
      rw [ha] at hactivity
      cases hactivity
      rw [hcall]
      decide +kernel)
  refine ⟨s, ?_, unattended_authorization_given hs⟩
  rw [hworld]
  decide +kernel

theorem unattended_authorization_shortened :
    ¬ ∀ (currentDir : Option PathBuf) (s : StoreSystem Unit),
      Reached (Request.body currentDir) (fun _ _ _ => True) Database.empty s →
        AuthorizationsGiven s.world := by
  intro h
  obtain ⟨s, hs, -, hworld⟩ := Reached.alone () (authorizeMoving 1500000)
    plainMachine.admitted (.start : Reached (Request.body none) (fun _ _ _ => True) Database.empty _) rfl
    (fun _ _ _ _ => trivial)
  have hrows : (movingEntry 1500000).row ∈ s.world.shared.profiles.rows := by
    rw [hworld]
    decide +kernel
  obtain ⟨c, request, given, hcalled, hgives, hscope⟩ := (h none s hs).stored _ hrows
    (movingProfile 1500000).stored ⟨true, false⟩ (by decide +kernel) (by decide +kernel)
    (by decide)
  rw [hworld] at hcalled
  have hrequest : request = authorizeMoving 1500000 := by simpa using hcalled
  subst hrequest
  cases hgives
  revert hscope
  unfold SyncProfile.SameScope
  decide +kernel

end SyncPlus
