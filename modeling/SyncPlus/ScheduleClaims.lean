import SyncPlus.SnapshotFrozen
import SyncPlus.StoreOutlines

/-!
# Schedule claims

A claim reads the profile in one transaction and claims its run in
another, which asks for the revision it has read and for a schedule that
is still due at the claimed time. Claims do not count as edits, so the
revision alone would not tell two claims of one time apart; the next run
does, since it only moves forward (`ClaimsKept`).

Whatever the connections do, claims are exact (`schedule_claims_exact`).
What the scheduler returns is another matter: `poll_due` claims profile
after profile, and what it has claimed is lost when a later profile fails
(`schedule_claims_lost`). It returns every claim as long as nothing
disturbs it after its first one (`schedule_claims_kept`).
-/

namespace SyncPlus

variable {ι : Type}

/-! ## Claims of a trace -/

/-- What a claim has to be by itself: the profile as it was in the claiming
transaction, and its schedule moved to the next occurrence. -/
structure ScheduleClaim.Exact (claim : ScheduleClaim) : Prop where
  id_eq : claim.before.profileId = claim.claim.profileId.value.toNat
  moved : ∃ schedule, ∃ next : Int64, claim.before.schedule = some schedule ∧
    schedule.enabled = 1 ∧
    schedule.nextRunAtUnixSeconds = some claim.claim.scheduledAtUnixSeconds.toInt ∧
    claim.after = { claim.before with
      schedule := some { schedule with nextRunAtUnixSeconds := some next.toInt } } ∧
    NextAfter (schedule.intervalMinutes * 60) claim.claim.scheduledAtUnixSeconds.toInt
      claim.now.toInt next.toInt
  profile : claim.before.decode = .ok claim.claim.snapshot.profile
  authorizations : claim.before.authorizations = .ok claim.claim.snapshot.authorizations

/-- What an event does to the claims of a profile since its last edit. -/
def noteClaim (id : SyncProfileId) (claims : List ScheduleClaim) :
    Event ι Request Commit StorageError Answer → List ScheduleClaim
  | .left _ (.scheduleEdited other) => if other = id then [] else claims
  | .left _ (.claimed claim) =>
      if claim.claim.profileId = id then claims ++ [claim] else claims
  | _ => claims

/-- The claims of a profile since its schedule was edited. -/
def claimsSince (id : SyncProfileId)
    (trace : List (Event ι Request Commit StorageError Answer)) : List ScheduleClaim :=
  trace.foldl (noteClaim id) []

/-- The call returned every claim it has committed. -/
def Reported (marks : List Commit) (result : Except StorageError Answer) : Prop :=
  ∀ claim, .claimed claim ∈ marks → ∃ runs, result = .ok (.polled runs) ∧
    ScheduledRun.fromClaim claim.claim ∈ runs

/-- Whatever was claimed, exactly. Between two edits of its schedule no time of
a profile is claimed twice. -/
structure ClaimsExact (w : StoreWorld ι) : Prop where
  once : ∀ id trace, trace <+: w.trace →
    ((claimsSince id trace).map fun claim => claim.claim.scheduledAtUnixSeconds).Nodup
  exact : ∀ c claim, .left c (.claimed claim) ∈ w.trace → claim.Exact

/-- No claim that a poll has committed is lost. -/
def ClaimsReported (w : StoreWorld ι) : Prop :=
  ∀ c now marks result, .returned c (.pollDue now) marks result ∈ w.trace →
    Reported marks result

/-! ## Undisturbed polls -/

/-- The row of the profile can be loaded, and its schedule has a next run if it
is due. -/
structure ProfileRow.Loads (row : ProfileRow) (isDir : Directories) (now : Int64) : Prop where
  revision : row.profileRevision < 2 ^ 63
  destination : ∀ profile, row.decode = .ok profile →
    (processDestinationRoot isDir profile).isEmpty = false
  next : ∀ schedule scheduledAt, row.schedule = some schedule → schedule.enabled = 1 →
    schedule.nextRunAtUnixSeconds = some scheduledAt → scheduledAt ≤ now.toInt →
      ∃ next : Int64, NextAfter (schedule.intervalMinutes * 60) scheduledAt now.toInt next.toInt

/-- An identifier is left for a run. -/
structure RunTable.HasRoom (table : RunTable) : Prop where
  sequence : table.nextRunId < 2 ^ 63 - 1
  records : table.highestExisting < 2 ^ 63 - 2

/-- A run of the profile can be started. -/
structure PersistedSyncProfile.Starts (existing : PersistedSyncProfile) (env : Environment)
    (runs : RunTable) : Prop where
  room : runs.HasRoom
  method : existing.profile.options.safeDelete = true →
    existing.profile.options.deletionMethod.isSome = true
  destination : (processDestinationRoot env.isDir existing.profile).isEmpty = false
  clock : ∃ time, env.currentUnixSeconds = .ok time ∧ 0 ≤ time

/-- A step of a poll that has claimed a run already goes well: the profile is
still stored, it is readable, and its run can be started. -/
def StepPasses (request : Request) (marks : List Commit) (label : StoreStep) (moment : Moment)
    (db : Database) : Prop :=
  match request, label with
  | .pollDue now, .load id => (∃ claim, .claimed claim ∈ marks) →
      moment.refused = none ∧ ∃ row ∈ db.profiles.rows, row.profileId = id.value.toNat ∧
        row.Loads moment.isDir now
  | .pollDue _, .claim existing _ _ => (∃ claim, .claimed claim ∈ marks) →
      moment.refused = none ∧ ∃ row ∈ db.profiles.rows,
        row.profileId = existing.id.value.toNat ∧ row.profileRevision < 2 ^ 63 ∧
        (row.profileRevision = existing.revision.toNat →
          existing.Starts moment.toEnvironment db.runs)
  | _, _ => True

/-- Nothing disturbs a poll after its first claim. -/
def PollsUndisturbed (s : StoreSystem ι) (c : ι) (moment : Moment) : Prop :=
  ∀ request label act next marks,
    s.running c = some ⟨request, .step label act next, marks⟩ →
      StepPasses request marks label moment s.world.shared

/-! ### Events -/

section

variable {id : SyncProfileId} {trace : List (Event ι Request Commit StorageError Answer)}

theorem claimsSince_concat (event : Event ι Request Commit StorageError Answer) :
    claimsSince id (trace ++ [event]) = noteClaim id (claimsSince id trace) event := by
  simp [claimsSince, List.foldl_append]

/-- What is no claim adds no claim. -/
theorem claimsSince_concat_other (id : SyncProfileId)
    (trace : List (Event ι Request Commit StorageError Answer))
    {event : Event ι Request Commit StorageError Answer} (h : ∀ c claim, event ≠ .left c (.claimed claim)) :
    claimsSince id (trace ++ [event]) = claimsSince id trace ∨
      claimsSince id (trace ++ [event]) = [] := by
  rw [claimsSince_concat]
  unfold noteClaim
  split
  · split
    · exact .inr rfl
    · exact .inl rfl
  · rename_i c claim
    exact absurd rfl (h c claim)
  · exact .inl rfl

end

namespace ClaimsExact

variable {w : StoreWorld ι} {event : Event ι Request Commit StorageError Answer}

/-- Claims stay exact as long as the last event adds no claim twice. -/
theorem concat (h : ClaimsExact w)
    (honce : ∀ id, ((claimsSince id (w.trace ++ [event])).map
      fun claim => claim.claim.scheduledAtUnixSeconds).Nodup)
    (hexact : ∀ c claim, event = .left c (.claimed claim) → claim.Exact) (db : Database) :
    ClaimsExact (⟨db, w.trace ++ [event]⟩ : StoreWorld ι) where
  once id trace htrace := by
    rcases List.prefix_concat_iff.mp htrace with rfl | htrace
    · exact honce id
    · exact h.once id trace htrace
  exact c claim hclaim := by
    rcases List.mem_append.mp hclaim with hold | hnew
    · exact h.exact c claim hold
    · exact hexact c claim (List.mem_singleton.mp hnew).symm

theorem concat_other (h : ClaimsExact w) (hother : ∀ c claim, event ≠ .left c (.claimed claim))
    (db : Database) : ClaimsExact (⟨db, w.trace ++ [event]⟩ : StoreWorld ι) := by
  refine h.concat (fun id => ?_) (fun c claim heq => absurd heq (hother c claim)) db
  rcases claimsSince_concat_other id w.trace hother with heq | heq
  · rw [heq]
    exact h.once id w.trace (List.prefix_refl _)
  · rw [heq]
    exact List.nodup_nil

end ClaimsExact

/-! ## The discipline -/

/-- The next run of the record is past the claims. -/
def StoredProfile.IsPast (e : StoredProfile) (claims : List ScheduleClaim) : Prop :=
  ∀ claim ∈ claims, ∃ schedule next, e.schedule = some schedule ∧
    schedule.nextRunAtUnixSeconds = some next ∧ claim.claim.scheduledAtUnixSeconds < next

theorem StoredProfile.IsPast.congr {e e' : StoredProfile} {claims : List ScheduleClaim}
    (h : e.IsPast claims) (hschedule : e.schedule = e'.schedule) : e'.IsPast claims := by
  intro claim hclaim
  obtain ⟨schedule, next, heq, hnext⟩ := h claim hclaim
  exact ⟨schedule, next, hschedule ▸ heq, hnext⟩

/-- The polls of a quiet world report what they claim. -/
structure ClaimsKept (quiet : Prop) (w : StoreWorld ι) (entries : List StoredProfile) :
    Prop where
  stores : w.shared.profiles.Stores entries
  fresh : ∀ id : SyncProfileId, w.shared.profiles.sequence < id.value.toNat →
    claimsSince id w.trace = []
  past : ∀ e ∈ entries, e.IsPast (claimsSince e.id w.trace)
  exact : ClaimsExact w
  reported : quiet → ClaimsReported w

namespace ClaimsKept

variable {quiet : Prop} {w : StoreWorld ι} {entries entries' : List StoredProfile}

/-- An event that claims nothing. -/
theorem snoc (h : ClaimsKept quiet w entries)
    {event : Event ι Request Commit StorageError Answer}
    (hother : ∀ c claim, event ≠ .left c (.claimed claim))
    (hreported : quiet → ∀ c now marks result,
      event = .returned c (.pollDue now) marks result → Reported marks result) :
    ClaimsKept quiet ({ w with trace := w.trace ++ [event] } : StoreWorld ι) entries where
  stores := h.stores
  fresh id hid := by
    rcases claimsSince_concat_other id w.trace hother with heq | heq
    · exact heq.trans (h.fresh id hid)
    · exact heq
  past e he := by
    rcases claimsSince_concat_other e.id w.trace hother with heq | heq
    · exact heq ▸ h.past e he
    · intro claim hclaim
      rw [heq] at hclaim
      cases hclaim
  exact := h.exact.concat_other hother _
  reported hquiet c now marks result hresult := by
    rcases List.mem_append.mp hresult with hold | hnew
    · exact h.reported hquiet c now marks result hold
    · exact hreported hquiet c now marks result (List.mem_singleton.mp hnew).symm

/-- A transaction that leaves the schedules of the profiles it keeps. -/
theorem step (h : ClaimsKept quiet w entries) {c : ι} {db : Database}
    (hstores : db.profiles.Stores entries') (hadvances : w.shared.profiles.Advances db.profiles)
    (hentries : ∀ e' ∈ entries', w.shared.profiles.sequence < e'.id.value.toNat ∨
      ∃ e ∈ entries, e.id = e'.id ∧ e.schedule = e'.schedule) :
    ClaimsKept quiet (w.afterStep c (db, [])) entries' := by
  have htrace : (w.afterStep c (db, [])).trace = w.trace := by simp
  refine ⟨hstores, fun id hid => ?_, fun e' he' => ?_, ⟨?_, ?_⟩, ?_⟩
  · rw [htrace]
    exact h.fresh id (Int.lt_of_le_of_lt hadvances.sequence hid)
  · rw [htrace]
    rcases hentries e' he' with hnew | ⟨e, he, hid, hschedule⟩
    · rw [h.fresh e'.id hnew]
      exact fun _ hclaim => nomatch hclaim
    · exact hid ▸ (h.past e he).congr hschedule
  · exact htrace ▸ h.exact.once
  · exact htrace ▸ h.exact.exact
  · unfold ClaimsReported
    exact htrace ▸ h.reported

/-- A transaction that edits the schedule of a profile. -/
theorem edit (h : ClaimsKept quiet w entries) {c : ι} {db : Database} {id : SyncProfileId}
    {g : StoredProfile → StoredProfile}
    (hstores : db.profiles.Stores (modifyEntry entries id g)) (hg : ∀ e, (g e).id = e.id)
    (hadvances : w.shared.profiles.Advances db.profiles) :
    ClaimsKept quiet (w.afterStep c (db, [.scheduleEdited id])) (modifyEntry entries id g) := by
  have hsnoc : ClaimsKept quiet
      ({ w with trace := w.trace ++ [.left c (.scheduleEdited id)] } : StoreWorld ι) entries :=
    h.snoc (by simp) (by simp)
  refine ⟨hstores, fun other hother => ?_, fun e' he' => ?_, ⟨hsnoc.exact.once, hsnoc.exact.exact⟩,
    hsnoc.reported⟩
  · exact hsnoc.fresh other (Int.lt_of_le_of_lt hadvances.sequence hother)
  · obtain ⟨e, he, rfl⟩ := mem_modifyEntry.mp he'
    by_cases hid : e.id = id
    · intro claim hclaim
      rw [if_pos hid, hg, World.afterStep_trace, List.map_singleton, claimsSince_concat,
        noteClaim, if_pos hid.symm] at hclaim
      cases hclaim
    · rw [if_neg hid]
      exact hsnoc.past e he

/-- A transaction that claims a run. -/
theorem claim (h : ClaimsKept quiet w entries) {c : ι} {db : Database}
    {existing : PersistedSyncProfile} {scheduledAt nextRun now : Int64} {env : Environment}
    {claim : ScheduleClaim} {e : StoredProfile} {schedule : ScheduleDefinition}
    (hclaims : Claims entries existing scheduledAt nextRun now env w.shared db claim e schedule)
    (hadvances : w.shared.profiles.Advances db.profiles) (hexact : claim.Exact)
    (hlt : scheduledAt < nextRun) :
    ClaimsKept quiet (w.afterStep c (db, [.claimed claim]))
      (modifyEntry entries existing.id fun e => e.moveTo nextRun) := by
  have hsince (id : SyncProfileId) : claimsSince id (w.afterStep c (db, [.claimed claim])).trace =
      if existing.id = id then claimsSince id w.trace ++ [claim] else claimsSince id w.trace := by
    rw [World.afterStep_trace, List.map_singleton, claimsSince_concat, noteClaim,
      hclaims.profileId]
  -- all earlier claims of the profile are of earlier times
  have hearlier : ∀ other ∈ claimsSince existing.id w.trace,
      other.claim.scheduledAtUnixSeconds < scheduledAt := by
    intro other hother
    obtain ⟨schedule', next, hschedule, hnext, hless⟩ :=
      h.past e hclaims.mem other (hclaims.id_eq ▸ hother)
    rw [hclaims.schedule_eq] at hschedule
    cases hschedule
    rw [hclaims.due] at hnext
    cases hnext
    exact hless
  refine ⟨hclaims.stores, fun id hid => ?_, fun e' he' => ?_, h.exact.concat (fun id => ?_) ?_ _,
    fun hquiet c' now' marks result hresult => ?_⟩
  · have hid : w.shared.profiles.sequence < id.value.toNat :=
      Int.lt_of_le_of_lt hadvances.sequence hid
    have hne : existing.id ≠ id := by
      rintro rfl
      have := h.stores.known e hclaims.mem
      rw [hclaims.id_eq] at this
      omega
    rw [hsince, if_neg hne]
    exact h.fresh id hid
  · obtain ⟨old, hold, rfl⟩ := mem_modifyEntry.mp he'
    by_cases hid : old.id = existing.id
    · obtain rfl := h.stores.entry_eq hold hclaims.mem (hid.trans hclaims.id_eq.symm)
      rw [if_pos hid]
      intro other hother
      rw [show (old.moveTo nextRun).id = old.id from rfl, hsince, if_pos hid.symm] at hother
      refine ⟨{ schedule with nextRunAtUnixSeconds := some nextRun }, nextRun, ?_, rfl, ?_⟩
      · simp [StoredProfile.moveTo, hclaims.schedule_eq]
      · rcases List.mem_append.mp hother with hother | hother
        · exact Int64.lt_trans (hearlier other (hid ▸ hother)) hlt
        · obtain rfl := List.mem_singleton.mp hother
          exact hclaims.scheduledAt_eq ▸ hlt
    · rw [if_neg hid, hsince, if_neg (Ne.symm hid)]
      exact h.past old hold
  · have honce := h.exact.once id w.trace (List.prefix_refl _)
    have hsince := hsince id
    rw [World.afterStep_trace, List.map_singleton] at hsince
    rw [hsince]
    split
    · rename_i hid
      subst hid
      rw [List.map_append, List.map_singleton]
      refine honce.append (List.nodup_singleton _) ?_
      intro time htime hnew
      obtain rfl := List.mem_singleton.mp hnew
      obtain ⟨other, hother, heq⟩ := List.mem_map.mp htime
      have := hearlier other hother
      rw [heq, hclaims.scheduledAt_eq] at this
      exact Int64.lt_irrefl this
    · exact honce
  · intro c' other heq
    cases heq
    exact hexact
  · rcases List.mem_append.mp hresult with hold | hnew
    · exact h.reported hquiet c' now' marks result hold
    · simp at hnew

end ClaimsKept

/-! ## Steps of a claim -/

section

variable {db db' : Database} {entries : List StoredProfile}

/-- **A claim is exact** when the profile was loaded before. -/
theorem Claims.exact {existing : PersistedSyncProfile} {scheduledAt nextRun now : Int64}
    {env : Environment} {claim : ScheduleClaim} {e loaded : StoredProfile}
    {current schedule : ScheduleDefinition}
    (h : Claims entries existing scheduledAt nextRun now env db db' claim e current)
    (hstores : db.profiles.Stores entries) (hloaded : existing = loaded.kept.persisted)
    (hvalid : loaded.Valid) (hedits : loaded.edits < 2 ^ 63)
    (hseen : loaded.row.Seen db.profiles) (hschedule : loaded.schedule = some schedule)
    (hnext : NextAfter (schedule.intervalMinutes.toNat * 60) scheduledAt.toInt now.toInt
      nextRun.toInt) : claim.Exact := by
  subst hloaded
  have hfrozen := RunSnapshot.fromProfileWithVolumeIdentities_eq_ok.mp h.snapshot
  have hcurrent : e.edits = loaded.edits :=
    h.current.trans (Nat.mod_eq_of_lt (by show loaded.edits < 2 ^ 64; omega))
  have hversion := hstores.version_eq hseen h.mem (SyncProfileId.toNat_inj.mpr h.id_eq)
    (congrArg Int.ofNat hcurrent)
  have hinterval : (schedule.intervalMinutes.toNat : Int) = current.intervalMinutes.toNat := by
    have hschedules := congrArg (fun row => row.schedule.map (·.intervalMinutes)) hversion
    simpa [ProfileRow.version, StoredProfile.row, hschedule, h.schedule_eq,
      ScheduleRow.ofSchedule] using hschedules
  refine ⟨?_, ⟨.ofSchedule current, nextRun, ?_, ?_, ?_, ?_, ?_⟩, ?_, ?_⟩
  · rw [h.before, h.profileId, StoredProfile.row_profileId, h.id_eq]
  · simp [h.before, StoredProfile.row, h.schedule_eq]
  · simp [ScheduleRow.ofSchedule, h.enabled, boolColumn]
  · simp [ScheduleRow.ofSchedule, h.due, h.scheduledAt_eq]
  · rw [h.after, h.before]
    simp [StoredProfile.row, StoredProfile.moveTo, h.schedule_eq, ScheduleRow.ofSchedule,
      isScheduleEnabled]
  · rw [h.scheduledAt_eq, h.now_eq]
    show NextAfter ((current.intervalMinutes.toNat : Int) * 60) _ _ _
    exact hinterval ▸ hnext
  · have hdecode : loaded.row.version.decode = e.row.version.decode := by rw [hversion]
    change loaded.row.decode = e.row.decode at hdecode
    rw [h.before, ← hdecode, StoredProfile.decode_row hvalid, hfrozen.profile_eq]
    rfl
  · have hauthorizations : loaded.row.version.authorizations = e.row.version.authorizations := by
      rw [hversion]
    change loaded.row.authorizations = e.row.authorizations at hauthorizations
    rw [h.before, ← hauthorizations, StoredProfile.row_authorizations, hfrozen.authorizations_eq]
    rfl

/-- A profile whose row loads is found. -/
theorem findExisting_of_loads (h : db.profiles.Stores entries) {moment : Moment}
    {id : SyncProfileId} {now : Int64} {row : ProfileRow} (hrefused : moment.refused = none)
    (hrow : row ∈ db.profiles.rows) (hid : row.profileId = id.value.toNat)
    (hloads : row.Loads moment.isDir now) :
    ∃ e ∈ entries, e.row = row ∧ findExisting moment id db = .ok e.kept.persisted := by
  obtain ⟨e, he, rfl⟩ := h.mem_row.mp hrow
  obtain rfl := SyncProfileId.toNat_inj.mp hid
  have hedits : (e.edits : Int) < 2 ^ 63 := hloads.revision
  have hdestination := hloads.destination _ (StoredProfile.decode_row (h.valid e he))
  refine ⟨e, he, rfl, ?_⟩
  unfold findExisting Moment.begin
  rw [hrefused, ok_bind, loadProfile_of_mem h he (by omega) hdestination]
  rfl

theorem RunTable.le_highestExisting (table : RunTable) :
    0 ≤ table.highestExisting ∧
      ∀ record ∈ table.records, record.runId ≤ table.highestExisting := by
  unfold RunTable.highestExisting
  induction table.records with
  | nil => simp
  | cons record records ih =>
      obtain ⟨hrecord, hhighest⟩ := le_larger record.runId
        (records.foldr (fun record highest => larger record.runId highest) 0)
      rw [List.foldr_cons]
      exact ⟨ih.1.trans hhighest,
        List.forall_mem_cons.mpr ⟨hrecord, fun other hother => (ih.2 other hother).trans hhighest⟩⟩

/-- With room for it, a run gets an identifier that no other run has. -/
theorem RunTable.HasRoom.allocate {table : RunTable} (h : table.HasRoom) :
    ∃ table' runId, table.allocateRunIdInTransaction = .ok (table', runId) ∧
      runId.value.toNat + 1 < 2 ^ 63 ∧ table'.records = table.records ∧
      ∀ record ∈ table.records, record.runId ≠ runId.value.toNat := by
  obtain ⟨hnonneg, hle⟩ := table.le_highestExisting
  have hroom := h.records
  obtain ⟨hfirst, hnext⟩ := le_larger table.nextRunId (table.highestExisting + 1)
  have hbound : larger table.nextRunId (table.highestExisting + 1) ≤ 2 ^ 63 - 2 :=
    larger_le (by have := h.sequence; omega) (by omega)
  unfold RunTable.allocateRunIdInTransaction
  dsimp only
  rw [checkedI64_eq_some.mpr ⟨rfl, by omega, by omega⟩, orError_some, ok_bind]
  generalize larger table.nextRunId (table.highestExisting + 1) = next at *
  have hvalue : tryUnsigned 64 next = some next.toNat := by
    rw [← Int.toNat_of_nonneg (a := next) (by omega)]
    exact tryUnsigned_ofNat (by omega)
  rw [checkedI64_eq_some.mpr ⟨rfl, by omega, by omega⟩, orError_some, ok_bind, hvalue, orError_some,
    ok_bind]
  have hnat : (UInt64.ofNat next.toNat).toNat = next.toNat := by
    rw [UInt64.toNat_ofNat']
    exact Nat.mod_eq_of_lt (by omega)
  refine ⟨_, _, rfl, ?_, rfl, fun record hrecord => ?_⟩
  · show (UInt64.ofNat next.toNat).toNat + 1 < 2 ^ 63
    omega
  · have := hle record hrecord
    rw [hnat]
    omega

/-- The snapshot of a profile whose run can be started. -/
theorem PersistedSyncProfile.Starts.freezes {existing : PersistedSyncProfile}
    {env : Environment} {runs : RunTable} (h : existing.Starts env runs) (runId : RunId)
    (hstorable : existing.profile.Storable)
    (hauthorizations :
      validateAuthorizations existing.profile existing.authorizations = .ok ()) :
    ∃ snapshot, RunSnapshot.Freezes env runId existing.profile existing.authorizations none none
      snapshot ∧ 0 ≤ snapshot.createdAtUnixSeconds := by
  obtain ⟨time, htime, hclock⟩ := h.clock
  have hpermanent := ensure_eq_ok.mp (ensure_bind_eq_ok.mp hauthorizations).2
  refine ⟨⟨runId, runId.value, time, existing.profile,
    { existing.profile.options with checked := hstorable.options }, existing.authorizations,
    none, none⟩, ?_, hclock⟩
  exact {
    run_eq := rfl
    snapshotId_eq := rfl
    created := htime
    profile_eq := rfl
    options_eq := rfl
    authorizations_eq := rfl
    peerA_eq := rfl
    peerB_eq := rfl
    checked := ProcessSpecification.checkProfile_eq_ok.mpr ⟨hstorable.checks, h.destination⟩
    method := h.method
    permanent := fun hallowed => ⟨(hpermanent hallowed).2, (hpermanent hallowed).1⟩ }

/-- A run with a new identifier begins. -/
theorem beginRun_of_new {table : RunTable} {env : Environment} {runId : RunId}
    {profile : SyncProfile} {authorizations : AuthorizationSnapshot}
    {peerA peerB : Option VolumeIdentity} {snapshot : RunSnapshot}
    (h : RunSnapshot.Freezes env runId profile authorizations peerA peerB snapshot)
    (hnew : ∀ record ∈ table.records, record.runId ≠ runId.value.toNat)
    (hroom : runId.value.toNat + 1 < 2 ^ 63) (hclock : 0 ≤ snapshot.createdAtUnixSeconds) :
    ∃ table', table.beginRunInTransaction snapshot = .ok table' := by
  have hfits : FitsI64 runId.value := Nat.lt_of_succ_lt hroom
  have hchecked := snapshot.validatedOptions.checked
  have hmillis := asMillis_le hchecked
  have hlimit := (SyncOptions.check_bounds hchecked).2
  have hbounds : snapshot.validatedOptions.bandwidthLimitKibPerSecond.all
      (fun limit => 1 ≤ limit ∧ limit ≤ 4000000) = true := by
    cases hb : snapshot.validatedOptions.bandwidthLimitKibPerSecond with
    | none => rfl
    | some limit => simpa using hlimit limit hb
  have hrunId : bindU64 runId.value = .ok () := bindU64_eq_ok.mpr hfits
  have hdelay : bindU64 (.ofNat snapshot.validatedOptions.retryPolicy.initialDelay.asMillis) =
      .ok () := by
    rw [bindU64_eq_ok, FitsI64, UInt64.toNat_ofNat']
    exact Nat.lt_of_le_of_lt (Nat.mod_le _ _) (by omega)
  have hbandwidth : bindOptU64 snapshot.validatedOptions.bandwidthLimitKibPerSecond = .ok () := by
    refine bindOptU64_eq_ok.mpr fun limit hmem => ?_
    have hle := UInt64.le_iff_toNat_le.mp (hlimit limit hmem).2
    exact Nat.lt_of_le_of_lt hle (by decide)
  have hclock : 0 ≤ snapshot.createdAtUnixSeconds.toInt := Int64.le_iff_toInt_le.mp hclock
  have hrow : ∃ row, SnapshotRow.ofSnapshot snapshot = .ok row := by
    unfold SnapshotRow.ofSnapshot
    dsimp only
    rw [h.run_eq, hrunId, ok_bind, h.snapshotId_eq, hrunId, ok_bind, hdelay, ok_bind, hbandwidth, ok_bind,
      ensure_of hclock, ok_bind, ensure_of hbounds, ok_bind]
    exact ⟨_, rfl⟩
  obtain ⟨row, hrow⟩ := hrow
  have hrowId := SnapshotRow.ofSnapshot_runId hrow
  rw [h.run_eq] at hrowId
  unfold RunTable.beginRunInTransaction
  rw [hrow, ok_bind, ensure_of (fun record hrecord => hrowId ▸ hnew record hrecord), ok_bind,
    h.run_eq, checkedI64_eq_some.mpr ⟨rfl, by omega, by omega⟩]
  exact ⟨_, rfl⟩

/-- A claim of a profile whose run can be started goes through. -/
theorem claimTransaction_of_starts {moment : Moment} {existing : PersistedSyncProfile}
    {row : ProfileRow} (scheduledAt nextRun now : Int64) (h : db.profiles.Stores entries)
    (hstorable : existing.profile.Storable)
    (hauthorizations : validateAuthorizations existing.profile existing.authorizations = .ok ())
    (hrefused : moment.refused = none) (hrow : row ∈ db.profiles.rows)
    (hid : row.profileId = existing.id.value.toNat) (hrevision : row.profileRevision < 2 ^ 63)
    (hstarts : row.profileRevision = existing.revision.toNat →
      existing.Starts moment.toEnvironment db.runs) :
    ∃ result, (moment.begin >>= fun _ => claimTransaction existing scheduledAt nextRun now
      moment.toEnvironment db) = .ok result := by
  obtain ⟨e, he, rfl⟩ := h.mem_row.mp hrow
  have hid := SyncProfileId.toNat_inj.mp hid
  have hkey : existing.id.valueAsI64 = .ok (e.id.value.toNat : Int) :=
    SyncProfileId.valueAsI64_eq_ok.mpr ⟨hid ▸ (h.valid e he).id, by rw [hid]⟩
  have hedits : (e.edits : Int) < 2 ^ 63 := hrevision
  have hread : e.row.readRevision 0 = .ok () := ensure_eq_ok.mpr (by simp; omega)
  have hnumber : tryUnsigned 64 e.row.profileRevision = some e.edits :=
    tryUnsigned_ofNat (by omega)
  unfold claimTransaction Moment.begin
  rw [hrefused, ok_bind, hkey, ok_bind, h.find?_of_mem he, orError_some, ok_bind, hread, ok_bind,
    hnumber]
  by_cases hcurrent : e.edits = existing.revision.toNat
  · rw [if_neg (by simpa using hcurrent)]
    have hstarts := hstarts (by simp [hcurrent])
    obtain ⟨runs, runId, hallocate, hnext, hrecords, hnew⟩ := hstarts.room.allocate
    obtain ⟨snapshot, hfreezes, hclock⟩ := hstarts.freezes runId hstorable hauthorizations
    rw [hallocate, ok_bind]
    dsimp only
    rw [RunSnapshot.fromProfile, RunSnapshot.fromProfileWithVolumeIdentities_eq_ok.mpr hfreezes,
      ok_bind]
    cases e.row.claimed scheduledAt nextRun with
    | none => exact ⟨_, rfl⟩
    | some after =>
        obtain ⟨runs', hbegin⟩ := beginRun_of_new hfreezes (hrecords ▸ hnew) hnext hclock
        dsimp only
        rw [hbegin]
        exact ⟨_, rfl⟩
  · rw [if_pos (by simpa using hcurrent)]
    exact ⟨_, rfl⟩

end

/-! ## The outlines -/

def claimDiscipline (quiet : Prop) (ι : Type) : StoreDiscipline ι where
  inv w := ∃ entries, ClaimsKept quiet w entries
  rely _ w w' := w.shared.profiles.Advances w'.shared.profiles
  admits request marks label moment w := quiet → StepPasses request marks label moment w.shared
  guar _ w w' := w.shared.profiles.Advances w'.shared.profiles
  guar_refl := StoreWorld.advances_refl
  rely_refl := StoreWorld.advances_refl
  rely_trans := @StoreWorld.advances_trans ι

section

variable {quiet : Prop} {currentDir : Option PathBuf} {c : ι} {request : Request}
  {w : StoreWorld ι} {marks : List Commit}

theorem claims_create {profile : SyncProfile} {authorizations : AuthorizationSnapshot} :
    Outline (claimDiscipline quiet ι) c request (fun _ _ _ => True)
      (createProfileWithAuthorizations currentDir profile authorizations) marks w := by
  refine Outline.create fun w₁ w₂ w₃ _ key db new _ _ _ _ hinv₃ _ hstorable hauthorizations _
    hrun => ?_
  obtain ⟨entries, hkept⟩ := hinv₃
  obtain ⟨id, hkey, hnew, hstores, hadvances, -, rfl⟩ :=
    createTransaction_eq_ok hkept.stores hstorable hauthorizations hrun
  refine ⟨⟨_, hkept.step hstores hadvances fun e he => ?_⟩, hadvances⟩
  rcases List.mem_append.mp he with hold | hlast
  · exact .inr ⟨e, hold, rfl, rfl⟩
  · obtain rfl := List.mem_singleton.mp hlast
    exact .inl (hkey ▸ hnew)

theorem claims_update {id : SyncProfileId} {profile : SyncProfile}
    {authorizations : AuthorizationSnapshot} {expected : UInt64} :
    Outline (claimDiscipline quiet ι) c request (fun _ _ _ => True)
      (updateProfileWithAuthorizationsIfRevision currentDir id profile authorizations expected)
      marks w := by
  refine Outline.updateIfRevision fun w₁ w₂ w₃ w₄ _ _ existing db new _ _ _ _ _ _ hinv₄ _
    hstorable _ _ _ hauthorizations hrun => ?_
  obtain ⟨entries, hkept⟩ := hinv₄
  obtain ⟨-, hstores, hadvances, -, rfl⟩ :=
    updateTransaction_eq_ok hkept.stores hstorable hauthorizations hrun
  refine ⟨⟨_, hkept.step hstores hadvances fun e he => .inr ?_⟩, hadvances⟩
  obtain ⟨old, hold, rfl⟩ := mem_modifyEntry.mp he
  refine ⟨old, hold, ?_⟩
  split <;> exact ⟨rfl, rfl⟩

theorem claims_remove {id : SyncProfileId} :
    Outline (claimDiscipline quiet ι) c request (fun _ _ _ => True) (removeProfile id) marks w := by
  refine Outline.remove fun w₁ _ _ db new _ hinv _ hrun => ?_
  obtain ⟨entries, hkept⟩ := hinv
  obtain ⟨hstores, hadvances, -, rfl⟩ := removeTransaction_eq_ok hkept.stores hrun
  exact ⟨⟨_, hkept.step hstores hadvances fun e he =>
    .inr ⟨e, List.mem_of_mem_filter he, rfl, rfl⟩⟩, hadvances⟩

theorem claims_replace {profiles : List ImportedProfile} :
    Outline (claimDiscipline quiet ι) c request (fun _ _ _ => True)
      (replaceConfiguration currentDir profiles) marks w := by
  refine Outline.replace fun w₁ w₂ _ db new _ _ hinv _ ⟨isDir, hvalidate⟩ hrun => ?_
  obtain ⟨entries, hkept⟩ := hinv
  obtain ⟨hstores, hnew, hadvances, -, rfl⟩ :=
    replaceTransaction_eq_ok hkept.stores (validateImport_eq_ok hvalidate).1 hrun
  exact ⟨⟨_, hkept.step hstores hadvances fun e he => .inl (hnew e he)⟩, hadvances⟩

theorem claims_updateSchedule {id : SyncProfileId} {schedule : Option ScheduleDefinition}
    {mode : ApplicationMode} {now : Int64} :
    Outline (claimDiscipline quiet ι) c request (fun _ _ _ => True)
      (updateScheduleAt id schedule mode now) marks w := by
  refine Outline.updateSchedule fun w₁ w₂ _ _ accepted existing revision db new _ _ _ _ hinv _ _
    hcheck hrevision hrun => ?_
  obtain ⟨entries, hkept⟩ := hinv
  obtain ⟨-, hstores, hadvances, -, rfl⟩ :=
    scheduleTransaction_eq_ok hkept.stores (checkSchedule_valid hcheck) hrevision hrun
  exact ⟨⟨_, hkept.edit hstores (fun _ => rfl) hadvances⟩, hadvances⟩

/-- How a claim ends: it adds its mark, or none. When it fails, a poll of a
quiet world has not claimed anything before. -/
def ClaimEnds (quiet : Prop) (request : Request) (marks : List Commit) (now : Int64) :
    Except StorageError (Option ClaimedScheduledRun) → List Commit → Prop
  | .ok none, marks' => marks' = marks
  | .ok (some claimed), marks' => 0 ≤ now ∧ ∃ claim, claim.claim = claimed ∧
      marks' = marks ++ [.claimed claim]
  | .error _, marks' => marks' = marks ∧
      (quiet → request = .pollDue now → ∀ claim, .claimed claim ∉ marks)

theorem claims_claim {id : SyncProfileId} {now : Int64}
    (hnow : ∀ claim, .claimed claim ∈ marks → 0 ≤ now) :
    Outline (claimDiscipline quiet ι) c request
      (fun r marks' _ => ClaimEnds quiet request marks now r marks')
      (claimDueSchedule id now) marks w := by
  refine Outline.claim (fun _ => rfl) (fun hneg e => ?_) (fun w₁ moment e _ hinv hadmits he => ?_)
    (fun w₁ existing schedule scheduledAt e hfound he => ?_)
    fun w₁ w₂ moment existing schedule scheduledAt nextRun hfound hnext hrely₂ hinv₂ hadmits =>
      ⟨fun e he => ?_, fun claimed db new hrun => ?_⟩
  · exact ⟨rfl, fun _ _ claim hclaim => hneg (hnow claim hclaim)⟩
  · -- a poll that has claimed finds its next profile
    refine ⟨rfl, fun hquiet hrequest claim hclaim => ?_⟩
    subst hrequest
    obtain ⟨entries, hkept⟩ := hinv
    obtain ⟨hrefused, row, hrow, hid, hloads⟩ := hadmits hquiet ⟨claim, hclaim⟩
    obtain ⟨e', -, -, hfind⟩ := findExisting_of_loads hkept.stores hrefused hrow hid hloads
    rw [hfind] at he
    cases he
  · -- and a next run for it
    refine ⟨rfl, fun hquiet hrequest claim hclaim => ?_⟩
    subst hrequest
    obtain ⟨entries, hkept⟩ := hfound.inv
    obtain ⟨moment, hadmits, hfind⟩ := hfound.found
    obtain ⟨hrefused, row, hrow, hid, hloads⟩ := hadmits hquiet ⟨claim, hclaim⟩
    obtain ⟨e', he', rfl, hfind'⟩ := findExisting_of_loads hkept.stores hrefused hrow hid hloads
    rw [hfind'] at hfind
    cases hfind
    have hschedule : e'.schedule = some schedule := hfound.schedule_eq
    have hvalid := (hkept.stores.valid e' he').schedule schedule hschedule
    have hnonneg : 0 ≤ scheduledAt.toInt :=
      Int64.le_iff_toInt_le.mp (hvalid.nextRun scheduledAt hfound.scheduled)
    have hdue := hfound.due
    rw [Int64.lt_iff_toInt_lt] at hdue
    obtain ⟨next, hnext⟩ := hloads.next (.ofSchedule schedule) scheduledAt.toInt
      (by simp [StoredProfile.row, hschedule])
      (by simp [ScheduleRow.ofSchedule, hfound.enabled, boolColumn])
      (by simp [ScheduleRow.ofSchedule, hfound.scheduled]) (by omega)
    rw [(nextOccurrence_eq_ok hvalid.seconds_pos hnonneg (by omega)).mpr hnext] at he
    cases he
  · -- and its run can be started
    refine ⟨rfl, fun hquiet hrequest claim hclaim => ?_⟩
    subst hrequest
    obtain ⟨entries, hkept⟩ := hfound.inv
    obtain ⟨entries₂, hkept₂⟩ := hinv₂
    obtain ⟨moment₁, -, hfind⟩ := hfound.found
    obtain ⟨e', he', -, -, -, rfl⟩ := findExisting_eq_ok hkept.stores hfind
    obtain ⟨hrefused, row, hrow, hid, hrevision, hstarts⟩ := hadmits hquiet ⟨claim, hclaim⟩
    have hvalid := hkept.stores.valid e' he'
    obtain ⟨result, hresult⟩ := claimTransaction_of_starts scheduledAt nextRun
      now hkept₂.stores hvalid.profile.stored hvalid.authorizations
      hrefused hrow hid hrevision hstarts
    rw [hresult] at he
    cases he
  · obtain ⟨entries, hkept⟩ := hfound.inv
    obtain ⟨entries₂, hkept₂⟩ := hinv₂
    obtain ⟨_, -, hfind⟩ := hfound.found
    obtain ⟨e, he, hid, hedits, -, rfl⟩ := findExisting_eq_ok hkept.stores hfind
    have hvalid := hkept.stores.valid e he
    obtain ⟨hafter, hnonneg⟩ := (hvalid.schedule schedule hfound.schedule_eq).nextOccurrence
      hfound.scheduled hfound.due hnext
    obtain ⟨hadvances, ⟨rfl, rfl, hprofiles, -⟩ |
        ⟨claim, e₂, schedule₂, rfl, rfl, hclaims⟩⟩ :=
      claimTransaction_eq_ok hkept₂.stores hnonneg hrun
    · refine ⟨⟨entries₂, hkept₂.step (hprofiles ▸ hkept₂.stores) hadvances fun e he =>
        .inr ⟨e, he, rfl, rfl⟩⟩, hadvances, ?_⟩
      exact List.append_nil _
    · have hexact := hclaims.exact hkept₂.stores rfl hvalid hedits
        ((hkept.stores.seen he).advances hrely₂) hfound.schedule_eq hafter
      have hdue := hfound.due
      have hlt := hafter.after
      have hpositive := Int64.le_iff_toInt_le.mp
        ((hvalid.schedule schedule hfound.schedule_eq).nextRun scheduledAt hfound.scheduled)
      rw [Int64.lt_iff_toInt_lt] at hdue
      exact ⟨⟨_, hkept₂.claim hclaims hadvances hexact
        (Int64.lt_iff_toInt_lt.mpr (by omega))⟩, hadvances,
        Int64.le_iff_toInt_le.mpr (by omega), claim, rfl, rfl⟩

theorem claims_poll {now : Int64} {runs : List ScheduledRun}
    {profiles : List PersistedSyncProfile}
    (hruns : ∀ claim, .claimed claim ∈ marks →
      0 ≤ now ∧ ScheduledRun.fromClaim claim.claim ∈ runs) :
    Outline (claimDiscipline quiet ι) c request
      (fun r marks' _ => quiet → request = .pollDue now → ∀ claim, .claimed claim ∈ marks' →
        ∃ runs', r = .ok runs' ∧ ScheduledRun.fromClaim claim.claim ∈ runs')
      (pollProfiles now runs profiles) marks w := by
  induction profiles generalizing runs marks w with
  | nil => exact fun _ _ claim hclaim => ⟨runs, rfl, (hruns claim hclaim).2⟩
  | cons profile rest ih =>
      unfold pollProfiles
      refine Outline.bind ((claims_claim fun claim hclaim => (hruns claim hclaim).1).mono
        fun r marks' w' hends => ?_)
      rcases r with e | _ | claimed
      · obtain ⟨rfl, hnone⟩ := hends
        exact fun hquiet hpoll claim hclaim => absurd hclaim (hnone hquiet hpoll claim)
      · obtain rfl : marks' = marks := hends
        exact ih hruns
      · obtain ⟨hnow, claim, rfl, rfl⟩ := hends
        refine ih fun other hother => ?_
        rcases List.mem_append.mp hother with hold | hnew
        · exact ⟨hnow, List.mem_append_left _ (hruns other hold).2⟩
        · cases List.mem_singleton.mp hnew
          exact ⟨hnow, by simp⟩

/-- What a request has to end in. -/
def RequestEnds (quiet : Prop) (request : Request) (result : Except StorageError Answer)
    (marks : List Commit) : Prop :=
  quiet → ∀ now, request = .pollDue now → Reported marks result

/-- Every call keeps the discipline. -/
theorem claims_kept : (claimDiscipline quiet ι).KeptByCalls currentDir c request where
  create _ _ _ := claims_create
  update _ _ _ _ _ := claims_update
  replace _ _ := claims_replace
  schedule _ _ _ _ _ := claims_updateSchedule
  remove _ _ := claims_remove
  claim _ _ _ := (claims_claim (by simp)).mono fun _ _ _ _ => trivial
  poll _ _ _ := (claims_poll (by simp)).mono fun _ _ _ _ => trivial

/-- And a poll ends in what it has claimed. -/
theorem claims_body : Outline (claimDiscipline quiet ι) c request
    (fun r marks _ => RequestEnds quiet request r marks) (request.body currentDir) [] w := by
  cases request with
  | pollDue now =>
      refine Outline.bind (Outline.read_bind (fun w' _ _ _ _ profiles _ => ?_) fun e w' => ?_)
      · refine (claims_poll (by simp)).mono fun r marks' w'' hends => ?_
        rcases r with e | runs
        · intro hquiet _ _ claim hclaim
          obtain ⟨_, heq, -⟩ := hends hquiet rfl claim hclaim
          cases heq
        · intro hquiet _ _ claim hclaim
          obtain ⟨_, heq, hmem⟩ := hends hquiet rfl claim hclaim
          cases heq
          exact ⟨runs, rfl, hmem⟩
      · exact fun _ _ _ claim hclaim => by simp at hclaim
  | _ => exact (claims_kept.body _).mono fun _ _ _ _ _ now heq => nomatch heq

end

/-! ## Every run -/

theorem claimDiscipline_kept [DecidableEq ι] (quiet : Prop) {currentDir : Option PathBuf}
    {allowed : StoreSystem ι → ι → Moment → Prop}
    (hquiet : quiet → ∀ s c moment, allowed s c moment → PollsUndisturbed s c moment) :
    (claimDiscipline quiet ι).Kept (Request.body currentDir) allowed (RequestEnds quiet) where
  call c request w hinv := by
    obtain ⟨entries, hkept⟩ := hinv
    exact ⟨⟨entries, hkept.snoc (by simp) (by simp)⟩, claims_body⟩
  finish c request marks r w hinv hends := by
    obtain ⟨entries, hkept⟩ := hinv
    refine ⟨entries, hkept.snoc (by simp) fun hq c' now marks' result heq => ?_⟩
    cases heq
    exact hends hq now rfl
  rely_call _ _ _ _ := ProfileTable.advances_refl _
  rely_finish _ _ _ _ _ _ := ProfileTable.advances_refl _
  admits s c moment _ _ _ _ _ hallowed hrunning hq :=
    hquiet hq s c moment hallowed _ _ _ _ _ hrunning
  rely_step _ _ _ _ _ _ _ _ _ _ _ _ _ _ _ _ _ _ hguar := hguar

theorem claimsKept_empty {quiet : Prop} :
    ClaimsKept quiet (⟨Database.empty, []⟩ : StoreWorld ι) [] where
  stores := stores_empty
  fresh _ _ := rfl
  past := by simp
  exact := ⟨fun id trace h => by rw [List.prefix_nil.mp h]; exact List.nodup_nil, by simp⟩
  reported _ := by simp [ClaimsReported]

/-- **Claims are exact**, whatever the connections do. -/
theorem schedule_claims_exact [DecidableEq ι] {currentDir : Option PathBuf} {s : StoreSystem ι}
    (h : Reached (Request.body currentDir) (fun _ _ _ => True) Database.empty s) :
    ClaimsExact s.world := by
  obtain ⟨⟨entries, hkept⟩, -⟩ := Reached.outline
    (claimDiscipline_kept False False.elim) ⟨[], claimsKept_empty⟩ h
  exact hkept.exact

/-- **No claim is lost** that a poll commits without being disturbed after its
first one, and all claims are exact. -/
theorem schedule_claims_kept [DecidableEq ι] {currentDir : Option PathBuf} {s : StoreSystem ι}
    (h : Reached (Request.body currentDir) PollsUndisturbed Database.empty s) :
    ClaimsExact s.world ∧ ClaimsReported s.world := by
  obtain ⟨⟨entries, hkept⟩, -⟩ := Reached.outline
    (claimDiscipline_kept True fun _ _ _ _ hallowed => hallowed)
    ⟨[], claimsKept_empty⟩ h
  exact ⟨hkept.exact, hkept.reported trivial⟩

/-! ### Polls of two profiles -/

def plannedProfile (name : String) (safeDelete : Bool) : SyncProfile :=
  let profile := SyncProfile.new name ⟨"Laptop", .local (.ofText ("/" ++ name))⟩
    ⟨"Server", .local (.ofText "/backup")⟩
  { profile with options := { SyncOptions.default with safeDelete } }

def everyMinute : ScheduleDefinition where
  intervalMinutes := 1
  timezone := "UTC"
  enabled := true
  nextRunAtUnixSeconds := some 60

/-- Create a profile and schedule it. -/
def plan (id : SyncProfileId) (name : String) : List Request :=
  [.createProfile (plannedProfile name false),
    .updateScheduleAt id (some everyMinute) .advanced 0]

/-- Plan two profiles, and edit the second to a Safe Delete of no method. -/
def planTwo : List Request :=
  plan ⟨1⟩ "Documents" ++ plan ⟨2⟩ "Pictures" ++
    [.updateProfile ⟨2⟩ (plannedProfile "Pictures" true)]

/-- The database after requests that are answered one after another. -/
def answerAll (requests : List Request) (db : Database) : Database :=
  requests.foldl
    (fun db request => ((request.body none).run plainMachine.admitted db).2.1) db

theorem reached_answerAll {allowed : StoreSystem Unit → Unit → Moment → Prop}
    (requests : List Request) {s : StoreSystem Unit}
    (h : Reached (Request.body none) allowed Database.empty s)
    (hidle : s.running = fun _ => none)
    (hallowed : ∀ request ∈ requests, ∀ s' a, s'.running () = some a → a.call = request →
      allowed s' () plainMachine.admitted) :
    ∃ s', Reached (Request.body none) allowed Database.empty s' ∧
      s'.running = (fun _ => none) ∧ s'.world.shared = answerAll requests s.world.shared := by
  induction requests generalizing s with
  | nil => exact ⟨s, h, hidle, rfl⟩
  | cons request rest ih =>
      obtain ⟨hfirst, hrest⟩ := List.forall_mem_cons.mp hallowed
      obtain ⟨s₁, hs₁, hidle₁, hworld₁⟩ := Reached.alone () request plainMachine.admitted h
        (by rw [hidle]) hfirst
      obtain ⟨s₂, hs₂, hidle₂, hshared₂⟩ := ih hs₁ (hidle₁.trans hidle) hrest
      refine ⟨s₂, hs₂, hidle₂, ?_⟩
      rw [hshared₂, hworld₁]
      rfl

/-- How a poll at the time goes that follows the requests. -/
def pollAfter (requests : List Request) :
    Except StorageError Answer × Database × List Commit :=
  ((Request.pollDue 200).body none).run plainMachine.admitted (answerAll requests .empty)

/-- A poll of one profile that is due claims it and returns the claim. -/
theorem schedule_claims_kept_one :
    ∃ s : StoreSystem Unit, s.world.shared.runs.records.length = 1 ∧
      ClaimsExact s.world ∧ ClaimsReported s.world := by
  obtain ⟨s₁, hs₁, hidle₁, hshared₁⟩ := reached_answerAll (plan ⟨1⟩ "Documents")
    (.start : Reached (Request.body none) PollsUndisturbed Database.empty _) rfl (by
      intro request hrequest s' a ha hcall request' label act next marks hrunning
      rw [ha] at hrunning
      cases hrunning
      subst hcall
      unfold plan at hrequest
      simp only [List.mem_cons, List.not_mem_nil, or_false] at hrequest
      rcases hrequest with heq | heq <;> cases heq <;> trivial)
  -- no step of the poll comes after its claim
  have hpasses : ((Request.pollDue 200).body none).passes plainMachine.admitted
      (fun _ marks => marks = []) [] (answerAll (plan ⟨1⟩ "Documents") .empty) = true := by
    decide +kernel
  have hcalled := Reached.call () (.pollDue 200) hs₁ (by rw [hidle₁])
  have hwaits : Function.update s₁.running () (some
      ⟨.pollDue 200, (Request.pollDue 200).body none, []⟩) () =
        some ⟨.pollDue 200, (Request.pollDue 200).body none, []⟩ := by simp
  obtain ⟨s₂, hs₂, -, hworld₂⟩ := hcalled.finishPassing (c := ()) plainMachine.admitted
    (fun _ marks => marks = []) hwaits
    (by rw [World.afterCall_shared, hshared₁]; exact hpasses)
    (by
      intro s' label act next marks _ hrunning hmarks request' label' act' next' marks' hrunning'
      rw [hrunning] at hrunning'
      cases hrunning'
      obtain rfl := of_decide_eq_true hmarks
      unfold StepPasses
      split
      · simp
      · simp
      · trivial)
  have hshared₂ : s₂.world.shared = (pollAfter (plan ⟨1⟩ "Documents")).2.1 := by
    rw [hworld₂, World.afterCall_shared, hshared₁]
    rfl
  refine ⟨s₂, ?_, schedule_claims_kept hs₂⟩
  rw [hshared₂]
  decide +kernel

/-- When the second profile fails, the poll fails and its first claim is lost. -/
theorem schedule_claims_lost :
    ¬ ∀ (currentDir : Option PathBuf) (s : StoreSystem Unit),
      Reached (Request.body currentDir) (fun _ _ _ => True) Database.empty s →
        ClaimsExact s.world ∧ ClaimsReported s.world := by
  intro h
  obtain ⟨s₁, hs₁, hidle₁, hshared₁⟩ := reached_answerAll planTwo
    (.start : Reached (Request.body none) (fun _ _ _ => True) Database.empty _) rfl
    (fun _ _ _ _ _ _ => trivial)
  obtain ⟨s₂, hs₂, -, hworld₂⟩ := Reached.alone () (.pollDue 200) plainMachine.admitted hs₁
    (by rw [hidle₁]) (fun _ _ _ _ => trivial)
  rw [hshared₁] at hworld₂
  have hreported : Reported (pollAfter planTwo).2.2 (pollAfter planTwo).1 :=
    (h none s₂ hs₂).2 () 200 _ _ (by rw [hworld₂]; simp [pollAfter])
  have hclaimed : (pollAfter planTwo).2.2.any (fun mark => mark matches .claimed _) = true := by
    decide +kernel
  have hfailed : (pollAfter planTwo).1.isOk = false := by decide +kernel
  obtain ⟨mark, hmark, hmatches⟩ := List.any_eq_true.mp hclaimed
  cases mark with
  | scheduleEdited id => cases hmatches
  | claimed claim =>
      obtain ⟨runs, heq, -⟩ := hreported claim hmark
      rw [heq] at hfailed
      cases hfailed

end SyncPlus
