import SyncPlus.ProfileCalls
import SyncPlus.StoredProfiles

/-!
# What transactions do to the table

The table stores a list of profiles (`ProfileTable.Stores`), and each
transaction that succeeds takes it to a table that stores another list.

Across transactions the table advances (`ProfileTable.Advances`): a row
keeps its identifier, its revision never falls, and while the revision
stays only the next run of its schedule moves. So a row that was read
once is either what the table still holds under that revision, or it is
out of date (`ProfileRow.Seen`).
-/

namespace SyncPlus

/-! ## Advancing -/

/-- A row without what a claim changes. -/
def ProfileRow.version (row : ProfileRow) : ProfileRow :=
  { row with
    schedule := row.schedule.map fun schedule =>
      { schedule with nextRunAtUnixSeconds := none } }

/-- Another row of the same identifier, at the same time or later. -/
def ProfileRow.Later (row row' : ProfileRow) : Prop :=
  row.profileRevision < row'.profileRevision ∨ row.version = row'.version

theorem ProfileRow.later_refl (row : ProfileRow) : row.Later row := .inr rfl

theorem ProfileRow.version_profileRevision {row row' : ProfileRow}
    (h : row.version = row'.version) : row.profileRevision = row'.profileRevision :=
  congrArg (fun r => r.profileRevision) h

theorem ProfileRow.Later.trans {row₁ row₂ row₃ : ProfileRow} (h : row₁.Later row₂)
    (h' : row₂.Later row₃) : row₁.Later row₃ := by
  rcases h with h | h <;> rcases h' with h' | h'
  · exact .inl (h.trans h')
  · exact .inl (ProfileRow.version_profileRevision h' ▸ h)
  · exact .inl (ProfileRow.version_profileRevision h ▸ h')
  · exact .inr (h.trans h')

namespace ProfileTable

structure Advances (table table' : ProfileTable) : Prop where
  sequence : table.sequence ≤ table'.sequence
  rows : ∀ row' ∈ table'.rows, table.sequence < row'.profileId ∨
    ∃ row ∈ table.rows, row.profileId = row'.profileId ∧ row.Later row'

theorem advances_refl (table : ProfileTable) : table.Advances table :=
  ⟨Int.le_refl _, fun row hrow => .inr ⟨row, hrow, rfl, row.later_refl⟩⟩

theorem Advances.trans {t₁ t₂ t₃ : ProfileTable} (h : t₁.Advances t₂)
    (h' : t₂.Advances t₃) : t₁.Advances t₃ := by
  refine ⟨h.sequence.trans h'.sequence, fun row₃ hrow₃ => ?_⟩
  rcases h'.rows row₃ hrow₃ with hnew | ⟨row₂, hrow₂, hid₂, hlater₂⟩
  · exact .inl (Int.lt_of_le_of_lt h.sequence hnew)
  · rcases h.rows row₂ hrow₂ with hnew | ⟨row₁, hrow₁, hid₁, hlater₁⟩
    · exact .inl (hid₂ ▸ hnew)
    · exact .inr ⟨row₁, hrow₁, hid₁.trans hid₂, hlater₁.trans hlater₂⟩

theorem advances_modifyRow {table : ProfileTable} {id : Int} {f : ProfileRow → ProfileRow}
    (hf : ∀ row ∈ table.rows, row.profileId = id →
      (f row).profileId = id ∧ row.Later (f row)) :
    table.Advances (table.modifyRow id f) := by
  refine ⟨Int.le_refl _, fun row' hrow' => .inr ?_⟩
  obtain ⟨row, hrow, rfl⟩ := List.mem_map.mp hrow'
  refine ⟨row, hrow, ?_⟩
  split
  · rename_i hid
    obtain ⟨hid', hlater⟩ := hf row hrow hid
    exact ⟨hid.trans hid'.symm, hlater⟩
  · exact ⟨rfl, row.later_refl⟩

theorem advances_of_subset {table : ProfileTable} {rows : List ProfileRow}
    (h : rows ⊆ table.rows) : table.Advances { table with rows } :=
  ⟨Int.le_refl _, fun row hrow => .inr ⟨row, h hrow, rfl, row.later_refl⟩⟩

theorem advances_append {table : ProfileTable} {row : ProfileRow}
    (h : table.sequence < row.profileId) :
    table.Advances ⟨row.profileId, table.rows ++ [row]⟩ := by
  refine ⟨h.le, fun row' hrow' => ?_⟩
  rcases List.mem_append.mp hrow' with hold | hnew
  · exact .inr ⟨row', hold, rfl, row'.later_refl⟩
  · obtain rfl := List.mem_singleton.mp hnew
    exact .inl h

end ProfileTable

/-- What is known of a row that was read from the table once. -/
structure ProfileRow.Seen (row : ProfileRow) (table : ProfileTable) : Prop where
  known : row.profileId ≤ table.sequence
  later : ∀ row' ∈ table.rows, row'.profileId = row.profileId → row.Later row'

theorem ProfileRow.Seen.advances {row : ProfileRow} {table table' : ProfileTable}
    (h : row.Seen table) (hadvances : table.Advances table') : row.Seen table' := by
  refine ⟨h.known.trans hadvances.sequence, fun row₂ hrow₂ hid => ?_⟩
  rcases hadvances.rows row₂ hrow₂ with hnew | ⟨row₁, hrow₁, hid₁, hlater⟩
  · have := h.known
    omega
  · exact (h.later row₁ hrow₁ (hid₁.trans hid)).trans hlater

/-! ## Storing -/

structure ProfileTable.Stores (table : ProfileTable) (entries : List StoredProfile) :
    Prop where
  rows_eq : table.rows = entries.map StoredProfile.row
  valid : ∀ e ∈ entries, e.Valid
  nodup : (entries.map (·.id)).Nodup
  known : ∀ e ∈ entries, (e.id.value.toNat : Int) ≤ table.sequence
  sequence : 0 ≤ table.sequence

/-- Rewrite the record of an identifier. -/
def modifyEntry (entries : List StoredProfile) (id : SyncProfileId)
    (g : StoredProfile → StoredProfile) : List StoredProfile :=
  entries.map fun e => if e.id = id then g e else e

theorem SyncProfileId.toNat_inj {id id' : SyncProfileId} :
    (id.value.toNat : Int) = id'.value.toNat ↔ id = id' := by
  rw [Int.ofNat_inj, UInt64.toNat_inj]
  constructor
  · intro h
    cases id
    cases id'
    cases h
    rfl
  · intro h
    rw [h]

theorem SyncProfileId.toNat_eq {id id' : SyncProfileId} :
    id.value.toNat = id'.value.toNat ↔ id = id' :=
  Int.ofNat_inj.symm.trans toNat_inj

theorem SyncProfileId.valueAsI64_eq_ok {id : SyncProfileId} {key : Int} :
    id.valueAsI64 = .ok key ↔ FitsI64 id.value ∧ key = id.value.toNat := by
  unfold valueAsI64
  rw [ensure_bind_eq_ok]
  simp [pure, Except.pure, eq_comm]

theorem modifyEntry_id {entries : List StoredProfile} {id : SyncProfileId}
    {g : StoredProfile → StoredProfile} (hg : ∀ e ∈ entries, e.id = id → (g e).id = id) :
    (modifyEntry entries id g).map (·.id) = entries.map (·.id) := by
  rw [modifyEntry, List.map_map]
  refine List.map_congr_left fun e he => ?_
  by_cases hid : e.id = id
  · simp [hid, hg e he hid]
  · simp [hid]

theorem mem_modifyEntry {entries : List StoredProfile} {id : SyncProfileId}
    {g : StoredProfile → StoredProfile} {e : StoredProfile} :
    e ∈ modifyEntry entries id g ↔
      ∃ old ∈ entries, e = if old.id = id then g old else old := by
  simp [modifyEntry, eq_comm]

namespace ProfileTable.Stores

variable {table : ProfileTable} {entries : List StoredProfile}

theorem mem_row (h : table.Stores entries) {row : ProfileRow} :
    row ∈ table.rows ↔ ∃ e ∈ entries, e.row = row := by
  rw [h.rows_eq, List.mem_map]

/-- Records of one identifier are one record. -/
theorem entry_eq (h : table.Stores entries) {e e' : StoredProfile} (he : e ∈ entries)
    (he' : e' ∈ entries) (hid : e.id = e'.id) : e = e' :=
  List.inj_on_of_nodup_map h.nodup he he' hid

/-- A row of the table is seen there. -/
theorem seen (h : table.Stores entries) {e : StoredProfile} (he : e ∈ entries) :
    e.row.Seen table := by
  refine ⟨h.known e he, fun row hrow hid => ?_⟩
  obtain ⟨e', he', rfl⟩ := h.mem_row.mp hrow
  obtain rfl := h.entry_eq he' he (SyncProfileId.toNat_inj.mp hid)
  exact e'.row.later_refl

/-- What was seen is still stored under its revision, but for its next run. -/
theorem version_eq (h : table.Stores entries) {row : ProfileRow} (hseen : row.Seen table)
    {e : StoredProfile} (he : e ∈ entries) (hid : e.id.value.toNat = row.profileId)
    (hedits : e.edits = row.profileRevision) : row.version = e.row.version := by
  rcases hseen.later e.row (h.mem_row.mpr ⟨e, he, rfl⟩) hid with hlt | hversion
  · have hlt : row.profileRevision < (e.edits : Int) := hlt
    omega
  · exact hversion

theorem find?_row (h : table.Stores entries) (id : SyncProfileId) :
    table.rows.find? (fun row => row.profileId = (id.value.toNat : Int)) =
      (entries.find? fun e => e.id = id).map StoredProfile.row := by
  rw [h.rows_eq, List.find?_map]
  congr 1
  refine congrArg (fun p => entries.find? p) (funext fun e => ?_)
  exact decide_eq_decide.mpr (Int.ofNat_inj.trans SyncProfileId.toNat_eq)

theorem find?_of_mem (h : table.Stores entries) {e : StoredProfile} (he : e ∈ entries) :
    table.rows.find? (fun row => row.profileId = (e.id.value.toNat : Int)) = some e.row := by
  rw [h.find?_row]
  rcases hfind : entries.find? fun other => other.id = e.id with _ | other
  · exact absurd (List.find?_eq_none.mp hfind e he) (by simp)
  · have hid : other.id = e.id := by simpa using List.find?_some hfind
    rw [hfind, h.entry_eq (List.mem_of_find?_eq_some hfind) he hid]
    rfl

theorem modifyRow (h : table.Stores entries) {id : SyncProfileId}
    {f : ProfileRow → ProfileRow} {g : StoredProfile → StoredProfile}
    (hf : ∀ e ∈ entries, e.id = id → f e.row = (g e).row)
    (hg : ∀ e ∈ entries, e.id = id → (g e).id = id ∧ (g e).Valid) :
    (table.modifyRow id.value.toNat f).Stores (modifyEntry entries id g) where
  rows_eq := by
    rw [ProfileTable.modifyRow, modifyEntry, h.rows_eq, List.map_map, List.map_map]
    refine List.map_congr_left fun e he => ?_
    by_cases hid : e.id = id
    · simp [hid, hf e he hid]
    · have hrow : ¬ ((e.id.value.toNat : Int) = id.value.toNat) := fun heq =>
        hid (SyncProfileId.toNat_eq.mp (Int.ofNat_inj.mp heq))
      simp [hid, hrow]
  valid := by
    intro e he
    obtain ⟨old, hold, rfl⟩ := mem_modifyEntry.mp he
    split
    · exact (hg old hold ‹_›).2
    · exact h.valid old hold
  nodup := by
    rw [modifyEntry_id fun e he hid => (hg e he hid).1]
    exact h.nodup
  known := by
    intro e he
    obtain ⟨old, hold, rfl⟩ := mem_modifyEntry.mp he
    split
    · rename_i hid
      rw [(hg old hold hid).1, ← hid]
      exact h.known old hold
    · exact h.known old hold
  sequence := h.sequence

theorem filter (h : table.Stores entries) (p : StoredProfile → Bool) {rows : List ProfileRow}
    (hrows : rows = (entries.filter p).map StoredProfile.row) :
    ProfileTable.Stores { table with rows } (entries.filter p) where
  rows_eq := hrows
  valid e he := h.valid e (List.mem_of_mem_filter he)
  nodup := h.nodup.sublist ((List.filter_sublist).map _)
  known e he := h.known e (List.mem_of_mem_filter he)
  sequence := h.sequence

theorem append (h : table.Stores entries) {e : StoredProfile} (he : e.Valid)
    (hnew : table.sequence < e.id.value.toNat) :
    ProfileTable.Stores ⟨e.id.value.toNat, table.rows ++ [e.row]⟩ (entries ++ [e]) where
  rows_eq := by rw [h.rows_eq, List.map_append, List.map_singleton]
  valid := by
    intro e' he'
    rcases List.mem_append.mp he' with hold | hlast
    · exact h.valid e' hold
    · obtain rfl := List.mem_singleton.mp hlast
      exact he
  nodup := by
    rw [List.map_append, List.map_singleton]
    refine h.nodup.append (List.nodup_singleton _) ?_
    intro id hid hlast
    obtain rfl := List.mem_singleton.mp hlast
    obtain ⟨old, hold, hid⟩ := List.mem_map.mp hid
    have := h.known old hold
    rw [hid] at this
    omega
  known := by
    intro e' he'
    rcases List.mem_append.mp he' with hold | hlast
    · exact (h.known e' hold).trans hnew.le
    · obtain rfl := List.mem_singleton.mp hlast
      exact Int.le_refl _
  sequence := Int.natCast_nonneg _

end ProfileTable.Stores

theorem stores_empty : ProfileTable.empty.Stores [] where
  rows_eq := rfl
  valid := by simp
  nodup := by simp
  known := by simp
  sequence := Int.le_refl _

/-! ## Transactions -/

namespace ProfileTable

theorem modifyRow_append {sequence id : Int} {rows : List ProfileRow} {row : ProfileRow}
    {f : ProfileRow → ProfileRow} (hold : ∀ r ∈ rows, r.profileId ≠ id)
    (hid : row.profileId = id) :
    modifyRow ⟨sequence, rows ++ [row]⟩ id f = ⟨sequence, rows ++ [f row]⟩ := by
  unfold modifyRow
  rw [List.map_append, List.map_singleton, if_pos hid]
  congr 2
  refine (List.map_congr_left fun r hr => ?_).trans (List.map_id' _)
  rw [if_neg (hold r hr)]

theorem modifyRow_modifyRow {table : ProfileTable} {id : Int} {f f' : ProfileRow → ProfileRow}
    (hf : ∀ row, (f row).profileId = row.profileId) :
    (table.modifyRow id f).modifyRow id f' = table.modifyRow id fun row => f' (f row) := by
  unfold modifyRow
  rw [List.map_map]
  congr 1
  refine List.map_congr_left fun row _ => ?_
  by_cases hid : row.profileId = id
  · simp [hid, hf]
  · simp [hid]

variable {table table₁ table₂ : ProfileTable} {entries : List StoredProfile}

/-- A profile inserted with its exclusions. -/
theorem Stores.insert (h : table.Stores entries) {profile : SyncProfile}
    {authorizations : AuthorizationSnapshot} {key : Int} (hprofile : profile.Storable)
    (hauthorizations : validateAuthorizations profile authorizations = .ok ())
    (hinsert : table.insertProfile (.fromProfile profile) authorizations = .ok (table₁, key))
    (hexclusions : table₁.insertExclusions key profile.exclusions = .ok table₂) :
    ∃ id : SyncProfileId, id = ⟨.ofNat (table.sequence + 1).toNat⟩ ∧ key = id.value.toNat ∧
      key = table.sequence + 1 ∧ FitsI64 id.value ∧
      table₂ = ⟨key, table.rows ++ [StoredProfile.row ⟨id, profile, none, authorizations, 0⟩]⟩ ∧
      table₂.Stores (entries ++ [⟨id, profile, none, authorizations, 0⟩]) := by
  unfold insertProfile at hinsert
  obtain ⟨id, hid, hinsert⟩ := bind_eq_ok.mp hinsert
  obtain ⟨-, hinsert⟩ := ensure_bind_eq_ok.mp hinsert
  rw [orError_eq_ok, checkedI64_eq_some] at hid
  cases hinsert
  obtain ⟨-, hexclusions⟩ := ensure_bind_eq_ok.mp hexclusions
  cases hexclusions
  have hnonneg := h.sequence
  have hnat : (UInt64.ofNat (table.sequence + 1).toNat).toNat = (table.sequence + 1).toNat := by
    rw [UInt64.toNat_ofNat']
    exact Nat.mod_eq_of_lt (by omega)
  have hkey : key = ((⟨.ofNat (table.sequence + 1).toNat⟩ : SyncProfileId).value.toNat : Int) := by
    rw [hnat]
    omega
  have hold : ∀ r ∈ table.rows, r.profileId ≠ key := by
    intro r hr
    obtain ⟨e, he, rfl⟩ := h.mem_row.mp hr
    have := h.known e he
    rw [StoredProfile.row_profileId]
    omega
  have hfits : FitsI64 (UInt64.ofNat (table.sequence + 1).toNat) := by
    unfold FitsI64
    omega
  rw [modifyRow_append hold rfl]
  have hrow : ({ ProfileValues.fromProfile profile with
        profileId := key
        scheduleEnabled := 0
        allowUnattendedDestructive := boolColumn authorizations.allowUnattendedDestructive
        allowUnattendedPermanentRemoval :=
          boolColumn authorizations.allowUnattendedPermanentRemoval
        profileRevision := 0
        exclusions := profile.exclusions
        schedule := none } : ProfileRow) =
      StoredProfile.row ⟨⟨.ofNat (table.sequence + 1).toNat⟩, profile, none, authorizations, 0⟩ := by
    rw [hkey]
    rfl
  have happend := h.append (e := ⟨⟨.ofNat (table.sequence + 1).toNat⟩, profile, none, authorizations, 0⟩)
    ⟨hfits, hprofile, hauthorizations, by simp⟩ (by rw [← hkey]; omega)
  refine ⟨_, rfl, hkey, hid.1.symm, hfits, ?_, ?_⟩
  · exact congrArg (fun row => (⟨key, table.rows ++ [row]⟩ : ProfileTable)) hrow
  · rw [hrow]
    rw [← hkey] at happend
    exact happend

end ProfileTable

end SyncPlus
