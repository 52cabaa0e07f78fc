import SyncPlus.ReplacementAtomic
import SyncPlus.WalkedInventory

/-!
# Replacements that nothing disturbs

Where no call fails, nothing is cancelled and the transfer makes an exact copy, a
replacement returns and leaves a destination that equals the source, unless
timestamps are required of a link or of an item that was modified before 1970 or
later than a signed 64-bit number of nanoseconds tells
(`undisturbed_replacement_iff`). Equality knows the times of links, and times
before 1970; the proof of a transfer does not.
-/

namespace SyncPlus

open Procedure

/-! ## Copies -/

/-- What an inventory finds of the item. -/
def FileItem.found (sha256 : List UInt8 → Sha256) (item : FileItem) : Found where
  itemType := item.itemType
  metadata := ⟨item.size, some item.modified, item.mode &&& 0o222 = 0, some item.mode,
    item.symlinkTarget⟩
  content := (item.contentProof sha256).map ContentProof.sha256
  inspectError := none
  listError := none

def FileItem.inventoryItem (sha256 : List UInt8 → Sha256) (relativePath : PathBuf)
    (item : FileItem) : InventoryItem :=
  SyncPlus.inventoryItem relativePath false (item.found sha256)

/-- The copy has the bytes, the link target, the mode and the time of the source; a
directory is copied without what lies below it. -/
structure CopyOf (source staged : FileItem) : Prop where
  modified : staged.modified = source.modified
  mode : staged.mode = source.mode
  content : staged.content = source.content ∨
    source.itemType = .directory ∧ staged.itemType = .directory

/-- No call fails, none finds a name of the transfer taken, nothing is cancelled, and
the transfer makes an exact copy. -/
def Faultless (source : FileItem) (_ : ReplacementStep) (answer : CallAnswer ReplacementAnswer)
    (disk : ReplacementDisk) : Prop :=
  answer.fails = false ∧ answer.cancelled = false ∧
    (∀ kind, disk.files (.sibling kind answer.extra.sequence) = none) ∧
    answer.extra.transferError = none ∧
    ∃ staged, answer.extra.transferred = some staged ∧ CopyOf source staged

/-- The time can be proved and set. -/
def ProvableTime (metadata : MetadataRequirements) (source : FileItem) : Prop :=
  metadata.timestamps = true →
    source.itemType ≠ .symlink ∧ 0 ≤ source.modified ∧ source.modified < 2 ^ 63

section

variable {source staged : FileItem} {metadata : MetadataRequirements}
  {sha256 : List UInt8 → Sha256} {named : Bool} {u : ReplacementDisk}
  {temporary : ReplacementPath}

/-- The values of an item that equality looks at. -/
theorem parts_inventoryItem (item : FileItem) (relativePath : PathBuf) :
    (item.inventoryItem sha256 relativePath).parts =
      { itemType := item.itemType
        size := item.size
        modifiedAt := intoUnixNanos (some item.modified)
        executablePermissions := some (item.mode &&& 0o111)
        symlinkTarget := item.symlinkTarget
        contentFingerprint := (item.contentProof sha256).map ContentProof.sha256 } := by
  rcases item with ⟨content, modified, mode, identity⟩
  cases content <;> rfl

namespace CopyOf

theorem itemType (h : CopyOf source staged) : staged.itemType = source.itemType := by
  rcases h.content with hcontent | ⟨hsource, hstaged⟩
  · unfold FileItem.itemType
    rw [hcontent]
  · rw [hsource, hstaged]

theorem symlinkTarget (h : CopyOf source staged) :
    staged.symlinkTarget = source.symlinkTarget := by
  have hnone : ∀ item : FileItem, item.itemType = .directory → item.symlinkTarget = none := by
    intro item htype
    unfold FileItem.itemType at htype
    unfold FileItem.symlinkTarget
    cases hcontent : item.content <;> simp [hcontent] at htype ⊢
  rcases h.content with hcontent | ⟨hsource, hstaged⟩
  · unfold FileItem.symlinkTarget
    rw [hcontent]
  · rw [hnone source hsource, hnone staged hstaged]

theorem contentProof (h : CopyOf source staged) :
    staged.contentProof sha256 = source.contentProof sha256 := by
  rcases h.content with hcontent | ⟨hsource, hstaged⟩
  · unfold FileItem.contentProof
    rw [hcontent]
  · rw [contentProof_of_other (by rw [hstaged]; nofun),
      contentProof_of_other (by rw [hsource]; nofun)]

theorem modifiedAtUnixNanos (h : CopyOf source staged) :
    staged.modifiedAtUnixNanos = source.modifiedAtUnixNanos := by
  unfold FileItem.modifiedAtUnixNanos
  rw [h.modified]

/-- A copy has the metadata that a transfer has to keep. -/
theorem matches_metadata (h : CopyOf source staged) (hspecialist : metadata.specialist.any = false) :
    (FileMetadataProof.fromMetadata source source.symlinkTarget).matchesTransferMetadata
      (.fromMetadata staged staged.symlinkTarget) metadata = true := by
  unfold FileMetadataProof.matchesTransferMetadata
  rw [if_neg (by simp [hspecialist])]
  have hpermissions : (FileMetadataProof.fromMetadata source
      source.symlinkTarget).executablePermissions =
        (FileMetadataProof.fromMetadata staged staged.symlinkTarget).executablePermissions := by
    simp [FileMetadataProof.executablePermissions, FileMetadataProof.fromMetadata, h.mode]
  have htarget : sameOptionPath source.symlinkTarget staged.symlinkTarget = true := by
    rw [sameOptionPath_iff, h.symlinkTarget]
  rw [hpermissions]
  simp [FileMetadataProof.fromMetadata, htarget, h.itemType, h.modifiedAtUnixNanos]

/-- A copy equals its source. -/
theorem equalInventory (h : CopyOf source staged) (hspecialist : metadata.specialist.any = false)
    (hsupported : source.itemType ≠ .unsupported) (relativePath : PathBuf) :
    MirrorEquality.equalInventory ⟨metadata⟩ (source.inventoryItem sha256 relativePath)
      (staged.inventoryItem sha256 relativePath) = true := by
  have hincluded : ∀ item : FileItem, item.itemType ≠ .unsupported →
      (item.inventoryItem sha256 relativePath).outcome = .included := by
    intro item htype
    show analysisOutcome false item.itemType = .included
    unfold analysisOutcome
    rw [if_neg nofun, if_neg htype]
  have hsize : source.itemType = .regularFile → staged.size = source.size := by
    intro htype
    rcases h.content with hcontent | ⟨hdirectory, -⟩
    · unfold FileItem.size
      rw [hcontent]
    · rw [htype] at hdirectory
      cases hdirectory
  unfold MirrorEquality.equalInventory
  rw [if_neg ?_]
  · rw [equalParts_iff, parts_inventoryItem, parts_inventoryItem]
    refine ⟨⟨hspecialist, ?_⟩, ?_⟩
    · intro htype
      obtain ⟨bytes, hbytes⟩ := FileItem.itemType_eq_regularFile.mp htype
      simp [contentProof_of_file hbytes]
    · unfold MirrorParts.compared
      dsimp only
      rw [h.itemType, h.symlinkTarget, h.contentProof, h.modified, h.mode]
      split <;> rename_i htype
      · rw [hsize htype]
      · rfl
  · rw [hincluded source hsupported, hincluded staged (h.itemType ▸ hsupported)]
    simp

end CopyOf

/-! ## A replacement that succeeds -/

theorem not_disturbed : ¬ Disturbed (Faultless source) u := by
  rintro ⟨_, answer, ⟨hfails, hcancelled, -⟩, hanswer⟩
  rw [hfails, hcancelled] at hanswer
  simp at hanswer

/-- The copy is staged, and the source is where it was. -/
structure Staged (source staged : FileItem) (temporary : ReplacementPath)
    (t : ReplacementDisk) : Prop where
  source : t.files .source = some source
  staged : t.files temporary = some staged

/-- Setting the time of the copy changes nothing. -/
theorem Staged.dateItem (h : Staged source staged temporary u) {time : Int}
    (htime : staged.modified = time) :
    Staged source staged temporary (dateItem u temporary staged time) := by
  have hfiles : ∀ path, (SyncPlus.dateItem u temporary staged time).files path = u.files path := by
    intro path
    unfold SyncPlus.dateItem
    by_cases hpath : path = temporary
    · rw [hpath, ItemDisk.set_same, h.staged, ← htime]
    · rw [ItemDisk.set_of_ne hpath]
  exact ⟨(hfiles _).trans h.source, (hfiles _).trans h.staged⟩

theorem modified_of_modifiedAt {target : Option PathBuf} {time : Int}
    (h : (FileMetadataProof.fromMetadata source target).modifiedAt = some time) :
    source.modified = time ∧ 0 ≤ source.modified ∧ source.modified < 2 ^ 63 := by
  unfold FileMetadataProof.modifiedAt FileMetadataProof.fromMetadata
    FileItem.modifiedAtUnixNanos at h
  dsimp only at h
  split at h
  · rename_i hrange
    rw [Option.map_some, Option.some.injEq] at h
    rw [← h, Int64.toInt_ofInt_of_le (by omega) (by omega)]
    exact ⟨rfl, hrange⟩
  · cases h

/-- The observation of the source. -/
def FileItem.observation (sha256 : List UInt8 → Sha256) (item : FileItem) : SourceObservation :=
  ⟨.fromMetadata item item.symlinkTarget, item.contentProof sha256⟩

/-- A faultless observation is one of the whole item. -/
theorem ensures_observe {Q : Except ReplacementError SourceObservation → ReplacementDisk → Prop}
    {label : ReplacementStep} {path : ReplacementPath} {item : FileItem}
    (hitem : u.files path = some item) (hsupported : item.itemType ≠ .unsupported) (h : Q (.ok (item.observation sha256)) u) :
    (Procedure.mapError mapVerificationError
      (SourceObservation.captureWithCancel sha256 label path)).Ensures (Faultless source) Q u := by
  refine .mapError (ensures_captureWithCancel ?_ ?_)
  · intro found target hfound _ htarget
    obtain rfl : item = found := Option.some.inj (hitem.symm.trans hfound)
    rw [htarget not_disturbed]
    exact h
  · rintro e (hdisturbed | hmissing)
    · exact absurd hdisturbed not_disturbed
    · exact absurd ⟨item, hitem, hsupported⟩ hmissing

/-- So is a faultless proof of the metadata. -/
theorem ensures_capture_faultless {φ : Type} {f : ItemProofError → φ}
    {Q : Except φ FileMetadataProof → ReplacementDisk → Prop} {path : ReplacementPath}
    {label : ReplacementStep} {item : FileItem} (hitem : u.files path = some item)
    (h : Q (.ok (.fromMetadata item item.symlinkTarget)) u) :
    (Procedure.mapError f (FileMetadataProof.capture label path)).Ensures (Faultless source)
      Q u := by
  refine .mapError (ensures_capture ?_ ?_ ?_)
  · intro found target hfound htarget
    obtain rfl : item = found := Option.some.inj (hitem.symm.trans hfound)
    rw [htarget not_disturbed]
    exact h
  · intro hnone
    rw [hitem] at hnone
    cases hnone
  · exact fun hdisturbed => absurd hdisturbed not_disturbed

theorem ensures_verifyObserved_copy (hcopy : CopyOf source staged) {path : ReplacementPath}
    (hitem : u.files path = some staged)
    {Q : Except ReplacementError (Option ContentProof) → ReplacementDisk → Prop}
    (h : Q (.ok (source.contentProof sha256)) u) :
    (verifyObserved sha256 path (source.contentProof sha256)).Ensures (Faultless source) Q u := by
  have hcontent : ∀ expected, source.contentProof sha256 = some expected → ∃ item bytes,
      u.files path = some item ∧ item.content = .file bytes ∧
        ContentProof.ofBytes sha256 bytes.bytes = expected := by
    intro expected hexpected
    rw [← hcopy.contentProof] at hexpected
    unfold FileItem.contentProof at hexpected
    split at hexpected
    · rename_i bytes hbytes
      exact ⟨staged, bytes, hitem, hbytes, Option.some.inj hexpected⟩
    · cases hexpected
  refine ensures_verifyObserved (fun _ => h) ?_
  rintro e (hdisturbed | ⟨expected, hexpected, hmissing⟩)
  · exact absurd hdisturbed not_disturbed
  · exact absurd (hcontent expected hexpected) hmissing

theorem ensures_proceeds {α β : Type} {p : Replace α} {f : α → Replace β} {a : α}
    {Q : Except ReplacementError β → ReplacementDisk → Prop}
    (hp : p.Ensures (Faultless source) (fun r t => r = .ok a ∧ t = u) u)
    (hf : (f a).Ensures (Faultless source) Q u) :
    (p >>= f).Ensures (Faultless source) Q u := by
  refine .bind hp ?_ ?_
  · rintro _ t ⟨⟨⟩, rfl⟩
    exact hf
  · rintro e t ⟨⟨⟩, -⟩

theorem ensures_checkCancelled_ok :
    checkCancelled.Ensures (Faultless source) (fun r t => r = .ok () ∧ t = u) u :=
  ensures_checkCancelled ⟨rfl, rfl⟩ fun hdisturbed => absurd hdisturbed not_disturbed

theorem ensures_syncStagedItem_ok {path : ReplacementPath} (hitem : u.files path = some staged)
    (hsupported : staged.itemType ≠ .unsupported) :
    (syncStagedItem path).Ensures (Faultless source) (fun r t => r = .ok () ∧ t = u) u := by
  refine ensures_syncStagedItem ⟨rfl, rfl⟩ ?_
  rintro e (hdisturbed | hmissing)
  · exact absurd hdisturbed not_disturbed
  · exact absurd ⟨staged, hitem, hsupported⟩ hmissing

theorem ensures_verifyStaged_ok (hcopy : CopyOf source staged)
    (hspecialist : metadata.specialist.any = false) (hsupported : source.itemType ≠ .unsupported)
    (htime : ProvableTime metadata source) (h : Staged source staged temporary u) :
    (verifyStaged sha256 temporary metadata (source.observation sha256)).Ensures
      (Faultless source) (fun r t => Staged source staged temporary t ∧
        r = .ok (source.contentProof sha256, source.observation sha256)) u := by
  have hstaged : staged.itemType ≠ .unsupported := hcopy.itemType ▸ hsupported
  refine ensures_proceeds ensures_checkCancelled_ok ?_
  refine ensures_proceeds (ensures_syncStagedItem_ok h.staged hstaged) ?_
  refine ensures_proceeds ensures_checkCancelled_ok ?_
  refine .bind_returns (P := fun _ t => Staged source staged temporary t) ?_ ?_
  · refine ensures_applyMetadataRequirements (fun _ => ⟨_, rfl, h⟩) ?_ ?_
    · intro leadsTo reached item time _ htype hmodified hreached hitem
      obtain ⟨_, _, _, found, hfound, hdirect⟩ := reachedPath_some hreached
      obtain rfl : staged = found := Option.some.inj (h.staged.symm.trans hfound)
      have hnot : staged.itemType ≠ .symlink := by
        rw [hcopy.itemType]
        rcases htype with htype | htype
        · rw [show source.itemType = .regularFile from htype]
          nofun
        · rw [show source.itemType = .directory from htype]
          nofun
      obtain rfl := hdirect hnot
      obtain rfl : staged = item := Option.some.inj (h.staged.symm.trans hitem)
      refine ⟨_, rfl, h.dateItem ?_⟩
      rw [hcopy.modified]
      exact (modified_of_modifiedAt hmodified).1
    · rintro e (hdisturbed | ⟨htimestamps, hmodified | htype | hother⟩)
      · exact absurd hdisturbed not_disturbed
      · obtain ⟨-, hrange⟩ := htime htimestamps
        have hsome : source.modifiedAtUnixNanos = some (.ofInt source.modified) := if_pos hrange
        simp [FileItem.observation, FileMetadataProof.modifiedAt,
          FileMetadataProof.fromMetadata, hsome] at hmodified
      · obtain ⟨hlink, -⟩ := htime htimestamps
        have htype : source.itemType ≠ .regularFile ∧ source.itemType ≠ .directory := htype
        cases hcase : source.itemType with
        | regularFile => exact absurd hcase htype.1
        | directory => exact absurd hcase htype.2
        | symlink => exact absurd hcase hlink
        | unsupported => exact absurd hcase hsupported
      · exact absurd hcopy.itemType (hother staged h.staged)
  · intro _ t ht
    refine ensures_guarded (ensures_capture_faultless ht.staged (.inl ⟨_, rfl, ?_⟩))
    refine .ofExcept_bind (fun _ _ => ?_) ?_
    · refine ensures_guarded (ensures_verifyObserved_copy hcopy ht.staged (.inl ⟨_, rfl, ?_⟩))
      refine ensures_guarded (ensures_observe ht.source hsupported (.inl ⟨_, rfl, ?_⟩))
      refine .ofExcept_bind (fun _ _ => ?_) ?_
      · exact ensures_proceeds ensures_checkCancelled_ok (.pure ⟨ht, rfl⟩)
      · intro e he
        rw [ensure_of rfl] at he
        cases he
    · intro e he
      have hmatches : ((source.observation sha256).metadata.matchesTransferMetadata
          (.fromMetadata staged staged.symlinkTarget) metadata) = true :=
        hcopy.matches_metadata hspecialist
      rw [ensure_of hmatches] at he
      cases he

/-- The destination is vacant, and nothing else has changed. -/
theorem ensures_preservePrevious_ok (htemporary : ∀ sequence, temporary ≠ .sibling .previous sequence)
    (hdestination : temporary ≠ .destination) (h : Staged source staged temporary u) :
    (preservePrevious true).Ensures (Faultless source) (fun r t => ∃ previous, r = .ok previous ∧
      Staged source staged temporary t ∧ t.files .destination = none) u := by
  refine .bind_returns (P := fun r t => t = u ∧
    ((r = .error .notFound ∧ u.files .destination = none) ∨
      ∃ item, r = .ok item ∧ u.files .destination = some item))
    (.attempt (ensures_itemMetadata ?_ ?_ ?_)) ?_
  · exact fun item hitem => ⟨_, rfl, rfl, .inr ⟨item, rfl, hitem⟩⟩
  · exact fun hnone => ⟨_, rfl, rfl, .inl ⟨rfl, hnone⟩⟩
  · exact fun hdisturbed => absurd hdisturbed not_disturbed
  · rintro _ t ⟨rfl, ⟨rfl, hvacant⟩ | ⟨item, rfl, hitem⟩⟩
    · exact .pure ⟨none, rfl, h, hvacant⟩
    · refine ensures_guarded (ensures_capture_faultless hitem (.inl ⟨_, rfl, ?_⟩))
      refine ensures_guarded (ensures_temporarySibling (fun _ answer hallows => ?_) nofun)
      obtain ⟨-, -, hfree, -⟩ := hallows
      refine .inl ⟨_, rfl, ensures_guarded (.mapError (ensures_renameItem ?_ ?_))⟩
      · intro moved hmoved _
        obtain rfl : item = moved := Option.some.inj (hitem.symm.trans hmoved)
        have haside : ((t.set .destination none).set (.sibling .previous answer.extra.sequence)
            (some item)).files (.sibling .previous answer.extra.sequence) = some item := ItemDisk.set_same
        refine .inl ⟨_, rfl, ?_⟩
        refine .bind_returns (P := fun r w => w = (t.set .destination none).set
            (.sibling .previous answer.extra.sequence) (some item) ∧
          r = .ok (.fromMetadata item item.symlinkTarget)) (.attempt (ensures_capture ?_ ?_ ?_)) ?_
        · intro found target hfound htarget
          obtain rfl : item = found := Option.some.inj (haside.symm.trans hfound)
          rw [htarget not_disturbed]
          exact ⟨_, rfl, rfl, rfl⟩
        · intro hnone
          rw [haside] at hnone
          cases hnone
        · exact fun hdisturbed => absurd hdisturbed not_disturbed
        · rintro _ w ⟨rfl, rfl⟩
          dsimp only
          rw [if_pos rfl]
          refine .pure ⟨_, rfl, ⟨?_, ?_⟩, ?_⟩
          · rw [ItemDisk.set_of_ne (by simp), ItemDisk.set_of_ne (by simp), h.source]
          · rw [ItemDisk.set_of_ne (htemporary _), ItemDisk.set_of_ne hdestination,
              h.staged]
          · rw [ItemDisk.set_of_ne (by simp), ItemDisk.set_same]
      · rintro kind (hdisturbed | hnone | htaken)
        · exact absurd hdisturbed not_disturbed
        · rw [hitem] at hnone
          cases hnone
        · exact absurd (hfree .previous) htaken

/-- The installed item is verified, and stays. -/
theorem ensures_verifyInstalled_ok (hcopy : CopyOf source staged)
    (hspecialist : metadata.specialist.any = false) (hsupported : source.itemType ≠ .unsupported)
    (h : Staged source staged .destination u) :
    (verifyInstalled sha256 metadata (source.observation sha256) (source.observation sha256)
      (.fromMetadata staged staged.symlinkTarget)).Ensures (Faultless source)
        (fun r t => r = .ok (source.contentProof sha256, source.observation sha256) ∧ t = u) u := by
  have hstaged : staged.itemType ≠ .unsupported := hcopy.itemType ▸ hsupported
  refine .ofExcept_bind (fun _ _ => ?_) ?_
  · refine ensures_proceeds ensures_checkCancelled_ok ?_
    refine ensures_proceeds (ensures_syncStagedItem_ok h.staged hstaged) ?_
    refine ensures_guarded (ensures_verifyObserved_copy hcopy h.staged (.inl ⟨_, rfl, ?_⟩))
    refine ensures_guarded (ensures_capture_faultless h.staged (.inl ⟨_, rfl, ?_⟩))
    refine .ofExcept_bind (fun _ _ => ?_) ?_
    · refine ensures_guarded (ensures_observe h.source hsupported (.inl ⟨_, rfl, ?_⟩))
      refine .ofExcept_bind (fun _ _ => ?_) ?_
      · exact ensures_proceeds ensures_checkCancelled_ok (.pure ⟨rfl, rfl⟩)
      · intro e he
        rw [ensure_of rfl] at he
        cases he
    · intro e he
      rw [ensure_of rfl] at he
      cases he
  · intro e he
    have hmatches : ((source.observation sha256).metadata.matchesTransferMetadata
        (.fromMetadata staged staged.symlinkTarget) metadata) = true :=
      hcopy.matches_metadata hspecialist
    rw [ensure_of hmatches] at he
    cases he

theorem ensures_installVerified_ok (hcopy : CopyOf source staged)
    (hspecialist : metadata.specialist.any = false) (hsupported : source.itemType ≠ .unsupported)
    (hsource : temporary ≠ .source) (h : Staged source staged temporary u) (hvacant : u.files .destination = none)
    (temporaryDestination : Option ContentProof) (previousDestination : Option ReplacementPath) :
    (installVerified sha256 named temporary metadata (source.observation sha256)
      temporaryDestination (source.observation sha256) previousDestination).Ensures
        (Faultless source) (fun r t => (∃ replacement, r = .ok replacement) ∧
          t.files .destination = some staged) u := by
  refine ensures_orElse_bind (ensures_checkCancelled (.inl ⟨_, rfl, ?_⟩)
    fun hdisturbed => absurd hdisturbed not_disturbed)
  refine ensures_orElse_bind (.mapError (ensures_renameItem ?_ ?_))
  · intro item hitem _
    obtain rfl : staged = item := Option.some.inj (h.staged.symm.trans hitem)
    have hinstalled : Staged source staged .destination
        ((u.set temporary none).set .destination (some staged)) := by
      refine ⟨?_, ?_⟩
      · rw [ItemDisk.set_of_ne (by simp), ItemDisk.set_of_ne hsource.symm, h.source]
      · rw [ItemDisk.set_same]
    generalize (u.set temporary none).set .destination (some staged) = v at hinstalled
    refine .inl ⟨(), rfl, ensures_orElse_bind (ensures_capture_faultless hinstalled.staged ?_)⟩
    refine .inl ⟨_, rfl, ensures_orElse_bind ((ensures_verifyInstalled_ok hcopy hspecialist
      hsupported hinstalled).mono ?_)⟩
    rintro _ t ⟨rfl, rfl⟩
    exact .inl ⟨_, rfl, .pure ⟨⟨_, rfl⟩, hinstalled.staged⟩⟩
  · rintro kind (hdisturbed | hnone | htaken)
    · exact absurd hdisturbed not_disturbed
    · rw [h.staged] at hnone
      cases hnone
    · exact absurd hvacant htaken

/-- Cleaning up ends in an error. -/
theorem ensures_cleanup {α : Type} {policy : PartialTransferPolicy} (e : ReplacementError) :
    (cleanupTemporaryAccordingToPolicy temporary policy e : Replace α).Ensures (Faultless source)
      (fun r _ => ∃ e', r = .error e') u := by
  cases policy with
  | keepPartialForResume => exact Replace.ensures_fail ⟨e, rfl⟩
  | cleanup =>
      refine .bind_returns (P := fun _ _ => True) (.attempt (.of_forall fun r t => ⟨r, rfl, trivial⟩))
        fun r _ _ => ?_
      split <;> exact Replace.ensures_fail ⟨_, rfl⟩

/-- A time that cannot be proved is not set. -/
theorem ensures_verifyStaged_error (htime : ¬ ProvableTime metadata source) :
    (verifyStaged sha256 temporary metadata (source.observation sha256)).Ensures
      (Faultless source) (fun r _ => ∃ e, r = .error e) u := by
  refine ensures_proceeds ensures_checkCancelled_ok ?_
  refine .bind (P := fun _ _ => True) ((ensures_syncStagedItem trivial fun _ _ => trivial))
    (fun _ t _ => ?_) fun e _ _ => ⟨e, rfl⟩
  refine ensures_proceeds ensures_checkCancelled_ok ?_
  refine .bind (P := fun r _ => ∃ e, r = .error e) (ensures_applyMetadataRequirements ?_ ?_ ?_) ?_ ?_
  · intro htimestamps
    refine absurd (fun hrequired => ?_) htime
    rw [htimestamps] at hrequired
    cases hrequired
  · intro leadsTo reached item time _ htype hmodified _ _
    refine absurd (fun _ => ⟨?_, (modified_of_modifiedAt hmodified).2⟩) htime
    intro hlink
    have htype : source.itemType = .regularFile ∨ source.itemType = .directory := htype
    rw [hlink] at htype
    rcases htype with htype | htype
    · cases htype
    · cases htype
  · exact fun e _ => ⟨e, rfl⟩
  · rintro _ _ ⟨_, ⟨⟩⟩
  · exact fun e _ _ => ⟨e, rfl⟩

end

/-- The replacement returns, and what it leaves at the destination equals the source. -/
def ReplacedEqually (sha256 : List UInt8 → Sha256) (metadata : MetadataRequirements)
    (relativePath : PathBuf) (source : FileItem)
    (r : Except ReplacementError VerifiedReplacement) (after : ReplacementDisk) : Prop :=
  (∃ replacement, r = .ok replacement) ∧ ∃ item, after.files .destination = some item ∧
    MirrorEquality.equalInventory ⟨metadata⟩ (source.inventoryItem sha256 relativePath)
      (item.inventoryItem sha256 relativePath) = true

theorem not_replacedEqually {sha256 : List UInt8 → Sha256} {metadata : MetadataRequirements}
    {relativePath : PathBuf} {source : FileItem} {e : ReplacementError} {after : ReplacementDisk} :
    ¬ ReplacedEqually sha256 metadata relativePath source (.error e) after := by
  rintro ⟨⟨_, ⟨⟩⟩, -⟩

/-- **A replacement that nothing disturbs returns and leaves an equal item** exactly
when the destination has a file name and the time of the source can be proved. -/
theorem undisturbed_replacement_iff {sha256 : List UInt8 → Sha256} {named : Bool}
    {metadata : MetadataRequirements} {policy : PartialTransferPolicy} {source : FileItem}
    {before after : ReplacementDisk} {r : Except ReplacementError VerifiedReplacement}
    (hspecialist : metadata.specialist.any = false) (hsource : before.files .source = some source)
    (hsupported : source.itemType ≠ .unsupported)
    (hrun : (performVerifiedReplacement sha256 named metadata policy).ReturnsUnder
      (Faultless source) before r after) (relativePath : PathBuf) :
    ReplacedEqually sha256 metadata relativePath source r after ↔
      named = true ∧ ProvableTime metadata source := by
  refine hrun.of_ensures (Q := fun r t => ReplacedEqually sha256 metadata relativePath source r t ↔
    named = true ∧ ProvableTime metadata source) ?_
  refine ensures_proceeds ensures_checkCancelled_ok ?_
  refine ensures_guarded (ensures_observe hsource hsupported (.inl ⟨_, rfl, ?_⟩))
  refine ensures_guarded (ensures_temporarySibling (fun hnamed answer hallows => ?_) fun hnamed => ?_)
  · obtain ⟨-, -, hfree, -⟩ := hallows
    have htemporary : IsTemporary (.sibling (temporaryKind policy) answer.extra.sequence) :=
      ⟨policy, answer.extra.sequence, rfl⟩
    have hvacant := hfree (temporaryKind policy)
    refine .inl ⟨_, rfl, ?_⟩
    generalize ReplacementPath.sibling (temporaryKind policy) answer.extra.sequence =
      temporary at htemporary hvacant ⊢
    obtain ⟨hnotSource, hnotDestination, hnotPrevious⟩ := htemporary.ne
    refine ensures_guarded ((ensures_createStaged temporary).mono ?_)
    rintro (e | _) v hv
    · rcases (hv.2 e rfl).2 with hdisturbed | htaken
      · exact absurd hdisturbed not_disturbed
      · exact absurd hvacant htaken
    · refine .inl ⟨(), rfl, ensures_orElse_bind (.call fun answer hallows => ?_)⟩
      obtain ⟨-, -, -, herror, staged, htransferred, hcopy⟩ := hallows
      have hstaged : Staged source staged temporary (v.set temporary (some staged)) := by
        refine ⟨?_, ItemDisk.set_same⟩
        rw [ItemDisk.set_of_ne hnotSource.symm, hv.1 _ hnotSource.symm, hsource]
      rw [herror, htransferred]
      refine .inl ⟨(), rfl, ensures_orElse_bind (ensures_checkCancelled (.inl ⟨(), rfl, ?_⟩)
        fun hdisturbed => absurd hdisturbed not_disturbed)⟩
      by_cases htime : ProvableTime metadata source
      · refine Replace.ensures_orElse (P := fun r t => (∃ replacement, r = .ok replacement) ∧
          t.files .destination = some staged) ?_ ?_ ?_
        · refine ensures_guarded ((ensures_verifyStaged_ok hcopy hspecialist hsupported htime
            hstaged).mono ?_)
          rintro _ w ⟨hw, rfl⟩
          subst hnamed
          refine .inl ⟨_, rfl, ensures_guarded ((ensures_preservePrevious_ok
            (fun sequence => (hnotPrevious sequence).1) hnotDestination hw).mono ?_)⟩
          rintro _ x ⟨previous, rfl, hx, hfreed⟩
          exact .inl ⟨_, rfl, ensures_installVerified_ok hcopy hspecialist hsupported hnotSource
            hx hfreed _ _⟩
        · rintro replacement t ⟨hreturns, hinstalled⟩
          exact iff_of_true ⟨hreturns, staged, hinstalled,
            hcopy.equalInventory hspecialist hsupported relativePath⟩ ⟨hnamed, htime⟩
        · rintro e t ⟨⟨_, ⟨⟩⟩, -⟩
      · refine Replace.ensures_orElse (P := fun r _ => ∃ e, r = .error e) ?_ ?_ ?_
        · exact .bind (ensures_verifyStaged_error htime) (by rintro _ _ ⟨_, ⟨⟩⟩)
            fun e _ _ => ⟨e, rfl⟩
        · rintro _ _ ⟨_, ⟨⟩⟩
        · intro e t _
          refine (ensures_cleanup e).mono ?_
          rintro _ _ ⟨e', rfl⟩
          exact iff_of_false not_replacedEqually fun h => htime h.2
  · refine .inr ⟨_, rfl, iff_of_false not_replacedEqually ?_⟩
    rintro ⟨hnamed', -⟩
    rw [hnamed] at hnamed'
    cases hnamed'

/-! ### A file and a link whose times are required -/

instance (source staged : FileItem) : Decidable (CopyOf source staged) :=
  decidable_of_iff (staged.modified = source.modified ∧ staged.mode = source.mode ∧
      (staged.content = source.content ∨
        source.itemType = .directory ∧ staged.itemType = .directory))
    ⟨fun ⟨hmodified, hmode, hcontent⟩ => ⟨hmodified, hmode, hcontent⟩,
      fun h => ⟨h.modified, h.mode, h.content⟩⟩

instance (source : FileItem) (label : ReplacementStep) (answer : CallAnswer ReplacementAnswer)
    (disk : ReplacementDisk) : Decidable (Faultless source label answer disk) :=
  decidable_of_iff (answer.fails = false ∧ answer.cancelled = false ∧
      (∀ kind ∈ [SiblingKind.temporary, .partialTransfer, .previous, .failed],
        disk.files (.sibling kind answer.extra.sequence) = none) ∧
      answer.extra.transferError = none ∧
      answer.extra.transferred.any fun staged => decide (CopyOf source staged)) (by
    have hkinds : ∀ kind : SiblingKind,
        kind ∈ [SiblingKind.temporary, .partialTransfer, .previous, .failed] := by
      intro kind
      cases kind <;> decide
    unfold Faultless
    simp only [hkinds, true_implies, Option.any_eq_true, decide_eq_true_eq])

/-- Every name is new, and the transfer makes a copy. -/
def copyingAnswers (staged : FileItem) (n : Nat) : CallAnswer ReplacementAnswer :=
  ⟨false, false, ⟨n.toUInt64, .source, staged, some staged, none⟩⟩

def replacingAll : Replace VerifiedReplacement :=
  performVerifiedReplacement sha256Of true everyRequirement .cleanup

/-- The source, and another file at the destination. -/
def besideOlder (source : FileItem) : ReplacementDisk :=
  ⟨fun path => match path with
    | .source => some source
    | .destination => some olderItem
    | _ => none, []⟩

def replacedOlder (source : FileItem) :
    Except ReplacementError VerifiedReplacement × ReplacementDisk :=
  replacingAll.outcome (copyingAnswers { source with identity := ⟨1, 11⟩ }) 0 (besideOlder source)

theorem returnsUnder_replacedOlder (source : FileItem)
    (h : replacingAll.AllowedSince (Faultless source)
      (copyingAnswers { source with identity := ⟨1, 11⟩ }) 0 (besideOlder source)) :
    replacingAll.ReturnsUnder (Faultless source) (besideOlder source) (replacedOlder source).1
      (replacedOlder source).2 :=
  returnsUnder_outcome h

theorem undisturbed_replacement_file :
    ReplacedEqually sha256Of everyRequirement ⟨[102]⟩ replacedSource
        (replacedOlder replacedSource).1 (replacedOlder replacedSource).2 ↔
      true = true ∧ ProvableTime everyRequirement replacedSource :=
  undisturbed_replacement_iff rfl rfl (by decide)
    (returnsUnder_replacedOlder replacedSource (by decide +kernel)) ⟨[102]⟩

def datedLink : FileItem := ⟨.symlink ⟨[102]⟩, 5, 0o777, ⟨1, 10⟩⟩

/-- A link of which timestamps are required is not replaced. -/
theorem undisturbed_replacement_not_equal :
    ¬ ∀ (sha256 : List UInt8 → Sha256) (metadata : MetadataRequirements)
      (policy : PartialTransferPolicy) (source : FileItem) (before after : ReplacementDisk)
      (r : Except ReplacementError VerifiedReplacement) (relativePath : PathBuf),
        metadata.specialist.any = false → before.files .source = some source →
          source.itemType ≠ .unsupported →
            (performVerifiedReplacement sha256 true metadata policy).ReturnsUnder
              (Faultless source) before r after →
                ReplacedEqually sha256 metadata relativePath source r after := by
  intro h
  have hequal := h _ _ _ datedLink _ _ _ ⟨[102]⟩ rfl rfl (by decide)
    (returnsUnder_replacedOlder datedLink (by decide +kernel))
  have herror : (replacedOlder datedLink).1 = .error .metadataMismatch := by
    decide +kernel
  rw [herror] at hequal
  exact not_replacedEqually hequal

end SyncPlus
