import SyncPlus.Lib.Sha256
import SyncPlus.Restore

/-!
# Restores that leave nothing behind

`restore_atomic_iff`: a restore leaves the recovered item and what stands at the
destination alone, installs what it has proved, and leaves neither a destination nor
a temporary behind an error, exactly when none of four calls fails: opening the
recovered file and proving the copy, after which the temporary is not removed, the
removal of a temporary, and the unlinking of one that is installed already.
-/

namespace SyncPlus

open Procedure CollisionSafeRestore

/-- Where the restore stages what it copies. -/
def restoreTemporary (lossy : LossyNames) (destination : AbsolutePath) : Option AbsolutePath :=
  destination.parent.bind fun parent =>
    destination.fileName.map fun name => parent ++ [restoreTemporaryName lossy name]

def AnyAnswer (_ : RestoreStep) (_ : CallAnswer RestoreAnswer) (_ : RestoreDisk) : Prop := True

abbrev RestoreCalls := List (RestoreStep × CallAnswer RestoreAnswer)

/-- What is promised of a restore. -/
structure RestoresWhole (lossy : LossyNames) (sha256 : List UInt8 → Sha256)
    (recovered destination : AbsolutePath) (content : Option ContentProof)
    (before : RestoreDisk) (r : Except RestoreFailure RestoreOutcome) (after : RestoreDisk) :
    Prop where
  recovered : after.files recovered = before.files recovered
  existing : ∀ item, before.files destination = some item → after.files destination = some item
  restored : r = .ok .restored → (∃ item bytes, after.files destination = some item ∧
    item.content = .file bytes ∧ content = some (.ofBytes sha256 bytes.bytes)) ∧
      ∀ temporary ∈ restoreTemporary lossy destination, after.files temporary = none
  failed : ∀ e, r = .error e → after.files destination = before.files destination ∧
    ∀ temporary ∈ restoreTemporary lossy destination, before.files temporary = none →
      after.files temporary = none

namespace RestoreStep

/-- The calls whose failure leaves something behind. -/
def leavesBehind : RestoreStep → Bool
  | openRecovered | temporaryProof | unlinkTemporary | removeTemporary => true
  | _ => false

end RestoreStep

/-- None of these calls failed. -/
def NothingLeft (calls : RestoreCalls) : Prop :=
  ∀ call ∈ calls, call.1.leavesBehind = true → call.2.fails = false

section

variable {lossy : LossyNames} {sha256 : List UInt8 → Sha256}
  {root recovered destination temporary parent : AbsolutePath} {content : Option ContentProof}
  {before s t : RestoreDisk} {item staged : FileItem} {bytes : FileBytes}
  {calls after own : RestoreCalls} {step : RestoreStep} {answer : CallAnswer RestoreAnswer}
  {provenance : RecoveryProvenance}

/-! ## Calls that leave nothing -/

theorem nothingLeft_append :
    NothingLeft (calls ++ own) ↔ NothingLeft calls ∧ NothingLeft own := List.forall_mem_append

theorem nothingLeft_snoc : NothingLeft (calls ++ [(step, answer)]) ↔
    NothingLeft calls ∧ (step.leavesBehind = true → answer.fails = false) := by
  rw [nothingLeft_append]
  simp [NothingLeft]

theorem NothingLeft.snoc (h : NothingLeft calls) (hstep : step.leavesBehind = false) :
    NothingLeft (calls ++ [(step, answer)]) := by
  refine nothingLeft_snoc.mpr ⟨h, fun hleaves => ?_⟩
  rw [hstep] at hleaves
  cases hleaves

theorem NothingLeft.snoc_answered (h : NothingLeft calls) (hanswer : answer.fails = false) :
    NothingLeft (calls ++ [(step, answer)]) := nothingLeft_snoc.mpr ⟨h, fun _ => hanswer⟩

theorem not_nothingLeft_snoc (hstep : step.leavesBehind = true) (hanswer : answer.fails = true) :
    ¬ NothingLeft (calls ++ [(step, answer)]) := by
  intro h
  have hfine := (nothingLeft_snoc.mp h).2 hstep
  rw [hanswer] at hfine
  cases hfine

theorem NothingLeft.smooth (h : NothingLeft calls) (hafter : Smooth step calls after) :
    NothingLeft after := by
  obtain ⟨own, rfl, hown⟩ := hafter
  exact nothingLeft_append.mpr ⟨h, fun call hcall _ => (hown call hcall).2⟩

theorem not_nothingLeft_broken (hafter : Broken step calls after)
    (hstep : step.leavesBehind = true) : ¬ NothingLeft after := by
  obtain ⟨own, rfl, hown, call, hcall, hfails⟩ := hafter
  intro h
  have hfine := (nothingLeft_append.mp h).2 call hcall (by rw [hown call hcall, hstep])
  rw [hfails] at hfine
  cases hfine

/-- Other calls come and go. -/
theorem NothingLeft.others (h : NothingLeft calls) (hown : ∀ call ∈ own,
    RestoreStep.leavesBehind call.1 = false) : NothingLeft (calls ++ own) := by
  refine nothingLeft_append.mpr ⟨h, fun call hcall hleaves => ?_⟩
  rw [hown call hcall] at hleaves
  cases hleaves

/-! ## Verdicts -/

/-- Whole exactly when no call has left something behind. -/
def RestoreVerdict (lossy : LossyNames) (sha256 : List UInt8 → Sha256)
    (recovered destination : AbsolutePath) (content : Option ContentProof)
    (before : RestoreDisk) (r : Except RestoreFailure RestoreOutcome) (calls : RestoreCalls)
    (after : RestoreDisk) : Prop :=
  RestoresWhole lossy sha256 recovered destination content before r after ↔ NothingLeft calls

/-- Nothing that matters has changed. -/
structure Untouched (lossy : LossyNames) (recovered destination : AbsolutePath)
    (before t : RestoreDisk) : Prop where
  atRecovered : t.files recovered = before.files recovered
  atDestination : t.files destination = before.files destination
  atTemporary : ∀ temporary ∈ restoreTemporary lossy destination,
    t.files temporary = before.files temporary

theorem Untouched.whole (h : Untouched lossy recovered destination before t)
    {r : Except RestoreFailure RestoreOutcome} (hr : r ≠ .ok .restored) :
    RestoresWhole lossy sha256 recovered destination content before r t := by
  refine ⟨h.atRecovered, fun item hitem => ?_, fun hok => absurd hok hr,
    fun e _ => ⟨h.atDestination, fun temporary htemporary hnone => ?_⟩⟩
  · rw [h.atDestination, hitem]
  · rw [h.atTemporary temporary htemporary, hnone]

theorem Untouched.verdict (h : Untouched lossy recovered destination before t)
    (hcalls : NothingLeft calls) {r : Except RestoreFailure RestoreOutcome}
    (hr : r ≠ .ok .restored) :
    RestoreVerdict lossy sha256 recovered destination content before r calls t :=
  iff_of_true (h.whole hr) hcalls

/-! ## Calls that change nothing that matters -/

/-- What is ensured with calls that leave nothing. -/
theorem ensuresAlong_others {φ α : Type} {p : RestoreCall φ α} {Q : Except φ α → RestoreDisk → Prop}
    (hcalls : NothingLeft calls) (h : p.Ensures AnyAnswer Q s)
    (hlabels : p.Labels fun step => RestoreStep.leavesBehind step = false) :
    p.EnsuresAlong AnyAnswer (fun r after t => Q r t ∧ NothingLeft after) calls s := by
  refine (EnsuresAlong.of_ensures h hlabels).mono ?_
  rintro r _ t ⟨hr, own, rfl, hown⟩
  exact ⟨hr, hcalls.others hown⟩

theorem ensures_canonicalizeRoot {Q : Except RestoreFailure AbsolutePath → RestoreDisk → Prop}
    (hok : Q (.ok root) s) (herror : ∀ e, Q (.error e) s) :
    (canonicalizeRoot root).Ensures AnyAnswer Q s := by
  refine .mapError (ensures_itemCall ?_ ?_ ?_)
  · rintro _ _ _ _ ⟨⟩
    exact hok
  · rintro _ _ _ ⟨⟩
  · exact fun _ => herror _

theorem ensures_existingAncestor (names : List Name) :
    (existingAncestor names).Ensures AnyAnswer (fun _ t => t = s) s := by
  induction names with
  | nil =>
      refine .bind_returns (P := fun _ t => t = s) (.call fun _ _ => ⟨_, rfl, rfl⟩) ?_
      rintro found t rfl
      cases found with
      | true => exact .pure rfl
      | false => exact .ofExcept rfl
  | cons name above ih =>
      refine .bind_returns (P := fun _ t => t = s) (.call fun _ _ => ⟨_, rfl, rfl⟩) ?_
      rintro found t rfl
      cases found with
      | true => exact .pure rfl
      | false => exact ih

theorem ensures_ensureParentWithinRoot :
    (ensureParentWithinRoot root parent).Ensures AnyAnswer (fun _ t => t = s) s := by
  refine ensures_guarded (ensures_canonicalizeRoot (.inl ⟨root, rfl, ?_⟩) fun e => .inr ⟨e, rfl, rfl⟩)
  refine .bind (ensures_existingAncestor parent.reverse) ?_ fun _ _ h => h
  rintro _ t rfl
  refine .bind (P := fun _ u => u = t) (.mapError (ensures_itemCall ?_ ?_ ?_)) ?_ fun _ _ h => h
  · rintro _ _ _ _ ⟨⟩
    rfl
  · rintro _ _ _ ⟨⟩
  · exact fun _ => rfl
  · rintro canonical _ rfl
    exact .ofExcept rfl

theorem labels_existingAncestor (names : List Name) :
    (existingAncestor names).Labels fun step => step.leavesBehind = false := by
  induction names with
  | nil =>
      refine .bind (.call rfl) fun found => ?_
      cases found with
      | true => exact .pure
      | false => exact .ofExcept
  | cons name above ih =>
      refine .bind (.call rfl) fun found => ?_
      cases found with
      | true => exact .pure
      | false => exact ih

theorem labels_ensureParentWithinRoot :
    (ensureParentWithinRoot root parent).Labels fun step => step.leavesBehind = false := by
  refine .bind (.mapError (.call rfl)) fun _ => ?_
  refine .bind (labels_existingAncestor _) fun _ => ?_
  exact .bind (.mapError (.call rfl)) fun _ => .ofExcept

/-- Directories are made above the destination only. -/
theorem ensures_createDirAll {item : FileItem} (hparent : destination.parent = some parent)
    (hitem : before.files recovered = some item)
    (h : Untouched lossy recovered destination before s) :
    (CollisionSafeRestore.createDirAll parent).Ensures AnyAnswer
      (fun _ t => Untouched lossy recovered destination before t) s := by
  have hlength : parent.length < destination.length := by
    unfold AbsolutePath.parent at hparent
    split at hparent
    · cases hparent
    · rename_i hne
      cases hparent
      rw [List.length_dropLast]
      have := List.length_pos_iff.mpr hne
      omega
  refine .mapError (ensures_itemCall ?_ ?_ ?_)
  · intro answer _ u v hcall
    split at hcall
    · cases hcall
      have hkept : ∀ path, (path <+: parent → s.files path ≠ none) →
          (makeDirectories s answer.extra.created parent).files path = s.files path := by
        intro path hthere
        exact if_neg fun hmade => hthere hmade.1 hmade.2
      refine ⟨?_, ?_, ?_⟩
      · rw [hkept recovered fun _ => by rw [h.atRecovered, hitem]; nofun,
          h.atRecovered]
      · rw [hkept destination fun hpath => ?_, h.atDestination]
        exact absurd hpath.length_le (by omega)
      · intro temporary htemporary
        rw [hkept temporary fun hpath => ?_, h.atTemporary _ htemporary]
        unfold restoreTemporary at htemporary
        rw [hparent, Option.bind_some] at htemporary
        obtain ⟨name, -, rfl⟩ := Option.map_eq_some_iff.mp htemporary
        exact absurd hpath.length_le (by simp)
    · cases hcall
  · exact fun _ _ _ _ => h
  · exact fun _ => h

/-! ## From the temporary on -/

/-- The copy stands at the temporary path, where nothing was, and nothing stands at the
destination. -/
structure CopyStaged (lossy : LossyNames) (recovered destination temporary : AbsolutePath)
    (item staged : FileItem) (before t : RestoreDisk) : Prop where
  temporary_eq : restoreTemporary lossy destination = some temporary
  recovered_ne : recovered ≠ temporary
  atRecovered : before.files recovered = some item ∧ t.files recovered = some item
  atDestination : before.files destination = none ∧ t.files destination = none
  atTemporary : before.files temporary = none ∧ t.files temporary = some staged
  regular : staged.itemType = .regularFile

/-- The temporary is beside the destination. -/
theorem restoreTemporary_ne (h : restoreTemporary lossy destination = some temporary) :
    temporary ≠ destination := by
  rintro rfl
  unfold restoreTemporary at h
  obtain ⟨parent, hparent, h⟩ := Option.bind_eq_some_iff.mp h
  obtain ⟨name, hname, heq⟩ := Option.map_eq_some_iff.mp h
  have hlast : temporary.getLast? = some (restoreTemporaryName lossy name) := by
    rw [← heq, List.getLast?_concat]
  have hsame : some name = some (restoreTemporaryName lossy name) := hname.symm.trans hlast
  exact restoreTemporaryName_ne lossy name (Option.some.inj hsame).symm

namespace CopyStaged

variable (h : CopyStaged lossy recovered destination temporary item staged before t)

include h

theorem destination_ne : recovered ≠ destination := by
  rintro rfl
  have hnone := h.atDestination.2
  rw [h.atRecovered.2] at hnone
  cases hnone

theorem mem_temporary {path : AbsolutePath} (hpath : path ∈ restoreTemporary lossy destination) :
    path = temporary := by
  rw [h.temporary_eq] at hpath
  exact (Option.some.inj hpath).symm

/-- An error that leaves the temporary behind, after a call that does so. -/
theorem verdict_left (hcalls : ¬ NothingLeft calls) (e : RestoreFailure) :
    RestoreVerdict lossy sha256 recovered destination content before (.error e) calls t := by
  refine iff_of_false (fun hwhole => ?_) hcalls
  have hnone := (hwhole.failed e rfl).2 temporary h.temporary_eq h.atTemporary.1
  rw [h.atTemporary.2] at hnone
  cases hnone

/-- An error after which the temporary is removed leaves nothing. -/
theorem verdict_removed (hcalls : NothingLeft calls) (e : RestoreFailure) :
    RestoreVerdict lossy sha256 recovered destination content before (.error e) calls
      (t.set temporary none) := by
  suffices Untouched lossy recovered destination before (t.set temporary none) from
    this.verdict hcalls (by simp)
  refine ⟨?_, ?_, ?_⟩
  · rw [ItemDisk.set_of_ne h.recovered_ne, h.atRecovered.1, h.atRecovered.2]
  · rw [ItemDisk.set_of_ne (restoreTemporary_ne h.temporary_eq).symm, h.atDestination.1,
      h.atDestination.2]
  · intro path hpath
    rw [h.mem_temporary hpath, ItemDisk.set_same, h.atTemporary.1]

/-- The file is written once more. -/
theorem write (modified : Int) (bytes : FileBytes) :
    CopyStaged lossy recovered destination temporary item
      { staged with content := .file bytes, modified } before
      (writeFile t temporary modified bytes) := by
  refine ⟨h.temporary_eq, h.recovered_ne, ⟨h.atRecovered.1, ?_⟩, ⟨h.atDestination.1, ?_⟩,
    ⟨h.atTemporary.1, ?_⟩, rfl⟩
  · unfold writeFile
    rw [ItemDisk.set_of_ne h.recovered_ne, h.atRecovered.2]
  · unfold writeFile
    rw [ItemDisk.set_of_ne (restoreTemporary_ne h.temporary_eq).symm, h.atDestination.2]
  · unfold writeFile
    rw [ItemDisk.set_same, h.atTemporary.2]
    rfl

end CopyStaged

theorem ensuresAlong_removeStaged (hstaged : s.files temporary = some staged)
    (hregular : staged.itemType = .regularFile)
    {Q : Except IoErrorKind Unit → RestoreCalls → RestoreDisk → Prop}
    (hok : ∀ answer, answer.fails = false →
      Q (.ok ()) (calls ++ [(step, answer)]) (s.set temporary none))
    (hfails : ∀ answer, answer.fails = true → Q (.error .other) (calls ++ [(step, answer)]) s) :
    (CollisionSafeRestore.removeFile step temporary).EnsuresAlong AnyAnswer Q calls s := by
  refine ensuresAlong_itemCall ?_ ?_ hfails
  · intro answer hanswer u v hcall
    simp only [hstaged, hregular, reduceCtorEq, if_false, Except.ok.injEq, Prod.mk.injEq] at hcall
    rw [← hcall.2]
    exact hok answer hanswer
  · intro answer _ kind hcall
    simp [hstaged, hregular] at hcall

/-- A part whose errors remove the temporary. -/
theorem ensuresAlong_orRemove_bind {α β : Type} {p : RestoreCall RestoreFailure α}
    {f : α → RestoreCall RestoreFailure β}
    {Q : Except RestoreFailure β → RestoreCalls → RestoreDisk → Prop}
    (hp : p.EnsuresAlong AnyAnswer (fun r after w =>
      (∃ a, r = .ok a ∧ (f a).EnsuresAlong AnyAnswer Q after w) ∨
        ∃ e, r = .error e ∧ (∃ staged, w.files temporary = some staged ∧
            staged.itemType = .regularFile) ∧
          (∀ answer, answer.fails = false →
            Q (.error e) (after ++ [(.removeTemporary, answer)]) (w.set temporary none)) ∧
          ∀ answer, answer.fails = true →
            Q (.error e) (after ++ [(.removeTemporary, answer)]) w) calls s) :
    (orRemoveTemporary temporary p >>= f).EnsuresAlong AnyAnswer Q calls s := by
  refine .guarded (.bind_returns (.attempt (hp.mono fun r after w hw => ⟨r, rfl, hw⟩)) ?_)
  rintro (e | a) after w hw
  · rcases hw with ⟨_, hr, _⟩ | ⟨_, hr, ⟨staged, hstaged, hregular⟩, hremoved, hkept⟩
    · cases hr
    · cases hr
      refine .bind_returns (P := fun _ after x => Q (.error e) after x)
        (.attempt (ensuresAlong_removeStaged hstaged hregular ?_ ?_)) ?_
      · exact fun answer hanswer => ⟨_, rfl, hremoved answer hanswer⟩
      · exact fun answer hanswer => ⟨_, rfl, hkept answer hanswer⟩
      · rintro _ after x hx
        exact .ofExcept (.inr ⟨e, rfl, hx⟩)
  · rcases hw with ⟨_, hr, hf⟩ | ⟨_, hr, _⟩
    · cases hr
      exact .pure (.inl ⟨a, rfl, hf⟩)
    · cases hr

/-- An error of a part that removes the temporary. -/
theorem CopyStaged.orRemove
    (h : CopyStaged lossy recovered destination temporary item staged before t)
    (hcalls : NothingLeft calls) (e : RestoreFailure) :
    (∃ staged, t.files temporary = some staged ∧ staged.itemType = .regularFile) ∧
      (∀ answer, answer.fails = false →
        RestoreVerdict lossy sha256 recovered destination content before (.error e)
          (calls ++ [(.removeTemporary, answer)]) (t.set temporary none)) ∧
      ∀ answer, answer.fails = true →
        RestoreVerdict lossy sha256 recovered destination content before (.error e)
          (calls ++ [(.removeTemporary, answer)]) t :=
  ⟨⟨staged, h.atTemporary.2, h.regular⟩,
    fun _ hanswer => h.verdict_removed (hcalls.snoc_answered hanswer) e,
    fun _ hanswer => h.verdict_left (not_nothingLeft_snoc rfl hanswer) e⟩

/-- What is installed is whole; where the temporary cannot be unlinked, the destination
stays behind an error. -/
theorem ensuresAlong_installWithoutReplacement {bytes : FileBytes}
    (h : CopyStaged lossy recovered destination temporary item staged before s)
    (hcalls : NothingLeft calls) (hbytes : staged.content = .file bytes)
    (hcontent : content = some (.ofBytes sha256 bytes.bytes)) :
    (orRemoveTemporary temporary (installWithoutReplacement temporary destination) >>= fun _ =>
      (pure .restored : RestoreCall RestoreFailure RestoreOutcome)).EnsuresAlong AnyAnswer
        (RestoreVerdict lossy sha256 recovered destination content before) calls s := by
  have hne := restoreTemporary_ne h.temporary_eq
  have hdestination := h.destination_ne
  refine ensuresAlong_orRemove_bind (.guarded (.mapError (ensuresAlong_itemCall ?_ ?_ ?_)))
  · intro linked _ u v hcall
    simp only [h.atTemporary.2, h.atDestination.2, Except.ok.injEq, Prod.mk.injEq] at hcall
    obtain ⟨-, rfl⟩ := hcall
    have hlinked : NothingLeft (calls ++ [(.linkDestination, linked)]) := hcalls.snoc rfl
    have htemporary : (s.set destination (some staged)).files temporary = some staged := by
      rw [ItemDisk.set_of_ne hne, h.atTemporary.2]
    -- the destination is there from here on
    have hinstalled : ∀ (x : RestoreDisk) (after : RestoreCalls) (e : RestoreFailure),
        x.files destination = some staged → ¬ NothingLeft after →
          RestoreVerdict lossy sha256 recovered destination content before (.error e) after x := by
      intro x after e hx hafter
      refine iff_of_false (fun hwhole => ?_) hafter
      have hsame := (hwhole.failed e rfl).1
      rw [hx, h.atDestination.1] at hsame
      cases hsame
    refine .inl ⟨u, rfl, .mapError (ensuresAlong_removeStaged htemporary h.regular ?_ ?_)⟩
    · intro answer hanswer
      refine .inl ⟨(), rfl, .pure (iff_of_true ⟨?_, ?_, fun _ => ⟨⟨staged, bytes, ?_, hbytes,
        hcontent⟩, ?_⟩, by rintro _ ⟨⟩⟩ (hlinked.snoc_answered hanswer))⟩
      · rw [ItemDisk.set_of_ne h.recovered_ne, ItemDisk.set_of_ne hdestination,
          h.atRecovered.1, h.atRecovered.2]
      · intro found hfound
        rw [h.atDestination.1] at hfound
        cases hfound
      · rw [ItemDisk.set_of_ne hne.symm, ItemDisk.set_same]
      · intro path hpath
        rw [h.mem_temporary hpath, ItemDisk.set_same]
    · intro answer hanswer
      have hbroken : ¬ NothingLeft (calls ++ [(.linkDestination, linked)] ++
          [(.unlinkTemporary, answer)]) := not_nothingLeft_snoc rfl hanswer
      refine .inr ⟨_, rfl, ⟨staged, htemporary, h.regular⟩, fun _ _ => ?_, fun _ _ => ?_⟩
      · refine hinstalled _ _ _ ?_ fun hnone => hbroken (nothingLeft_append.mp hnone).1
        rw [ItemDisk.set_of_ne hne.symm, ItemDisk.set_same]
      · exact hinstalled _ _ _ ItemDisk.set_same fun hnone => hbroken (nothingLeft_append.mp hnone).1
  · intro answer _ kind hcall
    simp [h.atTemporary.2, h.atDestination.2] at hcall
  · exact fun _ _ => .inr ⟨_, rfl, .inr ⟨_, rfl, h.orRemove (hcalls.snoc rfl) _⟩⟩

theorem ensuresAlong_copyAndInstall {bytes : FileBytes} {expected : ContentProof}
    (h : CopyStaged lossy recovered destination temporary item staged before s)
    (hcalls : NothingLeft calls) (hbytes : item.content = .file bytes)
    (hexpected : ContentProof.ofBytes sha256 bytes.bytes = expected)
    (hcontent : content = some expected) :
    (copyAndInstall sha256 recovered destination temporary expected).EnsuresAlong AnyAnswer
      (RestoreVerdict lossy sha256 recovered destination content before) calls s := by
  refine .guarded (.mapError (ensuresAlong_itemCall ?_ ?_ ?_))
  · intro opened hanswer u v hcall
    simp only [h.atRecovered.2, Except.ok.injEq, Prod.mk.injEq] at hcall
    obtain ⟨-, rfl⟩ := hcall
    have hopened : NothingLeft (calls ++ [(.openRecovered, opened)]) := hcalls.snoc_answered hanswer
    refine .inl ⟨u, rfl, ensuresAlong_orRemove_bind (.call fun copied _ => ?_)⟩
    have hcopied : NothingLeft (calls ++ [(.openRecovered, opened)] ++ [(.copy, copied)]) :=
      hopened.snoc rfl
    split
    · exact .inr ⟨_, rfl, (h.write _ _).orRemove hcopied _⟩
    · have hread : s.files recovered = some { item with content := .file bytes } := by
        rw [h.atRecovered.2, ← hbytes]
      rw [hread]
      dsimp only
      have hwritten := h.write copied.extra.created.modified bytes
      generalize writeFile s temporary copied.extra.created.modified bytes = t at hwritten ⊢
      refine .inl ⟨(), rfl, ensuresAlong_orRemove_bind (.mapError (ensuresAlong_itemCall ?_ ?_ ?_))⟩
      · rintro answer _ _ _ ⟨⟩
        have hsynced : NothingLeft (calls ++ [(.openRecovered, opened)] ++ [(.copy, copied)] ++
          [(.syncTemporary, answer)]) := hcopied.snoc rfl
        refine .inl ⟨(), rfl, .guarded (.mapError (ensuresAlong_fromPath hwritten.atTemporary.2 rfl
          ?_ ?_))⟩
        · intro after hafter
          have hproved := hsynced.smooth hafter
          refine .inl ⟨_, rfl, ensuresAlong_orRemove_bind (.ofExcept (.inl ⟨(), ?_, ?_⟩))⟩
          · exact ensure_of hexpected.symm
          · refine ensuresAlong_orRemove_bind (.bind_returns (P := fun r later x => x = t ∧
              NothingLeft later ∧ ∃ e, r = .error e)
                (.attempt (ensuresAlong_itemMetadata ?_ ?_ ?_)) ?_)
            · intro answer found _ hfound
              rw [hwritten.atDestination.2] at hfound
              cases hfound
            · exact fun _ _ _ => ⟨_, rfl, rfl, hproved.snoc rfl, _, rfl⟩
            · exact fun _ _ => ⟨_, rfl, rfl, hproved.snoc rfl, _, rfl⟩
            · rintro _ later x ⟨rfl, hlater, e, rfl⟩
              exact .pure (.inl ⟨(), rfl, ensuresAlong_installWithoutReplacement hwritten hlater rfl
                (hcontent.trans (congrArg some hexpected.symm))⟩)
        · intro e after hafter
          exact .inr ⟨_, rfl, hwritten.verdict_left (not_nothingLeft_broken hafter rfl) _⟩
      · rintro _ _ _ ⟨⟩
      · exact fun _ _ => .inr ⟨_, rfl, hwritten.orRemove (hcopied.snoc rfl) _⟩
  · intro answer _ kind hcall
    simp [h.atRecovered.2] at hcall
  · exact fun _ hanswer => .inr ⟨_, rfl, h.verdict_left (not_nothingLeft_snoc rfl hanswer) _⟩

theorem ensuresAlong_restoreVacant {bytes : FileBytes} {expected : ContentProof}
    (h : Untouched lossy recovered destination before s) (hcalls : NothingLeft calls)
    (hvacant : before.files destination = none) (hitem : before.files recovered = some item)
    (hbytes : item.content = .file bytes)
    (hexpected : ContentProof.ofBytes sha256 bytes.bytes = expected)
    (hcontent : content = some expected) :
    (restoreVacant lossy sha256 root recovered destination expected).EnsuresAlong AnyAnswer
      (RestoreVerdict lossy sha256 recovered destination content before) calls s := by
  have hunchanged : ∀ {t : RestoreDisk} {after : RestoreCalls} (e : RestoreFailure),
      Untouched lossy recovered destination before t → NothingLeft after →
        RestoreVerdict lossy sha256 recovered destination content before (.error e) after t :=
    fun e ht hafter => ht.verdict hafter (by simp)
  refine .bind_returns (P := fun _ after t => t = s ∧ NothingLeft after)
    (.call fun _ _ => ⟨_, rfl, rfl, hcalls.snoc rfl⟩) ?_
  rintro cancelled after _ ⟨rfl, hafter⟩
  refine .ofExcept_bind (fun _ _ => ?_) fun e _ => hunchanged e h hafter
  refine .ofExcept_bind (fun parent hparent => ?_) fun e _ => hunchanged e h hafter
  have hparent : destination.parent = some parent := orError_eq_ok.mp hparent
  refine .bind (ensuresAlong_others hafter ensures_ensureParentWithinRoot
    labels_ensureParentWithinRoot) ?_ (by rintro e after _ ⟨rfl, hafter⟩; exact hunchanged e h hafter)
  rintro _ after _ ⟨rfl, hafter⟩
  refine .bind (ensuresAlong_others hafter (ensures_createDirAll hparent hitem h)
    (.mapError (.call rfl))) ?_ fun e _ _ ht => hunchanged e ht.1 ht.2
  rintro _ after t ⟨ht, hafter⟩
  refine .bind (ensuresAlong_others hafter ensures_ensureParentWithinRoot
    labels_ensureParentWithinRoot) ?_ (by rintro e after _ ⟨rfl, hafter⟩; exact hunchanged e ht hafter)
  rintro _ after t ⟨rfl, hafter⟩
  refine .ofExcept_bind (fun name hname => ?_) fun e _ => hunchanged e ht hafter
  have htemporary : restoreTemporary lossy destination =
      some (parent ++ [restoreTemporaryName lossy name]) := by
    unfold restoreTemporary
    rw [hparent, Option.bind_some, orError_eq_ok.mp hname]
    rfl
  generalize parent ++ [restoreTemporaryName lossy name] = temporary at htemporary ⊢
  refine .bind_returns (P := fun _ later u => u = t ∧ NothingLeft later)
    (.attempt (ensuresAlong_itemMetadata ?_ ?_ ?_)) ?_
  · exact fun _ _ _ _ => ⟨_, rfl, rfl, hafter.snoc rfl⟩
  · exact fun _ _ _ => ⟨_, rfl, rfl, hafter.snoc rfl⟩
  · exact fun _ _ => ⟨_, rfl, rfl, hafter.snoc rfl⟩
  · rintro (_ | _) later u ⟨rfl, hlater⟩
    · refine .guarded (.mapError (ensuresAlong_itemCall ?_ ?_ ?_))
      · intro answer _ v w hcall
        split at hcall
        · cases hcall
        · rename_i hnone
          cases hcall
          have hfree : before.files temporary = none := by
            rw [← ht.atTemporary temporary htemporary, hnone]
          have hne : recovered ≠ temporary := by
            rintro rfl
            rw [hitem] at hfree
            cases hfree
          refine .inl ⟨(), rfl, ensuresAlong_copyAndInstall ⟨htemporary, hne, ⟨hitem, ?_⟩,
            ⟨hvacant, ?_⟩, ⟨hfree, ItemDisk.set_same⟩, rfl⟩ (hlater.snoc rfl) hbytes hexpected
            hcontent⟩
          · rw [ItemDisk.set_of_ne hne, ht.atRecovered, hitem]
          · rw [ItemDisk.set_of_ne (restoreTemporary_ne htemporary).symm, ht.atDestination, hvacant]
      · exact fun _ _ _ _ => .inr ⟨_, rfl, hunchanged _ ht (hlater.snoc rfl)⟩
      · exact fun _ _ => .inr ⟨_, rfl, hunchanged _ ht (hlater.snoc rfl)⟩
    · exact .ofExcept (hunchanged _ ht hlater)

/-! ## The parts before the copy -/

theorem ensures_destination :
    (provenance.destination root).Ensures AnyAnswer
      (fun r t => t = s ∧ ∀ found, r = .ok found → found = provenance.destinationPath root) s := by
  refine ensures_guarded (ensures_canonicalizeRoot (.inl ⟨root, rfl, ?_⟩)
    fun e => .inr ⟨e, rfl, rfl, by rintro _ ⟨⟩⟩)
  refine .ofExcept_bind (fun _ _ => .pure ⟨rfl, ?_⟩) fun e _ => ⟨rfl, by rintro _ ⟨⟩⟩
  rintro _ ⟨⟩
  rfl

theorem labels_destination :
    (provenance.destination root).Labels fun step => step.leavesBehind = false :=
  .bind (.mapError (.call rfl)) fun _ => .bind .ofExcept fun _ => .pure

/-- The recovered file is what was removed. -/
theorem ensures_verifyRecovered :
    (verifyRecovered sha256 recovered provenance).Ensures AnyAnswer
      (fun r t => t = s ∧ ∀ expected, r = .ok expected →
        provenance.content = some expected ∧ ∃ item bytes, s.files recovered = some item ∧
          item.content = .file bytes ∧ ContentProof.ofBytes sha256 bytes.bytes = expected) s := by
  refine ensures_guarded (.mapError (ensures_itemMetadata ?_ ?_ ?_))
  · intro item _
    refine .inl ⟨item, rfl, .ofExcept_bind (fun _ _ => ?_) fun e _ => ⟨rfl, by rintro _ ⟨⟩⟩⟩
    refine .ofExcept_bind (fun expected hexpected => ?_) fun e _ => ⟨rfl, by rintro _ ⟨⟩⟩
    refine ensures_guarded (.mapError (ensures_fromPathWithCancel ?_ ?_))
    · intro found bytes hfound hbytes
      refine .inl ⟨_, rfl, .ofExcept_bind (fun _ hsame => .pure ⟨rfl, ?_⟩)
        fun e _ => ⟨rfl, by rintro _ ⟨⟩⟩⟩
      rintro _ ⟨⟩
      exact ⟨orError_eq_ok.mp hexpected, found, bytes, hfound, hbytes, (ensure_eq_ok.mp hsame).symm⟩
    · exact fun e _ => .inr ⟨_, rfl, rfl, by rintro _ ⟨⟩⟩
  · exact fun _ => .inr ⟨_, rfl, rfl, by rintro _ ⟨⟩⟩
  · exact fun _ => .inr ⟨_, rfl, rfl, by rintro _ ⟨⟩⟩

theorem labels_verifyRecovered :
    (verifyRecovered sha256 recovered provenance).Labels fun step => step.leavesBehind = false := by
  refine .bind (.mapError (.call rfl)) fun _ => .bind .ofExcept fun _ => .bind .ofExcept fun _ => ?_
  exact .bind (.mapError (labels_fromPath (by rfl))) fun _ => .bind .ofExcept fun _ => .pure

theorem ensures_matchExisting {expected : ContentProof} :
    (matchExisting sha256 destination expected item).Ensures AnyAnswer
      (fun r t => t = s ∧ r ≠ .ok .restored) s := by
  refine .bind (P := fun _ t => t = s) ?_ ?_ fun e t ht => ⟨ht, nofun⟩
  · unfold hasContent
    split
    · refine .bind (P := fun _ t => t = s) (.mapError (ensures_fromPathWithCancel
        (fun _ _ _ _ => rfl) fun _ _ => rfl)) ?_ fun _ _ h => h
      rintro _ _ rfl
      exact .pure rfl
    · exact .pure rfl
  · rintro present _ rfl
    exact .ofExcept_bind (fun _ _ => .pure ⟨rfl, nofun⟩) fun e _ => ⟨rfl, nofun⟩

theorem labels_matchExisting {expected : ContentProof} :
    (matchExisting sha256 destination expected item).Labels
      fun step => step.leavesBehind = false := by
  refine .bind ?_ fun _ => .bind .ofExcept fun _ => .pure
  unfold hasContent
  split
  · exact .bind (.mapError (labels_fromPath (by rfl))) fun _ => .pure
  · exact .pure

end

/-- **A restore is whole exactly when** none of the four calls fails whose failure
leaves something behind. -/
theorem restore_atomic_iff {lossy : LossyNames} {sha256 : List UInt8 → Sha256}
    {root recovered : AbsolutePath} {provenance : RecoveryProvenance} {before after : RestoreDisk}
    {calls : RestoreCalls} {r : Except RestoreFailure RestoreOutcome}
    (hrun : (restore lossy sha256 root recovered provenance).ReturnsAlong AnyAnswer before calls r
      after) :
    RestoresWhole lossy sha256 recovered (provenance.destinationPath root) provenance.content
      before r after ↔ NothingLeft calls := by
  suffices (restore lossy sha256 root recovered provenance).EnsuresAlong AnyAnswer
      (RestoreVerdict lossy sha256 recovered (provenance.destinationPath root) provenance.content
        before) [] before from (hrun.of_ensuresAlong this :)
  have hself : Untouched lossy recovered (provenance.destinationPath root) before before :=
    ⟨rfl, rfl, fun _ _ => rfl⟩
  have hunchanged : ∀ (e : RestoreFailure) {earlier : RestoreCalls}, NothingLeft earlier →
      RestoreVerdict lossy sha256 recovered (provenance.destinationPath root) provenance.content
        before (.error e) earlier before := fun e _ hearlier => hself.verdict hearlier nofun
  have hnone : NothingLeft [] := List.forall_mem_nil _
  refine .ofExcept_bind (fun _ _ => ?_) fun e _ => hunchanged e hnone
  refine .ofExcept_bind (fun _ _ => ?_) fun e _ => hunchanged e hnone
  refine .bind (ensuresAlong_others hnone ensures_destination labels_destination) ?_
    (by rintro e earlier _ ⟨⟨rfl, -⟩, hearlier⟩; exact hunchanged e hearlier)
  rintro destination earlier _ ⟨⟨rfl, hdestination⟩, hearlier⟩
  obtain rfl := hdestination destination rfl
  refine .bind (ensuresAlong_others hearlier ensures_verifyRecovered labels_verifyRecovered) ?_
    (by rintro e earlier _ ⟨⟨rfl, -⟩, hearlier⟩; exact hunchanged e hearlier)
  rintro expected earlier t ⟨⟨rfl, hverified⟩, hearlier⟩
  obtain ⟨hcontent, item, bytes, hitem, hbytes, hproof⟩ := hverified expected rfl
  refine .bind_returns (P := fun r earlier u => u = t ∧ NothingLeft earlier ∧ (r = .error .notFound →
    t.files (provenance.destinationPath root) = none)) (.attempt (ensuresAlong_itemMetadata ?_ ?_ ?_))
    ?_
  · exact fun _ _ _ _ => ⟨_, rfl, rfl, hearlier.snoc rfl, by rintro ⟨⟩⟩
  · exact fun _ _ hvacant => ⟨_, rfl, rfl, hearlier.snoc rfl, fun _ => hvacant⟩
  · exact fun _ _ => ⟨_, rfl, rfl, hearlier.snoc rfl, by rintro ⟨⟩⟩
  · rintro (kind | existing) earlier u ⟨rfl, hearlier, hvacant⟩
    · cases kind with
      | notFound =>
          exact ensuresAlong_restoreVacant hself hearlier (hvacant rfl) hitem hbytes hproof hcontent
      | alreadyExists => exact .ofExcept (hunchanged _ hearlier)
      | other => exact .ofExcept (hunchanged _ hearlier)
    · refine (ensuresAlong_others hearlier ensures_matchExisting labels_matchExisting).mono ?_
      rintro r earlier _ ⟨⟨rfl, hr⟩, hearlier⟩
      exact hself.verdict hearlier hr

/-! ### A file that is restored -/

def removedBytes : FileBytes := twoBytes

def recoveredFile : FileItem := ⟨.file removedBytes, 5, 0o644, ⟨1, 10⟩⟩

def removedProvenance : RecoveryProvenance where
  actionId := none
  peer := "a"
  originalRoot := ⟨[47, 97]⟩
  relativePath := ⟨[102]⟩
  runId := ⟨1⟩
  removedAtUnixNanos := 7
  recoveryMethod := .trash
  verificationState := .verified
  itemType := .regularFile
  content := some (.ofBytes sha256Of removedBytes.bytes)
  sourceIdentity := none
  symlinkTarget := none
  relative_valid := by decide
  root_valid := by decide
  peer_valid := by decide

def recoveredPath : AbsolutePath := [[98], [102]]

def beforeRestore : RestoreDisk :=
  ⟨fun path =>
    if path = recoveredPath then some recoveredFile
    else if path = [[97]] then some { recoveredFile with content := .directory [] 0 }
    else none, []⟩

/-- The calls of these numbers fail. -/
def restoreAnswers (failing : List Nat) (n : Nat) : CallAnswer RestoreAnswer :=
  ⟨decide (n ∈ failing), false, ⟨true, [[97]], recoveredFile, .empty⟩⟩

def restoringFile : RestoreCall RestoreFailure RestoreOutcome :=
  restore .utf8 sha256Of [[97]] recoveredPath removedProvenance

def restoredFile (failing : List Nat) : Except RestoreFailure RestoreOutcome × RestoreDisk :=
  restoringFile.outcome (restoreAnswers failing) 0 beforeRestore

def restoredCalls (failing : List Nat) : RestoreCalls :=
  restoringFile.callsOf (restoreAnswers failing) 0 beforeRestore

theorem restoredFile_returns (failing : List Nat) : restoringFile.ReturnsAlong AnyAnswer
    beforeRestore (restoredCalls failing) (restoredFile failing).1 (restoredFile failing).2 :=
  returnsAlong_outcome (allowedSince_of_forall (fun _ _ _ => trivial) _ _ _)

/-- Nothing fails, and the file is at its place. -/
theorem restore_atomic_restored : (restoredFile []).1 = .ok .restored ∧
    RestoresWhole .utf8 sha256Of recoveredPath (removedProvenance.destinationPath [[97]])
      removedProvenance.content beforeRestore (restoredFile []).1 (restoredFile []).2 :=
  ⟨by decide +kernel, (restore_atomic_iff (restoredFile_returns [])).mpr
    (by unfold NothingLeft; decide +kernel)⟩

/-- The recovered file cannot be opened for the copy: the temporary stays, and the next
restore is refused. -/
theorem restore_not_atomic :
    ¬ ∀ (lossy : LossyNames) (sha256 : List UInt8 → Sha256) (root recovered : AbsolutePath)
      (provenance : RecoveryProvenance) (before after : RestoreDisk) (calls : RestoreCalls)
      (r : Except RestoreFailure RestoreOutcome),
        (restore lossy sha256 root recovered provenance).ReturnsAlong AnyAnswer before calls r
            after →
          RestoresWhole lossy sha256 recovered (provenance.destinationPath root)
            provenance.content before r after := by
  intro h
  have hwhole := h .utf8 sha256Of [[97]] recoveredPath removedProvenance _ _ _ _
    (restoredFile_returns [19])
  have herror : (restoredFile [19]).1 = .error (.io .other) := by
    decide +kernel
  have htemporary : restoreTemporary .utf8 (removedProvenance.destinationPath [[97]]) =
      some [[97], restoreTemporaryName .utf8 [102]] := by
    decide +kernel
  have hleft : (restoredFile [19]).2.files [[97], restoreTemporaryName .utf8 [102]] = none :=
    (hwhole.failed _ herror).2 _ htemporary (by decide +kernel)
  exact absurd hleft (by decide +kernel)

end SyncPlus
