import SyncPlus.SafeDelete

/-!
# A removal loses nothing

`loses_nothing`: whatever call of a removal fails, an error that is not in doubt leaves the
source as it was; a removal with recovery that succeeds leaves no source, and its item at
the recorded target; and in between the item is at the source, at the guard or at the
target. What is at any other path stays there.

Most calls only look (`Steady`). The others make what was not there, so the guard keeps the
item from its creation on, whatever becomes of the source.
-/

namespace SyncPlus

open Procedure

namespace SafeDelete

/-! ## What is promised -/

/-- Any call may fail. -/
def AnyCall (_ : Unit) (_ : CallAnswer RemovalAnswer) (_ : RemovalDisk) : Prop := True

/-- What a recovered item has of the source. -/
structure Recovered (requirements : MetadataRequirements) (item found : FileItem) : Prop where
  content : found.content = item.content
  mode : found.mode = item.mode
  modified : requirements.timestamps = true → found.modified = item.modified

/-- The target of an item that is recovered. -/
def recoveryTarget (method : RecoveryMethod) (item : ItemPath) : Option AbsolutePath :=
  match recoveryPaths method item with
  | .ok (some (target, _)) => some target
  | _ => none

/-- What is promised of a removal, with a target when it recovers the item. -/
structure LosesNothing (request : RemovalRequest) (item : FileItem) (target : Option AbsolutePath)
    (before : RemovalDisk) (r : Except RemovalError RemovalAttempt) (after : RemovalDisk) :
    Prop where
  kept : ∀ e, r = .error e → e.isUncertain = false → after.files request.source = some item
  recovered : ∀ attempt, r = .ok attempt → ∀ path ∈ target,
    attempt.recoveryTarget = some path ∧ after.files request.source = none ∧
      ∃ found, after.files path = some found ∧ Recovered request.requirements item found
  held : target.isSome = true → ∃ path found, after.files path = some found ∧
    found.content = item.content ∧ (path = request.source ∨
      before.files path = none ∧ (path ∈ target ∨ .guarded path ∈ after.log))
  others : ∀ path found, path ≠ request.source → before.files path = some found →
    after.files path = some found

/-! ## Calls that only look -/

/-- The procedure changes nothing. -/
def Steady {φ α : Type} (p : RemovalCall φ α) : Prop :=
  ∀ s, p.Ensures AnyCall (fun _ t => t = s) s

namespace Steady

variable {φ φ' α β : Type} {p : RemovalCall φ α} {path : AbsolutePath}

theorem pure {a : α} : Steady (Pure.pure a : RemovalCall φ α) := fun _ => .pure rfl

theorem ofExcept {r : Except φ α} : Steady (Procedure.ofExcept r : RemovalCall φ α) :=
  fun _ => .ofExcept rfl

theorem bind {f : α → RemovalCall φ β} (hp : Steady p) (hf : ∀ a, Steady (f a)) :
    Steady (p >>= f) := by
  intro s
  refine .bind (hp s) ?_ fun _ _ h => h
  rintro a _ rfl
  exact hf a _

theorem attempt (hp : Steady p) : Steady (p.attempt : RemovalCall φ' (Except φ α)) :=
  fun s => .attempt (hp s)

theorem mapError {f : φ → φ'} (hp : Steady p) : Steady (p.mapError f) := fun s => .mapError (hp s)

theorem fsCall {f : CallAnswer RemovalAnswer → RemovalDisk → Except IoErrorKind (α × RemovalDisk)}
    (hf : ∀ answer disk a t, f answer disk = .ok (a, t) → t = disk) :
    Steady (ItemCall.fsCall () f) := by
  intro s
  refine ensures_itemCall ?_ ?_ ?_
  · exact fun answer _ a t h => hf answer s a t h
  · exact fun _ _ _ _ => rfl
  · exact fun _ => rfl

theorem metadata : Steady (ItemCall.symlinkMetadata () path : RemovalCall _ _) := by
  refine fsCall fun _ disk item t h => ?_
  split at h
  · cases h
    rfl
  · cases h

theorem touch : Steady touch := fsCall fun _ _ _ _ h => by cases h; rfl

theorem openNoFollow : Steady (ItemCall.openNoFollow () path : RemovalCall _ _) := by
  refine fsCall fun _ disk item t h => ?_
  split at h
  · split at h
    · cases h
    · cases h
      rfl
  · cases h

theorem openAt : Steady (openAt path) := by
  refine fsCall fun _ disk item t h => ?_
  split at h
  · split at h
    · cases h
      rfl
    · cases h
  · cases h

theorem pathExists : Steady (pathExists path) := fun _ => .call fun _ _ => rfl

theorem nextSequence : Steady nextSequence := fun _ => .call fun _ _ => rfl

theorem readToEnd : Steady (readToEnd () false path : RemovalCall _ _) := by
  refine fun s => .call fun answer _ => ?_
  repeat' split
  all_goals rfl

theorem capture : Steady (FileMetadataProof.capture () path : RemovalCall _ _) := by
  refine metadata.mapError.bind fun item => ?_
  split
  · refine Steady.bind (fun _ => .call fun _ _ => rfl) fun _ => pure
  · exact pure

/-- A part that only looks, before the rest. -/
theorem ensures {f : α → RemovalCall φ β} {Q : Except φ β → RemovalDisk → Prop} {s : RemovalDisk}
    (hp : Steady p) (hf : ∀ a, (f a).Ensures AnyCall Q s) (herror : ∀ e, Q (.error e) s) :
    (p >>= f).Ensures AnyCall Q s := by
  refine .bind (hp s) ?_ ?_
  · rintro a _ rfl
    exact hf a
  · rintro e _ rfl
    exact herror e

theorem ensures_attempt {f : Except φ α → RemovalCall φ' β} {Q : Except φ' β → RemovalDisk → Prop}
    {s : RemovalDisk} (hp : Steady p) (hf : ∀ r, (f r).Ensures AnyCall Q s) :
    (p.attempt >>= f).Ensures AnyCall Q s := by
  refine .bind_returns (P := fun _ t => t = s) (.attempt ((hp s).mono fun r t ht => ⟨r, rfl, ht⟩)) ?_
  rintro r _ rfl
  exact hf r

end Steady

section

variable {sha256 : List UInt8 → Sha256} {proof : VerifiedTransferProof}
  {requirements : MetadataRequirements} {request : RemovalRequest} {path root : AbsolutePath}
  {directory : RelativePath} {paths : List AbsolutePath}

theorem steady_openDirectory : Steady (openDirectory path) :=
  Steady.metadata.mapError.bind fun _ => Steady.ofExcept.bind fun _ =>
    Steady.touch.mapError.bind fun _ => Steady.metadata.mapError.bind fun _ => .ofExcept

theorem steady_openRelativeParent : Steady (openRelativeParent root directory) := by
  refine steady_openDirectory.bind fun _ => ?_
  induction directoriesBelow root directory with
  | nil => exact .pure
  | cons path rest ih => exact Steady.openAt.mapError.bind fun _ => ih

theorem steady_contentFromReader : Steady (contentFromReader sha256 path) :=
  Steady.readToEnd.mapError.bind fun _ => .pure

theorem steady_ensureSourceEntryMatches : Steady (ensureSourceEntryMatches sha256 proof path) := by
  refine Steady.metadata.mapError.bind fun _ => Steady.ofExcept.bind fun _ => ?_
  refine Steady.ofExcept.bind fun _ => Steady.ofExcept.bind fun _ => ?_
  split
  · exact .pure
  · refine Steady.openNoFollow.mapError.bind fun _ => Steady.touch.mapError.bind fun _ => ?_
    refine Steady.metadata.mapError.bind fun _ => Steady.ofExcept.bind fun _ => ?_
    refine steady_contentFromReader.bind fun _ => ?_
    exact Steady.metadata.mapError.bind fun _ => .ofExcept

theorem steady_verifyRecoveryFile :
    Steady (verifyRecoveryFile sha256 proof requirements path) := by
  refine Steady.metadata.mapError.bind fun _ => Steady.ofExcept.bind fun _ => ?_
  refine Steady.touch.mapError.bind fun _ => steady_contentFromReader.bind fun _ => ?_
  exact Steady.metadata.mapError.bind fun _ => .ofExcept

theorem steady_verifyRecoveryEntry :
    Steady (verifyRecoveryEntry sha256 proof requirements path) := by
  unfold verifyRecoveryEntry
  split
  · exact Steady.capture.mapError.bind fun _ => .ofExcept
  · exact Steady.openNoFollow.mapError.bind fun _ => steady_verifyRecoveryFile

theorem steady_lockSource : Steady (lockSource sha256 request) :=
  steady_openRelativeParent.bind fun _ => steady_ensureSourceEntryMatches

theorem steady_ensureEntryAbsent : Steady (ensureEntryAbsent path) := by
  refine Steady.metadata.attempt.bind fun r => ?_
  split
  · exact .ofExcept
  · exact .pure
  · exact .ofExcept

theorem steady_canonicalDirectory {label : String} : Steady (canonicalDirectory path label) :=
  Steady.metadata.mapError.bind fun _ => Steady.ofExcept.bind fun _ => Steady.touch.mapError

theorem steady_validateRecoveryRoot : Steady (validateRecoveryRoot request root) := by
  refine steady_canonicalDirectory.bind fun _ => steady_canonicalDirectory.bind fun _ => ?_
  refine Steady.ofExcept.bind fun _ => Steady.metadata.mapError.bind fun _ => ?_
  refine Steady.bind ?_ fun _ => ?_
  · split
    · exact .pure
    · exact (Steady.fsCall fun _ _ _ _ h => by cases h; rfl).mapError
  · refine Steady.ofExcept.bind fun _ => Steady.metadata.mapError.bind fun _ => ?_
    exact Steady.metadata.mapError.bind fun _ => .pure

theorem steady_ensureRecoverySpace {required : UInt64} : Steady (ensureRecoverySpace required) :=
  (Steady.fsCall fun _ _ _ _ h => by cases h; rfl).mapError.bind fun _ =>
    Steady.ofExcept.bind fun _ => .ofExcept

end

/-! ## Calls that make what was not there -/

/-- What was there stays there. -/
def Extends (s t : RemovalDisk) : Prop :=
  ∀ path found, s.files path = some found → t.files path = some found

/-- Only at a path that was vacant is anything new. -/
structure NewAt (record : AbsolutePath) (s t : RemovalDisk) : Prop where
  elsewhere : ∀ path, path ≠ record → t.files path = s.files path
  vacant : s.files record = none

section

variable {s t u : RemovalDisk} {path root record : AbsolutePath} {item : FileItem}

theorem Extends.refl : Extends s s := fun _ _ h => h

theorem Extends.trans (h : Extends s t) (h' : Extends t u) : Extends s u :=
  fun path found hfound => h' path found (h path found hfound)

theorem Extends.set (hvacant : s.files path = none) : Extends s (s.set path (some item)) := by
  intro p found hfound
  have hne : p ≠ path := by
    rintro rfl
    rw [hvacant] at hfound
    cases hfound
  rw [ItemDisk.set_of_ne hne, hfound]

theorem NewAt.extends (h : NewAt record s t) : Extends s t := by
  intro path found hfound
  have hne : path ≠ record := by
    rintro rfl
    rw [h.vacant] at hfound
    cases hfound
  rw [h.elsewhere path hne, hfound]

theorem ensures_createNew {Q : Except IoErrorKind Unit → RemovalDisk → Prop}
    (hok : ∀ item, s.files path = none → Q (.ok ()) (s.set path (some item)))
    (herror : ∀ kind, Q (.error kind) s) : (createNew path).Ensures AnyCall Q s := by
  refine ensures_itemCall ?_ (fun _ _ kind _ => herror kind) fun _ => ?_
  · intro answer _ _ t h
    split at h
    · cases h
    · rename_i hvacant
      cases h
      exact hok _ hvacant
  · exact herror _

theorem ensures_makeDirectory :
    (makeDirectory path).Ensures AnyCall (fun _ t => Extends s t) s := by
  refine ensures_itemCall ?_ (fun _ _ _ _ => .refl) fun _ => ?_
  · intro answer _ _ t h
    split at h
    · cases h
    · rename_i hvacant
      cases h
      exact .set hvacant
  · exact .refl

theorem ensures_openOrCreateEach (paths : List AbsolutePath) (s : RemovalDisk) :
    (openOrCreateEach paths).Ensures AnyCall (fun _ t => Extends s t) s := by
  induction paths generalizing s with
  | nil => exact .pure .refl
  | cons path rest ih =>
      refine Steady.openAt.ensures_attempt fun r => ?_
      split
      · exact ih s
      · refine .bind (P := fun _ t => Extends s t) (.attempt ensures_makeDirectory) ?_
          fun _ _ h => h
        intro made t hmade
        have hrest : (openOrCreateEach rest).Ensures AnyCall (fun _ u => Extends s u) t :=
          (ih t).mono fun _ _ hu => hmade.trans hu
        split
        · exact Steady.openAt.mapError.ensures (fun _ => hrest) fun _ => hmade
        · exact Steady.openAt.mapError.ensures (fun _ => hrest) fun _ => hmade
        · exact .ofExcept hmade
      · exact .ofExcept .refl

theorem ensures_openOrCreateRelativeParent {directory : RelativePath} :
    (openOrCreateRelativeParent root directory).Ensures AnyCall (fun _ t => Extends s t) s :=
  steady_openDirectory.ensures (fun _ => ensures_openOrCreateEach _ _) fun _ => .refl

theorem ensures_createDirAll (paths : List AbsolutePath) (s : RemovalDisk) :
    (createDirAll paths).Ensures AnyCall (fun _ t => Extends s t) s := by
  induction paths generalizing s with
  | nil => exact .pure .refl
  | cons path rest ih =>
      refine Steady.pathExists.ensures (fun present => ?_) fun _ => .refl
      split
      · exact ih s
      · refine .bind (P := fun _ t => Extends s t) (.mapError ensures_makeDirectory) ?_
          fun _ _ h => h
        exact fun _ t hmade => (ih t).mono fun _ _ hu => hmade.trans hu

theorem ensures_changeFile {change : FileItem → FileItem} (hitem : s.files path = some item)
    {Q : Except IoErrorKind Unit → RemovalDisk → Prop}
    (hok : Q (.ok ()) (s.set path (some (change item)))) (herror : Q (.error .other) s) :
    (changeFile path change).Ensures AnyCall Q s := by
  refine ensures_itemCall ?_ (fun _ _ _ h => by cases h) fun _ => ?_
  · intro answer _ _ t h
    cases h
    rw [hitem]
    exact hok
  · exact herror

theorem ensures_writeBytes {bytes : FileBytes} (hitem : s.files path = some item)
    {Q : Except IoErrorKind Unit → RemovalDisk → Prop}
    (hok : ∀ modified,
      Q (.ok ()) (s.set path (some { item with content := .file bytes, modified })))
    (herror : ∀ found, Q (.error .other) (s.set path (some found))) :
    (writeBytes path bytes).Ensures AnyCall Q s := by
  refine .call fun answer _ => ?_
  dsimp only
  rw [hitem]
  split
  · exact herror _
  · exact hok _

theorem NewAt.set (h : NewAt record s t) {found : Option FileItem} :
    NewAt record s (t.set record found) where
  elsewhere path hne := by rw [ItemDisk.set_of_ne hne, h.elsewhere path hne]
  vacant := h.vacant

/-- When there is a record, it is new. -/
theorem ensures_writeRecord {contents : FileBytes} :
    (writeRecord record contents).Ensures AnyCall (fun r t => Extends s t ∧
      (r = .ok () → s.files record = none ∧ ∃ found, t.files record = some found)) s := by
  -- the record from its creation on
  have hnew : ∀ {r : Except IoErrorKind Unit} {t : RemovalDisk}, NewAt record s t →
      (∃ found, t.files record = some found) → Extends s t ∧
        (r = .ok () → s.files record = none ∧ ∃ found, t.files record = some found) :=
    fun h hfound => ⟨h.extends, fun _ => ⟨h.vacant, hfound⟩⟩
  refine .bind (P := fun r t => (∃ kind, r = .error kind) ∧ t = s ∨
    r = .ok () ∧ NewAt record s t ∧ ∃ found, t.files record = some found) ?_ ?_ ?_
  · refine ensures_createNew (fun item hvacant => ?_) fun kind => .inl ⟨⟨kind, rfl⟩, rfl⟩
    refine .inr ⟨rfl, ⟨fun path hne => ItemDisk.set_of_ne hne, hvacant⟩, item, ItemDisk.set_same⟩
  · rintro _ t (⟨⟨_, ⟨⟩⟩, _⟩ | ⟨-, ht, found, hfound⟩)
    refine .bind (P := fun _ u => NewAt record s u ∧ ∃ found, u.files record = some found)
      (ensures_changeFile hfound ⟨ht.set, _, ItemDisk.set_same⟩ ⟨ht, _, hfound⟩) ?_
      fun _ _ h => hnew h.1 h.2
    rintro _ u ⟨hu, changed, hchanged⟩
    refine .bind (P := fun _ v => NewAt record s v ∧ ∃ found, v.files record = some found)
      (ensures_writeBytes hchanged (fun _ => ⟨hu.set, _, ItemDisk.set_same⟩)
        fun _ => ⟨hu.set, _, ItemDisk.set_same⟩) ?_ fun _ _ h => hnew h.1 h.2
    rintro _ v ⟨hv, hwritten⟩
    exact (Steady.touch v).mono fun _ _ hsame => hsame ▸ hnew hv hwritten
  · rintro e t (⟨_, rfl⟩ | ⟨⟨⟩, _⟩)
    exact ⟨.refl, nofun⟩

theorem Extends.vacant (h : Extends s t) (ht : t.files path = none) : s.files path = none := by
  cases hs : s.files path with
  | none => rfl
  | some found =>
      rw [h path found hs] at ht
      cases ht

theorem ensures_prepareProvenance {method : RecoveryMethod} {target : AbsolutePath}
    {contents : FileBytes} : (prepareProvenance method target record contents).Ensures AnyCall
      (fun r t => Extends s t ∧
        (r = .ok () → s.files record = none ∧ ∃ found, t.files record = some found)) s := by
  have hwrite : ∀ {f : IoErrorKind → RemovalError} {t : RemovalDisk}, Extends s t →
      ((writeRecord record contents).mapError f).Ensures AnyCall (fun r u => Extends s u ∧
        (r = .ok () → s.files record = none ∧ ∃ found, u.files record = some found)) t := by
    intro f t ht
    refine .mapError (ensures_writeRecord.mono fun r u hu => ⟨ht.trans hu.1, fun hok => ?_⟩)
    obtain ⟨hvacant, hfound⟩ := hu.2 (by cases r <;> simp_all [Except.mapError])
    exact ⟨ht.vacant hvacant, hfound⟩
  have hmade : ∀ {paths : List AbsolutePath} {next : Unit → Removal Unit},
      (∀ t, Extends s t → (next ()).Ensures AnyCall (fun r u => Extends s u ∧
        (r = .ok () → s.files record = none ∧ ∃ found, u.files record = some found)) t) →
      (createDirAll paths >>= next).Ensures AnyCall (fun r u => Extends s u ∧
        (r = .ok () → s.files record = none ∧ ∃ found, u.files record = some found)) s :=
    fun hnext => .bind (ensures_createDirAll _ _) (fun _ => hnext) fun _ _ h => ⟨h, nofun⟩
  unfold prepareProvenance
  split
  · refine hmade fun t ht => ?_
    refine Steady.pathExists.ensures (fun _ => ?_) fun _ => ⟨ht, nofun⟩
    exact .ofExcept_bind (fun _ _ => hwrite ht) fun _ _ => ⟨ht, nofun⟩
  · exact hmade fun _ => hwrite

end

/-! ## The source and its guard -/

section

variable {sha256 : List UInt8 → Sha256} {request : RemovalRequest} {s t : RemovalDisk}
  {item : FileItem} {sourceGuard path : AbsolutePath}

theorem ensures_linkFile {events : List RemovalEvent} {original link : AbsolutePath}
    (hitem : s.files original = some item) {Q : Except IoErrorKind Unit → RemovalDisk → Prop}
    (hok : s.files link = none → Q (.ok ()) ((s.set link (some item)).note events))
    (herror : ∀ kind, Q (.error kind) s) : (linkFile events original link).Ensures AnyCall Q s := by
  refine ensures_itemCall ?_ (fun _ _ kind _ => herror kind) fun _ => ?_
  · intro answer _ _ t h
    rw [hitem] at h
    split at h
    · rename_i found _ hfound hvacant
      cases hfound
      cases h
      exact hok hvacant
    · cases h
    · cases h
  · exact herror _

theorem ensures_renameNoReplace {source target : AbsolutePath}
    (hitem : s.files source = some item) {Q : Except IoErrorKind Unit → RemovalDisk → Prop}
    (hok : s.files target = none → Q (.ok ()) ((s.set source none).set target (some item)))
    (herror : ∀ kind, Q (.error kind) s) : (renameNoReplace source target).Ensures AnyCall Q s := by
  refine ensures_itemCall ?_ (fun _ _ kind _ => herror kind) fun _ => ?_
  · intro answer _ _ t h
    rw [hitem] at h
    split at h
    · rename_i found _ hfound hvacant
      cases hfound
      cases h
      exact hok hvacant
    · cases h
    · cases h
  · exact herror _

/-- A path that is unlinked is vacant, and otherwise nothing has changed. -/
theorem ensures_unlink {Q : Except IoErrorKind Unit → RemovalDisk → Prop}
    (hok : Q (.ok ()) (s.set path none)) (herror : ∀ kind, Q (.error kind) s) :
    (unlink path).Ensures AnyCall Q s := by
  refine ensures_itemCall ?_ (fun _ _ kind _ => herror kind) fun _ => ?_
  · intro answer _ _ t h
    split at h
    · split at h
      · cases h
      · cases h
        exact hok
    · cases h
  · exact herror _

theorem ensures_ignoring {φ α : Type} {p : RemovalCall φ α} {Q : Except RemovalError Unit →
    RemovalDisk → Prop} (hp : p.Ensures AnyCall (fun _ t => Q (.ok ()) t) s) :
    (ignoring p).Ensures AnyCall Q s := by
  refine .bind_returns (P := fun _ t => Q (.ok ()) t) (.attempt (hp.mono fun r t ht => ⟨r, rfl, ht⟩)) ?_
  exact fun _ _ ht => .pure ht

theorem ensures_orElse {α : Type} {p : Removal α} {handler : RemovalError → Removal α}
    {Q : Except RemovalError α → RemovalDisk → Prop}
    (hp : p.Ensures AnyCall (fun r t => (∃ a, r = .ok a ∧ Q (.ok a) t) ∨
      ∃ e, r = .error e ∧ (handler e).Ensures AnyCall Q t) s) :
    (orElse p handler).Ensures AnyCall Q s := by
  refine .bind_returns (.attempt (hp.mono fun r t ht => ⟨r, rfl, ht⟩)) ?_
  rintro (e | a) t (⟨_, hr, h⟩ | ⟨_, hr, h⟩)
  · cases hr
  · cases hr
    exact h
  · cases hr
    exact .pure h
  · cases hr

/-- The source and its guard are one item, and nothing but the guard and what is above
the target is new. -/
structure Guarded (request : RemovalRequest) (item : FileItem) (sourceGuard : AbsolutePath)
    (s t : RemovalDisk) : Prop where
  atSource : t.files request.source = some item
  atGuard : t.files sourceGuard = some item
  vacant : s.files sourceGuard = none
  noted : .guarded sourceGuard ∈ t.log
  keeps : Extends s t

theorem ensures_guardWithin (hsource : s.files request.source = some item) (attempts : Nat) :
    (guardWithin request attempts).Ensures AnyCall (fun r t => Extends s t ∧
      ∀ sourceGuard, r = .ok sourceGuard → Guarded request item sourceGuard s t) s := by
  induction attempts with
  | zero => exact .ofExcept ⟨.refl, nofun⟩
  | succ attempts ih =>
      refine Steady.nextSequence.ensures (fun sequence => ?_) fun _ => ⟨.refl, nofun⟩
      have hlinked : s.files (request.guardPath sequence) = none →
          Guarded request item (request.guardPath sequence) s
            ((s.set (request.guardPath sequence) (some item)).note
              [.guarded (request.guardPath sequence)]) := by
        intro hvacant
        have hextends : Extends s (s.set (request.guardPath sequence) (some item)) := .set hvacant
        exact ⟨hextends _ _ hsource, ItemDisk.set_same, hvacant,
          List.mem_append_right _ (List.mem_singleton_self _), hextends⟩
      refine .bind_returns (P := fun r t => (r = .ok () ∧
        Guarded request item (request.guardPath sequence) s t) ∨ (∃ kind, r = .error kind) ∧ t = s)
        (.attempt (ensures_linkFile hsource (fun hvacant => ?_) fun kind => ?_)) ?_
      · exact ⟨_, rfl, .inl ⟨rfl, hlinked hvacant⟩⟩
      · exact ⟨_, rfl, .inr ⟨⟨kind, rfl⟩, rfl⟩⟩
      · rintro r t (⟨rfl, h⟩ | ⟨⟨kind, rfl⟩, rfl⟩)
        · refine Steady.touch.mapError.ensures (fun _ => .pure ⟨h.keeps, ?_⟩)
            fun _ => ⟨h.keeps, nofun⟩
          intro _ hguard
          cases hguard
          exact h
        · cases kind with
          | alreadyExists => exact ih
          | notFound => exact .ofExcept ⟨.refl, nofun⟩
          | other => exact .ofExcept ⟨.refl, nofun⟩

theorem ensures_createSourceGuardForPath (hsource : s.files request.source = some item) :
    (createSourceGuardForPath sha256 request).Ensures AnyCall (fun r t => Extends s t ∧
      ∀ sourceGuard, r = .ok sourceGuard → Guarded request item sourceGuard s t) s :=
  steady_lockSource.ensures (fun _ => ensures_guardWithin hsource 1024) fun _ => ⟨.refl, nofun⟩

/-- The source comes back from its guard, or nothing changes. -/
theorem ensures_restoreSourceFromGuard (hguard : s.files sourceGuard = some item) :
    (restoreSourceFromGuard sha256 request sourceGuard).Ensures AnyCall (fun r t =>
      (∃ e, r = .error e) ∧ t = s ∨ t = s.set request.source (some item)) s := by
  refine Steady.metadata.ensures_attempt fun r => ?_
  split
  · exact .ofExcept (.inl ⟨⟨_, rfl⟩, rfl⟩)
  · refine .bind (P := fun r t => (∃ e, r = .error e) ∧ t = s ∨
      r = .ok () ∧ t = s.set request.source (some item)) (.mapError (ensures_linkFile hguard
        (fun _ => .inr ⟨rfl, ItemDisk.note_nil⟩) fun _ => .inl ⟨⟨_, rfl⟩, rfl⟩)) ?_ ?_
    · rintro _ t (⟨⟨_, ⟨⟩⟩, _⟩ | ⟨-, rfl⟩)
      exact (steady_ensureSourceEntryMatches _).mono fun _ _ hsame => .inr hsame
    · rintro e t (⟨-, rfl⟩ | ⟨⟨⟩, _⟩)
      exact .inl ⟨⟨e, rfl⟩, rfl⟩
  · exact .ofExcept (.inl ⟨⟨_, rfl⟩, rfl⟩)

/-- What the exact removal of the source changes. -/
structure SourceSettled (request : RemovalRequest) (item : FileItem) (s : RemovalDisk)
    (r : Except RemovalError Unit) (t : RemovalDisk) : Prop where
  elsewhere : ∀ path, path ≠ request.source → t.files path = s.files path
  log : t.log = s.log
  removed : r = .ok () → t.files request.source = none
  kept : ∀ e, r = .error e → e.isUncertain = false → t.files request.source = some item

theorem SourceSettled.of_same {e : RemovalError} (hsource : s.files request.source = some item) :
    SourceSettled request item s (.error e) s :=
  ⟨fun _ _ => rfl, rfl, nofun, fun _ _ _ => hsource⟩

/-- An error in doubt leaves the source there or not. -/
theorem SourceSettled.of_doubt {e : RemovalError} (he : e.isUncertain = true)
    (helsewhere : ∀ path, path ≠ request.source → t.files path = s.files path)
    (hlog : t.log = s.log) : SourceSettled request item s (.error e) t := by
  refine ⟨helsewhere, hlog, nofun, fun e' he' hcertain => ?_⟩
  cases he'
  rw [he] at hcertain
  cases hcertain

theorem ensures_ensureEntryAbsent {Q : Except RemovalError Unit → RemovalDisk → Prop}
    (hok : Q (.ok ()) s) (herror : ∀ e, e.isUncertain = true → Q (.error e) s) :
    (ensureEntryAbsent path).Ensures AnyCall Q s := by
  refine Steady.metadata.ensures_attempt fun r => ?_
  split
  · exact .ofExcept (herror _ rfl)
  · exact .pure hok
  · exact .ofExcept (herror _ rfl)

/-- An error in doubt, after the source is restored if it can be. -/
theorem ensures_restoreAndFail {e : RemovalError} (he : e.isUncertain = true)
    (hguard : t.files sourceGuard = some item)
    (helsewhere : ∀ path, path ≠ request.source → t.files path = s.files path)
    (hlog : t.log = s.log) :
    (do ignoring (restoreSourceFromGuard sha256 request sourceGuard); fail e :
      Removal Unit).Ensures AnyCall (SourceSettled request item s) t := by
  refine .bind_returns (P := fun _ u => SourceSettled request item s (.error e) u)
    (ensures_ignoring ((ensures_restoreSourceFromGuard hguard).mono ?_)) fun _ u hu => .ofExcept hu
  rintro r u (⟨-, rfl⟩ | rfl)
  · exact ⟨(), rfl, .of_doubt he helsewhere hlog⟩
  · refine ⟨(), rfl, .of_doubt he (fun path hne => ?_) hlog⟩
    rw [ItemDisk.set_of_ne hne, helsewhere path hne]

theorem ensures_removeSourceExact (hsource : s.files request.source = some item)
    (hguard : s.files sourceGuard = some item) (hne : sourceGuard ≠ request.source) :
    (removeSourceExact sha256 request sourceGuard).Ensures AnyCall
      (SourceSettled request item s) s := by
  refine steady_lockSource.ensures (fun _ => ?_) fun _ => .of_same hsource
  refine .bind_returns (P := fun r t => (∃ kind, r = .error kind) ∧ t = s ∨
    r = .ok () ∧ t = s.set request.source none)
    (.attempt (ensures_unlink ⟨_, rfl, .inr ⟨rfl, rfl⟩⟩ fun kind => ⟨_, rfl, .inl ⟨⟨kind, rfl⟩, rfl⟩⟩)) ?_
  rintro r t (⟨⟨kind, rfl⟩, rfl⟩ | ⟨rfl, rfl⟩)
  · exact ensures_restoreAndFail rfl hguard (fun _ _ => rfl) rfl
  · have helsewhere : ∀ path, path ≠ request.source →
        (s.set request.source none).files path = s.files path := fun _ => ItemDisk.set_of_ne
    refine ensures_orElse (ensures_ensureEntryAbsent (.inl ⟨(), rfl, ?_⟩) fun e he =>
      .inr ⟨e, rfl, ?_⟩)
    · exact ⟨helsewhere, rfl, fun _ => ItemDisk.set_same, nofun⟩
    · exact ensures_restoreAndFail he ((helsewhere _ hne).trans hguard) helsewhere rfl

theorem Guarded.of_extends {u : RemovalDisk} (hst : Extends s t)
    (h : Guarded request item sourceGuard t u) : Guarded request item sourceGuard s u :=
  ⟨h.atSource, h.atGuard, hst.vacant h.vacant, h.noted, hst.trans h.keeps⟩

/-- What was there before is not the guard. -/
theorem Guarded.ne_of_present (h : Guarded request item sourceGuard s t) {found : FileItem}
    (hfound : s.files path = some found) : path ≠ sourceGuard := by
  rintro rfl
  rw [h.vacant] at hfound
  cases hfound

theorem ensures_dropGuard {α : Type} {e : RemovalError} {Q : Except RemovalError α → RemovalDisk → Prop}
    (hkept : Q (.error e) s) (hdropped : e.isUncertain = false → Q (.error e) (s.set sourceGuard none)) :
    (dropGuard sourceGuard e : Removal α).Ensures AnyCall Q s := by
  refine .bind_returns (P := fun _ t => Q (.error e) t) ?_ fun _ t ht => .ofExcept ht
  split
  · exact .pure ⟨_, rfl, hkept⟩
  · rename_i hcertain
    have hcertain : e.isUncertain = false := by simpa using hcertain
    exact ensures_ignoring (ensures_unlink ⟨(), rfl, hdropped hcertain⟩ fun _ => ⟨(), rfl, hkept⟩)

/-! ## Removal without recovery -/

theorem ensures_performPermanentRemoval (hsource : s.files request.source = some item) :
    (performPermanentRemoval sha256 request).Ensures AnyCall (LosesNothing request item none s) s := by
  refine .bind (ensures_createSourceGuardForPath hsource) ?_ ?_
  · rintro sourceGuard t ⟨-, hguarded⟩
    have h := hguarded sourceGuard rfl
    have hne : sourceGuard ≠ request.source := (h.ne_of_present hsource).symm
    refine ensures_orElse (.bind (ensures_removeSourceExact h.atSource h.atGuard hne) ?_ ?_)
    · rintro _ u hu
      refine .pure (.inl ⟨_, rfl, nofun, fun _ _ => nofun, nofun, fun path found hpath hfound => ?_⟩)
      rw [hu.elsewhere path hpath, h.keeps path found hfound]
    · intro e u hu
      have hothers : ∀ path found, path ≠ request.source → s.files path = some found →
          u.files path = some found := by
        intro path found hpath hfound
        rw [hu.elsewhere path hpath, h.keeps path found hfound]
      refine .inr ⟨e, rfl, ensures_dropGuard ⟨fun e' he' => ?_, nofun, nofun, hothers⟩
        fun hcertain => ⟨fun e' he' hcertain' => ?_, nofun, nofun, fun path found hpath hfound => ?_⟩⟩
      · cases he'
        exact hu.kept e rfl
      · rw [ItemDisk.set_of_ne hne.symm]
        exact hu.kept e rfl hcertain
      · rw [ItemDisk.set_of_ne (h.ne_of_present hfound), hothers path found hpath hfound]
  · rintro e t ⟨hextends, -⟩
    exact ⟨fun _ _ _ => hextends _ _ hsource, nofun, nofun, fun path found _ => hextends path found⟩

/-! ## Recovery on the same file system -/

section

variable {target : Option AbsolutePath} {e : RemovalError}

/-- An error with the source in its place. -/
theorem LosesNothing.of_source (hsource : t.files request.source = some item)
    (hothers : ∀ path found, path ≠ request.source → s.files path = some found →
      t.files path = some found) : LosesNothing request item target s (.error e) t :=
  ⟨fun _ _ _ => hsource, nofun, fun _ => ⟨_, item, hsource, rfl, .inl rfl⟩, hothers⟩

theorem LosesNothing.of_extends (hsource : s.files request.source = some item)
    (h : Extends s t) : LosesNothing request item target s (.error e) t :=
  .of_source (h _ _ hsource) fun path found _ => h path found

/-- An error in doubt with the guard in its place. -/
theorem LosesNothing.of_doubt (he : e.isUncertain = true) (hguard : t.files sourceGuard = some item)
    (hvacant : s.files sourceGuard = none) (hnoted : .guarded sourceGuard ∈ t.log)
    (hothers : ∀ path found, path ≠ request.source → s.files path = some found →
      t.files path = some found) : LosesNothing request item target s (.error e) t := by
  refine ⟨fun e' he' hcertain => ?_, nofun,
    fun _ => ⟨sourceGuard, item, hguard, rfl, .inr ⟨hvacant, .inr hnoted⟩⟩, hothers⟩
  cases he'
  rw [he] at hcertain
  cases hcertain

end

/-- The source comes back, and then the guard may go. -/
theorem ensures_restoreMoved {target : Option AbsolutePath} {u : RemovalDisk}
    (h : Guarded request item sourceGuard s t) (hsource : s.files request.source = some item)
    (hguard : u.files sourceGuard = some item) (hlog : u.log = t.log)
    (hothers : ∀ path found, path ≠ request.source → s.files path = some found →
      u.files path = some found) :
    (do
      match ← (restoreSourceFromGuard sha256 request sourceGuard).attempt with
      | .ok () => do
          ignoring (unlink sourceGuard)
          fail (.recoveryUnavailable "recovery verification failed and the source was restored")
      | .error (_ : RemovalError) =>
          fail (.recoveryUncertain
            "recovery verification failed and the source restoration is uncertain") :
      Removal RemovalAttempt).Ensures AnyCall (LosesNothing request item target s) u := by
  have hne : sourceGuard ≠ request.source := (h.ne_of_present hsource).symm
  have hnoted : .guarded sourceGuard ∈ u.log := hlog ▸ h.noted
  -- with the source in its place again
  have hrestored : ∀ path found, path ≠ request.source → s.files path = some found →
      (u.set request.source (some item)).files path = some found := by
    intro path found hpath hfound
    rw [ItemDisk.set_of_ne hpath, hothers path found hpath hfound]
  refine .bind_returns (P := fun r v => (∃ e, r = .error e) ∧ v = u ∨
      v = u.set request.source (some item)) (.attempt
    ((ensures_restoreSourceFromGuard hguard).mono fun r v hv => ⟨r, rfl, hv⟩)) ?_
  rintro r v (⟨⟨e, rfl⟩, rfl⟩ | rfl)
  · exact .ofExcept (.of_doubt rfl hguard h.vacant hnoted hothers)
  · cases r with
    | error e => exact .ofExcept (.of_source ItemDisk.set_same hrestored)
    | ok _ =>
        refine .bind_returns (P := fun _ w => LosesNothing request item target s
          (.error (.recoveryUnavailable
            "recovery verification failed and the source was restored")) w)
          (ensures_ignoring (ensures_unlink ⟨(), rfl, .of_source ?_ ?_⟩ fun _ =>
            ⟨(), rfl, .of_source ItemDisk.set_same hrestored⟩)) fun _ w hw => .ofExcept hw
        · rw [ItemDisk.set_of_ne hne.symm, ItemDisk.set_same]
        · intro path found hpath hfound
          rw [ItemDisk.set_of_ne (h.ne_of_present hfound), hrestored path found hpath hfound]

theorem ensures_moveToSameFilesystemRecovery {recoveryRoot target : AbsolutePath}
    (hsource : s.files request.source = some item) :
    (moveToSameFilesystemRecovery sha256 request recoveryRoot target).Ensures AnyCall
      (LosesNothing request item (some target) s) s := by
  have hnothing : ∀ {t : RemovalDisk} (e : RemovalError), Extends s t →
      LosesNothing request item (some target) s (.error e) t := fun _ h => .of_extends hsource h
  refine steady_openRelativeParent.ensures (fun _ => ?_) fun e => hnothing e .refl
  refine .bind ensures_openOrCreateRelativeParent ?_ fun e _ => hnothing e
  intro _ t ht
  refine steady_ensureSourceEntryMatches.ensures (fun _ => ?_) fun e => hnothing e ht
  refine .bind (ensures_guardWithin (ht _ _ hsource) 1024) ?_
    fun e u hu => hnothing e (ht.trans hu.1)
  rintro sourceGuard u ⟨-, hguarded⟩
  have h : Guarded request item sourceGuard s u := (hguarded sourceGuard rfl).of_extends ht
  have hne : sourceGuard ≠ request.source := (h.ne_of_present hsource).symm
  refine ensures_guarded (.mapError (ensures_renameNoReplace h.atSource (fun hvacant => ?_)
    fun kind => .inr ⟨_, rfl, hnothing _ h.keeps⟩))
  refine .inl ⟨(), rfl, ?_⟩
  -- the source is at the target, and the guard is where it was
  have hpresent : ∀ {path found}, u.files path = some found → path ≠ target := by
    rintro path found hfound rfl
    rw [hvacant] at hfound
    cases hfound
  have hgone : ∀ {path}, path ≠ request.source → path ≠ target →
      ((u.set request.source none).set target (some item)).files path = u.files path :=
    fun hpath htarget => by rw [ItemDisk.set_of_ne htarget, ItemDisk.set_of_ne hpath]
  have hguard : ((u.set request.source none).set target (some item)).files sourceGuard = some item := by
    rw [hgone hne (hpresent h.atGuard), h.atGuard]
  have hothers : ∀ path found, path ≠ request.source → s.files path = some found →
      ((u.set request.source none).set target (some item)).files path = some found := by
    intro path found hpath hfound
    have hthere := h.keeps path found hfound
    rw [hgone hpath (hpresent hthere), hthere]
  refine ensures_orElse (steady_ensureEntryAbsent.ensures (fun _ => ?_)
    fun e => .inr ⟨e, rfl, ensures_restoreMoved h hsource hguard rfl hothers⟩)
  refine steady_verifyRecoveryEntry.ensures (fun _ => .pure (.inl ⟨_, rfl, nofun, ?_, ?_, hothers⟩))
    fun e => .inr ⟨e, rfl, ensures_restoreMoved h hsource hguard rfl hothers⟩
  · rintro _ ⟨⟩ _ ⟨⟩
    refine ⟨rfl, ?_, item, ItemDisk.set_same, rfl, rfl, fun _ => rfl⟩
    rw [ItemDisk.set_of_ne (hpresent h.atSource), ItemDisk.set_same]
  · exact fun _ => ⟨sourceGuard, item, hguard, rfl, .inr ⟨h.vacant, .inr h.noted⟩⟩

/-! ## Recovery on another file system -/

section

variable {temporary : AbsolutePath} {staged : FileItem}

/-- Only the temporary has changed. -/
structure ChangedAt (temporary : AbsolutePath) (s t : RemovalDisk) : Prop where
  elsewhere : ∀ path, path ≠ temporary → t.files path = s.files path
  log : t.log = s.log

theorem ChangedAt.refl : ChangedAt temporary s s := ⟨fun _ _ => rfl, rfl⟩

theorem ChangedAt.set (h : ChangedAt temporary s t) {found : Option FileItem} :
    ChangedAt temporary s (t.set temporary found) where
  elsewhere path hne := by rw [ItemDisk.set_of_ne hne, h.elsewhere path hne]
  log := h.log

/-- What the copy changes, and what a copy that succeeds is. -/
structure Staged (request : RemovalRequest) (item : FileItem) (temporary : AbsolutePath)
    (s : RemovalDisk) (r : Except RemovalError Unit) (t : RemovalDisk) : Prop extends
    ChangedAt temporary s t where
  copied : r = .ok () → ∃ found, t.files temporary = some found ∧
    Recovered request.requirements item found

theorem matchesOpenFileMetadata_eq_true {proof : FileMetadataProof} :
    matchesOpenFileMetadata proof item = true ↔ proof.itemType = .regularFile ∧
      item.itemType = .regularFile ∧ proof.size = item.size ∧
      proof.modifiedAtUnixNanos = item.modifiedAtUnixNanos ∧ proof.identity = some item.identity ∧
      proof.permissions = some item.mode := by
  unfold matchesOpenFileMetadata
  simp only [Bool.and_eq_true, decide_eq_true_eq, and_assoc]

/-- The time of a proof is that of the item, where the proof has one. -/
theorem modifiedAt_of_matches {proof : FileMetadataProof} {modifiedAt : Int}
    (h : proof.modifiedAtUnixNanos = item.modifiedAtUnixNanos)
    (hmodified : proof.modifiedAt = some modifiedAt) : modifiedAt = item.modified := by
  unfold FileMetadataProof.modifiedAt at hmodified
  rw [h, FileItem.modifiedAtUnixNanos] at hmodified
  split at hmodified
  · rename_i hrange
    have hround : (Int64.ofInt item.modified).toInt = item.modified :=
      Int64.toInt_ofInt_of_le (by omega) (by omega)
    rw [Option.map_some, hround] at hmodified
    exact (Option.some.inj hmodified).symm
  · cases hmodified

theorem ensures_copyBytes (hsource : s.files request.source = some item)
    (hstaged : s.files temporary = some staged)
    {Q : Except RemovalError Unit → RemovalDisk → Prop}
    (hok : ∀ modified,
      Q (.ok ()) (s.set temporary (some { staged with content := item.content, modified })))
    (herror : ∀ e found, Q (.error e) (s.set temporary (some found))) :
    (copyBytes request.source temporary).Ensures AnyCall Q s := by
  have hsame : s.set temporary (some staged) = s := by
    refine congrArg (ItemDisk.mk · s.log) (funext fun path => ?_)
    show (if path = temporary then some staged else s.files path) = s.files path
    split
    · rename_i heq
      rw [heq, hstaged]
    · rfl
  refine .bind (P := fun r t => t = s ∧ ∀ bytes, r = .ok bytes → item.content = .file bytes)
    (.call fun answer _ => ?_) ?_ ?_
  · split
    · exact ⟨rfl, nofun⟩
    · rw [hsource]
      split
      · rename_i bytes _ _ _ heq
        obtain rfl := Option.some.inj heq
        exact ⟨rfl, fun _ h => by cases h; rfl⟩
      · exact ⟨rfl, nofun⟩
  · rintro bytes _ ⟨rfl, hbytes⟩
    refine .mapError (ensures_writeBytes hstaged (fun modified => ?_) fun found => herror _ found)
    have hcopied := hok modified
    rwa [hbytes bytes rfl] at hcopied
  · rintro e _ ⟨rfl, -⟩
    exact hsame ▸ herror e staged

/-- **A copy that succeeds has what is recovered of the source.** -/
theorem ensures_copySource (hsource : s.files request.source = some item)
    (hstaged : s.files temporary = some staged) (hne : temporary ≠ request.source) :
    (copySourceWithoutFollowing request temporary).Ensures AnyCall
      (Staged request item temporary s) s := by
  have herror : ∀ {t : RemovalDisk} (e : RemovalError), ChangedAt temporary s t →
      Staged request item temporary s (.error e) t := fun _ h => ⟨h, nofun⟩
  refine steady_openRelativeParent.ensures (fun _ => ?_) fun e => herror e .refl
  refine Steady.openNoFollow.mapError.ensures (fun _ => ?_) fun e => herror e .refl
  refine ensures_guarded (.mapError (ensures_itemMetadata (fun found hfound => .inl ⟨found, rfl, ?_⟩)
    (fun _ => .inr ⟨_, rfl, herror _ .refl⟩) fun _ => .inr ⟨_, rfl, herror _ ?_⟩))
  swap
  · exact .refl
  obtain rfl : item = found := Option.some.inj (hsource.symm.trans hfound)
  refine .ofExcept_bind (fun _ hmatches => ?_) fun e _ => herror e .refl
  obtain ⟨-, -, -, hmodified, -, hpermissions⟩ :=
    matchesOpenFileMetadata_eq_true.mp (ensure_eq_ok.mp hmatches)
  refine ensures_guarded (.mapError (ensures_changeFile hstaged (.inl ⟨(), rfl, ?_⟩)
    (.inr ⟨_, rfl, herror _ .refl⟩)))
  have hempty : ∀ {found : Option FileItem}, ChangedAt temporary s (s.set temporary found) :=
    ChangedAt.refl.set
  have hthere : ∀ {found : Option FileItem},
      (s.set temporary found).files request.source = some item := by
    intro found
    rw [ItemDisk.set_of_ne hne.symm, hsource]
  refine ensures_guarded (ensures_copyBytes hthere ItemDisk.set_same
    (fun modified => .inl ⟨(), rfl, ?_⟩) fun e _ => .inr ⟨e, rfl, herror e hempty.set⟩)
  rw [hpermissions]
  refine ensures_guarded (.mapError (ensures_changeFile ItemDisk.set_same (.inl ⟨(), rfl, ?_⟩)
    (.inr ⟨_, rfl, herror _ hempty.set⟩)))
  split
  · refine .ofExcept_bind (fun modifiedAt hmodifiedAt => ?_) fun e _ => herror e hempty.set.set
    have htime : modifiedAt = item.modified :=
      modifiedAt_of_matches hmodified (orError_eq_ok.mp hmodifiedAt)
    refine .mapError (ensures_changeFile ItemDisk.set_same ?_ (herror _ hempty.set.set))
    exact ⟨hempty.set.set.set, fun _ => ⟨_, ItemDisk.set_same, rfl, rfl, fun _ => htime⟩⟩
  · rename_i htimestamps
    exact .pure ⟨hempty.set.set, fun _ =>
      ⟨_, ItemDisk.set_same, rfl, rfl, fun h => absurd h htimestamps⟩⟩

/-- What the copy and the removal change, with the guard in its place. -/
structure Moved (request : RemovalRequest) (item : FileItem) (temporary target : AbsolutePath)
    (s : RemovalDisk) (r : Except RemovalError Unit) (t : RemovalDisk) : Prop where
  others : ∀ path found, path ≠ request.source → path ≠ temporary → s.files path = some found →
    t.files path = some found
  log : t.log = s.log
  kept : ∀ e, r = .error e → e.isUncertain = false → t.files request.source = some item
  recovered : r = .ok () → t.files request.source = none ∧ ∃ found, t.files target = some found ∧
    Recovered request.requirements item found

theorem Moved.of_staged {target : AbsolutePath} {e : RemovalError}
    (hsource : s.files request.source = some item) (hne : temporary ≠ request.source)
    (h : ChangedAt temporary s t) : Moved request item temporary target s (.error e) t where
  others path found _ hother hfound := by rw [h.elsewhere path hother, hfound]
  log := h.log
  kept _ _ _ := by rw [h.elsewhere _ hne.symm, hsource]
  recovered := nofun

theorem ensures_copyAndRemove {target : AbsolutePath} (hsource : s.files request.source = some item)
    (hguard : s.files sourceGuard = some item) (hstaged : s.files temporary = some staged)
    (hguardSource : sourceGuard ≠ request.source) (hguardStaged : sourceGuard ≠ temporary)
    (hne : temporary ≠ request.source) :
    (copyAndRemove sha256 request sourceGuard temporary target).Ensures AnyCall
      (Moved request item temporary target s) s := by
  refine .bind (ensures_copySource hsource hstaged hne) ?_ fun e t h =>
    .of_staged hsource hne h.toChangedAt
  intro _ t ht
  obtain ⟨found, hfound, hrecovered⟩ := ht.copied rfl
  have hstays : ∀ e : RemovalError, Moved request item temporary target s (.error e) t :=
    fun _ => .of_staged hsource hne ht.toChangedAt
  refine steady_verifyRecoveryFile.ensures (fun _ => ?_) hstays
  refine Steady.touch.mapError.ensures (fun _ => ?_) hstays
  refine ensures_guarded (.mapError (ensures_renameNoReplace hfound (fun hvacant => .inl ⟨(), rfl, ?_⟩)
    fun kind => .inr ⟨_, rfl, hstays _⟩))
  -- the copy is at the target
  have hpresent : ∀ {path found}, path ≠ temporary → s.files path = some found → path ≠ target := by
    rintro path found hother hpath rfl
    rw [← ht.elsewhere path hother, hvacant] at hpath
    cases hpath
  have hothers : ∀ {path kept}, path ≠ temporary → s.files path = some kept →
      ((t.set temporary none).set target (some found)).files path = some kept := by
    intro path kept hother hpath
    rw [ItemDisk.set_of_ne (hpresent hother hpath), ItemDisk.set_of_ne hother,
      ht.elsewhere path hother, hpath]
  have hinstalled : ∀ e : RemovalError, Moved request item temporary target s (.error e)
      ((t.set temporary none).set target (some found)) := fun _ =>
    ⟨fun _ _ _ hother hpath => hothers hother hpath, ht.log, fun _ _ _ => hothers hne.symm hsource,
      nofun⟩
  refine steady_verifyRecoveryEntry.ensures (fun _ => ?_) hinstalled
  refine (ensures_removeSourceExact (hothers hne.symm hsource) (hothers hguardStaged hguard)
    hguardSource).mono fun r u hu => ⟨?_, hu.log.trans ht.log, hu.kept, fun hr => ?_⟩
  · intro path kept hpath hother hkept
    rw [hu.elsewhere path hpath, hothers hother hkept]
  · refine ⟨hu.removed hr, found, ?_, hrecovered⟩
    rw [hu.elsewhere target (hpresent hne.symm hsource).symm, ItemDisk.set_same]

/-- A new temporary, whatever it has. -/
theorem ensures_recoveryTemporaryWithin {parent : AbsolutePath} (attempts : Nat) :
    (recoveryTemporaryWithin request parent attempts).Ensures AnyCall (fun r t =>
      (∃ e, r = .error e) ∧ t = s ∨ ∃ temporary staged, r = .ok temporary ∧
        s.files temporary = none ∧ t = s.set temporary (some staged)) s := by
  induction attempts with
  | zero => exact .ofExcept (.inl ⟨⟨_, rfl⟩, rfl⟩)
  | succ attempts ih =>
      refine Steady.nextSequence.ensures (fun sequence => ?_) fun e => .inl ⟨⟨e, rfl⟩, rfl⟩
      dsimp only
      generalize parent ++ [recoveryTemporaryName sequence request.item.name] = temporary
      refine .bind_returns (P := fun r t => (∃ kind, r = .error kind) ∧ t = s ∨
        ∃ staged, r = .ok () ∧ s.files temporary = none ∧ t = s.set temporary (some staged))
        (.attempt (ensures_createNew (fun staged hvacant => ?_) fun kind => ?_)) ?_
      · exact ⟨_, rfl, .inr ⟨staged, rfl, hvacant, rfl⟩⟩
      · exact ⟨_, rfl, .inl ⟨⟨kind, rfl⟩, rfl⟩⟩
      · rintro r t (⟨⟨kind, rfl⟩, rfl⟩ | ⟨staged, rfl, hvacant, rfl⟩)
        · cases kind with
          | alreadyExists => exact ih
          | notFound => exact .ofExcept (.inl ⟨⟨_, rfl⟩, rfl⟩)
          | other => exact .ofExcept (.inl ⟨⟨_, rfl⟩, rfl⟩)
        · exact .pure (.inr ⟨_, staged, rfl, hvacant, rfl⟩)

/-- The guard goes, when the source is certain to be in its place. -/
theorem ensures_dropGuarded {α : Type} {target : Option AbsolutePath} {u : RemovalDisk}
    {e : RemovalError}
    (h : Guarded request item sourceGuard s t) (hsource : s.files request.source = some item)
    (hguard : u.files sourceGuard = some item) (hlog : u.log = t.log)
    (hkept : e.isUncertain = false → u.files request.source = some item)
    (hothers : ∀ path found, path ≠ request.source → s.files path = some found →
      u.files path = some found) :
    (dropGuard sourceGuard e : Removal α).Ensures AnyCall (fun r w =>
      r = .error e ∧ LosesNothing request item target s (.error e) w) u := by
  refine ensures_dropGuard ⟨rfl, ?_⟩ fun hcertain =>
    ⟨rfl, .of_source ?_ fun path found hpath hfound => ?_⟩
  · cases hcertain : e.isUncertain with
    | true => exact .of_doubt hcertain hguard h.vacant (hlog ▸ h.noted) hothers
    | false => exact .of_source (hkept hcertain) hothers
  · rw [ItemDisk.set_of_ne (h.ne_of_present hsource), hkept hcertain]
  · rw [ItemDisk.set_of_ne (h.ne_of_present hfound), hothers path found hpath hfound]

theorem ensures_copyToCrossFilesystemRecovery {recoveryRoot target : AbsolutePath}
    (hsource : s.files request.source = some item) :
    (copyToCrossFilesystemRecovery sha256 request recoveryRoot target).Ensures AnyCall
      (LosesNothing request item (some target) s) s := by
  have hnothing : ∀ {t : RemovalDisk} (e : RemovalError), Extends s t →
      LosesNothing request item (some target) s (.error e) t := fun _ h => .of_extends hsource h
  refine .ofExcept_bind (fun _ _ => ?_) fun e _ => hnothing e .refl
  refine steady_ensureRecoverySpace.ensures (fun _ => ?_) fun e => hnothing e .refl
  refine .bind ensures_openOrCreateRelativeParent ?_ fun e _ => hnothing e
  intro _ t ht
  refine .bind (ensures_createSourceGuardForPath (ht _ _ hsource)) ?_
    fun e u hu => hnothing e (ht.trans hu.1)
  rintro sourceGuard u ⟨-, hguarded⟩
  have h : Guarded request item sourceGuard s u := (hguarded sourceGuard rfl).of_extends ht
  have hne : sourceGuard ≠ request.source := (h.ne_of_present hsource).symm
  refine .bind (P := fun r v => (∃ e, r = .error e ∧
      LosesNothing request item (some target) s (.error e) v) ∨ ∃ temporary staged,
        r = .ok temporary ∧ u.files temporary = none ∧ v = u.set temporary (some staged))
    (ensures_orElse ((ensures_recoveryTemporaryWithin 1024).mono ?_)) ?_ ?_
  · rintro r v (⟨⟨e, rfl⟩, rfl⟩ | ⟨temporary, staged, rfl, hvacant, rfl⟩)
    · exact .inr ⟨e, rfl, (ensures_dropGuarded h hsource h.atGuard rfl (fun _ => h.atSource)
        fun path found _ => h.keeps path found).mono fun r w hw => .inl ⟨e, hw⟩⟩
    · exact .inl ⟨temporary, rfl, .inr ⟨temporary, staged, rfl, hvacant, rfl⟩⟩
  · rintro temporary v (⟨_, ⟨⟩, _⟩ | ⟨_, staged, ⟨⟩, hvacant, rfl⟩)
    -- the temporary is none of the items that were there
    have hpresent : ∀ {path found}, u.files path = some found → path ≠ temporary := by
      rintro path found hfound rfl
      rw [hvacant] at hfound
      cases hfound
    have hthere : ∀ {path found}, u.files path = some found →
        (u.set temporary (some staged)).files path = some found := by
      intro path found hfound
      rw [ItemDisk.set_of_ne (hpresent hfound), hfound]
    have hafter : ∀ {r : Except RemovalError Unit} {w : RemovalDisk},
        Moved request item temporary target (u.set temporary (some staged)) r w →
          w.files sourceGuard = some item ∧ ∀ path found, path ≠ request.source →
            s.files path = some found → w.files path = some found := by
      intro r w hw
      refine ⟨hw.others _ _ hne (hpresent h.atGuard) (hthere h.atGuard), ?_⟩
      intro path found hpath hfound
      have hfound := h.keeps path found hfound
      exact hw.others _ _ hpath (hpresent hfound) (hthere hfound)
    refine ensures_orElse (.bind (ensures_copyAndRemove (hthere h.atSource) (hthere h.atGuard)
      ItemDisk.set_same hne (hpresent h.atGuard) (hpresent h.atSource).symm) ?_ ?_)
    · intro _ w hw
      obtain ⟨hguard, hothers⟩ := hafter hw
      refine .pure (.inl ⟨_, rfl, nofun, ?_, fun _ => ⟨sourceGuard, item, hguard, rfl, .inr ?_⟩,
        hothers⟩)
      · rintro _ ⟨⟩ _ ⟨⟩
        exact ⟨rfl, hw.recovered rfl⟩
      · exact ⟨h.vacant, .inr (hw.log ▸ h.noted)⟩
    · intro e w hw
      obtain ⟨hguard, hothers⟩ := hafter hw
      refine .inr ⟨e, rfl, .bind_returns (P := fun _ x => x.files sourceGuard = some item ∧
        x.log = u.log ∧ (e.isUncertain = false → x.files request.source = some item) ∧
          ∀ path found, path ≠ request.source → s.files path = some found →
            x.files path = some found) (ensures_ignoring (ensures_unlink ⟨(), rfl, ?_⟩
              fun _ => ⟨(), rfl, hguard, hw.log, hw.kept e rfl, hothers⟩)) ?_⟩
      · refine ⟨?_, hw.log, fun hcertain => ?_, fun path found hpath hfound => ?_⟩
        · rw [ItemDisk.set_of_ne (hpresent h.atGuard), hguard]
        · rw [ItemDisk.set_of_ne (hpresent h.atSource), hw.kept e rfl hcertain]
        · rw [ItemDisk.set_of_ne (hpresent (h.keeps path found hfound)),
            hothers path found hpath hfound]
      · rintro _ x ⟨hguard, hlog, hkept, hothers⟩
        have hdropped : (dropGuard sourceGuard e : Removal RemovalAttempt).Ensures AnyCall
            (fun r y => r = .error e ∧
              LosesNothing request item (some target) s (.error e) y) x :=
          ensures_dropGuarded h hsource hguard hlog hkept hothers
        refine hdropped.mono ?_
        rintro _ y ⟨rfl, hy⟩
        exact hy
  · rintro e v (⟨_, ⟨⟩, hv⟩ | ⟨_, _, ⟨⟩, _⟩)
    exact hv

end

end

/-! ## The whole removal -/

section

variable {sha256 : List UInt8 → Sha256} {request : RemovalRequest} {s t u : RemovalDisk}
  {item : FileItem} {target : Option AbsolutePath}

/-- What is promised from a later state on is promised from an earlier one. -/
theorem LosesNothing.of_later {r : Except RemovalError RemovalAttempt} (hst : Extends s t)
    (h : LosesNothing request item target t r u) : LosesNothing request item target s r u where
  kept := h.kept
  recovered := h.recovered
  held htarget := by
    obtain ⟨path, found, hfound, hcontent, hwhere⟩ := h.held htarget
    exact ⟨path, found, hfound, hcontent, hwhere.imp_right fun hnew => ⟨hst.vacant hnew.1, hnew.2⟩⟩
  others path found hpath hfound := h.others path found hpath (hst path found hfound)

/-- The record of a removal that fails is taken away. -/
theorem LosesNothing.unlinked {e : RemovalError} {record : AbsolutePath} {written : FileItem}
    (hst : Extends s t) (hsource : s.files request.source = some item)
    (hvacant : s.files record = none) (hwritten : t.files record = some written)
    (h : LosesNothing request item target t (.error e) u) :
    LosesNothing request item target s (.error e) (u.set record none) := by
  have hpresent : ∀ {path found}, s.files path = some found → path ≠ record := by
    rintro path found hfound rfl
    rw [hvacant] at hfound
    cases hfound
  refine ⟨fun e' he' hcertain => ?_, nofun, fun htarget => ?_, fun path found hpath hfound => ?_⟩
  · rw [ItemDisk.set_of_ne (hpresent hsource), h.kept e' he' hcertain]
  · obtain ⟨path, found, hfound, hcontent, hwhere⟩ := h.held htarget
    have hother : path ≠ record := by
      rintro rfl
      rcases hwhere with rfl | ⟨hnew, -⟩
      · exact hpresent hsource rfl
      · rw [hnew] at hwritten
        cases hwritten
    refine ⟨path, found, ?_, hcontent, hwhere.imp_right fun hnew => ⟨hst.vacant hnew.1, hnew.2⟩⟩
    rw [ItemDisk.set_of_ne hother, hfound]
  · rw [ItemDisk.set_of_ne (hpresent hfound), h.others path found hpath (hst path found hfound)]

theorem ensures_performRemoval {method : RecoveryMethod} {provenance : Option FileBytes}
    (hsource : s.files request.source = some item) :
    (performRemoval sha256 request method provenance).Ensures AnyCall
      (LosesNothing request item (recoveryTarget method request.item) s) s := by
  unfold performRemoval
  split
  · rename_i recoveryRoot target record hroot hpaths
    have htarget : recoveryTarget method request.item = some target := by
      unfold recoveryTarget
      rw [hpaths]
    rw [htarget]
    refine .ofExcept_bind (fun contents _ => ?_) fun _ _ => .of_extends hsource .refl
    refine steady_validateRecoveryRoot.ensures (fun same => ?_) fun _ => .of_extends hsource .refl
    refine .bind ensures_prepareProvenance ?_ fun e t ht => .of_extends hsource ht.1
    rintro _ t ⟨ht, hrecord⟩
    obtain ⟨hvacant, written, hwritten⟩ := hrecord rfl
    have hthere := ht _ _ hsource
    have hinner : (if same = true then
        moveToSameFilesystemRecovery sha256 request recoveryRoot target
        else copyToCrossFilesystemRecovery sha256 request recoveryRoot target).Ensures AnyCall
          (LosesNothing request item (some target) t) t := by
      split
      · exact ensures_moveToSameFilesystemRecovery hthere
      · exact ensures_copyToCrossFilesystemRecovery hthere
    refine ensures_orElse (hinner.mono fun r u hu => ?_)
    cases r with
    | ok attempt => exact .inl ⟨attempt, rfl, .of_later ht hu⟩
    | error e =>
        exact .inr ⟨e, rfl, .bind_returns (P := fun _ v => LosesNothing request item (some target) s
          (.error e) v) (ensures_ignoring (ensures_unlink
            ⟨(), rfl, .unlinked ht hsource hvacant hwritten hu⟩ fun _ => ⟨(), rfl, .of_later ht hu⟩))
              fun _ v hv => .ofExcept hv⟩
  · rename_i hroot
    have htarget : recoveryTarget method request.item = none := by
      cases method with
      | permanentRemoval => rfl
      | verifiedRecoveryFolder root => cases hroot
      | nativeTrash trash => cases hroot
    rw [htarget]
    exact ensures_performPermanentRemoval hsource
  · exact .ofExcept (.of_extends hsource .refl)

/-- **A removal loses nothing.** -/
theorem loses_nothing {method : RecoveryMethod} {provenance : Option FileBytes}
    {before after : RemovalDisk} {r : Except RemovalError RemovalAttempt}
    (hsource : before.files request.source = some item)
    (hrun : (performRemoval sha256 request method provenance).ReturnsUnder AnyCall before r after) :
    LosesNothing request item (recoveryTarget method request.item) before r after :=
  hrun.of_ensures (ensures_performRemoval hsource)

end

/-! ### A removal whose verification fails -/

def removedItem : FileItem := ⟨.file twoBytes, 5, 0o644, ⟨1, 10⟩⟩

def oneHash (_ : List UInt8) : Sha256 := .ofByte 1

def removedProof : SourceObservation :=
  ⟨.fromMetadata removedItem none, removedItem.contentProof oneHash⟩

def reportRemoved : RemovalRequest where
  sourceRoot := [[97]]
  item := ⟨[], [102], by decide⟩
  proof := ⟨removedProof, none, removedProof, none⟩
  requirements := ⟨true, false, false, false, ⟨false, false, false⟩⟩

def beforeRemoval : RemovalDisk :=
  ⟨fun path =>
    if path = [[97], [102]] then some removedItem
    else if path = [[97]] ∨ path = [[98]] then some { removedItem with content := .directory [] 0 }
    else none, []⟩

/-- The call of this number fails. -/
def removalAnswers (failing : Nat) (n : Nat) : CallAnswer RemovalAnswer :=
  ⟨decide (n = failing), false, ⟨UInt64.ofNat n, [[97], [102]], true, removedItem,
    .empty, some 100⟩⟩

def removedReport (failing : Nat) : Except RemovalError RemovalAttempt × RemovalDisk :=
  (performRemoval oneHash reportRemoved (.verifiedRecoveryFolder [[98]])
    (some ⟨[9], by decide⟩)).outcome (removalAnswers failing) 0 beforeRemoval

/-- The item at the target cannot be verified: the source is back, and the target stays. -/
theorem removedReport_loses_nothing :
    LosesNothing reportRemoved removedItem
        (recoveryTarget (.verifiedRecoveryFolder [[98]]) reportRemoved.item) beforeRemoval
        (removedReport 33).1 (removedReport 33).2 ∧
      (removedReport 33).2.files [[98], [102]] = some removedItem :=
  ⟨loses_nothing (by decide) (returnsUnder_outcome
    (allowedSince_of_forall (fun _ _ _ => trivial) _ _ _)), by decide +kernel⟩

end SafeDelete

end SyncPlus
