import SyncPlus.LocalRemoval
import SyncPlus.WalkedInventory

/-!
# What the operations on local peers leave

Every call of an operation is at the path it was asked for, or at a place whose name is
one of SyncPlus's own. The walks leave out some of these names, and take the failed items,
the temporary files of preserved copies and the source guards for the user's. So no state
that an operation passes through, or is interrupted in, shows the next walk anything of
SyncPlus's own exactly when each call that would put such an item at a listed place, or
take it away, fails (`artifacts_hidden_iff`).
-/

namespace SyncPlus

open PeerRoots FileCall Procedure

/-! ## Procedures whose calls fit -/

namespace LocalProcedure

/-- Every call is about places that are what their kinds say, and what is returned is one
of `Q`. -/
abbrev FittingTo (peers : PeerRoots) (lossy : LossyNames) (requested : List AbsolutePath)
    {α : Type} (Q : α → Prop) (p : LocalProcedure α) : Prop :=
  p.Takes effect (Fits peers lossy requested) Q

abbrev Fitting (peers : PeerRoots) (lossy : LossyNames) (requested : List AbsolutePath)
    {α : Type} (p : LocalProcedure α) : Prop :=
  p.FittingTo peers lossy requested fun _ => True

namespace Fitting

variable {α : Type} {peers : PeerRoots} {lossy : LossyNames} {requested : List AbsolutePath}
  {p : LocalProcedure α} {Q : α → Prop} {path : AbsolutePath}

theorem done {a : α} : (pure a : LocalProcedure α).Fitting peers lossy requested := .pure trivial

theorem fail {failure : LocalFailure} :
    (fail failure : LocalProcedure α).FittingTo peers lossy requested Q :=
  .ofExcept nofun

theorem perform {call : FileCall} (h : call.Fits peers lossy requested) :
    (perform call).Fitting peers lossy requested :=
  .call h (fun _ _ => rfl) fun _ _ _ _ => trivial

theorem inspect : (inspect path).Fitting peers lossy requested :=
  .call trivial (fun _ _ => rfl) fun _ _ _ _ => trivial

theorem look : (look path).Fitting peers lossy requested := inspect.bind fun _ _ => done

theorem stat : (stat path).Fitting peers lossy requested :=
  .call trivial (fun _ _ => rfl) fun _ _ _ _ => trivial

theorem ensureAbsent : (ensureAbsent path).Fitting peers lossy requested :=
  .call trivial (fun _ _ => rfl) fun _ _ _ _ => trivial

theorem verifyRecovery : (RemovalSource.verifyRecovery path).Fitting peers lossy requested :=
  .call trivial (fun _ _ => rfl) fun _ _ _ _ => trivial

theorem nextCount : nextCount.Fitting peers lossy requested :=
  .call trivial (fun _ _ => rfl) fun _ _ _ _ => trivial

theorem onError {handler : LocalFailure → LocalProcedure α}
    (h : p.FittingTo peers lossy requested Q)
    (hhandler : ∀ failure, (handler failure).FittingTo peers lossy requested Q) :
    (p.onError handler).FittingTo peers lossy requested Q := by
  refine h.attempt.bind fun r hr => ?_
  cases r with
  | ok a => exact .pure (hr a rfl)
  | error failure => exact hhandler failure

theorem ignore (h : p.FittingTo peers lossy requested Q) :
    (ignore p).Fitting peers lossy requested :=
  h.attempt.bind fun _ _ => done

theorem makeMissing {kind : PlaceKind} {directories : List AbsolutePath}
    (h : ∀ directory ∈ directories, PlaceFits peers lossy requested ⟨kind, directory⟩) :
    (makeMissing kind directories).Fitting peers lossy requested := by
  induction directories with
  | nil => exact done
  | cons directory rest ih =>
      obtain ⟨hfirst, hrest⟩ := List.forall_mem_cons.mp h
      have hmake : (LocalProcedure.perform (.makeDirectory ⟨kind, directory⟩)).Fitting peers lossy
        requested := perform hfirst
      refine stat.attempt.bind fun r _ => ?_
      split
      · exact ih hrest
      · refine hmake.attempt.bind fun made _ => ?_
        split
        · exact look.bind fun _ _ => ih hrest
        · exact look.bind fun _ _ => ih hrest
        · exact fail
      · exact fail

end Fitting

end LocalProcedure

/-! ## The places of an operation -/

section

variable {peers : PeerRoots} {lossy : LossyNames} {requested : List AbsolutePath}
  {target : PeerPath peers} {path : AbsolutePath}

theorem covered_place (h : target.path ∈ requested) :
    peers.Covered lossy requested target.place.path :=
  covered_of_requested h

theorem Covered.placeFits {place : Place} (h : peers.Covered lossy requested place.path) :
    PlaceFits peers lossy requested place :=
  fun _ => h _ (List.prefix_refl _)

theorem placeFits_unrecognised {kind : PlaceKind} (h : kind.unrecognised = true) :
    PlaceFits peers lossy requested ⟨kind, path⟩ := by
  intro hkind
  rw [h] at hkind
  cases hkind

theorem covered_sibling (hlossy : lossy.ReadsOn) {kind : SiblingKind} (hkind : kind ≠ .failed)
    {processId : UInt32} {sequence : UInt64} {name : Name} :
    peers.Covered lossy requested (target.beside (siblingName kind processId sequence name)) := by
  refine covered_of_artifact target.mem
    (List.mem_append_right target.directory (List.mem_singleton_self _)) ?_
  rw [isSyncplusInternalArtifact_sibling hlossy kind]
  exact decide_eq_true hkind

/-- A failed item is listed, or left out with all that is below it. -/
theorem covered_or_shown {name : Name} :
    peers.Covered lossy [target.path] (target.beside name) ∨
      peers.Shown lossy [target.path] (target.beside name) := by
  by_cases hshown : peers.Shown lossy [target.path] (target.beside name)
  · exact .inr hshown
  · refine .inl (covered_of_not_shown target.mem ?_ hshown)
    intro r hr hway
    obtain rfl := List.mem_singleton.mp hr
    have hlength : (target.beside name).length = target.path.length := by
      simp [PeerPath.path, PeerPath.beside]
    rw [hway.eq_of_length hlength]

end

/-! ## The calls of the operations fit -/

section

variable {peers : PeerRoots} {lossy : LossyNames} {α : Type} {Q : α → Prop}

open LocalProcedure (Fitting FittingTo)

namespace PlacedReplacement

variable {processId : UInt32} {source : AbsolutePath} {destination : PeerPath peers}
  {previous : Option Place} {failure : LocalFailure}

variable (lossy destination) in
/-- Left out by the walks with all that is below it. -/
abbrev Hidden (place : Place) : Prop := peers.Covered lossy [destination.path] place.path

theorem hidden_place : Hidden lossy destination destination.place :=
  covered_place (List.mem_singleton_self _)

theorem fitting_temporarySibling (hlossy : lossy.ReadsOn) {kind : SiblingKind}
    (hkind : kind ≠ .failed) : (temporarySibling processId destination kind).FittingTo peers lossy
      [destination.path] (Hidden lossy destination) :=
  Fitting.nextCount.bind fun _ _ => .pure (covered_sibling hlossy hkind)

/-- What becomes of a failed item. -/
theorem fitting_temporarySibling_failed :
    (temporarySibling processId destination .failed).FittingTo peers lossy [destination.path]
      fun failed => Fits peers lossy [destination.path] (.rename destination.place failed) :=
  Fitting.nextCount.bind fun _ _ =>
    .pure ⟨hidden_place, covered_or_shown.imp_right fun hshown => ⟨rfl, hshown⟩⟩

theorem fitting_restorePrevious (hprevious : ∀ place ∈ previous, Hidden lossy destination place) :
    (restorePrevious destination previous failure : LocalProcedure α).FittingTo peers lossy
      [destination.path] Q := by
  cases previous with
  | none => exact Fitting.fail
  | some place =>
      have hrename : Fits peers lossy [destination.path] (.rename place destination.place) :=
        ⟨hprevious place rfl, .inl hidden_place⟩
      exact (Fitting.perform hrename).mapError.bind fun _ _ => Fitting.fail

theorem fitting_restoreAfterFailedInstall {identified : Bool}
    (hprevious : ∀ place ∈ previous, Hidden lossy destination place) :
    (restoreAfterFailedInstall processId destination previous identified failure :
      LocalProcedure α).FittingTo peers lossy [destination.path] Q := by
  unfold restoreAfterFailedInstall
  split
  · refine Fitting.look.mapError.bind fun _ _ => ?_
    refine fitting_temporarySibling_failed.bind fun failed hfailed => ?_
    refine (Fitting.perform hfailed).mapError.bind fun _ _ => ?_
    refine Fitting.look.mapError.bind fun _ _ => ?_
    split
    · exact fitting_restorePrevious hprevious
    · exact Fitting.fail
  · refine Fitting.stat.attempt.bind fun r _ => ?_
    cases r with
    | ok _ => exact Fitting.fail
    | error _ => exact fitting_restorePrevious hprevious

theorem fitting_cleanupTemporary {temporary : Place} (h : Hidden lossy destination temporary)
    {policy : PartialTransferPolicy} : (cleanupTemporary temporary policy failure :
      LocalProcedure α).FittingTo peers lossy [destination.path] Q := by
  cases policy with
  | keepPartialForResume => exact Fitting.fail
  | cleanup =>
      have hremove : Fits peers lossy [destination.path] (.removeAll temporary) := h
      refine (Fitting.stat.bind fun _ _ => Fitting.perform hremove).attempt.bind fun r _ => ?_
      split <;> exact Fitting.fail

theorem fitting_preservePrevious (hlossy : lossy.ReadsOn) :
    (preservePrevious processId destination).FittingTo peers lossy [destination.path]
      fun previous => ∀ place ∈ previous, Hidden lossy destination place := by
  refine Fitting.stat.attempt.bind fun r _ => ?_
  split
  · exact .pure nofun
  · exact Fitting.fail
  · refine Fitting.look.mapError.bind fun _ _ => ?_
    refine (fitting_temporarySibling hlossy (by decide)).bind fun previous hprevious => ?_
    have hrename : Fits peers lossy [destination.path] (.rename destination.place previous) :=
      ⟨hidden_place, .inl hprevious⟩
    have hall : ∀ place ∈ some previous, Hidden lossy destination place := by
      intro place hplace
      cases hplace
      exact hprevious
    refine (Fitting.perform hrename).bind fun _ _ => ?_
    refine Fitting.onError (Fitting.look.bind fun _ _ => .pure hall) fun _ => ?_
    exact fitting_restorePrevious hall

theorem fitting_installVerified {temporary : Place} (h : Hidden lossy destination temporary)
    (hprevious : ∀ place ∈ previous, Hidden lossy destination place) :
    (installVerified processId source destination temporary previous).Fitting peers lossy
      [destination.path] := by
  have hrename : Fits peers lossy [destination.path] (.rename temporary destination.place) :=
    ⟨h, .inl hidden_place⟩
  have hrestore : ∀ identified failure, (restoreAfterFailedInstall processId destination previous
      identified failure : LocalProcedure Unit).Fitting peers lossy [destination.path] :=
    fun _ _ => fitting_restoreAfterFailedInstall hprevious
  refine (Fitting.onError Fitting.look (hrestore false)).bind fun _ _ => ?_
  refine (Fitting.onError (Fitting.perform hrename) (hrestore false)).bind fun _ _ => ?_
  refine (Fitting.onError Fitting.look (hrestore false)).bind fun _ _ => ?_
  exact Fitting.onError (Fitting.look.bind fun _ _ => Fitting.look) (hrestore true)

/-- **A verified replacement's calls fit.** -/
theorem fitting_performVerifiedReplacement (hlossy : lossy.ReadsOn)
    {policy : PartialTransferPolicy} :
    (performVerifiedReplacement processId source destination policy).Fitting peers lossy
      [destination.path] := by
  have hkind : temporaryKind policy ≠ .failed := by cases policy <;> decide
  refine Fitting.inspect.bind fun answer _ => ?_
  refine (fitting_temporarySibling hlossy hkind).bind fun temporary htemporary => ?_
  have hcreate : Fits peers lossy [destination.path] (.create temporary) :=
    Covered.placeFits htemporary
  have hclean : ∀ failure, (cleanupTemporary temporary policy failure :
      LocalProcedure Unit).Fitting peers lossy [destination.path] :=
    fun _ => fitting_cleanupTemporary htemporary
  have htransfer : Fits peers lossy [destination.path] (.transfer temporary) := htemporary
  refine Takes.bind (Q := fun _ => True) ?_ fun _ _ => ?_
  · split
    · exact Fitting.perform hcreate
    · exact Fitting.done
  refine (Fitting.onError (Fitting.perform htransfer) hclean).bind fun _ _ => ?_
  refine (Fitting.onError Fitting.look hclean).bind fun _ _ => ?_
  refine Fitting.onError (Fitting.look.bind fun _ _ => Fitting.look.bind fun _ _ => ?_) hclean
  refine (fitting_preservePrevious hlossy).bind fun previous hprevious => ?_
  exact fitting_installVerified htemporary hprevious

end PlacedReplacement

namespace PreservedCopyExecutor

variable {executor : PreservedCopyExecutor peers} {requested : List AbsolutePath}
  {source target : PeerPath peers}

theorem fitting_ensureWithinRoot {path : PeerPath peers} :
    (ensureWithinRoot path).Fitting peers lossy requested :=
  Fitting.look.bind fun _ _ => Fitting.stat.bind fun _ _ => Fitting.look

/-- The calls at the temporary file. -/
theorem fitting_installCopy (htarget : target.path ∈ requested) :
    (installCopy lossy source target).Fitting peers lossy requested := by
  refine Fitting.stat.attempt.bind fun r _ => ?_
  cases r with
  | ok _ => exact Fitting.fail
  | error _ =>
      refine Fitting.nextCount.bind fun sequence _ => ?_
      dsimp only
      have hplace : ∀ path, PlaceFits peers lossy requested ⟨.preservedTemporary, path⟩ :=
        fun _ => placeFits_unrecognised rfl
      have hcreate : ∀ path, Fits peers lossy requested (.create ⟨.preservedTemporary, path⟩) :=
        hplace
      have hremove : ∀ path,
          Fits peers lossy requested (.removeFile ⟨.preservedTemporary, path⟩) := hplace
      have hlink : ∀ temporary, Fits peers lossy requested (.link temporary target.place) :=
        fun _ => Covered.placeFits (covered_place htarget)
      have habandon : ∀ path failure, (do
          LocalProcedure.ignore (LocalProcedure.perform (.removeFile ⟨.preservedTemporary, path⟩))
          LocalProcedure.fail failure : LocalProcedure Unit).Fitting peers lossy requested :=
        fun path _ => (Fitting.ignore (Fitting.perform (hremove path))).bind fun _ _ => Fitting.fail
      refine Takes.bind (Q := fun _ => True) ?_ fun _ _ => ?_
      · refine Fitting.onError ?_ (habandon _)
        exact Fitting.look.bind fun _ _ => (Fitting.perform (hcreate _)).bind fun _ _ =>
          Fitting.look
      refine Fitting.stat.attempt.bind fun r _ => ?_
      cases r with
      | ok _ => exact habandon _ _
      | error _ =>
          refine (Fitting.onError (Fitting.perform (hlink _)) (habandon _)).bind fun _ _ => ?_
          refine (Fitting.perform (hremove _)).bind fun _ _ => ?_
          exact Fitting.look.bind fun _ _ => Fitting.look

theorem fitting_executeCopy {copy : PreservedCopyReportItem}
    (hrequested : ∀ target ∈ executor.pathOn copy.targetPeer copy.generatedPath,
      target.path ∈ requested) :
    (executor.executeCopy lossy copy).Fitting peers lossy requested := by
  refine Takes.bind (Takes.ofExcept fun _ _ => trivial) fun _ _ => ?_
  refine Takes.bind (Takes.ofExcept fun _ _ => trivial) fun _ _ => ?_
  split
  · rename_i source target hsource htarget
    have hmem : target.path ∈ requested := hrequested target htarget
    refine fitting_ensureWithinRoot.bind fun _ _ => ?_
    refine fitting_ensureWithinRoot.bind fun _ _ => ?_
    refine Fitting.look.bind fun _ _ => ?_
    refine Takes.bind (Fitting.makeMissing fun directory hdirectory _ => ?_) fun _ _ => ?_
    · have hway : directory <+: target.path := by
        have hparent : target.parent <+: target.path := by
          unfold PeerPath.path PeerPath.beside PeerPath.parent
          rw [← List.append_assoc]
          exact List.prefix_append _ _
        exact ((List.mem_inits _ _).mp hdirectory).trans hparent
      exact not_shown_of_onTheWay hmem hway
    refine fitting_ensureWithinRoot.bind fun _ _ => ?_
    exact fitting_installCopy hmem
  · exact Fitting.fail

/-- **The calls of a plan's copies fit.** -/
theorem fitting_execute {copies : List PreservedCopyReportItem}
    (hrequested : ∀ copy ∈ copies, ∀ target ∈ executor.pathOn copy.targetPeer copy.generatedPath,
      target.path ∈ requested) :
    (executor.execute lossy copies).Fitting peers lossy requested := by
  induction copies with
  | nil => exact Fitting.done
  | cons copy rest ih =>
      obtain ⟨hfirst, hrest⟩ := List.forall_mem_cons.mp hrequested
      refine (fitting_executeCopy hfirst).attempt.bind fun _ _ => ?_
      exact (ih hrest).bind fun _ _ => Fitting.done

end PreservedCopyExecutor

namespace RemovalSource

variable {source : RemovalSource peers} {guard : Place} {failure : LocalFailure}

/-- What is done at the source's own place fits. -/
theorem placeFits_place : PlaceFits peers lossy [source.path] source.place :=
  Covered.placeFits (covered_place (List.mem_singleton_self _))

theorem fitting_guardWithin {attempts : Nat} :
    (source.guardWithin attempts).FittingTo peers lossy [source.path] (·.kind = .sourceGuard) := by
  induction attempts with
  | zero => exact Fitting.fail
  | succ attempts ih =>
      refine Fitting.nextCount.bind fun sequence _ => ?_
      have hlink : ∀ path,
          Fits peers lossy [source.path] (.link source.place ⟨.sourceGuard, path⟩) :=
        fun _ => placeFits_unrecognised rfl
      refine (Fitting.perform (hlink _)).attempt.bind fun r _ => ?_
      split
      · exact Fitting.look.bind fun _ _ => .pure rfl
      · exact ih
      · exact Fitting.fail

theorem fitting_lockSource : source.lockSource.Fitting peers lossy [source.path] :=
  Fitting.look.bind fun _ _ => Fitting.look

theorem fitting_createSourceGuardForPath :
    source.createSourceGuardForPath.FittingTo peers lossy [source.path] (·.kind = .sourceGuard) :=
  fitting_lockSource.bind fun _ _ => fitting_guardWithin

theorem fitting_restoreSourceFromGuard :
    (source.restoreSourceFromGuard guard).Fitting peers lossy [source.path] := by
  have hlink : Fits peers lossy [source.path] (.link guard source.place) := placeFits_place
  refine Fitting.ensureAbsent.bind fun _ _ => ?_
  exact (Fitting.perform hlink).mapError.bind fun _ _ => Fitting.look

theorem fitting_removeSourceExact :
    (source.removeSourceExact guard).Fitting peers lossy [source.path] := by
  have hremove : Fits peers lossy [source.path] (.removeFile source.place) := placeFits_place
  have hrestore : (LocalProcedure.ignore (source.restoreSourceFromGuard guard)).Fitting peers lossy
      [source.path] := Fitting.ignore fitting_restoreSourceFromGuard
  refine fitting_lockSource.bind fun _ _ => ?_
  refine Takes.bind (Q := fun _ => True) ?_ fun _ _ => ?_
  · exact Fitting.onError (Fitting.perform hremove) fun _ =>
      hrestore.bind fun _ _ => Fitting.fail
  · exact Fitting.onError Fitting.ensureAbsent fun _ => hrestore.bind fun _ _ => Fitting.fail

theorem fitting_removeGuard {requested : List AbsolutePath}
    (hguard : guard.kind.unrecognised = true) :
    (LocalProcedure.perform (.removeFile guard)).Fitting peers lossy requested :=
  Fitting.perform (placeFits_unrecognised hguard : PlaceFits peers lossy requested guard)

theorem fitting_dropGuard {requested : List AbsolutePath} (hguard : guard.kind = .sourceGuard) :
    (dropGuard guard failure : LocalProcedure α).FittingTo peers lossy requested Q := by
  have hkind : guard.kind.unrecognised = true := by
    rw [hguard]
    rfl
  refine Takes.bind (Q := fun _ => True) ?_ fun _ _ => Fitting.fail
  split
  · exact Fitting.done
  · exact Fitting.ignore (fitting_removeGuard hkind)

theorem fitting_performPermanentRemoval :
    source.performPermanentRemoval.Fitting peers lossy [source.path] :=
  fitting_createSourceGuardForPath.bind fun _ hguard =>
    Fitting.onError fitting_removeSourceExact fun _ => fitting_dropGuard hguard

theorem fitting_makeMissing_recovery {requested directories : List AbsolutePath} :
    (LocalProcedure.makeMissing .recovery directories).Fitting peers lossy requested :=
  Fitting.makeMissing fun _ _ => placeFits_unrecognised rfl

theorem fitting_validateRecoveryRoot {recoveryRoot : AbsolutePath} {requested : List AbsolutePath} :
    (source.validateRecoveryRoot recoveryRoot).Fitting peers lossy requested := by
  have hcheck : ∀ (c : Prop) [Decidable c], (if c then LocalProcedure.fail .failed
      else pure () : LocalProcedure Unit).Fitting peers lossy requested := by
    intro c _
    split
    · exact Fitting.fail
    · exact Fitting.done
  refine Fitting.look.bind fun _ _ => Fitting.look.bind fun _ _ => (hcheck _).bind fun _ _ => ?_
  refine Fitting.look.bind fun _ _ => (hcheck _).bind fun _ _ => ?_
  exact Fitting.inspect.bind fun _ _ => Fitting.done

theorem fitting_prepareProvenance {method : RecoveryMethod} {target record : AbsolutePath}
    {requested : List AbsolutePath} :
    (prepareProvenance method target record).Fitting peers lossy requested := by
  have hcreate : Fits peers lossy requested (.create ⟨.recovery, record⟩) :=
    placeFits_unrecognised rfl
  refine Takes.bind (Q := fun _ => True) ?_ fun _ _ => ?_
  · unfold prepareRecordDirectory
    split
    · refine fitting_makeMissing_recovery.bind fun _ _ => Fitting.stat.attempt.bind fun r _ => ?_
      cases r with
      | ok _ => exact Fitting.fail
      | error _ => exact Fitting.done
    · exact fitting_makeMissing_recovery
  · exact (Fitting.perform hcreate).bind fun _ _ => Fitting.look

theorem fitting_openRecoveryParent {recoveryRoot : AbsolutePath} {requested : List AbsolutePath} :
    (source.openRecoveryParent recoveryRoot).Fitting peers lossy requested :=
  Fitting.look.bind fun _ _ => fitting_makeMissing_recovery

theorem fitting_moveToSameFilesystemRecovery {recoveryRoot target : AbsolutePath} :
    (source.moveToSameFilesystemRecovery recoveryRoot target).Fitting peers lossy
      [source.path] := by
  have hmove : Fits peers lossy [source.path] (.moveFile source.place ⟨.recovery, target⟩) :=
    ⟨placeFits_place, placeFits_unrecognised rfl⟩
  refine Fitting.look.bind fun _ _ => fitting_openRecoveryParent.bind fun _ _ => ?_
  refine Fitting.look.bind fun _ _ => fitting_guardWithin.bind fun guard hguard => ?_
  refine (Fitting.perform hmove).mapError.bind fun _ _ => ?_
  refine Fitting.onError ?_ fun _ => ?_
  · exact Fitting.ensureAbsent.bind fun _ _ => Fitting.verifyRecovery
  · refine fitting_restoreSourceFromGuard.attempt.bind fun r _ => ?_
    cases r with
    | error _ => exact Fitting.fail
    | ok _ =>
        have hkind : guard.kind.unrecognised = true := by
          rw [hguard]
          rfl
        exact (Fitting.ignore (fitting_removeGuard hkind)).bind fun _ _ => Fitting.fail

theorem fitting_recoveryTemporaryWithin {directory : AbsolutePath} {attempts : Nat}
    {requested : List AbsolutePath} :
    (source.recoveryTemporaryWithin directory attempts).FittingTo peers lossy requested
      (·.kind = .recovery) := by
  induction attempts with
  | zero => exact Fitting.fail
  | succ attempts ih =>
      refine Fitting.nextCount.bind fun sequence _ => ?_
      have hcreate : ∀ path, Fits peers lossy requested (.create ⟨.recovery, path⟩) :=
        fun _ => placeFits_unrecognised rfl
      refine (Fitting.perform (hcreate _)).attempt.bind fun r _ => ?_
      split
      · exact .pure rfl
      · exact ih
      · exact Fitting.fail

theorem fitting_copyAndRemove {temporary : Place} (htemporary : temporary.kind = .recovery)
    {target : AbsolutePath} :
    (source.copyAndRemove guard temporary target).Fitting peers lossy [source.path] := by
  have hkind : temporary.kind.unrecognised = true := by
    rw [htemporary]
    rfl
  have hmove : Fits peers lossy [source.path] (.moveFile temporary ⟨.recovery, target⟩) :=
    ⟨placeFits_unrecognised hkind, placeFits_unrecognised rfl⟩
  refine Fitting.look.bind fun _ _ => Fitting.look.bind fun _ _ => ?_
  refine Fitting.verifyRecovery.bind fun _ _ => Fitting.look.bind fun _ _ => ?_
  refine (Fitting.perform hmove).mapError.bind fun _ _ => ?_
  exact Fitting.verifyRecovery.bind fun _ _ => fitting_removeSourceExact

theorem fitting_copyToCrossFilesystemRecovery {recoveryRoot target : AbsolutePath} :
    (source.copyToCrossFilesystemRecovery recoveryRoot target).Fitting peers lossy
      [source.path] := by
  refine Fitting.inspect.bind fun answer _ => ?_
  refine Takes.bind (Q := fun _ => True) ?_ fun _ _ => ?_
  · split
    · exact Fitting.done
    · exact Fitting.fail
  refine fitting_openRecoveryParent.bind fun _ _ => ?_
  refine fitting_createSourceGuardForPath.bind fun guard hguard => ?_
  refine (Fitting.onError fitting_recoveryTemporaryWithin fun _ => fitting_dropGuard hguard).bind
    fun temporary htemporary => ?_
  have hkind : temporary.kind.unrecognised = true := by
    rw [htemporary]
    rfl
  refine Fitting.onError (fitting_copyAndRemove htemporary) fun _ => ?_
  exact (Fitting.ignore (fitting_removeGuard hkind)).bind fun _ _ => fitting_dropGuard hguard

/-- **A removal's calls fit.** -/
theorem fitting_performRemoval {method : RecoveryMethod} :
    (source.performRemoval method).Fitting peers lossy [source.path] := by
  unfold performRemoval
  split
  · rename_i recoveryRoot target record _ _
    have hrecord : (⟨.recovery, record⟩ : Place).kind.unrecognised = true := rfl
    refine fitting_validateRecoveryRoot.bind fun sameFilesystem _ => ?_
    refine fitting_prepareProvenance.bind fun _ _ => ?_
    refine Fitting.onError ?_ fun _ =>
      (Fitting.ignore (fitting_removeGuard hrecord)).bind fun _ _ => Fitting.fail
    split
    · exact fitting_moveToSameFilesystemRecovery
    · exact fitting_copyToCrossFilesystemRecovery
  · exact fitting_performPermanentRemoval
  · exact Fitting.fail

end RemovalSource

end

/-! ## What the next walk lists -/

/-- The entries below a root are what has an item. -/
def FileTree.Shows (tree : FileTree) (items : PlacedItems) (root : AbsolutePath) : Prop :=
  ∀ names, names ≠ [] →
    (items (root ++ names) = true ↔ ∃ found, (names, found) ∈ tree.entries.located)

section

variable {w : WalkScope} {peer : String} {path path' : PathBuf} {tree tree' : FileTree}
  {inventory inventory' : SourceInventory} {items before after : PlacedItems}
  {root : AbsolutePath} {names : List Name}

/-- **A walk has an item at the listed names.** -/
theorem exists_item_iff_listed (h : w.collectInventory peer path tree = .ok inventory)
    (hshows : tree.Shows items root) (hne : names ≠ []) (hvalid : ∀ name ∈ names, ValidName name) :
    (∃ item ∈ inventory.items, item.relativePath.components = names.map .normal) ↔
      Listed w.lossy items root names := by
  have hperm := WalkScope.collectInventory_perm h
  unfold Listed
  rw [hshows names hne]
  constructor
  · rintro ⟨item, hitem, hpath⟩
    obtain ⟨⟨names', found⟩, hplace, rfl⟩ := List.mem_map.mp (hperm.mem_iff.mp hitem)
    obtain ⟨hlocated, hvisible⟩ := List.mem_filter.mp hplace
    rw [WalkScope.relativePath_itemAt, ← components_pathOf hvalid,
      pathOf_inj (tree.wellFormed.valid hlocated) hvalid] at hpath
    obtain rfl : names' = names := hpath
    exact ⟨⟨found, hlocated⟩, of_decide_eq_true hvisible⟩
  · rintro ⟨⟨found, hlocated⟩, hvisible⟩
    have hplace : (names, found) ∈ tree.entries.located.filter fun place => w.Visible place :=
      List.mem_filter.mpr ⟨hlocated, decide_eq_true hvisible⟩
    refine ⟨w.itemAt ⟨[]⟩ false (names, found),
      hperm.mem_iff.mpr (List.mem_map_of_mem hplace), ?_⟩
    rw [WalkScope.relativePath_itemAt, components_pathOf hvalid]

/-- **Two walks of a peer agree where nothing was asked for.** -/
theorem walks_agree {peers : PeerRoots} {requested : List AbsolutePath}
    (hhidden : peers.ArtifactsHidden w.lossy requested before after) (hroot : root ∈ peers.roots)
    (h : w.collectInventory peer path tree = .ok inventory) (hshows : tree.Shows before root)
    (h' : w.collectInventory peer path' tree' = .ok inventory') (hshows' : tree'.Shows after root)
    (hne : names ≠ []) (hvalid : ∀ name ∈ names, ValidName name)
    (hnames : Unrequested requested (root ++ names)) :
    (∃ item ∈ inventory.items, item.relativePath.components = names.map .normal) ↔
      ∃ item ∈ inventory'.items, item.relativePath.components = names.map .normal := by
  rw [exists_item_iff_listed h hshows hne hvalid, exists_item_iff_listed h' hshows' hne hvalid]
  exact hhidden.listed root hroot names hnames

end

/-! ## The operations -/

/-- An operation on local peers. -/
inductive LocalOperation (peers : PeerRoots) where
  | replacement (processId : UInt32) (source : AbsolutePath) (destination : PeerPath peers)
      (policy : PartialTransferPolicy)
  | preservedCopies (executor : PreservedCopyExecutor peers)
      (copies : List PreservedCopyReportItem)
  | removal (source : RemovalSource peers) (method : RecoveryMethod)

namespace LocalOperation

variable {peers : PeerRoots} (lossy : LossyNames)

/-- The paths it was asked to write or to remove. -/
def requested : LocalOperation peers → List AbsolutePath
  | replacement _ _ destination _ => [destination.path]
  | preservedCopies executor copies => copies.filterMap fun copy =>
      (executor.pathOn copy.targetPeer copy.generatedPath).map (·.path)
  | removal source _ => [source.path]

def program : LocalOperation peers → LocalProcedure Unit
  | replacement processId source destination policy =>
      PlacedReplacement.performVerifiedReplacement processId source destination policy
  | preservedCopies executor copies => do
      let _ ← executor.execute lossy copies
      return ()
  | removal source method => source.performRemoval method

variable {lossy}

theorem fitting_program (hlossy : lossy.ReadsOn) (operation : LocalOperation peers) :
    (operation.program lossy).Fitting peers lossy operation.requested := by
  cases operation with
  | replacement => exact PlacedReplacement.fitting_performVerifiedReplacement hlossy
  | removal => exact RemovalSource.fitting_performRemoval
  | preservedCopies executor copies =>
      refine (PreservedCopyExecutor.fitting_execute fun copy hcopy target htarget => ?_).bind
        fun _ _ => LocalProcedure.Fitting.done
      refine List.mem_filterMap.mpr ⟨copy, hcopy, ?_⟩
      rw [Option.mem_def.mp htarget]
      rfl

/-- **What an operation leaves is hidden, whenever it ends or dies,** exactly when its calls
spare the listed places. -/
theorem artifacts_hidden_iff (hlossy : lossy.ReadsOn) (operation : LocalOperation peers)
    (answers : Nat → FileAnswer) (before : PlacedItems) :
    (∀ k, peers.ArtifactsHidden lossy operation.requested before
        ((operation.program lossy).interrupted answers 0 k before)) ↔
      (operation.program lossy).AllowedSince (Spares peers lossy operation.requested) answers 0
        before := by
  refine Iff.trans (forall_congr' fun k => artifactsHidden_iff)
    (interrupted_invariant_iff (fun _ _ _ => sameShown_effect) (fun _ _ _ => not_sameShown_effect)
      (fitting_program hlossy operation) fun path _ => rfl)

/-! ### A replacement that succeeds and one that is rolled back -/

def homePeer : PeerRoots where
  roots := [[asciiBytes "b"]]
  apart := by simp

/-- A report is replaced by the one of another peer. -/
def reportReplaced : LocalOperation homePeer :=
  replacement 7 [asciiBytes "a", asciiBytes "r"] ⟨[asciiBytes "b"], .head _, [], asciiBytes "r"⟩
    .cleanup

def bothReports : PlacedItems := fun path =>
  path ∈ [[asciiBytes "a", asciiBytes "r"], [asciiBytes "b", asciiBytes "r"]]

/-- Every call goes well but one. -/
def failingAt (step : Nat) (n : Nat) : FileAnswer where
  fails := n == step
  regular := true
  differs := false
  sameFilesystem := true
  sequence := UInt64.ofNat n
  left names := names.isEmpty

theorem reportReplaced_hidden :
    (reportReplaced.program .decoding).AllowedSince
        (Spares homePeer .decoding reportReplaced.requested) (failingAt 100) 0 bothReports ∧
      ∀ k, homePeer.ArtifactsHidden .decoding reportReplaced.requested bothReports
        ((reportReplaced.program .decoding).interrupted (failingAt 100) 0 k bothReports) := by
  have hallowed : (reportReplaced.program .decoding).AllowedSince
      (Spares homePeer .decoding reportReplaced.requested) (failingAt 100) 0 bothReports := by
    decide +kernel
  exact ⟨hallowed, (artifacts_hidden_iff LossyNames.readsOn_decoding reportReplaced
    (failingAt 100) bothReports).mpr hallowed⟩

/-- The last look at the source fails, and the failed item stays. -/
theorem reportReplaced_leaves_failed :
    ¬ homePeer.ArtifactsHidden .decoding reportReplaced.requested bothReports
      ((reportReplaced.program .decoding).interrupted (failingAt 16) 0 30 bothReports) := by
  rw [artifactsHidden_iff]
  intro hsame
  have hkept := hsame [asciiBytes "b",
    siblingName .failed 7 (UInt64.ofNat 18) (asciiBytes "r")] (by decide +kernel)
  revert hkept
  decide +kernel

end LocalOperation

end SyncPlus
