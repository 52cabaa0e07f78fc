import SyncPlus.Lib.Sha256
import SyncPlus.Replacement

/-!
# What a verified replacement leaves

Whatever fails and whatever the transfer writes, a replacement leaves the source as
it is, keeps the item that was at the destination, and installs only what it
verified. Up to two exceptions it leaves the destination as it was whenever it fails
without calling the outcome uncertain (`replacement_atomic_iff`):

- nothing was at the destination, and neither the metadata of the installed item nor,
  in the rollback, the destination itself could be read: the rollback then takes the
  installed item for one that is not there;
- the transfer left a link, and the time of the source was set at the item at the
  destination, which had another.

Both are told by the calls of the replacement. The proof follows the item that is
moved aside: `Staging` is what holds until then, `Aside` what holds while it is away,
and `Settled` how a replacement can end.
-/

namespace SyncPlus

open Procedure

/-! ## Atomicity -/

abbrev ReplacementCalls := List (ReplacementStep × CallAnswer ReplacementAnswer)

def Failed (step : ReplacementStep) (calls : ReplacementCalls) : Prop :=
  ∃ call ∈ calls, call.1 = step ∧ call.2.fails = true

def Succeeded (step : ReplacementStep) (calls : ReplacementCalls) : Prop :=
  ∃ call ∈ calls, call.1 = step ∧ call.2.fails = false

/-- The item has no other content than a file of the source that has its size and hash. -/
def NoHashCollision (sha256 : List UInt8 → Sha256) (disk : ReplacementDisk) (staged : FileItem) :
    Prop :=
  ∀ source ∈ disk.files .source, source.itemType = .regularFile →
    staged.contentProof sha256 = source.contentProof sha256 → staged.content = source.content

/-- The transfer makes no collision. -/
def WithoutCollision (sha256 : List UInt8 → Sha256) (step : ReplacementStep)
    (answer : CallAnswer ReplacementAnswer) (disk : ReplacementDisk) : Prop :=
  step = .transfer → ∀ staged ∈ answer.extra.transferred, NoHashCollision sha256 disk staged

/-- The destination holds an item of the source's type and content. -/
def Installed (metadata : MetadataRequirements) (before after : ReplacementDisk) : Prop :=
  ∃ source item, before.files .source = some source ∧ after.files .destination = some item ∧
    (metadata.fileType = true → item.itemType = source.itemType) ∧
    ∀ bytes, source.content = .file bytes → item.content = .file bytes

/-- The item is at a previous path that was free, the one that a replacement returns. -/
def MovedAside (before : ReplacementDisk) (r : Except ReplacementError VerifiedReplacement)
    (after : ReplacementDisk) (item : FileItem) : Prop :=
  ∃ sequence, before.files (.sibling .previous sequence) = none ∧
    after.files (.sibling .previous sequence) = some item ∧
    ∀ replacement, r = .ok replacement →
      replacement.previousDestination = some (.sibling .previous sequence)

structure Atomic (metadata : MetadataRequirements) (before : ReplacementDisk)
    (r : Except ReplacementError VerifiedReplacement) (after : ReplacementDisk) : Prop where
  source : after.files .source = before.files .source
  previous : ∀ item, before.files .destination = some item →
    after.files .destination = some item ∨ MovedAside before r after item
  installed : ∀ replacement, r = .ok replacement → Installed metadata before after
  restored : ∀ e, r = .error e → e.isUncertain = false →
    after.files .destination = before.files .destination

/-- Nothing was at the destination, and neither the installed item nor, in the
rollback, the destination could be read. -/
def Unnoticed (before : ReplacementDisk) (calls : ReplacementCalls) : Prop :=
  before.files .destination = none ∧ Failed .installedMetadata calls ∧
    Failed .rollbackMetadata calls ∧ ¬ Failed .cleanupMetadata calls

/-- The time was set at the item at the destination, which had another than the source. -/
def DatedThroughLink (before : ReplacementDisk) (calls : ReplacementCalls) : Prop :=
  Succeeded (.setModified .destination) calls ∧
    (before.files .destination).map FileItem.modified ≠
      (before.files .source).map FileItem.modified

/-! ## Calls that matter, and others -/

/-- The exceptions do not speak of the call. -/
def QuietStep (step : ReplacementStep) : Prop :=
  match step with
  | .installedMetadata | .rollbackMetadata | .cleanupMetadata | .setModified _ => False
  | _ => True

/-- Nor is it one of the cleanup. -/
def RollbackStep (step : ReplacementStep) : Prop :=
  match step with
  | .cleanupMetadata | .setModified _ => False
  | _ => True

def CleanupStep (step : ReplacementStep) : Prop :=
  step = .cleanupMetadata ∨ step = .removeStaged

/-- Each of the reads that can leave an item unnoticed has succeeded so far. -/
def AllRead (calls : ReplacementCalls) : Prop :=
  ∀ step ∈ [ReplacementStep.installedMetadata, .rollbackMetadata, .cleanupMetadata],
    ¬ Failed step calls

section

variable {step : ReplacementStep} {calls own after : ReplacementCalls}
  {answer : CallAnswer ReplacementAnswer} {L : ReplacementStep → Prop}

theorem QuietStep.rollback (step : ReplacementStep) (h : QuietStep step) : RollbackStep step := by
  cases step <;> trivial

theorem failed_append : Failed step (calls ++ own) ↔ Failed step calls ∨ Failed step own := by
  unfold Failed
  simp only [List.mem_append, or_and_right, exists_or]

theorem succeeded_append :
    Succeeded step (calls ++ own) ↔ Succeeded step calls ∨ Succeeded step own := by
  unfold Succeeded
  simp only [List.mem_append, or_and_right, exists_or]

theorem failed_since (h : CallsSince L calls after) (hstep : ¬ L step) :
    Failed step after ↔ Failed step calls := by
  obtain ⟨own, rfl, hown⟩ := h
  refine failed_append.trans (or_iff_left ?_)
  rintro ⟨call, hcall, rfl, -⟩
  exact hstep (hown call hcall)

theorem succeeded_since (h : CallsSince L calls after) (hstep : ¬ L step) :
    Succeeded step after ↔ Succeeded step calls := by
  obtain ⟨own, rfl, hown⟩ := h
  refine succeeded_append.trans (or_iff_left ?_)
  rintro ⟨call, hcall, rfl, -⟩
  exact hstep (hown call hcall)

theorem AllRead.since (h : AllRead calls) (hafter : CallsSince L calls after)
    (hL : ∀ step ∈ [ReplacementStep.installedMetadata, .rollbackMetadata, .cleanupMetadata],
      ¬ L step) : AllRead after :=
  fun step hstep hfailed => h step hstep ((failed_since hafter (hL step hstep)).mp hfailed)

theorem not_quiet_read : ∀ step ∈ [ReplacementStep.installedMetadata, .rollbackMetadata,
    .cleanupMetadata], ¬ QuietStep step := by
  simp [QuietStep]

theorem not_quiet_setModified {path : ReplacementPath} : ¬ QuietStep (.setModified path) :=
  not_false

theorem datedThroughLink_since {before : ReplacementDisk} (h : CallsSince L calls after)
    (hstep : ¬ L (.setModified .destination)) :
    DatedThroughLink before after ↔ DatedThroughLink before calls := by
  unfold DatedThroughLink
  rw [succeeded_since h hstep]

theorem failed_snoc : Failed step (calls ++ [(step, answer)]) ↔
    Failed step calls ∨ answer.fails = true := by
  rw [failed_append]
  simp [Failed]

theorem failed_of_broken (h : Broken step calls after) : Failed step after := by
  obtain ⟨own, rfl, hown, call, hcall, hfails⟩ := h
  exact failed_append.mpr (.inr ⟨call, hcall, hown call hcall, hfails⟩)

theorem not_failed_nil : ¬ Failed step [] := by
  rintro ⟨call, hcall, -⟩
  cases hcall

theorem not_succeeded_nil : ¬ Succeeded step [] := by
  rintro ⟨call, hcall, -⟩
  cases hcall

end

/-! ## What holds on the way -/

/-- The observation of the source. -/
def Observes (sha256 : List UInt8 → Sha256) (before : ReplacementDisk)
    (observation : SourceObservation) : Prop :=
  ∃ item target, before.files .source = some item ∧
    observation = ⟨.fromMetadata item target, item.contentProof sha256⟩

/-- The destination is as it was, or has got a time through the link that was staged. -/
def Dated (before u : ReplacementDisk) (temporary : ReplacementPath) (calls : ReplacementCalls) :
    Prop :=
  (¬ DatedThroughLink before calls ∧ u.files .destination = before.files .destination) ∨
    (DatedThroughLink before calls ∧ ∃ item time link, before.files .destination = some item ∧
      item.modified ≠ time ∧ item.itemType ≠ .symlink ∧
        u.files .destination = some { item with modified := time } ∧
          u.files temporary = some link ∧ link.itemType = .symlink)

/-- Before anything is moved. -/
structure Staging (sha256 : List UInt8 → Sha256) (before u : ReplacementDisk)
    (temporary : ReplacementPath) (calls : ReplacementCalls) : Prop where
  source : u.files .source = before.files .source
  free : ∀ sequence, u.files (.sibling .previous sequence) = none ↔
    before.files (.sibling .previous sequence) = none
  staged : ∀ staged, u.files temporary = some staged → NoHashCollision sha256 before staged
  dated : Dated before u temporary calls
  read : AllRead calls

/-- What is left of the disk `u` on which items began to be moved. -/
structure Left (temporary : ReplacementPath) (u t : ReplacementDisk) : Prop where
  source : t.files .source = u.files .source
  free : ∀ sequence, u.files (.sibling .previous sequence) = none →
    t.files (.sibling .previous sequence) = none ∨
      t.files (.sibling .previous sequence) = u.files .destination
  destination : t.files .destination = u.files .destination ∨ t.files .destination = none ∨
    t.files .destination = u.files temporary

/-- The destination was vacant, or its item is at the path that it was moved to. -/
structure Aside (u v : ReplacementDisk) (previous : Option ReplacementPath) : Prop where
  source : v.files .source = u.files .source
  free : ∀ sequence, u.files (.sibling .previous sequence) = none →
    v.files (.sibling .previous sequence) = none ∨
      v.files (.sibling .previous sequence) = u.files .destination
  held : (previous = none ∧ u.files .destination = none) ∨
    ∃ sequence item, previous = some (.sibling .previous sequence) ∧
      u.files .destination = some item ∧ u.files (.sibling .previous sequence) = none ∧
        v.files (.sibling .previous sequence) = some item

/-- The error calls the outcome uncertain, or the item was installed. -/
def EndsKnown (metadata : MetadataRequirements) (previous : Option ReplacementPath)
    (u : ReplacementDisk) (r : Except ReplacementError VerifiedReplacement)
    (t : ReplacementDisk) : Prop :=
  (∃ e, r = .error e ∧ e.isUncertain = true) ∨
    ∃ replacement, r = .ok replacement ∧ replacement.previousDestination = previous ∧
      Installed metadata u t

/-- How a replacement ends that knows what it has installed. -/
inductive Verdict (metadata : MetadataRequirements) (u : ReplacementDisk)
    (r : Except ReplacementError VerifiedReplacement) (t : ReplacementDisk) : Prop
  | kept (e : ReplacementError) : r = .error e → t.files .destination = u.files .destination →
      Verdict metadata u r t
  | moved (sequence : UInt64) (item : FileItem) : u.files .destination = some item →
      u.files (.sibling .previous sequence) = none →
        t.files (.sibling .previous sequence) = some item →
          EndsKnown metadata (some (.sibling .previous sequence)) u r t → Verdict metadata u r t
  | vacant : u.files .destination = none → EndsKnown metadata none u r t → Verdict metadata u r t

structure Known (metadata : MetadataRequirements) (temporary : ReplacementPath)
    (u : ReplacementDisk) (r : Except ReplacementError VerifiedReplacement)
    (t : ReplacementDisk) : Prop extends Left temporary u t where
  verdict : Verdict metadata u r t

/-- The rollback could not tell the installed item from none. -/
def Unread (u : ReplacementDisk) (calls : ReplacementCalls) : Prop :=
  u.files .destination = none ∧ Failed .installedMetadata calls ∧ Failed .rollbackMetadata calls

/-- How a replacement can end. -/
inductive Settled (metadata : MetadataRequirements) (temporary : ReplacementPath)
    (u : ReplacementDisk) (r : Except ReplacementError VerifiedReplacement)
    (calls : ReplacementCalls) (t : ReplacementDisk) : Prop
  | known : Known metadata temporary u r t → ¬ Unread u calls →
      Settled metadata temporary u r calls t
  | unnoticed (e : ReplacementError) : Left temporary u t → r = .error e →
      e.isUncertain = false → t.files .destination ≠ none → t.files temporary = none →
        Unread u calls → Settled metadata temporary u r calls t

/-- A temporary path of the transfer. -/
def IsTemporary (path : ReplacementPath) : Prop :=
  ∃ policy sequence, path = .sibling (temporaryKind policy) sequence

theorem IsTemporary.ne {path : ReplacementPath} (h : IsTemporary path) :
    path ≠ .source ∧ path ≠ .destination ∧
      ∀ sequence, path ≠ .sibling .previous sequence ∧ path ≠ .sibling .failed sequence := by
  obtain ⟨policy, sequence, rfl⟩ := h
  cases policy <;> simp [temporaryKind]

section

variable {allows : ReplacementStep → CallAnswer ReplacementAnswer → ReplacementDisk → Prop}
  {before u v w : ReplacementDisk} {temporary : ReplacementPath}
  {sha256 : List UInt8 → Sha256} {named : Bool} {metadata : MetadataRequirements}
  {observation : SourceObservation} {calls after : ReplacementCalls}

/-! ## Parts that make quiet calls -/

theorem ensuresAlong_kept {α β : Type} {p : Replace α} {f : α → Replace β}
    {Q : Except ReplacementError β → ReplacementCalls → ReplacementDisk → Prop}
    (hp : p.Ensures allows (fun _ t => t = u) u) (hlabels : p.Labels QuietStep)
    (hok : ∀ a after, CallsSince QuietStep calls after → (f a).EnsuresAlong allows Q after u)
    (herror : ∀ e after, CallsSince QuietStep calls after → Q (.error e) after u) :
    (p >>= f).EnsuresAlong allows Q calls u := by
  refine .bind (EnsuresAlong.of_ensures hp hlabels) ?_ ?_
  · rintro a after _ ⟨rfl, hafter⟩
    exact hok a after hafter
  · rintro e after _ ⟨rfl, hafter⟩
    exact herror e after hafter

theorem ensures_checkCancelled_same : checkCancelled.Ensures allows (fun _ t => t = u) u :=
  ensures_checkCancelled rfl fun _ => rfl

theorem ensuresAlong_checkCancelled {β : Type} {f : Unit → Replace β}
    {Q : Except ReplacementError β → ReplacementCalls → ReplacementDisk → Prop}
    (hok : ∀ after, CallsSince QuietStep calls after → (f ()).EnsuresAlong allows Q after u)
    (herror : ∀ e after, CallsSince QuietStep calls after → Q (.error e) after u) :
    (checkCancelled >>= f).EnsuresAlong allows Q calls u :=
  ensuresAlong_kept ensures_checkCancelled_same (labels_checkCancelled trivial)
    (fun _ => hok) herror

/-! ## Staging -/

theorem Staging.since (h : Staging sha256 before u temporary calls)
    (hafter : CallsSince QuietStep calls after) : Staging sha256 before u temporary after := by
  refine ⟨h.source, h.free, h.staged, ?_, h.read.since hafter not_quiet_read⟩
  unfold Dated
  rw [datedThroughLink_since hafter not_quiet_setModified]
  exact h.dated

theorem dateItem_of_ne {reached path : ReplacementPath} {item : FileItem} {time : Int}
    (h : path ≠ reached) : (dateItem u reached item time).files path = u.files path :=
  ItemDisk.set_of_ne h

theorem dateItem_content {reached path : ReplacementPath} {item found : FileItem} {time : Int}
    (hitem : u.files reached = some item)
    (h : (dateItem u reached item time).files path = some found) :
    ∃ old, u.files path = some old ∧ old.content = found.content := by
  by_cases hpath : path = reached
  · rw [hpath, dateItem, ItemDisk.set_same, Option.some.injEq] at h
    rw [hpath, ← h]
    exact ⟨item, hitem, rfl⟩
  · rw [dateItem_of_ne hpath] at h
    exact ⟨found, h, rfl⟩

theorem dateItem_eq_none {reached path : ReplacementPath} {item : FileItem} {time : Int}
    (hitem : u.files reached = some item) :
    (dateItem u reached item time).files path = none ↔ u.files path = none := by
  by_cases hpath : path = reached
  · rw [hpath, dateItem, ItemDisk.set_same, hitem]
    simp
  · rw [dateItem_of_ne hpath]

theorem NoHashCollision.of_content {staged other : FileItem}
    (h : NoHashCollision sha256 before staged) (hcontent : staged.content = other.content) :
    NoHashCollision sha256 before other := by
  intro source hsource hregular hproof
  rw [← hcontent]
  refine h source hsource hregular (Eq.trans ?_ hproof)
  unfold FileItem.contentProof
  rw [hcontent]

/-- The time of the source is set at what the temporary path reaches. -/
theorem Staging.dateItem (h : Staging sha256 before u temporary calls)
    (hcalm : ¬ Succeeded (.setModified .destination) calls) (htemporary : IsTemporary temporary)
    {leadsTo reached : ReplacementPath} {item source : FileItem}
    {answer : CallAnswer ReplacementAnswer} (hanswer : answer.fails = false)
    (hreached : reachedPath u leadsTo temporary = some reached)
    (hitem : u.files reached = some item) (hsource : before.files .source = some source) :
    Staging sha256 before (dateItem u reached item source.modified) temporary
      (calls ++ [(.setModified reached, answer)]) := by
  have hdestination : u.files .destination = before.files .destination := by
    rcases h.dated with ⟨-, heq⟩ | ⟨⟨hset, -⟩, -⟩
    · exact heq
    · exact absurd hset hcalm
  have hsince : CallsSince (fun step => step = .setModified reached) calls
      (calls ++ [(.setModified reached, answer)]) := .snoc rfl
  refine ⟨?_, fun sequence => (dateItem_eq_none hitem).trans (h.free sequence), ?_, ?_,
    h.read.since hsince (by simp)⟩
  · by_cases hpath : reached = .source
    · subst hpath
      rw [h.source, hsource] at hitem
      obtain rfl := Option.some.inj hitem
      rw [SyncPlus.dateItem, ItemDisk.set_same, hsource]
    · rw [dateItem_of_ne (Ne.symm hpath), h.source]
  · intro staged hstaged
    obtain ⟨old, hold, hcontent⟩ := dateItem_content hitem hstaged
    exact (h.staged old hold).of_content hcontent
  · by_cases hpath : reached = .destination
    · subst hpath
      obtain ⟨other, hother, hunlinked, link, hlink, hdirect⟩ := reachedPath_some hreached
      obtain rfl : item = other := Option.some.inj (hitem.symm.trans hother)
      have hsymlink : link.itemType = .symlink := by
        by_contra hnot
        exact htemporary.ne.2.1 (hdirect hnot).symm
      rw [hdestination] at hitem
      by_cases hsame : item.modified = source.modified
      · refine .inl ⟨?_, ?_⟩
        · rintro ⟨-, hdiffer⟩
          rw [hitem, hsource] at hdiffer
          exact hdiffer (congrArg some hsame)
        · rw [SyncPlus.dateItem, ItemDisk.set_same, hitem, ← hsame]
      · refine .inr ⟨⟨succeeded_append.mpr (.inr ⟨_, .head _, rfl, hanswer⟩), ?_⟩, item,
          source.modified, link, hitem, hsame, hunlinked, ?_, ?_, hsymlink⟩
        · rw [hitem, hsource]
          exact fun heq => hsame (Option.some.inj heq)
        · rw [SyncPlus.dateItem, ItemDisk.set_same]
        · rw [dateItem_of_ne htemporary.ne.2.1, hlink]
    · refine .inl ⟨?_, ?_⟩
      · rintro ⟨hset, -⟩
        refine hcalm ((succeeded_since hsince ?_).mp hset)
        rintro ⟨⟩
        exact hpath rfl
      · rw [dateItem_of_ne (Ne.symm hpath), hdestination]

/-- A time that could not be set. -/
theorem Staging.undated (h : Staging sha256 before u temporary calls) {reached : ReplacementPath}
    {answer : CallAnswer ReplacementAnswer} (hanswer : answer.fails = true) :
    Staging sha256 before u temporary (calls ++ [(.setModified reached, answer)]) := by
  have hsince : CallsSince (fun step => step = .setModified reached) calls
      (calls ++ [(.setModified reached, answer)]) := .snoc rfl
  have hset : Succeeded (.setModified .destination) (calls ++ [(.setModified reached, answer)]) ↔
      Succeeded (.setModified .destination) calls := by
    refine succeeded_append.trans (or_iff_left ?_)
    rintro ⟨call, hcall, -, hfine⟩
    rw [List.mem_singleton.mp hcall, hanswer] at hfine
    cases hfine
  refine ⟨h.source, h.free, h.staged, ?_, h.read.since hsince (by simp)⟩
  unfold Dated DatedThroughLink
  rw [hset]
  exact h.dated

theorem Observes.modified_eq (h : Observes sha256 before observation) {time : Int}
    (htime : observation.metadata.modifiedAt = some time) :
    ∃ source, before.files .source = some source ∧ source.modified = time := by
  obtain ⟨item, target, hitem, rfl⟩ := h
  refine ⟨item, hitem, ?_⟩
  unfold FileMetadataProof.modifiedAt FileMetadataProof.fromMetadata
    FileItem.modifiedAtUnixNanos at htime
  dsimp only at htime
  split at htime
  · rename_i hrange
    rw [Option.map_some, Option.some.injEq] at htime
    rw [← htime, Int64.toInt_ofInt_of_le (by omega) (by omega)]
  · cases htime

theorem ensuresAlong_applyMetadataRequirements (h : Staging sha256 before u temporary calls)
    (hcalm : ¬ Succeeded (.setModified .destination) calls) (htemporary : IsTemporary temporary)
    (hobserves : Observes sha256 before observation) :
    (applyMetadataRequirements temporary observation.metadata metadata).EnsuresAlong allows
      (fun _ after t => Staging sha256 before t temporary after) calls u := by
  unfold applyMetadataRequirements
  split
  · refine .ofExcept_bind (fun time htime => ?_) fun _ _ => h
    obtain ⟨source, hsource, rfl⟩ := hobserves.modified_eq (orError_eq_ok.mp htime)
    refine .bind (EnsuresAlong.of_ensures (L := QuietStep) (ensures_openForTime
      (Q := fun r t => t = u ∧ ∀ reached, r = .ok reached →
        ∃ leadsTo, reachedPath u leadsTo temporary = some reached) ?_ ?_)
      (labels_openForTime trivial)) ?_ ?_
    · intro leadsTo reached _ hreached
      exact ⟨rfl, by rintro _ ⟨⟩; exact ⟨leadsTo, hreached⟩⟩
    · exact fun e _ => ⟨rfl, by rintro _ ⟨⟩⟩
    · rintro reached after _ ⟨⟨rfl, hreached⟩, hafter⟩
      obtain ⟨leadsTo, hreached⟩ := hreached reached rfl
      obtain ⟨item, hitem, -⟩ := reachedPath_some hreached
      have hstaging := h.since hafter
      have hcalm' : ¬ Succeeded (.setModified .destination) after :=
        fun hset => hcalm ((succeeded_since hafter not_quiet_setModified).mp hset)
      refine .mapError (ensuresAlong_itemCall ?_ ?_ ?_)
      · intro answer hanswer a t hf
        simp only [hitem, Except.ok.injEq, Prod.mk.injEq] at hf
        rw [← hf.2]
        exact hstaging.dateItem hcalm' htemporary hanswer hreached hitem hsource
      · intro answer _ kind hf
        simp [hitem] at hf
      · exact fun answer hanswer => hstaging.undated hanswer
    · rintro e after _ ⟨⟨rfl, -⟩, hafter⟩
      exact h.since hafter
  · exact .pure h

/-- What was staged is verified, and the source observed again. -/
theorem ensuresAlong_verifyStaged (h : Staging sha256 before u temporary calls)
    (hcalm : ¬ Succeeded (.setModified .destination) calls) (htemporary : IsTemporary temporary)
    (hobserves : Observes sha256 before observation) :
    (verifyStaged sha256 temporary metadata observation).EnsuresAlong allows
      (fun _ after t => Staging sha256 before t temporary after) calls u := by
  refine ensuresAlong_checkCancelled (fun after hafter => ?_) fun _ _ hafter => h.since hafter
  refine ensuresAlong_kept (ensures_syncStagedItem rfl fun _ _ => rfl)
    (labels_syncStagedItem trivial) (fun _ after' hafter' => ?_)
    fun _ _ hafter' => h.since (hafter.trans hafter')
  refine ensuresAlong_checkCancelled (fun after'' hafter'' => ?_)
    fun _ _ hafter'' => h.since ((hafter.trans hafter').trans hafter'')
  have hsince := (hafter.trans hafter').trans hafter''
  refine .bind (ensuresAlong_applyMetadataRequirements (h.since hsince)
    (fun hset => hcalm ((succeeded_since hsince not_quiet_setModified).mp hset)) htemporary hobserves) ?_
    fun _ _ _ ht => ht
  rintro _ later t ht
  refine (EnsuresAlong.of_ensures (L := QuietStep) (Q := fun _ t' => t' = t) ?_ ?_).mono ?_
  · refine ensures_guarded (.mapError (ensures_capture ?_ ?_ ?_))
    · intro item target _ _
      refine .inl ⟨_, rfl, .ofExcept_bind (fun _ _ => ?_) fun _ _ => rfl⟩
      refine ensures_guarded (ensures_verifyObserved (fun _ => .inl ⟨_, rfl, ?_⟩)
        fun _ _ => .inr ⟨_, rfl, rfl⟩)
      refine ensures_guarded (.mapError (ensures_captureWithCancel (fun _ _ _ _ _ => .inl ⟨_, rfl, ?_⟩)
        fun _ _ => .inr ⟨_, rfl, rfl⟩))
      refine .ofExcept_bind (fun _ _ => ?_) fun _ _ => rfl
      exact ensures_guarded (ensures_checkCancelled (.inl ⟨_, rfl, .pure rfl⟩)
        fun _ => .inr ⟨_, rfl, rfl⟩)
    · exact fun _ => .inr ⟨_, rfl, rfl⟩
    · exact fun _ => .inr ⟨_, rfl, rfl⟩
  · refine .bind (.mapError (labels_capture (by trivial))) fun _ => .bind .ofExcept fun _ => ?_
    refine .bind (labels_verifyObserved trivial) fun _ => ?_
    refine .bind (.mapError (labels_captureWithCancel (by trivial))) fun _ => ?_
    exact .bind .ofExcept fun _ => .bind (labels_checkCancelled trivial) fun _ => .pure
  · rintro _ _ _ ⟨rfl, hafter⟩
    exact ht.since hafter

/-! ## Moving aside and back -/

/-- What fails before anything is moved leaves the destination. -/
theorem known_self (e : ReplacementError) : Known metadata temporary u (.error e) u where
  source := rfl
  free := fun _ hfree => .inl hfree
  destination := .inl rfl
  verdict := .kept e rfl rfl

namespace Aside

variable {previous : Option ReplacementPath}

/-- What ends here has the item where it was moved to. -/
theorem known (h : Aside u v previous)
    (hdestination : v.files .destination = none ∨ v.files .destination = u.files temporary)
    {r : Except ReplacementError VerifiedReplacement} (hends : EndsKnown metadata previous u r v) :
    Known metadata temporary u r v where
  source := h.source
  free := h.free
  destination := .inr hdestination
  verdict := by
    rcases h.held with ⟨rfl, hvacant⟩ | ⟨sequence, item, rfl, hitem, hfree, hheld⟩
    · exact .vacant hvacant hends
    · exact .moved sequence item hitem hfree hheld hends

/-- An outcome that is called uncertain. -/
theorem known_uncertain (h : Aside u v previous)
    (hdestination : v.files .destination = none ∨ v.files .destination = u.files temporary)
    (reason : UncertainReason) :
    Known metadata temporary u (.error (.recoveryUncertain reason)) v :=
  h.known hdestination (.inl ⟨_, rfl, rfl⟩)

/-- Where the destination is vacant the item is moved back, or the outcome is
called uncertain. -/
theorem ensures_restorePrevious {α : Type} (h : Aside u v previous)
    (hvacant : v.files .destination = none) (e : ReplacementError) :
    (restorePrevious previous e : Replace α).Ensures allows
      (fun r t => ∃ e', r = .error e' ∧ Known metadata temporary u (.error e') t) v := by
  rcases h.held with ⟨rfl, hnone⟩ | ⟨sequence, item, rfl, hitem, hfree, hheld⟩
  · exact Replace.ensures_fail ⟨e, rfl, ⟨h.source, h.free, .inr (.inl hvacant)⟩,
      .kept e rfl (hvacant.trans hnone.symm)⟩
  · refine ensures_guarded (.mapError (ensures_renameItem ?_ ?_))
    · intro found hfound _
      obtain rfl : item = found := Option.some.inj (hheld.symm.trans hfound)
      refine .inl ⟨_, rfl, Replace.ensures_fail ⟨e, rfl, ⟨?_, fun other hother => ?_, ?_⟩,
        .kept e rfl ?_⟩⟩
      · rw [ItemDisk.set_of_ne (by simp), ItemDisk.set_of_ne (by simp), h.source]
      · rw [ItemDisk.set_of_ne (by simp)]
        by_cases hsame : other = sequence
        · rw [hsame, ItemDisk.set_same]
          exact .inl rfl
        · rw [ItemDisk.set_of_ne (by simp [hsame])]
          exact h.free other hother
      · rw [ItemDisk.set_same]
        exact .inl hitem.symm
      · rw [ItemDisk.set_same, hitem]
    · exact fun kind _ => .inr ⟨_, rfl, _, rfl, h.known_uncertain (.inl hvacant) _⟩

end Aside

/-- What is at the destination is moved aside, or the replacement ends. -/
theorem ensures_preservePrevious (metadata : MetadataRequirements)
    (temporary : ReplacementPath) :
    (preservePrevious named).Ensures allows
      (fun r v => (∃ previous, r = .ok previous ∧ Aside u v previous ∧
          v.files .destination = none ∧
          (IsTemporary temporary → v.files temporary = u.files temporary)) ∨
        ∃ e, r = .error e ∧ Known metadata temporary u (.error e) v) u := by
  refine .bind_returns (P := fun r v => (r = .error .notFound ∧ u.files .destination = none ∧ v = u) ∨
    (r = .error .other ∧ v = u) ∨ ∃ item, r = .ok item ∧ u.files .destination = some item ∧ v = u)
    (.attempt (ensures_itemMetadata ?_ ?_ ?_)) ?_
  · exact fun item hitem => ⟨_, rfl, .inr (.inr ⟨item, rfl, hitem, rfl⟩)⟩
  · exact fun hnone => ⟨_, rfl, .inl ⟨rfl, hnone, rfl⟩⟩
  · exact fun _ => ⟨_, rfl, .inr (.inl ⟨rfl, rfl⟩)⟩
  · rintro _ v (⟨rfl, hvacant, rfl⟩ | ⟨rfl, rfl⟩ | ⟨item, rfl, hitem, rfl⟩)
    · exact .pure (.inl ⟨none, rfl, ⟨rfl, fun _ => .inl, .inl ⟨rfl, hvacant⟩⟩, hvacant,
        fun _ => rfl⟩)
    · exact Replace.ensures_fail (.inr ⟨_, rfl, known_self _⟩)
    · refine ensures_guarded (.mapError (ensures_capture ?_ ?_ ?_))
      · intro found target _ _
        refine .inl ⟨_, rfl, ensures_guarded (ensures_temporarySibling ?_ ?_)⟩
        · intro _ answer _
          refine .inl ⟨_, rfl, ensures_guarded (.mapError (ensures_renameItem ?_ ?_))⟩
          · intro moved hmoved hfree
            obtain rfl : item = moved := Option.some.inj (hitem.symm.trans hmoved)
            refine .inl ⟨_, rfl, ?_⟩
            generalize answer.extra.sequence = sequence at hfree ⊢
            have haside : Aside v ((v.set .destination none).set (.sibling .previous sequence)
                (some item)) (some (.sibling .previous sequence)) := by
              refine ⟨?_, fun other hother => ?_, .inr ⟨_, item, rfl, hitem, hfree,
                ItemDisk.set_same⟩⟩
              · rw [ItemDisk.set_of_ne (by simp), ItemDisk.set_of_ne (by simp)]
              · by_cases hsame : other = sequence
                · rw [hsame, ItemDisk.set_same, hitem]
                  exact .inr rfl
                · rw [ItemDisk.set_of_ne (by simp [hsame]), ItemDisk.set_of_ne (by simp)]
                  exact .inl hother
            have hvacant : ((v.set .destination none).set (.sibling .previous sequence)
                (some item)).files .destination = none := by
              rw [ItemDisk.set_of_ne (by simp), ItemDisk.set_same]
            have hback : ∀ (reason : UncertainReason),
                (restorePrevious (some (.sibling .previous sequence))
                    (.recoveryUncertain reason) : Replace (Option ReplacementPath)).Ensures allows
                  (fun r t => (∃ previous, r = .ok previous ∧ Aside v t previous ∧
                      t.files .destination = none ∧
                      (IsTemporary temporary → t.files temporary = v.files temporary)) ∨
                    ∃ e, r = .error e ∧ Known metadata temporary v (.error e) t) _ :=
              fun reason => (haside.ensures_restorePrevious hvacant _).mono fun _ _ h => .inr h
            refine .bind_returns (P := fun _ t => t = (v.set .destination none).set
                (.sibling .previous sequence) (some item)) (.attempt (ensures_capture ?_ ?_ ?_)) ?_
            · exact fun _ _ _ _ => ⟨_, rfl, rfl⟩
            · exact fun _ => ⟨_, rfl, rfl⟩
            · exact fun _ => ⟨_, rfl, rfl⟩
            · rintro (e | movedMetadata) t rfl
              · exact hback _
              · dsimp only
                split
                · refine .pure (.inl ⟨_, rfl, haside, hvacant, fun htemporary => ?_⟩)
                  obtain ⟨-, hne, hne'⟩ := htemporary.ne
                  rw [ItemDisk.set_of_ne (hne' _).1, ItemDisk.set_of_ne hne]
                · exact hback _
          · exact fun _ _ => .inr ⟨_, rfl, .inr ⟨_, rfl, known_self _⟩⟩
        · exact fun _ => .inr ⟨_, rfl, .inr ⟨_, rfl, known_self _⟩⟩
      · exact fun _ => .inr ⟨_, rfl, .inr ⟨_, rfl, known_self _⟩⟩
      · exact fun _ => .inr ⟨_, rfl, .inr ⟨_, rfl, known_self _⟩⟩

theorem labels_preservePrevious : (preservePrevious named).Labels QuietStep := by
  refine .bind (.attempt (.call trivial)) fun r => ?_
  split
  · exact .pure
  · exact Replace.labels_fail
  · refine .bind (.mapError (labels_capture (by trivial))) fun _ => .bind (.call trivial) fun _ => ?_
    refine .bind (.mapError (.call trivial)) fun _ => ?_
    refine .bind (.attempt (labels_capture (by trivial))) fun r => ?_
    split
    · exact labels_restorePrevious trivial
    · split
      · exact .pure
      · exact labels_restorePrevious trivial

/-! ## Rolling back -/

theorem ensures_verifyExpected {s : ReplacementDisk} {path : ReplacementPath}
    {content : Option ContentProof} {reason : UncertainReason} :
    (verifyExpected sha256 path content reason).Ensures allows
      (fun r t => t = s ∧ (r = .ok () ∨ r = .error (.recoveryUncertain reason))) s := by
  unfold verifyExpected
  cases content with
  | none => exact .pure ⟨rfl, .inl rfl⟩
  | some expected =>
      refine ensures_guarded (.mapError (ensures_verifyContent ?_ ?_))
      · exact fun _ _ _ _ _ => .inl ⟨_, rfl, .pure ⟨rfl, .inl rfl⟩⟩
      · exact fun e _ => .inr ⟨_, rfl, rfl, .inr rfl⟩

namespace Aside

variable {α : Type} {previous : Option ReplacementPath}

/-- Before anything is installed the rollback finds the destination vacant, or
cannot read it. -/
theorem ensures_restoreVacant (h : Aside u v previous) (hvacant : v.files .destination = none)
    (e : ReplacementError) :
    (restoreAfterFailedInstall sha256 named previous none none e : Replace α).Ensures allows
      (fun r t => ∃ e', r = .error e' ∧ Known metadata temporary u (.error e') t) v := by
  refine .bind_returns (P := fun r t => (∃ e', r = .error e') ∧ t = v)
    (.attempt (ensures_itemMetadata ?_ ?_ ?_)) ?_
  · intro item hitem
    rw [hvacant] at hitem
    cases hitem
  · exact fun _ => ⟨_, rfl, ⟨_, rfl⟩, rfl⟩
  · exact fun _ => ⟨_, rfl, ⟨_, rfl⟩, rfl⟩
  · rintro _ t ⟨⟨e', rfl⟩, rfl⟩
    exact h.ensures_restorePrevious hvacant e

/-- Where the installed item could not be read, a rollback that cannot read the
destination either takes it for vacant. -/
theorem ensuresAlong_restoreUnread (h : Aside u v previous) {staged : FileItem}
    (hstaged : u.files temporary = some staged) (hinstalled : v.files .destination = some staged)
    (hmoved : v.files temporary = none) (hunread : Failed .installedMetadata calls)
    (hread : ¬ Failed .rollbackMetadata calls) {e : ReplacementError} (he : e.isUncertain = false) :
    (restoreAfterFailedInstall sha256 named previous none none e : Replace α).EnsuresAlong allows
      (fun r after t => ∃ e', r = .error e' ∧ Settled metadata temporary u (.error e') after t)
      calls v := by
  have hdestination : v.files .destination = u.files temporary := hinstalled.trans hstaged.symm
  refine .bind_returns (P := fun r after t => t = v ∧ Failed .installedMetadata after ∧
      ((∃ item, r = .ok item) ∧ ¬ Failed .rollbackMetadata after ∨
        (∃ kind, r = .error kind) ∧ Failed .rollbackMetadata after))
    (.attempt (ensuresAlong_itemMetadata ?_ ?_ ?_)) ?_
  · refine fun answer item hanswer _ => ⟨_, rfl, rfl, failed_append.mpr (.inl hunread),
      .inl ⟨⟨_, rfl⟩, ?_⟩⟩
    rw [failed_snoc, hanswer]
    exact not_or_intro hread nofun
  · intro _ _ hnone
    rw [hinstalled] at hnone
    cases hnone
  · exact fun answer hanswer => ⟨_, rfl, rfl, failed_append.mpr (.inl hunread),
      .inr ⟨⟨_, rfl⟩, failed_snoc.mpr (.inr hanswer)⟩⟩
  · rintro _ after t ⟨rfl, hafter, ⟨⟨item, rfl⟩, hnot⟩ | ⟨⟨kind, rfl⟩, hfailed⟩⟩
    · exact .ofExcept ⟨_, rfl, .known (h.known_uncertain (.inr hdestination) _)
        fun hboth => hnot hboth.2.2⟩
    · dsimp only
      rcases h.held with ⟨rfl, hnone⟩ | ⟨sequence, item, rfl, hitem, -, -⟩
      · exact .ofExcept ⟨e, rfl, .unnoticed e ⟨h.source, h.free, .inr (.inr hdestination)⟩ rfl
          he (by rw [hinstalled]; nofun) hmoved ⟨hnone, hafter, hfailed⟩⟩
      · refine (EnsuresAlong.along (Q := fun r t' => ∃ e', r = .error e' ∧
          Known metadata temporary u (.error e') t') ?_).mono ?_
        · refine ensures_guarded (.mapError (ensures_renameItem ?_ ?_))
          · intro _ _ hfree
            rw [hinstalled] at hfree
            cases hfree
          · exact fun kind _ => .inr ⟨_, rfl, _, rfl, h.known_uncertain (.inr hdestination) _⟩
        · rintro _ _ t' ⟨e', rfl, hknown⟩
          refine ⟨e', rfl, .known hknown fun hboth => ?_⟩
          have hvacant := hboth.1
          rw [hitem] at hvacant
          cases hvacant

/-- The failed item is out of the way. -/
theorem ensures_restoreFromFailed (h : Aside u v previous) (hvacant : v.files .destination = none)
    {expected : FileMetadataProof} {content : Option ContentProof} (e : ReplacementError)
    {failed : ReplacementPath} :
    (restoreFromFailed sha256 previous expected content e failed : Replace α).Ensures allows
      (fun r t => ∃ e', r = .error e' ∧ Known metadata temporary u (.error e') t) v := by
  have hends : ∀ reason, Known metadata temporary u (.error (.recoveryUncertain reason)) v :=
    h.known_uncertain (.inl hvacant)
  refine ensures_guarded (.mapError (ensures_capture ?_ ?_ ?_))
  · intro _ _ _ _
    refine .inl ⟨_, rfl, .ofExcept_bind (fun _ _ => ?_) fun _ he => ⟨_, rfl, ?_⟩⟩
    · refine ensures_guarded (ensures_verifyExpected.mono ?_)
      rintro r t ⟨rfl, rfl | rfl⟩
      · refine .inl ⟨_, rfl, ?_⟩
        cases previous with
        | none => exact Replace.ensures_fail ⟨_, rfl, hends _⟩
        | some path => exact h.ensures_restorePrevious hvacant e
      · exact .inr ⟨_, rfl, _, rfl, hends _⟩
    · rw [← (ensure_eq_error.mp he).2]
      exact hends _
  · exact fun _ => .inr ⟨_, rfl, _, rfl, hends _⟩
  · exact fun _ => .inr ⟨_, rfl, _, rfl, hends _⟩

/-- The installed item is moved on to a path of its own before the item that was
moved aside comes back. -/
theorem ensures_rollbackInstalled (h : Aside u v previous)
    (hinstalled : v.files .destination = u.files temporary) {expected : FileMetadataProof}
    {content : Option ContentProof} (e : ReplacementError) :
    (rollbackInstalled sha256 named previous expected content e : Replace α).Ensures allows
      (fun r t => ∃ e', r = .error e' ∧ Known metadata temporary u (.error e') t) v := by
  have hends : ∀ reason, Known metadata temporary u (.error (.recoveryUncertain reason)) v :=
    h.known_uncertain (.inr hinstalled)
  refine ensures_guarded (.mapError (ensures_capture ?_ ?_ ?_))
  · intro found target _ _
    refine .inl ⟨_, rfl, .ofExcept_bind (fun _ _ => ?_) fun _ he => ⟨_, rfl, ?_⟩⟩
    · refine .ofExcept_bind (fun _ _ => ?_) fun _ he => ⟨_, rfl, ?_⟩
      · refine ensures_guarded (ensures_verifyExpected.mono ?_)
        rintro r t ⟨rfl, rfl | rfl⟩
        · refine .inl ⟨_, rfl, ensures_guarded (.mapError (ensures_temporarySibling ?_ ?_))⟩
          · intro _ answer _
            refine .inl ⟨_, rfl, ensures_guarded (.mapError (ensures_renameItem ?_ ?_))⟩
            · intro staged _ _
              refine .inl ⟨_, rfl, ?_⟩
              have hkept : ∀ sequence, ((t.set .destination none).set
                  (.sibling .failed answer.extra.sequence) (some staged)).files
                    (.sibling .previous sequence) = t.files (.sibling .previous sequence) := by
                intro sequence
                rw [ItemDisk.set_of_ne (by simp), ItemDisk.set_of_ne (by simp)]
              have hfailed : Aside u ((t.set .destination none).set
                  (.sibling .failed answer.extra.sequence) (some staged)) previous := by
                refine ⟨?_, fun sequence hfree => ?_, ?_⟩
                · rw [ItemDisk.set_of_ne (by simp), ItemDisk.set_of_ne (by simp), h.source]
                · rw [hkept]
                  exact h.free sequence hfree
                · rcases h.held with hnone | ⟨sequence, item, hsome, hitem, hfree, hheld⟩
                  · exact .inl hnone
                  · exact .inr ⟨sequence, item, hsome, hitem, hfree, (hkept _).trans hheld⟩
              refine hfailed.ensures_restoreFromFailed ?_ e
              rw [ItemDisk.set_of_ne (by simp), ItemDisk.set_same]
            · exact fun _ _ => .inr ⟨_, rfl, _, rfl, hends _⟩
          · exact fun _ => .inr ⟨_, rfl, _, rfl, hends _⟩
        · exact .inr ⟨_, rfl, _, rfl, hends _⟩
      · rw [← (ensure_eq_error.mp he).2]
        exact hends _
    · rw [← (ensure_eq_error.mp he).2]
      exact hends _
  · exact fun _ => .inr ⟨_, rfl, _, rfl, hends _⟩
  · exact fun _ => .inr ⟨_, rfl, _, rfl, hends _⟩

end Aside

/-- Only the rollback of an item that was not identified reads the destination for
whether anything is there. -/
def VacancyStep (step : ReplacementStep) : Prop :=
  QuietStep step ∨ step = .rollbackMetadata

theorem labels_restoreVacant {α : Type} {previous : Option ReplacementPath} {e : ReplacementError} :
    (restoreAfterFailedInstall sha256 named previous none none e : Replace α).Labels VacancyStep := by
  refine .bind (.attempt (.call (.inr rfl))) fun r => ?_
  split
  · exact Replace.labels_fail
  · exact labels_restorePrevious (.inl trivial)

theorem labels_rollbackInstalled {α : Type} {previous : Option ReplacementPath}
    {expected : FileMetadataProof} {content : Option ContentProof} {e : ReplacementError} :
    (rollbackInstalled sha256 named previous expected content e : Replace α).Labels QuietStep := by
  refine .bind (.mapError (labels_capture (by trivial))) fun _ => .bind .ofExcept fun _ => ?_
  refine .bind .ofExcept fun _ => .bind (labels_verifyExpected trivial) fun _ => ?_
  refine .bind (.mapError (.call trivial)) fun failed => .bind (.mapError (.call trivial)) fun _ => ?_
  refine .bind (.mapError (labels_capture (by trivial))) fun _ => .bind .ofExcept fun _ => ?_
  refine .bind (labels_verifyExpected trivial) fun _ => ?_
  cases previous with
  | none => exact Replace.labels_fail
  | some previous => exact labels_restorePrevious trivial

/-! ## Installing -/

theorem itemType_eq_of_matches {proof other : FileMetadataProof}
    (h : proof.matchesTransferMetadata other metadata = true) (htype : metadata.fileType = true) :
    proof.itemType = other.itemType := by
  unfold FileMetadataProof.matchesTransferMetadata at h
  split at h
  · cases h
  · simp only [htype, Bool.not_true, Bool.false_or, Bool.and_eq_true, decide_eq_true_eq] at h
    exact h.1.1.1

/-- What is verified has the type and the content of the source. -/
theorem ensures_verifyInstalled (hobserves : Observes sha256 before observation)
    (hsource : v.files .source = before.files .source) {staged : FileItem}
    (hcollision : NoHashCollision sha256 before staged)
    (hstaged : v.files .destination = some staged) {target : Option PathBuf}
    {after : SourceObservation} :
    (verifyInstalled sha256 metadata observation after (.fromMetadata staged target)).Ensures
      allows (fun r t => t = v ∧ ∀ proof, r = .ok proof → Installed metadata v v) v := by
  have hfails : ∀ e : ReplacementError, v = v ∧
      ∀ proof : Option ContentProof × SourceObservation, Except.error e = .ok proof →
        Installed metadata v v :=
    fun e => ⟨rfl, by rintro _ ⟨⟩⟩
  obtain ⟨source, target', hitem, rfl⟩ := hobserves
  refine .ofExcept_bind (fun _ hmatches => ?_) fun e _ => hfails e
  have hmatches := ensure_eq_ok.mp hmatches
  refine ensures_guarded (ensures_checkCancelled (.inl ⟨_, rfl, ?_⟩)
    fun _ => .inr ⟨_, rfl, hfails _⟩)
  refine ensures_guarded (ensures_syncStagedItem (.inl ⟨_, rfl, ?_⟩)
    fun e _ => .inr ⟨e, rfl, hfails e⟩)
  refine ensures_guarded (ensures_verifyObserved (fun hcontent => .inl ⟨_, rfl, ?_⟩)
    fun e _ => .inr ⟨e, rfl, hfails e⟩)
  have hinstalled : Installed metadata v v := by
    refine ⟨source, staged, hsource.trans hitem, hstaged, ?_, ?_⟩
    · intro htype
      exact (itemType_eq_of_matches hmatches htype).symm
    · intro bytes hbytes
      obtain ⟨found, bytes', hfound, hbytes', hexpected⟩ :=
        hcontent _ (contentProof_of_file hbytes)
      obtain rfl : staged = found := Option.some.inj (hstaged.symm.trans hfound)
      rw [hcollision source hitem (FileItem.itemType_eq_regularFile.mpr ⟨bytes, hbytes⟩) ?_, hbytes]
      rw [contentProof_of_file hbytes, contentProof_of_file hbytes', hexpected]
  refine ensures_guarded (.mapError (ensures_capture ?_ ?_ ?_))
  · intro _ _ _ _
    refine .inl ⟨_, rfl, .ofExcept_bind (fun _ _ => ?_) fun e _ => hfails e⟩
    refine ensures_guarded (.mapError (ensures_captureWithCancel ?_ ?_))
    · intro _ _ _ _ _
      refine .inl ⟨_, rfl, .ofExcept_bind (fun _ _ => ?_) fun e _ => hfails e⟩
      refine ensures_guarded (ensures_checkCancelled (.inl ⟨_, rfl, ?_⟩)
        fun _ => .inr ⟨_, rfl, hfails _⟩)
      exact .pure ⟨rfl, fun _ _ => hinstalled⟩
    · exact fun e _ => .inr ⟨_, rfl, hfails _⟩
  · exact fun _ => .inr ⟨_, rfl, hfails _⟩
  · exact fun _ => .inr ⟨_, rfl, hfails _⟩

theorem labels_verifyInstalled {installed : FileMetadataProof} {final : SourceObservation} :
    (verifyInstalled sha256 metadata observation final installed).Labels QuietStep := by
  refine .bind .ofExcept fun _ => .bind (labels_checkCancelled trivial) fun _ => ?_
  refine .bind (labels_syncStagedItem trivial) fun _ => ?_
  refine .bind (labels_verifyObserved trivial) fun _ => ?_
  refine .bind (.mapError (labels_capture (by trivial))) fun _ => .bind .ofExcept fun _ => ?_
  refine .bind (.mapError (labels_captureWithCancel (by trivial))) fun _ => .bind .ofExcept fun _ => ?_
  exact .bind (labels_checkCancelled trivial) fun _ => .pure

/-- What is installed and then verified, or rolled back. -/
theorem ensures_verifyOrRollback (hobserves : Observes sha256 before observation)
    {staged : FileItem} (hcollision : NoHashCollision sha256 before staged)
    {previous : Option ReplacementPath} (h : Aside u v previous)
    (hsource : u.files .source = before.files .source)
    (hinstalled : v.files .destination = some staged) (hfrom : u.files temporary = some staged)
    {content target} {final : SourceObservation} :
    (Replace.orElse (verifyInstalled sha256 metadata observation final (.fromMetadata staged target))
        (rollbackInstalled sha256 named previous (.fromMetadata staged target) observation.content) >>=
      fun found => (pure ⟨.source, .destination, previous,
        ⟨observation, content, found.2, found.1⟩, metadata⟩ : Replace VerifiedReplacement)).Ensures
        allows (Known metadata temporary u) v := by
  refine ensures_orElse_bind ((ensures_verifyInstalled hobserves (h.source.trans hsource) hcollision
    hinstalled).mono ?_)
  rintro (e | proof) t ⟨rfl, hok⟩
  · exact .inr ⟨e, rfl, h.ensures_rollbackInstalled (hinstalled.trans hfrom.symm) e⟩
  · refine .inl ⟨proof, rfl, .pure ?_⟩
    obtain ⟨source, item, hitem, hrest⟩ := hok proof rfl
    refine h.known (.inr (hinstalled.trans hfrom.symm)) (.inr ⟨_, rfl, rfl, source, item, ?_, hrest⟩)
    rw [← hitem, h.source]

/-- The staged item is installed, or the rollback ends as it can. -/
theorem ensuresAlong_installVerified (hobserves : Observes sha256 before observation)
    (hstaging : Staging sha256 before u temporary calls) (htemporary : IsTemporary temporary)
    {previous : Option ReplacementPath} (h : Aside u v previous)
    (hvacant : v.files .destination = none) (hkept : v.files temporary = u.files temporary)
    {content : Option ContentProof} {final : SourceObservation} :
    (installVerified sha256 named temporary metadata observation content final previous).EnsuresAlong
      allows (Settled metadata temporary u) calls v := by
  -- what fails before the installation has read nothing of it
  have hrestore : ∀ (α : Type) (e : ReplacementError) {after : ReplacementCalls},
      CallsSince QuietStep calls after →
      (restoreAfterFailedInstall sha256 named previous none none e : Replace α).EnsuresAlong allows
        (fun r later t => ∃ e', r = .error e' ∧ Settled metadata temporary u (.error e') later t)
        after v := by
    intro α e after hafter
    have hends : (restoreAfterFailedInstall sha256 named previous none none e :
        Replace α).Ensures allows (fun r t => ∃ e', r = .error e' ∧
          Known metadata temporary u (.error e') t) v := h.ensures_restoreVacant hvacant e
    refine (EnsuresAlong.of_ensures hends labels_restoreVacant).mono ?_
    rintro r later t ⟨⟨e', rfl, hknown⟩, hlater⟩
    refine ⟨e', rfl, .known hknown fun hboth => hstaging.read .installedMetadata (by simp) ?_⟩
    exact (failed_since hafter (by simp [QuietStep])).mp
      ((failed_since hlater (by simp [VacancyStep, QuietStep])).mp hboth.2.1)
  refine ensuresAlong_orElse_bind ((EnsuresAlong.of_ensures (L := QuietStep)
    ensures_checkCancelled_same (labels_checkCancelled trivial)).mono ?_)
  rintro (e | _) after v ⟨rfl, hafter⟩
  · exact .inr ⟨e, rfl, hrestore Unit e hafter⟩
  refine .inl ⟨(), rfl, ensuresAlong_orElse_bind (.mapError ((EnsuresAlong.of_ensures
    (L := QuietStep) (Q := fun r t => (∃ e, r = .error e ∧ t = v) ∨ r = .ok () ∧ ∃ staged,
      v.files temporary = some staged ∧
        t = (v.set temporary none).set .destination (some staged)) (ensures_renameItem ?_ ?_)
    (.call (by trivial))).mono ?_))⟩
  · exact fun staged hstaged _ => .inr ⟨rfl, staged, hstaged, rfl⟩
  · exact fun kind _ => .inl ⟨kind, rfl, rfl⟩
  rintro r later t ⟨⟨kind, rfl, rfl⟩ | ⟨rfl, staged, hstaged, rfl⟩, hlater⟩
  · exact .inr ⟨_, rfl, hrestore Unit _ (hafter.trans hlater)⟩
  obtain ⟨hsource, hdestination, hprevious⟩ := htemporary.ne
  have hfrom : u.files temporary = some staged := hkept.symm.trans hstaged
  have hinstalled : ((v.set temporary none).set .destination (some staged)).files .destination =
      some staged := ItemDisk.set_same
  have hmoved : ((v.set temporary none).set .destination (some staged)).files temporary = none := by
    rw [ItemDisk.set_of_ne hdestination, ItemDisk.set_same]
  have haside : Aside u ((v.set temporary none).set .destination (some staged)) previous := by
    have hfiles : ∀ sequence, ((v.set temporary none).set .destination (some staged)).files
        (.sibling .previous sequence) = v.files (.sibling .previous sequence) := by
      intro sequence
      rw [ItemDisk.set_of_ne (by simp), ItemDisk.set_of_ne (hprevious sequence).1.symm]
    refine ⟨?_, fun sequence hfree => ?_, ?_⟩
    · rw [ItemDisk.set_of_ne (by simp), ItemDisk.set_of_ne hsource.symm, h.source]
    · rw [hfiles]
      exact h.free sequence hfree
    · rcases h.held with hnone | ⟨sequence, item, hsome, hitem, hfree, hheld⟩
      · exact .inl hnone
      · exact .inr ⟨sequence, item, hsome, hitem, hfree, (hfiles _).trans hheld⟩
  have hsince := hafter.trans hlater
  have hunread : ¬ Failed .rollbackMetadata later := fun hfailed =>
    hstaging.read .rollbackMetadata (by simp) ((failed_since hsince (by simp [QuietStep])).mp hfailed)
  generalize (v.set temporary none).set .destination (some staged) = w at hinstalled hmoved haside ⊢
  refine .inl ⟨(), rfl, ensuresAlong_orElse_bind (.mapError (EnsuresAlong.labelled
    (L := fun step => step = .installedMetadata) (Q := fun r after t => t = w ∧
      ((∃ target, r = .ok (.fromMetadata staged target)) ∨
        ∃ e, r = .error e ∧ Failed .installedMetadata after))
    (ensuresAlong_capture hinstalled ?_ ?_) (labels_capture (by rfl)) |>.mono ?_))⟩
  · exact fun target _ => ⟨rfl, .inl ⟨target, rfl⟩⟩
  · exact fun e after hbroken => ⟨rfl, .inr ⟨e, rfl, failed_of_broken hbroken⟩⟩
  rintro r last t ⟨⟨rfl, ⟨target, rfl⟩ | ⟨e, rfl, hfailed⟩⟩, hlast⟩
  · refine .inl ⟨_, rfl, ?_⟩
    refine (EnsuresAlong.of_ensures (L := QuietStep) (ensures_verifyOrRollback hobserves
      (hstaging.staged staged hfrom) haside hstaging.source hinstalled hfrom) ?_).mono ?_
    · exact .bind (Replace.labels_orElse labels_verifyInstalled fun _ => labels_rollbackInstalled)
        fun _ => .pure
    · rintro r' end' t' ⟨hknown, hend⟩
      refine .known hknown fun hboth => hunread ?_
      exact (failed_since hlast (by simp)).mp
        ((failed_since hend (by simp [QuietStep])).mp hboth.2.2)
  · refine .inr ⟨_, rfl, haside.ensuresAlong_restoreUnread hfrom hinstalled hmoved hfailed ?_ rfl⟩
    exact fun hrollback => hunread ((failed_since hlast (by simp)).mp hrollback)

theorem labels_installVerified {previous : Option ReplacementPath} {content : Option ContentProof}
    {final : SourceObservation} :
    (installVerified sha256 named temporary metadata observation content final
      previous).Labels RollbackStep := by
  have hquiet : ∀ {α : Type} {p : Replace α}, p.Labels QuietStep → p.Labels RollbackStep :=
    fun h => h.mono QuietStep.rollback
  have hvacancy : ∀ {α : Type} {e : ReplacementError},
      (restoreAfterFailedInstall sha256 named previous none none e : Replace α).Labels RollbackStep := by
    intro α e
    refine labels_restoreVacant.mono ?_
    rintro step (hstep | rfl)
    · exact hstep.rollback
    · trivial
  refine .bind (Replace.labels_orElse (labels_checkCancelled trivial) fun _ => hvacancy) fun _ => ?_
  refine .bind (Replace.labels_orElse (.mapError (.call trivial)) fun _ => hvacancy) fun _ => ?_
  refine .bind (Replace.labels_orElse (.mapError (labels_capture (by trivial))) fun _ => hvacancy)
    fun _ => ?_
  refine .bind (Replace.labels_orElse (hquiet labels_verifyInstalled) fun _ =>
    hquiet labels_rollbackInstalled) fun _ => .pure

/-- The end of a replacement that was staged on the disk `v`, after these calls. -/
def StagedEnd (sha256 : List UInt8 → Sha256) (metadata : MetadataRequirements)
    (before : ReplacementDisk) (temporary : ReplacementPath)
    (r : Except ReplacementError VerifiedReplacement) (after : ReplacementCalls)
    (t : ReplacementDisk) : Prop :=
  ∃ v calls, Staging sha256 before v temporary calls ∧ CallsSince RollbackStep calls after ∧
    Settled metadata temporary v r after t

theorem Staging.stagedEnd (h : Staging sha256 before u temporary calls) (e : ReplacementError) :
    StagedEnd sha256 metadata before temporary (.error e) calls u :=
  ⟨u, calls, h, .refl, .known (known_self e) fun hboth => h.read _ (by simp) hboth.2.1⟩

/-- From the staged item on. -/
theorem ensuresAlong_stageAndInstall (hobserves : Observes sha256 before observation)
    (htemporary : IsTemporary temporary) (h : Staging sha256 before u temporary calls)
    (hcalm : ¬ Succeeded (.setModified .destination) calls) :
    (stageAndInstall sha256 named temporary metadata observation).EnsuresAlong allows
      (StagedEnd sha256 metadata before temporary) calls u := by
  refine .bind (ensuresAlong_verifyStaged h hcalm htemporary hobserves) ?_
    fun e _ _ hstaging => hstaging.stagedEnd e
  rintro ⟨content, final⟩ staged v hstaging
  refine .guarded ((EnsuresAlong.of_ensures (ensures_preservePrevious metadata temporary)
    labels_preservePrevious).mono ?_)
  rintro r after w ⟨⟨previous, rfl, haside, hvacant, hkept⟩ | ⟨e, rfl, hknown⟩, hafter⟩
  · refine .inl ⟨previous, rfl, ((ensuresAlong_installVerified hobserves (hstaging.since hafter)
      htemporary haside hvacant (hkept htemporary)).labelled labels_installVerified).mono ?_⟩
    exact fun r later t ⟨hsettled, hlater⟩ => ⟨v, after, hstaging.since hafter, hlater, hsettled⟩
  · refine .inr ⟨e, rfl, v, after, hstaging.since hafter, .refl, .known hknown fun hboth => ?_⟩
    exact (hstaging.since hafter).read _ (by simp) hboth.2.1

/-! ## Cleaning up -/

/-- What cleaning up does to the end of a replacement: only the temporary path
changes, and what goes wrong there makes the outcome uncertain. -/
structure Finished (temporary : ReplacementPath)
    (r : Except ReplacementError VerifiedReplacement) (calls : ReplacementCalls)
    (t : ReplacementDisk) (r' : Except ReplacementError VerifiedReplacement)
    (after : ReplacementCalls) (t' : ReplacementDisk) : Prop where
  files : ∀ path, path ≠ temporary → t'.files path = t.files path
  made : CallsSince CleanupStep calls after
  result : (r' = r ∧ (Failed .cleanupMetadata after → Failed .cleanupMetadata calls)) ∨
    ∃ e', r' = .error e' ∧ e'.isUncertain = true ∧
      (Failed .cleanupMetadata after ∨ t.files temporary ≠ none)

theorem Finished.refl {r : Except ReplacementError VerifiedReplacement} {t : ReplacementDisk} :
    Finished temporary r calls t r calls t := ⟨fun _ _ => rfl, .refl, .inl ⟨rfl, id⟩⟩

theorem ensuresAlong_cleanup {α : Type} {policy : PartialTransferPolicy} (e : ReplacementError) :
    (cleanupTemporaryAccordingToPolicy temporary policy e : Replace α).EnsuresAlong allows
      (fun r after t => ∃ e', r = .error e' ∧
        Finished temporary (.error e) calls u (.error e') after t) calls u := by
  cases policy with
  | keepPartialForResume => exact .ofExcept ⟨e, rfl, .refl⟩
  | cleanup =>
      refine .bind_returns (P := fun r after t => (r = .ok () ∨ r = .error .notFound) ∧
          Finished temporary (.error e) calls u (.error e) after t ∨
        ∃ kind, r = .error kind ∧ kind ≠ .notFound ∧ Finished temporary (.error e) calls u
          (.error (.recoveryUncertain .temporaryNotCleanedUp)) after t) (.attempt ?_) ?_
      · have hread : ∀ answer : CallAnswer ReplacementAnswer, CallsSince CleanupStep calls
            (calls ++ [(.cleanupMetadata, answer)]) := fun _ => .snoc (.inl rfl)
        have hsucceeds : ∀ {answer : CallAnswer ReplacementAnswer} {after : ReplacementCalls},
            answer.fails = false → CallsSince (fun step => step = .removeStaged)
              (calls ++ [(.cleanupMetadata, answer)]) after →
                Failed .cleanupMetadata after → Failed .cleanupMetadata calls := by
          intro answer after hanswer hafter hfailed
          rcases failed_snoc.mp ((failed_since hafter (by simp)).mp hfailed) with hold | hnew
          · exact hold
          · rw [hanswer] at hnew
            cases hnew
        refine .bind_returns (P := fun r after t => t = u ∧ ∃ answer,
            after = calls ++ [(.cleanupMetadata, answer)] ∧
              ((answer.fails = false ∧ (r = .error .notFound ∨
                  ∃ item, r = .ok item ∧ u.files temporary = some item)) ∨
                answer.fails = true ∧ r = .error .other))
          (.attempt (ensuresAlong_itemMetadata ?_ ?_ ?_)) ?_
        · exact fun answer item hanswer hitem => ⟨_, rfl, rfl, answer, rfl,
            .inl ⟨hanswer, .inr ⟨item, rfl, hitem⟩⟩⟩
        · exact fun answer hanswer _ => ⟨_, rfl, rfl, answer, rfl, .inl ⟨hanswer, .inl rfl⟩⟩
        · exact fun answer hanswer => ⟨_, rfl, rfl, answer, rfl, .inr ⟨hanswer, rfl⟩⟩
        · rintro _ _ t ⟨rfl, answer, rfl, ⟨hanswer, rfl | ⟨item, rfl, hitem⟩⟩ | ⟨hanswer, rfl⟩⟩
          · exact .pure ⟨_, rfl, .inl ⟨.inl rfl, fun _ _ => rfl, hread answer,
              .inl ⟨rfl, hsucceeds hanswer .refl⟩⟩⟩
          · refine ensuresAlong_itemCall ?_ ?_ ?_
            · intro removed _ a t' hf
              simp only [hitem, Except.ok.injEq, Prod.mk.injEq] at hf
              rw [← hf.2]
              exact ⟨_, rfl, .inl ⟨.inl rfl, fun path hpath => ItemDisk.set_of_ne hpath,
                (hread answer).trans (.snoc (.inr rfl)), .inl ⟨rfl, hsucceeds hanswer (.snoc rfl)⟩⟩⟩
            · intro answer _ kind hf
              simp [hitem] at hf
            · intro removed _
              refine ⟨_, rfl, .inr ⟨_, rfl, nofun, fun _ _ => rfl,
                (hread answer).trans (.snoc (.inr rfl)), .inr ⟨_, rfl, rfl, .inr ?_⟩⟩⟩
              rw [hitem]
              nofun
          · exact .ofExcept ⟨_, rfl, .inr ⟨_, rfl, nofun, fun _ _ => rfl, hread answer,
              .inr ⟨_, rfl, rfl, .inl (failed_snoc.mpr (.inr hanswer))⟩⟩⟩
      · rintro _ after t (⟨rfl | rfl, hfinished⟩ | ⟨kind, rfl, hkind, hfinished⟩)
        · exact .ofExcept ⟨e, rfl, hfinished⟩
        · exact .ofExcept ⟨e, rfl, hfinished⟩
        · cases kind with
          | notFound => exact absurd rfl hkind
          | alreadyExists | other => exact .ofExcept ⟨_, rfl, hfinished⟩

/-! ## The verdict -/

/-- An end that is not an error is one of the replacement itself. -/
theorem Finished.of_ok {r r' : Except ReplacementError VerifiedReplacement}
    {t t' : ReplacementDisk} (h : Finished temporary r calls t r' after t')
    {replacement : VerifiedReplacement} (hr : r' = .ok replacement) : r = .ok replacement := by
  rcases h.result with ⟨rfl, -⟩ | ⟨e', he', -⟩
  · exact hr
  · rw [hr] at he'
    cases he'

theorem EndsKnown.uncertain {previous : Option ReplacementPath}
    {r r' : Except ReplacementError VerifiedReplacement} {t t' : ReplacementDisk}
    (h : EndsKnown metadata previous u r t) (hfinished : Finished temporary r calls t r' after t')
    {e : ReplacementError} (he : r' = .error e) : e.isUncertain = true := by
  rcases hfinished.result with ⟨rfl, -⟩ | ⟨e', he', huncertain, -⟩
  · rcases h with ⟨e', he', huncertain⟩ | ⟨_, hok, -⟩
    · rw [he] at he'
      cases he'
      exact huncertain
    · rw [he] at hok
      cases hok
  · rw [he] at he'
    cases he'
    exact huncertain

namespace Settled

variable {r r' : Except ReplacementError VerifiedReplacement} {t t' : ReplacementDisk}
  {earlier : ReplacementCalls}

theorem left (h : Settled metadata temporary u r calls t) : Left temporary u t := by
  cases h with
  | known hknown _ => exact hknown.toLeft
  | unnoticed _ hleft _ _ _ _ _ => exact hleft

/-- The item that was at the destination is there still or was moved aside, where
no time was set through a link. -/
theorem previous_held (h : Settled metadata temporary u r calls t)
    (hfinished : Finished temporary r calls t r' after t') (htemporary : IsTemporary temporary)
    (hstaging : Staging sha256 before u temporary earlier) {item : FileItem}
    (hitem : u.files .destination = some item) :
    t'.files .destination = some item ∨ MovedAside before r' t' item := by
  obtain ⟨-, hdestination, hne⟩ := htemporary.ne
  cases h with
  | unnoticed e _ _ _ _ _ hunread =>
      have hvacant := hunread.1
      rw [hitem] at hvacant
      cases hvacant
  | known hknown _ =>
      cases hknown.verdict with
      | kept e _ hkept =>
          left
          rw [hfinished.files _ hdestination.symm, hkept, hitem]
      | moved sequence found hfound hfree hheld hends =>
          right
          obtain rfl : item = found := Option.some.inj (hitem.symm.trans hfound)
          refine ⟨sequence, (hstaging.free sequence).mp hfree, ?_, ?_⟩
          · rw [hfinished.files _ (hne sequence).1.symm, hheld]
          · intro replacement hreplacement
            rcases hends with ⟨e, he, -⟩ | ⟨other, hok, hprevious, -⟩
            · rw [hfinished.of_ok hreplacement] at he
              cases he
            · rw [hfinished.of_ok hreplacement] at hok
              cases hok
              exact hprevious
      | vacant hvacant _ =>
          rw [hitem] at hvacant
          cases hvacant

/-- An item whose time was set through a link is nowhere as it was. -/
theorem previous_lost (h : Settled metadata temporary u r calls t)
    (hfinished : Finished temporary r calls t r' after t') (htemporary : IsTemporary temporary)
    (hstaging : Staging sha256 before u temporary earlier)
    (hdated : DatedThroughLink before earlier) :
    ∃ item, before.files .destination = some item ∧
      ¬ (t'.files .destination = some item ∨ MovedAside before r' t' item) := by
  obtain ⟨-, hdestination, hne⟩ := htemporary.ne
  rcases hstaging.dated with ⟨hnot, -⟩ | ⟨-, item, time, link, hitem, htime, hunlinked, hset, hlink,
    hsymlink⟩
  · exact absurd hdated hnot
  have hchanged : u.files .destination ≠ some item := by
    rw [hset]
    intro heq
    exact htime (congrArg FileItem.modified (Option.some.inj heq)).symm
  refine ⟨item, hitem, ?_⟩
  rintro (hthere | ⟨sequence, hfree, hheld, -⟩)
  · rw [hfinished.files _ hdestination.symm] at hthere
    rcases h.left.destination with heq | heq | heq
    · exact hchanged (heq.symm.trans hthere)
    · rw [heq] at hthere
      cases hthere
    · -- what was installed is the link
      obtain rfl : link = item := Option.some.inj (hlink.symm.trans (heq.symm.trans hthere))
      exact hunlinked hsymlink
  · rw [hfinished.files _ (hne sequence).1.symm] at hheld
    rcases h.left.free sequence ((hstaging.free sequence).mpr hfree) with heq | heq
    · rw [heq] at hheld
      cases hheld
    · exact hchanged (heq.symm.trans hheld)

theorem installed (h : Settled metadata temporary u r calls t)
    (hfinished : Finished temporary r calls t r' after t') (htemporary : IsTemporary temporary)
    (hstaging : Staging sha256 before u temporary earlier) {replacement : VerifiedReplacement}
    (hr : r' = .ok replacement) : Installed metadata before t' := by
  have hok := hfinished.of_ok hr
  have hends : ∀ {previous}, EndsKnown metadata previous u r t → Installed metadata before t' := by
    rintro previous (⟨e, he, -⟩ | ⟨_, _, -, source, item, hsource, hitem, hrest⟩)
    · rw [hok] at he
      cases he
    · refine ⟨source, item, hstaging.source.symm.trans hsource, ?_, hrest⟩
      rw [hfinished.files _ htemporary.ne.2.1.symm, hitem]
  cases h with
  | unnoticed e _ he _ _ _ _ =>
      rw [hok] at he
      cases he
  | known hknown _ =>
      cases hknown.verdict with
      | kept e he _ =>
          rw [hok] at he
          cases he
      | moved _ _ _ _ _ hends' => exact hends hends'
      | vacant _ hends' => exact hends hends'

/-- The destination is restored unless the installed item went unnoticed. -/
theorem restored_iff (h : Settled metadata temporary u r calls t)
    (hfinished : Finished temporary r calls t r' after t') (htemporary : IsTemporary temporary)
    (hcleanup : ¬ Failed .cleanupMetadata calls)
    (hsame : u.files .destination = before.files .destination) :
    (∀ e, r' = .error e → e.isUncertain = false →
        t'.files .destination = before.files .destination) ↔ ¬ Unnoticed before after := by
  have hdestination : t'.files .destination = t.files .destination :=
    hfinished.files _ htemporary.ne.2.1.symm
  have hunread : Unread u calls ↔ before.files .destination = none ∧
      Failed .installedMetadata after ∧ Failed .rollbackMetadata after := by
    unfold Unread
    rw [hsame, failed_since hfinished.made (by simp [CleanupStep]),
      failed_since hfinished.made (by simp [CleanupStep])]
  cases h with
  | known hknown hread =>
      have hnoticed : ¬ Unnoticed before after := by
        rintro ⟨hvacant, hinstalled, hrollback, -⟩
        exact hread (hunread.mpr ⟨hvacant, hinstalled, hrollback⟩)
      have hends : ∀ {previous}, EndsKnown metadata previous u r t → ∀ e, r' = .error e →
          e.isUncertain = false → t'.files .destination = before.files .destination := by
        intro previous hends e he hcertain
        rw [hends.uncertain hfinished he] at hcertain
        cases hcertain
      refine iff_of_true ?_ hnoticed
      cases hknown.verdict with
      | kept e _ hkept => exact fun _ _ _ => by rw [hdestination, hkept, hsame]
      | moved _ _ _ _ _ hends' => exact hends hends'
      | vacant _ hends' => exact hends hends'
  | unnoticed e _ he hcertain hthere hmoved hnotRead =>
      obtain ⟨hvacant, hinstalled, hrollback⟩ := hunread.mp hnotRead
      rcases hfinished.result with ⟨rfl, hclean⟩ | ⟨e', he', huncertain, hcleaned⟩
      · refine iff_of_false (fun hrestored => ?_)
          (fun hnot => hnot ⟨hvacant, hinstalled, hrollback, fun hfailed => hcleanup (hclean hfailed)⟩)
        have hnone := hrestored e he hcertain
        rw [hdestination, hvacant] at hnone
        exact hthere hnone
      · refine iff_of_true (fun other hother hcertain' => ?_) ?_
        · rw [he'] at hother
          cases hother
          rw [huncertain] at hcertain'
          cases hcertain'
        · rintro ⟨-, -, -, hread⟩
          rcases hcleaned with hfailed | hthere'
          · exact hread hfailed
          · exact hthere' hmoved

/-- Atomic, up to the two exceptions. -/
theorem atomic_iff (h : Settled metadata temporary u r calls t)
    (hstaging : Staging sha256 before u temporary earlier)
    (hlater : CallsSince RollbackStep earlier calls)
    (hfinished : Finished temporary r calls t r' after t') (htemporary : IsTemporary temporary) :
    Atomic metadata before r' t' ↔ ¬ Unnoticed before after ∧ ¬ DatedThroughLink before after := by
  have hset : DatedThroughLink before after ↔ DatedThroughLink before earlier :=
    (datedThroughLink_since hfinished.made (by simp [CleanupStep])).trans
      (datedThroughLink_since hlater not_false)
  have hcleanup : ¬ Failed .cleanupMetadata calls := fun hfailed =>
    hstaging.read .cleanupMetadata (by simp) ((failed_since hlater (by simp [RollbackStep])).mp hfailed)
  have hsame : ¬ DatedThroughLink before after →
      u.files .destination = before.files .destination := by
    intro hundated
    rcases hstaging.dated with ⟨-, heq⟩ | ⟨hdated, -⟩
    · exact heq
    · exact absurd (hset.mpr hdated) hundated
  constructor
  · intro hatomic
    have hundated : ¬ DatedThroughLink before after := by
      intro hdated
      obtain ⟨item, hitem, hlost⟩ :=
        h.previous_lost hfinished htemporary hstaging (hset.mp hdated)
      exact hlost (hatomic.previous item hitem)
    exact ⟨(h.restored_iff hfinished htemporary hcleanup (hsame hundated)).mp hatomic.restored,
      hundated⟩
  · rintro ⟨hnoticed, hundated⟩
    refine ⟨?_, ?_, ?_, ?_⟩
    · rw [hfinished.files _ htemporary.ne.1.symm, h.left.source, hstaging.source]
    · intro item hitem
      rw [← hsame hundated] at hitem
      exact h.previous_held hfinished htemporary hstaging hitem
    · exact fun _ hr => h.installed hfinished htemporary hstaging hr
    · exact (h.restored_iff hfinished htemporary hcleanup (hsame hundated)).mpr hnoticed

end Settled

/-- Calls of which the exceptions do not speak. -/
theorem not_exceptional (h : CallsSince QuietStep [] after) :
    ¬ Unnoticed before after ∧ ¬ DatedThroughLink before after := by
  refine ⟨fun hunnoticed => ?_, fun hdated => ?_⟩
  · exact not_failed_nil ((failed_since h (by simp [QuietStep])).mp hunnoticed.2.1)
  · exact not_succeeded_nil ((succeeded_since h not_quiet_setModified).mp hdated.1)

/-- A replacement that fails before it has written anything. -/
theorem atomic_iff_of_unchanged {e : ReplacementError} (h : CallsSince QuietStep [] after) :
    Atomic metadata before (.error e) before ↔
      ¬ Unnoticed before after ∧ ¬ DatedThroughLink before after :=
  iff_of_true ⟨rfl, fun _ => .inl, by rintro _ ⟨⟩, fun _ _ _ => rfl⟩ (not_exceptional h)

theorem ensures_observeSource : ((SourceObservation.captureWithCancel sha256 .observeSource
    .source).mapError mapVerificationError : Replace SourceObservation).Ensures allows
      (fun r t => t = u ∧ ∀ observation, r = .ok observation → Observes sha256 u observation) u := by
  refine .mapError (ensures_captureWithCancel ?_ fun e _ => ⟨rfl, by rintro _ ⟨⟩⟩)
  intro item target hitem _ _
  refine ⟨rfl, ?_⟩
  rintro _ ⟨⟩
  exact ⟨item, target, hitem, rfl⟩

/-- The transfer has written the temporary path, and nothing else has changed. -/
theorem staging_of_transferred (htemporary : IsTemporary temporary)
    (hfiles : ∀ path, path ≠ temporary → u.files path = before.files path)
    (hstaged : ∀ staged, u.files temporary = some staged → NoHashCollision sha256 before staged)
    (h : CallsSince QuietStep [] calls) : Staging sha256 before u temporary calls := by
  obtain ⟨hsource, hdestination, hprevious⟩ := htemporary.ne
  refine ⟨hfiles _ hsource.symm, fun sequence => ?_, hstaged,
    .inl ⟨(not_exceptional h).2, hfiles _ hdestination.symm⟩, ?_⟩
  · rw [hfiles _ (hprevious sequence).1.symm]
  · exact AllRead.since (fun _ _ => not_failed_nil) h not_quiet_read

end

/-- **A verified replacement is atomic** exactly when an installed item does not go
unnoticed and no time is set at the destination through a link. -/
theorem replacement_atomic_iff {sha256 : List UInt8 → Sha256} {named : Bool}
    {metadata : MetadataRequirements} {policy : PartialTransferPolicy}
    {before after : ReplacementDisk} {calls : ReplacementCalls}
    {r : Except ReplacementError VerifiedReplacement}
    (hrun : (performVerifiedReplacement sha256 named metadata policy).ReturnsAlong
      (WithoutCollision sha256) before calls r after) :
    Atomic metadata before r after ↔
      ¬ Unnoticed before calls ∧ ¬ DatedThroughLink before calls := by
  suffices (performVerifiedReplacement sha256 named metadata policy).EnsuresAlong
      (WithoutCollision sha256) (fun r calls t => Atomic metadata before r t ↔
        ¬ Unnoticed before calls ∧ ¬ DatedThroughLink before calls) [] before from
    (hrun.of_ensuresAlong this :)
  refine ensuresAlong_checkCancelled (fun first hfirst => ?_)
    fun _ _ hfirst => atomic_iff_of_unchanged hfirst
  refine .bind (EnsuresAlong.of_ensures ensures_observeSource
    (.mapError (labels_captureWithCancel (by trivial : QuietStep .observeSource)))) ?_ ?_
  rotate_left
  · rintro e second _ ⟨⟨rfl, -⟩, hsecond⟩
    exact atomic_iff_of_unchanged (hfirst.trans hsecond)
  rintro observation second before ⟨⟨rfl, hobserves⟩, hsecond⟩
  have hobserves := hobserves observation rfl
  refine .bind (EnsuresAlong.of_ensures (L := QuietStep) (ensures_temporarySibling
    (Q := fun r t => t = before ∧ ∀ temporary, r = .ok temporary → IsTemporary temporary) ?_ ?_)
    (.call trivial)) ?_ ?_
  · intro _ answer _
    refine ⟨rfl, ?_⟩
    rintro _ ⟨⟩
    exact ⟨policy, answer.extra.sequence, rfl⟩
  · exact fun _ => ⟨rfl, by rintro _ ⟨⟩⟩
  rotate_left
  · rintro e third _ ⟨⟨rfl, -⟩, hthird⟩
    exact atomic_iff_of_unchanged ((hfirst.trans hsecond).trans hthird)
  rintro temporary third before ⟨⟨rfl, htemporary⟩, hthird⟩
  have htemporary := htemporary temporary rfl
  -- until the transfer has written, only the temporary path may differ
  refine .bind (EnsuresAlong.of_ensures (L := QuietStep) (ensures_createStaged temporary)
    (labels_createStaged trivial)) ?_ ?_
  rotate_left
  · rintro e fourth _ ⟨⟨-, he⟩, hfourth⟩
    obtain ⟨rfl, -⟩ := he e rfl
    exact atomic_iff_of_unchanged (((hfirst.trans hsecond).trans hthird).trans hfourth)
  rintro _ fourth v ⟨⟨hfiles, -⟩, hfourth⟩
  have hquiet := ((hfirst.trans hsecond).trans hthird).trans hfourth
  have hclean : ∀ {α : Type} {t : ReplacementDisk} {r : Except ReplacementError VerifiedReplacement}
      (e : ReplacementError) {reached : ReplacementCalls}, r = .error e →
      StagedEnd sha256 metadata before temporary r reached t →
        (cleanupTemporaryAccordingToPolicy temporary policy e : Replace α).EnsuresAlong
          (WithoutCollision sha256) (fun r' later t' => ∃ e', r' = .error e' ∧
            (Atomic metadata before (.error e') t' ↔
              ¬ Unnoticed before later ∧ ¬ DatedThroughLink before later)) reached t := by
    rintro α t _ e reached rfl ⟨w, staged, hstaging, hlater, hsettled⟩
    refine (ensuresAlong_cleanup e).mono ?_
    rintro r' later t' ⟨e', rfl, hfinished⟩
    exact ⟨e', rfl, hsettled.atomic_iff hstaging hlater hfinished htemporary⟩
  refine ensuresAlong_orElse_bind (.call fun answer hallows => ?_)
  have htransferred : CallsSince QuietStep [] (fourth ++ [(.transfer, answer)]) :=
    hquiet.trans (.snoc trivial)
  have hstaging : Staging sha256 before (v.set temporary answer.extra.transferred) temporary
      (fourth ++ [(.transfer, answer)]) := by
    refine staging_of_transferred htemporary (fun path hpath => ?_) (fun staged hstaged => ?_)
      htransferred
    · rw [ItemDisk.set_of_ne hpath, hfiles path hpath]
    · rw [ItemDisk.set_same] at hstaged
      have hnone := hallows rfl staged hstaged
      unfold NoHashCollision at hnone
      rwa [hfiles _ htemporary.ne.1.symm] at hnone
  cases answer.extra.transferError with
  | some e => exact .inr ⟨e, rfl, hclean e rfl (hstaging.stagedEnd e)⟩
  | none =>
      refine .inl ⟨(), rfl, ensuresAlong_orElse_bind ((EnsuresAlong.of_ensures (L := QuietStep)
        ensures_checkCancelled_same (labels_checkCancelled trivial)).mono ?_)⟩
      rintro (e | _) fifth t ⟨rfl, hfifth⟩
      · exact .inr ⟨e, rfl, hclean e rfl ((hstaging.since hfifth).stagedEnd e)⟩
      · refine .inl ⟨(), rfl, ?_⟩
        have hcalm : ¬ Succeeded (.setModified .destination) fifth := fun hset =>
          not_succeeded_nil ((succeeded_since (htransferred.trans hfifth)
            not_quiet_setModified).mp hset)
        refine .bind_returns (.attempt ((ensuresAlong_stageAndInstall hobserves htemporary
          (hstaging.since hfifth) hcalm).mono fun r after t h => ⟨r, rfl, h⟩)) ?_
        rintro (e | replacement) last w hend
        · refine (hclean e rfl hend).mono ?_
          rintro _ later t' ⟨e', rfl, hatomic⟩
          exact hatomic
        · obtain ⟨x, staged, hstaged, hlater, hsettled⟩ := hend
          exact .pure (hsettled.atomic_iff hstaged hlater .refl htemporary)

/-! ### A file that is copied -/

def replacedSource : FileItem := ⟨.file twoBytes, 5, 0o644, ⟨1, 10⟩⟩

def stagedItem : FileItem := { replacedSource with identity := ⟨1, 11⟩ }

def olderItem : FileItem := { replacedSource with modified := 4, identity := ⟨1, 12⟩ }

def beforeReplacement (destination : Option FileItem) : ReplacementDisk :=
  ⟨fun path => match path with
    | .source => some replacedSource
    | .destination => destination
    | _ => none, []⟩

/-- The calls of these numbers fail; the twelfth is the transfer. -/
def replacementAnswers (failing : List Nat) (n : Nat) : CallAnswer ReplacementAnswer :=
  ⟨decide (n ∈ failing), false,
    ⟨n.toUInt64, .source, stagedItem, if n = 11 then some stagedItem else none, none⟩⟩

def everyRequirement : MetadataRequirements := ⟨true, true, true, true, ⟨false, false, false⟩⟩

def replacing : Replace VerifiedReplacement :=
  performVerifiedReplacement sha256Of true everyRequirement .cleanup

def replaced (destination : Option FileItem) (failing : List Nat) :
    Except ReplacementError VerifiedReplacement × ReplacementDisk :=
  replacing.outcome (replacementAnswers failing) 0 (beforeReplacement destination)

def replacedCalls (destination : Option FileItem) (failing : List Nat) : ReplacementCalls :=
  replacing.callsOf (replacementAnswers failing) 0 (beforeReplacement destination)

instance (sha256 : List UInt8 → Sha256) (disk : ReplacementDisk) (staged : FileItem) :
    Decidable (NoHashCollision sha256 disk staged) :=
  inferInstanceAs (Decidable (∀ source ∈ disk.files .source, source.itemType = .regularFile →
    staged.contentProof sha256 = source.contentProof sha256 → staged.content = source.content))

instance (sha256 : List UInt8 → Sha256) (step : ReplacementStep)
    (answer : CallAnswer ReplacementAnswer) (disk : ReplacementDisk) :
    Decidable (WithoutCollision sha256 step answer disk) :=
  inferInstanceAs (Decidable (step = .transfer → ∀ staged ∈ answer.extra.transferred,
    NoHashCollision sha256 disk staged))

instance (step : ReplacementStep) (calls : ReplacementCalls) : Decidable (Failed step calls) :=
  inferInstanceAs (Decidable (∃ call ∈ calls, call.1 = step ∧ call.2.fails = true))

instance (step : ReplacementStep) (calls : ReplacementCalls) : Decidable (Succeeded step calls) :=
  inferInstanceAs (Decidable (∃ call ∈ calls, call.1 = step ∧ call.2.fails = false))

theorem returnsAlong_replaced {destination : Option FileItem} {failing : List Nat}
    (h : replacing.AllowedSince (WithoutCollision sha256Of) (replacementAnswers failing) 0
      (beforeReplacement destination)) :
    replacing.ReturnsAlong (WithoutCollision sha256Of) (beforeReplacement destination)
      (replacedCalls destination failing) (replaced destination failing).1
      (replaced destination failing).2 :=
  returnsAlong_outcome h

/-- Nothing fails: the older file is moved aside, and the copy is at the destination. -/
theorem replacement_atomic_copied :
    (replaced (some olderItem) []).1.map VerifiedReplacement.previousDestination =
        .ok (some (.sibling .previous 38)) ∧
      Atomic everyRequirement (beforeReplacement (some olderItem)) (replaced (some olderItem) []).1
        (replaced (some olderItem) []).2 :=
  ⟨by decide +kernel, (replacement_atomic_iff (returnsAlong_replaced (by decide +kernel))).mpr
    ⟨by unfold Unnoticed; decide +kernel, by unfold DatedThroughLink; decide +kernel⟩⟩

/-- Neither the installed file nor, in the rollback, the destination can be read: the
error does not call the outcome uncertain, and the file is there. -/
theorem replacement_not_atomic :
    ¬ ∀ (sha256 : List UInt8 → Sha256) (named : Bool) (metadata : MetadataRequirements)
      (policy : PartialTransferPolicy) (before after : ReplacementDisk) (calls : ReplacementCalls)
      (r : Except ReplacementError VerifiedReplacement),
        (performVerifiedReplacement sha256 named metadata policy).ReturnsAlong
            (WithoutCollision sha256) before calls r after →
          Atomic metadata before r after := by
  intro h
  have hrun : replacing.ReturnsAlong (WithoutCollision sha256Of) (beforeReplacement none)
      (replacedCalls none [39, 40]) (replaced none [39, 40]).1 (replaced none [39, 40]).2 :=
    returnsAlong_replaced (by decide +kernel)
  have hatomic := h _ _ _ _ _ _ _ _ hrun
  have herror : (replaced none [39, 40]).1 = .error (.verification (.io .other)) := by
    decide +kernel
  have hrestored := hatomic.restored _ herror rfl
  exact absurd hrestored (by decide +kernel)

end SyncPlus
