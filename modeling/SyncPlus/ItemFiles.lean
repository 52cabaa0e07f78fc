import SyncPlus.DatabaseBackup
import SyncPlus.MirrorEquality
import SyncPlus.Lib.CallTraces

/-!
# Items and the proofs taken of them

A file system as a map from paths to items, and the calls that look at an item:
each succeeds or fails without effect, as its answer says. On them stand the
proofs of an item: its metadata (`FileMetadataProof`), the size and hash of its
content (`ContentProof`) and both together (`SourceObservation`).

The paths are a parameter, and so are the other answers that a procedure asks
for and the labels by which it names its calls. The disk has a log next to its
items, where a procedure can note what it has made.
-/

namespace SyncPlus

/-! ## Items -/

/-- The bytes of a file. None is as long as 2^63. -/
structure FileBytes where
  bytes : List UInt8
  bounded : bytes.length < 2 ^ 63
  deriving DecidableEq

abbrev FileBytes.empty : FileBytes := ⟨[], by decide⟩

/-- Nothing here looks below a directory, it is kept as a whole. -/
inductive ItemContent where
  | file (bytes : FileBytes)
  | directory (below : List PathBuf) (size : UInt64)
  | symlink (target : PathBuf)
  | other (size : UInt64)
  deriving DecidableEq

structure FileItem where
  content : ItemContent
  /-- In nanoseconds since 1970. -/
  modified : Int
  /-- The mode, less its type. -/
  mode : UInt32
  identity : FileIdentity
  deriving DecidableEq

namespace FileItem

def itemType (item : FileItem) : ItemType :=
  match item.content with
  | .file _ => .regularFile
  | .directory .. => .directory
  | .symlink _ => .symlink
  | .other _ => .unsupported

def size (item : FileItem) : UInt64 :=
  match item.content with
  | .file bytes => .ofNat bytes.bytes.length
  | .directory _ size => size
  | .symlink target => .ofNat target.bytes.length
  | .other size => size

def symlinkTarget (item : FileItem) : Option PathBuf :=
  match item.content with
  | .symlink target => some target
  | _ => none

/-- `modified_at_unix_nanos`: the time since 1970, when a signed 64-bit number of
nanoseconds holds it. -/
def modifiedAtUnixNanos (item : FileItem) : Option Int64 :=
  if 0 ≤ item.modified ∧ item.modified < 2 ^ 63 then some (.ofInt item.modified) else none

theorem itemType_eq_regularFile {item : FileItem} :
    item.itemType = .regularFile ↔ ∃ bytes, item.content = .file bytes := by
  unfold itemType
  cases item.content <;> simp

theorem itemType_eq_symlink {item : FileItem} :
    item.itemType = .symlink ↔ ∃ target, item.content = .symlink target := by
  unfold itemType
  cases item.content <;> simp

end FileItem

/-! ## Calls -/

/-- What the environment answers a step; `extra` is for the procedure's own. -/
structure CallAnswer (X : Type) where
  fails : Bool
  cancelled : Bool
  extra : X

structure ItemDisk (P S : Type) where
  files : P → Option FileItem
  log : List S

abbrev ItemCall (P S L X φ α : Type) := Procedure (CallAnswer X) (ItemDisk P S) L Unit φ α

namespace ItemDisk

variable {P S : Type}

def note (disk : ItemDisk P S) (events : List S) : ItemDisk P S :=
  { disk with log := disk.log ++ events }

section

variable {disk : ItemDisk P S} {events : List S}

@[simp] theorem files_note : (disk.note events).files = disk.files := rfl

@[simp] theorem log_note : (disk.note events).log = disk.log ++ events := rfl

@[simp] theorem note_nil : disk.note [] = disk := by
  unfold note
  rw [List.append_nil]

end

variable [DecidableEq P]

def set (disk : ItemDisk P S) (path : P) (item : Option FileItem) : ItemDisk P S :=
  { disk with files := fun p => if p = path then item else disk.files p }

variable {disk : ItemDisk P S} {path p : P} {item : Option FileItem}

@[simp] theorem set_same : (disk.set path item).files path = item := if_pos rfl

theorem set_of_ne (h : p ≠ path) : (disk.set path item).files p = disk.files p := if_neg h

@[simp] theorem log_set : (disk.set path item).log = disk.log := rfl

end ItemDisk

namespace ItemCall

section

variable {P S L X φ α : Type} (label : L)

def fsCall (f : CallAnswer X → ItemDisk P S → Except IoErrorKind (α × ItemDisk P S)) :
    ItemCall P S L X IoErrorKind α :=
  .call label fun answer disk =>
    if answer.fails then (.error .other, disk)
    else
      match f answer disk with
      | .ok (a, disk') => (.ok a, disk')
      | .error kind => (.error kind, disk)

/-- `fs::symlink_metadata`. -/
def symlinkMetadata (path : P) : ItemCall P S L X IoErrorKind FileItem :=
  fsCall label fun _ disk =>
    match disk.files path with
    | some item => .ok (item, disk)
    | none => .error .notFound

/-- `fs::read_link(path).ok()`. -/
def readLink (path : P) : ItemCall P S L X φ (Option PathBuf) :=
  .call label fun answer disk =>
    (.ok (if answer.fails then none else (disk.files path).bind FileItem.symlinkTarget), disk)

/-- Open for reading, without following a link. -/
def openNoFollow (path : P) : ItemCall P S L X IoErrorKind Unit :=
  fsCall label fun _ disk =>
    match disk.files path with
    | some item => if item.itemType = .symlink then .error .other else .ok ((), disk)
    | none => .error .notFound

/-- The callback. -/
def shouldCancel : ItemCall P S L X φ Bool :=
  .call label fun answer disk => (.ok answer.cancelled, disk)

end

end ItemCall

/-! ## Proofs -/

/-- `VerificationError`, with the kind of an I/O error. -/
inductive ItemProofError where
  | io (kind : IoErrorKind)
  | cancelled
  | unsupportedItem
  | sourceChanged
  | sizeMismatch (expected actual : UInt64)
  | hashMismatch
  deriving DecidableEq

structure FileMetadataProof where
  itemType : ItemType
  size : UInt64
  modifiedAtUnixNanos : Option Int64
  identity : Option FileIdentity
  permissions : Option UInt32
  symlinkTarget : Option PathBuf
  deriving DecidableEq

namespace FileMetadataProof

def fromMetadata (item : FileItem) (symlinkTarget : Option PathBuf) : FileMetadataProof where
  itemType := item.itemType
  size := item.size
  modifiedAtUnixNanos := item.modifiedAtUnixNanos
  identity := some item.identity
  permissions := some item.mode
  symlinkTarget

def capture {P S L X : Type} (label : L) (path : P) :
    ItemCall P S L X ItemProofError FileMetadataProof := do
  let item ← (ItemCall.symlinkMetadata label path).mapError .io
  if item.itemType = .symlink then
    let target ← ItemCall.readLink label path
    return fromMetadata item target
  else return fromMetadata item none

def executablePermissions (proof : FileMetadataProof) : Option UInt32 :=
  proof.permissions.map fun permissions => permissions &&& 0o111

def matchesTransferMetadata (proof other : FileMetadataProof)
    (requirements : MetadataRequirements) : Bool :=
  if requirements.specialist.any then false
  else
    (!requirements.fileType || proof.itemType = other.itemType) &&
      (!requirements.symlinkTargets ||
        sameOptionPath proof.symlinkTarget other.symlinkTarget) &&
      (!requirements.executablePermissions ||
        proof.executablePermissions = other.executablePermissions) &&
      (!requirements.timestamps || proof.modifiedAtUnixNanos = other.modifiedAtUnixNanos)

/-- `modified_at`, in nanoseconds since 1970. -/
def modifiedAt (proof : FileMetadataProof) : Option Int :=
  proof.modifiedAtUnixNanos.map Int64.toInt

end FileMetadataProof

/-- `same_file_metadata`. -/
def sameFileMetadata (left right : FileItem) : Bool :=
  left.identity = right.identity && left.itemType = right.itemType && left.size = right.size &&
    left.modifiedAtUnixNanos = right.modifiedAtUnixNanos && left.mode = right.mode

section

variable {P S L X : Type} (sha256 : List UInt8 → Sha256) (label : L)

/-- Read an open file to its end. -/
def readToEnd (cancellable : Bool) (path : P) :
    ItemCall P S L X ItemProofError (List UInt8) :=
  .call label fun answer disk =>
    if cancellable && answer.cancelled then (.error .cancelled, disk)
    else if answer.fails then (.error (.io .other), disk)
    else
      match disk.files path with
      | some { content := .file bytes, .. } => (.ok bytes.bytes, disk)
      | _ => (.error (.io .other), disk)

def ContentProof.ofBytes (bytes : List UInt8) : ContentProof :=
  ⟨.ofNat bytes.length, sha256 bytes⟩

def ContentProof.fromPathWithCancel (cancellable : Bool) (path : P) :
    ItemCall P S L X ItemProofError ContentProof := do
  let pathMetadata ← (ItemCall.symlinkMetadata label path).mapError .io
  Procedure.ofExcept (ensure (pathMetadata.itemType = .regularFile) .unsupportedItem)
  (ItemCall.openNoFollow label path).mapError .io
  let openedMetadata ← (ItemCall.symlinkMetadata label path).mapError .io
  Procedure.ofExcept (ensure (sameFileMetadata pathMetadata openedMetadata = true) .sourceChanged)
  let bytes ← readToEnd label cancellable path
  let finishedMetadata ← (ItemCall.symlinkMetadata label path).mapError .io
  let pathAfter ← (ItemCall.symlinkMetadata label path).mapError .io
  Procedure.ofExcept (ensure (sameFileMetadata openedMetadata finishedMetadata = true ∧
    sameFileMetadata pathMetadata pathAfter = true) .sourceChanged)
  return .ofBytes sha256 bytes

def verifyContentWithCancel (cancellable : Bool) (path : P) (expected : ContentProof) :
    ItemCall P S L X ItemProofError ContentProof := do
  let actual ← ContentProof.fromPathWithCancel sha256 label cancellable path
  Procedure.ofExcept (ensure (actual.size = expected.size)
    (.sizeMismatch expected.size actual.size))
  Procedure.ofExcept (ensure (actual.sha256 = expected.sha256) .hashMismatch)
  return actual

end

structure SourceObservation where
  metadata : FileMetadataProof
  content : Option ContentProof
  deriving DecidableEq

/-- The content of a regular file. -/
def observeContent {P S L X : Type} (sha256 : List UInt8 → Sha256) (label : L)
    (itemType : ItemType) (path : P) : ItemCall P S L X ItemProofError (Option ContentProof) := do
  if itemType = .regularFile then
    let content ← ContentProof.fromPathWithCancel sha256 label true path
    return some content
  else return none

def SourceObservation.captureWithCancel {P S L X : Type} (sha256 : List UInt8 → Sha256)
    (label : L) (path : P) : ItemCall P S L X ItemProofError SourceObservation := do
  let before ← FileMetadataProof.capture label path
  Procedure.ofExcept (ensure (before.itemType ≠ .unsupported) .unsupportedItem)
  let content ← observeContent sha256 label before.itemType path
  let after ← FileMetadataProof.capture label path
  Procedure.ofExcept (ensure (before = after ∧
    content.all (fun content => before.size = content.size) = true) .sourceChanged)
  return ⟨before, content⟩

/-! ## What the calls end in -/

/-- The content proof of an item, when it is a file. -/
def FileItem.contentProof (sha256 : List UInt8 → Sha256) (item : FileItem) :
    Option ContentProof :=
  match item.content with
  | .file bytes => some (.ofBytes sha256 bytes.bytes)
  | _ => none

/-- A call may fail here, or be cancelled. -/
def Disturbed {P S L X : Type} (allows : L → CallAnswer X → ItemDisk P S → Prop)
    (s : ItemDisk P S) : Prop :=
  ∃ label answer, allows label answer s ∧ (answer.fails = true ∨ answer.cancelled = true)

section

open Procedure

variable {P S L X α : Type} {allows : L → CallAnswer X → ItemDisk P S → Prop} {s : ItemDisk P S}
  {path : P} {label : L} {sha256 : List UInt8 → Sha256}

theorem ensures_itemCall {f : CallAnswer X → ItemDisk P S → Except IoErrorKind (α × ItemDisk P S)}
    {Q : Except IoErrorKind α → ItemDisk P S → Prop}
    (hok : ∀ answer, allows label answer s → ∀ a t, f answer s = .ok (a, t) → Q (.ok a) t)
    (herror : ∀ answer, allows label answer s → ∀ kind, f answer s = .error kind →
      Q (.error kind) s)
    (hfails : Disturbed allows s → Q (.error .other) s) :
    (ItemCall.fsCall label f : ItemCall P S L X IoErrorKind α).Ensures allows Q s := by
  refine .call fun answer hallows => ?_
  split
  · rename_i hanswer
    exact hfails ⟨_, answer, hallows, .inl hanswer⟩
  · split
    · rename_i a t hf
      exact hok answer hallows a t hf
    · rename_i kind hf
      exact herror answer hallows kind hf

theorem ensures_itemMetadata {Q : Except IoErrorKind FileItem → ItemDisk P S → Prop}
    (hok : ∀ item, s.files path = some item → Q (.ok item) s)
    (hnone : s.files path = none → Q (.error .notFound) s)
    (hfails : Disturbed allows s → Q (.error .other) s) :
    (ItemCall.symlinkMetadata label path : ItemCall P S L X _ _).Ensures allows Q s := by
  refine ensures_itemCall ?_ ?_ hfails
  · intro answer _ item t hf
    cases hitem : s.files path with
    | none => simp [hitem] at hf
    | some found =>
        simp only [hitem, Except.ok.injEq, Prod.mk.injEq] at hf
        rw [← hf.1, ← hf.2]
        exact hok found hitem
  · intro answer _ kind hf
    cases hitem : s.files path with
    | none =>
        simp only [hitem, Except.error.injEq] at hf
        rw [← hf]
        exact hnone hitem
    | some found => simp [hitem] at hf

/-- A proof of the metadata is one of the item that is there. -/
theorem ensures_capture {Q : Except ItemProofError FileMetadataProof → ItemDisk P S → Prop}
    (hok : ∀ item target, s.files path = some item →
      (¬ Disturbed allows s → target = item.symlinkTarget) →
        Q (.ok (.fromMetadata item target)) s)
    (hnone : s.files path = none → Q (.error (.io .notFound)) s)
    (hfails : Disturbed allows s → Q (.error (.io .other)) s) :
    (FileMetadataProof.capture label path : ItemCall P S L X _ _).Ensures allows Q s := by
  refine .bind (P := fun r t => (∃ item, r = .ok item ∧ t = s ∧ s.files path = some item) ∨
    (∃ e, r = .error e ∧ Q (.error e) t)) ?_ ?_ ?_
  · refine .mapError (ensures_itemMetadata ?_ ?_ ?_)
    · intro item hitem
      exact .inl ⟨item, rfl, rfl, hitem⟩
    · intro habsent
      exact .inr ⟨_, rfl, hnone habsent⟩
    · intro hdisturbed
      exact .inr ⟨_, rfl, hfails hdisturbed⟩
  · rintro found t (⟨item, hr, rfl, hitem⟩ | ⟨_, hr, _⟩)
    · cases hr
      split <;> rename_i hlink
      · refine .bind_returns (P := fun target u => u = t ∧
          (¬ Disturbed allows t → target = found.symlinkTarget)) (.call fun answer hallows => ?_) ?_
        · refine ⟨_, rfl, rfl, fun hcalm => ?_⟩
          split
          · rename_i hanswer
            exact absurd ⟨_, answer, hallows, .inl hanswer⟩ hcalm
          · rw [hitem]
            rfl
        · rintro target u ⟨rfl, htarget⟩
          exact .pure (hok found target hitem htarget)
      · refine .pure (hok found none hitem fun _ => ?_)
        unfold FileItem.symlinkTarget
        cases hcontent : found.content with
        | symlink target => exact absurd (FileItem.itemType_eq_symlink.mpr ⟨_, hcontent⟩) hlink
        | file _ | directory _ _ | other _ => rfl
    · cases hr
  · rintro e t (⟨_, hr, _⟩ | ⟨_, hr, h⟩)
    · cases hr
    · cases hr
      exact h

theorem sameFileMetadata_self (item : FileItem) : sameFileMetadata item item = true := by
  simp [sameFileMetadata]

/-- A step of a proof: the item is there, or the proof fails and nothing has
changed. -/
theorem ensures_stat {Q : Except ItemProofError α → ItemDisk P S → Prop}
    {next : FileItem → ItemCall P S L X ItemProofError α}
    (hok : ∀ item, s.files path = some item → (next item).Ensures allows Q s)
    (herror : ∀ e, (Disturbed allows s ∨ s.files path = none) → Q (.error e) s) :
    ((ItemCall.symlinkMetadata label path).mapError ItemProofError.io >>= next).Ensures
      allows Q s := by
  refine .bind (P := fun r t => t = s ∧ (∀ item, r = .ok item → s.files path = some item) ∧
    ∀ e, r = .error e → (Disturbed allows s ∨ s.files path = none)) ?_ ?_ ?_
  · refine .mapError (ensures_itemMetadata ?_ ?_ ?_)
    · intro item hitem
      exact ⟨rfl, by rintro _ ⟨⟩; exact hitem, by rintro _ ⟨⟩⟩
    · intro habsent
      exact ⟨rfl, by rintro _ ⟨⟩, fun _ _ => .inr habsent⟩
    · intro hdisturbed
      exact ⟨rfl, by rintro _ ⟨⟩, fun _ _ => .inl hdisturbed⟩
  · rintro item t ⟨rfl, hitem, -⟩
    exact hok item (hitem item rfl)
  · rintro e t ⟨rfl, -, he⟩
    exact herror e (he e rfl)

/-- The content that is proved is that of the file that is there. -/
theorem ensures_fromPathWithCancel {cancellable : Bool}
    {Q : Except ItemProofError ContentProof → ItemDisk P S → Prop}
    (hok : ∀ item bytes, s.files path = some item → item.content = .file bytes →
      Q (.ok (.ofBytes sha256 bytes.bytes)) s)
    (herror : ∀ e, (Disturbed allows s ∨
      ¬ ∃ item bytes, s.files path = some item ∧ item.content = .file bytes) → Q (.error e) s) :
    (ContentProof.fromPathWithCancel sha256 label cancellable path : ItemCall P S L X _ _).Ensures
      allows Q s := by
  have hmissing : ∀ e, (Disturbed allows s ∨ s.files path = none) → Q (.error e) s := by
    rintro e (hdisturbed | hnone)
    · exact herror e (.inl hdisturbed)
    · refine herror e (.inr ?_)
      rintro ⟨item, bytes, hitem, -⟩
      rw [hnone] at hitem
      cases hitem
  refine ensures_stat ?_ hmissing
  intro item hitem
  refine .ofExcept_bind ?_ ?_
  · intro _ htype
    obtain ⟨bytes, hbytes⟩ := FileItem.itemType_eq_regularFile.mp (ensure_eq_ok.mp htype)
    refine .bind (P := fun r t => t = s ∧ ∀ e, r = .error e → Disturbed allows s) ?_ ?_ ?_
    · refine .mapError (ensures_itemCall ?_ ?_ ?_)
      · intro answer _ a t hf
        simp only [hitem, ensure_eq_ok.mp htype, reduceCtorEq, if_false, Except.ok.injEq,
          Prod.mk.injEq] at hf
        exact ⟨hf.2.symm, by rintro _ ⟨⟩⟩
      · intro answer _ kind hf
        simp [hitem, ensure_eq_ok.mp htype] at hf
      · intro hdisturbed
        exact ⟨rfl, fun _ _ => hdisturbed⟩
    · rintro _ t ⟨rfl, -⟩
      refine ensures_stat ?_ hmissing
      intro opened hopened
      obtain rfl : item = opened := Option.some.inj (hitem.symm.trans hopened)
      refine .ofExcept_bind (fun _ _ => ?_) ?_
      · refine .bind (P := fun r u => u = t ∧ (∀ read, r = .ok read → read = bytes.bytes) ∧
          ∀ e, r = .error e → Disturbed allows t) (.call fun answer hallows => ?_) ?_ ?_
        · split
          · rename_i hcancel
            simp only [Bool.and_eq_true] at hcancel
            exact ⟨rfl, by rintro _ ⟨⟩, fun _ _ => ⟨_, answer, hallows, .inr hcancel.2⟩⟩
          · split
            · rename_i hfails
              exact ⟨rfl, by rintro _ ⟨⟩, fun _ _ => ⟨_, answer, hallows, .inl hfails⟩⟩
            · rcases item with ⟨content, modified, mode, identity⟩
              simp only at hbytes
              subst hbytes
              rw [hitem]
              exact ⟨rfl, by rintro _ ⟨⟩; rfl, by rintro _ ⟨⟩⟩
        · rintro read u ⟨rfl, hread, -⟩
          refine ensures_stat ?_ hmissing
          intro finished hfinished
          obtain rfl : item = finished := Option.some.inj (hitem.symm.trans hfinished)
          refine ensures_stat ?_ hmissing
          intro after hafter
          obtain rfl : item = after := Option.some.inj (hitem.symm.trans hafter)
          refine .ofExcept_bind (fun _ _ => ?_) ?_
          · rw [hread read rfl]
            exact .pure (hok item bytes hitem hbytes)
          · intro e he
            rw [ensure_of ⟨sameFileMetadata_self item, sameFileMetadata_self item⟩] at he
            cases he
        · rintro e u ⟨rfl, -, he⟩
          exact herror e (.inl (he e rfl))
      · intro e he
        rw [ensure_of (sameFileMetadata_self item)] at he
        cases he
    · rintro e t ⟨rfl, he⟩
      exact herror e (.inl (he e rfl))
  · intro e he
    refine herror e (.inr ?_)
    rintro ⟨other, bytes, hother, hbytes⟩
    obtain rfl : item = other := Option.some.inj (hitem.symm.trans hother)
    rw [ensure_of (FileItem.itemType_eq_regularFile.mpr ⟨bytes, hbytes⟩)] at he
    cases he

/-- What is verified is the file that is expected. -/
theorem ensures_verifyContent {cancellable : Bool} {expected : ContentProof}
    {Q : Except ItemProofError ContentProof → ItemDisk P S → Prop}
    (hok : ∀ item bytes, s.files path = some item → item.content = .file bytes →
      ContentProof.ofBytes sha256 bytes.bytes = expected → Q (.ok expected) s)
    (herror : ∀ e, (Disturbed allows s ∨ ¬ ∃ item bytes, s.files path = some item ∧
      item.content = .file bytes ∧ ContentProof.ofBytes sha256 bytes.bytes = expected) →
        Q (.error e) s) :
    (verifyContentWithCancel sha256 label cancellable path expected : ItemCall P S L X _ _).Ensures
      allows Q s := by
  refine .bind (P := fun r t => t = s ∧ (∀ actual, r = .ok actual → ∃ item bytes,
      s.files path = some item ∧ item.content = .file bytes ∧
        actual = ContentProof.ofBytes sha256 bytes.bytes) ∧
    ∀ e, r = .error e → (Disturbed allows s ∨
      ¬ ∃ item bytes, s.files path = some item ∧ item.content = .file bytes)) ?_ ?_ ?_
  · refine ensures_fromPathWithCancel ?_ ?_
    · intro item bytes hitem hbytes
      exact ⟨rfl, by rintro _ ⟨⟩; exact ⟨item, bytes, hitem, hbytes, rfl⟩, by rintro _ ⟨⟩⟩
    · intro e he
      exact ⟨rfl, by rintro _ ⟨⟩, fun _ _ => he⟩
  · rintro actual t ⟨rfl, hactual, -⟩
    obtain ⟨item, bytes, hitem, hbytes, rfl⟩ := hactual actual rfl
    have hdiffers : ∀ e, ContentProof.ofBytes sha256 bytes.bytes ≠ expected → Q (.error e) t := by
      intro e hne
      refine herror e (.inr ?_)
      rintro ⟨other, bytes', hother, hbytes', hexpected⟩
      obtain rfl : item = other := Option.some.inj (hitem.symm.trans hother)
      rw [hbytes, ItemContent.file.injEq] at hbytes'
      rw [hbytes'] at hne
      exact hne hexpected
    refine .ofExcept_bind (fun _ hsize => ?_) ?_
    · refine .ofExcept_bind (fun _ hhash => ?_) ?_
      · have heq : ContentProof.ofBytes sha256 bytes.bytes = expected := by
          rcases expected with ⟨size, hash⟩
          exact congrArg₂ ContentProof.mk (ensure_eq_ok.mp hsize) (ensure_eq_ok.mp hhash)
        rw [heq]
        exact .pure (hok item bytes hitem hbytes heq)
      · intro e he
        refine hdiffers e fun heq => ?_
        rw [heq, ensure_of rfl] at he
        cases he
    · intro e he
      refine hdiffers e fun heq => ?_
      rw [heq, ensure_of rfl] at he
      cases he
  · rintro e t ⟨rfl, -, he⟩
    refine herror e ((he e rfl).imp_right fun hnone => ?_)
    rintro ⟨item, bytes, hitem, hbytes, -⟩
    exact hnone ⟨item, bytes, hitem, hbytes⟩

theorem contentProof_of_file {item : FileItem} {bytes : FileBytes}
    (h : item.content = .file bytes) :
    item.contentProof sha256 = some (.ofBytes sha256 bytes.bytes) := by
  unfold FileItem.contentProof
  rw [h]

theorem contentProof_of_other {item : FileItem} (h : item.itemType ≠ .regularFile) :
    item.contentProof sha256 = none := by
  unfold FileItem.contentProof
  cases hcontent : item.content with
  | file bytes => exact absurd (FileItem.itemType_eq_regularFile.mpr ⟨bytes, hcontent⟩) h
  | directory _ _ | symlink _ | other _ => rfl

theorem ensures_observeContent {item : FileItem} (hitem : s.files path = some item)
    {Q : Except ItemProofError (Option ContentProof) → ItemDisk P S → Prop}
    (hok : Q (.ok (item.contentProof sha256)) s)
    (herror : ∀ e, Disturbed allows s → Q (.error e) s) :
    (observeContent sha256 label item.itemType path : ItemCall P S L X _ _).Ensures allows Q s := by
  unfold observeContent
  split <;> rename_i htype
  · obtain ⟨bytes, hbytes⟩ := FileItem.itemType_eq_regularFile.mp htype
    rw [contentProof_of_file hbytes] at hok
    refine .bind (P := fun r t => t = s ∧ (∀ content, r = .ok content →
      content = .ofBytes sha256 bytes.bytes) ∧ ∀ e, r = .error e → Disturbed allows s) ?_ ?_ ?_
    · refine ensures_fromPathWithCancel ?_ ?_
      · intro other bytes' hother hbytes'
        obtain rfl : item = other := Option.some.inj (hitem.symm.trans hother)
        rw [hbytes, ItemContent.file.injEq] at hbytes'
        exact ⟨rfl, by rintro _ ⟨⟩; rw [hbytes'], by rintro _ ⟨⟩⟩
      · intro e he
        refine ⟨rfl, by rintro _ ⟨⟩, fun _ _ => ?_⟩
        rcases he with hdisturbed | hmissing
        · exact hdisturbed
        · exact absurd ⟨item, bytes, hitem, hbytes⟩ hmissing
    · rintro content t ⟨rfl, hcontent, -⟩
      rw [hcontent content rfl]
      exact .pure hok
    · rintro e t ⟨rfl, -, he⟩
      exact herror e (he e rfl)
  · rw [contentProof_of_other htype] at hok
    exact .pure hok

/-- An observation is one of the item that is there. -/
theorem ensures_captureWithCancel {Q : Except ItemProofError SourceObservation → ItemDisk P S → Prop}
    (hok : ∀ item target, s.files path = some item → item.itemType ≠ .unsupported →
      (¬ Disturbed allows s → target = item.symlinkTarget) →
        Q (.ok ⟨.fromMetadata item target, item.contentProof sha256⟩) s)
    (herror : ∀ e, (Disturbed allows s ∨
      ¬ ∃ item, s.files path = some item ∧ item.itemType ≠ .unsupported) → Q (.error e) s) :
    (SourceObservation.captureWithCancel sha256 label path : ItemCall P S L X _ _).Ensures
      allows Q s := by
  have habsent : s.files path = none → ∀ e, Q (.error e) s := by
    intro hnone e
    refine herror e (.inr ?_)
    rintro ⟨item, hitem, -⟩
    rw [hnone] at hitem
    cases hitem
  refine .bind (P := fun r t => t = s ∧ (∀ proof, r = .ok proof → ∃ item target,
      s.files path = some item ∧ proof = .fromMetadata item target ∧
        (¬ Disturbed allows s → target = item.symlinkTarget)) ∧
    ∀ e, r = .error e → Q (.error e) s) ?_ ?_ ?_
  · refine ensures_capture ?_ ?_ ?_
    · intro item target hitem htarget
      exact ⟨rfl, by rintro _ ⟨⟩; exact ⟨item, target, hitem, rfl, htarget⟩, by rintro _ ⟨⟩⟩
    · intro hnone
      exact ⟨rfl, by rintro _ ⟨⟩, fun e _ => habsent hnone e⟩
    · intro hdisturbed
      exact ⟨rfl, by rintro _ ⟨⟩, fun e _ => herror e (.inl hdisturbed)⟩
  · rintro before t ⟨rfl, hbefore, -⟩
    obtain ⟨item, target, hitem, rfl, htarget⟩ := hbefore before rfl
    refine .ofExcept_bind (fun _ hsupported => ?_) ?_
    · have hsupported : item.itemType ≠ .unsupported := ensure_eq_ok.mp hsupported
      refine .bind (P := fun r u => u = t ∧ (∀ content, r = .ok content →
          content = item.contentProof sha256) ∧ ∀ e, r = .error e → Disturbed allows t) ?_ ?_ ?_
      · refine ensures_observeContent hitem ?_ ?_
        · exact ⟨rfl, by rintro _ ⟨⟩; rfl, by rintro _ ⟨⟩⟩
        · intro e hdisturbed
          exact ⟨rfl, by rintro _ ⟨⟩, fun _ _ => hdisturbed⟩
      · rintro content u ⟨rfl, hcontent, -⟩
        obtain rfl := hcontent content rfl
        refine .bind (P := fun r v => v = u ∧ (∀ proof, r = .ok proof → ∃ target',
            proof = .fromMetadata item target' ∧
              (¬ Disturbed allows u → target' = item.symlinkTarget)) ∧
          ∀ e, r = .error e → Q (.error e) u) ?_ ?_ ?_
        · refine ensures_capture ?_ ?_ ?_
          · intro other target' hother htarget'
            obtain rfl : item = other := Option.some.inj (hitem.symm.trans hother)
            exact ⟨rfl, by rintro _ ⟨⟩; exact ⟨target', rfl, htarget'⟩, by rintro _ ⟨⟩⟩
          · intro hnone
            exact ⟨rfl, by rintro _ ⟨⟩, fun e _ => habsent hnone e⟩
          · intro hdisturbed
            exact ⟨rfl, by rintro _ ⟨⟩, fun e _ => herror e (.inl hdisturbed)⟩
        · rintro after v ⟨rfl, hafter, -⟩
          obtain ⟨target', rfl, htarget'⟩ := hafter after rfl
          refine .ofExcept_bind (fun _ _ => .pure (hok item target hitem hsupported htarget)) ?_
          intro e he
          refine herror e (.inl ?_)
          by_contra hcalm
          have hsize : (item.contentProof sha256).all
              (fun content => item.size = content.size) = true := by
            unfold FileItem.contentProof FileItem.size
            cases item.content <;> simp [ContentProof.ofBytes]
          have hsame : FileMetadataProof.fromMetadata item target =
              .fromMetadata item target' := by
            rw [htarget hcalm, htarget' hcalm]
          rw [ensure_of ⟨hsame, hsize⟩] at he
          cases he
        · rintro e v ⟨rfl, -, he⟩
          exact he e rfl
      · rintro e u ⟨rfl, -, he⟩
        exact herror e (.inl (he e rfl))
    · intro e he
      refine herror e (.inr ?_)
      rintro ⟨other, hother, hsupported⟩
      obtain rfl : item = other := Option.some.inj (hitem.symm.trans hother)
      rw [ensure_of (show (FileMetadataProof.fromMetadata item target).itemType ≠ .unsupported from
        hsupported)] at he
      cases he
  · rintro e t ⟨rfl, -, he⟩
    exact he e rfl

end

/-! ## Labels -/

section

open Procedure

variable {P S L X α : Type} {label : L} {Λ : L → Prop} (h : Λ label)
  {sha256 : List UInt8 → Sha256} {cancellable : Bool} {path : P}

include h

theorem labels_fromPath :
    (ContentProof.fromPathWithCancel sha256 label cancellable path :
      ItemCall P S L X ItemProofError ContentProof).Labels Λ := by
  refine .bind (.mapError (.call h)) fun _ => .bind .ofExcept fun _ => ?_
  refine .bind (.mapError (.call h)) fun _ => .bind (.mapError (.call h)) fun _ => ?_
  refine .bind .ofExcept fun _ => .bind (.call h) fun _ => ?_
  refine .bind (.mapError (.call h)) fun _ => .bind (.mapError (.call h)) fun _ => ?_
  exact .bind .ofExcept fun _ => .pure

theorem labels_verifyContent {expected : ContentProof} :
    (verifyContentWithCancel sha256 label cancellable path expected :
      ItemCall P S L X ItemProofError ContentProof).Labels Λ :=
  .bind (labels_fromPath h) fun _ => .bind .ofExcept fun _ => .bind .ofExcept fun _ => .pure

theorem labels_capture : (FileMetadataProof.capture label path :
    ItemCall P S L X ItemProofError FileMetadataProof).Labels Λ := by
  refine .bind (.mapError (.call h)) fun _ => ?_
  split
  · exact .bind (.call h) fun _ => .pure
  · exact .pure

theorem labels_captureWithCancel : (SourceObservation.captureWithCancel sha256 label path :
    ItemCall P S L X ItemProofError SourceObservation).Labels Λ := by
  refine .bind (labels_capture h) fun before => .bind .ofExcept fun _ => .bind ?_ fun _ => ?_
  · unfold observeContent
    split
    · exact .bind (labels_fromPath h) fun _ => .pure
    · exact .pure
  · exact .bind (labels_capture h) fun _ => .bind .ofExcept fun _ => .pure

end

/-! ## The calls that are made -/

/-- The calls since then have this label, and none failed. -/
def Smooth {ℓ X : Type} (label : ℓ) (calls after : List (ℓ × CallAnswer X)) : Prop :=
  ∃ own, after = calls ++ own ∧ ∀ call ∈ own, call.1 = label ∧ call.2.fails = false

/-- The calls since then have this label, and one of them failed. -/
def Broken {ℓ X : Type} (label : ℓ) (calls after : List (ℓ × CallAnswer X)) : Prop :=
  ∃ own, after = calls ++ own ∧ (∀ call ∈ own, call.1 = label) ∧
    ∃ call ∈ own, call.2.fails = true

section

variable {ℓ X : Type} {label : ℓ} {calls after : List (ℓ × CallAnswer X)} {answer : CallAnswer X}

theorem Smooth.refl : Smooth label calls calls := ⟨[], (List.append_nil calls).symm, nofun⟩

theorem Smooth.snoc (h : Smooth label calls after) (hanswer : answer.fails = false) :
    Smooth label calls (after ++ [(label, answer)]) := by
  obtain ⟨own, rfl, hown⟩ := h
  refine ⟨own ++ [(label, answer)], List.append_assoc .., fun call hcall => ?_⟩
  rcases List.mem_append.mp hcall with hcall | hcall
  · exact hown call hcall
  · rw [List.mem_singleton.mp hcall]
    exact ⟨rfl, hanswer⟩

theorem Smooth.broken (h : Smooth label calls after) (hanswer : answer.fails = true) :
    Broken label calls (after ++ [(label, answer)]) := by
  obtain ⟨own, rfl, hown⟩ := h
  refine ⟨own ++ [(label, answer)], List.append_assoc .., fun call hcall => ?_,
    (label, answer), by simp, hanswer⟩
  rcases List.mem_append.mp hcall with hcall | hcall
  · exact (hown call hcall).1
  · rw [List.mem_singleton.mp hcall]

end

section

open Procedure

variable {P S L X α : Type} {allows : L → CallAnswer X → ItemDisk P S → Prop} {s : ItemDisk P S}
  {path : P} {label : L} {sha256 : List UInt8 → Sha256} {calls after : List (L × CallAnswer X)}
  {item : FileItem}

theorem ensuresAlong_itemCall
    {f : CallAnswer X → ItemDisk P S → Except IoErrorKind (α × ItemDisk P S)}
    {Q : Except IoErrorKind α → List (L × CallAnswer X) → ItemDisk P S → Prop}
    (hok : ∀ answer, answer.fails = false → ∀ a t, f answer s = .ok (a, t) →
      Q (.ok a) (calls ++ [(label, answer)]) t)
    (herror : ∀ answer, answer.fails = false → ∀ kind, f answer s = .error kind →
      Q (.error kind) (calls ++ [(label, answer)]) s)
    (hfails : ∀ answer, answer.fails = true → Q (.error .other) (calls ++ [(label, answer)]) s) :
    (ItemCall.fsCall label f : ItemCall P S L X IoErrorKind α).EnsuresAlong allows Q calls s := by
  refine .call fun answer _ => ?_
  split
  · rename_i hanswer
    exact hfails answer hanswer
  · rename_i hanswer
    rw [Bool.not_eq_true] at hanswer
    split
    · rename_i a t hf
      exact hok answer hanswer a t hf
    · rename_i kind hf
      exact herror answer hanswer kind hf

theorem ensuresAlong_itemMetadata
    {Q : Except IoErrorKind FileItem → List (L × CallAnswer X) → ItemDisk P S → Prop}
    (hok : ∀ answer item, answer.fails = false → s.files path = some item →
      Q (.ok item) (calls ++ [(label, answer)]) s)
    (hnone : ∀ answer, answer.fails = false → s.files path = none →
      Q (.error .notFound) (calls ++ [(label, answer)]) s)
    (hfails : ∀ answer, answer.fails = true → Q (.error .other) (calls ++ [(label, answer)]) s) :
    (ItemCall.symlinkMetadata label path : ItemCall P S L X _ _).EnsuresAlong allows Q calls s := by
  refine ensuresAlong_itemCall ?_ ?_ hfails
  · intro answer hanswer item t hf
    cases hitem : s.files path with
    | none => simp [hitem] at hf
    | some found =>
        simp only [hitem, Except.ok.injEq, Prod.mk.injEq] at hf
        rw [← hf.1, ← hf.2]
        exact hok answer found hanswer hitem
  · intro answer hanswer kind hf
    cases hitem : s.files path with
    | none =>
        simp only [hitem, Except.error.injEq] at hf
        rw [← hf]
        exact hnone answer hanswer hitem
    | some found => simp [hitem] at hf

/-- A step of a proof of an item that is there. -/
theorem ensuresAlong_stat {next : FileItem → ItemCall P S L X ItemProofError α}
    {Q : Except ItemProofError α → List (L × CallAnswer X) → ItemDisk P S → Prop}
    (hitem : s.files path = some item) (hsmooth : Smooth label calls after)
    (hok : ∀ after, Smooth label calls after → (next item).EnsuresAlong allows Q after s)
    (herror : ∀ e after, Broken label calls after → Q (.error e) after s) :
    ((ItemCall.symlinkMetadata label path).mapError ItemProofError.io >>= next).EnsuresAlong
      allows Q after s := by
  refine .guarded (.mapError (ensuresAlong_itemMetadata ?_ ?_ ?_))
  · intro answer found hanswer hfound
    obtain rfl : item = found := Option.some.inj (hitem.symm.trans hfound)
    exact .inl ⟨item, rfl, hok _ (hsmooth.snoc hanswer)⟩
  · intro answer _ hnone
    rw [hitem] at hnone
    cases hnone
  · intro answer hanswer
    exact .inr ⟨_, rfl, herror _ _ (hsmooth.broken hanswer)⟩

/-- The metadata of an item that is there are proved unless a call fails. -/
theorem ensuresAlong_capture {Q : Except ItemProofError FileMetadataProof → List (L × CallAnswer X) →
      ItemDisk P S → Prop} (hitem : s.files path = some item)
    (hok : ∀ target after, Q (.ok (.fromMetadata item target)) after s)
    (herror : ∀ e after, Broken label calls after → Q (.error e) after s) :
    (FileMetadataProof.capture label path : ItemCall P S L X _ _).EnsuresAlong allows Q calls s := by
  refine ensuresAlong_stat hitem .refl (fun after _ => ?_) herror
  split
  · exact .bind_returns (P := fun _ _ t => t = s) (.call fun _ _ => ⟨_, rfl, rfl⟩)
      (by rintro target after _ rfl; exact .pure (hok target after))
  · exact .pure (hok none after)

/-- The content of a file that is there is proved unless one of the calls fails. -/
theorem ensuresAlong_fromPath {bytes : FileBytes}
    {Q : Except ItemProofError ContentProof → List (L × CallAnswer X) → ItemDisk P S → Prop}
    (hitem : s.files path = some item) (hbytes : item.content = .file bytes)
    (hok : ∀ after, Smooth label calls after → Q (.ok (.ofBytes sha256 bytes.bytes)) after s)
    (herror : ∀ e after, Broken label calls after → Q (.error e) after s) :
    (ContentProof.fromPathWithCancel sha256 label false path : ItemCall P S L X _ _).EnsuresAlong
      allows Q calls s := by
  have htype : item.itemType = .regularFile := FileItem.itemType_eq_regularFile.mpr ⟨bytes, hbytes⟩
  have hsame := sameFileMetadata_self item
  refine ensuresAlong_stat hitem .refl (fun after hafter => ?_) herror
  refine .ofExcept_bind (fun _ _ => ?_) fun e he => ?_
  · refine .guarded (.mapError (ensuresAlong_itemCall ?_ ?_ ?_))
    · intro answer hanswer a t hf
      simp only [hitem, htype, reduceCtorEq, if_false, Except.ok.injEq, Prod.mk.injEq] at hf
      obtain ⟨-, rfl⟩ := hf
      refine .inl ⟨a, rfl, ensuresAlong_stat hitem (hafter.snoc hanswer) (fun after hafter => ?_)
        herror⟩
      refine .ofExcept_bind (fun _ _ => ?_) fun e he => ?_
      · refine .guarded (.call fun answer _ => ?_)
        cases hanswer : answer.fails with
        | true => exact .inr ⟨_, rfl, herror _ _ (hafter.broken hanswer)⟩
        | false =>
            rcases item with ⟨content, modified, mode, identity⟩
            obtain rfl : content = .file bytes := hbytes
            rw [hitem]
            refine .inl ⟨_, rfl, ensuresAlong_stat hitem (hafter.snoc hanswer)
              (fun after hafter => ?_) herror⟩
            refine ensuresAlong_stat hitem hafter (fun after hafter => ?_) herror
            refine .ofExcept_bind (fun _ _ => .pure (hok after hafter)) fun e he => ?_
            rw [ensure_of ⟨hsame, hsame⟩] at he
            cases he
      · rw [ensure_of hsame] at he
        cases he
    · intro answer _ kind hf
      simp [hitem, htype] at hf
    · intro answer hanswer
      exact .inr ⟨_, rfl, herror _ _ (hafter.broken hanswer)⟩
  · rw [ensure_of htype] at he
    cases he

end

/-! ### A short file -/

def twoBytes : FileBytes := ⟨[1, 2], by decide⟩

end SyncPlus
