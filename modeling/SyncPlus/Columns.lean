import SyncPlus.Evidence

/-!
# Columns

How the values of the evidence are written to database columns and read
back. The database keeps 64-bit signed integers, byte strings and text.

Unsigned numbers reach an integer column in two ways. Bound directly as
a parameter, a number from 2⁶³ on is refused by the binding
(`bindU64`). Cast with `as i64` first, it is written as the negative
number of the same bits, and only the reader, which asks for an
unsigned value, refuses it (`fromSqlU64`). `FitsI64` says that neither
happens.
-/

namespace SyncPlus

/-! ## Integers -/

/-- The number is below 2⁶³: it is itself as a signed 64-bit integer. -/
def FitsI64 (n : UInt64) : Prop := n.toNat < 2 ^ 63

instance (n : UInt64) : Decidable (FitsI64 n) :=
  inferInstanceAs (Decidable (_ < _))

/-- Binding an unsigned parameter: what the binding accepts is stored,
and read back, as itself. -/
def bindU64 (n : UInt64) : Except StorageError Unit :=
  ensure (FitsI64 n) (.sqlite (.toSqlConversionFailure n))

def bindOptU64 : Option UInt64 → Except StorageError Unit
  | none => .ok ()
  | some n => bindU64 n

/-- Reading an unsigned value from a column. -/
def fromSqlU64 (column : Nat) (v : Int64) : Except StorageError UInt64 :=
  if v < 0 then .error (.sqlite (.integralValueOutOfRange column v))
  else .ok v.toUInt64

def fromSqlOptU64 (column : Nat) : Option Int64 → Except StorageError (Option UInt64)
  | none => .ok none
  | some v => (fromSqlU64 column v).map some

/-- `u64::try_from` on a column value. -/
def tryU64 (v : Int64) : Option UInt64 :=
  if v < 0 then none else some v.toUInt64

def boolToInt (b : Bool) : Int64 := if b then 1 else 0

/-- The binding reads a boolean as "not zero". -/
def fromSqlBool (v : Int64) : Bool := v ≠ 0

@[simp] theorem fromSqlBool_boolToInt (b : Bool) :
    fromSqlBool (boolToInt b) = b := by
  cases b <;> decide

theorem toInt64_neg_iff {n : UInt64} : n.toInt64 < 0 ↔ ¬ FitsI64 n := by
  rw [Int64.lt_iff_toInt_lt, ← Int64.toInt_toBitVec, UInt64.toBitVec_toInt64,
    BitVec.toInt_eq_toNat_cond]
  simp only [UInt64.toNat_toBitVec, Int64.toInt_zero, FitsI64]
  have := n.toNat_lt
  split <;> omega

theorem toInt64_nonneg_iff {n : UInt64} : 0 ≤ n.toInt64 ↔ FitsI64 n := by
  rw [← Int64.not_lt, toInt64_neg_iff, not_not]

@[simp] theorem toInt64_inj {n m : UInt64} : n.toInt64 = m.toInt64 ↔ n = m :=
  ⟨fun h => by simpa using congrArg Int64.toUInt64 h, fun h => h ▸ rfl⟩

@[simp] theorem bindU64_eq_ok {n : UInt64} {u : Unit} :
    bindU64 n = .ok u ↔ FitsI64 n :=
  ensure_eq_ok

theorem tryU64_toInt64 {n m : UInt64} :
    tryU64 n.toInt64 = some m ↔ FitsI64 n ∧ n = m := by
  by_cases h : FitsI64 n <;> simp [tryU64, toInt64_neg_iff, h]

/-- Every number of an optional column fits. -/
def FitsOpt (n : Option UInt64) : Prop := ∀ m ∈ n, FitsI64 m

instance (n : Option UInt64) : Decidable (FitsOpt n) :=
  match n with
  | none => isTrue nofun
  | some m => decidable_of_iff (FitsI64 m) (by simp [FitsOpt])

@[simp] theorem fitsOpt_none : FitsOpt none := nofun

@[simp] theorem fitsOpt_some {n : UInt64} : FitsOpt (some n) ↔ FitsI64 n := by
  simp [FitsOpt]

@[simp] theorem bindOptU64_eq_ok {n : Option UInt64} {u : Unit} :
    bindOptU64 n = .ok u ↔ FitsOpt n := by
  cases n <;> simp [bindOptU64]

/-- Every number of an optional column is one the reader takes. -/
def ColumnFits (v : Option Int64) : Prop := ∀ x ∈ v, 0 ≤ x

theorem fromSqlOptU64_eq_ok {column : Nat} {v : Option Int64} {n : Option UInt64} :
    fromSqlOptU64 column v = .ok n ↔ ColumnFits v ∧ n = v.map Int64.toUInt64 := by
  cases v with
  | none => simp [fromSqlOptU64, ColumnFits, eq_comm]
  | some x =>
      by_cases h : x < 0
      · have h' : ¬ 0 ≤ x := Int64.not_le.mpr h
        simp [fromSqlOptU64, fromSqlU64, ColumnFits, h, h', Except.map]
      · have h' : 0 ≤ x := Int64.not_lt.mp h
        simp [fromSqlOptU64, fromSqlU64, ColumnFits, h, h', Except.map, eq_comm]

@[simp] theorem columnFits_none : ColumnFits none := nofun

@[simp] theorem columnFits_some {n : UInt64} :
    ColumnFits (some n.toInt64) ↔ FitsI64 n := by
  simp [ColumnFits, toInt64_nonneg_iff]

@[simp] theorem columnFits_map {n : Option UInt64} :
    ColumnFits (n.map UInt64.toInt64) ↔ FitsOpt n := by
  cases n <;> simp

@[simp] theorem map_toUInt64_toInt64 (n : Option UInt64) :
    (n.map UInt64.toInt64).map Int64.toUInt64 = n := by
  cases n <;> simp

/-! ## Byte strings -/

def pathToBlob (path : PathBuf) : Blob := path.bytes

def blobToPath (bytes : Blob) : PathBuf := ⟨bytes⟩

@[simp] theorem blobToPath_pathToBlob (path : PathBuf) :
    blobToPath (pathToBlob path) = path := rfl

/-- A stored digest, refused with `message` unless it has 32 bytes. -/
def decodeDigest (message : String) :
    Option Blob → Except StorageError (Option Sha256)
  | none => .ok none
  | some bytes =>
      if h : bytes.length = 32 then .ok (some ⟨bytes, h⟩)
      else .error (.corruptEvidence message)

def decodeHash : Option Blob → Except StorageError (Option Sha256) :=
  decodeDigest "stored recovery SHA-256 digest has the wrong length"

@[simp] theorem decodeDigest_toList (message : String) (hash : Option Sha256) :
    decodeDigest message (hash.map List.Vector.toList) = .ok hash := by
  cases hash with
  | none => rfl
  | some h =>
      have hlen : h.toList.length = 32 := h.toList_length
      simp only [Option.map_some, decodeDigest, dif_pos hlen]
      rfl

@[simp] theorem decodeHash_toList (hash : Option Sha256) :
    decodeHash (hash.map List.Vector.toList) = .ok hash :=
  decodeDigest_toList _ hash

/-! ## Text -/

def encodeDeletionMethod : DeletionMethod → String
  | .trash => "trash"
  | .permanentRemoval => "permanent_removal"

def decodeDeletionMethod : String → Except StorageError DeletionMethod
  | "trash" => .ok .trash
  | "permanent_removal" => .ok .permanentRemoval
  | value => .error (.corruptEvidence ("unknown deletion method " ++ value))

def encodeOperation : PlanActionKind → String
  | .copyToDestination => "copy_to_destination"
  | .overwriteDestination => "overwrite_destination"
  | .removeDestination => "remove_destination"
  | .removeSourceAfterVerification => "remove_source_after_verification"

def decodeOperation : String → Except StorageError PlanActionKind
  | "copy_to_destination" => .ok .copyToDestination
  | "overwrite_destination" => .ok .overwriteDestination
  | "remove_destination" => .ok .removeDestination
  | "remove_source_after_verification" => .ok .removeSourceAfterVerification
  | value => .error (.corruptEvidence ("unknown operation " ++ value))

def encodeSide : PeerSide → String
  | .peerA => "peer_a"
  | .peerB => "peer_b"

def decodeSide : String → Except StorageError PeerSide
  | "peer_a" => .ok .peerA
  | "peer_b" => .ok .peerB
  | value => .error (.corruptEvidence ("unknown peer side " ++ value))

def encodeItemType : ItemType → String
  | .regularFile => "regular_file"
  | .directory => "directory"
  | .symlink => "symlink"
  | .unsupported => "unsupported"

def decodeItemType : String → Except StorageError ItemType
  | "regular_file" => .ok .regularFile
  | "directory" => .ok .directory
  | "symlink" => .ok .symlink
  | "unsupported" => .ok .unsupported
  | value => .error (.corruptEvidence ("unknown item type " ++ value))

def encodeReason : ActionReason → String
  | .transferFailed => "transfer_failed"
  | .verificationMismatch => "verification_mismatch"
  | .sourceChanged => "source_changed"
  | .permissionDenied => "permission_denied"
  | .cancellationRequested => "cancellation_requested"
  | .deferredForReview => "deferred_for_review"
  | .filesystemUncertain => "filesystem_uncertain"
  | .interruptedBoundary => "interrupted_boundary"
  | .destinationUnavailable => "destination_unavailable"

def decodeReason : String → Except StorageError ActionReason
  | "transfer_failed" => .ok .transferFailed
  | "verification_mismatch" => .ok .verificationMismatch
  | "source_changed" => .ok .sourceChanged
  | "permission_denied" => .ok .permissionDenied
  | "cancellation_requested" => .ok .cancellationRequested
  | "deferred_for_review" => .ok .deferredForReview
  | "filesystem_uncertain" => .ok .filesystemUncertain
  | "interrupted_boundary" => .ok .interruptedBoundary
  | "destination_unavailable" => .ok .destinationUnavailable
  | value => .error (.corruptEvidence ("unknown action reason " ++ value))

def encodeResolution : RecoveryResolution → String
  | .completed _ => "completed"
  | .unresolved .transferFailed => "unresolved:transfer_failed"
  | .unresolved .verificationMismatch => "unresolved:verification_mismatch"
  | .unresolved .sourceChanged => "unresolved:source_changed"
  | .unresolved .permissionDenied => "unresolved:permission_denied"
  | .unresolved .cancellationRequested => "unresolved:cancellation_requested"
  | .unresolved .deferredForReview => "unresolved:deferred_for_review"
  | .unresolved .filesystemUncertain => "unresolved:filesystem_uncertain"
  | .unresolved .interruptedBoundary => "unresolved:interrupted_boundary"
  | .unresolved .destinationUnavailable => "unresolved:destination_unavailable"

/-- `str::strip_prefix`. -/
def stripPrefix (pre s : String) : Option String :=
  if pre.toList.isPrefixOf s.toList then
    some (String.ofList (s.toList.drop pre.toList.length))
  else none

@[simp] theorem stripPrefix_encodeResolution (r : ActionReason) :
    stripPrefix "unresolved:" (encodeResolution (.unresolved r)) =
      some (encodeReason r) := by
  cases r <;> rfl

@[simp] theorem decodeDeletionMethod_encode (m : DeletionMethod) :
    decodeDeletionMethod (encodeDeletionMethod m) = .ok m := by
  cases m <;> rfl

@[simp] theorem decodeOperation_encode (o : PlanActionKind) :
    decodeOperation (encodeOperation o) = .ok o := by
  cases o <;> rfl

@[simp] theorem decodeSide_encode (s : PeerSide) :
    decodeSide (encodeSide s) = .ok s := by
  cases s <;> rfl

@[simp] theorem decodeItemType_encode (t : ItemType) :
    decodeItemType (encodeItemType t) = .ok t := by
  cases t <;> rfl

@[simp] theorem decodeReason_encode (r : ActionReason) :
    decodeReason (encodeReason r) = .ok r := by
  cases r <;> rfl

theorem encodeDeletionMethod_inj {m m' : DeletionMethod}
    (h : encodeDeletionMethod m = encodeDeletionMethod m') : m = m' := by
  have := congrArg decodeDeletionMethod h
  simpa using this

@[simp] theorem encodeItemType_eq_regular {t : ItemType} :
    encodeItemType t = "regular_file" ↔ t = .regularFile := by
  cases t <;> simp [encodeItemType]

@[simp] theorem encodeOperation_eq_removal {o : PlanActionKind} :
    encodeOperation o = "remove_source_after_verification" ↔
      o = .removeSourceAfterVerification := by
  cases o <;> simp [encodeOperation]

@[simp] theorem encodeOperation_eq_copy {o : PlanActionKind} :
    encodeOperation o = "copy_to_destination" ↔ o = .copyToDestination := by
  cases o <;> simp [encodeOperation]

@[simp] theorem encodeOperation_eq_overwrite {o : PlanActionKind} :
    encodeOperation o = "overwrite_destination" ↔ o = .overwriteDestination := by
  cases o <;> simp [encodeOperation]

end SyncPlus
