import SyncPlus.DirectoryWalk
import SyncPlus.Lib.Numerals
import SyncPlus.Replacement

/-!
# The names of SyncPlus's own files

What SyncPlus puts beside a path it works on has a name made of a prefix of its own and
the name at the path. The walk of an analysis leaves out the names with three of these
prefixes (`isSyncplusInternalArtifact`): those of staged, partial and previous items. The
other three it takes for the user's: of a failed item that was preserved, of a preserved
copy's temporary file, and of a source guard.
-/

namespace SyncPlus

/-! ## Reading names -/

/-- A name that begins with a text is read from there on as the rest of it is:
`to_string_lossy` replaces nothing but what is no text. -/
def LossyNames.ReadsOn (lossy : LossyNames) : Prop :=
  ∀ (text : List Char) (rest : Name), lossy.text (textBytes text ++ rest) = text ++ lossy.text rest

/-- Letter by letter, with a replacement character for a byte where no letter begins. The
number is that of the bytes that are still part of the last letter. -/
def decodeLossy : Nat → Name → List Char
  | _, [] => []
  | skip + 1, _ :: rest => decodeLossy skip rest
  | 0, b :: rest =>
      match ((b :: rest).toByteArray).utf8DecodeChar? 0 with
      | some c => c :: decodeLossy (c.utf8Size - 1) rest
      | none => Char.ofNat 0xFFFD :: decodeLossy 0 rest

theorem decodeLossy_skip (skipped rest : Name) :
    decodeLossy skipped.length (skipped ++ rest) = decodeLossy 0 rest := by
  induction skipped with
  | nil => rfl
  | cons b skipped ih => exact ih

theorem decodeLossy_letter (c : Char) (rest : Name) :
    decodeLossy 0 (String.utf8EncodeChar c ++ rest) = c :: decodeLossy 0 rest := by
  have hdecode : ((String.utf8EncodeChar c ++ rest).toByteArray).utf8DecodeChar? 0 = some c := by
    rw [List.toByteArray_append]
    exact ByteArray.utf8DecodeChar?_utf8EncodeChar_append
  have hlength : (String.utf8EncodeChar c).length = c.utf8Size := String.length_utf8EncodeChar c
  have hpos := c.utf8Size_pos
  cases hbytes : String.utf8EncodeChar c with
  | nil =>
      rw [hbytes, List.length_nil] at hlength
      omega
  | cons b more =>
      rw [hbytes, List.cons_append] at hdecode
      rw [hbytes, List.length_cons] at hlength
      rw [List.cons_append, decodeLossy, hdecode]
      dsimp only
      rw [← hlength, Nat.add_sub_cancel, decodeLossy_skip]

theorem decodeLossy_text (text : List Char) (rest : Name) :
    decodeLossy 0 (textBytes text ++ rest) = text ++ decodeLossy 0 rest := by
  unfold textBytes
  rw [PathBuf.bytes_ofText, String.toList_ofList]
  induction text with
  | nil => rfl
  | cons c text ih =>
      rw [List.flatMap_cons, List.append_assoc, decodeLossy_letter, ih]
      rfl

theorem slash_notMem_decodeLossy {name : Name} (skip : Nat) (hname : slash ∉ name) :
    '/' ∉ decodeLossy skip name := by
  induction name generalizing skip with
  | nil => simp [decodeLossy]
  | cons b rest ih =>
      have hrest : slash ∉ rest := fun hmem => hname (.tail _ hmem)
      cases skip with
      | succ skip => exact ih skip hrest
      | zero =>
          unfold decodeLossy
          cases hdecode : ((b :: rest).toByteArray).utf8DecodeChar? 0 with
          | none => exact List.not_mem_cons_of_ne_of_not_mem (by decide) (ih 0 hrest)
          | some c =>
              refine List.not_mem_cons_of_ne_of_not_mem ?_ (ih _ hrest)
              rintro rfl
              obtain ⟨more, hmore⟩ := ByteArray.exists_of_utf8DecodeChar?_eq_some hdecode
              have hbytes : b :: rest = slash :: more.data.toList := by
                have hlist := congrArg (·.data.toList) hmore
                have hencoded : String.utf8EncodeChar '/' = [slash] := by decide
                simpa [List.toList_data_toByteArray, hencoded] using hlist
              exact hname (hbytes ▸ .head _)

def LossyNames.decoding : LossyNames where
  text := decodeLossy 0
  text_eq text := by
    have htext := decodeLossy_text text.toList []
    unfold textBytes PathBuf.ofText at htext
    rwa [String.ofList_toList, List.append_nil, decodeLossy, List.append_nil] at htext
  noSlash name := slash_notMem_decodeLossy 0

theorem LossyNames.readsOn_decoding : LossyNames.decoding.ReadsOn := decodeLossy_text

/-! ## Names beside a path -/

def SiblingKind.text : SiblingKind → List Char
  | .temporary => "temporary".toList
  | .partialTransfer => "partial".toList
  | .previous => "previous".toList
  | .failed => "failed".toList

/-- The name of a sibling, of the process and its count. -/
def siblingName (kind : SiblingKind) (processId : UInt32) (sequence : UInt64) (name : Name) :
    Name :=
  textBytes (".syncplus-".toList ++ kind.text ++ '-' :: decimal processId.toNat ++
    '-' :: decimal sequence.toNat ++ ['-']) ++ name

/-- The name of `temporary_path`, of a preserved copy. -/
def preservedTemporaryName (lossy : LossyNames) (sequence : UInt64) (name : Name) : Name :=
  textBytes (".syncplus-preserved-".toList ++ decimal sequence.toNat ++ '-' :: lossy.text name)

def sourceGuardName (sequence : UInt64) (name : Name) : Name :=
  textBytes (".syncplus-source-guard-".toList ++ decimal sequence.toNat ++ ['-']) ++ name

def recoveryTemporaryName (sequence : UInt64) (name : Name) : Name :=
  textBytes (".syncplus-recovery-".toList ++ decimal sequence.toNat ++ ['-']) ++ name ++
    textBytes ".tmp".toList

/-! ## Which of them the walk leaves out -/

section

variable {lossy : LossyNames} {processId : UInt32} {sequence : UInt64} {name : Name}

/-- **A sibling is left out unless it is a failed item.** -/
theorem isSyncplusInternalArtifact_sibling (hlossy : lossy.ReadsOn) (kind : SiblingKind) :
    isSyncplusInternalArtifact lossy (siblingName kind processId sequence name) =
      decide (kind ≠ .failed) := by
  unfold isSyncplusInternalArtifact siblingName
  dsimp only
  rw [hlossy]
  cases kind <;> rfl

end

end SyncPlus
