import Mathlib.Data.Bool.AllAny
import SyncPlus.Lib.Sha256
import SyncPlus.Sidecar

/-!
# Recovery sidecars are read back

What the file of a provenance is read as. Every provenance whose symlink target is a path,
where it has one, and which has one for a symlink, is read back as itself. What is accepted
is a payload under its own hash (`readBytes_sealed`), so of the changes to a file those that
leave its last line are refused, unless two payloads have one hash; a new payload under a new
hash is a file of its own.
-/

namespace SyncPlus

/-! ## Texts on one line -/

/-- The character ends no line. -/
def OnLine (c : Char) : Prop := c ≠ '\n' ∧ c ≠ '\r'

instance (c : Char) : Decidable (OnLine c) := inferInstanceAs (Decidable (_ ∧ _))

theorem onLine_of_isDigit {c : Char} (h : c.isDigit = true) : OnLine c := by
  constructor
  · rintro rfl
    exact absurd h (by decide)
  · rintro rfl
    exact absurd h (by decide)

theorem onLine_of_isHexDigit {c : Char} (h : isHexDigit c = true) : OnLine c := by
  constructor
  · rintro rfl
    exact absurd h (by decide)
  · rintro rfl
    exact absurd h (by decide)

theorem onLine_decimal {n : Nat} : ∀ c ∈ decimal n, OnLine c :=
  fun _ hc => onLine_of_isDigit (isDigit_of_mem_decimal hc)

theorem onLine_encodeBytes {bytes : Blob} : ∀ c ∈ encodeBytes bytes, OnLine c :=
  fun _ hc => onLine_of_isHexDigit (isHexDigit_of_mem_encodeBytes hc)

theorem onLine_signedDecimal {i : Int} : ∀ c ∈ signedDecimal i, OnLine c := by
  intro c hc
  unfold signedDecimal at hc
  split at hc
  · rcases List.mem_cons.mp hc with rfl | hc
    · decide
    · exact onLine_decimal c hc
  · exact onLine_decimal c hc

theorem onLine_getD {α : Type} {encode : α → List Char} (h : ∀ a, ∀ c ∈ encode a, OnLine c)
    (value : Option α) : ∀ c ∈ (value.map encode).getD [], OnLine c := by
  cases value with
  | none => nofun
  | some a => exact h a

section

variable {provenance : RecoveryProvenance} {field : SidecarField}

theorem onLine_key : ∀ c ∈ field.key, OnLine c ∧ c ≠ '=' := by
  cases field <;> exact List.all_iff_forall_prop.mp (by decide)

/-- No value ends its line. -/
theorem onLine_sidecarValue : ∀ c ∈ provenance.sidecarValue field, OnLine c := by
  have hpair : ∀ (n : Nat) (text : List Char), (∀ c ∈ text, OnLine c) →
      ∀ c ∈ decimal n ++ ':' :: text, OnLine c := by
    intro n text htext c hc
    rcases List.mem_append.mp hc with hc | hc
    · exact onLine_decimal c hc
    · rcases List.mem_cons.mp hc with rfl | hc
      · decide
      · exact htext c hc
  cases field with
  | actionId => exact onLine_getD (fun _ => onLine_decimal) _
  | peer => exact onLine_encodeBytes
  | root => exact onLine_encodeBytes
  | relative => exact onLine_encodeBytes
  | runId => exact onLine_decimal
  | removedAtUnixNanos => exact onLine_signedDecimal
  | recoveryMethod =>
      show ∀ c ∈ sidecarMethod provenance.recoveryMethod, OnLine c
      cases provenance.recoveryMethod <;> exact List.all_iff_forall_prop.mp (by decide)
  | verificationState =>
      show ∀ c ∈ sidecarState provenance.verificationState, OnLine c
      cases provenance.verificationState <;> exact List.all_iff_forall_prop.mp (by decide)
  | itemType =>
      show ∀ c ∈ sidecarItemType provenance.itemType, OnLine c
      cases provenance.itemType <;> exact List.all_iff_forall_prop.mp (by decide)
  | content => exact onLine_getD (fun _ => hpair _ _ onLine_encodeBytes) _
  | sourceIdentity => exact onLine_getD (fun _ => hpair _ _ onLine_decimal) _
  | symlinkTarget => exact onLine_getD (fun _ => onLine_encodeBytes) _

theorem onLine_sidecarLine : ∀ c ∈ provenance.sidecarLine field, OnLine c := by
  intro c hc
  rcases List.mem_append.mp hc with hc | hc
  · exact (onLine_key c hc).1
  · rcases List.mem_cons.mp hc with rfl | hc
    · decide
    · exact onLine_sidecarValue c hc

/-- The payload is its lines, and ends a line. -/
theorem linesOf_sidecarPayload : linesOf '\n' '\r' provenance.sidecarPayload =
    SidecarField.all.map provenance.sidecarLine := by
  have hpayload : provenance.sidecarPayload =
      (SidecarField.all.map provenance.sidecarLine).flatMap (· ++ ['\n']) := by
    rw [List.flatMap_map]
    rfl
  rw [hpayload, linesOf_flatMap]
  · rw [List.map_map]
    refine List.map_congr_left fun field _ => stripEnd_of_notMem fun hmem => ?_
    exact (onLine_sidecarLine _ hmem).2 rfl
  · intro line hline hmem
    obtain ⟨field, _, rfl⟩ := List.mem_map.mp hline
    exact (onLine_sidecarLine _ hmem).1 rfl

theorem exists_sidecarPayload (provenance : RecoveryProvenance) :
    ∃ front, provenance.sidecarPayload = front ++ ['\n'] := by
  refine ⟨[SidecarField.actionId, .peer, .root, .relative, .runId, .removedAtUnixNanos,
    .recoveryMethod, .verificationState, .itemType, .content, .sourceIdentity].flatMap
      (fun field => provenance.sidecarLine field ++ ['\n']) ++
        provenance.sidecarLine .symlinkTarget, ?_⟩
  have hall : SidecarField.all = [SidecarField.actionId, .peer, .root, .relative, .runId,
    .removedAtUnixNanos, .recoveryMethod, .verificationState, .itemType, .content,
    .sourceIdentity] ++ [.symlinkTarget] := rfl
  rw [RecoveryProvenance.sidecarPayload, hall, List.flatMap_append, List.flatMap_singleton,
    List.append_assoc]

end

/-! ## The lines -/

theorem ofKey_key (field : SidecarField) : SidecarField.ofKey field.key = some field := by
  cases field <;> decide

theorem splitOnce_equals {key value : List Char} (h : '=' ∉ key) :
    splitOnce ['='] (key ++ '=' :: value) = some (key, value) := by
  have hhere : splitOnce ['='] ('=' :: value) = some ([], value) := splitOnce_here
  rw [splitOnce_skip h hhere, List.append_nil]

/-- The lines of distinct fields are collected. -/
theorem collectValues_map (line : SidecarField → List Char) {value : SidecarField → List Char}
    (hline : ∀ field, line field = field.key ++ '=' :: value field)
    {fields : List SidecarField} {values : SidecarValues} (hnodup : fields.Nodup)
    (hnew : ∀ field ∈ fields, values.lookup field = none) :
    collectValues (fields.map line) values =
      .ok (values ++ fields.map fun field => (field, value field)) := by
  induction fields generalizing values with
  | nil => simp [collectValues]
  | cons field fields ih =>
      obtain ⟨hfield, hrest⟩ := List.nodup_cons.mp hnodup
      have hequals : '=' ∉ field.key := fun hmem => (onLine_key _ hmem).2 rfl
      rw [List.map_cons, collectValues, hline, splitOnce_equals hequals, orError_some, ok_bind]
      dsimp only
      rw [ofKey_key, orError_some, ok_bind, ensure_of (hnew field List.mem_cons_self), ok_bind,
        ih hrest]
      · simp
      · intro other hother
        have hne : (other == field) = false := by
          simp only [beq_eq_false_iff_ne, ne_eq]
          rintro rfl
          exact hfield hother
        rw [List.lookup_append, hnew other (List.mem_cons_of_mem _ hother), Option.none_or]
        rw [List.lookup_cons, List.lookup_nil, hne]

/-! ## The values -/

theorem decodeBytes_encodeBytes (bytes : Blob) : decodeBytes (encodeBytes bytes) = .ok bytes := by
  have hall : (encodeBytes bytes).all isHexDigit = true :=
    List.all_eq_true.mpr fun _ => isHexDigit_of_mem_encodeBytes
  have heven : (encodeBytes bytes).length % 2 = 0 := by
    rw [length_encodeBytes]
    omega
  rw [decodeBytes, ensure_of ⟨heven, hall⟩, ok_bind, parsePairs_encodeBytes, orError_some]

theorem decodeString_encodeString (value : String) :
    decodeString (encodeString value) = .ok value := by
  rw [decodeString, encodeString, decodeBytes_encodeBytes, ok_bind]
  show orError (PathBuf.ofText value).toText _ = _
  rw [PathBuf.toText_ofText, orError_some]

theorem decodePath_encodePath (path : PathBuf) : decodePath (encodePath path) = .ok path := by
  rw [decodePath, encodePath, decodeBytes_encodeBytes]
  rfl

theorem parseU64_decimal (n : UInt64) : parseU64 (decimal n.toNat) = some n := by
  rw [parseU64, parseUnsigned_decimal n.toNat_lt, Option.map_some, UInt64.ofNat_toNat]

theorem parseI64_signedDecimal (i : Int64) : parseI64 (signedDecimal i.toInt) = some i := by
  have hlow := i.le_toInt
  have hhigh := i.toInt_lt
  rw [parseI64, parseSigned_signedDecimal (by omega) (by omega), Option.map_some,
    Int64.ofInt_toInt]

theorem decodeSidecarMethod_sidecarMethod (method : DeletionMethod) :
    decodeSidecarMethod (sidecarMethod method) = .ok method := by
  cases method <;> rfl

theorem decodeSidecarState_sidecarState (state : RecoveryVerificationState) :
    decodeSidecarState (sidecarState state) = .ok state := by
  cases state <;> rfl

theorem find_sidecarItemType (itemType : ItemType) :
    [ItemType.regularFile, .directory, .symlink, .unsupported].find? (fun other =>
      some (sidecarItemType itemType) = some (sidecarItemType other)) = some itemType := by
  cases itemType <;> decide

theorem splitOnce_decimal (n : Nat) (text : List Char) :
    splitOnce [':'] (decimal n ++ ':' :: text) = some (decimal n, text) := by
  have hhere : splitOnce [':'] (':' :: text) = some ([], text) := splitOnce_here
  have hcolon : ':' ∉ decimal n := fun hmem =>
    absurd (isDigit_of_mem_decimal hmem) (by decide)
  rw [splitOnce_skip hcolon hhere, List.append_nil]

theorem parseContent_sidecarContent (proof : ContentProof) :
    parseContent (sidecarContent proof) = .ok proof := by
  have hlength : proof.sha256.toList.length = 32 := proof.sha256.toList_length
  have hhash : (encodeBytes proof.sha256.toList).length = 64 := by
    rw [length_encodeBytes, hlength]
  rw [parseContent, sidecarContent, splitOnce_decimal, orError_some, ok_bind]
  dsimp only
  rw [parseU64_decimal, orError_some, ok_bind, ensure_of hhash, ok_bind, parsePairs_encodeBytes,
    orError_some, ok_bind, dif_pos hlength]
  rfl

theorem parseIdentity_sidecarIdentity (identity : FileIdentity) :
    parseIdentity (sidecarIdentity identity) = .ok identity := by
  rw [parseIdentity, sidecarIdentity, splitOnce_decimal, orError_some, ok_bind]
  dsimp only
  rw [parseU64_decimal, orError_some, ok_bind, parseU64_decimal, orError_some, ok_bind]
  rfl

/-- A value that is written empty where it is absent. -/
theorem optional_getD {α : Type} {values : SidecarValues} {field : SidecarField}
    (encode : α → List Char) (decode : List Char → Except RestoreError α) {value : Option α}
    (hlookup : values.lookup field = some ((value.map encode).getD []))
    (hne : ∀ a ∈ value, encode a ≠ []) (hdecode : ∀ a, decode (encode a) = .ok a) :
    values.optional field decode = .ok value := by
  unfold SidecarValues.optional
  rw [hlookup]
  cases value with
  | none => rfl
  | some a =>
      have hfilter : (some (encode a)).filter (fun value => !value.isEmpty) = some (encode a) := by
        rw [Option.filter_some, if_pos]
        simpa using hne a rfl
      rw [Option.map_some, Option.getD_some, hfilter]
      dsimp only
      rw [hdecode]
      rfl

/-- A provenance that the reader takes: a symlink has a target, and a target is a path. -/
structure RecoveryProvenance.Targeted (provenance : RecoveryProvenance) : Prop where
  some_of_symlink : provenance.itemType = .symlink → provenance.symlinkTarget.isSome = true
  ne_nil : ∀ target ∈ provenance.symlinkTarget, target.bytes ≠ []

section

variable {provenance : RecoveryProvenance} {values : SidecarValues}

theorem required_eq_ok {field : SidecarField} {label : String} {value : List Char}
    (h : values.lookup field = some value) : values.required field label = .ok value := by
  rw [SidecarValues.required, h, orError_some]

/-- **The fields are read back.** -/
theorem decodeValues_sidecarValue (htargeted : provenance.Targeted)
    (hvalues : ∀ field, values.lookup field = some (provenance.sidecarValue field)) :
    decodeValues values = .ok provenance := by
  have hdecimal : ∀ id : ActionId, decimal id.toNat ≠ [] := fun _ => decimal_ne_nil
  have haction := optional_getD _ (fun value =>
    orError (parseU64 value) (.sidecarInvalid "action id is invalid"))
    (hvalues .actionId) (fun a _ => hdecimal a) fun a => by rw [parseU64_decimal, orError_some]
  have hcontent := optional_getD sidecarContent _ (hvalues .content) (fun _ _ => by simp [sidecarContent])
    parseContent_sidecarContent
  have hidentity := optional_getD sidecarIdentity _ (hvalues .sourceIdentity)
    (fun _ _ => by simp [sidecarIdentity]) parseIdentity_sidecarIdentity
  have htarget := optional_getD encodePath _ (hvalues .symlinkTarget) (by
    intro target hmem hnil
    have hlength := congrArg List.length hnil
    rw [encodePath, length_encodeBytes, List.length_nil] at hlength
    exact htargeted.ne_nil target hmem (List.length_eq_zero_iff.mp (by omega)))
    decodePath_encodePath
  have hpeer : decodeString (provenance.sidecarValue .peer) = .ok provenance.peer :=
    decodeString_encodeString _
  have hroot : decodePath (provenance.sidecarValue .root) = .ok provenance.originalRoot :=
    decodePath_encodePath _
  have hrelative : decodePath (provenance.sidecarValue .relative) = .ok provenance.relativePath :=
    decodePath_encodePath _
  have hrun : parseU64 (provenance.sidecarValue .runId) = some provenance.runId.value :=
    parseU64_decimal _
  have hremoved : parseI64 (provenance.sidecarValue .removedAtUnixNanos) =
      some provenance.removedAtUnixNanos := parseI64_signedDecimal _
  have hmethod : decodeSidecarMethod (provenance.sidecarValue .recoveryMethod) =
      .ok provenance.recoveryMethod := decodeSidecarMethod_sidecarMethod _
  have hstate : decodeSidecarState (provenance.sidecarValue .verificationState) =
      .ok provenance.verificationState := decodeSidecarState_sidecarState _
  unfold decodeValues
  rw [haction, ok_bind, required_eq_ok (hvalues .peer), ok_bind, hpeer, ok_bind,
    required_eq_ok (hvalues .root), ok_bind, hroot, ok_bind, required_eq_ok (hvalues .relative),
    ok_bind, hrelative, ok_bind, hvalues .runId, Option.bind_some, hrun, orError_some, ok_bind,
    hvalues .removedAtUnixNanos, Option.bind_some, hremoved, orError_some, ok_bind,
    required_eq_ok (hvalues .recoveryMethod), ok_bind, hmethod, ok_bind,
    required_eq_ok (hvalues .verificationState), ok_bind, hstate, ok_bind, hvalues .itemType]
  rw [show provenance.sidecarValue .itemType = sidecarItemType provenance.itemType from rfl,
    find_sidecarItemType, orError_some, ok_bind, hcontent, ok_bind, hidentity, ok_bind, htarget,
    ok_bind, ensure_of htargeted.some_of_symlink, ok_bind, fromRecordWithDetails_self]
  rfl

end

/-! ## Files -/

theorem toText_textBytes (text : List Char) :
    PathBuf.toText ⟨textBytes text⟩ = some (String.ofList text) :=
  PathBuf.toText_ofText (String.ofList text)

theorem textBytes_inj {text text' : List Char} (h : textBytes text = textBytes text') :
    text = text' := by
  have hread := congrArg (fun bytes => PathBuf.toText ⟨bytes⟩) h
  simp only [toText_textBytes, Option.some.injEq] at hread
  simpa using congrArg String.toList hread

theorem textBytes_append (text text' : List Char) :
    textBytes (text ++ text') = textBytes text ++ textBytes text' := by
  simp [textBytes, PathBuf.bytes_ofText]

theorem length_textBytes_encodeBytes (bytes : Blob) :
    (textBytes (encodeBytes bytes)).length = 2 * bytes.length := by
  have hletter : ∀ k < 16, (String.utf8EncodeChar (hexDigit (UInt8.ofNat k))).length = 1 := by
    decide
  have hdigit : ∀ n : UInt8, n.toNat < 16 → (String.utf8EncodeChar (hexDigit n)).length = 1 := by
    intro n hn
    have hn := hletter n.toNat hn
    rwa [UInt8.ofNat_toNat] at hn
  rw [textBytes, PathBuf.bytes_ofText, String.toList_ofList]
  induction bytes with
  | nil => rfl
  | cons b bytes ih =>
      have hb := b.toNat_lt
      obtain ⟨hhigh, hlow⟩ := toNat_halves b
      show (String.utf8EncodeChar (hexDigit (b / 16)) ++
        (String.utf8EncodeChar (hexDigit (b % 16)) ++
          (encodeBytes bytes).flatMap String.utf8EncodeChar)).length = _
      rw [List.length_append, List.length_append, hdigit _ (by omega), hdigit _ (by omega), ih,
        List.length_cons]
      omega

section

variable {sha256 : Blob → Sha256} {provenance found : RecoveryProvenance}
  {payload payload' contents : List Char}

theorem newline_notMem_checksumKey : '\n' ∉ checksumKey := by decide

theorem equals_mem_checksumKey : '=' ∈ checksumKey := by decide

theorem length_digestText : (digestText sha256 payload).length = 64 := by
  have hlength : (sha256 (textBytes payload)).toList.length = 32 :=
    (sha256 (textBytes payload)).toList_length
  rw [digestText, length_encodeBytes, hlength]

/-- Every last line is as long as every other. -/
theorem length_checksumLine :
    (textBytes (checksumLine sha256 payload)).length =
      (textBytes (checksumLine sha256 payload')).length := by
  have hlength (payload : List Char) : (sha256 (textBytes payload)).toList.length = 32 :=
    (sha256 (textBytes payload)).toList_length
  simp only [checksumLine, digestText, textBytes_append, List.length_append,
    length_textBytes_encodeBytes, hlength]

/-- One last line, one hash. -/
theorem eq_of_checksumLine (h : checksumLine sha256 payload = checksumLine sha256 payload') :
    sha256 (textBytes payload) = sha256 (textBytes payload') := by
  rw [checksumLine, checksumLine, List.append_assoc, List.append_assoc] at h
  have hdigest := List.append_cancel_right (List.append_cancel_left h)
  exact List.Vector.eq _ _ (encodeBytes_inj hdigest)

/-- **The file of a provenance is read back.** -/
theorem readBytes_sidecarBytes (htargeted : provenance.Targeted) :
    readBytes sha256 (provenance.sidecarBytes sha256) = .ok provenance := by
  obtain ⟨front, hfront⟩ := exists_sidecarPayload provenance
  have hdigest : ∀ c ∈ digestText sha256 provenance.sidecarPayload, isHexDigit c = true :=
    fun _ => isHexDigit_of_mem_encodeBytes
  have hcut : splitLast ('\n' :: checksumKey)
      (sealed sha256 provenance.sidecarPayload) =
        some (front, digestText sha256 provenance.sidecarPayload ++ ['\n']) := by
    have hshape : sealed sha256 provenance.sidecarPayload = front ++ (('\n' :: checksumKey) ++
        (digestText sha256 provenance.sidecarPayload ++ ['\n'])) := by
      rw [sealed, checksumLine]
      conv_lhs => rw [hfront]
      simp [hfront]
    rw [hshape]
    refine splitLast_append (m := '=') newline_notMem_checksumKey equals_mem_checksumKey ?_
    intro hmem
    rcases List.mem_append.mp hmem with hmem | hmem
    · exact absurd (hdigest _ hmem) (by decide)
    · exact absurd hmem (by decide)
  have hvalues : ∀ field, (SidecarField.all.map fun field =>
      (field, provenance.sidecarValue field)).lookup field =
        some (provenance.sidecarValue field) := by
    intro field
    cases field <;> rfl
  rw [readBytes, RecoveryProvenance.sidecarBytes, toText_textBytes, orError_some, ok_bind,
    String.toList_ofList, readContents, hcut, orError_some, ok_bind]
  dsimp only
  rw [if_pos (List.getLast?_concat ..), orError_some, ok_bind, List.dropLast_concat, ← hfront,
    ensure_of ⟨length_digestText, List.all_eq_true.mpr hdigest, rfl⟩, ok_bind,
    linesOf_sidecarPayload]
  rw [collectValues_map provenance.sidecarLine (fun _ => rfl) (by decide) (by simp),
    ok_bind, List.nil_append]
  exact decodeValues_sidecarValue htargeted hvalues

/-- **What is accepted** is a payload under its own hash. -/
theorem readContents_sealed (h : readContents sha256 contents = .ok found) :
    ∃ payload, contents = sealed sha256 payload := by
  obtain ⟨⟨before, value⟩, hcut, h⟩ := bind_eq_ok.mp h
  obtain ⟨checksum, hchecksum, h⟩ := bind_eq_ok.mp h
  obtain ⟨⟨_, _, hdigest⟩, _⟩ := ensure_bind_eq_ok.mp h
  rw [orError_eq_ok] at hcut hchecksum
  have hvalue : value = checksum ++ ['\n'] := by
    split at hchecksum
    · rename_i hlast
      obtain rfl := Option.some.inj hchecksum
      obtain ⟨start, rfl⟩ := List.getLast?_eq_some_iff.mp hlast
      rw [List.dropLast_concat]
    · cases hchecksum
  refine ⟨before ++ ['\n'], ?_⟩
  rw [splitLast_eq_some hcut, sealed, checksumLine, hdigest, hvalue]
  simp

theorem readBytes_sealed {bytes : Blob} (h : readBytes sha256 bytes = .ok found) :
    ∃ payload, bytes = textBytes (sealed sha256 payload) := by
  obtain ⟨contents, htext, h⟩ := bind_eq_ok.mp h
  rw [orError_eq_ok] at htext
  obtain ⟨payload, hpayload⟩ := readContents_sealed h
  refine ⟨payload, ?_⟩
  rw [← hpayload, textBytes, String.ofList_toList, PathBuf.ofText_toText htext]

/-- A file that ends in the last line of another has a payload of the same hash. -/
theorem eq_of_checksumLine_suffix
    (h : textBytes (checksumLine sha256 payload') <:+ textBytes (sealed sha256 payload)) :
    sha256 (textBytes payload) = sha256 (textBytes payload') := by
  obtain ⟨front, hfront⟩ := h
  rw [sealed, textBytes_append] at hfront
  have hlines := (List.append_inj' hfront length_checksumLine).2
  exact (eq_of_checksumLine (textBytes_inj hlines)).symm

theorem writeSidecarFor_eq_ok {recovered path : AbsolutePath} {failed : Option String}
    {files files' : SidecarFiles}
    (h : provenance.writeSidecarFor sha256 recovered failed files = .ok (path, files')) :
    path = sidecarPath recovered ∧ files' path = some (provenance.sidecarBytes sha256) := by
  obtain ⟨written, hwritten, h⟩ := bind_eq_ok.mp h
  obtain ⟨rfl, rfl⟩ := Prod.mk.inj (Except.ok.inj h)
  unfold RecoveryProvenance.writeSidecar at hwritten
  split at hwritten
  · cases hwritten
  · cases hwritten
  · obtain rfl := Except.ok.inj hwritten
    exact ⟨rfl, Function.update_self ..⟩

end

/-- **Recovery sidecars.** The file written for a recovered item is read back as the
provenance it was written of; what is read from any other file is read from a payload of its
own, under that payload's hash. -/
theorem sidecar_kept (sha256 : Blob → Sha256) {provenance : RecoveryProvenance}
    (htargeted : provenance.Targeted) :
    (∀ (recovered path : AbsolutePath) (failed : Option String) (files files' : SidecarFiles),
      provenance.writeSidecarFor sha256 recovered failed files = .ok (path, files') →
        RecoveryProvenance.readSidecar sha256 path none files' = .ok provenance) ∧
    ∀ (path : AbsolutePath) (failed : Option String) (files : SidecarFiles) (bytes : Blob)
      (found : RecoveryProvenance), files path = some bytes →
      bytes ≠ provenance.sidecarBytes sha256 →
      RecoveryProvenance.readSidecar sha256 path failed files = .ok found →
        ∃ payload, payload ≠ provenance.sidecarPayload ∧
          bytes = textBytes (sealed sha256 payload) ∧
          (textBytes (checksumLine sha256 provenance.sidecarPayload) <:+ bytes →
            sha256 (textBytes payload) = sha256 (textBytes provenance.sidecarPayload)) := by
  constructor
  · intro recovered path failed files files' hwritten
    obtain ⟨_, hfile⟩ := writeSidecarFor_eq_ok hwritten
    unfold RecoveryProvenance.readSidecar
    rw [hfile]
    exact readBytes_sidecarBytes htargeted
  · intro path failed files bytes found hfile hne hread
    unfold RecoveryProvenance.readSidecar at hread
    rw [hfile] at hread
    cases failed with
    | some reason => cases hread
    | none =>
        obtain ⟨payload, rfl⟩ := readBytes_sealed hread
        refine ⟨payload, ?_, rfl, eq_of_checksumLine_suffix⟩
        rintro rfl
        exact hne rfl

/-! ### A file, and another one of the same item -/

/-- A symlink that the run moved to the Trash. -/
def trashedLink (runId : UInt64) : RecoveryProvenance where
  actionId := some 3
  peer := "laptop"
  originalRoot := ⟨[47, 104]⟩
  relativePath := ⟨[108]⟩
  runId := ⟨runId⟩
  removedAtUnixNanos := -7
  recoveryMethod := .trash
  verificationState := .verified
  itemType := .symlink
  content := none
  sourceIdentity := some ⟨1, 10⟩
  symlinkTarget := some ⟨[103]⟩
  relative_valid := by decide
  root_valid := by decide
  peer_valid := by decide

theorem trashedLink_targeted (runId : UInt64) : (trashedLink runId).Targeted where
  some_of_symlink := fun _ => rfl
  ne_nil := by
    rintro _ ⟨⟩
    decide

/-- The record of `/b/f` is read back, under SHA-256. -/
theorem sidecar_kept_trashed :
    ∃ path files, (trashedLink 7).writeSidecarFor sha256Of [[98], [102]] none (fun _ => none) =
        .ok (path, files) ∧
      RecoveryProvenance.readSidecar sha256Of path none files = .ok (trashedLink 7) :=
  ⟨_, _, rfl, (sidecar_kept sha256Of (trashedLink_targeted 7)).1 [[98], [102]] _ none
    (fun _ => none) _ rfl⟩

theorem sha256Of_trashed :
    sha256Of (textBytes (trashedLink 8).sidecarPayload) ≠
      sha256Of (textBytes (trashedLink 7).sidecarPayload) := by
  decide +kernel

/-- The record of the run 7, changed to that of the run 8 with its hash, is accepted. -/
theorem sidecar_replaced :
    ¬ ∀ (provenance : RecoveryProvenance) (payload : List Char), provenance.Targeted →
      textBytes (sealed sha256Of payload) ≠ provenance.sidecarBytes sha256Of →
      (∃ found, readBytes sha256Of (textBytes (sealed sha256Of payload)) = .ok found) →
        sha256Of (textBytes payload) = sha256Of (textBytes provenance.sidecarPayload) := by
  intro h
  refine sha256Of_trashed (h (trashedLink 7) (trashedLink 8).sidecarPayload
    (trashedLink_targeted 7) ?_ ⟨_, readBytes_sidecarBytes (trashedLink_targeted 8)⟩)
  intro hsame
  have hpayload : sealed sha256Of (trashedLink 8).sidecarPayload =
      sealed sha256Of (trashedLink 7).sidecarPayload := textBytes_inj hsame
  have hlength : ((trashedLink 8).sidecarPayload).length =
      ((trashedLink 7).sidecarPayload).length := by decide +kernel
  have hpayloads := (List.append_inj hpayload hlength).1
  exact sha256Of_trashed (by rw [hpayloads])

end SyncPlus
