import SyncPlus.Lib.Checks
import SyncPlus.TransferOutput

/-!
# Itemized paths

Whether the line of a code, a blank and a path is read back as this code and this path.
The splitter takes everything up to the first byte that is no blank for the separator, so
a path is read back exactly when it begins with another letter
(`itemized_read_back_iff`). The blanks further on in it are its own.
-/

namespace SyncPlus

/-! ## Codes and paths -/

/-- What `split_itemized_line` asks of a code. -/
structure IsItemizeCode (code : String) : Prop where
  length : (literal code).length = 11
  update : (literal code).head?.any (· ∈ literal "><ch.*") = true
  itemType : (literal code)[1]?.any (· ∈ literal "fdLDS") = true
  attributes : ((literal code).drop 2).all (· ∈ literal ".+cstpogunax?") = true

/-- No NUL, newline, carriage return or backslash. -/
def IsPlain (path : String) : Prop := ∀ c ∈ path.toList, c.toNat ∉ [0, 10, 13, 92]

instance : DecidablePred IsPlain := fun path =>
  List.decidableBAll (fun c : Char => c.toNat ∉ [0, 10, 13, 92]) path.toList

def itemizedLine (code path : String) : List UInt8 := literal code ++ 32 :: literal path

/-- The path begins with a letter that is no space, tab or form feed. -/
def BeginsUnblank (path : String) : Prop := ∃ c ∈ path.toList.head?, c.toNat ∉ [9, 12, 32]

section

variable {code path : String} {encoded : List UInt8}

theorem notMem_literal (hpath : IsPlain path) {b : UInt8} (hb : b.toNat ∈ [0, 10, 13, 92]) :
    b ∉ literal path := by
  intro hmem
  have hsmall : ∀ n ∈ [0, 10, 13, 92], n < 128 := by decide
  obtain ⟨c, hc, heq⟩ := PathBuf.exists_letter_of_mem (hsmall _ hb) hmem
  rw [← heq] at hb
  exact hpath c hc hb

namespace IsItemizeCode

/-- The first two bytes, and the others. -/
theorem eq_cons (hcode : IsItemizeCode code) : ∃ update itemType attributes,
    literal code = update :: itemType :: attributes ∧ update ∈ literal "><ch.*" ∧
      itemType ∈ literal "fdLDS" ∧ ∀ b ∈ attributes, b ∈ literal ".+cstpogunax?" := by
  obtain ⟨hlength, hupdate, htype, hattributes⟩ := hcode
  rcases hliteral : literal code with _ | ⟨update, _ | ⟨itemType, attributes⟩⟩
  · rw [hliteral] at hupdate
    cases hupdate
  · rw [hliteral] at hlength
    cases hlength
  · rw [hliteral] at hupdate htype hattributes
    refine ⟨update, itemType, attributes, rfl, by simpa using hupdate, by simpa using htype, ?_⟩
    simpa using hattributes

theorem unblank (hcode : IsItemizeCode code) :
    ∀ b ∈ literal code, isAsciiWhitespace b = false := by
  obtain ⟨update, itemType, attributes, hliteral, hupdate, htype, hattributes⟩ := hcode.eq_cons
  have hupdates : ∀ b ∈ literal "><ch.*", isAsciiWhitespace b = false := by decide +kernel
  have htypes : ∀ b ∈ literal "fdLDS", isAsciiWhitespace b = false := by decide +kernel
  have hall : ∀ b ∈ literal ".+cstpogunax?", isAsciiWhitespace b = false := by decide +kernel
  rw [hliteral]
  intro b hb
  rcases List.mem_cons.mp hb with rfl | hb
  · exact hupdates b hupdate
  rcases List.mem_cons.mp hb with rfl | hb
  · exact htypes b htype
  · exact hall b (hattributes b hb)

end IsItemizeCode

/-! ## The line -/

theorem withoutReturn_itemizedLine (hpath : IsPlain path) :
    withoutReturn (itemizedLine code path) = itemizedLine code path := by
  unfold withoutReturn
  refine if_neg fun hlast => ?_
  have hmem : carriageReturn ∈ 32 :: literal path := by
    rw [itemizedLine, List.getLast?_append_of_ne_nil _ (by simp)] at hlast
    exact List.mem_of_getLast? hlast
  rcases List.mem_cons.mp hmem with h | h
  · exact absurd h (by decide)
  · exact notMem_literal hpath (by decide) h

/-- The messages of rsync begin otherwise. -/
theorem isKnownRsyncInfo_itemizedLine (hcode : IsItemizeCode code) :
    isKnownRsyncInfo (itemizedLine code path) = false := by
  obtain ⟨update, itemType, attributes, hliteral, hupdate, htype, -⟩ := hcode.eq_cons
  have hbegins : ∀ beginning : String, (∀ a ∈ literal "><ch.*", ∀ b ∈ literal "fdLDS",
      ¬ (literal beginning).take 2 <+: [a, b]) → ¬ literal beginning <+: itemizedLine code path := by
    intro beginning hother hprefix
    rw [itemizedLine, hliteral] at hprefix
    refine hother update hupdate itemType htype ?_
    exact List.prefix_of_prefix_length_le ((List.take_prefix 2 _).trans hprefix) ⟨_, rfl⟩
      (List.length_take_le 2 _)
  unfold isKnownRsyncInfo
  rw [Bool.or_eq_false_iff, Bool.or_eq_false_iff, decide_eq_false_iff_not,
    decide_eq_false_iff_not, List.any_eq_false]
  refine ⟨⟨fun heq => ?_, fun heq => ?_⟩, fun beginning hmem hprefix => ?_⟩
  · refine hbegins "sending incremental file list" (by decide +kernel) ?_
    exact heq ▸ List.prefix_rfl
  · refine hbegins "receiving incremental file list" (by decide +kernel) ?_
    exact heq ▸ List.prefix_rfl
  · refine hbegins beginning ?_ (List.isPrefixOf_iff_prefix.mp hprefix)
    clear hprefix
    revert beginning
    decide +kernel

theorem looksLikeItemizedRecord_itemizedLine (hcode : IsItemizeCode code) :
    looksLikeItemizedRecord (itemizedLine code path) = true := by
  obtain ⟨update, itemType, attributes, hliteral, hupdate, -, -⟩ := hcode.eq_cons
  unfold looksLikeItemizedRecord
  rw [itemizedLine, hliteral]
  simp [hupdate]

/-- The code is found, and the path without the blanks that it begins with. -/
theorem splitItemizedLine_itemizedLine (hcode : IsItemizeCode code) :
    splitItemizedLine (itemizedLine code path) =
      if (literal path).dropWhile isAsciiWhitespace = [] then none
      else some (code, (literal path).dropWhile isAsciiWhitespace) := by
  have hunblank : ∀ b ∈ literal code, (!isAsciiWhitespace b) = true := by
    intro b hb
    rw [hcode.unblank b hb]
    rfl
  have htext : PathBuf.toText ⟨literal code⟩ = some code := PathBuf.toText_ofText code
  have hguard := And.intro hcode.length (And.intro hcode.update
    (And.intro hcode.itemType hcode.attributes))
  unfold splitItemizedLine itemizedLine
  dsimp only
  rw [List.takeWhile_append_of_pos hunblank, List.dropWhile_append_of_pos hunblank]
  have htake : (32 :: literal path).takeWhile (fun b => !isAsciiWhitespace b) = [] := rfl
  have hdrop : (32 :: literal path).dropWhile (fun b => !isAsciiWhitespace b) =
      32 :: literal path := rfl
  have hpath : (32 :: literal path).dropWhile isAsciiWhitespace =
      (literal path).dropWhile isAsciiWhitespace := rfl
  have hsome : ∀ {p : Prop} [Decidable p], p → (guard p : Option Unit) = some () :=
    fun h => if_pos h
  rw [htake, hdrop, hpath, List.append_nil, htext, hsome (List.cons_ne_nil _ _), hsome hguard]
  split <;> rename_i hempty
  · rw [hempty]
    rfl
  · rw [hsome hempty]
    rfl

/-! ## The path -/

theorem unescapeBytes_of_notMem (h : backslash ∉ encoded) :
    unescapeBytes 0 encoded = .ok encoded := by
  induction encoded with
  | nil => rfl
  | cons b encoded ih =>
      rw [List.mem_cons, not_or] at h
      rw [unescapeBytes, if_neg (Ne.symm h.1), ih h.2]
      rfl

/-- Without escapes and NUL only the encoding is looked at. -/
theorem unescapePath_of_notMem (hbackslash : backslash ∉ encoded) (hzero : 0 ∉ encoded) :
    unescapePath encoded =
      if (PathBuf.toText ⟨encoded⟩).isNone then .error .invalidUtf8 else .ok ⟨encoded⟩ := by
  unfold unescapePath
  rw [unescapeBytes_of_notMem hbackslash, ok_bind, if_neg hzero]
  rfl

theorem isAsciiWhitespace_iff {b : UInt8} :
    isAsciiWhitespace b = true ↔ b.toNat ∈ [9, 10, 12, 13, 32] := by
  have hnat : ∀ n < 256, isAsciiWhitespace (UInt8.ofNat n) = true ↔ n ∈ [9, 10, 12, 13, 32] := by
    decide +kernel
  have hb := hnat b.toNat b.toNat_lt
  rwa [UInt8.ofNat_toNat] at hb

/-- The blank letters are blank bytes. -/
theorem beginsUnblank_iff (hpath : IsPlain path) : BeginsUnblank path ↔
    ∃ b ∈ (literal path).head?, isAsciiWhitespace b = false := by
  unfold BeginsUnblank literal
  unfold IsPlain at hpath
  rw [PathBuf.bytes_ofText]
  revert hpath
  cases path.toList with
  | nil => simp
  | cons c rest =>
      intro hpath
      have hplain := hpath c (.head _)
      rcases hencoded : String.utf8EncodeChar c with _ | ⟨b, others⟩
      · exact absurd hencoded String.utf8EncodeChar_ne_nil
      have hblank : isAsciiWhitespace b = true ↔ c.toNat ∈ [9, 12, 32] := by
        constructor
        · intro hb
          rw [isAsciiWhitespace_iff] at hb
          have hsmall : ∀ n ∈ [9, 10, 12, 13, 32], n < 128 := by decide
          rw [PathBuf.toNat_of_mem_utf8EncodeChar (hsmall _ hb) (hencoded ▸ List.mem_cons_self)]
            at hplain ⊢
          simp only [List.mem_cons, List.not_mem_nil, or_false, not_or] at hb hplain ⊢
          omega
        · intro hc
          have hletters : ∀ n ∈ [9, 12, 32], (String.utf8EncodeChar (Char.ofNat n)).head?.any
              isAsciiWhitespace = true := by
            decide
          have hletter := hletters c.toNat hc
          rwa [Char.ofNat_toNat, hencoded] at hletter
      simp only [List.flatMap_cons, hencoded, List.cons_append, List.head?_cons,
        Option.mem_def, Option.some.injEq, exists_eq_left', ← hblank, Bool.not_eq_true]

/-! ## What is read -/

/-- **A path is read back exactly when it does not begin with a blank.** -/
theorem itemized_read_back_iff (hcode : IsItemizeCode code) (hpath : IsPlain path) :
    parseLine (itemizedLine code path) = [.itemized ⟨code, .ofText path⟩] ↔
      BeginsUnblank path := by
  have hne : itemizedLine code path ≠ [] := by simp [itemizedLine]
  unfold parseLine
  dsimp only
  rw [withoutReturn_itemizedLine hpath, if_neg hne, isKnownRsyncInfo_itemizedLine hcode,
    looksLikeItemizedRecord_itemizedLine hcode, if_neg (by decide), if_pos rfl,
    splitItemizedLine_itemizedLine hcode, beginsUnblank_iff hpath]
  have hbackslash := notMem_literal hpath (b := backslash) (by decide)
  have hzero := notMem_literal hpath (b := 0) (by decide)
  have hsuffix := List.dropWhile_suffix (l := literal path) isAsciiWhitespace
  have hunescape := unescapePath_of_notMem (fun h => hbackslash (hsuffix.mem h))
    fun h => hzero (hsuffix.mem h)
  constructor
  · intro h
    split at h <;> rename_i hread
    · split at hread <;> rename_i hempty
      · cases hread
      cases hread
      rw [hunescape] at h
      -- what is read has the bytes after the blanks, and they are those of the path
      have hsame : (literal path).dropWhile isAsciiWhitespace = literal path := by
        split at h <;> rename_i hdecoded
        · split at hdecoded
          · cases hdecoded
          · cases hdecoded
            split at h
            · cases h
            · simp only [List.cons.injEq, ParsedOutput.itemized.injEq, ItemizedRecord.mk.injEq,
                true_and, and_true] at h
              exact congrArg PathBuf.bytes h
        · cases h
      obtain ⟨b, rest, hcons⟩ := List.exists_cons_of_ne_nil hempty
      have hfirst := List.head?_dropWhile_not isAsciiWhitespace (literal path)
      rw [hcons] at hfirst
      refine ⟨b, ?_, hfirst⟩
      rw [← hsame, hcons]
      rfl
    · cases h
  · rintro ⟨b, hb, hunblank⟩
    obtain ⟨rest, hliteral⟩ : ∃ rest, literal path = b :: rest := by
      cases hbytes : literal path with
      | nil =>
          rw [hbytes] at hb
          cases hb
      | cons first rest =>
          rw [hbytes] at hb
          cases hb
          exact ⟨rest, rfl⟩
    have hsame : (literal path).dropWhile isAsciiWhitespace = literal path := by
      rw [hliteral, List.dropWhile_cons_of_neg (by simp [hunblank])]
    have hbytes : literal path ≠ [] := by
      rw [hliteral]
      exact List.cons_ne_nil _ _
    have htext : PathBuf.toText ⟨literal path⟩ = some path := PathBuf.toText_ofText path
    rw [hsame] at hunescape ⊢
    rw [htext] at hunescape
    rw [if_neg hbytes]
    dsimp only
    rw [hunescape]
    exact if_neg hbytes

end

/-! ### A path that begins with a space -/

def newFileCode : String := ">f+++++++++"

theorem isItemizeCode_newFile : IsItemizeCode newFileCode :=
  ⟨by decide +kernel, by decide +kernel, by decide +kernel, by decide +kernel⟩

theorem itemized_read_back_inner : parseLine (itemizedLine newFileCode "a b ") =
    [.itemized ⟨newFileCode, .ofText "a b "⟩] ↔ BeginsUnblank "a b " :=
  itemized_read_back_iff isItemizeCode_newFile (by decide +kernel)

/-- The space is taken for the separator. -/
theorem itemized_not_read_back : ¬ ∀ code path : String, IsItemizeCode code → IsPlain path →
    parseLine (itemizedLine code path) = [.itemized ⟨code, .ofText path⟩] := by
  intro h
  have hread := h newFileCode " a" isItemizeCode_newFile (by decide +kernel)
  have hother : parseLine (itemizedLine newFileCode " a") =
      [.itemized ⟨newFileCode, .ofText "a"⟩] := by
    decide +kernel
  rw [hother] at hread
  exact absurd hread (by decide +kernel)

end SyncPlus
