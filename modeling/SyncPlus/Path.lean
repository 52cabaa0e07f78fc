import Mathlib.Algebra.Group.Int.Defs
import Mathlib.Algebra.Group.Nat.Defs
import Mathlib.Data.List.Basic

/-!
# Paths

A path is the byte string the operating system keeps for it. The
standard library reads it as a sequence of components: empty segments
and `.` disappear, except for a `.` that opens a relative path.
-/

namespace SyncPlus

/-- The byte `/`. -/
abbrev slash : UInt8 := 47

/-- The byte `.`. -/
abbrev dot : UInt8 := 46

/-- A file name. -/
abbrev Name := List UInt8

/-- A path below a root, as the names on it. Paths compare name by name. -/
abbrev RelativePath := List Name

instance : Std.TransOrd RelativePath := inferInstanceAs (Std.TransOrd (List (List UInt8)))

/-- A canonical absolute path, as the names below `/`. -/
abbrev AbsolutePath := List Name

structure PathBuf where
  bytes : List UInt8
  deriving Repr, DecidableEq

inductive Component where
  | rootDir
  | curDir
  | parentDir
  | normal (name : List UInt8)
  deriving Repr, DecidableEq

def Component.isNormal : Component → Bool
  | normal _ => true
  | _ => false

/-- What one segment between slashes contributes. -/
def segmentComponent? (segment : List UInt8) : Option Component :=
  if segment = [] ∨ segment = [dot] then none
  else if segment = [dot, dot] then some .parentDir
  else some (.normal segment)

/-- A segment between slashes is made of bytes of the path, none a slash. -/
theorem mem_splitOn {α : Type} [DecidableEq α] {a b : α} {l segment : List α}
    (hsegment : segment ∈ l.splitOn a) (hb : b ∈ segment) : b ∈ l ∧ b ≠ a := by
  unfold List.splitOn at hsegment
  induction l generalizing segment with
  | nil => simp_all
  | cons x l ih =>
      rw [List.splitOnP_cons_eq_if_modifyHead] at hsegment
      split at hsegment
      · rcases List.mem_cons.mp hsegment with rfl | h
        · cases hb
        · exact ⟨.tail _ (ih h hb).1, (ih h hb).2⟩
      · rename_i hx
        cases hrest : List.splitOnP (· == a) l with
        | nil => simp [hrest] at hsegment
        | cons first rest =>
            rw [hrest] at ih
            rw [hrest, List.modifyHead_cons, List.mem_cons] at hsegment
            rcases hsegment with rfl | h
            · rcases List.mem_cons.mp hb with rfl | hb
              · exact ⟨.head _, by simpa using hx⟩
              · exact ⟨.tail _ (ih (.head _) hb).1, (ih (.head _) hb).2⟩
            · exact ⟨.tail _ (ih (.tail _ h) hb).1, (ih (.tail _ h) hb).2⟩

namespace PathBuf

def segments (p : PathBuf) : List (List UInt8) := p.bytes.splitOn slash

def isEmpty (p : PathBuf) : Bool := p.bytes.isEmpty

def isAbsolute (p : PathBuf) : Bool := p.bytes.head? = some slash

/-- The component that opens the path, when there is one beyond its
segments: the root, or a leading `.`. -/
def opening (p : PathBuf) : List Component :=
  if p.isAbsolute then [.rootDir]
  else if p.segments.head? = some [dot] then [.curDir]
  else []

def components (p : PathBuf) : List Component :=
  p.opening ++ p.segments.filterMap segmentComponent?

/-- `Path::file_name`: the last component, when it is a name. -/
def fileName (p : PathBuf) : Option Name :=
  match p.components.getLast? with
  | some (.normal name) => some name
  | _ => none

/-- What a name on a path is made of: bytes of the path, none a slash. -/
theorem fileName_bytes {p : PathBuf} {name : Name} (h : p.fileName = some name) :
    name ≠ [] ∧ ∀ b ∈ name, b ∈ p.bytes ∧ b ≠ slash := by
  unfold fileName at h
  split at h
  · rename_i n hlast
    cases h
    have hmem := List.mem_of_getLast? hlast
    rw [components, List.mem_append] at hmem
    rcases hmem with hopen | hseg
    · unfold opening at hopen
      split at hopen
      · simp at hopen
      · split at hopen <;> simp at hopen
    · obtain ⟨segment, hsegment, hcomponent⟩ := List.mem_filterMap.mp hseg
      unfold segmentComponent? at hcomponent
      split at hcomponent
      · cases hcomponent
      · split at hcomponent
        · cases hcomponent
        · cases hcomponent
          rename_i hname _
          exact ⟨fun h => hname (.inl h), fun b hb => mem_splitOn hsegment hb⟩
  · cases h

/-- The path of a text, and the text of a path that has one. -/
def ofText (text : String) : PathBuf := ⟨text.toByteArray.data.toList⟩

def toText (p : PathBuf) : Option String := String.fromUTF8? ⟨p.bytes.toArray⟩

/-- Paths are equal when their components are. -/
def same (p q : PathBuf) : Bool := p.components = q.components

def startsWith (p base : PathBuf) : Bool := base.components.isPrefixOf p.components

/-- `Path::join`: an absolute path replaces, any other is appended. -/
def join (p relative : PathBuf) : PathBuf :=
  if relative.isAbsolute then relative
  else if p.bytes.isEmpty ∨ p.bytes.getLast? = some slash then ⟨p.bytes ++ relative.bytes⟩
  else ⟨p.bytes ++ slash :: relative.bytes⟩

@[simp] theorem toText_ofText (text : String) : (ofText text).toText = some text := by
  simp only [toText, ofText, String.fromUTF8?]
  exact dif_pos text.isValidUTF8

theorem ofText_toText {p : PathBuf} {text : String} (h : p.toText = some text) :
    ofText text = p := by
  unfold toText String.fromUTF8? at h
  split at h
  · cases h
    rfl
  · cases h

/-- The bytes of a text, letter by letter. -/
theorem bytes_ofText (text : String) :
    (ofText text).bytes = text.toList.flatMap String.utf8EncodeChar := by
  rw [ofText, ← String.utf8Encode_toList, List.utf8Encode, List.toList_data_toByteArray]

/-- A byte below 128 stands for its own letter only. -/
theorem toNat_of_mem_utf8EncodeChar {c : Char} {b : UInt8} (hb : b.toNat < 128)
    (h : b ∈ String.utf8EncodeChar c) : c.toNat = b.toNat := by
  have hval : c.val.toNat = c.toNat := rfl
  unfold String.utf8EncodeChar at h
  dsimp only at h
  rw [hval] at h
  split at h
  · obtain rfl := List.mem_singleton.mp h
    rw [UInt8.toNat_ofNat']
    omega
  · -- all bytes of a longer letter are 128 and above
    exfalso
    split at h
    · simp only [List.mem_cons, List.not_mem_nil, or_false] at h
      rcases h with rfl | rfl <;> rw [UInt8.toNat_ofNat'] at hb <;> omega
    · split at h
      · simp only [List.mem_cons, List.not_mem_nil, or_false] at h
        rcases h with rfl | rfl | rfl <;> rw [UInt8.toNat_ofNat'] at hb <;> omega
      · simp only [List.mem_cons, List.not_mem_nil, or_false] at h
        rcases h with rfl | rfl | rfl | rfl <;> rw [UInt8.toNat_ofNat'] at hb <;> omega

/-- A byte below 128 comes from its own letter. -/
theorem exists_letter_of_mem {text : String} {b : UInt8} (hb : b.toNat < 128)
    (h : b ∈ (ofText text).bytes) : ∃ c ∈ text.toList, c.toNat = b.toNat := by
  rw [bytes_ofText] at h
  obtain ⟨c, hc, hmem⟩ := List.mem_flatMap.mp h
  exact ⟨c, hc, toNat_of_mem_utf8EncodeChar hb hmem⟩

/-- A name appended to a path: neither a NUL byte nor an end comes from the
separator. -/
theorem join_name {p : PathBuf} {name : Name} (hname : name ≠ [])
    (hslash : ∀ b ∈ name, b ≠ slash) :
    (p.join ⟨name⟩).isEmpty = false ∧ (0 ∈ (p.join ⟨name⟩).bytes ↔ 0 ∈ p.bytes ∨ 0 ∈ name) := by
  have hrelative : (⟨name⟩ : PathBuf).isAbsolute = false := by
    cases name with
    | nil => exact absurd rfl hname
    | cons b name => simpa [isAbsolute] using hslash b (.head _)
  have hzero : (0 : UInt8) ≠ slash := by decide
  unfold join
  rw [hrelative, if_neg (by simp)]
  split <;> simp [isEmpty, hname, hzero]

@[simp] theorem same_self (p : PathBuf) : p.same p = true := by simp [same]

theorem same_iff {p q : PathBuf} : p.same q = true ↔ p.components = q.components := by
  simp [same]

end PathBuf

/-- The bytes of a text. -/
def textBytes (text : List Char) : Name := (PathBuf.ofText (String.ofList text)).bytes

/-! ## Names -/

/-- The bytes of an ASCII literal. -/
def asciiBytes (s : String) : Name := s.toList.map fun c => c.toNat.toUInt8

/-- A name that can stand on a path: one normal component. -/
def ValidName (name : Name) : Prop :=
  name ≠ [] ∧ name ≠ [dot] ∧ name ≠ [dot, dot] ∧ slash ∉ name ∧ 0 ∉ name

instance (name : Name) : Decidable (ValidName name) :=
  inferInstanceAs (Decidable (_ ∧ _ ∧ _ ∧ _ ∧ _))

/-- What comes before the last dot of a name, when it has one. -/
def beforeLastDot (name : Name) : Option Name :=
  if dot ∈ name then some ((name.reverse.dropWhile (· ≠ dot)).drop 1).reverse else none

/-- `Path::file_stem`. A dot that opens the name ends no stem. -/
def fileStem (name : Name) : Name :=
  match beforeLastDot name with
  | none => name
  | some [] => name
  | some stem => stem

def withExtensionName (name extension : Name) : Name :=
  fileStem name ++ dot :: extension

theorem withExtensionName_inj (extension : Name) {name name' : Name} :
    withExtensionName name extension = withExtensionName name' extension ↔
      fileStem name = fileStem name' := by
  simp [withExtensionName]

namespace AbsolutePath

def parent (path : AbsolutePath) : Option AbsolutePath :=
  if path = [] then none else some path.dropLast

def fileName (path : AbsolutePath) : Option Name := path.getLast?

/-- `Path::with_extension`. -/
def withExtension (path : AbsolutePath) (extension : Name) : AbsolutePath :=
  match path.getLast? with
  | none => path
  | some name => path.dropLast ++ [withExtensionName name extension]

@[simp] theorem parent_concat (path : AbsolutePath) (name : Name) :
    parent (path ++ [name]) = some path := by
  simp [parent]

@[simp] theorem fileName_concat (path : AbsolutePath) (name : Name) :
    fileName (path ++ [name]) = some name := by
  simp [fileName]

@[simp] theorem withExtension_concat (path : AbsolutePath) (name extension : Name) :
    withExtension (path ++ [name]) extension =
      path ++ [withExtensionName name extension] := by
  simp [withExtension]

end AbsolutePath

end SyncPlus
