import SyncPlus.PathOrder
import SyncPlus.RunReport

/-!
# Exclusions of an analysis

How an analysis reads the exclusion patterns of a profile. A pattern
with a slash inside is matched against the whole path, one that ends with
a slash against every name on the path of a directory, any other against
the last name alone. The matcher is the usual one for `*` and `?`: it goes
on greedily and returns to the last `*` it met (`wildcardLoop`).
-/

namespace SyncPlus

/-- `to_string_lossy` on names: the text of a name that has one, and a
repaired text for any other name. A repair makes no slash. -/
structure LossyNames where
  text : Name → List Char
  text_eq : ∀ t : String, text t.toByteArray.data.toList = t.toList
  noSlash : ∀ name, slash ∉ name → '/' ∉ text name

def LossyNames.component (lossy : LossyNames) : Component → List Char
  | .rootDir => ['/']
  | .curDir => ['.']
  | .parentDir => ['.', '.']
  | .normal name => lossy.text name

theorem text_textBytes (lossy : LossyNames) (text : List Char) :
    lossy.text (textBytes text) = text := by
  have h := lossy.text_eq (String.ofList text)
  rw [String.toList_ofList] at h
  exact h

theorem slash_mem_of_mem_text {text : String} (h : '/' ∈ text.toList) :
    slash ∈ text.toByteArray.data.toList := by
  rw [← String.utf8Encode_toList, List.utf8Encode, List.toList_data_toByteArray,
    List.mem_flatMap]
  exact ⟨'/', h, by decide⟩

/-- Names read as texts, where only those that are texts matter. -/
def LossyNames.utf8 : LossyNames where
  text name := ((PathBuf.toText ⟨name⟩).map String.toList).getD []
  text_eq text := by
    have htext := PathBuf.toText_ofText text
    rw [PathBuf.ofText] at htext
    rw [htext]
    rfl
  noSlash name hname := by
    cases htext : PathBuf.toText ⟨name⟩ with
    | none => simp
    | some text =>
        intro hmem
        have hbytes : text.toByteArray.data.toList = name :=
          congrArg PathBuf.bytes (PathBuf.ofText_toText htext)
        exact hname (hbytes ▸ slash_mem_of_mem_text hmem)

/-- The loop of `wildcard_match`: what is left of the pattern and of the
value, and where the last `*` was met, what follows it in the pattern and
the value from there on. -/
def wildcardLoop (pattern value : List Char) (star : Option (List Char × List Char))
    (hstar : ∀ s ∈ star, value.length ≤ s.2.length) : Bool :=
  match value with
  | [] => pattern.all (· = '*')
  | v :: rest =>
      match pattern with
      | p :: after =>
          if p = '?' ∨ p = v then
            wildcardLoop after rest star fun s hs => by
              have hle := hstar s hs
              rw [List.length_cons] at hle
              omega
          else if p = '*' then
            wildcardLoop after (v :: rest) (some (after, v :: rest)) (by simp)
          else
            match star with
            | some (again, _ :: next) =>
                wildcardLoop again next (some (again, next)) (by simp)
            | _ => false
      | [] =>
          match star with
          | some (again, _ :: next) => wildcardLoop again next (some (again, next)) (by simp)
          | _ => false
termination_by ((star.map (·.2.length)).getD (value.length + 1), pattern.length)
decreasing_by
  · cases star with
    | none => exact .left _ _ (by simp)
    | some s => exact .right _ (by simp)
  · cases star with
    | none => exact .left _ _ (by simp)
    | some s =>
        have hle := hstar s rfl
        rcases Nat.lt_or_eq_of_le hle with hlt | heq
        · exact .left _ _ (by simpa using hlt)
        · rw [Option.map_some, Option.map_some, Option.getD_some, Option.getD_some, heq]
          exact .right _ (by simp)
  · exact .left _ _ (by simp)
  · exact .left _ _ (by simp)

def wildcardMatch (pattern value : List Char) : Bool :=
  wildcardLoop pattern value none (by simp)

def trimEndSlashes (pattern : List Char) : List Char :=
  (pattern.reverse.dropWhile (· = '/')).reverse

def isDirectoryPattern (pattern : String) : Bool := pattern.toList.getLast? = some '/'

/-- The texts of the components with a slash between them. -/
def pathForMatching (lossy : LossyNames) (path : PathBuf) : List Char :=
  ['/'].intercalate (path.components.map lossy.component)

def matchesExclusion (lossy : LossyNames) (relativePath : PathBuf) (itemType : ItemType)
    (pattern : String) : Bool :=
  let trimmed := trimEndSlashes pattern.toList
  if trimmed = [] then false
  else if isDirectoryPattern pattern = true ∧ itemType ≠ .directory then false
  else if '/' ∈ trimmed then wildcardMatch trimmed (pathForMatching lossy relativePath)
  else if isDirectoryPattern pattern then
    relativePath.components.any fun component =>
      wildcardMatch trimmed (lossy.component component)
  else relativePath.fileName.any fun fileName => wildcardMatch trimmed (lossy.text fileName)

end SyncPlus
