import Mathlib.Data.List.Basic

/-!
# Shell words

How a POSIX shell splits a command into words, as far as it does nothing else:
blanks separate words, single quotes, double quotes and backslashes protect what
they quote. A character that asks for more than words (an operator, an
expansion, a pattern) ends the reading with `none`.

A text `Spells` a word when the shell takes it for that part of a word, wherever
it stands. A blank after it ends the word (`shellWords_append_blank`), and quoting
spells every word (`spells_quoteWord`).
-/

namespace SyncPlus

abbrev ShellWord := List UInt8

namespace Shell

abbrev blank : UInt8 := 32
abbrev tab : UInt8 := 9
abbrev newline : UInt8 := 10
abbrev singleQuote : UInt8 := 39
abbrev doubleQuote : UInt8 := 34
abbrev backslash : UInt8 := 92
abbrev dollar : UInt8 := 36
abbrev backquote : UInt8 := 96

/-- The newline and the signs of operators, expansions and patterns: what may mean
something else than itself when it is not quoted. -/
def special : List UInt8 :=
  [10, 33, 35, 36, 37, 38, 40, 41, 42, 59, 60, 61, 62, 63, 91, 93, 94, 96, 123, 124, 125, 126]

/-- Where the shell is: outside of quotes, between words or in one, after a
backslash there, or in quotes. -/
inductive Reading where
  | unquoted (word : Option ShellWord)
  | escaped (word : Option ShellWord)
  | single (word : ShellWord)
  | double (word : ShellWord)
  | doubleEscaped (word : ShellWord)
  deriving DecidableEq

/-- One more letter of a word, which it may begin. -/
def extend (word : Option ShellWord) (letters : ShellWord) : Option ShellWord :=
  some (word.getD [] ++ letters)

/-- The next character: the word it ends, if any, and where the shell is then. -/
def Reading.next : Reading → UInt8 → Option (Option ShellWord × Reading)
  | unquoted word, c =>
      if c = blank ∨ c = tab then some (word, unquoted none)
      else if c = singleQuote then some (none, single (word.getD []))
      else if c = doubleQuote then some (none, double (word.getD []))
      else if c = backslash then some (none, escaped word)
      else if c ∈ special then none
      else some (none, unquoted (extend word [c]))
  | escaped word, c =>
      -- an escaped newline is no character at all
      if c = newline then some (none, unquoted word)
      else some (none, unquoted (extend word [c]))
  | single word, c =>
      if c = singleQuote then some (none, unquoted (some word))
      else some (none, single (word ++ [c]))
  | double word, c =>
      if c = doubleQuote then some (none, unquoted (some word))
      else if c = backslash then some (none, doubleEscaped word)
      else if c = dollar ∨ c = backquote then none
      else some (none, double (word ++ [c]))
  | doubleEscaped word, c =>
      if c = newline then some (none, double word)
      else if c = dollar ∨ c = backquote ∨ c = doubleQuote ∨ c = backslash then
        some (none, double (word ++ [c]))
      else some (none, double (word ++ [backslash, c]))

/-- The words that end in a text, and where the shell is after it. -/
def read : Reading → List UInt8 → Option (List ShellWord × Reading)
  | reading, [] => some ([], reading)
  | reading, c :: text =>
      (reading.next c).bind fun step => (read step.2 text).map fun rest =>
        (step.1.toList ++ rest.1, rest.2)

end Shell

open Shell in
/-- The words of a command; an open quote leaves it without. -/
def shellWords (command : List UInt8) : Option (List ShellWord) :=
  match read (.unquoted none) command with
  | some (words, .unquoted word) => some (words ++ word.toList)
  | _ => none

namespace Shell

section

variable {reading : Reading} {front back text letters word : List UInt8} {c : UInt8}

@[simp] theorem read_nil : read reading [] = some ([], reading) := rfl

theorem read_append : read reading (front ++ back) =
    (read reading front).bind fun first => (read first.2 back).map fun rest =>
      (first.1 ++ rest.1, rest.2) := by
  induction front generalizing reading with
  | nil => simp
  | cons c front ih =>
      simp only [List.cons_append, read]
      cases reading.next c with
      | none => rfl
      | some step =>
          simp only [Option.bind_some, ih]
          cases read step.2 front with
          | none => rfl
          | some first =>
              simp only [Option.bind_some, Option.map_some]
              cases read first.2 back with
              | none => rfl
              | some rest => simp [List.append_assoc]

/-- After a text that ends no word. -/
theorem read_append_of_nil {after : Reading} (h : read reading front = some ([], after)) :
    read reading (front ++ back) = read after back := by
  rw [read_append, h, Option.bind_some]
  cases read after back with
  | none => rfl
  | some rest => simp

/-- After a character that ends no word. -/
theorem read_cons_of_next {after : Reading} (h : reading.next c = some (none, after)) :
    read reading (c :: text) = read after text := by
  rw [read, h, Option.bind_some]
  cases read after text with
  | none => rfl
  | some rest => simp

/-- The text stands for the letters of the word, from wherever a word may go
on. -/
def Spells (text word : List UInt8) : Prop :=
  ∀ before, read (.unquoted before) text = some ([], .unquoted (extend before word))

/-- A character that is not special and no quote or blank. -/
def IsPlain (c : UInt8) : Prop :=
  c ≠ blank ∧ c ≠ tab ∧ c ≠ singleQuote ∧ c ≠ doubleQuote ∧ c ≠ backslash ∧ c ∉ special

instance : Decidable (IsPlain c) := inferInstanceAs (Decidable (_ ∧ _ ∧ _ ∧ _ ∧ _ ∧ _))

theorem spells_plain (hne : letters ≠ []) (h : ∀ c ∈ letters, IsPlain c) :
    Spells letters letters := by
  intro before
  induction letters generalizing before with
  | nil => exact absurd rfl hne
  | cons c letters ih =>
      obtain ⟨⟨hblank, htab, hsingle, hdouble, hbackslash, hspecial⟩, hletters⟩ :=
        List.forall_mem_cons.mp h
      have hnext : (Reading.unquoted before).next c =
          some (none, .unquoted (extend before [c])) := by
        simp [Reading.next, hblank, htab, hsingle, hdouble, hbackslash, hspecial]
      rw [read_cons_of_next hnext]
      rcases letters with _ | ⟨d, letters⟩
      · rfl
      · rw [ih (by simp) hletters]
        simp [extend]

theorem shellWords_of_spells (h : Spells text word) : shellWords text = some [word] := by
  rw [shellWords, h none]
  rfl

/-- A blank after a text ends the word. -/
theorem shellWords_append_blank (h : Spells text word) :
    shellWords (text ++ blank :: back) = (shellWords back).map (word :: ·) := by
  have hnext : (Reading.unquoted (extend none word)).next blank =
      some (some word, .unquoted none) := rfl
  unfold shellWords
  rw [read_append_of_nil (h none), read, hnext, Option.bind_some]
  cases read (.unquoted none) back with
  | none => rfl
  | some rest =>
      obtain ⟨words, last⟩ := rest
      cases last <;> rfl

end

/-! ## Quoting -/

/-- How a byte of a word is written in single quotes: a quote closes them, is
escaped, and opens them again. -/
def quoteByte (b : UInt8) : List UInt8 :=
  if b = singleQuote then [singleQuote, backslash, singleQuote, singleQuote] else [b]

def quoteWord (word : ShellWord) : List UInt8 :=
  singleQuote :: word.flatMap quoteByte ++ [singleQuote]

/-- **Quoting spells the word**, whatever bytes it has. -/
theorem spells_quoteWord (word : ShellWord) : Spells (quoteWord word) word := by
  intro before
  have hbody : ∀ rest read', read (.single read') (word.flatMap quoteByte ++ rest) =
      read (.single (read' ++ word)) rest := by
    intro rest
    induction word with
    | nil => simp
    | cons b word ih =>
        intro done
        by_cases hb : b = singleQuote
        · subst hb
          have hquote : read (.single done) (quoteByte singleQuote) =
              some ([], .single (done ++ [singleQuote])) := by
            simp [quoteByte, read, Reading.next, extend, blank, tab, singleQuote, doubleQuote,
              backslash, newline]
          rw [List.flatMap_cons, List.append_assoc, read_append_of_nil hquote, ih]
          simp
        · have hquote : read (.single done) (quoteByte b) = some ([], .single (done ++ [b])) := by
            simp [quoteByte, hb, read, Reading.next]
          rw [List.flatMap_cons, List.append_assoc, read_append_of_nil hquote, ih]
          simp
  have hopen : read (.unquoted before) [singleQuote] =
      some ([], .single (before.getD [])) := by
    simp [read, Reading.next, singleQuote, blank, tab]
  rw [quoteWord, ← List.singleton_append, List.append_assoc, read_append_of_nil hopen, hbody]
  simp [read, Reading.next, extend]

end Shell

end SyncPlus
