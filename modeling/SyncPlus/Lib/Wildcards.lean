import Mathlib.Data.List.Basic

/-!
# Wildcards

Patterns of letters, of wildcards for one letter and of stars, and what they
match. A star takes any part of the value, so a pattern matches a value that is
cut where its parts match (`matches_append`), and one that begins with a star
matches what ends in a match of the rest (`matches_star`): the two facts a
matcher that goes through the pattern and one that goes through the value rest on.

A matcher that reads a letter of its own for the star may take one for the
other. `MatchesOwn` is what a pattern then matches: less than `Matches`
(`MatchesOwn.matches`).
-/

namespace SyncPlus

inductive Wildcard (α : Type) where
  | star
  | any
  | letter (a : α)
  deriving DecidableEq

namespace Wildcard

variable {α : Type}

def Matches : List (Wildcard α) → List α → Prop
  | [], value => value = []
  | star :: pattern, value => ∃ rest, rest <:+ value ∧ Matches pattern rest
  | any :: pattern, value => ∃ a rest, value = a :: rest ∧ Matches pattern rest
  | letter a :: pattern, value => ∃ rest, value = a :: rest ∧ Matches pattern rest

/-- The wildcard takes exactly this letter. -/
def Takes : Wildcard α → α → Prop
  | star, _ => False
  | any, _ => True
  | letter a, b => a = b

section

variable {pattern pattern' : List (Wildcard α)} {value : List α} {w : Wildcard α} {a : α}

@[simp] theorem matches_nil : Matches [] value ↔ value = [] := Iff.rfl

theorem matches_star : Matches (star :: pattern) value ↔
    ∃ rest, rest <:+ value ∧ Matches pattern rest := Iff.rfl

theorem matches_star_nil : Matches (star :: pattern) ([] : List α) ↔ Matches pattern [] := by
  rw [matches_star]
  constructor
  · rintro ⟨rest, hrest, h⟩
    rwa [List.suffix_nil.mp hrest] at h
  · intro h
    exact ⟨[], List.suffix_rfl, h⟩

theorem not_matches_nil (hw : w ≠ star) : ¬ Matches (w :: pattern) ([] : List α) := by
  cases w with
  | star => exact absurd rfl hw
  | any => simp [Matches]
  | letter b => simp [Matches]

/-- Only stars match the empty value. -/
theorem matches_empty : Matches pattern ([] : List α) ↔ ∀ w ∈ pattern, w = star := by
  induction pattern with
  | nil => simp
  | cons w pattern ih =>
      by_cases hw : w = star
      · subst hw
        rw [matches_star_nil, ih]
        simp
      · simp [not_matches_nil hw, hw]

/-- **A pattern matches part by part.** -/
theorem matches_append : Matches (pattern ++ pattern') value ↔
    ∃ front back, value = front ++ back ∧ Matches pattern front ∧ Matches pattern' back := by
  induction pattern generalizing value with
  | nil => simp
  | cons w pattern ih =>
      rw [List.cons_append]
      cases w with
      | star =>
          rw [matches_star]
          constructor
          · rintro ⟨rest, ⟨skipped, rfl⟩, h⟩
            obtain ⟨front, back, rfl, hfront, hback⟩ := ih.mp h
            exact ⟨skipped ++ front, back, by simp, ⟨front, List.suffix_append _ _, hfront⟩,
              hback⟩
          · rintro ⟨front, back, rfl, ⟨rest, ⟨skipped, rfl⟩, hfront⟩, hback⟩
            exact ⟨rest ++ back, ⟨skipped, by simp⟩, ih.mpr ⟨rest, back, rfl, hfront, hback⟩⟩
      | any =>
          constructor
          · rintro ⟨a, rest, rfl, h⟩
            obtain ⟨front, back, rfl, hfront, hback⟩ := ih.mp h
            exact ⟨a :: front, back, rfl, ⟨a, front, rfl, hfront⟩, hback⟩
          · rintro ⟨front, back, rfl, ⟨a, rest, rfl, hfront⟩, hback⟩
            exact ⟨a, rest ++ back, rfl, ih.mpr ⟨rest, back, rfl, hfront, hback⟩⟩
      | letter a =>
          constructor
          · rintro ⟨rest, rfl, h⟩
            obtain ⟨front, back, rfl, hfront, hback⟩ := ih.mp h
            exact ⟨a :: front, back, rfl, ⟨front, rfl, hfront⟩, hback⟩
          · rintro ⟨front, back, rfl, ⟨rest, rfl, hfront⟩, hback⟩
            exact ⟨rest ++ back, rfl, ih.mpr ⟨rest, back, rfl, hfront, hback⟩⟩

/-- A letter of the pattern is in every value it matches. -/
theorem Matches.letter_mem (h : Matches pattern value) (ha : letter a ∈ pattern) : a ∈ value := by
  obtain ⟨before, after, rfl⟩ := List.append_of_mem ha
  obtain ⟨front, back, rfl, -, rest, rfl, -⟩ := matches_append.mp h
  simp

/-- A star at the end takes what is left. -/
theorem matches_concat_star : Matches (pattern ++ [star]) value ↔
    ∃ front back, value = front ++ back ∧ Matches pattern front := by
  have hstar : ∀ back : List α, Matches [star] back := fun back =>
    ⟨[], List.nil_suffix, rfl⟩
  simp [matches_append, hstar]

/-- A star at the end takes nothing of the value, or its last letter. -/
theorem matches_concat_star_concat : Matches (pattern ++ [star]) (value ++ [a]) ↔
    Matches pattern (value ++ [a]) ∨ Matches (pattern ++ [star]) value := by
  rw [matches_concat_star, matches_concat_star]
  constructor
  · rintro ⟨front, back, heq, hfront⟩
    rcases List.eq_nil_or_concat back with rfl | ⟨back, b, rfl⟩
    · rw [List.append_nil] at heq
      exact .inl (heq ▸ hfront)
    · rw [List.concat_eq_append, ← List.append_assoc] at heq
      exact .inr ⟨front, back, (List.append_inj' heq rfl).1, hfront⟩
  · rintro (h | ⟨front, back, rfl, hfront⟩)
    · exact ⟨_, [], (List.append_nil _).symm, h⟩
    · exact ⟨front, back ++ [a], List.append_assoc .., hfront⟩

theorem matches_concat_letter {b : α} : Matches (pattern ++ [letter b]) (value ++ [a]) ↔
    b = a ∧ Matches pattern value := by
  rw [matches_append]
  constructor
  · rintro ⟨front, back, heq, hfront, rest, rfl, rfl⟩
    obtain ⟨rfl, hletter⟩ := List.append_inj' heq rfl
    cases hletter
    exact ⟨rfl, hfront⟩
  · rintro ⟨rfl, hfront⟩
    exact ⟨value, [b], rfl, hfront, [], rfl, rfl⟩

/-! ## Where a star meets its own letter -/

variable {own : α}

/-- As `Matches`, but a star that meets the letter `own` takes exactly it. -/
def MatchesOwn (own : α) : List (Wildcard α) → List α → Prop
  | [], value => value = []
  | star :: pattern, value => (∃ rest, value = own :: rest ∧ MatchesOwn own pattern rest) ∨
      value.head? ≠ some own ∧ ∃ rest, rest <:+ value ∧ MatchesOwn own pattern rest
  | any :: pattern, value => ∃ a rest, value = a :: rest ∧ MatchesOwn own pattern rest
  | letter a :: pattern, value => ∃ rest, value = a :: rest ∧ MatchesOwn own pattern rest

@[simp] theorem matchesOwn_nil : MatchesOwn own [] value ↔ value = [] := Iff.rfl

theorem matchesOwn_star_own :
    MatchesOwn own (star :: pattern) (own :: value) ↔ MatchesOwn own pattern value := by
  constructor
  · rintro (⟨rest, heq, h⟩ | ⟨hne, -⟩)
    · cases heq
      exact h
    · exact absurd rfl hne
  · intro h
    exact .inl ⟨value, rfl, h⟩

theorem matchesOwn_star (hne : value.head? ≠ some own) :
    MatchesOwn own (star :: pattern) value ↔
      ∃ rest, rest <:+ value ∧ MatchesOwn own pattern rest := by
  constructor
  · rintro (⟨rest, rfl, -⟩ | ⟨-, h⟩)
    · exact absurd rfl hne
    · exact h
  · intro h
    exact .inr ⟨hne, h⟩

theorem matchesOwn_cons (hw : w ≠ star) : MatchesOwn own (w :: pattern) (a :: value) ↔
    w.Takes a ∧ MatchesOwn own pattern value := by
  cases w with
  | star => exact absurd rfl hw
  | any => simp [MatchesOwn, Takes]
  | letter b => simp [MatchesOwn, Takes, eq_comm]

/-- What a pattern matches so, it matches. -/
theorem MatchesOwn.matches (h : MatchesOwn own pattern value) : Matches pattern value := by
  induction pattern generalizing value with
  | nil => exact h
  | cons w pattern ih =>
      cases w with
      | star =>
          rcases h with ⟨rest, rfl, h⟩ | ⟨-, rest, hrest, h⟩
          · exact ⟨rest, List.suffix_cons .., ih h⟩
          · exact ⟨rest, hrest, ih h⟩
      | any =>
          obtain ⟨a, rest, rfl, h⟩ := h
          exact ⟨a, rest, rfl, ih h⟩
      | letter a =>
          obtain ⟨rest, rfl, h⟩ := h
          exact ⟨rest, rfl, ih h⟩

theorem matchesOwn_empty :
    MatchesOwn own pattern ([] : List α) ↔ ∀ w ∈ pattern, w = star := by
  constructor
  · intro h
    exact matches_empty.mp h.matches
  · intro h
    induction pattern with
    | nil => rfl
    | cons w pattern ih =>
        obtain ⟨rfl, hrest⟩ := List.forall_mem_cons.mp h
        exact .inr ⟨by simp, [], List.suffix_rfl, ih hrest⟩

/-- Wildcards that were matched one by one, each star with the letter `own`:
where they are matched later on in the value, what follows them is, too. -/
theorem MatchesOwn.of_skipped {letters : List (Wildcard α)} {skipped later : List α}
    (heach : List.Forall₂ (fun w a => w = star → a = own) letters skipped)
    (hlater : later <:+ skipped ++ value) (h : MatchesOwn own (letters ++ pattern) later) :
    ∃ back, back <:+ value ∧ MatchesOwn own pattern back := by
  induction heach generalizing later with
  | nil => exact ⟨later, hlater, h⟩
  | @cons w a letters skipped hstar heach ih =>
      rw [List.cons_append] at hlater h
      -- what is left of the later place after a letter is left after this one
      have hrest : ∀ b rest, later = b :: rest → rest <:+ skipped ++ value := by
        rintro b rest rfl
        rcases List.suffix_cons_iff.mp hlater with heq | hlater
        · cases heq
          exact List.suffix_rfl
        · exact (List.suffix_cons b rest).trans hlater
      cases w with
      | star =>
          rcases h with ⟨rest, heq, h⟩ | ⟨hne, rest, hsuffix, h⟩
          · exact ih (hrest own rest heq) h
          · rcases List.suffix_cons_iff.mp hlater with rfl | hlater
            · rw [hstar rfl] at hne
              exact absurd rfl hne
            · exact ih (hsuffix.trans hlater) h
      | any =>
          obtain ⟨b, rest, heq, h⟩ := h
          exact ih (hrest b rest heq) h
      | letter b =>
          obtain ⟨rest, heq, h⟩ := h
          exact ih (hrest b rest heq) h

end

end Wildcard

end SyncPlus
