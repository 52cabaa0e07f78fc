import SyncPlus.Lib.Wildcards
import SyncPlus.PrecheckEntries

/-!
# What the two matchers match

The precheck and the analysis match patterns against texts in their own ways.
The table of the precheck computes what its patterns match, where only `*` is a
wildcard (`wildcardMatches_iff`). The loop of the analysis knows `?` as well,
and goes wrong on one kind of input only: a `*` of the pattern that meets a `*`
of the text is taken for a letter and not kept to return to
(`wildcardMatch_iff_own`). Everywhere else it computes what its patterns match,
and without `?` the two agree (`precheckMatcher_exact_iff`).
-/

namespace SyncPlus

open Wildcard (Matches)

/-! ## The table of the precheck -/

/-- How the precheck reads a letter of a pattern. -/
def precheckWildcard (c : Char) : Wildcard Char := if c = '*' then .star else .letter c

theorem precheckWildcard_eq_star {c : Char} : precheckWildcard c = .star ↔ c = '*' := by
  unfold precheckWildcard
  split <;> simp_all

/-- The entries of a row say of every part of the value that begins with `done`
whether it has the property. -/
def RowHolds (P : List Char → Prop) : List Char → List Char → List Bool → Prop
  | done, [], row => ∃ b, row = [b] ∧ (b = true ↔ P done)
  | done, v :: value, row =>
      ∃ b rest, row = b :: rest ∧ (b = true ↔ P done) ∧ RowHolds P (done ++ [v]) value rest

section

variable {P : List Char → Prop} {pattern value done : List Char} {row : List Bool} {c : Char}

theorem RowHolds.head (h : RowHolds P done value row) :
    ∃ b rest, row = b :: rest ∧ (b = true ↔ P done) := by
  cases value with
  | nil =>
      obtain ⟨b, rfl, hb⟩ := h
      exact ⟨b, [], rfl, hb⟩
  | cons v value =>
      obtain ⟨b, rest, rfl, hb, -⟩ := h
      exact ⟨b, rest, rfl, hb⟩

/-- The last entry is about the whole value. -/
theorem RowHolds.last (h : RowHolds P done value row) :
    row.getLastD false = true ↔ P (done ++ value) := by
  induction value generalizing done row with
  | nil =>
      obtain ⟨b, rfl, hb⟩ := h
      simpa using hb
  | cons v value ih =>
      obtain ⟨b, rest, rfl, -, hrest⟩ := h
      obtain ⟨b', rest', rfl, -⟩ := hrest.head
      have hlast := ih hrest
      rw [List.append_assoc, List.singleton_append] at hlast
      exact hlast

theorem rowHolds_first : RowHolds (· = []) [] value (true :: value.map fun _ => false) := by
  have hfalse : ∀ value done : List Char, done ≠ [] →
      RowHolds (· = []) done value (false :: value.map fun _ => false) := by
    intro value
    induction value with
    | nil =>
        intro done hne
        exact ⟨false, rfl, by simpa using hne⟩
    | cons v value ih =>
        intro done hne
        exact ⟨false, _, rfl, by simpa using hne, ih _ (by simp)⟩
  cases value with
  | nil => exact ⟨true, rfl, by simp⟩
  | cons v value => exact ⟨true, _, rfl, by simp, hfalse value [v] (by simp)⟩

/-- One more letter of the pattern, from an entry on whose left neighbour is
right. -/
theorem RowHolds.nextEntries {left : Bool}
    (h : RowHolds (Matches (pattern.map precheckWildcard)) done value row)
    (hleft : left = true ↔ Matches ((pattern ++ [c]).map precheckWildcard) done) :
    RowHolds (Matches ((pattern ++ [c]).map precheckWildcard)) done value
      (left :: SyncPlus.nextEntries c left value row) := by
  induction value generalizing done row left with
  | nil =>
      obtain ⟨b, rfl, -⟩ := h
      exact ⟨left, rfl, hleft⟩
  | cons v value ih =>
      obtain ⟨diagonal, rest, rfl, hdiagonal, hrest⟩ := h
      obtain ⟨above, row, rfl, habove⟩ := hrest.head
      refine ⟨left, _, rfl, hleft, ih hrest ?_⟩
      rw [List.map_append] at hleft ⊢
      by_cases hstar : c = '*'
      · have hread : [c].map precheckWildcard = [.star] := by simp [precheckWildcard, hstar]
        rw [hread] at hleft ⊢
        rw [if_pos hstar, Bool.or_eq_true, habove, hleft, Wildcard.matches_concat_star_concat]
      · have hread : [c].map precheckWildcard = [.letter c] := by simp [precheckWildcard, hstar]
        rw [hread, if_neg hstar, Wildcard.matches_concat_letter, ← hdiagonal]
        simp [and_comm]

theorem RowHolds.nextRow (h : RowHolds (Matches (pattern.map precheckWildcard)) [] value row) :
    RowHolds (Matches ((pattern ++ [c]).map precheckWildcard)) [] value
      (SyncPlus.nextRow value row c) := by
  obtain ⟨b, rest, rfl, hb⟩ := h.head
  refine h.nextEntries ?_
  have hstars : ∀ letters : List Char,
      Matches (letters.map precheckWildcard) [] ↔ ∀ a ∈ letters, a = '*' := by
    intro letters
    simp [Wildcard.matches_empty, precheckWildcard_eq_star]
  rw [hstars] at hb ⊢
  rw [List.headD_cons, Bool.and_eq_true, hb, List.forall_mem_append]
  simp [and_comm]

/-- **The table computes what the patterns of the precheck match.** -/
theorem wildcardMatches_iff : wildcardMatches pattern value = true ↔
    Matches (pattern.map precheckWildcard) value := by
  have hrow : ∀ before after : List Char, ∀ row,
      RowHolds (Matches (before.map precheckWildcard)) [] value row →
        RowHolds (Matches ((before ++ after).map precheckWildcard)) [] value
          (after.foldl (SyncPlus.nextRow value) row) := by
    intro before after
    induction after generalizing before with
    | nil =>
        intro row h
        rwa [List.append_nil]
    | cons c after ih =>
        intro row h
        have hnext := ih (before ++ [c]) _ (h.nextRow (c := c))
        rwa [List.append_assoc, List.singleton_append] at hnext
  exact (hrow [] pattern _ rowHolds_first).last

end

/-! ## The loop of the analysis -/

/-- How the analysis reads a letter of a pattern. -/
def analysisWildcard (c : Char) : Wildcard Char :=
  if c = '?' then .any else if c = '*' then .star else .letter c

theorem analysisWildcard_eq_star {c : Char} : analysisWildcard c = .star ↔ c = '*' := by
  unfold analysisWildcard
  split
  · rename_i h
    simp [h]
  · split <;> simp_all

/-- What the loop computes: a `*` of the pattern that meets a `*` of the value
takes exactly it. -/
abbrev LoopMatches (pattern value : List Char) : Prop :=
  Wildcard.MatchesOwn '*' (pattern.map analysisWildcard) value

/-- What going back to the last star can still match. -/
def Retries : Option (List Char × List Char) → Prop
  | some (again, _ :: next) => ∃ rest, rest <:+ next ∧ LoopMatches again rest
  | _ => False

/-- Since the last star the letters were matched one by one, each `*` of the
pattern with a `*`. -/
def SinceStar (pattern value : List Char) (star : Option (List Char × List Char)) : Prop :=
  ∀ s ∈ star, ∃ letters skipped : List Char, s.1 = letters ++ pattern ∧ s.2 = skipped ++ value ∧
    List.Forall₂ (fun p v => p = '*' → v = '*') letters skipped

section

variable {pattern value : List Char} {star : Option (List Char × List Char)}

/-- Going back matches what is left of the pattern at a later place. -/
theorem Retries.later (h : Retries star) (hsince : SinceStar pattern value star) :
    ∃ back, back <:+ value ∧ LoopMatches pattern back := by
  rcases star with _ | ⟨again, _ | ⟨x, next⟩⟩
  · exact h.elim
  · exact h.elim
  · obtain ⟨letters, skipped, hagain, hvalue, heach⟩ := hsince _ rfl
    obtain ⟨later, hlater, hmatch⟩ := h
    dsimp only at hagain hvalue
    rw [hagain, LoopMatches, List.map_append] at hmatch
    have hsuffix : later <:+ skipped ++ value := by
      rw [← hvalue]
      exact hlater.trans (List.suffix_cons x next)
    refine Wildcard.MatchesOwn.of_skipped ?_ hsuffix hmatch
    rw [List.forall₂_map_left_iff]
    exact heach.imp fun p v hstar hread => hstar (analysisWildcard_eq_star.mp hread)

theorem retries_cons {again next : List Char} {x : Char} :
    Retries (some (again, x :: next)) ↔
      LoopMatches again next ∨ Retries (some (again, next)) := by
  cases next with
  | nil => simp [Retries]
  | cons y next =>
      constructor
      · rintro ⟨rest, hrest, h⟩
        rcases List.suffix_cons_iff.mp hrest with rfl | hrest
        · exact .inl h
        · exact .inr ⟨rest, hrest, h⟩
      · rintro (h | ⟨rest, hrest, h⟩)
        · exact ⟨_, List.suffix_rfl, h⟩
        · exact ⟨rest, hrest.trans (List.suffix_cons y next), h⟩

theorem takes_analysisWildcard {p v : Char} (hp : p ≠ '*') :
    (analysisWildcard p).Takes v ↔ p = '?' ∨ p = v := by
  unfold analysisWildcard
  by_cases hany : p = '?'
  · simp [hany, Wildcard.Takes]
  · simp [hany, hp, Wildcard.Takes]

/-- A letter that the loop takes one for one. -/
theorem loopMatches_cons {p v : Char} {after rest : List Char} (hletter : p = '?' ∨ p = v) :
    LoopMatches (p :: after) (v :: rest) ↔ LoopMatches after rest := by
  by_cases hp : p = '*'
  · subst hp
    obtain rfl : '*' = v := hletter.resolve_left (by decide)
    exact Wildcard.matchesOwn_star_own
  · have hne : analysisWildcard p ≠ .star := fun h => hp (analysisWildcard_eq_star.mp h)
    rw [LoopMatches, List.map_cons, Wildcard.matchesOwn_cons hne, takes_analysisWildcard hp,
      and_iff_right hletter]

theorem sinceStar_self (again next : List Char) : SinceStar again next (some (again, next)) := by
  intro s hs
  cases hs
  exact ⟨[], [], rfl, rfl, .nil⟩

theorem SinceStar.cons {p v : Char} {after rest : List Char} (hletter : p = '?' ∨ p = v)
    (h : SinceStar (p :: after) (v :: rest) star) : SinceStar after rest star := by
  intro s hs
  obtain ⟨letters, skipped, hagain, hvalue, heach⟩ := h s hs
  refine ⟨letters ++ [p], skipped ++ [v], by simp [hagain], by simp [hvalue], ?_⟩
  refine List.rel_append heach (.cons ?_ .nil)
  rintro rfl
  exact (hletter.resolve_left (by decide)).symm

theorem not_retries (h : ∀ again x next, star ≠ some (again, x :: next)) : ¬ Retries star := by
  rcases star with _ | ⟨again, _ | ⟨x, next⟩⟩
  · exact id
  · exact id
  · exact absurd rfl (h again x next)

/-- The loop, from any place on: the induction follows it, and what going back
can match is carried along. -/
theorem wildcardLoop_iff {hstar : ∀ s ∈ star, value.length ≤ s.2.length}
    (hsince : SinceStar pattern value star) :
    wildcardLoop pattern value star hstar = true ↔
      LoopMatches pattern value ∨ Retries star := by
  fun_induction wildcardLoop pattern value star hstar with
  | case1 pattern star hstar =>
      -- nothing is left of the value, and going back would leave nothing either
      have hretries : Retries star → LoopMatches pattern [] := by
        intro h
        obtain ⟨back, hback, hmatch⟩ := h.later hsince
        rwa [List.suffix_nil.mp hback] at hmatch
      rw [or_iff_left_of_imp hretries, LoopMatches, Wildcard.matchesOwn_empty]
      simp [analysisWildcard_eq_star]
  | case2 star v rest _ p after hletter _ ih =>
      rw [ih (hsince.cons hletter), loopMatches_cons hletter]
  | case3 star v rest _ after _ hletter ih =>
      have hv : (v :: rest).head? ≠ some '*' := by
        intro heq
        exact hletter (.inr (Option.some.inj heq).symm)
      have hread : analysisWildcard '*' = .star := rfl
      have hnew : LoopMatches ('*' :: after) (v :: rest) ↔
          LoopMatches after (v :: rest) ∨ Retries (some (after, v :: rest)) := by
        rw [LoopMatches, List.map_cons, hread, Wildcard.matchesOwn_star hv,
          ← retries_cons (x := v)]
        rfl
      rw [ih (sinceStar_self _ _), ← hnew]
      -- going back cannot match what a new star at this place does not
      refine ⟨.inl, fun h => h.elim id fun h => ?_⟩
      obtain ⟨back, hback, hmatch⟩ := h.later hsince
      rw [LoopMatches, List.map_cons, hread] at hmatch ⊢
      rw [Wildcard.matchesOwn_star hv]
      rcases hmatch with ⟨next, rfl, hmatch⟩ | ⟨-, next, hnext, hmatch⟩
      · exact ⟨next, (List.suffix_cons ..).trans hback, hmatch⟩
      · exact ⟨next, hnext.trans hback, hmatch⟩
  | case4 v rest p after hletter hp again x next _ _ ih =>
      have hne : analysisWildcard p ≠ .star := fun h => hp (analysisWildcard_eq_star.mp h)
      rw [ih (sinceStar_self _ _), ← retries_cons (x := x), LoopMatches, List.map_cons,
        Wildcard.matchesOwn_cons hne, takes_analysisWildcard hp]
      simp [hletter]
  | case5 star v rest p after hletter hp hstar hnone _ =>
      have hne : analysisWildcard p ≠ .star := fun h => hp (analysisWildcard_eq_star.mp h)
      have hretries : ¬ Retries star := by
        refine not_retries fun again x next heq => ?_
        subst heq
        exact hnone again x next hstar rfl .rfl
      rw [LoopMatches, List.map_cons, Wildcard.matchesOwn_cons hne, takes_analysisWildcard hp]
      simp [hletter, hretries]
  | case6 v rest again x next _ _ ih =>
      rw [ih (sinceStar_self _ _), ← retries_cons (x := x)]
      simp [LoopMatches]
  | case7 star v rest hstar hnone _ =>
      have hretries : ¬ Retries star := by
        refine not_retries fun again x next heq => ?_
        subst heq
        exact hnone again x next hstar rfl .rfl
      simp [LoopMatches, hretries]

/-- **What the loop computes**, for every pattern and every value. -/
theorem wildcardMatch_iff_own : wildcardMatch pattern value = true ↔ LoopMatches pattern value := by
  have hsince : SinceStar pattern value none := by
    intro s hs
    cases hs
  rw [wildcardMatch, wildcardLoop_iff hsince]
  exact or_iff_left id

/-- The loop goes wrong where the value is matched, but never so that each `*`
of the pattern that begins at a `*` of the value takes exactly it. -/
theorem wildcardMatch_exact :
    (wildcardMatch pattern value = true ↔ Matches (pattern.map analysisWildcard) value) ↔
      (Matches (pattern.map analysisWildcard) value → LoopMatches pattern value) := by
  rw [wildcardMatch_iff_own]
  exact ⟨fun h => h.mpr, fun h => ⟨Wildcard.MatchesOwn.matches, h⟩⟩

/-- A `*` matches every value, `*a` too, but the loop takes the two `*` for one
another and has nothing left for the `a`. -/
theorem star_before_letter : ¬ ∀ pattern value : List Char,
    wildcardMatch pattern value = true ↔ Matches (pattern.map analysisWildcard) value := by
  intro h
  have hloop : wildcardMatch ['*'] ['*', 'a'] = false := by
    simp [wildcardMatch, wildcardLoop]
  have hmatch : Matches (['*'].map analysisWildcard) ['*', 'a'] := ⟨[], List.nil_suffix, rfl⟩
  rw [← h, hloop] at hmatch
  cases hmatch

/-- Without `?` the two read a pattern alike. -/
theorem map_precheckWildcard (hany : '?' ∉ pattern) :
    pattern.map precheckWildcard = pattern.map analysisWildcard := by
  refine List.map_congr_left fun c hc => ?_
  unfold precheckWildcard analysisWildcard
  have hc' : c ≠ '?' := by
    rintro rfl
    exact hany hc
  rw [if_neg hc']

/-- The table computes the language of the pattern, and gives the answer of the analysis
where no `?` tells them apart. -/
structure PrecheckMatcherExact (pattern value : List Char) : Prop where
  language : wildcardMatches pattern value = true ↔ Matches (pattern.map precheckWildcard) value
  analysis : '?' ∉ pattern → wildcardMatches pattern value = wildcardMatch pattern value

/-- **The matcher of the precheck is exact**, and agrees with that of the analysis unless
the value is matched, but never so that each `*` of the pattern that begins at a `*` of
the value takes exactly it. -/
theorem precheckMatcher_exact_iff : PrecheckMatcherExact pattern value ↔
    ('?' ∉ pattern → Matches (pattern.map precheckWildcard) value →
      LoopMatches pattern value) := by
  constructor
  · intro h hany hmatch
    rw [← wildcardMatch_iff_own, ← h.analysis hany]
    exact h.language.mpr hmatch
  · intro h
    refine ⟨wildcardMatches_iff, fun hany => ?_⟩
    rw [Bool.eq_iff_iff, wildcardMatches_iff, wildcardMatch_iff_own]
    refine ⟨h hany, fun hloop => ?_⟩
    rw [map_precheckWildcard hany]
    exact hloop.matches

/-- The table finds that a `*` matches `*a`, the loop of the analysis does not. -/
theorem precheckMatcher_alone :
    ¬ ∀ pattern value : List Char, PrecheckMatcherExact pattern value := by
  intro h
  have hloop : wildcardMatch ['*'] ['*', 'a'] = false := by
    simp [wildcardMatch, wildcardLoop]
  have htable : wildcardMatches ['*'] ['*', 'a'] = true := by decide
  have hagree := (h ['*'] ['*', 'a']).analysis (by decide)
  rw [htable, hloop] at hagree
  cases hagree

end

end SyncPlus
