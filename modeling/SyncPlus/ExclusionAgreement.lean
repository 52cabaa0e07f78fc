import SyncPlus.ExclusionLanguages

/-!
# Exclusions of precheck and analysis

Where the two walks leave out the same items, said on texts: the letters of a
pattern, the text of a path and that of its last name, and what a pattern of `*`
and `?` matches. Below directories that are left in, the table of the precheck
is about both texts and the loop of the analysis about one of them
(`patternExcludes_iff`, `matchesExclusion_iff`). A pattern is then taken by one
of them alone in four ways only. The precheck drops a leading `./`, lets a `*`
run over a slash, and finds its way at a `*` of a name (`TableAlone`); the
analysis knows `?`, and keeps a leading `./` (`LoopAlone`). The walks agree on
every item exactly when each such pattern has one beside it that the other walk
takes (`exclusions_agree_iff`).
-/

namespace SyncPlus

open Wildcard (Matches)

/-! ## What the texts say -/

/-- The letters that the analysis goes by. -/
def analysisLetters (pattern : String) : List Char := trimEndSlashes pattern.toList

/-- The letters that the precheck goes by. -/
def precheckLetters (pattern : String) : List Char :=
  trimEndSlashes (trimStartDotSlash pattern.toList)

/-- What the table computes. -/
abbrev TableMatches (letters value : List Char) : Prop :=
  Matches (letters.map precheckWildcard) value

def fullText (lossy : LossyNames) (names : List Name) : List Char :=
  ['/'].intercalate (names.map lossy.text)

def lastText (lossy : LossyNames) (names : List Name) : List Char :=
  (names.getLast?.map lossy.text).getD []

/-- A pattern that ends with a slash is about directories only. -/
def Concerns (pattern : String) (itemType : ItemType) : Prop :=
  isDirectoryPattern pattern = true → itemType = .directory

section

variable (lossy : LossyNames) (pattern : String) (place : List Name × ItemType)

/-- The table takes the path or its last name. -/
def TableTakes : Prop :=
  TableMatches (precheckLetters pattern) (fullText lossy place.1) ∨
    TableMatches (precheckLetters pattern) (lastText lossy place.1)

/-- The loop takes the path for a pattern with a slash, else its last name. -/
def LoopTakes : Prop :=
  LoopMatches (analysisLetters pattern)
    (if '/' ∈ analysisLetters pattern then fullText lossy place.1 else lastText lossy place.1)

def LeftByPrecheck : Prop := Concerns pattern place.2 ∧ TableTakes lossy pattern place

def LeftByAnalysis : Prop :=
  Concerns pattern place.2 ∧ analysisLetters pattern ≠ [] ∧ LoopTakes lossy pattern place

/-- A `*` of a pattern without a slash runs over a slash of the path. -/
def RunsOverSlash : Prop :=
  '/' ∉ analysisLetters pattern ∧
    TableMatches (analysisLetters pattern) (fullText lossy place.1) ∧
    ¬ TableMatches (analysisLetters pattern) (lastText lossy place.1)

/-- The loop loses its way at a `*` of a name: the pattern matches, but never so that each
`*` that begins at a `*` takes exactly it. -/
def LosesItsWay : Prop :=
  TableMatches (analysisLetters pattern)
      (if '/' ∈ analysisLetters pattern then fullText lossy place.1 else lastText lossy place.1) ∧
    ¬ LoopTakes lossy pattern place

/-- The ways in which the precheck alone takes the pattern. -/
def TableAlone : Prop :=
  Concerns pattern place.2 ∧
    if ['.', '/'].isPrefixOf pattern.toList then TableTakes lossy pattern place
    else RunsOverSlash lossy pattern place ∨ LosesItsWay lossy pattern place

/-- The ways in which the analysis alone takes it. -/
def LoopAlone : Prop :=
  Concerns pattern place.2 ∧ analysisLetters pattern ≠ [] ∧ LoopTakes lossy pattern place ∧
    (['.', '/'].isPrefixOf pattern.toList = true ∨
      '?' ∈ analysisLetters pattern ∧
        ¬ TableMatches (analysisLetters pattern) (fullText lossy place.1) ∧
        ¬ TableMatches (analysisLetters pattern) (lastText lossy place.1))

end

/-- The names of a directory above the place. -/
def StandsAbove (above names : List Name) : Prop := above ≠ [] ∧ above <+: names ∧ above ≠ names

namespace WalkScope

/-- No pattern leaves out the place, in either walk. -/
def LeftIn (w : WalkScope) (place : List Name × ItemType) : Prop :=
  ∀ pattern ∈ w.exclusions,
    ¬ LeftByPrecheck w.lossy pattern place ∧ ¬ LeftByAnalysis w.lossy pattern place

/-- The directories above the place are left in. -/
def Reached (w : WalkScope) (names : List Name) : Prop :=
  ∀ above, StandsAbove above names → w.LeftIn (above, .directory)

/-- For each pattern that one walk alone takes there is one that the other takes. -/
def Covered (w : WalkScope) (place : List Name × ItemType) : Prop :=
  ∀ pattern ∈ w.exclusions,
    (TableAlone w.lossy pattern place →
      ∃ other ∈ w.exclusions, LeftByAnalysis w.lossy other place) ∧
    (LoopAlone w.lossy pattern place →
      ∃ other ∈ w.exclusions, LeftByPrecheck w.lossy other place)

end WalkScope

/-! ## Texts of paths -/

section

variable {lossy : LossyNames} {names : List Name} {pattern : String} {letters value : List Char}

theorem trimStartDotSlash_eq (h : ['.', '/'].isPrefixOf letters = false) :
    trimStartDotSlash letters = letters := by
  unfold trimStartDotSlash
  split
  · simp at h
  · rfl

theorem pathForMatching_pathOf (hvalid : ∀ name ∈ names, ValidName name) :
    pathForMatching lossy (pathOf names) = ['/'].intercalate (names.map lossy.text) := by
  rw [pathForMatching, components_pathOf hvalid, List.map_map]
  rfl

theorem splitOn_pathForMatching (hvalid : ∀ name ∈ names, ValidName name) (hne : names ≠ []) :
    (pathForMatching lossy (pathOf names)).splitOn '/' = names.map lossy.text := by
  rw [pathForMatching_pathOf hvalid]
  refine List.splitOn_intercalate _ ?_ (by simpa using hne)
  intro text htext
  obtain ⟨name, hname, rfl⟩ := List.mem_map.mp htext
  exact lossy.noSlash name (hvalid name hname).2.2.2.1

theorem text_subset_pathForMatching {name : Name} (hvalid : ∀ n ∈ names, ValidName n)
    (hname : name ∈ names) {c : Char} (h : c ∈ lossy.text name) :
    c ∈ pathForMatching lossy (pathOf names) := by
  rw [pathForMatching_pathOf hvalid]
  obtain ⟨before, after, rfl⟩ := List.append_of_mem hname
  induction before with
  | nil =>
      cases after with
      | nil => simpa [List.intercalate] using h
      | cons next after => simp [List.intercalate, h]
  | cons first before ih =>
      have hrest := ih (fun n hn => hvalid n (.tail _ hn)) (by simp)
      have hcons : (first :: before ++ name :: after).map lossy.text =
          lossy.text first :: (before ++ name :: after).map lossy.text := rfl
      rw [hcons, List.intercalate_cons_of_ne_nil (by simp), List.mem_append]
      exact .inr hrest

/-! ## One pattern at one place -/

theorem matches_slash (hslash : '/' ∈ letters) (h : TableMatches letters value) : '/' ∈ value :=
  h.letter_mem (List.mem_map.mpr ⟨'/', hslash, rfl⟩)

theorem lastText_concat {name : Name} : lastText lossy (names ++ [name]) = lossy.text name := by
  simp [lastText]

theorem fileName_pathOf {name : Name} (hvalid : ∀ n ∈ names ++ [name], ValidName n) :
    (pathOf (names ++ [name])).fileName = some name := by
  unfold PathBuf.fileName
  rw [components_pathOf hvalid, List.map_append, List.map_singleton, List.getLast?_concat]

/-- What the precheck asks of a pattern where no name above the last is taken. -/
theorem patternExcludes_iff {name : Name} {itemType : ItemType}
    (hvalid : ∀ n ∈ names ++ [name], ValidName n)
    (habove : ∀ n ∈ names, ¬ TableMatches (precheckLetters pattern) (lossy.text n)) :
    patternExcludes lossy (pathOf (names ++ [name])) (itemType = .directory) pattern = true ↔
      LeftByPrecheck lossy pattern (names ++ [name], itemType) := by
  have htakes : (∃ n ∈ names ++ [name],
      wildcardMatches (precheckLetters pattern) (lossy.text n) = true) ↔
        TableMatches (precheckLetters pattern) (lossy.text name) := by
    simp only [wildcardMatches_iff, List.mem_append, List.mem_singleton]
    constructor
    · rintro ⟨n, hn | rfl, hmatch⟩
      · exact absurd hmatch (habove n hn)
      · exact hmatch
    · intro hmatch
      exact ⟨name, .inr rfl, hmatch⟩
  have htexts : (wildcardMatches (precheckLetters pattern)
        (pathForMatching lossy (pathOf (names ++ [name]))) ||
      ((pathForMatching lossy (pathOf (names ++ [name]))).splitOn '/').any fun component =>
        wildcardMatches (precheckLetters pattern) component) = true ↔
      TableTakes lossy pattern (names ++ [name], itemType) := by
    rw [splitOn_pathForMatching hvalid (by simp), Bool.or_eq_true, List.any_map, List.any_eq_true]
    refine or_congr ?_ ?_
    · rw [wildcardMatches_iff, pathForMatching_pathOf hvalid]
      rfl
    · rw [lastText_concat]
      exact htakes
  unfold patternExcludes LeftByPrecheck Concerns
  dsimp only
  rw [← htexts]
  split <;> rename_i hdirectory
  · simp [hdirectory.1, decide_eq_false_iff_not.mp hdirectory.2]
  · rw [decide_eq_false_iff_not] at hdirectory
    rw [and_iff_right fun hpattern => not_not.mp fun htype => hdirectory ⟨hpattern, htype⟩]
    rfl

/-- What the analysis asks of a pattern where no name above the last is taken. -/
theorem matchesExclusion_iff {name : Name} {itemType : ItemType}
    (hvalid : ∀ n ∈ names ++ [name], ValidName n)
    (habove : analysisLetters pattern ≠ [] → '/' ∉ analysisLetters pattern →
      ∀ n ∈ names, ¬ LoopMatches (analysisLetters pattern) (lossy.text n)) :
    matchesExclusion lossy (pathOf (names ++ [name])) itemType pattern = true ↔
      LeftByAnalysis lossy pattern (names ++ [name], itemType) := by
  have hconcerns : Concerns pattern itemType ↔
      ¬ (isDirectoryPattern pattern = true ∧ itemType ≠ .directory) := by
    rw [not_and_not_right]
    rfl
  unfold matchesExclusion LeftByAnalysis LoopTakes
  dsimp only
  rw [fileName_pathOf hvalid, components_pathOf hvalid, lastText_concat, hconcerns]
  change _ ↔ _ ∧ trimEndSlashes pattern.toList ≠ [] ∧ LoopMatches (trimEndSlashes pattern.toList)
    (if '/' ∈ trimEndSlashes pattern.toList then _ else _)
  change trimEndSlashes pattern.toList ≠ [] → '/' ∉ trimEndSlashes pattern.toList →
    ∀ n ∈ names, ¬ LoopMatches (trimEndSlashes pattern.toList) _ at habove
  split <;> rename_i hempty
  · simp [hempty]
  · rw [and_iff_right hempty]
    split <;> rename_i hdirectory
    · simp [hdirectory]
    · rw [and_iff_right hdirectory]
      split <;> rename_i hslash
      · rw [wildcardMatch_iff_own, pathForMatching_pathOf hvalid]
        rfl
      · split
        · rw [List.any_map, List.any_eq_true]
          constructor
          · rintro ⟨n, hn, hmatch⟩
            have hmatch := wildcardMatch_iff_own.mp hmatch
            rcases List.mem_append.mp hn with hn | hn
            · exact absurd hmatch (habove hempty hslash n hn)
            · rwa [List.mem_singleton.mp hn] at hmatch
          · intro hmatch
            exact ⟨name, by simp, wildcardMatch_iff_own.mpr hmatch⟩
        · exact wildcardMatch_iff_own

/-! ## Patterns that one walk takes alone -/

variable {place : List Name × ItemType}

theorem precheckLetters_eq (h : ['.', '/'].isPrefixOf pattern.toList = false) :
    precheckLetters pattern = analysisLetters pattern :=
  congrArg trimEndSlashes (trimStartDotSlash_eq h)

theorem leftByPrecheck_of_tableAlone (h : TableAlone lossy pattern place) :
    LeftByPrecheck lossy pattern place := by
  obtain ⟨hconcerns, halone⟩ := h
  refine ⟨hconcerns, ?_⟩
  split at halone <;> rename_i hopens
  · exact halone
  · unfold TableTakes
    rw [precheckLetters_eq (Bool.eq_false_of_not_eq_true hopens)]
    rcases halone with ⟨-, hfull, -⟩ | ⟨hmatch, -⟩
    · exact .inl hfull
    · split at hmatch
      · exact .inl hmatch
      · exact .inr hmatch

theorem leftByAnalysis_of_loopAlone (h : LoopAlone lossy pattern place) :
    LeftByAnalysis lossy pattern place := ⟨h.1, h.2.1, h.2.2.1⟩

/-- A pattern that the precheck takes is taken by the analysis as well, or in one of the ways
of the precheck. -/
theorem leftByAnalysis_or {name : Name} {itemType : ItemType}
    (hlossy : ∀ n, n ≠ [] → lossy.text n ≠ []) (hvalid : ∀ n ∈ names ++ [name], ValidName n)
    (h : LeftByPrecheck lossy pattern (names ++ [name], itemType)) :
    LeftByAnalysis lossy pattern (names ++ [name], itemType) ∨
      TableAlone lossy pattern (names ++ [name], itemType) := by
  obtain ⟨hconcerns, htakes⟩ := h
  by_cases hopens : ['.', '/'].isPrefixOf pattern.toList = true
  · refine .inr ⟨hconcerns, ?_⟩
    rwa [if_pos hopens]
  unfold TableTakes at htakes
  rw [precheckLetters_eq (Bool.eq_false_of_not_eq_true hopens)] at htakes
  dsimp only at htakes
  have hlast : lastText lossy (names ++ [name]) ≠ [] := by
    rw [lastText_concat]
    exact hlossy name (hvalid name (by simp)).1
  have hfull : fullText lossy (names ++ [name]) ≠ [] := by
    rw [lastText_concat] at hlast
    obtain ⟨c, rest, hc⟩ := List.exists_cons_of_ne_nil hlast
    have hmem : c ∈ pathForMatching lossy (pathOf (names ++ [name])) :=
      text_subset_pathForMatching hvalid (List.mem_append_right _ (.head _)) (by rw [hc]; exact .head _)
    rw [pathForMatching_pathOf hvalid] at hmem
    exact List.ne_nil_of_mem hmem
  have hletters : analysisLetters pattern ≠ [] := by
    intro hnil
    rw [hnil] at htakes
    exact htakes.elim hfull hlast
  have hnoSlash : '/' ∉ lastText lossy (names ++ [name]) := by
    rw [lastText_concat]
    exact lossy.noSlash name (hvalid name (by simp)).2.2.2.1
  by_cases hloop : LoopTakes lossy pattern (names ++ [name], itemType)
  · exact .inl ⟨hconcerns, hletters, hloop⟩
  refine .inr ⟨hconcerns, ?_⟩
  rw [if_neg hopens]
  by_cases hslash : '/' ∈ analysisLetters pattern
  · -- the last name has no slash, so the path is what matches
    refine .inr ⟨?_, hloop⟩
    rw [if_pos hslash]
    exact htakes.resolve_right fun hmatch => hnoSlash (matches_slash hslash hmatch)
  · by_cases hmatch : TableMatches (analysisLetters pattern) (lastText lossy (names ++ [name]))
    · refine .inr ⟨?_, hloop⟩
      rwa [if_neg hslash]
    · exact .inl ⟨hslash, htakes.resolve_right hmatch, hmatch⟩

/-- A pattern that the analysis takes is taken by the precheck as well, or in one of the ways
of the analysis. -/
theorem leftByPrecheck_or (h : LeftByAnalysis lossy pattern place) :
    LeftByPrecheck lossy pattern place ∨ LoopAlone lossy pattern place := by
  obtain ⟨hconcerns, hletters, hloop⟩ := h
  by_cases hopens : ['.', '/'].isPrefixOf pattern.toList = true
  · exact .inr ⟨hconcerns, hletters, hloop, .inl hopens⟩
  by_cases htakes : TableTakes lossy pattern place
  · exact .inl ⟨hconcerns, htakes⟩
  refine .inr ⟨hconcerns, hletters, hloop, .inr ?_⟩
  unfold TableTakes at htakes
  rw [precheckLetters_eq (Bool.eq_false_of_not_eq_true hopens), not_or] at htakes
  refine ⟨?_, htakes⟩
  by_contra hany
  -- without `?` the two read the letters alike
  have hmatch := hloop.matches
  rw [← map_precheckWildcard hany] at hmatch
  split at hmatch
  · exact htakes.1 hmatch
  · exact htakes.2 hmatch

end

/-! ## The walks -/

theorem above_concat {names above : List Name} {name : Name} :
    StandsAbove above (names ++ [name]) ↔ above ≠ [] ∧ above <+: names := by
  unfold StandsAbove
  refine and_congr_right fun _ => ?_
  rw [List.prefix_concat_iff]
  constructor
  · rintro ⟨heq | h, hne⟩
    · exact absurd heq hne
    · exact h
  · intro h
    refine ⟨.inr h, fun heq => ?_⟩
    have hlength := h.length_le
    rw [heq, List.length_append, List.length_singleton] at hlength
    omega

theorem forall_prefix_nil {P : List Name → Prop} :
    ∀ above, above ≠ [] → above <+: [] → P above := by
  intro above hne h
  exact absurd (List.prefix_nil.mp h) hne

theorem forall_prefix_concat {P : List Name → Prop} {names : List Name} {name : Name} :
    (∀ above, above ≠ [] → above <+: names ++ [name] → P above) ↔
      (∀ above, above ≠ [] → above <+: names → P above) ∧ P (names ++ [name]) := by
  constructor
  · intro h
    refine ⟨fun above hne hopens => h above hne (hopens.trans (List.prefix_append _ _)), ?_⟩
    exact h _ (by simp) (List.prefix_refl _)
  · rintro ⟨hinit, hlast⟩ above hne h
    rcases List.prefix_concat_iff.mp h with rfl | h
    · exact hlast
    · exact hinit above hne h

namespace WalkScope

variable {w : WalkScope} {names : List Name} {name : Name} {itemType : ItemType}

theorem reached_concat : w.Reached (names ++ [name]) ↔
    ∀ above, above ≠ [] → above <+: names → w.LeftIn (above, .directory) := by
  constructor
  · intro h above hne hopens
    exact h above (above_concat.mpr ⟨hne, hopens⟩)
  · intro h above habove
    obtain ⟨hne, hopens⟩ := above_concat.mp habove
    exact h above hne hopens

/-- At a reached place no pattern takes a name above the last: it is the last name of a
directory that is left in. -/
theorem Reached.above {n : Name} (h : w.Reached (names ++ [name])) (hn : n ∈ names)
    {pattern : String} (hpattern : pattern ∈ w.exclusions) :
    ¬ TableMatches (precheckLetters pattern) (w.lossy.text n) ∧
      (analysisLetters pattern ≠ [] → '/' ∉ analysisLetters pattern →
        ¬ LoopMatches (analysisLetters pattern) (w.lossy.text n)) := by
  obtain ⟨front, back, rfl⟩ := List.append_of_mem hn
  obtain ⟨htable, hloop⟩ := reached_concat.mp h (front ++ [n]) (by simp) ⟨back, by simp⟩
    pattern hpattern
  have hconcerns : Concerns pattern .directory := fun _ => rfl
  constructor
  · intro hmatch
    refine htable ⟨hconcerns, .inr ?_⟩
    rwa [lastText_concat]
  · intro hletters hslash hmatch
    refine hloop ⟨hconcerns, hletters, ?_⟩
    unfold LoopTakes
    rwa [if_neg hslash, lastText_concat]

section

variable (hvalid : ∀ n ∈ names ++ [name], ValidName n) (hreached : w.Reached (names ++ [name]))

include hvalid hreached

theorem isExcluded_iff :
    isExcluded w.lossy (pathOf (names ++ [name])) (itemType = .directory) w.exclusions = true ↔
      ∃ pattern ∈ w.exclusions, LeftByPrecheck w.lossy pattern (names ++ [name], itemType) := by
  rw [isExcluded, List.any_eq_true]
  refine exists_congr fun pattern => and_congr_right fun hpattern => ?_
  exact patternExcludes_iff hvalid fun n hn => (hreached.above hn hpattern).1

theorem excludes_iff : w.excludes (pathOf (names ++ [name])) itemType = true ↔
    ∃ pattern ∈ w.exclusions, LeftByAnalysis w.lossy pattern (names ++ [name], itemType) := by
  rw [excludes, List.any_eq_true]
  refine exists_congr fun pattern => and_congr_right fun hpattern => ?_
  exact matchesExclusion_iff hvalid fun hletters hslash n hn =>
    (hreached.above hn hpattern).2 hletters hslash

theorem leftIn_iff : w.LeftIn (names ++ [name], itemType) ↔
    isExcluded w.lossy (pathOf (names ++ [name])) (itemType = .directory) w.exclusions = false ∧
      w.excludes (pathOf (names ++ [name])) itemType = false := by
  rw [← Bool.not_eq_true, ← Bool.not_eq_true, isExcluded_iff hvalid hreached,
    excludes_iff hvalid hreached]
  constructor
  · intro h
    exact ⟨fun ⟨pattern, hmem, hleft⟩ => (h pattern hmem).1 hleft,
      fun ⟨pattern, hmem, hleft⟩ => (h pattern hmem).2 hleft⟩
  · rintro ⟨hprecheck, hanalysis⟩ pattern hmem
    exact ⟨fun hleft => hprecheck ⟨pattern, hmem, hleft⟩,
      fun hleft => hanalysis ⟨pattern, hmem, hleft⟩⟩

/-- At a reached place the walks leave out the same exactly when what one alone takes is
covered. -/
theorem isExcluded_eq_iff (hlossy : ∀ n, n ≠ [] → w.lossy.text n ≠ []) :
    isExcluded w.lossy (pathOf (names ++ [name])) (itemType = .directory) w.exclusions =
        w.excludes (pathOf (names ++ [name])) itemType ↔
      w.Covered (names ++ [name], itemType) := by
  rw [Bool.eq_iff_iff, isExcluded_iff hvalid hreached, excludes_iff hvalid hreached]
  constructor
  · intro h pattern hmem
    exact ⟨fun halone => h.mp ⟨pattern, hmem, leftByPrecheck_of_tableAlone halone⟩,
      fun halone => h.mpr ⟨pattern, hmem, leftByAnalysis_of_loopAlone halone⟩⟩
  · intro hcovered
    constructor
    · rintro ⟨pattern, hmem, hleft⟩
      rcases leftByAnalysis_or hlossy hvalid hleft with hleft | halone
      · exact ⟨pattern, hmem, hleft⟩
      · exact (hcovered pattern hmem).1 halone
    · rintro ⟨pattern, hmem, hleft⟩
      rcases leftByPrecheck_or hleft with hleft | halone
      · exact ⟨pattern, hmem, hleft⟩
      · exact (hcovered pattern hmem).2 halone

end

/-- A place is reached when neither walk leaves out the directory above it: the induction
goes down the path. -/
theorem reached_iff (hvalid : ∀ n ∈ names, ValidName n) : w.Reached (names ++ [name]) ↔
    w.skippedAt ⟨[]⟩ names .directory = false ∧
      w.excludedAt ⟨[]⟩ false names .directory = false := by
  induction names using List.reverseRecOn generalizing name with
  | nil => exact iff_of_true (reached_concat.mpr forall_prefix_nil) ⟨rfl, rfl⟩
  | append_singleton names last ih =>
      have hinit : ∀ n ∈ names, ValidName n := fun n hn => hvalid n (List.mem_append_left _ hn)
      have habove : w.Reached (names ++ [last]) ↔ _ := reached_concat
      have hwalks : w.Reached (names ++ [last]) ↔ _ := ih hinit
      rw [reached_concat, forall_prefix_concat, ← habove, skippedAt_concat, excludedAt_concat,
        Bool.or_eq_false_iff, Bool.or_eq_false_iff, and_and_and_comm, ← hwalks]
      refine and_congr_right fun hreached => ?_
      rw [leftIn_iff hvalid hreached]
      rfl

variable {entries : Entries} {found : Found}

/-- **The walks leave out the same places** when what one alone takes is covered: the
induction goes down the path of the place. -/
theorem skippedAt_eq (hlossy : ∀ n, n ≠ [] → w.lossy.text n ≠ []) (hwf : entries.WellFormed)
    (hcovered : ∀ place ∈ entries.located, w.Visible place → w.Reached place.1 →
      w.Covered (place.1, place.2.itemType))
    (h : (names ++ [name], found) ∈ entries.located)
    (hvisible : w.Visible (names ++ [name], found)) :
    w.skippedAt ⟨[]⟩ (names ++ [name]) found.itemType =
      w.excludedAt ⟨[]⟩ false (names ++ [name]) found.itemType := by
  have hhere : ∀ {names name found}, (names ++ [name], found) ∈ entries.located →
      w.Visible (names ++ [name], found) → w.Reached (names ++ [name]) →
        isExcluded w.lossy (pathOf (names ++ [name])) (found.itemType = .directory) w.exclusions =
          w.excludes (pathOf (names ++ [name])) found.itemType := by
    intro names name found h hvisible hreached
    exact (isExcluded_eq_iff (hwf.valid h) hreached hlossy).mpr (hcovered _ h hvisible hreached)
  induction names using List.reverseRecOn generalizing name found with
  | nil =>
      rw [skippedAt_concat, excludedAt_concat]
      exact congrArg (false || ·) (hhere h hvisible (reached_concat.mpr forall_prefix_nil))
  | append_singleton names last ih =>
      obtain ⟨found', habove, htype⟩ := Entries.located_above h (by simp)
      have hvisible' : w.Visible (names ++ [last], found') :=
        fun n hn => hvisible n (List.mem_append_left _ hn)
      have hsame := ih habove hvisible'
      rw [htype] at hsame
      rw [skippedAt_concat, excludedAt_concat, hsame]
      cases hout : w.excludedAt ⟨[]⟩ false (names ++ [last]) .directory with
      | true => rfl
      | false =>
          exact congrArg (false || ·)
            (hhere h hvisible ((reached_iff (hwf.valid habove)).mpr ⟨hsame.trans hout, hout⟩))

/-- Where the walks leave out the same places, what one alone takes is covered. -/
theorem covered_of_skippedAt_eq (hlossy : ∀ n, n ≠ [] → w.lossy.text n ≠ [])
    (hvalid : ∀ n ∈ names ++ [name], ValidName n) (hreached : w.Reached (names ++ [name]))
    (h : w.skippedAt ⟨[]⟩ (names ++ [name]) itemType =
      w.excludedAt ⟨[]⟩ false (names ++ [name]) itemType) :
    w.Covered (names ++ [name], itemType) := by
  obtain ⟨hskipped, hexcluded⟩ :=
    (reached_iff fun n hn => hvalid n (List.mem_append_left _ hn)).mp hreached
  rw [skippedAt_concat, excludedAt_concat, hskipped, hexcluded, Bool.false_or,
    Bool.false_or] at h
  exact (isExcluded_eq_iff hvalid hreached hlossy).mp h

end WalkScope

/-- **When precheck and analysis agree on exclusions.** The precheck leaves out
exactly the items that the analysis marks Excluded, when and only when every
pattern that one of them alone takes is covered, at every reached place. -/
theorem exclusions_agree_iff {w : WalkScope} {peer : String} {root : PathBuf} {tree : FileTree}
    {inventory : SourceInventory} {paths : List PathBuf}
    (hlossy : ∀ name, name ≠ [] → w.lossy.text name ≠ [])
    (hanalysis : w.collectInventory peer root tree = .ok inventory)
    (hprecheck : w.collectEntries root tree = .ok paths) :
    (∀ item ∈ inventory.items, item.relativePath ∉ paths ↔ item.outcome = .excluded) ↔
      ∀ place ∈ tree.entries.located, w.Visible place → w.Reached place.1 →
        w.Covered (place.1, place.2.itemType) := by
  have hmem : ∀ item, item ∈ inventory.items ↔
      ∃ place ∈ tree.entries.located, w.Visible place ∧ w.itemAt ⟨[]⟩ false place = item := by
    intro item
    rw [(WalkScope.collectInventory_perm hanalysis).mem_iff, List.mem_map]
    simp [and_assoc]
  have hskipped : ∀ place ∈ tree.entries.located, pathOf place.1 ∉ paths ↔
      w.skippedAt ⟨[]⟩ place.1 place.2.itemType = true := by
    intro place hplace
    rw [← Bool.not_eq_false, WalkScope.mem_collectEntries hprecheck, not_iff_not]
    constructor
    · rintro ⟨place', hplace', hfalse, heq⟩
      have hnames := (pathOf_inj (tree.wellFormed.valid hplace)
        (tree.wellFormed.valid hplace')).mp (congrArg PathBuf.components heq)
      rwa [List.inj_on_of_nodup_map tree.wellFormed.nodup hplace hplace' hnames]
    · intro hfalse
      exact ⟨place, hplace, hfalse, rfl⟩
  have hexcluded : ∀ place : List Name × Found,
      (w.itemAt ⟨[]⟩ false place).outcome = .excluded ↔
        w.excludedAt ⟨[]⟩ false place.1 place.2.itemType = true := by
    intro place
    show analysisOutcome _ _ = .excluded ↔ _
    unfold analysisOutcome
    split <;> rename_i h
    · simp [h]
    · rw [iff_false_right h]
      split <;> simp
  constructor
  · intro h place hplace hvisible hreached
    obtain ⟨names, name, hnames⟩ : ∃ names name, place.1 = names ++ [name] := by
      rcases List.eq_nil_or_concat place.1 with hnil | ⟨names, name, hnames⟩
      · exact absurd hnil (Entries.located_ne_nil hplace)
      · exact ⟨names, name, hnames.trans (List.concat_eq_append)⟩
    obtain ⟨path, found⟩ := place
    dsimp only at hnames
    subst hnames
    refine WalkScope.covered_of_skippedAt_eq hlossy (tree.wellFormed.valid hplace) hreached ?_
    rw [Bool.eq_iff_iff, ← hskipped _ hplace, ← hexcluded (names ++ [name], found)]
    exact h _ ((hmem _).mpr ⟨_, hplace, hvisible, rfl⟩)
  · intro h item hitem
    obtain ⟨place, hplace, hvisible, rfl⟩ := (hmem item).mp hitem
    rw [hexcluded, WalkScope.relativePath_itemAt, hskipped _ hplace]
    obtain ⟨path, found⟩ := place
    rcases List.eq_nil_or_concat path with hnil | ⟨names, name, hnames⟩
    · exact absurd hnil (Entries.located_ne_nil hplace)
    · rw [List.concat_eq_append] at hnames
      subst hnames
      rw [← Bool.eq_iff_iff]
      exact WalkScope.skippedAt_eq hlossy tree.wellFormed h hplace hvisible

/-! ### A file that only one walk leaves out -/

/-- A name that is no text reads as the replacement character. -/
def LossyNames.replacing : LossyNames where
  text name := ((PathBuf.toText ⟨name⟩).map String.toList).getD [Char.ofNat 0xFFFD]
  text_eq text := by
    have htext := PathBuf.toText_ofText text
    rw [PathBuf.ofText] at htext
    rw [htext]
    rfl
  noSlash name hname := by
    cases htext : PathBuf.toText ⟨name⟩ with
    | none => decide
    | some text =>
        intro hmem
        have hbytes : text.toByteArray.data.toList = name :=
          congrArg PathBuf.bytes (PathBuf.ofText_toText htext)
        exact hname (hbytes ▸ slash_mem_of_mem_text hmem)

theorem LossyNames.replacing_ne_nil (name : Name) (h : name ≠ []) :
    LossyNames.replacing.text name ≠ [] := by
  unfold replacing
  dsimp only
  cases htext : PathBuf.toText ⟨name⟩ with
  | none => simp
  | some text =>
      intro hnil
      have hempty : text = "" := String.toList_eq_nil_iff.mp hnil
      have hbytes : text.toByteArray.data.toList = name :=
        congrArg PathBuf.bytes (PathBuf.ofText_toText htext)
      rw [hempty] at hbytes
      exact h hbytes.symm

/-- The tree with the file `a1` alone. -/
def numberedTree : FileTree :=
  .ofEntries (.cons [97, 49] (plainFile zeroHash) .nil .nil) (by decide)

def numberedItem : InventoryItem := inventoryItem ⟨[97, 49]⟩ true (plainFile zeroHash)

theorem numbered_match : wildcardMatch ['a', '*'] ['a', '1'] = true ∧
    wildcardMatch ['a', '?'] ['a', '1'] = true := by
  constructor
  · simp [wildcardMatch, wildcardLoop]
  · simp [wildcardMatch, wildcardLoop]

theorem numbered_excludes :
    WalkScope.excludes ⟨.replacing, ["a?", "a*"]⟩ ⟨[97, 49]⟩ .regularFile = true ∧
      WalkScope.excludes ⟨.replacing, ["a?"]⟩ ⟨[97, 49]⟩ .regularFile = true := by
  obtain ⟨hstar, hany⟩ := numbered_match
  constructor
  · refine List.any_eq_true.mpr ⟨"a*", by simp, ?_⟩
    rw [← hstar]
    rfl
  · refine List.any_eq_true.mpr ⟨"a?", .head _, ?_⟩
    rw [← hany]
    rfl

theorem collectInventory_numbered {w : WalkScope}
    (h : w.excludes ⟨[97, 49]⟩ .regularFile = true)
    (hname : isSyncplusInternalArtifact w.lossy [97, 49] = false) :
    w.collectInventory "Laptop" ⟨[47, 97]⟩ numberedTree = .ok ⟨[numberedItem]⟩ := by
  have hjoin : (⟨[]⟩ : PathBuf).join ⟨[97, 49]⟩ = ⟨[97, 49]⟩ := by decide
  have hexcluded : (false || w.excludes ⟨[97, 49]⟩ (plainFile zeroHash).itemType) = true := h
  simp only [WalkScope.collectInventory, numberedTree, FileTree.ofEntries, WalkScope.walkDirectory,
    hname, hjoin, hexcluded]
  rfl

theorem numbered_entries :
    WalkScope.collectEntries ⟨.replacing, ["a?", "a*"]⟩ ⟨[47, 97]⟩ numberedTree = .ok [] ∧
      WalkScope.collectEntries ⟨.replacing, ["a?"]⟩ ⟨[47, 97]⟩ numberedTree =
        .ok [⟨[97, 49]⟩] ∧
      isSyncplusInternalArtifact .replacing [97, 49] = false ∧
      wildcardMatches (precheckLetters "a*") (lastText .replacing [[97, 49]]) = true := by
  decide +kernel

/-- Only the analysis takes `a1` for `a?`, and the pattern `a*` beside it covers that. -/
theorem numbered_covered :
    LoopAlone .replacing "a?" ([[97, 49]], .regularFile) ∧
      WalkScope.Covered ⟨.replacing, ["a?", "a*"]⟩ ([[97, 49]], .regularFile) := by
  obtain ⟨hstar, hany⟩ := numbered_match
  have hconcerns : Concerns "a?" .regularFile ∧ Concerns "a*" .regularFile :=
    ⟨by unfold Concerns; decide, by unfold Concerns; decide⟩
  have htable : ∀ text ∈ [fullText .replacing [[97, 49]], lastText .replacing [[97, 49]]],
      ¬ TableMatches (analysisLetters "a?") text := by
    simp only [← wildcardMatches_iff]
    decide +kernel
  have hprecheck : LeftByPrecheck .replacing "a*" ([[97, 49]], .regularFile) :=
    ⟨hconcerns.2, .inr (wildcardMatches_iff.mp numbered_entries.2.2.2)⟩
  have hanalysis : LeftByAnalysis .replacing "a*" ([[97, 49]], .regularFile) :=
    ⟨hconcerns.2, by decide, wildcardMatch_iff_own.mp hstar⟩
  refine ⟨⟨hconcerns.1, by decide, wildcardMatch_iff_own.mp hany, .inr ⟨by decide, ?_⟩⟩, ?_⟩
  · exact ⟨htable _ (.head _), htable _ (.tail _ (.head _))⟩
  · intro pattern _
    exact ⟨fun _ => ⟨"a*", by simp, hanalysis⟩, fun _ => ⟨"a*", by simp, hprecheck⟩⟩

/-- Both walks leave out the file for the patterns `a?` and `a*`. -/
theorem exclusions_agree_star :
    LoopAlone .replacing "a?" ([[97, 49]], .regularFile) ∧
      WalkScope.collectEntries ⟨.replacing, ["a?", "a*"]⟩ ⟨[47, 97]⟩ numberedTree = .ok [] ∧
      ∀ item ∈ [numberedItem], item.relativePath ∉ ([] : List PathBuf) ↔
        item.outcome = .excluded := by
  obtain ⟨hentries, -, hname, -⟩ := numbered_entries
  obtain ⟨halone, hcovered⟩ := numbered_covered
  refine ⟨halone, hentries, (exclusions_agree_iff LossyNames.replacing_ne_nil
    (collectInventory_numbered numbered_excludes.1 hname) hentries).mpr ?_⟩
  intro place hplace _ _
  obtain rfl := List.mem_singleton.mp hplace
  exact hcovered

/-- The analysis alone leaves it out for the pattern `a?`. -/
theorem exclusions_differ :
    ¬ ∀ (w : WalkScope) (peer : String) (root : PathBuf) (tree : FileTree)
      (inventory : SourceInventory) (paths : List PathBuf),
      (∀ name, name ≠ [] → w.lossy.text name ≠ []) →
        (∀ pattern ∈ w.exclusions, validateExclusionPattern pattern = .ok ()) →
        w.collectInventory peer root tree = .ok inventory →
        w.collectEntries root tree = .ok paths →
          ∀ item ∈ inventory.items, item.relativePath ∉ paths ↔ item.outcome = .excluded := by
  intro h
  obtain ⟨-, hentries, hname, -⟩ := numbered_entries
  have haccepted : ∀ pattern ∈ ["a?"], validateExclusionPattern pattern = .ok () := by
    decide +kernel
  have hagree := h ⟨.replacing, ["a?"]⟩ _ _ _ _ _ LossyNames.replacing_ne_nil haccepted
    (collectInventory_numbered numbered_excludes.2 hname) hentries numberedItem (.head _)
  exact hagree.mpr rfl (.head _)

end SyncPlus
