import Mathlib.Data.List.Basic

/-!
# Texts in pieces

Words, fields and lines: a text cut at separators, at the first place where a
pattern stands, and at the ends of its lines. Each is a function of lists over
any alphabet, with what it makes of a text that was put together that way.
-/

namespace SyncPlus

section

variable {α : Type}

/-! ## Words -/

/-- What is between separators, without what is empty. -/
def pieces (separator : α → Bool) (text : List α) : List (List α) :=
  (text.splitOnP separator).filter fun piece => !piece.isEmpty

variable {separator : α → Bool} {front back text piece : List α} {c : α}

@[simp] theorem pieces_nil : pieces separator [] = [] := by simp [pieces]

theorem pieces_append_cons (hc : separator c = true) :
    pieces separator (front ++ c :: back) = pieces separator front ++ pieces separator back := by
  rw [pieces, List.splitOnP_append_cons _ _ hc, List.filter_append, pieces, pieces]

theorem pieces_of_forall (hne : text ≠ []) (h : ∀ c ∈ text, separator c = false) :
    pieces separator text = [text] := by
  rw [pieces, List.splitOnP_eq_singleton h]
  simp [hne]

/-- What has no separator belongs to the first part. -/
theorem splitOnP_append_of_forall (h : ∀ c ∈ front, separator c = false) :
    (front ++ back).splitOnP separator = (back.splitOnP separator).modifyHead (front ++ ·) := by
  induction front with
  | nil => cases hback : back.splitOnP separator <;> simp [hback]
  | cons c front ih =>
      obtain ⟨hc, hfront⟩ := List.forall_mem_cons.mp h
      rw [List.cons_append, List.splitOnP_cons_eq_if_modifyHead, hc, ih hfront]
      cases back.splitOnP separator <;> rfl

/-- A text that does not begin with a separator has a first piece. -/
theorem pieces_ne_nil (hc : separator c = false) : pieces separator (c :: text) ≠ [] := by
  rw [pieces, List.splitOnP_cons_eq_if_modifyHead, hc]
  cases hrest : text.splitOnP separator with
  | nil => exact absurd hrest (List.splitOnP_ne_nil _ _)
  | cons first rest => simp

/-! ## The first occurrence -/

section

variable [DecidableEq α]

/-- What is before the first occurrence of a pattern, and what is after it. -/
def splitOnce (pattern : List α) : List α → Option (List α × List α)
  | [] => if pattern = [] then some ([], []) else none
  | c :: text =>
      if pattern.isPrefixOf (c :: text) then some ([], (c :: text).drop pattern.length)
      else (splitOnce pattern text).map fun cut => (c :: cut.1, cut.2)

variable {pattern : List α} {s m : α} {cut : List α × List α}

theorem splitOnce_here : splitOnce (s :: pattern) (s :: pattern ++ back) = some ([], back) := by
  have hway : (s :: pattern).isPrefixOf (s :: pattern ++ back) = true :=
    List.isPrefixOf_iff_prefix.mpr (List.prefix_append _ _)
  rw [List.cons_append] at hway ⊢
  rw [splitOnce, if_pos hway]
  simp

theorem splitOnce_cons (hnot : ¬ pattern <+: c :: text) (h : splitOnce pattern text = some cut) :
    splitOnce pattern (c :: text) = some (c :: cut.1, cut.2) := by
  have hnot' : ¬ pattern.isPrefixOf (c :: text) = true :=
    fun h => hnot (List.isPrefixOf_iff_prefix.mp h)
  rw [splitOnce, if_neg hnot', h]
  rfl

/-- Where the pattern does not begin. -/
theorem splitOnce_skip (hs : s ∉ front) (h : splitOnce (s :: pattern) text = some cut) :
    splitOnce (s :: pattern) (front ++ text) = some (front ++ cut.1, cut.2) := by
  induction front with
  | nil => exact h
  | cons c front ih =>
      rw [List.mem_cons, not_or] at hs
      refine splitOnce_cons (fun hway => hs.1 ?_) (ih hs.2)
      exact (List.cons_prefix_cons.mp hway).1

/-- A line of fields, none of which is the mark alone, is cut where the mark first stands
between separators. -/
theorem splitOnce_fields {fields : List (List α)} {first : List α} (hsm : s ≠ m)
    (hfirst : s ∉ first) (hfields : ∀ field ∈ fields, s ∉ field ∧ field ≠ [m]) :
    splitOnce [s, m, s] (first ++ (fields.flatMap (s :: ·) ++ s :: m :: s :: back)) =
      some (first ++ fields.flatMap (s :: ·), back) := by
  induction fields generalizing first with
  | nil =>
      have hhere : splitOnce [s, m, s] (s :: m :: s :: back) = some ([], back) := splitOnce_here
      exact splitOnce_skip hfirst hhere
  | cons field fields ih =>
      obtain ⟨⟨hs, hm⟩, hrest⟩ := List.forall_mem_cons.mp hfields
      have hnext := ih hs hrest
      have hnot : ¬ [s, m, s] <+:
          s :: (field ++ (fields.flatMap (s :: ·) ++ s :: m :: s :: back)) := by
        rintro ⟨after, heq⟩
        -- the field would be empty or the mark
        have heq' := List.cons.inj heq |>.2
        have hbehind : ∃ rest, fields.flatMap (s :: ·) ++ s :: m :: s :: back = s :: rest := by
          cases fields with
          | nil => exact ⟨_, rfl⟩
          | cons f fields => exact ⟨_, rfl⟩
        obtain ⟨rest, hbehind⟩ := hbehind
        rw [hbehind] at heq'
        rcases field with _ | ⟨a, _ | ⟨b, field⟩⟩
        · exact hsm (List.cons.inj heq').1.symm
        · obtain ⟨rfl, -⟩ := List.cons.inj heq'
          exact hm rfl
        · obtain ⟨-, hb⟩ := List.cons.inj heq'
          obtain ⟨rfl, -⟩ := List.cons.inj hb
          exact hs (by simp)
      have hstep := splitOnce_cons hnot hnext
      have hall := splitOnce_skip hfirst hstep
      simpa [List.append_assoc] using hall

/-! ## The last occurrence -/

/-- What is before the last occurrence of a pattern, and what is after it. -/
def splitLast (pattern : List α) : List α → Option (List α × List α)
  | [] => none
  | c :: text =>
      match splitLast pattern text with
      | some cut => some (c :: cut.1, cut.2)
      | none =>
          if pattern.isPrefixOf (c :: text) then some ([], (c :: text).drop pattern.length)
          else none

theorem splitLast_eq_some (h : splitLast pattern text = some cut) :
    text = cut.1 ++ pattern ++ cut.2 := by
  induction text generalizing cut with
  | nil => cases h
  | cons c text ih =>
      unfold splitLast at h
      split at h
      · rename_i inner hinner
        cases h
        rw [ih hinner]
        rfl
      · split at h
        · rename_i hway
          cases h
          exact (List.prefix_iff_eq_append.mp (List.isPrefixOf_iff_prefix.mp hway)).symm
        · cases h

/-- The pattern has a letter that the text has not. -/
theorem splitLast_eq_none (hm : m ∈ pattern) (htext : m ∉ text) :
    splitLast pattern text = none := by
  cases hcut : splitLast pattern text with
  | none => rfl
  | some cut =>
      refine absurd ?_ htext
      rw [splitLast_eq_some hcut]
      simp [hm]

/-- A pattern that begins with a letter it has only there, before a text in which it
cannot stand. -/
theorem splitLast_append (hs : s ∉ pattern) (hm : m ∈ pattern) (hback : m ∉ back) :
    splitLast (s :: pattern) (front ++ (s :: pattern ++ back)) = some (front, back) := by
  induction front with
  | nil =>
      -- no later occurrence begins inside the pattern
      have hlater : ∀ inner, (∀ c ∈ inner, c ≠ s) →
          splitLast (s :: pattern) (inner ++ back) = none := by
        intro inner hinner
        induction inner with
        | nil => exact splitLast_eq_none (List.mem_cons_of_mem _ hm) hback
        | cons c inner ih =>
            obtain ⟨hc, hrest⟩ := List.forall_mem_cons.mp hinner
            have hnot : ¬ (s :: pattern).isPrefixOf (c :: (inner ++ back)) = true := by
              intro hway
              exact hc (List.cons_prefix_cons.mp (List.isPrefixOf_iff_prefix.mp hway)).1.symm
            rw [List.cons_append, splitLast, ih hrest]
            exact if_neg hnot
      have hway : (s :: pattern).isPrefixOf (s :: (pattern ++ back)) = true :=
        List.isPrefixOf_iff_prefix.mpr (List.prefix_append _ _)
      rw [List.nil_append, List.cons_append, splitLast,
        hlater pattern fun c hc heq => hs (heq ▸ hc)]
      dsimp only
      rw [if_pos hway]
      simp
  | cons c front ih =>
      rw [List.cons_append, splitLast, ih]

end

/-! ## Lines -/

section

variable [DecidableEq α] {newline return' : α}

/-- A line without the return that ends it. -/
def stripEnd (mark : α) (line : List α) : List α :=
  if line.getLast? = some mark then line.dropLast else line

/-- The lines of a text: each line end is the newline, or a return before it, and what
follows the last line end is a line where it is not empty. -/
def linesOf (newline return' : α) (text : List α) : List (List α) :=
  let parts := text.splitOn newline
  parts.dropLast.map (stripEnd return') ++ parts.getLast?.toList.filter (!·.isEmpty)

/-- The lines that a text was put together from. -/
theorem linesOf_flatMap {lines : List (List α)} (h : ∀ line ∈ lines, newline ∉ line) :
    linesOf newline return' (lines.flatMap (· ++ [newline])) = lines.map (stripEnd return') := by
  have hsplit : (lines.flatMap (· ++ [newline])).splitOn newline = lines ++ [[]] := by
    induction lines with
    | nil => simp
    | cons line lines ih =>
        obtain ⟨hline, hlines⟩ := List.forall_mem_cons.mp h
        rw [List.flatMap_cons, List.append_assoc, List.singleton_append,
          List.splitOn_append_cons_self_of_not_mem hline, ih hlines]
        rfl
  rw [linesOf, hsplit]
  simp

theorem stripEnd_of_notMem {mark : α} {line : List α} (h : mark ∉ line) :
    stripEnd mark line = line :=
  if_neg fun hlast => h (List.mem_of_getLast? hlast)

theorem stripEnd_concat {mark b : α} {line : List α} :
    stripEnd mark (line ++ [b]) = if b = mark then line else line ++ [b] := by
  simp [stripEnd]

/-- What a return is stripped from keeps what stands before the end. -/
theorem stripEnd_append_cons (front back : List α) {mark : α} (hc : c ≠ mark) :
    ∃ back', stripEnd mark (front ++ c :: back) = front ++ c :: back' := by
  rcases List.eq_nil_or_concat back with rfl | ⟨back, b, rfl⟩
  · exact ⟨[], by rw [stripEnd_concat, if_neg hc]⟩
  · have hend : front ++ c :: back.concat b = (front ++ c :: back) ++ [b] := by simp
    rw [hend, stripEnd_concat]
    split
    · exact ⟨back, rfl⟩
    · exact ⟨back ++ [b], by simp⟩

end

/-! ## The greatest -/

/-- `Iterator::max_by_key`: among equals the last one. -/
def maxByKey (key : α → Nat) : List α → Option α
  | [] => none
  | a :: l =>
      match maxByKey key l with
      | none => some a
      | some b => if key b < key a then some a else some b

variable {key : α → Nat} {l : List α} {a : α}

@[simp] theorem maxByKey_eq_none : maxByKey key l = none ↔ l = [] := by
  cases l with
  | nil => simp [maxByKey]
  | cons a l =>
      unfold maxByKey
      split
      · simp
      · split <;> simp

/-- None before it is greater, and all after it are smaller. -/
theorem maxByKey_eq_some (h : maxByKey key l = some a) : ∃ before after,
    l = before ++ a :: after ∧ (∀ b ∈ before, key b ≤ key a) ∧ ∀ b ∈ after, key b < key a := by
  induction l generalizing a with
  | nil => cases h
  | cons x l ih =>
      unfold maxByKey at h
      split at h
      · rename_i hnone
        cases h
        exact ⟨[], l, rfl, by simp, by simp [maxByKey_eq_none.mp hnone]⟩
      · rename_i b hb
        obtain ⟨before, after, rfl, hbefore, hafter⟩ := ih hb
        split at h
        · rename_i hlt
          cases h
          refine ⟨[], _, rfl, by simp, ?_⟩
          simp only [List.mem_append, List.mem_cons]
          rintro c (hc | rfl | hc)
          · exact Nat.lt_of_le_of_lt (hbefore c hc) hlt
          · exact hlt
          · exact Nat.lt_trans (hafter c hc) hlt
        · rename_i hlt
          cases h
          refine ⟨x :: before, after, rfl, ?_, hafter⟩
          rw [List.forall_mem_cons]
          exact ⟨Nat.le_of_not_lt hlt, hbefore⟩

/-- The greatest is the one with none greater before it and only smaller ones after it. -/
theorem maxByKey_eq_some_iff : maxByKey key l = some a ↔ ∃ before after,
    l = before ++ a :: after ∧ (∀ b ∈ before, key b ≤ key a) ∧ ∀ b ∈ after, key b < key a := by
  constructor
  · exact maxByKey_eq_some
  · rintro ⟨before, after, rfl, hbefore, hafter⟩
    induction before with
    | nil =>
        rw [List.nil_append, maxByKey]
        cases hrest : maxByKey key after with
        | none => rfl
        | some b =>
            obtain ⟨front, back, rfl, -, -⟩ := maxByKey_eq_some hrest
            exact if_pos (hafter b (by simp))
    | cons x before ih =>
        obtain ⟨hx, hbefore⟩ := List.forall_mem_cons.mp hbefore
        rw [List.cons_append, maxByKey, ih hbefore]
        exact if_neg (by omega)

theorem maxByKey_mem (h : maxByKey key l = some a) : a ∈ l := by
  obtain ⟨before, after, rfl, -, -⟩ := maxByKey_eq_some h
  simp

theorem maxByKey_map {β : Type} {f : β → α} {l : List β} :
    maxByKey key (l.map f) = (maxByKey (fun b => key (f b)) l).map f := by
  induction l with
  | nil => rfl
  | cons b l ih =>
      rw [List.map_cons, maxByKey, maxByKey, ih]
      cases maxByKey (fun b => key (f b)) l with
      | none => rfl
      | some c =>
          simp only [Option.map_some]
          split <;> rfl

/-- Keys that order the elements in the same way. -/
theorem maxByKey_congr {key' : α → Nat}
    (h : ∀ a ∈ l, ∀ b ∈ l, key a < key b ↔ key' a < key' b) :
    maxByKey key l = maxByKey key' l := by
  induction l with
  | nil => rfl
  | cons a l ih =>
      have hrest : ∀ b ∈ l, ∀ c ∈ l, key b < key c ↔ key' b < key' c :=
        fun b hb c hc => h b (.tail _ hb) c (.tail _ hc)
      rw [maxByKey, maxByKey, ih hrest]
      cases hmax : maxByKey key' l with
      | none => rfl
      | some b =>
          have hb := h b (.tail _ (maxByKey_mem hmax)) a (.head _)
          simp only [hb]

end

end SyncPlus
