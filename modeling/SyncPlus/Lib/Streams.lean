import Mathlib.Data.List.Basic

/-!
# Streams in chunks

A reader takes a stream one element at a time: a step takes its state and an
element to the next state and what is put out (`feedEach`). What it makes of a
stream does not depend on how the stream was cut (`feedEach_flatten`). A relation
between the states before and after and the output that holds of nothing and is
kept by a step in front holds of every stream (`feedEach_rule`).

A stream of lines is its complete lines and what follows the last of them
(`exists_lines`).
-/

namespace SyncPlus

section

variable {σ α β : Type} (step : σ → α → σ × List β)

/-- The state after a chunk and what was put out. -/
def feedEach (state : σ) : List α → σ × List β
  | [] => (state, [])
  | a :: chunk =>
      let (state, first) := step state a
      let (state, rest) := feedEach state chunk
      (state, first ++ rest)

variable {step}

theorem feedEach_cons (state : σ) (a : α) (chunk : List α) :
    feedEach step state (a :: chunk) = ((feedEach step (step state a).1 chunk).1,
      (step state a).2 ++ (feedEach step (step state a).1 chunk).2) := rfl

theorem feedEach_append (state : σ) (chunk later : List α) :
    feedEach step state (chunk ++ later) =
      ((feedEach step (feedEach step state chunk).1 later).1,
        (feedEach step state chunk).2 ++ (feedEach step (feedEach step state chunk).1 later).2) := by
  induction chunk generalizing state with
  | nil => rfl
  | cons a chunk ih =>
      rw [List.cons_append, feedEach_cons, feedEach_cons, ih, List.append_assoc]

/-- However a stream is cut, it is read as a whole: fed chunk after chunk, it leaves the
state and puts out what the stream does. -/
theorem feedEach_flatten (state : σ) (chunks : List (List α)) :
    feedEach (feedEach step) state chunks = feedEach step state chunks.flatten := by
  induction chunks generalizing state with
  | nil => rfl
  | cons chunk chunks ih => rw [List.flatten_cons, feedEach_append, ← ih, feedEach_cons]

theorem feedEach_rule {R : σ → List β → σ → Prop} (hnil : ∀ state, R state [] state)
    (hstep : ∀ state a rest final, R (step state a).1 rest final →
      R state ((step state a).2 ++ rest) final) (state : σ) (stream : List α) :
    R state (feedEach step state stream).2 (feedEach step state stream).1 := by
  induction stream generalizing state with
  | nil => exact hnil state
  | cons a stream ih => exact hstep state a _ _ (ih _)

end

/-! ## Lines -/

section

variable {α : Type} (newline : α)

/-- The lines, each with its end. -/
def unlines (lines : List (List α)) : List α := lines.flatMap (· ++ [newline])

variable {newline}

theorem unlines_cons (line : List α) (lines : List (List α)) :
    unlines newline (line :: lines) = line ++ newline :: unlines newline lines := by
  rw [unlines, List.flatMap_cons, List.append_assoc]
  rfl

/-- Every stream is its lines and a last one without an end. -/
theorem exists_lines [DecidableEq α] (newline : α) (stream : List α) :
    ∃ lines tail, stream = unlines newline lines ++ tail ∧ (∀ line ∈ lines, newline ∉ line) ∧
      newline ∉ tail := by
  induction stream with
  | nil => exact ⟨[], [], rfl, List.forall_mem_nil _, List.not_mem_nil⟩
  | cons a stream ih =>
      obtain ⟨lines, tail, rfl, hlines, htail⟩ := ih
      by_cases ha : a = newline
      · refine ⟨[] :: lines, tail, ?_, List.forall_mem_cons.mpr ⟨List.not_mem_nil, hlines⟩, htail⟩
        rw [unlines_cons, ha]
        rfl
      · cases lines with
        | nil =>
            refine ⟨[], a :: tail, rfl, List.forall_mem_nil _, ?_⟩
            rw [List.mem_cons, not_or]
            exact ⟨fun h => ha h.symm, htail⟩
        | cons line lines =>
            obtain ⟨hline, hlines⟩ := List.forall_mem_cons.mp hlines
            refine ⟨(a :: line) :: lines, tail, ?_, List.forall_mem_cons.mpr ⟨?_, hlines⟩, htail⟩
            · rw [unlines_cons, unlines_cons]
              rfl
            · rw [List.mem_cons, not_or]
              exact ⟨fun h => ha h.symm, hline⟩

end

end SyncPlus
