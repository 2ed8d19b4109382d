import Mathlib.Data.List.Basic

/-!
# Complete lines

Items are cut into lines at a stop; what comes after the last stop is no complete line yet. The
complete lines and the rest are the items that were there, so a reader that goes on after the complete
lines it has read returns each line once.
-/
namespace NancyMan.Lines

open List (mem_cons mem_cons_self splitOn_ne_nil)

variable {α : Type*} [BEq α] [LawfulBEq α]

def completeLines (stop : α) (items : List α) : List (List α) := (items.splitOn stop).dropLast

def lastLine (stop : α) (items : List α) : List α := (items.splitOn stop).getLastD []

def terminated (stop : α) (lines : List (List α)) : List α := lines.flatMap fun line => line ++ [stop]

omit [BEq α] [LawfulBEq α] in
@[simp] theorem terminated_nil (stop : α) : terminated stop [] = [] := rfl

omit [BEq α] [LawfulBEq α] in
@[simp] theorem terminated_cons (stop : α) (line : List α) (rest : List (List α)) :
    terminated stop (line :: rest) = line ++ stop :: terminated stop rest := by
  simp [terminated]

omit [BEq α] [LawfulBEq α] in
@[simp] theorem terminated_append (stop : α) (left right : List (List α)) :
    terminated stop (left ++ right) = terminated stop left ++ terminated stop right :=
  List.flatMap_append

omit [BEq α] [LawfulBEq α] in
/-- Lines joined by the stop, with one more stop at the end. -/
theorem intercalate_append_stop (stop : α) {lines : List (List α)} (filled : lines ≠ []) :
    [stop].intercalate lines ++ [stop] = terminated stop lines := by
  induction lines with
  | nil => exact absurd rfl filled
  | cons line rest ih =>
    cases rest with
    | nil => simp [terminated]
    | cons next rest =>
      have later := ih (List.cons_ne_nil _ _)
      rw [List.intercalate_cons_of_ne_nil (List.cons_ne_nil _ _), List.append_assoc,
        List.append_assoc, later]
      simp [terminated]

theorem completeLines_plain {stop : α} {items : List α} (plain : stop ∉ items) :
    completeLines stop items = [] := by
  rw [completeLines, List.splitOn_eq_singleton plain]
  rfl

theorem completeLines_cons {stop : α} {line : List α} (plain : stop ∉ line) (rest : List α) :
    completeLines stop (line ++ stop :: rest) = line :: completeLines stop rest := by
  rw [completeLines, List.splitOn_append_cons_self_of_not_mem plain,
    List.dropLast_cons_of_ne_nil (splitOn_ne_nil _ _)]
  rfl

omit [BEq α] [LawfulBEq α] in
/-- A text is known by its first line and what comes after it. -/
theorem first_line_inj {stop : α} {left right more rest : List α} (left_plain : stop ∉ left)
    (right_plain : stop ∉ right) (same : left ++ stop :: more = right ++ stop :: rest) :
    left = right ∧ more = rest := by
  induction left generalizing right with
  | nil =>
    cases right with
    | nil => exact ⟨rfl, (List.cons.inj same).2⟩
    | cons symbol right => exact absurd (List.cons.inj same).1 fun equal => right_plain (by simp [equal])
  | cons symbol left ih =>
    cases right with
    | nil => exact absurd (List.cons.inj same).1 fun equal => left_plain (by simp [equal])
    | cons other right =>
      obtain ⟨first, others⟩ := List.cons.inj same
      obtain ⟨lines, texts⟩ := ih (fun member => left_plain (.tail _ member))
        (fun member => right_plain (.tail _ member)) others
      exact ⟨by rw [first, lines], texts⟩

/-- Complete lines come before those of what follows them. -/
theorem completeLines_terminated_append {stop : α} {lines : List (List α)}
    (plain : ∀ line ∈ lines, stop ∉ line) (rest : List α) :
    completeLines stop (terminated stop lines ++ rest) = lines ++ completeLines stop rest := by
  induction lines with
  | nil => rfl
  | cons line others ih =>
    have same : terminated stop (line :: others) ++ rest =
        line ++ stop :: (terminated stop others ++ rest) := by
      simp [terminated]
    rw [same, completeLines_cons (plain line mem_cons_self),
      ih fun other member => plain other (.tail _ member)]
    rfl

theorem cut_first (stop : α) (items : List α) :
    stop ∉ items ∨ ∃ line rest, stop ∉ line ∧ items = line ++ stop :: rest := by
  by_cases present : stop ∈ items
  · obtain ⟨line, rest, cut, plain⟩ := List.eq_append_cons_of_mem present
    exact .inr ⟨line, rest, plain, cut⟩
  · exact .inl present

/-- What holds of items without a stop, and with a complete line before items of which it holds,
holds of all items. -/
theorem lines_induction (stop : α) {holds : List α → Prop}
    (last : ∀ items, stop ∉ items → holds items)
    (more : ∀ line rest, stop ∉ line → holds rest → holds (line ++ stop :: rest))
    (items : List α) : holds items := by
  generalize size : items.length = length
  induction length using Nat.strongRecOn generalizing items with
  | _ length ih =>
    rcases cut_first stop items with plain | ⟨line, rest, plain, rfl⟩
    · exact last items plain
    · rw [List.length_append, List.length_cons] at size
      exact more line rest plain (ih rest.length (by omega) rest rfl)

/-- The complete lines and the rest are the items. -/
theorem terminated_append_lastLine (stop : α) (items : List α) :
    terminated stop (completeLines stop items) ++ lastLine stop items = items := by
  induction items using lines_induction stop with
  | last items plain =>
    rw [completeLines_plain plain, lastLine, List.splitOn_eq_singleton plain]
    rfl
  | more line rest plain ih =>
    have next : lastLine stop (line ++ stop :: rest) = lastLine stop rest := by
      obtain ⟨head, tail, cut⟩ := List.exists_cons_of_ne_nil (splitOn_ne_nil stop rest)
      rw [lastLine, lastLine, List.splitOn_append_cons_self_of_not_mem plain, cut]
      rfl
    rw [completeLines_cons plain, next]
    conv_rhs => rw [← ih]
    simp [terminated]

/-- A complete line has no stop. -/
theorem plain_of_mem {stop : α} {items line : List α} (member : line ∈ completeLines stop items) :
    stop ∉ line := by
  induction items using lines_induction stop with
  | last items plain =>
    rw [completeLines_plain plain] at member
    cases member
  | more first rest plain ih =>
    rw [completeLines_cons plain] at member
    rcases mem_cons.mp member with rfl | later
    · exact plain
    · exact ih later

/-- What comes after the last stop has no stop. -/
theorem plain_lastLine (stop : α) (items : List α) : stop ∉ lastLine stop items := by
  induction items using lines_induction stop with
  | last items plain =>
    rw [lastLine, List.splitOn_eq_singleton plain]
    exact plain
  | more line rest plain ih =>
    obtain ⟨head, tail, cut⟩ := List.exists_cons_of_ne_nil (splitOn_ne_nil stop rest)
    rw [lastLine, cut] at ih
    rw [lastLine, List.splitOn_append_cons_self_of_not_mem plain, cut]
    exact ih

/-- A part between stops has none. -/
theorem stop_not_mem_of_mem_splitOn {stop : α} {items part : List α}
    (member : part ∈ items.splitOn stop) : stop ∉ part := by
  induction items generalizing part with
  | nil =>
    rw [List.splitOn_nil, List.mem_singleton] at member
    rw [member]
    exact List.not_mem_nil
  | cons item rest ih =>
    rw [List.splitOn_cons_eq_if_modifyHead] at member
    split at member
    · rcases mem_cons.mp member with rfl | later
      · exact List.not_mem_nil
      · exact ih later
    · next other =>
      cases parts : rest.splitOn stop with
      | nil => exact absurd parts (splitOn_ne_nil _ _)
      | cons first others =>
        rw [parts, List.modifyHead_cons] at member
        rcases mem_cons.mp member with rfl | later
        · intro inside
          rcases mem_cons.mp inside with rfl | inside
          · exact other (beq_self_eq_true _)
          · exact ih (parts ▸ (.head _)) inside
        · exact ih (parts ▸ .tail _ later)

omit [BEq α] [LawfulBEq α] in
/-- Items are cut at their last stop in one way. -/
theorem last_stop_inj {stop : α} {left right before rest : List α} (plain : stop ∉ rest)
    (plain' : stop ∉ right) (same : left ++ stop :: right = before ++ stop :: rest) :
    left = before ∧ right = rest := by
  rcases List.append_eq_append_iff.mp same with ⟨more, longer, tail⟩ | ⟨more, longer, tail⟩
  · cases more with
    | nil => exact ⟨by rw [longer, List.append_nil], (List.cons.inj tail).2⟩
    | cons item more =>
      have inside : stop ∈ right := by
        rw [(List.cons.inj tail).2]
        exact List.mem_append_right _ mem_cons_self
      exact absurd inside plain'
  · cases more with
    | nil => exact ⟨by rw [longer, List.append_nil], (List.cons.inj tail).2.symm⟩
    | cons item more =>
      have inside : stop ∈ rest := by
        rw [(List.cons.inj tail).2]
        exact List.mem_append_right _ mem_cons_self
      exact absurd inside plain

end NancyMan.Lines
