import Mathlib.Data.List.Basic

/-!
# Ranges of a list and what takes their place

A replacement names a range by two positions of the list as it was. Replacements with ranges
apart may be made one after the other, the last range first, since each leaves the positions
before its range where they were. `applyAll_eq_spliced` says that this gives the list that a
single pass from the front would write.
-/
namespace NancyMan

/-- A range of a list and the items to stand there. -/
structure Replacement (α : Type) where
  start : Nat
  stop : Nat
  content : List α

namespace Replacement

variable {α : Type}

def apply (replacement : Replacement α) (items : List α) : List α :=
  items.take replacement.start ++ replacement.content ++ items.drop replacement.stop

def applyAll (replacements : List (Replacement α)) (items : List α) : List α :=
  replacements.foldr apply items

/-- The ranges stand in order, do not overlap, and lie between two positions. -/
def Apart (offset length : Nat) : List (Replacement α) → Prop
  | [] => offset ≤ length
  | replacement :: rest =>
    offset ≤ replacement.start ∧ replacement.start ≤ replacement.stop ∧
      Apart replacement.stop length rest

/-- The items from a position on, written from the front with the ranges replaced. -/
def spliced (offset : Nat) (items : List α) : List (Replacement α) → List α
  | [] => items
  | replacement :: rest =>
    items.take (replacement.start - offset) ++ replacement.content ++
      spliced replacement.stop (items.drop (replacement.stop - offset)) rest

variable {offset length : Nat} {replacements : List (Replacement α)} {items : List α}

/-- Ranges apart lie within their bounds. -/
theorem Apart.le (apart : Apart offset length replacements) : offset ≤ length := by
  induction replacements generalizing offset with
  | nil => exact apart
  | cons replacement rest ih =>
    obtain ⟨after, ordered, others⟩ := apart
    have within := ih others
    omega

/-- Ranges apart from a position are apart from any position before it. -/
theorem Apart.weaken {earlier : Nat} (apart : Apart offset length replacements)
    (before : earlier ≤ offset) : Apart earlier length replacements := by
  cases replacements with
  | nil => exact Nat.le_trans before apart
  | cons replacement rest =>
    obtain ⟨after, ordered, others⟩ := apart
    exact ⟨Nat.le_trans before after, ordered, others⟩

/-- Made from the last to the first, replacements apart write the spliced list. -/
theorem applyAll_append (kept items : List α) (apart : Apart kept.length length replacements)
    (bound : length = kept.length + items.length) :
    applyAll replacements (kept ++ items) = kept ++ spliced kept.length items replacements := by
  induction replacements generalizing kept items with
  | nil => rfl
  | cons replacement rest ih =>
    obtain ⟨after, ordered, others⟩ := apart
    have within := others.le
    -- Everything up to the end of the first range is kept by the later replacements.
    have cut : kept ++ items = (kept ++ items.take (replacement.stop - kept.length)) ++
        items.drop (replacement.stop - kept.length) := by
      rw [List.append_assoc, List.take_append_drop]
    have length_cut :
        (kept ++ items.take (replacement.stop - kept.length)).length = replacement.stop := by
      rw [List.length_append, List.length_take]
      omega
    have later := ih (kept ++ items.take (replacement.stop - kept.length))
      (items.drop (replacement.stop - kept.length)) (by rw [length_cut]; exact others)
      (by rw [length_cut, List.length_drop]; omega)
    rw [length_cut] at later
    have first : applyAll (replacement :: rest) (kept ++ items)
        = apply replacement (applyAll rest (kept ++ items)) := rfl
    rw [first, cut, later, apply, spliced, List.drop_left' length_cut]
    have front : ((kept ++ items.take (replacement.stop - kept.length)) ++
          spliced replacement.stop (items.drop (replacement.stop - kept.length)) rest).take
            replacement.start
        = kept ++ items.take (replacement.start - kept.length) := by
      rw [List.take_append_of_le_length (by rw [length_cut]; exact ordered), List.take_append,
        List.take_take, List.take_of_length_le after]
      congr 2
      omega
    rw [front]
    simp only [List.append_assoc]

theorem applyAll_eq_spliced (apart : Apart 0 items.length replacements) :
    applyAll replacements items = spliced 0 items replacements := by
  simpa using applyAll_append [] items apart (by simp)

/-- Items before every range are kept. -/
theorem spliced_append (offset : Nat) (kept items : List α)
    (apart : Apart (offset + kept.length) length replacements) :
    spliced offset (kept ++ items) replacements
      = kept ++ spliced (offset + kept.length) items replacements := by
  cases replacements with
  | nil => rfl
  | cons replacement rest =>
    obtain ⟨after, ordered, others⟩ := apart
    have start : replacement.start - offset
        = kept.length + (replacement.start - (offset + kept.length)) := by omega
    have stop : replacement.stop - offset
        = kept.length + (replacement.stop - (offset + kept.length)) := by omega
    rw [spliced, spliced, start, stop, List.take_length_add_append, List.drop_length_add_append]
    simp only [List.append_assoc]

/-- A range is replaced where it stands, and the rest is written after it. -/
theorem spliced_cons (rest : List (Replacement α)) (offset : Nat)
    (front old content back : List α) :
    spliced offset (front ++ old ++ back)
        (⟨offset + front.length, offset + front.length + old.length, content⟩ :: rest)
      = front ++ content ++ spliced (offset + front.length + old.length) back rest := by
  have start : offset + front.length - offset = front.length := by omega
  have stop : offset + front.length + old.length - offset = (front ++ old).length := by
    rw [List.length_append]
    omega
  rw [spliced, start, stop, List.drop_left, List.append_assoc front old back, List.take_left]

/-- What is written is kept or stands in a range. -/
theorem mem_spliced {item : α} (member : item ∈ spliced offset items replacements) :
    item ∈ items ∨ ∃ replacement ∈ replacements, item ∈ replacement.content := by
  induction replacements generalizing offset items with
  | nil => exact .inl member
  | cons replacement rest ih =>
    rw [spliced, List.append_assoc] at member
    rcases List.mem_append.mp member with front | member
    · exact .inl (List.mem_of_mem_take front)
    · rcases List.mem_append.mp member with content | later
      · exact .inr ⟨replacement, (.head _), content⟩
      · rcases ih later with kept | ⟨other, isLater, content⟩
        · exact .inl (List.mem_of_mem_drop kept)
        · exact .inr ⟨other, .tail _ isLater, content⟩

end Replacement
end NancyMan
