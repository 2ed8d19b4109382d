import Mathlib.Data.List.Basic

/-!
# Pages of a list

A list is read in pages of a fixed size. A reader that remembers only the last element of its
page finds the rest of a strictly ordered list again as the elements after that one:
`filter_after_take`.
-/
namespace NancyMan.Keyset

variable {α : Type*}

/-- The pages of a list; an empty list has one empty page. -/
def pages (size : Nat) (rows : List α) : List (List α) :=
  if size = 0 ∨ rows.length ≤ size then [rows]
  else rows.take size :: pages size (rows.drop size)
termination_by rows.length
decreasing_by
  rw [List.length_drop]
  omega

variable {size : Nat} {rows : List α}

theorem pages_last (short : rows.length ≤ size) : pages size rows = [rows] := by
  rw [pages, if_pos (.inr short)]

theorem pages_more (positive : 0 < size) (long : size < rows.length) :
    pages size rows = rows.take size :: pages size (rows.drop size) := by
  rw [pages, if_neg (by omega)]

theorem pages_flatten (size : Nat) (rows : List α) : (pages size rows).flatten = rows := by
  induction rows using pages.induct size with
  | case1 rows short => rw [pages, if_pos short, List.flatten_singleton]
  | case2 rows long ih => rw [pages, if_neg long, List.flatten_cons, ih, List.take_append_drop]

/-- The elements of a strictly ordered list after one of them are those that follow it. -/
theorem filter_after {before : α → α → Bool} {front back : List α} {pivot : α}
    (asymmetric : ∀ left right, before left right → before right left = false)
    (ordered : (front ++ pivot :: back).Pairwise fun left right => before left right) :
    (front ++ pivot :: back).filter (before pivot) = back := by
  obtain ⟨-, tail, across⟩ := List.pairwise_append.mp ordered
  obtain ⟨after, -⟩ := List.pairwise_cons.mp tail
  have earlier : front.filter (before pivot) = [] := by
    rw [List.filter_eq_nil_iff]
    intro left member
    rw [asymmetric _ _ (across left member pivot (.head _))]
    exact Bool.false_ne_true
  have self : before pivot pivot = false := by
    cases loop : before pivot pivot with
    | false => rfl
    | true => exact loop.symm.trans (asymmetric _ _ loop)
  rw [List.filter_append, earlier, List.nil_append, List.filter_cons_of_neg (by simp [self]),
    List.filter_eq_self]
  exact after

/-- The last element of a page that is not the last, with what stands around it. -/
theorem take_split (positive : 0 < size) (long : size < rows.length) :
    ∃ front last, rows.take size = front ++ [last] ∧
      (rows.take size).getLast? = some last ∧ rows = front ++ last :: rows.drop size := by
  have nonempty : rows.take size ≠ [] := by
    intro empty
    have length := congrArg List.length empty
    rw [List.length_take, List.length_nil] at length
    omega
  refine ⟨(rows.take size).dropLast, (rows.take size).getLast nonempty,
    (List.dropLast_append_getLast nonempty).symm, List.getLast?_eq_some_getLast nonempty, ?_⟩
  calc
    rows = rows.take size ++ rows.drop size := (List.take_append_drop size rows).symm
    _ = ((rows.take size).dropLast ++ [(rows.take size).getLast nonempty]) ++ rows.drop size := by
      rw [List.dropLast_append_getLast nonempty]
    _ = (rows.take size).dropLast ++ (rows.take size).getLast nonempty :: rows.drop size := by
      rw [List.append_assoc, List.singleton_append]

end NancyMan.Keyset
