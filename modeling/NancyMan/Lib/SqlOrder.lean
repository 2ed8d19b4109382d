import Mathlib.Data.List.Sort

/-!
# Truth and order of a query

A query's conditions are evaluated in three values, and its rows are ordered by several
columns, each with its NULLs last whatever the direction. `rowBefore` is the strict order of
rows; it is asymmetric and transitive, and two rows that it leaves unordered agree on every
order column, so sorting by columns that hold a key has one result.
-/
namespace NancyMan.Sql

/-- A truth value; the unknown one is `none`. -/
abbrev Truth := Option Bool

/-- The conjunction of two truth values. -/
def Truth.and : Truth → Truth → Truth
  | some false, _ => some false
  | _, some false => some false
  | some true, some true => some true
  | _, _ => none

/-- The disjunction of two truth values. -/
def Truth.or : Truth → Truth → Truth
  | some true, _ => some true
  | _, some true => some true
  | some false, some false => some false
  | _, _ => none

def Truth.holds (truth : Truth) : Bool := truth = some true

@[simp] theorem Truth.holds_and (left right : Truth) :
    (Truth.and left right).holds = (left.holds && right.holds) := by
  rcases left with _ | (_ | _) <;> rcases right with _ | (_ | _) <;> rfl

@[simp] theorem Truth.holds_or (left right : Truth) :
    (Truth.or left right).holds = (left.holds || right.holds) := by
  rcases left with _ | (_ | _) <;> rcases right with _ | (_ | _) <;> rfl

variable {α κ : Type*} [LinearOrder α]

/-- Whether a value of an order column comes strictly before another: in ascending or
descending order, and before NULL in either. -/
def precedes (ascending : Bool) : Option α → Option α → Bool
  | some left, some right => if ascending then left < right else right < left
  | some _, none => true
  | none, _ => false

/-- Whether a row comes strictly before another in the order of several columns, each
ascending or descending. -/
def rowBefore : List (κ × Bool) → (κ → Option α) → (κ → Option α) → Bool
  | [], _, _ => false
  | (column, ascending) :: columns, left, right =>
    precedes ascending (left column) (right column) ||
      (left column = right column && rowBefore columns left right)

@[simp] theorem precedes_self (ascending : Bool) (value : Option α) :
    precedes ascending value value = false := by
  cases value <;> simp [precedes]

variable {ascending : Bool} {columns : List (κ × Bool)}
  {left right first second third right' : κ → Option α} {rows rows' : List (κ → Option α)}

/-- Of two values at most one comes before the other. -/
theorem precedes_asymm {left right : Option α} (before : precedes ascending left right) :
    precedes ascending right left = false := by
  cases left with
  | none => simp [precedes] at before
  | some left =>
    cases right with
    | none => rfl
    | some right =>
      cases ascending <;> simp only [precedes, Bool.false_eq_true, if_false, if_true,
        decide_eq_true_eq, decide_eq_false_iff_not] at before ⊢ <;> exact not_lt_of_gt before

/-- Of two different values one comes before the other. -/
theorem precedes_total {left right : Option α} (different : left ≠ right) :
    precedes ascending left right ∨ precedes ascending right left := by
  cases left with
  | none =>
    cases right with
    | none => exact absurd rfl different
    | some right => exact .inr rfl
  | some left =>
    cases right with
    | none => exact .inl rfl
    | some right =>
      have apart : left ≠ right := fun same => different (congrArg some same)
      cases ascending
      · simpa [precedes] using (lt_or_gt_of_ne apart).symm
      · simpa [precedes] using lt_or_gt_of_ne apart

/-- A value before one that comes before a third comes before the third. -/
theorem precedes_trans {first second third : Option α} (one : precedes ascending first second)
    (two : precedes ascending second third) : precedes ascending first third := by
  cases first with
  | none => simp [precedes] at one
  | some first =>
    cases third with
    | none => rfl
    | some third =>
      cases second with
      | none => simp [precedes] at two
      | some second =>
        cases ascending <;> simp only [precedes, Bool.false_eq_true, if_false, if_true,
          decide_eq_true_eq] at one two ⊢
        · exact lt_trans two one
        · exact lt_trans one two

/-- Of two rows at most one comes before the other. -/
theorem rowBefore_asymm (before : rowBefore columns left right) :
    rowBefore columns right left = false := by
  induction columns with
  | nil => rfl
  | cons column columns ih =>
    simp only [rowBefore, Bool.or_eq_true, Bool.and_eq_true, decide_eq_true_eq] at before
    simp only [rowBefore, Bool.or_eq_false_iff, Bool.and_eq_false_imp, decide_eq_true_eq]
    rcases before with first | ⟨same, rest⟩
    · refine ⟨precedes_asymm first, fun same => ?_⟩
      rw [same, precedes_self] at first
      cases first
    · exact ⟨by rw [same, precedes_self], fun _ => ih rest⟩

/-- A row before one that comes before a third comes before the third. -/
theorem rowBefore_trans (one : rowBefore columns first second)
    (two : rowBefore columns second third) : rowBefore columns first third := by
  induction columns with
  | nil => cases one
  | cons column columns ih =>
    simp only [rowBefore, Bool.or_eq_true, Bool.and_eq_true, decide_eq_true_eq] at one two ⊢
    rcases one with one | ⟨sameOne, one⟩
    · rcases two with two | ⟨sameTwo, -⟩
      · exact .inl (precedes_trans one two)
      · exact .inl (sameTwo ▸ one)
    · rcases two with two | ⟨sameTwo, two⟩
      · exact .inl (sameOne ▸ two)
      · exact .inr ⟨sameOne.trans sameTwo, ih one two⟩

/-- Two rows that differ on an order column are ordered one way or the other. -/
theorem rowBefore_total (different : ∃ column ∈ columns, left column.1 ≠ right column.1) :
    rowBefore columns left right ∨
      rowBefore columns right left := by
  induction columns with
  | nil => simp at different
  | cons column columns ih =>
    simp only [rowBefore, Bool.or_eq_true, Bool.and_eq_true, decide_eq_true_eq]
    by_cases same : left column.1 = right column.1
    · obtain ⟨other, member, apart⟩ := different
      rcases List.mem_cons.mp member with rfl | later
      · exact absurd same apart
      · rcases ih ⟨other, later, apart⟩ with before | after
        · exact .inl (.inr ⟨same, before⟩)
        · exact .inr (.inr ⟨same.symm, after⟩)
    · rcases precedes_total same with before | after
      · exact .inl (.inl before)
      · exact .inr (.inl after)

/-- The order reads nothing of a row but its order columns. -/
theorem rowBefore_congr (agree : ∀ column ∈ columns, right column.1 = right' column.1) :
    rowBefore columns left right = rowBefore columns left right' := by
  induction columns with
  | nil => rfl
  | cons column columns ih =>
    rw [rowBefore, rowBefore, agree column (.head _),
      ih fun other member => agree other (.tail _ member)]

theorem rowBefore_agree {column : κ × Bool} (agree : left column.1 = right column.1) :
    rowBefore (column :: columns) left right = rowBefore columns left right := by
  simp [rowBefore, agree]

/-- Columns on which two rows agree may be left out. -/
theorem rowBefore_filter (keep : κ × Bool → Bool)
    (agree : ∀ column ∈ columns, keep column = false → left column.1 = right column.1) :
    rowBefore (columns.filter keep) left right = rowBefore columns left right := by
  induction columns with
  | nil => rfl
  | cons column columns ih =>
    have others := ih fun other member => agree other (.tail _ member)
    cases kept : keep column with
    | true =>
      rw [List.filter_cons_of_pos kept, rowBefore, rowBefore, others]
    | false =>
      rw [List.filter_cons_of_neg (by simp [kept]), others,
        rowBefore_agree (agree column (.head _) kept)]

def rowAtMost (columns : List (κ × Bool)) (left right : κ → Option α) : Prop :=
  rowBefore columns right left = false

instance (columns : List (κ × Bool)) : DecidableRel (rowAtMost (α := α) columns) :=
  fun _ _ => inferInstanceAs (Decidable (_ = false))

theorem rowAtMost_total (columns : List (κ × Bool)) (left right : κ → Option α) :
    rowAtMost columns left right ∨ rowAtMost columns right left := by
  unfold rowAtMost
  cases before : rowBefore columns right left with
  | false => exact .inl rfl
  | true => exact .inr (rowBefore_asymm before)

/-- A row that may come before one that may come before a third may come before the third. -/
theorem rowAtMost_trans (one : rowAtMost columns first second)
    (two : rowAtMost columns second third) : rowAtMost columns first third := by
  unfold rowAtMost at *
  by_contra reversed
  rw [Bool.not_eq_false] at reversed
  by_cases different : ∃ column ∈ columns, first column.1 ≠ second column.1
  · rcases rowBefore_total different with before | after
    · rw [rowBefore_trans reversed before] at two
      cases two
    · rw [one] at after
      cases after
  · push Not at different
    rw [rowBefore_congr different] at reversed
    rw [reversed] at two
    cases two

instance (columns : List (κ × Bool)) : Std.Total (rowAtMost (α := α) columns) :=
  ⟨rowAtMost_total columns⟩

instance (columns : List (κ × Bool)) : IsTrans (κ → Option α) (rowAtMost columns) :=
  ⟨fun _ _ _ => rowAtMost_trans⟩

/-- The rows in the order of some columns. -/
def orderRows (columns : List (κ × Bool)) (rows : List (κ → Option α)) : List (κ → Option α) :=
  rows.insertionSort (rowAtMost columns)

theorem orderRows_perm (columns : List (κ × Bool)) (rows : List (κ → Option α)) :
    (orderRows columns rows).Perm rows :=
  List.perm_insertionSort _ _

def Distinct (columns : List (κ × Bool)) (rows : List (κ → Option α)) : Prop :=
  rows.Pairwise fun left right => ∃ column ∈ columns, left column.1 ≠ right column.1

/-- Rows that differ pairwise on the order columns are strictly ordered. -/
theorem orderRows_strict (distinct : Distinct columns rows) :
    (orderRows columns rows).Pairwise
      fun left right => rowBefore columns left right := by
  have sorted := List.pairwise_insertionSort (rowAtMost columns) rows
  have differ : Distinct columns (orderRows columns rows) := by
    refine (orderRows_perm columns rows).symm.pairwise distinct ?_
    rintro left right ⟨column, member, apart⟩
    exact ⟨column, member, apart.symm⟩
  refine List.Pairwise.imp₂ ?_ sorted differ
  intro left right atMost apart
  rcases rowBefore_total apart with before | after
  · exact before
  · rw [atMost] at after
    cases after

/-- Strictly ordered lists of the same rows are one list. -/
theorem eq_of_strict {left right : List (κ → Option α)} (perm : left.Perm right)
    (leftStrict : left.Pairwise fun a b => rowBefore columns a b)
    (rightStrict : right.Pairwise fun a b => rowBefore columns a b) : left = right := by
  refine perm.eq_of_pairwise ?_ leftStrict rightStrict
  intro a b _ _ one two
  rw [rowBefore_asymm one] at two
  cases two

/-- Selecting rows before ordering them is selecting them after. -/
theorem orderRows_filter (keep : (κ → Option α) → Bool) (distinct : Distinct columns rows) :
    orderRows columns (rows.filter keep) =
      (orderRows columns rows).filter keep := by
  apply eq_of_strict
  · exact (orderRows_perm ..).trans ((orderRows_perm ..).symm.filter keep)
  · exact orderRows_strict (distinct.filter keep)
  · exact (orderRows_strict distinct).filter keep

/-! ## Related rows -/

/-- Rows that agree pairwise on the order columns come in one order. -/
theorem rowBefore_related {left' : κ → Option α}
    (lefts : ∀ column ∈ columns, left column.1 = left' column.1)
    (rights : ∀ column ∈ columns, right column.1 = right' column.1) :
    rowBefore columns left right = rowBefore columns left' right' := by
  induction columns with
  | nil => rfl
  | cons column columns ih =>
    rw [rowBefore, rowBefore, lefts column (.head _),
      rights column (.head _),
      ih (fun other member => lefts other (.tail _ member))
        (fun other member => rights other (.tail _ member))]

variable {related : (κ → Option α) → (κ → Option α) → Prop}

/-- A row takes the same place among rows that are related to others. -/
theorem orderedInsert_related
    (agree : ∀ left right, related left right → ∀ column ∈ columns, left column.1 = right column.1)
    {row row' : κ → Option α} (same : related row row') (others : List.Forall₂ related rows rows') :
    List.Forall₂ related (rows.orderedInsert (rowAtMost columns) row)
      (rows'.orderedInsert (rowAtMost columns) row') := by
  induction others with
  | nil => exact List.Forall₂.cons same List.Forall₂.nil
  | @cons first first' rest rest' firsts rests ih =>
    have placed : rowAtMost columns row first ↔ rowAtMost columns row' first' := by
      rw [rowAtMost, rowAtMost,
        rowBefore_related (agree first first' firsts) (agree row row' same)]
    rw [List.orderedInsert_cons, List.orderedInsert_cons]
    by_cases early : rowAtMost columns row first
    · rw [if_pos early, if_pos (placed.mp early)]
      exact List.Forall₂.cons same (List.Forall₂.cons firsts rests)
    · rw [if_neg early, if_neg fun other => early (placed.mpr other)]
      exact List.Forall₂.cons firsts ih

/-- Rows related to others that agree on the order columns are ordered as those are. -/
theorem orderRows_related
    (agree : ∀ left right, related left right → ∀ column ∈ columns, left column.1 = right column.1)
    (pairs : List.Forall₂ related rows rows') :
    List.Forall₂ related (orderRows columns rows) (orderRows columns rows') := by
  induction pairs with
  | nil => exact List.Forall₂.nil
  | cons same _ ih =>
    exact orderedInsert_related agree same ih

end NancyMan.Sql
