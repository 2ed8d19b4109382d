import Mathlib.Algebra.Group.WithOne.Basic
import Mathlib.Data.Finmap
import Mathlib.Data.Finset.Sort

/-!
# Tables that are changed in batches

A keyed table has one value for each of its keys. Where values add up, an upsert that adds leaves
the sum of what was there and what was added, so the order and the cutting of many upserts do not
matter. Rows are taken out of a list by their ids, of which a batch selects some; what is taken out
and what is left are the rows that were there.
-/
namespace NancyMan

open List (map_cons mem_cons mem_cons_self mem_filter nodup_cons)

abbrev Table (κ ν : Type) := Finmap fun _ : κ => ν

namespace Table

variable {κ ν : Type} [DecidableEq κ]

/-- A value, combined with the current one if there is one. -/
def merged (combine : ν → ν → ν) (current : Option ν) (value : ν) : ν :=
  match current with
  | none => value
  | some current => combine current value

def upsert (combine : ν → ν → ν) (table : Table κ ν) (key : κ) (value : ν) : Table κ ν :=
  table.insert key (merged combine (table.lookup key) value)

variable (combine : ν → ν → ν)

include combine

variable (table : Table κ ν)

include table

theorem lookup_upsert (key : κ) (value : ν) :
    (table.upsert combine key value).lookup key = some (merged combine (table.lookup key) value) :=
  Finmap.lookup_insert table

theorem lookup_upsert_of_ne {key other : κ} (value : ν)
    (different : other ≠ key) : (table.upsert combine key value).lookup other = table.lookup other :=
  Finmap.lookup_insert_of_ne table different

theorem keys_upsert (key : κ) (value : ν) :
    (table.upsert combine key value).keys = insert key table.keys := by
  ext other
  simp only [upsert, Finmap.mem_keys, Finmap.mem_insert, Finset.mem_insert]

def upsertAll (combine : ν → ν → ν) (table : Table κ ν) (rows : List (κ × ν)) : Table κ ν :=
  rows.foldl (fun table row => table.upsert combine row.1 row.2) table

/-- Upserts leave the keys that they do not have. -/
theorem lookup_upsertAll_of_notMem
    {rows : List (κ × ν)} {key : κ} (absent : key ∉ rows.map Prod.fst) :
    (table.upsertAll combine rows).lookup key = table.lookup key := by
  induction rows generalizing table with
  | nil => rfl
  | cons row rest ih =>
    rw [map_cons, mem_cons, not_or] at absent
    show ((table.upsert combine row.1 row.2).upsertAll combine rest).lookup key = _
    rw [ih _ absent.2, lookup_upsert_of_ne _ _ _ absent.1]

/-- Upserts of different keys combine each with what its key had. -/
theorem lookup_upsertAll_of_mem
    {rows : List (κ × ν)} (distinct : (rows.map Prod.fst).Nodup) {key : κ} {value : ν}
    (member : (key, value) ∈ rows) :
    (table.upsertAll combine rows).lookup key = some (merged combine (table.lookup key) value) := by
  induction rows generalizing table with
  | nil => cases member
  | cons row rest ih =>
    rw [map_cons, nodup_cons] at distinct
    show ((table.upsert combine row.1 row.2).upsertAll combine rest).lookup key = _
    rcases mem_cons.mp member with rfl | later
    · rw [lookup_upsertAll_of_notMem _ _ distinct.1, lookup_upsert]
    · have different : key ≠ row.1 := by
        rintro rfl
        exact distinct.1 (List.mem_map.mpr ⟨_, later, rfl⟩)
      rw [ih _ distinct.2 later, lookup_upsert_of_ne _ _ _ different]

theorem keys_upsertAll (rows : List (κ × ν)) :
    (table.upsertAll combine rows).keys = table.keys ∪ (rows.map Prod.fst).toFinset := by
  induction rows generalizing table with
  | nil => simp [upsertAll]
  | cons row rest ih =>
    show ((table.upsert combine row.1 row.2).upsertAll combine rest).keys = _
    rw [ih, keys_upsert, map_cons, List.toFinset_cons, Finset.insert_union,
      Finset.union_insert]

omit table

omit combine

def eraseAll (table : Table κ ν) (keys : List κ) : Table κ ν :=
  keys.foldl (fun table key => table.erase key) table

theorem lookup_eraseAll (table : Table κ ν) (keys : List κ) (key : κ) :
    (table.eraseAll keys).lookup key = if key ∈ keys then none else table.lookup key := by
  induction keys generalizing table with
  | nil => rfl
  | cons first rest ih =>
    show (eraseAll (table.erase first) rest).lookup key = _
    rw [ih]
    by_cases later : key ∈ rest
    · simp [later]
    · by_cases same : key = first
      · subst same
        simp
      · simp [later, same, Finmap.lookup_erase_ne same]

theorem keys_eraseAll (table : Table κ ν) (keys : List κ) :
    (table.eraseAll keys).keys = table.keys \ keys.toFinset := by
  ext key
  rw [Finmap.mem_keys, ← Finmap.lookup_isSome, lookup_eraseAll, Finset.mem_sdiff, Finmap.mem_keys,
    ← Finmap.lookup_isSome, List.mem_toFinset]
  by_cases erased : key ∈ keys
  · simp [erased]
  · simp [erased]

/-! ## Values that add up -/

section Sums

variable [AddCommSemigroup ν]

def weight (table : Table κ ν) (key : κ) : WithZero ν := table.lookup key

/-- Upserts that add. -/
def addAll {α : Type} (keyOf : α → κ) (valueOf : α → ν) (table : Table κ ν) (rows : List α) :
    Table κ ν :=
  rows.foldl (fun table row => table.upsert (· + ·) (keyOf row) (valueOf row)) table

def total {α : Type} (keyOf : α → κ) (valueOf : α → ν) (rows : List α) (key : κ) : WithZero ν :=
  ((rows.filter fun row => keyOf row = key).map fun row => (valueOf row : WithZero ν)).sum

/-- An upsert that adds leaves the sum. -/
theorem weight_upsert (table : Table κ ν) (key other : κ) (value : ν) :
    (table.upsert (· + ·) key value).weight other =
      table.weight other + if key = other then (value : WithZero ν) else 0 := by
  by_cases same : key = other
  · subst same
    rw [if_pos rfl, weight, lookup_upsert, weight]
    cases table.lookup key with
    | none => exact (zero_add (value : WithZero ν)).symm
    | some current => rfl
  · rw [if_neg same, add_zero, weight, lookup_upsert_of_ne _ _ _ (Ne.symm same), weight]

section Totals

variable {α : Type} (keyOf : α → κ) (valueOf : α → ν)

theorem total_nil (key : κ) : total keyOf valueOf [] key = 0 := rfl

theorem total_cons (row : α) (rows : List α) (key : κ) :
    total keyOf valueOf (row :: rows) key =
      (if keyOf row = key then (valueOf row : WithZero ν) else 0) +
        total keyOf valueOf rows key := by
  by_cases same : keyOf row = key
  · simp [total, same]
  · simp [total, same]

theorem total_append (left right : List α) (key : κ) :
    total keyOf valueOf (left ++ right) key =
      total keyOf valueOf left key + total keyOf valueOf right key := by
  simp [total]

theorem total_perm {left right : List α} (same : left.Perm right) (key : κ) :
    total keyOf valueOf left key = total keyOf valueOf right key :=
  ((same.filter _).map _).sum_eq

/-- Upserts that add leave the sum of what was there and what the rows have. -/
theorem weight_addAll (table : Table κ ν) (rows : List α) (key : κ) :
    (table.addAll keyOf valueOf rows).weight key =
      table.weight key + total keyOf valueOf rows key := by
  induction rows generalizing table with
  | nil => exact (add_zero _).symm
  | cons row rest ih =>
    show ((table.upsert (· + ·) (keyOf row) (valueOf row)).addAll keyOf valueOf rest).weight key = _
    rw [ih, weight_upsert, total_cons, add_assoc]

theorem keys_addAll (table : Table κ ν) (rows : List α) :
    (table.addAll keyOf valueOf rows).keys = table.keys ∪ (rows.map keyOf).toFinset := by
  induction rows generalizing table with
  | nil => simp [addAll]
  | cons row rest ih =>
    show ((table.upsert (· + ·) (keyOf row) (valueOf row)).addAll keyOf valueOf rest).keys = _
    rw [ih, keys_upsert, map_cons, List.toFinset_cons, Finset.insert_union,
      Finset.union_insert]

end Totals

end Sums

end Table

/-! ## Rows taken out by their ids -/

section Rows

variable {ρ ι : Type} [DecidableEq ι] (isDue : ρ → Bool) (idOf : ρ → ι)

def isSelected (ids : List ι) (row : ρ) : Bool := ids.contains (idOf row) && isDue row

def removed (ids : List ι) (rows : List ρ) : List ρ := rows.filter (isSelected isDue idOf ids)

def remaining (ids : List ι) (rows : List ρ) : List ρ :=
  rows.filter fun row => !isSelected isDue idOf ids row

variable {isDue idOf}

theorem removed_remaining (ids : List ι) (rows : List ρ) :
    (removed isDue idOf ids rows ++ remaining isDue idOf ids rows).Perm rows :=
  List.filter_append_perm (isSelected isDue idOf ids) rows

/-- Rows that are not due are left, in their order. -/
theorem remaining_undue (ids : List ι) (rows : List ρ) :
    (remaining isDue idOf ids rows).filter (fun row => !isDue row) =
      rows.filter fun row => !isDue row := by
  rw [remaining, List.filter_filter]
  refine List.filter_congr fun row _ => ?_
  cases due : isDue row with
  | true => simp
  | false => simp [isSelected, due]

theorem due_of_removed {ids : List ι} {rows : List ρ} {row : ρ}
    (member : row ∈ removed isDue idOf ids rows) : row ∈ rows ∧ isDue row := by
  obtain ⟨present, selected⟩ := mem_filter.mp member
  exact ⟨present, (Bool.and_eq_true_iff.mp selected).2⟩

/-- The due rows before are those taken out and the due rows left. -/
theorem due_removed_remaining (ids : List ι) (rows : List ρ) :
    (removed isDue idOf ids rows ++ (remaining isDue idOf ids rows).filter isDue).Perm
      (rows.filter isDue) := by
  have all : (removed isDue idOf ids rows).filter isDue = removed isDue idOf ids rows :=
    List.filter_eq_self.mpr fun row member => (due_of_removed member).2
  have split : (removed isDue idOf ids rows ++ remaining isDue idOf ids rows).Perm rows :=
    removed_remaining ids rows
  have due := split.filter isDue
  rwa [List.filter_append, all] at due

theorem mem_removed {ids : List ι} {rows : List ρ} {row : ρ} (present : row ∈ rows)
    (due : isDue row) (selected : idOf row ∈ ids) : row ∈ removed isDue idOf ids rows :=
  mem_filter.mpr ⟨present, Bool.and_eq_true_iff.mpr ⟨List.contains_iff_mem.mpr selected, due⟩⟩

def firstOf (before : ρ → ρ → Bool) (batchSize : Nat) (rows : List ρ) : List ρ :=
  (rows.mergeSort before).take batchSize

theorem mem_of_firstOf {before : ρ → ρ → Bool} {batchSize : Nat} {rows : List ρ} {row : ρ}
    (member : row ∈ firstOf before batchSize rows) : row ∈ rows :=
  (List.mergeSort_perm rows before).mem_iff.mp (List.mem_of_mem_take member)

/-- A batch of some rows selects one. -/
theorem firstOf_ne_nil {before : ρ → ρ → Bool} {batchSize : Nat} (positive : 0 < batchSize)
    {rows : List ρ} (filled : rows ≠ []) : firstOf before batchSize rows ≠ [] := by
  intro empty
  rw [firstOf, List.take_eq_nil_iff] at empty
  rcases empty with zero | sorted
  · omega
  · have length := (List.mergeSort_perm rows before).length_eq
    rw [sorted, List.length_nil] at length
    exact filled (List.length_eq_zero_iff.mp length.symm)

variable (isDue idOf)

def oldest (before : ρ → ρ → Bool) (batchSize : Nat) (rows : List ρ) : List ι :=
  (firstOf before batchSize (rows.filter isDue)).map idOf

variable {isDue idOf}

/-- A batch takes out a row as long as one is due. -/
theorem removed_oldest_eq_nil {before : ρ → ρ → Bool} {batchSize : Nat} (positive : 0 < batchSize)
    {rows : List ρ} (idle : removed isDue idOf (oldest isDue idOf before batchSize rows) rows = []) :
    rows.filter isDue = [] := by
  by_contra due
  have first : firstOf before batchSize (rows.filter isDue) ≠ [] := firstOf_ne_nil positive due
  obtain ⟨row, member⟩ := List.exists_mem_of_ne_nil _ first
  obtain ⟨present, isDue⟩ := mem_filter.mp (mem_of_firstOf member)
  have selected : idOf row ∈ oldest _ idOf before batchSize rows := List.mem_map_of_mem member
  have taken := mem_removed present isDue selected
  rw [idle] at taken
  cases taken

end Rows

/-! ## Rows with a unique key -/

section Unique

variable {ρ κ : Type} [DecidableEq κ] (keyOf : ρ → κ)

def insertNew (rows : List ρ) (row : ρ) : List ρ :=
  if rows.any fun other => decide (keyOf other = keyOf row) then rows else rows ++ [row]

def insertAllNew (rows new : List ρ) : List ρ := new.foldl (insertNew keyOf) rows

variable {keyOf}

/-- Inserting rows adds some of them at the end. -/
theorem insertAllNew_extends (rows new : List ρ) :
    ∃ added, insertAllNew keyOf rows new = rows ++ added ∧ ∀ row ∈ added, row ∈ new := by
  induction new generalizing rows with
  | nil => exact ⟨[], (List.append_nil rows).symm, fun row member => member⟩
  | cons head rest ih =>
    obtain ⟨added, grown, among⟩ := ih (insertNew keyOf rows head)
    have folded : insertAllNew keyOf rows (head :: rest) =
        insertAllNew keyOf (insertNew keyOf rows head) rest := rfl
    by_cases taken : (rows.any fun other => decide (keyOf other = keyOf head))
    · have kept : insertNew keyOf rows head = rows := if_pos taken
      refine ⟨added, ?_, fun row member => .tail _ (among row member)⟩
      rw [folded, grown, kept]
    · have appended : insertNew keyOf rows head = rows ++ [head] := if_neg taken
      refine ⟨head :: added, ?_, fun row member => ?_⟩
      · rw [folded, grown, appended, List.append_assoc, List.singleton_append]
      · rcases mem_cons.mp member with rfl | later
        · exact .head _
        · exact .tail _ (among row later)

/-- Rows whose keys are new and distinct are all inserted. -/
theorem insertAllNew_fresh {rows new : List ρ} (distinct : (new.map keyOf).Nodup)
    (fresh : ∀ row ∈ new, ∀ other ∈ rows, keyOf other ≠ keyOf row) :
    insertAllNew keyOf rows new = rows ++ new := by
  induction new generalizing rows with
  | nil => exact (List.append_nil rows).symm
  | cons head rest ih =>
    rw [map_cons, nodup_cons] at distinct
    have unused : ¬ (rows.any fun other => decide (keyOf other = keyOf head)) := by
      intro taken
      obtain ⟨other, member, same⟩ := List.any_eq_true.mp taken
      exact fresh head mem_cons_self other member (of_decide_eq_true same)
    have appended : insertNew keyOf rows head = rows ++ [head] := if_neg unused
    show insertAllNew keyOf (insertNew keyOf rows head) rest = rows ++ head :: rest
    rw [appended, ih distinct.2, List.append_assoc, List.singleton_append]
    intro row member other present
    rcases List.mem_append.mp present with old | new
    · exact fresh row (.tail _ member) other old
    · rw [List.mem_singleton.mp new]
      intro same
      exact distinct.1 (same ▸ List.mem_map_of_mem member)

/-- A row that is the only one to pass a test is the whole selection. -/
theorem length_filter_eq_one {rows : List ρ} {test : ρ → Bool} {row : ρ} (distinct : rows.Nodup)
    (member : row ∈ rows) (passes : test row) (only : ∀ other ∈ rows, test other → other = row) :
    (rows.filter test).length = 1 := by
  have selected : row ∈ rows.filter test := mem_filter.mpr ⟨member, passes⟩
  have same : ∀ other ∈ rows.filter test, other = row := by
    intro other among
    obtain ⟨present, passed⟩ := mem_filter.mp among
    exact only other present passed
  have once : (rows.filter test).Nodup := distinct.filter _
  cases found : rows.filter test with
  | nil =>
    rw [found] at selected
    cases selected
  | cons first others =>
    cases others with
    | nil => rfl
    | cons second others =>
      rw [found] at same once
      have left := same first mem_cons_self
      have right := same second (.tail _ mem_cons_self)
      rw [left, right, nodup_cons] at once
      exact absurd mem_cons_self once.1

end Unique

/-- The first rows of a sorted selection have one that passes a test, if one of the selection does
and fewer fail it than are taken. -/
theorem exists_mem_firstOf {ρ : Type} {before : ρ → ρ → Bool} {batchSize : Nat} {rows : List ρ}
    {test : ρ → Bool} (few : (rows.filter fun row => !test row).length < batchSize) {row : ρ}
    (member : row ∈ rows) (passes : test row) :
    ∃ first ∈ firstOf before batchSize rows, test first := by
  have sorted : (rows.mergeSort before).Perm rows := List.mergeSort_perm rows before
  by_contra none
  simp only [not_exists, not_and] at none
  have every : ∀ first ∈ firstOf before batchSize rows, (!test first) := by
    intro first taken
    rw [Bool.eq_false_iff.mpr (none first taken)]
    rfl
  by_cases short : rows.length ≤ batchSize
  · have whole : firstOf before batchSize rows = rows.mergeSort before :=
      List.take_of_length_le (sorted.length_eq ▸ short)
    have taken : row ∈ firstOf before batchSize rows := whole ▸ sorted.mem_iff.mpr member
    exact none row taken passes
  · have filled : (firstOf before batchSize rows).length = batchSize := by
      rw [firstOf, List.length_take, sorted.length_eq]
      omega
    have kept : (firstOf before batchSize rows).filter (fun row => !test row) =
        firstOf before batchSize rows := List.filter_eq_self.mpr every
    have fewer : ((firstOf before batchSize rows).filter fun row => !test row).length ≤
        (rows.filter fun row => !test row).length := by
      rw [← (sorted.filter fun row => !test row).length_eq]
      exact ((List.take_sublist batchSize _).filter _).length_le
    rw [kept, filled] at fewer
    omega

/-- Fewer rows pass a test that is stricter and fails some row that passes the other one. -/
theorem length_filter_lt {ρ : Type} {rows : List ρ} {strict loose : ρ → Bool}
    (weaker : ∀ row ∈ rows, strict row → loose row) {row : ρ} (member : row ∈ rows)
    (passes : loose row) (fails : strict row = false) :
    (rows.filter strict).length < (rows.filter loose).length := by
  have within : rows.filter strict = (rows.filter loose).filter strict := by
    rw [List.filter_filter]
    refine List.filter_congr fun other present => ?_
    cases strictly : strict other with
    | false => rfl
    | true => rw [weaker other present strictly, Bool.and_self]
  rw [within]
  have selected : row ∈ rows.filter loose := mem_filter.mpr ⟨member, passes⟩
  refine List.length_filter_lt_length_iff_exists.mpr ⟨row, selected, ?_⟩
  rw [fails]
  exact Bool.false_ne_true

/-! ## Work that comes to an end -/

/-- Work of which every step leaves less comes to an end. -/
theorem exists_first_end (ended : Nat → Prop) (left : Nat → Nat)
    (less : ∀ step, (∀ before ≤ step, ¬ ended before) → left (step + 1) < left step) :
    ∃ last, ended last ∧ ∀ before < last, ¬ ended before := by
  classical
  have ends : ∃ last, ended last := by
    by_contra never
    rw [not_exists] at never
    have bound : ∀ step, left step + step ≤ left 0 := by
      intro step
      induction step with
      | zero => exact Nat.le_refl _
      | succ step ih =>
        have next := less step fun before _ => never before
        omega
    have last := bound (left 0 + 1)
    omega
  exact ⟨Nat.find ends, Nat.find_spec ends, fun before earlier => Nat.find_min ends earlier⟩

end NancyMan
