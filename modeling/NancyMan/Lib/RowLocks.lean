import Mathlib.Data.List.Nodup

/-!
# Tables with row locks

A table of committed rows, each of which one transaction at a time may have locked. A transaction
that has locked a row writes it when it commits, and its locks end with it. What is known of a row
under its lock stays so until the transaction that holds the lock commits or ends.
-/
namespace NancyMan

open List (lookup_cons map_cons)

/-- The committed rows under their keys and the transactions that have locked them. -/
structure LockedTable (κ ρ : Type) where
  rows : List (κ × ρ)
  holder : κ → Option Nat
  /-- No two rows share a key. -/
  distinct : (rows.map Prod.fst).Nodup

namespace LockedTable

variable {κ ρ : Type} [DecidableEq κ]

def find (table : LockedTable κ ρ) (key : κ) : Option ρ := table.rows.lookup key

def keysWhere (table : LockedTable κ ρ) (test : ρ → Bool) : List κ :=
  (table.rows.map Prod.fst).filter fun key => (table.find key).any test

def isFree (table : LockedTable κ ρ) (transaction : Nat) (key : κ) : Bool :=
  table.holder key == none || table.holder key == some transaction

def lock (table : LockedTable κ ρ) (transaction : Nat) (key : κ) : LockedTable κ ρ :=
  { table with holder := Function.update table.holder key (some transaction) }

/-- The locks of a transaction end. -/
def release (table : LockedTable κ ρ) (transaction : Nat) : LockedTable κ ρ :=
  { table with
    holder := fun key => if table.holder key = some transaction then none else table.holder key }

/-- A row is committed under a key that has one. -/
def write (table : LockedTable κ ρ) (key : κ) (row : ρ) : LockedTable κ ρ :=
  { table with
    rows := table.rows.map fun entry => if entry.1 = key then (key, row) else entry
    distinct := by
      have keys : (table.rows.map fun entry => if entry.1 = key then (key, row) else entry).map
          Prod.fst = table.rows.map Prod.fst := by
        rw [List.map_map]
        refine List.map_congr_left fun entry _ => ?_
        dsimp only [Function.comp]
        split
        · next same => exact same.symm
        · rfl
      rw [keys]
      exact table.distinct }

/-- A row is committed under a key, unless there is one already. -/
def insert (table : LockedTable κ ρ) (key : κ) (row : ρ) : LockedTable κ ρ :=
  if taken : key ∈ table.rows.map Prod.fst then table
  else { table with
    rows := table.rows ++ [(key, row)]
    distinct := by
      rw [List.map_append, List.map_singleton]
      refine List.Nodup.append table.distinct (List.nodup_singleton _) fun name held last => ?_
      have same : name = key := List.mem_singleton.mp last
      exact taken (same ▸ held) }

/-- Every row is changed. -/
def update (table : LockedTable κ ρ) (change : κ → ρ → ρ) : LockedTable κ ρ :=
  { table with
    rows := table.rows.map fun entry => (entry.1, change entry.1 entry.2)
    distinct := by
      have keys : (table.rows.map fun entry => (entry.1, change entry.1 entry.2)).map Prod.fst =
          table.rows.map Prod.fst := by
        rw [List.map_map]
        rfl
      rw [keys]
      exact table.distinct }

variable {table : LockedTable κ ρ} {transaction other : Nat} {key another : κ} {row : ρ}

@[simp] theorem holder_lock_self : (table.lock transaction key).holder key = some transaction :=
  Function.update_self ..

theorem holder_lock_of_ne (apart : another ≠ key) :
    (table.lock transaction key).holder another = table.holder another :=
  Function.update_of_ne apart ..

omit [DecidableEq κ] in
theorem holder_release_of_ne (apart : other ≠ transaction) (held : table.holder key = some other) :
    (table.release transaction).holder key = some other := by
  show (if table.holder key = some transaction then none else table.holder key) = some other
  rw [if_neg (fun same => apart (Option.some.inj (held.symm.trans same)))]
  exact held

/-- A key that is held stays held when a transaction locks one that it need not wait for. -/
theorem holder_lock (free : table.isFree transaction key) (held : table.holder another = some other)
    (apart : other ≠ transaction) : (table.lock transaction key).holder another = some other := by
  by_cases same : another = key
  · subst same
    simp only [isFree, held, Bool.or_eq_true, beq_iff_eq, Option.some.injEq, reduceCtorEq,
      false_or] at free
    exact absurd free apart
  · rw [holder_lock_of_ne same]
    exact held

theorem holder_lock_own (held : table.holder another = some transaction) :
    (table.lock transaction key).holder another = some transaction := by
  by_cases same : another = key
  · subst same
    exact holder_lock_self
  · rw [holder_lock_of_ne same]
    exact held

/-- What is found under a key that is written. -/
theorem find_write_self {earlier : ρ} (found : table.find key = some earlier) :
    (table.write key row).find key = some row := by
  unfold find write at *
  dsimp only
  generalize table.rows = rows at found
  induction rows with
  | nil => cases found
  | cons entry rest ih =>
    obtain ⟨name, value⟩ := entry
    rw [map_cons]
    by_cases same : name = key
    · rw [if_pos same, lookup_cons, beq_self_eq_true]
    · rw [lookup_cons, beq_false_of_ne (Ne.symm same)] at found
      rw [if_neg same, lookup_cons, beq_false_of_ne (Ne.symm same)]
      exact ih found

/-- The other rows are as they were. -/
theorem find_write_of_ne (apart : another ≠ key) :
    (table.write key row).find another = table.find another := by
  unfold find write
  dsimp only
  generalize table.rows = rows
  induction rows with
  | nil => rfl
  | cons entry rest ih =>
    obtain ⟨name, value⟩ := entry
    rw [map_cons, lookup_cons]
    by_cases same : name = key
    · rw [if_pos same, lookup_cons, same, beq_false_of_ne apart]
      exact ih
    · rw [if_neg same, lookup_cons, ih]

@[simp] theorem find_update (change : κ → ρ → ρ) :
    (table.update change).find key = (table.find key).map (change key) := by
  unfold find update
  dsimp only
  generalize table.rows = rows
  induction rows with
  | nil => rfl
  | cons entry rest ih =>
    obtain ⟨name, value⟩ := entry
    rw [map_cons, lookup_cons, lookup_cons]
    by_cases same : key = name
    · subst same
      rw [beq_self_eq_true]
      rfl
    · rw [beq_false_of_ne same]
      exact ih

/-- A row under a new key leaves the others as they were. -/
theorem find_insert (found : table.find another = some row) (value : ρ) :
    (table.insert key value).find another = some row := by
  unfold insert
  split
  · exact found
  · show (table.rows ++ [(key, value)]).lookup another = some row
    rw [List.lookup_append, show table.rows.lookup another = some row from found]
    rfl

/-- What is found after a row is inserted was found before, or is the new one. -/
theorem find_insert_cases {value : ρ} (found : (table.insert key value).find another = some row) :
    table.find another = some row ∨ another = key ∧ row = value := by
  unfold insert at found
  split at found
  · exact .inl found
  · have appended : (table.rows ++ [(key, value)]).lookup another = some row := found
    rw [List.lookup_append] at appended
    cases before : table.rows.lookup another with
    | some earlier =>
      rw [before] at appended
      exact .inl (before.trans appended)
    | none =>
      rw [before, Option.none_or, lookup_cons] at appended
      by_cases same : another = key
      · rw [beq_iff_eq.mpr same] at appended
        exact .inr ⟨same, (Option.some.inj appended).symm⟩
      · rw [beq_false_of_ne same] at appended
        cases appended

@[simp] theorem holder_insert (value : ρ) : (table.insert key value).holder = table.holder := by
  unfold insert
  split <;> rfl

theorem nodup_keysWhere (test : ρ → Bool) : (table.keysWhere test).Nodup :=
  table.distinct.filter _

/-- What a transaction has locked is in another table as it is in one. -/
def Respects (table later : LockedTable κ ρ) (transaction : Nat) : Prop :=
  ∀ key, table.holder key = some transaction → later.holder key = some transaction ∧
    ∀ row, table.find key = some row → later.find key = some row

theorem respects_lock_own (key : κ) : table.Respects (table.lock transaction key) transaction :=
  fun _ held => ⟨holder_lock_own held, fun _ found => found⟩

theorem respects_lock (free : table.isFree other key) (apart : transaction ≠ other) :
    table.Respects (table.lock other key) transaction :=
  fun _ held => ⟨holder_lock free held apart, fun _ found => found⟩

theorem respects_release (apart : transaction ≠ other) :
    table.Respects (table.release other) transaction :=
  fun _ held => ⟨holder_release_of_ne apart held, fun _ found => found⟩

/-- What another commits of a row that it has locked leaves what one has locked as it is. -/
theorem respects_write (held : table.holder key = some other) (apart : transaction ≠ other) :
    table.Respects (table.write key row) transaction := by
  intro name own
  refine ⟨own, fun value found => ?_⟩
  rw [find_write_of_ne (fun same => apart ?_)]
  · exact found
  · rw [same] at own
    exact Option.some.inj (own.symm.trans held)

/-- What is written of a row that nobody has locked leaves what one has locked as it is. -/
theorem respects_write_of_free (free : table.holder key = none) :
    table.Respects (table.write key row) transaction := by
  intro name own
  refine ⟨own, fun value found => ?_⟩
  rw [find_write_of_ne (fun same => ?_)]
  · exact found
  · rw [same, free] at own
    cases own

theorem respects_insert (value : ρ) : table.Respects (table.insert key value) transaction :=
  fun name held => ⟨by rw [holder_insert]; exact held, fun _ found => find_insert found value⟩

theorem respects_update {change : κ → ρ → ρ}
    (kept : ∀ key row, table.holder key = some transaction → table.find key = some row →
      change key row = row) :
    table.Respects (table.update change) transaction := by
  intro key held
  refine ⟨held, fun row found => ?_⟩
  rw [find_update, found, Option.map_some, kept key row held found]

theorem Respects.refl (table : LockedTable κ ρ) (transaction : Nat) :
    table.Respects table transaction := fun _ held => ⟨held, fun _ found => found⟩

theorem Respects.trans {middle later : LockedTable κ ρ}
    (first : table.Respects middle transaction) (second : middle.Respects later transaction) :
    table.Respects later transaction := fun key held =>
  ⟨(second key (first key held).1).1,
    fun row found => (second key (first key held).1).2 row ((first key held).2 row found)⟩

/-- A key whose row passes a test is one of those. -/
theorem mem_keysWhere {test : ρ → Bool} :
    key ∈ table.keysWhere test ↔ ∃ row, table.find key = some row ∧ test row := by
  unfold keysWhere
  rw [List.mem_filter, Option.any_eq_true]
  constructor
  · exact fun both => both.2
  · rintro ⟨row, found, passes⟩
    refine ⟨?_, row, found, passes⟩
    have some_row : (table.rows.lookup key).isSome := by
      rw [show table.rows.lookup key = some row from found]
      rfl
    rw [List.lookup_isSome_iff] at some_row
    obtain ⟨entry, member, same⟩ := some_row
    exact List.mem_map.mpr ⟨entry, member, (eq_of_beq same).symm⟩

end LockedTable

end NancyMan
