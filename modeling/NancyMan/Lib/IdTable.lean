import Mathlib.Data.List.Nodup

/-!
# Tables of rows with identifiers

A table whose rows each have an identifier of their own, drawn when the row is inserted. Rows are
changed in place and never change their identifier, so what a change does to one row says
what it does to the table.
-/

/-- Rows with distinct identifiers below the next one. -/
structure IdTable (ρ : Type*) (idOf : ρ → Nat) where
  rows : List ρ
  nextId : Nat
  /-- The next identifier is new. -/
  fresh : ∀ row ∈ rows, idOf row < nextId
  /-- No two rows share an identifier. -/
  distinct : (rows.map idOf).Nodup

namespace IdTable

variable {ρ : Type*} {idOf : ρ → Nat}

def empty : IdTable ρ idOf := ⟨[], 0, by simp, by simp⟩

def find (table : IdTable ρ idOf) (id : Nat) : Option ρ := table.rows.find? fun row => idOf row = id

/-- Change rows in place, each under its own identifier. -/
def update (table : IdTable ρ idOf) (change : ρ → ρ) (same : ∀ row, idOf (change row) = idOf row) :
    IdTable ρ idOf where
  rows := table.rows.map change
  nextId := table.nextId
  fresh := by
    intro row member
    obtain ⟨old, oldMember, rfl⟩ := List.mem_map.mp member
    rw [same]
    exact table.fresh old oldMember
  distinct := by
    rw [List.map_map, show idOf ∘ change = idOf from funext same]
    exact table.distinct

/-- Add a row under the next identifier. -/
def insert (table : IdTable ρ idOf) (row : Nat → ρ) (named : ∀ id, idOf (row id) = id) :
    IdTable ρ idOf where
  rows := table.rows ++ [row table.nextId]
  nextId := table.nextId + 1
  fresh := by
    intro found member
    rcases List.mem_append.mp member with old | new
    · exact Nat.lt_succ_of_lt (table.fresh found old)
    · rw [List.mem_singleton.mp new, named]
      exact Nat.lt_succ_self _
  distinct := by
    rw [List.map_append, List.map_singleton, named]
    apply List.Nodup.append table.distinct (List.nodup_singleton _)
    intro id old new
    obtain ⟨row, member, rfl⟩ := List.mem_map.mp old
    have bound := table.fresh row member
    have same := List.mem_singleton.mp new
    omega

variable (table : IdTable ρ idOf)

include table

theorem row_unique {left right : ρ} (first : left ∈ table.rows)
    (second : right ∈ table.rows) (same : idOf left = idOf right) : left = right :=
  List.inj_on_of_nodup_map table.distinct first second same

omit table in
/-- The row found under an identifier is the row of the table that has it. -/
theorem find_eq_some {table : IdTable ρ idOf} {id : Nat} {row : ρ} :
    table.find id = some row ↔ row ∈ table.rows ∧ idOf row = id := by
  constructor
  · intro found
    have named := List.find?_some (p := fun other : ρ => decide (idOf other = id)) found
    exact ⟨List.mem_of_find?_eq_some found, by simpa using named⟩
  · rintro ⟨member, rfl⟩
    have present : (table.find (idOf row)).isSome := by
      unfold find
      rw [List.find?_isSome]
      exact ⟨row, member, by simp⟩
    obtain ⟨other, found⟩ := Option.isSome_iff_exists.mp present
    have named := List.find?_some (p := fun other : ρ => decide (idOf other = idOf row)) found
    have same : idOf other = idOf row := by simpa using named
    rw [found, table.row_unique (List.mem_of_find?_eq_some found) member same]

@[simp] theorem find_update (change : ρ → ρ)
    (same : ∀ row, idOf (change row) = idOf row) (id : Nat) :
    (table.update change same).find id = (table.find id).map change := by
  unfold find update
  rw [List.find?_map]
  congr 2
  funext row
  rw [Function.comp, same]

/-- An inserted row is found under the identifier it was given, and the others as before. -/
theorem find_insert (row : Nat → ρ) (named : ∀ id, idOf (row id) = id) (id : Nat) :
    (table.insert row named).find id =
      if id = table.nextId then some (row table.nextId) else table.find id := by
  by_cases new : id = table.nextId
  · rw [if_pos new, find_eq_some]
    exact ⟨List.mem_append_right _ (.head _), (named _).trans new.symm⟩
  · rw [if_neg new]
    unfold find insert
    rw [List.find?_append]
    have other : decide (idOf (row table.nextId) = id) = false := by
      rw [named]
      exact decide_eq_false fun same => new same.symm
    rw [List.find?_singleton, other]
    simp

/-- Change the rows that a test selects, each under its own identifier. -/
def updateWhere (table : IdTable ρ idOf) (test : ρ → Bool) (change : ρ → ρ)
    (same : ∀ row, idOf (change row) = idOf row) : IdTable ρ idOf :=
  table.update (fun row => if test row then change row else row) fun row => by
    split
    · exact same row
    · rfl

@[simp] theorem find_updateWhere (test : ρ → Bool) (change : ρ → ρ)
    (same : ∀ row, idOf (change row) = idOf row) (id : Nat) :
    (table.updateWhere test change same).find id =
      (table.find id).map fun row => if test row then change row else row :=
  find_update table _ _ id

/-- No row is found under an identifier that is still to be drawn. -/
theorem find_fresh {id : Nat} (new : table.nextId ≤ id) : table.find id = none := by
  cases found : table.find id with
  | none => rfl
  | some row =>
    have known := find_eq_some.mp found
    have bound := table.fresh row known.1
    omega

omit table

end IdTable
