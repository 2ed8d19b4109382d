import NancyMan.Explorer.RowReader

/-!
# What a keyset condition selects

Under values that denote the last row's key, the condition that `buildKeysetCondition` writes
keeps exactly the rows that the query's order puts after that row: a term for a component keeps
the rows that agree on the components before it and differ there. The induction over the
components carries the values that earlier terms have already added.
-/
namespace NancyMan.Explorer

open Predicate (conj disj places)
open SqlServer (accepts holds truth)
open List (all_cons all_nil any_cons flatMap_cons map_cons mem_append prefix_append prefix_refl)

variable {ν V : Type} (server : SqlServer ν V) (dataType : String → String)
  (lookup : Placeholder → Option (PgValue ν))

section Joins

variable (first : Predicate) (rest : List Predicate)

/-- A conjunction's values are accepted when those of all its conditions are. -/
theorem accepts_conj :
    server.accepts dataType lookup (.conj first rest) =
      (first :: rest).all (server.accepts dataType lookup) := by
  induction rest generalizing first with
  | nil => simp [conj]
  | cons second rest ih =>
    rw [all_cons, ← ih second]
    simp [conj, accepts]

/-- A disjunction's values are accepted when those of all its conditions are. -/
theorem accepts_disj :
    server.accepts dataType lookup (.disj first rest) =
      (first :: rest).all (server.accepts dataType lookup) := by
  induction rest generalizing first with
  | nil => simp [disj]
  | cons second rest ih =>
    rw [all_cons, ← ih second]
    simp [disj, accepts]

theorem places_conj : (conj first rest).places = (first :: rest).flatMap places := by
  induction rest generalizing first with
  | nil => simp [conj]
  | cons second rest ih => rw [flatMap_cons, ← ih second, conj, places]

theorem places_disj : (disj first rest).places = (first :: rest).flatMap places := by
  induction rest generalizing first with
  | nil => simp [disj]
  | cons second rest ih => rw [flatMap_cons, ← ih second, disj, places]

variable [LinearOrder V] (row : Row V)

/-- A conjunction keeps what all its conditions keep. -/
theorem holds_conj :
    server.holds dataType lookup row (.conj first rest) =
      (first :: rest).all (server.holds dataType lookup row) := by
  induction rest generalizing first with
  | nil => simp [conj]
  | cons second rest ih =>
    rw [all_cons, ← ih second]
    simp [conj, holds, truth]

/-- A disjunction keeps what any of its conditions keeps. -/
theorem holds_disj :
    server.holds dataType lookup row (.disj first rest) =
      (first :: rest).any (server.holds dataType lookup row) := by
  induction rest generalizing first with
  | nil => simp [disj]
  | cons second rest ih =>
    rw [any_cons, ← ih second]
    simp [disj, holds, truth]

end Joins

/-- A key's value denotes a row's value of its column: `null` for NULL, and otherwise a value
that the server reads as the one stored. -/
def Denotes (last : Row V) (key : CursorKey ν) : Prop :=
  if isNullValue key.value then last key.column = none
  else ∃ value, last key.column = some value ∧
    server.bind (dataType key.column) key.value = some (some value)

def agrees [DecidableEq V] (row last : Row V) (key : CursorKey ν) : Bool := row key.column = last key.column

def ReadsTags (values : List (PgValue ν)) : Prop :=
  ∀ index value, values[index]? = some value → lookup (.cursorTag index) = some value

variable {server dataType lookup} {last : Row V} {key : CursorKey ν} {values : List (PgValue ν)}
  {index : Nat} {direction : Direction}

theorem Denotes.of_null (null : isNullValue key.value) (missing : last key.column = none) :
    Denotes server dataType last key := by
  rw [Denotes, if_pos null]
  exact missing

theorem Denotes.of_value {value : V} (present : isNullValue key.value = false)
    (stored : last key.column = some value)
    (bound : server.bind (dataType key.column) key.value = some (some value)) :
    Denotes server dataType last key := by
  rw [Denotes, if_neg (by simp [present])]
  exact ⟨value, stored, bound⟩

variable {all : List (PgValue ν)}

theorem added_value {value : PgValue ν} (inside : values ++ [value] <+: all) :
    all[values.length]? = some value := by
  obtain ⟨rest, rfl⟩ := inside
  simp

/-- The tag of a key's value is read as the last row's value of the key's column. -/
theorem argument_tag (inside : values ++ [key.value] <+: all) (reads : ReadsTags lookup all)
    (present : isNullValue key.value = false) (denotes : Denotes server dataType last key) :
    ∃ value, last key.column = some value ∧
      server.argument dataType lookup key.column (.cursorTag values.length) =
        some (some value) := by
  rw [Denotes, if_neg (by simp [present])] at denotes
  obtain ⟨value, stored, bound⟩ := denotes
  refine ⟨value, stored, ?_⟩
  rw [SqlServer.argument, reads _ _ (added_value inside), Option.bind_some, bound]

/-! ## The components before a term -/

/-- Tying a row to components only adds values. -/
theorem keysetPrefix_extends (keys : List (CursorKey ν)) (values : List (PgValue ν)) :
    values <+: (keysetPrefix keys values).2 := by
  induction keys generalizing values with
  | nil => exact prefix_refl values
  | cons key keys ih =>
    rw [keysetPrefix]
    split
    · exact ih values
    · exact (prefix_append values [key.value]).trans (ih _)

variable {keys : List (CursorKey ν)}

/-- Every value that the ties add stands in one of them. -/
theorem keysetPrefix_places (low : values.length ≤ index)
    (high : index < (keysetPrefix keys values).2.length) :
    .cursorTag index ∈ (keysetPrefix keys values).1.flatMap places := by
  induction keys generalizing values with
  | nil => exact absurd high (Nat.not_lt.mpr low)
  | cons key keys ih =>
    rw [keysetPrefix] at high ⊢
    by_cases null : isNullValue key.value
    · rw [if_pos null] at high ⊢
      rw [flatMap_cons, mem_append]
      exact .inr (ih low high)
    · rw [if_neg null] at high ⊢
      rw [flatMap_cons, mem_append]
      by_cases same : index = values.length
      · subst same
        exact .inl (.head _)
      · refine .inr (ih ?_ high)
        rw [List.length_append, List.length_singleton]
        omega

/-! ## The terms -/

/-- Adding terms only adds values. -/
theorem keysetTerms_extends (operator : ComparisonOperator) (done keys : List (CursorKey ν))
    (values : List (PgValue ν)) : values <+: (keysetTerms operator done keys values).2 := by
  induction keys generalizing done values with
  | nil => exact prefix_refl values
  | cons key keys ih =>
    have tied := keysetPrefix_extends done values
    rw [keysetTerms]
    split
    · exact tied.trans (ih _ _)
    · exact (tied.trans (prefix_append _ [key.value])).trans (ih _ _)

variable (ties : List Predicate) (done : List (CursorKey ν)) (row : Row V)

theorem places_keysetTerm (comparison : Predicate) :
    (keysetTerm ties comparison).places =
      ties.flatMap places ++ comparison.places := by
  cases ties with
  | nil => rfl
  | cons first others => simp [keysetTerm, places_conj]

/-- Every value that the terms add stands in one of them, when only the first component may
be NULL. -/
theorem keysetTerms_places {operator : ComparisonOperator}
    (present : ∀ key ∈ (done ++ keys).tail, isNullValue key.value = false)
    (low : values.length ≤ index)
    (high : index < (keysetTerms operator done keys values).2.length) :
    .cursorTag index ∈ (keysetTerms operator done keys values).1.flatMap places := by
  induction keys generalizing done values with
  | nil => exact absurd high (Nat.not_lt.mpr low)
  | cons key keys ih =>
    have later : ∀ other ∈ ((done ++ [key]) ++ keys).tail, isNullValue other.value = false := by
      simpa using present
    rw [keysetTerms] at high ⊢
    by_cases null : isNullValue key.value
    · rw [if_pos null] at high ⊢
      cases done with
      | nil => exact ih _ later low high
      | cons first others =>
        have known := present key (by simp)
        rw [null] at known
        cases known
    · rw [if_neg null] at high ⊢
      rw [flatMap_cons, mem_append, places_keysetTerm, mem_append]
      by_cases tied : index < (keysetPrefix done values).2.length
      · exact .inl (.inl (keysetPrefix_places low tied))
      · by_cases same : index = (keysetPrefix done values).2.length
        · subst same
          exact .inl (.inr (List.mem_append_left _ (.head _)))
        · refine .inr (ih _ later ?_ high)
          rw [List.length_append, List.length_singleton]
          omega

theorem keysetTerm_accepts (comparison : Predicate) :
    server.accepts dataType lookup (keysetTerm ties comparison) =
      (ties.all (server.accepts dataType lookup) &&
        server.accepts dataType lookup comparison) := by
  cases ties with
  | nil => simp [keysetTerm]
  | cons first others => simp [keysetTerm, accepts_conj, Bool.and_assoc]

/-- Every value of a condition stands in it, when only the first component may be NULL. -/
theorem buildKeysetCondition_places (present : ∀ key ∈ keys.tail, isNullValue key.value = false)
    (high : index < (buildKeysetCondition keys direction).values.length) :
    .cursorTag index ∈ (buildKeysetCondition keys direction).predicate.places := by
  have found := keysetTerms_places [] present (Nat.zero_le index) high
  unfold buildKeysetCondition
  dsimp only
  cases terms : (keysetTerms (keysetOperator direction) [] keys []).1 with
  | nil =>
    rw [terms] at found
    cases found
  | cons first others =>
    rw [terms] at found
    rwa [places_disj]

variable [LinearOrder V]

/-- The ties of a row to components keep the rows that agree on them. -/
theorem keysetPrefix_holds (inside : (keysetPrefix keys values).2 <+: all)
    (reads : ReadsTags lookup all) (denotes : ∀ key ∈ keys, Denotes server dataType last key) :
    (keysetPrefix keys values).1.all (server.accepts dataType lookup) ∧
      (keysetPrefix keys values).1.all (server.holds dataType lookup row) =
        keys.all (agrees row last) := by
  induction keys generalizing values with
  | nil => exact ⟨rfl, rfl⟩
  | cons key keys ih =>
    have here := denotes key (.head _)
    have others := fun other member => denotes other (.tail _ member)
    by_cases null : isNullValue key.value
    · rw [Denotes, if_pos null] at here
      rw [keysetPrefix, if_pos null] at inside ⊢
      obtain ⟨accepted, kept⟩ := ih inside others
      refine ⟨by simpa [accepts] using accepted, ?_⟩
      rw [all_cons, all_cons, kept, agrees, here]
      cases stored : row key.column <;> simp [holds, truth, Sql.Truth.holds,
        stored]
    · have present : isNullValue key.value = false := by simpa using null
      rw [keysetPrefix, if_neg null] at inside ⊢
      obtain ⟨accepted, kept⟩ := ih inside others
      obtain ⟨value, stored, read⟩ := argument_tag
        ((keysetPrefix_extends keys _).trans inside) reads present here
      refine ⟨by simpa [accepts, read] using accepted, ?_⟩
      rw [all_cons, all_cons, kept, agrees, stored]
      cases found : row key.column <;> simp [holds, truth, Sql.Truth.holds,
        found, read, ComparisonOperator.test]

theorem keysetTerm_holds (ties : List Predicate) (comparison : Predicate) :
    server.holds dataType lookup row (keysetTerm ties comparison) =
      (ties.all (server.holds dataType lookup row) &&
        server.holds dataType lookup row comparison) := by
  cases ties with
  | nil => simp [keysetTerm]
  | cons first others => simp [keysetTerm, holds_conj, Bool.and_assoc]

theorem test_keysetOperator (direction : Direction) (last value : V) :
    (keysetOperator direction).test value last =
      Sql.precedes (decide (direction = .asc)) (some last) (some value) := by
  cases direction <;> simp [keysetOperator, ComparisonOperator.test, Sql.precedes]

/-- A row comes after the last one at a component: it is beyond its value, or NULL. -/
theorem keysetComparison_holds (inside : values ++ [key.value] <+: all)
    (reads : ReadsTags lookup all) (present : isNullValue key.value = false)
    (denotes : Denotes server dataType last key) :
    server.accepts dataType lookup
        (keysetComparison (keysetOperator direction) key.column values.length) ∧
      server.holds dataType lookup row
        (keysetComparison (keysetOperator direction) key.column values.length) =
        Sql.precedes (decide (direction = .asc)) (last key.column) (row key.column) := by
  obtain ⟨value, stored, read⟩ := argument_tag inside reads present denotes
  refine ⟨by simp [keysetComparison, accepts, read], ?_⟩
  rw [holds, keysetComparison, truth, Sql.Truth.holds_or, truth,
    truth, read, stored]
  cases found : row key.column with
  | none => simp [Sql.Truth.holds, Sql.precedes]
  | some other =>
    dsimp only
    rw [test_keysetOperator]
    simp [Sql.Truth.holds]

/-- The terms of the components after some that are done keep the rows that agree on those and
come after the last row in the order of the rest. -/
theorem keysetTerms_holds (row : Row V)
    (inside : (keysetTerms (keysetOperator direction) done keys values).2 <+: all)
    (reads : ReadsTags lookup all)
    (denotes : ∀ key ∈ done ++ keys, Denotes server dataType last key) :
    (keysetTerms (keysetOperator direction) done keys values).1.all
        (server.accepts dataType lookup) ∧
      (keysetTerms (keysetOperator direction) done keys values).1.any
        (server.holds dataType lookup row) =
        (done.all (agrees row last) && Sql.rowBefore
          (keys.map fun key => (key.column, decide (direction = .asc))) last row) := by
  induction keys generalizing done values with
  | nil => simp [keysetTerms, Sql.rowBefore]
  | cons key keys ih =>
    have here := denotes key (by simp)
    have before : ∀ other ∈ done, Denotes server dataType last other :=
      fun other member => denotes other (List.mem_append_left _ member)
    have later : ∀ other ∈ (done ++ [key]) ++ keys, Denotes server dataType last other := by
      simpa using denotes
    rw [keysetTerms] at inside ⊢
    by_cases null : isNullValue key.value
    · rw [if_pos null] at inside ⊢
      obtain ⟨accepted, kept⟩ := ih _ inside later
      refine ⟨accepted, ?_⟩
      rw [Denotes, if_pos null] at here
      rw [kept, map_cons, Sql.rowBefore, here]
      simp [agrees, here, Sql.precedes, Bool.and_assoc, eq_comm]
    · have present : isNullValue key.value = false := by simpa using null
      rw [if_neg null] at inside ⊢
      have grown := keysetTerms_extends (keysetOperator direction) (done ++ [key]) keys
        ((keysetPrefix done values).2 ++ [key.value])
      have compared := grown.trans inside
      obtain ⟨accepted, kept⟩ := ih _ inside later
      obtain ⟨tiesAccepted, tiesKept⟩ := keysetPrefix_holds row
        ((prefix_append _ [key.value]).trans compared) reads before
      obtain ⟨comparisonAccepted, comparisonKept⟩ :=
        keysetComparison_holds row compared reads present here
      constructor
      · rw [all_cons, accepted, Bool.and_true, keysetTerm_accepts, tiesAccepted,
          comparisonAccepted]
        rfl
      · rw [any_cons, kept, keysetTerm_holds, tiesKept, comparisonKept, map_cons,
          Sql.rowBefore]
        have flipped : agrees row last key = decide (last key.column = row key.column) :=
          decide_eq_decide.mpr eq_comm
        rw [List.all_append, all_cons, all_nil, Bool.and_true, flipped,
          Bool.and_assoc, ← Bool.and_or_distrib_left]

/-- The condition after a row keeps the rows that the order of its key puts after it. -/
theorem buildKeysetCondition_holds (direction : Direction) (row : Row V)
    (reads : ReadsTags lookup (buildKeysetCondition keys direction).values)
    (denotes : ∀ key ∈ keys, Denotes server dataType last key) :
    server.accepts dataType lookup (buildKeysetCondition keys direction).predicate ∧
      server.holds dataType lookup row (buildKeysetCondition keys direction).predicate =
        Sql.rowBefore (keys.map fun key => (key.column, decide (direction = .asc))) last row := by
  obtain ⟨accepted, kept⟩ := keysetTerms_holds [] row (prefix_refl _) reads
    (by simpa using denotes)
  simp only [all_nil, Bool.true_and] at kept
  rw [← kept]
  unfold buildKeysetCondition
  dsimp only
  cases terms : (keysetTerms (keysetOperator direction) [] keys []).1 with
  | nil => exact ⟨rfl, by simp [holds, truth, Sql.Truth.holds]⟩
  | cons first others =>
    rw [terms] at accepted
    exact ⟨by rw [accepts_disj, accepted], by rw [holds_disj]⟩

end NancyMan.Explorer
