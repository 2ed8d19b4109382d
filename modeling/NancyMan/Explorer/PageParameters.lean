import NancyMan.Explorer.PageSqlNumbering

/-!
# Every value of a page's query in its place

The filters and equalities of a request are numbered in the order of their values; the terms of a
cursor's condition use the tags of its values in order and each at most once. A component that is
NULL after one that is not adds values that no term uses. The text that is sent is therefore the
request's query with its values as parameters exactly when there is no such component and no
identifier before the place of a tag contains the tag.
-/
namespace NancyMan.Explorer

open SqlPiece
open List (append_nil length_append length_map length_range' map_append map_cons map_nil mem_map
  mem_range mem_range'_1)
open Option (map_some)

variable {ν α β : Type}

/-! ## Places of a query's parts -/

def placesOf (pieces : List (SqlPiece α)) : List α := pieces.filterMap SqlPiece.place?

@[simp] theorem placesOf_nil : placesOf ([] : List (SqlPiece α)) = [] := rfl

@[simp] theorem placesOf_append (left right : List (SqlPiece α)) :
    placesOf (left ++ right) = placesOf left ++ placesOf right := List.filterMap_append

@[simp] theorem placesOf_sql (text : String) (plain : '$' ∉ text.toList)
    (pieces : List (SqlPiece α)) : placesOf (sql text plain :: pieces) = placesOf pieces := rfl

@[simp] theorem placesOf_identifier (name : String) (pieces : List (SqlPiece α)) :
    placesOf (.identifier name :: pieces) = placesOf pieces := rfl

@[simp] theorem placesOf_value (place : α) (pieces : List (SqlPiece α)) :
    placesOf (.value place :: pieces) = place :: placesOf pieces := rfl

@[simp] theorem placesOf_limitWords (limit : Nat) (pieces : List (SqlPiece α)) :
    placesOf (limitWords limit :: pieces) = placesOf pieces := rfl

@[simp] theorem placesOf_compareSql (column : String) (operator : ComparisonOperator) (place : α) :
    placesOf (compareSql column operator place) = [place] := by
  cases operator <;> rfl

/-- The places of joined fragments are those of the fragments. -/
theorem placesOf_joined {separator : SqlPiece α} (plain : separator.place? = none)
    (parts : List (List (SqlPiece α))) :
    placesOf (joined separator parts) = parts.flatMap placesOf := by
  induction parts with
  | nil => rfl
  | cons part parts ih =>
    cases parts with
    | nil => simp [joined]
    | cons next rest =>
      have between : placesOf (separator :: joined separator (next :: rest)) =
          placesOf (joined separator (next :: rest)) := List.filterMap_cons_none plain
      rw [joined, placesOf_append, between, ih]
      rfl

/-- The places of a query are those of its conditions and of its offset. -/
theorem placesOf_rowsSql (select : List String) (schema relation : String)
    (conditions : List (List (SqlPiece α))) (orderBy : List (String × Direction)) (limit : Nat)
    (offset : Option α) :
    placesOf (rowsSql select schema relation conditions orderBy limit offset) =
      conditions.flatMap placesOf ++ offset.toList := by
  have columns : placesOf (joined (sql ", " (by decide)) (select.map fun name =>
      [identifier (α := α) name])) = [] := by
    rw [placesOf_joined rfl, List.flatMap_eq_nil_iff]
    intro part member
    obtain ⟨name, -, rfl⟩ := mem_map.mp member
    rfl
  have order : placesOf (if orderBy = [] then [] else
      sql " ORDER BY " (by decide) :: joined (sql ", " (by decide))
        (orderBy.map fun item => [identifier (α := α) item.1, item.2.words])) = [] := by
    split
    · rfl
    · rw [placesOf_sql, placesOf_joined rfl, List.flatMap_eq_nil_iff]
      intro part member
      obtain ⟨⟨column, direction⟩, -, rfl⟩ := mem_map.mp member
      cases direction <;> rfl
  have filtered : placesOf (if conditions = [] then [] else
      sql " WHERE " (by decide) :: joined (sql " AND " (by decide)) conditions) =
        conditions.flatMap placesOf := by
    split
    · next empty => rw [empty]; rfl
    · rw [placesOf_sql, placesOf_joined rfl]
  unfold rowsSql
  cases offset with
  | none => simp [columns, order, filtered]
  | some place => simp [columns, order, filtered]

/-! ## Queries with their places changed -/

variable (change : α → β)

@[simp] theorem map_sql (text : String) (plain : '$' ∉ text.toList) :
    (sql text plain).map change = sql text plain := rfl

@[simp] theorem map_identifier (name : String) :
    (identifier name).map change = .identifier name := rfl

@[simp] theorem map_limitWords (limit : Nat) :
    (limitWords limit).map change = limitWords limit := rfl

@[simp] theorem map_value (place : α) : (value place).map change = .value (change place) := rfl

abbrev changed (pieces : List (SqlPiece α)) : List (SqlPiece β) :=
  pieces.map (SqlPiece.map change)

/-- Joined fragments change place by place. -/
theorem changed_joined {separator : SqlWords} (parts : List (List (SqlPiece α))) :
    changed change (joined (.words separator) parts) =
      joined (.words separator) (parts.map (changed change)) := by
  induction parts with
  | nil => rfl
  | cons part parts ih =>
    cases parts with
    | nil => rfl
    | cons next rest =>
      rw [joined, changed, map_append, map_cons]
      exact congrArg (changed change part ++ ·) (congrArg (words separator :: ·) ih)

/-- A query changes place by place. -/
theorem changed_rowsSql (select : List String) (schema relation : String)
    (conditions : List (List (SqlPiece α))) (orderBy : List (String × Direction)) (limit : Nat)
    (offset : Option α) :
    changed change (rowsSql select schema relation conditions orderBy limit offset) =
      rowsSql select schema relation (conditions.map (changed change)) orderBy limit
        (offset.map change) := by
  have columns : changed change (joined (sql ", " (by decide)) (select.map fun name =>
      [identifier name])) =
        joined (sql ", " (by decide)) (select.map fun name => [identifier name]) := by
    rw [sql, changed_joined, List.map_map]
    rfl
  have order : changed change (if orderBy = [] then [] else
      sql " ORDER BY " (by decide) :: joined (sql ", " (by decide))
        (orderBy.map fun item => [identifier item.1, item.2.words])) =
      if orderBy = [] then [] else sql " ORDER BY " (by decide) :: joined (sql ", " (by decide))
        (orderBy.map fun item => [identifier item.1, item.2.words]) := by
    split
    · rfl
    · rw [sql, sql, changed, map_cons]
      refine congrArg (_ :: ·) ((changed_joined change _).trans ?_)
      rw [List.map_map]
      congr 1
      refine List.map_congr_left fun item _ => ?_
      obtain ⟨column, direction⟩ := item
      cases direction <;> rfl
  have filtered : changed change (if conditions = [] then [] else
      sql " WHERE " (by decide) :: joined (sql " AND " (by decide)) conditions) =
      if conditions.map (changed change) = [] then [] else
        sql " WHERE " (by decide) :: joined (sql " AND " (by decide))
          (conditions.map (changed change)) := by
    by_cases empty : conditions = []
    · rw [empty]
      rfl
    · rw [if_neg empty, if_neg (by simpa using empty)]
      exact congrArg (_ :: ·) (changed_joined change _)
  unfold rowsSql
  cases offset with
  | none =>
    simp only [map_cons, map_append, map_nil, columns, order, filtered, map_sql,
      map_identifier, map_limitWords, Option.map_none]
  | some place =>
    simp only [map_cons, map_append, map_nil, columns, order, filtered, map_sql,
      map_identifier, map_limitWords, map_value, map_some]

variable (column : String) (operator : ComparisonOperator) (ties terms : List (List (SqlPiece α)))

@[simp] theorem changed_compareSql (place : α) :
    changed change (compareSql column operator place) =
      compareSql column operator (change place) := by
  cases operator <;> rfl

@[simp] theorem changed_isNullSql : changed change (isNullSql column) = isNullSql column := rfl

/-! ## Filters and equalities -/

abbrev predicateSql (predicates : List Predicate) : List (List (SqlPiece Placeholder)) :=
  predicates.map Predicate.pieces

/-- Places that are read as the values they stand for, from a parameter on. -/
def ReadsFrom (read : Placeholder → Option (PgValue ν)) (paramIndex : Nat)
    (values : List (PgValue ν)) : Prop :=
  ∀ index value, values[index]? = some value → read (.parameter (paramIndex + index)) = some value

variable {columns : List DatabaseExplorerColumn}

theorem mappedColumn_name {name : String} {column : DatabaseExplorerColumn}
    (found : mappedColumn columns name = some column) : column.name = name := by
  simpa using List.find?_some found

variable {paramIndex : Nat} {built : List Predicate × List (PgValue ν)} {query : RowsQueryText ν}
  {meaning : List (SqlPiece (PgValue ν))} {conditions offsets : Nat} {tags : List Nat}

/-- A filter's condition has the place of its value, and means the filter. -/
theorem buildFilter_means {filter : FilterPredicate} {built : Predicate × Option (PgValue ν)}
    (succeeds : buildFilter columns filter paramIndex = .ok built) :
    placesOf built.1.pieces = (List.range' paramIndex built.2.toList.length).map .parameter ∧
      ∀ read : Placeholder → Option (PgValue ν), ReadsFrom read paramIndex built.2.toList →
        changed read built.1.pieces = changed some (filterMeaning filter) := by
  unfold buildFilter at succeeds
  cases found : mappedColumn columns filter.column with
  | none =>
    rw [found] at succeeds
    cases succeeds
  | some column =>
    have name := mappedColumn_name found
    rw [found] at succeeds
    dsimp only at succeeds
    split_ifs at succeeds with blocked unsupported null present
    · cases succeeds
      refine ⟨rfl, fun read reads => ?_⟩
      simp [filterMeaning, null, Predicate.pieces, name]
    · cases succeeds
      refine ⟨rfl, fun read reads => ?_⟩
      simp [filterMeaning, present, Predicate.pieces, name, isNotNullSql]
    · cases given : filter.value with
      | none =>
        rw [given] at succeeds
        cases succeeds
      | some value =>
        rw [given] at succeeds
        dsimp only at succeeds
        split_ifs at succeeds
        cases succeeds
        have own (read : Placeholder → Option (PgValue ν))
            (reads : ReadsFrom read paramIndex [.string value]) :
            read (.parameter paramIndex) = some (.string value) := reads 0 _ rfl
        cases operator : filter.operator with
        | isNull => exact absurd operator null
        | isNotNull => exact absurd operator present
        | contains =>
          refine ⟨rfl, fun read reads => ?_⟩
          simp [filterMeaning, operator, filterPredicate, Predicate.pieces, name, containsSql,
            given, own read reads]
        | _ =>
          refine ⟨by simp [filterPredicate, Predicate.pieces], fun read reads => ?_⟩
          simp [filterMeaning, operator, filterPredicate, Predicate.pieces, name, given,
            own read reads]

/-- Places read as values are read as those of a first part and of a second. -/
theorem ReadsFrom.parts {read : Placeholder → Option (PgValue ν)} {first second : List (PgValue ν)}
    (reads : ReadsFrom read paramIndex (first ++ second)) :
    ReadsFrom read paramIndex first ∧ ReadsFrom read (paramIndex + first.length) second := by
  constructor
  · intro index value found
    exact reads index value (List.getElem?_append_left
      (List.getElem?_eq_some_iff.mp found).1 ▸ found)
  · intro index value found
    have shifted : (first ++ second)[first.length + index]? = some value := by
      rw [List.getElem?_append_right (Nat.le_add_right _ _), Nat.add_sub_cancel_left]
      exact found
    have here := reads (first.length + index) value shifted
    rwa [← Nat.add_assoc] at here

theorem range_parts (paramIndex : Nat) (first second : List (PgValue ν)) :
    (List.range' paramIndex (first ++ second).length).map Placeholder.parameter =
      (List.range' paramIndex first.length).map .parameter ++
        (List.range' (paramIndex + first.length) second.length).map .parameter := by
  rw [length_append, ← map_append, List.range'_append_1]

/-- The conditions of filters have the places of their values, and mean the filters. -/
theorem buildFilters_means {filters : List FilterPredicate}
    (succeeds : buildFilters columns filters paramIndex = .ok built) :
    (predicateSql built.1).flatMap placesOf =
        (List.range' paramIndex built.2.length).map .parameter ∧
      ∀ read : Placeholder → Option (PgValue ν), ReadsFrom read paramIndex built.2 →
        (predicateSql built.1).map (changed read) =
          (filters.map filterMeaning).map (changed some) := by
  induction filters generalizing paramIndex built with
  | nil =>
    cases succeeds
    exact ⟨rfl, fun read reads => rfl⟩
  | cons filter filters ih =>
    rw [buildFilters] at succeeds
    split at succeeds
    · cases succeeds
    · next predicate value first =>
      split at succeeds
      · cases succeeds
      · next predicates values rest =>
        cases succeeds
        obtain ⟨places, means⟩ := buildFilter_means first
        obtain ⟨laterPlaces, laterMeans⟩ := ih rest
        constructor
        · rw [range_parts, ← places, ← laterPlaces]
          rfl
        · intro read reads
          obtain ⟨here, later⟩ := reads.parts
          exact congrArg₂ List.cons (means read here) (laterMeans read later)

/-- The conditions of equalities have the places of their values, and mean the equalities. -/
theorem buildTrusted_means {equalities : List (TrustedEquality ν)}
    (succeeds : buildTrusted columns equalities paramIndex = .ok built) :
    (predicateSql built.1).flatMap placesOf =
        (List.range' paramIndex built.2.length).map .parameter ∧
      ∀ read : Placeholder → Option (PgValue ν), ReadsFrom read paramIndex built.2 →
        (predicateSql built.1).map (changed read) =
          (equalities.map equalityMeaning).map (changed some) := by
  induction equalities generalizing paramIndex built with
  | nil =>
    cases succeeds
    exact ⟨rfl, fun read reads => rfl⟩
  | cons equality equalities ih =>
    rw [buildTrusted] at succeeds
    cases found : columns.find? fun column => column.name = equality.column with
    | none =>
      rw [found] at succeeds
      cases succeeds
    | some column =>
      have name : column.name = equality.column := by simpa using List.find?_some found
      rw [found] at succeeds
      dsimp only at succeeds
      split_ifs at succeeds
      split at succeeds
      · cases succeeds
      · split at succeeds
        · cases succeeds
        · next predicates values rest =>
          cases succeeds
          obtain ⟨laterPlaces, laterMeans⟩ := ih rest
          constructor
          · have one : (List.range' paramIndex (equality.value :: values).length).map
                Placeholder.parameter = Placeholder.parameter paramIndex ::
                  (List.range' (paramIndex + 1) values.length).map .parameter := rfl
            rw [one, ← laterPlaces]
            simp [predicateSql, Predicate.pieces]
          · intro read reads
            have both : ReadsFrom read paramIndex ([equality.value] ++ values) := reads
            obtain ⟨here, later⟩ := both.parts
            have own : read (.parameter paramIndex) = some equality.value := here 0 _ rfl
            have first : changed read (compareSql column.name .eq (.parameter paramIndex)) =
                changed some (equalityMeaning equality) := by
              rw [changed_compareSql, own, name, equalityMeaning, changed_compareSql]
            exact congrArg₂ List.cons first (laterMeans read later)

/-! ## The condition of a cursor -/

/-- The ties to components use the tags of their values in order, and mean the components. -/
theorem keysetPrefixSql_means (keys : List (CursorKey ν)) (values : List (PgValue ν)) :
    ∃ count, (keysetPrefixSql keys values).2.length = values.length + count ∧
      (count = 0 ↔ ∀ key ∈ keys, isNullValue key.value) ∧
      values <+: (keysetPrefixSql keys values).2 ∧
      (keysetPrefixSql keys values).1.flatMap placesOf =
        (List.range' values.length count).map .cursorTag ∧
      ∀ read : Placeholder → Option (PgValue ν), ReadsTags read (keysetPrefixSql keys values).2 →
        (keysetPrefixSql keys values).1.map (changed read) =
          (keys.map tieMeaning).map (changed some) := by
  induction keys generalizing values with
  | nil =>
    refine ⟨0, rfl, iff_of_true rfl (fun key member => ?_), List.prefix_refl values, rfl,
      fun read reads => rfl⟩
    cases member
  | cons key keys ih =>
    by_cases null : isNullValue key.value
    · obtain ⟨count, length, zero, extends_, places, means⟩ := ih values
      rw [keysetPrefixSql, if_pos null]
      refine ⟨count, length, ?_, extends_, places, fun read reads => ?_⟩
      · rw [zero, List.forall_mem_cons]
        exact (and_iff_right null).symm
      · have first : changed read (isNullSql key.column) = changed some (tieMeaning key) := by
          rw [tieMeaning, if_pos null]
          rfl
        exact congrArg₂ List.cons first (means read reads)
    · obtain ⟨count, length, zero, extends_, places, means⟩ := ih (values ++ [key.value])
      rw [length_append, List.length_singleton] at length places
      rw [keysetPrefixSql, if_neg null]
      refine ⟨count + 1, by rw [length]; omega, ?_, (List.prefix_append _ _).trans extends_, ?_,
        fun read reads => ?_⟩
      · refine iff_of_false (Nat.succ_ne_zero count) fun all => ?_
        exact null (all key List.mem_cons_self)
      · rw [List.flatMap_cons, placesOf_compareSql, places]
        rfl
      · have own : read (.cursorTag values.length) = some key.value :=
          reads values.length key.value (added_value extends_)
        have first : changed read (compareSql key.column .eq (.cursorTag values.length)) =
            changed some (tieMeaning key) := by
          rw [tieMeaning, if_neg null, changed_compareSql, changed_compareSql, own]
        exact congrArg₂ List.cons first (means read reads)

/-- No component is NULL after one that is not, from components that are done on. -/
def NullsLead : List (CursorKey ν) → List (CursorKey ν) → Prop
  | _, [] => True
  | done, key :: keys =>
    (isNullValue key.value = true → ∀ other ∈ done, isNullValue other.value = true) ∧
      NullsLead (done ++ [key]) keys

@[simp] theorem placesOf_keysetComparisonSql (column : String) (place : α) :
    placesOf (keysetComparisonSql operator column place) = [place] := by
  cases operator <;> rfl

/-- The places of a term are those of its ties and of its comparison. -/
theorem placesOf_keysetTermSql (comparison : List (SqlPiece α)) :
    placesOf (keysetTermSql ties comparison) = ties.flatMap placesOf ++ placesOf comparison := by
  cases ties with
  | nil => rfl
  | cons first others =>
    rw [keysetTermSql, placesOf_sql, placesOf_append, placesOf_append, placesOf_joined rfl,
      placesOf_sql, placesOf_sql]
    simp

/-- A term changes place by place. -/
theorem changed_keysetTermSql (column : String) (place : α) :
    changed change (keysetTermSql ties (keysetComparisonSql operator column place)) =
      keysetTermSql (ties.map (changed change))
        (keysetComparisonSql operator column (change place)) := by
  have comparison : changed change (keysetComparisonSql operator column place) =
      keysetComparisonSql operator column (change place) := by
    cases operator <;> rfl
  cases ties with
  | nil => exact comparison
  | cons first others =>
    have tied : changed change (joined (sql " AND " (by decide)) (first :: others)) =
        joined (sql " AND " (by decide)) ((first :: others).map (changed change)) :=
      changed_joined change (first :: others)
    simp only [keysetTermSql, changed, map_cons, map_append, map_nil, map_sql] at *
    rw [tied, comparison]

/-- The terms of a cursor use the tags of its values in order, each at most once, and mean the
components; they use them all when no component is NULL after one that is not. -/
theorem keysetTermsSql_means (done keys : List (CursorKey ν)) (values : List (PgValue ν)) :
    ∃ tags : List Nat,
      (keysetTermsSql operator done keys values).1.flatMap placesOf = tags.map .cursorTag ∧
      tags.Pairwise (· < ·) ∧
      (∀ tag ∈ tags, values.length ≤ tag ∧
        tag < (keysetTermsSql operator done keys values).2.length) ∧
      values.length + tags.length ≤ (keysetTermsSql operator done keys values).2.length ∧
      (values.length + tags.length = (keysetTermsSql operator done keys values).2.length ↔
        NullsLead done keys) ∧
      values <+: (keysetTermsSql operator done keys values).2 ∧
      ∀ read : Placeholder → Option (PgValue ν),
        ReadsTags read (keysetTermsSql operator done keys values).2 →
        (keysetTermsSql operator done keys values).1.map (changed read) =
          (termsMeaning operator done keys).map (changed some) := by
  induction keys generalizing done values with
  | nil =>
    refine ⟨[], rfl, .nil, fun tag member => ?_, Nat.le_refl _, iff_of_true rfl trivial,
      List.prefix_refl values, fun read reads => rfl⟩
    cases member
  | cons key keys ih =>
    obtain ⟨count, length, zero, extends_, places, means⟩ := keysetPrefixSql_means done values
    by_cases null : isNullValue key.value
    · obtain ⟨tags, used, ordered, bounds, most, all, longer, meant⟩ :=
        ih (done ++ [key]) (keysetPrefixSql done values).2
      rw [keysetTermsSql, if_pos null, termsMeaning, if_pos null]
      refine ⟨tags, used, ordered, fun tag member => ?_, by omega, ?_, extends_.trans longer, meant⟩
      · obtain ⟨low, high⟩ := bounds tag member
        exact ⟨by omega, high⟩
      · rw [NullsLead, ← all, ← zero, forall_prop_of_true null]
        omega
    · obtain ⟨tags, used, ordered, bounds, most, all, longer, meant⟩ :=
        ih (done ++ [key]) ((keysetPrefixSql done values).2 ++ [key.value])
      rw [length_append, List.length_singleton] at bounds most all
      rw [keysetTermsSql, if_neg null, termsMeaning, if_neg null]
      dsimp only
      have inside := (List.prefix_append (keysetPrefixSql done values).2 [key.value]).trans longer
      refine ⟨List.range' values.length (count + 1) ++ tags, ?_, ?_, ?_, ?_, ?_,
        extends_.trans inside, fun read reads => ?_⟩
      · have own : List.range' values.length (count + 1) =
            List.range' values.length count ++ [(keysetPrefixSql done values).2.length] := by
          rw [length, List.range'_concat]
          simp
        rw [List.flatMap_cons, placesOf_keysetTermSql, placesOf_keysetComparisonSql, places, used,
          own]
        simp
      · refine List.pairwise_append.mpr ⟨List.pairwise_lt_range', ordered, ?_⟩
        intro tag member other later
        have low := (bounds other later).1
        have high := (mem_range'_1.mp member).2
        omega
      · intro tag member
        rcases List.mem_append.mp member with here | later
        · have range := mem_range'_1.mp here
          constructor
          · exact range.1
          · have total := longer.length_le
            omega
        · obtain ⟨low, high⟩ := bounds tag later
          exact ⟨by omega, high⟩
      · rw [length_append, length_range']
        omega
      · rw [NullsLead, ← all, length_append, length_range']
        constructor
        · intro total
          exact ⟨fun other => absurd other null, by omega⟩
        · rintro ⟨-, total⟩
          omega
      · have tied : ReadsTags read (keysetPrefixSql done values).2 := by
          intro index value found
          obtain ⟨more, whole⟩ := inside
          refine reads index value ?_
          rw [← whole, List.getElem?_append_left (List.getElem?_eq_some_iff.mp found).1]
          exact found
        have own : read (.cursorTag (keysetPrefixSql done values).2.length) = some key.value :=
          reads _ _ (added_value longer)
        have first : changed read (keysetTermSql (keysetPrefixSql done values).1
            (keysetComparisonSql operator key.column
              (.cursorTag (keysetPrefixSql done values).2.length))) =
            changed some (keysetTermSql (done.map tieMeaning)
              (keysetComparisonSql operator key.column key.value)) := by
          rw [changed_keysetTermSql, changed_keysetTermSql, own, means read tied]
        exact congrArg₂ List.cons first (meant read reads)

theorem placesOf_keysetSql : placesOf (keysetSql terms) = terms.flatMap placesOf := by
  cases terms with
  | nil => rfl
  | cons first others =>
    rw [keysetSql, placesOf_sql, placesOf_append, placesOf_joined rfl, placesOf_sql, placesOf_nil,
      append_nil]

/-- A cursor's condition changes place by place. -/
theorem changed_keysetSql :
    changed change (keysetSql terms) = keysetSql (terms.map (changed change)) := by
  cases terms with
  | nil => rfl
  | cons first others =>
    have either : changed change (joined (sql " OR " (by decide)) (first :: others)) =
        joined (sql " OR " (by decide)) ((first :: others).map (changed change)) :=
      changed_joined change (first :: others)
    simp only [keysetSql, changed, map_cons, map_append, map_nil, map_sql] at *
    rw [either]

/-- No component of a cursor is NULL after one that is not. -/
def CursorNullsLead (position : Option (CursorPosition ν)) : Prop :=
  match position with
  | some (.keyset keys) => NullsLead [] keys
  | some (.offset _) | none => True

/-- The condition of a cursor uses the tags of its values and means the cursor. -/
theorem cursorSql_means (request : DatabaseRowsRequest) (position : Option (CursorPosition ν)) :
    ∃ tags : List Nat,
      ((cursorSql request position).map Prod.fst).toList.flatMap placesOf =
        tags.map .cursorTag ∧
      tags.Pairwise (· < ·) ∧
      (∀ tag ∈ tags, tag < (((cursorSql request position).map Prod.snd).getD []).length) ∧
      tags.length ≤ (((cursorSql request position).map Prod.snd).getD []).length ∧
      (tags.length = (((cursorSql request position).map Prod.snd).getD []).length ↔
        CursorNullsLead position) ∧
      ∀ read : Placeholder → Option (PgValue ν),
        ReadsTags read (((cursorSql request position).map Prod.snd).getD []) →
        ((cursorSql request position).map Prod.fst).toList.map (changed read) =
          (cursorMeaning request position).toList.map (changed some) := by
  have nothing : ∃ tags : List Nat, ([] : List Placeholder) = tags.map .cursorTag ∧
      tags.Pairwise (· < ·) ∧ (∀ tag ∈ tags, tag < 0) ∧ tags.length ≤ 0 ∧
      (tags.length = 0 ↔ True) ∧ ∀ read : Placeholder → Option (PgValue ν),
        ReadsTags read [] → True :=
    ⟨[], rfl, .nil, fun tag member => absurd member List.not_mem_nil, Nat.le_refl 0,
      iff_of_true rfl trivial, fun read reads => trivial⟩
  match position with
  | none =>
    obtain ⟨tags, places, ordered, bounds, most, all, -⟩ := nothing
    exact ⟨tags, places, ordered, bounds, most, all, fun read reads => rfl⟩
  | some (.offset offset) =>
    obtain ⟨tags, places, ordered, bounds, most, all, -⟩ := nothing
    exact ⟨tags, places, ordered, bounds, most, all, fun read reads => rfl⟩
  | some (.keyset keys) =>
    obtain ⟨tags, places, ordered, bounds, most, all, -, means⟩ := keysetTermsSql_means
      (keysetOperator ((request.sort.map SortDefinition.direction).getD .asc)) [] keys
      ([] : List (PgValue ν))
    rw [List.length_nil, Nat.zero_add] at most all
    refine ⟨tags, ?_, ordered, fun tag member => (bounds tag member).2, most, all,
      fun read reads => ?_⟩
    · show [keysetSql _].flatMap placesOf = _
      rw [List.flatMap_singleton, placesOf_keysetSql, places]
    · show [changed read (keysetSql _)] = [changed some (keysetSql _)]
      rw [changed_keysetSql, changed_keysetSql, means read reads]

/-! ## The whole query -/

/-- The conditions of a checked request have the places of its values and mean the request's. -/
theorem checkRowsQuery_means {snapshot : DatabaseExplorerSchemaSnapshot}
    {request : DatabaseRowsRequest} {trusted : List (TrustedEquality ν)} {checked : CheckedQuery ν}
    (succeeds : checkRowsQuery snapshot request trusted = .ok checked) :
    (predicateSql checked.predicates).flatMap placesOf =
        (List.range' 1 checked.values.length).map .parameter ∧
      ∀ read : Placeholder → Option (PgValue ν), ReadsFrom read 1 checked.values →
        (predicateSql checked.predicates).map (changed read) =
          (request.filters.map filterMeaning ++ trusted.map equalityMeaning).map
            (changed some) := by
  obtain ⟨-, -, filtered, equalities, first, second, predicates, values⟩ :=
    checkRowsQuery_built succeeds
  rw [buildFilterSql] at first
  split_ifs at first
  obtain ⟨places, means⟩ := buildFilters_means first
  obtain ⟨laterPlaces, laterMeans⟩ := buildTrusted_means second
  constructor
  · rw [predicates, values, range_parts, ← places, ← laterPlaces, predicateSql, map_append,
      List.flatMap_append]
  · intro read reads
    rw [values] at reads
    obtain ⟨here, later⟩ := reads.parts
    rw [predicates, predicateSql, map_append, map_append, map_append, means read here,
      laterMeans read later]

theorem map_map (first : α → β) {γ : Type} (second : β → γ) (piece : SqlPiece α) :
    (piece.map first).map second = piece.map (second ∘ first) := by
  cases piece <;> rfl

/-- A change of places changes those of pieces. -/
theorem placesOf_map (pieces : List (SqlPiece α)) :
    placesOf (pieces.map (map change)) = (placesOf pieces).map change := by
  induction pieces with
  | nil => rfl
  | cons piece pieces ih =>
    cases piece with
    | words fragment => exact ih
    | identifier name => exact ih
    | value place => exact congrArg (change place :: ·) ih

/-- The tag of a place. -/
def Placeholder.tag? : Placeholder → Option Nat
  | .cursorTag index => some index
  | .parameter _ => none

/-- The tags of pieces are those of their places. -/
theorem tags_placesOf (pieces : List (SqlPiece Placeholder)) :
    pieces.filterMap tag? = (placesOf pieces).filterMap Placeholder.tag? := by
  rw [placesOf, List.filterMap_filterMap]
  refine List.filterMap_congr fun piece _ => ?_
  cases piece with
  | words fragment => rfl
  | identifier name => rfl
  | value place => cases place <;> rfl

/-- What a query's text is: its places in order, with the tags among them, and what it means. -/
structure Written (query : RowsQueryText ν) (meaning : List (SqlPiece (PgValue ν)))
    (conditions offsets : Nat) (tags : List Nat) : Prop where
  places : placesOf query.pieces = (List.range' 1 conditions).map .parameter ++
    tags.map .cursorTag ++
      (List.range' (conditions + query.cursorValues + 1) offsets).map .parameter
  size : query.values.length = conditions + query.cursorValues + offsets
  apart : offsets = 0 ∨ query.cursorValues = 0
  ordered : tags.Pairwise (· < ·)
  bounds : ∀ tag ∈ tags, tag < query.cursorValues
  most : tags.length ≤ query.cursorValues
  means : changed (fun place => query.values[numberOf query.startIndex place - 1]?) query.pieces =
    changed some meaning

/-- The tags of a written query. -/
theorem Written.tags_eq (written : Written query meaning conditions offsets tags) :
    query.pieces.filterMap tag? = tags := by
  have none_ (numbers : List Nat) :
      (numbers.map Placeholder.parameter).filterMap Placeholder.tag? = [] := by
    rw [List.filterMap_map]
    exact List.filterMap_eq_nil_iff.mpr fun _ _ => rfl
  have some_ : (tags.map Placeholder.cursorTag).filterMap Placeholder.tag? = tags := by
    rw [List.filterMap_map]
    exact (List.filterMap_congr fun _ _ => rfl).trans List.filterMap_some
  rw [tags_placesOf, written.places, List.filterMap_append, List.filterMap_append, none_, none_,
    some_, List.nil_append, append_nil]

/-- The text that is sent is the query with its values as parameters exactly when the identifiers
avoid the tags and every tag is used. -/
theorem Written.parametrises_iff (written : Written query meaning conditions offsets tags) :
    Parametrises query.finalSql query.values meaning ↔
      NamesAvoidTags (List.range query.cursorValues) query.pieces ∧
        tags.length = query.cursorValues := by
  have distinct : tags.Nodup := written.ordered.imp fun less => Nat.ne_of_lt less
  have once : (query.pieces.filterMap tag?).Nodup := written.tags_eq ▸ distinct
  have inside : ∀ index ∈ query.pieces.filterMap tag?, index ∈ List.range query.cursorValues := by
    rw [written.tags_eq]
    exact fun index member => mem_range.mpr (written.bounds index member)
  constructor
  · rintro ⟨pieces, text, numbers, means⟩
    have shape : query.pieces.map (map fun _ => ()) = pieces.map (map fun _ => ()) := by
      have left := congrArg (List.map (map fun _ => ())) written.means
      have right := congrArg (List.map (map fun _ => ())) means
      simp only [changed, List.map_map, Function.comp_def, map_map] at left right
      exact left.trans right.symm
    refine ⟨avoid_of_replaceTags query.startIndex List.nodup_range once inside shape text, ?_⟩
    have count : (placesOf pieces).length = conditions + tags.length + offsets := by
      have same := congrArg (fun parts => (placesOf parts).length) shape
      simp only [placesOf_map, length_map] at same
      rw [← same, written.places, length_append, length_append, length_map,
        length_map, length_map, length_range', length_range']
    have all : List.range' 1 query.values.length ⊆ placesOf pieces := fun index member =>
      (numbers index).mpr ⟨(mem_range'_1.mp member).1, by
        have below := (mem_range'_1.mp member).2
        omega⟩
    have enough := (List.subperm_of_subset List.nodup_range' all).length_le
    rw [length_range', written.size, count] at enough
    have most := written.most
    omega
  · rintro ⟨avoid, used⟩
    refine ⟨query.pieces.map (map (numberOf query.startIndex)),
      replaceTags_of_avoid query.startIndex List.nodup_range once inside avoid, ?_, ?_⟩
    · have whole : tags.Perm (List.range query.cursorValues) := by
        refine (List.subperm_of_subset distinct fun tag member =>
          mem_range.mpr (written.bounds tag member)).perm_of_length_le ?_
        rw [List.length_range, used]
      have start : query.startIndex = conditions + offsets + 1 := by
        have size := written.size
        unfold RowsQueryText.startIndex
        omega
      have apart := written.apart
      intro index
      show index ∈ placesOf _ ↔ _
      rw [placesOf_map, written.places, written.size]
      simp only [map_append, List.map_map, List.mem_append, mem_map, Function.comp_apply,
        numberOf, whole.mem_iff, mem_range, mem_range'_1, exists_eq_right, start]
      constructor
      · rintro ((low | ⟨tag, below, rfl⟩) | high) <;> omega
      · rintro ⟨positive, most⟩
        by_cases low : index < 1 + conditions
        · exact .inl (.inl ⟨positive, low⟩)
        · by_cases high : query.cursorValues = 0
          · exact .inr (by omega)
          · exact .inl (.inr ⟨index - (conditions + offsets + 1), by omega, by omega⟩)
    · show _ = changed some meaning
      rw [← written.means, changed, List.map_map]
      exact List.map_congr_left fun piece _ => map_map _ _ piece

section

variable [JsonRuntime ν] {snapshot : DatabaseExplorerSchemaSnapshot} {request : DatabaseRowsRequest}
  {trusted : List (TrustedEquality ν)} {query : RowsQueryText ν}

/-- A query of checked conditions, a cursor's condition and an offset is written. -/
theorem written_rowsSql {checked : CheckedQuery ν}
    (succeeds : checkRowsQuery snapshot request trusted = .ok checked)
    (position : Option (CursorPosition ν)) {cursorValues : List (PgValue ν)}
    (passed : ((cursorSql request position).map Prod.snd).getD [] = cursorValues)
    (offset : Option (PgValue ν)) (apart : offset = none ∨ cursorValues = [])
    (means : offsetMeaning position = offset)
    (values : query.values = checked.values ++ cursorValues ++ offset.toList)
    (count : query.cursorValues = cursorValues.length)
    (relation : query.relation = checked.relation) (pieces : query.pieces = rowsSql
      ((selectableColumns checked.relation).map DatabaseExplorerColumn.name) request.schema
      request.relation
      (predicateSql checked.predicates ++ ((cursorSql request position).map Prod.fst).toList)
      (orderItems request.sort checked.relation.paginationKey) (request.pageSize + 1)
      (offset.map fun _ => .parameter ((checked.values ++ cursorValues).length + 1))) :
    ∃ conditions offsets tags,
      Written query (queryMeaning query.relation request trusted position) conditions offsets tags ∧
        (tags.length = query.cursorValues ↔ CursorNullsLead position) := by
  obtain ⟨places, conditionsMean⟩ := checkRowsQuery_means succeeds
  obtain ⟨tags, used, ordered, bounds, most, all, cursorMeans⟩ := cursorSql_means request position
  rw [passed, ← count] at bounds most all
  rw [passed] at cursorMeans
  have size : query.values.length =
      checked.values.length + query.cursorValues + offset.toList.length := by
    rw [values, length_append, length_append, count]
  have read (place : Nat) (value : PgValue ν) (found : (checked.values ++ cursorValues)[place]? =
      some value) : query.values[place]? = some value := by
    rw [values, List.getElem?_append_left (List.getElem?_eq_some_iff.mp found).1]
    exact found
  refine ⟨checked.values.length, offset.toList.length, tags,
    { places := ?_, size := size, apart := ?_, ordered := ordered, bounds := bounds, most := most,
      means := ?_ }, all⟩
  · rw [pieces, placesOf_rowsSql, List.flatMap_append, places, used, count]
    cases offset with
    | none => rfl
    | some value => rw [length_append]; rfl
  · rcases apart with without | empty
    · exact .inl (by rw [without]; rfl)
    · exact .inr (by rw [count, empty]; rfl)
  · have filters : ReadsFrom (fun place => query.values[numberOf query.startIndex place - 1]?) 1
        checked.values := by
      intro index value found
      have here : (checked.values ++ cursorValues)[index]? = some value := by
        rw [List.getElem?_append_left (List.getElem?_eq_some_iff.mp found).1]
        exact found
      have number : numberOf query.startIndex (.parameter (1 + index)) - 1 = index := by
        rw [numberOf, Nat.add_sub_cancel_left]
      show query.values[_]? = some value
      rw [number]
      exact read index value here
    have cursor : ReadsTags (fun place => query.values[numberOf query.startIndex place - 1]?)
        cursorValues := by
      intro index value found
      have here : (checked.values ++ cursorValues)[checked.values.length + index]? =
          some value := by
        rw [List.getElem?_append_right (Nat.le_add_right _ _), Nat.add_sub_cancel_left]
        exact found
      have without : offset.toList.length = 0 := by
        rcases apart with without | empty
        · rw [without]
          rfl
        · rw [empty] at found
          cases found
      have number : numberOf query.startIndex (.cursorTag index) - 1 =
          checked.values.length + index := by
        rw [numberOf, RowsQueryText.startIndex]
        omega
      show query.values[_]? = some value
      rw [number]
      exact read _ value here
    have last : (offset.map fun _ => Placeholder.parameter
        ((checked.values ++ cursorValues).length + 1)).map
          (fun place => query.values[numberOf query.startIndex place - 1]?) = offset.map some := by
      cases offset with
      | none => rfl
      | some value =>
        have number : numberOf query.startIndex
            (.parameter ((checked.values ++ cursorValues).length + 1)) - 1 =
              (checked.values ++ cursorValues).length := rfl
        rw [map_some, map_some, map_some, number, values,
          List.getElem?_append_right (Nat.le_refl _), Nat.sub_self]
        rfl
    rw [pieces, changed_rowsSql, queryMeaning, changed_rowsSql, relation, means, map_append,
      map_append, conditionsMean _ filters, cursorMeans _ cursor, last]

/-- An accepted query is written. -/
theorem buildRowsQueryText_written {position : Option (CursorPosition ν)}
    (accepted : buildRowsQueryText snapshot request trusted position = .ok query) :
    ∃ conditions offsets tags,
      Written query (queryMeaning query.relation request trusted position) conditions offsets tags ∧
        (tags.length = query.cursorValues ↔ CursorNullsLead position) := by
  unfold buildRowsQueryText at accepted
  cases succeeds : checkRowsQuery snapshot request trusted with
  | error error =>
    rw [succeeds] at accepted
    cases accepted
  | ok checked =>
    rw [succeeds] at accepted
    match position, accepted with
    | none, accepted =>
      cases accepted
      exact written_rowsSql succeeds none rfl none (.inl rfl) rfl (append_nil _).symm rfl rfl
        rfl
    | some (.keyset keys), accepted =>
      cases accepted
      exact written_rowsSql succeeds (some (.keyset keys)) rfl none (.inl rfl) rfl
        (append_nil _).symm rfl rfl rfl
    | some (.offset offset), accepted =>
      dsimp only at accepted
      split_ifs at accepted with low high
      · cases accepted
        exact written_rowsSql succeeds (some (.offset offset)) rfl none (.inl rfl)
          (by rw [offsetMeaning, if_pos low]) (append_nil _).symm rfl rfl rfl
      · cases accepted
        exact written_rowsSql succeeds (some (.offset offset)) rfl
          (some (.number (JsonRuntime.readNumber (Numeral.ofInt offset)))) (.inr rfl)
          (by rw [offsetMeaning, if_neg low]) rfl rfl rfl rfl

/-- The text sent for an accepted request is its query with exactly the values passed as parameters,
each in its own place, if and only if no identifier before the place of a cursor's value contains its
tag and no component of the cursor is NULL after one that is not. -/
theorem parameters_in_place (snapshot : DatabaseExplorerSchemaSnapshot)
    (request : DatabaseRowsRequest) (trusted : List (TrustedEquality ν))
    (position : Option (CursorPosition ν)) (query : RowsQueryText ν)
    (accepted : buildRowsQueryText snapshot request trusted position = .ok query) :
    Parametrises query.finalSql query.values
        (queryMeaning query.relation request trusted position) ↔
      NamesAvoidTags (List.range query.cursorValues) query.pieces ∧ CursorNullsLead position := by
  obtain ⟨conditions, offsets, tags, written, all⟩ := buildRowsQueryText_written accepted
  rw [written.parametrises_iff, all]

end

/-- A snapshot with one relation, whose rows an id tells apart. -/
def pageSnapshot (columns : List String) : DatabaseExplorerSchemaSnapshot where
  targetId := .ops
  checksum := "c1"
  policyVersion := "v1"
  schemas := [⟨"public", [{
    name := "notes"
    columns := columns.map fun name => ⟨name, "text", .«public», true, [.eq]⟩
    dataAvailable := true
    paginationKey := some ["id"] }]⟩]
  edges := []

/-- A request for the notes of one author. -/
def pageRequest : DatabaseRowsRequest where
  targetId := .ops
  schema := "public"
  relation := "notes"
  pageSize := 25
  cursor := none
  sort := some ⟨"author", .desc⟩
  filters := [⟨"author", .eq, some "ada"⟩]
  piiMode := .masked

def pagePosition : CursorPosition Int := .keyset [⟨"author", .string "ada"⟩, ⟨"id", .string "7"⟩]

/-- The text of the query after a note: its filter's value is the first parameter, and those of its
cursor follow. -/
theorem after_note : ∃ query : RowsQueryText Int,
    buildRowsQueryText (pageSnapshot ["id", "author"]) pageRequest [] (some pagePosition) =
      .ok query ∧
    query.finalSql = ("SELECT \"id\", \"author\" FROM \"public\".\"notes\" WHERE " ++
      "\"author\" = $1 AND ((\"author\" < $2 OR \"author\" IS NULL) OR " ++
      "(\"author\" = $3 AND (\"id\" < $4 OR \"id\" IS NULL))) " ++
      "ORDER BY \"author\" DESC NULLS LAST, \"id\" DESC NULLS LAST LIMIT 26").toList ∧
    Parametrises query.finalSql query.values
      (queryMeaning query.relation pageRequest [] (some pagePosition)) := by
  refine ⟨_, rfl, by decide +kernel, ?_⟩
  refine (parameters_in_place (pageSnapshot ["id", "author"]) pageRequest [] (some pagePosition) _
    rfl).mpr ⟨namesAvoidTags_of_plain _ (by decide +kernel), ?_⟩
  exact ⟨(fun null => by cases null), (fun null => by cases null), trivial⟩

/-- A column named as the tag of the cursor's first value takes that value's number: the tag stays in
the text. -/
theorem column_named_as_a_tag : ∃ query : RowsQueryText Int,
    buildRowsQueryText (pageSnapshot ["id", "author", "$__CURSOR_PARAM_0__"]) pageRequest []
      (some pagePosition) = .ok query ∧
    query.finalSql = ("SELECT \"id\", \"author\", \"$2\" FROM \"public\".\"notes\" WHERE " ++
      "\"author\" = $1 AND ((\"author\" < $__CURSOR_PARAM_0__ OR \"author\" IS NULL) OR " ++
      "(\"author\" = $3 AND (\"id\" < $4 OR \"id\" IS NULL))) " ++
      "ORDER BY \"author\" DESC NULLS LAST, \"id\" DESC NULLS LAST LIMIT 26").toList ∧
    ¬ Parametrises query.finalSql query.values
      (queryMeaning query.relation pageRequest [] (some pagePosition)) := by
  have accepted : buildRowsQueryText (ν := Int)
      (pageSnapshot ["id", "author", "$__CURSOR_PARAM_0__"]) pageRequest [] (some pagePosition) =
        .ok _ := rfl
  refine ⟨_, accepted, by decide +kernel, fun parametrises => ?_⟩
  obtain ⟨conditions, offsets, tags, written, -⟩ := buildRowsQueryText_written accepted
  have avoid := (written.parametrises_iff.mp parametrises).1
  have placed := avoid [sql "SELECT " (by decide), .identifier "id", sql ", " (by decide),
    .identifier "author", sql ", " (by decide)] "$__CURSOR_PARAM_0__" _ rfl 0 (by decide)
    ⟨[], [], by decide⟩
  simp [sql] at placed

end NancyMan.Explorer
