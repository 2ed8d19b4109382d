import NancyMan.Explorer.KeysetCondition
import NancyMan.Lib.Keyset

/-!
# The query of a page

The parameters of the filters keep their numbers and values when a cursor's condition is added,
and the tags of the condition are numbered after them, so the query of a later page selects the
filtered rows that its condition keeps: `run_page`.
-/
namespace NancyMan.Explorer

open Sql
open List (all_eq_true length_append map_cons mem_append mem_append_left mem_cons mem_map
  mem_singleton)

variable {ν V : Type}

/-- The columns of a row that a request's query selects, as the driver returns them. -/
def selectedRow (worker : Worker ν V) (relation : DatabaseExplorerRelation) (row : Row V) :
    ResultRow ν :=
  worker.server.project ((selectableColumns relation).map DatabaseExplorerColumn.name) row

variable {relation : DatabaseExplorerRelation} {column : String} {paramIndex : Nat}
  {filters : List FilterPredicate} {built : List Predicate × List (PgValue ν)}
  {equalities : List (TrustedEquality ν)} {snapshot : DatabaseExplorerSchemaSnapshot}
  {request : DatabaseRowsRequest} {trusted : List (TrustedEquality ν)} {checked : CheckedQuery ν}

/-- A selected column of a row reads as the stored value, or `null`. -/
theorem selectedRow_eq (worker : Worker ν V) (row : Row V)
    (selected : ((selectableColumns relation).map DatabaseExplorerColumn.name).contains column =
      true) :
    selectedRow worker relation row column =
      match row column with
      | some value => worker.server.fetch value
      | none => .null := by
  exact if_pos selected

/-! ## Numbered parameters -/

def Numbered (low high : Nat) (predicate : Predicate) : Prop :=
  ∀ place ∈ predicate.places, ∃ index, place = .parameter index ∧ low ≤ index ∧ index < high

theorem Numbered.widen {low low' high high' : Nat} {predicate : Predicate}
    (numbered : Numbered low high predicate) (below : low' ≤ low) (above : high ≤ high') :
    Numbered low' high' predicate := by
  intro place member
  obtain ⟨index, same, atLeast, less⟩ := numbered place member
  exact ⟨index, same, by omega, by omega⟩

theorem filterPredicate_numbered (column : String) (operator : DatabaseFilterOperator)
    (index : Nat) :
    Numbered index (index + 1) (filterPredicate column operator (.parameter index)) := by
  intro place member
  cases operator <;> simp only [filterPredicate, Predicate.places, mem_singleton,
    List.not_mem_nil] at member <;> exact ⟨index, member, by omega, by omega⟩

variable {columns : List DatabaseExplorerColumn}

/-- A built filter uses the parameter of its value. -/
theorem buildFilter_numbered {filter : FilterPredicate} {built : Predicate × Option (PgValue ν)}
    (succeeds : buildFilter columns filter paramIndex = .ok built) :
    Numbered paramIndex (paramIndex + built.2.toList.length) built.1 := by
  unfold buildFilter at succeeds
  split at succeeds
  · cases succeeds
  · split_ifs at succeeds
    · cases succeeds
      intro place member
      cases member
    · cases succeeds
      intro place member
      cases member
    · split at succeeds
      · cases succeeds
      · split_ifs at succeeds
        cases succeeds
        exact filterPredicate_numbered _ _ _

/-- Built filters use the parameters of their values. -/
theorem buildFilters_numbered (succeeds : buildFilters columns filters paramIndex = .ok built) :
    ∀ predicate ∈ built.1, Numbered paramIndex (paramIndex + built.2.length) predicate := by
  induction filters generalizing paramIndex built with
  | nil =>
    cases succeeds
    intro predicate member
    cases member
  | cons filter filters ih =>
    rw [buildFilters] at succeeds
    split at succeeds
    · cases succeeds
    · next predicate value first =>
      split at succeeds
      · cases succeeds
      · next predicates values rest =>
        cases succeeds
        intro other member
        rcases mem_cons.mp member with rfl | later
        · refine (buildFilter_numbered first).widen (Nat.le_refl _) ?_
          simp only [length_append]
          omega
        · refine (ih rest other later).widen (Nat.le_add_right _ _) ?_
          simp only [length_append]
          omega

/-- Trusted equalities use the parameters of their values. -/
theorem buildTrusted_numbered (succeeds : buildTrusted columns equalities paramIndex = .ok built) :
    ∀ predicate ∈ built.1, Numbered paramIndex (paramIndex + built.2.length) predicate := by
  induction equalities generalizing paramIndex built with
  | nil =>
    cases succeeds
    intro predicate member
    cases member
  | cons equality equalities ih =>
    rw [buildTrusted] at succeeds
    split at succeeds
    · cases succeeds
    · split_ifs at succeeds
      split at succeeds
      · cases succeeds
      · split at succeeds
        · cases succeeds
        · next predicates values rest =>
          cases succeeds
          intro other member
          rcases mem_cons.mp member with rfl | later
          · intro place only
            rw [Predicate.places, mem_singleton] at only
            exact ⟨paramIndex, only, Nat.le_refl _, by simp only [List.length_cons]; omega⟩
          · refine (ih rest other later).widen (Nat.le_add_right _ _) ?_
            simp only [List.length_cons]
            omega

/-- The conditions of filters and equalities use the parameters of their values. -/
theorem conditions_numbered {filtered trusted : List Predicate × List (PgValue ν)}
    (first : buildFilterSql columns filters 1 = .ok filtered)
    (second : buildTrusted columns equalities (1 + filtered.2.length) = .ok trusted) :
    ∀ predicate ∈ filtered.1 ++ trusted.1,
      Numbered 1 ((filtered.2 ++ trusted.2).length + 1) predicate := by
  intro predicate member
  rw [length_append]
  rcases mem_append.mp member with filter | equality
  · rw [buildFilterSql] at first
    split_ifs at first
    exact (buildFilters_numbered first predicate filter).widen (by omega) (by omega)
  · exact (buildTrusted_numbered second predicate equality).widen (by omega) (by omega)

variable {paginationKey : List String}

/-- A pagination key that pages use is the relation's. -/
theorem paginationKey_of_stable (stable : stableKey relation = some paginationKey) :
    relation.paginationKey = some paginationKey := by
  unfold stableKey at stable
  split at stable
  · cases stable
  · cases stable
  · next column columns known =>
    cases stable
    exact known

/-- The relation of a request is the one of the snapshot that it names. -/
theorem requestedRelation_found {worker : Worker ν V}
    (requested : requestedRelation worker snapshot request = .ok relation) :
    findRelation snapshot request.schema request.relation = .ok relation := by
  unfold requestedRelation at requested
  split at requested
  · cases requested
  · split at requested
    · cases requested
    · split at requested
      · cases requested
      · next stored found =>
        split at requested
        · cases requested
        · rw [found, Except.ok.inj requested]

/-- What the checks of a rows query establish, and what its conditions are built from. -/
theorem checkRowsQuery_built (succeeds : checkRowsQuery snapshot request trusted = .ok checked) :
    findRelation snapshot request.schema request.relation = .ok checked.relation ∧
      (∀ sort, request.sort = some sort →
        ∃ column ∈ selectableColumns checked.relation, column.name = sort.column) ∧
      ∃ filtered equalities,
        buildFilterSql checked.relation.columns request.filters 1 = .ok filtered ∧
        buildTrusted checked.relation.columns trusted (1 + filtered.2.length) = .ok equalities ∧
        checked.predicates = filtered.1 ++ equalities.1 ∧
        checked.values = filtered.2 ++ equalities.2 := by
  unfold checkRowsQuery at succeeds
  cases found : findRelation snapshot request.schema request.relation with
  | error error => simp [found, bind, Except.bind] at succeeds
  | ok relation =>
    simp only [found, bind, Except.bind] at succeeds
    split_ifs at succeeds
    cases sorted : request.sort with
    | none =>
      simp only [sorted] at succeeds
      split at succeeds
      · cases succeeds
      · next filtered first =>
        split at succeeds
        · cases succeeds
        · next equalities second =>
          cases succeeds
          refine ⟨rfl, ?_, filtered, equalities, first, second, rfl, rfl⟩
          intro other same
          cases same
    | some sort =>
      simp only [sorted] at succeeds
      split_ifs at succeeds with missing
      split at succeeds
      · cases succeeds
      · next filtered first =>
        split at succeeds
        · cases succeeds
        · next equalities second =>
          cases succeeds
          refine ⟨rfl, ?_, filtered, equalities, first, second, rfl, rfl⟩
          intro other same
          cases same
          simpa using missing

/-- What the checks of a rows query establish. -/
theorem checkRowsQuery_ok (succeeds : checkRowsQuery snapshot request trusted = .ok checked) :
    findRelation snapshot request.schema request.relation = .ok checked.relation ∧
      (∀ sort, request.sort = some sort →
        ∃ column ∈ selectableColumns checked.relation, column.name = sort.column) ∧
      ∀ predicate ∈ checked.predicates, Numbered 1 (checked.values.length + 1) predicate := by
  obtain ⟨found, sorted, filtered, equalities, first, second, predicates, values⟩ :=
    checkRowsQuery_built succeeds
  refine ⟨found, sorted, ?_⟩
  rw [predicates, values]
  exact conditions_numbered first second

/-! ## Lookups -/

section Lookups

/-- The places of numbered tags. -/
theorem places_numberTags (count start : Nat) (predicate : Predicate) :
    (numberTags count start predicate).places =
      predicate.places.map (numberTag count start) := by
  induction predicate with
  | isNull column => rfl
  | isNotNull column => rfl
  | never => rfl
  | compare column operator place => rfl
  | contains column place => rfl
  | and left right first second => simp [numberTags, Predicate.places, first, second]
  | or left right first second => simp [numberTags, Predicate.places, first, second]

variable [LinearOrder V] (server : SqlServer ν V) (dataType : String → String) (row : Row V)

/-- A condition is accepted and keeps a row by what its values are. -/
theorem verdicts_congr {lookup lookup' : Placeholder → Option (PgValue ν)} {predicate : Predicate}
    (same : ∀ place ∈ predicate.places, lookup place = lookup' place) :
    server.accepts dataType lookup predicate = server.accepts dataType lookup' predicate ∧
      server.truth dataType lookup row predicate =
        server.truth dataType lookup' row predicate := by
  induction predicate with
  | isNull column => exact ⟨rfl, rfl⟩
  | isNotNull column => exact ⟨rfl, rfl⟩
  | never => exact ⟨rfl, rfl⟩
  | compare column operator place =>
    have here := same place (.head _)
    simp [SqlServer.accepts, SqlServer.truth, SqlServer.argument, here]
  | contains column place =>
    have here := same place (.head _)
    simp [SqlServer.accepts, SqlServer.truth, here]
  | and left right first second | or left right first second =>
    have left := first fun place member => same place (mem_append_left _ member)
    have right := second fun place member => same place (List.mem_append_right _ member)
    simp [SqlServer.accepts, SqlServer.truth, left, right]

/-- Numbered tags are accepted and keep rows as what they are numbered to. -/
theorem verdicts_numberTags (lookup : Placeholder → Option (PgValue ν)) (count start : Nat)
    (predicate : Predicate) :
    (server.accepts dataType lookup (numberTags count start predicate) =
      server.accepts dataType (fun place => lookup (numberTag count start place)) predicate) ∧
    server.truth dataType lookup row (numberTags count start predicate) =
      server.truth dataType (fun place => lookup (numberTag count start place)) row predicate := by
  induction predicate with
  | isNull column => exact ⟨rfl, rfl⟩
  | isNotNull column => exact ⟨rfl, rfl⟩
  | never => exact ⟨rfl, rfl⟩
  | compare column operator place => exact ⟨rfl, rfl⟩
  | contains column place => exact ⟨rfl, rfl⟩
  | and left right first second | or left right first second =>
    simp [numberTags, SqlServer.accepts, SqlServer.truth, first, second]

end Lookups

variable (values extra : List (PgValue ν))

/-- A tag that is numbered after some values stands for the cursor's value. -/
theorem valueAt_tag (index : Nat) :
    valueAt (values ++ extra) (numberTag extra.length (values.length + 1) (.cursorTag index)) =
      extra[index]? := by
  by_cases inside : index < extra.length
  · have position : values.length + 1 + index - 1 = values.length + index := by omega
    rw [numberTag, if_pos inside, valueAt, if_neg (by omega), position,
      List.getElem?_append_right (by omega), Nat.add_sub_cancel_left]
  · rw [numberTag, if_neg inside, valueAt, List.getElem?_eq_none (by omega)]

theorem valueAt_parameter {index : Nat} (positive : 1 ≤ index)
    (inside : index < values.length + 1) :
    valueAt (values ++ extra) (.parameter index) = valueAt values (.parameter index) := by
  rw [valueAt, valueAt, if_neg (by omega), if_neg (by omega), List.getElem?_append_left (by omega)]

/-! ## The order of a request -/

variable (sort : Option SortDefinition)

def queryOrder (paginationKey : Option (List String)) : List (String × Bool) :=
  (orderItems sort paginationKey).map fun item => (item.1, decide (item.2 = .asc))

def isAscending : Bool :=
  decide ((sort.map SortDefinition.direction).getD .asc = .asc)

/-- The columns that are not in a list yet, each once. -/
def freshColumns (seen : List String) : List String → List String
  | [] => []
  | column :: columns =>
    if seen.contains column then freshColumns seen columns
    else column :: freshColumns (seen ++ [column]) columns

/-- A cursor's columns are the sort column and the rest of the pagination key, each once. -/
theorem getCursorKeyColumns_eq (paginationKey : List String) :
    getCursorKeyColumns sort paginationKey =
      (sort.map SortDefinition.column).toList ++
        freshColumns (sort.map SortDefinition.column).toList paginationKey := by
  unfold getCursorKeyColumns
  generalize (sort.map SortDefinition.column).toList = seen
  induction paginationKey generalizing seen with
  | nil => simp [freshColumns]
  | cons column columns ih =>
    rw [List.foldl_cons, freshColumns, ih]
    split_ifs with known
    · rfl
    · rw [List.append_assoc, List.singleton_append]

/-- A fresh column is one of the list. -/
theorem mem_freshColumns {seen columns : List String}
    (member : column ∈ freshColumns seen columns) : column ∈ columns := by
  induction columns generalizing seen with
  | nil => exact member
  | cons first others ih =>
    rw [freshColumns] at member
    split_ifs at member
    · exact .tail _ (ih member)
    · rcases mem_cons.mp member with rfl | later
      · exact .head _
      · exact .tail _ (ih later)

theorem mem_getCursorKeyColumns {sort : Option SortDefinition}
    (member : column ∈ getCursorKeyColumns sort paginationKey) :
    sort.map SortDefinition.column = some column ∨ column ∈ paginationKey := by
  rw [getCursorKeyColumns_eq, mem_append, Option.mem_toList] at member
  exact member.imp id mem_freshColumns

theorem mem_tail_getCursorKeyColumns {sort : Option SortDefinition}
    (member : column ∈ (getCursorKeyColumns sort paginationKey).tail) :
    column ∈ paginationKey := by
  rw [getCursorKeyColumns_eq] at member
  cases sort with
  | none => exact mem_freshColumns (List.mem_of_mem_tail member)
  | some sort => exact mem_freshColumns member

section Order

variable {left right : Row V} [LinearOrder V]

/-- Leaving out columns that were seen does not change the order of rows that agree on those. -/
theorem rowBefore_freshColumns (ascending : Bool) (seen columns : List String)
    (agree : ∀ column ∈ seen, left column = right column) :
    rowBefore ((freshColumns seen columns).map fun column => (column, ascending)) left right =
      rowBefore (columns.map fun column => (column, ascending)) left right := by
  induction columns generalizing seen with
  | nil => rfl
  | cons column columns ih =>
    rw [freshColumns, map_cons]
    split_ifs with known
    · rw [rowBefore_agree (agree column (by simpa using known)), ih seen agree]
    · rw [map_cons, rowBefore, rowBefore]
      by_cases same : left column = right column
      · rw [ih (seen ++ [column])]
        intro other member
        rcases mem_append.mp member with before | here
        · exact agree other before
        · rw [mem_singleton.mp here]
          exact same
      · simp [same]

/-- The order of a cursor's columns is the order of the query. -/
theorem rowBefore_cursorColumns (sort : Option SortDefinition) (paginationKey : List String) :
    rowBefore ((getCursorKeyColumns sort paginationKey).map fun column =>
        (column, isAscending sort)) left right =
      rowBefore (queryOrder sort (some paginationKey)) left right := by
  rw [getCursorKeyColumns_eq]
  cases sort with
  | none =>
    have items : queryOrder none (some paginationKey) =
        paginationKey.map fun column => (column, true) := by
      simp [queryOrder, orderItems]
    rw [items]
    exact rowBefore_freshColumns true [] paginationKey (by simp)
  | some sort =>
    have items : queryOrder (some sort) (some paginationKey) =
        (sort.column, isAscending (some sort)) ::
          (paginationKey.map fun column => (column, isAscending (some sort))).filter
            fun item => item.1 ≠ sort.column := by
      simp [queryOrder, orderItems, isAscending, List.filter_map, Function.comp_def, eq_comm]
    rw [items]
    simp only [Option.map_some, Option.toList_some, List.singleton_append, map_cons,
      rowBefore]
    by_cases same : left sort.column = right sort.column
    · rw [rowBefore_freshColumns _ [sort.column] _ (by simpa using same), rowBefore_filter]
      intro item member dropped
      have known : item.1 = sort.column := by simpa using dropped
      rw [known]
      exact same
    · simp [same]

end Order

/-- Rows that differ pairwise on a pagination key differ on the columns of the query's order. -/
theorem distinct_queryOrder {rows : List (Row V)}
    (unique : rows.Pairwise fun left right => ∃ column ∈ paginationKey, left column ≠ right column) :
    Sql.Distinct (queryOrder sort (some paginationKey)) rows := by
  refine unique.imp ?_
  rintro left right ⟨column, member, apart⟩
  by_cases sorted : sort.map SortDefinition.column = some column
  · obtain ⟨sort, rfl, rfl⟩ := Option.map_eq_some_iff.mp sorted
    exact ⟨_, mem_map.mpr ⟨_, mem_append_left _ (.head _), rfl⟩, apart⟩
  · refine ⟨_, mem_map.mpr ⟨(column, (sort.map SortDefinition.direction).getD .asc),
      List.mem_append_right _ (mem_map.mpr ⟨column, ?_, rfl⟩), rfl⟩, apart⟩
    exact List.mem_filter.mpr ⟨member, by simpa using sorted⟩

/-! ## The rows of a page -/

section Pages

variable [LinearOrder V]

/-- The rows that a request asks for: those its filters keep, in its order. -/
def requestedRows (server : SqlServer ν V) (database : Database V) (request : DatabaseRowsRequest)
    (checked : CheckedQuery ν) : List (Row V) :=
  let table := database.table request.schema request.relation
  Sql.orderRows (queryOrder request.sort checked.relation.paginationKey)
    (table.rows.filter fun row =>
      checked.predicates.all (server.holds table.dataType (valueAt checked.values) row))

/-- Some rows of a page, and one more, as the driver returns them. -/
def fetchRows (server : SqlServer ν V) (request : DatabaseRowsRequest) (checked : CheckedQuery ν)
    (rows : List (Row V)) : List (ResultRow ν) :=
  (rows.take (request.pageSize + 1)).map
    (server.project ((selectableColumns checked.relation).map DatabaseExplorerColumn.name))

variable {server : SqlServer ν V} {database : Database V} {request : DatabaseRowsRequest}
  {checked : CheckedQuery ν}

theorem mem_requestedRows {row : Row V}
    (member : row ∈ requestedRows server database request checked) :
    row ∈ (database.table request.schema request.relation).rows :=
  List.mem_of_mem_filter ((orderRows_perm _ _).mem_iff.mp member)

/-- A condition of the filters means the same on a later page. -/
theorem condition_numbered {extra : List (PgValue ν)} {predicate : Predicate}
    (dataType : String → String)
    (numbered : Numbered 1 (checked.values.length + 1) predicate) (row : Row V) :
    (server.accepts dataType (valueAt (checked.values ++ extra))
        (numberTags extra.length (checked.values.length + 1) predicate) =
      server.accepts dataType (valueAt checked.values) predicate) ∧
    server.holds dataType (valueAt (checked.values ++ extra)) row
        (numberTags extra.length (checked.values.length + 1) predicate) =
      server.holds dataType (valueAt checked.values) row predicate := by
  have same : ∀ place ∈ predicate.places,
      valueAt (checked.values ++ extra)
        (numberTag extra.length (checked.values.length + 1) place) =
        valueAt checked.values place := by
    intro place member
    obtain ⟨index, rfl, positive, inside⟩ := numbered place member
    exact valueAt_parameter checked.values extra positive inside
  obtain ⟨accepted, held⟩ := verdicts_congr server dataType row same
  obtain ⟨accepts, truth⟩ := verdicts_numberTags server dataType row
    (valueAt (checked.values ++ extra)) extra.length (checked.values.length + 1) predicate
  rw [SqlServer.holds, SqlServer.holds, accepts, truth, accepted, held]
  exact ⟨rfl, rfl⟩

theorem finalQuery_eq (condition : CursorCondition ν) :
    finalQuery ⟨assembleQuery request checked (some condition), checked.values ++ condition.values,
        checked.relation⟩ (some condition) =
      { assembleQuery request checked none with
        predicates := (checked.predicates ++ [condition.predicate]).map
          (numberTags condition.values.length (checked.values.length + 1)) } := by
  simp [finalQuery, assembleQuery]

/-- When every value of the filters and of the condition has a place, so has every value of a
later page's query. -/
theorem allPlaced_after {condition : CursorCondition ν}
    (placed : SqlServer.allPlaced (assembleQuery request checked none) checked.values)
    (tagged : ∀ index < condition.values.length, .cursorTag index ∈ condition.predicate.places) :
    SqlServer.allPlaced
      { assembleQuery request checked none with
        predicates := (checked.predicates ++ [condition.predicate]).map
          (numberTags condition.values.length (checked.values.length + 1)) }
      (checked.values ++ condition.values) := by
  rw [SqlServer.allPlaced, all_eq_true]
  intro index inside
  rw [List.mem_range, length_append] at inside
  have found : ∃ place ∈ (checked.predicates ++ [condition.predicate]).flatMap Predicate.places,
      numberTag condition.values.length (checked.values.length + 1) place =
        .parameter (index + 1) := by
    rw [List.flatMap_append]
    by_cases early : index < checked.values.length
    · have known := all_eq_true.mp placed index (List.mem_range.mpr early)
      refine ⟨.parameter (index + 1), mem_append_left _ ?_, rfl⟩
      simpa [SqlServer.queryPlaces, assembleQuery] using known
    · refine ⟨.cursorTag (index - checked.values.length), List.mem_append_right _ ?_, ?_⟩
      · rw [List.flatMap_singleton]
        exact tagged _ (by omega)
      · rw [numberTag, if_pos (by omega)]
        congr 1
        omega
  obtain ⟨place, member, same⟩ := found
  obtain ⟨predicate, known, stands⟩ := List.mem_flatMap.mp member
  rw [List.contains_iff_mem, SqlServer.queryPlaces]
  refine mem_append_left _ (List.mem_flatMap.mpr ⟨_, List.mem_map_of_mem known, ?_⟩)
  rw [places_numberTags, ← same]
  exact List.mem_map_of_mem stands

variable [JsonRuntime ν] {query : RowsQuery} {values : List (PgValue ν)}

/-- The rows of a query without an offset, when the server accepts it. -/
theorem run_noOffset (whole : query.offset = none) (placed : SqlServer.allPlaced query values)
    (accepted : query.predicates.all (server.accepts
      (database.table query.schema query.relation).dataType (valueAt values))) :
    server.run database query values = some (((orderRows
      (query.orderBy.map fun item => (item.1, decide (item.2 = .asc)))
      ((database.table query.schema query.relation).rows.filter fun row =>
        query.predicates.all (server.holds (database.table query.schema query.relation).dataType
          (valueAt values) row))).take query.limit).map (server.project query.select)) := by
  unfold SqlServer.run
  rw [whole]
  dsimp only [SqlServer.offsetOf]
  rw [if_pos (by rw [placed, accepted]; rfl), List.drop_zero]

/-- What the server's acceptance of a query says of its conditions. -/
theorem run_accepts (bound : (server.run database query values).isSome) :
    SqlServer.allPlaced query values ∧
      query.predicates.all (server.accepts
        (database.table query.schema query.relation).dataType (valueAt values)) := by
  rw [← Bool.and_eq_true]
  by_contra refused
  unfold SqlServer.run at bound
  split at bound
  · cases bound
  · rw [if_neg refused] at bound
    cases bound

theorem run_first
    (bound : (server.run database (assembleQuery request checked none) checked.values).isSome) :
    server.run database (assembleQuery request checked none) checked.values =
      some (fetchRows server request checked (requestedRows server database request checked)) := by
  obtain ⟨placed, accepted⟩ := run_accepts bound
  rw [run_noOffset rfl placed accepted]
  simp [assembleQuery, fetchRows, requestedRows, queryOrder]

/-- The query of the page after a row returns the first of the requested rows that follow it. -/
theorem run_after {keys : List (CursorKey ν)} {last : Row V} {front back : List (Row V)}
    (numbered : ∀ predicate ∈ checked.predicates,
      Numbered 1 (checked.values.length + 1) predicate)
    (bound : (server.run database (assembleQuery request checked none) checked.values).isSome)
    (denotes : ∀ key ∈ keys,
      Denotes server (database.table request.schema request.relation).dataType last key)
    (present : ∀ key ∈ keys.tail, isNullValue key.value = false)
    (distinct : Sql.Distinct (queryOrder request.sort checked.relation.paginationKey)
      (database.table request.schema request.relation).rows)
    (sameOrder : ∀ row : Row V, rowBefore
      (keys.map fun key => (key.column, isAscending request.sort)) last row =
        rowBefore (queryOrder request.sort checked.relation.paginationKey) last row)
    (found : requestedRows server database request checked = front ++ last :: back) :
    let condition := buildKeysetCondition keys
      ((request.sort.map SortDefinition.direction).getD .asc)
    let values := checked.values ++ condition.values
    server.run database (finalQuery ⟨assembleQuery request checked (some condition), values,
        checked.relation⟩ (some condition)) values =
      some (fetchRows server request checked back) := by
  intro condition values
  obtain ⟨placed, accepted⟩ := run_accepts bound
  let table := database.table request.schema request.relation
  let number := numberTags condition.values.length (checked.values.length + 1)
  let lookup := fun place => valueAt values
    (numberTag condition.values.length (checked.values.length + 1) place)
  have reads : ReadsTags lookup condition.values := by
    intro index value known
    rw [← known]
    exact valueAt_tag checked.values condition.values index
  have after (row : Row V) : server.accepts table.dataType (valueAt values)
        (number condition.predicate) = true ∧
      server.holds table.dataType (valueAt values) row (number condition.predicate) =
        rowBefore (queryOrder request.sort checked.relation.paginationKey) last row := by
    obtain ⟨taken, kept⟩ := buildKeysetCondition_holds
      ((request.sort.map SortDefinition.direction).getD .asc) row reads denotes
    obtain ⟨accepts, truth⟩ := verdicts_numberTags server table.dataType row (valueAt values)
      condition.values.length (checked.values.length + 1) condition.predicate
    refine ⟨accepts.trans taken, ?_⟩
    rw [SqlServer.holds, truth, ← sameOrder]
    exact kept
  have filters (row : Row V) : ∀ predicate ∈ checked.predicates,
      server.accepts table.dataType (valueAt values) (number predicate) = true ∧
        server.holds table.dataType (valueAt values) row (number predicate) =
          server.holds table.dataType (valueAt checked.values) row predicate := by
    intro predicate member
    obtain ⟨sameAccepts, sameHolds⟩ :=
      condition_numbered table.dataType (numbered predicate member) row
    refine ⟨sameAccepts.trans ?_, sameHolds⟩
    exact all_eq_true.mp accepted predicate (by simpa [assembleQuery] using member)
  rw [finalQuery_eq, run_noOffset rfl]
  · have keeps (row : Row V) : ((checked.predicates ++ [condition.predicate]).map number).all
        (server.holds table.dataType (valueAt values) row) =
        (checked.predicates.all (server.holds table.dataType (valueAt checked.values) row) &&
          rowBefore (queryOrder request.sort checked.relation.paginationKey) last row) := by
      have base : (checked.predicates.map number).all
          (server.holds table.dataType (valueAt values) row) =
          checked.predicates.all (server.holds table.dataType (valueAt checked.values) row) := by
        rw [List.all_map, Bool.eq_iff_iff, all_eq_true, all_eq_true]
        exact forall₂_congr fun predicate member => by
          rw [Function.comp_apply, (filters row predicate member).2]
      rw [List.map_append, List.all_append, base, List.map_singleton, List.all_cons, List.all_nil,
        Bool.and_true, (after row).2]
    have selected : table.rows.filter (fun row =>
        ((checked.predicates ++ [condition.predicate]).map number).all
          (server.holds table.dataType (valueAt values) row)) =
        (table.rows.filter fun row => checked.predicates.all
          (server.holds table.dataType (valueAt checked.values) row)).filter
          (rowBefore (queryOrder request.sort checked.relation.paginationKey) last) := by
      rw [List.filter_filter]
      congr 1
      funext row
      rw [keeps, Bool.and_comm]
    have ordered : orderRows (queryOrder request.sort checked.relation.paginationKey)
        (table.rows.filter fun row =>
          ((checked.predicates ++ [condition.predicate]).map number).all
            (server.holds table.dataType (valueAt values) row)) = back := by
      rw [selected, orderRows_filter _ (distinct.filter _)]
      have strict := orderRows_strict (distinct.filter fun row => checked.predicates.all
          (server.holds table.dataType (valueAt checked.values) row))
      rw [requestedRows] at found
      rw [found] at strict ⊢
      exact Keyset.filter_after (fun _ _ => rowBefore_asymm) strict
    change some (((orderRows (queryOrder request.sort checked.relation.paginationKey)
        (table.rows.filter fun row =>
          ((checked.predicates ++ [condition.predicate]).map number).all
            (server.holds table.dataType (valueAt values) row))).take (request.pageSize + 1)).map
        (server.project ((selectableColumns checked.relation).map DatabaseExplorerColumn.name))) = _
    rw [ordered]
    rfl
  · exact allPlaced_after placed fun index inside => buildKeysetCondition_places present inside
  · rw [all_eq_true]
    intro predicate member
    obtain ⟨original, known, rfl⟩ := mem_map.mp member
    rcases mem_append.mp known with filter | condition
    · exact (filters last original filter).1
    · rw [mem_singleton.mp condition]
      exact (after last).1

end Pages

end NancyMan.Explorer
