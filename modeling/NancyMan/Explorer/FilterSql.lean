import NancyMan.Explorer.Query

/-!
# Building the rows query

The filters of a request become conditions with numbered parameters, after a check of the
column, its operator and the value; the query then selects the columns that may be read,
orders by the requested column and by the pagination key, and asks for one row more than a
page.
-/
namespace NancyMan.Explorer

def textLength (text : String) : Nat :=
  (text.toList.map fun symbol => if symbol.toNat < 0x10000 then 1 else 2).sum

/-- The column of a name in `columnMap`, where a later column replaces an earlier one. -/
def mappedColumn (columns : List DatabaseExplorerColumn) (name : String) :
    Option DatabaseExplorerColumn :=
  columns.reverse.find? fun column => column.name = name

/-- The condition of a filter that compares with a value. -/
def filterPredicate (column : String) (operator : DatabaseFilterOperator)
    (placeholder : Placeholder) : Predicate :=
  match operator with
  | .eq => .compare column .eq placeholder
  | .neq => .compare column .ne placeholder
  | .contains => .contains column placeholder
  | .gt => .compare column .gt placeholder
  | .gte => .compare column .ge placeholder
  | .lt => .compare column .lt placeholder
  | .lte => .compare column .le placeholder
  | .isNull => .isNull column
  | .isNotNull => .isNotNull column

/-- The condition of a filter, and its value when it has one. -/
def buildFilter {ν : Type} (columns : List DatabaseExplorerColumn) (filter : FilterPredicate)
    (paramIndex : Nat) : Except ExplorerError (Predicate × Option (PgValue ν)) :=
  match mappedColumn columns filter.column with
  | none =>
    .error (makeExplorerError .columnInvalid
      (some ("Column \"" ++ filter.column ++ "\" not found in relation")))
  | some column =>
    if column.classification = .blocked || !column.selectable then
      .error (makeExplorerError .filterInvalid
        (some ("Filtering on blocked column \"" ++ filter.column ++ "\" is forbidden")))
    else if !column.filterOperators.contains filter.operator then
      .error (makeExplorerError .filterInvalid
        (some ("Operator \"" ++ filter.operator.text ++ "\" is not supported for column \"" ++
          filter.column ++ "\"")))
    else if filter.operator = .isNull then .ok (.isNull column.name, none)
    else if filter.operator = .isNotNull then .ok (.isNotNull column.name, none)
    else
      match filter.value with
      | none =>
        .error (makeExplorerError .filterInvalid
          (some ("Value is required for operator \"" ++ filter.operator.text ++
            "\" on column \"" ++ filter.column ++ "\"")))
      | some value =>
        if 200 < textLength value then
          .error (makeExplorerError .filterInvalid
            (some "Filter value exceeds maximum length of 200 characters"))
        else
          .ok (filterPredicate column.name filter.operator (.parameter paramIndex),
            some (.string value))

/-- The conditions and values of filters in order, numbered from a parameter. -/
def buildFilters {ν : Type} (columns : List DatabaseExplorerColumn) :
    List FilterPredicate → Nat → Except ExplorerError (List Predicate × List (PgValue ν))
  | [], _ => .ok ([], [])
  | filter :: filters, paramIndex =>
    match buildFilter columns filter paramIndex with
    | .error error => .error error
    | .ok (predicate, value) =>
      match buildFilters columns filters (paramIndex + value.toList.length) with
      | .error error => .error error
      | .ok (predicates, values) => .ok (predicate :: predicates, value.toList ++ values)

/-- `buildFilterSql`; the next parameter follows from the number of values. -/
def buildFilterSql {ν : Type} (columns : List DatabaseExplorerColumn)
    (filters : List FilterPredicate) (startParamIndex : Nat) :
    Except ExplorerError (List Predicate × List (PgValue ν)) :=
  if 5 < filters.length then
    .error (makeExplorerError .filterInvalid (some "At most 5 filters are allowed"))
  else buildFilters columns filters startParamIndex

/-- An equality on a column that the worker itself demands. -/
structure TrustedEquality (ν : Type) where
  column : String
  value : PgValue ν

/-- The conditions of trusted equalities in order, numbered from a parameter. -/
def buildTrusted {ν : Type} (columns : List DatabaseExplorerColumn) :
    List (TrustedEquality ν) → Nat → Except ExplorerError (List Predicate × List (PgValue ν))
  | [], _ => .ok ([], [])
  | equality :: equalities, paramIndex =>
    match columns.find? fun column => column.name = equality.column with
    | none =>
      .error (makeExplorerError .columnInvalid
        (some ("Column \"" ++ equality.column ++ "\" not found in relation")))
    | some column =>
      if column.classification = .blocked || !column.selectable then
        .error (makeExplorerError .filterInvalid
          (some ("Filtering on blocked column \"" ++ equality.column ++ "\" is forbidden")))
      else
        match equality.value with
        | .null =>
          .error (makeExplorerError .filterInvalid
            (some ("Value is required for trusted equality on column \"" ++ equality.column ++
              "\"")))
        | value =>
          match buildTrusted columns equalities (paramIndex + 1) with
          | .error error => .error error
          | .ok (predicates, values) =>
            .ok (.compare column.name .eq (.parameter paramIndex) :: predicates, value :: values)

/-- A cursor's condition with the values that its tags stand for. -/
structure CursorCondition (ν : Type) where
  predicate : Predicate
  values : List (PgValue ν)

/-- A query with its values, the columns it selects and the relation it reads. -/
structure BuiltRowsQuery (ν : Type) where
  query : RowsQuery
  values : List (PgValue ν)
  relation : DatabaseExplorerRelation

/-- The schema and the relation that a request names. -/
def findRelation (snapshot : DatabaseExplorerSchemaSnapshot) (schema relation : String) :
    Except ExplorerError DatabaseExplorerRelation :=
  match snapshot.schemas.find? fun candidate => candidate.name = schema with
  | none =>
    .error (makeExplorerError .relationInvalid
      (some ("Schema \"" ++ schema ++ "\" does not exist in target")))
  | some found =>
    match found.relations.find? fun candidate => candidate.name = relation with
    | none =>
      .error (makeExplorerError .relationInvalid
        (some ("Relation \"" ++ relation ++ "\" does not exist in schema \"" ++ schema ++ "\"")))
    | some found => .ok found

def selectableColumns (relation : DatabaseExplorerRelation) : List DatabaseExplorerColumn :=
  relation.columns.filter fun column => column.selectable && column.classification ≠ .blocked

/-- The order of a rows query: the requested column, then the rest of the pagination key, all
in the requested direction. -/
def orderItems (sort : Option SortDefinition) (paginationKey : Option (List String)) :
    List (String × Direction) :=
  let direction := (sort.map SortDefinition.direction).getD .asc
  (sort.map fun sort => (sort.column, sort.direction)).toList ++
    ((paginationKey.getD []).filter fun column =>
      (sort.map SortDefinition.column) ≠ some column).map fun column => (column, direction)

/-- The relation of a query with the conditions and values of its filters and equalities. -/
structure CheckedQuery (ν : Type) where
  relation : DatabaseExplorerRelation
  predicates : List Predicate
  values : List (PgValue ν)

/-- The checks of `buildRowsQuery`, which need no cursor. -/
def checkRowsQuery {ν : Type} (snapshot : DatabaseExplorerSchemaSnapshot)
    (request : DatabaseRowsRequest) (trustedEqualities : List (TrustedEquality ν)) :
    Except ExplorerError (CheckedQuery ν) := do
  let relation ← findRelation snapshot request.schema request.relation
  if !relation.dataAvailable then .error (makeExplorerError .dataPermissionDenied none)
  let selectable := selectableColumns relation
  if selectable = [] then
    .error (makeExplorerError .dataPermissionDenied
      (some ("No selectable columns in relation \"" ++ request.relation ++ "\"")))
  if let some sort := request.sort then
    if !selectable.any fun column => column.name = sort.column then
      .error (makeExplorerError .columnInvalid
        (some ("Sort column \"" ++ sort.column ++ "\" does not exist or is not selectable")))
  let filtered ← buildFilterSql relation.columns request.filters 1
  let trusted ← buildTrusted relation.columns trustedEqualities (1 + filtered.2.length)
  .ok ⟨relation, filtered.1 ++ trusted.1, filtered.2 ++ trusted.2⟩

/-- The query of checked conditions and a cursor's condition. -/
def assembleQuery {ν : Type} (request : DatabaseRowsRequest) (checked : CheckedQuery ν)
    (cursorCondition : Option (CursorCondition ν)) : RowsQuery where
  select := (selectableColumns checked.relation).map DatabaseExplorerColumn.name
  schema := request.schema
  relation := request.relation
  predicates := checked.predicates ++ (cursorCondition.map CursorCondition.predicate).toList
  orderBy := orderItems request.sort checked.relation.paginationKey
  limit := request.pageSize + 1
  offset := none

def buildRowsQuery {ν : Type} [JsonRuntime ν] (snapshot : DatabaseExplorerSchemaSnapshot)
    (request : DatabaseRowsRequest) (trustedEqualities : List (TrustedEquality ν))
    (cursorCondition : Option (CursorCondition ν)) (offset : Option Int) :
    Except ExplorerError (BuiltRowsQuery ν) :=
  match checkRowsQuery snapshot request trustedEqualities with
  | .error error => .error error
  | .ok checked =>
    let query := assembleQuery request checked cursorCondition
    let values := checked.values ++ (cursorCondition.map CursorCondition.values).getD []
    match offset with
    | none => .ok ⟨query, values, checked.relation⟩
    | some offset =>
      if offset ≤ 0 then .ok ⟨query, values, checked.relation⟩
      else if 10000 < offset then .error (makeExplorerError .pageTooLarge none)
      else
        .ok ⟨{ query with offset := some (.parameter (values.length + 1)) },
          values ++ [.number (JsonRuntime.readNumber (Numeral.ofInt offset))], checked.relation⟩

end NancyMan.Explorer
