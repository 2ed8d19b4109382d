import NancyMan.Explorer.PageQuery
import NancyMan.Lib.TagReplacement

/-!
# The text of a page's query

The rows query as the text that is sent: fragments of SQL, quoted identifiers and places of values.
The places of filters and equalities are numbered as they are written; those of a cursor's condition
are tags that the reader replaces in the whole text, each at its first occurrence.
-/
namespace NancyMan.Explorer

open TagReplacement (Tags replaceFirst)
open TagReplacement.Tags (Marked Mark WellMarked Clean Stays settle tagOf)

variable {ν α β : Type}

/-- SQL that is the same for every request, up to digits; it has no dollar sign. -/
structure SqlWords where
  text : List Char
  plain : '$' ∉ text

/-- A piece of a query's text. -/
inductive SqlPiece (α : Type) where
  | words (fragment : SqlWords)
  | identifier (name : String)
  | value (place : α)

/-- A piece with its place changed. -/
def SqlPiece.map (change : α → β) : SqlPiece α → SqlPiece β
  | .words fragment => .words fragment
  | .identifier name => .identifier name
  | .value place => .value (change place)

/-- The place of a piece. -/
def SqlPiece.place? : SqlPiece α → Option α
  | .value place => some place
  | .words _ | .identifier _ => none

def sql (text : String) (plain : '$' ∉ text.toList) : SqlPiece α := .words ⟨text.toList, plain⟩

def doubled (name : List Char) : List Char :=
  name.flatMap fun symbol => if symbol = '"' then ['"', '"'] else [symbol]

def quoteIdentifier (name : String) : List Char := '"' :: (doubled name.toList ++ ['"'])

/-- The text of pieces, from that of their places. -/
def render (placeText : α → List Char) (pieces : List (SqlPiece α)) : List Char :=
  pieces.flatMap fun
    | .words fragment => fragment.text
    | .identifier name => quoteIdentifier name
    | .value place => placeText place

def parameterText (index : Nat) : List Char := '$' :: Numeral.digits index

def tagTail (index : Nat) : List Char :=
  "__CURSOR_PARAM_".toList ++ (Numeral.digits index ++ ['_', '_'])

/-- The text of a place before the tags are replaced. -/
def placeholderText : Placeholder → List Char
  | .parameter index => parameterText index
  | .cursorTag index => '$' :: tagTail index

/-- Fragments with a separator between them. -/
def joined (separator : SqlPiece α) : List (List (SqlPiece α)) → List (SqlPiece α)
  | [] => []
  | [part] => part
  | part :: next :: rest => part ++ separator :: joined separator (next :: rest)

/-! ## Conditions -/

/-- An operator's text. -/
def ComparisonOperator.words : ComparisonOperator → SqlPiece α
  | .eq => sql " = " (by decide)
  | .ne => sql " != " (by decide)
  | .gt => sql " > " (by decide)
  | .ge => sql " >= " (by decide)
  | .lt => sql " < " (by decide)
  | .le => sql " <= " (by decide)

variable (column : String)

def isNullSql : List (SqlPiece α) :=
  [.identifier column, sql " IS NULL" (by decide)]

def isNotNullSql : List (SqlPiece α) :=
  [.identifier column, sql " IS NOT NULL" (by decide)]

def compareSql (operator : ComparisonOperator) (place : α) : List (SqlPiece α) :=
  [.identifier column, operator.words, .value place]

def containsSql (place : α) : List (SqlPiece α) :=
  [.identifier column, sql "::text ILIKE ('%' || " (by decide), .value place,
    sql " || '%')" (by decide)]

/-- The text of a condition. -/
def Predicate.pieces : Predicate → List (SqlPiece Placeholder)
  | .isNull column => isNullSql column
  | .isNotNull column => isNotNullSql column
  | .compare column operator place => compareSql column operator place
  | .contains column place => containsSql column place
  | .and left right =>
    sql "(" (by decide) :: (left.pieces ++ sql " AND " (by decide) :: right.pieces ++
      [sql ")" (by decide)])
  | .or left right =>
    sql "(" (by decide) :: (left.pieces ++ sql " OR " (by decide) :: right.pieces ++
      [sql ")" (by decide)])
  | .never => [sql "FALSE" (by decide)]

/-! ## The condition of a cursor -/

/-- The texts that tie a row to the components of a key, and the values with theirs. -/
def keysetPrefixSql : List (CursorKey ν) → List (PgValue ν) →
    List (List (SqlPiece Placeholder)) × List (PgValue ν)
  | [], values => ([], values)
  | key :: keys, values =>
    if isNullValue key.value then
      let rest := keysetPrefixSql keys values
      (isNullSql key.column :: rest.1, rest.2)
    else
      let rest := keysetPrefixSql keys (values ++ [key.value])
      (compareSql key.column .eq (.cursorTag values.length) :: rest.1, rest.2)

/-- The text of a comparison with the last row's value, or NULL. -/
def keysetComparisonSql (operator : ComparisonOperator) (column : String) (place : α) :
    List (SqlPiece α) :=
  sql "(" (by decide) :: (compareSql column operator place ++
    sql " OR " (by decide) :: isNullSql column ++ [sql ")" (by decide)])

/-- The text of a comparison under the ties of the components before it. -/
def keysetTermSql (ties : List (List (SqlPiece α))) (comparison : List (SqlPiece α)) :
    List (SqlPiece α) :=
  match ties with
  | [] => comparison
  | first :: others =>
    sql "(" (by decide) :: (joined (sql " AND " (by decide)) (first :: others) ++
      sql " AND " (by decide) :: comparison ++ [sql ")" (by decide)])

/-- The texts of the terms of the components after some that are done, and the values with theirs. -/
def keysetTermsSql (operator : ComparisonOperator) (done : List (CursorKey ν)) :
    List (CursorKey ν) → List (PgValue ν) →
      List (List (SqlPiece Placeholder)) × List (PgValue ν)
  | [], values => ([], values)
  | key :: keys, values =>
    let ties := keysetPrefixSql done values
    if isNullValue key.value then keysetTermsSql operator (done ++ [key]) keys ties.2
    else
      let rest := keysetTermsSql operator (done ++ [key]) keys (ties.2 ++ [key.value])
      (keysetTermSql ties.1 (keysetComparisonSql operator key.column (.cursorTag ties.2.length)) ::
        rest.1, rest.2)

/-- The text of terms, any of which is to hold. -/
def keysetSql (terms : List (List (SqlPiece α))) : List (SqlPiece α) :=
  match terms with
  | [] => [sql "FALSE" (by decide)]
  | first :: others =>
    sql "(" (by decide) :: (joined (sql " OR " (by decide)) (first :: others) ++
      [sql ")" (by decide)])

/-- `buildKeysetCondition` as text, with its values. -/
def buildKeysetSql (keys : List (CursorKey ν)) (direction : Direction) :
    List (SqlPiece Placeholder) × List (PgValue ν) :=
  let terms := keysetTermsSql (keysetOperator direction) [] keys []
  (keysetSql terms.1, terms.2)

/-! ## The whole query -/

/-- A direction's text. -/
def Direction.words : Direction → SqlPiece α
  | .asc => sql " ASC NULLS LAST" (by decide)
  | .desc => sql " DESC NULLS LAST" (by decide)

/-- The text of a limit. -/
def limitWords (limit : Nat) : SqlPiece α :=
  .words ⟨" LIMIT ".toList ++ Numeral.digits limit, by
    intro member
    rcases List.mem_append.mp member with word | digit
    · exact absurd word (by decide)
    · exact absurd (Numeral.isDigit_of_mem_digits digit) (by decide)⟩

/-- The text of a rows query, from its conditions and the place of its offset. -/
def rowsSql (select : List String) (schema relation : String)
    (conditions : List (List (SqlPiece α))) (orderBy : List (String × Direction)) (limit : Nat)
    (offset : Option α) : List (SqlPiece α) :=
  sql "SELECT " (by decide) ::
    (joined (sql ", " (by decide)) (select.map fun name => [.identifier name]) ++
    sql " FROM " (by decide) :: .identifier schema :: sql "." (by decide) :: .identifier relation ::
    ((if conditions = [] then [] else
      sql " WHERE " (by decide) :: joined (sql " AND " (by decide)) conditions) ++
    (if orderBy = [] then [] else
      sql " ORDER BY " (by decide) :: joined (sql ", " (by decide))
        (orderBy.map fun item => [.identifier item.1, item.2.words])) ++
    limitWords limit :: (match offset with
      | none => []
      | some place => [sql " OFFSET " (by decide), .value place])))

/-- A query's text before its tags are replaced, with its values, how many of them are the cursor's,
and the relation it reads. -/
structure RowsQueryText (ν : Type) where
  pieces : List (SqlPiece Placeholder)
  values : List (PgValue ν)
  cursorValues : Nat
  relation : DatabaseExplorerRelation

section

variable [JsonRuntime ν]

/-- The condition of a cursor that has one. -/
def cursorSql (request : DatabaseRowsRequest) (position : Option (CursorPosition ν)) :
    Option (List (SqlPiece Placeholder) × List (PgValue ν)) :=
  match position with
  | some (.keyset keys) =>
    some (buildKeysetSql keys ((request.sort.map SortDefinition.direction).getD .asc))
  | some (.offset _) | none => none

/-- `buildRowsQuery` as text. -/
def buildRowsQueryText (snapshot : DatabaseExplorerSchemaSnapshot) (request : DatabaseRowsRequest)
    (trustedEqualities : List (TrustedEquality ν)) (position : Option (CursorPosition ν)) :
    Except ExplorerError (RowsQueryText ν) :=
  match checkRowsQuery snapshot request trustedEqualities with
  | .error error => .error error
  | .ok checked =>
    let cursor := cursorSql request position
    let cursorValues := (cursor.map Prod.snd).getD []
    let values := checked.values ++ cursorValues
    let query (offset : Option Placeholder) := rowsSql
      ((selectableColumns checked.relation).map DatabaseExplorerColumn.name) request.schema
      request.relation (checked.predicates.map Predicate.pieces ++ (cursor.map Prod.fst).toList)
      (orderItems request.sort checked.relation.paginationKey) (request.pageSize + 1) offset
    match position with
    | some (.offset offset) =>
      if offset ≤ 0 then .ok ⟨query none, values, cursorValues.length, checked.relation⟩
      else if 10000 < offset then .error (makeExplorerError .pageTooLarge none)
      else
        .ok ⟨query (some (.parameter (values.length + 1))),
          values ++ [.number (JsonRuntime.readNumber (Numeral.ofInt offset))],
          cursorValues.length, checked.relation⟩
    | some (.keyset _) | none =>
      .ok ⟨query none, values, cursorValues.length, checked.relation⟩

end

/-! The text has the values of the query that is run. -/

def RowsQueryText.startIndex (query : RowsQueryText ν) : Nat :=
  query.values.length - query.cursorValues + 1

/-- The text that is sent: each of the cursor's tags is replaced at its first occurrence. The text of
a parameter names no group of a pattern that is a text, so it stands for itself. -/
def RowsQueryText.finalSql (query : RowsQueryText ν) : List Char :=
  (List.range query.cursorValues).foldl
    (fun text index => replaceFirst ('$' :: tagTail index)
      (parameterText (query.startIndex + index)) text)
    (render placeholderText query.pieces)

/-! ## What a query means -/

section

/-- The condition of a filter with its value in place. -/
def filterMeaning (filter : FilterPredicate) : List (SqlPiece (PgValue ν)) :=
  let value : PgValue ν := .string (filter.value.getD "")
  match filter.operator with
  | .eq => compareSql filter.column .eq value
  | .neq => compareSql filter.column .ne value
  | .contains => containsSql filter.column value
  | .gt => compareSql filter.column .gt value
  | .gte => compareSql filter.column .ge value
  | .lt => compareSql filter.column .lt value
  | .lte => compareSql filter.column .le value
  | .isNull => isNullSql filter.column
  | .isNotNull => isNotNullSql filter.column

def equalityMeaning (equality : TrustedEquality ν) : List (SqlPiece (PgValue ν)) :=
  compareSql equality.column .eq equality.value

def tieMeaning (key : CursorKey ν) : List (SqlPiece (PgValue ν)) :=
  if isNullValue key.value then isNullSql key.column else compareSql key.column .eq key.value

/-- The terms of the components after some that are done. -/
def termsMeaning (operator : ComparisonOperator) (done : List (CursorKey ν)) :
    List (CursorKey ν) → List (List (SqlPiece (PgValue ν)))
  | [] => []
  | key :: keys =>
    if isNullValue key.value then termsMeaning operator (done ++ [key]) keys
    else
      keysetTermSql (done.map tieMeaning) (keysetComparisonSql operator key.column key.value) ::
        termsMeaning operator (done ++ [key]) keys

/-- The condition of a cursor with its values in place. -/
def cursorMeaning (request : DatabaseRowsRequest) (position : Option (CursorPosition ν)) :
    Option (List (SqlPiece (PgValue ν))) :=
  match position with
  | some (.keyset keys) =>
    some (keysetSql (termsMeaning
      (keysetOperator ((request.sort.map SortDefinition.direction).getD .asc)) [] keys))
  | some (.offset _) | none => none

variable [JsonRuntime ν]

/-- The offset of a cursor that has one. -/
def offsetMeaning (position : Option (CursorPosition ν)) : Option (PgValue ν) :=
  match position with
  | some (.offset offset) =>
    if offset ≤ 0 then none else some (.number (JsonRuntime.readNumber (Numeral.ofInt offset)))
  | some (.keyset _) | none => none

/-- The query of a request with its values in place. -/
def queryMeaning (relation : DatabaseExplorerRelation) (request : DatabaseRowsRequest)
    (trustedEqualities : List (TrustedEquality ν)) (position : Option (CursorPosition ν)) :
    List (SqlPiece (PgValue ν)) :=
  rowsSql ((selectableColumns relation).map DatabaseExplorerColumn.name) request.schema
    request.relation
    (request.filters.map filterMeaning ++ trustedEqualities.map equalityMeaning ++
      (cursorMeaning request position).toList)
    (orderItems request.sort relation.paginationKey) (request.pageSize + 1)
    (offsetMeaning position)

end

/-- A text is a query whose values are passed as parameters: it is the query's text with a number for
each value, the numbers are those of the values, and each stands where its own value belongs. -/
def Parametrises (text : List Char) (values : List (PgValue ν))
    (meaning : List (SqlPiece (PgValue ν))) : Prop :=
  ∃ pieces : List (SqlPiece Nat), text = render parameterText pieces ∧
    (∀ index, index ∈ pieces.filterMap SqlPiece.place? ↔ 1 ≤ index ∧ index ≤ values.length) ∧
    pieces.map (SqlPiece.map fun index => values[index - 1]?) = meaning.map (SqlPiece.map some)

end NancyMan.Explorer
