import NancyMan.Explorer.PgValue
import NancyMan.Explorer.Schema
import NancyMan.Lib.SqlOrder

/-!
# Queries and the server that answers them

A rows query as its syntax, and what the server and its driver make of it. The values of a
column are of one linearly ordered type; `SqlServer` names what the driver returns for a value,
what value the server reads a parameter as, and its pattern match, without assuming a law of
them. A condition keeps a row only when it is true in three values.
-/
namespace NancyMan.Explorer

/-- Where a value stands in a query: a parameter `$index`, or the tag that a cursor condition
leaves for one of its own values until the parameters are numbered. -/
inductive Placeholder where
  | parameter (index : Nat)
  | cursorTag (index : Nat)
deriving DecidableEq

inductive ComparisonOperator where
  | eq
  | ne
  | gt
  | ge
  | lt
  | le

inductive Predicate where
  | isNull (column : String)
  | isNotNull (column : String)
  | compare (column : String) (operator : ComparisonOperator) (value : Placeholder)
  | contains (column : String) (pattern : Placeholder)
  | and (left right : Predicate)
  | or (left right : Predicate)
  | never

/-- Conditions joined by `AND`. -/
def Predicate.conj : Predicate → List Predicate → Predicate
  | first, [] => first
  | first, second :: rest => .and first (conj second rest)

/-- Conditions joined by `OR`. -/
def Predicate.disj : Predicate → List Predicate → Predicate
  | first, [] => first
  | first, second :: rest => .or first (disj second rest)

/-- The places of the values in a condition. -/
def Predicate.places : Predicate → List Placeholder
  | .isNull _ | .isNotNull _ | .never => []
  | .compare _ _ place | .contains _ place => [place]
  | .and left right | .or left right => left.places ++ right.places

/-- A rows query; its conditions are joined by `AND`, and every order item has NULLs last. -/
structure RowsQuery where
  select : List String
  schema : String
  relation : String
  predicates : List Predicate
  orderBy : List (String × Direction)
  limit : Nat
  offset : Option Placeholder

abbrev Row (V : Type) := String → Option V

/-- A row as the driver returns it. A column that was not selected reads as `undefined`, which
every reader here treats as `null`. -/
abbrev ResultRow (ν : Type) := String → PgValue ν

/-- The contents of a relation. -/
structure Table (V : Type) where
  dataType : String → String
  rows : List (Row V)

/-- The database of a target: the checksum of its schema as it is now, and its contents. -/
structure Database (V : Type) where
  checksum : String
  table : String → String → Table V

/-- The driver and the server: the value returned for a stored value, the stored value that a
parameter of a data type is read as (`none` when the server refuses it, `some none` for NULL),
and `value::text ILIKE '%' || pattern || '%'`. -/
structure SqlServer (ν V : Type) where
  fetch : V → PgValue ν
  bind : String → PgValue ν → Option (Option V)
  ilike : V → PgValue ν → Bool

variable {ν V : Type} [LinearOrder V]

/-- A comparison of two values. -/
def ComparisonOperator.test (operator : ComparisonOperator) (left right : V) : Bool :=
  match operator with
  | .eq => left = right
  | .ne => left ≠ right
  | .gt => right < left
  | .ge => right ≤ left
  | .lt => left < right
  | .le => left ≤ right

/-- The value that stands at a place; a tag that was not numbered stands for none. -/
def valueAt (values : List (PgValue ν)) : Placeholder → Option (PgValue ν)
  | .parameter index => if index = 0 then none else values[index - 1]?
  | .cursorTag _ => none

namespace SqlServer

variable (server : SqlServer ν V) (dataType : String → String)

/-- The stored value that a place of a column is read as. -/
def argument (lookup : Placeholder → Option (PgValue ν)) (column : String) (place : Placeholder) : Option (Option V) :=
  (lookup place).bind (server.bind (dataType column))

/-- Whether the server accepts the values of a condition. -/
def accepts (dataType : String → String) (lookup : Placeholder → Option (PgValue ν)) :
    Predicate → Bool
  | .isNull _ | .isNotNull _ | .never => true
  | .compare column _ place => (server.argument dataType lookup column place).isSome
  | .contains _ place => (lookup place).isSome
  | .and left right | .or left right =>
    accepts dataType lookup left && accepts dataType lookup right

/-- The truth of a condition of a row. -/
def truth (dataType : String → String) (lookup : Placeholder → Option (PgValue ν)) (row : Row V) :
    Predicate → Sql.Truth
  | .isNull column => some (row column).isNone
  | .isNotNull column => some (row column).isSome
  | .compare column operator place =>
    match row column, server.argument dataType lookup column place with
    | some left, some (some right) => some (operator.test left right)
    | _, _ => none
  | .contains column place =>
    match row column, lookup place with
    | some value, some pattern => some (server.ilike value pattern)
    | _, _ => none
  | .and left right => (truth dataType lookup row left).and (truth dataType lookup row right)
  | .or left right => (truth dataType lookup row left).or (truth dataType lookup row right)
  | .never => some false

/-- Whether a condition keeps a row. -/
def holds (lookup : Placeholder → Option (PgValue ν)) (row : Row V) (predicate : Predicate) : Bool :=
  (server.truth dataType lookup row predicate).holds

/-- The selected columns of a row, as the driver returns them. -/
def project (select : List String) (row : Row V) : ResultRow ν := fun column =>
  if select.contains column then
    match row column with
    | some value => server.fetch value
    | none => .null
  else .null

variable [JsonRuntime ν]

/-- The number of rows to skip. -/
def offsetOf (values : List (PgValue ν)) : Option Placeholder → Option Nat
  | none => some 0
  | some place =>
    match valueAt values place with
    | some (.number number) => (JsonRuntime.safeInteger number).map Int.toNat
    | _ => none

def queryPlaces (query : RowsQuery) : List Placeholder :=
  query.predicates.flatMap Predicate.places ++ query.offset.toList

/-- Whether every value stands somewhere in the query: the server cannot tell the type of a
parameter that does not. -/
def allPlaced (query : RowsQuery) (values : List (PgValue ν)) : Bool :=
  (List.range values.length).all fun index =>
    (queryPlaces query).contains (.parameter (index + 1))

/-- The rows that answer a query, unless the server refuses one of its values. -/
def run (database : Database V) (query : RowsQuery) (values : List (PgValue ν)) :
    Option (List (ResultRow ν)) :=
  let table := database.table query.schema query.relation
  match offsetOf values query.offset with
  | none => none
  | some offset =>
    if allPlaced query values &&
        query.predicates.all (server.accepts table.dataType (valueAt values)) then
      let kept := table.rows.filter fun row =>
        query.predicates.all (server.holds table.dataType (valueAt values) row)
      let order := query.orderBy.map fun item => (item.1, decide (item.2 = .asc))
      some ((((Sql.orderRows order kept).drop offset).take query.limit).map
        (server.project query.select))
    else none

end SqlServer

end NancyMan.Explorer
