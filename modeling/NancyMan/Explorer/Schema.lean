import Mathlib.Data.List.Basic

/-!
# What the database explorer is asked about

The relations of a target as the worker's schema snapshot lists them, a request for rows of
one of them, and the errors that refuse a request. Only what the row reader and its codec
consult is kept of a column and of a relation.
-/
namespace NancyMan.Explorer

/-- The targets of `DATABASE_TARGET_IDS`. -/
inductive DatabaseTargetId where
  | edutrackProduction
  | ops
deriving DecidableEq

/-- The text of a target id. -/
def DatabaseTargetId.text : DatabaseTargetId → String
  | .edutrackProduction => "edutrack_production"
  | .ops => "ops"

/-- `isDatabaseTargetId`, with the target that the text names. -/
def DatabaseTargetId.ofText (text : String) : Option DatabaseTargetId :=
  if text = "edutrack_production" then some .edutrackProduction
  else if text = "ops" then some .ops
  else none

@[simp] theorem DatabaseTargetId.ofText_text (target : DatabaseTargetId) :
    ofText target.text = some target := by
  cases target <;> decide

/-- The page sizes of `DATABASE_PAGE_SIZES`. -/
def isDatabasePageSize (pageSize : Nat) : Bool := [25, 50, 100].contains pageSize

inductive DatabaseColumnClassification where
  | «public»
  | internal
  | pii
  | blocked
deriving DecidableEq

inductive DatabaseFilterOperator where
  | eq
  | neq
  | contains
  | gt
  | gte
  | lt
  | lte
  | isNull
  | isNotNull
deriving DecidableEq

/-- A filter operator's text. -/
def DatabaseFilterOperator.text : DatabaseFilterOperator → String
  | .eq => "eq"
  | .neq => "neq"
  | .contains => "contains"
  | .gt => "gt"
  | .gte => "gte"
  | .lt => "lt"
  | .lte => "lte"
  | .isNull => "is_null"
  | .isNotNull => "is_not_null"

inductive Direction where
  | asc
  | desc
deriving DecidableEq

/-- A direction's text in a request. -/
def Direction.text : Direction → String
  | .asc => "asc"
  | .desc => "desc"

def Direction.ofText (text : String) : Option Direction :=
  if text = "asc" then some .asc else if text = "desc" then some .desc else none

@[simp] theorem Direction.ofText_text (direction : Direction) :
    ofText direction.text = some direction := by
  cases direction <;> decide

structure SortDefinition where
  column : String
  direction : Direction
deriving DecidableEq

structure DatabaseExplorerColumn where
  name : String
  dataType : String
  classification : DatabaseColumnClassification
  selectable : Bool
  filterOperators : List DatabaseFilterOperator

structure DatabaseExplorerRelation where
  name : String
  columns : List DatabaseExplorerColumn
  dataAvailable : Bool
  paginationKey : Option (List String)

structure DatabaseExplorerSchema where
  name : String
  relations : List DatabaseExplorerRelation

/-- One end of a foreign key. -/
structure EdgeEnd where
  schema : String
  relation : String
  columns : List String

/-- A foreign key with its constraint's name. -/
structure DatabaseRelationEdge where
  constraint : String
  source : EdgeEnd
  target : EdgeEnd

structure DatabaseExplorerSchemaSnapshot where
  targetId : DatabaseTargetId
  checksum : String
  policyVersion : String
  schemas : List DatabaseExplorerSchema
  edges : List DatabaseRelationEdge

structure FilterPredicate where
  column : String
  operator : DatabaseFilterOperator
  value : Option String

inductive PiiMode where
  | masked
  | revealed
deriving DecidableEq

/-- A mode's text. -/
def PiiMode.text : PiiMode → String
  | .masked => "masked"
  | .revealed => "revealed"

structure DatabaseRowsRequest where
  targetId : DatabaseTargetId
  schema : String
  relation : String
  pageSize : Nat
  cursor : Option String
  sort : Option SortDefinition
  filters : List FilterPredicate
  piiMode : PiiMode

/-! ## Errors -/

inductive ExplorerErrorCode where
  | filterInvalid
  | columnInvalid
  | relationInvalid
  | dataPermissionDenied
  | pageTooLarge
  | targetInvalid
  | cursorInvalid
  | schemaStale
  | queryFailed
  | resultTooLarge
deriving DecidableEq

/-- An error code's text. -/
def ExplorerErrorCode.text : ExplorerErrorCode → String
  | .filterInvalid => "DATABASE_FILTER_INVALID"
  | .columnInvalid => "DATABASE_COLUMN_INVALID"
  | .relationInvalid => "DATABASE_RELATION_INVALID"
  | .dataPermissionDenied => "DATABASE_DATA_PERMISSION_DENIED"
  | .pageTooLarge => "DATABASE_PAGE_TOO_LARGE"
  | .targetInvalid => "DATABASE_TARGET_INVALID"
  | .cursorInvalid => "DATABASE_CURSOR_INVALID"
  | .schemaStale => "DATABASE_SCHEMA_STALE"
  | .queryFailed => "DATABASE_QUERY_FAILED"
  | .resultTooLarge => "DATABASE_RESULT_TOO_LARGE"

structure ExplorerError where
  code : ExplorerErrorCode
  message : String
deriving DecidableEq

/-- `makeExplorerError(code, message)`, whose text starts with the code. -/
def makeExplorerError (code : ExplorerErrorCode) (message : Option String) : ExplorerError where
  code := code
  message := match message with
    | some message => code.text ++ ": " ++ message
    | none => code.text

end NancyMan.Explorer
