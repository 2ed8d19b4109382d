import NancyMan.Explorer.Schema
import NancyMan.Lib.Js

/-!
# The schema snapshot

What the explorer may show of each relation follows from the catalog, the column policy and its
approval. Without approval every column is blocked. A relation's pagination key is its primary
key, or else its best unique index, and is dropped when the policy blocks one of its columns.
-/
namespace NancyMan.Explorer

structure ProductionColumn where
  name : String
  dataType : String
  nullable : Bool

inductive ConstraintKind where
  | primaryKey
  | unique
  | foreignKey
  | check
deriving DecidableEq

structure DatabaseConstraint where
  name : String
  kind : ConstraintKind
  columns : List String
  referencedRelation : Option EdgeEnd

structure DatabaseIndex where
  name : String
  columns : List String
  unique : Bool
  valid : Bool
  hasExpressions : Bool
  isPartial : Bool

inductive RelationKind where
  | table
  | partitionedTable
  | view
  | materializedView
  | foreignTable
deriving DecidableEq

structure ProductionRelation where
  name : String
  kind : RelationKind
  columns : List ProductionColumn
  constraints : List DatabaseConstraint
  indexes : List DatabaseIndex

structure ProductionSchema where
  name : String
  relations : List ProductionRelation

/-- The catalog of a target as it is read at one time. -/
structure Catalog where
  checksum : String
  schemas : List ProductionSchema
  isEnum : String → String → String → Bool

structure DatabasePolicyApproval where
  version : String
  targets : DatabaseTargetId → Option String

/-- What a schema is read with: its target, the column policy and `localeCompare`. -/
structure SchemaReader where
  target : DatabaseTargetId
  policyVersion : String
  classifyColumn : DatabaseTargetId → String → String → String → DatabaseColumnClassification
  localeCompare : String → String → Int

/-- Whether a symbol ends a line for `.` in a pattern. -/
def isLineTerminator (symbol : Char) : Bool :=
  symbol = '\n' || symbol = '\r' || symbol.toNat = 0x2028 || symbol.toNat = 0x2029

/-- What follows the last `)` of a line. -/
def afterLastClose : List Char → Option (List Char)
  | [] => none
  | symbol :: rest =>
    if isLineTerminator symbol then none
    else
      match afterLastClose rest with
      | some tail => some tail
      | none => if symbol = ')' then some rest else none

/-- `replace(/\(.*\)/, '')`. -/
def dropParenthesized : List Char → List Char
  | [] => []
  | symbol :: rest =>
    if symbol = '(' then
      match afterLastClose rest with
      | some tail => tail
      | none => symbol :: dropParenthesized rest
    else symbol :: dropParenthesized rest

def baseType (dataType : String) : String :=
  String.ofList (trim (dropParenthesized (dataType.toList.map Char.toLower)))

/-- `TEXT_TYPES`. -/
def textTypes : List String :=
  ["text", "varchar", "character varying", "char", "character", "uuid", "citext", "name", "bpchar"]

/-- `NUMERIC_TYPES`. -/
def numericTypes : List String :=
  ["int", "int2", "int4", "int8", "integer", "smallint", "bigint", "decimal", "numeric", "real",
    "double precision", "float", "float4", "float8", "serial", "bigserial", "smallserial", "money"]

/-- `TEMPORAL_TYPES`. -/
def temporalTypes : List String :=
  ["date", "time", "timetz", "time without time zone", "time with time zone", "timestamp",
    "timestamptz", "timestamp without time zone", "timestamp with time zone", "interval"]

/-- `BOOLEAN_TYPES`. -/
def booleanTypes : List String := ["bool", "boolean"]

def getFilterOperators (dataType : String) (classification : DatabaseColumnClassification)
    (isEnum : Bool) : List DatabaseFilterOperator :=
  if classification = .blocked then []
  else if isEnum then [.eq, .neq, .isNull, .isNotNull]
  else if textTypes.contains (baseType dataType) then [.eq, .neq, .contains, .isNull, .isNotNull]
  else if numericTypes.contains (baseType dataType) || temporalTypes.contains (baseType dataType) then
    [.eq, .neq, .gt, .gte, .lt, .lte, .isNull, .isNotNull]
  else if booleanTypes.contains (baseType dataType) then [.eq, .neq, .isNull, .isNotNull]
  else [.isNull, .isNotNull]

variable (reader : SchemaReader) (catalog : Catalog)

/-- Whether the approval covers the catalog as it was read. -/
def policyApproved (approval : Option DatabasePolicyApproval) : Bool :=
  match approval with
  | none => false
  | some approval =>
    approval.version = reader.policyVersion && approval.targets reader.target = some catalog.checksum

/-- A column of the snapshot. -/
def explorerColumn (approved : Bool) (schema relation : String) (column : ProductionColumn) : DatabaseExplorerColumn :=
  let classification :=
    if approved then reader.classifyColumn reader.target schema relation column.name else .blocked
  { name := column.name
    dataType := column.dataType
    classification := classification
    selectable := classification ≠ .blocked
    filterOperators := getFilterOperators column.dataType classification
      (catalog.isEnum schema relation column.name) }

variable (relation : ProductionRelation)

/-- The primary key of a relation, when it has columns. -/
def primaryKey : Option (List String) :=
  match relation.constraints.find? fun candidate => candidate.kind = .primaryKey with
  | none => none
  | some found => if found.columns = [] then none else some found.columns

/-- Whether none of some columns is nullable. -/
def allPresent (columns : List String) : Bool :=
  columns.all fun column => relation.columns.any fun candidate =>
    !candidate.nullable && candidate.name = column

/-- Whether an index may come first among the candidates for a key. -/
def indexAtMost (left right : DatabaseIndex) : Bool :=
  if left.columns.length ≠ right.columns.length then left.columns.length ≤ right.columns.length
  else reader.localeCompare left.name right.name ≤ 0

/-- The key of the rows of a relation: its primary key, or its shortest unique index whose
columns are never NULL. -/
def rowKey : Option (List String) :=
  let candidates := (relation.indexes.filter fun index =>
    index.unique && index.valid && !index.hasExpressions && !index.isPartial &&
      index.columns ≠ [] && allPresent relation index.columns).mergeSort (indexAtMost reader)
  match primaryKey relation with
  | some columns =>
    if allPresent relation columns then some columns else candidates.head?.map DatabaseIndex.columns
  | none => candidates.head?.map DatabaseIndex.columns

/-- The key that pages may use: none when one of its columns cannot be selected. -/
def visibleKey (columns : List DatabaseExplorerColumn) (key : Option (List String)) :
    Option (List String) :=
  key.bind fun key =>
    if key.all fun name => columns.any fun column => column.name = name && column.selectable then
      some key
    else none

/-- A relation of the snapshot. -/
def explorerRelation (approved : Bool) (schema : String) (relation : ProductionRelation) : DatabaseExplorerRelation :=
  let columns := relation.columns.map (explorerColumn reader catalog approved schema relation.name)
  { name := relation.name
    columns := columns
    dataAvailable := relation.kind ≠ .foreignTable && approved
    paginationKey := visibleKey columns (rowKey reader relation) }

/-- The foreign keys of a catalog, with their constraints' names. -/
def foreignKeys : List (String × DatabaseRelationEdge) :=
  catalog.schemas.flatMap fun schema =>
    schema.relations.flatMap fun relation =>
      relation.constraints.filterMap fun candidate =>
        match candidate.kind, candidate.referencedRelation with
        | .foreignKey, some target =>
          if target.schema ≠ "" ∧ target.relation ≠ "" then
            some (candidate.name,
              ⟨candidate.name, ⟨schema.name, relation.name, candidate.columns⟩, target⟩)
          else none
        | _, _ => none

/-- The snapshot of a catalog under a policy and its approval. -/
def readSchema (approval : Option DatabasePolicyApproval) : DatabaseExplorerSchemaSnapshot :=
  let approved := policyApproved reader catalog approval
  { targetId := reader.target
    checksum := catalog.checksum
    policyVersion := reader.policyVersion
    schemas := catalog.schemas.map fun schema =>
      ⟨schema.name, schema.relations.map (explorerRelation reader catalog approved schema.name)⟩
    edges := ((foreignKeys catalog).mergeSort fun left right =>
      reader.localeCompare left.1 right.1 ≤ 0).map Prod.snd }

/-! ## What a snapshot shows -/

/-- A relation's blocked columns are exactly those that cannot be selected, and its pagination
key has none of them. -/
structure PolicyKept (relation : DatabaseExplorerRelation) : Prop where
  selectable : ∀ column ∈ relation.columns, column.selectable = true ↔ column.classification ≠ .blocked
  keyed : ∀ key, relation.paginationKey = some key → ∀ name ∈ key,
    ∃ column ∈ relation.columns, column.name = name ∧ column.classification ≠ .blocked

/-- A relation of a snapshot keeps to the policy. -/
theorem explorerRelation_kept (approved : Bool) (schema : String) (relation : ProductionRelation) :
    PolicyKept (explorerRelation reader catalog approved schema relation) where
  selectable := by
    intro column member
    obtain ⟨entry, -, rfl⟩ := List.mem_map.mp member
    exact decide_eq_true_iff
  keyed := by
    intro key found name member
    obtain ⟨stored, -, visible⟩ := Option.bind_eq_some_iff.mp found
    rw [Option.ite_none_right_eq_some] at visible
    obtain ⟨all, same⟩ := visible
    cases same
    obtain ⟨column, listed, shown⟩ := List.any_eq_true.mp (List.all_eq_true.mp all name member)
    rw [Bool.and_eq_true, decide_eq_true_eq] at shown
    obtain ⟨entry, -, rfl⟩ := List.mem_map.mp listed
    exact ⟨_, listed, shown.1, decide_eq_true_iff.mp shown.2⟩

end NancyMan.Explorer
