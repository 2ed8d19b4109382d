import NancyMan.Explorer.ColumnPolicy
import NancyMan.Lib.Fallible
import NancyMan.Lib.JsonObject
import NancyMan.Lib.SqlTokens

/-!
# The grants script of the explorer role

What the renderer accepts as a schema snapshot and the script it writes for one. The snapshot is
the JSON value of a file. Its structural checksum is taken anew, its policy fields are compared with
the policy, and the script revokes everything in every schema before it grants the columns that the
policy does not block.
-/
namespace NancyMan.Explorer.Grants

open SqlText (doubleQuote)

/-- The errors of the renderer. -/
inductive GrantsError where
  | structuralSnapshotInvalid
  | targetInvalid
  | protectedSchemaInvalid
  | policyFieldsMismatch
  | structuralChecksumMismatch
  | roleInvalid
  | snapshotIdentifierInvalid
deriving DecidableEq

/-- `ROLE_NAME`. -/
def browserRole : String := "ops_database_browser"

def forbiddenSchemaNames : List String := ["_ops", "information_schema", "pg_catalog"]

def relationKinds : List String :=
  ["table", "partitioned_table", "view", "materialized_view", "foreign_table"]

def classificationText : DatabaseColumnClassification → String
  | .public => "public"
  | .internal => "internal"
  | .pii => "pii"
  | .blocked => "blocked"

/-! ## The snapshot that the renderer works on -/

structure SnapshotColumn where
  name : String
  classification : DatabaseColumnClassification
  selectable : Bool

structure SnapshotRelation where
  name : String
  /-- The value of the file, of which only the text was compared with the kinds. -/
  kind : Json
  dataAvailable : Bool
  columns : List SnapshotColumn

structure SnapshotSchema where
  name : String
  relations : List SnapshotRelation

structure StructuralSnapshot where
  targetId : DatabaseTargetId
  checksum : String
  schemas : List SnapshotSchema

/-- `relation.kind === 'foreign_table'`. -/
def SnapshotRelation.isForeign (relation : SnapshotRelation) : Bool :=
  relation.kind.string? = some "foreign_table"

/-! ## What stands in the file -/

mutual

/-- `String(value)`. A number's text is never that of a name here, so its literal stands for it. -/
def stringOf : Json → String
  | .null => "null"
  | .boolean true => "true"
  | .boolean false => "false"
  | .number literal => String.ofList literal.text
  | .string text => text
  | .array items => joinedItems items
  | .object _ => "[object Object]"

/-- The items of an array joined by commas, of which `null` has an empty text. -/
def joinedItems : List Json → String
  | [] => ""
  | [.null] => ""
  | [item] => stringOf item
  | .null :: rest => "," ++ joinedItems rest
  | item :: rest => stringOf item ++ "," ++ joinedItems rest

end

def properties (names : List String) (value : Json) : List (String × Json) :=
  names.flatMap fun name => Json.optional name (value.property? name)

def itemsOf (value : Json) (name : String) : List Json :=
  ((value.property? name).bind Json.array?).getD []

def structuralColumn (column : Json) : Json :=
  .object (properties ["name", "dataType", "nullable", "hasDefault", "identity", "generated"] column)

/-- What the checksum covers of a relation. -/
def structuralRelation (relation : Json) : Json :=
  .object (properties ["name", "kind", "rowLevelSecurity"] relation ++
    ("columns", .array ((itemsOf relation "columns").map structuralColumn)) ::
    properties ["constraints", "indexes", "triggers", "policies"] relation)

/-- What the checksum covers of a schema. -/
def structuralSchema (schema : Json) : Json :=
  .object (properties ["name"] schema ++
    [("relations", .array ((itemsOf schema "relations").map structuralRelation))])

/-- `canonicalStructuralChecksum`, with the digest of a text. -/
def canonicalStructuralChecksum (digest : String → String) (snapshot : Json) : String :=
  digest (Json.render
    (.object [("schemas", .array ((itemsOf snapshot "schemas").map structuralSchema))]))

section

variable (toLowerCase : List Char → List Char)

def isRowDataKey (key : String) : Bool :=
  (["rows", "cells", "rowref", "rowrefs"].map String.toList).contains (toLowerCase key.toList)

mutual

def containsRowData : Json → Bool
  | .array items => anyContainsRowData items
  | .object properties => anyPropertyContainsRowData properties
  | _ => false

def anyContainsRowData : List Json → Bool
  | [] => false
  | item :: rest => containsRowData item || anyContainsRowData rest

/-- Of the properties of one name only the last is there. -/
def anyPropertyContainsRowData : List (String × Json) → Bool
  | [] => false
  | (key, nested) :: rest =>
    isRowDataKey toLowerCase key ||
      (!(rest.any fun later => later.1 = key) && containsRowData nested) ||
      anyPropertyContainsRowData rest

end

def textOf (value : Json) (name : String) : Option String := (value.property? name).bind Json.string?

/-- A property that is a boolean. -/
def booleanOf (value : Json) (name : String) : Option Bool :=
  match value.property? name with
  | some (.boolean held) => some held
  | _ => none

/-- The text of a property; one that is missing reads `undefined`. -/
def stringOfProperty (value : Json) (name : String) : String :=
  ((value.property? name).map stringOf).getD "undefined"

def isChecksumDigit (symbol : Char) : Bool := symbol.isDigit || ('a' ≤ symbol && symbol ≤ 'f')

/-- `/^[a-f0-9]{64}$/u`. -/
def isChecksum (text : String) : Bool := text.toList.length = 64 && text.toList.all isChecksumDigit

variable (targetId : DatabaseTargetId)

/-- The checks of a column. -/
def validateColumn (schema relation : String) (column : Json) : Except GrantsError SnapshotColumn :=
  match column.isRecord, textOf column "name", booleanOf column "selectable" with
  | true, some name, some selectable =>
    if !(["public", "internal", "pii", "blocked"].contains
        (stringOfProperty column "classification")) then .error .structuralSnapshotInvalid
    else
      let classification := classifyColumn toLowerCase ⟨targetId, schema, relation, name⟩
      if textOf column "classification" ≠ some (classificationText classification) ∨
          selectable ≠ (classification ≠ .blocked : Bool) then .error .policyFieldsMismatch
      else .ok ⟨name, classification, selectable⟩
  | _, _, _ => .error .structuralSnapshotInvalid

/-- The checks of a relation. -/
def validateRelation (schema : String) (relation : Json) : Except GrantsError SnapshotRelation :=
  match relation.isRecord, textOf relation "name", relation.property? "kind",
    booleanOf relation "dataAvailable", (relation.property? "columns").bind Json.array? with
  | true, some name, some kind, some dataAvailable, some columns =>
    if !(relationKinds.contains (stringOf kind)) then .error .structuralSnapshotInvalid
    else do
      let columns ← columns.mapM (validateColumn toLowerCase targetId schema name)
      return ⟨name, kind, dataAvailable, columns⟩
  | _, _, _, _, _ => .error .structuralSnapshotInvalid

/-- The checks of a schema. -/
def validateSchema (schema : Json) : Except GrantsError SnapshotSchema :=
  match schema.isRecord, textOf schema "name", (schema.property? "relations").bind Json.array? with
  | true, some name, some relations =>
    if (forbiddenSchemaNames.map String.toList).contains (toLowerCase name.toList) ||
        "pg_".toList <+: toLowerCase name.toList then .error .protectedSchemaInvalid
    else do
      let relations ← relations.mapM (validateRelation toLowerCase targetId name)
      return ⟨name, relations⟩
  | _, _, _ => .error .structuralSnapshotInvalid

variable (digest : String → String)

def validateSnapshot (value : Json) : Except GrantsError StructuralSnapshot :=
  if !value.isRecord || containsRowData toLowerCase value then .error .structuralSnapshotInvalid
  else
    match (textOf value "targetId").bind DatabaseTargetId.ofText with
    | none => .error .targetInvalid
    | some targetId =>
      match textOf value "targetLabel", textOf value "checksum",
        (value.property? "schemas").bind Json.array?, (value.property? "edges").bind Json.array? with
      | some _, some checksum, some schemas, some _ =>
        if !isChecksum checksum || textOf value "policyVersion" ≠ some databasePolicyVersion then
          .error .structuralSnapshotInvalid
        else do
          let schemas ← schemas.mapM (validateSchema toLowerCase targetId)
          if canonicalStructuralChecksum digest value ≠ checksum then
            .error .structuralChecksumMismatch
          else return ⟨targetId, checksum, schemas⟩
      | _, _, _, _ => .error .structuralSnapshotInvalid

/-! ## The script -/

def quoteIdentifier (value : String) : Except GrantsError String :=
  if value = "" ∨ '\x00' ∈ value.toList then .error .snapshotIdentifierInvalid
  else .ok ("\"" ++ String.ofList (value.toList.flatMap doubleQuote) ++ "\"")

/-- The columns of a relation that the policy does not block. -/
def safeColumns (schema : String) (relation : SnapshotRelation) : List String :=
  (relation.columns.map (·.name)).filter fun column =>
    classifyColumn toLowerCase ⟨targetId, schema, relation.name, column⟩ ≠ .blocked

/-- The statement that revokes what the role has in a schema. -/
def renderRevoke (roleQuoted : String) (schema : SnapshotSchema) : Except GrantsError String := do
  let schemaQuoted ← quoteIdentifier schema.name
  return "REVOKE ALL PRIVILEGES ON ALL TABLES IN SCHEMA " ++ schemaQuoted ++ " FROM " ++
    roleQuoted ++ ";"

/-- The statement that grants the safe columns of a relation, if there is one. -/
def renderRelation (roleQuoted schema schemaQuoted : String) (relation : SnapshotRelation) :
    Except GrantsError (List String) :=
  if !relation.dataAvailable || relation.isForeign then .ok []
  else
    let safe := safeColumns toLowerCase targetId schema relation
    if safe = [] then .ok []
    else do
      let relationQuoted ← quoteIdentifier relation.name
      let columnsQuoted ← safe.mapM quoteIdentifier
      return ["GRANT SELECT (" ++ ", ".intercalate columnsQuoted ++ ") ON " ++ schemaQuoted ++ "." ++
        relationQuoted ++ " TO " ++ roleQuoted ++ ";"]

/-- The statements that grant in a schema. -/
def renderSchema (roleQuoted : String) (schema : SnapshotSchema) :
    Except GrantsError (List String) := do
  let schemaQuoted ← quoteIdentifier schema.name
  let relations ← schema.relations.mapM
    (renderRelation toLowerCase targetId roleQuoted schema.name schemaQuoted)
  return ("GRANT USAGE ON SCHEMA " ++ schemaQuoted ++ " TO " ++ roleQuoted ++ ";") ::
    relations.flatten

/-- The script for an accepted snapshot. -/
def renderSnapshot (snapshot : StructuralSnapshot) (roleName : String) :
    Except GrantsError String := do
  let roleQuoted ← quoteIdentifier roleName
  let revokes ← snapshot.schemas.mapM (renderRevoke roleQuoted)
  let grants ← snapshot.schemas.mapM (renderSchema toLowerCase snapshot.targetId roleQuoted)
  return "\n".intercalate (["-- Database Explorer grants for role " ++ roleQuoted,
    "-- Target: " ++ snapshot.targetId.text ++ " (Checksum: " ++ snapshot.checksum ++ ")",
    "BEGIN;"] ++ revokes ++ grants.flatten ++ ["COMMIT;", ""])

def renderDatabaseExplorerGrants (value : Json) (roleName : Option String) :
    Except GrantsError String := do
  let snapshot ← validateSnapshot toLowerCase digest value
  let roleName := roleName.getD browserRole
  if roleName ≠ browserRole then .error .roleInvalid
  else renderSnapshot toLowerCase snapshot roleName

end

end NancyMan.Explorer.Grants
