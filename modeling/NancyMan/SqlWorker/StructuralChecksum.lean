import NancyMan.Explorer.GrantScript
import NancyMan.SqlWorker.SchemaIntrospection

/-!
# The checksum of a schema

The worker's checksum covers the JSON text of the schemas it has read. The schema reader sends these
schemas with what the explorer may show of them, and the renderer of the grants computes the
checksum again from what it receives: it takes the structural properties of each schema, relation
and column and leaves the others. `checksums_agree` says that both are one, whatever the catalog has
and in whatever order its queries return it.
-/
namespace NancyMan.SqlWorker

open Explorer (ConstraintKind RelationKind)

/-! ## Texts -/

/-- A relation kind's text. -/
def relationKindText : RelationKind → String
  | .table => "table"
  | .partitionedTable => "partitioned_table"
  | .view => "view"
  | .materializedView => "materialized_view"
  | .foreignTable => "foreign_table"

/-- A constraint kind's text. -/
def constraintKindText : ConstraintKind → String
  | .primaryKey => "primary_key"
  | .unique => "unique"
  | .foreignKey => "foreign_key"
  | .check => "check"

/-- An identity's text. -/
def Identity.text : Identity → String
  | .always => "always"
  | .byDefault => "by_default"

/-- A timing's text. -/
def TriggerTiming.text : TriggerTiming → String
  | .before => "before"
  | .after => "after"
  | .insteadOf => "instead_of"

/-- The text of what enables a trigger. -/
def TriggerEnabled.text : TriggerEnabled → String
  | .enabled => "enabled"
  | .disabled => "disabled"
  | .replica => "replica"
  | .always => "always"

/-- A command's text. -/
def PolicyCommand.text : PolicyCommand → String
  | .all => "all"
  | .select => "select"
  | .insert => "insert"
  | .update => "update"
  | .delete => "delete"

/-! ## The schema as JSON -/

def textsJson (texts : List String) : Json := .array (texts.map Json.string)

def orNull {α : Type} (json : α → Json) (value : Option α) : Json := (value.map json).getD .null

/-- What a column has in a schema. -/
def DatabaseColumn.properties (column : DatabaseColumn) : List (String × Json) :=
  [("name", .string column.name), ("dataType", .string column.dataType),
    ("nullable", .boolean column.nullable), ("hasDefault", .boolean column.hasDefault),
    ("identity", orNull (fun identity => .string identity.text) column.identity),
    ("generated", .boolean column.generated)]

/-- A referenced relation as an object. -/
def ReferencedRelation.toJson (relation : ReferencedRelation) : Json :=
  .object [("schema", .string relation.schema), ("name", .string relation.name),
    ("columns", textsJson relation.columns)]

/-- A constraint as an object. -/
def DatabaseConstraint.toJson (constraint : DatabaseConstraint) : Json :=
  .object [("name", .string constraint.name),
    ("kind", .string (constraintKindText constraint.kind)),
    ("columns", textsJson constraint.columns),
    ("referencedRelation", orNull ReferencedRelation.toJson constraint.referencedRelation),
    ("deferrable", .boolean constraint.deferrable),
    ("initiallyDeferred", .boolean constraint.initiallyDeferred)]

/-- An index as an object. -/
def DatabaseIndex.toJson (index : DatabaseIndex) : Json :=
  .object [("name", .string index.name), ("method", .string index.method),
    ("columns", textsJson index.columns), ("unique", .boolean index.unique),
    ("primary", .boolean index.primary), ("valid", .boolean index.valid),
    ("hasExpressions", .boolean index.hasExpressions), ("partial", .boolean index.isPartial)]

/-- A trigger as an object. -/
def DatabaseTrigger.toJson (trigger : DatabaseTrigger) : Json :=
  .object [("name", .string trigger.name), ("timing", .string trigger.timing.text),
    ("events", textsJson (trigger.events.map TriggerEvent.text)),
    ("enabled", .string trigger.enabled.text)]

/-- A policy as an object. -/
def DatabasePolicy.toJson (policy : DatabasePolicy) : Json :=
  .object [("name", .string policy.name), ("command", .string policy.command.text),
    ("permissive", .boolean policy.permissive), ("roles", textsJson policy.roles)]

variable (relation : DatabaseRelation)

/-- What a relation has in a schema, with its columns as they are given. -/
def DatabaseRelation.properties (columns : List Json) : List (String × Json) :=
  [("name", .string relation.name), ("kind", .string (relationKindText relation.kind)),
    ("rowLevelSecurity", .object [("enabled", .boolean relation.rowSecurityEnabled),
      ("forced", .boolean relation.forceRowSecurity)]),
    ("columns", .array columns),
    ("constraints", .array (relation.constraints.map DatabaseConstraint.toJson)),
    ("indexes", .array (relation.indexes.map DatabaseIndex.toJson)),
    ("triggers", .array (relation.triggers.map DatabaseTrigger.toJson)),
    ("policies", .array (relation.policies.map DatabasePolicy.toJson))]

def DatabaseRelation.toJson : Json :=
  .object (relation.properties (relation.columns.map fun column => .object column.properties))

/-- A schema as an object. -/
def DatabaseSchema.toJson (schema : DatabaseSchema) : Json :=
  .object [("name", .string schema.name),
    ("relations", .array (schema.relations.map DatabaseRelation.toJson))]

def structuralChecksum (digest : String → String) (schemas : List DatabaseSchema) : String :=
  digest (Json.render (.object [("schemas", .array (schemas.map DatabaseSchema.toJson))]))

/-- `readProductionSchema`: the schemas and their checksum. -/
def readProductionSchema (digest : String → String) (rows : CatalogRows) :
    List DatabaseSchema × String :=
  (rows.read, structuralChecksum digest rows.read)

/-! ## The snapshot that is sent -/

/-- What the schema reader goes by besides the schemas: its target, the policy and its approval, the
enumerated columns and the estimates of the catalog. -/
structure SnapshotReader where
  reader : Explorer.SchemaReader
  targetLabel : String
  approval : Option Explorer.DatabasePolicyApproval
  isEnum : String → String → String → Bool
  estimatedRows : String → String → Option Numeral

def DatabaseColumn.production (column : DatabaseColumn) : Explorer.ProductionColumn :=
  ⟨column.name, column.dataType, column.nullable⟩

/-- A relation as far as the explorer looks at it. -/
def DatabaseRelation.production : Explorer.ProductionRelation where
  name := relation.name
  kind := relation.kind
  columns := relation.columns.map DatabaseColumn.production
  constraints := relation.constraints.map fun constraint =>
    { name := constraint.name
      kind := constraint.kind
      columns := constraint.columns
      referencedRelation := constraint.referencedRelation.map fun target =>
        ⟨target.schema, target.name, target.columns⟩ }
  indexes := relation.indexes.map fun index =>
    { name := index.name
      columns := index.columns
      unique := index.unique
      valid := index.valid
      hasExpressions := index.hasExpressions
      isPartial := index.isPartial }

namespace SnapshotReader

variable (snapshots : SnapshotReader) (schemas : List DatabaseSchema) (checksum : String)

/-- The catalog as far as the explorer looks at it. -/
def catalog : Explorer.Catalog where
  checksum
  schemas := schemas.map fun schema =>
    ⟨schema.name, schema.relations.map DatabaseRelation.production⟩
  isEnum := snapshots.isEnum

/-- A column as it is sent. -/
def columnJson (schema relation : String) (column : DatabaseColumn) : Json :=
  let catalog := snapshots.catalog schemas checksum
  let shown := Explorer.explorerColumn snapshots.reader catalog
    (Explorer.policyApproved snapshots.reader catalog snapshots.approval) schema relation
    column.production
  .object (column.properties ++
    [("classification", .string (Explorer.Grants.classificationText shown.classification)),
      ("selectable", .boolean shown.selectable),
      ("filterOperators",
        textsJson (shown.filterOperators.map Explorer.DatabaseFilterOperator.text))])

/-- A relation as it is sent. -/
def relationJson (schema : String) (relation : DatabaseRelation) : Json :=
  let catalog := snapshots.catalog schemas checksum
  let shown := Explorer.explorerRelation snapshots.reader catalog
    (Explorer.policyApproved snapshots.reader catalog snapshots.approval) schema
    relation.production
  .object (relation.properties
      (relation.columns.map (snapshots.columnJson schemas checksum schema relation.name)) ++
    [("estimatedRows", orNull Json.number (snapshots.estimatedRows schema relation.name)),
      ("dataAvailable", .boolean shown.dataAvailable),
      ("primaryKey", orNull textsJson (Explorer.primaryKey relation.production)),
      ("paginationKey", orNull textsJson shown.paginationKey)])

/-- A schema as it is sent. -/
def schemaJson (schema : DatabaseSchema) : Json :=
  .object [("name", .string schema.name),
    ("relations", .array (schema.relations.map
      (snapshots.relationJson schemas checksum schema.name)))]

/-- One end of a foreign key as an object. -/
def endJson (edge : Explorer.EdgeEnd) : Json :=
  .object [("schema", .string edge.schema), ("relation", .string edge.relation),
    ("columns", textsJson edge.columns)]

/-- A foreign key as an object. -/
def edgeJson (edge : Explorer.DatabaseRelationEdge) : Json :=
  .object [("constraint", .string edge.constraint), ("from", endJson edge.source),
    ("to", endJson edge.target)]

/-- The snapshot of some schemas with their checksum. -/
def snapshotJson : Json :=
  .object [("targetId", .string snapshots.reader.target.text),
    ("targetLabel", .string snapshots.targetLabel), ("checksum", .string checksum),
    ("policyVersion", .string snapshots.reader.policyVersion),
    ("schemas", .array (schemas.map (snapshots.schemaJson schemas checksum))),
    ("edges", .array ((Explorer.readSchema snapshots.reader (snapshots.catalog schemas checksum)
      snapshots.approval).edges.map edgeJson))]

/-- The text of the snapshot that the schema reader sends of a catalog. -/
def send (digest : String → String) (rows : CatalogRows) : String :=
  let (schemas, checksum) := readProductionSchema digest rows
  Json.render (snapshots.snapshotJson schemas checksum)

end SnapshotReader

/-! ## What the checksum covers -/

section Covered

open Explorer.Grants

variable {snapshots : SnapshotReader} {schemas : List DatabaseSchema} {checksum : String}

theorem structuralColumn_sent (schema relation : String) (column : DatabaseColumn) :
    structuralColumn (snapshots.columnJson schemas checksum schema relation column) =
      .object column.properties := by
  simp [structuralColumn, SnapshotReader.columnJson, DatabaseColumn.properties, properties,
    Json.property?, Json.lastProperty, Json.optional]

/-- The structural part of a relation that is sent is the relation. -/
theorem structuralRelation_sent (schema : String) (relation : DatabaseRelation) :
    structuralRelation (snapshots.relationJson schemas checksum schema relation) =
      relation.toJson := by
  have columns : (relation.columns.map
      (snapshots.columnJson schemas checksum schema relation.name)).map structuralColumn =
        relation.columns.map fun column => Json.object column.properties := by
    rw [List.map_map]
    exact List.map_congr_left fun column _ => structuralColumn_sent schema relation.name column
  simp [structuralRelation, SnapshotReader.relationJson, DatabaseRelation.toJson,
    DatabaseRelation.properties, properties, itemsOf, Json.property?, Json.lastProperty,
    Json.optional, Json.array?, ← columns]

/-- The structural part of a schema that is sent is the schema. -/
theorem structuralSchema_sent (schema : DatabaseSchema) :
    structuralSchema (snapshots.schemaJson schemas checksum schema) = schema.toJson := by
  have relations : (schema.relations.map
      (snapshots.relationJson schemas checksum schema.name)).map structuralRelation =
        schema.relations.map DatabaseRelation.toJson := by
    rw [List.map_map]
    exact List.map_congr_left fun relation _ => structuralRelation_sent schema.name relation
  simp [structuralSchema, SnapshotReader.schemaJson, DatabaseSchema.toJson, properties, itemsOf,
    Json.property?, Json.lastProperty, Json.optional, Json.array?, ← relations]

/-- The checksum of a snapshot covers its schemas. -/
theorem canonicalStructuralChecksum_sent (digest : String → String) :
    canonicalStructuralChecksum digest (snapshots.snapshotJson schemas checksum) =
      structuralChecksum digest schemas := by
  have items : itemsOf (snapshots.snapshotJson schemas checksum) "schemas" =
      schemas.map (snapshots.schemaJson schemas checksum) := by
    simp [itemsOf, SnapshotReader.snapshotJson, Json.property?, Json.lastProperty, Json.array?]
  have same : (schemas.map (snapshots.schemaJson schemas checksum)).map structuralSchema =
      schemas.map DatabaseSchema.toJson := by
    rw [List.map_map]
    exact List.map_congr_left fun schema _ => structuralSchema_sent schema
  unfold canonicalStructuralChecksum structuralChecksum
  rw [items, same]

end Covered

/-- The snapshot that is sent of any rows is read back with the checksum that the worker has
computed of them, and that checksum is the one of every catalog with the same rows in any order. -/
theorem checksums_agree (digest : String → String) (snapshots : SnapshotReader) :
    (∀ rows : CatalogRows,
      (Json.parse (snapshots.send digest rows)).map
          (Explorer.Grants.canonicalStructuralChecksum digest) =
        some (readProductionSchema digest rows).2) ∧
    ∀ catalog other : Catalog, catalog.SameRows other →
      (readProductionSchema digest other.toCatalogRows).2 =
        (readProductionSchema digest catalog.toCatalogRows).2 := by
  constructor
  · intro rows
    unfold SnapshotReader.send
    rw [Json.parse_render]
    exact congrArg some (canonicalStructuralChecksum_sent digest)
  · intro catalog other same
    unfold readProductionSchema
    rw [read_congr same]

def pupilColumn (schema column : String) : ColumnRow :=
  ⟨schema, "pupils", column, "text", true, false, "", ""⟩

/-- A catalog of two schemas with a table of the same name, its columns in an order. -/
def pupilCatalog : Catalog where
  schemas := ["public", "archive"]
  relations := [⟨"public", "pupils", .table, false, false⟩,
    ⟨"archive", "pupils", .table, true, false⟩]
  columns := [pupilColumn "public" "name", pupilColumn "public" "class",
    pupilColumn "archive" "name"]
  constraints := []
  indexes := []
  triggers := []
  policies := []
  schemas_distinct := by decide
  schemas_plain := by decide
  relations_distinct := ⟨by decide, by decide⟩
  columns_distinct := ⟨by decide, by decide⟩
  constraints_distinct := ⟨by decide, by decide⟩
  indexes_distinct := ⟨by decide, by decide⟩
  triggers_distinct := ⟨by decide, by decide⟩
  policies_distinct := ⟨by decide, by decide⟩

/-- The same catalog in another order. -/
def pupilCatalogAgain : Catalog where
  schemas := ["archive", "public"]
  relations := pupilCatalog.relations.reverse
  columns := pupilCatalog.columns.reverse
  constraints := []
  indexes := []
  triggers := []
  policies := []
  schemas_distinct := by decide
  schemas_plain := by decide
  relations_distinct := ⟨by decide, by decide⟩
  columns_distinct := ⟨by decide, by decide⟩
  constraints_distinct := ⟨by decide, by decide⟩
  indexes_distinct := ⟨by decide, by decide⟩
  triggers_distinct := ⟨by decide, by decide⟩
  policies_distinct := ⟨by decide, by decide⟩

/-- The two orders have one checksum. -/
theorem pupilCatalog_checksum :
    (readProductionSchema id pupilCatalogAgain.toCatalogRows).2 =
      (readProductionSchema id pupilCatalog.toCatalogRows).2 := by
  have same : pupilCatalog.SameRows pupilCatalogAgain := by
    refine ⟨?_, fun row => List.mem_reverse.symm, fun row => List.mem_reverse.symm,
      fun row => .rfl, fun row => .rfl, fun row => .rfl, fun row => .rfl⟩
    simp [pupilCatalog, pupilCatalogAgain, or_comm]
  exact (checksums_agree id ⟨⟨.ops, "", fun _ _ _ _ => .blocked, fun _ _ => 0⟩, "", none,
    fun _ _ _ => false, fun _ _ => none⟩).2 pupilCatalog pupilCatalogAgain same

end NancyMan.SqlWorker
