import NancyMan.Explorer.SchemaReader
import NancyMan.Lib.Lines
import NancyMan.Lib.NameOrder

/-!
# The schema as the worker reads it

The catalog queries return the rows of schemas, relations, columns, constraints, indexes, triggers
and policies in some order. The worker gathers them by relation and sorts every list by name, and
its checksum is a digest of the JSON text of the schemas. A `Catalog` has the rows as PostgreSQL
keeps them, with unique names and without NUL in them, and `read_congr` says that
only the sets of its rows matter.
-/
namespace NancyMan.SqlWorker

open Explorer (ConstraintKind RelationKind)
open NameOrder
open List (mem_filter)

/-! ## Rows -/

inductive TriggerTiming where
  | before
  | after
  | insteadOf

inductive TriggerEvent where
  | insert
  | update
  | delete
  | truncate
deriving DecidableEq

inductive TriggerEnabled where
  | enabled
  | disabled
  | replica
  | always

inductive PolicyCommand where
  | all
  | select
  | insert
  | update
  | delete

/-- An event's text. -/
def TriggerEvent.text : TriggerEvent → String
  | .insert => "insert"
  | .update => "update"
  | .delete => "delete"
  | .truncate => "truncate"

structure RelationRow where
  schemaName : String
  relationName : String
  kind : RelationKind
  rowSecurityEnabled : Bool
  forceRowSecurity : Bool

structure ColumnRow where
  schemaName : String
  relationName : String
  columnName : String
  dataType : String
  nullable : Bool
  hasDefault : Bool
  identity : String
  generated : String

structure ConstraintRow where
  schemaName : String
  relationName : String
  constraintName : String
  kind : ConstraintKind
  columns : Option (List String)
  referencedSchema : Option String
  referencedRelation : Option String
  referencedColumns : Option (List String)
  deferrable : Bool
  initiallyDeferred : Bool

structure IndexRow where
  schemaName : String
  relationName : String
  indexName : String
  method : String
  columns : Option (List String)
  unique : Bool
  primary : Bool
  valid : Bool
  hasExpressions : Bool
  isPartial : Bool

structure TriggerRow where
  schemaName : String
  relationName : String
  triggerName : String
  timing : TriggerTiming
  events : Option (List TriggerEvent)
  enabled : TriggerEnabled

structure PolicyRow where
  schemaName : String
  relationName : String
  policyName : String
  command : PolicyCommand
  permissive : Bool
  roles : Option (List String)

/-- What the rows that belong to relations have in common. -/
class CatalogRow (Row : Type) where
  schemaName : Row → String
  relationName : Row → String
  name : Row → String

instance : CatalogRow RelationRow where
  schemaName := RelationRow.schemaName
  relationName := RelationRow.relationName
  name := RelationRow.relationName

instance : CatalogRow ColumnRow where
  schemaName := ColumnRow.schemaName
  relationName := ColumnRow.relationName
  name := ColumnRow.columnName

instance : CatalogRow ConstraintRow where
  schemaName := ConstraintRow.schemaName
  relationName := ConstraintRow.relationName
  name := ConstraintRow.constraintName

instance : CatalogRow IndexRow where
  schemaName := IndexRow.schemaName
  relationName := IndexRow.relationName
  name := IndexRow.indexName

instance : CatalogRow TriggerRow where
  schemaName := TriggerRow.schemaName
  relationName := TriggerRow.relationName
  name := TriggerRow.triggerName

instance : CatalogRow PolicyRow where
  schemaName := PolicyRow.schemaName
  relationName := PolicyRow.relationName
  name := PolicyRow.policyName

/-- What the catalog queries return. -/
structure CatalogRows where
  schemas : List String
  relations : List RelationRow
  columns : List ColumnRow
  constraints : List ConstraintRow
  indexes : List IndexRow
  triggers : List TriggerRow
  policies : List PolicyRow

/-! ## The schema -/

/-- `DatabaseColumn['identity']`. -/
inductive Identity where
  | always
  | byDefault

structure DatabaseColumn where
  name : String
  dataType : String
  nullable : Bool
  hasDefault : Bool
  identity : Option Identity
  generated : Bool

/-- The relation that a foreign key refers to. -/
structure ReferencedRelation where
  schema : String
  name : String
  columns : List String

structure DatabaseConstraint where
  name : String
  kind : ConstraintKind
  columns : List String
  referencedRelation : Option ReferencedRelation
  deferrable : Bool
  initiallyDeferred : Bool

structure DatabaseIndex where
  name : String
  method : String
  columns : List String
  unique : Bool
  primary : Bool
  valid : Bool
  hasExpressions : Bool
  isPartial : Bool

structure DatabaseTrigger where
  name : String
  timing : TriggerTiming
  events : List TriggerEvent
  enabled : TriggerEnabled

structure DatabasePolicy where
  name : String
  command : PolicyCommand
  permissive : Bool
  roles : List String

structure DatabaseRelation where
  name : String
  kind : RelationKind
  rowSecurityEnabled : Bool
  forceRowSecurity : Bool
  columns : List DatabaseColumn
  constraints : List DatabaseConstraint
  indexes : List DatabaseIndex
  triggers : List DatabaseTrigger
  policies : List DatabasePolicy

structure DatabaseSchema where
  name : String
  relations : List DatabaseRelation

def relationKey (schema relation : String) : String := schema ++ "\x00" ++ relation

def rowKey {Row : Type} [CatalogRow Row] (row : Row) : String :=
  relationKey (CatalogRow.schemaName row) (CatalogRow.relationName row)

/-- `sortedStrings`, of values that have a text. -/
def sortedStrings {α : Type} [DecidableEq α] (text : α → String) (values : Option (List α)) :
    List α :=
  sortByName text (values.getD []).eraseDups

def orderedColumns (values : Option (List String)) : List String := values.getD []

def identity (value : String) : Option Identity :=
  if value = "a" then some .always else if value = "d" then some .byDefault else none

/-- The column of a row. -/
def ColumnRow.column (row : ColumnRow) : DatabaseColumn where
  name := row.columnName
  dataType := row.dataType
  nullable := row.nullable
  hasDefault := row.hasDefault
  identity := SqlWorker.identity row.identity
  generated := row.generated ≠ ""

def ConstraintRow.target (row : ConstraintRow) : Option ReferencedRelation :=
  match row.referencedSchema, row.referencedRelation with
  | some schema, some relation =>
    if schema = "" ∨ relation = "" then none
    else some ⟨schema, relation, orderedColumns row.referencedColumns⟩
  | _, _ => none

/-- The constraint of a row. -/
def ConstraintRow.constraint (row : ConstraintRow) : DatabaseConstraint where
  name := row.constraintName
  kind := row.kind
  columns := orderedColumns row.columns
  referencedRelation := row.target
  deferrable := row.deferrable
  initiallyDeferred := row.initiallyDeferred

/-- The index of a row. -/
def IndexRow.index (row : IndexRow) : DatabaseIndex where
  name := row.indexName
  method := row.method
  columns := orderedColumns row.columns
  unique := row.unique
  primary := row.primary
  valid := row.valid
  hasExpressions := row.hasExpressions
  isPartial := row.isPartial

/-- The trigger of a row. -/
def TriggerRow.trigger (row : TriggerRow) : DatabaseTrigger where
  name := row.triggerName
  timing := row.timing
  events := sortedStrings TriggerEvent.text row.events
  enabled := row.enabled

/-- The policy of a row. -/
def PolicyRow.policy (row : PolicyRow) : DatabasePolicy where
  name := row.policyName
  command := row.command
  permissive := row.permissive
  roles := sortedStrings id row.roles

/-- What the rows of a relation add to one of its lists, sorted by name in the end. -/
def gathered {Row Item : Type} [CatalogRow Row] (rows : List Row) (item : Row → Item)
    (name : Item → String) (key : String) : List Item :=
  sortByName name ((rows.filter fun row => rowKey row = key).map item)

/-- `createRelations`: each relation under its key, a later row in the place of an earlier one. -/
def createRelations (rows : List RelationRow) : List (String × RelationRow) :=
  rows.foldl (fun relations row =>
    if relations.any fun entry => entry.1 = rowKey row then
      relations.map fun entry => if entry.1 = rowKey row then (rowKey row, row) else entry
    else relations ++ [(rowKey row, row)]) []

/-- A relation with what was gathered for its key. -/
def CatalogRows.relation (rows : CatalogRows) (key : String) (row : RelationRow) :
    DatabaseRelation where
  name := row.relationName
  kind := row.kind
  rowSecurityEnabled := row.rowSecurityEnabled
  forceRowSecurity := row.forceRowSecurity
  columns := gathered rows.columns ColumnRow.column DatabaseColumn.name key
  constraints := gathered rows.constraints ConstraintRow.constraint DatabaseConstraint.name key
  indexes := gathered rows.indexes IndexRow.index DatabaseIndex.name key
  triggers := gathered rows.triggers TriggerRow.trigger DatabaseTrigger.name key
  policies := gathered rows.policies PolicyRow.policy DatabasePolicy.name key

/-- The relations of a schema, which are those whose keys start with its name. -/
def CatalogRows.relationsOf (rows : CatalogRows) (schema : String) : List DatabaseRelation :=
  sortByName DatabaseRelation.name
    (((createRelations rows.relations).filter fun entry =>
      (schema ++ "\x00").toList.isPrefixOf entry.1.toList).map fun entry =>
        rows.relation entry.1 entry.2)

/-- `readProductionSchemaInCurrentTransaction`, but for its checksum. -/
def CatalogRows.read (rows : CatalogRows) : List DatabaseSchema :=
  (sortByName id rows.schemas).map fun name => ⟨name, rows.relationsOf name⟩

/-! ## The catalog -/

/-- Rows that belong to relations have distinct names within each, and no NUL in the names of their
schemas. -/
structure Distinct {Row : Type} [CatalogRow Row] (rows : List Row) : Prop where
  names : (rows.map fun row =>
    (CatalogRow.schemaName row, CatalogRow.relationName row, CatalogRow.name row)).Nodup
  plain : ∀ row ∈ rows, '\x00' ∉ (CatalogRow.schemaName row).toList

/-- The rows of a catalog: the unique indexes of PostgreSQL's catalogs keep the names of schemas, of
the relations of a schema and of the columns, constraints, indexes, triggers and policies of a
relation distinct, and no name has a NUL. -/
structure Catalog extends CatalogRows where
  schemas_distinct : schemas.Nodup
  schemas_plain : ∀ schema ∈ schemas, '\x00' ∉ schema.toList
  relations_distinct : Distinct relations
  columns_distinct : Distinct columns
  constraints_distinct : Distinct constraints
  indexes_distinct : Distinct indexes
  triggers_distinct : Distinct triggers
  policies_distinct : Distinct policies

/-- Two catalogs have the same rows, in whatever order. -/
structure Catalog.SameRows (catalog other : Catalog) : Prop where
  schemas : ∀ row, row ∈ catalog.schemas ↔ row ∈ other.schemas
  relations : ∀ row, row ∈ catalog.relations ↔ row ∈ other.relations
  columns : ∀ row, row ∈ catalog.columns ↔ row ∈ other.columns
  constraints : ∀ row, row ∈ catalog.constraints ↔ row ∈ other.constraints
  indexes : ∀ row, row ∈ catalog.indexes ↔ row ∈ other.indexes
  triggers : ∀ row, row ∈ catalog.triggers ↔ row ∈ other.triggers
  policies : ∀ row, row ∈ catalog.policies ↔ row ∈ other.policies

theorem relationKey_toList (schema relation : String) :
    (relationKey schema relation).toList = schema.toList ++ '\x00' :: relation.toList := by
  simp [relationKey]

variable {schema : String} {rows : List RelationRow}

/-- A key tells the schema and the relation. -/
theorem relationKey_inj {other relation another : String} (plain : '\x00' ∉ schema.toList)
    (other_plain : '\x00' ∉ other.toList)
    (same : relationKey schema relation = relationKey other another) :
    schema = other ∧ relation = another := by
  have texts := congrArg String.toList same
  rw [relationKey_toList, relationKey_toList] at texts
  obtain ⟨first, second⟩ := Lines.first_line_inj plain other_plain texts
  exact ⟨String.toList_inj.mp first, String.toList_inj.mp second⟩

section Gathered

variable {Row Item : Type} [CatalogRow Row] {rows others : List Row}

/-- The rows of one relation have distinct names. -/
theorem Distinct.names_of_key (distinct : Distinct rows) (key : String) :
    ((rows.filter fun row => rowKey row = key).map CatalogRow.name).Nodup := by
  refine List.Nodup.map_on ?_ ((distinct.names.of_map _).filter _)
  intro first here second there same
  obtain ⟨member, own⟩ := mem_filter.mp here
  obtain ⟨within, owned⟩ := mem_filter.mp there
  have keys : rowKey first = rowKey second :=
    (of_decide_eq_true own).trans (of_decide_eq_true owned).symm
  obtain ⟨schemas, relations⟩ :=
    relationKey_inj (distinct.plain first member) (distinct.plain second within) keys
  exact List.inj_on_of_nodup_map distinct.names member within (by rw [schemas, relations, same])

/-- What is gathered for a relation does not depend on the order of the rows. -/
theorem gathered_congr (item : Row → Item) (name : Item → String) (distinct : Distinct rows)
    (others_distinct : Distinct others) (named : ∀ row, name (item row) = CatalogRow.name row)
    (same : ∀ row, row ∈ rows ↔ row ∈ others) (key : String) :
    gathered rows item name key = gathered others item name key := by
  refine sortByName_map_eq ?_ ((others_distinct.names.of_map _).filter _) ?_
  · simp only [named]
    exact distinct.names_of_key key
  · intro row
    rw [mem_filter, mem_filter, same]

end Gathered

/-- The relations that come after others with other keys are added in order. -/
theorem foldl_relations (relations : List (String × RelationRow))
    (distinct : (relations.map Prod.fst ++ rows.map rowKey).Nodup) :
    rows.foldl (fun relations row =>
      if relations.any fun entry => entry.1 = rowKey row then
        relations.map fun entry => if entry.1 = rowKey row then (rowKey row, row) else entry
      else relations ++ [(rowKey row, row)]) relations =
        relations ++ rows.map fun row => (rowKey row, row) := by
  induction rows generalizing relations with
  | nil => simp
  | cons row rest ih =>
    have fresh : (relations.any fun entry => entry.1 = rowKey row) = false := by
      rw [List.any_eq_false]
      intro entry member same
      have apart := (List.nodup_append.mp distinct).2.2 entry.1 (List.mem_map_of_mem member)
        (rowKey row) (by simp)
      exact apart (of_decide_eq_true same)
    have later : ((relations ++ [(rowKey row, row)]).map Prod.fst ++ rest.map rowKey).Nodup := by
      simpa using distinct
    rw [List.foldl_cons, fresh]
    simpa using ih _ later

theorem createRelations_eq (distinct : (rows.map rowKey).Nodup) :
    createRelations rows = rows.map fun row => (rowKey row, row) :=
  foldl_relations [] distinct

/-- The relations of a catalog have distinct keys. -/
theorem Distinct.keys (distinct : Distinct rows) : (rows.map rowKey).Nodup := by
  refine List.Nodup.map_on ?_ (distinct.names.of_map _)
  intro first here second there same
  obtain ⟨schemas, relations⟩ :=
    relationKey_inj (distinct.plain first here) (distinct.plain second there) same
  refine List.inj_on_of_nodup_map distinct.names here there ?_
  rw [schemas, relations]
  exact congrArg _ (congrArg _ relations)

/-- A key that starts with a schema's name and NUL is one of the schema. -/
theorem schema_of_prefix (plain : '\x00' ∉ schema.toList) {row : RelationRow}
    (other_plain : '\x00' ∉ row.schemaName.toList)
    (starts : (schema ++ "\x00").toList.isPrefixOf (rowKey row).toList) :
    row.schemaName = schema := by
  obtain ⟨rest, same⟩ := List.isPrefixOf_iff_prefix.mp starts
  have texts : schema.toList ++ '\x00' :: rest =
      row.schemaName.toList ++ '\x00' :: row.relationName.toList := by
    rw [← relationKey_toList]
    show _ = (rowKey row).toList
    simpa using same
  exact (String.toList_inj.mp (Lines.first_line_inj plain other_plain texts).1).symm

/-! ## The order of the rows -/

variable {catalog other : Catalog}

/-- A relation does not depend on the order of the rows. -/
theorem relation_congr (same : catalog.SameRows other) (key : String) (row : RelationRow) :
    catalog.relation key row = other.relation key row := by
  unfold CatalogRows.relation
  congr 1
  · exact gathered_congr ColumnRow.column DatabaseColumn.name catalog.columns_distinct
      other.columns_distinct (fun _ => rfl) same.columns key
  · exact gathered_congr ConstraintRow.constraint DatabaseConstraint.name
      catalog.constraints_distinct other.constraints_distinct (fun _ => rfl) same.constraints key
  · exact gathered_congr IndexRow.index DatabaseIndex.name catalog.indexes_distinct
      other.indexes_distinct (fun _ => rfl) same.indexes key
  · exact gathered_congr TriggerRow.trigger DatabaseTrigger.name catalog.triggers_distinct
      other.triggers_distinct (fun _ => rfl) same.triggers key
  · exact gathered_congr PolicyRow.policy DatabasePolicy.name catalog.policies_distinct
      other.policies_distinct (fun _ => rfl) same.policies key

/-- The rows of the relations of a schema. -/
theorem Catalog.relationsOf_eq (catalog : Catalog) (schema : String) :
    catalog.relationsOf schema = sortByName DatabaseRelation.name
      ((catalog.relations.filter fun row =>
        (schema ++ "\x00").toList.isPrefixOf (rowKey row).toList).map fun row =>
          catalog.relation (rowKey row) row) := by
  unfold CatalogRows.relationsOf
  rw [createRelations_eq catalog.relations_distinct.keys, List.filter_map, List.map_map]
  rfl

/-- The relations of a schema do not depend on the order of the rows. -/
theorem relationsOf_congr (same : catalog.SameRows other) (plain : '\x00' ∉ schema.toList) :
    catalog.relationsOf schema = other.relationsOf schema := by
  rw [catalog.relationsOf_eq, other.relationsOf_eq]
  have relation (row : RelationRow) : other.relation (rowKey row) row =
      catalog.relation (rowKey row) row := (relation_congr same _ row).symm
  simp only [relation]
  refine sortByName_map_eq ?_ ((other.relations_distinct.names.of_map _).filter _) ?_
  · -- the relations of one schema have distinct names
    refine List.Nodup.map_on ?_ ((catalog.relations_distinct.names.of_map _).filter _)
    intro first here second there names
    obtain ⟨member, starts⟩ := mem_filter.mp here
    obtain ⟨within, begins⟩ := mem_filter.mp there
    have left := schema_of_prefix plain (catalog.relations_distinct.plain first member) starts
    have right := schema_of_prefix plain (catalog.relations_distinct.plain second within) begins
    have named : first.relationName = second.relationName := names
    refine List.inj_on_of_nodup_map catalog.relations_distinct.names member within ?_
    show (first.schemaName, first.relationName, first.relationName) =
      (second.schemaName, second.relationName, second.relationName)
    rw [left, right, named]
  · intro row
    rw [mem_filter, mem_filter, same.relations]

/-- The schema that is read does not depend on the order of the rows. -/
theorem read_congr (same : catalog.SameRows other) : catalog.read = other.read := by
  have names : sortByName id catalog.schemas = sortByName id other.schemas := by
    have perm : catalog.schemas.Perm other.schemas :=
      (List.perm_ext_iff_of_nodup catalog.schemas_distinct other.schemas_distinct).mpr same.schemas
    exact sortByName_eq_of_perm (by simpa using catalog.schemas_distinct) perm
  unfold CatalogRows.read
  rw [names]
  refine List.map_congr_left fun schema member => ?_
  have listed : schema ∈ other.schemas := mem_sortByName.mp member
  rw [relationsOf_congr same (other.schemas_plain schema listed)]

end NancyMan.SqlWorker
