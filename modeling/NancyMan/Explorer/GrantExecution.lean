import NancyMan.Explorer.GrantText

/-!
# What the grants script establishes

Executed against the database that its snapshot describes, the script leaves the explorer's role
with the right to read exactly the columns that the policy does not block, of exactly the relations
whose data is available and that are no foreign tables. What the role had in these schemas before is
gone, and what it has elsewhere and what other roles have stays.
-/
namespace NancyMan.Explorer.Grants

open SqlText GrantCommand
open List (any_eq_true mem_cons mem_filter mem_flatMap mem_map mem_singleton)

variable {toLowerCase : List Char → List Char} {digest : String → String}
  {snapshot : StructuralSnapshot}

/-- A column that the role is to read: one that the policy does not block, of a relation whose data
is available and that is no foreign table. -/
def Permitted (toLowerCase : List Char → List Char) (snapshot : StructuralSnapshot)
    (schema relation column : String) : Prop :=
  ∃ listed ∈ snapshot.schemas, listed.name = schema ∧
    ∃ known ∈ listed.relations, known.name = relation ∧ known.dataAvailable = true ∧
      known.isForeign = false ∧ (∃ held ∈ known.columns, held.name = column) ∧
      classifyColumn toLowerCase ⟨snapshot.targetId, schema, relation, column⟩ ≠ .blocked

/-- A snapshot of a database: its schemas and the columns to grant are there, and so is the role. -/
structure Describes (toLowerCase : List Char → List Char) (snapshot : StructuralSnapshot)
    (catalog : SqlCatalog) : Prop where
  role : catalog.hasRole browserRole = true
  schema : ∀ schema ∈ snapshot.schemas, catalog.hasSchema schema.name = true
  column : ∀ schema relation column, Permitted toLowerCase snapshot schema relation column →
    catalog.hasColumn schema relation column = true

/-- What the role has after the script: in the schemas of the snapshot, the reading of the permitted
columns and nothing else; elsewhere, and for other roles, what was there. -/
structure Establishes (toLowerCase : List Char → List Char) (snapshot : StructuralSnapshot)
    (prior after : SqlGrants) : Prop where
  select : ∀ schema ∈ snapshot.schemas, ∀ relation column,
    after.CanSelect browserRole schema.name relation column ↔
      Permitted toLowerCase snapshot schema.name relation column
  tables : ∀ grant ∈ after.tables, grant.role = browserRole →
    ∀ schema ∈ snapshot.schemas, grant.schema ≠ schema.name
  columns : ∀ grant ∈ after.columns, grant.role = browserRole →
    ∀ schema ∈ snapshot.schemas, grant.schema = schema.name → grant.privilege = .select
  otherTables : ∀ grant, (grant.role = browserRole → ∀ schema ∈ snapshot.schemas,
    grant.schema ≠ schema.name) → (grant ∈ after.tables ↔ grant ∈ prior.tables)
  otherColumns : ∀ grant, (grant.role = browserRole → ∀ schema ∈ snapshot.schemas,
    grant.schema ≠ schema.name) → (grant ∈ after.columns ↔ grant ∈ prior.columns)

/-! ## Names of the catalog -/

theorem isShort_of_mem {names : List SqlName} {text : String}
    (known : (names.any fun name => name.text = text)) : IsShort text := by
  obtain ⟨name, -, same⟩ := any_eq_true.mp known
  have exact : name.text = text := of_decide_eq_true same
  exact exact ▸ name.short

variable {catalog : SqlCatalog} {schema column : String} {relation : SnapshotRelation}
  {targetId : DatabaseTargetId} {role : String} {command : GrantCommand} {value : Json}

theorem isShort_of_hasColumn {table : String} (known : catalog.hasColumn schema table column) :
    IsShort table ∧ IsShort column := by
  obtain ⟨found, -, held⟩ := any_eq_true.mp known
  obtain ⟨-, named, columns⟩ := of_decide_eq_true held
  exact ⟨named ▸ found.name.short, isShort_of_mem columns⟩

/-- The safe columns of a relation that is granted are the permitted ones. -/
theorem permitted_of_safe {schema : SnapshotSchema} (listed : schema ∈ snapshot.schemas)
    (known : relation ∈ schema.relations) (available : relation.dataAvailable)
    (own : relation.isForeign = false)
    (safe : column ∈ safeColumns toLowerCase snapshot.targetId schema.name relation) :
    Permitted toLowerCase snapshot schema.name relation.name column := by
  obtain ⟨held, allowed⟩ := mem_filter.mp safe
  obtain ⟨entry, member, named⟩ := mem_map.mp held
  exact ⟨schema, listed, rfl, relation, known, rfl, available, own, ⟨entry, member, named⟩,
    of_decide_eq_true allowed⟩

/-- The identifiers of a described snapshot that the script names are short. -/
theorem allShort_of_describes (describes : Describes toLowerCase snapshot catalog) :
    AllShort toLowerCase snapshot where
  schema schema member := isShort_of_mem (describes.schema schema member)
  relation schema listed relation known available own filled := by
    have each : ∀ column ∈ safeColumns toLowerCase snapshot.targetId schema.name relation,
        IsShort relation.name ∧ IsShort column := fun column safe =>
      isShort_of_hasColumn
        (describes.column _ _ _ (permitted_of_safe listed known available own safe))
    obtain ⟨first, member⟩ := List.exists_mem_of_ne_nil _ filled
    exact ⟨(each first member).1, fun column safe => (each column safe).2⟩

/-! ## The statements succeed -/

/-- A grant of a relation is of its safe columns. -/
theorem mem_relationGrants :
    command ∈ relationGrants toLowerCase targetId role schema relation ↔
      relation.dataAvailable ∧ relation.isForeign = false ∧
        safeColumns toLowerCase targetId schema relation ≠ [] ∧
        command = .grantSelect (safeColumns toLowerCase targetId schema relation) schema
          relation.name role := by
  unfold relationGrants
  cases relation.dataAvailable with
  | false => simp
  | true =>
    cases relation.isForeign with
    | true => simp
    | false => by_cases none : safeColumns toLowerCase targetId schema relation = [] <;> simp [none]

/-- Every statement for a described snapshot names what is there. -/
theorem possible_scriptCommands (describes : Describes toLowerCase snapshot catalog) :
    (scriptCommands toLowerCase snapshot browserRole).all (possible catalog) := by
  refine List.all_eq_true.mpr fun command member => ?_
  rcases List.mem_append.mp member with revoked | granted
  · obtain ⟨schema, listed, rfl⟩ := mem_map.mp revoked
    exact Bool.and_eq_true_iff.mpr ⟨describes.schema schema listed, describes.role⟩
  · obtain ⟨schema, listed, held⟩ := mem_flatMap.mp granted
    rcases mem_cons.mp held with rfl | held
    · exact Bool.and_eq_true_iff.mpr ⟨describes.schema schema listed, describes.role⟩
    · obtain ⟨relation, known, held⟩ := mem_flatMap.mp held
      obtain ⟨available, own, filled, rfl⟩ := mem_relationGrants.mp held
      have there : ∀ column ∈ safeColumns toLowerCase snapshot.targetId schema.name relation,
          catalog.hasColumn schema.name relation.name column = true := fun column safe =>
        describes.column _ _ _ (permitted_of_safe listed known available own safe)
      obtain ⟨first, safe⟩ := List.exists_mem_of_ne_nil _ filled
      obtain ⟨table, stored, held⟩ := any_eq_true.mp (there first safe)
      obtain ⟨schemaNamed, tableNamed, -⟩ := of_decide_eq_true held
      have exists_ : (catalog.tables.any fun known =>
          decide (known.schema.text = schema.name ∧ known.name.text = relation.name)) = true :=
        any_eq_true.mpr ⟨table, stored, decide_eq_true ⟨schemaNamed, tableNamed⟩⟩
      have columns := List.all_eq_true.mpr there
      exact Bool.and_eq_true_iff.mpr ⟨Bool.and_eq_true_iff.mpr ⟨exists_, columns⟩, describes.role⟩

/-! ## What the statements leave -/

/-- The grants of the script are grants. -/
theorem isGrant_of_mem {schema : SnapshotSchema}
    (member : command ∈ schemaGrants toLowerCase targetId role schema) : command.isGrant := by
  rcases mem_cons.mp member with rfl | held
  · rfl
  · obtain ⟨relation, -, held⟩ := mem_flatMap.mp held
    obtain ⟨-, -, -, rfl⟩ := mem_relationGrants.mp held
    rfl

/-- The column privileges that the script grants are the reading of the permitted columns. -/
theorem granted_iff (grant : ColumnGrant) :
    (∃ command ∈ snapshot.schemas.flatMap (schemaGrants toLowerCase snapshot.targetId browserRole),
      grant ∈ command.granted) ↔
      grant.role = browserRole ∧ grant.privilege = .select ∧
        Permitted toLowerCase snapshot grant.schema grant.table grant.column := by
  constructor
  · rintro ⟨command, member, held⟩
    obtain ⟨schema, listed, member⟩ := mem_flatMap.mp member
    rcases mem_cons.mp member with rfl | member
    · cases held
    · obtain ⟨relation, known, member⟩ := mem_flatMap.mp member
      obtain ⟨available, own, -, rfl⟩ := mem_relationGrants.mp member
      obtain ⟨column, safe, rfl⟩ := mem_map.mp held
      exact ⟨rfl, rfl, permitted_of_safe listed known available own safe⟩
  · obtain ⟨role, schemaName, table, column, privilege⟩ := grant
    rintro ⟨roleSame, privilegeSame, schema, listed, schemaNamed, relation, known, relationNamed,
      available, own, ⟨entry, held, named⟩, allowed⟩
    subst roleSame privilegeSame schemaNamed relationNamed named
    have safe : entry.name ∈ safeColumns toLowerCase snapshot.targetId schema.name relation :=
      mem_filter.mpr ⟨List.mem_map_of_mem held, decide_eq_true allowed⟩
    refine ⟨.grantSelect (safeColumns toLowerCase snapshot.targetId schema.name relation) schema.name
      relation.name browserRole, ?_, mem_map.mpr ⟨entry.name, safe, rfl⟩⟩
    refine mem_flatMap.mpr ⟨schema, listed, .tail _ ?_⟩
    exact mem_flatMap.mpr ⟨relation, known,
      mem_relationGrants.mpr ⟨available, own, List.ne_nil_of_mem safe, rfl⟩⟩

def Kept (snapshot : StructuralSnapshot) (role schema : String) : Prop :=
  ¬ (role = browserRole ∧ schema ∈ snapshot.schemas.map (·.name))

/-- The privileges when everything is revoked. -/
def revoked (snapshot : StructuralSnapshot) (prior : SqlGrants) : SqlGrants :=
  GrantCommand.effects prior
    ((snapshot.schemas.map (·.name)).map (GrantCommand.revokeAllOnTables · browserRole))

variable (prior : SqlGrants)

theorem effects_scriptCommands :
    effects prior (scriptCommands toLowerCase snapshot browserRole) =
      effects (revoked snapshot prior)
        (snapshot.schemas.flatMap (schemaGrants toLowerCase snapshot.targetId browserRole)) := by
  unfold revoked scriptCommands effects
  rw [List.foldl_append, List.map_map]
  rfl

/-- After the revokes the role's privileges in the schemas are gone. -/
theorem mem_tables_revoked (grant : TableGrant) :
    grant ∈ (revoked snapshot prior).tables ↔
      grant ∈ prior.tables ∧ Kept snapshot grant.role grant.schema := by
  unfold revoked
  rw [effects_revokes]
  refine mem_filter.trans (and_congr_right fun _ => ?_)
  unfold Kept
  rw [Bool.not_eq_true', decide_eq_false_iff_not]

/-- After the revokes the role's privileges on columns in the schemas are gone. -/
theorem mem_columns_revoked (grant : ColumnGrant) :
    grant ∈ (revoked snapshot prior).columns ↔
      grant ∈ prior.columns ∧ Kept snapshot grant.role grant.schema := by
  unfold revoked
  rw [effects_revokes]
  refine mem_filter.trans (and_congr_right fun _ => ?_)
  unfold Kept
  rw [Bool.not_eq_true', decide_eq_false_iff_not]

theorem isGrant_of_mem_grants :
    ∀ command ∈ snapshot.schemas.flatMap (schemaGrants toLowerCase snapshot.targetId browserRole),
      command.isGrant := by
  intro command member
  obtain ⟨schema, -, held⟩ := mem_flatMap.mp member
  exact isGrant_of_mem held

theorem mem_tables_after (grant : TableGrant) :
    grant ∈ (effects prior (scriptCommands toLowerCase snapshot browserRole)).tables ↔
      grant ∈ prior.tables ∧ Kept snapshot grant.role grant.schema := by
  rw [effects_scriptCommands, effects_tables _ isGrant_of_mem_grants]
  exact mem_tables_revoked prior grant

theorem mem_columns_after (grant : ColumnGrant) :
    grant ∈ (effects prior (scriptCommands toLowerCase snapshot browserRole)).columns ↔
      (grant ∈ prior.columns ∧ Kept snapshot grant.role grant.schema) ∨
        (grant.role = browserRole ∧ grant.privilege = .select ∧
          Permitted toLowerCase snapshot grant.schema grant.table grant.column) := by
  rw [effects_scriptCommands, mem_effects_columns _ isGrant_of_mem_grants,
    mem_columns_revoked, granted_iff]

/-- The statements establish the policy. -/
theorem establishes_effects :
    Establishes toLowerCase snapshot prior
      (effects prior (scriptCommands toLowerCase snapshot browserRole)) := by
  have gone : ∀ schema ∈ snapshot.schemas, ¬ Kept snapshot browserRole schema.name :=
    fun schema listed kept => kept ⟨rfl, List.mem_map_of_mem listed⟩
  have elsewhere : ∀ role name, (role = browserRole → ∀ schema ∈ snapshot.schemas,
      name ≠ schema.name) → Kept snapshot role name := by
    rintro role name away ⟨own, inside⟩
    obtain ⟨schema, listed, same⟩ := mem_map.mp inside
    exact away own schema listed same.symm
  constructor
  case select =>
    intro schema listed relation column
    constructor
    · rintro (table | held)
      · exact absurd ((mem_tables_after prior _).mp table).2 (gone schema listed)
      · rcases (mem_columns_after prior _).mp held with ⟨-, kept⟩ | ⟨-, -, permitted⟩
        · exact absurd kept (gone schema listed)
        · exact permitted
    · intro permitted
      exact .inr ((mem_columns_after prior _).mpr (.inr ⟨rfl, rfl, permitted⟩))
  case tables =>
    intro grant held own schema listed same
    have kept := ((mem_tables_after prior grant).mp held).2
    rw [own, same] at kept
    exact gone schema listed kept
  case columns =>
    intro grant held own schema listed same
    rcases (mem_columns_after prior grant).mp held with ⟨-, kept⟩ | ⟨-, select, -⟩
    · rw [own, same] at kept
      exact absurd kept (gone schema listed)
    · exact select
  case otherTables =>
    intro grant away
    rw [mem_tables_after]
    exact and_iff_left (elsewhere _ _ away)
  case otherColumns =>
    intro grant away
    rw [mem_columns_after]
    constructor
    · rintro (⟨held, -⟩ | ⟨own, -, schema, listed, named, -⟩)
      · exact held
      · exact absurd named.symm (away own schema listed)
    · intro held
      exact .inl ⟨held, elsewhere _ _ away⟩

/-! ## The script -/

/-- An accepted snapshot has a checksum. -/
theorem isChecksum_of_accepted
    (accepted : validateSnapshot toLowerCase digest value = .ok snapshot) :
    isChecksum snapshot.checksum := by
  unfold validateSnapshot at accepted
  split at accepted
  · cases accepted
  · split at accepted
    · cases accepted
    · split at accepted
      · rename_i checksum _ _ _ _ _ _
        split at accepted
        · cases accepted
        · rename_i valid
          obtain ⟨schemas, -, accepted⟩ := Fallible.bind_ok accepted
          split at accepted
          · cases accepted
          · rw [← Except.ok.inj accepted]
            simp only [Bool.or_eq_true, Bool.not_eq_true', not_or, Bool.not_eq_false] at valid
            exact valid.1
      · cases accepted

/-- A snapshot with one relation of a column that is not blocked and one that is. -/
def quotedValue : Json :=
  .object [("targetId", .string "ops"), ("targetLabel", .string "Ops"),
    ("checksum", .string "dc1e6dfb5c8a9a8aacdeb179b9dbff14fbff59e82598d9b07f4094406512fcc7"),
    ("policyVersion", .string databasePolicyVersion),
    ("schemas", .array [.object [("name", .string "we\"ird"), ("relations", .array [
      .object [("name", .string "Users"), ("kind", .string "table"),
        ("columns", .array [
          .object [("name", .string "id"), ("classification", .string "internal"),
            ("selectable", .boolean true)],
          .object [("name", .string "token"), ("classification", .string "blocked"),
            ("selectable", .boolean false)]]),
        ("dataAvailable", .boolean true)]])]]),
    ("edges", .array [])]

/-- What is read of it. -/
def quotedSnapshot : StructuralSnapshot where
  targetId := .ops
  checksum := "dc1e6dfb5c8a9a8aacdeb179b9dbff14fbff59e82598d9b07f4094406512fcc7"
  schemas := [⟨"we\"ird", [⟨"Users", .string "table", true,
    [⟨"id", .internal, true⟩, ⟨"token", .blocked, false⟩]⟩]⟩]

def quotedDigest (_ : String) : String :=
  "dc1e6dfb5c8a9a8aacdeb179b9dbff14fbff59e82598d9b07f4094406512fcc7"

/-- A database with its relation and one that it does not list. -/
def quotedCatalog : SqlCatalog where
  roles := [⟨browserRole, by decide +kernel, by decide +kernel, by decide +kernel⟩]
  schemas := [⟨"we\"ird", by decide +kernel, by decide +kernel, by decide +kernel⟩]
  tables := [⟨⟨"we\"ird", by decide +kernel, by decide +kernel, by decide +kernel⟩,
    ⟨"Users", by decide +kernel, by decide +kernel, by decide +kernel⟩,
    [⟨"id", by decide +kernel, by decide +kernel, by decide +kernel⟩,
      ⟨"token", by decide +kernel, by decide +kernel, by decide +kernel⟩]⟩]

/-- The column that is not blocked is the one that may be read. -/
theorem permitted_quoted {relation : String}
    (permitted : Permitted (List.map Char.toLower) quotedSnapshot schema relation column) :
    schema = "we\"ird" ∧ relation = "Users" ∧ column = "id" := by
  obtain ⟨listed, member, rfl, known, held, rfl, -, -, ⟨entry, among, rfl⟩, allowed⟩ := permitted
  obtain rfl := mem_singleton.mp member
  obtain rfl := mem_singleton.mp held
  rcases mem_cons.mp among with rfl | among
  · exact ⟨rfl, rfl, rfl⟩
  · obtain rfl := mem_singleton.mp among
    have blocked : classifyColumn (List.map Char.toLower)
        ⟨quotedSnapshot.targetId, "we\"ird", "Users", "token"⟩ = .blocked := by decide +kernel
    exact absurd blocked allowed

end NancyMan.Explorer.Grants
