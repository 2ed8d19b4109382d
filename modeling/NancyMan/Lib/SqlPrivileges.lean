import NancyMan.Lib.Lines
import NancyMan.Lib.SqlTokens

/-!
# Privileges on tables and columns

The part of PostgreSQL's `GRANT` and `REVOKE` that a script of column grants uses, executed against
a catalog inside transactions. A role may read a column with a privilege on the whole table or with
one on the column. Revoking everything on the tables of a schema takes the privileges on their
columns too. A statement that fails aborts its transaction, and nothing of the transaction is kept.
-/
namespace NancyMan

/-- A name that the catalog can hold. -/
structure SqlName where
  text : String
  filled : text.toList ≠ []
  noNul : '\x00' ∉ text.toList
  short : Utf8.byteLength text.toList ≤ SqlText.maxNameBytes

/-- A relation that is no index or sequence: a table, a view or a foreign table. -/
structure SqlTable where
  schema : SqlName
  name : SqlName
  columns : List SqlName

structure SqlCatalog where
  roles : List SqlName
  schemas : List SqlName
  tables : List SqlTable

namespace SqlCatalog

variable (catalog : SqlCatalog)

def hasRole (role : String) : Bool := catalog.roles.any fun known => known.text = role

def hasSchema (schema : String) : Bool := catalog.schemas.any fun known => known.text = schema

/-- Whether a table has a column. -/
def hasColumn (schema table column : String) : Bool :=
  catalog.tables.any fun known => known.schema.text = schema ∧ known.name.text = table ∧
    known.columns.any fun name => name.text = column

/-- Whether a table is there with all of some columns. -/
def hasColumns (schema table : String) (columns : List String) : Bool :=
  (catalog.tables.any fun known => known.schema.text = schema ∧ known.name.text = table) &&
    columns.all (catalog.hasColumn schema table)

end SqlCatalog

inductive SqlPrivilege where
  | select
  | insert
  | update
  | delete
  | truncate
  | references
  | trigger

/-- A privilege of a role on a whole table. -/
structure TableGrant where
  role : String
  schema : String
  table : String
  privilege : SqlPrivilege

/-- A privilege of a role on one column. -/
structure ColumnGrant where
  role : String
  schema : String
  table : String
  column : String
  privilege : SqlPrivilege

/-- The privileges that are granted: on tables, on columns, and the use of schemas by roles. -/
structure SqlGrants where
  tables : List TableGrant
  columns : List ColumnGrant
  usage : List (String × String)

namespace SqlGrants

/-- Whether a role may read a column. -/
def CanSelect (grants : SqlGrants) (role schema table column : String) : Prop :=
  ⟨role, schema, table, .select⟩ ∈ grants.tables ∨
    ⟨role, schema, table, column, .select⟩ ∈ grants.columns

end SqlGrants

/-- A statement that changes privileges. -/
inductive GrantCommand where
  | revokeAllOnTables (schema role : String)
  | grantUsage (schema role : String)
  | grantSelect (columns : List String) (schema table role : String)

namespace GrantCommand

/-- Whether what a statement names is there. -/
def possible (catalog : SqlCatalog) : GrantCommand → Bool
  | .revokeAllOnTables schema role => catalog.hasSchema schema && catalog.hasRole role
  | .grantUsage schema role => catalog.hasSchema schema && catalog.hasRole role
  | .grantSelect columns schema table role =>
    catalog.hasColumns schema table columns && catalog.hasRole role

/-- The column privileges that a statement grants. -/
def granted : GrantCommand → List ColumnGrant
  | .grantSelect columns schema table role =>
    columns.map fun column => ⟨role, schema, table, column, .select⟩
  | _ => []

/-- What is granted after a statement. -/
def effect (grants : SqlGrants) : GrantCommand → SqlGrants
  | .revokeAllOnTables schema role =>
    { grants with
      tables := grants.tables.filter fun grant => !(grant.role = role ∧ grant.schema = schema)
      columns := grants.columns.filter fun grant => !(grant.role = role ∧ grant.schema = schema) }
  | .grantUsage schema role => { grants with usage := (role, schema) :: grants.usage }
  | .grantSelect columns schema table role =>
    { grants with
      columns := granted (.grantSelect columns schema table role) ++ grants.columns }

/-- What a statement leaves granted; nothing when it fails. -/
def perform (catalog : SqlCatalog) (grants : SqlGrants) (command : GrantCommand) :
    Option SqlGrants :=
  if command.possible catalog then some (command.effect grants) else none

/-- Statements one after the other. -/
def performAll (catalog : SqlCatalog) : SqlGrants → List GrantCommand → Option SqlGrants
  | grants, [] => some grants
  | grants, command :: rest =>
    match command.perform catalog grants with
    | some after => performAll catalog after rest
    | none => none

def effects (grants : SqlGrants) (commands : List GrantCommand) : SqlGrants :=
  commands.foldl effect grants

/-- Statements succeed when what each names is there. -/
theorem performAll_eq (catalog : SqlCatalog) (grants : SqlGrants) (commands : List GrantCommand) :
    performAll catalog grants commands =
      if commands.all (possible catalog) then some (effects grants commands) else none := by
  induction commands generalizing grants with
  | nil => rfl
  | cons command rest ih =>
    unfold performAll perform
    cases there : command.possible catalog with
    | true =>
      rw [if_pos rfl, List.all_cons, there, Bool.true_and]
      exact ih (command.effect grants)
    | false =>
      rw [if_neg Bool.false_ne_true, List.all_cons, there, Bool.false_and]
      rfl

variable (grants : SqlGrants)

include grants

/-- Revoking on schemas takes the role's privileges in them. -/
theorem effects_revokes (schemas : List String) (role : String) :
    effects grants (schemas.map (revokeAllOnTables · role)) =
      { grants with
        tables := grants.tables.filter fun grant => !(grant.role = role ∧ grant.schema ∈ schemas)
        columns := grants.columns.filter fun grant =>
          !(grant.role = role ∧ grant.schema ∈ schemas) } := by
  induction schemas generalizing grants with
  | nil => simp [effects]
  | cons schema rest ih =>
    have later := ih (effect grants (.revokeAllOnTables schema role))
    have first : effects grants ((schema :: rest).map (revokeAllOnTables · role)) =
        effects (effect grants (.revokeAllOnTables schema role))
          (rest.map (revokeAllOnTables · role)) := rfl
    rw [first, later]
    simp only [effect, List.filter_filter, SqlGrants.mk.injEq, and_true]
    constructor
    · apply List.filter_congr
      grind
    · apply List.filter_congr
      grind

/-- Whether a statement grants. -/
def isGrant : GrantCommand → Bool
  | .revokeAllOnTables _ _ => false
  | _ => true

theorem effect_tables {command : GrantCommand} (grant : command.isGrant) :
    (command.effect grants).tables = grants.tables := by
  cases command with
  | revokeAllOnTables schema role => cases grant
  | grantUsage schema role => rfl
  | grantSelect columns schema table role => rfl

theorem effect_columns {command : GrantCommand} (grant : command.isGrant) :
    (command.effect grants).columns = command.granted ++ grants.columns := by
  cases command with
  | revokeAllOnTables schema role => cases grant
  | grantUsage schema role => rfl
  | grantSelect columns schema table role => rfl

/-- Grants leave the privileges on tables. -/
theorem effects_tables {commands : List GrantCommand}
    (only : ∀ command ∈ commands, command.isGrant) :
    (effects grants commands).tables = grants.tables := by
  induction commands generalizing grants with
  | nil => rfl
  | cons command rest ih =>
    have later := ih (command.effect grants) fun other member => only other (.tail _ member)
    exact later.trans (effect_tables grants (only command (.head _)))

/-- After grants a column privilege is one that was there or one that a statement granted. -/
theorem mem_effects_columns {commands : List GrantCommand}
    (only : ∀ command ∈ commands, command.isGrant) (grant : ColumnGrant) :
    grant ∈ (effects grants commands).columns ↔
      grant ∈ grants.columns ∨ ∃ command ∈ commands, grant ∈ command.granted := by
  induction commands generalizing grants with
  | nil => simp [effects]
  | cons command rest ih =>
    have later := ih (command.effect grants) fun other member => only other (.tail _ member)
    rw [effect_columns grants (only command (.head _))] at later
    refine later.trans ?_
    have cut : (∃ other ∈ command :: rest, grant ∈ other.granted) ↔
        grant ∈ command.granted ∨ ∃ other ∈ rest, grant ∈ other.granted := by
      simp only [List.mem_cons, exists_eq_or_imp]
    rw [cut, List.mem_append]
    exact or_assoc.trans or_left_comm

omit grants

end GrantCommand

inductive SqlStatement where
  | beginTransaction
  | commit
  | change (command : GrantCommand)

def inTransaction (commands : List GrantCommand) : List SqlStatement :=
  .beginTransaction :: (commands.map SqlStatement.change ++ [.commit])

/-! ## The meaning of a script -/

inductive SqlTransaction where
  | outside
  | active (working : SqlGrants)
  | aborted

/-- A session: what is committed and the transaction it is in. -/
structure SqlSession where
  stored : SqlGrants
  transaction : SqlTransaction

open GrantCommand

namespace SqlSession

/-- An error aborts the transaction. -/
def fail (session : SqlSession) : SqlSession :=
  match session.transaction with
  | .outside => session
  | _ => { session with transaction := .aborted }

/-- Run a statement; one that cannot be read is an error. A second `BEGIN` and a `COMMIT` outside a
transaction are warnings. -/
def run (catalog : SqlCatalog) (session : SqlSession) : Option SqlStatement → SqlSession
  | none => session.fail
  | some .beginTransaction =>
    match session.transaction with
    | .outside => { session with transaction := .active session.stored }
    | _ => session
  | some .commit =>
    match session.transaction with
    | .active working => ⟨working, .outside⟩
    | _ => { session with transaction := .outside }
  | some (.change command) =>
    match session.transaction with
    | .outside =>
      match command.perform catalog session.stored with
      | some after => { session with stored := after }
      | none => session
    | .active working =>
      match command.perform catalog working with
      | some after => { session with transaction := .active after }
      | none => session.fail
    | .aborted => session

/-- Run statements in order. -/
def runAll (catalog : SqlCatalog) (session : SqlSession)
    (statements : List (Option SqlStatement)) : SqlSession :=
  statements.foldl (run catalog) session

/-- Changes inside a transaction: all of them are its working state, or it is aborted. -/
theorem runAll_changes (catalog : SqlCatalog) (stored working : SqlGrants)
    (commands : List GrantCommand) :
    runAll catalog ⟨stored, .active working⟩ (commands.map fun command => some (.change command)) =
      ⟨stored, match performAll catalog working commands with
        | some after => .active after
        | none => .aborted⟩ := by
  induction commands generalizing working with
  | nil => rfl
  | cons command rest ih =>
    cases performed : command.perform catalog working with
    | some after =>
      have first : run catalog ⟨stored, .active working⟩ (some (.change command)) =
          ⟨stored, .active after⟩ := by
        simp only [run, performed]
      have all : performAll catalog working (command :: rest) = performAll catalog after rest := by
        simp only [performAll, performed]
      rw [all]
      exact (congrArg (runAll catalog · _) first).trans (ih after)
    | none =>
      have first : run catalog ⟨stored, .active working⟩ (some (.change command)) =
          ⟨stored, .aborted⟩ := by
        simp only [run, performed]
        rfl
      have all : performAll catalog working (command :: rest) = none := by
        simp only [performAll, performed]
      have stays : ∀ others : List GrantCommand, runAll catalog ⟨stored, .aborted⟩
          (others.map fun command => some (.change command)) = ⟨stored, .aborted⟩ := by
        intro others
        induction others with
        | nil => rfl
        | cons other others ih => exact ih
      rw [all]
      exact (congrArg (runAll catalog · _) first).trans (stays rest)

/-- A transaction of changes commits all of them or none. -/
theorem runAll_transaction (catalog : SqlCatalog) (grants : SqlGrants)
    (commands : List GrantCommand) :
    (runAll catalog ⟨grants, .outside⟩ ((inTransaction commands).map some)).stored =
      (performAll catalog grants commands).getD grants := by
  have changes := runAll_changes catalog grants grants commands
  have shape : (inTransaction commands).map some =
      some .beginTransaction :: (commands.map (fun command => some (SqlStatement.change command)) ++
        [some .commit]) := by
    simp [inTransaction]
  have opened : run catalog ⟨grants, .outside⟩ (some .beginTransaction) =
      ⟨grants, .active grants⟩ := rfl
  unfold runAll at changes ⊢
  rw [shape, List.foldl_cons, opened, List.foldl_append, changes]
  cases performAll catalog grants commands <;> rfl

end SqlSession

namespace SqlText

/-- The columns of a list and what follows its closing bracket. -/
def columnList : List Token → Option (List String × List Token)
  | .name column :: .mark ',' :: rest =>
    (columnList rest).map fun found => (column :: found.1, found.2)
  | .name column :: .mark ')' :: rest => some ([column], rest)
  | _ => none

/-- The statement that tokens are. -/
def statement : List Token → Option SqlStatement
  | [.word "BEGIN"] => some .beginTransaction
  | [.word "COMMIT"] => some .commit
  | [.word "REVOKE", .word "ALL", .word "PRIVILEGES", .word "ON", .word "ALL", .word "TABLES",
      .word "IN", .word "SCHEMA", .name schema, .word "FROM", .name role] =>
    some (.change (.revokeAllOnTables schema role))
  | [.word "GRANT", .word "USAGE", .word "ON", .word "SCHEMA", .name schema, .word "TO",
      .name role] =>
    some (.change (.grantUsage schema role))
  | .word "GRANT" :: .word "SELECT" :: .mark '(' :: rest =>
    match columnList rest with
    | some (columns, [.word "ON", .name schema, .mark '.', .name table, .word "TO", .name role]) =>
      some (.change (.grantSelect columns schema table role))
    | _ => none
  | _ => none

/-- The statements of a script, each ended by a semicolon; one that cannot be read has none. -/
def statements (text : String) : Option (List (Option SqlStatement)) :=
  match tokens text with
  | none => none
  | some found =>
    if Lines.lastLine (.mark ';') found = [] then
      some ((Lines.completeLines (.mark ';') found).map statement)
    else none

/-- What is committed after a script was run from its start in a session of its own. -/
def execute (catalog : SqlCatalog) (grants : SqlGrants) (script : String) : Option SqlGrants :=
  (statements script).map fun found =>
    (SqlSession.runAll catalog ⟨grants, .outside⟩ found).stored

/-! ## Reading statements -/

/-- The tokens of a list of columns. -/
def listed : List String → List Token
  | [] => []
  | [column] => [.name column]
  | column :: rest => .name column :: .mark ',' :: listed rest

/-- The tokens of a statement. -/
def commandTokens : GrantCommand → List Token
  | .revokeAllOnTables schema role =>
    [.word "REVOKE", .word "ALL", .word "PRIVILEGES", .word "ON", .word "ALL", .word "TABLES",
      .word "IN", .word "SCHEMA", .name schema, .word "FROM", .name role]
  | .grantUsage schema role =>
    [.word "GRANT", .word "USAGE", .word "ON", .word "SCHEMA", .name schema, .word "TO", .name role]
  | .grantSelect columns schema table role =>
    [.word "GRANT", .word "SELECT", .mark '('] ++ listed columns ++
      [.mark ')', .word "ON", .name schema, .mark '.', .name table, .word "TO", .name role]

/-- The tokens of a statement. -/
def statementTokens : SqlStatement → List Token
  | .beginTransaction => [.word "BEGIN"]
  | .commit => [.word "COMMIT"]
  | .change command => commandTokens command

/-- A statement that its tokens can say: a list of columns has one. -/
def Sayable : SqlStatement → Prop
  | .change (.grantSelect columns _ _ _) => columns ≠ []
  | _ => True

/-- A list of columns is read back. -/
theorem columnList_listed {columns : List String} (filled : columns ≠ []) (rest : List Token) :
    columnList (listed columns ++ .mark ')' :: rest) = some (columns, rest) := by
  induction columns with
  | nil => exact absurd rfl filled
  | cons column others ih =>
    cases others with
    | nil => rfl
    | cons next others =>
      have later := ih (List.cons_ne_nil _ _)
      show (columnList (listed (next :: others) ++ .mark ')' :: rest)).map
        (fun found => (column :: found.1, found.2)) = _
      rw [later]
      rfl

/-- A statement is read back from its tokens. -/
theorem statement_tokens {said : SqlStatement} (sayable : Sayable said) :
    statement (statementTokens said) = some said := by
  cases said with
  | beginTransaction => rfl
  | commit => rfl
  | change command =>
    cases command with
    | revokeAllOnTables schema role => rfl
    | grantUsage schema role => rfl
    | grantSelect columns schema table role =>
      have reads := columnList_listed sayable
        [.word "ON", .name schema, .mark '.', .name table, .word "TO", .name role]
      have shape : statementTokens (.change (.grantSelect columns schema table role)) =
          .word "GRANT" :: .word "SELECT" :: .mark '(' :: (listed columns ++ .mark ')' ::
            [.word "ON", .name schema, .mark '.', .name table, .word "TO", .name role]) := by
        simp [statementTokens, commandTokens]
      rw [shape]
      simp only [statement, reads]

/-- A list of columns has no semicolon. -/
theorem plain_listed (columns : List String) : Token.mark ';' ∉ listed columns := by
  induction columns with
  | nil => exact List.not_mem_nil
  | cons column rest ih =>
    cases rest with
    | nil => simp [listed]
    | cons next rest =>
      show Token.mark ';' ∉ Token.name column :: Token.mark ',' :: listed (next :: rest)
      simp only [List.mem_cons, not_or]
      exact ⟨nofun, by decide, ih⟩

/-- A statement has no semicolon. -/
theorem plain_statementTokens (said : SqlStatement) : Token.mark ';' ∉ statementTokens said := by
  cases said with
  | beginTransaction => simp [statementTokens]
  | commit => simp [statementTokens]
  | change command =>
    cases command with
    | revokeAllOnTables schema role => simp [statementTokens, commandTokens]
    | grantUsage schema role => simp [statementTokens, commandTokens]
    | grantSelect columns schema table role =>
      have plain := plain_listed columns
      simp [statementTokens, commandTokens, plain]

/-- A text whose tokens are those of statements, each with a semicolon, is those statements. -/
theorem statements_of_tokens {text : String} {said : List SqlStatement}
    (sayable : ∀ one ∈ said, Sayable one)
    (read : tokens text = some (Lines.terminated (.mark ';') (said.map statementTokens))) :
    statements text = some (said.map some) := by
  have plain : ∀ line ∈ said.map statementTokens, Token.mark ';' ∉ line := by
    intro line member
    obtain ⟨one, -, rfl⟩ := List.mem_map.mp member
    exact plain_statementTokens one
  have lines : Lines.completeLines (.mark ';')
      (Lines.terminated (.mark ';') (said.map statementTokens)) = said.map statementTokens := by
    have cut := Lines.completeLines_terminated_append plain []
    have nothing : Lines.completeLines (Token.mark ';') [] = [] :=
      Lines.completeLines_plain List.not_mem_nil
    rwa [nothing, List.append_nil, List.append_nil] at cut
  have last : Lines.lastLine (.mark ';')
      (Lines.terminated (.mark ';') (said.map statementTokens)) = [] := by
    have whole := Lines.terminated_append_lastLine (Token.mark ';')
      (Lines.terminated (.mark ';') (said.map statementTokens))
    rw [lines] at whole
    exact List.append_right_eq_self.mp whole
  have each : (said.map statementTokens).map statement = said.map some := by
    rw [List.map_map]
    exact List.map_congr_left fun one member => statement_tokens (sayable one member)
  simp only [statements, read, last, lines, each, if_true]

end SqlText

end NancyMan
