import Mathlib.Data.List.Nodup
import NancyMan.Lib.Machine

/-!
# Migrations of the ops database

A run of the migrations reads which of them are recorded, and applies the others one by one, each
with its record in a transaction of its own. Any number of runs interleave statement by statement, a
statement may fail or its answer be lost, and a run may crash anywhere.
-/
namespace NancyMan.Storage

structure OpsMigration where
  id : String
  sql : String
  checksum : String

/-- `opsMigrationManifest`. -/
structure MigrationManifest where
  migrations : List OpsMigration
  /-- No two migrations share an identifier. -/
  distinct : (migrations.map OpsMigration.id).Nodup

/-- A row of `ops_schema_migrations`; one from before the column has no checksum. -/
structure AppliedMigration where
  migrationId : String
  checksum : Option String

/-- The first loop of `validateAppliedMigrations`. -/
def validateRows (migrations : List OpsMigration) :
    List AppliedMigration → Except String (List String)
  | [] => .ok []
  | applied :: rest =>
    match migrations.find? fun migration => migration.id = applied.migrationId with
    | none => .error ("OPS_MIGRATION_UNKNOWN_APPLIED_ID:" ++ applied.migrationId)
    | some migration =>
      if applied.checksum.any fun checksum => checksum ≠ migration.checksum then
        .error ("OPS_MIGRATION_CHECKSUM_MISMATCH:" ++ migration.id)
      else (validateRows migrations rest).map fun ids => migration.id :: ids

/-- The first migration that is missing before an applied one. -/
def missingPredecessor (ids : List String) : List OpsMigration → Option OpsMigration
  | [] => none
  | migration :: later =>
    if migration.id ∈ ids then missingPredecessor ids later
    else if later.any fun other => other.id ∈ ids then some migration
    else missingPredecessor ids later

def validateAppliedMigrations (manifest : MigrationManifest) (rows : List AppliedMigration) :
    Except String (List String) :=
  match validateRows manifest.migrations rows with
  | .error message => .error message
  | .ok ids =>
    match missingPredecessor ids manifest.migrations with
    | some migration => .error ("OPS_MIGRATION_PREDECESSOR_MISSING:" ++ migration.id)
    | none => .ok ids

/-- What an open transaction has done. -/
structure MigrationTransaction where
  statements : List String
  rows : List AppliedMigration

/-- Where a run is: the statement that it sends next, with what the run holds there. -/
inductive MigrationPhase where
  | idle
  | lock
  | createTable
  | addColumn
  | readRows
  | backfill (row : AppliedMigration) (rows : List AppliedMigration) (alreadyApplied : List String)
  | setNotNull (alreadyApplied : List String)
  | begin (migration : OpsMigration) (rest : List OpsMigration) (appliedMigrations : List String)
  | statement (migration : OpsMigration) (rest : List OpsMigration)
      (appliedMigrations : List String)
  | insertRow (migration : OpsMigration) (rest : List OpsMigration)
      (appliedMigrations : List String)
  | commit (migration : OpsMigration) (rest : List OpsMigration) (appliedMigrations : List String)
  | rollback
  | unlock (result : Option (List String))
  | ended (result : Option (List String))
  | crashed

/-- A run on a connection of its own, and whether it has taken the advisory lock. -/
structure MigrationRun where
  isLocked : Bool
  phase : MigrationPhase
  transaction : Option MigrationTransaction

/-- The database and its runs: the table, the open transactions that have inserted a key into it, the
statements of the migrations in the order of their commits, and who holds the advisory lock. -/
structure MigrationState where
  table : Option (List AppliedMigration)
  inserting : String → Option Nat
  applied : List String
  lockHolder : Option Nat
  run : Nat → MigrationRun

/-- How a statement goes: it is answered, it is not performed, or it is performed and its answer is
lost. -/
inductive StatementOutcome where
  | answers
  | fails
  | unanswered

/-- What happens to the runs. A run of the command line takes the lock first. -/
inductive MigrationEvent where
  | start (number : Nat) (takesLock : Bool)
  | advance (number : Nat) (outcome : StatementOutcome)
  | crash (number : Nat)

namespace MigrationPhase

def finish (isLocked : Bool) (result : Option (List String)) : MigrationPhase :=
  if isLocked then .unlock result else .ended result

/-- The next row whose checksum is to be filled in. -/
def backfillNext (rows : List AppliedMigration) (alreadyApplied : List String) : MigrationPhase :=
  match rows with
  | [] => .setNotNull alreadyApplied
  | row :: rest => .backfill row rest alreadyApplied

/-- The next migration that is to be applied. -/
def applyNext (isLocked : Bool) (pending : List OpsMigration) (appliedMigrations : List String) :
    MigrationPhase :=
  match pending with
  | [] => finish isLocked (some appliedMigrations)
  | migration :: rest => .begin migration rest appliedMigrations

end MigrationPhase

namespace MigrationState

variable (state : MigrationState)

def rows : List AppliedMigration := state.table.getD []

variable (number : Nat)

/-- A run goes on in a phase, with what its transaction has done. -/
def enter (phase : MigrationPhase) (transaction : Option MigrationTransaction) : MigrationState :=
  { state with
    run := Function.update state.run number
      { state.run number with phase := phase, transaction := transaction } }

def throw : MigrationState :=
  state.enter number (.finish (state.run number).isLocked none) none

/-- A statement outside a transaction: what it leaves, and where the run goes on if it is answered;
`none` is an error. -/
def perform (outcome : StatementOutcome) (performed : Option MigrationState)
    (next : MigrationPhase) : MigrationState :=
  match outcome, performed with
  | .fails, _ => state.throw number
  | _, none => state.throw number
  | .unanswered, some after => after.throw number
  | .answers, some after => after.enter number next none

variable (manifest : MigrationManifest)

/-- The migration of a row gives its checksum where it has none. -/
def fillIn (row other : AppliedMigration) : AppliedMigration :=
  if other.migrationId = row.migrationId ∧ other.checksum = none then
    { other with
      checksum := (manifest.migrations.find? fun migration =>
        migration.id = row.migrationId).map OpsMigration.checksum }
  else other

/-- The transaction of a run ends: its keys are free again. -/
def release : MigrationState :=
  { state with
    inserting := fun id => if state.inserting id = some number then none else state.inserting id }

/-- An error inside a transaction undoes it at once, and the run sends `ROLLBACK`. -/
def abort : MigrationState :=
  (state.release number).enter number .rollback none

/-- What a commit leaves. -/
def commit (transaction : MigrationTransaction) : MigrationState :=
  { state.release number with
    table := state.table.map fun rows => rows ++ transaction.rows
    applied := state.applied ++ transaction.statements }

/-- An insertion waits while another open transaction has inserted its key, and finds the key taken
once it is committed. -/
def insert (row : AppliedMigration) (transaction : MigrationTransaction) (next : MigrationPhase) : MigrationState :=
  if (state.inserting row.migrationId).any fun other => other ≠ number then state
  else if state.table.isNone || state.rows.any fun other => other.migrationId = row.migrationId then
    state.abort number
  else
    { state with
      inserting := Function.update state.inserting row.migrationId (some number) }.enter number next
        (some { transaction with rows := transaction.rows ++ [row] })

/-- A run takes the lock. -/
def takeLock : MigrationState :=
  { state with
    lockHolder := some number
    run := Function.update state.run number { state.run number with isLocked := true } }

/-- The lock of a run is free again. -/
def freeLock : MigrationState :=
  { state with
    lockHolder := if state.lockHolder = some number then none else state.lockHolder }

/-- A run sends its next statement. -/
def advance (collation : String → String → Bool) (state : MigrationState) (number : Nat)
    (outcome : StatementOutcome) : MigrationState :=
  let run := state.run number
  match run.phase with
  | .idle | .ended _ | .crashed => state
  | .lock =>
    if state.lockHolder.isSome then state
    else
      match outcome with
      | .answers => (state.takeLock number).enter number .createTable none
      | _ => state.enter number (.ended none) none
  | .createTable =>
    state.perform number outcome (some { state with table := some state.rows }) .addColumn
  | .addColumn => state.perform number outcome (state.table.map fun _ => state) .readRows
  | .readRows =>
    match state.table with
    | none => state.throw number
    | some rows =>
      let appliedRows := rows.mergeSort fun left right =>
        collation left.migrationId right.migrationId
      match validateAppliedMigrations manifest appliedRows with
      | .error _ => state.throw number
      | .ok ids =>
        state.perform number outcome (some state)
          (.backfillNext (appliedRows.filter fun row => row.checksum.isNone) ids)
  | .backfill row rest alreadyApplied =>
    state.perform number outcome
      (state.table.map fun rows =>
        { state with table := some (rows.map (fillIn manifest row)) })
      (.backfillNext rest alreadyApplied)
  | .setNotNull alreadyApplied =>
    state.perform number outcome
      (if state.rows.any fun row => row.checksum.isNone then none else state.table.map fun _ => state)
      (.applyNext run.isLocked
        (manifest.migrations.filter fun migration => migration.id ∉ alreadyApplied) [])
  | .begin migration rest appliedMigrations =>
    match outcome with
    | .answers =>
      state.enter number (.statement migration rest appliedMigrations) (some ⟨[], []⟩)
    | _ => state.throw number
  | .statement migration rest appliedMigrations =>
    match outcome, run.transaction with
    | .answers, some transaction =>
      state.enter number (.insertRow migration rest appliedMigrations)
        (some { transaction with statements := transaction.statements ++ [migration.sql] })
    | _, _ => state.abort number
  | .insertRow migration rest appliedMigrations =>
    match outcome, run.transaction with
    | .answers, some transaction =>
      state.insert number ⟨migration.id, some migration.checksum⟩ transaction
        (.commit migration rest appliedMigrations)
    | _, _ => state.abort number
  | .commit migration rest appliedMigrations =>
    match outcome, run.transaction with
    | .answers, some transaction =>
      (state.commit number transaction).enter number
        (.applyNext run.isLocked rest (appliedMigrations ++ [migration.id])) none
    | .unanswered, some transaction => (state.commit number transaction).enter number .rollback none
    | _, _ => state.abort number
  | .rollback => state.throw number
  | .unlock result =>
    (state.freeLock number).enter number
      (.ended (match outcome with | .answers => result | _ => none)) none

/-- A step of the runs. A crash closes the connection: its transaction and its lock are gone. -/
def step (collation : String → String → Bool) (state : MigrationState) : MigrationEvent → MigrationState × Unit
  | .start number takesLock =>
    match (state.run number).phase with
    | .idle =>
      ({ state with
        run := Function.update state.run number
          ⟨false, if takesLock then .lock else .createTable, none⟩ }, ())
    | _ => (state, ())
  | .advance number outcome => (state.advance manifest collation number outcome, ())
  | .crash number =>
    (((state.release number).freeLock number).enter number .crashed none, ())

def initial (table : Option (List AppliedMigration)) (applied : List String) : MigrationState :=
  ⟨table, fun _ => none, applied, none, fun _ => ⟨false, .idle, none⟩⟩

end MigrationState

end NancyMan.Storage
