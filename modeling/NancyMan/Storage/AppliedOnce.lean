import NancyMan.Storage.UndisturbedRun

/-!
# Migrations are applied exactly once

For every database that lists the first migrations, and every order of the statements, failures and
crashes of any number of runs: the table keeps listing the first migrations, whose statements were
committed once and in their order; where the checksum of an applied migration has changed every run
fails and leaves the database as it was; and where it has not, a later run that nothing disturbs
applies the others.
-/
namespace NancyMan.Storage

/-- A database in which the first migrations were applied. -/
structure OpsDatabase (manifest : MigrationManifest) where
  table : Option (List AppliedMigration)
  applied : List String
  /-- The table lists the first migrations, and their statements were applied. -/
  lists : ListsPrefix manifest (table.getD []) applied

namespace MigrationState

variable {manifest : MigrationManifest} {collation : String → String → Bool}

def undisturbed (number : Nat) (takesLock : Bool) (statements : Nat) : List MigrationEvent :=
  .start number takesLock :: List.replicate statements (.advance number .answers)

/-- No run changes the database or succeeds, and one that nothing disturbs fails. -/
def FailsWithoutEffect (manifest : MigrationManifest) (collation : String → String → Bool)
    (database : OpsDatabase manifest) (state : MigrationState) : Prop :=
  state.table = database.table ∧ state.applied = database.applied ∧
    (∀ number result, (state.run number).phase ≠ .ended (some result)) ∧
    (state.IsQuiet → ∀ number takesLock, (state.run number).phase = .idle → ∃ statements,
      ((Machine.after (step manifest collation) state
        (undisturbed number takesLock statements)).run number).phase = .ended none)

/-- A run that nothing disturbs returns the migrations that were left, and all are applied. -/
def AppliesTheRest (manifest : MigrationManifest) (collation : String → String → Bool)
    (state : MigrationState) : Prop :=
  state.IsQuiet → ∀ number takesLock, (state.run number).phase = .idle → ∃ statements last,
    Machine.after (step manifest collation) state
      (undisturbed number takesLock statements) = last ∧
    (last.run number).phase = .ended (some
      ((manifest.migrations.drop state.rows.length).map OpsMigration.id)) ∧
    last.rows.map AppliedMigration.migrationId = manifest.migrations.map OpsMigration.id ∧
    last.applied = manifest.migrations.map OpsMigration.sql

/-- The runs are sound and own what they hold after every run of events. -/
theorem isSound_after (database : OpsDatabase manifest) (events : List MigrationEvent) :
    (Machine.after (step manifest collation) (initial database.table database.applied)
        events).IsSound manifest (database.table.getD []) ∧
      (Machine.after (step manifest collation) (initial database.table database.applied)
        events).IsOwned := by
  have kept : ∀ (state : MigrationState) (event : MigrationEvent),
      state.IsSound manifest (database.table.getD []) ∧ state.IsOwned →
        (state.step manifest collation event).1.IsSound manifest (database.table.getD []) ∧
          (state.step manifest collation event).1.IsOwned := fun state event holds =>
    ⟨holds.1.step event, holds.2.step event⟩
  exact Machine.invariant_after kept
    ⟨isSound_initial database.lists, isOwned_initial database.table database.applied⟩ events

/-- Where a checksum has changed, the database is refused after every run of events. -/
theorem isRefused_after (database : OpsDatabase manifest)
    (changed : HasChanged manifest (database.table.getD [])) (events : List MigrationEvent) :
    (Machine.after (step manifest collation) (initial database.table database.applied)
      events).IsRefused database.table database.applied := by
  have kept : ∀ (state : MigrationState) (event : MigrationEvent),
      state.IsRefused database.table database.applied →
        (state.step manifest collation event).1.IsRefused database.table database.applied :=
    fun _ event refused => refused.step changed event
  have first : (initial database.table database.applied).IsRefused database.table
      database.applied := ⟨rfl, rfl, fun _ => trivial⟩
  exact Machine.invariant_after kept first events

variable {state : MigrationState}

/-- Where a checksum has changed, a run that nothing disturbs fails. -/
theorem undisturbed_fails {table : Option (List AppliedMigration)} {applied : List String}
    (refused : state.IsRefused table applied) (owned : state.IsOwned)
    (changed : HasChanged manifest (table.getD [])) (quiet : state.IsQuiet) {number : Nat}
    (idle : (state.run number).phase = .idle) (takesLock : Bool) :
    ∃ statements, ((Machine.after (step manifest collation) state
      (undisturbed number takesLock statements)).run number).phase = .ended none := by
  obtain ⟨middle, first, phase, read, -⟩ : ∃ middle, Reaches manifest collation number
      (state.step manifest collation (.start number takesLock)).1 middle ∧ _ :=
    reaches_read owned quiet idle takesLock
  have rows : HasChanged manifest state.rows := by
    unfold MigrationState.rows
    rw [refused.table]
    exact changed
  obtain ⟨last, second, ended⟩ : ∃ last, Reaches manifest collation number middle last ∧ _ :=
    reaches_failed read rows phase
  obtain ⟨statements, same⟩ := (first.trans second).steps
  exact ⟨statements, (congrArg (fun last => (last.run number).phase) same).trans ended⟩

/-- Where no checksum has changed, a run that nothing disturbs applies the rest. -/
theorem applies_the_rest {base : List AppliedMigration} (sound : state.IsSound manifest base)
    (owned : state.IsOwned) (unchanged : ¬HasChanged manifest base) :
    state.AppliesTheRest manifest collation := by
  intro quiet number takesLock idle
  obtain ⟨middle, first, phase, read, free⟩ : ∃ middle, Reaches manifest collation number
      (state.step manifest collation (.start number takesLock)).1 middle ∧ _ :=
    reaches_read owned quiet idle takesLock
  have middle_sound : middle.IsSound manifest base := first.sound (sound.step _)
  obtain ⟨last, second, ended, whole⟩ : ∃ last, Reaches manifest collation number middle last ∧ _ :=
    reaches_complete middle_sound free read (sound.unchanged unchanged) phase
  obtain ⟨statements, same⟩ := (first.trans second).steps
  have lists := (second.sound middle_sound).lists
  rw [ListsPrefix, List.take_of_length_le whole] at lists
  exact ⟨statements, last, same, ended, lists⟩

end MigrationState

open MigrationState

end NancyMan.Storage
