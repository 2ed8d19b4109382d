import NancyMan.Storage.MigrationRuns

/-!
# An undisturbed run of the migrations

A key belongs to a run that is about to commit it and the lock to a run that has not ended, so once
every run has ended or crashed both are free. A run whose statements are then answered, and that no
other run interrupts, finds the first migrations, fills in the checksums that are absent, and applies
the others one by one.
-/
namespace NancyMan.Storage

open MigrationState AppliedMigration
open Function (update_of_ne update_self)

variable {manifest : MigrationManifest} {collation : String → String → Bool}

namespace MigrationState

/-- Whether a run in a phase may hold the lock. -/
def MayLock : MigrationPhase → Prop
  | .idle | .lock | .ended _ | .crashed => False
  | _ => True

/-- Whether a run in a phase is about to commit. -/
def MayCommit : MigrationPhase → Prop
  | .commit _ _ _ => True
  | _ => False

/-- A key belongs to a run that is about to commit, and the lock to a run that took it. -/
structure IsOwned (state : MigrationState) : Prop where
  keys : ∀ id number, state.inserting id = some number → MayCommit (state.run number).phase
  lock : ∀ number, state.lockHolder = some number →
    (state.run number).isLocked = true ∧ MayLock (state.run number).phase

variable {state after : MigrationState} {number : Nat} (owned : state.IsOwned)

include owned

/-- A run goes on where its keys and its lock go with it. -/
theorem IsOwned.keep (after : MigrationState)
    (others : ∀ other, other ≠ number → after.run other = state.run other) {phase : MigrationPhase}
    {transaction : Option MigrationTransaction}
    (keys : ∀ id holder, after.inserting id = some holder →
      (holder = number ∧ MayCommit phase) ∨ (holder ≠ number ∧ state.inserting id = some holder))
    (lock : ∀ holder, after.lockHolder = some holder →
      (holder = number ∧ (after.run number).isLocked ∧ MayLock phase) ∨
        (holder ≠ number ∧ state.lockHolder = some holder)) :
    (after.enter number phase transaction).IsOwned := by
  have run_other : ∀ other, other ≠ number →
      (after.enter number phase transaction).run other = state.run other := fun other different =>
    (update_of_ne different _ _).trans (others other different)
  constructor
  · intro id holder held
    rcases keys id holder held with ⟨rfl, commits⟩ | ⟨different, before⟩
    · rw [run_enter]
      exact commits
    · rw [run_other holder different]
      exact owned.keys id holder before
  · intro holder held
    rcases lock holder held with ⟨rfl, locked⟩ | ⟨different, before⟩
    · rw [run_enter]
      exact locked
    · rw [run_other holder different]
      exact owned.lock holder before

/-- A run that is not about to commit goes on where the keys and the lock stay. -/
theorem IsOwned.move (plain : ¬MayCommit (state.run number).phase) (runs : after.run = state.run)
    (inserting : after.inserting = state.inserting) (holder : after.lockHolder = state.lockHolder)
    {phase : MigrationPhase} {transaction : Option MigrationTransaction}
    (keeps : (state.run number).isLocked → MayLock (state.run number).phase → MayLock phase) :
    (after.enter number phase transaction).IsOwned := by
  refine owned.keep after (fun _ _ => congrFun runs _) (fun id other held => ?_) fun other held => ?_
  · rw [inserting] at held
    by_cases own : other = number
    · rw [own] at held
      exact absurd (owned.keys id number held) plain
    · exact .inr ⟨own, held⟩
  · rw [holder] at held
    by_cases own : other = number
    · rw [own] at held
      obtain ⟨locked, may⟩ := owned.lock number held
      rw [runs]
      exact .inl ⟨own, locked, keeps locked may⟩
    · exact .inr ⟨own, held⟩

omit owned in
theorem mayLock_finish {isLocked : Bool} (locked : isLocked) (result : Option (List String)) :
    MayLock (.finish isLocked result) := by
  rw [locked]
  trivial

omit owned in
theorem mayLock_backfillNext (rows : List AppliedMigration) (ids : List String) :
    MayLock (.backfillNext rows ids) := by
  cases rows <;> trivial

omit owned in
theorem mayLock_applyNext {isLocked : Bool} (locked : isLocked) (pending : List OpsMigration)
    (appliedMigrations : List String) :
    MayLock (.applyNext isLocked pending appliedMigrations) := by
  cases pending with
  | nil => exact mayLock_finish locked _
  | cons migration rest => trivial

theorem IsOwned.throw (plain : ¬MayCommit (state.run number).phase)
    (runs : after.run = state.run) (inserting : after.inserting = state.inserting)
    (holder : after.lockHolder = state.lockHolder) : (after.throw number).IsOwned := by
  refine owned.move plain runs inserting holder fun locked _ => ?_
  rw [runs]
  exact mayLock_finish locked none

/-- A statement outside a transaction keeps the keys and the lock. -/
theorem IsOwned.perform (plain : ¬MayCommit (state.run number).phase) (outcome : StatementOutcome)
    {performed : Option MigrationState} {next : MigrationPhase}
    (leaves : ∀ after, performed = some after → after.run = state.run ∧
      after.inserting = state.inserting ∧ after.lockHolder = state.lockHolder)
    (keeps : (state.run number).isLocked → MayLock next) :
    (state.perform number outcome performed next).IsOwned := by
  unfold MigrationState.perform
  split
  · exact owned.throw plain rfl rfl rfl
  · exact owned.throw plain rfl rfl rfl
  · next after =>
    obtain ⟨runs, inserting, holder⟩ := leaves after rfl
    exact owned.throw plain runs inserting holder
  · next after =>
    obtain ⟨runs, inserting, holder⟩ := leaves after rfl
    exact owned.move plain runs inserting holder fun locked _ => keeps locked

omit owned in
/-- The end of a connection frees its lock. -/
theorem unlocked_of_ended {holder : Nat}
    (held : (if state.lockHolder = some number then none else state.lockHolder) = some holder) :
    holder ≠ number ∧ state.lockHolder = some holder := by
  split at held
  · cases held
  next other =>
  refine ⟨fun own => ?_, held⟩
  rw [own] at held
  exact other held

omit owned in
/-- The end of a transaction frees its keys. -/
theorem release_inserting {id : String} {holder : Nat}
    (held : (state.release number).inserting id = some holder) :
    holder ≠ number ∧ state.inserting id = some holder := by
  unfold release at held
  dsimp only at held
  split at held
  · cases held
  next other =>
  refine ⟨fun own => ?_, held⟩
  rw [own] at held
  exact other held

/-- A run whose transaction ends keeps its lock. -/
theorem IsOwned.close (after : MigrationState) (runs : after.run = state.run)
    (inserting : after.inserting = (state.release number).inserting)
    (holder : after.lockHolder = state.lockHolder) {phase : MigrationPhase}
    (keeps : (state.run number).isLocked → MayLock (state.run number).phase → MayLock phase) :
    (after.enter number phase none).IsOwned := by
  refine owned.keep after (fun _ _ => congrFun runs _) (fun id other held => ?_) fun other held => ?_
  · rw [inserting] at held
    exact .inr (release_inserting held)
  · rw [holder] at held
    by_cases own : other = number
    · rw [own] at held
      obtain ⟨locked, may⟩ := owned.lock number held
      rw [runs]
      exact .inl ⟨own, locked, keeps locked may⟩
    · exact .inr ⟨own, held⟩

theorem IsOwned.abort : (state.abort number).IsOwned :=
  owned.close (state.release number) rfl rfl rfl fun _ _ => trivial

/-- An insertion keeps the keys and the lock. -/
theorem IsOwned.insert (row : AppliedMigration)
    (transaction : MigrationTransaction) {next : MigrationPhase} (commits : MayCommit next)
    (keeps : MayLock next) : (state.insert number row transaction next).IsOwned := by
  unfold MigrationState.insert
  split
  · exact owned
  next free =>
  split
  · exact owned.abort
  refine owned.keep { state with
      inserting := Function.update state.inserting row.migrationId (some number) }
    (fun _ _ => rfl) (fun id holder held => ?_) fun holder held => ?_
  · by_cases own : holder = number
    · exact .inl ⟨own, commits⟩
    · refine .inr ⟨own, ?_⟩
      have updated : Function.update state.inserting row.migrationId (some number) id =
          some holder := held
      by_cases same : id = row.migrationId
      · rw [same, update_self] at updated
        exact absurd (Option.some.inj updated).symm own
      · rwa [update_of_ne same] at updated
  · by_cases own : holder = number
    · rw [own] at held
      exact .inl ⟨own, (owned.lock number held).1, keeps⟩
    · exact .inr ⟨own, held⟩

/-- The next statement of a run keeps the keys and the lock owned. -/
theorem IsOwned.advance (number : Nat) (outcome : StatementOutcome) :
    (state.advance manifest collation number outcome).IsOwned := by
  have plain : ∀ phase, (state.run number).phase = phase → ¬MayCommit phase →
      ¬MayCommit (state.run number).phase := fun phase same other => same ▸ other
  unfold MigrationState.advance
  dsimp only
  cases phase : (state.run number).phase with
  | idle => exact owned
  | ended result => exact owned
  | crashed => exact owned
  | lock =>
    dsimp only
    split
    · exact owned
    have idle := plain _ phase fun commits => commits
    have unlocked : state.lockHolder ≠ some number := by
      intro held
      have may := (owned.lock number held).2
      rw [phase] at may
      exact may
    have ended : (state.enter number (.ended none) none).IsOwned :=
      owned.move idle rfl rfl rfl fun _ may => by rw [phase] at may; exact may.elim
    cases outcome with
    | answers =>
      refine owned.keep (state.takeLock number)
        (fun _ different => update_of_ne different _ _) (fun id holder held => ?_)
        fun holder held => ?_
      · refine .inr ⟨fun own => ?_, held⟩
        rw [own] at held
        exact idle (owned.keys id number held)
      · refine .inl ⟨(Option.some.inj held).symm, ?_, trivial⟩
        unfold takeLock
        dsimp only
        rw [update_self]
    | fails => exact ended
    | unanswered => exact ended
  | createTable =>
    refine owned.perform (plain _ phase fun commits => commits) outcome (fun after same => ?_)
      fun _ => trivial
    cases same
    exact ⟨rfl, rfl, rfl⟩
  | addColumn =>
    refine owned.perform (plain _ phase fun commits => commits) outcome (fun after same => ?_)
      fun _ => trivial
    obtain ⟨_, -, rfl⟩ := Option.map_eq_some_iff.mp same
    exact ⟨rfl, rfl, rfl⟩
  | readRows =>
    have idle := plain _ phase fun commits => commits
    dsimp only
    split
    · exact owned.throw idle rfl rfl rfl
    split
    · exact owned.throw idle rfl rfl rfl
    · refine owned.perform idle outcome (fun after same => ?_) fun _ => mayLock_backfillNext _ _
      cases same
      exact ⟨rfl, rfl, rfl⟩
  | backfill row rest alreadyApplied =>
    refine owned.perform (plain _ phase fun commits => commits) outcome (fun after same => ?_)
      fun _ => mayLock_backfillNext _ _
    obtain ⟨_, -, rfl⟩ := Option.map_eq_some_iff.mp same
    exact ⟨rfl, rfl, rfl⟩
  | setNotNull alreadyApplied =>
    refine owned.perform (plain _ phase fun commits => commits) outcome (fun after same => ?_)
      fun locked => mayLock_applyNext locked _ _
    split at same
    · cases same
    · obtain ⟨_, -, rfl⟩ := Option.map_eq_some_iff.mp same
      exact ⟨rfl, rfl, rfl⟩
  | begin migration rest appliedMigrations =>
    have idle := plain _ phase fun commits => commits
    cases outcome with
    | answers => exact owned.move idle rfl rfl rfl fun _ _ => trivial
    | fails => exact owned.throw idle rfl rfl rfl
    | unanswered => exact owned.throw idle rfl rfl rfl
  | statement migration rest appliedMigrations =>
    dsimp only
    split
    · exact owned.move (plain _ phase fun commits => commits) rfl rfl rfl fun _ _ => trivial
    · exact owned.abort
  | insertRow migration rest appliedMigrations =>
    dsimp only
    split
    · exact owned.insert _ _ trivial trivial
    · exact owned.abort
  | commit migration rest appliedMigrations =>
    dsimp only
    split
    · next transaction _ =>
      exact owned.close (state.commit number transaction) rfl rfl rfl fun locked _ =>
        mayLock_applyNext locked _ _
    · next transaction _ =>
      refine owned.close (state.commit number transaction) rfl rfl rfl fun _ _ => ?_
      trivial
    · exact owned.abort
  | rollback => exact owned.throw (plain _ phase fun commits => commits) rfl rfl rfl
  | unlock result =>
    have idle := plain _ phase fun commits => commits
    refine owned.keep (state.freeLock number)
      (fun _ _ => rfl) (fun id holder held => ?_) fun holder held => .inr (unlocked_of_ended held)
    refine .inr ⟨fun own => ?_, held⟩
    rw [own] at held
    exact idle (owned.keys id number held)

/-- Every step keeps the keys and the lock owned. -/
theorem IsOwned.step (event : MigrationEvent) :
    (state.step manifest collation event).1.IsOwned := by
  cases event with
  | start number takesLock =>
    unfold MigrationState.step
    dsimp only
    split
    · next idle =>
      have other_run : ∀ other, other ≠ number → Function.update state.run number
          ⟨false, if takesLock then .lock else .createTable, none⟩ other = state.run other :=
        fun other different => update_of_ne different _ _
      constructor
      · intro id holder held
        have commits := owned.keys id holder held
        have different : holder ≠ number := by
          intro own
          rw [own, idle] at commits
          exact commits
        dsimp only
        rw [other_run holder different]
        exact commits
      · intro holder held
        have locked := owned.lock holder held
        have different : holder ≠ number := by
          intro own
          rw [own, idle] at locked
          exact locked.2
        dsimp only
        rw [other_run holder different]
        exact locked
    · exact owned
  | advance number outcome => exact owned.advance number outcome
  | crash number =>
    exact owned.keep ((state.release number).freeLock number)
      (fun _ _ => rfl) (fun _ _ held => .inr (release_inserting held))
      fun _ held => .inr (unlocked_of_ended held)

omit owned

theorem isOwned_initial (table : Option (List AppliedMigration)) (applied : List String) :
    (initial table applied).IsOwned :=
  ⟨(fun _ _ held => by cases held), fun _ held => by cases held⟩

/-! ## Statements that are answered -/

/-- A state is reached by statements of one run that are all answered. -/
inductive Reaches (manifest : MigrationManifest) (collation : String → String → Bool)
    (number : Nat) : MigrationState → MigrationState → Prop where
  | refl (state : MigrationState) : Reaches manifest collation number state state
  | answer {state last : MigrationState}
      (later : Reaches manifest collation number
        (state.advance manifest collation number .answers) last) :
      Reaches manifest collation number state last

theorem Reaches.next {middle last : MigrationState}
    (same : state.advance manifest collation number .answers = middle)
    (later : Reaches manifest collation number middle last) :
    Reaches manifest collation number state last := by
  rw [← same] at later
  exact .answer later

theorem Reaches.trans {middle last : MigrationState}
    (first : Reaches manifest collation number state middle)
    (second : Reaches manifest collation number middle last) :
    Reaches manifest collation number state last := by
  induction first with
  | refl => exact second
  | answer _ ih => exact .answer (ih second)

/-- What is reached is reached by a number of answers. -/
theorem Reaches.steps {last : MigrationState}
    (reaches : Reaches manifest collation number state last) :
    ∃ steps, Machine.after (step manifest collation) state
      (List.replicate steps (.advance number .answers)) = last := by
  induction reaches with
  | refl state => exact ⟨0, rfl⟩
  | answer _ ih =>
    obtain ⟨steps, same⟩ := ih
    exact ⟨steps + 1, same⟩

variable {base : List AppliedMigration}

theorem Reaches.sound {last : MigrationState}
    (reaches : Reaches manifest collation number state last) (sound : state.IsSound manifest base) :
    last.IsSound manifest base := by
  induction reaches with
  | refl => exact sound
  | answer _ ih => exact ih (sound.advance number .answers)

/-- A run that finishes ends with its result. -/
theorem reaches_ended {result : Option (List String)}
    (phase : (state.run number).phase = .finish (state.run number).isLocked result) :
    ∃ last, Reaches manifest collation number state last ∧
      (last.run number).phase = .ended result ∧ last.rows = state.rows ∧
      last.applied = state.applied := by
  cases locked : (state.run number).isLocked with
  | false =>
    rw [locked] at phase
    exact ⟨state, .refl state, phase, rfl, rfl⟩
  | true =>
    rw [locked] at phase
    have next : state.advance manifest collation number .answers =
        (state.freeLock number).enter number (.ended result) none := by
      unfold advance
      dsimp only
      rw [phase]
      rfl
    refine ⟨_, .answer (.refl _), ?_, ?_, ?_⟩
    · rw [next, run_enter]
    · rw [next]
      rfl
    · rw [next]
      rfl

/-- The next migration is not recorded. -/
theorem absent_of_next (sound : state.IsSound manifest base) {migration : OpsMigration}
    {rest : List OpsMigration}
    (next : manifest.migrations.drop state.rows.length = migration :: rest) :
    ∀ row ∈ state.rows, row.migrationId ≠ migration.id := by
  intro row member named
  have distinct := manifest.distinct
  rw [← List.take_append_drop state.rows.length manifest.migrations, next, List.map_append,
    ← sound.lists.1] at distinct
  have disjoint := (List.nodup_append.mp distinct).2.2
  exact disjoint _ (List.mem_map_of_mem member) _ List.mem_cons_self named

/-- An insertion of the next migration that nothing holds back is performed. -/
theorem insert_next (sound : state.IsSound manifest base) (free : ∀ id, state.inserting id = none)
    (present : state.table.isSome) {migration : OpsMigration} {rest : List OpsMigration}
    (next : manifest.migrations.drop state.rows.length = migration :: rest)
    (transaction : MigrationTransaction) (phase : MigrationPhase) :
    state.insert number ⟨migration.id, some migration.checksum⟩ transaction phase =
      { state with
        inserting := Function.update state.inserting migration.id (some number) }.enter number phase
          (some ⟨transaction.statements,
            transaction.rows ++ [AppliedMigration.mk migration.id (some migration.checksum)]⟩) := by
  have absent := absent_of_next sound next
  have waits : ¬(state.inserting migration.id).any (fun other => other ≠ number) := by
    rw [free]
    exact Bool.false_ne_true
  have taken : ¬(state.table.isNone ||
      state.rows.any fun other => decide (other.migrationId = migration.id)) = true := by
    intro refused
    rcases (Bool.or_eq_true _ _).mp refused with gone | recorded
    · rw [Option.isNone_iff_eq_none.mp gone] at present
      cases present
    · obtain ⟨row, member, named⟩ := List.any_eq_true.mp recorded
      exact absent row member (of_decide_eq_true named)
  unfold insert
  rw [if_neg waits, if_neg taken]

section Answers

variable {migration : OpsMigration} {rest : List OpsMigration} {appliedMigrations : List String}
  {transaction : MigrationTransaction}

theorem advance_begin (phase : (state.run number).phase = .begin migration rest appliedMigrations) :
    state.advance manifest collation number .answers =
      state.enter number (.statement migration rest appliedMigrations) (some ⟨[], []⟩) := by
  unfold advance
  dsimp only
  rw [phase]

/-- The statements of a migration that are performed. -/
theorem advance_statement
    (phase : (state.run number).phase = .statement migration rest appliedMigrations)
    (held : (state.run number).transaction = some transaction) :
    state.advance manifest collation number .answers =
      state.enter number (.insertRow migration rest appliedMigrations)
        (some { transaction with statements := transaction.statements ++ [migration.sql] }) := by
  unfold advance
  dsimp only
  rw [phase, held]

/-- The record of a migration that is inserted. -/
theorem advance_insertRow
    (phase : (state.run number).phase = .insertRow migration rest appliedMigrations)
    (held : (state.run number).transaction = some transaction) :
    state.advance manifest collation number .answers =
      state.insert number ⟨migration.id, some migration.checksum⟩ transaction
        (.commit migration rest appliedMigrations) := by
  unfold advance
  dsimp only
  rw [phase, held]

/-- A transaction that is committed. -/
theorem advance_commit (phase : (state.run number).phase = .commit migration rest appliedMigrations)
    (held : (state.run number).transaction = some transaction) :
    state.advance manifest collation number .answers =
      (state.commit number transaction).enter number
        (.applyNext (state.run number).isLocked rest (appliedMigrations ++ [migration.id]))
          none := by
  unfold advance
  dsimp only
  rw [phase, held]

end Answers

/-- A run applies the next migration and goes on with the others. -/
theorem reaches_next (sound : state.IsSound manifest base) (free : ∀ id, state.inserting id = none)
    (present : state.table.isSome) {migration : OpsMigration} {rest : List OpsMigration}
    {appliedMigrations : List String}
    (next : manifest.migrations.drop state.rows.length = migration :: rest)
    (phase : (state.run number).phase = .begin migration rest appliedMigrations) :
    ∃ last, Reaches manifest collation number state last ∧
      (last.run number).phase = .applyNext (last.run number).isLocked rest
        (appliedMigrations ++ [migration.id]) ∧
      (∀ id, last.inserting id = none) ∧ last.table.isSome ∧
      manifest.migrations.drop last.rows.length = rest := by
  obtain ⟨first, begun⟩ : ∃ first, first =
      state.enter number (.statement migration rest appliedMigrations) (some ⟨[], []⟩) := ⟨_, rfl⟩
  obtain ⟨second, performed⟩ : ∃ second, second =
      first.enter number (.insertRow migration rest appliedMigrations)
        (some ⟨[migration.sql], []⟩) := ⟨_, rfl⟩
  obtain ⟨third, inserted⟩ : ∃ third, third =
      { second with
        inserting := Function.update second.inserting migration.id (some number) }.enter number
          (.commit migration rest appliedMigrations)
          (some ⟨[migration.sql], [⟨migration.id, some migration.checksum⟩]⟩) := ⟨_, rfl⟩
  have answer₁ : state.advance manifest collation number .answers = first := by
    rw [advance_begin phase, begun]
  have answer₂ : first.advance manifest collation number .answers = second := by
    rw [advance_statement (by rw [begun, run_enter]) (by rw [begun, run_enter]), performed]
    rfl
  have sound₂ : second.IsSound manifest base := by
    rw [← answer₂, ← answer₁]
    exact (sound.advance _ _).advance _ _
  have rows₂ : second.rows = state.rows := by rw [performed, begun]; rfl
  have insertion : second.insert number ⟨migration.id, some migration.checksum⟩
      ⟨[migration.sql], []⟩ (.commit migration rest appliedMigrations) = _ :=
    insert_next sound₂ (by rw [performed, begun]; exact free)
      (by rw [performed, begun]; exact present) (by rw [rows₂]; exact next) _ _
  have answer₃ : second.advance manifest collation number .answers = third := by
    rw [advance_insertRow (by rw [performed, run_enter]) (by rw [performed, run_enter]), insertion,
      inserted]
    rfl
  have present₃ : third.table.isSome := by
    rw [inserted, performed, begun]
    exact present
  have rows₃ : third.rows = state.rows := by
    rw [inserted, performed, begun]
    rfl
  have answer₄ : third.advance manifest collation number .answers = _ :=
    advance_commit (by rw [inserted, run_enter]) (by rw [inserted, run_enter])
  refine ⟨_, .next answer₁ (.next answer₂ (.next answer₃ (.next answer₄ (.refl _)))), ?_,
    fun id => ?_, ?_, ?_⟩
  · rw [run_enter]
    rfl
  · show (if third.inserting id = some number then none else third.inserting id) = none
    split
    · rfl
    next other =>
    rw [inserted] at other ⊢
    have updated : Function.update second.inserting migration.id (some number) id ≠
      some number := other
    show Function.update second.inserting migration.id (some number) id = none
    by_cases same : id = migration.id
    · rw [same, update_self] at updated
      exact absurd rfl updated
    · rw [update_of_ne same, performed, begun]
      exact free id
  · show (third.table.map _).isSome = true
    rw [Option.isSome_map]
    exact present₃
  · rw [rows_enter, rows_commit present₃, rows₃, List.length_append, ← List.drop_drop, next]
    rfl

/-- A run applies the pending migrations and ends. -/
theorem reaches_applied {pending : List OpsMigration} (sound : state.IsSound manifest base)
    (free : ∀ id, state.inserting id = none) (present : state.table.isSome)
    {appliedMigrations : List String} (next : manifest.migrations.drop state.rows.length = pending)
    (phase : (state.run number).phase =
      .applyNext (state.run number).isLocked pending appliedMigrations) :
    ∃ last, Reaches manifest collation number state last ∧
      (last.run number).phase =
        .ended (some (appliedMigrations ++ pending.map OpsMigration.id)) ∧
      manifest.migrations.length ≤ last.rows.length := by
  induction pending generalizing state appliedMigrations with
  | nil =>
    obtain ⟨last, reaches, ended, rows, -⟩ :
        ∃ last, Reaches manifest collation number state last ∧ _ ∧ _ ∧ _ := reaches_ended phase
    refine ⟨last, reaches, ?_, ?_⟩
    · rw [ended, List.map_nil, List.append_nil]
    · rw [rows]
      exact List.drop_eq_nil_iff.mp next
  | cons migration rest ih =>
    obtain ⟨middle, first, goes, stays, table, later⟩ :
        ∃ middle, Reaches manifest collation number state middle ∧ _ :=
      reaches_next sound free present next phase
    obtain ⟨last, others, ended, whole⟩ := ih (first.sound sound) stays table later goes
    refine ⟨last, first.trans others, ?_, whole⟩
    rw [ended, List.append_assoc]
    rfl

/-- A run fills in the checksums that are absent. -/
theorem reaches_backfilled {pending : List AppliedMigration} {ids : List String}
    {rows : List AppliedMigration} (table : state.table = some rows)
    (known : ∀ row ∈ pending, ∃ migration ∈ manifest.migrations, migration.id = row.migrationId)
    (absent : ∀ row ∈ rows, row.checksum = none →
      ∃ other ∈ pending, other.migrationId = row.migrationId)
    (phase : (state.run number).phase = .backfillNext pending ids) :
    ∃ last, Reaches manifest collation number state last ∧
      (last.run number).phase = .setNotNull ids ∧
      (last.run number).isLocked = (state.run number).isLocked ∧
      last.inserting = state.inserting ∧ last.rows.length = rows.length ∧
      last.table.isSome ∧ ∀ row ∈ last.rows, row.checksum ≠ none := by
  induction pending generalizing state rows with
  | nil =>
    have listed : state.rows = rows := by
      unfold MigrationState.rows
      rw [table]
      rfl
    refine ⟨state, .refl state, phase, rfl, rfl, by rw [listed], by rw [table]; rfl, ?_⟩
    rw [listed]
    intro row member missing
    obtain ⟨other, none_left, -⟩ := absent row member missing
    cases none_left
  | cons head rest ih =>
    have answer : state.advance manifest collation number .answers =
        { state with table := some (rows.map (fillIn manifest head)) }.enter number
          (.backfillNext rest ids) none := by
      unfold advance perform
      dsimp only
      rw [phase, table]
      rfl
    obtain ⟨migration, member, named⟩ := known head List.mem_cons_self
    have filled : ∀ row ∈ rows.map (fillIn manifest head), row.checksum = none →
        ∃ other ∈ rest, other.migrationId = row.migrationId := by
      intro row present missing
      obtain ⟨other, before, rfl⟩ := List.mem_map.mp present
      unfold fillIn at missing ⊢
      split at missing
      · next fills =>
        rw [← named, find?_migration member] at missing
        cases missing
      · next keeps =>
        rw [if_neg keeps]
        obtain ⟨source, listed, same⟩ := absent other before missing
        rcases List.mem_cons.mp listed with first | later
        · rw [first] at same
          exact absurd ⟨same.symm, missing⟩ keeps
        · exact ⟨source, later, same⟩
    obtain ⟨last, reaches, ended, locked, inserting, length, some_table, checksums⟩ :=
      @ih ({ state with table := some (rows.map (fillIn manifest head)) }.enter number
          (.backfillNext rest ids) none) _ rfl
        (fun row listed => known row (.tail _ listed)) filled (by rw [run_enter])
    refine ⟨last, .next answer reaches, ended, ?_, inserting, ?_, some_table, checksums⟩
    · rw [locked, run_enter]
    · rw [length, List.length_map]

def IsQuiet (state : MigrationState) : Prop := ∀ number, ¬MayLock (state.run number).phase

/-- Where no run holds a key or the lock, all are free. -/
theorem IsOwned.free (owned : state.IsOwned) (quiet : state.IsQuiet) :
    (∀ id, state.inserting id = none) ∧ state.lockHolder = none := by
  constructor
  · intro id
    cases held : state.inserting id with
    | none => rfl
    | some holder =>
      have commits := owned.keys id holder held
      have idle := quiet holder
      cases phase : (state.run holder).phase with
      | commit migration rest appliedMigrations =>
        rw [phase] at idle
        exact absurd trivial idle
      | _ =>
        rw [phase] at commits
        exact commits.elim
  · cases held : state.lockHolder with
    | none => rfl
    | some holder => exact absurd (owned.lock holder held).2 (quiet holder)

/-- A run makes sure of the table and its column. -/
theorem reaches_table (phase : (state.run number).phase = .createTable) :
    ∃ middle, Reaches manifest collation number state middle ∧
      (middle.run number).phase = .readRows ∧ middle.table = some state.rows ∧
      middle.inserting = state.inserting := by
  obtain ⟨created, create⟩ : ∃ created, created =
      { state with table := some state.rows }.enter number .addColumn none := ⟨_, rfl⟩
  have answer₁ : state.advance manifest collation number .answers = created := by
    unfold advance perform
    dsimp only
    rw [phase, create]
  have answer₂ : created.advance manifest collation number .answers =
      created.enter number .readRows none := by
    unfold advance perform
    dsimp only
    rw [create, run_enter]
    rfl
  refine ⟨_, .next answer₁ (.next answer₂ (.refl _)), ?_, ?_, ?_⟩
  · rw [run_enter]
  · rw [create]
    rfl
  · rw [create]
    rfl

/-- A run begins and is about to read the rows. -/
theorem reaches_read (owned : state.IsOwned) (quiet : state.IsQuiet)
    (idle : (state.run number).phase = .idle) (takesLock : Bool) :
    ∃ middle, Reaches manifest collation number
        (state.step manifest collation (.start number takesLock)).1 middle ∧
      (middle.run number).phase = .readRows ∧ middle.table = some state.rows ∧
      ∀ id, middle.inserting id = none := by
  obtain ⟨free, unlocked⟩ := owned.free quiet
  obtain ⟨started, start⟩ : ∃ started, started =
      (state.step manifest collation (.start number takesLock)).1 := ⟨_, rfl⟩
  rw [← start]
  unfold step at start
  dsimp only at start
  rw [idle] at start
  dsimp only at start
  have run : started.run number = ⟨false, if takesLock then .lock else .createTable, none⟩ := by
    rw [start]
    exact update_self _ _ _
  cases takesLock with
  | false =>
    obtain ⟨middle, reaches, phase, table, inserting⟩ :
        ∃ middle, Reaches manifest collation number started middle ∧ _ :=
      reaches_table (by rw [run]; rfl)
    refine ⟨middle, reaches, phase, ?_, fun id => ?_⟩
    · rw [table, start]
      rfl
    · rw [inserting, start]
      exact free id
  | true =>
    have answer : started.advance manifest collation number .answers =
        (started.takeLock number).enter number .createTable none := by
      have open_lock : started.lockHolder = none := by
        rw [start]
        exact unlocked
      unfold advance
      dsimp only
      rw [run, open_lock]
      rfl
    obtain ⟨middle, reaches, phase, table, inserting⟩ :
        ∃ middle, Reaches manifest collation number
          ((started.takeLock number).enter number .createTable none) middle ∧ _ :=
      reaches_table (by rw [run_enter])
    refine ⟨middle, .next answer reaches, phase, ?_, fun id => ?_⟩
    · rw [table, start]
      rfl
    · rw [inserting, start]
      exact free id

/-- The rows of a sound state are rows of the manifest. -/
theorem known_row (sound : state.IsSound manifest base) {row : AppliedMigration}
    (member : row ∈ state.rows) :
    ∃ migration ∈ manifest.migrations, migration.id = row.migrationId := by
  have recorded : row.migrationId ∈ state.rows.map migrationId :=
    List.mem_map_of_mem member
  rw [sound.lists.1] at recorded
  obtain ⟨migration, first, named⟩ := List.mem_map.mp recorded
  exact ⟨migration, List.mem_of_mem_take first, named⟩

/-- Rows whose checksums have not changed are valid in every order. -/
theorem valid_of_unchanged {read : List AppliedMigration} (sound : state.IsSound manifest base)
    (same : read.Perm state.rows) (unchanged : ¬HasChanged manifest state.rows) :
    validateAppliedMigrations manifest read = .ok (read.map migrationId) := by
  have rows := validateRows_unchanged (fun row member => known_row sound (same.mem_iff.mp member))
    (fun ⟨row, member, changed⟩ => unchanged ⟨row, same.mem_iff.mp member, changed⟩)
  have listed : ∀ id, id ∈ read.map migrationId ↔
      id ∈ (manifest.migrations.take state.rows.length).map OpsMigration.id := by
    intro id
    rw [← sound.lists.1]
    exact (same.map _).mem_iff
  have absent : ∀ migration ∈ manifest.migrations.drop state.rows.length,
      migration.id ∉ read.map migrationId := by
    intro migration member
    rw [← filter_not_mem listed] at member
    exact of_decide_eq_true (List.mem_filter.mp member).2
  have complete : missingPredecessor (read.map migrationId) manifest.migrations = none := by
    rw [← List.take_append_drop state.rows.length manifest.migrations]
    refine missingPredecessor_prefix (fun migration member => ?_) absent
    rw [listed]
    exact List.mem_map_of_mem member
  unfold validateAppliedMigrations
  rw [rows]
  dsimp only
  rw [complete]

/-- A run that is about to read rows whose checksums have not changed applies what is left. -/
theorem reaches_complete (sound : state.IsSound manifest base)
    (free : ∀ id, state.inserting id = none) {rows : List AppliedMigration}
    (table : state.table = some rows) (unchanged : ¬HasChanged manifest rows)
    (phase : (state.run number).phase = .readRows) :
    ∃ last, Reaches manifest collation number state last ∧
      (last.run number).phase = .ended (some
        ((manifest.migrations.drop rows.length).map OpsMigration.id)) ∧
      manifest.migrations.length ≤ last.rows.length := by
  have listed : state.rows = rows := by
    unfold MigrationState.rows
    rw [table]
    rfl
  obtain ⟨read, order⟩ : ∃ read, rows.mergeSort (fun left right =>
      collation left.migrationId right.migrationId) = read := ⟨_, rfl⟩
  have same : read.Perm state.rows := by
    rw [← order, listed]
    exact List.mergeSort_perm _ _
  have valid := valid_of_unchanged sound same (by rw [listed]; exact unchanged)
  obtain ⟨ids, named⟩ : ∃ ids, read.map migrationId = ids := ⟨_, rfl⟩
  rw [named] at valid
  obtain ⟨filling, enters⟩ : ∃ filling, state.enter number
      (.backfillNext (read.filter fun row => row.checksum.isNone) ids) none = filling := ⟨_, rfl⟩
  have answer : state.advance manifest collation number .answers = filling := by
    unfold advance perform
    dsimp only
    rw [phase, table]
    dsimp only
    rw [order, valid]
    exact enters
  have filling_table : filling.table = some rows := by
    rw [← enters]
    exact table
  have filling_phase : (filling.run number).phase =
      .backfillNext (read.filter fun row => row.checksum.isNone) ids := by rw [← enters, run_enter]
  have filling_known : ∀ row ∈ read.filter fun row => row.checksum.isNone,
      ∃ migration ∈ manifest.migrations, migration.id = row.migrationId := fun row member =>
    known_row sound (same.mem_iff.mp (List.mem_filter.mp member).1)
  have filling_absent : ∀ row ∈ rows, row.checksum = none →
      ∃ other ∈ read.filter fun row => row.checksum.isNone, other.migrationId = row.migrationId := by
    intro row member missing
    refine ⟨row, List.mem_filter.mpr ⟨same.mem_iff.mpr (listed ▸ member), ?_⟩, rfl⟩
    rw [missing]
    rfl
  obtain ⟨filled, first, goes, locked, inserting, length, present, checksums⟩ :
      ∃ filled, Reaches manifest collation number filling filled ∧ _ :=
    reaches_backfilled filling_table filling_known filling_absent filling_phase
  have left : manifest.migrations.filter (fun migration => migration.id ∉ ids) =
      manifest.migrations.drop rows.length := by
    apply filter_not_mem
    intro id
    rw [← named, ← listed, ← sound.lists.1]
    exact (same.map _).mem_iff
  have passes : filled.advance manifest collation number .answers =
      filled.enter number (.applyNext (filled.run number).isLocked
        (manifest.migrations.drop rows.length) []) none := by
    have complete : ¬(filled.rows.any fun row => row.checksum.isNone) := by
      intro missing
      obtain ⟨row, member, absent⟩ := List.any_eq_true.mp missing
      exact checksums row member (Option.isNone_iff_eq_none.mp absent)
    obtain ⟨filled_rows, filled_table⟩ := Option.isSome_iff_exists.mp present
    unfold advance perform
    dsimp only
    rw [goes]
    dsimp only
    rw [if_neg complete, left, filled_table]
    rfl
  have begun_sound : (filled.enter number (.applyNext (filled.run number).isLocked
      (manifest.migrations.drop rows.length) []) none).IsSound manifest base :=
    passes ▸ (first.sound (answer ▸ sound.advance _ _)).advance number .answers
  have begun_free (id : String) : filled.inserting id = none := by
    rw [inserting, ← enters]
    exact free id
  obtain ⟨last, others, ended, whole⟩ :
      ∃ last, Reaches manifest collation number (filled.enter ..) last ∧ _ :=
    reaches_applied begun_sound begun_free present (by rw [rows_enter, length]) (by rw [run_enter])
  exact ⟨last, .next answer (first.trans (.next passes others)), ended, whole⟩

/-- A run that is about to read a changed checksum fails. -/
theorem reaches_failed {rows : List AppliedMigration} (table : state.table = some rows)
    (changed : HasChanged manifest rows) (phase : (state.run number).phase = .readRows) :
    ∃ last, Reaches manifest collation number state last ∧
      (last.run number).phase = .ended none := by
  obtain ⟨message, invalid⟩ := invalid_of_changed changed
    (List.mergeSort_perm rows fun left right => collation left.migrationId right.migrationId)
  have answer : state.advance manifest collation number .answers = state.throw number := by
    unfold advance
    dsimp only
    rw [phase, table]
    dsimp only
    rw [invalid]
  obtain ⟨last, reaches, ended, -⟩ :
      ∃ last, Reaches manifest collation number (state.throw number) last ∧ _ ∧ _ :=
    reaches_ended (by unfold throw; rw [run_enter])
  exact ⟨last, .next answer reaches, ended⟩

end MigrationState

end NancyMan.Storage
