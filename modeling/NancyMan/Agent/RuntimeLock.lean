import NancyMan.Lib.Machine

/-!
# The runtime lock

A process takes the lock of a key by creating its directory and then an owner file with its
identifier. A process that finds the directory reads the owner file, asks whether that process is
alive, and removes the directory when there is no live owner. Between these steps another process may
act, and any process may die. `excludes_iff` says when at most one live process is in the critical
section: the lock that a process removes as stale must not have got a live owner meanwhile.
-/
namespace NancyMan.Agent

/-- What a process does next about the lock. A process has one contender for a key at a time: the
others wait for its promise. -/
inductive LockPhase where
  | idle
  | contending
  | made
  | reading
  | probing (owner : Option Nat)
  | removing
  | holding
  | dead
deriving DecidableEq, Repr

/-- The lock directory, when there is one with the owner file, when there is one with the process it
names; and what each process does next. -/
structure RuntimeLock where
  directory : Option (Option Nat) := none
  phase : Nat → LockPhase := fun _ => .idle

/-- What happens next: a process does its next step, or it dies. -/
inductive LockAction where
  | advance (pid : Nat)
  | die (pid : Nat)
deriving DecidableEq, Repr

namespace RuntimeLock

/-- `process.kill(pid, 0)`, which is asked about positive identifiers only. -/
def alive (lock : RuntimeLock) (pid : Nat) : Bool := 0 < pid && lock.phase pid ≠ .dead

/-- The next step of a process: what it leaves of the directory, and what it does then. -/
def perform (lock : RuntimeLock) (pid : Nat) : Option (Option Nat) × LockPhase :=
  match lock.phase pid with
  | .idle => (lock.directory, .contending)
  | .contending =>
    -- `mkdirSync` makes the directory or fails with `EEXIST`
    match lock.directory with
    | none => (some none, .made)
    | some owner => (some owner, .reading)
  | .made =>
    -- the owner file is written with the flag `wx`: `ENOENT` without the directory, and `EEXIST`
    -- where there is one, which the outer handler takes for the one of `mkdirSync`
    match lock.directory with
    | none => (none, .contending)
    | some none => (some (some pid), .holding)
    | some (some owner) => (some (some owner), .reading)
  | .reading => (lock.directory, .probing (lock.directory.getD none))
  | .probing none => (lock.directory, .removing)
  | .probing (some owner) =>
    (lock.directory, if lock.alive owner then .contending else .removing)
  | .removing => (none, .contending)
  | .holding => (none, .idle)
  | .dead => (lock.directory, .dead)

/-- The directory as a process leaves it, with what the process does next. -/
def moved (lock : RuntimeLock) (directory : Option (Option Nat)) (pid : Nat) (next : LockPhase) :
    RuntimeLock :=
  { directory, phase := Function.update lock.phase pid next }

/-- One step. -/
def step (lock : RuntimeLock) : LockAction → RuntimeLock × Unit
  | .advance pid => (lock.moved (lock.perform pid).1 pid (lock.perform pid).2, ())
  | .die pid => (lock.moved lock.directory pid .dead, ())

variable (lock : RuntimeLock)

include lock

@[simp] theorem moved_directory (directory : Option (Option Nat)) (pid : Nat)
    (next : LockPhase) : (lock.moved directory pid next).directory = directory := rfl

@[simp] theorem moved_phase_self (directory : Option (Option Nat)) (pid : Nat)
    (next : LockPhase) : (lock.moved directory pid next).phase pid = next := by
  exact Function.update_self _ _ _

theorem moved_phase_other (directory : Option (Option Nat)) {pid other : Nat}
    (next : LockPhase) (apart : other ≠ pid) :
    (lock.moved directory pid next).phase other = lock.phase other := by
  exact Function.update_of_ne apart _ _

@[simp] theorem moved_moved (first second : Option (Option Nat)) (pid : Nat)
    (next last : LockPhase) :
    (lock.moved first pid next).moved second pid last = lock.moved second pid last := by
  unfold moved
  rw [Function.update_idem]

def Exclusive (lock : RuntimeLock) : Prop :=
  ∀ first second, lock.phase first = .holding → lock.phase second = .holding → first = second

/-- A directory that is removed as stale has no owner file of a live process. -/
def Guarded (lock : RuntimeLock) (action : LockAction) : Prop :=
  ∀ pid owner, action = .advance pid → lock.phase pid = .removing →
    lock.directory = some (some owner) → lock.phase owner = .dead

/-- At most one live process is in the critical section after a step, and in every state that guarded
steps reach from there. -/
def Excludes (lock : RuntimeLock) (action : LockAction) : Prop :=
  ∀ later, Machine.Along step Guarded (lock.step action).1 later →
    (Machine.after step (lock.step action).1 later).Exclusive

/-! ## Each step -/

/-- A process in the critical section is named by the owner file, and the process it names is in the
critical section or dead. -/
structure Owned (lock : RuntimeLock) : Prop where
  named : ∀ pid, lock.phase pid = .holding → lock.directory = some (some pid)
  holds : ∀ pid, lock.directory = some (some pid) →
    lock.phase pid = .holding ∨ lock.phase pid = .dead

/-- What the next step of a process can do: nothing about the owner, with a directory made or not;
write the owner file; or remove the directory, as stale or as its own. -/
theorem perform_cases (pid : Nat) :
    (lock.phase pid ≠ .holding ∧ (lock.perform pid).2 ≠ .holding ∧
        (lock.phase pid = .dead → (lock.perform pid).2 = .dead) ∧
        ((lock.perform pid).1 = lock.directory ∨
          (lock.directory = none ∧ (lock.perform pid).1 = some none))) ∨
      (lock.directory = some none ∧ lock.perform pid = (some (some pid), .holding)) ∨
      (lock.phase pid = .removing ∧ lock.perform pid = (none, .contending)) ∨
      (lock.phase pid = .holding ∧ lock.perform pid = (none, .idle)) := by
  unfold perform
  cases phase : lock.phase pid with
  | idle => exact .inl ⟨nofun, nofun, nofun, .inl rfl⟩
  | contending =>
    cases directory : lock.directory with
    | none => exact .inl ⟨nofun, nofun, nofun, .inr ⟨rfl, rfl⟩⟩
    | some owner => exact .inl ⟨nofun, nofun, nofun, .inl rfl⟩
  | made =>
    cases directory : lock.directory with
    | none => exact .inl ⟨nofun, nofun, nofun, .inl rfl⟩
    | some owner =>
      cases owner with
      | none => exact .inr (.inl ⟨rfl, rfl⟩)
      | some other => exact .inl ⟨nofun, nofun, nofun, .inl rfl⟩
  | reading => exact .inl ⟨nofun, nofun, nofun, .inl rfl⟩
  | probing owner =>
    cases owner with
    | none => exact .inl ⟨nofun, nofun, nofun, .inl rfl⟩
    | some other =>
      dsimp only
      split_ifs
      · exact .inl ⟨nofun, nofun, nofun, .inl rfl⟩
      · exact .inl ⟨nofun, nofun, nofun, .inl rfl⟩
  | removing => exact .inr (.inr (.inl ⟨rfl, rfl⟩))
  | holding => exact .inr (.inr (.inr ⟨rfl, rfl⟩))
  | dead => exact .inl ⟨nofun, nofun, fun _ => rfl, .inl rfl⟩

omit lock

variable {lock : RuntimeLock} (owned : lock.Owned)

include owned

theorem Owned.exclusive : lock.Exclusive := by
  intro first second left right
  have same := (owned.named first left).symm.trans (owned.named second right)
  exact Option.some.inj (Option.some.inj same)

theorem Owned.nobody
    (stale : ∀ owner, lock.directory = some (some owner) → lock.phase owner = .dead) (pid : Nat) :
    lock.phase pid ≠ .holding := by
  intro holding
  have dead := stale pid (owned.named pid holding)
  rw [holding] at dead
  cases dead

omit owned in
/-- The owner file and the processes in the critical section are together after a process has
moved, when they are for this process and for the others. -/
theorem owned_moved {directory : Option (Option Nat)} {pid : Nat} {next : LockPhase}
    (own : next = .holding → directory = some (some pid))
    (kept : directory = some (some pid) → next = .holding ∨ next = .dead)
    (others : ∀ other, other ≠ pid → lock.phase other = .holding → directory = some (some other))
    (left : ∀ other, other ≠ pid → directory = some (some other) →
      lock.phase other = .holding ∨ lock.phase other = .dead) :
    (lock.moved directory pid next).Owned := by
  refine ⟨fun other holding => ?_, fun other named => ?_⟩
  · by_cases same : other = pid
    · subst same
      rw [moved_phase_self] at holding
      exact own holding
    · rw [moved_phase_other _ _ _ same] at holding
      exact others other same holding
  · by_cases same : other = pid
    · subst same
      rw [moved_phase_self]
      exact kept named
    · rw [moved_phase_other _ _ _ same]
      exact left other same named

/-- A guarded step keeps the owner file and the processes in the critical section together. -/
theorem Owned.step {action : LockAction} (guarded : lock.Guarded action) :
    (lock.step action).1.Owned := by
  cases action with
  | die pid =>
    exact owned_moved nofun (fun _ => .inr rfl) (fun other _ => owned.named other)
      fun other _ => owned.holds other
  | advance pid =>
    show (lock.moved (lock.perform pid).1 pid (lock.perform pid).2).Owned
    rcases lock.perform_cases pid with ⟨idle, free, dead, same | ⟨absent, made⟩⟩ |
      ⟨unnamed, written⟩ | ⟨removing, removed⟩ | ⟨holding, released⟩
    · rw [same]
      refine owned_moved (fun holding => absurd holding free) (fun named => ?_)
        (fun other _ => owned.named other) fun other _ => owned.holds other
      exact .inr (dead ((owned.holds pid named).resolve_left idle))
    · rw [made]
      refine owned_moved (fun holding => absurd holding free) nofun (fun other _ holding => ?_) nofun
      have named := owned.named other holding
      rw [absent] at named
      cases named
    · have nobody := owned.nobody fun owner named => by
        rw [unnamed] at named
        cases named
      rw [written]
      refine owned_moved (fun _ => rfl) (fun _ => .inl rfl)
        (fun other _ holding => absurd holding (nobody other)) fun other apart named => ?_
      exact absurd (Option.some.inj (Option.some.inj named)).symm apart
    · have nobody := owned.nobody fun owner => guarded pid owner rfl removing
      rw [removed]
      exact owned_moved nofun nofun (fun other _ holding => absurd holding (nobody other)) nofun
    · rw [released]
      refine owned_moved nofun nofun (fun other apart other_holds => ?_) nofun
      exact absurd (owned.exclusive other pid other_holds holding) apart

theorem Owned.after {actions : List LockAction}
    (guarded : Machine.Along RuntimeLock.step Guarded lock actions) :
    (Machine.after RuntimeLock.step lock actions).Owned := by
  induction actions generalizing lock with
  | nil => exact owned
  | cons action rest ih => exact ih (owned.step guarded.1) guarded.2

/-- After the lock of a live process is removed, the process that has removed it can enter too. -/
theorem enters_after_removal {pid owner : Nat}
    (removing : lock.phase pid = .removing) (named : lock.directory = some (some owner))
    (live : lock.phase owner ≠ .dead) : ¬ lock.Excludes (.advance pid) := by
  have holding := (owned.holds owner named).resolve_right live
  have apart : owner ≠ pid := by
    rintro rfl
    rw [removing] at holding
    cases holding
  have freed : (lock.step (.advance pid)).1 = lock.moved none pid .contending := by
    rw [step, perform, removing]
  have made : ((lock.moved none pid .contending).step (.advance pid)).1 =
      lock.moved (some none) pid .made := by
    rw [step, perform, moved_phase_self, moved_directory]
    exact moved_moved _ _ _ _ _ _
  have entered : ((lock.moved (some none) pid .made).step (.advance pid)).1 =
      lock.moved (some (some pid)) pid .holding := by
    rw [step, perform, moved_phase_self, moved_directory]
    exact moved_moved _ _ _ _ _ _
  intro excludes
  have guarded : Machine.Along step Guarded (lock.step (.advance pid)).1
      [.advance pid, .advance pid] := by
    rw [freed]
    refine ⟨?_, ?_, trivial⟩
    · rintro _ other ⟨⟩ contending
      rw [moved_phase_self] at contending
      cases contending
    · rintro _ other ⟨⟩ contending
      rw [made, moved_phase_self] at contending
      cases contending
  have exclusive := excludes [.advance pid, .advance pid] guarded
  rw [Machine.after, Machine.after, Machine.after, freed, made, entered] at exclusive
  refine apart (exclusive owner pid ?_ ?_)
  · rw [moved_phase_other _ _ _ apart]
    exact holding
  · exact moved_phase_self _ _ _ _

/-! ## Runs -/

/-- A step of a lock whose owner file is right excludes exactly when it is guarded. -/
theorem Owned.guarded_iff (action : LockAction) : lock.Excludes action ↔ lock.Guarded action := by
  constructor
  · intro excludes pid owner same removing named
    subst same
    by_contra live
    exact enters_after_removal owned removing named live excludes
  · intro guarded later along
    exact ((owned.step guarded).after along).exclusive

omit owned

/-- In every run of any processes, which may die at any step, at most one live process is in the
critical section after each step and as long as the steps after it are guarded, exactly when each step
of the run is guarded: what a process removes as stale has no owner file of a live process. -/
theorem excludes_iff (actions : List LockAction) :
    Machine.Along step Excludes {} actions ↔ Machine.Along step Guarded {} actions := by
  have kept (lock : RuntimeLock) (action : LockAction) (owned : lock.Owned)
      (guarded : lock.Guarded action) : (lock.step action).1.Owned := owned.step guarded
  have agree (lock : RuntimeLock) (action : LockAction) (owned : lock.Owned) :
      lock.Excludes action ↔ lock.Guarded action := owned.guarded_iff action
  have first : Owned {} := ⟨nofun, nofun⟩
  exact Machine.along_congr_of_kept kept agree first actions

/-- A waiter judges the lock stale before the owner file is written and removes it afterwards: two
live processes are in the critical section. -/
theorem two_enter : ¬ ∀ actions, (Machine.after step {} actions).Exclusive := by
  intro all
  have exclusive := all [.advance 1, .advance 1, .advance 2, .advance 2, .advance 2, .advance 1,
    .advance 2, .advance 2, .advance 2, .advance 2]
  exact absurd (exclusive 1 2 (by decide) (by decide)) (by decide)

end RuntimeLock

end NancyMan.Agent
