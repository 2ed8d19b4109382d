import NancyMan.Lib.Machine
import NancyMan.Lib.Program

/-!
# Processes over a shared state

Any number of processes run programs over a shared state. Each call of a program is one step, the
steps of the processes come in any order, other actions come between them, and a process may be
dropped anywhere. A monitor says what a process knows from the answers to its own calls; where what
each process knows outlasts the steps of the others, the calls that it permits keep an invariant of
the shared state, and this holds throughout every run.
-/
namespace NancyMan

variable {E : Type} {R : E → Type} {S α D Request Outcome Other : Type}

/-- What runs: the program of a request, and what a start, a call, an end and another action do to
the shared state. An outcome is what the surroundings choose at a call. -/
structure Surroundings (E : Type) (R : E → Type) (α D Request Outcome Other : Type) where
  program : Request → Program E R α
  start : D → Nat → Request → D
  perform : D → Nat → (effect : E) → Outcome → D × R effect
  finish : D → Nat → α → D
  act : D → Other → D

/-- A process. -/
inductive Process (E : Type) (R : E → Type) (α : Type) where
  | idle
  | running (program : Program E R α)
  | ended

/-- The shared state and the processes under their numbers. -/
structure Processes (E : Type) (R : E → Type) (α D : Type) where
  shared : D
  process : Nat → Process E R α

/-- A step of the processes. -/
inductive ProcessStep (Request Outcome Other : Type) where
  | start (number : Nat) (request : Request)
  /-- A process calls, or ends. -/
  | advance (number : Nat) (outcome : Outcome)
  /-- A process is given up. -/
  | drop (number : Nat)
  | act (action : Other)

namespace Processes

def initial (shared : D) : Processes E R α D := ⟨shared, fun _ => .idle⟩

/-- A process goes on, with the shared state that it leaves. -/
def enter (processes : Processes E R α D) (number : Nat) (shared : D) (process : Process E R α) :
    Processes E R α D where
  shared := shared
  process := Function.update processes.process number process

/-- A step of the processes; a number is used once. -/
def step (surroundings : Surroundings E R α D Request Outcome Other)
    (processes : Processes E R α D) :
    ProcessStep Request Outcome Other → Processes E R α D × Unit
  | .start number request =>
    (match processes.process number with
      | .idle => processes.enter number (surroundings.start processes.shared number request)
          (.running (surroundings.program request))
      | _ => processes, ())
  | .advance number outcome =>
    (match processes.process number with
      | .running (.ret value) =>
        processes.enter number (surroundings.finish processes.shared number value) .ended
      | .running (.call effect next) =>
        let answered := surroundings.perform processes.shared number effect outcome
        processes.enter number answered.1 (.running (next answered.2))
      | _ => processes, ())
  | .drop number => (processes.enter number processes.shared .ended, ())
  | .act action => ({ processes with shared := surroundings.act processes.shared action }, ())

end Processes

def Outlasts (knows : D → Nat → S → Prop) (number : Nat) (before after : D) : Prop :=
  ∀ other state, other ≠ number → knows before other state → knows after other state

/-- The programs are guarded: each ensures what it ends with from what it knows at its start, its
permitted calls keep the invariant and what it knows, and no step takes from what others know. -/
structure Surroundings.IsGuarded (surroundings : Surroundings E R α D Request Outcome Other)
    (monitor : Monitor E R S) (inv : D → Prop) (knows : D → Nat → S → Prop)
    (post : α → S → Prop) : Prop where
  start : ∀ shared number request, inv shared →
    inv (surroundings.start shared number request) ∧
      (∃ state, (surroundings.program request).Ensures monitor post state ∧
        knows (surroundings.start shared number request) number state) ∧
      Outlasts knows number shared (surroundings.start shared number request)
  perform : ∀ shared number state effect outcome, inv shared → knows shared number state →
    monitor.permits state effect →
    inv (surroundings.perform shared number effect outcome).1 ∧
      knows (surroundings.perform shared number effect outcome).1 number
        (monitor.observe state effect (surroundings.perform shared number effect outcome).2) ∧
      Outlasts knows number shared (surroundings.perform shared number effect outcome).1
  finish : ∀ shared number state value, inv shared → knows shared number state →
    post value state →
    inv (surroundings.finish shared number value) ∧
      Outlasts knows number shared (surroundings.finish shared number value)
  act : ∀ shared action, inv shared →
    inv (surroundings.act shared action) ∧
      ∀ number state, knows shared number state → knows (surroundings.act shared action) number state

namespace Processes

variable {surroundings : Surroundings E R α D Request Outcome Other} {monitor : Monitor E R S}
  {inv : D → Prop} {knows : D → Nat → S → Prop} {post : α → S → Prop}
  {processes : Processes E R α D}

/-- The invariant holds, and each process will end well from what it knows. -/
structure IsSound (monitor : Monitor E R S) (inv : D → Prop) (knows : D → Nat → S → Prop)
    (post : α → S → Prop) (processes : Processes E R α D) : Prop where
  shared : inv processes.shared
  running : ∀ number program, processes.process number = .running program →
    ∃ state, program.Ensures monitor post state ∧ knows processes.shared number state

/-- A process goes on, or ends. -/
theorem IsSound.enter (sound : processes.IsSound monitor inv knows post) {number : Nat}
    {shared : D} {process : Process E R α} (kept : inv shared)
    (others : Outlasts knows number processes.shared shared)
    (own : ∀ program, process = .running program →
      ∃ state, program.Ensures monitor post state ∧ knows shared number state) :
    (processes.enter number shared process).IsSound monitor inv knows post := by
  refine ⟨kept, fun other program found => ?_⟩
  by_cases same : other = number
  · subst same
    have entered : (processes.enter other shared process).process other = process :=
      Function.update_self ..
    exact own program (entered.symm.trans found)
  · have stays : (processes.enter number shared process).process other =
      processes.process other := Function.update_of_ne same ..
    obtain ⟨state, ensured, known⟩ := sound.running other program (stays.symm.trans found)
    exact ⟨state, ensured, others other state same known⟩

/-- A step of guarded programs. -/
theorem IsSound.step (guarded : surroundings.IsGuarded monitor inv knows post)
    (sound : processes.IsSound monitor inv knows post)
    (action : ProcessStep Request Outcome Other) :
    (processes.step surroundings action).1.IsSound monitor inv knows post := by
  cases action with
  | start number request =>
    unfold Processes.step
    dsimp only
    split
    · obtain ⟨kept, own, others⟩ := guarded.start processes.shared number request sound.shared
      refine sound.enter kept others fun program started => ?_
      obtain rfl := Process.running.inj started
      exact own
    · exact sound
  | advance number outcome =>
    unfold Processes.step
    dsimp only
    split
    · next value found =>
      obtain ⟨state, ensured, known⟩ := sound.running number _ found
      obtain ⟨kept, others⟩ := guarded.finish processes.shared number state value sound.shared
        known ensured
      exact sound.enter kept others fun program ends => by cases ends
    · next effect next found =>
      obtain ⟨state, ensured, known⟩ := sound.running number _ found
      obtain ⟨kept, own, others⟩ := guarded.perform processes.shared number state effect outcome
        sound.shared known ensured.1
      refine sound.enter kept others fun program goes => ?_
      obtain rfl := Process.running.inj goes
      exact ⟨_, ensured.2 _, own⟩
    · exact sound
  | drop number =>
    refine sound.enter sound.shared (fun _ _ _ known => known) fun program ends => ?_
    cases ends
  | act action =>
    obtain ⟨kept, others⟩ := guarded.act processes.shared action sound.shared
    refine ⟨kept, fun number program found => ?_⟩
    obtain ⟨state, ensured, known⟩ := sound.running number program found
    exact ⟨state, ensured, others number state known⟩

/-- The invariant of guarded programs holds throughout every run. -/
theorem throughout (guarded : surroundings.IsGuarded monitor inv knows post) {shared : D}
    (first : inv shared) (steps : List (ProcessStep Request Outcome Other)) :
    Machine.Throughout (step surroundings) (fun processes => inv processes.shared)
      (initial shared) steps := by
  intro earlier later split
  have start : (initial shared : Processes E R α D).IsSound monitor inv knows post :=
    ⟨first, fun number program found => by cases found⟩
  exact (Machine.invariant_after (fun _ action sound => sound.step guarded action) start
    earlier).shared

end Processes

end NancyMan
