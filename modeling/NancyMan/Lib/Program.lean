import Mathlib.Data.List.Basic

/-!
# Programs that call their surroundings

A program returns a value or calls its surroundings and goes on with the answer, whatever it
is. A monitor watches the calls: it says which are permitted and folds the answered ones into a
state. `Program.Ensures` is the weakest precondition of a program under a monitor; its rules
follow the program's own structure, and `Program.ensures_returns` reads them as a fact about
every list of answers. `Async` adds what an asynchronous function of the source has: local
variables that survive an exception, and exceptions.
-/
namespace NancyMan

/-- A program over calls `E`, each answered by a value of `R`. -/
inductive Program (E : Type) (R : E → Type) (α : Type) where
  | ret (value : α)
  | call (effect : E) (next : R effect → Program E R α)

/-- What watches the calls of a program: the calls permitted in a state, and the state that an
answered call leaves. -/
structure Monitor (E : Type) (R : E → Type) (S : Type) where
  permits : S → E → Prop
  observe : S → (effect : E) → R effect → S

namespace Program

variable {E : Type} {R : E → Type} {S α β : Type}

/-- One program after another. -/
def bind : Program E R α → (α → Program E R β) → Program E R β
  | .ret value, rest => rest value
  | .call effect next, rest => .call effect fun answer => (next answer).bind rest

/-- A program returns a value after some answered calls. -/
inductive Returns : Program E R α → List ((effect : E) × R effect) → α → Prop
  | ret (value : α) : Returns (.ret value) [] value
  | call (effect : E) (next : R effect → Program E R α) (answer : R effect)
      {trace : List ((effect : E) × R effect)} {value : α}
      (rest : Returns (next answer) trace value) :
      Returns (.call effect next) (⟨effect, answer⟩ :: trace) value

/-- The calls of a program whose surroundings answer by the calls before, and its value. -/
def answered (answers : List ((effect : E) × R effect) → (effect : E) → R effect) :
    List ((effect : E) × R effect) → Program E R α → List ((effect : E) × R effect) × α
  | _, .ret value => ([], value)
  | before, .call effect next =>
    let answer := answers before effect
    let rest := answered answers (before ++ [⟨effect, answer⟩]) (next answer)
    (⟨effect, answer⟩ :: rest.1, rest.2)

theorem answered_returns (answers : List ((effect : E) × R effect) → (effect : E) → R effect)
    (before : List ((effect : E) × R effect)) (program : Program E R α) :
    Returns program (answered answers before program).1 (answered answers before program).2 := by
  induction program generalizing before with
  | ret value => exact Returns.ret value
  | call effect next ih => exact Returns.call effect next _ (ih _ _)

/-- What a program ensures from a state on: it makes only permitted calls, and whatever the
answers, its value and the last state satisfy a condition. -/
def Ensures (monitor : Monitor E R S) : Program E R α → (α → S → Prop) → S → Prop
  | .ret value, post, state => post value state
  | .call effect next, post, state =>
    monitor.permits state effect ∧
      ∀ answer, Ensures monitor (next answer) post (monitor.observe state effect answer)

variable {monitor : Monitor E R S} {program : Program E R α} {post : α → S → Prop} {state : S}

theorem Ensures.mono {post' : α → S → Prop}
    (weaker : ∀ value state, post value state → post' value state)
    (ensured : program.Ensures monitor post state) : program.Ensures monitor post' state := by
  induction program generalizing state with
  | ret value => exact weaker value state ensured
  | call effect next ih => exact ⟨ensured.1, fun answer => ih answer (ensured.2 answer)⟩

theorem ensures_bind {rest : α → Program E R β} {post : β → S → Prop} :
    (program.bind rest).Ensures monitor post state ↔
      program.Ensures monitor (fun value => (rest value).Ensures monitor post) state := by
  induction program generalizing state with
  | ret value => exact .rfl
  | call effect next ih => exact and_congr_right fun _ => forall_congr' fun answer => ih answer

/-- A program's value and the state of its answered calls satisfy what it ensures. -/
theorem ensures_returns (ensured : program.Ensures monitor post state)
    {trace : List ((effect : E) × R effect)} {value : α} (returns : Returns program trace value) :
    post value (trace.foldl (fun state call => monitor.observe state call.1 call.2) state) := by
  induction returns generalizing state with
  | ret value => exact ensured
  | call effect next answer _ ih => exact ih (ensured.2 answer)

end Program

def Async (E : Type) (R : E → Type) (L ε α : Type) :=
  L → Program E R (Except ε α × L)

open Program.Ensures

namespace Async

variable {E : Type} {R : E → Type} {L ε S α β : Type}

def perform (effect : E) : Async E R L ε (R effect) :=
  fun locals => .call effect fun answer => .ret (.ok answer, locals)

def throw (error : ε) : Async E R L ε α := fun locals => .ret (.error error, locals)

instance : Monad (Async E R L ε) where
  pure value := fun locals => .ret (.ok value, locals)
  bind action rest := fun locals =>
    (action locals).bind fun outcome =>
      match outcome.1 with
      | .ok value => rest value outcome.2
      | .error error => .ret (.error error, outcome.2)

def locals : Async E R L ε L := fun locals => .ret (.ok locals, locals)

def assign (change : L → L) : Async E R L ε Unit := fun locals => .ret (.ok (), change locals)

/-- Go on with a result, or throw the exception that it is. -/
def attempt (action : Async E R L ε (Except ε α)) : Async E R L ε α := do
  match ← action with
  | .ok value => pure value
  | .error error => throw error

def require (condition : Bool) (error : ε) : Async E R L ε Unit :=
  if condition then pure () else throw error

/-- `try … catch`. -/
def tryCatch (action : Async E R L ε α) (handler : ε → Async E R L ε α) : Async E R L ε α :=
  fun locals => (action locals).bind fun outcome =>
    match outcome.1 with
    | .ok value => .ret (.ok value, outcome.2)
    | .error error => handler error outcome.2

/-- `try … finally` with a block that does not throw. -/
def tryFinally (action : Async E R L ε α) (last : Async E R L ε Unit) : Async E R L ε α :=
  fun locals => (action locals).bind fun outcome =>
    (last outcome.2).bind fun ended =>
      match ended.1 with
      | .ok () => .ret (outcome.1, ended.2)
      | .error error => .ret (.error error, ended.2)

/-- What an asynchronous function ensures of its value, and of its exceptions. -/
def Ensures (monitor : Monitor E R S) (action : Async E R L ε α) (post : α → L → S → Prop)
    (fails : ε → L → S → Prop) (locals : L) (state : S) : Prop :=
  (action locals).Ensures monitor (fun outcome state =>
    match outcome.1 with
    | .ok value => post value outcome.2 state
    | .error error => fails error outcome.2 state) state

variable {monitor : Monitor E R S} {post : α → L → S → Prop} {fails : ε → L → S → Prop}
  {vars : L} {state : S}

theorem ensures_pure {value : α} (holds : post value vars state) :
    Ensures monitor (pure value) post fails vars state := holds

variable {error : ε} {action : Async E R L ε α}

theorem ensures_throw (holds : fails error vars state) :
    Ensures monitor (throw error : Async E R L ε α) post fails vars state := holds

theorem ensures_locals {post : L → L → S → Prop} (holds : post vars vars state) :
    Ensures monitor locals post fails vars state := holds

theorem ensures_assign {change : L → L} {post : Unit → L → S → Prop}
    (holds : post () (change vars) state) :
    Ensures monitor (assign change) post fails vars state := holds

theorem ensures_perform {effect : E} {post : R effect → L → S → Prop}
    (permitted : monitor.permits state effect)
    (holds : ∀ answer, post answer vars (monitor.observe state effect answer)) :
    Ensures monitor (perform effect) post fails vars state := ⟨permitted, holds⟩

/-- An asynchronous function ensures what follows from what it ensures. -/
theorem Ensures.mono {post' : α → L → S → Prop} {fails' : ε → L → S → Prop}
    (ensured : Ensures monitor action post fails vars state)
    (value : ∀ value locals state, post value locals state → post' value locals state)
    (error : ∀ error locals state, fails error locals state → fails' error locals state) :
    Ensures monitor action post' fails' vars state := by
  refine Program.Ensures.mono ?_ ensured
  rintro ⟨result | result, locals⟩ state holds
  · exact error result locals state holds
  · exact value result locals state holds

/-- One function after another. -/
theorem ensures_bind {rest : α → Async E R L ε β} {post : β → L → S → Prop}
    (ensured : Ensures monitor action (fun value => Ensures monitor (rest value) post fails)
      fails vars state) : Ensures monitor (action >>= rest) post fails vars state := by
  refine Program.ensures_bind.mpr (mono ?_ ensured)
  rintro ⟨result | result, locals⟩ state holds
  · exact holds
  · exact holds

/-- A result is gone on with, or thrown. -/
theorem ensures_attempt {action : Async E R L ε (Except ε α)}
    (ensured : Ensures monitor action (fun result locals state =>
      match result with
      | .ok value => post value locals state
      | .error error => fails error locals state) fails vars state) :
    Ensures monitor (attempt action) post fails vars state := by
  refine ensures_bind (ensured.mono ?_ fun _ _ _ holds => holds)
  rintro (result | result) locals state holds
  · exact holds
  · exact holds

theorem ensures_require {condition : Bool} {post : Unit → L → S → Prop}
    (holds : condition → post () vars state)
    (missing : condition = false → fails error vars state) :
    Ensures monitor (require condition error) post fails vars state := by
  cases condition with
  | true => exact holds rfl
  | false => exact missing rfl

/-- A handler starts from what the exceptions leave. -/
theorem ensures_tryCatch {handler : ε → Async E R L ε α} (ensured : Ensures monitor action post
      (fun error => Ensures monitor (handler error) post fails) vars state) :
    Ensures monitor (tryCatch action handler) post fails vars state := by
  refine Program.ensures_bind.mpr (mono ?_ ensured)
  rintro ⟨result | result, locals⟩ state holds
  · exact holds
  · exact holds

/-- A last block that does not throw ends what the function has left. -/
theorem ensures_tryFinally {last : Async E R L ε Unit} {never : ε → L → S → Prop}
    (unreachable : ∀ error locals state, ¬ never error locals state)
    (ensured : Ensures monitor action
      (fun value => Ensures monitor last (fun _ => post value) never)
      (fun error => Ensures monitor last (fun _ => fails error) never) vars state) :
    Ensures monitor (tryFinally action last) post fails vars state := by
  refine Program.ensures_bind.mpr (mono ?_ ensured)
  rintro ⟨result | result, locals⟩ state holds
  · refine Program.ensures_bind.mpr (mono ?_ holds)
    rintro ⟨stopped | ended, after⟩ state holds
    · exact absurd holds (unreachable stopped after state)
    · exact holds
  · refine Program.ensures_bind.mpr (mono ?_ holds)
    rintro ⟨stopped | ended, after⟩ state holds
    · exact absurd holds (unreachable stopped after state)
    · exact holds

/-- A loop keeps an invariant of the items that are left. -/
theorem ensures_forM {items : List β} {body : β → Async E R L ε Unit}
    (invariant : List β → L → S → Prop)
    (each : ∀ item rest locals state, invariant (item :: rest) locals state →
      Ensures monitor (body item) (fun _ => invariant rest) fails locals state)
    (holds : invariant items vars state) :
    Ensures monitor (items.forM body) (fun _ => invariant []) fails vars state := by
  induction items generalizing vars state with
  | nil => exact holds
  | cons item rest ih =>
    show Ensures monitor (body item >>= fun _ => rest.forM body) _ _ _ _
    exact ensures_bind ((each item rest vars state holds).mono
      (fun _ _ _ kept => ih kept) fun _ _ _ holds => holds)

/-- A call that an invariant permits and that keeps it, however it is answered. -/
def Passes (monitor : Monitor E R S) (inv : L → S → Prop) (effect : E) : Prop :=
  ∀ locals state, inv locals state → monitor.permits state effect ∧
    ∀ answer, inv locals (monitor.observe state effect answer)

/-- A function keeps an invariant of the local variables and the state, however it ends. -/
def Preserves (monitor : Monitor E R S) (inv : L → S → Prop) (action : Async E R L ε α) : Prop :=
  ∀ locals state, inv locals state →
    Ensures monitor action (fun _ => inv) (fun _ => inv) locals state

section Preservation

variable {inv : L → S → Prop} {action : Async E R L ε α}

theorem preserves_pure (value : α) : Preserves monitor inv (pure value : Async E R L ε α) :=
  fun _ _ holds => ensures_pure holds

theorem preserves_throw (error : ε) : Preserves monitor inv (throw error : Async E R L ε α) :=
  fun _ _ holds => ensures_throw holds

theorem preserves_locals : Preserves monitor inv (locals : Async E R L ε L) :=
  fun _ _ holds => ensures_locals holds

theorem preserves_assign {change : L → L}
    (kept : ∀ locals state, inv locals state → inv (change locals) state) :
    Preserves monitor inv (assign change : Async E R L ε Unit) :=
  fun locals state holds => ensures_assign (kept locals state holds)

theorem Passes.perform {effect : E} (passes : Passes monitor inv effect) :
    Preserves monitor inv (perform effect : Async E R L ε (R effect)) :=
  fun locals state holds =>
    ensures_perform (passes locals state holds).1 (passes locals state holds).2

theorem Preserves.bind {rest : α → Async E R L ε β} (first : Preserves monitor inv action)
    (second : ∀ value, Preserves monitor inv (rest value)) :
    Preserves monitor inv (action >>= rest) := by
  intro locals state holds
  refine ensures_bind ((first locals state holds).mono ?_ fun _ _ _ kept => kept)
  exact fun value => second value

theorem Preserves.attempt {action : Async E R L ε (Except ε α)}
    (preserves : Preserves monitor inv action) : Preserves monitor inv (attempt action) := by
  refine preserves.bind fun result => ?_
  cases result with
  | ok value => exact preserves_pure value
  | error error => exact preserves_throw error

theorem preserves_require (condition : Bool) (error : ε) :
    Preserves monitor inv (require condition error : Async E R L ε Unit) := by
  cases condition with
  | true => exact preserves_pure ()
  | false => exact preserves_throw error

theorem Preserves.tryCatch {handler : ε → Async E R L ε α} (first : Preserves monitor inv action)
    (second : ∀ error, Preserves monitor inv (handler error)) :
    Preserves monitor inv (tryCatch action handler) := by
  intro locals state holds
  refine ensures_tryCatch ((first locals state holds).mono (fun _ _ _ kept => kept) ?_)
  exact fun error => second error

theorem preserves_forM {items : List β} {body : β → Async E R L ε Unit}
    (each : ∀ item, Preserves monitor inv (body item)) :
    Preserves monitor inv (items.forM body) := by
  induction items with
  | nil => exact preserves_pure ()
  | cons item rest ih => exact (each item).bind fun _ => ih

end Preservation

end Async

end NancyMan
