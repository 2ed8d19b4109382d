import Mathlib.Data.List.Basic

/-!
# Runs of a deterministic machine

A machine takes one input at a time and answers each with an output. `Machine.after` is the
state a list of inputs leaves and `Machine.trace` the inputs with their outputs on the way.
`Machine.Along` says that a property of a state and its next input holds at every step of a run,
`Machine.Throughout` that a property holds in all of its states, and `Machine.Stays` that what
holds once holds until it is ended; the rules here turn facts about one step into facts about a
whole run.
-/
namespace Machine

variable {State Input Output : Type*}

/-- The state a run of inputs leaves. -/
def after (step : State → Input → State × Output) (start : State) : List Input → State
  | [] => start
  | input :: rest => after step (step start input).1 rest

/-- The inputs of a run with their outputs, in order. -/
def trace (step : State → Input → State × Output) (start : State) :
    List Input → List (Input × Output)
  | [] => []
  | input :: rest => (input, (step start input).2) :: trace step (step start input).1 rest

/-- A property of the state before a step and its input holds at every step of a run. -/
def Along (step : State → Input → State × Output) (holds : State → Input → Prop)
    (start : State) : List Input → Prop
  | [] => True
  | input :: rest => holds start input ∧ Along step holds (step start input).1 rest

variable {step : State → Input → State × Output}

theorem after_append (start : State) (left right : List Input) :
    after step start (left ++ right) = after step (after step start left) right := by
  induction left generalizing start with
  | nil => rfl
  | cons input rest ih => exact ih _

theorem trace_append (start : State) (left right : List Input) :
    trace step start (left ++ right) =
      trace step start left ++ trace step (after step start left) right := by
  induction left generalizing start with
  | nil => rfl
  | cons input rest ih => simp only [List.cons_append, trace, after, ih]

variable {holds : State → Input → Prop} {Inv : State → Prop} {start : State}
  {left right : State → Input → Prop} {inputs : List Input} {keeps : State → Input → Prop}
  {weigh : State → Input → Nat} {spent held ended : State → Prop}

theorem along_append (start : State) (left right : List Input) :
    Along step holds start (left ++ right) ↔
      Along step holds start left ∧ Along step holds (after step start left) right := by
  induction left generalizing start with
  | nil => simp [Along, after]
  | cons input rest ih => simp only [List.cons_append, Along, after, ih, and_assoc]

/-- A property holds along a run exactly when it holds wherever the run is cut before an input. -/
theorem along_iff (start : State) (inputs : List Input) :
    Along step holds start inputs ↔
      ∀ before input later, inputs = before ++ input :: later →
        holds (after step start before) input := by
  induction inputs generalizing start with
  | nil => simp [Along]
  | cons head rest ih =>
    simp only [Along, ih]
    constructor
    · rintro ⟨first, others⟩ before input later split
      cases before with
      | nil =>
        obtain ⟨rfl, rfl⟩ := List.cons.inj split
        exact first
      | cons lead middle =>
        obtain ⟨rfl, tail⟩ := List.cons.inj split
        exact others middle input later tail
    · intro every
      refine ⟨every [] head rest rfl, fun before input later split => ?_⟩
      exact every (head :: before) input later (by rw [split]; rfl)

theorem invariant_after (kept : ∀ state input, Inv state → Inv (step state input).1)
    (first : Inv start) (inputs : List Input) : Inv (after step start inputs) := by
  induction inputs generalizing start with
  | nil => exact first
  | cons input rest ih => exact ih (kept start input first)

/-- Two properties of a step that agree on the states of an invariant, which the steps with these
properties keep, agree along every run. -/
theorem along_congr_of_kept
    (kept : ∀ state input, Inv state → right state input → Inv (step state input).1)
    (agree : ∀ state input, Inv state → (left state input ↔ right state input)) (first : Inv start)
    (inputs : List Input) : Along step left start inputs ↔ Along step right start inputs := by
  induction inputs generalizing start with
  | nil => exact .rfl
  | cons input rest ih =>
    exact (and_congr_left' (agree start input first)).trans
      (and_congr_right fun holds => ih (kept start input first holds))

theorem along_congr (kept : ∀ state input, Inv state → Inv (step state input).1)
    (agree : ∀ state input, Inv state → (left state input ↔ right state input)) (first : Inv start)
    (inputs : List Input) : Along step left start inputs ↔ Along step right start inputs :=
  along_congr_of_kept (fun state input holds _ => kept state input holds) agree first inputs

theorem Along.imp (weaker : ∀ state input, left state input → right state input)
    (along : Along step left start inputs) : Along step right start inputs := by
  induction inputs generalizing start with
  | nil => trivial
  | cons input rest ih => exact ⟨weaker start input along.1, ih along.2⟩

/-- Whether a property that can be decided holds along a run can be decided. -/
instance decidableAlong {holds : State → Input → Prop}
    [each : ∀ state input, Decidable (holds state input)] :
    ∀ (start : State) (inputs : List Input), Decidable (Along step holds start inputs)
  | _, [] => .isTrue trivial
  | start, input :: rest =>
    match each start input, decidableAlong (step start input).1 rest with
    | .isTrue now, .isTrue later => .isTrue ⟨now, later⟩
    | .isFalse now, _ => .isFalse fun along => now along.1
    | _, .isFalse later => .isFalse fun along => later along.2

theorem along_of_invariant (kept : ∀ state input, Inv state → Inv (step state input).1)
    (each : ∀ state input, Inv state → holds state input) (first : Inv start)
    (inputs : List Input) : Along step holds start inputs := by
  induction inputs generalizing start with
  | nil => trivial
  | cons input rest ih => exact ⟨each start input first, ih (kept start input first)⟩

/-- A property that follows from an invariant holds along every run whose steps keep the
invariant. -/
theorem along_of_kept
    (kept : ∀ state input, Inv state → keeps state input → Inv (step state input).1)
    (each : ∀ state input, Inv state → holds state input) (first : Inv start)
    (along : Along step keeps start inputs) : Along step holds start inputs := by
  induction inputs generalizing start with
  | nil => trivial
  | cons input rest ih => exact ⟨each start input first, ih (kept start input first along.1) along.2⟩

/-! ## Runs that answer lists -/

section Lists

variable {α : Type*} {lists : State → Input → State × List α}

/-- What the steps of a run answer, in order, when each answers a list. -/
def outputs (lists : State → Input → State × List α) (start : State) (inputs : List Input) :
    List α :=
  (trace lists start inputs).flatMap Prod.snd

theorem outputs_cons (start : State) (input : Input) (rest : List Input) :
    outputs lists start (input :: rest) =
      (lists start input).2 ++ outputs lists (lists start input).1 rest := rfl

/-- A relation holds between any two answers of a run, the earlier one first, exactly when each step
relates the answers before it to its own. -/
theorem pairwise_outputs_iff {log : State → List α} {related : α → α → Prop}
    (logs : ∀ state input, log (lists state input).1 = log state ++ (lists state input).2)
    (kept : ∀ state input, Inv state → Inv (lists state input).1)
    (own : ∀ state input, (lists state input).2.Pairwise related) (each : ∀ state input, Inv state →
      ((∀ earlier ∈ log state, ∀ later ∈ (lists state input).2, related earlier later) ↔
        holds state input)) {start : State} (first : Inv start)
    (ordered : (log start).Pairwise related) (inputs : List Input) :
    (log start ++ outputs lists start inputs).Pairwise related ↔ Along lists holds start inputs := by
  induction inputs generalizing start with
  | nil =>
    refine iff_of_true ?_ trivial
    rw [show outputs lists start [] = [] from rfl, List.append_nil]
    exact ordered
  | cons input rest ih =>
    have next : (log (lists start input).1).Pairwise related ↔ holds start input := by
      rw [logs, List.pairwise_append, and_iff_right ordered, and_iff_right (own start input)]
      exact each start input first
    rw [outputs_cons, ← List.append_assoc, ← logs]
    constructor
    · intro all
      have log : (log (lists start input).1).Pairwise related := (List.pairwise_append.mp all).1
      exact ⟨next.mp log, (ih (kept start input first) log).mp all⟩
    · rintro ⟨holds, others⟩
      exact (ih (kept start input first) (next.mpr holds)).mpr others

end Lists

/-! ## What the steps of a run add up to -/

/-- The sum of a measure of the steps of a run. -/
def total (step : State → Input → State × Output) (weigh : State → Input → Nat) (start : State) :
    List Input → Nat
  | [] => 0
  | input :: rest => weigh start input + total step weigh (step start input).1 rest

/-- Where a step that weighs something spends it, and nothing weighs after that, nothing is left of
a run that starts spent. -/
theorem total_eq_zero (quiet : ∀ state input, holds state input → spent state →
      weigh state input = 0 ∧ spent (step state input).1) (first : spent start)
    (inputs : List Input) (along : Along step holds start inputs) :
    total step weigh start inputs = 0 := by
  induction inputs generalizing start with
  | nil => rfl
  | cons input rest ih =>
    obtain ⟨weightless, stays⟩ := quiet start input along.1 first
    have later : total step weigh (step start input).1 rest = 0 := ih stays along.2
    show weigh start input + total step weigh (step start input).1 rest = 0
    omega

/-- Where a step that weighs something weighs one and spends it, and nothing weighs after that, a
run weighs at most one. -/
theorem total_le_one (quiet : ∀ state input, holds state input → spent state →
      weigh state input = 0 ∧ spent (step state input).1)
    (single : ∀ state input, holds state input → weigh state input ≤ 1 ∧
      (weigh state input ≠ 0 → spent (step state input).1)) (start : State) (inputs : List Input)
    (along : Along step holds start inputs) : total step weigh start inputs ≤ 1 := by
  induction inputs generalizing start with
  | nil => exact Nat.zero_le 1
  | cons input rest ih =>
    obtain ⟨bounded, spends⟩ := single start input along.1
    show weigh start input + total step weigh (step start input).1 rest ≤ 1
    by_cases weightless : weigh start input = 0
    · have later := ih (step start input).1 along.2
      omega
    · have later := total_eq_zero quiet (spends weightless) rest along.2
      omega

/-! ## What holds in every state -/

/-- A property holds in every state of a run, from its start to what it leaves. -/
def Throughout (step : State → Input → State × Output) (holds : State → Prop) (start : State)
    (inputs : List Input) : Prop :=
  ∀ earlier later, inputs = earlier ++ later → holds (after step start earlier)

/-- A property holds throughout a run exactly when it holds at the start and throughout the rest. -/
theorem throughout_cons {holds : State → Prop} (start : State) (input : Input) (rest : List Input) :
    Throughout step holds start (input :: rest) ↔
      holds start ∧ Throughout step holds (step start input).1 rest := by
  constructor
  · intro every
    refine ⟨every [] (input :: rest) rfl, fun earlier later split => ?_⟩
    exact every (input :: earlier) later (by rw [split]; rfl)
  · rintro ⟨first, others⟩ earlier later split
    cases earlier with
    | nil => exact first
    | cons lead earlier =>
      obtain ⟨rfl, same⟩ := List.cons.inj split
      exact others earlier later same

/-- An invariant that the steps with a property keep holds throughout a run of such steps. -/
theorem throughout_of_along
    (kept : ∀ state input, Inv state → holds state input → Inv (step state input).1)
    (first : Inv start) (along : Along step holds start inputs) :
    Throughout step Inv start inputs := by
  induction inputs generalizing start with
  | nil =>
    intro earlier later split
    rw [(List.append_eq_nil_iff.mp split.symm).1]
    exact first
  | cons input rest ih =>
    rw [throughout_cons]
    exact ⟨first, ih (kept start input first along.1) along.2⟩

/-- Where the steps that keep a property of an invariant's states are known, it holds throughout a
run exactly when it holds at the start and every step is one of these. -/
theorem throughout_iff {holds : State → Prop}
    (kept : ∀ state input, Inv state → Inv (step state input).1)
    (agree : ∀ state input, Inv state → holds state →
      (holds (step state input).1 ↔ keeps state input)) (first : Inv start) (inputs : List Input) :
    Throughout step holds start inputs ↔ holds start ∧ Along step keeps start inputs := by
  induction inputs generalizing start with
  | nil =>
    constructor
    · intro every
      exact ⟨every [] [] rfl, trivial⟩
    · rintro ⟨now, -⟩ earlier later split
      rw [(List.append_eq_nil_iff.mp split.symm).1]
      exact now
  | cons input rest ih =>
    rw [throughout_cons, ih (kept start input first)]
    refine and_congr_right fun now => ?_
    exact and_congr_left' (agree start input first now)

/-! ## What stays until it ends -/

/-- Once a property of the state holds it holds at every later state of the run, as long as no
state on the way has ended it. -/
def Stays (step : State → Input → State × Output) (held ended : State → Prop) (start : State)
    (inputs : List Input) : Prop :=
  ∀ before between later, inputs = before ++ between ++ later →
    held (after step start before) →
    (∀ front back, between = front ++ back → ¬ ended (after step start (before ++ front))) →
    held (after step start (before ++ between))

/-- A property that each step of a run keeps or ends stays until it is ended. -/
theorem stays_of_along (start : State) (inputs : List Input) (each : Along step (fun state input =>
      held state → held (step state input).1 ∨ ended (step state input).1) start inputs) :
    Stays step held ended start inputs := by
  intro before between later split
  subst split
  rw [List.append_assoc, along_append, along_append] at each
  have steps := each.2.1
  simp only [after_append]
  generalize after step start before = state at steps ⊢
  clear each
  induction between generalizing state with
  | nil =>
    intro first _
    exact first
  | cons input rest ih =>
    intro first quiet
    have next : held (step state input).1 :=
      (steps.1 first).resolve_right (quiet [input] rest rfl)
    refine ih _ steps.2 next fun front back split => ?_
    exact quiet (input :: front) back (by rw [split]; rfl)

/-- A property that stays until it is ended is kept or ended by each step of the run, when it
never holds of a state that ends it. -/
theorem along_of_stays (apart : ∀ state, held state → ¬ ended state) (start : State)
    (inputs : List Input) (stays : Stays step held ended start inputs) :
    Along step (fun state input =>
      held state → held (step state input).1 ∨ ended (step state input).1) start inputs := by
  refine (along_iff _ _).mpr fun before input later split first => ?_
  by_cases ends : ended (step (after step start before) input).1
  · exact .inr ends
  · have last := stays before [input] later (by rw [split]; simp) first fun front back cut => ?_
    · rw [after_append] at last
      exact .inl last
    · rw [after_append]
      rcases List.append_eq_singleton_iff.mp cut.symm with ⟨rfl, -⟩ | ⟨rfl, -⟩
      · exact apart _ first
      · exact ends

theorem stays_iff (apart : ∀ state, held state → ¬ ended state) (start : State)
    (inputs : List Input) :
    Stays step held ended start inputs ↔ Along step (fun state input =>
      held state → held (step state input).1 ∨ ended (step state input).1) start inputs :=
  ⟨along_of_stays apart start inputs, stays_of_along start inputs⟩

end Machine
