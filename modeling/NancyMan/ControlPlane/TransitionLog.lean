import NancyMan.ControlPlane.Repository
import Mathlib.Data.List.Chain

/-!
# The run log under concurrent transitions

`transition` locks the change's row first, so concurrent calls on one change take effect one
after another, in some order. Its lookup of a row with one of the two identifiers has no order,
so when two rows match either may be found: `Transacts` allows both, and a transaction that
the database aborts. `Chained` says that the run log follows the change, and `StepLaw` what one
call does to it; `transition_log` has both of every run.
-/
namespace NancyMan.ControlPlane

variable {Id : Type} [DecidableEq Id]

def Shares (row : RunRow Id) (input : TransitionInput Id) : Prop :=
  row.transitionId = input.transitionId ∨ row.eventId = input.eventId

/-- A row is that of an input: what `transition` compares of a replay agrees. -/
def Repeats (row : RunRow Id) (input : TransitionInput Id) : Prop :=
  row.transitionId = input.transitionId ∧ row.eventId = input.eventId ∧
    row.runId = input.runId ∧ row.actorUserId = input.actorUserId ∧
    row.actorSessionId = input.actorSessionId ∧ row.state = input.target

variable (db : Database Id)

/-- A row that the lookup of an input may find. -/
def Finds (input : TransitionInput Id) : Option (RunRow Id) → Prop
  | some row => row ∈ db.runs ∧ Shares row input
  | none => ∀ row ∈ db.runs, ¬ Shares row input

/-- The transaction of `transition` after its lookup. -/
def answer (now : Int) (input : TransitionInput Id) (found : Option (RunRow Id)) :
    Except ChangeError (Database Id × TransitionResult Id) :=
  if maxSafeInteger < input.expectedVersion then .error .versionInvalid
  else if input.resultCode.any fun code => !code.isEmpty && !resultCodeAccepted code then
    .error .resultCodeInvalid
  else if db.change.id ≠ input.changeId ∨ db.change.applicationId ≠ input.applicationId then
    .error .notFound
  else
    match found with
    | some existing =>
      if existing.state ≠ input.target ∨
          (existing.transitionId = input.transitionId ∧
            (existing.eventId ≠ input.eventId ∨ existing.runId ≠ input.runId ∨
              existing.actorUserId ≠ input.actorUserId ∨
              existing.actorSessionId ≠ input.actorSessionId)) then
        .error .idempotencyConflict
      else
        .ok (db,
          { changeId := input.changeId
            applicationId := input.applicationId
            state := existing.state
            version := existing.sequence
            transitionId := existing.transitionId
            eventId := existing.eventId
            idempotent := true })
    | none =>
      if input.target = .applying ∧ db.isBlocked then .error .applicationBlocked
      else
        match transitionChange db.snapshot (input.request now) with
        | .error error => .error error
        | .ok next =>
          if db.runs.any (·.sequence = next.version) then .error .uniqueViolation
          else
            .ok (db.moved input next,
              { changeId := input.changeId
                applicationId := input.applicationId
                state := next.state
                version := next.version
                transitionId := input.transitionId
                eventId := input.eventId
                idempotent := false })

theorem transition_eq (now : Int) (input : TransitionInput Id) :
    transition db now input = answer db now input (existingRow db input) := by rfl

/-- The oldest matching row is one that the lookup may find. -/
theorem finds_existingRow (input : TransitionInput Id) : Finds db input (existingRow db input) := by
  cases found : existingRow db input with
  | some row =>
    refine ⟨List.mem_of_find?_eq_some found, ?_⟩
    have matching := List.find?_some found
    simpa [Shares] using matching
  | none =>
    intro row member
    have differs := List.find?_eq_none.mp found row member
    simpa [Shares] using differs

/-- An outcome of a call: what the transaction answers after some lookup, or an error with which
the database aborts it. -/
inductive Transacts (db : Database Id) (now : Int) (input : TransitionInput Id) :
    Except ChangeError (Database Id × TransitionResult Id) → Prop where
  | answered {found : Option (RunRow Id)} (finds : Finds db input found) :
    Transacts db now input (answer db now input found)
  | aborted (error : ChangeError) : Transacts db now input (.error error)

theorem transacts_transition (now : Int) (input : TransitionInput Id) :
    Transacts db now input (transition db now input) := by
  exact .answered (finds_existingRow db input)

/-- The rows that an outcome leaves. -/
def rowsAfter : Except ChangeError (Database Id × TransitionResult Id) → Database Id
  | .ok (next, _) => next
  | .error _ => db

/-- A call in a run. -/
structure CallStep (Id : Type) where
  before : Database Id
  now : Int
  input : TransitionInput Id
  outcome : Except ChangeError (Database Id × TransitionResult Id)

/-- Any number of calls in the order in which they take effect; between two of them others may
block the application or clear its block. -/
inductive TransitionRun : Database Id → List (CallStep Id) → Database Id → Prop where
  | done (db : Database Id) : TransitionRun db [] db
  | block {db last : Database Id} {steps : List (CallStep Id)} (block : Option Bool)
      (rest : TransitionRun { db with block := block } steps last) : TransitionRun db steps last
  | call {db last : Database Id} {steps : List (CallStep Id)} {now : Int}
      {input : TransitionInput Id}
      {outcome : Except ChangeError (Database Id × TransitionResult Id)}
      (transacts : Transacts db now input outcome)
      (rest : TransitionRun (rowsAfter db outcome) steps last) :
      TransitionRun db (⟨db, now, input, outcome⟩ :: steps) last

/-- The run log follows the change: its sequences increase up to the version, each row starts
in the state in which the one before it ended, and the last ends in the change's state. -/
structure Chained (db : Database Id) : Prop where
  increasing : db.runs.Pairwise fun earlier later => earlier.sequence < later.sequence
  bounded : ∀ row ∈ db.runs, row.sequence ≤ db.change.version
  linked : db.runs.IsChain fun earlier later => later.fromState = earlier.state
  current : ∀ row ∈ db.runs.getLast?, row.state = db.change.state

/-- An outcome is a new transition. -/
def IsNew : Except ChangeError (Database Id × TransitionResult Id) → Prop
  | .ok (_, result) => result.idempotent = false
  | .error _ => False

/-- An outcome is a rejection. -/
def IsRejected : Except ChangeError (Database Id × TransitionResult Id) → Prop
  | .ok _ => False
  | .error _ => True

/-- What one call does. -/
structure StepLaw (step : CallStep Id) : Prop where
  /-- A new transition raises the version by one and logs itself, along a legal transition. -/
  fresh : IsNew step.outcome →
    (rowsAfter step.before step.outcome).change.version = step.before.change.version + 1 ∧
      ∃ row, (rowsAfter step.before step.outcome).runs = step.before.runs ++ [row] ∧
        row.sequence = step.before.change.version + 1 ∧
        row.fromState = step.before.change.state ∧ row.state = step.input.target ∧
        (rowsAfter step.before step.outcome).change.state = row.state ∧
        row.state ∈ step.before.change.state.legalTransitions
  /-- Every other call changes nothing. -/
  unchanged : ¬ IsNew step.outcome → rowsAfter step.before step.outcome = step.before
  /-- A call that repeats a logged row, or only one of its identifiers, is no new transition. -/
  replayed : ∀ row ∈ step.before.runs, Shares row step.input → ¬ IsNew step.outcome
  /-- A reuse of an identifier is rejected, unless it repeats a row or carries the event
  identifier of a row with the same target. -/
  conflicting : (∃ row ∈ step.before.runs, Shares row step.input) →
    (∀ row ∈ step.before.runs, ¬ Repeats row step.input) →
    (∀ row ∈ step.before.runs, row.eventId = step.input.eventId →
      row.state ≠ step.input.target) → IsRejected step.outcome
  /-- A terminal state is not left. -/
  terminal : step.before.change.state.isTerminal = true →
    (rowsAfter step.before step.outcome).change.state = step.before.change.state

/-! ## One call -/

/-- What the transaction answers: a rejection, the replay of the row it found, or a new
transition when it found none. -/
theorem answer_cases (now : Int) (input : TransitionInput Id) (found : Option (RunRow Id)) :
    (∃ error, answer db now input found = .error error) ∨
    (∃ existing result, found = some existing ∧ answer db now input found = .ok (db, result) ∧
      result.idempotent ∧ existing.state = input.target ∧
      (existing.transitionId = input.transitionId → Repeats existing input)) ∨
    ∃ next result, found = none ∧ answer db now input found = .ok (db.moved input next, result) ∧
      result.idempotent = false ∧ input.target ∈ db.change.state.legalTransitions ∧
      next.state = input.target ∧ next.version = db.change.version + 1 := by
  unfold answer
  split
  · exact .inl ⟨_, rfl⟩
  split
  · exact .inl ⟨_, rfl⟩
  split
  · exact .inl ⟨_, rfl⟩
  split
  · next existing =>
    split
    · exact .inl ⟨_, rfl⟩
    · next agrees =>
      refine .inr (.inl ⟨existing, _, rfl, rfl, rfl, ?_, ?_⟩)
      · by_contra differs
        exact agrees (.inl differs)
      · intro same
        unfold Repeats
        tauto
  · split
    · exact .inl ⟨_, rfl⟩
    split
    · exact .inl ⟨_, rfl⟩
    · next next moves =>
      split
      · exact .inl ⟨_, rfl⟩
      · obtain ⟨legal, state, version⟩ := transitionChange_ok rfl moves
        exact .inr (.inr ⟨next, _, rfl, rfl, rfl, legal, state, version⟩)

omit [DecidableEq Id] in
theorem StepLaw.rejected (now : Int) (input : TransitionInput Id) (error : ChangeError) :
    StepLaw ⟨db, now, input, .error error⟩ where
  fresh := False.elim
  unchanged _ := rfl
  replayed _ _ _ := id
  conflicting _ _ _ := trivial
  terminal _ := rfl

/-- Every call obeys the law of a step. -/
theorem stepLaw {db : Database Id} {now : Int} {input : TransitionInput Id}
    {outcome : Except ChangeError (Database Id × TransitionResult Id)}
    (transacts : Transacts db now input outcome) : StepLaw ⟨db, now, input, outcome⟩ := by
  cases transacts with
  | aborted error => exact StepLaw.rejected db now input error
  | @answered found finds =>
    rcases answer_cases db now input found with
      ⟨error, answered⟩ | ⟨existing, result, rfl, answered, replay, target, repeats⟩ |
      ⟨next, result, rfl, answered, fresh, legal, state, version⟩
    · rw [answered]
      exact StepLaw.rejected db now input error
    · obtain ⟨stored, shares⟩ := finds
      have old : ¬ IsNew (.ok (db, result) : Except ChangeError _) := by
        simp [IsNew, replay]
      rw [answered]
      refine ⟨fun new => absurd new old, fun _ => rfl, fun _ _ _ => old, ?_, fun _ => rfl⟩
      intro _ differs targets
      rcases shares with transition | event
      · exact absurd (repeats transition) (differs existing stored)
      · exact absurd target (targets existing stored event)
    · rw [answered]
      refine ⟨fun _ => ?_, fun old => absurd fresh old, ?_, ?_, ?_⟩
      · refine ⟨version, _, rfl, version, rfl, state, rfl, ?_⟩
        rw [state]
        exact legal
      · intro row member shares
        exact absurd shares (finds row member)
      · rintro ⟨row, member, shares⟩
        exact absurd shares (finds row member)
      · intro terminal
        have nothing := (ChangeState.isTerminal_iff _).mp terminal
        rw [nothing] at legal
        exact absurd legal List.not_mem_nil

/-! ## Runs -/

omit [DecidableEq Id] in
theorem chained_nil {db : Database Id} (empty : db.runs = []) : Chained db := by
  constructor <;> simp [empty]

omit [DecidableEq Id] in
/-- A call keeps the run log following the change. -/
theorem Chained.step {step : CallStep Id} (chained : Chained step.before) (law : StepLaw step) :
    Chained (rowsAfter step.before step.outcome) := by
  by_cases new : IsNew step.outcome
  · obtain ⟨version, row, runs, sequence, source, -, state, -⟩ := law.fresh new
    constructor
    · rw [runs]
      refine List.pairwise_append.mpr ⟨chained.increasing, List.pairwise_singleton _ _, ?_⟩
      intro earlier member later isLast
      have below := chained.bounded earlier member
      rw [List.mem_singleton.mp isLast, sequence]
      omega
    · rw [runs, version]
      intro other member
      rcases List.mem_append.mp member with old | last
      · exact Nat.le_succ_of_le (chained.bounded other old)
      · rw [List.mem_singleton.mp last, sequence]
    · rw [runs]
      refine List.isChain_append.mpr ⟨chained.linked, List.isChain_singleton _, ?_⟩
      intro earlier isLast later isFirst
      cases isFirst
      rw [source, chained.current earlier isLast]
    · rw [runs, List.getLast?_concat]
      intro other isLast
      cases isLast
      exact state.symm
  · rw [law.unchanged new]
    exact chained

/-- The log of transitions. In every run of concurrent calls, replays, conflicting reuses and
aborted transactions, each call obeys the law of a step, and the run log follows the change at
the end as it did at the start. -/
theorem transition_log {start last : Database Id} {steps : List (CallStep Id)}
    (run : TransitionRun start steps last) (chained : Chained start) :
    (∀ step ∈ steps, StepLaw step) ∧ Chained last := by
  induction run with
  | done => exact ⟨fun _ member => absurd member List.not_mem_nil, chained⟩
  | block block rest ih =>
    exact ih ⟨chained.increasing, chained.bounded, chained.linked, chained.current⟩
  | @call db last steps now input outcome transacts rest ih =>
    have law := stepLaw transacts
    obtain ⟨laws, followed⟩ := ih (chained.step law)
    refine ⟨?_, followed⟩
    intro step member
    rcases List.mem_cons.mp member with rfl | later
    · exact law
    · exact laws step later

/-- A new change. -/
def draftChange : Database String where
  change :=
    { id := "change"
      applicationId := "app"
      actorUserId := "user"
      actorSessionId := "session"
      state := .draft
      version := 0 }
  runs := []
  block := none
  incidents := []

/-- A call that starts the validation of the change, under two identifiers. -/
def validatingInput (transitionId eventId : String) : TransitionInput String where
  changeId := "change"
  applicationId := "app"
  transitionId := transitionId
  eventId := eventId
  runId := "run"
  actorUserId := "user"
  actorSessionId := "session"
  expectedVersion := 0
  target := .validating
  resultCode := none

/-- A call of the run, as `transition` answers it. -/
def answered (db : Database String) (input : TransitionInput String) : CallStep String :=
  ⟨db, 0, input, transition db 0 input⟩

/-- A first call, and a second under another transition identifier but the same event
identifier. -/
def reusedSteps : List (CallStep String) :=
  let first := answered draftChange (validatingInput "t1" "e1")
  [first, answered (rowsAfter draftChange first.outcome) (validatingInput "t2" "e1")]

theorem reusedSteps_run : ∃ last, TransitionRun draftChange reusedSteps last := by
  exact ⟨_, .call (transacts_transition ..) (.call (transacts_transition ..) (.done _))⟩

/-- Both calls of the run obey the law of a step. -/
theorem transition_log_reused :
    reusedSteps.length = 2 ∧ ∀ step ∈ reusedSteps, StepLaw step := by
  obtain ⟨last, run⟩ := reusedSteps_run
  exact ⟨rfl, (transition_log run (chained_nil rfl)).1⟩

/-- A reuse of an event identifier under another transition identifier is not rejected: it is
answered as a replay. -/
theorem event_reuse_accepted :
    (∃ last, TransitionRun draftChange reusedSteps last) ∧
      ∃ step ∈ reusedSteps, (∃ row ∈ step.before.runs, Shares row step.input) ∧
        (∀ row ∈ step.before.runs, ¬ Repeats row step.input) ∧ ¬ IsRejected step.outcome := by
  refine ⟨reusedSteps_run, _, .tail _ (.head _), ?_, ?_, ?_⟩
  · exact ⟨_, List.mem_cons_self .., .inr rfl⟩
  · intro row member repeats
    rw [List.mem_singleton.mp member] at repeats
    exact absurd repeats.1 (by decide)
  · exact id

end NancyMan.ControlPlane
