import NancyMan.Lib.JsonIntegers
import NancyMan.Lib.Lines

/-!
# The states of one apply run

A run passes from APPLYING to COMPLETED, and may start rolling back from any state that has
successors before that. An event whose id was seen is a replay; the ids that a run makes carry
its sequence number, so none of them repeats one.
-/
namespace NancyMan.Agent

inductive ApplyState where
  | applying
  | snapshotted
  | written
  | actionRunning
  | healthChecking
  | completed
  | rollingBack
  | rolledBack
  | rollbackFailed
deriving DecidableEq

/-- The text of a state. -/
def ApplyState.text : ApplyState → String
  | .applying => "APPLYING"
  | .snapshotted => "SNAPSHOTTED"
  | .written => "WRITTEN"
  | .actionRunning => "ACTION_RUNNING"
  | .healthChecking => "HEALTH_CHECKING"
  | .completed => "COMPLETED"
  | .rollingBack => "ROLLING_BACK"
  | .rolledBack => "ROLLED_BACK"
  | .rollbackFailed => "ROLLBACK_FAILED"

inductive ApplyStateMachineErrorCode where
  | stateInvalid
  | stateTerminal
  | transitionInvalid
  | eventReplayConflict
  | alreadyRunning

/-- The text of an error code. -/
def ApplyStateMachineErrorCode.text : ApplyStateMachineErrorCode → String
  | .stateInvalid => "APPLY_STATE_INVALID"
  | .stateTerminal => "APPLY_STATE_TERMINAL"
  | .transitionInvalid => "APPLY_TRANSITION_INVALID"
  | .eventReplayConflict => "APPLY_EVENT_REPLAY_CONFLICT"
  | .alreadyRunning => "APPLY_ALREADY_RUNNING"

def transitions : ApplyState → List ApplyState
  | .applying => [.snapshotted, .rollingBack]
  | .snapshotted => [.written, .rollingBack]
  | .written => [.actionRunning, .rollingBack]
  | .actionRunning => [.healthChecking, .rollingBack]
  | .healthChecking => [.completed, .rollingBack]
  | .rollingBack => [.rolledBack, .rollbackFailed]
  | .completed | .rolledBack | .rollbackFailed => []

/-- `terminal`. -/
def isTerminal (state : ApplyState) : Bool :=
  [ApplyState.completed, .rolledBack, .rollbackFailed].contains state

structure ApplyStateMachine where
  current : ApplyState
  sequence : Nat
  eventStates : List (String × ApplyState)

def createApplyStateMachine (initialState : ApplyState) : ApplyStateMachine := ⟨initialState, 0, []⟩

def transition (machine : ApplyStateMachine) (next : ApplyState) (eventId : String) :
    Except ApplyStateMachineErrorCode ApplyStateMachine :=
  if eventId = "" then .error .stateInvalid
  else
    match machine.eventStates.find? fun event => event.1 = eventId with
    | some replayed =>
      if replayed.2 ≠ next then .error .eventReplayConflict else .ok machine
    | none =>
      if isTerminal machine.current then .error .stateTerminal
      else if !(transitions machine.current).contains next then .error .transitionInvalid
      else .ok ⟨next, machine.sequence + 1, machine.eventStates ++ [(eventId, next)]⟩

def applyEventId (runId : String) (state : ApplyState) (sequence : Nat) : String :=
  runId ++ ":" ++ state.text ++ ":" ++ toString sequence

theorem ApplyState.text_noColon (state : ApplyState) : ':' ∉ state.text.toList := by
  cases state <;> decide

/-- Event ids of one run have the same sequence number only when they are the same. -/
theorem applyEventId_sequence {runId : String} {state state' : ApplyState} {sequence sequence' : Nat}
    (same : applyEventId runId state sequence = applyEventId runId state' sequence') :
    sequence = sequence' := by
  have symbols := congrArg String.toList same
  simp only [applyEventId, String.toList_append, List.append_assoc, List.append_cancel_left_eq]
    at symbols
  have digits : (toString sequence).toList = (toString sequence').toList :=
    (Lines.first_line_inj state.text_noColon state'.text_noColon symbols).2
  rw [Nat.toString_eq_ofList_toDigits, Nat.toString_eq_ofList_toDigits, String.toList_ofList,
    String.toList_ofList] at digits
  rw [← Nat.ofDigitChars_ten_toDigits (n := sequence), digits, Nat.ofDigitChars_ten_toDigits]

/-- Every event of a machine has an id of a run with a sequence number so far. -/
def Recorded (runId : String) (machine : ApplyStateMachine) : Prop :=
  ∀ event ∈ machine.eventStates, ∃ state sequence,
    event.1 = applyEventId runId state sequence ∧ sequence ≤ machine.sequence

theorem recorded_create (runId : String) (initialState : ApplyState) :
    Recorded runId (createApplyStateMachine initialState) := by
  intro event member
  cases member

variable {machine : ApplyStateMachine}

/-- The event that a run makes next has not been seen. -/
theorem Recorded.fresh {runId : String} (recorded : Recorded runId machine) (next : ApplyState) :
    (machine.eventStates.find? fun event =>
      event.1 = applyEventId runId next (machine.sequence + 1)) = none := by
  rw [List.find?_eq_none]
  intro event member seen
  obtain ⟨state, sequence, named, bounded⟩ := recorded event member
  have same := applyEventId_sequence (named.symm.trans (decide_eq_true_iff.mp seen))
  omega

theorem applyEventId_ne_empty (runId : String) (state : ApplyState) (sequence : Nat) :
    applyEventId runId state sequence ≠ "" := by
  intro same
  have symbols := congrArg String.toList same
  simp [applyEventId, String.toList_append] at symbols

/-- The state that a run's next event leads to. -/
def ApplyStateMachine.advance (machine : ApplyStateMachine) (runId : String) (next : ApplyState) :
    ApplyStateMachine :=
  ⟨next, machine.sequence + 1,
    machine.eventStates ++ [(applyEventId runId next (machine.sequence + 1), next)]⟩

/-- What the transition of a run's next event does. -/
theorem transition_next {runId : String} (recorded : Recorded runId machine) (next : ApplyState) :
    transition machine next (applyEventId runId next (machine.sequence + 1)) =
      if isTerminal machine.current then .error .stateTerminal
      else if (transitions machine.current).contains next then .ok (machine.advance runId next)
      else .error .transitionInvalid := by
  rw [transition, if_neg (applyEventId_ne_empty runId next _), recorded.fresh next]
  dsimp only
  cases (transitions machine.current).contains next <;> rfl

/-- A machine that makes its next event has recorded it. -/
theorem Recorded.advance {runId : String} (recorded : Recorded runId machine) (next : ApplyState) :
    Recorded runId (machine.advance runId next) := by
  intro event member
  rcases List.mem_append.mp member with known | made
  · obtain ⟨state, sequence, named, bounded⟩ := recorded event known
    exact ⟨state, sequence, named, Nat.le_succ_of_le bounded⟩
  · rw [List.mem_singleton.mp made]
    exact ⟨next, machine.sequence + 1, rfl, Nat.le_refl _⟩

end NancyMan.Agent
