import Mathlib.Algebra.Group.Nat.Defs
import Mathlib.Data.List.Basic

/-!
# The change state machine

The states of a configuration change and `transitionChange`, which moves a snapshot of a
change along a legal transition under an expected version. An identifier of the type
parameter `Id` is a text that passes the UUID pattern, and a timestamp is one that
`Date.parse` reads, so the checks of the source that refuse other texts have no case here.
-/
namespace NancyMan.ControlPlane

/-- `CHANGE_STATES`. -/
inductive ChangeState where
  | draft
  | validating
  | invalid
  | ready
  | saved
  | applying
  | snapshotted
  | written
  | actionRunning
  | healthChecking
  | completed
  | rollingBack
  | rolledBack
  | rollbackFailed
  | cancelled
  | expired
deriving DecidableEq, Repr

namespace ChangeState

/-- `TERMINAL_CHANGE_STATES`. -/
def isTerminal : ChangeState → Bool
  | .invalid | .completed | .rolledBack | .rollbackFailed | .expired | .cancelled => true
  | _ => false

def legalTransitions : ChangeState → List ChangeState
  | .draft => [.validating, .cancelled, .expired]
  | .validating => [.invalid, .ready]
  | .invalid => []
  | .ready => [.saved, .cancelled, .expired]
  | .saved => [.applying, .cancelled, .expired]
  | .applying => [.snapshotted, .rollingBack]
  | .snapshotted => [.written, .rollingBack]
  | .written => [.actionRunning, .rollingBack]
  | .actionRunning => [.healthChecking, .rollingBack]
  | .healthChecking => [.completed, .rollingBack]
  | .completed => []
  | .rollingBack => [.rolledBack, .rollbackFailed]
  | .rolledBack => []
  | .rollbackFailed => []
  | .cancelled => []
  | .expired => []

/-- The place of a state in `CHANGE_STATES`. -/
def rank : ChangeState → Nat
  | .draft => 0
  | .validating => 1
  | .invalid => 2
  | .ready => 3
  | .saved => 4
  | .applying => 5
  | .snapshotted => 6
  | .written => 7
  | .actionRunning => 8
  | .healthChecking => 9
  | .completed => 10
  | .rollingBack => 11
  | .rolledBack => 12
  | .rollbackFailed => 13
  | .cancelled => 14
  | .expired => 15

theorem rank_legal {source target : ChangeState} (legal : target ∈ source.legalTransitions) :
    source.rank < target.rank := by
  revert legal
  cases source <;> cases target <;> decide

theorem isTerminal_iff (state : ChangeState) : state.isTerminal ↔ state.legalTransitions = [] := by
  cases state <;> decide

end ChangeState

/-- `Number.MAX_SAFE_INTEGER`. -/
def maxSafeInteger : Nat := 2 ^ 53 - 1

/-- What the state machine and the repository refuse with. -/
inductive ChangeError where
  | versionInvalid
  | transitionIdDuplicate
  | eventIdDuplicate
  | sequenceNotMonotonic
  | eventTransitionInvalid
  | sequenceInvalid
  | eventChainInvalid
  | stateEventMismatch
  | versionExhausted
  | idempotencyConflict
  | versionConflict
  | transitionTerminal
  | transitionIllegal
  | transitionInputInvalid
  | notFound
  | applicationBlocked
  | resultCodeInvalid
  | foreignKeyViolation
  | uniqueViolation
deriving DecidableEq, Repr

structure ChangeTransitionEvent (Id : Type) where
  transitionId : Id
  eventId : Id
  source : ChangeState
  target : ChangeState
  sequence : Nat
  actorUserId : String
  occurredAt : Int

structure ChangeStateSnapshot (Id : Type) where
  changeId : String
  applicationId : String
  state : ChangeState
  version : Nat
  events : List (ChangeTransitionEvent Id)

variable {Id : Type} [DecidableEq Id]

/-- The loop of `validateSnapshot` over the events, after those before them. -/
def validateEvents (version : Nat) :
    List Id → List Id → Nat → Option ChangeState → List (ChangeTransitionEvent Id) →
      Except ChangeError Unit
  | _, _, _, _, [] => .ok ()
  | transitionIds, eventIds, previousSequence, previousState, event :: rest =>
    if event.transitionId ∈ transitionIds then .error .transitionIdDuplicate
    else if event.eventId ∈ eventIds then .error .eventIdDuplicate
    else if maxSafeInteger < event.sequence ∨ event.sequence ≤ previousSequence then
      .error .sequenceNotMonotonic
    else if event.target ∉ event.source.legalTransitions then .error .eventTransitionInvalid
    else if version < event.sequence then .error .sequenceInvalid
    else if previousState.any (event.source ≠ ·) then .error .eventChainInvalid
    else
      validateEvents version (event.transitionId :: transitionIds) (event.eventId :: eventIds)
        event.sequence (some event.target) rest

variable (snapshot : ChangeStateSnapshot Id)

def validateSnapshot : Except ChangeError Unit := do
  if maxSafeInteger < snapshot.version then throw .versionInvalid
  validateEvents snapshot.version [] [] 0 none snapshot.events
  if snapshot.events.getLast?.any (·.target ≠ snapshot.state) then throw .stateEventMismatch
  if snapshot.version = maxSafeInteger then throw .versionExhausted

/-- What `transitionChange` is asked. -/
structure TransitionRequest (Id : Type) where
  target : ChangeState
  expectedVersion : Nat
  transitionId : Id
  eventId : Id
  actorUserId : String
  occurredAt : Int

/-- `sameEvent`, which does not compare sequences. -/
def sameEvent (left right : ChangeTransitionEvent Id) : Prop :=
  left.transitionId = right.transitionId ∧ left.eventId = right.eventId ∧
    left.source = right.source ∧ left.target = right.target ∧
    left.actorUserId = right.actorUserId ∧ left.occurredAt = right.occurredAt

instance : DecidableRel (@sameEvent Id) := fun left right => by
  unfold sameEvent
  exact inferInstance

variable (request : TransitionRequest Id)

def transitionChange : Except ChangeError (ChangeStateSnapshot Id) := do
  validateSnapshot snapshot
  match snapshot.events.find? fun event =>
      event.transitionId = request.transitionId ∨ event.eventId = request.eventId with
  | some existing =>
    let requested : ChangeTransitionEvent Id :=
      { transitionId := request.transitionId
        eventId := request.eventId
        source := existing.source
        target := request.target
        sequence := existing.sequence
        actorUserId := request.actorUserId
        occurredAt := request.occurredAt }
    if existing.target ≠ request.target ∨
        (existing.transitionId = request.transitionId ∧ ¬ sameEvent existing requested) then
      throw .idempotencyConflict
    return snapshot
  | none =>
    if request.expectedVersion ≠ snapshot.version then throw .versionConflict
    if snapshot.state.isTerminal then throw .transitionTerminal
    if request.target ∉ snapshot.state.legalTransitions then throw .transitionIllegal
    if request.actorUserId = "" ∨ maxSafeInteger < request.expectedVersion then
      throw .transitionInputInvalid
    return { snapshot with
      state := request.target
      version := snapshot.version + 1
      events := snapshot.events ++
        [{ transitionId := request.transitionId
           eventId := request.eventId
           source := snapshot.state
           target := request.target
           sequence := snapshot.version + 1
           actorUserId := request.actorUserId
           occurredAt := request.occurredAt }] }

/-- A snapshot without events is valid exactly when its version is below the last one. -/
theorem validateSnapshot_bare {snapshot : ChangeStateSnapshot Id} (bare : snapshot.events = []) :
    validateSnapshot snapshot =
      if maxSafeInteger < snapshot.version then .error .versionInvalid
      else if snapshot.version = maxSafeInteger then .error .versionExhausted
      else .ok () := by
  unfold validateSnapshot
  rw [bare]
  by_cases large : maxSafeInteger < snapshot.version
  · simp [large, throw, throwThe, MonadExceptOf.throw, bind, Except.bind]
  · by_cases last : snapshot.version = maxSafeInteger
    · simp [last, validateEvents, throw, throwThe, MonadExceptOf.throw, bind, Except.bind]
    · simp [large, last, validateEvents, bind, Except.bind, pure, Except.pure]

/-- A snapshot without events moves along a legal transition under its own version. -/
theorem transitionChange_legal (bare : snapshot.events = [])
    (expected : request.expectedVersion = snapshot.version)
    (room : snapshot.version < maxSafeInteger) (actor : request.actorUserId ≠ "")
    (legal : request.target ∈ snapshot.state.legalTransitions) :
    ∃ next, transitionChange snapshot request = .ok next ∧ next.state = request.target ∧
      next.version = snapshot.version + 1 := by
  have live : snapshot.state.isTerminal = false := by
    rw [← Bool.not_eq_true, ChangeState.isTerminal_iff]
    intro nothing
    rw [nothing] at legal
    exact absurd legal List.not_mem_nil
  have small : ¬ maxSafeInteger < snapshot.version := by omega
  have notLast : snapshot.version ≠ maxSafeInteger := by omega
  unfold transitionChange
  rw [validateSnapshot_bare bare, bare]
  simp [small, notLast, expected, live, legal, actor, bind, Except.bind, pure, Except.pure]

/-- A snapshot without events refuses every other request. -/
theorem transitionChange_refuses (bare : snapshot.events = [])
    (wrong : request.expectedVersion ≠ snapshot.version ∨ maxSafeInteger ≤ snapshot.version ∨
      request.target ∉ snapshot.state.legalTransitions) :
    ∃ error, transitionChange snapshot request = .error error := by
  unfold transitionChange
  rw [validateSnapshot_bare bare, bare]
  by_cases large : maxSafeInteger < snapshot.version
  · exact ⟨_, by rw [if_pos large]; rfl⟩
  by_cases last : snapshot.version = maxSafeInteger
  · exact ⟨_, by rw [if_neg large, if_pos last]; rfl⟩
  rw [if_neg large, if_neg last]
  by_cases expected : request.expectedVersion = snapshot.version
  · have illegal : request.target ∉ snapshot.state.legalTransitions := by
      rcases wrong with differs | full | illegal
      · exact absurd expected differs
      · omega
      · exact illegal
    cases terminal : snapshot.state.isTerminal with
    | true =>
      exact ⟨.transitionTerminal, by
        simp [expected, bind, Except.bind, throw, throwThe, MonadExceptOf.throw]⟩
    | false =>
      exact ⟨.transitionIllegal, by
        simp [expected, illegal, bind, Except.bind, throw, throwThe, MonadExceptOf.throw]⟩
  · exact ⟨.versionConflict, by
      simp [expected, bind, Except.bind, throw, throwThe, MonadExceptOf.throw]⟩

/-- A snapshot without events that moves goes along a legal transition to the next version. -/
theorem transitionChange_ok {snapshot next : ChangeStateSnapshot Id} {request : TransitionRequest Id}
    (bare : snapshot.events = []) (moves : transitionChange snapshot request = .ok next) :
    request.target ∈ snapshot.state.legalTransitions ∧ next.state = request.target ∧
      next.version = snapshot.version + 1 := by
  have legal : request.target ∈ snapshot.state.legalTransitions := by
    by_contra illegal
    obtain ⟨error, refused⟩ := transitionChange_refuses snapshot request bare (.inr (.inr illegal))
    rw [refused] at moves
    cases moves
  have expected : request.expectedVersion = snapshot.version := by
    by_contra differs
    obtain ⟨error, refused⟩ := transitionChange_refuses snapshot request bare (.inl differs)
    rw [refused] at moves
    cases moves
  have room : snapshot.version < maxSafeInteger := by
    by_contra full
    obtain ⟨error, refused⟩ :=
      transitionChange_refuses snapshot request bare (.inr (.inl (Nat.le_of_not_lt full)))
    rw [refused] at moves
    cases moves
  by_cases actor : request.actorUserId = ""
  · have live : snapshot.state.isTerminal = false := by
      rw [← Bool.not_eq_true, ChangeState.isTerminal_iff]
      intro nothing
      rw [nothing] at legal
      exact absurd legal List.not_mem_nil
    have small : ¬ maxSafeInteger < snapshot.version := by omega
    have notLast : snapshot.version ≠ maxSafeInteger := by omega
    unfold transitionChange at moves
    rw [validateSnapshot_bare bare, bare] at moves
    simp [small, notLast, expected, live, legal, actor, bind, Except.bind, throw, throwThe,
      MonadExceptOf.throw] at moves
  · obtain ⟨found, same, state, version⟩ :=
      transitionChange_legal snapshot request bare expected room actor legal
    rw [same] at moves
    cases moves
    exact ⟨legal, state, version⟩

end NancyMan.ControlPlane
