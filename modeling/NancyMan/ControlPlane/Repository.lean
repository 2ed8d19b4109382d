import NancyMan.ControlPlane.ChangeStateMachine

/-!
# The repository of configuration changes

The rows the control plane keeps of one change, its run log and the block of its application,
and the transaction `transition` over them. What a transaction refuses it leaves unwritten, so
an error carries no new rows. `Lawful` is what every writer of these rows keeps: the run log
follows the change through states that are never entered twice.
-/
namespace NancyMan.ControlPlane

/-- `databaseUuid`: the identifier derived from a seed by a hash, taken to be free of
collisions. -/
structure SeedHash (Id : Type) where
  /-- The identifier of a seed. -/
  databaseUuid : String → Id
  /-- Two seeds have two identifiers. -/
  distinct : Function.Injective databaseUuid

/-- The row of a change: what `transition` and `reconcileAgentStatus` read of it. -/
structure ConfigChangeRecord where
  id : String
  applicationId : String
  actorUserId : String
  actorSessionId : String
  state : ChangeState
  version : Nat
deriving DecidableEq, Repr

/-- A row of `ops_config_runs` of the change. -/
structure RunRow (Id : Type) where
  transitionId : Id
  eventId : Id
  runId : Id
  sequence : Nat
  fromState : ChangeState
  state : ChangeState
  actorUserId : String
  actorSessionId : String
  resultCode : Option String

/-- The rows about one change. -/
structure Database (Id : Type) where
  change : ConfigChangeRecord
  /-- The run log, oldest row first. -/
  runs : List (RunRow Id)
  /-- The block of the application, and whether it is not cleared. -/
  block : Option Bool
  /-- The titles of the incidents created. -/
  incidents : List String

/-- `ConfigChangeTransitionInput`. -/
structure TransitionInput (Id : Type) where
  changeId : String
  applicationId : String
  transitionId : Id
  eventId : Id
  runId : Id
  actorUserId : String
  actorSessionId : String
  expectedVersion : Nat
  target : ChangeState
  resultCode : Option String

/-- `ConfigChangeTransitionResult`. -/
structure TransitionResult (Id : Type) where
  changeId : String
  applicationId : String
  state : ChangeState
  version : Nat
  transitionId : Id
  eventId : Id
  idempotent : Bool

/-- `text.toUpperCase()` of an ASCII text. -/
def upperCase (text : String) : String := String.ofList (text.toList.map Char.toUpper)

/-- `/^[A-Z0-9][A-Z0-9._:-]{0,127}$/`. -/
def resultCodeAccepted (code : String) : Bool :=
  let upper (char : Char) : Bool := char.isUpper || char.isDigit
  match code.toList with
  | [] => false
  | first :: rest =>
    upper first && rest.length ≤ 127 &&
      rest.all fun char => upper char || char ∈ ['.', '_', ':', '-']

variable {Id : Type} [DecidableEq Id] (db : Database Id) (input : TransitionInput Id)

/-- The row of the run log that already has one of the identifiers of an input. -/
def existingRow : Option (RunRow Id) :=
  db.runs.find? fun row =>
    row.transitionId = input.transitionId ∨ row.eventId = input.eventId

def Database.isBlocked : Bool := db.block = some true

/-- The rows after the change has moved. -/
def Database.moved (next : ChangeStateSnapshot Id) : Database Id :=
  { db with
    change := { db.change with state := next.state, version := next.version }
    runs := db.runs ++
      [{ transitionId := input.transitionId
         eventId := input.eventId
         runId := input.runId
         sequence := next.version
         fromState := db.change.state
         state := next.state
         actorUserId := input.actorUserId
         actorSessionId := input.actorSessionId
         resultCode := input.resultCode }] }

/-- The snapshot `transition` hands to the state machine, which has no events. -/
def Database.snapshot : ChangeStateSnapshot Id where
  changeId := db.change.id
  applicationId := db.change.applicationId
  state := db.change.state
  version := db.change.version
  events := []

/-- What `transition` asks of the state machine. -/
def TransitionInput.request (now : Int) : TransitionRequest Id where
  target := input.target
  expectedVersion := input.expectedVersion
  transitionId := input.transitionId
  eventId := input.eventId
  actorUserId := input.actorUserId
  occurredAt := now

/-- `transition`: one transaction, at a time. -/
def transition (now : Int) (input : TransitionInput Id) :
    Except ChangeError (Database Id × TransitionResult Id) :=
  if maxSafeInteger < input.expectedVersion then .error .versionInvalid
  else if input.resultCode.any fun code => !code.isEmpty && !resultCodeAccepted code then
    .error .resultCodeInvalid
  else if db.change.id ≠ input.changeId ∨ db.change.applicationId ≠ input.applicationId then
    .error .notFound
  else
    match existingRow db input with
    | some existing =>
      if existing.state ≠ input.target ∨
          (existing.transitionId = input.transitionId ∧
            (existing.eventId ≠ input.eventId ∨ existing.runId ≠ input.runId ∨
              existing.actorUserId ≠ input.actorUserId ∨
              existing.actorSessionId ≠ input.actorSessionId)) then
        .error .idempotencyConflict
      else
        .ok (db,
          { changeId := input.changeId
            applicationId := input.applicationId
            state := existing.state
            version := existing.sequence
            transitionId := existing.transitionId
            eventId := existing.eventId
            idempotent := true })
    | none =>
      if input.target = .applying ∧ db.isBlocked then .error .applicationBlocked
      else
        match transitionChange db.snapshot (input.request now) with
        | .error error => .error error
        | .ok next =>
          if db.runs.any (·.sequence = next.version) then .error .uniqueViolation
          else
            .ok (db.moved input next,
              { changeId := input.changeId
                applicationId := input.applicationId
                state := next.state
                version := next.version
                transitionId := input.transitionId
                eventId := input.eventId
                idempotent := false })

/-- `findLatestRunId`: whether the run log has a row whose identifier a block may name. -/
def hasLatestRun : Bool := !db.runs.isEmpty

/-- `blockApplication`: whether it blocked, or the refusal of a run that is no row of the log. -/
def blockApplication : Except ChangeError (Database Id × Bool) :=
  match db.block with
  | some _ => .ok (db, false)
  | none =>
    if hasLatestRun db then .ok ({ db with block := some true }, true)
    else .error .foreignKeyViolation

end NancyMan.ControlPlane
