import NancyMan.Agent.ApplyStateMachine
import NancyMan.Lib.Program

/-!
# Applying a staged change

`performApply` as the program that the coordinator runs for one call: what it asks of its
dependencies, what it keeps in its local variables, and which of its calls an exception skips.
The set of active applications is shared with the other calls: `join` tests and joins it at once
and `leave` takes the application out of it.
-/
namespace NancyMan.Agent

inductive ItemOperation where
  | set
  | delete
deriving DecidableEq

inductive ItemRequirement where
  | required
  | «optional»
deriving DecidableEq

structure StagedChangeItem where
  sourceId : String
  name : String
  duplicateOrdinal : Nat
  operation : ItemOperation
  requirement : ItemRequirement
  value : Option String
  sourceFingerprint : String

/-- A staged change; `expiresAt` is the time that its text denotes, if it denotes one. -/
structure StagedChangePayload where
  changeId : String
  appId : String
  catalogVersion : String
  manifestVersion : String
  changeDigest : String
  expiresAt : Option Int
  sourceIds : List String
  actionIds : List String
  checkIds : List String
  items : List StagedChangeItem

structure SnapshotSource where
  sourceId : String
  bytes : List UInt8
  uid : Nat
  gid : Nat
  mode : Nat
deriving DecidableEq

structure SnapshotPayload where
  sources : List SnapshotSource
deriving DecidableEq

structure ApplyEvent where
  changeId : String
  runId : String
  state : ApplyState
  sequence : Nat
  reasonCode : String
deriving DecidableEq

structure AtomicWriteOperation where
  name : String
  duplicateOrdinal : Nat
  operation : ItemOperation
  requirement : ItemRequirement
  value : Option String
deriving DecidableEq

/-- What is written to one source. -/
structure SourceWrite where
  sourceId : String
  expectedSourceFingerprint : String
  operations : List AtomicWriteOperation
deriving DecidableEq

inductive ApplyOutcome where
  | completed
  | rolledBack
  | rollbackFailed
deriving DecidableEq

structure ApplyCoordinatorResult where
  changeId : String
  runId : String
  state : ApplyState
  outcome : ApplyOutcome
deriving DecidableEq

inductive ApplyCoordinatorErrorCode where
  | stagedChangeNotFound
  | changeDigestMismatch
  | stagedChangeExpired
  | applyAlreadyRunning
  | applyPreconditionFailed
  | configSourceChanged
  | applyFailed
deriving DecidableEq

/-- What is thrown: the coordinator's own error, or another, with its `code` if it has one. -/
inductive Thrown where
  | coordinator (code : ApplyCoordinatorErrorCode) (rolledBack : Bool)
  | error (code : Option String)
deriving DecidableEq

def errorCode : Thrown → ApplyCoordinatorErrorCode
  | .coordinator code _ => code
  | .error code =>
    if code = some "CONFIG_SOURCE_CHANGED" then .configSourceChanged else .applyFailed

def StagedChangeItem.toOperation (item : StagedChangeItem) : AtomicWriteOperation :=
  ⟨item.name, item.duplicateOrdinal, item.operation, item.requirement, item.value⟩

/-- Add an item to the writes of its source, which follow one another by their first items. -/
def addItem (writes : List SourceWrite) (item : StagedChangeItem) :
    Except Thrown (List SourceWrite) :=
  match writes.find? fun write => write.sourceId = item.sourceId with
  | none => .ok (writes ++ [⟨item.sourceId, item.sourceFingerprint, [item.toOperation]⟩])
  | some found =>
    if found.expectedSourceFingerprint ≠ item.sourceFingerprint then
      .error (.coordinator .configSourceChanged false)
    else
      .ok (writes.map fun write =>
        if write.sourceId = item.sourceId then
          { write with operations := write.operations ++ [item.toOperation] }
        else write)

def sourceOperations (change : StagedChangePayload) : Except Thrown (List SourceWrite) :=
  change.items.foldlM addItem []

inductive Lock where
  | application (appId : String)
  | source (sourceId : String)
  | action (actionId : String)

/-- What an apply asks of its surroundings. -/
inductive Effect where
  | readStaged (changeId : String)
  | now
  | join (appId : String)
  | acquireLock (lock : Lock)
  | persistEvent (event : ApplyEvent)
  | captureSnapshot (change : StagedChangePayload) (runId : String)
  | persistSnapshot (snapshotId : String) (change : StagedChangePayload)
      (snapshot : SnapshotPayload)
  | createSnapshot (snapshotId : String) (change : StagedChangePayload) (snapshot : SnapshotPayload)
  | writeSource (source : SourceWrite)
  | runAction (runId actionId : String)
  | runHealth (runId : String) (checkIds : List String)
  | restoreSnapshot (change : StagedChangePayload) (runId : String) (snapshot : SnapshotPayload)
  | rollbackAction (runId actionId : String)
  | rollbackHealth (runId : String) (checkIds : List String)
  | markRollbackFailed (snapshotId : String)
  | onRollbackFailed (changeId runId snapshotId reasonCode : String)
  | releaseLock (lock : Lock)
  | leave (appId : String)

/-- What answers a call; the answer of health checks is whether they passed. -/
def Effect.Answer : Effect → Type
  | .readStaged _ => Except Thrown (Option StagedChangePayload)
  | .now => Int
  | .join _ => Bool
  | .captureSnapshot _ _ => Except Thrown SnapshotPayload
  | .runHealth _ _ | .rollbackHealth _ _ => Except Thrown Bool
  | .leave _ => Unit
  | _ => Except Thrown Unit

/-- Which of the optional dependencies a coordinator has. -/
structure ApplyDependencies where
  persistSnapshot : Bool
  snapshotStore : Bool
  acquireApplicationLock : Bool
  acquireSourceLock : Bool
  acquireActionLock : Bool
  rollbackAction : Bool
  rollbackHealth : Bool
  onRollbackFailed : Bool

structure ApplyInput where
  changeId : String
  runId : String
  changeDigest : String

/-- The local variables of `performApply`. -/
structure ApplyLocals where
  snapshot : Option SnapshotPayload
  writeStarted : Bool
  machine : Option ApplyStateMachine
  change : Option StagedChangePayload
  releases : List Lock

/-- A part of `performApply`. -/
abbrev Apply (α : Type) := Async Effect Effect.Answer ApplyLocals Thrown α

open Async

def whenever (present : Bool) (action : Apply Unit) : Apply Unit :=
  if present then action else pure ()

/-- `try { … } catch { }`. -/
def ignoring (action : Apply Unit) : Apply Unit := tryCatch action fun _ => pure ()

def emit (changeId runId : String) (state : ApplyState) (reasonCode : String) : Apply Unit := do
  match (← locals).machine with
  | none => throw (.error none)
  | some machine =>
    match transition machine state (applyEventId runId state (machine.sequence + 1)) with
    | .error code => throw (.error (some code.text))
    | .ok moved => do
      assign fun locals => { locals with machine := some moved }
      attempt (perform (Effect.persistEvent ⟨changeId, runId, state, moved.sequence, reasonCode⟩))

/-- Acquire a lock and note its release. -/
def acquire (lock : Lock) : Apply Unit := do
  attempt (perform (Effect.acquireLock lock))
  assign fun locals => { locals with releases := locals.releases ++ [lock] }

def snapshotIdOf (input : ApplyInput) : String := "SNAP_" ++ input.runId

section

variable (dependencies : ApplyDependencies) (input : ApplyInput) (change : StagedChangePayload)

/-- Store a snapshot where the dependencies have a place for it. -/
def storeSnapshot (snapshot : SnapshotPayload) : Apply Unit :=
  if dependencies.persistSnapshot then
    attempt (perform (Effect.persistSnapshot (snapshotIdOf input) change snapshot))
  else
    whenever dependencies.snapshotStore
      (attempt (perform (Effect.createSnapshot (snapshotIdOf input) change snapshot)))

/-- An admitted change up to its recorded snapshot. -/
def recordSnapshot : Apply Unit := do
  whenever dependencies.acquireApplicationLock (acquire (.application change.appId))
  assign fun locals => { locals with machine := some (createApplyStateMachine .applying) }
  attempt (perform (Effect.persistEvent ⟨change.changeId, input.runId, .applying, 0, "APPLY_STARTED"⟩))
  whenever dependencies.acquireSourceLock
    (change.sourceIds.forM fun sourceId => acquire (.source sourceId))
  whenever dependencies.acquireActionLock
    (change.actionIds.forM fun actionId => acquire (.action actionId))
  let snapshot ← attempt (perform (Effect.captureSnapshot change input.runId))
  assign fun locals => { locals with snapshot := some snapshot }
  storeSnapshot dependencies input change snapshot
  emit change.changeId input.runId .snapshotted "SNAPSHOT_RECORDED"

/-- Write the sources of a change. -/
def writeSources : Apply Unit :=
  match sourceOperations change with
  | .error error => throw error
  | .ok sources =>
    sources.forM fun source => do
      assign fun locals => { locals with writeStarted := true }
      attempt (perform (Effect.writeSource source))

/-- Run the actions and the health checks of a change whose sources are written. -/
def activate : Apply ApplyCoordinatorResult := do
  emit change.changeId input.runId .written "SOURCES_WRITTEN"
  emit change.changeId input.runId .actionRunning "ACTIONS_STARTED"
  change.actionIds.forM fun actionId => attempt (perform (Effect.runAction input.runId actionId))
  emit change.changeId input.runId .healthChecking "HEALTH_CHECKS_STARTED"
  let passed ← attempt (perform (Effect.runHealth input.runId change.checkIds))
  require passed (.coordinator .applyFailed false)
  emit change.changeId input.runId .completed "HEALTH_CHECKS_PASSED"
  pure ⟨change.changeId, input.runId, .completed, .completed⟩

/-- Whether a staged change has expired; a date that is none never does. -/
def isExpired (time : Int) : Bool :=
  match change.expiresAt with
  | some expiresAt => expiresAt ≤ time
  | none => false

/-- The `try` block of `performApply`. -/
def applyStaged : Apply ApplyCoordinatorResult := do
  let staged ← attempt (perform (Effect.readStaged input.changeId))
  assign fun locals => { locals with change := staged }
  match staged with
  | none => throw (.coordinator .stagedChangeNotFound false)
  | some change => do
    require (change.changeDigest = input.changeDigest) (.coordinator .changeDigestMismatch false)
    let time : Int ← perform Effect.now
    require (!isExpired change time) (.coordinator .stagedChangeExpired false)
    let available : Bool ← perform (Effect.join change.appId)
    require available (.coordinator .applyAlreadyRunning false)
    recordSnapshot dependencies input change
    writeSources change
    activate input change

/-- Report a rollback that failed. -/
def reportRollbackFailed : Apply ApplyCoordinatorResult := do
  ignoring (emit change.changeId input.runId .rollbackFailed "ROLLBACK_FAILED")
  whenever dependencies.onRollbackFailed
    (attempt (perform (Effect.onRollbackFailed change.changeId input.runId (snapshotIdOf input)
      "ROLLBACK_FAILED")))
  pure ⟨change.changeId, input.runId, .rollbackFailed, .rollbackFailed⟩

/-- End a run that has written nothing. -/
def rollBackNothing : Apply ApplyCoordinatorResult := do
  emit change.changeId input.runId .rollingBack "ROLLBACK_NOT_REQUIRED"
  emit change.changeId input.runId .rolledBack "NO_WRITE_TO_ROLL_BACK"
  pure ⟨change.changeId, input.runId, .rolledBack, .rolledBack⟩

/-- The health of a rollback, which passes when nothing checks it. -/
def checkRollback : Apply Bool :=
  if dependencies.rollbackHealth then
    attempt (perform (Effect.rollbackHealth input.runId change.checkIds))
  else pure true

/-- Restore the sources of a run that has begun to write. -/
def rollBack (snapshot : SnapshotPayload) : Apply ApplyCoordinatorResult := do
  emit change.changeId input.runId .rollingBack "ROLLBACK_STARTED"
  attempt (perform (Effect.restoreSnapshot change input.runId snapshot))
  change.actionIds.forM fun actionId =>
    whenever dependencies.rollbackAction (attempt (perform (Effect.rollbackAction input.runId actionId)))
  let passed ← checkRollback dependencies input change
  require passed (.coordinator .applyFailed false)
  emit change.changeId input.runId .rolledBack "ROLLBACK_HEALTH_PASSED"
  pure ⟨change.changeId, input.runId, .rolledBack, .rolledBack⟩

/-- The error of a run that has not started. -/
def preconditionError (error : Thrown) : Thrown :=
  match error with
  | .coordinator _ _ => error
  | .error _ =>
    .coordinator (if errorCode error = .configSourceChanged then .configSourceChanged
      else .applyPreconditionFailed) false

/-- The `catch` block of `performApply`. -/
def recoverApply (error : Thrown) : Apply ApplyCoordinatorResult := do
  let held ← locals
  match held.change, held.machine with
  | some change, some _ =>
    match held.snapshot, held.writeStarted with
    | some snapshot, true =>
      tryCatch (rollBack dependencies input change snapshot) fun _ => do
        whenever dependencies.snapshotStore
          (ignoring (attempt (perform (Effect.markRollbackFailed (snapshotIdOf input)))))
        reportRollbackFailed dependencies input change
    | _, _ =>
      tryCatch (rollBackNothing input change) fun _ =>
        reportRollbackFailed dependencies input change
  | _, _ => throw (preconditionError error)

/-- The `finally` block of `performApply`. -/
def releaseAll : Apply Unit := do
  let held ← locals
  held.releases.reverse.forM fun lock => ignoring (attempt (perform (Effect.releaseLock lock)))
  match held.change with
  | some change => perform (Effect.leave change.appId)
  | none => pure ()

def performApply : Program Effect Effect.Answer (Except Thrown ApplyCoordinatorResult) :=
  (tryFinally (tryCatch (applyStaged dependencies input) (recoverApply dependencies input))
    releaseAll ⟨none, false, none, none, []⟩).bind fun ended => .ret ended.1

end

end NancyMan.Agent
