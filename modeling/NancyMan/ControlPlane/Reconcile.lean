import NancyMan.Lib.Machine
import NancyMan.ControlPlane.Repository

/-!
# Reconciling the control plane with the agent

A poll reads the status of a change from the agent, with the history of its run, and
`reconcileAgentStatus` replays that history against the record. The rows are passed along
explicitly, since a poll that fails keeps the transitions it has already made.
-/
namespace NancyMan.ControlPlane

/-- `ChangeStatusEvent`: what the reconciliation reads of it. -/
structure AgentEvent where
  eventId : String
  state : ChangeState
  reasonCode : String
  /-- The agent's reason codes are result codes in lower case. -/
  coded : resultCodeAccepted (upperCase reasonCode) = true

/-- `ChangeStatusResponse`: what the reconciliation reads of it. -/
structure ChangeStatusResponse where
  state : ChangeState
  sequence : Nat
  events : List AgentEvent

variable {Id : Type} [DecidableEq Id]

def eventSeed (changeId eventId : String) : String := changeId ++ ":" ++ eventId

variable (hash : SeedHash Id)

def SeedHash.transitionId (seed : String) : Id :=
  hash.databaseUuid ("config-reconcile-transition:" ++ seed)

def SeedHash.eventId (seed : String) : Id :=
  hash.databaseUuid ("config-reconcile-event:" ++ seed)

def SeedHash.runId (changeId : String) : Id :=
  hash.databaseUuid ("config-reconcile-run:" ++ changeId)

/-- What `transitionDatabase` asks of the repository. -/
def reconcileInput (record : ConfigChangeRecord) (event : AgentEvent) (seed : String) :
    TransitionInput Id where
  changeId := record.id
  applicationId := record.applicationId
  transitionId := hash.transitionId seed
  eventId := hash.eventId seed
  runId := hash.runId record.id
  actorUserId := record.actorUserId
  actorSessionId := record.actorSessionId
  expectedVersion := record.version
  target := event.state
  resultCode := if event.reasonCode = "" then none else some (upperCase event.reasonCode)

/-- `transitionDatabase`: the record as the runtime adapts it from the repository's result. -/
def transitionDatabase (now : Int) (db : Database Id) (record : ConfigChangeRecord)
    (event : AgentEvent) (seed : String) : Except ChangeError (Database Id × ConfigChangeRecord) :=
  if record.state = event.state then .ok (db, record)
  else
    match transition db now (reconcileInput hash record event seed) with
    | .error error => .error error
    | .ok (rows, result) =>
      .ok (rows,
        { id := result.changeId
          applicationId := result.applicationId
          actorUserId := record.actorUserId
          actorSessionId := record.actorSessionId
          state := result.state
          version := result.version })

def findById (db : Database Id) (changeId : String) : Option ConfigChangeRecord :=
  if db.change.id = changeId then some db.change else none

/-- The loop of `reconcileAgentStatus`: the rows it leaves, and the record or the error. -/
def reconcileEvents (hash : SeedHash Id) (now : Int) (changeId : String) :
    Database Id → ConfigChangeRecord → List AgentEvent →
      Database Id × Except ChangeError ConfigChangeRecord
  | db, current, [] => (db, .ok current)
  | db, current, event :: rest =>
    if event.state = current.state then reconcileEvents hash now changeId db current rest
    else
      match transitionDatabase hash now db current event (eventSeed changeId event.eventId) with
      | .ok (rows, next) => reconcileEvents hash now changeId rows next rest
      | .error error =>
        match findById db changeId with
        | none => (db, .error error)
        | some refreshed =>
          if refreshed.state = event.state then
            reconcileEvents hash now changeId db refreshed rest
          else (db, .error error)

def rollbackIncidentTitle (applicationId : String) : String :=
  "Configuration rollback failed for " ++ applicationId

/-- The end of `reconcileAgentStatus`, which blocks the application of a failed rollback. -/
def reconcileBlock (db : Database Id) (record : ConfigChangeRecord)
    (response : ChangeStatusResponse) : Except ChangeError (Database Id) :=
  if response.state = .rollbackFailed then
    match blockApplication db with
    | .error error => .error error
    | .ok (rows, blocked) =>
      if blocked then
        .ok { rows with
          incidents := rows.incidents ++ [rollbackIncidentTitle record.applicationId] }
      else .ok rows
  else .ok db

def reconcileAgentStatus (now : Int) (db : Database Id) (record : ConfigChangeRecord)
    (response : ChangeStatusResponse) : Database Id × Except ChangeError ConfigChangeRecord :=
  match reconcileEvents hash now record.id db record response.events with
  | (rows, .error error) => (rows, .error error)
  | (rows, .ok current) =>
    match reconcileBlock rows record response with
    | .error error => (rows, .error error)
    | .ok blockedRows => (blockedRows, .ok current)

/-- One poll of a status response: the record is read and reconciled. -/
def poll (now : Int) (db : Database Id) (response : ChangeStatusResponse) :
    Database Id × Except ChangeError ConfigChangeRecord :=
  reconcileAgentStatus hash now db db.change response

end NancyMan.ControlPlane
