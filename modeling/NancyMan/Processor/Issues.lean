import NancyMan.Processor.Queue
import NancyMan.Lib.Fallible

/-!
# Issues and their occurrences

`processEnvelope` records one accepted envelope: it finds or creates the issue of the event's
fingerprint, inserts an occurrence, counts it and marks the envelope processed, all in one
transaction. The transaction locks the issue's row, so two of one issue run one after the other,
and an exception undoes everything it did.
-/
namespace NancyMan.Processor

inductive IssueStatus where
  | new
  | acknowledged
  | investigating
  | resolved
  | ignored
  | regressed
deriving DecidableEq

/-- A row of `error_issues`. -/
structure Issue where
  id : Nat
  fingerprint : String
  status : IssueStatus
  occurrenceCount : Nat
  affectedUserCount : Nat
  firstSeenAt : Int
  lastSeenAt : Int

/-- A row of `error_events`, which has no unique column of its envelope. -/
structure ErrorEvent where
  occurredAt : Int
  receivedAt : Int
  eventId : String
  issueId : Nat
  ingestClientId : String
  userReference : Option String

/-- A row of `error_issue_affected_users`. -/
structure AffectedUser where
  issueId : Nat
  userReference : String
  firstSeenAt : Int

/-- `activity_type`, as the processor writes it. -/
inductive ActivityType where
  | created
  | regressed

/-- A row of `error_issue_activity`. -/
structure IssueActivity where
  issueId : Nat
  activityType : ActivityType
  occurredAt : Int

/-- The tables of the processor. -/
structure Database where
  processing : ProcessingTable
  deadLetters : List DeadLetter
  issues : IdTable Issue Issue.id
  errorEvents : List ErrorEvent
  affectedUsers : List AffectedUser
  activity : List IssueActivity

def Database.empty : Database := ⟨IdTable.empty, [], IdTable.empty, [], [], []⟩

/-- `NormalizedEvent`, with the properties that are stored in a column read here or in the
fingerprint. An optional property that is empty is left out. -/
structure NormalizedEvent where
  eventId : String
  occurredAt : Int
  receivedAt : Int
  errorCode : String
  exceptionType : String
  service : String
  ingestClientId : Option String
  route : Option String
  userRef : Option String
  tags : List (String × String)
  stackFrames : List String
  stackTrace : Option String

/-- What `claimNext` returns for an envelope that is well formed. -/
structure ClaimedEnvelope where
  envelopeId : Nat
  receivedAt : Int
  ingestClientId : String
  attemptCount : Nat
  envelope : Json
  identity : Option SignedIdentity

/-- The pure functions that the processor calls on an event. -/
structure EventRules where
  /-- `String(value)`. -/
  text : Json → String
  /-- `normalizeEvent`, or `none` where it throws. -/
  normalizeEvent : ClaimedEnvelope → Option NormalizedEvent
  /-- `fingerprintEvent`. -/
  fingerprintEvent : NormalizedEvent → String

/-- Why a transaction is undone. -/
inductive ProcessingError where
  | notNormalized
  | missingIngestClient
  | issueNotLocked

namespace Database

variable (database : Database) (fingerprint : String)

def findIssue : Option Issue :=
  database.issues.rows.find? fun issue => issue.fingerprint == fingerprint

/-- The row that `createIssue` inserts. -/
def createdIssue (event : NormalizedEvent) (id : Nat) : Issue where
  id := id
  fingerprint := fingerprint
  status := .new
  occurrenceCount := 0
  affectedUserCount := 0
  firstSeenAt := event.occurredAt
  lastSeenAt := event.occurredAt

/-- The tables after the insertions of `createIssue`. -/
def insertIssue (event : NormalizedEvent) : Database :=
  { database with
    issues := database.issues.insert (createdIssue fingerprint event) fun _ => rfl
    activity := database.activity ++ [⟨database.issues.nextId, .created, event.occurredAt⟩] }

/-- `createIssue`: the tables, the issue and whether it is new. -/
def createIssue (event : NormalizedEvent) : Except ProcessingError (Database × Issue × Bool) :=
  if database.issues.rows.any fun issue => issue.fingerprint == fingerprint then
    -- ON CONFLICT (fingerprint) DO NOTHING
    match database.findIssue fingerprint with
    | some issue => .ok (database, issue, false)
    | none => .error .issueNotLocked
  else
    .ok (database.insertIssue fingerprint event,
      createdIssue fingerprint event database.issues.nextId, true)

/-- `insertOccurrence`'s answer. -/
structure Occurrence where
  inserted : Bool
  newAffectedUser : Bool

variable (issueId : Nat)

/-- The row that `insertOccurrence` inserts. -/
def occurrenceRow (ingestClientId : String) (event : NormalizedEvent) : ErrorEvent where
  occurredAt := event.occurredAt
  receivedAt := event.receivedAt
  eventId := event.eventId
  issueId := issueId
  ingestClientId := ingestClientId
  userReference := event.userRef

/-- Whether a user is recorded as affected by an issue. -/
def isAffected (userReference : String) : Bool :=
  database.affectedUsers.any fun row =>
    row.issueId == issueId && row.userReference == userReference

/-- The insertion into `error_issue_affected_users`: the tables and whether the user is new. -/
def insertAffectedUser (event : NormalizedEvent) : Database × Bool :=
  match event.userRef with
  | none => (database, false)
  | some userReference =>
    if database.isAffected issueId userReference then (database, false)
    else
      ({ database with
          affectedUsers := database.affectedUsers ++ [⟨issueId, userReference, event.occurredAt⟩] },
        true)

/-- `insertOccurrence`: nothing keeps a second row of one event out, so it always inserts. -/
def insertOccurrence (event : NormalizedEvent) : Except ProcessingError (Database × Occurrence) :=
  match event.ingestClientId with
  | none => .error .missingIngestClient
  | some ingestClientId =>
    let inserted := { database with
      errorEvents := database.errorEvents ++ [occurrenceRow issueId ingestClientId event] }
    let affected := inserted.insertAffectedUser issueId event
    .ok (affected.1, ⟨true, affected.2⟩)

/-- What `updateIssue` is given. -/
structure IssueUpdate where
  issueId : Nat
  status : IssueStatus
  occurrenceCount : Nat
  affectedUserCount : Nat
  lastSeenAt : Int

/-- A row as `updateIssue` leaves it. -/
def applyUpdate (input : IssueUpdate) (issue : Issue) : Issue :=
  { issue with
    status := input.status, occurrenceCount := input.occurrenceCount,
    affectedUserCount := input.affectedUserCount, lastSeenAt := input.lastSeenAt }

def updateIssue (input : IssueUpdate) : Database :=
  { database with
    issues := database.issues.updateWhere (fun issue => issue.id == input.issueId)
      (applyUpdate input) fun _ => rfl }

def appendActivity (occurredAt : Int) : Database :=
  { database with activity := database.activity ++ [⟨issueId, .regressed, occurredAt⟩] }

/-- `markProcessed`, on the tables. -/
def completeEnvelope (envelopeId : Nat) (databaseNow : Int) : Database :=
  { database with processing := markProcessed database.processing envelopeId databaseNow }

/-- `nextStatus`: a resolved issue regresses. -/
def nextStatus (status : IssueStatus) : IssueStatus :=
  if status = .resolved then .regressed else status

/-- The update of an issue for one more occurrence. -/
def countOccurrence (issue : Issue) (occurrence : Occurrence) (event : NormalizedEvent) :
    IssueUpdate where
  issueId := issue.id
  status := nextStatus issue.status
  occurrenceCount := issue.occurrenceCount + 1
  affectedUserCount := issue.affectedUserCount + (if occurrence.newAffectedUser then 1 else 0)
  lastSeenAt := event.occurredAt

/-- What follows an inserted occurrence: the activity of a regression and the issue's update. -/
def recordOccurrence (issue : Issue) (occurrence : Occurrence) (event : NormalizedEvent) :
    Database :=
  let regressed := nextStatus issue.status = .regressed ∧ issue.status ≠ .regressed
  let noted := if regressed then database.appendActivity issue.id event.occurredAt else database
  noted.updateIssue (countOccurrence issue occurrence event)

end Database

/-- What `processEnvelope` returns. -/
structure ProcessedEnvelope where
  issueId : Nat
  fingerprint : String
  duplicate : Bool
  stateChange : Option ActivityType
  shouldNotify : Bool

/-- An event with the frames of its source map, if it has a stack and the maps are there. -/
def symbolicated (event : NormalizedEvent) (frames : Option (List String)) : NormalizedEvent :=
  match event.stackTrace, frames with
  | some _, some frames => { event with stackFrames := frames }
  | _, _ => event

/-- `stateChange` at the end of a transaction. -/
def stateChange (issue : Issue) (created : Bool) : Option ActivityType :=
  if Database.nextStatus issue.status = .regressed ∧ issue.status ≠ .regressed then some .regressed
  else if created then some .created
  else none

/-- The issue that a transaction counts the occurrence for. -/
def lockIssue (database : Database) (fingerprint : String) (event : NormalizedEvent) :
    Except ProcessingError (Database × Issue × Bool) :=
  match database.findIssue fingerprint with
  | some issue => .ok (database, issue, false)
  | none => database.createIssue fingerprint event

/-- The transaction of `processEnvelope`. -/
def recordEnvelope (database : Database) (envelopeId : Nat) (fingerprint : String)
    (event : NormalizedEvent) (databaseNow : Int) :
    Except ProcessingError (Database × ProcessedEnvelope) := do
  let (database, issue, created) ← lockIssue database fingerprint event
  let (database, occurrence) ← database.insertOccurrence issue.id event
  if !occurrence.inserted then
    return (database.completeEnvelope envelopeId databaseNow,
      ⟨issue.id, fingerprint, true, none, false⟩)
  let database := database.recordOccurrence issue occurrence event
  let change := stateChange issue created
  return (database.completeEnvelope envelopeId databaseNow,
    ⟨issue.id, fingerprint, false, change,
      decide (Database.nextStatus issue.status ≠ .ignored) && change.isSome⟩)

/-- `processEnvelope`, with the frames of the source maps where there are any. -/
def processEnvelope (rules : EventRules) (database : Database) (claimed : ClaimedEnvelope)
    (frames : Option (List String)) (databaseNow : Int) :
    Except ProcessingError (Database × ProcessedEnvelope) :=
  match rules.normalizeEvent claimed with
  | none => .error .notNormalized
  | some normalized =>
    let event := symbolicated normalized frames
    recordEnvelope database claimed.envelopeId (rules.fingerprintEvent event) event databaseNow

end NancyMan.Processor
