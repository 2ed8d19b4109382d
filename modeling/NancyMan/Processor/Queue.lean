import NancyMan.Lib.IdTable
import NancyMan.Lib.JsonObject
import NancyMan.Lib.Tables

/-!
# The queue of accepted envelopes

`PostgresProcessorQueue` keeps a row of `ingest_processing` for each accepted envelope. A worker
claims the oldest row that is ready, and the row stays claimed until its envelope is processed, is
put back for a later attempt or becomes a dead letter; a claim that is older than five minutes is
released. Every function here is one statement or one transaction of the database. Envelope
identifiers are numbers, drawn anew for each envelope, and times are milliseconds.
-/
namespace NancyMan.Processor

/-- The check of `ingest_processing.state`. -/
inductive ProcessingState where
  | pending
  | claimed
  | processed
  | retrying
  | deadLettered
deriving DecidableEq

/-- The codes of `last_error_code`. -/
inductive ErrorCode where
  | processingRetryLimit
  | processingFailed
  | claimTimeout
  | ingestPayloadInvalid

/-- A row of `ingest_processing` with the columns of its envelope that a claim returns. -/
structure ProcessingRow where
  envelopeId : Nat
  receivedAt : Int
  ingestClientId : String
  payload : Json
  state : ProcessingState
  attemptCount : Nat
  nextAttemptAt : Option Int
  claimedAt : Option Int
  claimedBy : Option String
  processedAt : Option Int
  completedAt : Option Int
  lastErrorCode : Option ErrorCode

/-- `ingest_processing`. -/
abbrev ProcessingTable := IdTable ProcessingRow ProcessingRow.envelopeId

/-- A row of `ingest_dead_letters`. -/
structure DeadLetter where
  envelopeId : Nat
  receivedAt : Int
  failureCode : ErrorCode
  payload : Json
  retryCount : Nat

/-- The row that `insertRaw` adds for an accepted envelope. -/
def acceptedRow (receivedAt : Int) (ingestClientId : String) (payload : Json) (id : Nat) :
    ProcessingRow where
  envelopeId := id
  receivedAt := receivedAt
  ingestClientId := ingestClientId
  payload := payload
  state := .pending
  attemptCount := 0
  nextAttemptAt := none
  claimedAt := none
  claimedBy := none
  processedAt := none
  completedAt := none
  lastErrorCode := none

variable (table : ProcessingTable)

/-- `insertRaw`, of an envelope that is not a duplicate. -/
def insertRaw (receivedAt : Int) (ingestClientId : String) (payload : Json) : ProcessingTable :=
  table.insert (acceptedRow receivedAt ingestClientId payload) fun _ => rfl

/-! ## Claims -/

variable (now : Int)

/-- A row that `claimNext` may select: pending or retrying, and due. -/
def ProcessingRow.isReady (row : ProcessingRow) : Bool :=
  (row.state == .pending || row.state == .retrying) &&
    match row.nextAttemptAt with
    | none => true
    | some nextAttemptAt => decide (nextAttemptAt ≤ now)

/-- `ORDER BY processing.received_at ASC`. -/
def ProcessingRow.notAfter (left right : ProcessingRow) : Bool :=
  decide (left.receivedAt ≤ right.receivedAt)

/-- The row that `claimNext` selects, past the rows that other transactions have locked. -/
def nextEnvelope (locked : List Nat) : Option ProcessingRow :=
  (firstOf ProcessingRow.notAfter 1
    (table.rows.filter fun row => row.isReady now && !locked.contains row.envelopeId)).head?

def ProcessingRow.claim (workerId : String) (now : Int) (row : ProcessingRow) : ProcessingRow :=
  { row with state := .claimed, claimedAt := some now, claimedBy := some workerId }

/-- The statement of `claimNext`: the table it leaves and the row it returns, with the attempts
before the claim. -/
def claimRow (workerId : String) (now : Int) (locked : List Nat) :
    ProcessingTable × Option ProcessingRow :=
  match nextEnvelope table now locked with
  | none => (table, none)
  | some row =>
    (table.updateWhere (fun other => other.envelopeId == row.envelopeId)
      (ProcessingRow.claim workerId now) (fun _ => rfl), some row)

structure SignedIdentity where
  userRef : String
  role : String
  displayLabel : String
  sessionHash : String

def isStringProperty (value : Json) (name : String) : Bool :=
  ((value.property? name).bind Json.string?).isSome

def isRecordProperty (value : Json) (name : String) : Bool :=
  ((value.property? name).map Json.isRecord).getD false

section Payloads

-- `String(value)` of a JSON value.
variable (text : Json → String)

/-- Whether a property is the number one. -/
def isOneProperty (value : Json) (name : String) : Bool :=
  match value.property? name with
  | some (.number literal) => text (.number literal) == "1"
  | _ => false

/-- `String(value[name] ?? '')`. -/
def textProperty (value : Json) (name : String) : String :=
  match value.property? name with
  | none | some .null => ""
  | some found => text found

/-- The identity of a payload, if it is complete. -/
def unpackIdentity (payload : Json) : Option SignedIdentity :=
  match payload.property? "identity" with
  | some (.object properties) =>
    let read := textProperty text (.object properties)
    let identity : SignedIdentity :=
      ⟨read "userRef", read "role", read "displayLabel", read "sessionHash"⟩
    if identity.userRef ≠ "" ∧ identity.role ≠ "" ∧ identity.displayLabel ≠ "" ∧
        identity.sessionHash ≠ "" then
      some identity
    else none
  | _ => none

/-- Whether a value has the properties of an envelope that `unpackPayload` checks. -/
def isEnvelope (envelope : Json) : Bool :=
  isOneProperty text envelope "schemaVersion" && isStringProperty envelope "eventId" &&
    isStringProperty envelope "idempotencyKey" && isRecordProperty envelope "error" &&
    isRecordProperty envelope "context"

/-- `unpackPayload`: the envelope of a stored payload and its identity. -/
def unpackPayload (payload : Json) : Option (Json × Option SignedIdentity) :=
  match payload.property? "envelope" with
  | some envelope =>
    if envelope.isRecord && isEnvelope text envelope then
      some (envelope, unpackIdentity text payload)
    else none
  | none => none

end Payloads

/-! ## The ends of a claim -/

/-- A claimed row of an envelope, which `markRetry`, `deadLetter` and `markProcessed` change. -/
def ProcessingRow.isClaimOf (envelopeId : Nat) (row : ProcessingRow) : Bool :=
  row.envelopeId == envelopeId && row.state == .claimed

variable (maxAttempts : Nat)

/-- A row as `markRetry` leaves it. -/
def ProcessingRow.retry (now : Int) (row : ProcessingRow) : ProcessingRow :=
  if row.attemptCount + 1 ≥ maxAttempts then
    { row with
      state := .deadLettered, attemptCount := row.attemptCount + 1, nextAttemptAt := none,
      claimedAt := none, claimedBy := none, completedAt := some now,
      lastErrorCode := some .processingRetryLimit }
  else
    { row with
      state := .retrying, attemptCount := row.attemptCount + 1,
      nextAttemptAt := some (now + 60000), claimedAt := none, claimedBy := none,
      completedAt := none, lastErrorCode := some .processingFailed }

theorem ProcessingRow.retry_envelopeId (now : Int) (row : ProcessingRow) :
    (row.retry maxAttempts now).envelopeId = row.envelopeId := by
  unfold retry
  split <;> rfl

def markRetry (table : ProcessingTable) (envelopeId : Nat) (now : Int) : ProcessingTable :=
  table.updateWhere (ProcessingRow.isClaimOf envelopeId) (ProcessingRow.retry maxAttempts now)
    (ProcessingRow.retry_envelopeId maxAttempts now)

/-- Whether a row has been claimed for more than five minutes. -/
def ProcessingRow.isExpired (row : ProcessingRow) : Bool :=
  row.state == .claimed &&
    match row.claimedAt with
    | none => false
    | some claimedAt => decide (claimedAt < now - 300000)

/-- A row as `releaseExpiredClaims` leaves it. -/
def ProcessingRow.release (row : ProcessingRow) : ProcessingRow :=
  { row with
    state := .retrying, nextAttemptAt := some now, claimedAt := none, claimedBy := none,
    lastErrorCode := some .claimTimeout }

def releaseExpiredClaims : ProcessingTable :=
  table.updateWhere (ProcessingRow.isExpired now) (ProcessingRow.release now) fun _ => rfl

/-- What `deadLetterPayload` is given. -/
structure DeadLetterInput where
  envelopeId : Nat
  payload : Json
  attemptCount : Nat
  now : Int
  failureCode : ErrorCode

/-- A row as `deadLetterPayload` leaves it. -/
def ProcessingRow.deadLetter (input : DeadLetterInput) (row : ProcessingRow) : ProcessingRow :=
  { row with
    state := .deadLettered, attemptCount := max row.attemptCount input.attemptCount,
    nextAttemptAt := none, claimedAt := none, claimedBy := none, completedAt := some input.now,
    lastErrorCode := some input.failureCode }

/-- `deadLetterPayload`: the dead letter is written only if the row was still claimed. -/
def deadLetterPayload (deadLetters : List DeadLetter) (input : DeadLetterInput) :
    ProcessingTable × List DeadLetter :=
  if table.rows.any (ProcessingRow.isClaimOf input.envelopeId) then
    (table.updateWhere (ProcessingRow.isClaimOf input.envelopeId) (ProcessingRow.deadLetter input)
        (fun _ => rfl),
      deadLetters ++
        [⟨input.envelopeId, input.now, input.failureCode, input.payload, input.attemptCount⟩])
  else (table, deadLetters)

/-- A row as `markProcessed` leaves it, at the database's time. -/
def ProcessingRow.complete (databaseNow : Int) (row : ProcessingRow) : ProcessingRow :=
  { row with
    state := .processed, processedAt := some databaseNow, completedAt := some databaseNow,
    claimedBy := none }

/-- `markProcessed`, which changes no row when the envelope is not claimed. -/
def markProcessed (envelopeId : Nat) (databaseNow : Int) : ProcessingTable :=
  table.updateWhere (ProcessingRow.isClaimOf envelopeId) (ProcessingRow.complete databaseNow)
    fun _ => rfl

end NancyMan.Processor
