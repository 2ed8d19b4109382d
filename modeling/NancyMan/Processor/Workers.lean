import NancyMan.Processor.Issues

/-!
# Processor workers

Any number of workers share one database. `runProcessorOnce` claims an envelope, processes it, and
after a failure puts the envelope back or makes it a dead letter; between these transactions other
workers take theirs, `releaseExpiredClaims` may run, and the worker may crash.
-/
namespace NancyMan.Processor

/-- The attempts after which an envelope becomes a dead letter: the queue's own option and the one
`runProcessorOnce` is given. -/
structure AttemptLimits where
  queueMaxAttempts : Nat := 10
  maxAttempts : Nat := 10

/-- What a worker is about to do. -/
inductive WorkerPhase where
  | idle
  /-- It holds a claim and has not yet processed the envelope. -/
  | processing (claimed : ClaimedEnvelope)
  /-- Processing has failed, and it has not yet recorded the failure. -/
  | failing (claimed : ClaimedEnvelope)
  /-- It has claimed a payload that is not an envelope. -/
  | rejecting (envelopeId attemptCount : Nat)

/-- The database with the workers by their identifiers. -/
structure Workers where
  database : Database
  phases : String → WorkerPhase

def Workers.empty : Workers := ⟨Database.empty, fun _ => .idle⟩

/-- A transaction, or the end of a worker. -/
inductive ProcessorStep where
  /-- An envelope is accepted. -/
  | insertRaw (receivedAt : Int) (ingestClientId : String) (payload : Json)
  /-- The claim of `runProcessorOnce`, while other transactions hold some rows locked. -/
  | claimNext (workerId : String) (now : Int) (locked : List Nat)
  /-- `processEnvelope`; the worker may not learn that the transaction has committed. -/
  | processEnvelope (workerId : String) (frames : Option (List String)) (databaseNow : Int)
      (acknowledged : Bool)
  /-- `processEnvelope` is undone by an exception from outside. -/
  | fail (workerId : String)
  /-- What `runProcessorOnce` does after a failure, or `claimNext` after a malformed payload. -/
  | recordFailure (workerId : String) (now : Int)
  | releaseExpiredClaims (now : Int)
  | crash (workerId : String)

namespace Workers

variable (workers : Workers) (workerId : String)

def enter (phase : WorkerPhase) : Workers :=
  { workers with phases := Function.update workers.phases workerId phase }

/-- The envelope that `claimNext` returns for a claimed row and its unpacked payload. -/
def claimedEnvelope (row : ProcessingRow) (unpacked : Json × Option SignedIdentity) :
    ClaimedEnvelope where
  envelopeId := row.envelopeId
  receivedAt := row.receivedAt
  ingestClientId := row.ingestClientId
  attemptCount := row.attemptCount
  envelope := unpacked.1
  identity := unpacked.2

variable (rules : EventRules)

/-- The phase of a worker after the statement of `claimNext`. -/
def claimedPhase : Option ProcessingRow → WorkerPhase
  | none => .idle
  | some row =>
    match unpackPayload rules.text row.payload with
    | none => .rejecting row.envelopeId (row.attemptCount + 1)
    | some unpacked => .processing (claimedEnvelope row unpacked)

variable (processing : ProcessingTable)

/-- The workers with another queue. -/
def withQueue (deadLetters : List DeadLetter) : Workers :=
  { workers with database := { workers.database with
      processing := processing, deadLetters := deadLetters } }

def withRows : Workers :=
  workers.withQueue processing workers.database.deadLetters

/-- `claimNext`, up to the end of its statement. -/
def claimNext (workers : Workers) (workerId : String) (now : Int) (locked : List Nat) : Workers :=
  match workers.phases workerId with
  | .idle =>
    let claim := claimRow workers.database.processing workerId now locked
    (workers.withRows claim.1).enter workerId (claimedPhase rules claim.2)
  | _ => workers

/-- The envelope that a worker processes. -/
def held : Option ClaimedEnvelope :=
  match workers.phases workerId with
  | .processing claimed => some claimed
  | _ => none

/-- A worker after its transaction: undone by an exception, or committed. -/
def settle (claimed : ClaimedEnvelope) (acknowledged : Bool) :
    Except ProcessingError (Database × ProcessedEnvelope) → Workers
  | .error _ => workers.enter workerId (.failing claimed)
  | .ok (database, _) =>
    { workers with database := database }.enter workerId
      (if acknowledged then .idle else .failing claimed)

/-- The transaction of a worker that has claimed an envelope. -/
def process (workers : Workers) (workerId : String) (frames : Option (List String))
    (databaseNow : Int) (acknowledged : Bool) : Workers :=
  match workers.held workerId with
  | some claimed =>
    workers.settle workerId claimed acknowledged
      (processEnvelope rules workers.database claimed frames databaseNow)
  | none => workers

/-- An exception before the transaction of a worker commits. -/
def fail : Workers :=
  match workers.held workerId with
  | some claimed => workers.enter workerId (.failing claimed)
  | none => workers

/-- `deadLetterPayload`, on the tables. -/
def deadLetter (input : DeadLetterInput) : Workers :=
  let ended := deadLetterPayload workers.database.processing workers.database.deadLetters input
  workers.withQueue ended.1 ended.2

variable (limits : AttemptLimits)

/-- `markRetry`, on the tables. -/
def retry (workers : Workers) (envelopeId : Nat) (now : Int) : Workers :=
  workers.withRows
    (markRetry limits.queueMaxAttempts workers.database.processing envelopeId now)

/-- The end of an attempt that failed. -/
def recordFailure (workers : Workers) (workerId : String) (now : Int) : Workers :=
  match workers.phases workerId with
  | .failing claimed =>
    let ended :=
      if claimed.attemptCount + 1 ≥ limits.maxAttempts then
        workers.deadLetter ⟨claimed.envelopeId, .object [("envelope", claimed.envelope)],
          claimed.attemptCount + 1, now, .processingFailed⟩
      else workers.retry limits claimed.envelopeId now
    ended.enter workerId .idle
  | .rejecting envelopeId attemptCount =>
    let ended :=
      if attemptCount ≥ limits.queueMaxAttempts then
        workers.deadLetter ⟨envelopeId, .object [("malformedPayload", .boolean true)],
          attemptCount, now, .ingestPayloadInvalid⟩
      else workers.retry limits envelopeId now
    ended.enter workerId .idle
  | _ => workers

/-- One step of the workers. -/
def step (workers : Workers) : ProcessorStep → Workers
  | .insertRaw receivedAt ingestClientId payload =>
    workers.withRows
      (Processor.insertRaw workers.database.processing receivedAt ingestClientId payload)
  | .claimNext workerId now locked => workers.claimNext rules workerId now locked
  | .processEnvelope workerId frames databaseNow acknowledged =>
    workers.process rules workerId frames databaseNow acknowledged
  | .fail workerId => workers.fail workerId
  | .recordFailure workerId now => workers.recordFailure limits workerId now
  | .releaseExpiredClaims now =>
    workers.withRows (Processor.releaseExpiredClaims workers.database.processing now)
  | .crash workerId => workers.enter workerId .idle

/-- What `processEnvelope` returns to the worker. -/
def answer (workers : Workers) : ProcessorStep → Option ProcessedEnvelope
  | .processEnvelope workerId frames databaseNow true =>
    (workers.held workerId).bind fun claimed =>
      (processEnvelope rules workers.database claimed frames databaseNow).toOption.map Prod.snd
  | _ => none

/-- A step with its answer. -/
def act (workers : Workers) (step : ProcessorStep) : Workers × Option ProcessedEnvelope :=
  (workers.step rules limits step, workers.answer rules step)

end Workers

end NancyMan.Processor
