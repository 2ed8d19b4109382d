import NancyMan.Ingest.IngestStore
import NancyMan.Telemetry.SpoolRecord

/-!
# Ingest of a server's envelopes

`createServerIngestService` stores one envelope or a batch of them. The envelopes of a batch are
stored at once, each in its own transaction, and answered together when all are stored; a transaction
that throws makes the whole answer throw, while the others are still committed. The authentication of
a request is given by its outcome.
-/
namespace NancyMan.Ingest

open Telemetry (SanitizerRules TelemetryEnvelope sanitizeTelemetry textPasses isIngestEventId
  isIngestIdempotencyKey textOf readableSources)

/-- The functions that the service calls. -/
structure IngestRules where
  sanitizer : SanitizerRules
  /-- `hash`. -/
  hash : String → String
  /-- Whether the number that a literal denotes is one. -/
  isOne : Numeral → Bool

/-- What is reported for an envelope. -/
inductive ItemResult where
  | accepted (eventId : String) (duplicate : Bool)
  | rejected (code : String)
deriving DecidableEq

structure ServerIngestResult where
  status : Nat
  result : ItemResult

inductive ServerBatchResult where
  | failed (status : Nat) (code : String)
  | stored (status accepted rejected : Nat) (results : List ItemResult)
deriving DecidableEq

section Service

variable (rules : IngestRules)

/-- `isValidEnvelope`, of a record. -/
def isValidEnvelope (input : Json) : Bool :=
  (match input.property? "schemaVersion" with
    | some (.number literal) => rules.isOne literal
    | _ => false) &&
    textPasses input "eventId" isIngestEventId &&
    textPasses input "idempotencyKey" isIngestIdempotencyKey &&
    textPasses input "source" fun text => readableSources.contains text

def filledText (text : Option String) : Option String := text.filter fun text => text != ""

/-- The record that `storeEnvelope` stores. -/
def recordOf (ingestClientId : String) (input : Json) (receivedAt : Int) : RawIngestRecord :=
  let envelope := sanitizeTelemetry rules.sanitizer input
  { receivedAt := receivedAt
    ingestClientId := ingestClientId
    idempotencyKey := envelope.idempotencyKey
    eventId := envelope.eventId
    source := (textOf input "source").getD ""
    requestId := filledText envelope.context.requestId
    traceId := filledText envelope.context.traceId
    payload := .object [("envelope", envelope.toJson)]
    payloadHash := rules.hash envelope.toJson.render }

variable (store : IngestStore)

def storeEnvelope (ingestClientId : String) (input : Json) (receivedAt : Int) :
    Except IngestError (IngestStore × ItemResult) :=
  if !(input.isRecord && isValidEnvelope rules input) then
    .ok (store, .rejected "INVALID_ENVELOPE")
  else
    let record := recordOf rules ingestClientId input receivedAt
    (store.insertRaw record).map fun stored => (stored.1, .accepted record.eventId stored.2)

variable (rawBody : String)

def parseEnvelope : Option Json := (Json.parse rawBody).filter Json.isRecord

def parseBatch : Option (List Json) :=
  match Json.parse rawBody with
  | some (.array items) => some items
  | _ => none

/-- `Buffer.byteLength`. -/
def bodySize : Nat := Utf8.byteLength rawBody.toList

variable (authenticated : Except String String)

/-- `ingest`: the tables and the result. -/
def ingest (rawBody : String) (receivedAt : Int) :
    Except IngestError (IngestStore × ServerIngestResult) :=
  if 512 * 1024 < bodySize rawBody then
    .ok (store, ⟨413, .rejected "PAYLOAD_TOO_LARGE"⟩)
  else
    match authenticated with
    | .error code => .ok (store, ⟨401, .rejected code⟩)
    | .ok ingestClientId =>
      (storeEnvelope rules store ingestClientId ((parseEnvelope rawBody).getD .null) receivedAt).map
        fun stored => (stored.1,
          ⟨(match stored.2 with
            | .accepted .. => 202
            | .rejected _ => 400), stored.2⟩)

/-- The tables after the transaction of an item. -/
def storeAfter (ingestClientId : String) (input : Json) (receivedAt : Int) : IngestStore :=
  match storeEnvelope rules store ingestClientId input receivedAt with
  | .ok stored => stored.1
  | .error _ => store

/-- An item of a batch at its place, with the tables that its transaction meets. -/
structure Turn where
  met : IngestStore
  item : Json
  place : Nat

/-- The items of a batch in the order of their transactions. -/
def turns (ingestClientId : String) (receivedAt : Int) : IngestStore → List (Json × Nat) → List Turn
  | _, [] => []
  | store, (item, place) :: rest =>
    ⟨store, item, place⟩ ::
      turns ingestClientId receivedAt (storeAfter rules store ingestClientId item receivedAt) rest

/-- What an item of a batch is answered in its turn. -/
def answerOf (ingestClientId : String) (receivedAt : Int) (turn : Turn) :
    Except IngestError ItemResult :=
  (storeEnvelope rules turn.met ingestClientId turn.item receivedAt).map Prod.snd

/-- Whether a result is an acceptance. -/
def ItemResult.isAccepted : ItemResult → Bool
  | .accepted .. => true
  | .rejected _ => false

/-- The answer of a batch whose items are all answered. -/
def joined (results : List ItemResult) : ServerBatchResult :=
  let accepted := (results.filter ItemResult.isAccepted).length
  let rejected := results.length - accepted
  .stored (if rejected = 0 then 202 else 207) accepted rejected results

/-- The client and the items of a batch that is stored: of an authenticated body that is not too
large, a list of one to a hundred items. -/
def batchItems (rawBody : String) : Except ServerBatchResult (String × List Json) :=
  if 5 * 1024 * 1024 < bodySize rawBody then .error (.failed 413 "PAYLOAD_TOO_LARGE")
  else
    match authenticated with
    | .error code => .error (.failed 401 code)
    | .ok ingestClientId =>
      match parseBatch rawBody with
      | none => .error (.failed 400 "INVALID_BATCH")
      | some items =>
        if items.isEmpty || decide (100 < items.length) then .error (.failed 400 "INVALID_BATCH")
        else .ok (ingestClientId, items)

/-- The answer of a batch whose items' transactions commit in an order. -/
def storeBatch (ingestClientId : String) (receivedAt : Int) (order : List (Json × Nat)) :
    Except IngestError ServerBatchResult := do
  let answers ← (turns rules ingestClientId receivedAt store order).mapM fun turn =>
    (answerOf rules ingestClientId receivedAt turn).map fun result => (turn.place, result)
  return joined ((List.range order.length).filterMap fun place => answers.lookup place)

/-- `ingestBatch`, where the transactions of the items commit in an order. -/
def ingestBatch (rawBody : String) (receivedAt : Int) (order : List (Json × Nat)) : Except IngestError ServerBatchResult :=
  match batchItems authenticated rawBody with
  | .error failed => .ok failed
  | .ok (ingestClientId, _) => storeBatch rules store ingestClientId receivedAt order

end Service

end NancyMan.Ingest
