import NancyMan.Lib.Json

/-!
# The store of accepted envelopes

`PostgresIngestStore` keeps one row of `ingest_idempotency` for each key of a client, and with it the
envelope and its place in the processor's queue. Each function here is one transaction: it leaves
the tables with its insertions, or throws and leaves them as they were. The identifier of an envelope
is drawn anew and left out.
-/
namespace NancyMan.Ingest

/-- A row of `ingest_idempotency`. -/
structure IdempotencyRow where
  ingestClientId : String
  idempotencyKey : String
  eventId : String
  payloadHash : String

/-- `PersistedRawIngestRecord`. -/
structure RawIngestRecord where
  receivedAt : Int
  ingestClientId : String
  idempotencyKey : String
  eventId : String
  source : String
  requestId : Option String
  traceId : Option String
  payload : Json
  payloadHash : String

/-- The tables of the ingest; an envelope in the queue is known by its place in `envelopes`. -/
structure IngestStore where
  idempotency : List IdempotencyRow
  envelopes : List RawIngestRecord
  queued : List Nat

/-- Why a transaction throws. -/
inductive IngestError where
  /-- `IngestIdempotencyConflictError`. -/
  | idempotencyConflict
  /-- The identifier of the event has been used under another key. -/
  | eventTaken
  /-- The database refuses a text. -/
  | invalidText
deriving DecidableEq

def hasNul (text : String) : Bool := text.toList.any fun symbol => symbol.toNat == 0

mutual

/-- Whether a value has a text that `jsonb` cannot store. -/
def hasNulText : Json → Bool
  | .string text => hasNul text
  | .array items => haveNulText items
  | .object properties => propertiesHaveNulText properties
  | _ => false

/-- Whether one of some items has such a text. -/
def haveNulText : List Json → Bool
  | [] => false
  | item :: rest => hasNulText item || haveNulText rest

/-- Whether one of some properties has such a text. -/
def propertiesHaveNulText : List (String × Json) → Bool
  | [] => false
  | (name, value) :: rest => hasNul name || hasNulText value || propertiesHaveNulText rest

end

variable (record : RawIngestRecord)

/-- The checks of `ingest_idempotency`. -/
def RawIngestRecord.passesKeyChecks : Bool :=
  decide (16 ≤ record.idempotencyKey.length) && decide (record.idempotencyKey.length ≤ 255) &&
    !hasNul record.idempotencyKey && decide (8 ≤ record.eventId.length) &&
    decide (record.eventId.length ≤ 64) && !hasNul record.eventId

/-- Whether `ingest_envelopes` can store the texts of a record. -/
def RawIngestRecord.passesEnvelopeChecks : Bool :=
  !record.requestId.any hasNul && !record.traceId.any hasNul && !hasNulText record.payload

/-- The row that `insertRaw` adds to `ingest_idempotency`. -/
def RawIngestRecord.idempotencyRow : IdempotencyRow :=
  ⟨record.ingestClientId, record.idempotencyKey, record.eventId, record.payloadHash⟩

def IdempotencyRow.isUnder (ingestClientId idempotencyKey : String) (row : IdempotencyRow) : Bool :=
  row.ingestClientId == ingestClientId && row.idempotencyKey == idempotencyKey

def IdempotencyRow.matchesRecord (row : IdempotencyRow) (record : RawIngestRecord) : Bool :=
  row.eventId == record.eventId && row.payloadHash == record.payloadHash

namespace IngestStore

variable (store : IngestStore)

def find (ingestClientId idempotencyKey : String) : Option IdempotencyRow :=
  store.idempotency.find? (IdempotencyRow.isUnder ingestClientId idempotencyKey)

def hasEvent (eventId : String) : Bool :=
  store.idempotency.any fun row => row.eventId == eventId

/-- The tables with a record. -/
def insertRecord (record : RawIngestRecord) : IngestStore where
  idempotency := store.idempotency ++ [record.idempotencyRow]
  envelopes := store.envelopes ++ [record]
  queued := store.queued ++ [store.envelopes.length]

/-- `insertRaw`: the tables, and whether the record is a duplicate. -/
def insertRaw (record : RawIngestRecord) : Except IngestError (IngestStore × Bool) :=
  if !record.passesKeyChecks then .error .invalidText
  else
    -- ON CONFLICT (ingest_client_id, idempotency_key) DO NOTHING
    match store.find record.ingestClientId record.idempotencyKey with
    | some previous =>
      if previous.matchesRecord record then .ok (store, true) else .error .idempotencyConflict
    | none =>
      if store.hasEvent record.eventId then .error .eventTaken
      else if !record.passesEnvelopeChecks then .error .invalidText
      else .ok (store.insertRecord record, false)

end IngestStore

end NancyMan.Ingest
