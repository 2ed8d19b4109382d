import NancyMan.Lib.JsonRoundTrip
import NancyMan.Lib.JsonSize
import NancyMan.Telemetry.Sanitizer

/-!
# Records of the spool

A record is written as one line of JSON and checked when it is read: `isEnvelope` asks more of its
envelope than `sanitizeTelemetry` gives. Counts are safe integers in the form that they are written in.
-/
namespace NancyMan.Telemetry

/-- What the spool is given, and the functions of the language that it calls. -/
structure SpoolRules where
  sanitizer : SanitizerRules
  /-- `Date.parse(text)`, unless it is not a number. -/
  parseDate : String → Option Int
  /-- `new Date(time).toISOString()`. -/
  isoText : Int → String
  /-- `left.localeCompare(right) <= 0`. -/
  localeAtMost : String → String → Bool
  /-- The delay of an attempt: `Math.round(baseDelay * jitter)`, with the jitter of a random text. -/
  retryDelay : Nat → String → Int
  maxBytes : Nat
  maxAgeMilliseconds : Int

/-- A symbol of an event identifier. -/
def isEventSymbol (symbol : Char) : Bool :=
  ('0' ≤ symbol && symbol ≤ '9') || ('A' ≤ symbol && symbol ≤ 'H') ||
    ('J' ≤ symbol && symbol ≤ 'K') || ('M' ≤ symbol && symbol ≤ 'N') ||
    ('P' ≤ symbol && symbol ≤ 'T') || ('V' ≤ symbol && symbol ≤ 'Z')

def isIngestEventId (text : String) : Bool :=
  match text.toList with
  | 'E' :: 'V' :: 'T' :: '_' :: symbols => symbols.length == 26 && symbols.all isEventSymbol
  | _ => false

def isIngestIdempotencyKey (text : String) : Bool := decide (16 ≤ textUnits text.toList)

variable (value : Json) (name : String)

def isText : Bool := (textOf value name).isSome

/-- Whether a property is absent or a string. -/
def isOptionalText : Bool :=
  match value.property? name with
  | none => true
  | some found => found.string?.isSome

/-- Whether the text of a property passes a test. -/
def textPasses (test : String → Bool) : Bool :=
  match textOf value name with
  | some text => test text
  | none => false

def hasOnlyStringValues : Json → Bool
  | .object properties => properties.all fun property => property.2.string?.isSome
  | _ => false

def isBreadcrumb : Bool :=
  value.isRecord && isText value "at" && isText value "category" && isText value "message"

/-- Whether a property is absent or passes a test. -/
def absentOr (test : Json → Bool) : Bool :=
  match value.property? name with
  | none => true
  | some found => test found

/-- Whether a value is a list of breadcrumbs. -/
def areBreadcrumbs : Json → Bool
  | .array items => items.all isBreadcrumb
  | _ => false

/-- The integer of a property. -/
def integerOf : Option Int :=
  match value.property? name with
  | some (.number literal) => literal.toInt?
  | _ => none

/-- The sources that `isEnvelope` accepts. -/
def readableSources : List String :=
  ["api", "database", "document_store", "job", "provider", "process", "deployment", "synthetic"]

/-- The tests of `isEnvelope` on the error. -/
def isErrorRecord (error : Json) : Bool :=
  isText error "name" && isText error "code" && isText error "safeMessage" &&
    isOptionalText error "stack" && isOptionalText error "componentStack"

/-- The tests of `isEnvelope` on the context. -/
def isContextRecord (context : Json) : Bool :=
  isText context "release" && isText context "service" &&
    textPasses context "environment" (fun text => text == "production") &&
    isOptionalText context "requestId" && isOptionalText context "traceId" &&
    isOptionalText context "route" && isOptionalText context "telemetryContextToken" &&
    absentOr context "tags" hasOnlyStringValues && absentOr context "breadcrumbs" areBreadcrumbs

/-- A record of a property, which must be one. -/
def recordPasses (test : Json → Bool) : Bool :=
  match value.property? name with
  | some found => found.isRecord && test found
  | none => false

variable (parseDate : String → Option Int)

def isEnvelope (value : Json) : Bool :=
  value.isRecord && recordPasses value "error" isErrorRecord &&
    recordPasses value "context" isContextRecord &&
    integerOf value "schemaVersion" == some 1 && textPasses value "eventId" isIngestEventId &&
    textPasses value "idempotencyKey" isIngestIdempotencyKey &&
    textPasses value "capturedAt" (fun text => (parseDate text).isSome) &&
    textPasses value "source" (fun text => readableSources.contains text) &&
    textPasses value "level" (fun text => ["fatal", "error", "warning"].contains text)

/-- `ServerSpoolRecord`, whose `byteSize` follows from the others. -/
structure ServerSpoolRecord where
  idempotencyKey : String
  eventId : String
  envelope : TelemetryEnvelope
  enqueuedAt : String
  attemptCount : Nat
  nextAttemptAt : Option String
deriving DecidableEq

namespace ServerSpoolRecord

variable (record : ServerSpoolRecord)

/-- The properties of a record but its size. -/
def withoutSize : List (String × Json) :=
  [("idempotencyKey", .string record.idempotencyKey), ("eventId", .string record.eventId),
    ("envelope", record.envelope.toJson), ("enqueuedAt", .string record.enqueuedAt),
    ("attemptCount", .number (Numeral.ofInt record.attemptCount))] ++
    Json.optional "nextAttemptAt" (record.nextAttemptAt.map textJson)

/-- `byteSize`: `encodedSize` of the other properties. -/
def byteSize : Nat := (Json.object record.withoutSize).size + 1

def properties : List (String × Json) :=
  record.withoutSize ++ [("byteSize", .number (Numeral.ofInt record.byteSize))]

def toJson : Json := .object record.properties

/-- A record after another failed attempt, with the size that it had. -/
def retriedJson (attemptCount : Nat) (nextAttemptAt : String) : Json :=
  .object (Json.assign (Json.assign record.properties "attemptCount"
    (.number (Numeral.ofInt attemptCount))) "nextAttemptAt" (.string nextAttemptAt))

end ServerSpoolRecord

/-- The largest number that `Number.isSafeInteger` accepts. -/
def maximumSafeInteger : Nat := 9007199254740991

/-- The safe integer of a property, if it is not negative. -/
def countOf : Option Nat :=
  match integerOf value name with
  | some (.ofNat count) => if count ≤ maximumSafeInteger then some count else none
  | _ => none

/-- Whether a property is absent or a text that is a date. -/
def isOptionalDate (value : Json) (name : String) : Bool :=
  absentOr value name fun found =>
    match found.string? with
    | some text => (parseDate text).isSome
    | none => false

/-- The tests of `normalizeSpoolRecord`. -/
def isSpoolRecord (value : Json) : Bool :=
  value.isRecord && recordPasses value "envelope" (isEnvelope parseDate) &&
    textPasses value "idempotencyKey" isIngestIdempotencyKey &&
    textPasses value "eventId" isIngestEventId &&
    textOf value "eventId" == textOf (recordOf value "envelope") "eventId" &&
    textOf value "idempotencyKey" == textOf (recordOf value "envelope") "idempotencyKey" &&
    (countOf value "byteSize").isSome &&
    textPasses value "enqueuedAt" (fun text => (parseDate text).isSome) &&
    (countOf value "attemptCount").isSome && isOptionalDate parseDate value "nextAttemptAt"

variable (rules : SpoolRules)

/-- The record that `normalizeSpoolRecord` makes of a value that passes its tests. -/
def recordFrom (value : Json) : ServerSpoolRecord :=
  let envelope := sanitizeTelemetry rules.sanitizer (recordOf value "envelope")
  { idempotencyKey := envelope.idempotencyKey
    eventId := envelope.eventId
    envelope := envelope
    enqueuedAt := (textOf value "enqueuedAt").getD ""
    attemptCount := (countOf value "attemptCount").getD 0
    nextAttemptAt := textOf value "nextAttemptAt" }

def normalizeSpoolRecord (value : Json) : Option ServerSpoolRecord :=
  if isSpoolRecord rules.parseDate value then some (recordFrom rules value) else none

/-- What a line of the events file is read as. -/
inductive SpoolLine where
  | malformed
  | invalid
  /-- A record, and whether the line differs from the one that it is written as. -/
  | record (record : ServerSpoolRecord) (differs : Bool)

/-- A line of the events file. -/
def readLine (line : String) : SpoolLine :=
  match Json.parse line with
  | none => .malformed
  | some raw =>
    match normalizeSpoolRecord rules raw with
    | none => .invalid
    | some record => .record record (raw.render != record.toJson.render)

/-- The record of a line, if it has one. -/
def SpoolLine.record? : SpoolLine → Option ServerSpoolRecord
  | .record found _ => some found
  | _ => none

/-! ## The envelopes that are read -/

/-- What a context has under a name. -/
theorem property_context (context : TelemetryContext) (name : String) :
    context.toJson.property? name =
      ((if "breadcrumbs" = name then breadcrumbsJson context.breadcrumbs else none).or
        ((if "tags" = name then tagsJson context.tags else none).or
          ((Json.lastProperty name [("release", .string context.release),
            ("service", .string context.service), ("environment", .string "production")]).or
            ((if "route" = name then context.route.map textJson else none).or
              ((if "traceId" = name then context.traceId.map textJson else none).or
                (if "requestId" = name then context.requestId.map textJson else none)))))) := by
  show Json.lastProperty name _ = _
  simp only [Json.lastProperty_append, Json.lastProperty_optional]

end NancyMan.Telemetry
