import NancyMan.Lib.JsonIntegers
import NancyMan.Lib.JsonObject
import NancyMan.Lib.TextUnits

/-!
# Telemetry envelopes

`sanitizeTelemetry` makes an envelope of any value: it cuts texts to their lengths, replaces what
looks like a secret and fills in what is missing. The secrets it looks for are given as the function
that replaces them.
-/
namespace NancyMan.Telemetry

inductive TelemetrySource where
  | browser
  | api
  | database
  | documentStore
  | job
  | provider
  | process
  | deployment
  | synthetic
deriving DecidableEq

/-- The text of a source. -/
def TelemetrySource.text : TelemetrySource → String
  | .browser => "browser"
  | .api => "api"
  | .database => "database"
  | .documentStore => "document_store"
  | .job => "job"
  | .provider => "provider"
  | .process => "process"
  | .deployment => "deployment"
  | .synthetic => "synthetic"

def allowedSources : List TelemetrySource :=
  [.browser, .api, .database, .documentStore, .job, .provider, .process, .deployment, .synthetic]

/-- `level`. -/
inductive TelemetryLevel where
  | fatal
  | error
  | warning
deriving DecidableEq

/-- The text of a level. -/
def TelemetryLevel.text : TelemetryLevel → String
  | .fatal => "fatal"
  | .error => "error"
  | .warning => "warning"

/-- `error` of an envelope. -/
structure TelemetryError where
  name : String
  code : String
  safeMessage : String
  stack : Option String
  componentStack : Option String
deriving DecidableEq

/-- A breadcrumb; `time` is its `at`. -/
structure Breadcrumb where
  time : String
  category : String
  message : String
deriving DecidableEq

/-- `context` of an envelope; its environment is always production. -/
structure TelemetryContext where
  requestId : Option String
  traceId : Option String
  route : Option String
  release : String
  service : String
  tags : List (String × String)
  breadcrumbs : List Breadcrumb
deriving DecidableEq

/-- `TelemetryEnvelopeV1`, as `sanitizeTelemetry` makes it. -/
structure TelemetryEnvelope where
  eventId : String
  idempotencyKey : String
  capturedAt : String
  source : TelemetrySource
  level : TelemetryLevel
  error : TelemetryError
  context : TelemetryContext
deriving DecidableEq

/-- The functions of a sanitizer that are not of this module. -/
structure SanitizerRules where
  /-- `sanitizeText`, without its flag. -/
  sanitizeText : String → String
  /-- The hash of a session identifier with the pepper. -/
  sessionHash : String → String

/-! ## Writing -/

def textJson (text : String) : Json := .string text

/-- An error as a value. -/
def TelemetryError.toJson (error : TelemetryError) : Json :=
  .object ([("name", .string error.name), ("code", .string error.code),
    ("safeMessage", .string error.safeMessage)] ++
      Json.optional "stack" (error.stack.map textJson) ++
      Json.optional "componentStack" (error.componentStack.map textJson))

/-- A breadcrumb as a value. -/
def Breadcrumb.toJson (breadcrumb : Breadcrumb) : Json :=
  .object [("at", .string breadcrumb.time), ("category", .string breadcrumb.category),
    ("message", .string breadcrumb.message)]

def tagsJson (tags : List (String × String)) : Option Json :=
  if tags.isEmpty then none else some (.object (tags.map fun tag => (tag.1, .string tag.2)))

def breadcrumbsJson (breadcrumbs : List Breadcrumb) : Option Json :=
  if breadcrumbs.isEmpty then none else some (.array (breadcrumbs.map Breadcrumb.toJson))

/-- A context as a value. -/
def TelemetryContext.toJson (context : TelemetryContext) : Json :=
  .object (Json.optional "requestId" (context.requestId.map textJson) ++
    Json.optional "traceId" (context.traceId.map textJson) ++
    Json.optional "route" (context.route.map textJson) ++
    [("release", .string context.release), ("service", .string context.service),
      ("environment", .string "production")] ++
    Json.optional "tags" (tagsJson context.tags) ++
    Json.optional "breadcrumbs" (breadcrumbsJson context.breadcrumbs))

variable (envelope : TelemetryEnvelope)

/-- An envelope as a value. -/
def TelemetryEnvelope.toJson : Json :=
  .object [("schemaVersion", .number (Numeral.ofInt 1)), ("eventId", .string envelope.eventId),
    ("idempotencyKey", .string envelope.idempotencyKey),
    ("capturedAt", .string envelope.capturedAt), ("source", .string envelope.source.text),
    ("level", .string envelope.level.text), ("error", envelope.error.toJson),
    ("context", envelope.context.toJson)]

/-! ## Sanitizing -/

variable (value : Json)

/-- `isRecord(value[name]) ? value[name] : {}`. -/
def recordOf (name : String) : Json :=
  match value.property? name with
  | some found => if found.isRecord then found else .object []
  | none => .object []

def textOf (name : String) : Option String :=
  (value.property? name).bind Json.string?

/-- `asBoundedString`, of a property. -/
def asBoundedString (name : String) (maximumLength : Nat) (fallback : String) : String :=
  match textOf value name with
  | some text => sliceUnits maximumLength text
  | none => fallback

/-- `new Date(0).toISOString()`. -/
def epochText : String := "1970-01-01T00:00:00.000Z"

def allowedTagKeys : List String :=
  ["studentId", "classId", "invoiceId", "jobName", "method", "httpStatus"]

section Sanitizing

variable (rules : SanitizerRules)

/-- The tag of a property, if it is allowed. -/
def sanitizeTag (property : String × Json) : Option (String × String) :=
  match property.2 with
  | .string text =>
    if allowedTagKeys.contains property.1 then
      some (property.1, rules.sanitizeText (sliceUnits 128 text))
    else none
  | _ => none

/-- `sanitizeTags`, without its flag. -/
def sanitizeTags (value : Option Json) : List (String × String) :=
  match value with
  | some (.object properties) => properties.filterMap (sanitizeTag rules)
  | _ => []

variable (value : Json)

/-- A breadcrumb of a value, if it is a record. -/
def sanitizeBreadcrumb : Option Breadcrumb :=
  if value.isRecord then
    some ⟨asBoundedString value "at" 40 epochText, asBoundedString value "category" 64 "unknown",
      rules.sanitizeText (asBoundedString value "message" 512 "[REDACTED]")⟩
  else none

/-- The last thirty breadcrumbs of a value. -/
def sanitizeBreadcrumbs (value : Option Json) : List Breadcrumb :=
  match value with
  | some (.array items) => (items.drop (items.length - 30)).filterMap (sanitizeBreadcrumb rules)
  | _ => []

def sourceName : TelemetrySource :=
  match textOf value "source" with
  | some text => (allowedSources.find? fun source => source.text == text).getD .api
  | none => .api

/-- The level of a value. -/
def levelOf : TelemetryLevel :=
  if textOf value "level" = some "fatal" then .fatal
  else if textOf value "level" = some "warning" then .warning
  else .error

/-- The error of a value. -/
def sanitizeError : TelemetryError where
  name := asBoundedString value "name" 120 "Error"
  code := asBoundedString value "code" 128 "UNKNOWN_ERROR"
  safeMessage := rules.sanitizeText (asBoundedString value "safeMessage" 2000 "Telemetry error")
  stack := (textOf value "stack").map fun text => rules.sanitizeText (sliceUnits 24000 text)
  componentStack :=
    (textOf value "componentStack").map fun text => rules.sanitizeText (sliceUnits 12000 text)

/-- The context of a value. -/
def sanitizeContext : TelemetryContext where
  requestId := (textOf value "requestId").map (sliceUnits 128)
  traceId := (textOf value "traceId").map (sliceUnits 128)
  route := (textOf value "route").map fun text => rules.sanitizeText (sliceUnits 512 text)
  release := asBoundedString value "release" 128 "unknown"
  service := asBoundedString value "service" 128 "unknown"
  tags := sanitizeTags rules (value.property? "tags") ++
    ((textOf value "sessionId").map fun text => ("sessionHash", rules.sessionHash text)).toList
  breadcrumbs := sanitizeBreadcrumbs rules (value.property? "breadcrumbs")

/-- `sanitizeTelemetry`: the envelope. -/
def sanitizeTelemetry (input : Json) : TelemetryEnvelope where
  eventId := asBoundedString input "eventId" 128 "EVT_INVALID"
  idempotencyKey := asBoundedString input "idempotencyKey" 128 "invalid"
  capturedAt := asBoundedString input "capturedAt" 40 epochText
  source := sourceName input
  level := levelOf input
  error := sanitizeError rules (recordOf input "error")
  context := sanitizeContext rules (recordOf input "context")

end Sanitizing

/-! ## Reading an envelope back -/

theorem find_source (source : TelemetrySource) :
    (allowedSources.find? fun other => other.text == source.text) = some source := by
  cases source <;> decide

/-- Sanitizing an envelope again keeps its event identifier, key, time and source, where the texts
are within their lengths. -/
theorem sanitizeTelemetry_toJson (rules : SanitizerRules) {envelope : TelemetryEnvelope}
    (event : textUnits envelope.eventId.toList ≤ 128)
    (key : textUnits envelope.idempotencyKey.toList ≤ 128)
    (time : textUnits envelope.capturedAt.toList ≤ 40) :
    (sanitizeTelemetry rules envelope.toJson).eventId = envelope.eventId ∧
      (sanitizeTelemetry rules envelope.toJson).idempotencyKey = envelope.idempotencyKey ∧
      (sanitizeTelemetry rules envelope.toJson).capturedAt = envelope.capturedAt ∧
      (sanitizeTelemetry rules envelope.toJson).source = envelope.source := by
  refine ⟨?_, ?_, ?_, ?_⟩
  · show asBoundedString envelope.toJson "eventId" 128 "EVT_INVALID" = envelope.eventId
    exact sliceUnits_eq_self event
  · show asBoundedString envelope.toJson "idempotencyKey" 128 "invalid" = envelope.idempotencyKey
    exact sliceUnits_eq_self key
  · show asBoundedString envelope.toJson "capturedAt" 40 epochText = envelope.capturedAt
    exact sliceUnits_eq_self time
  · show sourceName envelope.toJson = envelope.source
    show (allowedSources.find? fun other => other.text == envelope.source.text).getD .api = _
    rw [find_source]
    rfl

theorem textUnits_asBoundedString (name : String) {maximumLength : Nat} {fallback : String}
    (short : textUnits fallback.toList ≤ maximumLength) :
    textUnits (asBoundedString value name maximumLength fallback).toList ≤ maximumLength := by
  unfold asBoundedString
  split
  · exact textUnits_sliceUnits maximumLength _
  · exact short

end NancyMan.Telemetry
