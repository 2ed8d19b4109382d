import NancyMan.Telemetry.Redaction
import NancyMan.Telemetry.Sanitizer

/-!
# The sanitizer of the browser

The browser has a copy of the sanitizer of the server, written apart: it knows no session
identifiers, and a source that is not one of its own it takes for the browser. The functions here are
those of the copy.
-/
namespace NancyMan.Telemetry

/-- The functions of the server's sanitizer. -/
def serverRules (sessionHash : String → String) : SanitizerRules where
  sanitizeText := sanitizeText
  sessionHash := sessionHash

namespace Browser

open RegExp

def allowedSources : List TelemetrySource :=
  [.browser, .api, .database, .documentStore, .job, .provider, .process, .deployment, .synthetic]

def allowedTagKeys : List String :=
  ["studentId", "classId", "invoiceId", "jobName", "method", "httpStatus"]

/-- `patterns` of `sanitizeText`. -/
def patterns : List RegExp :=
  [connectionUrl, bearerToken, namedSecret, imageData, emailAddress, telephoneNumber]

/-- `sanitizeText`, without its flag. -/
def sanitizeText (text : String) : String :=
  String.ofList (patterns.foldl (fun sanitized pattern =>
    pattern.replaceAll "[REDACTED]".toList sanitized) text.toList)

/-- `sanitizeTags`, without its flag. -/
def sanitizeTags (value : Option Json) : List (String × String) :=
  match value with
  | some (.object properties) => properties.filterMap fun property =>
    if !allowedTagKeys.contains property.1 then none
    else property.2.string?.map fun text => (property.1, sanitizeText (sliceUnits 128 text))
  | _ => []

/-- The breadcrumbs of a value. -/
def breadcrumbs (value : Option Json) : List Breadcrumb :=
  match value with
  | some (.array items) => (items.drop (items.length - 30)).flatMap fun breadcrumb =>
    if !breadcrumb.isRecord then []
    else
      let message := sanitizeText (asBoundedString breadcrumb "message" 512 "[REDACTED]")
      [{ time := asBoundedString breadcrumb "at" 40 epochText
         category := asBoundedString breadcrumb "category" 64 "unknown"
         message := message }]
  | _ => []

def sourceName (input : Json) : TelemetrySource :=
  match (textOf input "source").bind fun text =>
    allowedSources.find? fun source => source.text == text with
  | some source => source
  | none => .browser

def level (input : Json) : TelemetryLevel :=
  match textOf input "level" with
  | some "fatal" => .fatal
  | some "warning" => .warning
  | _ => .error

/-- `sanitizeBrowserTelemetry`: the envelope. -/
def sanitizeBrowserTelemetry (input : Json) : TelemetryEnvelope :=
  let errorInput := recordOf input "error"
  let contextInput := recordOf input "context"
  let safeMessage :=
    sanitizeText (asBoundedString errorInput "safeMessage" 2000 "Telemetry error")
  let stack := (textOf errorInput "stack").map fun text => sanitizeText (sliceUnits 24000 text)
  let componentStack :=
    (textOf errorInput "componentStack").map fun text => sanitizeText (sliceUnits 12000 text)
  let route := (textOf contextInput "route").map fun text => sanitizeText (sliceUnits 512 text)
  let tags := sanitizeTags (contextInput.property? "tags")
  let breadcrumbs := breadcrumbs (contextInput.property? "breadcrumbs")
  { eventId := asBoundedString input "eventId" 128 "EVT_INVALID"
    idempotencyKey := asBoundedString input "idempotencyKey" 128 "invalid"
    capturedAt := asBoundedString input "capturedAt" 40 epochText
    source := sourceName input
    level := level input
    error :=
      { name := asBoundedString errorInput "name" 120 "Error"
        code := asBoundedString errorInput "code" 128 "UNKNOWN_ERROR"
        safeMessage, stack, componentStack }
    context :=
      { requestId := (textOf contextInput "requestId").map (sliceUnits 128)
        traceId := (textOf contextInput "traceId").map (sliceUnits 128)
        route
        release := asBoundedString contextInput "release" 128 "unknown"
        service := asBoundedString contextInput "service" 128 "unknown"
        tags, breadcrumbs } }

/-! ## The two sanitizers -/

variable (sessionHash : String → String) {input : Json}

/-- Both keep the same tags. -/
theorem sanitizeTags_eq (value : Option Json) :
    sanitizeTags value = Telemetry.sanitizeTags (serverRules sessionHash) value := by
  cases value with
  | none => rfl
  | some value =>
    cases value with
    | object properties =>
      refine List.filterMap_congr fun property _ => ?_
      obtain ⟨key, value⟩ := property
      have keys : allowedTagKeys = Telemetry.allowedTagKeys := rfl
      unfold sanitizeTag
      rw [keys]
      cases Telemetry.allowedTagKeys.contains key <;> cases value <;> rfl
    | _ => rfl

/-- Both keep the same breadcrumbs. -/
theorem breadcrumbs_eq (value : Option Json) :
    breadcrumbs value = sanitizeBreadcrumbs (serverRules sessionHash) value := by
  cases value with
  | none => rfl
  | some value =>
    cases value with
    | array items =>
      unfold breadcrumbs sanitizeBreadcrumbs
      dsimp only
      rw [List.filterMap_eq_flatMap_toList]
      refine List.flatMap_congr fun breadcrumb _ => ?_
      unfold sanitizeBreadcrumb
      cases breadcrumb.isRecord <;> rfl
    | _ => rfl

/-- Both read the same level. -/
theorem level_eq (input : Json) : level input = levelOf input := by
  unfold level levelOf
  split
  · rename_i fatal
    rw [if_pos fatal]
  · rename_i warning
    rw [if_neg (by rw [warning]; decide), if_pos warning]
  · rename_i notFatal notWarning
    rw [if_neg notFatal, if_neg notWarning]

/-- Without a session identifier the two envelopes differ in the source alone. -/
theorem sanitizeBrowserTelemetry_eq
    (noSession : textOf (recordOf input "context") "sessionId" = none) :
    sanitizeBrowserTelemetry input =
      { sanitizeTelemetry (serverRules sessionHash) input with source := sourceName input } := by
  unfold sanitizeBrowserTelemetry sanitizeTelemetry sanitizeContext
  dsimp only
  rw [noSession, level_eq, sanitizeTags_eq sessionHash, breadcrumbs_eq sessionHash, Option.map_none,
    Option.toList_none, List.append_nil]
  rfl

/-- A source that both accept is read alike. -/
theorem sourceName_eq {source : TelemetrySource} (server : source ∈ Telemetry.allowedSources)
    (browser : source ∈ allowedSources) (named : textOf input "source" = some source.text) :
    sourceName input = source ∧ Telemetry.sourceName input = source := by
  constructor
  · unfold sourceName
    rw [named, Option.bind_some]
    have found : (allowedSources.find? fun other => other.text == source.text) = some source := by
      cases source <;> decide
    rw [found]
  · unfold Telemetry.sourceName
    rw [named]
    dsimp only
    rw [find_source]
    rfl

/-- For every input without a session identifier whose source both accept, the two sanitizers, which
reject nothing, return the same envelope. -/
theorem sanitizers_agree (sessionHash : String → String) {input : Json}
    (noSession : textOf (recordOf input "context") "sessionId" = none)
    (accepted : ∃ source, source ∈ Telemetry.allowedSources ∧ source ∈ allowedSources ∧
      textOf input "source" = some source.text) :
    sanitizeBrowserTelemetry input = sanitizeTelemetry (serverRules sessionHash) input := by
  obtain ⟨source, server, browser, named⟩ := accepted
  obtain ⟨copied, original⟩ := sourceName_eq server browser named
  rw [sanitizeBrowserTelemetry_eq sessionHash noSession, copied]
  have same : (sanitizeTelemetry (serverRules sessionHash) input).source = source := original
  rw [← same]

/-- An event of a job with an address in its message. -/
def jobEvent : Json :=
  .object [("source", .string "job"), ("error", .object [("safeMessage", .string "to a@b.co")]),
    ("context", .object [("tags", .object [("jobName", .string "mail")])])]

/-- The two sanitizers agree on the event. -/
theorem sanitizers_agree_jobEvent :
    sanitizeBrowserTelemetry jobEvent = sanitizeTelemetry (serverRules fun _ => "") jobEvent ∧
      (sanitizeBrowserTelemetry jobEvent).error.safeMessage = "to [REDACTED]" := by
  refine ⟨sanitizers_agree _ (by decide) ⟨.job, by decide, by decide, by decide⟩, ?_⟩
  decide +kernel

end Browser
end NancyMan.Telemetry
