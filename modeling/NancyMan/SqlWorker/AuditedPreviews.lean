import NancyMan.Lib.Js
import NancyMan.Lib.JsonIntegers
import NancyMan.Lib.Program
import NancyMan.Lib.TextUnits

/-!
# Audited previews

A preview consumes an elevation, stores a running row, audits its start, sends the statement, closes the
row and audits its end. Each of these calls may throw, before it takes effect or after.
`preview_closed_iff` says that a preview is audited whatever fails, and when its row is closed.
-/
namespace NancyMan.SqlWorker

open Async

/-- A row of `sql_executions` as `startReadPreview` inserts it, with the status `running`. -/
structure StartedPreview where
  id : String
  executionKey : String
  actorUserId : String
  sessionId : String
  reason : String
  encryptedSql : String
  redactedSql : String
  fingerprint : String
  metadata : Json

/-- The calls of the service. -/
inductive PreviewCall where
  | consumeActive (userId sessionId : String)
  | startReadPreview (row : StartedPreview)
  | append (actorUserId action subjectId : String) (metadata : Json)
  | command (sql : String) (maxRows : Option Numeral)
  | finishReadPreview (executionId status : String) (durationMs rowCount : Nat) (truncated : Bool)
    (metadata : Json)

/-- The reply of the worker: a result of any kind, or the code of its refusal. -/
inductive PreviewReply where
  | result (value : Json)
  | refused (code : String)

/-- What a call returns: whether there is an active elevation, whether the row is new, and whether it was
still running. -/
abbrev PreviewValue : PreviewCall → Type
  | .consumeActive _ _ => Bool
  | .startReadPreview _ => Bool
  | .append _ _ _ _ => Unit
  | .command _ _ => PreviewReply
  | .finishReadPreview _ _ _ _ _ _ => Bool

/-- The answer to a call; an exception tells whether the call took effect before. -/
abbrev PreviewAnswer (call : PreviewCall) : Type := Except Bool (PreviewValue call)

inductive PreviewError where
  | requestInvalid
  | recordUnavailable
  | unavailable

structure PreviewResult where
  rows : List Json
  encodedBytes : Nat
  truncated : Bool

inductive PreviewOutcome where
  | elevationRequired
  | previewed (executionKey previewId expiresAt : String) (result : PreviewResult)
  | failed (code : String)

abbrev Preview (α : Type) : Type := Async PreviewCall PreviewAnswer Unit PreviewError α

/-- What the service is given besides a request. -/
structure PreviewRules where
  /-- `createHash('sha256').update(text, 'utf8').digest('hex')`. -/
  sha256 : String → String
  /-- `encryptEnvelope`, of a statement for an execution. -/
  encryptSql : String → String → String
  /-- `new Date(time).toISOString()`. -/
  isoText : Int → String
  /-- A number, where it is a safe integer and not below zero. -/
  safeNatural : Numeral → Option Nat

/-- A request, with the times at which it starts and ends and the id that it is given. -/
structure PreviewRequest where
  userId : String
  sessionId : String
  sql : String
  reason : String
  maxRows : Option Numeral
  startedAt : Int
  endedAt : Int
  executionId : String

/-- `text.replace(/\s+/g, ' ')`, after white space or not. -/
def collapseSpaces : Bool → List Char → List Char
  | _, [] => []
  | spaced, symbol :: rest =>
    if isWhitespace symbol then
      if spaced then collapseSpaces true rest else ' ' :: collapseSpaces true rest
    else symbol :: collapseSpaces false rest

variable (rules : PreviewRules)

/-- `fingerprint`. -/
def previewFingerprint (sql : String) : String :=
  rules.sha256 (String.ofList (collapseSpaces false (trim sql.toList)))

/-- `executionKey`. -/
def executionKey (startedAt : Int) (id : String) : String :=
  "SQL-" ++ String.ofList (((rules.isoText startedAt).toList.take 10).filter (· ≠ '-')) ++ "-" ++ id

/-- `isPreviewResult`, with the result. -/
def previewResult? (value : Json) : Option PreviewResult := do
  let rows ← (← value.property? "rows").array?
  let encodedBytes ← match ← value.property? "encodedBytes" with
    | .number literal => rules.safeNatural literal
    | _ => none
  match ← value.property? "truncated" with
  | .boolean truncated => some ⟨rows, encodedBytes, truncated⟩
  | _ => none

/-- A call that is awaited. -/
def awaited (call : PreviewCall) : Preview (PreviewValue call) := do
  match ← Async.perform call with
  | .ok value => pure value
  | .error _ => Async.throw .unavailable

namespace PreviewRequest

variable (rules : PreviewRules) (request : PreviewRequest)

def statement : String := String.ofList (trim request.sql.toList)

def trimmedReason : String := String.ofList (trim request.reason.toList)

def key : String := executionKey rules request.startedAt request.executionId

def previewId : String := "PRV_" ++ request.executionId

def expiresAt : String := rules.isoText (request.startedAt + 5 * 60 * 1000)

def elapsedMs : Nat := (request.endedAt - request.startedAt).toNat

/-- Whether the texts of the request are refused. -/
def isInvalid : Bool :=
  request.statement = "" || 65536 < textUnits request.statement.toList ||
    textUnits request.trimmedReason.toList < 3 || 2000 < textUnits request.trimmedReason.toList

def metadata : Json :=
  .object [("previewId", .string request.previewId), ("expiresAt", .string (request.expiresAt rules)),
    ("fingerprint", .string (previewFingerprint rules request.statement))]

/-- The row of the request. -/
def row : StartedPreview where
  id := request.executionId
  executionKey := request.key rules
  actorUserId := request.userId
  sessionId := request.sessionId
  reason := request.trimmedReason
  encryptedSql := rules.encryptSql request.executionId request.statement
  redactedSql := "SQL preview (encrypted)"
  fingerprint := previewFingerprint rules request.statement
  metadata := request.metadata rules

def audit (action : String) (metadata : Json) : Preview Unit :=
  awaited (.append request.userId action (request.key rules) metadata)

def finishFailure (code : String) : Preview PreviewOutcome := do
  let metadata := Json.object [("code", .string code), ("previewId", .string request.previewId)]
  let _ ← awaited (.finishReadPreview request.executionId "failed" request.elapsedMs 0 false metadata)
  request.audit rules "sql.preview_failed" metadata
  pure (.failed code)

/-- The end of a preview with its rows. -/
def finish (result : PreviewResult) : Preview PreviewOutcome := do
  let finished ← awaited (.finishReadPreview request.executionId "previewed" request.elapsedMs
    result.rows.length result.truncated (.object
      [("encodedBytes", .number (.ofInt result.encodedBytes)), ("previewId", .string request.previewId)]))
  Async.require finished .recordUnavailable
  request.audit rules "sql.previewed" (.object
    [("previewId", .string request.previewId), ("encodedBytes", .number (.ofInt result.encodedBytes)),
      ("rowCount", .number (.ofInt result.rows.length)), ("truncated", .boolean result.truncated)])
  pure (.previewed (request.key rules) request.previewId (request.expiresAt rules) result)

/-- What follows the reply of the worker, or its exception. -/
def answer : Option PreviewReply → Preview PreviewOutcome
  | none => request.finishFailure rules "SQL_WORKER_UNAVAILABLE"
  | some (.refused code) => request.finishFailure rules code
  | some (.result value) =>
    match previewResult? rules value with
    | none => request.finishFailure rules "WORKER_PREVIEW_INVALID"
    | some result => request.finish rules result

/-- `preview`. -/
def preview : Preview PreviewOutcome := do
  Async.require (!request.isInvalid) .requestInvalid
  let elevated ← awaited (.consumeActive request.userId request.sessionId)
  if elevated then
    let created ← awaited (.startReadPreview (request.row rules))
    Async.require created .recordUnavailable
    request.audit rules "sql.preview_started" (request.metadata rules)
    let reply ← Async.tryCatch (some <$> awaited (.command request.statement request.maxRows))
      fun _ => pure none
    request.answer rules reply
  else pure .elevationRequired

end PreviewRequest

/-- What becomes of the row of a preview; `elsewhere` is what another process makes of it. -/
inductive PreviewRow where
  | absent
  | running
  | closed (status : String)
  | elsewhere
deriving DecidableEq

/-- What the calls of a preview have left: an elevation that was consumed, its row, the actions that were
appended, whether an update of the row threw, and whether the insertion threw after it took effect or
the append of the start threw. -/
structure PreviewState where
  elevated : Bool
  row : PreviewRow
  audited : List String
  updateThrew : Bool
  startThrew : Bool

/-- Before the first call. -/
def PreviewState.initial : PreviewState := ⟨false, .absent, [], false, false⟩

/-- What an answered call leaves. -/
def PreviewState.observe (state : PreviewState) :
    (call : PreviewCall) → PreviewAnswer call → PreviewState
  | .consumeActive _ _, .ok active => { state with elevated := active }
  | .consumeActive _ _, .error applied => { state with elevated := applied }
  | .startReadPreview _, .ok created =>
    { state with row := if created then .running else state.row }
  | .startReadPreview _, .error applied =>
    { state with row := if applied then .running else state.row, startThrew := applied }
  | .append _ action _ _, .ok () => { state with audited := state.audited ++ [action] }
  | .append _ action _ _, .error applied =>
    { state with
      audited := if applied then state.audited ++ [action] else state.audited
      startThrew := state.startThrew || action = "sql.preview_started" }
  | .command _ _, _ => state
  | .finishReadPreview _ status _ _ _ _, .ok finished =>
    { state with row := if finished then .closed status else .elsewhere }
  | .finishReadPreview _ status _ _ _ _, .error applied =>
    { state with row := if applied then .closed status else state.row, updateThrew := true }

/-- The worker is sent a statement only once an elevation was consumed, the running row is stored and the
start is audited. -/
def previewMonitor : Monitor PreviewCall PreviewAnswer PreviewState where
  permits state
    | .command _ _ => state.elevated = true ∧ state.row = .running ∧
        "sql.preview_started" ∈ state.audited
    | _ => True
  observe := PreviewState.observe

/-- The row is not left running, unless its update threw. -/
def PreviewState.Closed (state : PreviewState) : Prop :=
  state.row = .running → state.updateThrew = true

/-- How a preview may end: with rows only where its row is closed as previewed and audited so, and closed
exactly unless its start threw. -/
def EndsAudited (outcome : Except PreviewError PreviewOutcome) (state : PreviewState) : Prop :=
  (∀ executionKey previewId expiresAt result,
    outcome = .ok (.previewed executionKey previewId expiresAt result) →
      state.row = .closed "previewed" ∧ "sql.previewed" ∈ state.audited) ∧
    (state.Closed ↔ state.startThrew = false)

/-- What a part of a preview ensures from a state on. -/
abbrev EnsuresAudited (program : Preview PreviewOutcome) (state : PreviewState) : Prop :=
  Async.Ensures previewMonitor program (fun outcome _ => EndsAudited (.ok outcome))
    (fun error _ => EndsAudited (.error error)) () state

open PreviewState

section Programs

variable {α : Type} {state : PreviewState} {rules : PreviewRules} {request : PreviewRequest}

theorem ensures_awaited {call : PreviewCall} {post : PreviewValue call → Unit → PreviewState → Prop}
    {fails : PreviewError → Unit → PreviewState → Prop}
    (permitted : previewMonitor.permits state call)
    (returns : ∀ value, post value () (state.observe call (.ok value)))
    (throws : ∀ applied, fails .unavailable () (state.observe call (.error applied))) :
    Async.Ensures previewMonitor (awaited call) post fails () state := by
  refine ensures_bind (ensures_perform permitted fun answer => ?_)
  cases answer with
  | ok value => exact ensures_pure (returns value)
  | error applied => exact ensures_throw (throws applied)

/-- A failed preview closes its row, or its update throws. -/
theorem ensures_finishFailure (started : state.startThrew = false) (code : String) :
    EnsuresAudited (request.finishFailure rules code) state := by
  refine ensures_bind (ensures_awaited trivial (fun finished => ?_) fun applied => ?_)
  · refine ensures_bind (ensures_awaited trivial (fun _ => ?_) fun applied => ?_)
    · refine ensures_pure ⟨nofun, ?_⟩
      cases finished <;> simp [observe, PreviewState.Closed, started]
    · refine ⟨nofun, ?_⟩
      cases finished <;> simp [observe, PreviewState.Closed, started]
  · exact ⟨nofun, by simp [observe, PreviewState.Closed, started]⟩

/-- Rows are returned once the row is closed and audited. -/
theorem ensures_finish (started : state.startThrew = false) (result : PreviewResult) :
    EnsuresAudited (request.finish rules result) state := by
  refine ensures_bind (ensures_awaited trivial (fun finished => ?_) fun applied => ?_)
  · refine ensures_bind (ensures_require (fun updated => ?_) fun refused => ?_)
    · refine ensures_bind (ensures_awaited trivial (fun _ => ?_) fun applied => ?_)
      · refine ensures_pure ⟨fun _ _ _ _ _ => ?_, ?_⟩
        · simp [observe, updated]
        · simp [observe, PreviewState.Closed, updated, started]
      · exact ⟨nofun, by simp [observe, PreviewState.Closed, updated, started]⟩
    · exact ⟨nofun, by simp [observe, PreviewState.Closed, refused, started]⟩
  · exact ⟨nofun, by simp [observe, PreviewState.Closed, started]⟩

theorem ensures_answer (started : state.startThrew = false) (reply : Option PreviewReply) :
    EnsuresAudited (request.answer rules reply) state := by
  unfold PreviewRequest.answer
  split
  · exact ensures_finishFailure started _
  · exact ensures_finishFailure started _
  · split
    · exact ensures_finishFailure started _
    · exact ensures_finish started _

end Programs

/-- A preview sends its statement only after it consumed an elevation, stored the running row and audited
the start, and returns rows only once the row is previewed and audited so. Whatever else fails, its row
is left running without a failed update exactly where the insertion threw after it took effect or the
append of the start threw. -/
theorem preview_closed_iff (rules : PreviewRules) (request : PreviewRequest) :
    EnsuresAudited (request.preview rules) .initial := by
  refine ensures_bind (ensures_require (fun _ => ?_) fun _ => ?_)
  · refine ensures_bind (ensures_awaited trivial (fun active => ?_) fun applied => ?_)
    · cases active with
      | false => exact ensures_pure ⟨nofun, by
          simp [observe, PreviewState.Closed, initial]⟩
      | true =>
        refine ensures_bind (ensures_awaited trivial (fun created => ?_) fun applied => ?_)
        · refine ensures_bind (ensures_require (fun isNew => ?_) fun known => ?_)
          · refine ensures_bind (ensures_awaited trivial (fun _ => ?_) fun applied => ?_)
            · refine ensures_bind (ensures_tryCatch (ensures_bind
                (ensures_awaited ?_ (fun reply => ?_) fun _ => ?_)))
              · simp [previewMonitor, observe, isNew]
              · exact ensures_pure (ensures_answer rfl (some reply))
              · exact ensures_pure (ensures_answer rfl none)
            · refine ⟨nofun, ?_⟩
              simp [observe, PreviewState.Closed, initial, isNew]
          · refine ⟨nofun, ?_⟩
            simp [observe, PreviewState.Closed, initial, known]
        · refine ⟨nofun, ?_⟩
          cases applied <;> simp [observe, PreviewState.Closed, initial]
    · exact ⟨nofun, by simp [observe, PreviewState.Closed, initial]⟩
  · exact ⟨nofun, by simp [PreviewState.Closed, initial]⟩

/-- A preview whose append of the start throws. -/
def unauditedAnswers : (call : PreviewCall) → PreviewAnswer call
  | .consumeActive _ _ => .ok true
  | .startReadPreview _ => .ok true
  | .append _ _ _ _ => .error false
  | .command _ _ => .ok (.refused "QUERY_FAILED")
  | .finishReadPreview _ _ _ _ _ _ => .ok true

def lessonsPreview : PreviewRequest where
  userId := "maintainer-1"
  sessionId := "session-1"
  sql := "select 1"
  reason := "lesson count"
  maxRows := none
  startedAt := 1782864000000
  endedAt := 1782864000000
  executionId := "7"

/-- Its row is left running, and no update was tried. -/
theorem unaudited_preview_left_running :
    ∃ trace outcome, Program.Returns (lessonsPreview.preview
        ⟨id, fun _ text => text, fun _ => "2026-07-01T00:00:00.000Z", fun _ => none⟩ ()) trace outcome ∧
      ¬(trace.foldl (fun state call => previewMonitor.observe state call.1 call.2)
        PreviewState.initial).Closed := by
  refine ⟨_, _, Program.answered_returns (fun _ => unauditedAnswers) [] _, fun closed => ?_⟩
  exact absurd (closed (by decide +kernel)) (by decide +kernel)

end NancyMan.SqlWorker
