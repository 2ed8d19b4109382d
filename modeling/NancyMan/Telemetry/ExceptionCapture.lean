import NancyMan.Lib.Machine
import NancyMan.Telemetry.Sanitizer

/-!
# Captures of exceptions

An Error is captured once as an occurrence with an event identifier of its own, handed to a reporter
at once or when it is flushed, and marked as delivered until the reporter rejects it. The marks, the
identifiers and the deferred captures are shared by all captures of the process, and the reporters
settle what they were handed in any order.
-/
namespace NancyMan.Telemetry

/-- A value that was thrown: an Error, another object, or a primitive value. -/
inductive ThrownValue where
  | error (reference : Nat)
  | object (reference : Nat)
  | primitive (text : String)
  deriving DecidableEq

/-- `TerminalCaptureContext`, with its texts resolved. -/
structure CaptureContext where
  code : String
  source : Option TelemetrySource
  level : Option TelemetryLevel
  requestId : Option String
  traceId : Option String
  route : Option String
  componentStack : Option String
  tags : Option (String → Option String)

/-- What a call of `captureOnce` says of an exception. -/
structure CaptureRequest where
  context : CaptureContext
  deferUntilHandled : Bool
  distinctFrom : Option ThrownValue
  forceNewOccurrence : Bool
  allowFutureOccurrence : Bool

structure DeferredCapture where
  occurrenceKey : Nat
  error : Nat
  eventId : Nat
  context : CaptureContext
  reporter : Nat

/-- How far a delivery is. -/
inductive DeliveryStatus where
  | inFlight
  | succeeded
  | failed
  deriving DecidableEq

/-- What was handed to a reporter, and what became of it. -/
structure ReportedCapture where
  capture : DeferredCapture
  status : DeliveryStatus

/-- A flush: it awaits deliveries that were in flight, or has returned. -/
inductive FlushPhase where
  | awaits (deliveries : List Nat)
  | returned

/-- What the captures of a process share: the Errors that exist, the Errors of thrown objects, the
event identifiers and marks of Errors, the deferred captures (`deferredCaptures` and
`deferredCaptureByError`, which change together), what was handed over, the event identifiers that
`captureOnce` returned, and the flushes. -/
structure ExceptionCaptures where
  nextError : Nat
  normalized : Nat → Option Nat
  nextEvent : Nat
  eventIds : Nat → Option Nat
  delivered : Nat → Bool
  deferred : List DeferredCapture
  reported : List ReportedCapture
  captured : List Nat
  flushes : List FlushPhase

def genericCodes : List String :=
  ["INTERNAL_ERROR", "REQUEST_FAILED", "UNHANDLED_BROWSER_EXCEPTION", "UNHANDLED_OPS_EXCEPTION",
    "UNHANDLED_PROMISE_REJECTION", "UNHANDLED_SERVER_ERROR", "PROCESS_UNCAUGHT_EXCEPTION",
    "PROCESS_UNHANDLED_REJECTION"]

def levelRank : TelemetryLevel → Nat
  | .warning => 0
  | .error => 1
  | .fatal => 2

/-- The higher of two levels. -/
def higherLevel (earlier later : Option TelemetryLevel) : Option TelemetryLevel :=
  match later, earlier with
  | none, _ => earlier
  | some level, none => some level
  | some level, some other => if levelRank other < levelRank level then some level else some other

def mergeCaptureContext (earlier : Option CaptureContext) (later : CaptureContext) :
    CaptureContext :=
  match earlier with
  | none => later
  | some earlier =>
    let laterIsGenericProcessOwner := later.source = some .process ∧ later.code ∈ genericCodes
    let source :=
      if laterIsGenericProcessOwner then earlier.source else later.source.or earlier.source
    { code :=
        if later.code ∈ genericCodes ∧ earlier.code ∉ genericCodes then earlier.code
        else later.code
      source := source.or (later.source.or earlier.source)
      level := higherLevel earlier.level later.level
      requestId := later.requestId.or earlier.requestId
      traceId := later.traceId.or earlier.traceId
      route := later.route.or earlier.route
      componentStack := later.componentStack.or earlier.componentStack
      tags :=
        match earlier.tags, later.tags with
        | none, none => none
        | first, second =>
          some fun name =>
            (second.bind fun tags => tags name).or (first.bind fun tags => tags name) }

namespace ExceptionCaptures

variable (captures : ExceptionCaptures)

def createError : ExceptionCaptures × Nat :=
  ({ captures with nextError := captures.nextError + 1 }, captures.nextError)

def normalizeException : ThrownValue → ExceptionCaptures × Nat
  | .error reference =>
    ({ captures with nextError := max captures.nextError (reference + 1) }, reference)
  | .object reference =>
    match captures.normalized reference with
    | some existing => (captures, existing)
    | none =>
      let created := captures.createError
      ({ created.1 with
        normalized := Function.update created.1.normalized reference (some created.2) }, created.2)
  | .primitive _ => captures.createError

/-- `deferredCaptureByError.get(key)`. -/
def pending? (key : Nat) : Option DeferredCapture :=
  captures.deferred.find? fun capture => capture.occurrenceKey = key

/-- `dispatchDeferredCapture` of a capture that is deferred, given whether the reporter throws. -/
def dispatch (throws : Bool) (capture : DeferredCapture) : ExceptionCaptures :=
  { captures with
    deferred := captures.deferred.filter fun other => other.occurrenceKey ≠ capture.occurrenceKey
    delivered := Function.update captures.delivered capture.occurrenceKey !throws
    reported := captures.reported ++ [⟨capture, if throws then .failed else .inFlight⟩] }

/-- The deliveries in flight, by their places among what was handed over (`pendingCaptures`). -/
def pendingCaptures : List Nat :=
  (captures.reported.zipIdx.filter fun report => report.1.status = .inFlight).map Prod.snd

variable (exception : Nat)

def occurrenceKey (isSecondary : Bool) : ExceptionCaptures × Nat :=
  if isSecondary then captures.createError else (captures, exception)

/-- The event identifier of a key, which gets a new one if it has none. -/
def identify (key : Nat) : ExceptionCaptures × Nat :=
  match captures.eventIds key with
  | some eventId => (captures, eventId)
  | none =>
    ({ captures with
      nextEvent := captures.nextEvent + 1
      eventIds := Function.update captures.eventIds key (some captures.nextEvent) },
      captures.nextEvent)

/-- Merge a context into the deferred capture of a key, with the reporter of the call. -/
def mergeDeferred (key reporter : Nat) (context : CaptureContext) : ExceptionCaptures :=
  { captures with
    deferred := captures.deferred.map fun capture =>
      if capture.occurrenceKey = key then
        { capture with
          context := mergeCaptureContext (some capture.context) context, reporter := reporter }
      else capture }

/-- The capture of a key is deferred: merged into the one that is pending, or added. -/
def defer (capture : DeferredCapture) : ExceptionCaptures :=
  match captures.pending? capture.occurrenceKey with
  | some _ => captures.mergeDeferred capture.occurrenceKey capture.reporter capture.context
  | none => { captures with deferred := captures.deferred ++ [capture] }

/-- `allowFutureOccurrence`: the Error has no identifier and no mark. -/
def forget : ExceptionCaptures :=
  { captures with
    eventIds := Function.update captures.eventIds exception none
    delivered := Function.update captures.delivered exception false }

/-- Whether an occurrence gets a key of its own. -/
def isSecondary (thrown : ThrownValue) (request : CaptureRequest) : Bool :=
  decide (request.distinctFrom = some thrown) ||
    (request.forceNewOccurrence &&
      (captures.delivered exception || (captures.pending? exception).isSome))

/-- `captureOnce` of a normalized exception, once its key and event identifier are known. -/
def captureOccurrence (reporter exception key eventId : Nat) (request : CaptureRequest)
    (throws : Bool) : ExceptionCaptures :=
  if captures.delivered key then captures
  else
    let deferred := captures.defer ⟨key, exception, eventId, request.context, reporter⟩
    if request.deferUntilHandled then deferred
    else
      let dispatched :=
        match deferred.pending? key with
        | some terminal => deferred.dispatch throws terminal
        | none => deferred
      if request.allowFutureOccurrence then dispatched.forget exception else dispatched

/-- `captureOnce`, given whether the reporter throws when it is called. -/
def captureOnce (reporter : Nat) (thrown : ThrownValue) (request : CaptureRequest) (throws : Bool) :
    ExceptionCaptures × Nat :=
  let normalized := captures.normalizeException thrown
  let keyed := normalized.1.occurrenceKey normalized.2
    (normalized.1.isSecondary normalized.2 thrown request)
  let identified := keyed.1.identify keyed.2
  let after := identified.1.captureOccurrence reporter normalized.2 keyed.2 identified.2 request
    throws
  ({ after with captured := after.captured ++ [identified.2] }, identified.2)

/-- A reporter resolves or rejects a delivery; what was rejected is not marked any more. -/
def settle (number : Nat) (succeeds : Bool) : ExceptionCaptures :=
  match captures.reported[number]? with
  | none => captures
  | some report =>
    if report.status ≠ .inFlight then captures
    else
      { captures with
        reported := captures.reported.set number
          { report with status := if succeeds then .succeeded else .failed }
        delivered :=
          if succeeds then captures.delivered
          else Function.update captures.delivered report.capture.occurrenceKey false }

/-- One pass of the loop of `flush`, given the event identifiers at which a reporter throws. -/
def pass (throws : Nat → Bool) : ExceptionCaptures × FlushPhase :=
  if captures.deferred.isEmpty && captures.pendingCaptures.isEmpty then (captures, .returned)
  else
    let dispatched := captures.deferred.foldl
      (fun captures capture => captures.dispatch (throws capture.eventId) capture) captures
    (dispatched, .awaits dispatched.pendingCaptures)

/-- Whether what a flush awaits has settled. -/
def isResumed : FlushPhase → Bool
  | .awaits deliveries => deliveries.all fun number => number ∉ captures.pendingCaptures
  | .returned => false

/-- A flush begins with a first pass. -/
def flush (throws : Nat → Bool) : ExceptionCaptures :=
  let passed := captures.pass throws
  { passed.1 with flushes := passed.1.flushes ++ [passed.2] }

/-- A flush goes on with another pass once what it awaits has settled. -/
def resume (flush : Nat) (throws : Nat → Bool) : ExceptionCaptures :=
  match captures.flushes[flush]? with
  | none => captures
  | some phase =>
    if captures.isResumed phase then
      let passed := captures.pass throws
      { passed.1 with flushes := passed.1.flushes.set flush passed.2 }
    else captures

def initial : ExceptionCaptures := ⟨0, fun _ => none, 0, fun _ => none, fun _ => false, [], [], [], []⟩

end ExceptionCaptures

/-- What happens to the captures. -/
inductive CaptureEvent where
  | captureOnce (reporter : Nat) (thrown : ThrownValue) (request : CaptureRequest) (throws : Bool)
  | settle (number : Nat) (succeeds : Bool)
  | flush (throws : Nat → Bool)
  | resume (flush : Nat) (throws : Nat → Bool)

/-- A step of the captures. -/
def ExceptionCaptures.step (captures : ExceptionCaptures) : CaptureEvent → ExceptionCaptures × Unit
  | .captureOnce reporter thrown request throws =>
    ((captures.captureOnce reporter thrown request throws).1, ())
  | .settle number succeeds => (captures.settle number succeeds, ())
  | .flush throws => (captures.flush throws, ())
  | .resume flush throws => (captures.resume flush throws, ())

end NancyMan.Telemetry
