import NancyMan.Auth.StepUpCalls
import NancyMan.Explorer.RelatedRowsService
import NancyMan.Lib.Program

/-!
# Revealing personal data

`DatabaseExplorerService` shows rows with personal data only where the step-up service finds an
active grant for the session and the target. A grant is inserted, its audit entry appended, and
only then is it activated; rows are audited before they are returned. The calls of the step-up
repository, the audit ledger and the SQL worker may each throw, also in the paths that clean up.
What `captureOpsException` does is left out.
-/
namespace NancyMan.Explorer

open Auth (StepUpGrant GrantInput DatabasePiiBinding StepUpKey policies)

/-- The codes of `StepUpError`. -/
inductive StepUpErrorCode where
  | stepUpRequired
  | stepUpExpired
  | stepUpRevoked
  | stepUpInvalid

/-- What is thrown. -/
inductive RevealError where
  | explorer (error : ExplorerServiceError)
  | stepUp (code : StepUpErrorCode)
  /-- What a call throws. -/
  | thrown

/-- What is appended to the audit ledger; the hiding of personal data has no subject. -/
inductive DatabaseAudit where
  | about (entry : AuditEntry)
  | revealRevoked (actorUserId : String) (requestId : Option String) (ipHash : String)
    (revokedCount : Nat)

/-- A payload of the worker. -/
inductive RowsPayload where
  | rows (payload : DatabaseRowsRequest)
  | relatedRows (payload : DatabaseRelatedRowsRequest)

/-- What the service calls. -/
inductive RevealEffect where
  /-- `now` of a service. -/
  | now
  | issueId
  | findUserTotpFactorId (userId : String)
  /-- `findProof` and the checks of its password and code. -/
  | verifyProof (input : GrantInput)
  | findParentSession (userId sessionId : String)
  | replaceOlder (key : StepUpKey)
  | insert (grant : StepUpGrant)
  | findActiveDatabasePii (binding : DatabasePiiBinding)
  | activateDatabasePiiGrant (grantId : String) (binding : DatabasePiiBinding)
  | revokeDatabasePii (binding : DatabasePiiBinding)
  | append (entry : DatabaseAudit)
  | command (actor : SqlWorkerActor) (payload : RowsPayload)

/-- The answers; a call that throws answers with nothing. -/
def RevealAnswer (ν : Type) : RevealEffect → Type
  | .now => Int
  | .issueId => String
  | .findUserTotpFactorId _ => Option (Option String)
  | .verifyProof _ => Option Bool
  | .findParentSession _ _ => Option (Option Int)
  | .replaceOlder _ => Option Unit
  | .insert _ => Option Bool
  | .findActiveDatabasePii _ => Option (Option StepUpGrant)
  | .activateDatabasePiiGrant _ _ => Option Bool
  | .revokeDatabasePii _ => Option Nat
  | .append _ => Option Unit
  | .command _ _ => Option (WorkerReply ν)

abbrev Reveal (ν α : Type) := Async RevealEffect (RevealAnswer ν) Unit RevealError α

variable {ν : Type}

def ask (effect : RevealEffect) : Reveal ν (RevealAnswer ν effect) := Async.perform effect

/-- A call that may throw: go on with its answer, or throw. -/
def answered {α : Type} (call : Reveal ν (Option α)) : Reveal ν α := do
  match ← call with
  | some value => pure value
  | none => Async.throw .thrown

def fail {α : Type} (code : String) (status : Nat) : Reveal ν α :=
  Async.throw (.explorer ⟨code, status⟩)

/-! ## The step-up service -/

/-- The code of the first check of `authorizeDatabasePii` that a row fails. -/
def piiRefusal (now : Int) (grant : StepUpGrant) : StepUpErrorCode :=
  if grant.revokedAt.isSome then .stepUpRevoked
  else if grant.consumedAt.isSome || !grant.reusable then .stepUpRequired
  else if grant.expiresAt ≤ now then .stepUpExpired
  else .stepUpRequired

def authorizeDatabasePii (binding : DatabasePiiBinding) : Reveal ν StepUpGrant := do
  Async.require binding.hasSubject (.stepUp .stepUpRequired)
  let found : Option StepUpGrant ← answered (ask (.findActiveDatabasePii binding))
  match found with
  | none => Async.throw (.stepUp .stepUpRequired)
  | some grant =>
    let now : Int ← ask .now
    Async.require (binding.accepts now grant) (.stepUp (piiRefusal now grant))
    pure grant

/-- `grant`, without `parentSessionExpiresAt`. -/
def grantStepUp (input : GrantInput) : Reveal ν StepUpGrant := do
  Async.require input.isValid (.stepUp .stepUpInvalid)
  let valid : Bool ← answered (ask (.verifyProof input))
  Async.require valid (.stepUp .stepUpInvalid)
  let grantedAt : Int ← ask .now
  let parentSession : Option Int ←
    answered (ask (.findParentSession input.userId input.sessionId))
  match parentSession with
  | none => Async.throw (.stepUp .stepUpRequired)
  | some parentExpiry =>
    let expiresAt := min (grantedAt + (policies input.capability).lifetimeMs) parentExpiry
    Async.require (grantedAt < expiresAt) (.stepUp .stepUpExpired)
    let _ : Unit ← answered (ask (.replaceOlder input.key))
    let id : String ← ask .issueId
    let grant := input.grant id grantedAt expiresAt
    let inserted : Bool ← answered (ask (.insert grant))
    Async.require inserted (.stepUp .stepUpInvalid)
    pure grant

def activateDatabasePiiGrant (grantId : String) (binding : DatabasePiiBinding) : Reveal ν Bool := do
  Async.require (grantId != "" && binding.hasSubject) (.stepUp .stepUpRequired)
  answered (ask (.activateDatabasePiiGrant grantId binding))

def revokeDatabasePii (binding : DatabasePiiBinding) : Reveal ν Nat := do
  Async.require binding.isComplete (.stepUp .stepUpRequired)
  answered (ask (.revokeDatabasePii binding))

/-- `append`, of the audit ledger. -/
def append (entry : DatabaseAudit) : Reveal ν Unit := answered (ask (.append entry))

/-! ## The explorer -/

/-- What a request for rows is given, and what it makes of it: the payload for the worker and the
entries for the ledger. -/
structure RowsInput (ν : Type) where
  actor : SqlWorkerActor
  targetId : DatabaseTargetId
  schema : String
  relation : String
  piiMode : PiiMode
  ipHash : String
  userAgentHash : String
  payload : RowsPayload
  rowsViewed : DatabaseRowsResponse ν → AuditEntry
  piiRowsViewed : DatabaseRowsResponse ν → AuditEntry

/-- What a call of `revealPii` is given. -/
structure RevealInput where
  actor : SqlWorkerActor
  targetId : DatabaseTargetId
  password : String
  token : String
  reason : String
  requestId : Option String
  ipHash : String
  userAgentHash : String

/-- What a call of `revokePiiReveal` is given. -/
structure HideInput where
  actor : SqlWorkerActor
  requestId : Option String
  ipHash : String
  userAgentHash : String

variable (sha256 : String → String) (input : RowsInput ν)

/-- The grant that a request for revealed rows needs. -/
def RowsInput.binding : DatabasePiiBinding where
  userId := input.actor.userId
  sessionId := input.actor.sessionId
  ipHash := input.ipHash
  userAgentHash := input.userAgentHash
  subjectDigest := some (sha256 input.targetId.text)

/-- The grant that a reveal is about. -/
def RevealInput.binding (input : RevealInput) : DatabasePiiBinding where
  userId := input.actor.userId
  sessionId := input.actor.sessionId
  ipHash := input.ipHash
  userAgentHash := input.userAgentHash
  subjectDigest := some (sha256 input.targetId.text)

/-- The grants that a request hides. -/
def HideInput.binding (input : HideInput) : DatabasePiiBinding where
  userId := input.actor.userId
  sessionId := input.actor.sessionId
  ipHash := input.ipHash
  userAgentHash := input.userAgentHash
  subjectDigest := none

/-- What `revealPii` asks of the step-up service. -/
def RevealInput.grantInput (input : RevealInput) (factorId : String) : GrantInput where
  capability := .databasePii
  userId := input.actor.userId
  sessionId := input.actor.sessionId
  password := input.password
  factorId := factorId
  token := input.token
  ipHash := input.ipHash
  userAgentHash := input.userAgentHash
  subjectDigest := some (sha256 input.targetId.text)
  parentSessionExpiresAt := none

/-- The entry of a grant. -/
def revealGranted (ν : Type) [JsonRuntime ν] (input : RevealInput) (grant : StepUpGrant) : AuditEntry where
  actorUserId := input.actor.userId
  action := "database.pii_reveal_granted"
  subjectType := "database"
  subjectId := input.targetId.text
  requestId := input.requestId
  ipHash := input.ipHash
  metadata :=
    [("targetId", .string input.targetId.text),
      ("reason", .string input.reason),
      ("expiresAt", .string (JsonRuntime.isoText ν grant.expiresAt))]

def cleanUp (binding : DatabasePiiBinding) : Reveal ν Unit :=
  Async.tryCatch (do let _ ← revokeDatabasePii binding) fun _ => pure ()

/-- `revealPii`: the end of the grant. -/
def revealPii [JsonRuntime ν] (input : RevealInput) : Reveal ν Int := do
  Async.require (input.actor.role != .opsViewer) (.explorer ⟨"PERMISSION_DENIED", 403⟩)
  let factorId : Option String ← answered (ask (.findUserTotpFactorId input.actor.userId))
  match factorId.filter fun factorId => factorId != "" with
  | none => fail "MFA_FACTOR_UNAVAILABLE" 400
  | some factorId =>
    let grant ← Async.tryCatch (grantStepUp (input.grantInput sha256 factorId)) fun _ =>
      fail "AUTH_DENIED" 401
    Async.tryCatch (append (.about (revealGranted ν input grant))) fun _ => do
      cleanUp (input.binding sha256)
      fail "DATABASE_AUDIT_UNAVAILABLE" 503
    Async.tryCatch (do
      let activated ← activateDatabasePiiGrant grant.id (input.binding sha256)
      Async.require activated .thrown) fun _ => do
        cleanUp (input.binding sha256)
        fail "DATABASE_PII_GRANT_ACTIVATION_FAILED" 503
    pure grant.expiresAt

def revokePiiReveal (input : HideInput) : Reveal ν Unit := do
  let revokedCount ← Async.tryCatch (revokeDatabasePii input.binding) fun _ =>
    fail "DATABASE_REVOKE_UNAVAILABLE" 503
  Async.tryCatch
    (append (.revealRevoked input.actor.userId input.requestId input.ipHash revokedCount)) fun _ =>
      fail "DATABASE_AUDIT_UNAVAILABLE" 503

def authorizePii : Reveal ν StepUpGrant :=
  Async.tryCatch (authorizeDatabasePii (input.binding sha256)) fun _ =>
    fail "DATABASE_PII_REVEAL_REQUIRED" 403

/-- Whether an answer of the worker passes the contract and names what the query named. -/
def RowsInput.accepts (response : DatabaseRowsResponse ν) [JsonRuntime ν] : Bool :=
  databaseRowsResultSchema response && response.targetId = input.targetId &&
    response.schema = input.schema && response.relation = input.relation &&
    response.piiMode = input.piiMode

/-- The grant of a request, where it asks for revealed rows. -/
def authorizeRows : Reveal ν (Option StepUpGrant) :=
  if input.piiMode = .revealed then do
    let grant ← authorizePii sha256 input
    pure (some grant)
  else pure none

/-- What becomes of the worker's answer. -/
def showRows [JsonRuntime ν] (input : RowsInput ν) (grant : Option StepUpGrant) :
    WorkerReply ν → Reveal ν (DatabaseRowsResponse ν)
  | .failed code => fail code (mapWorkerErrorToStatus code)
  | .other => fail "WORKER_DATABASE_RESPONSE_INVALID" 503
  | .rows response => do
    Async.require (input.accepts response) (.explorer ⟨"WORKER_DATABASE_RESPONSE_INVALID", 503⟩)
    Async.tryCatch (do
      append (.about (input.rowsViewed response))
      match grant with
      | none => pure ()
      | some _ => append (.about (input.piiRowsViewed response))) fun _ =>
        fail "DATABASE_AUDIT_UNAVAILABLE" 503
    pure response

/-- `queryRows` and `queryRelatedRows`. -/
def queryAnyRows [JsonRuntime ν] (input : RowsInput ν) : Reveal ν (DatabaseRowsResponse ν) := do
  Async.require (input.actor.role != .opsViewer)
    (.explorer ⟨"DATABASE_DATA_PERMISSION_DENIED", 403⟩)
  let grant ← authorizeRows sha256 input
  let reply : WorkerReply ν ← answered (ask (.command input.actor input.payload))
  showRows input grant reply

/-! ## The two requests for rows -/

/-- What a call of `queryRows` is given. -/
structure QueryRowsInput where
  actor : SqlWorkerActor
  query : DatabaseRowsRequest
  requestId : Option String
  ipHash : String
  userAgentHash : String

/-- A filter as `JSON.stringify` writes it. -/
def filterJson (filter : FilterPredicate) : Json :=
  .object ([("column", .string filter.column), ("operator", .string filter.operator.text)] ++
    (filter.value.map fun value => ("value", Json.string value)).toList)

/-- The entry of `queryRows` that rows were viewed. -/
def queryRowsViewed (input : QueryRowsInput) (response : DatabaseRowsResponse ν) : AuditEntry where
  actorUserId := input.actor.userId
  action := "database.rows_viewed"
  subjectType := "database"
  subjectId := input.query.targetId.text
  requestId := input.requestId
  ipHash := input.ipHash
  metadata :=
    [("targetId", .string input.query.targetId.text),
      ("schemaChecksum", .string response.schemaChecksum),
      ("schema", .string input.query.schema),
      ("relation", .string input.query.relation),
      ("pageSize", jsonInteger input.query.pageSize),
      ("returnedCount", jsonInteger response.rows.length),
      ("filtersFingerprint",
        .string (sha256 (Json.render (.array (input.query.filters.map filterJson))))),
      ("sortFingerprint", .string (sha256 (Json.render (sortJson input.query.sort)))),
      ("policyVersion", .string response.policyVersion),
      ("piiMode", .string input.query.piiMode.text)]

/-- The entry of `queryRows` that revealed rows were viewed. -/
def queryPiiRowsViewed (input : QueryRowsInput) (response : DatabaseRowsResponse ν) :
    AuditEntry where
  actorUserId := input.actor.userId
  action := "database.pii_rows_viewed"
  subjectType := "database"
  subjectId := input.query.targetId.text
  requestId := input.requestId
  ipHash := input.ipHash
  metadata :=
    [("targetId", .string input.query.targetId.text),
      ("schemaChecksum", .string response.schemaChecksum),
      ("schema", .string input.query.schema),
      ("relation", .string input.query.relation)]

/-- What `queryRows` makes of its input. -/
def QueryRowsInput.rowsInput (input : QueryRowsInput) : RowsInput ν where
  actor := input.actor
  targetId := input.query.targetId
  schema := input.query.schema
  relation := input.query.relation
  piiMode := input.query.piiMode
  ipHash := input.ipHash
  userAgentHash := input.userAgentHash
  payload := .rows input.query
  rowsViewed := queryRowsViewed sha256 input
  piiRowsViewed := queryPiiRowsViewed input

/-- What `queryRelatedRows` makes of its input. -/
def RelatedRowsInput.rowsInput (input : RelatedRowsInput) : RowsInput ν where
  actor := input.actor
  targetId := input.targetId
  schema := input.query.schema
  relation := input.query.relation
  piiMode := input.query.piiMode
  ipHash := input.ipHash
  userAgentHash := input.userAgentHash
  payload := .relatedRows (relatedRowsPayload input)
  rowsViewed := Explorer.rowsViewed input
  piiRowsViewed := Explorer.piiRowsViewed input

end NancyMan.Explorer
