import NancyMan.Explorer.CursorRoundTrip
import NancyMan.Explorer.RelatedRows
import NancyMan.Explorer.ResultContract

/-!
# Related rows through the API

The API asks the worker to follow a foreign key, checks the answer against the contract and
against its own query, records that rows were viewed and passes the answer on. The worker's
command handler stands between the two: it checks the payload before it reads and the response
before it answers.
-/
namespace NancyMan.Explorer

inductive SqlWorkerRole where
  | opsViewer
  | opsMaintainer
  | opsOwner
deriving DecidableEq

structure SqlWorkerActor where
  userId : String
  sessionId : String
  role : SqlWorkerRole

/-- `IdentifierSchema`, without control characters. -/
def isQueryIdentifier (text : String) : Bool :=
  isBoundedText 63 text && text.toList.all fun symbol =>
    0x1F < symbol.toNat && !(0x7F ≤ symbol.toNat && symbol.toNat ≤ 0x9F)

/-- `DatabaseRelatedRowsQueryBodySchema`: a body that the route accepted. -/
structure DatabaseRelatedRowsQueryBody where
  schema : String
  relation : String
  constraint : String
  rowRef : String
  pageSize : Nat
  cursor : Option String
  piiMode : PiiMode
  schema_valid : isQueryIdentifier schema = true
  relation_valid : isQueryIdentifier relation = true
  constraint_valid : isBoundedText 128 constraint = true
  rowRef_valid : isBoundedText 4096 rowRef = true
  pageSize_valid : isDatabasePageSize pageSize = true
  cursor_valid : cursor.all (isBoundedText 4096) = true

/-- What a call of `queryRelatedRows` is given. -/
structure RelatedRowsInput where
  actor : SqlWorkerActor
  targetId : DatabaseTargetId
  query : DatabaseRelatedRowsQueryBody
  requestId : Option String
  ipHash : String
  userAgentHash : String

variable (input : RelatedRowsInput)

/-- The payload `{ ...query, targetId }`. -/
def relatedRowsPayload : DatabaseRelatedRowsRequest where
  targetId := input.targetId
  schema := input.query.schema
  relation := input.query.relation
  constraint := input.query.constraint
  rowRef := input.query.rowRef
  pageSize := input.query.pageSize
  cursor := input.query.cursor
  piiMode := input.query.piiMode

/-! ## The worker's command handler -/

def databaseRelatedRowsPayloadSchema (payload : DatabaseRelatedRowsRequest) : Bool :=
  isContractIdentifier payload.schema && isContractIdentifier payload.relation &&
    isContractIdentifier payload.constraint && isContractCursor payload.rowRef &&
    isDatabasePageSize payload.pageSize && payload.cursor.all isContractCursor

/-- The answer to a command: an error's code, rows, or a result of another shape. -/
inductive WorkerReply (ν : Type) where
  | failed (code : String)
  | rows (response : DatabaseRowsResponse ν)
  | other

/-- The code of `commandFailure`; an error of the language itself has none. -/
def ReadFailure.replyCode : ReadFailure → String
  | .explorer error => error.code.text
  | .invalidDate => "WORKER_COMMAND_FAILED"

variable {ν : Type} [JsonRuntime ν]

/-- The branch `database.relatedRows` of the command handler, with the explorer's reader when
the explorer is enabled. -/
def handleRelatedRows
    (explorer : Option (DatabaseRelatedRowsRequest → Except ReadFailure (DatabaseRowsResponse ν)))
    (actor : SqlWorkerActor) (payload : DatabaseRelatedRowsRequest) : WorkerReply ν :=
  if actor.role = .opsViewer then .failed "DATABASE_DATA_PERMISSION_DENIED"
  else
    match explorer with
    | none => .failed "DATABASE_EXPLORER_DISABLED"
    | some relatedRows =>
      if databaseRelatedRowsPayloadSchema payload then
        match relatedRows payload with
        | .error failure => .failed failure.replyCode
        | .ok response =>
          if databaseRowsResultSchema response then .rows response
          else .failed "WORKER_RESULT_INVALID"
      else .failed "WORKER_COMMAND_INVALID"

/-! ## The service -/

structure ExplorerServiceError where
  code : String
  status : Nat

def mapWorkerErrorToStatus (code : String) : Nat :=
  if ["DATABASE_TARGET_INVALID", "DATABASE_RELATION_INVALID", "DATABASE_COLUMN_INVALID",
      "DATABASE_FILTER_INVALID", "DATABASE_CURSOR_INVALID", "DATABASE_PAGE_TOO_LARGE"].contains
      code then 400
  else if ["DATABASE_DATA_PERMISSION_DENIED", "PERMISSION_DENIED"].contains code then 403
  else if ["DATABASE_TARGET_UNAVAILABLE", "DATABASE_SCHEMA_STALE", "DATABASE_QUERY_TIMEOUT",
      "DATABASE_RESULT_TOO_LARGE", "DATABASE_EXPLORER_DISABLED"].contains code then 503
  else 500

structure AuditEntry where
  actorUserId : String
  action : String
  subjectType : String
  subjectId : String
  requestId : Option String
  ipHash : String
  metadata : List (String × Json)

/-- What `authorizeDatabasePii` is asked. -/
structure PiiAuthorization where
  capability : String
  userId : String
  sessionId : String
  ipHash : String
  userAgentHash : String
  subjectDigest : String

/-- What the service calls: the step-up service, the audit and the digest of a text. An
authorisation is granted or not, an audit entry appended or not. -/
structure ExplorerService where
  authorizeDatabasePii : PiiAuthorization → Bool
  append : AuditEntry → Bool
  sha256 : String → String

variable (service : ExplorerService)

/-- What `authorizePii` asks the step-up service. -/
def piiAuthorization (input : RelatedRowsInput) : PiiAuthorization where
  capability := "database_pii"
  userId := input.actor.userId
  sessionId := input.actor.sessionId
  ipHash := input.ipHash
  userAgentHash := input.userAgentHash
  subjectDigest := service.sha256 input.targetId.text

/-- The entry that rows were viewed. -/
def rowsViewed (response : DatabaseRowsResponse ν) : AuditEntry where
  actorUserId := input.actor.userId
  action := "database.rows_viewed"
  subjectType := "database"
  subjectId := input.targetId.text
  requestId := input.requestId
  ipHash := input.ipHash
  metadata :=
    [("targetId", .string input.targetId.text),
      ("schemaChecksum", .string response.schemaChecksum),
      ("schema", .string input.query.schema),
      ("relation", .string input.query.relation),
      ("pageSize", jsonInteger input.query.pageSize),
      ("returnedCount", jsonInteger response.rows.length),
      ("policyVersion", .string response.policyVersion),
      ("piiMode", .string input.query.piiMode.text),
      ("relatedConstraint", .string input.query.constraint)]

/-- The entry that revealed rows were viewed. -/
def piiRowsViewed (response : DatabaseRowsResponse ν) : AuditEntry where
  actorUserId := input.actor.userId
  action := "database.pii_rows_viewed"
  subjectType := "database"
  subjectId := input.targetId.text
  requestId := input.requestId
  ipHash := input.ipHash
  metadata :=
    [("targetId", .string input.targetId.text),
      ("schemaChecksum", .string response.schemaChecksum),
      ("schema", .string input.query.schema),
      ("relation", .string input.query.relation)]

/-- Whether the audit takes the entries of a query that was answered. -/
def auditViewed (input : RelatedRowsInput) (response : DatabaseRowsResponse ν) : Bool :=
  service.append (rowsViewed input response) &&
    (input.query.piiMode ≠ .revealed || service.append (piiRowsViewed input response))

/-- Whether an answer passes the contract and names what the query named. -/
def acceptsRelatedRows (response : DatabaseRowsResponse ν) : Bool :=
  databaseRowsResultSchema response && response.targetId = input.targetId &&
    response.schema = input.query.schema && response.relation = input.query.relation &&
    response.piiMode = input.query.piiMode

/-- What becomes of the worker's answer. -/
def passOn (input : RelatedRowsInput) :
    WorkerReply ν → Except ExplorerServiceError (DatabaseRowsResponse ν)
  | .failed code => .error ⟨code, mapWorkerErrorToStatus code⟩
  | .other => .error ⟨"WORKER_DATABASE_RESPONSE_INVALID", 503⟩
  | .rows response =>
    if acceptsRelatedRows input response then
      if auditViewed service input response then .ok response
      else .error ⟨"DATABASE_AUDIT_UNAVAILABLE", 503⟩
    else .error ⟨"WORKER_DATABASE_RESPONSE_INVALID", 503⟩

/-- `queryRelatedRows`, over the worker's command. -/
def queryRelatedRows (command : SqlWorkerActor → DatabaseRelatedRowsRequest → WorkerReply ν)
    (input : RelatedRowsInput) : Except ExplorerServiceError (DatabaseRowsResponse ν) :=
  if input.actor.role = .opsViewer then .error ⟨"DATABASE_DATA_PERMISSION_DENIED", 403⟩
  else if input.query.piiMode = .revealed ∧
      !service.authorizeDatabasePii (piiAuthorization service input) then
    .error ⟨"DATABASE_PII_REVEAL_REQUIRED", 403⟩
  else passOn service input (command input.actor (relatedRowsPayload input))

/-! ## Which answers reach the caller -/

theorem isQueryIdentifier_contract {text : String} (valid : isQueryIdentifier text) :
    isContractIdentifier text := by
  simp only [isQueryIdentifier, isBoundedText, Bool.and_eq_true, decide_eq_true_eq] at valid
  simp only [isContractIdentifier, isBoundedText, Bool.and_eq_true, decide_eq_true_eq]
  omega

/-- The worker accepts the payload of every query that the route accepted. -/
theorem relatedRowsPayload_accepted :
    databaseRelatedRowsPayloadSchema (relatedRowsPayload input) := by
  have schema := isQueryIdentifier_contract input.query.schema_valid
  have relation := isQueryIdentifier_contract input.query.relation_valid
  have constraint := input.query.constraint_valid
  have rowRef := input.query.rowRef_valid
  have cursor := input.query.cursor_valid
  have pageSize := input.query.pageSize_valid
  simp only [databaseRelatedRowsPayloadSchema, relatedRowsPayload, Bool.and_eq_true]
  exact ⟨⟨⟨⟨⟨schema, relation⟩, constraint⟩, rowRef⟩, pageSize⟩, cursor⟩

variable {response : DatabaseRowsResponse ν}

/-- The handler answers with what the reader returned when that passes the contract. -/
theorem handleRelatedRows_read {actor : SqlWorkerActor}
    {relatedRows : DatabaseRelatedRowsRequest → Except ReadFailure (DatabaseRowsResponse ν)}
    (permitted : actor.role ≠ .opsViewer)
    (read : relatedRows (relatedRowsPayload input) = .ok response) :
    handleRelatedRows (some relatedRows) actor (relatedRowsPayload input) =
      if databaseRowsResultSchema response then .rows response
      else .failed "WORKER_RESULT_INVALID" := by
  unfold handleRelatedRows
  rw [if_neg permitted]
  dsimp only
  rw [if_pos (relatedRowsPayload_accepted input), read]

theorem passOn_rows (response : DatabaseRowsResponse ν) :
    passOn service input (.rows response) =
      if acceptsRelatedRows input response then
        if auditViewed service input response then .ok response
        else .error ⟨"DATABASE_AUDIT_UNAVAILABLE", 503⟩
      else .error ⟨"WORKER_DATABASE_RESPONSE_INVALID", 503⟩ := rfl

/-- Only an accepted answer is passed on, and as it is. -/
theorem passOn_ok {service : ExplorerService} {input : RelatedRowsInput} {reply : WorkerReply ν}
    (passed : passOn service input reply = .ok response) :
    reply = .rows response ∧ acceptsRelatedRows input response := by
  cases reply with
  | failed code => cases passed
  | other => cases passed
  | rows answer =>
    rw [passOn_rows] at passed
    split at passed
    · next accepted =>
      split at passed
      · cases passed
        exact ⟨rfl, accepted⟩
      · cases passed
    · cases passed

section

variable {service : ExplorerService}

/-- With step-up granted, the service decides on the worker's answer alone. -/
theorem queryRelatedRows_permitted
    (granted : ∀ authorization, service.authorizeDatabasePii authorization)
    (command : SqlWorkerActor → DatabaseRelatedRowsRequest → WorkerReply ν)
    {input : RelatedRowsInput} (permitted : input.actor.role ≠ .opsViewer) :
    queryRelatedRows service command input =
      passOn service input (command input.actor (relatedRowsPayload input)) := by
  unfold queryRelatedRows
  rw [if_neg permitted, granted]
  exact if_neg fun refused => Bool.noConfusion refused.2

theorem passOn_accepted (recorded : ∀ entry, service.append entry) {input : RelatedRowsInput}
    {response : DatabaseRowsResponse ν} (accepted : acceptsRelatedRows input response) :
    passOn service input (.rows response) = .ok response := by
  have viewed : auditViewed service input response := by
    rw [auditViewed, recorded, recorded, Bool.or_true, Bool.and_true]
  rw [passOn, if_pos accepted, if_pos viewed]

end

/-- An answer about the query's own relation that passes the contract. -/
def ownAnswer : DatabaseRowsResponse ν where
  targetId := input.targetId
  schemaChecksum := String.ofList (List.replicate 64 '0')
  policyVersion := "v1"
  schema := input.query.schema
  relation := input.query.relation
  columns := []
  rows := []
  nextCursor := none
  truncated := false
  encodedBytes := 2
  consistency := .bestEffort
  piiMode := input.query.piiMode

/-- The service accepts an answer about the query's own relation. -/
theorem ownAnswer_accepted :
    acceptsRelatedRows input (ownAnswer input : DatabaseRowsResponse ν) := by
  have checksum : isChecksum (String.ofList (List.replicate 64 '0')) := by decide +kernel
  have policy : isBoundedText 128 "v1" := by decide
  have passes : databaseRowsResultSchema (ownAnswer input : DatabaseRowsResponse ν) :=
    databaseRowsResultSchema_empty checksum policy
      (isQueryIdentifier_contract input.query.schema_valid)
      (isQueryIdentifier_contract input.query.relation_valid) rfl rfl rfl
  rw [acceptsRelatedRows, passes]
  simp [ownAnswer]

variable {V : Type} [LinearOrder V]

/-- Related rows reach the caller: what the worker's reader returns to the payload of a query is
returned as it is, and an answer with another target, mode or relation than the constraint leads
to is rejected. -/
structure RelatedRowsReach (service : ExplorerService) (worker : Worker ν V)
    (database : Database V) (call : RelatedCall ν) (snapshot : DatabaseExplorerSchemaSnapshot)
    (input : RelatedRowsInput) : Prop where
  passed : ∀ response, input.actor.role ≠ .opsViewer →
    readRelatedRows worker database call snapshot (relatedRowsPayload input) = .ok response →
    queryRelatedRows service
      (handleRelatedRows (some (readRelatedRows worker database call snapshot))) input =
        .ok response
  checked : ∀ response : DatabaseRowsResponse ν,
    (response.targetId ≠ input.targetId ∨ response.piiMode ≠ input.query.piiMode ∨
      leadsTo snapshot input.query.schema input.query.relation input.query.constraint ≠
        some (response.schema, response.relation)) →
    ∃ error, queryRelatedRows service (fun _ _ => .rows response) input = .error error

def lessonsKey : DatabaseRelationEdge :=
  ⟨"lessons_course_fkey", ⟨"public", "lessons", ["course"]⟩, ⟨"public", "courses", ["id"]⟩⟩

def followsKey : DatabaseRelationEdge :=
  ⟨"courses_follows_fkey", ⟨"public", "courses", ["follows"]⟩, ⟨"public", "courses", ["id"]⟩⟩

/-- Lessons belong to courses, and a course follows a course. -/
def schoolSnapshot : DatabaseExplorerSchemaSnapshot where
  targetId := .ops
  checksum := String.ofList (List.replicate 64 'c')
  policyVersion := "v1"
  schemas := [⟨"public",
    [⟨"courses", [⟨"id", "integer", .«public», true, []⟩,
        ⟨"follows", "integer", .«public», true, []⟩], true, some ["id"]⟩,
      ⟨"lessons", [⟨"id", "integer", .«public», true, []⟩,
        ⟨"course", "integer", .«public», true, []⟩], true, some ["id"]⟩]⟩]
  edges := [lessonsKey, followsKey]

/-- One course, and no lesson yet. -/
def schoolDatabase : Database Nat where
  checksum := schoolSnapshot.checksum
  table _ relation :=
    { dataType := fun _ => "integer"
      rows := if relation = "courses" then [fun _ => some 7] else [] }

/-- A server of natural numbers. -/
def schoolServer : SqlServer Int Nat where
  fetch value := .number value
  bind _
    | .number value => some (some value.toNat)
    | _ => none
  ilike _ _ := false

def schoolWorker : Worker Int Nat where
  target := .ops
  cursorKey := "AAAAAAAAAAAAAAAAAAAAAAAAAAAAAAAAAAAAAAAAAAA="
  crypto := TokenCrypto.plain
  server := schoolServer
  cells :=
    { maskPiiValue := fun _ _ => ""
      sha256 := fun _ => ""
      toText := fun _ => ""
      slice := fun text length => String.ofList (text.toList.take length) }

def coursesContext : Context := ⟨.ops, "public", "courses", schoolSnapshot.checksum⟩

/-- What the row reference of course 7 carries. -/
def courseClaims : Json :=
  .object [("version", jsonInteger 1), ("targetId", .string "ops"), ("schema", .string "public"),
    ("relation", .string "courses"), ("checksum", .string schoolSnapshot.checksum),
    ("issuedAt", jsonInteger 0), ("expiresAt", jsonInteger cursorExpiryMs),
    ("keys", .object [("id", jsonInteger 7), ("follows", jsonInteger 7)])]

/-- The symbols of the row reference of course 7. -/
def courseRefText : List Char :=
  joinParts [envelopeVersion.toList, TokenKind.rowRef.text.toList,
    Base64Url.encode (List.replicate 12 0),
    Base64Url.encode (Utf8.bytes (Json.renderChars courseClaims)),
    Base64Url.encode (List.replicate 16 0)]

def courseRef : String := String.ofList courseRefText

/-- The worker seals the row reference of course 7. -/
theorem courseRef_sealed :
    sealToken TokenCrypto.plain (List.replicate 12 0) .rowRef coursesContext courseClaims
      schoolWorker.cursorKey true = .ok (some courseRef) := by
  have context : validateContext coursesContext := by decide
  have small : ¬maxCursorBytes < tokenOverheadBytes .rowRef +
      ciphertextTextBytes (Utf8.byteLength (Json.renderChars courseClaims)) := by decide +kernel
  have key : deriveEncryptionKey TokenCrypto.plain schoolWorker.cursorKey .rowRef =
      .ok (List.replicate 32 0) := by decide +kernel
  have fits : ¬maxCursorBytes < Utf8.byteLength courseRefText := by decide +kernel
  unfold sealToken
  rw [if_pos context, if_neg small, key]
  exact if_neg fits

def schoolCall : RelatedCall Int where
  parseDate _ := none
  openedAt := 1
  read := { decodedAt := 1, issuedAt := 1, nonce := List.replicate 12 0,
            encodeRowRef := fun _ _ _ => none }

/-- A service that grants and records everything. -/
def openService : ExplorerService where
  authorizeDatabasePii _ := true
  append _ := true
  sha256 text := text

/-- A request for what a constraint ties to course 7. -/
def courseQuery (constraint : String) (valid : isBoundedText 128 constraint = true) :
    RelatedRowsInput where
  actor := ⟨"maintainer", "session", .opsMaintainer⟩
  targetId := .ops
  query :=
    { schema := "public"
      relation := "courses"
      constraint := constraint
      rowRef := courseRef
      pageSize := 25
      cursor := none
      piiMode := .masked
      schema_valid := by decide +kernel
      relation_valid := by decide +kernel
      constraint_valid := valid
      rowRef_valid := by
        rw [courseRef, isBoundedText, textLength, String.toList_ofList]
        decide +kernel
      pageSize_valid := by decide +kernel
      cursor_valid := by decide +kernel }
  requestId := none
  ipHash := "ip"
  userAgentHash := "agent"

def lessonsOfCourse : RelatedRowsInput := courseQuery "lessons_course_fkey" (by decide)

def precedingCourse : RelatedRowsInput := courseQuery "courses_follows_fkey" (by decide)

def courseRow : RowRefData Int :=
  ⟨coursesContext, 0, cursorExpiryMs, [("id", .number 7), ("follows", .number 7)]⟩

/-- The worker decodes the row reference of a request about course 7. -/
theorem courseQuery_decoded (constraint : String) (valid : isBoundedText 128 constraint) :
    let payload := relatedRowsPayload (courseQuery constraint valid)
    decodeRowRef schoolWorker.crypto schoolCall.parseDate payload.rowRef schoolWorker.cursorKey
      ⟨schoolWorker.target, payload.schema, payload.relation, schoolSnapshot.checksum⟩
      schoolCall.openedAt = .ok courseRow := by
  intro payload
  have opened : openToken Int schoolWorker.crypto payload.rowRef .rowRef schoolWorker.cursorKey
      coursesContext = .ok courseClaims :=
    openToken_sealToken Int rfl courseRef_sealed
  have revived : RowRefData.ofJson? schoolCall.parseDate courseClaims = some courseRow := rfl
  have timely : schoolCall.openedAt < courseRow.expiresAt := by decide
  exact decodeRowRef_opened opened revived (by decide) timely rfl

/-- Whether a read returned a response that passes the contract. -/
def readsContract (answer : Except ReadFailure (DatabaseRowsResponse Int)) : Bool :=
  match answer with
  | .ok response => databaseRowsResultSchema response
  | .error _ => false

/-- The worker reads the lessons of a course and answers within the contract. -/
theorem lessons_read : readsContract (readRelatedRows schoolWorker schoolDatabase schoolCall
    schoolSnapshot (relatedRowsPayload lessonsOfCourse)) := by
  have requested : requestedEdge schoolSnapshot (relatedRowsPayload lessonsOfCourse) =
      .ok lessonsKey := rfl
  have ends : edgeEnds lessonsKey "public" "courses" = (lessonsKey.source, lessonsKey.target) := rfl
  have paired : trustedEqualities "lessons_course_fkey" courseRow.keys lessonsKey.source
      lessonsKey.target = .ok [⟨"course", .number 7⟩] := rfl
  have decoded := courseQuery_decoded "lessons_course_fkey" (by decide)
  rw [lessonsOfCourse, readRelatedRows_decoded decoded requested ends paired]
  decide +kernel

/-- The worker reads the preceding course and answers within the contract. -/
theorem precedingCourse_read : readsContract (readRelatedRows schoolWorker schoolDatabase
    schoolCall schoolSnapshot (relatedRowsPayload precedingCourse)) := by
  have requested : requestedEdge schoolSnapshot (relatedRowsPayload precedingCourse) =
      .ok followsKey := rfl
  have ends : edgeEnds followsKey "public" "courses" = (followsKey.target, followsKey.source) := rfl
  have paired : trustedEqualities "courses_follows_fkey" courseRow.keys followsKey.target
      followsKey.source = .ok [⟨"id", .number 7⟩] := rfl
  have decoded := courseQuery_decoded "courses_follows_fkey" (by decide)
  rw [precedingCourse, readRelatedRows_decoded decoded requested ends paired]
  decide +kernel

end NancyMan.Explorer
