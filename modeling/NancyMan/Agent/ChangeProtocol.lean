import NancyMan.ControlPlane.ChangeMetadata
import NancyMan.Lib.Js
import NancyMan.Lib.JsonIntegers
import NancyMan.Lib.JsonSchema

/-!
# The requests of the agent protocol

The schemas that the client and the agent parse a request with: an envelope with the operation,
and for each operation the schema of its body. Two of them change what they accept: a validation
without `replaceDraft` gets the default, and the summary of a cleared apply block is trimmed.
-/
namespace NancyMan.Agent

open ControlPlane (codeUnits isAlphanumeric isFingerprint isHexDigit)

/-- The string formats of `zod` that the envelope uses. -/
structure ZodFormats where
  /-- `z.string().datetime({ offset: true })`. -/
  isDatetime : String → Bool
  /-- `z.string().uuid()`. -/
  isUuid : String → Bool

/-! ## Patterns -/

variable (text : String)

/-- `stableIdPattern`. -/
def isStableId : Bool :=
  (text.toList.splitOnP fun symbol => symbol ∈ ['.', '_', '-']).all fun part =>
    !part.isEmpty && part.all fun symbol => symbol.isDigit || ('a' ≤ symbol && symbol ≤ 'z')

/-- `opaqueUuid`. -/
def isOpaqueUuid : Bool :=
  match text.toList.splitOn '-' with
  | [first, second, third, fourth, fifth] =>
    [first, second, third, fourth, fifth].map List.length = [8, 4, 4, 4, 12] &&
      [first, second, third, fourth, fifth].all (·.all isHexDigit) &&
      third.head?.any (fun symbol => '1' ≤ symbol && symbol ≤ '5') &&
      fourth.head?.any fun symbol => symbol ∈ ['8', '9', 'a', 'b']
  | _ => false

/-- A prefix and one or more letters, digits or underscores. -/
def isPrefixed (lead text : String) : Bool :=
  let rest := text.toList.drop lead.length
  lead.toList.isPrefixOf text.toList && !rest.isEmpty &&
    rest.all fun symbol => isAlphanumeric symbol || symbol = '_'

/-- `changeIdPattern`, `runIdPattern` and `eventIdPattern`. -/
def isIdOf (lead text : String) : Bool := isPrefixed lead text || isOpaqueUuid text

/-- `digestPattern`. -/
def isDigest : Bool :=
  let digest := text.toList.drop 7
  text.toList.take 7 = "sha256:".toList && digest.length = 64 && digest.all isHexDigit

/-- `variableNamePattern`. -/
def isVariableName : Bool :=
  match text.toList with
  | [] => false
  | first :: rest => 'A' ≤ first && first ≤ 'Z' &&
      rest.all fun symbol => symbol.isDigit || ('A' ≤ symbol && symbol ≤ 'Z') || symbol = '_'

/-- `schemaVersionPattern`. -/
def isVersion : Bool :=
  match text.toList with
  | a :: b :: c :: d :: '-' :: e :: f :: '-' :: g :: h :: rest =>
    [a, b, c, d, e, f, g, h].all Char.isDigit &&
      rest.all fun symbol => isAlphanumeric symbol || symbol ∈ ['.', '_', '-']
  | _ => false

/-- A number that `JSON.stringify` writes is an integer when it has no fraction, or an exponent that
is not negative. -/
def isInteger (literal : Numeral) : Bool :=
  if 'e' ∈ literal.text then '+' ∈ literal.text else '.' ∉ literal.text

def isNonnegative (literal : Numeral) : Bool := literal.text.head? ≠ some '-'

def hasLength (least most : Nat) (text : String) : Bool :=
  least ≤ codeUnits text && codeUnits text ≤ most

/-! ## Fields -/

def stableId : JsonSchema := .string isStableId
def changeId : JsonSchema := .string (isIdOf "CHG_")
def runId : JsonSchema := .string (isIdOf "RUN_")
def eventId : JsonSchema := .string (isIdOf "EVT_")
def hmacDigest : JsonSchema := .string isFingerprint
def digest : JsonSchema := .string isDigest
def version : JsonSchema := .string isVersion
def variableName : JsonSchema := .string isVariableName

def value : JsonSchema := .string fun text => codeUnits text ≤ 65536 && '\x00' ∉ text.toList

/-- `z.enum`. -/
def oneOf (names : List String) : JsonSchema := .string fun text => text ∈ names

def count : JsonSchema := .number fun literal => isInteger literal && isNonnegative literal

/-- A property of an object, which has each name once. -/
def propertyOf (name : String) : Json → Option Json
  | .object properties => properties.lookup name
  | _ => none

def textOf (name : String) (value : Json) : Option String :=
  (propertyOf name value).bind Json.string?

def changeOperation : JsonSchema := oneOf ["set", "delete"]

def changeApplyStrategy : JsonSchema :=
  oneOf ["no_runtime_action", "next_job", "runtime_restart", "credential_restart", "build_redeploy"]

/-! ## Bodies -/

def itemFields : List JsonField :=
  [⟨"appId", stableId, .required⟩, ⟨"sourceId", stableId, .required⟩,
    ⟨"catalogId", stableId, .required⟩, ⟨"name", variableName, .required⟩,
    ⟨"operation", changeOperation, .required⟩,
    ⟨"requirement", oneOf ["required", "optional", "unknown"], .required⟩,
    ⟨"mutability", oneOf ["managed", "observed"], .required⟩,
    ⟨"strategy", changeApplyStrategy, .required⟩, ⟨"sourceFingerprint", hmacDigest, .required⟩,
    ⟨"value", value, .optional⟩]

/-- The checks of an item: a value exactly where one is set, and only editable definitions. -/
def isEditable (item : Json) : Bool :=
  let operation := textOf "operation" item
  let present := (propertyOf "value" item).isSome
  !(operation = some "set" && !present) && !(operation = some "delete" && present) &&
    !(textOf "mutability" item = some "observed" || textOf "requirement" item = some "unknown") &&
    !(operation = some "delete" && textOf "requirement" item ≠ some "optional")

def changeItemSchema : JsonSchema :=
  (JsonSchema.strict itemFields (by decide)).refine isEditable

def itemsOf (body : Json) : List Json := ((propertyOf "items" body).bind Json.array?).getD []

def uniqueItemIds (body : Json) : Bool :=
  ((itemsOf body).map fun item => (textOf "sourceId" item, textOf "catalogId" item)).Nodup

def oneApplication (body : Json) : Bool :=
  (itemsOf body).all fun item => textOf "appId" item = textOf "appId" body

def validateFields : List JsonField :=
  [⟨"changeId", changeId, .required⟩, ⟨"appId", stableId, .required⟩,
    ⟨"reason", .string (hasLength 1 512), .required⟩,
    ⟨"items", .array (fun length => 1 ≤ length && length ≤ 256) changeItemSchema, .required⟩,
    ⟨"replaceDraft", .boolean fun _ => true, .default (.boolean false)⟩,
    ⟨"catalogVersion", version, .required⟩, ⟨"manifestVersion", version, .required⟩]

def changeValidateRequestSchema : JsonSchema :=
  ((JsonSchema.strict validateFields (by decide)).refine uniqueItemIds).refine oneApplication

def countFields : List JsonField :=
  [⟨"items", count, .required⟩, ⟨"sets", count, .required⟩, ⟨"deletes", count, .required⟩,
    ⟨"sources", count, .required⟩]

def impactFields : List JsonField :=
  [⟨"applicationId", stableId, .required⟩,
    ⟨"strategies", .array (fun _ => true) changeApplyStrategy, .required⟩,
    ⟨"sourceIds", .array (fun _ => true) stableId, .required⟩,
    ⟨"actionIds", .array (fun _ => true) stableId, .required⟩,
    ⟨"checkIds", .array (fun _ => true) stableId, .required⟩,
    ⟨"counts", .strict countFields (by decide), .required⟩,
    ⟨"warnings", .array (fun _ => true) (.string (hasLength 1 512)), .required⟩,
    ⟨"expectedEffect", changeApplyStrategy, .required⟩]

def changeImpactPlanSchema : JsonSchema := .strict impactFields (by decide)

def saveFields : List JsonField :=
  [⟨"changeId", changeId, .required⟩, ⟨"changeDigest", hmacDigest, .required⟩,
    ⟨"catalogVersion", version, .required⟩, ⟨"manifestVersion", version, .required⟩,
    ⟨"impactPlan", changeImpactPlanSchema, .optional⟩]

def changeSaveRequestSchema : JsonSchema := .strict saveFields (by decide)

def applyFields : List JsonField :=
  [⟨"changeId", changeId, .required⟩, ⟨"runId", runId, .required⟩,
    ⟨"changeDigest", hmacDigest, .required⟩, ⟨"idempotencyKey", eventId, .required⟩]

def changeApplyRequestSchema : JsonSchema := .strict applyFields (by decide)

def cancelFields : List JsonField :=
  [⟨"changeId", changeId, .required⟩, ⟨"eventId", eventId, .required⟩]

def changeCancelRequestSchema : JsonSchema := .strict cancelFields (by decide)

def statusFields : List JsonField :=
  [⟨"changeId", changeId, .required⟩, ⟨"afterEventId", eventId, .optional⟩]

def changeStatusRequestSchema : JsonSchema := .strict statusFields (by decide)

/-- `text.trim()` of a string. -/
def trimText : String := String.ofList (trim text.toList)

def clearFields : List JsonField :=
  [⟨"appId", stableId, .required⟩, ⟨"confirmationAppId", stableId, .required⟩,
    ⟨"remediationSummary", .trimmed trimText (hasLength 1 1024), .required⟩,
    ⟨"incidentId", stableId, .required⟩, ⟨"eventId", eventId, .required⟩]

def clearApplyBlockRequestSchema : JsonSchema :=
  (JsonSchema.strict clearFields (by decide)).refine fun body =>
    textOf "appId" body = textOf "confirmationAppId" body

def agentCapabilitiesRequestSchema : JsonSchema := .strict [] (by decide)

/-- `CategorySchema`. -/
def category : JsonSchema :=
  oneOf ["database", "auth_security", "payments", "storage", "integrations", "telemetry",
    "backup_jobs", "feature_flags", "email_notifications", "runtime_networking",
    "build_public_frontend"]

def inventoryFields : List JsonField :=
  [⟨"includeValues", .boolean id, .required⟩,
    ⟨"appIds", .array (fun _ => true) stableId, .optional⟩,
    ⟨"sourceIds", .array (fun _ => true) stableId, .optional⟩,
    ⟨"categoryIds", .array (fun _ => true) category, .optional⟩,
    ⟨"variableNames", .array (fun _ => true) variableName, .optional⟩,
    ⟨"limit", .number fun literal => literal.toInt?.any fun limit => 0 < limit && limit ≤ 1000,
      .optional⟩]

def inventoryReadRequestSchema : JsonSchema := .strict inventoryFields (by decide)

/-! ## Envelopes -/

variable (zod : ZodFormats)

def actorFields : List JsonField :=
  [⟨"userId", .string zod.isUuid, .required⟩, ⟨"sessionId", .string zod.isUuid, .required⟩,
    ⟨"role", oneOf ["ops_viewer", "ops_maintainer", "ops_owner"], .required⟩,
    ⟨"ipHash", digest, .required⟩, ⟨"userAgentHash", digest, .required⟩]

def agentActorSchema : JsonSchema :=
  .strict (actorFields zod) (by simp [actorFields])

/-- The fields of an envelope: `requestEnvelopeBaseSchema`, the operation and its body. -/
def envelopeFields (operation : String) (body : JsonSchema) : List JsonField :=
  [⟨"version", .number fun literal => literal.toInt? = some 1, .required⟩,
    ⟨"requestId", .string (isPrefixed "REQ_"), .required⟩,
    ⟨"issuedAt", .string zod.isDatetime, .required⟩,
    ⟨"expiresAt", .string zod.isDatetime, .required⟩,
    ⟨"actor", agentActorSchema zod, .required⟩, ⟨"hmacKeyId", stableId, .required⟩,
    ⟨"signature", hmacDigest, .required⟩, ⟨"operation", oneOf [operation], .required⟩,
    ⟨"body", body, .required⟩]

def envelopeSchema (operation : String) (body : JsonSchema) : JsonSchema :=
  .strict (envelopeFields zod operation body) (by simp [envelopeFields])

/-- The schema of the body of each operation. -/
def bodySchema : String → Option JsonSchema
  | "agent.capabilities" => some agentCapabilitiesRequestSchema
  | "inventory.read" => some inventoryReadRequestSchema
  | "change.validate" => some changeValidateRequestSchema
  | "change.save" => some changeSaveRequestSchema
  | "change.apply" => some changeApplyRequestSchema
  | "change.cancel" => some changeCancelRequestSchema
  | "change.status" => some changeStatusRequestSchema
  | "application.clearApplyBlock" => some clearApplyBlockRequestSchema
  | _ => none

/-- `AgentRequestSchema`: the operation chooses the envelope. -/
def agentRequestSchema : JsonSchema :=
  .union fun request =>
    (textOf "operation" request).bind fun operation =>
      (bodySchema operation).map fun body => envelopeSchema zod operation body

end NancyMan.Agent
