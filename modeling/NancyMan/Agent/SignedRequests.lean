import NancyMan.Agent.ChangeProtocol

/-!
# Signed requests

The client signs the canonical text of the envelope that it sends, and the agent checks the
signature against the canonical text of what its schema has made of the envelope. `verifies_iff`
says for which requests these are one text.
-/
namespace NancyMan.Agent

/-- What a request of the client is made of. -/
structure AgentCall where
  requestId : String
  issuedAt : String
  expiresAt : String
  actor : Json
  operation : String
  body : Json
  hmacKeyId : String

def signature (hmac : String → String) (text : String) : String := "hmac-sha256:v1:" ++ hmac text

namespace AgentCall

variable (call : AgentCall)

/-- The envelope without its signature. -/
def unsigned : List (String × Json) :=
  [("version", .number (.ofInt 1)), ("requestId", .string call.requestId),
    ("issuedAt", .string call.issuedAt), ("expiresAt", .string call.expiresAt),
    ("actor", call.actor), ("operation", .string call.operation), ("body", call.body),
    ("hmacKeyId", .string call.hmacKeyId)]

/-- `canonicalEnvelope` of the client: the text that it signs. -/
def canonicalEnvelope : String :=
  (Json.object (call.unsigned.filter fun property => property.1 ≠ "signature")).canonicalValue.render
    ++ "\n"

def signed (hmac : String → String) (call : AgentCall) : Json :=
  .object (call.unsigned ++ [("signature", .string (signature hmac call.canonicalEnvelope))])

def frame (hmac : String → String) (call : AgentCall) : String := (call.signed hmac).render

/-- A validation says whether it replaces the draft, and a cleared apply block has a summary without
space around it. -/
def Carried : Prop :=
  (call.operation = "change.validate" →
      ∀ properties, call.body = .object properties →
        ∃ value, properties.lookup "replaceDraft" = some value) ∧
    (call.operation = "application.clearApplyBlock" →
      ∀ properties text, call.body = .object properties →
        properties.lookup "remediationSummary" = some (.string text) → trimText text = text)

end AgentCall

/-! ## The agent -/

def unsignedEnvelope : Json → Json
  | .object properties => .object (properties.filter fun property => property.1 ≠ "signature")
  | value => value

def canonicalJson (value : Json) : String := value.canonicalValue.render ++ "\n"

def received (zod : ZodFormats) (frame : String) : Option Json :=
  (Json.parse frame).bind (agentRequestSchema zod).parse

def Verifies (hmac : String → String) (request : Json) : Prop :=
  textOf "signature" request = some (signature hmac (canonicalJson (unsignedEnvelope request)))

/-! ## Which schemas change what -/

open JsonSchema

@[simp] theorem plain_string (accepts : String → Bool) : Plain (.string accepts) := plain_accepted _

@[simp] theorem plain_number (accepts : Numeral → Bool) : Plain (.number accepts) :=
  plain_accepted _

@[simp] theorem plain_boolean (accepts : Bool → Bool) : Plain (.boolean accepts) :=
  plain_accepted _

@[simp] theorem plain_oneOf (names : List String) : Plain (oneOf names) := plain_accepted _

variable (name : String) {operation : String} {schema : JsonSchema}
  (properties : List (String × Json))

@[simp] theorem plainField_required (schema : JsonSchema) :
    PlainField ⟨name, schema, .required⟩ ↔ schema.Plain := by
  simp [PlainField]

@[simp] theorem plainField_optional (schema : JsonSchema) :
    PlainField ⟨name, schema, .optional⟩ ↔ schema.Plain := by
  simp [PlainField]

theorem plain_texts :
    Plain stableId ∧ Plain changeId ∧ Plain runId ∧ Plain eventId ∧ Plain hmacDigest ∧
      Plain digest ∧ Plain version ∧ Plain variableName ∧ Plain value ∧ Plain count ∧
      Plain category ∧ Plain changeOperation ∧ Plain changeApplyStrategy := by
  refine ⟨?_, ?_, ?_, ?_, ?_, ?_, ?_, ?_, ?_, ?_, ?_, ?_, ?_⟩ <;> exact plain_accepted _

theorem plain_changeItem : Plain changeItemSchema := by
  refine Plain.refine (plain_strict ?_) _
  simp [itemFields, plain_texts]

theorem plain_impactPlan : Plain changeImpactPlanSchema := by
  have counts : Plain (.strict countFields (by decide)) := by
    refine plain_strict ?_
    simp [countFields, plain_texts]
  refine plain_strict ?_
  simp [impactFields, plain_texts, counts, Plain.array]

theorem plain_actor (zod : ZodFormats) : Plain (agentActorSchema zod) := by
  refine plain_strict ?_
  simp [actorFields, plain_texts]

/-- The bodies of the other operations are left as they are. -/
theorem plain_body (chosen : bodySchema operation = some schema)
    (validate : operation ≠ "change.validate") (clear : operation ≠ "application.clearApplyBlock") :
    schema.Plain := by
  unfold bodySchema at chosen
  split at chosen <;> first | contradiction | obtain rfl := Option.some.inj chosen
  · exact plain_strict nofun
  · refine plain_strict ?_
    simp [inventoryFields, plain_texts, Plain.array]
  · refine plain_strict ?_
    simp [saveFields, plain_texts, plain_impactPlan]
  · refine plain_strict ?_
    simp [applyFields, plain_texts]
  · refine plain_strict ?_
    simp [cancelFields, plain_texts]
  · refine plain_strict ?_
    simp [statusFields, plain_texts]

/-- A validation is left as it is when it says whether it replaces the draft. -/
theorem validate_settled_iff :
    changeValidateRequestSchema.Settled (.object properties) ↔
      ∃ value, properties.lookup "replaceDraft" = some value := by
  have own : (⟨"replaceDraft", .boolean fun _ => true, .default (.boolean false)⟩ : JsonField) ∈
      validateFields := by
    simp [validateFields]
  have plain : ∀ field ∈ validateFields, field.name ≠ "replaceDraft" → PlainField field := by
    simp [validateFields, plain_texts, Plain.array plain_changeItem]
  rw [changeValidateRequestSchema]
  show (JsonSchema.strict validateFields (by decide)).Settled _ ↔ _
  rw [strict_settled_iff own plain]
  unfold FieldSettled
  dsimp only
  cases properties.lookup "replaceDraft" with
  | some value => exact iff_of_true trivial ⟨value, rfl⟩
  | none => exact iff_of_false (fun every => every _ rfl) nofun

/-- A cleared apply block is left as it is when its summary has no space around it. -/
theorem clear_settled_iff :
    clearApplyBlockRequestSchema.Settled (.object properties) ↔
      ∀ text, properties.lookup "remediationSummary" = some (.string text) →
        trimText text = text := by
  have own : (⟨"remediationSummary", .trimmed trimText (hasLength 1 1024), .required⟩ :
      JsonField) ∈ clearFields := by
    simp [clearFields]
  have plain : ∀ field ∈ clearFields, field.name ≠ "remediationSummary" → PlainField field := by
    simp [clearFields, plain_texts]
  rw [clearApplyBlockRequestSchema]
  show (JsonSchema.strict clearFields (by decide)).Settled _ ↔ _
  rw [strict_settled_iff own plain]
  unfold FieldSettled
  dsimp only
  cases properties.lookup "remediationSummary" with
  | some value =>
    constructor
    · rintro settled text ⟨⟩
      exact settled text rfl
    · rintro every text rfl
      exact every text rfl
  | none => exact iff_of_true nofun nofun

/-- A body is left as it is when it carries what its schema would add. -/
theorem body_settled_iff (chosen : bodySchema operation = some schema)
    (properties : List (String × Json)) :
    schema.Settled (.object properties) ↔
      (operation = "change.validate" → ∃ value, properties.lookup "replaceDraft" = some value) ∧
        (operation = "application.clearApplyBlock" →
          ∀ text, properties.lookup "remediationSummary" = some (.string text) →
            trimText text = text) := by
  by_cases validate : operation = "change.validate"
  · subst validate
    obtain rfl : changeValidateRequestSchema = schema := Option.some.inj chosen
    rw [validate_settled_iff]
    simp
  · by_cases clear : operation = "application.clearApplyBlock"
    · subst clear
      obtain rfl : clearApplyBlockRequestSchema = schema := Option.some.inj chosen
      rw [clear_settled_iff]
      simp
    · simp [validate, clear, plain_body chosen validate clear _]

/-- A body that is accepted is an object. -/
theorem object_of_body (chosen : bodySchema operation = some schema) {body parsed : Json}
    (parses : schema.parse body = some parsed) : ∃ properties, body = .object properties := by
  have strict' {fields : List JsonField} {distinct : (fields.map JsonField.name).Nodup}
      (parses : (JsonSchema.strict fields distinct).parse body = some parsed) :
      ∃ properties, body = .object properties := by
    obtain ⟨properties, -, same, -⟩ := strict_parse parses
    exact ⟨properties, same⟩
  unfold bodySchema at chosen
  split at chosen <;> first | contradiction | obtain rfl := Option.some.inj chosen
  · exact strict' parses
  · exact strict' parses
  · exact strict' (refine_parse (refine_parse parses))
  · exact strict' parses
  · exact strict' parses
  · exact strict' parses
  · exact strict' parses
  · exact strict' (refine_parse parses)

/-! ## The envelope -/

namespace AgentCall

variable {zod : ZodFormats} {hmac : String → String} {call : AgentCall} {request : Json}

/-- What the agent has received: the envelope, read by the schema of its operation. -/
theorem envelope_of_received (accepted : received zod (call.frame hmac) = some request) :
    ∃ schema, bodySchema call.operation = some schema ∧
      (envelopeSchema zod call.operation schema).parse (call.signed hmac) = some request := by
  rw [received, frame, Json.parse_render] at accepted
  have read : (agentRequestSchema zod).parse (call.signed hmac) = some request := accepted
  obtain ⟨envelope, chosen, parses⟩ := Option.bind_eq_some_iff.mp read
  have operation : textOf "operation" (call.signed hmac) = some call.operation := rfl
  dsimp only at chosen
  rw [operation] at chosen
  obtain ⟨schema, body, same⟩ := Option.map_eq_some_iff.mp chosen
  subst same
  exact ⟨schema, body, parses⟩

variable {schema : JsonSchema}

/-- The envelope is left as it is when its body carries what the schema would add. -/
theorem envelope_settled_iff (chosen : bodySchema call.operation = some schema) {parsed : Json}
    (parses : schema.parse call.body = some parsed) :
    (envelopeSchema zod call.operation schema).Settled (call.signed hmac) ↔ call.Carried := by
  have own : (⟨"body", schema, .required⟩ : JsonField) ∈
      envelopeFields zod call.operation schema := by
    simp [envelopeFields]
  have plain : ∀ field ∈ envelopeFields zod call.operation schema, field.name ≠ "body" →
      PlainField field := by
    simp [envelopeFields, plain_texts, plain_actor]
  have body : (call.unsigned ++ [("signature", Json.string (signature hmac
      call.canonicalEnvelope))]).lookup "body" = some call.body := rfl
  obtain ⟨properties, object⟩ := object_of_body chosen parses
  rw [envelopeSchema, signed, strict_settled_iff own plain, FieldSettled]
  dsimp only
  rw [body, object]
  show schema.Settled (.object properties) ↔ _
  rw [body_settled_iff chosen, Carried, object]
  refine and_congr (forall_congr' fun _ => ?_) (forall_congr' fun _ => ?_)
  · constructor
    · rintro carried _ ⟨⟩
      exact carried
    · exact fun carried => carried properties rfl
  · constructor
    · rintro carried _ text ⟨⟩
      exact carried text
    · exact fun carried text => carried properties text rfl

/-- What the agent has received is an object with the signature that was sent, and its canonical
text is the one that was signed exactly when the canonical forms of the envelopes are one. -/
theorem canonicalJson_eq_iff
    (parses : (envelopeSchema zod call.operation schema).parse (call.signed hmac) = some request) :
    textOf "signature" request = some (signature hmac call.canonicalEnvelope) ∧
      (canonicalJson (unsignedEnvelope request) = call.canonicalEnvelope ↔
        request.canonicalValue = (call.signed hmac).canonicalValue) := by
  obtain ⟨sent, read, same, made, once, read_once, fields⟩ := strict_parse parses
  have members : (⟨"signature", hmacDigest, .required⟩ : JsonField) ∈
      envelopeFields zod call.operation schema := by
    simp [envelopeFields]
  have signed_sent : sent.lookup "signature" =
      some (.string (signature hmac call.canonicalEnvelope)) := by
    obtain rfl := Json.object.inj same
    rfl
  have reads := fields _ members
  have signed_read : read.lookup "signature" = sent.lookup "signature" := by
    unfold readField at reads
    dsimp only at reads
    rw [signed_sent] at reads ⊢
    obtain ⟨parsed, accepted, found⟩ := Option.map_eq_some_iff.mp reads
    obtain ⟨-, kept⟩ := Option.ite_none_right_eq_some.mp accepted
    exact found.symm.trans kept.symm
  have own : call.canonicalEnvelope = canonicalJson (unsignedEnvelope (call.signed hmac)) := by
    unfold canonicalEnvelope canonicalJson unsignedEnvelope signed
    dsimp only
    rw [List.filter_append]
    congr 4
  subst made
  rw [own, same]
  constructor
  · show (read.lookup "signature").bind Json.string? = _
    rw [signed_read, signed_sent, ← same, ← own]
    rfl
  · unfold canonicalJson unsignedEnvelope
    dsimp only
    rw [← Json.canonicalValue_without_iff read_once once (congrArg _ signed_read)]
    constructor
    · intro equal
      exact Json.render_injective (String.append_left_inj _ |>.mp equal)
    · intro equal
      rw [equal]

/-- The agent's canonical text is the one that was signed exactly when the body carries what its
schema would add. -/
theorem same_bytes_iff (accepted : received zod (call.frame hmac) = some request) :
    canonicalJson (unsignedEnvelope request) = call.canonicalEnvelope ↔ call.Carried := by
  obtain ⟨schema, chosen, parses⟩ := envelope_of_received accepted
  obtain ⟨sent, read, envelope, -, -, -, fields⟩ := strict_parse parses
  have own : (⟨"body", schema, .required⟩ : JsonField) ∈
      envelopeFields zod call.operation schema := by
    simp [envelopeFields]
  have body : ∃ parsed, schema.parse call.body = some parsed := by
    have reads := fields _ own
    obtain rfl := Json.object.inj envelope
    obtain ⟨parsed, accepts, -⟩ := Option.map_eq_some_iff.mp reads
    exact ⟨parsed, accepts⟩
  obtain ⟨parsed, accepts⟩ := body
  rw [(canonicalJson_eq_iff parses).2,
    (envelopeSchema zod call.operation schema).settled_iff parses,
    envelope_settled_iff chosen accepts]

/-- A request that the client signs and the agent's schema accepts is verified over the bytes that the
client has signed exactly when it carries what the schema would add: a validation has a `replaceDraft`
and the summary of a cleared apply block has no space around it. -/
theorem verifies_iff (accepted : received zod (call.frame hmac) = some request) :
    (Verifies hmac request ∧
        canonicalJson (unsignedEnvelope request) = call.canonicalEnvelope) ↔
      call.Carried := by
  constructor
  · rintro ⟨-, same⟩
    exact (same_bytes_iff accepted).mp same
  · intro carried
    have same := (same_bytes_iff accepted).mpr carried
    obtain ⟨schema, -, parses⟩ := envelope_of_received accepted
    have signed := (canonicalJson_eq_iff parses).1
    refine ⟨?_, same⟩
    rw [Verifies, signed, same]

/-! ## A cleared apply block -/

/-- The formats as the envelopes below have them. -/
def sampleFormats : ZodFormats where
  isDatetime text := text = "2026-01-01T00:00:00.000Z" || text = "2026-01-01T00:00:15.000Z"
  isUuid text := isOpaqueUuid text

/-- A request to clear an apply block. -/
def clearing (summary : String) : AgentCall where
  requestId := "REQ_1"
  issuedAt := "2026-01-01T00:00:00.000Z"
  expiresAt := "2026-01-01T00:00:15.000Z"
  actor := .object [("userId", .string "00000000-0000-4000-8000-000000000001"),
    ("sessionId", .string "00000000-0000-4000-8000-000000000002"), ("role", .string "ops_owner"),
    ("ipHash", .string ("sha256:" ++ String.ofList (List.replicate 64 '0'))),
    ("userAgentHash", .string ("sha256:" ++ String.ofList (List.replicate 64 '0')))]
  operation := "application.clearApplyBlock"
  body := .object [("appId", .string "app"), ("confirmationAppId", .string "app"),
    ("remediationSummary", .string summary), ("incidentId", .string "incident"),
    ("eventId", .string "EVT_1")]
  hmacKeyId := "key-1"

/-- A summary without space around it is verified. -/
theorem trimmed_verifies :
    ∃ request, received sampleFormats ((clearing "fixed").frame fun _ =>
        "509cdc28bd2b9aee3fd1f4ca54718665b2d15086e2d26e0d688bfad364e26966") = some request ∧
      Verifies (fun _ => "509cdc28bd2b9aee3fd1f4ca54718665b2d15086e2d26e0d688bfad364e26966")
        request ∧
      canonicalJson (unsignedEnvelope request) = (clearing "fixed").canonicalEnvelope := by
  have some' : (received sampleFormats ((clearing "fixed").frame fun _ =>
      "509cdc28bd2b9aee3fd1f4ca54718665b2d15086e2d26e0d688bfad364e26966")).isSome := by
    rw [received, frame, Json.parse_render]
    decide +kernel
  obtain ⟨request, accepted⟩ := Option.isSome_iff_exists.mp some'
  refine ⟨request, accepted, (verifies_iff accepted).mpr ⟨?_, ?_⟩⟩
  · exact fun same => absurd same (by decide)
  · rintro - _ text ⟨⟩ ⟨⟩
    decide

/-- A summary with a space before it is accepted and not verified over the bytes that were signed. -/
theorem untrimmed_differs :
    ¬ ∀ (zod : ZodFormats) (hmac : String → String) (call : AgentCall) (request : Json),
      received zod (call.frame hmac) = some request →
        canonicalJson (unsignedEnvelope request) = call.canonicalEnvelope := by
  intro all
  have some' : (received sampleFormats ((clearing " fixed").frame fun _ =>
      "45984bd025867bdcedd5df993819b07b50d5c8574f63b7108ae4b2c0a129dbd5")).isSome := by
    rw [received, frame, Json.parse_render]
    decide +kernel
  obtain ⟨request, accepted⟩ := Option.isSome_iff_exists.mp some'
  have carried := (same_bytes_iff accepted).mp (all _ _ _ _ accepted)
  have trimmed := carried.2 rfl _ " fixed" rfl rfl
  exact absurd trimmed (by decide)

end AgentCall

end NancyMan.Agent
