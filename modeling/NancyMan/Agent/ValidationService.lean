import NancyMan.Agent.ApplyCoordinator
import NancyMan.Agent.ChangeProtocol
import NancyMan.Agent.SourceAssignments
import NancyMan.Lib.Fallible

/-!
# Validating a change

`validate` reads every source that a change touches, checks its items against the catalog and the
definitions found there, and computes the bytes that each source is to have. The draft it stores has
the items but not those bytes.
-/
namespace NancyMan.Agent

open ControlPlane (ChangeStrategy ImpactPlan)
open Fallible (bind_ok map_ok)

inductive ValidationErrorCode where
  | validationRequestInvalid
  | catalogMetadataMismatch
  | unknownVariable
  | observedVariable
  | requiredDelete
  | sourceNotFound
  | duplicateDefinition
  | configSourceChanged
  | sourceParseFailed
  | variableRuleFailed
  | crossVariableRuleFailed
  | applicationValidatorFailed
  | publicBuildNotAllowed
  | validationStorageFailed

inductive SourceMutability where
  | catalogControlled
  | observed
deriving DecidableEq

inductive Mutability where
  | managed
  | observed
deriving DecidableEq

inductive Sensitivity where
  | «public»
  | internal
  | secret
deriving DecidableEq

/-- A source of the manifest; it has no adapter where the manifest says `none`. -/
structure ManifestSource where
  id : String
  appId : String
  adapterId : Option SourceAdapterId
  mutability : SourceMutability
  maximumBytes : Int
  precedenceRank : Nat
  actionIds : Option (List String)
  checkIds : Option (List String)

structure Manifest where
  manifestVersion : String
  catalogVersion : String
  sources : List ManifestSource

structure CatalogEntry where
  id : String
  name : String
  appId : String
  sourceId : String
  sensitivity : Sensitivity
  requirement : ItemRequirement
  mutability : Mutability
  applyStrategy : ChangeStrategy
  validatorId : Option String
  buildAllowed : Bool

inductive ValidatorRule where
  | url (allowedSchemes : List String)
  | integer (minimum maximum : Option Int)
  | enum (allowedValues : List String)
  | regex (pattern : String) (flags : Option String)
  | nonEmpty
  | json

structure Validator where
  id : String
  rule : ValidatorRule

structure Catalog where
  catalogVersion : String
  entries : List CatalogEntry
  validators : List Validator

/-- An item of a request; its schema accepts only what a requirement and an operation allow. -/
structure ChangeItem where
  appId : String
  sourceId : String
  catalogId : String
  name : String
  operation : ItemOperation
  requirement : ItemRequirement
  mutability : Mutability
  strategy : ChangeStrategy
  sourceFingerprint : String
  value : Option String

structure ChangeValidateRequest where
  changeId : String
  appId : String
  items : List ChangeItem
  catalogVersion : String
  manifestVersion : String

/-- An item of a draft: what is staged of it, and its place in the catalog. -/
structure PersistedChangeItem extends StagedChangeItem where
  appId : String
  catalogId : String

structure ValidatedChangeDraft where
  changeId : String
  appId : String
  catalogVersion : String
  manifestVersion : String
  changeDigest : String
  expiresAt : Int
  sourceIds : List String
  actionIds : List String
  checkIds : List String
  items : List PersistedChangeItem

/-- `asStaged`: the draft as an apply reads it. -/
def ValidatedChangeDraft.asStaged (draft : ValidatedChangeDraft) : StagedChangePayload where
  changeId := draft.changeId
  appId := draft.appId
  catalogVersion := draft.catalogVersion
  manifestVersion := draft.manifestVersion
  changeDigest := draft.changeDigest
  expiresAt := some draft.expiresAt
  sourceIds := draft.sourceIds
  actionIds := draft.actionIds
  checkIds := draft.checkIds
  items := draft.items.map (·.toStagedChangeItem)

structure ItemFingerprints where
  catalogId : String
  sourceId : String
  oldValueFingerprint : String
  newValueFingerprint : String

structure ValidationResult where
  changeId : String
  changeDigest : String
  itemFingerprints : List ItemFingerprints
  impactPlan : ImpactPlan
  ruleIds : List String
  warnings : List String

structure ValidationApplicationContext where
  appId : String
  changeId : String
  sourceIds : List String
  proposedSourceBytes : List (String × List UInt8)

/-- What reading a source throws: an error of the service, or another, with its `code` if it has
one. -/
inductive ReadFailure where
  | validation (code : ValidationErrorCode)
  | other (code : Option String)

def ReadFailure.code : ReadFailure → ValidationErrorCode
  | .validation code => code
  | .other code =>
    if code = some "SOURCE_METADATA_DRIFT" then .configSourceChanged else .sourceNotFound

/-- What the service calls that is not its own: the parser of `pm2` files, which reads no source
that can be written, the URLs and regular expressions of the language, and the fingerprint that the
key gives to bytes. -/
structure ValidationRuntime where
  parsePm2 : List UInt8 → ParseOptions → Except SourceAdapterError (List ParsedDefinition)
  /-- `new URL(value).protocol`, if that is a URL. -/
  urlProtocol : String → Option String
  /-- `new RegExp(pattern, flags).test(value)`, if that is a pattern. -/
  regexTest : String → Option String → String → Option Bool
  hmac : List UInt8 → String

structure ValidationServiceOptions extends ValidationRuntime where
  catalog : Catalog
  manifest : Manifest
  readSource : ManifestSource → Except ReadFailure (List UInt8)
  credentialDisplayEncodings : List (String × ValueEncoding)
  /-- Whether an application accepts the proposed bytes, where it has a validator. -/
  applicationValidator : Option (ValidationApplicationContext → Bool)
  /-- Whether the items of an application pass each rule about several variables. -/
  crossVariableValidators : List (String → List ChangeItem → Bool)
  now : Int
  /-- Whether a draft is stored. -/
  replaceDraft : ValidatedChangeDraft → Bool

/-! ## Fingerprints and rules -/

variable (runtime : ValidationRuntime)

def ValidationRuntime.hmacFingerprint (domain : String) (bytes : List UInt8) : String :=
  runtime.hmac (Utf8.bytes domain.toList ++ bytes)

/-- Refuse with a code. -/
def refuseIf (refused : Prop) [Decidable refused] (code : ValidationErrorCode) :
    Except ValidationErrorCode Unit :=
  if refused then .error code else .ok ()

def underId {α : Type} (idOf : α → String) (entries : List α) (id : String) : Option α :=
  (entries.filter fun entry => idOf entry = id).getLast?

/-- The integer that a text of digits denotes. -/
def integerText? : List Char → Option Int
  | '-' :: digits => (decimalDigits digits).map fun value => -value
  | digits => (decimalDigits digits).map fun value => value

/-- Whether a value passes a rule. -/
def ValidationRuntime.passes (value : String) : ValidatorRule → Bool
  | .url allowedSchemes =>
    (runtime.urlProtocol value).any fun protocol =>
      allowedSchemes.any fun scheme => scheme.toList = protocol.toList.dropLast
  | .integer minimum maximum =>
    (integerText? value.toList).any fun numeric =>
      numeric.natAbs ≤ maximumSafeInteger && minimum.all (· ≤ numeric) && maximum.all (numeric ≤ ·)
  | .enum allowedValues => value ∈ allowedValues
  | .regex pattern flags => runtime.regexTest pattern flags value = some true
  | .nonEmpty => !(trim value.toList).isEmpty
  | .json => (Json.parse value).isSome

/-- `validateValue`, with the id of the rule that the value passes. -/
def ValidationServiceOptions.validateValue (options : ValidationServiceOptions)
    (entry : CatalogEntry) (value : String) : Except ValidationErrorCode String :=
  if 65536 < Utf8.byteLength value.toList ∨ '\x00' ∈ value.toList then .error .variableRuleFailed
  else
    match entry.validatorId.filter (· ≠ "") with
    | none => .ok "value.present"
    | some validatorId =>
      match options.catalog.validators.find? fun candidate => candidate.id = validatorId with
      | none => .error .variableRuleFailed
      | some validator =>
        if options.passes value validator.rule then .ok validator.id else .error .variableRuleFailed

def catalogMatch (item : ChangeItem) (entry : CatalogEntry) : Bool :=
  item.appId = entry.appId && item.sourceId = entry.sourceId && item.catalogId = entry.id &&
    item.name = entry.name && item.requirement = entry.requirement &&
    item.mutability = entry.mutability && item.strategy = entry.applyStrategy

/-! ## Parsing the sources -/

/-- `adapter.parse` of the adapter of a source. -/
def ValidationRuntime.parse (adapterId : SourceAdapterId) (maximumBytes : Int) (bytes : List UInt8)
    (name : String) (displayEncoding : ValueEncoding) : Except SourceAdapterError ParsedSource :=
  let options : ParseOptions := ⟨some maximumBytes⟩
  match adapterId with
  | .nodeEnvFile => parseTextAssignments bytes .nodeEnvFile options
  | .systemdEnvironmentFile => parseTextAssignments bytes .systemdEnvironmentFile options
  | .dotenv => parseTextAssignments bytes .dotenv options
  | .systemdCredentialFile =>
    parseSystemdCredentialFile bytes name.toList displayEncoding options
  | .pm2EcosystemStatic =>
    (runtime.parsePm2 bytes options).map fun definitions =>
      ⟨.pm2EcosystemStatic, bytes, definitions, true⟩

def ValidationRuntime.parseSource (source : ManifestSource) (bytes : List UInt8)
    (credentialName : String) (displayEncoding : ValueEncoding) :
    Except ValidationErrorCode ParsedSource :=
  match source.adapterId with
  | none => .error .sourceParseFailed
  | some adapterId =>
    if adapterId = .systemdCredentialFile ∧ credentialName = "" then .error .sourceParseFailed
    else
      match runtime.parse adapterId source.maximumBytes bytes credentialName displayEncoding with
      | .error _ => .error .sourceParseFailed
      | .ok parsed => if parsed.bytes = bytes then .ok parsed else .error .sourceParseFailed

/-- The one definition of a name. -/
def findDefinition (parsed : ParsedSource) (name : String) :
    Except ValidationErrorCode ParsedDefinition :=
  match parsed.definitions.filter fun definition => definition.name = name.toList with
  | [] => .error .sourceNotFound
  | [definition] =>
    if definition.duplicateOrdinal = 0 then .ok definition else .error .duplicateDefinition
  | _ => .error .duplicateDefinition

/-! ## Items -/

/-- The variables of `validate` that its loop over the items fills. -/
structure ValidationProgress where
  sourceReads : List (String × List UInt8)
  parsedSources : List (String × ParsedSource)
  touchedSources : List ManifestSource
  persistedItems : List PersistedChangeItem
  itemFingerprints : List ItemFingerprints
  ruleIds : List String
  warnings : List String
  setCount : Nat
  deleteCount : Nat

def ValidationProgress.start : ValidationProgress := ⟨[], [], [], [], [], [], [], 0, 0⟩

namespace ValidationServiceOptions

variable (options : ValidationServiceOptions)

/-- `encodings[sourceId] ?? 'text'`. -/
def encodingOf (sourceId : String) : ValueEncoding :=
  (options.credentialDisplayEncodings.lookup sourceId).getD .text

/-- `sourceById.get(id)`. -/
def sourceById (id : String) : Option ManifestSource :=
  underId ManifestSource.id options.manifest.sources id

/-- `catalogById.get(id)`. -/
def catalogById (id : String) : Option CatalogEntry :=
  underId CatalogEntry.id options.catalog.entries id

/-- The source and the entry of an item, if they allow it. -/
def locate (appId : String) (item : ChangeItem) :
    Except ValidationErrorCode (ManifestSource × CatalogEntry) :=
  match options.sourceById item.sourceId, options.catalogById item.catalogId with
  | _, none => .error .unknownVariable
  | none, some _ => .error .catalogMetadataMismatch
  | some source, some entry =>
    if !catalogMatch item entry || source.appId ≠ appId || entry.appId ≠ appId then
      .error .catalogMetadataMismatch
    else if source.mutability ≠ .catalogControlled ∨ entry.mutability = .observed then
      .error .observedVariable
    else if item.operation = .delete ∧ entry.requirement ≠ .optional then .error .requiredDelete
    else .ok (source, entry)

/-- The bytes of a source, which is read once. -/
def readOnce (progress : ValidationProgress) (source : ManifestSource) :
    Except ValidationErrorCode (List UInt8) :=
  match progress.sourceReads.lookup source.id with
  | some bytes => .ok bytes
  | none =>
    match options.readSource source with
    | .error failure => .error failure.code
    | .ok bytes => .ok bytes

/-- The definitions of a source, which is parsed once: a credential has the name it has in the
entry of the first item. -/
def parseOnce (progress : ValidationProgress) (source : ManifestSource) (bytes : List UInt8)
    (candidateName : String) : Except ValidationErrorCode ParsedSource :=
  match progress.parsedSources.lookup source.id with
  | some parsed => .ok parsed
  | none => options.parseSource source bytes candidateName (options.encodingOf source.id)

/-- Whether a source that ranks before another of its application exists. -/
def exposesLower (source : ManifestSource) : Bool :=
  options.manifest.sources.any fun candidate =>
    candidate.id ≠ source.id && candidate.appId = source.appId &&
      candidate.precedenceRank < source.precedenceRank

/-- What the operation of an item adds to the rules, the warnings and the counts. -/
def countOperation (progress : ValidationProgress) (source : ManifestSource)
    (entry : CatalogEntry) (item : ChangeItem) : Except ValidationErrorCode ValidationProgress :=
  match item.operation with
  | .set =>
    (options.validateValue entry (item.value.getD "")).map fun ruleId =>
      { progress with
        ruleIds := progress.ruleIds ++ [ruleId]
        setCount := progress.setCount + 1 }
  | .delete =>
    .ok { progress with
      warnings := progress.warnings ++
        if options.exposesLower source then ["DELETE_EXPOSES_LOWER_PRECEDENCE"] else []
      deleteCount := progress.deleteCount + 1 }

/-- The fingerprints of the value of a definition and of what an item makes of it. -/
def fingerprintsOf (entry : CatalogEntry) (source : ManifestSource)
    (definition : ParsedDefinition) (item : ChangeItem) : ItemFingerprints where
  catalogId := entry.id
  sourceId := source.id
  oldValueFingerprint := options.hmacFingerprint entry.id definition.valueBytes
  newValueFingerprint := options.hmacFingerprint entry.id
    (Utf8.bytes (if item.operation = .delete then [] else (item.value.getD "").toList))

end ValidationServiceOptions

/-- An item as the draft has it. -/
def ChangeItem.persisted (item : ChangeItem) (entry : CatalogEntry) : PersistedChangeItem where
  appId := item.appId
  sourceId := item.sourceId
  catalogId := item.catalogId
  name := item.name
  duplicateOrdinal := 0
  operation := item.operation
  requirement := entry.requirement
  value := item.value
  sourceFingerprint := item.sourceFingerprint

/-- `map.set(source.id, source)`, which keeps the place of a source that is there. -/
def touch (sources : List ManifestSource) (source : ManifestSource) : List ManifestSource :=
  if sources.any fun other => other.id = source.id then sources else sources ++ [source]

namespace ValidationServiceOptions

variable (options : ValidationServiceOptions)

/-- One round of the loop of `validate`. -/
def validateItem (appId : String) (progress : ValidationProgress) (item : ChangeItem) :
    Except ValidationErrorCode ValidationProgress := do
  let (source, entry) ← options.locate appId item
  let bytes ← options.readOnce progress source
  refuseIf (options.hmacFingerprint source.id bytes ≠ item.sourceFingerprint) .configSourceChanged
  let parsed ← options.parseOnce progress source bytes entry.name
  let definition ← findDefinition parsed item.name
  let counted ← options.countOperation progress source entry item
  return { counted with
    sourceReads := (source.id, bytes) :: progress.sourceReads
    parsedSources := (source.id, parsed) :: progress.parsedSources
    touchedSources := touch progress.touchedSources source
    itemFingerprints := progress.itemFingerprints ++
      [options.fingerprintsOf entry source definition item]
    persistedItems := progress.persistedItems ++ [item.persisted entry] }

end ValidationServiceOptions

/-! ## Proposed bytes -/

def ItemOperation.write : ItemOperation → WriteOperation
  | .set => .set
  | .delete => .delete

def ItemRequirement.write : ItemRequirement → Requirement
  | .required => .required
  | .optional => .optional

/-- The operation of an item on its source. -/
def StagedChangeItem.writeOperation (item : StagedChangeItem)
    (valueEncoding : Option ValueEncoding) : SourceWriteOperation where
  name := item.name.toList
  duplicateOrdinal := item.duplicateOrdinal
  operation := item.operation.write
  requirement := item.requirement.write
  value := item.value.map String.toList
  valueEncoding

/-- The digest of a change: the fingerprint of its items, written as JSON. -/
def PersistedChangeItem.json (item : PersistedChangeItem) : Json :=
  .object <|
    [("appId", .string item.appId), ("sourceId", .string item.sourceId),
      ("catalogId", .string item.catalogId), ("name", .string item.name),
      ("duplicateOrdinal", .number (.ofInt item.duplicateOrdinal)),
      ("operation", .string (if item.operation = .set then "set" else "delete")),
      ("requirement", .string (if item.requirement = .required then "required" else "optional")),
      ("sourceFingerprint", .string item.sourceFingerprint)] ++
    (item.value.map fun value => ("value", Json.string value)).toList

def canonicalPatch (items : List PersistedChangeItem) : List UInt8 :=
  Utf8.bytes ((Json.array (items.map PersistedChangeItem.json)).render.toList ++ ['\n'])

/-- The name of a strategy in the contracts. -/
def strategyName : ChangeStrategy → String
  | .noRuntimeAction => "no_runtime_action"
  | .nextJob => "next_job"
  | .runtimeRestart => "runtime_restart"
  | .credentialRestart => "credential_restart"
  | .buildRedeploy => "build_redeploy"

/-- `[...new Set(names)].sort()`. -/
def sortedNames (names : List String) : List String :=
  names.eraseDups.insertionSort fun left right => Json.nameRank left ≤ Json.nameRank right

/-- The strategies of some entries, in the order of their names. -/
def sortedStrategies (strategies : List ChangeStrategy) : List ChangeStrategy :=
  strategies.eraseDups.insertionSort fun left right =>
    Json.nameRank (strategyName left) ≤ Json.nameRank (strategyName right)

/-- `impactPlan`, with the counts of `validate`. -/
def impactPlan (appId : String) (entries : List CatalogEntry) (sources : List ManifestSource)
    (progress : ValidationProgress) : ImpactPlan :=
  let strategies := sortedStrategies (entries.map (·.applyStrategy))
  let sourceIds := sortedNames (sources.map (·.id))
  { applicationId := appId
    strategies
    sourceIds
    actionIds := sortedNames (sources.flatMap fun source => source.actionIds.getD [])
    checkIds := sortedNames (sources.flatMap fun source => source.checkIds.getD [])
    counts :=
      { items := entries.length, sets := progress.setCount, deletes := progress.deleteCount,
        sources := sourceIds.length }
    warnings := progress.warnings
    expectedEffect := strategies.head?.getD .noRuntimeAction }

/-- What `validate` has at its end: the bytes that it computed, the draft that it stored and its
answer. -/
structure ValidatedChange where
  proposedSourceBytes : List (String × List UInt8)
  draft : ValidatedChangeDraft
  result : ValidationResult

namespace ValidationServiceOptions

variable (options : ValidationServiceOptions)

/-- The operations on a source, which name the encoding of a credential. -/
def operationsOn (items : List PersistedChangeItem) (source : ManifestSource) :
    List SourceWriteOperation :=
  (items.filter fun item => item.sourceId = source.id).map fun item =>
    item.writeOperation <|
      if source.adapterId = some .systemdCredentialFile then some (options.encodingOf source.id)
      else none

/-- The bytes that a source is to have. -/
def propose (progress : ValidationProgress) (source : ManifestSource) :
    Except ValidationErrorCode (String × List UInt8) :=
  match progress.parsedSources.lookup source.id with
  | none => .error .sourceParseFailed
  | some parsed =>
    match serializeUpdatedSource parsed (options.operationsOn progress.persistedItems source) with
    | .error _ => .error .sourceParseFailed
    | .ok bytes => .ok (source.id, bytes)

variable (request : ChangeValidateRequest)

/-- Whether a validator of the application refuses the proposed bytes. -/
def applicationRefuses (progress : ValidationProgress)
    (proposedSourceBytes : List (String × List UInt8)) : Bool :=
  options.applicationValidator.any fun accepts =>
    !accepts ⟨request.appId, request.changeId, progress.touchedSources.map (·.id),
      proposedSourceBytes⟩

/-- Whether an item that is built into a release may not be. -/
def buildRefused (plan : ImpactPlan) : Bool :=
  plan.strategies.contains .buildRedeploy && request.items.any fun item =>
    !(options.catalogById item.catalogId).any fun entry =>
      entry.sensitivity = .public && entry.buildAllowed

/-- The draft of a change. -/
def draftOf (progress : ValidationProgress) (plan : ImpactPlan) : ValidatedChangeDraft where
  changeId := request.changeId
  appId := request.appId
  catalogVersion := request.catalogVersion
  manifestVersion := request.manifestVersion
  changeDigest :=
    options.hmacFingerprint "change_digest" (canonicalPatch progress.persistedItems)
  expiresAt := options.now + 86400000
  sourceIds := plan.sourceIds
  actionIds := plan.actionIds
  checkIds := plan.checkIds
  items := progress.persistedItems

/-- `validate`, of a request that its schema accepts. -/
def validateRequest : Except ValidationErrorCode ValidatedChange := do
  refuseIf (request.catalogVersion ≠ options.catalog.catalogVersion ∨
    request.manifestVersion ≠ options.manifest.manifestVersion ∨
    options.manifest.catalogVersion ≠ options.catalog.catalogVersion) .catalogMetadataMismatch
  let progress ← request.items.foldlM (options.validateItem request.appId) .start
  refuseIf (options.crossVariableValidators.any fun accepts => !accepts request.appId request.items)
    .crossVariableRuleFailed
  let proposedSourceBytes ← progress.touchedSources.mapM (options.propose progress)
  refuseIf (options.applicationRefuses request progress proposedSourceBytes)
    .applicationValidatorFailed
  let entries := request.items.filterMap fun item => options.catalogById item.catalogId
  let plan := impactPlan request.appId entries progress.touchedSources progress
  refuseIf (options.buildRefused request plan) .publicBuildNotAllowed
  let draft := options.draftOf request progress plan
  refuseIf (!options.replaceDraft draft) .validationStorageFailed
  return ⟨proposedSourceBytes, draft,
    ⟨request.changeId, draft.changeDigest, progress.itemFingerprints, plan,
      sortedNames progress.ruleIds, sortedNames progress.warnings⟩⟩

end ValidationServiceOptions

/-! ## Requests -/

/-- The code of a request that its schema refuses. -/
def classifyRequestFailure (rawRequest : Json) : ValidationErrorCode :=
  ((itemsOf rawRequest).findSome? fun item =>
    if textOf "operation" item = some "delete" ∧ textOf "requirement" item = some "required" then
      some .requiredDelete
    else if textOf "mutability" item = some "observed" ∨
        textOf "requirement" item = some "unknown" then
      some .observedVariable
    else none).getD .validationRequestInvalid

/-- The item of an accepted request. -/
def changeItem? (item : Json) : Option ChangeItem := do
  let operation ← textOf "operation" item
  let requirement ← textOf "requirement" item
  let mutability ← textOf "mutability" item
  let strategy ← textOf "strategy" item
  return {
    appId := ← textOf "appId" item
    sourceId := ← textOf "sourceId" item
    catalogId := ← textOf "catalogId" item
    name := ← textOf "name" item
    operation := ← [("set", .set), ("delete", .delete)].lookup operation
    requirement := ← [("required", .required), ("optional", .optional)].lookup requirement
    mutability := ← [("managed", .managed), ("observed", .observed)].lookup mutability
    strategy := ← [.noRuntimeAction, .nextJob, .runtimeRestart, .credentialRestart,
      .buildRedeploy].find? fun known => strategyName known = strategy
    sourceFingerprint := ← textOf "sourceFingerprint" item
    value := textOf "value" item }

/-- An accepted request. -/
def changeValidateRequest? (request : Json) : Option ChangeValidateRequest := do
  return {
    changeId := ← textOf "changeId" request
    appId := ← textOf "appId" request
    items := ← (itemsOf request).mapM changeItem?
    catalogVersion := ← textOf "catalogVersion" request
    manifestVersion := ← textOf "manifestVersion" request }

/-- `validate`. The second parse of each item, by the schema that has accepted it, is left out. -/
def ValidationServiceOptions.validate (options : ValidationServiceOptions) (rawRequest : Json) :
    Except ValidationErrorCode ValidatedChange :=
  match (changeValidateRequestSchema.parse rawRequest).bind changeValidateRequest? with
  | none => .error (classifyRequestFailure rawRequest)
  | some request => options.validateRequest request

/-! ## What an accepted item says -/

theorem refuseIf_ok {refused : Prop} [Decidable refused] {code : ValidationErrorCode} {done : Unit}
    (passed : refuseIf refused code = .ok done) : ¬ refused := by
  intro holds
  rw [refuseIf, if_pos holds] at passed
  cases passed

theorem underId_id {α : Type} {idOf : α → String} {entries : List α} {id : String} {entry : α}
    (found : underId idOf entries id = some entry) : idOf entry = id := by
  have member := List.mem_of_getLast? found
  simpa using (List.mem_filter.mp member).2

/-- A definition that is found has the name. -/
theorem findDefinition_ok {parsed : ParsedSource} {name : String} {definition : ParsedDefinition}
    (found : findDefinition parsed name = .ok definition) :
    (parsed.definitions.filter fun other => other.name = name.toList) = [definition] := by
  unfold findDefinition at found
  split at found
  · cases found
  · rename_i only single
    split at found
    · obtain rfl := Except.ok.inj found
      exact single
    · cases found
  · cases found

namespace ValidationServiceOptions

variable {options : ValidationServiceOptions} {source : ManifestSource}

/-- The source and the entry of an item that is not refused. -/
theorem locate_ok {appId : String} {item : ChangeItem} {entry : CatalogEntry}
    (located : options.locate appId item = .ok (source, entry)) :
    options.sourceById item.sourceId = some source ∧ source.mutability = .catalogControlled ∧
      entry.name = item.name := by
  unfold locate at located
  split at located
  · cases located
  · cases located
  · rename_i found known
    split at located
    · cases located
    · split at located
      · cases located
      · split at located
        · cases located
        · rename_i matched controlled _
          obtain ⟨rfl, rfl⟩ := Prod.mk.inj (Except.ok.inj located)
          simp only [Bool.or_eq_true, not_or, Bool.not_eq_true', Bool.not_eq_false] at matched
          have same := matched.1.1
          simp only [catalogMatch, Bool.and_eq_true, decide_eq_true_eq] at same
          exact ⟨found, not_not.mp (not_or.mp controlled).1, same.1.1.1.2.symm⟩

/-- What the bytes of a source are read from. -/
theorem readOnce_ok {progress : ValidationProgress} {bytes : List UInt8}
    (read : options.readOnce progress source = .ok bytes) :
    progress.sourceReads.lookup source.id = some bytes ∨ options.readSource source = .ok bytes := by
  unfold readOnce at read
  split at read
  · obtain rfl := Except.ok.inj read
    exact .inl ‹_›
  · split at read
    · cases read
    · obtain rfl := Except.ok.inj read
      exact .inr ‹_›

/-- What a parse of a source is. -/
theorem parseSource_ok {bytes : List UInt8} {name : String} {encoding : ValueEncoding}
    {parsed : ParsedSource} (read : options.parseSource source bytes name encoding = .ok parsed) :
    ∃ adapterId, source.adapterId = some adapterId ∧
      (adapterId = .systemdCredentialFile → name ≠ "") ∧
      options.parse adapterId source.maximumBytes bytes name encoding = .ok parsed := by
  unfold ValidationRuntime.parseSource at read
  split at read
  · cases read
  · rename_i adapterId adapted
    split at read
    · cases read
    · rename_i named
      split at read
      · cases read
      · rename_i found parses
        split at read
        · obtain rfl := Except.ok.inj read
          exact ⟨adapterId, adapted, fun credential empty => named ⟨credential, empty⟩, parses⟩
        · cases read

/-- The one definition of a credential has the name that it is parsed with. -/
theorem parseSystemdCredentialFile_ok {bytes : List UInt8} {name : List Char}
    {encoding : ValueEncoding} {parseOptions : ParseOptions} {parsed : ParsedSource}
    (read : parseSystemdCredentialFile bytes name encoding parseOptions = .ok parsed) :
    parsed.adapterId = .systemdCredentialFile ∧ parsed.unchanged ∧
      parsed.definitions.map (·.name) = [name] := by
  unfold parseSystemdCredentialFile at read
  dsimp only at read
  split at read
  · cases read
  · obtain ⟨value, -, rfl⟩ := map_ok read
    exact ⟨rfl, rfl, rfl⟩

/-- A source that is parsed with one name is parsed with every name that has one definition in it:
only a credential depends on the name. -/
theorem parseSource_other {bytes : List UInt8} {name other : String} {encoding : ValueEncoding}
    {parsed : ParsedSource} {definition : ParsedDefinition}
    (read : options.parseSource source bytes name encoding = .ok parsed)
    (found : findDefinition parsed other = .ok definition) :
    options.parseSource source bytes other encoding = .ok parsed := by
  obtain ⟨adapterId, adapted, -, parses⟩ := parseSource_ok read
  by_cases credential : adapterId = .systemdCredentialFile
  · have names := (parseSystemdCredentialFile_ok (credential ▸ parses)).2.2
    have member : definition ∈ parsed.definitions.filter fun one => one.name = other.toList := by
      rw [findDefinition_ok found]
      exact .head _
    obtain ⟨listed, named⟩ := List.mem_filter.mp member
    have same : definition.name = name.toList := by
      have inNames := List.mem_map_of_mem (f := (·.name)) listed
      rw [names] at inNames
      exact List.mem_singleton.mp inNames
    obtain rfl : name = other := String.toList_inj.mp (same ▸ of_decide_eq_true named)
    exact read
  · rw [← read]
    unfold ValidationRuntime.parseSource
    rw [adapted]
    cases adapterId with
    | systemdCredentialFile => exact absurd rfl credential
    | nodeEnvFile => rfl
    | systemdEnvironmentFile => rfl
    | dotenv => rfl
    | pm2EcosystemStatic => rfl

/-- One round of the loop that goes through: what it found of an item and what it adds. -/
structure Accepts (options : ValidationServiceOptions) (progress next : ValidationProgress)
    (item : ChangeItem) (source : ManifestSource) (entry : CatalogEntry) (bytes : List UInt8)
    (parsed : ParsedSource) : Prop where
  found : options.sourceById item.sourceId = some source
  controlled : source.mutability = .catalogControlled
  named : entry.name = item.name
  read : options.readOnce progress source = .ok bytes
  fingerprint : options.hmacFingerprint source.id bytes = item.sourceFingerprint
  parse : options.parseOnce progress source bytes entry.name = .ok parsed
  defined : ∃ definition, findDefinition parsed item.name = .ok definition
  reads : next.sourceReads = (source.id, bytes) :: progress.sourceReads
  parses : next.parsedSources = (source.id, parsed) :: progress.parsedSources
  touched : next.touchedSources = touch progress.touchedSources source
  persisted : next.persistedItems = progress.persistedItems ++ [item.persisted entry]

/-- What a round of the loop does. -/
theorem validateItem_ok {appId : String} {progress next : ValidationProgress} {item : ChangeItem}
    (validated : options.validateItem appId progress item = .ok next) :
    ∃ source entry bytes parsed, Accepts options progress next item source entry bytes parsed := by
  obtain ⟨⟨source, entry⟩, located, validated⟩ := bind_ok validated
  obtain ⟨bytes, read, validated⟩ := bind_ok validated
  obtain ⟨_, fresh, validated⟩ := bind_ok validated
  obtain ⟨parsed, parse, validated⟩ := bind_ok validated
  obtain ⟨definition, defined, validated⟩ := bind_ok validated
  obtain ⟨counted, -, validated⟩ := bind_ok validated
  obtain rfl := Except.ok.inj validated
  obtain ⟨found, controlled, named⟩ := locate_ok located
  exact ⟨source, entry, bytes, parsed,
    { found, controlled, named, read, parse
      fingerprint := not_not.mp (refuseIf_ok fresh)
      defined := ⟨definition, defined⟩
      reads := rfl
      parses := rfl
      touched := rfl
      persisted := rfl }⟩

/-- An item of the draft in the variables of `validate`: what was read for it and how it was
parsed, which is under its own name. -/
structure Located (options : ValidationServiceOptions) (progress : ValidationProgress)
    (item : PersistedChangeItem) (source : ManifestSource) (bytes : List UInt8)
    (parsed : ParsedSource) : Prop where
  found : options.sourceById item.sourceId = some source
  controlled : source.mutability = .catalogControlled
  read : options.readSource source = .ok bytes
  fingerprint : options.hmacFingerprint item.sourceId bytes = item.sourceFingerprint
  parse : options.parseSource source bytes item.name (options.encodingOf item.sourceId) = .ok parsed
  defined : ∃ definition, findDefinition parsed item.name = .ok definition
  cached : progress.parsedSources.lookup item.sourceId = some parsed
  touched : source ∈ progress.touchedSources

/-- What holds of the variables of `validate` after some items. -/
structure Validating (options : ValidationServiceOptions) (done : List ChangeItem)
    (progress : ValidationProgress) : Prop where
  listed : List.Forall₂ (fun item persisted => ∃ entry, persisted = ChangeItem.persisted item entry)
    done progress.persistedItems
  located : ∀ item ∈ progress.persistedItems, ∃ source bytes parsed,
    Located options progress item source bytes parsed
  touched : ∀ source ∈ progress.touchedSources, options.sourceById source.id = some source ∧
    ∃ item ∈ progress.persistedItems, item.sourceId = source.id
  distinct : (progress.touchedSources.map (·.id)).Nodup
  reads : ∀ id bytes, progress.sourceReads.lookup id = some bytes →
    ∃ source, options.sourceById id = some source ∧ options.readSource source = .ok bytes
  parses : ∀ id parsed, progress.parsedSources.lookup id = some parsed →
    ∃ source bytes name, options.sourceById id = some source ∧
      options.readSource source = .ok bytes ∧
      options.parseSource source bytes name (options.encodingOf id) = .ok parsed

theorem validating_start : Validating options [] .start where
  listed := .nil
  located := by simp [ValidationProgress.start]
  touched := by simp [ValidationProgress.start]
  distinct := List.nodup_nil
  reads := by simp [ValidationProgress.start]
  parses := by simp [ValidationProgress.start]

/-- The sources after one is touched. -/
theorem mem_touch {sources : List ManifestSource} {other : ManifestSource} :
    other ∈ touch sources source ↔
      other ∈ sources ∨ (other = source ∧ ∀ present ∈ sources, present.id ≠ source.id) := by
  unfold touch
  split
  · rename_i present
    have held : ¬ ∀ present ∈ sources, present.id ≠ source.id := by
      simpa using present
    simp [held]
  · rename_i absent
    have apart : ∀ present ∈ sources, present.id ≠ source.id := by
      simpa using absent
    rw [List.mem_append, List.mem_singleton]
    exact or_congr_right (iff_self_and.mpr fun _ => apart)

/-- The sources after one is touched are distinct if they were. -/
theorem touch_nodup {sources : List ManifestSource} (distinct : (sources.map (·.id)).Nodup) :
    ((touch sources source).map (·.id)).Nodup := by
  unfold touch
  split
  · exact distinct
  · rename_i absent
    rw [List.map_append, List.nodup_append]
    refine ⟨distinct, List.nodup_singleton _, ?_⟩
    intro id listed other single same
    obtain ⟨present, member, rfl⟩ := List.mem_map.mp listed
    obtain rfl := List.mem_singleton.mp single
    exact absent (List.any_eq_true.mpr ⟨present, member, decide_eq_true same⟩)

section

variable {progress next : ValidationProgress} {item : ChangeItem} {source : ManifestSource}
  {entry : CatalogEntry} {bytes : List UInt8} {parsed : ParsedSource} {done : List ChangeItem}
  (accepts : Accepts options progress next item source entry bytes parsed)
  (validating : Validating options done progress)
include accepts validating

theorem Accepts.readSource : options.readSource source = .ok bytes := by
  rcases readOnce_ok accepts.read with cached | read
  · obtain ⟨other, found, read⟩ := validating.reads _ _ cached
    rw [underId_id accepts.found, accepts.found] at found
    obtain rfl := Option.some.inj found
    exact read
  · exact read

/-- The definitions of an accepted item are those of its source under the item's own name. -/
theorem Accepts.parseSource :
    options.parseSource source bytes item.name (options.encodingOf item.sourceId)
      = .ok parsed := by
  have id := underId_id accepts.found
  have parse := accepts.parse
  unfold parseOnce at parse
  split at parse
  · rename_i known cached
    obtain rfl := Except.ok.inj parse
    obtain ⟨other, read, name, found, reads, parses⟩ := validating.parses _ _ cached
    rw [id, accepts.found] at found
    obtain rfl := Option.some.inj found
    obtain rfl : bytes = read :=
      Except.ok.inj ((accepts.readSource validating).symm.trans reads)
    obtain ⟨definition, defined⟩ := accepts.defined
    exact id ▸ parseSource_other parses defined
  · rw [id, accepts.named] at parse
    exact parse

omit validating in
/-- The parse of a source that was parsed before is the one of then. -/
theorem Accepts.cached {id : String} {known : ParsedSource}
    (cached : progress.parsedSources.lookup id = some known) :
    next.parsedSources.lookup id = some known := by
  rw [accepts.parses, List.lookup_cons]
  by_cases same : id = source.id
  · subst same
    have parse := accepts.parse
    unfold parseOnce at parse
    rw [cached] at parse
    obtain rfl := Except.ok.inj parse
    simp
  · rw [beq_false_of_ne same]
    exact cached

/-- What holds of the variables after some items holds after one more. -/
theorem Accepts.keeps : Validating options (done ++ [item]) next where
  listed := by
    rw [accepts.persisted]
    exact List.rel_append validating.listed (.cons ⟨entry, rfl⟩ .nil)
  located := by
    intro other member
    rw [accepts.persisted, List.mem_append, List.mem_singleton] at member
    rcases member with before | rfl
    · obtain ⟨its, read, definitions, located⟩ := validating.located other before
      exact ⟨its, read, definitions, { located with
        cached := accepts.cached located.cached
        touched := accepts.touched ▸ mem_touch.mpr (.inl located.touched) }⟩
    · have id := underId_id accepts.found
      refine ⟨source, bytes, parsed,
        { found := accepts.found
          controlled := accepts.controlled
          read := accepts.readSource validating
          fingerprint := by
            have fresh := accepts.fingerprint
            rwa [id] at fresh
          parse := accepts.parseSource validating
          defined := accepts.defined
          cached := ?_
          touched := ?_ }⟩
      · show next.parsedSources.lookup item.sourceId = some parsed
        rw [accepts.parses, ← id]
        exact List.lookup_cons_self
      · rw [accepts.touched, mem_touch]
        by_cases held : ∃ present ∈ progress.touchedSources, present.id = source.id
        · obtain ⟨present, member, same⟩ := held
          have known := (validating.touched present member).1
          rw [same, id, accepts.found] at known
          exact .inl (Option.some.inj known ▸ member)
        · exact .inr ⟨rfl, fun present member same => held ⟨present, member, same⟩⟩
  touched := by
    intro other member
    rw [accepts.touched, mem_touch] at member
    rw [accepts.persisted]
    have id := underId_id accepts.found
    rcases member with before | ⟨rfl, -⟩
    · obtain ⟨found, one, listed, same⟩ := validating.touched other before
      exact ⟨found, one, List.mem_append_left _ listed, same⟩
    · exact ⟨id ▸ accepts.found, item.persisted entry, List.mem_append_right _ (.head _), id.symm⟩
  distinct := by
    rw [accepts.touched]
    exact touch_nodup validating.distinct
  reads := by
    intro id found read
    rw [accepts.reads, List.lookup_cons] at read
    by_cases same : id = source.id
    · subst same
      rw [beq_self_eq_true] at read
      obtain rfl := Option.some.inj read
      exact ⟨source, underId_id accepts.found ▸ accepts.found, accepts.readSource validating⟩
    · rw [beq_false_of_ne same] at read
      exact validating.reads id found read
  parses := by
    intro id found parse
    rw [accepts.parses, List.lookup_cons] at parse
    by_cases same : id = source.id
    · subst same
      rw [beq_self_eq_true] at parse
      obtain rfl := Option.some.inj parse
      have own := underId_id accepts.found
      exact ⟨source, bytes, item.name, own ▸ accepts.found, accepts.readSource validating,
        own ▸ accepts.parseSource validating⟩
    · rw [beq_false_of_ne same] at parse
      exact validating.parses id found parse

end

/-- What holds of the variables of `validate` after its loop. -/
theorem validating_items {appId : String} {items : List ChangeItem} {progress : ValidationProgress}
    (validated : items.foldlM (options.validateItem appId) .start = .ok progress) :
    Validating options items progress := by
  have kept : ∀ done state item next, Validating options done state →
      options.validateItem appId state item = .ok next →
      Validating options (done ++ [item]) next := by
    intro done state item next validating stepped
    obtain ⟨source, entry, bytes, parsed, accepts⟩ := validateItem_ok stepped
    exact accepts.keeps validating
  exact Fallible.foldlM_keeps kept validating_start validated

/-- What an accepted request has at its end: the variables after the loop, the bytes proposed for
the sources that it touched, and the draft. -/
theorem validateRequest_ok {request : ChangeValidateRequest} {validated : ValidatedChange}
    (accepted : options.validateRequest request = .ok validated) :
    ∃ progress, Validating options request.items progress ∧
      progress.touchedSources.mapM (options.propose progress)
        = .ok validated.proposedSourceBytes ∧
      validated.draft.items = progress.persistedItems := by
  obtain ⟨_, -, accepted⟩ := bind_ok accepted
  obtain ⟨progress, looped, accepted⟩ := bind_ok accepted
  obtain ⟨_, -, accepted⟩ := bind_ok accepted
  obtain ⟨proposed, proposes, accepted⟩ := bind_ok accepted
  obtain ⟨_, -, accepted⟩ := bind_ok accepted
  obtain ⟨_, -, accepted⟩ := bind_ok accepted
  obtain ⟨_, -, accepted⟩ := bind_ok accepted
  obtain rfl := Except.ok.inj accepted
  exact ⟨progress, validating_items looped, proposes, rfl⟩

end ValidationServiceOptions

end NancyMan.Agent
