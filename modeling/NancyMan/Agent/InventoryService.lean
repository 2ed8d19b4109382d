import NancyMan.Agent.ValidationService

/-!
# The inventory

`read` parses every source of the manifest and reports its definitions with the values that they are
shown with. What is here of a reported definition is what an item of a change is made of.
-/
namespace NancyMan.Agent

open ControlPlane (ChangeStrategy)
open Fallible (bind_ok)

inductive InventoryErrorCode where
  | inventoryRequestInvalid
  | inventorySourceReadFailed
  | inventorySourceParseFailed
  | inventorySourceMetadataInvalid

structure InventoryServiceOptions extends ValidationRuntime where
  catalog : Catalog
  manifest : Manifest
  /-- What reading a source throws is an error of the service, or another. -/
  readSource : ManifestSource → Except (Option InventoryErrorCode) (List UInt8)
  credentialNames : List (String × String)
  credentialDisplayEncodings : List (String × ValueEncoding)

/-- A definition as it is reported. One that is not in the catalog has no catalog id, and its
requirement is unknown. -/
structure InventoryDefinition where
  definitionId : String
  catalogId : Option String
  name : String
  value : String
  duplicateOrdinal : Nat
  appId : String
  sourceId : String
  sensitivity : Sensitivity
  requirement : Option ItemRequirement
  mutability : Mutability
  applyStrategy : ChangeStrategy
  sourceFingerprint : String
  valueFingerprint : String

def credentialSymbol (symbol : Char) : Char :=
  if symbol.isAlphanum || symbol = '_' then symbol.toUpper else '_'

/-- The name of the credential in a source: the one configured, or the last part of its id. -/
def credentialName (source : ManifestSource) (configured : List (String × String)) :
    Except InventoryErrorCode String :=
  match (configured.lookup source.id).filter (· ≠ "") with
  | some name => .ok name
  | none =>
    match ((source.id.toList.splitOn '.').getLast?.getD []).map credentialSymbol with
    | [] => .error .inventorySourceParseFailed
    | first :: rest =>
      if first.isUpper then .ok (String.ofList (first :: rest))
      else .error .inventorySourceParseFailed

namespace InventoryServiceOptions

variable (options : InventoryServiceOptions)

/-- `credentialEncodings[source.id] ?? 'base64'`. -/
def encodingOf (sourceId : String) : ValueEncoding :=
  (options.credentialDisplayEncodings.lookup sourceId).getD .base64

variable (source : ManifestSource)

/-- The name that a source is parsed with, which only a credential has. -/
def nameFor : Except InventoryErrorCode String :=
  if source.adapterId = some .systemdCredentialFile then
    credentialName source options.credentialNames
  else .ok ""

def parseSource (bytes : List UInt8) : Except InventoryErrorCode ParsedSource := do
  let name ← options.nameFor source
  match source.adapterId with
  | none => .error .inventorySourceParseFailed
  | some adapterId =>
    match options.parse adapterId source.maximumBytes bytes name (options.encodingOf source.id) with
    | .error _ => .error .inventorySourceParseFailed
    | .ok parsed => .ok parsed

/-- The entry of the catalog for a definition of a source. -/
def entryOf (name : List Char) : Option CatalogEntry :=
  (options.catalog.entries.filter fun entry =>
    entry.sourceId = source.id && entry.name.toList = name).getLast?

def definitionId (entry : Option CatalogEntry) (source : ManifestSource)
    (definition : ParsedDefinition) : String :=
  let base := match entry with
    | some entry => entry.id
    | none => source.appId ++ "." ++ source.id ++ "." ++
      String.ofList (definition.name.map Char.toLower)
  if definition.duplicateOrdinal = 0 then base
  else base ++ ".duplicate." ++ toString definition.duplicateOrdinal

/-- A definition of a source as it is reported. -/
def describe (bytes : List UInt8) (definition : ParsedDefinition) : InventoryDefinition :=
  let entry := options.entryOf source definition.name
  let id := definitionId entry source definition
  { definitionId := id
    catalogId := entry.map CatalogEntry.id
    name := String.ofList definition.name
    value := String.ofList definition.value
    duplicateOrdinal := definition.duplicateOrdinal
    appId := source.appId
    sourceId := source.id
    sensitivity := (entry.map CatalogEntry.sensitivity).getD .internal
    requirement := entry.map CatalogEntry.requirement
    mutability := (entry.map CatalogEntry.mutability).getD .observed
    applyStrategy := (entry.map CatalogEntry.applyStrategy).getD .noRuntimeAction
    sourceFingerprint := options.hmacFingerprint source.id bytes
    valueFingerprint :=
      options.hmacFingerprint ((entry.map CatalogEntry.id).getD id) definition.valueBytes }

/-- The definitions of one source. -/
def readSourceDefinitions : Except InventoryErrorCode (List InventoryDefinition) := do
  let bytes ← (options.readSource source).mapError (·.getD .inventorySourceReadFailed)
  let parsed ← options.parseSource source bytes
  return parsed.definitions.map (options.describe source bytes)

/-- `read`, before the filter and the limit of a request. -/
def read : Except InventoryErrorCode (List InventoryDefinition) := do
  let reported ← options.manifest.sources.mapM options.readSourceDefinitions
  return reported.flatten

end InventoryServiceOptions

/-- The inventory beside a validation service: both have one catalog, one manifest, one key and one
choice of encodings, and find the same bytes. -/
def ValidationServiceOptions.inventory (options : ValidationServiceOptions)
    (credentialNames : List (String × String)) : InventoryServiceOptions where
  toValidationRuntime := options.toValidationRuntime
  catalog := options.catalog
  manifest := options.manifest
  readSource source := (options.readSource source).mapError fun _ => none
  credentialNames
  credentialDisplayEncodings := options.credentialDisplayEncodings

/-! ## What is reported -/

variable {options : InventoryServiceOptions} {source : ManifestSource} {bytes : List UInt8}
  {parsed : ParsedSource}

/-- A parsed source was parsed by its adapter, under the name it is parsed with. -/
theorem InventoryServiceOptions.parseSource_ok
    (read : options.parseSource source bytes = .ok parsed) :
    ∃ name adapterId, options.nameFor source = .ok name ∧ source.adapterId = some adapterId ∧
      options.parse adapterId source.maximumBytes bytes name (options.encodingOf source.id) =
        .ok parsed := by
  obtain ⟨name, named, read⟩ := bind_ok read
  split at read
  · cases read
  · next adapterId adapted =>
    split at read
    · cases read
    · next again parses =>
      obtain rfl := Except.ok.inj read
      exact ⟨name, adapterId, named, adapted, parses⟩

/-- What parsing a source needs. -/
theorem InventoryServiceOptions.parseSource_eq {name : String} {adapterId : SourceAdapterId}
    (named : options.nameFor source = .ok name) (adapted : source.adapterId = some adapterId)
    (parses : options.parse adapterId source.maximumBytes bytes name
      (options.encodingOf source.id) = .ok parsed) :
    options.parseSource source bytes = .ok parsed := by
  refine Fallible.bind_eq_ok.mpr ⟨name, named, ?_⟩
  rw [adapted]
  dsimp only
  rw [parses]

/-- A reported definition is one of a source that was read. -/
theorem ValidationServiceOptions.reported_source {options : ValidationServiceOptions}
    {credentialNames : List (String × String)} {reported : List InventoryDefinition}
    {definition : InventoryDefinition}
    (shown : (options.inventory credentialNames).read = .ok reported)
    (member : definition ∈ reported) :
    ∃ source ∈ options.manifest.sources, ∃ bytes parsed, options.readSource source = .ok bytes ∧
      (options.inventory credentialNames).parseSource source bytes = .ok parsed ∧
      ∃ parsedDefinition ∈ parsed.definitions,
        definition = (options.inventory credentialNames).describe source bytes
          parsedDefinition := by
  obtain ⟨lists, read, rest⟩ := bind_ok shown
  obtain rfl := Except.ok.inj rest
  obtain ⟨list, among, inside⟩ := List.mem_flatten.mp member
  obtain ⟨source, known, read⟩ := Fallible.exists_of_mem_mapM read among
  obtain ⟨bytes, found, read⟩ := bind_ok read
  obtain ⟨parsed, parses, read⟩ := bind_ok read
  obtain rfl := Except.ok.inj read
  obtain ⟨parsedDefinition, defined, rfl⟩ := List.mem_map.mp inside
  refine ⟨source, known, bytes, parsed, ?_, parses, parsedDefinition, defined, rfl⟩
  have reads : ((options.readSource source).mapError fun _ => (none : Option InventoryErrorCode)
    ).mapError (·.getD .inventorySourceReadFailed) = .ok bytes := found
  cases result : options.readSource source with
  | error failure =>
    rw [result] at reads
    cases reads
  | ok other =>
    rw [result] at reads
    exact congrArg Except.ok (Except.ok.inj reads)

end NancyMan.Agent
