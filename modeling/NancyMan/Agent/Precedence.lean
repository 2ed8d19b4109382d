import NancyMan.Agent.InventoryService
import NancyMan.Agent.SourceWriteBack

/-!
# The precedence of definitions

The definitions of one name stand in an order: by the rank of their source, by its place in the
manifest, and within a source by their place. A definition is marked effective unless a higher one of
the name shares a consumer with it. That one mark stands for all of its consumers: a definition that
is overridden for one of them is marked as not effective, though it may be the highest that another
has.
-/
namespace NancyMan.Agent

open Fallible (bind_ok forall₂_of_mapM map_ok)

/-- The consumers that the catalog and the manifest declare, by the ids of their entries and
sources, which are unique in each. -/
structure ConsumerDeclarations where
  entryConsumers : String → List String
  sourceConsumers : String → Option (List String)

structure InternalDefinition where
  definitionId : String
  name : String
  sourceId : String
  sourceOrder : Nat
  duplicateOrdinal : Nat
  precedenceRank : Nat
  consumerIds : List String
  item : InventoryDefinition

def intersects (left right : List String) : Bool :=
  if left = [] ∨ right = [] then true else left.any fun value => right.contains value

def isHigherPrecedence (candidate current : InternalDefinition) : Bool :=
  if candidate.precedenceRank ≠ current.precedenceRank then
    decide (current.precedenceRank < candidate.precedenceRank)
  else if candidate.sourceId = current.sourceId then
    decide (current.duplicateOrdinal < candidate.duplicateOrdinal)
  else decide (current.sourceOrder < candidate.sourceOrder)

variable (found : List InternalDefinition)

def groupOf (name : String) : List InternalDefinition :=
  found.filter fun item => item.name = name

variable (item : InternalDefinition)

/-- `effective`. -/
def isEffective : Bool :=
  !(groupOf found item.name).any fun candidate =>
    candidate.definitionId ≠ item.definitionId &&
      intersects candidate.consumerIds item.consumerIds && isHigherPrecedence candidate item

namespace InventoryServiceOptions

variable (options : InventoryServiceOptions) (declared : ConsumerDeclarations)

/-- A definition of a source with what its precedence depends on. -/
def internalDefinition (source : ManifestSource) (sourceOrder : Nat) (bytes : List UInt8)
    (definition : ParsedDefinition) : InternalDefinition where
  definitionId := definitionId (options.entryOf source definition.name) source definition
  name := String.ofList definition.name
  sourceId := source.id
  sourceOrder := sourceOrder
  duplicateOrdinal := definition.duplicateOrdinal
  precedenceRank := source.precedenceRank
  consumerIds :=
    match options.entryOf source definition.name with
    | some entry => declared.entryConsumers entry.id
    | none => (declared.sourceConsumers source.id).getD []
  item := options.describe source bytes definition

/-- The definitions of one source. -/
def readInternal (source : ManifestSource) (sourceOrder : Nat) :
    Except InventoryErrorCode (List InternalDefinition) := do
  let bytes ← (options.readSource source).mapError (·.getD .inventorySourceReadFailed)
  let parsed ← options.parseSource source bytes
  return parsed.definitions.map (options.internalDefinition declared source sourceOrder bytes)

/-- `internal`: the definitions of every source, in the order of the manifest. -/
def internalDefinitions : Except InventoryErrorCode (List InternalDefinition) := do
  let found ← options.manifest.sources.zipIdx.mapM fun entry =>
    options.readInternal declared entry.1 entry.2
  return found.flatten

end InventoryServiceOptions

/-! ## What is claimed of the marks -/

/-- The precedence of definitions is a strict order in which of two of one name one is higher. -/
structure StrictTotal (found : List InternalDefinition) : Prop where
  irreflexive : ∀ item ∈ found, isHigherPrecedence item item = false
  transitive : ∀ first ∈ found, ∀ second ∈ found, ∀ third ∈ found,
    isHigherPrecedence first second = true → isHigherPrecedence second third = true →
      isHigherPrecedence first third = true
  total : found.Pairwise fun first second => first.name = second.name →
    (isHigherPrecedence first second = true ∨ isHigherPrecedence second first = true)

/-- Of two definitions of one name that share consumers at most one is effective. -/
def OneEffective : Prop :=
  found.Pairwise fun first second => first.name = second.name →
    intersects first.consumerIds second.consumerIds = true →
      ¬(isEffective found first = true ∧ isEffective found second = true)

def AppliesTo (consumer : String) : Prop :=
  item.consumerIds = [] ∨ consumer ∈ item.consumerIds

/-- A definition of the name that is higher for a consumer. -/
def HasHigher (consumer : String) (item : InternalDefinition) : Prop :=
  ∃ other ∈ found, other.name = item.name ∧ AppliesTo other consumer ∧
    isHigherPrecedence other item = true

/-- The definition of a name that is the highest of a consumer is effective. -/
def HighestEffective : Prop :=
  ∀ consumer, ∀ item ∈ found, AppliesTo item consumer → ¬HasHigher found consumer item →
    isEffective found item = true

/-- A higher definition of the name that shares a consumer and has another id. -/
def Overrides (other item : InternalDefinition) : Prop :=
  other.name = item.name ∧ other.definitionId ≠ item.definitionId ∧
    intersects other.consumerIds item.consumerIds = true ∧ isHigherPrecedence other item = true

/-- Whoever is overridden for one consumer has a higher definition for each of its consumers. -/
def OverriddenForAll : Prop :=
  ∀ item ∈ found, (∃ other ∈ found, Overrides other item) →
    ∀ consumer, AppliesTo item consumer → HasHigher found consumer item

/-- Of two definitions of one name and one id that share consumers one is overridden. -/
def IdsApart : Prop :=
  found.Pairwise fun first second => first.name = second.name →
    first.definitionId = second.definitionId →
      intersects first.consumerIds second.consumerIds = true →
        ∃ other ∈ found, Overrides other first ∨ Overrides other second

/-! ## The order -/

/-- What the definitions found have: those of a source are told by its place in the manifest, which
gives them their rank, and within a source by their names and ordinals. -/
structure Ordered (found : List InternalDefinition) : Prop where
  source : ∀ first ∈ found, ∀ second ∈ found,
    (first.sourceId = second.sourceId ↔ first.sourceOrder = second.sourceOrder) ∧
      (first.sourceOrder = second.sourceOrder → first.precedenceRank = second.precedenceRank)
  apart : found.Pairwise fun first second => first.name = second.name →
    first.sourceOrder = second.sourceOrder → first.duplicateOrdinal ≠ second.duplicateOrdinal

/-- The order compares ranks, then places in the manifest, then ordinals. -/
theorem isHigherPrecedence_iff {found : List InternalDefinition} (ordered : Ordered found)
    {first second : InternalDefinition} (one : first ∈ found) (two : second ∈ found) :
    isHigherPrecedence first second ↔
      second.precedenceRank < first.precedenceRank ∨
        (second.precedenceRank = first.precedenceRank ∧
          (second.sourceOrder < first.sourceOrder ∨
            (second.sourceOrder = first.sourceOrder ∧
              second.duplicateOrdinal < first.duplicateOrdinal))) := by
  obtain ⟨same, -⟩ := ordered.source first one second two
  unfold isHigherPrecedence
  by_cases ranks : first.precedenceRank = second.precedenceRank
  · rw [if_neg (not_not_intro ranks)]
    by_cases sources : first.sourceId = second.sourceId
    · have orders := same.mp sources
      rw [if_pos sources, decide_eq_true_iff]
      omega
    · have orders : first.sourceOrder ≠ second.sourceOrder := fun equal => sources (same.mpr equal)
      rw [if_neg sources, decide_eq_true_iff]
      omega
  · rw [if_pos ranks, decide_eq_true_iff]
    omega

/-- The definitions found stand in a strict order. -/
theorem Ordered.strictTotal {found : List InternalDefinition} (ordered : Ordered found) :
    StrictTotal found where
  irreflexive item member := by
    have order := isHigherPrecedence_iff ordered member member
    rw [← Bool.not_eq_true]
    intro higher
    have lower := order.mp higher
    omega
  transitive first one second two third three higher higher' := by
    have before := (isHigherPrecedence_iff ordered one two).mp higher
    have after := (isHigherPrecedence_iff ordered two three).mp higher'
    apply (isHigherPrecedence_iff ordered one three).mpr
    omega
  total := by
    refine ordered.apart.imp_of_mem ?_
    intro first second one two apart name
    have different := apart name
    have forward := isHigherPrecedence_iff ordered one two
    have backward := isHigherPrecedence_iff ordered two one
    rw [forward, backward]
    omega

/-! ## The marks -/

/-- A definition is effective exactly when none overrides it. -/
theorem isEffective_iff : isEffective found item ↔ ¬∃ other ∈ found, Overrides other item := by
  unfold isEffective groupOf Overrides
  rw [Bool.not_eq_true', ← Bool.not_eq_true, List.any_eq_true]
  refine not_congr ⟨?_, ?_⟩
  · rintro ⟨other, member, passes⟩
    obtain ⟨inside, name⟩ := List.mem_filter.mp member
    simp only [Bool.and_eq_true, decide_eq_true_eq] at passes name
    exact ⟨other, inside, name, passes.1.1, passes.1.2, passes.2⟩
  · rintro ⟨other, inside, name, ids, overlap, higher⟩
    refine ⟨other, List.mem_filter.mpr ⟨inside, by simpa using name⟩, ?_⟩
    simp [ids, overlap, higher]

theorem intersects_comm (left right : List String) :
    intersects left right = intersects right left := by
  unfold intersects
  by_cases empty : left = [] ∨ right = []
  · rw [if_pos empty, if_pos empty.symm]
  · rw [if_neg empty, if_neg fun other => empty other.symm, Bool.eq_iff_iff]
    simp only [List.any_eq_true, List.contains_iff_mem]
    exact ⟨fun ⟨value, one, two⟩ => ⟨value, two, one⟩, fun ⟨value, one, two⟩ => ⟨value, two, one⟩⟩

/-- At most one of two definitions is effective exactly where ids do not hide one from the other. -/
theorem oneEffective_iff {found : List InternalDefinition} (strict : StrictTotal found) :
    OneEffective found ↔ IdsApart found := by
  have pairs : ∀ first ∈ found, ∀ second ∈ found,
      (first.name = second.name →
        (isHigherPrecedence first second = true ∨ isHigherPrecedence second first = true)) →
      ((first.name = second.name → intersects first.consumerIds second.consumerIds = true →
          ¬(isEffective found first = true ∧ isEffective found second = true)) ↔
        (first.name = second.name → first.definitionId = second.definitionId →
          intersects first.consumerIds second.consumerIds = true →
            ∃ other ∈ found, Overrides other first ∨ Overrides other second)) := by
    intro first one second two total
    rw [isEffective_iff, isEffective_iff]
    constructor
    · intro atMost name ids overlap
      by_contra none'
      refine atMost name overlap ⟨?_, ?_⟩
      · rintro ⟨other, member, overrides⟩
        exact none' ⟨other, member, .inl overrides⟩
      · rintro ⟨other, member, overrides⟩
        exact none' ⟨other, member, .inr overrides⟩
    · rintro hidden name overlap ⟨noneFirst, noneSecond⟩
      by_cases ids : first.definitionId = second.definitionId
      · obtain ⟨other, member, overrides | overrides⟩ := hidden name ids overlap
        · exact noneFirst ⟨other, member, overrides⟩
        · exact noneSecond ⟨other, member, overrides⟩
      · rcases total name with higher | higher
        · exact noneSecond ⟨first, one, name, ids, overlap, higher⟩
        · refine noneFirst ⟨second, two, name.symm, fun same => ids same.symm, ?_, higher⟩
          rw [intersects_comm]
          exact overlap
  constructor
  · intro every
    exact (every.and strict.total).imp_of_mem fun one two both =>
      (pairs _ one _ two both.2).mp both.1
  · intro every
    exact (every.and strict.total).imp_of_mem fun one two both =>
      (pairs _ one _ two both.2).mpr both.1

/-- The highest definition of every consumer is effective exactly where whoever is overridden is so
for all of its consumers. -/
theorem highestEffective_iff : HighestEffective found ↔ OverriddenForAll found := by
  constructor
  · intro highest item member overridden consumer applies
    by_contra none'
    have effective := highest consumer item member applies none'
    exact (isEffective_iff found item).mp effective overridden
  · intro all consumer item member applies none'
    rw [isEffective_iff]
    intro overridden
    exact none' (all item member overridden consumer applies)

/-! ## What is read -/

/-- A parser that numbers the definitions of one name apart. -/
def Numbers (parsePm2 : List UInt8 → ParseOptions → Except SourceAdapterError (List ParsedDefinition)) :
    Prop :=
  ∀ bytes options definitions, parsePm2 bytes options = .ok definitions →
    (definitions.map ParsedDefinition.key).Nodup

/-- Every adapter numbers the definitions of one name apart. -/
theorem ValidationRuntime.parse_keys {runtime : ValidationRuntime} (numbers : Numbers runtime.parsePm2)
    {adapterId : SourceAdapterId} {maximumBytes : Int} {bytes : List UInt8} {name : String}
    {displayEncoding : ValueEncoding} {parsed : ParsedSource}
    (read : runtime.parse adapterId maximumBytes bytes name displayEncoding = .ok parsed) :
    (parsed.definitions.map ParsedDefinition.key).Nodup := by
  have text (adapter : TextAdapterId)
      (read : parseTextAssignments bytes adapter ⟨some maximumBytes⟩ = .ok parsed) :
      (parsed.definitions.map ParsedDefinition.key).Nodup := by
    obtain ⟨symbols, -, -, statements, -⟩ := parseTextAssignments_ok read
    exact (parseStatements_keys statements).2
  cases adapterId with
  | nodeEnvFile => exact text _ read
  | systemdEnvironmentFile => exact text _ read
  | dotenv => exact text _ read
  | systemdCredentialFile =>
    change parseSystemdCredentialFile bytes name.toList displayEncoding _ = _ at read
    unfold parseSystemdCredentialFile at read
    dsimp only at read
    split at read
    · cases read
    · obtain ⟨value, -, rfl⟩ := map_ok read
      exact List.nodup_singleton _
  | pm2EcosystemStatic =>
    obtain ⟨definitions, found, rfl⟩ := map_ok read
    exact numbers bytes _ definitions found

section Reading

variable {options : InventoryServiceOptions} {declared : ConsumerDeclarations}

/-- What the definitions of one source have in common, and what tells them apart. -/
theorem readInternal_facts (numbers : Numbers options.parsePm2) {source : ManifestSource}
    {sourceOrder : Nat} {list : List InternalDefinition}
    (read : options.readInternal declared source sourceOrder = .ok list) :
    (∀ item ∈ list, item.sourceId = source.id ∧ item.sourceOrder = sourceOrder ∧
      item.precedenceRank = source.precedenceRank) ∧
      list.Pairwise fun first second => first.name = second.name →
        first.duplicateOrdinal ≠ second.duplicateOrdinal := by
  obtain ⟨bytes, -, read⟩ := bind_ok read
  obtain ⟨parsed, parses, read⟩ := bind_ok read
  obtain rfl := Except.ok.inj read
  obtain ⟨name, adapterId, -, -, parses⟩ := InventoryServiceOptions.parseSource_ok parses
  constructor
  · intro item member
    obtain ⟨definition, -, rfl⟩ := List.mem_map.mp member
    exact ⟨rfl, rfl, rfl⟩
  · rw [List.pairwise_map]
    refine (List.pairwise_map.mp (ValidationRuntime.parse_keys numbers parses)).imp ?_
    intro first second keys name ordinals
    have names : first.name = second.name := String.ofList_injective name
    exact keys (Prod.ext names ordinals)

/-- The definitions that the inventory finds stand in the order of their sources. -/
theorem ordered_internalDefinitions (numbers : Numbers options.parsePm2)
    (unique : (options.manifest.sources.map ManifestSource.id).Nodup)
    {found : List InternalDefinition}
    (read : options.internalDefinitions declared = .ok found) : Ordered found := by
  obtain ⟨lists, reads, rest⟩ := bind_ok read
  obtain rfl := Except.ok.inj rest
  have pairs := forall₂_of_mapM reads
  have sourceOf : ∀ item ∈ lists.flatten, ∃ source,
      options.manifest.sources[item.sourceOrder]? = some source ∧ item.sourceId = source.id ∧
        item.precedenceRank = source.precedenceRank := by
    intro item member
    obtain ⟨list, among, inside⟩ := List.mem_flatten.mp member
    obtain ⟨⟨source, order⟩, known, one⟩ := Fallible.exists_of_mem_mapM reads among
    obtain ⟨id, place, rank⟩ := (readInternal_facts numbers one).1 item inside
    refine ⟨source, ?_, id, rank⟩
    rw [place]
    exact List.mem_zipIdx_iff_getElem?.mp known
  constructor
  · intro first one second two
    obtain ⟨source, at', id, rank⟩ := sourceOf first one
    obtain ⟨other, there, id', rank'⟩ := sourceOf second two
    refine ⟨⟨?_, ?_⟩, ?_⟩
    · intro ids
      obtain ⟨inside, -⟩ := List.getElem?_eq_some_iff.mp at'
      have within : first.sourceOrder < (options.manifest.sources.map ManifestSource.id).length := by
        rw [List.length_map]
        exact inside
      apply (List.getElem?_inj within unique).mp
      rw [List.getElem?_map, List.getElem?_map, at', there, Option.map_some, Option.map_some, ← id,
        ← id', ids]
    · intro orders
      rw [orders, there] at at'
      rw [id, id', Option.some.inj at']
    · intro orders
      rw [orders, there] at at'
      rw [rank, rank', Option.some.inj at']
  · refine List.pairwise_flatten.mpr ⟨?_, ?_⟩
    · intro list among
      obtain ⟨entry, -, one⟩ := Fallible.exists_of_mem_mapM reads among
      exact (readInternal_facts numbers one).2.imp fun apart name _ => apart name
    · rw [List.pairwise_iff_getElem]
      intro place later inside within before first member second member' _ orders
      have one := pairs.get (pairs.length_eq ▸ inside) inside
      have two := pairs.get (pairs.length_eq ▸ within) within
      obtain ⟨-, here, -⟩ := (readInternal_facts numbers one).1 first member
      obtain ⟨-, there, -⟩ := (readInternal_facts numbers two).1 second member'
      simp only [List.get_eq_getElem, List.getElem_zipIdx] at here there
      omega

end Reading

/-- For every set of definitions that the inventory finds: their precedence is a strict total order on
those of one name, no two that share consumers are both effective and the highest of every consumer is
effective, exactly where a definition that is overridden for one consumer has a higher one for each of
its own, and of two that share consumers and an id one is overridden. -/
theorem precedence_iff {options : InventoryServiceOptions} {declared : ConsumerDeclarations}
    (numbers : Numbers options.parsePm2)
    (unique : (options.manifest.sources.map ManifestSource.id).Nodup)
    {found : List InternalDefinition}
    (read : options.internalDefinitions declared = .ok found) :
    (StrictTotal found ∧ OneEffective found ∧ HighestEffective found) ↔
      (OverriddenForAll found ∧ IdsApart found) := by
  have strict := (ordered_internalDefinitions numbers unique read).strictTotal
  rw [oneEffective_iff strict, highestEffective_iff]
  exact ⟨fun ⟨_, apart, all⟩ => ⟨all, apart⟩, fun ⟨all, apart⟩ => ⟨strict, apart, all⟩⟩

/-! ## A variable of two consumers -/

/-- Two sources of one variable: the first for two consumers, the second, which is higher, for one
of them. -/
def twoSources : InventoryServiceOptions where
  parsePm2 _ _ := .ok []
  urlProtocol _ := none
  regexTest _ _ _ := none
  hmac _ := ""
  catalog := { catalogVersion := "", entries := [], validators := [] }
  manifest :=
    { manifestVersion := "", catalogVersion := ""
      sources := [⟨"app.env", "app", some .dotenv, .observed, 100, 200, none, none⟩,
        ⟨"app.override", "app", some .dotenv, .observed, 100, 300, none, none⟩] }
  readSource _ := .ok (Utf8.bytes "PORT=1".toList)
  credentialNames := []
  credentialDisplayEncodings := []

/-- The first source is for the web and for jobs, and the second for the web. -/
def twoConsumers : ConsumerDeclarations where
  entryConsumers _ := []
  sourceConsumers id := if id = "app.env" then some ["web", "jobs"] else some ["web"]

/-- The variable is read once from each source. -/
theorem twoSources_read :
    twoSources.internalDefinitions twoConsumers =
      .ok (((twoSources.internalDefinitions twoConsumers).toOption).getD []) := by
  cases read : twoSources.internalDefinitions twoConsumers with
  | ok found => rfl
  | error error =>
    have reads : (twoSources.internalDefinitions twoConsumers).toOption.isSome := by
      decide +kernel
    rw [read] at reads
    cases reads

/-- The marks of that variable are told exactly. -/
theorem precedence_iff_twoSources :
    let found := ((twoSources.internalDefinitions twoConsumers).toOption).getD []
    found.length = 2 ∧
      ((StrictTotal found ∧ OneEffective found ∧ HighestEffective found) ↔
        (OverriddenForAll found ∧ IdsApart found)) := by
  refine ⟨by decide +kernel, precedence_iff ?_ (by decide) twoSources_read⟩
  rintro bytes options definitions ended
  obtain rfl := Except.ok.inj ended
  exact List.nodup_nil

/-- The first definition is the highest that jobs have, and is not marked effective. -/
theorem highest_of_jobs_not_effective :
    ¬HighestEffective (((twoSources.internalDefinitions twoConsumers).toOption).getD []) := by
  have marks : (((twoSources.internalDefinitions twoConsumers).toOption).getD []).map (fun item =>
      (item.consumerIds, isEffective
        (((twoSources.internalDefinitions twoConsumers).toOption).getD []) item)) =
        [(["web", "jobs"], false), (["web"], true)] := by
    decide +kernel
  generalize ((twoSources.internalDefinitions twoConsumers).toOption).getD [] = found at marks ⊢
  obtain ⟨first, rest, rfl, one, marks⟩ := List.map_eq_cons_iff.mp marks
  obtain ⟨second, rest, rfl, two, marks⟩ := List.map_eq_cons_iff.mp marks
  obtain rfl := List.map_eq_nil_iff.mp marks
  obtain ⟨consumers, mark⟩ := Prod.ext_iff.mp one
  obtain ⟨consumers', -⟩ := Prod.ext_iff.mp two
  dsimp only at consumers mark consumers'
  intro highest
  have effective := highest "jobs" first (.head _) (.inr (by rw [consumers]; decide)) ?_
  · rw [mark] at effective
    cases effective
  · rintro ⟨other, member, -, applies, higher⟩
    rcases List.mem_pair.mp member with rfl | rfl
    · unfold isHigherPrecedence at higher
      simp at higher
    · unfold AppliesTo at applies
      rw [consumers'] at applies
      revert applies
      decide

end NancyMan.Agent
