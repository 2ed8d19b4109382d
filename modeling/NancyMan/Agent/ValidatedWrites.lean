import NancyMan.Agent.SourceWriteBack
import NancyMan.Agent.ValidationService

/-!
# What was validated and what is written

An apply computes the bytes of each source once more: the coordinator groups the items of the staged
change by their sources, and the atomic writer parses what it finds there and serializes it with the
operations of the group. Both leave out the encoding that a credential was validated with, so a
credential that is displayed in base64 is written as the text of its new value.
-/
namespace NancyMan.Agent

open Base64Url
open List (mem_append mem_append_left mem_filter mem_map mem_map_of_mem mem_singleton)

open Fallible (bind_ok map_ok)

/-! ## The atomic writer -/

inductive AtomicSourceWriterErrorCode where
  | configSourceChanged
  | sourceNotFound
  | sourceTooLarge
  | sourceParseFailed
  | sourceNotWritable
  | sourceAdapterUnsupported
  | requiredDelete

/-- What a write throws: its own error, or one of `serializeUpdatedSource`. -/
inductive WriteFailure where
  | writer (code : AtomicSourceWriterErrorCode)
  | adapter (error : SourceAdapterError)

/-- The writer's manifest, and what it calls that is not its own. -/
structure AtomicSourceWriterOptions extends ValidationRuntime where
  manifest : Manifest

/-- An operation as `serializeUpdatedSource` reads it: the coordinator gives it no encoding. -/
def AtomicWriteOperation.write (operation : AtomicWriteOperation) : SourceWriteOperation where
  name := operation.name.toList
  duplicateOrdinal := operation.duplicateOrdinal
  operation := operation.operation.write
  requirement := operation.requirement.write
  value := operation.value.map String.toList
  valueEncoding := none

/-- Why an operation may not be written. -/
def AtomicWriteOperation.refusal (operation : AtomicWriteOperation) :
    Option AtomicSourceWriterErrorCode :=
  if operation.operation = .delete ∧ operation.requirement ≠ .optional then some .requiredDelete
  else if operation.operation = .set ∧ operation.value.isNone then some .sourceParseFailed
  else none

def assertWritableSource (source : ManifestSource) (operations : List AtomicWriteOperation) :
    Except WriteFailure Unit :=
  if source.mutability ≠ .catalogControlled ∨ source.adapterId = some .pm2EcosystemStatic then
    .error (.writer .sourceNotWritable)
  else
    match operations.findSome? AtomicWriteOperation.refusal with
    | some code => .error (.writer code)
    | none => .ok ()

namespace AtomicSourceWriterOptions

variable (options : AtomicSourceWriterOptions)

/-- `parseSource`, which takes every credential for a text. -/
def parseSource (source : ManifestSource) (bytes : List UInt8) (name : String) :
    Except WriteFailure ParsedSource :=
  match source.adapterId with
  | none => .error (.writer .sourceAdapterUnsupported)
  | some adapterId =>
    match options.parse adapterId source.maximumBytes bytes name .text with
    | .error _ => .error (.writer .sourceParseFailed)
    | .ok parsed => .ok parsed

/-- The bytes that a source gets, from a parse of its bytes. -/
def updatedBytes (operations : List AtomicWriteOperation) (parsed : ParsedSource) :
    Except WriteFailure (List UInt8) :=
  if operations.any fun operation =>
      (parsed.definitions.filter fun item => item.name = operation.name.toList).length ≠ 1 then
    .error (.writer .sourceParseFailed)
  else
    match serializeUpdatedSource parsed (operations.map AtomicWriteOperation.write) with
    | .error error => .error (.adapter error)
    | .ok bytes => .ok bytes

/-- The `nextBytes` of `write`, where `current` is what the source holds. -/
def nextBytes (write : SourceWrite) (current : List UInt8) : Except WriteFailure (List UInt8) :=
  match underId ManifestSource.id options.manifest.sources write.sourceId with
  | none => .error (.writer .sourceNotFound)
  | some source => do
    assertWritableSource source write.operations
    if options.hmacFingerprint source.id current ≠ write.expectedSourceFingerprint then
      .error (.writer .configSourceChanged)
    else
      match (write.operations.head?.map (·.name)).filter (· ≠ "") with
      | none => .error (.writer .sourceParseFailed)
      | some name => do
        let parsed ← options.parseSource source current name
        updatedBytes write.operations parsed

/-- `write`: what it puts into the source. -/
def write (write : SourceWrite) (current : List UInt8) : Except WriteFailure (List UInt8) := do
  let bytes ← options.nextBytes write current
  if (underId ManifestSource.id options.manifest.sources write.sourceId).any fun source =>
      source.maximumBytes < (bytes.length : Int) then
    .error (.writer .sourceTooLarge)
  else return bytes

end AtomicSourceWriterOptions

/-- The writer beside a validation service: both have one manifest and one key. -/
def ValidationServiceOptions.writer (options : ValidationServiceOptions) :
    AtomicSourceWriterOptions where
  toValidationRuntime := options.toValidationRuntime
  manifest := options.manifest

/-- Every source of a validated change gets the bytes that were computed for it, where `current` is
what the sources hold when the change is applied. -/
def WritesProposed (options : ValidationServiceOptions) (validated : ValidatedChange)
    (current : String → List UInt8) : Prop :=
  ∃ writes, sourceOperations validated.draft.asStaged = .ok writes ∧
    (∀ write ∈ writes, ∃ bytes,
      validated.proposedSourceBytes.lookup write.sourceId = some bytes ∧
        options.writer.nextBytes write (current write.sourceId) = .ok bytes) ∧
    ∀ proposal ∈ validated.proposedSourceBytes, ∃ write ∈ writes, write.sourceId = proposal.1

/-- Whether the source of an item is a credential that is displayed in base64. -/
def ValidationServiceOptions.isBinary (options : ValidationServiceOptions) (sourceId : String) :
    Bool :=
  (options.sourceById sourceId).any fun source =>
    source.adapterId = some .systemdCredentialFile && options.encodingOf sourceId = .base64

def Emptied (operation : ItemOperation) (value : Option String) (current : List UInt8) : Prop :=
  (Utf8.decode current).isSome ∧ (operation = .set → value = some "")

/-! ## The writes of a change -/

/-- The items done so far, as the writes group them. -/
structure Grouped (done : List StagedChangeItem) (writes : List SourceWrite) : Prop where
  operations : ∀ write ∈ writes, write.operations
    = (done.filter fun item => item.sourceId = write.sourceId).map StagedChangeItem.toOperation
  expected : ∀ write ∈ writes, ∃ item ∈ done, item.sourceId = write.sourceId ∧
    item.sourceFingerprint = write.expectedSourceFingerprint
  listed : ∀ item ∈ done, ∃ write ∈ writes, write.sourceId = item.sourceId

theorem filter_snoc (done : List StagedChangeItem) (item : StagedChangeItem) (sourceId : String) :
    (done ++ [item]).filter (fun other => other.sourceId = sourceId)
      = done.filter (fun other => other.sourceId = sourceId)
        ++ if item.sourceId = sourceId then [item] else [] := by
  by_cases same : item.sourceId = sourceId
  · simp [same]
  · simp [same]

/-- An item whose source was seen with its own fingerprint is added to the writes. -/
theorem addItem_grouped {done : List StagedChangeItem} {item : StagedChangeItem}
    {writes : List SourceWrite} (grouped : Grouped done writes)
    (fits : ∀ other ∈ done, other.sourceId = item.sourceId →
      other.sourceFingerprint = item.sourceFingerprint) :
    ∃ next, addItem writes item = .ok next ∧ Grouped (done ++ [item]) next := by
  unfold addItem
  cases seen : writes.find? fun write => write.sourceId = item.sourceId with
  | none =>
    have apart : ∀ write ∈ writes, write.sourceId ≠ item.sourceId := by
      simpa using List.find?_eq_none.mp seen
    have unseen : done.filter (fun other => other.sourceId = item.sourceId) = [] := by
      refine List.filter_eq_nil_iff.mpr fun other member same => ?_
      obtain ⟨write, listed, its⟩ := grouped.listed other member
      exact apart write listed (its.trans (of_decide_eq_true same))
    refine ⟨_, rfl, ?_, ?_, ?_⟩
    · intro write member
      rw [filter_snoc]
      rcases mem_append.mp member with before | added
      · rw [if_neg (apart write before).symm, List.append_nil]
        exact grouped.operations write before
      · obtain rfl := mem_singleton.mp added
        rw [if_pos rfl, unseen]
        rfl
    · intro write member
      rcases mem_append.mp member with before | added
      · obtain ⟨other, listed, same⟩ := grouped.expected write before
        exact ⟨other, mem_append_left _ listed, same⟩
      · obtain rfl := mem_singleton.mp added
        exact ⟨item, List.mem_append_right _ (.head _), rfl, rfl⟩
    · intro other member
      rcases mem_append.mp member with before | added
      · obtain ⟨write, listed, same⟩ := grouped.listed other before
        exact ⟨write, mem_append_left _ listed, same⟩
      · obtain rfl := mem_singleton.mp added
        exact ⟨_, List.mem_append_right _ (.head _), rfl⟩
  | some found =>
    have member : found ∈ writes := List.mem_of_find?_eq_some seen
    have same : found.sourceId = item.sourceId := by
      simpa using List.find?_some seen
    obtain ⟨other, listed, its, fingerprint⟩ := grouped.expected found member
    have fresh : found.expectedSourceFingerprint = item.sourceFingerprint :=
      fingerprint.symm.trans (fits other listed (its.trans same))
    dsimp only
    rw [if_neg (not_not.mpr fresh)]
    refine ⟨_, rfl, ?_, ?_, ?_⟩
    · intro write listed
      obtain ⟨before, member, rfl⟩ := mem_map.mp listed
      rw [filter_snoc]
      split
      · rename_i mine
        rw [if_pos mine.symm, grouped.operations before member, List.map_append]
        rfl
      · rename_i others
        rw [if_neg fun mine => others mine.symm, List.append_nil]
        exact grouped.operations before member
    · intro write listed
      obtain ⟨before, member, rfl⟩ := mem_map.mp listed
      obtain ⟨one, listed, its⟩ := grouped.expected before member
      refine ⟨one, mem_append_left _ listed, ?_⟩
      split
      · exact its
      · exact its
    · intro other listed
      have present : ∃ write ∈ writes, write.sourceId = other.sourceId := by
        rcases mem_append.mp listed with before | added
        · exact grouped.listed other before
        · obtain rfl := mem_singleton.mp added
          exact ⟨found, member, same⟩
      obtain ⟨write, member, its⟩ := present
      refine ⟨_, mem_map_of_mem member, ?_⟩
      split
      · exact its
      · exact its

/-- The writes of a change whose sources each have one fingerprint. -/
theorem sourceOperations_ok {change : StagedChangePayload}
    (alike : ∀ item ∈ change.items, ∀ other ∈ change.items, other.sourceId = item.sourceId →
      other.sourceFingerprint = item.sourceFingerprint) :
    ∃ writes, sourceOperations change = .ok writes ∧ Grouped change.items writes := by
  have start : Grouped [] [] := ⟨by simp, by simp, by simp⟩
  refine Fallible.foldlM_succeeds ?_ start
  intro before item after writes split grouped
  have whole : change.items = before ++ item :: after := split
  refine addItem_grouped grouped fun other member => alike item ?_ other ?_
  · rw [whole]
    exact List.mem_append_right _ (.head _)
  · rw [whole]
    exact mem_append_left _ member

/-! ## One source -/

/-- A definition that a statement assigns has a name. -/
theorem parseStatement_named {statement : List Char} {line : Nat} {assignment : Assignment}
    (parsed : parseStatement statement line = .ok (some assignment)) : assignment.name ≠ [] := by
  unfold parseStatement at parsed
  split at parsed
  · cases parsed
  · simp only at parsed
    split at parsed
    · rename_i first name after named assigned
      obtain ⟨value, -, same⟩ := map_ok parsed
      obtain rfl := Option.some.inj same
      rw [named]
      exact List.cons_ne_nil _ _
    · cases parsed

variable {bytes : List UInt8}

/-- The definitions of a text have names. -/
theorem parseStatements_named {before text : List Char} {line : Nat} {ordinals : List Char → Nat}
    {definitions : List ParsedDefinition}
    (parsed : parseStatements bytes before line ordinals text = .ok definitions) :
    ∀ definition ∈ definitions, definition.name ≠ [] :=
  parseStatements_forall bytes (fun _ _ _ _ _ read => parseStatement_named read) parsed

/-- An operation that may be written: only what is optional is deleted, and a value is set. -/
def SourceWriteOperation.Allowed (operation : SourceWriteOperation) : Prop :=
  (operation.operation = .delete → operation.requirement = .optional) ∧
    (operation.operation = .set → operation.value.isSome = true)

/-- The operation of a text source that has a replacement is allowed. -/
theorem replacementOf_allowed {definitions : List ParsedDefinition}
    {operation : SourceWriteOperation} {replacement : Replacement UInt8}
    (made : replacementOf definitions operation = .ok replacement) : operation.Allowed := by
  unfold replacementOf at made
  split at made
  · cases made
  · rename_i deletes
    split at made
    · cases made
    · rename_i sets
      constructor
      · intro isDelete
        by_contra kept
        exact deletes ⟨isDelete, kept⟩
      · intro isSet
        by_contra absent
        exact sets ⟨isSet, by simpa using absent⟩

/-- The operation of a credential is one, and allowed. -/
theorem credentialBytes_ok {operations : List SourceWriteOperation}
    (serialized : credentialBytes operations = .ok bytes) :
    ∃ operation, operations = [operation] ∧ operation.Allowed := by
  unfold credentialBytes at serialized
  split at serialized
  · rename_i operation
    refine ⟨operation, rfl, ?_⟩
    split at serialized
    · cases serialized
    · split at serialized
      · rename_i isDelete
        split at serialized
        · cases serialized
        · rename_i allowed
          exact ⟨fun _ => not_not.mp allowed, fun isSet => by simp [isDelete] at isSet⟩
      · rename_i isSet
        split at serialized
        · cases serialized
        · rename_i value present
          exact ⟨fun isDelete => absurd isDelete isSet, fun _ => by rw [present]; rfl⟩
  · cases serialized

/-- What is serialized with its operations is no `pm2` source, and its operations are allowed. -/
theorem serializeUpdatedSource_ok {parsed : ParsedSource} {operations : List SourceWriteOperation}
    (serialized : serializeUpdatedSource parsed operations = .ok bytes) :
    parsed.adapterId ≠ .pm2EcosystemStatic ∧
      ∀ operation ∈ operations, operation.Allowed := by
  unfold serializeUpdatedSource at serialized
  split at serialized
  · cases serialized
  · cases adapter : parsed.adapterId with
    | pm2EcosystemStatic =>
      rw [adapter] at serialized
      cases serialized
    | systemdCredentialFile =>
      rw [adapter] at serialized
      obtain ⟨operation, rfl, allowed⟩ := credentialBytes_ok serialized
      refine ⟨nofun, fun other member => ?_⟩
      obtain rfl := mem_singleton.mp member
      exact allowed
    | nodeEnvFile | systemdEnvironmentFile | dotenv =>
      rw [adapter] at serialized
      obtain ⟨replacements, replaced, -⟩ := bind_ok serialized
      refine ⟨nofun, fun operation member => ?_⟩
      obtain ⟨replacement, -, made⟩ := Fallible.exists_of_mapM replaced member
      exact replacementOf_allowed made

/-- A text in base64 has the bytes that it stands for only where there are none. -/
theorem bytes_eq_decode_iff {value : List Char} (canonical : encodePadded (decode value) = value) :
    Utf8.bytes value = decode value ↔ value = [] := by
  constructor
  · intro same
    have none' : decode value = [] := by
      by_contra some'
      have longer := length_lt_encodePadded some'
      have bound := Utf8.length_le_byteLength value
      rw [canonical] at longer
      rw [Utf8.byteLength, same] at bound
      omega
    rw [← canonical, none']
    rfl
  · rintro rfl
    rfl

/-- An operation on a credential leaves the same bytes with both encodings if it empties it. -/
theorem credentialBytes_base64 {item : StagedChangeItem}
    (serialized : credentialBytes [item.writeOperation (some .base64)] = .ok bytes) :
    credentialBytes [item.writeOperation none] = .ok bytes ↔
      (item.operation = .set → item.value = some "") := by
  obtain ⟨sourceId, name, duplicateOrdinal, operation, requirement, value, fingerprint⟩ := item
  have first : duplicateOrdinal = 0 := by
    by_contra other
    have refused := (if_pos other).symm.trans serialized
    cases refused
  subst first
  cases operation with
  | delete => exact iff_of_true serialized nofun
  | set =>
    cases value with
    | none => cases serialized
    | some value =>
      have decoded : (if !isBase64 value.toList then .error (sourceError .sourceMalformed)
          else if encodePadded (decode value.toList) ≠ value.toList then
            .error (sourceError .sourceMalformed)
          else .ok (decode value.toList)) = Except.ok bytes := serialized
      have written : credentialBytes [StagedChangeItem.writeOperation
          ⟨sourceId, name, 0, .set, requirement, some value, fingerprint⟩ none]
            = .ok (Utf8.bytes value.toList) := rfl
      split at decoded
      · cases decoded
      · split at decoded
        · cases decoded
        · rename_i canonical
          obtain rfl := Except.ok.inj decoded
          rw [written, Except.ok.injEq, bytes_eq_decode_iff (not_not.mp canonical)]
          simp

variable {adapterId : SourceAdapterId}

open ValidationServiceOptions AtomicSourceWriterOptions

/-- A parse has the adapter that made it. -/
theorem parse_adapterId {runtime : ValidationRuntime} {maximumBytes : Int} {name : String}
    {encoding : ValueEncoding} {parsed : ParsedSource}
    (read : runtime.parse adapterId maximumBytes bytes name encoding = .ok parsed) :
    parsed.adapterId = adapterId ∧ parsed.unchanged := by
  cases adapterId with
  | systemdCredentialFile =>
    obtain ⟨adapter, unchanged, -⟩ :=
      parseSystemdCredentialFile_ok read
    exact ⟨adapter, unchanged⟩
  | pm2EcosystemStatic =>
    obtain ⟨definitions, -, rfl⟩ := map_ok read
    exact ⟨rfl, rfl⟩
  | nodeEnvFile | systemdEnvironmentFile | dotenv =>
    obtain ⟨text, -, -, -, made⟩ := parseTextAssignments_ok read
    rw [made]
    exact ⟨rfl, rfl⟩

/-- Only the parse of a credential depends on a name and an encoding. -/
theorem parse_plain {runtime : ValidationRuntime} (plain : adapterId ≠ .systemdCredentialFile)
    (maximumBytes : Int) (bytes : List UInt8) (name other : String)
    (encoding otherEncoding : ValueEncoding) :
    runtime.parse adapterId maximumBytes bytes name encoding
      = runtime.parse adapterId maximumBytes bytes other otherEncoding := by
  cases adapterId with
  | systemdCredentialFile => exact absurd rfl plain
  | nodeEnvFile | systemdEnvironmentFile | dotenv | pm2EcosystemStatic => rfl

/-- A definition of a text source has a name. -/
theorem parse_named {runtime : ValidationRuntime} (plain : adapterId ≠ .systemdCredentialFile)
    (notPm2 : adapterId ≠ .pm2EcosystemStatic) {maximumBytes : Int} {name : String}
    {encoding : ValueEncoding} {parsed : ParsedSource}
    (read : runtime.parse adapterId maximumBytes bytes name encoding = .ok parsed) :
    ∀ definition ∈ parsed.definitions, definition.name ≠ [] := by
  cases adapterId with
  | systemdCredentialFile => exact absurd rfl plain
  | pm2EcosystemStatic => exact absurd rfl notPm2
  | nodeEnvFile | systemdEnvironmentFile | dotenv =>
    obtain ⟨text, -, -, statements, -⟩ := parseTextAssignments_ok read
    exact parseStatements_named statements

/-- A credential that was parsed as binary data is parsed as a text if it is one. -/
theorem parseSystemdCredentialFile_text {name : List Char} {parseOptions : ParseOptions}
    {parsed : ParsedSource}
    (read : parseSystemdCredentialFile bytes name .base64 parseOptions = .ok parsed) :
    (∃ text, parseSystemdCredentialFile bytes name .text parseOptions = .ok text)
      ↔ (Utf8.decode bytes).isSome := by
  unfold parseSystemdCredentialFile at read ⊢
  dsimp only at read ⊢
  split at read
  · cases read
  · rename_i fits
    rw [if_neg fits]
    cases decoded : Utf8.decode bytes with
    | none => simp [decodeUtf8, decoded, Except.map]
    | some text => simp [decodeUtf8, decoded, Except.map]

/-- The writer refuses no operation that is allowed. -/
theorem refusal_toOperation {item : StagedChangeItem} {encoding : Option ValueEncoding}
    (allowed : (item.writeOperation encoding).Allowed) : item.toOperation.refusal = none := by
  obtain ⟨sourceId, name, duplicateOrdinal, operation, requirement, value, fingerprint⟩ := item
  obtain ⟨deletes, sets⟩ := allowed
  cases operation with
  | delete =>
    cases requirement with
    | required => cases deletes rfl
    | «optional» => rfl
  | set =>
    cases value with
    | none => cases sets rfl
    | some value => rfl

/-- The bytes from a parse in which every operation has one definition. -/
theorem updatedBytes_iff {operations : List AtomicWriteOperation} {parsed : ParsedSource}
    (single : ∀ operation ∈ operations,
      (parsed.definitions.filter fun item => item.name = operation.name.toList).length = 1) :
    updatedBytes operations parsed = .ok bytes ↔
      serializeUpdatedSource parsed (operations.map AtomicWriteOperation.write) = .ok bytes := by
  have none' : ¬ (operations.any fun operation => decide
      ((parsed.definitions.filter fun item => item.name = operation.name.toList).length ≠ 1))
        = true := by
    intro found
    obtain ⟨operation, member, several⟩ := List.any_eq_true.mp found
    exact of_decide_eq_true several (single operation member)
  unfold updatedBytes
  rw [if_neg none']
  split
  · rename_i error failed
    rw [failed]
    exact iff_of_false nofun nofun
  · rename_i found serialized
    rw [serialized, Except.ok.injEq, Except.ok.injEq]

/-- What a write comes to when its source may be written and holds what is expected. -/
theorem nextBytes_eq {options : AtomicSourceWriterOptions} {write : SourceWrite}
    {current : List UInt8} {source : ManifestSource} {first : AtomicWriteOperation}
    {others : List AtomicWriteOperation}
    (found : underId ManifestSource.id options.manifest.sources write.sourceId = some source)
    (controlled : source.mutability = .catalogControlled)
    (adapted : source.adapterId = some adapterId) (notPm2 : adapterId ≠ .pm2EcosystemStatic)
    (operations : write.operations = first :: others) (named : first.name ≠ "")
    (allowed : ∀ operation ∈ write.operations, operation.refusal = none)
    (fresh : options.hmacFingerprint source.id current = write.expectedSourceFingerprint) :
    options.nextBytes write current
      = match options.parse adapterId source.maximumBytes current first.name .text with
        | .error _ => .error (.writer .sourceParseFailed)
        | .ok parsed => updatedBytes write.operations parsed := by
  have writable : assertWritableSource source write.operations = .ok () := by
    have permitted : ¬ (source.mutability ≠ .catalogControlled ∨
        source.adapterId = some .pm2EcosystemStatic) := by
      rintro (other | pm2)
      · exact other controlled
      · rw [adapted] at pm2
        exact notPm2 (Option.some.inj pm2)
    rw [assertWritableSource, if_neg permitted, List.findSome?_eq_none_iff.mpr allowed]
  have name : (write.operations.head?.map (·.name)).filter (· ≠ "") = some first.name := by
    rw [operations]
    simp [named]
  unfold nextBytes
  rw [found]
  dsimp only
  rw [writable]
  rw [if_neg (not_not.mpr fresh), name]
  unfold parseSource
  rw [adapted]
  dsimp only
  cases options.parse adapterId source.maximumBytes current first.name .text with
  | error error => rfl
  | ok parsed => rfl

/-- The items of one source at the time of a write: what they were validated with, and what was
proposed for it. -/
structure Prepared (options : ValidationServiceOptions) (write : SourceWrite)
    (source : ManifestSource) (mine : List StagedChangeItem) (parsed : ParsedSource)
    (current bytes : List UInt8) : Prop where
  found : options.sourceById write.sourceId = some source
  controlled : source.mutability = .catalogControlled
  operations : write.operations = mine.map StagedChangeItem.toOperation
  nonempty : mine ≠ []
  parses : ∀ item ∈ mine,
    options.parseSource source current item.name (options.encodingOf write.sourceId) = .ok parsed
  defined : ∀ item ∈ mine, ∃ definition, findDefinition parsed item.name = .ok definition
  fresh : options.hmacFingerprint write.sourceId current = write.expectedSourceFingerprint
  proposed : serializeUpdatedSource parsed (mine.map fun item => item.writeOperation <|
    if source.adapterId = some .systemdCredentialFile then some (options.encodingOf write.sourceId)
    else none) = .ok bytes

section

variable {options : ValidationServiceOptions} {write : SourceWrite} {source : ManifestSource}
  {mine : List StagedChangeItem} {parsed : ParsedSource} {current bytes : List UInt8}
  (prepared : Prepared options write source mine parsed current bytes)
include prepared

/-- What a write of a prepared source comes to. -/
theorem Prepared.nextBytes {adapterId : SourceAdapterId} {first : StagedChangeItem}
    {others : List StagedChangeItem} (adapted : source.adapterId = some adapterId)
    (items : mine = first :: others)
    (read : options.parse adapterId source.maximumBytes current first.name
      (options.encodingOf write.sourceId) = .ok parsed)
    (credentialNamed : adapterId = .systemdCredentialFile → first.name ≠ "") :
    options.writer.nextBytes write current
      = match options.parse adapterId source.maximumBytes current first.name .text with
        | .error _ => .error (.writer .sourceParseFailed)
        | .ok parsed => updatedBytes write.operations parsed := by
  obtain ⟨notPm2, allowed⟩ := serializeUpdatedSource_ok prepared.proposed
  rw [(parse_adapterId read).1] at notPm2
  have member : first ∈ mine := items ▸ List.mem_cons_self ..
  have named : first.name ≠ "" := by
    by_cases credential : adapterId = .systemdCredentialFile
    · exact credentialNamed credential
    · obtain ⟨definition, found⟩ := prepared.defined first member
      have listed : definition ∈ parsed.definitions.filter fun other =>
          other.name = first.name.toList := by
        rw [findDefinition_ok found]
        exact .head _
      obtain ⟨within, same⟩ := mem_filter.mp listed
      have some' := parse_named credential notPm2 read definition within
      intro empty
      rw [of_decide_eq_true same, empty] at some'
      exact some' rfl
  have operations : write.operations
      = first.toOperation :: others.map StagedChangeItem.toOperation := by
    rw [prepared.operations, items, List.map_cons]
  have found : underId ManifestSource.id options.writer.manifest.sources write.sourceId
      = some source := prepared.found
  have permitted : ∀ operation ∈ write.operations, operation.refusal = none := by
    intro operation listed
    rw [prepared.operations] at listed
    obtain ⟨item, its, rfl⟩ := mem_map.mp listed
    exact refusal_toOperation (allowed _ (mem_map_of_mem its))
  have fresh : options.writer.hmacFingerprint source.id current
      = write.expectedSourceFingerprint := by
    rw [underId_id prepared.found]
    exact prepared.fresh
  have evaluated := nextBytes_eq found prepared.controlled adapted notPm2 operations named
    permitted fresh
  exact evaluated

theorem Prepared.written : write.operations.map AtomicWriteOperation.write
    = mine.map fun item => item.writeOperation none := by
  rw [prepared.operations, List.map_map]
  rfl

/-- A source that is no credential is written as it was validated. -/
theorem Prepared.plain {adapterId : SourceAdapterId} {first : StagedChangeItem}
    {others : List StagedChangeItem} (adapted : source.adapterId = some adapterId)
    (items : mine = first :: others)
    (read : options.parse adapterId source.maximumBytes current first.name
      (options.encodingOf write.sourceId) = .ok parsed)
    (plain : adapterId ≠ .systemdCredentialFile) :
    options.writer.nextBytes write current = .ok bytes := by
  have again := (parse_plain plain source.maximumBytes current first.name first.name .text
    (options.encodingOf write.sourceId)).trans read
  rw [prepared.nextBytes adapted items read fun credential => absurd credential plain, again]
  refine (updatedBytes_iff ?_).mpr ?_
  · intro operation listed
    rw [prepared.operations] at listed
    obtain ⟨item, its, rfl⟩ := mem_map.mp listed
    obtain ⟨definition, found⟩ := prepared.defined item its
    have single := findDefinition_ok found
    show (parsed.definitions.filter fun other => other.name = item.name.toList).length = 1
    rw [single, List.length_singleton]
  · have proposed := prepared.proposed
    rw [if_neg (by rw [adapted]; exact fun same => plain (Option.some.inj same))] at proposed
    rw [prepared.written]
    exact proposed

/-- A credential has one item, and is written as that item says without an encoding if it is a
text. -/
theorem Prepared.credential (adapted : source.adapterId = some .systemdCredentialFile)
    {first : StagedChangeItem} {others : List StagedChangeItem} (items : mine = first :: others)
    (read : options.parse .systemdCredentialFile source.maximumBytes current first.name
      (options.encodingOf write.sourceId) = .ok parsed) (named : first.name ≠ "") :
    others = [] ∧
      credentialBytes [first.writeOperation (some (options.encodingOf write.sourceId))]
        = .ok bytes ∧
      (options.writer.nextBytes write current = .ok bytes ↔
        (∃ text, options.parse .systemdCredentialFile source.maximumBytes current first.name .text
          = .ok text) ∧ credentialBytes [first.writeOperation none] = .ok bytes) := by
  have proposed := prepared.proposed
  obtain ⟨adapter, unchanged⟩ := parse_adapterId read
  rw [if_pos adapted, items, List.map_cons] at proposed
  unfold serializeUpdatedSource at proposed
  rw [unchanged, adapter] at proposed
  have single : credentialBytes _ = Except.ok bytes := proposed
  obtain ⟨operation, only, -⟩ := credentialBytes_ok single
  obtain ⟨-, none'⟩ := List.cons.inj only
  obtain rfl := List.map_eq_nil_iff.mp none'
  refine ⟨rfl, single, ?_⟩
  rw [prepared.nextBytes adapted items read fun _ => named]
  cases again : options.parse .systemdCredentialFile source.maximumBytes current first.name
      .text with
  | error error => exact iff_of_false nofun fun found => by simp at found
  | ok text =>
    obtain ⟨textAdapter, textUnchanged⟩ := parse_adapterId again
    have textRead : parseSystemdCredentialFile current first.name.toList .text
        ⟨some source.maximumBytes⟩ = .ok text := again
    have names := (parseSystemdCredentialFile_ok textRead).2.2
    rw [updatedBytes_iff, prepared.written, items, List.map_singleton]
    · unfold serializeUpdatedSource
      rw [textUnchanged, textAdapter]
      simp
    · intro operation listed
      rw [prepared.operations, items, List.map_singleton, mem_singleton] at listed
      subst listed
      obtain ⟨definition, one, same⟩ := List.map_eq_singleton_iff.mp names
      rw [one, List.filter_singleton, same]
      show (bif decide (first.name.toList = first.name.toList) then [definition] else []).length = 1
      rw [decide_eq_true rfl]
      rfl

/-- A source gets the bytes that were proposed for it exactly when it is no credential displayed in
base64, or is a text that is emptied. -/
theorem Prepared.nextBytes_iff : options.writer.nextBytes write current = .ok bytes ↔
    (options.isBinary write.sourceId →
      ∀ item ∈ mine, Emptied item.operation item.value current) := by
  obtain ⟨first, others, items⟩ := List.exists_cons_of_ne_nil prepared.nonempty
  have member : first ∈ mine := items ▸ List.mem_cons_self ..
  obtain ⟨adapterId, adapted, credentialNamed, read⟩ :=
    parseSource_ok (prepared.parses first member)
  have binary : options.isBinary write.sourceId
      = (source.adapterId = some .systemdCredentialFile
          && options.encodingOf write.sourceId = .base64) := by
    rw [ValidationServiceOptions.isBinary, prepared.found]
    rfl
  by_cases isCredential : adapterId = .systemdCredentialFile
  · subst isCredential
    obtain ⟨rfl, serialized, written⟩ :=
      prepared.credential adapted items read (credentialNamed rfl)
    rw [written, binary, adapted, items]
    cases encoding : options.encodingOf write.sourceId with
    | text =>
      rw [encoding] at read serialized
      refine iff_of_true ⟨⟨parsed, read⟩, ?_⟩ fun isBinary => by simp at isBinary
      -- A credential that is a text is validated without an encoding to decode.
      obtain ⟨sourceId, name, duplicateOrdinal, operation, requirement, value, fingerprint⟩ := first
      cases value with
      | none => exact serialized
      | some value => exact serialized
    | base64 =>
      rw [encoding] at read serialized
      have textRead : (∃ text, options.parse .systemdCredentialFile source.maximumBytes current
          first.name .text = .ok text) ↔ (Utf8.decode current).isSome :=
        parseSystemdCredentialFile_text read
      rw [textRead, credentialBytes_base64 serialized]
      simp [Emptied]
  · have plain := prepared.plain adapted items read isCredential
    refine iff_of_true plain fun isBinary => ?_
    rw [binary, adapted] at isBinary
    simp [isCredential] at isBinary

end

/-! ## A whole change -/

variable {options : ValidationServiceOptions} {progress : ValidationProgress}

/-- What was proposed for a source that was touched. -/
theorem lookup_proposed {sources : List ManifestSource} {proposed : List (String × List UInt8)}
    {source : ManifestSource} (distinct : (sources.map (·.id)).Nodup)
    (proposes : sources.mapM (options.propose progress) = .ok proposed) (member : source ∈ sources) :
    ∃ parsed bytes, progress.parsedSources.lookup source.id = some parsed ∧
      serializeUpdatedSource parsed (options.operationsOn progress.persistedItems source)
        = .ok bytes ∧ proposed.lookup source.id = some bytes := by
  have proposal {source : ManifestSource} {pair : String × List UInt8}
      (made : options.propose progress source = .ok pair) :
      ∃ parsed bytes, progress.parsedSources.lookup source.id = some parsed ∧
        serializeUpdatedSource parsed (options.operationsOn progress.persistedItems source)
          = .ok bytes ∧ pair = (source.id, bytes) := by
    unfold propose at made
    split at made
    · cases made
    · rename_i parsed known
      split at made
      · cases made
      · rename_i bytes serialized
        exact ⟨parsed, bytes, known, serialized, (Except.ok.inj made).symm⟩
  induction sources generalizing proposed with
  | nil => cases member
  | cons first others ih =>
    rw [List.mapM_cons] at proposes
    obtain ⟨pair, made, proposes⟩ := bind_ok proposes
    obtain ⟨rest, made', proposes⟩ := bind_ok proposes
    obtain rfl := Except.ok.inj proposes
    obtain ⟨parsed, bytes, known, serialized, rfl⟩ := proposal made
    obtain ⟨apart, distinct⟩ := List.nodup_cons.mp distinct
    rcases List.mem_cons.mp member with rfl | later
    · exact ⟨parsed, bytes, known, serialized, List.lookup_cons_self⟩
    · obtain ⟨its, written, found, done, listed⟩ := ih distinct made' later
      have differs : source.id ≠ first.id := fun same =>
        apart (mem_map.mpr ⟨source, later, same⟩)
      refine ⟨its, written, found, done, ?_⟩
      rw [List.lookup_cons, beq_false_of_ne differs]
      exact listed

/-- The items of a request and those of the draft are about the same sources, values and
fingerprints. -/
theorem persisted_of_item {done : List ChangeItem}
    (validating : ValidationServiceOptions.Validating options done progress) {item : ChangeItem}
    (member : item ∈ done) : ∃ entry, item.persisted entry ∈ progress.persistedItems := by
  obtain ⟨place, inside, rfl⟩ := List.getElem_of_mem member
  have within : place < progress.persistedItems.length :=
    validating.listed.length_eq ▸ inside
  obtain ⟨entry, same⟩ := validating.listed.get inside within
  exact ⟨entry, same ▸ List.getElem_mem within⟩

/-- An item of the draft is one of the request. -/
theorem item_of_persisted {done : List ChangeItem}
    (validating : ValidationServiceOptions.Validating options done progress)
    {persisted : PersistedChangeItem} (member : persisted ∈ progress.persistedItems) :
    ∃ item ∈ done, ∃ entry, persisted = item.persisted entry := by
  obtain ⟨place, inside, rfl⟩ := List.getElem_of_mem member
  have within : place < done.length := validating.listed.length_eq ▸ inside
  obtain ⟨entry, same⟩ := validating.listed.get within inside
  exact ⟨done[place], List.getElem_mem within, entry, same⟩

/-- The bytes that a request was validated with are those of the time of the apply, by their
fingerprints: the fingerprints of different bytes that were there differ. -/
structure Unchanged (options : ValidationServiceOptions) (request : ChangeValidateRequest)
    (current : String → List UInt8) : Prop where
  fresh : ∀ item ∈ request.items,
    options.hmacFingerprint item.sourceId (current item.sourceId) = item.sourceFingerprint
  apart : ∀ item ∈ request.items, ∀ source bytes,
    options.sourceById item.sourceId = some source → options.readSource source = .ok bytes →
    options.hmacFingerprint item.sourceId bytes
        = options.hmacFingerprint item.sourceId (current item.sourceId) →
    bytes = current item.sourceId

section

variable {request : ChangeValidateRequest} {current : String → List UInt8}
  (validating : ValidationServiceOptions.Validating options request.items progress)
  (unchanged : Unchanged options request current)
include validating unchanged

/-- An item of the draft was validated with the bytes that its source still has. -/
theorem located_current {item : PersistedChangeItem} (member : item ∈ progress.persistedItems) :
    ∃ source parsed, ValidationServiceOptions.Located options progress item source
      (current item.sourceId) parsed := by
  obtain ⟨source, bytes, parsed, located⟩ := validating.located item member
  obtain ⟨asked, listed, entry, rfl⟩ := item_of_persisted validating member
  have same : bytes = current asked.sourceId := by
    refine unchanged.apart asked listed source bytes located.found located.read ?_
    rw [unchanged.fresh asked listed]
    exact located.fingerprint
  exact ⟨source, parsed, same ▸ located⟩

/-- Items of one source have one fingerprint. -/
theorem fingerprints_alike {item other : PersistedChangeItem}
    (member : item ∈ progress.persistedItems) (otherMember : other ∈ progress.persistedItems)
    (same : other.sourceId = item.sourceId) :
    other.sourceFingerprint = item.sourceFingerprint := by
  obtain ⟨source, parsed, located⟩ := located_current validating unchanged member
  obtain ⟨otherSource, otherParsed, otherLocated⟩ :=
    located_current validating unchanged otherMember
  rw [← located.fingerprint, ← otherLocated.fingerprint, same]

/-- The write of a source that items of the draft are about is prepared. -/
theorem prepared_write {proposed : List (String × List UInt8)} {writes : List SourceWrite}
    {write : SourceWrite}
    (proposes : progress.touchedSources.mapM (options.propose progress) = .ok proposed)
    (grouped : Grouped (progress.persistedItems.map (·.toStagedChangeItem)) writes)
    (member : write ∈ writes) :
    ∃ source parsed bytes, proposed.lookup write.sourceId = some bytes ∧
      Prepared options write source
        ((progress.persistedItems.filter fun item => item.sourceId = write.sourceId).map
          (·.toStagedChangeItem)) parsed (current write.sourceId) bytes := by
  obtain ⟨staged, listed, its, expected⟩ := grouped.expected write member
  obtain ⟨first, firstMember, rfl⟩ := mem_map.mp listed
  obtain ⟨source, parsed, located⟩ := located_current validating unchanged firstMember
  have id : source.id = write.sourceId := (underId_id located.found).trans its
  obtain ⟨cached, bytes, known, serialized, proposal⟩ :=
    lookup_proposed validating.distinct proposes located.touched
  have same : cached = parsed := by
    rw [id, ← its, located.cached] at known
    exact (Option.some.inj known).symm
  subst same
  have every {item : PersistedChangeItem} (about : item ∈ progress.persistedItems)
      (mine : item.sourceId = write.sourceId) :
      ValidationServiceOptions.Located options progress item source (current write.sourceId)
        cached := by
    obtain ⟨other, definitions, otherLocated⟩ := located_current validating unchanged about
    have sameSource := otherLocated.found
    rw [mine, ← its, located.found] at sameSource
    obtain rfl := Option.some.inj sameSource
    have sameParse := otherLocated.cached
    rw [mine, ← its, located.cached] at sameParse
    obtain rfl := Option.some.inj sameParse
    exact mine ▸ otherLocated
  have split {item : StagedChangeItem}
      (member : item ∈ (progress.persistedItems.filter fun item =>
        item.sourceId = write.sourceId).map (·.toStagedChangeItem)) :
      ∃ persisted ∈ progress.persistedItems, persisted.sourceId = write.sourceId ∧
        persisted.toStagedChangeItem = item := by
    obtain ⟨persisted, within, rfl⟩ := mem_map.mp member
    obtain ⟨about, mine⟩ := mem_filter.mp within
    exact ⟨persisted, about, of_decide_eq_true mine, rfl⟩
  refine ⟨source, cached, bytes, id ▸ proposal,
    { found := its ▸ located.found
      controlled := located.controlled
      operations := ?_
      nonempty := ?_
      parses := ?_
      defined := ?_
      fresh := ?_
      proposed := ?_ }⟩
  · rw [grouped.operations write member, List.filter_map]
    rfl
  · intro empty
    have within : first ∈ progress.persistedItems.filter fun item =>
        item.sourceId = write.sourceId := mem_filter.mpr ⟨firstMember, decide_eq_true its⟩
    rw [List.map_eq_nil_iff.mp empty] at within
    cases within
  · intro item within
    obtain ⟨persisted, about, mine, rfl⟩ := split within
    exact mine ▸ (every about mine).parse
  · intro item within
    obtain ⟨persisted, about, mine, rfl⟩ := split within
    exact (every about mine).defined
  · rw [← expected, ← its]
    exact located.fingerprint
  · rw [operationsOn, id] at serialized
    rw [List.map_map]
    exact serialized

end

namespace ValidationServiceOptions

/-- The writes of a validated change whose sources did not change put the proposed bytes into every
source exactly when every item on a credential that is displayed in base64 empties it. -/
theorem written_iff {request : ChangeValidateRequest} {validated : ValidatedChange}
    {current : String → List UInt8} (accepted : options.validateRequest request = .ok validated)
    (unchanged : Unchanged options request current) :
    WritesProposed options validated current ↔ ∀ item ∈ request.items,
      options.isBinary item.sourceId = true →
        Emptied item.operation item.value (current item.sourceId) := by
  obtain ⟨progress, validating, proposes, draft⟩ := validateRequest_ok accepted
  have items : validated.draft.asStaged.items
      = progress.persistedItems.map (·.toStagedChangeItem) := by
    rw [← draft]
    rfl
  have alike : ∀ item ∈ validated.draft.asStaged.items, ∀ other ∈ validated.draft.asStaged.items,
      other.sourceId = item.sourceId → other.sourceFingerprint = item.sourceFingerprint := by
    rw [items]
    intro item member other otherMember same
    obtain ⟨one, its, rfl⟩ := mem_map.mp member
    obtain ⟨another, their, rfl⟩ := mem_map.mp otherMember
    exact fingerprints_alike validating unchanged its their same
  obtain ⟨writes, planned, grouped⟩ := sourceOperations_ok alike
  rw [items] at grouped
  constructor
  · rintro ⟨others, plannedToo, writesThem, -⟩ asked member binary
    rw [planned] at plannedToo
    obtain rfl := Except.ok.inj plannedToo
    obtain ⟨entry, persisted⟩ := persisted_of_item validating member
    obtain ⟨write, listed, its⟩ := grouped.listed _ (mem_map_of_mem persisted)
    obtain ⟨source, parsed, bytes, proposal, prepared⟩ :=
      prepared_write validating unchanged proposes grouped listed
    obtain ⟨same, lookedUp, written⟩ := writesThem write listed
    rw [proposal] at lookedUp
    obtain rfl := Option.some.inj lookedUp
    have its' : write.sourceId = asked.sourceId := its
    have every := prepared.nextBytes_iff.mp written (its'.symm ▸ binary)
    have mine : (asked.persisted entry).toStagedChangeItem
        ∈ (progress.persistedItems.filter fun item => item.sourceId = write.sourceId).map
          (·.toStagedChangeItem) :=
      mem_map_of_mem (mem_filter.mpr ⟨persisted, decide_eq_true its'.symm⟩)
    exact its' ▸ every _ mine
  · intro every
    refine ⟨writes, planned, ?_, ?_⟩
    · intro write listed
      obtain ⟨source, parsed, bytes, proposal, prepared⟩ :=
        prepared_write validating unchanged proposes grouped listed
      refine ⟨bytes, proposal, prepared.nextBytes_iff.mpr fun binary item member => ?_⟩
      obtain ⟨persisted, within, rfl⟩ := mem_map.mp member
      obtain ⟨about, its⟩ := mem_filter.mp within
      have its' : persisted.sourceId = write.sourceId := of_decide_eq_true its
      obtain ⟨asked, listed, entry, rfl⟩ := item_of_persisted validating about
      have same : asked.sourceId = write.sourceId := its'
      exact same ▸ every asked listed (same ▸ binary)
    · intro proposal member
      obtain ⟨source, touched, made⟩ := Fallible.exists_of_mem_mapM proposes member
      obtain ⟨-, item, about, its⟩ := validating.touched source touched
      obtain ⟨write, listed, same⟩ := grouped.listed _ (mem_map_of_mem about)
      refine ⟨write, listed, same.trans (its.trans ?_)⟩
      unfold propose at made
      split at made
      · cases made
      · split at made
        · cases made
        · obtain rfl := Except.ok.inj made
          rfl

/-! ## A credential in two encodings -/

/-- The fingerprints of one validation, under the key `key`. -/
def sampleHmac (bytes : List UInt8) : String :=
  "hmac-sha256:v1:" ++
    if bytes = Utf8.bytes "app.credentialold".toList then
      "5f2bfa62cfe8ce13a366d7511c62b5b2fbb65012f83398b3fe58765338e1f17d"
    else if bytes = Utf8.bytes "app.api_keyold".toList then
      "51b8c4f4e12d7c50af8a19469b76f6498adad64779b9460807edeb117d95a197"
    else if bytes = Utf8.bytes "app.api_keybmV3".toList then
      "f1946c50b1e1f12d47f167a55fad5592b38be33b23b0eb6a72a03781749be1b5"
    else "0111ae3a530e5ac7ef9093c133b0149813c132d447fd96bd6687c3ce9438e369"

def sampleSource : ManifestSource :=
  ⟨"app.credential", "app", some .systemdCredentialFile, .catalogControlled, 4096, 0, none, none⟩

/-- A service with one credential, which holds the text `old`. -/
def sampleOptions (encoding : ValueEncoding) : ValidationServiceOptions where
  parsePm2 _ _ := .error (sourceError .pm2StaticExpressionRejected)
  urlProtocol _ := none
  regexTest _ _ _ := none
  hmac := sampleHmac
  catalog :=
    { catalogVersion := "2026-01-01"
      entries := [⟨"app.api_key", "API_KEY", "app", "app.credential", .secret, .required, .managed,
        .credentialRestart, none, false⟩]
      validators := [] }
  manifest :=
    { manifestVersion := "2026-01-01", catalogVersion := "2026-01-01", sources := [sampleSource] }
  readSource _ := .ok (Utf8.bytes "old".toList)
  credentialDisplayEncodings := [("app.credential", encoding)]
  applicationValidator := none
  crossVariableValidators := []
  now := 0
  replaceDraft _ := true

/-- A request that sets the credential to `bmV3`, which is `new` in base64. -/
def sampleItem : ChangeItem where
  appId := "app"
  sourceId := "app.credential"
  catalogId := "app.api_key"
  name := "API_KEY"
  operation := .set
  requirement := .required
  mutability := .managed
  strategy := .credentialRestart
  sourceFingerprint := sampleHmac (Utf8.bytes "app.credentialold".toList)
  value := some "bmV3"

def sampleRequest : ChangeValidateRequest :=
  ⟨"CHG_1", "app", [sampleItem], "2026-01-01", "2026-01-01"⟩

/-- The request as it is sent. -/
def sampleBody : Json :=
  .object [("changeId", .string "CHG_1"), ("appId", .string "app"), ("reason", .string "rotate"),
    ("items", .array [.object [("appId", .string "app"), ("sourceId", .string "app.credential"),
      ("catalogId", .string "app.api_key"), ("name", .string "API_KEY"),
      ("operation", .string "set"), ("requirement", .string "required"),
      ("mutability", .string "managed"), ("strategy", .string "credential_restart"),
      ("sourceFingerprint", .string (sampleHmac (Utf8.bytes "app.credentialold".toList))),
      ("value", .string "bmV3")]]),
    ("replaceDraft", .boolean false), ("catalogVersion", .string "2026-01-01"),
    ("manifestVersion", .string "2026-01-01")]

/-- A credential that is displayed as a text is written as it was validated. -/
theorem text_written : ∃ validated,
    (sampleOptions .text).validateRequest sampleRequest = .ok validated ∧
      WritesProposed (sampleOptions .text) validated fun _ => Utf8.bytes "old".toList := by
  cases accepted : (sampleOptions .text).validateRequest sampleRequest with
  | error code =>
    have goes : ((sampleOptions .text).validateRequest sampleRequest).toOption.isSome := by
      decide +kernel
    rw [accepted] at goes
    cases goes
  | ok validated =>
    have unchanged : Unchanged (sampleOptions .text) sampleRequest
        fun _ => Utf8.bytes "old".toList := by
      constructor
      · decide +kernel
      · intro item member source bytes found read same
        exact (Except.ok.inj read).symm
    have plain : ∀ item ∈ sampleRequest.items,
        (sampleOptions .text).isBinary item.sourceId = false := by decide +kernel
    refine ⟨validated, rfl, (written_iff accepted unchanged).mpr fun item member binary => ?_⟩
    rw [plain item member] at binary
    cases binary

/-- A credential that is displayed in base64 is validated with the bytes that its new value stands
for, and gets the text of that value. -/
theorem base64_written_as_text :
    ¬ ∀ (options : ValidationServiceOptions) (rawRequest : Json) (validated : ValidatedChange)
      (current : String → List UInt8), options.validate rawRequest = .ok validated →
      (∀ source, options.readSource source = .ok (current source.id)) →
        WritesProposed options validated current := by
  intro all
  cases accepted : (sampleOptions .base64).validate sampleBody with
  | error code =>
    have goes : ((sampleOptions .base64).validate sampleBody).toOption.isSome := by decide +kernel
    rw [accepted] at goes
    cases goes
  | ok validated =>
    have facts : ((sampleOptions .base64).validate sampleBody).toOption.map (fun validated =>
        (validated.proposedSourceBytes, sourceOperations validated.draft.asStaged |>.toOption))
          = some ([("app.credential", Utf8.bytes "new".toList)],
            some [⟨"app.credential", sampleHmac (Utf8.bytes "app.credentialold".toList),
              [⟨"API_KEY", 0, .set, .required, some "bmV3"⟩]⟩]) := by
      decide +kernel
    rw [accepted] at facts
    obtain ⟨proposed, planned⟩ := Prod.mk.inj (Option.some.inj facts)
    obtain ⟨writes, plan, written, -⟩ :=
      all _ _ _ (fun _ => Utf8.bytes "old".toList) accepted fun _ => rfl
    rw [plan] at planned
    obtain rfl := Option.some.inj planned
    obtain ⟨bytes, lookedUp, put⟩ := written _ (.head _)
    rw [proposed] at lookedUp
    obtain rfl := Option.some.inj lookedUp
    have text : (sampleOptions .base64).writer.nextBytes
        ⟨"app.credential", sampleHmac (Utf8.bytes "app.credentialold".toList),
          [⟨"API_KEY", 0, .set, .required, some "bmV3"⟩]⟩ (Utf8.bytes "old".toList)
        |>.toOption |>.isEqSome (Utf8.bytes "bmV3".toList) := by decide +kernel
    rw [put] at text
    exact absurd text (by decide)

end ValidationServiceOptions

end NancyMan.Agent
