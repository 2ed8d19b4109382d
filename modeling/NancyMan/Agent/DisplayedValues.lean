import NancyMan.Agent.InventoryService
import NancyMan.Agent.ValidatedWrites

/-!
# Setting a definition to the value it is shown with

A value that the inventory shows is set by a change to the source it was read from. In a text source
it is read back where it stands without quotes before no comment; a credential comes back as it was
only where the validation service reads the text it is shown as in the same way.
-/
namespace NancyMan.Agent

open Base64Url ValidationServiceOptions
open List (mem_filter mem_singleton)

open Fallible (bind_ok map_ok)

/-! ## The own value of a definition in a text source -/

variable {bytes : List UInt8}

/-- The token of a value lies in its text and is as long as the text of the value. -/
theorem parseStatements_within {before text : List Char} {line : Nat} {ordinals : List Char → Nat}
    {definitions : List ParsedDefinition}
    (parsed : parseStatements bytes before line ordinals text = .ok definitions) :
    ∀ definition ∈ definitions, ∃ token, definition.valueToken = some token ∧
      token.byteEnd = token.byteStart + byteOffset token.text ∧
      token.byteEnd ≤ byteOffset (before ++ text) := by
  refine parseStatements_induction bytes (motive := fun before _ _ text definitions =>
    ∀ definition ∈ definitions, ∃ token, definition.valueToken = some token ∧
      token.byteEnd = token.byteStart + byteOffset token.text ∧
      token.byteEnd ≤ byteOffset (before ++ text)) ?_ ?_ ?_ parsed
  · intro before line ordinals definition member
    cases member
  · intro before line ordinals text ending definitions _ ended _ ih definition member
    obtain ⟨token, own, length, inside⟩ := ih definition member
    have whole : before ++ text = before ++ ending.statement ++ ending.lineBreak ++ ending.next := by
      rw [← statementEnd_append ended]
      simp only [List.append_assoc]
    exact ⟨token, own, length, by rwa [whole]⟩
  · intro before line ordinals text ending assignment definitions _ ended read ih
    have whole : before ++ text = before ++ ending.statement ++ ending.lineBreak ++ ending.next := by
      rw [← statementEnd_append ended]
      simp only [List.append_assoc]
    have slices : before ++ text = (before ++ assignment.head ++ assignment.value.source) ++
        (assignment.value.trailing ++ ending.lineBreak ++ ending.next) := by
      rw [whole, statement_slices read]
      simp only [List.append_assoc]
    refine List.forall_mem_cons.mpr ⟨⟨_, rfl, byteOffset_append _ _, ?_⟩, by rwa [whole]⟩
    rw [slices, byteOffset_append]
    exact Nat.le_add_right _ _

/-- The bytes of the value of a definition in a text source are those of its text. -/
theorem parseStatements_valueBytes {before text : List Char} {line : Nat}
    {ordinals : List Char → Nat} {definitions : List ParsedDefinition}
    (parsed : parseStatements bytes before line ordinals text = .ok definitions) :
    ∀ definition ∈ definitions, definition.valueBytes = Utf8.bytes definition.value :=
  parseStatements_forall bytes (fun _ _ _ _ _ _ => rfl) parsed

/-- One operation makes one replacement. -/
theorem serializeUpdatedSource_single {parsed : ParsedSource} {adapterId : TextAdapterId}
    {definitions : List ParsedDefinition}
    (whole : parsed = ⟨adapterId.adapter, bytes, definitions, true⟩)
    (operation : SourceWriteOperation) :
    serializeUpdatedSource parsed [operation] =
      (replacementOf parsed.definitions operation).map fun replacement =>
        replacement.apply parsed.bytes := by
  rw [serializeUpdatedSource_text whole, List.mapM_cons, List.mapM_nil]
  cases replacementOf parsed.definitions operation with
  | error error => rfl
  | ok replacement =>
    show Except.ok ((sortReplacements [replacement]).foldl _ parsed.bytes) = _
    rw [sortReplacements, List.mergeSort_singleton]
    rfl

/-- The operation that sets a definition to its own value. -/
def setOwn (own : ParsedDefinition) (requirement : Requirement)
    (encoding : Option ValueEncoding) : SourceWriteOperation :=
  ⟨own.name, 0, .set, requirement, some own.value, encoding⟩

/-- A source fits its limit with the text of a value in the place of that of another. -/
def FitsWith (bytes : List UInt8) (maximumBytes : Int) (own : ParsedDefinition) : Prop :=
  (bytes.length + byteOffset (encodedText own.sourceValue own.value) : Int) ≤
    maximumBytes + byteOffset own.sourceValue

def CommentApart (bytes : List UInt8) (own : ParsedDefinition) : Prop :=
  Unquoted own.sourceValue own.value → (textAfterValue bytes own).head? ≠ some '#'

section

variable {bytes : List UInt8} {adapterId : TextAdapterId} {maximumBytes : Int}
  {parsed : ParsedSource}
  (accepted : parseTextAssignments bytes adapterId ⟨some maximumBytes⟩ = .ok parsed)
  (unmarked : Unmarked bytes) {own : ParsedDefinition}
  (alone : parsed.definitions.filter (fun other => other.name = own.name) = [own])
  (first : own.duplicateOrdinal = 0)
  (requirement : Requirement) (encoding : Option ValueEncoding)
include accepted unmarked alone first

omit accepted unmarked first in
theorem own_mem : own ∈ parsed.definitions := by
  have member : own ∈ parsed.definitions.filter fun other => other.name = own.name := by
    rw [alone]
    exact .head _
  exact (mem_filter.mp member).1

omit accepted unmarked in
/-- The operation is about the one definition. -/
theorem setOwn_names {other : ParsedDefinition} (member : other ∈ parsed.definitions) :
    (setOwn own requirement encoding).names other ↔ other = own := by
  rw [names_iff]
  constructor
  · intro same
    obtain ⟨name, -⟩ := Prod.mk.inj same
    have among : other ∈ parsed.definitions.filter fun other => other.name = own.name :=
      mem_filter.mpr ⟨member, decide_eq_true name.symm⟩
    rw [alone] at among
    exact mem_singleton.mp among
  · rintro rfl
    exact congrArg (Prod.mk _) first.symm

/-- The range of a value is replaced by its text, which may be as long or not. -/
theorem serialize_setOwn : ∃ written,
    serializeUpdatedSource parsed [setOwn own requirement encoding] = .ok written ∧
      ((written.length : Int) ≤ maximumBytes ↔ FitsWith bytes maximumBytes own) := by
  obtain ⟨text, checks, decoded, read, whole⟩ := parseTextAssignments_ok accepted
  have source : Utf8.bytes text = bytes := Utf8.bytes_of_decode decoded
  rw [dropByteOrderMark_unmarked (by rw [source]; exact unmarked)] at read
  have member := own_mem alone
  obtain ⟨token, found, length, inside⟩ := parseStatements_within read own member
  have total : byteOffset ([] ++ text) = bytes.length := by rw [← source]; rfl
  have same : parsed.bytes = bytes := by rw [whole]
  have only : (parsed.definitions.filter (setOwn own requirement encoding).names).getLast? =
      some own := by
    have here : parsed.definitions.filter (setOwn own requirement encoding).names =
        parsed.definitions.filter fun other => other.name = own.name := by
      refine List.filter_congr fun other among => ?_
      by_cases its : other = own
      · rw [its, (setOwn_names alone first requirement encoding member).mpr rfl]
        simp
      · have differs := mt (setOwn_names alone first requirement encoding among).mp its
        have apart : other.name ≠ own.name := by
          intro name
          have again : other ∈ parsed.definitions.filter fun other => other.name = own.name :=
            mem_filter.mpr ⟨among, by simpa using name⟩
          rw [alone] at again
          exact its (mem_singleton.mp again)
        simp [differs, apart]
    rw [here, alone]
    rfl
  have made : replacementOf parsed.definitions (setOwn own requirement encoding) =
      .ok ⟨token.byteStart, token.byteEnd, encodedValue own own.value⟩ := by
    unfold replacementOf
    rw [only]
    simp [setOwn, found]
  have tokenText : own.sourceValue = token.text := by
    rw [ParsedDefinition.sourceValue, found]
    rfl
  refine ⟨Replacement.apply ⟨token.byteStart, token.byteEnd, encodedValue own own.value⟩ bytes,
    by rw [serializeUpdatedSource_single whole, made, same]; rfl, ?_⟩
  have content : (encodedValue own own.value).length =
      byteOffset (encodedText own.sourceValue own.value) := rfl
  rw [FitsWith, Replacement.apply, List.length_append, List.length_append, List.length_take,
    List.length_drop, content]
  rw [← tokenText] at length
  dsimp only
  omega

/-- The definitions of a source are those it has with one of its values written again, if it fits and
the value stands without quotes before no comment. -/
theorem reread_setOwn (oneLine : OneLine (textAfterValue bytes own)) (noNul : '\x00' ∉ own.value)
    {written : List UInt8}
    (serialized : serializeUpdatedSource parsed [setOwn own requirement encoding] = .ok written) :
    (∃ reparsed, parseTextAssignments written adapterId ⟨some maximumBytes⟩ = .ok reparsed ∧
        reparsed.definitions.map ParsedDefinition.entry =
          parsed.definitions.map ParsedDefinition.entry) ↔
      FitsWith bytes maximumBytes own ∧ CommentApart bytes own := by
  obtain ⟨again, made, fits⟩ := serialize_setOwn accepted unmarked alone first requirement encoding
  rw [Except.ok.inj (made.symm.trans serialized)] at fits
  have member := own_mem alone
  have on (other : ParsedDefinition) (among : other ∈ parsed.definitions) :
      operationOn [setOwn own requirement encoding] other =
        if other = own then some (setOwn own requirement encoding) else none := by
    have names := setOwn_names alone first requirement encoding among
    by_cases its : other = own
    · have named := names.mpr its
      rw [if_pos its]
      simp [operationOn, named]
    · simp [operationOn, mt names.mp its, its]
  by_cases small : (written.length : Int) ≤ maximumBytes
  · have operable : Operable parsed ⟨some maximumBytes⟩ [setOwn own requirement encoding] := by
      refine ⟨List.nodup_singleton _, fun operation of => ?_, fun operation of deletes => ?_,
        fun operation of _ => ?_, fun other again => ?_⟩
      · rw [mem_singleton.mp of]
        exact ⟨own, member, (setOwn_names alone first requirement encoding member).mpr rfl⟩
      · rw [mem_singleton.mp of] at deletes
        cases deletes
      · rw [mem_singleton.mp of]
        exact ⟨own.value, rfl, noNul⟩
      · rw [← Except.ok.inj (serialized.symm.trans again)]
        exact small
    have lines : CommentsOneLine bytes parsed.definitions [setOwn own requirement encoding] := by
      intro other among operation found _
      rw [on other among] at found
      split_ifs at found with its
      rw [its]
      exact oneLine
    have entries : parsed.definitions.filterMap
        (writtenEntry [setOwn own requirement encoding]) =
          parsed.definitions.map ParsedDefinition.entry := by
      rw [← List.filterMap_eq_map']
      refine List.filterMap_congr fun other among => ?_
      rw [writtenEntry, on other among]
      by_cases its : other = own
      · rw [if_pos its, its]
        rfl
      · rw [if_neg its]
    have apart : CommentsApart bytes parsed.definitions [setOwn own requirement encoding] ↔
        CommentApart bytes own := by
      constructor
      · intro all alone'
        exact all own member (setOwn own requirement encoding)
          (by rw [on own member, if_pos rfl]) rfl alone'
      · intro only other among operation found _ unquoted
        rw [on other among] at found
        split_ifs at found with its
        obtain rfl := Option.some.inj found
        rw [its] at unquoted ⊢
        exact only unquoted
    obtain ⟨result, made', -, entered⟩ := written_entries accepted operable unmarked lines
    obtain rfl := Except.ok.inj (serialized.symm.trans made')
    rw [entries, apart] at entered
    rw [entered]
    exact (and_iff_right (fits.mp small)).symm
  · refine iff_of_false ?_ fun both => small (fits.mpr both.1)
    rintro ⟨reparsed, read, -⟩
    obtain ⟨text, checks, -⟩ := parseTextAssignments_ok read
    exact small (assertTextBytes_ok.mp checks).2.1

end

/-! ## A change of one item -/

namespace ValidationServiceOptions

variable {options : ValidationServiceOptions}

/-- What an accepted change of one item has read and proposes. -/
structure Edited (options : ValidationServiceOptions) (item : ChangeItem)
    (validated : ValidatedChange) (source : ManifestSource) (entry : CatalogEntry)
    (bytes : List UInt8) (parsed : ParsedSource) (definition : ParsedDefinition)
    (written : List UInt8) : Prop where
  found : options.sourceById item.sourceId = some source
  entryId : entry.id = item.catalogId
  named : entry.name = item.name
  read : options.readSource source = .ok bytes
  parse : options.parseSource source bytes item.name (options.encodingOf source.id) = .ok parsed
  defined : findDefinition parsed item.name = .ok definition
  noNul : item.operation = .set → '\x00' ∉ (item.value.getD "").toList
  serialized : serializeUpdatedSource parsed
    (options.operationsOn [item.persisted entry] source) = .ok written
  proposed : validated.proposedSourceBytes = [(source.id, written)]
  fingerprints : validated.result.itemFingerprints =
    [options.fingerprintsOf entry source definition item]

/-- An item that is located has its entry's id. -/
theorem locate_entry {appId : String} {item : ChangeItem} {source : ManifestSource}
    {entry : CatalogEntry} (located : options.locate appId item = .ok (source, entry)) :
    entry.id = item.catalogId := by
  unfold locate at located
  split at located
  · cases located
  · cases located
  · next found known =>
    split_ifs at located
    obtain ⟨-, rfl⟩ := Prod.mk.inj (Except.ok.inj located)
    exact underId_id known

theorem validateValue_noNul {entry : CatalogEntry} {value ruleId : String}
    (passes : options.validateValue entry value = .ok ruleId) : '\x00' ∉ value.toList := by
  intro member
  unfold validateValue at passes
  rw [if_pos (.inr member)] at passes
  cases passes

/-- An accepted change of one item. -/
theorem validateRequest_single {request : ChangeValidateRequest} {item : ChangeItem}
    {validated : ValidatedChange} (single : request.items = [item])
    (accepted : options.validateRequest request = .ok validated) :
    ∃ source entry bytes parsed definition written,
      Edited options item validated source entry bytes parsed definition written := by
  obtain ⟨_, -, accepted⟩ := bind_ok accepted
  obtain ⟨progress, looped, accepted⟩ := bind_ok accepted
  obtain ⟨_, -, accepted⟩ := bind_ok accepted
  obtain ⟨proposed, proposes, accepted⟩ := bind_ok accepted
  obtain ⟨_, -, accepted⟩ := bind_ok accepted
  obtain ⟨_, -, accepted⟩ := bind_ok accepted
  obtain ⟨_, -, accepted⟩ := bind_ok accepted
  obtain rfl := Except.ok.inj accepted
  rw [single, List.foldlM_cons] at looped
  obtain ⟨after, validated, rest⟩ := bind_ok looped
  obtain rfl := Except.ok.inj rest
  obtain ⟨⟨source, entry⟩, located, validated⟩ := bind_ok validated
  obtain ⟨bytes, read, validated⟩ := bind_ok validated
  obtain ⟨_, -, validated⟩ := bind_ok validated
  obtain ⟨parsed, parse, validated⟩ := bind_ok validated
  obtain ⟨definition, defined, validated⟩ := bind_ok validated
  obtain ⟨counted, counts, validated⟩ := bind_ok validated
  obtain rfl := Except.ok.inj validated
  obtain ⟨found, -, named⟩ := locate_ok located
  have reads : options.readSource source = .ok bytes := by
    rcases readOnce_ok read with cached | reads
    · cases cached
    · exact reads
  have serialized : ∃ written, serializeUpdatedSource parsed
      (options.operationsOn [item.persisted entry] source) = .ok written ∧
        proposed = [(source.id, written)] := by
    have one : [source].mapM (options.propose _) = .ok proposed := proposes
    obtain ⟨pair, proposal, one⟩ := bind_ok one
    obtain rfl := Except.ok.inj one
    unfold propose at proposal
    rw [List.lookup_cons, beq_self_eq_true] at proposal
    dsimp only at proposal
    split at proposal
    · cases proposal
    · next written serialized =>
      obtain rfl := Except.ok.inj proposal
      exact ⟨written, serialized, rfl⟩
  obtain ⟨written, serialized, only⟩ := serialized
  refine ⟨source, entry, bytes, parsed, definition, written,
    ⟨found, locate_entry located, named, reads, ?_, defined, ?_, serialized, only, rfl⟩⟩
  · rw [← named]
    exact parse
  · intro sets
    unfold countOperation at counts
    rw [sets] at counts
    obtain ⟨ruleId, passes, -⟩ := map_ok counts
    exact validateValue_noNul passes

end ValidationServiceOptions

/-! ## Credentials -/

/-- A byte order mark is dropped from a text exactly when its bytes begin with it. -/
theorem dropByteOrderMark_bytes {value : List Char} (decoded : decodeUtf8 bytes = .ok value) :
    Utf8.bytes value = bytes ↔ Unmarked bytes := by
  unfold decodeUtf8 at decoded
  split at decoded
  · next text whole =>
    obtain rfl := Except.ok.inj decoded
    have source := Utf8.bytes_of_decode whole
    constructor
    · intro same marked
      have kept : dropByteOrderMark text = text := by
        rw [← Utf8.text_bytes (dropByteOrderMark text), same, ← source, Utf8.text_bytes]
      have three : String.utf8EncodeChar '\uFEFF' = [0xEF, 0xBB, 0xBF] := by decide
      have begins : bytes = String.utf8EncodeChar '\uFEFF' ++ bytes.drop 3 := by
        rw [three, ← marked, List.take_append_drop]
      cases text with
      | nil =>
        rw [← source] at begins
        cases begins
      | cons first text =>
        rw [← source] at begins
        obtain rfl := Utf8.first_of_bytes begins
        have shorter := congrArg List.length kept
        rw [dropByteOrderMark, List.length_cons] at shorter
        omega
    · intro unmarked
      rw [dropByteOrderMark_unmarked (by rw [source]; exact unmarked), source]
  · cases decoded

/-- Bytes are their own text in base64 only where there are none. -/
theorem bytes_base64_iff (bytes : List UInt8) :
    Utf8.bytes (encodePadded bytes) = bytes ↔ bytes = [] := by
  have canonical : encodePadded (decode (encodePadded bytes)) =
      encodePadded bytes := by rw [decode_encodePadded]
  have same := bytes_eq_decode_iff canonical
  rw [decode_encodePadded] at same
  rw [same]
  constructor
  · intro empty
    rw [← decode_encodePadded bytes, empty]
    rfl
  · rintro rfl
    rfl

/-- A credential file that is read has one definition, whose bytes are the file's. -/
theorem parseSystemdCredentialFile_shape {name : List Char} {encoding : ValueEncoding}
    {parseOptions : ParseOptions} {parsed : ParsedSource}
    (read : parseSystemdCredentialFile bytes name encoding parseOptions = .ok parsed) :
    ∃ value, (match encoding with
        | .base64 => value = encodePadded bytes
        | .text => decodeUtf8 bytes = .ok value) ∧
      parsed = ⟨.systemdCredentialFile, bytes, [⟨name, value, bytes, 0, 0, bytes.length, bytes, [],
        1⟩], true⟩ := by
  unfold parseSystemdCredentialFile at read
  dsimp only at read
  split at read
  · cases read
  · obtain ⟨value, shown, rfl⟩ := map_ok read
    refine ⟨value, ?_, rfl⟩
    cases encoding with
    | base64 => exact (Except.ok.inj shown).symm
    | text => exact shown

/-! ## Values as they are shown -/

def ParsedDefinition.content (definition : ParsedDefinition) : List Char × List UInt8 :=
  (definition.name, definition.valueBytes)

/-- A change leaves a source as it is shown: the proposed bytes are parsed to the same definitions,
and the fingerprints of the old and the new value are one. -/
structure LeavesAsShown (inventory : InventoryServiceOptions) (source : ManifestSource)
    (parsed : ParsedSource) (validated : ValidatedChange) : Prop where
  reread : ∃ written reparsed, (source.id, written) ∈ validated.proposedSourceBytes ∧
    inventory.parseSource source written = .ok reparsed ∧
    reparsed.definitions.map ParsedDefinition.content =
      parsed.definitions.map ParsedDefinition.content
  fingerprints : ∀ fingerprints ∈ validated.result.itemFingerprints,
    fingerprints.oldValueFingerprint = fingerprints.newValueFingerprint

/-- An item sets a definition of the catalog to the value that the inventory shows. -/
structure SetsAsShown (item : ChangeItem) (definition : InventoryDefinition) : Prop where
  source : item.sourceId = definition.sourceId
  catalogued : definition.catalogId = some item.catalogId
  name : item.name = definition.name
  operation : item.operation = .set
  value : item.value = some definition.value

/-- Where a shown definition was read. -/
structure ShownFrom (options : ValidationServiceOptions) (inventory : InventoryServiceOptions)
    (definition : InventoryDefinition) (source : ManifestSource) (bytes : List UInt8)
    (parsed : ParsedSource) (own : ParsedDefinition) : Prop where
  known : source ∈ options.manifest.sources
  read : options.readSource source = .ok bytes
  parse : inventory.parseSource source bytes = .ok parsed
  defined : own ∈ parsed.definitions
  described : definition = inventory.describe source bytes own

/-- When setting a definition to the value it is shown with changes nothing. -/
def StaysAsShown (options : ValidationServiceOptions) (source : ManifestSource)
    (bytes : List UInt8) (own : ParsedDefinition) : Prop :=
  if source.adapterId = some .systemdCredentialFile then
    if options.credentialDisplayEncodings.lookup source.id = some .text then Unmarked bytes
    else bytes = []
  else
    Unmarked bytes ∧ OneLine (textAfterValue bytes own) ∧
      FitsWith bytes source.maximumBytes own ∧ CommentApart bytes own

/-- When a change that changes nothing can be told from one that does: a text source has no byte
order mark and no comment over several lines, and the key tells the bytes of a credential from its
text in base64. -/
def Tellable (options : ValidationServiceOptions) (source : ManifestSource) (bytes : List UInt8)
    (own : ParsedDefinition) (catalogId : String) : Prop :=
  if source.adapterId = some .systemdCredentialFile then
    options.hmacFingerprint catalogId bytes =
      options.hmacFingerprint catalogId (Utf8.bytes own.value) → bytes = Utf8.bytes own.value
  else Unmarked bytes ∧ OneLine (textAfterValue bytes own)

theorem findDefinition_mem {parsed : ParsedSource} {name : String} {definition : ParsedDefinition}
    (found : findDefinition parsed name = .ok definition) : definition ∈ parsed.definitions := by
  have member : definition ∈ parsed.definitions.filter fun other => other.name = name.toList := by
    rw [findDefinition_ok found]
    exact .head _
  exact (mem_filter.mp member).1

/-- A definition that is found is the first of its name. -/
theorem findDefinition_first {parsed : ParsedSource} {name : String} {definition : ParsedDefinition}
    (found : findDefinition parsed name = .ok definition) : definition.duplicateOrdinal = 0 := by
  unfold findDefinition at found
  split at found
  · cases found
  · split at found
    · next first =>
      obtain rfl := Except.ok.inj found
      exact first
    · cases found
  · cases found

/-- A source that is neither a credential nor a `pm2` file is parsed as a text. -/
theorem parse_text (runtime : ValidationRuntime) {adapterId : SourceAdapterId}
    (plain : adapterId ≠ .systemdCredentialFile) (notPm2 : adapterId ≠ .pm2EcosystemStatic) :
    ∃ textId : TextAdapterId, ∀ maximumBytes bytes name encoding,
      runtime.parse adapterId maximumBytes bytes name encoding =
        parseTextAssignments bytes textId ⟨some maximumBytes⟩ := by
  cases adapterId with
  | nodeEnvFile => exact ⟨.nodeEnvFile, fun _ _ _ _ => rfl⟩
  | systemdEnvironmentFile => exact ⟨.systemdEnvironmentFile, fun _ _ _ _ => rfl⟩
  | dotenv => exact ⟨.dotenv, fun _ _ _ _ => rfl⟩
  | systemdCredentialFile => exact absurd rfl plain
  | pm2EcosystemStatic => exact absurd rfl notPm2

/-- Of entries with distinct ids, each is found under its own. -/
theorem underId_of_mem {α : Type} {idOf : α → String} {entries : List α}
    (distinct : (entries.map idOf).Nodup) {entry : α} (member : entry ∈ entries) :
    underId idOf entries (idOf entry) = some entry := by
  cases found : underId idOf entries (idOf entry) with
  | none =>
    have among : entry ∈ entries.filter fun other => idOf other = idOf entry :=
      mem_filter.mpr ⟨member, by simp⟩
    rw [List.getLast?_eq_none_iff.mp found] at among
    cases among
  | some other =>
    have among := (mem_filter.mp (List.mem_of_getLast? found)).1
    exact congrArg some (List.inj_on_of_nodup_map distinct among member (underId_id found))

section

variable {options : ValidationServiceOptions} {credentialNames : List (String × String)}
  {definition : InventoryDefinition} {source : ManifestSource} {bytes : List UInt8}
  {shownAs : ParsedSource} {own : ParsedDefinition} {item : ChangeItem}
  {validated : ValidatedChange} {entry : CatalogEntry} {parsed : ParsedSource}
  {found : ParsedDefinition} {written : List UInt8}
  (shown : ShownFrom options (options.inventory credentialNames) definition source bytes shownAs own)
  (sets : SetsAsShown item definition)
  (edited : options.Edited item validated source entry bytes parsed found written)
include shown sets edited

/-- The one operation sets the definition to its own value. -/
theorem operationsOn_setOwn : options.operationsOn [item.persisted entry] source =
    [setOwn own entry.requirement.write
      (if source.adapterId = some .systemdCredentialFile then some (options.encodingOf source.id)
        else none)] := by
  have its : item.sourceId = source.id := (underId_id edited.found).symm
  have name : item.name.toList = own.name := by
    rw [sets.name, shown.described]
    exact String.toList_ofList
  have value : item.value.map String.toList = some own.value := by
    rw [sets.value, shown.described]
    exact congrArg some String.toList_ofList
  unfold operationsOn
  have kept : [item.persisted entry].filter (fun item => item.sourceId = source.id) =
      [item.persisted entry] := List.filter_cons_of_pos (decide_eq_true its)
  rw [kept, List.map_singleton]
  simp only [StagedChangeItem.writeOperation, ChangeItem.persisted, setOwn, name, value,
    sets.operation, ItemOperation.write]

/-- The fingerprints are those of the bytes that were found and of the value that is shown. -/
theorem fingerprints_iff (bytesOf : found.valueBytes = valueBytes) :
    (∀ fingerprints ∈ validated.result.itemFingerprints,
      fingerprints.oldValueFingerprint = fingerprints.newValueFingerprint) ↔
      options.hmacFingerprint item.catalogId valueBytes =
        options.hmacFingerprint item.catalogId (Utf8.bytes own.value) := by
  have value : (item.value.getD "").toList = own.value := by
    rw [sets.value, shown.described]
    exact String.toList_ofList
  rw [edited.fingerprints, List.forall_mem_singleton, fingerprintsOf,
    edited.entryId, bytesOf]
  rw [if_neg (by rw [sets.operation]; simp), value]

omit shown sets in
theorem proposed_mem {bytes' : List UInt8} :
    (source.id, bytes') ∈ validated.proposedSourceBytes ↔ bytes' = written := by
  rw [edited.proposed, mem_singleton, Prod.mk.injEq]
  exact and_iff_right rfl

/-- A credential is left as it is shown when the proposal has its bytes and both fingerprints are of
them. -/
theorem leavesAsShown_credential (adapted : source.adapterId = some .systemdCredentialFile) :
    LeavesAsShown (options.inventory credentialNames) source shownAs validated ↔
      written = bytes ∧ options.hmacFingerprint item.catalogId bytes =
        options.hmacFingerprint item.catalogId (Utf8.bytes own.value) := by
  obtain ⟨name, adapterId, named, again, read⟩ := InventoryServiceOptions.parseSource_ok shown.parse
  obtain rfl := Option.some.inj (adapted.symm.trans again)
  obtain ⟨value, -, shape⟩ := parseSystemdCredentialFile_shape read
  obtain ⟨adapterId, again, -, reads⟩ := parseSource_ok edited.parse
  obtain rfl := Option.some.inj (adapted.symm.trans again)
  obtain ⟨other, -, whole⟩ := parseSystemdCredentialFile_shape reads
  have bytesOf : found.valueBytes = bytes := by
    have member := findDefinition_mem edited.defined
    rw [whole] at member
    rw [mem_singleton.mp member]
  have fingerprints := fingerprints_iff shown sets edited bytesOf
  constructor
  · rintro ⟨⟨bytes', reparsed, proposed, reread, contents⟩, equal⟩
    obtain rfl := (proposed_mem edited).mp proposed
    obtain ⟨name', adapterId, named', again, read'⟩ :=
      InventoryServiceOptions.parseSource_ok reread
    obtain rfl := Option.some.inj (adapted.symm.trans again)
    obtain ⟨value', -, shape'⟩ := parseSystemdCredentialFile_shape read'
    rw [shape, shape'] at contents
    exact ⟨(Prod.mk.inj (List.cons.inj contents).1).2, fingerprints.mp equal⟩
  · rintro ⟨rfl, equal⟩
    exact ⟨⟨written, shownAs, (proposed_mem edited).mpr rfl, shown.parse, rfl⟩,
      fingerprints.mpr equal⟩

/-- The value that a credential is shown with, and the bytes proposed for it. -/
theorem credential_written (adapted : source.adapterId = some .systemdCredentialFile) :
    (match options.credentialDisplayEncodings.lookup source.id with
      | some .text => decodeUtf8 bytes = .ok own.value
      | some .base64 | none => own.value = encodePadded bytes) ∧
    written = match options.credentialDisplayEncodings.lookup source.id with
      | some .base64 => bytes
      | some .text | none => Utf8.bytes own.value := by
  obtain ⟨name, adapterId, -, again, read⟩ := InventoryServiceOptions.parseSource_ok shown.parse
  obtain rfl := Option.some.inj (adapted.symm.trans again)
  obtain ⟨value, display, shape⟩ := parseSystemdCredentialFile_shape read
  have ownValue : own.value = value := by
    have member := shown.defined
    rw [shape] at member
    rw [mem_singleton.mp member]
  obtain ⟨adapterId, again, -, reads⟩ := parseSource_ok edited.parse
  obtain rfl := Option.some.inj (adapted.symm.trans again)
  obtain ⟨other, -, whole⟩ := parseSystemdCredentialFile_shape reads
  have serialized := edited.serialized
  rw [operationsOn_setOwn shown sets edited, if_pos adapted, whole] at serialized
  have credential : credentialBytes [setOwn own entry.requirement.write
      (some (options.encodingOf source.id))] = .ok written := serialized
  unfold credentialBytes setOwn at credential
  unfold InventoryServiceOptions.encodingOf ValidationServiceOptions.inventory at display
  unfold encodingOf at credential
  cases lookup : options.credentialDisplayEncodings.lookup source.id with
  | none =>
    rw [lookup] at display credential
    rw [← ownValue] at display
    exact ⟨display, (Except.ok.inj credential).symm⟩
  | some encoding =>
    rw [lookup] at display credential
    rw [← ownValue] at display
    cases encoding with
    | text => exact ⟨display, (Except.ok.inj credential).symm⟩
    | base64 =>
      refine ⟨display, ?_⟩
      have value : own.value = encodePadded bytes := display
      simp only [ne_eq, not_true_eq_false, reduceCtorEq, if_false, if_true, Option.getD_some]
        at credential
      split_ifs at credential
      rw [← Except.ok.inj credential, value, decode_encodePadded]

/-- A credential that is set to the value it is shown with stays as it is shown. -/
theorem credential_stays (adapted : source.adapterId = some .systemdCredentialFile) :
    (StaysAsShown options source bytes own →
      LeavesAsShown (options.inventory credentialNames) source shownAs validated) ∧
    (Tellable options source bytes own item.catalogId →
      LeavesAsShown (options.inventory credentialNames) source shownAs validated →
      StaysAsShown options source bytes own) := by
  obtain ⟨display, proposal⟩ := credential_written shown sets edited adapted
  rw [leavesAsShown_credential shown sets edited adapted, StaysAsShown, Tellable, if_pos adapted,
    if_pos adapted]
  cases lookup : options.credentialDisplayEncodings.lookup source.id with
  | none =>
    rw [lookup] at display proposal
    rw [if_neg nofun, proposal, display, bytes_base64_iff]
    constructor
    · intro empty
      refine ⟨empty, ?_⟩
      rw [empty]
      rfl
    · intro _ same
      exact same.1
  | some encoding =>
    rw [lookup] at display proposal
    cases encoding with
    | text =>
      have unmarked := dropByteOrderMark_bytes display
      rw [if_pos rfl, proposal, unmarked]
      constructor
      · intro plain
        exact ⟨plain, by rw [unmarked.mpr plain]⟩
      · intro _ same
        exact same.1
    | base64 =>
      rw [if_neg (by simp), proposal, display]
      constructor
      · intro empty
        refine ⟨rfl, ?_⟩
        rw [empty]
        rfl
      · intro tells same
        exact (bytes_base64_iff bytes).mp (tells same.2).symm

/-- The source of the item is parsed by both services alike when it is no credential. -/
theorem text_parsed (other : source.adapterId ≠ some .systemdCredentialFile) :
    ∃ textId : TextAdapterId, (∀ bytes' reparsed,
        (options.inventory credentialNames).parseSource source bytes' = .ok reparsed ↔
          parseTextAssignments bytes' textId ⟨some source.maximumBytes⟩ = .ok reparsed) ∧
      shownAs = parsed ∧ own = found := by
  obtain ⟨name, adapterId, named, adapted, read⟩ := InventoryServiceOptions.parseSource_ok shown.parse
  obtain ⟨adapterId', again, -, reads⟩ := parseSource_ok edited.parse
  obtain rfl := Option.some.inj (adapted.symm.trans again)
  have plain : adapterId ≠ .systemdCredentialFile := fun same => other (same ▸ adapted)
  have notPm2 : adapterId ≠ .pm2EcosystemStatic := by
    have same := (parse_adapterId reads).1
    rw [← same]
    exact (serializeUpdatedSource_ok edited.serialized).1
  obtain ⟨textId, parses⟩ := parse_text options.toValidationRuntime plain notPm2
  have one : shownAs = parsed := by
    rw [parses] at reads
    have read' : options.parse adapterId source.maximumBytes bytes name
        ((options.inventory credentialNames).encodingOf source.id) = .ok shownAs := read
    rw [parses] at read'
    exact Except.ok.inj (read'.symm.trans reads)
  refine ⟨textId, fun bytes' reparsed => ?_, one, ?_⟩
  · have any (name' : String) (encoding : ValueEncoding) :
        (options.inventory credentialNames).parse adapterId source.maximumBytes bytes' name'
          encoding = parseTextAssignments bytes' textId ⟨some source.maximumBytes⟩ :=
      parses _ _ _ _
    constructor
    · intro reparse
      obtain ⟨name', adapterId', -, again, reread⟩ := InventoryServiceOptions.parseSource_ok reparse
      obtain rfl := Option.some.inj (adapted.symm.trans again)
      rw [any] at reread
      exact reread
    · intro reparse
      exact InventoryServiceOptions.parseSource_eq named adapted ((any _ _).trans reparse)
  · have member := shown.defined
    rw [one] at member
    have among : own ∈ parsed.definitions.filter fun other => other.name = item.name.toList := by
      refine mem_filter.mpr ⟨member, decide_eq_true ?_⟩
      rw [sets.name, shown.described]
      exact String.toList_ofList.symm
    rw [findDefinition_ok edited.defined] at among
    exact mem_singleton.mp among

/-- A value of a text source that is set to the value it is shown with stays as it is shown. -/
theorem text_stays (other : source.adapterId ≠ some .systemdCredentialFile) :
    (StaysAsShown options source bytes own →
      LeavesAsShown (options.inventory credentialNames) source shownAs validated) ∧
    (Tellable options source bytes own item.catalogId →
      LeavesAsShown (options.inventory credentialNames) source shownAs validated →
      StaysAsShown options source bytes own) := by
  obtain ⟨textId, parses, rfl, rfl⟩ := text_parsed shown sets edited other
  have accepted := (parses bytes shownAs).mp shown.parse
  have name : item.name.toList = own.name := by
    rw [sets.name, shown.described]
    exact String.toList_ofList
  have alone : shownAs.definitions.filter (fun other => other.name = own.name) = [own] := by
    rw [← name]
    exact findDefinition_ok edited.defined
  have noNul : '\x00' ∉ own.value := by
    have value : (item.value.getD "").toList = own.value := by
      rw [sets.value, shown.described]
      exact String.toList_ofList
    rw [← value]
    exact edited.noNul sets.operation
  have first := findDefinition_first edited.defined
  have serialized := edited.serialized
  rw [operationsOn_setOwn shown sets edited] at serialized
  have valueBytes (reparsed : ParsedSource) {bytes' : List UInt8}
      (read : parseTextAssignments bytes' textId ⟨some source.maximumBytes⟩ = .ok reparsed) :
      reparsed.definitions.map ParsedDefinition.content =
        (reparsed.definitions.map ParsedDefinition.entry).map
          fun entry => (entry.1, Utf8.bytes entry.2) := by
    obtain ⟨text, -, -, statements, -⟩ := parseTextAssignments_ok read
    rw [List.map_map]
    refine List.map_congr_left fun one member => ?_
    exact congrArg (Prod.mk one.name) (parseStatements_valueBytes statements one member)
  have injective : Function.Injective fun entry : List Char × List Char =>
      (entry.1, Utf8.bytes entry.2) := by
    intro left right same
    obtain ⟨names, values⟩ := Prod.mk.inj same
    refine Prod.ext names ?_
    rw [← Utf8.text_bytes left.2, values, Utf8.text_bytes]
  have leaves : LeavesAsShown (options.inventory credentialNames) source shownAs validated ↔
      ∃ reparsed, parseTextAssignments written textId ⟨some source.maximumBytes⟩ = .ok reparsed ∧
        reparsed.definitions.map ParsedDefinition.entry =
          shownAs.definitions.map ParsedDefinition.entry := by
    constructor
    · rintro ⟨⟨bytes', reparsed, proposed, reread, contents⟩, -⟩
      obtain rfl := (proposed_mem edited).mp proposed
      have read := (parses bytes' reparsed).mp reread
      refine ⟨reparsed, read, ?_⟩
      rw [valueBytes reparsed read, valueBytes shownAs accepted] at contents
      exact List.map_injective_iff.mpr injective contents
    · rintro ⟨reparsed, read, entries⟩
      refine ⟨⟨written, reparsed, (proposed_mem edited).mpr rfl,
        (parses written reparsed).mpr read, ?_⟩, ?_⟩
      · rw [valueBytes reparsed read, valueBytes shownAs accepted, entries]
      · obtain ⟨text, -, -, statements, -⟩ := parseTextAssignments_ok accepted
        have bytesOf := parseStatements_valueBytes statements own shown.defined
        exact (fingerprints_iff shown sets edited bytesOf).mpr rfl
  rw [leaves, StaysAsShown, Tellable, if_neg other, if_neg other]
  constructor
  · rintro ⟨unmarked, oneLine, fits, apart⟩
    exact (reread_setOwn accepted unmarked alone first _ _ oneLine noNul serialized).mpr
      ⟨fits, apart⟩
  · rintro ⟨unmarked, oneLine⟩ same
    exact ⟨unmarked, oneLine,
      (reread_setOwn accepted unmarked alone first _ _ oneLine noNul serialized).mp same⟩

end

/-- A shown definition of the catalog that an accepted change sets to the value it is shown with stays
as it is shown under a condition on its source, which is exact where a change that changes nothing
can be told from one that does. -/
theorem displayed_value_stays (options : ValidationServiceOptions)
    (credentialNames : List (String × String))
    (distinct : (options.manifest.sources.map ManifestSource.id).Nodup)
    (reported : List InventoryDefinition)
    (read : (options.inventory credentialNames).read = .ok reported)
    (definition : InventoryDefinition) (member : definition ∈ reported) :
    ∃ source bytes parsed own,
      ShownFrom options (options.inventory credentialNames) definition source bytes parsed own ∧
      ∀ request item validated, request.items = [item] → SetsAsShown item definition →
        options.validateRequest request = .ok validated →
        (StaysAsShown options source bytes own →
          LeavesAsShown (options.inventory credentialNames) source parsed validated) ∧
        (Tellable options source bytes own item.catalogId →
          LeavesAsShown (options.inventory credentialNames) source parsed validated →
          StaysAsShown options source bytes own) := by
  obtain ⟨source, known, bytes, parsed, found, parse, own, defined, described⟩ :=
    reported_source read member
  have shown : ShownFrom options (options.inventory credentialNames) definition source bytes parsed
      own := ⟨known, found, parse, defined, described⟩
  refine ⟨source, bytes, parsed, own, shown, fun request item validated single sets accepted => ?_⟩
  obtain ⟨source', entry, bytes', parsed', found', written, edited⟩ :=
    validateRequest_single single accepted
  have id : item.sourceId = source.id := by
    rw [sets.source, described]
    rfl
  have same : options.sourceById item.sourceId = some source := by
    rw [id]
    exact underId_of_mem distinct known
  obtain rfl := Option.some.inj (same.symm.trans edited.found)
  obtain rfl := Except.ok.inj (found.symm.trans edited.read)
  by_cases adapted : source.adapterId = some .systemdCredentialFile
  · exact credential_stays shown sets edited adapted
  · exact text_stays shown sets edited adapted

/-! ## A credential without a configured encoding -/

open ValidationServiceOptions (sampleOptions sampleSource sampleItem sampleRequest)

def sampleNames : List (String × String) := [("app.credential", "API_KEY")]

def sampleDisplay (encodings : List (String × ValueEncoding)) : ValidationServiceOptions :=
  { sampleOptions .text with credentialDisplayEncodings := encodings }

def displayedItem (value : String) : ChangeItem := { sampleItem with value := some value }

/-- What the inventory reports of the credential. -/
theorem sample_reported (encodings : List (String × ValueEncoding)) (value : String)
    (shows : ((sampleDisplay encodings).inventory sampleNames).read.toOption.map (fun reported =>
      reported.map fun definition => (definition.catalogId, definition.name, definition.value,
        definition.sourceId)) = some [(some "app.api_key", "API_KEY", value, "app.credential")]) :
    ∃ definition, ((sampleDisplay encodings).inventory sampleNames).read = .ok [definition] ∧
      SetsAsShown (displayedItem value) definition := by
  cases reads : ((sampleDisplay encodings).inventory sampleNames).read with
  | error code =>
    rw [reads] at shows
    cases shows
  | ok reported =>
    rw [reads] at shows
    obtain ⟨definition, rfl, same⟩ := List.map_eq_singleton_iff.mp (Option.some.inj shows)
    simp only [Prod.mk.injEq] at same
    obtain ⟨catalogued, name, shown, source⟩ := same
    exact ⟨definition, rfl, ⟨source.symm, catalogued, name.symm, rfl, congrArg some shown.symm⟩⟩

/-- A credential that both services display as a text stays when it is set to that text. -/
theorem displayed_text_stays : ∃ reported definition source bytes parsed own validated,
    ((sampleDisplay [("app.credential", .text)]).inventory sampleNames).read = .ok reported ∧
      definition ∈ reported ∧ SetsAsShown (displayedItem "old") definition ∧
      ShownFrom (sampleDisplay [("app.credential", .text)])
        ((sampleDisplay [("app.credential", .text)]).inventory sampleNames) definition source bytes
        parsed own ∧
      (sampleDisplay [("app.credential", .text)]).validateRequest
        { sampleRequest with items := [displayedItem "old"] } = .ok validated ∧
      LeavesAsShown ((sampleDisplay [("app.credential", .text)]).inventory sampleNames) source parsed
        validated := by
  obtain ⟨definition, reads, sets⟩ :=
    sample_reported [("app.credential", .text)] "old" (by decide +kernel)
  cases accepted : (sampleDisplay [("app.credential", .text)]).validateRequest
      { sampleRequest with items := [displayedItem "old"] } with
  | error code =>
    have goes : ((sampleDisplay [("app.credential", .text)]).validateRequest
      { sampleRequest with items := [displayedItem "old"] }).toOption.isSome := by decide +kernel
    rw [accepted] at goes
    cases goes
  | ok validated =>
    obtain ⟨source, bytes, parsed, own, shown, stays⟩ := displayed_value_stays
      (sampleDisplay [("app.credential", .text)]) sampleNames (List.nodup_singleton _) [definition]
      reads definition (.head _)
    refine ⟨_, definition, source, bytes, parsed, own, validated, reads,
      .head _, sets, shown, rfl, (stays _ _ _ rfl sets accepted).1 ?_⟩
    obtain rfl : source = sampleSource := mem_singleton.mp shown.known
    obtain rfl := Except.ok.inj shown.read
    have unmarked : Unmarked (Utf8.bytes "old".toList) := by
      unfold Unmarked
      decide
    exact unmarked

/-- Without a configured encoding the inventory shows a credential in base64, and the validation
service takes what is shown for its text. -/
theorem displayed_base64_replaces : ∃ definition parsed validated,
    ((sampleDisplay []).inventory sampleNames).read = .ok [definition] ∧
      SetsAsShown (displayedItem "b2xk") definition ∧
      ((sampleDisplay []).inventory sampleNames).parseSource sampleSource
        (Utf8.bytes "old".toList) = .ok parsed ∧
      (sampleDisplay []).validateRequest
        { sampleRequest with items := [displayedItem "b2xk"] } = .ok validated ∧
      validated.proposedSourceBytes = [("app.credential", Utf8.bytes "b2xk".toList)] ∧
      ¬ LeavesAsShown ((sampleDisplay []).inventory sampleNames) sampleSource parsed validated := by
  obtain ⟨definition, reads, sets⟩ := sample_reported [] "b2xk" (by decide +kernel)
  have contents (bytes : List UInt8) (name : List Char)
      (content : (((sampleDisplay []).inventory sampleNames).parseSource sampleSource
        bytes).toOption.map (fun parsed => parsed.definitions.map ParsedDefinition.content) =
          some [(name, bytes)]) : ∃ parsed, ((sampleDisplay []).inventory sampleNames).parseSource
        sampleSource bytes = .ok parsed ∧
          parsed.definitions.map ParsedDefinition.content = [(name, bytes)] := by
    cases parses : ((sampleDisplay []).inventory sampleNames).parseSource sampleSource bytes with
    | error code =>
      rw [parses] at content
      cases content
    | ok parsed =>
      rw [parses] at content
      exact ⟨parsed, rfl, Option.some.inj content⟩
  obtain ⟨parsed, parses, content⟩ := contents (Utf8.bytes "old".toList) "API_KEY".toList
    (by decide +kernel)
  obtain ⟨other, parses', content'⟩ := contents (Utf8.bytes "b2xk".toList) "API_KEY".toList
    (by decide +kernel)
  have proposes : ((sampleDisplay []).validateRequest
      { sampleRequest with items := [displayedItem "b2xk"] }).toOption.map
        ValidatedChange.proposedSourceBytes =
          some [("app.credential", Utf8.bytes "b2xk".toList)] := by decide +kernel
  cases accepted : (sampleDisplay []).validateRequest
      { sampleRequest with items := [displayedItem "b2xk"] } with
  | error code =>
    rw [accepted] at proposes
    cases proposes
  | ok validated =>
    rw [accepted] at proposes
    have proposed := Option.some.inj proposes
    refine ⟨definition, parsed, validated, reads, sets, parses, rfl, proposed, ?_⟩
    rintro ⟨⟨written, reparsed, member, reread, same⟩, -⟩
    rw [proposed, mem_singleton] at member
    obtain ⟨-, rfl⟩ := Prod.mk.inj member
    obtain rfl := Except.ok.inj (parses'.symm.trans reread)
    rw [content, content'] at same
    exact absurd same (by decide +kernel)

end NancyMan.Agent
