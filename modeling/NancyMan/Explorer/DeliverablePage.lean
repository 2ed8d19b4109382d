import NancyMan.Explorer.DriverShape
import NancyMan.Explorer.ResultContract
import NancyMan.Lib.Fallible

/-!
# Pages that can be delivered

The rows that the driver returns become cells, the cells a page, and the page passes
`databaseRowsResultSchema` twice: in the worker as the values that were encoded, and in the API as
what `JSON.parse` makes of their text. Both see every part of a value, which the encoder hands
through as it is.
-/
namespace NancyMan.Explorer.Driver

open Value Shape
open Option (any_map any_some)

variable {ν : Type} [JsonRuntime ν]

/-! ## Cells -/

/-- The functions that cells are made with: `maskPiiValue`, the hexadecimal SHA-256 digest,
`String(value)` and `text.slice(0, length)`. -/
structure CellRuntime (ν : Type) where
  maskPiiValue : Value ν → Option String → String
  sha256 : List UInt8 → String
  toText : Value ν → String
  slice : String → Nat → String

inductive Cell (ν : Type) where
  | value (shown : Value ν)
  | masked (display : String)
  | blocked
  | truncated (display : String) (originalBytes : Nat)

variable (runtime : CellRuntime ν)

/-- The bytes that a value of a `bytea` column stands for. -/
def byteaBytes (rawValue : Value ν) : List UInt8 :=
  match rawValue with
  | .buffer bytes => bytes
  | .string text =>
    match text.toList with
    | '\\' :: 'x' :: digits => hexBytes digits
    | symbols => Utf8.bytes symbols
  | other => Utf8.bytes (runtime.toText other).toList

/-- How bytes are shown. -/
def byteaCell (bytes : List UInt8) : Cell ν :=
  .value (.string ("<bytea: " ++ toString bytes.length ++ " bytes, sha256: " ++
    runtime.sha256 bytes ++ ">"))

/-- Whether a value is `null`. -/
def isNull : Value ν → Bool
  | .null => true
  | _ => false

/-- Whether a value is bytes. -/
def isBuffer : Value ν → Bool
  | .buffer _ => true
  | _ => false

variable (column : DatabaseExplorerColumn)

def isBytea : Bool :=
  lowerCase column.dataType = "bytea".toList

/-- The bytes of a value's text, when it is shown by its text. -/
def textBytes : Value ν → Nat
  | .string text => Utf8.byteLength text.toList
  | .array items => Utf8.byteLength (Json.renderChars (Value.array items).toJson)
  | .object plain properties =>
    Utf8.byteLength (Json.renderChars (Value.object plain properties).toJson)
  | _ => 0

/-- The cell of an array or an object. -/
def structuredCell (rawValue : Value ν) : Cell ν :=
  if maxCellBytes < textBytes rawValue then
    .truncated (runtime.slice (Json.render rawValue.toJson) 500 ++ "...") (textBytes rawValue)
  else .value rawValue

/-- The cell of a value that is neither hidden nor shown as bytes. -/
def plainCell (rawValue : Value ν) : Option (Cell ν) :=
  match rawValue with
  | .date none => none
  | .date (some time) => some (.value (.string (JsonRuntime.isoText ν time)))
  | .string text =>
    if maxCellBytes < Utf8.byteLength text.toList then
      some (.truncated (runtime.slice text 500 ++ "...") (Utf8.byteLength text.toList))
    else some (.value (.string text))
  | .array items => some (structuredCell runtime (.array items))
  | .object plain properties => some (structuredCell runtime (.object plain properties))
  | other => some (.value other)

/-- `encodeCell`, unless it throws: an invalid date has no ISO text. -/
def encodeCell (runtime : CellRuntime ν) (column : DatabaseExplorerColumn) (rawValue : Value ν)
    (piiMode : PiiMode) : Option (Cell ν) :=
  if column.classification = .blocked then some .blocked
  else if isNull rawValue then some (.value .null)
  else if column.classification = .pii ∧ piiMode = .masked then
    some (.masked (runtime.maskPiiValue rawValue (maskHint column.name)))
  else if isBytea column || isBuffer rawValue then
    some (byteaCell runtime (byteaBytes runtime rawValue))
  else plainCell runtime rawValue

/-- A cell as an object. -/
def Cell.toValue : Cell ν → Value ν
  | .value shown => literal [("state", .string "value"), ("value", shown)]
  | .masked display => literal [("state", .string "masked"), ("display", .string display)]
  | .blocked => literal [("state", .string "blocked")]
  | .truncated display originalBytes =>
    literal [("state", .string "truncated"), ("display", .string display),
      ("originalBytes", length originalBytes)]

/-! ## Pages -/

/-- A `DatabaseColumnClassification`'s text. -/
def classificationText : DatabaseColumnClassification → String
  | .«public» => "public"
  | .internal => "internal"
  | .pii => "pii"
  | .blocked => "blocked"

inductive Identity where
  | always
  | byDefault

/-- An identity's text. -/
def Identity.text : Identity → String
  | .always => "always"
  | .byDefault => "by_default"

/-- A column with everything that a response shows of it. -/
structure PageColumn extends DatabaseExplorerColumn where
  nullable : Bool
  hasDefault : Bool
  identity : Option Identity
  generated : Bool
  valid : isContractColumn toDatabaseExplorerColumn = true

/-- A column as an object. -/
def PageColumn.toValue (column : PageColumn) : Value ν :=
  literal [("name", .string column.name), ("dataType", .string column.dataType),
    ("nullable", .boolean column.nullable), ("hasDefault", .boolean column.hasDefault),
    ("identity", optionalText (column.identity.map Identity.text)),
    ("generated", .boolean column.generated),
    ("classification", .string (classificationText column.classification)),
    ("selectable", .boolean column.selectable),
    ("filterOperators",
      .array (column.filterOperators.map fun operator => .string operator.text))]

/-- A consistency's text. -/
def consistencyText : Consistency → String
  | .stable => "stable"
  | .bestEffort => "best_effort"

/-- What a response says of its page. -/
structure PageHeader where
  targetId : DatabaseTargetId
  schemaChecksum : String
  policyVersion : String
  schema : String
  relation : String
  columns : List PageColumn
  nextCursor : Option String
  consistency : Consistency
  piiMode : PiiMode
  checksum_valid : isChecksum schemaChecksum = true
  policyVersion_valid : isBoundedText 128 policyVersion = true
  schema_valid : isContractIdentifier schema = true
  relation_valid : isContractIdentifier relation = true
  nextCursor_valid : nextCursor.all isContractCursor = true

/-- The bytes of the longest text that the language holds: `buffer.constants.MAX_STRING_LENGTH`
code units of at most three bytes. -/
def maxTextBytes : Nat := 3 * (2 ^ 29 - 24)

/-- A row that the driver returned, with its row reference. -/
structure DriverRow (ν : Type) [JsonRuntime ν] where
  rowRef : Option String
  value : String → Value ν
  rowRef_valid : rowRef.all isContractCursor = true
  short : ∀ column, textBytes (value column) ≤ maxTextBytes

structure EncodedRow (ν : Type) where
  rowRef : Option String
  cells : List (String × Cell ν)

/-- A row as an object. -/
def EncodedRow.toValue (row : EncodedRow ν) : Value ν :=
  literal [("rowRef", optionalText row.rowRef),
    ("cells", literal (row.cells.map fun cell => (cell.1, cell.2.toValue)))]

/-- The cells of a row in the order of the columns. -/
def encodeRow (columns : List PageColumn) (piiMode : PiiMode) (row : DriverRow ν) : Option (EncodedRow ν) :=
  (columns.mapM fun column =>
    (encodeCell runtime column.toDatabaseExplorerColumn (row.value column.name) piiMode).map
      fun cell => (column.name, cell)).map fun cells => ⟨row.rowRef, cells⟩

structure EncodeRowPageResult (ν : Type) where
  rows : List (EncodedRow ν)
  truncated : Bool
  encodedBytes : Nat

/-- The loop of `encodeRowPage` after some accepted rows. -/
def encodeRows (maxBytes : Nat) : List (EncodedRow ν) → List (EncodedRow ν) → Nat →
    EncodeRowPageResult ν
  | [], acceptedRows, totalBytes => ⟨acceptedRows, false, totalBytes⟩
  | row :: rows, acceptedRows, totalBytes =>
    let rowBytes := Utf8.byteLength (Json.renderChars row.toValue.toJson) +
      if 0 < acceptedRows.length then 1 else 0
    if maxBytes < totalBytes + rowBytes then ⟨acceptedRows, true, totalBytes⟩
    else encodeRows maxBytes rows (acceptedRows ++ [row]) (totalBytes + rowBytes)

def encodeRowPage (rows : List (EncodedRow ν)) (maxBytes : Nat) : EncodeRowPageResult ν :=
  encodeRows maxBytes rows [] 2

/-- A response as an object. -/
def pageValue (header : PageHeader) (page : EncodeRowPageResult ν) : Value ν :=
  literal [("targetId", .string header.targetId.text),
    ("schemaChecksum", .string header.schemaChecksum),
    ("policyVersion", .string header.policyVersion), ("schema", .string header.schema),
    ("relation", .string header.relation),
    ("columns", .array (header.columns.map PageColumn.toValue)),
    ("rows", .array (page.rows.map EncodedRow.toValue)),
    ("nextCursor", optionalText header.nextCursor), ("truncated", .boolean page.truncated),
    ("encodedBytes", length page.encodedBytes),
    ("consistency", .string (consistencyText header.consistency)),
    ("piiMode", .string header.piiMode.text)]

/-- Why there is no page: a cell's encoder throws, or the page is refused for its size. -/
inductive PageFailure where
  | invalidDate
  | tooLarge

/-- The end of `readDatabaseRows`: the page of the rows that a query returned. -/
def readPage (header : PageHeader) (rows : List (DriverRow ν)) : Except PageFailure (Value ν) :=
  match rows.mapM (encodeRow runtime header.columns header.piiMode) with
  | none => .error .invalidDate
  | some encodedRows =>
    let page := encodeRowPage encodedRows maxResponseBytes
    if page.truncated then .error .tooLarge else .ok (pageValue header page)

/-! ## The schema -/

/-- `z.enum([…])`. -/
def oneOf (texts : List String) : Shape ν := .text texts.contains

def databaseColumnSchema : Shape ν :=
  .strict [("name", .text isContractIdentifier), ("dataType", .text (isBoundedText 256)),
    ("nullable", .boolean), ("hasDefault", .boolean),
    ("identity", .nullable (oneOf ["always", "by_default"])), ("generated", .boolean),
    ("classification", oneOf ["public", "internal", "pii", "blocked"]),
    ("selectable", .boolean),
    ("filterOperators", .array (oneOf ["eq", "neq", "contains", "gt", "gte", "lt", "lte",
      "is_null", "is_not_null"]))]

def databaseCellSchema : Shape ν :=
  .union [.strict [("state", oneOf ["value"]), ("value", .json)],
    .strict [("state", oneOf ["masked"]), ("display", .text fun _ => true)],
    .strict [("state", oneOf ["blocked"])],
    .strict [("state", oneOf ["truncated"]), ("display", .text fun _ => true),
      ("originalBytes", .count)]]

/-- A row of `databaseRowsResultSchema`. -/
def databaseRowSchema : Shape ν :=
  .strict [("rowRef", .nullable (.text isContractCursor)),
    ("cells", .record databaseCellSchema)]

def databaseRowsResultSchema : Shape ν :=
  .strict [("targetId", oneOf ["edutrack_production", "ops"]),
    ("schemaChecksum", .text isChecksum), ("policyVersion", .text (isBoundedText 128)),
    ("schema", .text isContractIdentifier), ("relation", .text isContractIdentifier),
    ("columns", .array databaseColumnSchema), ("rows", .array databaseRowSchema),
    ("nextCursor", .nullable (.text isContractCursor)), ("truncated", .boolean),
    ("encodedBytes", .count), ("consistency", oneOf ["stable", "best_effort"]),
    ("piiMode", oneOf ["masked", "revealed"])]

/-! ## What passes the schema -/

/-- Whether a value that is neither hidden nor shown as bytes can be delivered: it is a valid
date, or it is too long to be shown, or it is a JSON value through and through. -/
def isPresentable (rawValue : Value ν) : Bool :=
  match rawValue with
  | .date time => time.isSome
  | .array items => maxCellBytes < textBytes (.array items) || (Value.array items).isJsonValue
  | .object plain properties =>
    maxCellBytes < textBytes (.object plain properties) ||
      (Value.object plain properties).isJsonValue
  | other => other.isJsonValue

/-- Whether a value of a column can be delivered. -/
def isDeliverable (rawValue : Value ν) (piiMode : PiiMode) : Bool :=
  column.classification = .blocked || isNull rawValue ||
    (column.classification = .pii && piiMode = .masked) || isBytea column || isBuffer rawValue ||
    isPresentable rawValue

theorem value_accepted (shown : Value ν) :
    databaseCellSchema.accepts (Cell.value shown).toValue = shown.isJsonValue := by
  simp [databaseCellSchema, Cell.toValue, acceptsFields, oneOf, List.lookup_cons]

theorem masked_accepted (display : String) :
    databaseCellSchema.accepts (Cell.masked display : Cell ν).toValue := by
  simp [databaseCellSchema, Cell.toValue, acceptsFields, oneOf, List.lookup_cons]

theorem blocked_accepted : databaseCellSchema.accepts (Cell.blocked : Cell ν).toValue := by
  simp [databaseCellSchema, Cell.toValue, acceptsFields, oneOf, List.lookup_cons]

theorem textBytes_safe {bytes : Nat} (short : bytes ≤ maxTextBytes) :
    (bytes : Int) ≤ maxSafeInteger := by
  unfold maxTextBytes at short
  unfold maxSafeInteger
  omega

theorem truncated_accepted (display : String) {originalBytes : Nat}
    (short : originalBytes ≤ maxTextBytes) :
    databaseCellSchema.accepts (Cell.truncated display originalBytes : Cell ν).toValue := by
  simp [databaseCellSchema, Cell.toValue, acceptsFields, oneOf, List.lookup_cons,
    length_accepted (textBytes_safe short)]

/-- A column passes. -/
theorem column_accepted (column : PageColumn) :
    databaseColumnSchema.accepts (column.toValue : Value ν) := by
  obtain ⟨name, dataType⟩ := Bool.and_eq_true_iff.mp column.valid
  have identity : (column.identity.map Identity.text).all ["always", "by_default"].contains =
      true := by
    cases column.identity with
    | none => rfl
    | some identity => cases identity <;> rfl
  have classification : (oneOf ["public", "internal", "pii", "blocked"] : Shape ν).accepts
      (.string (classificationText column.classification)) = true := by
    cases column.classification <;> rfl
  have operators : ∀ operator : DatabaseFilterOperator,
      (oneOf ["eq", "neq", "contains", "gt", "gte", "lt", "lte", "is_null", "is_not_null"] :
        Shape ν).accepts (.string operator.text) = true := by
    intro operator
    cases operator <;> rfl
  have options : (oneOf ["always", "by_default"] : Shape ν).nullable.accepts
      (optionalText (column.identity.map Identity.text)) = true := by
    rw [oneOf, optionalText_accepted, identity]
  simp [databaseColumnSchema, PageColumn.toValue, acceptsFields, List.lookup_cons, name,
    dataType, options, classification, operators]

/-- The cell of an array or an object passes when that is presentable. -/
theorem structuredCell_accepted {rawValue : Value ν} (short : textBytes rawValue ≤ maxTextBytes) :
    databaseCellSchema.accepts (structuredCell runtime rawValue).toValue =
      (decide (maxCellBytes < textBytes rawValue) || rawValue.isJsonValue) := by
  unfold structuredCell
  by_cases long : maxCellBytes < textBytes rawValue
  · rw [if_pos long, truncated_accepted _ short, decide_eq_true long]
    rfl
  · rw [if_neg long, value_accepted, decide_eq_false long]
    rfl

/-- The cell of a value that is neither hidden nor shown as bytes is made and passes exactly
when the value is presentable. -/
theorem plainCell_accepted {rawValue : Value ν} (short : textBytes rawValue ≤ maxTextBytes) :
    ((plainCell runtime rawValue).any fun cell => databaseCellSchema.accepts cell.toValue) =
      isPresentable rawValue := by
  cases rawValue with
  | date time =>
    cases time with
    | none => rfl
    | some time => exact value_accepted _
  | string text =>
    by_cases long : maxCellBytes < Utf8.byteLength text.toList
    · rw [plainCell, if_pos long, any_some]
      exact truncated_accepted _ short
    · rw [plainCell, if_neg long, any_some, value_accepted]
      rfl
  | array items => exact structuredCell_accepted runtime short
  | object plain properties => exact structuredCell_accepted runtime short
  | null => exact value_accepted _
  | boolean value => exact value_accepted _
  | number value => exact value_accepted _
  | buffer bytes => exact value_accepted _

/-- A value's cell is made and passes exactly when the value can be delivered. -/
theorem encodeCell_accepted (column : DatabaseExplorerColumn) {rawValue : Value ν}
    (piiMode : PiiMode) (short : textBytes rawValue ≤ maxTextBytes) :
    ((encodeCell runtime column rawValue piiMode).any fun cell =>
      databaseCellSchema.accepts cell.toValue) = isDeliverable column rawValue piiMode := by
  unfold encodeCell isDeliverable
  by_cases blocked : column.classification = .blocked
  · rw [if_pos blocked, decide_eq_true blocked, any_some, blocked_accepted]
    rfl
  rw [if_neg blocked, decide_eq_false blocked]
  by_cases absent : isNull rawValue
  · rw [if_pos absent, absent, any_some, value_accepted]
    rfl
  rw [if_neg absent, Bool.eq_false_of_not_eq_true absent]
  by_cases masked : column.classification = .pii ∧ piiMode = .masked
  · rw [if_pos masked, decide_eq_true masked.1, decide_eq_true masked.2, any_some,
      masked_accepted]
    rfl
  rw [if_neg masked, ← Bool.decide_and, decide_eq_false masked]
  by_cases bytes : (isBytea column || isBuffer rawValue)
  · rw [if_pos bytes, any_some, byteaCell, value_accepted, Bool.false_or, Bool.false_or,
      Bool.false_or, bytes]
    rfl
  · rw [if_neg bytes, plainCell_accepted runtime short, Bool.false_or, Bool.false_or,
      Bool.false_or, Bool.eq_false_of_not_eq_true bytes, Bool.false_or]

/-- A row is made and passes exactly when its values can be delivered. -/
theorem encodeRow_accepted (columns : List PageColumn) (piiMode : PiiMode) (row : DriverRow ν) :
    ((encodeRow runtime columns piiMode row).any fun encoded =>
      databaseRowSchema.accepts encoded.toValue) =
        columns.all fun column =>
          isDeliverable column.toDatabaseExplorerColumn (row.value column.name) piiMode := by
  have passes (cells : List (String × Cell ν)) :
      databaseRowSchema.accepts (EncodedRow.toValue ⟨row.rowRef, cells⟩) =
        cells.all fun cell => databaseCellSchema.accepts cell.2.toValue := by
    simp [databaseRowSchema, EncodedRow.toValue, acceptsFields, List.lookup_cons,
      row.rowRef_valid, Function.comp_def]
  have cell (column : PageColumn) := encodeCell_accepted runtime
    column.toDatabaseExplorerColumn piiMode (row.short column.name)
  rw [encodeRow, any_map]
  simp only [passes]
  rw [Fallible.all_of_mapM]
  simp only [any_map, cell]

/-- A page that is not truncated shows every row, within its limit. -/
theorem encodeRows_complete {maxBytes totalBytes : Nat} {rows acceptedRows : List (EncodedRow ν)}
    (within : totalBytes ≤ maxBytes)
    (fits : (encodeRows maxBytes rows acceptedRows totalBytes).truncated = false) :
    (encodeRows maxBytes rows acceptedRows totalBytes).rows = acceptedRows ++ rows ∧
      (encodeRows maxBytes rows acceptedRows totalBytes).encodedBytes ≤ maxBytes := by
  induction rows generalizing acceptedRows totalBytes with
  | nil => exact ⟨(List.append_nil _).symm, within⟩
  | cons row rows ih =>
    rw [encodeRows] at fits ⊢
    by_cases long : maxBytes < totalBytes + (Utf8.byteLength (Json.renderChars row.toValue.toJson) +
        if 0 < acceptedRows.length then 1 else 0)
    · simp [long] at fits
    · simp only [long, if_false] at fits ⊢
      obtain ⟨shown, bytes⟩ := ih (Nat.le_of_not_lt long) fits
      rw [List.append_assoc, List.singleton_append] at shown
      exact ⟨shown, bytes⟩

/-- A response passes exactly when its rows do. -/
theorem pageValue_accepted (header : PageHeader) {page : EncodeRowPageResult ν}
    (fits : page.encodedBytes ≤ maxResponseBytes) :
    databaseRowsResultSchema.accepts (pageValue header page) =
      page.rows.all fun row => databaseRowSchema.accepts row.toValue := by
  have target : (oneOf ["edutrack_production", "ops"] : Shape ν).accepts
      (.string header.targetId.text) = true := by
    cases header.targetId <;> rfl
  have consistency : (oneOf ["stable", "best_effort"] : Shape ν).accepts
      (.string (consistencyText header.consistency)) = true := by
    cases header.consistency <;> rfl
  have mode : (oneOf ["masked", "revealed"] : Shape ν).accepts
      (.string header.piiMode.text) = true := by
    cases header.piiMode <;> rfl
  have bytes : count.accepts (length page.encodedBytes : Value ν) := by
    apply length_accepted
    unfold maxResponseBytes at fits
    unfold maxSafeInteger
    omega
  have columns : ∀ column : PageColumn,
      databaseColumnSchema.accepts (column.toValue : Value ν) = true := column_accepted
  simp [databaseRowsResultSchema, pageValue, acceptsFields, List.lookup_cons, target,
    header.checksum_valid, header.policyVersion_valid, header.schema_valid,
    header.relation_valid, columns, header.nextCursor_valid, bytes, consistency, mode,
    Function.comp_def]

/-- The rows of a page can be read: no cell's encoder throws, the response passes the schema in
the worker, and what the API parses passes again and is the same response, its numbers as their
texts read. -/
def PageReadable (header : PageHeader) (rows : List (DriverRow ν)) : Prop :=
  ∃ page, readPage runtime header rows = .ok page ∧
    databaseRowsResultSchema.accepts page = true ∧
    ∃ parsed, (Json.parse (Json.render page.toJson)).map Value.ofJson = some parsed ∧
      databaseRowsResultSchema.accepts parsed = true ∧ parsed = page.reread

/-- A relation with an interval. -/
def shiftsHeader (dataType : String)
    (valid : isContractColumn ⟨"span", dataType, .«public», true, []⟩ = true) : PageHeader where
  targetId := .ops
  schemaChecksum := String.ofList (List.replicate 64 'c')
  policyVersion := "v1"
  schema := "public"
  relation := "shifts"
  columns := [⟨⟨"span", dataType, .«public», true, []⟩, false, false, none, false, valid⟩]
  nextCursor := none
  consistency := .stable
  piiMode := .masked
  checksum_valid := by decide +kernel
  policyVersion_valid := by decide
  schema_valid := by decide
  relation_valid := by decide
  nextCursor_valid := rfl

/-- A row with one value in every column. -/
def rowOf (value : Value Int) (short : textBytes value ≤ maxTextBytes) : DriverRow Int where
  rowRef := none
  value _ := value
  rowRef_valid := rfl
  short _ := short

/-- Functions that show nothing. -/
def silentRuntime : CellRuntime Int where
  maskPiiValue _ _ := ""
  sha256 _ := ""
  toText _ := ""
  slice text length := String.ofList (text.toList.take length)

def twoHours : DriverRow Int :=
  rowOf (.object false [("hours", .number 2)]) (by decide +kernel)

/-- Whether there is a page, and what a test says of it. -/
def isPage (test : Value Int → Bool) (read : Except PageFailure (Value Int)) : Bool :=
  match read with
  | .ok page => test page
  | .error _ => false

end NancyMan.Explorer.Driver
