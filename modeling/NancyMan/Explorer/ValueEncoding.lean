import NancyMan.Explorer.PgValue
import NancyMan.Explorer.Schema
import Mathlib.Data.List.Infix

/-!
# Encoding the rows of a page

Each value becomes a cell: blocked and masked columns show nothing of it, bytes are shown by
their length and digest, and a long text or object is cut. A page is the longest run of rows
whose JSON text fits the response.
-/
namespace NancyMan.Explorer

open Json

/-- `MAX_CELL_BYTES`. -/
def maxCellBytes : Nat := 64 * 1024

/-- `MAX_RESPONSE_BYTES`. -/
def maxResponseBytes : Nat := 2 * 1024 * 1024

inductive DatabaseCell (ν : Type) where
  | value (shown : PgValue ν)
  | masked (display : String)
  | blocked
  | truncated (display : String) (originalBytes : Nat)

/-- The functions that cells are made with: `maskPiiValue`, the hexadecimal SHA-256 digest,
`String(value)` and `text.slice(0, length)`. -/
structure CellRuntime (ν : Type) where
  maskPiiValue : PgValue ν → Option String → String
  sha256 : List UInt8 → String
  toText : PgValue ν → String
  slice : String → Nat → String

def lowerCase (text : String) : List Char := text.toList.map Char.toLower

/-- The hint that a column's name gives to the masking of its values. -/
def maskHint (columnName : String) : Option String :=
  if "email".toList <:+: lowerCase columnName then some "email"
  else if "phone".toList <:+: lowerCase columnName then some "phone"
  else none

/-- `Buffer.from(text, 'hex')`, which stops at the first symbol that is no digit. -/
def hexBytes : List Char → List UInt8
  | high :: low :: rest =>
    match Json.hexValue high, Json.hexValue low with
    | some first, some second => UInt8.ofNat (first * 16 + second) :: hexBytes rest
    | _, _ => []
  | _ => []

variable {ν : Type}

/-- The bytes that a value of a `bytea` column stands for. -/
def byteaBytes (runtime : CellRuntime ν) (rawValue : PgValue ν) : List UInt8 :=
  match rawValue with
  | .buffer bytes => bytes
  | .string text =>
    match text.toList with
    | '\\' :: 'x' :: digits => hexBytes digits
    | symbols => Utf8.bytes symbols
  | other => Utf8.bytes (runtime.toText other).toList

/-- How bytes are shown. -/
def byteaCell (runtime : CellRuntime ν) (bytes : List UInt8) : DatabaseCell ν :=
  .value (.string ("<bytea: " ++ toString bytes.length ++ " bytes, sha256: " ++
    runtime.sha256 bytes ++ ">"))

/-- Whether a value is bytes. -/
def isBuffer : PgValue ν → Bool
  | .buffer _ => true
  | _ => false

variable [JsonRuntime ν]

/-- `encodeCell`, unless it throws: an invalid date has no ISO text. -/
def encodeCell (runtime : CellRuntime ν) (column : DatabaseExplorerColumn) (rawValue : PgValue ν)
    (piiMode : PiiMode) : Option (DatabaseCell ν) :=
  if column.classification = .blocked then some .blocked
  else
    match rawValue with
    | .null => some (.value .null)
    | rawValue =>
      if column.classification = .pii ∧ piiMode = .masked then
        some (.masked (runtime.maskPiiValue rawValue (maskHint column.name)))
      else if lowerCase column.dataType = "bytea".toList || isBuffer rawValue then
        some (byteaCell runtime (byteaBytes runtime rawValue))
      else
        match rawValue with
        | .date none => none
        | .date (some time) => some (.value (.string (JsonRuntime.isoText ν time)))
        | .string text =>
          if maxCellBytes < Utf8.byteLength text.toList then
            some (.truncated (runtime.slice text 500 ++ "...") (Utf8.byteLength text.toList))
          else some (.value (.string text))
        | .structured json =>
          if maxCellBytes < Utf8.byteLength (Json.renderChars json) then
            some (.truncated (runtime.slice (Json.render json) 500 ++ "...")
              (Utf8.byteLength (Json.renderChars json)))
          else some (.value (.structured json))
        | other => some (.value other)

/-- The record that `JSON.stringify` writes for a cell. -/
def DatabaseCell.toJson : DatabaseCell ν → Json
  | .value shown => .object [("state", .string "value"), ("value", shown.toJson)]
  | .masked display => .object [("state", .string "masked"), ("display", .string display)]
  | .blocked => .object [("state", .string "blocked")]
  | .truncated display originalBytes =>
    .object [("state", .string "truncated"), ("display", .string display),
      ("originalBytes", .number (Numeral.ofInt originalBytes))]

structure EncodedRow (ν : Type) where
  rowRef : Option String
  cells : List (String × DatabaseCell ν)

/-- The record that `JSON.stringify` writes for a row. -/
def EncodedRow.toJson (row : EncodedRow ν) : Json :=
  .object [("rowRef", match row.rowRef with
      | some rowRef => .string rowRef
      | none => .null),
    ("cells", .object (row.cells.map fun cell => (cell.1, cell.2.toJson)))]

structure EncodeRowPageResult (ν : Type) where
  rows : List (EncodedRow ν)
  truncated : Bool
  encodedBytes : Nat

/-- The loop of `encodeRowPage` after some accepted rows. -/
def encodeRows (maxBytes : Nat) : List (EncodedRow ν) → List (EncodedRow ν) → Nat →
    EncodeRowPageResult ν
  | [], acceptedRows, totalBytes => ⟨acceptedRows, false, totalBytes⟩
  | row :: rows, acceptedRows, totalBytes =>
    let rowBytes := Utf8.byteLength (Json.renderChars row.toJson) +
      if 0 < acceptedRows.length then 1 else 0
    if maxBytes < totalBytes + rowBytes then ⟨acceptedRows, true, totalBytes⟩
    else encodeRows maxBytes rows (acceptedRows ++ [row]) (totalBytes + rowBytes)

def encodeRowPage (rows : List (EncodedRow ν)) (maxBytes : Nat) : EncodeRowPageResult ν :=
  encodeRows maxBytes rows [] 2

variable {maxBytes totalBytes : Nat} {rows acceptedRows : List (EncodedRow ν)}

/-- A page that is not truncated accepts every row. -/
theorem encodeRows_complete
    (fits : (encodeRows maxBytes rows acceptedRows totalBytes).truncated = false) :
    (encodeRows maxBytes rows acceptedRows totalBytes).rows = acceptedRows ++ rows := by
  induction rows generalizing acceptedRows totalBytes with
  | nil => rw [encodeRows, List.append_nil]
  | cons row rows ih =>
    rw [encodeRows] at fits ⊢
    by_cases long : maxBytes < totalBytes + (Utf8.byteLength (renderChars row.toJson) +
        if 0 < acceptedRows.length then 1 else 0)
    · simp [long] at fits
    · simp only [long, if_false] at fits ⊢
      rw [ih fits, List.append_assoc, List.singleton_append]

theorem encodeRowPage_complete (fits : (encodeRowPage rows maxBytes).truncated = false) :
    (encodeRowPage rows maxBytes).rows = rows :=
  encodeRows_complete fits

/-- Every row of a page that is not truncated fits the page. -/
theorem encodeRows_fits
    (fits : (encodeRows maxBytes rows acceptedRows totalBytes).truncated = false) :
    ∀ row ∈ rows, Utf8.byteLength (renderChars row.toJson) ≤ maxBytes := by
  induction rows generalizing acceptedRows totalBytes with
  | nil =>
    intro row member
    cases member
  | cons first rows ih =>
    rw [encodeRows] at fits
    by_cases long : maxBytes < totalBytes + (Utf8.byteLength (renderChars first.toJson) +
        if 0 < acceptedRows.length then 1 else 0)
    · simp [long] at fits
    · simp only [long, if_false] at fits
      intro row member
      rcases List.mem_cons.mp member with rfl | later
      · omega
      · exact ih fits row later

/-- The text of a cell is at least as long as the text it shows. -/
theorem length_le_cell (text : String) :
    text.toList.length ≤ (renderChars (DatabaseCell.value (.string text : PgValue ν)).toJson).length := by
  have values := sum_values_le
    [("state", .string "value"), ("value", (PgValue.string text : PgValue ν).toJson)]
  have shown := length_le_renderString text.toList
  simp only [List.map_cons, List.map_nil, List.sum_cons, List.sum_nil, PgValue.toJson,
    renderChars] at values
  rw [DatabaseCell.toJson, PgValue.toJson, renderChars]
  omega

/-- A row has at least as many bytes as its cells have symbols. -/
theorem sum_cells_le (row : EncodedRow ν) :
    (row.cells.map fun cell => (renderChars cell.2.toJson).length).sum ≤
      Utf8.byteLength (renderChars row.toJson) := by
  let cells := row.cells.map fun cell => (cell.1, cell.2.toJson)
  have inner := sum_values_le cells
  have outer := sum_values_le [("rowRef", match row.rowRef with
      | some rowRef => .string rowRef
      | none => .null), ("cells", .object cells)]
  have coded := Utf8.length_le_byteLength (renderChars row.toJson)
  simp only [List.map_cons, List.map_nil, List.sum_cons, List.sum_nil] at outer
  have record : row.toJson = .object [("rowRef", match row.rowRef with
      | some rowRef => .string rowRef
      | none => .null), ("cells", .object cells)] := rfl
  rw [← record] at outer
  have sizes : (cells.map fun property => (renderChars property.2).length) =
      row.cells.map fun cell => (renderChars cell.2.toJson).length := by
    simp only [cells, List.map_map, Function.comp_def]
  rw [sizes] at inner
  omega

end NancyMan.Explorer
