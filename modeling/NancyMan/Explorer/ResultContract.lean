import NancyMan.Explorer.RowReader

/-!
# The contract of a rows response

`databaseRowsResultSchema`, which the worker checks before it answers and the API checks again
before it passes an answer on. The type of a response already fixes the kind of each field, so
what is left are the bounds of its texts and the values that its cells may show.
-/
namespace NancyMan.Explorer

/-- `z.string().min(1).max(length)`. -/
def isBoundedText (length : Nat) (text : String) : Bool :=
  1 ≤ textLength text && textLength text ≤ length

/-- `identifierSchema`. -/
def isContractIdentifier : String → Bool := isBoundedText 128

/-- `cursorSchema`. -/
def isContractCursor : String → Bool := isBoundedText 4096

/-- `/^[a-f0-9]{64}$/`. -/
def isChecksum (text : String) : Bool :=
  text.toList.length = 64 &&
    text.toList.all fun symbol => symbol.isDigit || ('a' ≤ symbol && symbol ≤ 'f')

/-- `databaseColumnSchema`. -/
def isContractColumn (column : DatabaseExplorerColumn) : Bool :=
  isContractIdentifier column.name && isBoundedText 256 column.dataType

variable {ν : Type} [JsonRuntime ν]

/-- `isJsonValue`: a number must be finite, and a date or a buffer is no plain object. -/
def PgValue.isJsonValue : PgValue ν → Bool
  | .null | .boolean _ | .string _ | .structured _ => true
  | .number value => (JsonRuntime.numberText value).isSome
  | .date _ | .buffer _ => false

/-- `databaseCellSchema`. -/
def DatabaseCell.isContractCell : DatabaseCell ν → Bool
  | .value shown => shown.isJsonValue
  | .masked _ | .blocked | .truncated _ _ => true

/-- A row of `databaseRowsResultSchema`. -/
def EncodedRow.isContractRow (row : EncodedRow ν) : Bool :=
  row.rowRef.all isContractCursor && row.cells.all fun cell => cell.2.isContractCell

def databaseRowsResultSchema (response : DatabaseRowsResponse ν) : Bool :=
  isChecksum response.schemaChecksum && isBoundedText 128 response.policyVersion &&
    isContractIdentifier response.schema && isContractIdentifier response.relation &&
    response.columns.all isContractColumn && response.rows.all EncodedRow.isContractRow &&
    response.nextCursor.all isContractCursor

/-- A response without columns and rows passes when its texts do. -/
theorem databaseRowsResultSchema_empty {response : DatabaseRowsResponse ν}
    (checksum : isChecksum response.schemaChecksum)
    (policy : isBoundedText 128 response.policyVersion)
    (schema : isContractIdentifier response.schema)
    (relation : isContractIdentifier response.relation) (columns : response.columns = [])
    (rows : response.rows = []) (last : response.nextCursor = none) :
    databaseRowsResultSchema response := by
  unfold databaseRowsResultSchema
  rw [checksum, policy, schema, relation, columns, rows, last]
  rfl

end NancyMan.Explorer
