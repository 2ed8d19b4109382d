import NancyMan.Explorer.DriverValue
import NancyMan.Lib.JsonSize

/-!
# Previews of read-only queries

The rows that a query returned become JSON values, and as many of them are kept as fit a number
of bytes. `encodedBytes` is the size of the JSON text of the rows that are kept.
-/
namespace NancyMan.SqlWorker

open Explorer (JsonRuntime)
open Explorer.Driver (Value)

variable {ν : Type} [JsonRuntime ν]

/-- Two hexadecimal digits for each byte. -/
def hexText (bytes : List UInt8) : List Char :=
  bytes.flatMap fun byte =>
    [Json.hexDigit (byte.toNat / 16), Json.hexDigit (byte.toNat % 16)]

def maxDepth : Nat := 10

mutual

/-- `normalizeValue`, with `String` of a number that is not finite. The values of the driver are
trees, so none of them holds itself. -/
def normalizeValue (numberString : ν → String) (depth : Nat) : Value ν → Json
  | .null => .null
  | .boolean value => .boolean value
  | .string value => .string value
  | .number value =>
    match JsonRuntime.numberText value with
    | some literal => .number literal
    | none => .string (numberString value)
  | .buffer bytes => .string (String.ofList ('\\' :: 'x' :: hexText bytes))
  | .date (some time) => .string (JsonRuntime.isoText ν time)
  | .date none => .null
  | .array items =>
    if maxDepth ≤ depth then .string "[Unsupported result value]"
    else .array (normalizeItems numberString (depth + 1) items)
  | .object _ properties =>
    if maxDepth ≤ depth then .string "[Unsupported result value]"
    else .object (normalizeProperties numberString (depth + 1) properties)

/-- The items of an array. -/
def normalizeItems (numberString : ν → String) (depth : Nat) : List (Value ν) → List Json
  | [] => []
  | item :: rest =>
    normalizeValue numberString depth item :: normalizeItems numberString depth rest

/-- The properties of an object; `result['__proto__'] = …` writes none. -/
def normalizeProperties (numberString : ν → String) (depth : Nat) :
    List (String × Value ν) → List (String × Json)
  | [] => []
  | (name, value) :: rest =>
    if name = "__proto__" then normalizeProperties numberString depth rest
    else
      (name, normalizeValue numberString depth value) ::
        normalizeProperties numberString depth rest

end

structure BoundedRows where
  rows : List Json
  encodedBytes : Nat
  truncated : Bool

/-- The loop of `encodeBoundedRows` after some rows. -/
def boundRows (maxBytes : Nat) : List Json → List Json → Nat → BoundedRows
  | [], rows, encodedBytes => ⟨rows, encodedBytes, false⟩
  | row :: others, rows, encodedBytes =>
    let nextBytes := encodedBytes + row.size + if rows.length = 0 then 0 else 1
    if maxBytes < nextBytes then ⟨rows, encodedBytes, true⟩
    else boundRows maxBytes others (rows ++ [row]) nextBytes

variable (numberString : ν → String)

/-- `encodeBoundedRows`, whose limit the caller has bounded from below. -/
def encodeBoundedRows (rows : List (Value ν)) (maxBytes : Nat) : BoundedRows :=
  boundRows maxBytes (rows.map (normalizeValue numberString 0)) [] 2

def maxPreviewRows : Nat := 500

def maxPreviewBytes : Nat := 10 * 1024 * 1024

/-- The rows that `executeReadOnly` asks for. -/
def previewRows (maxRows : Option Nat) : Nat := min (max (maxRows.getD maxPreviewRows) 1) maxPreviewRows

/-- The result of `executeReadOnly`, from the rows that the cursor returned: one more than asked
for tells that there are more. -/
def executeReadOnly (maxRows : Option Nat) (rows : List (Value ν)) : BoundedRows :=
  let encoded :=
    encodeBoundedRows numberString (rows.take (previewRows maxRows)) maxPreviewBytes
  { encoded with truncated := encoded.truncated || decide (previewRows maxRows < rows.length) }

/-- A preview as an object. -/
def BoundedRows.toJson (preview : BoundedRows) : Json :=
  .object [("rows", .array preview.rows), ("encodedBytes", .number (Numeral.ofInt preview.encodedBytes)),
    ("truncated", .boolean preview.truncated)]

/-! ## The size of a preview -/

/-- The loop counts the bytes of the rows that it keeps, and keeps within the limit. -/
theorem boundRows_bytes {maxBytes : Nat} {others rows : List Json} {encodedBytes : Nat}
    (counted : encodedBytes = Json.size (.array rows)) (within : encodedBytes ≤ maxBytes) :
    (boundRows maxBytes others rows encodedBytes).encodedBytes =
        Json.size (.array (boundRows maxBytes others rows encodedBytes).rows) ∧
      (boundRows maxBytes others rows encodedBytes).encodedBytes ≤ maxBytes := by
  induction others generalizing rows encodedBytes with
  | nil => exact ⟨counted, within⟩
  | cons row others ih =>
    rw [boundRows]
    have next : encodedBytes + row.size + (if rows.length = 0 then 0 else 1) =
        Json.size (.array (rows ++ [row])) := by
      rw [Json.size_snoc, counted]
    by_cases long : maxBytes < encodedBytes + row.size + if rows.length = 0 then 0 else 1
    · rw [if_pos long]
      exact ⟨counted, within⟩
    · rw [if_neg long]
      exact ih next (Nat.le_of_not_lt long)

/-- A preview tells the bytes of its rows, which are within the limit. -/
theorem executeReadOnly_bytes (maxRows : Option Nat) (rows : List (Value ν)) :
    (executeReadOnly numberString maxRows rows).encodedBytes =
        Json.size (.array (executeReadOnly numberString maxRows rows).rows) ∧
      (executeReadOnly numberString maxRows rows).encodedBytes ≤ maxPreviewBytes := by
  have empty : 2 = Json.size (.array []) := by decide
  have within : 2 ≤ maxPreviewBytes := by decide
  exact boundRows_bytes empty within

end NancyMan.SqlWorker
