import NancyMan.Lib.JsonIntegers
import NancyMan.Lib.Utf8

/-!
# Values of a row

What the driver returns for a column, and what becomes of it on the way through
`JSON.stringify` and `JSON.parse`. Numbers stay abstract: `JsonRuntime` names the language
operations that turn numbers and dates into text and back, with the laws that the text of a
number denotes it up to the sign of zero, that a safe integer is written with its digits and that
bytes written as UTF-8 are read back.
-/
namespace NancyMan.Explorer

/-- `Number.MAX_SAFE_INTEGER`. -/
def maxSafeInteger : Int := 9007199254740991

/-- The language operations on numbers, dates and bytes that a cursor's text rests on. -/
class JsonRuntime (ν : Type) where
  /-- The JSON text of a number, which only finite numbers have. -/
  numberText : ν → Option Numeral
  /-- The number that a literal denotes. -/
  readNumber : Numeral → ν
  /-- The integer that a number is, when it is a safe integer. -/
  safeInteger : ν → Option Int
  /-- `toISOString` of a valid time value. -/
  isoText : Int → String
  /-- `bytes.toString('utf8')`. -/
  utf8Text : List UInt8 → List Char
  numberText_readNumber : ∀ {number literal}, numberText number = some literal →
    numberText (readNumber literal) = some literal
  safeInteger_readNumber : ∀ {value : Int}, -maxSafeInteger ≤ value → value ≤ maxSafeInteger →
    safeInteger (readNumber (Numeral.ofInt value)) = some value
  numberText_safeInteger : ∀ {number value}, safeInteger number = some value →
    numberText number = some (Numeral.ofInt value)
  utf8Text_bytes : ∀ text, utf8Text (Utf8.bytes text) = text

/-- A runtime whose numbers are the integers and whose dates are written as time values. -/
instance : JsonRuntime Int where
  numberText number := some (Numeral.ofInt number)
  readNumber literal := literal.toInt?.getD 0
  safeInteger number :=
    if -maxSafeInteger ≤ number ∧ number ≤ maxSafeInteger then some number else none
  isoText time := String.ofList (Numeral.integerText time)
  utf8Text := Utf8.text
  numberText_readNumber := by
    intro number literal written
    cases written
    simp
  safeInteger_readNumber := by
    intro value lower upper
    simp [lower, upper]
  numberText_safeInteger := by
    intro number value safe
    rw [Option.some.inj (Option.ite_none_right_eq_some.mp safe).2]
  utf8Text_bytes := Utf8.text_bytes

/-- A value as the driver returns it; a date is its time value, which an invalid date lacks,
and an array or object is the JSON value it stands for. -/
inductive PgValue (ν : Type) where
  | null
  | boolean (value : Bool)
  | number (value : ν)
  | string (value : String)
  | date (time : Option Int)
  | buffer (bytes : List UInt8)
  | structured (value : Json)

namespace PgValue

variable {ν : Type} [JsonRuntime ν]

/-- `Buffer.prototype.toJSON`. -/
def bufferJson (bytes : List UInt8) : Json :=
  .object [("type", .string "Buffer"),
    ("data", .array (bytes.map fun byte => .number (Numeral.ofInt byte.toNat)))]

/-- What `JSON.stringify` writes for a value. -/
def toJson : PgValue ν → Json
  | .null => .null
  | .boolean value => .boolean value
  | .number value =>
    match JsonRuntime.numberText value with
    | some literal => .number literal
    | none => .null
  | .string value => .string value
  | .date (some time) => .string (JsonRuntime.isoText ν time)
  | .date none => .null
  | .buffer bytes => bufferJson bytes
  | .structured value => value

/-- What `JSON.parse` returns for a value. -/
def ofJson : Json → PgValue ν
  | .null => .null
  | .boolean value => .boolean value
  | .number literal => .number (JsonRuntime.readNumber literal)
  | .string value => .string value
  | .array items => .structured (.array items)
  | .object properties => .structured (.object properties)

def throughJson (value : PgValue ν) : PgValue ν := ofJson (toJson value)

end PgValue

end NancyMan.Explorer
