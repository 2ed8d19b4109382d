import Mathlib.Data.Rat.Defs

/-!
# Dynamic values of a JavaScript program

A program that reads an untyped record meets values of every kind, and its branches are
decided by the language's own conversions and comparisons. `JsRuntime` names those operations
over a type of numbers without assuming a law of any of them, so what is proved over it holds
of IEEE doubles, with their rounding, their signed zeros and their NaN.
-/

/-- A value of an untyped record; an object lists its properties in enumeration order. -/
inductive JsValue (ν : Type) where
  | undefined
  | null
  | boolean (value : Bool)
  | number (value : ν)
  | string (value : String)
  | array (items : List (JsValue ν))
  | object (properties : List (String × JsValue ν))

abbrev JsObject (ν : Type) := List (String × JsValue ν)

/-- The language operations on numbers and text that a program's branches consult. -/
class JsRuntime (ν : Type) where
  /-- The number a decimal literal denotes. -/
  literal : ℚ → ν
  /-- `-Infinity`. -/
  negativeInfinity : ν
  /-- `Number.isFinite`. -/
  isFinite : ν → Bool
  /-- `left + right`. -/
  add : ν → ν → ν
  /-- `left - right`. -/
  sub : ν → ν → ν
  /-- `left / right`. -/
  div : ν → ν → ν
  /-- `left < right`. -/
  less : ν → ν → Bool
  /-- `left <= right`. -/
  atMost : ν → ν → Bool
  /-- Whether a number counts as true. -/
  numberTruthy : ν → Bool
  /-- `Number(value)`. -/
  toNumber : JsValue ν → ν
  /-- `String(value)`. -/
  toText : JsValue ν → String
  /-- `Date.parse(text)`. -/
  parseDate : String → ν
  /-- `text.slice(0, length)`. -/
  slice : String → Nat → String
  /-- Whether `left.localeCompare(right, 'vi')` is not positive. -/
  localeAtMost : String → String → Bool

namespace JsObject

variable {ν : Type} (object : JsObject ν)

/-- `object.name`, which is `undefined` when there is no such property. -/
def read (name : String) : JsValue ν :=
  (object.lookup name).getD .undefined

/-- `{ ...object, name: value }`. -/
def write (object : JsObject ν) (name : String) (value : JsValue ν) : JsObject ν :=
  match object with
  | [] => [(name, value)]
  | (key, old) :: rest =>
    if name = key then (key, value) :: rest else (key, old) :: write rest name value

@[simp] theorem read_write_same (name : String) (value : JsValue ν) :
    read (write object name value) name = value := by
  induction object with
  | nil => simp [write, read]
  | cons entry rest ih =>
    obtain ⟨key, old⟩ := entry
    by_cases same : name = key
    · simp [write, read, same]
    · have differs : (name == key) = false := by simpa using same
      simpa [write, read, same, List.lookup_cons, differs] using ih

/-- Writing one property leaves every other property as it was. -/
theorem read_write_other {name other : String} (value : JsValue ν) (distinct : other ≠ name) :
    read (write object name value) other = read object other := by
  induction object with
  | nil =>
    have differs : (other == name) = false := by simpa using distinct
    simp [write, read, List.lookup_cons, differs]
  | cons entry rest ih =>
    obtain ⟨key, old⟩ := entry
    by_cases same : name = key
    · have differs : (other == key) = false := by simpa [same] using distinct
      simp [write, read, same, List.lookup_cons, differs]
    · cases found : other == key with
      | true => simp [write, read, same, List.lookup_cons, found]
      | false => simpa [write, read, same, List.lookup_cons, found] using ih

end JsObject

namespace JsValue

variable {ν : Type}

/-- `value === false`. -/
def isFalse : JsValue ν → Bool
  | .boolean value => !value
  | _ => false

/-- `value === true`. -/
def isTrue : JsValue ν → Bool
  | .boolean value => value
  | _ => false

/-- `value ?? fallback`. -/
def orElse (value fallback : JsValue ν) : JsValue ν :=
  match value with
  | .undefined | .null => fallback
  | other => other

/-- `value?.name`: a property of an object, and `undefined` of a value that has none. -/
def property (value : JsValue ν) (name : String) : JsValue ν :=
  match value with
  | .object properties => JsObject.read properties name
  | _ => .undefined

/-- `Object.values(value)`. -/
def values : JsValue ν → List (JsValue ν)
  | .object properties => properties.map Prod.snd
  | .array items => items
  | .string text => text.toList.map fun char => .string (String.singleton char)
  | _ => []

/-- The strings among the items of an array, and none of a value that is not an array. -/
def strings : JsValue ν → List String
  | .array items => items.filterMap fun
    | .string text => some text
    | _ => none
  | _ => []

/-- Whether a value counts as true. -/
def truthy [JsRuntime ν] : JsValue ν → Bool
  | .undefined | .null => false
  | .boolean value => value
  | .number value => JsRuntime.numberTruthy value
  | .string text => !text.isEmpty
  | .array _ | .object _ => true

/-- The number of a value that is a finite number. -/
def finiteNumber [JsRuntime ν] : JsValue ν → Option ν
  | .number value => if JsRuntime.isFinite value then some value else none
  | _ => none

end JsValue

/-- Whether `trim` removes a symbol. -/
def isWhitespace (symbol : Char) : Bool :=
  let code := symbol.toNat
  (9 ≤ code && code ≤ 13) || code = 0x20 || code = 0xA0 || code = 0x1680 ||
    (0x2000 ≤ code && code ≤ 0x200A) || code = 0x2028 || code = 0x2029 || code = 0x202F ||
    code = 0x205F || code = 0x3000 || code = 0xFEFF

/-- `text.trim()`. -/
def trim (text : List Char) : List Char :=
  ((text.dropWhile isWhitespace).reverse.dropWhile isWhitespace).reverse

/-- A text from after its first `':'`, which is `text.split(':').slice(1).join(':')`. -/
def afterColon (text : String) : String :=
  String.ofList ((text.toList.dropWhile (· ≠ ':')).drop 1)

/-- Milliseconds from the epoch to a civil date and time of day, by the proleptic calendar. -/
def epochMilliseconds (year month day hour minute second milli : Nat) : Int :=
  let shifted : Int := if month ≤ 2 then year - 1 else year
  let era : Int := shifted / 400
  let yearOfEra : Int := shifted - era * 400
  let dayOfYear : Int := (153 * ((month + 9) % 12 : Nat) + 2) / 5 + day - 1
  let dayOfEra : Int := yearOfEra * 365 + yearOfEra / 4 - yearOfEra / 100 + dayOfYear
  let days : Int := era * 146097 + dayOfEra - 719468
  ((days * 24 + hour) * 60 + minute) * 60000 + second * 1000 + milli

/-- The digits of a text as a number, when it has no other characters. -/
def decimalDigits (text : List Char) : Option Nat :=
  if text.all Char.isDigit ∧ text ≠ [] then
    some (text.foldl (fun total digit => total * 10 + (digit.toNat - '0'.toNat)) 0)
  else none

/-- The time of a text in the form `toISOString` writes: `YYYY-MM-DDTHH:mm:ss.sssZ`. -/
def isoMilliseconds (text : String) : Option Int := do
  let chars := text.toList
  let field (start length : Nat) := decimalDigits ((chars.drop start).take length)
  let marks := [4, 7, 10, 13, 16, 19, 23].map fun place => chars[place]?
  if marks = "--T::.Z".toList.map some ∧ chars.length = 24 then
    return epochMilliseconds (← field 0 4) (← field 5 2) (← field 8 2) (← field 11 2)
      (← field 14 2) (← field 17 2) (← field 20 3)
  else none

/-- Doubles. Conversions are those of the values a probe writes: numbers, truth values, plain
digits and ISO times; every other text converts to `NaN`. -/
instance : JsRuntime Float where
  literal value := Float.ofInt value.num / Float.ofNat value.den
  negativeInfinity := -1.0 / 0.0
  isFinite := Float.isFinite
  add := (· + ·)
  sub := (· - ·)
  div := (· / ·)
  less left right := decide (left < right)
  atMost left right := decide (left ≤ right)
  numberTruthy value := !(value == 0.0 || value.isNaN)
  toNumber
    | .null => 0.0
    | .boolean value => if value then 1.0 else 0.0
    | .number value => value
    | .string text => (decimalDigits text.toList).elim (0.0 / 0.0) Float.ofNat
    | _ => 0.0 / 0.0
  toText
    | .undefined => "undefined"
    | .null => "null"
    | .boolean value => if value then "true" else "false"
    | .number value => value.toString
    | .string text => text
    | .array _ => ""
    | .object _ => "[object Object]"
  parseDate text := (isoMilliseconds text).elim (0.0 / 0.0) Float.ofInt
  slice text length := String.ofList (text.toList.take length)
  localeAtMost left right := decide (left ≤ right)
