import NancyMan.Explorer.PgValue
import NancyMan.Lib.JsonRoundTrip

/-!
# Values of the driver in full

What the driver returns for a column with everything inside it: an array of dates, an interval,
an object that a JSON column holds. `PgValue` keeps of an array or an object only the JSON it is
written as; here their parts stay, so that a validator that looks at them can be modelled.
-/
namespace NancyMan.Explorer.Driver

/-- A value as the driver returns it. A `plain` object has the prototype of objects; one of a
class, such as an interval, has not. -/
inductive Value (ν : Type) where
  | null
  | boolean (value : Bool)
  | number (value : ν)
  | string (value : String)
  | date (time : Option Int)
  | buffer (bytes : List UInt8)
  | array (items : List (Value ν))
  | object (plain : Bool) (properties : List (String × Value ν))

namespace Value

variable {ν : Type} [JsonRuntime ν]

/-- What `JSON.stringify` writes for a number. -/
def numberJson (value : ν) : Json :=
  match JsonRuntime.numberText value with
  | some literal => .number literal
  | none => .null

/-- A number as its text reads: the number itself, up to the sign of zero. -/
def rereadNumber (value : ν) : ν :=
  match JsonRuntime.numberText value with
  | some literal => JsonRuntime.readNumber literal
  | none => value

/-! ## JSON -/

mutual

/-- What `JSON.stringify` writes for a value. -/
def toJson : Value ν → Json
  | .null => .null
  | .boolean value => .boolean value
  | .number value => numberJson value
  | .string value => .string value
  | .date (some time) => .string (JsonRuntime.isoText ν time)
  | .date none => .null
  | .buffer bytes => PgValue.bufferJson bytes
  | .array items => .array (itemsToJson items)
  | .object _ properties => .object (propertiesToJson properties)

/-- What `JSON.stringify` writes for items. -/
def itemsToJson : List (Value ν) → List Json
  | [] => []
  | item :: rest => toJson item :: itemsToJson rest

/-- What `JSON.stringify` writes for properties. -/
def propertiesToJson : List (String × Value ν) → List (String × Json)
  | [] => []
  | (name, value) :: rest => (name, toJson value) :: propertiesToJson rest

end

mutual

/-- What `JSON.parse` returns. -/
def ofJson : Json → Value ν
  | .null => .null
  | .boolean value => .boolean value
  | .number literal => .number (JsonRuntime.readNumber literal)
  | .string value => .string value
  | .array items => .array (itemsOfJson items)
  | .object properties => .object true (propertiesOfJson properties)

/-- The items that `JSON.parse` returns. -/
def itemsOfJson : List Json → List (Value ν)
  | [] => []
  | item :: rest => ofJson item :: itemsOfJson rest

/-- The properties that `JSON.parse` returns. -/
def propertiesOfJson : List (String × Json) → List (String × Value ν)
  | [] => []
  | (name, value) :: rest => (name, ofJson value) :: propertiesOfJson rest

end

mutual

def isJsonValue : Value ν → Bool
  | .null | .boolean _ | .string _ => true
  | .number value => (JsonRuntime.numberText value).isSome
  | .date _ | .buffer _ => false
  | .array items => itemsAreJson items
  | .object plain properties => plain && propertiesAreJson properties

/-- Whether every item is a JSON value. -/
def itemsAreJson : List (Value ν) → Bool
  | [] => true
  | item :: rest => isJsonValue item && itemsAreJson rest

/-- Whether every property is a JSON value. -/
def propertiesAreJson : List (String × Value ν) → Bool
  | [] => true
  | (_, value) :: rest => isJsonValue value && propertiesAreJson rest

end

mutual

/-- A value with its numbers as their texts read. -/
def reread : Value ν → Value ν
  | .number value => .number (rereadNumber value)
  | .array items => .array (rereadItems items)
  | .object plain properties => .object plain (rereadProperties properties)
  | other => other

/-- Items with their numbers as their texts read. -/
def rereadItems : List (Value ν) → List (Value ν)
  | [] => []
  | item :: rest => reread item :: rereadItems rest

/-- Properties with their numbers as their texts read. -/
def rereadProperties : List (String × Value ν) → List (String × Value ν)
  | [] => []
  | (name, value) :: rest => (name, reread value) :: rereadProperties rest

end

variable (items : List (Value ν)) (properties : List (String × Value ν))

theorem itemsAreJson_iff : itemsAreJson items ↔ ∀ item ∈ items, item.isJsonValue := by
  induction items with
  | nil => exact iff_of_true rfl nofun
  | cons item rest ih =>
    rw [itemsAreJson, Bool.and_eq_true, ih, List.forall_mem_cons]

theorem propertiesAreJson_iff :
    propertiesAreJson properties ↔
      ∀ property ∈ properties, property.2.isJsonValue := by
  induction properties with
  | nil => exact iff_of_true rfl nofun
  | cons property rest ih =>
    rw [propertiesAreJson, Bool.and_eq_true, ih, List.forall_mem_cons]

theorem rereadItems_eq : rereadItems items = items.map reread := by
  induction items with
  | nil => rfl
  | cons item rest ih => rw [rereadItems, ih, List.map_cons]

theorem rereadProperties_eq :
    rereadProperties properties =
      properties.map fun property => (property.1, property.2.reread) := by
  induction properties with
  | nil => rfl
  | cons property rest ih => rw [rereadProperties, ih, List.map_cons]

mutual

/-- A JSON value is read back from its text, its numbers as their texts read. -/
theorem ofJson_toJson : ∀ value : Value ν, value.isJsonValue → ofJson value.toJson = value.reread
  | .null, _ => rfl
  | .boolean _, _ => rfl
  | .string _, _ => rfl
  | .number value, plain => by
    obtain ⟨literal, written⟩ := Option.isSome_iff_exists.mp plain
    have number : numberJson value = .number literal := by rw [numberJson, written]
    have read : rereadNumber value = JsonRuntime.readNumber literal := by
      rw [rereadNumber, written]
    rw [toJson, number, ofJson, reread, read]
  | .date _, plain => Bool.noConfusion plain
  | .buffer _, plain => Bool.noConfusion plain
  | .array items, plain => by
    rw [toJson, ofJson, reread, itemsOfJson_toJson items plain]
  | .object true properties, plain => by
    rw [toJson, ofJson, reread, propertiesOfJson_toJson properties plain]
  | .object false _, plain => Bool.noConfusion plain

theorem itemsOfJson_toJson : ∀ items : List (Value ν), itemsAreJson items →
    itemsOfJson (itemsToJson items) = rereadItems items
  | [], _ => rfl
  | item :: rest, plain => by
    obtain ⟨first, others⟩ := Bool.and_eq_true_iff.mp plain
    rw [itemsToJson, itemsOfJson, rereadItems, ofJson_toJson item first,
      itemsOfJson_toJson rest others]

/-- Properties that are JSON values are read back. -/
theorem propertiesOfJson_toJson : ∀ properties : List (String × Value ν),
    propertiesAreJson properties →
      propertiesOfJson (propertiesToJson properties) = rereadProperties properties
  | [], _ => rfl
  | (name, value) :: rest, plain => by
    obtain ⟨first, others⟩ := Bool.and_eq_true_iff.mp plain
    rw [propertiesToJson, propertiesOfJson, rereadProperties, ofJson_toJson value first,
      propertiesOfJson_toJson rest others]

end

mutual

/-- A reread JSON value is one. -/
theorem isJsonValue_reread : ∀ value : Value ν, value.isJsonValue → value.reread.isJsonValue
  | .null, _ => rfl
  | .boolean _, _ => rfl
  | .string _, _ => rfl
  | .number value, plain => by
    obtain ⟨literal, written⟩ := Option.isSome_iff_exists.mp plain
    have read : rereadNumber value = JsonRuntime.readNumber literal := by
      rw [rereadNumber, written]
    rw [reread, isJsonValue, read, JsonRuntime.numberText_readNumber written]
    rfl
  | .date _, plain => Bool.noConfusion plain
  | .buffer _, plain => Bool.noConfusion plain
  | .array items, plain => by
    exact itemsAreJson_reread items plain
  | .object true properties, plain => by
    exact propertiesAreJson_reread properties plain
  | .object false _, plain => Bool.noConfusion plain

theorem itemsAreJson_reread : ∀ items : List (Value ν), itemsAreJson items →
    itemsAreJson (rereadItems items)
  | [], _ => rfl
  | item :: rest, plain => by
    obtain ⟨first, others⟩ := Bool.and_eq_true_iff.mp plain
    rw [rereadItems, itemsAreJson, isJsonValue_reread item first, itemsAreJson_reread rest others]
    rfl

/-- Reread properties are JSON values. -/
theorem propertiesAreJson_reread : ∀ properties : List (String × Value ν),
    propertiesAreJson properties → propertiesAreJson (rereadProperties properties)
  | [], _ => rfl
  | (_, value) :: rest, plain => by
    obtain ⟨first, others⟩ := Bool.and_eq_true_iff.mp plain
    rw [rereadProperties, propertiesAreJson, isJsonValue_reread value first,
      propertiesAreJson_reread rest others]
    rfl

end

end Value

end NancyMan.Explorer.Driver
