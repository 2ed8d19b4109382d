import NancyMan.Explorer.DriverValue

/-!
# Shapes of values

A schema that returns what it accepts as it is. Each shape comes with the facts that make it
indifferent to a way through JSON text: what it accepts is a JSON value, and what is read back
is accepted again.
-/
namespace NancyMan.Explorer.Driver

open JsonRuntime

section

variable {ν : Type}

def literal (properties : List (String × Value ν)) : Value ν := .object true properties

/-- A text, or `null`. -/
def optionalText (text : Option String) : Value ν :=
  match text with
  | some text => .string text
  | none => .null

def length [JsonRuntime ν] (count : Nat) : Value ν :=
  .number (JsonRuntime.readNumber (Numeral.ofInt count))

end

variable (ν : Type) [JsonRuntime ν]

/-- A schema that accepts JSON values only, however their numbers are read back. -/
structure Shape where
  accepts : Value ν → Bool
  isJsonValue : ∀ {value}, accepts value = true → value.isJsonValue = true
  reread : ∀ {value}, accepts value = true → accepts value.reread = true

namespace Shape

variable {ν} (check : String → Bool)

/-- `z.string()` with checks. -/
def text : Shape ν where
  accepts
    | .string text => check text
    | _ => false
  isJsonValue {value} accepted := by
    cases value with
    | string text => rfl
    | _ => cases accepted
  reread {value} accepted := by
    cases value with
    | string text => exact accepted
    | _ => cases accepted

/-- `z.boolean()`. -/
def boolean : Shape ν where
  accepts
    | .boolean _ => true
    | _ => false
  isJsonValue {value} accepted := by
    cases value with
    | boolean value => rfl
    | _ => cases accepted
  reread {value} accepted := by
    cases value with
    | boolean value => rfl
    | _ => cases accepted

def isCount (number : ν) : Bool :=
  (JsonRuntime.safeInteger number).any fun value => 0 ≤ value && value ≤ maxSafeInteger

/-- A count is written with its digits, and read back as the same count. -/
theorem isCount_reread {number : ν} (count : isCount number) :
    (numberText number).isSome ∧
      isCount (Value.rereadNumber number) := by
  obtain ⟨value, safe, bounds⟩ := (Option.any_eq_true _ _).mp count
  rw [Bool.and_eq_true, decide_eq_true_eq, decide_eq_true_eq] at bounds
  have written := numberText_safeInteger safe
  have lower : -maxSafeInteger ≤ value := by
    omega
  have again : safeInteger (Value.rereadNumber number) = some value := by
    rw [Value.rereadNumber, written]
    exact safeInteger_readNumber lower bounds.2
  refine ⟨Option.isSome_of_eq_some written, ?_⟩
  rw [isCount, again, Option.any_some, decide_eq_true bounds.1, decide_eq_true bounds.2]
  rfl

/-- `z.number().int().nonnegative()`, up to the largest safe integer. -/
def count : Shape ν where
  accepts
    | .number value => isCount value
    | _ => false
  isJsonValue {value} accepted := by
    cases value with
    | number value => exact (isCount_reread accepted).1
    | _ => cases accepted
  reread {value} accepted := by
    cases value with
    | number value => exact (isCount_reread accepted).2
    | _ => cases accepted

variable (shape : Shape ν)

/-- `schema.nullable()`. -/
def nullable : Shape ν where
  accepts
    | .null => true
    | value => shape.accepts value
  isJsonValue {value} accepted := by
    cases value with
    | null => rfl
    | _ => exact shape.isJsonValue accepted
  reread {value} accepted := by
    cases value with
    | null => rfl
    | _ => exact shape.reread accepted

/-- `z.array(schema)`. -/
def array : Shape ν where
  accepts
    | .array items => items.all shape.accepts
    | _ => false
  isJsonValue {value} accepted := by
    cases value with
    | array items =>
      rw [Value.isJsonValue, Value.itemsAreJson_iff]
      intro item member
      exact shape.isJsonValue (List.all_eq_true.mp accepted item member)
    | _ => cases accepted
  reread {value} accepted := by
    cases value with
    | array items =>
      rw [Value.reread, Value.rereadItems_eq]
      apply List.all_eq_true.mpr
      intro item member
      obtain ⟨original, known, rfl⟩ := List.mem_map.mp member
      exact shape.reread (List.all_eq_true.mp accepted original known)
    | _ => cases accepted

variable (fields : List (String × Shape ν))

/-- Whether the properties of an object are those of a strict schema. -/
def acceptsFields (properties : List (String × Value ν)) : Bool :=
  (properties.all fun property =>
    match fields.lookup property.1 with
    | some shape => shape.accepts property.2
    | none => false) &&
  fields.all fun field => (properties.map Prod.fst).contains field.1

/-- `z.object({ … }).strict()` with required properties. -/
def strict : Shape ν where
  accepts
    | .object true properties => acceptsFields fields properties
    | _ => false
  isJsonValue {value} accepted := by
    cases value with
    | object plain properties =>
      cases plain with
      | false => cases accepted
      | true =>
        have every := (Bool.and_eq_true_iff.mp accepted).1
        rw [Value.isJsonValue, Bool.true_and, Value.propertiesAreJson_iff]
        intro property member
        have known := List.all_eq_true.mp every property member
        split at known
        · next shape _ => exact shape.isJsonValue known
        · cases known
    | _ => cases accepted
  reread {value} accepted := by
    cases value with
    | object plain properties =>
      cases plain with
      | false => cases accepted
      | true =>
        obtain ⟨every, present⟩ := Bool.and_eq_true_iff.mp accepted
        rw [Value.reread, Value.rereadProperties_eq]
        apply Bool.and_eq_true_iff.mpr
        constructor
        · apply List.all_eq_true.mpr
          intro property member
          obtain ⟨original, known, rfl⟩ := List.mem_map.mp member
          have read := List.all_eq_true.mp every original known
          dsimp only
          split at read
          · next shape _ => exact shape.reread read
          · cases read
        · rw [List.map_map]
          exact present
    | _ => cases accepted

/-- `z.record(z.string(), schema)`. -/
def record : Shape ν where
  accepts
    | .object true properties => properties.all fun property => shape.accepts property.2
    | _ => false
  isJsonValue {value} accepted := by
    cases value with
    | object plain properties =>
      cases plain with
      | false => cases accepted
      | true =>
        rw [Value.isJsonValue, Bool.true_and, Value.propertiesAreJson_iff]
        intro property member
        exact shape.isJsonValue (List.all_eq_true.mp accepted property member)
    | _ => cases accepted
  reread {value} accepted := by
    cases value with
    | object plain properties =>
      cases plain with
      | false => cases accepted
      | true =>
        rw [Value.reread, Value.rereadProperties_eq]
        apply List.all_eq_true.mpr
        intro property member
        obtain ⟨original, known, rfl⟩ := List.mem_map.mp member
        exact shape.reread (List.all_eq_true.mp accepted original known)
    | _ => cases accepted

/-- `z.union([…])`. -/
def union (shapes : List (Shape ν)) : Shape ν where
  accepts value := shapes.any fun shape => shape.accepts value
  isJsonValue {value} accepted := by
    obtain ⟨shape, -, holds⟩ := List.any_eq_true.mp accepted
    exact shape.isJsonValue holds
  reread {value} accepted := by
    obtain ⟨shape, member, holds⟩ := List.any_eq_true.mp accepted
    exact List.any_eq_true.mpr ⟨shape, member, shape.reread holds⟩

/-- `z.custom(isJsonValue)`. -/
def json : Shape ν where
  accepts := Value.isJsonValue
  isJsonValue accepted := accepted
  reread accepted := Value.isJsonValue_reread _ accepted

/-! ## What the shapes accept -/

@[simp] theorem text_accepts (text : String) :
    (Shape.text check : Shape ν).accepts (.string text) = check text := rfl

@[simp] theorem boolean_accepts (value : Bool) :
    (Shape.boolean : Shape ν).accepts (.boolean value) := rfl

@[simp] theorem json_accepts (value : Value ν) : Shape.json.accepts value = value.isJsonValue := rfl

@[simp] theorem array_accepts (items : List (Value ν)) :
    shape.array.accepts (.array items) = items.all shape.accepts := rfl

@[simp] theorem record_accepts (properties : List (String × Value ν)) :
    shape.record.accepts (literal properties) =
      properties.all fun property => shape.accepts property.2 := rfl

@[simp] theorem strict_accepts (properties : List (String × Value ν)) :
    (strict fields).accepts (literal properties) = acceptsFields fields properties := rfl

@[simp] theorem union_accepts (shapes : List (Shape ν)) (value : Value ν) :
    (union shapes).accepts value = shapes.any fun shape => shape.accepts value := rfl

@[simp] theorem optionalText_accepted (text : Option String) :
    (Shape.text check : Shape ν).nullable.accepts (optionalText text) = text.all check := by
  cases text <;> rfl

/-- A length within the safe integers is a count. -/
theorem length_accepted {count : Nat} (small : (count : Int) ≤ maxSafeInteger) :
    Shape.count.accepts (length count : Value ν) := by
  have lower : -maxSafeInteger ≤ (count : Int) := by
    omega
  have safe := safeInteger_readNumber (ν := ν) lower small
  show isCount (readNumber (Numeral.ofInt count) : ν) = true
  rw [isCount, safe, Option.any_some, decide_eq_true (Int.natCast_nonneg count),
    decide_eq_true small]
  rfl

theorem read_back {value : Value ν} (accepted : shape.accepts value) :
    (Json.parse (Json.render value.toJson)).map Value.ofJson = some value.reread ∧
      shape.accepts value.reread := by
  have read := Value.ofJson_toJson value (shape.isJsonValue accepted)
  refine ⟨?_, shape.reread accepted⟩
  rw [Json.parse_render, Option.map_some, read]

end Shape

end NancyMan.Explorer.Driver
