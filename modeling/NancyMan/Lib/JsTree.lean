import NancyMan.Lib.Js

/-!
# Values inside values

A value of a JavaScript program holds its properties and items, and what these hold. A property that an
object lacks is `undefined`, which holds nothing else.
-/
namespace JsValue

variable {ν : Type}

/-- A value holds another one at some depth. -/
inductive Holds : JsValue ν → JsValue ν → Prop
  | here (value : JsValue ν) : Holds value value
  | property {fields : JsObject ν} (name : String) {node : JsValue ν}
      (inside : Holds (JsObject.read fields name) node) : Holds (.object fields) node
  | item {items : List (JsValue ν)} {item node : JsValue ν} (member : item ∈ items)
      (inside : Holds item node) : Holds (.array items) node

theorem Holds.trans {value part node : JsValue ν} (outer : Holds value part)
    (inner : Holds part node) : Holds value node := by
  induction outer with
  | here => exact inner
  | property name _ ih => exact .property name (ih inner)
  | item member _ ih => exact .item member (ih inner)

/-- What `value?.name` gives is held, or is nothing. -/
theorem holds_property (value : JsValue ν) (name : String) :
    Holds value (value.property name) ∨ value.property name = .undefined := by
  cases value with
  | object fields => exact .inl (.property name (.here _))
  | _ => exact .inr rfl

/-- `!value` is true only of values that hold nothing else. -/
theorem eq_of_holds_falsy [JsRuntime ν] {value node : JsValue ν} (falsy : value.truthy = false)
    (holds : Holds value node) : node = value := by
  cases holds with
  | here => rfl
  | property => cases falsy
  | item => cases falsy

theorem sizeOf_read_lt (fields : JsObject ν) (name : String) :
    sizeOf (JsObject.read fields name) < sizeOf (JsValue.object fields) := by
  rw [JsObject.read]
  induction fields with
  | nil =>
    rw [List.lookup_nil, Option.getD_none, undefined.sizeOf_spec, object.sizeOf_spec,
      List.nil.sizeOf_spec]
    omega
  | cons field rest ih =>
    obtain ⟨key, value⟩ := field
    rw [List.lookup_cons]
    simp only [object.sizeOf_spec, List.cons.sizeOf_spec, Prod.mk.sizeOf_spec] at ih ⊢
    split
    · simp only [Option.getD_some]
      omega
    · omega

theorem sizeOf_property_le (value : JsValue ν) (name : String) :
    sizeOf (value.property name) ≤ sizeOf value := by
  cases value with
  | object fields => exact Nat.le_of_lt (sizeOf_read_lt fields name)
  | _ => simp [property]

end JsValue
