import NancyMan.Lib.Json

/-!
# Properties of objects

An object is a list of properties of which the last one of a name counts. Lists of properties are
put together from ones that may be left out, and assigned to as the source's objects are.
-/
namespace NancyMan.Json

/-- Whether a value is an object and not an array. -/
def isRecord : Json → Bool
  | .object _ => true
  | _ => false

/-- A property that is there only with a value. -/
def optional (name : String) : Option Json → List (String × Json)
  | none => []
  | some value => [(name, value)]

/-- Assign a property: in its place, or after the others where there is none. -/
def assign (properties : List (String × Json)) (name : String) (value : Json) :
    List (String × Json) :=
  if properties.any fun property => property.1 == name then
    properties.map fun property => if property.1 = name then (name, value) else property
  else properties ++ [(name, value)]

/-- Of two lists of properties the later one counts. -/
theorem lastProperty_append (name : String) (left right : List (String × Json)) :
    lastProperty name (left ++ right) = (lastProperty name right).or (lastProperty name left) := by
  induction left with
  | nil =>
    rw [List.nil_append]
    cases lastProperty name right <;> rfl
  | cons first rest ih =>
    obtain ⟨key, value⟩ := first
    rw [List.cons_append, lastProperty, lastProperty, ih]
    cases lastProperty name right <;> rfl

/-- A property that no entry has is not there. -/
theorem lastProperty_eq_none {name : String} {properties : List (String × Json)}
    (absent : ∀ property ∈ properties, property.1 ≠ name) : lastProperty name properties = none := by
  induction properties with
  | nil => rfl
  | cons first rest ih =>
    have others := ih fun property member => absent property (.tail _ member)
    obtain ⟨key, value⟩ := first
    rw [lastProperty, others]
    exact if_neg (absent (key, value) List.mem_cons_self)

/-- Of properties with distinct names each one counts. -/
theorem lastProperty_of_mem {properties : List (String × Json)} {name : String} {value : Json}
    (distinct : (properties.map Prod.fst).Nodup) (member : (name, value) ∈ properties) :
    lastProperty name properties = some value := by
  induction properties with
  | nil => cases member
  | cons first rest ih =>
    rw [List.map_cons, List.nodup_cons] at distinct
    rcases List.mem_cons.mp member with rfl | later
    · have absent : lastProperty name rest = none := lastProperty_eq_none fun property among same =>
        distinct.1 (List.mem_map.mpr ⟨property, among, same⟩)
      simp [lastProperty, absent]
    · simp [lastProperty, ih distinct.2 later]

theorem lastProperty_optional (name other : String) (value : Option Json) :
    lastProperty other (optional name value) = if name = other then value else none := by
  cases value <;> simp [optional, lastProperty]

end NancyMan.Json
