import NancyMan.Lib.CanonicalJson

/-!
# Schemas that parse

A schema accepts some values and returns what it has made of them: it may trim a string and give a
missing property its default, and it lists properties in its own order. Each schema comes with what a
value must have for the returned one to have the same canonical form; the combinators below compute
that condition from the parts.
-/
namespace NancyMan

open Option (bind_eq_some_iff map_eq_some_iff map_some)

/-- A schema: what it returns of the values that it accepts, and which of these it leaves as they
are, up to the order of properties. -/
structure JsonSchema where
  parse : Json → Option Json
  Settled : Json → Prop
  settled_iff : ∀ {value parsed}, parse value = some parsed →
    (parsed.canonicalValue = value.canonicalValue ↔ Settled value)

/-- What a schema of objects does without a property. -/
inductive Presence where
  | required
  | optional
  | default (value : Json)

/-- A property of a schema of objects. -/
structure JsonField where
  name : String
  schema : JsonSchema
  presence : Presence := .required

namespace JsonSchema

/-! ## Values without parts -/

/-- A schema that returns some of the values as they are. -/
def accepted (accepts : Json → Bool) : JsonSchema where
  parse value := if accepts value then some value else none
  Settled _ := True
  settled_iff {value parsed} parses := by
    obtain ⟨-, same⟩ := Option.ite_none_right_eq_some.mp parses
    obtain rfl : value = parsed := Option.some.inj same
    exact iff_of_true rfl trivial

/-- `z.string()` with checks. -/
def string (accepts : String → Bool) : JsonSchema :=
  accepted fun value => match value with
    | .string text => accepts text
    | _ => false

/-- `z.boolean()`, or one literal of it. -/
def boolean (accepts : Bool → Bool) : JsonSchema :=
  accepted fun value => match value with
    | .boolean value => accepts value
    | _ => false

/-- `z.number()` with checks. -/
def number (accepts : Numeral → Bool) : JsonSchema :=
  accepted fun value => match value with
    | .number literal => accepts literal
    | _ => false

/-- `z.string().trim()` with checks of what is left. -/
def trimmed (trim : String → String) (accepts : String → Bool) : JsonSchema where
  parse
    | .string text => if accepts (trim text) then some (.string (trim text)) else none
    | _ => none
  Settled value := ∀ text, value = .string text → trim text = text
  settled_iff {value parsed} parses := by
    cases value with
    | string text =>
      obtain ⟨-, same⟩ := Option.ite_none_right_eq_some.mp parses
      obtain rfl : Json.string (trim text) = parsed := Option.some.inj same
      rw [Json.canonicalValue, Json.canonicalValue, Json.string.injEq]
      constructor
      · rintro same other ⟨⟩
        exact same
      · intro every
        exact every text rfl
    | null => cases parses
    | boolean value => cases parses
    | number literal => cases parses
    | array items => cases parses
    | object properties => cases parses

/-! ## Compound schemas -/

/-- `z.refine`: a further check, which changes nothing. -/
def refine (schema : JsonSchema) (accepts : Json → Bool) : JsonSchema where
  parse value := (schema.parse value).bind fun parsed => if accepts parsed then some parsed else none
  Settled := schema.Settled
  settled_iff {value parsed} parses := by
    obtain ⟨inner, first, rest⟩ := Option.bind_eq_some_iff.mp parses
    obtain ⟨-, same⟩ := Option.ite_none_right_eq_some.mp rest
    obtain rfl : inner = parsed := Option.some.inj same
    exact schema.settled_iff first

/-- `z.discriminatedUnion`: the schema that a value chooses. -/
def union (choose : Json → Option JsonSchema) : JsonSchema where
  parse value := (choose value).bind fun schema => schema.parse value
  Settled value := ∀ schema, choose value = some schema → schema.Settled value
  settled_iff {value parsed} parses := by
    obtain ⟨schema, chosen, rest⟩ := Option.bind_eq_some_iff.mp parses
    rw [schema.settled_iff rest]
    constructor
    · intro settled other found
      obtain rfl := Option.some.inj (chosen.symm.trans found)
      exact settled
    · intro every
      exact every schema chosen

/-- Items are parsed one after the other. -/
def parseItems (schema : JsonSchema) : List Json → Option (List Json)
  | [] => some []
  | item :: rest =>
    (schema.parse item).bind fun parsed =>
      (parseItems schema rest).map fun others => parsed :: others

/-- Parsed items have the canonical forms of the items exactly when each is settled. -/
theorem parseItems_settled_iff (schema : JsonSchema) {items parsed : List Json}
    (parses : schema.parseItems items = some parsed) :
    parsed.map Json.canonicalValue = items.map Json.canonicalValue ↔
      ∀ item ∈ items, schema.Settled item := by
  induction items generalizing parsed with
  | nil =>
    obtain rfl : [] = parsed := Option.some.inj parses
    exact iff_of_true rfl nofun
  | cons item rest ih =>
    obtain ⟨first, here, later⟩ := bind_eq_some_iff.mp parses
    obtain ⟨others, there, same⟩ := map_eq_some_iff.mp later
    subst same
    rw [List.map_cons, List.map_cons, List.cons.injEq, schema.settled_iff here, ih there,
      List.forall_mem_cons]

/-- `z.array(schema)` with a check of the length. -/
def array (accepts : Nat → Bool) (schema : JsonSchema) : JsonSchema where
  parse
    | .array items => if accepts items.length then (schema.parseItems items).map .array else none
    | _ => none
  Settled value := ∀ items, value = .array items → ∀ item ∈ items, schema.Settled item
  settled_iff {value parsed} parses := by
    cases value with
    | array items =>
      obtain ⟨-, inner⟩ := Option.ite_none_right_eq_some.mp parses
      obtain ⟨others, found, same⟩ := Option.map_eq_some_iff.mp inner
      subst same
      rw [Json.canonicalValue_array_iff, schema.parseItems_settled_iff found]
      constructor
      · rintro every other ⟨⟩
        exact every
      · intro every
        exact every items rfl
    | null => cases parses
    | boolean value => cases parses
    | number literal => cases parses
    | string text => cases parses
    | object properties => cases parses

/-! ## Objects -/

/-- What an object has under a name after parsing, if anything. -/
def readField (properties : List (String × Json)) (field : JsonField) : Option (Option Json) :=
  match properties.lookup field.name with
  | some value => (field.schema.parse value).map some
  | none =>
    match field.presence with
    | .required => none
    | .optional => some none
    | .default value => (field.schema.parse value).map some

/-- The parsed properties, in the order of the schema. -/
def readFields (properties : List (String × Json)) : List JsonField → Option (List (String × Json))
  | [] => some []
  | field :: rest =>
    (readField properties field).bind fun read =>
      (readFields properties rest).map fun others =>
        match read with
        | some value => (field.name, value) :: others
        | none => others

/-- An object leaves no default to a field, and what it has under the field is settled. -/
def FieldSettled (properties : List (String × Json)) (field : JsonField) : Prop :=
  match properties.lookup field.name with
  | some value => field.schema.Settled value
  | none => ∀ value, field.presence ≠ .default value

variable {properties parsed : List (String × Json)} {fields : List JsonField} {field : JsonField}
  {distinct : (fields.map JsonField.name).Nodup} {value : Json} {schema : JsonSchema}

/-- The parsed properties have names of the schema. -/
theorem names_readFields (reads : readFields properties fields = some parsed) :
    (parsed.map Prod.fst).Sublist (fields.map JsonField.name) := by
  induction fields generalizing parsed with
  | nil =>
    obtain rfl : [] = parsed := Option.some.inj reads
    exact .slnil
  | cons field rest ih =>
    obtain ⟨read, -, later⟩ := bind_eq_some_iff.mp reads
    obtain ⟨others, there, same⟩ := map_eq_some_iff.mp later
    subst same
    cases read with
    | none => exact (ih there).cons field.name
    | some value => exact (ih there).cons_cons field.name

/-- Under each name of the schema the parsed object has what is read of it. -/
theorem lookup_readFields (distinct : (fields.map JsonField.name).Nodup)
    (reads : readFields properties fields = some parsed) (member : field ∈ fields) :
    readField properties field = some (parsed.lookup field.name) := by
  induction fields generalizing parsed with
  | nil => cases member
  | cons first rest ih =>
    obtain ⟨fresh, others_distinct⟩ := List.nodup_cons.mp distinct
    obtain ⟨read, here, later⟩ := bind_eq_some_iff.mp reads
    obtain ⟨others, there, same⟩ := map_eq_some_iff.mp later
    subst same
    have absent : first.name ∉ others.map Prod.fst := fun found =>
      fresh ((names_readFields there).subset found)
    rcases List.mem_cons.mp member with rfl | behind
    · rw [here]
      cases read with
      | some value => rw [List.lookup_cons_self]
      | none =>
        have none' : others.lookup field.name = none := by
          rw [Option.eq_none_iff_forall_ne_some]
          exact fun value found => absent ((Json.mem_names_iff _).mpr ⟨value, found⟩)
        rw [none']
    · have apart : field.name ≠ first.name := fun same =>
        fresh (same ▸ List.mem_map_of_mem behind)
      have differs : (field.name == first.name) = false := by simpa using apart
      rw [ih others_distinct there behind]
      cases read with
      | none => rfl
      | some value =>
        rw [List.lookup_cons, differs]

/-- What is read of a field has the canonical form of what the object has there exactly when the
field is settled. -/
theorem readField_settled_iff {read : Option Json}
    (reads : readField properties field = some read) :
    read.map Json.canonicalValue = (properties.lookup field.name).map Json.canonicalValue ↔
      FieldSettled properties field := by
  unfold readField at reads
  unfold FieldSettled
  cases found : properties.lookup field.name with
  | some value =>
    rw [found] at reads
    obtain ⟨parsed, parses, same⟩ := map_eq_some_iff.mp reads
    subst same
    rw [map_some, map_some, Option.some.injEq]
    exact field.schema.settled_iff parses
  | none =>
    rw [found] at reads
    cases presence : field.presence with
    | required =>
      rw [presence] at reads
      cases reads
    | optional =>
      rw [presence] at reads
      obtain rfl : none = read := Option.some.inj reads
      exact iff_of_true rfl nofun
    | default value =>
      rw [presence] at reads
      obtain ⟨parsed, -, same⟩ := map_eq_some_iff.mp reads
      subst same
      exact iff_of_false nofun fun every => every value rfl

/-- `z.object(fields).strict()`: no other properties are accepted, and an object has each name
once. -/
def strict (fields : List JsonField) (distinct : (fields.map JsonField.name).Nodup) :
    JsonSchema where
  parse
    | .object properties =>
      if (properties.map Prod.fst).Nodup ∧
          ∀ name ∈ properties.map Prod.fst, name ∈ fields.map JsonField.name then
        (readFields properties fields).map .object
      else none
    | _ => none
  Settled value := ∀ properties, value = .object properties →
    ∀ field ∈ fields, FieldSettled properties field
  settled_iff {value parsed} parses := by
    cases value with
    | object properties =>
      obtain ⟨⟨once, known⟩, inner⟩ := Option.ite_none_right_eq_some.mp parses
      obtain ⟨others, reads, same⟩ := Option.map_eq_some_iff.mp inner
      subst same
      have names := names_readFields reads
      rw [Json.canonicalValue_object_iff (names.nodup distinct) once]
      constructor
      · rintro same other ⟨⟩ field member
        refine (readField_settled_iff (lookup_readFields distinct reads member)).mp ?_
        exact same field.name
      · intro settled name
        by_cases present : name ∈ fields.map JsonField.name
        · obtain ⟨field, member, rfl⟩ := List.mem_map.mp present
          exact (readField_settled_iff (lookup_readFields distinct reads member)).mpr
            (settled properties rfl field member)
        · have left : others.lookup name = none := by
            rw [Option.eq_none_iff_forall_ne_some]
            exact fun value found =>
              present (names.subset ((Json.mem_names_iff _).mpr ⟨value, found⟩))
          have right : properties.lookup name = none := by
            rw [Option.eq_none_iff_forall_ne_some]
            exact fun value found => present (known name ((Json.mem_names_iff _).mpr ⟨value, found⟩))
          rw [left, right]
    | null => cases parses
    | boolean value => cases parses
    | number literal => cases parses
    | string text => cases parses
    | array items => cases parses

/-- What a strict schema accepts is an object with distinct names, whose fields it has read. -/
theorem strict_parse {parsed : Json} (parses : (strict fields distinct).parse value = some parsed) :
    ∃ properties others, value = .object properties ∧ parsed = .object others ∧
      (properties.map Prod.fst).Nodup ∧ (others.map Prod.fst).Nodup ∧
      ∀ field ∈ fields, readField properties field = some (others.lookup field.name) := by
  cases value with
  | object properties =>
    obtain ⟨⟨once, -⟩, inner⟩ := Option.ite_none_right_eq_some.mp parses
    obtain ⟨others, reads, same⟩ := map_eq_some_iff.mp inner
    refine ⟨properties, others, rfl, same.symm, once, (names_readFields reads).nodup distinct, ?_⟩
    exact fun field member => lookup_readFields distinct reads member
  | null => cases parses
  | boolean value => cases parses
  | number literal => cases parses
  | string text => cases parses
  | array items => cases parses

theorem refine_parse {accepts : Json → Bool} {parsed : Json}
    (parses : (schema.refine accepts).parse value = some parsed) :
    schema.parse value = some parsed := by
  obtain ⟨inner, first, rest⟩ := bind_eq_some_iff.mp parses
  obtain ⟨-, same⟩ := Option.ite_none_right_eq_some.mp rest
  obtain rfl : inner = parsed := Option.some.inj same
  exact first

/-! ## Schemas that change nothing -/

def Plain (schema : JsonSchema) : Prop := ∀ value, schema.Settled value

def PlainField (field : JsonField) : Prop :=
  field.schema.Plain ∧ ∀ value, field.presence ≠ .default value

theorem plain_accepted (accepts : Json → Bool) : Plain (accepted accepts) := fun _ => trivial

theorem Plain.refine (plain : schema.Plain) (accepts : Json → Bool) :
    Plain (schema.refine accepts) := plain

theorem Plain.array (plain : schema.Plain) (accepts : Nat → Bool) :
    Plain (schema.array accepts) := fun _ _ _ item _ => plain item

theorem PlainField.settled (plain : PlainField field) (properties : List (String × Json)) :
    FieldSettled properties field := by
  unfold FieldSettled
  split
  · exact plain.1 _
  · exact plain.2

theorem plain_strict (plain : ∀ field ∈ fields, PlainField field) :
    Plain (strict fields distinct) :=
  fun _ properties _ field member => (plain field member).settled properties

/-- Where all fields but one are plain, an object is settled when that one is. -/
theorem strict_settled_iff {own : JsonField} (member : own ∈ fields)
    (plain : ∀ field ∈ fields, field.name ≠ own.name → PlainField field)
    (properties : List (String × Json)) :
    (strict fields distinct).Settled (.object properties) ↔ FieldSettled properties own := by
  constructor
  · intro settled
    exact settled properties rfl own member
  · rintro settled _ ⟨⟩ field found
    by_cases same : field.name = own.name
    · obtain rfl := List.inj_on_of_nodup_map distinct found member same
      exact settled
    · exact (plain field found same).settled _

end JsonSchema

end NancyMan
