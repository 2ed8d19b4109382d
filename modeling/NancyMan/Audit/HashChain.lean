import NancyMan.Lib.CanonicalJson
import NancyMan.Lib.Fallible

/-!
# The hash of an audit entry

`createAuditEntryHash` hashes the hash of the previous entry and the canonical text of a payload.
`canonicalize` writes a value with the names of every object in order, and throws on what JSON cannot
say. Its text is that of the canonical form of the value, so that values have one text exactly when
they are the same but for the order of properties.
-/
namespace NancyMan.Audit

open Json

/-- A value as `canonicalize` meets it; a finite number is known by what `JSON.stringify` writes. -/
inductive AuditValue where
  | null
  | boolean (value : Bool)
  | number (literal : Numeral)
  | notFinite
  | string (text : String)
  | array (items : List AuditValue)
  | record (properties : List (String × AuditValue))
  /-- A value that is none of these: `undefined`, a function, an object with another prototype. -/
  | other

/-- Why an entry is not hashed. -/
inductive AuditError where
  /-- Audit payload must contain finite numbers. -/
  | notFinite
  /-- Audit payload must contain JSON-compatible values. -/
  | notCompatible
  /-- Audit previous hash is invalid. -/
  | previousHash

mutual

/-- `canonicalize`: the characters of the text. -/
def canonicalize : AuditValue → Except AuditError (List Char)
  | .null => .ok (Json.renderChars .null)
  | .boolean value => .ok (Json.renderChars (.boolean value))
  | .number literal => .ok (Json.renderChars (.number literal))
  | .notFinite => .error .notFinite
  | .string text => .ok (Json.renderChars (.string text))
  | .array items => do
    let texts ← canonicalizeItems items
    return '[' :: ([','].intercalate texts ++ [']'])
  | .record properties => do
    let texts ← (Json.byName (canonicalizeProperties properties)).mapM fun property =>
      property.2.map fun text => Json.renderString property.1.toList ++ ':' :: text
    return '{' :: ([','].intercalate texts ++ ['}'])
  | .other => .error .notCompatible

/-- The texts of the items of an array. -/
def canonicalizeItems : List AuditValue → Except AuditError (List (List Char))
  | [] => .ok []
  | item :: rest => do
    let text ← canonicalize item
    let texts ← canonicalizeItems rest
    return text :: texts

/-- The names of an object with the texts of their values. -/
def canonicalizeProperties :
    List (String × AuditValue) → List (String × Except AuditError (List Char))
  | [] => []
  | (name, value) :: rest => (name, canonicalize value) :: canonicalizeProperties rest

end

def canonicalizeAuditPayload (payload : AuditValue) : Except AuditError String :=
  (canonicalize payload).map String.ofList

/-- Whether a text is sixty-four lowercase hexadecimal digits. -/
def isDigest (text : String) : Bool :=
  decide (text.toList.length = 64) &&
    text.toList.all fun symbol => symbol.isDigit || ('a' ≤ symbol && symbol ≤ 'f')

def createAuditEntryHash (hash : String → String) (previousHash : Option String)
    (payload : AuditValue) : Except AuditError String :=
  if !previousHash.all isDigest then .error .previousHash
  else (canonicalizeAuditPayload payload).map fun text =>
    hash (previousHash.getD "ROOT" ++ "\n" ++ text)

/-! ## Values that JSON can say -/

mutual

/-- What `JSON.stringify` and a parse make of a value that `canonicalize` accepts. -/
def AuditValue.json? : AuditValue → Option Json
  | .null => some .null
  | .boolean value => some (.boolean value)
  | .number literal => some (.number literal)
  | .notFinite => none
  | .string text => some (.string text)
  | .array items => (jsonItems? items).map .array
  | .record properties => (jsonProperties? properties).map .object
  | .other => none

/-- The items of an array. -/
def jsonItems? : List AuditValue → Option (List Json)
  | [] => some []
  | item :: rest => do
    let json ← item.json?
    let others ← jsonItems? rest
    return json :: others

/-- The properties of an object. -/
def jsonProperties? : List (String × AuditValue) → Option (List (String × Json))
  | [] => some []
  | (name, value) :: rest => do
    let json ← value.json?
    let others ← jsonProperties? rest
    return (name, json) :: others

end

open Json (canonicalValue canonicalItems canonicalProperties)

/-- Texts of properties that are all there are the properties, written. -/
theorem mapM_texts (properties : List (String × Json)) :
    ((properties.map fun property => (property.1, Except.ok (renderChars property.2))).mapM
      fun property : String × Except AuditError (List Char) =>
        property.2.map fun text => renderString property.1.toList ++ ':' :: text) =
      .ok (properties.map renderProperty) := by
  induction properties with
  | nil => rfl
  | cons property rest ih =>
    rw [List.map_cons, List.mapM_cons, ih]
    rfl

mutual

/-- The canonical text of a value that JSON can say is that of its canonical form. -/
theorem canonicalize_of_json : (value : AuditValue) → (json : Json) → value.json? = some json →
    json.distinctNames → canonicalize value = .ok (renderChars json.canonicalValue)
  | .null, json, said, _ => by
    obtain rfl := Option.some.inj said
    rw [canonicalize, canonicalValue]
  | .boolean value, json, said, _ => by
    obtain rfl := Option.some.inj said
    rw [canonicalize, canonicalValue]
  | .number literal, json, said, _ => by
    obtain rfl := Option.some.inj said
    rw [canonicalize, canonicalValue]
  | .string text, json, said, _ => by
    obtain rfl := Option.some.inj said
    rw [canonicalize, canonicalValue]
  | .notFinite, _, said, _ => by cases said
  | .other, _, said, _ => by cases said
  | .array items, json, said, distinct => by
    rw [AuditValue.json?] at said
    obtain ⟨jsons, each, rfl⟩ := Option.map_eq_some_iff.mp said
    have texts := canonicalizeItems_of_json items jsons each distinct
    rw [canonicalize, texts, canonicalValue, renderChars_array]
    rfl
  | .record properties, json, said, distinct => by
    rw [AuditValue.json?] at said
    obtain ⟨jsons, each, rfl⟩ := Option.map_eq_some_iff.mp said
    rw [distinctNames, Bool.and_eq_true, decide_eq_true_eq] at distinct
    have once : ((canonicalProperties jsons).map Prod.fst).Nodup := by
      rw [names_canonicalProperties]
      exact distinct.1
    have texts := canonicalizeProperties_of_json properties jsons each distinct.2
    have sorted := byName_map
      (fun json => (Except.ok (renderChars json) : Except AuditError (List Char)))
      (canonicalProperties jsons)
    rw [canonicalize, texts, sorted, mapM_texts, byName_eq_mergeSort once, canonicalValue,
      renderChars_object]
    rfl

/-- The same of the items of an array. -/
theorem canonicalizeItems_of_json : (items : List AuditValue) → (jsons : List Json) →
    jsonItems? items = some jsons → itemsDistinct jsons →
    canonicalizeItems items = .ok ((canonicalItems jsons).map renderChars)
  | [], jsons, said, _ => by
    obtain rfl := Option.some.inj said
    rfl
  | item :: rest, jsons, said, distinct => by
    rw [jsonItems?] at said
    obtain ⟨json, first, said⟩ := Option.bind_eq_some_iff.mp said
    obtain ⟨others, later, said⟩ := Option.bind_eq_some_iff.mp said
    obtain rfl := Option.some.inj said
    rw [itemsDistinct, Bool.and_eq_true] at distinct
    rw [canonicalizeItems, canonicalize_of_json item json first distinct.1,
      canonicalizeItems_of_json rest others later distinct.2, canonicalItems]
    rfl

/-- The same of the values of an object. -/
theorem canonicalizeProperties_of_json : (properties : List (String × AuditValue)) →
    (jsons : List (String × Json)) → jsonProperties? properties = some jsons →
    propertiesDistinct jsons →
    canonicalizeProperties properties = (canonicalProperties jsons).map fun property =>
      (property.1, Except.ok (renderChars property.2))
  | [], jsons, said, _ => by
    obtain rfl := Option.some.inj said
    rfl
  | (name, value) :: rest, jsons, said, distinct => by
    rw [jsonProperties?] at said
    obtain ⟨json, first, said⟩ := Option.bind_eq_some_iff.mp said
    obtain ⟨others, later, said⟩ := Option.bind_eq_some_iff.mp said
    obtain rfl := Option.some.inj said
    rw [propertiesDistinct, Bool.and_eq_true] at distinct
    rw [canonicalizeProperties, canonicalize_of_json value json first distinct.1,
      canonicalizeProperties_of_json rest others later distinct.2, canonicalProperties]
    rfl

end

mutual

/-- A value that has a canonical text is one that JSON can say. -/
theorem json_of_canonicalize : (value : AuditValue) → (text : List Char) →
    canonicalize value = .ok text → ∃ json, value.json? = some json
  | .null, _, _ => ⟨_, rfl⟩
  | .boolean _, _, _ => ⟨_, rfl⟩
  | .number _, _, _ => ⟨_, rfl⟩
  | .string _, _, _ => ⟨_, rfl⟩
  | .notFinite, _, ended => by cases ended
  | .other, _, ended => by cases ended
  | .array items, text, ended => by
    rw [canonicalize] at ended
    obtain ⟨texts, each, -⟩ := Fallible.bind_ok ended
    obtain ⟨jsons, said⟩ := json_of_canonicalizeItems items texts each
    exact ⟨.array jsons, by rw [AuditValue.json?, said]; rfl⟩
  | .record properties, text, ended => by
    rw [canonicalize] at ended
    obtain ⟨texts, each, -⟩ := Fallible.bind_ok ended
    obtain ⟨jsons, said⟩ := json_of_canonicalizeProperties properties fun property member => by
      have sorted : property ∈ byName (canonicalizeProperties properties) :=
        (List.mem_insertionSort _).mpr member
      obtain ⟨whole, -, mapped⟩ := Fallible.exists_of_mapM each sorted
      cases found : property.2 with
      | error error => rw [found] at mapped; cases mapped
      | ok text => exact ⟨text, rfl⟩
    exact ⟨.object jsons, by rw [AuditValue.json?, said]; rfl⟩

/-- The same of the items of an array. -/
theorem json_of_canonicalizeItems : (items : List AuditValue) → (texts : List (List Char)) →
    canonicalizeItems items = .ok texts → ∃ jsons, jsonItems? items = some jsons
  | [], _, _ => ⟨[], rfl⟩
  | item :: rest, texts, ended => by
    rw [canonicalizeItems] at ended
    obtain ⟨text, first, ended⟩ := Fallible.bind_ok ended
    obtain ⟨others, later, -⟩ := Fallible.bind_ok ended
    obtain ⟨json, said⟩ := json_of_canonicalize item text first
    obtain ⟨jsons, others_said⟩ := json_of_canonicalizeItems rest others later
    exact ⟨json :: jsons, by rw [jsonItems?, said, others_said]; rfl⟩

/-- The same of the values of an object. -/
theorem json_of_canonicalizeProperties : (properties : List (String × AuditValue)) →
    (∀ property ∈ canonicalizeProperties properties, ∃ text, property.2 = .ok text) →
    ∃ jsons, jsonProperties? properties = some jsons
  | [], _ => ⟨[], rfl⟩
  | (name, value) :: rest, each => by
    rw [canonicalizeProperties] at each
    obtain ⟨text, first⟩ := each _ (.head _)
    obtain ⟨json, said⟩ := json_of_canonicalize value text first
    obtain ⟨jsons, others_said⟩ := json_of_canonicalizeProperties rest
      fun property member => each property (.tail _ member)
    exact ⟨(name, json) :: jsons, by rw [jsonProperties?, said, others_said]; rfl⟩

end

/-- Two values that JSON can say have one canonical text exactly when they are the same but for the
order of properties. -/
theorem canonicalize_eq_iff_same {left right : AuditValue} {leftJson rightJson : Json}
    (left_said : left.json? = some leftJson) (right_said : right.json? = some rightJson)
    (left_distinct : leftJson.distinctNames) (right_distinct : rightJson.distinctNames) :
    canonicalize left = canonicalize right ↔ leftJson.SameValue rightJson := by
  rw [canonicalize_of_json left leftJson left_said left_distinct,
    canonicalize_of_json right rightJson right_said right_distinct,
    ← canonicalValue_eq_iff leftJson rightJson left_distinct right_distinct]
  constructor
  · intro same
    have texts : renderChars leftJson.canonicalValue =
      renderChars rightJson.canonicalValue := Except.ok.inj same
    exact render_injective (congrArg String.ofList texts)
  · intro same
    rw [same]

end NancyMan.Audit
