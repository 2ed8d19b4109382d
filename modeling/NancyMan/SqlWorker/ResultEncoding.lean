import NancyMan.Explorer.ValueEncoding
import NancyMan.SqlWorker.ReadPreview

/-!
# Rows within a number of bytes

`encodeRowPage` and `encodeBoundedRows` take rows while the JSON text of their array fits a budget,
counting the brackets, the commas and the bytes of each row as they go. Both take the longest prefix
that fits, report its exact size and tell whether a row was left out.
-/
namespace NancyMan

open Explorer.EncodedRow

/-! ## Prefixes that fit -/

namespace Json

theorem size_array_le {items longer : List Json} (shorter : items <+: longer) :
    size (.array items) ≤ size (.array longer) := by
  obtain ⟨more, rfl⟩ := shorter
  rw [size_array, size_array, List.map_append, List.sum_append, List.length_append]
  omega

/-- The longest prefix of some items whose array fits a budget, with the bytes of that array and
whether an item is left out. Where nothing fits, not even no items, it is the empty prefix. -/
structure TakesLongest (items : List Json) (budget : Nat) (accepted : List Json)
    (encodedBytes : Nat) (truncated : Bool) : Prop where
  isPrefix : accepted <+: items
  encodedBytes_eq : encodedBytes = size (.array accepted)
  fits : 2 ≤ budget → size (.array accepted) ≤ budget
  longest : ∀ other, other <+: items → size (.array other) ≤ budget → other <+: accepted
  truncated_iff : truncated = true ↔ accepted ≠ items

/-- A prefix is the longest that fits when the next item does not. -/
theorem takesLongest_of_next {taken left : List Json} {next : Json} {budget : Nat}
    (fits : 2 ≤ budget → size (.array taken) ≤ budget)
    (long : budget < size (.array (taken ++ [next]))) :
    TakesLongest (taken ++ next :: left) budget taken (size (.array taken)) true where
  isPrefix := List.prefix_append taken (next :: left)
  encodedBytes_eq := rfl
  fits := fits
  longest other shorter small := by
    by_cases within : other.length ≤ taken.length
    · exact List.prefix_of_prefix_length_le shorter (List.prefix_append taken _) within
    · have whole : taken ++ [next] <+: taken ++ next :: left :=
        ⟨left, by rw [List.append_assoc, List.singleton_append]⟩
      have longer : taken ++ [next] <+: other := by
        refine List.prefix_of_prefix_length_le whole shorter ?_
        rw [List.length_append, List.length_singleton]
        omega
      have grown := size_array_le longer
      omega
  truncated_iff := by simp

/-- All items are the longest prefix when they fit. -/
theorem takesLongest_all {items : List Json} {budget : Nat}
    (fits : 2 ≤ budget → size (.array items) ≤ budget) :
    TakesLongest items budget items (size (.array items)) false where
  isPrefix := List.prefix_rfl
  encodedBytes_eq := rfl
  fits := fits
  longest _ shorter _ := shorter
  truncated_iff := by simp

end Json

namespace SqlWorker

open Explorer (JsonRuntime)
open Json (TakesLongest)

/-- The loop takes the longest prefix that fits, from rows that fit. -/
theorem boundRows_longest {maxBytes encodedBytes : Nat} {rows : List Json} (others : List Json)
    (counted : encodedBytes = Json.size (.array rows)) (fits : 2 ≤ maxBytes → encodedBytes ≤ maxBytes) :
    TakesLongest (rows ++ others) maxBytes (boundRows maxBytes others rows encodedBytes).rows
      (boundRows maxBytes others rows encodedBytes).encodedBytes
      (boundRows maxBytes others rows encodedBytes).truncated := by
  induction others generalizing rows encodedBytes with
  | nil =>
    subst counted
    rw [List.append_nil]
    exact Json.takesLongest_all fits
  | cons row others ih =>
    have next : encodedBytes + row.size + (if rows.length = 0 then 0 else 1) =
        Json.size (.array (rows ++ [row])) := by
      rw [Json.size_snoc, counted]
    rw [boundRows]
    by_cases long : maxBytes < encodedBytes + row.size + if rows.length = 0 then 0 else 1
    · rw [if_pos long]
      subst counted
      exact Json.takesLongest_of_next fits (next ▸ long)
    · rw [if_neg long]
      have taken := ih next fun _ => Nat.le_of_not_lt long
      rwa [List.append_assoc, List.singleton_append] at taken

variable {ν : Type} [JsonRuntime ν]

/-! ## Pages of the explorer -/

/-- The loop of a page is that of a preview on the rows' records. -/
theorem encodeRows_eq (maxBytes : Nat) (rows acceptedRows : List (Explorer.EncodedRow ν))
    (totalBytes : Nat) :
    (⟨(Explorer.encodeRows maxBytes rows acceptedRows totalBytes).rows.map toJson,
      (Explorer.encodeRows maxBytes rows acceptedRows totalBytes).encodedBytes,
      (Explorer.encodeRows maxBytes rows acceptedRows totalBytes).truncated⟩ : BoundedRows) =
    boundRows maxBytes (rows.map toJson)
      (acceptedRows.map toJson) totalBytes := by
  induction rows generalizing acceptedRows totalBytes with
  | nil => rfl
  | cons row rows ih =>
    have bytes : totalBytes + (Utf8.byteLength (Json.renderChars row.toJson) +
        if 0 < acceptedRows.length then 1 else 0) =
        totalBytes + row.toJson.size +
          if (acceptedRows.map toJson).length = 0 then 0 else 1 := by
      rw [List.length_map, Json.size]
      split_ifs <;> omega
    rw [Explorer.encodeRows, List.map_cons, boundRows, bytes]
    by_cases long : maxBytes < totalBytes + row.toJson.size +
        if (acceptedRows.map toJson).length = 0 then 0 else 1
    · rw [if_pos long, if_pos long]
    · rw [if_neg long, if_neg long, ih, List.map_append, List.map_cons, List.map_nil]

/-- A page has rows of its input from the first on. -/
theorem encodeRows_initial (maxBytes : Nat) (rows acceptedRows : List (Explorer.EncodedRow ν))
    (totalBytes : Nat) :
    (Explorer.encodeRows maxBytes rows acceptedRows totalBytes).rows <+: acceptedRows ++ rows := by
  induction rows generalizing acceptedRows totalBytes with
  | nil => exact List.prefix_append acceptedRows []
  | cons row rows ih =>
    rw [Explorer.encodeRows]
    by_cases long : maxBytes < totalBytes + (Utf8.byteLength (Json.renderChars row.toJson) +
        if 0 < acceptedRows.length then 1 else 0)
    · rw [if_pos long]
      exact List.prefix_append acceptedRows (row :: rows)
    · have later := ih (acceptedRows ++ [row]) (totalBytes +
        (Utf8.byteLength (Json.renderChars row.toJson) + if 0 < acceptedRows.length then 1 else 0))
      rw [if_neg long]
      rwa [List.append_assoc, List.singleton_append] at later

/-! ## Rows of a query -/

/-- A value of any kind as it is met from a row downwards. A value without a JSON form is absent, and
an object that is met inside itself is circular. -/
inductive HostValue (ν : Type) where
  | absent
  | null
  | boolean (value : Bool)
  | number (value : ν)
  | bigint (value : Int)
  | string (value : String)
  | date (time : Option Int)
  | buffer (bytes : List UInt8)
  | array (items : List (HostValue ν))
  | object (properties : List (String × HostValue ν))
  | circular

namespace HostValue

mutual

/-- `normalizeValue` of a value of any kind. -/
def normalizeValue (numberString : ν → String) (depth : Nat) : HostValue ν → Json
  | .null => .null
  | .boolean value => .boolean value
  | .string value => .string value
  | .number value =>
    match JsonRuntime.numberText value with
    | some literal => .number literal
    | none => .string (numberString value)
  | .bigint value => .string (String.ofList (Numeral.integerText value))
  | .absent => .null
  | .buffer bytes => .string (String.ofList ('\\' :: 'x' :: hexText bytes))
  | .date (some time) => .string (JsonRuntime.isoText ν time)
  | .date none => .null
  | .circular =>
    if maxDepth ≤ depth then .string "[Unsupported result value]"
    else .string "[Circular result value]"
  | .array items =>
    if maxDepth ≤ depth then .string "[Unsupported result value]"
    else .array (normalizeItems numberString (depth + 1) items)
  | .object properties =>
    if maxDepth ≤ depth then .string "[Unsupported result value]"
    else .object (normalizeProperties numberString (depth + 1) properties)

/-- The items of an array. -/
def normalizeItems (numberString : ν → String) (depth : Nat) : List (HostValue ν) → List Json
  | [] => []
  | item :: rest =>
    normalizeValue numberString depth item :: normalizeItems numberString depth rest

/-- The properties of an object; `result['__proto__'] = …` writes none. -/
def normalizeProperties (numberString : ν → String) (depth : Nat) :
    List (String × HostValue ν) → List (String × Json)
  | [] => []
  | (name, value) :: rest =>
    if name = "__proto__" then normalizeProperties numberString depth rest
    else
      (name, normalizeValue numberString depth value) ::
        normalizeProperties numberString depth rest

end

/-- `encodeBoundedRows` of rows of any kind; nothing where the limit is invalid. -/
def encodeBoundedRows (numberString : ν → String) (rows : List (HostValue ν)) (maxBytes : ν) :
    Option BoundedRows :=
  match JsonRuntime.safeInteger maxBytes with
  | none => none
  | some limit =>
    if limit < 2 then none
    else some (boundRows limit.toNat (rows.map (normalizeValue numberString 0)) [] 2)

end HostValue

/-- Both encoders take the longest prefix of their rows whose array fits the budget, report the bytes
of that array and tell whether a row was left out; the second refuses a budget below two. -/
theorem byte_budget :
    (∀ (rows : List (Explorer.EncodedRow ν)) (maxBytes : Nat),
      (Explorer.encodeRowPage rows maxBytes).rows <+: rows ∧
      TakesLongest (rows.map Explorer.EncodedRow.toJson) maxBytes
        ((Explorer.encodeRowPage rows maxBytes).rows.map Explorer.EncodedRow.toJson)
        (Explorer.encodeRowPage rows maxBytes).encodedBytes
        (Explorer.encodeRowPage rows maxBytes).truncated) ∧
    (∀ (numberString : ν → String) (rows : List (HostValue ν)) (maxBytes : ν),
      (HostValue.encodeBoundedRows numberString rows maxBytes = none ∧
        ∀ limit, JsonRuntime.safeInteger maxBytes = some limit → limit < 2) ∨
      ∃ limit : Nat, ∃ result, JsonRuntime.safeInteger maxBytes = some (limit : Int) ∧ 2 ≤ limit ∧
        HostValue.encodeBoundedRows numberString rows maxBytes = some result ∧
        TakesLongest (rows.map (HostValue.normalizeValue numberString 0)) limit result.rows
          result.encodedBytes result.truncated) := by
  have empty : 2 = Json.size (.array []) := by decide
  refine ⟨fun rows maxBytes => ?_, fun numberString rows maxBytes => ?_⟩
  · have same := encodeRows_eq maxBytes rows [] 2
    have taken := boundRows_longest (rows.map toJson) empty
      fun enough : 2 ≤ maxBytes => enough
    refine ⟨encodeRows_initial maxBytes rows [] 2, ?_⟩
    rw [List.map_nil] at same
    rw [List.nil_append, ← same] at taken
    exact taken
  · unfold HostValue.encodeBoundedRows
    cases safe : JsonRuntime.safeInteger maxBytes with
    | none => exact .inl ⟨rfl, fun limit other => by cases other⟩
    | some limit =>
      by_cases small : limit < 2
      · refine .inl ⟨if_pos small, fun other same => ?_⟩
        cases same
        exact small
      · have natural : limit = (limit.toNat : Int) := by omega
        have taken := boundRows_longest (rows.map (HostValue.normalizeValue numberString 0)) empty
          fun enough : 2 ≤ limit.toNat => enough
        exact .inr ⟨limit.toNat, _, congrArg some natural, by omega, if_neg small, taken⟩

end SqlWorker

end NancyMan
