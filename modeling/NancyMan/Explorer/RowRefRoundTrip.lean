import Mathlib.Data.List.Dedup
import NancyMan.Explorer.CursorRoundTrip
import NancyMan.Explorer.RowRefEstimate
import NancyMan.Lib.Fallible
import NancyMan.Lib.JsonObject

/-!
# Opening a row reference that was sealed

`encodeRowRefIfWithinLimit` writes dates and bytes as tagged objects and every other claim as it is;
`reviveRowRefPayload` takes them apart again. A reference comes back with its claims, each of its own
kind, except for a column named `__proto__`, whose claim is assigned and so becomes no property, and
for a number that its own JSON text does not denote, which is negative zero.
-/
namespace NancyMan.Explorer

open JsonUnits Json JsonRuntime
open List (mapM_cons map_cons mem_map)
open Option (bind_eq_some_iff map_eq_none_iff map_eq_some_iff)

/-- A key value that a caller passes: one of the driver's or of another kind, such as `undefined`. -/
inductive RowRefClaim (ν : Type) where
  | known (value : PgValue ν)
  | other

/-- The claims that `encodeRowRefIfWithinLimit` is given; an object has one property of a name. -/
structure RowRefClaims (ν : Type) where
  context : Context
  issuedAt : Int
  expiresAt : Int
  keys : List (String × RowRefClaim ν)
  names_nodup : (keys.map Prod.fst).Nodup

section

variable {ν : Type} [JsonRuntime ν]

/-! ## Encoding -/

/-- What the estimate reads of a claim. -/
def RowRefClaim.units : RowRefClaim ν → UnitClaim ν
  | .known .null => .null
  | .known (.boolean value) => .boolean value
  | .known (.number value) => .number value
  | .known (.string value) => .string (unitText value)
  | .known (.date time) => .date time
  | .known (.buffer bytes) => .buffer bytes
  | .known (.structured _) | .other => .other

/-- What the estimate reads of a row reference. -/
def RowRefClaims.units (rowRef : RowRefClaims ν) : UnitRowRef ν where
  targetId := rowRef.context.targetId
  schema := unitText rowRef.context.schema
  relation := unitText rowRef.context.relation
  checksum := unitText rowRef.context.checksum
  issuedAt := rowRef.issuedAt
  expiresAt := rowRef.expiresAt
  keys := rowRef.keys.map fun key => (unitText key.1, key.2.units)

/-- A claim of `rowRefPayloadForEncryption`; a claim that has an estimate has one. -/
def RowRefClaim.payload : RowRefClaim ν → Option Json
  | .known .null => some .null
  | .known (.boolean value) => some (.boolean value)
  | .known (.number value) => (JsonRuntime.numberText value).map .number
  | .known (.string value) => some (.string value)
  | .known (.date time) => time.map fun time =>
    .object [(rowRefDateTag, .string (JsonRuntime.isoText ν time))]
  | .known (.buffer bytes) =>
    some (.object [(rowRefBinaryTag, .string (String.ofList (Base64Url.encodePadded bytes)))])
  | .known (.structured _) | .other => none

def sealedClaim (key : String × RowRefClaim ν) : Option (String × Json) :=
  key.2.payload.map fun value => (key.1, value)

/-- `rowRefPayloadForEncryption`. -/
def RowRefClaims.payload (rowRef : RowRefClaims ν) : Option Json :=
  (rowRef.keys.mapM sealedClaim).map fun keys =>
    .object [("version", jsonInteger 1), ("targetId", .string rowRef.context.targetId.text),
      ("schema", .string rowRef.context.schema), ("relation", .string rowRef.context.relation),
      ("checksum", .string rowRef.context.checksum), ("issuedAt", jsonInteger rowRef.issuedAt),
      ("expiresAt", jsonInteger rowRef.expiresAt), ("keys", .object keys)]

def validateRowRefShape (rowRef : RowRefClaims ν) : Bool :=
  validateContext rowRef.context && validateTimes rowRef.issuedAt rowRef.expiresAt &&
    !rowRef.keys.isEmpty && rowRef.keys.all fun key => key.1 ≠ ""

def encodeRowRefIfWithinLimit (crypto : TokenCrypto) (nonce : Nonce) (rowRef : RowRefClaims ν)
    (key : String) : Except ExplorerError (Option String) :=
  if !validateRowRefShape rowRef then .error cursorError
  else
    match estimateRowRefPlaintextBytes rowRef.units with
    | none => .ok none
    | some _ =>
      match rowRef.payload with
      | none => .error cursorError
      | some payload => sealToken crypto nonce.bytes .rowRef rowRef.context payload key true

def encodeRowRef (crypto : TokenCrypto) (nonce : Nonce) (rowRef : RowRefClaims ν) (key : String) :
    Except ExplorerError String :=
  match encodeRowRefIfWithinLimit crypto nonce rowRef key with
  | .error error => .error error
  | .ok none => .error cursorError
  | .ok (some encoded) => .ok encoded

/-! ## The sealed text is the estimated one -/

/-- The text of a claim's payload is the one that the estimate counts. -/
theorem stringify_claim (claim : RowRefClaim ν) :
    claim.units.payload.map stringify = claim.payload.map renderChars := by
  have tagged (tag text : String) :
      stringify (.object [(unitText tag, .string (unitText text))]) =
        renderChars (.object [(tag, .string text)]) := by
    simp only [stringify, stringifyProperties, stringifyMore,
      renderChars, renderProperties, renderMoreProperties, unitText,
      renderUnits_utf16]
  cases claim with
  | other => rfl
  | known value =>
    cases value with
    | null => rfl
    | boolean value => cases value <;> rfl
    | number value =>
      show ((numberText value).map JsonUnits.Value.number).map _ =
        ((numberText value).map Json.number).map _
      cases numberText value with
      | none => rfl
      | some literal => rfl
    | string value => exact congrArg some (renderUnits_utf16 value.toList)
    | date time =>
      cases time with
      | none => rfl
      | some time => exact congrArg some (tagged rowRefDateTag (isoText ν time))
    | buffer bytes =>
      have text : unitText (String.ofList (Base64Url.encodePadded bytes)) =
          utf16 (Base64Url.encodePadded bytes) := by
        rw [unitText, String.toList_ofList]
      have same := tagged rowRefBinaryTag (String.ofList (Base64Url.encodePadded bytes))
      rw [text] at same
      exact congrArg some same
    | structured value => rfl

def unitTexts (property : Units × JsonUnits.Value) : List Char × List Char :=
  (JsonUnits.renderUnits property.1, JsonUnits.stringify property.2)

def jsonTexts (property : String × Json) : List Char × List Char :=
  (Json.renderString property.1.toList, Json.renderChars property.2)

variable {properties : List (String × Json)} {units : List (Units × JsonUnits.Value)}
  {claim : RowRefClaim ν} {payload : Json} {keys : List (String × RowRefClaim ν)}
  {parseDate : String → Option Int} {crypto : TokenCrypto} {nonce : Nonce} {key token : String}

/-- The text of the properties after the first depends on the texts of each. -/
theorem stringifyMore_eq (same : units.map unitTexts = properties.map jsonTexts) :
    stringifyMore units = renderMoreProperties properties := by
  induction units generalizing properties with
  | nil =>
    have empty : properties = [] := List.map_eq_nil_iff.mp same.symm
    rw [empty]
    rfl
  | cons unit units ih =>
    cases properties with
    | nil => cases same
    | cons property properties =>
      obtain ⟨first, rest⟩ := List.cons.inj same
      obtain ⟨name, value⟩ := Prod.mk.inj first
      rw [stringifyMore, renderMoreProperties, name, value, ih rest]

/-- The text of an object depends on the texts of its properties. -/
theorem stringify_object (same : units.map unitTexts = properties.map jsonTexts) :
    stringify (.object units) = renderChars (.object properties) := by
  rw [stringify, renderChars]
  cases units with
  | nil =>
    have empty : properties = [] := List.map_eq_nil_iff.mp same.symm
    rw [empty]
    rfl
  | cons unit units =>
    cases properties with
    | nil => cases same
    | cons property properties =>
      obtain ⟨first, rest⟩ := List.cons.inj same
      obtain ⟨name, value⟩ := Prod.mk.inj first
      rw [stringifyProperties, renderProperties, name, value, stringifyMore_eq rest]

/-- The texts of the claims that are sealed are those that the estimate counts. -/
theorem texts_claims (keys : List (String × RowRefClaim ν)) :
    (payloads (keys.map fun key => (unitText key.1, key.2.units))).map (List.map unitTexts) =
      (keys.mapM sealedClaim).map (List.map jsonTexts) := by
  induction keys with
  | nil => rfl
  | cons key rest ih =>
    obtain ⟨name, claim⟩ := key
    have value := stringify_claim claim
    have quoted : renderUnits (unitText name) = renderString name.toList :=
      renderUnits_utf16 name.toList
    rw [map_cons, payloads_cons, mapM_cons, sealedClaim]
    cases counted : claim.units.payload with
    | none =>
      rw [counted] at value
      rw [map_eq_none_iff.mp value.symm]
      rfl
    | some unit =>
      rw [counted] at value
      obtain ⟨payload, sealed, text⟩ := map_eq_some_iff.mp value.symm
      have first : unitTexts (unitText name, unit) = jsonTexts (name, payload) := by
        rw [unitTexts, jsonTexts, quoted, text]
      rw [sealed]
      cases counted : payloads (rest.map fun key => (unitText key.1, key.2.units)) with
      | none =>
        rw [counted] at ih
        rw [map_eq_none_iff.mp ih.symm]
        rfl
      | some units =>
        rw [counted] at ih
        obtain ⟨properties, others, texts⟩ := map_eq_some_iff.mp ih.symm
        rw [others]
        show some (unitTexts (unitText name, unit) :: units.map unitTexts) =
          some (jsonTexts (name, payload) :: properties.map jsonTexts)
        rw [first, texts]

/-- The text that is sealed is the one that the estimate counts. -/
theorem stringify_payload (rowRef : RowRefClaims ν) :
    rowRef.units.payload.map stringify = rowRef.payload.map renderChars := by
  have claims := texts_claims rowRef.keys
  unfold UnitRowRef.payload RowRefClaims.payload
  cases sealed : rowRef.keys.mapM sealedClaim with
  | none =>
    rw [sealed] at claims
    have none_ : payloads rowRef.units.keys = none := map_eq_none_iff.mp claims
    rw [none_]
    rfl
  | some properties =>
    rw [sealed] at claims
    obtain ⟨units, counted, texts⟩ := map_eq_some_iff.mp claims
    have some_ : payloads rowRef.units.keys = some units := counted
    rw [some_]
    refine congrArg some (stringify_object ?_)
    have object := stringify_object texts
    have keys := (List.cons.inj object).2
    have quoted (text : String) : renderUnits (unitText text) =
        renderString text.toList := renderUnits_utf16 text.toList
    simp [unitTexts, jsonTexts, RowRefClaims.units, stringify, renderChars, quoted,
      jsonInteger, keys]

/-! ## Reviving a claim -/

/-- A value as its own JSON text denotes it, which for a number loses the sign of zero. -/
def PgValue.readBack : PgValue ν → PgValue ν
  | .number value =>
    match JsonRuntime.numberText value with
    | some literal => .number (JsonRuntime.readNumber literal)
    | none => .number value
  | other => other

/-- Properties with distinct names are the entries of their object. -/
theorem objectEntries_nodup (distinct : (properties.map Prod.fst).Nodup) :
    objectEntries properties = properties := by
  have each : ∀ property ∈ properties, (lastProperty property.1 properties).map
      (fun value => (property.1, value)) = some property := by
    rintro ⟨name, value⟩ member
    rw [lastProperty_of_mem distinct member, Option.map_some]
  rw [objectEntries, List.dedup_eq_self.mpr distinct, List.filterMap_map]
  exact (List.filterMap_congr each).trans List.filterMap_some

theorem objectEntries_singleton (name : String) (value : Json) :
    objectEntries [(name, value)] = [(name, value)] :=
  objectEntries_nodup (List.nodup_singleton name)

/-- A claim that has a payload is a value, and the payload is revived to it. -/
theorem reviveClaim_payload (parseDate : String → Option Int)
    (dates : ∀ time, claim = .known (.date (some time)) →
      parseDate (isoText ν time) = some time) (sealed : claim.payload = some payload) :
    ∃ value, claim = .known value ∧ reviveClaim parseDate payload = some value.readBack := by
  cases claim with
  | other => cases sealed
  | known value =>
    refine ⟨value, rfl, ?_⟩
    cases value with
    | null =>
      cases sealed
      rfl
    | boolean value =>
      cases sealed
      rfl
    | number value =>
      have read : (numberText value).map Json.number = some payload := sealed
      obtain ⟨literal, written, rfl⟩ := map_eq_some_iff.mp read
      have kept := numberText_readNumber written
      simp [reviveClaim, PgValue.readBack, written, kept]
    | string value =>
      cases sealed
      rfl
    | date time =>
      have read : time.map (fun time => object
          [(rowRefDateTag, .string (isoText ν time))]) = some payload := sealed
      obtain ⟨time, rfl, rfl⟩ := map_eq_some_iff.mp read
      have apart : rowRefDateTag ≠ rowRefBinaryTag := by decide
      simp [reviveClaim, objectEntries_singleton, apart, dates time rfl, PgValue.readBack]
    | buffer bytes =>
      cases sealed
      simp [reviveClaim, objectEntries_singleton, PgValue.readBack]
    | structured value => cases sealed

/-! ## Opening the token -/

/-- An entry of the claims as it is read back. -/
def revivedClaim (key : String × RowRefClaim ν) : Option (String × PgValue ν) :=
  match key.2 with
  | .known value => some (key.1, value.readBack)
  | .other => none

def RowRefClaims.revived (rowRef : RowRefClaims ν) : List (String × PgValue ν) :=
  (rowRef.keys.filterMap revivedClaim).filter fun key => key.1 ≠ "__proto__"

/-- `Date.parse` reads the dates of a row reference from their text. -/
def ParsesDates (parseDate : String → Option Int) (keys : List (String × RowRefClaim ν)) : Prop :=
  ∀ name time, (name, RowRefClaim.known (.date (some time))) ∈ keys →
    parseDate (JsonRuntime.isoText ν time) = some time

/-- The sealed claims keep their names. -/
theorem names_sealed (sealed : keys.mapM sealedClaim = some properties) :
    properties.map Prod.fst = keys.map Prod.fst := by
  induction keys generalizing properties with
  | nil =>
    cases sealed
    rfl
  | cons key rest ih =>
    rw [mapM_cons] at sealed
    obtain ⟨property, first, later⟩ := bind_eq_some_iff.mp sealed
    obtain ⟨others, more, same⟩ := bind_eq_some_iff.mp later
    obtain ⟨value, -, rfl⟩ := map_eq_some_iff.mp first
    cases same
    rw [map_cons, map_cons, ih more]

/-- The sealed claims are revived in order. -/
theorem revive_sealed (dates : ParsesDates parseDate keys)
    (sealed : keys.mapM sealedClaim = some properties) :
    (properties.mapM fun claim => (reviveClaim parseDate claim.2).map fun value => (claim.1, value)) =
      some (keys.filterMap revivedClaim) := by
  induction keys generalizing properties with
  | nil =>
    cases sealed
    rfl
  | cons key rest ih =>
    rw [mapM_cons] at sealed
    obtain ⟨property, first, later⟩ := bind_eq_some_iff.mp sealed
    obtain ⟨others, more, same⟩ := bind_eq_some_iff.mp later
    cases same
    obtain ⟨name, claim⟩ := key
    obtain ⟨payload, written, rfl⟩ := map_eq_some_iff.mp first
    obtain ⟨value, known, revived⟩ := reviveClaim_payload parseDate
      (fun time same => dates name time (same ▸ (.head _))) written
    have here : revivedClaim (name, claim) = some (name, value.readBack) := by
      rw [revivedClaim, known]
    rw [mapM_cons, revived, List.filterMap_cons_some here,
      ih (fun other time member => dates other time (.tail _ member)) more]
    rfl

variable {rowRef : RowRefClaims ν}

/-- The payload of a valid row reference is read back, except for a column `__proto__`. -/
theorem ofJson?_payload (dates : ParsesDates parseDate rowRef.keys)
    (valid : validateRowRefShape rowRef) (sealed : rowRef.payload = some payload) :
    RowRefData.ofJson? parseDate payload =
      some ⟨rowRef.context, rowRef.issuedAt, rowRef.expiresAt, rowRef.revived⟩ := by
  obtain ⟨properties, claims, rfl⟩ := map_eq_some_iff.mp sealed
  simp only [validateRowRefShape, Bool.and_eq_true] at valid
  obtain ⟨⟨⟨-, times⟩, -⟩, -⟩ := valid
  obtain ⟨⟨issuedLow, issuedHigh⟩, expiresLow, expiresHigh⟩ := validateTimes_safe times
  have version : integer? ν (jsonInteger 1) = some 1 :=
    integer?_jsonInteger (by decide) (by decide)
  have issued : integer? ν (jsonInteger rowRef.issuedAt) = some rowRef.issuedAt :=
    integer?_jsonInteger issuedLow issuedHigh
  have expires : integer? ν (jsonInteger rowRef.expiresAt) = some rowRef.expiresAt :=
    integer?_jsonInteger expiresLow expiresHigh
  have entries : objectEntries properties = properties :=
    objectEntries_nodup (names_sealed claims ▸ rowRef.names_nodup)
  have revived := revive_sealed dates claims
  simp [RowRefData.ofJson?, property?, lastProperty, string?, version, issued,
    expires, entries, revived, RowRefClaims.revived]

/-- What an accepted row reference is. -/
theorem encodeRowRefIfWithinLimit_token
    (accepted : encodeRowRefIfWithinLimit crypto nonce rowRef key = .ok (some token)) :
    validateRowRefShape rowRef ∧ ∃ payload, rowRef.payload = some payload ∧
      sealToken crypto nonce.bytes .rowRef rowRef.context payload key true = .ok (some token) := by
  unfold encodeRowRefIfWithinLimit at accepted
  cases valid : validateRowRefShape rowRef with
  | false =>
    rw [valid] at accepted
    cases accepted
  | true =>
    rw [valid, Bool.not_true, if_neg Bool.false_ne_true] at accepted
    cases estimated : estimateRowRefPlaintextBytes rowRef.units with
    | none =>
      rw [estimated] at accepted
      cases accepted
    | some bytes =>
      rw [estimated] at accepted
      cases sealed : rowRef.payload with
      | none =>
        rw [sealed] at accepted
        cases accepted
      | some payload =>
        rw [sealed] at accepted
        exact ⟨rfl, payload, rfl, accepted⟩

/-- A row reference with an estimate is sealed under a valid key. -/
theorem encodeRowRefIfWithinLimit_estimated {encryptionKey : List UInt8} {bytes : Nat}
    (valid : validateRowRefShape rowRef)
    (estimated : estimateRowRefPlaintextBytes rowRef.units = some bytes)
    (derived : deriveEncryptionKey crypto key .rowRef = .ok encryptionKey) :
    ∃ token, encodeRowRefIfWithinLimit crypto nonce rowRef key = .ok (some token) := by
  have context : validateContext rowRef.context := by
    simp only [validateRowRefShape, Bool.and_eq_true] at valid
    exact valid.1.1.1
  have exact := estimateRowRefPlaintextBytes_eq rowRef.units
  have texts := stringify_payload rowRef
  rw [estimated] at exact
  obtain ⟨units, counted, small⟩ := bind_eq_some_iff.mp exact.symm
  rw [counted] at texts
  obtain ⟨payload, written, text⟩ := map_eq_some_iff.mp texts.symm
  have length : Utf8.byteLength (renderChars payload) ≤ rowRefPreflightPlaintextBytes := by
    rw [text]
    exact Int.ofNat_le.mp (Option.ite_none_right_eq_some.mp small).1
  obtain ⟨token, sealed⟩ := sealRowRefText_of_small crypto encryptionKey
    (contextAad .rowRef rowRef.context) nonce length
  refine ⟨String.ofList token, ?_⟩
  unfold sealRowRefText at sealed
  dsimp only at sealed
  unfold encodeRowRefIfWithinLimit
  rw [valid, estimated, written, Bool.not_true, if_neg Bool.false_ne_true]
  dsimp only
  unfold sealToken
  rw [if_pos context, derived]
  split at sealed
  · cases sealed
  · next plaintext =>
    split at sealed
    · cases sealed
    · next whole =>
      cases sealed
      rw [if_neg plaintext]
      exact if_neg whole

/-- The names of a valid row reference that are read back are not empty. -/
theorem revived_names (valid : validateRowRefShape rowRef) :
    (rowRef.revived.all fun key => key.1 ≠ "") := by
  simp only [validateRowRefShape, Bool.and_eq_true, List.all_eq_true] at valid
  refine List.all_eq_true.mpr fun key member => ?_
  obtain ⟨⟨name, claim⟩, among, revived⟩ :=
    List.mem_filterMap.mp (List.mem_of_mem_filter member)
  have named := valid.2 (name, claim) among
  cases claim with
  | other => cases revived
  | known value =>
    cases revived
    exact named

/-- A token of a row reference is decoded, before it expires and under its own key and context, to
the claims that are read back, and refused when there is none. -/
theorem decodeRowRef_encodeRowRef {now : Int} (dates : ParsesDates parseDate rowRef.keys)
    (accepted : encodeRowRefIfWithinLimit crypto nonce rowRef key = .ok (some token))
    (timely : now < rowRef.expiresAt) :
    decodeRowRef crypto parseDate token key rowRef.context now =
      if rowRef.revived = [] then .error cursorError
      else .ok ⟨rowRef.context, rowRef.issuedAt, rowRef.expiresAt, rowRef.revived⟩ := by
  obtain ⟨valid, payload, written, sealed⟩ := encodeRowRefIfWithinLimit_token accepted
  have opened := openToken_sealToken ν nonce.length_bytes sealed
  have read := ofJson?_payload dates valid written
  have names := revived_names valid
  have shape := valid
  simp only [validateRowRefShape, Bool.and_eq_true] at shape
  obtain ⟨⟨⟨context, times⟩, -⟩, -⟩ := shape
  by_cases empty : rowRef.revived = []
  · have refused : validateRowRef (⟨rowRef.context, rowRef.issuedAt, rowRef.expiresAt,
        rowRef.revived⟩ : RowRefData ν) = false := by
      simp [validateRowRef, empty]
    unfold decodeRowRef
    rw [opened]
    dsimp only
    rw [read]
    dsimp only
    rw [refused, if_pos empty]
    rfl
  · have kept : validateRowRef (⟨rowRef.context, rowRef.issuedAt, rowRef.expiresAt,
        rowRef.revived⟩ : RowRefData ν) = true := by
      simp only [validateRowRef, context, times, names, Bool.true_and, Bool.and_true]
      simpa using empty
    rw [if_neg empty]
    exact decodeRowRef_opened opened read kept timely rfl

/-- Whether a claim is one that `validateRowRef` accepts: a scalar, bytes or a valid date. -/
def RowRefClaim.isSupported : RowRefClaim ν → Bool
  | .known .null | .known (.boolean _) | .known (.string _) | .known (.buffer _) => true
  | .known (.number value) => (JsonRuntime.numberText value).isSome
  | .known (.date time) => time.isSome
  | .known (.structured _) | .other => false

def RowRefData.Returns (decoded : RowRefData ν) (rowRef : RowRefClaims ν) : Prop :=
  decoded.keys.map (fun key => (key.1, RowRefClaim.known key.2)) = rowRef.keys

/-- A row reference without a column `__proto__` whose numbers are denoted by their own text. -/
def RowRefClaims.IsPlain (rowRef : RowRefClaims ν) : Prop :=
  (∀ claim, ("__proto__", claim) ∉ rowRef.keys) ∧
    ∀ name number literal, (name, RowRefClaim.known (.number number)) ∈ rowRef.keys →
      JsonRuntime.numberText number = some literal → JsonRuntime.readNumber literal = number

/-- A value that is read back is the value itself or another number. -/
theorem PgValue.readBack_kind (value : PgValue ν) :
    value.readBack = value ∨
      ∃ sent read, value = .number sent ∧ value.readBack = .number read := by
  cases value with
  | number value =>
    unfold PgValue.readBack
    dsimp only
    cases numberText value with
    | none => exact .inl rfl
    | some literal => exact .inr ⟨value, _, rfl, rfl⟩
  | _ => exact .inl rfl

/-- Every claim that is sealed is a value. -/
theorem known_of_sealed (sealed : keys.mapM sealedClaim = some properties) {name : String}
    (member : (name, claim) ∈ keys) : ∃ value, claim = .known value := by
  cases claim with
  | known value => exact ⟨value, rfl⟩
  | other =>
    have unsealed := Fallible.mapM_eq_none member (show sealedClaim (name, (.other : RowRefClaim ν)) = none from rfl)
    rw [sealed] at unsealed
    cases unsealed

/-- What is read back of a row reference comes from a claim of it. -/
theorem mem_revived {column : String} {read : PgValue ν}
    (member : (column, read) ∈ rowRef.revived) :
    column ≠ "__proto__" ∧ ∃ sent, (column, .known sent) ∈ rowRef.keys ∧ read = sent.readBack := by
  obtain ⟨found, named⟩ := List.mem_filter.mp member
  obtain ⟨⟨name, claim⟩, among, revived⟩ := List.mem_filterMap.mp found
  refine ⟨by simpa using named, ?_⟩
  cases claim with
  | other => cases revived
  | known sent =>
    cases revived
    exact ⟨sent, among, rfl⟩

/-- The claims that are read back are those of the row reference exactly when it is plain. -/
theorem revived_iff (sealed : rowRef.keys.mapM sealedClaim = some properties) :
    rowRef.revived.map (fun key => (key.1, RowRefClaim.known key.2)) = rowRef.keys ↔
      rowRef.IsPlain := by
  constructor
  · intro same
    have back {column : String} {claim : RowRefClaim ν} (member : (column, claim) ∈ rowRef.keys) :
        column ≠ "__proto__" ∧ ∃ sent, (column, .known sent) ∈ rowRef.keys ∧
          claim = .known sent.readBack := by
      rw [← same] at member
      obtain ⟨⟨name, read⟩, among, equal⟩ := mem_map.mp member
      cases equal
      obtain ⟨named, sent, given, rfl⟩ := mem_revived among
      exact ⟨named, sent, given, rfl⟩
    refine ⟨fun claim member => (back member).1 rfl, ?_⟩
    intro name number literal member written
    obtain ⟨-, sent, given, equal⟩ := back member
    have unique := (Fallible.lookup_of_mem rowRef.names_nodup given).symm.trans
      (Fallible.lookup_of_mem rowRef.names_nodup member)
    cases unique
    simpa [PgValue.readBack, written] using equal.symm
  · intro plain
    have each : ∀ key ∈ rowRef.keys, ((revivedClaim key).filter fun key => key.1 ≠ "__proto__").map
        (fun key => (key.1, RowRefClaim.known key.2)) = some key := by
      rintro ⟨name, claim⟩ member
      obtain ⟨value, rfl⟩ := known_of_sealed sealed member
      have named : name ≠ "__proto__" := fun same => plain.1 _ (same ▸ member)
      have kept : value.readBack = value := by
        cases value with
        | number number =>
          unfold PgValue.readBack
          dsimp only
          cases written : numberText number with
          | none => rfl
          | some literal =>
            dsimp only
            rw [plain.2 name number literal member written]
        | _ => rfl
      simp [revivedClaim, kept, named]
    rw [RowRefClaims.revived, List.filter_filterMap, List.map_filterMap]
    exact (List.filterMap_congr each).trans List.filterMap_some

/-- The estimate's claims have no payload when one of the claims is of no supported kind. -/
theorem unsupported_payload (unsupported : ∃ key ∈ rowRef.keys, key.2.isSupported = false) :
    rowRef.units.payload = none := by
  obtain ⟨⟨name, claim⟩, member, unsupported⟩ := unsupported
  have missing : claim.units.payload = none := by
    cases claim with
    | other => rfl
    | known value =>
      cases value with
      | number value =>
        have none_ : numberText value = none := Option.not_isSome_iff_eq_none.mp
          (Bool.eq_false_iff.mp unsupported)
        simp [RowRefClaim.units, UnitClaim.payload, none_]
      | date time =>
        have none_ : time = none := Option.not_isSome_iff_eq_none.mp
          (Bool.eq_false_iff.mp unsupported)
        simp [RowRefClaim.units, UnitClaim.payload, none_]
      | structured value => rfl
      | _ => cases unsupported
  have among : (unitText name, claim.units) ∈ rowRef.units.keys := mem_map.mpr ⟨_, member, rfl⟩
  have claims : payloads rowRef.units.keys = none :=
    Fallible.mapM_eq_none among (map_eq_none_iff.mpr missing)
  rw [UnitRowRef.payload, claims, Option.map_none]

/-- A row reference that is sealed comes back with its claims exactly when it has no column
`__proto__` and each of its numbers is denoted by its own text. Whatever comes back is a claim of its
column, of its own kind, and a claim of another kind yields no token. -/
theorem rowRef_round_trip {crypto : TokenCrypto} {nonce : Nonce} {parseDate : String → Option Int}
    {rowRef : RowRefClaims ν} {now : Int} (key : String)
    (dates : ParsesDates parseDate rowRef.keys) (timely : now < rowRef.expiresAt) :
    (∀ token, encodeRowRefIfWithinLimit crypto nonce rowRef key = .ok (some token) →
      ((∃ decoded, decodeRowRef crypto parseDate token key rowRef.context now = .ok decoded ∧
        decoded.Returns rowRef) ↔ rowRef.IsPlain) ∧
      ∀ decoded, decodeRowRef crypto parseDate token key rowRef.context now = .ok decoded →
        ∀ column read, (column, read) ∈ decoded.keys →
          ∃ sent, (column, .known sent) ∈ rowRef.keys ∧
            (read = sent ∨ ∃ number other, sent = .number number ∧ read = .number other)) ∧
    (validateRowRefShape rowRef = true → (∃ key ∈ rowRef.keys, key.2.isSupported = false) →
      encodeRowRefIfWithinLimit crypto nonce rowRef key = .ok none) := by
  refine ⟨fun token accepted => ?_, fun valid unsupported => ?_⟩
  · have decodes := decodeRowRef_encodeRowRef dates accepted timely
    obtain ⟨valid, payload, written, -⟩ := encodeRowRefIfWithinLimit_token accepted
    obtain ⟨properties, sealed, -⟩ := Option.map_eq_some_iff.mp written
    have plain := revived_iff sealed
    by_cases empty : rowRef.revived = []
    · rw [if_pos empty] at decodes
      rw [decodes]
      have some_ : rowRef.keys ≠ [] := by
        intro none_
        simp [validateRowRefShape, none_] at valid
      refine ⟨⟨?_, fun kept => ?_⟩, fun decoded refused => by cases refused⟩
      · rintro ⟨decoded, refused, -⟩
        cases refused
      · have same := plain.mpr kept
        rw [empty] at same
        exact absurd same.symm some_
    · rw [if_neg empty] at decodes
      rw [decodes]
      refine ⟨⟨?_, fun kept => ⟨_, rfl, plain.mpr kept⟩⟩, ?_⟩
      · rintro ⟨decoded, same, returned⟩
        cases same
        exact plain.mp returned
      · intro decoded same column read member
        cases same
        obtain ⟨-, sent, given, rfl⟩ := mem_revived member
        refine ⟨sent, given, ?_⟩
        rcases sent.readBack_kind with equal | number
        · exact .inl equal
        · exact .inr number
  · have estimated : estimateRowRefPlaintextBytes rowRef.units = none := by
      rw [estimateRowRefPlaintextBytes_eq, unsupported_payload unsupported, Option.bind_none]
    unfold encodeRowRefIfWithinLimit
    rw [valid, estimated]
    rfl

end

/-! ## Row references of a course -/

def someNonce : Nonce := ⟨List.replicate 12 0, rfl⟩

def someKey : String := "AAAAAAAAAAAAAAAAAAAAAAAAAAAAAAAAAAAAAAAAAAA="

/-- A key of bytes, a date and the text of the date tag. -/
def plainClaims : RowRefClaims Int where
  context := ⟨.ops, "public", "courses", "c"⟩
  issuedAt := 0
  expiresAt := cursorExpiryMs
  keys := [("id", .known (.buffer [7])), ("held", .known (.date (some 5))),
    ("name", .known (.string rowRefDateTag))]
  names_nodup := by decide

/-- `Date.parse` of the one date. -/
def parseFifth (text : String) : Option Int :=
  if text = JsonRuntime.isoText Int 5 then some 5 else none

/-- Bytes, a date and a text come back as they are. -/
theorem plain_claims_return :
    ∃ token, ∃ decoded : RowRefData Int,
      encodeRowRefIfWithinLimit TokenCrypto.plain someNonce plainClaims someKey =
        .ok (some token) ∧
      decodeRowRef TokenCrypto.plain parseFifth token someKey plainClaims.context 1 =
        .ok decoded ∧ decoded.Returns plainClaims := by
  have shape : validateRowRefShape plainClaims := by decide
  have estimated : ∃ bytes, estimateRowRefPlaintextBytes plainClaims.units = some bytes :=
    Option.isSome_iff_exists.mp (by decide +kernel)
  have derived : deriveEncryptionKey TokenCrypto.plain someKey .rowRef =
      .ok (List.replicate 32 0) := by decide +kernel
  obtain ⟨bytes, estimated⟩ := estimated
  obtain ⟨token, sealed⟩ := encodeRowRefIfWithinLimit_estimated shape estimated derived
  have dates : ParsesDates parseFifth plainClaims.keys := by
    intro name time member
    have fifth : name = "held" ∧ time = 5 := by simpa [plainClaims] using member
    rw [fifth.2]
    exact if_pos rfl
  have timely : 1 < plainClaims.expiresAt := by decide
  have plain : plainClaims.IsPlain := by
    constructor
    · intro claim member
      simp [plainClaims] at member
    · intro name number literal member
      simp [plainClaims] at member
  obtain ⟨decoded, opened, returned⟩ :=
    (((rowRef_round_trip someKey dates timely).1 token sealed).1).mpr plain
  exact ⟨token, decoded, sealed, opened, returned⟩

/-- The row reference of a row whose key has a column named `__proto__`. -/
def protoClaims : RowRefClaims Int where
  context := ⟨.ops, "public", "courses", "c"⟩
  issuedAt := 0
  expiresAt := cursorExpiryMs
  keys := [("id", .known (.buffer [7])), ("__proto__", .known (.number 8))]
  names_nodup := by decide

/-- The row reference is sealed. -/
theorem protoClaims_sealed : ∃ token,
    encodeRowRefIfWithinLimit TokenCrypto.plain someNonce protoClaims someKey =
      .ok (some token) := by
  have shape : validateRowRefShape protoClaims := by decide
  have estimated : ∃ bytes, estimateRowRefPlaintextBytes protoClaims.units = some bytes :=
    Option.isSome_iff_exists.mp (by decide +kernel)
  have derived : deriveEncryptionKey TokenCrypto.plain someKey .rowRef =
      .ok (List.replicate 32 0) := by decide +kernel
  obtain ⟨bytes, estimated⟩ := estimated
  exact encodeRowRefIfWithinLimit_estimated shape estimated derived

/-- Two claims are sealed and one comes back. -/
theorem proto_column_is_lost :
    ∃ token, ∃ decoded : RowRefData Int,
      encodeRowRefIfWithinLimit TokenCrypto.plain someNonce protoClaims someKey =
        .ok (some token) ∧
      decodeRowRef TokenCrypto.plain (fun _ => none) token someKey protoClaims.context 1 =
        .ok decoded ∧
      ("__proto__", RowRefClaim.known (.number 8)) ∈ protoClaims.keys ∧
      ∀ read, ("__proto__", read) ∉ decoded.keys := by
  obtain ⟨token, sealed⟩ := protoClaims_sealed
  have dates : ParsesDates (fun _ => none) protoClaims.keys := by
    intro name time member
    simp [protoClaims] at member
  have timely : 1 < protoClaims.expiresAt := by decide
  have decodes := decodeRowRef_encodeRowRef dates sealed timely
  have one : protoClaims.revived = [("id", .buffer [7])] := rfl
  have some_ : ¬ [("id", PgValue.buffer (ν := Int) [7])] = [] := by simp
  rw [one, if_neg some_] at decodes
  refine ⟨token, _, sealed, decodes, by simp [protoClaims], fun read member => ?_⟩
  simp at member

end NancyMan.Explorer
