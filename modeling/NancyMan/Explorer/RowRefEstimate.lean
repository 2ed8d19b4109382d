import NancyMan.Explorer.RelatedRows
import NancyMan.Lib.JsonUnits

/-!
# The size of a row reference before it is sealed

`estimateRowRefPlaintextBytes` counts the bytes of the JSON text of a reference without writing it,
unit by unit and with an early end. It returns that text's length exactly when the length is within
its budget, so that a reference with an estimate is never too long for a token.
-/
namespace NancyMan.Explorer

open JsonUnits Base64Url Utf8
open Option (bind_some map_some)

open JsonUnits (Units utf16)

/-- A value of a row reference; its strings are UTF-16 code units. -/
inductive UnitClaim (ν : Type) where
  | null
  | boolean (value : Bool)
  | number (value : ν)
  | string (text : Units)
  /-- A date with its time value, which an invalid date lacks. -/
  | date (time : Option Int)
  | buffer (bytes : List UInt8)
  /-- A value that is none of these. -/
  | other

/-- A row reference of a valid shape. -/
structure UnitRowRef (ν : Type) where
  targetId : DatabaseTargetId
  schema : Units
  relation : Units
  checksum : Units
  issuedAt : Int
  expiresAt : Int
  keys : List (Units × UnitClaim ν)

/-- `ROW_REF_PREFLIGHT_PLAINTEXT_BYTES`. -/
def rowRefPreflightPlaintextBytes : Nat :=
  (maxCursorBytes - tokenOverheadBytes .rowRef) * 3 / 4 - 16

def unitText (text : String) : Units := utf16 text.toList

section

variable {ν : Type} [JsonRuntime ν]

/-! ## The text that is sealed -/

/-- What `rowRefPayloadForEncryption` makes of a claim and `JSON.stringify` writes; a claim of
another kind is not sealed. -/
def UnitClaim.payload : UnitClaim ν → Option JsonUnits.Value
  | .null => some .null
  | .boolean value => some (.boolean value)
  | .number value => (JsonRuntime.numberText value).map .number
  | .string text => some (.string text)
  | .date time => time.map fun time =>
    .object [(unitText rowRefDateTag, .string (unitText (JsonRuntime.isoText ν time)))]
  | .buffer bytes =>
    some (.object [(unitText rowRefBinaryTag, .string (utf16 (Base64Url.encodePadded bytes)))])
  | .other => none

def payloads (keys : List (Units × UnitClaim ν)) : Option (List (Units × JsonUnits.Value)) :=
  keys.mapM fun key => key.2.payload.map fun value => (key.1, value)

/-- The payload of a row reference whose claims are all sealed. -/
def UnitRowRef.payload (rowRef : UnitRowRef ν) : Option JsonUnits.Value :=
  (payloads rowRef.keys).map fun keys =>
    .object [(unitText "version", .number (Numeral.ofInt 1)),
      (unitText "targetId", .string (unitText rowRef.targetId.text)),
      (unitText "schema", .string rowRef.schema), (unitText "relation", .string rowRef.relation),
      (unitText "checksum", .string rowRef.checksum),
      (unitText "issuedAt", .number (Numeral.ofInt rowRef.issuedAt)),
      (unitText "expiresAt", .number (Numeral.ofInt rowRef.expiresAt)),
      (unitText "keys", .object keys)]

/-! ## The estimate -/

/-- The loop of `jsonStringByteLength`, from the bytes counted so far. -/
def jsonStringLoop (maximumBytes : Int) : Nat → Units → Option Nat
  | bytes, [] => some bytes
  | bytes, [unit] =>
    let bytes : Nat := bytes + JsonUnits.unitBytes unit none
    if maximumBytes < bytes then none else some bytes
  | bytes, unit :: next :: rest =>
    let bytes : Nat := bytes + JsonUnits.unitBytes unit (some next)
    if maximumBytes < bytes then none
    else if JsonUnits.isHigh unit && JsonUnits.isLow next then jsonStringLoop maximumBytes bytes rest
    else jsonStringLoop maximumBytes bytes (next :: rest)

def jsonStringByteLength (value : Units) (maximumBytes : Int) : Option Nat :=
  let bytes : Nat := 2
  if maximumBytes < bytes then none else jsonStringLoop maximumBytes bytes value

/-- `Buffer.byteLength(JSON.stringify(text), 'utf8')`. -/
def literalBytes (text : String) : Nat := Utf8.byteLength (Json.renderString text.toList)

def within (bytes : Nat) (maximumBytes : Int) : Option Nat :=
  if (bytes : Int) ≤ maximumBytes then some bytes else none

def jsonValueByteLength (maximumBytes : Int) : UnitClaim ν → Option Nat
  | .null => within 4 maximumBytes
  | .boolean value => within (if value then 4 else 5) maximumBytes
  | .number value =>
    match JsonRuntime.numberText value with
    | some literal => within (Utf8.byteLength literal.text) maximumBytes
    | none => none
  | .string text => jsonStringByteLength text maximumBytes
  | .date none => none
  | .date (some time) =>
    let tagKeyBytes := literalBytes rowRefDateTag
    match jsonStringByteLength (unitText (JsonRuntime.isoText ν time))
      (maximumBytes - tagKeyBytes - 3) with
    | none => none
    | some dateBytes => some (2 + tagKeyBytes + 1 + dateBytes)
  | .buffer bytes =>
    let base64Bytes := (bytes.length + 2) / 3 * 4
    within (2 + literalBytes rowRefBinaryTag + 1 + 2 + base64Bytes) maximumBytes
  | .other => none

/-- The loop of `jsonObjectByteLength` over names and the bytes of their values. -/
def jsonObjectLoop (maximumBytes : Int) : Nat → Nat → List (Units × Nat) → Option Nat
  | bytes, _, [] => some bytes
  | bytes, index, property :: rest =>
    let separatorBytes : Nat := if 0 < index then 1 else 0
    if maximumBytes < (bytes + separatorBytes : Nat) then none
    else
      match jsonStringByteLength property.1 (maximumBytes - bytes - separatorBytes - 1) with
      | none => none
      | some keyBytes =>
        let bytes : Nat := bytes + separatorBytes + keyBytes + 1 + property.2
        if maximumBytes < bytes then none else jsonObjectLoop maximumBytes bytes (index + 1) rest

def jsonObjectByteLength (properties : List (Units × Nat)) (maximumBytes : Int) : Option Nat :=
  jsonObjectLoop maximumBytes 2 0 properties

/-- The loop of `estimateRowRefPlaintextBytes` over the claims. -/
def keysLoop (budget : Int) : Nat → Nat → List (Units × UnitClaim ν) → Option Nat
  | keysBytes, _, [] => some keysBytes
  | keysBytes, keyCount, (column, claim) :: rest =>
    let separatorBytes : Nat := if 0 < keyCount then 1 else 0
    match jsonStringByteLength column (budget - keysBytes - separatorBytes - 2) with
    | none => none
    | some columnBytes =>
      match jsonValueByteLength (budget - keysBytes - separatorBytes - columnBytes - 2) claim with
      | none => none
      | some claimBytes =>
        let keysBytes : Nat := keysBytes + separatorBytes + columnBytes + 1 + claimBytes
        if budget < keysBytes then none else keysLoop budget keysBytes (keyCount + 1) rest

def estimateRowRefPlaintextBytes (rowRef : UnitRowRef ν) : Option Nat :=
  let budget := rowRefPreflightPlaintextBytes
  match keysLoop budget 2 0 rowRef.keys with
  | none => none
  | some keysBytes =>
    jsonObjectByteLength [(unitText "version", 1),
      (unitText "targetId",
        (jsonStringByteLength (unitText rowRef.targetId.text) budget).getD (budget + 1)),
      (unitText "schema", (jsonStringByteLength rowRef.schema budget).getD (budget + 1)),
      (unitText "relation", (jsonStringByteLength rowRef.relation budget).getD (budget + 1)),
      (unitText "checksum", (jsonStringByteLength rowRef.checksum budget).getD (budget + 1)),
      (unitText "issuedAt",
        (within (Utf8.byteLength (Numeral.ofInt rowRef.issuedAt).text) budget).getD (budget + 1)),
      (unitText "expiresAt",
        (within (Utf8.byteLength (Numeral.ofInt rowRef.expiresAt).text) budget).getD (budget + 1)),
      (unitText "keys", keysBytes)] budget

/-! ## The estimate is exact -/

/-- A loop that may go on counts the units that are left. -/
theorem jsonStringLoop_eq {maximumBytes : Int} {bytes : Nat} (room : bytes ≤ maximumBytes)
    (text : Units) :
    jsonStringLoop maximumBytes bytes text =
      within (bytes + quotedBytes text) maximumBytes := by
  induction text using quoteUnits.induct generalizing bytes with
  | case1 => exact (if_pos room).symm
  | case2 unit =>
    unfold jsonStringLoop
    rw [quotedBytes]
    by_cases full : maximumBytes < (bytes + unitBytes unit none : Nat)
    · rw [if_pos full, within, if_neg (by omega)]
    · rw [if_neg full, within, if_pos (by omega)]
  | case3 unit next rest pair ih =>
    unfold jsonStringLoop
    dsimp only
    rw [quotedBytes, if_pos pair, if_pos pair]
    by_cases full : maximumBytes < (bytes + unitBytes unit (some next) : Nat)
    · rw [if_pos full, within, if_neg (by omega)]
    · rw [if_neg full, ih (by omega), Nat.add_assoc]
  | case4 unit next rest apart ih =>
    unfold jsonStringLoop
    dsimp only
    rw [quotedBytes, if_neg apart, if_neg apart]
    by_cases full : maximumBytes < (bytes + unitBytes unit (some next) : Nat)
    · rw [if_pos full, within, if_neg (by omega)]
    · rw [if_neg full, ih (by omega), Nat.add_assoc]

/-- The bytes of a string are counted exactly. -/
theorem jsonStringByteLength_eq (value : Units) (maximumBytes : Int) :
    jsonStringByteLength value maximumBytes =
      within (quotedBytes value + 2) maximumBytes := by
  unfold jsonStringByteLength
  by_cases full : maximumBytes < (2 : Nat)
  · rw [if_pos full, within, if_neg (by omega)]
  · rw [if_neg full, jsonStringLoop_eq (by omega), Nat.add_comm]

theorem literalBytes_eq (text : String) : literalBytes text = quotedBytes (unitText text) + 2 := by
  have units := byteLength_renderUnits (unitText text)
  unfold unitText at units ⊢
  rwa [renderUnits_utf16] at units

theorem size_tagged (tag : String) (text : Units) :
    size (.object [(unitText tag, .string text)]) =
      2 + literalBytes tag + 1 + (quotedBytes text + 2) := by
  rw [size_object, literalBytes_eq]
  simp only [List.map_cons, List.map_nil, List.sum_cons, List.sum_nil, List.length_cons,
    List.length_nil, propertySize, size_string]
  omega

theorem quotedBytes_base64 (bytes : List UInt8) :
    quotedBytes (utf16 (encodePadded bytes)) = (bytes.length + 2) / 3 * 4 := by
  have plain := forall_encodePadded (fun symbol =>
    Json.escape symbol = [symbol] ∧ symbol.toNat < 128) bytes (by decide +kernel) (by decide)
  rw [quotedBytes_plain (fun symbol member => (plain symbol member).1)
    (fun symbol member => (plain symbol member).2), length_encodePadded]

/-- The bytes of a claim are counted exactly. -/
theorem jsonValueByteLength_eq (claim : UnitClaim ν) (maximumBytes : Int) :
    jsonValueByteLength maximumBytes claim =
      claim.payload.bind fun value => within (size value) maximumBytes := by
  cases claim with
  | null => rfl
  | boolean value => cases value <;> rfl
  | number value =>
    unfold jsonValueByteLength UnitClaim.payload
    dsimp only
    cases JsonRuntime.numberText value with
    | none => rfl
    | some literal => rfl
  | string text =>
    show jsonStringByteLength text maximumBytes = within (size (.string text)) maximumBytes
    rw [jsonStringByteLength_eq, size_string]
  | date time =>
    cases time with
    | none => rfl
    | some time =>
      show _ = within (size (.object [(unitText rowRefDateTag,
        .string (unitText (JsonRuntime.isoText ν time)))])) maximumBytes
      rw [size_tagged]
      unfold jsonValueByteLength
      dsimp only
      rw [jsonStringByteLength_eq]
      unfold within
      split_ifs <;> first | rfl | omega
  | buffer bytes =>
    show within (2 + literalBytes rowRefBinaryTag + 1 + 2 + (bytes.length + 2) / 3 * 4)
      maximumBytes = within (size (.object [(unitText rowRefBinaryTag,
        .string (utf16 (encodePadded bytes)))])) maximumBytes
    rw [size_tagged, quotedBytes_base64]
    congr 1
    omega
  | other => rfl

/-- The bytes of properties whose values have known bytes, the first of them at an index. -/
def measuredBytes : Nat → List (Units × Nat) → Nat
  | _, [] => 0
  | index, property :: rest =>
    (if 0 < index then 1 else 0) + (JsonUnits.quotedBytes property.1 + 2) + 1 + property.2 +
      measuredBytes (index + 1) rest

/-- A loop that may go on counts the properties that are left. -/
theorem jsonObjectLoop_eq {maximumBytes : Int} {bytes : Nat} (room : bytes ≤ maximumBytes)
    (index : Nat) (properties : List (Units × Nat)) :
    jsonObjectLoop maximumBytes bytes index properties =
      within (bytes + measuredBytes index properties) maximumBytes := by
  induction properties generalizing bytes index with
  | nil => exact (if_pos room).symm
  | cons property rest ih =>
    unfold jsonObjectLoop measuredBytes
    dsimp only
    rw [jsonStringByteLength_eq]
    generalize (if 0 < index then 1 else 0) = separatorBytes
    by_cases comma : maximumBytes < (bytes + separatorBytes : Nat)
    · rw [if_pos comma, within, if_neg (by omega)]
    · rw [if_neg comma]
      by_cases named : ((quotedBytes property.1 + 2 : Nat) : Int) ≤
          maximumBytes - bytes - separatorBytes - 1
      · rw [within, if_pos named]
        dsimp only
        by_cases full : maximumBytes <
            (bytes + separatorBytes + (quotedBytes property.1 + 2) + 1 + property.2 : Nat)
        · rw [if_pos full, within, if_neg (by omega)]
        · rw [if_neg full, ih (by omega)]
          congr 1
          omega
      · rw [within, if_neg named, within, if_neg (by omega)]

/-- The payloads of claims start with that of the first. -/
theorem payloads_cons (column : Units) (claim : UnitClaim ν) (rest : List (Units × UnitClaim ν)) :
    payloads ((column, claim) :: rest) =
      claim.payload.bind fun value => (payloads rest).map fun values => (column, value) :: values := by
  unfold payloads
  rw [List.mapM_cons]
  cases claim.payload with
  | none => rfl
  | some value =>
    cases rest.mapM fun key : Units × UnitClaim ν => key.2.payload.map fun value => (key.1, value) with
    | none => rfl
    | some values => rfl

/-- A claim is counted when its payload leaves a byte for the rest of the reference. -/
theorem keysLoop_cons (budget : Int) (done : List (Units × JsonUnits.Value)) (column : Units)
    (claim : UnitClaim ν) (rest : List (Units × UnitClaim ν)) :
    keysLoop budget (size (.object done)) done.length ((column, claim) :: rest) =
      claim.payload.bind fun value =>
        if (size (.object (done ++ [(column, value)])) : Int) < budget then
          keysLoop budget (size (.object (done ++ [(column, value)])))
            (done.length + 1) rest
        else none := by
  rw [keysLoop, jsonStringByteLength_eq]
  simp only [jsonValueByteLength_eq]
  cases claim.payload with
  | none =>
    cases within (quotedBytes column + 2) _ with
    | none => rfl
    | some columnBytes => rfl
  | some value =>
    have step : size (.object (done ++ [(column, value)])) =
        size (.object done) + (if 0 < done.length then 1 else 0) +
          (quotedBytes column + 2) + 1 + size value := by
      rw [size_object_snoc, propertySize]
      dsimp only
      split_ifs <;> omega
    simp only [bind_some, step]
    generalize (if 0 < done.length then 1 else 0) = separatorBytes
    by_cases room : ((size (.object done) + separatorBytes +
        (quotedBytes column + 2) + 1 + size value : Nat) : Int) < budget
    · rw [if_pos room, within, if_pos (by omega)]
      dsimp only
      rw [within, if_pos (by omega)]
      dsimp only
      rw [if_neg (by omega)]
    · rw [if_neg room]
      by_cases named : ((quotedBytes column + 2 : Nat) : Int) ≤
          budget - size (.object done) - separatorBytes - 2
      · rw [within, if_pos named]
        dsimp only
        rw [within, if_neg (by omega)]
      · rw [within, if_neg named]

/-- The loop over claims returns the size of the object of their payloads, unless that leaves no
room for the rest of the reference. -/
theorem keysLoop_eq (budget : Int) (done : List (Units × JsonUnits.Value))
    (keys : List (Units × UnitClaim ν)) :
    keysLoop budget (size (.object done)) done.length keys =
      (payloads keys).bind fun values =>
        if values = [] ∨ (size (.object (done ++ values)) : Int) < budget then
          some (size (.object (done ++ values)))
        else none := by
  induction keys generalizing done with
  | nil =>
    have empty : payloads ([] : List (Units × UnitClaim ν)) = some [] := rfl
    rw [empty, bind_some, if_pos (.inl rfl), List.append_nil, keysLoop]
  | cons key rest ih =>
    obtain ⟨column, claim⟩ := key
    rw [keysLoop_cons, payloads_cons]
    cases claim.payload with
    | none => rfl
    | some value =>
      have length : done.length + 1 = (done ++ [(column, value)]).length := by
        rw [List.length_append, List.length_singleton]
      rw [bind_some, length, ih, bind_some]
      cases payloads rest with
      | none => exact ite_self none
      | some values =>
        have joined : done ++ [(column, value)] ++ values = done ++ (column, value) :: values := by
          rw [List.append_assoc, List.singleton_append]
        have grown := size_object_le (done ++ [(column, value)]) values
        simp only [bind_some, map_some, joined] at grown ⊢
        by_cases room : (size (.object (done ++ (column, value) :: values)) : Int) < budget
        · rw [if_pos (by omega), if_pos (.inr room), if_pos (.inr room)]
        · have full : ¬ ((column, value) :: values = [] ∨
              (size (.object (done ++ (column, value) :: values)) : Int) < budget) := by
            simp [room]
          rw [if_neg full]
          by_cases first : (size (.object (done ++ [(column, value)])) : Int) < budget
          · have more : values ≠ [] := fun none_ => room (none_ ▸ first)
            rw [if_pos first, if_neg (by simp [more, room])]
          · exact if_neg first

theorem getD_within (bytes budget : Nat) :
    (within bytes budget).getD (budget + 1) = min bytes (budget + 1) := by
  unfold within
  split_ifs with room
  · rw [Option.getD_some, Nat.min_eq_left (by omega)]
  · rw [Option.getD_none, Nat.min_eq_right (by omega)]

/-- The object of a row reference, from the bytes of its values. -/
def fixedProperties (targetId schema relation checksum issuedAt expiresAt keys : Nat) :
    List (Units × Nat) :=
  [(unitText "version", 1), (unitText "targetId", targetId), (unitText "schema", schema),
    (unitText "relation", relation), (unitText "checksum", checksum),
    (unitText "issuedAt", issuedAt), (unitText "expiresAt", expiresAt), (unitText "keys", keys)]

theorem measuredBytes_fixed (targetId schema relation checksum issuedAt expiresAt keys : Nat) :
    measuredBytes 0 (fixedProperties targetId schema relation checksum issuedAt expiresAt keys) =
      measuredBytes 0 (fixedProperties 0 0 0 0 0 0 0) + targetId + schema + relation + checksum +
        issuedAt + expiresAt + keys := by
  simp only [fixedProperties, measuredBytes]
  omega

omit [JsonRuntime ν] in
/-- The size of the payload of a row reference. -/
theorem size_fixed (rowRef : UnitRowRef ν) (values : List (Units × JsonUnits.Value)) :
    size (.object [(unitText "version", .number (Numeral.ofInt 1)),
      (unitText "targetId", .string (unitText rowRef.targetId.text)),
      (unitText "schema", .string rowRef.schema), (unitText "relation", .string rowRef.relation),
      (unitText "checksum", .string rowRef.checksum),
      (unitText "issuedAt", .number (Numeral.ofInt rowRef.issuedAt)),
      (unitText "expiresAt", .number (Numeral.ofInt rowRef.expiresAt)),
      (unitText "keys", .object values)]) =
    2 + measuredBytes 0 (fixedProperties (quotedBytes (unitText rowRef.targetId.text) + 2)
      (quotedBytes rowRef.schema + 2) (quotedBytes rowRef.relation + 2)
      (quotedBytes rowRef.checksum + 2)
      (byteLength (Numeral.ofInt rowRef.issuedAt).text)
      (byteLength (Numeral.ofInt rowRef.expiresAt).text)
      (size (.object values))) := by
  have version : size (.number (Numeral.ofInt 1)) = 1 := by decide
  have literal (value : Int) : size (.number (Numeral.ofInt value)) =
      byteLength (Numeral.ofInt value).text := rfl
  rw [size_object]
  simp only [fixedProperties, measuredBytes, propertySize, List.map_cons, List.map_nil,
    List.sum_cons, List.sum_nil, List.length_cons, List.length_nil, size_string, version]
  simp [literal]
  omega

/-- The estimate is the size of the payload exactly when that is within the budget. -/
theorem estimateRowRefPlaintextBytes_eq (rowRef : UnitRowRef ν) :
    estimateRowRefPlaintextBytes rowRef =
      rowRef.payload.bind fun payload =>
        within (size payload) rowRefPreflightPlaintextBytes := by
  have counted := keysLoop_eq rowRefPreflightPlaintextBytes [] rowRef.keys
  have empty : size (.object []) = 2 := by decide
  rw [empty, List.length_nil] at counted
  unfold estimateRowRefPlaintextBytes UnitRowRef.payload
  dsimp only
  rw [counted]
  cases payloads rowRef.keys with
  | none => rfl
  | some values =>
    rw [bind_some, map_some, bind_some, size_fixed, measuredBytes_fixed,
      List.nil_append]
    by_cases room : values = [] ∨ (size (.object values) : Int) < rowRefPreflightPlaintextBytes
    · rw [if_pos room]
      simp only [jsonStringByteLength_eq, getD_within]
      show jsonObjectLoop _ 2 0 (fixedProperties ..) = _
      rw [jsonObjectLoop_eq (by decide), measuredBytes_fixed]
      -- A value past the budget stays past it, whatever the others are.
      unfold within
      split_ifs with capped fits fits
      · congr 1
        omega
      · omega
      · omega
      · rfl
    · have full : ¬ ((size (.object values) : Int) < rowRefPreflightPlaintextBytes) :=
        fun small => room (.inr small)
      rw [if_neg room]
      exact (if_neg (by omega)).symm

/-! ## Sealing what was estimated -/

/-- `randomBytes(12)`. -/
structure Nonce where
  bytes : List UInt8
  length_bytes : bytes.length = 12

/-- What `seal` makes of the text of a row reference, or nothing when it is too long. -/
def sealRowRefText (crypto : TokenCrypto) (encryptionKey aad : List UInt8) (nonce : Nonce)
    (plaintext : List Char) : Option (List Char) :=
  if maxCursorBytes < tokenOverheadBytes .rowRef +
      ciphertextTextBytes (Utf8.byteLength plaintext) then none
  else
    let encrypted := crypto.encrypt encryptionKey nonce.bytes aad (Utf8.bytes plaintext)
    let sealed := joinParts [envelopeVersion.toList, TokenKind.rowRef.text.toList,
      Base64Url.encode nonce.bytes, Base64Url.encode encrypted.1, Base64Url.encode encrypted.2]
    if maxCursorBytes < Utf8.byteLength sealed then none else some sealed

/-- The text of bytes has one byte for each of its symbols. -/
theorem byteLength_encode (bytes : List UInt8) :
    byteLength (encode bytes) = encodedLength bytes.length := by
  have plain : ∀ value < 64, (symbolOf value).toNat < 128 := by decide +kernel
  have ascii : ∀ symbol ∈ encode bytes, symbol.toNat < 128 := by
    intro symbol member
    obtain ⟨value, among, rfl⟩ := List.mem_map.mp member
    exact plain value (sextets_small bytes value among)
  rw [byteLength_ascii ascii, length_encode]

/-- A token has the bytes of its parts and of the dots between them. -/
theorem byteLength_joinParts (a b c d e : List Char) :
    byteLength (joinParts [a, b, c, d, e]) =
      byteLength a + byteLength b + byteLength c + byteLength d +
        byteLength e + 4 := by
  have dot : byteLength ['.'] = 1 := by decide
  have joined : joinParts [a, b, c, d, e] =
      a ++ (['.'] ++ (b ++ (['.'] ++ (c ++ (['.'] ++ (d ++ (['.'] ++ e))))))) := by
    simp [joinParts, List.intercalate]
  rw [joined]
  simp only [byteLength_append, dot]
  omega

/-- A text whose length is within the budget is sealed. -/
theorem sealRowRefText_of_small (crypto : TokenCrypto) (encryptionKey aad : List UInt8)
    (nonce : Nonce) {plaintext : List Char}
    (small : byteLength plaintext ≤ rowRefPreflightPlaintextBytes) :
    ∃ token, sealRowRefText crypto encryptionKey aad nonce plaintext = some token := by
  have budget : rowRefPreflightPlaintextBytes = 3017 := by decide
  have overhead : tokenOverheadBytes .rowRef = 51 := by decide
  have version : byteLength envelopeVersion.toList = 2 := by decide
  have kind : byteLength TokenKind.rowRef.text.toList = 7 := by decide
  have ciphertext : ciphertextTextBytes (byteLength plaintext) ≤ 4023 := by
    unfold ciphertextTextBytes
    dsimp only
    split <;> omega
  have ciphertextLength := crypto.length_ciphertext encryptionKey nonce.bytes aad
    (bytes plaintext)
  have tagLength := crypto.length_tag encryptionKey nonce.bytes aad (bytes plaintext)
  have same : encodedLength (bytes plaintext).length =
      ciphertextTextBytes (byteLength plaintext) := rfl
  have nonceText : encodedLength 12 = 16 := rfl
  have tagText : encodedLength 16 = 22 := rfl
  unfold sealRowRefText maxCursorBytes
  dsimp only
  rw [overhead, if_neg (by omega), byteLength_joinParts, byteLength_encode, byteLength_encode,
    byteLength_encode, nonce.length_bytes, ciphertextLength, tagLength, version, kind, same,
    nonceText, tagText, if_neg (by omega)]
  exact ⟨_, rfl⟩

/-- The estimate of a row reference is the number of bytes of the JSON text of its payload when all
its claims are sealed and that number is within the budget, and null otherwise; a row reference with
an estimate is never too long for a token. -/
theorem estimate_exact (crypto : TokenCrypto) (encryptionKey aad : List UInt8) (nonce : Nonce)
    (rowRef : UnitRowRef ν) :
    estimateRowRefPlaintextBytes rowRef =
      (match rowRef.payload with
      | none => none
      | some payload =>
        if Utf8.byteLength (JsonUnits.stringify payload) ≤ rowRefPreflightPlaintextBytes then
          some (Utf8.byteLength (JsonUnits.stringify payload))
        else none) ∧
    (estimateRowRefPlaintextBytes rowRef = none ∨ ∃ payload token, rowRef.payload = some payload ∧
      sealRowRefText crypto encryptionKey aad nonce (JsonUnits.stringify payload) = some token) := by
  rw [estimateRowRefPlaintextBytes_eq]
  cases rowRef.payload with
  | none => exact ⟨rfl, .inl rfl⟩
  | some payload =>
    have same : within (size payload) rowRefPreflightPlaintextBytes =
        if byteLength (stringify payload) ≤ rowRefPreflightPlaintextBytes then
          some (byteLength (stringify payload)) else none := by
      unfold within size
      simp only [Int.ofNat_le]
    rw [Option.bind_some, same]
    refine ⟨rfl, ?_⟩
    by_cases small : byteLength (stringify payload) ≤ rowRefPreflightPlaintextBytes
    · obtain ⟨token, sealed⟩ := sealRowRefText_of_small crypto encryptionKey aad nonce small
      exact .inr ⟨payload, token, rfl, sealed⟩
    · exact .inl (if_neg small)

end

end NancyMan.Explorer
