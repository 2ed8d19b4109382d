import NancyMan.Explorer.Schema
import NancyMan.Explorer.PgValue
import NancyMan.Lib.JsonRoundTrip
import NancyMan.Lib.Base64Url

/-!
# The cursor codec

A cursor is the JSON text of its data, sealed under a key derived from the worker's cursor key
and bound to the relation it belongs to, and carried as five parts between dots. `TokenCrypto`
is the authenticated encryption, assumed to open what it sealed. `openToken_sealToken` is the
codec's own part of the round trip: what `sealToken` accepts, `openToken` returns under the same
key and context.
-/
namespace NancyMan.Explorer

/-- `MAX_CURSOR_BYTES`. -/
def maxCursorBytes : Nat := 4096

/-- `CURSOR_EXPIRY_MS`. -/
def cursorExpiryMs : Int := 5 * 60 * 1000

/-- `ENVELOPE_VERSION`. -/
def envelopeVersion : String := "v2"

inductive TokenKind where
  | cursor
  | rowRef

/-- A token kind's text. -/
def TokenKind.text : TokenKind → String
  | .cursor => "cursor"
  | .rowRef => "row-ref"

/-- The relation, in one state of the schema, that a token belongs to. -/
structure Context where
  targetId : DatabaseTargetId
  schema : String
  relation : String
  checksum : String
deriving DecidableEq

/-- Authenticated encryption with key derivation: what is sealed under a key, a nonce and
additional data opens under the same three. -/
structure TokenCrypto where
  /-- `hkdfSync('sha256', masterKey, 'database-explorer/v2', info, 32)`. -/
  deriveKey : List UInt8 → String → List UInt8
  /-- The ciphertext and the tag of a plaintext under a key, a nonce and additional data. -/
  encrypt : List UInt8 → List UInt8 → List UInt8 → List UInt8 → List UInt8 × List UInt8
  /-- The plaintext of a ciphertext and its tag, unless authentication fails. -/
  decrypt : List UInt8 → List UInt8 → List UInt8 → List UInt8 → List UInt8 → Option (List UInt8)
  decrypt_encrypt : ∀ key nonce aad plaintext,
    decrypt key nonce aad (encrypt key nonce aad plaintext).1 (encrypt key nonce aad plaintext).2 =
      some plaintext
  length_ciphertext : ∀ key nonce aad plaintext,
    (encrypt key nonce aad plaintext).1.length = plaintext.length
  length_tag : ∀ key nonce aad plaintext, (encrypt key nonce aad plaintext).2.length = 16

/-- Sealing that hides nothing. -/
def TokenCrypto.plain : TokenCrypto where
  deriveKey masterKey _ := masterKey
  encrypt _ _ _ plaintext := (plaintext, List.replicate 16 0)
  decrypt _ _ _ ciphertext tag := if tag = List.replicate 16 0 then some ciphertext else none
  decrypt_encrypt _ _ _ _ := if_pos rfl
  length_ciphertext _ _ _ _ := rfl
  length_tag _ _ _ _ := rfl

def cursorError : ExplorerError := makeExplorerError .cursorInvalid none

def isBase64Symbol (symbol : Char) : Bool :=
  symbol.isAlpha || symbol.isDigit || symbol = '+' || symbol = '/'

/-- Whether a cursor key is the canonical base64 text of 32 bytes. -/
def isValidCursorKey (value : String) : Bool :=
  let text := value.toList
  let decoded := Base64Url.decode text
  text.length = 44 && (text.take 43).all isBase64Symbol && text.drop 43 = ['='] &&
    decoded.length = 32 && Base64Url.encodePadded decoded = text

def decodeMasterKey (value : String) : Except ExplorerError (List UInt8) :=
  if isValidCursorKey value then .ok (Base64Url.decode value.toList) else .error cursorError

/-- The encryption key of a kind of token. -/
def deriveEncryptionKey (crypto : TokenCrypto) (value : String) (kind : TokenKind) :
    Except ExplorerError (List UInt8) := do
  let masterKey ← decodeMasterKey value
  let info := match kind with
    | .cursor => "cursor/v2"
    | .rowRef => "row-ref/v2"
  .ok (crypto.deriveKey masterKey info)

/-- The additional data that binds a token to its kind and context. -/
def contextAad (kind : TokenKind) (context : Context) : List UInt8 :=
  Utf8.bytes (Json.renderChars (.array [.string envelopeVersion, .string kind.text,
    .string context.targetId.text, .string context.schema, .string context.relation,
    .string context.checksum]))

def validateContext (context : Context) : Bool :=
  context.schema ≠ "" && context.relation ≠ "" && context.checksum ≠ ""

/-! ## Tokens -/

def joinParts (parts : List (List Char)) : List Char := ['.'].intercalate parts

/-- The bytes of a token apart from its ciphertext. -/
def tokenOverheadBytes (kind : TokenKind) : Nat :=
  Utf8.byteLength (joinParts [envelopeVersion.toList, kind.text.toList, List.replicate 16 '0', [],
    List.replicate 22 '0'])

/-- The length of the text of a ciphertext. -/
def ciphertextTextBytes (plaintextBytes : Nat) : Nat :=
  let remainder := plaintextBytes % 3
  plaintextBytes / 3 * 4 + if remainder = 0 then 0 else remainder + 1

/-- The token of a payload, or nothing when it is too long and the caller asked for that. -/
def sealToken (crypto : TokenCrypto) (nonce : List UInt8) (kind : TokenKind) (context : Context)
    (payload : Json) (key : String) (returnNullOnOversize : Bool) :
    Except ExplorerError (Option String) :=
  if validateContext context then
    let plaintext := Json.renderChars payload
    if maxCursorBytes < tokenOverheadBytes kind +
        ciphertextTextBytes (Utf8.byteLength plaintext) then
      if returnNullOnOversize then .ok none else .error cursorError
    else
      match deriveEncryptionKey crypto key kind with
      | .error _ => .error cursorError
      | .ok encryptionKey =>
        let encrypted :=
          crypto.encrypt encryptionKey nonce (contextAad kind context) (Utf8.bytes plaintext)
        let sealed := joinParts [envelopeVersion.toList, kind.text.toList, Base64Url.encode nonce,
          Base64Url.encode encrypted.1, Base64Url.encode encrypted.2]
        if maxCursorBytes < Utf8.byteLength sealed then
          if returnNullOnOversize then .ok none else .error cursorError
        else .ok (some (String.ofList sealed))
  else .error cursorError

/-- The payload of a token, when it is authentic under the key and context. -/
def openToken (ν : Type) [JsonRuntime ν] (crypto : TokenCrypto) (token : String)
    (kind : TokenKind) (key : String) (expected : Context) : Except ExplorerError Json :=
  if token = "" || maxCursorBytes < Utf8.byteLength token.toList || !validateContext expected then
    .error cursorError
  else
    match token.toList.splitOn '.' with
    | [version, tokenKind, nonceText, ciphertextText, tagText] =>
      if version ≠ envelopeVersion.toList || tokenKind ≠ kind.text.toList || nonceText = [] ||
          ciphertextText = [] || tagText = [] then .error cursorError
      else
        let nonce := Base64Url.decode nonceText
        let ciphertext := Base64Url.decode ciphertextText
        let tag := Base64Url.decode tagText
        if nonce.length ≠ 12 || ciphertext.length = 0 || tag.length ≠ 16 ||
            Base64Url.encode nonce ≠ nonceText || Base64Url.encode ciphertext ≠ ciphertextText ||
            Base64Url.encode tag ≠ tagText then .error cursorError
        else
          match deriveEncryptionKey crypto key kind with
          | .error _ => .error cursorError
          | .ok encryptionKey =>
            match crypto.decrypt encryptionKey nonce (contextAad kind expected) ciphertext tag with
            | none => .error cursorError
            | some plaintext =>
              match Json.parse (String.ofList (JsonRuntime.utf8Text ν plaintext)) with
              | none => .error cursorError
              | some payload => .ok payload
    | _ => .error cursorError

/-! ## Cursors -/

/-- A key column of a cursor with the last row's value. -/
structure CursorKey (ν : Type) where
  column : String
  value : PgValue ν

/-- Where a cursor continues: after the last row's key, or at an offset. -/
inductive CursorPosition (ν : Type) where
  | keyset (keys : List (CursorKey ν))
  | offset (offset : Int)

structure CursorData (ν : Type) where
  context : Context
  issuedAt : Int
  expiresAt : Int
  sort : Option SortDefinition
  position : CursorPosition ν

section

variable {ν : Type} [JsonRuntime ν]

/-- An integer as `JSON.stringify` writes it. -/
def jsonInteger (value : Int) : Json := .number (Numeral.ofInt value)

def sortJson : Option SortDefinition → Json
  | none => .null
  | some sort =>
    .object [("column", .string sort.column), ("direction", .string sort.direction.text)]

def CursorKey.toJson (key : CursorKey ν) : Json :=
  .object [("column", .string key.column), ("value", key.value.toJson)]

/-- The record that `JSON.stringify` writes for a cursor. -/
def CursorData.toJson (cursor : CursorData ν) : Json :=
  match cursor.position with
  | .keyset keys =>
    .object [("version", jsonInteger 1), ("kind", .string "keyset"),
      ("targetId", .string cursor.context.targetId.text),
      ("schema", .string cursor.context.schema), ("relation", .string cursor.context.relation),
      ("checksum", .string cursor.context.checksum), ("issuedAt", jsonInteger cursor.issuedAt),
      ("expiresAt", jsonInteger cursor.expiresAt), ("sort", sortJson cursor.sort),
      ("nullOrder", .string "last"), ("keys", .array (keys.map CursorKey.toJson))]
  | .offset offset =>
    .object [("version", jsonInteger 1), ("kind", .string "offset"),
      ("targetId", .string cursor.context.targetId.text),
      ("schema", .string cursor.context.schema), ("relation", .string cursor.context.relation),
      ("checksum", .string cursor.context.checksum), ("issuedAt", jsonInteger cursor.issuedAt),
      ("expiresAt", jsonInteger cursor.expiresAt), ("offset", jsonInteger offset),
      ("sort", sortJson cursor.sort), ("nullOrder", .string "last")]

def validateTimes (issuedAt expiresAt : Int) : Bool :=
  -maxSafeInteger ≤ issuedAt && issuedAt ≤ maxSafeInteger &&
    -maxSafeInteger ≤ expiresAt && expiresAt ≤ maxSafeInteger &&
    issuedAt < expiresAt && expiresAt - issuedAt ≤ cursorExpiryMs

/-- `validateSort` of a well-typed sort. -/
def validateSort : Option SortDefinition → Bool
  | none => true
  | some sort => sort.column ≠ ""

/-- What `validateCursor` demands of a cursor of the right shape. -/
def validateCursor (cursor : CursorData ν) : Bool :=
  validateContext cursor.context && validateTimes cursor.issuedAt cursor.expiresAt &&
    validateSort cursor.sort &&
    match cursor.position with
    | .offset offset => 0 ≤ offset && offset ≤ maxSafeInteger
    | .keyset keys =>
      !keys.isEmpty && keys.all (fun key => key.column ≠ "") &&
        (keys.map CursorKey.column).Nodup

/-- The safe integer that a JSON number denotes. -/
def integer? (ν : Type) [JsonRuntime ν] : Json → Option Int
  | .number literal => JsonRuntime.safeInteger (JsonRuntime.readNumber literal : ν)
  | _ => none

/-- The sort of a parsed record; `null` is no sort. -/
def sort? : Json → Option (Option SortDefinition)
  | .null => some none
  | .object properties => do
    let column ← (← Json.lastProperty "column" properties).string?
    let direction ← Direction.ofText (← (← Json.lastProperty "direction" properties).string?)
    some (some ⟨column, direction⟩)
  | _ => none

/-- A key entry of a parsed record; it needs a property `value` of any kind. -/
def key? (entry : Json) : Option (CursorKey ν) := do
  let column ← (← entry.property? "column").string?
  let value ← entry.property? "value"
  some ⟨column, .ofJson value⟩

/-- A parsed record of a cursor's shape: the type tests of `validateCursor`. -/
def CursorData.ofJson? (record : Json) : Option (CursorData ν) := do
  let targetId ← DatabaseTargetId.ofText (← (← record.property? "targetId").string?)
  let schema ← (← record.property? "schema").string?
  let relation ← (← record.property? "relation").string?
  let checksum ← (← record.property? "checksum").string?
  guard (integer? ν (← record.property? "version") = some 1)
  let issuedAt ← integer? ν (← record.property? "issuedAt")
  let expiresAt ← integer? ν (← record.property? "expiresAt")
  let sort ← sort? (← record.property? "sort")
  guard ((← record.property? "nullOrder").string? = some "last")
  let kind ← (← record.property? "kind").string?
  let position ←
    if kind = "offset" then
      (integer? ν (← record.property? "offset")).map CursorPosition.offset
    else if kind = "keyset" then
      ((← (← record.property? "keys").array?).mapM key?).map CursorPosition.keyset
    else none
  some ⟨⟨targetId, schema, relation, checksum⟩, issuedAt, expiresAt, sort, position⟩

def encodeCursor (crypto : TokenCrypto) (nonce : List UInt8) (cursor : CursorData ν)
    (key : String) : Except ExplorerError String :=
  if validateCursor cursor then
    match sealToken crypto nonce .cursor cursor.context cursor.toJson key false with
    | .ok (some token) => .ok token
    | .ok none => .error cursorError
    | .error error => .error error
  else .error cursorError

/-- `decodeCursor` at a time. -/
def decodeCursor (crypto : TokenCrypto) (encodedCursor key : String) (expected : Context)
    (now : Int) : Except ExplorerError (CursorData ν) :=
  match openToken ν crypto encodedCursor .cursor key expected with
  | .error error => .error error
  | .ok payload =>
    match CursorData.ofJson? payload with
    | none => .error cursorError
    | some cursor =>
      if !validateCursor cursor then .error cursorError
      else if cursor.expiresAt ≤ now then .error cursorError
      else if cursor.context ≠ expected then .error cursorError
      else
        match cursor.position with
        | .offset offset =>
          if 10000 < offset then .error (makeExplorerError .pageTooLarge none) else .ok cursor
        | .keyset _ => .ok cursor

end

end NancyMan.Explorer
