import Mathlib.Data.Option.Basic
import NancyMan.Explorer.CursorCodec

/-!
# Opening what was sealed

The envelope of a token is taken apart again because no part contains a dot and every part is
canonical base64url; the payload is the JSON value that was written. A cursor therefore comes
back with its own columns, sort and times, and with each key value as JSON text carries it:
`decodeCursor_encodeCursor`.
-/
namespace NancyMan.Explorer

open Json CursorData

open Base64Url (dot_not_mem_encode encode)

theorem header_plain (kind : TokenKind) :
    '.' ∉ envelopeVersion.toList ∧ '.' ∉ kind.text.toList := by
  cases kind <;> decide

variable {token : String} {returnNull : Bool}

theorem oversize_not_token :
    (if returnNull then Except.ok none else Except.error cursorError :
      Except ExplorerError (Option String)) ≠ .ok (some token) := by
  cases returnNull <;> simp

variable {crypto : TokenCrypto} {nonce : List UInt8} {key : String} {kind : TokenKind}
  {context : Context} {payload : Json}

/-- What a sealed token is made of. -/
theorem sealToken_parts
    (accepted : sealToken crypto nonce kind context payload key returnNull = .ok (some token)) :
    validateContext context ∧ ∃ encryptionKey ciphertext tag,
      deriveEncryptionKey crypto key kind = .ok encryptionKey ∧
      crypto.encrypt encryptionKey nonce (contextAad kind context)
        (Utf8.bytes (renderChars payload)) = (ciphertext, tag) ∧
      token.toList = joinParts [envelopeVersion.toList, kind.text.toList, encode nonce,
        encode ciphertext, encode tag] ∧
      Utf8.byteLength token.toList ≤ maxCursorBytes := by
  unfold sealToken at accepted
  by_cases valid : validateContext context
  · refine ⟨valid, ?_⟩
    rw [if_pos valid] at accepted
    dsimp only at accepted
    split at accepted
    · exact absurd accepted oversize_not_token
    · cases derived : deriveEncryptionKey crypto key kind with
      | error error => simp [derived] at accepted
      | ok encryptionKey =>
        simp only [derived] at accepted
        split at accepted
        · exact absurd accepted oversize_not_token
        · next fits =>
          simp only [Except.ok.injEq, Option.some.injEq] at accepted
          refine ⟨encryptionKey, _, _, rfl, rfl, ?_, ?_⟩
          · rw [← accepted, String.toList_ofList]
          · rw [← accepted, String.toList_ofList]
            exact Nat.le_of_not_lt fits
  · rw [if_neg valid] at accepted
    cases accepted

/-- The parts of a token are found again between its dots. -/
theorem splitOn_joinParts (kind : TokenKind) (nonce ciphertext tag : List UInt8) :
    (joinParts [envelopeVersion.toList, kind.text.toList, encode nonce,
      encode ciphertext, encode tag]).splitOn '.' =
    [envelopeVersion.toList, kind.text.toList, encode nonce,
      encode ciphertext, encode tag] := by
  refine List.splitOn_intercalate '.' ?_ (by simp)
  intro part member
  simp only [List.mem_cons, List.not_mem_nil, or_false] at member
  rcases member with rfl | rfl | rfl | rfl | rfl
  · exact (header_plain kind).1
  · exact (header_plain kind).2
  · exact dot_not_mem_encode nonce
  · exact dot_not_mem_encode ciphertext
  · exact dot_not_mem_encode tag

/-- A sealed token is not empty. -/
theorem sealToken_nonempty
    (accepted : sealToken crypto nonce kind context payload key returnNull = .ok (some token)) :
    token ≠ "" := by
  obtain ⟨-, encryptionKey, ciphertext, tag, -, -, parts, -⟩ := sealToken_parts accepted
  rintro rfl
  have empty : (joinParts [envelopeVersion.toList, kind.text.toList, encode nonce,
      encode ciphertext, encode tag]).splitOn '.' = [[]] := by
    rw [← parts]
    rfl
  rw [splitOn_joinParts] at empty
  simp at empty

/-- A token is refused in one way. -/
theorem sealToken_error {error : ExplorerError}
    (refused : sealToken crypto nonce kind context payload key returnNull = .error error) :
    error = cursorError := by
  have oversize (failed : (if returnNull = true then Except.ok none
      else Except.error cursorError : Except ExplorerError (Option String)) = .error error) :
      error = cursorError := by
    cases returnNull with
    | true => cases failed
    | false =>
      cases failed
      rfl
  unfold sealToken at refused
  dsimp only at refused
  split at refused
  · split at refused
    · exact oversize refused
    · split at refused
      · cases refused
        rfl
      · split at refused
        · exact oversize refused
        · cases refused
  · cases refused
    rfl

theorem bytes_renderChars_pos (payload : Json) : 0 < (Utf8.bytes (renderChars payload)).length := by
  obtain ⟨symbol, more, starts, -⟩ := renderChars_head payload
  have long := Utf8.length_le_byteLength (renderChars payload)
  rw [starts, List.length_cons] at long
  rw [starts]
  exact Nat.lt_of_lt_of_le (Nat.succ_pos _) long

/-- A sealed token opens to its payload under the key and context that it was sealed under. -/
theorem openToken_sealToken (ν : Type) [JsonRuntime ν] {kind : TokenKind} {context : Context}
    {payload : Json} (fresh : nonce.length = 12)
    (accepted : sealToken crypto nonce kind context payload key returnNull = .ok (some token)) :
    openToken ν crypto token kind key context = .ok payload := by
  obtain ⟨valid, encryptionKey, ciphertext, tag, derived, encrypted, parts, fits⟩ :=
    sealToken_parts accepted
  have tagLength : tag.length = 16 := by
    have known := crypto.length_tag encryptionKey nonce (contextAad kind context)
      (Utf8.bytes (renderChars payload))
    rwa [encrypted] at known
  have textLength : 0 < ciphertext.length := by
    have known := crypto.length_ciphertext encryptionKey nonce (contextAad kind context)
      (Utf8.bytes (renderChars payload))
    rw [encrypted] at known
    rw [known]
    exact bytes_renderChars_pos payload
  have opens : crypto.decrypt encryptionKey nonce (contextAad kind context) ciphertext tag =
      some (Utf8.bytes (renderChars payload)) := by
    have known := crypto.decrypt_encrypt encryptionKey nonce (contextAad kind context)
      (Utf8.bytes (renderChars payload))
    rwa [encrypted] at known
  have nonempty : token ≠ "" := sealToken_nonempty accepted
  have texts : encode nonce ≠ [] ∧ encode ciphertext ≠ [] ∧ encode tag ≠ [] := by
    simp only [ne_eq, Base64Url.encode_eq_nil]
    refine ⟨?_, ?_, ?_⟩
    · rintro rfl
      simp at fresh
    · rintro rfl
      simp at textLength
    · rintro rfl
      simp at tagLength
  have readable : parse (String.ofList (JsonRuntime.utf8Text ν
      (Utf8.bytes (renderChars payload)))) = some payload := by
    rw [JsonRuntime.utf8Text_bytes]
    exact parse_render payload
  have positive : ciphertext.length ≠ 0 := Nat.ne_of_gt textLength
  rw [parts] at fits
  have small : ¬ maxCursorBytes < Utf8.byteLength (joinParts [envelopeVersion.toList,
      kind.text.toList, encode nonce, encode ciphertext,
      encode tag]) := Nat.not_lt.mpr fits
  unfold openToken
  simp [nonempty, small, valid, parts, splitOn_joinParts, texts, fresh, tagLength, positive,
    derived, opens, readable]

/-! ## Cursor records -/

variable {ν : Type} [JsonRuntime ν]

def CursorKey.throughJson (key : CursorKey ν) : CursorKey ν := ⟨key.column, key.value.throughJson⟩

variable (cursor : CursorData ν)

/-- A cursor as JSON text carries it: each key value on its own, everything else unchanged. -/
def CursorData.throughJson : CursorData ν :=
  { cursor with
    position := match cursor.position with
      | .keyset keys => .keyset (keys.map CursorKey.throughJson)
      | .offset offset => .offset offset }

theorem integer?_jsonInteger {value : Int} (low : -maxSafeInteger ≤ value)
    (high : value ≤ maxSafeInteger) : integer? ν (jsonInteger value) = some value :=
  JsonRuntime.safeInteger_readNumber low high

theorem sort?_sortJson (sort : Option SortDefinition) : sort? (sortJson sort) = some sort := by
  cases sort with
  | none => rfl
  | some sort => simp [sort?, sortJson, lastProperty, string?]

theorem key?_toJson (key : CursorKey ν) : key? key.toJson = some key.throughJson := by
  simp [key?, CursorKey.toJson, property?, lastProperty, string?,
    CursorKey.throughJson, PgValue.throughJson]

theorem keys?_toJson (keys : List (CursorKey ν)) :
    keys.mapM (key? ∘ CursorKey.toJson) = some (keys.map CursorKey.throughJson) := by
  induction keys with
  | nil => rfl
  | cons key keys ih => simp [List.mapM_cons, key?_toJson, ih]

theorem validateTimes_safe {issuedAt expiresAt : Int} (valid : validateTimes issuedAt expiresAt) :
    (-maxSafeInteger ≤ issuedAt ∧ issuedAt ≤ maxSafeInteger) ∧
      -maxSafeInteger ≤ expiresAt ∧ expiresAt ≤ maxSafeInteger := by
  simp only [validateTimes, Bool.and_eq_true, decide_eq_true_eq] at valid
  obtain ⟨⟨⟨⟨⟨a, b⟩, c⟩, d⟩, -⟩, -⟩ := valid
  exact ⟨⟨a, b⟩, c, d⟩

/-- A valid cursor's record is read back. -/
theorem ofJson?_toJson {cursor : CursorData ν} (valid : validateCursor cursor) :
    ofJson? cursor.toJson = some cursor.throughJson := by
  obtain ⟨context, issuedAt, expiresAt, sort, position⟩ := cursor
  simp only [validateCursor, Bool.and_eq_true] at valid
  obtain ⟨⟨⟨-, times⟩, -⟩, placed⟩ := valid
  obtain ⟨⟨issuedLow, issuedHigh⟩, expiresLow, expiresHigh⟩ := validateTimes_safe times
  have version : integer? ν (jsonInteger 1) = some 1 :=
    integer?_jsonInteger (by decide) (by decide)
  have issued : integer? ν (jsonInteger issuedAt) = some issuedAt :=
    integer?_jsonInteger issuedLow issuedHigh
  have expires : integer? ν (jsonInteger expiresAt) = some expiresAt :=
    integer?_jsonInteger expiresLow expiresHigh
  cases position with
  | keyset keys =>
    simp [ofJson?, toJson, property?, lastProperty, string?,
      array?, version, issued, expires, sort?_sortJson, keys?_toJson, throughJson]
  | offset offset =>
    have safe : -maxSafeInteger ≤ offset ∧ offset ≤ maxSafeInteger := by
      simp only [Bool.and_eq_true, decide_eq_true_eq] at placed
      refine ⟨Int.le_trans ?_ placed.1, placed.2⟩
      decide
    have placedAt : integer? ν (jsonInteger offset) = some offset :=
      integer?_jsonInteger safe.1 safe.2
    simp [ofJson?, toJson, property?, lastProperty, string?,
      version, issued, expires, sort?_sortJson, placedAt, throughJson]

/-- JSON text keeps a cursor valid: no check reads a key value. -/
theorem validateCursor_throughJson : validateCursor cursor.throughJson = validateCursor cursor := by
  obtain ⟨context, issuedAt, expiresAt, sort, position⟩ := cursor
  cases position with
  | keyset keys =>
    have columns : (keys.map CursorKey.throughJson).map CursorKey.column =
        keys.map CursorKey.column := by
      rw [List.map_map]
      rfl
    have named : (keys.map CursorKey.throughJson).all (fun key => key.column ≠ "") =
        keys.all (fun key => key.column ≠ "") := by
      rw [List.all_map]
      rfl
    simp only [validateCursor, throughJson, columns, named, List.isEmpty_map]
  | offset offset => rfl

/-- What an accepted cursor is. -/
theorem encodeCursor_ok {cursor : CursorData ν}
    (accepted : encodeCursor crypto nonce cursor key = .ok token) :
    validateCursor cursor ∧
      sealToken crypto nonce .cursor cursor.context cursor.toJson key false = .ok (some token) := by
  unfold encodeCursor at accepted
  split at accepted
  · next valid =>
    refine ⟨valid, ?_⟩
    split at accepted
    · next written sealed =>
      cases accepted
      exact sealed
    · cases accepted
    · cases accepted
  · cases accepted

/-- A cursor is refused in one way. -/
theorem encodeCursor_error {cursor : CursorData ν} {error : ExplorerError}
    (refused : encodeCursor crypto nonce cursor key = .error error) : error = cursorError := by
  unfold encodeCursor at refused
  split at refused
  · split at refused
    · cases refused
    · cases refused
      rfl
    · next failed =>
      cases refused
      exact sealToken_error failed
  · cases refused
    rfl

/-- The offset that a cursor continues at is within the reader's bound. -/
def WithinOffset : Prop :=
  match cursor.position with
  | .offset offset => offset ≤ 10000
  | .keyset _ => True

/-- A cursor that was accepted is decoded, before it expires and under its own key and context,
as itself with each key value as JSON text carries it. -/
theorem decodeCursor_encodeCursor {cursor : CursorData ν} {now : Int} (fresh : nonce.length = 12)
    (accepted : encodeCursor crypto nonce cursor key = .ok token) (early : now < cursor.expiresAt)
    (bounded : WithinOffset cursor) :
    decodeCursor crypto token key cursor.context now = .ok cursor.throughJson := by
  obtain ⟨valid, sealed⟩ := encodeCursor_ok accepted
  have opened := openToken_sealToken ν fresh sealed
  have notExpired : ¬ cursor.throughJson.expiresAt ≤ now := Int.not_le.mpr early
  have sameContext : cursor.throughJson.context = cursor.context := rfl
  unfold decodeCursor
  simp only [opened, ofJson?_toJson valid, validateCursor_throughJson, valid, notExpired,
    sameContext]
  obtain ⟨context, issuedAt, expiresAt, sort, position⟩ := cursor
  cases position with
  | keyset keys => simp [throughJson]
  | offset offset =>
    have small : ¬ 10000 < offset := Int.not_lt.mpr bounded
    simp [throughJson, small]

end NancyMan.Explorer
