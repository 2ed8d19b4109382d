import Mathlib.Data.Option.Basic
import NancyMan.Lib.Base64Url
import NancyMan.Lib.JsonIntegers
import NancyMan.Lib.JsonRoundTrip
import NancyMan.Lib.Utf8Decoder

/-!
# Context tokens of browsers

A token carries a context and the key's id in its text and ends with a signature of both. The key is
looked up by the id that the token names in a plain object, which has the properties of every object
too, and the signature is compared after it has been decoded, so one signature has several spellings.
`verified_soundly_iff` tells the tokens for which verification is total, sound and complete: those that
name no inherited property, do not spell the signature of a good token in another way, and, if they
were issued, were so for a context, a key and an id that verification does not take for absent.
-/
namespace NancyMan.Telemetry.ContextToken

open Base64Url

/-- What the tokens are made and read with. -/
structure TokenRules where
  /-- `createHmac('sha256', key).update(text, 'utf8').digest()`. -/
  hmac : String → List Char → List UInt8
  /-- `new Date(time).toISOString()`. -/
  isoText : Int → String
  /-- `Date.parse(value)`, unless it is not a number. -/
  parseDate : Json → Option Int
  /-- Whether the number of a literal counts as true. -/
  numberTruthy : Numeral → Bool

/-- `TelemetryContext`; its audience and channel are the only ones of their types. -/
structure TelemetryContext where
  userRef : String
  role : String
  displayLabel : String
  sessionHash : String
  nonce : String

def audience : String := "edutrack-ops-ingest"

def channel : String := "browser"

def lifetime : Int := 15 * 60 * 1000

def maximumTime : Int := 8640000000000000

/-- `keyring[keyId]`: a key of its own, a property that every object has, or none. -/
inductive KeyringEntry where
  | own (key : String)
  | inherited
  | undefined

/-- The names of the properties of `Object.prototype`. -/
def objectPrototypeNames : List String :=
  ["constructor", "__defineGetter__", "__defineSetter__", "hasOwnProperty", "__lookupGetter__",
    "__lookupSetter__", "isPrototypeOf", "propertyIsEnumerable", "toString", "valueOf", "__proto__",
    "toLocaleString"]

abbrev Keyring := String → Option String

def Keyring.read (keyring : Keyring) (keyId : String) : KeyringEntry :=
  match keyring keyId with
  | some key => .own key
  | none => if keyId ∈ objectPrototypeNames then .inherited else .undefined

/-- What the verification throws. -/
inductive TokenError where
  | invalidKeyType

/-- A context that was verified; its properties are not checked to be texts. -/
structure VerifiedContext where
  userRef : Json
  role : Json
  displayLabel : Json
  sessionHash : Json
  nonce : Json
  expiresAt : Json

namespace TokenRules

variable (rules : TokenRules)

/-- Whether a value counts as true. -/
def truthy : Json → Bool
  | .null => false
  | .boolean value => value
  | .number literal => rules.numberTruthy literal
  | .string text => !text.isEmpty
  | .array _ | .object _ => true

/-- `SignedTelemetryContext`. -/
def signedContext (context : TelemetryContext) (now : Int) : Json :=
  .object [("audience", .string audience), ("channel", .string channel),
    ("userRef", .string context.userRef), ("role", .string context.role),
    ("displayLabel", .string context.displayLabel), ("sessionHash", .string context.sessionHash),
    ("nonce", .string context.nonce), ("issuedAt", .string (rules.isoText now)),
    ("expiresAt", .string (rules.isoText (now + lifetime)))]

end TokenRules

def encode (value : Json) : List Char := Base64Url.encode (Utf8.bytes (Json.renderChars value))

def signedText (keyId encodedPayload : List Char) : List Char :=
  ['v', '1'] ++ '.' :: (keyId ++ '.' :: encodedPayload)

namespace TokenRules

variable (rules : TokenRules)

def signature (key : String) (keyId encodedPayload : List Char) : List UInt8 :=
  rules.hmac key (signedText keyId encodedPayload)

/-- `issueTelemetryContextToken`, which throws when one of the times is no date. -/
def issueTelemetryContextToken (context : TelemetryContext) (keyId key : String) (now : Int) :
    Option String :=
  if now < -maximumTime ∨ maximumTime < now + lifetime then none
  else
    let encodedPayload := encode (rules.signedContext context now)
    some (String.ofList (signedText keyId.toList encodedPayload ++
      '.' :: Base64Url.encode (rules.signature key keyId.toList encodedPayload)))

/-- The context of a payload whose signature is right. -/
def readContext (encodedPayload : List Char) (now : Int) : Option VerifiedContext := do
  let payload ← Json.parse (String.ofList (Utf8.decodeLossy (Base64Url.decode encodedPayload)))
  guard ((payload.property? "audience").bind Json.string? = some audience ∧
    (payload.property? "channel").bind Json.string? = some channel)
  let userRef ← (payload.property? "userRef").filter rules.truthy
  let role ← (payload.property? "role").filter rules.truthy
  let displayLabel ← (payload.property? "displayLabel").filter rules.truthy
  let sessionHash ← (payload.property? "sessionHash").filter rules.truthy
  let nonce ← (payload.property? "nonce").filter rules.truthy
  let expiresAt ← payload.property? "expiresAt"
  let expiry ← rules.parseDate expiresAt
  guard (now < expiry)
  return { userRef, role, displayLabel, sessionHash, nonce, expiresAt }

def verifyTelemetryContextToken (token : String) (keyring : Keyring) (now : Int) :
    Except TokenError (Option VerifiedContext) :=
  match token.toList.splitOn '.' with
  | [version, keyId, encodedPayload, encodedSignature] =>
    if version ≠ ['v', '1'] ∨ keyId = [] ∨ encodedPayload = [] ∨ encodedSignature = [] then .ok none
    else
      match keyring.read (String.ofList keyId) with
      | .undefined => .ok none
      | .inherited => .error .invalidKeyType
      | .own key =>
        if key = "" then .ok none
        else
          let expected := rules.signature key keyId encodedPayload
          let actual := Base64Url.decode encodedSignature
          if actual.length ≠ expected.length ∨ actual ≠ expected then .ok none
          else .ok (rules.readContext encodedPayload now)
  | _ => .ok none

end TokenRules

/-! ## What is claimed -/

/-- A token that was issued. -/
structure Issued (rules : TokenRules) where
  context : TelemetryContext
  keyId : String
  key : String
  now : Int
  token : String
  issues : rules.issueTelemetryContextToken context keyId key now = some token

namespace Issued

variable {rules : TokenRules} (item : Issued rules)

def expiry : Int := item.now + lifetime

def encodedPayload : List Char := encode (rules.signedContext item.context item.now)

/-- The issued context as the verification returns it. -/
def verified : VerifiedContext where
  userRef := .string item.context.userRef
  role := .string item.context.role
  displayLabel := .string item.context.displayLabel
  sessionHash := .string item.context.sessionHash
  nonce := .string item.context.nonce
  expiresAt := .string (rules.isoText item.expiry)

def Good (keyring : Keyring) (now : Int) : Prop :=
  keyring item.keyId = some item.key ∧ now < item.expiry

/-- An id without dots, and no text empty that verification takes for absent then. -/
def Usable : Prop :=
  item.keyId ≠ "" ∧ '.' ∉ item.keyId.toList ∧ item.key ≠ "" ∧ item.context.userRef ≠ "" ∧
    item.context.role ≠ "" ∧ item.context.displayLabel ≠ "" ∧ item.context.sessionHash ≠ "" ∧
    item.context.nonce ≠ ""

end Issued

/-- What is known of the functions: a digest has 32 bytes, and a date's text is read as the date. -/
structure TokenRules.Lawful (rules : TokenRules) : Prop where
  digest : ∀ key text, (rules.hmac key text).length = 32
  dates : ∀ time, -maximumTime ≤ time → time ≤ maximumTime →
    rules.parseDate (.string (rules.isoText time)) = some time

section Claim

variable (rules : TokenRules) (issued : List (Issued rules)) (keyring : Keyring) (now : Int)
  (token : String)

/-- No signature is right for a text, under a key of the keyring's own, that was not signed with it
for a token that was issued. -/
def Unforged : Prop :=
  ∀ keyId key text encodedSignature, keyring keyId = some key → key ≠ "" →
    token.toList = text ++ '.' :: encodedSignature →
      Base64Url.decode encodedSignature = rules.hmac key text →
        ∃ item ∈ issued, item.key = key ∧ signedText item.keyId.toList item.encodedPayload = text

/-- The verification of a token throws nothing, returns a context only for a good issued token and
exactly that of the token, and returns it for every good issued token. -/
structure VerifiedSoundly : Prop where
  total : ∃ found, rules.verifyTelemetryContextToken token keyring now = .ok found
  sound : ∀ found, rules.verifyTelemetryContextToken token keyring now = .ok (some found) →
    ∃ item ∈ issued, item.token = token ∧ item.verified = found ∧ item.Good keyring now
  complete : ∀ item ∈ issued, item.token = token → item.Good keyring now →
    rules.verifyTelemetryContextToken token keyring now = .ok (some item.verified)

/-- The token names no inherited property. -/
def NamesOwnKey : Prop :=
  ∀ keyId encodedPayload encodedSignature, keyId ≠ [] → encodedPayload ≠ [] → encodedSignature ≠ [] →
    token.toList.splitOn '.' = [['v', '1'], keyId, encodedPayload, encodedSignature] →
      String.ofList keyId ∈ objectPrototypeNames → keyring (String.ofList keyId) ≠ none

/-- The token does not spell the signature of a good usable token in another way. -/
def SpeltAsIssued : Prop :=
  ∀ item ∈ issued, item.Good keyring now → item.Usable → ∀ encodedSignature,
    '.' ∉ encodedSignature →
      token.toList =
        signedText item.keyId.toList item.encodedPayload ++ '.' :: encodedSignature →
        Base64Url.decode encodedSignature =
            rules.signature item.key item.keyId.toList item.encodedPayload →
          token = item.token

def IssuedUsable : Prop :=
  ∀ item ∈ issued, item.token = token → item.Good keyring now → item.Usable

end Claim

/-! ## The parts of a token -/

/-- A text of three dots has four parts. -/
theorem splitOn_parts {text keyId encodedPayload encodedSignature : List Char}
    (cut : text.splitOn '.' = [['v', '1'], keyId, encodedPayload, encodedSignature]) :
    text = signedText keyId encodedPayload ++ '.' :: encodedSignature ∧ '.' ∉ keyId ∧
      '.' ∉ encodedPayload ∧ '.' ∉ encodedSignature := by
  have plain (part : List Char)
      (member : part ∈ [['v', '1'], keyId, encodedPayload, encodedSignature]) : '.' ∉ part :=
    Lines.stop_not_mem_of_mem_splitOn (cut ▸ member)
  refine ⟨?_, plain _ (by simp), plain _ (by simp), plain _ (by simp)⟩
  have joined : ['.'].intercalate (text.splitOn '.') = text := List.intercalate_splitOn '.'
  rw [← joined, cut]
  simp [signedText, List.intercalate]

/-- Four parts without dots are those of their text. -/
theorem splitOn_signedText {keyId encodedPayload encodedSignature : List Char} (id : '.' ∉ keyId)
    (payload : '.' ∉ encodedPayload) (signature : '.' ∉ encodedSignature) :
    (signedText keyId encodedPayload ++ '.' :: encodedSignature).splitOn '.' =
      [['v', '1'], keyId, encodedPayload, encodedSignature] := by
  have version : '.' ∉ ['v', '1'] := by decide
  have text : signedText keyId encodedPayload ++ '.' :: encodedSignature =
      ['v', '1'] ++ '.' :: (keyId ++ '.' :: (encodedPayload ++ '.' :: encodedSignature)) := by
    simp [signedText]
  rw [text, List.splitOn_append_cons_self_of_not_mem version, List.splitOn_append_cons_self_of_not_mem id,
    List.splitOn_append_cons_self_of_not_mem payload, List.splitOn_eq_singleton signature]

theorem signedText_inj {keyId otherId payload otherPayload : List Char} (plain : '.' ∉ payload)
    (plain' : '.' ∉ otherPayload) (same : signedText keyId payload = signedText otherId otherPayload) :
    keyId = otherId ∧ payload = otherPayload := by
  have rest := List.append_cancel_left same
  exact Lines.last_stop_inj plain' plain (List.cons.inj rest).2

open TokenRules

section Verification

variable {rules : TokenRules} {keyring : Keyring} {now : Int} {token : String}

/-- A context is returned exactly for four parts of which the second names a key of the keyring's own
that the last is a signature with. -/
theorem verify_eq_some_iff {found : VerifiedContext} :
    rules.verifyTelemetryContextToken token keyring now = .ok (some found) ↔
      ∃ keyId encodedPayload encodedSignature key,
        token.toList.splitOn '.' = [['v', '1'], keyId, encodedPayload, encodedSignature] ∧
          (keyId ≠ [] ∧ encodedPayload ≠ [] ∧ encodedSignature ≠ []) ∧
          keyring (String.ofList keyId) = some key ∧ key ≠ "" ∧
          decode encodedSignature = rules.signature key keyId encodedPayload ∧
          rules.readContext encodedPayload now = some found := by
  constructor
  · intro accepted
    unfold verifyTelemetryContextToken at accepted
    split at accepted
    · next version keyId encodedPayload encodedSignature cut =>
      split at accepted
      · cases accepted
      · next filled =>
        simp only [not_or, not_not] at filled
        obtain ⟨rfl, id, payload, signature⟩ := filled
        split at accepted
        · cases accepted
        · cases accepted
        · next key entry =>
          split at accepted
          · cases accepted
          · next some' =>
            dsimp only at accepted
            split at accepted
            · cases accepted
            · next right =>
              simp only [not_or, not_not] at right
              refine ⟨keyId, encodedPayload, encodedSignature, key, cut, ⟨id, payload, signature⟩, ?_,
                some', right.2, Except.ok.inj accepted⟩
              unfold Keyring.read at entry
              split at entry
              · next own known =>
                rw [known, KeyringEntry.own.inj entry]
              · split at entry <;> cases entry
    · cases accepted
  · rintro ⟨keyId, encodedPayload, encodedSignature, key, cut, ⟨id, payload, signature⟩, known, some',
      right, read⟩
    unfold verifyTelemetryContextToken
    rw [cut]
    dsimp only
    have entry : keyring.read (String.ofList keyId) = .own key := by
      rw [Keyring.read, known]
    rw [if_neg (by simp [id, payload, signature]), entry]
    dsimp only
    rw [if_neg some', if_neg (by simp [right]), read]

/-- An error is thrown exactly for four parts of which the second names an inherited property. -/
theorem verify_eq_error_iff {error : TokenError} :
    rules.verifyTelemetryContextToken token keyring now = .error error ↔
      ∃ keyId encodedPayload encodedSignature,
        token.toList.splitOn '.' = [['v', '1'], keyId, encodedPayload, encodedSignature] ∧
          (keyId ≠ [] ∧ encodedPayload ≠ [] ∧ encodedSignature ≠ []) ∧
          keyring (String.ofList keyId) = none ∧ String.ofList keyId ∈ objectPrototypeNames := by
  constructor
  · intro thrown
    unfold verifyTelemetryContextToken at thrown
    split at thrown
    · next version keyId encodedPayload encodedSignature cut =>
      split at thrown
      · cases thrown
      · next filled =>
        simp only [not_or, not_not] at filled
        obtain ⟨rfl, id, payload, signature⟩ := filled
        split at thrown
        · cases thrown
        · next entry =>
          refine ⟨keyId, encodedPayload, encodedSignature, cut, ⟨id, payload, signature⟩, ?_⟩
          unfold Keyring.read at entry
          split at entry
          · cases entry
          · next unknown =>
            split at entry
            · next inherited => exact ⟨unknown, inherited⟩
            · cases entry
        · dsimp only at thrown
          split at thrown
          · cases thrown
          · split at thrown <;> cases thrown
    · cases thrown
  · rintro ⟨keyId, encodedPayload, encodedSignature, cut, ⟨id, payload, signature⟩, unknown, inherited⟩
    unfold verifyTelemetryContextToken
    rw [cut]
    dsimp only
    have entry : keyring.read (String.ofList keyId) = .inherited := by
      rw [Keyring.read, unknown]
      exact if_pos inherited
    rw [if_neg (by simp [id, payload, signature]), entry]

end Verification

/-! ## Issued tokens -/

namespace Issued

variable {rules : TokenRules} (item : Issued rules)

/-- The times of an issued token are dates, and its text is what was signed and the signature. -/
theorem parts : -maximumTime ≤ item.now ∧ item.expiry ≤ maximumTime ∧
    item.token.toList = signedText item.keyId.toList item.encodedPayload ++
      '.' :: Base64Url.encode (rules.signature item.key item.keyId.toList item.encodedPayload) := by
  have issues := item.issues
  unfold issueTelemetryContextToken at issues
  split at issues
  · cases issues
  · next dates =>
    have first : -maximumTime ≤ item.now := Int.not_lt.mp fun before => dates (.inl before)
    have last : item.expiry ≤ maximumTime := Int.not_lt.mp fun after => dates (.inr after)
    refine ⟨first, last, ?_⟩
    rw [← Option.some.inj issues, String.toList_ofList]
    rfl

theorem dot_not_mem_payload : '.' ∉ item.encodedPayload := dot_not_mem_encode _

/-- The payload of an issued token is read as the context that it was issued for, unless one of its
texts is empty or it has expired. -/
theorem readContext_eq_some_iff (lawful : rules.Lawful) {now : Int} {found : VerifiedContext} :
    rules.readContext item.encodedPayload now = some found ↔
      (item.context.userRef ≠ "" ∧ item.context.role ≠ "" ∧ item.context.displayLabel ≠ "" ∧
        item.context.sessionHash ≠ "" ∧ item.context.nonce ≠ "") ∧
      now < item.expiry ∧ item.verified = found := by
  obtain ⟨first, last, -⟩ := item.parts
  have positive : 0 ≤ lifetime := by decide
  have read : Json.parse (String.ofList (Utf8.decodeLossy (decode item.encodedPayload))) =
      some (rules.signedContext item.context item.now) := by
    rw [encodedPayload, encode, decode_encode, Utf8.decodeLossy_bytes]
    exact Json.parse_render _
  have date : rules.parseDate (.string (rules.isoText (item.now + lifetime))) =
      some (item.now + lifetime) := by
    refine lawful.dates _ ?_ last
    omega
  have present (text : String) (value : Json) :
      (some (Json.string text)).filter rules.truthy = some value ↔ text ≠ "" ∧ .string text = value := by
    by_cases empty : text = ""
    · subst empty
      simp [Option.filter, truthy]
    · simp [Option.filter, truthy, empty]
  have properties : let payload := rules.signedContext item.context item.now
      payload.property? "audience" = some (.string audience) ∧
        payload.property? "channel" = some (.string channel) ∧
        payload.property? "userRef" = some (.string item.context.userRef) ∧
        payload.property? "role" = some (.string item.context.role) ∧
        payload.property? "displayLabel" = some (.string item.context.displayLabel) ∧
        payload.property? "sessionHash" = some (.string item.context.sessionHash) ∧
        payload.property? "nonce" = some (.string item.context.nonce) ∧
        payload.property? "expiresAt" = some (.string (rules.isoText (item.now + lifetime))) :=
    ⟨rfl, rfl, rfl, rfl, rfl, rfl, rfl, rfl⟩
  obtain ⟨audience, channel, userRef, role, displayLabel, sessionHash, nonce, expiresAt⟩ := properties
  have guard_eq_some (condition : Prop) [Decidable condition] (done : Unit) :
      (guard condition : Option Unit) = some done ↔ condition := by
    by_cases holds : condition
    · simp [guard, holds]
    · simp [guard, holds]
  unfold readContext
  rw [read, Option.bind_eq_bind, Option.bind_some, audience, channel, userRef, role, displayLabel,
    sessionHash, nonce, expiresAt]
  simp only [Option.bind_eq_bind, Option.bind_some, date, Option.bind_eq_some_iff, present,
    guard_eq_some]
  constructor
  · rintro ⟨-, -, -, ⟨one, rfl⟩, -, ⟨two, rfl⟩, -, ⟨three, rfl⟩, -, ⟨four, rfl⟩, -, ⟨five, rfl⟩, -, early,
      same⟩
    exact ⟨⟨one, two, three, four, five⟩, early, Option.some.inj same⟩
  · rintro ⟨⟨one, two, three, four, five⟩, early, rfl⟩
    exact ⟨(), ⟨rfl, rfl⟩, _, ⟨one, rfl⟩, _, ⟨two, rfl⟩, _, ⟨three, rfl⟩, _, ⟨four, rfl⟩, _, ⟨five, rfl⟩,
      (), early, rfl⟩

end Issued

section Verification

variable {rules : TokenRules} {keyring : Keyring} {now : Int} {token : String}

/-- A token that is spelt with a right signature of an issued text returns its context, if it is good
and usable. -/
theorem verify_of_issued (lawful : rules.Lawful) {item : Issued rules}
    (good : item.Good keyring now) (usable : item.Usable) {encodedSignature : List Char}
    (plain : '.' ∉ encodedSignature)
    (text : token.toList =
      signedText item.keyId.toList item.encodedPayload ++ '.' :: encodedSignature)
    (right : decode encodedSignature =
      rules.signature item.key item.keyId.toList item.encodedPayload) :
    rules.verifyTelemetryContextToken token keyring now = .ok (some item.verified) := by
  obtain ⟨known, early⟩ := good
  obtain ⟨id, undotted, key, filled⟩ := usable
  rw [verify_eq_some_iff]
  refine ⟨item.keyId.toList, item.encodedPayload, encodedSignature, item.key, ?_, ⟨?_, ?_, ?_⟩, ?_, key,
    right, (item.readContext_eq_some_iff lawful).mpr ⟨filled, early, rfl⟩⟩
  · rw [text]
    exact splitOn_signedText undotted item.dot_not_mem_payload plain
  · exact fun empty => id (String.toList_eq_nil_iff.mp empty)
  · intro empty
    have nothing := congrArg decode empty
    rw [Issued.encodedPayload, encode, decode_encode] at nothing
    have text := congrArg Utf8.decodeLossy nothing
    rw [Utf8.decodeLossy_bytes] at text
    cases text
  · rintro rfl
    have length := lawful.digest item.key (signedText item.keyId.toList item.encodedPayload)
    change (rules.signature item.key item.keyId.toList item.encodedPayload).length = 32 at length
    rw [← right] at length
    cases length
  · rw [String.ofList_toList]
    exact known

/-- A context is returned only for an issued text, whose token is good and usable. -/
theorem issued_of_verify (lawful : rules.Lawful) {issued : List (Issued rules)}
    (unforged : Unforged rules issued keyring token) {found : VerifiedContext}
    (accepted : rules.verifyTelemetryContextToken token keyring now = .ok (some found)) :
    ∃ item ∈ issued, item.Good keyring now ∧ item.Usable ∧ item.verified = found ∧
      ∃ encodedSignature, '.' ∉ encodedSignature ∧
        token.toList =
          signedText item.keyId.toList item.encodedPayload ++ '.' :: encodedSignature ∧
        decode encodedSignature =
          rules.signature item.key item.keyId.toList item.encodedPayload := by
  obtain ⟨keyId, encodedPayload, encodedSignature, key, cut, ⟨filled, -, -⟩, known, some', right, read⟩ :=
    verify_eq_some_iff.mp accepted
  obtain ⟨text, id, payload, signature⟩ := splitOn_parts cut
  obtain ⟨item, member, rfl, signed⟩ := unforged _ key _ _ known some' text right
  obtain ⟨rfl, rfl⟩ := signedText_inj item.dot_not_mem_payload payload signed
  rw [String.ofList_toList] at known
  obtain ⟨texts, early, same⟩ := (item.readContext_eq_some_iff lawful).mp read
  have named : item.keyId ≠ "" := fun empty => filled (by rw [empty]; rfl)
  exact ⟨item, member, ⟨known, early⟩, ⟨named, id, some', texts⟩, same, encodedSignature, signature, text,
    right⟩

/-- For every token, keyring and time, verification is total, sound and complete exactly where the
token names no inherited property, spells no signature of a good usable token in another way, and is
usable if it was issued and is good. -/
theorem verified_soundly_iff (lawful : rules.Lawful) (issued : List (Issued rules))
    (unforged : Unforged rules issued keyring token) :
    VerifiedSoundly rules issued keyring now token ↔
      NamesOwnKey keyring token ∧ SpeltAsIssued rules issued keyring now token ∧
        IssuedUsable rules issued keyring now token := by
  constructor
  · rintro ⟨⟨found, total⟩, sound, complete⟩
    refine ⟨?_, ?_, ?_⟩
    · intro keyId encodedPayload encodedSignature id payload signature cut inherited unknown
      have thrown : rules.verifyTelemetryContextToken token keyring now = .error .invalidKeyType :=
        verify_eq_error_iff.mpr ⟨keyId, encodedPayload, encodedSignature, cut,
          ⟨id, payload, signature⟩, unknown, inherited⟩
      rw [thrown] at total
      cases total
    · intro item member good usable encodedSignature plain text right
      have accepted := verify_of_issued lawful good usable plain text right
      obtain ⟨other, -, rfl, -, -⟩ := sound _ accepted
      obtain ⟨-, -, whole⟩ := other.parts
      obtain ⟨same, spelt⟩ := Lines.last_stop_inj plain (dot_not_mem_encode _) (whole.symm.trans text)
      obtain ⟨-, -, own⟩ := item.parts
      rw [← spelt, decode_encode] at right
      apply String.toList_inj.mp
      rw [whole, own, same, right]
    · intro item member issues good
      have accepted := complete item member issues good
      obtain ⟨other, -, ⟨known, early⟩, ⟨id, undotted, key, filled⟩, -, encodedSignature, plain, text,
        -⟩ := issued_of_verify lawful unforged accepted
      obtain ⟨-, -, whole⟩ := item.parts
      rw [issues, text] at whole
      obtain ⟨signed, -⟩ := Lines.last_stop_inj (dot_not_mem_encode _) plain whole
      obtain ⟨ids, payloads⟩ :=
        signedText_inj other.dot_not_mem_payload item.dot_not_mem_payload signed
      -- The two tokens have one id, so one key, and one payload, which is read once.
      have sameId : other.keyId = item.keyId := String.toList_inj.mp ids
      have sameKey : other.key = item.key := by
        rw [sameId, good.1] at known
        exact (Option.some.inj known).symm
      have read := (other.readContext_eq_some_iff lawful).mpr ⟨filled, early, rfl⟩
      rw [payloads] at read
      obtain ⟨texts, -, -⟩ := (item.readContext_eq_some_iff lawful).mp read
      exact ⟨sameId ▸ id, sameId ▸ undotted, sameKey ▸ key, texts⟩
  · rintro ⟨own, spelt, usable⟩
    refine ⟨?_, ?_, ?_⟩
    · cases ended : rules.verifyTelemetryContextToken token keyring now with
      | ok found => exact ⟨found, rfl⟩
      | error error =>
        obtain ⟨keyId, encodedPayload, encodedSignature, cut, ⟨id, payload, signature⟩, unknown,
          inherited⟩ := verify_eq_error_iff.mp ended
        exact absurd unknown (own _ _ _ id payload signature cut inherited)
    · intro found accepted
      obtain ⟨item, member, good, usable, same, encodedSignature, plain, text, right⟩ :=
        issued_of_verify lawful unforged accepted
      exact ⟨item, member, (spelt item member good usable _ plain text right).symm, same, good⟩
    · intro item member issues good
      obtain ⟨-, -, text⟩ := item.parts
      rw [issues] at text
      exact verify_of_issued lawful good (usable item member issues good) (dot_not_mem_encode _) text
        (decode_encode _)

end Verification

/-! ## A teacher's token -/

def teacher : TelemetryContext where
  userRef := "usr_01"
  role := "teacher"
  displayLabel := "Teacher"
  sessionHash := String.ofList (List.replicate 64 'a')
  nonce := "nonce-01"

/-- When the token is issued: at `2026-08-22T03:14:00.000Z`. -/
def issuedAt : Int := 1787368440000

/-- Rules that write the dates of the token as they are, and any other as its number. -/
def dateRules : TokenRules where
  hmac _ _ := []
  isoText time :=
    if time = issuedAt then "2026-08-22T03:14:00.000Z"
    else if time = issuedAt + lifetime then "2026-08-22T03:29:00.000Z"
    else (Json.number (Numeral.ofInt time)).render
  parseDate
    | .string text =>
      if text = "2026-08-22T03:14:00.000Z" then some issuedAt
      else if text = "2026-08-22T03:29:00.000Z" then some (issuedAt + lifetime)
      else
        match Json.parse text with
        | some (.number literal) => literal.toInt?
        | _ => none
    | _ => none
  numberTruthy _ := true

def teacherPayload : List Char := encode (dateRules.signedContext teacher issuedAt)

/-- Rules with the digest of the teacher's token. -/
def teacherRules : TokenRules :=
  { dateRules with
    hmac := fun key text =>
      if key = "signing-key" ∧ text = signedText ['v', '1'] teacherPayload then
        [178, 202, 237, 87, 59, 101, 52, 118, 204, 217, 231, 234, 253, 185, 156, 211, 125, 38, 13, 137,
          229, 242, 52, 151, 196, 60, 142, 25, 211, 136, 116, 12]
      else List.replicate 32 0 }

def teacherKeyring : Keyring := fun keyId => if keyId = "v1" then some "signing-key" else none

def teacherToken : Issued teacherRules where
  context := teacher
  keyId := "v1"
  key := "signing-key"
  now := issuedAt
  token := (teacherRules.issueTelemetryContextToken teacher "v1" "signing-key" issuedAt).getD ""
  issues := rfl

theorem teacherRules_lawful : teacherRules.Lawful where
  digest key text := by
    change (if _ then _ else _ : List UInt8).length = 32
    split <;> rfl
  dates time _ _ := by
    have plain (text : String) (known : (Json.parse text).isNone = true) :
        (Json.number (Numeral.ofInt time)).render ≠ text := by
      rintro rfl
      rw [Json.parse_render] at known
      cases known
    change dateRules.parseDate (.string (dateRules.isoText time)) = some time
    unfold dateRules
    dsimp only
    by_cases first : time = issuedAt
    · rw [if_pos first, if_pos rfl, first]
    · rw [if_neg first]
      by_cases last : time = issuedAt + lifetime
      · rw [if_pos last, if_neg (by decide), if_pos rfl, last]
      · rw [if_neg last, if_neg (plain "2026-08-22T03:14:00.000Z" (by decide +kernel)),
          if_neg (plain "2026-08-22T03:29:00.000Z" (by decide +kernel)), Json.parse_render]
        exact Numeral.toInt?_ofInt time

/-- The characters of the teacher's token. -/
def teacherText : List Char :=
  signedText ['v', '1'] teacherPayload ++
    '.' :: Base64Url.encode (teacherRules.signature "signing-key" ['v', '1'] teacherPayload)

theorem teacherToken_toList : teacherToken.token.toList = teacherText := String.toList_ofList

/-- No signature under the keyring's key is right in the teacher's token but that of its text. -/
theorem teacherToken_unforged :
    Unforged teacherRules [teacherToken] teacherKeyring teacherToken.token := by
  have cuts : (List.range teacherText.length).all (fun place =>
      teacherText[place]? ≠ some '.' ||
        decode (teacherText.drop (place + 1)) ≠ List.replicate 32 0) = true := by
    decide +kernel
  rw [← teacherToken_toList] at cuts
  intro keyId key text encodedSignature known _ cut right
  have keys : key = "signing-key" := by
    unfold teacherKeyring at known
    split at known
    · exact (Option.some.inj known).symm
    · cases known
  subst keys
  change decode encodedSignature = if _ then _ else _ at right
  by_cases same : text = signedText ['v', '1'] teacherPayload
  · exact ⟨teacherToken, .head _, rfl, same.symm⟩
  · rw [if_neg fun both => same both.2] at right
    have here := List.all_eq_true.mp cuts text.length (List.mem_range.mpr (by simp [cut]))
    rw [cut] at here
    simp [right] at here

/-- Verification of the teacher's token is told exactly. -/
theorem verified_soundly_iff_teacher :
    teacherToken.token.toList.length = 440 ∧
      (VerifiedSoundly teacherRules [teacherToken] teacherKeyring issuedAt teacherToken.token ↔
        NamesOwnKey teacherKeyring teacherToken.token ∧
          SpeltAsIssued teacherRules [teacherToken] teacherKeyring issuedAt teacherToken.token ∧
          IssuedUsable teacherRules [teacherToken] teacherKeyring issuedAt teacherToken.token) :=
  ⟨teacherToken_toList ▸ (by decide +kernel : teacherText.length = 440),
    verified_soundly_iff teacherRules_lawful _ teacherToken_unforged⟩

/-- A token that names an inherited property makes the verification throw. -/
theorem constructor_not_verified_soundly :
    Unforged teacherRules [] teacherKeyring "v1.constructor.e30.AA" ∧
      ¬VerifiedSoundly teacherRules [] teacherKeyring issuedAt "v1.constructor.e30.AA" := by
  constructor
  · have short : (List.range 21).all (fun place =>
        (decode ("v1.constructor.e30.AA".toList.drop (place + 1))).length ≠ 32) = true := by
      decide +kernel
    intro keyId key text encodedSignature _ _ cut right
    have inside : text.length < 21 := by
      have length := congrArg List.length cut
      rw [List.length_append, List.length_cons] at length
      have whole : "v1.constructor.e30.AA".toList.length = 21 := by decide
      omega
    have here := List.all_eq_true.mp short text.length (List.mem_range.mpr inside)
    rw [cut] at here
    simp [right, teacherRules_lawful.digest] at here
  · rintro ⟨⟨found, total⟩, -, -⟩
    have thrown : teacherRules.verifyTelemetryContextToken "v1.constructor.e30.AA" teacherKeyring
        issuedAt = .error .invalidKeyType :=
      verify_eq_error_iff.mpr ⟨"constructor".toList, "e30".toList, "AA".toList, by decide, by decide,
        by decide, by decide⟩
    rw [thrown] at total
    cases total

end NancyMan.Telemetry.ContextToken
