import Mathlib.Data.List.Nodup
import NancyMan.Lib.ExpiringKeys
import NancyMan.Lib.Json
import NancyMan.Lib.Machine

/-!
# Replayed ingest requests

A signed request passes when its timestamp is at most a minute away, its signature is right and its
nonce is not remembered. The nonce is remembered until a minute after the timestamp and forgotten
at that very instant, at which the timestamp still passes: `nonces_accepted_once` says that only
there a request is accepted again.
-/
namespace NancyMan.Ingest

/-- The functions that the verification calls. -/
structure SignatureRules where
  /-- `Date.parse(text)`, unless it is not a number. -/
  parseDate : String → Option Int
  toUpperCase : String → String
  /-- `createHash('sha256').update(text, 'utf8').digest('hex')`. -/
  sha256Hex : String → String
  /-- `createHmac('sha256', secret).update(text, 'utf8').digest()`. -/
  hmac : String → String → List UInt8

structure CanonicalRequest where
  method : String
  path : String
  timestamp : String
  nonce : String
  rawBody : String

/-- What `verifyServerIngestRequest` is given, besides the store and the time. -/
structure VerifyInput extends CanonicalRequest where
  secret : String
  signature : String

/-- The codes of `verifyServerIngestRequest`. -/
inductive VerifyFailure where
  | expiredTimestamp
  | invalidSignature
  | replayedNonce

def isNonceSymbol (symbol : Char) : Bool := symbol.isAlphanum || symbol = '_' || symbol = '-'

/-- `/^[A-Za-z0-9_-]{16,255}$/`. -/
def isNonce (text : String) : Bool :=
  decide (16 ≤ text.toList.length) && decide (text.toList.length ≤ 255) &&
    text.toList.all isNonceSymbol

/-- `/^v1=([a-f0-9]{64})$/i`: the digits. -/
def suppliedDigits (signature : String) : Option (List Nat) :=
  match signature.toList with
  | version :: '1' :: '=' :: digits =>
    if (version = 'v' ∨ version = 'V') ∧ digits.length = 64 then digits.mapM Json.hexValue
    else none
  | _ => none

/-- `Buffer.from(digits, 'hex')`. -/
def hexBytes : List Nat → List UInt8
  | high :: low :: rest => UInt8.ofNat (16 * high + low) :: hexBytes rest
  | _ => []

section Verifying

variable (rules : SignatureRules)

def canonicalRequest (input : CanonicalRequest) : String :=
  "\n".intercalate ["v1", rules.toUpperCase input.method, input.path, input.timestamp, input.nonce,
    rules.sha256Hex input.rawBody]

def computeSignature (secret : String) (request : CanonicalRequest) : List UInt8 :=
  rules.hmac secret (canonicalRequest rules request)

/-- Whether the signature of a request is right. -/
def isSigned (input : VerifyInput) : Bool :=
  match suppliedDigits input.signature with
  | none => false
  | some digits => hexBytes digits == computeSignature rules input.secret input.toCanonicalRequest

/-- The checks of `verifyServerIngestRequest` before the store: the timestamp that they let pass. -/
def checkedTimestamp (now : Int) (input : VerifyInput) : Except VerifyFailure Int :=
  match rules.parseDate input.timestamp with
  | none => .error .expiredTimestamp
  | some timestamp =>
    if 60000 < (now - timestamp).natAbs then .error .expiredTimestamp
    else if !isNonce input.nonce then .error .invalidSignature
    else if !isSigned rules input then .error .invalidSignature
    else .ok timestamp

/-- `NonceStore`, over what it keeps. -/
abbrev NonceStore (S : Type) := S → String → Int → Int → S × Bool

/-- `InMemoryNonceStore`: `consume`. -/
def InMemoryNonceStore.consume : NonceStore (ExpiringKeys String) := fun store nonce expiresAt now =>
  ExpiringKeys.consume (fun _ => true) store nonce expiresAt now

/-- `PostgresNonceStore`: `consume`, on the rows of `ingest_nonces`. -/
def PostgresNonceStore.consume : NonceStore (ExpiringKeys String) := fun rows nonce expiresAt now =>
  ExpiringKeys.consume (fun _ => true) rows (rules.sha256Hex nonce) expiresAt now

def verifyServerIngestRequest {S : Type} (consume : NonceStore S) (store : S) (now : Int)
    (input : VerifyInput) : S × Except VerifyFailure Unit :=
  match checkedTimestamp rules now input with
  | .error failure => (store, .error failure)
  | .ok timestamp =>
    let consumed := consume store input.nonce (timestamp + 60000) now
    (consumed.1, if consumed.2 then .ok () else .error .replayedNonce)

end Verifying

/-! ## Runs -/

/-- A store, the time, and the nonces that were accepted with their timestamps. -/
structure IngestVerifier (S : Type) where
  now : Int
  store : S
  accepted : List (String × String)

/-- A request some time after the one before. -/
structure VerifyCall where
  elapsed : Nat
  input : VerifyInput

namespace IngestVerifier

def initial (now : Int) : IngestVerifier (ExpiringKeys String) := ⟨now, [], []⟩

/-- A request. -/
def step {S : Type} (rules : SignatureRules) (consume : NonceStore S) (verifier : IngestVerifier S)
    (call : VerifyCall) : IngestVerifier S × Except VerifyFailure Unit :=
  let now := verifier.now + call.elapsed
  let verified := verifyServerIngestRequest rules consume verifier.store now call.input
  let accepted := match verified.2 with
    | .ok () => verifier.accepted ++ [(call.input.nonce, call.input.timestamp)]
    | .error _ => verifier.accepted
  (⟨now, verified.1, accepted⟩, verified.2)

def AcceptsOnce {S : Type} (verifier : IngestVerifier S) : Prop := verifier.accepted.Nodup

/-- A request that was accepted comes again exactly a minute after its timestamp, and no other
request has taken its nonce. -/
def ComesAtLastInstant (rules : SignatureRules) (key : String → String)
    (verifier : IngestVerifier (ExpiringKeys String)) (call : VerifyCall) : Prop :=
  (call.input.nonce, call.input.timestamp) ∈ verifier.accepted ∧
    checkedTimestamp rules (verifier.now + call.elapsed) call.input =
      .ok (verifier.now + call.elapsed - 60000) ∧
    verifier.store.holds (key call.input.nonce) (verifier.now + call.elapsed) = false

/-! ## One request -/

/-- A timestamp that passes is the parsed one, at most a minute away. -/
theorem checkedTimestamp_ok {rules : SignatureRules} {now timestamp : Int} {input : VerifyInput}
    (passes : checkedTimestamp rules now input = .ok timestamp) :
    rules.parseDate input.timestamp = some timestamp ∧ (now - timestamp).natAbs ≤ 60000 := by
  unfold checkedTimestamp at passes
  split at passes
  · cases passes
  · next parsed found =>
    split at passes
    · cases passes
    · next near =>
      split at passes
      · cases passes
      · split at passes
        · cases passes
        · obtain rfl := Except.ok.inj passes
          exact ⟨found, by omega⟩

/-- What was accepted is remembered until a minute after its timestamp. -/
structure IsSound (rules : SignatureRules) (key : String → String)
    (verifier : IngestVerifier (ExpiringKeys String)) : Prop where
  remembers : verifier.store.Remembers verifier.now (verifier.accepted.map fun pair =>
    (key pair.1, (rules.parseDate pair.2).getD 0 + 60000))

section Keyed

variable {rules : SignatureRules} {key : String → String}
  {consume : NonceStore (ExpiringKeys String)} {verifier : IngestVerifier (ExpiringKeys String)}
  (keyed : ∀ store nonce expiresAt now, consume store nonce expiresAt now = ExpiringKeys.consume (fun _ => true) store (key nonce) expiresAt now)

include keyed

/-- A request that passes the checks is accepted exactly when its nonce is not held. -/
theorem step_passes {call : VerifyCall} {timestamp : Int}
    (passes : checkedTimestamp rules (verifier.now + call.elapsed) call.input = .ok timestamp) :
    (verifier.step rules consume call).1 =
      ⟨verifier.now + call.elapsed,
        (ExpiringKeys.consume (fun _ => true) verifier.store (key call.input.nonce)
          (timestamp + 60000) (verifier.now + call.elapsed)).1,
        if verifier.store.holds (key call.input.nonce) (verifier.now + call.elapsed) = false then
          verifier.accepted ++ [(call.input.nonce, call.input.timestamp)]
        else verifier.accepted⟩ := by
  have accepts : (ExpiringKeys.consume (fun _ => true) verifier.store (key call.input.nonce)
      (timestamp + 60000) (verifier.now + call.elapsed)).2 = true ↔
        verifier.store.holds (key call.input.nonce) (verifier.now + call.elapsed) = false ∧ _ :=
    ExpiringKeys.consume_accepts_iff
  unfold step verifyServerIngestRequest
  dsimp only
  rw [passes]
  dsimp only
  rw [keyed]
  by_cases free : verifier.store.holds (key call.input.nonce) (verifier.now + call.elapsed) = false
  · rw [if_pos free, if_pos (accepts.mpr ⟨free, rfl⟩)]
  · rw [if_neg free, if_neg fun accepted => free (accepts.mp accepted).1]

omit keyed in
theorem step_fails {call : VerifyCall} {failure : VerifyFailure}
    (fails : checkedTimestamp rules (verifier.now + call.elapsed) call.input = .error failure) :
    (verifier.step rules consume call).1 =
      ⟨verifier.now + call.elapsed, verifier.store, verifier.accepted⟩ := by
  unfold step verifyServerIngestRequest
  dsimp only
  rw [fails]

/-- A request keeps what was accepted remembered. -/
theorem IsSound.step (sound : verifier.IsSound rules key) (call : VerifyCall) :
    (verifier.step rules consume call).1.IsSound rules key := by
  have later : verifier.now ≤ verifier.now + call.elapsed := by omega
  cases checked : checkedTimestamp rules (verifier.now + call.elapsed) call.input with
  | error failure =>
    rw [step_fails checked]
    exact ⟨sound.remembers.later later⟩
  | ok timestamp =>
    rw [step_passes keyed checked]
    have kept : (ExpiringKeys.consume (fun _ => true) verifier.store (key call.input.nonce)
        (timestamp + 60000) (verifier.now + call.elapsed)).1.Remembers _ _ :=
      sound.remembers.consume later
    refine ⟨?_⟩
    by_cases free : verifier.store.holds (key call.input.nonce) (verifier.now + call.elapsed) = false
    · rw [if_pos (ExpiringKeys.consume_accepts_iff.mpr ⟨free, rfl⟩)] at kept
      rw [if_pos free, List.map_append, List.map_singleton, (checkedTimestamp_ok checked).1]
      exact kept
    · rw [if_neg fun accepted => free (ExpiringKeys.consume_accepts_iff.mp accepted).1] at kept
      rw [if_neg free]
      exact kept

/-- A request is accepted again exactly when it comes at the last instant. -/
theorem acceptsOnce_step
    (sound : verifier.IsSound rules key) (once : verifier.AcceptsOnce) (call : VerifyCall) :
    (verifier.step rules consume call).1.AcceptsOnce ↔
      ¬ verifier.ComesAtLastInstant rules key call := by
  cases checked : checkedTimestamp rules (verifier.now + call.elapsed) call.input with
  | error failure =>
    rw [step_fails checked]
    refine iff_of_true once fun comes => ?_
    rw [comes.2.1] at checked
    cases checked
  | ok timestamp =>
    obtain ⟨parsed, near⟩ := checkedTimestamp_ok checked
    rw [step_passes keyed checked]
    by_cases free : verifier.store.holds (key call.input.nonce) (verifier.now + call.elapsed) = false
    · rw [if_pos free]
      by_cases known : (call.input.nonce, call.input.timestamp) ∈ verifier.accepted
      · have expired : timestamp + 60000 ≤ verifier.now + call.elapsed := by
          have remembered : (key call.input.nonce,
              (rules.parseDate call.input.timestamp).getD 0 + 60000) ∈
                verifier.accepted.map fun pair =>
                  (key pair.1, (rules.parseDate pair.2).getD 0 + 60000) :=
            List.mem_map_of_mem known
          rw [parsed] at remembered
          exact sound.remembers.expired free (by omega) remembered
        have last : timestamp = verifier.now + call.elapsed - 60000 := by omega
        refine iff_of_false (fun twice => ?_) fun other => ?_
        · exact (List.nodup_append.mp twice).2.2 _ known _ (.head _) rfl
        · exact other ⟨known, by rw [checked, last], free⟩
      · refine iff_of_true ?_ fun comes => known comes.1
        refine List.nodup_append.mpr ⟨once, List.nodup_singleton _, ?_⟩
        intro earlier member later added same
        rw [same, List.mem_singleton.mp added] at member
        exact known member
    · rw [if_neg free]
      exact iff_of_true once fun comes => free comes.2.2

/-- Throughout a run no nonce is accepted twice with the same timestamp exactly when no request comes
at its last instant. -/
theorem acceptsOnce_iff (now : Int) (calls : List VerifyCall) :
    Machine.Throughout (step rules consume) AcceptsOnce (initial now) calls ↔
      Machine.Along (step rules consume)
        (fun verifier call => ¬ verifier.ComesAtLastInstant rules key call) (initial now) calls := by
  have first : (initial now).IsSound rules key := ⟨ExpiringKeys.remembers_nil _ _⟩
  have kept (verifier : IngestVerifier (ExpiringKeys String)) (call : VerifyCall)
      (sound : verifier.IsSound rules key) : (verifier.step rules consume call).1.IsSound rules key :=
    sound.step keyed call
  have agree (verifier : IngestVerifier (ExpiringKeys String)) (call : VerifyCall)
      (sound : verifier.IsSound rules key) (once : verifier.AcceptsOnce) :
      (verifier.step rules consume call).1.AcceptsOnce ↔
        ¬ verifier.ComesAtLastInstant rules key call :=
    acceptsOnce_step keyed sound once call
  rw [Machine.throughout_iff kept agree first]
  exact and_iff_right List.nodup_nil

omit keyed

end Keyed

end IngestVerifier

/-! ## Both stores -/

/-- Against either store, no nonce is ever accepted twice with the same timestamp exactly when no
request that was accepted comes again a minute after its timestamp, with its nonce not taken by
another. -/
theorem nonces_accepted_once (rules : SignatureRules) (now : Int) (calls : List VerifyCall) :
    (Machine.Throughout (IngestVerifier.step rules InMemoryNonceStore.consume)
        IngestVerifier.AcceptsOnce (.initial now) calls ↔
      Machine.Along (IngestVerifier.step rules InMemoryNonceStore.consume)
        (fun verifier call => ¬ verifier.ComesAtLastInstant rules id call) (.initial now) calls) ∧
    (Machine.Throughout (IngestVerifier.step rules (PostgresNonceStore.consume rules))
        IngestVerifier.AcceptsOnce (.initial now) calls ↔
      Machine.Along (IngestVerifier.step rules (PostgresNonceStore.consume rules))
        (fun verifier call => ¬ verifier.ComesAtLastInstant rules rules.sha256Hex call)
        (.initial now) calls) :=
  ⟨IngestVerifier.acceptsOnce_iff (fun _ _ _ _ => rfl) now calls,
    IngestVerifier.acceptsOnce_iff (fun _ _ _ _ => rfl) now calls⟩

def constantRules : SignatureRules :=
  ⟨fun _ => some 0, id, id, fun _ _ => List.replicate 32 0⟩

/-- A request with the signature of these rules. -/
def signedInput : VerifyInput where
  method := "POST"
  path := "/api/ingest/v1/server"
  timestamp := "1970-01-01T00:00:00.000Z"
  nonce := "0123456789abcdef"
  rawBody := ""
  secret := ""
  signature := String.ofList ("v1=".toList ++ List.replicate 64 '0')

/-- So the claim of a nonce that is never accepted twice is false. -/
theorem nonce_accepted_twice :
    ¬ ∀ (rules : SignatureRules) (now : Int) (calls : List VerifyCall),
      Machine.Throughout (IngestVerifier.step rules (PostgresNonceStore.consume rules))
        IngestVerifier.AcceptsOnce (.initial now) calls := by
  intro all
  have once := all constantRules 0 [⟨0, signedInput⟩, ⟨60000, signedInput⟩]
    [⟨0, signedInput⟩, ⟨60000, signedInput⟩] [] rfl
  unfold IngestVerifier.AcceptsOnce at once
  exact absurd once (by decide)

end NancyMan.Ingest
