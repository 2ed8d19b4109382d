import NancyMan.Auth.LoginStore

/-!
# Login attempts

`beginLogin` checks the password and issues a challenge, and `completeTotpLogin` takes a challenge
and a code of the second factor. Any number of calls are under way at once: a step is one statement
of one call, or the end of its password check, and time passes before it.
-/
namespace NancyMan.Auth

/-- What `beginLogin` is given. -/
structure BeginInput where
  identifier : String
  password : String
  ipHash : String
  userAgent : String

/-- What `completeTotpLogin` is given. -/
structure CompleteInput where
  mfaChallenge : String
  factorId : String
  token : String
  ipHash : String
  userAgent : String

/-- What a call returns. The tokens of a session are left out. -/
inductive LoginAnswer where
  | denied
  | mfaRequired (mfaChallenge : String) (factors : List TotpFactor)
  | authenticated (role : String) (idleExpiresAt absoluteExpiresAt : Int)
deriving DecidableEq

/-- What a call does next. -/
inductive LoginPhase where
  | idle
  /-- `beginLogin` reads the credential. -/
  | begun (input : BeginInput)
  /-- It tests the account and its block. -/
  | credentialRead (input : BeginInput) (principal : Option PasswordCredential)
  /-- It waits for the password check. -/
  | verifying (input : BeginInput) (principal : PasswordCredential)
  /-- It stores the challenge. -/
  | passed (input : BeginInput) (principal : PasswordCredential)
  /-- `completeTotpLogin` finds the challenge. -/
  | completing (input : CompleteInput)
  /-- It checks the code. -/
  | found (input : CompleteInput) (challenge : Option TotpChallenge)
  /-- It consumes the challenge. -/
  | consuming (input : CompleteInput) (challenge : TotpChallenge) (session : OpsSession)
  /-- `recordLoginEvent` inserts the failure. -/
  | failing (origin : LoginOrigin)
  /-- It blocks the user at the threshold. -/
  | counting (origin : LoginOrigin) (userId : Nat)
  /-- It notes the block. -/
  | noting (origin : LoginOrigin)

/-- The tables, the calls that are under way and the time. -/
structure Logins where
  store : LoginStore
  calls : Nat → LoginPhase
  now : Int

/-- A call starts, or does its next step. -/
inductive LoginMove where
  | begin (input : BeginInput)
  | complete (input : CompleteInput)
  /-- The next step, with what `issueOpaqueToken` returns if it is called. -/
  | advance (token : String)

/-- A move of a call after some time. -/
structure LoginStep where
  call : Nat
  elapsed : Nat
  move : LoginMove

def safeUserAgent (userAgent : String) : String :=
  let kept := String.ofList ((trim userAgent.toList).take 512)
  if kept = "" then "unknown" else kept

/-- The failure of a `beginLogin`. -/
def BeginInput.failure (input : BeginInput) (principal : Option PasswordCredential) :
    LoginOrigin where
  userId := principal.map PasswordCredential.id
  ipHash := input.ipHash
  userAgent := safeUserAgent input.userAgent
  reasonCode := .invalidCredentialsOrMfaUnavailable

/-- The failure of a `completeTotpLogin`. -/
def CompleteInput.failure (input : CompleteInput) (challenge : Option TotpChallenge) :
    LoginOrigin where
  userId := challenge.map TotpChallenge.userId
  ipHash := input.ipHash
  userAgent := safeUserAgent input.userAgent
  reasonCode := .invalidMfa

variable (rules : LoginRules)

/-- The challenge of a `beginLogin`. -/
def issuedChallenge (input : BeginInput) (principal : PasswordCredential) (token : String)
    (now : Int) : MfaChallenge where
  userId := principal.id
  challengeHash := rules.hashMfaChallenge token
  expiresAt := now + 300000
  usedAt := none
  ipHash := input.ipHash
  userAgent := safeUserAgent input.userAgent

/-- The session of a `completeTotpLogin`, with the expiries of `createSession`. -/
def createSession (input : CompleteInput) (challenge : TotpChallenge) (now : Int) : OpsSession where
  userId := challenge.userId
  idleExpiresAt := now + 1800000
  absoluteExpiresAt := now + 43200000
  ipHash := input.ipHash
  userAgent := safeUserAgent input.userAgent

/-- What a step of a call leaves: the tables, what the call does next and what it returns. -/
structure LoginResult where
  store : LoginStore
  phase : LoginPhase
  answer : Option LoginAnswer

variable (store : LoginStore)

/-- The tests of `beginLogin` before the password. -/
def testAccount (input : BeginInput) (principal : Option PasswordCredential) (now : Int) : LoginResult :=
  match principal with
  | none => ⟨store, .failing (input.failure none), none⟩
  | some principal =>
    if principal.status ≠ .active ∨ principal.isBlocked now then
      ⟨store, .failing (input.failure (some principal)), none⟩
    else ⟨store, .verifying input principal, none⟩

/-- The end of the password check. -/
def testPassword (input : BeginInput) (principal : PasswordCredential) : LoginResult :=
  if rules.verifyPassword principal.passwordHash input.password ∧ principal.mfaFactors ≠ [] then
    ⟨store, .passed input principal, none⟩
  else ⟨store, .failing (input.failure (some principal)), none⟩

/-- The challenge is stored; where its hash is taken the insertion throws. -/
def storeChallenge (input : BeginInput) (principal : PasswordCredential) (token : String)
    (now : Int) : LoginResult :=
  match store.createMfaChallenge (issuedChallenge rules input principal token now) with
  | some stored => ⟨stored, .idle, some (.mfaRequired token principal.mfaFactors)⟩
  | none => ⟨store, .idle, none⟩

/-- The check of the second factor. -/
def testCode (input : CompleteInput) (challenge : Option TotpChallenge) (now : Int) : LoginResult :=
  match challenge with
  | none => ⟨store, .failing (input.failure none), none⟩
  | some challenge =>
    if rules.verifyTotp challenge.encryptedTotpSecret input.token now then
      ⟨store, .consuming input challenge (createSession input challenge now), none⟩
    else ⟨store, .failing (input.failure (some challenge)), none⟩

/-- The consumption of the challenge. -/
def consumeChallenge (input : CompleteInput) (challenge : TotpChallenge) (session : OpsSession)
    (now : Int) : LoginResult :=
  let consumed := store.consumeMfaChallengeAndCreateSession
    (rules.hashMfaChallenge input.mfaChallenge) session now
  ⟨consumed.1, .idle, some (if consumed.2 then
    .authenticated challenge.role session.idleExpiresAt session.absoluteExpiresAt else .denied)⟩

/-- The insertion of a failure. -/
def insertFailure (origin : LoginOrigin) (now : Int) : LoginResult :=
  match origin.userId with
  | none => ⟨store.insertLoginEvent origin .failed now, .idle, some .denied⟩
  | some userId => ⟨store.insertLoginEvent origin .failed now, .counting origin userId, none⟩

/-- The update of `recordLoginEvent`. -/
def countFailures (origin : LoginOrigin) (userId : Nat) (now : Int) : LoginResult :=
  if store.reachesThreshold userId now then ⟨store.block now, .noting origin, none⟩
  else ⟨store, .idle, some .denied⟩

/-- The event of a block. -/
def noteBlock (origin : LoginOrigin) (now : Int) : LoginResult :=
  ⟨store.insertLoginEvent { origin with reasonCode := .failedLoginThreshold } .locked now, .idle,
    some .denied⟩

/-- The next step of a call. -/
def advance (token : String) (now : Int) : LoginPhase → LoginResult
  | .idle => ⟨store, .idle, none⟩
  | .begun input =>
    ⟨store, .credentialRead input (store.findPasswordCredential rules
      (rules.lower (String.ofList (trim input.identifier.toList))) now), none⟩
  | .credentialRead input principal => testAccount store input principal now
  | .verifying input principal => testPassword rules store input principal
  | .passed input principal => storeChallenge rules store input principal token now
  | .completing input =>
    ⟨store, .found input (store.findTotpChallenge (rules.hashMfaChallenge input.mfaChallenge)
      input.factorId input.ipHash now), none⟩
  | .found input challenge => testCode rules store input challenge now
  | .consuming input challenge session => consumeChallenge rules store input challenge session now
  | .failing origin => insertFailure store origin now
  | .counting origin userId => countFailures store origin userId now
  | .noting origin => noteBlock store origin now

/-- Whether a `login_blocked_until` lies ahead. -/
def Blocks (loginBlockedUntil : Option Int) (now : Int) : Prop :=
  ∃ time, loginBlockedUntil = some time ∧ now < time

namespace Logins

def time (logins : Logins) (step : LoginStep) : Int := logins.now + step.elapsed

/-- What a move of a call does; a call that is under way does not start anew. -/
def result (rules : LoginRules) (logins : Logins) (step : LoginStep) : LoginResult :=
  match step.move, logins.calls step.call with
  | .begin input, .idle => ⟨logins.store, .begun input, none⟩
  | .complete input, .idle => ⟨logins.store, .completing input, none⟩
  | .advance token, phase => advance rules logins.store token (logins.time step) phase
  | _, phase => ⟨logins.store, phase, none⟩

/-- One step, and what the call returns. -/
def act (rules : LoginRules) (logins : Logins) (step : LoginStep) : Logins × Option LoginAnswer :=
  let result := logins.result rules step
  (⟨result.store, Function.update logins.calls step.call result.phase, logins.time step⟩,
    result.answer)

def BlockedAt (logins : Logins) (now : Int) : Prop :=
  Blocks logins.store.user.loginBlockedUntil now

end Logins

/-- Whether an answer lets a guess pass. -/
def LoginAnswer.accepts : LoginAnswer → Bool
  | .denied => false
  | .mfaRequired .. => true
  | .authenticated .. => true

end NancyMan.Auth
