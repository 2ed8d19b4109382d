import NancyMan.Lib.Js

/-!
# The tables of a login

`PostgresOpsAuthRepository` reads the credential of a user, counts the failed logins and blocks the
user after five of them, and keeps the challenges that a second factor answers. Every function here
is one statement of the database. There is one user; times are milliseconds and one clock tells
them.
-/
namespace NancyMan.Auth

/-- The check of `ops_users.status`. -/
inductive UserStatus where
  | pendingMfa
  | active
  | locked
  | revoked
deriving DecidableEq

/-- `MfaFactorSummary` with the secret of the factor, of a factor that is not revoked. -/
structure TotpFactor where
  id : String
  label : String
  encryptedSecret : String
deriving DecidableEq

/-- The latest password of the user that is not superseded. -/
structure PasswordRow where
  passwordHash : String
  expiresAt : Option Int

/-- The row of `ops_users` with its credential and factors. -/
structure OpsUser where
  id : Nat
  username : String
  email : String
  displayName : String
  role : String
  status : UserStatus
  loginBlockedUntil : Option Int
  lastLoginAt : Option Int
  password : Option PasswordRow
  mfaFactors : List TotpFactor

/-- `outcome` of a login event. -/
inductive LoginOutcome where
  | succeeded
  | failed
  | locked
deriving DecidableEq

/-- `reason_code` of a login event. -/
inductive ReasonCode where
  | invalidCredentialsOrMfaUnavailable
  | invalidMfa
  | failedLoginThreshold
  | mfaVerified

/-- A row of `ops_login_events`. -/
structure LoginEvent where
  userId : Option Nat
  occurredAt : Int
  outcome : LoginOutcome
  ipHash : String
  userAgent : String
  reasonCode : ReasonCode

/-- A row of `ops_mfa_login_challenges`. -/
structure MfaChallenge where
  userId : Nat
  challengeHash : String
  expiresAt : Int
  usedAt : Option Int
  ipHash : String
  userAgent : String

/-- A row of `ops_sessions`, without its tokens. -/
structure OpsSession where
  userId : Nat
  idleExpiresAt : Int
  absoluteExpiresAt : Int
  ipHash : String
  userAgent : String

/-- The functions of a login that are not statements. -/
structure LoginRules where
  /-- `text.toLowerCase()`, and `lower(text)` of the database. -/
  lower : String → String
  /-- `hashMfaChallenge`, under the session pepper. -/
  hashMfaChallenge : String → String
  /-- `verifyPassword`. -/
  verifyPassword : String → String → Bool
  /-- `verifyTotp`, under the encryption key. -/
  verifyTotp : String → String → Int → Bool

structure PasswordCredential where
  id : Nat
  role : String
  status : UserStatus
  loginBlockedUntil : Option Int
  passwordHash : String
  mfaFactors : List TotpFactor

structure TotpChallenge where
  userId : Nat
  role : String
  encryptedTotpSecret : String

/-- Whom and where a login event is about. -/
structure LoginOrigin where
  userId : Option Nat
  ipHash : String
  userAgent : String
  reasonCode : ReasonCode

/-- The tables. -/
structure LoginStore where
  user : OpsUser
  loginEvents : List LoginEvent
  challenges : List MfaChallenge
  sessions : List OpsSession

namespace LoginStore

variable (store : LoginStore)

/-- The password of the user, unless it has expired. -/
def currentPassword (now : Int) : Option PasswordRow :=
  store.user.password.filter fun row =>
    match row.expiresAt with
    | none => true
    | some expiresAt => decide (now < expiresAt)

def findPasswordCredential (rules : LoginRules) (store : LoginStore) (identifier : String)
    (now : Int) : Option PasswordCredential :=
  if rules.lower store.user.username = rules.lower identifier ∨
      rules.lower store.user.email = rules.lower identifier then
    (store.currentPassword now).map fun row =>
      ⟨store.user.id, store.user.role, store.user.status, store.user.loginBlockedUntil,
        row.passwordHash, store.user.mfaFactors⟩
  else none

/-- An insertion into `ops_login_events`. -/
def insertLoginEvent (origin : LoginOrigin) (outcome : LoginOutcome) (now : Int) : LoginStore :=
  { store with loginEvents := store.loginEvents ++
      [⟨origin.userId, now, outcome, origin.ipHash, origin.userAgent, origin.reasonCode⟩] }

/-- The failed logins of a user in the last fifteen minutes. -/
def recentFailures (userId : Nat) (now : Int) : Nat :=
  (store.loginEvents.filter fun event =>
    event.userId == some userId && event.outcome == .failed &&
      decide (now - 900000 ≤ event.occurredAt)).length

/-- Whether the update of `recordLoginEvent` blocks the user. -/
def reachesThreshold (userId : Nat) (now : Int) : Bool :=
  store.user.id == userId && store.user.status == .active &&
    decide (5 ≤ store.recentFailures userId now)

def block (now : Int) : LoginStore :=
  { store with user := { store.user with loginBlockedUntil := some (now + 1800000) } }

/-- `createMfaChallenge`, unless the hash is taken. -/
def createMfaChallenge (challenge : MfaChallenge) : Option LoginStore :=
  if store.challenges.any fun other => other.challengeHash == challenge.challengeHash then none
  else some { store with challenges := store.challenges ++ [challenge] }

variable (challengeHash : String)

/-- Whether a challenge is there to be answered. -/
def isOpen (now : Int) (challenge : MfaChallenge) : Bool :=
  challenge.challengeHash == challengeHash && challenge.usedAt.isNone &&
    decide (now < challenge.expiresAt)

def findTotpChallenge (challengeHash factorId ipHash : String) (now : Int) :
    Option TotpChallenge := do
  let _ ← store.challenges.find? fun challenge =>
    isOpen challengeHash now challenge && challenge.ipHash == ipHash &&
      challenge.userId == store.user.id
  let factor ← store.user.mfaFactors.find? fun factor => factor.id == factorId
  if store.user.status = .active then
    some ⟨store.user.id, store.user.role, factor.encryptedSecret⟩
  else none

/-- A challenge as its consumption leaves it. -/
def useChallenge (userId : Nat) (now : Int) (challenge : MfaChallenge) : MfaChallenge :=
  if isOpen challengeHash now challenge && challenge.userId == userId then
    { challenge with usedAt := some now }
  else challenge

/-- `consumeMfaChallengeAndCreateSession`: the tables and whether a challenge was consumed. -/
def consumeMfaChallengeAndCreateSession (session : OpsSession) (now : Int) : LoginStore × Bool :=
  if store.challenges.any fun challenge =>
      isOpen challengeHash now challenge && challenge.userId == session.userId then
    ({ store with
        challenges := store.challenges.map (useChallenge challengeHash session.userId now)
        sessions := store.sessions ++ [session]
        user := { store.user with lastLoginAt := some now }
        loginEvents := store.loginEvents ++ [⟨some session.userId, now, .succeeded, session.ipHash,
          session.userAgent, .mfaVerified⟩] }, true)
  else (store, false)

end LoginStore

/-- `Date.parse` of a time that the database returns as a date: its text has no milliseconds. -/
def parseDate (time : Int) : Int := time / 1000 * 1000

/-- The blocked-until test of `beginLogin`. -/
def PasswordCredential.isBlocked (principal : PasswordCredential) (now : Int) : Bool :=
  match principal.loginBlockedUntil with
  | none => false
  | some loginBlockedUntil => decide (now < parseDate loginBlockedUntil)

end NancyMan.Auth
