import NancyMan.Auth.LoginStore

/-!
# The enrollment of an account

`PostgresTotpEnrollmentRepository` adds a factor for a pending account, finds it again and activates
it together with a password; `PostgresAccountRepository` locks an account, issues a token for its
recovery, and revokes it. Here are the rows of one account and what these statements and
transactions do with them. The operations of an owner are taken where their tests of the actor
have passed.
-/
namespace NancyMan.Accounts

open Auth (UserStatus)

/-- `factor_type`. -/
inductive FactorType where
  | webauthn
  | totp
deriving DecidableEq

/-- A row of `ops_mfa_factors`. -/
structure MfaFactor where
  id : String
  factorType : FactorType
  encryptedSecret : String
  label : String
  lastUsedAt : Option Int
  revokedAt : Option Int

/-- A row of `ops_mfa_enrollment_tokens`. -/
structure EnrollmentToken where
  tokenHash : String
  expiresAt : Int
  usedAt : Option Int

/-- A row of `ops_password_credentials`. -/
structure PasswordCredentialRow where
  passwordHash : String
  passwordFingerprint : String
  supersededAt : Option Int

/-- The rows of an account, and the time. -/
structure EnrollmentStore where
  status : UserStatus
  factors : List MfaFactor
  tokens : List EnrollmentToken
  credentials : List PasswordCredentialRow
  now : Int

/-- The label of every factor that `createPendingFactor` inserts. -/
def authenticatorLabel : String := "Authenticator app"

def EnrollmentToken.isOpen (now : Int) (token : EnrollmentToken) : Bool :=
  token.usedAt.isNone && decide (now < token.expiresAt)

def EnrollmentToken.isOf (tokenHash : String) (now : Int) (token : EnrollmentToken) : Bool :=
  token.tokenHash == tokenHash && token.isOpen now

def MfaFactor.isEnrolled (factor : MfaFactor) : Bool :=
  factor.factorType == .totp && factor.label == authenticatorLabel && factor.revokedAt.isNone

def EnrollmentToken.use (now : Int) (token : EnrollmentToken) : EnrollmentToken :=
  if token.usedAt.isNone then { token with usedAt := some now } else token

/-- A credential that is superseded. -/
def PasswordCredentialRow.supersede (now : Int) (credential : PasswordCredentialRow) :
    PasswordCredentialRow :=
  if credential.supersededAt.isNone then { credential with supersededAt := some now } else credential

/-- The factor that `createPendingFactor` inserts. -/
def pendingFactor (factorId encryptedSecret : String) : MfaFactor :=
  ⟨factorId, .totp, encryptedSecret, authenticatorLabel, none, none⟩

/-- What `verify` is given. -/
structure VerifyInput where
  tokenHash : String
  factorId : String
  otp : String
  passwordHash : String
  passwordFingerprint : String
  /-- Whether the password passes the policy and is hashed. -/
  passwordAccepted : Bool
  /-- How long hashing it takes. -/
  hashing : Nat

namespace EnrollmentStore

variable (store : EnrollmentStore)

def wait (elapsed : Nat) : EnrollmentStore :=
  { store with now := store.now + elapsed }

/-- `createPendingFactor`: the rows and whether a factor was inserted; none where the insertion
throws. -/
def createPendingFactor (tokenHash factorId encryptedSecret : String) :
    Option (EnrollmentStore × Bool) :=
  if store.status = .pendingMfa ∧ store.tokens.any (EnrollmentToken.isOf tokenHash store.now) then
    -- the primary key, and ops_mfa_factors_active_label_unique
    if store.factors.any (fun factor => factor.id == factorId) ||
        store.factors.any MfaFactor.isEnrolled then none
    else some ({ store with factors := store.factors ++ [pendingFactor factorId encryptedSecret] },
      true)
  else some (store, false)

/-- `findPendingFactor`: the secret, unless it is empty. -/
def findPendingFactor (tokenHash factorId : String) : Option String :=
  if store.tokens.any (EnrollmentToken.isOf tokenHash store.now) then
    ((store.factors.find? fun factor => factor.id == factorId).map MfaFactor.encryptedSecret).filter
      fun secret => secret != ""
  else none

/-- A factor after an activation of one factor. -/
def settleFactor (factorId : String) (activated : Bool) (now : Int) (factor : MfaFactor) :
    MfaFactor :=
  if factor.id = factorId then
    if activated then { factor with lastUsedAt := some now, revokedAt := none } else factor
  else if factor.revokedAt.isNone then { factor with revokedAt := some now }
  else factor

/-- `activate`: the rows and whether the account was activated. -/
def activate (tokenHash factorId passwordHash passwordFingerprint : String) :
    EnrollmentStore × Bool :=
  if store.factors.any (fun factor =>
        factor.id == factorId && factor.factorType == .totp && factor.revokedAt.isNone) ∧
      store.tokens.any (EnrollmentToken.isOf tokenHash store.now) then
    let activated := store.status == .pendingMfa
    ({ store with
        status := if activated then .active else store.status
        tokens := store.tokens.map fun token =>
          if token.isOf tokenHash store.now then token.use store.now else token
        credentials := store.credentials.map (PasswordCredentialRow.supersede store.now) ++
          if activated then [⟨passwordHash, passwordFingerprint, none⟩] else []
        factors := store.factors.map (settleFactor factorId activated store.now) }, activated)
  else (store, false)

/-- `verify`, where nothing else happens between its statements. -/
def verify (verifyTotp : String → String → Int → Bool) (store : EnrollmentStore)
    (input : VerifyInput) : EnrollmentStore × Bool :=
  match store.findPendingFactor input.tokenHash input.factorId with
  | none => (store, false)
  | some encryptedSecret =>
    if input.passwordAccepted && verifyTotp encryptedSecret input.otp store.now then
      (store.wait input.hashing).activate input.tokenHash input.factorId input.passwordHash
        input.passwordFingerprint
    else (store, false)

/-- The tokens after `revokeAccess`. -/
def useTokens : List EnrollmentToken :=
  store.tokens.map (EnrollmentToken.use store.now)

def lock : EnrollmentStore :=
  if store.status = .revoked then store
  else { store with status := .locked, tokens := store.useTokens }

/-- `recover`, which throws where the token is taken. -/
def recover (tokenHash : String) (expiresAt : Int) : EnrollmentStore :=
  if store.status = .locked then
    if store.tokens.any fun token => token.tokenHash == tokenHash then store
    else { store with
      status := .pendingMfa, tokens := store.useTokens ++ [⟨tokenHash, expiresAt, none⟩] }
  else store

def revoke : EnrollmentStore :=
  if store.status = .revoked then store
  else { store with status := .revoked, tokens := store.useTokens }

end EnrollmentStore

/-- What happens to an account. -/
inductive EnrollmentStep where
  /-- A call of `createPendingFactor`. -/
  | start (tokenHash factorId encryptedSecret : String)
  /-- A call of `verify`. -/
  | verify (input : VerifyInput)
  /-- The activation of a call of `verify` whose other statement came earlier. -/
  | activate (tokenHash factorId passwordHash passwordFingerprint : String)
  | lock
  | recover (tokenHash : String) (expiresAt : Int)
  | revoke
  | wait (elapsed : Nat)

namespace EnrollmentStore

/-- A step, and whether it started an enrollment. -/
def step (verifyTotp : String → String → Int → Bool) (store : EnrollmentStore) :
    EnrollmentStep → EnrollmentStore × Bool
  | .start tokenHash factorId encryptedSecret =>
    (store.createPendingFactor tokenHash factorId encryptedSecret).getD (store, false)
  | .verify input => ((store.verify verifyTotp input).1, false)
  | .activate tokenHash factorId passwordHash passwordFingerprint =>
    ((store.activate tokenHash factorId passwordHash passwordFingerprint).1, false)
  | .lock => (store.lock, false)
  | .recover tokenHash expiresAt => (store.recover tokenHash expiresAt, false)
  | .revoke => (store.revoke, false)
  | .wait elapsed => (store.wait elapsed, false)

/-- A new account, with the credential of a first owner or none, and its token. -/
def created (token : EnrollmentToken) (credentials : List PasswordCredentialRow) (now : Int) :
    EnrollmentStore :=
  ⟨.pendingMfa, [], [token], credentials, now⟩

end EnrollmentStore

end NancyMan.Accounts
