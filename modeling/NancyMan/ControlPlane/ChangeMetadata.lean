import Mathlib.Algebra.GroupWithZero.Nat
import Mathlib.Data.List.Infix

/-!
# The metadata of a change

The items and the impact plan that a validation stores with a change, and the checks that
refuse other metadata before any row is written. A refusal names the check by its code.
-/
namespace NancyMan.ControlPlane

inductive ChangeOperation where
  | set
  | delete
deriving DecidableEq

inductive ChangeRequirement where
  | required
  | optional
deriving DecidableEq

inductive ChangeStrategy where
  | noRuntimeAction
  | nextJob
  | runtimeRestart
  | credentialRestart
  | buildRedeploy
deriving DecidableEq

structure ConfigChangeItem where
  catalogId : String
  sourceId : String
  operation : ChangeOperation
  requirement : ChangeRequirement
  strategy : ChangeStrategy
  oldValueFingerprint : Option String
  newValueFingerprint : Option String
  observedSourceFingerprint : String
deriving DecidableEq

structure ImpactCounts where
  items : Nat
  sets : Nat
  deletes : Nat
  sources : Nat
deriving DecidableEq

structure ImpactPlan where
  applicationId : String
  sourceIds : List String
  actionIds : List String
  checkIds : List String
  strategies : List ChangeStrategy
  counts : ImpactCounts
  warnings : List String
  expectedEffect : ChangeStrategy
deriving DecidableEq

variable (symbol : Char)

/-- `[A-Za-z0-9]`. -/
def isAlphanumeric : Bool := symbol.isAlpha || symbol.isDigit

variable (text : String)

/-- `identifierPattern`. -/
def isIdentifier : Bool :=
  match text.toList with
  | [] => false
  | first :: rest =>
    isAlphanumeric first && rest.length ≤ 255 &&
      rest.all fun symbol => isAlphanumeric symbol || symbol ∈ ['.', '_', ':', '-']

def isHexDigit : Bool := symbol.isDigit || ('a' ≤ symbol && symbol ≤ 'f')

/-- `fingerprintPattern`: a version in decimal digits and 64 hexadecimal digits. -/
def isFingerprint : Bool :=
  let versioned := text.toList.drop 13
  let digest := versioned.dropWhile Char.isDigit
  text.toList.take 13 = "hmac-sha256:v".toList && digest.length < versioned.length &&
    digest.length = 65 && digest.head? = some ':' && digest.tail.all isHexDigit

def codeUnits : Nat :=
  (text.toList.map fun symbol => if symbol.toNat < 65536 then 1 else 2).sum

def isForbiddenControl : Bool :=
  symbol.toNat < 32 && symbol ≠ '\t' && symbol ≠ '\n' && symbol ≠ '\r'

def foldCase : Char :=
  if symbol.toNat = 383 then 's' else if symbol.toNat = 8490 then 'k' else symbol.toLower

/-- `/(?:secret|password|totp|credential|plaintext|cleartext)/iu`. -/
def isSensitive : Bool :=
  ["secret", "password", "totp", "credential", "plaintext", "cleartext"].any fun word =>
    decide (word.toList <:+: text.toList.map foldCase)

def require (check : Bool) (code : String) : Except String Unit :=
  if check then .ok () else .error code

def assertSafeText (text code : String) (max : Nat) : Except String Unit :=
  require (1 ≤ codeUnits text && codeUnits text ≤ max &&
    !text.toList.any isForbiddenControl) code

def assertImpactPlan (plan : ImpactPlan) : Except String Unit := do
  require (isIdentifier plan.applicationId) "CONFIG_IMPACT_APPLICATION_INVALID"
  require ((plan.sourceIds ++ plan.actionIds ++ plan.checkIds).all isIdentifier)
    "CONFIG_IMPACT_ID_INVALID"
  require ([plan.counts.items, plan.counts.sets, plan.counts.deletes, plan.counts.sources].all
    fun count => count ≤ 10000) "CONFIG_IMPACT_COUNT_INVALID"
  require (plan.counts.sets + plan.counts.deletes = plan.counts.items)
    "CONFIG_IMPACT_COUNT_INCONSISTENT"
  plan.warnings.forM fun warning => do
    assertSafeText warning "CONFIG_IMPACT_WARNING_INVALID" 500
    require (!isSensitive warning) "CONFIG_IMPACT_SENSITIVE_TEXT"

def validateItem (item : ConfigChangeItem) : Except String Unit := do
  require (isIdentifier item.catalogId) "CONFIG_CATALOG_ID_INVALID"
  require (isIdentifier item.sourceId) "CONFIG_SOURCE_ID_INVALID"
  require (item.oldValueFingerprint.all isFingerprint) "CONFIG_FINGERPRINT_INVALID"
  require (isFingerprint item.observedSourceFingerprint) "CONFIG_SOURCE_FINGERPRINT_INVALID"
  match item.operation with
  | .set =>
    require item.newValueFingerprint.isSome "CONFIG_NEW_FINGERPRINT_REQUIRED"
    require (item.newValueFingerprint.all isFingerprint) "CONFIG_FINGERPRINT_INVALID"
  | .delete =>
    require (item.requirement = .optional) "CONFIG_REQUIRED_DELETE"
    require item.newValueFingerprint.isNone "CONFIG_DELETE_FINGERPRINT_FORBIDDEN"

def configDigest (digest : String) : Except String Unit :=
  require (isFingerprint digest) "CONFIG_DIGEST_INVALID"

end NancyMan.ControlPlane
