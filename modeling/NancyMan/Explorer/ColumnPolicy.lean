import Mathlib.Data.List.Infix
import NancyMan.Explorer.Schema

/-!
# The column policy

How a column is classified by its name: exact overrides first, then the names of secrets, then the
names of personal data. Names are compared in lower case.
-/
namespace NancyMan.Explorer

structure ExactColumnTarget where
  targetId : DatabaseTargetId
  schema : String
  relation : String
  column : String

def exactBlockedOverrides : List ExactColumnTarget := [
  ⟨.edutrackProduction, "public", "zalo_config", "access_token"⟩,
  ⟨.edutrackProduction, "public", "zalo_config", "refresh_token"⟩,
  ⟨.edutrackProduction, "public", "staff_password_credentials", "password_hash"⟩,
  ⟨.edutrackProduction, "public", "auth_otp_challenges", "otp_hash"⟩,
  ⟨.edutrackProduction, "public", "auth_sessions", "token_hash"⟩,
  ⟨.edutrackProduction, "public", "parent_accounts", "password_hash"⟩,
  ⟨.edutrackProduction, "public", "parent_accounts", "password_salt"⟩,
  ⟨.ops, "public", "ops_mfa_factors", "encrypted_secret"⟩,
  ⟨.ops, "public", "ops_sessions", "csrf_secret_hash"⟩,
  ⟨.ops, "public", "sql_executions", "original_sql_ciphertext"⟩,
  ⟨.ops, "public", "ops_users", "password_hash"⟩,
  ⟨.ops, "public", "ops_users", "password_salt"⟩,
  ⟨.ops, "public", "ops_enrollments", "enrollment_secret"⟩]

def exactPiiOverrides : List ExactColumnTarget := []

def exactPublicOverrides : List ExactColumnTarget := []

def databasePolicyVersion : String := "2026-09-25-v2"

def blockedTokens : List String := [
  "password", "passwd", "salt", "otp", "token", "secret", "credential", "private_key",
  "encryption_key", "ciphertext", "csrf"]

def piiTokens : List String := [
  "email", "phone", "telephone", "mobile", "display_name", "full_name", "given_name", "first_name",
  "middle_name", "family_name", "last_name", "preferred_name", "legal_name", "date_of_birth",
  "birth_date", "dob", "address", "address1", "address2", "address_line1", "address_line2",
  "street", "house_number", "unit_number", "city", "state", "province", "district", "ward",
  "region", "postal", "zip", "country", "notes", "note", "comments", "content", "answer",
  "comment", "messages", "message", "free_form", "freeform", "description", "body", "raw_payload"]

/-- Whether a name is a token or has it as one of its parts between underscores. -/
def hasToken (col token : List Char) : Bool :=
  col = token ||
    (token ++ ['_'] <+: col || '_' :: token <:+ col || '_' :: (token ++ ['_']) <:+: col)

section

-- `text.toLowerCase()`, of the symbols of a text.
variable (toLowerCase : List Char → List Char)

def makeKey (target : ExactColumnTarget) : List Char :=
  toLowerCase (target.targetId.text.toList ++ ':' :: (target.schema.toList ++ '.' ::
    (target.relation.toList ++ '.' :: target.column.toList)))

def isBlockedName (column relation : String) : Bool :=
  let col := toLowerCase column.toList
  let rel := toLowerCase relation.toList
  (rel = "student_auth_credentials".toList && "password".toList <:+: col) ||
    blockedTokens.any fun token => hasToken col token.toList

def isPiiName (column : String) : Bool :=
  let col := toLowerCase column.toList
  piiTokens.any fun token => hasToken col token.toList

def classifyColumn (input : ExactColumnTarget) : DatabaseColumnClassification :=
  let key := makeKey toLowerCase input
  if (exactBlockedOverrides.map (makeKey toLowerCase)).contains key then .blocked
  else if isBlockedName toLowerCase input.column input.relation then .blocked
  else if (exactPiiOverrides.map (makeKey toLowerCase)).contains key then .pii
  else if isPiiName toLowerCase input.column then .pii
  else if (exactPublicOverrides.map (makeKey toLowerCase)).contains key then .public
  else .internal

end

example : classifyColumn (List.map Char.toLower)
    ⟨.ops, "Public", "OPS_USERS", "Password_Hash"⟩ = .blocked := by
  decide +kernel

end NancyMan.Explorer
