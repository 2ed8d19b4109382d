import NancyMan.Auth.StepUpGrants
import NancyMan.Lib.Machine

/-!
# Calls of the step-up service

`StepUpService.grant` checks a password and a code, looks for the session, revokes the grants for the
same purpose and inserts its own, each in a statement of its own; the other calls are one statement
and the checks of what it returns. Any number of calls are under way at once. The password check
is known by its outcome, and the optional methods of the repository are taken as present.
-/
namespace NancyMan.Auth

/-- What `grant` is given. -/
structure GrantInput where
  capability : StepUpCapability
  userId : String
  sessionId : String
  password : String
  factorId : String
  token : String
  ipHash : String
  userAgentHash : String
  subjectDigest : Option String
  /-- `parentSessionExpiresAt`, unless empty: none where it is no date. -/
  parentSessionExpiresAt : Option (Option Int)

/-- What a call of `grant` learns on its way. -/
structure GrantAnswers where
  /-- Whether the proof is found and the password and the code are right. -/
  verified : Bool
  /-- `now` of the service. -/
  now : Int
  /-- The end of the session that `findParentSession` finds. -/
  parentSession : Option Int
  /-- `issueId`. -/
  id : String

/-- Where a call of `grant` is. -/
inductive GrantPhase where
  | idle
  | begun (input : GrantInput)
  | verified (input : GrantInput) (grantedAt : Int)
  | limited (input : GrantInput) (grantedAt expiresAt : Int)
  /-- The older grants are revoked; there were some rows then, which no step asks for. -/
  | replaced (grant : StepUpGrant) (rows : Nat)

def isCode (token : String) : Bool :=
  decide (token.toList.length = 6) && token.toList.all Char.isDigit

namespace GrantInput

variable (input : GrantInput)

/-- The checks of `grant` on its input. -/
def isValid : Bool :=
  input.userId != "" && input.sessionId != "" && input.password != "" && input.factorId != "" &&
    isCode input.token

def key : StepUpKey :=
  ⟨input.userId, input.sessionId, input.capability, input.subjectDigest.getD ""⟩

/-- The grant that is inserted. -/
def grant (id : String) (grantedAt expiresAt : Int) : StepUpGrant where
  id := id
  capability := input.capability
  userId := input.userId
  sessionId := input.sessionId
  ipHash := input.ipHash
  userAgentHash := input.userAgentHash
  subjectDigest := input.subjectDigest
  grantedAt := grantedAt
  expiresAt := expiresAt
  lastUsedAt := none
  consumedAt := none
  revokedAt := none
  reusable := (policies input.capability).reusable
  auditCompletedAt := none

/-- The end of the session, where there is one. -/
def parentExpiry (parentSession : Option Int) : Option Int :=
  match input.parentSessionExpiresAt with
  | some expiresAt => expiresAt
  | none => parentSession

/-- The phase after the session is looked for. -/
def limit (grantedAt : Int) (parentSession : Option Int) : GrantPhase :=
  match input.parentExpiry parentSession with
  | none => .idle
  | some parentExpiry =>
    let expiresAt := min (grantedAt + (policies input.capability).lifetimeMs) parentExpiry
    if expiresAt ≤ grantedAt then .idle else .limited input grantedAt expiresAt

end GrantInput

/-- `assertBinding`. -/
def StepUpBinding.isComplete (binding : StepUpBinding) : Bool :=
  binding.grantId != "" && binding.userId != "" && binding.sessionId != "" &&
    binding.ipHash != "" && binding.userAgentHash != ""

variable (binding : DatabasePiiBinding)

/-- Whether a binding for revealed data names all of its parts. -/
def DatabasePiiBinding.isComplete : Bool :=
  binding.userId != "" && binding.sessionId != "" && binding.ipHash != "" &&
    binding.userAgentHash != ""

def DatabasePiiBinding.hasSubject : Bool :=
  binding.isComplete && binding.subjectDigest.any fun digest => digest != ""

/-- The checks of `authorize` on the row that the repository returns. -/
def StepUpBinding.accepts (binding : StepUpBinding) (now : Int) (grant : StepUpGrant) : Bool :=
  grant.isOpen && grant.reusable && decide (now < grant.expiresAt) && grant.isOf binding &&
    grant.subjectDigest == binding.subjectDigest

/-- The checks of `authorizeDatabasePii` on the row that the repository returns. -/
def DatabasePiiBinding.accepts (binding : DatabasePiiBinding) (now : Int) (grant : StepUpGrant) :
    Bool :=
  grant.isOpen && grant.reusable && decide (now < grant.expiresAt) && grant.isPiiOf binding &&
    grant.subjectDigest == binding.subjectDigest

/-- The table, the calls of `grant` under way, the time of the database and the grants by which
operations were authorised. -/
structure StepUps where
  table : StepUpTable
  calls : Nat → GrantPhase
  now : Int
  authorised : List String

/-- A call starts, does its next step or fails; the other calls are one step. -/
inductive StepUpMove where
  | grant (call : Nat) (input : GrantInput)
  | advance (call : Nat) (answers : GrantAnswers)
  | fail (call : Nat)
  | authorize (binding : StepUpBinding) (serviceNow : Int)
  | consume (binding : StepUpBinding)
  | revoke (binding : StepUpBinding)
  | authorizeDatabasePii (binding : DatabasePiiBinding) (serviceNow : Int)
  | activateDatabasePiiGrant (grantId : String) (binding : DatabasePiiBinding)
  | revokeDatabasePii (binding : DatabasePiiBinding)
  | revokeSession (sessionId : String)

/-- A move after some time. -/
structure StepUpStep where
  elapsed : Nat
  move : StepUpMove

namespace StepUps

def empty : StepUps := ⟨[], fun _ => .idle, 0, []⟩

variable (stepUps : StepUps)

def enter (call : Nat) (phase : GrantPhase) : StepUps :=
  { stepUps with calls := Function.update stepUps.calls call phase }

/-- An operation is authorised by a grant, if there is one. -/
def log (table : StepUpTable) (grant : Option StepUpGrant) : StepUps :=
  { stepUps with
    table := table
    authorised := stepUps.authorised ++ (grant.map StepUpGrant.id).toList }

/-- The insertion of a grant. -/
def insert (call : Nat) (grant : StepUpGrant) : StepUps :=
  match stepUps.table.insert grant with
  | none => stepUps.enter call .idle
  | some table => { stepUps with table := table }.enter call .idle

/-- The next step of a call of `grant`. -/
def advance (call : Nat) (answers : GrantAnswers) : StepUps :=
  match stepUps.calls call with
  | .idle => stepUps
  | .begun input =>
    stepUps.enter call (if answers.verified then .verified input answers.now else .idle)
  | .verified input grantedAt =>
    stepUps.enter call (input.limit grantedAt answers.parentSession)
  | .limited input grantedAt expiresAt =>
    { stepUps with table := stepUps.table.replaceOlder input.key stepUps.now }.enter call
      (.replaced (input.grant answers.id grantedAt expiresAt) stepUps.table.length)
  | .replaced grant _ => stepUps.insert call grant

/-- A call of `authorize`. -/
def authorize (binding : StepUpBinding) (serviceNow : Int) : StepUps :=
  if binding.isComplete then
    let answer := stepUps.table.authorize binding stepUps.now
    stepUps.log answer.1 (answer.2.filter (binding.accepts serviceNow))
  else stepUps

/-- A call of `consume`. -/
def consume (binding : StepUpBinding) : StepUps :=
  if binding.isComplete then
    let answer := stepUps.table.consume binding stepUps.now
    { stepUps with
      table := answer.1
      authorised := stepUps.authorised ++ if answer.2 then [binding.grantId] else [] }
  else stepUps

/-- A call of `authorizeDatabasePii`. -/
def authorizeDatabasePii (binding : DatabasePiiBinding) (serviceNow : Int) : StepUps :=
  if binding.hasSubject then
    let answer := stepUps.table.findActiveDatabasePii binding stepUps.now
    stepUps.log answer.1 (answer.2.filter (binding.accepts serviceNow))
  else stepUps

/-- A move. -/
def act : StepUpMove → StepUps
  | .grant call input =>
    match stepUps.calls call with
    | .idle => if input.isValid then stepUps.enter call (.begun input) else stepUps
    | _ => stepUps
  | .advance call answers => stepUps.advance call answers
  | .fail call => stepUps.enter call .idle
  | .authorize binding serviceNow => stepUps.authorize binding serviceNow
  | .consume binding => stepUps.consume binding
  | .revoke binding =>
    if binding.isComplete then
      { stepUps with table := stepUps.table.revoke binding stepUps.now }
    else stepUps
  | .authorizeDatabasePii binding serviceNow => stepUps.authorizeDatabasePii binding serviceNow
  | .activateDatabasePiiGrant grantId binding =>
    if grantId != "" && binding.hasSubject then
      { stepUps with
        table := (stepUps.table.activateDatabasePiiGrant grantId binding stepUps.now).1 }
    else stepUps
  | .revokeDatabasePii binding =>
    if binding.isComplete then
      { stepUps with table := (stepUps.table.revokeDatabasePii binding stepUps.now).1 }
    else stepUps
  | .revokeSession sessionId =>
    if sessionId != "" then
      { stepUps with table := stepUps.table.revokeSession sessionId stepUps.now }
    else stepUps

def wait (elapsed : Nat) : StepUps :=
  { stepUps with now := stepUps.now + elapsed }

def step (action : StepUpStep) : StepUps × Unit :=
  ((stepUps.wait action.elapsed).act action.move, ())

end StepUps

end NancyMan.Auth
