import NancyMan.Accounts.AccountTransactions

/-!
# Calls of the account service

`AccountService` changes an account for an actor whose session and permission the route has found.
`create` and `recover` read the actor, the other operations read the target and may count the
owners; then the step-up grant is consumed, and the repository runs the transaction. Each of these
is a statement of its own, any number of calls are under way at once, and a call may fail anywhere,
as where an identifier or the confirmation is wrong. The audit entry after the transaction is left
out.
-/
namespace NancyMan.Accounts

/-- A grant that changes accounts. Its session and addresses stand for their part in its number. -/
structure AccountGrant where
  id : Nat
  userId : Nat
  /-- Whether it is neither revoked nor consumed nor expired. -/
  isOpen : Bool

/-- Where a call of the service is before its transaction. -/
inductive ServicePhase where
  /-- The route has let the actor through. -/
  | routed
  /-- `countActiveOwners` is next. -/
  | counting
  /-- The grant is consumed next. -/
  | permitted
  | consumed
deriving DecidableEq

/-- A call of the service under way. -/
structure ServiceCall where
  call : AccountCall
  grantId : Nat
  phase : ServicePhase

/-- A change that was committed, and the row of its actor then. -/
structure AccountCommit where
  call : AccountCall
  actor : Option OpsAccount
deriving DecidableEq

/-- The accounts with their transactions, the grants, the calls before their transactions and what
was committed. -/
structure OwnerOperations where
  accounts : AccountStore
  grants : List AccountGrant
  calls : Nat → Option ServiceCall
  commits : List AccountCommit

/-- A step of the service. A call and its transaction have the same number. -/
inductive OwnerStep where
  /-- A grant is inserted. -/
  | issue (grantId userId : Nat)
  /-- A grant expires, or is revoked or consumed elsewhere. -/
  | close (grantId : Nat)
  | start (number : Nat) (call : AccountCall) (grantId : Nat)
  /-- The next statement of a call before its transaction. -/
  | serve (number : Nat)
  /-- The next statement of a transaction, or the next row of one that locks several. -/
  | advance (number row : Nat)
  | fail (number : Nat)

def isOwner (users : LockedTable Nat OpsAccount) (userId : Nat) : Bool :=
  (users.find userId).any OpsAccount.isActiveOwner

namespace AccountOperation

/-- Whether the service reads the actor, by `authorizeOwner`. -/
def readsActor : AccountOperation → Bool
  | .create _ | .recover => true
  | _ => false

/-- Whether the service protects the final owner from it. -/
def takesOwner : AccountOperation → Bool
  | .changeRole role => role != .opsOwner
  | .lock | .revoke => true
  | _ => false

/-- Whether the transaction does `revokeAccess`. -/
def revokesAccess : AccountOperation → Bool
  | .lock | .recover | .revoke => true
  | _ => false

end AccountOperation

namespace AccountCall

/-- The phase after the first read of the service, unless it throws. -/
def permit (call : AccountCall) (users : LockedTable Nat OpsAccount) : Option ServicePhase :=
  if call.operation.readsActor then
    if isOwner users call.actorUserId then some .permitted else none
  else if call.actorUserId = call.targetUserId then none
  else (users.find call.targetUserId).map fun target =>
    if target.role == .opsOwner && call.operation.takesOwner then .counting else .permitted

/-- Whether the transaction begins after the grant is consumed. -/
def mayBegin (call : AccountCall) (users : LockedTable Nat OpsAccount) : Bool :=
  call.operation != .recover ||
    (users.find call.targetUserId).any fun target => target.status == .locked

end AccountCall

namespace OwnerOperations

def initial (users : LockedTable Nat OpsAccount) : OwnerOperations :=
  ⟨⟨users, fun _ => none⟩, [], fun _ => none, []⟩

variable (operations : OwnerOperations)

def holdsGrant (grantId userId : Nat) : Bool :=
  operations.grants.any fun grant => grant.id == grantId && grant.userId == userId && grant.isOpen

/-- The grants that a condition selects are closed. -/
def closeWhere (selects : AccountGrant → Bool) : OwnerOperations :=
  { operations with
    grants := operations.grants.map fun grant =>
      if selects grant then { grant with isOpen := false } else grant }

variable (number : Nat)

/-- A call is at another phase. -/
def enter (held : ServiceCall) (phase : ServicePhase) : OwnerOperations :=
  { operations with
    calls := Function.update operations.calls number (some { held with phase := phase }) }

def leave : OwnerOperations :=
  { operations with calls := Function.update operations.calls number none }

/-- A call starts, where the route finds its actor an active owner and its grant is open. -/
def start (call : AccountCall) (grantId : Nat) : OwnerOperations :=
  if (operations.calls number).isNone ∧ (operations.accounts.transactions number).isNone ∧
      isOwner operations.accounts.users call.actorUserId ∧
      operations.holdsGrant grantId call.actorUserId then
    operations.enter number ⟨call, grantId, .routed⟩ .routed
  else operations

/-- The next statement of a call before its transaction. -/
def serve (held : ServiceCall) : OwnerOperations :=
  match held.phase with
  | .routed =>
    match held.call.permit operations.accounts.users with
    | none => operations.leave number
    | some phase => operations.enter number held phase
  | .counting =>
    if (operations.accounts.users.keysWhere OpsAccount.isActiveOwner).length ≤ 1 then
      operations.leave number
    else operations.enter number held .permitted
  | .permitted =>
    if operations.holdsGrant held.grantId held.call.actorUserId then
      (operations.closeWhere fun grant => grant.id == held.grantId).enter number held .consumed
    else operations.leave number
  | .consumed =>
    if held.call.mayBegin operations.accounts.users then
      { operations.leave number with
        accounts := (operations.accounts.step (.begin number held.call)).1 }
    else operations.leave number

/-- The next statement of a transaction. The grants of the target are revoked in the same one. -/
def advance (number row : Nat) : OwnerOperations :=
  let later : OwnerOperations :=
    { operations with accounts := (operations.accounts.step (.advance number row)).1 }
  match operations.accounts.transactions number with
  | some ⟨call, .written _⟩ =>
    { later.closeWhere (fun grant =>
        call.operation.revokesAccess && grant.userId == call.targetUserId) with
      commits := operations.commits ++
        [⟨call, operations.accounts.users.find call.actorUserId⟩] }
  | _ => later

/-- A step of the service. -/
def step : OwnerStep → OwnerOperations × Unit
  | .issue grantId userId =>
    (if operations.grants.any fun grant => grant.id == grantId then operations
      else { operations with grants := operations.grants ++ [⟨grantId, userId, true⟩] }, ())
  | .close grantId => (operations.closeWhere fun grant => grant.id == grantId, ())
  | .start number call grantId => (operations.start number call grantId, ())
  | .serve number =>
    (match operations.calls number with
      | none => operations
      | some held => operations.serve number held, ())
  | .advance number row => (operations.advance number row, ())
  | .fail number =>
    ({ operations.leave number with accounts := (operations.accounts.step (.abort number)).1 }, ())

end OwnerOperations

end NancyMan.Accounts
