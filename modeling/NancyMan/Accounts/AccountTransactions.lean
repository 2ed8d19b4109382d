import Mathlib.Data.List.Sort
import NancyMan.Auth.LoginStore
import NancyMan.Lib.Machine
import NancyMan.Lib.RowLocks

/-!
# Transactions on the accounts

`PostgresAccountRepository` changes an account in a transaction that locks the rows of its actor and
its target, reads the target, counts the active owners that it locks, and updates the target. Any
number of transactions run at once, a statement at a time, and a statement that locks several rows
locks them one by one, each as it is then: where it has waited for a row it takes the version that
was committed meanwhile, and leaves out a row that no longer qualifies. A transaction may fail
anywhere. The statements after the update are of other tables and left out.
-/
namespace NancyMan.Accounts

open Auth (UserStatus)

inductive OpsRole where
  | opsViewer
  | opsMaintainer
  | opsOwner
deriving DecidableEq

/-- A row of `ops_users`. -/
structure OpsAccount where
  role : OpsRole
  status : UserStatus
deriving DecidableEq

def OpsAccount.isActiveOwner (account : OpsAccount) : Bool :=
  account.status == .active && account.role == .opsOwner

/-- What a transaction does with its target. -/
inductive AccountOperation where
  | create (role : OpsRole)
  | changeRole (role : OpsRole)
  | lock
  | recover
  | revoke
deriving DecidableEq

/-- A call of the repository; a number stands for the identifier of a user. -/
structure AccountCall where
  actorUserId : Nat
  targetUserId : Nat
  operation : AccountOperation
deriving DecidableEq

/-- Where a transaction is. -/
inductive TransactionPhase where
  | begun
  /-- `lockActorAndTarget` has rows left to lock. -/
  | locking (remaining : List Nat)
  /-- It reads the target. -/
  | reading
  /-- `lockActiveOwnerCount` is next. -/
  | read (account : OpsAccount)
  /-- It has rows left to lock, and has counted some. -/
  | counting (account : OpsAccount) (remaining owners : List Nat)
  /-- The update is next. -/
  | checked (account : OpsAccount)
  /-- The row is updated or inserted, and the commit is next. -/
  | written (account : OpsAccount)
  /-- The transaction ends without effect. -/
  | refused

/-- A transaction under way. -/
structure AccountTransaction where
  call : AccountCall
  phase : TransactionPhase

/-- The accounts and the transactions under way. -/
structure AccountStore where
  users : LockedTable Nat OpsAccount
  transactions : Nat → Option AccountTransaction

/-- A step of the accounts. -/
inductive AccountStep where
  | begin (transaction : Nat) (call : AccountCall)
  /-- The next statement, or the next row of the statement that locks several. -/
  | advance (transaction row : Nat)
  /-- The transaction fails, as when it is the victim of a deadlock. -/
  | abort (transaction : Nat)

namespace AccountCall

variable (call : AccountCall) (account : OpsAccount)

/-- The phase after the target has been read. -/
def afterRead : TransactionPhase :=
  match call.operation with
  | .create _ => .refused
  | .changeRole _ => if call.actorUserId = call.targetUserId then .refused else .read account
  | .lock | .revoke =>
    if call.actorUserId = call.targetUserId then .refused
    else if account.isActiveOwner then .read account
    else .checked account
  | .recover => if account.status ≠ .locked then .refused else .checked account

/-- The phase after the active owners have been counted. -/
def afterCount (owners : Nat) : TransactionPhase :=
  match call.operation with
  | .changeRole role =>
    if account.isActiveOwner ∧ role ≠ .opsOwner ∧ owners ≤ 1 then .refused else .checked account
  | _ => if owners ≤ 1 then .refused else .checked account

/-- The row after the update, if it selects it. -/
def update : Option OpsAccount :=
  match call.operation with
  | .create _ => none
  | .changeRole role =>
    if call.actorUserId ≠ call.targetUserId ∧ account.status ≠ .revoked then
      some { account with role := role }
    else none
  | .lock => if account.status ≠ .revoked then some { account with status := .locked } else none
  | .recover => if account.status = .locked then some { account with status := .pendingMfa } else none
  | .revoke => if account.status ≠ .revoked then some { account with status := .revoked } else none

variable (users : LockedTable Nat OpsAccount)

/-- What a transaction does first. -/
def start : TransactionPhase :=
  match call.operation with
  | .create role => .written ⟨role, .pendingMfa⟩
  | _ => .locking ([call.actorUserId, call.targetUserId].dedup.filter fun userId =>
      (users.find userId).isSome)

/-- The table when a transaction commits its row. -/
def commit (account : OpsAccount) : LockedTable Nat OpsAccount :=
  match call.operation with
  | .create _ => users.insert call.targetUserId account
  | _ => users.write call.targetUserId account

end AccountCall

namespace AccountStore

variable (store : AccountStore)

/-- A transaction is at another phase. -/
def enter (transaction : Nat) (call : AccountCall) (phase : TransactionPhase) : AccountStore :=
  { store with
    transactions := Function.update store.transactions transaction (some ⟨call, phase⟩) }

/-- A transaction locks a row and goes on. -/
def lockRow (transaction userId : Nat) (call : AccountCall) (phase : TransactionPhase) :
    AccountStore :=
  { store with users := store.users.lock transaction userId }.enter transaction call phase

/-- A transaction ends, with its locks. -/
def finish (transaction : Nat) : AccountStore where
  users := store.users.release transaction
  transactions := Function.update store.transactions transaction none

/-- The next statement of a transaction, or its next row. -/
def advance (transaction row : Nat) (call : AccountCall) : TransactionPhase → AccountStore
  | .begun => store.enter transaction call (call.start store.users)
  | .locking remaining =>
    if remaining = [] then store.enter transaction call .reading
    else if row ∈ remaining ∧ store.users.isFree transaction row then
      store.lockRow transaction row call (.locking (remaining.erase row))
    else store
  | .reading =>
    match store.users.find call.targetUserId with
    | none => store.enter transaction call .refused
    | some account =>
      if store.users.isFree transaction call.targetUserId then
        store.lockRow transaction call.targetUserId call (call.afterRead account)
      else store
  | .read account =>
    store.enter transaction call (.counting account
      ((store.users.keysWhere OpsAccount.isActiveOwner).insertionSort (· ≤ ·)) [])
  | .counting account remaining owners =>
    match remaining with
    | [] => store.enter transaction call (call.afterCount account owners.length)
    | next :: rest =>
      if store.users.isFree transaction next then
        store.lockRow transaction next call (.counting account rest
          (if (store.users.find next).any OpsAccount.isActiveOwner then next :: owners else owners))
      else store
  | .checked _ =>
    -- the update selects the row as it is now, which the transaction has locked
    store.enter transaction call
      (match (store.users.find call.targetUserId).bind call.update with
        | none => .refused
        | some updated => .written updated)
  | .written account =>
    { store with users := call.commit store.users account }.finish transaction
  | .refused => store.finish transaction

/-- A step of the accounts. -/
def step : AccountStep → AccountStore × Unit
  | .begin transaction call =>
    (if (store.transactions transaction).isSome then store
      else store.enter transaction call .begun, ())
  | .advance transaction row =>
    (match store.transactions transaction with
      | none => store
      | some running => store.advance transaction row running.call running.phase, ())
  | .abort transaction => (store.finish transaction, ())

end AccountStore

end NancyMan.Accounts
