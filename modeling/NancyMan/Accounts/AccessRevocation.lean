import NancyMan.Accounts.AccountTransactions

/-!
# Revoking the access of a user

`lock`, `recover` and `revoke` close the sessions, the challenges and the step-up grants of a user in
the transaction that changes its status; meanwhile the user logs in and steps up, a statement at a
time. The transaction holds the row of the user, on which an insertion with a foreign key waits, and
each of its updates locks the open rows that it finds, one by one. `completeTotpLogin` ends in one
statement, which locks its challenge first and the row of the user before it commits. A statement
sees what is committed when it starts, and waits for a row that another transaction has locked. Any
call may fail. The other rows that the transaction locks, and what it refuses, are those of
`AccountTransactions`.
-/
namespace NancyMan.Accounts

open Auth (UserStatus)

/-- What gives access. -/
inductive AccessKind where
  | session
  | challenge
  | grant
deriving DecidableEq

/-- A row of `ops_sessions`, `ops_mfa_login_challenges` or `ops_secret_elevations`. -/
structure AccessRow where
  /-- How many revocations had been committed when its password was checked. -/
  checked : Nat
  /-- It is neither used nor consumed nor revoked. -/
  isOpen : Bool
  expiresAt : Int
  /-- What a grant is for: its session, capability and subject. -/
  purpose : Nat

/-- Where a call is; a call that has checked a password knows how many revocations had been
committed then. -/
inductive AccessCall where
  | idle
  /-- `beginLogin` has found an active user, and checks the password. -/
  | credential
  /-- `createMfaChallenge` is next. -/
  | passed (checked : Nat)
  /-- `completeTotpLogin` has found a challenge. -/
  | found (challenge : Nat)
  /-- `consumeMfaChallengeAndCreateSession` has locked the challenge. -/
  | consuming (challenge : Nat)
  /-- `grant` has found the proof, and checks the password. -/
  | proof (session purpose : Nat)
  /-- `findParentSession` is next. -/
  | verified (session purpose checked : Nat)
  /-- `replaceOlder` is next. -/
  | parented (purpose checked : Nat)
  /-- The insertion of the grant is next. -/
  | replaced (purpose checked : Nat)
  /-- A transaction of `lock`, `recover` or `revoke` locks the row of the user. -/
  | begun (operation : AccountOperation)
  /-- It updates the status. -/
  | locked (operation : AccountOperation)
  /-- It has updated the status, and has kinds of rows left to close. -/
  | updated (status : UserStatus) (kinds : List AccessKind)
  /-- It has rows left to lock of one kind. -/
  | closing (status : UserStatus) (kind : AccessKind) (remaining : List Nat)
    (kinds : List AccessKind)
deriving DecidableEq

/-- Something gave access: how many revocations had been committed when its password was checked,
and how many when it was used. -/
structure AccessUse where
  kind : AccessKind
  checked : Nat
  cuts : Nat
deriving DecidableEq

/-- The rows of a user, the calls under way and what gave access. -/
structure AccessStore where
  status : UserStatus
  /-- The transaction that holds the row of the user. -/
  holder : Option Nat
  rows : AccessKind → LockedTable Nat AccessRow
  calls : Nat → AccessCall
  now : Int
  /-- How many revocations have been committed. -/
  cuts : Nat
  uses : List AccessUse

/-- What a statement of a call is answered. -/
structure AccessAnswer where
  /-- Whether the password or the code is right. -/
  isValid : Bool
  /-- The identifier of a new row. -/
  id : Nat
  expiresAt : Int
  /-- The row that is locked next. -/
  row : Nat

/-- A step of the user, of an administrator or of the clock. -/
inductive AccessStep where
  | elapse (time : Nat)
  | beginLogin (call : Nat)
  /-- `completeTotpLogin` looks for its challenge. -/
  | findTotpChallenge (call challenge : Nat)
  | stepUp (call session purpose : Nat)
  | revokeAccess (call : Nat) (operation : AccountOperation)
  /-- The next statement of a call, or the next row of it. -/
  | advance (call : Nat) (answer : AccessAnswer)
  | abort (call : Nat)
  /-- `findActiveByToken`. -/
  | findActiveByToken (session : Nat)
  /-- `authorize` or `consume` of a grant. -/
  | useGrant (grant : Nat) (consumes : Bool)
  /-- The enrolment of a second factor is complete. -/
  | enroll

/-- The status after an operation, where its update selects the row. -/
def AccountOperation.status (operation : AccountOperation) (status : UserStatus) :
    Option UserStatus :=
  match operation with
  | .lock => if status = .revoked then none else some .locked
  | .recover => if status = .locked then some .pendingMfa else none
  | .revoke => if status = .revoked then none else some .revoked
  | _ => none

namespace AccessStore

variable (store : AccessStore) (kind : AccessKind)

def findLive (id : Nat) : Option AccessRow :=
  ((store.rows kind).find id).filter fun row => row.isOpen && decide (store.now < row.expiresAt)

def enter (call : Nat) (place : AccessCall) : AccessStore :=
  { store with calls := Function.update store.calls call place }

def put (table : LockedTable Nat AccessRow) : AccessStore :=
  { store with rows := Function.update store.rows kind table }

def use (row : AccessRow) : AccessStore :=
  { store with uses := store.uses ++ [⟨kind, row.checked, store.cuts⟩] }

/-- The locks of a call end. -/
def release (call : Nat) : AccessStore :=
  { store with
    holder := if store.holder = some call then none else store.holder
    rows := fun kind => (store.rows kind).release call }

/-- A row is inserted, unless the row of the user is locked: then the insertion waits. -/
def insert (call : Nat) (kind : AccessKind) (id : Nat) (row : AccessRow) : AccessStore :=
  if store.holder.isSome then store
  else (store.put kind ((store.rows kind).insert id row)).enter call .idle

/-- `replaceOlder`, unless one of the rows is locked. -/
def replaceOlder (call purpose checked : Nat) : AccessStore :=
  let table := store.rows .grant
  if (table.keysWhere fun row => row.isOpen && row.purpose == purpose).all (table.isFree call) then
    (store.put .grant (table.update fun _ row =>
      if row.isOpen && row.purpose == purpose then { row with isOpen := false } else row)).enter call
        (.replaced purpose checked)
  else store

/-- `consumeMfaChallengeAndCreateSession` commits, unless the row of the user is locked. -/
def createSession (call challenge : Nat) (answer : AccessAnswer) : AccessStore :=
  if store.holder.isSome then store
  else
    match (store.rows .challenge).find challenge with
    | none => (store.release call).enter call .idle
    | some row =>
      let used := store.put .challenge
        ((store.rows .challenge).write challenge { row with isOpen := false })
      (((used.put .session ((used.rows .session).insert answer.id
        ⟨row.checked, true, answer.expiresAt, 0⟩)).use .challenge row).release call).enter call .idle

/-- A transaction commits: the rows that it has locked are closed, and its locks end. -/
def commit (call : Nat) (status : UserStatus) : AccessStore :=
  ({ store with
    status := status
    rows := fun kind => (store.rows kind).update fun key row =>
      if (store.rows kind).holder key = some call then { row with isOpen := false } else row
    cuts := store.cuts + 1 }.release call).enter call .idle

/-- The next statement of a call, or its next row. -/
def advance (call : Nat) (answer : AccessAnswer) : AccessCall → AccessStore
  | .idle => store
  | .credential =>
    store.enter call (if answer.isValid then .passed store.cuts else .idle)
  | .passed checked =>
    store.insert call .challenge answer.id ⟨checked, true, answer.expiresAt, 0⟩
  | .found challenge =>
    if answer.isValid then
      -- the update waits for the row, and then selects it as it is
      if (store.rows .challenge).isFree call challenge then
        match store.findLive .challenge challenge with
        | none => store.enter call .idle
        | some _ => (store.put .challenge ((store.rows .challenge).lock call challenge)).enter call
            (.consuming challenge)
      else store
    else store.enter call .idle
  | .consuming challenge => store.createSession call challenge answer
  | .proof session purpose =>
    store.enter call (if answer.isValid then .verified session purpose store.cuts else .idle)
  | .verified session purpose checked =>
    store.enter call
      (if (store.findLive .session session).isSome then .parented purpose checked else .idle)
  | .parented purpose checked => store.replaceOlder call purpose checked
  | .replaced purpose checked =>
    store.insert call .grant answer.id ⟨checked, true, answer.expiresAt, purpose⟩
  | .begun operation =>
    if store.holder.isSome then store
    else { store with holder := some call }.enter call (.locked operation)
  | .locked operation =>
    match operation.status store.status with
    | none => (store.release call).enter call .idle
    | some status => store.enter call (.updated status [.session, .challenge, .grant])
  | .updated status [] => store.commit call status
  | .updated status (kind :: kinds) =>
    store.enter call
      (.closing status kind ((store.rows kind).keysWhere AccessRow.isOpen) kinds)
  | .closing status kind remaining kinds =>
    if remaining = [] then store.enter call (.updated status kinds)
    else if answer.row ∈ remaining ∧ (store.rows kind).isFree call answer.row then
      (store.put kind ((store.rows kind).lock call answer.row)).enter call
        (.closing status kind (remaining.erase answer.row) kinds)
    else store

/-- `authorize` or `consume`, unless the row is locked. -/
def useGrant (grant : Nat) (consumes : Bool) : AccessStore :=
  if ((store.rows .grant).holder grant).isSome then store
  else
    match store.findLive .grant grant with
    | none => store
    | some row =>
      (if consumes then
        store.put .grant ((store.rows .grant).write grant { row with isOpen := false })
      else store).use .grant row

/-- A step. -/
def step : AccessStep → AccessStore × Unit
  | .elapse time => ({ store with now := store.now + time }, ())
  | .beginLogin call =>
    (if store.calls call = .idle ∧ store.status = .active then store.enter call .credential
      else store, ())
  | .findTotpChallenge call challenge =>
    (if store.calls call = .idle ∧ store.status = .active ∧
        (store.findLive .challenge challenge).isSome then store.enter call (.found challenge)
      else store, ())
  | .stepUp call session purpose =>
    (if store.calls call = .idle ∧ store.status = .active then
        store.enter call (.proof session purpose)
      else store, ())
  | .revokeAccess call operation =>
    (if store.calls call = .idle then store.enter call (.begun operation) else store, ())
  | .advance call answer => (store.advance call answer (store.calls call), ())
  | .abort call => ((store.release call).enter call .idle, ())
  | .findActiveByToken session =>
    (match store.findLive .session session with
      | none => store
      | some row => if store.status = .active then store.use .session row else store, ())
  | .useGrant grant consumes => (store.useGrant grant consumes, ())
  | .enroll =>
    (if store.holder.isNone ∧ store.status = .pendingMfa then { store with status := .active }
      else store, ())

end AccessStore

end NancyMan.Accounts
