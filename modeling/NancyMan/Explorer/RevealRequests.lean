import NancyMan.Explorer.RevealService
import NancyMan.Lib.Processes

/-!
# Requests that reveal and hide

Requests of any users and sessions run at once: each call of one is a step, and other services use
the step-up table between them. A call may throw, before or after its effect. What happens is kept
in order, and an authorisation is kept with the table and the time at which it looked.
-/
namespace NancyMan.Explorer

open Auth (StepUpGrant StepUpTable StepUpBinding StepUpKey DatabasePiiBinding)

variable {ν : Type}

/-- A request. -/
inductive RevealRequest where
  | reveal (input : RevealInput)
  | rows (input : QueryRowsInput)
  | relatedRows (input : RelatedRowsInput)
  | hide (input : HideInput)

/-- What a request returns. -/
inductive RevealReply (ν : Type) where
  | granted (expiresAt : Int)
  | rows (response : DatabaseRowsResponse ν)
  | hidden

/-- What happened; a number stands for a request. -/
inductive RevealEvent (ν : Type) where
  | started (number : Nat) (request : RevealRequest)
  | threw (number : Nat)
  | inserted (number : Nat) (grant : StepUpGrant)
  /-- An entry was appended to the ledger. -/
  | appended (number : Nat) (entry : DatabaseAudit)
  | activated (number : Nat) (grantId : String)
  /-- `findActiveDatabasePii` looked for a grant in a table at a time. -/
  | looked (number : Nat) (binding : DatabasePiiBinding) (table : StepUpTable) (now : Int)
  | returned (number : Nat) (reply : Except RevealError (RevealReply ν))

/-- The step-up table, the time of the database and what happened. -/
structure RevealStore (ν : Type) where
  table : StepUpTable
  now : Int
  history : List (RevealEvent ν)

/-- What the surroundings choose at a call. -/
structure RevealOutcome (ν : Type) where
  /-- The time that passes before it. -/
  elapsed : Nat
  throws : Bool
  /-- Whether it has its effect although it throws. -/
  isEffective : Bool
  text : Option String
  isValid : Bool
  time : Int
  expiry : Option Int
  reply : WorkerReply ν

/-- A statement of another service on the table. -/
inductive OtherStatement where
  | insert (grant : StepUpGrant)
  | replaceOlder (key : StepUpKey)
  | authorize (binding : StepUpBinding)
  | consume (binding : StepUpBinding)
  | revoke (binding : StepUpBinding)
  | revokeSession (sessionId : String)
  /-- The update of `revokeAccess`. -/
  | revokeUser (userId : String)

/-- A statement of another service after some time. -/
structure OtherStep where
  elapsed : Nat
  statement : OtherStatement

namespace RevealRequest

/-- What a request for rows is given. -/
def rowsInput (sha256 : String → String) : RevealRequest → Option (RowsInput ν)
  | .rows input => some (input.rowsInput sha256)
  | .relatedRows input => some input.rowsInput
  | _ => none

/-- The function that a request calls. -/
def call [JsonRuntime ν] (sha256 : String → String) : RevealRequest → Reveal ν (RevealReply ν)
  | .reveal input => do
    let expiresAt ← revealPii sha256 input
    pure (.granted expiresAt)
  | .rows input => do
    let response ← queryAnyRows sha256 (input.rowsInput sha256)
    pure (.rows response)
  | .relatedRows input => do
    let response ← queryAnyRows sha256 input.rowsInput
    pure (.rows response)
  | .hide input => do
    revokePiiReveal input
    pure .hidden

end RevealRequest

namespace RevealStore

def empty : RevealStore ν := ⟨[], 0, []⟩

variable (store : RevealStore ν)

def change (table : StepUpTable) (events : List (RevealEvent ν)) : RevealStore ν :=
  { store with table := table, history := store.history ++ events }

def wait (elapsed : Nat) : RevealStore ν :=
  { store with now := store.now + elapsed }

/-- A call answers or throws. -/
def settle {α : Type} (number : Nat) (outcome : RevealOutcome ν) (table : StepUpTable)
    (events : List (RevealEvent ν)) (value : α) : RevealStore ν × Option α :=
  if outcome.throws then
    ((if outcome.isEffective then store.change table events else store).change
      (if outcome.isEffective then table else store.table) [.threw number], none)
  else (store.change table events, some value)

/-- What a call does. -/
def answer (number : Nat) (outcome : RevealOutcome ν) :
    (effect : RevealEffect) → RevealStore ν × RevealAnswer ν effect
  | .now => (store, outcome.time)
  | .issueId => (store, outcome.text.getD "")
  | .findUserTotpFactorId _ => store.settle number outcome store.table [] outcome.text
  | .verifyProof _ => store.settle number outcome store.table [] outcome.isValid
  | .findParentSession _ _ => store.settle number outcome store.table [] outcome.expiry
  | .replaceOlder key =>
    store.settle number outcome (store.table.replaceOlder key store.now) [] ()
  | .insert grant =>
    match store.table.insert grant with
    | none => (store.change store.table [.threw number], none)
    | some table => store.settle number outcome table [.inserted number grant] true
  | .findActiveDatabasePii binding =>
    let found := store.table.findActiveDatabasePii binding store.now
    store.settle number outcome found.1 [.looked number binding store.table store.now] found.2
  | .activateDatabasePiiGrant grantId binding =>
    let activated := store.table.activateDatabasePiiGrant grantId binding store.now
    store.settle number outcome activated.1
      (if activated.2 then [.activated number grantId] else []) activated.2
  | .revokeDatabasePii binding =>
    let revoked := store.table.revokeDatabasePii binding store.now
    store.settle number outcome revoked.1 [] revoked.2
  | .append entry => store.settle number outcome store.table [.appended number entry] ()
  | .command _ _ => store.settle number outcome store.table [] outcome.reply

/-- The table after a statement of another service. -/
def afterOther : OtherStatement → StepUpTable
  | .insert grant =>
    if grant.capability = .databasePii then store.table
    else (store.table.insert grant).getD store.table
  | .replaceOlder key => store.table.replaceOlder key store.now
  | .authorize binding => (store.table.authorize binding store.now).1
  | .consume binding => (store.table.consume binding store.now).1
  | .revoke binding => store.table.revoke binding store.now
  | .revokeSession sessionId => store.table.revokeSession sessionId store.now
  | .revokeUser userId => store.table.updateWhere
      (fun grant => grant.userId == userId && grant.revokedAt.isNone) (StepUpGrant.revoke store.now)

end RevealStore

/-- The requests over the step-up table. -/
def revealRequests [JsonRuntime ν] (sha256 : String → String) :
    Surroundings RevealEffect (RevealAnswer ν) (Except RevealError (RevealReply ν) × Unit)
      (RevealStore ν) RevealRequest (RevealOutcome ν) OtherStep where
  program request := request.call sha256 ()
  start store number request := store.change store.table [.started number request]
  perform store number effect outcome := (store.wait outcome.elapsed).answer number outcome effect
  finish store number value := store.change store.table [.returned number value.1]
  act store action :=
    (store.wait action.elapsed).change ((store.wait action.elapsed).afterOther action.statement) []

end NancyMan.Explorer
