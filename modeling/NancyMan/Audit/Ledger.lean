import Mathlib.Data.List.MinMax
import NancyMan.Audit.HashChain
import NancyMan.Lib.Machine

/-!
# The ledger of audit entries

`PostgresOpsAuditLedger.append` is one transaction: it takes an advisory lock that it holds to its
end, reads the entry with the highest sequence number, and inserts an entry that is hashed with that
one's hash. Any number of these transactions run at once, each of them a statement at a time, and
each may fail anywhere; the statements after the lock see what was committed before it was granted.
-/
namespace NancyMan.Audit

/-- The metadata of an entry, an object that has no name twice. -/
structure AuditMetadata where
  properties : List (String × AuditValue)
  distinct : ((AuditValue.record properties).json?.all Json.distinctNames) = true

/-- What an entry is appended with. -/
structure AppendInput where
  actorUserId : Option String
  action : String
  subjectType : String
  subjectId : Option String
  requestId : Option String
  ipHash : Option String
  metadata : AuditMetadata

/-- A call of `append` with the identifier and the time that it draws. -/
structure AppendCall where
  input : AppendInput
  id : String
  occurredAt : String

/-- An entry of `ops_audit_entries`, but for its place. -/
structure AuditEntry where
  id : String
  occurredAt : String
  actorUserId : Option String
  action : String
  subjectType : String
  subjectId : Option String
  requestId : Option String
  ipHash : Option String
  metadata : Json
  previousHash : Option String
  entryHash : String

/-- A row of `ops_audit_entries`. -/
structure AuditRow where
  auditSequence : Nat
  entry : AuditEntry

/-- Whether a text is the name of an action or a type of subject. -/
def isAuditName (text : String) : Bool :=
  match text.toList with
  | [] => false
  | first :: rest =>
    'a' ≤ first && first ≤ 'z' && decide (2 ≤ rest.length) && decide (rest.length ≤ 99) &&
      rest.all fun symbol => ('a' ≤ symbol && symbol ≤ 'z') || symbol.isDigit || symbol == '.' ||
        symbol == '_' || symbol == '-'

/-- Whether `append` goes on to its transaction. -/
def AppendInput.isValid (input : AppendInput) : Bool :=
  isAuditName input.action && isAuditName input.subjectType && input.ipHash.all isDigest

/-- A text, or null. -/
def AuditValue.ofText : Option String → AuditValue
  | none => .null
  | some text => .string text

/-- The payload that is hashed. -/
def AppendCall.payload (call : AppendCall) : AuditValue :=
  .record [("id", .string call.id), ("occurredAt", .string call.occurredAt),
    ("actorUserId", .ofText call.input.actorUserId), ("action", .string call.input.action),
    ("subjectType", .string call.input.subjectType), ("subjectId", .ofText call.input.subjectId),
    ("requestId", .ofText call.input.requestId), ("ipHash", .ofText call.input.ipHash),
    ("metadata", .record call.input.metadata.properties)]

/-- The metadata as `jsonb` holds it, with an order of the properties of its own. -/
def AuditMetadata.jsonb (metadata : AuditMetadata) : Json :=
  ((AuditValue.record metadata.properties).json?.getD .null).canonicalValue

/-- The entry that `append` inserts. -/
def AppendCall.entry (call : AppendCall) (previousHash : Option String) (entryHash : String) :
    AuditEntry where
  id := call.id
  occurredAt := call.occurredAt
  actorUserId := call.input.actorUserId
  action := call.input.action
  subjectType := call.input.subjectType
  subjectId := call.input.subjectId
  requestId := call.input.requestId
  ipHash := call.input.ipHash
  metadata := call.input.metadata.jsonb
  previousHash := previousHash
  entryHash := entryHash

/-! ## Transactions -/

/-- What a transaction has done. -/
inductive AppendPhase where
  | begun
  | locked
  | read (previousHash : Option String)
  | inserted (row : AuditRow)

/-- A transaction under way. -/
structure Append where
  call : AppendCall
  phase : AppendPhase

/-- The committed rows, the next sequence number, the holder of the advisory lock and the
transactions under way. -/
structure AuditLedger where
  rows : List AuditRow
  nextSequence : Nat
  lock : Option Nat
  appends : Nat → Option Append

/-- A step of the ledger. -/
inductive LedgerStep where
  | append (transaction : Nat) (call : AppendCall)
  | advance (transaction : Nat)
  | abort (transaction : Nat)

namespace AuditLedger

def empty : AuditLedger := ⟨[], 1, none, fun _ => none⟩

variable (ledger : AuditLedger)

def head : Option AuditRow := ledger.rows.argmax AuditRow.auditSequence

variable (transaction : Nat)

/-- A transaction is at another phase. -/
def move (append : Append) (phase : AppendPhase) : AuditLedger :=
  { ledger with
    appends := Function.update ledger.appends transaction (some { append with phase := phase }) }

/-- A transaction has ended, and with it its lock. -/
def finish : AuditLedger :=
  { ledger with
    lock := if ledger.lock = some transaction then none else ledger.lock
    appends := Function.update ledger.appends transaction none }

def hasEntry (entry : AuditEntry) : Bool :=
  ledger.rows.any fun row => row.entry.id == entry.id || row.entry.entryHash == entry.entryHash

/-- An entry takes the next sequence number, and stays unless its identifier or hash is taken. -/
def insert (append : Append) (entry : AuditEntry) : AuditLedger :=
  let drawn := { ledger with nextSequence := ledger.nextSequence + 1 }
  if ledger.hasEntry entry then drawn.finish transaction
  else drawn.move transaction append (.inserted ⟨ledger.nextSequence, entry⟩)

variable (hash : String → String)

/-- The next statement of a transaction. -/
def advance (ledger : AuditLedger) (transaction : Nat) (append : Append) : AuditLedger :=
  match append.phase with
  | .begun =>
    -- pg_advisory_xact_lock waits for the transaction that holds the lock
    if ledger.lock.isSome then ledger
    else { ledger with lock := some transaction }.move transaction append .locked
  | .locked =>
    ledger.move transaction append (.read (ledger.head.map fun row => row.entry.entryHash))
  | .read previousHash =>
    match createAuditEntryHash hash previousHash append.call.payload with
    | .error _ => ledger.finish transaction
    | .ok entryHash => ledger.insert transaction append (append.call.entry previousHash entryHash)
  | .inserted row => { ledger with rows := ledger.rows ++ [row] }.finish transaction

/-- A step of the ledger. -/
def step (ledger : AuditLedger) : LedgerStep → AuditLedger
  | .append transaction call =>
    if (ledger.appends transaction).isSome || !call.input.isValid then ledger
    else ledger.move transaction ⟨call, .begun⟩ .begun
  | .advance transaction =>
    match ledger.appends transaction with
    | none => ledger
    | some append => ledger.advance hash transaction append
  | .abort transaction => ledger.finish transaction

def after (steps : List LedgerStep) : AuditLedger :=
  Machine.after (fun ledger action => (step hash ledger action, ())) empty steps

def entries : List AuditEntry := ledger.rows.map AuditRow.entry

end AuditLedger

end NancyMan.Audit
