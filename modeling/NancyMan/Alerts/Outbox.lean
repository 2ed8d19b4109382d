import NancyMan.Lib.IdTable
import NancyMan.Lib.Machine
import NancyMan.Lib.Tables

/-!
# The alert outbox

The deliveries of the store and the loop that sends them: `enqueueDelivery`, `claimDueDeliveries`,
`completeDelivery` and `failDelivery` of the store, and `deliverDueAlerts` of the alert service. A
claim, what comes of its sending and the end of the process are separate steps. A point in time is a
number of milliseconds; the ISO texts of the source order like the times they stand for.
-/
namespace NancyMan.Alerts

/-- `AlertDelivery['kind']`. -/
inductive DeliveryKind where
  | opened
  | reminder
  | recovered
  | collectorFailed
deriving DecidableEq, Repr

/-- `AlertDelivery['state']`. -/
inductive DeliveryState where
  | queued
  | sending
  | sent
  | failed
  | deliveryAmbiguous
deriving DecidableEq, Repr

/-- A row of `alert_deliveries`. -/
structure Delivery where
  id : Nat
  incidentId : Option Nat
  recipientCiphertext : String
  kind : DeliveryKind
  state : DeliveryState
  attemptCount : Nat
  nextAttemptAt : Nat
  lastErrorCode : Option String
  createdAt : Nat
deriving DecidableEq, Repr

/-- The table `alert_deliveries`. -/
abbrev Deliveries := IdTable Delivery Delivery.id

/-! ## The store -/

/-- What `enqueueDelivery` is given. -/
structure EnqueueInput where
  incidentId : Option Nat
  recipientCiphertext : String
  kind : DeliveryKind
  nextAttemptAt : Nat

/-- A row as `enqueueDelivery` inserts it. -/
def enqueued (input : EnqueueInput) (createdAt id : Nat) : Delivery where
  id := id
  incidentId := input.incidentId
  recipientCiphertext := input.recipientCiphertext
  kind := input.kind
  state := .queued
  attemptCount := 0
  nextAttemptAt := input.nextAttemptAt
  lastErrorCode := none
  createdAt := createdAt

theorem enqueued_id (input : EnqueueInput) (createdAt id : Nat) :
    (enqueued input createdAt id).id = id := rfl

variable (table : Deliveries)

/-- `enqueueDelivery`, at the store's time. -/
def enqueueDelivery (input : EnqueueInput) (now : Nat) : Deliveries :=
  table.insert (enqueued input now) (enqueued_id input now)

def maxAttempts : Nat := 5

variable (now : Nat)

/-- A row that `claimDueDeliveries` selects. -/
def Delivery.isDue (row : Delivery) : Bool :=
  decide (row.nextAttemptAt ≤ now) &&
    (row.state == .queued ||
      ((row.state == .failed || row.state == .deliveryAmbiguous) &&
        decide (row.attemptCount < maxAttempts)))

/-- `ORDER BY next_attempt_at ASC`. -/
def Delivery.notAfter (left right : Delivery) : Bool :=
  decide (left.nextAttemptAt ≤ right.nextAttemptAt)

/-- `boundedLimit`, of a limit that is rounded down. -/
def boundedLimit (limit : Int) : Nat := (max 1 (min 100 limit)).toNat

def Delivery.claim (row : Delivery) : Delivery :=
  { row with state := .sending, attemptCount := row.attemptCount + 1 }

def whenRow (test : Delivery → Bool) (change : Delivery → Delivery) (row : Delivery) : Delivery :=
  if test row then change row else row

theorem whenRow_id {test : Delivery → Bool} {change : Delivery → Delivery}
    (same : ∀ row, (change row).id = row.id) (row : Delivery) :
    (whenRow test change row).id = row.id := by
  unfold whenRow
  split
  · exact same row
  · rfl

/-- The identifiers of the rows that `claimDueDeliveries` selects, in their order. -/
def dueIds (limit : Int) : List Nat :=
  oldest (Delivery.isDue now) Delivery.id Delivery.notAfter (boundedLimit limit) table.rows

/-- `claimDueDeliveries`: the table and the rows it claims. -/
def claimDueDeliveries (limit : Int) : Deliveries × List Delivery :=
  let ids := dueIds table now limit
  let claimed := table.update (whenRow (fun row => ids.contains row.id) Delivery.claim)
    (whenRow_id fun _ => rfl)
  (claimed, ids.filterMap claimed.find)

/-- A row as `completeDelivery` leaves it. -/
def Delivery.complete (row : Delivery) : Delivery := { row with state := .sent, lastErrorCode := none }

def completeDelivery (id : Nat) : Deliveries :=
  table.update (whenRow (fun row => row.id == id) Delivery.complete) (whenRow_id fun _ => rfl)

/-- What `failDelivery` is given. -/
structure FailInput where
  state : DeliveryState
  errorCode : String
  nextAttemptAt : Nat

/-- `cap(text, length)`, of a text of ASCII symbols. -/
def cap (text : String) (length : Nat) : String := String.ofList (text.toList.take length)

/-- A row as `failDelivery` leaves it. -/
def Delivery.fail (input : FailInput) (row : Delivery) : Delivery :=
  { row with
    state := input.state
    lastErrorCode := some (cap input.errorCode 120)
    nextAttemptAt := input.nextAttemptAt }

def failDelivery (id : Nat) (input : FailInput) : Deliveries :=
  table.update (whenRow (fun row => row.id == id) (Delivery.fail input)) (whenRow_id fun _ => rfl)

/-! ## The deliver loop -/

structure ZaloDeliveryError where
  code : String
  retryable : Bool
  ambiguous : Bool

/-- What the loop catches. -/
inductive Thrown where
  | delivery (error : ZaloDeliveryError)
  | other

def Thrown.failure : Thrown → ZaloDeliveryError
  | .delivery error => error
  | .other => ⟨"delivery_failed", true, true⟩

def isRecipientSymbol (symbol : Char) : Bool := symbol.isAlphanum || "_.:-".toList.contains symbol

/-- `/^[A-Za-z0-9_.:-]{1,128}$/u`. -/
def isRecipientId (text : String) : Bool :=
  decide (1 ≤ text.length) && decide (text.length ≤ 128) && text.toList.all isRecipientSymbol

/-- What the code outside the loop does with one delivery: the recipient that `decryptSecret`
reads, or none when it throws; what `sender` answers; and whether `completeDelivery` is done. -/
structure Sending where
  recipientId : Option String
  answer : Except Thrown String
  completes : Bool

/-- The `try` block of the loop. -/
def Sending.outcome (sending : Sending) : Except Thrown Unit :=
  match sending.recipientId with
  | none => .error .other
  | some recipientId =>
    if isRecipientId recipientId then
      match sending.answer with
      | .error thrown => .error thrown
      | .ok _ => if sending.completes then .ok () else .error .other
    else .error (.delivery ⟨"invalid_recipient", false, false⟩)

def retryDelayMs (attempt : Nat) : Nat := 60000 * 2 ^ min 4 (attempt - 1)

def yearMs : Nat := 365 * 24 * 60 * 60000

/-- What the loop gives to `failDelivery`. -/
def failInput (delivery : Delivery) (failure : ZaloDeliveryError) : FailInput where
  state := if failure.ambiguous then .deliveryAmbiguous else .failed
  errorCode := failure.code
  nextAttemptAt := now + if failure.retryable then retryDelayMs delivery.attemptCount else yearMs

/-- The write that ends one turn of the loop. -/
def settleDelivery (delivery : Delivery) (sending : Sending) : Deliveries :=
  match sending.outcome with
  | .ok () => completeDelivery table delivery.id
  | .error thrown => failDelivery table delivery.id (failInput now delivery thrown.failure)

/-- A call of `deliverDueAlerts` that is under way: its time and the claimed deliveries it has not
settled. -/
structure DeliverLoop where
  now : Nat
  deliveries : List Delivery

/-- The stored deliveries and the calls under way. -/
structure Outbox where
  table : Deliveries
  loops : List DeliverLoop

def Outbox.empty : Outbox := ⟨IdTable.empty, []⟩

/-- What happens to the outbox. -/
inductive OutboxAction where
  /-- A delivery is enqueued. -/
  | enqueue (input : EnqueueInput) (now : Nat)
  /-- `deliverDueAlerts` is called. -/
  | deliver (now : Nat) (limit : Int)
  /-- A call sends its next delivery and writes what came of it. -/
  | settle (index : Nat) (sending : Sending)
  /-- A call ends early, because `failDelivery` threw. -/
  | abort (index : Nat)
  /-- The process ends. -/
  | crash

def DeliverLoop.next (call : DeliverLoop) : DeliverLoop :=
  { call with deliveries := call.deliveries.tail }

/-- One step, with the identifiers of the deliveries it claims. -/
def outboxStep (outbox : Outbox) : OutboxAction → Outbox × List Nat
  | .enqueue input now => ({ outbox with table := enqueueDelivery outbox.table input now }, [])
  | .deliver now limit =>
    let (table, claimed) := claimDueDeliveries outbox.table now limit
    (⟨table, outbox.loops ++ [⟨now, claimed⟩]⟩, claimed.map Delivery.id)
  | .settle index sending =>
    match outbox.loops[index]? with
    | none => (outbox, [])
    | some call =>
      match call.deliveries with
      | [] => (outbox, [])
      | delivery :: _ =>
        (⟨settleDelivery outbox.table call.now delivery sending,
          outbox.loops.set index call.next⟩, [])
  | .abort index => ({ outbox with loops := outbox.loops.eraseIdx index }, [])
  | .crash => ({ outbox with loops := [] }, [])

end NancyMan.Alerts
