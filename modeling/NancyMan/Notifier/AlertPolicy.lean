import NancyMan.Processor.Issues

/-!
# Alerts of an issue

`planIssueAlerts` says which alert an event of an issue calls for, `scheduleIssueAlerts` makes a
delivery of it for each rule that matches the issue, and `PostgresAlertOutbox.enqueue` inserts the
deliveries, of which the unique `dedup_key` keeps a second one out. Identifiers are numbers, times
are milliseconds, and a `dedup_key` is kept as its parts: the identifiers in its text have one
length, so two texts are equal exactly when their parts are.
-/
namespace NancyMan.Notifier

open Processor (IssueStatus)

inductive Severity where
  | critical
  | high
  | medium
  | low
deriving DecidableEq

/-- `severityRank`. -/
def Severity.rank : Severity → Nat
  | .critical => 4
  | .high => 3
  | .medium => 2
  | .low => 1

inductive DeliveryKind where
  | new
  | digest
  | reminder
  | escalation
  | resolved
  | regressed
deriving DecidableEq

/-- `RecipientTier` of a planned alert. -/
inductive RecipientTier where
  | onCall
  | owner

/-- `notification_channel`. -/
inductive Channel where
  | zalo
  | email
deriving DecidableEq

/-- The activities of an issue that alerts are sent for. -/
inductive ActivityEvent where
  | created
  | regressed
  | resolved
deriving DecidableEq

/-- `event`: an activity of the issue, or the scheduler's clock. -/
inductive AlertEvent where
  | activity (event : ActivityEvent)
  | tick

structure AlertIssue where
  id : Nat
  severity : Severity
  status : IssueStatus
  source : String
  errorCode : Option String
  firstSeenAt : Int
deriving DecidableEq

/-- `AlertRule`, where a source or code that is empty is left out. -/
structure AlertRule where
  id : Nat
  minimumSeverity : Severity
  source : Option String
  errorCode : Option String
  channel : Channel
  recipientReference : String
deriving DecidableEq

def AlertRule.matches (rule : AlertRule) (issue : AlertIssue) : Bool :=
  decide (rule.minimumSeverity.rank ≤ issue.severity.rank) &&
    (rule.source.isNone || rule.source == some issue.source) &&
    (rule.errorCode.isNone || rule.errorCode == issue.errorCode)

/-- The parts of a planned alert's `dedupKey` before the rule's: the issue, the kind and the minute
of the alert, unless the key has none. -/
structure AlertKey where
  issueId : Nat
  kind : DeliveryKind
  minute : Option Int
deriving DecidableEq

structure PlannedAlert where
  kind : DeliveryKind
  deliverAt : Int
  dedupKey : AlertKey
  recipientTier : RecipientTier

/-- `minuteKey`, of a time in the years 0 to 9999. -/
def minuteKey (value : Int) : Int := value / 60000

variable (issue : AlertIssue)

/-- The alert of an activity. -/
def activityAlert (event : ActivityEvent) (now : Int) : PlannedAlert :=
  match event with
  | .resolved => ⟨.resolved, now, ⟨issue.id, .resolved, some (minuteKey now)⟩, .onCall⟩
  | .regressed => ⟨.regressed, now, ⟨issue.id, .regressed, some (minuteKey now)⟩, .onCall⟩
  | .created =>
    if issue.severity = .critical then ⟨.new, now, ⟨issue.id, .new, none⟩, .onCall⟩
    else
      ⟨.digest, now + 300000, ⟨issue.id, .digest, some (minuteKey (now + 300000))⟩, .onCall⟩

/-- The alerts of a critical issue that nobody has acknowledged. -/
def tickAlerts (now : Int) : List PlannedAlert :=
  if issue.severity = .critical ∧ issue.status = .new then
    let elapsedMinutes := (now - issue.firstSeenAt) / 60000
    if elapsedMinutes ≥ 15 then [⟨.escalation, now, ⟨issue.id, .escalation, none⟩, .owner⟩]
    else if elapsedMinutes ≥ 5 then [⟨.reminder, now, ⟨issue.id, .reminder, none⟩, .onCall⟩]
    else []
  else []

def planIssueAlerts (now : Int) (event : AlertEvent) : List PlannedAlert :=
  if issue.status = .ignored then []
  else
    match event with
    | .activity event => [activityAlert issue event now]
    | .tick => tickAlerts issue now

/-- A delivery's `dedup_key`. -/
structure DedupKey where
  alert : AlertKey
  ruleId : Nat
deriving DecidableEq

/-- What `scheduleIssueAlerts` returns for an alert and a rule. -/
structure ScheduledAlert where
  ruleId : Nat
  channel : Channel
  recipientReference : String
  kind : DeliveryKind
  deliverAt : Int
  dedupKey : DedupKey

/-- A planned alert for a rule. -/
def scheduledAlert (alert : PlannedAlert) (rule : AlertRule) : ScheduledAlert where
  ruleId := rule.id
  channel := rule.channel
  recipientReference := rule.recipientReference
  kind := alert.kind
  deliverAt := alert.deliverAt
  dedupKey := ⟨alert.dedupKey, rule.id⟩

def scheduleIssueAlerts (event : AlertEvent) (occurredAt : Int) (rules : List AlertRule) :
    List ScheduledAlert :=
  (planIssueAlerts issue occurredAt event).flatMap fun alert =>
    (rules.filter fun rule => rule.matches issue).map (scheduledAlert alert)

/-- A row of `alert_deliveries`. No column keeps the activity it was inserted for; it is noted here
to tell which one that was. -/
structure AlertDelivery where
  issueId : Nat
  alertRuleId : Nat
  deliveryKind : DeliveryKind
  notificationChannel : Channel
  requestedAt : Int
  recipientReference : String
  dedupKey : DedupKey
  activity : Option Nat
deriving DecidableEq

/-- The row that `enqueue` inserts for a scheduled alert. -/
def deliveryRow (activity : Option Nat) (scheduled : ScheduledAlert) : AlertDelivery where
  issueId := issue.id
  alertRuleId := scheduled.ruleId
  deliveryKind := scheduled.kind
  notificationChannel := scheduled.channel
  requestedAt := scheduled.deliverAt
  recipientReference := scheduled.recipientReference
  dedupKey := scheduled.dedupKey
  activity := activity

/-- The rows that `enqueue` inserts, in order. -/
def enqueueRows (rules : List AlertRule) (issue : AlertIssue) (event : AlertEvent)
    (occurredAt : Int) (activity : Option Nat) : List AlertDelivery :=
  (scheduleIssueAlerts issue event occurredAt rules).map (deliveryRow issue activity)

end NancyMan.Notifier
