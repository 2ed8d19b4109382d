import NancyMan.Notifier.AlertPolicy

/-!
# The alert scheduler

`PostgresAlertScheduler.schedule` looks for activities of issues that are not ignored and have no
delivery of the activity's kind yet, takes the hundred latest ones and enqueues each; then it
enqueues the clock's event of the critical issues that are new. What a run inserts is settled by
its two queries, so an activity that is recorded while a run is under way counts as recorded
after it.
-/
namespace NancyMan.Notifier

open Processor (IssueStatus)

/-- A row of `error_issue_activity` that alerts are sent for. -/
structure IssueActivity where
  id : Nat
  issueId : Nat
  event : ActivityEvent
  occurredAt : Int
deriving DecidableEq

abbrev AlertRules := IdTable AlertRule AlertRule.id

/-- The tables of the scheduler. -/
structure AlertStore where
  issues : IdTable AlertIssue AlertIssue.id
  activities : IdTable IssueActivity IssueActivity.id
  deliveries : List AlertDelivery

namespace AlertStore

def empty : AlertStore := ⟨IdTable.empty, IdTable.empty, []⟩

/-- The delivery kinds that the scheduler takes for a notice of an activity. -/
def answers (kind : DeliveryKind) : ActivityEvent → Bool
  | .created => kind == .new || kind == .digest
  | .regressed => kind == .regressed
  | .resolved => kind == .resolved

variable (store : AlertStore) (issueId : Nat)

/-- Whether an issue has a delivery of an activity's kind. -/
def hasDelivery (event : ActivityEvent) : Bool :=
  store.deliveries.any fun delivery =>
    delivery.issueId == issueId && answers delivery.deliveryKind event

def activeIssue (activity : IssueActivity) : Option AlertIssue :=
  (store.issues.find activity.issueId).filter fun issue => issue.status ≠ .ignored

/-- Whether the first query of `schedule` selects an activity. -/
def isPending (activity : IssueActivity) : Bool :=
  (store.activeIssue activity).isSome && !store.hasDelivery activity.issueId activity.event

def pending : List IssueActivity :=
  store.activities.rows.filter store.isPending

/-- `ORDER BY activity.occurred_at DESC`. -/
def notBefore (left right : IssueActivity) : Bool := decide (right.occurredAt ≤ left.occurredAt)

def batch : List IssueActivity := firstOf notBefore 100 store.pending

variable (rules : AlertRules)

/-- The rows that the first loop inserts for an activity. -/
def activityRows (store : AlertStore) (activity : IssueActivity) : List AlertDelivery :=
  match store.issues.find activity.issueId with
  | none => []
  | some issue =>
    enqueueRows rules.rows issue (.activity activity.event) activity.occurredAt (some activity.id)

/-- `ORDER BY issue.first_seen_at ASC`. -/
def seenNoLater (left right : AlertIssue) : Bool := decide (left.firstSeenAt ≤ right.firstSeenAt)

/-- The issues that the second query returns. -/
def criticalIssues : List AlertIssue :=
  firstOf seenNoLater 100
    (store.issues.rows.filter fun issue => issue.severity == .critical && issue.status == .new)

/-- The rows that the first loop of `schedule` inserts. -/
def activityInserts (store : AlertStore) : List AlertDelivery :=
  store.batch.flatMap (store.activityRows rules)

/-- The rows that the second loop of `schedule` inserts. -/
def tickInserts (store : AlertStore) (now : Int) : List AlertDelivery :=
  store.criticalIssues.flatMap fun issue => enqueueRows rules.rows issue .tick now none

/-- The insertions of a run, up to the one that fails if one does. -/
def executed (store : AlertStore) (now : Int) (failsAfter : Option Nat) : List AlertDelivery :=
  let inserts := store.activityInserts rules ++ store.tickInserts rules now
  match failsAfter with
  | none => inserts
  | some count => inserts.take count

/-- `schedule`, which may fail after some insertions. -/
def schedule (store : AlertStore) (now : Int) (failsAfter : Option Nat) : AlertStore :=
  { store with
    deliveries := insertAllNew AlertDelivery.dedupKey store.deliveries
      (store.executed rules now failsAfter) }

/-- An issue with another status. -/
def setStatus (status : IssueStatus) : AlertStore :=
  { store with
    issues := store.issues.updateWhere (fun issue => issue.id == issueId)
      (fun issue => { issue with status := status }) fun _ => rfl }

/-- An issue of the processor. -/
def addIssue (severity : Severity) (status : IssueStatus) (source : String)
    (errorCode : Option String) (firstSeenAt : Int) : AlertStore :=
  { store with
    issues := store.issues.insert
      (fun id => ⟨id, severity, status, source, errorCode, firstSeenAt⟩) fun _ => rfl }

/-- An activity of an issue, which the foreign key asks to be there. -/
def record (event : ActivityEvent) (occurredAt : Int) : AlertStore :=
  if (store.issues.find issueId).isSome then
    { store with
      activities := store.activities.insert (fun id => ⟨id, issueId, event, occurredAt⟩)
        fun _ => rfl }
  else store

end AlertStore

/-- What happens to the tables. -/
inductive AlertStep where
  | addIssue (severity : Severity) (status : IssueStatus) (source : String)
      (errorCode : Option String) (firstSeenAt : Int)
  | setStatus (issueId : Nat) (status : IssueStatus)
  | record (issueId : Nat) (event : ActivityEvent) (occurredAt : Int)
  /-- A run of the scheduler, which fails after some insertions or completes. -/
  | schedule (now : Int) (failsAfter : Option Nat)

namespace AlertStore

variable (rules : AlertRules)

/-- One step of the tables, under rules that stay as they are. -/
def step (store : AlertStore) : AlertStep → AlertStore
  | .addIssue severity status source errorCode firstSeenAt =>
    store.addIssue severity status source errorCode firstSeenAt
  | .setStatus issueId status => store.setStatus issueId status
  | .record issueId event occurredAt => store.record issueId event occurredAt
  | .schedule now failsAfter => store.schedule rules now failsAfter

/-- A step with the deliveries it adds. -/
def act (store : AlertStore) (step : AlertStep) : AlertStore × List AlertDelivery :=
  (store.step rules step, (store.step rules step).deliveries.drop store.deliveries.length)

/-- The rows that were inserted for an activity and a rule, of the activity's kind. -/
def deliveriesFor (store : AlertStore) (activity : IssueActivity) (ruleId : Nat) :
    List AlertDelivery :=
  store.deliveries.filter fun delivery =>
    delivery.activity == some activity.id && delivery.alertRuleId == ruleId &&
      answers delivery.deliveryKind activity.event

/-- Every activity of an issue that is not ignored has exactly one delivery of its own for each rule
that matches the issue. -/
def Notified (store : AlertStore) : Prop :=
  ∀ activity ∈ store.activities.rows, ∀ issue, store.activeIssue activity = some issue →
    ∀ rule ∈ rules.rows, rule.matches issue = true →
      (store.deliveriesFor activity rule.id).length = 1

end AlertStore

end NancyMan.Notifier
