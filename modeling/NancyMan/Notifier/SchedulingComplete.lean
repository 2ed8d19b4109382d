import NancyMan.Notifier.Scheduler
import NancyMan.Lib.Machine

/-!
# What the scheduler misses

The scheduler takes any delivery of a kind for a notice of every activity of that kind. An activity
is missed when its issue already has a delivery of the kind, when a limit or a failure cuts its
insertions off from others of its issue and kind, when its key is taken, and when a hundred later
activities that no rule matches stay before it. Where none of this happens every activity gets its
deliveries, each once.
-/
namespace NancyMan.Notifier

open AlertDelivery
open List (any_eq_true filter_eq_nil_iff length_eq_zero_iff map_map mem_append mem_append_left
  mem_filter mem_flatMap mem_map mem_singleton take_sublist)

open Processor (IssueStatus)

namespace AlertStore

/-! ## The rows of an activity -/

/-- The row of an activity of an issue for a rule. -/
def noticeRow (issue : AlertIssue) (activity : IssueActivity) (rule : AlertRule) : AlertDelivery :=
  deliveryRow issue (some activity.id)
    (scheduledAlert (activityAlert issue activity.event activity.occurredAt) rule)

variable {store : AlertStore} {activity : IssueActivity} {issue : AlertIssue}

theorem activeIssue_eq_some :
    store.activeIssue activity = some issue ↔
      store.issues.find activity.issueId = some issue ∧ issue.status ≠ .ignored := by
  unfold activeIssue
  rw [Option.filter_eq_some_iff, decide_eq_true_eq]

theorem mem_pending :
    activity ∈ store.pending ↔ activity ∈ store.activities.rows ∧
      (∃ issue, store.activeIssue activity = some issue) ∧
        store.hasDelivery activity.issueId activity.event = false := by
  unfold pending isPending
  rw [mem_filter, Bool.and_eq_true_iff, Option.isSome_iff_exists, Bool.not_eq_true']

/-- The rows of an activity of an active issue are those of the rules that match the issue. -/
theorem activityRows_eq (rules : AlertRules) (active : store.activeIssue activity = some issue) :
    store.activityRows rules activity =
      (rules.rows.filter fun rule => rule.matches issue).map (noticeRow issue activity) := by
  obtain ⟨found, attended⟩ := activeIssue_eq_some.mp active
  unfold activityRows enqueueRows scheduleIssueAlerts planIssueAlerts
  rw [found]
  dsimp only
  rw [if_neg attended, List.flatMap_singleton, map_map]
  rfl

/-- The kind of an activity's alert answers the activity. -/
theorem answers_activityAlert (issue : AlertIssue) (event : ActivityEvent) (now : Int) :
    answers (activityAlert issue event now).kind event := by
  cases event with
  | created =>
    unfold activityAlert
    dsimp only
    split <;> rfl
  | regressed => rfl
  | resolved => rfl

theorem answers_unique {kind : DeliveryKind} {left right : ActivityEvent}
    (first : answers kind left) (second : answers kind right) : left = right := by
  revert first second
  cases kind <;> cases left <;> cases right <;> decide

/-- An alert's key names its issue and kind. -/
theorem activityAlert_dedupKey (issue : AlertIssue) (event : ActivityEvent) (now : Int) :
    (activityAlert issue event now).dedupKey.issueId = issue.id ∧
      (activityAlert issue event now).dedupKey.kind = (activityAlert issue event now).kind := by
  cases event with
  | created =>
    unfold activityAlert
    dsimp only
    split <;> exact ⟨rfl, rfl⟩
  | regressed => exact ⟨rfl, rfl⟩
  | resolved => exact ⟨rfl, rfl⟩

def Keyed (row : AlertDelivery) : Prop :=
  row.dedupKey.alert.issueId = row.issueId ∧ row.dedupKey.alert.kind = row.deliveryKind

theorem noticeRow_keyed (issue : AlertIssue) (activity : IssueActivity) (rule : AlertRule) :
    Keyed (noticeRow issue activity rule) :=
  activityAlert_dedupKey issue activity.event activity.occurredAt

variable {rules : AlertRules} {row : AlertDelivery}

/-- A row that a pending activity inserts is its issue's row for a rule. -/
theorem mem_activityRows (waiting : activity ∈ store.pending) :
    row ∈ store.activityRows rules activity ↔
      ∃ issue rule, store.activeIssue activity = some issue ∧ rule ∈ rules.rows ∧
        rule.matches issue ∧ row = noticeRow issue activity rule := by
  obtain ⟨-, ⟨issue, active⟩, -⟩ := mem_pending.mp waiting
  rw [activityRows_eq rules active, mem_map]
  constructor
  · rintro ⟨rule, selected, rfl⟩
    obtain ⟨member, matched⟩ := mem_filter.mp selected
    exact ⟨issue, rule, active, member, matched, rfl⟩
  · rintro ⟨other, rule, same, member, matched, rfl⟩
    rw [active] at same
    cases same
    exact ⟨rule, mem_filter.mpr ⟨member, matched⟩, rfl⟩

theorem pending_of_mem_activityInserts (member : row ∈ store.activityInserts rules) :
    ∃ activity ∈ store.pending, row ∈ store.activityRows rules activity := by
  obtain ⟨activity, first, inserted⟩ := mem_flatMap.mp member
  exact ⟨activity, mem_of_firstOf first, inserted⟩

/-- The alerts of the clock are reminders and escalations. -/
theorem mem_tickAlerts {now : Int} {alert : PlannedAlert} (member : alert ∈ tickAlerts issue now) :
    (alert.kind = .escalation ∨ alert.kind = .reminder) ∧ alert.dedupKey.issueId = issue.id ∧
      alert.dedupKey.kind = alert.kind := by
  unfold tickAlerts at member
  dsimp only at member
  split at member
  · split at member
    · rw [mem_singleton.mp member]
      exact ⟨.inl rfl, rfl, rfl⟩
    · split at member
      · rw [mem_singleton.mp member]
        exact ⟨.inr rfl, rfl, rfl⟩
      · cases member
  · cases member

/-- What the second loop inserts is for no activity and answers none. -/
theorem mem_tickInserts {now : Int} (member : row ∈ store.tickInserts rules now) :
    row.activity = none ∧ Keyed row ∧ ∀ event, answers row.deliveryKind event = false := by
  obtain ⟨issue, -, inserted⟩ := mem_flatMap.mp member
  obtain ⟨scheduled, planned, rfl⟩ := mem_map.mp inserted
  obtain ⟨alert, alerted, matched⟩ := mem_flatMap.mp planned
  obtain ⟨rule, -, rfl⟩ := mem_map.mp matched
  have ticked : alert ∈ tickAlerts issue now := by
    unfold planIssueAlerts at alerted
    split at alerted
    · cases alerted
    · exact alerted
  obtain ⟨kinds, keyIssue, keyKind⟩ := mem_tickAlerts ticked
  refine ⟨rfl, ⟨keyIssue, keyKind⟩, fun event => ?_⟩
  show answers alert.kind event = false
  rcases kinds with escalation | reminder
  · rw [escalation]
    cases event <;> rfl
  · rw [reminder]
    cases event <;> rfl

/-- A run inserts some rows of the first loop in their order, and then some of the second. -/
theorem executed_parts (rules : AlertRules) (store : AlertStore) (now : Int)
    (failsAfter : Option Nat) :
    ∃ notices ticks, store.executed rules now failsAfter = notices ++ ticks ∧
      notices.Sublist (store.activityInserts rules) ∧
        ticks.Sublist (store.tickInserts rules now) := by
  cases failsAfter with
  | none => exact ⟨_, _, rfl, List.Sublist.refl _, List.Sublist.refl _⟩
  | some count =>
    exact ⟨_, _, List.take_append, take_sublist _ _, take_sublist _ _⟩

/-! ## What a run inserts -/

def alertKey (issue : AlertIssue) (activity : IssueActivity) : AlertKey :=
  (activityAlert issue activity.event activity.occurredAt).dedupKey

/-- What holds of the tables in a run where no activity is missed: the issues of the activities are
there, every delivery has its key and its cause, an activity whose issue has a delivery of its kind
has all of its own, and the keys of the others differ. -/
structure Sound (rules : AlertRules) (store : AlertStore) : Prop where
  referenced : ∀ activity ∈ store.activities.rows, (store.issues.find activity.issueId).isSome
  keyed : ∀ row ∈ store.deliveries, Keyed row
  caused : ∀ row ∈ store.deliveries, ∀ id, row.activity = some id →
    ∃ activity ∈ store.activities.rows, activity.id = id ∧ row.issueId = activity.issueId ∧
      answers row.deliveryKind activity.event = true
  settled : ∀ activity ∈ store.activities.rows,
    store.hasDelivery activity.issueId activity.event = true →
      ∀ issue, store.issues.find activity.issueId = some issue →
        ∀ rule ∈ rules.rows, rule.matches issue = true →
          (store.deliveriesFor activity rule.id).length = 1
  apart : ∀ activity ∈ store.activities.rows, ∀ other ∈ store.activities.rows,
    activity.id ≠ other.id → activity.issueId = other.issueId → activity.event = other.event →
      store.hasDelivery activity.issueId activity.event = false →
        ∀ issue, store.issues.find activity.issueId = some issue →
          alertKey issue activity ≠ alertKey issue other

theorem hasDelivery_of_mem {issueId : Nat} {event : ActivityEvent} (member : row ∈ store.deliveries)
    (same : row.issueId = issueId) (answered : answers row.deliveryKind event) :
    store.hasDelivery issueId event :=
  any_eq_true.mpr ⟨row, member, by rw [same, answered, beq_self_eq_true]; rfl⟩

variable (sound : store.Sound rules)

include sound

/-- An activity whose issue has no delivery of its kind has none of its own. -/
theorem Sound.deliveriesFor_eq_nil (present : activity ∈ store.activities.rows)
    (unsent : store.hasDelivery activity.issueId activity.event = false) (ruleId : Nat) :
    store.deliveriesFor activity ruleId = [] := by
  refine filter_eq_nil_iff.mpr fun row member selected => ?_
  rw [Bool.and_eq_true_iff, Bool.and_eq_true_iff] at selected
  obtain ⟨cause, causeMember, named, same, answered⟩ :=
    sound.caused row member activity.id (beq_iff_eq.mp selected.1.1)
  have itself : cause = activity := store.activities.row_unique causeMember present named
  rw [itself] at same answered
  rw [hasDelivery_of_mem member same answered] at unsent
  cases unsent

omit sound in
theorem activeIssue_id (active : store.activeIssue activity = some issue) :
    issue.id = activity.issueId :=
  (IdTable.find_eq_some.mp (activeIssue_eq_some.mp active).1).2

/-- Pending activities whose rows share a key are one. -/
theorem Sound.pending_unique {left right : IssueActivity}
    (first : left ∈ store.pending) (second : right ∈ store.pending)
    {leftRow rightRow : AlertDelivery} (leftMember : leftRow ∈ store.activityRows rules left)
    (rightMember : rightRow ∈ store.activityRows rules right)
    (same : leftRow.dedupKey = rightRow.dedupKey) : left = right := by
  obtain ⟨leftIssue, leftRule, leftActive, -, -, rfl⟩ := (mem_activityRows first).mp leftMember
  obtain ⟨rightIssue, rightRule, rightActive, -, -, rfl⟩ := (mem_activityRows second).mp rightMember
  have sameKey : alertKey leftIssue left = alertKey rightIssue right := congrArg DedupKey.alert same
  obtain ⟨leftId, leftKind⟩ := activityAlert_dedupKey leftIssue left.event left.occurredAt
  obtain ⟨rightId, rightKind⟩ := activityAlert_dedupKey rightIssue right.event right.occurredAt
  have sameIssue : left.issueId = right.issueId := by
    rw [← activeIssue_id leftActive, ← activeIssue_id rightActive, ← leftId, ← rightId]
    exact congrArg AlertKey.issueId sameKey
  have sameEvent : left.event = right.event := by
    have kinds : (activityAlert leftIssue left.event left.occurredAt).kind =
        (activityAlert rightIssue right.event right.occurredAt).kind := by
      rw [← leftKind, ← rightKind]
      exact congrArg AlertKey.kind sameKey
    exact answers_unique (answers_activityAlert leftIssue left.event left.occurredAt)
      (kinds ▸ answers_activityAlert rightIssue right.event right.occurredAt)
  obtain ⟨leftPresent, -, unsent⟩ := mem_pending.mp first
  obtain ⟨rightPresent, -, -⟩ := mem_pending.mp second
  have leftFound := (activeIssue_eq_some.mp leftActive).1
  have rightFound := (activeIssue_eq_some.mp rightActive).1
  rw [← sameIssue, leftFound] at rightFound
  cases rightFound
  by_contra different
  have ids : left.id ≠ right.id :=
    fun named => different (store.activities.row_unique leftPresent rightPresent named)
  exact sound.apart left leftPresent right rightPresent ids sameIssue sameEvent unsent leftIssue
    leftFound sameKey

omit sound in
/-- The rows of one activity have different keys. -/
theorem activityRows_distinct (waiting : activity ∈ store.pending) :
    ((store.activityRows rules activity).map dedupKey).Nodup := by
  obtain ⟨-, ⟨issue, active⟩, -⟩ := mem_pending.mp waiting
  rw [activityRows_eq rules active, map_map]
  have ids : ((rules.rows.filter fun rule => rule.matches issue).map AlertRule.id).Nodup :=
    rules.distinct.sublist (List.filter_sublist.map AlertRule.id)
  have keys : (dedupKey ∘ noticeRow issue activity) =
      (fun id => ⟨alertKey issue activity, id⟩) ∘ AlertRule.id := rfl
  rw [keys, ← map_map]
  exact ids.map fun left right same => congrArg DedupKey.ruleId same

omit sound in
theorem batch_nodup (store : AlertStore) : store.batch.Nodup := by
  have rows : store.activities.rows.Nodup := store.activities.distinct.of_map
  have pending : store.pending.Nodup := rows.filter _
  have sorted : (store.pending.mergeSort notBefore).Nodup :=
    (List.mergeSort_perm _ _).nodup_iff.mpr pending
  exact sorted.sublist (take_sublist 100 _)

/-- The rows of the first loop have different keys. -/
theorem Sound.activityInserts_distinct : ((store.activityInserts rules).map dedupKey).Nodup := by
  unfold activityInserts
  rw [List.map_flatMap, List.nodup_flatMap]
  constructor
  · intro activity first
    exact activityRows_distinct (mem_of_firstOf first)
  · refine (batch_nodup store).pairwise_of_forall_ne fun left first right second different => ?_
    intro key leftKey rightKey
    obtain ⟨leftRow, leftMember, rfl⟩ := mem_map.mp leftKey
    obtain ⟨rightRow, rightMember, same⟩ := mem_map.mp rightKey
    exact different (sound.pending_unique (mem_of_firstOf first) (mem_of_firstOf second) leftMember
      rightMember same.symm)

/-- A row of a pending activity has a key that no delivery has. -/
theorem Sound.key_fresh (waiting : activity ∈ store.pending)
    (member : row ∈ store.activityRows rules activity) {other : AlertDelivery}
    (stored : other ∈ store.deliveries) : other.dedupKey ≠ row.dedupKey := by
  intro same
  obtain ⟨issue, rule, active, -, -, rfl⟩ := (mem_activityRows waiting).mp member
  obtain ⟨rowIssue, rowKind⟩ := noticeRow_keyed issue activity rule
  obtain ⟨otherIssue, otherKind⟩ := sound.keyed other stored
  have named : other.issueId = activity.issueId := by
    rw [← otherIssue, same, rowIssue]
    exact activeIssue_id active
  have answered : answers other.deliveryKind activity.event := by
    rw [← otherKind, same, rowKind]
    exact answers_activityAlert issue activity.event activity.occurredAt
  have sent := hasDelivery_of_mem stored named answered
  rw [(mem_pending.mp waiting).2.2] at sent
  cases sent

/-- A run adds the rows of its first loop, each for a pending activity, and then rows that are for
none. -/
theorem Sound.schedule_deliveries (now : Int) (failsAfter : Option Nat) :
    ∃ notices ticks, (store.schedule rules now failsAfter).deliveries =
        store.deliveries ++ (notices ++ ticks) ∧
      notices.Nodup ∧
      (∀ row ∈ notices, row ∈ store.executed rules now failsAfter ∧
        ∃ activity ∈ store.pending, row ∈ store.activityRows rules activity) ∧
      (∀ row ∈ store.executed rules now failsAfter, row.activity ≠ none → row ∈ notices) ∧
      ∀ row ∈ ticks, row ∈ store.tickInserts rules now := by
  obtain ⟨notices, late, parts, noticed, ticked⟩ := executed_parts rules store now failsAfter
  have keys : (notices.map dedupKey).Nodup :=
    sound.activityInserts_distinct.sublist (noticed.map dedupKey)
  have caused : ∀ row ∈ notices, ∃ activity ∈ store.pending,
      row ∈ store.activityRows rules activity :=
    fun row member => pending_of_mem_activityInserts (noticed.subset member)
  have fresh : ∀ row ∈ notices, ∀ other ∈ store.deliveries, other.dedupKey ≠ row.dedupKey := by
    intro row member other stored
    obtain ⟨activity, waiting, inserted⟩ := caused row member
    exact sound.key_fresh waiting inserted stored
  have first : insertAllNew dedupKey store.deliveries notices =
      store.deliveries ++ notices := insertAllNew_fresh keys fresh
  obtain ⟨ticks, second, among⟩ :=
    @insertAllNew_extends _ _ _ dedupKey (store.deliveries ++ notices) late
  refine ⟨notices, ticks, ?_, keys.of_map, fun row member => ⟨?_, caused row member⟩, ?_, ?_⟩
  · show insertAllNew dedupKey store.deliveries (store.executed rules now failsAfter) = _
    rw [parts, insertAllNew, List.foldl_append]
    show insertAllNew dedupKey
      (insertAllNew dedupKey store.deliveries notices) late = _
    rw [first, second, List.append_assoc]
  · rw [parts]
    exact mem_append_left late member
  · intro row member noted
    rw [parts] at member
    rcases mem_append.mp member with notice | tick
    · exact notice
    · exact absurd (mem_tickInserts (ticked.subset tick)).1 noted
  · intro row member
    exact ticked.subset (among row member)

/-! ## Steps that miss nothing -/

/-- A run inserts either every row of the pending activities of an issue and event or none. -/
def Unsplit (rules : AlertRules) (store : AlertStore) (now : Int) (failsAfter : Option Nat) : Prop :=
  ∀ activity ∈ store.pending, ∀ other ∈ store.pending, other.issueId = activity.issueId →
    other.event = activity.event →
      (∃ row ∈ store.executed rules now failsAfter, row.activity = some activity.id) →
        ∀ row ∈ store.activityRows rules other, row ∈ store.executed rules now failsAfter

def isUnmatched (rules : AlertRules) (store : AlertStore) (activity : IssueActivity) : Bool :=
  (store.activityRows rules activity).isEmpty

/-- The steps after which no activity is missed: an activity is recorded while its issue has no
delivery of its kind and no other one has its key, and a run does not cut the rows of one issue and
event apart, nor does it complete with a hundred pending activities that no rule matches. -/
def Orderly (rules : AlertRules) (store : AlertStore) : AlertStep → Prop
  | .addIssue .. => True
  | .setStatus .. => True
  | .record issueId event occurredAt =>
    store.hasDelivery issueId event = false ∧
      ∀ issue ∈ store.issues.rows, issue.id = issueId →
        ∀ other ∈ store.activities.rows, other.issueId = issueId → other.event = event →
          alertKey issue other ≠ (activityAlert issue event occurredAt).dedupKey
  | .schedule now failsAfter =>
    store.Unsplit rules now failsAfter ∧
      (failsAfter = none → (store.pending.filter (store.isUnmatched rules)).length < 100)

omit sound in
theorem sound_empty (rules : AlertRules) : empty.Sound rules := by
  constructor <;> intro row member <;> cases member

/-- A new issue has no activities yet. -/
theorem Sound.addIssue (severity : Severity) (status : IssueStatus)
    (source : String) (errorCode : Option String) (firstSeenAt : Int) :
    (store.addIssue severity status source errorCode firstSeenAt).Sound rules := by
  have kept (activity : IssueActivity) (present : activity ∈ store.activities.rows) :
      (store.addIssue severity status source errorCode firstSeenAt).issues.find activity.issueId =
        store.issues.find activity.issueId := by
    obtain ⟨issue, found⟩ := Option.isSome_iff_exists.mp (sound.referenced activity present)
    have old := store.issues.fresh issue (IdTable.find_eq_some.mp found).1
    have named := (IdTable.find_eq_some.mp found).2
    have other : activity.issueId ≠ store.issues.nextId := by omega
    have inserted := IdTable.find_insert store.issues
      (fun id => ⟨id, severity, status, source, errorCode, firstSeenAt⟩) (fun _ => rfl)
      activity.issueId
    rw [if_neg other] at inserted
    exact inserted
  refine ⟨fun activity present => ?_, sound.keyed, sound.caused,
    fun activity present sent issue found => ?_,
    fun activity present other otherPresent ids same event unsent issue found => ?_⟩
  · rw [kept activity present]
    exact sound.referenced activity present
  · rw [kept activity present] at found
    exact sound.settled activity present sent issue found
  · rw [kept activity present] at found
    exact sound.apart activity present other otherPresent ids same event unsent issue found

omit sound in
theorem find_setStatus (store : AlertStore) (issueId : Nat) (status : IssueStatus) (id : Nat) :
    (store.setStatus issueId status).issues.find id =
      (store.issues.find id).map fun issue =>
        if issue.id == issueId then { issue with status := status } else issue :=
  IdTable.find_updateWhere store.issues (fun issue => issue.id == issueId)
    (fun issue => { issue with status := status }) (fun _ => rfl) id

omit sound in
/-- The issue found after a change of status differs from the one before at most in its status. -/
theorem exists_of_find_setStatus {issueId : Nat} {status : IssueStatus} {id : Nat}
    (found : (store.setStatus issueId status).issues.find id = some issue) :
    ∃ before, store.issues.find id = some before ∧
      issue = { before with status := issue.status } := by
  rw [find_setStatus] at found
  obtain ⟨before, known, changed⟩ := Option.map_eq_some_iff.mp found
  refine ⟨before, known, ?_⟩
  rw [← changed]
  split <;> rfl

/-- A change of status leaves what is matched and the keys. -/
theorem Sound.setStatus (issueId : Nat) (status : IssueStatus) :
    (store.setStatus issueId status).Sound rules := by
  refine ⟨fun activity present => ?_, sound.keyed, sound.caused,
    fun activity present sent issue found rule member matched => ?_,
    fun activity present other otherPresent ids same event unsent issue found => ?_⟩
  · rw [find_setStatus, Option.isSome_map]
    exact sound.referenced activity present
  · obtain ⟨before, known, changed⟩ := exists_of_find_setStatus found
    rw [changed] at matched
    exact sound.settled activity present sent before known rule member matched
  · obtain ⟨before, known, changed⟩ := exists_of_find_setStatus found
    have differ := sound.apart activity present other otherPresent ids same event unsent before known
    have sameKey (one : IssueActivity) : alertKey issue one = alertKey before one := by
      rw [changed]
      rfl
    rw [sameKey, sameKey]
    exact differ

/-- An activity that is recorded in order is not missed. -/
theorem Sound.record {issueId : Nat} {event : ActivityEvent}
    {occurredAt : Int} (orderly : store.Orderly rules (.record issueId event occurredAt)) :
    (store.record issueId event occurredAt).Sound rules := by
  obtain ⟨unsent, apart⟩ := orderly
  unfold AlertStore.record
  split
  case isFalse => exact sound
  case isTrue known =>
    let new : IssueActivity := ⟨store.activities.nextId, issueId, event, occurredAt⟩
    have split {activity : IssueActivity} (member : activity ∈ store.activities.rows ++ [new]) :
        activity ∈ store.activities.rows ∨ activity = new :=
      (mem_append.mp member).imp_right mem_singleton.mp
    refine ⟨fun activity member => ?_, sound.keyed, fun row stored id noted => ?_,
      fun activity member sent issue found rule ruleMember matched => ?_,
      fun activity member other otherMember ids same sameEvent quiet issue found => ?_⟩
    · rcases split member with old | rfl
      · exact sound.referenced activity old
      · exact known
    · obtain ⟨activity, member, rest⟩ := sound.caused row stored id noted
      exact ⟨activity, mem_append_left _ member, rest⟩
    · rcases split member with old | rfl
      · exact sound.settled activity old sent issue found rule ruleMember matched
      · have contrary : store.hasDelivery issueId event := sent
        rw [unsent] at contrary
        cases contrary
    · obtain ⟨issueMember, issueNamed⟩ := IdTable.find_eq_some.mp found
      rcases split member with old | rfl
      · rcases split otherMember with otherOld | rfl
        · exact sound.apart activity old other otherOld ids same sameEvent quiet issue found
        · exact apart issue issueMember (issueNamed.trans same) activity old same sameEvent
      · rcases split otherMember with otherOld | rfl
        · intro equal
          exact apart issue issueMember issueNamed other otherOld same.symm sameEvent.symm equal.symm
        · exact absurd rfl ids

omit sound in
/-- A run adds to the deliveries of an activity what its first loop inserts for it. -/
theorem deliveriesFor_append (before : AlertStore) {after : AlertStore}
    {notices ticks : List AlertDelivery}
    (grown : after.deliveries = before.deliveries ++ (notices ++ ticks))
    (causeless : ∀ row ∈ ticks, row.activity = none) (activity : IssueActivity) (ruleId : Nat) :
    after.deliveriesFor activity ruleId = before.deliveriesFor activity ruleId ++
      notices.filter fun row => row.activity == some activity.id && row.alertRuleId == ruleId &&
        answers row.deliveryKind activity.event := by
  have none : (ticks.filter fun row => row.activity == some activity.id &&
      row.alertRuleId == ruleId && answers row.deliveryKind activity.event) = [] := by
    refine filter_eq_nil_iff.mpr fun row member selected => ?_
    rw [Bool.and_eq_true_iff, Bool.and_eq_true_iff, causeless row member] at selected
    cases selected.1.1
  unfold deliveriesFor
  rw [grown, List.filter_append, List.filter_append, none, List.append_nil]

omit sound in
/-- The row of a pending activity for a rule is the only one of its activity and rule among the rows
of pending activities. -/
theorem noticeRow_unique {other : IssueActivity} (waiting : activity ∈ store.pending)
    (also : other ∈ store.pending) (active : store.activeIssue activity = some issue)
    {rule : AlertRule} (ruleMember : rule ∈ rules.rows)
    (member : row ∈ store.activityRows rules other) (caused : row.activity = some activity.id)
    (ruled : row.alertRuleId = rule.id) : row = noticeRow issue activity rule := by
  obtain ⟨otherIssue, otherRule, otherActive, otherMember, -, rfl⟩ := (mem_activityRows also).mp member
  have named : other.id = activity.id := Option.some.inj caused
  have itself : other = activity :=
    store.activities.row_unique (mem_pending.mp also).1 (mem_pending.mp waiting).1 named
  have sameRule : otherRule = rule := rules.row_unique otherMember ruleMember ruled
  rw [itself, active] at otherActive
  cases otherActive
  rw [itself, sameRule]

/-- A run that keeps the rows of one issue and event together leaves no activity missed. -/
theorem Sound.schedule {now : Int} {failsAfter : Option Nat}
    (unsplit : store.Unsplit rules now failsAfter) :
    (store.schedule rules now failsAfter).Sound rules := by
  obtain ⟨notices, ticks, grown, distinct, noticed, reached, ticked⟩ :=
    sound.schedule_deliveries now failsAfter
  have causeless : ∀ row ∈ ticks, row.activity = none :=
    fun row member => (mem_tickInserts (ticked row member)).1
  have split {row : AlertDelivery} (member : row ∈ (store.schedule rules now failsAfter).deliveries) :
      row ∈ store.deliveries ∨ row ∈ notices ∨ row ∈ ticks := by
    rw [grown] at member
    exact (mem_append.mp member).imp_right mem_append.mp
  refine ⟨sound.referenced, fun row member => ?_, fun row member id noted => ?_,
    fun activity present sent issue found rule ruleMember matched => ?_,
    fun activity present other otherPresent ids same event quiet issue found => ?_⟩
  · rcases split member with old | notice | tick
    · exact sound.keyed row old
    · obtain ⟨-, activity, waiting, inserted⟩ := noticed row notice
      obtain ⟨issue, rule, -, -, -, rfl⟩ := (mem_activityRows waiting).mp inserted
      exact noticeRow_keyed issue activity rule
    · exact (mem_tickInserts (ticked row tick)).2.1
  · rcases split member with old | notice | tick
    · exact sound.caused row old id noted
    · obtain ⟨-, activity, waiting, inserted⟩ := noticed row notice
      obtain ⟨issue, rule, active, -, -, rfl⟩ := (mem_activityRows waiting).mp inserted
      exact ⟨activity, (mem_pending.mp waiting).1, Option.some.inj noted, activeIssue_id active,
        answers_activityAlert issue activity.event activity.occurredAt⟩
    · rw [causeless row tick] at noted
      cases noted
  · rw [deliveriesFor_append store grown causeless, List.length_append]
    cases before : store.hasDelivery activity.issueId activity.event with
    | true =>
      -- No row is inserted for an activity whose issue has a delivery of its kind.
      have none : (notices.filter fun row => row.activity == some activity.id &&
          row.alertRuleId == rule.id && answers row.deliveryKind activity.event) = [] := by
        refine filter_eq_nil_iff.mpr fun row member selected => ?_
        rw [Bool.and_eq_true_iff, Bool.and_eq_true_iff] at selected
        obtain ⟨-, other, waiting, inserted⟩ := noticed row member
        obtain ⟨otherIssue, otherRule, -, -, -, rfl⟩ := (mem_activityRows waiting).mp inserted
        have named : other.id = activity.id := Option.some.inj (beq_iff_eq.mp selected.1.1)
        obtain ⟨otherPresent, -, unsent⟩ := mem_pending.mp waiting
        have itself : other = activity :=
          store.activities.row_unique otherPresent present named
        rw [itself, before] at unsent
        cases unsent
      rw [none, sound.settled activity present before issue found rule ruleMember matched]
      rfl
    | false =>
      rw [sound.deliveriesFor_eq_nil present before]
      -- The delivery that answers the activity now was inserted for one of its issue and event.
      obtain ⟨row, member, answered⟩ := any_eq_true.mp sent
      rw [Bool.and_eq_true_iff] at answered
      have sameIssue : row.issueId = activity.issueId := beq_iff_eq.mp answered.1
      rcases split member with old | notice | tick
      · rw [hasDelivery_of_mem old sameIssue answered.2] at before
        cases before
      · obtain ⟨executedRow, other, waiting, inserted⟩ := noticed row notice
        obtain ⟨otherIssue, otherRule, otherActive, -, -, rfl⟩ := (mem_activityRows waiting).mp inserted
        have issues : activity.issueId = other.issueId :=
          sameIssue.symm.trans (activeIssue_id otherActive)
        have events : activity.event = other.event := answers_unique answered.2
          (answers_activityAlert otherIssue other.event other.occurredAt)
        have active : store.activeIssue activity = some otherIssue := by
          obtain ⟨otherFound, attended⟩ := activeIssue_eq_some.mp otherActive
          exact activeIssue_eq_some.mpr ⟨issues ▸ otherFound, attended⟩
        have pends : activity ∈ store.pending := mem_pending.mpr ⟨present, ⟨_, active⟩, before⟩
        have itself : issue = otherIssue := by
          have known : store.issues.find activity.issueId = some issue := found
          rw [(activeIssue_eq_some.mp active).1] at known
          exact (Option.some.inj known).symm
        rw [← itself] at active
        have mine : noticeRow issue activity rule ∈ store.activityRows rules activity :=
          (mem_activityRows pends).mpr ⟨issue, rule, active, ruleMember, matched, rfl⟩
        have done : noticeRow issue activity rule ∈ store.executed rules now failsAfter :=
          unsplit other waiting activity pends issues events ⟨_, executedRow, rfl⟩ _ mine
        have inNotices := reached _ done (Option.some_ne_none activity.id)
        have once := @length_filter_eq_one _ notices (fun row => row.activity == some activity.id &&
          row.alertRuleId == rule.id && answers row.deliveryKind activity.event) _ distinct inNotices
          (by
            rw [Bool.and_eq_true_iff, Bool.and_eq_true_iff]
            exact ⟨⟨beq_self_eq_true _, beq_self_eq_true _⟩,
              answers_activityAlert issue activity.event activity.occurredAt⟩)
          (fun one oneMember selected => by
            rw [Bool.and_eq_true_iff, Bool.and_eq_true_iff] at selected
            obtain ⟨-, cause, causeWaiting, causeRow⟩ := noticed one oneMember
            exact noticeRow_unique pends causeWaiting active ruleMember causeRow
              (beq_iff_eq.mp selected.1.1) (beq_iff_eq.mp selected.1.2))
        rw [once]
        rfl
      · have unanswered := (mem_tickInserts (ticked row tick)).2.2 activity.event
        rw [answered.2] at unanswered
        cases unanswered
  · refine sound.apart activity present other otherPresent ids same event ?_ issue found
    rw [Bool.eq_false_iff] at quiet ⊢
    intro sent
    apply quiet
    obtain ⟨row, member, answered⟩ := any_eq_true.mp sent
    refine any_eq_true.mpr ⟨row, ?_, answered⟩
    rw [grown]
    exact mem_append_left _ member

/-- An orderly step leaves no activity missed. -/
theorem Sound.step {step : AlertStep}
    (orderly : store.Orderly rules step) : (store.step rules step).Sound rules := by
  cases step with
  | addIssue severity status source errorCode firstSeenAt =>
    exact sound.addIssue severity status source errorCode firstSeenAt
  | setStatus issueId status => exact sound.setStatus issueId status
  | record issueId event occurredAt => exact sound.record orderly
  | schedule now failsAfter => exact sound.schedule orderly.1

/-! ## Enough runs -/

/-- The pending activities whose issues a rule matches. -/
def waiting (rules : AlertRules) (store : AlertStore) : Nat :=
  (store.activities.rows.filter fun activity =>
    store.isPending activity && !store.isUnmatched rules activity).length

omit sound in
/-- What is pending after a run was pending before it. -/
theorem isPending_of_schedule {now : Int} {failsAfter : Option Nat}
    (later : (store.schedule rules now failsAfter).isPending activity) :
    store.isPending activity := by
  unfold isPending at later ⊢
  rw [Bool.and_eq_true_iff] at later ⊢
  refine ⟨later.1, ?_⟩
  rw [Bool.not_eq_true', Bool.eq_false_iff]
  intro sent
  obtain ⟨row, member, answered⟩ := any_eq_true.mp sent
  have kept : row ∈ (store.schedule rules now failsAfter).deliveries := by
    obtain ⟨added, grown, -⟩ := @insertAllNew_extends _ _ _ dedupKey store.deliveries
      (store.executed rules now failsAfter)
    have same : (store.schedule rules now failsAfter).deliveries = store.deliveries ++ added := grown
    rw [same]
    exact mem_append_left _ member
  have still : (store.schedule rules now failsAfter).hasDelivery activity.issueId activity.event =
      true := any_eq_true.mpr ⟨row, kept, answered⟩
  rw [still] at later
  cases later.2

/-- An activity of a batch that a rule matches is not pending after a run that completes. -/
theorem Sound.not_pending_of_batch (now : Int)
    (first : activity ∈ store.batch) (matched : store.isUnmatched rules activity = false) :
    (store.schedule rules now none).isPending activity = false := by
  obtain ⟨notices, ticks, grown, -, -, reached, -⟩ := sound.schedule_deliveries now none
  have waits : activity ∈ store.pending := mem_of_firstOf first
  obtain ⟨row, inserted⟩ := List.exists_mem_of_ne_nil _ (List.isEmpty_eq_false_iff.mp matched)
  have executed : row ∈ store.executed rules now none :=
    mem_append_left _ (mem_flatMap.mpr ⟨activity, first, inserted⟩)
  obtain ⟨issue, rule, active, -, -, rfl⟩ := (mem_activityRows waits).mp inserted
  have stored : noticeRow issue activity rule ∈ (store.schedule rules now none).deliveries := by
    rw [grown]
    exact List.mem_append_right _
      (mem_append_left _ (reached _ executed (Option.some_ne_none activity.id)))
  have sent : (store.schedule rules now none).hasDelivery activity.issueId activity.event :=
    hasDelivery_of_mem stored (activeIssue_id active)
      (answers_activityAlert issue activity.event activity.occurredAt)
  unfold isPending
  rw [sent]
  exact Bool.and_false _

/-- A run that completes, with fewer than a hundred pending activities that no rule matches, leaves
fewer of the others, if there are any. -/
theorem Sound.waiting_schedule (now : Int)
    (few : (store.pending.filter (store.isUnmatched rules)).length < 100) :
    (store.schedule rules now none).waiting rules ≤ store.waiting rules - 1 := by
  have weaker : ∀ activity ∈ store.activities.rows,
      ((store.schedule rules now none).isPending activity &&
        !(store.schedule rules now none).isUnmatched rules activity) = true →
      (store.isPending activity && !store.isUnmatched rules activity) = true := by
    intro activity _ later
    rw [Bool.and_eq_true_iff] at later ⊢
    exact ⟨isPending_of_schedule later.1, later.2⟩
  by_cases done : store.waiting rules = 0
  · have none : store.activities.rows.filter (fun activity =>
        store.isPending activity && !store.isUnmatched rules activity) = [] :=
      length_eq_zero_iff.mp done
    have still : (store.schedule rules now Option.none).waiting rules = 0 := by
      refine length_eq_zero_iff.mpr (filter_eq_nil_iff.mpr fun activity member later => ?_)
      exact filter_eq_nil_iff.mp none activity member (weaker activity member later)
    omega
  · have some : (store.activities.rows.filter fun activity =>
        store.isPending activity && !store.isUnmatched rules activity) ≠ [] :=
      fun none => done (length_eq_zero_iff.mpr none)
    obtain ⟨activity, member⟩ := List.exists_mem_of_ne_nil _ some
    obtain ⟨present, selected⟩ := mem_filter.mp member
    rw [Bool.and_eq_true_iff] at selected
    have waits : activity ∈ store.pending := mem_filter.mpr ⟨present, selected.1⟩
    have fewer : (store.pending.filter fun one => !(fun other =>
        !store.isUnmatched rules other) one).length < 100 := by
      simp only [Bool.not_not]
      exact few
    obtain ⟨first, taken, matched⟩ :=
      @exists_mem_firstOf _ notBefore 100 store.pending _ fewer _ waits selected.2
    have firstPending : first ∈ store.pending := mem_of_firstOf taken
    obtain ⟨firstPresent, firstWaits⟩ := mem_filter.mp firstPending
    have gone := sound.not_pending_of_batch now taken (Bool.not_eq_true' _ |>.mp matched)
    have less := length_filter_lt weaker firstPresent
      (show (store.isPending first && !store.isUnmatched rules first) = true from
        Bool.and_eq_true_iff.mpr ⟨firstWaits, matched⟩)
      (by rw [gone]; rfl)
    have bound : (store.schedule rules now none).waiting rules < store.waiting rules := less
    omega

/-- Runs that complete, in order, leave as many fewer activities waiting. -/
theorem Sound.waiting_runs (clocks : List Int)
    (orderly : Machine.Along (act rules) (Orderly rules) store
      (clocks.map fun now => .schedule now none)) :
    (Machine.after (act rules) store (clocks.map fun now => .schedule now none)).waiting rules ≤
        store.waiting rules - clocks.length ∧
      (Machine.after (act rules) store (clocks.map fun now => .schedule now none)).Sound rules := by
  induction clocks generalizing store with
  | nil => exact ⟨Nat.le_refl _, sound⟩
  | cons now rest ih =>
    obtain ⟨⟨unsplit, few⟩, others⟩ := orderly
    obtain ⟨fewer, kept⟩ := ih (sound.schedule unsplit) others
    have next := sound.waiting_schedule now (few rfl)
    refine ⟨?_, kept⟩
    show (Machine.after (act rules) (store.schedule rules now none)
      (rest.map fun now => .schedule now none)).waiting rules ≤ store.waiting rules - (rest.length + 1)
    omega

/-- Where nothing is missed and nothing waits, everything is notified. -/
theorem Sound.notified (done : store.waiting rules = 0) : store.Notified rules := by
  intro activity present issue active rule ruleMember matched
  have known := (activeIssue_eq_some.mp active).1
  refine sound.settled activity present ?_ issue known rule ruleMember matched
  by_contra unsent
  have quiet : store.hasDelivery activity.issueId activity.event = false :=
    Bool.eq_false_iff.mpr unsent
  have waits : activity ∈ store.pending := mem_pending.mpr ⟨present, ⟨issue, active⟩, quiet⟩
  have inserted : noticeRow issue activity rule ∈ store.activityRows rules activity :=
    (mem_activityRows waits).mpr ⟨issue, rule, active, ruleMember, matched, rfl⟩
  have filled : store.isUnmatched rules activity = false := by
    refine List.isEmpty_eq_false_iff.mpr fun empty => ?_
    rw [empty] at inserted
    cases inserted
  have none := filter_eq_nil_iff.mp (length_eq_zero_iff.mp done) activity present
  rw [(mem_filter.mp waits).2, filled] at none
  exact none rfl

theorem sound_after (steps : List AlertStep)
    (orderly : Machine.Along (act rules) (Orderly rules) store steps) :
    (Machine.after (act rules) store steps).Sound rules := by
  induction steps generalizing store with
  | nil => exact sound
  | cons step rest ih => exact ih (sound.step orderly.1) orderly.2

omit sound

/-- After a history and then as many runs that complete as it has activities, all of whose steps are
orderly, every activity of an issue that is not ignored has exactly one delivery for each rule that
matches. -/
theorem notified_of_orderly (rules : AlertRules) (history : List AlertStep) (clocks : List Int)
    (enough : (Machine.after (act rules) empty history).activities.rows.length ≤ clocks.length)
    (orderly : Machine.Along (act rules) (Orderly rules) empty
      (history ++ clocks.map fun now => .schedule now none)) :
    (Machine.after (act rules) empty
      (history ++ clocks.map fun now => .schedule now none)).Notified rules := by
  rw [Machine.along_append] at orderly
  rw [Machine.after_append]
  have sound := sound_after (sound_empty rules) history orderly.1
  obtain ⟨left, kept⟩ := sound.waiting_runs clocks orderly.2
  have most : (Machine.after (act rules) empty history).waiting rules ≤
      (Machine.after (act rules) empty history).activities.rows.length := List.length_filter_le _ _
  exact kept.notified (by omega)

/-! ## A second regression -/

/-- After enough runs that complete every activity is notified. -/
def NotifiesAll (rules : AlertRules) (history : List AlertStep) : Prop :=
  ∃ enough, ∀ clocks : List Int, enough ≤ clocks.length →
    (Machine.after (act rules) empty
      (history ++ clocks.map fun now => .schedule now none)).Notified rules

/-- A run with nothing to select leaves the tables. -/
theorem schedule_idle (settled : store.pending = []) (calm : store.criticalIssues = [])
    (now : Int) : store.schedule rules now none = store := by
  have first : store.activityInserts rules = [] := by
    unfold activityInserts batch firstOf
    rw [settled, List.mergeSort_nil]
    rfl
  have second : store.tickInserts rules now = [] := by
    unfold tickInserts
    rw [calm]
    rfl
  unfold schedule executed
  rw [first, second]
  rfl

def anyIssue : AlertRules :=
  IdTable.empty.insert (fun id => ⟨id, .low, none, none, .zalo, "group"⟩) fun _ => rfl

def firstNotice : List AlertStep :=
  [.addIssue .critical .new "api" (some "DB_UNAVAILABLE") 0, .record 0 .created 0]

/-- An issue regresses, is resolved and regresses again, and the scheduler runs after each. -/
def secondRegression : List AlertStep :=
  [.addIssue .low .regressed "api" (some "DB_UNAVAILABLE") 0,
    .record 0 .regressed 0, .schedule 60000 none,
    .setStatus 0 .resolved, .record 0 .resolved 120000, .schedule 180000 none,
    .setStatus 0 .regressed, .record 0 .regressed 3600000]

/-- The creation of a critical issue is notified by the first run. -/
theorem firstNotice_notified :
    (Machine.after (act anyIssue) empty
      (firstNotice ++ [60000].map fun now => .schedule now none)).Notified anyIssue := by
  refine notified_of_orderly anyIssue firstNotice [60000] (by decide +kernel) ?_
  refine ⟨trivial, ⟨by decide +kernel, by decide +kernel⟩, ⟨?_, fun _ => by decide +kernel⟩, trivial⟩
  unfold Unsplit
  decide +kernel

/-- The second regression of an issue is not notified, however often the scheduler runs. -/
theorem secondRegression_missed :
    ¬ NotifiesAll anyIssue secondRegression ∧ ¬ ∀ rules history, NotifiesAll rules history := by
  have missed : ¬ NotifiesAll anyIssue secondRegression := by
    rintro ⟨enough, every⟩
    have settled : (Machine.after (act anyIssue) empty secondRegression).pending = [] := by
      decide +kernel
    have calm : (Machine.after (act anyIssue) empty secondRegression).criticalIssues = [] := by
      decide +kernel
    have idle (clocks : List Int) : Machine.after (act anyIssue)
        (Machine.after (act anyIssue) empty secondRegression)
        (clocks.map fun now => .schedule now none) =
          Machine.after (act anyIssue) empty secondRegression := by
      induction clocks with
      | nil => rfl
      | cons now rest ih =>
        show Machine.after (act anyIssue)
          ((Machine.after (act anyIssue) empty secondRegression).schedule anyIssue now none) _ = _
        rw [schedule_idle settled calm now]
        exact ih
    have notified := every (List.replicate enough 0) (by simp)
    rw [Machine.after_append, idle] at notified
    have unsent : ((Machine.after (act anyIssue) empty secondRegression).deliveriesFor
        ⟨2, 0, .regressed, 3600000⟩ 0).length = 0 := by decide +kernel
    have once := notified ⟨2, 0, .regressed, 3600000⟩ (by decide +kernel)
      ⟨0, .low, .regressed, "api", some "DB_UNAVAILABLE", 0⟩ (by decide +kernel)
      ⟨0, .low, none, none, .zalo, "group"⟩ (by decide +kernel) (by decide +kernel)
    rw [unsent] at once
    cases once
  exact ⟨missed, fun every => missed (every anyIssue secondRegression)⟩

end AlertStore

end NancyMan.Notifier
