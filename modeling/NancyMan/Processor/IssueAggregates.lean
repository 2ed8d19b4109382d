import NancyMan.Processor.ProcessedOnce

/-!
# What an issue adds up

An issue counts its occurrences and its users and keeps when it was first and last seen. The counts
are those of the events whatever the order, but `first_seen_at` is the time of the event that was
processed first and `last_seen_at` that of the one processed last, so they are the earliest and the
latest time in exactly the runs that process an earliest event of each issue first and a latest one
last.
-/
namespace NancyMan.Processor

open NormalizedEvent Database

/-! ## What the events of an issue add up to -/

/-- An issue has the values that its events have in any order: it counts them and their users, it is
new, and it was first and last seen at their earliest and latest times. -/
structure Issue.Aggregates (issue : Issue) (events : List NormalizedEvent) : Prop where
  status : issue.status = .new
  occurrences : issue.occurrenceCount = events.length
  users : issue.affectedUserCount = (events.filterMap NormalizedEvent.userRef).toFinset.card
  first : IsLeast {time | ∃ event ∈ events, event.occurredAt = time} issue.firstSeenAt
  last : IsGreatest {time | ∃ event ∈ events, event.occurredAt = time} issue.lastSeenAt

variable {issue : Issue} {events : List NormalizedEvent} {after : Database}
  {entries : List RecordedEvent}

/-- The first of some events is an earliest one, and the last a latest one. -/
structure InOrder (events : List NormalizedEvent) : Prop where
  first : ∀ first, events.head? = some first →
    ∀ event ∈ events, first.occurredAt ≤ event.occurredAt
  last : ∀ last, events.getLast? = some last →
    ∀ event ∈ events, event.occurredAt ≤ last.occurredAt

/-! ## The events of a run -/

/-- An event that has been counted for an issue, with its fingerprint. -/
structure RecordedEvent where
  fingerprint : String
  event : NormalizedEvent

/-- The event that a transaction records. -/
def recordedBy (rules : EventRules) (database : Database) (claimed : ClaimedEnvelope)
    (frames : Option (List String)) (databaseNow : Int) : Option RecordedEvent :=
  match processEnvelope rules database claimed frames databaseNow with
  | .error _ => none
  | .ok _ =>
    (rules.normalizeEvent claimed).map fun normalized =>
      ⟨rules.fingerprintEvent (symbolicated normalized frames), symbolicated normalized frames⟩

namespace Workers

/-- The event that a step records. -/
def recorded (rules : EventRules) (workers : Workers) : ProcessorStep → List RecordedEvent
  | .processEnvelope workerId frames databaseNow _ =>
    ((workers.held workerId).bind fun claimed =>
      recordedBy rules workers.database claimed frames databaseNow).toList
  | _ => []

/-- One step, and the event that it records. -/
def record (rules : EventRules) (limits : AttemptLimits) (workers : Workers) (step : ProcessorStep) :
    Workers × List RecordedEvent :=
  (workers.step rules limits step, workers.recorded rules step)

end Workers

def eventsOf (fingerprint : String) (entries : List RecordedEvent) : List NormalizedEvent :=
  (entries.filter fun entry => entry.fingerprint == fingerprint).map RecordedEvent.event

section Runs

variable (rules : EventRules) (limits : AttemptLimits) (steps : List ProcessorStep)

def leftBy : Database :=
  (Machine.after (Workers.record rules limits) Workers.empty steps).database

def eventsIn (fingerprint : String) : List NormalizedEvent :=
  eventsOf fingerprint (Machine.outputs (Workers.record rules limits) Workers.empty steps)

/-- Every issue ends with the values that its events add up to. -/
def Aggregated : Prop :=
  ∀ issue ∈ (leftBy rules limits steps).issues.rows,
    issue.Aggregates (eventsIn rules limits steps issue.fingerprint)

def RecordedInOrder : Prop :=
  ∀ fingerprint, InOrder (eventsIn rules limits steps fingerprint)

end Runs

/-! ## One transaction -/

namespace Database

def newUser (database : Database) (issueId : Nat) (event : NormalizedEvent) : Bool :=
  event.userRef.any fun user => !database.isAffected issueId user

/-- The insertion into `error_issue_affected_users` tells whether the user is new, and leaves the
issues. -/
theorem insertAffectedUser_answer (database : Database) (issueId : Nat) (event : NormalizedEvent) :
    (database.insertAffectedUser issueId event).2 = database.newUser issueId event ∧
      (database.insertAffectedUser issueId event).1.issues = database.issues := by
  unfold insertAffectedUser newUser
  cases event.userRef with
  | none => exact ⟨rfl, rfl⟩
  | some user =>
    dsimp only [Option.any_some]
    by_cases affected : database.isAffected issueId user
    · rw [if_pos affected, affected]
      exact ⟨rfl, rfl⟩
    · rw [if_neg affected, Bool.not_eq_true _ |>.mp affected]
      exact ⟨rfl, rfl⟩

/-- After the insertion the user of the event is affected by the issue, and the others are as
before. -/
theorem isAffected_insertAffectedUser (database : Database) (issueId : Nat)
    (event : NormalizedEvent) (other : Nat) (user : String) :
    (database.insertAffectedUser issueId event).1.isAffected other user ↔
      database.isAffected other user ∨ other = issueId ∧ event.userRef = some user := by
  unfold insertAffectedUser
  cases reference : event.userRef with
  | none => simp
  | some named =>
    dsimp only
    by_cases affected : database.isAffected issueId named
    · rw [if_pos affected]
      constructor
      · exact .inl
      · rintro (known | ⟨rfl, same⟩)
        · exact known
        · cases same
          exact affected
    · rw [if_neg affected]
      unfold isAffected
      simp only [List.any_append, List.any_cons, List.any_nil, Bool.or_false, Bool.or_eq_true,
        Bool.and_eq_true, beq_iff_eq, Option.some.injEq]
      exact or_congr_right ⟨fun same => ⟨same.1.symm, same.2⟩, fun same => ⟨same.1.symm, same.2⟩⟩

end Database

/-- What a committed transaction does to the issues and the affected users: it counts the event for
the issue of its fingerprint, which it creates where there is none. -/
structure CountedFor (database after : Database) (fingerprint : String) (event : NormalizedEvent)
    (issue : Issue) : Prop where
  base : database.findIssue fingerprint = some issue ∨ database.findIssue fingerprint = none ∧
    issue = Database.createdIssue fingerprint event database.issues.nextId
  issues : ∀ issueId, after.issues.find issueId =
    if issueId = issue.id then
      some (Database.applyUpdate
        (Database.countOccurrence issue ⟨true, database.newUser issue.id event⟩ event) issue)
    else database.issues.find issueId
  users : ∀ issueId user, after.isAffected issueId user = true ↔
    database.isAffected issueId user = true ∨ issueId = issue.id ∧ event.userRef = some user

variable {database : Database} {fingerprint : String} {event : NormalizedEvent}

/-- A transaction that commits counts its event. -/
theorem recordEnvelope_counted {envelopeId : Nat} {databaseNow : Int}
    {processed : ProcessedEnvelope} (committed :
      recordEnvelope database envelopeId fingerprint event databaseNow = .ok (after, processed)) :
    ∃ issue, CountedFor database after fingerprint event issue := by
  obtain ⟨⟨found, issue, created⟩, locked, committed⟩ := Fallible.bind_ok committed
  obtain ⟨⟨filled, occurrence⟩, inserted, committed⟩ := Fallible.bind_ok committed
  obtain ⟨isBase, sameUsers, present⟩ := find_lockIssue locked
  dsimp only at committed
  rw [(insertOccurrence_ok inserted).1] at committed
  cases committed
  unfold insertOccurrence at inserted
  cases client : event.ingestClientId with
  | none =>
    rw [client] at inserted
    cases inserted
  | some ingestClientId =>
    rw [client] at inserted
    let stored := { found with
      errorEvents := found.errorEvents ++ [occurrenceRow issue.id ingestClientId event] }
    have isFilled : filled = (stored.insertAffectedUser issue.id event).1 ∧
        occurrence = ⟨true, (stored.insertAffectedUser issue.id event).2⟩ := by
      cases inserted
      exact ⟨rfl, rfl⟩
    obtain ⟨rfl, rfl⟩ := isFilled
    obtain ⟨isNew, sameIssues⟩ := stored.insertAffectedUser_answer issue.id event
    have asBefore (issueId : Nat) (user : String) :
        stored.isAffected issueId user = database.isAffected issueId user := by
      unfold isAffected
      rw [show stored.affectedUsers = database.affectedUsers from sameUsers]
    have sameNew : stored.newUser issue.id event = database.newUser issue.id event := by
      unfold newUser
      simp only [asBefore]
    have here : (stored.insertAffectedUser issue.id event).1.issues.find issue.id = some issue := by
      rw [sameIssues]
      exact (present issue.id).trans (if_pos rfl)
    refine ⟨issue, isBase, fun issueId => ?_, fun issueId user => ?_⟩
    · refine ((find_recordOccurrence _ here _ event issueId).1).trans ?_
      rw [isNew, sameNew, sameIssues]
      by_cases same : issueId = issue.id
      · rw [if_pos same, if_pos same]
      · rw [if_neg same, if_neg same]
        exact (present issueId).trans (if_neg same)
    · have same := (find_recordOccurrence _ here
        ⟨true, (stored.insertAffectedUser issue.id event).2⟩ event issueId).2
      have kept : isAffected (completeEnvelope (recordOccurrence
          (stored.insertAffectedUser issue.id event).1 issue
          ⟨true, (stored.insertAffectedUser issue.id event).2⟩ event) envelopeId databaseNow)
            issueId user = (stored.insertAffectedUser issue.id event).1.isAffected issueId user :=
        congrArg (fun rows : List AffectedUser => rows.any fun row =>
          row.issueId == issueId && row.userReference == user) same
      rw [kept, isAffected_insertAffectedUser, asBefore]

/-! ## What the tables know of the events -/

/-- The values that an issue has from the events that were counted for it, in their order. -/
structure Issue.Counts (issue : Issue) (events : List NormalizedEvent) : Prop where
  status : issue.status = .new
  occurrences : issue.occurrenceCount = events.length
  users : issue.affectedUserCount = (events.filterMap NormalizedEvent.userRef).toFinset.card
  first : events.head?.map NormalizedEvent.occurredAt = some issue.firstSeenAt
  last : events.getLast?.map NormalizedEvent.occurredAt = some issue.lastSeenAt

/-- The issues and the affected users are those of the recorded events. -/
structure Tracks (database : Database) (entries : List RecordedEvent) : Prop where
  unique : ∀ left right first second, database.issues.find left = some first →
    database.issues.find right = some second → first.fingerprint = second.fingerprint → left = right
  known : ∀ entry ∈ entries, database.findIssue entry.fingerprint ≠ none
  counts : ∀ issueId issue, database.issues.find issueId = some issue →
    issue.Counts (eventsOf issue.fingerprint entries)
  users : ∀ issueId issue, database.issues.find issueId = some issue → ∀ user,
    (database.isAffected issueId user = true ↔
      ∃ event ∈ eventsOf issue.fingerprint entries, event.userRef = some user)
  fresh : ∀ issueId, database.issues.find issueId = none → ∀ user,
    database.isAffected issueId user = false

/-- An issue is found by its fingerprint when there is one. -/
theorem Database.findIssue_eq_none :
    database.findIssue fingerprint = none ↔
      ∀ issueId issue, database.issues.find issueId = some issue →
        issue.fingerprint ≠ fingerprint := by
  unfold findIssue
  rw [List.find?_eq_none]
  constructor
  · intro every issueId issue found same
    exact every issue (IdTable.find_eq_some.mp found).1 (beq_iff_eq.mpr same)
  · intro every issue member same
    exact every issue.id issue (IdTable.find_eq_some.mpr ⟨member, rfl⟩) (beq_iff_eq.mp same)

theorem Database.findIssue_fingerprint (found : database.findIssue fingerprint = some issue) :
    issue.fingerprint = fingerprint := by
  have named := List.find?_some (p := fun issue : Issue => issue.fingerprint == fingerprint) found
  exact beq_iff_eq.mp named

/-- One more event is the last one of its fingerprint and of no other. -/
theorem eventsOf_snoc (fingerprint : String) (entries : List RecordedEvent) (entry : RecordedEvent) :
    eventsOf fingerprint (entries ++ [entry]) = eventsOf fingerprint entries ++
      if entry.fingerprint = fingerprint then [entry.event] else [] := by
  unfold eventsOf
  by_cases same : entry.fingerprint = fingerprint
  · simp [same]
  · simp [same]

theorem Tracks.no_events (tracks : Tracks database entries)
    (missing : database.findIssue fingerprint = none) : eventsOf fingerprint entries = [] := by
  unfold eventsOf
  rw [List.map_eq_nil_iff, List.filter_eq_nil_iff]
  intro entry member same
  exact tracks.known entry member (beq_iff_eq.mp same ▸ missing)

/-- What is known of an issue before an event is counted for it. -/
structure Issue.Base (database : Database) (issue : Issue) (events : List NormalizedEvent)
    (event : NormalizedEvent) : Prop where
  status : issue.status = .new
  occurrences : issue.occurrenceCount = events.length
  users : issue.affectedUserCount = (events.filterMap NormalizedEvent.userRef).toFinset.card
  first : (events ++ [event]).head?.map NormalizedEvent.occurredAt = some issue.firstSeenAt
  affected : ∀ user, database.isAffected issue.id user = true ↔
    ∃ event ∈ events, event.userRef = some user

/-- The issue that an event is counted for has the event's fingerprint, and the values of the events
before. -/
theorem Tracks.base (tracks : Tracks database entries)
    (counted : CountedFor database after fingerprint event issue) :
    issue.fingerprint = fingerprint ∧
      issue.Base database (eventsOf fingerprint entries) event ∧
      ∀ issueId other, database.issues.find issueId = some other →
        (other.fingerprint = fingerprint ↔ issueId = issue.id) := by
  rcases counted.base with found | ⟨missing, rfl⟩
  · have named := findIssue_fingerprint found
    have here := find_of_findIssue found
    have counts := tracks.counts issue.id issue here
    have users := tracks.users issue.id issue here
    rw [named] at counts users
    refine ⟨named, ⟨counts.status, counts.occurrences, counts.users, ?_, users⟩, ?_⟩
    · have first := counts.first
      cases events : eventsOf fingerprint entries with
      | nil =>
        rw [events] at first
        cases first
      | cons earliest rest =>
        rw [events] at first
        exact first
    · intro issueId other present
      constructor
      · intro same
        exact tracks.unique issueId issue.id other issue present here (same.trans named.symm)
      · rintro rfl
        rw [here] at present
        cases present
        exact named
  · have none_yet := tracks.no_events missing
    have absent : database.issues.find database.issues.nextId = none :=
      database.issues.find_fresh (Nat.le_refl _)
    refine ⟨rfl, ⟨rfl, ?_, ?_, ?_, fun user => ?_⟩, ?_⟩
    · rw [none_yet]
      rfl
    · rw [none_yet]
      rfl
    · rw [none_yet]
      rfl
    · rw [none_yet]
      have unaffected : database.isAffected database.issues.nextId user = false :=
        tracks.fresh database.issues.nextId absent user
      exact iff_of_false (by
        rw [show (createdIssue fingerprint event database.issues.nextId).id =
          database.issues.nextId from rfl, unaffected]
        decide) (by simp)
    · intro issueId other present
      refine iff_of_false (findIssue_eq_none.mp missing issueId other present) ?_
      rintro rfl
      exact absurd (absent.symm.trans present) (by simp)

/-- The users of one more event are those before and its own. -/
theorem card_users_snoc (base : issue.Base database events event) :
    (events.filterMap userRef).toFinset.card + (if database.newUser issue.id event then 1 else 0) =
      ((events ++ [event]).filterMap userRef).toFinset.card := by
  rw [List.filterMap_append, List.toFinset_append]
  unfold newUser
  cases reference : event.userRef with
  | none => simp [reference]
  | some user =>
    have member : user ∈ (events.filterMap userRef).toFinset ↔
        database.isAffected issue.id user = true := by
      rw [List.mem_toFinset, List.mem_filterMap, base.affected user]
    have own : ([event].filterMap userRef).toFinset = {user} := by
      simp [reference]
    rw [own, Finset.union_comm, ← Finset.insert_eq, Option.any_some]
    by_cases known : database.isAffected issue.id user
    · rw [Finset.insert_eq_of_mem (member.mpr known), known]
      rfl
    · rw [Finset.card_insert_of_notMem fun here => known (member.mp here),
        Bool.eq_false_of_not_eq_true known]
      rfl

/-- An issue that counts an event has the values of the events with it. -/
theorem Issue.Base.counts (base : issue.Base database events event) :
    (applyUpdate (countOccurrence issue
      ⟨true, database.newUser issue.id event⟩ event) issue).Counts (events ++ [event]) where
  status := by
    show nextStatus issue.status = .new
    rw [base.status]
    rfl
  occurrences := by
    show issue.occurrenceCount + 1 = _
    rw [base.occurrences, List.length_append, List.length_singleton]
  users := by
    show issue.affectedUserCount + (if database.newUser issue.id event then 1 else 0) = _
    rw [base.users]
    exact card_users_snoc base
  first := base.first
  last := by
    rw [List.getLast?_append]
    rfl

/-- A counted event is tracked. -/
theorem Tracks.counted (tracks : Tracks database entries)
    (counted : CountedFor database after fingerprint event issue) :
    Tracks after (entries ++ [⟨fingerprint, event⟩]) := by
  obtain ⟨named, base, only⟩ := tracks.base counted
  let updated := applyUpdate
    (countOccurrence issue ⟨true, database.newUser issue.id event⟩ event) issue
  have updatedName : updated.fingerprint = fingerprint := named
  have here : after.issues.find issue.id = some updated :=
    (counted.issues issue.id).trans (if_pos rfl)
  have elsewhere (issueId : Nat) (other : issueId ≠ issue.id) :
      after.issues.find issueId = database.issues.find issueId :=
    (counted.issues issueId).trans (if_neg other)
  have apart (issueId : Nat) (row : Issue) (other : issueId ≠ issue.id)
      (found : database.issues.find issueId = some row) : fingerprint ≠ row.fingerprint :=
    fun same => other ((only issueId row found).mp same.symm)
  have events_here : eventsOf fingerprint (entries ++ [⟨fingerprint, event⟩]) =
      eventsOf fingerprint entries ++ [event] := by
    rw [eventsOf_snoc, if_pos rfl]
  have events_elsewhere (other : String) (differs : fingerprint ≠ other) :
      eventsOf other (entries ++ [⟨fingerprint, event⟩]) = eventsOf other entries := by
    rw [eventsOf_snoc, if_neg differs, List.append_nil]
  constructor
  · intro left right first second foundLeft foundRight same
    by_cases isLeft : left = issue.id
    · by_cases isRight : right = issue.id
      · exact isLeft.trans isRight.symm
      · rw [isLeft, here] at foundLeft
        cases foundLeft
        rw [elsewhere right isRight] at foundRight
        exact absurd same (updatedName ▸ apart right second isRight foundRight)
    · rw [elsewhere left isLeft] at foundLeft
      by_cases isRight : right = issue.id
      · rw [isRight, here] at foundRight
        cases foundRight
        exact absurd same.symm (updatedName ▸ apart left first isLeft foundLeft)
      · rw [elsewhere right isRight] at foundRight
        exact tracks.unique left right first second foundLeft foundRight same
  · intro entry member missing
    rcases List.mem_append.mp member with old | new
    · refine tracks.known entry old (findIssue_eq_none.mpr fun issueId row found same => ?_)
      by_cases isHere : issueId = issue.id
      · have sameName : row.fingerprint = fingerprint := (only issueId row found).mpr isHere
        exact findIssue_eq_none.mp missing issue.id updated here
          (updatedName.trans (sameName.symm.trans same))
      · exact findIssue_eq_none.mp missing issueId row ((elsewhere issueId isHere).trans found) same
    · rw [List.mem_singleton.mp new] at missing
      exact findIssue_eq_none.mp missing issue.id updated here updatedName
  · intro issueId row found
    by_cases isHere : issueId = issue.id
    · rw [isHere, here] at found
      cases found
      rw [updatedName, events_here]
      exact base.counts
    · rw [elsewhere issueId isHere] at found
      rw [events_elsewhere row.fingerprint (apart issueId row isHere found)]
      exact tracks.counts issueId row found
  · intro issueId row found user
    rw [counted.users]
    by_cases isHere : issueId = issue.id
    · rw [isHere, here] at found
      cases found
      rw [updatedName, events_here, isHere, base.affected user]
      simp [or_and_right, exists_or]
    · rw [elsewhere issueId isHere] at found
      rw [events_elsewhere row.fingerprint (apart issueId row isHere found),
        ← tracks.users issueId row found user]
      simp [isHere]
  · intro issueId absent user
    have other : issueId ≠ issue.id := by
      rintro rfl
      rw [here] at absent
      cases absent
    rw [elsewhere issueId other] at absent
    have unaffected := tracks.fresh issueId absent user
    rw [← Bool.not_eq_true, counted.users, unaffected]
    simp [other]

/-! ## Runs -/

section Runs

variable {rules : EventRules} {limits : AttemptLimits}

/-- The tables before the first envelope track no events. -/
theorem tracks_empty : Tracks Workers.empty.database [] where
  unique := by
    intro left right first second found
    cases found
  known := by
    intro entry member
    cases member
  counts := by
    intro issueId issue found
    cases found
  users := by
    intro issueId issue found
    cases found
  fresh := fun _ _ _ => rfl

/-- Where the issues and the affected users stay, the same events are tracked. -/
theorem Tracks.congr (tracks : Tracks database entries) (issues : after.issues = database.issues)
    (users : after.affectedUsers = database.affectedUsers) : Tracks after entries := by
  have sameFind (fingerprint : String) :
      after.findIssue fingerprint = database.findIssue fingerprint := by
    unfold findIssue
    rw [issues]
  have sameUsers (issueId : Nat) (user : String) :
      after.isAffected issueId user = database.isAffected issueId user := by
    unfold isAffected
    rw [users]
  constructor
  · rw [issues]
    exact tracks.unique
  · intro entry member
    rw [sameFind]
    exact tracks.known entry member
  · rw [issues]
    exact tracks.counts
  · intro issueId issue found user
    rw [issues] at found
    rw [sameUsers]
    exact tracks.users issueId issue found user
  · intro issueId absent user
    rw [issues] at absent
    rw [sameUsers]
    exact tracks.fresh issueId absent user

namespace Workers

/-- A step that does not process an envelope leaves the affected users. -/
theorem affectedUsers_step (workers : Workers) (step : ProcessorStep)
    (unprocessed : workers.processedBy step = none) :
    (workers.step rules limits step).database.affectedUsers = workers.database.affectedUsers := by
  cases step with
  | insertRaw receivedAt ingestClientId payload => rfl
  | claimNext workerId now locked =>
    show (workers.claimNext rules workerId now locked).database.affectedUsers = _
    unfold claimNext
    split <;> rfl
  | processEnvelope workerId frames databaseNow acknowledged =>
    have idle : workers.held workerId = none := Option.map_eq_none_iff.mp unprocessed
    show (workers.process rules workerId frames databaseNow acknowledged).database.affectedUsers = _
    unfold process
    rw [idle]
  | fail workerId =>
    exact congrArg affectedUsers (workers.fail_database workerId)
  | recordFailure workerId now =>
    show (workers.recordFailure limits workerId now).database.affectedUsers = _
    unfold recordFailure
    split
    · dsimp only
      split <;> rfl
    · dsimp only
      split <;> rfl
    · rfl
  | releaseExpiredClaims now => rfl
  | crash workerId => rfl

variable {workers : Workers} {entries : List RecordedEvent}

/-- A step tracks the events that it records. -/
theorem tracks_step (tracks : Tracks workers.database entries) (step : ProcessorStep) :
    Tracks (workers.step rules limits step).database
      (entries ++ workers.recorded rules step) := by
  have quiet (unprocessed : workers.processedBy step = none)
      (silent : workers.recorded rules step = []) :
      Tracks (workers.step rules limits step).database
        (entries ++ workers.recorded rules step) := by
    rw [silent, List.append_nil]
    exact tracks.congr (workers.others_step step unprocessed).2
      (workers.affectedUsers_step step unprocessed)
  cases step with
  | insertRaw receivedAt ingestClientId payload => exact quiet rfl rfl
  | claimNext workerId now locked => exact quiet rfl rfl
  | fail workerId => exact quiet rfl rfl
  | recordFailure workerId now => exact quiet rfl rfl
  | releaseExpiredClaims now => exact quiet rfl rfl
  | crash workerId => exact quiet rfl rfl
  | processEnvelope workerId frames databaseNow acknowledged =>
    cases holds : workers.held workerId with
    | none =>
      refine quiet (Option.map_eq_none_iff.mpr holds) ?_
      show ((workers.held workerId).bind _).toList = []
      rw [holds]
      rfl
    | some claimed =>
      have records : workers.recorded rules
          (.processEnvelope workerId frames databaseNow acknowledged) =
            (recordedBy rules workers.database claimed frames databaseNow).toList := by
        show ((workers.held workerId).bind _).toList = _
        rw [holds]
        rfl
      have stepped : (workers.step rules limits
          (.processEnvelope workerId frames databaseNow acknowledged)) =
            workers.settle workerId claimed acknowledged
              (processEnvelope rules workers.database claimed frames databaseNow) := by
        show workers.process rules workerId frames databaseNow acknowledged = _
        unfold process
        rw [holds]
      rw [records, stepped]
      unfold recordedBy
      cases ended : processEnvelope rules workers.database claimed frames databaseNow with
      | error reason =>
        rw [show (none : Option RecordedEvent).toList = [] from rfl, List.append_nil]
        exact tracks
      | ok result =>
        unfold processEnvelope at ended
        cases normal : rules.normalizeEvent claimed with
        | none =>
          rw [normal] at ended
          cases ended
        | some normalized =>
          rw [normal] at ended
          obtain ⟨issue, counted⟩ := recordEnvelope_counted ended
          exact tracks.counted counted

/-- A run tracks the events that it records. -/
theorem tracks_after (tracks : Tracks workers.database entries) (steps : List ProcessorStep) :
    Tracks (Machine.after (record rules limits) workers steps).database
      (entries ++ Machine.outputs (record rules limits) workers steps) := by
  induction steps generalizing workers entries with
  | nil =>
    rw [show Machine.outputs (record rules limits) workers [] = [] from rfl, List.append_nil]
    exact tracks
  | cons step rest ih =>
    have later := ih (@tracks_step rules limits workers entries tracks step)
    rw [Machine.outputs_cons, ← List.append_assoc]
    exact later

end Workers

/-- An issue with the values of its events in their order has those of the events in any order
exactly when the events are in order. -/
theorem Issue.Counts.aggregates_iff (counts : issue.Counts events) :
    issue.Aggregates events ↔ InOrder events := by
  obtain ⟨earliest, isFirst, firstTime⟩ := Option.map_eq_some_iff.mp counts.first
  obtain ⟨latest, isLast, lastTime⟩ := Option.map_eq_some_iff.mp counts.last
  constructor
  · intro aggregates
    constructor
    · intro first found event member
      cases isFirst.symm.trans found
      rw [firstTime]
      exact aggregates.first.2 ⟨event, member, rfl⟩
    · intro last found event member
      cases isLast.symm.trans found
      rw [lastTime]
      exact aggregates.last.2 ⟨event, member, rfl⟩
  · intro ordered
    refine ⟨counts.status, counts.occurrences, counts.users, ⟨?_, ?_⟩, ⟨?_, ?_⟩⟩
    · exact ⟨earliest, List.mem_of_mem_head? isFirst, firstTime⟩
    · rintro time ⟨event, member, rfl⟩
      rw [← firstTime]
      exact ordered.first earliest isFirst event member
    · exact ⟨latest, List.mem_of_getLast? isLast, lastTime⟩
    · rintro time ⟨event, member, rfl⟩
      rw [← lastTime]
      exact ordered.last latest isLast event member

/-- Every issue of a run ends with what its events add up to in any order exactly when the run
records an earliest event of each fingerprint first and a latest one last. -/
theorem aggregated_iff (rules : EventRules) (limits : AttemptLimits) (steps : List ProcessorStep) :
    Aggregated rules limits steps ↔ RecordedInOrder rules limits steps := by
  have tracks : Tracks (leftBy rules limits steps)
      (Machine.outputs (Workers.record rules limits) Workers.empty steps) :=
    Workers.tracks_after tracks_empty steps
  constructor
  · intro aggregated fingerprint
    cases found : (leftBy rules limits steps).findIssue fingerprint with
    | none =>
      have silent : eventsIn rules limits steps fingerprint = [] := tracks.no_events found
      rw [silent]
      exact ⟨fun _ missing => (by cases missing), fun _ missing => (by cases missing)⟩
    | some issue =>
      have here := find_of_findIssue found
      have counts := tracks.counts issue.id issue here
      have aggregates := aggregated issue (IdTable.find_eq_some.mp here).1
      rw [← findIssue_fingerprint found]
      exact counts.aggregates_iff.mp aggregates
  · intro ordered issue member
    have here : (leftBy rules limits steps).issues.find issue.id = some issue :=
      IdTable.find_eq_some.mpr ⟨member, rfl⟩
    exact (tracks.counts issue.id issue here).aggregates_iff.mpr (ordered issue.fingerprint)

end Runs

/-! ## Two events out of order -/

/-- The payload of an event that a server captured at a time. -/
def capturedPayload (eventId capturedAt : String) : Json :=
  .object [("envelope", .object [
    ("schemaVersion", .number (Numeral.ofInt 1)),
    ("eventId", .string eventId),
    ("idempotencyKey", .string eventId),
    ("capturedAt", .string capturedAt),
    ("error", .object [("code", .string "DB_UNAVAILABLE"), ("name", .string "DatabaseError")]),
    ("context", .object [("service", .string "edutrack-api")])])]

/-- An event is processed, and then one arrives that was captured ten seconds earlier. -/
def laterFirst : List ProcessorStep :=
  [.insertRaw 0 "client" (capturedPayload "EVT_01HZY3M4N5P6Q7R8S9T0V1W2X3"
      "2026-01-01T00:00:10.000Z"),
    .claimNext "worker" 10 [], .processEnvelope "worker" none 20 true,
    .insertRaw 30 "client" (capturedPayload "EVT_01HZY3M4N5P6Q7R8S9T0V1W2X4"
      "2026-01-01T00:00:00.000Z"),
    .claimNext "worker" 40 [], .processEnvelope "worker" none 50 true]

/-- The issue of the two events was last seen before one of them, and first seen after the other. -/
theorem laterFirst_misdated :
    ((leftBy plainRules {} laterFirst).issues.rows.all fun issue =>
        ((eventsIn plainRules {} laterFirst issue.fingerprint).any fun event =>
          decide (issue.lastSeenAt < event.occurredAt)) &&
        ((eventsIn plainRules {} laterFirst issue.fingerprint).any fun event =>
          decide (event.occurredAt < issue.firstSeenAt))) = true ∧
      ¬ ∀ rules limits steps, Aggregated rules limits steps := by
  have misdated : ((leftBy plainRules {} laterFirst).issues.rows.all fun issue =>
      ((eventsIn plainRules {} laterFirst issue.fingerprint).any fun event =>
        decide (issue.lastSeenAt < event.occurredAt)) &&
      ((eventsIn plainRules {} laterFirst issue.fingerprint).any fun event =>
        decide (event.occurredAt < issue.firstSeenAt))) = true := by
    decide +kernel
  have filled : ((leftBy plainRules {} laterFirst).issues.find 0).isSome := by
    decide +kernel
  refine ⟨misdated, fun every => ?_⟩
  obtain ⟨issue, found⟩ := Option.isSome_iff_exists.mp filled
  have member := (IdTable.find_eq_some.mp found).1
  have both := List.all_eq_true.mp misdated issue member
  obtain ⟨late, -⟩ := Bool.and_eq_true_iff.mp both
  obtain ⟨event, among, later⟩ := List.any_eq_true.mp late
  have greatest := (every plainRules {} laterFirst issue member).last.2 ⟨event, among, rfl⟩
  have earlier := of_decide_eq_true later
  omega

end NancyMan.Processor
