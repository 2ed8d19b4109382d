import NancyMan.Processor.Workers
import NancyMan.Lib.Js
import NancyMan.Lib.JsonIntegers
import NancyMan.Lib.Machine

/-!
# Processing an envelope once

A claim can be released under a worker that is still processing, and neither the transaction of
`processEnvelope` nor `markProcessed` checks that the envelope is still claimed, while nothing in
`error_events` keeps a second occurrence out. An envelope is recorded at most once in every run
whose workers process an envelope only while its row is still claimed.
-/
namespace NancyMan.Processor

open ProcessingRow
open Option (map_some)

/-! ## One transaction -/

namespace Database

def occurrenceCount (database : Database) (issueId : Nat) : Nat :=
  ((database.issues.find issueId).map Issue.occurrenceCount).getD 0

theorem find_of_findIssue {database : Database} {fingerprint : String} {issue : Issue}
    (found : database.findIssue fingerprint = some issue) :
    database.issues.find issue.id = some issue :=
  IdTable.find_eq_some.mpr ⟨List.mem_of_find?_eq_some found, rfl⟩

/-- The update of an issue changes the row under its identifier. -/
theorem find_updateIssue (database : Database) {issue : Issue}
    (found : database.issues.find issue.id = some issue) (occurrence : Occurrence)
    (event : NormalizedEvent) (issueId : Nat) :
    (database.updateIssue (countOccurrence issue occurrence event)).issues.find issueId =
      if issueId = issue.id then some (applyUpdate (countOccurrence issue occurrence event) issue)
      else database.issues.find issueId := by
  have updated : (database.updateIssue (countOccurrence issue occurrence event)).issues.find issueId =
      (database.issues.find issueId).map fun row =>
        if row.id == issue.id then applyUpdate (countOccurrence issue occurrence event) row
        else row :=
    IdTable.find_updateWhere database.issues _
      (applyUpdate (countOccurrence issue occurrence event)) (fun _ => rfl) issueId
  rw [updated]
  by_cases same : issueId = issue.id
  · rw [if_pos same, same, found, map_some, if_pos (beq_self_eq_true issue.id)]
  · rw [if_neg same]
    cases other : database.issues.find issueId with
    | none => rfl
    | some row =>
      have named : row.id = issueId := (IdTable.find_eq_some.mp other).2
      rw [map_some, if_neg]
      intro equal
      exact same (named.symm.trans (beq_iff_eq.mp equal))

/-- What follows an inserted occurrence changes the row of its issue and leaves the affected
users. -/
theorem find_recordOccurrence (database : Database) {issue : Issue}
    (found : database.issues.find issue.id = some issue) (occurrence : Occurrence)
    (event : NormalizedEvent) (issueId : Nat) :
    (database.recordOccurrence issue occurrence event).issues.find issueId =
        (if issueId = issue.id then
          some (applyUpdate (countOccurrence issue occurrence event) issue)
        else database.issues.find issueId) ∧
      (database.recordOccurrence issue occurrence event).affectedUsers = database.affectedUsers := by
  unfold recordOccurrence
  dsimp only
  split
  · refine ⟨?_, rfl⟩
    exact find_updateIssue (database.appendActivity issue.id event.occurredAt) found occurrence event
      issueId
  · exact ⟨find_updateIssue database found occurrence event issueId, rfl⟩

/-- What follows an inserted occurrence counts it once. -/
theorem occurrenceCount_recordOccurrence (database : Database) {issue : Issue}
    (found : database.issues.find issue.id = some issue) (occurrence : Occurrence)
    (event : NormalizedEvent) (issueId : Nat) :
    (database.recordOccurrence issue occurrence event).occurrenceCount issueId =
      database.occurrenceCount issueId + if issueId = issue.id then 1 else 0 := by
  unfold occurrenceCount
  rw [(find_recordOccurrence database found occurrence event issueId).1]
  by_cases same : issueId = issue.id
  · rw [if_pos same, if_pos same, same, found]
    rfl
  · rw [if_neg same, if_neg same]
    rfl

theorem recordOccurrence_others (database : Database) (issue : Issue) (occurrence : Occurrence)
    (event : NormalizedEvent) :
    (database.recordOccurrence issue occurrence event).processing = database.processing ∧
      (database.recordOccurrence issue occurrence event).errorEvents = database.errorEvents ∧
      (database.recordOccurrence issue occurrence event).deadLetters = database.deadLetters := by
  unfold recordOccurrence
  dsimp only
  split <;> exact ⟨rfl, rfl, rfl⟩

/-- `insertOccurrence` inserts one occurrence and leaves the queue and the issues. -/
theorem insertOccurrence_ok {database after : Database} {issueId : Nat} {event : NormalizedEvent}
    {occurrence : Occurrence}
    (inserted : database.insertOccurrence issueId event = .ok (after, occurrence)) :
    occurrence.inserted ∧ after.processing = database.processing ∧
      after.issues = database.issues ∧ after.deadLetters = database.deadLetters ∧
      ∃ row, after.errorEvents = database.errorEvents ++ [row] := by
  unfold insertOccurrence at inserted
  cases client : event.ingestClientId with
  | none =>
    rw [client] at inserted
    cases inserted
  | some ingestClientId =>
    rw [client] at inserted
    cases inserted
    refine ⟨rfl, ?_⟩
    unfold insertAffectedUser
    split
    · exact ⟨rfl, rfl, rfl, _, rfl⟩
    · split <;> exact ⟨rfl, rfl, rfl, _, rfl⟩

end Database

open Database

/-- Finding or creating an issue leaves the affected users, and adds at most the created issue. -/
theorem find_lockIssue {database after : Database} {fingerprint : String} {event : NormalizedEvent}
    {issue : Issue} {created : Bool}
    (locked : lockIssue database fingerprint event = .ok (after, issue, created)) :
    (database.findIssue fingerprint = some issue ∨ database.findIssue fingerprint = none ∧
        issue = createdIssue fingerprint event database.issues.nextId) ∧
      after.affectedUsers = database.affectedUsers ∧
      ∀ issueId, after.issues.find issueId =
        if issueId = issue.id then some issue else database.issues.find issueId := by
  unfold lockIssue at locked
  cases known : database.findIssue fingerprint with
  | some found =>
    rw [known] at locked
    cases locked
    refine ⟨.inl rfl, rfl, fun issueId => ?_⟩
    by_cases same : issueId = issue.id
    · rw [if_pos same, same]
      exact find_of_findIssue known
    · rw [if_neg same]
  | none =>
    rw [known] at locked
    dsimp only at locked
    unfold createIssue at locked
    split at locked
    · rw [known] at locked
      cases locked
    · cases locked
      refine ⟨.inr ⟨rfl, rfl⟩, rfl, fun issueId => ?_⟩
      exact IdTable.find_insert database.issues (createdIssue fingerprint event)
        (fun _ => rfl) issueId

/-- The issue of a transaction is in its table, and finding or creating it leaves the queue, the
occurrences and every count. -/
theorem lockIssue_ok {database after : Database} {fingerprint : String} {event : NormalizedEvent}
    {issue : Issue} {created : Bool}
    (locked : lockIssue database fingerprint event = .ok (after, issue, created)) :
    (after.processing = database.processing ∧ after.errorEvents = database.errorEvents ∧
        after.deadLetters = database.deadLetters) ∧ after.issues.find issue.id = some issue ∧
      ∀ issueId, after.occurrenceCount issueId = database.occurrenceCount issueId := by
  obtain ⟨base, -, issues⟩ := find_lockIssue locked
  have others : after.processing = database.processing ∧
      after.errorEvents = database.errorEvents ∧ after.deadLetters = database.deadLetters := by
    unfold lockIssue createIssue at locked
    split at locked
    · cases locked
      exact ⟨rfl, rfl, rfl⟩
    · split at locked
      · split at locked <;> cases locked
        exact ⟨rfl, rfl, rfl⟩
      · cases locked
        exact ⟨rfl, rfl, rfl⟩
  refine ⟨others, (issues issue.id).trans (if_pos rfl), fun issueId => ?_⟩
  unfold occurrenceCount
  rw [issues]
  by_cases same : issueId = issue.id
  · rw [if_pos same, same]
    rcases base with known | ⟨-, rfl⟩
    · rw [find_of_findIssue known]
    · have absent := database.issues.find_fresh (Nat.le_refl database.issues.nextId)
      show 0 = ((database.issues.find database.issues.nextId).map Issue.occurrenceCount).getD 0
      rw [absent]
      rfl
  · rw [if_neg same]

variable {envelopeId : Nat}

/-- A transaction that commits marks its envelope processed, adds one occurrence and adds at most
one to any count. -/
theorem recordEnvelope_ok {database after : Database} {fingerprint : String}
    {event : NormalizedEvent} {databaseNow : Int} {processed : ProcessedEnvelope}
    (committed :
      recordEnvelope database envelopeId fingerprint event databaseNow = .ok (after, processed)) :
    after.processing = markProcessed database.processing envelopeId databaseNow ∧
      (∃ row, after.errorEvents = database.errorEvents ++ [row]) ∧
      after.deadLetters = database.deadLetters ∧ ∀ issueId, after.occurrenceCount issueId ≤ database.occurrenceCount issueId + 1 := by
  obtain ⟨⟨found, issue, created⟩, locked, committed⟩ := Fallible.bind_ok committed
  obtain ⟨⟨filled, occurrence⟩, inserted, committed⟩ := Fallible.bind_ok committed
  obtain ⟨⟨sameQueue, sameEvents, sameLetters⟩, present, sameCounts⟩ := lockIssue_ok locked
  obtain ⟨isInserted, filledQueue, filledIssues, filledLetters, row, filledEvents⟩ :=
    insertOccurrence_ok inserted
  dsimp only at committed
  rw [isInserted] at committed
  cases committed
  obtain ⟨keptQueue, keptEvents, keptLetters⟩ :=
    filled.recordOccurrence_others issue occurrence event
  refine ⟨?_, ⟨row, ?_⟩, keptLetters.trans (filledLetters.trans sameLetters), fun issueId => ?_⟩
  · show markProcessed (filled.recordOccurrence issue occurrence event).processing _ _ = _
    rw [keptQueue, filledQueue, sameQueue]
  · show (filled.recordOccurrence issue occurrence event).errorEvents = _
    rw [keptEvents, filledEvents, sameEvents]
  · show (filled.recordOccurrence issue occurrence event).occurrenceCount issueId ≤ _
    have filledCount : filled.occurrenceCount issueId = database.occurrenceCount issueId := by
      rw [← sameCounts issueId]
      unfold occurrenceCount
      rw [filledIssues]
    rw [filled.occurrenceCount_recordOccurrence (filledIssues ▸ present), filledCount]
    split <;> omega

/-! ## The queue -/

def Done (envelopeId : Nat) (table : ProcessingTable) : Prop :=
  ∃ row, table.find envelopeId = some row ∧ row.state = .processed

def Claimed (envelopeId : Nat) (table : ProcessingTable) : Prop :=
  ∃ row, table.find envelopeId = some row ∧ row.state = .claimed

variable {table : ProcessingTable} (done : Done envelopeId table)

include done

theorem Done.not_claimed : ¬ Claimed envelopeId table := by
  rintro ⟨row, found, claimed⟩
  obtain ⟨other, same, processed⟩ := done
  rw [found] at same
  cases same
  rw [claimed] at processed
  cases processed

/-- Changing rows other than a processed one leaves it processed. -/
theorem Done.updateWhere {test : ProcessingRow → Bool} (change : ProcessingRow → ProcessingRow)
    (same : ∀ row, (change row).envelopeId = row.envelopeId)
    (unselected : ∀ row ∈ table.rows, row.envelopeId = envelopeId → row.state = .processed →
      test row = false) : Done envelopeId (table.updateWhere test change same) := by
  obtain ⟨row, found, processed⟩ := done
  obtain ⟨member, named⟩ := IdTable.find_eq_some.mp found
  refine ⟨row, ?_, processed⟩
  rw [IdTable.find_updateWhere, found, map_some, unselected row member named processed]
  rfl

omit done in
theorem isClaimOf_eq_false {row : ProcessingRow} (processed : row.state = .processed)
    (envelopeId : Nat) : row.isClaimOf envelopeId = false := by
  unfold isClaimOf
  rw [processed]
  exact Bool.and_false _

theorem Done.markRetry (maxAttempts retried : Nat) (now : Int) :
    Done envelopeId (Processor.markRetry maxAttempts table retried now) :=
  done.updateWhere (ProcessingRow.retry maxAttempts now)
    (retry_envelopeId maxAttempts now)
    fun _ _ _ processed => isClaimOf_eq_false processed retried

/-- A processed envelope is not released. -/
theorem Done.releaseExpiredClaims (now : Int) :
    Done envelopeId (Processor.releaseExpiredClaims table now) := by
  have unexpired (row : ProcessingRow) (processed : row.state = .processed) :
      row.isExpired now = false := by
    unfold isExpired
    rw [processed]
    exact Bool.false_and _
  exact done.updateWhere (release now) (fun _ => rfl)
    fun row _ _ processed => unexpired row processed

/-- A processed envelope does not become a dead letter. -/
theorem Done.deadLetterPayload (deadLetters : List DeadLetter) (input : DeadLetterInput) :
    Done envelopeId (Processor.deadLetterPayload table deadLetters input).1 := by
  unfold Processor.deadLetterPayload
  split
  · exact done.updateWhere (ProcessingRow.deadLetter input) (fun _ => rfl)
      fun _ _ _ processed => isClaimOf_eq_false processed input.envelopeId
  · exact done

theorem Done.markProcessed (processedId : Nat) (databaseNow : Int) :
    Done envelopeId (Processor.markProcessed table processedId databaseNow) :=
  done.updateWhere (complete databaseNow) (fun _ => rfl)
    fun _ _ _ processed => isClaimOf_eq_false processed processedId

/-- An accepted envelope is a new one. -/
theorem Done.insertRaw (receivedAt : Int) (ingestClientId : String) (payload : Json) :
    Done envelopeId (Processor.insertRaw table receivedAt ingestClientId payload) := by
  obtain ⟨row, found, processed⟩ := done
  have bound := table.fresh row (IdTable.find_eq_some.mp found).1
  have named := (IdTable.find_eq_some.mp found).2
  have old : envelopeId ≠ table.nextId := by omega
  refine ⟨row, ?_, processed⟩
  have inserted := IdTable.find_insert table (acceptedRow receivedAt ingestClientId payload)
    (fun _ => rfl) envelopeId
  rw [if_neg old, found] at inserted
  exact inserted

omit done in
theorem isReady_of_nextEnvelope {now : Int} {locked : List Nat} {row : ProcessingRow}
    (next : nextEnvelope table now locked = some row) : row ∈ table.rows ∧ row.isReady now := by
  have member := mem_of_firstOf (List.mem_of_mem_head? (Option.mem_def.mpr next))
  obtain ⟨present, selected⟩ := List.mem_filter.mp member
  exact ⟨present, (Bool.and_eq_true_iff.mp selected).1⟩

/-- A processed envelope is not claimed again. -/
theorem Done.claimRow (workerId : String) (now : Int)
    (locked : List Nat) : Done envelopeId (Processor.claimRow table workerId now locked).1 := by
  unfold Processor.claimRow
  cases next : nextEnvelope table now locked with
  | none => exact done
  | some selected =>
    obtain ⟨present, ready⟩ := isReady_of_nextEnvelope next
    have away (row : ProcessingRow) (member : row ∈ table.rows) (processed : row.state = .processed) :
        (row.envelopeId == selected.envelopeId) = false := by
      refine beq_false_of_ne fun same => ?_
      rw [← table.row_unique member present same] at ready
      unfold isReady at ready
      rw [processed] at ready
      cases ready
    exact done.updateWhere (claim workerId now) (fun _ => rfl)
      fun row member _ processed => away row member processed

omit done

/-- A claimed envelope is processed once it is marked. -/
theorem Claimed.markProcessed (claimed : Claimed envelopeId table) (databaseNow : Int) :
    Done envelopeId (Processor.markProcessed table envelopeId databaseNow) := by
  obtain ⟨row, found, isClaimed⟩ := claimed
  have named : row.envelopeId = envelopeId := (IdTable.find_eq_some.mp found).2
  have selected : row.isClaimOf envelopeId := by
    unfold isClaimOf
    rw [named, isClaimed, beq_self_eq_true]
    rfl
  refine ⟨row.complete databaseNow, ?_, rfl⟩
  have updated := IdTable.find_updateWhere table (isClaimOf envelopeId)
    (complete databaseNow) (fun _ => rfl) envelopeId
  rw [found, map_some, if_pos selected] at updated
  exact updated

/-! ## The runs of many workers -/

namespace Workers

variable (rules : EventRules) (limits : AttemptLimits)

/-- The envelope whose transaction a step runs. -/
def processedBy (workers : Workers) : ProcessorStep → Option Nat
  | .processEnvelope workerId _ _ _ => (workers.held workerId).map ClaimedEnvelope.envelopeId
  | _ => none

/-- The occurrences that a step adds for an envelope. -/
def occurrencesAdded (envelopeId : Nat) (workers : Workers) (step : ProcessorStep) : Nat :=
  if workers.processedBy step = some envelopeId then
    (workers.step rules limits step).database.errorEvents.length -
      workers.database.errorEvents.length
  else 0

/-- What a step adds for an envelope to the occurrence count of an issue. -/
def countAdded (envelopeId issueId : Nat) (workers : Workers) (step : ProcessorStep) : Nat :=
  if workers.processedBy step = some envelopeId then
    (workers.step rules limits step).database.occurrenceCount issueId -
      workers.database.occurrenceCount issueId
  else 0

/-- Every envelope adds at most one occurrence in a run and at most one to the count of any
issue. -/
def RecordedOnce (start : Workers) (steps : List ProcessorStep) : Prop :=
  ∀ envelopeId,
    Machine.total (act rules limits) (occurrencesAdded rules limits envelopeId) start steps ≤ 1 ∧
      ∀ issueId,
        Machine.total (act rules limits) (countAdded rules limits envelopeId issueId) start steps ≤ 1

/-- An envelope is processed only while its row is still claimed. -/
def ClaimStands (workers : Workers) (step : ProcessorStep) : Prop :=
  ∀ envelopeId, workers.processedBy step = some envelopeId →
    Claimed envelopeId workers.database.processing

variable {rules limits} (workers : Workers)

/-- The transaction of a worker leaves the tables, or it commits. -/
theorem process_cases (workerId : String) (frames : Option (List String)) (databaseNow : Int)
    (acknowledged : Bool) :
    (workers.process rules workerId frames databaseNow acknowledged).database = workers.database ∨
      ∃ claimed fingerprint event processed, workers.held workerId = some claimed ∧
        recordEnvelope workers.database claimed.envelopeId fingerprint event databaseNow =
          .ok ((workers.process rules workerId frames databaseNow acknowledged).database,
            processed) := by
  unfold process
  cases holds : workers.held workerId with
  | none => exact .inl rfl
  | some claimed =>
    dsimp only
    cases normal : rules.normalizeEvent claimed with
    | none =>
      have undone : processEnvelope rules workers.database claimed frames databaseNow =
          .error .notNormalized := by
        unfold processEnvelope
        rw [normal]
      rw [undone]
      exact .inl rfl
    | some normalized =>
      have transaction : processEnvelope rules workers.database claimed frames databaseNow =
          recordEnvelope workers.database claimed.envelopeId
            (rules.fingerprintEvent (symbolicated normalized frames))
            (symbolicated normalized frames) databaseNow := by
        unfold processEnvelope
        rw [normal]
      rw [transaction]
      cases ended : recordEnvelope workers.database claimed.envelopeId
          (rules.fingerprintEvent (symbolicated normalized frames))
          (symbolicated normalized frames) databaseNow with
      | error _ => exact .inl rfl
      | ok result => exact .inr ⟨claimed, _, _, result.2, rfl, ended⟩

theorem claimNext_others (workerId : String) (now : Int) (locked : List Nat) :
    (workers.claimNext rules workerId now locked).database.errorEvents =
        workers.database.errorEvents ∧
      (workers.claimNext rules workerId now locked).database.issues = workers.database.issues := by
  unfold claimNext
  split <;> exact ⟨rfl, rfl⟩

/-- The end of a failed attempt leaves the issues and the occurrences. -/
theorem recordFailure_others (workerId : String) (now : Int) :
    (workers.recordFailure limits workerId now).database.errorEvents =
        workers.database.errorEvents ∧
      (workers.recordFailure limits workerId now).database.issues = workers.database.issues := by
  unfold recordFailure
  split
  · dsimp only
    split <;> exact ⟨rfl, rfl⟩
  · dsimp only
    split <;> exact ⟨rfl, rfl⟩
  · exact ⟨rfl, rfl⟩

theorem fail_database (workerId : String) :
    (workers.fail workerId).database = workers.database := by
  unfold fail
  split <;> rfl

/-- Only the transaction of an envelope adds occurrences or changes issues. -/
theorem others_step (step : ProcessorStep) (unprocessed : workers.processedBy step = none) :
    (workers.step rules limits step).database.errorEvents = workers.database.errorEvents ∧
      (workers.step rules limits step).database.issues = workers.database.issues := by
  cases step with
  | insertRaw receivedAt ingestClientId payload => exact ⟨rfl, rfl⟩
  | claimNext workerId now locked => exact workers.claimNext_others workerId now locked
  | processEnvelope workerId frames databaseNow acknowledged =>
    have idle : workers.held workerId = none := Option.map_eq_none_iff.mp unprocessed
    have same : workers.process rules workerId frames databaseNow acknowledged = workers := by
      unfold process
      rw [idle]
    show (workers.process rules workerId frames databaseNow acknowledged).database.errorEvents = _ ∧
      (workers.process rules workerId frames databaseNow acknowledged).database.issues = _
    rw [same]
    exact ⟨rfl, rfl⟩
  | fail workerId =>
    show (workers.fail workerId).database.errorEvents = _ ∧
      (workers.fail workerId).database.issues = _
    rw [fail_database]
    exact ⟨rfl, rfl⟩
  | recordFailure workerId now => exact workers.recordFailure_others workerId now
  | releaseExpiredClaims now => exact ⟨rfl, rfl⟩
  | crash workerId => exact ⟨rfl, rfl⟩

/-- A processed envelope stays processed in every step. -/
theorem done_step (step : ProcessorStep) {envelopeId : Nat}
    (done : Done envelopeId workers.database.processing) :
    Done envelopeId (workers.step rules limits step).database.processing := by
  cases step with
  | insertRaw receivedAt ingestClientId payload =>
    exact done.insertRaw receivedAt ingestClientId payload
  | claimNext workerId now locked =>
    show Done envelopeId (workers.claimNext rules workerId now locked).database.processing
    unfold claimNext
    split
    · exact done.claimRow workerId now locked
    · exact done
  | processEnvelope workerId frames databaseNow acknowledged =>
    show Done envelopeId
      (workers.process rules workerId frames databaseNow acknowledged).database.processing
    rcases workers.process_cases workerId frames databaseNow acknowledged with
      same | ⟨claimed, fingerprint, event, processed, -, committed⟩
    · rw [same]
      exact done
    · rw [(recordEnvelope_ok committed).1]
      exact done.markProcessed claimed.envelopeId databaseNow
  | fail workerId =>
    show Done envelopeId (workers.fail workerId).database.processing
    rw [fail_database]
    exact done
  | recordFailure workerId now =>
    show Done envelopeId (workers.recordFailure limits workerId now).database.processing
    unfold recordFailure
    split
    · dsimp only
      split
      · exact done.deadLetterPayload _ _
      · exact done.markRetry _ _ now
    · dsimp only
      split
      · exact done.deadLetterPayload _ _
      · exact done.markRetry _ _ now
    · exact done
  | releaseExpiredClaims now => exact done.releaseExpiredClaims now
  | crash workerId => exact done

theorem not_processedBy {workers : Workers} {step : ProcessorStep} {envelopeId : Nat}
    (stands : workers.ClaimStands step) (done : Done envelopeId workers.database.processing) :
    workers.processedBy step ≠ some envelopeId :=
  fun processed => done.not_claimed (stands envelopeId processed)

/-- The transaction of a claimed envelope leaves the tables, or it adds one occurrence and at most
one to any count and leaves the envelope processed. -/
theorem processed_step {workers : Workers} {step : ProcessorStep} {envelopeId : Nat}
    (stands : workers.ClaimStands step) (processed : workers.processedBy step = some envelopeId) :
    (workers.step rules limits step).database = workers.database ∨
      (∃ row, (workers.step rules limits step).database.errorEvents =
          workers.database.errorEvents ++ [row]) ∧
        (∀ issueId, (workers.step rules limits step).database.occurrenceCount issueId ≤
          workers.database.occurrenceCount issueId + 1) ∧
        Done envelopeId (workers.step rules limits step).database.processing := by
  cases step with
  | processEnvelope workerId frames databaseNow acknowledged =>
    rcases @process_cases rules workers workerId frames databaseNow acknowledged with
      same | ⟨claimed, fingerprint, event, result, holds, committed⟩
    · exact .inl same
    · have named : (workers.held workerId).map ClaimedEnvelope.envelopeId = some envelopeId :=
        processed
      rw [holds, map_some] at named
      cases named
      obtain ⟨queue, events, -, counts⟩ := recordEnvelope_ok committed
      refine .inr ⟨events, counts, ?_⟩
      show Done claimed.envelopeId
        (workers.process rules workerId frames databaseNow acknowledged).database.processing
      rw [queue]
      exact (stands claimed.envelopeId processed).markProcessed databaseNow
  | insertRaw receivedAt ingestClientId payload => cases processed
  | claimNext workerId now locked => cases processed
  | fail workerId => cases processed
  | recordFailure workerId now => cases processed
  | releaseExpiredClaims now => cases processed
  | crash workerId => cases processed

/-- What a step adds for an envelope is at most one and leaves the envelope processed, where the
claims stand; the measure is read from the tables before and after. -/
theorem added_le_one {workers : Workers} {step : ProcessorStep} {envelopeId : Nat}
    (stands : workers.ClaimStands step) (measure : Database → Nat)
    (grows : ∀ before after : Database,
      (∃ row, after.errorEvents = before.errorEvents ++ [row]) →
      (∀ issueId, after.occurrenceCount issueId ≤ before.occurrenceCount issueId + 1) →
      measure after - measure before ≤ 1)
    (processed : workers.processedBy step = some envelopeId) :
    measure (workers.step rules limits step).database - measure workers.database ≤ 1 ∧
      (measure (workers.step rules limits step).database - measure workers.database ≠ 0 →
        Done envelopeId (workers.step rules limits step).database.processing) := by
  rcases @processed_step rules limits _ _ _ stands processed with
    same | ⟨events, counts, done⟩
  · rw [same, Nat.sub_self]
    exact ⟨Nat.zero_le 1, fun nonzero => absurd rfl nonzero⟩
  · exact ⟨grows _ _ events counts, fun _ => done⟩

/-- Whatever is read from the tables and grows by at most one with an occurrence is added at most
once for each envelope, in a run where the claims stand. -/
theorem total_added_le_one (measure : Database → Nat)
    (grows : ∀ before after : Database,
      (∃ row, after.errorEvents = before.errorEvents ++ [row]) →
      (∀ issueId, after.occurrenceCount issueId ≤ before.occurrenceCount issueId + 1) →
      measure after - measure before ≤ 1)
    (envelopeId : Nat) (start : Workers) (steps : List ProcessorStep)
    (stands : Machine.Along (act rules limits) ClaimStands start steps) :
    Machine.total (act rules limits) (fun workers step =>
      if workers.processedBy step = some envelopeId then
        measure (workers.step rules limits step).database - measure workers.database
      else 0) start steps ≤ 1 := by
  have quiet (workers : Workers) (step : ProcessorStep) (stands : workers.ClaimStands step)
      (done : Done envelopeId workers.database.processing) :
      (if workers.processedBy step = some envelopeId then
        measure (workers.step rules limits step).database - measure workers.database
      else 0) = 0 ∧ Done envelopeId (workers.step rules limits step).database.processing :=
    ⟨if_neg (not_processedBy stands done), workers.done_step step done⟩
  have single (workers : Workers) (step : ProcessorStep) (stands : workers.ClaimStands step) :
      (if workers.processedBy step = some envelopeId then
        measure (workers.step rules limits step).database - measure workers.database
      else 0) ≤ 1 ∧
      ((if workers.processedBy step = some envelopeId then
        measure (workers.step rules limits step).database - measure workers.database
      else 0) ≠ 0 → Done envelopeId (workers.step rules limits step).database.processing) := by
    by_cases processed : workers.processedBy step = some envelopeId
    · rw [if_pos processed]
      exact added_le_one stands measure grows processed
    · rw [if_neg processed]
      exact ⟨Nat.zero_le 1, fun nonzero => absurd rfl nonzero⟩
  exact @Machine.total_le_one _ _ _ _ _ _ (fun workers => Done envelopeId workers.database.processing)
    quiet single start steps stands

/-- In every run whose workers process an envelope only while its row is still claimed, each
envelope adds at most one occurrence and at most one to the count of its issue. -/
theorem recordedOnce_of_claims (rules : EventRules) (limits : AttemptLimits) (start : Workers)
    (steps : List ProcessorStep)
    (stands : Machine.Along (act rules limits) ClaimStands start steps) :
    RecordedOnce rules limits start steps := by
  intro envelopeId
  constructor
  · refine total_added_le_one (fun database => database.errorEvents.length) ?_ envelopeId start
      steps stands
    rintro before after ⟨row, appended⟩ -
    rw [appended, List.length_append, List.length_singleton]
    omega
  · intro issueId
    refine total_added_le_one (fun database => database.occurrenceCount issueId) ?_ envelopeId
      start steps stands
    intro before after _ counts
    have bound := counts issueId
    omega

end Workers

/-! ## Two workers on one envelope -/

/-- `String(value)` of a text or of a number that is written as JavaScript writes it. -/
def plainText : Json → String
  | .string text => text
  | .number literal => String.ofList literal.text
  | _ => ""

def recordOf (value : Json) (name : String) : Json := (value.property? name).getD (.object [])

/-- `normalizeEvent`, of an envelope without a route, tags and a stack. -/
def plainEvent (claimed : ClaimedEnvelope) : Option NormalizedEvent :=
  let error := recordOf claimed.envelope "error"
  let context := recordOf claimed.envelope "context"
  some {
    eventId := textProperty plainText claimed.envelope "eventId"
    occurredAt := (isoMilliseconds (textProperty plainText claimed.envelope "capturedAt")).getD
      claimed.receivedAt
    receivedAt := claimed.receivedAt
    errorCode := textProperty plainText error "code"
    exceptionType := textProperty plainText error "name"
    service := textProperty plainText context "service"
    ingestClientId := some claimed.ingestClientId
    route := none
    userRef := claimed.identity.map SignedIdentity.userRef
    tags := []
    stackFrames := []
    stackTrace := none }

/-- The text that `fingerprintEvent` hashes, of an event without frames. -/
def plainFingerprint (event : NormalizedEvent) : String :=
  "\n".intercalate ["v1", event.errorCode, event.service, event.exceptionType, "no-route"]

def plainRules : EventRules := ⟨plainText, plainEvent, plainFingerprint⟩

/-- The payload of an event that a server reported. -/
def reportedPayload : Json :=
  .object [("envelope", .object [
    ("schemaVersion", .number (Numeral.ofInt 1)),
    ("eventId", .string "EVT_01HZY3M4N5P6Q7R8S9T0V1W2X3"),
    ("idempotencyKey", .string "edutrack-api:0001"),
    ("capturedAt", .string "2026-01-01T00:00:00.000Z"),
    ("error", .object [("code", .string "DB_UNAVAILABLE"), ("name", .string "DatabaseError")]),
    ("context", .object [("service", .string "edutrack-api")])])]

/-- A worker processes an envelope before its claim expires. -/
def promptWorker : List ProcessorStep :=
  [.insertRaw 0 "client" reportedPayload, .claimNext "first" 10 [],
    .processEnvelope "first" none 20 true]

/-- A worker is slower than the claim timeout, and its envelope is claimed by another one. -/
def slowWorker : List ProcessorStep :=
  [.insertRaw 0 "client" reportedPayload, .claimNext "first" 10 [], .releaseExpiredClaims 300020,
    .claimNext "second" 300020 [], .processEnvelope "second" none 300030 true,
    .processEnvelope "first" none 300040 true]

/-- A prompt worker records its envelope once. -/
theorem promptWorker_records :
    Workers.RecordedOnce plainRules {} Workers.empty promptWorker := by
  refine Workers.recordedOnce_of_claims plainRules {} Workers.empty promptWorker ?_
  have accepting (workers : Workers) (receivedAt : Int) (ingestClientId : String) (payload : Json) :
      workers.ClaimStands (.insertRaw receivedAt ingestClientId payload) := by
    intro envelopeId processed
    cases processed
  have claiming (workers : Workers) (workerId : String) (now : Int) (locked : List Nat) :
      workers.ClaimStands (.claimNext workerId now locked) := by
    intro envelopeId processed
    cases processed
  refine ⟨accepting _ _ _ _, claiming _ _ _ _, ?_, trivial⟩
  let claimed := Machine.after (Workers.act plainRules {}) Workers.empty (promptWorker.take 2)
  have held : (claimed.held "first").map ClaimedEnvelope.envelopeId = some 0 := by decide +kernel
  have state : (claimed.database.processing.find 0).map ProcessingRow.state = some .claimed := by
    decide +kernel
  intro envelopeId processed
  have same : (claimed.held "first").map ClaimedEnvelope.envelopeId = some envelopeId := processed
  rw [held] at same
  cases same
  exact Option.map_eq_some_iff.mp state

/-- The envelope of a slow worker adds two occurrences and two to the count of its issue. -/
theorem slowWorker_recordsTwice :
    Machine.total (Workers.act plainRules {}) (Workers.occurrencesAdded plainRules {} 0)
        Workers.empty slowWorker = 2 ∧
      Machine.total (Workers.act plainRules {}) (Workers.countAdded plainRules {} 0 0)
        Workers.empty slowWorker = 2 ∧
      ¬ ∀ rules limits start steps, Workers.RecordedOnce rules limits start steps := by
  have occurrences : Machine.total (Workers.act plainRules {})
      (Workers.occurrencesAdded plainRules {} 0) Workers.empty slowWorker = 2 := by
    decide +kernel
  have counts : Machine.total (Workers.act plainRules {}) (Workers.countAdded plainRules {} 0 0)
      Workers.empty slowWorker = 2 := by
    decide +kernel
  refine ⟨occurrences, counts, fun every => ?_⟩
  have once := (every plainRules {} Workers.empty slowWorker 0).1
  omega

end NancyMan.Processor
