import NancyMan.Agent.ApplyCoordinator
import NancyMan.Agent.ApplyJournal
import NancyMan.ControlPlane.ChangeStateMachine
import NancyMan.Lib.Machine

/-!
# What the agent remembers of its changes

The handlers of one agent process, by the turns between which other code may run. What they hold in
memory is built from the journal when the process starts. Every reading of the journal notes the
applications of runs whose rollback has failed as blocked, also of the records that are read before
one fails.
-/
namespace NancyMan.Agent

open ControlPlane (ChangeState)

structure BuildIdentity where
  sourceSha : String
  configDigest : String
  releaseId : String

structure ActiveRelease where
  sourceSha : String
  releaseId : Option String

structure RuntimeEvent where
  eventId : String
  changeId : String
  sequence : Nat
  state : ChangeState
  reasonCode : String
deriving DecidableEq

structure RuntimeChange where
  changeId : String
  appId : String
  state : ChangeState
  sequence : Nat
  changeDigest : Option String
  events : List RuntimeEvent
deriving DecidableEq

/-- The state of a change whose run is in a state. -/
def ApplyState.toChangeState : ApplyState → ChangeState
  | .applying => .applying
  | .snapshotted => .snapshotted
  | .written => .written
  | .actionRunning => .actionRunning
  | .healthChecking => .healthChecking
  | .completed => .completed
  | .rollingBack => .rollingBack
  | .rolledBack => .rolledBack
  | .rollbackFailed => .rollbackFailed

/-- The journal's records and the memory of the agent's process; `up` tells whether its handlers
could be created. -/
structure Runtime where
  journal : List RecoveryRecord
  changes : String → Option RuntimeChange
  buildIdentities : String → Option BuildIdentity
  previousBuildReleases : String → Option ActiveRelease
  blockedApplications : List String
  up : Bool

/-- What a request or an event of a run comes to. -/
inductive Outcome where
  | done
  | accepted
  | cleared
  | found (change : RuntimeChange)
  | notFound
  | invalidState
  | applicationBlocked
  | journalInvalid
  | journalFailed
  | down
deriving DecidableEq

/-- How the file operations of a journal update go: it cannot be read, the new file does not replace
it, it does but is not synced, or all is well. -/
inductive JournalAccess where
  | unreadable
  | lost
  | unsynced
  | done
deriving DecidableEq

variable (records : List RecoveryRecord)

def failedApplications : List String :=
  (records.filter fun record => record.state = .rollbackFailed).map RecoveryRecord.appId

variable (runtime : Runtime)

def Runtime.stateFor (changeId appId : String) : RuntimeChange :=
  (runtime.changes changeId).getD ⟨changeId, appId, .draft, 0, none, []⟩

/-- What is recorded of a change. -/
structure RecordInput where
  eventId : String
  changeId : String
  appId : String
  state : ChangeState
  reasonCode : String
  sequence : Option Nat
  changeDigest : Option String

def Runtime.record (input : RecordInput) : Runtime :=
  let current := runtime.stateFor input.changeId input.appId
  let sequence := max (current.sequence + 1) (input.sequence.getD 0)
  let event : RuntimeEvent :=
    ⟨input.eventId, input.changeId, sequence, input.state, input.reasonCode.toLower⟩
  { runtime with
    changes := Function.update runtime.changes input.changeId (some {
      current with
      state := input.state
      sequence := sequence
      changeDigest := provided input.changeDigest <|> current.changeDigest
      events := current.events ++ [event] }) }

/-- The memory after `journalRecords`, which also tells the records when it does not throw. -/
def Runtime.journalRecords : Runtime × Option (List RecoveryRecord) :=
  let read := readBack runtime.journal
  ({ runtime with
      blockedApplications := failedApplications read.1 ++ runtime.blockedApplications },
    if read.2 then some read.1 else none)

/-- The memory after `writeJournal`. -/
def Runtime.writeJournal (records : List RecoveryRecord) : JournalAccess → Runtime × Outcome
  | .unreadable | .lost => (runtime, .journalFailed)
  | .unsynced => ({ runtime with journal := records }, .journalFailed)
  | .done => ({ runtime with journal := records }, .done)

/-- The states after which a run has written, or may have. -/
def hasWritten (state : ApplyState) : Bool :=
  [ApplyState.written, .actionRunning, .healthChecking, .completed, .rollingBack, .rolledBack,
    .rollbackFailed].contains state

def ActiveRelease.name (release : ActiveRelease) : String := release.releaseId.getD release.sourceSha

/-- The record of an event. -/
def Runtime.nextRecord (current : RuntimeChange) (event : ApplyEvent)
    (existing : Option RecoveryRecord) : RecoveryRecord where
  changeId := event.changeId
  runId := event.runId
  appId := current.appId
  state := event.state
  hasWrites := existing.any RecoveryRecord.hasWrites || hasWritten event.state
  sequence := some event.sequence
  changeDigest := provided current.changeDigest
  buildReleaseId := match runtime.buildIdentities event.runId with
    | some identity => some identity.releaseId
    | none => existing.bind fun record => provided record.buildReleaseId
  previousReleaseId := match runtime.previousBuildReleases event.runId with
    | some release => some release.name
    | none => existing.bind fun record => provided record.previousReleaseId

def replaceRecord (next : RecoveryRecord) : List RecoveryRecord :=
  records.filter (fun record => record.runId ≠ next.runId) ++ [next]

/-- Forget the build of a run that has ended. -/
def Runtime.forgetBuild (runId : String) (state : ApplyState) : Runtime :=
  if isTerminal state then
    { runtime with
      buildIdentities := Function.update runtime.buildIdentities runId none
      previousBuildReleases := Function.update runtime.previousBuildReleases runId none }
  else runtime

/-- `persistEvent`, once its change is known. -/
def Runtime.persistKnown (current : RuntimeChange) (event : ApplyEvent) (eventId : String)
    (access : JournalAccess) : Runtime × Outcome :=
  let recorded := runtime.record ⟨eventId, event.changeId, current.appId, event.state.toChangeState,
    event.reasonCode, some event.sequence, none⟩
  if access = .unreadable then (recorded, .journalFailed)
  else
    let read := recorded.journalRecords
    match read.2 with
    | none => (read.1, .journalInvalid)
    | some records =>
      let existing := records.find? fun record => record.runId = event.runId
      -- What is recorded of the change has kept its digest.
      let next := read.1.nextRecord (read.1.stateFor event.changeId current.appId) event existing
      let written := read.1.writeJournal (replaceRecord records next) access
      if written.2 = .done then (written.1.forgetBuild event.runId event.state, .done) else written

def Runtime.persistEvent (event : ApplyEvent) (eventId : String) (access : JournalAccess) :
    Runtime × Outcome :=
  match runtime.changes event.changeId with
  | none => (runtime, .done)
  | some current => runtime.persistKnown current event eventId access

/-- A record with what is known of its run's build. -/
def Runtime.withBuild (record : RecoveryRecord) : RecoveryRecord :=
  { record with
    buildReleaseId := match runtime.buildIdentities record.runId with
      | some identity => some identity.releaseId
      | none => record.buildReleaseId
    previousReleaseId := match runtime.previousBuildReleases record.runId with
      | some release => some release.name
      | none => record.previousReleaseId }

def Runtime.persistRunMetadata (runId : String) (access : JournalAccess) : Runtime × Outcome :=
  if access = .unreadable then (runtime, .journalFailed)
  else
    let read := runtime.journalRecords
    match read.2 with
    | none => (read.1, .journalInvalid)
    | some records =>
      match records.find? fun record => record.runId = runId with
      | none => (read.1, .done)
      | some existing =>
        read.1.writeJournal (replaceRecord records (read.1.withBuild existing)) access

/-- The memory of a record that is read when the process starts. -/
def Runtime.recall (record : RecoveryRecord) : Runtime :=
  let current := runtime.stateFor record.changeId record.appId
  { runtime with
    changes := Function.update runtime.changes record.changeId (some {
      current with
      state := record.state.toChangeState
      sequence := record.sequence.getD current.sequence
      changeDigest := provided record.changeDigest <|> current.changeDigest }) }

variable (journal : List RecoveryRecord)

/-- The memory of a process that has not read the journal. -/
def Runtime.blank : Runtime where
  journal := journal
  changes := fun _ => none
  buildIdentities := fun _ => none
  previousBuildReleases := fun _ => none
  blockedApplications := []
  up := false

/-- The start of a process, which fails when the journal is not valid. -/
def Runtime.start : Runtime × Outcome :=
  let read := (Runtime.blank journal).journalRecords
  match read.2 with
  | none => (.blank journal, .journalInvalid)
  | some records => ({ records.foldl Runtime.recall read.1 with up := true }, .done)

/-- A validated change in the draft store. -/
structure StagedDraft where
  changeId : String
  appId : String
  changeDigest : String

/-- The `apply` handler, which has read a staged change. -/
def Runtime.apply (request : ApplyInput) (staged : Option StagedDraft) (eventId : String) :
    Runtime × Outcome :=
  match staged with
  | none => (runtime, .invalidState)
  | some staged =>
    if staged.changeDigest ≠ request.changeDigest then (runtime, .invalidState)
    else if runtime.blockedApplications.contains staged.appId then (runtime, .applicationBlocked)
    else
      (runtime.record ⟨eventId, staged.changeId, staged.appId, .applying, "APPLY_STARTED", none,
        some staged.changeDigest⟩, .accepted)

inductive AgentRole where
  | opsViewer
  | opsMaintainer
  | opsOwner
deriving DecidableEq

/-- The `clearApplyBlock` handler. -/
def Runtime.clearApplyBlock (appId : String) (role : AgentRole) : Runtime × Outcome :=
  if role ≠ .opsOwner || !runtime.blockedApplications.contains appId then
    (runtime, .applicationBlocked)
  else
    ({ runtime with
        blockedApplications := runtime.blockedApplications.filter fun other => other ≠ appId },
      .cleared)

/-- The `status` handler. -/
def Runtime.status (changeId : String) (afterEventId : Option String) : Outcome :=
  match runtime.changes changeId with
  | none => .notFound
  | some current =>
    match provided afterEventId with
    | none => .found current
    | some afterEventId =>
      .found { current with
        events :=
          match current.events.findIdx? fun event => event.eventId = afterEventId with
          | none => current.events
          | some index => current.events.drop (index + 1) }

/-- One turn of the agent. -/
inductive AgentTurn where
  /-- The process ends, wherever it is, and another one starts. -/
  | restart
  /-- `validate`, `save` or `cancel` records its state. -/
  | record (input : RecordInput)
  | apply (request : ApplyInput) (staged : Option StagedDraft) (eventId : String)
  /-- A run, or its recovery, persists an event. -/
  | persistEvent (event : ApplyEvent) (eventId : String) (access : JournalAccess)
  /-- A run, or its recovery, notes the build of its action. -/
  | noteBuild (runId : String) (identity : Option BuildIdentity) (previous : Option ActiveRelease)
  | persistRunMetadata (runId : String) (access : JournalAccess)
  /-- The recovery reads the journal. -/
  | readJournal
  | onRollbackFailed (changeId : String)
  /-- The rollback of a recovery has failed. -/
  | recoveryFailed (appId : String)
  | status (changeId : String) (afterEventId : Option String)
  | clearApplyBlock (appId : String) (role : AgentRole)

/-- A turn of a process that is up. -/
def Runtime.dispatch : AgentTurn → Runtime × Outcome
  | .restart => Runtime.start runtime.journal
  | .record input => (runtime.record input, .done)
  | .apply request staged eventId => runtime.apply request staged eventId
  | .persistEvent event eventId access => runtime.persistEvent event eventId access
  | .noteBuild runId identity previous =>
    ({ runtime with
        buildIdentities := Function.update runtime.buildIdentities runId
          (identity <|> runtime.buildIdentities runId)
        previousBuildReleases := Function.update runtime.previousBuildReleases runId
          (previous <|> runtime.previousBuildReleases runId) },
      .done)
  | .persistRunMetadata runId access => runtime.persistRunMetadata runId access
  | .readJournal =>
    let read := runtime.journalRecords
    (read.1, if read.2.isSome then .done else .journalInvalid)
  | .onRollbackFailed changeId =>
    match runtime.changes changeId with
    | none => (runtime, .done)
    | some current =>
      ({ runtime with blockedApplications := current.appId :: runtime.blockedApplications }, .done)
  | .recoveryFailed appId =>
    ({ runtime with blockedApplications := appId :: runtime.blockedApplications }, .done)
  | .status changeId afterEventId => (runtime, runtime.status changeId afterEventId)
  | .clearApplyBlock appId role => runtime.clearApplyBlock appId role

/-- A turn of the agent; while its process is not up, it can only be started again. -/
def Runtime.handle (turn : AgentTurn) : Runtime × Outcome :=
  match turn with
  | .restart => Runtime.start runtime.journal
  | turn => if runtime.up then runtime.dispatch turn else (runtime, .down)

end NancyMan.Agent
