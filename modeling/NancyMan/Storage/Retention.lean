import Mathlib.Data.Prod.Lex
import Mathlib.Data.String.Basic
import Mathlib.Tactic.IntervalCases
import NancyMan.Lib.Tables

/-!
# Retention in batches

`pruneRetentionBatch` does one batch of a retention run: old samples are counted in a stage and
deleted, staged rollups are merged into the daily ones, and old rows of the other tables are deleted.
The run keeps its cutoffs in the database until it is complete. `originalRetention` is the retention
in one transaction. A row has the columns that one of them reads.
-/
namespace NancyMan.Storage

/-- The text of a point in time. JavaScript and SQLite compare and cut such texts alike. -/
structure Timestamp where
  text : String
  present : text ≠ ""
  plain : text.toList.all (fun symbol => 0 < symbol.toNat && symbol.toNat < 128) = true
deriving DecidableEq

theorem Timestamp.text_injective : Function.Injective Timestamp.text := by
  rintro ⟨left, _, _⟩ ⟨right, _, _⟩ same
  cases same
  rfl

instance : LinearOrder Timestamp := LinearOrder.lift' Timestamp.text Timestamp.text_injective

def Timestamp.day (time : Timestamp) : String := String.ofList (time.text.toList.take 10)

def retentionLevelRank (level : String) : Nat :=
  if level = "critical" then 4
  else if level = "warning" then 3
  else if level = "healthy" then 2
  else 1

def retentionLevelFromRank (rank : Nat) : String :=
  if rank = 4 then "critical"
  else if rank = 3 then "warning"
  else if rank = 2 then "healthy"
  else "unknown"

theorem retentionLevelRank_bounds (level : String) :
    1 ≤ retentionLevelRank level ∧ retentionLevelRank level ≤ 4 := by
  unfold retentionLevelRank
  split
  · decide
  · split
    · decide
    · split
      · decide
      · decide

theorem retentionLevelRank_fromRank {rank : Nat} (ranked : 1 ≤ rank ∧ rank ≤ 4) :
    retentionLevelRank (retentionLevelFromRank rank) = rank := by
  obtain ⟨low, high⟩ := ranked
  interval_cases rank <;> rfl

theorem max_ranked {left right : Nat} (first : 1 ≤ left ∧ left ≤ 4) (second : 1 ≤ right ∧ right ≤ 4) :
    1 ≤ max left right ∧ max left right ≤ 4 := by
  omega

/-- A row of `monitor_samples`. -/
structure Sample where
  id : Nat
  monitor : String
  level : String
  observedAt : Timestamp

abbrev RollupKey := Lex (String × String)

/-- A row of `daily_rollups` or `retention_rollup_stage` but for its key. -/
structure Rollup where
  sampleCount : Nat
  lastObservedAt : Timestamp
  lastLevel : String

/-- What a stage row becomes when another one of its key is inserted. -/
instance : Add Rollup where
  add stage excluded :=
    ⟨stage.sampleCount + excluded.sampleCount, max stage.lastObservedAt excluded.lastObservedAt,
      retentionLevelFromRank
        (max (retentionLevelRank stage.lastLevel) (retentionLevelRank excluded.lastLevel))⟩

theorem Rollup.add_def (left right : Rollup) :
    left + right = ⟨left.sampleCount + right.sampleCount,
      max left.lastObservedAt right.lastObservedAt,
      retentionLevelFromRank
        (max (retentionLevelRank left.lastLevel) (retentionLevelRank right.lastLevel))⟩ := rfl

/-- Stage rows add up in any order. -/
instance : AddCommSemigroup Rollup where
  add_comm left right := by
    rw [Rollup.add_def, Rollup.add_def, Nat.add_comm, max_comm left.lastObservedAt,
      max_comm (retentionLevelRank left.lastLevel)]
  add_assoc left middle right := by
    have ranked := fun level => retentionLevelRank_bounds level
    simp only [Rollup.add_def, Nat.add_assoc, max_assoc,
      retentionLevelRank_fromRank (max_ranked (ranked _) (ranked _))]

/-- What a daily rollup becomes when another one of its key is inserted. -/
def mergeRollup (current excluded : Rollup) : Rollup :=
  ⟨current.sampleCount + excluded.sampleCount, max current.lastObservedAt excluded.lastObservedAt,
    excluded.lastLevel⟩

/-- A row of `incidents`. -/
structure Incident where
  rowid : Nat
  id : String
  state : String
  lastSeenAt : Timestamp

/-- A row of `alert_deliveries`; the deletion of its incident sets `incidentId` to null. -/
structure AlertDelivery where
  rowid : Nat
  incidentId : Option String
  state : String
  nextAttemptAt : Timestamp

/-- A row of `audit_events`. -/
structure AuditEvent where
  rowid : Nat
  occurredAt : Timestamp

/-- A row of `login_attempts`. -/
structure LoginAttempt where
  rowid : Nat
  attemptedAt : Timestamp

/-- The row of `retention_state`. -/
structure RetentionState where
  rawCutoff : Option Timestamp
  rollupCutoff : Option Timestamp
  eventCutoff : Option Timestamp
  lastCompletedAt : Option String

/-- The samples, and the monitors that the store has noted of them, once it has. -/
structure SampleTable where
  rows : List Sample
  knownRetentionMonitors : Option (List String)
  covered : ∀ monitors ∈ knownRetentionMonitors, ∀ row ∈ rows, row.monitor ∈ monitors

/-- What retention reads and writes. -/
structure OpsStore where
  samples : SampleTable
  stage : Table RollupKey Rollup
  dailyRollups : Table RollupKey Rollup
  incidents : List Incident
  alertDeliveries : List AlertDelivery
  auditEvents : List AuditEvent
  loginAttempts : List LoginAttempt
  retention : RetentionState

/-- The cutoffs of a run. -/
structure Cutoffs where
  raw : Timestamp
  rollup : Timestamp
  event : Timestamp

inductive RetentionTable where
  | monitorSamples
  | dailyRollups
  | incidents
  | alertDeliveries
  | auditEvents
  | loginAttempts

inductive RetentionBatchResult where
  | notDue
  | batch (table : RetentionTable) (rows : Nat)
  | complete

inductive RetentionFailure where
  | invalidTimestamp
  | incompleteCutoffs

/-- What the runtime does with dates and texts, and the size of a batch. -/
structure RetentionRuntime where
  parseDate : String → Option Int
  toISOString : Int → Timestamp
  localeCompare : Timestamp → Timestamp → Ordering
  batchSize : Nat

/-! ## Samples -/

def addMonitor (monitor : String) (monitors : List String) : List String :=
  if monitors.contains monitor then monitors else monitors ++ [monitor]

theorem mem_addMonitor {monitor other : String} {monitors : List String} :
    other ∈ addMonitor monitor monitors ↔ other ∈ monitors ∨ other = monitor := by
  unfold addMonitor
  split
  · rename_i present
    refine ⟨.inl, ?_⟩
    rintro (before | rfl)
    · exact before
    · exact List.contains_iff_mem.mp present
  · simp

variable (table : SampleTable)

def SampleTable.recordSample (sample : Sample) : SampleTable where
  rows := table.rows ++ [sample]
  knownRetentionMonitors := table.knownRetentionMonitors.map (addMonitor sample.monitor)
  covered := by
    intro monitors known row member
    obtain ⟨before, found, rfl⟩ := Option.map_eq_some_iff.mp known
    rw [mem_addMonitor]
    rcases List.mem_append.mp member with old | added
    · exact .inl (table.covered before found row old)
    · exact .inr (by rw [List.mem_singleton.mp added])

/-- Note the monitors of the samples, unless they are. -/
def SampleTable.learnMonitors : SampleTable where
  rows := table.rows
  knownRetentionMonitors :=
    some (table.knownRetentionMonitors.getD (table.rows.map Sample.monitor).dedup)
  covered := by
    rintro monitors known row member
    cases Option.some.inj known
    cases noted : table.knownRetentionMonitors with
    | none => simpa using ⟨row, member, rfl⟩
    | some before => exact table.covered before noted row member

/-- Keep some of the samples. -/
def SampleTable.keep (kept : Sample → Bool) : SampleTable where
  rows := table.rows.filter kept
  knownRetentionMonitors := table.knownRetentionMonitors
  covered monitors known row member := table.covered monitors known row (List.mem_of_mem_filter member)

variable (cutoffs : Cutoffs)

def isOld (row : Sample) : Bool := row.observedAt < cutoffs.raw

/-- The order of samples by time and id. -/
def Sample.notAfter (left right : Sample) : Bool :=
  left.observedAt < right.observedAt ||
    (left.observedAt = right.observedAt && left.id ≤ right.id)

namespace RetentionRuntime

variable (runtime : RetentionRuntime)

/-- The order of samples by `localeCompare` and id. -/
def notAfter (left right : Sample) : Bool :=
  match runtime.localeCompare left.observedAt right.observedAt with
  | .lt => true
  | .eq => left.id ≤ right.id
  | .gt => false

/-- The old samples that a batch selects: the first of each monitor, and the first of these. -/
def selectRaw (cutoffs : Cutoffs) (table : SampleTable) : List Sample :=
  firstOf runtime.notAfter runtime.batchSize
    ((table.knownRetentionMonitors.getD []).flatMap fun monitor =>
      firstOf Sample.notAfter runtime.batchSize
        (table.rows.filter fun row => row.monitor = monitor && isOld cutoffs row))

end RetentionRuntime

def OpsStore.record (store : OpsStore) (samples : List Sample) : OpsStore :=
  { store with samples := samples.foldl SampleTable.recordSample store.samples }

/-! ## Rollups -/

def Sample.key (row : Sample) : RollupKey := toLex (row.observedAt.day, row.monitor)

/-- A group of samples of one key, with a rank that is one of a level. -/
structure RollupGroup where
  key : RollupKey
  sampleCount : Nat
  lastObservedAt : Timestamp
  rank : Nat
  ranked : 1 ≤ rank ∧ rank ≤ 4

/-- Count a sample in its group, which is the first of its key. -/
def countSample (row : Sample) : List RollupGroup → List RollupGroup
  | [] =>
    [⟨row.key, 1, row.observedAt, retentionLevelRank row.level, retentionLevelRank_bounds row.level⟩]
  | group :: rest =>
    if group.key = row.key then
      { group with
        sampleCount := group.sampleCount + 1
        lastObservedAt :=
          if group.lastObservedAt < row.observedAt then row.observedAt else group.lastObservedAt
        rank := max group.rank (retentionLevelRank row.level)
        ranked := by
          have bounds := retentionLevelRank_bounds row.level
          have ranked := group.ranked
          omega } :: rest
    else group :: countSample row rest

def RollupGroup.rollup (group : RollupGroup) : Rollup :=
  ⟨group.sampleCount, group.lastObservedAt, retentionLevelFromRank group.rank⟩

/-- The groups of samples, of which those before the rollup cutoff are not counted. -/
def groupSamples (rows : List Sample) : List RollupGroup :=
  (rows.filter fun row => cutoffs.rollup ≤ row.observedAt).foldl
    (fun groups row => countSample row groups) []

/-! ## The batches of a run -/

def Incident.isDue (row : Incident) : Bool :=
  row.state = "recovered" && row.lastSeenAt < cutoffs.event

def AlertDelivery.isDue (row : AlertDelivery) : Bool :=
  ["sent", "failed", "delivery_ambiguous"].contains row.state && row.nextAttemptAt < cutoffs.event

def AuditEvent.isDue (row : AuditEvent) : Bool := row.occurredAt < cutoffs.event

def LoginAttempt.isDue (row : LoginAttempt) : Bool :=
  row.attemptedAt < cutoffs.event

def isDueKey (key : RollupKey) : Bool := (ofLex key).1 < cutoffs.rollup.day

def rowNotAfter {ρ : Type} (time : ρ → Timestamp) (rowid : ρ → Nat) (left right : ρ) : Bool :=
  time left < time right || (time left = time right && rowid left ≤ rowid right)

/-- The deletion of incidents sets their deliveries' references to null. -/
def unlinkIncidents (deleted : List String) (deliveries : List AlertDelivery) :
    List AlertDelivery :=
  deliveries.map fun delivery =>
    { delivery with incidentId := delivery.incidentId.filter fun id => !deleted.contains id }

namespace RetentionRuntime

variable (runtime : RetentionRuntime) (cutoffs : Cutoffs) (store : OpsStore)

/-- Count and delete a batch of old samples. -/
def pruneSamples : OpsStore × Nat :=
  let ids := (runtime.selectRaw cutoffs store.samples).map Sample.id
  let current := (removed (isOld cutoffs) Sample.id ids store.samples.rows).mergeSort Sample.notAfter
  ({ store with
      stage := store.stage.addAll RollupGroup.key RollupGroup.rollup (groupSamples cutoffs current)
      samples := store.samples.keep fun row => !isSelected (isOld cutoffs) Sample.id ids row },
    (removed (isOld cutoffs) Sample.id ids store.samples.rows).length)

/-- The first rows of the stage. -/
def stagedRows : List (RollupKey × Rollup) :=
  ((store.stage.keys.sort (· ≤ ·)).take runtime.batchSize).filterMap fun key =>
    (store.stage.lookup key).map fun rollup => (key, rollup)

/-- Merge a batch of the stage into the daily rollups. -/
def mergeStage : OpsStore × Nat :=
  let staged := runtime.stagedRows store
  ({ store with
      dailyRollups := store.dailyRollups.upsertAll mergeRollup staged
      stage := store.stage.eraseAll (staged.map Prod.fst) },
    staged.length)

def oldestRollups : List RollupKey :=
  ((store.dailyRollups.keys.sort (· ≤ ·)).filter (isDueKey cutoffs)).take runtime.batchSize

/-- Delete a batch of old daily rollups. -/
def deleteRollups : OpsStore × Nat :=
  ({ store with dailyRollups := store.dailyRollups.eraseAll (runtime.oldestRollups cutoffs store) },
    (runtime.oldestRollups cutoffs store).length)

/-- Delete a batch of old incidents. -/
def deleteIncidents : OpsStore × Nat :=
  let rowids := oldest (Incident.isDue cutoffs) Incident.rowid
    (rowNotAfter Incident.lastSeenAt Incident.rowid) runtime.batchSize store.incidents
  let deleted := removed (Incident.isDue cutoffs) Incident.rowid rowids store.incidents
  ({ store with
      incidents := remaining (Incident.isDue cutoffs) Incident.rowid rowids store.incidents
      alertDeliveries := unlinkIncidents (deleted.map Incident.id) store.alertDeliveries },
    deleted.length)

/-- Delete a batch of old deliveries. -/
def deleteDeliveries : OpsStore × Nat :=
  let rowids := oldest (AlertDelivery.isDue cutoffs) AlertDelivery.rowid
    (rowNotAfter AlertDelivery.nextAttemptAt AlertDelivery.rowid) runtime.batchSize
    store.alertDeliveries
  ({ store with
      alertDeliveries := remaining (AlertDelivery.isDue cutoffs) AlertDelivery.rowid rowids
        store.alertDeliveries },
    (removed (AlertDelivery.isDue cutoffs) AlertDelivery.rowid rowids store.alertDeliveries).length)

/-- Delete a batch of old audit events. -/
def deleteAuditEvents : OpsStore × Nat :=
  let rowids := oldest (AuditEvent.isDue cutoffs) AuditEvent.rowid
    (rowNotAfter AuditEvent.occurredAt AuditEvent.rowid) runtime.batchSize store.auditEvents
  ({ store with
      auditEvents := remaining (AuditEvent.isDue cutoffs) AuditEvent.rowid rowids
        store.auditEvents },
    (removed (AuditEvent.isDue cutoffs) AuditEvent.rowid rowids store.auditEvents).length)

/-- Delete a batch of old login attempts. -/
def deleteLoginAttempts : OpsStore × Nat :=
  let rowids := oldest (LoginAttempt.isDue cutoffs) LoginAttempt.rowid
    (rowNotAfter LoginAttempt.attemptedAt LoginAttempt.rowid) runtime.batchSize store.loginAttempts
  ({ store with
      loginAttempts := remaining (LoginAttempt.isDue cutoffs) LoginAttempt.rowid rowids
        store.loginAttempts },
    (removed (LoginAttempt.isDue cutoffs) LoginAttempt.rowid rowids store.loginAttempts).length)

/-- What a run does, in the order in which it tries. -/
def phases : List (RetentionTable × (OpsStore → OpsStore × Nat)) :=
  [(.monitorSamples, runtime.pruneSamples cutoffs), (.dailyRollups, runtime.mergeStage),
    (.dailyRollups, runtime.deleteRollups cutoffs), (.incidents, runtime.deleteIncidents cutoffs),
    (.alertDeliveries, runtime.deleteDeliveries cutoffs),
    (.auditEvents, runtime.deleteAuditEvents cutoffs),
    (.loginAttempts, runtime.deleteLoginAttempts cutoffs)]

/-- The first batch that has rows. -/
def firstBatch (store : OpsStore) :
    List (RetentionTable × (OpsStore → OpsStore × Nat)) → Option (OpsStore × RetentionBatchResult)
  | [] => none
  | (table, phase) :: rest =>
    if 0 < (phase store).2 then some ((phase store).1, .batch table (phase store).2)
    else firstBatch store rest

/-- A batch of a run that has its cutoffs; a run without one is complete. -/
def runBatch (nowDate : String) : OpsStore × RetentionBatchResult :=
  let store := { store with samples := store.samples.learnMonitors }
  match firstBatch store (runtime.phases cutoffs) with
  | some done => done
  | none => ({ store with retention := ⟨none, none, none, some nowDate⟩ }, .complete)

/-- The cutoffs of a run that starts at a time. -/
def cutoffsAt (now : Int) : Cutoffs where
  raw := runtime.toISOString (now - 30 * 24 * 60 * 60 * 1000)
  rollup := runtime.toISOString (now - 365 * 24 * 60 * 60 * 1000)
  event := runtime.toISOString (now - 90 * 24 * 60 * 60 * 1000)

/-- `RETENTION_INTERVAL_MS`. -/
def retentionInterval : Int := 24 * 60 * 60 * 1000

/-- Whether the last run was completed long enough ago. -/
def isRunDue (state : RetentionState) (now : Int) : Bool :=
  match state.lastCompletedAt.bind runtime.parseDate with
  | some completed => !(now - completed < retentionInterval)
  | none => true

/-- The state in which a run goes on, or starts when it is due. -/
def startRun (state : RetentionState) (now : Int) : RetentionState :=
  match state.rawCutoff with
  | some _ => state
  | none =>
    if runtime.isRunDue state now then
      { state with
        rawCutoff := some (runtime.cutoffsAt now).raw
        rollupCutoff := some (runtime.cutoffsAt now).rollup
        eventCutoff := some (runtime.cutoffsAt now).event }
    else state

def pruneRetentionBatch (nowDate : String) :
    OpsStore × Except RetentionFailure RetentionBatchResult :=
  match runtime.parseDate nowDate with
  | none => (store, .error .invalidTimestamp)
  | some now =>
    let started := { store with retention := runtime.startRun store.retention now }
    match started.retention.rawCutoff, started.retention.rollupCutoff,
        started.retention.eventCutoff with
    | none, _, _ => (started, .ok .notDue)
    | some raw, some rollup, some event =>
      let done := runtime.runBatch ⟨raw, rollup, event⟩ started nowDate
      (done.1, .ok done.2)
    | _, _, _ => (started, .error .incompleteCutoffs)

end RetentionRuntime

/-! ## The retention in one transaction -/

/-- The rollup of the samples of one key. -/
def aggregate (first : Sample) (rest : List Sample) : Rollup where
  sampleCount := rest.length + 1
  lastObservedAt := rest.foldl (fun last row => max last row.observedAt) first.observedAt
  lastLevel := retentionLevelFromRank (rest.foldl
    (fun rank row => max rank (retentionLevelRank row.level)) (retentionLevelRank first.level))

/-- The groups of a selection by key, and the rollup of each. -/
def groupBy (rows : List Sample) : List (RollupKey × Rollup) :=
  (rows.map Sample.key).dedup.filterMap fun key =>
    match rows.filter fun row => row.key = key with
    | [] => none
    | first :: rest => some (key, aggregate first rest)

/-- The original retention at some cutoffs. -/
def originalRetention (store : OpsStore) : OpsStore :=
  let counted := store.samples.rows.filter fun row =>
    isOld cutoffs row && cutoffs.rollup ≤ row.observedAt
  let rollups := store.dailyRollups.upsertAll mergeRollup (groupBy counted)
  { store with
    samples := store.samples.keep fun row => !isOld cutoffs row
    incidents := store.incidents.filter fun row => !row.isDue cutoffs
    alertDeliveries :=
      (unlinkIncidents ((store.incidents.filter (Incident.isDue cutoffs)).map Incident.id)
        store.alertDeliveries).filter fun row => !row.isDue cutoffs
    auditEvents := store.auditEvents.filter fun row => !row.isDue cutoffs
    loginAttempts := store.loginAttempts.filter fun row => !row.isDue cutoffs
    dailyRollups := rollups.eraseAll ((rollups.keys.sort (· ≤ ·)).filter (isDueKey cutoffs)) }

end NancyMan.Storage
