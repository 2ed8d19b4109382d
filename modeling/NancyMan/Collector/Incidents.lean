import Mathlib.Data.List.MinMax
import Mathlib.Data.String.Basic
import NancyMan.Collector.Histories

/-!
# Incidents

The incident rows of the collector's store and the step that keeps them: `upsertIncident` and
`reconcileIncidents` of the store, and `evaluateAndCollect` of a collector cycle. An
identifier drawn by `randomUUID` is a number no row has yet; the store carries that its
identifiers are distinct.
-/
namespace NancyMan.Collector

inductive IncidentState where
  | open
  | acknowledged
  | recovered
deriving DecidableEq, Repr

/-- `Incident`: one row of the store. -/
structure Incident where
  id : Nat
  dedupeKey : String
  monitor : MonitorName
  level : AlertLevel
  state : IncidentState
  occurrenceCount : Nat
  openedAt : String
  lastSeenAt : String
  recoveredAt : Option String
  acknowledgedAt : Option String
  acknowledgedBy : Option String
  note : Option String
  safeSummary : String
deriving DecidableEq, Repr

/-- What `upsertIncident` is given. -/
structure IncidentInput where
  dedupeKey : String
  monitor : MonitorName
  level : AlertLevel
  state : IncidentState
  recoveredAt : Option String
  acknowledgedAt : Option String
  acknowledgedBy : Option String
  note : Option String
  safeSummary : String
  now : String

/-- The table of incidents, whose rows have distinct identifiers below the next one. -/
structure IncidentStore where
  rows : List Incident
  nextId : Nat
  /-- The next identifier is new. -/
  fresh : ∀ row ∈ rows, row.id < nextId
  /-- No two rows share an identifier. -/
  distinct : (rows.map Incident.id).Nodup

namespace IncidentStore

def empty : IncidentStore := ⟨[], 0, by simp, by simp⟩

variable (store : IncidentStore)

/-- Change rows in place, each under its own identifier. -/
def update (change : Incident → Incident) (same : ∀ row, (change row).id = row.id) :
    IncidentStore where
  rows := store.rows.map change
  nextId := store.nextId
  fresh := by
    intro row member
    obtain ⟨old, oldMember, rfl⟩ := List.mem_map.mp member
    rw [same]
    exact store.fresh old oldMember
  distinct := by
    rw [List.map_map, show Incident.id ∘ change = Incident.id from funext same]
    exact store.distinct

/-- Add a row under the next identifier. -/
def insert (row : Nat → Incident) (named : ∀ id, (row id).id = id) : IncidentStore where
  rows := store.rows ++ [row store.nextId]
  nextId := store.nextId + 1
  fresh := by
    intro found member
    rcases List.mem_append.mp member with old | new
    · exact Nat.lt_succ_of_lt (store.fresh found old)
    · rw [List.mem_singleton.mp new, named]
      exact Nat.lt_succ_self _
  distinct := by
    rw [List.map_append, List.nodup_append]
    refine ⟨store.distinct, by simp, ?_⟩
    intro id old other new same
    obtain ⟨row, member, rfl⟩ := List.mem_map.mp old
    have bound := store.fresh row member
    rw [List.map_singleton, List.mem_singleton, named] at new
    omega

def getIncident (id : Nat) : Option Incident :=
  store.rows.find? fun row => row.id = id

/-- The row `upsertIncident` continues: the one opened last among those of the key that have
not recovered. -/
def activeRow (dedupeKey : String) : Option Incident :=
  (store.rows.filter fun row => row.dedupeKey = dedupeKey ∧ row.state ≠ .recovered).argmax
    Incident.openedAt

variable (monitor : MonitorName)

def active : List Incident :=
  store.rows.filter fun row => row.monitor = monitor ∧ row.state ≠ .recovered

/-- The summary `upsertIncident` leaves on a row it continues. -/
def updatedSummary (state : IncidentState) (old new : String) : String :=
  if state = .recovered ∧ old ≠ "" then old else if new ≠ "" then new else old

variable (input : IncidentInput)

/-- A row as `upsertIncident` leaves it when it continues one. -/
def continued (summary : String) (row : Incident) : Incident :=
  { row with
    level := input.level
    state := input.state
    occurrenceCount := row.occurrenceCount + 1
    lastSeenAt := input.now
    recoveredAt :=
      if input.state = .recovered then some (input.recoveredAt.getD input.now) else none
    safeSummary := updatedSummary input.state row.safeSummary summary }

/-- A row as `upsertIncident` inserts it. -/
def inserted (summary : String) (note : Option String) (id : Nat) : Incident where
  id := id
  dedupeKey := input.dedupeKey
  monitor := input.monitor
  level := input.level
  state := input.state
  occurrenceCount := 1
  openedAt := input.now
  lastSeenAt := input.now
  recoveredAt := input.recoveredAt
  acknowledgedAt := input.acknowledgedAt
  acknowledgedBy := input.acknowledgedBy
  note := note
  safeSummary := summary

theorem inserted_id (summary : String) (note : Option String) (id : Nat) :
    (inserted input summary note id).id = id := rfl

def continueRow (id : Nat) (change : Incident → Incident) (row : Incident) : Incident :=
  if row.id = id then change row else row

theorem continueRow_id (id : Nat) (input : IncidentInput) (summary : String) (row : Incident) :
    (continueRow id (continued input summary) row).id = row.id := by
  unfold continueRow
  split <;> rfl

/-- `upsertIncident`: continue the active row of the key, else insert one; the row it leaves. -/
def upsertIncident (ν : Type) [JsRuntime ν] (store : IncidentStore) (input : IncidentInput) :
    IncidentStore × Incident :=
  let summary := JsRuntime.slice ν input.safeSummary 500
  match store.activeRow input.dedupeKey with
  | some row =>
    (store.update (continueRow row.id (continued input summary)) (continueRow_id _ _ _),
      continued input summary row)
  | none =>
    let note := input.note.map fun note => JsRuntime.slice ν note 500
    (store.insert (inserted input summary note) (inserted_id _ _ _),
      inserted input summary note store.nextId)

/-- A row as `reconcileIncidents` leaves it. -/
def reconciled (activeDedupeKey : Option String) (now : String) (row : Incident) : Incident :=
  if row.monitor = monitor ∧ row.state ≠ .recovered ∧ activeDedupeKey ≠ some row.dedupeKey then
    { row with state := .recovered, recoveredAt := some now, lastSeenAt := now }
  else row

theorem reconciled_id (key : Option String) (now : String) (row : Incident) :
    (reconciled monitor key now row).id = row.id := by
  unfold reconciled
  split <;> rfl

/-- `reconcileIncidents`: every row of the monitor recovers but those of the active key. -/
def reconcileIncidents (activeDedupeKey : Option String) (now : String) : IncidentStore :=
  store.update (reconciled monitor activeDedupeKey now) (reconciled_id _ _ _)

end IncidentStore

/-- `CollectorTransition`: what a step announces. -/
structure CollectorTransition (ν : Type) where
  incidentId : Nat
  monitor : MonitorName
  sample : MonitorSample ν
  level : AlertLevel
  transition : Transition
  dedupeKey : String
  safeSummary : String
  occurrenceCount : Nat

/-- The state a collector keeps between samples. -/
structure CollectorState (ν : Type) where
  histories : Histories ν
  store : IncidentStore

/-- What a step of the collector answers. -/
structure Collected (ν : Type) where
  evaluation : Evaluation
  transition : Option (CollectorTransition ν)

variable {ν : Type}

def CollectorState.empty : CollectorState ν := ⟨Histories.empty, IncidentStore.empty⟩

variable (monitor : MonitorName)

def recoveryBaselineKey : String :=
  monitor.text ++ ":" ++ "awaiting_recovery_baseline"

/-- The key remembered of a sample, when it is a text. -/
def rememberedKey (item : MonitorSample ν) : Option String :=
  match item.details.read "dedupeKey" with
  | .string key => some key
  | _ => none

/-- `dedupeBeforeRecoveryBaseline`: the latest remembered key that is not the baseline key. The
source reads `history.slice(0, -1)` after `remember` has pushed the new sample to the same
array, or reads an array it made itself when none was remembered; both are the samples
remembered before. -/
def dedupeBeforeRecoveryBaseline (history : List (MonitorSample ν)) : Option String :=
  (history.reverse.filterMap rememberedKey).find? fun key => key ≠ recoveryBaselineKey monitor

/-- `previousDedupe`: the key of the incident the previous sample belongs to. -/
def previousDedupe (history : List (MonitorSample ν)) (evaluation : Evaluation) : String :=
  match history.getLast?.bind rememberedKey with
  | some priorDedupe =>
    if priorDedupe = recoveryBaselineKey monitor then
      (dedupeBeforeRecoveryBaseline monitor history).getD evaluation.dedupeKey
    else priorDedupe
  | none => evaluation.dedupeKey

variable (history : List (MonitorSample ν))

/-- `previousEffectiveLevel === 'warning'`. -/
def previousWasWarning : Bool :=
  match history.getLast? with
  | some previous =>
    match (previous.details.read "effectiveLevel").orElse (.string previous.level.text) with
    | .string text => text = "warning"
    | _ => false
  | none => false

variable (sample : MonitorSample ν)

/-- The key of the incident an alert belongs to. -/
def alertKey (evaluation : Evaluation) : String :=
  if evaluation.dedupeKey = recoveryBaselineKey sample.monitor then
    previousDedupe sample.monitor history evaluation
  else evaluation.dedupeKey

variable [JsRuntime ν]

def activeSummary (sample : MonitorSample ν) (evaluation : Evaluation) : String :=
  if sample.monitor = .errors ∧ (sample.details.read "safeExcerpt").truthy then
    JsRuntime.slice ν (JsRuntime.toText (sample.details.read "safeExcerpt")) 500
  else
    match sample.errorCode with
    | some code =>
      if code ≠ "" then JsRuntime.slice ν (sample.monitor.text ++ ": " ++ code) 500
      else evaluation.safeSummary
    | none => evaluation.safeSummary

/-- What `evaluateAndCollect` upserts for an alert. -/
def alertInput (sample : MonitorSample ν) (evaluation : Evaluation) (level : AlertLevel) :
    IncidentInput where
  dedupeKey :=
    if evaluation.transition = some .recovered then
      previousDedupe sample.monitor history evaluation
    else alertKey history sample evaluation
  monitor := sample.monitor
  level := level
  state := .open
  recoveredAt := none
  acknowledgedAt := none
  acknowledgedBy := none
  note := none
  safeSummary := activeSummary sample evaluation
  now := sample.observedAt

/-- What `evaluateAndCollect` upserts for a recovery. -/
def recoveryInput (evaluation : Evaluation) : IncidentInput where
  dedupeKey := previousDedupe sample.monitor history evaluation
  monitor := sample.monitor
  level := if previousWasWarning history then .warning else .critical
  state := .recovered
  recoveredAt := some sample.observedAt
  acknowledgedAt := none
  acknowledgedBy := none
  note := none
  safeSummary := evaluation.safeSummary
  now := sample.observedAt

/-- What a step announces of the incident it leaves. -/
def announced (evaluation : Evaluation) (incident : Incident) (level : AlertLevel)
    (transition : Transition) : CollectorTransition ν where
  incidentId := incident.id
  monitor := sample.monitor
  sample := { annotated sample evaluation with level := evaluation.level }
  level := level
  transition := transition
  dedupeKey := incident.dedupeKey
  safeSummary := incident.safeSummary
  occurrenceCount := incident.occurrenceCount

/-- `shouldReconcile` with the active key, which is the alert's when there is one. -/
def reconciledStore (store : IncidentStore) (history : List (MonitorSample ν))
    (sample : MonitorSample ν) (evaluation : Evaluation) : IncidentStore :=
  if evaluation.level.isAlert then
    store.reconcileIncidents sample.monitor (some (alertKey history sample evaluation))
      sample.observedAt
  else if evaluation.level = .healthy ∧ evaluation.transition ≠ some .recovered then
    store.reconcileIncidents sample.monitor none sample.observedAt
  else store

def evaluateAndCollect (state : CollectorState ν) (sample : MonitorSample ν) :
    CollectorState ν × Collected ν :=
  let history := state.histories sample.monitor
  let (histories, evaluation) := remember state.histories sample
  let store := reconciledStore state.store history sample evaluation
  match evaluation.level.alert? with
  | some level =>
    let (store, incident) :=
      store.upsertIncident ν (alertInput history sample evaluation level)
    (⟨histories, store⟩,
      ⟨evaluation, evaluation.transition.map (announced sample evaluation incident level)⟩)
  | none =>
    if evaluation.transition = some .recovered then
      let (store, incident) := store.upsertIncident ν (recoveryInput history sample evaluation)
      (⟨histories, store⟩,
        ⟨evaluation, some (announced sample evaluation incident incident.level .recovered)⟩)
    else (⟨histories, store⟩, ⟨evaluation, none⟩)

end NancyMan.Collector
