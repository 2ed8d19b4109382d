import NancyMan.Collector.IncidentLifecycle

/-!
# Acknowledged incidents

An operator acknowledges an incident with `acknowledgeIncident` of the store. The collector goes
on upserting the same row at every alert-level sample, in the state `open`, so what the
operator stored lasts only until the next such sample: `acknowledgement_iff` says exactly which
samples of a run take it back.
-/
namespace NancyMan.Collector

open Option (map_eq_some_iff map_some mem_def)

/-- What `acknowledgeIncident` is given. -/
structure AcknowledgeInput where
  now : String
  accountId : String
  note : String

namespace IncidentStore

/-! ## The row under an identifier -/

def stateOf (store : IncidentStore) (id : Nat) : Option IncidentState :=
  (store.getIncident id).map Incident.state

variable {store : IncidentStore} {id : Nat} {row : Incident}

theorem getIncident_some (found : store.getIncident id = some row) :
    row ∈ store.rows ∧ row.id = id := by
  have named := List.find?_some (p := fun other : Incident => decide (other.id = id)) found
  exact ⟨List.mem_of_find?_eq_some found, by simpa using named⟩

/-- A row of the store is found under its own identifier. -/
theorem getIncident_of_mem (store : IncidentStore) (member : row ∈ store.rows) :
    store.getIncident row.id = some row := by
  have present : (store.getIncident row.id).isSome := by
    unfold getIncident
    rw [List.find?_isSome]
    exact ⟨row, member, by simp⟩
  obtain ⟨other, found⟩ := Option.isSome_iff_exists.mp present
  have known := getIncident_some found
  rw [found, store.row_unique known.1 member known.2]

/-- Changing rows in place changes the row found under an identifier. -/
theorem getIncident_update (store : IncidentStore) (change : Incident → Incident)
    (same : ∀ row, (change row).id = row.id) (id : Nat) :
    (store.update change same).getIncident id = (store.getIncident id).map change := by
  unfold getIncident update
  rw [List.find?_map]
  congr 2
  funext row
  rw [Function.comp, same]

/-- Inserting a row leaves the rows found before as they were. -/
theorem getIncident_insert (row : Nat → Incident) (named : ∀ id, (row id).id = id) {old : Incident}
    (found : store.getIncident id = some old) :
    (store.insert row named).getIncident id = some old := by
  unfold getIncident insert
  rw [List.find?_append]
  have first : store.rows.find? (fun row => decide (row.id = id)) = some old := found
  rw [first]
  rfl

/-! ## Acknowledging -/

variable (ν : Type) [JsRuntime ν]

/-- A row as `acknowledgeIncident` leaves it. -/
def acknowledged (input : AcknowledgeInput) (row : Incident) : Incident :=
  { row with
    state := .acknowledged
    acknowledgedAt := some input.now
    acknowledgedBy := some input.accountId
    note := some (JsRuntime.slice ν input.note 500) }

theorem acknowledged_id (id : Nat) (input : AcknowledgeInput) (row : Incident) :
    (continueRow id (acknowledged ν input) row).id = row.id := by
  unfold continueRow
  split <;> rfl

/-- `acknowledgeIncident`: the store and the row it leaves, or what it throws. -/
def acknowledgeIncident (store : IncidentStore) (id : Nat) (input : AcknowledgeInput) :
    Except String (IncidentStore × Incident) :=
  match store.getIncident id with
  | none => .error "Incident not found"
  | some incident =>
    if incident.state = .recovered then .error "Recovered incident cannot be acknowledged"
    else
      .ok (store.update (continueRow id (acknowledged ν input)) (acknowledged_id ν _ _),
        acknowledged ν input incident)

variable {ν}

/-- Acknowledging leaves an acknowledged incident acknowledged. -/
theorem stateOf_acknowledge {next : IncidentStore} {input : AcknowledgeInput}
    (accepted : store.acknowledgeIncident ν id input = .ok (next, row)) {other : Nat}
    (held : store.stateOf other = some .acknowledged) :
    next.stateOf other = some .acknowledged := by
  obtain ⟨found, isFound, isHeld⟩ := map_eq_some_iff.mp held
  unfold acknowledgeIncident at accepted
  split at accepted
  · cases accepted
  · split at accepted
    · cases accepted
    · cases accepted
      unfold stateOf
      rw [getIncident_update, isFound]
      unfold continueRow
      by_cases same : found.id = id
      · simp [same, acknowledged]
      · simp [same, isHeld]

/-! ## What a step of the collector does to a stored state -/

/-- Reconciling leaves the row of the active key to be continued. -/
theorem activeRow_reconcile (store : IncidentStore) (monitor : MonitorName) (key now : String) :
    (store.reconcileIncidents monitor (some key) now).activeRow key = store.activeRow key := by
  have untouched : ∀ row : Incident, row.dedupeKey = key →
      reconciled monitor (some key) now row = row := fun row named =>
    if_neg fun applies => applies.2.2 (by rw [named])
  have keys : ∀ row : Incident, (reconciled monitor (some key) now row).dedupeKey =
      row.dedupeKey := by
    intro row
    unfold reconciled
    split <;> rfl
  have same : (store.rows.map (reconciled monitor (some key) now)).filter
      (fun row => row.dedupeKey = key ∧ row.state ≠ .recovered) =
        store.rows.filter fun row => row.dedupeKey = key ∧ row.state ≠ .recovered := by
    rw [List.filter_map]
    have agree : ∀ row ∈ store.rows,
        ((fun row : Incident => decide (row.dedupeKey = key ∧ row.state ≠ .recovered)) ∘
          reconciled monitor (some key) now) row =
        decide (row.dedupeKey = key ∧ row.state ≠ .recovered) := by
      intro row _
      rw [Function.comp, keys]
      by_cases named : row.dedupeKey = key
      · rw [untouched row named]
      · simp [named]
    rw [List.filter_congr agree]
    refine (List.map_congr_left fun row member => ?_).trans (List.map_id _)
    have kept := (List.mem_filter.mp member).2
    simp only [decide_eq_true_eq] at kept
    exact untouched row kept.1
  unfold activeRow reconcileIncidents update
  rw [same]

/-- Reconciling leaves a stored state as it was, or recovered. -/
theorem stateOf_reconcile (monitor : MonitorName) (key : Option String) (now : String)
    {state : IncidentState} (held : store.stateOf id = some state) :
    (store.reconcileIncidents monitor key now).stateOf id = some state ∨
      (store.reconcileIncidents monitor key now).stateOf id = some .recovered := by
  obtain ⟨row, found, rfl⟩ := map_eq_some_iff.mp held
  unfold stateOf reconcileIncidents
  rw [getIncident_update, found, map_some, map_some]
  by_cases applies : row.monitor = monitor ∧ row.state ≠ .recovered ∧ key ≠ some row.dedupeKey
  · exact .inr (by rw [reconciled, if_pos applies])
  · exact .inl (by rw [reconciled, if_neg applies])

/-- The state an upsert leaves stored: its own for the row it continues, and for every other row
the one before. -/
theorem stateOf_upsert (input : IncidentInput) {state : IncidentState}
    (held : store.stateOf id = some state) :
    (store.upsertIncident ν input).1.stateOf id =
      some (if (store.activeRow input.dedupeKey).map Incident.id = some id then input.state
        else state) := by
  obtain ⟨row, found, rfl⟩ := map_eq_some_iff.mp held
  have named := (getIncident_some found).2
  unfold upsertIncident stateOf
  cases active : store.activeRow input.dedupeKey with
  | none => simp only [getIncident_insert _ _ found, map_some, Option.map_none,
      reduceCtorEq, ↓reduceIte]
  | some target =>
    simp only [getIncident_update, found, map_some, Option.some.injEq]
    by_cases same : target.id = id
    · simp [continueRow, same, named, continued]
    · have other : ¬ row.id = target.id := fun equal => same (equal.symm.trans named)
      simp [continueRow, same, other]

end IncidentStore

/-! ## Runs of the collector and the operators -/

/-- What happens to the incidents: the collector evaluates a sample, an operator acknowledges, or
the collector starts again, which keeps the store and remembers no sample. -/
inductive IncidentAction (ν : Type) where
  | collect (sample : MonitorSample ν)
  | acknowledge (id : Nat) (input : AcknowledgeInput)
  | restart

/-- What an action answers. -/
inductive IncidentAnswer (ν : Type) where
  | collected (result : Collected ν)
  | acknowledged (incident : Incident)
  | thrown (message : String)
  | restarted

variable {ν : Type}

theorem kept_nil (monitor : MonitorName) : Kept monitor ([] : List (MonitorSample ν)) := by
  intro item member
  exact absurd member List.not_mem_nil

variable [JsRuntime ν] (state : CollectorState ν)

/-- One action. -/
def incidentStep : IncidentAction ν → CollectorState ν × IncidentAnswer ν
  | .collect sample =>
    let (next, result) := evaluateAndCollect state sample
    (next, .collected result)
  | .acknowledge id input =>
    match state.store.acknowledgeIncident ν id input with
    | .ok (store, incident) => ({ state with store := store }, .acknowledged incident)
    | .error message => (state, .thrown message)
  | .restart => ({ state with histories := Histories.empty }, .restarted)

def CollectorState.starting (store : IncidentStore) : CollectorState ν := ⟨Histories.empty, store⟩

def Evaluated : Prop :=
  ∀ monitor, Kept monitor (state.histories monitor)

/-- Every action keeps the histories evaluated. -/
theorem evaluated_step (action : IncidentAction ν) (evaluated : Evaluated state) :
    Evaluated (incidentStep state action).1 := by
  cases action with
  | collect sample =>
    intro monitor
    show Kept monitor ((evaluateAndCollect state sample).1.histories monitor)
    rw [collect_histories]
    exact kept_remember evaluated sample monitor
  | acknowledge id input =>
    unfold incidentStep
    dsimp only
    split <;> exact evaluated
  | restart => exact fun monitor => kept_nil monitor

/-- A sample reopens an incident: its evaluation is an alert, and the incident continued under
the key of the alert is an acknowledged one. -/
def Reopens (sample : MonitorSample ν) (id : Nat) : Prop :=
  (state.evaluate sample).level.isAlert ∧
    ∃ incident, state.store.activeRow
      (alertKey (state.histories sample.monitor) sample (state.evaluate sample)) = some incident ∧
      incident.id = id ∧ incident.state = .acknowledged

variable {id : Nat}

open IncidentStore

/-- What an alert does to an acknowledged incident: it reopens it, or leaves it acknowledged or
recovered. -/
theorem collect_alert_acknowledged {state : CollectorState ν} (evaluated : Evaluated state)
    (sample : MonitorSample ν) (alert : (state.evaluate sample).level.isAlert)
    (held : state.store.stateOf id = some .acknowledged) :
    (Reopens state sample id → (evaluateAndCollect state sample).1.store.stateOf id =
      some .open) ∧
    (¬ Reopens state sample id →
      (evaluateAndCollect state sample).1.store.stateOf id = some .acknowledged ∨
      (evaluateAndCollect state sample).1.store.stateOf id = some .recovered) := by
  obtain ⟨level, inputKey, result⟩ := collect_alert_store evaluated sample alert
  let key := alertKey (state.histories sample.monitor) sample (state.evaluate sample)
  let reconciledRows := state.store.reconcileIncidents sample.monitor (some key) sample.observedAt
  let input := alertInput (state.histories sample.monitor) sample (state.evaluate sample) level
  have target : reconciledRows.activeRow input.dedupeKey = state.store.activeRow key := by
    rw [inputKey]
    exact activeRow_reconcile _ _ _ _
  have reopens : Reopens state sample id ↔
      (state.store.activeRow key).map Incident.id = some id := by
    constructor
    · rintro ⟨-, incident, active, named, -⟩
      rw [active, map_some, named]
    · intro same
      obtain ⟨incident, active, named⟩ := map_eq_some_iff.mp same
      obtain ⟨row, found, isHeld⟩ := map_eq_some_iff.mp held
      have chosen := List.argmax_mem (mem_def.mpr active)
      have member := (List.mem_filter.mp chosen).1
      have itself := state.store.getIncident_of_mem member
      rw [named, found, Option.some.injEq] at itself
      exact ⟨alert, incident, active, named, itself ▸ isHeld⟩
  have after : ∀ before, reconciledRows.stateOf id = some before →
      (evaluateAndCollect state sample).1.store.stateOf id =
        some (if (state.store.activeRow key).map Incident.id = some id then .open
          else before) := by
    intro before isBefore
    rw [result, stateOf_upsert input isBefore, target]
    rfl
  have before := stateOf_reconcile sample.monitor (some key) sample.observedAt held
  rw [reopens]
  constructor
  · intro same
    rcases before with kept | recovered
    · rw [after _ kept, if_pos same]
    · rw [after _ recovered, if_pos same]
  · intro differs
    rcases before with kept | recovered
    · rw [after _ kept, if_neg differs]
      exact .inl rfl
    · rw [after _ recovered, if_neg differs]
      exact .inr rfl

/-- A sample that is no alert leaves an acknowledged incident acknowledged or recovered. -/
theorem collect_calm_acknowledged {state : CollectorState ν} (evaluated : Evaluated state)
    (sample : MonitorSample ν) (calm : (state.evaluate sample).level.isAlert = false)
    (held : state.store.stateOf id = some .acknowledged) :
    (evaluateAndCollect state sample).1.store.stateOf id = some .acknowledged ∨
      (evaluateAndCollect state sample).1.store.stateOf id = some .recovered := by
  by_cases recovers : (state.evaluate sample).transition = some .recovered
  · rw [(collect_recovered evaluated sample recovers).1, stateOf_upsert _ held]
    split
    · exact .inr rfl
    · exact .inl rfl
  · rw [collect_calm state sample calm recovers]
    split
    · exact stateOf_reconcile sample.monitor none sample.observedAt held
    · exact .inl held

/-! ## The law -/

/-- An action that takes no acknowledgement back. -/
def Spares : IncidentAction ν → Prop
  | .collect sample => ∀ id, ¬ Reopens state sample id
  | _ => True

/-- An action of an evaluated collector leaves every acknowledged incident acknowledged or
recovered exactly when it reopens none. -/
theorem spares_step (action : IncidentAction ν) (evaluated : Evaluated state) :
    (∀ id, state.store.stateOf id = some .acknowledged →
      (incidentStep state action).1.store.stateOf id = some .acknowledged ∨
      (incidentStep state action).1.store.stateOf id = some .recovered) ↔
    Spares state action := by
  cases action with
  | collect sample =>
    show (∀ id, state.store.stateOf id = some .acknowledged →
      (evaluateAndCollect state sample).1.store.stateOf id = some .acknowledged ∨
      (evaluateAndCollect state sample).1.store.stateOf id = some .recovered) ↔
        ∀ id, ¬ Reopens state sample id
    constructor
    · intro kept id reopens
      obtain ⟨alert, incident, active, named, isHeld⟩ := reopens
      have chosen := List.argmax_mem (mem_def.mpr active)
      have member := (List.mem_filter.mp chosen).1
      have held : state.store.stateOf id = some .acknowledged := by
        unfold stateOf
        rw [← named, state.store.getIncident_of_mem member, map_some, isHeld]
      have opened := (collect_alert_acknowledged evaluated sample alert held).1
        ⟨alert, incident, active, named, isHeld⟩
      have still := kept id held
      rw [opened] at still
      rcases still with wrong | wrong <;> cases wrong
    · intro spares id held
      cases alert : (state.evaluate sample).level.isAlert with
      | true => exact (collect_alert_acknowledged evaluated sample alert held).2 (spares id)
      | false => exact collect_calm_acknowledged evaluated sample alert held
  | acknowledge other input =>
    refine iff_of_true (fun id held => .inl ?_) trivial
    unfold incidentStep
    dsimp only
    split
    · next store incident accepted => exact stateOf_acknowledge accepted held
    · exact held
  | restart => exact iff_of_true (fun _ held => .inl held) trivial

/-- Once an incident is acknowledged, it stays acknowledged in every later state of the run until
one in which it is recovered. -/
def AcknowledgementPersists (start : CollectorState ν) (actions : List (IncidentAction ν)) : Prop :=
  ∀ id, Machine.Stays incidentStep
    (fun state => state.store.stateOf id = some .acknowledged)
    (fun state => state.store.stateOf id = some .recovered) start actions

/-- In every run from a collector that starts with any store, acknowledgements persist exactly
when no sample of the run reopens an acknowledged incident. -/
theorem acknowledgement_iff (store : IncidentStore) (actions : List (IncidentAction ν)) :
    AcknowledgementPersists (CollectorState.starting store) actions ↔
      Machine.Along incidentStep Spares (CollectorState.starting store) actions := by
  have first : Evaluated (CollectorState.starting store : CollectorState ν) :=
    fun monitor => kept_nil monitor
  rw [← Machine.along_congr evaluated_step spares_step first]
  have apart : ∀ (id : Nat) (state : CollectorState ν),
      state.store.stateOf id = some .acknowledged → ¬ state.store.stateOf id = some .recovered := by
    intro id state held recovered
    rw [held] at recovered
    cases recovered
  unfold AcknowledgementPersists
  simp only [Machine.stays_iff (apart _), Machine.along_iff]
  constructor
  · intro each before action later split id
    exact each id before action later split
  · intro each id before action later split
    exact each before action later split id

def acknowledgeFirst : IncidentAction Float :=
  .acknowledge 0 ⟨"2026-01-01T00:01:00.000Z", "operator", "seen"⟩

/-- Two failures open an incident and an operator acknowledges it; the next failure puts it back
to open. -/
theorem acknowledgement_lost :
    ¬ AcknowledgementPersists (CollectorState.starting IncidentStore.empty)
      [.collect (livenessSample .critical), .collect (livenessSample .critical),
        acknowledgeFirst, .collect (livenessSample .critical)] := by
  intro persists
  have last := persists 0
    [.collect (livenessSample .critical), .collect (livenessSample .critical), acknowledgeFirst]
    [.collect (livenessSample .critical)] [] rfl (by decide +kernel) ?_
  · exact absurd last (by decide +kernel)
  · intro front back split
    rcases List.append_eq_singleton_iff.mp split.symm with ⟨rfl, -⟩ | ⟨rfl, -⟩
    · decide +kernel
    · decide +kernel

end NancyMan.Collector
