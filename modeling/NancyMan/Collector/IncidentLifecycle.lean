import NancyMan.Collector.Hysteresis
import NancyMan.Collector.Incidents

/-!
# The life of an incident

A recovery should close the incident it is about. The incident is found again by the key
remembered of the samples before, and a sample that only holds an alert is remembered under
the baseline key, so the key of the incident is lost once 120 such samples follow each other.
`Tracked` is what every run keeps in spite of that, and `closes_iff` says exactly which
recoveries close their incident.
-/
namespace NancyMan.Collector

open IncidentStore
open List (mem_filter mem_filterMap mem_reverse mem_singleton)

def KeyOf (monitor : MonitorName) (key : String) : Prop :=
  ∃ reason, key = monitor.text ++ ":" ++ reason

theorem beforeColon (monitor : MonitorName) (reason : String) :
    (monitor.text ++ ":" ++ reason).toList.takeWhile (· ≠ ':') = monitor.text.toList := by
  have plain : monitor.text.toList.all (fun char => decide (char ≠ ':')) := by
    cases monitor <;> rfl
  rw [String.toList_append, String.toList_append, List.append_assoc,
    List.takeWhile_append_of_pos (List.all_eq_true.mp plain)]
  simp

/-- A key belongs to one monitor. -/
theorem keyOf_unique {left right : MonitorName} {key : String} (first : KeyOf left key)
    (second : KeyOf right key) : left = right := by
  obtain ⟨_, rfl⟩ := first
  obtain ⟨_, same⟩ := second
  have names : left.text.toList = right.text.toList := by
    rw [← beforeColon left, same, beforeColon]
  revert names
  cases left <;> cases right <;> decide

namespace IncidentStore

/-! ## Active rows -/

def Keyed (store : IncidentStore) : Prop := ∀ row ∈ store.rows, KeyOf row.monitor row.dedupeKey

variable {store : IncidentStore}

/-- A change that keeps keys, monitors and states of recovered rows keeps the rows keyed. -/
theorem Keyed.update (keyed : store.Keyed) {change : Incident → Incident}
    (same : ∀ row, (change row).id = row.id)
    (kept : ∀ row, (change row).monitor = row.monitor ∧ (change row).dedupeKey = row.dedupeKey) :
    (store.update change same).Keyed := by
  intro row member
  obtain ⟨old, oldMember, rfl⟩ := List.mem_map.mp member
  rw [(kept old).1, (kept old).2]
  exact keyed old oldMember

/-- Among keyed rows, the active rows of a key are active rows of its monitor. -/
theorem activeRow_eq (keyed : store.Keyed) {monitor : MonitorName} {key : String}
    (own : KeyOf monitor key) :
    store.activeRow key =
      ((store.active monitor).filter fun row => row.dedupeKey = key).argmax
        Incident.openedAt := by
  have same : store.rows.filter (fun row => row.dedupeKey = key ∧ row.state ≠ .recovered) =
      (store.active monitor).filter fun row => row.dedupeKey = key := by
    unfold active
    rw [List.filter_filter]
    refine List.filter_congr fun row member => ?_
    by_cases named : row.dedupeKey = key
    · have monitors : row.monitor = monitor :=
        keyOf_unique (keyed row member) (named ▸ own)
      simp [named, monitors]
    · simp [named]
  unfold activeRow
  rw [same]

theorem reconcile_keyed (keyed : store.Keyed) (monitor : MonitorName) (key : Option String)
    (now : String) : (store.reconcileIncidents monitor key now).Keyed := by
  refine keyed.update (reconciled_id _ _ _) fun row => ?_
  unfold reconciled
  split <;> exact ⟨rfl, rfl⟩

/-- The active rows of a monitor after a change are the changed rows among those it keeps. -/
theorem active_update (store : IncidentStore) {change : Incident → Incident}
    (same : ∀ row, (change row).id = row.id) (monitor : MonitorName) (keep : Incident → Bool)
    (fate : ∀ row ∈ store.rows,
      ((change row).monitor = monitor ∧ (change row).state ≠ .recovered) ↔
        (keep row ∧ row.monitor = monitor ∧ row.state ≠ .recovered)) :
    (store.update change same).active monitor =
      ((store.active monitor).filter keep).map change := by
  unfold active update
  rw [List.filter_map, List.filter_filter]
  congr 1
  refine List.filter_congr fun row member => ?_
  rw [Function.comp, Bool.eq_iff_iff]
  simpa using fate row member

/-- A change that leaves the rows it keeps as they were only filters the active rows. -/
theorem active_update_fixed (store : IncidentStore) {change : Incident → Incident}
    (same : ∀ row, (change row).id = row.id) (monitor : MonitorName) (keep : Incident → Bool)
    (fate : ∀ row ∈ store.rows,
      ((change row).monitor = monitor ∧ (change row).state ≠ .recovered) ↔
        (keep row ∧ row.monitor = monitor ∧ row.state ≠ .recovered))
    (fixed : ∀ row ∈ store.active monitor, keep row → change row = row) :
    (store.update change same).active monitor = (store.active monitor).filter keep := by
  rw [active_update store same monitor keep fate]
  have each : ∀ row ∈ (store.active monitor).filter keep, change row = row := by
    intro row member
    obtain ⟨inActive, kept⟩ := mem_filter.mp member
    exact fixed row inActive kept
  exact (List.map_congr_left each).trans (List.map_id _)

/-- Reconciling leaves active, of its monitor, the rows of the active key. -/
theorem active_reconcile_same (store : IncidentStore) (monitor : MonitorName)
    (key : Option String) (now : String) :
    (store.reconcileIncidents monitor key now).active monitor =
      (store.active monitor).filter fun row => key = some row.dedupeKey := by
  refine active_update_fixed store (reconciled_id _ _ _) monitor _ (fun row _ => ?_) fun row _ kept => ?_
  · by_cases keys : key = some row.dedupeKey
    · simp [reconciled, keys]
    · by_cases live : row.monitor = monitor ∧ row.state ≠ .recovered
      · simp [reconciled, live, keys]
      · have untouched : reconciled monitor key now row = row :=
          if_neg fun applies => live ⟨applies.1, applies.2.1⟩
        rw [untouched]
        simp [live, keys]
  · have keys : key = some row.dedupeKey := by simpa using kept
    simp [reconciled, keys]

/-- Reconciling leaves the rows of another monitor as they were. -/
theorem active_reconcile_other (store : IncidentStore) {monitor other : MonitorName}
    (key : Option String) (now : String) (distinct : other ≠ monitor) :
    (store.reconcileIncidents monitor key now).active other = store.active other := by
  have untouched : ∀ row : Incident, row.monitor = other →
      reconciled monitor key now row = row := fun row isOther =>
    if_neg fun applies => distinct (isOther ▸ applies.1)
  refine (active_update_fixed store (reconciled_id _ _ _) other (fun _ => true)
    (fun row _ => ?_) fun row member _ => ?_).trans (List.filter_true _)
  · by_cases isOther : row.monitor = other
    · simp [untouched row isOther]
    · have monitors : (reconciled monitor key now row).monitor = row.monitor := by
        unfold reconciled
        split <;> rfl
      simp [monitors, isOther]
  · have found := (mem_filter.mp member).2
    simp only [decide_eq_true_eq] at found
    exact untouched row found.1

/-- An inserted row is active for its monitor unless it is inserted as recovered. -/
theorem active_insert (store : IncidentStore) (row : Nat → Incident)
    (named : ∀ id, (row id).id = id) (monitor : MonitorName) :
    (store.insert row named).active monitor = store.active monitor ++
      if (row store.nextId).monitor = monitor ∧ (row store.nextId).state ≠ .recovered then
        [row store.nextId]
      else [] := by
  unfold active insert
  rw [List.filter_append, List.filter_singleton]
  simp

theorem row_unique (store : IncidentStore) {left right : Incident} (first : left ∈ store.rows)
    (second : right ∈ store.rows) (same : left.id = right.id) : left = right :=
  List.inj_on_of_nodup_map store.distinct first second same

theorem continueRow_other {row other : Incident} (change : Incident → Incident)
    (member : row ∈ store.rows) (otherMember : other ∈ store.rows) (distinct : other ≠ row) :
    continueRow row.id change other = other :=
  if_neg fun same => distinct (store.row_unique otherMember member same)

theorem continueRow_kept (id : Nat) (input : IncidentInput) (summary : String) (row : Incident) :
    (continueRow id (continued input summary) row).monitor = row.monitor ∧
      (continueRow id (continued input summary) row).dedupeKey = row.dedupeKey := by
  unfold continueRow
  split <;> exact ⟨rfl, rfl⟩

variable {ν : Type} [JsRuntime ν] (keyed : store.Keyed)

include keyed

theorem activeRow_some {monitor : MonitorName} {key : String}
    (own : KeyOf monitor key) {row : Incident} (found : store.activeRow key = some row) :
    row ∈ store.active monitor ∧ row.dedupeKey = key := by
  rw [activeRow_eq keyed own] at found
  have chosen := List.argmax_mem (Option.mem_def.mpr found)
  obtain ⟨inActive, named⟩ := mem_filter.mp chosen
  exact ⟨inActive, by simpa using named⟩

/-- Upserting under a key of the row's own monitor keeps the rows keyed. -/
theorem upsert_keyed (input : IncidentInput)
    (own : KeyOf input.monitor input.dedupeKey) : (store.upsertIncident ν input).1.Keyed := by
  unfold upsertIncident
  cases found : store.activeRow input.dedupeKey with
  | some row => exact keyed.update (continueRow_id _ _ _) (continueRow_kept _ _ _)
  | none =>
    intro row member
    rcases List.mem_append.mp member with old | new
    · exact keyed row old
    · rw [mem_singleton.mp new]
      exact own

/-- Upserting leaves the active rows of another monitor as they were. -/
theorem active_upsert_other (input : IncidentInput)
    (own : KeyOf input.monitor input.dedupeKey) {other : MonitorName}
    (distinct : other ≠ input.monitor) :
    (store.upsertIncident ν input).1.active other = store.active other := by
  unfold upsertIncident
  cases found : store.activeRow input.dedupeKey with
  | some row =>
    obtain ⟨inActive, -⟩ := activeRow_some keyed own found
    obtain ⟨inRows, live⟩ := mem_filter.mp inActive
    simp only [decide_eq_true_eq] at live
    have untouched : ∀ found ∈ store.rows, found.monitor = other →
        continueRow row.id (continued input (JsRuntime.slice ν input.safeSummary 500)) found =
          found := by
      intro found member isOther
      refine continueRow_other _ inRows member fun same => distinct ?_
      rw [← isOther, same, live.1]
    refine (active_update_fixed store (continueRow_id _ _ _) other (fun _ => true)
      (fun found member => ?_) fun found member _ => ?_).trans (List.filter_true _)
    · by_cases isOther : found.monitor = other
      · simp [untouched found member isOther]
      · simp [(continueRow_kept _ _ _ found).1, isOther]
    · obtain ⟨inRows, live⟩ := mem_filter.mp member
      simp only [decide_eq_true_eq] at live
      exact untouched found inRows live.1
  | none =>
    dsimp only
    rw [active_insert]
    simp [inserted, Ne.symm distinct]

/-- The row an open upsert leaves is the only active one of its monitor, under the input's key,
when no other key of the monitor was active. -/
theorem upsert_open (input : IncidentInput)
    (own : KeyOf input.monitor input.dedupeKey) (opens : input.state = .open)
    (few : (store.active input.monitor).length ≤ 1)
    (only : ∀ row ∈ store.active input.monitor, row.dedupeKey = input.dedupeKey) :
    (store.upsertIncident ν input).1.active input.monitor = [(store.upsertIncident ν input).2] ∧
      (store.upsertIncident ν input).2.dedupeKey = input.dedupeKey := by
  unfold upsertIncident
  cases found : store.activeRow input.dedupeKey with
  | some row =>
    obtain ⟨inActive, named⟩ := activeRow_some keyed own found
    obtain ⟨inRows, live⟩ := mem_filter.mp inActive
    simp only [decide_eq_true_eq] at live
    have alone : store.active input.monitor = [row] := by
      obtain ⟨only, isOnly⟩ := List.length_eq_one_iff.mp
        (Nat.le_antisymm few (List.length_pos_of_mem inActive))
      rw [isOnly, mem_singleton] at inActive
      rw [isOnly, inActive]
    refine ⟨?_, named⟩
    refine (active_update store (continueRow_id _ _ _) input.monitor (fun _ => true) (fun other member => ?_)).trans ?_
    · by_cases same : other = row
      · subst same
        simp [continueRow, continued, opens, live]
      · rw [continueRow_other _ inRows member same]
        simp
    · rw [alone]
      simp [continueRow]
  | none =>
    refine ⟨?_, rfl⟩
    have nothing : store.active input.monitor = [] := by
      rw [activeRow_eq keyed own, List.argmax_eq_none, List.filter_eq_nil_iff] at found
      refine List.eq_nil_iff_forall_not_mem.mpr fun row member => ?_
      exact found row member (by simpa using only row member)
    dsimp only
    rw [active_insert, nothing]
    simp [inserted, opens]

/-- A recovered upsert closes the only active row of its monitor exactly when that row has the
input's key; else it adds a recovered row beside it. -/
theorem upsert_recovered (input : IncidentInput)
    (own : KeyOf input.monitor input.dedupeKey) (recovers : input.state = .recovered)
    (row : Incident) (alone : store.active input.monitor = [row]) :
    (row.dedupeKey = input.dedupeKey →
      (store.upsertIncident ν input).1.active input.monitor = [] ∧
        (store.upsertIncident ν input).2.id = row.id) ∧
    (row.dedupeKey ≠ input.dedupeKey →
      (store.upsertIncident ν input).1.active input.monitor = [row]) := by
  have inActive : row ∈ store.active input.monitor := by simp [alone]
  obtain ⟨inRows, live⟩ := mem_filter.mp inActive
  simp only [decide_eq_true_eq] at live
  constructor
  · intro named
    have found : store.activeRow input.dedupeKey = some row := by
      rw [activeRow_eq keyed own, alone]
      simp [named]
    unfold upsertIncident
    rw [found]
    refine ⟨?_, rfl⟩
    refine (active_update store (continueRow_id _ _ _) input.monitor
      (fun other => other.id ≠ row.id) (fun other member => ?_)).trans ?_
    · by_cases same : other = row
      · subst same
        simp [continueRow, continued, recovers]
      · rw [continueRow_other _ inRows member same]
        have differs : other.id ≠ row.id := fun equal => same (store.row_unique member inRows equal)
        simp [differs]
    · rw [alone]
      simp
  · intro other
    have found : store.activeRow input.dedupeKey = none := by
      rw [activeRow_eq keyed own, alone]
      simp [other]
    unfold upsertIncident
    rw [found]
    dsimp only
    rw [active_insert, alone]
    simp [inserted, recovers]

omit keyed

end IncidentStore

/-! ## Remembered keys -/

variable {ν : Type}

/-- A history remembers only evaluated samples, under keys of its monitor. -/
def Kept (monitor : MonitorName) (history : List (MonitorSample ν)) : Prop :=
  ∀ item ∈ history, ∃ sample evaluation,
    item = annotated sample evaluation ∧ KeyOf monitor evaluation.dedupeKey

@[simp] theorem rememberedKey_annotated (sample : MonitorSample ν) (evaluation : Evaluation) :
    rememberedKey (annotated sample evaluation) = some evaluation.dedupeKey := by
  simp [rememberedKey]

variable {history : List (MonitorSample ν)}

/-- The key of the previous sample's incident is the latest remembered key that is not the
baseline key, or else the evaluation's own. -/
theorem previousDedupe_eq {monitor : MonitorName} (kept : Kept monitor history)
    (evaluation : Evaluation) :
    previousDedupe monitor history evaluation =
      (dedupeBeforeRecoveryBaseline monitor history).getD evaluation.dedupeKey := by
  rcases List.eq_nil_or_concat history with rfl | ⟨front, last, rfl⟩
  · simp [previousDedupe, dedupeBeforeRecoveryBaseline]
  · obtain ⟨sample, previous, rfl, -⟩ := kept last (by simp)
    by_cases baseline : previous.dedupeKey = recoveryBaselineKey monitor
    · simp [previousDedupe, baseline]
    · simp [previousDedupe, dedupeBeforeRecoveryBaseline, baseline]

theorem dedupeBefore_own {monitor : MonitorName} (kept : Kept monitor history) {key : String}
    (found : dedupeBeforeRecoveryBaseline monitor history = some key) : KeyOf monitor key := by
  obtain ⟨item, member, isKey⟩ := mem_filterMap.mp (List.mem_of_find?_eq_some found)
  obtain ⟨sample, evaluation, rfl, own⟩ := kept item (mem_reverse.mp member)
  rw [rememberedKey_annotated, Option.some.injEq] at isKey
  exact isKey ▸ own

theorem previousDedupe_own {monitor : MonitorName} (kept : Kept monitor history)
    {evaluation : Evaluation} (own : KeyOf monitor evaluation.dedupeKey) :
    KeyOf monitor (previousDedupe monitor history evaluation) := by
  rw [previousDedupe_eq kept]
  cases found : dedupeBeforeRecoveryBaseline monitor history with
  | none => exact own
  | some key => exact dedupeBefore_own kept found

/-- The latest key of a history that one more sample is remembered in: the sample's own key, or
for the baseline key one that was the latest before. -/
theorem dedupeBefore_remembered {monitor : MonitorName} (sample : MonitorSample ν)
    (evaluation : Evaluation) {key : String}
    (found : dedupeBeforeRecoveryBaseline monitor
      ((history ++ [annotated sample evaluation]).rtake historyLimit) = some key) :
    if evaluation.dedupeKey = recoveryBaselineKey monitor then
      dedupeBeforeRecoveryBaseline monitor history = some key
    else evaluation.dedupeKey = key := by
  unfold dedupeBeforeRecoveryBaseline at found ⊢
  have window : ((history ++ [annotated sample evaluation]).rtake historyLimit).reverse =
      annotated sample evaluation :: history.reverse.take 119 := by
    rw [List.rtake_eq_reverse_take_reverse, List.reverse_reverse]
    simp [historyLimit]
  rw [window, List.filterMap_cons, rememberedKey_annotated] at found
  by_cases baseline : evaluation.dedupeKey = recoveryBaselineKey monitor
  · rw [if_pos baseline]
    simp only [List.find?_cons, baseline, ne_eq, not_true_eq_false, decide_false] at found
    rw [← List.take_append_drop 119 history.reverse, List.filterMap_append, List.find?_append,
      found]
    rfl
  · rw [if_neg baseline]
    simpa [List.find?_cons, baseline] using found

/-- A kept history has a latest key that is not the baseline key exactly when it has one. -/
theorem dedupeBefore_isSome {monitor : MonitorName} (kept : Kept monitor history) :
    (dedupeBeforeRecoveryBaseline monitor history).isSome ↔
      ∃ item ∈ history, rememberedKey item ≠ some (recoveryBaselineKey monitor) := by
  unfold dedupeBeforeRecoveryBaseline
  rw [List.find?_isSome]
  constructor
  · rintro ⟨key, member, differs⟩
    obtain ⟨item, itemMember, isKey⟩ := mem_filterMap.mp member
    refine ⟨item, mem_reverse.mp itemMember, ?_⟩
    rw [isKey]
    simpa using differs
  · rintro ⟨item, member, differs⟩
    obtain ⟨sample, evaluation, rfl, -⟩ := kept item member
    refine ⟨evaluation.dedupeKey, mem_filterMap.mpr
      ⟨_, mem_reverse.mpr member, rememberedKey_annotated _ _⟩, ?_⟩
    simpa using differs

/-- The key of an alert is the one its monitor remembers afterwards. -/
theorem alertKey_remembered {sample : MonitorSample ν} (kept : Kept sample.monitor history)
    (evaluation : Evaluation) {key : String}
    (found : dedupeBeforeRecoveryBaseline sample.monitor
      ((history ++ [annotated sample evaluation]).rtake historyLimit) = some key) :
    alertKey history sample evaluation = key := by
  have remembered := dedupeBefore_remembered sample evaluation found
  unfold alertKey
  by_cases baseline : evaluation.dedupeKey = recoveryBaselineKey sample.monitor
  · rw [if_pos baseline] at remembered ⊢
    rw [previousDedupe_eq kept, remembered]
    rfl
  · rw [if_neg baseline] at remembered ⊢
    exact remembered

/-- An infrastructure recovery ends an alert at the healthy level. -/
theorem infrastructureRecovery_recovers (samples : List (MonitorSample ν)) (condition : Bool)
    (previousEffective : MonitorLevel)
    (recovers : (infrastructureRecovery samples condition previousEffective).recovers) :
    (infrastructureRecovery samples condition previousEffective).level = .healthy ∧
      previousEffective.isAlert := by
  unfold infrastructureRecovery at recovers ⊢
  split_ifs at recovers ⊢ with calm quiet few
  simp only [Bool.or_eq_true, Bool.not_eq_true', not_or, Bool.not_eq_false] at calm
  exact ⟨rfl, calm.2⟩

theorem hasExplicitCondition_kept {monitor : MonitorName} (kept : Kept monitor history)
    (sample : MonitorSample ν) (nonempty : history ≠ []) :
    hasExplicitCondition (history ++ [sample]) := by
  obtain ⟨item, member⟩ := List.exists_mem_of_ne_nil history nonempty
  obtain ⟨old, evaluation, rfl, -⟩ := kept item member
  refine List.any_eq_true.mpr ⟨_, List.mem_append_left _ member, ?_⟩
  simp [annotated]

/-- What every run of the collector keeps: its rows are keyed, a monitor has at most one active
incident, and while its latest sample is an alert it has one, under the remembered key if that
is not lost. -/
structure Tracked (state : CollectorState ν) : Prop where
  kept : ∀ monitor, Kept monitor (state.histories monitor)
  keyed : state.store.Keyed
  single : ∀ monitor, (state.store.active monitor).length ≤ 1
  alerted : ∀ monitor, (effectiveLevel (state.histories monitor).getLast?).isAlert →
    ∃ incident, state.store.active monitor = [incident] ∧
      ∀ key, dedupeBeforeRecoveryBaseline monitor (state.histories monitor) = some key →
        incident.dedupeKey = key

/-- A collector with nothing remembered is tracked. -/
theorem tracked_empty : Tracked (CollectorState.empty : CollectorState ν) where
  kept := by
    intro monitor item member
    exact absurd member List.not_mem_nil
  keyed := by
    intro row member
    exact absurd member List.not_mem_nil
  single := fun _ => Nat.zero_le 1
  alerted := by
    intro monitor alert
    exact absurd alert Bool.false_ne_true

variable [JsRuntime ν]

/-- The key of an evaluation is a key of its monitor. -/
theorem evaluateMonitor_key (history : List (MonitorSample ν)) (sample : MonitorSample ν) :
    KeyOf sample.monitor (evaluateMonitor history sample).dedupeKey := by
  unfold evaluateMonitor evaluateHost evaluateDirect
  split_ifs
  · dsimp only
    split <;> exact ⟨_, rfl⟩
  · exact ⟨_, rfl⟩
  · exact ⟨_, rfl⟩

theorem transitionTo_ne_recovered (level previousLevel : MonitorLevel) :
    transitionTo level previousLevel ≠ some .recovered := by
  unfold transitionTo
  split_ifs <;> simp

/-- A recovery ends an alert at the healthy level. -/
theorem evaluateMonitor_recovered {monitor : MonitorName} (kept : Kept monitor history)
    (sample : MonitorSample ν)
    (recovers : (evaluateMonitor history sample).transition = some .recovered) :
    (evaluateMonitor history sample).level = .healthy ∧
      (effectiveLevel history.getLast?).isAlert := by
  unfold evaluateMonitor at recovers ⊢
  split_ifs at recovers ⊢ with host
  · unfold evaluateHost at recovers ⊢
    by_cases healthy : (evaluateInfrastructure history sample).1.level = .healthy
    · simp only [healthy, ↓reduceIte, evaluation] at recovers ⊢
      refine infrastructureRecovery_recovers _ _ _ ?_
      by_contra stays
      simp [stays] at recovers
    · simp only [healthy, ↓reduceIte, evaluation] at recovers
      exact absurd recovers (transitionTo_ne_recovered _ _)
  · unfold evaluateDirect at recovers ⊢
    split_ifs at recovers ⊢ with eligible
    · refine ⟨rfl, ?_⟩
      obtain ⟨able, -⟩ := eligible
      simp only [recoveryEligible, Bool.and_eq_true, Bool.or_eq_true, decide_eq_true_eq,
        Bool.not_eq_true'] at able
      rcases able.2 with ⟨alert, -⟩ | ⟨⟨unmarked, -⟩, two⟩
      · exact alert
      · obtain ⟨previous, last, -⟩ := clearSamples_two history sample (by omega)
        have nonempty : history ≠ [] := by
          rintro rfl
          simp at last
        rw [hasExplicitCondition_kept kept sample nonempty] at unmarked
        exact absurd unmarked (by simp)
    · exact absurd recovers (transitionTo_ne_recovered _ _)

/-! ## The step of the collector -/

/-- The evaluation of a step's sample. -/
abbrev CollectorState.evaluate (state : CollectorState ν) (sample : MonitorSample ν) : Evaluation :=
  evaluateMonitor (state.histories sample.monitor) sample

/-- Remembering a sample keeps the histories evaluated and keyed. -/
theorem kept_remember {histories : Histories ν} (kept : ∀ monitor, Kept monitor (histories monitor))
    (sample : MonitorSample ν) (monitor : MonitorName) :
    Kept monitor ((remember histories sample).1 monitor) := by
  by_cases same : monitor = sample.monitor
  · subst same
    intro item member
    simp only [remember, Function.update_self] at member
    rcases List.mem_append.mp ((List.drop_suffix _ _).mem member) with old | new
    · exact kept _ item old
    · exact ⟨sample, _, mem_singleton.mp new, evaluateMonitor_key _ _⟩
  · rw [remember_other histories sample same]
    exact kept monitor

theorem alertKey_own {sample : MonitorSample ν} (kept : Kept sample.monitor history) :
    KeyOf sample.monitor (alertKey history sample (evaluateMonitor history sample)) := by
  unfold alertKey
  split_ifs
  · exact previousDedupe_own kept (evaluateMonitor_key history sample)
  · exact evaluateMonitor_key history sample

/-- An alert upserts its incident after the others of its monitor are reconciled. -/
theorem collect_alert_store {state : CollectorState ν}
    (kept : ∀ monitor, Kept monitor (state.histories monitor)) (sample : MonitorSample ν)
    (alert : (state.evaluate sample).level.isAlert) :
    ∃ level,
      (alertInput (state.histories sample.monitor) sample (state.evaluate sample) level).dedupeKey =
        alertKey (state.histories sample.monitor) sample (state.evaluate sample) ∧
      (evaluateAndCollect state sample).1.store =
        ((state.store.reconcileIncidents sample.monitor
          (some (alertKey (state.histories sample.monitor) sample (state.evaluate sample)))
          sample.observedAt).upsertIncident ν
          (alertInput (state.histories sample.monitor) sample (state.evaluate sample) level)).1 := by
  have calm : (state.evaluate sample).transition ≠ some .recovered := by
    intro recovers
    have healthy := (evaluateMonitor_recovered (kept sample.monitor) sample recovers).1
    rw [healthy] at alert
    exact absurd alert Bool.false_ne_true
  obtain ⟨level, isLevel⟩ : ∃ level, (state.evaluate sample).level.alert? = some level :=
    Option.isSome_iff_exists.mp ((MonitorLevel.alert?_isSome _).trans alert)
  refine ⟨level, if_neg calm, ?_⟩
  simp only [evaluateAndCollect, remember, reconciledStore, isLevel, alert, ↓reduceIte]

/-- What a step does to the store, for an alert. -/
theorem collect_alert {state : CollectorState ν} (tracked : Tracked state)
    (sample : MonitorSample ν) (alert : (state.evaluate sample).level.isAlert) :
    (evaluateAndCollect state sample).1.store.Keyed ∧
      (∀ other ≠ sample.monitor, (evaluateAndCollect state sample).1.store.active other =
        state.store.active other) ∧
      ∃ incident, (evaluateAndCollect state sample).1.store.active sample.monitor = [incident] ∧
        incident.dedupeKey =
          alertKey (state.histories sample.monitor) sample (state.evaluate sample) := by
  obtain ⟨level, inputKey, result⟩ := collect_alert_store tracked.kept sample alert
  let reconciledRows := state.store.reconcileIncidents sample.monitor
    (some (alertKey (state.histories sample.monitor) sample (state.evaluate sample)))
    sample.observedAt
  let input := alertInput (state.histories sample.monitor) sample (state.evaluate sample) level
  have inputOwn : KeyOf input.monitor input.dedupeKey := by
    rw [inputKey]
    exact alertKey_own (tracked.kept sample.monitor)
  have keyed : reconciledRows.Keyed := reconcile_keyed tracked.keyed _ _ _
  have rows := active_reconcile_same state.store sample.monitor
    (some (alertKey (state.histories sample.monitor) sample (state.evaluate sample)))
    sample.observedAt
  rw [result]
  refine ⟨upsert_keyed keyed input inputOwn, fun other distinct => ?_, ?_⟩
  · rw [active_upsert_other keyed input inputOwn distinct]
    exact active_reconcile_other _ _ _ distinct
  · have few : (reconciledRows.active input.monitor).length ≤ 1 := by
      change (reconciledRows.active sample.monitor).length ≤ 1
      rw [rows]
      exact (List.length_filter_le _ _).trans (tracked.single sample.monitor)
    have only : ∀ row ∈ reconciledRows.active input.monitor, row.dedupeKey = input.dedupeKey := by
      intro row member
      change row ∈ reconciledRows.active sample.monitor at member
      rw [rows] at member
      have named := (mem_filter.mp member).2
      simp only [Option.some.injEq, decide_eq_true_eq] at named
      rw [inputKey, ← named]
    obtain ⟨alone, named⟩ :=
      upsert_open (ν := ν) keyed input inputOwn rfl few only
    exact ⟨_, alone, named.trans inputKey⟩

/-- What a step does to the store and announces, for a recovery. -/
theorem collect_recovered {state : CollectorState ν}
    (kept : ∀ monitor, Kept monitor (state.histories monitor))
    (sample : MonitorSample ν) (recovers : (state.evaluate sample).transition = some .recovered) :
    let history := state.histories sample.monitor
    let input := recoveryInput history sample (state.evaluate sample)
    (evaluateAndCollect state sample).1.store = (state.store.upsertIncident ν input).1 ∧
      (evaluateAndCollect state sample).2.transition.map CollectorTransition.incidentId =
        some (state.store.upsertIncident ν input).2.id := by
  have healthy := (evaluateMonitor_recovered (kept sample.monitor) sample recovers).1
  simp only [evaluateAndCollect, remember, reconciledStore, healthy, recovers,
    MonitorLevel.alert?, MonitorLevel.isAlert, Bool.false_eq_true, ne_eq, not_true_eq_false,
    and_false, ↓reduceIte, Option.map_some, announced, and_self]

variable (state : CollectorState ν)

/-- What a step does to the store, for a level that is no alert and no recovery. -/
theorem collect_calm (sample : MonitorSample ν)
    (calm : (state.evaluate sample).level.isAlert = false)
    (stays : (state.evaluate sample).transition ≠ some .recovered) :
    (evaluateAndCollect state sample).1.store =
      if (state.evaluate sample).level = .healthy then
        state.store.reconcileIncidents sample.monitor none sample.observedAt
      else state.store := by
  have noAlert : (state.evaluate sample).level.alert? = none := by
    rw [← Option.isNone_iff_eq_none, ← Option.not_isSome, MonitorLevel.alert?_isSome, calm]
    rfl
  simp only [evaluateAndCollect, remember, reconciledStore, noAlert, calm, stays,
    Bool.false_eq_true, ne_eq, not_false_eq_true, and_true, ↓reduceIte]

/-- The histories after a step are those of `remember`. -/
theorem collect_histories (sample : MonitorSample ν) :
    (evaluateAndCollect state sample).1.histories = (remember state.histories sample).1 := by
  simp only [evaluateAndCollect]
  split
  · rfl
  · split <;> rfl

theorem collect_evaluation (sample : MonitorSample ν) :
    (evaluateAndCollect state sample).2.evaluation = state.evaluate sample := by
  simp only [evaluateAndCollect]
  split
  · rfl
  · split <;> rfl

/-- What a recovery upserts, by whether its key is that of the active incident. -/
theorem collect_recovered_active {state : CollectorState ν} (tracked : Tracked state)
    (sample : MonitorSample ν) (recovers : (state.evaluate sample).transition = some .recovered) :
    ∃ incident, state.store.active sample.monitor = [incident] ∧
      (∀ key, dedupeBeforeRecoveryBaseline sample.monitor (state.histories sample.monitor) =
        some key → incident.dedupeKey = key) ∧
      (incident.dedupeKey = previousDedupe sample.monitor (state.histories sample.monitor)
          (state.evaluate sample) →
        (evaluateAndCollect state sample).1.store.active sample.monitor = [] ∧
          (evaluateAndCollect state sample).2.transition.map CollectorTransition.incidentId =
            some incident.id) ∧
      (incident.dedupeKey ≠ previousDedupe sample.monitor (state.histories sample.monitor)
          (state.evaluate sample) →
        (evaluateAndCollect state sample).1.store.active sample.monitor = [incident]) := by
  have alert := (evaluateMonitor_recovered (tracked.kept sample.monitor) sample recovers).2
  obtain ⟨incident, alone, named⟩ := tracked.alerted sample.monitor alert
  obtain ⟨store, announces⟩ := collect_recovered tracked.kept sample recovers
  have own : KeyOf sample.monitor (previousDedupe sample.monitor
      (state.histories sample.monitor) (state.evaluate sample)) :=
    previousDedupe_own (tracked.kept sample.monitor) (evaluateMonitor_key _ _)
  obtain ⟨closes, misses⟩ := upsert_recovered (ν := ν) tracked.keyed
    (recoveryInput (state.histories sample.monitor) sample (state.evaluate sample)) own rfl
    incident alone
  refine ⟨incident, alone, named, fun same => ?_, fun differs => ?_⟩
  · obtain ⟨empty, id⟩ := closes same
    rw [store, announces, id]
    exact ⟨empty, rfl⟩
  · rw [store]
    exact misses differs

/-- A step keeps the rows keyed, the other monitors' active rows, and at most one active row of
its own monitor. -/
theorem collect_rows {state : CollectorState ν} (tracked : Tracked state)
    (sample : MonitorSample ν) :
    (evaluateAndCollect state sample).1.store.Keyed ∧
      (∀ other ≠ sample.monitor, (evaluateAndCollect state sample).1.store.active other =
        state.store.active other) ∧
      ((evaluateAndCollect state sample).1.store.active sample.monitor).length ≤ 1 := by
  cases alert : (state.evaluate sample).level.isAlert with
  | true =>
    obtain ⟨keyed, others, incident, alone, -⟩ := collect_alert tracked sample alert
    exact ⟨keyed, others, by simp [alone]⟩
  | false =>
    by_cases recovers : (state.evaluate sample).transition = some .recovered
    · have own : KeyOf sample.monitor (previousDedupe sample.monitor
          (state.histories sample.monitor) (state.evaluate sample)) :=
        previousDedupe_own (tracked.kept sample.monitor) (evaluateMonitor_key _ _)
      obtain ⟨incident, -, -, closes, misses⟩ := collect_recovered_active tracked sample recovers
      have store := (collect_recovered tracked.kept sample recovers).1
      refine ⟨?_, fun other distinct => ?_, ?_⟩
      · rw [store]
        exact upsert_keyed tracked.keyed _ own
      · rw [store]
        exact active_upsert_other tracked.keyed _ own distinct
      · by_cases same : incident.dedupeKey = previousDedupe sample.monitor
            (state.histories sample.monitor) (state.evaluate sample)
        · simp [(closes same).1]
        · simp [misses same]
    · rw [collect_calm state sample alert recovers]
      split_ifs with healthy
      · refine ⟨reconcile_keyed tracked.keyed _ _ _, fun other distinct =>
          active_reconcile_other _ _ _ distinct, ?_⟩
        rw [active_reconcile_same]
        exact (List.length_filter_le _ _).trans (tracked.single sample.monitor)
      · exact ⟨tracked.keyed, fun _ _ => rfl, tracked.single sample.monitor⟩

/-- A step keeps what every run keeps. -/
theorem tracked_step (sample : MonitorSample ν) (tracked : Tracked state) :
    Tracked (evaluateAndCollect state sample).1 := by
  obtain ⟨keyed, others, single⟩ := collect_rows tracked sample
  refine ⟨fun monitor => ?_, keyed, fun monitor => ?_, fun monitor alert => ?_⟩
  · rw [collect_histories]
    exact kept_remember tracked.kept sample monitor
  · by_cases same : monitor = sample.monitor
    · exact same ▸ single
    · rw [others monitor same]
      exact tracked.single monitor
  · rw [collect_histories] at alert ⊢
    by_cases same : monitor = sample.monitor
    · subst same
      rw [remember_getLast?, effectiveLevel_annotated] at alert
      obtain ⟨-, -, incident, alone, named⟩ := collect_alert tracked sample alert
      refine ⟨incident, alone, fun key found => ?_⟩
      rw [named]
      refine alertKey_remembered (tracked.kept sample.monitor) _ ?_
      simpa only [remember, Function.update_self] using found
    · rw [remember_other _ _ same] at alert ⊢
      rw [others monitor same]
      exact tracked.alerted monitor alert

/-! ## The law -/

/-- A recovery announces the incident that was active and leaves none active, and an alert
leaves exactly one active. -/
def Closes (state : CollectorState ν) (sample : MonitorSample ν) : Prop :=
  ((evaluateAndCollect state sample).2.evaluation.transition = some .recovered →
    (∃ incident, state.store.active sample.monitor = [incident] ∧
      (evaluateAndCollect state sample).2.transition.map CollectorTransition.incidentId =
        some incident.id) ∧
    (evaluateAndCollect state sample).1.store.active sample.monitor = []) ∧
  ((evaluateAndCollect state sample).2.evaluation.level.isAlert →
    ((evaluateAndCollect state sample).1.store.active sample.monitor).length = 1)

/-- At a recovery, some remembered key is not the baseline key, or the active incident has the
key of the sample itself. -/
def Recalls (state : CollectorState ν) (sample : MonitorSample ν) : Prop :=
  (state.evaluate sample).transition = some .recovered →
    (∃ item ∈ state.histories sample.monitor,
      rememberedKey item ≠ some (recoveryBaselineKey sample.monitor)) ∨
    ∀ incident ∈ state.store.active sample.monitor,
      incident.dedupeKey = (state.evaluate sample).dedupeKey

/-- A step of a tracked collector closes its incident exactly when it recalls its key. -/
theorem closes_step (sample : MonitorSample ν) (tracked : Tracked state) :
    Closes state sample ↔ Recalls state sample := by
  unfold Closes Recalls
  rw [collect_evaluation, ← dedupeBefore_isSome (tracked.kept sample.monitor)]
  have opened : (state.evaluate sample).level.isAlert →
      ((evaluateAndCollect state sample).1.store.active sample.monitor).length = 1 := by
    intro alert
    obtain ⟨-, -, incident, alone, -⟩ := collect_alert tracked sample alert
    rw [alone, List.length_singleton]
  rw [and_iff_left opened]
  refine imp_congr_right fun recovers => ?_
  obtain ⟨incident, alone, named, closes, misses⟩ :=
    collect_recovered_active tracked sample recovers
  rw [previousDedupe_eq (tracked.kept sample.monitor)] at closes misses
  rw [alone]
  constructor
  · rintro ⟨-, empty⟩
    cases found : dedupeBeforeRecoveryBaseline sample.monitor (state.histories sample.monitor) with
    | some key => exact .inl rfl
    | none =>
      refine .inr fun other member => ?_
      rw [mem_singleton.mp member]
      by_contra differs
      rw [found] at misses
      rw [misses differs] at empty
      exact List.cons_ne_nil _ _ empty
  · intro recalls
    have same : incident.dedupeKey =
        (dedupeBeforeRecoveryBaseline sample.monitor (state.histories sample.monitor)).getD
          (state.evaluate sample).dedupeKey := by
      cases found : dedupeBeforeRecoveryBaseline sample.monitor
          (state.histories sample.monitor) with
      | some key => exact named key found
      | none =>
        rw [found] at recalls
        exact recalls.resolve_left (by simp) incident (.head _)
    obtain ⟨empty, id⟩ := closes same
    exact ⟨⟨incident, rfl, id⟩, empty⟩

/-- A run of the collector from empty histories and an empty store closes at every recovery the
incident it is about, and has exactly one active after every alert, exactly when every recovery
recalls its key. -/
theorem closes_iff (samples : List (MonitorSample ν)) :
    Machine.Along evaluateAndCollect Closes CollectorState.empty samples ↔
      Machine.Along evaluateAndCollect Recalls CollectorState.empty samples :=
  Machine.along_congr tracked_step closes_step tracked_empty samples

/-- After any run of the collector a monitor has at most one active incident, and exactly one where its
last remembered level is an alert: the one under the key that its history recalls, if it recalls one. -/
theorem one_active_incident (samples : List (MonitorSample ν)) (monitor : MonitorName) :
    let state := Machine.after evaluateAndCollect (CollectorState.empty : CollectorState ν) samples
    (state.store.active monitor).length ≤ 1 ∧
      ((effectiveLevel (state.histories monitor).getLast?).isAlert →
        ∃ incident, state.store.active monitor = [incident] ∧
          ∀ key, dedupeBeforeRecoveryBaseline monitor (state.histories monitor) = some key →
            incident.dedupeKey = key) := by
  intro state
  have tracked : Tracked state := Machine.invariant_after tracked_step tracked_empty samples
  exact ⟨tracked.single monitor, tracked.alerted monitor⟩

/-- A liveness probe's sample with nothing but its level. -/
def livenessSample (level : MonitorLevel) : MonitorSample Float where
  monitor := .appLiveness
  level := level
  observedAt := "2026-01-01T00:00:00.000Z"
  latencyMs := none
  details := []
  errorCode := none

/-- A monitor that flaps: it answers once and fails once, a number of times. -/
def flapping : Nat → List (MonitorSample Float)
  | 0 => []
  | times + 1 => livenessSample .healthy :: livenessSample .critical :: flapping times

/-- Two failures, sixty flaps and two answers: the recovery inserts a row of its own and the
active incident stays open, its key having left the window of remembered samples. -/
theorem closes_broken :
    ¬ Machine.Along evaluateAndCollect Closes CollectorState.empty
      ((livenessSample .critical :: livenessSample .critical :: flapping 60 ++
        [livenessSample .healthy]) ++ [livenessSample .healthy]) := by
  intro law
  have last := (Machine.along_iff _ _).mp law _ _ [] rfl
  exact absurd (last.1 (by decide +kernel)).2 (by decide +kernel)

end NancyMan.Collector
