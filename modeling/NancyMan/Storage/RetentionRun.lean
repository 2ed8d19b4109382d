import NancyMan.Lib.Js
import NancyMan.Storage.Retention

/-!
# Batched retention is the original one

What a key's daily rollup comes to is settled by what it has, what is staged for it and the old
samples that are left to count; each batch leaves that, whichever rows it selects. A run ends with
nothing staged and nothing old left, where the daily rollups are what was settled at its start.
-/
namespace NancyMan.Storage

open Table OpsStore RetentionRuntime
open List (append_nil filter_append foldl_cons length_map map_nil mem_filter mem_filterMap mem_map
  mem_of_mem_take)

/-! ## Counting -/

def Sample.rollup (row : Sample) : Rollup :=
  ⟨1, row.observedAt, retentionLevelFromRank (retentionLevelRank row.level)⟩

/-- Counting a sample in a group adds the sample's rollup. -/
theorem rollup_countSample {group : RollupGroup} {row : Sample} {ranked} :
    RollupGroup.rollup ⟨group.key, group.sampleCount + 1,
        if group.lastObservedAt < row.observedAt then row.observedAt else group.lastObservedAt,
        max group.rank (retentionLevelRank row.level), ranked⟩ =
      group.rollup + row.rollup := by
  have last : (if group.lastObservedAt < row.observedAt then row.observedAt
      else group.lastObservedAt) = max group.lastObservedAt row.observedAt := by
    split
    · rename_i later
      exact (max_eq_right later.le).symm
    · rename_i earlier
      exact (max_eq_left (not_lt.mp earlier)).symm
  simp only [RollupGroup.rollup, Sample.rollup, Rollup.add_def, last,
    retentionLevelRank_fromRank group.ranked,
    retentionLevelRank_fromRank (retentionLevelRank_bounds row.level)]

/-- A counted sample is added to the total of its key. -/
theorem total_countSample (row : Sample) (groups : List RollupGroup) (key : RollupKey) :
    total RollupGroup.key RollupGroup.rollup (countSample row groups) key =
      total RollupGroup.key RollupGroup.rollup groups key +
        if row.key = key then (row.rollup : WithZero Rollup) else 0 := by
  induction groups with
  | nil =>
    rw [countSample, total_cons, total_nil, add_zero, zero_add]
    rfl
  | cons group rest ih =>
    rw [countSample]
    split
    · rename_i same
      rw [total_cons, total_cons, rollup_countSample]
      by_cases found : row.key = key
      · rw [if_pos (same.trans found), if_pos (same.trans found), if_pos found, WithZero.coe_add,
          add_right_comm]
      · have other : group.key ≠ key := fun wrong => found (same.symm.trans wrong)
        rw [if_neg other, if_neg other, if_neg found, add_zero]
    · rw [total_cons, total_cons, ih, add_assoc]

def counted (cutoffs : Cutoffs) (rows : List Sample) : List Sample :=
  rows.filter fun row => cutoffs.rollup ≤ row.observedAt

/-- The groups of samples have the totals of the samples that are counted. -/
theorem total_groupSamples (cutoffs : Cutoffs) (rows : List Sample) (key : RollupKey) :
    total RollupGroup.key RollupGroup.rollup (groupSamples cutoffs rows) key =
      total Sample.key Sample.rollup (counted cutoffs rows) key := by
  have folded : ∀ (rows : List Sample) (groups : List RollupGroup),
      total RollupGroup.key RollupGroup.rollup
          (rows.foldl (fun groups row => countSample row groups) groups) key =
        total RollupGroup.key RollupGroup.rollup groups key +
          total Sample.key Sample.rollup rows key := by
    intro rows
    induction rows with
    | nil => exact fun groups => (add_zero _).symm
    | cons row rest ih =>
      intro groups
      rw [foldl_cons, ih, total_countSample, total_cons, add_assoc]
  exact (folded (counted cutoffs rows) []).trans (zero_add _)

/-- The rollup of samples of one key is the sum of theirs. -/
theorem aggregate_sum (first : Sample) (rest : List Sample) :
    (aggregate first rest : WithZero Rollup) =
      ((first :: rest).map fun row => (row.rollup : WithZero Rollup)).sum := by
  have folded : ∀ (rest : List Sample) (count rank : Nat) (last : Timestamp)
      (_ : 1 ≤ rank ∧ rank ≤ 4),
      ((⟨rest.length + count, rest.foldl (fun last row => max last row.observedAt) last,
          retentionLevelFromRank (rest.foldl
            (fun rank row => max rank (retentionLevelRank row.level)) rank)⟩ : Rollup) :
          WithZero Rollup) =
        ((⟨count, last, retentionLevelFromRank rank⟩ : Rollup) : WithZero Rollup) +
          (rest.map fun row => (row.rollup : WithZero Rollup)).sum := by
    intro rest
    induction rest with
    | nil =>
      simp
    | cons row rest ih =>
      intro count rank last ranked
      have next := ih (count + 1) (max rank (retentionLevelRank row.level))
        (max last row.observedAt) (max_ranked ranked (retentionLevelRank_bounds row.level))
      rw [foldl_cons, foldl_cons, List.map_cons, List.sum_cons, ← add_assoc,
        ← WithZero.coe_add, List.length_cons, Nat.add_right_comm, Nat.add_assoc, next]
      simp only [Sample.rollup, Rollup.add_def, retentionLevelRank_fromRank ranked,
        retentionLevelRank_fromRank (retentionLevelRank_bounds row.level)]
  exact folded rest 1 (retentionLevelRank first.level) first.observedAt
    (retentionLevelRank_bounds first.level)

/-! ## What is settled -/

/-- A rollup into which something is merged. -/
def settle (current : Option Rollup) : WithZero Rollup → Option Rollup
  | none => current
  | some added => some (Table.merged mergeRollup current added)

theorem settle_zero (current : Option Rollup) : settle current 0 = current := rfl

theorem settle_coe (current : Option Rollup) (added : Rollup) :
    settle current (added : WithZero Rollup) = some (merged mergeRollup current added) := rfl

/-- The groups of a selection have different keys. -/
theorem groupBy_distinct (rows : List Sample) : ((groupBy rows).map Prod.fst).Nodup := by
  have sub : ((groupBy rows).map Prod.fst).Sublist (rows.map Sample.key).dedup := by
    unfold groupBy
    induction (rows.map Sample.key).dedup with
    | nil => exact List.Sublist.refl _
    | cons key keys ih =>
      rw [List.filterMap_cons]
      cases rows.filter fun row => row.key = key with
      | nil => exact ih.cons key
      | cons first rest => exact ih.cons_cons key
  exact sub.nodup (List.nodup_dedup _)

/-- A group of a selection has the total of its key. -/
theorem total_of_mem_groupBy {rows : List Sample} {key : RollupKey} {rollup : Rollup}
    (member : (key, rollup) ∈ groupBy rows) :
    total Sample.key Sample.rollup rows key = rollup := by
  obtain ⟨other, -, found⟩ := mem_filterMap.mp member
  split at found
  · cases found
  · rename_i first rest rowsOf
    cases found
    rw [total, rowsOf, aggregate_sum]

/-- A key without a group has no samples. -/
theorem total_of_notMem_groupBy {rows : List Sample} {key : RollupKey}
    (absent : key ∉ (groupBy rows).map Prod.fst) :
    total Sample.key Sample.rollup rows key = 0 := by
  cases rowsOf : rows.filter fun row => row.key = key with
  | nil =>
    rw [total, rowsOf]
    rfl
  | cons first rest =>
    have member : first ∈ rows.filter fun row => row.key = key := by
      rw [rowsOf]
      exact .head _
    obtain ⟨present, same⟩ := mem_filter.mp member
    have keyed : key ∈ (rows.map Sample.key).dedup :=
      List.mem_dedup.mpr (mem_map.mpr ⟨first, present, decide_eq_true_iff.mp same⟩)
    refine absurd (mem_map.mpr ⟨(key, aggregate first rest), ?_, rfl⟩) absent
    refine mem_filterMap.mpr ⟨key, keyed, ?_⟩
    rw [rowsOf]

/-- The groups of a selection settle each key by its total. -/
theorem lookup_merged (table : Table RollupKey Rollup) (rows : List Sample) (key : RollupKey) :
    (table.upsertAll mergeRollup (groupBy rows)).lookup key =
      settle (table.lookup key) (total Sample.key Sample.rollup rows key) := by
  by_cases present : key ∈ (groupBy rows).map Prod.fst
  · obtain ⟨⟨other, rollup⟩, member, rfl⟩ := mem_map.mp present
    rw [lookup_upsertAll_of_mem mergeRollup table (groupBy_distinct rows) member,
      total_of_mem_groupBy member, settle_coe]
  · rw [lookup_upsertAll_of_notMem mergeRollup table present, total_of_notMem_groupBy present,
      settle_zero]

/-! ## What every batch keeps -/

def OpsStore.old (store : OpsStore) (cutoffs : Cutoffs) : List Sample :=
  store.samples.rows.filter (isOld cutoffs)

/-- What the daily rollup of a key comes to. -/
def OpsStore.settled (store : OpsStore) (cutoffs : Cutoffs) (key : RollupKey) : Option Rollup :=
  settle (store.dailyRollups.lookup key)
    (store.stage.weight key +
      Table.total Sample.key Sample.rollup (counted cutoffs (store.old cutoffs)) key)

/-- What the deliveries come to. -/
def OpsStore.finalDeliveries (store : OpsStore) (cutoffs : Cutoffs) : List AlertDelivery :=
  (unlinkIncidents ((store.incidents.filter (Incident.isDue cutoffs)).map Incident.id)
    store.alertDeliveries).filter fun row => !row.isDue cutoffs

/-- A run that started in one store has come to another, and new samples were recorded. -/
structure Progress (cutoffs : Cutoffs) (start : OpsStore) (recorded : List Sample)
    (store : OpsStore) : Prop where
  samples : (store.samples.rows.filter fun row => !isOld cutoffs row) =
    (start.samples.rows.filter fun row => !isOld cutoffs row) ++ recorded
  rollups : ∀ key, isDueKey cutoffs key = false →
    store.settled cutoffs key = start.settled cutoffs key
  incidents : (store.incidents.filter fun row => !row.isDue cutoffs) =
    start.incidents.filter fun row => !row.isDue cutoffs
  deliveries : store.finalDeliveries cutoffs = start.finalDeliveries cutoffs
  auditEvents : (store.auditEvents.filter fun row => !row.isDue cutoffs) =
    start.auditEvents.filter fun row => !row.isDue cutoffs
  loginAttempts : (store.loginAttempts.filter fun row => !row.isDue cutoffs) =
    start.loginAttempts.filter fun row => !row.isDue cutoffs

section Phases

variable {runtime : RetentionRuntime} {cutoffs : Cutoffs} {start store : OpsStore}
  {recorded : List Sample} (progress : Progress cutoffs start recorded store)

include progress

/-- A batch of samples leaves what is settled. -/
theorem pruneSamples_progress :
    Progress cutoffs start recorded (runtime.pruneSamples cutoffs store).1 where
  __ := progress
  samples := (remaining_undue _ _).trans progress.samples
  rollups key kept := by
    rw [← progress.rollups key kept]
    let ids := (runtime.selectRaw cutoffs store.samples).map Sample.id
    let rows := store.samples.rows
    have split : total Sample.key Sample.rollup
        (counted cutoffs (removed (isOld cutoffs) Sample.id ids rows)) key +
          total Sample.key Sample.rollup
            (counted cutoffs ((remaining (isOld cutoffs) Sample.id ids rows).filter
              (isOld cutoffs))) key =
        total Sample.key Sample.rollup (counted cutoffs (rows.filter (isOld cutoffs))) key := by
      rw [← total_append, counted, counted, ← filter_append]
      exact total_perm _ _ ((due_removed_remaining ids rows).filter _) key
    have sorted : total Sample.key Sample.rollup (counted cutoffs
        ((removed (isOld cutoffs) Sample.id ids rows).mergeSort Sample.notAfter)) key =
          total Sample.key Sample.rollup
            (counted cutoffs (removed (isOld cutoffs) Sample.id ids rows)) key :=
      total_perm _ _ ((List.mergeSort_perm _ _).filter _) key
    have staged : (runtime.pruneSamples cutoffs store).1.stage.weight key =
        store.stage.weight key + total Sample.key Sample.rollup
          (counted cutoffs (removed (isOld cutoffs) Sample.id ids rows)) key := by
      rw [← sorted, ← total_groupSamples]
      exact weight_addAll _ _ _ _ key
    rw [settled, settled, staged, add_assoc]
    exact congrArg (fun added => settle (store.dailyRollups.lookup key)
      (store.stage.weight key + added)) split

omit progress in
/-- The keys of the staged rows of a batch. -/
theorem map_stagedRows :
    (runtime.stagedRows store).map Prod.fst =
      (store.stage.keys.sort (· ≤ ·)).take runtime.batchSize := by
  have present : ∀ keys : List RollupKey, (∀ key ∈ keys, key ∈ store.stage.keys) →
      (keys.filterMap fun key => (store.stage.lookup key).map fun rollup => (key, rollup)).map
        Prod.fst = keys := by
    intro keys
    induction keys with
    | nil => exact fun _ => rfl
    | cons key rest ih =>
      intro every
      obtain ⟨rollup, found⟩ := Finmap.mem_iff.mp
        (Finmap.mem_keys.mp (every key List.mem_cons_self))
      rw [List.filterMap_cons, found]
      exact congrArg (key :: ·) (ih fun other member => every other (.tail _ member))
  exact present _ fun key member => (Finset.mem_sort _).mp (mem_of_mem_take member)

omit progress in
theorem lookup_of_mem_stagedRows {key : RollupKey} {rollup : Rollup}
    (member : (key, rollup) ∈ runtime.stagedRows store) : store.stage.lookup key = some rollup := by
  obtain ⟨other, -, found⟩ := mem_filterMap.mp member
  obtain ⟨value, looked, same⟩ := Option.map_eq_some_iff.mp found
  cases same
  exact looked

/-- A batch of the stage leaves what is settled, once no old samples are left. -/
theorem mergeStage_progress (counted : store.old cutoffs = []) :
    Progress cutoffs start recorded (runtime.mergeStage store).1 where
  __ := progress
  rollups key kept := by
    rw [← progress.rollups key kept]
    have uncounted : ∀ merged : OpsStore, merged.samples = store.samples →
        merged.settled cutoffs key =
          settle (merged.dailyRollups.lookup key) (merged.stage.weight key) := by
      intro merged same
      have left : merged.old cutoffs = [] := by rw [old, same, ← old, counted]
      rw [settled, left, Storage.counted, List.filter_nil, total_nil, add_zero]
    rw [uncounted store rfl, uncounted (runtime.mergeStage store).1 rfl]
    have distinct : ((runtime.stagedRows store).map Prod.fst).Nodup := by
      rw [map_stagedRows]
      exact (Finset.sort_nodup _ _).sublist (List.take_sublist _ _)
    by_cases staged : key ∈ (runtime.stagedRows store).map Prod.fst
    · obtain ⟨⟨other, rollup⟩, member, rfl⟩ := mem_map.mp staged
      have erased : (runtime.mergeStage store).1.stage.weight other = 0 :=
        (lookup_eraseAll _ _ other).trans (if_pos staged)
      have merged := lookup_upsertAll_of_mem mergeRollup store.dailyRollups distinct member
      rw [erased, settle_zero, show store.stage.weight other = (rollup : WithZero Rollup) from
        lookup_of_mem_stagedRows member, settle_coe]
      exact merged
    · have same : (runtime.mergeStage store).1.stage.weight key = store.stage.weight key :=
        (lookup_eraseAll _ _ key).trans (if_neg staged)
      rw [same]
      exact congrArg (fun current => settle current (store.stage.weight key))
        (lookup_upsertAll_of_notMem mergeRollup store.dailyRollups staged)

/-- A batch of old rollups leaves what is settled of the other days. -/
theorem deleteRollups_progress :
    Progress cutoffs start recorded (runtime.deleteRollups cutoffs store).1 where
  __ := progress
  rollups key kept := by
    rw [← progress.rollups key kept]
    have absent : key ∉ runtime.oldestRollups cutoffs store := by
      intro member
      have due := (mem_filter.mp (mem_of_mem_take member)).2
      rw [kept] at due
      cases due
    exact congrArg (fun current => settle current _)
      ((lookup_eraseAll _ _ key).trans (if_neg absent))

omit progress in
/-- References are set to null at once or one after the other. -/
theorem unlinkIncidents_append (first second : List String) (deliveries : List AlertDelivery) :
    unlinkIncidents (first ++ second) deliveries =
      unlinkIncidents second (unlinkIncidents first deliveries) := by
  rw [unlinkIncidents, unlinkIncidents, unlinkIncidents, List.map_map]
  refine List.map_congr_left fun delivery _ => ?_
  simp only [Function.comp_apply, Option.filter_filter, AlertDelivery.mk.injEq, true_and, and_true]
  refine congrArg (fun test => Option.filter test delivery.incidentId) (funext fun id => ?_)
  simp

omit progress in
theorem unlinkIncidents_perm {first second : List String} (same : first.Perm second)
    (deliveries : List AlertDelivery) :
    unlinkIncidents first deliveries = unlinkIncidents second deliveries := by
  have tests : (fun id => !first.contains id) = fun id => !second.contains id := by
    simp [same.mem_iff]
  rw [unlinkIncidents, unlinkIncidents, tests]

omit progress in
/-- Without a deleted incident every reference stays. -/
theorem unlinkIncidents_nil (deliveries : List AlertDelivery) :
    unlinkIncidents [] deliveries = deliveries := by
  have kept : (fun delivery : AlertDelivery => { delivery with
      incidentId := delivery.incidentId.filter fun id => !([] : List String).contains id }) = id := by
    funext delivery
    obtain ⟨rowid, incidentId, state, nextAttemptAt⟩ := delivery
    cases incidentId with
    | none => rfl
    | some id => rfl
  rw [unlinkIncidents, kept, List.map_id]

/-- A batch of old incidents leaves what the deliveries come to. -/
theorem deleteIncidents_progress :
    Progress cutoffs start recorded (runtime.deleteIncidents cutoffs store).1 where
  __ := progress
  incidents := (remaining_undue _ _).trans progress.incidents
  deliveries := by
    rw [← progress.deliveries, finalDeliveries, finalDeliveries]
    refine congrArg (List.filter fun row => !AlertDelivery.isDue cutoffs row) ?_
    refine (unlinkIncidents_append _ _ _).symm.trans (unlinkIncidents_perm ?_ _)
    rw [← List.map_append]
    exact (due_removed_remaining _ _).map _

omit progress in
theorem filter_unlinkIncidents (deleted : List String) (deliveries : List AlertDelivery) :
    (unlinkIncidents deleted deliveries).filter (fun row => !row.isDue cutoffs) =
      unlinkIncidents deleted (deliveries.filter fun row => !row.isDue cutoffs) :=
  List.filter_map

/-- A batch of old deliveries leaves what the deliveries come to. -/
theorem deleteDeliveries_progress :
    Progress cutoffs start recorded (runtime.deleteDeliveries cutoffs store).1 where
  __ := progress
  deliveries := by
    rw [← progress.deliveries, finalDeliveries, finalDeliveries,
      filter_unlinkIncidents, filter_unlinkIncidents]
    exact congrArg _ (remaining_undue _ _)

/-- A batch of old audit events leaves the others. -/
theorem deleteAuditEvents_progress :
    Progress cutoffs start recorded (runtime.deleteAuditEvents cutoffs store).1 where
  __ := progress
  auditEvents := (remaining_undue _ _).trans progress.auditEvents

/-- A batch of old login attempts leaves the others. -/
theorem deleteLoginAttempts_progress :
    Progress cutoffs start recorded (runtime.deleteLoginAttempts cutoffs store).1 where
  __ := progress
  loginAttempts := (remaining_undue _ _).trans progress.loginAttempts

omit progress

/-! ## What every batch uses up -/

/-- The rows that the cleanup of a run deletes. -/
def OpsStore.dueRows (store : OpsStore) (cutoffs : Cutoffs) : Nat :=
  (store.dailyRollups.keys.filter fun key => isDueKey cutoffs key = true).card +
    (store.incidents.filter (Incident.isDue cutoffs)).length +
    (store.alertDeliveries.filter (AlertDelivery.isDue cutoffs)).length +
    (store.auditEvents.filter (AuditEvent.isDue cutoffs)).length +
    (store.loginAttempts.filter (LoginAttempt.isDue cutoffs)).length

def OpsStore.left (store : OpsStore) (cutoffs : Cutoffs) : Nat :=
  3 * (store.old cutoffs).length + 2 * store.stage.keys.card + store.dueRows cutoffs

theorem length_remaining {ρ : Type} (isDue : ρ → Bool) (idOf : ρ → Nat) (ids : List Nat)
    (rows : List ρ) :
    (removed isDue idOf ids rows).length + ((remaining isDue idOf ids rows).filter isDue).length =
      (rows.filter isDue).length := by
  rw [← List.length_append]
  exact (due_removed_remaining ids rows).length_eq

/-- A batch with rows leaves fewer that are due. -/
theorem remaining_shorter {ρ : Type} {isDue : ρ → Bool} {idOf : ρ → Nat} {ids : List Nat}
    {rows : List ρ} (some : 0 < (removed isDue idOf ids rows).length) :
    ((remaining isDue idOf ids rows).filter isDue).length < (rows.filter isDue).length := by
  have split := length_remaining isDue idOf ids rows
  omega

/-- Counting makes no more groups than there are samples. -/
theorem length_groupSamples (rows : List Sample) :
    (groupSamples cutoffs rows).length ≤ rows.length := by
  have one : ∀ (row : Sample) (groups : List RollupGroup),
      (countSample row groups).length ≤ groups.length + 1 := by
    intro row groups
    induction groups with
    | nil => exact Nat.le_refl _
    | cons group rest ih =>
      rw [countSample]
      split
      · exact Nat.le_succ _
      · exact Nat.succ_le_succ ih
  have folded : ∀ (rows : List Sample) (groups : List RollupGroup),
      (rows.foldl (fun groups row => countSample row groups) groups).length ≤
        groups.length + rows.length := by
    intro rows
    induction rows with
    | nil => exact fun groups => Nat.le_refl _
    | cons row rest ih =>
      intro groups
      have first := one row groups
      have later := ih (countSample row groups)
      rw [foldl_cons, List.length_cons]
      omega
  have all := folded (rows.filter fun row => cutoffs.rollup ≤ row.observedAt) []
  have fewer := List.length_filter_le (fun row => decide (cutoffs.rollup ≤ row.observedAt)) rows
  rw [List.length_nil, Nat.zero_add] at all
  exact all.trans fewer

/-- A batch of samples leaves less to do. -/
theorem pruneSamples_left (rows : 0 < (runtime.pruneSamples cutoffs store).2) :
    (runtime.pruneSamples cutoffs store).1.left cutoffs < store.left cutoffs := by
  let ids := (runtime.selectRaw cutoffs store.samples).map Sample.id
  let out := removed (isOld cutoffs) Sample.id ids store.samples.rows
  have keys : (runtime.pruneSamples cutoffs store).1.stage.keys.card ≤
      store.stage.keys.card + out.length := by
    have union := keys_addAll RollupGroup.key RollupGroup.rollup store.stage
      (groupSamples cutoffs (out.mergeSort Sample.notAfter))
    have groups : (groupSamples cutoffs (out.mergeSort Sample.notAfter)).length ≤
        (out.mergeSort Sample.notAfter).length := length_groupSamples _
    have sorted := (List.mergeSort_perm out Sample.notAfter).length_eq
    have distinct := List.toFinset_card_le
      ((groupSamples cutoffs (out.mergeSort Sample.notAfter)).map RollupGroup.key)
    rw [length_map] at distinct
    calc (runtime.pruneSamples cutoffs store).1.stage.keys.card
      _ = _ := congrArg Finset.card union
      _ ≤ _ := Finset.card_union_le _ _
      _ ≤ store.stage.keys.card + out.length := by omega
  have samples : out.length + ((runtime.pruneSamples cutoffs store).1.old cutoffs).length =
      (store.old cutoffs).length := length_remaining _ _ ids store.samples.rows
  have others : (runtime.pruneSamples cutoffs store).1.dueRows cutoffs = store.dueRows cutoffs := rfl
  have positive : 0 < out.length := rows
  rw [left, left, others]
  omega

/-- A batch of the stage leaves less to do. -/
theorem mergeStage_left (rows : 0 < (runtime.mergeStage store).2) :
    (runtime.mergeStage store).1.left cutoffs < store.left cutoffs := by
  let staged := (runtime.stagedRows store).map Prod.fst
  have taken : staged = (store.stage.keys.sort (· ≤ ·)).take runtime.batchSize := map_stagedRows
  have subset : staged.toFinset ⊆ store.stage.keys := by
    intro key member
    rw [List.mem_toFinset, taken] at member
    exact (Finset.mem_sort _).mp (mem_of_mem_take member)
  have size : staged.toFinset.card = staged.length := by
    refine List.toFinset_card_of_nodup ?_
    rw [taken]
    exact (Finset.sort_nodup _ _).sublist (List.take_sublist _ _)
  have stage : (runtime.mergeStage store).1.stage.keys.card + staged.length =
      store.stage.keys.card := by
    have erased : (runtime.mergeStage store).1.stage.keys = store.stage.keys \ staged.toFinset :=
      keys_eraseAll _ _
    rw [erased, ← size]
    exact Finset.card_sdiff_add_card_eq_card subset
  have daily : (runtime.mergeStage store).1.dueRows cutoffs ≤ store.dueRows cutoffs + staged.length := by
    have merged : (runtime.mergeStage store).1.dailyRollups.keys =
        store.dailyRollups.keys ∪ staged.toFinset := keys_upsertAll _ _ _
    have due := (Finset.card_union_le
        (store.dailyRollups.keys.filter fun key => isDueKey cutoffs key = true)
        (staged.toFinset.filter fun key => isDueKey cutoffs key = true)).trans
      (Nat.add_le_add_left (Finset.card_filter_le _ _) _)
    rw [← Finset.filter_union, ← merged, size] at due
    simp only [dueRows]
    simp only [mergeStage] at due ⊢
    omega
  have positive : 0 < staged.length := by
    rw [length_map]
    exact rows
  have samples : (runtime.mergeStage store).1.old cutoffs = store.old cutoffs := rfl
  rw [left, left, samples]
  omega

theorem left_of_dueRows {after : OpsStore} (samples : after.samples = store.samples)
    (stage : after.stage = store.stage)
    (less : after.dueRows cutoffs < store.dueRows cutoffs) :
    after.left cutoffs < store.left cutoffs := by
  rw [left, left, old, old, samples, stage]
  omega

/-- A batch of old rollups leaves less to do. -/
theorem deleteRollups_left (rows : 0 < (runtime.deleteRollups cutoffs store).2) :
    (runtime.deleteRollups cutoffs store).1.left cutoffs < store.left cutoffs := by
  refine left_of_dueRows rfl rfl ?_
  let keys := runtime.oldestRollups cutoffs store
  have erased : (runtime.deleteRollups cutoffs store).1.dailyRollups.keys =
      store.dailyRollups.keys \ keys.toFinset := keys_eraseAll _ _
  have fewer : ((runtime.deleteRollups cutoffs store).1.dailyRollups.keys.filter fun key =>
      isDueKey cutoffs key = true).card <
        (store.dailyRollups.keys.filter fun key => isDueKey cutoffs key = true).card := by
    obtain ⟨key, member⟩ := List.exists_mem_of_length_pos (l := keys) rows
    obtain ⟨sorted, dueKey⟩ := mem_filter.mp (mem_of_mem_take member)
    refine Finset.card_lt_card (Finset.ssubset_iff_of_subset ?_ |>.mpr ⟨key, ?_, ?_⟩)
    · rw [erased]
      exact Finset.filter_subset_filter _ Finset.sdiff_subset
    · exact Finset.mem_filter.mpr ⟨(Finset.mem_sort _).mp sorted, dueKey⟩
    · rw [erased]
      intro still
      exact (Finset.mem_sdiff.mp (Finset.mem_filter.mp still).1).2 (List.mem_toFinset.mpr member)
  simp only [dueRows]
  simp only [deleteRollups] at fewer ⊢
  omega

/-- A batch of old incidents leaves less to do. -/
theorem deleteIncidents_left (rows : 0 < (runtime.deleteIncidents cutoffs store).2) :
    (runtime.deleteIncidents cutoffs store).1.left cutoffs < store.left cutoffs := by
  refine left_of_dueRows rfl rfl ?_
  have fewer := remaining_shorter rows
  have deliveries : ∀ deleted, ((unlinkIncidents deleted store.alertDeliveries).filter
      (AlertDelivery.isDue cutoffs)).length =
        (store.alertDeliveries.filter (AlertDelivery.isDue cutoffs)).length := by
    intro deleted
    rw [unlinkIncidents, List.filter_map, length_map]
    rfl
  simp only [dueRows, deleteIncidents, deliveries] at fewer ⊢
  omega

/-- A batch of old deliveries leaves less to do. -/
theorem deleteDeliveries_left (rows : 0 < (runtime.deleteDeliveries cutoffs store).2) :
    (runtime.deleteDeliveries cutoffs store).1.left cutoffs < store.left cutoffs :=
  left_of_dueRows rfl rfl (Nat.add_lt_add_right (Nat.add_lt_add_right
    (Nat.add_lt_add_left (remaining_shorter rows) _) _) _)

/-- A batch of old audit events leaves less to do. -/
theorem deleteAuditEvents_left (rows : 0 < (runtime.deleteAuditEvents cutoffs store).2) :
    (runtime.deleteAuditEvents cutoffs store).1.left cutoffs < store.left cutoffs :=
  left_of_dueRows rfl rfl (Nat.add_lt_add_right (Nat.add_lt_add_left (remaining_shorter rows) _) _)

/-- A batch of old login attempts leaves less to do. -/
theorem deleteLoginAttempts_left (rows : 0 < (runtime.deleteLoginAttempts cutoffs store).2) :
    (runtime.deleteLoginAttempts cutoffs store).1.left cutoffs < store.left cutoffs :=
  left_of_dueRows rfl rfl (Nat.add_lt_add_left (remaining_shorter rows) _)

/-! ## A batch and the end of a run -/

/-- A batch of samples finds one as long as an old one of a noted monitor is left. -/
theorem old_eq_nil {monitors : List String} (positive : 0 < runtime.batchSize)
    (noted : store.samples.knownRetentionMonitors = some monitors)
    (idle : (runtime.pruneSamples cutoffs store).2 = 0) : store.old cutoffs = [] := by
  by_contra old
  obtain ⟨row, member⟩ := List.exists_mem_of_ne_nil _ old
  obtain ⟨present, isOld⟩ := mem_filter.mp member
  have ofMonitor : row ∈ store.samples.rows.filter fun other =>
      other.monitor = row.monitor && Storage.isOld cutoffs other :=
    mem_filter.mpr ⟨present, by simp [isOld]⟩
  have first : firstOf Sample.notAfter runtime.batchSize (store.samples.rows.filter fun other =>
      other.monitor = row.monitor && Storage.isOld cutoffs other) ≠ [] :=
    firstOf_ne_nil positive (List.ne_nil_of_mem ofMonitor)
  obtain ⟨candidate, among⟩ := List.exists_mem_of_ne_nil _ first
  have known : row.monitor ∈ monitors := store.samples.covered monitors noted row present
  have offered : candidate ∈ (store.samples.knownRetentionMonitors.getD []).flatMap fun monitor =>
      firstOf Sample.notAfter runtime.batchSize
        (store.samples.rows.filter fun row => row.monitor = monitor && Storage.isOld cutoffs row) := by
    rw [noted]
    exact List.mem_flatMap.mpr ⟨row.monitor, known, among⟩
  have selected : runtime.selectRaw cutoffs store.samples ≠ [] :=
    firstOf_ne_nil positive (List.ne_nil_of_mem offered)
  obtain ⟨chosen, chosenMember⟩ := List.exists_mem_of_ne_nil _ selected
  obtain ⟨monitor, -, ofItsMonitor⟩ := List.mem_flatMap.mp (mem_of_firstOf chosenMember)
  obtain ⟨stored, due⟩ := mem_filter.mp (mem_of_firstOf ofItsMonitor)
  have taken := mem_removed stored (Bool.and_eq_true_iff.mp due).2
    (List.mem_map_of_mem (f := Sample.id) chosenMember)
  rw [List.eq_nil_of_length_eq_zero idle] at taken
  cases taken

/-- What a batch with rows leaves. -/
structure Advanced (cutoffs : Cutoffs) (start : OpsStore) (recorded : List Sample)
    (store : OpsStore) (done : OpsStore × RetentionBatchResult) : Prop where
  progress : Progress cutoffs start recorded done.1
  left : done.1.left cutoffs < store.left cutoffs
  retention : done.1.retention = store.retention
  result : ∃ table rows, 0 < rows ∧ done.2 = .batch table rows

/-- The first batch with rows gets a run on. -/
theorem firstBatch_advanced {monitors : List String} {done : OpsStore × RetentionBatchResult}
    (progress : Progress cutoffs start recorded store) (positive : 0 < runtime.batchSize)
    (noted : store.samples.knownRetentionMonitors = some monitors)
    (found : firstBatch store (runtime.phases cutoffs) = some done) :
    Advanced cutoffs start recorded store done := by
  simp only [phases, firstBatch] at found
  split at found
  · rename_i rows
    cases found
    exact ⟨pruneSamples_progress progress, pruneSamples_left rows, rfl, _, _, rows, rfl⟩
  rename_i idle
  have old : store.old cutoffs = [] := old_eq_nil positive noted (Nat.eq_zero_of_not_pos idle)
  split at found
  · rename_i rows
    cases found
    exact ⟨mergeStage_progress progress old, mergeStage_left rows, rfl, _, _, rows, rfl⟩
  split at found
  · rename_i rows
    cases found
    exact ⟨deleteRollups_progress progress, deleteRollups_left rows, rfl, _, _, rows, rfl⟩
  split at found
  · rename_i rows
    cases found
    exact ⟨deleteIncidents_progress progress, deleteIncidents_left rows, rfl, _, _, rows, rfl⟩
  split at found
  · rename_i rows
    cases found
    exact ⟨deleteDeliveries_progress progress, deleteDeliveries_left rows, rfl, _, _, rows, rfl⟩
  split at found
  · rename_i rows
    cases found
    exact ⟨deleteAuditEvents_progress progress, deleteAuditEvents_left rows, rfl, _, _, rows, rfl⟩
  split at found
  · rename_i rows
    cases found
    exact ⟨deleteLoginAttempts_progress progress, deleteLoginAttempts_left rows, rfl, _, _, rows,
      rfl⟩
  · cases found

/-- Nothing that a run works on is left. -/
structure Finished (cutoffs : Cutoffs) (store : OpsStore) : Prop where
  old : store.old cutoffs = []
  stage : store.stage = ∅
  dailyRollups : ∀ key, isDueKey cutoffs key = true → store.dailyRollups.lookup key = none
  incidents : store.incidents.filter (Incident.isDue cutoffs) = []
  alertDeliveries : store.alertDeliveries.filter (AlertDelivery.isDue cutoffs) = []
  auditEvents : store.auditEvents.filter (AuditEvent.isDue cutoffs) = []
  loginAttempts : store.loginAttempts.filter (LoginAttempt.isDue cutoffs) = []

/-- Where no batch is found none has rows. -/
theorem rows_of_firstBatch_eq_none {phases : List (RetentionTable × (OpsStore → OpsStore × Nat))}
    (idle : firstBatch store phases = none)
    (phase : RetentionTable × (OpsStore → OpsStore × Nat)) (member : phase ∈ phases) :
    (phase.2 store).2 = 0 := by
  induction phases with
  | nil => cases member
  | cons first rest ih =>
    rw [firstBatch] at idle
    split at idle
    · cases idle
    · rename_i rows
      rcases List.mem_cons.mp member with rfl | later
      · exact Nat.eq_zero_of_not_pos rows
      · exact ih idle later

/-- A batch of the stage has rows as long as there are some. -/
theorem stage_eq_empty (positive : 0 < runtime.batchSize)
    (idle : (runtime.mergeStage store).2 = 0) : store.stage = ∅ := by
  have taken : (store.stage.keys.sort (· ≤ ·)).take runtime.batchSize = [] := by
    rw [← map_stagedRows, List.eq_nil_of_length_eq_zero idle, map_nil]
  have sorted : store.stage.keys.sort (· ≤ ·) = [] := by
    rcases List.take_eq_nil_iff.mp taken with zero | nil
    · omega
    · exact nil
  refine Finmap.ext_lookup fun key => ?_
  rw [Finmap.lookup_empty, Finmap.lookup_eq_none, ← Finmap.mem_keys, ← Finset.mem_sort (· ≤ ·),
    sorted]
  exact List.not_mem_nil

/-- A batch of old rollups has rows as long as there are some. -/
theorem rollups_eq_none (positive : 0 < runtime.batchSize)
    (idle : (runtime.deleteRollups cutoffs store).2 = 0) {key : RollupKey}
    (due : isDueKey cutoffs key) : store.dailyRollups.lookup key = none := by
  have dueKeys : (store.dailyRollups.keys.sort (· ≤ ·)).filter (isDueKey cutoffs) = [] := by
    rcases List.take_eq_nil_iff.mp (List.eq_nil_of_length_eq_zero idle) with zero | nil
    · omega
    · exact nil
  rw [Finmap.lookup_eq_none, ← Finmap.mem_keys, ← Finset.mem_sort (· ≤ ·)]
  intro member
  have among := mem_filter.mpr ⟨member, due⟩
  rw [dueKeys] at among
  cases among

/-- A run of which no batch has rows has finished. -/
theorem firstBatch_finished {monitors : List String} (positive : 0 < runtime.batchSize)
    (noted : store.samples.knownRetentionMonitors = some monitors)
    (idle : firstBatch store (runtime.phases cutoffs) = none) :
    Finished cutoffs store := by
  have none := rows_of_firstBatch_eq_none idle
  simp only [phases, List.forall_mem_cons] at none
  obtain ⟨samples, staged, rollups, incidents, deliveries, events, attempts, -⟩ := none
  have gone {ρ : Type} {rows : List ρ} : rows.length = 0 → rows = [] := List.eq_nil_of_length_eq_zero
  exact ⟨old_eq_nil positive noted samples, stage_eq_empty positive staged,
    fun _ => rollups_eq_none positive rollups, removed_oldest_eq_nil positive (gone incidents),
    removed_oldest_eq_nil positive (gone deliveries), removed_oldest_eq_nil positive (gone events),
    removed_oldest_eq_nil positive (gone attempts)⟩

/-! ## The tables at the end -/

/-- The tables of a store that batches have pruned are those of another one, with the samples that
were recorded on the way. -/
structure SameTables (left right : OpsStore) (recorded : List Sample) : Prop where
  samples : left.samples.rows = right.samples.rows ++ recorded
  stage : left.stage = right.stage
  dailyRollups : left.dailyRollups = right.dailyRollups
  incidents : left.incidents = right.incidents
  alertDeliveries : left.alertDeliveries = right.alertDeliveries
  auditEvents : left.auditEvents = right.auditEvents
  loginAttempts : left.loginAttempts = right.loginAttempts

theorem filter_undue {ρ : Type} {isDue : ρ → Bool} {rows : List ρ}
    (finished : rows.filter isDue = []) : (rows.filter fun row => !isDue row) = rows := by
  refine List.filter_eq_self.mpr fun row member => ?_
  have undue := List.filter_eq_nil_iff.mp finished row member
  simpa using undue

/-- The daily rollups of the original retention. -/
theorem lookup_originalRetention (empty : start.stage = ∅) (key : RollupKey) :
    (originalRetention cutoffs start).dailyRollups.lookup key =
      if isDueKey cutoffs key then none else start.settled cutoffs key := by
  have settled : start.settled cutoffs key = settle (start.dailyRollups.lookup key)
      (total Sample.key Sample.rollup (start.samples.rows.filter fun row =>
        isOld cutoffs row && cutoffs.rollup ≤ row.observedAt) key) := by
    have unstaged : start.stage.weight key = 0 := by
      rw [empty]
      rfl
    rw [OpsStore.settled, unstaged, zero_add, counted, old, List.filter_filter]
    simp only [Bool.and_comm]
  rw [settled, ← lookup_merged]
  refine (lookup_eraseAll _ _ key).trans ?_
  by_cases due : isDueKey cutoffs key
  · rw [if_pos due]
    split
    · rfl
    · rename_i absent
      rw [Finmap.lookup_eq_none, ← Finmap.mem_keys, ← Finset.mem_sort (· ≤ ·)]
      exact fun member => absent (mem_filter.mpr ⟨member, due⟩)
  · rw [if_neg due, if_neg fun member => due (mem_filter.mp member).2]

/-- A run that has finished leaves the tables of the original retention. -/
theorem Progress.sameTables (progress : Progress cutoffs start recorded store)
    (finished : Finished cutoffs store) (empty : start.stage = ∅) :
    SameTables store (originalRetention cutoffs start) recorded where
  samples := (filter_undue finished.old).symm.trans progress.samples
  stage := finished.stage.trans empty.symm
  dailyRollups := by
    refine Finmap.ext_lookup fun key => ?_
    rw [lookup_originalRetention empty]
    by_cases due : isDueKey cutoffs key
    · rw [if_pos due, finished.dailyRollups key due]
    · have unstaged : store.stage.weight key = 0 := by
        rw [finished.stage]
        rfl
      rw [if_neg due, ← progress.rollups key (Bool.not_eq_true _ ▸ due), settled,
        finished.old, unstaged, counted, List.filter_nil, total_nil, add_zero, settle_zero]
  incidents := (filter_undue finished.incidents).symm.trans progress.incidents
  alertDeliveries := by
    have final : store.finalDeliveries cutoffs = store.alertDeliveries := by
      rw [finalDeliveries, finished.incidents, map_nil, unlinkIncidents_nil]
      exact filter_undue finished.alertDeliveries
    exact final.symm.trans progress.deliveries
  auditEvents := (filter_undue finished.auditEvents).symm.trans progress.auditEvents
  loginAttempts := (filter_undue finished.loginAttempts).symm.trans progress.loginAttempts

theorem rows_record (table : SampleTable) (samples : List Sample) :
    (samples.foldl SampleTable.recordSample table).rows = table.rows ++ samples := by
  induction samples generalizing table with
  | nil => exact (append_nil _).symm
  | cons sample rest ih =>
    rw [foldl_cons, ih]
    exact List.append_assoc _ [sample] rest

/-- New samples are not among the old ones. -/
theorem old_record {samples : List Sample}
    (newer : ∀ sample ∈ samples, cutoffs.raw ≤ sample.observedAt) :
    (store.record samples).old cutoffs = store.old cutoffs := by
  have none : samples.filter (isOld cutoffs) = [] := by
    refine List.filter_eq_nil_iff.mpr fun sample member => ?_
    simpa [isOld] using newer sample member
  have rows : (store.record samples).samples.rows = store.samples.rows ++ samples := rows_record _ _
  rw [old, rows, filter_append, none, append_nil, old]

/-- Recording new samples leaves a run where it is. -/
theorem record_progress (progress : Progress cutoffs start recorded store) {samples : List Sample}
    (newer : ∀ sample ∈ samples, cutoffs.raw ≤ sample.observedAt) :
    Progress cutoffs start (recorded ++ samples) (store.record samples) where
  __ := progress
  samples := by
    have rows : (store.record samples).samples.rows = store.samples.rows ++ samples := rows_record _ _
    have kept : (samples.filter fun row => !isOld cutoffs row) = samples := by
      refine List.filter_eq_self.mpr fun sample member => ?_
      simpa [isOld] using newer sample member
    rw [rows, filter_append, kept, progress.samples, List.append_assoc]
  rollups key kept := by
    rw [← progress.rollups key kept, settled, settled, old_record newer]
    rfl

end Phases

/-! ## Runs -/

/-- One call of `pruneRetentionBatch`, and the samples that are recorded after it. -/
structure RetentionTurn where
  nowDate : String
  recorded : List Sample

/-- The store after the first turns of a schedule. -/
def afterTurns (runtime : RetentionRuntime) (schedule : Nat → RetentionTurn) (start : OpsStore) :
    Nat → OpsStore
  | 0 => start
  | turn + 1 =>
    (runtime.pruneRetentionBatch (afterTurns runtime schedule start turn)
      (schedule turn).nowDate).1.record (schedule turn).recorded

def recordedBy (schedule : Nat → RetentionTurn) (turns : Nat) : List Sample :=
  (List.range turns).flatMap fun turn => (schedule turn).recorded

section Runs

variable {runtime : RetentionRuntime} {cutoffs : Cutoffs} {start : OpsStore}
  {schedule : Nat → RetentionTurn}

/-- A store whose run has some cutoffs, or starts with them at a time. -/
def Opens (runtime : RetentionRuntime) (cutoffs : Cutoffs) (store : OpsStore) (now : Int) : Prop :=
  ∃ completed, runtime.startRun store.retention now =
    ⟨some cutoffs.raw, some cutoffs.rollup, some cutoffs.event, completed⟩

/-- The store on which a batch of a started run works. -/
def opened (runtime : RetentionRuntime) (store : OpsStore) (now : Int) : OpsStore :=
  { store with
    retention := runtime.startRun store.retention now
    samples := store.samples.learnMonitors }

/-- A call goes on with a run that has its cutoffs. -/
theorem pruneRetentionBatch_batch {store : OpsStore} {nowDate : String} {now : Int}
    {done : OpsStore × RetentionBatchResult} (valid : runtime.parseDate nowDate = some now)
    (opens : Opens runtime cutoffs store now)
    (found : firstBatch (opened runtime store now) (runtime.phases cutoffs) =
      some done) :
    runtime.pruneRetentionBatch store nowDate = (done.1, .ok done.2) := by
  obtain ⟨completed, state⟩ := opens
  simp only [opened, state] at found
  simp only [pruneRetentionBatch, valid, runBatch, state, found]

/-- A call completes a run of which no batch has rows. -/
theorem pruneRetentionBatch_complete {store : OpsStore} {nowDate : String} {now : Int}
    (valid : runtime.parseDate nowDate = some now) (opens : Opens runtime cutoffs store now)
    (idle : firstBatch (opened runtime store now) (runtime.phases cutoffs) =
      none) :
    runtime.pruneRetentionBatch store nowDate =
      ({ opened runtime store now with retention := ⟨none, none, none, some nowDate⟩ },
        .ok .complete) := by
  obtain ⟨completed, state⟩ := opens
  simp only [opened, state] at idle
  simp only [pruneRetentionBatch, valid, runBatch, state, idle,
    opened]

theorem opens_of_started {store : OpsStore} {completed : Option String}
    (started : store.retention =
      ⟨some cutoffs.raw, some cutoffs.rollup, some cutoffs.event, completed⟩) (now : Int) :
    Opens runtime cutoffs store now :=
  ⟨completed, by rw [started]; rfl⟩

/-- The result of the call of a turn. -/
def resultAt (runtime : RetentionRuntime) (schedule : Nat → RetentionTurn) (start : OpsStore)
    (turn : Nat) : Except RetentionFailure RetentionBatchResult :=
  (runtime.pruneRetentionBatch (afterTurns runtime schedule start turn) (schedule turn).nowDate).2

theorem recordedBy_succ (turn : Nat) :
    recordedBy schedule (turn + 1) = recordedBy schedule turn ++ (schedule turn).recorded := by
  simp [recordedBy, List.range_succ]

/-- A schedule that starts a run, has valid dates, and records only samples that are not old. -/
structure Drains (runtime : RetentionRuntime) (cutoffs : Cutoffs) (start : OpsStore)
    (schedule : Nat → RetentionTurn) (now : Nat → Int) : Prop where
  positive : 0 < runtime.batchSize
  valid : ∀ turn, runtime.parseDate (schedule turn).nowDate = some (now turn)
  opens : Opens runtime cutoffs start (now 0)
  newer : ∀ turn, ∀ sample ∈ (schedule turn).recorded, cutoffs.raw ≤ sample.observedAt

variable {now : Nat → Int}

/-- Before a run is complete, every call has a batch and gets it on. -/
theorem batch_of_incomplete (drains : Drains runtime cutoffs start schedule now) {turn : Nat}
    (opens : Opens runtime cutoffs (afterTurns runtime schedule start turn) (now turn))
    (progress : Progress cutoffs start (recordedBy schedule turn)
      (afterTurns runtime schedule start turn))
    (incomplete : resultAt runtime schedule start turn ≠ .ok .complete) :
    (∃ table rows, 0 < rows ∧ resultAt runtime schedule start turn = .ok (.batch table rows)) ∧
      Progress cutoffs start (recordedBy schedule (turn + 1))
        (afterTurns runtime schedule start (turn + 1)) ∧
      (afterTurns runtime schedule start (turn + 1)).left cutoffs <
        (afterTurns runtime schedule start turn).left cutoffs ∧
      ∀ later, Opens runtime cutoffs (afterTurns runtime schedule start (turn + 1)) later := by
  let store := afterTurns runtime schedule start turn
  have openedProgress : Progress cutoffs start (recordedBy schedule turn)
      (opened runtime store (now turn)) :=
    { progress with }
  cases found : firstBatch (opened runtime store (now turn)) (runtime.phases cutoffs) with
  | none =>
    refine absurd ?_ incomplete
    rw [resultAt, pruneRetentionBatch_complete (drains.valid turn) opens found]
  | some done =>
    have advanced := firstBatch_advanced openedProgress drains.positive rfl found
    have called := pruneRetentionBatch_batch (drains.valid turn) opens found
    have after : afterTurns runtime schedule start (turn + 1) =
        done.1.record (schedule turn).recorded := by
      rw [afterTurns, called]
    obtain ⟨table, rows, positive, result⟩ := advanced.result
    obtain ⟨completed, state⟩ := opens
    refine ⟨⟨table, rows, positive, ?_⟩, ?_, ?_, ?_⟩
    · rw [resultAt, called, result]
    · rw [after, recordedBy_succ]
      exact record_progress advanced.progress (drains.newer turn)
    · have same : (done.1.record (schedule turn).recorded).left cutoffs = done.1.left cutoffs := by
        rw [left, left, old_record (drains.newer turn)]
        rfl
      rw [after, same]
      exact advanced.left
    · have started : (afterTurns runtime schedule start (turn + 1)).retention =
          ⟨some cutoffs.raw, some cutoffs.rollup, some cutoffs.event, completed⟩ := by
        rw [after]
        exact advanced.retention.trans state
      exact opens_of_started started

theorem progress_start : Progress cutoffs start [] start where
  samples := (append_nil _).symm
  rollups _ _ := rfl
  incidents := rfl
  deliveries := rfl
  auditEvents := rfl
  loginAttempts := rfl

/-- As long as a run is not complete, it keeps its cutoffs and what it comes to. -/
theorem progress_of_incomplete (drains : Drains runtime cutoffs start schedule now) :
    ∀ turn, (∀ before < turn, resultAt runtime schedule start before ≠ .ok .complete) →
      Opens runtime cutoffs (afterTurns runtime schedule start turn) (now turn) ∧
        Progress cutoffs start (recordedBy schedule turn)
          (afterTurns runtime schedule start turn) := by
  intro turn
  induction turn with
  | zero => exact fun _ => ⟨drains.opens, progress_start⟩
  | succ turn ih =>
    intro incomplete
    obtain ⟨opens, progress⟩ := ih fun before earlier => incomplete before (Nat.lt_succ_of_lt earlier)
    have next := batch_of_incomplete drains opens progress (incomplete turn (Nat.lt_succ_self turn))
    exact ⟨next.2.2.2 _, next.2.1⟩

end Runs

/-- For every batch size, every store with no run and nothing staged whose retention is due, and
every schedule of calls between which newer samples are recorded: the calls report batches with rows
until one reports that the run is complete, and its tables are those of the original retention at the
cutoffs of the first call, with the recorded samples. -/
theorem pruneRetentionBatch_originalRetention (runtime : RetentionRuntime)
    (positive : 0 < runtime.batchSize) (start : OpsStore) (stopped : start.retention.rawCutoff = none)
    (unstaged : start.stage = ∅) (schedule : Nat → RetentionTurn) (now : Nat → Int)
    (valid : ∀ turn, runtime.parseDate (schedule turn).nowDate = some (now turn))
    (due : runtime.isRunDue start.retention (now 0) = true)
    (newer : ∀ turn, ∀ sample ∈ (schedule turn).recorded,
      (runtime.cutoffsAt (now 0)).raw ≤ sample.observedAt) :
    ∃ last, (∀ turn < last, ∃ table rows, 0 < rows ∧
        resultAt runtime schedule start turn = .ok (.batch table rows)) ∧
      resultAt runtime schedule start last = .ok .complete ∧
      SameTables (runtime.pruneRetentionBatch (afterTurns runtime schedule start last)
          (schedule last).nowDate).1
        (originalRetention (runtime.cutoffsAt (now 0)) start) (recordedBy schedule last) := by
  have drains : Drains runtime (runtime.cutoffsAt (now 0)) start schedule now :=
    ⟨positive, valid, ⟨start.retention.lastCompletedAt, by
      simp [startRun, stopped, due]⟩, newer⟩
  have less : ∀ turn, (∀ before ≤ turn, resultAt runtime schedule start before ≠ .ok .complete) →
      (afterTurns runtime schedule start (turn + 1)).left (runtime.cutoffsAt (now 0)) <
        (afterTurns runtime schedule start turn).left (runtime.cutoffsAt (now 0)) := by
    intro turn incomplete
    obtain ⟨opens, progress⟩ := progress_of_incomplete drains turn
      fun before earlier => incomplete before earlier.le
    exact (batch_of_incomplete drains opens progress (incomplete turn (Nat.le_refl turn))).2.2.1
  obtain ⟨last, complete, incomplete⟩ := exists_first_end
    (fun turn => resultAt runtime schedule start turn = .ok .complete)
    (fun turn => (afterTurns runtime schedule start turn).left (runtime.cutoffsAt (now 0))) less
  refine ⟨last, fun turn earlier => ?_, complete, ?_⟩
  · obtain ⟨opens, progress⟩ := progress_of_incomplete drains turn
      fun before less => incomplete before (less.trans earlier)
    exact (batch_of_incomplete drains opens progress (incomplete turn earlier)).1
  · obtain ⟨opens, progress⟩ := progress_of_incomplete drains last incomplete
    let store := opened runtime (afterTurns runtime schedule start last) (now last)
    have openedProgress : Progress (runtime.cutoffsAt (now 0)) start (recordedBy schedule last)
        store :=
      { progress with }
    cases found : firstBatch store (runtime.phases (runtime.cutoffsAt (now 0))) with
    | some done =>
      have advanced := firstBatch_advanced openedProgress positive rfl found
      obtain ⟨table, rows, -, result⟩ := advanced.result
      rw [resultAt, pruneRetentionBatch_batch (valid last) opens found, result] at complete
      cases complete
    | none =>
      have finished := firstBatch_finished positive rfl found
      rw [pruneRetentionBatch_complete (valid last) opens found]
      have ended : Progress (runtime.cutoffsAt (now 0)) start (recordedBy schedule last)
          { store with retention := ⟨none, none, none, some (schedule last).nowDate⟩ } :=
        { openedProgress with }
      exact ended.sameTables { finished with } unstaged

/-- The date of the first call of an example, and its cutoffs. -/
def augustRuntime : RetentionRuntime where
  parseDate := isoMilliseconds
  toISOString milliseconds :=
    if milliseconds = 1784851200000 then ⟨"2026-07-24T00:00:00.000Z", by decide, by decide⟩
    else if milliseconds = 1755907200000 then ⟨"2025-08-23T00:00:00.000Z", by decide, by decide⟩
    else ⟨"2026-05-25T00:00:00.000Z", by decide, by decide⟩
  localeCompare left right := compare left.text right.text
  batchSize := 1000

/-- A store with one old sample. -/
def oneSample : OpsStore where
  samples := ⟨[⟨1, "backup", "healthy", ⟨"2026-07-01T00:00:00.000Z", by decide, by decide⟩⟩], none,
    nofun⟩
  stage := ∅
  dailyRollups := ∅
  incidents := []
  alertDeliveries := []
  auditEvents := []
  loginAttempts := []
  retention := ⟨none, none, none, none⟩

/-- Its retention comes to an end and to what the original one leaves. -/
theorem oneSample_pruned :
    ∃ last, (∀ turn < last, ∃ table rows, 0 < rows ∧
        resultAt augustRuntime (fun _ => ⟨"2026-08-23T00:00:00.000Z", []⟩) oneSample turn =
          .ok (.batch table rows)) ∧
      resultAt augustRuntime (fun _ => ⟨"2026-08-23T00:00:00.000Z", []⟩) oneSample last =
        .ok .complete ∧
      SameTables (augustRuntime.pruneRetentionBatch (afterTurns augustRuntime
          (fun _ => ⟨"2026-08-23T00:00:00.000Z", []⟩) oneSample last) "2026-08-23T00:00:00.000Z").1
        (originalRetention (augustRuntime.cutoffsAt 1787443200000) oneSample)
        (recordedBy (fun _ => ⟨"2026-08-23T00:00:00.000Z", []⟩) last) :=
  pruneRetentionBatch_originalRetention augustRuntime (by decide) oneSample rfl rfl
    (fun _ => ⟨"2026-08-23T00:00:00.000Z", []⟩) (fun _ => 1787443200000)
    (fun _ => by decide) rfl nofun

end NancyMan.Storage
