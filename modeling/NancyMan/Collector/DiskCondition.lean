import Mathlib.Data.List.Chain
import Mathlib.Data.List.Infix
import Mathlib.Algebra.Order.Ring.Rat

/-!
# Sustained disk conditions

`observeDiskCondition` remembers since when the disk is over a threshold and when that was last
observed. A window of consecutive observations over the threshold, none more than a minute after the
one before, may start anywhere: `Tracks` says that what is remembered is the start of the longest of
those that end now, so that a sustained condition is reported exactly when there is such a window of
half an hour.
-/
namespace NancyMan.Collector

/-- `diskUsagePercent`. -/
inductive DiskUsage where
  | missing
  | notFinite
  | percent (value : ℚ)

structure DiskConditionRun where
  overSinceMs : Option Int
  lastObservedAtMs : Option Int

/-- What one call observes; a date that is not valid has no time. -/
structure DiskObservation where
  diskUsagePercent : DiskUsage
  now : Option Int

/-- `DISK_WARNING_THRESHOLD_PERCENT`. -/
def diskWarningThresholdPercent : ℚ := 85

/-- `DISK_CRITICAL_THRESHOLD_PERCENT`. -/
def diskCriticalThresholdPercent : ℚ := 92

/-- `DISK_SUSTAINED_DURATION_MS`. -/
def diskSustainedDurationMs : Int := 30 * 60000

/-- `DISK_MAX_OBSERVATION_GAP_MS`. -/
def diskMaxObservationGapMs : Int := 60000

def DiskConditionRun.fresh : DiskConditionRun := ⟨none, none⟩

/-- Since when the disk is over the threshold, as of an observation over it. -/
def DiskConditionRun.since (run : DiskConditionRun) (observedAtMs : Int) : Int :=
  match run.overSinceMs, run.lastObservedAtMs with
  | some since, some last =>
    let gap := observedAtMs - last
    if gap < 0 ∨ diskMaxObservationGapMs < gap then observedAtMs else since
  | _, _ => observedAtMs

def observeDiskCondition (run : DiskConditionRun) (observation : DiskObservation) (threshold : ℚ) :
    DiskConditionRun × Bool :=
  match observation.diskUsagePercent, observation.now with
  | .percent value, some observedAtMs =>
    if value ≤ threshold then (.fresh, false)
    else
      let since := run.since observedAtMs
      (⟨some since, some observedAtMs⟩, decide (diskSustainedDurationMs ≤ observedAtMs - since))
  | _, _ => (.fresh, false)

/-- The run after some observations. -/
def observeAll (threshold : ℚ) (observations : List DiskObservation) : DiskConditionRun :=
  observations.foldl (fun run observation => (observeDiskCondition run observation threshold).1)
    .fresh

/-- What the observation at a place reports, if there is one. -/
def reportedAt (threshold : ℚ) (observations : List DiskObservation) (place : Nat) : Option Bool :=
  observations[place]?.map fun observation =>
    (observeDiskCondition (observeAll threshold (observations.take place)) observation threshold).2

/-! ## Windows -/

def IsOver (threshold : ℚ) (observation : DiskObservation) : Prop :=
  ∃ value, observation.diskUsagePercent = .percent value ∧ threshold < value

/-- An observation at most a minute after another, and not before it. -/
def Follows (earlier later : DiskObservation) : Prop :=
  ∃ first second, earlier.now = some first ∧ later.now = some second ∧ 0 ≤ second - first ∧
    second - first ≤ 60000

/-- Consecutive observations over the threshold, each at most a minute after the one before, with
the times of the first and of the last. -/
structure OverWindow (threshold : ℚ) (window : List DiskObservation) (first last : Int) : Prop where
  beyond : ∀ observation ∈ window, IsOver threshold observation
  close : window.IsChain Follows
  starts : window.head?.bind DiskObservation.now = some first
  ends : window.getLast?.bind DiskObservation.now = some last

def Sustained (threshold : ℚ) (window : List DiskObservation) : Prop :=
  ∃ first last, OverWindow threshold window first last ∧ 1800000 ≤ last - first

/-- What a run remembers of the observations so far: the longest window that ends with them, if the
last of them is over the threshold. -/
def Tracks (threshold : ℚ) (history : List DiskObservation) (run : DiskConditionRun) : Prop :=
  match run.overSinceMs, run.lastObservedAtMs with
  | some since, some time =>
    since ≤ time ∧ (∃ window, window <:+ history ∧ OverWindow threshold window since time) ∧
      ∀ window first last, window <:+ history → OverWindow threshold window first last →
        since ≤ first ∧ last = time
  | none, none => ∀ window first last, window <:+ history → ¬OverWindow threshold window first last
  | _, _ => False

variable {threshold : ℚ}

theorem not_overWindow_nil (first last : Int) : ¬OverWindow threshold [] first last := by
  intro window
  cases window.starts

variable {observation : DiskObservation} {window : List DiskObservation} {first last : Int}
  {run : DiskConditionRun} (observations : List DiskObservation)

/-- A window that ends with an observation is that one alone, or it and a window before it. -/
theorem overWindow_snoc :
    OverWindow threshold (window ++ [observation]) first last ↔
      IsOver threshold observation ∧ observation.now = some last ∧
        (window = [] ∧ first = last ∨
          ∃ before, OverWindow threshold window first before ∧ 0 ≤ last - before ∧
            last - before ≤ 60000) := by
  constructor
  · intro whole
    have ended : observation.now = some last := by
      have ends := whole.ends
      rw [List.getLast?_concat] at ends
      exact ends
    refine ⟨whole.beyond observation (by simp), ended, ?_⟩
    rcases List.eq_nil_or_concat' window with rfl | ⟨front, previous, rfl⟩
    · left
      have starts : observation.now = some first := whole.starts
      rw [ended] at starts
      exact ⟨rfl, (Option.some.inj starts).symm⟩
    · right
      obtain ⟨closeFront, -, joined⟩ := List.isChain_append.mp whole.close
      obtain ⟨before, time, seen, now, atLeast, atMost⟩ :=
        joined previous (by simp) observation (by simp)
      rw [ended] at now
      obtain rfl := Option.some.inj now
      refine ⟨before, ⟨?_, closeFront, ?_, ?_⟩, atLeast, atMost⟩
      · intro other member
        exact whole.beyond other (List.mem_append_left _ member)
      · have starts := whole.starts
        cases front <;> exact starts
      · rw [List.getLast?_concat]
        exact seen
  · rintro ⟨beyond, now, ⟨rfl, rfl⟩ | ⟨before, earlier, atLeast, atMost⟩⟩
    · exact ⟨by simpa using beyond, List.isChain_singleton _, now, now⟩
    · refine ⟨?_, ?_, ?_, ?_⟩
      · intro other member
        rcases List.mem_append.mp member with inside | final
        · exact earlier.beyond other inside
        · obtain rfl := List.mem_singleton.mp final
          exact beyond
      · refine List.isChain_append.mpr ⟨earlier.close, List.isChain_singleton _, ?_⟩
        intro previous held following member
        obtain rfl : observation = following := by simpa using member
        have seen : previous.now = some before := by
          have ends := earlier.ends
          rw [Option.mem_def.mp held] at ends
          exact ends
        exact ⟨before, last, seen, now, atLeast, atMost⟩
      · have starts := earlier.starts
        cases window with
        | nil => cases starts
        | cons head rest => exact starts
      · rw [List.getLast?_concat]
        exact now

variable {history : List DiskObservation}

/-- The windows that end with the observations so far, after another one. -/
theorem suffix_window_iff :
    (window <:+ history ++ [observation] ∧ OverWindow threshold window first last) ↔
      ∃ shorter, window = shorter ++ [observation] ∧ shorter <:+ history ∧
        OverWindow threshold (shorter ++ [observation]) first last := by
  constructor
  · rintro ⟨ending, held⟩
    rcases List.suffix_concat_iff.mp ending with rfl | ⟨shorter, rfl, inside⟩
    · exact absurd held (not_overWindow_nil first last)
    · exact ⟨shorter, by simp, inside, by simpa using held⟩
  · rintro ⟨shorter, rfl, inside, held⟩
    exact ⟨List.suffix_concat_iff.mpr (.inr ⟨shorter, by simp, inside⟩), held⟩

theorem tracks_fresh : Tracks threshold [] .fresh := by
  intro window first last ending held
  obtain rfl := List.suffix_nil.mp ending
  exact not_overWindow_nil first last held

theorem tracks_fresh_of_not
    (stops : ∀ time, IsOver threshold observation → observation.now = some time → False) :
    Tracks threshold (history ++ [observation]) .fresh := by
  intro window first last ending held
  obtain ⟨shorter, -, -, whole⟩ := suffix_window_iff.mp ⟨ending, held⟩
  obtain ⟨beyond, now, -⟩ := overWindow_snoc.mp whole
  exact stops last beyond now

/-- An observation over the threshold extends the longest window, or starts one. -/
theorem tracks_over (tracks : Tracks threshold history run) {time : Int}
    (beyond : IsOver threshold observation) (now : observation.now = some time) :
    Tracks threshold (history ++ [observation]) ⟨some (run.since time), some time⟩ := by
  have alone : OverWindow threshold ([] ++ [observation]) time time :=
    overWindow_snoc.mpr ⟨beyond, now, .inl ⟨rfl, rfl⟩⟩
  have held (shorter : List DiskObservation) (inside : shorter <:+ history) :
      shorter ++ [observation] <:+ history ++ [observation] :=
    List.suffix_concat_iff.mpr (.inr ⟨shorter, by simp, inside⟩)
  have single := held [] (List.nil_suffix)
  -- Where nothing before it counts, the observation is the only window.
  have begins (lonely : ∀ shorter first before, shorter <:+ history →
      OverWindow threshold shorter first before → 0 ≤ time - before → 60000 < time - before) :
      Tracks threshold (history ++ [observation]) ⟨some time, some time⟩ := by
    refine ⟨Int.le_refl time, ⟨_, single, alone⟩, ?_⟩
    intro window first last ending inside
    obtain ⟨shorter, -, earlier, whole⟩ := suffix_window_iff.mp ⟨ending, inside⟩
    obtain ⟨-, again, ⟨-, rfl⟩ | ⟨before, previous, atLeast, atMost⟩⟩ := overWindow_snoc.mp whole
    · rw [now] at again
      obtain rfl := Option.some.inj again
      exact ⟨Int.le_refl _, rfl⟩
    · rw [now] at again
      obtain rfl := Option.some.inj again
      have apart := lonely shorter first before earlier previous atLeast
      omega
  obtain ⟨overSinceMs, lastObservedAtMs⟩ := run
  cases overSinceMs with
  | none =>
    cases lastObservedAtMs with
    | some last => exact tracks.elim
    | none =>
      refine begins ?_
      intro shorter first before earlier previous
      exact absurd previous (tracks shorter first before earlier)
  | some since =>
    cases lastObservedAtMs with
    | none => exact tracks.elim
    | some last =>
      obtain ⟨ordered, ⟨longest, ending, window⟩, most⟩ := tracks
      show Tracks threshold _ ⟨some (if time - last < 0 ∨ diskMaxObservationGapMs < time - last
        then time else since), some time⟩
      have gapLimit : diskMaxObservationGapMs = 60000 := rfl
      by_cases apart : time - last < 0 ∨ diskMaxObservationGapMs < time - last
      · rw [if_pos apart]
        refine begins ?_
        intro shorter first before earlier previous atLeast
        obtain ⟨-, rfl⟩ := most shorter first before earlier previous
        omega
      · rw [if_neg apart]
        have close : 0 ≤ time - last ∧ time - last ≤ 60000 := by omega
        refine ⟨by omega, ⟨_, held longest ending,
          overWindow_snoc.mpr ⟨beyond, now, .inr ⟨last, window, close.1, close.2⟩⟩⟩, ?_⟩
        intro other first final ended inside
        obtain ⟨shorter, -, earlier, whole⟩ := suffix_window_iff.mp ⟨ended, inside⟩
        obtain ⟨-, again, ⟨-, rfl⟩ | ⟨before, previous, -, -⟩⟩ := overWindow_snoc.mp whole
        · rw [now] at again
          obtain rfl := Option.some.inj again
          exact ⟨by omega, rfl⟩
        · rw [now] at again
          obtain rfl := Option.some.inj again
          exact ⟨(most shorter first before earlier previous).1, rfl⟩

/-- An observation keeps what a run remembers true. -/
theorem tracks_observe (tracks : Tracks threshold history run) (observation : DiskObservation) :
    Tracks threshold (history ++ [observation])
      (observeDiskCondition run observation threshold).1 := by
  obtain ⟨usage, now⟩ := observation
  cases usage with
  | missing => exact tracks_fresh_of_not fun time beyond _ => by simp [IsOver] at beyond
  | notFinite => exact tracks_fresh_of_not fun time beyond _ => by simp [IsOver] at beyond
  | percent value =>
    cases now with
    | none => exact tracks_fresh_of_not fun time _ now => by cases now
    | some time =>
      unfold observeDiskCondition
      dsimp only
      by_cases under : value ≤ threshold
      · rw [if_pos under]
        refine tracks_fresh_of_not fun later beyond _ => ?_
        obtain ⟨seen, same, above⟩ := beyond
        obtain rfl := DiskUsage.percent.inj same
        exact absurd under (not_le.mpr above)
      · rw [if_neg under]
        exact tracks_over tracks ⟨value, rfl, not_le.mp under⟩ rfl

/-- The run after some observations remembers the longest window that ends with them. -/
theorem tracks_observeAll : Tracks threshold observations (observeAll threshold observations) := by
  induction observations using List.reverseRecOn with
  | nil => exact tracks_fresh
  | append_singleton history observation ih =>
    unfold observeAll
    rw [List.foldl_append]
    exact tracks_observe ih observation

/-- What an observation reports is read off what the run remembers after it. -/
theorem reported_iff (run : DiskConditionRun) (observation : DiskObservation) :
    (observeDiskCondition run observation threshold).2 ↔
      ∃ since time, (observeDiskCondition run observation threshold).1 =
        ⟨some since, some time⟩ ∧ 1800000 ≤ time - since := by
  have duration : diskSustainedDurationMs = 1800000 := rfl
  unfold observeDiskCondition
  split
  · split
    · simp [DiskConditionRun.fresh]
    · simp [duration]
  · simp [DiskConditionRun.fresh]

/-- A remembered window is sustained exactly when one of the windows is. -/
theorem sustained_of_tracks (tracks : Tracks threshold history run) :
    (∃ since time, run = ⟨some since, some time⟩ ∧ 1800000 ≤ time - since) ↔
      ∃ window, window <:+ history ∧ Sustained threshold window := by
  obtain ⟨overSinceMs, lastObservedAtMs⟩ := run
  constructor
  · rintro ⟨since, time, same, long⟩
    obtain ⟨rfl, rfl⟩ := DiskConditionRun.mk.inj same
    obtain ⟨-, ⟨window, ending, held⟩, -⟩ := tracks
    exact ⟨window, ending, since, time, held, long⟩
  · rintro ⟨window, ending, first, last, held, long⟩
    cases overSinceMs with
    | none =>
      cases lastObservedAtMs with
      | some time => exact tracks.elim
      | none => exact absurd held (tracks window first last ending)
    | some since =>
      cases lastObservedAtMs with
      | none => exact tracks.elim
      | some time =>
        obtain ⟨earliest, same⟩ := tracks.2.2 window first last ending held
        exact ⟨since, time, rfl, by omega⟩

theorem reports_iff (history : List DiskObservation) (observation : DiskObservation) :
    (observeDiskCondition (observeAll threshold history) observation threshold).2 ↔
      ∃ window, window <:+ history ++ [observation] ∧ Sustained threshold window :=
  (reported_iff _ observation).trans
    (sustained_of_tracks (tracks_observe (tracks_observeAll history) observation))

/-- In every sequence of observations, the one at a place reports a sustained condition exactly when
a run of consecutive observations that ends there is over the threshold throughout, with gaps of at
most a minute and none backwards, and spans at least half an hour. -/
theorem sustained_iff_window (threshold : ℚ) (observations : List DiskObservation) (place : Nat) :
    reportedAt threshold observations place = some true ↔
      place < observations.length ∧
        ∃ window, window <:+ observations.take (place + 1) ∧ Sustained threshold window := by
  unfold reportedAt
  by_cases inside : place < observations.length
  · rw [List.getElem?_eq_getElem inside, Option.map_some, Option.some.injEq, reports_iff,
      List.take_concat_get' observations place inside]
    exact (and_iff_right inside).symm
  · rw [List.getElem?_eq_none (Nat.le_of_not_lt inside)]
    exact iff_of_false (by simp) fun held => inside held.1

/-! ## The two conditions of the backup monitor -/

structure BackupDiskSustainState where
  warning : DiskConditionRun
  critical : DiskConditionRun

def createBackupDiskSustainState : BackupDiskSustainState := ⟨.fresh, .fresh⟩

/-- The observation of the two conditions, with what each reports. -/
def observeBackupDisk (state : BackupDiskSustainState) (observation : DiskObservation) :
    BackupDiskSustainState × Bool × Bool :=
  let warning := observeDiskCondition state.warning observation diskWarningThresholdPercent
  let critical := observeDiskCondition state.critical observation diskCriticalThresholdPercent
  (⟨warning.1, critical.1⟩, warning.2, critical.2)

/-- The state after some observations. -/
def observeBackupDisks : BackupDiskSustainState :=
  observations.foldl (fun state observation => (observeBackupDisk state observation).1)
    createBackupDiskSustainState

/-- The two conditions are observed apart. -/
theorem observeBackupDisks_eq :
    observeBackupDisks observations =
      ⟨observeAll diskWarningThresholdPercent observations,
        observeAll diskCriticalThresholdPercent observations⟩ := by
  induction observations using List.reverseRecOn with
  | nil => rfl
  | append_singleton history observation ih =>
    unfold observeBackupDisks observeAll at ih ⊢
    rw [List.foldl_append, List.foldl_append, List.foldl_append, ih]
    rfl

theorem Sustained.lower {lower higher : ℚ} (below : lower ≤ higher)
    (sustained : Sustained higher window) : Sustained lower window := by
  obtain ⟨first, last, held, long⟩ := sustained
  refine ⟨first, last, ⟨?_, held.close, held.starts, held.ends⟩, long⟩
  intro observation member
  obtain ⟨value, seen, above⟩ := held.beyond observation member
  exact ⟨value, seen, lt_of_le_of_lt below above⟩

/-- Whatever was observed before, a critical report comes with a warning. -/
theorem warning_of_critical (history : List DiskObservation) (observation : DiskObservation)
    (critical : (observeBackupDisk (observeBackupDisks history) observation).2.2) :
    (observeBackupDisk (observeBackupDisks history) observation).2.1 := by
  rw [observeBackupDisks_eq] at critical ⊢
  obtain ⟨window, ending, sustained⟩ := (reports_iff history observation).mp critical
  have below : diskWarningThresholdPercent ≤ diskCriticalThresholdPercent := by decide +kernel
  exact (reports_iff history observation).mpr ⟨window, ending, sustained.lower below⟩

def fullDisk (minute : Nat) : DiskObservation := ⟨.percent 95, some (minute * 60000)⟩

/-- A disk that has been full for half an hour. -/
theorem fullDisk_warning :
    (observeBackupDisk (observeBackupDisks ((List.range 30).map fullDisk)) (fullDisk 30)).2.1 :=
  warning_of_critical _ _ (by decide +kernel)

end NancyMan.Collector
