import NancyMan.Collector.Hysteresis

/-!
# The discipline of transitions

What a transition says of the level before it. The level before is that of the latest evaluation of
the monitor, which every run from empty histories remembers with its newest sample, so that the laws
of one evaluation are laws of every run.
-/
namespace NancyMan.Collector

open Histories

variable {ν : Type}

/-- The monitors whose probe asks the application itself. -/
def MonitorName.isApplication : MonitorName → Bool
  | .appLiveness | .appHealth | .appProcess => true
  | _ => false

/-- A healthy sample that brings the remarks of an evaluation itself: an unhealthy condition and a
critical level. -/
def BringsAlert (sample : MonitorSample ν) : Prop :=
  isHealthy sample = true ∧ storedConditionHealthy sample = false ∧
    effectiveLevel (some sample) = .critical

/-- The samples of one monitor of a run, in order. -/
def samplesOf (monitor : MonitorName) (samples : List (MonitorSample ν)) : List (MonitorSample ν) :=
  samples.filter fun sample => sample.monitor = monitor

/-- What an evaluation may say after a level and the sample of that level. -/
structure Disciplined (previousLevel : MonitorLevel) (previous : Option (MonitorSample ν))
    (sample : MonitorSample ν) (evaluation : Evaluation) : Prop where
  recovered : evaluation.transition = some .recovered → previousLevel.isAlert = true
  raised : evaluation.transition = some .opened ∨ evaluation.transition = some .changed →
    evaluation.level.isAlert = true ∧ evaluation.level ≠ previousLevel
  failedTwice : sample.monitor.isApplication = true → previousLevel.isAlert = false →
    evaluation.level = .critical → ¬ BringsAlert sample →
      isFailed sample = true ∧ ∃ before ∈ previous, isFailed before = true

variable {history : List (MonitorSample ν)} {sample : MonitorSample ν}

/-- Two samples at the end have a property only if the last one and the one before it have. -/
theorem trailing_two {predicate : MonitorSample ν → Bool}
    (two : 2 ≤ (trailing (history ++ [sample]) predicate).length) :
    predicate sample ∧
      ∃ previous, history.getLast? = some previous ∧ predicate previous := by
  unfold trailing at two
  by_cases last : predicate sample
  · refine ⟨last, ?_⟩
    rw [List.rtakeWhile_concat_pos _ _ _ last, List.length_append, List.length_singleton] at two
    rcases List.eq_nil_or_concat history with rfl | ⟨front, previous, rfl⟩
    · have none : (List.rtakeWhile predicate ([] : List (MonitorSample ν))).length = 0 := rfl
      omega
    · refine ⟨previous, by simp, ?_⟩
      by_contra unmet
      rw [List.concat_eq_append, List.rtakeWhile_concat_neg _ _ _ unmet] at two
      simp at two
  · rw [List.rtakeWhile_concat_neg _ _ _ last] at two
    simp at two

@[simp] theorem isFailed_annotated (sample : MonitorSample ν) (evaluation : Evaluation) :
    isFailed (annotated sample evaluation) = isFailed sample := by
  have probe : (annotated sample evaluation).details.read "probeOk" =
      sample.details.read "probeOk" := by
    simp [annotated, JsObject.read_write_other]
  unfold isFailed
  rw [probe]
  rfl

theorem hasExplicitCondition_annotated (front : List (MonitorSample ν)) (sample : MonitorSample ν)
    (evaluation : Evaluation) (later : List (MonitorSample ν)) :
    hasExplicitCondition (front ++ annotated sample evaluation :: later) := by
  refine List.any_eq_true.mpr ⟨annotated sample evaluation, by simp, ?_⟩
  simp [annotated]

/-! ## One evaluation -/

/-- A transition into a level is one into an alert of another level. -/
theorem transitionTo_raised {level previousLevel : MonitorLevel} {transition : Transition}
    (entered : transitionTo level previousLevel = some transition) :
    (transition = .opened ∨ transition = .changed) ∧ level.isAlert ∧
      level ≠ previousLevel := by
  unfold transitionTo at entered
  split at entered
  · rename_i holds
    refine ⟨?_, holds.2, holds.1⟩
    split at entered
    · exact .inl (Option.some.inj entered).symm
    · exact .inr (Option.some.inj entered).symm
  · cases entered

variable [JsRuntime ν]

def RemembersSample (history : List (MonitorSample ν)) : Prop :=
  ∀ last, history.getLast? = some last → ∃ sample evaluation, last = annotated sample evaluation

/-- A host monitor recovers only from an alert. -/
theorem evaluateHost_disciplined (history : List (MonitorSample ν)) (sample : MonitorSample ν) :
    ((evaluateHost history sample).transition = some .recovered →
      (effectiveLevel history.getLast?).isAlert) ∧
      ((evaluateHost history sample).transition = some .opened ∨
        (evaluateHost history sample).transition = some .changed →
          (evaluateHost history sample).level.isAlert ∧
            (evaluateHost history sample).level ≠ effectiveLevel history.getLast?) := by
  unfold evaluateHost
  dsimp only
  split
  · -- A healthy verdict recovers or says nothing.
    constructor
    · intro recovered
      by_contra calm
      have quiet : (effectiveLevel history.getLast?).isAlert = false := by simpa using calm
      simp [evaluation, infrastructureRecovery, quiet] at recovered
    · intro raised
      split at raised
      · rcases raised with opened | changed
        · cases opened
        · cases changed
      · rcases raised with opened | changed
        · cases opened
        · cases changed
  · constructor
    · intro recovered
      rcases (transitionTo_raised recovered).1 with opened | changed
      · cases opened
      · cases changed
    · rintro (opened | changed)
      · exact (transitionTo_raised opened).2
      · exact (transitionTo_raised changed).2

/-- Another monitor recovers only from an alert: whatever is remembered has a condition, so the
recovery of samples without one does not apply. -/
theorem evaluateDirect_disciplined (history : List (MonitorSample ν)) (sample : MonitorSample ν)
    (remembered : RemembersSample history) :
    ((evaluateDirect history sample).transition = some .recovered →
      (effectiveLevel history.getLast?).isAlert) ∧
      ((evaluateDirect history sample).transition = some .opened ∨
        (evaluateDirect history sample).transition = some .changed →
          (evaluateDirect history sample).level.isAlert ∧
            (evaluateDirect history sample).level ≠ effectiveLevel history.getLast?) := by
  unfold evaluateDirect
  split
  · rename_i eligible
    constructor
    · intro _
      have found := (Bool.and_eq_true_iff.mp eligible.1).2
      rcases Bool.or_eq_true_iff.mp found with alert | implicit
      · exact (Bool.and_eq_true_iff.mp alert).1
      · exfalso
        obtain ⟨front, two⟩ := Bool.and_eq_true_iff.mp implicit
        have exactly : clearSamples (history ++ [sample]) = 2 := of_decide_eq_true two
        obtain ⟨last, here, -⟩ := clearSamples_two history sample (by omega)
        obtain ⟨raw, remark, rfl⟩ := remembered last here
        obtain ⟨others, split⟩ := List.getLast?_eq_some_iff.mp here
        have explicit : hasExplicitCondition (history ++ [sample]) := by
          rw [split, List.append_assoc]
          exact hasExplicitCondition_annotated others raw remark [sample]
        simp [explicit] at front
    · rintro (opened | changed)
      · cases opened
      · cases changed
  · constructor
    · intro recovered
      rcases (transitionTo_raised recovered).1 with opened | changed
      · cases opened
      · cases changed
    · rintro (opened | changed)
      · exact (transitionTo_raised opened).2
      · exact (transitionTo_raised changed).2

variable (application : sample.monitor.isApplication = true)

include application

variable (calm : (effectiveLevel history.getLast?).isAlert = false)

include calm

/-- An application monitor's verdict after a level that is no alert is critical only when two
probes failed. -/
theorem directVerdict_critical (critical : (directVerdict history sample).level = .critical) :
    2 ≤ (trailing (history ++ [sample]) isFailed).length := by
  have direct : sample.monitor.isHost = false := by
    cases kind : sample.monitor <;>
      simp [MonitorName.isApplication, MonitorName.isHost, kind] at application ⊢
  have raised := directVerdict_alert history sample direct
  rw [critical] at raised
  have alarm : probeAlarm history sample := by
    cases kind : sample.monitor <;>
      simp [MonitorName.isApplication, alarms, kind, MonitorLevel.isAlert] at application raised
    all_goals exact raised
  rcases Bool.or_eq_true_iff.mp alarm with twice | awaits
  · exact of_decide_eq_true twice
  · have level := of_decide_eq_true (Bool.and_eq_true_iff.mp awaits).1
    rw [level] at calm
    cases calm

/-- A level that is held after a level that is no alert is one that the sample brings itself. -/
theorem holdRecovery_brings (holds : holdRecovery history sample)
    (critical : effectiveLevel (beforeClear (history ++ [sample])) = .critical) :
    BringsAlert sample := by
  obtain ⟨front, few⟩ := Bool.and_eq_true_iff.mp holds
  have healthy : isHealthy sample := by
    have condition := (Bool.and_eq_true_iff.mp front).1
    unfold directHealthy at condition
    cases kind : sample.monitor <;>
      simp [MonitorName.isApplication, kind] at application condition
    all_goals exact condition
  have short : clearSamples (history ++ [sample]) < 2 := of_decide_eq_true few
  by_cases clear : storedConditionHealthy sample
  · -- The one clear sample is the last, so the sample before it is that of the level before.
    exfalso
    have before : beforeClear (history ++ [sample]) = history.getLast? := by
      unfold beforeClear
      rw [List.rdropWhile_concat_pos _ _ _ clear]
      have unclear : ∀ previous, history.getLast? = some previous →
          ¬ storedConditionHealthy previous = true := by
        intro previous here held
        obtain ⟨others, split⟩ := List.getLast?_eq_some_iff.mp here
        unfold clearSamples trailing at short
        rw [List.rtakeWhile_concat_pos _ _ _ clear, split,
          List.rtakeWhile_concat_pos _ _ _ held, List.length_append, List.length_append,
          List.length_singleton, List.length_singleton] at short
        omega
      rcases List.eq_nil_or_concat history with rfl | ⟨others, previous, rfl⟩
      · rfl
      · have stops := unclear previous (by simp)
        rw [List.concat_eq_append, List.rdropWhile_concat_neg _ _ _ stops]
    rw [before] at critical
    rw [critical] at calm
    cases calm
  · have unclear : storedConditionHealthy sample = false := by simpa using clear
    refine ⟨healthy, unclear, ?_⟩
    unfold beforeClear at critical
    rw [List.rdropWhile_concat_neg _ _ _ clear, List.getLast?_concat] at critical
    exact critical

/-- An application monitor becomes critical by two failures or by what the sample brings. -/
theorem evaluateDirect_critical (critical : (evaluateDirect history sample).level = .critical) :
    2 ≤ (trailing (history ++ [sample]) isFailed).length ∨ BringsAlert sample := by
  unfold evaluateDirect at critical
  split at critical
  · cases critical
  · have held : (heldVerdict history sample).level = .critical := critical
    unfold heldVerdict at held
    split at held
    · rename_i holds
      have level : effectiveLevel (beforeClear (history ++ [sample])) = .critical := by
        simpa [calm] using held
      exact .inr (holdRecovery_brings application calm holds.1 level)
    · exact .inl (directVerdict_critical application calm held)

omit calm

omit application

/-! ## Runs -/

def levelBefore (monitor : MonitorName) (samples : List (MonitorSample ν)) : MonitorLevel :=
  ((evaluationsOf monitor samples).getLast?.map (·.level)).getD .unknown

/-- In every run, the newest of a history is the newest sample of its monitor. -/
theorem remembers_sample (monitor : MonitorName) (samples : List (MonitorSample ν)) :
    ∀ last, (Machine.after remember empty samples monitor).getLast? = some last →
      ∃ sample evaluation, (samplesOf monitor samples).getLast? = some sample ∧
        last = annotated sample evaluation := by
  induction samples using List.reverseRecOn with
  | nil => exact fun last here => nomatch here
  | append_singleton front sample ih =>
    intro last here
    rw [Machine.after_append] at here
    unfold samplesOf
    rw [List.filter_append]
    by_cases same : sample.monitor = monitor
    · subst same
      have newest := remember_getLast? (Machine.after remember empty front) sample
      have found : last = _ := Option.some.inj (here.symm.trans newest)
      exact ⟨sample, _, by simp, found⟩
    · have kept := remember_other (Machine.after remember empty front) sample (Ne.symm same)
      have before : (Machine.after remember empty front monitor).getLast? = some last := by
        rw [← kept]
        exact here
      obtain ⟨raw, remark, newest, found⟩ := ih last before
      have others : [sample].filter (fun sample => decide (sample.monitor = monitor)) = [] := by
        simp [same]
      refine ⟨raw, remark, ?_, found⟩
      rw [others, List.append_nil]
      exact newest

/-- The level that the next evaluation reads is the level before. -/
theorem effectiveLevel_latest (monitor : MonitorName) (samples : List (MonitorSample ν)) :
    effectiveLevel (Machine.after remember Histories.empty samples monitor).getLast? =
      levelBefore monitor samples := by
  have latest := remembers_latest monitor samples
  unfold levelBefore
  cases found : (evaluationsOf monitor samples).getLast? with
  | none =>
    rw [found] at latest
    have empty : Machine.after remember Histories.empty samples monitor = [] := latest
    rw [empty]
    rfl
  | some evaluation =>
    rw [found] at latest
    obtain ⟨sample, last⟩ := latest
    rw [last, effectiveLevel_annotated]
    rfl

/-- In every run from empty histories, each evaluation of a monitor recovers only from an alert,
opens or changes only into an alert of another level, and makes an application monitor critical only
after two failed samples in a row, unless the sample brings the remarks of an evaluation itself. -/
theorem transitions_disciplined (front : List (MonitorSample ν)) (sample : MonitorSample ν) :
    Disciplined (levelBefore sample.monitor front) (samplesOf sample.monitor front).getLast? sample
      (remember (Machine.after remember Histories.empty front) sample).2 := by
  have level := effectiveLevel_latest sample.monitor front
  have newest := remembers_sample sample.monitor front
  have remembered : RemembersSample (Machine.after remember empty front sample.monitor) := by
    intro last here
    obtain ⟨raw, remark, -, found⟩ := newest last here
    exact ⟨raw, remark, found⟩
  show Disciplined _ _ sample
    (evaluateMonitor (Machine.after remember empty front sample.monitor) sample)
  rw [← level]
  unfold evaluateMonitor
  cases host : sample.monitor.isHost with
  | true =>
    obtain ⟨recovered, raised⟩ := evaluateHost_disciplined
      (Machine.after remember empty front sample.monitor) sample
    refine ⟨recovered, raised, fun application => ?_⟩
    exfalso
    cases kind : sample.monitor <;>
      simp [MonitorName.isApplication, MonitorName.isHost, kind] at application host
  | false =>
    obtain ⟨recovered, raised⟩ := evaluateDirect_disciplined
      (Machine.after remember empty front sample.monitor) sample remembered
    refine ⟨recovered, raised, fun application calm critical plain => ?_⟩
    rcases evaluateDirect_critical application calm critical with twice | brings
    · obtain ⟨failed, last, here, before⟩ := trailing_two twice
      obtain ⟨raw, remark, previous, rfl⟩ := newest last here
      rw [isFailed_annotated] at before
      exact ⟨failed, raw, previous, before⟩
    · exact absurd brings plain

/-- An application answers, and the details of its sample say that it is critical. -/
def remarkedSample : MonitorSample Float where
  monitor := .appHealth
  level := .healthy
  observedAt := "2026-01-01T00:00:00.000Z"
  latencyMs := none
  details := [("conditionHealthy", .boolean false), ("effectiveLevel", .string "critical")]
  errorCode := none

/-- A sample that did not fail makes an application monitor critical from the start. -/
theorem remarked_sample_is_critical :
    remarkedSample.monitor.isApplication = true ∧ isFailed remarkedSample = false ∧
      levelBefore .appHealth ([] : List (MonitorSample Float)) = .unknown ∧
      (remember Histories.empty remarkedSample).2.level = .critical := by
  decide

end NancyMan.Collector
