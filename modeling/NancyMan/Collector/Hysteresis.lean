import Mathlib.Data.List.Chain
import NancyMan.Collector.Histories

/-!
# Alert hysteresis

An alert should end only at the second of two consecutive samples whose condition is healthy,
and that sample should say that it recovered. The monitors' branches keep this for a sample
whose own condition is healthy, and for a sample that raises an alert by itself; for every
other sample after an alert they let the level fall without a recovery. `Settled` names the
samples of the first two kinds, and `hysteresis_iff` says that a run keeps the law exactly
when all its samples are of them.
-/
namespace NancyMan.Collector

open MonitorLevel MonitorName Histories

variable {ν : Type} (sample : MonitorSample ν)

theorem initialVerdict_alert : (initialVerdict sample).level.isAlert = false := by
  by_cases healthy : sample.level = .healthy <;>
    simp [initialVerdict, healthy, isAlert]

variable (history : List (MonitorSample ν))

/-- Two probes failed in a row, or a critical monitor has not answered twice since. -/
def probeAlarm (sample : MonitorSample ν) : Bool :=
  2 ≤ (trailing (history ++ [sample]) isFailed).length ||
    (effectiveLevel history.getLast? = .critical &&
      (trailing (history ++ [sample]) isHealthy).length < 2)

/-- A probed monitor's verdict is an alert exactly when two probes failed or it awaits two. -/
theorem probeVerdict_alert (sample : MonitorSample ν) (verdict : Verdict)
    (calm : verdict.level.isAlert = false) :
    (probeVerdict history sample verdict).level.isAlert =
      (sample.monitor.isProbed && probeAlarm history sample) := by
  unfold probeVerdict
  by_cases probed : sample.monitor.isProbed
  · by_cases twice : 2 ≤ (trailing (history ++ [sample]) isFailed).length
    · simp [probed, twice, probeAlarm, isAlert]
    · by_cases awaits : effectiveLevel history.getLast? = .critical ∧
          (trailing (history ++ [sample]) isHealthy).length < 2
      · simp [probed, twice, awaits, probeAlarm, isAlert]
      · have quiet : probeAlarm history sample = false := by
          simpa [probeAlarm, twice] using awaits
        simp only [probed, twice, awaits, quiet, ↓reduceIte, Bool.and_false]
        split
        · rfl
        · exact calm
  · simp [probed, calm]

/-- Two samples at the end have healthy conditions only if the one before the last has. -/
theorem clearSamples_two (sample : MonitorSample ν) (two : 2 ≤ clearSamples (history ++ [sample])) :
    ∃ previous, history.getLast? = some previous ∧ storedConditionHealthy previous := by
  rcases List.eq_nil_or_concat history with rfl | ⟨front, previous, rfl⟩
  · have short := (List.rtakeWhile_suffix storedConditionHealthy [sample]).length_le
    simp only [clearSamples, trailing, List.nil_append, List.length_singleton] at two short
    omega
  · refine ⟨previous, by simp, ?_⟩
    by_contra unclear
    simp only [clearSamples, trailing] at two
    by_cases last : storedConditionHealthy sample
    · rw [List.rtakeWhile_concat_pos _ _ _ last, List.concat_eq_append,
        List.rtakeWhile_concat_neg _ _ _ unclear] at two
      simp at two
    · rw [List.rtakeWhile_concat_neg _ _ _ last] at two
      simp at two

variable [JsRuntime ν]

/-- The condition of a sample, by the rule of its monitor. -/
def conditionHealthy (sample : MonitorSample ν) : Bool :=
  match sample.monitor with
  | .hostResources => resourcesHealthy sample.details
  | .beszel => !isFailed sample
  | .hostServices => (failedServices sample).isEmpty
  | _ => directHealthy sample

variable (samples : List (MonitorSample ν))

/-- Some metric of the host has been over its warning or its critical bound long enough. -/
def resourcesAlarm : Bool :=
  sustained samples (metricAtLeast "cpuPercent" 95) (10 * 60000) ||
  sustained samples (metricAtLeast "cpuPercent" 85) (10 * 60000) ||
  sustained samples (metricAtLeast "memoryPercent" 95) (5 * 60000) ||
  sustained samples (metricAtLeast "memoryPercent" 85) (10 * 60000) ||
  2 ≤ (trailing samples (metricAtLeast "diskPercent" 90)).length ||
  2 ≤ (trailing samples (metricAtLeast "diskPercent" 80)).length ||
  sustained samples (loadAtLeast (3 / 2)) (10 * 60000) ||
  sustained samples (loadAtLeast 1) (10 * 60000)

/-- Backends have waited for locks in two samples or for five minutes. -/
def lockAlarm (sample : MonitorSample ν) : Bool :=
  locksWaiting sample &&
    (sustained samples locksWaiting thresholdFiveMinutes ||
      2 ≤ (trailing samples locksWaiting).length)

/-- The connections have been over a bound for five minutes. -/
def connectionAlarm (sample : MonitorSample ν) : Bool :=
  (ratioOver (9 / 10) sample &&
    sustained samples (connectionsOver (9 / 10)) thresholdFiveMinutes) ||
  (ratioOver (8 / 10) sample &&
    sustained samples (connectionsOver (8 / 10)) thresholdFiveMinutes)

/-- A sample raises an alert by itself, by the rule of its monitor. -/
def alarms (history : List (MonitorSample ν)) (sample : MonitorSample ν) : Bool :=
  match sample.monitor with
  | .hostResources => resourcesAlarm (history ++ [sample])
  | .beszel => 2 ≤ (trailing (history ++ [sample]) isFailed).length
  | .hostServices => !(sameFailed history sample).isEmpty
  | .appLiveness | .appHealth | .appProcess => probeAlarm history sample
  | .postgres =>
    probeAlarm history sample || lockAlarm (history ++ [sample]) sample ||
      connectionAlarm (history ++ [sample]) sample
  | .backup | .cron => sample.level.isAlert
  | .errors =>
    sample.level.isAlert || fingerprintBurst sample.details ||
      (sample.details.read "isFatal").isTrue
  | .collector => false

/-- After an alert, the sample's condition is healthy or the sample raises an alert itself. -/
def Settled (histories : Histories ν) (sample : MonitorSample ν) : Prop :=
  (effectiveLevel (histories sample.monitor).getLast?).isAlert →
    conditionHealthy sample ∨ alarms (histories sample.monitor) sample

/-- An alert ends only by a recovery, at the second of two healthy conditions. -/
def EndsByRecovery (prior next : Evaluation) : Prop :=
  prior.level.isAlert → ¬ next.level.isAlert →
    prior.conditionHealthy ∧ next.conditionHealthy ∧ next.transition = some .recovered

instance : DecidableRel EndsByRecovery := fun prior next => by
  unfold EndsByRecovery
  exact inferInstance

/-- The evaluations of one monitor in a run from empty histories, in order. -/
def evaluationsOf (monitor : MonitorName) (samples : List (MonitorSample ν)) : List Evaluation :=
  ((Machine.trace remember Histories.empty samples).filter
    fun step => step.1.monitor = monitor).map Prod.snd

/-! ## Verdicts and alarms -/

theorem graded_eq_nil (critical warning : Bool) (criticalReason warningReason : String)
    (priority : Nat) :
    graded critical warning criticalReason warningReason priority = [] ↔
      critical = false ∧ warning = false := by
  cases critical <;> cases warning <;> simp [graded]

theorem choose_eq_none (items : List Candidate) : choose items = none ↔ items = [] := by
  unfold choose
  rw [List.head?_eq_none_iff, ← List.length_eq_zero_iff, List.length_insertionSort,
    List.length_eq_zero_iff]

theorem evaluateResources_candidate (details : JsObject ν) :
    (evaluateResources samples details).1.isSome = resourcesAlarm samples := by
  rw [Bool.eq_iff_iff, ← not_iff_not]
  simp only [evaluateResources, Bool.not_eq_true, Option.isSome_eq_false_iff,
    Option.isNone_iff_eq_none, choose_eq_none,
    List.append_eq_nil_iff, cpuCandidates, memoryCandidates, diskCandidates, loadCandidates,
    graded_eq_nil, resourcesAlarm, Bool.or_eq_true, not_or, and_assoc]

/-- A host monitor's verdict is an alert exactly when the sample raises one. -/
theorem evaluateInfrastructure_alert (sample : MonitorSample ν) (host : sample.monitor.isHost) :
    (evaluateInfrastructure history sample).1.level.isAlert = alarms history sample := by
  cases kind : sample.monitor <;> simp only [isHost, kind, Bool.false_eq_true] at host
  · by_cases twice : 2 ≤ (trailing (history ++ [sample]) isFailed).length
    · simp [evaluateInfrastructure, alarms, kind, twice, isAlert]
    · by_cases failed : isFailed sample <;>
        simp [evaluateInfrastructure, alarms, kind, twice, failed, isAlert]
  · have candidate := evaluateResources_candidate (history ++ [sample]) sample.details
    cases found : (evaluateResources (history ++ [sample]) sample.details).1 with
    | none =>
      simp [evaluateInfrastructure, alarms, kind, found, ← candidate, isAlert]
    | some chosen =>
      simp [evaluateInfrastructure, alarms, kind, found, ← candidate]
  · cases found : sameFailed history sample <;>
      simp [evaluateInfrastructure, alarms, kind, found, isAlert]

/-- A host monitor's evaluation computes the condition of the sample. -/
theorem evaluateInfrastructure_condition (sample : MonitorSample ν) (host : sample.monitor.isHost) :
    (evaluateInfrastructure history sample).2 = conditionHealthy sample := by
  cases kind : sample.monitor <;> simp only [isHost, kind, Bool.false_eq_true] at host
  · simp [evaluateInfrastructure, conditionHealthy, kind]
  · simp only [evaluateInfrastructure, conditionHealthy, kind, evaluateResources]
    split <;> rfl
  · cases found : sameFailed history sample <;>
      simp [evaluateInfrastructure, conditionHealthy, kind, found]

variable (verdict : Verdict)

/-- A database with waiting locks adds its own alarm to a verdict. -/
theorem lockVerdict_alert :
    (lockVerdict samples sample verdict).level.isAlert =
      (verdict.level.isAlert || (sample.monitor = .postgres && lockAlarm samples sample)) := by
  by_cases database : sample.monitor = .postgres <;>
    cases waiting : locksWaiting sample <;>
    cases long : sustained samples locksWaiting thresholdFiveMinutes <;>
    by_cases twice : 2 ≤ (trailing samples locksWaiting).length <;>
    simp [lockVerdict, lockAlarm, database, waiting, long, twice, isAlert]

/-- A database that runs out of connections adds its own alarm to a verdict. -/
theorem connectionVerdict_alert :
    (connectionVerdict samples sample verdict).level.isAlert =
      (verdict.level.isAlert || (sample.monitor = .postgres && connectionAlarm samples sample)) := by
  by_cases database : sample.monitor = .postgres <;>
    cases most : ratioOver (9 / 10) sample <;>
    cases many : ratioOver (8 / 10) sample <;>
    cases worst : sustained samples (connectionsOver (9 / 10)) thresholdFiveMinutes <;>
    cases bad : sustained samples (connectionsOver (8 / 10)) thresholdFiveMinutes <;>
    simp [connectionVerdict, connectionAlarm, database, most, many, worst, bad,
      isAlert]

variable (monitor : MonitorName) (front : List (MonitorSample ν))

/-- A reporting monitor replaces a calm verdict by its own level. -/
theorem reportVerdict_alert (calm : sample.monitor.isReported → verdict.level.isAlert = false) :
    (reportVerdict sample verdict).level.isAlert =
      (verdict.level.isAlert || (sample.monitor.isReported && sample.level.isAlert)) := by
  unfold reportVerdict
  by_cases reported : sample.monitor.isReported
  · by_cases healthy : sample.level = .healthy
    · simp [reported, healthy, isAlert]
    · simp [reported, healthy, calm reported]
  · simp [reported]

/-- An error log with a fatal line or a burst adds its own alarm to a verdict. -/
theorem burstVerdict_alert :
    (burstVerdict sample verdict).level.isAlert =
      (verdict.level.isAlert || (sample.monitor = .errors &&
        (fingerprintBurst sample.details || (sample.details.read "isFatal").isTrue))) := by
  by_cases log : sample.monitor = .errors <;>
    cases burst : fingerprintBurst sample.details <;>
    cases fatal : (sample.details.read "isFatal").isTrue <;>
    simp [burstVerdict, log, burst, fatal, isAlert]

/-- Another monitor's verdict is an alert exactly when the sample raises one. -/
theorem directVerdict_alert (sample : MonitorSample ν) (direct : sample.monitor.isHost = false) :
    (directVerdict history sample).level.isAlert = alarms history sample := by
  have probed := probeVerdict_alert history sample _ (initialVerdict_alert sample)
  have calm : sample.monitor.isReported →
      (connectionVerdict (history ++ [sample]) sample (lockVerdict (history ++ [sample]) sample
        (probeVerdict history sample (initialVerdict sample)))).level.isAlert = false := by
    intro reported
    rw [connectionVerdict_alert, lockVerdict_alert, probed]
    cases kind : sample.monitor <;>
      simp [isReported, isProbed, kind] at reported ⊢
  unfold directVerdict
  simp only [burstVerdict_alert, reportVerdict_alert _ _ calm, connectionVerdict_alert,
    lockVerdict_alert, probed, alarms]
  cases kind : sample.monitor <;>
    simp [kind, isHost, isProbed, isReported,
      Bool.or_assoc] at direct ⊢

/-! ## Conditions -/

/-- A sample whose condition is healthy has a verdict that is healthy or an alert. -/
theorem directVerdict_known (sample : MonitorSample ν) (clear : directHealthy sample)
    (calm : (directVerdict history sample).level.isAlert = false) :
    (directVerdict history sample).level = .healthy := by
  have healthy : isHealthy sample := by
    unfold directHealthy at clear
    split at clear
    · exact (Bool.and_eq_true_iff.mp (Bool.and_eq_true_iff.mp clear).1).1
    · exact (Bool.and_eq_true_iff.mp (Bool.and_eq_true_iff.mp clear).1).1
    · exact clear
  obtain ⟨level, answered⟩ : sample.level = .healthy ∧
      (sample.details.read "probeOk").isFalse = false := by
    simpa [isHealthy, probeOk] using healthy
  have probed : (probeVerdict history sample (initialVerdict sample)).level ≠ .unknown := by
    simp only [probeVerdict, level, answered, initialVerdict, isAlert, Bool.or_self,
      Bool.false_eq_true, ↓reduceIte]
    split_ifs <;> simp
  have known : (directVerdict history sample).level ≠ .unknown := by
    simp only [directVerdict, burstVerdict, reportVerdict, connectionVerdict, lockVerdict, level,
      ne_eq, not_true_eq_false, and_false, ↓reduceIte]
    split_ifs <;> first | exact probed | simp
  cases verdict : (directVerdict history sample).level with
  | unknown => exact absurd verdict known
  | healthy => rfl
  | warning => simp [verdict, isAlert] at calm
  | critical => simp [verdict, isAlert] at calm

theorem evaluateHost_condition :
    (evaluateHost history sample).conditionHealthy =
      (evaluateInfrastructure history sample).2 := by
  simp only [evaluateHost]
  split <;> rfl

theorem evaluateDirect_condition :
    (evaluateDirect history sample).conditionHealthy = directHealthy sample := by
  simp only [evaluateDirect]
  split <;> rfl

theorem conditionHealthy_direct (direct : sample.monitor.isHost = false) :
    conditionHealthy sample = directHealthy sample := by
  cases kind : sample.monitor <;> simp [conditionHealthy, kind, isHost] at direct ⊢

/-- The evaluation of a sample has the condition of the sample. -/
theorem evaluateMonitor_condition (sample : MonitorSample ν) :
    (evaluateMonitor history sample).conditionHealthy = conditionHealthy sample := by
  unfold evaluateMonitor
  cases host : sample.monitor.isHost with
  | true =>
    rw [if_pos rfl, evaluateHost_condition, evaluateInfrastructure_condition history sample host]
  | false =>
    rw [if_neg Bool.false_ne_true, evaluateDirect_condition, conditionHealthy_direct sample host]

/-! ## One step -/

/-- A host monitor that leaves an alert at a sample whose condition is healthy recovers, at the
second such sample. -/
theorem evaluateHost_clear (sample : MonitorSample ν)
    (alert : (effectiveLevel history.getLast?).isAlert)
    (clear : (evaluateInfrastructure history sample).2)
    (known : (evaluateInfrastructure history sample).1.level.isAlert ∨
      (evaluateInfrastructure history sample).1.level = .healthy)
    (left : (evaluateHost history sample).level.isAlert = false) :
    (evaluateHost history sample).transition = some .recovered ∧
      2 ≤ clearSamples (history ++ [sample]) := by
  by_cases healthy : (evaluateInfrastructure history sample).1.level = .healthy
  · by_cases few : clearSamples (history ++ [sample]) < 2
    · simp [evaluateHost, healthy, infrastructureRecovery, clear, alert, few, evaluation] at left
    · exact ⟨by simp [evaluateHost, healthy, infrastructureRecovery, clear, alert, few,
        evaluation], by omega⟩
  · rcases known with raised | calm
    · simp [evaluateHost, healthy, evaluation, raised] at left
    · exact absurd calm healthy

/-- Another monitor that leaves an alert at a sample whose condition is healthy recovers, at the
second such sample. -/
theorem evaluateDirect_clear (sample : MonitorSample ν)
    (alert : (effectiveLevel history.getLast?).isAlert) (clear : directHealthy sample)
    (left : (evaluateDirect history sample).level.isAlert = false) :
    (evaluateDirect history sample).transition = some .recovered ∧
      2 ≤ clearSamples (history ++ [sample]) := by
  cases raised : (directVerdict history sample).level.isAlert with
  | true =>
    have unhealthy : (directVerdict history sample).level ≠ .healthy := by
      intro healthy
      simp [healthy, isAlert] at raised
    simp [evaluateDirect, heldVerdict, unhealthy, evaluation, raised] at left
  | false =>
    have healthy := directVerdict_known history sample clear raised
    by_cases few : clearSamples (history ++ [sample]) < 2
    · have ineligible : recoveryEligible history sample = false := by
        have notTwo : clearSamples (history ++ [sample]) ≠ 2 := by omega
        simp [recoveryEligible, Nat.not_le.mpr few, notTwo]
      have holds : holdRecovery history sample := by
        simp [holdRecovery, clear, alert, few]
      simp [evaluateDirect, heldVerdict, ineligible, holds, healthy, alert, evaluation] at left
    · have two : 2 ≤ clearSamples (history ++ [sample]) := by omega
      exact ⟨by simp [evaluateDirect, recoveryEligible, healthy, clear, alert, two, evaluation],
        two⟩

/-- A host monitor whose condition is healthy has a verdict that is healthy or an alert. -/
theorem evaluateInfrastructure_known (sample : MonitorSample ν)
    (clear : (evaluateInfrastructure history sample).2) :
    (evaluateInfrastructure history sample).1.level.isAlert ∨
      (evaluateInfrastructure history sample).1.level = .healthy := by
  unfold evaluateInfrastructure at clear ⊢
  split at clear
  · simp only
    split
    · exact .inl (AlertLevel.isAlert_level _)
    · exact .inr rfl
  · have working : isFailed sample = false := by simpa using clear
    simp only [working, Bool.false_eq_true, ↓reduceIte, decide_eq_true_eq]
    split
    · exact .inl rfl
    · exact .inr rfl
  · simp only
    split
    · exact .inl rfl
    · exact .inr rfl

/-- After an alert, a sample whose condition is healthy keeps the alert or ends it by a
recovery, at a sample that follows one whose condition was healthy. -/
theorem evaluateMonitor_clear (sample : MonitorSample ν)
    (alert : (effectiveLevel history.getLast?).isAlert) (clear : conditionHealthy sample)
    (left : (evaluateMonitor history sample).level.isAlert = false) :
    (evaluateMonitor history sample).transition = some .recovered ∧
      2 ≤ clearSamples (history ++ [sample]) := by
  unfold evaluateMonitor at left ⊢
  cases host : sample.monitor.isHost with
  | true =>
    rw [if_pos host] at left
    have healthy : (evaluateInfrastructure history sample).2 := by
      rw [evaluateInfrastructure_condition history sample host]
      exact clear
    exact evaluateHost_clear history sample alert healthy
      (evaluateInfrastructure_known history sample healthy) left
  | false =>
    rw [if_neg (by simp [host])] at left
    rw [conditionHealthy_direct sample host] at clear
    exact evaluateDirect_clear history sample alert clear left

/-- A sample that raises an alert by itself has an alert level. -/
theorem evaluateMonitor_alarms (sample : MonitorSample ν) (raised : alarms history sample) :
    (evaluateMonitor history sample).level.isAlert := by
  unfold evaluateMonitor
  cases host : sample.monitor.isHost with
  | true =>
    rw [← evaluateInfrastructure_alert history sample host] at raised
    have unhealthy : (evaluateInfrastructure history sample).1.level ≠ .healthy := by
      intro healthy
      simp [healthy, isAlert] at raised
    simpa [evaluateHost, unhealthy, evaluation] using raised
  | false =>
    rw [← directVerdict_alert history sample host] at raised
    have unhealthy : (directVerdict history sample).level ≠ .healthy := by
      intro healthy
      simp [healthy, isAlert] at raised
    simpa [evaluateDirect, heldVerdict, unhealthy, evaluation] using raised

/-- A sample whose condition is not healthy has an alert level only by an alert of its own. -/
theorem evaluateMonitor_unclear (sample : MonitorSample ν)
    (unclear : conditionHealthy sample = false)
    (kept : (evaluateMonitor history sample).level.isAlert) : alarms history sample := by
  unfold evaluateMonitor at kept
  cases host : sample.monitor.isHost with
  | true =>
    rw [if_pos host] at kept
    rw [← evaluateInfrastructure_alert history sample host]
    rw [← evaluateInfrastructure_condition history sample host] at unclear
    by_cases healthy : (evaluateInfrastructure history sample).1.level = .healthy
    · simp [evaluateHost, healthy, infrastructureRecovery, unclear, evaluation, isAlert] at kept
    · simpa [evaluateHost, healthy, evaluation] using kept
  | false =>
    rw [if_neg (by simp [host])] at kept
    rw [← directVerdict_alert history sample host]
    rw [conditionHealthy_direct sample host] at unclear
    simpa [evaluateDirect, heldVerdict, recoveryEligible, holdRecovery, unclear, evaluation]
      using kept

/-- One step keeps the law exactly when its sample is settled: the sample before it is the one
remembered last. -/
theorem remember_settled (histories : Histories ν) (sample previous : MonitorSample ν)
    (evaluation : Evaluation)
    (last : (histories sample.monitor).getLast? = some (annotated previous evaluation)) :
    EndsByRecovery evaluation (remember histories sample).2 ↔ Settled histories sample := by
  have level : effectiveLevel (histories sample.monitor).getLast? = evaluation.level := by
    rw [last, effectiveLevel_annotated]
  change EndsByRecovery evaluation (evaluateMonitor (histories sample.monitor) sample) ↔ _
  constructor
  · intro ends alert
    rw [level] at alert
    cases clear : conditionHealthy sample with
    | true => exact .inl rfl
    | false =>
      refine .inr (evaluateMonitor_unclear _ _ clear ?_)
      by_contra left
      have condition := (ends alert left).2.1
      rw [evaluateMonitor_condition, clear] at condition
      exact Bool.false_ne_true condition
  · intro settled alert left
    have before : (effectiveLevel (histories sample.monitor).getLast?).isAlert := by rwa [level]
    rcases settled before with clear | raised
    · obtain ⟨recovers, two⟩ := evaluateMonitor_clear _ _ before clear (by simpa using left)
      obtain ⟨found, isLast, stored⟩ := clearSamples_two _ _ two
      rw [last] at isLast
      obtain rfl := Option.some.inj isLast
      rw [storedConditionHealthy_annotated] at stored
      exact ⟨stored, (evaluateMonitor_condition _ _).trans clear, recovers⟩
    · exact absurd (evaluateMonitor_alarms _ _ raised) left

/-! ## Runs -/

/-- One more sample adds its evaluation to those of its monitor. -/
theorem evaluationsOf_concat (sample : MonitorSample ν) :
    evaluationsOf monitor (front ++ [sample]) = evaluationsOf monitor front ++
      if sample.monitor = monitor then
        [(remember (Machine.after remember empty front) sample).2]
      else [] := by
  unfold evaluationsOf
  rw [Machine.trace_append, List.filter_append, List.map_append]
  by_cases same : sample.monitor = monitor <;> simp [Machine.trace, same]

/-- A history remembers the latest evaluation of its monitor. -/
def Remembers : Option Evaluation → Prop
  | none => history = []
  | some evaluation => ∃ sample, history.getLast? = some (annotated sample evaluation)

/-- In every run, the history of a monitor remembers the latest of its evaluations. -/
theorem remembers_latest (samples : List (MonitorSample ν)) :
    Remembers (Machine.after remember empty samples monitor)
      (evaluationsOf monitor samples).getLast? := by
  induction samples using List.reverseRecOn with
  | nil => rfl
  | append_singleton front sample ih =>
    rw [evaluationsOf_concat, Machine.after_append]
    by_cases same : sample.monitor = monitor
    · subst same
      rw [if_pos rfl, List.getLast?_concat]
      exact ⟨sample, remember_getLast? _ sample⟩
    · rw [if_neg same, List.append_nil]
      simpa only [Machine.after, remember_other _ sample (Ne.symm same)] using ih

/-- Another sample keeps the law of a run exactly when its sample is settled. -/
theorem chains_concat (sample : MonitorSample ν) :
    (∀ monitor, (evaluationsOf monitor (front ++ [sample])).IsChain EndsByRecovery) ↔
      (∀ monitor, (evaluationsOf monitor front).IsChain EndsByRecovery) ∧
        ∀ evaluation ∈ (evaluationsOf sample.monitor front).getLast?,
          EndsByRecovery evaluation
            (remember (Machine.after remember empty front) sample).2 := by
  constructor
  · intro chains
    refine ⟨fun monitor => ?_, ?_⟩
    · have chain := chains monitor
      rw [evaluationsOf_concat] at chain
      exact (List.isChain_append.mp chain).1
    · have chain := chains sample.monitor
      rw [evaluationsOf_concat, if_pos rfl] at chain
      intro evaluation latest
      exact (List.isChain_append.mp chain).2.2 evaluation latest _ rfl
  · rintro ⟨chains, last⟩ monitor
    rw [evaluationsOf_concat]
    by_cases same : sample.monitor = monitor
    · subst same
      rw [if_pos rfl, List.isChain_append]
      refine ⟨chains _, List.isChain_singleton _, fun evaluation latest next isNext => ?_⟩
      obtain rfl := Option.some.inj isNext
      exact last evaluation latest
    · rw [if_neg same, List.append_nil]
      exact chains monitor

/-- A sample keeps the law of its monitor's latest evaluation exactly when it is settled. -/
theorem latest_settled (sample : MonitorSample ν) :
    (∀ evaluation ∈ (evaluationsOf sample.monitor front).getLast?,
      EndsByRecovery evaluation
        (remember (Machine.after remember empty front) sample).2) ↔
      Settled (Machine.after remember empty front) sample := by
  have latest := remembers_latest sample.monitor front
  cases found : (evaluationsOf sample.monitor front).getLast? with
  | none =>
    rw [found] at latest
    have settled : Settled (Machine.after remember empty front) sample := by
      intro alert
      rw [show Machine.after remember empty front sample.monitor = [] from latest] at alert
      simp [effectiveLevel, isAlert] at alert
    simp [settled]
  | some evaluation =>
    rw [found] at latest
    obtain ⟨previous, remembered⟩ := latest
    simpa using remember_settled _ sample previous evaluation remembered

/-- A run from empty histories ends every alert of every monitor by a recovery, at the second of
two healthy conditions, exactly when each of its samples that follows an alert has a healthy
condition or raises an alert itself. -/
theorem hysteresis_iff (samples : List (MonitorSample ν)) :
    (∀ monitor, (evaluationsOf monitor samples).IsChain EndsByRecovery) ↔
      Machine.Along remember Settled Histories.empty samples := by
  induction samples using List.reverseRecOn with
  | nil => exact ⟨fun _ => trivial, fun _ _ => List.IsChain.nil⟩
  | append_singleton front sample ih =>
    rw [chains_concat, latest_settled, ih, Machine.along_append]
    simp only [Machine.Along, and_true]

/-- A sample of the host agent with nothing but its level. -/
def beszelSample (level : MonitorLevel) (observedAt : String) : MonitorSample Float where
  monitor := .beszel
  level := level
  observedAt := observedAt
  latencyMs := none
  details := []
  errorCode := none

/-- The host agent fails twice, answers once and fails again: its alert ends at a failed sample,
as unknown and without a recovery. -/
theorem hysteresis_broken :
    ¬ ∀ monitor, (evaluationsOf monitor
      [beszelSample .critical "2026-01-01T00:00:00.000Z",
        beszelSample .critical "2026-01-01T00:01:00.000Z",
        beszelSample .healthy "2026-01-01T00:02:00.000Z",
        beszelSample .critical "2026-01-01T00:03:00.000Z"]).IsChain EndsByRecovery := by
  intro law
  exact absurd (law .beszel) (by decide)

end NancyMan.Collector
