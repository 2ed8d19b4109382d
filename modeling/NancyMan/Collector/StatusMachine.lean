import Mathlib.Data.List.DropRight
import Mathlib.Data.List.Sort
import NancyMan.Collector.Sample

/-!
# The status machine of a monitor

`evaluateMonitor` turns a sample and the remembered samples before it into a level, a
transition and a key for deduplication. The definitions follow `statusMachine.ts` block by
block; the level and the reason that its branches assign in turn are threaded as a `Verdict`.
-/
namespace NancyMan.Collector

open JsRuntime (add atMost div isFinite less literal parseDate slice toNumber toText)

variable {ν : Type} [JsRuntime ν]

/-- What a step does to the incident of a monitor. -/
inductive Transition where
  | opened
  | changed
  | recovered
deriving DecidableEq, Repr

/-- The result of evaluating a sample. -/
structure Evaluation where
  /-- The effective level of the monitor. -/
  level : MonitorLevel
  /-- The transition of its incident, if any. -/
  transition : Option Transition
  /-- The key of the incident the sample belongs to. -/
  dedupeKey : String
  /-- A summary that is safe to show. -/
  safeSummary : String
  /-- Whether the sample's own condition is healthy. -/
  conditionHealthy : Bool
deriving DecidableEq, Repr

/-- A level with the reason for it. -/
structure Verdict where
  /-- The level. -/
  level : MonitorLevel
  /-- The reason, which becomes part of the key. -/
  reason : String
deriving DecidableEq, Repr

/-- A metric that is over one of its bounds. -/
structure Candidate where
  /-- How bad it is. -/
  level : AlertLevel
  /-- What it is called. -/
  reason : String
  /-- Which of two equally bad metrics is named. -/
  priority : Nat
deriving DecidableEq, Repr

variable (sample : MonitorSample ν)

/-- `probeOk !== false`. -/
def probeOk : Bool := !(sample.details.read "probeOk").isFalse

/-- `isHealthy`: the probe reports healthy and did not fail. -/
def isHealthy : Bool :=
  sample.level = .healthy && probeOk sample

def isFailed : Bool :=
  sample.level ≠ .healthy || (sample.details.read "probeOk").isFalse

variable (samples : List (MonitorSample ν)) (predicate : MonitorSample ν → Bool)

/-- `trailing`: the longest run of samples at the end that all have a property. -/
def trailing : List (MonitorSample ν) :=
  samples.rtakeWhile predicate

/-- `sustained`: a property has held for a time, over at least two samples. -/
def sustained (milliseconds : ℚ) : Bool :=
  match trailing samples predicate with
  | first :: second :: rest =>
    let start := parseDate (ν := ν) first.observedAt
    let finish := parseDate ((second :: rest).getLast (by simp)).observedAt
    isFinite start && isFinite finish &&
      atMost (literal milliseconds) (JsRuntime.sub finish start)
  | _ => false

/-- `effectiveLevel`: the level remembered of a sample, else the level its probe reported. -/
def effectiveLevel : Option (MonitorSample ν) → MonitorLevel
  | none => .unknown
  | some sample =>
    match sample.details.read "effectiveLevel" with
    | .string text => (MonitorLevel.ofText? text).getD sample.level
    | _ => sample.level

/-- `storedConditionHealthy`: the condition remembered of a sample, else that of its probe. -/
def storedConditionHealthy : Bool :=
  match sample.details.read "conditionHealthy" with
  | .boolean value => value
  | _ => isHealthy sample

/-- The order in which `choose` prefers candidates. -/
def preferred (left right : Candidate) : Prop :=
  if left.level = right.level then left.priority ≤ right.priority else left.level = .critical

instance : DecidableRel preferred := fun left right => by
  unfold preferred
  exact inferInstance

/-- `choose`: the worst candidate, by priority among equals. -/
def choose (items : List Candidate) : Option Candidate :=
  (items.insertionSort preferred).head?

/-- `RESOURCE_PRIORITY.disk`. -/
def diskPriority : Nat := 0
/-- `RESOURCE_PRIORITY.memory`. -/
def memoryPriority : Nat := 1
/-- `RESOURCE_PRIORITY.cpu`. -/
def cpuPriority : Nat := 2
/-- `RESOURCE_PRIORITY.load`. -/
def loadPriority : Nat := 3

/-- `(finiteNumber(item.details.name) ?? -Infinity) >= bound`. -/
def metricAtLeast (name : String) (bound : ℚ) (sample : MonitorSample ν) : Bool :=
  atMost (literal bound)
    ((sample.details.read name).finiteNumber.getD JsRuntime.negativeInfinity)

variable (details : JsObject ν)

/-- The five-minute load for each processor thread, when both are known. -/
def loadRatio : Option ν :=
  match (details.read "load5").finiteNumber, (details.read "cpuThreads").finiteNumber with
  | some load, some threads =>
    if less (literal 0) threads then some (div load threads) else none
  | _, _ => none

/-- The load for each thread is known and at least a bound. -/
def loadAtLeast (bound : ℚ) (sample : MonitorSample ν) : Bool :=
  match loadRatio sample.details with
  | some ratio => atMost (literal bound) ratio
  | none => false

/-- The candidate of one metric: its critical bound, else its warning bound. -/
def graded (critical warning : Bool) (criticalReason warningReason : String) (priority : Nat) :
    List Candidate :=
  if critical then [⟨.critical, criticalReason, priority⟩]
  else if warning then [⟨.warning, warningReason, priority⟩]
  else []

/-- The processor's candidate. -/
def cpuCandidates : List Candidate :=
  graded (sustained samples (metricAtLeast "cpuPercent" 95) (10 * 60000))
    (sustained samples (metricAtLeast "cpuPercent" 85) (10 * 60000))
    "cpu_critical" "cpu_warning" cpuPriority

/-- The memory's candidate. -/
def memoryCandidates : List Candidate :=
  graded (sustained samples (metricAtLeast "memoryPercent" 95) (5 * 60000))
    (sustained samples (metricAtLeast "memoryPercent" 85) (10 * 60000))
    "memory_critical" "memory_warning" memoryPriority

/-- The disk's candidate, which needs two samples and no time. -/
def diskCandidates : List Candidate :=
  graded (2 ≤ (trailing samples (metricAtLeast "diskPercent" 90)).length)
    (2 ≤ (trailing samples (metricAtLeast "diskPercent" 80)).length)
    "disk_critical" "disk_warning" diskPriority

/-- The load's candidate. -/
def loadCandidates : List Candidate :=
  graded (sustained samples (loadAtLeast (3 / 2)) (10 * 60000))
    (sustained samples (loadAtLeast 1) (10 * 60000))
    "load_critical" "load_warning" loadPriority

/-- A metric is known and under a bound. -/
def metricBelow (name : String) (bound : ℚ) (details : JsObject ν) : Bool :=
  match (details.read name).finiteNumber with
  | some value => less value (literal bound)
  | none => false

/-- The condition of the host's resources: every metric known and under its warning bound. -/
def resourcesHealthy : Bool :=
  metricBelow "cpuPercent" 85 details && metricBelow "memoryPercent" 85 details &&
    metricBelow "diskPercent" 80 details &&
    match loadRatio details with
    | some ratio => less ratio (literal 1)
    | none => false

def evaluateResources : Option Candidate × Bool :=
  (choose (cpuCandidates samples ++ memoryCandidates samples ++ diskCandidates samples ++
      loadCandidates samples),
    resourcesHealthy details)

def failedServices (sample : MonitorSample ν) : List String :=
  (sample.details.read "failedServices").strings

variable (history : List (MonitorSample ν))

/-- The services failed in a sample and in the one remembered before it, in order of name. -/
def sameFailed (sample : MonitorSample ν) : List String :=
  let previousFailed := (history.getLast?.map failedServices).getD []
  ((failedServices sample).filter fun value => previousFailed.contains value).insertionSort
    fun left right => JsRuntime.localeAtMost ν left right

/-- `evaluateInfrastructure`, with the condition of the sample. -/
def evaluateInfrastructure (sample : MonitorSample ν) : Verdict × Bool :=
  let samples := history ++ [sample]
  match sample.monitor with
  | .hostResources =>
    let (candidate, conditionHealthy) := evaluateResources samples sample.details
    match candidate with
    | some chosen => (⟨chosen.level.level, chosen.reason⟩, conditionHealthy)
    | none => (⟨.healthy, "host_resources_state"⟩, conditionHealthy)
  | .beszel =>
    let failed := isFailed sample
    let twoFailures : Bool := 2 ≤ (trailing samples isFailed).length
    (⟨if twoFailures then .critical else if failed then .unknown else .healthy,
      if twoFailures then "beszel_unavailable" else sample.errorCode.getD "beszel_state"⟩, !failed)
  | _ =>
    match sameFailed history sample with
    | service :: _ =>
      (⟨.critical, "service_failed:" ++ service⟩, (failedServices sample).isEmpty)
    | [] => (⟨.healthy, "host_services_state"⟩, (failedServices sample).isEmpty)

def beforeClear : Option (MonitorSample ν) :=
  (samples.rdropWhile storedConditionHealthy).getLast?

def clearSamples : Nat :=
  (trailing samples storedConditionHealthy).length

/-- What `infrastructureRecovery` decides. -/
structure Recovery where
  /-- The effective level. -/
  level : MonitorLevel
  /-- Whether the alert recovers. -/
  recovers : Bool
  /-- The reason of a level that is held. -/
  reason : Option String
deriving DecidableEq, Repr

def infrastructureRecovery (conditionHealthy : Bool) (previousEffective : MonitorLevel) :
    Recovery :=
  if !conditionHealthy || !previousEffective.isAlert then ⟨.healthy, false, none⟩
  else if !(previousEffective.isAlert || (effectiveLevel (beforeClear samples)).isAlert) then
    ⟨.healthy, false, none⟩
  else if clearSamples samples < 2 then
    ⟨previousEffective, false, some "awaiting_recovery_baseline"⟩
  else ⟨.healthy, true, none⟩

/-- The transition into a level: none unless it is a new alert. -/
def transitionTo (level previousLevel : MonitorLevel) : Option Transition :=
  if level ≠ previousLevel ∧ level.isAlert then
    if previousLevel = .unknown then some .opened else some .changed
  else none

/-- An evaluation from a verdict, with the key and the summary every branch builds. -/
def evaluation (monitor : MonitorName) (verdict : Verdict) (transition : Option Transition)
    (conditionHealthy : Bool) : Evaluation where
  level := verdict.level
  transition := transition
  dedupeKey := monitor.text ++ ":" ++ verdict.reason
  safeSummary := slice ν (monitor.text ++ " " ++ verdict.level.text) 500
  conditionHealthy := conditionHealthy

/-- The reason a recovery repeats: that of the key remembered of the sample before. -/
def recoveredReason : String :=
  let key := (history.getLast?.map fun item => item.details.read "dedupeKey").getD .undefined
  if key.truthy then afterColon (toText key) else "recovered"

/-- `evaluateMonitor` for the monitors of the host. -/
def evaluateHost (sample : MonitorSample ν) : Evaluation :=
  let previousLevel := effectiveLevel history.getLast?
  let infrastructure := evaluateInfrastructure history sample
  if infrastructure.1.level = .healthy then
    let recovery := infrastructureRecovery (history ++ [sample]) infrastructure.2 previousLevel
    let reason :=
      if recovery.recovers then recoveredReason history
      else recovery.reason.getD infrastructure.1.reason
    evaluation (ν := ν) sample.monitor ⟨recovery.level, reason⟩
      (if recovery.recovers then some .recovered else none) infrastructure.2
  else
    evaluation (ν := ν) sample.monitor infrastructure.1
      (transitionTo infrastructure.1.level previousLevel) infrastructure.2

/-- Whether a monitor is one of the three of the host. -/
def MonitorName.isHost : MonitorName → Bool
  | .beszel | .hostResources | .hostServices => true
  | _ => false

/-- Whether a monitor needs two failures and two successes. -/
def MonitorName.isProbed : MonitorName → Bool
  | .appLiveness | .appHealth | .appProcess | .postgres => true
  | _ => false

/-- Whether a monitor reports its own level. -/
def MonitorName.isReported : MonitorName → Bool
  | .backup | .cron | .errors => true
  | _ => false

/-- The verdict before any branch: healthy when the probe says so, else unknown. -/
def initialVerdict : Verdict where
  level := if sample.level = .healthy then .healthy else .unknown
  reason := sample.errorCode.getD (sample.monitor.text ++ "_state")

/-- The branch of the probed monitors. -/
def probeVerdict (sample : MonitorSample ν) (verdict : Verdict) : Verdict :=
  let samples := history ++ [sample]
  let failure := sample.level.isAlert || (sample.details.read "probeOk").isFalse
  if sample.monitor.isProbed then
    if 2 ≤ (trailing samples isFailed).length then
      ⟨.critical, sample.errorCode.getD (sample.monitor.text ++ "_failed")⟩
    else if effectiveLevel history.getLast? = .critical ∧
        (trailing samples isHealthy).length < 2 then
      ⟨.critical, "awaiting_recovery_baseline"⟩
    else if failure then { verdict with level := .unknown }
    else verdict
  else verdict

/-- `Number(details.waitingLockCount ?? 0)`. -/
def waitingLocks : ν :=
  toNumber ((details.read "waitingLockCount").orElse (.number (literal 0)))

def locksWaiting (sample : MonitorSample ν) : Bool :=
  less (literal 0) (waitingLocks sample.details)

/-- `Number(settings?.maxConnections ?? maxConnections ?? 0)`. -/
def maxConnections : ν :=
  toNumber
    ((((details.read "settings").property "maxConnections").orElse
      (details.read "maxConnections")).orElse (.number (literal 0)))

/-- `Object.values(details.connectionStates ?? {})`. -/
def connectionStates : List (JsValue ν) :=
  ((details.read "connectionStates").orElse (.object [])).values

/-- The connections of a sample, counting only finite numbers. -/
def connectionCount : ν :=
  (connectionStates details).foldl
    (fun total value =>
      add total
        (if isFinite (toNumber value) then toNumber value
          else literal 0))
    (literal 0)

/-- The share of the connections in use, which is zero when the maximum is not positive. -/
def connectionRatio : ν :=
  if less (literal 0) (maxConnections details) then
    div (connectionCount details) (maxConnections details)
  else literal 0

/-- The share of the connections of a remembered sample is over a bound. Unlike
`connectionRatio`, the sum here keeps what is not finite. -/
def connectionsOver (bound : ℚ) (sample : MonitorSample ν) : Bool :=
  let maximum := maxConnections sample.details
  let count := (connectionStates sample.details).foldl
    (fun sum value => add sum (toNumber value)) (literal 0)
  less (literal 0) maximum &&
    less (literal bound) (div count maximum)

/-- `ratio > bound` of the sample itself. -/
def ratioOver (bound : ℚ) (sample : MonitorSample ν) : Bool :=
  less (literal bound) (connectionRatio sample.details)

/-- `threshold5m`. -/
def thresholdFiveMinutes : ℚ := 5 * 60 * 1000

/-- The branch of a database with waiting locks. -/
def lockVerdict (sample : MonitorSample ν) (verdict : Verdict) : Verdict :=
  if sample.monitor = .postgres ∧ locksWaiting sample ∧
      sustained samples locksWaiting thresholdFiveMinutes then
    ⟨.critical, "waiting_locks_critical"⟩
  else if sample.monitor = .postgres ∧ locksWaiting sample ∧
      2 ≤ (trailing samples locksWaiting).length then
    ⟨.warning, "waiting_locks_warning"⟩
  else verdict

/-- The branch of a database that runs out of connections. -/
def connectionVerdict (sample : MonitorSample ν) (verdict : Verdict) : Verdict :=
  if sample.monitor = .postgres ∧ ratioOver (9 / 10) sample ∧
      sustained samples (connectionsOver (9 / 10)) thresholdFiveMinutes then
    ⟨.critical, "connections_critical"⟩
  else if sample.monitor = .postgres ∧ ratioOver (8 / 10) sample ∧
      sustained samples (connectionsOver (8 / 10)) thresholdFiveMinutes then
    ⟨.warning, "connections_warning"⟩
  else verdict

/-- The branch of the monitors that report their own level. -/
def reportVerdict (sample : MonitorSample ν) (verdict : Verdict) : Verdict :=
  if sample.monitor.isReported ∧ sample.level ≠ .healthy then
    ⟨sample.level, sample.errorCode.getD
      (if sample.monitor = .errors ∧ (sample.details.read "fingerprint").truthy then
        "error_" ++ slice ν (toText (sample.details.read "fingerprint")) 12
      else sample.monitor.text ++ "_failure")⟩
  else verdict

/-- `Number(details.fingerprintCount5m ?? 0)`. -/
def fingerprintCount : ν :=
  toNumber ((details.read "fingerprintCount5m").orElse (.number (literal 0)))

def fingerprintBurst : Bool :=
  atMost (literal 10) (fingerprintCount details)

/-- The branch of an error log with a fatal line or a burst. -/
def burstVerdict (sample : MonitorSample ν) (verdict : Verdict) : Verdict :=
  if sample.monitor = .errors ∧
      (fingerprintBurst sample.details ∨ (sample.details.read "isFatal").isTrue) then
    ⟨.critical,
      if (sample.details.read "isFatal").isTrue then "fatal_log_line" else "error_fingerprint_burst"⟩
  else verdict

/-- The verdict on a sample before recovery is considered. -/
def directVerdict (sample : MonitorSample ν) : Verdict :=
  let samples := history ++ [sample]
  burstVerdict sample <| reportVerdict sample <| connectionVerdict samples sample <|
    lockVerdict samples sample <| probeVerdict history sample <| initialVerdict sample

/-- The condition of a sample of the monitors that are not of the host. -/
def directHealthy (sample : MonitorSample ν) : Bool :=
  match sample.monitor with
  | .postgres =>
    isHealthy sample && atMost (waitingLocks sample.details) (literal 0) &&
      atMost (connectionRatio sample.details) (literal (8 / 10))
  | .errors =>
    isHealthy sample && less (fingerprintCount sample.details) (literal 10) &&
      !(sample.details.read "isFatal").isTrue
  | _ => isHealthy sample

/-- Some sample remembers its condition. -/
def hasExplicitCondition : Bool :=
  samples.any fun item =>
    match item.details.read "conditionHealthy" with
    | .boolean _ => true
    | _ => false

/-- `recoveryEligible`: the second healthy condition in a row after an alert. -/
def recoveryEligible (sample : MonitorSample ν) : Bool :=
  let samples := history ++ [sample]
  directHealthy sample &&
    (((effectiveLevel history.getLast?).isAlert && 2 ≤ clearSamples samples) ||
      (!hasExplicitCondition samples && (effectiveLevel (beforeClear samples)).isAlert &&
        clearSamples samples = 2))

/-- `holdRecovery`: the first healthy condition after an alert. -/
def holdRecovery (sample : MonitorSample ν) : Bool :=
  let samples := history ++ [sample]
  directHealthy sample &&
    ((effectiveLevel history.getLast?).isAlert || (effectiveLevel (beforeClear samples)).isAlert) &&
    clearSamples samples < 2

/-- The verdict on a sample, which holds the level of an alert that may recover. -/
def heldVerdict (sample : MonitorSample ν) : Verdict :=
  if holdRecovery history sample ∧ (directVerdict history sample).level = .healthy then
    ⟨if (effectiveLevel history.getLast?).isAlert then effectiveLevel history.getLast?
      else effectiveLevel (beforeClear (history ++ [sample])), "awaiting_recovery_baseline"⟩
  else directVerdict history sample

/-- `evaluateMonitor` for the monitors that are not of the host. -/
def evaluateDirect (sample : MonitorSample ν) : Evaluation :=
  if recoveryEligible history sample ∧ (directVerdict history sample).level = .healthy then
    evaluation (ν := ν) sample.monitor ⟨.healthy, (directVerdict history sample).reason⟩
      (some .recovered) (directHealthy sample)
  else
    evaluation (ν := ν) sample.monitor (heldVerdict history sample)
      (transitionTo (heldVerdict history sample).level (effectiveLevel history.getLast?))
      (directHealthy sample)

def evaluateMonitor (sample : MonitorSample ν) : Evaluation :=
  if sample.monitor.isHost then evaluateHost history sample else evaluateDirect history sample

end NancyMan.Collector
