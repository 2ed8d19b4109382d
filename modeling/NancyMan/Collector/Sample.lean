import NancyMan.Lib.Js

/-!
# Monitor samples

The data the collector's probes produce and its status machine reads: `MonitorName`,
`MonitorLevel` and `MonitorSample` of the shared models. A level that raises an incident is a
type of its own, `AlertLevel`, as the models exclude the other two there.
-/
namespace NancyMan.Collector

/-- The monitors of the collector. -/
inductive MonitorName where
  | appLiveness
  | appHealth
  | appProcess
  | postgres
  | errors
  | cron
  | backup
  | collector
  | beszel
  | hostResources
  | hostServices
deriving DecidableEq, Repr

/-- The text of a monitor's name. -/
def MonitorName.text : MonitorName → String
  | .appLiveness => "app_liveness"
  | .appHealth => "app_health"
  | .appProcess => "app_process"
  | .postgres => "postgres"
  | .errors => "errors"
  | .cron => "cron"
  | .backup => "backup"
  | .collector => "collector"
  | .beszel => "beszel"
  | .hostResources => "host_resources"
  | .hostServices => "host_services"

/-- The level of a monitor. -/
inductive MonitorLevel where
  | unknown
  | healthy
  | warning
  | critical
deriving DecidableEq, Repr

/-- The text of a level. -/
def MonitorLevel.text : MonitorLevel → String
  | .unknown => "unknown"
  | .healthy => "healthy"
  | .warning => "warning"
  | .critical => "critical"

/-- The level a text names. -/
def MonitorLevel.ofText? : String → Option MonitorLevel
  | "unknown" => some .unknown
  | "healthy" => some .healthy
  | "warning" => some .warning
  | "critical" => some .critical
  | _ => none

@[simp] theorem MonitorLevel.ofText?_text (level : MonitorLevel) :
    ofText? level.text = some level := by
  cases level <;> rfl

/-- `alertLevels`: a level that raises an incident. -/
inductive AlertLevel where
  | warning
  | critical
deriving DecidableEq, Repr

/-- The monitor level of an alert level. -/
def AlertLevel.level : AlertLevel → MonitorLevel
  | .warning => .warning
  | .critical => .critical

/-- Whether a level is one of `alertLevels`. -/
def MonitorLevel.isAlert : MonitorLevel → Bool
  | .warning | .critical => true
  | .unknown | .healthy => false

@[simp] theorem AlertLevel.isAlert_level (alert : AlertLevel) : alert.level.isAlert := by
  cases alert <;> rfl

/-- The alert level of a level that is one. -/
def MonitorLevel.alert? : MonitorLevel → Option AlertLevel
  | .warning => some .warning
  | .critical => some .critical
  | .unknown | .healthy => none

theorem MonitorLevel.alert?_isSome (level : MonitorLevel) : level.alert?.isSome = level.isAlert := by
  cases level <;> rfl

/-- One observation of a monitor. -/
structure MonitorSample (ν : Type) where
  /-- The monitor observed. -/
  monitor : MonitorName
  /-- The level its probe reports. -/
  level : MonitorLevel
  /-- When it was observed, as an ISO text. -/
  observedAt : String
  /-- The time the probe took. -/
  latencyMs : Option ν
  /-- What the probe found. -/
  details : JsObject ν
  /-- The probe's error code. -/
  errorCode : Option String

end NancyMan.Collector
