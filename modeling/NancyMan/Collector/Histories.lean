import NancyMan.Lib.Machine
import NancyMan.Collector.StatusMachine

/-!
# Remembered samples

`remember` evaluates a sample against the samples remembered of its monitor and remembers it
with what the evaluation found, keeping the last 120. What the next evaluation reads of the
sample before it is exactly the level, the key and the condition of its evaluation.
-/
namespace NancyMan.Collector

variable {ν : Type}

/-- `deps.histories`: the samples remembered of each monitor, oldest first. -/
abbrev Histories (ν : Type) := MonitorName → List (MonitorSample ν)

variable (sample : MonitorSample ν)

/-- The sample as it is remembered: its details carry its evaluation. -/
def annotated (evaluation : Evaluation) : MonitorSample ν :=
  { sample with
    details := ((sample.details.write "dedupeKey" (.string evaluation.dedupeKey)).write
      "effectiveLevel" (.string evaluation.level.text)).write
      "conditionHealthy" (.boolean evaluation.conditionHealthy) }

@[simp] theorem effectiveLevel_annotated (evaluation : Evaluation) :
    effectiveLevel (some (annotated sample evaluation)) = evaluation.level := by
  simp [effectiveLevel, annotated, JsObject.read_write_other]

@[simp] theorem storedConditionHealthy_annotated (evaluation : Evaluation) :
    storedConditionHealthy (annotated sample evaluation) = evaluation.conditionHealthy := by
  simp [storedConditionHealthy, annotated]

@[simp] theorem dedupeKey_annotated (evaluation : Evaluation) :
    (annotated sample evaluation).details.read "dedupeKey" = .string evaluation.dedupeKey := by
  simp [annotated, JsObject.read_write_other]

variable [JsRuntime ν]

def historyLimit : Nat := 120

variable (histories : Histories ν)

def remember (sample : MonitorSample ν) : Histories ν × Evaluation :=
  let history := histories sample.monitor
  let evaluation := evaluateMonitor history sample
  (Function.update histories sample.monitor
    ((history ++ [annotated sample evaluation]).rtake historyLimit), evaluation)

def Histories.empty : Histories ν := fun _ => []

theorem getLast?_rtake {α : Type*} (items : List α) (limit : Nat) (positive : 0 < limit) :
    (items.rtake limit).getLast? = items.getLast? := by
  rcases List.eq_nil_or_concat items with rfl | ⟨front, last, rfl⟩
  · simp
  · obtain ⟨smaller, rfl⟩ := Nat.exists_eq_add_of_lt positive
    simp

theorem remember_getLast? (sample : MonitorSample ν) :
    ((remember histories sample).1 sample.monitor).getLast? =
      some (annotated sample (remember histories sample).2) := by
  simp [remember, getLast?_rtake, historyLimit]

theorem remember_other (sample : MonitorSample ν) {monitor : MonitorName}
    (other : monitor ≠ sample.monitor) :
    (remember histories sample).1 monitor = histories monitor := by
  simp [remember, other]

end NancyMan.Collector
