import Mathlib.Data.Rat.Cast.Order

/-!
# The risk of a statement

A statement is put behind a gate by what it is, by the rows that it affects, and by their share of the
table. The share counts only of a table with a positive number of rows. `classifyRisk_monotone_iff`
says when a statement that affects more is put behind a gate that demands as much.
-/
namespace NancyMan.SqlWorker

inductive SqlRisk where
  | low
  | medium
  | high
  | critical
deriving DecidableEq

def SqlRisk.rank : SqlRisk → Nat
  | .low => 0
  | .medium => 1
  | .high => 2
  | .critical => 3

theorem SqlRisk.rank_injective : Function.Injective SqlRisk.rank := by
  intro left right same
  cases left <;> cases right <;> first | rfl | cases same

instance : LinearOrder SqlRisk := LinearOrder.lift' SqlRisk.rank SqlRisk.rank_injective

inductive SqlRecoverability where
  | reversible
  | pitrOnly
  | noAutomaticUndo
deriving DecidableEq

inductive SqlExecutionCategory where
  | dml
  | transactionalDdl
  | nonTransactional
  | truncate
  | drop
  | journalBypass
  | unparsed
  | cluster
deriving DecidableEq

structure ExecutionGate where
  risk : SqlRisk
  recoverability : SqlRecoverability
  requiresRecentMfa : Bool
  requiresRestorePoint : Bool
  confirmationPhrase : String
  warnings : List String
  ownerOnly : Bool
deriving DecidableEq

/-- What is known of a statement; a property that may be left out is `none`. -/
structure SqlRiskInput where
  executionKey : String
  category : SqlExecutionCategory
  registeredTable : Bool
  hasWhere : Option Bool
  affectedRows : Int
  tableRows : Option Int
  cascadeRows : Option Int

def confirmationPhrase (executionKey : String) : SqlRisk → String
  | .critical => "BREAK GLASS " ++ executionKey
  | .high => "EXECUTE PRODUCTION " ++ executionKey
  | _ => "EXECUTE " ++ executionKey

def requiredConfirmation (executionKey : String) (risk : SqlRisk) : String :=
  confirmationPhrase executionKey risk

def gate (executionKey : String) (risk : SqlRisk) (recoverability : SqlRecoverability)
    (requiresRecentMfa requiresRestorePoint : Bool) (warnings : List String) (ownerOnly : Bool) :
    ExecutionGate :=
  ⟨risk, recoverability, requiresRecentMfa, requiresRestorePoint,
    requiredConfirmation executionKey risk, warnings, ownerOnly⟩

variable (input : SqlRiskInput)

def affectsMoreThan (fraction : ℚ) : Bool :=
  match input.tableRows with
  | none => false
  | some tableRows => 0 < tableRows && fraction < (input.affectedRows : ℚ) / tableRows

namespace SqlRiskInput

variable (input : SqlRiskInput)

/-- The local `affectedRows`. -/
def affected : Int := max 0 input.affectedRows

def cascades : Int := max 0 (input.cascadeRows.getD 0)

def isUnregisteredDml : Bool := input.category = .dml && !input.registeredTable

/-- What is critical whatever its share of the table. -/
def breaksGlass : Bool :=
  input.category = .truncate || input.category = .drop || input.category = .journalBypass ||
    input.category = .unparsed || input.category = .cluster || input.isUnregisteredDml ||
    1000 < input.affected

def broadDml : Bool :=
  input.category = .dml &&
    (input.hasWhere = some false || 100 < input.affected || affectsMoreThan input (1 / 10))

def broadCascade : Bool := 100 < input.cascades

def schemaChange : Bool :=
  input.category = .transactionalDdl || input.category = .nonTransactional

def unknownTableImpact : Bool := input.category = .dml && input.tableRows = none

/-- The warnings of a gate of high risk. -/
def warnings : List String :=
  (if input.hasWhere = some false then
      ["No WHERE clause; preview must prove the affected row set."] else []) ++
    (if 100 < input.affected || affectsMoreThan input (1 / 10) then
      ["The change has broad table impact."] else []) ++
    (if input.broadCascade then ["The change cascades to more than 100 rows."] else []) ++
    (if input.schemaChange then
      ["Schema changes require a restore point and post-change verification."] else []) ++
    (if input.unknownTableImpact then ["The full table impact could not be measured."] else [])

end SqlRiskInput

def classifyRisk : ExecutionGate :=
  if input.breaksGlass || affectsMoreThan input (1 / 4) then
    gate input.executionKey .critical .pitrOnly true true
      [if input.isUnregisteredDml then
        "The target table is not registered for complete row journaling."
      else "This operation requires verified point-in-time recovery evidence."] true
  else if input.broadDml || input.broadCascade || input.schemaChange || input.unknownTableImpact then
    gate input.executionKey .high (if input.category = .dml then .reversible else .pitrOnly) true true
      input.warnings false
  else gate input.executionKey .low .reversible false false [] false

/-! ## The rules and the share of the table -/

/-- What is of high risk whatever its share of the table. -/
def SqlRiskInput.isBroad : Bool :=
  (input.category = .dml && (input.hasWhere = some false || 100 < input.affected)) ||
    input.broadCascade || input.schemaChange || input.unknownTableImpact

/-- Critical before high before low. -/
def tier (isCritical isHigh : Bool) : SqlRisk :=
  if isCritical then .critical else if isHigh then .high else .low

/-- The risk by every rule that does not ask for the share of the table. -/
def ruleRisk : SqlRisk := tier input.breaksGlass input.isBroad

/-- The risk by the share of the table alone. -/
def shareRisk : SqlRisk :=
  tier (affectsMoreThan input (1 / 4)) (input.category = .dml && affectsMoreThan input (1 / 10))

theorem tier_mono {isCritical isHigh isCritical' isHigh' : Bool}
    (critical : isCritical → isCritical') (high : isHigh → isHigh') :
    tier isCritical isHigh ≤ tier isCritical' isHigh' := by
  revert critical high
  cases isCritical <;> cases isHigh <;> cases isCritical' <;> cases isHigh' <;> decide

theorem tier_max (isCritical isHigh isCritical' isHigh' : Bool) :
    tier (isCritical || isCritical') (isHigh || isHigh') =
      max (tier isCritical isHigh) (tier isCritical' isHigh') := by
  cases isCritical <;> cases isHigh <;> cases isCritical' <;> cases isHigh' <;> rfl

/-- What a gate demands by the category of a statement and its risk. -/
structure ExecutionGate.Demands (executionGate : ExecutionGate) (category : SqlExecutionCategory) :
    Prop where
  requiresRecentMfa : executionGate.requiresRecentMfa ↔ executionGate.risk ≠ .low
  requiresRestorePoint : executionGate.requiresRestorePoint ↔ executionGate.risk ≠ .low
  ownerOnly : executionGate.ownerOnly ↔ executionGate.risk = .critical
  recoverability : executionGate.recoverability = .pitrOnly ↔ executionGate.risk = .critical ∨
    executionGate.risk = .high ∧ category ≠ .dml
  undone : executionGate.recoverability = .pitrOnly ∨ executionGate.recoverability = .reversible

theorem classifyRisk_demands : (classifyRisk input).Demands input.category := by
  unfold classifyRisk
  split
  · constructor <;> simp [gate]
  · split
    · by_cases dml : input.category = .dml
      · constructor <;> simp [gate, dml]
      · constructor <;> simp [gate, dml]
    · constructor <;> simp [gate]

open SqlRiskInput

/-- The risk is the higher one of the two. -/
theorem classifyRisk_risk : (classifyRisk input).risk = max (ruleRisk input) (shareRisk input) := by
  have broad : (input.broadDml || input.broadCascade || input.schemaChange ||
      input.unknownTableImpact) =
      (input.isBroad || (input.category = .dml && affectsMoreThan input (1 / 10))) := by
    unfold broadDml isBroad
    generalize decide (input.category = .dml) = dml
    generalize affectsMoreThan input (1 / 10) = share
    cases dml <;> cases share <;> simp
  have tiers : (classifyRisk input).risk =
      tier (input.breaksGlass || affectsMoreThan input (1 / 4))
        (input.broadDml || input.broadCascade || input.schemaChange || input.unknownTableImpact) := by
    unfold classifyRisk tier
    split
    · rfl
    · split <;> rfl
  rw [tiers, broad, tier_max, ruleRisk, shareRisk]

theorem affectsMoreThan_iff {input : SqlRiskInput} {fraction : ℚ} :
    affectsMoreThan input fraction ↔ ∃ rows, input.tableRows = some rows ∧ 0 < rows ∧
      fraction * rows < input.affectedRows := by
  unfold affectsMoreThan
  cases input.tableRows with
  | none => simp
  | some rows =>
    simp only [Bool.and_eq_true, decide_eq_true_eq, Option.some.injEq, exists_eq_left']
    apply and_congr_right
    intro positive
    exact lt_div_iff₀ (Int.cast_pos.mpr positive)

/-! ## What affects more -/

/-- A known size that is no larger, or none where none was known. -/
inductive SizeAtMost : Option Int → Option Int → Prop
  | unknown : SizeAtMost none none
  | known {size other : Int} (smaller : other ≤ size) : SizeAtMost (some size) (some other)

theorem SizeAtMost.none_of {size : Option Int} (sizes : SizeAtMost none size) : size = none := by
  cases sizes
  rfl

theorem SizeAtMost.le_of {size other : Int} (sizes : SizeAtMost (some size) (some other)) :
    other ≤ size := by
  cases sizes
  assumption

/-- A second statement is of the kind of the first and affects at least as much. -/
structure SqlRiskInput.AtMost (first second : SqlRiskInput) : Prop where
  executionKey : first.executionKey = second.executionKey
  category : first.category = second.category
  affectedRows : first.affectedRows ≤ second.affectedRows
  cascadeRows : first.cascadeRows.getD 0 ≤ second.cascadeRows.getD 0
  tableRows : SizeAtMost first.tableRows second.tableRows
  hasWhere : first.hasWhere = some false → second.hasWhere = some false
  registeredTable : first.registeredTable = false → second.registeredTable = false

/-- A second gate demands what the first one does. -/
structure ExecutionGate.AtMost (first second : ExecutionGate) : Prop where
  risk : first.risk ≤ second.risk
  requiresRecentMfa : first.requiresRecentMfa → second.requiresRecentMfa = true
  requiresRestorePoint : first.requiresRestorePoint → second.requiresRestorePoint = true
  ownerOnly : first.ownerOnly → second.ownerOnly = true
  recoverability : first.recoverability = .pitrOnly → second.recoverability ≠ .reversible

section Monotone

variable {first second : SqlRiskInput}

theorem SqlRisk.demands_of_le {risk other : SqlRisk} (ordered : risk ≤ other) :
    (risk ≠ .low → other ≠ .low) ∧
      (risk = .high → other = .high ∨ other = .critical) ∧
      (risk = .critical → other = .critical) := by
  revert ordered
  cases risk <;> cases other <;> decide

/-- For one category the gates are ordered as their risks. -/
theorem gates_ordered_iff (category : first.category = second.category) :
    (classifyRisk first).AtMost (classifyRisk second) ↔
      (classifyRisk first).risk ≤ (classifyRisk second).risk := by
  refine ⟨fun ordered => ordered.risk, fun ordered => ?_⟩
  have before := classifyRisk_demands first
  have after := classifyRisk_demands second
  obtain ⟨raised, kept, top⟩ := SqlRisk.demands_of_le ordered
  refine ⟨ordered, fun demanded => ?_, fun demanded => ?_, fun demanded => ?_, fun pitr => ?_⟩
  · exact after.requiresRecentMfa.mpr (raised (before.requiresRecentMfa.mp demanded))
  · exact after.requiresRestorePoint.mpr (raised (before.requiresRestorePoint.mp demanded))
  · exact after.ownerOnly.mpr (top (before.ownerOnly.mp demanded))
  · have pitr' : (classifyRisk second).recoverability = .pitrOnly := by
      apply after.recoverability.mpr
      rcases before.recoverability.mp pitr with critical | ⟨high, other⟩
      · exact .inl (top critical)
      · rcases kept high with high' | critical
        · exact .inr ⟨high', category ▸ other⟩
        · exact .inl critical
    rw [pitr']
    nofun

theorem affected_le (larger : first.AtMost second) : first.affected ≤ second.affected :=
  max_le_max_left 0 larger.affectedRows

theorem ruleRisk_mono (larger : first.AtMost second) : ruleRisk first ≤ ruleRisk second := by
  have affected := affected_le larger
  have cascades : first.cascades ≤ second.cascades := max_le_max_left 0 larger.cascadeRows
  have unmeasured : first.tableRows = none → second.tableRows = none := by
    intro unknown
    have sizes := larger.tableRows
    rw [unknown] at sizes
    exact sizes.none_of
  apply tier_mono
  · have unregistered := larger.registeredTable
    simp only [breaksGlass, isUnregisteredDml, larger.category,
      Bool.or_eq_true, Bool.and_eq_true, Bool.not_eq_true', decide_eq_true_eq]
    grind
  · have whole := larger.hasWhere
    simp only [isBroad, broadCascade, schemaChange,
      unknownTableImpact, larger.category, Bool.or_eq_true, Bool.and_eq_true,
      decide_eq_true_eq]
    grind

/-- The share of a table with rows grows with the rows that are affected. -/
theorem affectsMoreThan_mono (larger : first.AtMost second) {rows : Int}
    (measured : second.tableRows = some rows) (positive : 0 < rows) {fraction : ℚ}
    (nonnegative : 0 ≤ fraction) (more : affectsMoreThan first fraction) :
    affectsMoreThan second fraction := by
  obtain ⟨size, known, _, exceeds⟩ := affectsMoreThan_iff.mp more
  have smaller : rows ≤ size := by
    have sizes := larger.tableRows
    rw [known, measured] at sizes
    exact sizes.le_of
  apply affectsMoreThan_iff.mpr
  refine ⟨rows, measured, positive, ?_⟩
  calc fraction * rows ≤ fraction * size :=
        mul_le_mul_of_nonneg_left (Int.cast_le.mpr smaller) nonnegative
    _ < first.affectedRows := exceeds
    _ ≤ second.affectedRows := Int.cast_le.mpr larger.affectedRows

theorem shareRisk_mono (larger : first.AtMost second) {rows : Int}
    (measured : second.tableRows = some rows) (positive : 0 < rows) :
    shareRisk first ≤ shareRisk second := by
  apply tier_mono
  · exact affectsMoreThan_mono larger measured positive (by decide +kernel)
  · intro broad
    rw [Bool.and_eq_true] at broad ⊢
    refine ⟨larger.category ▸ broad.1, ?_⟩
    exact affectsMoreThan_mono larger measured positive (by decide +kernel) broad.2

/-- A table without a positive number of rows has no share. -/
theorem shareRisk_eq_low {input : SqlRiskInput}
    (unmeasured : ¬∃ rows, input.tableRows = some rows ∧ 0 < rows) : shareRisk input = .low := by
  have none' (fraction : ℚ) : affectsMoreThan input fraction = false := by
    apply Bool.eq_false_iff.mpr
    intro more
    obtain ⟨rows, known, positive, -⟩ := affectsMoreThan_iff.mp more
    exact unmeasured ⟨rows, known, positive⟩
  rw [shareRisk, none', none', Bool.and_false]
  rfl

/-- A statement that affects at least as much is put behind a gate that demands as much exactly where
its table has a positive number of rows, or the other rules give it the risk that the first statement
has by its share of the table. -/
theorem classifyRisk_monotone_iff (larger : first.AtMost second) :
    (classifyRisk first).AtMost (classifyRisk second) ↔
      (∃ rows, second.tableRows = some rows ∧ 0 < rows) ∨ shareRisk first ≤ ruleRisk second := by
  rw [gates_ordered_iff larger.category, classifyRisk_risk, classifyRisk_risk]
  have rules := ruleRisk_mono larger
  constructor
  · intro ordered
    by_cases measured : ∃ rows, second.tableRows = some rows ∧ 0 < rows
    · exact .inl measured
    · right
      rw [shareRisk_eq_low measured] at ordered
      have bottom : SqlRisk.low ≤ ruleRisk second := by
        cases ruleRisk second <;> decide
      rw [max_eq_left bottom] at ordered
      exact le_trans (le_max_right _ _) ordered
  · rintro (⟨rows, measured, positive⟩ | covered)
    · exact max_le_max rules (shareRisk_mono larger measured positive)
    · exact max_le (le_max_of_le_left rules) (le_max_of_le_left covered)

end Monotone

/-- A correction of registered rows. -/
def correction (affectedRows tableRows : Int) : SqlRiskInput where
  executionKey := "SQL-20260822-01HLOW"
  category := .dml
  registeredTable := true
  hasWhere := some true
  affectedRows := affectedRows
  tableRows := some tableRows
  cascadeRows := none

theorem correction_atMost {affectedRows tableRows fewer : Int} (smaller : fewer ≤ tableRows) :
    (correction affectedRows tableRows).AtMost (correction affectedRows fewer) :=
  ⟨rfl, rfl, le_rfl, le_rfl, .known smaller, id, id⟩

/-- Of a smaller table as many rows are a larger share. -/
theorem classifyRisk_monotone_correction :
    (classifyRisk (correction 5 100)).AtMost (classifyRisk (correction 5 10)) :=
  (classifyRisk_monotone_iff (correction_atMost (by decide))).mpr (.inl ⟨10, rfl, by decide⟩)

/-- Half of a table is critical, and as many rows of a table that is estimated to have none are not. -/
theorem empty_table_lowers_risk :
    ¬∀ first second : SqlRiskInput, first.AtMost second →
      (classifyRisk first).AtMost (classifyRisk second) := by
  intro monotone
  have ordered := monotone (correction 5 10) (correction 5 0) (correction_atMost (by decide))
  have lowered : ¬(classifyRisk (correction 5 10)).risk ≤ (classifyRisk (correction 5 0)).risk := by
    decide +kernel
  exact lowered ordered.risk

end NancyMan.SqlWorker
