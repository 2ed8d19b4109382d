import NancyMan.Agent.ApplyStateMachine
import NancyMan.Lib.JsonRoundTrip

/-!
# The apply journal

The journal is one file of records, one for each run. The reader has checks of its own: it stops at
the first record that fails one of them, and has noted the records before it. What is written is
read back exactly as far as the records pass.
-/
namespace NancyMan.Agent

/-- What the journal keeps of a run. -/
structure RecoveryRecord where
  changeId : String
  runId : String
  appId : String
  state : ApplyState
  hasWrites : Bool
  sequence : Option Nat
  changeDigest : Option String
  buildReleaseId : Option String
  previousReleaseId : Option String

def provided (text : Option String) : Option String :=
  text.filter fun text => text ≠ ""

/-- A property that is left out when it has no value. -/
def property (name : String) (value : Option Json) : List (String × Json) :=
  match value with
  | some value => [(name, value)]
  | none => []

def sequenceJson (sequence : Nat) : Json := .number (.ofInt sequence)

variable (record : RecoveryRecord)

/-- A record as `writeJournal` renders it. -/
def RecoveryRecord.toJson : Json :=
  .object ([("changeId", .string record.changeId), ("runId", .string record.runId),
      ("appId", .string record.appId), ("state", .string record.state.text),
      ("hasWrites", .boolean record.hasWrites)] ++
    property "sequence" (record.sequence.map sequenceJson) ++
    property "changeDigest" (record.changeDigest.map .string) ++
    property "buildReleaseId" (record.buildReleaseId.map .string) ++
    property "previousReleaseId" (record.previousReleaseId.map .string))

variable (records : List RecoveryRecord)

/-- The bytes that `writeJournal` leaves, as a text. -/
def writeJournal : String :=
  Json.render (.array (records.map RecoveryRecord.toJson)) ++ "\n"

def recoveryStates : List ApplyState :=
  [.applying, .snapshotted, .written, .actionRunning, .healthChecking, .rollingBack, .completed,
    .rolledBack, .rollbackFailed]

def readState (text : String) : Option ApplyState :=
  recoveryStates.find? fun state => state.text = text

/-- `Number.MAX_SAFE_INTEGER`. -/
def maxSafeSequence : Nat := 9007199254740991

/-- A sequence number that passes its check; one that is left out does. -/
def readSequence : Option Json → Option (Option Nat)
  | none => some none
  | some (.number literal) =>
    match literal.toInt? with
    | some value => if 1 ≤ value ∧ value ≤ maxSafeSequence then some (some value.toNat) else none
    | none => none
  | some _ => none

/-- A digest that passes its check; an empty one is dropped. -/
def readDigest : Option Json → Option (Option String)
  | none => some none
  | some (.string text) => some (provided (some text))
  | some _ => none

/-- The value of a boolean. -/
def boolean? : Json → Option Bool
  | .boolean value => some value
  | _ => none

/-- A record that passes the checks of `journalRecords`. -/
def readRecord (value : Json) : Option RecoveryRecord := do
  let changeId ← (value.property? "changeId").bind Json.string?
  let runId ← (value.property? "runId").bind Json.string?
  let appId ← (value.property? "appId").bind Json.string?
  let state ← ((value.property? "state").bind Json.string?).bind readState
  let hasWrites ← (value.property? "hasWrites").bind boolean?
  let sequence ← readSequence (value.property? "sequence")
  let changeDigest ← readDigest (value.property? "changeDigest")
  some {
    changeId, runId, appId, state, hasWrites, sequence, changeDigest
    buildReleaseId := (value.property? "buildReleaseId").bind Json.string?
    previousReleaseId := (value.property? "previousReleaseId").bind Json.string? }

/-- The records that are read before one fails, and whether none does. -/
def readEntries : List Json → List RecoveryRecord × Bool
  | [] => ([], true)
  | entry :: rest =>
    match readRecord entry with
    | none => ([], false)
    | some record => (record :: (readEntries rest).1, (readEntries rest).2)

/-- The reading of the journal's text by `journalRecords`. -/
def readJournal (text : String) : List RecoveryRecord × Bool :=
  match Json.parse text with
  | some (.array entries) => readEntries entries
  | _ => ([], false)

/-! ## What is read back -/

def RecoveryRecord.Numbered : Prop :=
  ∀ sequence ∈ record.sequence, 1 ≤ sequence ∧ sequence ≤ maxSafeSequence

instance (record : RecoveryRecord) : Decidable record.Numbered :=
  inferInstanceAs (Decidable (∀ sequence ∈ record.sequence, _))

def RecoveryRecord.asRead : RecoveryRecord :=
  { record with changeDigest := provided record.changeDigest }

/-- What is read of written records. -/
def readBack : List RecoveryRecord → List RecoveryRecord × Bool
  | [] => ([], true)
  | record :: rest =>
    if record.Numbered then (record.asRead :: (readBack rest).1, (readBack rest).2)
    else ([], false)

theorem readState_text (state : ApplyState) : readState state.text = some state := by
  cases state <;> rfl

/-- A written sequence number is read when it passes its check. -/
theorem readSequence_written :
    readSequence (record.sequence.map sequenceJson) =
      if record.Numbered then some record.sequence else none := by
  by_cases numbered : record.Numbered
  · rw [if_pos numbered]
    cases found : record.sequence with
    | none => rfl
    | some value =>
      have inside : 1 ≤ (value : Int) ∧ (value : Int) ≤ maxSafeSequence := by
        have bounds := numbered value found
        omega
      simp only [Option.map_some, sequenceJson, readSequence, Numeral.toInt?_ofInt, if_pos inside,
        Int.toNat_natCast]
  · rw [if_neg numbered]
    cases found : record.sequence with
    | none => exact absurd (fun value member => by simp [found] at member) numbered
    | some value =>
      have outside : ¬ (1 ≤ (value : Int) ∧ (value : Int) ≤ maxSafeSequence) := by
        intro bounds
        refine numbered fun other member => ?_
        rw [found] at member
        cases member
        omega
      simp only [Option.map_some, sequenceJson, readSequence, Numeral.toInt?_ofInt, if_neg outside]

theorem readDigest_written (digest : Option String) :
    readDigest (digest.map .string) = some (provided digest) := by
  cases digest with
  | none => rfl
  | some text => rfl

theorem string?_written (text : Option String) :
    (text.map Json.string).bind Json.string? = text := by
  cases text with
  | none => rfl
  | some text => rfl

/-- The properties of a written record, of which those without a value are left out. -/
theorem toJson_properties :
    record.toJson.property? "changeId" = some (.string record.changeId) ∧
      record.toJson.property? "runId" = some (.string record.runId) ∧
      record.toJson.property? "appId" = some (.string record.appId) ∧
      record.toJson.property? "state" = some (.string record.state.text) ∧
      record.toJson.property? "hasWrites" = some (.boolean record.hasWrites) ∧
      record.toJson.property? "sequence" = record.sequence.map sequenceJson ∧
      record.toJson.property? "changeDigest" = record.changeDigest.map .string ∧
      record.toJson.property? "buildReleaseId" = record.buildReleaseId.map .string ∧
      record.toJson.property? "previousReleaseId" = record.previousReleaseId.map .string := by
  obtain ⟨changeId, runId, appId, state, hasWrites, sequence, digest, build, previous⟩ := record
  cases sequence <;> cases digest <;> cases build <;> cases previous <;>
    exact ⟨rfl, rfl, rfl, rfl, rfl, rfl, rfl, rfl, rfl⟩

/-- A written record is read back exactly when its sequence number passes. -/
theorem readRecord_toJson :
    readRecord record.toJson = if record.Numbered then some record.asRead else none := by
  obtain ⟨changeId, runId, appId, state, hasWrites, sequence, digest, build, previous⟩ :=
    toJson_properties record
  simp only [readRecord, changeId, runId, appId, state, hasWrites, sequence, digest, build, previous,
    string?_written, readSequence_written, readDigest_written, readState_text, Json.string?, boolean?,
    Option.bind_eq_bind, Option.bind_some]
  by_cases numbered : record.Numbered
  · rw [if_pos numbered, if_pos numbered]
    rfl
  · rw [if_neg numbered, if_neg numbered]
    rfl

/-- Written records are read back up to the first that fails. -/
theorem readEntries_written :
    readEntries (records.map RecoveryRecord.toJson) = readBack records := by
  induction records with
  | nil => rfl
  | cons record rest ih =>
    simp only [List.map_cons, readEntries, readBack, readRecord_toJson]
    by_cases numbered : record.Numbered
    · simp only [if_pos numbered, ih]
    · simp only [if_neg numbered]

theorem readJournal_writeJournal : readJournal (writeJournal records) = readBack records := by
  have parsed : Json.parse (writeJournal records) =
      some (.array (records.map RecoveryRecord.toJson)) :=
    Json.parse_render_space (.array (records.map RecoveryRecord.toJson)) rfl
  simp only [readJournal, parsed, readEntries_written]

end NancyMan.Agent
