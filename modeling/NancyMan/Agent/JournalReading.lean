import NancyMan.Agent.ApplyOutcome
import NancyMan.Agent.RuntimeHandlers

/-!
# Whether the agent reads its own journal

A journal whose records pass the reader's checks stays one as long as every event that reaches the
file has a sequence number that passes. The first event of a run has none that does.
-/
namespace NancyMan.Agent

open Agent.Runtime

variable (runtime : Runtime)

def Legible : Prop :=
  readJournal (writeJournal runtime.journal) = (runtime.journal, true)

def RecoveryRecord.Faithful (record : RecoveryRecord) : Prop :=
  record.Numbered ∧ record.asRead = record

/-- Records are read back as themselves exactly when each of them is. -/
theorem readBack_eq_iff {records : List RecoveryRecord} :
    readBack records = (records, true) ↔ ∀ record ∈ records, record.Faithful := by
  induction records with
  | nil => exact iff_of_true rfl nofun
  | cons record rest ih =>
    rw [List.forall_mem_cons, ← ih, RecoveryRecord.Faithful]
    by_cases numbered : record.Numbered
    · simp only [readBack, numbered, if_true, true_and, Prod.ext_iff, List.cons.injEq, and_assoc]
    · simp [readBack, numbered]

theorem legible_iff {runtime : Runtime} :
    Legible runtime ↔ ∀ record ∈ runtime.journal, record.Faithful := by
  rw [Legible, readJournal_writeJournal, readBack_eq_iff]

def ReadsItself (turn : AgentTurn) : Prop :=
  Legible (runtime.handle turn).1 ∧ (runtime.handle turn).2 ≠ .journalInvalid

/-- An event that a turn writes to the file has a sequence number that passes the reader's check. -/
def Sequenced (turn : AgentTurn) : Prop :=
  ∀ event eventId access, turn = .persistEvent event eventId access → runtime.up = true →
    (runtime.changes event.changeId).isSome = true → access = .unsynced ∨ access = .done →
    1 ≤ event.sequence ∧ event.sequence ≤ maxSafeSequence

section Turns

variable {runtime : Runtime}

theorem journalRecords_legible (legible : Legible runtime) :
    runtime.journalRecords.2 = some runtime.journal := by
  have read : readBack runtime.journal = (runtime.journal, true) := by
    rw [← readJournal_writeJournal]
    exact legible
  rw [journalRecords, read]
  rfl

variable (records : List RecoveryRecord) {next : RecoveryRecord}

theorem recall_journal : (records.foldl Runtime.recall runtime).journal = runtime.journal := by
  induction records generalizing runtime with
  | nil => rfl
  | cons record rest ih => exact ih

/-- A process starts on a legible journal. -/
theorem start_legible (legible : Legible runtime) :
    Legible (start runtime.journal).1 ∧ (start runtime.journal).2 = .done := by
  have read : (blank runtime.journal).journalRecords.2 = some runtime.journal :=
    journalRecords_legible (show Legible (.blank runtime.journal) from legible)
  have records : (start runtime.journal).1.journal = runtime.journal := by
    simp only [start, read]
    exact recall_journal _
  refine ⟨?_, ?_⟩
  · rw [legible_iff, records]
    exact legible_iff.mp legible
  · simp only [start, read]

/-- Faithful records with another one are faithful exactly when that one is. -/
theorem replaceRecord_faithful {records : List RecoveryRecord}
    (faithful : ∀ record ∈ records, record.Faithful) :
    (∀ record ∈ replaceRecord records next, record.Faithful) ↔ next.Faithful := by
  constructor
  · exact fun every => every next (List.mem_append_right _ (List.mem_singleton_self next))
  · intro last record member
    rcases List.mem_append.mp member with kept | added
    · exact faithful record (List.mem_of_mem_filter kept)
    · rw [List.mem_singleton.mp added]
      exact last

/-- The record of an event is faithful exactly when the event's sequence number passes. -/
theorem nextRecord_faithful (current : RuntimeChange) (event : ApplyEvent)
    (existing : Option RecoveryRecord) :
    (runtime.nextRecord current event existing).Faithful ↔
      1 ≤ event.sequence ∧ event.sequence ≤ maxSafeSequence := by
  have digest : (runtime.nextRecord current event existing).asRead =
      runtime.nextRecord current event existing := by
    simp [nextRecord, RecoveryRecord.asRead, provided, Option.filter_filter]
  rw [RecoveryRecord.Faithful, and_iff_left digest]
  simp [RecoveryRecord.Numbered, nextRecord]

/-- An update of a legible journal by a run's record leaves one when the record is faithful. -/
theorem writeJournal_legible (legible : Legible runtime) (access : JournalAccess) :
    Legible (runtime.writeJournal (replaceRecord runtime.journal next) access).1 ↔
      (access = .unsynced ∨ access = .done → next.Faithful) := by
  have replaced : Legible { runtime with journal := replaceRecord runtime.journal next } ↔
      next.Faithful := by
    rw [legible_iff]
    exact replaceRecord_faithful (legible_iff.mp legible)
  cases access with
  | unreadable => exact iff_of_true legible (by simp)
  | lost => exact iff_of_true legible (by simp)
  | unsynced => simpa [Runtime.writeJournal] using replaced
  | done => simpa [Runtime.writeJournal] using replaced

theorem writeJournal_outcome (access : JournalAccess) :
    (runtime.writeJournal records access).2 ≠ .journalInvalid := by
  cases access with
  | unreadable => nofun
  | lost => nofun
  | unsynced => nofun
  | done => nofun

theorem forgetBuild_journal (runId : String) (state : ApplyState) :
    (runtime.forgetBuild runId state).journal = runtime.journal := by
  unfold forgetBuild
  split
  · rfl
  · rfl

/-- A persisted event leaves a legible journal exactly when its sequence number passes, or does not
reach the file. -/
theorem persistKnown_legible (legible : Legible runtime) (current : RuntimeChange)
    (event : ApplyEvent) (eventId : String) (access : JournalAccess) :
    (Legible (runtime.persistKnown current event eventId access).1 ∧
        (runtime.persistKnown current event eventId access).2 ≠ .journalInvalid) ↔
      (access = .unsynced ∨ access = .done →
        1 ≤ event.sequence ∧ event.sequence ≤ maxSafeSequence) := by
  let recorded := runtime.record ⟨eventId, event.changeId, current.appId,
    event.state.toChangeState, event.reasonCode, some event.sequence, none⟩
  have read : recorded.journalRecords.2 = some runtime.journal :=
    journalRecords_legible (show Legible recorded from legible)
  by_cases unreadable : access = .unreadable
  · subst unreadable
    refine iff_of_true ⟨legible, nofun⟩ (by simp)
  · let known := recorded.journalRecords.1
    let next := known.nextRecord (known.stateFor event.changeId current.appId) event
      (runtime.journal.find? fun record => record.runId = event.runId)
    let written := known.writeJournal (replaceRecord runtime.journal next) access
    have update : runtime.persistKnown current event eventId access =
        if written.2 = .done then (written.1.forgetBuild event.runId event.state, .done)
        else written := by
      simp only [persistKnown, if_neg unreadable]
      rw [show (runtime.record _).journalRecords.2 = some runtime.journal from read]
    have outcome : (runtime.persistKnown current event eventId access).2 ≠ .journalInvalid := by
      rw [update]
      split
      · exact nofun
      · exact writeJournal_outcome _ _
    have journal : (runtime.persistKnown current event eventId access).1.journal =
        written.1.journal := by
      rw [update]
      split
      · exact forgetBuild_journal _ _
      · rfl
    have left : Legible (runtime.persistKnown current event eventId access).1 ↔
        Legible written.1 := by
      rw [legible_iff, journal, ← legible_iff]
    rw [and_iff_left outcome, left]
    refine (writeJournal_legible (show Legible known from legible) access).trans ?_
    rw [show next.Faithful ↔ _ from nextRecord_faithful _ _ _]

theorem withBuild_faithful {record : RecoveryRecord} (faithful : record.Faithful) :
    (runtime.withBuild record).Faithful := by
  refine ⟨faithful.1, ?_⟩
  have digest := congrArg RecoveryRecord.changeDigest faithful.2
  simp only [RecoveryRecord.asRead, withBuild, RecoveryRecord.mk.injEq, and_true, true_and]
  exact digest

/-- What is known of a build leaves a legible journal. -/
theorem persistRunMetadata_legible (legible : Legible runtime) (runId : String)
    (access : JournalAccess) :
    Legible (runtime.persistRunMetadata runId access).1 ∧
      (runtime.persistRunMetadata runId access).2 ≠ .journalInvalid := by
  unfold persistRunMetadata
  by_cases unreadable : access = .unreadable
  · rw [if_pos unreadable]
    exact ⟨legible, nofun⟩
  · simp only [if_neg unreadable, journalRecords_legible legible]
    cases found : runtime.journal.find? fun record => record.runId = runId with
    | none => exact ⟨legible, nofun⟩
    | some existing =>
      have faithful := legible_iff.mp legible existing (List.mem_of_find?_eq_some found)
      exact ⟨(writeJournal_legible (show Legible runtime.journalRecords.1 from legible) access).mpr
        fun _ => withBuild_faithful faithful, writeJournal_outcome _ _⟩

/-- The turns that neither read nor write the journal. -/
def isMemoryOnly : AgentTurn → Bool
  | .record _ | .apply _ _ _ | .noteBuild _ _ _ | .onRollbackFailed _ | .recoveryFailed _
  | .status _ _ | .clearApplyBlock _ _ => true
  | _ => false

/-- A turn that neither reads nor writes the journal leaves it, and does not find it invalid. -/
theorem dispatch_memoryOnly {turn : AgentTurn} (memory : isMemoryOnly turn) :
    (runtime.dispatch turn).1.journal = runtime.journal ∧
      (runtime.dispatch turn).2 ≠ .journalInvalid := by
  cases turn with
  | record input => exact ⟨rfl, nofun⟩
  | apply request staged eventId =>
    simp only [dispatch, Runtime.apply]
    cases staged with
    | none => exact ⟨rfl, nofun⟩
    | some staged =>
      dsimp only
      split
      · exact ⟨rfl, nofun⟩
      · split
        · exact ⟨rfl, nofun⟩
        · exact ⟨rfl, nofun⟩
  | noteBuild runId identity previous => exact ⟨rfl, nofun⟩
  | onRollbackFailed changeId =>
    simp only [dispatch]
    split
    · exact ⟨rfl, nofun⟩
    · exact ⟨rfl, nofun⟩
  | recoveryFailed appId => exact ⟨rfl, nofun⟩
  | status changeId afterEventId =>
    refine ⟨rfl, ?_⟩
    simp only [dispatch, Runtime.status]
    split
    · exact nofun
    · split
      · exact nofun
      · exact nofun
  | clearApplyBlock appId role =>
    simp only [dispatch, Runtime.clearApplyBlock]
    split
    · exact ⟨rfl, nofun⟩
    · exact ⟨rfl, nofun⟩
  | restart => cases memory
  | persistEvent event eventId access => cases memory
  | persistRunMetadata runId access => cases memory
  | readJournal => cases memory

/-- A turn on a legible journal reads itself exactly when what it writes is sequenced. -/
theorem readsItself_iff (turn : AgentTurn) (legible : Legible runtime) :
    ReadsItself runtime turn ↔ Sequenced runtime turn := by
  have unwritten : (∀ event eventId access, turn ≠ .persistEvent event eventId access) →
      ReadsItself runtime turn → (ReadsItself runtime turn ↔ Sequenced runtime turn) :=
    fun other reads => iff_of_true reads fun event eventId access same =>
      absurd same (other event eventId access)
  by_cases restarts : turn = .restart
  · subst restarts
    have started := start_legible legible
    exact unwritten nofun ⟨started.1, by simp [handle, started.2]⟩
  by_cases up : runtime.up
  · have handled : runtime.handle turn = runtime.dispatch turn := by
      cases turn <;> first | exact absurd rfl restarts | exact if_pos up
    by_cases memory : isMemoryOnly turn
    · have kept : (runtime.dispatch turn).1.journal = runtime.journal ∧
          (runtime.dispatch turn).2 ≠ .journalInvalid := dispatch_memoryOnly memory
      refine unwritten (fun _ _ _ same => by rw [same] at memory; cases memory) ?_
      rw [ReadsItself, handled, legible_iff, kept.1]
      exact ⟨legible_iff.mp legible, kept.2⟩
    rw [ReadsItself, handled] at unwritten ⊢
    cases turn with
    | persistEvent event eventId access =>
      simp only [dispatch, Runtime.persistEvent]
      cases known : runtime.changes event.changeId with
      | none =>
        refine iff_of_true ⟨legible, nofun⟩ ?_
        rintro _ _ _ ⟨⟩ _ present
        rw [known] at present
        cases present
      | some current =>
        refine (persistKnown_legible legible current event eventId access).trans ⟨?_, ?_⟩
        · rintro passes _ _ _ ⟨⟩ _ _ reaches
          exact passes reaches
        · intro sequenced reaches
          exact sequenced event eventId access rfl up (by rw [known]; rfl) reaches
    | persistRunMetadata runId access =>
      exact unwritten nofun (persistRunMetadata_legible legible runId access)
    | readJournal =>
      refine unwritten nofun ⟨legible, ?_⟩
      simp only [dispatch, journalRecords_legible legible, Option.isSome_some, if_true]
      exact nofun
    | restart => exact absurd rfl restarts
    | _ => exact absurd rfl memory
  · have handled : runtime.handle turn = (runtime, .down) := by
      cases turn <;> first | exact absurd rfl restarts | exact if_neg up
    refine iff_of_true ?_ fun _ _ _ _ running => absurd running up
    rw [ReadsItself, handled]
    exact ⟨legible, nofun⟩

end Turns

/-- For every run of the agent from a legible journal: every turn leaves a journal that is read back
as it was written, and finds none that is invalid, exactly when every event that reaches the file has
a sequence number that passes the reader's check. -/
theorem journal_reads_itself (records : List RecoveryRecord)
    (legible : Legible (.blank records)) (turns : List AgentTurn) :
    Machine.Along Runtime.handle ReadsItself (.blank records) turns ↔
      Machine.Along Runtime.handle Sequenced (.blank records) turns := by
  have kept : ∀ runtime turn, Legible runtime → Sequenced runtime turn →
      Legible (runtime.handle turn).1 :=
    fun runtime turn legible sequenced => ((readsItself_iff turn legible).mpr sequenced).1
  exact Machine.along_congr_of_kept kept (fun _ turn legible => readsItself_iff turn legible)
    legible turns

/-- The event of a call that persists one. -/
def persistedEvent (call : (effect : Effect) × effect.Answer) : Option ApplyEvent :=
  match call.1 with
  | .persistEvent event => some event
  | _ => none

def portRequest : AgentTurn :=
  .apply portInput (some ⟨"CHG_1", "edutrack-api", "d1"⟩) "EVT_1"

/-- A journal stays legible when the first event that is persisted has a number that passes. -/
theorem numbered_event_legible :
    Machine.Along Runtime.handle ReadsItself (.blank [])
      [.restart, portRequest,
        .persistEvent ⟨"CHG_1", "RUN_1", .rollingBack, 1, "ROLLBACK_STARTED"⟩ "EVT_2" .done] := by
  refine (journal_reads_itself [] (legible_iff.mpr nofun) _).mpr ⟨nofun, nofun, ?_, trivial⟩
  rintro _ _ _ ⟨⟩ _ _ _
  decide

/-- The first apply of a new agent: its request, the events that its run persists first, and a
restart. -/
def firstApply : List AgentTurn :=
  [.restart, portRequest,
    .persistEvent ⟨"CHG_1", "RUN_1", .applying, 0, "APPLY_STARTED"⟩ "EVT_2" .done,
    .persistEvent ⟨"CHG_1", "RUN_1", .snapshotted, 1, "SNAPSHOT_RECORDED"⟩ "EVT_3" .done,
    .restart]

/-- A run starts with those events, the second of which finds the journal invalid that the first has
left; so does the next start. -/
theorem firstApply_unreadable :
    ((portRun fun _ => false).1.filterMap persistedEvent).take 2 =
        [⟨"CHG_1", "RUN_1", .applying, 0, "APPLY_STARTED"⟩,
          ⟨"CHG_1", "RUN_1", .snapshotted, 1, "SNAPSHOT_RECORDED"⟩] ∧
      (Machine.trace Runtime.handle (.blank []) firstApply).map Prod.snd =
        [.done, .accepted, .done, .journalInvalid, .journalInvalid] ∧
      ¬ Machine.Along Runtime.handle ReadsItself (.blank []) firstApply := by
  have outcomes : (Machine.trace handle (.blank []) firstApply).map Prod.snd =
      [.done, .accepted, .done, .journalInvalid, .journalInvalid] := by
    decide +kernel
  refine ⟨by decide +kernel, outcomes, fun along => ?_⟩
  have fourth := (Machine.along_iff _ _).mp along (firstApply.take 3)
    (.persistEvent ⟨"CHG_1", "RUN_1", .snapshotted, 1, "SNAPSHOT_RECORDED"⟩ "EVT_3" .done)
    [.restart] rfl
  exact fourth.2 (by decide +kernel)

end NancyMan.Agent
