import NancyMan.Agent.JournalReading

/-!
# How long a cleared block stays cleared

An application is blocked when the rollback of one of its runs has failed, and an owner clears the
block. The record of the failed run stays in the journal, and every later reading of the journal
blocks its application again.
-/
namespace NancyMan.Agent

open Agent.Runtime

/-- The agent, and the applications whose block was cleared since a run of theirs last ended in a
failed rollback. -/
structure Watched where
  runtime : Runtime
  cleared : List String

variable (runtime : Runtime)

/-- The applications of which a turn ends a run in a failed rollback. -/
def endedBy : AgentTurn → List String
  | .persistEvent event _ _ =>
    if event.state = .rollbackFailed then
      (runtime.changes event.changeId).toList.map RuntimeChange.appId
    else []
  | .onRollbackFailed changeId => (runtime.changes changeId).toList.map RuntimeChange.appId
  | .recoveryFailed appId => [appId]
  | _ => []

/-- The application whose block a turn clears. -/
def clearedBy (turn : AgentTurn) : Option String :=
  match turn with
  | .clearApplyBlock appId _ => if (runtime.handle turn).2 = .cleared then some appId else none
  | _ => none

variable (watched : Watched)

/-- A turn of the agent, with what it does to the cleared applications. -/
def Watched.watch (turn : AgentTurn) : Watched × Outcome :=
  let handled := watched.runtime.handle turn
  ({ runtime := handled.1
     cleared := ((clearedBy watched.runtime turn).toList ++ watched.cleared).filter fun appId =>
       !(endedBy watched.runtime turn).contains appId },
    handled.2)

/-- After a turn no apply for a cleared application is refused because of a block. -/
def Durable (turn : AgentTurn) : Prop :=
  ∀ request staged eventId, staged.appId ∈ (watched.watch turn).1.cleared →
    ((watched.watch turn).1.runtime.handle (.apply request (some staged) eventId)).2 ≠
      .applicationBlocked

/-- The applications of the failed runs that a turn reads in the journal. -/
def reread : AgentTurn → List String
  | .restart =>
    if (readBack runtime.journal).2 then failedApplications (readBack runtime.journal).1 else []
  | .persistEvent event _ access =>
    if runtime.up = true ∧ (runtime.changes event.changeId).isSome = true ∧ access ≠ .unreadable then
      failedApplications (readBack runtime.journal).1
    else []
  | .persistRunMetadata _ access =>
    if runtime.up = true ∧ access ≠ .unreadable then
      failedApplications (readBack runtime.journal).1
    else []
  | .readJournal =>
    if runtime.up = true then failedApplications (readBack runtime.journal).1 else []
  | _ => []

def Undisturbed (turn : AgentTurn) : Prop :=
  ∀ appId ∈ (watched.watch turn).1.cleared, appId ∉ reread watched.runtime turn

section Turns

variable {runtime : Runtime} (records : List RecoveryRecord) {access : JournalAccess}
  {turn : AgentTurn} {appId : String} {role : AgentRole}

theorem writeJournal_blocked (access : JournalAccess) :
    (runtime.writeJournal records access).1.blockedApplications = runtime.blockedApplications := by
  cases access with
  | unreadable => rfl
  | lost => rfl
  | unsynced => rfl
  | done => rfl

theorem forgetBuild_blocked (runId : String) (state : ApplyState) :
    (runtime.forgetBuild runId state).blockedApplications = runtime.blockedApplications := by
  unfold forgetBuild
  split
  · rfl
  · rfl

theorem recall_blocked :
    (records.foldl Runtime.recall runtime).blockedApplications = runtime.blockedApplications := by
  induction records generalizing runtime with
  | nil => rfl
  | cons record rest ih => exact ih

/-- A persisted event that reads the journal blocks what it finds there. -/
theorem persistKnown_blocked (current : RuntimeChange) (event : ApplyEvent) (eventId : String)
    (readable : access ≠ .unreadable) :
    (runtime.persistKnown current event eventId access).1.blockedApplications =
      failedApplications (readBack runtime.journal).1 ++ runtime.blockedApplications := by
  simp only [persistKnown, if_neg readable]
  split
  · rfl
  · split
    · rw [forgetBuild_blocked, writeJournal_blocked]
      rfl
    · rw [writeJournal_blocked]
      rfl

/-- The metadata of a run blocks what is read with it. -/
theorem persistRunMetadata_blocked (runId : String) (readable : access ≠ .unreadable) :
    (runtime.persistRunMetadata runId access).1.blockedApplications =
      failedApplications (readBack runtime.journal).1 ++ runtime.blockedApplications := by
  simp only [persistRunMetadata, if_neg readable]
  split
  · rfl
  · split
    · rfl
    · rw [writeJournal_blocked]
      rfl

/-- A started process blocks what it has read, and one that is not up blocks nothing. -/
theorem start_blocked (journal : List RecoveryRecord) :
    (start journal).1.blockedApplications =
      if (readBack journal).2 then failedApplications (readBack journal).1 else [] := by
  unfold start
  by_cases legible : (readBack journal).2
  · have read : (blank journal).journalRecords.2 = some (readBack journal).1 := if_pos legible
    simp only [read, recall_blocked, if_pos legible]
    exact List.append_nil _
  · have read : (blank journal).journalRecords.2 = none := if_neg legible
    simp only [read, if_neg legible]
    rfl

theorem handle_up (up : runtime.up) (turn : AgentTurn) :
    runtime.handle turn = runtime.dispatch turn := by
  cases turn <;> first | rfl | exact if_pos up

theorem handle_down (down : runtime.up ≠ true) (running : turn ≠ .restart) :
    runtime.handle turn = (runtime, .down) := by
  cases turn <;> first | exact absurd rfl running | exact if_neg down

/-- A clearing that succeeds takes its application out of the blocked ones. -/
theorem clearApplyBlock_blocked (cleared : (runtime.clearApplyBlock appId role).2 = .cleared) :
    appId ∉ (runtime.clearApplyBlock appId role).1.blockedApplications := by
  unfold clearApplyBlock at cleared ⊢
  split at cleared
  · cases cleared
  · rename_i permitted
    rw [if_neg permitted]
    simp

theorem clearApplyBlock_subset {other : String}
    (blocked : other ∈ (runtime.clearApplyBlock appId role).1.blockedApplications) :
    other ∈ runtime.blockedApplications := by
  unfold clearApplyBlock at blocked
  split at blocked
  · exact blocked
  · exact List.mem_of_mem_filter blocked

/-- An application that is not blocked before a turn, or whose block the turn clears, is blocked
after it exactly when the turn reads a failed run of it, unless the turn ends such a run. -/
theorem blocked_handle (going : appId ∉ endedBy runtime turn)
    (free : appId ∉ runtime.blockedApplications ∨ clearedBy runtime turn = some appId) :
    appId ∈ (runtime.handle turn).1.blockedApplications ↔ appId ∈ reread runtime turn := by
  have unblocked (keeps : clearedBy runtime turn = none) : appId ∉ runtime.blockedApplications := by
    refine free.resolve_right fun cleared => ?_
    rw [keeps] at cleared
    cases cleared
  by_cases restarts : turn = .restart
  · subst restarts
    rw [show runtime.handle .restart = start runtime.journal from rfl, start_blocked]
    rfl
  by_cases up : runtime.up
  · rw [handle_up up]
    cases turn with
    | restart => exact absurd rfl restarts
    | record input => exact iff_of_false (unblocked rfl) List.not_mem_nil
    | apply request staged eventId =>
      have kept : (runtime.apply request staged eventId).1.blockedApplications =
          runtime.blockedApplications := by
        unfold Runtime.apply
        cases staged with
        | none => rfl
        | some staged =>
          dsimp only
          split
          · rfl
          · split
            · rfl
            · rfl
      simp only [dispatch, kept]
      exact iff_of_false (unblocked rfl) List.not_mem_nil
    | persistEvent event eventId access =>
      simp only [dispatch, Runtime.persistEvent, reread, up, true_and]
      cases known : runtime.changes event.changeId with
      | none => exact iff_of_false (unblocked rfl) (by simp)
      | some current =>
        by_cases readable : access = .unreadable
        · subst readable
          exact iff_of_false (unblocked rfl) (by simp)
        · simp [persistKnown_blocked current event eventId readable, readable, unblocked rfl]
    | noteBuild runId identity previous => exact iff_of_false (unblocked rfl) List.not_mem_nil
    | persistRunMetadata runId access =>
      simp only [dispatch, reread, up, true_and]
      by_cases readable : access = .unreadable
      · subst readable
        exact iff_of_false (unblocked rfl) (by simp)
      · simp [persistRunMetadata_blocked runId readable, readable, unblocked rfl]
    | readJournal =>
      simp [dispatch, journalRecords, reread, up, unblocked rfl]
    | onRollbackFailed changeId =>
      simp only [dispatch]
      simp only [endedBy] at going
      cases known : runtime.changes changeId with
      | none => exact iff_of_false (unblocked rfl) List.not_mem_nil
      | some current =>
        have different : appId ≠ current.appId := by simpa [known] using going
        simp [reread, different, unblocked rfl]
    | recoveryFailed other =>
      have different : appId ≠ other := by simpa [endedBy] using going
      simp [dispatch, reread, different, unblocked rfl]
    | status changeId afterEventId => exact iff_of_false (unblocked rfl) List.not_mem_nil
    | clearApplyBlock other role =>
      refine iff_of_false (fun blocked => ?_) List.not_mem_nil
      rcases free with before | cleared
      · exact before (clearApplyBlock_subset blocked)
      · simp only [clearedBy, handle_up up, dispatch] at cleared
        split at cleared
        · rename_i succeeded
          cases cleared
          exact clearApplyBlock_blocked succeeded blocked
        · cases cleared
  · rw [handle_down up restarts]
    have before : appId ∉ runtime.blockedApplications := by
      refine free.resolve_right fun cleared => ?_
      unfold clearedBy at cleared
      split at cleared
      · rw [handle_down up restarts] at cleared
        cases cleared
      · cases cleared
    refine iff_of_false before ?_
    cases turn <;> first | exact absurd rfl restarts | simp [reread, up]

end Turns

/-! ## Runs -/

/-- No cleared application is blocked, and a process that is not up blocks none. -/
structure Free (watched : Watched) : Prop where
  unblocked : ∀ appId ∈ watched.cleared, appId ∉ watched.runtime.blockedApplications
  idle : watched.runtime.up ≠ true → watched.runtime.blockedApplications = []

/-- A process that does not start blocks nothing. -/
theorem start_idle {journal : List RecoveryRecord} (down : (start journal).1.up ≠ true) :
    (start journal).1.blockedApplications = [] := by
  cases read : (blank journal).journalRecords.2 with
  | none =>
    simp only [start, read]
    rfl
  | some records =>
    simp only [start, read] at down
    exact absurd rfl down

/-- A turn of a process that is up leaves it up. -/
theorem dispatch_up {runtime : Runtime} (up : runtime.up) {turn : AgentTurn}
    (running : turn ≠ .restart) : (runtime.dispatch turn).1.up := by
  have written : ∀ (runtime : Runtime) records access, runtime.up = true →
      (runtime.writeJournal records access).1.up = true := by
    intro runtime records access up
    cases access with
    | unreadable => exact up
    | lost => exact up
    | unsynced => exact up
    | done => exact up
  cases turn with
  | restart => exact absurd rfl running
  | record input => exact up
  | apply request staged eventId =>
    simp only [dispatch, Runtime.apply]
    cases staged with
    | none => exact up
    | some staged =>
      dsimp only
      split
      · exact up
      · split
        · exact up
        · exact up
  | persistEvent event eventId access =>
    simp only [dispatch, Runtime.persistEvent]
    split
    · exact up
    · simp only [persistKnown]
      split
      · exact up
      · split
        · exact up
        · split
          · unfold forgetBuild
            split
            · exact written _ _ _ up
            · exact written _ _ _ up
          · exact written _ _ _ up
  | noteBuild runId identity previous => exact up
  | persistRunMetadata runId access =>
    simp only [dispatch, Runtime.persistRunMetadata]
    split
    · exact up
    · split
      · exact up
      · split
        · exact up
        · exact written _ _ _ up
  | readJournal => exact up
  | onRollbackFailed changeId =>
    simp only [dispatch]
    split
    · exact up
    · exact up
  | recoveryFailed appId => exact up
  | status changeId afterEventId => exact up
  | clearApplyBlock appId role =>
    simp only [dispatch, Runtime.clearApplyBlock]
    split
    · exact up
    · exact up

section Watching

variable {watched : Watched} {turn : AgentTurn}

/-- A process that is not up after a turn blocks nothing. -/
theorem watch_idle (free : Free watched) (down : (watched.watch turn).1.runtime.up ≠ true) :
    (watched.watch turn).1.runtime.blockedApplications = [] := by
  by_cases restarts : turn = .restart
  · subst restarts
    exact start_idle down
  · have handled : (watched.watch turn).1.runtime = (watched.runtime.handle turn).1 := rfl
    rw [handled] at down ⊢
    by_cases up : watched.runtime.up
    · rw [handle_up up] at down
      exact absurd (dispatch_up up restarts) down
    · rw [handle_down up restarts]
      exact free.idle up

variable {appId : String}

theorem mem_cleared :
    appId ∈ (watched.watch turn).1.cleared ↔
      (clearedBy watched.runtime turn = some appId ∨ appId ∈ watched.cleared) ∧
        appId ∉ endedBy watched.runtime turn := by
  simp [Watched.watch, or_and_right]

/-- A cleared application is blocked after a turn exactly when the turn reads a failed run of it. -/
theorem blocked_watch (free : Free watched) (cleared : appId ∈ (watched.watch turn).1.cleared) :
    appId ∈ (watched.watch turn).1.runtime.blockedApplications ↔
      appId ∈ reread watched.runtime turn := by
  obtain ⟨source, going⟩ := mem_cleared.mp cleared
  refine blocked_handle going ?_
  rcases source with now | before
  · exact .inr now
  · exact .inl (free.unblocked appId before)

theorem watch_free (free : Free watched) (undisturbed : Undisturbed watched turn) :
    Free (watched.watch turn).1 where
  unblocked appId cleared blocked :=
    undisturbed appId cleared ((blocked_watch free cleared).mp blocked)
  idle := watch_idle free

/-- An apply is refused as blocked exactly when its application is blocked and its digest fits. -/
theorem apply_blocked {runtime : Runtime} {request : ApplyInput} {staged : StagedDraft}
    {eventId : String} :
    (runtime.apply request (some staged) eventId).2 = .applicationBlocked ↔
      staged.changeDigest = request.changeDigest ∧ staged.appId ∈ runtime.blockedApplications := by
  unfold apply
  dsimp only
  split
  · rename_i different
    exact iff_of_false nofun fun both => different both.1
  · rename_i same
    rw [not_not] at same
    split
    · rename_i blocked
      exact iff_of_true rfl ⟨same, List.contains_iff_mem.mp blocked⟩
    · rename_i unblocked
      exact iff_of_false nofun fun both => unblocked (List.contains_iff_mem.mpr both.2)

/-- A turn is durable exactly when it is undisturbed. -/
theorem durable_iff (free : Free watched) : Durable watched turn ↔ Undisturbed watched turn := by
  constructor
  · intro durable appId cleared read
    have blocked := (blocked_watch free cleared).mpr read
    have up : (watched.watch turn).1.runtime.up := by
      by_contra down
      rw [watch_idle free down] at blocked
      cases blocked
    refine durable ⟨"", "", ""⟩ ⟨"", appId, ""⟩ "" cleared ?_
    rw [handle_up up]
    exact apply_blocked.mpr ⟨rfl, blocked⟩
  · intro undisturbed request staged eventId cleared refused
    have after := watch_free free undisturbed
    by_cases up : (watched.watch turn).1.runtime.up
    · rw [handle_up up] at refused
      exact after.unblocked _ cleared (apply_blocked.mp refused).2
    · rw [handle_down up AgentTurn.noConfusion] at refused
      cases refused

end Watching

/-- For every run of the agent from any journal: a cleared block stays cleared until a run of its
application newly ends in a failed rollback, exactly when no turn in between reads the record of a
failed run of the application. -/
theorem clearing_durable (records : List RecoveryRecord) (turns : List AgentTurn) :
    Machine.Along Watched.watch Durable ⟨.blank records, []⟩ turns ↔
      Machine.Along Watched.watch Undisturbed ⟨.blank records, []⟩ turns := by
  have kept : ∀ watched turn, Free watched → Undisturbed watched turn →
      Free (watched.watch turn).1 := fun _ _ free undisturbed => watch_free free undisturbed
  have first : Free ⟨.blank records, []⟩ := ⟨nofun, fun _ => rfl⟩
  exact Machine.along_congr_of_kept kept (fun _ _ free => durable_iff free) first turns

def stoppedRun : List RecoveryRecord :=
  [⟨"CHG_1", "RUN_1", "edutrack-api", .healthChecking, true, some 4, some "d1", none, none⟩]

/-- The recovery of that run fails, an owner clears the block, and the agent starts again. -/
def clearedAndRestarted : List AgentTurn :=
  [.restart, .readJournal,
    .persistEvent ⟨"CHG_1", "RUN_1", .rollingBack, 5, "RECOVERY_ROLLBACK_STARTED"⟩ "EVT_1" .done,
    .persistEvent ⟨"CHG_1", "RUN_1", .rollbackFailed, 6, "RECOVERY_ROLLBACK_FAILED"⟩ "EVT_2" .done,
    .recoveryFailed "edutrack-api", .clearApplyBlock "edutrack-api" .opsOwner, .restart]

/-- After that the next apply for the application is refused because of the cleared block. -/
theorem restart_blocks_again :
    (Machine.trace Watched.watch ⟨.blank stoppedRun, []⟩
        (clearedAndRestarted ++ [portRequest])).map Prod.snd =
      [.done, .done, .done, .done, .done, .cleared, .done, .applicationBlocked] ∧
      ¬ Machine.Along Watched.watch Durable ⟨.blank stoppedRun, []⟩ clearedAndRestarted := by
  refine ⟨by decide +kernel, fun along => ?_⟩
  have last := (Machine.along_iff _ _).mp along clearedAndRestarted.dropLast .restart [] rfl
  refine last portInput ⟨"CHG_1", "edutrack-api", "d1"⟩ "EVT_3" ?_ ?_
  · decide +kernel
  · decide +kernel

end NancyMan.Agent
