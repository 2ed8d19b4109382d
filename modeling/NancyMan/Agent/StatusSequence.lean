import NancyMan.Agent.ApplyBlocks

/-!
# The sequence numbers that `status` reports

A number is given to every event that is recorded of a change, also to those of its validation, its
saving and its request to apply, and `status` reports the last one. The journal keeps the number
that the run's own machine has given an event, which counts the run's transitions only, and a
process takes the change up from there when it starts. Within one process the reported numbers grow,
so they go wrong exactly where a restart takes a change up below the number it had.
-/
namespace NancyMan.Agent

open Agent.Runtime

/-! ## What `status` answers -/

/-- The answers of `status` about a change, in order. -/
def statusAnswers (changeId : String) (trace : List (AgentTurn × Outcome)) : List RuntimeChange :=
  trace.filterMap fun
    | (.status asked _, .found answer) => if asked = changeId then some answer else none
    | _ => none

/-- The reported sequence number never decreases, and two reported events with one number are the
same event. -/
structure Numbered (answers : List RuntimeChange) : Prop where
  monotone : answers.Pairwise fun earlier later => earlier.sequence ≤ later.sequence
  distinct : ∀ one ∈ answers, ∀ other ∈ answers, ∀ event ∈ one.events, ∀ event' ∈ other.events,
    event.sequence = event'.sequence → event = event'

/-- The number at which a process takes up a change from the records of the journal. -/
def recalledSequence (changeId : String) (records : List RecoveryRecord) : Option Nat :=
  records.foldl (fun sequence record =>
    if record.changeId = changeId then some (record.sequence.getD (sequence.getD 0))
    else sequence) none

/-- A restart finds the change it has in memory in the journal, at a number that is not lower. -/
def Remembers (changeId : String) (runtime : Runtime) (turn : AgentTurn) : Prop :=
  turn = .restart → (readBack runtime.journal).2 = true →
    ∀ current, runtime.changes changeId = some current →
      ∃ sequence, recalledSequence changeId (readBack runtime.journal).1 = some sequence ∧
        current.sequence ≤ sequence

/-! ## What a turn does to the changes -/

section Turns

variable {runtime : Runtime}

theorem writeJournal_changes (records : List RecoveryRecord) (access : JournalAccess) :
    (runtime.writeJournal records access).1.changes = runtime.changes := by
  cases access <;> rfl

theorem forgetBuild_changes (runId : String) (state : ApplyState) :
    (runtime.forgetBuild runId state).changes = runtime.changes := by
  unfold forgetBuild
  split <;> rfl

/-- An event that is persisted is recorded, whatever becomes of the journal. -/
theorem persistKnown_changes (current : RuntimeChange) (event : ApplyEvent) (eventId : String)
    (access : JournalAccess) :
    (runtime.persistKnown current event eventId access).1.changes =
      (runtime.record ⟨eventId, event.changeId, current.appId, event.state.toChangeState,
        event.reasonCode, some event.sequence, none⟩).changes := by
  unfold persistKnown
  dsimp only
  split
  · rfl
  · split
    · rfl
    · split
      · rw [forgetBuild_changes, writeJournal_changes]
        rfl
      · rw [writeJournal_changes]
        rfl

theorem persistRunMetadata_changes (runId : String) (access : JournalAccess) :
    (runtime.persistRunMetadata runId access).1.changes = runtime.changes := by
  unfold persistRunMetadata
  split
  · rfl
  · dsimp only
    split
    · rfl
    · split
      · rfl
      · rw [writeJournal_changes]
        rfl

/-- A turn of a process that is up records one event or leaves the changes as they are. -/
theorem dispatch_changes (runtime : Runtime) {turn : AgentTurn} (running : turn ≠ .restart) :
    (runtime.dispatch turn).1.changes = runtime.changes ∨
      ∃ input, (runtime.dispatch turn).1.changes = (runtime.record input).changes := by
  cases turn with
  | restart => exact absurd rfl running
  | record input => exact .inr ⟨input, rfl⟩
  | apply request staged eventId =>
    simp only [dispatch, Runtime.apply]
    cases staged with
    | none => exact .inl rfl
    | some staged =>
      dsimp only
      split
      · exact .inl rfl
      · split
        · exact .inl rfl
        · exact .inr ⟨_, rfl⟩
  | persistEvent event eventId access =>
    simp only [dispatch, Runtime.persistEvent]
    split
    · exact .inl rfl
    · exact .inr ⟨_, persistKnown_changes _ event eventId access⟩
  | noteBuild runId identity previous => exact .inl rfl
  | persistRunMetadata runId access => exact .inl (persistRunMetadata_changes runId access)
  | readJournal => exact .inl rfl
  | onRollbackFailed changeId =>
    simp only [dispatch]
    split
    · exact .inl rfl
    · exact .inl rfl
  | recoveryFailed appId => exact .inl rfl
  | status changeId afterEventId => exact .inl rfl
  | clearApplyBlock appId role =>
    simp only [dispatch, Runtime.clearApplyBlock]
    split
    · exact .inl rfl
    · exact .inl rfl

end Turns

/-! ## The changes of a process that starts -/

/-- What a process that starts knows of a change: its number, and no events. -/
def Recalled (changeId : String) (sequence : Option Nat) (runtime : Runtime) : Prop :=
  (runtime.changes changeId).map RuntimeChange.sequence = sequence ∧
    ∀ current, runtime.changes changeId = some current → current.events = []

variable {sequence : Option Nat} {runtime : Runtime} (journal : List RecoveryRecord)
  {change : RuntimeChange} {event event' : RuntimeEvent} {next : RuntimeChange}

/-- A record of a change sets its number, and one of another change does not. -/
theorem recall_recalled {changeId : String} (recalled : Recalled changeId sequence runtime)
    (record : RecoveryRecord) :
    Recalled changeId
      (if record.changeId = changeId then some (record.sequence.getD (sequence.getD 0))
        else sequence) (runtime.recall record) := by
  obtain ⟨numbered, empty⟩ := recalled
  by_cases same : record.changeId = changeId
  · subst same
    cases known : runtime.changes record.changeId with
    | none =>
      subst numbered
      simp [Recalled, Runtime.recall, stateFor, known]
    | some current =>
      subst numbered
      simp [Recalled, Runtime.recall, stateFor, known, empty current known]
  · rw [if_neg same]
    have kept : (runtime.recall record).changes changeId = runtime.changes changeId :=
      Function.update_of_ne (Ne.symm same) _ _
    unfold Recalled
    rw [kept]
    exact ⟨numbered, empty⟩

/-- The records of the journal leave a change with the number they give it. -/
theorem foldl_recalled {changeId : String} (records : List RecoveryRecord)
    (recalled : Recalled changeId sequence runtime) :
    Recalled changeId
      (records.foldl (fun sequence record =>
        if record.changeId = changeId then some (record.sequence.getD (sequence.getD 0))
        else sequence) sequence) (records.foldl Runtime.recall runtime) := by
  induction records generalizing sequence runtime with
  | nil => exact recalled
  | cons record rest ih => exact ih (recall_recalled recalled record)

theorem start_up_iff : (start journal).1.up ↔ (readBack journal).2 := by
  unfold start journalRecords
  cases legible : (readBack journal).2 with
  | false => simp [blank, legible]
  | true => simp [blank, legible]

theorem start_journal : (start journal).1.journal = journal := by
  unfold start
  dsimp only
  split
  · rfl
  · exact recall_journal _

/-- A process that starts knows of a change what the journal has of it. -/
theorem start_recalled {journal : List RecoveryRecord} (legible : (readBack journal).2)
    (changeId : String) :
    Recalled changeId (recalledSequence changeId (readBack journal).1)
      (start journal).1 := by
  have fresh : Recalled changeId none (blank journal).journalRecords.1 :=
    ⟨rfl, fun _ known => by cases known⟩
  have read := foldl_recalled (readBack journal).1 fresh
  have same : (start journal).1.changes =
      ((readBack journal).1.foldl Runtime.recall (blank journal).journalRecords.1).changes := by
    unfold start journalRecords
    simp [blank, legible]
  unfold Recalled at read ⊢
  rw [same]
  exact read

theorem start_unknown {journal : List RecoveryRecord} (illegible : (readBack journal).2 = false)
    (changeId : String) : (start journal).1.changes changeId = none := by
  unfold start journalRecords
  simp [blank, illegible]

/-! ## What a change continues -/

/-- The events of a change have growing numbers, none above its own. -/
structure RuntimeChange.Ordered (change : RuntimeChange) : Prop where
  growing : change.events.Pairwise fun earlier later => earlier.sequence < later.sequence
  bounded : ∀ event ∈ change.events, event.sequence ≤ change.sequence

/-- A change goes on from an earlier state of it: its number is not lower, and its events up to that
number are those it had. -/
structure RuntimeChange.Continues (current earlier : RuntimeChange) : Prop where
  numbered : earlier.sequence ≤ current.sequence
  repeats : ∀ event ∈ current.events, event.sequence ≤ earlier.sequence → event ∈ earlier.events

theorem RuntimeChange.Continues.refl (change : RuntimeChange) : change.Continues change :=
  ⟨Nat.le_refl _, fun _ member _ => member⟩

theorem RuntimeChange.Continues.trans {last middle first : RuntimeChange}
    (later : last.Continues middle) (earlier : middle.Continues first) :
    last.Continues first where
  numbered := earlier.numbered.trans later.numbered
  repeats := by
    intro event member low
    have known := later.repeats event member (low.trans earlier.numbered)
    exact earlier.repeats event known low

/-- In a change, one number is one event. -/
theorem RuntimeChange.Ordered.eq_of_sequence (ordered : change.Ordered)
    (member : event ∈ change.events) (member' : event' ∈ change.events)
    (same : event.sequence = event'.sequence) : event = event' := by
  have forward : change.events.Pairwise fun earlier later =>
      earlier.sequence = later.sequence → earlier = later :=
    ordered.growing.imp fun less same => absurd same (Nat.ne_of_lt less)
  have backward : change.events.Pairwise (flip fun earlier later =>
      earlier.sequence = later.sequence → earlier = later) :=
    ordered.growing.imp fun less same => absurd same.symm (Nat.ne_of_lt less)
  exact forward.forall_of_forall_of_flip (fun _ _ _ => rfl) backward member member' same

theorem RuntimeChange.Continues.eq_of_sequence {current earlier : RuntimeChange}
    (continues : current.Continues earlier) (ordered : earlier.Ordered)
    (member : event ∈ earlier.events) (member' : event' ∈ current.events)
    (same : event.sequence = event'.sequence) : event = event' := by
  have low : event'.sequence ≤ earlier.sequence := same ▸ ordered.bounded event member
  exact ordered.eq_of_sequence member (continues.repeats event' member' low) same

/-- A new event takes a number above those of the others. -/
theorem RuntimeChange.Ordered.snoc (ordered : change.Ordered)
    (events : next.events = change.events ++ [event]) (numbered : event.sequence = next.sequence)
    (above : change.sequence < next.sequence) :
    next.Ordered where
  growing := by
    rw [events, List.pairwise_append]
    refine ⟨ordered.growing, List.pairwise_singleton _ _, fun earlier member later last => ?_⟩
    have low := ordered.bounded earlier member
    rw [List.mem_singleton.mp last, numbered]
    omega
  bounded := by
    intro other member
    rw [events] at member
    rcases List.mem_append.mp member with old | last
    · have low := ordered.bounded other old
      omega
    · rw [List.mem_singleton.mp last, numbered]

/-- A change with a new event above its number continues itself. -/
theorem RuntimeChange.continues_snoc (events : next.events = change.events ++ [event])
    (numbered : event.sequence = next.sequence) (above : change.sequence < next.sequence) :
    next.Continues change where
  numbered := above.le
  repeats := by
    intro other member low
    rw [events] at member
    rcases List.mem_append.mp member with old | last
    · exact old
    · rw [List.mem_singleton.mp last, numbered] at low
      omega

/-! ## What a turn keeps -/

section Keeping

variable {runtime : Runtime} {changeId : String} (input : RecordInput)
  {current earlier : RuntimeChange}

/-- A recording gives its change one more event with the next number, and leaves the others. -/
theorem record_changes (changeId : String) :
    (runtime.record input).changes changeId = runtime.changes changeId ∨
      ∃ next event, (runtime.record input).changes changeId = some next ∧
        next.events = (runtime.stateFor changeId input.appId).events ++ [event] ∧
        event.sequence = next.sequence ∧
        (runtime.stateFor changeId input.appId).sequence < next.sequence := by
  by_cases same : changeId = input.changeId
  · subst same
    refine .inr ⟨_, _, Function.update_self _ _ _, rfl, rfl, ?_⟩
    exact Nat.lt_of_lt_of_le (Nat.lt_succ_self _) (Nat.le_max_left _ _)
  · exact .inl (Function.update_of_ne same _ _)

def OrderedChanges (runtime : Runtime) : Prop :=
  ∀ changeId change, runtime.changes changeId = some change → change.Ordered

theorem OrderedChanges.stateFor (ordered : OrderedChanges runtime) (changeId appId : String) :
    (runtime.stateFor changeId appId).Ordered := by
  unfold Runtime.stateFor
  cases known : runtime.changes changeId with
  | none => exact ⟨.nil, nofun⟩
  | some change => exact ordered changeId change known

theorem record_ordered (ordered : OrderedChanges runtime) (input : RecordInput) :
    OrderedChanges (runtime.record input) := by
  intro changeId change known
  rcases record_changes input changeId with kept | ⟨next, event, new, events, numbered, above⟩
  · exact ordered changeId change (kept.symm.trans known)
  · rw [new] at known
    cases known
    exact (ordered.stateFor changeId input.appId).snoc events numbered above

/-- A process that starts has its changes in order. -/
theorem start_ordered (journal : List RecoveryRecord) : OrderedChanges (start journal).1 := by
  intro changeId change known
  cases legible : (readBack journal).2 with
  | false =>
    rw [start_unknown legible] at known
    cases known
  | true =>
    have empty := (start_recalled legible changeId).2 change known
    exact ⟨empty ▸ .nil, by rw [empty]; nofun⟩

/-- Every turn leaves the changes in order. -/
theorem handle_ordered (ordered : OrderedChanges runtime) (turn : AgentTurn) :
    OrderedChanges (runtime.handle turn).1 := by
  by_cases restarts : turn = .restart
  · subst restarts
    exact start_ordered runtime.journal
  · by_cases up : runtime.up
    · rw [handle_up up]
      rcases dispatch_changes runtime restarts with kept | ⟨input, records⟩
      · intro changeId change known
        exact ordered changeId change (kept ▸ known)
      · intro changeId change known
        exact record_ordered ordered input changeId change (records ▸ known)
    · rw [handle_down up restarts]
      exact ordered

/-- The process goes on from an earlier state of a change, or can never be started again. -/
def GoesOn (changeId : String) (earlier : RuntimeChange) (runtime : Runtime) : Prop :=
  (∃ current, runtime.changes changeId = some current ∧ current.Continues earlier) ∨
    (runtime.up ≠ true ∧ (readBack runtime.journal).2 = false)

/-- A recording goes on from what was recorded before it. -/
theorem record_continues (known : runtime.changes changeId = some current) :
    ∃ next, (runtime.record input).changes changeId = some next ∧ next.Continues current := by
  rcases record_changes input changeId with kept | ⟨next, event, new, events, numbered, above⟩
  · exact ⟨current, kept.trans known, .refl current⟩
  · have same : runtime.stateFor changeId input.appId = current := by
      rw [stateFor, known]
      rfl
    rw [same] at events above
    exact ⟨next, new, RuntimeChange.continues_snoc events numbered above⟩

/-- A start that remembers a change goes on from it. -/
theorem start_goesOn (known : runtime.changes changeId = some current)
    (continues : current.Continues earlier) (remembers : Remembers changeId runtime .restart) :
    GoesOn changeId earlier (start runtime.journal).1 := by
  cases legible : (readBack runtime.journal).2 with
  | false =>
    refine .inr ⟨fun up => ?_, ?_⟩
    · rw [start_up_iff, legible] at up
      cases up
    · rw [start_journal, legible]
  | true =>
    obtain ⟨sequence, journaled, enough⟩ := remembers rfl legible current known
    obtain ⟨numbered, empty⟩ := start_recalled legible changeId
    rw [journaled, Option.map_eq_some_iff] at numbered
    obtain ⟨next, recalled, same⟩ := numbered
    refine .inl ⟨next, recalled, ?_, ?_⟩
    · exact continues.numbered.trans (same ▸ enough)
    · rw [empty next recalled]
      nofun

/-- Every turn goes on from an earlier state of a change, unless it is a restart that does not
remember it. -/
theorem handle_goesOn (going : GoesOn changeId earlier runtime) {turn : AgentTurn}
    (remembers : Remembers changeId runtime turn) :
    GoesOn changeId earlier (runtime.handle turn).1 := by
  by_cases restarts : turn = .restart
  · subst restarts
    rcases going with ⟨current, known, continues⟩ | ⟨-, illegible⟩
    · exact start_goesOn known continues remembers
    · refine .inr ⟨fun up => ?_, ?_⟩
      · rw [show (runtime.handle .restart).1 = (start runtime.journal).1 from rfl,
          start_up_iff, illegible] at up
        cases up
      · exact (congrArg (fun journal => (readBack journal).2)
          (start_journal runtime.journal)).trans illegible
  · by_cases up : runtime.up
    · obtain ⟨current, known, continues⟩ := going.resolve_right fun down => down.1 up
      rw [handle_up up]
      rcases dispatch_changes runtime restarts with kept | ⟨input, records⟩
      · exact .inl ⟨current, (congrFun kept changeId).trans known, continues⟩
      · obtain ⟨next, new, goes⟩ := record_continues input known
        exact .inl ⟨next, (congrFun records changeId).trans new, goes.trans continues⟩
    · rw [handle_down up restarts]
      exact going

end Keeping

/-! ## The answers of a run -/

section Answers

variable {runtime : Runtime} {changeId : String}

/-- An answer has the number of the change in memory, and no other events than the change. -/
theorem handle_status {afterEventId : Option String} {answer : RuntimeChange}
    (found : (runtime.handle (.status changeId afterEventId)).2 = .found answer) :
    runtime.up ∧ ∃ current, runtime.changes changeId = some current ∧
      answer.sequence = current.sequence ∧ answer.events ⊆ current.events := by
  by_cases up : runtime.up
  · refine ⟨up, ?_⟩
    rw [handle_up up] at found
    change runtime.status changeId afterEventId = .found answer at found
    unfold status at found
    split at found
    · cases found
    · next current known =>
      refine ⟨current, known, ?_⟩
      split at found
      · obtain rfl := Outcome.found.inj found
        exact ⟨rfl, List.Subset.refl _⟩
      · obtain rfl := Outcome.found.inj found
        refine ⟨rfl, ?_⟩
        split
        · exact List.Subset.refl _
        · exact List.drop_subset _ _
  · have down : runtime.handle (.status changeId afterEventId) = (runtime, .down) :=
      handle_down up (by simp)
    rw [down] at found
    cases found

/-- The first turn of a run gives an answer about the change, or the answers are those of the
rest. -/
theorem statusAnswers_cons (changeId : String) (runtime : Runtime) (turn : AgentTurn)
    (rest : List AgentTurn) :
    (∃ afterEventId answer, turn = .status changeId afterEventId ∧
        (runtime.handle turn).2 = .found answer ∧
        statusAnswers changeId (Machine.trace handle runtime (turn :: rest)) =
          answer :: statusAnswers changeId
            (Machine.trace handle (runtime.handle turn).1 rest)) ∨
      statusAnswers changeId (Machine.trace handle runtime (turn :: rest)) =
        statusAnswers changeId (Machine.trace handle (runtime.handle turn).1 rest) := by
  unfold statusAnswers
  rw [Machine.trace, List.filterMap_cons]
  split
  · exact .inr rfl
  · next answer gives =>
    split at gives
    · next asked afterEventId found same =>
      obtain ⟨rfl, outcome⟩ := Prod.mk.inj same
      by_cases about : asked = changeId
      · subst about
        rw [if_pos rfl] at gives
        obtain rfl := Option.some.inj gives
        exact .inl ⟨afterEventId, found, rfl, outcome, rfl⟩
      · rw [if_neg about] at gives
        cases gives
    · cases gives

/-- Two reports of a change, the earlier one first: the number has not decreased, and one number is
one event. -/
structure Agree (earlier later : RuntimeChange) : Prop where
  monotone : earlier.sequence ≤ later.sequence
  distinct : ∀ event ∈ earlier.events, ∀ event' ∈ later.events,
    event.sequence = event'.sequence → event = event'

variable {turns : List AgentTurn}

/-- The answers of a run agree with what it goes on from. -/
theorem answers_agree {earlier : RuntimeChange} (ordered : earlier.Ordered)
    (going : GoesOn changeId earlier runtime)
    (remembers : Machine.Along handle (Remembers changeId) runtime turns) :
    ∀ answer ∈ statusAnswers changeId (Machine.trace handle runtime turns),
      Agree earlier answer := by
  induction turns generalizing runtime with
  | nil => nofun
  | cons turn rest ih =>
    have others := ih (handle_goesOn going remembers.1) remembers.2
    rcases statusAnswers_cons changeId runtime turn rest with
      ⟨afterEventId, first, rfl, found, answers⟩ | answers
    · rw [answers]
      intro answer member
      rcases List.mem_cons.mp member with rfl | later
      · obtain ⟨up, current, known, number, events⟩ := handle_status found
        obtain ⟨same, known', continues⟩ := going.resolve_right fun down => down.1 up
        rw [known] at known'
        obtain rfl := Option.some.inj known'
        refine ⟨number ▸ continues.numbered, fun event member event' member' equal => ?_⟩
        exact continues.eq_of_sequence ordered member (events member') equal
      · exact others answer later
    · rw [answers]
      exact others

/-- Any two answers of a run that remembers the change agree, the earlier one first. -/
theorem answers_pairwise (ordered : OrderedChanges runtime)
    (remembers : Machine.Along handle (Remembers changeId) runtime turns) :
    (statusAnswers changeId (Machine.trace handle runtime turns)).Pairwise Agree ∧
      ∀ answer ∈ statusAnswers changeId (Machine.trace handle runtime turns),
        Agree answer answer := by
  induction turns generalizing runtime with
  | nil => exact ⟨.nil, nofun⟩
  | cons turn rest ih =>
    obtain ⟨paired, each⟩ := ih (handle_ordered ordered turn) remembers.2
    rcases statusAnswers_cons changeId runtime turn rest with
      ⟨afterEventId, first, rfl, found, answers⟩ | answers
    · obtain ⟨up, current, known, number, events⟩ := handle_status found
      have currentOrdered := ordered changeId current known
      have going : GoesOn changeId current runtime := .inl ⟨current, known, .refl current⟩
      have agrees := answers_agree currentOrdered (handle_goesOn going remembers.1) remembers.2
      rw [answers]
      refine ⟨List.pairwise_cons.mpr ⟨fun answer later => ?_, paired⟩, fun answer member => ?_⟩
      · have agree := agrees answer later
        refine ⟨number ▸ agree.monotone, fun event member => ?_⟩
        exact agree.distinct event (events member)
      · rcases List.mem_cons.mp member with rfl | later
        · refine ⟨Nat.le_refl _, fun event member event' member' => ?_⟩
          exact currentOrdered.eq_of_sequence (events member) (events member')
        · exact each answer later
    · rw [answers]
      exact ⟨paired, each⟩

end Answers

/-- The recovery of a run in which the agent had stopped, with one more restart in it. -/
def recoveredTwice : List AgentTurn :=
  [.restart, .status "CHG_1" none,
    .persistEvent ⟨"CHG_1", "RUN_1", .rollingBack, 5, "RECOVERY_ROLLBACK_STARTED"⟩ "EVT_1" .done,
    .status "CHG_1" none, .restart, .status "CHG_1" none,
    .persistEvent ⟨"CHG_1", "RUN_1", .rolledBack, 6, "RECOVERY_ROLLBACK_COMPLETED"⟩ "EVT_2" .done,
    .status "CHG_1" none]

/-- A change is validated, saved and applied, its run takes its snapshot, and the agent starts
again. -/
def appliedAndRestarted : List AgentTurn :=
  [.restart, .record ⟨"EVT_1", "CHG_1", "edutrack-api", .ready, "VALIDATION_READY", none, some "d1"⟩,
    .record ⟨"EVT_2", "CHG_1", "edutrack-api", .saved, "CHANGE_SAVED", none, some "d1"⟩,
    .apply portInput (some ⟨"CHG_1", "edutrack-api", "d1"⟩) "EVT_3",
    .persistEvent ⟨"CHG_1", "RUN_1", .snapshotted, 1, "SNAPSHOT_RECORDED"⟩ "EVT_4" .done,
    .status "CHG_1" none, .restart, .status "CHG_1" none]

end NancyMan.Agent
