import NancyMan.Agent.ApplyExclusion
import NancyMan.Agent.StatusSequence
import Mathlib.Data.List.Chain

/-!
# The histories of the agent's changes

The agent's handlers look only at the draft and the staged change that a request names, and these
outlive the states they stand for. A run is any interleaving of the steps of `validate`, `save`,
`apply` and `cancel` and of the applies they start; the artifacts of the draft store are one value
each here. `histories_legal_iff` says when what is recorded of every change is a path of the state
machine: the requests of a change come in turn, and no run of it records its own start, which its
request has recorded before.
-/
namespace NancyMan.Agent

open ControlPlane (ChangeState)
open List (append_nil map_cons mem_append)

/-! ## What a run records first -/

/-- Watches whether a call has recorded an event, or was given another change than its own; until
then it reads its own change and records only the start of it. -/
def startMonitor (changeId : String) : Monitor Effect Effect.Answer Bool where
  permits started effect := match effect with
    | .persistEvent event =>
      started = true ∨ event.state = .applying ∧ event.changeId = changeId
    | .readStaged other => started = true ∨ other = changeId
    | _ => True
  observe started effect answer := match effect, answer with
    | .persistEvent _, _ => true
    | .readStaged _, .ok (some change) => started || change.changeId ≠ changeId
    | _, _ => started

section Start

open Async

variable {changeId : String} {α : Type}

/-- A call that has recorded an event may record any other. -/
theorem ensures_started (program : Program Effect Effect.Answer α) :
    program.Ensures (startMonitor changeId) (fun _ started => started) true := by
  induction program with
  | ret value => rfl
  | call effect next ih =>
    have stays (answer : effect.Answer) :
        (startMonitor changeId).observe true effect answer = true := by
      cases effect with
      | readStaged other =>
        match (answer : Except Thrown (Option StagedChangePayload)) with
        | .error _ => rfl
        | .ok none => rfl
        | .ok (some change) => rfl
      | _ => rfl
    refine ⟨?_, fun answer => ?_⟩
    · cases effect with
      | persistEvent event => exact .inl rfl
      | readStaged other => exact .inl rfl
      | _ => trivial
    · rw [stays answer]
      exact ih answer

theorem part_started (action : Apply α) (locals : ApplyLocals) :
    Async.Ensures (startMonitor changeId) action (fun _ _ started => started)
      (fun _ _ started => started) locals true := by
  refine (ensures_started (action locals)).mono ?_
  rintro ⟨error | value, rest⟩ started holds
  · exact holds
  · exact holds

variable {dependencies : ApplyDependencies} {input : ApplyInput}

def Unstarted (locals : ApplyLocals) (started : Bool) : Prop :=
  started = true ∨ locals.machine = none

variable {locals : ApplyLocals}

/-- The locking of an application records nothing. -/
theorem acquire_start (present : Bool) (lock : Lock) (idle : locals.machine = none) :
    Async.Ensures (startMonitor changeId) (whenever present (acquire lock))
      (fun _ locals started => locals.machine = none ∧ started = false)
      (fun _ => Unstarted) locals false := by
  cases present with
  | false => exact ensures_pure ⟨idle, rfl⟩
  | true =>
    refine ensures_bind (ensures_attempt (ensures_perform trivial ?_))
    rintro (error | locked)
    · exact .inr idle
    · exact ensures_assign ⟨idle, rfl⟩

/-- The `try` block of a call records the start of its change first. -/
theorem applyStaged_start :
    Async.Ensures (startMonitor input.changeId) (applyStaged dependencies input)
      (fun _ _ _ => True) (fun _ => Unstarted) ⟨none, false, none, none, []⟩ false := by
  have other (action : Apply ApplyCoordinatorResult) (locals : ApplyLocals) :
      Async.Ensures (startMonitor input.changeId) action (fun _ _ _ => True)
        (fun _ => Unstarted) locals true :=
    (part_started action locals).mono (fun _ _ _ _ => trivial) fun _ _ _ started => .inl started
  refine ensures_bind (ensures_attempt (ensures_perform (.inr rfl) ?_))
  rintro (error | staged)
  · exact .inr rfl
  refine ensures_bind (ensures_assign ?_)
  cases staged with
  | none => exact ensures_throw (.inr rfl)
  | some change =>
    by_cases own : change.changeId = input.changeId
    · have unread : (startMonitor input.changeId).observe false (.readStaged input.changeId)
          (.ok (some change)) = false := by
        simp [startMonitor, own]
      rw [unread]
      refine ensures_bind (ensures_require (fun _ => ?_) fun _ => .inr rfl)
      refine ensures_bind (ensures_perform trivial fun time => ?_)
      refine ensures_bind (ensures_require (fun _ => ?_) fun _ => .inr rfl)
      refine ensures_bind (ensures_perform trivial fun available => ?_)
      refine ensures_bind (ensures_require (fun _ => ?_) fun _ => .inr rfl)
      -- the machine is made just before the start is recorded
      refine ensures_bind (ensures_bind ((acquire_start _ _ rfl).mono ?_ fun _ _ _ kept => kept))
      rintro _ locals started ⟨-, rfl⟩
      refine ensures_bind (ensures_assign ?_)
      refine ensures_bind (ensures_attempt (ensures_perform (.inr ⟨rfl, own⟩) ?_))
      rintro (error | recorded)
      · exact .inl rfl
      · refine (part_started _ _).mono ?_ fun _ _ _ started => .inl started
        rintro _ locals _ rfl
        exact other _ locals
    · have foreign : (startMonitor input.changeId).observe false (.readStaged input.changeId)
          (.ok (some change)) = true := by
        simp [startMonitor, own]
      rw [foreign]
      exact other _ _

/-- The `catch` block of a call without a machine throws. -/
theorem recoverApply_start {error : Thrown} {started : Bool}
    (unstarted : Unstarted locals started) :
    Async.Ensures (startMonitor changeId) (recoverApply dependencies input error)
      (fun _ _ _ => True) (fun _ _ _ => True) locals started := by
  rcases unstarted with rfl | idle
  · exact (part_started _ locals).mono (fun _ _ _ _ => trivial) fun _ _ _ _ => trivial
  · exact recoverApply_unstarted idle trivial

/-- A call that reads its own change records the start of it before anything else. -/
theorem performApply_start (dependencies : ApplyDependencies) (input : ApplyInput) :
    (performApply dependencies input).Ensures (startMonitor input.changeId) (fun _ _ => True)
      false := by
  have ended (locals : ApplyLocals) (started : Bool) :
      Ends (startMonitor input.changeId) (fun _ => True) locals started :=
    releaseAll_ends (fun _ => True) trivial (fun _ _ _ => ⟨trivial, fun _ => trivial⟩)
      (fun _ _ _ => trivial) fun _ _ _ _ => ⟨trivial, trivial⟩
  refine performApply_ends (applyStaged_start.mono (fun _ locals started _ => ended locals started)
    fun _ _ _ unstarted => unstarted) ?_
  intro error locals started unstarted
  exact (recoverApply_start unstarted).mono (fun _ locals started _ => ended locals started)
    fun _ locals started _ => ended locals started

end Start

/-! ## The handlers -/

abbrev StoredChange (changeId : String) :=
  { change : StagedChangePayload // change.changeId = changeId }

/-- The requests that record a state themselves, when they have done what they do. -/
inductive RequestKind where
  | validate
  | save
  | cancel

/-- The state that a request records. -/
def RequestKind.state : RequestKind → ChangeState
  | .validate => .ready
  | .save => .saved
  | .cancel => .cancelled

/-- The reason that a request records. -/
def RequestKind.reasonCode : RequestKind → String
  | .validate => "VALIDATION_READY"
  | .save => "CHANGE_SAVED"
  | .cancel => "CHANGE_CANCELLED"

/-- What a handler asks of the draft store, and what it does with the agent's memory in one turn:
`record` is the recording of a state, `apply` the rest of `apply` after its read. -/
inductive HandlerEffect where
  | readDraft (changeId : String)
  | readStaged (changeId : String)
  | replaceDraft (change : StagedChangePayload)
  | saveStaged (change : StagedChangePayload)
  | deleteDraft (changeId : String)
  | deleteStaged (changeId : String)
  | record (kind : RequestKind) (changeId appId : String) (changeDigest : Option String)
  | apply (request : ApplyInput) (staged : Option (StoredChange request.changeId))

/-- What answers a handler. -/
def HandlerEffect.Answer : HandlerEffect → Type
  | .readDraft changeId | .readStaged changeId => Option (StoredChange changeId)
  | _ => Unit

inductive HandlerErrorCode where
  | configChangeInvalidState
  | configChangeNotFound
  | draftNotFound

abbrev Handler (α : Type) := Async HandlerEffect HandlerEffect.Answer Unit HandlerErrorCode α

abbrev HandlerProgram :=
  Program HandlerEffect HandlerEffect.Answer (Except HandlerErrorCode Unit × Unit)

namespace Handler

open Async

/-- `validate`, of a request that its validation accepts with a draft. -/
def validate (draft : StagedChangePayload) : Handler Unit := do
  perform (HandlerEffect.replaceDraft draft)
  perform (HandlerEffect.record .validate draft.changeId draft.appId (some draft.changeDigest))

def sealDraft (changeId : String) : Handler Unit := do
  let draft : Option (StoredChange changeId) ← perform (HandlerEffect.readDraft changeId)
  match draft with
  | none => throw .draftNotFound
  | some draft => do
    perform (HandlerEffect.saveStaged draft.val)
    perform (HandlerEffect.deleteDraft changeId)

def save (changeId changeDigest : String) : Handler Unit := do
  let draft : Option (StoredChange changeId) ← perform (HandlerEffect.readDraft changeId)
  require (draft.any fun draft => draft.val.changeDigest = changeDigest) .configChangeInvalidState
  sealDraft changeId
  let staged : Option (StoredChange changeId) ← perform (HandlerEffect.readStaged changeId)
  match staged with
  | none => throw .configChangeNotFound
  | some staged =>
    perform (HandlerEffect.record .save changeId staged.val.appId (some staged.val.changeDigest))

/-- `apply`, which leaves its run behind. -/
def apply (request : ApplyInput) : Handler Unit := do
  let staged : Option (StoredChange request.changeId) ←
    perform (HandlerEffect.readStaged request.changeId)
  perform (HandlerEffect.apply request staged)

def cancel (changeId : String) : Handler Unit := do
  let draft : Option (StoredChange changeId) ← perform (HandlerEffect.readDraft changeId)
  let staged : Option (StoredChange changeId) ← perform (HandlerEffect.readStaged changeId)
  match draft <|> staged with
  | none => throw .configChangeNotFound
  | some current => do
    if staged.isSome then perform (HandlerEffect.deleteStaged changeId)
    if draft.isSome then perform (HandlerEffect.deleteDraft changeId)
    perform (HandlerEffect.record .cancel changeId current.val.appId none)

end Handler

/-- A request that may be made of the agent. -/
inductive ChangeRequest where
  | validate (draft : StagedChangePayload)
  | save (changeId changeDigest : String)
  | apply (request : ApplyInput)
  | cancel (changeId : String)

/-- The handler of a request. -/
def ChangeRequest.handler : ChangeRequest → HandlerProgram
  | .validate draft => Handler.validate draft ()
  | .save changeId changeDigest => Handler.save changeId changeDigest ()
  | .apply request => Handler.apply request ()
  | .cancel changeId => Handler.cancel changeId ()

/-! ## The agent -/

/-- Who records an event: a request, the request of a run, or the run. -/
inductive Recorder where
  | request (kind : RequestKind)
  | apply (runId : String)
  | run (runId : String)

/-- The run that an event belongs to. -/
def Recorder.runId? : Recorder → Option String
  | .request _ => none
  | .apply runId | .run runId => some runId

/-- An event that is recorded of a change. -/
structure RecordedEvent where
  changeId : String
  state : ChangeState
  recorder : Recorder

/-- The agent with its draft store: its memory, the artifacts with the instants of their expiry, the
requests under way and the calls of its coordinator. `history` is what it has recorded. -/
structure ChangeAgent where
  runtime : Runtime
  drafts : (changeId : String) → Option (StoredChange changeId × Int)
  staged : (changeId : String) → Option (StoredChange changeId × Int)
  handlers : List HandlerProgram := []
  coordinator : Coordinator := .initial
  history : List RecordedEvent := []

/-- What happens next: a request arrives, or one under way or a call of the coordinator is answered,
at an instant; `eventId` is the random identifier of an event that this records. -/
inductive ChangeAction where
  | request (request : ChangeRequest)
  | handle (number : Nat) (now : Int) (eventId : String)
  | answer (index : Nat) (now : Int) (eventId : String) (access : JournalAccess)
      (reply : (effect : Effect) → effect.Answer)

/-- How long drafts and staged changes are kept. -/
structure DraftStoreOptions where
  draftTtl : Int
  stagedTtl : Int

/-- An artifact that has not expired. -/
def unexpired {changeId : String} (now : Int) (artifact : Option (StoredChange changeId × Int)) :
    Option (StoredChange changeId) :=
  (artifact.filter fun artifact => now < artifact.2).map Prod.fst

/-- What the `apply` handler goes by. -/
def StoredChange.draft {changeId : String} (staged : StoredChange changeId) : StagedDraft :=
  ⟨staged.val.changeId, staged.val.appId, staged.val.changeDigest⟩

namespace ChangeAgent

/-- An agent that starts with an empty journal over what its draft store holds. -/
def opened (drafts staged : (changeId : String) → Option (StoredChange changeId × Int)) :
    ChangeAgent where
  runtime := (Runtime.start []).1
  drafts
  staged

variable (agent : ChangeAgent)

/-- Whether the `apply` handler accepts a request. -/
def accepts (request : ApplyInput) (staged : Option (StoredChange request.changeId))
    (eventId : String) : Bool :=
  (agent.runtime.apply request (staged.map StoredChange.draft) eventId).2 = .accepted

variable (options : DraftStoreOptions)

/-- What a handler's call leaves of the agent. -/
def handled (dependencies : ApplyDependencies) (agent : ChangeAgent) (now : Int)
    (eventId : String) : HandlerEffect → ChangeAgent
  | .readDraft _ | .readStaged _ => agent
  | .replaceDraft change =>
    { agent with
      drafts := Function.update agent.drafts change.changeId
        (some (⟨change, rfl⟩, now + options.draftTtl)) }
  | .saveStaged change =>
    { agent with
      staged := Function.update agent.staged change.changeId
        (some (⟨change, rfl⟩, now + options.stagedTtl)) }
  | .deleteDraft changeId => { agent with drafts := Function.update agent.drafts changeId none }
  | .deleteStaged changeId => { agent with staged := Function.update agent.staged changeId none }
  | .record kind changeId appId changeDigest =>
    { agent with
      runtime := agent.runtime.record
        ⟨eventId, changeId, appId, kind.state, kind.reasonCode, none, changeDigest⟩ }
  | .apply request staged =>
    { agent with
      runtime := (agent.runtime.apply request (staged.map StoredChange.draft) eventId).1
      coordinator :=
        if agent.accepts request staged eventId then
          (agent.coordinator.take dependencies (.apply request)).1
        else agent.coordinator }

/-- What answers a handler's call. -/
def answerHandler (now : Int) : (effect : HandlerEffect) → effect.Answer
  | .readDraft changeId => unexpired now (agent.drafts changeId)
  | .readStaged changeId => unexpired now (agent.staged changeId)
  | .replaceDraft _ | .saveStaged _ | .deleteDraft _ | .deleteStaged _ | .record _ _ _ _
  | .apply _ _ => ()

/-- What the dependencies of the coordinator answer. -/
def replyRun (now : Int) (eventId : String) (access : JournalAccess)
    (reply : (effect : Effect) → effect.Answer) : (effect : Effect) → effect.Answer
  | .readStaged changeId =>
    (.ok ((unexpired now (agent.staged changeId)).map Subtype.val) :
      Except Thrown (Option StagedChangePayload))
  | .now => now
  | .persistEvent event =>
    (if (agent.runtime.persistEvent event eventId access).2 = .done then .ok ()
      else .error (.error none) : Except Thrown Unit)
  | .onRollbackFailed _ _ _ _ => (.ok () : Except Thrown Unit)
  | effect => reply effect

/-- The memory after a call of a run. -/
def runtimeAfter (runtime : Runtime) (eventId : String) (access : JournalAccess) : Effect → Runtime
  | .persistEvent event => (runtime.persistEvent event eventId access).1
  | .onRollbackFailed changeId _ _ _ => (runtime.dispatch (.onRollbackFailed changeId)).1
  | _ => runtime

/-- What a handler's call records. -/
def recordedBy (eventId : String) : HandlerEffect → Option RecordedEvent
  | .record kind changeId _ _ => some ⟨changeId, kind.state, .request kind⟩
  | .apply request staged =>
    if agent.accepts request staged eventId then
      some ⟨request.changeId, .applying, .apply request.runId⟩
    else none
  | _ => none

/-- What a call of a run records, of a change that is known. -/
def recordedInRun (runtime : Runtime) : Effect → Option RecordedEvent
  | .persistEvent event =>
    (runtime.changes event.changeId).map fun _ =>
      ⟨event.changeId, event.state.toChangeState, .run event.runId⟩
  | _ => none

/-- What an action records. -/
def recording : ChangeAction → Option RecordedEvent
  | .request _ => none
  | .handle number _ eventId =>
    match agent.handlers[number]? with
    | some (.call effect _) => agent.recordedBy eventId effect
    | _ => none
  | .answer index _ _ _ _ =>
    match agent.coordinator.calls[index]? with
    | some ⟨_, .call effect _, _⟩ => recordedInRun agent.runtime effect
    | _ => none

/-- The agent after an action, but for the history of what it records. -/
def advance (dependencies : ApplyDependencies) (agent : ChangeAgent) : ChangeAction → ChangeAgent
  | .request request => { agent with handlers := agent.handlers ++ [request.handler] }
  | .handle number now eventId =>
    match agent.handlers[number]? with
    | some (.call effect next) =>
      let after := agent.handled options dependencies now eventId effect
      { after with handlers := agent.handlers.set number (next (agent.answerHandler now effect)) }
    | _ => agent
  | .answer index now eventId access reply =>
    match agent.coordinator.calls[index]? with
    | some ⟨_, .call effect _, _⟩ =>
      { agent with
        runtime := runtimeAfter agent.runtime eventId access effect
        coordinator := (agent.coordinator.take dependencies
          (.answer index (agent.replyRun now eventId access reply))).1 }
    | _ => agent

/-- One step. -/
def step (dependencies : ApplyDependencies) (agent : ChangeAgent) (action : ChangeAction) : ChangeAgent × Unit :=
  ({ agent.advance options dependencies action with
      history := agent.history ++ (agent.recording action).toList }, ())

/-! ## Legal histories -/

def eventsOf (history : List RecordedEvent) (changeId : String) : List RecordedEvent :=
  history.filter fun event => event.changeId = changeId

def statesOf (history : List RecordedEvent) (changeId : String) : List ChangeState :=
  (eventsOf history changeId).map RecordedEvent.state

def IsPath (states : List ChangeState) : Prop :=
  states.IsChain fun earlier later => later ∈ earlier.legalTransitions

instance (states : List ChangeState) : Decidable (IsPath states) :=
  inferInstanceAs (Decidable (List.IsChain _ states))

/-- What is recorded of a change is a path of the state machine, on which no event of a run stands
between the events of another one. -/
structure LegalHistory (events : List RecordedEvent) : Prop where
  path : IsPath (events.map RecordedEvent.state)
  apart : ∀ first between last, [first, between, last].Sublist events →
    ∀ runId ∈ first.recorder.runId?, runId ∈ last.recorder.runId? →
      ∀ other ∈ between.recorder.runId?, other = runId

def Legal : Prop :=
  ∀ changeId, LegalHistory (eventsOf agent.history changeId)

end ChangeAgent

/-- Who may record next of a change: a validation first of all, a saving before it was saved, and
an apply or a cancellation once, an apply of a validated change only after it was saved. A run may
record nothing. -/
def Recorder.Follows (earlier : List ChangeState) : Recorder → Prop
  | .request .validate => earlier = []
  | .request .save => ∀ state ∈ earlier, state = .ready
  | .request .cancel => .applying ∉ earlier ∧ .cancelled ∉ earlier
  | .apply _ =>
    .applying ∉ earlier ∧ .cancelled ∉ earlier ∧ (.ready ∈ earlier → .saved ∈ earlier)
  | .run _ => False

namespace ChangeAgent

def InTurn (agent : ChangeAgent) (action : ChangeAction) : Prop :=
  ∀ event ∈ agent.recording action, event.recorder.Follows (statesOf agent.history event.changeId)

/-- What the requests of a change record in turn. -/
def requestHistories : List (List ChangeState) :=
  [[], [.ready], [.saved], [.applying], [.cancelled], [.ready, .saved], [.ready, .cancelled],
    [.saved, .applying], [.saved, .cancelled], [.ready, .saved, .applying],
    [.ready, .saved, .cancelled]]

variable {earlier : List ChangeState}

/-- The state of a request's own event comes in turn exactly when it goes on legally. -/
theorem request_follows (before : earlier ∈ requestHistories) (kind : RequestKind) :
    ((Recorder.request kind).Follows earlier ↔ IsPath (earlier ++ [kind.state])) ∧
    ((Recorder.request kind).Follows earlier → earlier ++ [kind.state] ∈ requestHistories) := by
  revert earlier
  cases kind with
  | validate => simp only [Recorder.Follows, RequestKind.state]; decide
  | save => simp only [Recorder.Follows, RequestKind.state]; decide
  | cancel => simp only [Recorder.Follows, RequestKind.state]; decide

theorem apply_follows (before : earlier ∈ requestHistories) (runId : String) :
    ((Recorder.apply runId).Follows earlier ↔ IsPath (earlier ++ [.applying])) ∧
    ((Recorder.apply runId).Follows earlier → earlier ++ [.applying] ∈ requestHistories) := by
  revert earlier
  simp only [Recorder.Follows]
  decide

theorem requestHistories_path {states : List ChangeState} (member : states ∈ requestHistories) :
    IsPath states ∧ states.Nodup := by
  revert states
  decide

theorem applying_again (before : earlier ∈ requestHistories) (applying : .applying ∈ earlier) :
    ¬ IsPath (earlier ++ [.applying]) := by
  revert earlier
  decide

/-! ## The memory and the history -/

/-- One more event adds its state to those of its change. -/
theorem statesOf_append (history : List RecordedEvent) (event : RecordedEvent) (changeId : String) :
    statesOf (history ++ [event]) changeId =
      statesOf history changeId ++ if event.changeId = changeId then [event.state] else [] := by
  unfold statesOf eventsOf
  by_cases own : event.changeId = changeId
  · simp [own]
  · simp [own]

end ChangeAgent

namespace Runtime

def statesOf (runtime : Runtime) (changeId : String) : List ChangeState :=
  ((runtime.changes changeId).elim [] RuntimeChange.events).map RuntimeEvent.state

variable (runtime : Runtime)

/-- A recording adds its state to those of its change. -/
theorem record_statesOf (input : RecordInput) (changeId : String) :
    (runtime.record input).statesOf changeId =
      runtime.statesOf changeId ++ if input.changeId = changeId then [input.state] else [] := by
  by_cases own : input.changeId = changeId
  · subst own
    cases known : runtime.changes input.changeId with
    | none => simp [statesOf, record, stateFor, known]
    | some current => simp [statesOf, record, stateFor, known]
  · simp [statesOf, record, own, Function.update_of_ne (Ne.symm own)]

/-- A known change is recorded, whatever becomes of the journal. -/
theorem persistEvent_statesOf (event : ApplyEvent) (eventId : String) (access : JournalAccess)
    (changeId : String) :
    (runtime.persistEvent event eventId access).1.statesOf changeId =
      runtime.statesOf changeId ++
        if (runtime.changes event.changeId).isSome ∧ event.changeId = changeId then
          [event.state.toChangeState]
        else [] := by
  unfold persistEvent
  cases known : runtime.changes event.changeId with
  | none => simp
  | some current =>
    have same : (runtime.persistKnown current event eventId access).1.statesOf changeId =
        (runtime.record ⟨eventId, event.changeId, current.appId, event.state.toChangeState,
          event.reasonCode, some event.sequence, none⟩).statesOf changeId := by
      unfold statesOf
      rw [persistKnown_changes]
    rw [same, record_statesOf]
    simp

/-- The request of a run that is accepted is recorded, and no other. -/
theorem apply_statesOf (request : ApplyInput) (staged : Option StagedDraft)
    (own : ∀ draft ∈ staged, draft.changeId = request.changeId) (eventId changeId : String) :
    (runtime.apply request staged eventId).1.statesOf changeId =
      runtime.statesOf changeId ++
        if (runtime.apply request staged eventId).2 = .accepted ∧ request.changeId = changeId then
          [.applying]
        else [] := by
  unfold apply
  cases staged with
  | none => simp
  | some draft =>
    have same : draft.changeId = request.changeId := own draft rfl
    dsimp only
    split
    · simp
    · split
      · simp
      · rw [record_statesOf, same]
        simp

end Runtime

namespace ChangeAgent

variable {options : DraftStoreOptions} {dependencies : ApplyDependencies} {agent : ChangeAgent}

def added (event : Option RecordedEvent) (changeId : String) : List ChangeState :=
  event.elim [] fun event => if event.changeId = changeId then [event.state] else []

theorem statesOf_recorded (history : List RecordedEvent) (event : Option RecordedEvent)
    (changeId : String) :
    statesOf (history ++ event.toList) changeId =
      statesOf history changeId ++ added event changeId := by
  cases event with
  | none => simp [added]
  | some event => exact statesOf_append history event changeId

/-- A handler's call adds to the memory what it records. -/
theorem handled_statesOf (now : Int) (eventId : String) (effect : HandlerEffect)
    (changeId : String) :
    (agent.handled options dependencies now eventId effect).runtime.statesOf changeId =
      agent.runtime.statesOf changeId ++ added (agent.recordedBy eventId effect) changeId := by
  cases effect with
  | record kind id appId digest => exact Runtime.record_statesOf _ _ changeId
  | apply request staged =>
    have own : ∀ draft ∈ staged.map StoredChange.draft, draft.changeId = request.changeId := by
      intro draft member
      obtain ⟨stored, -, rfl⟩ := Option.map_eq_some_iff.mp member
      exact stored.property
    have next := Runtime.apply_statesOf agent.runtime request _ own eventId changeId
    refine next.trans (congrArg _ ?_)
    unfold recordedBy
    dsimp only
    by_cases accepted : agent.accepts request staged eventId
    · have outcome := of_decide_eq_true accepted
      rw [if_pos accepted]
      simp [added, outcome]
    · have outcome : (agent.runtime.apply request (staged.map StoredChange.draft) eventId).2 ≠
          .accepted := fun same => accepted (decide_eq_true same)
      rw [if_neg accepted]
      simp [added, outcome]
  | _ => exact (append_nil _).symm

/-- A call of a run adds to the memory what it records. -/
theorem runtimeAfter_statesOf (runtime : Runtime) (eventId : String) (access : JournalAccess)
    (effect : Effect) (changeId : String) :
    (runtimeAfter runtime eventId access effect).statesOf changeId =
      runtime.statesOf changeId ++ added (recordedInRun runtime effect) changeId := by
  cases effect with
  | persistEvent event =>
    refine (Runtime.persistEvent_statesOf runtime event eventId access changeId).trans ?_
    refine congrArg _ ?_
    unfold recordedInRun
    cases known : runtime.changes event.changeId with
    | none => simp [added, known]
    | some current => simp [added, known]
  | onRollbackFailed id runId snapshotId reasonCode =>
    have same : (runtime.dispatch (.onRollbackFailed id)).1.changes = runtime.changes := by
      unfold Runtime.dispatch
      dsimp only
      split
      · rfl
      · rfl
    refine Eq.trans ?_ (append_nil _).symm
    show Runtime.statesOf (runtime.dispatch (.onRollbackFailed id)).1 changeId = _
    unfold Runtime.statesOf
    rw [same]
  | _ => exact (append_nil _).symm

/-- An action adds to the memory what it records. -/
theorem advance_statesOf (action : ChangeAction) (changeId : String) :
    (agent.advance options dependencies action).runtime.statesOf changeId =
      agent.runtime.statesOf changeId ++ added (agent.recording action) changeId := by
  cases action with
  | request request => exact (append_nil _).symm
  | handle number now eventId =>
    unfold advance recording
    dsimp only
    split
    · exact handled_statesOf now eventId _ changeId
    · exact (append_nil _).symm
  | answer index now eventId access reply =>
    unfold advance recording
    dsimp only
    split
    · exact runtimeAfter_statesOf agent.runtime eventId access _ changeId
    · exact (append_nil _).symm

/-! ## What every action keeps -/

/-- Only requests have recorded something, each in turn; the memory has what was recorded, and a
call of the coordinator has recorded nothing since its request. -/
structure Sound (agent : ChangeAgent) : Prop where
  requests : ∀ changeId, statesOf agent.history changeId ∈ requestHistories
  starts : ∀ event ∈ agent.history, ∀ runId ∈ event.recorder.runId?, event.state = .applying
  memory : ∀ changeId, agent.runtime.statesOf changeId = statesOf agent.history changeId
  calls : ∀ call ∈ agent.coordinator.calls,
    call.program.Ensures (startMonitor call.input.changeId) (fun _ _ => True) false ∧
      .applying ∈ statesOf agent.history call.input.changeId

/-- What has been recorded in turn is legal. -/
theorem Sound.legal (sound : Sound agent) : agent.Legal := by
  intro changeId
  obtain ⟨path, distinct⟩ := requestHistories_path (sound.requests changeId)
  refine ⟨path, fun first between last within runId own same => ?_⟩
  -- the request of a run is recorded once, so no two events belong to runs
  have starts (event : RecordedEvent) (member : event ∈ [first, between, last])
      (run : runId ∈ event.recorder.runId?) : event.state = .applying :=
    sound.starts event (List.mem_filter.mp (within.subset member)).1 runId run
  have twice : [ChangeState.applying, between.state, .applying].Nodup := by
    have states := (within.map RecordedEvent.state).nodup distinct
    rwa [map_cons, map_cons, map_cons, List.map_nil,
      starts first (by simp) own, starts last (by simp) same] at states
  exact absurd twice (by simp)

variable {action : ChangeAction} {event : RecordedEvent}

/-- What an action records, and whose it is: a request's own state, the start of an apply, or an
event of a call. -/
theorem recording_cases (recorded : agent.recording action = some event) :
    (∃ kind, event.recorder = .request kind ∧ event.state = kind.state) ∨
      (∃ runId, event.recorder = .apply runId ∧ event.state = .applying) ∨
      ∃ call ∈ agent.coordinator.calls, ∃ persisted next,
        call.program = .call (.persistEvent persisted) next ∧
        event = ⟨persisted.changeId, persisted.state.toChangeState, .run persisted.runId⟩ := by
  cases action with
  | request request => cases recorded
  | handle number now eventId =>
    unfold recording at recorded
    dsimp only at recorded
    split at recorded
    · rename_i effect next found
      cases effect with
      | record kind id appId digest =>
        obtain rfl := Option.some.inj recorded
        exact .inl ⟨kind, rfl, rfl⟩
      | apply request staged =>
        unfold recordedBy at recorded
        dsimp only at recorded
        split at recorded
        · obtain rfl := Option.some.inj recorded
          exact .inr (.inl ⟨request.runId, rfl, rfl⟩)
        · cases recorded
      | _ => cases recorded
    · cases recorded
  | answer index now eventId access reply =>
    unfold recording at recorded
    dsimp only at recorded
    split at recorded
    · rename_i input effect next phase found
      cases effect with
      | persistEvent persisted =>
        obtain ⟨current, -, rfl⟩ := Option.map_eq_some_iff.mp recorded
        exact .inr (.inr ⟨_, List.mem_of_getElem? found, persisted, next, rfl, rfl⟩)
      | _ => cases recorded
    · cases recorded

/-- An action that records in turn leaves requests in turn, and one that leaves a path records in
turn. -/
theorem Sound.next (sound : Sound agent) (recorded : agent.recording action = some event) :
    (event.recorder.Follows (statesOf agent.history event.changeId) →
      statesOf agent.history event.changeId ++ [event.state] ∈ requestHistories ∧
        ∀ runId ∈ event.recorder.runId?, event.state = .applying) ∧
    (IsPath (statesOf agent.history event.changeId ++ [event.state]) →
      event.recorder.Follows (statesOf agent.history event.changeId)) := by
  have before := sound.requests event.changeId
  rcases recording_cases recorded with
    ⟨kind, recorder, state⟩ | ⟨runId, recorder, state⟩ | ⟨call, member, persisted, next, calls, rfl⟩
  · rw [recorder, state]
    obtain ⟨path, follows⟩ := request_follows before kind
    exact ⟨fun turn => ⟨follows turn, nofun⟩, path.mpr⟩
  · rw [recorder, state]
    obtain ⟨path, follows⟩ := apply_follows before runId
    exact ⟨fun turn => ⟨follows turn, fun _ _ => rfl⟩, path.mpr⟩
  · refine ⟨False.elim, fun path => ?_⟩
    -- a call that has recorded nothing yet records its start, which its request has recorded
    obtain ⟨ensured, applying⟩ := sound.calls call member
    rw [calls] at ensured
    obtain ⟨state, own⟩ : persisted.state = .applying ∧ persisted.changeId = call.input.changeId :=
      ensured.1.resolve_left Bool.false_ne_true
    rw [state, own] at path
    rw [own] at before
    exact absurd path (applying_again before applying)

/-- A call that has recorded nothing has recorded nothing after an answer, when it is not one to the
recording of a known change. -/
theorem answered_unstarted {changeId : String} {effect : Effect}
    {next : effect.Answer → Program Effect Effect.Answer (Except Thrown ApplyCoordinatorResult)}
    {now : Int} {eventId : String} {access : JournalAccess}
    {reply : (effect : Effect) → effect.Answer}
    (ensured : (Program.call effect next).Ensures (startMonitor changeId) (fun _ _ => True) false)
    (known : (agent.runtime.changes changeId).isSome)
    (quiet : recordedInRun agent.runtime effect = none) :
    Program.Ensures (startMonitor changeId)
      (next (answerOf agent.coordinator.active (agent.replyRun now eventId access reply) effect))
      (fun _ _ => True) false := by
  obtain ⟨permitted, rest⟩ := ensured
  have continues := rest
    (answerOf agent.coordinator.active (agent.replyRun now eventId access reply) effect)
  cases effect with
  | persistEvent event =>
    have own : event.changeId = changeId :=
      (permitted.resolve_left Bool.false_ne_true).2
    obtain ⟨current, found⟩ := Option.isSome_iff_exists.mp known
    have recorded : recordedInRun agent.runtime (.persistEvent event) ≠ none := by
      simp [recordedInRun, own, found]
    exact absurd quiet recorded
  | readStaged other =>
    obtain rfl : other = changeId := permitted.resolve_left Bool.false_ne_true
    -- the store has the change under its own identifier
    have unread : (startMonitor other).observe false (.readStaged other)
        (.ok ((unexpired now (agent.staged other)).map Subtype.val)) = false := by
      cases unexpired now (agent.staged other) with
      | none => rfl
      | some stored =>
        have own : stored.val.changeId = other := stored.property
        simp [startMonitor, own]
    have same : answerOf agent.coordinator.active (agent.replyRun now eventId access reply)
        (.readStaged other) = .ok ((unexpired now (agent.staged other)).map Subtype.val) := rfl
    rw [same] at continues ⊢
    rwa [unread] at continues
  | _ => exact continues

/-- An action that records in turn leaves the calls of the coordinator without a record of their
own. -/
theorem calls_advance (sound : Sound agent) (turn : agent.InTurn action) :
    ∀ call ∈ (agent.advance options dependencies action).coordinator.calls,
      call.program.Ensures (startMonitor call.input.changeId) (fun _ _ => True) false ∧
        (.applying ∈ statesOf agent.history call.input.changeId ∨
          .applying ∈ added (agent.recording action) call.input.changeId) := by
  have earlier : ∀ call ∈ agent.coordinator.calls,
      call.program.Ensures (startMonitor call.input.changeId) (fun _ _ => True) false ∧
        (.applying ∈ statesOf agent.history call.input.changeId ∨
          .applying ∈ added (agent.recording action) call.input.changeId) := by
    intro call member
    obtain ⟨ensured, applying⟩ := sound.calls call member
    exact ⟨ensured, .inl applying⟩
  cases action with
  | request request => exact earlier
  | handle number now eventId =>
    intro call member
    unfold advance at member
    dsimp only at member
    cases found : agent.handlers[number]? with
    | none =>
      rw [found] at member
      exact earlier call member
    | some program =>
      cases program with
      | ret value =>
        rw [found] at member
        exact earlier call member
      | call effect next =>
        rw [found] at member
        have recorded : agent.recording (.handle number now eventId) =
            agent.recordedBy eventId effect := by
          unfold recording
          dsimp only
          rw [found]
        cases effect with
        | apply request staged =>
          by_cases accepted : agent.accepts request staged eventId
          · have taken : call ∈ (agent.coordinator.take dependencies (.apply request)).1.calls := by
              have same : (agent.handled options dependencies now eventId
                  (.apply request staged)).coordinator =
                    (agent.coordinator.take dependencies (.apply request)).1 := if_pos accepted
              rw [← same]
              exact member
            unfold Coordinator.take at taken
            dsimp only at taken
            split at taken
            · exact earlier call taken
            · rcases mem_append.mp taken with before | new
              · exact earlier call before
              · rw [List.mem_singleton.mp new]
                refine ⟨performApply_start dependencies request, .inr ?_⟩
                rw [recorded]
                unfold recordedBy
                dsimp only
                rw [if_pos accepted]
                simp [added]
          · have kept : (agent.handled options dependencies now eventId
                (.apply request staged)).coordinator = agent.coordinator := if_neg accepted
            refine earlier call ?_
            rw [← kept]
            exact member
        | _ => exact earlier call member
  | answer index now eventId access reply =>
    intro call member
    unfold advance at member
    dsimp only at member
    cases found : agent.coordinator.calls[index]? with
    | none =>
      rw [found] at member
      exact earlier call member
    | some pending =>
      obtain ⟨input, program, phase⟩ := pending
      cases program with
      | ret value =>
        rw [found] at member
        exact earlier call member
      | call effect next =>
        have recorded : agent.recording (.answer index now eventId access reply) =
            recordedInRun agent.runtime effect := by
          unfold recording
          dsimp only
          rw [found]
        -- what a run records is out of turn
        have quiet : recordedInRun agent.runtime effect = none := by
          cases records : recordedInRun agent.runtime effect with
          | none => rfl
          | some event =>
            have own := turn event (recorded.trans records)
            cases effect with
            | persistEvent persisted =>
              obtain ⟨current, -, rfl⟩ := Option.map_eq_some_iff.mp records
              exact own.elim
            | _ => cases records
        obtain ⟨ensured, applying⟩ := sound.calls _ (List.mem_of_getElem? found)
        have known : (agent.runtime.changes input.changeId).isSome := by
          have remembered : .applying ∈ agent.runtime.statesOf input.changeId := by
            rw [sound.memory]
            exact applying
          cases unknown : agent.runtime.changes input.changeId with
          | none =>
            simp [Runtime.statesOf, unknown] at remembered
          | some current => rfl
        unfold Coordinator.take at member
        dsimp only at member
        rw [found] at member
        rcases List.mem_or_eq_of_mem_set member with before | rfl
        · exact earlier call before
        · exact ⟨answered_unstarted ensured known quiet, .inl applying⟩

/-- An action that records in turn leaves only requests in turn. -/
theorem sound_step (sound : Sound agent) (turn : agent.InTurn action) :
    Sound (agent.step options dependencies action).1 := by
  have states (changeId : String) :
      statesOf (agent.step options dependencies action).1.history changeId =
        statesOf agent.history changeId ++ added (agent.recording action) changeId :=
    statesOf_recorded agent.history (agent.recording action) changeId
  constructor
  · intro changeId
    rw [states]
    cases recorded : agent.recording action with
    | none =>
      rw [show added none changeId = [] from rfl, append_nil]
      exact sound.requests changeId
    | some event =>
      by_cases own : event.changeId = changeId
      · subst own
        have next := ((sound.next recorded).1 (turn event recorded)).1
        simpa [added] using next
      · simpa [added, own] using sound.requests changeId
  · intro event member runId own
    rcases mem_append.mp member with earlier | new
    · exact sound.starts event earlier runId own
    · have recorded : agent.recording action = some event := Option.mem_toList.mp new
      exact ((sound.next recorded).1 (turn event recorded)).2 runId own
  · intro changeId
    rw [states, ← sound.memory]
    exact advance_statesOf action changeId
  · intro call member
    obtain ⟨ensured, applying⟩ := calls_advance sound turn call member
    refine ⟨ensured, ?_⟩
    rw [states, mem_append]
    exact applying

/-- A step leaves what is recorded legal exactly when it records in turn. -/
theorem legal_step_iff (sound : Sound agent) (action : ChangeAction) :
    (agent.step options dependencies action).1.Legal ↔ agent.InTurn action := by
  constructor
  · intro legal event recorded
    have path := (legal event.changeId).path
    refine (sound.next recorded).2 ?_
    have states : statesOf (agent.step options dependencies action).1.history event.changeId =
        statesOf agent.history event.changeId ++ [event.state] := by
      refine (statesOf_recorded agent.history (agent.recording action) event.changeId).trans ?_
      rw [Option.mem_def.mp recorded]
      simp [added]
    rw [← states]
    exact path
  · intro turn
    exact (sound_step sound turn).legal

/-! ## Runs -/

/-- In every run of requests of any changes and of the applies they start, every step leaves what is
recorded of each change a path of the state machine, with the events of its runs apart, exactly when
the requests of a change record in turn and its runs record nothing. -/
theorem histories_legal_iff (options : DraftStoreOptions) (dependencies : ApplyDependencies)
    (drafts staged : (changeId : String) → Option (StoredChange changeId × Int))
    (actions : List ChangeAction) :
    Machine.Along (step options dependencies)
        (fun agent action => (agent.step options dependencies action).1.Legal)
        (opened drafts staged) actions ↔
      Machine.Along (step options dependencies) InTurn (opened drafts staged) actions := by
  have first : Sound (opened drafts staged) := by
    refine ⟨fun changeId => (.head _), ?_, fun changeId => rfl, ?_⟩
    · intro event member
      cases member
    · intro call member
      cases member
  have kept (agent : ChangeAgent) (action : ChangeAction) (sound : Sound agent)
      (turn : agent.InTurn action) : Sound (agent.step options dependencies action).1 :=
    sound_step sound turn
  have agree (agent : ChangeAgent) (action : ChangeAction) (sound : Sound agent) :
      (agent.step options dependencies action).1.Legal ↔ agent.InTurn action :=
    legal_step_iff sound action
  exact Machine.along_congr_of_kept kept agree first actions

/-- A change is validated, saved and applied, and cancelled before its run has read it. -/
def cancelledApply : List ChangeAction :=
  [.request (.validate portChange), .handle 0 0 "E1", .handle 0 0 "E1",
    .request (.save "CHG_1" "d1"), .handle 1 0 "E2", .handle 1 0 "E2", .handle 1 0 "E2",
    .handle 1 0 "E2", .handle 1 0 "E2", .handle 1 0 "E2",
    .request (.apply portInput), .handle 2 0 "E3", .handle 2 0 "E3",
    .request (.cancel "CHG_1"), .handle 3 0 "E4", .handle 3 0 "E4", .handle 3 0 "E4",
    .handle 3 0 "E4"]

/-- A change whose apply was accepted is cancelled, as its staged artifact is still there. -/
theorem applying_cancelled :
    ¬ ∀ actions, (Machine.after (step ⟨86400000, 86400000⟩ agentDependencies)
      (opened (fun _ => none) fun _ => none) actions).Legal := by
  intro all
  have path := (all cancelledApply "CHG_1").path
  revert path
  decide

end ChangeAgent

end NancyMan.Agent
