import NancyMan.Agent.ApplyExclusion
import NancyMan.Agent.RuntimeHandlers
import NancyMan.ControlPlane.ChangeMetadata
import NancyMan.Lib.Fallible

/-!
# A run is applied once

What the agent's coordinator and its action runner do for calls that name the same run. The
coordinator answers a call with the result or the promise that it has for the run, and forgets a run
only when it throws. A run that throws has written nothing, because the callback with which the
agent hears of a failed rollback cannot throw, so at most one call of a run ever writes. The runner
keeps what it has started under the run and the action.
-/
namespace NancyMan.Agent

open Async SourceWrite
open List (any_eq_true mem_append mem_cons mem_map mem_singleton)

/-! ## What a run has done when it throws -/

/-- What the calls of a run have done: the sources that it has written or tried to write, the last
first, and whether the callback of a failed rollback has thrown. -/
structure Deeds where
  sources : List String
  threw : Bool

def Deeds.blank : Deeds := ⟨[], false⟩

variable (deeds : Deeds)

/-- The deeds after an answered call. -/
def Deeds.observe : (effect : Effect) → effect.Answer → Deeds
  | .writeSource source, _ => { deeds with sources := source.sourceId :: deeds.sources }
  | .onRollbackFailed _ _ _ _, answer =>
    match (answer : Except Thrown Unit) with
    | .ok _ => deeds
    | .error _ => { deeds with threw := true }
  | _, _ => deeds

/-- The monitor that permits one write of a source. -/
def deedsMonitor : Monitor Effect Effect.Answer Deeds where
  permits deeds effect := ∀ source, effect = .writeSource source → source.sourceId ∉ deeds.sources
  observe := Deeds.observe

def Harmless (outcome : Except Thrown ApplyCoordinatorResult) (deeds : Deeds) : Prop :=
  ∀ error, outcome = .error error → deeds.threw = true ∨ deeds.sources = []

def Underway (locals : ApplyLocals) : Prop :=
  locals.machine.isSome = true ∧ locals.change.isSome = true

/-- A part that keeps a run underway and does none of the deeds. -/
def Goes {α : Type} (action : Apply α) : Prop :=
  ∀ locals deeds, Underway locals → Async.Ensures deedsMonitor action
    (fun _ locals' deeds' => Underway locals' ∧ deeds' = deeds)
    (fun _ locals' deeds' => Underway locals' ∧ deeds' = deeds) locals deeds

/-- A run that is underway and has done these deeds. -/
abbrev Doing (locals : ApplyLocals) (others : Deeds) : Prop :=
  Underway locals ∧ others = deeds

theorem goes_of_preserves {α : Type} {action : Apply α}
    (kept : ∀ deeds, Preserves deedsMonitor (Doing deeds) action) : Goes action :=
  fun locals deeds underway => kept deeds locals deeds ⟨underway, rfl⟩

variable {runner : ActionRunner}

theorem calm_underway : Calm deedsMonitor (Doing deeds) where
  assigned locals locals' _ doing change _ machine := by
    refine ⟨⟨machine doing.1.1, ?_⟩, doing.2⟩
    rw [change]
    exact doing.1.2
  passes effect plain := by
    rintro locals _ ⟨underway, rfl⟩
    refine ⟨fun source same => ?_, fun answer => ⟨underway, ?_⟩⟩
    · rw [same] at plain
      cases plain
    cases effect with
    | onRollbackFailed _ _ _ _ => cases plain
    | writeSource _ => cases plain
    | _ => rfl

theorem goes_emit (changeId runId : String) (state : ApplyState) (reasonCode : String) :
    Goes (emit changeId runId state reasonCode) :=
  goes_of_preserves fun deeds => (calm_underway deeds).emit changeId runId state reasonCode

theorem goes_acquire (lock : Lock) : Preserves deedsMonitor (Doing deeds) (acquire lock) := by
  have passes : Passes deedsMonitor (Doing deeds) (.acquireLock lock) :=
    fun locals _ doing => ⟨nofun, fun _ => doing⟩
  exact passes.perform.attempt.bind fun _ => preserves_assign fun _ _ doing => doing

theorem ignoring_goes {action : Apply Unit} (goes : Goes action) {locals : ApplyLocals}
    (underway : Underway locals) (deeds : Deeds) : Async.Ensures deedsMonitor (ignoring action)
      (fun _ locals' deeds' => Underway locals' ∧ deeds' = deeds) (fun _ _ _ => False) locals
      deeds :=
  ensures_tryCatch ((goes locals deeds underway).mono (fun _ _ _ held => held)
    fun _ _ _ held => ensures_pure held)

/-! ## The sources of a change -/

/-- An item goes to the write of its source, or to a new one. -/
theorem addItem_nodup {writes next : List SourceWrite} {item : StagedChangeItem}
    (distinct : (writes.map sourceId).Nodup) (added : addItem writes item = .ok next) :
    (next.map sourceId).Nodup := by
  unfold addItem at added
  split at added
  · next unseen =>
    obtain rfl := Except.ok.inj added
    have apart : ∀ write ∈ writes, write.sourceId ≠ item.sourceId := by
      simpa using List.find?_eq_none.mp unseen
    rw [List.map_append, List.nodup_append]
    refine ⟨distinct, by simp, ?_⟩
    rintro _ member _ new rfl
    obtain ⟨write, listed, same⟩ := mem_map.mp member
    exact apart write listed (same.trans (mem_singleton.mp new))
  · split at added
    · cases added
    · obtain rfl := Except.ok.inj added
      have same : sourceId ∘ (fun write : SourceWrite =>
          if write.sourceId = item.sourceId then
            { write with operations := write.operations ++ [item.toOperation] }
          else write) = sourceId := by
        funext write
        dsimp only [Function.comp]
        split <;> rfl
      rw [List.map_map, same]
      exact distinct

/-- Each source of a change is written by one write. -/
theorem sourceOperations_nodup {change : StagedChangePayload} {writes : List SourceWrite}
    (planned : sourceOperations change = .ok writes) :
    (writes.map sourceId).Nodup := by
  let Holds (_ : List StagedChangeItem) (writes : List SourceWrite) : Prop :=
    (writes.map sourceId).Nodup
  have kept : ∀ before state item next, Holds before state → addItem state item = .ok next →
      Holds (before ++ [item]) next := fun _ _ _ _ => addItem_nodup
  have start : Holds [] [] := List.nodup_nil
  exact @Fallible.foldlM_keeps _ _ _ addItem Holds kept change.items [] [] writes start planned

/-! ## The parts of a run -/

section Parts

variable {dependencies : ApplyDependencies} {input : ApplyInput} {change : StagedChangePayload}
  {locals : ApplyLocals} {deeds : Deeds}

/-- Acquiring a lock leaves the change and the machine. -/
theorem acquire_unstarted (present : Bool) (lock : Lock) :
    Async.Ensures deedsMonitor (whenever present (acquire lock))
      (fun _ locals' deeds' => locals'.change = locals.change ∧
        locals'.machine = locals.machine ∧ deeds' = deeds)
      (fun _ locals' deeds' => locals'.change = locals.change ∧
        locals'.machine = locals.machine ∧ deeds' = deeds) locals deeds := by
  cases present with
  | false => exact ensures_pure ⟨rfl, rfl, rfl⟩
  | true =>
    refine ensures_bind (ensures_attempt (ensures_perform nofun ?_))
    rintro (error | acquired)
    · exact ⟨rfl, rfl, rfl⟩
    · exact ensures_assign ⟨rfl, rfl, rfl⟩

def Interruptible (locals : ApplyLocals) (deeds : Deeds) : Prop :=
  (locals.machine = none ∧ deeds = .blank) ∨ (Underway locals ∧ deeds.threw = false)

/-- An admitted change gets its machine and its snapshot. -/
theorem recordSnapshot_idle (held : locals.change = some change) (unstarted : locals.machine = none) :
    Async.Ensures deedsMonitor (recordSnapshot dependencies input change)
      (fun _ locals deeds => Underway locals ∧ deeds = .blank)
      (fun _ => Interruptible) locals .blank := by
  have rest := goes_of_preserves fun deeds =>
    (calm_underway deeds).starting dependencies input change (goes_acquire deeds)
  refine ensures_bind ((acquire_unstarted dependencies.acquireApplicationLock
    (.application change.appId)).mono ?_ ?_)
  · rintro _ locals' deeds' ⟨change', machine', rfl⟩
    refine ensures_bind (ensures_assign ((rest _ .blank ⟨rfl, ?_⟩).mono ?_ ?_))
    · rw [change', held]
      rfl
    · exact fun _ _ _ held => held
    · rintro _ _ _ ⟨underway, rfl⟩
      exact .inr ⟨underway, rfl⟩
  · rintro _ locals' deeds' ⟨-, machine', rfl⟩
    exact .inl ⟨machine'.trans unstarted, rfl⟩

/-- Writing tries each source once. -/
theorem writeSources_once (underway : Underway locals) :
    Async.Ensures deedsMonitor (writeSources change)
      (fun _ locals deeds => Underway locals ∧ deeds.threw = false)
      (fun _ locals deeds => Underway locals ∧ deeds.threw = false) locals .blank := by
  unfold writeSources
  split
  · exact ensures_throw ⟨underway, rfl⟩
  · next sources planned =>
    have distinct := sourceOperations_nodup planned
    refine (ensures_forM (fun left locals deeds => (Underway locals ∧ deeds.threw = false) ∧
      (left.map sourceId).Nodup ∧
        ∀ source ∈ left, source.sourceId ∉ deeds.sources) ?_
      ⟨⟨underway, rfl⟩, distinct, fun _ _ => List.not_mem_nil⟩).mono
        (fun _ _ _ held => held.1) fun _ _ _ held => held
    rintro source left locals deeds ⟨going, distinct, unwritten⟩
    obtain ⟨apart, others⟩ := List.nodup_cons.mp distinct
    refine ensures_bind (ensures_assign (ensures_attempt (ensures_perform ?_ ?_)))
    · intro other same
      cases same
      exact unwritten source List.mem_cons_self
    · have left' : ∀ other ∈ left, other.sourceId ∉ source.sourceId :: deeds.sources := by
        intro other member tried
        rcases mem_cons.mp tried with same | before
        · exact apart (mem_map.mpr ⟨other, member, same⟩)
        · exact unwritten other (.tail _ member) before
      rintro (error | done)
      · exact going
      · exact ⟨going, others, left'⟩

theorem goes_activate : Goes (activate input change) :=
  goes_of_preserves fun deeds => (calm_underway deeds).activate input change

/-- The `try` block throws without a machine before it has done anything. -/
theorem applyStaged_once :
    Async.Ensures deedsMonitor (applyStaged dependencies input)
      (fun _ _ deeds => deeds.threw = false) (fun _ => Interruptible)
      ⟨none, false, none, none, []⟩ .blank := by
  refine ensures_bind (ensures_attempt (ensures_perform nofun ?_))
  rintro (error | staged)
  · exact .inl ⟨rfl, rfl⟩
  refine ensures_bind (ensures_assign ?_)
  cases staged with
  | none => exact ensures_throw (.inl ⟨rfl, rfl⟩)
  | some change =>
    refine ensures_bind (ensures_require (fun _ => ?_) fun _ => .inl ⟨rfl, rfl⟩)
    refine ensures_bind (ensures_perform nofun fun time => ?_)
    refine ensures_bind (ensures_require (fun _ => ?_) fun _ => .inl ⟨rfl, rfl⟩)
    refine ensures_bind (ensures_perform nofun fun available => ?_)
    refine ensures_bind (ensures_require (fun _ => ?_) fun _ => .inl ⟨rfl, rfl⟩)
    refine ensures_bind ((recordSnapshot_idle rfl rfl).mono ?_ fun _ _ _ held => held)
    rintro _ locals _ ⟨underway, rfl⟩
    refine ensures_bind ((writeSources_once underway).mono ?_ fun _ _ _ held => .inr held)
    rintro _ locals deeds ⟨underway, quiet⟩
    refine (goes_activate locals deeds underway).mono ?_ ?_
    · rintro _ _ _ ⟨-, rfl⟩
      exact quiet
    · rintro _ _ _ ⟨underway, rfl⟩
      exact .inr ⟨underway, quiet⟩

/-- A rollback that failed is reported unless the callback throws. -/
theorem reportRollbackFailed_once (underway : Underway locals) :
    Async.Ensures deedsMonitor (reportRollbackFailed dependencies input change)
      (fun _ _ _ => True) (fun _ _ deeds => deeds.threw) locals deeds := by
  refine ensures_bind ((ignoring_goes (goes_emit _ _ _ _) underway deeds).mono ?_
    fun _ _ _ never => never.elim)
  rintro _ locals' _ ⟨-, rfl⟩
  unfold whenever
  split
  · refine ensures_bind (ensures_attempt (ensures_perform nofun ?_))
    rintro (error | heard)
    · rfl
    · exact ensures_pure trivial
  · exact ensures_bind (ensures_pure (ensures_pure trivial))

theorem goes_rollBackNothing : Goes (rollBackNothing input change) :=
  goes_of_preserves fun deeds => (calm_underway deeds).rollBackNothing input change

theorem goes_rollBack (snapshot : SnapshotPayload) :
    Goes (rollBack dependencies input change snapshot) :=
  goes_of_preserves fun deeds => (calm_underway deeds).rollBack dependencies input change snapshot

/-- The `catch` block throws when nothing was done, or when the callback does. -/
theorem recoverApply_once {error : Thrown} (interruptible : Interruptible locals deeds) :
    Async.Ensures deedsMonitor (recoverApply dependencies input error) (fun _ _ _ => True)
      (fun _ _ deeds => deeds.threw ∨ deeds.sources = []) locals deeds := by
  rcases interruptible with ⟨unstarted, rfl⟩ | ⟨underway, -⟩
  · exact recoverApply_unstarted unstarted (.inr rfl)
  · refine ensures_bind (ensures_locals ?_)
    obtain ⟨machine, started⟩ := Option.isSome_iff_exists.mp underway.1
    obtain ⟨change, held⟩ := Option.isSome_iff_exists.mp underway.2
    rw [held, started]
    dsimp only
    split
    · next snapshot _ _ =>
      refine ensures_tryCatch ((goes_rollBack snapshot locals deeds underway).mono
        (fun _ _ _ _ => trivial) ?_)
      rintro _ locals' deeds' ⟨going, rfl⟩
      have marked : Async.Ensures deedsMonitor (whenever dependencies.snapshotStore
          (ignoring (attempt (perform (Effect.markRollbackFailed (snapshotIdOf input))))))
          (fun _ locals'' deeds'' => Underway locals'' ∧ deeds'' = deeds')
          (fun _ _ _ => False) locals' deeds' := by
        have mark : Goes (attempt (perform (Effect.markRollbackFailed (snapshotIdOf input))) :
            Apply Unit) :=
          goes_of_preserves fun deeds => ((calm_underway deeds).passes _ rfl).perform.attempt
        unfold whenever
        split
        · exact ignoring_goes mark going deeds'
        · exact ensures_pure ⟨going, rfl⟩
      refine ensures_bind (marked.mono ?_ fun _ _ _ never => never.elim)
      rintro _ locals'' _ ⟨going, rfl⟩
      exact (reportRollbackFailed_once going).mono (fun _ _ _ _ => trivial)
        fun _ _ _ threw => .inl threw
    · refine ensures_tryCatch ((goes_rollBackNothing locals deeds underway).mono
        (fun _ _ _ _ => trivial) ?_)
      rintro _ locals' _ ⟨going, rfl⟩
      exact (reportRollbackFailed_once going).mono (fun _ _ _ _ => trivial)
        fun _ _ _ threw => .inl threw

/-- The last block of a run does none of the deeds and does not throw. -/
theorem releaseAll_once {kept : Deeds → Prop} (holds : kept deeds) :
    Ends deedsMonitor kept locals deeds :=
  releaseAll_ends kept holds (fun _ _ same => ⟨nofun, fun _ => same⟩) (fun _ _ same => same)
    fun _ _ _ same => ⟨nofun, same⟩

/-- A run writes each source at most once, and throws only before it writes, or when the callback
does. -/
theorem performApply_harmless :
    (performApply dependencies input).Ensures deedsMonitor Harmless .blank := by
  refine performApply_ends (applyStaged_once.mono ?_ fun _ _ _ interruptible => interruptible) ?_
  · exact fun _ _ _ _ => releaseAll_once nofun
  · intro error locals deeds interruptible
    refine (recoverApply_once interruptible).mono (fun _ _ _ _ => releaseAll_once nofun) ?_
    exact fun _ _ _ harmless => releaseAll_once fun _ _ => harmless

end Parts

/-! ## The action runner -/

structure FixedActionDefinition where
  id : String
  strategy : ControlPlane.ChangeStrategy
  executable : Option String

structure ProcessResult where
  exitCode : Option Int
  signal : Option String
  timedOut : Bool
  outputLimitExceeded : Bool

def isHexText (length : Nat) (text : String) : Bool :=
  text.toList.length = length && text.toList.all ControlPlane.isHexDigit

def validBuildIdentity (identity : BuildIdentity) : Bool :=
  isHexText 40 identity.sourceSha && isHexText 64 identity.configDigest &&
    identity.releaseId = identity.sourceSha ++ "-cfg-" ++ identity.configDigest

def isSuccess (result : ProcessResult) : Bool :=
  result.exitCode = some 0 && result.signal.isNone && !result.timedOut &&
    !result.outputLimitExceeded

/-- `fail`. -/
def failAction (code : String) : Except Thrown Unit := .error (.error (some code))

/-- The runner of the manifest's actions. `executed` is a history: the actions of runs for which it
has started a process or a build. -/
structure ActionRunner where
  definitions : List FixedActionDefinition
  buildRedeploy : Bool
  replay : List (String × Except Thrown Unit)
  executed : List (String × String)

/-- How an action ends whose process or build has come to something. -/
def settleProcess (process : Except Thrown ProcessResult) : Except Thrown Unit :=
  match process with
  | .error error => .error error
  | .ok result =>
    if result.timedOut then failAction "ACTION_TIMED_OUT"
    else if result.outputLimitExceeded then failAction "ACTION_OUTPUT_LIMIT"
    else if !isSuccess result then failAction "ACTION_FAILED"
    else .ok ()

/-- The operation of `run`: whether it starts a process or a build, and how it ends. -/
def ActionRunner.operate (runner : ActionRunner) (definition : FixedActionDefinition)
    (buildIdentity : Option BuildIdentity) (process : Except Thrown ProcessResult) :
    Bool × Except Thrown Unit :=
  if definition.strategy = .nextJob ∨ definition.strategy = .noRuntimeAction then (false, .ok ())
  else if definition.id = "release.build_redeploy" then
    if !buildIdentity.any validBuildIdentity then (false, failAction "BUILD_IDENTITY_INVALID")
    else if !runner.buildRedeploy then (false, failAction "ACTION_NOT_ALLOWED")
    else (true, settleProcess process)
  else if (provided definition.executable).isNone then (false, failAction "ACTION_NOT_ALLOWED")
  else (true, settleProcess process)

def replayKey (runId actionId : String) : String := runId ++ "\x00" ++ actionId

def ActionRunner.run (runner : ActionRunner) (runId actionId : String)
    (buildIdentity : Option BuildIdentity) (process : Except Thrown ProcessResult) :
    ActionRunner × Except Thrown Unit :=
  match runner.definitions.find? fun definition => definition.id = actionId with
  | none => (runner, failAction "ACTION_NOT_ALLOWED")
  | some definition =>
    match runner.replay.lookup (replayKey runId actionId) with
    | some existing => (runner, existing)
    | none =>
      let operation := runner.operate definition buildIdentity process
      ({ runner with
          replay := (replayKey runId actionId, operation.2) :: runner.replay
          executed := if operation.1 then runner.executed ++ [(runId, actionId)]
            else runner.executed },
        operation.2)

/-- `runAction`, whose reading of the change and of the build's inputs may throw. -/
def ActionRunner.runAction (runner : ActionRunner) (runId actionId : String)
    (prepared : Except Thrown (Option BuildIdentity)) (process : Except Thrown ProcessResult) :
    ActionRunner × Except Thrown Unit :=
  match prepared with
  | .error error => (runner, .error error)
  | .ok buildIdentity => runner.run runId actionId buildIdentity process

/-- A runner keeps what it has executed, and has executed nothing twice. -/
structure ActionRunner.Replays (runner : ActionRunner) : Prop where
  kept : ∀ action ∈ runner.executed,
    (runner.replay.lookup (replayKey action.1 action.2)).isSome = true
  once : runner.executed.Nodup

/-- Running an action executes it only when nothing is kept under its key. -/
theorem ActionRunner.Replays.run (replays : runner.Replays) (runId actionId : String)
    (buildIdentity : Option BuildIdentity) (process : Except Thrown ProcessResult) :
    (runner.run runId actionId buildIdentity process).1.Replays := by
  unfold ActionRunner.run
  split
  · exact replays
  · split
    · exact replays
    · next fresh =>
      dsimp only
      have kept : ∀ action ∈ runner.executed, ∀ settled,
          (((replayKey runId actionId, settled) :: runner.replay).lookup
            (replayKey action.1 action.2)).isSome = true := by
        intro action member settled
        rw [List.lookup_cons]
        split
        · rfl
        · exact replays.kept action member
      split
      · refine ⟨fun action member => ?_, ?_⟩
        · rcases mem_append.mp member with before | last
          · exact kept action before _
          · rw [mem_singleton.mp last]
            simp
        · refine List.nodup_append.mpr ⟨replays.once, by simp, ?_⟩
          rintro action member _ last rfl
          rw [mem_singleton.mp last] at member
          have known := replays.kept _ member
          rw [fresh] at known
          cases known
      · exact ⟨fun action member => kept action member _, replays.once⟩

theorem ActionRunner.Replays.runAction (replays : runner.Replays) (runId actionId : String)
    (prepared : Except Thrown (Option BuildIdentity)) (process : Except Thrown ProcessResult) :
    (runner.runAction runId actionId prepared process).1.Replays := by
  unfold ActionRunner.runAction
  split
  · exact replays
  · exact replays.run runId actionId _ process

/-! ## The calls of an agent -/

/-- A write of a source by a call of the coordinator. -/
structure WriteEntry where
  call : Nat
  runId : String
  source : SourceWrite

/-- The coordinator and the runner of one agent. `callers` are the calls of `apply` and `resume` with
their run and the call of the coordinator whose result or promise they have; `writes` is a history of
the sources written. -/
structure ApplyRuns where
  coordinator : Coordinator
  runner : ActionRunner
  callers : List (String × Nat)
  writes : List WriteEntry

/-- What an agent has when its process starts. -/
def ApplyRuns.initial (definitions : List FixedActionDefinition) (buildRedeploy : Bool) :
    ApplyRuns :=
  ⟨.initial, ⟨definitions, buildRedeploy, [], []⟩, [], []⟩

/-- What the surroundings of the agent answer a call. -/
structure Surroundings where
  reply : (effect : Effect) → effect.Answer
  prepared : Except Thrown (Option BuildIdentity)
  process : Except Thrown ProcessResult

inductive RunTurn where
  /-- A call of `apply`, or of `resume`, which calls it. -/
  | apply (input : ApplyInput)
  | answer (index : Nat) (surroundings : Surroundings)

variable (runs : ApplyRuns)

/-- What the dependencies of the agent answer. The callback of a failed rollback notes its
application as blocked, which cannot throw. -/
def ApplyRuns.reply (surroundings : Surroundings) : (effect : Effect) → effect.Answer
  | .runAction runId actionId =>
    (runs.runner.runAction runId actionId surroundings.prepared surroundings.process).2
  | .onRollbackFailed _ _ _ _ => (.ok () : Except Thrown Unit)
  | effect => surroundings.reply effect

/-- The runner after a call. -/
def ApplyRuns.runnerAfter (surroundings : Surroundings) : Effect → ActionRunner
  | .runAction runId actionId =>
    (runs.runner.runAction runId actionId surroundings.prepared surroundings.process).1
  | _ => runs.runner

/-- The writes after a call. -/
def writesAfter (writes : List WriteEntry) (index : Nat) (runId : String) : Effect → List WriteEntry
  | .writeSource source => writes ++ [⟨index, runId, source⟩]
  | _ => writes

/-- One turn of the agent's coordinator and runner. -/
def ApplyRuns.step (dependencies : ApplyDependencies) (runs : ApplyRuns) :
    RunTurn → ApplyRuns × Unit
  | .apply input =>
    let holder := runs.coordinator.calls.findIdx fun call =>
      call.input.runId = input.runId && !call.rejected
    ({ runs with
        coordinator := (runs.coordinator.take dependencies (.apply input)).1
        callers := runs.callers ++ [(input.runId, holder)] }, ())
  | .answer index surroundings =>
    match runs.coordinator.calls[index]? with
    | some ⟨input, .call effect _, _⟩ =>
      ({ runs with
          coordinator :=
            (runs.coordinator.take dependencies (.answer index (runs.reply surroundings))).1
          runner := runs.runnerAfter surroundings effect
          writes := writesAfter runs.writes index input.runId effect }, ())
    | _ => (runs, ())

/-- What a caller has got, if its call has returned. -/
def ApplyRuns.result (caller : String × Nat) : Option ApplyCoordinatorResult :=
  match (runs.coordinator.calls[caller.2]?).map Call.program with
  | some (.ret (.ok result)) => some result
  | _ => none

/-! ## What every turn keeps -/

/-- A call of the coordinator has done what its writes say, and would throw only without having
written. -/
def Accounted (writes : List WriteEntry) (index : Nat) (call : Call) : Prop :=
  ∃ deeds, call.program.Ensures deedsMonitor Harmless deeds ∧ deeds.threw = false ∧
    ∀ sourceId, sourceId ∈ deeds.sources ↔
      ∃ entry ∈ writes, entry.call = index ∧ entry.source.sourceId = sourceId

/-- A call of a run that has not thrown is the only such one, every write is that of its call, no
run has written a source twice, and every caller has a call of its run. -/
structure Once (runs : ApplyRuns) : Prop where
  accounted : ∀ (index : Nat) (call : Call), runs.coordinator.calls[index]? = some call →
    Accounted runs.writes index call
  single : ∀ (index other : Nat) (call call' : Call), runs.coordinator.calls[index]? = some call →
    runs.coordinator.calls[other]? = some call' → call.input.runId = call'.input.runId →
    call.rejected = false → call'.rejected = false → index = other
  written : ∀ entry ∈ runs.writes, ∃ call, runs.coordinator.calls[entry.call]? = some call ∧
    call.input.runId = entry.runId
  distinct : runs.writes.Pairwise fun earlier later =>
    earlier.runId = later.runId → earlier.source.sourceId ≠ later.source.sourceId
  held : ∀ caller ∈ runs.callers, ∃ call, runs.coordinator.calls[caller.2]? = some call ∧
    call.input.runId = caller.1
  replays : runs.runner.Replays

/-- A call that has written has not thrown. -/
theorem Accounted.not_rejected {writes : List WriteEntry} {index : Nat} {call : Call}
    (accounted : Accounted writes index call) {entry : WriteEntry} (member : entry ∈ writes)
    (own : entry.call = index) : call.rejected = false := by
  obtain ⟨deeds, ensured, quiet, tells⟩ := accounted
  have wrote : entry.source.sourceId ∈ deeds.sources :=
    (tells entry.source.sourceId).mpr ⟨entry, member, own, rfl⟩
  unfold Call.rejected
  split
  · next error thrown =>
    rw [thrown] at ensured
    rcases ensured error rfl with threw | idle
    · rw [quiet] at threw
      cases threw
    · rw [idle] at wrote
      cases wrote
  · rfl

theorem Call.not_rejected_of_call {input : ApplyInput} {effect : Effect} {phase : Phase}
    {next : effect.Answer → Program Effect Effect.Answer (Except Thrown ApplyCoordinatorResult)} :
    Call.rejected ⟨input, .call effect next, phase⟩ = false := rfl

open ApplyRuns

section Turns

variable {dependencies : ApplyDependencies} {runs : ApplyRuns}

theorem once_initial (definitions : List FixedActionDefinition) (buildRedeploy : Bool) :
    Once (.initial definitions buildRedeploy) where
  accounted := by simp [initial, Coordinator.initial]
  single := by simp [initial, Coordinator.initial]
  written := nofun
  distinct := .nil
  held := nofun
  replays := ⟨nofun, List.nodup_nil⟩

variable {input : ApplyInput}

/-- A caller is given the call that its run has. -/
theorem once_attach (once : Once runs) (known : (runs.coordinator.calls.any fun call =>
      call.input.runId = input.runId && !call.rejected)) :
    Once (runs.step dependencies (.apply input)).1 := by
  have same : (runs.coordinator.take dependencies (.apply input)).1 = runs.coordinator := by
    simp only [Coordinator.take, if_pos known]
  have inside : runs.coordinator.calls.findIdx (fun call =>
      call.input.runId = input.runId && !call.rejected) < runs.coordinator.calls.length :=
    List.findIdx_lt_length.mpr (any_eq_true.mp known)
  have found := List.findIdx_getElem (w := inside)
  unfold step
  dsimp only
  rw [same]
  refine ⟨once.accounted, once.single, once.written, once.distinct, ?_, once.replays⟩
  intro caller member
  rcases mem_append.mp member with before | last
  · exact once.held caller before
  · rw [mem_singleton.mp last]
    refine ⟨_, List.getElem?_eq_getElem inside, ?_⟩
    simp only [Bool.and_eq_true, decide_eq_true_eq] at found
    exact found.1

variable {calls : List Call} {index : Nat} {call : Call} {other : Nat} {effect : Effect}
  {next : effect.Answer → Program Effect Effect.Answer (Except Thrown ApplyCoordinatorResult)}
  {phase : Phase}

/-- A call after one more. -/
theorem getElem?_snoc {added : Call} :
    (calls ++ [added])[index]? = some call ↔
      calls[index]? = some call ∨ index = calls.length ∧ added = call := by
  rcases Nat.lt_trichotomy index calls.length with before | same | after
  · rw [List.getElem?_append_left before]
    refine ⟨.inl, fun found => found.resolve_right fun last => ?_⟩
    omega
  · subst same
    simp
  · rw [List.getElem?_eq_none (by simp; omega), List.getElem?_eq_none (by omega)]
    refine ⟨fun found => (by cases found), ?_⟩
    rintro (found | last)
    · cases found
    · omega

/-- A caller whose run has no call, or whose calls have all thrown, starts one. -/
theorem once_start (once : Once runs)
    (unknown : (runs.coordinator.calls.any fun call =>
      call.input.runId = input.runId && !call.rejected) ≠ true) :
    Once (runs.step dependencies (.apply input)).1 := by
  have calls : (runs.coordinator.take dependencies (.apply input)).1.calls =
      runs.coordinator.calls ++ [⟨input, performApply dependencies input, .reading⟩] := by
    simp only [Coordinator.take, if_neg unknown]
  have outside : runs.coordinator.calls.findIdx (fun call =>
      call.input.runId = input.runId && !call.rejected) = runs.coordinator.calls.length := by
    refine List.findIdx_eq_length.mpr fun call member => ?_
    by_contra hit
    exact unknown (any_eq_true.mpr ⟨call, member, by simpa using hit⟩)
  have thrown : ∀ (index : Nat) (call : Call), runs.coordinator.calls[index]? = some call →
      call.input.runId = input.runId → call.rejected = false → False := by
    intro index call found same active
    refine unknown (any_eq_true.mpr ⟨call, List.mem_of_getElem? found, ?_⟩)
    simp [same, active]
  unfold step
  dsimp only
  rw [outside]
  refine ⟨?_, ?_, ?_, once.distinct, ?_, once.replays⟩
  · dsimp only
    rw [calls]
    intro index call found
    rcases getElem?_snoc.mp found with before | ⟨rfl, rfl⟩
    · exact once.accounted index call before
    · refine ⟨.blank, performApply_harmless, rfl, fun sourceId =>
      ⟨fun wrote => absurd wrote List.not_mem_nil, ?_⟩⟩
      rintro ⟨entry, member, last, -⟩
      obtain ⟨call, found, -⟩ := once.written entry member
      have bound := (List.getElem?_eq_some_iff.mp found).1
      omega
  · dsimp only
    rw [calls]
    intro index other call call' found found' same active active'
    rcases getElem?_snoc.mp found with before | ⟨rfl, rfl⟩
    · rcases getElem?_snoc.mp found' with before' | ⟨rfl, rfl⟩
      · exact once.single index other call call' before before' same active active'
      · exact absurd active fun active => thrown index call before same active
    · rcases getElem?_snoc.mp found' with before' | ⟨rfl, rfl⟩
      · exact absurd active' fun active' => thrown other call' before' same.symm active'
      · rfl
  · dsimp only
    rw [calls]
    intro entry member
    obtain ⟨call, found, same⟩ := once.written entry member
    exact ⟨call, getElem?_snoc.mpr (.inl found), same⟩
  · dsimp only
    rw [calls]
    intro caller member
    rcases mem_append.mp member with before | last
    · obtain ⟨call, found, same⟩ := once.held caller before
      exact ⟨call, getElem?_snoc.mpr (.inl found), same⟩
    · rw [mem_singleton.mp last]
      exact ⟨_, getElem?_snoc.mpr (.inr ⟨rfl, rfl⟩), rfl⟩

/-- A call after one of them has changed. -/
theorem getElem?_replaced {old replaced : Call} (found : calls[index]? = some old) :
    (calls.set index replaced)[other]? = some call ↔
      (other = index ∧ replaced = call) ∨ (other ≠ index ∧ calls[other]? = some call) := by
  have inside := (List.getElem?_eq_some_iff.mp found).1
  by_cases same : index = other
  · subst same
    simp [inside]
  · simp [same, Ne.symm same]

/-- An answered call has done what its writes say. -/
theorem accounted_answer {phase' : Phase} (surroundings : Surroundings)
    (accounted : Accounted runs.writes index ⟨input, .call effect next, phase⟩) :
    Accounted (writesAfter runs.writes index input.runId effect) index
      ⟨input, next (answerOf runs.coordinator.active (runs.reply surroundings) effect), phase'⟩ := by
  obtain ⟨deeds, ensured, quiet, tells⟩ := accounted
  refine ⟨_, ensured.2 _, ?_, ?_⟩
  · cases effect with
    | onRollbackFailed changeId runId snapshotId reasonCode => exact quiet
    | _ => exact quiet
  · cases effect with
    | writeSource source =>
      intro sourceId
      show sourceId ∈ source.sourceId :: deeds.sources ↔ _
      rw [mem_cons, tells]
      constructor
      · rintro (rfl | ⟨entry, member, own, same⟩)
        · exact ⟨_, List.mem_append_right _ List.mem_cons_self, rfl, rfl⟩
        · exact ⟨entry, List.mem_append_left _ member, own, same⟩
      · rintro ⟨entry, member, own, same⟩
        rcases mem_append.mp member with before | last
        · exact .inr ⟨entry, before, own, same⟩
        · rw [mem_singleton.mp last] at same
          exact .inl same.symm
    | onRollbackFailed changeId runId snapshotId reasonCode => exact tells
    | _ => exact tells

/-- The other calls have done what they had. -/
theorem accounted_other {writes : List WriteEntry} (accounted : Accounted writes other call)
    (apart : other ≠ index) (runId : String) (effect : Effect) :
    Accounted (writesAfter writes index runId effect) other call := by
  obtain ⟨deeds, ensured, quiet, tells⟩ := accounted
  refine ⟨deeds, ensured, quiet, fun sourceId => ?_⟩
  rw [tells]
  cases effect with
  | writeSource source =>
    constructor
    · rintro ⟨entry, member, own, same⟩
      exact ⟨entry, List.mem_append_left _ member, own, same⟩
    · rintro ⟨entry, member, own, same⟩
      rcases mem_append.mp member with before | last
      · exact ⟨entry, before, own, same⟩
      · rw [mem_singleton.mp last] at own
        exact absurd own.symm apart
  | _ => exact .rfl

/-- A write that a call waits for is of a source that its run has not written. -/
theorem Once.unwritten (once : Once runs) {source : SourceWrite}
    {next : Effect.Answer (.writeSource source) →
      Program Effect Effect.Answer (Except Thrown ApplyCoordinatorResult)}
    (found : runs.coordinator.calls[index]? = some ⟨input, .call (.writeSource source) next, phase⟩)
    {entry : WriteEntry} (member : entry ∈ runs.writes) (same : entry.runId = input.runId) :
    entry.source.sourceId ≠ source.sourceId := by
  intro again
  obtain ⟨call, its, named⟩ := once.written entry member
  have active := (once.accounted entry.call call its).not_rejected member rfl
  have own : entry.call = index := once.single entry.call index call _ its found
    (named.trans same) active Call.not_rejected_of_call
  obtain ⟨deeds, ensured, -, tells⟩ := once.accounted index _ found
  exact ensured.1 source rfl ((tells source.sourceId).mpr ⟨entry, member, own, again⟩)

/-- The writes stay distinct in each run. -/
theorem Once.distinct_after (once : Once runs)
    (found : runs.coordinator.calls[index]? = some ⟨input, .call effect next, phase⟩) :
    (writesAfter runs.writes index input.runId effect).Pairwise fun earlier later =>
      earlier.runId = later.runId → earlier.source.sourceId ≠ later.source.sourceId := by
  cases effect with
  | writeSource source =>
    refine List.pairwise_append.mpr ⟨once.distinct, List.pairwise_singleton _ _, ?_⟩
    intro entry member last added same
    rw [mem_singleton.mp added] at same ⊢
    exact once.unwritten found member same
  | _ => exact once.distinct

theorem Once.replays_after (once : Once runs) (surroundings : Surroundings) (effect : Effect) :
    (runs.runnerAfter surroundings effect).Replays := by
  cases effect with
  | runAction runId actionId => exact once.replays.runAction runId actionId _ _
  | _ => exact once.replays

/-- Every answer keeps the runs applied once. -/
theorem once_answer (once : Once runs) (index : Nat) (surroundings : Surroundings) :
    Once (runs.step dependencies (.answer index surroundings)).1 := by
  unfold step
  dsimp only
  split
  · next input effect next phase found =>
    obtain ⟨new, calls, same, accounted⟩ : ∃ new : Call,
        (runs.coordinator.take dependencies (.answer index (runs.reply surroundings))).1.calls =
            runs.coordinator.calls.set index new ∧
          new.input = input ∧
          Accounted (writesAfter runs.writes index input.runId effect) index new :=
      ⟨_, by simp only [Coordinator.take, found]; rfl, rfl,
        accounted_answer surroundings (once.accounted index _ found)⟩
    have kept : ∀ {other : Nat} {call : Call}, runs.coordinator.calls[other]? = some call →
        ∃ call', (runs.coordinator.calls.set index new)[other]? = some call' ∧
          call'.input = call.input := by
      intro other call known
      by_cases reached : other = index
      · subst reached
        rw [found] at known
        obtain rfl := Option.some.inj known
        exact ⟨new, (getElem?_replaced found).mpr (.inl ⟨rfl, rfl⟩), same⟩
      · exact ⟨call, (getElem?_replaced found).mpr (.inr ⟨reached, known⟩), rfl⟩
    refine ⟨?_, ?_, ?_, once.distinct_after found, ?_, once.replays_after surroundings effect⟩
    · dsimp only
      rw [calls]
      intro other call known
      rcases (getElem?_replaced found).mp known with ⟨rfl, rfl⟩ | ⟨apart, before⟩
      · exact accounted
      · exact accounted_other (once.accounted other call before) apart input.runId effect
    · dsimp only
      rw [calls]
      -- The call that was answered had not thrown, so it was the only such one of its run.
      have before : ∀ {other : Nat} {call : Call},
          (runs.coordinator.calls.set index new)[other]? = some call → call.rejected = false →
          ∃ old, runs.coordinator.calls[other]? = some old ∧ old.input = call.input ∧
            old.rejected = false := by
        intro other call known active
        rcases (getElem?_replaced found).mp known with ⟨rfl, rfl⟩ | ⟨-, before⟩
        · exact ⟨_, found, same.symm, Call.not_rejected_of_call⟩
        · exact ⟨call, before, rfl, active⟩
      intro one other call call' known known' run active active'
      obtain ⟨old, was, input', running⟩ := before known active
      obtain ⟨old', was', input'', running'⟩ := before known' active'
      rw [← input', ← input''] at run
      exact once.single one other old old' was was' run running running'
    · dsimp only
      rw [calls]
      have old : ∀ entry ∈ runs.writes, ∃ call,
          (runs.coordinator.calls.set index new)[entry.call]? = some call ∧
            call.input.runId = entry.runId := by
        intro entry member
        obtain ⟨call, known, its⟩ := once.written entry member
        obtain ⟨call', known', input'⟩ := kept known
        exact ⟨call', known', input' ▸ its⟩
      cases effect with
      | writeSource source =>
        intro entry member
        rcases mem_append.mp member with before | last
        · exact old entry before
        · rw [mem_singleton.mp last]
          exact ⟨new, (getElem?_replaced found).mpr (.inl ⟨rfl, rfl⟩), same ▸ rfl⟩
      | _ => exact old
    · dsimp only
      rw [calls]
      intro caller member
      obtain ⟨call, known, its⟩ := once.held caller member
      obtain ⟨call', known', input'⟩ := kept known
      exact ⟨call', known', input' ▸ its⟩
  · exact once

/-- Every turn keeps the runs applied once. -/
theorem once_step (runs : ApplyRuns) (turn : RunTurn) (once : Once runs) :
    Once (runs.step dependencies turn).1 := by
  cases turn with
  | apply input =>
    by_cases known : (runs.coordinator.calls.any fun call =>
        call.input.runId = input.runId && !call.rejected) = true
    · exact once_attach once known
    · exact once_start once known
  | answer index surroundings => exact once_answer once index surroundings

end Turns

/-- The calls that have been made of the agent have applied each run once: no run has written a
source twice, no action has been executed twice for a run, and the callers of a run that have got a
result have got the same one. -/
structure AppliedOnce (runs : ApplyRuns) : Prop where
  writes : (runs.writes.map fun entry => (entry.runId, entry.source.sourceId)).Nodup
  actions : runs.runner.executed.Nodup
  results : ∀ caller ∈ runs.callers, ∀ other ∈ runs.callers, caller.1 = other.1 →
    ∀ result result', runs.result caller = some result → runs.result other = some result' →
      result = result'

/-- A caller that has got a result has a call that has not thrown. -/
theorem ApplyRuns.call_of_result {runs : ApplyRuns} {caller : String × Nat}
    {result : ApplyCoordinatorResult} (got : runs.result caller = some result) :
    ∃ call, runs.coordinator.calls[caller.2]? = some call ∧ call.program = .ret (.ok result) ∧
      call.rejected = false := by
  unfold ApplyRuns.result at got
  split at got
  · next value returned =>
    obtain ⟨call, found, program⟩ := Option.map_eq_some_iff.mp returned
    obtain rfl := Option.some.inj got
    refine ⟨call, found, program, ?_⟩
    unfold Call.rejected
    rw [program]
  · cases got

/-- In every interleaving and repetition of calls of `apply` and `resume` in one agent, whatever its
surroundings answer, each run is applied once. -/
theorem applied_once (dependencies : ApplyDependencies) (definitions : List FixedActionDefinition)
    (buildRedeploy : Bool) (turns : List RunTurn) :
    AppliedOnce (Machine.after (ApplyRuns.step dependencies)
      (.initial definitions buildRedeploy) turns) := by
  have kept : ∀ runs turn, Once runs → Once (runs.step dependencies turn).1 := once_step
  have once := Machine.invariant_after kept (once_initial definitions buildRedeploy) turns
  refine ⟨?_, once.replays.once, ?_⟩
  · refine List.pairwise_map.mpr (once.distinct.imp fun apart same => ?_)
    obtain ⟨run, source⟩ := Prod.mk.inj same
    exact apart run source
  · intro caller member other member' same result result' got got'
    obtain ⟨call, found, program, active⟩ := call_of_result got
    obtain ⟨call', found', program', active'⟩ := call_of_result got'
    obtain ⟨held, its, named⟩ := once.held caller member
    obtain ⟨held', its', named'⟩ := once.held other member'
    rw [found] at its
    rw [found'] at its'
    obtain rfl := Option.some.inj its
    obtain rfl := Option.some.inj its'
    have one := once.single _ _ call call' found found' (named.trans (same.trans named'.symm))
      active active'
    rw [one, found'] at found
    obtain rfl := Option.some.inj found
    rw [program] at program'
    cases program'
    rfl

end NancyMan.Agent
