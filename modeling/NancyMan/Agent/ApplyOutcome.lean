import NancyMan.Agent.ApplyParts

/-!
# What the outcome of an apply says

A ledger notes what the calls of a run have done to the sources. The outcome of a run is truthful
when it agrees with its ledger. It is, whatever fails, except where the event of the completion or
of the start of the rollback is not recorded after a source was written: then the rollback is given
up before it restores anything.
-/
namespace NancyMan.Agent

open Async

/-- What the calls of a run have done. -/
structure Ledger where
  staged : Option StagedChangePayload
  captured : Option SnapshotPayload
  /-- The writes that succeeded. -/
  written : List SourceWrite
  /-- A write was tried since the captured snapshot was last restored. -/
  dirty : Bool
  /-- The health checks of the written sources passed. -/
  healthy : Bool
  /-- A restoration was tried. -/
  restoreTried : Bool
  /-- The event of the completion or of the start of the rollback failed after a write. -/
  unrecorded : Bool

def isDeciding (state : ApplyState) : Bool := state = .completed || state = .rollingBack

/-- The ledger after an event that was not recorded. -/
def Ledger.miss (ledger : Ledger) (state : ApplyState) : Ledger :=
  { ledger with
    unrecorded := ledger.unrecorded || (isDeciding state && !ledger.written.isEmpty) }

/-- The ledger after an answered call. -/
def Ledger.observe (ledger : Ledger) : (effect : Effect) → effect.Answer → Ledger
  | .readStaged _, answer =>
    match (answer : Except Thrown (Option StagedChangePayload)) with
    | .ok staged => { ledger with staged := staged }
    | .error _ => ledger
  | .captureSnapshot _ _, answer =>
    match (answer : Except Thrown SnapshotPayload) with
    | .ok snapshot => { ledger with captured := some snapshot }
    | .error _ => ledger
  | .writeSource source, answer =>
    match (answer : Except Thrown Unit) with
    | .ok _ => { ledger with written := ledger.written ++ [source], dirty := true }
    | .error _ => { ledger with dirty := true }
  | .runHealth _ _, answer =>
    match (answer : Except Thrown Bool) with
    | .ok passed => { ledger with healthy := passed }
    | .error _ => ledger
  | .restoreSnapshot _ _ snapshot, answer =>
    match (answer : Except Thrown Unit) with
    | .ok _ =>
      { ledger with
        restoreTried := true
        dirty := ledger.dirty && !decide (ledger.captured = some snapshot) }
    | .error _ => { ledger with restoreTried := true }
  | .persistEvent event, answer =>
    match (answer : Except Thrown Unit) with
    | .ok _ => ledger
    | .error _ => ledger.miss event.state
  | _, _ => ledger

def Ledger.blank : Ledger := ⟨none, none, [], false, false, false, false⟩

def ledgerOf (trace : List ((effect : Effect) × effect.Answer)) : Ledger :=
  trace.foldl (fun ledger call => ledger.observe call.1 call.2) .blank

/-- A run's outcome agrees with what its calls have done: a completed run has written every source
of its change and its health checks passed, a rolled-back run leaves no source as it wrote it, and
a run that wrote a source and did not complete has tried to restore the sources. -/
structure Truthful (ledger : Ledger) (outcome : Except Thrown ApplyCoordinatorResult) : Prop where
  completed : ∀ result, outcome = .ok result → result.outcome = .completed →
    ledger.healthy = true ∧ ∃ change, ledger.staged = some change ∧
      sourceOperations change = .ok ledger.written
  rolledBack : ∀ result, outcome = .ok result → result.outcome = .rolledBack →
    ledger.dirty = false
  restored : ledger.written ≠ [] →
    (∀ result, outcome = .ok result → result.outcome ≠ .completed) → ledger.restoreTried = true

/-- The monitor that keeps the ledger and permits every call. -/
def ledgerMonitor : Monitor Effect Effect.Answer Ledger where
  permits _ _ := True
  observe := Ledger.observe

/-- What a part of `performApply` ensures of the ledger. -/
abbrev Keeps {α : Type} (action : Apply α) (post : α → ApplyLocals → Ledger → Prop)
    (fails : Thrown → ApplyLocals → Ledger → Prop) (locals : ApplyLocals) (ledger : Ledger) :
    Prop :=
  Async.Ensures ledgerMonitor action post fails locals ledger

/-! ## Calls and events -/

section Rules

variable {locals : ApplyLocals} {ledger : Ledger}

theorem not_terminal_of_mem {state next : ApplyState} (allowed : next ∈ transitions state) :
    isTerminal state = false := by
  cases state <;> first | rfl | cases allowed

variable {changeId runId reasonCode : String} {next : ApplyState} {machine : ApplyStateMachine}
  {post : Unit → ApplyLocals → Ledger → Prop} {fails : Thrown → ApplyLocals → Ledger → Prop}

/-- A run that may pass to a state makes its event, which is recorded or not. -/
theorem keeps_emit (held : locals.machine = some machine) (recorded : Recorded runId machine)
    (allowed : next ∈ transitions machine.current)
    (kept : post () { locals with machine := some (machine.advance runId next) } ledger)
    (missed : ∀ error, fails error { locals with machine := some (machine.advance runId next) }
      (ledger.miss next)) :
    Keeps (emit changeId runId next reasonCode) post fails locals ledger := by
  have moves : transition machine next (applyEventId runId next (machine.sequence + 1)) =
      .ok (machine.advance runId next) := by
    rw [transition_next recorded, not_terminal_of_mem allowed, List.contains_iff_mem.mpr allowed]
    rfl
  refine ensures_bind (ensures_locals ?_)
  rw [held]
  dsimp only
  rw [moves]
  refine ensures_bind (ensures_assign (ensures_attempt (ensures_perform trivial ?_)))
  rintro (error | recorded)
  · exact missed error
  · exact kept

/-- A run that may not pass to a state throws. -/
theorem keeps_emit_refused (held : locals.machine = some machine)
    (recorded : Recorded runId machine) (refused : next ∉ transitions machine.current)
    (thrown : ∀ error, fails error locals ledger) :
    Keeps (emit changeId runId next reasonCode) post fails locals ledger := by
  have stuck : ∃ code, transition machine next (applyEventId runId next (machine.sequence + 1)) =
      .error code := by
    rw [transition_next recorded]
    split
    · exact ⟨_, rfl⟩
    · rw [if_neg fun allowed => refused (List.contains_iff_mem.mp allowed)]
      exact ⟨_, rfl⟩
  obtain ⟨code, stuck⟩ := stuck
  refine ensures_bind (ensures_locals ?_)
  rw [held]
  dsimp only
  rw [stuck]
  exact ensures_throw (thrown _)

end Rules

/-! ## A run before it fails -/

def isAdvancing (state : ApplyState) : Bool := (transitions state).contains .rollingBack

theorem miss_of_advancing {state : ApplyState} (advancing : isAdvancing state) (ledger : Ledger) :
    ledger.miss state = ledger := by
  cases state <;> first | (simp [Ledger.miss, isDeciding]; done) | cases advancing

/-- A run has written nothing. -/
structure Untouched (ledger : Ledger) : Prop where
  unwritten : ledger.written = []
  clean : ledger.dirty = false

def Idle (locals : ApplyLocals) (ledger : Ledger) : Prop :=
  locals.snapshot = none ∨ locals.writeStarted = false → Untouched ledger

variable (input : ApplyInput) (change : StagedChangePayload)

/-- What stands while a run of an admitted change goes on. -/
structure Running (state : ApplyState) (locals : ApplyLocals) (ledger : Ledger) : Prop where
  held : locals.change = some change
  staged : ledger.staged = some change
  machine : ∃ machine, locals.machine = some machine ∧ Recorded input.runId machine ∧
    machine.current = state
  snapshot : locals.snapshot = ledger.captured
  idle : Idle locals ledger
  untried : ledger.restoreTried = false
  recorded : ledger.unrecorded = false

/-- What stands when the run of an admitted change fails: a run that has begun to write has its
snapshot, and a run whose completion was not recorded is the only one that cannot roll back. -/
structure Interrupted (locals : ApplyLocals) (ledger : Ledger) : Prop where
  held : locals.change = some change
  snapshot : locals.snapshot = ledger.captured
  untried : ledger.restoreTried = false
  idle : Idle locals ledger
  unstarted : locals.machine = none → Untouched ledger ∧ ledger.unrecorded = false
  machine : ∀ machine, locals.machine = some machine → Recorded input.runId machine ∧
    (isAdvancing machine.current = true ∧ ledger.unrecorded = false ∨
      machine.current = .completed ∧ ledger.unrecorded = !ledger.written.isEmpty)

section Advance

variable {input change} {state : ApplyState} {locals : ApplyLocals} {ledger : Ledger}
  (running : Running input change state locals ledger)

include running

/-- A run that fails in a state from which it may roll back. -/
theorem Running.interrupted (advancing : isAdvancing state) :
    Interrupted input change locals ledger where
  held := running.held
  snapshot := running.snapshot
  untried := running.untried
  idle := running.idle
  unstarted := by
    intro missing
    obtain ⟨machine, found, -⟩ := running.machine
    rw [missing] at found
    cases found
  machine := by
    intro machine found
    obtain ⟨other, same, recorded, current⟩ := running.machine
    cases found.symm.trans same
    exact ⟨recorded, .inl ⟨current ▸ advancing, running.recorded⟩⟩

/-- A run passes to a next state. -/
theorem Running.advance (next : ApplyState)
    {machine : ApplyStateMachine} (found : locals.machine = some machine) :
    Running input change next { locals with machine := some (machine.advance input.runId next) }
      ledger where
  held := running.held
  staged := running.staged
  machine := by
    obtain ⟨other, same, recorded, -⟩ := running.machine
    cases found.symm.trans same
    exact ⟨_, rfl, recorded.advance next, rfl⟩
  snapshot := running.snapshot
  idle := running.idle
  untried := running.untried
  recorded := running.recorded

/-- A run makes the event of a state from which it may still roll back. -/
theorem Running.keeps_emit {reasonCode : String} (next : ApplyState)
    (allowed : next ∈ transitions state) (advancing : isAdvancing next) :
    Keeps (emit change.changeId input.runId next reasonCode)
      (fun _ locals' ledger' => Running input change next locals' ledger' ∧
        locals'.snapshot = locals.snapshot ∧ ledger = ledger')
      (fun _ => Interrupted input change) locals ledger := by
  obtain ⟨machine, found, recorded, current⟩ := running.machine
  subst current
  refine Agent.keeps_emit found recorded allowed ⟨running.advance next found, rfl, rfl⟩ fun error => ?_
  rw [miss_of_advancing advancing]
  exact (running.advance next found).interrupted advancing

omit running

end Advance

/-! ## Parts that the ledger does not note -/

/-- A part that leaves the ledger, and the local variables but for the releases. -/
def Quiet {α : Type} (action : Apply α) : Prop :=
  ∀ locals ledger, Keeps action
    (fun _ locals' ledger' => (∃ releases, locals' = { locals with releases := releases }) ∧
      ledger' = ledger)
    (fun _ locals' ledger' => (∃ releases, locals' = { locals with releases := releases }) ∧
      ledger' = ledger) locals ledger

theorem quiet_pure {α : Type} (value : α) : Quiet (pure value : Apply α) :=
  fun locals _ => ensures_pure ⟨⟨locals.releases, rfl⟩, rfl⟩

/-- A call that the ledger does not note is quiet. -/
theorem quiet_attempt {α : Type} {action : Apply (Except Thrown α)}
    (unnoted : ∀ locals ledger, Keeps action
      (fun _ locals' ledger' => locals' = locals ∧ ledger' = ledger) (fun _ _ _ => False) locals
      ledger) : Quiet (attempt action) := by
  intro locals ledger
  refine ensures_attempt ((unnoted locals ledger).mono ?_ fun _ _ _ never => never.elim)
  rintro (error | value) locals' ledger' ⟨rfl, rfl⟩
  · exact ⟨⟨_, rfl⟩, rfl⟩
  · exact ⟨⟨_, rfl⟩, rfl⟩

theorem quiet_acquire (lock : Lock) : Quiet (acquire lock) := by
  intro locals ledger
  refine ensures_bind (ensures_attempt (ensures_perform trivial ?_))
  rintro (error | acquired)
  · exact ⟨⟨locals.releases, rfl⟩, rfl⟩
  · exact ensures_assign ⟨⟨_, rfl⟩, rfl⟩

theorem quiet_whenever (present : Bool) {action : Apply Unit} (quiet : Quiet action) :
    Quiet (whenever present action) := by
  cases present with
  | true => exact quiet
  | false => exact quiet_pure ()

theorem quiet_ignoring {action : Apply Unit} (quiet : Quiet action) : Quiet (ignoring action) := by
  intro locals ledger
  refine ensures_tryCatch ((quiet locals ledger).mono (fun _ _ _ kept => kept) ?_)
  exact fun _ _ _ kept => ensures_pure kept

/-- A loop of quiet parts is quiet. -/
theorem quiet_forM {β : Type} (items : List β) {body : β → Apply Unit}
    (quiet : ∀ item, Quiet (body item)) : Quiet (items.forM body) := by
  intro locals ledger
  refine (ensures_forM (fun _ locals' ledger' =>
    (∃ releases, locals' = { locals with releases := releases }) ∧ ledger' = ledger) ?_
    ⟨⟨locals.releases, rfl⟩, rfl⟩).mono (fun _ _ _ kept => kept) fun _ _ _ kept => kept
  rintro item rest current noted ⟨⟨releases, rfl⟩, rfl⟩
  refine (quiet item _ _).mono ?_ ?_
  · rintro value locals' ledger' ⟨⟨others, rfl⟩, rfl⟩
    exact ⟨⟨others, rfl⟩, rfl⟩
  · rintro error locals' ledger' ⟨⟨others, rfl⟩, rfl⟩
    exact ⟨⟨others, rfl⟩, rfl⟩

/-- A quiet part keeps what does not depend on the releases. -/
theorem Quiet.keeps {α : Type} {action : Apply α} (quiet : Quiet action)
    {holds : ApplyLocals → Ledger → Prop} {locals : ApplyLocals} {ledger : Ledger}
    (held : ∀ releases, holds { locals with releases := releases } ledger) :
    Keeps action (fun _ => holds) (fun _ => holds) locals ledger := by
  refine (quiet locals ledger).mono ?_ ?_
  · rintro value locals' ledger' ⟨⟨releases, rfl⟩, rfl⟩
    exact held releases
  · rintro error locals' ledger' ⟨⟨releases, rfl⟩, rfl⟩
    exact held releases

/-- A quiet part goes on with what does not depend on the releases. -/
theorem keeps_bind_quiet {α β : Type} {action : Apply α} {rest : α → Apply β} (quiet : Quiet action)
    (holds : ApplyLocals → Ledger → Prop) {post : β → ApplyLocals → Ledger → Prop}
    {fails : Thrown → ApplyLocals → Ledger → Prop} {locals : ApplyLocals} {ledger : Ledger}
    (held : ∀ releases, holds { locals with releases := releases } ledger)
    (next : ∀ value locals' ledger', holds locals' ledger' →
      Keeps (rest value) post fails locals' ledger')
    (broken : ∀ error locals' ledger', holds locals' ledger' → fails error locals' ledger') :
    Keeps (action >>= rest) post fails locals ledger :=
  ensures_bind ((quiet.keeps held).mono next broken)

/-! ## The parts of a run -/

section Parts

variable (input : ApplyInput) (change : StagedChangePayload)

/-- What stands when a change is admitted, before and after its run has a machine. -/
structure Admitted (started : Bool) (locals : ApplyLocals) (ledger : Ledger) : Prop where
  held : locals.change = some change
  staged : ledger.staged = some change
  machine : locals.machine = if started then some (createApplyStateMachine .applying) else none
  snapshot : locals.snapshot = none
  captured : ledger.captured = none
  unwritten : locals.writeStarted = false
  untouched : Untouched ledger
  untried : ledger.restoreTried = false
  recorded : ledger.unrecorded = false

variable {input change} {dependencies : ApplyDependencies} {locals : ApplyLocals} {ledger : Ledger}

/-- A run that fails before it has a snapshot. -/
theorem Admitted.interrupted {started : Bool} (admitted : Admitted change started locals ledger) :
    Interrupted input change locals ledger where
  held := admitted.held
  snapshot := admitted.snapshot.trans admitted.captured.symm
  untried := admitted.untried
  idle := fun _ => admitted.untouched
  unstarted := fun _ => ⟨admitted.untouched, admitted.recorded⟩
  machine := by
    intro machine found
    rw [admitted.machine] at found
    cases started with
    | false => cases found
    | true =>
      cases found
      exact ⟨recorded_create _ _, .inl ⟨rfl, admitted.recorded⟩⟩

theorem Admitted.release {started : Bool} (admitted : Admitted change started locals ledger)
    (releases : List Lock) :
    Admitted change started { locals with releases := releases } ledger :=
  ⟨admitted.held, admitted.staged, admitted.machine, admitted.snapshot, admitted.captured,
    admitted.unwritten, admitted.untouched, admitted.untried, admitted.recorded⟩

theorem Running.release {state : ApplyState} (running : Running input change state locals ledger)
    (releases : List Lock) :
    Running input change state { locals with releases := releases } ledger :=
  ⟨running.held, running.staged, running.machine, running.snapshot, running.idle, running.untried,
    running.recorded⟩

theorem quiet_storeSnapshot {snapshot : SnapshotPayload} :
    Quiet (storeSnapshot dependencies input change snapshot) := by
  unfold storeSnapshot
  split
  · exact quiet_attempt fun _ _ => ensures_perform trivial fun _ => ⟨rfl, rfl⟩
  · exact quiet_whenever _ (quiet_attempt fun _ _ => ensures_perform trivial fun _ => ⟨rfl, rfl⟩)

/-- An admitted change ends with a recorded snapshot, or fails before anything is written. -/
theorem recordSnapshot_keeps (admitted : Admitted change false locals ledger) :
    Keeps (recordSnapshot dependencies input change)
      (fun _ locals ledger => Running input change .snapshotted locals ledger ∧
        locals.snapshot.isSome ∧ Untouched ledger)
      (fun _ => Interrupted input change) locals ledger := by
  have locked := fun (lock : Lock) => quiet_acquire lock
  refine keeps_bind_quiet (quiet_whenever _ (locked _)) (Admitted change false) admitted.release ?_
    fun _ _ _ admitted => admitted.interrupted
  intro _ locals ledger admitted
  refine ensures_bind (ensures_assign ?_)
  have started : Admitted change true
      { locals with machine := some (createApplyStateMachine .applying) } ledger :=
    ⟨admitted.held, admitted.staged, rfl, admitted.snapshot, admitted.captured, admitted.unwritten,
      admitted.untouched, admitted.untried, admitted.recorded⟩
  refine ensures_bind (ensures_attempt (ensures_perform trivial ?_))
  rintro (error | recorded)
  · have same : ledger.miss .applying = ledger := miss_of_advancing rfl ledger
    show Interrupted input change _ (ledger.miss .applying)
    rw [same]
    exact started.interrupted
  refine keeps_bind_quiet (quiet_whenever _ (quiet_forM _ fun _ => locked _))
    (Admitted change true) started.release ?_
    fun _ _ _ admitted => admitted.interrupted
  intro _ locals ledger admitted
  refine keeps_bind_quiet (quiet_whenever _ (quiet_forM _ fun _ => locked _))
    (Admitted change true) admitted.release ?_
    fun _ _ _ admitted => admitted.interrupted
  intro _ locals ledger admitted
  refine ensures_bind (ensures_attempt (ensures_perform trivial ?_))
  rintro (error | snapshot)
  · exact admitted.interrupted
  refine ensures_bind (ensures_assign ?_)
  have captured : Running input change .applying { locals with snapshot := some snapshot }
      { ledger with captured := some snapshot } :=
    { held := admitted.held
      staged := admitted.staged
      machine := ⟨_, admitted.machine, recorded_create _ _, rfl⟩
      snapshot := rfl
      idle := fun _ => ⟨admitted.untouched.unwritten, admitted.untouched.clean⟩
      untried := admitted.untried
      recorded := admitted.recorded }
  refine keeps_bind_quiet quiet_storeSnapshot (fun locals ledger =>
      Running input change .applying locals ledger ∧ locals.snapshot.isSome = true ∧
        Untouched ledger)
    (fun releases => ⟨captured.release releases, rfl, admitted.untouched.unwritten,
      admitted.untouched.clean⟩) ?_ fun _ _ _ held => held.1.interrupted rfl
  rintro _ locals ledger ⟨running, present, untouched⟩
  refine (running.keeps_emit .snapshotted (by decide) rfl).mono ?_ fun _ _ _ broken => broken
  rintro _ locals' ledger' ⟨moved, kept, rfl⟩
  exact ⟨moved, kept ▸ present, untouched⟩

variable (running : Running input change .snapshotted locals ledger)

include running

/-- A loop of writes adds each source to those written, or fails with its snapshot at hand. -/
theorem writeEach_keeps {sources : List SourceWrite} (present : locals.snapshot.isSome)
    (unwritten : ledger.written = []) :
    Keeps (sources.forM fun source => do
        assign fun locals => { locals with writeStarted := true }
        attempt (perform (Effect.writeSource source)))
      (fun _ locals ledger => Running input change .snapshotted locals ledger ∧
        ledger.written = sources)
      (fun _ => Interrupted input change) locals ledger := by
  refine (ensures_forM (fun left locals ledger =>
    Running input change .snapshotted locals ledger ∧ locals.snapshot.isSome = true ∧
      ledger.written ++ left = sources) ?_ ⟨running, present, by rw [unwritten]; rfl⟩).mono ?_
    fun _ _ _ broken => broken
  · rintro source left locals ledger ⟨running, present, split⟩
    have begun (ledger' : Ledger) (staged : ledger'.staged = ledger.staged)
        (captured : ledger'.captured = ledger.captured)
        (untried : ledger'.restoreTried = ledger.restoreTried)
        (recorded : ledger'.unrecorded = ledger.unrecorded) :
        Running input change .snapshotted { locals with writeStarted := true } ledger' :=
      { held := running.held
        staged := staged.trans running.staged
        machine := running.machine
        snapshot := running.snapshot.trans captured.symm
        idle := by
          rintro (missing | unstarted)
          · rw [missing] at present
            cases present
          · cases unstarted
        untried := untried.trans running.untried
        recorded := recorded.trans running.recorded }
    refine ensures_bind (ensures_assign (ensures_attempt (ensures_perform trivial ?_)))
    rintro (error | done)
    · exact (begun { ledger with dirty := true } rfl rfl rfl rfl).interrupted rfl
    · exact ⟨begun { ledger with written := ledger.written ++ [source], dirty := true } rfl rfl
        rfl rfl, present, (List.append_assoc ..).trans split⟩
  · rintro _ locals ledger ⟨running, -, split⟩
    exact ⟨running, (List.append_nil _).symm.trans split⟩

/-- Writing ends with every source of the change written. -/
theorem writeSources_keeps (present : locals.snapshot.isSome) (unwritten : ledger.written = []) :
    Keeps (writeSources change)
      (fun _ locals ledger => Running input change .snapshotted locals ledger ∧
        sourceOperations change = .ok ledger.written)
      (fun _ => Interrupted input change) locals ledger := by
  unfold writeSources
  split
  · exact ensures_throw (running.interrupted rfl)
  · next sources found =>
    refine (writeEach_keeps running present unwritten).mono ?_ fun _ _ _ broken => broken
    rintro _ locals ledger ⟨running, written⟩
    exact ⟨running, written ▸ found⟩

/-- A run whose sources are written completes after healthy checks and a recorded completion. -/
theorem activate_keeps (written : sourceOperations change = .ok ledger.written) :
    Keeps (activate input change)
      (fun result _ ledger => result.outcome = .completed ∧ ledger.healthy ∧
        ledger.staged = some change ∧ sourceOperations change = .ok ledger.written ∧
        ledger.unrecorded = false)
      (fun _ => Interrupted input change) locals ledger := by
  refine ensures_bind ((running.keeps_emit .written (by decide) rfl).mono ?_
    fun _ _ _ broken => broken)
  rintro _ locals _ ⟨changed, -, rfl⟩
  refine ensures_bind ((changed.keeps_emit .actionRunning (by decide) rfl).mono ?_
    fun _ _ _ broken => broken)
  rintro _ locals _ ⟨acting, -, rfl⟩
  have acts : Quiet (change.actionIds.forM fun actionId =>
      (attempt (perform (Effect.runAction input.runId actionId)) : Apply Unit)) :=
    quiet_forM _ fun _ => quiet_attempt fun _ _ => ensures_perform trivial fun _ => ⟨rfl, rfl⟩
  refine keeps_bind_quiet acts (fun locals ledger =>
      Running input change .actionRunning locals ledger ∧
        sourceOperations change = .ok ledger.written)
    (fun releases => ⟨acting.release releases, written⟩) ?_
    fun _ _ _ held => held.1.interrupted rfl
  rintro _ locals ledger ⟨acted, written⟩
  refine ensures_bind ((acted.keeps_emit .healthChecking (by decide) rfl).mono ?_
    fun _ _ _ broken => broken)
  rintro _ locals _ ⟨checking, -, rfl⟩
  refine ensures_bind (ensures_attempt (ensures_perform trivial ?_))
  rintro (error | passed)
  · exact checking.interrupted rfl
  have checked : Running input change .healthChecking locals { ledger with healthy := passed } :=
    { held := checking.held
      staged := checking.staged
      machine := checking.machine
      snapshot := checking.snapshot
      idle := fun idle => ⟨(checking.idle idle).unwritten, (checking.idle idle).clean⟩
      untried := checking.untried
      recorded := checking.recorded }
  show Keeps _ _ _ locals { ledger with healthy := passed }
  refine ensures_bind (ensures_require (fun healthy => ?_) fun _ => checked.interrupted rfl)
  obtain ⟨machine, found, recorded, current⟩ := checked.machine
  refine ensures_bind (keeps_emit found recorded (by rw [current]; decide) ?_ fun error => ?_)
  · exact ensures_pure ⟨rfl, healthy, checked.staged, written, checked.recorded⟩
  · have moved := checked.advance .completed found
    exact
      { held := moved.held
        snapshot := moved.snapshot
        untried := moved.untried
        idle := fun idle => ⟨(checked.idle idle).unwritten, (checked.idle idle).clean⟩
        unstarted := fun missing => nomatch missing
        machine := by
          rintro other same
          cases same
          refine ⟨recorded.advance .completed, .inr ⟨rfl, ?_⟩⟩
          have clear : ledger.unrecorded = false := checked.recorded
          simp [Ledger.miss, isDeciding, clear] }

omit running

end Parts

/-! ## Rolling back -/

section Rollback

variable (input : ApplyInput)

def Tracked (locals : ApplyLocals) : Prop :=
  ∃ machine, locals.machine = some machine ∧ Recorded input.runId machine

def Settled (ledger : Ledger) : Prop :=
  (ledger.written ≠ [] → ledger.restoreTried = true) ↔ ledger.unrecorded = false

def Accounts (outcome : Except Thrown ApplyCoordinatorResult) (ledger : Ledger) : Prop :=
  Truthful ledger outcome ↔ ledger.unrecorded = false

variable {input} {change : StagedChangePayload} {dependencies : ApplyDependencies}
  {locals : ApplyLocals} {ledger : Ledger}

/-- Outcomes that claim neither a completion nor a rollback are truthful when written sources
were tried to be restored. -/
theorem accounts_of_settled {outcome : Except Thrown ApplyCoordinatorResult}
    (modest : ∀ result, outcome = .ok result → result.outcome = .rollbackFailed)
    (settled : Settled ledger) : Accounts outcome ledger := by
  refine Iff.trans ⟨fun truthful wrote => truthful.restored wrote ?_, fun restored => ?_⟩ settled
  · intro result same
    rw [modest result same]
    exact ApplyOutcome.noConfusion
  · refine ⟨fun result same done => ?_, fun result same done => ?_, fun wrote _ => restored wrote⟩
    · rw [modest result same] at done
      cases done
    · rw [modest result same] at done
      cases done

theorem settled_of_untouched (untouched : Untouched ledger) (recorded : ledger.unrecorded = false) :
    Settled ledger :=
  ⟨fun _ => recorded, fun _ wrote => absurd untouched.unwritten wrote⟩

theorem settled_of_untried (untried : ledger.restoreTried = false)
    (missed : ledger.unrecorded = !ledger.written.isEmpty) : Settled ledger := by
  rw [Settled, untried, missed]
  cases ledger.written <;> simp

/-- An interrupted run that has written nothing has missed nothing. -/
theorem Interrupted.recorded (interrupted : Interrupted input change locals ledger)
    (untouched : Untouched ledger) : ledger.unrecorded = false := by
  cases found : locals.machine with
  | none => exact (interrupted.unstarted found).2
  | some machine =>
    rcases (interrupted.machine machine found).2 with ⟨-, recorded⟩ | ⟨-, missed⟩
    · exact recorded
    · rw [missed, untouched.unwritten]
      rfl

/-- An event that decides nothing, or comes before any write, leaves the ledger. -/
theorem emit_tracked {changeId reasonCode : String} {next : ApplyState} (tracked : Tracked input locals)
    (harmless : isDeciding next = false ∨ ledger.written = []) :
    Keeps (emit changeId input.runId next reasonCode)
      (fun _ locals' ledger' => Tracked input locals' ∧ ledger = ledger')
      (fun _ locals' ledger' => Tracked input locals' ∧ ledger = ledger') locals ledger := by
  obtain ⟨machine, found, recorded⟩ := tracked
  have same : ledger.miss next = ledger := by
    rcases harmless with undeciding | unwritten
    · simp [Ledger.miss, undeciding]
    · rw [Ledger.miss, unwritten, List.isEmpty_nil, Bool.not_true, Bool.and_false,
        Bool.or_false, ← unwritten]
  by_cases allowed : next ∈ transitions machine.current
  · refine keeps_emit found recorded allowed ⟨⟨_, rfl, recorded.advance next⟩, rfl⟩ fun error => ?_
    rw [same]
    exact ⟨⟨_, rfl, recorded.advance next⟩, rfl⟩
  · exact keeps_emit_refused found recorded allowed fun _ => ⟨⟨machine, found, recorded⟩, rfl⟩

/-- A failed rollback is reported without a further claim. -/
theorem reportRollbackFailed_keeps (tracked : Tracked input locals) (settled : Settled ledger) :
    Keeps (reportRollbackFailed dependencies input change)
      (fun result _ => Accounts (.ok result)) (fun error _ => Accounts (.error error)) locals
      ledger := by
  have marked : Keeps (ignoring (emit change.changeId input.runId .rollbackFailed "ROLLBACK_FAILED"))
      (fun _ _ ledger' => ledger = ledger') (fun _ _ _ => False) locals ledger := by
    refine ensures_tryCatch ((emit_tracked tracked (.inl rfl)).mono ?_ ?_)
    · rintro _ locals' ledger' ⟨-, same⟩
      exact same
    · rintro _ locals' ledger' ⟨-, same⟩
      exact ensures_pure same
  refine ensures_bind (marked.mono ?_ fun _ _ _ never => never.elim)
  rintro _ locals' _ rfl
  have called : Quiet (whenever dependencies.onRollbackFailed
      (attempt (perform (Effect.onRollbackFailed change.changeId input.runId (snapshotIdOf input)
        "ROLLBACK_FAILED")))) :=
    quiet_whenever _ (quiet_attempt fun _ _ => ensures_perform trivial fun _ => ⟨rfl, rfl⟩)
  refine keeps_bind_quiet called (fun _ => Settled) (fun _ => settled) ?_ ?_
  · intro _ _ ledger' settled'
    refine ensures_pure (accounts_of_settled ?_ settled')
    rintro _ ⟨⟩
    rfl
  · intro error _ ledger' settled'
    exact accounts_of_settled (fun _ same => nomatch same) settled'

/-- A run that has written nothing ends rolled back, or leaves its ledger. -/
theorem rollBackNothing_keeps (tracked : Tracked input locals) (untouched : Untouched ledger) :
    Keeps (rollBackNothing input change)
      (fun result _ ledger' => result.outcome = .rolledBack ∧ ledger = ledger')
      (fun _ locals' ledger' => Tracked input locals' ∧ ledger = ledger') locals ledger := by
  refine ensures_bind ((emit_tracked tracked (.inr untouched.unwritten)).mono ?_
    fun _ _ _ broken => broken)
  rintro _ locals _ ⟨tracked, rfl⟩
  refine ensures_bind ((emit_tracked tracked (.inr untouched.unwritten)).mono ?_
    fun _ _ _ broken => broken)
  rintro _ locals _ ⟨-, rfl⟩
  exact ensures_pure ⟨rfl, rfl⟩

theorem quiet_checkRollback : Quiet (checkRollback dependencies input change) := by
  unfold checkRollback
  split
  · exact quiet_attempt fun _ _ => ensures_perform trivial fun _ => ⟨rfl, rfl⟩
  · exact quiet_pure true

/-- What a restoration leaves. -/
structure Restored (ledger : Ledger) : Prop where
  clean : ledger.dirty = false
  tried : ledger.restoreTried = true
  recorded : ledger.unrecorded = false

theorem Restored.settled (restored : Restored ledger) : Settled ledger :=
  ⟨fun _ => restored.recorded, fun _ _ => restored.tried⟩

/-- A rollback ends with the sources restored, or fails settled. -/
theorem rollBack_keeps {snapshot : SnapshotPayload}
    (interrupted : Interrupted input change locals ledger)
    (present : locals.snapshot = some snapshot) (tracked : Tracked input locals) :
    Keeps (rollBack dependencies input change snapshot)
      (fun result _ ledger' => result.outcome = .rolledBack ∧ Restored ledger')
      (fun _ locals' ledger' => Tracked input locals' ∧ Settled ledger') locals ledger := by
  obtain ⟨machine, found, recorded⟩ := tracked
  have moved : Tracked input
      { locals with machine := some (machine.advance input.runId .rollingBack) } :=
    ⟨_, rfl, recorded.advance .rollingBack⟩
  rcases (interrupted.machine machine found).2 with ⟨advancing, clear⟩ | ⟨completed, missed⟩
  · refine ensures_bind (keeps_emit found recorded (List.contains_iff_mem.mp advancing) ?_
      fun error => ?_)
    · refine ensures_bind (ensures_attempt (ensures_perform trivial ?_))
      rintro (error | restored)
      · exact ⟨moved, ⟨fun _ => clear, fun _ _ => rfl⟩⟩
      have whole : Restored (ledger.observe (Effect.restoreSnapshot change input.runId snapshot)
          (Except.ok restored : Except Thrown Unit)) := by
        refine ⟨?_, rfl, clear⟩
        show (ledger.dirty && !decide (ledger.captured = some snapshot)) = false
        rw [← interrupted.snapshot, present]
        simp
      have acted : Quiet (change.actionIds.forM fun actionId =>
          whenever dependencies.rollbackAction
            (attempt (perform (Effect.rollbackAction input.runId actionId)))) :=
        quiet_forM _ fun _ => quiet_whenever _
          (quiet_attempt fun _ _ => ensures_perform trivial fun _ => ⟨rfl, rfl⟩)
      refine keeps_bind_quiet acted (fun locals ledger => Tracked input locals ∧ Restored ledger)
        (fun _ => ⟨moved, whole⟩) ?_ fun _ _ _ held => ⟨held.1, held.2.settled⟩
      rintro _ locals' ledger' ⟨tracked, whole⟩
      refine keeps_bind_quiet quiet_checkRollback
        (fun locals ledger => Tracked input locals ∧ Restored ledger) (fun _ => ⟨tracked, whole⟩)
        ?_ fun _ _ _ held => ⟨held.1, held.2.settled⟩
      rintro passed locals' ledger' ⟨tracked, whole⟩
      refine ensures_bind (ensures_require (fun _ => ?_) fun _ => ⟨tracked, whole.settled⟩)
      refine ensures_bind ((emit_tracked tracked (.inl rfl)).mono ?_ ?_)
      · rintro _ locals _ ⟨-, rfl⟩
        exact ensures_pure ⟨rfl, whole⟩
      · rintro _ locals _ ⟨tracked, rfl⟩
        exact ⟨tracked, whole.settled⟩
    · refine ⟨moved, settled_of_untried interrupted.untried ?_⟩
      simp [Ledger.miss, isDeciding, clear]
  · refine ensures_bind (keeps_emit_refused found recorded ?_ fun _ => ?_)
    · rw [completed]
      exact List.not_mem_nil
    · exact ⟨⟨machine, found, recorded⟩, settled_of_untried interrupted.untried missed⟩

/-- What stands when the `try` block throws: nothing has been started, or the run of an admitted
change is interrupted. -/
def Failed (input : ApplyInput) (locals : ApplyLocals) (ledger : Ledger) : Prop :=
  (locals.machine = none ∧ Untouched ledger ∧ ledger.unrecorded = false) ∨
    ∃ change, Interrupted input change locals ledger

/-- The `catch` block accounts for what a failure leaves. -/
theorem recoverApply_keeps {error : Thrown} (failed : Failed input locals ledger) :
    Keeps (recoverApply dependencies input error)
      (fun result _ => Accounts (.ok result)) (fun error _ => Accounts (.error error)) locals
      ledger := by
  have refused (error : Thrown) (untouched : Untouched ledger) (clear : ledger.unrecorded = false) :
      Accounts (.error error) ledger :=
    accounts_of_settled (fun _ same => nomatch same) (settled_of_untouched untouched clear)
  rcases failed with ⟨unstarted, untouched, clear⟩ | ⟨change, interrupted⟩
  · exact recoverApply_unstarted unstarted (refused _ untouched clear)
  refine ensures_bind (ensures_locals ?_)
  rw [interrupted.held]
  cases started : locals.machine with
  | none =>
    obtain ⟨untouched, clear⟩ := interrupted.unstarted started
    exact ensures_throw (refused _ untouched clear)
  | some machine =>
    have tracked : Tracked input locals := ⟨machine, started, (interrupted.machine machine started).1⟩
    have nothing (untouched : Untouched ledger) :
        Keeps (tryCatch (rollBackNothing input change) fun _ =>
            reportRollbackFailed dependencies input change)
          (fun result _ => Accounts (.ok result)) (fun error _ => Accounts (.error error)) locals
          ledger := by
      have clear := interrupted.recorded untouched
      refine ensures_tryCatch ((rollBackNothing_keeps tracked untouched).mono ?_ ?_)
      · rintro result _ _ ⟨ended, rfl⟩
        refine ⟨fun _ => clear, fun _ => ⟨?_, fun _ _ _ => untouched.clean, fun wrote =>
          absurd untouched.unwritten wrote⟩⟩
        rintro _ ⟨⟩ done
        rw [ended] at done
        cases done
      · rintro _ locals' _ ⟨tracked, rfl⟩
        exact reportRollbackFailed_keeps tracked (settled_of_untouched untouched clear)
    cases present : locals.snapshot with
    | none => exact nothing (interrupted.idle (.inl present))
    | some snapshot =>
      cases begun : locals.writeStarted with
      | false => exact nothing (interrupted.idle (.inr begun))
      | true =>
        refine ensures_tryCatch ((rollBack_keeps interrupted present tracked).mono ?_ ?_)
        · rintro result _ ledger' ⟨ended, restored⟩
          refine ⟨fun _ => restored.recorded, fun _ => ⟨?_, fun _ _ _ => restored.clean, fun _ _ =>
            restored.tried⟩⟩
          rintro _ ⟨⟩ done
          rw [ended] at done
          cases done
        · rintro _ locals' ledger' ⟨tracked, settled⟩
          have marked : Quiet (whenever dependencies.snapshotStore
              (ignoring (attempt (perform (Effect.markRollbackFailed (snapshotIdOf input)))))) :=
            quiet_whenever _ (quiet_ignoring
              (quiet_attempt fun _ _ => ensures_perform trivial fun _ => ⟨rfl, rfl⟩))
          refine keeps_bind_quiet marked
            (fun locals ledger => Tracked input locals ∧ Settled ledger)
            (fun _ => ⟨tracked, settled⟩) ?_ ?_
          · rintro _ locals ledger ⟨tracked, settled⟩
            exact reportRollbackFailed_keeps tracked settled
          · rintro error _ ledger ⟨-, settled⟩
            exact accounts_of_settled (fun _ same => nomatch same) settled

end Rollback

/-! ## Whole runs -/

section Runs

variable {dependencies : ApplyDependencies} {input : ApplyInput} {locals : ApplyLocals}
  {ledger : Ledger}

/-- The `try` block completes with everything done and recorded, or fails. -/
theorem applyStaged_keeps :
    Keeps (applyStaged dependencies input)
      (fun result _ ledger => Accounts (.ok result) ledger) (fun _ => Failed input)
      ⟨none, false, none, none, []⟩ .blank := by
  have early (change : Option StagedChangePayload) (locals : ApplyLocals)
      (unstarted : locals.machine = none) :
      Failed input locals { Ledger.blank with staged := change } :=
    .inl ⟨unstarted, ⟨rfl, rfl⟩, rfl⟩
  refine ensures_bind (ensures_attempt (ensures_perform trivial ?_))
  rintro (error | staged)
  · exact early none _ rfl
  refine ensures_bind (ensures_assign ?_)
  cases staged with
  | none => exact ensures_throw (early none _ rfl)
  | some change =>
    show Keeps _ _ _ _ { Ledger.blank with staged := some change }
    refine ensures_bind (ensures_require (fun _ => ?_) fun _ => early _ _ rfl)
    refine ensures_bind (ensures_perform trivial fun time => ?_)
    refine ensures_bind (ensures_require (fun _ => ?_) fun _ => early _ _ rfl)
    refine ensures_bind (ensures_perform trivial fun available => ?_)
    refine ensures_bind (ensures_require (fun _ => ?_) fun _ => early _ _ rfl)
    have admitted : Admitted change false ⟨none, false, none, some change, []⟩
        { Ledger.blank with staged := some change } :=
      ⟨rfl, rfl, rfl, rfl, rfl, rfl, ⟨rfl, rfl⟩, rfl, rfl⟩
    refine ensures_bind ((recordSnapshot_keeps admitted).mono ?_ fun _ _ _ broken =>
      .inr ⟨change, broken⟩)
    rintro _ locals ledger ⟨running, present, untouched⟩
    refine ensures_bind ((writeSources_keeps running present untouched.unwritten).mono ?_
      fun _ _ _ broken => .inr ⟨change, broken⟩)
    rintro _ locals ledger ⟨running, written⟩
    refine (activate_keeps running written).mono ?_ fun _ _ _ broken => .inr ⟨change, broken⟩
    rintro result _ ledger ⟨done, healthy, staged, written, clear⟩
    refine ⟨fun _ => clear, fun _ => ⟨fun _ _ _ => ⟨healthy, change, staged, written⟩, ?_, ?_⟩⟩
    · rintro _ ⟨⟩ back
      rw [done] at back
      cases back
    · intro _ other
      exact absurd done (other result rfl)

/-- The `finally` block does not throw, and leaves the ledger. -/
theorem releaseAll_keeps {kept : Ledger → Prop} (holds : kept ledger) :
    Ends ledgerMonitor kept locals ledger :=
  releaseAll_ends kept holds (fun _ _ same => ⟨trivial, fun _ => same⟩) (fun _ _ same => same)
    fun _ _ _ same => ⟨trivial, same⟩

/-- The outcome of a run is truthful exactly when no event of its completion and none of the start
of its rollback went unrecorded after a source was written. -/
theorem performApply_truthful (dependencies : ApplyDependencies) (input : ApplyInput)
    {trace : List ((effect : Effect) × effect.Answer)}
    {outcome : Except Thrown ApplyCoordinatorResult}
    (returns : (performApply dependencies input).Returns trace outcome) :
    Truthful (ledgerOf trace) outcome ↔ (ledgerOf trace).unrecorded = false := by
  have ensured : (performApply dependencies input).Ensures ledgerMonitor
      (fun outcome ledger => Accounts outcome ledger) .blank := by
    refine performApply_ends (applyStaged_keeps.mono ?_ fun _ _ _ failed => failed) ?_
    · exact fun _ _ _ accounts => releaseAll_keeps accounts
    · intro error locals ledger failed
      exact (recoverApply_keeps failed).mono (fun _ _ _ accounts => releaseAll_keeps accounts)
        fun _ _ _ accounts => releaseAll_keeps accounts
  exact Program.ensures_returns ensured returns

end Runs

/-- A change of one source. -/
def portChange : StagedChangePayload where
  changeId := "CHG_1"
  appId := "edutrack-api"
  catalogVersion := "v1"
  manifestVersion := "v1"
  changeDigest := "d1"
  expiresAt := some 1000
  sourceIds := ["api.env"]
  actionIds := ["service.restart"]
  checkIds := ["process.active"]
  items := [⟨"api.env", "PORT", 0, .set, .required, some "8080", "f1"⟩]

def portInput : ApplyInput := ⟨"CHG_1", "RUN_1", "d1"⟩

/-- The dependencies that the agent gives its coordinator. -/
def agentDependencies : ApplyDependencies where
  persistSnapshot := false
  snapshotStore := true
  acquireApplicationLock := true
  acquireSourceLock := true
  acquireActionLock := true
  rollbackAction := true
  rollbackHealth := true
  onRollbackFailed := true

/-- Surroundings in which everything works but the recording of some states. -/
def answerAll (refused : ApplyState → Bool) : (effect : Effect) → effect.Answer
  | .readStaged _ => (.ok (some portChange) : Except Thrown (Option StagedChangePayload))
  | .now => (0 : Int)
  | .join _ => true
  | .captureSnapshot _ _ =>
    (.ok ⟨[⟨"api.env", [], 0, 0, 384⟩]⟩ : Except Thrown SnapshotPayload)
  | .runHealth _ _ => (.ok true : Except Thrown Bool)
  | .rollbackHealth _ _ => (.ok true : Except Thrown Bool)
  | .leave _ => ()
  | .persistEvent event =>
    (if refused event.state then .error (.error none) else .ok () : Except Thrown Unit)
  | .acquireLock _ => (.ok () : Except Thrown Unit)
  | .persistSnapshot _ _ _ => (.ok () : Except Thrown Unit)
  | .createSnapshot _ _ _ => (.ok () : Except Thrown Unit)
  | .writeSource _ => (.ok () : Except Thrown Unit)
  | .runAction _ _ => (.ok () : Except Thrown Unit)
  | .restoreSnapshot _ _ _ => (.ok () : Except Thrown Unit)
  | .rollbackAction _ _ => (.ok () : Except Thrown Unit)
  | .markRollbackFailed _ => (.ok () : Except Thrown Unit)
  | .onRollbackFailed _ _ _ _ => (.ok () : Except Thrown Unit)
  | .releaseLock _ => (.ok () : Except Thrown Unit)

/-- The run of that change in these surroundings. -/
def portRun (refused : ApplyState → Bool) :
    List ((effect : Effect) × effect.Answer) × Except Thrown ApplyCoordinatorResult :=
  Program.answered (fun _ => answerAll refused) [] (performApply agentDependencies portInput)

/-- A run in which everything is recorded is truthful. -/
theorem port_recorded : Truthful (ledgerOf (portRun fun _ => false).1) (portRun fun _ => false).2 :=
  (performApply_truthful agentDependencies portInput
    (Program.answered_returns _ [] (performApply agentDependencies portInput))).mpr
      (by decide +kernel)

def lostRun : List ((effect : Effect) × effect.Answer) × Except Thrown ApplyCoordinatorResult :=
  portRun fun state => state = .completed

/-- A run whose completion is not recorded reports a failed rollback after it has written its
source and without having tried to restore it. -/
theorem port_completion_unrecorded :
    (performApply agentDependencies portInput).Returns lostRun.1 lostRun.2 ∧
      lostRun.2 = .ok ⟨"CHG_1", "RUN_1", .rollbackFailed, .rollbackFailed⟩ ∧
      ¬ Truthful (ledgerOf lostRun.1) lostRun.2 := by
  have outcome : lostRun.2 = .ok ⟨"CHG_1", "RUN_1", .rollbackFailed, .rollbackFailed⟩ := by
    decide +kernel
  have wrote : (ledgerOf lostRun.1).written ≠ [] := by decide +kernel
  have untried : (ledgerOf lostRun.1).restoreTried = false := by decide +kernel
  have returns : (performApply agentDependencies portInput).Returns lostRun.1 lostRun.2 :=
    Program.answered_returns _ [] (performApply agentDependencies portInput)
  refine ⟨returns, outcome, fun truthful => ?_⟩
  have incomplete : ∀ result, lostRun.2 = .ok result → result.outcome ≠ .completed := by
    intro result same
    rw [outcome] at same
    cases same
    exact ApplyOutcome.noConfusion
  have tried := truthful.restored wrote incomplete
  rw [untried] at tried
  cases tried

end NancyMan.Agent
