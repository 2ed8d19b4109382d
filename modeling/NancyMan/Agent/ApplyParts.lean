import NancyMan.Agent.ApplyCoordinator

/-!
# The parts of an apply

What the parts of `performApply` keep under any monitor. An invariant is calm when it depends on the
change and the releases and on whether there is a machine, and the plain calls keep it; the parts
that make other calls keep it where these do.
-/
namespace NancyMan.Agent

open Async

variable {S : Type} {monitor : Monitor Effect Effect.Answer S} {inv : ApplyLocals → S → Prop}

/-- The calls that are neither about the change and its admission nor about a lock, the write of a
source or the report of a failed rollback. -/
def isPlainCall : Effect → Bool
  | .readStaged _ | .now | .join _ | .leave _ | .acquireLock _ | .releaseLock _ => false
  | .writeSource _ | .onRollbackFailed _ _ _ _ => false
  | _ => true

/-- The plain calls and the assignments of a run under way keep an invariant. -/
structure Calm (monitor : Monitor Effect Effect.Answer S) (inv : ApplyLocals → S → Prop) :
    Prop where
  assigned : ∀ locals locals' state, inv locals state → locals'.change = locals.change →
    locals'.releases = locals.releases →
    (locals.machine.isSome = true → locals'.machine.isSome = true) → inv locals' state
  passes : ∀ effect, isPlainCall effect = true → Passes monitor inv effect

theorem preserves_whenever (present : Bool) {action : Apply Unit}
    (preserves : Preserves monitor inv action) :
    Preserves monitor inv (whenever present action) := by
  cases present with
  | true => exact preserves
  | false => exact preserves_pure ()

theorem preserves_ignoring {action : Apply Unit} (preserves : Preserves monitor inv action) :
    Preserves monitor inv (ignoring action) :=
  preserves.tryCatch fun _ => preserves_pure ()

namespace Calm

variable (calm : Calm monitor inv)

include calm

theorem emit (changeId runId : String) (state : ApplyState) (reasonCode : String) :
    Preserves monitor inv (emit changeId runId state reasonCode) := by
  refine preserves_locals.bind fun held => ?_
  split
  · exact preserves_throw _
  · split
    · exact preserves_throw _
    · refine (preserves_assign fun locals state kept => ?_).bind fun _ =>
        (calm.passes _ rfl).perform.attempt
      exact calm.assigned locals _ state kept rfl rfl fun _ => rfl

variable (dependencies : ApplyDependencies) (input : ApplyInput) (change : StagedChangePayload)

theorem storeSnapshot (snapshot : SnapshotPayload) :
    Preserves monitor inv (storeSnapshot dependencies input change snapshot) := by
  unfold Agent.storeSnapshot
  split
  · exact (calm.passes _ rfl).perform.attempt
  · exact preserves_whenever _ (calm.passes _ rfl).perform.attempt

/-- From the acquired locks to the recorded snapshot. -/
theorem snapshotting : Preserves monitor inv (do
    let snapshot ← attempt (perform (Effect.captureSnapshot change input.runId))
    assign fun locals => { locals with snapshot := some snapshot }
    Agent.storeSnapshot dependencies input change snapshot
    Agent.emit change.changeId input.runId .snapshotted "SNAPSHOT_RECORDED") := by
  refine (calm.passes _ rfl).perform.attempt.bind fun snapshot => ?_
  refine (preserves_assign fun locals state kept => ?_).bind fun _ =>
    (calm.storeSnapshot dependencies input change snapshot).bind fun _ => calm.emit _ _ _ _
  exact calm.assigned locals _ state kept rfl rfl id

/-- From the machine of a run to its recorded snapshot. -/
theorem starting (locks : ∀ lock, Preserves monitor inv (acquire lock)) : Preserves monitor inv (do
    attempt (perform (Effect.persistEvent
      ⟨change.changeId, input.runId, .applying, 0, "APPLY_STARTED"⟩))
    whenever dependencies.acquireSourceLock
      (change.sourceIds.forM fun sourceId => acquire (.source sourceId))
    whenever dependencies.acquireActionLock
      (change.actionIds.forM fun actionId => acquire (.action actionId))
    let snapshot ← attempt (perform (Effect.captureSnapshot change input.runId))
    assign fun locals => { locals with snapshot := some snapshot }
    Agent.storeSnapshot dependencies input change snapshot
    Agent.emit change.changeId input.runId .snapshotted "SNAPSHOT_RECORDED") := by
  refine (calm.passes _ rfl).perform.attempt.bind fun _ => ?_
  refine (preserves_whenever _ (preserves_forM fun _ => locks _)).bind fun _ => ?_
  refine (preserves_whenever _ (preserves_forM fun _ => locks _)).bind fun _ => ?_
  exact calm.snapshotting dependencies input change

theorem recordSnapshot (locks : ∀ lock, Preserves monitor inv (acquire lock)) :
    Preserves monitor inv (recordSnapshot dependencies input change) := by
  refine (preserves_whenever _ (locks _)).bind fun _ => ?_
  refine (preserves_assign fun locals state kept => ?_).bind fun _ =>
    calm.starting dependencies input change locks
  exact calm.assigned locals _ state kept rfl rfl fun _ => rfl

theorem writeSources (writes : ∀ source, Passes monitor inv (.writeSource source)) :
    Preserves monitor inv (writeSources change) := by
  unfold Agent.writeSources
  split
  · exact preserves_throw _
  · refine preserves_forM fun source => (preserves_assign fun locals state kept => ?_).bind fun _ =>
      (writes source).perform.attempt
    exact calm.assigned locals _ state kept rfl rfl id

theorem activate : Preserves monitor inv (activate input change) := by
  refine (calm.emit _ _ _ _).bind fun _ => (calm.emit _ _ _ _).bind fun _ => ?_
  refine (preserves_forM fun _ => (calm.passes _ rfl).perform.attempt).bind fun _ => ?_
  refine (calm.emit _ _ _ _).bind fun _ => ?_
  refine (calm.passes _ rfl).perform.attempt.bind fun _ => ?_
  exact (preserves_require _ _).bind fun _ => (calm.emit _ _ _ _).bind fun _ => preserves_pure _

theorem rollBackNothing : Preserves monitor inv (rollBackNothing input change) :=
  (calm.emit _ _ _ _).bind fun _ => (calm.emit _ _ _ _).bind fun _ => preserves_pure _

theorem checkRollback : Preserves monitor inv (checkRollback dependencies input change) := by
  unfold Agent.checkRollback
  split
  · exact (calm.passes _ rfl).perform.attempt
  · exact preserves_pure true

theorem rollBack (snapshot : SnapshotPayload) :
    Preserves monitor inv (rollBack dependencies input change snapshot) := by
  refine (calm.emit _ _ _ _).bind fun _ => ?_
  refine (calm.passes _ rfl).perform.attempt.bind fun _ => ?_
  refine (preserves_forM fun _ =>
    preserves_whenever _ (calm.passes _ rfl).perform.attempt).bind fun _ => ?_
  refine (calm.checkRollback dependencies input change).bind fun _ => ?_
  exact (preserves_require _ _).bind fun _ => (calm.emit _ _ _ _).bind fun _ => preserves_pure _

theorem marking : Preserves monitor inv (whenever dependencies.snapshotStore
    (ignoring (attempt (perform (Effect.markRollbackFailed (snapshotIdOf input)))))) :=
  preserves_whenever _ (preserves_ignoring (calm.passes _ rfl).perform.attempt)

theorem recoverApply (error : Thrown) (reports : ∀ changeId runId snapshotId reasonCode,
    Passes monitor inv (.onRollbackFailed changeId runId snapshotId reasonCode)) :
    Preserves monitor inv (recoverApply dependencies input error) := by
  have reported (change : StagedChangePayload) :
      Preserves monitor inv (reportRollbackFailed dependencies input change) := by
    refine (preserves_ignoring (calm.emit _ _ _ _)).bind fun _ => ?_
    exact (preserves_whenever _ (reports _ _ _ _).perform.attempt).bind fun _ => preserves_pure _
  refine preserves_locals.bind fun held => ?_
  split
  · split
    · exact (calm.rollBack _ _ _ _).tryCatch fun _ =>
        (calm.marking dependencies input).bind fun _ => reported _
    · exact (calm.rollBackNothing _ _).tryCatch fun _ => reported _
  · exact preserves_throw _

end Calm

/-! ## The blocks of an apply -/

section Blocks

/-- The last block does not throw, and this holds after it. -/
abbrev Ends (monitor : Monitor Effect Effect.Answer S) (post : S → Prop) (locals : ApplyLocals)
    (state : S) : Prop :=
  Ensures monitor releaseAll (fun _ _ => post) (fun _ _ _ => False) locals state

variable {locals : ApplyLocals} {state : S}

/-- The last block releases the locks, and then leaves the application of its change. -/
theorem releaseAll_ends (inv : S → Prop) {post : S → Prop} (holds : inv state)
    (releases : ∀ lock state, inv state → monitor.permits state (.releaseLock lock) ∧
      ∀ answer, inv (monitor.observe state (.releaseLock lock) answer))
    (stays : locals.change = none → ∀ state, inv state → post state)
    (leaves : ∀ change, locals.change = some change → ∀ state, inv state →
      monitor.permits state (.leave change.appId) ∧
        post (monitor.observe state (.leave change.appId) ())) :
    Ends monitor post locals state := by
  have passes (lock : Lock) : Passes monitor (fun _ : ApplyLocals => inv) (.releaseLock lock) :=
    fun _ => releases lock
  refine ensures_bind (ensures_locals (ensures_bind
    ((ensures_forM (fun _ _ => inv) ?_ holds).mono ?_ fun _ _ _ never => never)))
  · intro lock _ locals state kept
    exact ensures_tryCatch (((passes lock).perform.attempt locals state kept).mono
      (fun _ _ _ kept => kept) fun _ _ _ kept => ensures_pure kept)
  · intro _ _ state kept
    cases held : locals.change with
    | none => exact ensures_pure (stays held state kept)
    | some change =>
      obtain ⟨permitted, left⟩ := leaves change held state kept
      exact ensures_perform permitted fun _ => left

/-- The `catch` block throws for a call that has no machine. -/
theorem recoverApply_unstarted {dependencies : ApplyDependencies} {input : ApplyInput}
    {error : Thrown} {post : ApplyCoordinatorResult → ApplyLocals → S → Prop}
    {fails : Thrown → ApplyLocals → S → Prop} (idle : locals.machine = none)
    (failed : fails (preconditionError error) locals state) :
    Ensures monitor (recoverApply dependencies input error) post fails locals state := by
  refine ensures_bind (ensures_locals ?_)
  rw [idle]
  cases locals.change with
  | none => exact ensures_throw failed
  | some change => exact ensures_throw failed

/-- An apply ends as its last block does after what the others leave. -/
theorem performApply_ends {dependencies : ApplyDependencies} {input : ApplyInput}
    {thrown : Thrown → ApplyLocals → S → Prop}
    {last : Except Thrown ApplyCoordinatorResult → S → Prop}
    (applied : Ensures monitor (applyStaged dependencies input)
      (fun result => Ends monitor (last (.ok result))) thrown ⟨none, false, none, none, []⟩ state)
    (recovered : ∀ error locals state, thrown error locals state →
      Ensures monitor (recoverApply dependencies input error)
        (fun result => Ends monitor (last (.ok result)))
        (fun error => Ends monitor (last (.error error))) locals state) :
    (performApply dependencies input).Ensures monitor last state := by
  refine Program.ensures_bind.mpr (Program.Ensures.mono ?_ (ensures_tryFinally
    (fun _ _ _ never => never) (ensures_tryCatch (applied.mono (fun _ _ _ ends => ends)
      fun error locals state => recovered error locals state))))
  rintro ⟨error | result, locals⟩ state held
  · exact held
  · exact held

end Blocks

/-! ## The locks of an apply -/

/-- The locks that an apply holds: the one that was acquired last is released first, and an
application is left without any. -/
def lockMonitor : Monitor Effect Effect.Answer (List Lock) where
  permits held
    | .releaseLock lock => ∃ others, held = others ++ [lock]
    | .leave _ => held = []
    | _ => True
  observe held
    | .acquireLock lock, answer => match (answer : Except Thrown Unit) with
      | .ok () => held ++ [lock]
      | .error _ => held
    | .releaseLock _, _ => held.dropLast
    | _, _ => held

/-- The locks that are held are those whose release was noted. -/
def Noted (locals : ApplyLocals) (held : List Lock) : Prop := held = locals.releases

def isLockCall : Effect → Bool
  | .acquireLock _ | .releaseLock _ | .leave _ => true
  | _ => false

theorem passes_noted (effect : Effect) (other : isLockCall effect = false) :
    Passes lockMonitor Noted effect := by
  intro locals held noted
  cases effect with
  | acquireLock lock => cases other
  | releaseLock lock => cases other
  | leave appId => cases other
  | _ => exact ⟨trivial, fun _ => noted⟩

theorem calm_noted : Calm lockMonitor Noted where
  assigned _ _ _ noted _ same _ := noted.trans same.symm
  passes effect plain := passes_noted effect (by
    cases effect with
    | acquireLock lock => cases plain
    | releaseLock lock => cases plain
    | leave appId => cases plain
    | _ => rfl)

theorem noted_acquire (lock : Lock) : Preserves lockMonitor Noted (acquire lock) := by
  intro locals held noted
  refine ensures_bind (ensures_attempt (ensures_perform trivial ?_))
  rintro (error | ⟨⟩)
  · exact noted
  · exact ensures_assign (congrArg (· ++ [lock]) noted)

/-- The `try` block notes the locks that it acquires. -/
theorem noted_applyStaged (dependencies : ApplyDependencies) (input : ApplyInput) :
    Preserves lockMonitor Noted (applyStaged dependencies input) := by
  refine (passes_noted (.readStaged _) rfl).perform.attempt.bind fun staged => ?_
  refine (preserves_assign fun locals held noted => ?_).bind fun _ => ?_
  · exact noted
  cases staged with
  | none => exact preserves_throw _
  | some change =>
    refine (preserves_require _ _).bind fun _ => ?_
    refine (passes_noted .now rfl).perform.bind fun time => ?_
    refine (preserves_require _ _).bind fun _ => ?_
    refine (passes_noted (.join _) rfl).perform.bind fun available => ?_
    refine (preserves_require _ _).bind fun _ => ?_
    refine (calm_noted.recordSnapshot _ _ _ noted_acquire).bind fun _ => ?_
    exact (calm_noted.writeSources _ fun _ => passes_noted _ rfl).bind fun _ =>
      calm_noted.activate input change

/-- The last block releases the locks that were noted. -/
theorem releaseAll_noted {locals : ApplyLocals} {held : List Lock} (noted : Noted locals held) :
    Ends lockMonitor (· = []) locals held := by
  obtain rfl := noted
  refine ensures_bind (ensures_locals (ensures_bind ((ensures_forM
    (fun left _ held => held = left.reverse) ?_ (List.reverse_reverse _).symm).mono ?_
      fun _ _ _ never => never)))
  · rintro lock rest other _ rfl
    refine ensures_tryCatch (ensures_attempt (ensures_perform ⟨_, List.reverse_cons⟩ ?_))
    have left : (lock :: rest).reverse.dropLast = rest.reverse := by simp
    rintro (error | ⟨⟩)
    · exact ensures_pure left
    · exact left
  · rintro _ _ _ rfl
    cases locals.change with
    | none => exact ensures_pure rfl
    | some change => exact ensures_perform rfl fun _ => rfl

/-- Whatever its calls are answered, an apply releases every lock that it has acquired, once and
before it leaves its application, and holds none at its end. -/
theorem performApply_releases (dependencies : ApplyDependencies) (input : ApplyInput) :
    (performApply dependencies input).Ensures lockMonitor (fun _ held => held = []) [] := by
  refine performApply_ends ((noted_applyStaged dependencies input _ _ rfl).mono
    (fun _ _ _ => releaseAll_noted) fun _ _ _ noted => noted) fun error locals held noted => ?_
  exact (calm_noted.recoverApply dependencies input error
    (fun _ _ _ _ => passes_noted _ rfl) locals held noted).mono
    (fun _ _ _ => releaseAll_noted) fun _ _ _ => releaseAll_noted

end NancyMan.Agent
