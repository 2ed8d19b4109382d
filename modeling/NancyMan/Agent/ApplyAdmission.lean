import NancyMan.Agent.ApplyParts

/-!
# One apply per application

The calls of one coordinator take turns at their programs and share the set of active applications.
A call is in a phase: it reads its change, has been admitted for an application or refused, or has
ended. Only an admitted call writes or acts. The block that ends a call takes its application out of
the set also when the call was refused, so the set holds the application of an admitted call until
another call for it is refused.
-/
namespace NancyMan.Agent

open Async

/-- Where a call is; `ended` tells whether it was refused because another one is running. -/
inductive Phase where
  | reading
  | admitted (appId : String)
  | refused
  | ended (refused : Bool)
deriving DecidableEq

/-- The calls that change what is applied: writes, actions and their rollbacks. -/
def isChanging : Effect → Bool
  | .writeSource _ | .runAction _ _ | .restoreSnapshot _ _ _ | .rollbackAction _ _ => true
  | _ => false

/-- The phase after an answered call. -/
def Phase.observe (phase : Phase) : (effect : Effect) → effect.Answer → Phase
  | .join appId, answer =>
    match phase, (answer : Bool) with
    | .reading, true => .admitted appId
    | .reading, false => .refused
    | phase, _ => phase
  | .leave _, _ => .ended (phase = .refused)
  | _, _ => phase

/-- What a call may do in a phase. -/
def Phase.permits (phase : Phase) (effect : Effect) : Prop :=
  match phase with
  | .reading => isChanging effect = false
  | .admitted appId =>
    (∀ other, effect ≠ .join other) ∧ ∀ other, effect = .leave other → other = appId
  | .refused => (∀ other, effect ≠ .join other) ∧ isChanging effect = false
  | .ended _ => False

/-- The monitor of the phases of one call. -/
def phaseMonitor : Monitor Effect Effect.Answer Phase where
  permits := Phase.permits
  observe := Phase.observe

def alreadyRunning : Except Thrown ApplyCoordinatorResult :=
  .error (.coordinator .applyAlreadyRunning false)

/-- What stands when a call returns: it holds no application, and says so when it was refused. -/
def Returned (outcome : Except Thrown ApplyCoordinatorResult) (phase : Phase) : Prop :=
  (∀ appId, phase ≠ .admitted appId) ∧
    (phase = .refused ∨ phase = .ended true → outcome = alreadyRunning)

/-! ## The phases of a call -/

/-- A part of an admitted call: it neither asks for admission nor leaves, and keeps its change. -/
def Steady {α : Type} (action : Apply α) : Prop :=
  ∀ appId locals, Async.Ensures phaseMonitor action
    (fun _ locals' phase => locals'.change = locals.change ∧ phase = .admitted appId)
    (fun _ locals' phase => locals'.change = locals.change ∧ phase = .admitted appId) locals
    (.admitted appId)

variable (change : Option StagedChangePayload)

/-- Whose an admitted call is: its change and its application. -/
abbrev Admitting (appId : String) (locals : ApplyLocals) (phase : Phase) : Prop :=
  locals.change = change ∧ phase = .admitted appId

theorem steady_of_preserves {α : Type} {action : Apply α}
    (kept : ∀ change appId, Preserves phaseMonitor (Admitting change appId) action) :
    Steady action :=
  fun appId locals => kept locals.change appId locals _ ⟨rfl, rfl⟩

/-- A call that neither admits nor leaves passes. -/
theorem passes_admitted {change : Option StagedChangePayload} {appId : String} (effect : Effect)
    (admits : ∀ other, effect ≠ .join other) (leaves : ∀ other, effect ≠ .leave other) :
    Passes phaseMonitor (Admitting change appId) effect := by
  rintro locals _ ⟨held, rfl⟩
  refine ⟨⟨admits, fun other same => absurd same (leaves other)⟩, fun answer => ⟨held, ?_⟩⟩
  cases effect with
  | join other => exact absurd rfl (admits other)
  | leave other => exact absurd rfl (leaves other)
  | _ => rfl

variable (dependencies : ApplyDependencies)

theorem calm_admitted (appId : String) : Calm phaseMonitor (Admitting change appId) where
  assigned _ _ _ held kept _ _ := ⟨kept.trans held.1, held.2⟩
  passes effect plain :=
    passes_admitted effect (by rintro _ rfl; cases plain) (by rintro _ rfl; cases plain)

theorem steady_acquire (appId : String) (lock : Lock) :
    Preserves phaseMonitor (Admitting change appId) (acquire lock) :=
  (passes_admitted (.acquireLock lock) nofun nofun).perform.attempt.bind fun _ =>
    preserves_assign fun _ _ held => held

/-- What an admitted call does in its `try` block is steady. -/
theorem steady_admitted (input : ApplyInput) (change : StagedChangePayload) : Steady (do
      recordSnapshot dependencies input change
      writeSources change
      activate input change) := by
  refine steady_of_preserves fun held appId => ?_
  have calm := calm_admitted held appId
  refine (calm.recordSnapshot _ _ _ (steady_acquire held appId)).bind fun _ => ?_
  exact (calm.writeSources change fun _ => passes_admitted _ nofun nofun).bind fun _ =>
    calm.activate input change

theorem steady_recoverApply (input : ApplyInput) (error : Thrown) :
    Steady (recoverApply dependencies input error) :=
  steady_of_preserves fun change appId =>
    (calm_admitted change appId).recoverApply dependencies input error fun _ _ _ _ =>
      passes_admitted _ nofun nofun

/-! ## A whole call -/

section Whole

variable {dependencies : ApplyDependencies} {input : ApplyInput}

/-- What stands when the `try` block of a call throws: it has not asked for admission, or was
refused, and has no machine then; or it is admitted for the application of its change. -/
def Thrower (error : Thrown) (locals : ApplyLocals) (phase : Phase) : Prop :=
  (phase = .reading ∧ locals.machine = none) ∨
    (phase = .refused ∧ locals.machine = none ∧ error = .coordinator .applyAlreadyRunning false) ∨
    ∃ change, locals.change = some change ∧ phase = .admitted change.appId

/-- The `try` block returns only from an admitted call. -/
theorem applyStaged_phases :
    Async.Ensures phaseMonitor (applyStaged dependencies input)
      (fun _ locals phase => ∃ change, locals.change = some change ∧
        phase = .admitted change.appId)
      Thrower ⟨none, false, none, none, []⟩ .reading := by
  refine ensures_bind (ensures_attempt (ensures_perform rfl ?_))
  rintro (error | staged)
  · exact .inl ⟨rfl, rfl⟩
  refine ensures_bind (ensures_assign ?_)
  cases staged with
  | none => exact ensures_throw (.inl ⟨rfl, rfl⟩)
  | some change =>
    refine ensures_bind (ensures_require (fun _ => ?_) fun _ => .inl ⟨rfl, rfl⟩)
    refine ensures_bind (ensures_perform rfl fun time => ?_)
    refine ensures_bind (ensures_require (fun _ => ?_) fun _ => .inl ⟨rfl, rfl⟩)
    refine ensures_bind (ensures_perform rfl fun available => ?_)
    cases available with
    | false => exact ensures_bind (ensures_throw (.inr (.inl ⟨rfl, rfl, rfl⟩)))
    | true =>
      refine (steady_admitted dependencies input change change.appId _).mono ?_ ?_
      · rintro _ _ _ ⟨kept, rfl⟩
        exact ⟨change, kept, rfl⟩
      · rintro _ _ _ ⟨kept, rfl⟩
        exact .inr (.inr ⟨change, kept, rfl⟩)

/-- Where a call can be when its last block begins. -/
def Leaving (locals : ApplyLocals) (phase : Phase) : Prop :=
  phase = .reading ∨ phase = .refused ∨
    ∃ change, locals.change = some change ∧ phase = .admitted change.appId

variable {locals : ApplyLocals} {phase : Phase}

/-- The last block of a call ends an admission, or a call that was not admitted. -/
theorem releaseAll_phases (waiting : Leaving locals phase) :
    Ends phaseMonitor (fun after => (∀ appId, after ≠ .admitted appId) ∧
      (after = .refused ∨ after = .ended true → phase = .refused)) locals phase := by
  have permitted (lock : Lock) : phase.permits (.releaseLock lock) := by
    rcases waiting with rfl | rfl | ⟨change, -, rfl⟩
    · rfl
    · exact ⟨nofun, rfl⟩
    · exact ⟨nofun, nofun⟩
  refine releaseAll_ends (phase = ·) rfl ?_ ?_ ?_
  · rintro lock _ rfl
    exact ⟨permitted lock, fun _ => rfl⟩
  · rintro held _ rfl
    have own : phase = .reading ∨ phase = .refused := by
      rcases waiting with same | same | ⟨change, found, -⟩
      · exact .inl same
      · exact .inr same
      · rw [held] at found
        cases found
    rcases own with rfl | rfl
    · exact ⟨nofun, nofun⟩
    · exact ⟨nofun, fun _ => rfl⟩
  · rintro change held _ rfl
    refine ⟨?_, fun _ => Phase.noConfusion, ?_⟩
    · rcases waiting with rfl | rfl | ⟨other, found, rfl⟩
      · rfl
      · exact ⟨nofun, rfl⟩
      · rw [held] at found
        cases found
        refine ⟨nofun, ?_⟩
        rintro _ ⟨⟩
        rfl
    · rintro (same | same)
      · cases same
      · exact decide_eq_true_iff.mp (Phase.ended.inj same)

/-- The `catch` block leaves what the `try` block has left. -/
theorem recoverApply_phases {error : Thrown} (thrown : Thrower error locals phase) :
    Async.Ensures phaseMonitor (recoverApply dependencies input error)
      (fun _ locals phase => ∃ change, locals.change = some change ∧
        phase = .admitted change.appId)
      Thrower locals phase := by
  rcases thrown with ⟨rfl, idle⟩ | ⟨rfl, idle, rfl⟩ | ⟨change, found, rfl⟩
  · exact recoverApply_unstarted idle (.inl ⟨rfl, idle⟩)
  · exact recoverApply_unstarted idle (.inr (.inl ⟨rfl, idle, rfl⟩))
  · refine (steady_recoverApply dependencies input error change.appId locals).mono ?_ ?_
    · rintro _ _ _ ⟨kept, rfl⟩
      exact ⟨change, kept.trans found, rfl⟩
    · rintro _ _ _ ⟨kept, rfl⟩
      exact .inr (.inr ⟨change, kept.trans found, rfl⟩)

/-- A call passes through its phases as the monitor permits, and returns from none that holds an
application. -/
theorem performApply_phases :
    (performApply dependencies input).Ensures phaseMonitor Returned .reading := by
  have finished (result : ApplyCoordinatorResult) (locals : ApplyLocals) (phase : Phase)
      (admitted : ∃ change, locals.change = some change ∧ phase = .admitted change.appId) :
      Ends phaseMonitor (Returned (.ok result)) locals phase := by
    refine (releaseAll_phases (.inr (.inr admitted))).mono ?_ fun _ _ _ never => never
    rintro _ _ after ⟨left, refused⟩
    refine ⟨left, fun same => ?_⟩
    obtain ⟨change, -, admitted⟩ := admitted
    cases admitted.symm.trans (refused same)
  have failed (error : Thrown) (locals : ApplyLocals) (phase : Phase)
      (thrown : Thrower error locals phase) :
      Ends phaseMonitor (Returned (.error error)) locals phase := by
    have waiting : Leaving locals phase :=
      thrown.imp And.left (Or.imp And.left id)
    refine (releaseAll_phases waiting).mono ?_ fun _ _ _ never => never
    rintro _ _ after ⟨left, refused⟩
    refine ⟨left, fun same => ?_⟩
    rcases thrown with ⟨rfl, -⟩ | ⟨-, -, rfl⟩ | ⟨change, -, rfl⟩
    · cases refused same
    · rfl
    · cases refused same
  refine performApply_ends (applyStaged_phases.mono finished fun _ _ _ thrown => thrown) ?_
  intro error locals phase thrown
  exact (recoverApply_phases thrown).mono finished failed

end Whole

end NancyMan.Agent
