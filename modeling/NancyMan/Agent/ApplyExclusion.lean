import NancyMan.Agent.ApplyAdmission
import NancyMan.Agent.ApplyOutcome
import NancyMan.Lib.Machine

/-!
# The calls of one coordinator

A coordinator keeps its calls, the set of active applications that they share, and the results it
has for the runs of earlier calls. Its turns interleave in any order: a turn takes a new call, or
answers what one of the calls waits for. The turns that keep the calls of an application apart are
those in which none is admitted after the cleanup of a call that was not.
-/
namespace NancyMan.Agent

/-- A call of `apply` that has become a run of `performApply`. -/
structure Call where
  input : ApplyInput
  program : Program Effect Effect.Answer (Except Thrown ApplyCoordinatorResult)
  phase : Phase

/-- Whether a call has thrown, after which its run is forgotten. -/
def Call.rejected (call : Call) : Bool :=
  match call.program with
  | .ret (.error _) => true
  | _ => false

/-- What a coordinator holds. `cleaned` is a history: the applications that a call not admitted has
taken out of the active ones since a call was last admitted for them. -/
structure Coordinator where
  active : List String
  calls : List Call
  cleaned : List String

/-- `createApplyCoordinator`. -/
def Coordinator.initial : Coordinator := ⟨[], [], []⟩

/-- One turn of the coordinator. -/
inductive Turn where
  | apply (input : ApplyInput)
  | answer (index : Nat) (reply : (effect : Effect) → effect.Answer)

/-- What answers a call: the set of active applications admits it, its dependencies do the rest. -/
def answerOf (active : List String) (reply : (effect : Effect) → effect.Answer) :
    (effect : Effect) → effect.Answer
  | .join appId => !active.contains appId
  | effect => reply effect

/-- The active applications after a call. -/
def activeAfter (active : List String) : Effect → List String
  | .join appId => if active.contains appId then active else active ++ [appId]
  | .leave appId => active.filter fun other => other ≠ appId
  | _ => active

/-- The history of cleaned applications after a call made in a phase. -/
def cleanedAfter (coordinator : Coordinator) (phase : Phase) : Effect → List String
  | .join appId =>
    if coordinator.active.contains appId then coordinator.cleaned
    else coordinator.cleaned.filter fun other => other ≠ appId
  | .leave appId =>
    if phase = .admitted appId then coordinator.cleaned else appId :: coordinator.cleaned
  | _ => coordinator.cleaned

variable (dependencies : ApplyDependencies)

/-- A turn, and the call that it answers. -/
def Coordinator.take (coordinator : Coordinator) :
    Turn → Coordinator × Option ((effect : Effect) × effect.Answer)
  | .apply input =>
    if coordinator.calls.any fun call => call.input.runId = input.runId && !call.rejected then
      -- `apply` returns the result or the promise that it has for the run
      (coordinator, none)
    else
      ({ coordinator with
        calls := coordinator.calls ++ [⟨input, performApply dependencies input, .reading⟩] }, none)
  | .answer index reply =>
    match coordinator.calls[index]? with
    | some ⟨input, .call effect next, phase⟩ =>
      let answer := answerOf coordinator.active reply effect
      ({ active := activeAfter coordinator.active effect
         calls := coordinator.calls.set index ⟨input, next answer, phase.observe effect answer⟩
         cleaned := cleanedAfter coordinator phase effect }, some ⟨effect, answer⟩)
    | _ => (coordinator, none)

def Coordinator.Running (coordinator : Coordinator) (index : Nat) (appId : String) : Prop :=
  coordinator.calls[index]?.map Call.phase = some (.admitted appId)

instance (coordinator : Coordinator) (index : Nat) (appId : String) :
    Decidable (coordinator.Running index appId) :=
  inferInstanceAs (Decidable (_ = _))

def Coordinator.Waiting (coordinator : Coordinator) (index : Nat) (effect : Effect) : Prop :=
  ∃ input next phase, coordinator.calls[index]? = some ⟨input, .call effect next, phase⟩

/-- A turn keeps the calls of each application apart. -/
structure Exclusive (coordinator : Coordinator) (turn : Turn) : Prop where
  /-- At most one call of an application is running after it. -/
  single : ∀ first second appId, (coordinator.take dependencies turn).1.Running first appId →
    (coordinator.take dependencies turn).1.Running second appId → first = second
  /-- A call that asks for admission while another one of the application is running is refused. -/
  refuses : ∀ index reply other appId, turn = .answer index reply →
    coordinator.Waiting index (.join appId) → coordinator.Running other appId →
    (coordinator.take dependencies turn).2 = some ⟨.join appId, (false : Bool)⟩
  /-- A call that is not running neither writes nor acts. -/
  idle : ∀ index reply effect, turn = .answer index reply → coordinator.Waiting index effect →
    (∀ appId, ¬ coordinator.Running index appId) → isChanging effect = false
  /-- A call that was refused returns that another one is running. -/
  reported : ∀ call ∈ (coordinator.take dependencies turn).1.calls, ∀ outcome,
    call.phase = .refused ∨ call.phase = .ended true → call.program = .ret outcome →
    outcome = alreadyRunning

/-- A turn does not answer a call that asks for admission while another one of the application is
running, after the cleanup of a call that was not. -/
def Orderly (coordinator : Coordinator) (turn : Turn) : Prop :=
  ∀ index reply other appId, turn = .answer index reply →
    coordinator.Waiting index (.join appId) → coordinator.Running other appId →
    appId ∉ coordinator.cleaned

/-! ## What every turn keeps -/

/-- Every call is in its phase, and no active application is among the cleaned ones. -/
structure Sound (coordinator : Coordinator) : Prop where
  lawful : ∀ call ∈ coordinator.calls, call.program.Ensures phaseMonitor Returned call.phase
  apart : ∀ appId ∈ coordinator.cleaned, appId ∉ coordinator.active

variable {coordinator : Coordinator} {effect : Effect} {phase : Phase} {active : List String}
  {other : String}

theorem Sound.permits (sound : Sound coordinator) {index : Nat} {input : ApplyInput}
    {next : effect.Answer → Program Effect Effect.Answer (Except Thrown ApplyCoordinatorResult)}
    (found : coordinator.calls[index]? = some ⟨input, .call effect next, phase⟩) :
    phase.permits effect :=
  (sound.lawful _ (List.mem_of_getElem? found)).1

variable {appId : String}

@[simp] theorem mem_activeAfter_join :
    appId ∈ activeAfter active (.join other) ↔ appId ∈ active ∨ appId = other := by
  by_cases held : other ∈ active
  · simp only [activeAfter, List.contains_iff_mem.mpr held, if_true]
    refine ⟨.inl, ?_⟩
    rintro (before | rfl)
    · exact before
    · exact held
  · simp [activeAfter, held]

@[simp] theorem mem_activeAfter_leave :
    appId ∈ activeAfter active (.leave other) ↔ appId ∈ active ∧ appId ≠ other := by
  simp [activeAfter]

@[simp] theorem mem_cleanedAfter_join :
    appId ∈ cleanedAfter coordinator phase (.join other) ↔
      appId ∈ coordinator.cleaned ∧ (other ∈ coordinator.active ∨ appId ≠ other) := by
  by_cases held : other ∈ coordinator.active
  · simp [cleanedAfter, held]
  · simp [cleanedAfter, held]

@[simp] theorem mem_cleanedAfter_leave :
    appId ∈ cleanedAfter coordinator phase (.leave other) ↔
      appId ∈ coordinator.cleaned ∨ (appId = other ∧ phase ≠ .admitted other) := by
  by_cases held : phase = .admitted other
  · simp [cleanedAfter, held]
  · simp [cleanedAfter, held, or_comm]

/-- The applications that a call adds to the active ones are no longer among the cleaned ones. -/
theorem activeAfter_apart (apart : ∀ appId ∈ coordinator.cleaned, appId ∉ coordinator.active)
    (phase : Phase) (effect : Effect) :
    ∀ appId ∈ cleanedAfter coordinator phase effect,
      appId ∉ activeAfter coordinator.active effect := by
  intro appId cleaned active
  cases effect with
  | join other =>
    obtain ⟨before, kept⟩ := mem_cleanedAfter_join.mp cleaned
    rcases mem_activeAfter_join.mp active with held | rfl
    · exact apart appId before held
    · exact apart appId before (kept.resolve_right fun different => different rfl)
  | leave other =>
    obtain ⟨held, different⟩ := mem_activeAfter_leave.mp active
    rcases mem_cleanedAfter_leave.mp cleaned with before | ⟨same, -⟩
    · exact apart appId before held
    · exact different same
  | _ => exact apart appId cleaned active

open Coordinator

/-- Every turn keeps the calls in their phases. -/
theorem take_sound (coordinator : Coordinator) (turn : Turn) (sound : Sound coordinator) :
    Sound (coordinator.take dependencies turn).1 := by
  cases turn with
  | apply input =>
    simp only [take]
    split
    · exact sound
    · refine ⟨fun call member => ?_, sound.apart⟩
      rcases List.mem_append.mp member with before | added
      · exact sound.lawful call before
      · cases List.mem_singleton.mp added
        exact performApply_phases
  | answer index reply =>
    simp only [take]
    split
    · rename_i input effect next phase found
      refine ⟨fun call member => ?_, activeAfter_apart sound.apart phase effect⟩
      rcases List.mem_or_eq_of_mem_set member with before | rfl
      · exact sound.lawful call before
      · exact (sound.lawful _ (List.mem_of_getElem? found)).2 _
    · exact sound

/-! ## What orderly turns keep -/

/-- The running calls are one for each application, and theirs is active or among the cleaned ones. -/
structure Guarded (coordinator : Coordinator) : Prop where
  single : ∀ first second appId, coordinator.Running first appId →
    coordinator.Running second appId → first = second
  covered : ∀ index appId, coordinator.Running index appId →
    appId ∈ coordinator.active ∨ appId ∈ coordinator.cleaned

theorem answerOf_join (active : List String) (reply : (effect : Effect) → effect.Answer)
    (appId : String) : answerOf active reply (.join appId) = !active.contains appId := rfl

theorem Phase.observe_join (appId : String) (available : Bool) :
    Phase.observe .reading (.join appId) available =
      if available then .admitted appId else .refused := by
  cases available with
  | true => rfl
  | false => rfl

/-- A call is admitted after an answer if it was before, or has just joined the active ones. -/
theorem Phase.admitted_of_answer {reply : (effect : Effect) → effect.Answer}
    (admitted : phase.observe effect (answerOf active reply effect) = .admitted appId) :
    (phase = .admitted appId ∧ ∀ other, effect ≠ .leave other) ∨
      (effect = .join appId ∧ appId ∉ active) := by
  cases effect with
  | join other =>
    cases phase with
    | reading =>
      rw [answerOf_join, Phase.observe_join] at admitted
      by_cases held : active.contains other
      · rw [held] at admitted
        cases admitted
      · rw [Bool.not_eq_true] at held
        rw [held] at admitted
        cases admitted
        exact .inr ⟨rfl, by simpa using held⟩
    | admitted held => exact .inl ⟨admitted, nofun⟩
    | refused => cases admitted
    | ended refused => cases admitted
  | leave other => cases admitted
  | _ => exact .inl ⟨admitted, nofun⟩

/-- A call that is running keeps an application covered when it does not leave. -/
theorem covered_of_stay (covered : appId ∈ coordinator.active ∨ appId ∈ coordinator.cleaned)
    (stays : effect = .leave appId → phase ≠ .admitted appId) :
    appId ∈ activeAfter coordinator.active effect ∨
      appId ∈ cleanedAfter coordinator phase effect := by
  cases effect with
  | join other =>
    rw [mem_activeAfter_join, mem_cleanedAfter_join]
    by_cases same : appId = other
    · exact .inl (.inr same)
    · rcases covered with active | cleaned
      · exact .inl (.inl active)
      · exact .inr ⟨cleaned, .inr same⟩
  | leave other =>
    rw [mem_activeAfter_leave, mem_cleanedAfter_leave]
    by_cases same : appId = other
    · subst same
      exact .inr (.inr ⟨rfl, stays rfl⟩)
    · rcases covered with active | cleaned
      · exact .inl ⟨active, same⟩
      · exact .inr (.inl cleaned)
  | _ => exact covered

section Turns

variable {coordinator : Coordinator} {call : Call} {active cleaned : List String} {index : Nat}
  {turn : Turn}

/-- A new call is not running. -/
theorem running_append (reading : call.phase = .reading) :
    Coordinator.Running ⟨active, coordinator.calls ++ [call], cleaned⟩ index appId ↔
      coordinator.Running index appId := by
  unfold Coordinator.Running
  rcases Nat.lt_trichotomy index coordinator.calls.length with before | same | after
  · rw [List.getElem?_append_left before]
  · simp [same, reading]
  · rw [List.getElem?_eq_none (by simp; omega), List.getElem?_eq_none (by omega)]

/-- The calls that an answer does not reach run as before. -/
theorem running_set {before : Call} (found : coordinator.calls[index]? = some before)
    {other : Nat} :
    Coordinator.Running ⟨active, coordinator.calls.set index call, cleaned⟩ other appId ↔
      if other = index then call.phase = .admitted appId else coordinator.Running other appId := by
  obtain ⟨bound, -⟩ := List.getElem?_eq_some_iff.mp found
  unfold Coordinator.Running
  by_cases same : other = index
  · subst same
    simp [List.getElem?_set_self bound]
  · simp [List.getElem?_set_ne (Ne.symm same), same]

/-- An orderly turn keeps the running calls guarded. -/
theorem take_guarded (sound : Sound coordinator) (guarded : Guarded coordinator)
    (orderly : Orderly coordinator turn) : Guarded (coordinator.take dependencies turn).1 := by
  cases turn with
  | apply input =>
    simp only [take]
    split
    · exact guarded
    · exact ⟨fun first second appId one two => guarded.single first second appId
        ((running_append rfl).mp one) ((running_append rfl).mp two),
        fun index appId running => guarded.covered index appId ((running_append rfl).mp running)⟩
  | answer index reply =>
    simp only [take]
    split
    · rename_i input effect next phase found
      have permitted := sound.permits found
      -- A call admitted by this turn finds no other one that is running.
      have alone : ∀ other appId, other ≠ index → coordinator.Running other appId →
          phase.observe effect (answerOf coordinator.active reply effect) ≠ .admitted appId := by
        intro other appId different running admitted
        rcases Phase.admitted_of_answer admitted with ⟨before, -⟩ | ⟨rfl, inactive⟩
        · refine different (guarded.single other index appId running ?_)
          simp [Coordinator.Running, found, before]
        · have cleaned := (guarded.covered other appId running).resolve_left inactive
          exact orderly index reply other appId rfl ⟨input, next, phase, found⟩ running cleaned
      refine ⟨fun first second appId one two => ?_, fun other appId running => ?_⟩
      · rw [running_set found] at one two
        by_cases left : first = index
        · by_cases right : second = index
          · rw [left, right]
          · rw [if_pos left] at one
            rw [if_neg right] at two
            exact absurd one (alone second appId right two)
        · rw [if_neg left] at one
          by_cases right : second = index
          · rw [if_pos right] at two
            exact absurd two (alone first appId left one)
          · rw [if_neg right] at two
            exact guarded.single first second appId one two
      · rw [running_set found] at running
        by_cases same : other = index
        · rw [if_pos same] at running
          rcases Phase.admitted_of_answer running with ⟨before, stays⟩ | ⟨rfl, -⟩
          · refine covered_of_stay (guarded.covered index appId ?_) fun left => absurd left (stays _)
            simp [Coordinator.Running, found, before]
          · exact .inl (mem_activeAfter_join.mpr (.inr rfl))
        · rw [if_neg same] at running
          refine covered_of_stay (guarded.covered other appId running) fun left admitted => ?_
          refine same (guarded.single other index appId running ?_)
          simp [Coordinator.Running, found, admitted]
    · exact guarded

/-- A turn is exclusive exactly when it is orderly. -/
theorem exclusive_iff (sound : Sound coordinator) (guarded : Guarded coordinator) :
    Exclusive dependencies coordinator turn ↔ Orderly coordinator turn := by
  constructor
  · rintro exclusive index reply other appId rfl ⟨input, next, phase, found⟩ running cleaned
    have refused := exclusive.refuses index reply other appId rfl ⟨input, next, phase, found⟩ running
    have inactive : coordinator.active.contains appId = false := by
      simpa using sound.apart appId cleaned
    simp only [take, found, answerOf_join, inactive] at refused
    cases refused
  · intro orderly
    have kept := take_guarded dependencies sound guarded orderly
    refine ⟨kept.single, ?_, ?_, ?_⟩
    · rintro index reply other appId rfl ⟨input, next, phase, found⟩ running
      have uncleaned := orderly index reply other appId rfl ⟨input, next, phase, found⟩ running
      have active : coordinator.active.contains appId :=
        List.contains_iff_mem.mpr ((guarded.covered other appId running).resolve_right uncleaned)
      simp only [take, found, answerOf_join, active, Bool.not_true]
    · rintro index reply effect rfl ⟨input, next, phase, found⟩ unadmitted
      have permitted := sound.permits found
      cases phase with
      | reading => exact permitted
      | admitted appId =>
        refine absurd ?_ (unadmitted appId)
        simp [Coordinator.Running, found]
      | refused => exact permitted.2
      | ended refused => exact permitted.elim
    · intro call member outcome refused returned
      have returns := (take_sound dependencies coordinator turn sound).lawful call member
      rw [returned] at returns
      exact returns.2 refused

end Turns

/-- For every interleaving of calls: every turn keeps the calls of each application apart exactly
when every turn is orderly. -/
theorem applies_exclusive (turns : List Turn) :
    Machine.Along (Coordinator.take dependencies) (Exclusive dependencies) .initial turns ↔
      Machine.Along (Coordinator.take dependencies) Orderly .initial turns := by
  have first : Sound .initial ∧ Guarded .initial :=
    ⟨⟨nofun, nofun⟩, ⟨fun _ _ _ => nofun, fun _ _ => nofun⟩⟩
  have kept : ∀ coordinator turn, Sound coordinator ∧ Guarded coordinator →
      Orderly coordinator turn → Sound (coordinator.take dependencies turn).1 ∧
        Guarded (coordinator.take dependencies turn).1 :=
    fun coordinator turn inv orderly => ⟨take_sound dependencies coordinator turn inv.1,
      take_guarded dependencies inv.1 inv.2 orderly⟩
  exact Machine.along_congr_of_kept kept
    (fun coordinator turn inv => exclusive_iff dependencies inv.1 inv.2) first turns

/-- Three calls for one change: the second is refused while the first is running, and takes its
application out of the active ones; then the third is answered. -/
def overlapping : List Turn :=
  [.apply portInput, .apply ⟨"CHG_1", "RUN_2", "d1"⟩, .apply ⟨"CHG_1", "RUN_3", "d1"⟩] ++
    [0, 0, 0, 1, 1, 1, 1, 2, 2, 2].map fun index => .answer index (answerAll fun _ => false)

/-- The run that a turn asks for. -/
def Turn.runId : Turn → Option String
  | .apply input => some input.runId
  | .answer _ _ => none

/-- Those calls are for different runs, and the first and the third of them run at once. -/
theorem overlapping_admitted :
    (overlapping.filterMap Turn.runId).Nodup ∧
      ¬ Machine.Along (Coordinator.take agentDependencies) (Exclusive agentDependencies) .initial
        overlapping := by
  refine ⟨by decide, fun along => ?_⟩
  have last := (Machine.along_iff _ _).mp along overlapping.dropLast
    (.answer 2 (answerAll fun _ => false)) [] rfl
  have first : (Machine.after (take agentDependencies) .initial overlapping).Running 0
      "edutrack-api" := by
    decide +kernel
  have third : (Machine.after (take agentDependencies) .initial overlapping).Running 2
      "edutrack-api" := by
    decide +kernel
  have same : 0 = 2 := last.single 0 2 "edutrack-api" first third
  cases same

end NancyMan.Agent
