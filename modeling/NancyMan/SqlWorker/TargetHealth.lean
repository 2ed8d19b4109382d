import Mathlib.Data.List.Nodup
import NancyMan.Lib.Machine

/-!
# Health of the database targets

The targets are probed when they are listed, at most every five seconds. A probe is decided by its
answer or by its deadline, whichever comes first, and a probe that was given up at its deadline may
go on and answer late. `target_status_truthful` says that each target keeps the outcome of its most
recently started probe that has been decided, whatever comes late, and that at most two probes of a
target run at once.
-/
namespace NancyMan.SqlWorker

open List (countP_cons map_congr_left map_cons map_map mem_cons mem_map not_mem_nil)

/-- `TargetEntry['status']`. -/
inductive TargetStatus where
  | available
  | unavailable
  | disabled
  deriving DecidableEq

/-- What an entry says of its target. -/
inductive TargetKind where
  | available
  | unavailable (code : String)
  | disabled

structure TargetEntry where
  id : String
  label : String
  kind : TargetKind

/-- `entry.status`. -/
def TargetEntry.status (entry : TargetEntry) : TargetStatus :=
  match entry.kind with
  | .available => .available
  | .unavailable _ => .unavailable
  | .disabled => .disabled

/-- How far a probe is: it runs, its answer is known, or it has been counted off. -/
inductive ProbePhase where
  | running
  | answered
  | finished
  deriving DecidableEq

/-- A probe with its deadline, and what decided it. -/
structure Probe where
  id : Nat
  phase : ProbePhase
  isArmed : Bool
  timedOut : Bool
  outcome : Option TargetStatus

def statusOf (isAvailable : Bool) : TargetStatus :=
  if isAvailable then .available else .unavailable

namespace Probe

def answer (isAvailable : Bool) (probe : Probe) : Probe :=
  { probe with phase := .answered, outcome := probe.outcome.or (some (statusOf isAvailable)) }

def finish (probe : Probe) : Probe := { probe with phase := .finished, isArmed := false }

/-- The deadline of a probe decides it unless its answer has. -/
def timeOut (probe : Probe) : Probe :=
  { probe with
    isArmed := false, timedOut := true, outcome := probe.outcome.or (some .unavailable) }

@[simp] theorem id_answer (isAvailable : Bool) (probe : Probe) :
    (probe.answer isAvailable).id = probe.id := rfl

@[simp] theorem id_finish (probe : Probe) : probe.finish.id = probe.id := rfl

@[simp] theorem id_timeOut (probe : Probe) : probe.timeOut.id = probe.id := rfl

end Probe

/-- `TargetState`, with the probes that were started, the newest first. -/
structure TargetState where
  entry : TargetEntry
  status : TargetStatus
  lastProbeAt : Int
  latestProbeId : Nat
  activeProbes : Int
  inFlight : Option Nat
  probes : List Probe

/-- `TARGET_HEALTH_INTERVAL_MS`. -/
def targetHealthInterval : Int := 5000

def maxActiveProbes : Int := 2

namespace TargetState

def ofEntry (entry : TargetEntry) (now : Int) : TargetState :=
  ⟨entry, entry.status, now, 0, 0, none, []⟩

def probe? (state : TargetState) (id : Nat) : Option Probe :=
  state.probes.find? fun probe => probe.id = id

def updateProbe (state : TargetState) (id : Nat) (change : Probe → Probe) : TargetState :=
  { state with probes := state.probes.map fun probe => if probe.id = id then change probe else probe }

/-- `refresh`, up to where it returns the promise of the probe. -/
def refresh (state : TargetState) (now : Int) : TargetState :=
  if state.entry.status ≠ .available then state
  else if state.inFlight.isSome then state
  else if now - state.lastProbeAt < targetHealthInterval then state
  else if maxActiveProbes ≤ state.activeProbes then state
  else
    { state with
      lastProbeAt := now
      latestProbeId := state.latestProbeId + 1
      activeProbes := state.activeProbes + 1
      inFlight := some (state.latestProbeId + 1)
      probes := ⟨state.latestProbeId + 1, .running, true, false, none⟩ :: state.probes }

/-- A probe answers: the operation's second `then`. -/
def answer (state : TargetState) (id : Nat) (isAvailable : Bool) : TargetState :=
  match state.probe? id with
  | none => state
  | some probe =>
    if probe.phase ≠ .running then state
    else
      let answered := state.updateProbe id (Probe.answer isAvailable)
      if id = state.latestProbeId ∧ probe.timedOut = false then
        { answered with status := statusOf isAvailable }
      else answered

/-- The operation's `finally`, which is a microtask after the answer: no timer runs between them. -/
def finish (state : TargetState) (id : Nat) : TargetState :=
  match state.probe? id with
  | none => state
  | some probe =>
    if probe.phase ≠ .answered then state
    else
      { state.updateProbe id Probe.finish with activeProbes := state.activeProbes - 1 }

/-- The deadline of a probe passes. -/
def timeOut (state : TargetState) (id : Nat) : TargetState :=
  match state.probe? id with
  | none => state
  | some probe =>
    if probe.isArmed = false ∨ probe.phase = .answered then state
    else
      let timed := state.updateProbe id Probe.timeOut
      if id = state.latestProbeId then { timed with status := .unavailable } else timed

/-- The promise of a probe is resolved, and no longer shared. -/
def clear (state : TargetState) (id : Nat) : TargetState :=
  match state.probe? id with
  | none => state
  | some probe =>
    if (probe.phase = .finished ∨ probe.timedOut = true) ∧ state.inFlight = some id then
      { state with inFlight := none }
    else state

def latestOutcome (state : TargetState) : TargetStatus :=
  (state.probes.findSome? Probe.outcome).getD state.entry.status

def running (state : TargetState) : List Probe :=
  state.probes.filter fun probe => probe.phase = .running

/-- A member of `summaries`: the identifier, the label, the status and why it is unavailable. -/
def summary (state : TargetState) : String × String × TargetStatus × Option String :=
  (state.entry.id, state.entry.label, state.status,
    if state.status = .unavailable then
      match state.entry.kind with
      | .unavailable code => some code
      | _ => some "DATABASE_TARGET_UNAVAILABLE"
    else none)

end TargetState

abbrev TargetRegistry := List TargetState

/-- `states.set(entry.id, …)`. -/
def TargetRegistry.set (registry : TargetRegistry) (state : TargetState) : TargetRegistry :=
  if registry.any fun other => other.entry.id = state.entry.id then
    registry.map fun other => if other.entry.id = state.entry.id then state else other
  else registry ++ [state]

/-- `createTargetRegistry`, given when each entry is read. -/
def createTargetRegistry (entries : List TargetEntry) (now : TargetEntry → Int) : TargetRegistry :=
  entries.foldl (fun registry entry => registry.set (.ofEntry entry (now entry))) []

/-- What happens to a registry. -/
inductive RegistryEvent where
  /-- `summaries`, given when each target is refreshed. -/
  | summaries (now : String → Int)
  | answer (target : String) (id : Nat) (isAvailable : Bool)
  | finish (target : String) (id : Nat)
  | timeOut (target : String) (id : Nat)
  | clear (target : String) (id : Nat)

namespace TargetRegistry

/-- Change the state of a target. -/
def modify (registry : TargetRegistry) (target : String) (change : TargetState → TargetState) :
    TargetRegistry :=
  registry.map fun state => if state.entry.id = target then change state else state

/-- A step of a registry. -/
def step (registry : TargetRegistry) : RegistryEvent → TargetRegistry × Unit
  | .summaries now => (registry.map fun state => state.refresh (now state.entry.id), ())
  | .answer target id isAvailable => (registry.modify target fun state => state.answer id isAvailable, ())
  | .finish target id => (registry.modify target fun state => state.finish id, ())
  | .timeOut target id => (registry.modify target fun state => state.timeOut id, ())
  | .clear target id => (registry.modify target fun state => state.clear id, ())

/-- `get`, with the code of its error. -/
def get (registry : TargetRegistry) (isDatabaseTargetId : String → Bool) (target : String) :
    Except String TargetEntry :=
  if !isDatabaseTargetId target then .error "DATABASE_TARGET_INVALID"
  else
    match registry.find? fun state => state.entry.id = target with
    | none => .error "DATABASE_TARGET_UNAVAILABLE"
    | some state =>
      match state.status, state.entry.kind with
      | .disabled, _ => .error "DATABASE_TARGET_UNAVAILABLE"
      | .unavailable, .unavailable code =>
        .error (if code = "" then "DATABASE_TARGET_UNAVAILABLE" else code)
      | .unavailable, _ => .error "DATABASE_TARGET_UNAVAILABLE"
      | .available, .available => .ok state.entry
      | .available, _ => .error "DATABASE_TARGET_UNAVAILABLE"

/-- A probe of a target was given up at its deadline. -/
def TimedOut (registry : TargetRegistry) (target : String) (id : Nat) : Prop :=
  ∀ state ∈ registry, state.entry.id = target →
    ∀ probe, state.probe? id = some probe → probe.timedOut = true

def IsTruthful (registry : TargetRegistry) : Prop :=
  ∀ state ∈ registry, state.status = state.latestOutcome ∧ state.running.length ≤ 2

/-- The late answer of a probe that was given up, and its end, change no status. -/
def IgnoresLate (registry : TargetRegistry) : Prop :=
  ∀ target id, registry.TimedOut target id → ∀ event : RegistryEvent,
    (event = .finish target id ∨ ∃ isAvailable, event = .answer target id isAvailable) →
    (registry.step event).1.map TargetState.status = registry.map TargetState.status

end TargetRegistry

/-! ## One target -/

namespace TargetState

variable {state : TargetState}

/-- The numbers up to one, the last first. -/
def downFrom : Nat → List Nat
  | 0 => []
  | n + 1 => (n + 1) :: downFrom n

/-- The numbers up to one are at most it. -/
theorem le_of_mem_downFrom {n id : Nat} (member : id ∈ downFrom n) : id ≤ n := by
  induction n with
  | zero => cases member
  | succ n ih =>
    rcases mem_cons.mp member with first | later
    · exact Nat.le_of_eq first
    · have bound := ih later
      omega

theorem nodup_downFrom (n : Nat) : (downFrom n).Nodup := by
  induction n with
  | zero => exact List.nodup_nil
  | succ n ih =>
    refine List.nodup_cons.mpr ⟨fun member => ?_, ih⟩
    have bound := le_of_mem_downFrom member
    omega

def isCounted (probe : Probe) : Bool := probe.phase ≠ .finished

/-- A probe is decided by its answer or its deadline, and its deadline passes once. -/
structure IsWell (probe : Probe) : Prop where
  decided : probe.outcome = none ↔ probe.phase = .running ∧ probe.timedOut = false
  timed : probe.timedOut = true → probe.isArmed = false
  disarmed : probe.phase = .finished → probe.isArmed = false

/-- The probes are numbered in order, the unfinished ones are counted, and a probe that nothing has
decided is the latest one, which is shared. -/
structure IsSound (state : TargetState) : Prop where
  numbered : state.probes.map Probe.id = downFrom state.latestProbeId
  counted : state.activeProbes = (state.probes.countP isCounted : Nat)
  bounded : state.activeProbes ≤ maxActiveProbes
  well : ∀ probe ∈ state.probes, IsWell probe
  shared : ∀ probe ∈ state.probes, probe.outcome = none → state.inFlight = some probe.id
  latest : ∀ probe ∈ state.probes, probe.outcome = none → probe.id = state.latestProbeId
  truthful : state.status = state.latestOutcome

theorem mem_of_probe? {id : Nat} {probe : Probe} (found : state.probe? id = some probe) :
    probe ∈ state.probes ∧ probe.id = id :=
  ⟨List.mem_of_find?_eq_some found, by simpa using List.find?_some found⟩

variable (sound : state.IsSound)

include sound

theorem IsSound.unique {left right : Probe} (first : left ∈ state.probes)
    (second : right ∈ state.probes) (same : left.id = right.id) : left = right := by
  have distinct : (state.probes.map Probe.id).Nodup := by
    rw [sound.numbered]
    exact nodup_downFrom _
  exact List.inj_on_of_nodup_map distinct first second same

omit sound in
/-- A changed probe is another one or the changed one. -/
theorem mem_updateProbe {id : Nat} {change : Probe → Probe} {probe : Probe}
    (member : probe ∈ (state.updateProbe id change).probes) :
    (probe ∈ state.probes ∧ probe.id ≠ id) ∨
      ∃ before ∈ state.probes, before.id = id ∧ probe = change before := by
  obtain ⟨before, present, rfl⟩ := mem_map.mp member
  split
  · next same => exact .inr ⟨before, present, same, rfl⟩
  · next other => exact .inl ⟨present, other⟩

omit sound in
/-- Changing a probe under its number keeps the numbers. -/
theorem map_id_updateProbe {id : Nat} {change : Probe → Probe}
    (same : ∀ probe, (change probe).id = probe.id) :
    (state.updateProbe id change).probes.map Probe.id = state.probes.map Probe.id := by
  unfold updateProbe
  rw [map_map]
  apply map_congr_left
  intro probe _
  show (if probe.id = id then change probe else probe).id = probe.id
  split
  · exact same probe
  · rfl

theorem IsSound.distinct : (state.probes.map Probe.id).Nodup := by
  rw [sound.numbered]
  exact nodup_downFrom _

/-- A change of one probe that keeps whether it is counted keeps the count. -/
theorem countP_updateProbe {probe : Probe} (member : probe ∈ state.probes)
    {change : Probe → Probe} (kept : isCounted (change probe) = isCounted probe) :
    (state.updateProbe probe.id change).probes.countP isCounted =
      state.probes.countP isCounted := by
  unfold updateProbe
  rw [List.countP_map]
  apply List.countP_congr
  intro other present
  rw [Function.comp]
  split
  · next same =>
    rw [sound.unique present member same, kept]
  · exact .rfl

omit sound in
/-- Counting off one probe of a list with distinct numbers lowers the count by one. -/
theorem countP_map_counted {probes : List Probe} (distinct : (probes.map Probe.id).Nodup)
    {probe : Probe} (member : probe ∈ probes) {change : Probe → Probe} (before : isCounted probe)
    (after : isCounted (change probe) = false) :
    (probes.map fun other => if other.id = probe.id then change other else other).countP isCounted +
      1 = probes.countP isCounted := by
  induction probes with
  | nil => cases member
  | cons head rest ih =>
    have heads : head.id ∉ rest.map Probe.id ∧ (rest.map Probe.id).Nodup :=
      List.nodup_cons.mp distinct
    rw [map_cons, countP_cons, countP_cons]
    rcases mem_cons.mp member with first | later
    · have others : (rest.map fun other =>
          if other.id = probe.id then change other else other) = rest := by
        refine (map_congr_left fun other present => if_neg fun same => ?_).trans (List.map_id rest)
        apply heads.1
        rw [← first, ← same]
        exact List.mem_map_of_mem present
      rw [others, ← first, if_pos rfl, before, after]
      simp
    · have different : head.id ≠ probe.id := fun same =>
        heads.1 (same ▸ List.mem_map_of_mem later)
      have counted := ih heads.2 later
      rw [if_neg different]
      omega

/-- A decision of the latest probe is the latest outcome. -/
theorem latestOutcome_latest {probe : Probe} (member : probe ∈ state.probes)
    (latest : probe.id = state.latestProbeId) {change : Probe → Probe} {status : TargetStatus}
    (decided : (change probe).outcome = some status) :
    (state.updateProbe probe.id change).latestOutcome = status := by
  have numbered := sound.numbered
  unfold latestOutcome updateProbe
  cases all : state.probes with
  | nil =>
    rw [all] at member
    cases member
  | cons head rest =>
    have first : head.id = probe.id := by
      rw [latest]
      rw [all, map_cons] at numbered
      cases count : state.latestProbeId with
      | zero =>
        rw [count] at numbered
        cases numbered
      | succ n =>
        rw [count] at numbered
        exact (List.cons.inj numbered).1
    have same : head = probe := by
      refine sound.unique ?_ member first
      rw [all]
      exact .head _
    rw [map_cons, List.findSome?_cons, if_pos first, same, decided]
    rfl

/-- A change that keeps the decision of a probe keeps the latest outcome. -/
theorem latestOutcome_kept {probe : Probe} (member : probe ∈ state.probes)
    {change : Probe → Probe} (kept : (change probe).outcome = probe.outcome) :
    (state.updateProbe probe.id change).latestOutcome = state.latestOutcome := by
  have outcomes : (state.updateProbe probe.id change).probes.map Probe.outcome =
      state.probes.map Probe.outcome := by
    unfold updateProbe
    rw [map_map]
    apply map_congr_left
    intro other present
    rw [Function.comp]
    split
    · next same =>
      rw [sound.unique present member same, kept]
    · rfl
  have expand : ∀ probes : List Probe,
      probes.findSome? Probe.outcome = (probes.map Probe.outcome).findSome? fun outcome => outcome :=
    fun probes => (List.findSome?_map (f := Probe.outcome) (p := fun outcome => outcome)).symm
  unfold latestOutcome
  rw [expand, outcomes, ← expand]
  rfl

/-- A sound state stays sound where one probe changes well, is decided if it was, and the count and
the status follow. -/
theorem IsSound.change {probe : Probe} (member : probe ∈ state.probes)
    {change : Probe → Probe} (same : ∀ other, (change other).id = other.id)
    (well : IsWell (change probe)) (kept : (change probe).outcome = none → probe.outcome = none)
    {changed : TargetState}
    (probes : changed.probes = (state.updateProbe probe.id change).probes)
    (latest : changed.latestProbeId = state.latestProbeId)
    (inFlight : changed.inFlight = state.inFlight)
    (counted : changed.activeProbes = (changed.probes.countP isCounted : Nat))
    (bounded : changed.activeProbes ≤ state.activeProbes)
    (truthful : changed.status = changed.latestOutcome) : changed.IsSound := by
  have open_before : ∀ other ∈ changed.probes, other.outcome = none →
      ∃ before ∈ state.probes, before.id = other.id ∧ before.outcome = none := by
    intro other present undecided
    rw [probes] at present
    rcases mem_updateProbe present with ⟨old, -⟩ | ⟨before, old, named, rfl⟩
    · exact ⟨other, old, rfl, undecided⟩
    · have this : before = probe := sound.unique old member named
      rw [this] at undecided
      exact ⟨probe, member, by rw [this, same], kept undecided⟩
  refine ⟨?_, counted, Int.le_trans bounded sound.bounded, fun other present => ?_,
    fun other present undecided => ?_, fun other present undecided => ?_, truthful⟩
  · rw [probes, map_id_updateProbe same, latest, sound.numbered]
  · rw [probes] at present
    rcases mem_updateProbe present with ⟨old, -⟩ | ⟨before, old, named, rfl⟩
    · exact sound.well other old
    · rw [sound.unique old member named]
      exact well
  · obtain ⟨before, old, named, undecided⟩ := open_before other present undecided
    rw [inFlight, ← named]
    exact sound.shared before old undecided
  · obtain ⟨before, old, named, undecided⟩ := open_before other present undecided
    rw [latest, ← named]
    exact sound.latest before old undecided

/-- Starting a probe keeps a state sound. -/
theorem IsSound.refresh (now : Int) : (state.refresh now).IsSound := by
  unfold TargetState.refresh
  split
  · exact sound
  split
  · exact sound
  split
  · exact sound
  split
  · exact sound
  next idle _ room =>
    have settled : ∀ probe ∈ state.probes, probe.outcome ≠ none := fun probe member undecided =>
      idle (by rw [sound.shared probe member undecided]; rfl)
    refine ⟨?_, ?_, ?_, fun probe member => ?_, fun probe member undecided => ?_,
      fun probe member undecided => ?_, ?_⟩
    · rw [map_cons, sound.numbered]
      rfl
    · rw [countP_cons, sound.counted]
      simp [isCounted]
    · dsimp only
      omega
    · rcases mem_cons.mp member with rfl | old
      · exact ⟨iff_of_true rfl ⟨rfl, rfl⟩, (fun timed => by cases timed), fun ended => by cases ended⟩
      · exact sound.well probe old
    · rcases mem_cons.mp member with rfl | old
      · rfl
      · exact absurd undecided (settled probe old)
    · rcases mem_cons.mp member with rfl | old
      · rfl
      · exact absurd undecided (settled probe old)
    · exact sound.truthful

omit sound in
/-- A probe that answered is decided. -/
theorem isWell_answer {probe : Probe} (well : IsWell probe) (isAvailable : Bool) :
    IsWell (probe.answer isAvailable) ∧ (probe.answer isAvailable).outcome ≠ none := by
  have decides : (probe.answer isAvailable).outcome ≠ none := by
    unfold Probe.answer
    cases probe.outcome <;> exact Option.some_ne_none _
  refine ⟨⟨iff_of_false decides ?_, well.timed, ?_⟩, decides⟩
  · rintro ⟨running, -⟩
    cases running
  · intro ended
    cases ended

/-- An answer keeps a state sound: it is late, or it is that of the latest probe. -/
theorem IsSound.answer (id : Nat) (isAvailable : Bool) : (state.answer id isAvailable).IsSound := by
  unfold TargetState.answer
  split
  · exact sound
  next probe found =>
  obtain ⟨member, rfl⟩ := mem_of_probe? found
  split
  · exact sound
  next runs =>
  have running : probe.phase = .running := Decidable.not_not.mp runs
  have well := sound.well probe member
  obtain ⟨answered, decides⟩ := isWell_answer well isAvailable
  have counted : (state.updateProbe probe.id (Probe.answer isAvailable)).probes.countP isCounted =
      state.probes.countP isCounted :=
    countP_updateProbe sound member (by simp [isCounted, running, Probe.answer])
  split
  · next onTime =>
    have undecided : probe.outcome = none := well.decided.mpr ⟨running, onTime.2⟩
    refine sound.change member (Probe.id_answer isAvailable) answered (fun open_ => absurd open_ decides)
      rfl rfl rfl (by rw [counted]; exact sound.counted) (Int.le_refl _) ?_
    refine (latestOutcome_latest sound member onTime.1 ?_).symm
    unfold Probe.answer
    rw [undecided]
    rfl
  · next late =>
    have decided : probe.outcome ≠ none := fun undecided =>
      late ⟨sound.latest probe member undecided, (well.decided.mp undecided).2⟩
    obtain ⟨status, outcome⟩ := Option.ne_none_iff_exists'.mp decided
    refine sound.change member (Probe.id_answer isAvailable) answered (fun open_ => absurd open_ decides)
      rfl rfl rfl (by rw [counted]; exact sound.counted) (Int.le_refl _) ?_
    rw [latestOutcome_kept sound member]
    · exact sound.truthful
    · unfold Probe.answer
      rw [outcome]
      rfl

/-- Counting a probe off keeps a state sound. -/
theorem IsSound.finish (id : Nat) : (state.finish id).IsSound := by
  unfold TargetState.finish
  split
  · exact sound
  next probe found =>
  obtain ⟨member, rfl⟩ := mem_of_probe? found
  split
  · exact sound
  next known =>
  have answered : probe.phase = .answered := Decidable.not_not.mp known
  have well := sound.well probe member
  have decided : probe.outcome ≠ none := by
    intro undecided
    have running := (well.decided.mp undecided).1
    rw [answered] at running
    cases running
  have finished : IsWell probe.finish := by
    refine ⟨iff_of_false decided ?_, fun _ => rfl, fun _ => rfl⟩
    rintro ⟨running, -⟩
    cases running
  have counted : (state.updateProbe probe.id Probe.finish).probes.countP isCounted + 1 =
      state.probes.countP isCounted :=
    countP_map_counted sound.distinct member (by simp [isCounted, answered]) rfl
  refine sound.change member Probe.id_finish finished (fun open_ => open_) rfl rfl rfl ?_ ?_ ?_
  · have before := sound.counted
    dsimp only
    omega
  · dsimp only
    omega
  · exact sound.truthful.trans (latestOutcome_kept sound member rfl).symm

omit sound in
/-- A probe whose timer is armed runs and is not decided, unless its answer is known. -/
theorem undecided_of_armed {probe : Probe} (well : IsWell probe) (armed : probe.isArmed ≠ false)
    (waits : probe.phase ≠ .answered) : probe.outcome = none := by
  apply well.decided.mpr
  constructor
  · cases phase : probe.phase with
    | running => rfl
    | answered => exact absurd phase waits
    | finished => exact absurd (well.disarmed phase) armed
  · cases timed : probe.timedOut with
    | false => rfl
    | true => exact absurd (well.timed timed) armed

/-- A deadline keeps a state sound: the probe had not answered, and is the latest one. -/
theorem IsSound.timeOut (id : Nat) : (state.timeOut id).IsSound := by
  unfold TargetState.timeOut
  split
  · exact sound
  next probe found =>
  obtain ⟨member, rfl⟩ := mem_of_probe? found
  split
  · exact sound
  next due =>
  obtain ⟨armed, waits⟩ := not_or.mp due
  have undecided := undecided_of_armed (sound.well probe member) armed waits
  have latest := sound.latest probe member undecided
  have outcome : probe.timeOut.outcome = some .unavailable := by
    unfold Probe.timeOut
    rw [undecided]
    rfl
  have timed : IsWell probe.timeOut := by
    refine ⟨iff_of_false (by rw [outcome]; exact Option.some_ne_none _) ?_, fun _ => rfl,
      fun _ => rfl⟩
    rintro ⟨-, onTime⟩
    cases onTime
  have counted : (state.updateProbe probe.id Probe.timeOut).probes.countP isCounted =
      state.probes.countP isCounted := countP_updateProbe sound member rfl
  rw [if_pos latest]
  refine sound.change member Probe.id_timeOut timed (fun _ => undecided) rfl rfl rfl
    (by rw [counted]; exact sound.counted) (Int.le_refl _) ?_
  exact (latestOutcome_latest sound member latest outcome).symm

/-- A resolved promise that is no longer shared keeps a state sound: its probe is decided. -/
theorem IsSound.clear (id : Nat) : (state.clear id).IsSound := by
  unfold TargetState.clear
  split
  · exact sound
  next probe found =>
  obtain ⟨member, rfl⟩ := mem_of_probe? found
  split
  · next resolved =>
    have settled : ∀ other ∈ state.probes, other.outcome ≠ none := by
      intro other present undecided
      have shared := (sound.shared other present undecided).symm.trans resolved.2
      have same := sound.unique present member (Option.some.inj shared)
      obtain ⟨runs, onTime⟩ := (sound.well other present).decided.mp undecided
      rcases resolved.1 with ended | timed
      · rw [← same, runs] at ended
        cases ended
      · rw [← same, onTime] at timed
        cases timed
    exact ⟨sound.numbered, sound.counted, sound.bounded, sound.well,
      fun other present undecided => absurd undecided (settled other present),
      fun other present undecided => absurd undecided (settled other present), sound.truthful⟩
  · exact sound

/-- At most two probes of a sound state run. -/
theorem IsSound.running_le : state.running.length ≤ 2 := by
  have runs : state.running.length ≤ state.probes.countP isCounted := by
    unfold running
    rw [← List.countP_eq_length_filter]
    apply List.countP_mono_left
    intro probe _ running
    unfold isCounted
    rw [of_decide_eq_true running]
    rfl
  have counted := sound.counted
  have bounded := sound.bounded
  unfold maxActiveProbes at bounded
  omega

omit sound

/-- A state begins sound. -/
theorem isSound_ofEntry (entry : TargetEntry) (now : Int) : (ofEntry entry now).IsSound where
  numbered := rfl
  counted := rfl
  bounded := by
    show (0 : Int) ≤ maxActiveProbes
    decide
  well := fun _ member => absurd member not_mem_nil
  shared := fun _ member => absurd member not_mem_nil
  latest := fun _ member => absurd member not_mem_nil
  truthful := rfl

/-- The answer of a probe that was given up keeps the status. -/
theorem status_answer_late (state : TargetState) {id : Nat} (isAvailable : Bool)
    (late : ∀ probe, state.probe? id = some probe → probe.timedOut) :
    (state.answer id isAvailable).status = state.status := by
  unfold answer
  split
  · rfl
  next probe found =>
  split
  · rfl
  split
  · next onTime =>
    rw [late probe found] at onTime
    cases onTime.2
  · rfl

theorem status_finish (state : TargetState) (id : Nat) :
    (state.finish id).status = state.status := by
  unfold finish
  split
  · rfl
  · split <;> rfl

end TargetState

/-! ## Every run -/

namespace TargetRegistry

variable {registry : TargetRegistry}

/-- A property of the states and of a new one holds where the new one is set. -/
theorem forall_set {holds : TargetState → Prop} {new : TargetState} (first : holds new)
    (known : ∀ state ∈ registry, holds state) : ∀ state ∈ registry.set new, holds state := by
  intro state member
  unfold TargetRegistry.set at member
  split at member
  · obtain ⟨other, present, rfl⟩ := mem_map.mp member
    split
    · exact first
    · exact known other present
  · rcases List.mem_append.mp member with old | last
    · exact known state old
    · rw [List.mem_singleton.mp last]
      exact first

/-- A property of the states that every entry begins with holds of the first registry. -/
theorem forall_createTargetRegistry {holds : TargetState → Prop}
    (first : ∀ entry now, holds (.ofEntry entry now)) (entries : List TargetEntry)
    (now : TargetEntry → Int) : ∀ state ∈ createTargetRegistry entries now, holds state := by
  have from_any : ∀ (registry : TargetRegistry), (∀ state ∈ registry, holds state) →
      ∀ state ∈ entries.foldl (fun registry entry => registry.set (.ofEntry entry (now entry)))
        registry, holds state := by
    induction entries with
    | nil => exact fun _ known => known
    | cons entry rest ih =>
      intro registry known
      exact ih _ (forall_set (first entry (now entry)) known)
  exact from_any [] fun _ member => absurd member not_mem_nil

/-- A property that a change keeps is kept where one target changes. -/
theorem forall_modify {holds : TargetState → Prop} {target : String}
    {change : TargetState → TargetState} (kept : ∀ state, holds state → holds (change state))
    (known : ∀ state ∈ registry, holds state) :
    ∀ state ∈ registry.modify target change, holds state := by
  intro state member
  obtain ⟨other, present, rfl⟩ := mem_map.mp member
  split
  · exact kept other (known other present)
  · exact known other present

/-- A step keeps every target sound. -/
theorem isSound_step (event : RegistryEvent) (sound : ∀ state ∈ registry, state.IsSound) :
    ∀ state ∈ (registry.step event).1, state.IsSound := by
  cases event with
  | summaries now =>
    intro state member
    obtain ⟨other, present, rfl⟩ := mem_map.mp member
    exact (sound other present).refresh _
  | answer target id isAvailable => exact forall_modify (fun _ known => known.answer id _) sound
  | finish target id => exact forall_modify (fun _ known => known.finish id) sound
  | timeOut target id => exact forall_modify (fun _ known => known.timeOut id) sound
  | clear target id => exact forall_modify (fun _ known => known.clear id) sound

/-- Every target is sound after every run. -/
theorem isSound_after (entries : List TargetEntry) (now : TargetEntry → Int)
    (events : List RegistryEvent) :
    ∀ state ∈ Machine.after step (createTargetRegistry entries now) events, state.IsSound :=
  have kept : ∀ (registry : TargetRegistry) (event : RegistryEvent),
      (∀ state ∈ registry, state.IsSound) → ∀ state ∈ (registry.step event).1, state.IsSound :=
    fun _ event sound => isSound_step event sound
  Machine.invariant_after kept
    (forall_createTargetRegistry TargetState.isSound_ofEntry entries now) events

/-- A change that keeps the status of a target keeps all of them. -/
theorem map_status_modify {target : String} {change : TargetState → TargetState}
    (kept : ∀ state ∈ registry, state.entry.id = target → (change state).status = state.status) :
    (registry.modify target change).map TargetState.status = registry.map TargetState.status := by
  unfold modify
  rw [map_map]
  apply map_congr_left
  intro state member
  rw [Function.comp]
  split
  · next same => exact kept state member same
  · rfl

theorem ignoresLate (registry : TargetRegistry) : registry.IgnoresLate := by
  intro target id late event comes
  rcases comes with rfl | ⟨isAvailable, rfl⟩
  · exact map_status_modify fun state _ _ => state.status_finish id
  · exact map_status_modify fun state member same =>
      state.status_answer_late isAvailable (late state member same)

end TargetRegistry

/-- Over any number of targets and every order of the events: each target keeps the outcome of its
most recently started probe that has been decided, the late answer of a probe that was given up
changes nothing, and at most two probes of a target run at once. -/
theorem target_status_truthful (entries : List TargetEntry) (created : TargetEntry → Int)
    (events : List RegistryEvent) :
    (Machine.after TargetRegistry.step (createTargetRegistry entries created) events).IsTruthful ∧
      (Machine.after TargetRegistry.step (createTargetRegistry entries created)
        events).IgnoresLate := by
  refine ⟨fun state member => ?_, TargetRegistry.ignoresLate _⟩
  have sound := TargetRegistry.isSound_after entries created events state member
  exact ⟨sound.truthful, sound.running_le⟩

def bothTargets : List TargetEntry :=
  [⟨"edutrack_production", "EduTrack Production", .available⟩, ⟨"ops", "Ops Database", .available⟩]

/-- A probe of each target passes its deadline and goes on, and five seconds later both are probed
again. -/
def overlappingProbes : List RegistryEvent :=
  [.summaries fun _ => 5000, .timeOut "edutrack_production" 1, .clear "edutrack_production" 1,
    .timeOut "ops" 1, .clear "ops" 1, .summaries fun _ => 10000]

/-- Four probes run at once: the limit is one of each target. -/
theorem four_probes_run :
    2 < ((Machine.after TargetRegistry.step (createTargetRegistry bothTargets fun _ => 0)
      overlappingProbes).flatMap TargetState.running).length := by
  decide

end NancyMan.SqlWorker
