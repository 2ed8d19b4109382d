import NancyMan.Releases.Registration

/-!
# Races for an object

Any number of processes put contents under one key at once, each through a temporary file that it links
to the object once it is whole, and each may crash between two steps. `object_written_once` says that
the object is written once and whole, and what every call reports.
-/
namespace NancyMan.Releases

/-- How far a call of `putIfAbsent` is, after which it is over where it has returned, was refused or has
crashed. -/
inductive PutPhase where
  | idle
  | writing
  | linking
  | comparing
  | unlinking (outcome : PutOutcome)
  | returned (outcome : PutOutcome)
  | refused
  | crashed
deriving DecidableEq

/-- The files of a key: what the temporary file of each call holds, and the call whose temporary file was
linked to the object; with the contents of the calls. -/
structure ObjectFiles where
  object : Option Nat
  written : Nat → List Char
  content : Nat → String
  phase : Nat → PutPhase

/-- A call comes, takes its next step, of which a write adds some symbols, or crashes. -/
inductive PutAction where
  | start (call : Nat) (content expectedChecksum : String)
  | advance (call symbols : Nat)
  | crash (call : Nat)

namespace ObjectFiles

def initial : ObjectFiles := ⟨none, fun _ => [], fun _ => "", fun _ => .idle⟩

variable (sha256 : String → String) (files : ObjectFiles)

def enter (call : Nat) (phase : PutPhase) : ObjectFiles :=
  { files with phase := Function.update files.phase call phase }

/-- What a call reports of the object of another; its expected checksum is that of its content. -/
def existingOutcome (call : Nat) (existing : List Char) : PutOutcome :=
  if sha256 (String.ofList existing) = sha256 (files.content call) then .identical else .conflict

/-- The next step of a call. -/
def advance (call symbols : Nat) : ObjectFiles :=
  match files.phase call with
  | .writing =>
    let whole := (files.content call).toList
    if files.written call = whole then
      -- The file is synced and closed.
      files.enter call .linking
    else
      { files with
        written := Function.update files.written call
          (whole.take ((files.written call).length + symbols + 1)) }
  | .linking =>
    match files.object with
    | none => { files.enter call (.unlinking .created) with object := some call }
    | some _ => files.enter call .comparing
  | .comparing =>
    match files.object with
    | none => files
    | some winner =>
      files.enter call (.unlinking (files.existingOutcome sha256 call (files.written winner)))
  | .unlinking outcome => files.enter call (.returned outcome)
  | _ => files

def step : PutAction → ObjectFiles
  | .start call content expectedChecksum =>
    if files.phase call = .idle then
      if !isDigest 64 expectedChecksum || sha256 content ≠ expectedChecksum then
        files.enter call .refused
      else
        { files.enter call .writing with content := Function.update files.content call content }
    else files
  | .advance call symbols => files.advance sha256 call symbols
  | .crash call =>
    match files.phase call with
    | .idle | .returned _ | .refused => files
    | _ => files.enter call .crashed

def after (actions : List PutAction) : ObjectFiles := actions.foldl (step sha256) files

/-- `get`, which finds the file in one state and reads it in a later one. -/
def get (later : ObjectFiles) : Option String := do
  let _ ← files.object
  let winner ← later.object
  some (String.ofList (later.written winner))

/-- What a call reports where a winner's object is there. -/
def outcomeFor (winner call : Nat) : PutOutcome :=
  if winner = call then .created
  else if sha256 (files.content winner) = sha256 (files.content call) then .identical
  else .conflict

/-- What holds of every state: a call links only what it has written as a whole, a call whose file is the
object has not failed to tell so unless it crashed, and calls report what they should. -/
structure IsSound : Prop where
  whole : ∀ call, files.phase call = .linking → files.written call = (files.content call).toList
  object : ∀ winner, files.object = some winner →
    files.written winner = (files.content winner).toList ∧
      (files.phase winner = .unlinking .created ∨ files.phase winner = .returned .created ∨
        files.phase winner = .crashed)
  compares : ∀ call, files.phase call = .comparing → files.object.isSome
  reports : ∀ call outcome,
    files.phase call = .unlinking outcome ∨ files.phase call = .returned outcome →
      ∃ winner, files.object = some winner ∧ outcome = files.outcomeFor sha256 winner call

variable {sha256 files}

theorem isSound_initial : initial.IsSound sha256 where
  whole := by simp [initial]
  object := by simp [initial]
  compares := by simp [initial]
  reports := by simp [initial]

/-- A call enters another phase. -/
theorem IsSound.enter (sound : files.IsSound sha256) {call : Nat} {phase : PutPhase}
    (whole : phase = .linking → files.written call = (files.content call).toList)
    (object : files.object = some call →
      phase = .unlinking .created ∨ phase = .returned .created ∨ phase = .crashed)
    (compares : phase = .comparing → files.object.isSome)
    (reports : ∀ outcome, phase = .unlinking outcome ∨ phase = .returned outcome →
      ∃ winner, files.object = some winner ∧ outcome = files.outcomeFor sha256 winner call) :
    (files.enter call phase).IsSound sha256 := by
  have phases (other : Nat) : (files.enter call phase).phase other =
      if other = call then phase else files.phase other := Function.update_apply ..
  refine ⟨fun other entered => ?_, fun winner linked => ?_, fun other entered => ?_,
    fun other outcome entered => ?_⟩
  · rw [phases] at entered
    split at entered
    · next own => exact own ▸ whole entered
    · exact sound.whole other entered
  · rw [phases]
    split
    · next own => exact ⟨(sound.object winner linked).1, object (own ▸ linked)⟩
    · exact sound.object winner linked
  · rw [phases] at entered
    split at entered
    · exact compares entered
    · exact sound.compares other entered
  · rw [phases] at entered
    split at entered
    · next own => exact own ▸ reports outcome entered
    · exact sound.reports other outcome entered

/-- The next step of a call is sound and leaves the object that there is. -/
theorem IsSound.advance (sound : files.IsSound sha256) (call symbols : Nat) :
    (files.advance sha256 call symbols).IsSound sha256 ∧
      ∀ winner, files.object = some winner → (files.advance sha256 call symbols).object = some winner := by
  unfold ObjectFiles.advance
  cases phase : files.phase call with
  | idle => exact ⟨sound, fun _ linked => linked⟩
  | returned outcome => exact ⟨sound, fun _ linked => linked⟩
  | refused => exact ⟨sound, fun _ linked => linked⟩
  | crashed => exact ⟨sound, fun _ linked => linked⟩
  | writing =>
    have loses (linked : files.object = some call) : False := by
      have ended := (sound.object call linked).2
      simp [phase] at ended
    dsimp only
    split
    · next done =>
      exact ⟨sound.enter (fun _ => done) (fun linked => (loses linked).elim) nofun (by simp),
        fun _ linked => linked⟩
    · refine ⟨⟨fun other linking => ?_, fun winner linked => ?_, sound.compares, sound.reports⟩,
        fun _ linked => linked⟩
      · have differs : other ≠ call := by
          rintro rfl
          rw [show files.phase other = _ from linking] at phase
          cases phase
        exact (Function.update_of_ne differs ..).trans (sound.whole other linking)
      · have differs : winner ≠ call := fun own => loses (own ▸ linked)
        refine ⟨?_, (sound.object winner linked).2⟩
        exact (Function.update_of_ne differs ..).trans (sound.object winner linked).1
  | linking =>
    dsimp only
    split
    · next linked =>
      have absent (outcome : PutOutcome) (other : Nat) : ¬(files.phase other = .unlinking outcome ∨
          files.phase other = .returned outcome) := fun entered => by
        obtain ⟨winner, known, -⟩ := sound.reports other outcome entered
        rw [linked] at known
        cases known
      have phases (other : Nat) : (files.enter call (.unlinking .created)).phase other =
          if other = call then .unlinking .created else files.phase other := Function.update_apply ..
      refine ⟨⟨fun other linking => ?_, ?_, fun _ _ => rfl, fun other outcome entered => ?_⟩,
        fun winner known => ?_⟩
      · replace linking := (phases other).symm.trans linking
        split at linking
        · cases linking
        · exact sound.whole other linking
      · rintro _ ⟨⟩
        exact ⟨sound.whole call phase, .inl ((phases call).trans (if_pos rfl))⟩
      · change (files.enter _ _).phase other = _ ∨ (files.enter _ _).phase other = _ at entered
        rw [phases] at entered
        split at entered
        · next own =>
          refine ⟨call, rfl, ?_⟩
          rw [outcomeFor, if_pos own.symm]
          simp only [PutPhase.unlinking.injEq, reduceCtorEq, or_false] at entered
          exact entered.symm
        · exact absurd entered (absent outcome other)
      · rw [linked] at known
        cases known
    · next winner linked =>
      refine ⟨sound.enter nofun (fun own => ?_) (fun _ => by rw [linked]; rfl) (by simp),
        fun _ same => same⟩
      have ended := (sound.object call own).2
      simp [phase] at ended
  | comparing =>
    dsimp only
    split
    · next linked =>
      have present := sound.compares call phase
      rw [linked] at present
      cases present
    · next winner linked =>
      have lost (own : files.object = some call) : False := by
        have ended := (sound.object call own).2
        simp [phase] at ended
      refine ⟨sound.enter nofun (fun own => (lost own).elim) nofun fun outcome entered => ?_,
        fun _ same => same⟩
      have differs : winner ≠ call := fun own => lost (own ▸ linked)
      refine ⟨winner, linked, ?_⟩
      simp only [PutPhase.unlinking.injEq, reduceCtorEq, or_false] at entered
      rw [← entered, outcomeFor, if_neg differs, ObjectFiles.existingOutcome,
        (sound.object winner linked).1, String.ofList_toList]
  | unlinking outcome =>
    refine ⟨sound.enter nofun (fun own => ?_) nofun fun found entered => ?_, fun _ same => same⟩
    · have ended := (sound.object call own).2
      simp only [phase, PutPhase.unlinking.injEq, reduceCtorEq, or_false] at ended
      exact .inr (.inl (by rw [ended]))
    · simp only [PutPhase.returned.injEq, reduceCtorEq, false_or] at entered
      exact entered ▸ sound.reports call outcome (.inl phase)

/-- A step is sound, and leaves the object that there is and its content. -/
theorem IsSound.step (sound : files.IsSound sha256) (action : PutAction) :
    (files.step sha256 action).IsSound sha256 ∧
      ∀ winner, files.object = some winner → (files.step sha256 action).object = some winner ∧
        (files.step sha256 action).content winner = files.content winner := by
  cases action with
  | start call content expectedChecksum =>
    unfold ObjectFiles.step
    dsimp only
    split
    · next idle =>
      have free (linked : files.object = some call) : False := by
        have ended := (sound.object call linked).2
        simp [idle] at ended
      split
      · exact ⟨sound.enter nofun (fun linked => (free linked).elim) nofun (by simp),
          fun _ linked => ⟨linked, rfl⟩⟩
      · have entered : (files.enter call .writing).IsSound sha256 :=
          sound.enter nofun (fun linked => (free linked).elim) nofun (by simp)
        have same (other : Nat) (differs : other ≠ call) :
            Function.update files.content call content other = files.content other :=
          Function.update_of_ne differs ..
        have begun : (files.enter call .writing).phase call = .writing := Function.update_self ..
        have apart (winner : Nat) (linked : files.object = some winner) : winner ≠ call :=
          fun own => free (own ▸ linked)
        refine ⟨⟨fun other linking => ?_, fun winner linked => ?_, entered.compares,
          fun other outcome reported => ?_⟩, fun winner linked => ⟨linked, same _ (apart _ linked)⟩⟩
        · have differs : other ≠ call := fun own => by
            rw [own] at linking
            cases begun.symm.trans linking
          exact (entered.whole other linking).trans (congrArg _ (same other differs).symm)
        · have linkedFile := entered.object winner linked
          exact ⟨linkedFile.1.trans (congrArg _ (same _ (apart _ linked)).symm), linkedFile.2⟩
        · have differs : other ≠ call := fun own => by
            rw [own] at reported
            rcases reported with reported | reported <;> cases begun.symm.trans reported
          obtain ⟨winner, linked, outcomes⟩ := entered.reports other outcome reported
          refine ⟨winner, linked, outcomes.trans ?_⟩
          change files.outcomeFor sha256 winner other = if winner = other then _ else
            if sha256 (Function.update files.content call content winner) =
              sha256 (Function.update files.content call content other) then _ else _
          rw [same _ (apart _ linked), same _ differs]
          rfl
    · exact ⟨sound, fun _ linked => ⟨linked, rfl⟩⟩
  | advance call symbols =>
    obtain ⟨advanced, linked⟩ := sound.advance call symbols
    refine ⟨advanced, fun winner known => ⟨linked winner known, ?_⟩⟩
    unfold ObjectFiles.step ObjectFiles.advance
    dsimp only
    split
    · split <;> rfl
    · split <;> rfl
    · split <;> rfl
    · rfl
    · rfl
  | crash call =>
    unfold ObjectFiles.step
    dsimp only
    split
    · exact ⟨sound, fun _ linked => ⟨linked, rfl⟩⟩
    · exact ⟨sound, fun _ linked => ⟨linked, rfl⟩⟩
    · exact ⟨sound, fun _ linked => ⟨linked, rfl⟩⟩
    · exact ⟨sound.enter nofun (fun _ => .inr (.inr rfl)) nofun (by simp),
        fun _ linked => ⟨linked, rfl⟩⟩

/-- So is a run of actions. -/
theorem IsSound.after (sound : files.IsSound sha256) (actions : List PutAction) :
    (files.after sha256 actions).IsSound sha256 ∧
      ∀ winner, files.object = some winner → (files.after sha256 actions).object = some winner ∧
        (files.after sha256 actions).content winner = files.content winner := by
  induction actions generalizing files with
  | nil => exact ⟨sound, fun _ linked => ⟨linked, rfl⟩⟩
  | cons action rest ih =>
    obtain ⟨stepped, kept⟩ := sound.step action
    obtain ⟨ended, later⟩ := ih stepped
    refine ⟨ended, fun winner linked => ?_⟩
    obtain ⟨linkedNext, sameNext⟩ := kept winner linked
    obtain ⟨linkedLast, sameLast⟩ := later winner linkedNext
    exact ⟨linkedLast, sameLast.trans sameNext⟩

/-- An object is written once. In every run either there is none and no call has returned, and reading
finds nothing; or it is that of a winner, and stays so: reading gives the whole content of the winner,
whatever happens before and during it. The winner is then still to return, has reported `created` or has
crashed, and every other call that has returned has reported what its content and the winner's are. -/
theorem object_written_once (sha256 : String → String) (actions : List PutAction) :
    let files := initial.after sha256 actions
    (files.object = none ∧ (∀ later, files.get later = none) ∧
        ∀ call outcome, files.phase call ≠ .returned outcome) ∨
      ∃ winner,
        (∀ before during, (files.after sha256 before).object = some winner ∧
          (files.after sha256 before).get ((files.after sha256 before).after sha256 during) =
            some (files.content winner)) ∧
        (files.phase winner = .unlinking .created ∨ files.phase winner = .returned .created ∨
          files.phase winner = .crashed) ∧
        ∀ call outcome, files.phase call = .returned outcome →
          outcome = files.outcomeFor sha256 winner call := by
  intro files
  have sound : files.IsSound sha256 := (isSound_initial.after actions).1
  cases linked : files.object with
  | none =>
    refine .inl ⟨rfl, fun later => by rw [get, linked]; rfl, fun call outcome returned => ?_⟩
    obtain ⟨winner, known, -⟩ := sound.reports call outcome (.inr returned)
    rw [linked] at known
    cases known
  | some winner =>
    refine .inr ⟨winner, fun before during => ?_, (sound.object winner linked).2,
      fun call outcome returned => ?_⟩
    · obtain ⟨soundBefore, kept⟩ := sound.after before
      obtain ⟨soundDuring, keptDuring⟩ := soundBefore.after during
      obtain ⟨linkedBefore, sameBefore⟩ := kept winner linked
      obtain ⟨linkedDuring, sameDuring⟩ := keptDuring winner linkedBefore
      refine ⟨linkedBefore, ?_⟩
      rw [get, linkedBefore, linkedDuring]
      change some (String.ofList _) = _
      rw [(soundDuring.object winner linkedDuring).1, String.ofList_toList, sameDuring, sameBefore]
    · obtain ⟨other, known, outcomes⟩ := sound.reports call outcome (.inr returned)
      rw [← Option.some.inj (linked.symm.trans known)] at outcomes
      exact outcomes

/-- Two calls with one content, of which the first crashes once it has linked its file. -/
def crashedWinner : List PutAction :=
  let checksum := "44136fa355b3678a1146ad16f7e8649e94fb4fc21fe77e8310c060f61caaff8a"
  [.start 0 "{}" checksum, .start 1 "{}" checksum, .advance 0 1, .advance 0 0, .advance 0 0,
    .crash 0, .advance 1 1, .advance 1 0, .advance 1 0, .advance 1 0, .advance 1 0]

/-- The object is there, no call goes on, and none has reported `created`. -/
theorem crashed_winner_unreported :
    let files := initial.after
      (fun _ => "44136fa355b3678a1146ad16f7e8649e94fb4fc21fe77e8310c060f61caaff8a") crashedWinner
    files.object = some 0 ∧ files.phase 0 = .crashed ∧ files.phase 1 = .returned .identical ∧
      ∀ call, files.phase call ≠ .returned .created := by
  intro files
  have linked : files.object = some 0 := by decide +kernel
  have first : files.phase 0 = .crashed := by decide +kernel
  refine ⟨linked, first, by decide +kernel, fun call returned => ?_⟩
  obtain ⟨winner, known, reported⟩ :=
    (isSound_initial.after crashedWinner).1.reports call .created (.inr returned)
  obtain rfl := Option.some.inj (linked.symm.trans known)
  unfold outcomeFor at reported
  split at reported
  · next own =>
    rw [← own, first] at returned
    cases returned
  · split at reported <;> cases reported

end ObjectFiles

end NancyMan.Releases
