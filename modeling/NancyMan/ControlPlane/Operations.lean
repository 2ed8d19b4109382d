import NancyMan.ControlPlane.ChangeMetadata
import NancyMan.ControlPlane.TransitionLog
import NancyMan.Lib.Machine

/-!
# Concurrent operations on a change

The repository's operations on one change, each as the sequence of its transactions: any number
of callers are under way at once, and a schedule picks the one whose next transaction is
executed. `updateValidation` reads the change, replaces its items and writes the change's row in
three transactions; `cancel` reads and writes in two.
-/
namespace NancyMan.ControlPlane

open ChangeState

/-- The rows of a change with its validation. -/
structure ChangeStore (Id : Type) where
  db : Database Id
  changeDigest : Option String
  impactPlan : ImpactPlan
  agentEnvelopeId : Option String
  items : List ConfigChangeItem

/-- What `updateValidation` is called with; `ready` is whether its state is `READY`. -/
structure ValidationInput where
  changeId : String
  changeDigest : String
  impactPlan : ImpactPlan
  itemFingerprints : List ConfigChangeItem
  ready : Bool
deriving DecidableEq

def ValidationInput.state (input : ValidationInput) : ChangeState :=
  if input.ready then .ready else .invalid

/-- A call of the repository. -/
inductive Operation (Id : Type) where
  | updateValidation (input : ValidationInput)
  | markSaved (changeId changeDigest : String) (envelopeId : Option String)
  | cancel (changeId actorUserId actorSessionId : String)
  | transition (now : Int) (input : TransitionInput Id)

inductive RepositoryError where
  | metadata (code : String)
  | notFound
  | invalidState
  | uniqueViolation
  | aborted
  | change (error : ChangeError)

/-- How far a call is: what its next transaction is, or how it ended. A success says whether its
last transaction updated the change's row; a transition that repeats an earlier one is
answered as that one was. -/
inductive Progress (Id : Type) where
  | called (operation : Operation Id)
  | replacing (input : ValidationInput)
  | closing (input : ValidationInput)
  | cancelling (changeId : String) (state : ChangeState) (version : Nat)
  | failed (error : RepositoryError)
  | succeeded (updated : Bool)
  | replayed

/-- The rows, the validations called so far, and the calls under way. -/
structure System (Id : Type) where
  store : ChangeStore Id
  validations : List ValidationInput
  calls : List (Progress Id)

/-- What happens next: a caller calls, a call executes its next transaction or has it aborted,
or others block the application or clear its block. -/
inductive Event (Id : Type) where
  | call (operation : Operation Id)
  | advance (index : Nat)
  | abort (index : Nat)
  | block (block : Option Bool)

/-- Refuse a validation by its metadata. -/
def checkValidation (input : ValidationInput) : Except String Unit := do
  configDigest input.changeDigest
  assertImpactPlan input.impactPlan
  input.itemFingerprints.forM validateItem

/-- The first transaction of `updateValidation`: its checks and its read of the change. -/
def readForValidation {Id : Type} (store : ChangeStore Id) (input : ValidationInput) :
    Progress Id :=
  match checkValidation input with
  | .error code => .failed (.metadata code)
  | .ok () =>
    if store.db.change.id ≠ input.changeId then .failed .notFound
    else if store.db.change.state ∉ [.draft, .invalid] then .failed .invalidState
    else .replacing input

/-- `replaceItems`: an index forbids two items of one catalog entry. -/
def replaceItems {Id : Type} (store : ChangeStore Id) (input : ValidationInput) :
    ChangeStore Id × Progress Id :=
  if 10000 < input.itemFingerprints.length then
    (store, .failed (.metadata "CONFIG_ITEM_COUNT_INVALID"))
  else if ¬ (input.itemFingerprints.map ConfigChangeItem.catalogId).Nodup then
    (store, .failed .uniqueViolation)
  else ({ store with items := input.itemFingerprints }, .closing input)

/-- A change row with a new state and the next version. -/
def ConfigChangeRecord.entering (change : ConfigChangeRecord) (state : ChangeState) :
    ConfigChangeRecord :=
  { change with state := state, version := change.version + 1 }

/-- The last transaction of `updateValidation`, whose update may find no row and says nothing
of it. -/
def closeValidation {Id : Type} (store : ChangeStore Id) (input : ValidationInput) :
    ChangeStore Id × Progress Id :=
  if store.db.change.state ∈ [.draft, .invalid] then
    ({ store with
        db := { store.db with change := store.db.change.entering input.state }
        changeDigest := some input.changeDigest
        impactPlan := input.impactPlan }, .succeeded true)
  else (store, .succeeded false)

def markSaved {Id : Type} (store : ChangeStore Id) (changeId changeDigest : String)
    (envelopeId : Option String) : ChangeStore Id × Progress Id :=
  match configDigest changeDigest with
  | .error code => (store, .failed (.metadata code))
  | .ok () =>
    if store.db.change.id = changeId ∧ store.db.change.state = .ready ∧
        store.changeDigest = some changeDigest then
      ({ store with
          db := { store.db with change := store.db.change.entering .saved }
          agentEnvelopeId := envelopeId }, .succeeded true)
    else (store, .failed .invalidState)

/-- The first transaction of `cancel`: its read of the change. -/
def readForCancel {Id : Type} (store : ChangeStore Id)
    (changeId actorUserId actorSessionId : String) : Progress Id :=
  if store.db.change.id ≠ changeId ∨ store.db.change.actorUserId ≠ actorUserId ∨
      store.db.change.actorSessionId ≠ actorSessionId then .failed .notFound
  else if store.db.change.state ∉ [.draft, .ready, .saved] then .failed .invalidState
  else .cancelling changeId store.db.change.state store.db.change.version

/-- The last transaction of `cancel`. -/
def closeCancel {Id : Type} (store : ChangeStore Id) (changeId : String) (state : ChangeState)
    (version : Nat) : ChangeStore Id × Progress Id :=
  if store.db.change.id = changeId ∧ store.db.change.state = state ∧
      store.db.change.version = version then
    ({ store with db := { store.db with change := store.db.change.entering .cancelled } },
      .succeeded true)
  else (store, .failed .invalidState)

variable {Id : Type} [DecidableEq Id] (store : ChangeStore Id)

/-- `transition` on the rows with their validation. -/
def runTransition (now : Int) (input : TransitionInput Id) : ChangeStore Id × Progress Id :=
  match transition store.db now input with
  | .error error => (store, .failed (.change error))
  | .ok (db, result) =>
    ({ store with db := db }, if result.idempotent then .replayed else .succeeded true)

/-- The next transaction of a call. -/
def execute : Progress Id → ChangeStore Id × Progress Id
  | .called (.updateValidation input) => (store, readForValidation store input)
  | .called (.markSaved changeId changeDigest envelopeId) =>
    markSaved store changeId changeDigest envelopeId
  | .called (.cancel changeId actorUserId actorSessionId) =>
    (store, readForCancel store changeId actorUserId actorSessionId)
  | .called (.transition now input) => runTransition store now input
  | .replacing input => replaceItems store input
  | .closing input => closeValidation store input
  | .cancelling changeId state version => closeCancel store changeId state version
  | .failed error => (store, .failed error)
  | .succeeded updated => (store, .succeeded updated)
  | .replayed => (store, .replayed)

/-- The validation that an operation stores. -/
def Operation.validation : Operation Id → List ValidationInput
  | .updateValidation input => [input]
  | _ => []

variable (system : System Id)

/-- One event. -/
def operate : Event Id → System Id × Unit
  | .call operation =>
    ({ system with
        validations := system.validations ++ operation.validation
        calls := system.calls ++ [.called operation] }, ())
  | .advance index =>
    match system.calls[index]? with
    | none => (system, ())
    | some progress =>
      let next := execute system.store progress
      ({ system with store := next.1, calls := system.calls.set index next.2 }, ())
  | .abort index =>
    match system.calls[index]? with
    | none | some (.failed _) | some (.succeeded _) | some .replayed => (system, ())
    | some _ => ({ system with calls := system.calls.set index (.failed .aborted) }, ())
  | .block block =>
    ({ system with store := { system.store with db := { system.store.db with block := block } } },
      ())

def System.of : System Id := ⟨store, [], []⟩

/-! ## Transactions -/

/-- What the next transaction of a call does: the rows it leaves and how far the call is then. -/
inductive Executed (store : ChangeStore Id) : Progress Id → ChangeStore Id → Progress Id → Prop where
  | refused {progress : Progress Id} {error : RepositoryError} :
    Executed store progress store (.failed error)
  | readValidation {input : ValidationInput}
      (read : store.db.change.state ∈ [ChangeState.draft, .invalid]) :
    Executed store (.called (.updateValidation input)) store (.replacing input)
  | readCancel {changeId actorUserId actorSessionId other : String} {version : Nat}
      {state : ChangeState} (read : state ∈ [ChangeState.draft, .ready, .saved]) :
    Executed store (.called (.cancel changeId actorUserId actorSessionId)) store
      (.cancelling other state version)
  | saved {changeId changeDigest : String} {envelopeId : Option String}
      (ready : store.db.change.state = .ready) :
    Executed store (.called (.markSaved changeId changeDigest envelopeId))
      { store with
        db := { store.db with change := store.db.change.entering .saved }
        agentEnvelopeId := envelopeId } (.succeeded true)
  | moved {now : Int} {input : TransitionInput Id} {db : Database Id}
      (legal : db.change.state ∈ store.db.change.state.legalTransitions) :
    Executed store (.called (.transition now input)) { store with db := db } (.succeeded true)
  | replayed {now : Int} {input : TransitionInput Id} :
    Executed store (.called (.transition now input)) store .replayed
  | replaced {input : ValidationInput} (few : input.itemFingerprints.length ≤ 10000)
      (once : (input.itemFingerprints.map ConfigChangeItem.catalogId).Nodup) :
    Executed store (.replacing input) { store with items := input.itemFingerprints }
      (.closing input)
  | closed {input : ValidationInput}
      (read : store.db.change.state ∈ [ChangeState.draft, .invalid]) :
    Executed store (.closing input)
      { store with
        db := { store.db with change := store.db.change.entering input.state }
        changeDigest := some input.changeDigest
        impactPlan := input.impactPlan } (.succeeded true)
  | missed {input : ValidationInput}
      (moved : store.db.change.state ∉ [ChangeState.draft, .invalid]) :
    Executed store (.closing input) store (.succeeded false)
  | cancelled {changeId : String} {state : ChangeState} {version : Nat}
      (found : store.db.change.state = state) :
    Executed store (.cancelling changeId state version)
      { store with db := { store.db with change := store.db.change.entering .cancelled } }
      (.succeeded true)
  | finished {progress : Progress Id} : Executed store progress store progress

/-- A transition moves the change along a legal transition or repeats an earlier one. -/
theorem executed_transition (now : Int) (input : TransitionInput Id) :
    Executed store (.called (.transition now input)) (runTransition store now input).1
      (runTransition store now input).2 := by
  unfold runTransition
  rw [transition_eq]
  rcases answer_cases store.db now input (existingRow store.db input) with
    ⟨error, answered⟩ | ⟨existing, result, -, answered, replay, -⟩ |
    ⟨next, result, -, answered, fresh, legal, state, -⟩
  · rw [answered]
    exact .refused
  · rw [answered]
    simp only [replay, if_true]
    exact .replayed
  · rw [answered]
    simp only [fresh, Bool.false_eq_true, if_false]
    have entered : (store.db.moved input next).change.state = input.target := state
    exact .moved (entered ▸ legal)

/-- Every transaction does what `Executed` says. -/
theorem executed (progress : Progress Id) :
    Executed store progress (execute store progress).1 (execute store progress).2 := by
  cases progress with
  | called operation =>
    cases operation with
    | updateValidation input =>
      simp only [execute, readForValidation]
      split
      · exact .refused
      · split_ifs with other read
        · exact .refused
        · exact .readValidation read
        · exact .refused
    | markSaved changeId changeDigest envelopeId =>
      simp only [execute, markSaved]
      split
      · exact .refused
      · split_ifs with found
        · exact .saved found.2.1
        · exact .refused
    | cancel changeId actorUserId actorSessionId =>
      simp only [execute, readForCancel]
      split_ifs with other read
      · exact .refused
      · exact .readCancel read
      · exact .refused
    | transition now input => exact executed_transition store now input
  | replacing input =>
    simp only [execute, replaceItems]
    split_ifs with many once
    · exact .refused
    · exact .replaced (Nat.le_of_not_lt many) once
    · exact .refused
  | closing input =>
    simp only [execute, closeValidation]
    split_ifs with read
    · exact .closed read
    · exact .missed read
  | cancelling changeId state version =>
    simp only [execute, closeCancel]
    split_ifs with found
    · exact .cancelled found.2.1
    · exact .refused
  | failed error => exact .finished
  | succeeded updated => exact .finished
  | replayed => exact .finished

/-! ## The change's state -/

variable (event : Event Id)

/-- An event changes the persisted state along a legal transition or not at all. -/
def StateLegal : Prop :=
  let state := system.store.db.change.state
  let next := (operate system event).1.store.db.change.state
  next ≠ state → next ∈ state.legalTransitions

/-- No update of a validation finds the change in `DRAFT`, or turns it from `INVALID` to
`READY`. -/
def NoShortcut : Prop :=
  ∀ index input, event = .advance index → system.calls[index]? = some (.closing input) →
    system.store.db.change.state ≠ .draft ∧
      (system.store.db.change.state = .invalid → input.ready = false)

/-- A call that is about to cancel has read a state that can be cancelled. -/
def Cancellable : Prop :=
  ∀ changeId state version, .cancelling changeId state version ∈ system.calls →
    state ∈ [ChangeState.draft, .ready, .saved]

variable {state : ChangeState}

/-- What `updateValidation` stores is legal only after `INVALID`, and only when it stores that
again. -/
theorem shortcut_iff (read : state ∈ [draft, .invalid]) (input : ValidationInput) :
    (input.state ≠ state → input.state ∈ state.legalTransitions) ↔
      state ≠ .draft ∧ (state = .invalid → input.ready = false) := by
  unfold ValidationInput.state
  revert read
  cases input.ready <;> cases state <;> decide

theorem cancelled_legal (read : state ∈ [draft, .ready, .saved]) :
    .cancelled ∈ state.legalTransitions := by
  revert read
  cases state <;> decide

/-- A transaction leaves the change in its state, moves it along a legal transition, or is the
last of a validation. -/
theorem execute_state (store : ChangeStore Id) (progress : Progress Id)
    (cancellable : ∀ changeId state version, progress = .cancelling changeId state version →
      state ∈ [draft, .ready, .saved]) :
    let state := store.db.change.state
    let next := (execute store progress).1.db.change.state
    next = state ∨ next ∈ state.legalTransitions ∨
      ∃ input, progress = .closing input ∧ state ∈ [draft, .invalid] ∧
        next = input.state := by
  have outcome := executed store progress
  generalize execute store progress = result at outcome
  obtain ⟨next, after⟩ := result
  cases outcome with
  | refused | readValidation | readCancel | replayed | replaced | missed | finished =>
    exact .inl rfl
  | saved ready =>
    rw [ready]
    exact .inr (.inl (by simp [ConfigChangeRecord.entering, legalTransitions]))
  | moved legal => exact .inr (.inl legal)
  | closed read => exact .inr (.inr ⟨_, rfl, read, rfl⟩)
  | cancelled found =>
    rw [found]
    exact .inr (.inl (cancelled_legal (cancellable _ _ _ rfl)))

/-- A call that is about to cancel has just read the change, or was about to cancel already. -/
theorem execute_cancelling {store : ChangeStore Id} {progress : Progress Id} {changeId : String}
    {version : Nat} (cancels : (execute store progress).2 = .cancelling changeId state version) :
    progress = .cancelling changeId state version ∨
      state ∈ [draft, .ready, .saved] := by
  have outcome := executed store progress
  rw [cancels] at outcome
  generalize (execute store progress).1 = next at outcome
  cases outcome with
  | readCancel read => exact .inr read
  | finished => exact .inl rfl

/-- Every event keeps the states read by the calls that are about to cancel. -/
theorem cancellable_operate (cancellable : Cancellable system) :
    Cancellable (operate system event).1 := by
  intro changeId state version member
  cases event with
  | call operation =>
    rcases List.mem_append.mp member with old | new
    · exact cancellable changeId state version old
    · cases List.mem_singleton.mp new
  | advance index =>
    unfold operate at member
    dsimp only at member
    split at member
    · exact cancellable changeId state version member
    · rcases List.mem_or_eq_of_mem_set member with old | new
      · exact cancellable changeId state version old
      · rcases execute_cancelling new.symm with rfl | read
        · exact cancellable changeId state version (List.mem_of_getElem? (by assumption))
        · exact read
  | abort index =>
    unfold operate at member
    dsimp only at member
    split at member
    · exact cancellable changeId state version member
    · exact cancellable changeId state version member
    · exact cancellable changeId state version member
    · exact cancellable changeId state version member
    · rcases List.mem_or_eq_of_mem_set member with old | new
      · exact cancellable changeId state version old
      · cases new
  | block block => exact cancellable changeId state version member

/-- An event is legal exactly when it is no shortcut of a validation. -/
theorem stateLegal_iff (cancellable : Cancellable system) :
    StateLegal system event ↔ NoShortcut system event := by
  cases event with
  | call operation =>
    exact ⟨fun _ _ _ same => (by cases same), fun _ changed => absurd rfl changed⟩
  | block block => exact ⟨fun _ _ _ same => (by cases same), fun _ changed => absurd rfl changed⟩
  | abort index =>
    refine ⟨fun _ _ _ same => (by cases same), fun _ changed => ?_⟩
    refine absurd ?_ changed
    unfold operate
    dsimp only
    split <;> rfl
  | advance index =>
    unfold StateLegal NoShortcut operate
    dsimp only
    cases progress : system.calls[index]? with
    | none =>
      refine ⟨fun _ other input same here => ?_, fun _ changed => absurd rfl changed⟩
      cases same
      rw [progress] at here
      cases here
    | some call =>
      have known := execute_state system.store call (by
        rintro changeId state version rfl
        exact cancellable changeId state version (List.mem_of_getElem? progress))
      constructor
      · intro legal other input same here
        cases same
        rw [progress] at here
        cases here
        by_cases read : system.store.db.change.state ∈ [ChangeState.draft, .invalid]
        · rw [← shortcut_iff read]
          have closes : (execute system.store (.closing input)).1.db.change.state =
              input.state := by
            rw [execute, closeValidation, if_pos read]
            rfl
          rw [closes] at legal
          exact legal
        · constructor
          · intro draft
            exact read (draft ▸ List.mem_cons_self ..)
          · intro invalid
            exact absurd (invalid ▸ .tail _ (.head _)) read
      · intro kept changed
        rcases known with same | legal | ⟨input, rfl, read, closes⟩
        · exact absurd same changed
        · exact legal
        · rw [closes] at changed ⊢
          exact (shortcut_iff read input).mpr (kept index input rfl progress) changed

/-- The states of a change follow the machine in a run of any operations, in any order, exactly
when no update of a validation takes a shortcut. -/
theorem stateLegal_along (store : ChangeStore Id) (events : List (Event Id)) :
    Machine.Along operate StateLegal (System.of store) events ↔
      Machine.Along operate NoShortcut (System.of store) events :=
  Machine.along_congr cancellable_operate stateLegal_iff
    (fun _ _ _ member => absurd member List.not_mem_nil) events

def fingerprintOf (version : Char) : String :=
  String.ofList ("hmac-sha256:v".toList ++ version :: ':' :: List.replicate 64 '0')

/-- A plan of no effect. -/
def emptyPlan : ImpactPlan where
  applicationId := "app"
  sourceIds := []
  actionIds := []
  checkIds := []
  strategies := []
  counts := ⟨0, 0, 0, 0⟩
  warnings := []
  expectedEffect := .noRuntimeAction

/-- The new change with its empty validation. -/
def draftStore : ChangeStore String where
  db := draftChange
  changeDigest := none
  impactPlan := emptyPlan
  agentEnvelopeId := none
  items := []

/-- A validation of the new change. -/
def validationOf (version : Char) (items : List ConfigChangeItem) (ready : Bool) :
    ValidationInput where
  changeId := "change"
  changeDigest := fingerprintOf version
  impactPlan := emptyPlan
  itemFingerprints := items
  ready := ready

/-- Two validations of a change, one after the other: the first finds it invalid. -/
def revalidation : List (Event String) :=
  [.call (.updateValidation (validationOf '1' [] false)), .advance 0, .advance 0, .advance 0,
    .call (.updateValidation (validationOf '2' [] true)), .advance 1, .advance 1, .advance 1]

/-- An invalid change becomes ready. -/
theorem invalid_left :
    (Machine.after operate (System.of draftStore) (revalidation.take 4)).store.db.change.state =
        .invalid ∧
      (Machine.after operate (System.of draftStore) revalidation).store.db.change.state = .ready ∧
      ¬ Machine.Along operate StateLegal (System.of draftStore) revalidation := by
  refine ⟨by decide +kernel, by decide +kernel, ?_⟩
  intro legal
  have first := legal.2.2.2.1
  have entered := first (by decide +kernel)
  exact absurd entered (by decide +kernel)

end NancyMan.ControlPlane
