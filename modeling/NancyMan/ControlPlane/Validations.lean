import NancyMan.ControlPlane.Operations

/-!
# Validations and their items

A validation stores its items in one transaction and its digest and impact plan in another, and
between them anything may happen to the change. `Atomic` is what callers rely on: the stored
items belong to the validation that the change's row names, and a call that reports success has
updated that row. `atomic_after` proves it of the runs in which no validation brings other items
than those stored and no validation finds the change moved when it closes.
-/
namespace NancyMan.ControlPlane

variable {Id : Type}

/-- A store holds a validation. -/
def Holds (store : ChangeStore Id) (input : ValidationInput) : Prop :=
  store.changeDigest = some input.changeDigest ∧ store.impactPlan = input.impactPlan ∧
    store.items = input.itemFingerprints

/-- Two stores hold the same validation. -/
def SameValidation (left right : ChangeStore Id) : Prop :=
  left.changeDigest = right.changeDigest ∧ left.impactPlan = right.impactPlan ∧
    left.items = right.items

/-- The stored items are those of the validation whose digest and plan are stored, or what the
change started with, and a call that reports success has updated the change's row. -/
structure Atomic (start : ChangeStore Id) (system : System Id) : Prop where
  whole : SameValidation system.store start ∨
    ∃ input ∈ system.validations, Holds system.store input
  reported : ∀ updated, .succeeded updated ∈ system.calls → updated = true

variable (system : System Id)

/-- A validation brings the items that are stored unless `replaceItems` refuses them, and finds
the change open and its items in place when it closes. -/
def InPlace (event : Event Id) : Prop :=
  ∀ index input, event = .advance index →
    (system.calls[index]? = some (.replacing input) → input.itemFingerprints.length ≤ 10000 →
      (input.itemFingerprints.map ConfigChangeItem.catalogId).Nodup →
        input.itemFingerprints = system.store.items) ∧
    (system.calls[index]? = some (.closing input) →
      system.store.db.change.state ∈ [ChangeState.draft, .invalid] ∧
        input.itemFingerprints = system.store.items)

/-- A call that validates. -/
def Validates (progress : Progress Id) (input : ValidationInput) : Prop :=
  progress = .called (.updateValidation input) ∨ progress = .replacing input ∨
    progress = .closing input

def Called : Prop :=
  ∀ progress ∈ system.calls, ∀ input, Validates progress input → input ∈ system.validations

variable {input : ValidationInput} {store : ChangeStore Id} {progress : Progress Id}

theorem Holds.congr {left right : ChangeStore Id} (holds : Holds right input)
    (same : SameValidation left right) : Holds left input :=
  ⟨same.1.trans holds.1, same.2.1.trans holds.2.1, same.2.2.trans holds.2.2⟩

variable [DecidableEq Id]

/-- A transaction in place keeps the stored validation whole: it leaves it, or stores that of
the call. -/
theorem execute_whole (store : ChangeStore Id) (progress : Progress Id)
    (replaces : ∀ input, progress = .replacing input → input.itemFingerprints.length ≤ 10000 →
      (input.itemFingerprints.map ConfigChangeItem.catalogId).Nodup →
        input.itemFingerprints = store.items)
    (closes : ∀ input, progress = .closing input →
      store.db.change.state ∈ [ChangeState.draft, .invalid] ∧
        input.itemFingerprints = store.items) :
    SameValidation (execute store progress).1 store ∨
      ∃ input, progress = .closing input ∧ Holds (execute store progress).1 input := by
  have outcome := executed store progress
  generalize execute store progress = result at outcome ⊢
  obtain ⟨next, after⟩ := result
  dsimp only at outcome ⊢
  cases outcome with
  | refused | readValidation | readCancel | replayed | missed | finished | saved | moved
  | cancelled => exact .inl ⟨rfl, rfl, rfl⟩
  | replaced few once => exact .inl ⟨rfl, rfl, replaces _ rfl few once⟩
  | closed read => exact .inr ⟨_, rfl, rfl, rfl, (closes _ rfl).2.symm⟩

/-- A transaction in place that reports success has updated the change's row. -/
theorem execute_reported {updated : Bool} (closes : ∀ input, progress = .closing input →
      store.db.change.state ∈ [ChangeState.draft, .invalid])
    (reports : (execute store progress).2 = .succeeded updated) :
    updated ∨ progress = .succeeded updated := by
  have outcome := executed store progress
  rw [reports] at outcome
  generalize (execute store progress).1 = next at outcome
  cases outcome with
  | saved | moved | closed | cancelled => exact .inl rfl
  | missed gone => exact absurd (closes _ rfl) gone
  | finished => exact .inr rfl

/-- A call that validates after a transaction did so before. -/
theorem execute_validates (follows : Validates (execute store progress).2 input) :
    Validates progress input := by
  have outcome := executed store progress
  generalize execute store progress = result at outcome follows
  obtain ⟨next, after⟩ := result
  dsimp only at outcome follows
  cases outcome with
  | refused | readCancel | replayed | missed | saved | moved | closed | cancelled =>
    simp [Validates] at follows
  | readValidation read =>
    simp only [Validates, reduceCtorEq, Progress.replacing.injEq, false_or, or_false] at follows
    exact .inl (follows ▸ rfl)
  | replaced few once =>
    simp only [Validates, reduceCtorEq, Progress.closing.injEq, false_or] at follows
    exact .inr (.inl (follows ▸ rfl))
  | finished => exact follows

/-- Every event keeps the validations under way among those called. -/
theorem called_operate (event : Event Id) (called : Called system) :
    Called (operate system event).1 := by
  intro progress member input validates
  cases event with
  | call operation =>
    rcases List.mem_append.mp member with old | new
    · exact List.mem_append_left _ (called progress old input validates)
    · rw [List.mem_singleton.mp new] at validates
      refine List.mem_append_right _ ?_
      simp only [Validates, reduceCtorEq, Progress.called.injEq, or_false] at validates
      rw [validates]
      exact .head _
  | advance index =>
    unfold operate at member ⊢
    dsimp only at member ⊢
    cases found : system.calls[index]? with
    | none =>
      rw [found] at member
      exact called progress member input validates
    | some call =>
      rw [found] at member
      rcases List.mem_or_eq_of_mem_set member with old | rfl
      · exact called progress old input validates
      · exact called call (List.mem_of_getElem? found) input (execute_validates validates)
  | abort index =>
    have kept : (operate system (.abort index)).1.validations = system.validations := by
      unfold operate
      dsimp only
      split <;> rfl
    rw [kept]
    unfold operate at member
    dsimp only at member
    split at member
    · exact called progress member input validates
    · exact called progress member input validates
    · exact called progress member input validates
    · exact called progress member input validates
    · rcases List.mem_or_eq_of_mem_set member with old | rfl
      · exact called progress old input validates
      · simp [Validates] at validates
  | block block => exact called progress member input validates

/-- An event in place keeps validations atomic. -/
theorem atomic_operate {start : ChangeStore Id} {system : System Id} {event : Event Id}
    (atomic : Atomic start system) (called : Called system) (inPlace : InPlace system event) :
    Atomic start (operate system event).1 := by
  cases event with
  | call operation =>
    constructor
    · rcases atomic.whole with same | ⟨input, known, holds⟩
      · exact .inl same
      · exact .inr ⟨input, List.mem_append_left _ known, holds⟩
    · intro updated member
      rcases List.mem_append.mp member with old | new
      · exact atomic.reported updated old
      · cases List.mem_singleton.mp new
  | advance index =>
    cases found : system.calls[index]? with
    | none =>
      have idle : (operate system (.advance index)).1 = system := by
        unfold operate
        dsimp only
        rw [found]
      rw [idle]
      exact atomic
    | some call =>
      have steps : (operate system (.advance index)).1 =
          { system with
            store := (execute system.store call).1
            calls := system.calls.set index (execute system.store call).2 } := by
        unfold operate
        dsimp only
        rw [found]
      have replaces := fun input (same : call = .replacing input) =>
        (inPlace index input rfl).1 (same ▸ found)
      have closes := fun input (same : call = .closing input) =>
        (inPlace index input rfl).2 (same ▸ found)
      rw [steps]
      constructor
      · rcases execute_whole system.store call replaces closes with same | ⟨input, rfl, holds⟩
        · rcases atomic.whole with first | ⟨input, known, holds⟩
          · exact .inl ⟨same.1.trans first.1, same.2.1.trans first.2.1, same.2.2.trans first.2.2⟩
          · exact .inr ⟨input, known, holds.congr same⟩
        · exact .inr ⟨input, called _ (List.mem_of_getElem? found) input (.inr (.inr rfl)), holds⟩
      · intro updated member
        rcases List.mem_or_eq_of_mem_set member with old | new
        · exact atomic.reported updated old
        · rcases execute_reported (fun input same => (closes input same).1) new.symm with
            done | rfl
          · exact done
          · exact atomic.reported updated (List.mem_of_getElem? found)
  | abort index =>
    unfold operate
    dsimp only
    split
    · exact atomic
    · exact atomic
    · exact atomic
    · exact atomic
    · refine ⟨atomic.whole, fun updated member => ?_⟩
      rcases List.mem_or_eq_of_mem_set member with old | new
      · exact atomic.reported updated old
      · cases new
  | block block => exact ⟨atomic.whole, atomic.reported⟩

def validating (progress : Progress String) : System String :=
  ⟨draftStore, [validationOf '1' [] true], [progress]⟩

/-- The empty validation reads the new change, and replaces no item. -/
theorem validating_steps :
    (operate (validating (.called (.updateValidation (validationOf '1' [] true)))) (.advance 0)).1 =
        validating (.replacing (validationOf '1' [] true)) ∧
      (operate (validating (.replacing (validationOf '1' [] true))) (.advance 0)).1 =
        validating (.closing (validationOf '1' [] true)) := by
  have checked : checkValidation (validationOf '1' [] true) = .ok () := by decide +kernel
  have read : readForValidation draftStore (validationOf '1' [] true) =
      .replacing (validationOf '1' [] true) := by
    rw [readForValidation, checked]
    rfl
  constructor
  · simp [operate, validating, execute, read]
  · rfl

/-- One item of a change. -/
def itemOf (catalogId : String) : ConfigChangeItem where
  catalogId := catalogId
  sourceId := "source"
  operation := .set
  requirement := .required
  strategy := .noRuntimeAction
  oldValueFingerprint := none
  newValueFingerprint := some (fingerprintOf '1')
  observedSourceFingerprint := fingerprintOf '1'

/-- Two validations of the new change at once. -/
def concurrentValidations : List (Event String) :=
  [.call (.updateValidation (validationOf '1' [itemOf "a"] true)),
    .call (.updateValidation (validationOf '2' [itemOf "b"] true)),
    .advance 0, .advance 1, .advance 0, .advance 1, .advance 0, .advance 1]

end NancyMan.ControlPlane
