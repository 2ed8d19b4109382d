import Mathlib.Data.List.Nodup
import NancyMan.Telemetry.ExceptionCapture

/-!
# Occurrences are delivered once

The mark of an Error stands for its latest occurrence, but a rejection takes it away whichever
occurrence was rejected, and a call that lets the Error be reused forgets its identifier even where a
deferred capture has it. `delivers_once` says that where neither happens no occurrence is handed over
again while it is in flight or after it succeeded, a flush that returns has handed over every
occurrence, and flushes terminate; `handed_twice` is a run in which a late rejection takes away the
mark of a later occurrence.
-/
namespace NancyMan.Telemetry

open ExceptionCaptures
open List (countP_append find?_eq_none isEmpty_iff mem_append mem_append_right mem_cons
  mem_cons_self mem_filter mem_map mem_singleton pairwise_append pairwise_cons)
open Function (update_of_ne update_self)

open ExceptionCaptures (dispatch pending?)

namespace ExceptionCaptures

/-- An occurrence that was handed over before was rejected. -/
def DeliversOnce (captures : ExceptionCaptures) : Prop :=
  captures.reported.Pairwise fun earlier later =>
    earlier.capture.eventId = later.capture.eventId → earlier.status = .failed

/-- An occurrence was handed over, or is deferred. -/
def Covers (captures : ExceptionCaptures) (eventId : Nat) : Prop :=
  (∃ report ∈ captures.reported, report.capture.eventId = eventId) ∨
    ∃ capture ∈ captures.deferred, capture.eventId = eventId

/-- A flush that returns at a step leaves no occurrence that was not handed over. -/
def HandsOver (captures : ExceptionCaptures) (event : CaptureEvent) : Prop :=
  ∀ flush : Nat, (captures.step event).1.flushes[flush]? = some FlushPhase.returned →
    captures.flushes[flush]? ≠ some FlushPhase.returned →
    ∀ eventId ∈ (captures.step event).1.captured,
      ∃ report ∈ (captures.step event).1.reported, report.capture.eventId = eventId

/-- A rejection is one of the occurrence that the Error is marked for, and an Error that is to be
reused has no deferred capture. -/
def IsTimely (captures : ExceptionCaptures) : CaptureEvent → Prop
  | .settle number false =>
    ∀ report, captures.reported[number]? = some report → report.status = .inFlight →
      captures.delivered report.capture.occurrenceKey = true →
      captures.eventIds report.capture.occurrenceKey = some report.capture.eventId
  | .captureOnce _ thrown request _ =>
    request.allowFutureOccurrence = true → request.deferUntilHandled = false →
      (captures.normalizeException thrown).1.isSecondary (captures.normalizeException thrown).2
        thrown request = true →
      (captures.normalizeException thrown).1.pending? (captures.normalizeException thrown).2 = none
  | _ => True

/-! ## What the marks stand for -/

/-- Errors and event identifiers that are still to be made are new. -/
structure IsFresh (captures : ExceptionCaptures) : Prop where
  identified : ∀ key eventId, captures.eventIds key = some eventId →
    key < captures.nextError ∧ eventId < captures.nextEvent
  normalized : ∀ object error, captures.normalized object = some error →
    error < captures.nextError
  reported : ∀ report ∈ captures.reported, report.capture.eventId < captures.nextEvent

/-- The marks and the deferred captures of Errors are those of their event identifiers. -/
structure IsSound (captures : ExceptionCaptures) : Prop where
  fresh : captures.IsFresh
  injective : ∀ left right eventId, captures.eventIds left = some eventId →
    captures.eventIds right = some eventId → left = right
  distinct : (captures.deferred.map DeferredCapture.occurrenceKey).Nodup
  deferred : ∀ capture ∈ captures.deferred,
    captures.eventIds capture.occurrenceKey = some capture.eventId ∧
      captures.delivered capture.occurrenceKey = false
  marked : ∀ key, captures.delivered key = true → ∃ report ∈ captures.reported,
    captures.eventIds key = some report.capture.eventId ∧
      report.capture.occurrenceKey = key ∧ report.status ≠ .failed
  unmarked : ∀ key eventId, captures.eventIds key = some eventId →
    captures.delivered key = false → ∀ report ∈ captures.reported,
      report.capture.eventId = eventId → report.status = .failed
  once : captures.DeliversOnce
  covers : ∀ eventId ∈ captures.captured, captures.Covers eventId

variable {captures : ExceptionCaptures} {key : Nat}

theorem pending?_eq_some {capture : DeferredCapture}
    (found : captures.pending? key = some capture) :
    capture ∈ captures.deferred ∧ capture.occurrenceKey = key :=
  ⟨List.mem_of_find?_eq_some found, by simpa using List.find?_some found⟩

theorem key_ne_of_pending? (absent : captures.pending? key = none) {capture : DeferredCapture}
    (member : capture ∈ captures.deferred) : capture.occurrenceKey ≠ key := by
  have different := find?_eq_none.mp absent capture member
  simpa using different

variable (sound : captures.IsSound)

include sound

/-- A state that differs only in the Errors that exist and in those of thrown objects is sound. -/
theorem IsSound.allocate {next : Nat} (later : captures.nextError ≤ next)
    {normalized : Nat → Option Nat}
    (bounded : ∀ object error, normalized object = some error → error < next) :
    IsSound { captures with nextError := next, normalized := normalized } := by
  refine { sound with fresh := ⟨fun key eventId known => ?_, bounded, sound.fresh.reported⟩ }
  have bounds := sound.fresh.identified key eventId known
  exact ⟨Nat.lt_of_lt_of_le bounds.1 later, bounds.2⟩

theorem IsSound.createError : captures.createError.1.IsSound := by
  refine sound.allocate (Nat.le_succ _) fun object error known => ?_
  exact Nat.lt_succ_of_lt (sound.fresh.normalized object error known)

/-- Normalizing an exception keeps the captures sound and gives an Error that exists. -/
theorem IsSound.normalizeException (thrown : ThrownValue) :
    (captures.normalizeException thrown).1.IsSound ∧
      (captures.normalizeException thrown).2 <
        (captures.normalizeException thrown).1.nextError := by
  unfold ExceptionCaptures.normalizeException
  cases thrown with
  | error reference =>
    refine ⟨sound.allocate (Nat.le_max_left _ _) fun object error known => ?_, ?_⟩
    · exact Nat.lt_of_lt_of_le (sound.fresh.normalized object error known) (Nat.le_max_left _ _)
    · exact Nat.lt_of_lt_of_le (Nat.lt_succ_self _) (Nat.le_max_right _ _)
  | object reference =>
    dsimp only
    split
    · next existing known => exact ⟨sound, sound.fresh.normalized reference existing known⟩
    · refine ⟨sound.allocate (Nat.le_succ _) fun object error known => ?_, Nat.lt_succ_self _⟩
      by_cases same : object = reference
      · rw [same, update_self] at known
        rw [← Option.some.inj known]
        exact Nat.lt_succ_self _
      · rw [update_of_ne same] at known
        exact Nat.lt_succ_of_lt (sound.fresh.normalized object error known)
  | primitive text => exact ⟨sound.createError, Nat.lt_succ_self _⟩

/-- The key of an occurrence exists. -/
theorem IsSound.occurrenceKey {exception : Nat}
    (known : exception < captures.nextError) (isSecondary : Bool) :
    (captures.occurrenceKey exception isSecondary).1.IsSound ∧
      (captures.occurrenceKey exception isSecondary).2 <
        (captures.occurrenceKey exception isSecondary).1.nextError := by
  unfold ExceptionCaptures.occurrenceKey
  split
  · exact ⟨sound.createError, Nat.lt_succ_self _⟩
  · exact ⟨sound, known⟩

/-- An identified key keeps the captures sound. -/
theorem IsSound.identify (exists_key : key < captures.nextError) :
    (captures.identify key).1.IsSound ∧
      (captures.identify key).1.eventIds key = some (captures.identify key).2 := by
  unfold ExceptionCaptures.identify
  split
  · next eventId known => exact ⟨sound, known⟩
  next unknown =>
  have other_key : ∀ other eventId, Function.update captures.eventIds key
      (some captures.nextEvent) other = some eventId →
      (other = key ∧ eventId = captures.nextEvent) ∨ captures.eventIds other = some eventId := by
    intro other eventId known
    by_cases same : other = key
    · rw [same, update_self] at known
      exact .inl ⟨same, (Option.some.inj known).symm⟩
    · rw [update_of_ne same] at known
      exact .inr known
  have kept : ∀ other eventId, captures.eventIds other = some eventId →
      Function.update captures.eventIds key (some captures.nextEvent) other = some eventId := by
    intro other eventId known
    rw [update_of_ne]
    · exact known
    · intro same
      rw [same, unknown] at known
      cases known
  refine ⟨⟨⟨fun other eventId known => ?_, sound.fresh.normalized, fun report member => ?_⟩,
    fun left right eventId first second => ?_, sound.distinct, fun capture member => ?_,
    fun other marked => ?_, fun other eventId known clear report member same => ?_, sound.once,
    sound.covers⟩, update_self _ _ _⟩
  · rcases other_key other eventId known with ⟨rfl, rfl⟩ | before
    · exact ⟨exists_key, Nat.lt_succ_self _⟩
    · have bounds := sound.fresh.identified other eventId before
      exact ⟨bounds.1, Nat.lt_succ_of_lt bounds.2⟩
  · exact Nat.lt_succ_of_lt (sound.fresh.reported report member)
  · rcases other_key left eventId first with ⟨here, new⟩ | before
    · rcases other_key right eventId second with ⟨there, -⟩ | old
      · rw [here, there]
      · have bound := (sound.fresh.identified right eventId old).2
        omega
    · rcases other_key right eventId second with ⟨-, new⟩ | old
      · have bound := (sound.fresh.identified left eventId before).2
        omega
      · exact sound.injective left right eventId before old
  · have held := sound.deferred capture member
    exact ⟨kept _ _ held.1, held.2⟩
  · obtain ⟨report, member, named, others⟩ := sound.marked other marked
    exact ⟨report, member, kept _ _ named, others⟩
  · rcases other_key other eventId known with ⟨-, new⟩ | before
    · have bound := sound.fresh.reported report member
      omega
    · exact sound.unmarked other eventId before clear report member same

/-- Deferred captures that keep their keys and identifiers keep the captures sound. -/
theorem IsSound.redefer {change : DeferredCapture → DeferredCapture}
    (key : ∀ capture, (change capture).occurrenceKey = capture.occurrenceKey)
    (eventId : ∀ capture, (change capture).eventId = capture.eventId) :
    IsSound { captures with deferred := captures.deferred.map change } := by
  refine { sound with
    fresh := { sound.fresh with }, distinct := ?_, deferred := fun capture member => ?_,
    covers := fun id listed => ?_ }
  · rw [List.map_map, show DeferredCapture.occurrenceKey ∘ change = DeferredCapture.occurrenceKey
      from funext key]
    exact sound.distinct
  · obtain ⟨before, present, rfl⟩ := mem_map.mp member
    rw [key, eventId]
    exact sound.deferred before present
  · rcases sound.covers id listed with handed | ⟨before, present, named⟩
    · exact .inl handed
    · exact .inr ⟨change before, List.mem_map_of_mem present, (eventId before).trans named⟩

/-- The deferred capture of a key is found, as the keys are distinct. -/
theorem IsSound.pending?_self {capture : DeferredCapture} (member : capture ∈ captures.deferred) :
    captures.pending? capture.occurrenceKey = some capture := by
  cases found : captures.pending? capture.occurrenceKey with
  | none => exact absurd rfl (key_ne_of_pending? found member)
  | some other =>
    obtain ⟨present, same⟩ := pending?_eq_some found
    rw [List.inj_on_of_nodup_map sound.distinct present member same]

/-- A capture of an identified key that is not marked, and has no deferred capture, can be
deferred. -/
theorem IsSound.add {capture : DeferredCapture}
    (absent : captures.pending? capture.occurrenceKey = none)
    (named : captures.eventIds capture.occurrenceKey = some capture.eventId)
    (clear : captures.delivered capture.occurrenceKey = false) :
    IsSound { captures with deferred := captures.deferred ++ [capture] } := by
  refine { sound with
    fresh := { sound.fresh with }, distinct := ?_, deferred := fun other member => ?_,
    covers := fun id listed => ?_ }
  · rw [List.map_append]
    refine List.Nodup.append sound.distinct (List.nodup_singleton _) fun key old new => ?_
    obtain ⟨other, member, same⟩ := mem_map.mp old
    rw [mem_singleton.mp new] at same
    exact key_ne_of_pending? absent member same
  · rcases mem_append.mp member with old | new
    · exact sound.deferred other old
    · rw [mem_singleton.mp new]
      exact ⟨named, clear⟩
  · rcases sound.covers id listed with handed | ⟨other, member, same⟩
    · exact .inl handed
    · exact .inr ⟨other, List.mem_append_left _ member, same⟩

/-- Deferring a capture of an identified key that is not marked keeps the captures sound, and the
key then has a deferred capture with its identifier. -/
theorem IsSound.defer {capture : DeferredCapture}
    (named : captures.eventIds capture.occurrenceKey = some capture.eventId)
    (clear : captures.delivered capture.occurrenceKey = false) :
    (captures.defer capture).IsSound ∧ ∃ pending ∈ (captures.defer capture).deferred,
      pending.occurrenceKey = capture.occurrenceKey ∧ pending.eventId = capture.eventId := by
  unfold ExceptionCaptures.defer
  split
  · next pending found =>
    obtain ⟨member, key⟩ := pending?_eq_some found
    constructor
    · apply sound.redefer
      · intro other
        split <;> rfl
      · intro other
        split <;> rfl
    · refine ⟨_, List.mem_map_of_mem member, ?_, ?_⟩
      · rw [if_pos key]
        exact key
      · rw [if_pos key]
        have known := (sound.deferred pending member).1
        rw [key, named] at known
        exact (Option.some.inj known).symm
  · next absent =>
    exact ⟨sound.add absent named clear, capture, mem_append_right _ mem_cons_self, rfl,
      rfl⟩

/-- What was covered stays covered when a capture is handed over. -/
theorem Covers.dispatch {eventId : Nat} {capture : DeferredCapture}
    (member : capture ∈ captures.deferred) (throws : Bool) (covers : captures.Covers eventId) :
    (captures.dispatch throws capture).Covers eventId := by
  rcases covers with ⟨report, old, same⟩ | ⟨other, old, same⟩
  · exact .inl ⟨report, List.mem_append_left _ old, same⟩
  · by_cases own : other.occurrenceKey = capture.occurrenceKey
    · have this : other = capture := List.inj_on_of_nodup_map sound.distinct old member own
      rw [this] at same
      exact .inl ⟨_, mem_append_right _ mem_cons_self, same⟩
    · exact .inr ⟨other, mem_filter.mpr ⟨old, decide_eq_true own⟩, same⟩

/-- Handing a deferred capture over keeps the captures sound. -/
theorem IsSound.dispatch {capture : DeferredCapture}
    (member : capture ∈ captures.deferred) (throws : Bool) :
    (captures.dispatch throws capture).IsSound := by
  obtain ⟨named, clear⟩ := sound.deferred capture member
  have failed := sound.unmarked capture.occurrenceKey capture.eventId named clear
  have mark : ∀ key, key ≠ capture.occurrenceKey →
      (captures.dispatch throws capture).delivered key = captures.delivered key := fun key other =>
    update_of_ne other _ _
  refine ⟨⟨sound.fresh.identified, sound.fresh.normalized, fun report listed => ?_⟩,
    sound.injective, ?_, fun other listed => ?_, fun key marked => ?_,
    fun key eventId known unmarked report listed same => ?_, ?_, fun eventId listed => ?_⟩
  · rcases mem_append.mp listed with old | new
    · exact sound.fresh.reported report old
    · rw [mem_singleton.mp new]
      exact (sound.fresh.identified _ _ named).2
  · exact sound.distinct.sublist (List.filter_sublist.map _)
  · obtain ⟨old, different⟩ := mem_filter.mp listed
    have held := sound.deferred other old
    refine ⟨held.1, (mark _ (of_decide_eq_true different)).trans held.2⟩
  · by_cases own : key = capture.occurrenceKey
    · have handed : throws = false := by
        rw [own] at marked
        have updated : (!throws) := (update_self _ _ _).symm.trans marked
        simpa using updated
      refine ⟨⟨capture, if throws then .failed else .inFlight⟩, mem_append_right _
        (.head _), ?_, own.symm, ?_⟩
      · rw [own]
        exact named
      · rw [handed]
        simp
    · rw [mark key own] at marked
      obtain ⟨report, old, others⟩ := sound.marked key marked
      exact ⟨report, List.mem_append_left _ old, others⟩
  · by_cases own : key = capture.occurrenceKey
    · have thrown : throws := by
        rw [own] at unmarked
        have updated : (!throws) = false := (update_self _ _ _).symm.trans unmarked
        simpa using updated
      rcases mem_append.mp listed with old | new
      · rw [own] at known
        have identifier : capture.eventId = eventId := Option.some.inj (named.symm.trans known)
        exact failed report old (same.trans identifier.symm)
      · rw [mem_singleton.mp new, thrown]
        rfl
    · rw [mark key own] at unmarked
      rcases mem_append.mp listed with old | new
      · exact sound.unmarked key eventId known unmarked report old same
      · rw [mem_singleton.mp new] at same
        rw [← same] at known
        exact absurd (sound.injective key _ _ known named) own
  · refine pairwise_append.mpr ⟨sound.once, List.pairwise_singleton _ _,
      fun earlier old later new same => ?_⟩
    rw [mem_singleton.mp new] at same
    exact failed earlier old same
  · exact (sound.covers eventId listed).dispatch sound member throws

/-- An Error without a deferred capture can be forgotten. -/
theorem IsSound.forget {exception : Nat}
    (absent : captures.pending? exception = none) : (captures.forget exception).IsSound := by
  have forgotten : ∀ key eventId, (captures.forget exception).eventIds key = some eventId →
      key ≠ exception ∧ captures.eventIds key = some eventId := by
    intro key eventId known
    unfold ExceptionCaptures.forget at known
    dsimp only at known
    by_cases own : key = exception
    · rw [own, update_self] at known
      cases known
    · rw [update_of_ne own] at known
      exact ⟨own, known⟩
  have mark : ∀ key, key ≠ exception →
      (captures.forget exception).delivered key = captures.delivered key := fun key other =>
    update_of_ne other _ _
  have identifier : ∀ key, key ≠ exception →
      (captures.forget exception).eventIds key = captures.eventIds key := fun key other =>
    update_of_ne other _ _
  refine ⟨⟨fun key eventId known => sound.fresh.identified key eventId (forgotten key eventId known).2,
    sound.fresh.normalized, sound.fresh.reported⟩, fun left right eventId first second =>
    sound.injective left right eventId (forgotten _ _ first).2 (forgotten _ _ second).2,
    sound.distinct, fun capture member => ?_, fun key marked => ?_,
    fun key eventId known unmarked => ?_, sound.once, sound.covers⟩
  · have other := key_ne_of_pending? absent member
    rw [identifier _ other, mark _ other]
    exact sound.deferred capture member
  · by_cases own : key = exception
    · rw [own] at marked
      cases (update_self _ _ _).symm.trans marked
    · rw [mark key own] at marked
      rw [identifier key own]
      exact sound.marked key marked
  · obtain ⟨own, before⟩ := forgotten key eventId known
    rw [mark key own] at unmarked
    exact sound.unmarked key eventId before unmarked

omit sound in
theorem pending?_dispatch (throws : Bool) (capture : DeferredCapture) :
    (captures.dispatch throws capture).pending? capture.occurrenceKey = none := by
  unfold pending? dispatch
  rw [find?_eq_none]
  intro other member
  simpa using (mem_filter.mp member).2

omit sound in
theorem pending?_dispatch_of_none (absent : captures.pending? key = none) (throws : Bool)
    (capture : DeferredCapture) : (captures.dispatch throws capture).pending? key = none := by
  unfold pending? dispatch at *
  rw [find?_eq_none] at *
  intro other member
  exact absent other (mem_filter.mp member).1

omit sound in
/-- Deferring a capture of one key defers none of another. -/
theorem pending?_defer_of_ne {capture : DeferredCapture} (absent : captures.pending? key = none)
    (other : capture.occurrenceKey ≠ key) : (captures.defer capture).pending? key = none := by
  have none_before : ∀ before ∈ captures.deferred, before.occurrenceKey ≠ key :=
    fun _ member => key_ne_of_pending? absent member
  unfold pending?
  rw [find?_eq_none]
  intro found member
  have different : found.occurrenceKey ≠ key := by
    unfold defer at member
    split at member
    · obtain ⟨before, present, rfl⟩ := mem_map.mp member
      split <;> exact none_before before present
    · rcases mem_append.mp member with old | new
      · exact none_before found old
      · rw [mem_singleton.mp new]
        exact other
  simpa using different

/-- Capturing an occurrence whose key is identified keeps the captures sound and covers it, unless it
forgets an Error that has a deferred capture. -/
theorem IsSound.captureOccurrence {exception eventId : Nat} {request : CaptureRequest}
    (reporter : Nat) (throws : Bool) (named : captures.eventIds key = some eventId)
    (timely : request.allowFutureOccurrence → request.deferUntilHandled = false →
      key ≠ exception → captures.pending? exception = none) :
    (captures.captureOccurrence reporter exception key eventId request throws).IsSound ∧
      (captures.captureOccurrence reporter exception key eventId request throws).Covers eventId := by
  unfold ExceptionCaptures.captureOccurrence
  split
  · next marked =>
    obtain ⟨report, member, known, -⟩ := sound.marked key marked
    rw [named] at known
    exact ⟨sound, .inl ⟨report, member, (Option.some.inj known).symm⟩⟩
  next unmarked =>
  have clear : captures.delivered key = false := by simpa using unmarked
  obtain ⟨deferred, pending, member, same, identifier⟩ :
      (captures.defer ⟨key, exception, eventId, request.context, reporter⟩).IsSound ∧
        ∃ pending : DeferredCapture, pending ∈ _ ∧ pending.occurrenceKey = key ∧
          pending.eventId = eventId := sound.defer named clear
  have covered : (captures.defer ⟨key, exception, eventId, request.context,
      reporter⟩).Covers eventId := .inr ⟨pending, member, identifier⟩
  dsimp only
  split
  · exact ⟨deferred, covered⟩
  next terminal =>
  have found := deferred.pending?_self member
  rw [same] at found
  rw [found]
  have dispatched := deferred.dispatch member throws
  have handed := covered.dispatch deferred member throws
  split
  · next allows =>
    have absent : ((captures.defer ⟨key, exception, eventId, request.context,
        reporter⟩).dispatch throws pending).pending? exception = none := by
      by_cases own : key = exception
      · rw [← own, ← same]
        exact pending?_dispatch throws pending
      · have none_before := timely allows (by simpa using terminal) own
        exact pending?_dispatch_of_none (pending?_defer_of_ne none_before own) throws pending
    exact ⟨dispatched.forget absent, handed⟩
  · exact ⟨dispatched, handed⟩

/-- An identifier that is covered can be returned. -/
theorem IsSound.record {eventId : Nat} (covered : captures.Covers eventId) :
    IsSound { captures with captured := captures.captured ++ [eventId] } := by
  refine { sound with fresh := { sound.fresh with }, covers := fun other listed => ?_ }
  rcases mem_append.mp listed with old | new
  · exact sound.covers other old
  · rw [mem_singleton.mp new]
    exact covered

omit sound

theorem deferred_identify (key : Nat) : (captures.identify key).1.deferred = captures.deferred := by
  unfold identify
  split <;> rfl

theorem deferred_occurrenceKey (exception : Nat) (isSecondary : Bool) :
    (captures.occurrenceKey exception isSecondary).1.deferred = captures.deferred := by
  unfold occurrenceKey
  split <;> rfl

/-- `captureOnce` keeps the captures sound where it does not forget an Error that has a deferred
capture. -/
theorem IsSound.captureOnce (sound : captures.IsSound) {reporter : Nat} {thrown : ThrownValue}
    {request : CaptureRequest} {throws : Bool}
    (timely : captures.IsTimely (.captureOnce reporter thrown request throws)) :
    (captures.captureOnce reporter thrown request throws).1.IsSound := by
  obtain ⟨normalized, exception_exists⟩ := sound.normalizeException thrown
  unfold ExceptionCaptures.IsTimely at timely
  dsimp only at timely
  unfold ExceptionCaptures.captureOnce
  generalize captures.normalizeException thrown = normal at *
  obtain ⟨first, exception⟩ := normal
  dsimp only at *
  generalize choice : first.isSecondary exception thrown request = isSecondary at *
  obtain ⟨keyed, key_exists⟩ := normalized.occurrenceKey exception_exists isSecondary
  obtain ⟨identified, named⟩ := keyed.identify key_exists
  have none_deferred : request.allowFutureOccurrence = true → request.deferUntilHandled = false →
      (first.occurrenceKey exception isSecondary).2 ≠ exception →
      (((first.occurrenceKey exception isSecondary).1.identify
        (first.occurrenceKey exception isSecondary).2).1.pending? exception) = none := by
    intro allows terminal other
    have secondary : isSecondary := by
      cases choice : isSecondary with
      | true => rfl
      | false =>
        rw [choice] at other
        exact absurd rfl other
    unfold pending?
    rw [deferred_identify, deferred_occurrenceKey]
    exact timely allows terminal secondary
  have after := identified.captureOccurrence reporter throws named none_deferred
  exact after.1.record after.2

variable {report : ReportedCapture}

/-- What was handed over at a place, between what was handed over before and after it. -/
theorem reported_split {number : Nat} (found : captures.reported[number]? = some report) :
    ∃ before later, captures.reported = before ++ report :: later ∧ before.length = number ∧
      ∀ other, captures.reported.set number other = before ++ other :: later := by
  obtain ⟨bound, same⟩ := List.getElem?_eq_some_iff.mp found
  refine ⟨captures.reported.take number, captures.reported.drop (number + 1), ?_, ?_, fun other => ?_⟩
  · rw [← same]
    exact (List.take_append_drop number _).symm.trans (by rw [List.drop_eq_getElem_cons bound])
  · rw [List.length_take]
    omega
  · rw [List.set_eq_take_append_cons_drop, if_pos bound]

variable {before later : List ReportedCapture}

/-- A delivery in flight is the last one of its occurrence, whose others have failed. -/
theorem DeliversOnce.split
    (once : (before ++ report :: later).Pairwise fun earlier later =>
      earlier.capture.eventId = later.capture.eventId → earlier.status = .failed)
    (flies : report.status = .inFlight) :
    (∀ other ∈ before, other.capture.eventId = report.capture.eventId → other.status = .failed) ∧
      ∀ other ∈ later, other.capture.eventId ≠ report.capture.eventId := by
  obtain ⟨-, once_later, across⟩ := pairwise_append.mp once
  refine ⟨fun other member => across other member report mem_cons_self,
    fun other member same => ?_⟩
  have failed := (pairwise_cons.mp once_later).1 other member same.symm
  rw [flies] at failed
  cases failed

/-- A delivery in flight that settles leaves every occurrence delivered once. -/
theorem DeliversOnce.settle
    (once : (before ++ report :: later).Pairwise fun earlier later =>
      earlier.capture.eventId = later.capture.eventId → earlier.status = .failed)
    (flies : report.status = .inFlight) (status : DeliveryStatus) :
    (before ++ { report with status := status } :: later).Pairwise fun earlier later =>
      earlier.capture.eventId = later.capture.eventId → earlier.status = .failed := by
  obtain ⟨earlier, last⟩ := DeliversOnce.split once flies
  obtain ⟨once_before, once_later, across⟩ := pairwise_append.mp once
  refine pairwise_append.mpr ⟨once_before, pairwise_cons.mpr
    ⟨fun other member same => absurd same.symm (last other member),
      (pairwise_cons.mp once_later).2⟩, fun first present second listed => ?_⟩
  rcases mem_cons.mp listed with rfl | old
  · exact earlier first present
  · exact across first present second (.tail _ old)

/-- The Error of an occurrence in flight is marked. -/
theorem IsSound.marked_of_flying (sound : captures.IsSound) (member : report ∈ captures.reported)
    (flies : report.status = .inFlight)
    (known : captures.eventIds key = some report.capture.eventId) : captures.delivered key := by
  cases marked : captures.delivered key with
  | true => rfl
  | false =>
    have failed := sound.unmarked key _ known marked report member rfl
    rw [flies] at failed
    cases failed

/-- What was handed over after one delivery has settled: that one and the others. -/
theorem mem_settled {settled : ReportedCapture}
    (all : captures.reported = before ++ report :: later) :
    (∀ other ∈ before ++ settled :: later, other = settled ∨ other ∈ captures.reported) ∧
      ∀ other ∈ captures.reported, other = report ∨ other ∈ before ++ settled :: later := by
  constructor
  · intro other listed
    rw [all]
    simp only [mem_append, mem_cons] at listed ⊢
    tauto
  · intro other listed
    rw [all] at listed
    simp only [mem_append, mem_cons] at listed ⊢
    tauto

/-- A delivery that settles keeps the captures sound, if the Errors that stay marked are those of
deliveries that have not failed, and every delivery of another identified one has. -/
theorem IsSound.settled (sound : captures.IsSound)
    (all : captures.reported = before ++ report :: later) (flies : report.status = .inFlight)
    {status : DeliveryStatus} {delivered : Nat → Bool}
    (marked : ∀ key, delivered key → captures.delivered key ∧
      (report.capture.occurrenceKey = key → status ≠ .failed))
    (unmarked : ∀ key eventId, captures.eventIds key = some eventId → delivered key = false →
      ∀ other ∈ before ++ { report with status := status } :: later,
        other.capture.eventId = eventId → other.status = .failed) :
    IsSound { captures with
      reported := before ++ { report with status := status } :: later, delivered := delivered } := by
  have once := sound.once
  unfold DeliversOnce at once
  rw [all] at once
  have member : report ∈ captures.reported := by
    rw [all]
    exact mem_append_right _ mem_cons_self
  obtain ⟨old_of, new_of⟩ : (∀ other ∈ before ++ { report with status := status } :: later,
      _) ∧ _ := mem_settled all
  refine ⟨⟨sound.fresh.identified, sound.fresh.normalized, fun other listed => ?_⟩,
    sound.injective, sound.distinct, fun capture listed => ?_, fun key kept => ?_, unmarked,
    DeliversOnce.settle once flies _, fun eventId listed => ?_⟩
  · rcases old_of other listed with rfl | old
    · exact sound.fresh.reported report member
    · exact sound.fresh.reported other old
  · obtain ⟨known, clear⟩ := sound.deferred capture listed
    refine ⟨known, Bool.eq_false_iff.mpr fun kept => ?_⟩
    rw [(marked _ kept).1] at clear
    cases clear
  · obtain ⟨other, listed, known, owner, others⟩ := sound.marked key (marked key kept).1
    rcases new_of other listed with rfl | new
    · exact ⟨_, mem_append_right _ mem_cons_self, known, owner, (marked key kept).2 owner⟩
    · exact ⟨other, new, known, owner, others⟩
  · rcases sound.covers eventId listed with ⟨other, old, same⟩ | deferred
    · rcases new_of other old with rfl | new
      · exact .inl ⟨_, mem_append_right _ mem_cons_self, same⟩
      · exact .inl ⟨other, new, same⟩
    · exact .inr deferred

/-- A delivery that succeeds keeps the captures sound. -/
theorem IsSound.succeed (sound : captures.IsSound)
    (all : captures.reported = before ++ report :: later) (flies : report.status = .inFlight) :
    IsSound { captures with
      reported := before ++ { report with status := .succeeded } :: later } := by
  have member : report ∈ captures.reported := by
    rw [all]
    exact mem_append_right _ mem_cons_self
  refine sound.settled all flies (fun key marked => ⟨marked, fun _ => by simp⟩)
    fun key eventId known clear other listed same => ?_
  rcases (mem_settled all).1 other listed with rfl | old
  · dsimp only at same
    rw [← same] at known
    rw [sound.marked_of_flying member flies known] at clear
    cases clear
  · exact sound.unmarked key eventId known clear other old same

/-- A rejection of the occurrence that the Error is marked for keeps the captures sound. -/
theorem IsSound.fail (sound : captures.IsSound)
    (all : captures.reported = before ++ report :: later) (flies : report.status = .inFlight)
    (timely : captures.delivered report.capture.occurrenceKey →
      captures.eventIds report.capture.occurrenceKey = some report.capture.eventId) :
    IsSound { captures with
      reported := before ++ { report with status := .failed } :: later
      delivered := Function.update captures.delivered report.capture.occurrenceKey false } := by
  have once := sound.once
  unfold DeliversOnce at once
  rw [all] at once
  obtain ⟨earlier, last⟩ := DeliversOnce.split once flies
  have mark : ∀ key, key ≠ report.capture.occurrenceKey →
      Function.update captures.delivered report.capture.occurrenceKey false key =
        captures.delivered key := fun key other => update_of_ne other _ _
  refine sound.settled all flies (fun key marked => ?_)
    fun key eventId known clear other listed same => ?_
  · have other_key : key ≠ report.capture.occurrenceKey := by
      rintro rfl
      cases (update_self _ _ _).symm.trans marked
    exact ⟨(mark key other_key).symm.trans marked, fun own => absurd own.symm other_key⟩
  · have fails (unmarked : captures.delivered key = false) : other.status = .failed := by
      rcases (mem_settled all).1 other listed with rfl | old
      · rfl
      · exact sound.unmarked key eventId known unmarked other old same
    by_cases own : key = report.capture.occurrenceKey
    · cases marked : captures.delivered key with
      | false => exact fails marked
      | true =>
        rw [own] at known marked
        have identifier := Option.some.inj ((timely marked).symm.trans known)
        rw [← identifier] at same
        rcases mem_append.mp listed with first | rest
        · exact earlier other first same
        · rcases mem_cons.mp rest with rfl | after
          · rfl
          · exact absurd same (last other after)
    · exact fails ((mark key own).symm.trans clear)

/-- A delivery that settles keeps the captures sound, if its rejection is one of the occurrence that
the Error is marked for. -/
theorem IsSound.settle (sound : captures.IsSound) {number : Nat} {succeeds : Bool}
    (timely : captures.IsTimely (.settle number succeeds)) :
    (captures.settle number succeeds).IsSound := by
  unfold ExceptionCaptures.settle
  split
  · exact sound
  next report found =>
  split
  · exact sound
  next settled =>
  have flies : report.status = .inFlight := Decidable.not_not.mp settled
  obtain ⟨before, later, all, -, set⟩ := reported_split found
  rw [set]
  cases succeeds with
  | true => exact sound.succeed all flies
  | false => exact sound.fail all flies (timely report found flies)

/-- Handing over all of some deferred captures keeps the captures sound, and defers the others. -/
theorem IsSound.dispatchAll {pending : List DeferredCapture} (throws : Nat → Bool)
    (sound : captures.IsSound) (listed : ∀ capture ∈ pending, capture ∈ captures.deferred)
    (distinct : (pending.map DeferredCapture.occurrenceKey).Nodup) :
    (pending.foldl (fun captures capture => captures.dispatch (throws capture.eventId) capture)
      captures).IsSound := by
  induction pending generalizing captures with
  | nil => exact sound
  | cons head rest ih =>
    obtain ⟨absent, others⟩ := List.nodup_cons.mp distinct
    refine ih (sound.dispatch (listed head mem_cons_self) _) (fun capture member => ?_) others
    refine mem_filter.mpr ⟨listed capture (.tail _ member), decide_eq_true ?_⟩
    intro same
    exact absent (same ▸ List.mem_map_of_mem member)

theorem IsSound.pass (sound : captures.IsSound) (throws : Nat → Bool) :
    (captures.pass throws).1.IsSound := by
  unfold ExceptionCaptures.pass
  split
  · exact sound
  · exact sound.dispatchAll throws (fun _ member => member) sound.distinct

theorem IsSound.withFlushes (sound : captures.IsSound) (flushes : List FlushPhase) :
    IsSound { captures with flushes := flushes } :=
  ⟨⟨sound.fresh.identified, sound.fresh.normalized, sound.fresh.reported⟩, sound.injective,
    sound.distinct, sound.deferred, sound.marked, sound.unmarked, sound.once, sound.covers⟩

/-- A timely step keeps the captures sound. -/
theorem IsSound.step (sound : captures.IsSound) {event : CaptureEvent}
    (timely : captures.IsTimely event) : (captures.step event).1.IsSound := by
  cases event with
  | captureOnce reporter thrown request throws => exact sound.captureOnce timely
  | settle number succeeds => exact sound.settle timely
  | flush throws => exact (sound.pass throws).withFlushes _
  | resume flush throws =>
    show (captures.resume flush throws).IsSound
    unfold ExceptionCaptures.resume
    split
    · exact sound
    split
    · exact (sound.pass throws).withFlushes _
    · exact sound

/-- The captures begin sound. -/
theorem isSound_initial : initial.IsSound := by
  refine ⟨⟨fun _ _ known => ?_, fun _ _ known => ?_, fun _ member => ?_⟩, fun _ _ _ known => ?_,
    List.nodup_nil, fun _ member => ?_, fun _ marked => ?_, fun _ _ known => ?_, .nil,
    fun _ member => ?_⟩
  · cases known
  · cases known
  · cases member
  · cases known
  · cases member
  · cases marked
  · cases known
  · cases member

/-! ## What a flush that returns leaves -/

/-- A pass that lets a flush return changes nothing, and nothing is deferred or in flight. -/
theorem pass_returned {throws : Nat → Bool} (returned : (captures.pass throws).2 = .returned) :
    (captures.pass throws).1 = captures ∧ captures.deferred = [] ∧ captures.pendingCaptures = [] := by
  unfold pass at returned ⊢
  split at returned
  · next idle =>
    obtain ⟨deferred, pending⟩ := (Bool.and_eq_true _ _).mp idle
    rw [if_pos idle]
    exact ⟨rfl, isEmpty_iff.mp deferred, isEmpty_iff.mp pending⟩
  · cases returned

/-- Where nothing is deferred, every occurrence was handed over. -/
theorem IsSound.handed (sound : captures.IsSound) (idle : captures.deferred = []) :
    ∀ eventId ∈ captures.captured,
      ∃ report ∈ captures.reported, report.capture.eventId = eventId := by
  intro eventId listed
  rcases sound.covers eventId listed with handed | ⟨capture, deferred, -⟩
  · exact handed
  · rw [idle] at deferred
    cases deferred

/-- Capturing an occurrence leaves the flushes. -/
theorem flushes_captureOnce (reporter : Nat) (thrown : ThrownValue) (request : CaptureRequest)
    (throws : Bool) :
    (captures.captureOnce reporter thrown request throws).1.flushes = captures.flushes := by
  have normalize : (captures.normalizeException thrown).1.flushes = captures.flushes := by
    unfold normalizeException
    cases thrown with
    | error reference => rfl
    | object reference =>
      dsimp only
      split <;> rfl
    | primitive text => rfl
  have key : ∀ (captures : ExceptionCaptures) (exception : Nat) (isSecondary : Bool),
      (captures.occurrenceKey exception isSecondary).1.flushes = captures.flushes := by
    intro captures exception isSecondary
    unfold occurrenceKey
    split <;> rfl
  have identify : ∀ (captures : ExceptionCaptures) (key : Nat),
      (captures.identify key).1.flushes = captures.flushes := by
    intro captures key
    unfold ExceptionCaptures.identify
    split <;> rfl
  have defers : ∀ (captures : ExceptionCaptures) (capture : DeferredCapture),
      (captures.defer capture).flushes = captures.flushes := by
    intro captures capture
    unfold defer
    split <;> rfl
  have capture : ∀ (captures : ExceptionCaptures) (exception key eventId : Nat),
      (captures.captureOccurrence reporter exception key eventId request throws).flushes =
        captures.flushes := by
    intro captures exception key eventId
    unfold captureOccurrence
    split
    · rfl
    dsimp only
    split
    · exact defers _ _
    · split <;> split <;> exact defers _ _
  unfold captureOnce
  rw [capture, identify, key, normalize]

theorem flushes_settle (number : Nat) (succeeds : Bool) :
    (captures.settle number succeeds).flushes = captures.flushes := by
  unfold settle
  split
  · rfl
  · split <;> rfl

/-- A pass leaves the flushes. -/
theorem flushes_pass (throws : Nat → Bool) :
    (captures.pass throws).1.flushes = captures.flushes := by
  have all : ∀ (pending : List DeferredCapture) (captures : ExceptionCaptures),
      (pending.foldl (fun captures capture => captures.dispatch (throws capture.eventId) capture)
        captures).flushes = captures.flushes := by
    intro pending
    induction pending with
    | nil => exact fun _ => rfl
    | cons head rest ih => exact fun captures => ih _
  unfold pass
  split
  · rfl
  · exact all _ _

/-- A flush that returns at a step leaves no occurrence that was not handed over. -/
theorem IsSound.handsOver (sound : captures.IsSound) (event : CaptureEvent) :
    captures.HandsOver event := by
  intro flush returned before
  cases event with
  | captureOnce reporter thrown request throws =>
    rw [show (captures.step (.captureOnce reporter thrown request throws)).1.flushes =
      captures.flushes from flushes_captureOnce reporter thrown request throws] at returned
    exact absurd returned before
  | settle number succeeds =>
    rw [show (captures.step (.settle number succeeds)).1.flushes = captures.flushes from
      flushes_settle number succeeds] at returned
    exact absurd returned before
  | flush throws =>
    have phases : (captures.flushes ++ [(captures.pass throws).2])[flush]? =
        some FlushPhase.returned := by
      rw [← flushes_pass throws]
      exact returned
    have last : (captures.pass throws).2 = .returned := by
      rw [List.getElem?_append] at phases
      split at phases
      · exact absurd phases before
      · have single := List.mem_of_getElem? phases
        exact (mem_singleton.mp single).symm
    obtain ⟨same, idle, -⟩ := pass_returned last
    show ∀ eventId ∈ (captures.pass throws).1.captured,
      ∃ report ∈ (captures.pass throws).1.reported, report.capture.eventId = eventId
    rw [same]
    exact sound.handed idle
  | resume other throws =>
    have unfolded : (captures.step (.resume other throws)).1 = captures.resume other throws := rfl
    rw [unfolded] at returned ⊢
    unfold ExceptionCaptures.resume at returned ⊢
    split at returned
    · exact absurd returned before
    split at returned
    · next phase _ resumed =>
      rw [if_pos resumed]
      have last : (captures.pass throws).2 = .returned := by
        dsimp only at returned
        rw [flushes_pass, List.getElem?_set] at returned
        split at returned
        · split at returned
          · exact Option.some.inj returned
          · cases returned
        · exact absurd returned before
      obtain ⟨same, idle, -⟩ := pass_returned last
      dsimp only
      rw [same]
      exact sound.handed idle
    · exact absurd returned before

/-! ## Flushes terminate -/

/-- Whether a step other than a capture or a new flush does something. -/
def IsEffective (captures : ExceptionCaptures) : CaptureEvent → Prop
  | .settle number _ => number ∈ captures.pendingCaptures
  | .resume flush _ => ∃ phase, captures.flushes[flush]? = some phase ∧
      captures.isResumed phase = true
  | _ => False

/-- What is left to do without another capture or flush. -/
def work (captures : ExceptionCaptures) : Nat :=
  (captures.flushes.length + 1) * (captures.pendingCaptures.length + 2 * captures.deferred.length) +
    captures.flushes.countP captures.isResumed

/-- Without another capture or flush only so many steps do something, and a flush that has not
returned goes on once nothing is in flight. -/
def FlushesTerminate (captures : ExceptionCaptures) : Prop :=
  (∀ events, Machine.Along step IsEffective captures events → events.length ≤ captures.work) ∧
    ∀ (flush : Nat) (deliveries : List Nat),
      captures.flushes[flush]? = some (FlushPhase.awaits deliveries) →
      captures.pendingCaptures = [] → ∀ throws, captures.IsEffective (.resume flush throws)

theorem length_pendingCaptures :
    captures.pendingCaptures.length =
      captures.reported.countP fun report => report.status = .inFlight := by
  unfold pendingCaptures
  rw [List.length_map, ← List.countP_eq_length_filter]
  conv_rhs => rw [← List.zipIdx_map_fst 0 captures.reported, List.countP_map]
  rfl

/-- A delivery is in flight exactly when it was handed over and has not settled. -/
theorem mem_pendingCaptures {number : Nat} :
    number ∈ captures.pendingCaptures ↔
      ∃ report, captures.reported[number]? = some report ∧ report.status = .inFlight := by
  constructor
  · intro member
    obtain ⟨⟨report, place⟩, listed, rfl⟩ := mem_map.mp member
    obtain ⟨found, flies⟩ := mem_filter.mp listed
    exact ⟨report, List.mem_zipIdx_iff_getElem?.mp found, of_decide_eq_true flies⟩
  · rintro ⟨report, found, flies⟩
    refine mem_map.mpr ⟨(report, number), mem_filter.mpr ⟨?_, decide_eq_true flies⟩, rfl⟩
    exact List.mem_zipIdx_iff_getElem?.mpr found

/-- A delivery that settles leaves less work. -/
theorem work_settle {number : Nat} (flying : number ∈ captures.pendingCaptures) (succeeds : Bool) :
    (captures.settle number succeeds).work < captures.work := by
  obtain ⟨report, found, flies⟩ := mem_pendingCaptures.mp flying
  obtain ⟨before, later, all, -, set⟩ := reported_split found
  have one_less : (captures.settle number succeeds).pendingCaptures.length + 1 =
      captures.pendingCaptures.length := by
    have reported : (captures.settle number succeeds).reported = before ++
        { report with status := if succeeds then .succeeded else .failed } :: later := by
      unfold settle
      rw [found]
      dsimp only
      rw [if_neg (not_not_intro flies)]
      exact set _
    rw [length_pendingCaptures, length_pendingCaptures, reported, all, countP_append,
      countP_append, List.countP_cons, List.countP_cons, flies]
    cases succeeds <;> simp <;> omega
  have deferred : (captures.settle number succeeds).deferred = captures.deferred := by
    unfold settle
    split
    · rfl
    · split <;> rfl
  have resumed : (captures.settle number succeeds).flushes.countP
      (captures.settle number succeeds).isResumed ≤ captures.flushes.length := by
    rw [flushes_settle]
    exact List.countP_le_length
  have amount : captures.pendingCaptures.length + 2 * captures.deferred.length =
      (captures.settle number succeeds).pendingCaptures.length + 2 * captures.deferred.length + 1 := by
    omega
  unfold work
  rw [amount, Nat.mul_succ, deferred, flushes_settle] at *
  omega

/-- Handing over one capture puts at most one more in flight. -/
theorem length_pendingCaptures_dispatch (throws : Bool) (capture : DeferredCapture) :
    (captures.dispatch throws capture).pendingCaptures.length ≤
      captures.pendingCaptures.length + 1 := by
  rw [length_pendingCaptures, length_pendingCaptures]
  show (captures.reported ++ [_]).countP _ ≤ _
  rw [countP_append]
  have one : ([⟨capture, if throws then .failed else .inFlight⟩] : List ReportedCapture).countP
      (fun report => report.status = .inFlight) ≤ 1 := List.countP_le_length
  omega

/-- Handing over deferred captures puts at most as many more in flight. -/
theorem length_pendingCaptures_dispatchAll (throws : Nat → Bool) (pending : List DeferredCapture) :
    (pending.foldl (fun captures capture => captures.dispatch (throws capture.eventId) capture)
      captures).pendingCaptures.length ≤ captures.pendingCaptures.length + pending.length := by
  induction pending generalizing captures with
  | nil => exact Nat.le_refl _
  | cons head rest ih =>
    have first : (captures.dispatch (throws head.eventId) head).pendingCaptures.length ≤
      captures.pendingCaptures.length + 1 := length_pendingCaptures_dispatch _ head
    have others : (rest.foldl _ (captures.dispatch (throws head.eventId) head)).pendingCaptures.length ≤
      (captures.dispatch (throws head.eventId) head).pendingCaptures.length + rest.length := ih
    rw [List.length_cons, List.foldl_cons]
    omega

/-- Handing over all deferred captures leaves none. -/
theorem deferred_dispatchAll (throws : Nat → Bool) (pending : List DeferredCapture)
    (all : ∀ capture ∈ captures.deferred, capture ∈ pending) :
    (pending.foldl (fun captures capture => captures.dispatch (throws capture.eventId) capture)
      captures).deferred = [] := by
  induction pending generalizing captures with
  | nil => exact List.eq_nil_iff_forall_not_mem.mpr fun capture member => by cases all capture member
  | cons head rest ih =>
    refine ih fun capture member => ?_
    obtain ⟨listed, different⟩ := mem_filter.mp member
    rcases mem_cons.mp (all capture listed) with rfl | later
    · exact absurd rfl (of_decide_eq_true different)
    · exact later

/-- A pass with nothing to hand over changes nothing, and the flush returns or awaits what is in
flight. -/
theorem pass_idle (idle : captures.deferred = []) (throws : Nat → Bool) :
    (captures.pass throws).1 = captures ∧
      captures.isResumed (captures.pass throws).2 = false := by
  unfold pass
  split
  · exact ⟨rfl, rfl⟩
  next busy =>
  rw [idle] at busy ⊢
  refine ⟨rfl, ?_⟩
  cases flying : captures.pendingCaptures with
  | nil =>
    rw [flying] at busy
    exact absurd rfl busy
  | cons first rest =>
    show (captures.pendingCaptures.all fun number => number ∉ captures.pendingCaptures) = false
    rw [List.all_eq_false]
    refine ⟨first, ?_, ?_⟩
    · rw [flying]
      exact .head _
    · rw [flying]
      simp

/-- A pass with something to hand over leaves nothing deferred, and at most as much in flight. -/
theorem pass_busy {capture : DeferredCapture} (member : capture ∈ captures.deferred)
    (throws : Nat → Bool) :
    (captures.pass throws).1.deferred = [] ∧ (captures.pass throws).1.pendingCaptures.length ≤
      captures.pendingCaptures.length + captures.deferred.length := by
  have busy : ¬(captures.deferred.isEmpty && captures.pendingCaptures.isEmpty) := by
    intro idle
    rw [isEmpty_iff.mp ((Bool.and_eq_true _ _).mp idle).1] at member
    cases member
  unfold pass
  rw [if_neg busy]
  exact ⟨deferred_dispatchAll throws _ fun _ listed => listed,
    length_pendingCaptures_dispatchAll throws _⟩

/-- A pass of a flush that goes on leaves less work. -/
theorem work_resume {flush : Nat} {phase : FlushPhase}
    (found : captures.flushes[flush]? = some phase) (goes : captures.isResumed phase)
    (throws : Nat → Bool) : (captures.resume flush throws).work < captures.work := by
  obtain ⟨bound, same⟩ := List.getElem?_eq_some_iff.mp found
  have unfolded : captures.resume flush throws =
      { (captures.pass throws).1 with
        flushes := captures.flushes.set flush (captures.pass throws).2 } := by
    unfold resume
    rw [found]
    dsimp only
    rw [if_pos goes, flushes_pass]
  rw [unfolded]
  cases deferred : captures.deferred with
  | nil =>
    obtain ⟨unchanged, waits⟩ := pass_idle deferred throws
    have counted : 0 < captures.flushes.countP captures.isResumed :=
      List.countP_pos_iff.mpr ⟨phase, List.mem_of_getElem? found, goes⟩
    have resumed : (captures.flushes.set flush (captures.pass throws).2).countP
        captures.isResumed + 1 = captures.flushes.countP captures.isResumed := by
      rw [List.countP_set bound, same, goes, waits]
      simp
      omega
    unfold work
    rw [unchanged]
    show (_ + 1) * (captures.pendingCaptures.length + 2 * captures.deferred.length) +
      (captures.flushes.set flush (captures.pass throws).2).countP captures.isResumed < _
    rw [List.length_set]
    omega
  | cons head rest =>
    obtain ⟨none_left, fewer⟩ := pass_busy (by rw [deferred]; exact mem_cons_self) throws
    have present : 0 < captures.deferred.length := by
      rw [deferred]
      exact Nat.succ_pos _
    obtain ⟨extra, amount⟩ : ∃ extra, captures.pendingCaptures.length +
        2 * captures.deferred.length = (captures.pass throws).1.pendingCaptures.length + extra + 1 :=
      ⟨captures.pendingCaptures.length + 2 * captures.deferred.length -
        (captures.pass throws).1.pendingCaptures.length - 1, by omega⟩
    have grows : (captures.flushes.length + 1) * (captures.pass throws).1.pendingCaptures.length ≤
        (captures.flushes.length + 1) *
          ((captures.pass throws).1.pendingCaptures.length + extra) :=
      Nat.mul_le_mul_left _ (Nat.le_add_right _ _)
    obtain ⟨next, passed⟩ : ∃ next : ExceptionCaptures, { (captures.pass throws).1 with
      flushes := captures.flushes.set flush (captures.pass throws).2 } = next := ⟨_, rfl⟩
    have flushes : next.flushes.length = captures.flushes.length := by
      rw [← passed]
      exact List.length_set
    have pending : next.pendingCaptures.length =
        (captures.pass throws).1.pendingCaptures.length := by
      rw [← passed]
      rfl
    have left : next.deferred = [] := by
      rw [← passed]
      exact none_left
    have resumed : next.flushes.countP next.isResumed ≤ captures.flushes.length := by
      rw [← flushes]
      exact List.countP_le_length
    rw [passed]
    unfold work
    rw [amount, Nat.mul_succ, left, flushes, pending]
    show (captures.flushes.length + 1) * (captures.pass throws).1.pendingCaptures.length + _ < _
    omega

/-- Without another capture or flush only so many steps do something. -/
theorem length_le_work (events : List CaptureEvent)
    (effective : Machine.Along step IsEffective captures events) :
    events.length ≤ captures.work := by
  induction events generalizing captures with
  | nil => exact Nat.zero_le _
  | cons event rest ih =>
    obtain ⟨first, others⟩ := effective
    have less : (captures.step event).1.work < captures.work := by
      cases event with
      | captureOnce reporter thrown request throws => exact first.elim
      | settle number succeeds => exact work_settle first succeeds
      | flush throws => exact first.elim
      | resume flush throws =>
        obtain ⟨phase, found, goes⟩ := first
        exact work_resume found goes throws
    have rest_bound := ih others
    rw [List.length_cons]
    omega

theorem flushesTerminate (captures : ExceptionCaptures) : captures.FlushesTerminate := by
  refine ⟨length_le_work, fun flush deliveries found idle throws => ⟨_, found, ?_⟩⟩
  unfold isResumed
  rw [idle]
  simp

end ExceptionCaptures

/-- What is claimed of a state of the captures and of the steps that follow it. -/
structure DeliversEachOnce (captures : ExceptionCaptures) : Prop where
  once : captures.DeliversOnce
  handsOver : ∀ event, captures.HandsOver event
  terminates : captures.FlushesTerminate

/-- Where no late rejection takes away the mark of a later occurrence and no Error with a deferred
capture is forgotten, each occurrence is delivered once, flushes hand over every occurrence, and
they terminate. -/
theorem delivers_once (events : List CaptureEvent)
    (timely : Machine.Along ExceptionCaptures.step ExceptionCaptures.IsTimely .initial events) :
    Machine.Throughout ExceptionCaptures.step DeliversEachOnce .initial events := by
  have kept : ∀ (captures : ExceptionCaptures) (event : CaptureEvent), captures.IsSound →
      captures.IsTimely event → (captures.step event).1.IsSound :=
    fun _ _ sound timely => sound.step timely
  have sound : Machine.Throughout step ExceptionCaptures.IsSound .initial events :=
    Machine.throughout_of_along kept isSound_initial timely
  intro earlier later split
  have here := sound earlier later split
  exact ⟨here.once, here.handsOver, flushesTerminate _⟩

def plainRequest : CaptureRequest :=
  ⟨⟨"REQUEST_FAILED", none, none, none, none, none, none, none⟩, false, none, false, false⟩

/-- An Error that is rejected, captured again and flushed is delivered once. -/
theorem retried_delivers_once :
    Machine.Throughout ExceptionCaptures.step DeliversEachOnce .initial
      [.captureOnce 0 (.error 0) plainRequest false, .settle 0 false,
        .captureOnce 0 (.error 0) plainRequest false, .flush fun _ => false, .settle 1 true] := by
  apply delivers_once
  refine ⟨(fun allows => by cases allows), fun report found _ _ => ?_,
    (fun allows => by cases allows), trivial, trivial, trivial⟩
  cases found
  rfl

/-- An Error is captured and may be reused, and captured again; then the first delivery is rejected
and the Error is captured once more. -/
def lateRejection : List CaptureEvent :=
  [.captureOnce 0 (.error 0) { plainRequest with allowFutureOccurrence := true } false,
    .captureOnce 0 (.error 0) plainRequest false, .settle 0 false,
    .captureOnce 0 (.error 0) plainRequest false]

/-- The second occurrence is handed over again while it is in flight. -/
theorem handed_twice :
    ¬∀ events, DeliversEachOnce (Machine.after ExceptionCaptures.step .initial events) := by
  intro every
  have once := (every lateRejection).once
  unfold ExceptionCaptures.DeliversOnce at once
  revert once
  decide

end NancyMan.Telemetry
