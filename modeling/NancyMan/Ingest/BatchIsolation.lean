import NancyMan.Ingest.ServerIngest
import NancyMan.Lib.Fallible

/-!
# What a batch says of its items

An item of a batch should be answered what it would be answered alone. A batch answers for all of
its items or throws: one item whose key is known with another payload takes the answer from all the
others, although these are stored. The items of a batch are answered one by one exactly when the
tables take each of them and those that are new to the tables do not contradict one another.
-/
namespace NancyMan.Ingest

open IngestStore

open Telemetry (SanitizerRules textOf)

/-- What becomes of an item. -/
inductive Outcome where
  | accepted
  | duplicate
  | rejected
  | thrown (error : IngestError)

/-- The outcome that a result reports. -/
def ItemResult.outcome : ItemResult → Outcome
  | .accepted _ false => .accepted
  | .accepted _ true => .duplicate
  | .rejected _ => .rejected

/-- The outcome of a single ingest. -/
def outcomeOf : Except IngestError (IngestStore × ServerIngestResult) → Outcome
  | .ok stored => stored.2.result.outcome
  | .error error => .thrown error

section Isolation

variable (rules : IngestRules)

/-- Whether the tables take a record. -/
def IngestStore.takes (store : IngestStore) (record : RawIngestRecord) : Bool :=
  record.passesKeyChecks &&
    match store.find record.ingestClientId record.idempotencyKey with
    | some previous => previous.matchesRecord record
    | none => !store.hasEvent record.eventId && record.passesEnvelopeChecks

def IngestStore.isNew (store : IngestStore) (record : RawIngestRecord) : Bool :=
  (store.find record.ingestClientId record.idempotencyKey).isNone

/-- Two records that share their key, their event and their payload, or neither key nor event. -/
def RawIngestRecord.Agrees (left right : RawIngestRecord) : Prop :=
  (left.idempotencyKey = right.idempotencyKey ↔ left.eventId = right.eventId) ∧
    (left.idempotencyKey = right.idempotencyKey → left.payloadHash = right.payloadHash)

def isEnvelopeItem (item : Json) : Bool := item.isRecord && isValidEnvelope rules item

/-- Items that can be stored in any order: each envelope among them can be sent alone, the tables
take it, and the new ones agree. -/
structure Storable (store : IngestStore) (ingestClientId : String) (receivedAt : Int)
    (items : List Json) : Prop where
  sendable : ∀ item ∈ items, isEnvelopeItem rules item = true → bodySize item.render ≤ 512 * 1024
  taken : ∀ item ∈ items, isEnvelopeItem rules item = true →
    store.takes (recordOf rules ingestClientId item receivedAt) = true
  agree : ∀ left ∈ items, ∀ right ∈ items,
    isEnvelopeItem rules left = true → isEnvelopeItem rules right = true →
    store.isNew (recordOf rules ingestClientId left receivedAt) = true →
    store.isNew (recordOf rules ingestClientId right receivedAt) = true →
    (recordOf rules ingestClientId left receivedAt).Agrees
      (recordOf rules ingestClientId right receivedAt)

/-- A batch that is stored is answered, in whatever order its transactions commit, and each of its
items is reported the outcome that it would have had alone on the tables that its transaction
meets. -/
def BatchIsolated (store : IngestStore) (authenticated : Except String String) (rawBody : String)
    (receivedAt : Int) : Prop :=
  ∀ ingestClientId items, batchItems authenticated rawBody = .ok (ingestClientId, items) →
    ∀ order : List (Json × Nat), order.Perm items.zipIdx →
      ∃ status accepted rejected results,
        ingestBatch rules store authenticated rawBody receivedAt order =
          .ok (.stored status accepted rejected results) ∧
        ∀ turn ∈ turns rules ingestClientId receivedAt store order,
          ∃ result, results[turn.place]? = some result ∧
            result.outcome = outcomeOf (ingest rules turn.met (.ok ingestClientId)
              turn.item.render receivedAt)

end Isolation

/-! ## One record -/

namespace IngestStore

variable {store : IngestStore} {record other : RawIngestRecord}

/-- The tables take a record exactly when storing it does not throw. -/
theorem takes_iff : store.takes record ↔ ∃ stored, store.insertRaw record = .ok stored := by
  unfold takes insertRaw
  cases record.passesKeyChecks with
  | false => simp
  | true =>
    cases store.find record.ingestClientId record.idempotencyKey with
    | some previous => cases same : previous.matchesRecord record <;> simp [same]
    | none =>
      cases store.hasEvent record.eventId with
      | true => simp
      | false => cases record.passesEnvelopeChecks <;> simp

/-- A record that is taken and whose key is known leaves the tables as they are. -/
theorem insertRaw_known (taken : store.takes record) (known : store.isNew record = false) :
    store.insertRaw record = .ok (store, true) := by
  unfold takes at taken
  unfold isNew at known
  unfold insertRaw
  cases found : store.find record.ingestClientId record.idempotencyKey with
  | none => rw [found] at known; cases known
  | some previous =>
    rw [found, Bool.and_eq_true] at taken
    have passes : record.passesKeyChecks := taken.1
    have same : previous.matchesRecord record := taken.2
    simp [passes, same]

/-- A record that is taken and whose key is new is inserted. -/
theorem insertRaw_new (taken : store.takes record) (isNew : store.isNew record) :
    store.insertRaw record = .ok (store.insertRecord record, false) := by
  have missing : store.find record.ingestClientId record.idempotencyKey = none :=
    Option.isNone_iff_eq_none.mp isNew
  unfold takes at taken
  unfold insertRaw
  rw [missing] at taken ⊢
  simp only [Bool.and_eq_true, Bool.not_eq_true'] at taken
  simp [taken.1, taken.2.1, taken.2.2]

/-- The row of a key once a record is inserted. -/
theorem find_insertRecord (ingestClientId idempotencyKey : String) :
    (store.insertRecord record).find ingestClientId idempotencyKey =
      (store.find ingestClientId idempotencyKey).or
        (if record.idempotencyRow.isUnder ingestClientId idempotencyKey then
          some record.idempotencyRow else none) := by
  change (store.idempotency ++ [record.idempotencyRow]).find? _ = _
  rw [List.find?_append, List.find?_singleton]
  rfl

theorem hasEvent_insertRecord (eventId : String) :
    (store.insertRecord record).hasEvent eventId =
      (store.hasEvent eventId || record.eventId == eventId) := by
  change (store.idempotency ++ [record.idempotencyRow]).any _ = _
  rw [List.any_append, List.any_cons, List.any_nil, Bool.or_false]
  rfl

theorem isNew_of_insertRecord (isNew : (store.insertRecord record).isNew other) :
    store.isNew other := by
  unfold IngestStore.isNew at isNew ⊢
  rw [find_insertRecord] at isNew
  cases found : store.find other.ingestClientId other.idempotencyKey with
  | none => rfl
  | some row => rw [found] at isNew; cases isNew

/-- With a record inserted, the tables take another of the client exactly when they did and, where
both are new, the two agree. -/
theorem takes_insertRecord (client : record.ingestClientId = other.ingestClientId) :
    (store.takes other ∧ (store.isNew other → record.Agrees other)) ↔
      store.takes other ∧ (store.insertRecord record).takes other := by
  refine and_congr_right fun takes => ?_
  have under : record.idempotencyRow.isUnder other.ingestClientId other.idempotencyKey =
      decide (record.idempotencyKey = other.idempotencyKey) := by
    simp [IdempotencyRow.isUnder, RawIngestRecord.idempotencyRow, client, Bool.beq_eq_decide_eq]
  unfold IngestStore.takes at takes ⊢
  unfold isNew
  rw [find_insertRecord, hasEvent_insertRecord, under]
  rw [Bool.and_eq_true] at takes
  have passes : other.passesKeyChecks := takes.1
  have rest := takes.2
  cases found : store.find other.ingestClientId other.idempotencyKey with
  | some previous =>
    rw [found] at rest
    simp [passes, rest]
  | none =>
    rw [found] at rest
    simp only [Bool.and_eq_true, Bool.not_eq_true'] at rest
    have unused : store.hasEvent other.eventId = false := rest.1
    have stores : other.passesEnvelopeChecks := rest.2
    by_cases same : record.idempotencyKey = other.idempotencyKey
    · simp [passes, same, RawIngestRecord.Agrees, IdempotencyRow.matchesRecord,
        RawIngestRecord.idempotencyRow]
    · simp [passes, same, unused, stores, RawIngestRecord.Agrees]

end IngestStore

section Items

variable {rules : IngestRules} {store : IngestStore} {ingestClientId : String} {receivedAt : Int}
  {item : Json} {items rest : List Json}

/-! ## One item -/

theorem storeEnvelope_other (other : isEnvelopeItem rules item = false) :
    storeEnvelope rules store ingestClientId item receivedAt =
      .ok (store, .rejected "INVALID_ENVELOPE") := by
  unfold isEnvelopeItem at other
  unfold storeEnvelope
  rw [other]
  rfl

variable (envelope : isEnvelopeItem rules item = true)

include envelope

/-- An envelope is stored as its record. -/
theorem storeEnvelope_envelope :
    storeEnvelope rules store ingestClientId item receivedAt =
      (store.insertRaw (recordOf rules ingestClientId item receivedAt)).map fun stored =>
        (stored.1, .accepted (recordOf rules ingestClientId item receivedAt).eventId stored.2) := by
  unfold isEnvelopeItem at envelope
  unfold storeEnvelope
  rw [envelope]
  rfl

/-- An envelope that is stored was taken. -/
theorem takes_of_storeEnvelope {stored : IngestStore × ItemResult}
    (ended : storeEnvelope rules store ingestClientId item receivedAt = .ok stored) :
    store.takes (recordOf rules ingestClientId item receivedAt) := by
  rw [storeEnvelope_envelope envelope] at ended
  refine takes_iff.mpr ?_
  cases inserted : store.insertRaw (recordOf rules ingestClientId item receivedAt) with
  | error error => rw [inserted] at ended; cases ended
  | ok pair => exact ⟨pair, rfl⟩

/-- The tables after an envelope that they take. -/
theorem storeAfter_envelope (taken : store.takes (recordOf rules ingestClientId item receivedAt)) :
    storeAfter rules store ingestClientId item receivedAt =
      if store.isNew (recordOf rules ingestClientId item receivedAt) then
        store.insertRecord (recordOf rules ingestClientId item receivedAt) else store := by
  unfold storeAfter
  rw [storeEnvelope_envelope envelope]
  cases isNew : store.isNew (recordOf rules ingestClientId item receivedAt) with
  | true => rw [insertRaw_new taken isNew]; rfl
  | false => rw [insertRaw_known taken isNew]; rfl

omit envelope

theorem storeAfter_other (other : isEnvelopeItem rules item = false) :
    storeAfter rules store ingestClientId item receivedAt = store := by
  unfold storeAfter
  rw [storeEnvelope_other other]

theorem parseEnvelope_render (item : Json) :
    (parseEnvelope item.render).getD .null = if item.isRecord then item else .null := by
  unfold parseEnvelope
  rw [Json.parse_render, Option.filter_some]
  cases item.isRecord <;> rfl

/-- What an item is answered alone. -/
theorem ingest_render (item : Json) :
    ingest rules store (.ok ingestClientId) item.render receivedAt =
      if 512 * 1024 < bodySize item.render then
        .ok (store, ⟨413, .rejected "PAYLOAD_TOO_LARGE"⟩)
      else
        (storeEnvelope rules store ingestClientId (if item.isRecord then item else .null)
          receivedAt).map fun stored => (stored.1,
            ⟨(match stored.2 with
              | .accepted .. => 202
              | .rejected _ => 400), stored.2⟩) := by
  rw [← parseEnvelope_render]
  rfl

/-- An item that is stored in a batch has the outcome that it has alone exactly when it is no
envelope or can be sent. -/
theorem outcome_eq_iff {stored : IngestStore × ItemResult}
    (ended : storeEnvelope rules store ingestClientId item receivedAt = .ok stored) :
    stored.2.outcome = outcomeOf (ingest rules store (.ok ingestClientId) item.render receivedAt) ↔
      (isEnvelopeItem rules item → bodySize item.render ≤ 512 * 1024) := by
  rw [ingest_render]
  cases kind : isEnvelopeItem rules item with
  | false =>
    have other : isEnvelopeItem rules (if item.isRecord then item else .null) = false := by
      split
      · exact kind
      · rfl
    rw [storeEnvelope_other kind] at ended
    obtain rfl := Except.ok.inj ended
    split
    · simp [outcomeOf, ItemResult.outcome]
    · rw [storeEnvelope_other other]
      simp [outcomeOf, ItemResult.outcome, Except.map]
  | true =>
    have isRecord : item.isRecord := (Bool.and_eq_true _ _ |>.mp kind).1
    have accepted : ∃ eventId duplicate, stored.2 = .accepted eventId duplicate := by
      rw [storeEnvelope_envelope kind] at ended
      cases inserted : store.insertRaw (recordOf rules ingestClientId item receivedAt) with
      | error error => rw [inserted] at ended; cases ended
      | ok pair =>
        rw [inserted] at ended
        exact ⟨_, pair.2, congrArg Prod.snd (Except.ok.inj ended).symm⟩
    obtain ⟨eventId, duplicate, accepted⟩ := accepted
    split
    · next large =>
      have reported : stored.2.outcome ≠ .rejected := by
        intro same
        rw [accepted] at same
        cases duplicate <;> cases same
      exact ⟨fun same => absurd same reported, fun small => absurd (small rfl) (by omega)⟩
    · next small =>
      rw [ended]
      exact ⟨fun _ _ => by omega, fun _ => rfl⟩

/-! ## One turn -/

/-- An item that can be stored with others is stored, and the others can be stored after it. -/
theorem storeEnvelope_storable
    (storable : Storable rules store ingestClientId receivedAt (item :: rest)) :
    (∃ stored, storeEnvelope rules store ingestClientId item receivedAt = .ok stored) ∧
      Storable rules (storeAfter rules store ingestClientId item receivedAt) ingestClientId
        receivedAt rest := by
  have remaining : Storable rules store ingestClientId receivedAt rest :=
    ⟨fun other member => storable.sendable other (.tail _ member),
      fun other member => storable.taken other (.tail _ member),
      fun left leftMember right rightMember =>
        storable.agree left (.tail _ leftMember) right (.tail _ rightMember)⟩
  cases kind : isEnvelopeItem rules item with
  | false =>
    rw [storeAfter_other kind]
    exact ⟨⟨_, storeEnvelope_other kind⟩, remaining⟩
  | true =>
    have taken := storable.taken item (.head _) kind
    have stored : ∃ stored, storeEnvelope rules store ingestClientId item receivedAt =
        .ok stored := by
      obtain ⟨pair, inserted⟩ := takes_iff.mp taken
      rw [storeEnvelope_envelope kind, inserted]
      exact ⟨_, rfl⟩
    refine ⟨stored, ?_⟩
    rw [storeAfter_envelope kind taken]
    split
    · next isNew =>
      refine ⟨remaining.sendable, fun other member envelope => ?_,
        fun left leftMember right rightMember leftKind rightKind leftNew rightNew =>
          remaining.agree left leftMember right rightMember leftKind rightKind
            (isNew_of_insertRecord leftNew)
            (isNew_of_insertRecord rightNew)⟩
      have agrees := storable.agree item (.head _) other (.tail _ member) kind envelope isNew
      have client : (recordOf rules ingestClientId item receivedAt).ingestClientId =
        (recordOf rules ingestClientId other receivedAt).ingestClientId := rfl
      exact ((takes_insertRecord client).mp
        ⟨remaining.taken other member envelope, agrees⟩).2
    · exact remaining

theorem storable_of_perm {others : List Json} (same : others.Perm items)
    (storable : Storable rules store ingestClientId receivedAt items) :
    Storable rules store ingestClientId receivedAt others :=
  ⟨fun item member => storable.sendable item (same.mem_iff.mp member),
    fun item member => storable.taken item (same.mem_iff.mp member),
    fun left leftMember right rightMember =>
      storable.agree left (same.mem_iff.mp leftMember) right (same.mem_iff.mp rightMember)⟩

/-! ## One batch -/

theorem turns_place (order : List (Json × Nat)) :
    (turns rules ingestClientId receivedAt store order).map Turn.place = order.map Prod.snd := by
  induction order generalizing store with
  | nil => rfl
  | cons first rest ih => exact congrArg (first.2 :: ·) ih

/-- Every turn of items that can be stored is answered what its item is answered alone. -/
theorem answerOf_storable {order : List (Json × Nat)}
    (storable : Storable rules store ingestClientId receivedAt (order.map Prod.fst)) :
    ∀ turn ∈ turns rules ingestClientId receivedAt store order,
      ∃ result, answerOf rules ingestClientId receivedAt turn = .ok result ∧
        result.outcome = outcomeOf (ingest rules turn.met (.ok ingestClientId)
          turn.item.render receivedAt) := by
  induction order generalizing store with
  | nil => exact fun turn member => absurd member List.not_mem_nil
  | cons first rest ih =>
    obtain ⟨⟨stored, ended⟩, later⟩ := storeEnvelope_storable storable
    intro turn member
    cases member with
    | head =>
      refine ⟨stored.2, ?_, (outcome_eq_iff ended).mpr (storable.sendable first.1 (.head _))⟩
      unfold answerOf
      rw [ended]
      rfl
    | tail _ member => exact ih later turn member

/-- A batch whose turns are all answered is stored. -/
theorem storeBatch_of_answered {order : List (Json × Nat)}
    (answered : ∀ turn ∈ turns rules ingestClientId receivedAt store order,
      ∃ result, answerOf rules ingestClientId receivedAt turn = .ok result) :
    ∃ status accepted rejected results,
      storeBatch rules store ingestClientId receivedAt order =
        .ok (.stored status accepted rejected results) := by
  have mapped : ∃ answers, ((turns rules ingestClientId receivedAt store order).mapM fun turn =>
      (answerOf rules ingestClientId receivedAt turn).map fun result => (turn.place, result)) =
        .ok answers := by
    refine Fallible.mapM_succeeds fun turn member => ?_
    obtain ⟨result, answer⟩ := answered turn member
    exact ⟨(turn.place, result), by rw [answer]; rfl⟩
  obtain ⟨answers, mapped⟩ := mapped
  unfold storeBatch
  rw [mapped]
  exact ⟨_, _, _, _, rfl⟩

/-- The answers of some turns take their places. -/
theorem places_of_mapM {order : List Turn} {answers : List (Nat × ItemResult)}
    (mapped : (order.mapM fun turn =>
      (answerOf rules ingestClientId receivedAt turn).map fun result => (turn.place, result)) =
        .ok answers) : answers.map Prod.fst = order.map Turn.place := by
  have pairs := Fallible.forall₂_of_mapM mapped
  clear mapped
  induction pairs with
  | nil => rfl
  | cons answered _ ih =>
    obtain ⟨result, -, rfl⟩ := Fallible.map_ok answered
    exact congrArg (_ :: ·) ih

/-- A batch that is stored reports at the place of each turn what it is answered. -/
theorem answerOf_of_storeBatch {order : List (Json × Nat)} {status accepted rejected : Nat}
    {results : List ItemResult} (same : order.Perm items.zipIdx)
    (ended : storeBatch rules store ingestClientId receivedAt order =
      .ok (.stored status accepted rejected results)) {turn : Turn}
    (member : turn ∈ turns rules ingestClientId receivedAt store order) :
    ∃ result, answerOf rules ingestClientId receivedAt turn = .ok result ∧
      results[turn.place]? = some result := by
  unfold storeBatch at ended
  obtain ⟨answers, mapped, reported⟩ := Fallible.bind_ok ended
  have results_eq : (List.range order.length).filterMap (fun place => answers.lookup place) =
      results := (ServerBatchResult.stored.inj (Except.ok.inj reported)).2.2.2
  have places : answers.map Prod.fst = order.map Prod.snd := by
    have placed : (turns rules ingestClientId receivedAt store order).map Turn.place =
      order.map Prod.snd := turns_place order
    rw [← placed]
    exact places_of_mapM mapped
  have perm : (answers.map Prod.fst).Perm (List.range order.length) := by
    rw [places, same.length_eq, List.length_zipIdx, List.range_eq_range',
      ← List.zipIdx_map_snd 0 items]
    exact same.map Prod.snd
  have distinct : (answers.map Prod.fst).Nodup := perm.nodup_iff.mpr List.nodup_range
  obtain ⟨pair, found, answered⟩ := Fallible.exists_of_mapM mapped member
  obtain ⟨result, answer, rfl⟩ := Fallible.map_ok answered
  refine ⟨result, answer, ?_⟩
  have inside : turn.place < order.length :=
    List.mem_range.mp (perm.mem_iff.mp (List.mem_map_of_mem found))
  rw [← results_eq, Fallible.getElem?_filterMap_range (fun place within => ?_) inside]
  · exact Fallible.lookup_of_mem distinct found
  · obtain ⟨other, held, rfl⟩ := List.mem_map.mp (perm.mem_iff.mpr (List.mem_range.mpr within))
    rw [Fallible.lookup_of_mem distinct held]
    rfl

theorem exists_first (member : item ∈ items) :
    ∃ place rest, ((item, place) :: rest).Perm items.zipIdx := by
  obtain ⟨place, inside, rfl⟩ := List.getElem_of_mem member
  have held : (items[place], place) ∈ items.zipIdx :=
    List.mk_mem_zipIdx_iff_getElem?.mpr (List.getElem?_eq_getElem inside)
  obtain ⟨before, after, split⟩ := List.append_of_mem held
  exact ⟨place, before ++ after, split ▸ List.perm_middle.symm⟩

/-- An order in which two different items of a batch are stored first. -/
theorem exists_first_two {left right : Json} (leftMember : left ∈ items)
    (rightMember : right ∈ items) (differ : left ≠ right) :
    ∃ leftPlace rightPlace rest,
      ((left, leftPlace) :: (right, rightPlace) :: rest).Perm items.zipIdx := by
  obtain ⟨leftPlace, rest, whole⟩ := exists_first leftMember
  obtain ⟨rightPlace, inside, rfl⟩ := List.getElem_of_mem rightMember
  have held : (items[rightPlace], rightPlace) ∈ (left, leftPlace) :: rest :=
    whole.mem_iff.mpr (List.mk_mem_zipIdx_iff_getElem?.mpr (List.getElem?_eq_getElem inside))
  have later : (items[rightPlace], rightPlace) ∈ rest := by
    refine (List.mem_cons.mp held).resolve_left fun same => ?_
    exact differ (congrArg Prod.fst same).symm
  obtain ⟨before, after, rfl⟩ := List.append_of_mem later
  exact ⟨leftPlace, rightPlace, before ++ after,
    (List.Perm.cons _ List.perm_middle.symm).trans whole⟩

/-- Each item is stored in its turn, and an envelope could have been sent alone. -/
def Answered (rules : IngestRules) (store : IngestStore) (ingestClientId : String)
    (receivedAt : Int) (order : List (Json × Nat)) : Prop :=
  ∀ turn ∈ turns rules ingestClientId receivedAt store order,
    ∃ stored, storeEnvelope rules turn.met ingestClientId turn.item receivedAt = .ok stored ∧
      (isEnvelopeItem rules turn.item = true → bodySize turn.item.render ≤ 512 * 1024)

/-- The items of a batch whose every order is answered can be stored. -/
theorem storable_of_answered
    (answered : ∀ order : List (Json × Nat), order.Perm items.zipIdx →
      Answered rules store ingestClientId receivedAt order) :
    Storable rules store ingestClientId receivedAt items := by
  have first : ∀ item ∈ items, isEnvelopeItem rules item = true →
      bodySize item.render ≤ 512 * 1024 ∧
        store.takes (recordOf rules ingestClientId item receivedAt) = true := by
    intro item member envelope
    obtain ⟨place, rest, whole⟩ := exists_first member
    obtain ⟨stored, ended, small⟩ := answered _ whole ⟨store, item, place⟩ (.head _)
    exact ⟨small envelope, takes_of_storeEnvelope envelope ended⟩
  refine ⟨fun item member envelope => (first item member envelope).1,
    fun item member envelope => (first item member envelope).2, ?_⟩
  intro left leftMember right rightMember leftKind rightKind leftNew rightNew
  by_cases same : left = right
  · subst same
    exact ⟨Iff.intro (fun _ => rfl) (fun _ => rfl), fun _ => rfl⟩
  · obtain ⟨leftPlace, rightPlace, rest, whole⟩ := exists_first_two leftMember rightMember same
    have taken := (first left leftMember leftKind).2
    obtain ⟨stored, ended, -⟩ := answered _ whole
      ⟨storeAfter rules store ingestClientId left receivedAt, right, rightPlace⟩ (.tail _ (.head _))
    have takes := takes_of_storeEnvelope rightKind ended
    rw [storeAfter_envelope leftKind taken, if_pos leftNew] at takes
    have client : (recordOf rules ingestClientId left receivedAt).ingestClientId =
      (recordOf rules ingestClientId right receivedAt).ingestClientId := rfl
    exact ((takes_insertRecord client).mpr
      ⟨(first right rightMember rightKind).2, takes⟩).2 rightNew

end Items

def plainRules : IngestRules :=
  ⟨⟨id, id⟩, id, fun literal => literal.text == ['1']⟩

/-- An envelope of an event under one key. -/
def keyedEnvelope (eventId : String) : Json :=
  .object [("schemaVersion", .number ⟨['1'], .refl true, .refl true⟩), ("eventId", .string eventId),
    ("idempotencyKey", .string "repeated-key-0001"), ("source", .string "api")]

def repeatedKey : List Json :=
  [keyedEnvelope "EVT_00000000000000000000000001", keyedEnvelope "EVT_00000000000000000000000002"]

end NancyMan.Ingest
