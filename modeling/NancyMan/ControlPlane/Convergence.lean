import Mathlib.Data.List.Chain
import Mathlib.Data.List.Nodup
import Mathlib.Data.List.TakeWhile
import NancyMan.ControlPlane.Reconcile

/-!
# Convergence of the control plane

A poll should bring the record to the last state of the agent's history and log every
transition of the history once. `reconcileAgentStatus` replays the history from its first
event, so an event before the record's state must already be in the run log under the
identifiers the replay gives it; `Replayable` says so, and `converges_iff` that nothing else
decides whether a poll converges but a block of the application and the last version.
-/
namespace NancyMan.ControlPlane

open AgentEvent
open List (map_append map_cons mem_append mem_cons mem_cons_self mem_map mem_singleton nodup_cons)

variable {Id : Type}

def SeedHash.reconciledId (hash : SeedHash Id) (changeId eventId : String) : Id :=
  hash.transitionId (eventSeed changeId eventId)

/-- What every writer of the rows keeps. -/
structure Lawful (hash : SeedHash Id) (db : Database Id) : Prop where
  actor : db.change.actorUserId ≠ ""
  safe : db.change.version ≤ maxSafeInteger
  /-- The run log does not run ahead of the record. -/
  below : ∀ row ∈ db.runs, row.sequence ≤ db.change.version
  behind : ∀ row ∈ db.runs, row.state.rank ≤ db.change.state.rank
  /-- The row of the record's state has the record's version. -/
  current : ∀ row ∈ db.runs, row.state = db.change.state → row.sequence = db.change.version
  /-- No state is entered twice. -/
  once : (db.runs.map RunRow.state).Nodup
  /-- A seed's two identifiers come together. -/
  paired : ∀ row ∈ db.runs, ∀ seed,
    row.transitionId = hash.transitionId seed ↔ row.eventId = hash.eventId seed
  /-- A reconciled row has the run and the actor of the change. -/
  own : ∀ row ∈ db.runs, ∀ seed, row.transitionId = hash.transitionId seed →
    row.runId = hash.runId db.change.id ∧ row.actorUserId = db.change.actorUserId ∧
      row.actorSessionId = db.change.actorSessionId
  /-- A failed rollback was reached by a transition. -/
  failed : db.change.state = .rollbackFailed → db.runs ≠ []

/-- The events that enter a state, after one state. -/
def entriesAfter (state : ChangeState) : List AgentEvent → List AgentEvent
  | [] => []
  | event :: rest =>
    if event.state = state then entriesAfter state rest
    else event :: entriesAfter event.state rest

/-- The first events of the states of a history, in order. -/
def entries : List AgentEvent → List AgentEvent
  | [] => []
  | event :: rest => event :: entriesAfter event.state rest

def Logged (hash : SeedHash Id) (db : Database Id) (event : AgentEvent) : Prop :=
  ∃ row ∈ db.runs, row.transitionId = hash.reconciledId db.change.id event.eventId

/-- A status response that carries a legal history, with the record's state on it. -/
structure Admissible (hash : SeedHash Id) (db : Database Id) (response : ChangeStatusResponse) :
    Prop where
  /-- Consecutive events stay in a state or take a legal transition. -/
  legal : (response.events.map AgentEvent.state).IsChain fun source target =>
    target = source ∨ target ∈ source.legalTransitions
  distinct : (response.events.map AgentEvent.eventId).Nodup
  last : (response.events.map AgentEvent.state).getLast? = some response.state
  onHistory : db.change.state ∈ response.events.map AgentEvent.state
  /-- An event reconciled before was reconciled in its own state. -/
  named : ∀ event ∈ response.events, ∀ row ∈ db.runs,
    row.transitionId = hash.reconciledId db.change.id event.eventId → row.state = event.state

def passed (db : Database Id) (response : ChangeStatusResponse) : List AgentEvent :=
  (entries response.events).takeWhile fun event => event.state ≠ db.change.state

def remaining (db : Database Id) (response : ChangeStatusResponse) : List AgentEvent :=
  ((entries response.events).dropWhile fun event => event.state ≠ db.change.state).tail

/-- A poll succeeds, leaves the record in the last state of the history, and every transition of
the history is once in the run log. -/
def Converges [DecidableEq Id] (hash : SeedHash Id) (now : Int) (db : Database Id)
    (response : ChangeStatusResponse) : Prop :=
  (∃ record, (poll hash now db response).2 = .ok record) ∧
    (poll hash now db response).1.change.state = response.state ∧
    ∀ event ∈ (entries response.events).tail,
      ((poll hash now db response).1.runs.map RunRow.state).count event.state = 1

/-- The entries before the record's state are already reconciled, its own entry is logged when
there are any, no block forbids what remains, and the versions suffice for it. -/
def Replayable (hash : SeedHash Id) (db : Database Id) (response : ChangeStatusResponse) : Prop :=
  (∀ event ∈ passed db response, Logged hash db event) ∧
    (passed db response ≠ [] → db.change.state ∈ db.runs.map RunRow.state) ∧
    ¬ (db.isBlocked ∧ .applying ∈ (remaining db response).map AgentEvent.state) ∧
    db.change.version + (remaining db response).length ≤ maxSafeInteger

/-! ## Entries of a history -/

/-- Entering states from a state follows legal transitions. -/
theorem entriesAfter_legal (state : ChangeState) (events : List AgentEvent)
    (legal : (state :: events.map AgentEvent.state).IsChain fun source target =>
      target = source ∨ target ∈ source.legalTransitions) :
    (state :: (entriesAfter state events).map AgentEvent.state).IsChain fun source target =>
      target ∈ source.legalTransitions := by
  induction events generalizing state with
  | nil => exact List.isChain_singleton _
  | cons event rest ih =>
    rw [map_cons, List.isChain_cons_cons] at legal
    obtain ⟨step, others⟩ := legal
    unfold entriesAfter
    split_ifs with same
    · exact ih state (same ▸ others)
    · rw [map_cons, List.isChain_cons_cons]
      exact ⟨step.resolve_left same, ih event.state others⟩

/-- Entries reach the same last state. -/
theorem entriesAfter_getLast (state : ChangeState) (events : List AgentEvent) :
    (state :: (entriesAfter state events).map AgentEvent.state).getLast? =
      (state :: events.map AgentEvent.state).getLast? := by
  induction events generalizing state with
  | nil => rfl
  | cons event rest ih =>
    unfold entriesAfter
    split_ifs with same
    · rw [← same]
      exact ih event.state
    · rw [map_cons, List.getLast?_cons_cons]
      exact ih event.state

/-- Entries visit every state. -/
theorem entriesAfter_mem (state : ChangeState) (events : List AgentEvent) (other : ChangeState) :
    other ∈ state :: (entriesAfter state events).map AgentEvent.state ↔
      other ∈ state :: events.map AgentEvent.state := by
  induction events generalizing state with
  | nil => rfl
  | cons event rest ih =>
    unfold entriesAfter
    split_ifs with same
    · rw [ih state, map_cons, same]
      simp
    · rw [map_cons, mem_cons, ih event.state, ← mem_cons, map_cons]

/-- Entries are events, in order. -/
theorem entriesAfter_sublist (state : ChangeState) (events : List AgentEvent) :
    (entriesAfter state events).Sublist events := by
  induction events generalizing state with
  | nil => exact List.Sublist.refl _
  | cons event rest ih =>
    unfold entriesAfter
    split_ifs
    · exact (ih state).cons _
    · exact (ih event.state).cons_cons _

theorem entries_sublist (events : List AgentEvent) : (entries events).Sublist events := by
  cases events with
  | nil => exact List.Sublist.refl _
  | cons event rest => exact (entriesAfter_sublist event.state rest).cons_cons _

theorem entries_getLast (events : List AgentEvent) :
    ((entries events).map state).getLast? =
      (events.map state).getLast? := by
  cases events with
  | nil => rfl
  | cons event rest => exact entriesAfter_getLast event.state rest

/-- The entries of a legal history follow legal transitions. -/
theorem entries_legal {events : List AgentEvent}
    (legal : (events.map state).IsChain fun source target =>
      target = source ∨ target ∈ source.legalTransitions) :
    ((entries events).map state).IsChain fun source target =>
      target ∈ source.legalTransitions := by
  cases events with
  | nil => exact List.isChain_nil
  | cons event rest => exact entriesAfter_legal event.state rest legal

theorem ranks_of_legal {states : List ChangeState}
    (legal : states.IsChain fun source target => target ∈ source.legalTransitions) :
    states.Pairwise fun source target => source.rank < target.rank := by
  have chain : states.IsChain fun source target => source.rank < target.rank :=
    legal.imp fun _ _ step => ChangeState.rank_legal step
  exact List.isChain_iff_pairwise.mp chain

variable {hash : SeedHash Id} {db : Database Id} {response : ChangeStatusResponse}

/-- The entries of a legal history split at the record's state: those passed are in earlier
places, and those that remain follow it legally. -/
theorem entries_split (admissible : Admissible hash db response) :
    ∃ event, event.state = db.change.state ∧
      entries response.events = passed db response ++ event :: remaining db response ∧
      (∀ other ∈ passed db response, other.state.rank < db.change.state.rank) ∧
      ((passed db response).map state).Nodup ∧
      (db.change.state :: (remaining db response).map state).IsChain fun source target =>
        target ∈ source.legalTransitions := by
  have chain := entries_legal admissible.legal
  have onEntries : db.change.state ∈ (entries response.events).map state := by
    have visited := admissible.onHistory
    cases events : response.events with
    | nil => rw [events] at visited; exact absurd visited List.not_mem_nil
    | cons first rest =>
      rw [events] at visited
      exact (entriesAfter_mem first.state rest _).mpr visited
  have nonempty : (entries response.events).dropWhile
      (fun event => event.state ≠ db.change.state) ≠ [] := by
    intro dropped
    obtain ⟨event, member, same⟩ := mem_map.mp onEntries
    have differs := List.dropWhile_eq_nil_iff.mp dropped event member
    simp [same] at differs
  obtain ⟨event, tail, split⟩ := List.exists_cons_of_ne_nil nonempty
  have atRecord : event.state = db.change.state := by
    have stops := List.head?_dropWhile_not
      (fun event : AgentEvent => decide (event.state ≠ db.change.state)) (entries response.events)
    rw [split] at stops
    simpa using stops
  have parts : entries response.events = passed db response ++ event :: remaining db response := by
    have whole := List.takeWhile_append_dropWhile
      (p := fun event => event.state ≠ db.change.state) (l := entries response.events)
    unfold passed remaining
    rw [split] at whole ⊢
    exact whole.symm
  rw [parts, map_append, map_cons, atRecord] at chain
  have ranks := ranks_of_legal chain
  refine ⟨event, atRecord, parts, fun other member => ?_, ?_, ?_⟩
  · exact (List.pairwise_append.mp ranks).2.2 other.state (List.mem_map_of_mem member) _ (.head _)
  · refine (List.pairwise_append.mp ranks).1.imp fun earlier same => ?_
    rw [same] at earlier
    exact lt_irrefl _ earlier
  · exact (List.isChain_append.mp chain).2.1

/-! ## One transition -/

/-- A record that differs from the change at most by being older. -/
structure Stale (record : ConfigChangeRecord) (db : Database Id) : Prop where
  id : record.id = db.change.id
  application : record.applicationId = db.change.applicationId
  actor : record.actorUserId = db.change.actorUserId
  session : record.actorSessionId = db.change.actorSessionId
  version : record.version ≤ db.change.version

theorem stale_refl (db : Database Id) : Stale db.change db := ⟨rfl, rfl, rfl, rfl, le_rfl⟩

variable {record : ConfigChangeRecord}

/-- The reconciled inputs pass the repository's own checks. -/
theorem reconcileInput_accepted (lawful : Lawful hash db) (stale : Stale record db)
    (event : AgentEvent) (seed : String) :
    ¬ maxSafeInteger < (reconcileInput hash record event seed).expectedVersion ∧
      ((reconcileInput hash record event seed).resultCode.any fun code =>
        !code.isEmpty && !resultCodeAccepted code) = false ∧
      ¬ (db.change.id ≠ (reconcileInput hash record event seed).changeId ∨
        db.change.applicationId ≠ (reconcileInput hash record event seed).applicationId) := by
  refine ⟨?_, ?_, ?_⟩
  · have bound := lawful.safe
    have older := stale.version
    simp only [reconcileInput]
    omega
  · simp only [reconcileInput]
    split_ifs
    · rfl
    · simp [event.coded]
  · simp [reconcileInput, stale.id, stale.application]

theorem transitionId_distinct (hash : SeedHash Id) {left right : String}
    (same : hash.transitionId left = hash.transitionId right) : left = right :=
  (String.append_right_inj _).mp (hash.distinct same)

theorem eventId_distinct (hash : SeedHash Id) {left right : String}
    (same : hash.eventId left = hash.eventId right) : left = right :=
  (String.append_right_inj _).mp (hash.distinct same)

theorem transitionId_paired (hash : SeedHash Id) (left right : String) :
    hash.transitionId left = hash.transitionId right ↔ hash.eventId left = hash.eventId right := by
  constructor
  · intro same
    rw [transitionId_distinct hash same]
  · intro same
    rw [eventId_distinct hash same]

variable {seed : String}

/-- A moved change keeps what every writer keeps. -/
theorem lawful_moved (lawful : Lawful hash db) {event : AgentEvent}
    (legal : event.state ∈ db.change.state.legalTransitions)
    (room : db.change.version < maxSafeInteger) (stale : Stale record db)
    {next : ChangeStateSnapshot Id} (state : next.state = event.state)
    (version : next.version = db.change.version + 1) :
    Lawful hash (db.moved (reconcileInput hash record event seed) next) := by
  have later : db.change.state.rank < next.state.rank := state ▸ ChangeState.rank_legal legal
  have earlier : ∀ row ∈ db.runs, row.state ≠ next.state := by
    intro row member same
    have behind := lawful.behind row member
    rw [same] at behind
    omega
  constructor
  · exact lawful.actor
  · simp only [Database.moved]
    omega
  · intro row member
    rcases mem_append.mp member with old | new
    · have below := lawful.below row old
      simp only [Database.moved]
      omega
    · rw [mem_singleton.mp new]
      exact le_rfl
  · intro row member
    rcases mem_append.mp member with old | new
    · exact (lawful.behind row old).trans (le_of_lt later)
    · rw [mem_singleton.mp new]
      exact le_rfl
  · intro row member same
    rcases mem_append.mp member with old | new
    · exact absurd same (earlier row old)
    · rw [mem_singleton.mp new]
      rfl
  · simp only [Database.moved, map_append, List.map_singleton]
    refine List.nodup_append.mpr ⟨lawful.once, by simp, ?_⟩
    intro old oldMember new newMember same
    obtain ⟨row, member, rfl⟩ := mem_map.mp oldMember
    rw [mem_singleton.mp newMember] at same
    exact earlier row member same
  · intro row member other
    rcases mem_append.mp member with old | new
    · exact lawful.paired row old other
    · rw [mem_singleton.mp new]
      exact transitionId_paired hash seed other
  · intro row member other same
    rcases mem_append.mp member with old | new
    · exact lawful.own row old other same
    · rw [mem_singleton.mp new]
      exact ⟨congrArg hash.runId stale.id, stale.actor, stale.session⟩
  · intro _
    simp [Database.moved]

theorem lawful_congr {rows : Database Id} (lawful : Lawful hash db)
    (change : rows.change = db.change) (runs : rows.runs = db.runs) : Lawful hash rows := by
  obtain ⟨actor, safe, below, behind, current, once, paired, own, failed⟩ := lawful
  rw [← change, ← runs] at *
  exact ⟨actor, safe, below, behind, current, once, paired, own, failed⟩

/-- Blocking the application of a failed rollback keeps the change and the run log. -/
theorem reconcileBlock_keeps {rows : Database Id}
    (ends : reconcileBlock db record response = .ok rows) :
    rows.change = db.change ∧ rows.runs = db.runs := by
  unfold reconcileBlock blockApplication at ends
  by_cases failed : response.state = .rollbackFailed
  · rw [if_pos failed] at ends
    cases held : db.block with
    | some kept =>
      rw [held] at ends
      cases ends
      exact ⟨rfl, rfl⟩
    | none =>
      rw [held] at ends
      cases latest : hasLatestRun db with
      | true =>
        rw [latest] at ends
        cases ends
        exact ⟨rfl, rfl⟩
      | false =>
        rw [latest] at ends
        cases ends
  · rw [if_neg failed] at ends
    cases ends
    exact ⟨rfl, rfl⟩

/-- Blocking the application of a failed rollback succeeds for a change that reached it. -/
theorem reconcileBlock_ok (lawful : Lawful hash db) (record : ConfigChangeRecord)
    (reached : db.change.state = response.state) :
    ∃ rows, reconcileBlock db record response = .ok rows := by
  unfold reconcileBlock blockApplication
  by_cases failed : response.state = .rollbackFailed
  · rw [if_pos failed]
    cases held : db.block with
    | some kept => exact ⟨_, rfl⟩
    | none =>
      have logged : hasLatestRun db := by
        have rows := lawful.failed (reached.trans failed)
        cases runs : db.runs with
        | nil => exact absurd runs rows
        | cons row rest => simp [hasLatestRun, runs]
      rw [logged]
      exact ⟨_, rfl⟩
  · exact ⟨_, if_neg failed⟩

variable [DecidableEq Id]

/-- A row found under a reconciled input is the row of its seed, and raises no conflict when it
is of the input's state. -/
theorem existingRow_own (lawful : Lawful hash db) (stale : Stale record db) {event : AgentEvent}
    {row : RunRow Id} (found : existingRow db (reconcileInput hash record event seed) = some row) :
    row ∈ db.runs ∧ row.transitionId = hash.transitionId seed ∧ row.eventId = hash.eventId seed ∧
      row.runId = hash.runId record.id ∧ row.actorUserId = record.actorUserId ∧
      row.actorSessionId = record.actorSessionId := by
  have member := List.mem_of_find?_eq_some found
  have either : row.transitionId = hash.transitionId seed ∨ row.eventId = hash.eventId seed := by
    have holds := List.find?_some found
    exact of_decide_eq_true holds
  have pair := lawful.paired row member seed
  have named : row.transitionId = hash.transitionId seed := either.elim id pair.mpr
  have own := lawful.own row member seed named
  rw [stale.id, stale.actor, stale.session]
  exact ⟨member, named, pair.mp named, own⟩

theorem existingRow_none (lawful : Lawful hash db) {event : AgentEvent}
    (unlogged : ∀ row ∈ db.runs, row.transitionId ≠ hash.transitionId seed) :
    existingRow db (reconcileInput hash record event seed) = none := by
  refine List.find?_eq_none.mpr fun row member => ?_
  have differs := unlogged row member
  have pair := lawful.paired row member seed
  simp [reconcileInput, differs, ← pair]

variable (now : Int) (lawful : Lawful hash db)

include lawful

variable (stale : Stale record db)

include stale

/-- Reconciling an event that is logged in its own state answers the logged row. -/
theorem transitionDatabase_logged {event : AgentEvent} (differs : record.state ≠ event.state)
    (logged : ∃ row ∈ db.runs, row.transitionId = hash.transitionId seed)
    (named : ∀ row ∈ db.runs, row.transitionId = hash.transitionId seed → row.state = event.state) :
    ∃ row ∈ db.runs, row.state = event.state ∧
      transitionDatabase hash now db record event seed =
        .ok (db, { record with state := event.state, version := row.sequence }) := by
  obtain ⟨safe, coded, present⟩ := reconcileInput_accepted lawful stale event seed
  cases found : existingRow db (reconcileInput hash record event seed) with
  | none =>
    obtain ⟨row, member, isRow⟩ := logged
    have misses := List.find?_eq_none.mp found row member
    simp [reconcileInput, isRow] at misses
  | some row =>
    obtain ⟨member, isRow, isEvent, run, actor, session⟩ := existingRow_own lawful stale found
    have state := named row member isRow
    refine ⟨row, member, state, ?_⟩
    unfold transitionDatabase transition
    rw [if_neg differs, if_neg safe, coded, if_neg Bool.false_ne_true, if_neg present, found]
    simp [reconcileInput, state, isRow, isEvent, run, actor, session]

/-- The record a reconciled transition leaves. -/
def advanced (record : ConfigChangeRecord) (state : ChangeState) (version : Nat) :
    ConfigChangeRecord :=
  { record with state := state, version := version }

/-- Reconciling an event that is not logged moves the change when it may. -/
theorem transitionDatabase_moves {event : AgentEvent} (differs : record.state ≠ event.state)
    (unlogged : ∀ row ∈ db.runs, row.transitionId ≠ hash.transitionId seed)
    (fresh : record.version = db.change.version)
    (legal : event.state ∈ db.change.state.legalTransitions)
    (room : db.change.version < maxSafeInteger)
    (free : ¬ (event.state = .applying ∧ db.isBlocked)) :
    ∃ next : ChangeStateSnapshot Id, next.state = event.state ∧
      next.version = db.change.version + 1 ∧
      transitionDatabase hash now db record event seed =
        .ok (db.moved (reconcileInput hash record event seed) next,
          advanced db.change event.state (db.change.version + 1)) := by
  obtain ⟨safe, coded, present⟩ := reconcileInput_accepted lawful stale event seed
  have actor : record.actorUserId ≠ "" := stale.actor ▸ lawful.actor
  obtain ⟨next, moves, state, version⟩ := transitionChange_legal db.snapshot
    ((reconcileInput hash record event seed).request now) rfl fresh room actor legal
  have unique : db.runs.any (fun row => decide (row.sequence = next.version)) = false := by
    refine List.any_eq_false.mpr fun row member => ?_
    have below := lawful.below row member
    have above : next.version = db.change.version + 1 := version
    simp only [decide_eq_true_eq]
    omega
  refine ⟨next, state, version, ?_⟩
  unfold transitionDatabase transition
  rw [if_neg differs, if_neg safe, coded, if_neg Bool.false_ne_true, if_neg present,
    existingRow_none lawful unlogged]
  rw [if_neg (by simpa [reconcileInput] using free), moves]
  dsimp only
  rw [unique, if_neg Bool.false_ne_true]
  simp only [state, version, reconcileInput, TransitionInput.request, Database.snapshot,
    advanced, stale.id, stale.application, stale.actor, stale.session]

/-- Reconciling an event that is not logged fails when it may not move the change. -/
theorem transitionDatabase_refuses {event : AgentEvent} (differs : record.state ≠ event.state)
    (unlogged : ∀ row ∈ db.runs, row.transitionId ≠ hash.transitionId seed)
    (wrong : record.version ≠ db.change.version ∨ maxSafeInteger ≤ db.change.version ∨
      event.state ∉ db.change.state.legalTransitions ∨ (event.state = .applying ∧ db.isBlocked)) :
    ∃ error, transitionDatabase hash now db record event seed = .error error := by
  obtain ⟨safe, coded, present⟩ := reconcileInput_accepted lawful stale event seed
  unfold transitionDatabase transition
  rw [if_neg differs, if_neg safe, coded, if_neg Bool.false_ne_true, if_neg present,
    existingRow_none lawful unlogged]
  by_cases blocked : event.state = .applying ∧ db.isBlocked
  · rw [if_pos (show (reconcileInput hash record event seed).target = .applying ∧ db.isBlocked
      from blocked)]
    exact ⟨_, rfl⟩
  · rw [if_neg (show ¬ ((reconcileInput hash record event seed).target = .applying ∧
      db.isBlocked) from blocked)]
    have still : ((reconcileInput hash record event seed).request now).expectedVersion ≠
          db.snapshot.version ∨ maxSafeInteger ≤ db.snapshot.version ∨
        ((reconcileInput hash record event seed).request now).target ∉
          db.snapshot.state.legalTransitions := by
      rcases wrong with version | full | illegal | block
      · exact .inl version
      · exact .inr (.inl full)
      · exact .inr (.inr illegal)
      · exact absurd block blocked
    obtain ⟨error, refuses⟩ := transitionChange_refuses db.snapshot _ rfl still
    rw [refuses]
    exact ⟨error, rfl⟩

/-- A reconciled transition that succeeds enters the state of its event, keeps what every writer
keeps and answers a record that is at most older than the change. -/
theorem transitionDatabase_keeps {now : Int}
    {event : AgentEvent} (differs : record.state ≠ event.state) {rows : Database Id}
    {next : ConfigChangeRecord}
    (moved : transitionDatabase hash now db record event seed = .ok (rows, next)) :
    next.state = event.state ∧ Lawful hash rows ∧ Stale next rows ∧
      rows.change.id = db.change.id := by
  cases found : existingRow db (reconcileInput hash record event seed) with
  | some row =>
    obtain ⟨safe, coded, present⟩ := reconcileInput_accepted lawful stale event seed
    obtain ⟨member, -⟩ := existingRow_own lawful stale found
    unfold transitionDatabase transition at moved
    rw [if_neg differs, if_neg safe, coded, if_neg Bool.false_ne_true, if_neg present,
      found] at moved
    dsimp only at moved
    split_ifs at moved with conflict
    cases moved
    have state : row.state = event.state := by
      by_contra other
      exact conflict (.inl other)
    exact ⟨state, lawful,
      ⟨stale.id, stale.application, stale.actor, stale.session, lawful.below row member⟩, rfl⟩
  | none =>
    have unlogged : ∀ row ∈ db.runs, row.transitionId ≠ hash.transitionId seed := by
      intro row member named
      have misses := List.find?_eq_none.mp found row member
      simp [reconcileInput, named] at misses
    have right : ¬ (record.version ≠ db.change.version ∨ maxSafeInteger ≤ db.change.version ∨
        event.state ∉ db.change.state.legalTransitions ∨
          (event.state = .applying ∧ db.isBlocked)) := by
      intro wrong
      obtain ⟨error, refuses⟩ :=
        transitionDatabase_refuses now lawful stale differs unlogged wrong
      rw [refuses] at moved
      cases moved
    simp only [not_or, not_not, ne_eq, Nat.not_le] at right
    obtain ⟨fresh, room, legal, free⟩ := right
    obtain ⟨next, state, version, moves⟩ :=
      transitionDatabase_moves now lawful stale differs unlogged fresh legal room free
    rw [moves] at moved
    cases moved
    refine ⟨rfl, lawful_moved lawful legal room stale state version,
      ⟨rfl, rfl, rfl, rfl, ?_⟩, rfl⟩
    simp [advanced, Database.moved, version]

/-! ## A poll -/

omit stale in
/-- Replaying events keeps what every writer keeps. -/
theorem reconcileEvents_lawful {changeId : String}
    (ours : db.change.id = changeId) (stale : Stale record db) (events : List AgentEvent) :
    Lawful hash (reconcileEvents hash now changeId db record events).1 ∧
      (reconcileEvents hash now changeId db record events).1.change.id = changeId := by
  induction events generalizing db record with
  | nil => exact ⟨lawful, ours⟩
  | cons event rest ih =>
    unfold reconcileEvents
    by_cases same : event.state = record.state
    · rw [if_pos same]
      exact ih lawful ours stale
    · rw [if_neg same]
      cases moved : transitionDatabase hash now db record event
          (eventSeed changeId event.eventId) with
      | ok result =>
        obtain ⟨-, kept, older, sameId⟩ :=
          transitionDatabase_keeps lawful stale (Ne.symm same) moved
        exact ih kept (sameId.trans ours) older
      | error error =>
        simp only [findById, if_pos ours]
        split_ifs
        · exact ih lawful ours (stale_refl db)
        · exact ⟨lawful, ours⟩

omit stale in
/-- Replaying the events of a state that is already current does nothing. -/
theorem reconcileEvents_entriesAfter {now : Int} {changeId : String}
    (ours : db.change.id = changeId) (stale : Stale record db) (events : List AgentEvent) :
    reconcileEvents hash now changeId db record events =
      reconcileEvents hash now changeId db record (entriesAfter record.state events) := by
  induction events generalizing db record with
  | nil => rfl
  | cons event rest ih =>
    by_cases same : event.state = record.state
    · rw [reconcileEvents, if_pos same, entriesAfter, if_pos same]
      exact ih lawful ours stale
    · rw [entriesAfter, if_neg same, reconcileEvents, if_neg same, reconcileEvents, if_neg same]
      cases moved : transitionDatabase hash now db record event
          (eventSeed changeId event.eventId) with
      | ok result =>
        obtain ⟨state, kept, older, sameId⟩ :=
          transitionDatabase_keeps lawful stale (Ne.symm same) moved
        rw [← state]
        exact ih kept (sameId.trans ours) older
      | error error =>
        simp only [findById, if_pos ours]
        split_ifs with refreshed
        · rw [← refreshed]
          exact ih lawful ours (stale_refl db)
        · rfl

omit stale in
/-- Replaying a history replays its entries. -/
theorem reconcileEvents_entries {now : Int} {changeId : String}
    (ours : db.change.id = changeId) (stale : Stale record db) (events : List AgentEvent) :
    reconcileEvents hash now changeId db record events =
      reconcileEvents hash now changeId db record (entries events) := by
  cases events with
  | nil => rfl
  | cons event rest =>
    by_cases same : event.state = record.state
    · rw [entries, reconcileEvents, if_pos same, reconcileEvents, if_pos same, same]
      exact reconcileEvents_entriesAfter lawful ours stale rest
    · rw [entries, reconcileEvents, if_neg same, reconcileEvents, if_neg same]
      cases moved : transitionDatabase hash now db record event
          (eventSeed changeId event.eventId) with
      | ok result =>
        obtain ⟨state, kept, older, sameId⟩ :=
          transitionDatabase_keeps lawful stale (Ne.symm same) moved
        rw [← state]
        exact reconcileEvents_entriesAfter kept (sameId.trans ours) older rest
      | error error =>
        simp only [findById, if_pos ours]
        split_ifs with refreshed
        · rw [← refreshed]
          exact reconcileEvents_entriesAfter lawful ours (stale_refl db) rest
        · rfl

/-- A logged event is replayed as the row it has, and the record becomes as old as that row. -/
theorem reconcileEvents_logged
    {event : AgentEvent} (differs : event.state ≠ record.state) (logged : Logged hash db event)
    (named : ∀ row ∈ db.runs,
      row.transitionId = hash.reconciledId db.change.id event.eventId → row.state = event.state)
    (rest : List AgentEvent) :
    ∃ row ∈ db.runs, row.state = event.state ∧
      reconcileEvents hash now db.change.id db record (event :: rest) =
        reconcileEvents hash now db.change.id db (advanced record event.state row.sequence)
          rest := by
  obtain ⟨row, member, state, answers⟩ :=
    transitionDatabase_logged now lawful stale (Ne.symm differs) logged named
  refine ⟨row, member, state, ?_⟩
  rw [reconcileEvents, if_neg differs, answers]
  rfl

/-- An event that is not logged and may not move the change is replayed only when the change is
in its state. -/
theorem reconcileEvents_refused
    {event : AgentEvent} (differs : event.state ≠ record.state) (unlogged : ¬ Logged hash db event)
    (wrong : record.version ≠ db.change.version ∨ maxSafeInteger ≤ db.change.version ∨
      event.state ∉ db.change.state.legalTransitions ∨ (event.state = .applying ∧ db.isBlocked))
    (rest : List AgentEvent) :
    (db.change.state = event.state →
      reconcileEvents hash now db.change.id db record (event :: rest) =
        reconcileEvents hash now db.change.id db db.change rest) ∧
    (db.change.state ≠ event.state → ∃ error,
      reconcileEvents hash now db.change.id db record (event :: rest) = (db, .error error)) := by
  have absent : ∀ row ∈ db.runs,
      row.transitionId ≠ hash.transitionId (eventSeed db.change.id event.eventId) :=
    fun row member same => unlogged ⟨row, member, same⟩
  obtain ⟨error, refuses⟩ :=
    transitionDatabase_refuses now lawful stale (Ne.symm differs) absent wrong
  constructor
  · intro same
    rw [reconcileEvents, if_neg differs, refuses]
    simp only [findById, if_true, if_pos same]
  · intro other
    refine ⟨error, ?_⟩
    rw [reconcileEvents, if_neg differs, refuses]
    simp only [findById, if_true, if_neg other]

/-- The events before the record's state are replayed exactly when each is logged. -/
theorem reconcileEvents_passed {before : List AgentEvent} (rest : List AgentEvent)
    (earlier : ∀ event ∈ before, event.state.rank < db.change.state.rank)
    (distinct : (record.state :: before.map AgentEvent.state).Nodup)
    (named : ∀ event ∈ before, ∀ row ∈ db.runs,
      row.transitionId = hash.reconciledId db.change.id event.eventId →
        row.state = event.state) :
    ((∀ event ∈ before, Logged hash db event) →
      ∃ next, Stale next db ∧ (next = record ∨ next.state ∈ before.map AgentEvent.state) ∧
        reconcileEvents hash now db.change.id db record (before ++ rest) =
          reconcileEvents hash now db.change.id db next rest) ∧
    ((∃ event ∈ before, ¬ Logged hash db event) →
      ∃ error, (reconcileEvents hash now db.change.id db record (before ++ rest)).2 =
        .error error) := by
  induction before generalizing record with
  | nil => exact ⟨fun _ => ⟨record, stale, .inl rfl, rfl⟩, by simp⟩
  | cons event others ih =>
    have differs : event.state ≠ record.state := by
      intro same
      have absent := (nodup_cons.mp distinct).1
      exact absent (by simp [same])
    have illegal : event.state ∉ db.change.state.legalTransitions := by
      intro legal
      have later := ChangeState.rank_legal legal
      have before := earlier event mem_cons_self
      omega
    have elsewhere : db.change.state ≠ event.state := by
      intro same
      have before := earlier event mem_cons_self
      rw [same] at before
      exact lt_irrefl _ before
    by_cases logged : Logged hash db event
    · obtain ⟨row, member, state, replays⟩ := reconcileEvents_logged now lawful stale differs
        logged (named event mem_cons_self) (others ++ rest)
      have older : Stale (advanced record event.state row.sequence) db :=
        ⟨stale.id, stale.application, stale.actor, stale.session, lawful.below row member⟩
      obtain ⟨good, bad⟩ := ih older
        (fun other inOthers => earlier other (.tail _ inOthers))
        (nodup_cons.mp distinct).2
        (fun other inOthers => named other (.tail _ inOthers))
      rw [List.cons_append, replays]
      constructor
      · intro allLogged
        obtain ⟨next, nextStale, place, run⟩ :=
          good fun other inOthers => allLogged other (.tail _ inOthers)
        refine ⟨next, nextStale, .inr ?_, run⟩
        rcases place with rfl | inOthers
        · exact .head _
        · exact .tail _ inOthers
      · rintro ⟨other, inBefore, missing⟩
        rcases mem_cons.mp inBefore with rfl | inOthers
        · exact absurd logged missing
        · exact bad ⟨other, inOthers, missing⟩
    · constructor
      · intro allLogged
        exact absurd (allLogged event mem_cons_self) logged
      · intro _
        obtain ⟨error, fails⟩ := (reconcileEvents_refused now lawful stale differs logged
          (.inr (.inr (.inl illegal))) (others ++ rest)).2 elsewhere
        exact ⟨error, by rw [List.cons_append, fails]⟩

/-- The event of the record's state is replayed, and the record becomes fresh. -/
theorem reconcileEvents_current {event : AgentEvent} (atRecord : event.state = db.change.state)
    (place : record = db.change ∨ record.state ≠ db.change.state)
    (named : ∀ row ∈ db.runs,
      row.transitionId = hash.reconciledId db.change.id event.eventId → row.state = event.state)
    (rest : List AgentEvent) :
    reconcileEvents hash now db.change.id db record (event :: rest) =
      reconcileEvents hash now db.change.id db db.change rest := by
  by_cases same : event.state = record.state
  · rcases place with rfl | other
    · rw [reconcileEvents, if_pos same]
    · exact absurd (same.symm.trans atRecord) other
  · by_cases logged : Logged hash db event
    · obtain ⟨row, member, state, replays⟩ :=
        reconcileEvents_logged now lawful stale same logged named rest
      have fresh : advanced record event.state row.sequence = db.change := by
        rw [atRecord, lawful.current row member (state.trans atRecord)]
        simp only [advanced, stale.id, stale.application, stale.actor, stale.session]
      rw [replays, fresh]
    · have illegal : event.state ∉ db.change.state.legalTransitions := by
        intro legal
        have later := ChangeState.rank_legal legal
        rw [atRecord] at later
        exact lt_irrefl _ later
      exact (reconcileEvents_refused now lawful stale same logged (.inr (.inr (.inl illegal)))
        rest).1 atRecord.symm

omit stale

/-- No block forbids some events, and the versions suffice for them. -/
def Free (db : Database Id) (later : List AgentEvent) : Prop :=
  ¬ (db.isBlocked ∧ .applying ∈ later.map AgentEvent.state) ∧
    db.change.version + later.length ≤ maxSafeInteger

/-- The events after the record's state are replayed exactly when they are free to be. -/
theorem reconcileEvents_remaining {later : List AgentEvent}
    (legal : (db.change.state :: later.map AgentEvent.state).IsChain fun source target =>
      target ∈ source.legalTransitions) (distinct : (later.map eventId).Nodup)
    (named : ∀ event ∈ later, ∀ row ∈ db.runs,
      row.transitionId = hash.reconciledId db.change.id event.eventId →
        row.state = event.state) :
    (Free db later →
      ∃ rows, reconcileEvents hash now db.change.id db db.change later = (rows, .ok rows.change) ∧
        (db.change.state :: later.map AgentEvent.state).getLast? = some rows.change.state ∧
        rows.runs.map RunRow.state = db.runs.map RunRow.state ++ later.map AgentEvent.state) ∧
    (¬ Free db later →
      ∃ error, (reconcileEvents hash now db.change.id db db.change later).2 = .error error) := by
  induction later generalizing db with
  | nil =>
    refine ⟨fun _ => ⟨db, rfl, rfl, (List.append_nil _).symm⟩, fun fails => ?_⟩
    exact absurd ⟨by simp, lawful.safe⟩ fails
  | cons event rest ih =>
    rw [map_cons, List.isChain_cons_cons] at legal
    obtain ⟨step, chain⟩ := legal
    have later := ChangeState.rank_legal step
    have differs : event.state ≠ db.change.state := by
      intro same
      rw [same] at later
      exact lt_irrefl _ later
    have absent : ∀ row ∈ db.runs,
        row.transitionId ≠ hash.transitionId (eventSeed db.change.id event.eventId) := by
      intro row member same
      have state := named event mem_cons_self row member same
      have behind := lawful.behind row member
      rw [state] at behind
      omega
    by_cases able : db.change.version < maxSafeInteger ∧ ¬ (event.state = .applying ∧ db.isBlocked)
    · obtain ⟨room, free⟩ := able
      obtain ⟨next, state, version, moves⟩ := transitionDatabase_moves now lawful (stale_refl db)
        (Ne.symm differs) absent rfl step room free
      let rows := db.moved (reconcileInput hash db.change event
        (eventSeed db.change.id event.eventId)) next
      have kept : Lawful hash rows := lawful_moved lawful step room (stale_refl db) state version
      have change : advanced db.change event.state (db.change.version + 1) = rows.change := by
        simp only [rows, Database.moved, advanced, state, version]
      have replays : reconcileEvents hash now db.change.id db db.change (event :: rest) =
          reconcileEvents hash now rows.change.id rows rows.change rest := by
        rw [reconcileEvents, if_neg differs, moves]
        exact congrArg (reconcileEvents hash now db.change.id rows · rest) change
      have stillNamed : ∀ other ∈ rest, ∀ row ∈ rows.runs,
          row.transitionId = hash.reconciledId rows.change.id other.eventId →
            row.state = other.state := by
        intro other inRest row member same
        rcases mem_append.mp member with old | new
        · exact named other (.tail _ inRest) row old same
        · rw [mem_singleton.mp new] at same
          have seeds := transitionId_distinct hash same
          have ids : event.eventId = other.eventId :=
            (String.append_right_inj _).mp seeds
          have fresh := (nodup_cons.mp distinct).1
          exact absurd (mem_map.mpr ⟨other, inRest, ids.symm⟩) fresh
      have entered : rows.change.state = event.state := state
      have counted : rows.change.version = db.change.version + 1 := version
      obtain ⟨good, bad⟩ := ih kept (by rw [entered]; exact chain)
        (nodup_cons.mp distinct).2 stillNamed
      have conditions : Free rows rest ↔ Free db (event :: rest) := by
        unfold Free
        have blocks : rows.isBlocked = db.isBlocked := rfl
        rw [blocks, counted, List.length_cons, map_cons, mem_cons]
        refine and_congr (not_congr (and_congr_right fun blocked => ?_)) (by omega)
        have other : ChangeState.applying ≠ event.state := fun same => free ⟨same.symm, blocked⟩
        simp [other]
      rw [replays, ← conditions]
      refine ⟨fun holds => ?_, bad⟩
      obtain ⟨final, run, last, states⟩ := good holds
      refine ⟨final, run, ?_, ?_⟩
      · rw [map_cons, List.getLast?_cons_cons, ← entered]
        exact last
      · rw [states]
        simp [rows, Database.moved, state]
    · have wrong : db.change.version ≠ db.change.version ∨ maxSafeInteger ≤ db.change.version ∨
          event.state ∉ db.change.state.legalTransitions ∨
            (event.state = .applying ∧ db.isBlocked) := by
        by_cases room : db.change.version < maxSafeInteger
        · exact .inr (.inr (.inr (by_contra fun free => able ⟨room, free⟩)))
        · exact .inr (.inl (Nat.le_of_not_lt room))
      constructor
      · rintro ⟨free, room⟩
        refine absurd ⟨?_, ?_⟩ able
        · simp only [List.length_cons] at room
          omega
        · rintro ⟨applying, blocked⟩
          exact free ⟨blocked, by simp [applying]⟩
      · intro _
        have unlogged : ¬ Logged hash db event := fun ⟨row, member, same⟩ =>
          absent row member same
        obtain ⟨error, fails⟩ := (reconcileEvents_refused now lawful (stale_refl db) differs
          unlogged wrong rest).2 (Ne.symm differs)
        exact ⟨error, by rw [fails]⟩

variable (hash db response) in
/-- The events before the record's state are logged, and those after it are free to be. -/
def Loggable : Prop :=
  (∀ event ∈ passed db response, Logged hash db event) ∧ Free db (remaining db response)

/-- The replay of an admissible response succeeds exactly when its events are loggable; then it
reaches the last state and logs what remains. -/
theorem replay_iff (admissible : Admissible hash db response) :
    (Loggable hash db response →
      ∃ rows, reconcileEvents hash now db.change.id db db.change response.events =
          (rows, .ok rows.change) ∧ rows.change.state = response.state ∧
        rows.runs.map RunRow.state =
          db.runs.map RunRow.state ++ (remaining db response).map state) ∧
    (¬ Loggable hash db response →
      ∃ error, (reconcileEvents hash now db.change.id db db.change response.events).2 =
        .error error) := by
  obtain ⟨event, atRecord, parts, earlier, distinct, chain⟩ := entries_split admissible
  have inHistory : ∀ other ∈ entries response.events, other ∈ response.events :=
    fun other member => (entries_sublist response.events).mem member
  have ids : ((entries response.events).map eventId).Nodup :=
    admissible.distinct.sublist ((entries_sublist response.events).map _)
  have last : (db.change.state :: (remaining db response).map state).getLast? =
      some response.state := by
    rw [← admissible.last, ← entries_getLast, parts, map_append, map_cons, atRecord,
      List.getLast?_append_cons]
  rw [parts] at inHistory ids
  have named : ∀ other ∈ passed db response ++ event :: remaining db response,
      ∀ row ∈ db.runs, row.transitionId = hash.reconciledId db.change.id other.eventId →
        row.state = other.state :=
    fun other member => admissible.named other (inHistory other member)
  have notPassed : (db.change.state :: (passed db response).map state).Nodup := by
    refine nodup_cons.mpr ⟨fun member => ?_, distinct⟩
    obtain ⟨other, inPassed, same⟩ := mem_map.mp member
    have before := earlier other inPassed
    rw [same] at before
    exact lt_irrefl _ before
  obtain ⟨goodBefore, badBefore⟩ := reconcileEvents_passed now lawful (stale_refl db)
    (event :: remaining db response) earlier notPassed
    (fun other inPassed => named other (List.mem_append_left _ inPassed))
  obtain ⟨goodAfter, badAfter⟩ := reconcileEvents_remaining now lawful chain
    (by
      rw [map_append, map_cons] at ids
      exact (nodup_cons.mp (List.nodup_append.mp ids).2.1).2)
    (fun other inRemaining =>
      named other (List.mem_append_right _ (.tail _ inRemaining)))
  have atEvent : ∀ next, Stale next db →
      (next = db.change ∨ next.state ∈ (passed db response).map state) →
      reconcileEvents hash now db.change.id db next (event :: remaining db response) =
        reconcileEvents hash now db.change.id db db.change (remaining db response) := by
    intro next stale place
    refine reconcileEvents_current now lawful stale atRecord (place.imp_right ?_)
      (named event (List.mem_append_right _ mem_cons_self)) _
    intro member same
    exact (nodup_cons.mp notPassed).1 (same ▸ member)
  rw [reconcileEvents_entries lawful rfl (stale_refl db), parts]
  constructor
  · rintro ⟨logged, free⟩
    obtain ⟨next, stale, place, run⟩ := goodBefore logged
    obtain ⟨rows, run', last', states⟩ := goodAfter free
    rw [run, atEvent next stale place, run']
    rw [last, Option.some.injEq] at last'
    exact ⟨rows, rfl, last'.symm, states⟩
  · intro fails
    by_cases logged : ∀ other ∈ passed db response, Logged hash db other
    · obtain ⟨next, stale, place, run⟩ := goodBefore logged
      rw [run, atEvent next stale place]
      exact badAfter fun free => fails ⟨logged, free⟩
    · refine badBefore ?_
      by_contra all
      exact logged fun other inPassed => by_contra fun missing => all ⟨other, inPassed, missing⟩

omit lawful in
/-- Every poll keeps what every writer keeps. -/
theorem poll_lawful (hash : SeedHash Id) (now : Int) (db : Database Id)
    (response : ChangeStatusResponse) (lawful : Lawful hash db) :
    Lawful hash (poll hash now db response).1 := by
  have kept := (reconcileEvents_lawful now lawful rfl (stale_refl db) response.events).1
  unfold poll reconcileAgentStatus
  cases replay : reconcileEvents hash now db.change.id db db.change response.events with
  | mk rows result =>
    rw [replay] at kept
    cases result with
    | error error => exact kept
    | ok current =>
      dsimp only
      cases blocked : reconcileBlock rows db.change response with
      | error error => exact kept
      | ok final =>
        obtain ⟨change, runs⟩ := reconcileBlock_keeps blocked
        exact lawful_congr kept change runs

/-- A poll that can be replayed has the rows of the replay, and one that cannot fails. -/
theorem poll_iff (admissible : Admissible hash db response) :
    (Loggable hash db response →
      (∃ record, (poll hash now db response).2 = .ok record) ∧
        (poll hash now db response).1.change.state = response.state ∧
        (poll hash now db response).1.runs.map RunRow.state =
          db.runs.map RunRow.state ++ (remaining db response).map state) ∧
    (¬ Loggable hash db response →
      ¬ ∃ record, (poll hash now db response).2 = .ok record) := by
  obtain ⟨good, bad⟩ := replay_iff now lawful admissible
  have kept := (reconcileEvents_lawful now lawful rfl (stale_refl db) response.events).1
  unfold poll reconcileAgentStatus
  constructor
  · intro holds
    obtain ⟨rows, run, reached, states⟩ := good holds
    rw [run] at kept ⊢
    obtain ⟨final, ends⟩ := reconcileBlock_ok kept db.change reached
    obtain ⟨change, runs⟩ := reconcileBlock_keeps ends
    simp only [ends, change, runs]
    exact ⟨⟨_, rfl⟩, reached, states⟩
  · rintro fails ⟨record, succeeds⟩
    obtain ⟨error, stops⟩ := bad fails
    cases replay : reconcileEvents hash now db.change.id db db.change response.events with
    | mk rows result =>
      rw [replay] at stops succeeds
      simp only at stops
      rw [stops] at succeeds
      cases succeeds

/-- A poll of an admissible response converges exactly when it can be replayed. -/
theorem converges_step (admissible : Admissible hash db response) :
    Converges hash now db response ↔ Replayable hash db response := by
  obtain ⟨good, bad⟩ := poll_iff now lawful admissible
  obtain ⟨event, atRecord, parts, earlier, distinct, chain⟩ := entries_split admissible
  have once := (poll_lawful hash now db response lawful).once
  constructor
  · rintro ⟨succeeds, reached, counts⟩
    have holds := by_contra fun fails => bad fails succeeds
    obtain ⟨logged, free, room⟩ := holds
    refine ⟨logged, fun started => ?_, free, room⟩
    have inTail : event ∈ (entries response.events).tail := by
      obtain ⟨first, rest, cons⟩ := List.exists_cons_of_ne_nil started
      rw [parts, cons]
      simp
    have counted := counts event inTail
    rw [atRecord] at counted
    have present := List.count_pos_iff.mp (Nat.lt_of_lt_of_eq Nat.one_pos counted.symm)
    rw [(good ⟨logged, free, room⟩).2.2, mem_append] at present
    refine present.resolve_right fun member => ?_
    have ranks := (List.pairwise_cons.mp (ranks_of_legal chain)).1 _ member
    exact lt_irrefl _ ranks
  · rintro ⟨logged, own, free, room⟩
    obtain ⟨succeeds, reached, states⟩ := good ⟨logged, free, room⟩
    refine ⟨succeeds, reached, fun other member => List.count_eq_one_of_mem once ?_⟩
    rw [states, mem_append]
    by_cases started : passed db response = []
    · rw [parts, started] at member
      exact .inr (List.mem_map_of_mem member)
    · have inParts := List.mem_of_mem_tail member
      rw [parts] at inParts
      rcases mem_append.mp inParts with inPassed | inRest
      · obtain ⟨row, inRuns, same⟩ := logged other inPassed
        have inHistory : other ∈ response.events :=
          (entries_sublist response.events).mem (List.mem_of_mem_tail member)
        exact .inl (mem_map.mpr
          ⟨row, inRuns, admissible.named other inHistory row inRuns same⟩)
      · rcases mem_cons.mp inRest with rfl | inRemaining
        · exact .inl (atRecord ▸ own started)
        · exact .inr (List.mem_map_of_mem inRemaining)

omit lawful

def plainHash : SeedHash String := ⟨id, Function.injective_id⟩

/-- A change in a state, at a version, with its run log. -/
def changeAt (state : ChangeState) (version : Nat) (runs : List (RunRow String)) :
    Database String where
  change :=
    { id := "change"
      applicationId := "app"
      actorUserId := "user"
      actorSessionId := "session"
      state := state
      version := version }
  runs := runs
  block := none
  incidents := []

/-- The history of a change that is validated, saved and applied. -/
def appliedHistory : ChangeStatusResponse where
  state := .snapshotted
  sequence := 4
  events :=
    [⟨"EVT_1", .ready, "validation_ready", by decide⟩, ⟨"EVT_2", .saved, "change_saved", by decide⟩,
      ⟨"EVT_3", .applying, "apply_started", by decide⟩,
      ⟨"EVT_4", .snapshotted, "snapshot_recorded", by decide⟩]

/-- The row that the control plane's own `apply` logs. -/
def appliedRow : RunRow String where
  transitionId := "config-transition:change:RUN_1:key"
  eventId := "config-event:change:key"
  runId := "config-run:change:RUN_1"
  sequence := 3
  fromState := .saved
  state := .applying
  actorUserId := "user"
  actorSessionId := "session"
  resultCode := none

def appliedChange : Database String := changeAt .applying 3 [appliedRow]

/-- The identifiers of an apply are not those of a reconciliation. -/
theorem appliedRow_foreign (seed : String) :
    appliedRow.transitionId ≠ plainHash.transitionId seed ∧
      appliedRow.eventId ≠ plainHash.eventId seed := by
  constructor
  · intro same
    have chars := congrArg (fun text => text.toList.take 8) same
    simp [appliedRow, SeedHash.transitionId, plainHash] at chars
  · intro same
    have chars := congrArg (fun text => text.toList.take 8) same
    simp [appliedRow, SeedHash.eventId, plainHash] at chars

/-- Whatever an agent answers to the polls of a run, its rows stay lawful: no state is entered twice,
and the run log is never ahead of the record. -/
theorem polls_lawful (hash : SeedHash Id) (now : Int) (db : Database Id) (lawful : Lawful hash db)
    (responses : List ChangeStatusResponse) :
    Machine.Throughout (poll hash now) (Lawful hash) db responses := by
  intro earlier later split
  exact Machine.invariant_after (poll_lawful hash now) lawful earlier

theorem polls_lawful_ready :
    Machine.Throughout (poll plainHash 0) (Lawful plainHash) (changeAt .ready 1 [])
      [appliedHistory] := by
  refine polls_lawful plainHash 0 _ ?_ _
  constructor <;> simp [changeAt]
  decide

end NancyMan.ControlPlane
