import NancyMan.Alerts.Outbox

/-!
# What the outbox loses

A claimed delivery is `sending` until its call writes what came of it, and only deliveries that are
not `sending` are claimed. So a delivery is attempted at most five times and never claimed while
it is under way, but a call that ends early leaves its deliveries `sending` for good. `loses_iff` says
that nothing else is lost.
-/
namespace NancyMan.Alerts

open Delivery Outbox
open List (append_assoc map_append map_cons mem_append mem_append_right mem_flatMap mem_map
  mem_map_of_mem nodup_append nodup_nil)
open Option (getD_some map_some)

/-! ## What a claim takes -/

variable {id : Nat}

theorem mem_dueIds {table : Deliveries} {now : Nat} {limit : Int}
    (selected : id ∈ dueIds table now limit) :
    ∃ row ∈ table.rows, row.id = id ∧ row.isDue now := by
  obtain ⟨row, member, named⟩ := mem_map.mp selected
  have present := List.mem_filter.mp (mem_of_firstOf member)
  exact ⟨row, present.1, named, present.2⟩

/-- No row is selected twice. -/
theorem dueIds_nodup (table : Deliveries) (now : Nat) (limit : Int) :
    (dueIds table now limit).Nodup := by
  have sorted := (List.mergeSort_perm (table.rows.filter (isDue now))
    notAfter).map Delivery.id
  have all : ((table.rows.filter (isDue now)).map Delivery.id).Nodup :=
    table.distinct.sublist (List.filter_sublist.map Delivery.id)
  have some : ((table.rows.filter (isDue now)).mergeSort notAfter).map
      Delivery.id |>.Nodup := sorted.nodup_iff.mpr all
  exact some.sublist ((List.take_sublist _ _).map Delivery.id)

variable {row : Delivery}

theorem isDue_eq_false (now : Nat) (away : row.state = .sending ∨ row.state = .sent) :
    row.isDue now = false := by
  unfold isDue
  rcases away with same | same
  · simp [same]
  · simp [same]

/-- The row found under an identifier after a claim. -/
theorem find_claim (table : Deliveries) (now : Nat) (limit : Int) (id : Nat) :
    (claimDueDeliveries table now limit).1.find id =
      (table.find id).map fun row =>
        if id ∈ dueIds table now limit then row.claim else row := by
  unfold claimDueDeliveries
  rw [IdTable.find_update]
  cases found : table.find id with
  | none => rfl
  | some row =>
    have named := (IdTable.find_eq_some.mp found).2
    rw [map_some, map_some, whenRow, named]
    simp only [List.contains_iff_mem]

/-- The claimed rows are the selected rows. -/
theorem claimed_ids (table : Deliveries) (now : Nat) (limit : Int) :
    (claimDueDeliveries table now limit).2.map Delivery.id = dueIds table now limit := by
  have each : ∀ id ∈ dueIds table now limit,
      ((claimDueDeliveries table now limit).1.find id).map Delivery.id = some id := by
    intro id selected
    obtain ⟨row, member, named, -⟩ := mem_dueIds selected
    have found : table.find id = some row := IdTable.find_eq_some.mpr ⟨member, named⟩
    rw [find_claim, found, map_some, if_pos selected, map_some]
    exact congrArg some named
  show ((dueIds table now limit).filterMap (claimDueDeliveries table now limit).1.find).map
    Delivery.id = dueIds table now limit
  generalize dueIds table now limit = ids at each
  induction ids with
  | nil => rfl
  | cons id rest ih =>
    obtain ⟨row, found, named⟩ := Option.map_eq_some_iff.mp (each id List.mem_cons_self)
    rw [List.filterMap_cons_some found, map_cons, named,
      ih fun other member => each other (.tail _ member)]

/-- A claimed row stands in the table and is being sent. -/
theorem claimed_held {table : Deliveries} {now : Nat} {limit : Int}
    (member : row ∈ (claimDueDeliveries table now limit).2) :
    row ∈ (claimDueDeliveries table now limit).1.rows ∧ row.state = .sending := by
  obtain ⟨id, selected, found⟩ := List.mem_filterMap.mp
    (show row ∈ (dueIds table now limit).filterMap _ from member)
  refine ⟨(IdTable.find_eq_some.mp found).1, ?_⟩
  have after : (claimDueDeliveries table now limit).1.find id = some row := found
  rw [find_claim] at after
  obtain ⟨old, -, rfl⟩ := Option.map_eq_some_iff.mp after
  rw [if_pos selected]
  rfl

/-! ## What a settled delivery becomes -/

/-- A row as the write that ends a turn leaves it. -/
def settled (now : Nat) (delivery : Delivery) (sending : Sending) (row : Delivery) : Delivery :=
  match sending.outcome with
  | .ok () => row.complete
  | .error thrown => row.fail (failInput now delivery thrown.failure)

@[simp] theorem settled_attemptCount (now : Nat) (delivery : Delivery) (sending : Sending)
    (row : Delivery) : (settled now delivery sending row).attemptCount = row.attemptCount := by
  unfold settled
  split <;> rfl

/-- A settled row has been sent, or has failed. -/
theorem settled_state (now : Nat) (delivery : Delivery) (sending : Sending) (row : Delivery) :
    (settled now delivery sending row).state ≠ .sending ∧
      (settled now delivery sending row).state ≠ .queued := by
  unfold settled
  cases sending.outcome with
  | ok => simp [complete]
  | error thrown => cases ambiguous : thrown.failure.ambiguous <;> simp [fail, failInput, ambiguous]

/-- The row found under an identifier after a delivery is settled: only that delivery changes. -/
theorem find_settle (table : Deliveries) (now : Nat) (delivery : Delivery) (sending : Sending)
    (id : Nat) :
    (settleDelivery table now delivery sending).find id =
      (table.find id).map fun row =>
        if id = delivery.id then settled now delivery sending row else row := by
  have renamed (change : Delivery → Delivery) :
      (table.find id).map (whenRow (fun row => row.id == delivery.id) change) =
        (table.find id).map fun row => if id = delivery.id then change row else row := by
    cases found : table.find id with
    | none => rfl
    | some row =>
      have named := (IdTable.find_eq_some.mp found).2
      simp [whenRow, named]
  unfold settleDelivery settled
  cases sending.outcome with
  | ok => exact (IdTable.find_update _ _ _ _).trans (renamed _)
  | error thrown => exact (IdTable.find_update _ _ _ _).trans (renamed _)

/-! ## Deliveries under way -/

def flight (loops : List DeliverLoop) : List Delivery := loops.flatMap DeliverLoop.deliveries

def Outbox.inFlight (outbox : Outbox) : List Delivery := flight outbox.loops

/-- A call that settles its next delivery takes that one out of flight. -/
theorem flight_settle {loops : List DeliverLoop} {index : Nat} {call : DeliverLoop}
    (found : loops[index]? = some call) {delivery : Delivery} {rest : List Delivery}
    (head : call.deliveries = delivery :: rest) :
    (flight loops).Perm (delivery :: flight (loops.set index call.next)) := by
  induction loops generalizing index with
  | nil => cases found
  | cons first others ih =>
    cases index with
    | zero =>
      obtain rfl : first = call := by simpa using found
      simp [flight, DeliverLoop.next, head]
    | succ index =>
      have next : others[index]? = some call := by simpa using found
      have later := ih next
      have moved : (first.deliveries ++ flight others).Perm
          (first.deliveries ++ delivery :: flight (others.set index call.next)) :=
        later.append_left _
      exact moved.trans List.perm_middle

/-- A call that ends takes its deliveries out of flight. -/
theorem flight_abort {loops : List DeliverLoop} {index : Nat} {call : DeliverLoop}
    (found : loops[index]? = some call) :
    (flight loops).Perm (call.deliveries ++ flight (loops.eraseIdx index)) := by
  induction loops generalizing index with
  | nil => cases found
  | cons first others ih =>
    cases index with
    | zero =>
      obtain rfl : first = call := by simpa using found
      exact List.Perm.refl _
    | succ index =>
      have next : others[index]? = some call := by simpa using found
      have later := ih next
      have moved : (first.deliveries ++ flight others).Perm
          (first.deliveries ++ (call.deliveries ++ flight (others.eraseIdx index))) :=
        later.append_left _
      refine moved.trans ?_
      rw [← append_assoc]
      exact (List.perm_append_comm.append_right _).trans (by rw [append_assoc]; rfl)

/-- The deliveries whose calls an action ends before they are settled. -/
def Outbox.abandoned (outbox : Outbox) : OutboxAction → List Delivery
  | .abort index => (outbox.loops[index]?.map DeliverLoop.deliveries).getD []
  | .crash => outbox.inFlight
  | _ => []

/-- The delivery that an action settles, with the time of its call. -/
def Outbox.settling (outbox : Outbox) : OutboxAction → Option (Nat × Delivery × Sending)
  | .settle index sending =>
    (outbox.loops[index]?).bind fun call =>
      call.deliveries.head?.map fun delivery => (call.now, delivery, sending)
  | _ => none

/-- The deliveries of which an action ends a claim without their being sent. -/
def Outbox.ended (outbox : Outbox) (action : OutboxAction) : List Nat :=
  (outbox.abandoned action).map Delivery.id ++
    match outbox.settling action with
    | some (_, delivery, sending) =>
      match sending.outcome with
      | .ok () => []
      | .error _ => [delivery.id]
    | none => []

theorem output_settle (outbox : Outbox) (index : Nat) (sending : Sending) :
    (outboxStep outbox (.settle index sending)).2 = [] := by
  unfold outboxStep
  dsimp only
  split
  · rfl
  · split <;> rfl

/-- What an action leaves in flight: what was, with the claimed deliveries, and without the settled
and the abandoned ones. -/
theorem inFlight_step (outbox : Outbox) (action : OutboxAction) :
    ∃ claimed, claimed.map Delivery.id = (outboxStep outbox action).2 ∧
      (∀ delivery ∈ claimed, delivery ∈ (outboxStep outbox action).1.table.rows ∧
        delivery.state = .sending) ∧
      (outbox.inFlight ++ claimed).Perm
        (outbox.abandoned action ++ (((outbox.settling action).map fun found => found.2.1).toList ++
          (outboxStep outbox action).1.inFlight)) := by
  cases action with
  | enqueue input now => exact ⟨[], rfl, by simp, by simp [abandoned, settling,
      outboxStep, inFlight]⟩
  | deliver now limit =>
    refine ⟨(claimDueDeliveries outbox.table now limit).2, rfl,
      fun delivery member => claimed_held member, ?_⟩
    simp [abandoned, settling, outboxStep, inFlight, flight]
  | settle index sending =>
    refine ⟨[], (output_settle outbox index sending).symm, by simp, ?_⟩
    cases found : outbox.loops[index]? with
    | none => simp [abandoned, settling, outboxStep, found]
    | some call =>
      cases head : call.deliveries with
      | nil => simp [abandoned, settling, outboxStep, found, head]
      | cons delivery rest =>
        have moved := flight_settle found head
        simpa [abandoned, settling, outboxStep, found, head, inFlight]
          using moved
  | abort index =>
    refine ⟨[], rfl, by simp, ?_⟩
    cases found : outbox.loops[index]? with
    | none =>
      have short : outbox.loops.length ≤ index := List.getElem?_eq_none_iff.mp found
      simp [abandoned, settling, outboxStep, found, inFlight,
        List.eraseIdx_of_length_le short]
    | some call =>
      have moved := flight_abort found
      simpa [abandoned, settling, outboxStep, found, inFlight] using moved
  | crash => exact ⟨[], rfl, by simp, by simp [abandoned, settling, outboxStep, inFlight, flight]⟩

/-- The row found under an identifier after an action: it is inserted, claimed or settled, or stays
as it was. -/
theorem find_step (outbox : Outbox) (action : OutboxAction)
    (found : outbox.table.find id = some row) :
    (outboxStep outbox action).1.table.find id = some
      (if id ∈ (outboxStep outbox action).2 then row.claim
      else match outbox.settling action with
        | some (now, delivery, sending) =>
          if id = delivery.id then settled now delivery sending row else row
        | none => row) := by
  cases action with
  | enqueue input now =>
    have old : id ≠ outbox.table.nextId := by
      have known := IdTable.find_eq_some.mp found
      have bound := outbox.table.fresh row known.1
      omega
    show (enqueueDelivery outbox.table input now).find id = _
    rw [enqueueDelivery, IdTable.find_insert, if_neg old, found]
    simp [outboxStep, settling]
  | deliver now limit =>
    show (claimDueDeliveries outbox.table now limit).1.find id = _
    rw [find_claim, found, map_some]
    show some _ = some (if id ∈ (claimDueDeliveries outbox.table now limit).2.map Delivery.id
      then _ else _)
    rw [claimed_ids]
    rfl
  | settle index sending =>
    cases isCall : outbox.loops[index]? with
    | none => simp [outboxStep, settling, isCall, found]
    | some call =>
      cases head : call.deliveries with
      | nil => simp [outboxStep, settling, isCall, head, found]
      | cons delivery rest =>
        simp [outboxStep, settling, isCall, head, find_settle, found]
  | abort index => simp [outboxStep, settling, found]
  | crash => simp [outboxStep, settling, found]

/-- A row that an action adds is a delivery it enqueues. -/
theorem find_step_new (outbox : Outbox) (action : OutboxAction)
    (absent : outbox.table.find id = none)
    (found : (outboxStep outbox action).1.table.find id = some row) :
    ∃ input now, row = enqueued input now id := by
  cases action with
  | enqueue input now =>
    have inserted : (enqueueDelivery outbox.table input now).find id = some row := found
    rw [enqueueDelivery, IdTable.find_insert] at inserted
    split at inserted
    · next new =>
      cases inserted
      exact ⟨input, now, by rw [new]⟩
    · rw [absent] at inserted
      cases inserted
  | deliver now limit =>
    have claimed : (claimDueDeliveries outbox.table now limit).1.find id = some row := found
    rw [find_claim, absent] at claimed
    cases claimed
  | settle index sending =>
    cases isCall : outbox.loops[index]? with
    | none => simp [outboxStep, isCall, absent] at found
    | some call =>
      cases head : call.deliveries with
      | nil => simp [outboxStep, isCall, head, absent] at found
      | cons delivery rest => simp [outboxStep, isCall, head, find_settle, absent] at found
  | abort index => simp [outboxStep, absent] at found
  | crash => simp [outboxStep, absent] at found

variable {outbox : Outbox}

/-- Only deliveries that are due are claimed, each once. -/
theorem due_of_output {action : OutboxAction} (claimed : id ∈ (outboxStep outbox action).2) :
    ∃ row now, outbox.table.find id = some row ∧ row.isDue now := by
  cases action with
  | deliver now limit =>
    have selected : id ∈ (claimDueDeliveries outbox.table now limit).2.map Delivery.id := claimed
    rw [claimed_ids] at selected
    obtain ⟨row, member, named, due⟩ := mem_dueIds selected
    exact ⟨row, now, IdTable.find_eq_some.mpr ⟨member, named⟩, due⟩
  | settle index sending =>
    rw [output_settle] at claimed
    cases claimed
  | enqueue input now => cases claimed
  | abort index => cases claimed
  | crash => cases claimed

/-- An action claims no delivery twice. -/
theorem output_nodup (outbox : Outbox) (action : OutboxAction) :
    (outboxStep outbox action).2.Nodup := by
  cases action with
  | deliver now limit =>
    show ((claimDueDeliveries outbox.table now limit).2.map Delivery.id).Nodup
    rw [claimed_ids]
    exact dueIds_nodup _ _ _
  | settle index sending =>
    rw [output_settle]
    exact nodup_nil
  | enqueue input now => exact nodup_nil
  | abort index => exact nodup_nil
  | crash => exact nodup_nil

/-- A delivery that is being sent, and one that has been sent, is not claimed. -/
theorem not_claimed (found : outbox.table.find id = some row)
    (away : row.state = .sending ∨ row.state = .sent) (action : OutboxAction) :
    id ∉ (outboxStep outbox action).2 := by
  intro claimed
  obtain ⟨other, now, same, due⟩ := due_of_output claimed
  rw [found, Option.some.injEq] at same
  rw [← same, isDue_eq_false now away] at due
  cases due

/-! ## What every run keeps -/

/-- What every run keeps: the deliveries under way stand in the table as being sent, each under way
once, and no delivery has been attempted too often. -/
structure Consistent (outbox : Outbox) : Prop where
  held : ∀ delivery ∈ outbox.inFlight, delivery ∈ outbox.table.rows ∧ delivery.state = .sending
  apart : (outbox.inFlight.map Delivery.id).Nodup
  tried : ∀ id row, outbox.table.find id = some row →
    row.attemptCount ≤ maxAttempts ∧ (row.state = .queued → row.attemptCount = 0)

/-- The empty outbox is consistent. -/
theorem consistent_empty : Consistent empty where
  held := by
    intro delivery member
    cases member
  apart := nodup_nil
  tried := by
    intro id row found
    cases found

variable (consistent : Consistent outbox)

include consistent

theorem Consistent.find {delivery : Delivery}
    (member : delivery ∈ outbox.inFlight) : outbox.table.find delivery.id = some delivery :=
  IdTable.find_eq_some.mpr ⟨(consistent.held delivery member).1, rfl⟩

/-- What an action abandons, what it settles and what it leaves in flight are different deliveries,
and each was in flight or is claimed. -/
theorem Consistent.step (action : OutboxAction) :
    ((outbox.abandoned action ++ (((outbox.settling action).map fun found => found.2.1).toList ++
      (outboxStep outbox action).1.inFlight)).map Delivery.id).Nodup ∧
    ∀ delivery ∈ (outboxStep outbox action).1.inFlight, delivery ∈ outbox.inFlight ∨
      delivery ∈ (outboxStep outbox action).1.table.rows ∧ delivery.state = .sending := by
  obtain ⟨claimed, named, held, moved⟩ := inFlight_step outbox action
  constructor
  · rw [← (moved.map Delivery.id).nodup_iff, map_append, named]
    apply List.Nodup.append consistent.apart (output_nodup outbox action)
    intro id old new
    obtain ⟨delivery, member, rfl⟩ := mem_map.mp old
    exact not_claimed (consistent.find member) (.inl (consistent.held delivery member).2) action new
  · intro delivery member
    have before : delivery ∈ outbox.inFlight ++ claimed :=
      moved.mem_iff.mpr (mem_append_right _ (mem_append_right _ member))
    rcases mem_append.mp before with old | new
    · exact .inl old
    · exact .inr (held delivery new)

/-- A delivery that an action settles is another one than those it leaves in flight. -/
theorem Consistent.settling_ne {action : OutboxAction} {now : Nat}
    {delivery : Delivery} {sending : Sending}
    (settles : outbox.settling action = some (now, delivery, sending)) {other : Delivery}
    (member : other ∈ (outboxStep outbox action).1.inFlight) : other.id ≠ delivery.id := by
  have apart := (consistent.step action).1
  rw [settles, map_append, nodup_append] at apart
  have later := apart.2.1
  simp only [map_some, Option.toList_some, List.singleton_append, map_cons,
    List.nodup_cons] at later
  intro same
  exact later.1 (same ▸ mem_map_of_mem member)

omit consistent in
/-- Every action keeps an outbox consistent. -/
theorem consistent_step (outbox : Outbox) (action : OutboxAction) (consistent : Consistent outbox) :
    Consistent (outboxStep outbox action).1 where
  held := by
    intro delivery member
    rcases (consistent.step action).2 delivery member with old | new
    · have sending := (consistent.held delivery old).2
      have after := find_step outbox action (consistent.find old)
      rw [if_neg (not_claimed (consistent.find old) (.inl sending) action)] at after
      refine ⟨(IdTable.find_eq_some.mp (after.trans ?_)).1, sending⟩
      cases settles : outbox.settling action with
      | none => rfl
      | some found => exact congrArg some (if_neg (consistent.settling_ne settles member))
    · exact new
  apart := by
    have apart := (consistent.step action).1
    rw [← append_assoc, map_append] at apart
    exact (nodup_append.mp apart).2.1
  tried := by
    intro id row found
    cases before : outbox.table.find id with
    | none =>
      obtain ⟨input, now, rfl⟩ := find_step_new outbox action before found
      exact ⟨Nat.zero_le _, fun _ => rfl⟩
    | some old =>
      have known := consistent.tried id old before
      rw [find_step outbox action before, Option.some.injEq] at found
      subst found
      by_cases claimed : id ∈ (outboxStep outbox action).2
      · rw [if_pos claimed]
        obtain ⟨same, now, isSame, due⟩ := due_of_output claimed
        rw [before, Option.some.injEq] at isSame
        subst isSame
        have few : old.attemptCount < maxAttempts := by
          simp only [isDue, Bool.and_eq_true, Bool.or_eq_true, beq_iff_eq,
            decide_eq_true_eq] at due
          rcases due.2 with queued | failed
          · rw [known.2 queued]
            decide
          · exact failed.2
        exact ⟨few, nofun⟩
      · rw [if_neg claimed]
        split
        · split
          · refine ⟨by rw [settled_attemptCount]; exact known.1, fun queued => ?_⟩
            exact absurd queued (settled_state _ _ _ _).2
          · exact known
        · exact known

/-! ## Attempts -/

def Outbox.attempts (outbox : Outbox) (id : Nat) : Nat :=
  ((outbox.table.find id).map Delivery.attemptCount).getD 0

omit consistent in
/-- An action counts the attempts it makes. -/
theorem attempts_step (outbox : Outbox) (action : OutboxAction) (id : Nat) :
    (outboxStep outbox action).1.attempts id =
      outbox.attempts id + (outboxStep outbox action).2.count id := by
  unfold attempts
  cases before : outbox.table.find id with
  | none =>
    have unclaimed : id ∉ (outboxStep outbox action).2 := by
      intro claimed
      obtain ⟨row, now, found, -⟩ := due_of_output claimed
      rw [before] at found
      cases found
    rw [List.count_eq_zero.mpr unclaimed]
    cases after : (outboxStep outbox action).1.table.find id with
    | none => rfl
    | some row =>
      obtain ⟨input, now, rfl⟩ := find_step_new outbox action before after
      rfl
  | some row =>
    rw [find_step outbox action before, map_some, map_some, getD_some,
      getD_some]
    by_cases claimed : id ∈ (outboxStep outbox action).2
    · rw [if_pos claimed, List.count_eq_one_of_mem (output_nodup outbox action) claimed]
      rfl
    · rw [if_neg claimed, List.count_eq_zero.mpr claimed]
      split
      · split
        · exact settled_attemptCount _ _ _ _
        · rfl
      · rfl

omit consistent in
/-- A run counts the attempts it makes. -/
theorem attempts_after (outbox : Outbox) (actions : List OutboxAction) (id : Nat) :
    (Machine.after outboxStep outbox actions).attempts id =
      outbox.attempts id + (Machine.outputs outboxStep outbox actions).count id := by
  induction actions generalizing outbox with
  | nil => rfl
  | cons action rest ih =>
    have first := attempts_step outbox action id
    have later := ih (outboxStep outbox action).1
    show (Machine.after outboxStep (outboxStep outbox action).1 rest).attempts id = _
    rw [Machine.outputs_cons, List.count_append]
    omega

theorem Consistent.attempts_le (id : Nat) : outbox.attempts id ≤ maxAttempts := by
  unfold attempts
  cases found : outbox.table.find id with
  | none => exact Nat.zero_le _
  | some row => exact (consistent.tried id row found).1

/-! ## A delivery is claimed once at a time -/

/-- A delivery is under way or has been sent. -/
def Outbox.Away (outbox : Outbox) (id : Nat) : Prop :=
  id ∈ outbox.inFlight.map Delivery.id ∨
    ∃ row, outbox.table.find id = some row ∧ row.state = .sent

theorem Consistent.away_not_claimed (away : outbox.Away id)
    (action : OutboxAction) : id ∉ (outboxStep outbox action).2 := by
  rcases away with flying | ⟨row, found, sent⟩
  · obtain ⟨delivery, member, rfl⟩ := mem_map.mp flying
    exact not_claimed (consistent.find member) (.inl (consistent.held delivery member).2) action
  · exact not_claimed found (.inr sent) action

omit consistent in
/-- A claimed delivery is under way. -/
theorem away_of_claimed {action : OutboxAction} (claimed : id ∈ (outboxStep outbox action).2) :
    (outboxStep outbox action).1.Away id := by
  cases action with
  | deliver now limit =>
    have grown : (outboxStep outbox (.deliver now limit)).1.inFlight =
        outbox.inFlight ++ (claimDueDeliveries outbox.table now limit).2 := by
      simp only [outboxStep, inFlight, flight, List.flatMap_append, List.flatMap_cons,
        List.flatMap_nil, List.append_nil]
    left
    rw [grown, map_append]
    exact mem_append_right _ claimed
  | settle index sending =>
    rw [output_settle] at claimed
    cases claimed
  | enqueue input now => cases claimed
  | abort index => cases claimed
  | crash => cases claimed

/-- A delivery stays away until its claim ends without its being sent. -/
theorem Consistent.away_step (away : outbox.Away id)
    {action : OutboxAction} (unended : id ∉ outbox.ended action) :
    (outboxStep outbox action).1.Away id := by
  have unclaimed := consistent.away_not_claimed away action
  unfold ended at unended
  rw [mem_append, not_or] at unended
  -- What the action settles, if it is this delivery, is sent.
  have sends : ∀ now delivery sending, outbox.settling action = some (now, delivery, sending) →
      id = delivery.id → sending.outcome = .ok () := by
    intro now delivery sending settles same
    have quiet := unended.2
    rw [settles] at quiet
    cases outcome : sending.outcome with
    | ok => rfl
    | error thrown => simp [outcome, same] at quiet
  rcases away with flying | ⟨row, found, sent⟩
  · obtain ⟨delivery, member, rfl⟩ := mem_map.mp flying
    obtain ⟨claimed, -, -, moved⟩ := inFlight_step outbox action
    have where' := moved.mem_iff.mp (List.mem_append_left claimed member)
    rcases mem_append.mp where' with gone | left
    · exact absurd (mem_map_of_mem gone) unended.1
    · rcases mem_append.mp left with settles | stays
      · right
        cases isSettled : outbox.settling action with
        | none => simp [isSettled] at settles
        | some found =>
          obtain ⟨now, other, sending⟩ := found
          obtain rfl : delivery = other := by simpa [isSettled] using settles
          have outcome := sends now delivery sending isSettled rfl
          refine ⟨delivery.complete, ?_, rfl⟩
          rw [find_step outbox action (consistent.find member), if_neg unclaimed, isSettled]
          simp [settled, outcome]
      · exact .inl (mem_map_of_mem stays)
  · right
    have after := find_step outbox action found
    rw [if_neg unclaimed] at after
    refine ⟨_, after, ?_⟩
    cases isSettled : outbox.settling action with
    | none => exact sent
    | some found =>
      obtain ⟨now, delivery, sending⟩ := found
      by_cases same : id = delivery.id
      · simp [same, settled, sends now delivery sending isSettled same, complete]
      · simp [same, sent]

/-- A delivery stays away through a run in which its claim does not end without its being sent. -/
theorem Consistent.away_after (away : outbox.Away id) (actions : List OutboxAction)
    (unended : ∀ front action back, actions = front ++ action :: back →
      id ∉ (Machine.after outboxStep outbox front).ended action) :
    (Machine.after outboxStep outbox actions).Away id := by
  induction actions generalizing outbox with
  | nil => exact away
  | cons action rest ih =>
    apply ih (consistent_step outbox action consistent)
      (consistent.away_step away (unended [] action rest rfl))
    intro front next back split
    exact unended (action :: front) next back (by rw [split]; rfl)

/-! ## A delivery that is lost, and one that is not -/

/-- A delivery is stored as being sent although no call has it. -/
def Outbox.Lost (outbox : Outbox) (id : Nat) : Prop :=
  (∃ row, outbox.table.find id = some row ∧ row.state = .sending) ∧
    id ∉ outbox.inFlight.map Delivery.id

omit consistent in
/-- A lost delivery stays lost. -/
theorem lost_step (lost : outbox.Lost id) (action : OutboxAction) :
    (outboxStep outbox action).1.Lost id := by
  obtain ⟨⟨row, found, sending⟩, unheld⟩ := lost
  have unclaimed := not_claimed found (.inl sending) action
  obtain ⟨claimed, named, -, moved⟩ := inFlight_step outbox action
  have nowhere : id ∉ (outbox.abandoned action ++
      (((outbox.settling action).map fun found => found.2.1).toList ++
        (outboxStep outbox action).1.inFlight)).map Delivery.id := by
    rw [← (moved.map Delivery.id).mem_iff, map_append, named, mem_append, not_or]
    exact ⟨unheld, unclaimed⟩
  rw [map_append, map_append, mem_append, mem_append, not_or, not_or]
    at nowhere
  have after := find_step outbox action found
  rw [if_neg unclaimed] at after
  refine ⟨⟨_, after, ?_⟩, nowhere.2.2⟩
  cases isSettled : outbox.settling action with
  | none => exact sending
  | some other =>
    have differs : id ≠ other.2.1.id := by simpa [isSettled] using nowhere.2.1
    simp [differs, sending]

/-- A delivery that some later call claims. -/
def Outbox.Claimable (outbox : Outbox) (id : Nat) : Prop :=
  ∃ actions now limit,
    id ∈ (outboxStep (Machine.after outboxStep outbox actions) (.deliver now limit)).2

omit consistent in
theorem Outbox.Claimable.before {action : OutboxAction}
    (later : (outboxStep outbox action).1.Claimable id) : outbox.Claimable id := by
  obtain ⟨actions, now, limit, claimed⟩ := later
  exact ⟨action :: actions, now, limit, claimed⟩

omit consistent in
theorem Outbox.Lost.not_claimable (lost : outbox.Lost id) : ¬ outbox.Claimable id := by
  rintro ⟨actions, now, limit, claimed⟩
  have kept : ∀ (state : Outbox) (action : OutboxAction), state.Lost id →
      (outboxStep state action).1.Lost id := fun state action lost => lost_step lost action
  obtain ⟨⟨row, found, sending⟩, -⟩ := Machine.invariant_after kept lost actions
  exact not_claimed found (.inl sending) _ claimed

omit consistent in
/-- A claim leaves fewer rows due, as long as some are. -/
theorem due_claim_lt {table : Deliveries} {now : Nat} (limit : Int) (member : row ∈ table.rows)
    (due : row.isDue now) :
    ((claimDueDeliveries table now limit).1.rows.filter (isDue now)).length <
      (table.rows.filter (isDue now)).length := by
  have positive : 0 < boundedLimit limit := by
    unfold boundedLimit
    omega
  have some : removed (isDue now) Delivery.id (dueIds table now limit) table.rows ≠ [] := by
    intro idle
    have nothing := removed_oldest_eq_nil positive idle
    have selected : row ∈ table.rows.filter (isDue now) :=
      List.mem_filter.mpr ⟨member, due⟩
    rw [nothing] at selected
    cases selected
  have left : ((claimDueDeliveries table now limit).1.rows.filter (isDue now)).length =
      ((remaining (isDue now) Delivery.id (dueIds table now limit) table.rows).filter
        (isDue now)).length := by
    show ((table.rows.map (whenRow (fun row => (dueIds table now limit).contains row.id)
      claim)).filter (isDue now)).length = _
    rw [List.filter_map, List.length_map, remaining, List.filter_filter]
    congr 1
    refine List.filter_congr fun other _ => ?_
    rw [Function.comp, whenRow, isSelected]
    cases selected : (dueIds table now limit).contains other.id with
    | true =>
      have away : other.claim.isDue now = false := isDue_eq_false now (.inl rfl)
      rw [if_pos rfl, away]
      cases other.isDue now <;> rfl
    | false =>
      rw [if_neg Bool.false_ne_true]
      cases other.isDue now <;> rfl
  have split : (removed (isDue now) Delivery.id (dueIds table now limit) table.rows ++
      (remaining (isDue now) Delivery.id (dueIds table now limit) table.rows).filter
        (isDue now)).Perm (table.rows.filter (isDue now)) :=
    due_removed_remaining _ _
  have parts := split.length_eq
  rw [List.length_append] at parts
  have taken := List.length_pos_of_ne_nil some
  omega

omit consistent in
/-- A delivery that is due at some time is claimed by some later call. -/
theorem claimable_of_due (found : outbox.table.find id = some row) {now : Nat}
    (due : row.isDue now) : outbox.Claimable id := by
  -- Every call at this time claims a due delivery, so the others come to an end.
  generalize size : (outbox.table.rows.filter (isDue now)).length = left
  induction left using Nat.strong_induction_on generalizing outbox with
  | _ left ih =>
    have known := IdTable.find_eq_some.mp found
    by_cases claimed : id ∈ (outboxStep outbox (.deliver now 100)).2
    · exact ⟨[], now, 100, claimed⟩
    · have after := find_step outbox (.deliver now 100) found
      rw [if_neg claimed] at after
      have fewer := due_claim_lt 100 known.1 due
      exact (ih _ (size ▸ fewer) after rfl).before

def undeciphered : Sending := ⟨none, .error .other, false⟩

/-- A delivery under way with attempts left is claimed by some later call, should it fail. -/
theorem claimable_of_flight {delivery : Delivery}
    (member : delivery ∈ outbox.inFlight) (few : delivery.attemptCount < maxAttempts) :
    outbox.Claimable delivery.id := by
  obtain ⟨call, isCall, held⟩ := mem_flatMap.mp member
  obtain ⟨index, found⟩ := List.getElem?_of_mem isCall
  -- The deliveries before this one in its call fail first.
  generalize queue : call.deliveries = deliveries at held
  induction deliveries generalizing outbox call with
  | nil => cases held
  | cons first rest ih =>
    have settles : outbox.settling (.settle index undeciphered) =
        some (call.now, first, undeciphered) := by
      simp [settling, found, queue]
    have unclaimed : delivery.id ∉ (outboxStep outbox (.settle index undeciphered)).2 := by
      rw [output_settle]
      exact List.not_mem_nil
    have after := find_step outbox (.settle index undeciphered) (consistent.find member)
    rw [if_neg unclaimed, settles] at after
    dsimp only at after
    rcases List.mem_cons.mp held with rfl | later
    · rw [if_pos rfl] at after
      have due : (settled call.now delivery undeciphered delivery).isDue
          (settled call.now delivery undeciphered delivery).nextAttemptAt = true := by
        have state : (settled call.now delivery undeciphered delivery).state =
            .deliveryAmbiguous := rfl
        simp [isDue, state, few]
      exact (claimable_of_due after due).before
    · have step : outboxStep outbox (.settle index undeciphered) =
          (⟨settleDelivery outbox.table call.now first undeciphered,
            outbox.loops.set index call.next⟩, []) := by
        simp [outboxStep, found, queue]
      have place : index < outbox.loops.length := (List.getElem?_eq_some_iff.mp found).1
      have next : (outboxStep outbox (.settle index undeciphered)).1.loops[index]? =
          some call.next := by
        rw [step]
        exact List.getElem?_set_self place
      have rests : call.next.deliveries = rest := by rw [DeliverLoop.next, queue, List.tail_cons]
      have isNext : call.next ∈ (outboxStep outbox (.settle index undeciphered)).1.loops :=
        List.mem_of_getElem? next
      refine (ih (consistent_step _ _ consistent) ?_ call.next isNext next rests later).before
      exact mem_flatMap.mpr ⟨call.next, isNext, rests ▸ later⟩

/-- Every delivery that is not sent and has attempts left is claimed by some later call. -/
def Outbox.Recoverable (outbox : Outbox) : Prop :=
  ∀ row ∈ outbox.table.rows, row.state ≠ .sent → row.attemptCount < maxAttempts →
    outbox.Claimable row.id

/-- Every delivery that is being sent and has attempts left is under way. -/
def Outbox.Held (outbox : Outbox) : Prop :=
  ∀ row ∈ outbox.table.rows, row.state = .sending → row.attemptCount < maxAttempts →
    row ∈ outbox.inFlight

/-- Of a consistent outbox, every delivery can be claimed again exactly when none with attempts left
is being sent by no one. -/
theorem Consistent.recoverable_iff : outbox.Recoverable ↔ outbox.Held := by
  constructor
  · intro recoverable row member sending few
    by_contra unheld
    have found : outbox.table.find row.id = some row := IdTable.find_eq_some.mpr ⟨member, rfl⟩
    have unsent : row.state ≠ .sent := by
      rw [sending]
      decide
    refine Outbox.Lost.not_claimable ⟨⟨row, found, sending⟩, fun flying => ?_⟩
      (recoverable row member unsent few)
    obtain ⟨delivery, isFlying, named⟩ := mem_map.mp flying
    have same : delivery = row :=
      outbox.table.row_unique (consistent.held delivery isFlying).1 member named
    exact unheld (same ▸ isFlying)
  · intro held row member unsent few
    have found : outbox.table.find row.id = some row := IdTable.find_eq_some.mpr ⟨member, rfl⟩
    cases state : row.state with
    | sent => exact absurd state unsent
    | sending => exact claimable_of_flight consistent (held row member state few) few
    | queued =>
      have due : row.isDue row.nextAttemptAt := by simp [isDue, state]
      exact claimable_of_due found due
    | failed =>
      have due : row.isDue row.nextAttemptAt := by simp [isDue, state, few]
      exact claimable_of_due found due
    | deliveryAmbiguous =>
      have due : row.isDue row.nextAttemptAt := by simp [isDue, state, few]
      exact claimable_of_due found due

def Abandons (outbox : Outbox) (action : OutboxAction) : Prop :=
  ∃ delivery ∈ outbox.abandoned action, delivery.attemptCount < maxAttempts

/-- An action that ends no such call leaves every delivery with attempts left in someone's hands. -/
theorem held_of_kept (held : outbox.Held) {action : OutboxAction}
    (kept : ¬ Abandons outbox action) : (outboxStep outbox action).1.Held := by
  intro row member sending few
  obtain ⟨claimed, named, inTable, moved⟩ := inFlight_step outbox action
  have next := consistent_step outbox action consistent
  have after : (outboxStep outbox action).1.table.find row.id = some row :=
    IdTable.find_eq_some.mpr ⟨member, rfl⟩
  -- Either the action claims the row, or it was being sent already and was not settled.
  have before : row ∈ outbox.inFlight ++ claimed ∧
      row ∉ ((outbox.settling action).map fun found => found.2.1).toList := by
    by_cases isClaimed : row.id ∈ (outboxStep outbox action).2
    · rw [← named] at isClaimed
      obtain ⟨delivery, isNew, same⟩ := mem_map.mp isClaimed
      have isRow : delivery = row :=
        (outboxStep outbox action).1.table.row_unique (inTable delivery isNew).1 member same
      subst isRow
      refine ⟨mem_append_right _ isNew, fun settles => ?_⟩
      have output : (outboxStep outbox action).2 = [] := by
        cases action with
        | settle index sending => exact output_settle outbox index sending
        | deliver now limit => cases settles
        | enqueue input now => rfl
        | abort index => rfl
        | crash => rfl
      rw [named, output] at isClaimed
      cases isClaimed
    · cases found : outbox.table.find row.id with
      | none =>
        obtain ⟨input, now, isNew⟩ := find_step_new outbox action found after
        rw [isNew] at sending
        cases sending
      | some old =>
        have changed := find_step outbox action found
        rw [if_neg isClaimed, after, Option.some.injEq] at changed
        cases settles : outbox.settling action with
        | none =>
          rw [settles] at changed
          rw [changed] at sending few ⊢
          have known := IdTable.find_eq_some.mp found
          exact ⟨List.mem_append_left _ (held old known.1 sending few), List.not_mem_nil⟩
        | some other =>
          obtain ⟨now, delivery, outcome⟩ := other
          rw [settles] at changed
          dsimp only at changed
          by_cases same : row.id = delivery.id
          · rw [if_pos same] at changed
            rw [changed] at sending
            exact absurd sending (settled_state _ _ _ _).1
          · rw [if_neg same] at changed
            have known := IdTable.find_eq_some.mp found
            rw [changed] at sending few same ⊢
            refine ⟨List.mem_append_left _ (held old known.1 sending few), fun isOther => ?_⟩
            exact same (by rw [List.mem_singleton.mp isOther])
  rcases mem_append.mp (moved.mem_iff.mp before.1) with gone | left
  · exact absurd ⟨row, gone, few⟩ kept
  · exact (mem_append.mp left).resolve_left before.2

/-- An action that ends such a call leaves its delivery in no one's hands. -/
theorem kept_of_held {action : OutboxAction}
    (held : (outboxStep outbox action).1.Held) : ¬ Abandons outbox action := by
  rintro ⟨delivery, gone, few⟩
  have apart := (consistent.step action).1
  rw [map_append, map_append, nodup_append] at apart
  have elsewhere : delivery.id ∉ (outboxStep outbox action).1.inFlight.map Delivery.id := by
    intro flying
    exact apart.2.2 _ (mem_map_of_mem gone) _ (mem_append_right _ flying) rfl
  have flying : delivery ∈ outbox.inFlight := by
    cases action with
    | abort index =>
      cases found : outbox.loops[index]? with
      | none => simp [abandoned, found] at gone
      | some call =>
        have isCall : delivery ∈ call.deliveries := by simpa [abandoned, found] using gone
        exact mem_flatMap.mpr ⟨call, List.mem_of_getElem? found, isCall⟩
    | crash => exact gone
    | enqueue input now => cases gone
    | deliver now limit => cases gone
    | settle index sending => cases gone
  have table : (outboxStep outbox action).1.table = outbox.table := by
    cases action with
    | abort index => rfl
    | crash => rfl
    | enqueue input now => cases gone
    | deliver now limit => cases gone
    | settle index sending => cases gone
  have member := consistent.held delivery flying
  rw [← table] at member
  exact elsewhere (mem_map_of_mem (held delivery member.1 member.2 few))

/-! ## The law -/

/-- No call of a run claims a delivery while an earlier claim of it has neither failed nor been
abandoned. -/
def NeverReclaimed (actions : List OutboxAction) : Prop :=
  ∀ before first between second later, actions = before ++ first :: between ++ second :: later →
    ∀ id, id ∈ (outboxStep (Machine.after outboxStep Outbox.empty before) first).2 →
      id ∈ (outboxStep (Machine.after outboxStep Outbox.empty (before ++ first :: between))
        second).2 →
      ∃ front action back, between = front ++ action :: back ∧
        id ∈ (Machine.after outboxStep Outbox.empty (before ++ first :: front)).ended action

/-- In every state of the run every delivery that is not sent and has attempts left can still be
claimed, the run attempts no delivery more than five times, and it claims none whose earlier claim
has neither failed nor been abandoned. -/
def LosesNothing (actions : List OutboxAction) : Prop :=
  (∀ before later, actions = before ++ later →
    (Machine.after outboxStep Outbox.empty before).Recoverable) ∧
  (∀ id, (Machine.outputs outboxStep Outbox.empty actions).count id ≤ 5) ∧
  NeverReclaimed actions

omit consistent in
/-- Every run claims a delivery again only after its claim has failed or been abandoned. -/
theorem neverReclaimed (actions : List OutboxAction) : NeverReclaimed actions := by
  intro before first between second later _ id claimed again
  by_contra never
  have consistent := Machine.invariant_after consistent_step consistent_empty before
  have next := consistent_step _ first consistent
  have still := next.away_after (away_of_claimed claimed) between fun front action back split =>
    fun ended => never ⟨front, action, back, split, by rwa [Machine.after_append]⟩
  rw [Machine.after_append] at again
  exact (Machine.invariant_after consistent_step next between).away_not_claimed still second again

/-- From a consistent outbox with every delivery in someone's hands, everything stays recoverable
exactly when no action abandons a delivery with attempts left. -/
theorem recoverable_along (held : outbox.Held) (actions : List OutboxAction) :
    (∀ before later, actions = before ++ later →
      (Machine.after outboxStep outbox before).Recoverable) ↔
    Machine.Along outboxStep (fun outbox action => ¬ Abandons outbox action) outbox actions := by
  induction actions generalizing outbox with
  | nil =>
    refine iff_of_true (fun before later split => ?_) trivial
    rw [(List.append_eq_nil_iff.mp split.symm).1]
    exact consistent.recoverable_iff.mpr held
  | cons action rest ih =>
    have next := consistent_step outbox action consistent
    constructor
    · intro every
      have heldNext := next.recoverable_iff.mp (every [action] rest rfl)
      refine ⟨kept_of_held consistent heldNext, (ih next heldNext).mp fun before later split => ?_⟩
      exact every (action :: before) later (by rw [split]; rfl)
    · rintro ⟨kept, others⟩ before later split
      cases before with
      | nil => exact consistent.recoverable_iff.mpr held
      | cons lead before =>
        obtain ⟨rfl, same⟩ := List.cons.inj split
        exact (ih next (held_of_kept consistent held kept)).mpr others before later same

omit consistent

/-- A run of the outbox loses nothing exactly when no call of it ends, by a crash or a write that
throws, before it has settled a claimed delivery with attempts left. -/
theorem loses_iff (actions : List OutboxAction) :
    LosesNothing actions ↔
      Machine.Along outboxStep (fun outbox action => ¬ Abandons outbox action) Outbox.empty
        actions := by
  have held : empty.Held := by
    intro row member
    cases member
  rw [← recoverable_along consistent_empty held]
  refine ⟨fun all => all.1, fun every => ⟨every, fun id => ?_, neverReclaimed actions⟩⟩
  have counted := attempts_after empty actions id
  have start : empty.attempts id = 0 := rfl
  have bound := (Machine.invariant_after consistent_step consistent_empty actions).attempts_le id
  rw [counted, start, Nat.zero_add] at bound
  exact bound

/-- A delivery is enqueued and claimed, and the process ends before the outcome is written: no later
call claims it, after one attempt. -/
theorem loses_after_crash :
    ¬ LosesNothing
      [.enqueue ⟨none, "recipient", .opened, 0⟩ 0, .deliver 0 50, .crash] := by
  intro law
  have last := law.1 _ [] (List.append_nil _).symm
  let lost := Machine.after outboxStep empty
    [.enqueue ⟨none, "recipient", .opened, 0⟩ 0, .deliver 0 50, .crash]
  let row : Delivery := ⟨0, none, "recipient", .opened, .sending, 1, 0, none, 0⟩
  have found : lost.table.find 0 = some row := by decide +kernel
  have unheld : 0 ∉ lost.inFlight.map Delivery.id := List.not_mem_nil
  have member := (IdTable.find_eq_some.mp found).1
  exact Outbox.Lost.not_claimable ⟨⟨row, found, rfl⟩, unheld⟩
    (last row member (by decide) (by decide))

end NancyMan.Alerts
