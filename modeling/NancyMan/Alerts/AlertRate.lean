import NancyMan.Alerts.AlertService

/-!
# How often an incident alerts

The cooldown of `queueTransitionDelivery` is asked of the first notice of an incident only: a reminder
is not counted. Once the first notice is older than the cooldown, every transition is reminded of at
once. `rate_iff` says that this is the only way in which two notices come too close to each other.
-/
namespace NancyMan.Alerts

open Collector
open List (append_nil)

/-! ## What a call creates -/

/-- Two deliveries, the earlier one first, keep the rate of their incident and recipient: notices
other than of the recovery stand the cooldown apart, and there is one of the recovery. -/
def Spaced (earlier later : Created) : Prop :=
  earlier.delivery.incidentId = later.delivery.incidentId →
    earlier.recipientHash = later.recipientHash →
    (earlier.delivery.kind ≠ .recovered → later.delivery.kind ≠ .recovered →
      earlier.delivery.createdAt + later.cooldown ≤ later.delivery.createdAt) ∧
    (earlier.delivery.kind = .recovered → later.delivery.kind ≠ .recovered)

/-- A later reading of the clock is no earlier. -/
theorem reading_le (time : Nat) (delays : Nat → Nat) (count more : Nat) :
    reading time delays count ≤ reading time delays (count + more) := by
  induction more with
  | zero => exact Nat.le_refl _
  | succ more ih =>
    have next : reading time delays (count + (more + 1)) =
        reading time delays (count + more) + delays (count + more + 1) := rfl
    omega

section Each

variable (incidentId : Nat) (kind : DeliveryKind) (cooldown : Nat) (clock : Nat → Nat)

/-- A delivery is created for each recipient in order. -/
theorem enqueueEach_hashes (table : Deliveries) (count : Nat)
    (recipients : List ZaloRecipientRecord) :
    (enqueueEach incidentId kind cooldown clock table count recipients).2.map
      Created.recipientHash = recipients.map ZaloRecipientRecord.recipientHash := by
  induction recipients generalizing table count with
  | nil => rfl
  | cons recipient rest ih =>
    rw [List.map_cons, ← ih (enqueueDelivery table _ (clock (count + 2))) (count + 2)]
    rfl

variable {recipients : List ZaloRecipientRecord}

/-- A created delivery is one of its incident and kind, for a recipient at its place, created at the
reading of its turn. -/
theorem mem_enqueueEach {table : Deliveries} {count : Nat} {created : Created} :
    created ∈ (enqueueEach incidentId kind cooldown clock table count recipients).2 →
      created.cooldown = cooldown ∧ created.delivery.incidentId = some incidentId ∧
      created.delivery.kind = kind ∧
      ∃ (index : Nat) (recipient : ZaloRecipientRecord), recipients[index]? = some recipient ∧
        created.recipientHash = recipient.recipientHash ∧
        created.delivery.createdAt = clock (count + 2 * index + 2) := by
  induction recipients generalizing table count with
  | nil => nofun
  | cons recipient rest ih =>
    intro member
    rcases List.mem_cons.mp member with rfl | later
    · exact ⟨rfl, rfl, rfl, 0, recipient, rfl, rfl, rfl⟩
    · obtain ⟨cools, own, kinds, index, other, found, named, turn⟩ := ih later
      refine ⟨cools, own, kinds, index + 1, other, found, named, turn.trans ?_⟩
      congr 1
      omega

/-- For each recipient, a delivery is created at the reading of its turn. -/
theorem exists_mem_enqueueEach (table : Deliveries) (count : Nat) {index : Nat}
    {recipient : ZaloRecipientRecord} (found : recipients[index]? = some recipient) :
    ∃ created ∈ (enqueueEach incidentId kind cooldown clock table count recipients).2,
      created.cooldown = cooldown ∧ created.delivery.incidentId = some incidentId ∧
      created.delivery.kind = kind ∧ created.recipientHash = recipient.recipientHash ∧
      created.delivery.createdAt = clock (count + 2 * index + 2) := by
  induction recipients generalizing table count index with
  | nil => cases found
  | cons first rest ih =>
    cases index with
    | zero =>
      obtain rfl : first = recipient := by simpa using found
      exact ⟨_, (.head _), rfl, rfl, rfl, rfl, rfl⟩
    | succ index =>
      have later : rest[index]? = some recipient := by simpa using found
      obtain ⟨created, member, cools, own, kinds, named, turn⟩ := ih _ (count + 2) later
      refine ⟨created, .tail _ member, cools, own, kinds, named, turn.trans ?_⟩
      congr 1
      omega

/-- The rows before stand in the table after, with what is created. -/
theorem rows_enqueueEach (table : Deliveries) (count : Nat)
    (recipients : List ZaloRecipientRecord) :
    (enqueueEach incidentId kind cooldown clock table count recipients).1.rows =
      table.rows ++ (enqueueEach incidentId kind cooldown clock table count recipients).2.map
        Created.delivery := by
  induction recipients generalizing table count with
  | nil => exact (append_nil _).symm
  | cons recipient rest ih =>
    let input : EnqueueInput :=
      ⟨some incidentId, recipient.recipientCiphertext, kind, clock (count + 1)⟩
    have later := ih (enqueueDelivery table input (clock (count + 2))) (count + 2)
    show (enqueueEach incidentId kind cooldown clock
      (enqueueDelivery table input (clock (count + 2))) (count + 2) rest).1.rows = _
    rw [later]
    show (table.rows ++ [enqueued input (clock (count + 2)) table.nextId]) ++ _ = _
    rw [List.append_assoc]
    rfl

theorem spaced_enqueueEach (table : Deliveries) (count : Nat)
    (distinct : (recipients.map ZaloRecipientRecord.recipientHash).Nodup) :
    (enqueueEach incidentId kind cooldown clock table count recipients).2.Pairwise Spaced := by
  rw [← enqueueEach_hashes incidentId kind cooldown clock table count recipients] at distinct
  refine (List.pairwise_map.mp distinct).imp fun differs _ same => ?_
  exact absurd same differs

end Each

/-! ## What a call decides -/

variable {table : Deliveries} {incidentId now cooldown : Nat} {transition : Transition}
  {state : AlertState}

/-- A notice of the recovery is created when there is none yet. -/
theorem deliveryKind_recovered
    (decided : deliveryKind table incidentId transition now cooldown = some .recovered) :
    hasDelivery table incidentId .recovered none = false := by
  unfold deliveryKind at decided
  split at decided
  · split at decided
    · cases decided
    · next absent => exact eq_false_of_ne_true absent
  · split at decided
    · cases decided
    · split at decided <;> cases decided

/-- Another notice is created when the first one is older than the cooldown, or there is none. -/
theorem deliveryKind_notice :
    (∃ kind ≠ DeliveryKind.recovered,
      deliveryKind table incidentId transition now cooldown = some kind) ↔
    transition ≠ .recovered ∧
      hasDelivery table incidentId .opened (some (now - cooldown)) = false := by
  unfold deliveryKind
  constructor
  · rintro ⟨kind, notice, decided⟩
    split at decided
    · split at decided
      · cases decided
      · cases decided
        exact absurd rfl notice
    · next other =>
      split at decided
      · cases decided
      · next quiet => exact ⟨other, eq_false_of_ne_true quiet⟩
  · rintro ⟨other, quiet⟩
    rw [if_neg other, quiet, if_neg Bool.false_ne_true]
    by_cases opened : hasDelivery table incidentId .opened none
    · exact ⟨.reminder, by decide, if_pos opened⟩
    · exact ⟨.opened, by decide, if_neg opened⟩

/-! ## What every run keeps -/

/-- Every delivery that has been created stands in the table, and none is of the failed collector. -/
def Logged (state : AlertState) : Prop :=
  ∀ entry ∈ state.history, entry.delivery.kind ≠ .collectorFailed ∧
    ∃ row ∈ state.outbox.table.rows, row.incidentId = entry.delivery.incidentId ∧
      row.kind = entry.delivery.kind ∧ row.createdAt = entry.delivery.createdAt

/-- A delivery that has been created is found. -/
theorem Logged.hasDelivery (logged : Logged state) {entry : Created}
    (member : entry ∈ state.history) (own : entry.delivery.incidentId = some incidentId)
    (since : Option Nat) (recent : ∀ time ∈ since, time ≤ entry.delivery.createdAt) :
    hasDelivery state.outbox.table incidentId entry.delivery.kind since := by
  obtain ⟨-, row, isRow, sameIncident, sameKind, sameTime⟩ := logged entry member
  refine List.any_eq_true.mpr ⟨row, isRow, ?_⟩
  have timely : (since.all fun since => decide (since ≤ row.createdAt)) := by
    cases since with
    | none => rfl
    | some time =>
      have early : time ≤ row.createdAt := sameTime ▸ recent time rfl
      exact decide_eq_true early
  rw [timely, sameIncident, own, sameKind]
  simp

/-- No action of the outbox changes what a delivery was created as. -/
theorem created_kept (outbox : Outbox) (action : OutboxAction) {row : Delivery}
    (member : row ∈ outbox.table.rows) :
    ∃ later ∈ (outboxStep outbox action).1.table.rows, later.incidentId = row.incidentId ∧
      later.kind = row.kind ∧ later.createdAt = row.createdAt := by
  have found : outbox.table.find row.id = some row := IdTable.find_eq_some.mpr ⟨member, rfl⟩
  have after := find_step outbox action found
  refine ⟨_, (IdTable.find_eq_some.mp after).1, ?_⟩
  split
  · exact ⟨rfl, rfl, rfl⟩
  · split
    · split
      · unfold settled
        split <;> exact ⟨rfl, rfl, rfl⟩
      · exact ⟨rfl, rfl, rfl⟩
    · exact ⟨rfl, rfl, rfl⟩

/-- An action of the outbox keeps the deliveries logged. -/
theorem logged_onOutbox (logged : Logged state) (action : OutboxAction) :
    Logged (state.onOutbox action) := by
  intro entry member
  obtain ⟨kinds, row, isRow, sameIncident, sameKind, sameTime⟩ := logged entry member
  obtain ⟨later, isLater, keptIncident, keptKind, keptTime⟩ :=
    created_kept state.outbox action isRow
  exact ⟨kinds, later, isLater, keptIncident.trans sameIncident, keptKind.trans sameKind,
    keptTime.trans sameTime⟩

variable {ν : Type} [JsRuntime ν]

/-- Every action keeps the deliveries logged. -/
theorem logged_step (state : AlertState) (action : AlertAction ν) (logged : Logged state) :
    Logged (alertStep state action).1 := by
  cases action with
  | queue input sources delays =>
    unfold alertStep queueTransitionDelivery
    dsimp only
    split
    · exact logged
    · next kind decided =>
      have known : kind ≠ .collectorFailed := by
        rintro rfl
        unfold deliveryKind at decided
        split at decided
        · split at decided <;> cases decided
        · split at decided
          · cases decided
          · split at decided <;> cases decided
      intro entry member
      rcases List.mem_append.mp member with old | new
      · obtain ⟨kinds, row, isRow, same⟩ := logged entry old
        refine ⟨kinds, row, ?_, same⟩
        rw [rows_enqueueEach]
        exact List.mem_append_left _ isRow
      · have own := mem_enqueueEach _ _ _ _ new
        refine ⟨by rw [own.2.2.1]; exact known, entry.delivery, ?_, rfl, rfl, rfl⟩
        rw [rows_enqueueEach]
        exact List.mem_append_right _ (List.mem_map_of_mem new)
  | incidents store => exact logged
  | deliver now limit => exact logged_onOutbox logged _
  | settle index sending => exact logged_onOutbox logged _
  | abort index => exact logged_onOutbox logged _
  | crash => exact logged_onOutbox logged _

/-- Every action adds what it creates to the history. -/
theorem history_step (state : AlertState) (action : AlertAction ν) :
    (alertStep state action).1.history = state.history ++ (alertStep state action).2 := by
  cases action with
  | queue input sources delays =>
    unfold alertStep queueTransitionDelivery
    dsimp only
    split
    · exact (append_nil _).symm
    · rfl
  | incidents store => exact (append_nil _).symm
  | deliver now limit => exact (append_nil _).symm
  | settle index sending => exact (append_nil _).symm
  | abort index => exact (append_nil _).symm
  | crash => exact (append_nil _).symm

/-- What one action creates keeps the rate. -/
theorem spaced_own (state : AlertState) (action : AlertAction ν) :
    (alertStep state action).2.Pairwise Spaced := by
  cases action with
  | queue input sources delays =>
    unfold alertStep queueTransitionDelivery
    dsimp only
    split
    · exact .nil
    · exact spaced_enqueueEach _ _ _ _ _ _ (resolveZaloRecipients_nodup sources)
  | incidents store => exact .nil
  | deliver now limit => exact .nil
  | settle index sending => exact .nil
  | abort index => exact .nil
  | crash => exact .nil

/-! ## The law -/

/-- A transition other than the recovery is queued while the first notice of its incident is older
than the cooldown, or missing, and a reminder to one of the recipients is not. -/
def Crowded (state : AlertState) : AlertAction ν → Prop
  | .queue input sources delays =>
    let incident := (openOrUpdateIncident state.incidents input).2
    let clock := reading state.time delays
    let cooldown := cooldownMs input.sample
    (input.transition ≠ .recovered ∧
      hasDelivery state.outbox.table incident.id .opened (some (clock 0 - cooldown)) = false) ∧
    ∃ reminder ∈ state.history, reminder.delivery.kind = .reminder ∧
      reminder.delivery.incidentId = some incident.id ∧
      ∃ (index : Nat) (recipient : ZaloRecipientRecord),
        (resolveZaloRecipients sources)[index]? = some recipient ∧
        recipient.recipientHash = reminder.recipientHash ∧
        clock (2 * index + 2) < reminder.delivery.createdAt + cooldown
  | _ => False

/-- A call keeps the rate of the deliveries before it exactly when it is not crowded. -/
theorem spaced_queue (logged : Logged state) (input : CollectorTransition ν)
    (sources : RecipientSources) (delays : Nat → Nat) :
    (∀ earlier ∈ state.history,
      ∀ later ∈ (queueTransitionDelivery state input sources delays).2, Spaced earlier later) ↔
    ¬ Crowded state (.queue input sources delays) := by
  unfold Crowded queueTransitionDelivery
  dsimp only
  generalize (openOrUpdateIncident state.incidents input).2.id = incidentId
  have clocks := reading_le state.time delays 0
  generalize reading state.time delays = clock at clocks
  generalize cooldownMs input.sample = cooldown
  cases decided : deliveryKind state.outbox.table incidentId input.transition (clock 0) cooldown with
  | none =>
    refine iff_of_true (fun _ _ later member => absurd member List.not_mem_nil) ?_
    rintro ⟨notice, -⟩
    obtain ⟨kind, -, other⟩ := deliveryKind_notice.mpr notice
    rw [decided] at other
    cases other
  | some kind =>
    constructor
    · rintro spaced ⟨notice, reminder, member, kinds, own, index, recipient, found, named, soon⟩
      obtain ⟨other, notRecovered, same⟩ := deliveryKind_notice.mpr notice
      obtain rfl : kind = other := by rwa [decided, Option.some.injEq] at same
      obtain ⟨later, isLater, cools, ownLater, kindLater, hash, turn⟩ :=
        exists_mem_enqueueEach incidentId kind cooldown clock state.outbox.table 0 found
      have apart := (spaced reminder member later isLater (own.trans ownLater.symm)
        (named.symm.trans hash.symm)).1 (by rw [kinds]; decide) (by rw [kindLater]; exact notRecovered)
      rw [cools, turn, Nat.zero_add] at apart
      omega
    · intro calm earlier member later isLater sameIncident sameRecipient
      obtain ⟨cools, own, kindLater, index, recipient, found, named, turn⟩ :=
        mem_enqueueEach _ _ _ _ isLater
      have ownEarlier : earlier.delivery.incidentId = some incidentId := sameIncident.trans own
      rw [cools, kindLater, turn, Nat.zero_add]
      constructor
      · intro notRecovered notice
        have quiet := deliveryKind_notice.mp ⟨kind, notice, decided⟩
        cases kinds : earlier.delivery.kind with
        | recovered => exact absurd kinds notRecovered
        | collectorFailed => exact absurd kinds (logged earlier member).1
        | opened =>
          -- The first notice was found, had it been created within the cooldown.
          by_contra soon
          have start := clocks (2 * index + 2)
          rw [Nat.zero_add] at start
          have recent : ∀ time ∈ some (clock 0 - cooldown), time ≤ earlier.delivery.createdAt := by
            rintro time ⟨⟩
            omega
          have hit := logged.hasDelivery member ownEarlier _ recent
          rw [kinds, quiet.2] at hit
          cases hit
        | reminder =>
          by_contra soon
          exact calm ⟨quiet, earlier, member, kinds, ownEarlier, index, recipient, found,
            named.symm.trans sameRecipient.symm, by omega⟩
      · intro recovered again
        subst again
        have hit := logged.hasDelivery member ownEarlier none nofun
        rw [recovered, deliveryKind_recovered decided] at hit
        cases hit

def RateLimited (start : AlertState) (actions : List (AlertAction ν)) : Prop :=
  (Machine.outputs alertStep start actions).Pairwise Spaced

def AlertState.starting (incidents : IncidentStore) (time : Nat) : AlertState :=
  ⟨incidents, Outbox.empty, time, []⟩

/-- In every run from an empty outbox, the deliveries of an incident to a recipient keep the rate
exactly when no transition is queued within the cooldown of a reminder. -/
theorem rate_iff (incidents : IncidentStore) (time : Nat) (actions : List (AlertAction ν)) :
    RateLimited (.starting incidents time) actions ↔
      Machine.Along alertStep (fun state action => ¬ Crowded state action)
        (.starting incidents time) actions := by
  have first : Logged (.starting incidents time) := by
    intro entry member
    cases member
  have each : ∀ (state : AlertState) (action : AlertAction ν), Logged state →
      ((∀ earlier ∈ state.history, ∀ later ∈ (alertStep state action).2, Spaced earlier later) ↔
        ¬ Crowded state action) := by
    intro state action logged
    cases action with
    | queue input sources delays => exact spaced_queue logged input sources delays
    | incidents store => exact iff_of_true (fun _ _ _ member => nomatch member) id
    | deliver now limit => exact iff_of_true (fun _ _ _ member => nomatch member) id
    | settle index sending => exact iff_of_true (fun _ _ _ member => nomatch member) id
    | abort index => exact iff_of_true (fun _ _ _ member => nomatch member) id
    | crash => exact iff_of_true (fun _ _ _ member => nomatch member) id
  exact Machine.pairwise_outputs_iff history_step logged_step spaced_own each first
    .nil actions

/-- A transition of one incident, of a failing probe. -/
def livenessTransition (transition : Transition) : CollectorTransition Float where
  incidentId := 0
  monitor := .appLiveness
  sample :=
    { monitor := .appLiveness
      level := .critical
      observedAt := "2026-01-01T00:00:00.000Z"
      latencyMs := none
      details := []
      errorCode := none }
  level := .critical
  transition := transition
  dedupeKey := "app_liveness:app_down"
  safeSummary := "app_liveness critical"
  occurrenceCount := 1

def oneRecipient : RecipientSources := ⟨["operator"], [], id, id⟩

/-- The first reading of a call comes some minutes after the call before. -/
def minutesLater (minutes : Nat) : Nat → Nat
  | 0 => minutes * 60000
  | _ + 1 => 0

instance : DecidableRel Spaced := fun earlier later => inferInstanceAs <| Decidable <|
  earlier.delivery.incidentId = later.delivery.incidentId →
    earlier.recipientHash = later.recipientHash →
    (earlier.delivery.kind ≠ .recovered → later.delivery.kind ≠ .recovered →
      earlier.delivery.createdAt + later.cooldown ≤ later.delivery.createdAt) ∧
    (earlier.delivery.kind = .recovered → later.delivery.kind ≠ .recovered)

/-- An incident opens and changes 31 and 32 minutes later: two reminders come one minute apart. -/
theorem reminders_crowd :
    ¬ RateLimited (.starting IncidentStore.empty 0)
      [.queue (livenessTransition .opened) oneRecipient (minutesLater 0),
        .queue (livenessTransition .changed) oneRecipient (minutesLater 31),
        .queue (livenessTransition .changed) oneRecipient (minutesLater 1)] := by
  unfold RateLimited
  decide +kernel

end NancyMan.Alerts
