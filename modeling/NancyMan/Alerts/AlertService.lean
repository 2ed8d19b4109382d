import NancyMan.Alerts.OutboxRuns
import NancyMan.Collector.Incidents

/-!
# Queueing alerts

`openOrUpdateIncident` and `queueTransitionDelivery` of the alert service, with the recipients as
`resolveZaloRecipients` resolves them. A call reads the clock more than once, so it is given how
much later each reading is than the one before.
-/
namespace NancyMan.Alerts

open Collector

/-! ## Recipients -/

structure ZaloRecipientRecord where
  recipientHash : String
  recipientCiphertext : String
deriving DecidableEq, Repr

/-- Add to a map from hashes the records whose hash it does not have. -/
def firstByHash (found : List ZaloRecipientRecord) :
    List ZaloRecipientRecord → List ZaloRecipientRecord
  | [] => found
  | recipient :: rest =>
    if recipient.recipientHash ∈ found.map ZaloRecipientRecord.recipientHash then
      firstByHash found rest
    else firstByHash (found ++ [recipient]) rest

/-- What the recipients are resolved from: the configured ones, the links `listActiveZaloRecipients`
reads, `hashZaloChatId` and `encryptSecret`. -/
structure RecipientSources where
  configured : List String
  active : List ZaloRecipientRecord
  hashZaloChatId : String → String
  encryptSecret : String → String

variable (sources : RecipientSources)

def resolveConfiguredZaloRecipients : List ZaloRecipientRecord :=
  firstByHash [] (sources.configured.map fun recipient =>
    ⟨sources.hashZaloChatId recipient, sources.encryptSecret recipient⟩)

def resolveZaloRecipients : List ZaloRecipientRecord :=
  firstByHash (resolveConfiguredZaloRecipients sources) sources.active

open ZaloRecipientRecord

/-- A map from hashes has no hash twice. -/
theorem firstByHash_nodup {found : List ZaloRecipientRecord}
    (distinct : (found.map recipientHash).Nodup)
    (recipients : List ZaloRecipientRecord) :
    ((firstByHash found recipients).map recipientHash).Nodup := by
  induction recipients generalizing found with
  | nil => exact distinct
  | cons recipient rest ih =>
    rw [firstByHash]
    by_cases known : recipient.recipientHash ∈ found.map recipientHash
    · rw [if_pos known]
      exact ih distinct
    · rw [if_neg known]
      apply ih
      rw [List.map_append]
      apply List.Nodup.append distinct (List.nodup_singleton _)
      intro hash old new
      exact known (List.mem_singleton.mp new ▸ old)

theorem resolveZaloRecipients_nodup :
    ((resolveZaloRecipients sources).map recipientHash).Nodup := by
  have start : (([] : List ZaloRecipientRecord).map recipientHash).Nodup :=
    List.nodup_nil
  exact firstByHash_nodup (firstByHash_nodup start _) _

/-! ## Queueing a transition -/

def hasDelivery (table : Deliveries) (incidentId : Nat) (kind : DeliveryKind)
    (since : Option Nat) : Bool :=
  table.rows.any fun row =>
    row.incidentId == some incidentId && row.kind == kind &&
      since.all fun since => decide (since ≤ row.createdAt)

/-- `COOLDOWN_MS`. -/
def defaultCooldownMs : Nat := 30 * 60 * 1000

def cooldownMs {ν : Type} (sample : MonitorSample ν) : Nat :=
  if sample.errorCode = some "backup_local_only" then 24 * 60 * 60000 else defaultCooldownMs

/-- `deliveryKind`, or none where `queueTransitionDelivery` returns no delivery. -/
def deliveryKind (table : Deliveries) (incidentId : Nat) (transition : Transition)
    (now cooldown : Nat) : Option DeliveryKind :=
  if transition = .recovered then
    if hasDelivery table incidentId .recovered none then none else some .recovered
  else if hasDelivery table incidentId .opened (some (now - cooldown)) then none
  else if hasDelivery table incidentId .opened none then some .reminder
  else some .opened

/-- A reading of the clock in a call, of which each is some time after the one before. -/
def reading (time : Nat) (delays : Nat → Nat) : Nat → Nat
  | 0 => time + delays 0
  | count + 1 => reading time delays count + delays (count + 1)

/-- A delivery as it is created, with the recipient it is for and the cooldown of the call. -/
structure Created where
  recipientHash : String
  cooldown : Nat
  delivery : Delivery

/-- The map over the recipients: each delivery reads the clock for the time of its first attempt, and
the store reads it again. -/
def enqueueEach (incidentId : Nat) (kind : DeliveryKind) (cooldown : Nat) (clock : Nat → Nat)
    (table : Deliveries) : Nat → List ZaloRecipientRecord → Deliveries × List Created
  | _, [] => (table, [])
  | count, recipient :: rest =>
    let input : EnqueueInput :=
      ⟨some incidentId, recipient.recipientCiphertext, kind, clock (count + 1)⟩
    let created : Created :=
      ⟨recipient.recipientHash, cooldown, enqueued input (clock (count + 2)) table.nextId⟩
    let (table, others) := enqueueEach incidentId kind cooldown clock
      (enqueueDelivery table input (clock (count + 2))) (count + 2) rest
    (table, created :: others)

variable {ν : Type} [JsRuntime ν]

def openOrUpdateIncident (store : IncidentStore) (input : CollectorTransition ν) :
    IncidentStore × Incident :=
  match store.getIncident input.incidentId with
  | some existing => (store, existing)
  | none =>
    store.upsertIncident ν
      { dedupeKey := input.dedupeKey
        monitor := input.monitor
        level := input.level
        state := if input.transition = .recovered then .recovered else .open
        recoveredAt :=
          if input.transition = .recovered then some input.sample.observedAt else none
        acknowledgedAt := none
        acknowledgedBy := none
        note := none
        safeSummary := input.safeSummary
        now := input.sample.observedAt }

/-- The stores, the time the clock has reached, and the deliveries created so far with their
recipients. No step reads the last. -/
structure AlertState where
  incidents : IncidentStore
  outbox : Outbox
  time : Nat
  history : List Created

variable (state : AlertState)

def queueTransitionDelivery (input : CollectorTransition ν) (sources : RecipientSources)
    (delays : Nat → Nat) : AlertState × List Created :=
  let (incidents, incident) := openOrUpdateIncident state.incidents input
  let clock := reading state.time delays
  let cooldown := cooldownMs input.sample
  match deliveryKind state.outbox.table incident.id input.transition (clock 0) cooldown with
  | none => ({ state with incidents := incidents, time := clock 0 }, [])
  | some kind =>
    let recipients := resolveZaloRecipients sources
    let (table, created) :=
      enqueueEach incident.id kind cooldown clock state.outbox.table 0 recipients
    (⟨incidents, { state.outbox with table := table }, clock (2 * recipients.length),
      state.history ++ created⟩, created)

/-- What happens to the alert service: the collector announces a transition, something else changes
the incidents, a call of `deliverDueAlerts` begins, goes on or ends early, or the process ends and
starts again. -/
inductive AlertAction (ν : Type) where
  | queue (input : CollectorTransition ν) (sources : RecipientSources) (delays : Nat → Nat)
  | incidents (store : IncidentStore)
  | deliver (now : Nat) (limit : Int)
  | settle (index : Nat) (sending : Sending)
  | abort (index : Nat)
  | crash

def AlertState.onOutbox (action : OutboxAction) : AlertState :=
  { state with outbox := (outboxStep state.outbox action).1 }

/-- One step, with the deliveries it creates. -/
def alertStep : AlertAction ν → AlertState × List Created
  | .queue input sources delays => queueTransitionDelivery state input sources delays
  | .incidents store => ({ state with incidents := store }, [])
  | .deliver now limit => (state.onOutbox (.deliver now limit), [])
  | .settle index sending => (state.onOutbox (.settle index sending), [])
  | .abort index => (state.onOutbox (.abort index), [])
  | .crash => (state.onOutbox .crash, [])

end NancyMan.Alerts
