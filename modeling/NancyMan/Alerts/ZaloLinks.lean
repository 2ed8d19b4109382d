import Mathlib.Data.List.Nodup
import NancyMan.Lib.Machine

/-!
# Linking a chat

A principal draws a code and sends it to the bot from a chat; the webhook event links the chat to the
principal. `createZaloLinkCode`, `consumeZaloLink` and `disableZaloLink` of the store change three
tables whose uniqueness constraints the store carries. The constraint on chats also counts disabled
links, which `consumeZaloLink` does not ask for: `links_iff` says that an event it should take is
refused exactly for that reason.
-/
namespace NancyMan.Alerts

/-- A row of `zalo_link_codes`. -/
structure ZaloLinkCode where
  codeHash : String
  principalId : String
  expiresAt : Nat
  createdAt : Nat
  consumedAt : Option Nat
deriving DecidableEq, Repr

/-- A row of `zalo_links`. -/
structure ZaloLink where
  principalId : String
  chatIdHash : String
  chatIdCiphertext : String
  linkedAt : Nat
  lastSeenAt : Nat
  disabledAt : Option Nat
deriving DecidableEq, Repr

/-- A row of `zalo_webhook_events`. -/
structure ZaloWebhookEvent where
  eventId : String
  principalId : String
  createdAt : Nat
deriving DecidableEq, Repr

/-- The three tables with their primary keys and the unique column of chats. -/
structure ZaloStore where
  codes : List ZaloLinkCode
  links : List ZaloLink
  events : List ZaloWebhookEvent
  codeKey : (codes.map ZaloLinkCode.codeHash).Nodup
  linkKey : (links.map ZaloLink.principalId).Nodup
  chatKey : (links.map ZaloLink.chatIdHash).Nodup
  eventKey : (events.map ZaloWebhookEvent.eventId).Nodup

namespace ZaloStore

/-- The tables before the first row. -/
def empty : ZaloStore where
  codes := []
  links := []
  events := []
  codeKey := List.nodup_nil
  linkKey := List.nodup_nil
  chatKey := List.nodup_nil
  eventKey := List.nodup_nil

/-! ## Statements -/

def uniqueError (column : String) : String := "UNIQUE constraint failed: " ++ column

variable (store : ZaloStore)

/-- `INSERT INTO zalo_link_codes`. -/
def insertCode (code : ZaloLinkCode) : Except String ZaloStore :=
  if taken : code.codeHash ∈ store.codes.map ZaloLinkCode.codeHash then
    .error (uniqueError "zalo_link_codes.code_hash")
  else
    .ok { store with
      codes := store.codes ++ [code]
      codeKey := by
        rw [List.map_append]
        apply List.Nodup.append store.codeKey (List.nodup_singleton _)
        intro hash old new
        exact taken (List.mem_singleton.mp new ▸ old) }

/-- `INSERT INTO zalo_webhook_events`. -/
def insertEvent (event : ZaloWebhookEvent) : Except String ZaloStore :=
  if taken : event.eventId ∈ store.events.map ZaloWebhookEvent.eventId then
    .error (uniqueError "zalo_webhook_events.event_id")
  else
    .ok { store with
      events := store.events ++ [event]
      eventKey := by
        rw [List.map_append]
        apply List.Nodup.append store.eventKey (List.nodup_singleton _)
        intro id old new
        exact taken (List.mem_singleton.mp new ▸ old) }

def relinked (link row : ZaloLink) : ZaloLink := if row.principalId = link.principalId then link else row

theorem relinked_principalId (link row : ZaloLink) :
    (relinked link row).principalId = row.principalId := by
  unfold relinked
  split
  · next same => exact same.symm
  · rfl

/-- `INSERT INTO zalo_links … ON CONFLICT(principal_id) DO UPDATE`: the row of the principal is
replaced or inserted, unless a row of another principal has the chat, disabled or not. -/
def upsertLink (link : ZaloLink) : Except String ZaloStore :=
  if taken : ∃ row ∈ store.links,
      row.principalId ≠ link.principalId ∧ row.chatIdHash = link.chatIdHash then
    .error (uniqueError "zalo_links.chat_id_hash")
  else if known : link.principalId ∈ store.links.map ZaloLink.principalId then
    .ok { store with
      links := store.links.map (relinked link)
      linkKey := by
        rw [List.map_map, show ZaloLink.principalId ∘ relinked link = ZaloLink.principalId from
          funext (relinked_principalId link)]
        exact store.linkKey
      chatKey := by
        rw [List.map_map]
        refine List.Nodup.map_on ?_ store.linkKey.of_map
        intro left isLeft right isRight same
        have others := not_exists.mp taken
        simp only [Function.comp, relinked] at same
        by_cases first : left.principalId = link.principalId
        · by_cases second : right.principalId = link.principalId
          · exact List.inj_on_of_nodup_map store.linkKey isLeft isRight (first.trans second.symm)
          · rw [if_pos first, if_neg second] at same
            exact absurd ⟨isRight, second, same.symm⟩ (others right)
        · by_cases second : right.principalId = link.principalId
          · rw [if_neg first, if_pos second] at same
            exact absurd ⟨isLeft, first, same⟩ (others left)
          · rw [if_neg first, if_neg second] at same
            exact List.inj_on_of_nodup_map store.chatKey isLeft isRight same }
  else
    .ok { store with
      links := store.links ++ [link]
      linkKey := by
        rw [List.map_append]
        apply List.Nodup.append store.linkKey (List.nodup_singleton _)
        intro principal old new
        exact known (List.mem_singleton.mp new ▸ old)
      chatKey := by
        rw [List.map_append]
        apply List.Nodup.append store.chatKey (List.nodup_singleton _)
        intro chat old new
        obtain ⟨row, member, named⟩ := List.mem_map.mp old
        refine taken ⟨row, member, fun same => ?_, named.trans (List.mem_singleton.mp new)⟩
        exact known (List.mem_map.mpr ⟨row, member, same⟩) }

variable (codeHash : String)

def consumed (now : Nat) (code : ZaloLinkCode) : ZaloLinkCode :=
  if code.codeHash = codeHash then { code with consumedAt := some now } else code

theorem consumed_codeHash (now : Nat) (code : ZaloLinkCode) :
    (consumed codeHash now code).codeHash = code.codeHash := by
  unfold consumed
  split <;> rfl

/-- `UPDATE zalo_link_codes SET consumed_at`. -/
def markConsumed (now : Nat) : ZaloStore :=
  { store with
    codes := store.codes.map (consumed codeHash now)
    codeKey := by
      rw [List.map_map, show ZaloLinkCode.codeHash ∘ consumed codeHash now =
        ZaloLinkCode.codeHash from funext (consumed_codeHash codeHash now)]
      exact store.codeKey }

variable (principalId : String)

/-- A link that has been disabled. -/
def disabled (disabledAt : Nat) (link : ZaloLink) : ZaloLink :=
  if link.principalId = principalId ∧ link.disabledAt = none then
    { link with disabledAt := some disabledAt, lastSeenAt := disabledAt }
  else link

theorem disabled_keys (disabledAt : Nat) (link : ZaloLink) :
    (disabled principalId disabledAt link).principalId = link.principalId ∧
      (disabled principalId disabledAt link).chatIdHash = link.chatIdHash := by
  unfold disabled
  split <;> exact ⟨rfl, rfl⟩

/-! ## Operations -/

/-- What `createZaloLinkCode` is given. -/
structure CreateCodeInput where
  codeHash : String
  principalId : Option String
  accountId : Option String
  expiresAt : Nat
  createdAt : Nat

def createZaloLinkCode (input : CreateCodeInput) : Except String ZaloStore :=
  let principalId := (input.principalId.or input.accountId).getD ""
  if principalId = "" then .error "Zalo principal is required"
  else store.insertCode ⟨input.codeHash, principalId, input.expiresAt, input.createdAt, none⟩

/-- What `consumeZaloLink` is given. -/
structure ConsumeInput where
  codeHash : String
  chatIdHash : String
  chatIdCiphertext : String
  eventId : String
  now : Nat

inductive ZaloLinkConsumeResult where
  | alreadyProcessed
  | invalidCode
  | chatAlreadyLinked
  | linked (principalId : String) (linkedAt : Nat)
deriving DecidableEq, Repr

def findCode : Option ZaloLinkCode :=
  store.codes.find? fun code => code.codeHash = codeHash

/-- `existingClaim`: the active link of a chat. -/
def existingClaim (chatIdHash : String) : Option ZaloLink :=
  store.links.find? fun link => link.chatIdHash = chatIdHash ∧ link.disabledAt = none

/-- The statements of `consumeZaloLink` that link the chat. -/
def link (input : ConsumeInput) (principalId : String) : Except String ZaloStore := do
  let store ← store.upsertLink
    ⟨principalId, input.chatIdHash, input.chatIdCiphertext, input.now, input.now, none⟩
  (store.markConsumed input.codeHash input.now).insertEvent
    ⟨input.eventId, principalId, input.now⟩

/-- `consumeZaloLink`, one transaction: a statement that throws leaves the store as it was. -/
def consumeZaloLink (input : ConsumeInput) : Except String (ZaloStore × ZaloLinkConsumeResult) :=
  if input.eventId ∈ store.events.map ZaloWebhookEvent.eventId then .ok (store, .alreadyProcessed)
  else
    match store.findCode input.codeHash with
    | none => .ok (store, .invalidCode)
    | some code =>
      if code.consumedAt.isSome ∨ code.expiresAt ≤ input.now then .ok (store, .invalidCode)
      else if (store.existingClaim input.chatIdHash).any
          fun claim => claim.principalId ≠ code.principalId then
        .ok (store, .chatAlreadyLinked)
      else
        (store.link input code.principalId).map fun store =>
          (store, .linked code.principalId input.now)

def disableZaloLink (disabledAt : Nat) : ZaloStore :=
  { store with
    links := store.links.map (disabled principalId disabledAt)
    linkKey := by
      rw [List.map_map, show ZaloLink.principalId ∘ disabled principalId disabledAt =
        ZaloLink.principalId from funext fun link => (disabled_keys _ _ link).1]
      exact store.linkKey
    chatKey := by
      rw [List.map_map, show ZaloLink.chatIdHash ∘ disabled principalId disabledAt =
        ZaloLink.chatIdHash from funext fun link => (disabled_keys _ _ link).2]
      exact store.chatKey }

end ZaloStore

/-- What happens to the links. -/
inductive ZaloAction where
  | create (input : ZaloStore.CreateCodeInput)
  | consume (input : ZaloStore.ConsumeInput)
  | disable (principalId : String) (disabledAt : Nat)

variable (store : ZaloStore)

/-- One action, with the code it consumes. What throws changes nothing. -/
def zaloStep : ZaloAction → ZaloStore × List String
  | .create input =>
    match store.createZaloLinkCode input with
    | .ok next => (next, [])
    | .error _ => (store, [])
  | .consume input =>
    match store.consumeZaloLink input with
    | .ok (next, .linked _ _) => (next, [input.codeHash])
    | .ok (next, _) => (next, [])
    | .error _ => (store, [])
  | .disable principalId disabledAt => (store.disableZaloLink principalId disabledAt, [])

namespace ZaloStore

/-! ## What the operations do -/

def Taken (store : ZaloStore) (principalId chatIdHash : String) : Prop :=
  ∃ row ∈ store.links, row.principalId ≠ principalId ∧ row.chatIdHash = chatIdHash

variable {store : ZaloStore}

theorem upsertLink_taken {link : ZaloLink} (taken : store.Taken link.principalId link.chatIdHash) :
    store.upsertLink link = .error (uniqueError "zalo_links.chat_id_hash") := by
  exact dif_pos taken

/-- Else the upsert is done and leaves the other tables as they were. -/
theorem upsertLink_free {link : ZaloLink} (free : ¬ store.Taken link.principalId link.chatIdHash) :
    ∃ next, store.upsertLink link = .ok next ∧ next.codes = store.codes ∧
      next.events = store.events := by
  unfold upsertLink
  split
  · next taken => exact absurd taken free
  · split
    · exact ⟨_, rfl, rfl, rfl⟩
    · exact ⟨_, rfl, rfl, rfl⟩

variable {input : ConsumeInput} {principalId : String} {code : ZaloLinkCode} {next : ZaloStore}
  {codeHash : String} {now : Nat}

/-- Linking throws when a row of another principal has the chat. -/
theorem link_taken (taken : store.Taken principalId input.chatIdHash) :
    store.link input principalId = .error (uniqueError "zalo_links.chat_id_hash") := by
  have throws : store.upsertLink
      ⟨principalId, input.chatIdHash, input.chatIdCiphertext, input.now, input.now, none⟩ =
        .error (uniqueError "zalo_links.chat_id_hash") := upsertLink_taken taken
  rw [link, throws]
  rfl

/-- Else linking a fresh event is done, and consumes its code. -/
theorem link_free (fresh : input.eventId ∉ store.events.map ZaloWebhookEvent.eventId)
    (free : ¬ store.Taken principalId input.chatIdHash) :
    ∃ next, store.link input principalId = .ok next ∧
      next.codes = store.codes.map (consumed input.codeHash input.now) := by
  obtain ⟨linked, upserts, codes, events⟩ : ∃ next, store.upsertLink
      ⟨principalId, input.chatIdHash, input.chatIdCiphertext, input.now, input.now, none⟩ =
        .ok next ∧ next.codes = store.codes ∧ next.events = store.events := upsertLink_free free
  have unseen : input.eventId ∉
      (linked.markConsumed input.codeHash input.now).events.map ZaloWebhookEvent.eventId := by
    show input.eventId ∉ linked.events.map ZaloWebhookEvent.eventId
    rw [events]
    exact fresh
  have inserts : ∃ next, (linked.markConsumed input.codeHash input.now).insertEvent
      ⟨input.eventId, principalId, input.now⟩ = .ok next ∧
        next.codes = linked.codes.map (consumed input.codeHash input.now) := by
    unfold insertEvent
    rw [dif_neg unseen]
    exact ⟨_, rfl, rfl⟩
  obtain ⟨next, recorded, kept⟩ := inserts
  refine ⟨next, ?_, by rw [kept, codes]⟩
  rw [link, upserts]
  exact recorded

/-- An event that `consumeZaloLink` is to link, with its code: it is fresh, the code is stored,
unconsumed and unexpired, and the chat is not actively linked to another principal. -/
structure Welcome (store : ZaloStore) (input : ConsumeInput) (code : ZaloLinkCode) : Prop where
  fresh : input.eventId ∉ store.events.map ZaloWebhookEvent.eventId
  found : store.findCode input.codeHash = some code
  unconsumed : code.consumedAt = none
  unexpired : input.now < code.expiresAt
  unclaimed : ∀ link ∈ store.links, link.chatIdHash = input.chatIdHash → link.disabledAt = none →
    link.principalId = code.principalId

/-- An event that is to be linked runs the statements that link it. -/
theorem Welcome.consume_eq (welcome : store.Welcome input code) :
    store.consumeZaloLink input = (store.link input code.principalId).map fun store =>
      (store, .linked code.principalId input.now) := by
  have usable : ¬ (code.consumedAt.isSome ∨ code.expiresAt ≤ input.now) := by
    have unexpired := welcome.unexpired
    rw [welcome.unconsumed]
    rintro (consumed | expired)
    · cases consumed
    · omega
  have unclaimed : ¬ ((store.existingClaim input.chatIdHash).any
      fun claim => claim.principalId ≠ code.principalId) = true := by
    cases claims : store.existingClaim input.chatIdHash with
    | none => exact Bool.false_ne_true
    | some claim =>
      have same := List.find?_some (p := fun link : ZaloLink =>
        decide (link.chatIdHash = input.chatIdHash ∧ link.disabledAt = none)) claims
      have own := of_decide_eq_true same
      have principal := welcome.unclaimed claim (List.mem_of_find?_eq_some claims) own.1 own.2
      simp [principal]
  unfold consumeZaloLink
  rw [if_neg welcome.fresh, welcome.found]
  dsimp only
  rw [if_neg usable, if_neg unclaimed]

/-- What `consumeZaloLink` does that throws nothing: nothing, or it links and consumes an unconsumed
code. -/
theorem consume_cases {result : ZaloLinkConsumeResult}
    (done : store.consumeZaloLink input = .ok (next, result)) :
    (next = store ∧ ∀ principalId linkedAt, result ≠ .linked principalId linkedAt) ∨
    ∃ code, store.findCode input.codeHash = some code ∧ code.consumedAt = none ∧
      result = .linked code.principalId input.now ∧
      next.codes = store.codes.map (consumed input.codeHash input.now) := by
  unfold consumeZaloLink at done
  split at done
  · cases done
    exact .inl ⟨rfl, nofun⟩
  · next fresh =>
    split at done
    · cases done
      exact .inl ⟨rfl, nofun⟩
    · next code found =>
      split at done
      · cases done
        exact .inl ⟨rfl, nofun⟩
      · next usable =>
        split at done
        · cases done
          exact .inl ⟨rfl, nofun⟩
        · by_cases taken : store.Taken code.principalId input.chatIdHash
          · rw [link_taken taken] at done
            cases done
          · obtain ⟨linked, links, codes⟩ := link_free fresh taken
            rw [links] at done
            cases done
            refine .inr ⟨code, found, ?_, rfl, codes⟩
            cases state : code.consumedAt with
            | none => rfl
            | some time => exact absurd (.inl (by rw [state]; rfl)) usable

/-! ## Codes -/

/-- The code of an event after some code is consumed. -/
theorem findCode_consumed (codes : next.codes = store.codes.map (consumed codeHash now))
    (other : String) :
    next.findCode other = (store.findCode other).map (consumed codeHash now) := by
  unfold findCode
  rw [codes, List.find?_map]
  congr 2
  funext code
  rw [Function.comp, consumed_codeHash]

/-- How often the store says that a code has been consumed. -/
def consumptions (store : ZaloStore) (codeHash : String) : Nat :=
  match store.findCode codeHash with
  | some code => if code.consumedAt.isSome then 1 else 0
  | none => 0

/-- Consuming an unconsumed code counts once, for that code only. -/
theorem consumptions_consumed (found : store.findCode codeHash = some code)
    (unconsumed : code.consumedAt = none)
    (codes : next.codes = store.codes.map (consumed codeHash now)) (other : String) :
    next.consumptions other = store.consumptions other + [codeHash].count other := by
  have hashOf (hash : String) (row : ZaloLinkCode) (isRow : store.findCode hash = some row) :
      row.codeHash = hash := by
    have named := List.find?_some (p := fun code : ZaloLinkCode =>
      decide (code.codeHash = hash)) isRow
    exact of_decide_eq_true named
  unfold consumptions
  rw [findCode_consumed codes]
  by_cases same : other = codeHash
  · subst same
    rw [found]
    simp [consumed, hashOf other code found, unconsumed]
  · have none' : [codeHash].count other = 0 := by
      rw [List.count_eq_zero, List.mem_singleton]
      exact same
    rw [none', Nat.add_zero]
    cases isRow : store.findCode other with
    | none => rfl
    | some row =>
      have differs : ¬ row.codeHash = codeHash := by
        rw [hashOf other row isRow]
        exact same
      simp [consumed, differs]

/-- A created code has not been consumed. -/
theorem consumptions_created {input : CreateCodeInput}
    (created : store.createZaloLinkCode input = .ok next) (other : String) :
    next.consumptions other = store.consumptions other := by
  unfold createZaloLinkCode at created
  dsimp only at created
  split at created
  · cases created
  · unfold insertCode at created
    split at created
    · cases created
    · next fresh =>
      cases created
      unfold consumptions findCode
      rw [List.find?_append]
      cases found : store.codes.find? (fun code => decide (code.codeHash = other)) with
      | some code => rfl
      | none =>
        by_cases same : input.codeHash = other
        · simp [same]
        · simp [same]

end ZaloStore

open ZaloStore

/-- A step counts the codes it consumes. -/
theorem consumptions_step (action : ZaloAction) (codeHash : String) :
    (zaloStep store action).1.consumptions codeHash =
      store.consumptions codeHash + (zaloStep store action).2.count codeHash := by
  cases action with
  | create input =>
    unfold zaloStep
    dsimp only
    cases created : store.createZaloLinkCode input with
    | error message => rfl
    | ok next => exact consumptions_created created codeHash
  | consume input =>
    unfold zaloStep
    dsimp only
    cases done : store.consumeZaloLink input with
    | error message => rfl
    | ok answer =>
      obtain ⟨next, result⟩ := answer
      rcases consume_cases done with ⟨rfl, unlinked⟩ | ⟨code, found, unconsumed, rfl, codes⟩
      · cases result with
        | linked principalId linkedAt => exact absurd rfl (unlinked _ _)
        | alreadyProcessed => rfl
        | invalidCode => rfl
        | chatAlreadyLinked => rfl
      · exact consumptions_consumed found unconsumed codes codeHash
  | disable principalId disabledAt => rfl

/-- A run counts the codes it consumes. -/
theorem consumptions_after (actions : List ZaloAction) (codeHash : String) :
    (Machine.after zaloStep store actions).consumptions codeHash =
      store.consumptions codeHash + (Machine.outputs zaloStep store actions).count codeHash := by
  induction actions generalizing store with
  | nil => rfl
  | cons action rest ih =>
    have first := consumptions_step store action codeHash
    have later := ih (zaloStep store action).1
    show (Machine.after zaloStep (zaloStep store action).1 rest).consumptions codeHash = _
    rw [Machine.outputs_cons, List.count_append]
    omega

/-! ## The law -/

/-- Every event of a run that is to be linked is linked, a run consumes every code that its store has
as consumed once and no other, and in no state two principals are actively linked to a chat. -/
structure LinkLaw (actions : List ZaloAction) : Prop where
  links : ∀ before input later, actions = before ++ .consume input :: later →
    ∀ code, (Machine.after zaloStep ZaloStore.empty before).Welcome input code →
      ∃ next, (Machine.after zaloStep ZaloStore.empty before).consumeZaloLink input =
        .ok (next, .linked code.principalId input.now) ∧
        next.consumptions input.codeHash = 1
  once : ∀ codeHash, (Machine.outputs zaloStep ZaloStore.empty actions).count codeHash =
    (Machine.after zaloStep ZaloStore.empty actions).consumptions codeHash
  single : ∀ before later, actions = before ++ later →
    ∀ left ∈ (Machine.after zaloStep ZaloStore.empty before).links,
    ∀ right ∈ (Machine.after zaloStep ZaloStore.empty before).links,
      left.chatIdHash = right.chatIdHash → left.disabledAt = none → right.disabledAt = none →
        left.principalId = right.principalId

/-- An event that is to be linked comes from a chat that a disabled link of another principal has. -/
def Blocked : ZaloAction → Prop
  | .consume input => ∃ code, store.Welcome input code ∧
      ∃ row ∈ store.links, row.principalId ≠ code.principalId ∧
        row.chatIdHash = input.chatIdHash ∧ row.disabledAt ≠ none
  | _ => False

/-- An event that is to be linked is linked exactly when no link of another principal has its chat,
which could only be a disabled one. -/
theorem welcome_linked {store : ZaloStore} {input : ZaloStore.ConsumeInput} {code : ZaloLinkCode}
    (welcome : store.Welcome input code) :
    (∃ next, store.consumeZaloLink input = .ok (next, .linked code.principalId input.now) ∧
      next.consumptions input.codeHash = 1) ↔
    ¬ Blocked store (.consume input) := by
  rw [welcome.consume_eq]
  constructor
  · rintro ⟨next, done, -⟩ ⟨other, otherWelcome, row, member, differs, chat, -⟩
    have same := otherWelcome.found
    rw [welcome.found, Option.some.injEq] at same
    subst same
    rw [link_taken ⟨row, member, differs, chat⟩] at done
    cases done
  · intro free
    have untaken : ¬ store.Taken code.principalId input.chatIdHash := by
      rintro ⟨row, member, differs, chat⟩
      refine free ⟨code, welcome, row, member, differs, chat, fun active => differs ?_⟩
      exact welcome.unclaimed row member chat active
    obtain ⟨next, links, codes⟩ := link_free welcome.fresh untaken
    refine ⟨next, by rw [links]; rfl, ?_⟩
    have before : store.consumptions input.codeHash = 0 := by
      rw [consumptions, welcome.found]
      dsimp only
      rw [welcome.unconsumed]
      rfl
    rw [consumptions_consumed welcome.found welcome.unconsumed codes, before]
    simp

/-- In every run from the empty store the law holds exactly when no event that is to be linked comes
from a chat that a disabled link of another principal has. -/
theorem links_iff (actions : List ZaloAction) :
    LinkLaw actions ↔
      Machine.Along zaloStep (fun store action => ¬ Blocked store action) ZaloStore.empty
        actions := by
  rw [Machine.along_iff]
  constructor
  · intro law before action later split
    cases action with
    | consume input =>
      rintro ⟨code, welcome, row⟩
      exact (welcome_linked welcome).mp (law.links before input later split code welcome)
        ⟨code, welcome, row⟩
    | create input => exact id
    | disable principalId disabledAt => exact id
  · intro free
    refine ⟨fun before input later split code welcome => ?_, fun codeHash => ?_,
      fun before later _ left isLeft right isRight same _ _ => ?_⟩
    · exact (welcome_linked welcome).mpr (free before _ later split)
    · have counted := consumptions_after empty actions codeHash
      have start : empty.consumptions codeHash = 0 := rfl
      omega
    · have distinct := (Machine.after zaloStep empty before).chatKey
      rw [List.inj_on_of_nodup_map distinct isLeft isRight same]

/-- A chat links one principal, who disables the link; another principal's code from that chat
throws. -/
theorem relink_throws :
    ¬ LinkLaw
      [.create ⟨"first", some "alice", none, 600, 0⟩,
        .consume ⟨"first", "chat", "ciphertext", "event-1", 1⟩,
        .disable "alice" 2,
        .create ⟨"second", some "bob", none, 600, 3⟩,
        .consume ⟨"second", "chat", "ciphertext", "event-2", 4⟩] := by
  intro law
  obtain ⟨next, done, -⟩ := law.links
    [.create ⟨"first", some "alice", none, 600, 0⟩,
      .consume ⟨"first", "chat", "ciphertext", "event-1", 1⟩,
      .disable "alice" 2,
      .create ⟨"second", some "bob", none, 600, 3⟩]
    ⟨"second", "chat", "ciphertext", "event-2", 4⟩ [] rfl ⟨"second", "bob", 600, 3, none⟩
    ⟨by decide +kernel, by decide +kernel, rfl, by decide, by decide +kernel⟩
  have throws : ((Machine.after zaloStep empty
      [.create ⟨"first", some "alice", none, 600, 0⟩,
        .consume ⟨"first", "chat", "ciphertext", "event-1", 1⟩,
        .disable "alice" 2,
        .create ⟨"second", some "bob", none, 600, 3⟩]).consumeZaloLink
      ⟨"second", "chat", "ciphertext", "event-2", 4⟩).toOption.isSome = false := by
    decide +kernel
  rw [done] at throws
  cases throws

end NancyMan.Alerts
