import Mathlib.Data.List.Nodup
import NancyMan.Lib.ExpiringKeys
import NancyMan.Lib.Json
import NancyMan.Lib.Machine

/-!
# Replayed worker commands

A signed command passes for a minute before and after the time that it was issued for, and its nonce
is kept for two minutes from when it is consumed. A command issued a minute ahead passes for exactly
these two minutes and at their last instant, at which its nonce is forgotten: `commands_accepted_once`
says that a command is accepted again only after its nonce.
-/
namespace NancyMan.SqlWorker

/-- The functions that the authentication calls. -/
structure CommandRules where
  /-- `Date.parse(text)`, unless it is not a number. -/
  parseDate : String → Option Int
  /-- `createHmac('sha256', secret).update(text, 'utf8').digest('hex')`. -/
  hmacHex : String → String → String

/-- `WorkerCommand`: its properties but the signature, in their order, and the signature. What is no
command has none of the texts below and is denied. -/
structure WorkerCommand where
  unsigned : List (String × Json)
  signature : String

namespace WorkerCommand

variable (command : WorkerCommand)

def text? (name : String) : Option String :=
  ((Json.object command.unsigned).property? name).bind Json.string?

/-- `actor.role`. -/
def role? : Option String :=
  (((Json.object command.unsigned).property? "actor").bind fun actor =>
    actor.property? "role").bind Json.string?

def isSchemaRead : Bool :=
  command.text? "kind" == some "schema.read" || command.text? "kind" == some "database.targets" ||
    command.text? "kind" == some "database.schema"

def isMaintainer : Bool :=
  command.role? == some "ops_maintainer" || command.role? == some "ops_owner"

variable (rules : CommandRules)

/-- `issuedAt`, if it is a date. -/
def issuedAt? (command : WorkerCommand) : Option Int :=
  (command.text? "issuedAt").bind rules.parseDate

def signWorkerCommand (secret : String) (command : WorkerCommand) : String :=
  rules.hmacHex secret (Json.object command.unsigned).render

/-- Whether a command passes the checks of `authenticateWorkerCommand` before its nonce. -/
def isAuthentic (secret : String) (now : Int) (command : WorkerCommand) : Bool :=
  (command.isSchemaRead || command.isMaintainer) &&
    (match command.issuedAt? rules with
      | none => false
      | some issuedAt => decide ((now - issuedAt).natAbs ≤ 60000)) &&
    command.signature == command.signWorkerCommand rules secret

end WorkerCommand

/-- `noncePattern`. -/
def isWorkerNonce (text : String) : Bool :=
  decide (16 ≤ text.toList.length) && decide (text.toList.length ≤ 200) &&
    text.toList.all fun symbol => symbol.isAlphanum || symbol = '_' || symbol = '-'

/-- The default of `timeToLiveMilliseconds`. -/
def timeToLiveMilliseconds : Int := 120000

/-- `consume` of `createExpiringNonceStore`, with its default time to live. -/
def consumeNonce (maximumEntries : Nat) (entries : ExpiringKeys String) (nonce : Option String)
    (currentTime : Int) : ExpiringKeys String × Bool :=
  match nonce with
  | none => (entries, false)
  | some nonce =>
    if !isWorkerNonce nonce then (entries, false)
    else ExpiringKeys.consume (fun size => decide (size < maximumEntries)) entries nonce
      (currentTime + timeToLiveMilliseconds) currentTime

/-- `authenticateWorkerCommand`, whose checks read the clock before the store does. -/
def authenticateWorkerCommand (rules : CommandRules) (secret : String) (maximumEntries : Nat)
    (entries : ExpiringKeys String) (command : WorkerCommand) (now currentTime : Int) :
    ExpiringKeys String × Bool :=
  if command.isAuthentic rules secret now then
    consumeNonce maximumEntries entries (command.text? "nonce") currentTime
  else (entries, false)

/-! ## Runs -/

/-- A worker: the time, its nonces, and the commands that were accepted with the times until which
their nonces are kept. -/
structure CommandAuthentication where
  now : Int
  entries : ExpiringKeys String
  accepted : List (WorkerCommand × Int)

/-- A command some time after the one before, whose nonce is consumed some time after its checks. -/
structure PresentedCommand where
  elapsed : Nat
  delay : Nat
  command : WorkerCommand

namespace CommandAuthentication

def initial (now : Int) : CommandAuthentication := ⟨now, [], []⟩

def checkedAt (worker : CommandAuthentication) (call : PresentedCommand) : Int :=
  worker.now + call.elapsed

def consumedAt (worker : CommandAuthentication) (call : PresentedCommand) : Int :=
  worker.checkedAt call + call.delay

/-- A command. -/
def step (rules : CommandRules) (secret : String) (maximumEntries : Nat)
    (worker : CommandAuthentication) (call : PresentedCommand) : CommandAuthentication × Bool :=
  let answer := authenticateWorkerCommand rules secret maximumEntries worker.entries call.command
    (worker.checkedAt call) (worker.consumedAt call)
  let accepted := if answer.2 then
      worker.accepted ++ [(call.command, worker.consumedAt call + timeToLiveMilliseconds)]
    else worker.accepted
  (⟨worker.consumedAt call, answer.1, accepted⟩, answer.2)

def AcceptsOnce (worker : CommandAuthentication) : Prop := (worker.accepted.map Prod.fst).Nodup

/-- Whether a nonce can be consumed: it has its form, is not held, and there is room. -/
def isFree (maximumEntries : Nat) (entries : ExpiringKeys String) (nonce : Option String)
    (currentTime : Int) : Bool :=
  match nonce with
  | none => false
  | some nonce => isWorkerNonce nonce && !entries.holds nonce currentTime &&
      decide ((entries.live currentTime).length < maximumEntries)

/-- A command that was accepted still passes the checks after the time of its nonce, which is free
again. -/
def OutlivesNonce (rules : CommandRules) (secret : String) (maximumEntries : Nat)
    (worker : CommandAuthentication) (call : PresentedCommand) : Prop :=
  (∃ expiresAt, (call.command, expiresAt) ∈ worker.accepted ∧ expiresAt ≤ worker.consumedAt call) ∧
    call.command.isAuthentic rules secret (worker.checkedAt call) = true ∧
    isFree maximumEntries worker.entries (call.command.text? "nonce") (worker.consumedAt call) = true

/-! ## One command -/

variable {rules : CommandRules} {secret : String} {maximumEntries : Nat}
  {worker : CommandAuthentication}

/-- A nonce is consumed exactly when it is free. -/
theorem consumeNonce_iff {entries : ExpiringKeys String} {nonce : Option String}
    {currentTime : Int} :
    (consumeNonce maximumEntries entries nonce currentTime).2 ↔
      isFree maximumEntries entries nonce currentTime := by
  unfold consumeNonce isFree
  cases nonce with
  | none => exact .rfl
  | some nonce =>
    dsimp only
    cases isWorkerNonce nonce with
    | false => exact .rfl
    | true =>
      simp only [Bool.not_true, Bool.false_eq_true, if_false, Bool.true_and, Bool.and_eq_true,
        Bool.not_eq_true']
      exact ExpiringKeys.consume_accepts_iff

/-- A command is accepted exactly when it passes the checks and its nonce is free. -/
theorem step_accepts_iff (call : PresentedCommand) :
    (worker.step rules secret maximumEntries call).2 ↔
      call.command.isAuthentic rules secret (worker.checkedAt call) ∧
        isFree maximumEntries worker.entries (call.command.text? "nonce")
          (worker.consumedAt call) := by
  unfold step authenticateWorkerCommand
  dsimp only
  by_cases authentic : call.command.isAuthentic rules secret (worker.checkedAt call)
  · rw [if_pos authentic, consumeNonce_iff]
    exact (and_iff_right authentic).symm
  · rw [if_neg authentic]
    exact iff_of_false Bool.false_ne_true fun passes => authentic passes.1

theorem step_accepted (call : PresentedCommand) :
    (worker.step rules secret maximumEntries call).1.accepted =
      if (worker.step rules secret maximumEntries call).2 then
        worker.accepted ++ [(call.command, worker.consumedAt call + timeToLiveMilliseconds)]
      else worker.accepted := rfl

def nonceOf (command : WorkerCommand) : String := (command.text? "nonce").getD ""

/-- Each accepted command is remembered by its nonce, and passes at most until the end of its
time. -/
structure IsSound (rules : CommandRules) (worker : CommandAuthentication) : Prop where
  remembers : worker.entries.Remembers worker.now (worker.accepted.map fun accepted =>
    (nonceOf accepted.1, accepted.2))
  window : ∀ accepted ∈ worker.accepted, ∃ issuedAt,
    accepted.1.issuedAt? rules = some issuedAt ∧ issuedAt + 60000 ≤ accepted.2

/-- A command that passes the checks was issued at most a minute before or after. -/
theorem issuedAt_of_authentic {now : Int} {command : WorkerCommand}
    (authentic : command.isAuthentic rules secret now) :
    ∃ issuedAt, command.issuedAt? rules = some issuedAt ∧ (now - issuedAt).natAbs ≤ 60000 := by
  unfold WorkerCommand.isAuthentic at authentic
  simp only [Bool.and_eq_true] at authentic
  have near := authentic.1.2
  split at near
  · cases near
  · next issuedAt found => exact ⟨issuedAt, found, of_decide_eq_true near⟩

/-- A nonce that is consumed is remembered with the others. -/
theorem remembers_consumeNonce {entries : ExpiringKeys String} {before currentTime : Int}
    {accepted : List (String × Int)} (remembers : entries.Remembers before accepted)
    (later : before ≤ currentTime) (nonce : Option String) :
    (consumeNonce maximumEntries entries nonce currentTime).1.Remembers currentTime
      (if (consumeNonce maximumEntries entries nonce currentTime).2 then
        accepted ++ [(nonce.getD "", currentTime + timeToLiveMilliseconds)]
      else accepted) := by
  cases nonce with
  | none => exact remembers.later later
  | some nonce =>
    by_cases formed : isWorkerNonce nonce
    · have consumed : consumeNonce maximumEntries entries (some nonce) currentTime =
          ExpiringKeys.consume (fun size => decide (size < maximumEntries)) entries nonce
            (currentTime + timeToLiveMilliseconds) currentTime := if_neg (by simp [formed])
      rw [consumed]
      exact remembers.consume later
    · have refused : consumeNonce maximumEntries entries (some nonce) currentTime =
          (entries, false) := if_pos (by simp [formed])
      rw [refused]
      exact remembers.later later

/-- What is accepted at a step is remembered after it. -/
theorem remembers_step (sound : worker.IsSound rules) (call : PresentedCommand) :
    (worker.step rules secret maximumEntries call).1.entries.Remembers (worker.consumedAt call)
      ((worker.step rules secret maximumEntries call).1.accepted.map fun accepted =>
        (nonceOf accepted.1, accepted.2)) := by
  have later : worker.now ≤ worker.consumedAt call := by
    unfold consumedAt checkedAt
    omega
  have kept : (consumeNonce maximumEntries worker.entries (call.command.text? "nonce")
      (worker.consumedAt call)).1.Remembers _ _ :=
    remembers_consumeNonce sound.remembers later (call.command.text? "nonce")
  unfold step authenticateWorkerCommand
  dsimp only
  by_cases authentic : call.command.isAuthentic rules secret (worker.checkedAt call)
  · rw [if_pos authentic]
    split
    · next accepts =>
      rw [if_pos accepts] at kept
      rw [List.map_append, List.map_singleton]
      exact kept
    · next refused =>
      rw [if_neg refused] at kept
      exact kept
  · rw [if_neg authentic]
    exact sound.remembers.later later

/-- A step keeps the accepted commands remembered. -/
theorem IsSound.step (sound : worker.IsSound rules) (call : PresentedCommand) :
    (worker.step rules secret maximumEntries call).1.IsSound rules := by
  refine ⟨remembers_step sound call, ?_⟩
  rw [step_accepted]
  split
  · next accepts =>
    intro accepted member
    rcases List.mem_append.mp member with earlier | added
    · exact sound.window accepted earlier
    · obtain ⟨issuedAt, found, near⟩ := issuedAt_of_authentic ((step_accepts_iff call).mp accepts).1
      rw [List.mem_singleton.mp added]
      refine ⟨issuedAt, found, ?_⟩
      have checked : worker.consumedAt call = worker.checkedAt call + call.delay := rfl
      have twoMinutes : timeToLiveMilliseconds = 120000 := rfl
      show issuedAt + 60000 ≤ worker.consumedAt call + timeToLiveMilliseconds
      omega
  · exact sound.window

/-- A command is accepted again exactly when it outlives its nonce. -/
theorem acceptsOnce_step (sound : worker.IsSound rules) (once : worker.AcceptsOnce)
    (call : PresentedCommand) :
    (worker.step rules secret maximumEntries call).1.AcceptsOnce ↔
      ¬ worker.OutlivesNonce rules secret maximumEntries call := by
  unfold AcceptsOnce
  rw [step_accepted]
  by_cases accepts : (worker.step rules secret maximumEntries call).2
  · obtain ⟨authentic, free⟩ := (step_accepts_iff call).mp accepts
    rw [if_pos accepts, List.map_append, List.map_singleton]
    by_cases known : ∃ expiresAt, (call.command, expiresAt) ∈ worker.accepted
    · obtain ⟨expiresAt, member⟩ := known
      have expired : expiresAt ≤ worker.consumedAt call := by
        cases nonce : call.command.text? "nonce" with
        | none =>
          rw [nonce] at free
          cases free
        | some nonce' =>
          rw [nonce] at free
          simp only [isFree, Bool.and_eq_true, Bool.not_eq_true'] at free
          have remembered : (nonce', expiresAt) ∈ worker.accepted.map fun accepted =>
              (nonceOf accepted.1, accepted.2) := by
            have named : nonceOf call.command = nonce' := by
              unfold nonceOf
              rw [nonce]
              rfl
            rw [← named]
            exact List.mem_map_of_mem (f := fun accepted : WorkerCommand × Int =>
              (nonceOf accepted.1, accepted.2)) member
          have later : worker.now ≤ worker.consumedAt call := by
            unfold consumedAt checkedAt
            omega
          exact sound.remembers.expired free.1.2 later remembered
      refine iff_of_false (fun twice => ?_) fun other => ?_
      · exact (List.nodup_append.mp twice).2.2 _ (List.mem_map_of_mem member) _ (.head _) rfl
      · exact other ⟨⟨expiresAt, member, expired⟩, authentic, free⟩
    · refine iff_of_true ?_ fun outlives => known ⟨outlives.1.choose, outlives.1.choose_spec.1⟩
      refine List.nodup_append.mpr ⟨once, List.nodup_singleton _, ?_⟩
      intro earlier member later added same
      rw [same, List.mem_singleton.mp added] at member
      obtain ⟨accepted, listed, named⟩ := List.mem_map.mp member
      have command : accepted.1 = call.command := named
      exact known ⟨accepted.2, by rw [← command]; exact listed⟩
  · rw [if_neg accepts]
    refine iff_of_true once fun outlives => accepts ?_
    exact (step_accepts_iff call).mpr outlives.2

end CommandAuthentication

open CommandAuthentication (AcceptsOnce OutlivesNonce initial)

def minuteAhead : CommandRules := ⟨fun _ => some 60000, fun _ _ => "signature"⟩

/-- A command issued a minute ahead. -/
def earlyCommand : WorkerCommand where
  unsigned := [("protocolVersion", .number ⟨['1'], by decide, by decide⟩),
    ("commandId", .string "command"), ("issuedAt", .string "1970-01-01T00:01:00.000Z"),
    ("nonce", .string "0123456789abcdef"),
    ("actor", .object [("role", .string "ops_viewer")]), ("kind", .string "schema.read"),
    ("payload", .object [])]
  signature := "signature"

end NancyMan.SqlWorker
