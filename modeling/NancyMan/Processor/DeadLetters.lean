import NancyMan.Processor.ProcessedOnce

/-!
# Dead letters and attempts

A claim of an envelope ends when the envelope is processed, becomes a dead letter or is put back, and
when it times out. Only `deadLetterPayload` writes a dead letter, while `markRetry` ends an envelope
at the queue's own limit without one, and a claim that times out is not counted as an attempt. Every
dead-lettered envelope has its dead letter, and none is claimed more often than the runner's limit,
in exactly the runs whose retries stay below the queue's limit and whose claims are made while the
attempts and the timeouts together are below the runner's.
-/
namespace NancyMan.Processor

open ProcessingRow
open Option (any_some map_congr map_eq_some_iff map_some)

/-- The workers, with the claims of each envelope so far and those of them that have timed out. -/
structure Attempts where
  workers : Workers
  claims : Nat → Nat
  timeouts : Nat → Nat

/-- The row that a step claims. -/
def Workers.claimedRow (workers : Workers) : ProcessorStep → Option ProcessingRow
  | .claimNext workerId now locked =>
    match workers.phases workerId with
    | .idle => nextEnvelope workers.database.processing now locked
    | _ => none
  | _ => none

/-- Whether a step releases the claim of an envelope. -/
def Workers.timesOut (workers : Workers) (envelopeId : Nat) : ProcessorStep → Bool
  | .releaseExpiredClaims now =>
    (workers.database.processing.find envelopeId).any (ProcessingRow.isExpired now)
  | _ => false

/-- The envelope that a worker hands to `markRetry`. -/
def AttemptLimits.retries (limits : AttemptLimits) : WorkerPhase → Option Nat
  | .failing claimed =>
    if claimed.attemptCount + 1 ≥ limits.maxAttempts then none else some claimed.envelopeId
  | .rejecting envelopeId attemptCount =>
    if attemptCount ≥ limits.queueMaxAttempts then none else some envelopeId
  | _ => none

/-- The envelope that a step hands to `markRetry`. -/
def Workers.retriedEnvelope (limits : AttemptLimits) (workers : Workers) :
    ProcessorStep → Option Nat
  | .recordFailure workerId _ => limits.retries (workers.phases workerId)
  | _ => none

namespace Attempts

def empty : Attempts := ⟨Workers.empty, fun _ => 0, fun _ => 0⟩

/-- One step of the workers, counted. -/
def act (rules : EventRules) (limits : AttemptLimits) (attempts : Attempts) (step : ProcessorStep) :
    Attempts × Option ProcessedEnvelope :=
  ({ workers := attempts.workers.step rules limits step
     claims := fun envelopeId => attempts.claims envelopeId +
      if (attempts.workers.claimedRow step).any fun row => row.envelopeId == envelopeId then 1 else 0
     timeouts := fun envelopeId => attempts.timeouts envelopeId +
      if attempts.workers.timesOut envelopeId step then 1 else 0 },
    attempts.workers.answer rules step)

end Attempts

def Database.letters (database : Database) (envelopeId : Nat) : Nat :=
  (database.deadLetters.filter fun letter => letter.envelopeId == envelopeId).length

/-- Every dead-lettered envelope has exactly one dead letter, and no envelope has been claimed more
often than the runner allows. -/
structure Attempts.Accounted (limits : AttemptLimits) (attempts : Attempts) : Prop where
  recorded : ∀ envelopeId row, attempts.workers.database.processing.find envelopeId = some row →
    row.state = .deadLettered → attempts.workers.database.letters envelopeId = 1
  bounded : ∀ envelopeId, attempts.claims envelopeId ≤ limits.maxAttempts

/-- A step that claims an envelope finds its attempts and timeouts below the runner's limit, and one
that puts a claimed envelope back finds its attempts below the queue's. -/
structure Attempts.Guarded (limits : AttemptLimits) (attempts : Attempts) (step : ProcessorStep) :
    Prop where
  claim : ∀ row, attempts.workers.claimedRow step = some row →
    row.attemptCount + attempts.timeouts row.envelopeId < limits.maxAttempts
  retry : ∀ envelopeId row, attempts.workers.retriedEnvelope limits step = some envelopeId →
    attempts.workers.database.processing.find envelopeId = some row → row.state = .claimed →
    row.attemptCount + 1 < limits.queueMaxAttempts

/-! ## The account of one envelope -/

/-- What is known of an envelope: its row, its dead letters, its claims and their timeouts. -/
structure Account where
  row : Option ProcessingRow
  letters : Nat
  claims : Nat
  timeouts : Nat

/-- The account of an envelope. -/
def Attempts.account (attempts : Attempts) (envelopeId : Nat) : Account where
  row := attempts.workers.database.processing.find envelopeId
  letters := attempts.workers.database.letters envelopeId
  claims := attempts.claims envelopeId
  timeouts := attempts.timeouts envelopeId

namespace Account

/-- The row of an account, changed where a test selects it. -/
def changeWhere (test : ProcessingRow → Bool) (change : ProcessingRow → ProcessingRow)
    (account : Account) : Account :=
  { account with row := account.row.map fun row => if test row then change row else row }

/-- Claims are attempts and timeouts, and the claim that is held; only a dead-lettered envelope has
dead letters. -/
def Balanced (account : Account) : Prop :=
  match account.row with
  | none => account.letters = 0 ∧ account.claims = 0 ∧ account.timeouts = 0
  | some row =>
    (row.state ≠ .deadLettered → account.letters = 0) ∧
      (row.state = .pending ∨ row.state = .retrying →
        account.claims = row.attemptCount + account.timeouts) ∧
      (row.state = .claimed → account.claims = row.attemptCount + account.timeouts + 1)

/-- The account of an envelope that is accounted for. -/
def Sound (limits : AttemptLimits) (account : Account) : Prop :=
  (∀ row, account.row = some row → row.state = .deadLettered → account.letters = 1) ∧
    account.claims ≤ limits.maxAttempts

end Account

theorem Attempts.accounted_iff {limits : AttemptLimits} {attempts : Attempts} :
    attempts.Accounted limits ↔ ∀ envelopeId, (attempts.account envelopeId).Sound limits := by
  constructor
  · intro accounted envelopeId
    exact ⟨accounted.recorded envelopeId, accounted.bounded envelopeId⟩
  · intro sound
    exact ⟨fun envelopeId => (sound envelopeId).1, fun envelopeId => (sound envelopeId).2⟩

/-! ## What a transaction does to an account -/

variable {row : ProcessingRow}

theorem ProcessingRow.isClaimOf_iff {envelopeId : Nat} :
    row.isClaimOf envelopeId ↔ row.envelopeId = envelopeId ∧ row.state = .claimed := by
  unfold isClaimOf
  rw [Bool.and_eq_true, beq_iff_eq, beq_iff_eq]

theorem ProcessingRow.waits_of_ready {now : Int} (ready : row.isReady now) :
    row.state = .pending ∨ row.state = .retrying := by
  unfold isReady at ready
  simp only [Bool.and_eq_true, Bool.or_eq_true, beq_iff_eq] at ready
  exact ready.1

namespace Account

variable {account : Account} {limits : AttemptLimits}

/-- A claim that ends, with one more attempt if the envelope is put back, leaves a balanced
account. -/
theorem Balanced.end_claim (balanced : account.Balanced) (envelopeId : Nat)
    {change : ProcessingRow → ProcessingRow}
    (ends : ∀ row, (change row).state = .processed ∨ (change row).state = .deadLettered ∨
      (change row).state = .retrying ∧ (change row).attemptCount = row.attemptCount + 1) :
    (account.changeWhere (isClaimOf envelopeId) change).Balanced := by
  unfold Balanced changeWhere at *
  cases found : account.row with
  | none =>
    rw [found] at balanced
    exact balanced
  | some row =>
    rw [found] at balanced
    obtain ⟨letters, waiting, claimed⟩ := balanced
    rw [map_some]
    dsimp only
    by_cases selected : row.isClaimOf envelopeId
    · rw [if_pos selected]
      have held : row.state = .claimed := (isClaimOf_iff.mp selected).2
      have unlettered : account.letters = 0 := letters (by rw [held]; decide)
      have count := claimed held
      rcases ends row with processed | dead | ⟨back, more⟩
      · rw [processed]
        simp [unlettered]
      · rw [dead]
        simp
      · rw [back, more]
        simp only [unlettered, reduceCtorEq, ne_eq, not_false_eq_true, false_or, implies_true,
          true_and, false_implies, and_true, forall_const]
        omega
    · rw [if_neg selected]
      exact ⟨letters, waiting, claimed⟩

/-- A claim of an envelope that is ready. -/
def claim (workerId : String) (now : Int) (account : Account) : Account :=
  { account.changeWhere (fun _ => true) (ProcessingRow.claim workerId now) with
    claims := account.claims + 1 }

/-- The release of a claim that has timed out. -/
def release (now : Int) (account : Account) : Account :=
  { account.changeWhere (ProcessingRow.isExpired now) (ProcessingRow.release now) with
    timeouts := account.timeouts + if account.row.any (ProcessingRow.isExpired now) then 1 else 0 }

/-- A dead letter of a claimed envelope. -/
def bury (input : DeadLetterInput) (account : Account) : Account :=
  { account.changeWhere (ProcessingRow.isClaimOf input.envelopeId)
      (ProcessingRow.deadLetter input) with
    letters := account.letters +
      if account.row.any (ProcessingRow.isClaimOf input.envelopeId) then 1 else 0 }

variable {now : Int} {later : Account}

/-- A claim leaves a balanced account. -/
theorem Balanced.claim (balanced : account.Balanced) (found : account.row = some row)
    (ready : row.isReady now) (workerId : String) : (account.claim workerId now).Balanced := by
  unfold Balanced Account.claim changeWhere at *
  rw [found] at balanced ⊢
  obtain ⟨letters, waiting, -⟩ := balanced
  have waits := waits_of_ready ready
  have unlettered : account.letters = 0 := by
    apply letters
    rcases waits with waits | waits <;> rw [waits] <;> decide
  have count := waiting waits
  refine ⟨fun _ => unlettered, ?_, fun _ => ?_⟩
  · rintro (other | other) <;> cases other
  · show account.claims + 1 = row.attemptCount + account.timeouts + 1
    omega

/-- A release leaves a balanced account. -/
theorem Balanced.release (balanced : account.Balanced) (now : Int) :
    (account.release now).Balanced := by
  unfold Balanced Account.release changeWhere at *
  cases found : account.row with
  | none =>
    rw [found] at balanced
    exact balanced
  | some row =>
    rw [found] at balanced
    obtain ⟨letters, waiting, claimed⟩ := balanced
    rw [map_some, any_some]
    by_cases expired : row.isExpired now
    · rw [if_pos expired, if_pos expired]
      have held : row.state = .claimed := by
        have both := expired
        unfold isExpired at both
        simp only [Bool.and_eq_true, beq_iff_eq] at both
        exact both.1
      have count := claimed held
      refine ⟨fun _ => letters (by rw [held]; decide), fun _ => ?_, fun other => by cases other⟩
      show account.claims = row.attemptCount + (account.timeouts + 1)
      omega
    · rw [if_neg expired, if_neg expired]
      exact ⟨letters, waiting, claimed⟩

/-- A dead letter leaves a balanced account. -/
theorem Balanced.bury (balanced : account.Balanced) (input : DeadLetterInput) :
    (account.bury input).Balanced := by
  have ended := @Balanced.end_claim _ balanced input.envelopeId (ProcessingRow.deadLetter input)
    fun _ => .inr (.inl rfl)
  unfold Balanced Account.bury changeWhere at *
  cases found : account.row with
  | none =>
    rw [found] at balanced
    exact balanced
  | some row =>
    rw [found] at ended
    rw [map_some, any_some]
    rw [map_some] at ended
    by_cases selected : row.isClaimOf input.envelopeId
    · rw [if_pos selected] at ended ⊢
      exact ⟨fun open_row => absurd rfl open_row, ended.2.1, ended.2.2⟩
    · rw [if_neg selected] at ended ⊢
      rw [if_neg selected]
      exact ended

/-! ## Which accounts stay sound -/

/-- A change of rows that dead-letters none keeps an account sound. -/
theorem Sound.changeWhere (sound : account.Sound limits) {test : ProcessingRow → Bool}
    {change : ProcessingRow → ProcessingRow}
    (others : ∀ row, test row → (change row).state ≠ .deadLettered) :
    (account.changeWhere test change).Sound limits := by
  refine ⟨fun row changed dead => ?_, sound.2⟩
  obtain ⟨old, found, rfl⟩ := map_eq_some_iff.mp changed
  by_cases selected : test old
  · rw [if_pos selected] at dead
    exact absurd dead (others old selected)
  · rw [if_neg selected] at dead
    exact sound.1 old found dead

theorem Sound.release (sound : account.Sound limits) (now : Int) :
    (account.release now).Sound limits :=
  sound.changeWhere fun _ _ => by simp [ProcessingRow.release]

/-- A dead letter keeps an account sound: the envelope was claimed, so it had none before. -/
theorem Sound.bury (sound : account.Sound limits) (balanced : account.Balanced)
    (input : DeadLetterInput) : (account.bury input).Sound limits := by
  refine ⟨fun row changed dead => ?_, sound.2⟩
  obtain ⟨old, found, rfl⟩ := map_eq_some_iff.mp changed
  unfold Account.bury
  rw [found, any_some]
  dsimp only
  by_cases selected : old.isClaimOf input.envelopeId
  · rw [if_pos selected]
    have held : old.state = .claimed := (isClaimOf_iff.mp selected).2
    unfold Balanced at balanced
    rw [found] at balanced
    have unlettered : account.letters = 0 := balanced.1 (by rw [held]; decide)
    omega
  · rw [if_neg selected]
    rw [if_neg selected] at dead
    exact sound.1 old found dead

/-- A claim keeps an account sound exactly when its attempts and timeouts are below the limit. -/
theorem sound_claim_iff (sound : account.Sound limits) (balanced : account.Balanced)
    (found : account.row = some row) (ready : row.isReady now) (workerId : String) :
    (account.claim workerId now).Sound limits ↔
      row.attemptCount + account.timeouts < limits.maxAttempts := by
  have waits := waits_of_ready ready
  unfold Balanced at balanced
  rw [found] at balanced
  have count := balanced.2.1 waits
  have kept : (account.changeWhere (fun _ => true) (ProcessingRow.claim workerId now)).Sound limits :=
    sound.changeWhere fun _ _ => by simp [ProcessingRow.claim]
  constructor
  · intro after
    have bounded : account.claims + 1 ≤ limits.maxAttempts := after.2
    omega
  · intro below
    refine ⟨kept.1, ?_⟩
    show account.claims + 1 ≤ limits.maxAttempts
    omega

/-- A retry keeps an account sound exactly when a claimed envelope is below the queue's limit. -/
theorem sound_retry_iff (sound : account.Sound limits) (balanced : account.Balanced)
    (envelopeId : Nat) (now : Int) :
    (account.changeWhere (isClaimOf envelopeId)
        (ProcessingRow.retry limits.queueMaxAttempts now)).Sound limits ↔
      ∀ row, account.row = some row → row.isClaimOf envelopeId →
        row.attemptCount + 1 < limits.queueMaxAttempts := by
  constructor
  · intro after row found selected
    by_contra reached
    have held : row.state = .claimed := (isClaimOf_iff.mp selected).2
    have ended : (row.retry limits.queueMaxAttempts now).state = .deadLettered := by
      unfold ProcessingRow.retry
      rw [if_pos (by omega)]
    have changed : (account.changeWhere (isClaimOf envelopeId)
        (ProcessingRow.retry limits.queueMaxAttempts now)).row =
          some (row.retry limits.queueMaxAttempts now) := by
      unfold Account.changeWhere
      rw [found, map_some, if_pos selected]
    have lettered : account.letters = 1 := after.1 _ changed ended
    unfold Balanced at balanced
    rw [found] at balanced
    have unlettered : account.letters = 0 := balanced.1 (by rw [held]; decide)
    omega
  · intro below
    refine ⟨fun row changed dead => ?_, sound.2⟩
    obtain ⟨old, found, rfl⟩ := map_eq_some_iff.mp changed
    by_cases selected : old.isClaimOf envelopeId
    · rw [if_pos selected] at dead
      have bound := below old found selected
      have back : (old.retry limits.queueMaxAttempts now).state = .retrying := by
        unfold ProcessingRow.retry
        rw [if_neg (by omega)]
      rw [back] at dead
      cases dead
    · rw [if_neg selected] at dead
      exact sound.1 old found dead

/-- What a step that neither claims a row nor hands one to `markRetry` does to an account. -/
inductive Settles (account : Account) : Account → Prop
  | same : account.Settles account
  | accept (absent : account.row = none) (row : ProcessingRow) (pending : row.state = .pending)
    (untried : row.attemptCount = 0) : account.Settles { account with row := some row }
  | complete (envelopeId : Nat) (now : Int) : account.Settles
    (account.changeWhere (ProcessingRow.isClaimOf envelopeId) (ProcessingRow.complete now))
  | release (now : Int) : account.Settles (account.release now)
  | bury (input : DeadLetterInput) : account.Settles (account.bury input)

/-- Such a step leaves a balanced account. -/
theorem Settles.balanced (settles : account.Settles later) (balanced : account.Balanced) :
    later.Balanced := by
  cases settles with
  | same => exact balanced
  | accept absent row pending untried =>
    unfold Balanced at balanced
    rw [absent] at balanced
    obtain ⟨letters, claims, timeouts⟩ := balanced
    refine ⟨fun _ => letters, fun _ => ?_, fun held => ?_⟩
    · show account.claims = row.attemptCount + account.timeouts
      omega
    · rw [pending] at held
      cases held
  | complete envelopeId now => exact balanced.end_claim envelopeId fun _ => .inl rfl
  | release now => exact balanced.release now
  | bury input => exact balanced.bury input

/-- Such a step keeps an account sound. -/
theorem Settles.sound (settles : account.Settles later) (balanced : account.Balanced)
    (sound : account.Sound limits) : later.Sound limits := by
  cases settles with
  | same => exact sound
  | accept absent row pending untried =>
    refine ⟨fun other found dead => ?_, sound.2⟩
    cases found
    rw [pending] at dead
    cases dead
  | complete envelopeId now => exact sound.changeWhere fun _ _ => by simp [ProcessingRow.complete]
  | release now => exact sound.release now
  | bury input => exact sound.bury balanced input

end Account

/-! ## One step -/

namespace Workers

variable (rules : EventRules) (limits : AttemptLimits) (workers : Workers)

/-- The row that is claimed is ready, and is the one of its envelope. -/
theorem claimedRow_some {workerId : String} {now : Int} {locked : List Nat}
    (claims : workers.claimedRow (.claimNext workerId now locked) = some row) :
    row.isReady now ∧ workers.database.processing.find row.envelopeId = some row := by
  unfold claimedRow at claims
  dsimp only at claims
  split at claims
  · obtain ⟨member, ready⟩ := List.mem_filter.mp (mem_of_firstOf (List.mem_of_mem_head? claims))
    rw [Bool.and_eq_true] at ready
    exact ⟨ready.1, IdTable.find_eq_some.mpr ⟨member, rfl⟩⟩
  · cases claims

variable (workerId : String) (input : DeadLetterInput)

/-- A claim changes the row that is claimed and nothing else. -/
theorem claimNext_database (now : Int) (locked : List Nat) :
    (workers.step rules limits (.claimNext workerId now locked)).database =
      match workers.claimedRow (.claimNext workerId now locked) with
      | none => workers.database
      | some row => { workers.database with
          processing := workers.database.processing.updateWhere
            (fun other => other.envelopeId == row.envelopeId) (ProcessingRow.claim workerId now)
            (fun _ => rfl) } := by
  show (workers.claimNext rules workerId now locked).database = _
  unfold claimNext claimedRow
  dsimp only
  cases workers.phases workerId with
  | idle =>
    unfold claimRow
    dsimp only
    cases nextEnvelope workers.database.processing now locked <;> rfl
  | _ => rfl

/-- A failure is recorded as a retry, as a dead letter, or not at all. -/
theorem recordFailure_cases (now : Int) :
    (∃ retriedId, limits.retries (workers.phases workerId) = some retriedId ∧
        (workers.recordFailure limits workerId now).database =
          (workers.retry limits retriedId now).database) ∨
      limits.retries (workers.phases workerId) = none ∧
        ((workers.recordFailure limits workerId now).database = workers.database ∨
          ∃ input, (workers.recordFailure limits workerId now).database =
            (workers.deadLetter input).database) := by
  unfold recordFailure AttemptLimits.retries
  cases workers.phases workerId with
  | idle => exact .inr ⟨rfl, .inl rfl⟩
  | processing claimed => exact .inr ⟨rfl, .inl rfl⟩
  | failing claimed =>
    dsimp only
    by_cases last : claimed.attemptCount + 1 ≥ limits.maxAttempts
    · rw [if_pos last, if_pos last]
      exact .inr ⟨rfl, .inr ⟨_, rfl⟩⟩
    · rw [if_neg last, if_neg last]
      exact .inl ⟨claimed.envelopeId, rfl, rfl⟩
  | rejecting rejectedId attemptCount =>
    dsimp only
    by_cases last : attemptCount ≥ limits.queueMaxAttempts
    · rw [if_pos last, if_pos last]
      exact .inr ⟨rfl, .inr ⟨_, rfl⟩⟩
    · rw [if_neg last, if_neg last]
      exact .inl ⟨rejectedId, rfl, rfl⟩

/-- A dead letter of an envelope adds to its letters if the envelope is claimed. -/
theorem letters_deadLetter (envelopeId : Nat) :
    (workers.deadLetter input).database.letters envelopeId =
      workers.database.letters envelopeId +
        if (workers.database.processing.find envelopeId).any
          (isClaimOf input.envelopeId) then 1 else 0 := by
  have claimed_iff : workers.database.processing.rows.any
        (isClaimOf input.envelopeId) = true ∧ input.envelopeId = envelopeId ↔
      (workers.database.processing.find envelopeId).any
        (isClaimOf input.envelopeId) = true := by
    rw [Option.any_eq_true]
    constructor
    · rintro ⟨some_row, rfl⟩
      obtain ⟨row, member, selected⟩ := List.any_eq_true.mp some_row
      have named := (isClaimOf_iff.mp selected).1
      exact ⟨row, IdTable.find_eq_some.mpr ⟨member, named⟩, selected⟩
    · rintro ⟨row, found, selected⟩
      obtain ⟨member, named⟩ := IdTable.find_eq_some.mp found
      refine ⟨List.any_eq_true.mpr ⟨row, member, selected⟩, ?_⟩
      exact (isClaimOf_iff.mp selected).1.symm.trans named
  unfold deadLetter deadLetterPayload
  by_cases claimed : workers.database.processing.rows.any (isClaimOf input.envelopeId) = true
  · rw [if_pos claimed]
    show (List.filter _ (workers.database.deadLetters ++ [_])).length = _
    by_cases same : input.envelopeId = envelopeId
    · rw [if_pos (claimed_iff.mp ⟨claimed, same⟩)]
      simp [Database.letters, same]
    · rw [if_neg fun both => same (claimed_iff.mpr both).2]
      simp [Database.letters, same]
  · rw [if_neg claimed, if_neg fun both => claimed (claimed_iff.mpr both).1]
    rfl

/-- A dead letter changes the row of a claimed envelope. -/
theorem find_deadLetter (envelopeId : Nat) :
    (workers.deadLetter input).database.processing.find envelopeId =
      (workers.database.processing.find envelopeId).map fun row =>
        if row.isClaimOf input.envelopeId then row.deadLetter input else row := by
  unfold deadLetter deadLetterPayload
  by_cases claimed : workers.database.processing.rows.any (isClaimOf input.envelopeId) = true
  · rw [if_pos claimed]
    exact IdTable.find_updateWhere workers.database.processing
      (isClaimOf input.envelopeId) (ProcessingRow.deadLetter input) (fun _ => rfl)
      envelopeId
  · rw [if_neg claimed]
    show workers.database.processing.find envelopeId = _
    cases found : workers.database.processing.find envelopeId with
    | none => rfl
    | some row =>
      rw [map_some, if_neg]
      intro selected
      exact claimed (List.any_eq_true.mpr ⟨row, (IdTable.find_eq_some.mp found).1, selected⟩)

end Workers

namespace Attempts

variable (rules : EventRules) (limits : AttemptLimits) (attempts : Attempts) {step : ProcessorStep}
  {envelopeId : Nat} {workerId : String} {now : Int}

/-- A step that neither claims a row nor releases one leaves an account with the row and the dead
letters of its tables. -/
theorem account_act (claims : attempts.workers.claimedRow step = none)
    (keeps : attempts.workers.timesOut envelopeId step = false) :
    (attempts.act rules limits step).1.account envelopeId =
      { attempts.account envelopeId with
        row := (attempts.workers.step rules limits step).database.processing.find envelopeId
        letters := (attempts.workers.step rules limits step).database.letters envelopeId } := by
  unfold account act
  dsimp only
  rw [claims, keeps]
  rfl

/-- A step that leaves the database leaves an account as it is. -/
theorem account_act_same (claims : attempts.workers.claimedRow step = none)
    (keeps : attempts.workers.timesOut envelopeId step = false)
    (same : (attempts.workers.step rules limits step).database = attempts.workers.database) :
    (attempts.act rules limits step).1.account envelopeId = attempts.account envelopeId := by
  rw [account_act rules limits attempts claims keeps, same]
  rfl

/-- A step that changes rows of the queue changes an account where its row is changed. -/
theorem account_act_changeWhere {test : ProcessingRow → Bool}
    {change : ProcessingRow → ProcessingRow} (own : ∀ row, (change row).envelopeId = row.envelopeId)
    (claims : attempts.workers.claimedRow step = none)
    (keeps : attempts.workers.timesOut envelopeId step = false)
    (queue : (attempts.workers.step rules limits step).database.processing =
      attempts.workers.database.processing.updateWhere test change own)
    (letters : (attempts.workers.step rules limits step).database.deadLetters =
      attempts.workers.database.deadLetters) :
    (attempts.act rules limits step).1.account envelopeId =
      (attempts.account envelopeId).changeWhere test change := by
  rw [account_act rules limits attempts claims keeps, queue, IdTable.find_updateWhere]
  unfold Database.letters
  rw [letters]
  rfl

/-- An accepted envelope gets its row. -/
theorem settles_insertRaw (receivedAt : Int) (ingestClientId : String) (payload : Json)
    (envelopeId : Nat) :
    (attempts.account envelopeId).Settles ((attempts.act rules limits
      (.insertRaw receivedAt ingestClientId payload)).1.account envelopeId) := by
  have inserted : (attempts.workers.step rules limits
        (.insertRaw receivedAt ingestClientId payload)).database.processing.find envelopeId = _ :=
    IdTable.find_insert attempts.workers.database.processing _ (fun _ => rfl) envelopeId
  rw [account_act rules limits attempts rfl rfl, inserted]
  split
  · next new =>
    have absent : (attempts.account envelopeId).row = none :=
      attempts.workers.database.processing.find_fresh (Nat.le_of_eq new.symm)
    exact .accept absent _ rfl rfl
  · exact .same

/-- A claim changes the account of the row that it claims. -/
theorem account_claimNext {locked : List Nat}
    (claims : attempts.workers.claimedRow (.claimNext workerId now locked) = some row)
    (envelopeId : Nat) :
    (attempts.act rules limits (.claimNext workerId now locked)).1.account envelopeId =
      if row.envelopeId = envelopeId then (attempts.account envelopeId).claim workerId now
      else attempts.account envelopeId := by
  have database := attempts.workers.claimNext_database rules limits workerId now locked
  rw [claims] at database
  unfold account act
  dsimp only
  rw [database, claims, any_some]
  have changed := IdTable.find_updateWhere attempts.workers.database.processing
    (fun other => other.envelopeId == row.envelopeId) (ProcessingRow.claim workerId now)
    (fun _ => rfl) envelopeId
  have named (other : ProcessingRow)
      (found : attempts.workers.database.processing.find envelopeId = some other) :
      (other.envelopeId == row.envelopeId) = (row.envelopeId == envelopeId) := by
    rw [(IdTable.find_eq_some.mp found).2, Bool.beq_comm]
  by_cases same : row.envelopeId = envelopeId
  · rw [if_pos same, if_pos (beq_iff_eq.mpr same), Account.mk.injEq]
    refine ⟨changed.trans ?_, rfl, rfl, rfl⟩
    refine map_congr fun other found => ?_
    rw [if_pos rfl, named other found, if_pos (beq_iff_eq.mpr same)]
  · rw [if_neg same, if_neg fun equal => same (beq_iff_eq.mp equal), Account.mk.injEq]
    refine ⟨changed.trans (.trans ?_ Option.map_id'), rfl, rfl, rfl⟩
    refine map_congr fun other found => ?_
    rw [named other found, if_neg fun equal => same (beq_iff_eq.mp equal)]

/-- A transaction that commits completes the claim of its envelope. -/
theorem settles_processEnvelope (workerId : String) (frames : Option (List String))
    (databaseNow : Int) (acknowledged : Bool) (envelopeId : Nat) :
    (attempts.account envelopeId).Settles ((attempts.act rules limits
      (.processEnvelope workerId frames databaseNow acknowledged)).1.account envelopeId) := by
  rcases @Workers.process_cases rules attempts.workers workerId frames databaseNow acknowledged with
    same | ⟨claimed, fingerprint, event, processed, -, committed⟩
  · have kept : (attempts.act rules limits (.processEnvelope workerId frames databaseNow
        acknowledged)).1.account envelopeId = _ :=
      account_act_same rules limits attempts rfl rfl same
    rw [kept]
    exact .same
  · obtain ⟨queue, -, letters, -⟩ := recordEnvelope_ok committed
    have own (row : ProcessingRow) : (row.complete databaseNow).envelopeId = row.envelopeId := rfl
    have changed : (attempts.act rules limits (.processEnvelope workerId frames databaseNow
        acknowledged)).1.account envelopeId = _ :=
      account_act_changeWhere rules limits attempts own rfl rfl queue letters
    rw [changed]
    exact .complete claimed.envelopeId databaseNow

/-- A release changes the account of an envelope whose claim has timed out. -/
theorem account_releaseExpiredClaims (now : Int) (envelopeId : Nat) :
    (attempts.act rules limits (.releaseExpiredClaims now)).1.account envelopeId =
      (attempts.account envelopeId).release now := by
  have found : (releaseExpiredClaims attempts.workers.database.processing now).find envelopeId =
      (attempts.workers.database.processing.find envelopeId).map fun row =>
        if row.isExpired now then row.release now else row :=
    IdTable.find_updateWhere attempts.workers.database.processing (isExpired now)
      (ProcessingRow.release now) (fun _ => rfl) envelopeId
  unfold account act
  rw [show (attempts.workers.step rules limits (.releaseExpiredClaims now)).database.processing =
    releaseExpiredClaims attempts.workers.database.processing now from rfl, found]
  rfl

/-- A retry changes the account of a claimed envelope. -/
theorem account_retry {retriedId : Nat}
    (retried : (attempts.workers.recordFailure limits workerId now).database =
      (attempts.workers.retry limits retriedId now).database) (envelopeId : Nat) :
    (attempts.act rules limits (.recordFailure workerId now)).1.account envelopeId =
      (attempts.account envelopeId).changeWhere (isClaimOf retriedId)
        (ProcessingRow.retry limits.queueMaxAttempts now) := by
  have queue := congrArg Database.processing retried
  have letters := congrArg Database.deadLetters retried
  exact account_act_changeWhere rules limits attempts
    (retry_envelopeId limits.queueMaxAttempts now) rfl rfl queue letters

/-- A dead letter changes the account of a claimed envelope. -/
theorem account_deadLetter {input : DeadLetterInput}
    (buried : (attempts.workers.recordFailure limits workerId now).database =
      (attempts.workers.deadLetter input).database) (envelopeId : Nat) :
    (attempts.act rules limits (.recordFailure workerId now)).1.account envelopeId =
      (attempts.account envelopeId).bury input := by
  rw [account_act rules limits attempts rfl rfl]
  rw [show (attempts.workers.step rules limits (.recordFailure workerId now)).database =
    (attempts.workers.deadLetter input).database from buried]
  rw [Workers.find_deadLetter, Workers.letters_deadLetter]
  rfl

/-! ## Runs -/

def Balanced : Prop :=
  ∀ envelopeId, (attempts.account envelopeId).Balanced

theorem balanced_empty : empty.Balanced := fun _ => ⟨rfl, rfl, rfl⟩

/-- How a step goes: it claims a row that is ready, it hands an envelope to `markRetry`, or it does
neither. -/
inductive Goes (step : ProcessorStep) : Prop where
  | claim (row : ProcessingRow) (workerId : String) (now : Int)
    (claims : attempts.workers.claimedRow step = some row)
    (quiet : attempts.workers.retriedEnvelope limits step = none) (ready : row.isReady now = true)
    (found : (attempts.account row.envelopeId).row = some row)
    (changes : ∀ envelopeId, (attempts.act rules limits step).1.account envelopeId =
      if row.envelopeId = envelopeId then (attempts.account envelopeId).claim workerId now
      else attempts.account envelopeId)
  | retry (retriedId : Nat) (now : Int) (unclaimed : attempts.workers.claimedRow step = none)
    (retries : attempts.workers.retriedEnvelope limits step = some retriedId)
    (changes : ∀ envelopeId, (attempts.act rules limits step).1.account envelopeId =
      (attempts.account envelopeId).changeWhere (ProcessingRow.isClaimOf retriedId)
        (ProcessingRow.retry limits.queueMaxAttempts now))
  | settle (unclaimed : attempts.workers.claimedRow step = none)
    (quiet : attempts.workers.retriedEnvelope limits step = none)
    (settles : ∀ envelopeId, (attempts.account envelopeId).Settles
      ((attempts.act rules limits step).1.account envelopeId))

/-- A step that leaves the database and claims nothing settles nothing. -/
theorem goes_same (claims : attempts.workers.claimedRow step = none)
    (quiet : attempts.workers.retriedEnvelope limits step = none)
    (keeps : ∀ envelopeId, attempts.workers.timesOut envelopeId step = false)
    (same : (attempts.workers.step rules limits step).database = attempts.workers.database) :
    attempts.Goes rules limits step := by
  refine .settle claims quiet fun envelopeId => ?_
  rw [account_act_same rules limits attempts claims (keeps envelopeId) same]
  exact .same

/-- Every step goes one of these ways. -/
theorem act_goes (step : ProcessorStep) : attempts.Goes rules limits step := by
  cases step with
  | insertRaw receivedAt ingestClientId payload =>
    exact .settle rfl rfl (settles_insertRaw rules limits attempts receivedAt ingestClientId payload)
  | claimNext workerId now locked =>
    cases claims : attempts.workers.claimedRow (.claimNext workerId now locked) with
    | none =>
      have same := attempts.workers.claimNext_database rules limits workerId now locked
      rw [claims] at same
      exact goes_same rules limits attempts claims rfl (fun _ => rfl) same
    | some row =>
      obtain ⟨ready, found⟩ := attempts.workers.claimedRow_some claims
      exact .claim row workerId now claims rfl ready found
        (account_claimNext rules limits attempts claims)
  | processEnvelope workerId frames databaseNow acknowledged =>
    exact .settle rfl rfl
      (settles_processEnvelope rules limits attempts workerId frames databaseNow acknowledged)
  | fail workerId =>
    exact goes_same rules limits attempts rfl rfl (fun _ => rfl)
      (attempts.workers.fail_database workerId)
  | recordFailure workerId now =>
    rcases attempts.workers.recordFailure_cases limits workerId now with
      ⟨retriedId, retries, retried⟩ | ⟨quiet, same | ⟨input, buried⟩⟩
    · exact .retry retriedId now rfl retries (account_retry rules limits attempts retried)
    · exact goes_same rules limits attempts rfl quiet (fun _ => rfl) same
    · refine .settle rfl quiet fun envelopeId => ?_
      rw [account_deadLetter rules limits attempts buried]
      exact .bury input
  | releaseExpiredClaims now =>
    refine .settle rfl rfl fun envelopeId => ?_
    rw [account_releaseExpiredClaims]
    exact .release now
  | crash workerId => exact goes_same rules limits attempts rfl rfl (fun _ => rfl) rfl

/-- Every step keeps the accounts balanced. -/
theorem balanced_act (attempts : Attempts) (step : ProcessorStep) (balanced : attempts.Balanced) :
    (attempts.act rules limits step).1.Balanced := by
  intro envelopeId
  cases act_goes rules limits attempts step with
  | claim row workerId now claims quiet ready found changes =>
    rw [changes]
    split
    · next same =>
      subst same
      exact (balanced row.envelopeId).claim found ready workerId
    · exact balanced envelopeId
  | retry retriedId now unclaimed retries changes =>
    rw [changes]
    refine (balanced envelopeId).end_claim retriedId fun row => ?_
    unfold ProcessingRow.retry
    split
    · exact .inr (.inl rfl)
    · exact .inr (.inr ⟨rfl, rfl⟩)
  | settle unclaimed quiet settles => exact (settles envelopeId).balanced (balanced envelopeId)

/-- A step keeps every envelope accounted for exactly when it is guarded. -/
theorem accounted_act_iff (attempts : Attempts) (step : ProcessorStep)
    (balanced : attempts.Balanced) (accounted : attempts.Accounted limits) :
    (attempts.act rules limits step).1.Accounted limits ↔ attempts.Guarded limits step := by
  have sound := accounted_iff.mp accounted
  cases act_goes rules limits attempts step with
  | claim row workerId now claims quiet ready found changes =>
    have claim_iff := Account.sound_claim_iff (sound row.envelopeId) (balanced row.envelopeId)
      found ready workerId
    constructor
    · intro after
      have here := accounted_iff.mp after row.envelopeId
      rw [changes, if_pos rfl] at here
      refine ⟨fun other claimed => ?_, fun _ _ retried => ?_⟩
      · cases claims.symm.trans claimed
        exact claim_iff.mp here
      · cases quiet.symm.trans retried
    · intro guarded
      refine accounted_iff.mpr fun envelopeId => ?_
      rw [changes]
      split
      · next same =>
        subst same
        exact claim_iff.mpr (guarded.claim row claims)
      · exact sound envelopeId
  | retry retriedId now unclaimed retries changes =>
    have retry_iff (envelopeId : Nat) := Account.sound_retry_iff (sound envelopeId)
      (balanced envelopeId) retriedId now
    constructor
    · intro after
      refine ⟨fun _ claimed => ?_, fun envelopeId row named found held => ?_⟩
      · cases unclaimed.symm.trans claimed
      · cases retries.symm.trans named
        have here := accounted_iff.mp after retriedId
        rw [changes] at here
        have named := (IdTable.find_eq_some.mp found).2
        exact (retry_iff retriedId).mp here row found
          (isClaimOf_iff.mpr ⟨named, held⟩)
    · intro guarded
      refine accounted_iff.mpr fun envelopeId => ?_
      rw [changes]
      refine (retry_iff envelopeId).mpr fun row found selected => ?_
      obtain ⟨named, held⟩ := isClaimOf_iff.mp selected
      have here : row.envelopeId = envelopeId := (IdTable.find_eq_some.mp found).2
      exact guarded.retry envelopeId row (retries.trans (by rw [← named, here])) found held
  | settle unclaimed quiet settles =>
    refine iff_of_true (accounted_iff.mpr fun envelopeId => ?_) ⟨fun _ claimed => ?_, fun _ _ retried => ?_⟩
    · exact (settles envelopeId).sound (balanced envelopeId) (sound envelopeId)
    · cases unclaimed.symm.trans claimed
    · cases quiet.symm.trans retried

/-- After any run of workers every account is balanced. -/
theorem balanced_after (rules : EventRules) (limits : AttemptLimits) (steps : List ProcessorStep) :
    (Machine.after (act rules limits) empty steps).Balanced :=
  Machine.invariant_after (balanced_act rules limits) balanced_empty steps

/-- In a run of workers every dead-lettered envelope has exactly one dead letter and no envelope is
claimed more often than the limit allows, at every moment, exactly when each claim finds the attempts
and timeouts below the runner's limit and each retry the attempts below the queue's. -/
theorem accounted_throughout_iff (rules : EventRules) (limits : AttemptLimits)
    (steps : List ProcessorStep) :
    Machine.Throughout (act rules limits) (Accounted limits) empty steps ↔
      Machine.Along (act rules limits) (Guarded limits) empty steps := by
  have kept (attempts : Attempts) (step : ProcessorStep) (balanced : attempts.Balanced) :
      (attempts.act rules limits step).1.Balanced :=
    balanced_act rules limits attempts step balanced
  have agree (attempts : Attempts) (step : ProcessorStep) (balanced : attempts.Balanced)
      (accounted : attempts.Accounted limits) :
      (attempts.act rules limits step).1.Accounted limits ↔ attempts.Guarded limits step :=
    accounted_act_iff rules limits attempts step balanced accounted
  have first : empty.Accounted limits :=
    ⟨fun _ _ found => (by cases found), fun _ => Nat.zero_le _⟩
  rw [Machine.throughout_iff kept agree balanced_empty steps]
  exact and_iff_right first

end Attempts

/-! ## Two limits -/

def failedAttempt (now : Int) : List ProcessorStep :=
  [.claimNext "worker" now [], .fail "worker", .recordFailure "worker" now]

/-- Ten attempts that fail, an hour apart. -/
def tenFailures : List ProcessorStep :=
  .insertRaw 0 "client" reportedPayload ::
    (List.range 10).flatMap fun hour => failedAttempt (3600000 * hour)

/-- Under a limit of eleven attempts the queue ends the envelope at its own limit of ten, without a
dead letter. -/
theorem tenFailures_unrecorded :
    ((Machine.after (Attempts.act plainRules ⟨10, 11⟩) Attempts.empty
        tenFailures).workers.database.processing.find 0).map ProcessingRow.state =
        some .deadLettered ∧
      (Machine.after (Attempts.act plainRules ⟨10, 11⟩) Attempts.empty
        tenFailures).workers.database.letters 0 = 0 ∧
      ¬ ∀ rules limits steps,
        Machine.Throughout (Attempts.act rules limits) (Attempts.Accounted limits) Attempts.empty
          steps := by
  have ended : ((Machine.after (Attempts.act plainRules ⟨10, 11⟩) Attempts.empty
      tenFailures).workers.database.processing.find 0).map state =
        some .deadLettered := by
    decide +kernel
  have unlettered : (Machine.after (Attempts.act plainRules ⟨10, 11⟩) Attempts.empty
      tenFailures).workers.database.letters 0 = 0 := by
    decide +kernel
  refine ⟨ended, unlettered, fun every => ?_⟩
  obtain ⟨row, found, dead⟩ := Option.map_eq_some_iff.mp ended
  have accounted := every plainRules ⟨10, 11⟩ tenFailures tenFailures [] (List.append_nil _).symm
  have lettered := accounted.recorded 0 row found dead
  omega

end NancyMan.Processor
