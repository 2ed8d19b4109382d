import Mathlib.Data.List.Basic

/-!
# The table of step-up grants

`PostgresStepUpRepository` keeps the grants of `ops_secret_elevations`. Every function here is one of
its statements: an update changes the rows that its condition selects and returns them as they are
then, and the insertion throws where the identifier is taken or a check fails. Times are
milliseconds of the database's clock.
-/
namespace NancyMan.Auth

inductive StepUpCapability where
  | accountsWrite
  | variablesSecret
  | variablesApply
  | databasePii
deriving DecidableEq

/-- What the policy of a capability says. -/
structure StepUpPolicy where
  lifetimeMs : Int
  reusable : Bool

def policies : StepUpCapability → StepUpPolicy
  | .accountsWrite => ⟨5 * 60 * 1000, false⟩
  | .variablesSecret => ⟨10 * 60 * 1000, true⟩
  | .variablesApply => ⟨5 * 60 * 1000, false⟩
  | .databasePii => ⟨10 * 60 * 1000, true⟩

/-- A row of `ops_secret_elevations`. -/
structure StepUpGrant where
  id : String
  capability : StepUpCapability
  userId : String
  sessionId : String
  ipHash : String
  userAgentHash : String
  subjectDigest : Option String
  grantedAt : Int
  expiresAt : Int
  lastUsedAt : Option Int
  consumedAt : Option Int
  revokedAt : Option Int
  reusable : Bool
  auditCompletedAt : Option Int

/-- What a grant is for. -/
structure StepUpKey where
  userId : String
  sessionId : String
  capability : StepUpCapability
  /-- `COALESCE(subject_digest, '')`. -/
  subjectDigest : String
deriving DecidableEq

structure StepUpBinding where
  grantId : String
  capability : StepUpCapability
  userId : String
  sessionId : String
  ipHash : String
  userAgentHash : String
  subjectDigest : Option String

/-- `DatabasePiiStepUpBinding`, where a revocation may leave out the subject. -/
structure DatabasePiiBinding where
  userId : String
  sessionId : String
  ipHash : String
  userAgentHash : String
  subjectDigest : Option String

namespace StepUpGrant

variable (grant : StepUpGrant)

def key : StepUpKey :=
  ⟨grant.userId, grant.sessionId, grant.capability, grant.subjectDigest.getD ""⟩

def isOpen : Bool := grant.revokedAt.isNone && grant.consumedAt.isNone

variable (now : Int)

def isLive (grant : StepUpGrant) : Bool := grant.isOpen && decide (now < grant.expiresAt)

/-- Whether a grant is the one of a binding, whatever its subject. -/
def isOf (binding : StepUpBinding) (grant : StepUpGrant) : Bool :=
  grant.id == binding.grantId && grant.capability == binding.capability &&
    grant.userId == binding.userId && grant.sessionId == binding.sessionId &&
    grant.ipHash == binding.ipHash && grant.userAgentHash == binding.userAgentHash

def isBound (binding : StepUpBinding) (grant : StepUpGrant) : Bool :=
  grant.isOf binding && grant.subjectDigest.getD "" == binding.subjectDigest.getD ""

/-- Whether a grant reveals the data of a session. -/
def isPiiOf (binding : DatabasePiiBinding) (grant : StepUpGrant) : Bool :=
  grant.capability == .databasePii && grant.userId == binding.userId &&
    grant.sessionId == binding.sessionId && grant.ipHash == binding.ipHash &&
    grant.userAgentHash == binding.userAgentHash

def revoke (grant : StepUpGrant) : StepUpGrant := { grant with revokedAt := some now }

def consume (grant : StepUpGrant) : StepUpGrant := { grant with consumedAt := some now }

def use (grant : StepUpGrant) : StepUpGrant := { grant with lastUsedAt := some now }

def completeAudit (grant : StepUpGrant) : StepUpGrant :=
  { grant with auditCompletedAt := some now }

def passesChecks : Bool :=
  grant.capability != .databasePii || (grant.reusable && grant.subjectDigest.isSome)

end StepUpGrant

abbrev StepUpTable := List StepUpGrant

namespace StepUpTable

variable (table : StepUpTable) (selects : StepUpGrant → Bool)

def updateWhere (change : StepUpGrant → StepUpGrant) : StepUpTable :=
  table.map fun grant => if selects grant then change grant else grant

/-- The rows that an update returns. -/
def returning (change : StepUpGrant → StepUpGrant) : List StepUpGrant :=
  (table.filter selects).map change

def replaceOlder (key : StepUpKey) (now : Int) : StepUpTable :=
  table.updateWhere (fun grant => grant.key == key && grant.isOpen) (StepUpGrant.revoke now)

/-- `insert`, which throws or returns the row. -/
def insert (grant : StepUpGrant) : Option StepUpTable :=
  if table.any (fun other => other.id == grant.id) || !grant.passesChecks then none
  else some (table ++ [{ grant with auditCompletedAt := none }])

/-- The condition of `authorize`. -/
def authorizes (binding : StepUpBinding) (now : Int) (grant : StepUpGrant) : Bool :=
  grant.isBound binding &&
    (binding.capability != .databasePii || grant.auditCompletedAt.isSome) && grant.isLive now

/-- `authorize`: the table and the row, whose `reusable` is told from the capability. -/
def authorize (binding : StepUpBinding) (now : Int) : StepUpTable × Option StepUpGrant :=
  (table.updateWhere (authorizes binding now) (StepUpGrant.use now),
    (table.returning (authorizes binding now) (StepUpGrant.use now)).head?.map fun grant =>
      { grant with
        reusable := grant.capability == .variablesSecret || grant.capability == .databasePii })

variable (binding : DatabasePiiBinding)

/-- The condition of `findActiveDatabasePii`. -/
def revealsPii (now : Int) (grant : StepUpGrant) : Bool :=
  grant.isPiiOf binding && grant.subjectDigest.isSome &&
    grant.subjectDigest == binding.subjectDigest && grant.reusable && grant.isLive now &&
    grant.auditCompletedAt.isSome

/-- `findActiveDatabasePii`: the table and the row. -/
def findActiveDatabasePii (now : Int) : StepUpTable × Option StepUpGrant :=
  (table.updateWhere (revealsPii binding now) (StepUpGrant.use now),
    (table.returning (revealsPii binding now) (StepUpGrant.use now)).head?)

/-- The condition of `activateDatabasePiiGrant`. -/
def awaitsAudit (grantId : String) (binding : DatabasePiiBinding) (now : Int)
    (grant : StepUpGrant) : Bool :=
  grant.id == grantId && grant.isPiiOf binding && grant.subjectDigest.isSome &&
    grant.subjectDigest == binding.subjectDigest && grant.reusable &&
    grant.auditCompletedAt.isNone && grant.isLive now

/-- `activateDatabasePiiGrant`: the table and whether a row was activated. -/
def activateDatabasePiiGrant (grantId : String) (binding : DatabasePiiBinding) (now : Int) :
    StepUpTable × Bool :=
  (table.updateWhere (awaitsAudit grantId binding now) (StepUpGrant.completeAudit now),
    table.any (awaitsAudit grantId binding now))

/-- The condition of `revokeDatabasePii`. -/
def isRevocable (grant : StepUpGrant) : Bool :=
  grant.isPiiOf binding &&
    (binding.subjectDigest.isNone || grant.subjectDigest == binding.subjectDigest) &&
    grant.reusable && grant.isOpen

/-- `revokeDatabasePii`: the table and how many rows were revoked. -/
def revokeDatabasePii (now : Int) : StepUpTable × Nat :=
  (table.updateWhere (isRevocable binding) (StepUpGrant.revoke now),
    (table.filter (isRevocable binding)).length)

/-- `revokeSession`, of the grants that reveal data. -/
def revokeSession (sessionId : String) (now : Int) : StepUpTable :=
  table.updateWhere (fun grant => grant.sessionId == sessionId && grant.capability == .databasePii &&
    grant.reusable && grant.isOpen) (StepUpGrant.revoke now)

/-- The condition of `consume`. -/
def consumes (binding : StepUpBinding) (now : Int) (grant : StepUpGrant) : Bool :=
  grant.isBound binding && grant.isLive now &&
    (grant.capability == .accountsWrite || grant.capability == .variablesApply)

/-- `consume`: the table and whether a row was consumed. -/
def consume (binding : StepUpBinding) (now : Int) : StepUpTable × Bool :=
  (table.updateWhere (consumes binding now) (StepUpGrant.consume now),
    table.any (consumes binding now))

def revoke (binding : StepUpBinding) (now : Int) : StepUpTable :=
  table.updateWhere (fun grant => grant.isOf binding && grant.revokedAt.isNone)
    (StepUpGrant.revoke now)

end StepUpTable

/-! ## What a statement leaves of a row -/

namespace StepUpGrant

/-- A row after some statements: it is of the same grant, and stays revoked or consumed. -/
structure Becomes (grant later : StepUpGrant) : Prop where
  id : later.id = grant.id
  key : later.key = grant.key
  reusable : later.reusable = grant.reusable
  expiresAt : later.expiresAt = grant.expiresAt
  revoked : grant.revokedAt.isSome = true → later.revokedAt.isSome = true
  consumed : grant.consumedAt.isSome = true → later.consumedAt.isSome = true

theorem Becomes.refl (grant : StepUpGrant) : grant.Becomes grant :=
  ⟨rfl, rfl, rfl, rfl, fun held => held, fun held => held⟩

variable {grant later : StepUpGrant} (now : Int)

theorem Becomes.trans {middle : StepUpGrant} (first : grant.Becomes middle)
    (second : middle.Becomes later) : grant.Becomes later where
  id := second.id.trans first.id
  key := second.key.trans first.key
  reusable := second.reusable.trans first.reusable
  expiresAt := second.expiresAt.trans first.expiresAt
  revoked := fun held => second.revoked (first.revoked held)
  consumed := fun held => second.consumed (first.consumed held)

theorem becomes_revoke (grant : StepUpGrant) : grant.Becomes (grant.revoke now) :=
  ⟨rfl, rfl, rfl, rfl, fun _ => rfl, fun held => held⟩

theorem becomes_consume (grant : StepUpGrant) : grant.Becomes (grant.consume now) :=
  ⟨rfl, rfl, rfl, rfl, fun held => held, fun _ => rfl⟩

theorem becomes_use (grant : StepUpGrant) : grant.Becomes (grant.use now) :=
  ⟨rfl, rfl, rfl, rfl, fun held => held, fun held => held⟩

theorem becomes_completeAudit (grant : StepUpGrant) : grant.Becomes (grant.completeAudit now) :=
  ⟨rfl, rfl, rfl, rfl, fun held => held, fun held => held⟩

theorem Becomes.capability (becomes : grant.Becomes later) :
    later.capability = grant.capability := congrArg StepUpKey.capability becomes.key

/-- A grant that is live later was live before. -/
theorem Becomes.live (becomes : grant.Becomes later) {now after : Int} (passed : now ≤ after)
    (live : later.isLive after) : grant.isLive now := by
  simp only [isLive, isOpen, Bool.and_eq_true, decide_eq_true_eq] at live ⊢
  obtain ⟨⟨unrevoked, unconsumed⟩, unexpired⟩ := live
  rw [becomes.expiresAt] at unexpired
  have stays : grant.revokedAt.isNone := by
    cases found : grant.revokedAt with
    | none => rfl
    | some time =>
      have revoked := becomes.revoked (by rw [found]; rfl)
      rw [Option.isNone_iff_eq_none.mp unrevoked] at revoked
      cases revoked
  have remains : grant.consumedAt.isNone := by
    cases found : grant.consumedAt with
    | none => rfl
    | some time =>
      have consumed := becomes.consumed (by rw [found]; rfl)
      rw [Option.isNone_iff_eq_none.mp unconsumed] at consumed
      cases consumed
  exact ⟨⟨stays, remains⟩, by omega⟩

theorem not_live_revoke (now after : Int) (grant : StepUpGrant) :
    ¬ (grant.revoke now).isLive after := by
  simp [isLive, isOpen, revoke]

theorem not_live_of_not_open (shut : grant.isOpen = false) (now : Int) : ¬ grant.isLive now := by
  simp [isLive, shut]

end StepUpGrant

namespace StepUpTable

variable {table later : StepUpTable}

/-- A table after an update: each row has become what it has. -/
def Updates (table later : StepUpTable) : Prop :=
  ∃ change : StepUpGrant → StepUpGrant, later = table.map change ∧
    ∀ grant : StepUpGrant, grant.Becomes (change grant)

/-- An update of the rows that a condition selects is one. -/
theorem updates_updateWhere (selects : StepUpGrant → Bool) {change : StepUpGrant → StepUpGrant}
    (becomes : ∀ grant : StepUpGrant, grant.Becomes (change grant)) :
    Updates table (table.updateWhere selects change) := by
  refine ⟨fun grant => if selects grant then change grant else grant, rfl, fun grant => ?_⟩
  dsimp only
  split
  · exact becomes grant
  · exact .refl grant

theorem Updates.exists_of_mem (updates : Updates table later) {grant : StepUpGrant}
    (member : grant ∈ later) : ∃ earlier ∈ table, earlier.Becomes grant := by
  obtain ⟨change, rfl, becomes⟩ := updates
  obtain ⟨earlier, held, rfl⟩ := List.mem_map.mp member
  exact ⟨earlier, held, becomes earlier⟩

theorem Updates.map_id (updates : Updates table later) :
    later.map StepUpGrant.id = table.map StepUpGrant.id := by
  obtain ⟨change, rfl, becomes⟩ := updates
  rw [List.map_map]
  exact List.map_congr_left fun grant _ => (becomes grant).id

theorem Updates.take (updates : Updates table later) (count : Nat) :
    Updates (table.take count) (later.take count) := by
  obtain ⟨change, rfl, becomes⟩ := updates
  exact ⟨change, List.map_take.symm, becomes⟩

theorem Updates.refl (table : StepUpTable) : Updates table table :=
  ⟨id, (List.map_id table).symm, StepUpGrant.Becomes.refl⟩

/-- After a replacement no grant for its purpose is live. -/
theorem not_live_replaceOlder (key : StepUpKey) (now after : Int) :
    ∀ grant ∈ table.replaceOlder key now, grant.key = key → ¬ grant.isLive after := by
  intro grant member same
  obtain ⟨earlier, held, rfl⟩ := List.mem_map.mp member
  split at same
  · next selected => rw [if_pos selected]; exact StepUpGrant.not_live_revoke now after earlier
  · next other =>
    rw [if_neg other]
    simp only [Bool.and_eq_true, beq_iff_eq, not_and, Bool.not_eq_true] at other
    exact StepUpGrant.not_live_of_not_open (other same) after

end StepUpTable

end NancyMan.Auth
