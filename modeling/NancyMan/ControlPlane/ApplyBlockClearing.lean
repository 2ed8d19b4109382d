import NancyMan.Agent.RuntimeHandlers
import NancyMan.ControlPlane.ChangeMetadata
import NancyMan.Lib.Js

/-!
# Clearing an apply block on both sides

The block of an application is kept twice: as a row of the database and in the memory of the agent.
The service that clears it writes the row first and calls the agent after it, and a call that finds
no active row is refused before it reaches the agent. What is written of the row therefore stands
also when the agent's call fails.
-/
namespace NancyMan.ControlPlane

open Agent (AgentRole Runtime)

/-! ## The rows -/

/-- `application_id ~ '^[A-Za-z0-9][A-Za-z0-9._-]{0,127}$'`. -/
def isApplicationId (text : String) : Bool :=
  match text.toList with
  | [] => false
  | first :: rest =>
    isAlphanumeric first && rest.length ≤ 127 &&
      rest.all fun symbol => isAlphanumeric symbol || symbol ∈ ['.', '_', '-']

/-- The columns of a row that are set together, when it is cleared. -/
structure BlockClearing where
  clearedActorUserId : String
  clearedAt : Nat
  clearRemediationSummary : String

/-- A row of `ops_config_application_blocks`. -/
structure ApplicationBlock where
  applicationId : String
  clearing : Option BlockClearing

/-- The table, whose partial unique index admits one active row of an application. -/
@[ext]
structure ApplicationBlocks where
  rows : List ApplicationBlock
  named : ∀ row ∈ rows, isApplicationId row.applicationId = true
  oneActive : ((rows.filter fun row => row.clearing.isNone).map
    ApplicationBlock.applicationId).Nodup

def ApplicationBlocks.Active (blocks : ApplicationBlocks) (applicationId : String) : Prop :=
  ∃ row ∈ blocks.rows, row.applicationId = applicationId ∧ row.clearing = none

instance (blocks : ApplicationBlocks) (applicationId : String) :
    Decidable (blocks.Active applicationId) := by
  unfold ApplicationBlocks.Active; infer_instance

/-- The rows of an application that are not cleared. -/
def ApplicationBlocks.activeRows (blocks : ApplicationBlocks) (applicationId : String) :
    List ApplicationBlock :=
  blocks.rows.filter fun row => row.applicationId = applicationId ∧ row.clearing = none

theorem ApplicationBlocks.activeRows_eq_nil_iff (blocks : ApplicationBlocks)
    (applicationId : String) :
    blocks.activeRows applicationId = [] ↔ ¬ blocks.Active applicationId := by
  simp [activeRows, Active, List.filter_eq_nil_iff]

variable {blocks : ApplicationBlocks} {applicationId : String}

/-- The partial unique index leaves an application one active row. -/
theorem ApplicationBlocks.Active.activeRows_length (active : blocks.Active applicationId) :
    (blocks.activeRows applicationId).length = 1 := by
  have some : blocks.activeRows applicationId ≠ [] :=
    fun none => (blocks.activeRows_eq_nil_iff applicationId).mp none active
  have names : ((blocks.activeRows applicationId).map ApplicationBlock.applicationId).Nodup := by
    refine blocks.oneActive.sublist (List.Sublist.map _ ?_)
    refine List.monotone_filter_right _ fun row hit => ?_
    have both : row.applicationId = applicationId ∧ row.clearing = none := by simpa using hit
    simpa using both.2
  have same : (blocks.activeRows applicationId).map ApplicationBlock.applicationId =
      List.replicate (blocks.activeRows applicationId).length applicationId := by
    refine List.eq_replicate_iff.mpr ⟨by simp, fun name member => ?_⟩
    obtain ⟨row, inside, rfl⟩ := List.mem_map.mp member
    have hit := (List.mem_filter.mp inside).2
    simp only [decide_eq_true_eq] at hit
    exact hit.1
  rw [same, List.nodup_replicate] at names
  have positive := List.length_pos_iff.mpr some
  omega

/-- What the clearing statement reads of a row of `incidents`. -/
structure BlockIncident where
  id : String
  incidentKey : String
  resolved : Bool

/-- An incident that is resolved has the given identifier or key. -/
def namesResolved (incidents : List BlockIncident) (incidentId : String) : Bool :=
  incidents.any fun incident =>
    (incident.id = incidentId || incident.incidentKey = incidentId) && incident.resolved

def btrim (text : List Char) : List Char :=
  ((text.dropWhile (· = ' ')).reverse.dropWhile (· = ' ')).reverse

/-- `char_length(btrim(clear_remediation_summary)) BETWEEN 3 AND 2000`. -/
def fitsSummary (summary : String) : Bool :=
  3 ≤ (btrim summary.toList).length && (btrim summary.toList).length ≤ 2000

variable (row : ApplicationBlock)

/-- The row that the statement leaves of one. -/
def ApplicationBlock.cleared (applicationId : String) (clearing : BlockClearing) : ApplicationBlock :=
  if row.applicationId = applicationId ∧ row.clearing = none then
    { row with clearing := some clearing }
  else row

theorem ApplicationBlock.cleared_applicationId (applicationId : String) (clearing : BlockClearing) :
    (row.cleared applicationId clearing).applicationId = row.applicationId := by
  unfold ApplicationBlock.cleared
  split <;> rfl

/-- A row is still active exactly when it was and is not of the application. -/
theorem ApplicationBlock.cleared_active_iff (applicationId : String) (clearing : BlockClearing) :
    (row.cleared applicationId clearing).clearing = none ↔
      row.clearing = none ∧ row.applicationId ≠ applicationId := by
  unfold ApplicationBlock.cleared
  split
  · next hit => simp [hit.1]
  · next miss => grind

/-- The table with the active row of an application cleared. -/
def ApplicationBlocks.clear (blocks : ApplicationBlocks) (applicationId : String)
    (clearing : BlockClearing) : ApplicationBlocks where
  rows := blocks.rows.map fun row => row.cleared applicationId clearing
  named := by
    intro row member
    obtain ⟨old, oldMember, rfl⟩ := List.mem_map.mp member
    rw [old.cleared_applicationId]
    exact blocks.named old oldMember
  oneActive := by
    refine List.Nodup.sublist ?_ blocks.oneActive
    rw [List.filter_map, List.map_map]
    have same : ApplicationBlock.applicationId ∘ (fun row => row.cleared applicationId clearing) =
        ApplicationBlock.applicationId :=
      funext fun row => row.cleared_applicationId applicationId clearing
    rw [same]
    refine List.Sublist.map _ (List.monotone_filter_right _ fun row stays => ?_)
    have active := (row.cleared_active_iff applicationId clearing).mp (by simpa using stays)
    simpa using active.1

/-- The statement clears the row of its application and no other. -/
theorem ApplicationBlocks.active_clear_iff (blocks : ApplicationBlocks)
    (applicationId other : String) (clearing : BlockClearing) :
    (blocks.clear applicationId clearing).Active other ↔
      blocks.Active other ∧ other ≠ applicationId := by
  constructor
  · rintro ⟨row, member, rfl, active⟩
    obtain ⟨old, oldMember, rfl⟩ := List.mem_map.mp member
    have before := (old.cleared_active_iff applicationId clearing).mp active
    rw [old.cleared_applicationId]
    exact ⟨⟨old, oldMember, rfl, before.1⟩, before.2⟩
  · rintro ⟨⟨row, member, rfl, active⟩, differs⟩
    refine ⟨row.cleared applicationId clearing, List.mem_map.mpr ⟨row, member, rfl⟩, ?_, ?_⟩
    · exact row.cleared_applicationId applicationId clearing
    · exact (row.cleared_active_iff applicationId clearing).mpr ⟨active, differs⟩

/-- The statement leaves the table as it is when no row is active. -/
theorem ApplicationBlocks.clear_of_inactive (inactive : ¬ blocks.Active applicationId)
    (clearing : BlockClearing) : blocks.clear applicationId clearing = blocks := by
  have kept : ∀ row ∈ blocks.rows, row.cleared applicationId clearing = row := by
    intro row member
    unfold ApplicationBlock.cleared
    split
    · next hit => exact absurd ⟨row, member, hit⟩ inactive
    · rfl
  apply ApplicationBlocks.ext
  show blocks.rows.map _ = blocks.rows
  rw [List.map_congr_left kept, List.map_id']

/-- The name of an active row is an identifier. -/
theorem ApplicationBlocks.Active.isIdentifier (active : blocks.Active applicationId) :
    isIdentifier applicationId := by
  obtain ⟨row, member, rfl, -⟩ := active
  have named := blocks.named row member
  unfold isApplicationId at named
  unfold ControlPlane.isIdentifier
  rcases same : row.applicationId.toList with _ | ⟨first, rest⟩
  · rw [same] at named
    cases named
  · rw [same] at named
    simp only [Bool.and_eq_true, decide_eq_true_eq, List.all_eq_true] at named ⊢
    refine ⟨⟨named.1.1, by omega⟩, fun symbol inside => ?_⟩
    have allowed := named.2 symbol inside
    simp only [Bool.or_eq_true, decide_eq_true_eq] at allowed ⊢
    exact allowed.imp_right fun listed => by simp only [List.mem_cons] at listed ⊢; tauto

/-! ## The repository -/

def isUuidDigit (symbol : Char) : Bool := isHexDigit symbol.toLower

/-- `idPattern`. -/
def isUuid (text : String) : Bool :=
  text.length = 36 && text.toList.zipIdx.all fun (symbol, index) =>
    if index ∈ [8, 13, 18, 23] then symbol = '-'
    else if index = 14 then symbol = '4'
    else if index = 19 then symbol.toLower ∈ ['8', '9', 'a', 'b']
    else isUuidDigit symbol

def assertValueFreeText (text code : String) (max : Nat) : Except String Unit := do
  assertSafeText text code max
  require (!isSensitive text) "CONFIG_METADATA_SENSITIVE_TEXT"

/-- What `clearApplicationBlock` is given. -/
structure ClearBlockInput where
  applicationId : String
  actorUserId : String
  remediationSummary : String
  incidentId : String

/-- `remediationSummary.trim()`. -/
def ClearBlockInput.summary (input : ClearBlockInput) : String :=
  String.ofList (trim input.remediationSummary.toList)

/-- The checks of `clearApplicationBlock` before its statement. -/
def ClearBlockInput.check (input : ClearBlockInput) : Except String Unit := do
  require (isIdentifier input.applicationId) "CONFIG_APPLICATION_INVALID"
  require (isUuid input.actorUserId) "CONFIG_ACTOR_INVALID"
  require (isIdentifier input.incidentId) "CONFIG_INCIDENT_INVALID"
  assertValueFreeText input.summary "CONFIG_REMEDIATION_INVALID" 2000
  require (3 ≤ codeUnits input.summary) "CONFIG_REMEDIATION_INVALID"

/-- The statement of `clearApplicationBlock`, which fails when a row it sets violates the check of
the summary, and else tells whether it has set one row. -/
def ApplicationBlocks.update (blocks : ApplicationBlocks) (input : ClearBlockInput)
    (incidents : List BlockIncident) (now : Nat) : Except String (ApplicationBlocks × Bool) :=
  if namesResolved incidents input.incidentId then
    let set := blocks.activeRows input.applicationId
    if set = [] ∨ fitsSummary input.summary then
      .ok (blocks.clear input.applicationId ⟨input.actorUserId, now, input.summary⟩,
        set.length = 1)
    else .error "23514"
  else .ok (blocks, false)

def ApplicationBlocks.clearApplicationBlock (blocks : ApplicationBlocks) (input : ClearBlockInput)
    (incidents : List BlockIncident) (now : Nat) : Except String (ApplicationBlocks × Bool) := do
  input.check
  blocks.update input incidents now

/-- What the statement may write: the checks pass, the row is active, the incident is resolved and
the summary fits its column. -/
structure ClearBlockInput.Clears (input : ClearBlockInput) (blocks : ApplicationBlocks)
    (incidents : List BlockIncident) : Prop where
  checked : input.check = .ok ()
  active : blocks.Active input.applicationId
  resolved : namesResolved incidents input.incidentId = true
  fits : fitsSummary input.summary = true

/-- The repository clears the row when all is as it should be. -/
theorem ApplicationBlocks.clearApplicationBlock_of_clears {input : ClearBlockInput}
    {incidents : List BlockIncident} (clears : input.Clears blocks incidents) (now : Nat) :
    blocks.clearApplicationBlock input incidents now =
      .ok (blocks.clear input.applicationId ⟨input.actorUserId, now, input.summary⟩, true) := by
  have one := clears.active.activeRows_length
  unfold clearApplicationBlock update
  rw [clears.checked]
  simp only [clears.resolved, clears.fits, one, or_true, if_true, decide_true]
  rfl

/-- The repository leaves the table as it is in every other case, and does not say that it has
cleared a row. -/
theorem ApplicationBlocks.clearApplicationBlock_of_not_clears {blocks : ApplicationBlocks}
    {input : ClearBlockInput} {incidents : List BlockIncident}
    (kept : ¬ input.Clears blocks incidents) (now : Nat) :
    (∃ code, blocks.clearApplicationBlock input incidents now = .error code) ∨
      blocks.clearApplicationBlock input incidents now = .ok (blocks, false) := by
  unfold clearApplicationBlock
  cases checked : input.check with
  | error code => exact .inl ⟨code, rfl⟩
  | ok =>
    unfold update
    by_cases resolved : namesResolved incidents input.incidentId
    · rw [if_pos resolved]
      by_cases active : blocks.Active input.applicationId
      · by_cases fits : fitsSummary input.summary
        · exact absurd ⟨checked, active, resolved, fits⟩ kept
        · have some := (blocks.activeRows_eq_nil_iff input.applicationId).not.mpr
            (not_not.mpr active)
          exact .inl ⟨"23514", if_neg (not_or.mpr ⟨some, fits⟩)⟩
      · have none := (blocks.activeRows_eq_nil_iff input.applicationId).mpr active
        refine .inr ?_
        simp only [none, true_or, if_true, blocks.clear_of_inactive active]
        rfl
    · rw [if_neg resolved]
      exact .inr rfl

/-! ## The service -/

/-- How a call of the agent goes. -/
inductive AgentCall where
  /-- It is refused or lost before the handler runs. -/
  | unhandled (code : String)
  /-- The handler runs, and its answer is lost or comes too late. -/
  | unanswered (code : String)
  | answered

/-- The handler runs. -/
def AgentCall.handled : AgentCall → Bool
  | .unhandled _ => false
  | .unanswered _ | .answered => true

structure ClearApplyBlockRequest where
  appId : String
  remediationSummary : String
  incidentId : String

/-- One call of `clearApplyBlock`, with what it meets: the incidents and the time of its statement,
and how its call of the agent goes. -/
structure ClearAttempt where
  userId : String
  role : AgentRole
  body : ClearApplyBlockRequest
  incidents : List BlockIncident
  now : Nat
  call : AgentCall

/-- What the service gives the repository. -/
def ClearAttempt.input (attempt : ClearAttempt) : ClearBlockInput where
  applicationId := attempt.body.appId
  actorUserId := attempt.userId
  remediationSummary := attempt.body.remediationSummary
  incidentId := attempt.body.incidentId

/-- The two places in which a block is kept. -/
structure BlockStores where
  blocks : ApplicationBlocks
  agent : Runtime

variable (stores : BlockStores)

/-- `agent.clearApplyBlock`. -/
def BlockStores.callAgent (attempt : ClearAttempt) : BlockStores × Except String Unit :=
  let handled := stores.agent.clearApplyBlock attempt.body.appId attempt.role
  match attempt.call with
  | .unhandled code => (stores, .error code)
  | .unanswered code => ({ stores with agent := handled.1 }, .error code)
  | .answered =>
    ({ stores with agent := handled.1 },
      if handled.2 = .cleared then .ok () else .error "CONFIG_APPLICATION_BLOCKED")

def BlockStores.clearApplyBlock (attempt : ClearAttempt) : BlockStores × Except String Unit :=
  if attempt.role ≠ .opsOwner then (stores, .error "CONFIG_APPLICATION_BLOCKED")
  else
    match stores.blocks.clearApplicationBlock attempt.input attempt.incidents attempt.now with
    | .error code => (stores, .error code)
    | .ok (blocks, cleared) =>
      if cleared = false then ({ stores with blocks }, .error "CONFIG_CHANGE_INVALID_STATE")
      else BlockStores.callAgent { stores with blocks } attempt

/-! ## What an attempt does -/

/-- The attempt clears the row of its application. -/
structure BlockStores.Writes (stores : BlockStores) (attempt : ClearAttempt) : Prop where
  owner : attempt.role = .opsOwner
  clears : attempt.input.Clears stores.blocks attempt.incidents

/-- An attempt that clears no row changes nothing. -/
theorem BlockStores.clearApplyBlock_of_not_writes {stores : BlockStores} {attempt : ClearAttempt}
    (kept : ¬ stores.Writes attempt) : (stores.clearApplyBlock attempt).1 = stores := by
  unfold clearApplyBlock
  split
  · rfl
  · next owner =>
    have unwritten : ¬ attempt.input.Clears stores.blocks attempt.incidents :=
      fun clears => kept ⟨not_not.mp owner, clears⟩
    rcases stores.blocks.clearApplicationBlock_of_not_clears unwritten attempt.now with
      ⟨code, fails⟩ | none
    · rw [fails]
    · rw [none]
      rfl

/-- An attempt that clears the row of its application goes on to call the agent. -/
theorem BlockStores.clearApplyBlock_of_writes {stores : BlockStores} {attempt : ClearAttempt}
    (writes : stores.Writes attempt) :
    stores.clearApplyBlock attempt = BlockStores.callAgent { stores with
      blocks := stores.blocks.clear attempt.body.appId
        ⟨attempt.userId, attempt.now, attempt.input.summary⟩ } attempt := by
  unfold clearApplyBlock
  rw [if_neg (not_not.mpr writes.owner),
    ApplicationBlocks.clearApplicationBlock_of_clears writes.clears]
  rfl

theorem BlockStores.callAgent_blocks (attempt : ClearAttempt) :
    (stores.callAgent attempt).1.blocks = stores.blocks := by
  unfold callAgent
  cases attempt.call <;> rfl

/-- The agent still blocks an application exactly when it did and no owner's call about it has been
handled. -/
theorem BlockStores.mem_blocked_callAgent_iff {attempt : ClearAttempt}
    (owner : attempt.role = .opsOwner) (appId : String) :
    appId ∈ (stores.callAgent attempt).1.agent.blockedApplications ↔
      appId ∈ stores.agent.blockedApplications ∧
        ¬ (attempt.call.handled ∧ attempt.body.appId = appId) := by
  have handler : appId ∈ (stores.agent.clearApplyBlock attempt.body.appId
      attempt.role).1.blockedApplications ↔
      appId ∈ stores.agent.blockedApplications ∧ attempt.body.appId ≠ appId := by
    unfold Runtime.clearApplyBlock
    rw [owner]
    split
    · next refused =>
      have free : attempt.body.appId ∉ stores.agent.blockedApplications := by simpa using refused
      refine ⟨fun blocked => ⟨blocked, fun same => free (same ▸ blocked)⟩, And.left⟩
    · simp only [List.mem_filter, decide_eq_true_eq]
      exact and_congr_right' ne_comm
  unfold callAgent
  cases attempt.call with
  | unhandled code => simp [AgentCall.handled]
  | unanswered code => simpa [AgentCall.handled] using handler
  | answered => simpa [AgentCall.handled] using handler

/-- An application still has an active row exactly when it had one and the attempt has not cleared
it. -/
theorem BlockStores.active_clearApplyBlock_iff (attempt : ClearAttempt) (appId : String) :
    (stores.clearApplyBlock attempt).1.blocks.Active appId ↔
      stores.blocks.Active appId ∧ ¬ (stores.Writes attempt ∧ attempt.body.appId = appId) := by
  by_cases writes : stores.Writes attempt
  · rw [clearApplyBlock_of_writes writes, callAgent_blocks, ApplicationBlocks.active_clear_iff]
    refine and_congr_right' ?_
    simp only [writes, true_and]
    exact ne_comm
  · rw [clearApplyBlock_of_not_writes writes]
    simp only [writes, false_and, not_false_eq_true, and_true]

/-- The agent still blocks an application exactly when it did and no attempt that has cleared the
row has reached it. -/
theorem BlockStores.mem_blocked_clearApplyBlock_iff (attempt : ClearAttempt) (appId : String) :
    appId ∈ (stores.clearApplyBlock attempt).1.agent.blockedApplications ↔
      appId ∈ stores.agent.blockedApplications ∧
        ¬ ((stores.Writes attempt ∧ attempt.body.appId = appId) ∧
          attempt.call.handled) := by
  by_cases writes : stores.Writes attempt
  · rw [clearApplyBlock_of_writes writes, mem_blocked_callAgent_iff _ writes.owner]
    refine and_congr_right' (not_congr ?_)
    simp only [writes, true_and]
    exact and_comm
  · rw [clearApplyBlock_of_not_writes writes]
    simp only [writes, false_and, not_false_eq_true, and_true]

/-! ## All or nothing -/

def BlockStores.Clear (appId : String) : Prop :=
  ¬ stores.blocks.Active appId ∧ appId ∉ stores.agent.blockedApplications

/-- An owner makes an attempt about the application with texts that pass the checks, names a
resolved incident, and the agent handles the call. -/
structure ClearAttempt.Complete (attempt : ClearAttempt) (appId : String) : Prop where
  owner : attempt.role = .opsOwner
  about : attempt.body.appId = appId
  checked : attempt.input.check = .ok ()
  resolved : namesResolved attempt.incidents attempt.body.incidentId = true
  fits : fitsSummary attempt.input.summary = true
  handled : attempt.call.handled = true

/-- The block is recorded, and a retry can clear both sides: there is a complete one, and every
complete one does. -/
structure BlockStores.Retriable (stores : BlockStores) (appId : String) : Prop where
  recorded : stores.blocks.Active appId
  possible : ∃ retry : ClearAttempt, retry.Complete appId
  clears : ∀ retry : ClearAttempt, retry.Complete appId →
    (stores.clearApplyBlock retry).1.Clear appId

def BlockStores.AllOrNothing (appId : String) : Prop :=
  stores.Retriable appId ∨ stores.Clear appId

def BlockStores.Stranded (appId : String) : Prop :=
  ¬ stores.blocks.Active appId ∧ appId ∈ stores.agent.blockedApplications

/-- An attempt about an application whose name is an identifier, with everything in order. -/
def completeAttempt (appId : String) : ClearAttempt where
  userId := "7b3c2f6e-1a4d-4c8b-9e21-5f0d6a7b8c9d"
  role := .opsOwner
  body := ⟨appId, "Restored the sources by hand.", "inc-1"⟩
  incidents := [⟨"inc-1", "inc-1", true⟩]
  now := 0
  call := .answered

theorem completeAttempt_complete {appId : String} (named : isIdentifier appId) :
    (completeAttempt appId).Complete appId where
  owner := rfl
  about := rfl
  checked := by
    have others : { (completeAttempt "a").input with applicationId := "a" }.check = .ok () := by
      decide +kernel
    unfold ClearBlockInput.check at others ⊢
    rw [show (completeAttempt appId).input.applicationId = appId from rfl, named]
    exact others
  resolved := by
    show namesResolved (completeAttempt "a").incidents "inc-1" = true
    decide +kernel
  fits := by
    show fitsSummary (completeAttempt "a").input.summary = true
    decide +kernel
  handled := rfl

/-- Whoever has a recorded block can clear both sides. -/
theorem BlockStores.retriable_of_active {stores : BlockStores} {appId : String}
    (active : stores.blocks.Active appId) : stores.Retriable appId where
  recorded := active
  possible := ⟨_, completeAttempt_complete active.isIdentifier⟩
  clears := by
    intro retry complete
    have recorded : stores.blocks.Active retry.input.applicationId := by
      rw [show retry.input.applicationId = appId from complete.about]
      exact active
    have writes : stores.Writes retry ∧ retry.body.appId = appId :=
      ⟨⟨complete.owner, complete.checked, recorded, complete.resolved, complete.fits⟩,
        complete.about⟩
    unfold Clear
    rw [active_clearApplyBlock_iff, mem_blocked_clearApplyBlock_iff]
    exact ⟨fun still => still.2 writes, fun still => still.2 ⟨writes, complete.handled⟩⟩

/-- All is there or gone exactly when the agent is not left alone with its block. -/
theorem BlockStores.allOrNothing_iff (appId : String) :
    stores.AllOrNothing appId ↔ ¬ stores.Stranded appId := by
  constructor
  · rintro (retriable | clear) stranded
    · exact stranded.1 retriable.recorded
    · exact clear.2 stranded.2
  · intro held
    by_cases active : stores.blocks.Active appId
    · exact .inl (retriable_of_active active)
    · exact .inr ⟨active, fun blocked => held ⟨active, blocked⟩⟩

instance (stores : BlockStores) (appId : String) : Decidable (stores.Stranded appId) := by
  unfold BlockStores.Stranded; infer_instance

/-- An attempt about another application leaves an agent that is not alone with its block so, and so
does one that clears no row; one that clears the row does when the agent handles its call or had no
block. -/
theorem BlockStores.not_stranded_clearApplyBlock_iff {stores : BlockStores} {appId : String}
    (held : ¬ stores.Stranded appId) (attempt : ClearAttempt) :
    ¬ (stores.clearApplyBlock attempt).1.Stranded appId ↔
      (stores.Writes attempt → attempt.body.appId = appId →
        attempt.call.handled ∨ appId ∉ stores.agent.blockedApplications) := by
  unfold Stranded at held ⊢
  rw [active_clearApplyBlock_iff, mem_blocked_clearApplyBlock_iff]
  tauto

/-- Every state of a run of attempts has the block of an application all there, with a retry that
clears it, or all gone, exactly when the agent does not start alone with its block and handles the
call of every attempt that clears the row while it has the block. -/
theorem BlockStores.throughout_allOrNothing_iff (start : BlockStores) (appId : String)
    (attempts : List ClearAttempt) :
    Machine.Throughout BlockStores.clearApplyBlock (fun stores => stores.AllOrNothing appId)
        start attempts ↔
      ¬ start.Stranded appId ∧
        Machine.Along BlockStores.clearApplyBlock (fun stores attempt =>
          stores.Writes attempt → attempt.body.appId = appId →
            attempt.call.handled = true ∨ appId ∉ stores.agent.blockedApplications)
          start attempts := by
  have same : (fun stores : BlockStores => stores.AllOrNothing appId) =
      fun stores => ¬ stores.Stranded appId :=
    funext fun stores => propext (stores.allOrNothing_iff appId)
  rw [same]
  have kept : ∀ (stores : BlockStores) (attempt : ClearAttempt), True →
      True := fun _ _ _ => trivial
  exact Machine.throughout_iff kept
    (fun stores attempt _ held => BlockStores.not_stranded_clearApplyBlock_iff held attempt)
    trivial attempts

/-- An application that both sides block. -/
def blockedShop : BlockStores where
  blocks := ⟨[⟨"shop", none⟩], by decide, by decide⟩
  agent := { Runtime.blank [] with blockedApplications := ["shop"], up := true }

/-- The block of an application that both sides have is recorded and can be cleared; when the agent
is not reached in the first attempt, it is neither there with a retry nor gone. -/
theorem blockedShop_stranded :
    blockedShop.AllOrNothing "shop" ∧
      ¬ (blockedShop.clearApplyBlock
        { completeAttempt "shop" with call := .unhandled "AGENT_READ_TIMEOUT" }).1.AllOrNothing
          "shop" := by
  rw [BlockStores.allOrNothing_iff, BlockStores.allOrNothing_iff]
  decide +kernel

end NancyMan.ControlPlane
