import Mathlib.Data.List.Nodup
import NancyMan.Auth.StepUpCalls

/-!
# One live grant for each purpose

A call of `grant` revokes the live grants for its purpose in one statement and inserts its own in
another. Two calls for one purpose that both revoke before either inserts leave two live grants. There
is at most one live grant for each purpose in exactly the runs in which no call inserts a live grant
after another call has inserted one that is still live since its own revocation. A grant that is not
reusable never authorises more than one operation.
-/
namespace NancyMan.Auth

open StepUpTable StepUpGrant StepUps
open List (append_nil mem_append mem_map mem_singleton not_mem_nil)

def StepUpTable.countLive (table : StepUpTable) (key : StepUpKey) (now : Int) : Nat :=
  table.countP fun grant => grant.key == key && grant.isLive now

namespace StepUps

def OneLive (stepUps : StepUps) : Prop := ∀ key, stepUps.table.countLive key stepUps.now ≤ 1

/-- A grant of a capability that is not reusable has authorised at most one operation. -/
def OnceAuthorised (stepUps : StepUps) : Prop :=
  ∀ grant ∈ stepUps.table, (policies grant.capability).reusable = false →
    stepUps.authorised.count grant.id ≤ 1

/-- A step that inserts a live grant finds none that is live and was inserted for the same purpose
after its call had revoked the older ones. -/
def Unraced (stepUps : StepUps) (action : StepUpStep) : Prop :=
  match action.move with
  | .advance call _ =>
    match stepUps.calls call with
    | .replaced grant rows =>
      (stepUps.table.insert grant).isSome = true →
        grant.isLive (stepUps.now + action.elapsed) = true →
        ∀ other ∈ stepUps.table.drop rows, other.key = grant.key →
          ¬ other.isLive (stepUps.now + action.elapsed) = true
    | _ => True
  | _ => True

/-! ## Counting -/

/-- The rows of a table that is updated are live no more often. -/
theorem countLive_updates {table later : StepUpTable} (updates : table.Updates later)
    (key : StepUpKey) {now after : Int} (passed : now ≤ after) :
    later.countLive key after ≤ table.countLive key now := by
  obtain ⟨change, rfl, becomes⟩ := updates
  unfold countLive
  rw [List.countP_map]
  refine List.countP_mono_left fun grant _ counted => ?_
  simp only [Function.comp, Bool.and_eq_true, beq_iff_eq] at counted ⊢
  exact ⟨(becomes grant).key.symm.trans counted.1, (becomes grant).live passed counted.2⟩

theorem countLive_snoc (table : StepUpTable) (grant : StepUpGrant) (key : StepUpKey) (now : Int) :
    countLive (table ++ [grant]) key now =
      table.countLive key now + if grant.key = key ∧ grant.isLive now then 1 else 0 := by
  unfold countLive
  rw [List.countP_append, List.countP_singleton]
  simp only [Bool.and_eq_true, beq_iff_eq]

theorem countLive_eq_zero_iff (table : StepUpTable) (key : StepUpKey) (now : Int) :
    table.countLive key now = 0 ↔ ∀ grant ∈ table, grant.key = key → ¬ grant.isLive now := by
  unfold countLive
  rw [List.countP_eq_zero]
  simp only [Bool.and_eq_true, beq_iff_eq, not_and]

/-! ## What a call has revoked -/

/-- A call that has revoked the grants for its purpose: of the rows that were there then none for
that purpose is live. -/
def Replaced (table : StepUpTable) (now : Int) : GrantPhase → Prop
  | .replaced grant rows => rows ≤ table.length ∧
      ∀ other ∈ table.take rows, other.key = grant.key → ¬ other.isLive now = true
  | _ => True

def AllReplaced (stepUps : StepUps) : Prop :=
  ∀ call, Replaced stepUps.table stepUps.now (stepUps.calls call)

/-- An update leaves revoked what a call has revoked. -/
theorem Replaced.of_updates {table later : StepUpTable} {now after : Int} {phase : GrantPhase}
    (replaced : Replaced table now phase) (updates : table.Updates later) (passed : now ≤ after) :
    Replaced later after phase := by
  cases phase with
  | replaced grant rows =>
    obtain ⟨within, dead⟩ := replaced
    have length : later.length = table.length := by
      obtain ⟨change, rfl, -⟩ := updates
      exact List.length_map _
    refine ⟨by omega, fun other member same => ?_⟩
    obtain ⟨earlier, held, becomes⟩ := (updates.take rows).exists_of_mem member
    exact fun live => dead earlier held (becomes.key.symm.trans same) (becomes.live passed live)
  | _ => trivial

/-- One more row leaves revoked what a call has revoked. -/
theorem Replaced.snoc {table : StepUpTable} {now : Int} {phase : GrantPhase}
    (replaced : Replaced table now phase) (grant : StepUpGrant) :
    Replaced (table ++ [grant]) now phase := by
  cases phase with
  | replaced own rows =>
    obtain ⟨within, dead⟩ := replaced
    refine ⟨?_, ?_⟩
    · rw [List.length_append]
      omega
    · rw [List.take_append_of_le_length within]
      exact dead
  | _ => trivial

variable {stepUps : StepUps}

/-- A call that enters a phase of which this is true leaves it true of all. -/
theorem AllReplaced.enter (all : stepUps.AllReplaced) (call : Nat) {phase : GrantPhase}
    (replaced : Replaced stepUps.table stepUps.now phase) :
    (stepUps.enter call phase).AllReplaced := by
  intro other
  by_cases same : other = call
  · subst same
    have entered : (stepUps.enter other phase).calls other = phase := Function.update_self ..
    rw [entered]
    exact replaced
  · have kept : (stepUps.enter call phase).calls other = stepUps.calls other :=
      Function.update_of_ne same ..
    rw [kept]
    exact all other

theorem AllReplaced.of_updates (all : stepUps.AllReplaced) {table : StepUpTable}
    (updates : stepUps.table.Updates table) : { stepUps with table := table }.AllReplaced :=
  fun call => (all call).of_updates updates (Int.le_refl _)

theorem AllReplaced.wait (all : stepUps.AllReplaced) (elapsed : Nat) :
    (stepUps.wait elapsed).AllReplaced :=
  fun call => (all call).of_updates (.refl _) (by show stepUps.now ≤ stepUps.now + elapsed; omega)

/-! ## What a move does to the table -/

/-- The table after a move, other than the insertion of a grant. -/
theorem insert_eq_some {table later : StepUpTable} {grant : StepUpGrant}
    (inserted : table.insert grant = some later) :
    later = table ++ [{ grant with auditCompletedAt := none }] ∧
      ∀ other ∈ table, other.id ≠ grant.id := by
  unfold StepUpTable.insert at inserted
  split at inserted
  · cases inserted
  · next passes =>
    simp only [Bool.or_eq_true, List.any_eq_true, beq_iff_eq, not_or, not_exists, not_and]
      at passes
    exact ⟨(Option.some.inj inserted).symm, passes.1⟩

/-- The move that inserts a grant, and the grant. -/
def insertion (stepUps : StepUps) : StepUpMove → Option StepUpGrant
  | .advance call _ =>
    match stepUps.calls call with
    | .replaced grant _ => if (stepUps.table.insert grant).isSome then some grant else none
    | _ => none
  | _ => none

/-- Whether a move is of a call of `grant`. -/
def isOfGrant : StepUpMove → Bool
  | .grant .. => true
  | .advance .. => true
  | .fail _ => true
  | _ => false

/-- The other moves update the table, and leave the calls of `grant` and the time as they are. -/
theorem frame_act {move : StepUpMove} (other : isOfGrant move = false) :
    stepUps.table.Updates (stepUps.act move).table ∧
      (stepUps.act move).calls = stepUps.calls ∧ (stepUps.act move).now = stepUps.now := by
  cases move with
  | grant call input => cases other
  | advance call answers => cases other
  | fail call => cases other
  | authorize binding serviceNow =>
    unfold act authorize
    dsimp only
    split
    · exact ⟨updates_updateWhere _ (becomes_use _), rfl, rfl⟩
    · exact ⟨.refl _, rfl, rfl⟩
  | consume binding =>
    unfold act consume
    dsimp only
    split
    · exact ⟨updates_updateWhere _ (becomes_consume _), rfl, rfl⟩
    · exact ⟨.refl _, rfl, rfl⟩
  | authorizeDatabasePii binding serviceNow =>
    unfold act authorizeDatabasePii
    dsimp only
    split
    · exact ⟨updates_updateWhere _ (becomes_use _), rfl, rfl⟩
    · exact ⟨.refl _, rfl, rfl⟩
  | activateDatabasePiiGrant grantId binding =>
    unfold act
    dsimp only
    split
    · exact ⟨updates_updateWhere _ (becomes_completeAudit _), rfl, rfl⟩
    · exact ⟨.refl _, rfl, rfl⟩
  | _ =>
    unfold act
    dsimp only
    split
    · exact ⟨updates_updateWhere _ (becomes_revoke _), rfl, rfl⟩
    · exact ⟨.refl _, rfl, rfl⟩

/-- A move that inserts no grant updates the table. -/
theorem updates_of_no_insertion {move : StepUpMove}
    (none_inserted : stepUps.insertion move = none) :
    stepUps.table.Updates (stepUps.act move).table := by
  cases move with
  | grant call input =>
    unfold act
    dsimp only
    split
    · split <;> exact .refl _
    · exact .refl _
  | advance call answers =>
    unfold insertion at none_inserted
    unfold act advance
    dsimp only
    cases phase : stepUps.calls call with
    | replaced grant rows =>
      dsimp only at none_inserted ⊢
      rw [phase] at none_inserted
      dsimp only at none_inserted
      unfold StepUps.insert
      cases inserted : stepUps.table.insert grant with
      | none => exact .refl _
      | some later => rw [inserted] at none_inserted; cases none_inserted
    | limited input grantedAt expiresAt =>
      exact updates_updateWhere _ (becomes_revoke _)
    | _ => exact .refl _
  | fail call => exact .refl _
  | _ => exact (frame_act rfl).1

/-- A move that inserts a grant adds its row. -/
theorem table_of_insertion {move : StepUpMove} {grant : StepUpGrant}
    (inserted : stepUps.insertion move = some grant) :
    (stepUps.act move).table = stepUps.table ++ [{ grant with auditCompletedAt := none }] ∧
      (∀ other ∈ stepUps.table, other.id ≠ grant.id) ∧
      (stepUps.act move).authorised = stepUps.authorised ∧
      ∃ call answers rows, move = .advance call answers ∧
        stepUps.calls call = .replaced grant rows := by
  cases move with
  | advance call answers =>
    unfold insertion at inserted
    dsimp only at inserted
    cases phase : stepUps.calls call with
    | replaced own rows =>
      rw [phase] at inserted
      dsimp only at inserted
      cases made : stepUps.table.insert own with
      | none => rw [made] at inserted; cases inserted
      | some later =>
        rw [made] at inserted
        obtain rfl : own = grant := Option.some.inj inserted
        obtain ⟨rfl, fresh⟩ := insert_eq_some made
        unfold act advance
        dsimp only
        rw [phase]
        dsimp only
        unfold StepUps.insert
        rw [made]
        exact ⟨rfl, fresh, rfl, call, answers, rows, rfl, phase⟩
    | _ => rw [phase] at inserted; cases inserted
  | _ => cases inserted

theorem AllReplaced.congr {later : StepUps} (all : stepUps.AllReplaced)
    (calls : later.calls = stepUps.calls) (now : later.now = stepUps.now)
    (updates : stepUps.table.Updates later.table) : later.AllReplaced := by
  intro call
  rw [calls]
  exact (all call).of_updates updates (Int.le_of_eq now.symm)

/-- Every call has still revoked what it says after a move. -/
theorem AllReplaced.act (all : stepUps.AllReplaced) (move : StepUpMove) :
    (stepUps.act move).AllReplaced := by
  cases move with
  | grant call input =>
    unfold StepUps.act
    dsimp only
    split
    · split
      · exact all.enter call trivial
      · exact all
    · exact all
  | advance call answers =>
    unfold StepUps.act StepUps.advance
    dsimp only
    cases stepUps.calls call with
    | idle => exact all
    | begun input =>
      refine all.enter call ?_
      split <;> trivial
    | verified input grantedAt =>
      refine all.enter call ?_
      unfold GrantInput.limit
      split
      · trivial
      · dsimp only
        split <;> trivial
    | limited input grantedAt expiresAt =>
      have updates : stepUps.table.Updates (stepUps.table.replaceOlder input.key stepUps.now) :=
        updates_updateWhere _ (becomes_revoke _)
      refine (all.of_updates updates).enter call ⟨?_, fun other member same => ?_⟩
      · exact Nat.le_of_eq (List.length_map _).symm
      · exact not_live_replaceOlder input.key stepUps.now stepUps.now other
          (List.mem_of_mem_take member) same
    | replaced grant rows =>
      dsimp only
      unfold StepUps.insert
      cases inserted : stepUps.table.insert grant with
      | none => exact all.enter call trivial
      | some later =>
        obtain ⟨rfl, -⟩ := insert_eq_some inserted
        have snoc : AllReplaced { stepUps with
            table := stepUps.table ++ [{ grant with auditCompletedAt := none }] } :=
          fun other => (all other).snoc _
        exact snoc.enter call trivial
  | fail call => exact all.enter call trivial
  | _ => exact all.congr (frame_act rfl).2.1 (frame_act rfl).2.2 (frame_act rfl).1

/-! ## What was authorised -/

/-- The rows have identifiers of their own and the policy of their capability, and a grant that is
not reusable is consumed once it has authorised an operation. -/
structure Accounted (stepUps : StepUps) : Prop where
  distinct : (stepUps.table.map StepUpGrant.id).Nodup
  policy : ∀ grant ∈ stepUps.table, grant.reusable = (policies grant.capability).reusable
  offered : ∀ call grant rows, stepUps.calls call = .replaced grant rows →
    grant.reusable = (policies grant.capability).reusable
  known : ∀ id ∈ stepUps.authorised, id ∈ stepUps.table.map StepUpGrant.id
  once : ∀ grant ∈ stepUps.table, grant.reusable = false → stepUps.authorised.count grant.id ≤ 1
  spent : ∀ grant ∈ stepUps.table, grant.reusable = false → grant.id ∈ stepUps.authorised →
    grant.consumedAt.isSome = true

variable (accounted : stepUps.Accounted)

include accounted

/-- Accounts stay right when the table is updated. -/
theorem Accounted.of_updates {later : StepUps} (updates : stepUps.table.Updates later.table)
    (authorised : later.authorised = stepUps.authorised)
    (offered : ∀ call grant rows, later.calls call = .replaced grant rows →
      grant.reusable = (policies grant.capability).reusable) : later.Accounted := by
  refine ⟨?_, fun grant member => ?_, offered, fun id member => ?_, fun grant member single => ?_,
    fun grant member single used => ?_⟩
  · rw [updates.map_id]
    exact accounted.distinct
  · obtain ⟨earlier, held, becomes⟩ := updates.exists_of_mem member
    rw [becomes.reusable, becomes.capability]
    exact accounted.policy earlier held
  · rw [updates.map_id]
    exact accounted.known id (authorised ▸ member)
  · obtain ⟨earlier, held, becomes⟩ := updates.exists_of_mem member
    rw [authorised, becomes.id]
    exact accounted.once earlier held (becomes.reusable.symm.trans single)
  · obtain ⟨earlier, held, becomes⟩ := updates.exists_of_mem member
    rw [authorised, becomes.id] at used
    exact becomes.consumed (accounted.spent earlier held (becomes.reusable.symm.trans single) used)

/-- Accounts stay right when a grant authorises an operation that is reusable, or was just consumed
for the first time. -/
theorem Accounted.log {grant : StepUpGrant} (member : grant ∈ stepUps.table)
    (first : grant.reusable = false → grant.id ∉ stepUps.authorised ∧ grant.consumedAt.isSome) :
    { stepUps with authorised := stepUps.authorised ++ [grant.id] }.Accounted := by
  have unique : ∀ other ∈ stepUps.table, grant.id = other.id → other = grant :=
    fun other held same => List.inj_on_of_nodup_map accounted.distinct held member same.symm
  refine ⟨accounted.distinct, accounted.policy, accounted.offered, fun id logged => ?_,
    fun other held single => ?_, fun other held single used => ?_⟩
  · rcases mem_append.mp logged with logged | logged
    · exact accounted.known id logged
    · rw [mem_singleton.mp logged]
      exact List.mem_map_of_mem member
  · show (stepUps.authorised ++ [grant.id]).count other.id ≤ 1
    rw [List.count_append, List.count_singleton]
    by_cases same : grant.id = other.id
    · obtain rfl := unique other held same
      have fresh : stepUps.authorised.count other.id = 0 := List.count_eq_zero.mpr (first single).1
      rw [if_pos (beq_self_eq_true _)]
      omega
    · rw [if_neg (by simpa using same)]
      exact accounted.once other held single
  · rcases mem_append.mp used with used | used
    · exact accounted.spent other held single used
    · obtain rfl := unique other held (mem_singleton.mp used).symm
      exact (first single).2

/-- Accounts stay right when a grant is inserted. -/
theorem Accounted.insertion {later : StepUps} {grant : StepUpGrant}
    (table : later.table = stepUps.table ++ [grant])
    (fresh : ∀ other ∈ stepUps.table, other.id ≠ grant.id)
    (policy : grant.reusable = (policies grant.capability).reusable)
    (authorised : later.authorised = stepUps.authorised)
    (offered : ∀ call grant rows, later.calls call = .replaced grant rows →
      grant.reusable = (policies grant.capability).reusable) : later.Accounted := by
  have unused : grant.id ∉ stepUps.authorised := fun used => by
    obtain ⟨other, held, same⟩ := mem_map.mp (accounted.known grant.id used)
    exact fresh other held same
  refine ⟨?_, fun other member => ?_, offered, fun id member => ?_, fun other member single => ?_,
    fun other member single used => ?_⟩
  · rw [table, List.map_append, List.map_singleton]
    refine List.Nodup.append accounted.distinct (List.nodup_singleton _) fun id held last => ?_
    obtain ⟨other, present, rfl⟩ := mem_map.mp held
    exact fresh other present (mem_singleton.mp last)
  · rw [table] at member
    rcases mem_append.mp member with member | member
    · exact accounted.policy other member
    · rw [mem_singleton.mp member]
      exact policy
  · rw [table, List.map_append]
    exact List.mem_append_left _ (accounted.known id (authorised ▸ member))
  · rw [table] at member
    rw [authorised]
    rcases mem_append.mp member with member | member
    · exact accounted.once other member single
    · rw [mem_singleton.mp member, List.count_eq_zero.mpr unused]
      exact Nat.zero_le 1
  · rw [table] at member
    rw [authorised] at used
    rcases mem_append.mp member with member | member
    · exact accounted.spent other member single used
    · rw [mem_singleton.mp member] at used
      exact absurd used unused

/-- Accounts stay right when a call enters a phase in which it offers no other grant. -/
theorem Accounted.enter (call : Nat) {phase : GrantPhase}
    (offered : ∀ grant rows, phase = .replaced grant rows →
      grant.reusable = (policies grant.capability).reusable) :
    (stepUps.enter call phase).Accounted := by
  refine accounted.of_updates (.refl _) rfl fun other grant rows found => ?_
  by_cases same : other = call
  · subst same
    have entered : (stepUps.enter other phase).calls other = phase := Function.update_self ..
    exact offered grant rows (entered.symm.trans found)
  · have kept : (stepUps.enter call phase).calls other = stepUps.calls other :=
      Function.update_of_ne same ..
    exact accounted.offered other grant rows (kept.symm.trans found)

/-- Accounts stay right when a row that a lookup returns authorises an operation, where it is
reusable. -/
theorem Accounted.lookup {table : StepUpTable} (updates : stepUps.table.Updates table)
    {answer : Option StepUpGrant}
    (found : ∀ grant, answer = some grant → ∃ row ∈ table, row.id = grant.id ∧ row.reusable) :
    (stepUps.log table answer).Accounted := by
  have updated : Accounted { stepUps with table := table } :=
    accounted.of_updates updates rfl accounted.offered
  cases answer with
  | none =>
    show Accounted { stepUps with table := table, authorised := stepUps.authorised ++ [] }
    rw [append_nil]
    exact updated
  | some grant =>
    obtain ⟨row, member, same, reusable⟩ := found grant rfl
    have logged := updated.log member fun single => by rw [reusable] at single; cases single
    rw [same] at logged
    exact logged

omit accounted in
/-- A row that an update returns is one of the table after it. -/
theorem exists_of_returning {table : StepUpTable} {selects : StepUpGrant → Bool}
    {change : StepUpGrant → StepUpGrant} {grant : StepUpGrant}
    (returned : (table.returning selects change).head? = some grant) :
    grant ∈ table.updateWhere selects change ∧ ∃ row ∈ table, selects row ∧
      grant = change row := by
  have member := List.mem_of_head? returned
  obtain ⟨row, kept, rfl⟩ := mem_map.mp member
  obtain ⟨held, selected⟩ := List.mem_filter.mp kept
  refine ⟨mem_map.mpr ⟨row, held, ?_⟩, row, held, selected, rfl⟩
  rw [if_pos selected]

/-- Accounts stay right when a grant is consumed. -/
theorem Accounted.consume (binding : StepUpBinding) :
    Accounted { stepUps with
      table := (stepUps.table.consume binding stepUps.now).1
      authorised := stepUps.authorised ++
        if (stepUps.table.consume binding stepUps.now).2 then [binding.grantId] else [] } := by
  have updates : stepUps.table.Updates (stepUps.table.consume binding stepUps.now).1 :=
    updates_updateWhere _ (becomes_consume _)
  have updated : Accounted { stepUps with
      table := (stepUps.table.consume binding stepUps.now).1 } :=
    accounted.of_updates updates rfl accounted.offered
  cases consumed : (stepUps.table.consume binding stepUps.now).2 with
  | false =>
    simp only [Bool.false_eq_true, if_false, append_nil]
    exact updated
  | true =>
    obtain ⟨grant, held, selected⟩ := List.any_eq_true.mp consumed
    have named : grant.id = binding.grantId := by
      simp only [consumes, isBound, isOf, Bool.and_eq_true,
        beq_iff_eq] at selected
      exact selected.1.1.1.1.1.1.1.1
    have unconsumed : grant.consumedAt = none := by
      simp only [consumes, isLive, isOpen, Bool.and_eq_true,
        Option.isNone_iff_eq_none] at selected
      exact selected.1.2.1.2
    have member : grant.consume stepUps.now ∈ (stepUps.table.consume binding stepUps.now).1 := by
      refine mem_map.mpr ⟨grant, held, ?_⟩
      rw [if_pos selected]
    have logged := updated.log member fun single => by
      refine ⟨fun used => ?_, rfl⟩
      have earlier := accounted.spent grant held single used
      rw [unconsumed] at earlier
      cases earlier
    rw [← named]
    exact logged

theorem Accounted.of_move {move : StepUpMove}
    (frame : (stepUps.act move).authorised = stepUps.authorised) (other : isOfGrant move = false)
    (none_inserted : stepUps.insertion move = none) : (stepUps.act move).Accounted := by
  refine accounted.of_updates (updates_of_no_insertion none_inserted) frame ?_
  rw [(frame_act other).2.1]
  exact accounted.offered

/-- Accounts stay right after a move. -/
theorem Accounted.act (move : StepUpMove) : (stepUps.act move).Accounted := by
  cases move with
  | grant call input =>
    unfold StepUps.act
    dsimp only
    split
    · split
      · exact accounted.enter call fun grant rows other => by cases other
      · exact accounted
    · exact accounted
  | advance call answers =>
    unfold StepUps.act StepUps.advance
    dsimp only
    cases phase : stepUps.calls call with
    | idle => exact accounted
    | begun input =>
      refine accounted.enter call fun grant rows other => ?_
      split at other <;> cases other
    | verified input grantedAt =>
      refine accounted.enter call fun grant rows other => ?_
      unfold GrantInput.limit at other
      split at other
      · cases other
      · dsimp only at other
        split at other <;> cases other
    | limited input grantedAt expiresAt =>
      have updates : stepUps.table.Updates (stepUps.table.replaceOlder input.key stepUps.now) :=
        updates_updateWhere _ (becomes_revoke _)
      have updated : Accounted { stepUps with
          table := stepUps.table.replaceOlder input.key stepUps.now } :=
        accounted.of_updates updates rfl accounted.offered
      refine updated.enter call fun grant rows other => ?_
      obtain ⟨rfl, -⟩ := GrantPhase.replaced.inj other
      rfl
    | replaced grant rows =>
      dsimp only
      unfold StepUps.insert
      cases inserted : stepUps.table.insert grant with
      | none => exact accounted.enter call fun grant rows other => by cases other
      | some later =>
        obtain ⟨rfl, fresh⟩ := insert_eq_some inserted
        have added : Accounted { stepUps with
            table := stepUps.table ++ [{ grant with auditCompletedAt := none }] } :=
          accounted.insertion rfl fresh (accounted.offered call grant rows phase) rfl
            accounted.offered
        exact added.enter call fun grant rows other => by cases other
  | fail call => exact accounted.enter call fun grant rows other => by cases other
  | authorize binding serviceNow =>
    unfold StepUps.act StepUps.authorize
    dsimp only
    split
    · refine accounted.lookup (updates_updateWhere _ (becomes_use _)) fun grant found => ?_
      obtain ⟨returned, accepted⟩ := Option.filter_eq_some_iff.mp found
      obtain ⟨row, head, rfl⟩ := Option.map_eq_some_iff.mp returned
      obtain ⟨member, -⟩ := exists_of_returning head
      refine ⟨row, member, rfl, ?_⟩
      have updated : Accounted { stepUps with
          table := (stepUps.table.authorize binding stepUps.now).1 } :=
        accounted.of_updates (updates_updateWhere _ (becomes_use _)) rfl
          accounted.offered
      rw [updated.policy row member]
      simp only [StepUpBinding.accepts, Bool.and_eq_true, Bool.or_eq_true, beq_iff_eq] at accepted
      rcases accepted.1.1.1.2 with capability | capability <;> rw [capability] <;> rfl
    · exact accounted
  | consume binding =>
    unfold StepUps.act StepUps.consume
    dsimp only
    split
    · exact accounted.consume binding
    · exact accounted
  | authorizeDatabasePii binding serviceNow =>
    unfold StepUps.act StepUps.authorizeDatabasePii
    dsimp only
    split
    · refine accounted.lookup (updates_updateWhere _ (becomes_use _)) fun grant found => ?_
      obtain ⟨head, accepted⟩ := Option.filter_eq_some_iff.mp found
      obtain ⟨member, -⟩ := exists_of_returning head
      simp only [DatabasePiiBinding.accepts, Bool.and_eq_true] at accepted
      exact ⟨grant, member, rfl, accepted.1.1.1.2⟩
    · exact accounted
  | _ =>
    refine accounted.of_move ?_ rfl rfl
    unfold StepUps.act
    dsimp only
    split <;> rfl

theorem Accounted.onceAuthorised : stepUps.OnceAuthorised := by
  intro grant member single
  exact accounted.once grant member ((accounted.policy grant member).trans single)

omit accounted

/-! ## One step -/

/-- A move takes no time. -/
theorem now_act (stepUps : StepUps) (move : StepUpMove) : (stepUps.act move).now = stepUps.now := by
  cases move with
  | grant call input =>
    unfold act
    dsimp only
    split
    · split <;> rfl
    · rfl
  | advance call answers =>
    unfold act advance
    dsimp only
    cases stepUps.calls call with
    | replaced grant rows =>
      dsimp only
      unfold StepUps.insert
      split <;> rfl
    | _ => rfl
  | fail call => rfl
  | _ => exact (frame_act rfl).2.2

/-- A grant that is inserted leaves at most one live for each purpose exactly when it is dead, or none
for its purpose is live. -/
theorem oneLive_snoc_iff {table : StepUpTable} {now : Int} (one : ∀ key, table.countLive key now ≤ 1)
    (grant : StepUpGrant) :
    (∀ key, countLive (table ++ [grant]) key now ≤ 1) ↔
      (grant.isLive now → table.countLive grant.key now = 0) := by
  constructor
  · intro all live
    have both := all grant.key
    rw [countLive_snoc, if_pos ⟨rfl, live⟩] at both
    omega
  · intro alone key
    rw [countLive_snoc]
    by_cases counted : grant.key = key ∧ grant.isLive now
    · have zero := alone counted.2
      rw [counted.1] at zero
      rw [if_pos counted]
      omega
    · rw [if_neg counted]
      exact one key

/-- Among rows the first of which are dead, none for a purpose is live exactly when none of the
others is. -/
theorem countLive_eq_zero_iff_drop {table : StepUpTable} {now : Int} {key : StepUpKey} {rows : Nat}
    (dead : ∀ other ∈ table.take rows, other.key = key → ¬ other.isLive now) :
    table.countLive key now = 0 ↔
      ∀ other ∈ table.drop rows, other.key = key → ¬ other.isLive now := by
  rw [countLive_eq_zero_iff]
  constructor
  · exact fun none_live other member => none_live other (List.mem_of_mem_drop member)
  · intro rest other member
    rw [← List.take_append_drop rows table] at member
    exact (mem_append.mp member).elim (dead other) (rest other)

/-- A step leaves at most one grant live for each purpose exactly when no other call has overtaken
it. -/
theorem oneLive_step_iff (all : stepUps.AllReplaced) (one : stepUps.OneLive) (action : StepUpStep) :
    (stepUps.step action).1.OneLive ↔ stepUps.Unraced action := by
  have waited : (stepUps.wait action.elapsed).AllReplaced := all.wait action.elapsed
  have still : (stepUps.wait action.elapsed).OneLive := fun key =>
    Nat.le_trans (countLive_updates (.refl _) key
      (by show stepUps.now ≤ stepUps.now + action.elapsed; omega)) (one key)
  show (∀ key, ((stepUps.wait action.elapsed).act action.move).table.countLive key
    ((stepUps.wait action.elapsed).act action.move).now ≤ 1) ↔ stepUps.Unraced action
  rw [now_act]
  cases inserts : (stepUps.wait action.elapsed).insertion action.move with
  | none =>
    refine iff_of_true (fun key => ?_) ?_
    · exact Nat.le_trans (countLive_updates (updates_of_no_insertion inserts) key (Int.le_refl _))
        (still key)
    · unfold Unraced
      split
      · next call answers moved =>
        split
        · next grant rows phase =>
          intro inserted
          rw [moved] at inserts
          change (match stepUps.calls call with
            | .replaced grant _ => if (stepUps.table.insert grant).isSome then some grant else none
            | _ => none) = none at inserts
          rw [phase] at inserts
          dsimp only at inserts
          rw [if_pos inserted] at inserts
          cases inserts
        · trivial
      · trivial
  | some grant =>
    obtain ⟨table, fresh, -, call, answers, rows, moved, phase⟩ := table_of_insertion inserts
    have dead := (waited call)
    rw [phase] at dead
    have inserted : (stepUps.table.insert grant).isSome := by
      rw [moved] at inserts
      change (match stepUps.calls call with
        | .replaced grant _ => if (stepUps.table.insert grant).isSome then some grant else none
        | _ => none) = some grant at inserts
      change stepUps.calls call = _ at phase
      rw [phase] at inserts
      dsimp only at inserts
      split at inserts
      · next made => exact made
      · cases inserts
    rw [table, oneLive_snoc_iff still]
    unfold Unraced
    rw [moved]
    change _ ↔ (match stepUps.calls call with
      | .replaced grant rows => (stepUps.table.insert grant).isSome = true →
          grant.isLive (stepUps.now + action.elapsed) = true →
          ∀ other ∈ stepUps.table.drop rows, other.key = grant.key →
            ¬ other.isLive (stepUps.now + action.elapsed) = true
      | _ => True)
    change stepUps.calls call = _ at phase
    rw [phase]
    dsimp only
    rw [forall_prop_of_true inserted]
    exact forall_congr' fun live => countLive_eq_zero_iff_drop dead.2

theorem table_step (stepUps : StepUps) (action : StepUpStep) : ∃ kept added,
    (stepUps.step action).1.table = kept ++ added ∧ stepUps.table.Updates kept := by
  cases inserts : (stepUps.wait action.elapsed).insertion action.move with
  | none => exact ⟨_, [], (append_nil _).symm, updates_of_no_insertion inserts⟩
  | some grant => exact ⟨_, _, (table_of_insertion inserts).1, .refl _⟩

/-- No run deletes a grant, gives it another owner, purpose or expiry, or revives a dead one. -/
theorem grants_final (stepUps : StepUps) (steps : List StepUpStep) :
    let later := Machine.after step stepUps steps
    ∃ change added, later.table = stepUps.table.map change ++ added ∧
      ∀ grant : StepUpGrant, grant.Becomes (change grant) ∧
        ((change grant).isLive later.now → grant.isLive stepUps.now) := by
  induction steps generalizing stepUps with
  | nil => exact ⟨id, [], by simp [Machine.after], fun grant => ⟨.refl grant, id⟩⟩
  | cons action rest ih =>
    obtain ⟨_, added, table, first, rfl, becomes⟩ := table_step stepUps action
    obtain ⟨second, more, later, finals⟩ := ih (stepUps.step action).1
    refine ⟨second ∘ first, added.map second ++ more, ?_, fun grant => ?_⟩
    · rw [table, List.map_append, List.map_map, List.append_assoc] at later
      exact later
    · obtain ⟨final, live⟩ := finals (first grant)
      refine ⟨(becomes grant).trans final, fun lives => (becomes grant).live ?_ (live lives)⟩
      show stepUps.now ≤ ((stepUps.wait action.elapsed).act action.move).now
      rw [now_act]
      show stepUps.now ≤ stepUps.now + action.elapsed
      omega

end StepUps

/-- In every state of a run at most one grant for each purpose is live, and a grant that is not
reusable has authorised at most one operation, exactly when no call of the run inserts a live grant
after another has inserted one that is still live since its own revocation. -/
theorem one_live_grant_iff (steps : List StepUpStep) :
    Machine.Throughout StepUps.step (fun stepUps => stepUps.OneLive ∧ stepUps.OnceAuthorised)
        StepUps.empty steps ↔
      Machine.Along StepUps.step StepUps.Unraced StepUps.empty steps := by
  have first : empty.AllReplaced ∧ empty.Accounted :=
    ⟨fun call => trivial, .nil, fun grant member => absurd member not_mem_nil,
      (fun call grant rows found => by cases found), fun id member => absurd member not_mem_nil,
      fun grant member => absurd member not_mem_nil,
      fun grant member => absurd member not_mem_nil⟩
  have kept : ∀ stepUps action, stepUps.AllReplaced ∧ stepUps.Accounted →
      (step stepUps action).1.AllReplaced ∧ (step stepUps action).1.Accounted := by
    intro stepUps action inv
    have waited : (stepUps.wait action.elapsed).Accounted :=
      inv.2.of_updates (.refl _) rfl inv.2.offered
    exact ⟨(inv.1.wait action.elapsed).act action.move, waited.act action.move⟩
  have agree : ∀ stepUps action, stepUps.AllReplaced ∧ stepUps.Accounted →
      stepUps.OneLive ∧ stepUps.OnceAuthorised →
      ((step stepUps action).1.OneLive ∧ (step stepUps action).1.OnceAuthorised ↔
        stepUps.Unraced action) := by
    intro stepUps action inv holds
    rw [and_iff_left (kept stepUps action inv).2.onceAuthorised]
    exact oneLive_step_iff inv.1 holds.1 action
  have start : empty.OneLive ∧ empty.OnceAuthorised :=
    ⟨fun key => Nat.zero_le 1, fun grant member => absurd member not_mem_nil⟩
  rw [Machine.throughout_iff kept agree first steps, and_iff_right start]

/-! ## Two live grants -/

/-- What a user asks for with a password and a code. -/
def grantRequest : GrantInput :=
  ⟨.variablesApply, "user", "session", "password", "factor", "123456", "ip", "agent", some "change",
    none⟩

def grantAnswers (id : String) : GrantAnswers := ⟨true, 0, some 3600000, id⟩

/-- Two calls revoke what is older before either inserts its grant. -/
def twoGrants : List StepUpStep :=
  [⟨0, .grant 1 grantRequest⟩, ⟨0, .grant 2 grantRequest⟩,
    ⟨0, .advance 1 (grantAnswers "first")⟩, ⟨0, .advance 2 (grantAnswers "second")⟩,
    ⟨0, .advance 1 (grantAnswers "first")⟩, ⟨0, .advance 2 (grantAnswers "second")⟩,
    ⟨0, .advance 1 (grantAnswers "first")⟩, ⟨0, .advance 2 (grantAnswers "second")⟩,
    ⟨0, .advance 1 (grantAnswers "first")⟩, ⟨0, .advance 2 (grantAnswers "second")⟩]

/-- Both grants are live then. -/
theorem twoGrants_live :
    ¬ Machine.Throughout StepUps.step (fun stepUps => stepUps.OneLive ∧ stepUps.OnceAuthorised)
      StepUps.empty twoGrants := by
  intro every
  have last := (every twoGrants [] (append_nil _).symm).1 grantRequest.key
  have two : (Machine.after step empty twoGrants).table.countLive grantRequest.key
    (Machine.after step empty twoGrants).now = 2 := by decide +kernel
  omega

end NancyMan.Auth
