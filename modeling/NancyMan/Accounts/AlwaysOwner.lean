import NancyMan.Accounts.AccountTransactions

/-!
# There is always an owner

A transaction that takes an active owner away has counted two, of which it has locked the other one
since: what it has read and counted under its locks is still so when it commits. Whatever the order
of their statements, no transactions on the accounts leave them without an active owner.
-/
namespace NancyMan.Accounts

open LockedTable AccountStore

variable (users : LockedTable Nat OpsAccount)

def HasActiveOwner : Prop :=
  ∃ userId account, users.find userId = some account ∧ account.isActiveOwner = true

/-- What a transaction knows of its target. -/
def HasRead (transaction : Nat) (call : AccountCall) (account : OpsAccount) : Prop :=
  users.holder call.targetUserId = some transaction ∧
    users.find call.targetUserId = some account

/-- A transaction has locked an active owner. -/
def HasLockedOwner (transaction userId : Nat) : Prop :=
  users.holder userId = some transaction ∧
    ∃ account, users.find userId = some account ∧ account.isActiveOwner = true

/-- The update of the target leaves it an active owner if it was one, or another one is locked. -/
def IsBacked (transaction : Nat) (call : AccountCall) (account : OpsAccount) : Prop :=
  ∀ updated, call.update account = some updated → account.isActiveOwner = true →
    updated.isActiveOwner = true ∨
      ∃ other, other ≠ call.targetUserId ∧ HasLockedOwner users transaction other

/-- What a transaction has counted: different active owners, among them the target if it is one and
will not still be counted. -/
structure HasCounted (users : LockedTable Nat OpsAccount) (transaction : Nat) (call : AccountCall)
    (account : OpsAccount) (remaining owners : List Nat) : Prop where
  distinct : (remaining ++ owners).Nodup
  locked : ∀ owner ∈ owners, HasLockedOwner users transaction owner
  target : account.isActiveOwner = true → call.targetUserId ∈ remaining ++ owners

/-- What a transaction knows in its phase. -/
def Stands (transaction : Nat) (call : AccountCall) : TransactionPhase → Prop
  | .begun | .locking _ | .reading | .refused => True
  | .read account => HasRead users transaction call account
  | .counting account remaining owners => HasRead users transaction call account ∧
      HasCounted users transaction call account remaining owners
  | .checked account => HasRead users transaction call account ∧
      IsBacked users transaction call account
  | .written updated => (∃ role, call.operation = .create role) ∨
      ∃ account, HasRead users transaction call account ∧
        IsBacked users transaction call account ∧ call.update account = some updated

section Frame

variable {users later : LockedTable Nat OpsAccount} {transaction : Nat} {call : AccountCall}
  {account : OpsAccount}

theorem HasRead.of_respects (read : HasRead users transaction call account)
    (respects : users.Respects later transaction) : HasRead later transaction call account :=
  ⟨(respects _ read.1).1, (respects _ read.1).2 account read.2⟩

theorem HasLockedOwner.of_respects {owner : Nat} (locked : HasLockedOwner users transaction owner)
    (respects : users.Respects later transaction) : HasLockedOwner later transaction owner := by
  obtain ⟨held, account, found, active⟩ := locked
  exact ⟨(respects owner held).1, account, (respects owner held).2 account found, active⟩

theorem IsBacked.of_respects (backed : IsBacked users transaction call account)
    (respects : users.Respects later transaction) : IsBacked later transaction call account := by
  intro updated update active
  refine (backed updated update active).imp id fun ⟨other, apart, locked⟩ => ?_
  exact ⟨other, apart, locked.of_respects respects⟩

theorem HasCounted.of_respects {remaining owners : List Nat}
    (counted : HasCounted users transaction call account remaining owners)
    (respects : users.Respects later transaction) :
    HasCounted later transaction call account remaining owners :=
  ⟨counted.distinct, fun owner member => (counted.locked owner member).of_respects respects,
    counted.target⟩

/-- What a transaction knows stays so while what it has locked does. -/
theorem Stands.of_respects {phase : TransactionPhase} (stands : Stands users transaction call phase)
    (respects : users.Respects later transaction) : Stands later transaction call phase := by
  cases phase with
  | begun => trivial
  | locking remaining => trivial
  | reading => trivial
  | refused => trivial
  | read account => exact HasRead.of_respects stands respects
  | counting account remaining owners =>
    exact ⟨stands.1.of_respects respects, stands.2.of_respects respects⟩
  | checked account => exact ⟨stands.1.of_respects respects, stands.2.of_respects respects⟩
  | written updated =>
    refine Or.imp id (fun ⟨account, read, backed, update⟩ => ?_) stands
    exact ⟨account, read.of_respects respects, backed.of_respects respects, update⟩

end Frame

section Phases

variable {users : LockedTable Nat OpsAccount} {transaction : Nat} {call : AccountCall}
  {account : OpsAccount} (read : HasRead users transaction call account)

include read

/-- A transaction stands after it has read its target. -/
theorem stands_afterRead : Stands users transaction call (call.afterRead account) := by
  unfold AccountCall.afterRead
  cases operation : call.operation with
  | create role => trivial
  | changeRole role =>
    dsimp only
    split
    · trivial
    · exact read
  | recover =>
    dsimp only
    split
    · trivial
    · refine ⟨read, fun updated update active => ?_⟩
      simp only [AccountCall.update, operation] at update
      split at update
      · next locked => simp [OpsAccount.isActiveOwner, locked] at active
      · cases update
  | _ =>
    dsimp only
    split
    · trivial
    · split
      · exact read
      · next inactive => exact ⟨read, fun updated _ active => absurd active inactive⟩

/-- A transaction has counted none of the owners that it is about to count. -/
theorem hasCounted_start :
    HasCounted users transaction call account
      ((users.keysWhere OpsAccount.isActiveOwner).insertionSort (· ≤ ·)) [] := by
  have perm := List.perm_insertionSort (· ≤ ·) (users.keysWhere OpsAccount.isActiveOwner)
  refine ⟨?_, fun owner member => absurd member List.not_mem_nil, fun active => ?_⟩
  · rw [List.append_nil]
    exact perm.nodup_iff.mpr (nodup_keysWhere _)
  · rw [List.append_nil]
    exact perm.mem_iff.mpr (mem_keysWhere.mpr ⟨account, read.2, active⟩)

/-- A transaction has counted one more owner, or left out a row that is none. -/
theorem HasCounted.next {next : Nat} {rest owners : List Nat}
    (counted : HasCounted users transaction call account (next :: rest) owners) :
    HasCounted (users.lock transaction next) transaction call account rest
      (if (users.find next).any OpsAccount.isActiveOwner then next :: owners else owners) := by
  have later := counted.of_respects (respects_lock_own next)
  split
  · next active =>
    refine ⟨?_, fun owner member => ?_, fun owned => ?_⟩
    · exact List.perm_middle.nodup_iff.mpr later.distinct
    · rcases List.mem_cons.mp member with rfl | member
      · obtain ⟨found, shown, passes⟩ := (Option.any_eq_true _ _).mp active
        exact ⟨holder_lock_self, found, shown, passes⟩
      · exact later.locked owner member
    · exact List.perm_middle.mem_iff.mpr (later.target owned)
  · next inactive =>
    refine ⟨(List.nodup_cons.mp later.distinct).2, later.locked, fun owned => ?_⟩
    refine (List.mem_cons.mp (later.target owned)).resolve_left fun same => inactive ?_
    rw [← same, read.2]
    exact owned

/-- A transaction stands after it has counted. -/
theorem stands_afterCount {owners : List Nat}
    (counted : HasCounted users transaction call account [] owners) :
    Stands users transaction call (call.afterCount account owners.length) := by
  have another : account.isActiveOwner = true → 2 ≤ owners.length →
      ∃ other, other ≠ call.targetUserId ∧ HasLockedOwner users transaction other := by
    intro active two
    have once : owners.Nodup := counted.distinct
    have held : call.targetUserId ∈ owners := counted.target active
    have fewer := List.length_erase_of_mem held
    obtain ⟨other, member⟩ : ∃ other, other ∈ owners.erase call.targetUserId :=
      List.exists_mem_of_length_pos (by omega)
    obtain ⟨apart, inside⟩ := (once.mem_erase_iff).mp member
    exact ⟨other, apart, counted.locked other inside⟩
  unfold AccountCall.afterCount
  split
  · next role operation =>
    split
    · trivial
    · next passes =>
      refine ⟨read, fun updated update active => ?_⟩
      by_cases owner : role = .opsOwner
      · simp only [AccountCall.update, operation] at update
        split at update
        · obtain rfl := Option.some.inj update
          simp only [OpsAccount.isActiveOwner, Bool.and_eq_true, beq_iff_eq] at active
          exact .inl (by simp [OpsAccount.isActiveOwner, active.1, owner])
        · cases update
      · refine .inr (another active ?_)
        by_contra few
        exact passes ⟨active, owner, by omega⟩
  · split
    · trivial
    · next many =>
      exact ⟨read, fun updated update active => .inr (another active (by omega))⟩

/-- A transaction stands after its update. -/
theorem stands_update (backed : IsBacked users transaction call account) :
    Stands users transaction call
      (match (users.find call.targetUserId).bind call.update with
        | none => .refused
        | some updated => .written updated) := by
  rw [read.2]
  cases update : (some account).bind call.update with
  | none => trivial
  | some updated => exact .inr ⟨account, read, backed, update⟩

omit read

/-- What a transaction commits leaves an active owner. -/
theorem hasActiveOwner_commit {updated : OpsAccount}
    (stands : Stands users transaction call (.written updated)) (owner : HasActiveOwner users) :
    HasActiveOwner (call.commit users updated) := by
  obtain ⟨userId, active, found, isOwner⟩ := owner
  unfold AccountCall.commit
  rcases stands with ⟨role, operation⟩ | ⟨account, read, backed, update⟩
  · rw [operation]
    exact ⟨userId, active, find_insert found updated, isOwner⟩
  · have written : ∀ other row, other ≠ call.targetUserId → users.find other = some row →
        row.isActiveOwner = true →
        HasActiveOwner (users.write call.targetUserId updated) := by
      intro other row apart held passes
      exact ⟨other, row, (find_write_of_ne apart).trans held, passes⟩
    have kept : HasActiveOwner (users.write call.targetUserId updated) := by
      by_cases same : userId = call.targetUserId
      · subst same
        obtain rfl : account = active := Option.some.inj (read.2.symm.trans found)
        rcases backed updated update isOwner with still | ⟨other, apart, -, row, held, passes⟩
        · exact ⟨_, updated, find_write_self found, still⟩
        · exact written other row apart held passes
      · exact written userId active same found isOwner
    split
    · next role operation =>
      simp only [AccountCall.update, operation] at update
      cases update
    · exact kept

/-- No operation updates an account that is revoked. -/
theorem update_revoked (revoked : account.status = .revoked) : call.update account = none := by
  unfold AccountCall.update
  cases call.operation with
  | create role => rfl
  | changeRole role => exact if_neg fun both => both.2 revoked
  | recover => exact if_neg fun locked => by simp [revoked] at locked
  | _ => exact if_neg fun other => other revoked

/-- What a transaction commits leaves a revoked account as it is. -/
theorem find_commit_revoked {updated : OpsAccount} {userId : Nat}
    (stands : Stands users transaction call (.written updated))
    (found : users.find userId = some account) (revoked : account.status = .revoked) :
    (call.commit users updated).find userId = some account := by
  unfold AccountCall.commit
  rcases stands with ⟨role, operation⟩ | ⟨target, read, -, update⟩
  · rw [operation]
    exact find_insert found updated
  · have apart : userId ≠ call.targetUserId := by
      rintro rfl
      have same : target = account := Option.some.inj (read.2.symm.trans found)
      rw [same, update_revoked revoked] at update
      cases update
    split
    · exact find_insert found updated
    · exact (find_write_of_ne apart).trans found

end Phases

/-! ## One step -/

namespace AccountStore

/-- Every transaction stands. -/
def AllStand (store : AccountStore) : Prop :=
  ∀ transaction running, store.transactions transaction = some running →
    Stands store.users transaction running.call running.phase

variable {store : AccountStore} {transaction : Nat} {call : AccountCall}
  {phase : TransactionPhase} {users : LockedTable Nat OpsAccount}

/-- All stand when one goes on and what the others have locked stays as it is. -/
theorem AllStand.enter (all : store.AllStand)
    (others : ∀ other, other ≠ transaction → store.users.Respects users other)
    (stands : Stands users transaction call phase) :
    ({ store with users := users }.enter transaction call phase).AllStand := by
  intro other running found
  by_cases same : other = transaction
  · subst same
    have entered : ({ store with users := users }.enter other call phase).transactions other =
      some ⟨call, phase⟩ := Function.update_self ..
    obtain rfl := Option.some.inj (entered.symm.trans found)
    exact stands
  · have kept : ({ store with users := users }.enter transaction call phase).transactions other =
      store.transactions other := Function.update_of_ne same ..
    exact (all other running (kept.symm.trans found)).of_respects (others other same)

/-- All stand when one ends. -/
theorem AllStand.finish (all : store.AllStand)
    (others : ∀ other, other ≠ transaction → store.users.Respects users other) :
    ({ store with users := users }.finish transaction).AllStand := by
  intro other running found
  by_cases same : other = transaction
  · subst same
    have gone : ({ store with users := users }.finish other).transactions other = none :=
      Function.update_self ..
    cases gone.symm.trans found
  · have kept : ({ store with users := users }.finish transaction).transactions other =
      store.transactions other := Function.update_of_ne same ..
    exact (all other running (kept.symm.trans found)).of_respects
      ((others other same).trans (respects_release same))

theorem AllStand.pass (all : store.AllStand) (stands : Stands store.users transaction call phase) :
    (store.enter transaction call phase).AllStand :=
  all.enter (fun _ _ _ held => ⟨held, fun _ found => found⟩) stands

theorem AllStand.lockRow (all : store.AllStand) {userId : Nat}
    (free : store.users.isFree transaction userId)
    (stands : Stands (store.users.lock transaction userId) transaction call phase) :
    (store.lockRow transaction userId call phase).AllStand :=
  all.enter (fun _ apart => respects_lock free apart) stands

/-- All stand when one does its next statement. -/
theorem AllStand.advance (all : store.AllStand) (row : Nat)
    (stands : Stands store.users transaction call phase) :
    (store.advance transaction row call phase).AllStand := by
  cases phase with
  | begun =>
    refine all.pass ?_
    unfold AccountCall.start
    split
    · next role operation => exact .inl ⟨role, operation⟩
    · trivial
  | locking remaining =>
    unfold advance
    dsimp only
    split
    · exact all.pass trivial
    · split
      · next ready => exact all.lockRow ready.2 trivial
      · exact all
  | reading =>
    unfold advance
    cases found : store.users.find call.targetUserId with
    | none => exact all.pass trivial
    | some account =>
      dsimp only
      split
      · next free =>
        refine all.lockRow free (stands_afterRead ⟨holder_lock_self, ?_⟩)
        exact found
      · exact all
  | read account => exact all.pass ⟨stands, hasCounted_start stands⟩
  | counting account remaining owners =>
    unfold advance
    cases remaining with
    | nil => exact all.pass (stands_afterCount stands.1 stands.2)
    | cons next rest =>
      dsimp only
      split
      · next free =>
        refine all.lockRow free ⟨?_, stands.2.next stands.1⟩
        exact stands.1.of_respects (respects_lock_own next)
      · exact all
  | checked account => exact all.pass (stands_update stands.1 stands.2)
  | written updated =>
    refine all.finish fun other apart => ?_
    unfold AccountCall.commit
    rcases stands with ⟨role, operation⟩ | ⟨account, read, -, -⟩
    · rw [operation]
      exact respects_insert updated
    · split
      · exact respects_insert updated
      · exact respects_write read.1 apart
  | refused => exact all.finish fun _ _ _ held => ⟨held, fun _ found => found⟩

/-- All stand after every step. -/
theorem AllStand.step (all : store.AllStand) (action : AccountStep) :
    (store.step action).1.AllStand := by
  cases action with
  | begin transaction call =>
    unfold AccountStore.step
    dsimp only
    split
    · exact all
    · exact all.pass trivial
  | advance transaction row =>
    unfold AccountStore.step
    dsimp only
    cases found : store.transactions transaction with
    | none => exact all
    | some running => exact all.advance row (all transaction running found)
  | abort transaction => exact all.finish fun _ _ _ held => ⟨held, fun _ found => found⟩

/-- Only a commit changes what is found in the table. -/
theorem find_advance (row : Nat) :
    (store.advance transaction row call phase).users.find = store.users.find ∨
      ∃ updated, phase = .written updated ∧
        (store.advance transaction row call phase).users.find =
          (call.commit store.users updated).find := by
  cases phase with
  | written updated => exact .inr ⟨updated, rfl, rfl⟩
  | locking remaining =>
    refine .inl ?_
    unfold advance
    dsimp only
    split_ifs <;> rfl
  | reading =>
    refine .inl ?_
    unfold advance
    dsimp only
    split
    · rfl
    · split_ifs <;> rfl
  | counting account remaining owners =>
    refine .inl ?_
    unfold advance
    dsimp only
    split
    · rfl
    · split_ifs <;> rfl
  | _ => exact .inl rfl

/-- A step leaves an active owner. -/
theorem hasActiveOwner_step (all : store.AllStand) (owner : HasActiveOwner store.users)
    (action : AccountStep) : HasActiveOwner (store.step action).1.users := by
  cases action with
  | begin transaction call =>
    unfold step
    dsimp only
    split <;> exact owner
  | advance transaction row =>
    unfold step
    dsimp only
    cases found : store.transactions transaction with
    | none => exact owner
    | some running =>
      unfold HasActiveOwner
      rcases @find_advance store transaction running.call running.phase row with
        same | ⟨updated, written, same⟩
      · rw [same]
        exact owner
      · rw [same]
        have stands := all transaction running found
        rw [written] at stands
        exact hasActiveOwner_commit stands owner
  | abort transaction => exact owner

/-- A step leaves a revoked account as it is. -/
theorem revoked_step (all : store.AllStand) {userId : Nat} {account : OpsAccount}
    (revoked : account.status = .revoked) (found : store.users.find userId = some account)
    (action : AccountStep) : (store.step action).1.users.find userId = some account := by
  cases action with
  | begin transaction call =>
    unfold step
    dsimp only
    split <;> exact found
  | advance transaction row =>
    unfold step
    dsimp only
    cases entered : store.transactions transaction with
    | none => exact found
    | some running =>
      rcases @find_advance store transaction running.call running.phase row with
        same | ⟨updated, written, same⟩
      · exact (congrFun same userId).trans found
      · have stands := all transaction running entered
        rw [written] at stands
        exact (congrFun same userId).trans (find_commit_revoked stands found revoked)
  | abort transaction => exact found

end AccountStore

/-- An account that is revoked stays as it is for good, whatever the transactions and the order of
their statements. -/
theorem revoked_for_good (users : LockedTable Nat OpsAccount) (userId : Nat) (role : OpsRole)
    (steps : List AccountStep) :
    Machine.Stays AccountStore.step
      (fun store => store.users.find userId = some ⟨role, .revoked⟩) (fun _ => False)
      ⟨users, fun _ => none⟩ steps := by
  have first : AccountStore.AllStand ⟨users, fun _ => none⟩ :=
    fun transaction running found => by cases found
  refine Machine.stays_of_along _ _
    (Machine.along_of_invariant (fun _ action all => all.step action) ?_ first steps)
  exact fun store action all found => .inl (revoked_step all rfl found action)

/-- Where some account is an active owner, one is in every state that is reached, whatever the
transactions and the order of their statements. -/
theorem always_an_owner (users : LockedTable Nat OpsAccount) (owner : HasActiveOwner users)
    (steps : List AccountStep) :
    Machine.Throughout AccountStore.step (fun store => HasActiveOwner store.users)
      ⟨users, fun _ => none⟩ steps := by
  intro earlier later split
  have first : AccountStore.AllStand ⟨users, fun _ => none⟩ ∧ HasActiveOwner users :=
    ⟨(fun transaction running found => by cases found), owner⟩
  have kept : ∀ store action, AccountStore.AllStand store ∧ HasActiveOwner store.users →
      AccountStore.AllStand (step store action).1 ∧
        HasActiveOwner (step store action).1.users :=
    fun store action inv =>
      ⟨inv.1.step action, hasActiveOwner_step inv.1 inv.2 action⟩
  exact (Machine.invariant_after kept first earlier).2

def twoOwners : LockedTable Nat OpsAccount :=
  ⟨[(1, ⟨.opsOwner, .active⟩), (2, ⟨.opsOwner, .active⟩)], fun _ => none, by decide⟩

/-- Each of two owners locks the other: one transaction waits for the other and is refused. -/
def mutualLocks : List AccountStep :=
  [.begin 1 ⟨1, 2, .lock⟩, .begin 2 ⟨2, 1, .lock⟩] ++
    (List.range 12).flatMap (fun _ => [.advance 1 1, .advance 1 2, .advance 2 2, .advance 2 1]) ++
    [.abort 2] ++ (List.range 12).flatMap fun _ => [.advance 1 1, .advance 1 2]

/-- One of them is locked and the other still an owner. -/
theorem mutualLocks_owner :
    (Machine.after AccountStore.step ⟨twoOwners, fun _ => none⟩ mutualLocks).users.find 2 =
        some ⟨.opsOwner, .locked⟩ ∧
      Machine.Throughout AccountStore.step (fun store => HasActiveOwner store.users)
        ⟨twoOwners, fun _ => none⟩ mutualLocks :=
  ⟨by decide +kernel, always_an_owner twoOwners ⟨1, ⟨.opsOwner, .active⟩, by decide, by decide⟩
    mutualLocks⟩

end NancyMan.Accounts
