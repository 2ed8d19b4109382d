import NancyMan.Accounts.AlwaysOwner
import NancyMan.Accounts.OwnerOperations

/-!
# Owner authority at the commit

A call of the account service trusts what it has read of its actor: no transaction reads the actor
again. Where no commit takes the authority of an owner away while a call of his goes on with it,
every change is committed by an active owner.
-/
namespace NancyMan.Accounts

open Function (update_of_ne update_self)

namespace ServiceCall

def awaitsGrant (held : ServiceCall) : Bool := held.phase != .consumed

def trustsActor (held : ServiceCall) : Bool :=
  !held.call.operation.readsActor || held.phase != .routed

end ServiceCall

namespace OwnerOperations

variable (operations : OwnerOperations)

/-- A commit takes the authority of a user away. -/
def Takes (call : AccountCall) (updated : OpsAccount) (userId : Nat) : Prop :=
  isOwner operations.accounts.users userId = true ∧
    ¬ isOwner (call.commit operations.accounts.users updated) userId = true

/-- Where a call goes on with what it has read of its actor, an operation that takes his authority
away revokes the grant that the call is still to consume. -/
def CutsOff (operation : AccountOperation) (userId : Nat) : Prop :=
  ∀ number held, operations.calls number = some held → held.call.actorUserId = userId →
    held.trustsActor = true → held.awaitsGrant = true ∧ operation.revokesAccess = true

/-- A step takes no owner's authority away while a call of his goes on with it. -/
def LeavesAuthority : OwnerStep → Prop
  | .advance number _ => ∀ call updated userId,
      operations.accounts.transactions number = some ⟨call, .written updated⟩ →
      operations.Takes call updated userId →
      operations.CutsOff call.operation userId ∧
        ∀ other running, other ≠ number → operations.accounts.transactions other = some running →
          running.call.actorUserId ≠ userId
  | _ => True

def HeldAuthority : Prop :=
  ∀ commit ∈ operations.commits, commit.actor.any OpsAccount.isActiveOwner = true

/-- What a call knows of its grant and its actor. -/
structure Trusts (operations : OwnerOperations) (held : ServiceCall) : Prop where
  known : operations.grants.any (fun grant => grant.id == held.grantId) = true
  owner : held.trustsActor = true →
    (held.awaitsGrant = true → operations.holdsGrant held.grantId held.call.actorUserId = true) →
    isOwner operations.accounts.users held.call.actorUserId = true

/-- Every call knows what it trusts, and every transaction and every commit is of an owner. -/
structure IsSound (operations : OwnerOperations) : Prop where
  calls : ∀ number held, operations.calls number = some held → operations.Trusts held
  transactions : ∀ number running, operations.accounts.transactions number = some running →
    isOwner operations.accounts.users running.call.actorUserId = true
  commits : operations.HeldAuthority

end OwnerOperations

/-! ## The transactions -/

namespace AccountStore

variable {store : AccountStore} {users : LockedTable Nat OpsAccount} {number other : Nat}
  {call : AccountCall} {phase later : TransactionPhase} {running : AccountTransaction}

def Runs (store : AccountStore) (number : Nat) (call : AccountCall) : Prop :=
  ∃ phase, store.transactions number = some ⟨call, phase⟩

theorem step_advance (row : Nat) (entered : store.transactions number = some ⟨call, phase⟩) :
    (store.step (.advance number row)).1 = store.advance number row call phase := by
  simp only [step, entered]

/-- A transaction that is under way after another phase is entered was so before. -/
theorem runs_enter (entered : store.Runs number call)
    (found : ({ store with users := users }.enter number call later).transactions other =
      some running) : store.Runs other running.call := by
  by_cases same : other = number
  · subst same
    have begun : ({ store with users := users }.enter other call later).transactions other =
      some ⟨call, later⟩ := update_self ..
    obtain rfl := Option.some.inj (begun.symm.trans found)
    exact entered
  · have kept : ({ store with users := users }.enter number call later).transactions other =
      store.transactions other := update_of_ne same ..
    exact ⟨running.phase, kept.symm.trans found⟩

/-- A transaction that is under way after another ended is not that one. -/
theorem runs_finish
    (found : ({ store with users := users }.finish number).transactions other = some running) :
    other ≠ number ∧ store.transactions other = some running := by
  by_cases same : other = number
  · subst same
    have gone : ({ store with users := users }.finish other).transactions other = none :=
      update_self ..
    cases gone.symm.trans found
  · have kept : ({ store with users := users }.finish number).transactions other =
      store.transactions other := update_of_ne same ..
    exact ⟨same, kept.symm.trans found⟩

/-- A transaction that is under way after a statement was so before. -/
theorem runs_advance (row : Nat) (entered : store.Runs number call)
    (found : (store.advance number row call phase).transactions other = some running) :
    store.Runs other running.call := by
  have stays : ∀ running, store.transactions other = some running →
      store.Runs other running.call := fun running held => ⟨running.phase, held⟩
  cases phase with
  | begun => exact runs_enter entered found
  | read account => exact runs_enter entered found
  | checked account => exact runs_enter entered found
  | written updated => exact stays running (runs_finish found).2
  | refused => exact stays running (runs_finish found).2
  | locking remaining =>
    unfold AccountStore.advance at found
    dsimp only at found
    split at found
    · exact runs_enter entered found
    · split at found
      · exact runs_enter entered found
      · exact stays running found
  | reading =>
    unfold AccountStore.advance at found
    dsimp only at found
    split at found
    · exact runs_enter entered found
    · split at found
      · exact runs_enter entered found
      · exact stays running found
  | counting account remaining owners =>
    unfold AccountStore.advance at found
    dsimp only at found
    split at found
    · exact runs_enter entered found
    · split at found
      · exact runs_enter entered found
      · exact stays running found

end AccountStore

/-! ## One step -/

namespace OwnerOperations

variable {operations later : OwnerOperations} {held : ServiceCall} {number : Nat}

theorem Trusts.of_later (trusts : operations.Trusts held)
    (known : later.grants.any (fun grant => grant.id == held.grantId))
    (opened : later.holdsGrant held.grantId held.call.actorUserId →
      operations.holdsGrant held.grantId held.call.actorUserId)
    (kept : isOwner operations.accounts.users held.call.actorUserId →
      isOwner later.accounts.users held.call.actorUserId) : later.Trusts held :=
  ⟨known, fun trusting awaited => kept (trusts.owner trusting fun awaits => opened (awaited awaits))⟩

/-- A closed grant keeps its number. -/
theorem known_closeWhere (selects : AccountGrant → Bool) (grantId : Nat)
    (known : operations.grants.any (fun grant => grant.id == grantId)) :
    (operations.closeWhere selects).grants.any (fun grant => grant.id == grantId) := by
  unfold closeWhere
  rw [List.any_map]
  rw [List.any_eq_true] at known ⊢
  obtain ⟨grant, member, same⟩ := known
  refine ⟨grant, member, ?_⟩
  dsimp only [Function.comp]
  split <;> exact same

/-- A grant that is open after some are closed was open, and was not selected. -/
theorem holdsGrant_closeWhere {selects : AccountGrant → Bool} {grantId userId : Nat}
    (holds : (operations.closeWhere selects).holdsGrant grantId userId) :
    operations.holdsGrant grantId userId ∧
      ∃ grant : AccountGrant, grant.userId = userId ∧ selects grant = false := by
  unfold closeWhere holdsGrant at *
  rw [List.any_map, List.any_eq_true] at holds
  obtain ⟨grant, member, passes⟩ := holds
  dsimp only [Function.comp] at passes
  split at passes
  · simp at passes
  · next unselected =>
    simp only [Bool.and_eq_true, beq_iff_eq] at passes
    refine ⟨List.any_eq_true.mpr ⟨grant, member, ?_⟩, grant, passes.1.2, ?_⟩
    · simp [passes]
    · simpa using unselected

variable (sound : operations.IsSound)

include sound

/-- Some grants are closed. -/
theorem IsSound.closeWhere (selects : AccountGrant → Bool) :
    (operations.closeWhere selects).IsSound where
  calls := fun number held found =>
    (sound.calls number held found).of_later
      (known_closeWhere selects held.grantId (sound.calls number held found).known)
      (fun holds => (holdsGrant_closeWhere holds).1) id
  transactions := sound.transactions
  commits := sound.commits

/-- A call goes on. -/
theorem IsSound.enter {phase : ServicePhase}
    (trusts : operations.Trusts { held with phase := phase }) :
    (operations.enter number held phase).IsSound where
  calls := by
    intro other found entered
    by_cases same : other = number
    · subst same
      have begun : (operations.enter other held phase).calls other =
        some { held with phase := phase } := update_self ..
      obtain rfl := Option.some.inj (begun.symm.trans entered)
      exact trusts.of_later trusts.known id id
    · have kept : (operations.enter number held phase).calls other = operations.calls other :=
        update_of_ne same ..
      have before := sound.calls other found (kept.symm.trans entered)
      exact before.of_later before.known id id
  transactions := sound.transactions
  commits := sound.commits

/-- A call ends. -/
theorem IsSound.leave (number : Nat) : (operations.leave number).IsSound where
  calls := by
    intro other found entered
    by_cases same : other = number
    · subst same
      have gone : (operations.leave other).calls other = none := update_self ..
      cases gone.symm.trans entered
    · have kept : (operations.leave number).calls other = operations.calls other :=
        update_of_ne same ..
      have before := sound.calls other found (kept.symm.trans entered)
      exact before.of_later before.known id id
  transactions := sound.transactions
  commits := sound.commits

/-- A grant is inserted. -/
theorem IsSound.issue {grantId userId : Nat}
    (fresh : ¬ operations.grants.any (fun grant => grant.id == grantId)) :
    ({ operations with grants := operations.grants ++ [⟨grantId, userId, true⟩] } :
      OwnerOperations).IsSound where
  calls := by
    intro number held found
    have before := sound.calls number held found
    refine before.of_later ?_ (fun holds => ?_) id
    · rw [List.any_append, before.known]
      rfl
    · have apart : grantId ≠ held.grantId := by
        intro same
        subst same
        exact fresh before.known
      unfold holdsGrant at *
      simpa [apart] using holds
  transactions := sound.transactions
  commits := sound.commits

/-- A call starts. -/
theorem IsSound.start (number : Nat) (call : AccountCall)
    (grantId : Nat) : (operations.start number call grantId).IsSound := by
  unfold OwnerOperations.start
  split
  · next ready =>
    obtain ⟨-, -, owner, holds⟩ := ready
    refine sound.enter ⟨?_, fun _ _ => owner⟩
    unfold holdsGrant at holds
    rw [List.any_eq_true] at holds ⊢
    obtain ⟨grant, member, passes⟩ := holds
    simp only [Bool.and_eq_true] at passes
    exact ⟨grant, member, passes.1.1⟩
  · exact sound

/-- The transaction of a call of an owner begins. -/
theorem IsSound.begin (number : Nat) (call : AccountCall)
    (owner : isOwner operations.accounts.users call.actorUserId) :
    ({ operations with accounts := (operations.accounts.step (.begin number call)).1 } :
      OwnerOperations).IsSound := by
  unfold AccountStore.step
  dsimp only
  split
  · exact sound
  · refine ⟨fun other held found => ?_, fun other running found => ?_, sound.commits⟩
    · have before := sound.calls other held found
      exact before.of_later before.known id id
    · by_cases same : other = number
      · subst same
        have begun : (operations.accounts.enter other call .begun).transactions other =
          some ⟨call, .begun⟩ := update_self ..
        obtain rfl := Option.some.inj (begun.symm.trans found)
        exact owner
      · have kept : (operations.accounts.enter number call .begun).transactions other =
          operations.accounts.transactions other := update_of_ne same ..
        exact sound.transactions other running (kept.symm.trans found)

omit sound in
/-- What a call trusts after its first read. -/
theorem Trusts.permit (trusts : operations.Trusts held) {phase : ServicePhase}
    (permits : held.call.permit operations.accounts.users = some phase) :
    operations.Trusts { held with phase := phase } := by
  refine ⟨trusts.known, fun _ awaited => ?_⟩
  unfold AccountCall.permit at permits
  split at permits
  · split at permits
    · next owner => exact owner
    · cases permits
  · next unread =>
    have trusting : held.trustsActor := by simp [ServiceCall.trustsActor, unread]
    split at permits
    · cases permits
    · obtain ⟨target, -, entered⟩ := Option.map_eq_some_iff.mp permits
      refine trusts.owner trusting fun _ => awaited ?_
      -- neither of the two phases has consumed the grant
      rw [← entered]
      split <;> rfl

/-- The next statement of a call before its transaction. -/
theorem IsSound.serve (trusts : operations.Trusts held) :
    (operations.serve number held).IsSound := by
  unfold OwnerOperations.serve
  cases phase : held.phase with
  | routed =>
    cases permits : held.call.permit operations.accounts.users with
    | none => exact sound.leave number
    | some next => exact sound.enter (trusts.permit permits)
  | counting =>
    dsimp only
    split
    · exact sound.leave number
    · have trusting : held.trustsActor := by simp [ServiceCall.trustsActor, phase]
      exact sound.enter ⟨trusts.known, fun _ awaited =>
        trusts.owner trusting fun _ => awaited rfl⟩
  | permitted =>
    dsimp only
    split
    · next holds =>
      have trusting : held.trustsActor := by simp [ServiceCall.trustsActor, phase]
      have owner := trusts.owner trusting fun _ => holds
      refine (sound.closeWhere _).enter ⟨?_, fun _ _ => owner⟩
      exact known_closeWhere _ held.grantId trusts.known
    · exact sound.leave number
  | consumed =>
    have trusting : held.trustsActor := by simp [ServiceCall.trustsActor, phase]
    have owner := trusts.owner trusting fun awaits => by
      simp [ServiceCall.awaitsGrant, phase] at awaits
    dsimp only
    split
    · exact (sound.leave number).begin number held.call owner
    · exact sound.leave number

/-- The accounts change where no owner does and no transaction begins. -/
theorem IsSound.pass {accounts : AccountStore}
    (same : accounts.users.find = operations.accounts.users.find)
    (runs : ∀ other running, accounts.transactions other = some running →
      operations.accounts.Runs other running.call) :
    ({ operations with accounts := accounts } : OwnerOperations).IsSound := by
  have kept : ∀ userId, isOwner accounts.users userId =
      isOwner operations.accounts.users userId := by
    intro userId
    unfold isOwner
    rw [same]
  refine ⟨fun number held found => ?_, fun number running found => ?_, sound.commits⟩
  · have before := sound.calls number held found
    exact before.of_later before.known id fun owner => (kept _).trans owner
  · obtain ⟨phase, entered⟩ := runs number running found
    have owner := sound.transactions number ⟨running.call, phase⟩ entered
    exact (kept running.call.actorUserId).trans owner

omit sound in
/-- Only from its target does a commit take authority. -/
theorem takes_target {call : AccountCall} {updated : OpsAccount} {userId : Nat}
    (takes : operations.Takes call updated userId) : userId = call.targetUserId := by
  obtain ⟨owner, gone⟩ := takes
  by_contra apart
  obtain ⟨account, found, active⟩ := (Option.any_eq_true _ _).mp owner
  refine gone ((Option.any_eq_true _ _).mpr ⟨account, ?_, active⟩)
  unfold AccountCall.commit
  split
  · exact LockedTable.find_insert found updated
  · rw [LockedTable.find_write_of_ne apart]
    exact found

/-- A transaction commits, and takes no authority that is in use. -/
theorem IsSound.commit {call : AccountCall} {updated : OpsAccount} {row : Nat}
    (written : operations.accounts.transactions number = some ⟨call, .written updated⟩)
    (leaves : operations.LeavesAuthority (.advance number row)) :
    (operations.advance number row).IsSound := by
  have committed : (operations.accounts.step (.advance number row)).1 =
      { operations.accounts with
        users := call.commit operations.accounts.users updated }.finish number := by
    rw [AccountStore.step_advance row written]
    rfl
  unfold OwnerOperations.advance
  rw [written, committed]
  refine ⟨fun other held found => ?_, fun other running found => ?_, ?_⟩
  · have before := sound.calls other held found
    refine ⟨known_closeWhere _ held.grantId before.known, fun trusting awaited => ?_⟩
    have holds : held.awaitsGrant = true →
        operations.holdsGrant held.grantId held.call.actorUserId = true ∧
          ∃ grant : AccountGrant, grant.userId = held.call.actorUserId ∧
            (call.operation.revokesAccess && grant.userId == call.targetUserId) = false :=
      fun awaits => holdsGrant_closeWhere (awaited awaits)
    have owner := before.owner trusting fun awaits => (holds awaits).1
    by_contra gone
    have takes : operations.Takes call updated held.call.actorUserId := ⟨owner, gone⟩
    obtain ⟨awaits, revokes⟩ := (leaves call updated _ written takes).1 other held found rfl trusting
    -- the grant that it is still to consume was revoked with the commit
    obtain ⟨-, grant, same, unselected⟩ := holds awaits
    rw [revokes, same, takes_target takes] at unselected
    simp at unselected
  · obtain ⟨apart, entered⟩ := AccountStore.runs_finish found
    have owner := sound.transactions other running entered
    by_contra gone
    have takes : operations.Takes call updated running.call.actorUserId := ⟨owner, gone⟩
    exact (leaves call updated _ written takes).2 other running apart entered rfl
  · intro commit member
    rcases List.mem_append.mp member with earlier | last
    · exact sound.commits commit earlier
    · rw [List.mem_singleton.mp last]
      exact sound.transactions number _ written

/-- The next statement of a transaction. -/
theorem IsSound.advance (number row : Nat)
    (leaves : operations.LeavesAuthority (.advance number row)) :
    (operations.advance number row).IsSound := by
  cases entered : operations.accounts.transactions number with
  | none =>
    have stays : (operations.accounts.step (.advance number row)).1 = operations.accounts := by
      simp only [AccountStore.step, entered]
    unfold OwnerOperations.advance
    rw [entered, stays]
    exact sound
  | some running =>
    obtain ⟨call, phase⟩ := running
    by_cases ends : ∃ updated, phase = .written updated
    · obtain ⟨updated, rfl⟩ := ends
      exact sound.commit entered leaves
    · have passed : operations.advance number row =
          { operations with accounts := operations.accounts.advance number row call phase } := by
        unfold OwnerOperations.advance
        rw [entered, AccountStore.step_advance row entered]
        split
        · next written =>
          have same := congrArg AccountTransaction.phase (Option.some.inj written)
          exact absurd ⟨_, same⟩ ends
        · rfl
      have unchanged : (operations.accounts.advance number row call phase).users.find =
          operations.accounts.users.find := by
        rcases @AccountStore.find_advance operations.accounts number call phase row with
          same | ⟨updated, written, -⟩
        · exact same
        · exact absurd ⟨updated, written⟩ ends
      rw [passed]
      refine sound.pass unchanged fun other running found => ?_
      exact AccountStore.runs_advance row ⟨phase, entered⟩ found

/-- A step that takes no authority that is in use. -/
theorem IsSound.step (action : OwnerStep)
    (leaves : operations.LeavesAuthority action) : (operations.step action).1.IsSound := by
  cases action with
  | issue grantId userId =>
    unfold OwnerOperations.step
    dsimp only
    split
    · exact sound
    · next fresh => exact sound.issue fresh
  | close grantId => exact sound.closeWhere _
  | start number call grantId => exact sound.start number call grantId
  | serve number =>
    unfold OwnerOperations.step
    dsimp only
    cases found : operations.calls number with
    | none => exact sound
    | some held => exact sound.serve (sound.calls number held found)
  | advance number row => exact sound.advance number row leaves
  | fail number =>
    have ended : ∀ other running,
        (operations.accounts.finish number).transactions other = some running →
        (operations.leave number).accounts.Runs other running.call :=
      fun other running found => ⟨running.phase, (AccountStore.runs_finish found).2⟩
    exact (sound.leave number).pass rfl ended

omit sound

end OwnerOperations

/-- Where no commit takes the authority of an owner away while a call of his goes on with it, every
change is committed by an active owner. -/
theorem owner_authority (users : LockedTable Nat OpsAccount) (steps : List OwnerStep)
    (leaves : Machine.Along OwnerOperations.step OwnerOperations.LeavesAuthority
      (.initial users) steps) :
    Machine.Throughout OwnerOperations.step OwnerOperations.HeldAuthority (.initial users)
      steps := by
  have first : (OwnerOperations.initial users).IsSound := by
    refine ⟨?_, ?_, fun commit member => absurd member List.not_mem_nil⟩
    · intro number held found
      cases found
    · intro number running found
      cases found
  have kept : ∀ (operations : OwnerOperations) action, operations.IsSound →
      operations.LeavesAuthority action → (operations.step action).1.IsSound :=
    fun _ action sound leaves => sound.step action leaves
  have sound := Machine.throughout_of_along kept first leaves
  exact fun earlier later split => (sound earlier later split).commits

/-- Whether a step takes no authority away. -/
def OwnerOperations.isHarmless (operations : OwnerOperations) : OwnerStep → Bool
  | .advance number _ =>
    match operations.accounts.transactions number with
    | some ⟨call, .written updated⟩ =>
      !isOwner operations.accounts.users call.targetUserId ||
        isOwner (call.commit operations.accounts.users updated) call.targetUserId
    | _ => true
  | _ => true

/-- A step that takes no authority away takes none that is in use. -/
theorem OwnerOperations.leavesAuthority_of_harmless (operations : OwnerOperations)
    (action : OwnerStep) (harmless : operations.isHarmless action) :
    operations.LeavesAuthority action := by
  cases action with
  | advance number row =>
    intro call updated userId written takes
    unfold isHarmless at harmless
    dsimp only at harmless
    rw [written] at harmless
    obtain rfl := takes_target takes
    simp [takes.1, takes.2] at harmless
  | _ => trivial

/-- Two owners and a maintainer. -/
def twoOwnersAndMaintainer : LockedTable Nat OpsAccount :=
  ⟨[(1, ⟨.opsOwner, .active⟩), (2, ⟨.opsOwner, .active⟩), (3, ⟨.opsMaintainer, .active⟩)],
    fun _ => none, by decide⟩

/-- One owner locks the maintainer while the other one makes him an owner. -/
def lockedAndPromoted : List OwnerStep :=
  [.issue 1 1, .issue 2 2, .start 1 ⟨1, 3, .lock⟩ 1, .start 2 ⟨2, 3, .changeRole .opsOwner⟩ 2] ++
    (List.range 3).flatMap (fun _ => [.serve 1, .serve 2]) ++
    (List.range 30).flatMap fun _ => [.advance 1 1, .advance 1 3, .advance 2 2, .advance 2 3]

/-- Both are committed by owners. -/
theorem lockedAndPromoted_authority :
    (Machine.after OwnerOperations.step (.initial twoOwnersAndMaintainer)
        lockedAndPromoted).commits.length = 2 ∧
      Machine.Throughout OwnerOperations.step OwnerOperations.HeldAuthority
        (.initial twoOwnersAndMaintainer) lockedAndPromoted := by
  have harmless : Machine.Along OwnerOperations.step
      (fun operations action => operations.isHarmless action = true)
      (.initial twoOwnersAndMaintainer) lockedAndPromoted := by decide +kernel
  exact ⟨by decide +kernel, owner_authority twoOwnersAndMaintainer lockedAndPromoted
    (harmless.imp OwnerOperations.leavesAuthority_of_harmless)⟩

/-- Three owners. -/
def threeOwners : LockedTable Nat OpsAccount :=
  ⟨[(1, ⟨.opsOwner, .active⟩), (2, ⟨.opsOwner, .active⟩), (3, ⟨.opsOwner, .active⟩)],
    fun _ => none, by decide⟩

/-- An owner's grant is consumed, another owner makes him a maintainer, and then his transaction
begins, which locks the third. -/
def demotedMeanwhile : List OwnerStep :=
  [.issue 1 1, .issue 2 2, .start 1 ⟨1, 3, .lock⟩ 1, .serve 1, .serve 1, .serve 1,
    .start 2 ⟨2, 1, .changeRole .opsMaintainer⟩ 2, .serve 2, .serve 2, .serve 2, .serve 2] ++
    (List.range 13).flatMap (fun _ => [.advance 2 1, .advance 2 2]) ++
    [.serve 1] ++ (List.range 13).flatMap fun _ => [.advance 1 1, .advance 1 3]

/-- He commits it as a maintainer. -/
theorem demotedMeanwhile_commits :
    (Machine.after OwnerOperations.step (.initial threeOwners) demotedMeanwhile).commits =
        [⟨⟨2, 1, .changeRole .opsMaintainer⟩, some ⟨.opsOwner, .active⟩⟩,
          ⟨⟨1, 3, .lock⟩, some ⟨.opsMaintainer, .active⟩⟩] ∧
      ¬ Machine.Throughout OwnerOperations.step OwnerOperations.HeldAuthority
        (.initial threeOwners) demotedMeanwhile := by
  have commits : (Machine.after OwnerOperations.step (.initial threeOwners)
      demotedMeanwhile).commits = [⟨⟨2, 1, .changeRole .opsMaintainer⟩, some ⟨.opsOwner, .active⟩⟩,
        ⟨⟨1, 3, .lock⟩, some ⟨.opsMaintainer, .active⟩⟩] := by decide +kernel
  refine ⟨commits, fun every => ?_⟩
  have held := every demotedMeanwhile [] (List.append_nil _).symm
    ⟨⟨1, 3, .lock⟩, some ⟨.opsMaintainer, .active⟩⟩ (by rw [commits]; simp)
  exact absurd held (by decide)

end NancyMan.Accounts
