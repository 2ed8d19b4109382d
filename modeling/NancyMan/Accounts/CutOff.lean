import NancyMan.Accounts.AccessRevocation

/-!
# A revocation cuts off what was checked before it

The transaction that revokes a user's access holds the row of the user, so that nothing is inserted
while it closes the open rows, and waits for the challenge that a login has locked. Where a challenge
and a grant are inserted only while no revocation has been committed since their password was
checked, whatever gives access was checked after the last revocation.
-/
namespace NancyMan.Accounts

open AccessStore LockedTable
open Function (update_of_ne update_self)

open Auth (UserStatus)

namespace AccessStore

/-- A challenge or a grant is inserted only while no revocation has been committed since its
password was checked. -/
def InsertsPromptly (store : AccessStore) : AccessStep → Prop
  | .advance call _ =>
    match store.calls call with
    | .passed checked | .replaced _ checked => store.holder = none → checked = store.cuts
    | _ => True
  | _ => True

def CutsOff (store : AccessStore) : Prop := ∀ use ∈ store.uses, use.checked = use.cuts

/-- A call has locked the open rows of a kind. -/
def HasClosed (store : AccessStore) (call : Nat) (kind : AccessKind) : Prop :=
  ∀ id row, (store.rows kind).find id = some row → row.isOpen = true →
    (store.rows kind).holder id = some call

/-- What a call knows at its place. -/
def Stays (store : AccessStore) (call : Nat) : AccessCall → Prop
  | .consuming challenge => (store.rows .challenge).holder challenge = some call ∧
      ∃ row, (store.rows .challenge).find challenge = some row ∧ row.isOpen = true
  | .locked _ => store.holder = some call
  | .updated _ kinds => store.holder = some call ∧ ∀ kind, kind ∉ kinds → store.HasClosed call kind
  | .closing _ kind remaining kinds => store.holder = some call ∧
      (∀ other, other ∉ kind :: kinds → store.HasClosed call other) ∧
      ∀ id row, (store.rows kind).find id = some row → row.isOpen = true →
        id ∈ remaining ∨ (store.rows kind).holder id = some call
  | _ => True

def OpenCurrent (store : AccessStore) : Prop :=
  ∀ kind id row, (store.rows kind).find id = some row → row.isOpen = true → row.checked = store.cuts

/-- Every open row and whatever gave access was checked after the last revocation, and every call
knows what it must. -/
structure IsSound (store : AccessStore) : Prop where
  current : store.OpenCurrent
  uses : store.CutsOff
  calls : ∀ call, store.Stays call (store.calls call)

/-- What the other calls know is left as it is: their locks and the rows under them, and where one
holds the row of the user, no row opens. -/
structure Leaves (store later : AccessStore) (call : Nat) : Prop where
  holder : ∀ other, other ≠ call → store.holder = some other → later.holder = some other ∧
    ∀ kind id row, (later.rows kind).find id = some row → row.isOpen = true →
      ∃ earlier, (store.rows kind).find id = some earlier ∧ earlier.isOpen = true
  rows : ∀ kind other, other ≠ call → (store.rows kind).Respects (later.rows kind) other

variable {store later : AccessStore} {call other : Nat} {place : AccessCall}

/-- A call knows what it did when another does a step. -/
theorem Stays.of_leaves (stays : store.Stays other place) (leaves : store.Leaves later call)
    (apart : other ≠ call) : later.Stays other place := by
  have closed : store.holder = some other → ∀ kind, store.HasClosed other kind →
      later.HasClosed other kind := by
    intro held kind closed id row found opens
    obtain ⟨earlier, there, was⟩ := (leaves.holder other apart held).2 kind id row found opens
    exact (leaves.rows kind other apart id (closed id earlier there was)).1
  cases place with
  | consuming challenge =>
    obtain ⟨held, row, found, opens⟩ := stays
    have kept := leaves.rows .challenge other apart challenge held
    exact ⟨kept.1, row, kept.2 row found, opens⟩
  | locked operation => exact (leaves.holder other apart stays).1
  | updated status kinds =>
    exact ⟨(leaves.holder other apart stays.1).1,
      fun kind done => closed stays.1 kind (stays.2 kind done)⟩
  | closing status kind remaining kinds =>
    obtain ⟨held, done, rest⟩ := stays
    refine ⟨(leaves.holder other apart held).1,
      fun kind swept => closed held kind (done kind swept), fun id row found opens => ?_⟩
    obtain ⟨earlier, there, was⟩ := (leaves.holder other apart held).2 kind id row found opens
    exact (rest id earlier there was).imp (fun waits => waits) fun locked =>
      (leaves.rows kind other apart id locked).1
  | _ => trivial

/-- A call does a step. -/
theorem IsSound.go (sound : store.IsSound) (leaves : store.Leaves later call)
    (calls : later.calls = store.calls) (stays : later.Stays call place)
    (current : later.OpenCurrent) (uses : later.CutsOff) : (later.enter call place).IsSound := by
  refine ⟨current, uses, fun other => ?_⟩
  by_cases same : other = call
  · subst same
    have entered : (later.enter other place).calls other = place := update_self ..
    rw [entered]
    cases place <;> exact stays
  · have kept : (later.enter call place).calls other = store.calls other := by
      rw [← calls]
      exact update_of_ne same ..
    rw [kept]
    have before := (sound.calls other).of_leaves leaves same
    cases entered : store.calls other <;> rw [entered] at before <;> exact before

/-- A step that leaves the tables as they are. -/
theorem leaves_of_same (holder : later.holder = store.holder) (rows : later.rows = store.rows) :
    store.Leaves later call := by
  refine ⟨fun other _ held => ⟨holder.trans held, fun kind id row found opens => ?_⟩,
    fun kind other _ => ?_⟩
  · rw [rows] at found
    exact ⟨row, found, opens⟩
  · rw [rows]
    exact .refl _ _

theorem IsSound.pass (sound : store.IsSound) (stays : store.Stays call place) :
    (store.enter call place).IsSound :=
  sound.go (leaves_of_same rfl rfl) rfl stays sound.current sound.uses

variable {kind : AccessKind} {table : LockedTable Nat AccessRow}

/-- Another table leaves what the others have locked, where none of its rows opens or no transaction
holds the row of the user. -/
theorem leaves_put (respects : ∀ other, other ≠ call → (store.rows kind).Respects table other)
    (opens : (∃ other, other ≠ call ∧ store.holder = some other) → ∀ id row,
      table.find id = some row → row.isOpen →
      ∃ earlier, (store.rows kind).find id = some earlier ∧ earlier.isOpen) :
    store.Leaves (store.put kind table) call := by
  refine ⟨fun other apart held => ⟨held, fun other_kind id row found was => ?_⟩,
    fun other_kind other apart => ?_⟩
  · by_cases same : other_kind = kind
    · subst same
      rw [show (store.put other_kind table).rows other_kind = table from
        update_self ..] at found
      exact opens ⟨other, apart, held⟩ id row found was
    · rw [show (store.put kind table).rows other_kind = store.rows other_kind from
        update_of_ne same ..] at found
      exact ⟨row, found, was⟩
  · by_cases same : other_kind = kind
    · subst same
      rw [show (store.put other_kind table).rows other_kind = table from update_self ..]
      exact respects other apart
    · rw [show (store.put kind table).rows other_kind = store.rows other_kind from
        update_of_ne same ..]
      exact .refl _ _

/-- The open rows are current where those of another table are. -/
theorem openCurrent_put (current : store.OpenCurrent)
    (fresh : ∀ id row, table.find id = some row → row.isOpen → row.checked = store.cuts) :
    (store.put kind table).OpenCurrent := by
  intro other id row found opens
  by_cases same : other = kind
  · subst same
    rw [show (store.put other table).rows other = table from update_self ..] at found
    exact fresh id row found opens
  · rw [show (store.put kind table).rows other = store.rows other from
      update_of_ne same ..] at found
    exact current other id row found opens

variable (sound : store.IsSound)

include sound

/-- A row is inserted while its check is current. -/
theorem IsSound.insert {id : Nat} {row : AccessRow}
    (prompt : store.holder = none → row.checked = store.cuts) :
    (store.insert call kind id row).IsSound := by
  unfold AccessStore.insert
  split
  · exact sound
  · next free =>
    have unheld : store.holder = none := by simpa using free
    refine sound.go (leaves_put (fun other _ => respects_insert row) ?_) rfl trivial
      (openCurrent_put sound.current ?_) sound.uses
    · rintro ⟨other, -, held⟩
      cases unheld.symm.trans held
    · intro name other found opens
      rcases find_insert_cases found with before | ⟨-, rfl⟩
      · exact sound.current kind name other before opens
      · exact prompt unheld

omit sound in
/-- A table whose rows are closed where they change. -/
theorem opens_of_update {change : Nat → AccessRow → AccessRow}
    (closes : ∀ key row, (change key row).isOpen → change key row = row) {id : Nat}
    {row : AccessRow} (found : (table.update change).find id = some row) (opens : row.isOpen) :
    table.find id = some row := by
  rw [find_update] at found
  obtain ⟨earlier, before, rfl⟩ := Option.map_eq_some_iff.mp found
  rw [closes id earlier opens]
  exact before

/-- The older grants are closed. -/
theorem IsSound.replaceOlder (purpose checked : Nat) :
    (store.replaceOlder call purpose checked).IsSound := by
  unfold AccessStore.replaceOlder
  dsimp only
  split
  · next free =>
    have closes : ∀ (key : Nat) (row : AccessRow),
        (if row.isOpen && row.purpose == purpose then { row with isOpen := false }
          else row).isOpen = true →
        (if row.isOpen && row.purpose == purpose then { row with isOpen := false } else row) =
          row := by
      intro key row opens
      split at opens
      · cases opens
      · next other => rw [if_neg other]
    refine sound.go (leaves_put ?_ ?_) rfl trivial (openCurrent_put sound.current ?_) sound.uses
    · intro other apart
      refine respects_update fun key row held found => ?_
      split
      · next selected =>
        -- a row that is selected is not locked by another call
        have member : key ∈ (store.rows .grant).keysWhere fun row =>
            row.isOpen && row.purpose == purpose :=
          mem_keysWhere.mpr ⟨row, found, selected⟩
        have ready := List.all_eq_true.mp free key member
        simp only [isFree, held, Bool.or_eq_true, beq_iff_eq, reduceCtorEq,
          Option.some.injEq, false_or] at ready
        exact absurd ready apart
      · rfl
    · rintro - id row found opens
      exact ⟨row, opens_of_update closes found opens, opens⟩
    · intro id row found opens
      exact sound.current .grant id row (opens_of_update closes found opens) opens
  · exact sound

omit sound in
theorem leaves_release : store.Leaves (store.release call) call := by
  refine ⟨fun other apart held => ⟨?_, fun kind id row found opens => ⟨row, found, opens⟩⟩,
    fun kind other apart => respects_release apart⟩
  show (if store.holder = some call then none else store.holder) = some other
  rw [if_neg (fun same => apart (Option.some.inj (held.symm.trans same))), held]

omit sound in
/-- What is left as it is twice is left as it is. -/
theorem Leaves.trans {last : AccessStore} (first : store.Leaves later call)
    (second : later.Leaves last call) : store.Leaves last call := by
  refine ⟨fun other apart held => ?_, fun kind other apart =>
    (first.rows kind other apart).trans (second.rows kind other apart)⟩
  obtain ⟨kept, opens⟩ := first.holder other apart held
  obtain ⟨stays, opened⟩ := second.holder other apart kept
  refine ⟨stays, fun kind id row found was => ?_⟩
  obtain ⟨middle, there, was⟩ := opened kind id row found was
  exact opens kind id middle there was

theorem IsSound.stop (call : Nat) : ((store.release call).enter call .idle).IsSound :=
  sound.go leaves_release rfl trivial sound.current sound.uses

/-- A call locks a row that it need not wait for. -/
theorem IsSound.lock {id : Nat} (free : (store.rows kind).isFree call id)
    (stays : (store.put kind ((store.rows kind).lock call id)).Stays call place) :
    ((store.put kind ((store.rows kind).lock call id)).enter call place).IsSound := by
  refine sound.go (leaves_put (fun other apart => respects_lock free apart) ?_) rfl stays
    (openCurrent_put sound.current ?_) sound.uses
  · exact fun _ name row found opens => ⟨row, found, opens⟩
  · exact fun name row found opens => sound.current kind name row found opens

/-- The session of a login is inserted, once its challenge is used. -/
theorem IsSound.insertSession {after : AccessStore} {row : AccessRow}
    {id : Nat} {expiresAt : Int} (used : store.Leaves after call) (closed : after.OpenCurrent)
    (calls : after.calls = store.calls) (uses : after.CutsOff) (unheld : after.holder = none)
    (checked : row.checked = after.cuts) :
    ((((after.put .session ((after.rows .session).insert id ⟨row.checked, true, expiresAt, 0⟩)).use
      .challenge row).release call).enter call .idle).IsSound := by
  have inserted : after.Leaves (after.put .session
      ((after.rows .session).insert id ⟨row.checked, true, expiresAt, 0⟩)) call := by
    refine leaves_put (fun other _ => respects_insert _) ?_
    rintro ⟨other, -, holds⟩
    cases unheld.symm.trans holds
  have logged : (after.put .session
        ((after.rows .session).insert id ⟨row.checked, true, expiresAt, 0⟩)).Leaves
      ((after.put .session
        ((after.rows .session).insert id ⟨row.checked, true, expiresAt, 0⟩)).use .challenge row)
      call := leaves_of_same rfl rfl
  have current : (after.put .session
      ((after.rows .session).insert id ⟨row.checked, true, expiresAt, 0⟩)).OpenCurrent := by
    refine openCurrent_put closed fun name other found opens => ?_
    rcases find_insert_cases found with before | ⟨-, rfl⟩
    · exact closed .session name other before opens
    · exact checked
  refine sound.go (((used.trans inserted).trans logged).trans leaves_release) calls trivial current
    fun use member => ?_
  rcases List.mem_append.mp member with earlier | last
  · exact uses use earlier
  · rw [List.mem_singleton.mp last]
    exact checked

/-- A login commits: its session is of the check of its challenge. -/
theorem IsSound.createSession {challenge : Nat} (answer : AccessAnswer)
    (stays : store.Stays call (.consuming challenge)) :
    (store.createSession call challenge answer).IsSound := by
  obtain ⟨held, row, found, opens⟩ := stays
  have checked := sound.current .challenge challenge row found opens
  unfold AccessStore.createSession
  split
  · exact sound
  · next free =>
    have unheld : store.holder = none := by simpa using free
    rw [found]
    have nobody : ¬ ∃ other, other ≠ call ∧ store.holder = some other := by
      rintro ⟨other, -, holds⟩
      cases unheld.symm.trans holds
    have used : store.Leaves (store.put .challenge
        ((store.rows .challenge).write challenge { row with isOpen := false })) call :=
      leaves_put (fun other apart => respects_write held apart)
        fun another => absurd another nobody
    have closed : (store.put .challenge
        ((store.rows .challenge).write challenge { row with isOpen := false })).OpenCurrent := by
      refine openCurrent_put sound.current fun id other there was => ?_
      by_cases same : id = challenge
      · subst same
        rw [find_write_self found] at there
        obtain rfl := Option.some.inj there
        cases was
      · rw [find_write_of_ne same] at there
        exact sound.current .challenge id other there was
    exact sound.insertSession used closed rfl sound.uses unheld checked

/-- A transaction commits: no row is left open. -/
theorem IsSound.commit {status : UserStatus}
    (stays : store.Stays call (.updated status [])) : (store.commit call status).IsSound := by
  obtain ⟨held, closed⟩ := stays
  have changed : ∀ kind key row, (if (store.rows kind).holder key = some call then
      { row with isOpen := false } else row : AccessRow).isOpen = true →
      (if (store.rows kind).holder key = some call then { row with isOpen := false } else row) =
        row := by
    intro kind key row opens
    split at opens
    · cases opens
    · next other => rw [if_neg other]
  have leaves : store.Leaves { store with
      status := status
      rows := fun kind => (store.rows kind).update fun key row =>
        if (store.rows kind).holder key = some call then { row with isOpen := false } else row
      cuts := store.cuts + 1 } call := by
    refine ⟨fun other apart holds => ?_, fun kind other apart => ?_⟩
    · exact absurd (Option.some.inj (holds.symm.trans held)) apart
    · refine respects_update fun key row locked _ => if_neg fun own => apart ?_
      exact Option.some.inj (locked.symm.trans own)
  refine sound.go (leaves.trans leaves_release) rfl trivial ?_ sound.uses
  intro kind id row found opens
  -- an open row would have been locked, and closed with the commit
  have before := opens_of_update (changed kind) found opens
  have locked := closed kind List.not_mem_nil id row before opens
  have updated : ((store.rows kind).update fun key row =>
      if (store.rows kind).holder key = some call then { row with isOpen := false }
      else row).find id = some row := found
  rw [find_update, before, Option.map_some, if_pos locked] at updated
  have shut := congrArg AccessRow.isOpen (Option.some.inj updated)
  cases shut.trans opens

omit sound in
theorem find_of_findLive {id : Nat} {row : AccessRow} (live : store.findLive kind id = some row) :
    (store.rows kind).find id = some row ∧ row.isOpen := by
  obtain ⟨found, passes⟩ := Option.filter_eq_some_iff.mp live
  simp only [Bool.and_eq_true] at passes
  exact ⟨found, passes.1⟩

omit sound in
theorem rows_put_of_ne {another : AccessKind} (apart : another ≠ kind) :
    (store.put kind table).rows another = store.rows another :=
  update_of_ne apart ..

omit sound in
theorem rows_put_self : (store.put kind table).rows kind = table := update_self ..

omit sound in
/-- A transaction locks one more of the rows that it closes. -/
theorem stays_closing {status : UserStatus} {remaining : List Nat} {kinds : List AccessKind}
    (stays : store.Stays call (.closing status kind remaining kinds)) (id : Nat) :
    (store.put kind ((store.rows kind).lock call id)).Stays call
      (.closing status kind (remaining.erase id) kinds) := by
  obtain ⟨held, done, rest⟩ := stays
  refine ⟨held, fun other swept name row found opens => ?_, fun name row found opens => ?_⟩
  · have apart : other ≠ kind := fun same => swept (same ▸ List.mem_cons_self ..)
    rw [rows_put_of_ne apart] at found ⊢
    exact done other swept name row found opens
  · rw [rows_put_self] at found ⊢
    by_cases same : name = id
    · subst same
      exact .inr holder_lock_self
    · rcases rest name row found opens with waits | locked
      · exact .inl ((List.mem_erase_of_ne same).mpr waits)
      · exact .inr (holder_lock_own locked)

/-- The next statement of a call. -/
theorem IsSound.advance (answer : AccessAnswer) (stays : store.Stays call place)
    (prompt : ∀ checked, (place = .passed checked ∨ ∃ purpose, place = .replaced purpose checked) →
      store.holder = none → checked = store.cuts) :
    (store.advance call answer place).IsSound := by
  cases place with
  | idle => exact sound
  | credential =>
    unfold advance
    dsimp only
    split <;> exact sound.pass trivial
  | passed checked => exact sound.insert (prompt checked (.inl rfl))
  | found challenge =>
    unfold advance
    dsimp only
    split
    · split
      · next free =>
        cases live : store.findLive .challenge challenge with
        | none => exact sound.pass trivial
        | some row =>
          obtain ⟨found, opens⟩ := find_of_findLive live
          refine sound.lock free ?_
          exact ⟨holder_lock_self, row, found, opens⟩
      · exact sound
    · exact sound.pass trivial
  | consuming challenge => exact sound.createSession answer stays
  | proof session purpose =>
    unfold advance
    dsimp only
    split <;> exact sound.pass trivial
  | verified session purpose checked =>
    unfold advance
    dsimp only
    split <;> exact sound.pass trivial
  | parented purpose checked => exact sound.replaceOlder purpose checked
  | replaced purpose checked => exact sound.insert (prompt checked (.inr ⟨purpose, rfl⟩))
  | begun operation =>
    unfold advance
    dsimp only
    split
    · exact sound
    · next free =>
      have unheld : store.holder = none := by simpa using free
      refine sound.go ⟨fun other _ holds => ?_, fun kind other _ => .refl _ _⟩ rfl rfl sound.current
        sound.uses
      cases unheld.symm.trans holds
  | locked operation =>
    unfold advance
    dsimp only
    split
    · exact sound.stop call
    · refine sound.pass ⟨stays, fun kind missing => absurd ?_ missing⟩
      cases kind <;> simp
  | updated status kinds =>
    cases kinds with
    | nil => exact sound.commit stays
    | cons kind kinds =>
      refine sound.pass ⟨stays.1, fun other swept => stays.2 other swept, fun id row found opens => ?_⟩
      exact .inl (mem_keysWhere.mpr ⟨row, found, opens⟩)
  | closing status kind remaining kinds =>
    unfold advance
    dsimp only
    split
    · next nothing =>
      obtain ⟨held, done, rest⟩ := stays
      refine sound.pass ⟨held, fun other swept => ?_⟩
      by_cases same : other = kind
      · subst same
        intro id row found opens
        exact (rest id row found opens).resolve_left (by rw [nothing]; exact List.not_mem_nil)
      · exact done other (fun member => (List.mem_cons.mp member).elim same swept)
    · split
      · next ready => exact sound.lock ready.2 (stays_closing stays answer.row)
      · exact sound

theorem IsSound.outside (leaves : ∀ call, store.Leaves later call)
    (calls : later.calls = store.calls) (current : later.OpenCurrent) (uses : later.CutsOff) :
    later.IsSound := by
  refine ⟨current, uses, fun other => ?_⟩
  rw [calls]
  exact (sound.calls other).of_leaves (leaves (other + 1)) (by omega)

omit sound in
theorem CutsOff.use (uses : store.CutsOff) {row : AccessRow} (checked : row.checked = store.cuts) :
    (store.use kind row).CutsOff := by
  intro use member
  rcases List.mem_append.mp member with earlier | last
  · exact uses use earlier
  · rw [List.mem_singleton.mp last]
    exact checked

/-- A grant is used. -/
theorem IsSound.useGrant (grant : Nat) (consumes : Bool) :
    (store.useGrant grant consumes).IsSound := by
  unfold AccessStore.useGrant
  split
  · exact sound
  · next unlocked =>
    have free : (store.rows .grant).holder grant = none := by simpa using unlocked
    cases live : store.findLive .grant grant with
    | none => exact sound
    | some row =>
      obtain ⟨found, opens⟩ := find_of_findLive live
      have checked := sound.current .grant grant row found opens
      cases consumes with
      | false =>
        exact sound.outside (fun call => leaves_of_same rfl rfl) rfl sound.current
          (sound.uses.use checked)
      | true =>
        have closed : ∀ id other, ((store.rows .grant).write grant
            { row with isOpen := false }).find id = some other → other.isOpen = true →
            (store.rows .grant).find id = some other := by
          intro id other there was
          by_cases same : id = grant
          · subst same
            rw [find_write_self found] at there
            obtain rfl := Option.some.inj there
            cases was
          · rw [find_write_of_ne same] at there
            exact there
        have written : ∀ call, store.Leaves (store.put .grant
            ((store.rows .grant).write grant { row with isOpen := false })) call := fun call =>
          leaves_put (fun _ _ => respects_write_of_free free)
            fun _ id other there was => ⟨other, closed id other there was, was⟩
        have current : (store.put .grant
            ((store.rows .grant).write grant { row with isOpen := false })).OpenCurrent :=
          openCurrent_put sound.current fun id other there was =>
            sound.current .grant id other (closed id other there was) was
        exact sound.outside (fun call => (written call).trans (leaves_of_same rfl rfl)) rfl current
          (CutsOff.use sound.uses checked)

/-- A step that inserts promptly. -/
theorem IsSound.step (action : AccessStep)
    (prompt : store.InsertsPromptly action) : (store.step action).1.IsSound := by
  have same : ∀ {later : AccessStore}, later.holder = store.holder → later.rows = store.rows →
      later.calls = store.calls → later.cuts = store.cuts → later.uses = store.uses →
      later.IsSound := by
    intro later holder rows calls cuts uses
    refine sound.outside (fun call => leaves_of_same holder rows) calls ?_ ?_
    · intro kind id row found opens
      rw [rows] at found
      rw [cuts]
      exact sound.current kind id row found opens
    · unfold CutsOff
      rw [uses]
      exact sound.uses
  cases action with
  | elapse time => exact same rfl rfl rfl rfl rfl
  | beginLogin call =>
    unfold AccessStore.step
    dsimp only
    split
    · exact sound.pass trivial
    · exact sound
  | findTotpChallenge call challenge =>
    unfold AccessStore.step
    dsimp only
    split
    · exact sound.pass trivial
    · exact sound
  | stepUp call session purpose =>
    unfold AccessStore.step
    dsimp only
    split
    · exact sound.pass trivial
    · exact sound
  | revokeAccess call operation =>
    unfold AccessStore.step
    dsimp only
    split
    · exact sound.pass trivial
    · exact sound
  | advance call answer =>
    refine sound.advance answer (sound.calls call) fun checked inserts free => ?_
    unfold InsertsPromptly at prompt
    dsimp only at prompt
    rcases inserts with passed | ⟨purpose, replaced⟩
    · rw [passed] at prompt
      exact prompt free
    · rw [replaced] at prompt
      exact prompt free
  | abort call => exact sound.stop call
  | findActiveByToken session =>
    unfold AccessStore.step
    dsimp only
    cases live : store.findLive .session session with
    | none => exact sound
    | some row =>
      dsimp only
      split
      · obtain ⟨found, opens⟩ := find_of_findLive live
        exact sound.outside (fun call => leaves_of_same rfl rfl) rfl sound.current
          (sound.uses.use (sound.current .session session row found opens))
      · exact sound
  | useGrant grant consumes => exact sound.useGrant grant consumes
  | enroll =>
    unfold AccessStore.step
    dsimp only
    split
    · exact same rfl rfl rfl rfl rfl
    · exact sound

omit sound

def initial (status : UserStatus) (now : Int) : AccessStore :=
  ⟨status, none, fun _ => ⟨[], fun _ => none, List.nodup_nil⟩, fun _ => .idle, now, 0, []⟩

end AccessStore

/-- Where a challenge and a grant are inserted only while no revocation has been committed since
their password was checked, whatever gives access was checked after the last revocation. -/
theorem revocation_cuts_off (status : UserStatus) (now : Int) (steps : List AccessStep)
    (prompt : Machine.Along AccessStore.step AccessStore.InsertsPromptly (.initial status now)
      steps) :
    Machine.Throughout AccessStore.step AccessStore.CutsOff (.initial status now) steps := by
  have first : (initial status now).IsSound :=
    ⟨fun kind id row found => (by cases found), fun use member => absurd member List.not_mem_nil,
      fun call => trivial⟩
  have kept : ∀ (store : AccessStore) action, store.IsSound → store.InsertsPromptly action →
      (store.step action).1.IsSound := fun _ action sound prompt => sound.step action prompt
  have sound := Machine.throughout_of_along kept first prompt
  exact fun earlier later split => (sound earlier later split).uses

/-- Whether a step inserts promptly. -/
def AccessStore.isPrompt (store : AccessStore) : AccessStep → Bool
  | .advance call _ =>
    match store.calls call with
    | .passed checked | .replaced _ checked => store.holder.isSome || checked == store.cuts
    | _ => true
  | _ => true

/-- A step that is found to insert promptly does. -/
theorem AccessStore.insertsPromptly_of_isPrompt (store : AccessStore) (action : AccessStep)
    (prompt : store.isPrompt action) : store.InsertsPromptly action := by
  cases action with
  | advance call answer =>
    unfold isPrompt at prompt
    unfold InsertsPromptly
    dsimp only at prompt ⊢
    split at prompt
    · next checked found =>
      intro free
      simpa [free] using prompt
    · next purpose checked found =>
      intro free
      simpa [free] using prompt
    · trivial
  | _ => trivial

def everyAnswer : AccessAnswer := ⟨true, 1, 1000, 1⟩

/-- A user logs in and checks the password for a step-up. -/
def stepsUp : List AccessStep :=
  [.beginLogin 1, .advance 1 everyAnswer, .advance 1 everyAnswer, .findTotpChallenge 1 1,
    .advance 1 everyAnswer, .advance 1 everyAnswer, .stepUp 2 1 7] ++
    List.replicate 3 (.advance 2 everyAnswer)

def locksAccount : List AccessStep :=
  .revokeAccess 3 .lock :: List.replicate 11 (.advance 3 everyAnswer)

/-- A grant that is inserted before the lock is not used after it. -/
theorem locksAccount_cuts_off :
    (Machine.after AccessStore.step (.initial .active 0)
        (stepsUp ++ [.advance 2 everyAnswer, .useGrant 1 false] ++ locksAccount ++
          [.useGrant 1 false, .findActiveByToken 1])).uses = [⟨.challenge, 0, 0⟩, ⟨.grant, 0, 0⟩] ∧
      Machine.Throughout AccessStore.step AccessStore.CutsOff (.initial .active 0)
        (stepsUp ++ [.advance 2 everyAnswer, .useGrant 1 false] ++ locksAccount ++
          [.useGrant 1 false, .findActiveByToken 1]) := by
  have prompt : Machine.Along step (fun store action => store.isPrompt action = true)
      (.initial .active 0) (stepsUp ++ [.advance 2 everyAnswer, .useGrant 1 false] ++ locksAccount ++
        [.useGrant 1 false, .findActiveByToken 1]) := by decide +kernel
  exact ⟨by decide +kernel, revocation_cuts_off .active 0 _
    (prompt.imp insertsPromptly_of_isPrompt)⟩

/-- A grant that is inserted after the lock, though its password was checked before, authorises. -/
theorem grant_outlives_lock :
    (Machine.after AccessStore.step (.initial .active 0)
        (stepsUp ++ locksAccount ++ [.advance 2 everyAnswer, .useGrant 1 false])).uses =
        [⟨.challenge, 0, 0⟩, ⟨.grant, 0, 1⟩] ∧
      ¬ Machine.Throughout AccessStore.step AccessStore.CutsOff (.initial .active 0)
        (stepsUp ++ locksAccount ++ [.advance 2 everyAnswer, .useGrant 1 false]) := by
  have uses : (Machine.after step (.initial .active 0)
      (stepsUp ++ locksAccount ++ [.advance 2 everyAnswer, .useGrant 1 false])).uses =
        [⟨.challenge, 0, 0⟩, ⟨.grant, 0, 1⟩] := by decide +kernel
  refine ⟨uses, fun every => ?_⟩
  have held := every _ [] (List.append_nil _).symm ⟨.grant, 0, 1⟩ (by rw [uses]; simp)
  exact absurd held (by decide)

end NancyMan.Accounts
