import Mathlib.Data.List.Chain
import NancyMan.Lib.Machine

/-!
# The lifetime of a session

A session is issued with the time of its idle expiry, half an hour after the login. A request moves
the last activity of the session but not its idle expiry, which is what is asked for: the session
ends half an hour after the login however it is used. `sliding_iff` says that it is found exactly
while a sliding window would be open when no request of an open window comes later than that.
-/
namespace NancyMan.Auth

/-- A row of `ops_sessions`, in milliseconds. -/
structure SessionRow where
  lastActivityAt : Int
  idleExpiresAt : Int
  absoluteExpiresAt : Int
  revokedAt : Option Int

/-- What a session needs of its user. -/
structure SessionUser where
  isActive : Bool
  loginBlockedUntil : Option Int

def idleMilliseconds : Int := 30 * 60 * 1000

def absoluteMilliseconds : Int := 12 * 60 * 60 * 1000

/-- `createSession`, as the row that is inserted. -/
def SessionRow.createSession (now : Int) : SessionRow where
  lastActivityAt := now
  idleExpiresAt := now + idleMilliseconds
  absoluteExpiresAt := now + absoluteMilliseconds
  revokedAt := none

def SessionUser.isOpen (user : SessionUser) (now : Int) : Bool :=
  user.isActive && user.loginBlockedUntil.all fun blocked => decide (blocked ≤ now)

/-- The conditions of the query of `findActiveByToken`. -/
def SessionRow.isFound (session : SessionRow) (user : SessionUser) (now : Int) : Bool :=
  session.revokedAt.isNone && decide (now < session.idleExpiresAt) &&
    decide (now < session.absoluteExpiresAt) && user.isOpen now

/-- `findActiveByToken`: what becomes of the row, and the session that is found. -/
def findActiveByToken (user : SessionUser) (session : SessionRow) (now : Int) :
    SessionRow × Option SessionRow :=
  if session.isFound user now then
    (if 5 * 60 * 1000 ≤ now - session.lastActivityAt then { session with lastActivityAt := now }
      else session, some session)
  else (session, none)

/-- `revokeById`, and the revocation of all sessions of a user. -/
def revokeById (session : SessionRow) (now : Int) : SessionRow :=
  if session.revokedAt.isNone then { session with revokedAt := some now } else session

/-! ## Runs -/

/-- A session in use: the time, the row, and when the session was used, from the login on. -/
structure SessionUse where
  now : Int
  session : SessionRow
  uses : List Int

/-- What happens to a session, some time after what happened before. -/
inductive SessionAction where
  | request (elapsed : Nat)
  | revoke (elapsed : Nat)

namespace SessionUse

def login (now : Int) : SessionUse := ⟨now, SessionRow.createSession now, [now]⟩

/-- A request, or a revocation. -/
def step (user : SessionUser) (use : SessionUse) : SessionAction → SessionUse × Option SessionRow
  | .request elapsed =>
    let now := use.now + elapsed
    let found := findActiveByToken user use.session now
    (⟨now, found.1, use.uses ++ [now]⟩, found.2)
  | .revoke elapsed =>
    let now := use.now + elapsed
    ({ use with now := now, session := revokeById use.session now }, none)

/-- A sliding window is open: successive uses are less than half an hour apart, the absolute expiry
has not passed and the session is not revoked. -/
def IsOpen (start : Int) (use : SessionUse) (now : Int) : Prop :=
  (use.uses ++ [now]).IsChain (fun earlier later => later - earlier < idleMilliseconds) ∧
    now < start + absoluteMilliseconds ∧ use.session.revokedAt = none

/-- A request finds the session exactly while a sliding window is open. -/
def Slides (user : SessionUser) (start : Int) (use : SessionUse) (action : SessionAction) : Prop :=
  ∀ elapsed, action = .request elapsed →
    ((use.step user action).2.isSome = true ↔ use.IsOpen start (use.now + elapsed))

/-- A request of an open window comes within half an hour of the login. -/
def IsEarly (start : Int) (use : SessionUse) (action : SessionAction) : Prop :=
  ∀ elapsed, action = .request elapsed → use.IsOpen start (use.now + elapsed) →
    use.now + elapsed < start + idleMilliseconds

/-- The session has the expiries of its login, and was used between the login and now. -/
structure IsSound (start : Int) (use : SessionUse) : Prop where
  idle : use.session.idleExpiresAt = start + idleMilliseconds
  absolute : use.session.absoluteExpiresAt = start + absoluteMilliseconds
  started : start ≤ use.now
  within : ∀ time ∈ use.uses, start ≤ time ∧ time ≤ use.now

variable {user : SessionUser} {start : Int} {use : SessionUse}

theorem isSound_login (start : Int) : (login start).IsSound start := by
  refine ⟨rfl, rfl, Int.le_refl start, fun time member => ?_⟩
  obtain rfl := List.mem_singleton.mp member
  exact ⟨Int.le_refl _, Int.le_refl _⟩

/-- A request leaves the expiries and the revocation of a session. -/
theorem findActiveByToken_row (session : SessionRow) (now : Int) :
    (findActiveByToken user session now).1.idleExpiresAt = session.idleExpiresAt ∧
      (findActiveByToken user session now).1.absoluteExpiresAt = session.absoluteExpiresAt ∧
      (findActiveByToken user session now).1.revokedAt = session.revokedAt := by
  unfold findActiveByToken
  split
  · dsimp only
    split <;> exact ⟨rfl, rfl, rfl⟩
  · exact ⟨rfl, rfl, rfl⟩

theorem findActiveByToken_isSome (session : SessionRow) (now : Int) :
    (findActiveByToken user session now).2.isSome = session.isFound user now := by
  unfold findActiveByToken
  cases session.isFound user now <;> rfl

theorem revokeById_expiries (session : SessionRow) (now : Int) :
    (revokeById session now).idleExpiresAt = session.idleExpiresAt ∧
      (revokeById session now).absoluteExpiresAt = session.absoluteExpiresAt := by
  unfold revokeById
  split <;> exact ⟨rfl, rfl⟩

variable (sound : use.IsSound start)

include sound

/-- A step keeps the expiries and the order of the uses. -/
theorem IsSound.step (action : SessionAction) : (use.step user action).1.IsSound start := by
  cases action with
  | request elapsed =>
    have started := sound.started
    refine ⟨(findActiveByToken_row _ _).1.trans sound.idle,
      (findActiveByToken_row _ _).2.1.trans sound.absolute, ?_, fun time member => ?_⟩
    · show start ≤ use.now + elapsed
      omega
    · show start ≤ time ∧ time ≤ use.now + elapsed
      rcases List.mem_append.mp member with earlier | last
      · have bounds := sound.within time earlier
        omega
      · have same := List.mem_singleton.mp last
        omega
  | revoke elapsed =>
    obtain ⟨idle, absolute⟩ := revokeById_expiries use.session (use.now + elapsed)
    have started := sound.started
    refine ⟨idle.trans sound.idle, absolute.trans sound.absolute, ?_, fun time member => ?_⟩
    · show start ≤ use.now + elapsed
      omega
    · have bounds := sound.within time member
      show start ≤ time ∧ time ≤ use.now + elapsed
      omega

theorem found_iff {now : Int} (isOpen : user.isOpen now) :
    use.session.isFound user now ↔ use.session.revokedAt = none ∧
      now < start + idleMilliseconds ∧ now < start + absoluteMilliseconds := by
  unfold SessionRow.isFound
  simp only [Bool.and_eq_true, decide_eq_true_eq, Option.isNone_iff_eq_none, isOpen, and_true,
    sound.idle, sound.absolute, and_assoc]

/-- Uses within half an hour of the login are less than half an hour apart. -/
theorem isChain_of_early {now : Int} (later : use.now ≤ now)
    (early : now < start + idleMilliseconds) :
    (use.uses ++ [now]).IsChain fun earlier later => later - earlier < idleMilliseconds := by
  have bounded : ∀ time ∈ use.uses ++ [now], start ≤ time ∧ time ≤ now := by
    intro time member
    have started := sound.started
    rcases List.mem_append.mp member with earlier | last
    · have bounds := sound.within time earlier
      omega
    · have same := List.mem_singleton.mp last
      omega
  apply List.Pairwise.isChain
  refine List.pairwise_of_forall_mem_list fun earlier first later second => ?_
  have low := (bounded earlier first).1
  have high := (bounded later second).2
  omega

theorem open_of_found {now : Int} (isOpen : user.isOpen now) (later : use.now ≤ now)
    (found : use.session.isFound user now) : use.IsOpen start now := by
  obtain ⟨unrevoked, idle, absolute⟩ := (found_iff sound isOpen).mp found
  exact ⟨isChain_of_early sound later idle, absolute, unrevoked⟩

omit sound

/-- A request finds the session of an open window exactly when it comes early. -/
theorem slides_iff (open_user : ∀ now, start ≤ now → user.isOpen now) (sound : use.IsSound start)
    (action : SessionAction) : use.Slides user start action ↔ use.IsEarly start action := by
  have started := sound.started
  constructor
  · intro slides elapsed same isOpen
    have isOpen' := open_user (use.now + elapsed) (by omega)
    have found := (slides elapsed same).mpr isOpen
    subst same
    rw [show (use.step user (.request elapsed)).2 =
      (findActiveByToken user use.session (use.now + elapsed)).2 from rfl,
      findActiveByToken_isSome] at found
    exact ((found_iff sound isOpen').mp found).2.1
  · intro early elapsed same
    have isOpen' := open_user (use.now + elapsed) (by omega)
    subst same
    rw [show (use.step user (.request elapsed)).2 =
      (findActiveByToken user use.session (use.now + elapsed)).2 from rfl,
      findActiveByToken_isSome]
    constructor
    · exact open_of_found sound isOpen' (by omega)
    · intro isOpen
      exact (found_iff sound isOpen').mpr
        ⟨isOpen.2.2, early elapsed rfl isOpen, isOpen.2.1⟩

end SessionUse

open SessionUse (login Slides IsEarly IsOpen)

/-- The session of a user who stays active and unblocked is found only while a sliding window is
open; in every run the requests find it exactly while one is when each request of an open window
comes within half an hour of the login, and only then. -/
theorem sliding_iff (user : SessionUser) (start : Int)
    (openUser : ∀ now, start ≤ now → user.isOpen now = true) (actions : List SessionAction) :
    Machine.Along (SessionUse.step user) (fun use action => ∀ elapsed, action = .request elapsed →
        (use.step user action).2.isSome = true → use.IsOpen start (use.now + elapsed))
      (login start) actions ∧
    (Machine.Along (SessionUse.step user) (Slides user start) (login start) actions ↔
      Machine.Along (SessionUse.step user) (IsEarly start) (login start) actions) := by
  have kept (use : SessionUse) (action : SessionAction) (sound : use.IsSound start) :
      (use.step user action).1.IsSound start := sound.step action
  have only (use : SessionUse) (action : SessionAction) (sound : use.IsSound start) :
      ∀ elapsed, action = .request elapsed → (use.step user action).2.isSome = true →
        use.IsOpen start (use.now + elapsed) := by
    intro elapsed same found
    have started := sound.started
    have later : use.now ≤ use.now + elapsed := by omega
    subst same
    rw [show (use.step user (.request elapsed)).2 =
      (findActiveByToken user use.session (use.now + elapsed)).2 from rfl,
      SessionUse.findActiveByToken_isSome] at found
    exact SessionUse.open_of_found sound (openUser _ (by omega)) later found
  have agree (use : SessionUse) (action : SessionAction) (sound : use.IsSound start) :
      use.Slides user start action ↔ use.IsEarly start action :=
    SessionUse.slides_iff openUser sound action
  have first := SessionUse.isSound_login start
  exact ⟨Machine.along_of_invariant kept only first actions,
    Machine.along_congr kept agree first actions⟩

def activeUser : SessionUser := ⟨true, none⟩

def everyTwentyMinutes : List SessionAction := [.request 1200000, .request 1200000]

/-- The uses of a session every twenty minutes, with its expiry. -/
theorem everyTwentyMinutes_sliding :
    activeUser.isOpen 0 = true ∧
    (Machine.Along (SessionUse.step activeUser) (Slides activeUser 0) (login 0)
        everyTwentyMinutes ↔
      Machine.Along (SessionUse.step activeUser) (IsEarly 0) (login 0) everyTwentyMinutes) :=
  ⟨rfl, (sliding_iff activeUser 0 (fun _ _ => rfl) everyTwentyMinutes).2⟩

/-- A session that is used every twenty minutes is not found forty minutes after the login. -/
theorem used_session_expires :
    ¬ ∀ (user : SessionUser) (start : Int), (∀ now, start ≤ now → user.isOpen now = true) →
      ∀ actions, Machine.Along (SessionUse.step user) (Slides user start) (login start) actions := by
  intro all
  have slides := all activeUser 0 (fun _ _ => rfl) everyTwentyMinutes
  have second := (slides.2.1 1200000 rfl).mpr
  have isOpen : (SessionUse.step activeUser (login 0) (.request 1200000)).1.IsOpen 0 2400000 := by
    refine ⟨?_, by decide, rfl⟩
    show [0, 1200000, 2400000].IsChain _
    simp [idleMilliseconds]
  have found : false := second isOpen
  cases found

end NancyMan.Auth
