import Mathlib.Tactic.Linarith

/-!
# Audits of schema views

A view is audited unless an audit of its key was appended less than a window ago. Calls that come while
an append for their key is in flight wait for it: they look again where it succeeds and fail with it.
`audits_once` says that no audit is lost and none is repeated, in whatever order the appends settle.
-/
namespace NancyMan.Explorer

open Function (update_apply update_of_ne update_self)

abbrev AuditWindow := { windowMs : ℚ // 0 < windowMs }

/-- How far a call of `run` is: it waits for its own append, or for the call that appends for its key. -/
inductive AuditPhase (κ : Type) where
  | idle
  | appending (key : κ)
  | waiting (key : κ) (owner : Nat)
  | resolved (key : κ) (time : ℚ)
  | rejected

/-- The limiter with the clock and the calls, and the appends that succeeded with their times, the last
first. -/
structure SchemaViewAuditLimiter (κ : Type) where
  now : ℚ
  lastWrittenAt : κ → Option ℚ
  pending : κ → Option Nat
  phase : Nat → AuditPhase κ
  appended : List (κ × ℚ)

/-- What happens next: time passes, a call comes, its append settles, or a call goes on after the append
that it waited for. -/
inductive AuditAction (κ : Type) where
  | pass (time : ℚ)
  | run (call : Nat) (key : κ)
  | settle (call : Nat) (succeeds : Bool)
  | resume (call : Nat)

open SchemaViewAuditLimiter

namespace SchemaViewAuditLimiter

variable {κ : Type}

def initial (now : ℚ) : SchemaViewAuditLimiter κ :=
  ⟨now, fun _ => none, fun _ => none, fun _ => .idle, []⟩

variable [DecidableEq κ] (window : AuditWindow) (limiter : SchemaViewAuditLimiter κ)

/-- `run` up to its first wait. -/
def run (call : Nat) (key : κ) : SchemaViewAuditLimiter κ :=
  let lastWrittenAt := fun other =>
    (limiter.lastWrittenAt other).filter fun time => !decide (window.1 ≤ limiter.now - time)
  if (lastWrittenAt key).any fun time => limiter.now - time < window.1 then
    { limiter with
      lastWrittenAt
      phase := Function.update limiter.phase call (.resolved key limiter.now) }
  else
    match limiter.pending key with
    | some owner =>
      { limiter with
        lastWrittenAt
        phase := Function.update limiter.phase call (.waiting key owner) }
    | none =>
      { limiter with
        lastWrittenAt
        pending := Function.update limiter.pending key (some call)
        phase := Function.update limiter.phase call (.appending key) }

/-- `run` after its append. -/
def settle (call : Nat) (key : κ) (succeeds : Bool) : SchemaViewAuditLimiter κ :=
  let pending := Function.update limiter.pending key none
  if succeeds then
    { limiter with
      lastWrittenAt := Function.update limiter.lastWrittenAt key (some limiter.now)
      pending
      phase := Function.update limiter.phase call (.resolved key limiter.now)
      appended := (key, limiter.now) :: limiter.appended }
  else { limiter with pending, phase := Function.update limiter.phase call .rejected }

/-- An action, where it can happen. -/
def step : AuditAction κ → SchemaViewAuditLimiter κ
  | .pass time => { limiter with now := max limiter.now time }
  | .run call key =>
    match limiter.phase call with
    | .idle => limiter.run window call key
    | _ => limiter
  | .settle call succeeds =>
    match limiter.phase call with
    | .appending key => limiter.settle call key succeeds
    | _ => limiter
  | .resume call =>
    match limiter.phase call with
    | .waiting key owner =>
      match limiter.phase owner with
      | .resolved _ _ => limiter.run window call key
      | .rejected => { limiter with phase := Function.update limiter.phase call .rejected }
      | _ => limiter
    | _ => limiter

def after (actions : List (AuditAction κ)) : SchemaViewAuditLimiter κ :=
  actions.foldl (step window) limiter

def IsOpen (key : κ) : Prop :=
  ∀ time, (key, time) ∈ limiter.appended → time + window.1 ≤ limiter.now

/-- What holds of every state: the table of appends in flight tells the calls that append, whose keys are
open, and the table of times tells at least the appends within the window, which are apart and cover the
calls that were resolved. -/
structure IsSound : Prop where
  pending : ∀ key call, limiter.pending key = some call ↔ limiter.phase call = .appending key
  isOpen : ∀ key call, limiter.phase call = .appending key → limiter.IsOpen window key
  written : ∀ key time, limiter.lastWrittenAt key = some time → (key, time) ∈ limiter.appended
  recent : ∀ key time, (key, time) ∈ limiter.appended → limiter.now - time < window.1 →
    limiter.lastWrittenAt key = some time
  past : ∀ entry ∈ limiter.appended, entry.2 ≤ limiter.now
  apart : limiter.appended.Pairwise fun later earlier =>
    later.1 = earlier.1 → earlier.2 + window.1 ≤ later.2
  covered : ∀ call key time, limiter.phase call = .resolved key time →
    ∃ written, (key, written) ∈ limiter.appended ∧ written ≤ time ∧ time - written ≤ window.1

variable {window limiter} {call : Nat} {key : κ}

omit [DecidableEq κ] in
theorem isSound_initial (now : ℚ) : (initial now : SchemaViewAuditLimiter κ).IsSound window where
  pending := by simp [initial]
  isOpen := by simp [initial]
  written := by simp [initial]
  recent := by simp [initial]
  past := by simp [initial]
  apart := .nil
  covered := by simp [initial]

variable (sound : limiter.IsSound window)

include sound

omit [DecidableEq κ] in
/-- A key is open exactly when no time within the window is known of it. -/
theorem isOpen_iff : limiter.IsOpen window key ↔
    ∀ time, limiter.lastWrittenAt key = some time → window.1 ≤ limiter.now - time := by
  constructor
  · intro isOpen time known
    have early := isOpen time (sound.written key time known)
    linarith
  · intro known time member
    by_contra recent
    have late : limiter.now - time < window.1 := by linarith
    have early := known time (sound.recent key time member late)
    linarith

omit [DecidableEq κ] in
/-- A call moves on, with the table of appends in flight, and the times out of the window may be
forgotten. -/
theorem IsSound.moves {phase : AuditPhase κ} {lastWrittenAt : κ → Option ℚ} {pending : κ → Option Nat}
    (owns : ∀ key other, pending key = some other ↔
      Function.update limiter.phase call phase other = .appending key)
    (opens : ∀ key, phase = .appending key → limiter.IsOpen window key)
    (written : ∀ key time, lastWrittenAt key = some time → limiter.lastWrittenAt key = some time)
    (recent : ∀ key time, limiter.lastWrittenAt key = some time →
      limiter.now - time < window.1 → lastWrittenAt key = some time)
    (covered : ∀ key time, phase = .resolved key time →
      ∃ written, (key, written) ∈ limiter.appended ∧ written ≤ time ∧ time - written ≤ window.1) :
    IsSound window { limiter with
      lastWrittenAt, pending, phase := Function.update limiter.phase call phase } where
  pending := owns
  isOpen key other appending := by
    by_cases own : other = call
    · exact opens key (by simpa [own] using appending)
    · exact sound.isOpen key other (by simpa [own] using appending)
  written key time known := sound.written key time (written key time known)
  recent key time member late := recent key time (sound.recent key time member late) late
  past := sound.past
  apart := sound.apart
  covered other key time resolved := by
    by_cases own : other = call
    · exact covered key time (by simpa [own] using resolved)
    · exact sound.covered other key time (by simpa [own] using resolved)

omit [DecidableEq κ] in
/-- A call that does not append before or after moves on soundly. -/
theorem IsSound.quiet (free : ∀ key, limiter.phase call ≠ .appending key) {phase : AuditPhase κ}
    (free' : ∀ key, phase ≠ .appending key) (key : κ) (other : Nat) :
    limiter.pending key = some other ↔
      Function.update limiter.phase call phase other = .appending key := by
  rw [sound.pending, update_apply]
  split
  · next own => exact iff_of_false (own ▸ free key) (free' key)
  · exact .rfl

/-- A call that begins to look moves on soundly. -/
theorem IsSound.run (free : ∀ key, limiter.phase call ≠ .appending key) :
    (limiter.run window call key).IsSound window := by
  have written (key : κ) (time : ℚ) (known : ((limiter.lastWrittenAt key).filter fun time =>
      !decide (window.1 ≤ limiter.now - time)) = some time) :
      limiter.lastWrittenAt key = some time :=
    (Option.filter_eq_some_iff.mp known).1
  have recent (key : κ) (time : ℚ) (known : limiter.lastWrittenAt key = some time)
      (late : limiter.now - time < window.1) : ((limiter.lastWrittenAt key).filter fun time =>
        !decide (window.1 ≤ limiter.now - time)) = some time :=
    Option.filter_eq_some_iff.mpr ⟨known, by simpa using late⟩
  unfold SchemaViewAuditLimiter.run
  dsimp only
  split
  · next found =>
    obtain ⟨time, known, late⟩ := (Option.any_eq_true _ _).mp found
    refine sound.moves (sound.quiet free nofun) nofun written recent ?_
    rintro _ _ ⟨⟩
    have member := sound.written key time (written key time known)
    exact ⟨time, member, sound.past _ member, le_of_lt (of_decide_eq_true late)⟩
  · next unknown =>
    split
    · exact sound.moves (sound.quiet free nofun) nofun written recent nofun
    · next idle =>
      refine sound.moves (fun other caller => ?_) ?_ written recent nofun
      · have known := sound.pending other caller
        grind [update_apply]
      · rintro _ ⟨⟩
        refine (isOpen_iff sound).mpr fun time known => ?_
        by_contra early
        have late : limiter.now - time < window.1 := lt_of_not_ge early
        exact unknown ((Option.any_eq_true _ _).mpr
          ⟨time, recent key time known late, decide_eq_true late⟩)

/-- A successful append of an open key, for which none is in flight, keeps the limiter sound. -/
theorem IsSound.append (isOpen : limiter.IsOpen window key)
    (free : ∀ call, limiter.phase call ≠ .appending key) :
    IsSound window { limiter with
      lastWrittenAt := Function.update limiter.lastWrittenAt key (some limiter.now)
      appended := (key, limiter.now) :: limiter.appended } where
  pending := sound.pending
  isOpen other caller appending time member := by
    rcases List.mem_cons.mp member with own | member
    · rw [(Prod.mk.inj own).1] at appending
      exact absurd appending (free caller)
    · exact sound.isOpen other caller appending time member
  written other time known := by
    have appends := sound.written other time
    grind [update_apply]
  recent other time member late := by
    have early := isOpen time
    have known := sound.recent other time
    grind [update_apply]
  past entry member := by
    rcases List.mem_cons.mp member with rfl | member
    · exact le_refl _
    · exact sound.past entry member
  apart := List.pairwise_cons.mpr ⟨fun entry member same => isOpen entry.2 (by
    rw [show key = entry.1 from same]
    exact member), sound.apart⟩
  covered caller other time resolved := by
    obtain ⟨written, member, near⟩ := sound.covered caller other time resolved
    exact ⟨written, .tail _ member, near⟩

/-- A call whose append settles moves on soundly. -/
theorem IsSound.settle (appending : limiter.phase call = .appending key) (succeeds : Bool) :
    (limiter.settle call key succeeds).IsSound window := by
  have failed : (limiter.settle call key false).IsSound window := by
    refine sound.moves (fun other caller => ?_) nofun (fun _ _ known => known)
      (fun _ _ known _ => known) nofun
    have known := sound.pending other caller
    have alone := sound.pending key call
    grind [update_apply]
  cases succeeds with
  | false => exact failed
  | true =>
    have free (other : Nat) : (limiter.settle call key false).phase other ≠ .appending key := by
      intro appends
      have owned := (failed.pending key other).mpr appends
      simp [SchemaViewAuditLimiter.settle] at owned
    have appended := failed.append (sound.isOpen key call appending) free
    have moved : Function.update (Function.update limiter.phase call .rejected) call
        (.resolved key limiter.now) =
        Function.update limiter.phase call (.resolved key limiter.now) := Function.update_idem ..
    rw [SchemaViewAuditLimiter.settle, if_pos rfl, ← moved]
    refine appended.moves (appended.quiet ?_ nofun) nofun (fun _ _ known => known)
      (fun _ _ known _ => known) ?_
    · simp [SchemaViewAuditLimiter.settle]
    · rintro _ _ ⟨⟩
      exact ⟨limiter.now, .head _, le_refl _, by rw [sub_self]; exact le_of_lt window.2⟩

/-- Every action keeps the limiter sound. -/
theorem IsSound.step (action : AuditAction κ) : (limiter.step window action).IsSound window := by
  cases action with
  | pass time =>
    have later : limiter.now ≤ max limiter.now time := le_max_left ..
    refine ⟨sound.pending, fun key call appending written member => ?_, sound.written,
      fun key written member late => sound.recent key written member ?_,
      fun entry member => (sound.past entry member).trans later, sound.apart, sound.covered⟩
    · exact (sound.isOpen key call appending written member).trans later
    · change max limiter.now time - written < window.1 at late
      linarith
  | run call key =>
    unfold SchemaViewAuditLimiter.step
    dsimp only
    split
    · next idle => exact sound.run fun key => by rw [idle]; exact nofun
    · exact sound
  | settle call succeeds =>
    unfold SchemaViewAuditLimiter.step
    dsimp only
    split
    · next appending => exact sound.settle appending succeeds
    · exact sound
  | resume call =>
    unfold SchemaViewAuditLimiter.step
    dsimp only
    split
    · next waits =>
      have free (key : κ) : limiter.phase call ≠ .appending key := by rw [waits]; exact nofun
      split
      · exact sound.run free
      · exact sound.moves (sound.quiet free nofun) nofun (fun _ _ known => known)
          (fun _ _ known _ => known) nofun
      · exact sound
    · exact sound

theorem IsSound.after (actions : List (AuditAction κ)) :
    (limiter.after window actions).IsSound window := by
  induction actions generalizing limiter with
  | nil => exact sound
  | cons action rest ih => exact ih (sound.step action)

/-- A new call appends exactly where its key is open and no append for it is in flight. -/
theorem IsSound.appends_iff (idle : limiter.phase call = .idle) :
    (limiter.step window (.run call key)).phase call = .appending key ↔
      (∀ other, limiter.phase other ≠ .appending key) ∧ limiter.IsOpen window key := by
  have begins : limiter.step window (.run call key) = limiter.run window call key := by
    rw [SchemaViewAuditLimiter.step, idle]
  have known : ((limiter.lastWrittenAt key).filter fun time =>
      !decide (window.1 ≤ limiter.now - time)).any (fun time => limiter.now - time < window.1) = true ↔
        ¬limiter.IsOpen window key := by
    rw [isOpen_iff sound]
    cases limiter.lastWrittenAt key with
    | none => simp
    | some time =>
      by_cases late : limiter.now - time < window.1 <;> simp [Option.filter, late]
  rw [begins, SchemaViewAuditLimiter.run]
  split
  · next late =>
    simp [known.mp late]
  · next early =>
    have isOpen := not_not.mp (mt known.mpr early)
    split
    · next owner owned =>
      have appending := (sound.pending key owner).mp owned
      simp only [update_self, reduceCtorEq, false_iff]
      exact fun free => free.1 owner appending
    · next idle =>
      simp only [update_self, true_iff]
      refine ⟨fun other appending => ?_, isOpen⟩
      rw [(sound.pending key other).mpr appending] at idle
      cases idle

omit sound

theorem run_phase : ∃ phase, (limiter.run window call key).phase =
    Function.update limiter.phase call phase := by
  unfold run
  dsimp only
  split
  · exact ⟨_, rfl⟩
  · split <;> exact ⟨_, rfl⟩

/-- An action changes the phase of its own call alone, from where that call is. -/
theorem phase_step (action : AuditAction κ) :
    (limiter.step window action).phase call = limiter.phase call ∨
      limiter.phase call = .idle ∨ (∃ key, limiter.phase call = .appending key) ∨
      ∃ key owner, limiter.phase call = .waiting key owner ∧ action = .resume call := by
  have runs (caller : Nat) (key : κ) :
      (limiter.run window caller key).phase call = limiter.phase call ∨ call = caller := by
    obtain ⟨phase, moves⟩ : ∃ phase, (limiter.run window caller key).phase =
        Function.update limiter.phase caller phase := run_phase
    rw [moves, update_apply]
    split
    · next own => exact .inr own
    · exact .inl rfl
  cases action with
  | pass time => exact .inl rfl
  | run caller key => grind [step]
  | settle caller succeeds =>
    simp only [step]
    split
    · next appending =>
      by_cases own : call = caller
      · exact .inr (.inr (.inl ⟨_, own ▸ appending⟩))
      · left
        cases succeeds <;> exact update_of_ne own ..
    · exact .inl rfl
  | resume caller =>
    simp only [step]
    split
    · next waits =>
      by_cases own : call = caller
      · exact .inr (.inr (.inr ⟨_, _, own ▸ waits, by rw [own]⟩))
      · left
        split
        · exact (runs _ _).resolve_right own
        · exact update_of_ne own ..
        · rfl
    · exact .inl rfl

/-- A rejected call stays so. -/
theorem rejected_after (rejected : limiter.phase call = .rejected) (actions : List (AuditAction κ)) :
    (limiter.after window actions).phase call = .rejected := by
  induction actions generalizing limiter with
  | nil => exact rejected
  | cons action rest ih =>
    have moves : (limiter.step window action).phase call = limiter.phase call ∨ _ := phase_step action
    simp only [rejected, reduceCtorEq, exists_false, false_and, or_false] at moves
    exact ih moves

/-- A call that waits for a rejected one waits until it goes on, and is rejected then. -/
theorem waiting_after {owner : Nat} (waits : limiter.phase call = .waiting key owner)
    (rejected : limiter.phase owner = .rejected) (actions : List (AuditAction κ)) :
    (.resume call ∈ actions → (limiter.after window actions).phase call = .rejected) ∧
      (.resume call ∉ actions → (limiter.after window actions).phase call = .waiting key owner) := by
  induction actions generalizing limiter with
  | nil => exact ⟨nofun, fun _ => waits⟩
  | cons action rest ih =>
    by_cases own : action = .resume call
    · have goes : (limiter.step window action).phase call = .rejected := by
        simp [own, step, waits, rejected]
      exact ⟨fun _ => rejected_after goes rest, fun absent => absurd (own ▸ .head _) absent⟩
    · have moves : (limiter.step window action).phase call = limiter.phase call ∨ _ :=
        phase_step action
      simp only [waits, own, reduceCtorEq, exists_false, and_false, or_false] at moves
      have later := ih moves (rejected_after rejected [action])
      exact ⟨fun member => later.1 (List.mem_of_ne_of_mem (Ne.symm own) member),
        fun absent => later.2 fun member => absent (.tail _ member)⟩

/-- Audits of schema views are neither lost nor repeated. In every run: at most one append is in flight for
a key; a call that is resolved is covered by an append that succeeded within the window; successful
appends of a key are at least a window apart; where an append fails, every call that waits for it fails
when it goes on, and the next call of its key appends again, as every new call of a key does that is open
and for which no append is in flight. -/
theorem audits_once (window : AuditWindow) (now : ℚ) (actions : List (AuditAction κ)) :
    let limiter := (initial now : SchemaViewAuditLimiter κ).after window actions
    (∀ key one two, limiter.phase one = .appending key → limiter.phase two = .appending key →
      one = two) ∧
    (∀ call key time, limiter.phase call = .resolved key time →
      ∃ written, (key, written) ∈ limiter.appended ∧ written ≤ time ∧ time - written ≤ window.1) ∧
    (limiter.appended.Pairwise fun later earlier =>
      later.1 = earlier.1 → earlier.2 + window.1 ≤ later.2) ∧
    (∀ owner key, limiter.phase owner = .appending key →
      let failed := limiter.step window (.settle owner false)
      (∀ call waited, limiter.phase call = .waiting waited owner → ∀ later,
        (.resume call ∈ later → (failed.after window later).phase call = .rejected) ∧
        (.resume call ∉ later → (failed.after window later).phase call = .waiting waited owner)) ∧
      ∀ call, failed.phase call = .idle →
        (failed.step window (.run call key)).phase call = .appending key) ∧
    ∀ call key, limiter.phase call = .idle →
      ((limiter.step window (.run call key)).phase call = .appending key ↔
        (∀ other, limiter.phase other ≠ .appending key) ∧ limiter.IsOpen window key) := by
  intro limiter
  have sound : limiter.IsSound window := (isSound_initial now).after actions
  refine ⟨fun key one two first second => ?_, sound.covered, sound.apart,
    fun owner key appending => ?_, fun call key idle => sound.appends_iff idle⟩
  · exact Option.some.inj (((sound.pending key one).mpr first).symm.trans
      ((sound.pending key two).mpr second))
  · have fails : limiter.step window (.settle owner false) = limiter.settle owner key false := by
      rw [step, appending]
    have failed := sound.step (.settle owner false)
    rw [fails] at failed ⊢
    refine ⟨fun call waited waits later => waiting_after ?_ (Function.update_self ..) later,
      fun call idle => (failed.appends_iff idle).mpr
        ⟨fun other appends => ?_, sound.isOpen key owner appending⟩⟩
    · have differs : call ≠ owner := by
        rintro rfl
        rw [appending] at waits
        cases waits
      exact (Function.update_of_ne differs ..).trans waits
    · have owned := (failed.pending key other).mpr appends
      rw [show (limiter.settle owner key false).pending key = none from Function.update_self ..]
        at owned
      cases owned

end SchemaViewAuditLimiter

end NancyMan.Explorer
