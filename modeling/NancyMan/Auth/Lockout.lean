import NancyMan.Auth.LoginAttempts
import NancyMan.Lib.Machine

/-!
# The block of a login

A block is tested once, by `beginLogin`, on the credential that it read before and on a time without
milliseconds; `completeTotpLogin` does not test it. So a challenge that is open when the user is
blocked can still be completed, and so can a call that has passed its test. The block holds in every
run where a challenge is found, a block is set and a credential is tested only when no such call is
there.
-/
namespace NancyMan.Auth

/-- A call lets no guess pass while the user is blocked. -/
def Logins.Enforced (rules : LoginRules) (logins : Logins) (step : LoginStep) : Prop :=
  ∀ answer, (logins.act rules step).2 = some answer → answer.accepts = true →
    ¬ logins.BlockedAt (logins.time step)

/-- Whether a call can still let a guess pass without testing a block that is set now. -/
def LoginPhase.isAdmitted (rules : LoginRules) : LoginPhase → Bool
  | .credentialRead input (some principal) =>
    rules.verifyPassword principal.passwordHash input.password
  | .verifying input principal => rules.verifyPassword principal.passwordHash input.password
  | .passed .. => true
  | .found _ (some _) => true
  | .consuming .. => true
  | _ => false

/-- The steps that keep a block in force: a completion finds no challenge while the user is blocked,
a credential with the right password is not tested in the second in which the block ends, and a block
is set only when no call is past its test. -/
def Logins.Guarded (rules : LoginRules) (logins : Logins) (step : LoginStep) : Prop :=
  match step.move, logins.calls step.call with
  | .advance _, .completing input =>
    (logins.store.findTotpChallenge (rules.hashMfaChallenge input.mfaChallenge) input.factorId
      input.ipHash (logins.time step)).isSome → ¬ logins.BlockedAt (logins.time step)
  | .advance _, .credentialRead input (some principal) =>
    rules.verifyPassword principal.passwordHash input.password = true →
      ∀ time, principal.loginBlockedUntil = some time → logins.time step < time →
        logins.time step < parseDate time
  | .advance _, .counting _ userId =>
    logins.store.reachesThreshold userId (logins.time step) = true →
      ∀ call, (logins.calls call).isAdmitted rules = false
  | _, _ => True

/-! ## What a call knows -/

/-- What a call that may let a guess pass knows of the block: it has read the one that is set, or
none is ahead. -/
def Knows (rules : LoginRules) (loginBlockedUntil : Option Int) (now : Int) : LoginPhase → Prop
  | .credentialRead input (some principal) =>
    rules.verifyPassword principal.passwordHash input.password = true →
      principal.loginBlockedUntil = loginBlockedUntil
  | .verifying input principal =>
    rules.verifyPassword principal.passwordHash input.password = true →
      ¬ Blocks loginBlockedUntil now
  | .passed .. => ¬ Blocks loginBlockedUntil now
  | .found _ (some _) => ¬ Blocks loginBlockedUntil now
  | .consuming .. => ¬ Blocks loginBlockedUntil now
  | _ => True

variable {now : Int} {phase : LoginPhase} {store : LoginStore} {principal : PasswordCredential}

theorem Blocks.earlier {loginBlockedUntil : Option Int} {later : Int} (ordered : now ≤ later)
    (blocks : Blocks loginBlockedUntil later) : Blocks loginBlockedUntil now := by
  obtain ⟨time, same, ahead⟩ := blocks
  exact ⟨time, same, by omega⟩

variable {rules : LoginRules}

/-- What a call knows stays true as time passes. -/
theorem Knows.later {loginBlockedUntil : Option Int} {now later : Int} {phase : LoginPhase}
    (ordered : now ≤ later) (knows : Knows rules loginBlockedUntil now phase) :
    Knows rules loginBlockedUntil later phase := by
  cases phase with
  | credentialRead input principal => cases principal <;> exact knows
  | verifying input principal => exact fun right blocked => knows right (blocked.earlier ordered)
  | passed input principal => exact fun blocked => knows (blocked.earlier ordered)
  | found input challenge =>
    cases challenge with
    | none => trivial
    | some challenge => exact fun blocked => knows (blocked.earlier ordered)
  | consuming input challenge session => exact fun blocked => knows (blocked.earlier ordered)
  | idle => trivial
  | begun input => trivial
  | completing input => trivial
  | failing origin => trivial
  | counting origin userId => trivial
  | noting origin => trivial

/-- A call that is not past its test knows nothing that a new block could make false. -/
theorem knows_of_not_admitted (outside : phase.isAdmitted rules = false)
    (loginBlockedUntil : Option Int) (now : Int) : Knows rules loginBlockedUntil now phase := by
  cases phase with
  | credentialRead input principal =>
    cases principal with
    | none => trivial
    | some principal =>
      intro right
      have wrong : rules.verifyPassword principal.passwordHash input.password = false := outside
      rw [wrong] at right
      cases right
  | verifying input principal =>
    intro right
    have wrong : rules.verifyPassword principal.passwordHash input.password = false := outside
    rw [wrong] at right
    cases right
  | passed input principal => cases outside
  | found input challenge =>
    cases challenge with
    | none => trivial
    | some challenge => cases outside
  | consuming input challenge session => cases outside
  | idle => trivial
  | begun input => trivial
  | completing input => trivial
  | failing origin => trivial
  | counting origin userId => trivial
  | noting origin => trivial

/-! ## One step of a call -/

/-- A credential that is found has the block that is set. -/
theorem findPasswordCredential_blockedUntil {identifier : String}
    (found : store.findPasswordCredential rules identifier now = some principal) :
    principal.loginBlockedUntil = store.user.loginBlockedUntil := by
  unfold LoginStore.findPasswordCredential at found
  split at found
  · obtain ⟨row, -, rfl⟩ := Option.map_eq_some_iff.mp found
    rfl
  · cases found

/-- A credential whose block is behind the second it ends in is not blocked. -/
theorem not_blocks_of_test (passes : principal.isBlocked now = false)
    (whole : ∀ time, principal.loginBlockedUntil = some time → now < time → now < parseDate time) :
    ¬ Blocks principal.loginBlockedUntil now := by
  rintro ⟨time, same, ahead⟩
  have later := whole time same ahead
  unfold PasswordCredential.isBlocked at passes
  rw [same] at passes
  exact of_decide_eq_false passes later

/-- A step sets a block only at the threshold, and lets a guess pass only where it stores or consumes
a challenge. -/
theorem advance_leaves (rules : LoginRules) (store : LoginStore) (token : String) (now : Int)
    (phase : LoginPhase) :
    ((advance rules store token now phase).store.user.loginBlockedUntil =
        store.user.loginBlockedUntil ∨
      ∃ origin userId, phase = .counting origin userId ∧
        store.reachesThreshold userId now) ∧
    ∀ answer, (advance rules store token now phase).answer = some answer → answer.accepts →
      (∃ input principal, phase = .passed input principal) ∨
        ∃ input challenge session, phase = .consuming input challenge session := by
  cases phase with
  | idle => exact ⟨.inl rfl, nofun⟩
  | begun input => exact ⟨.inl rfl, nofun⟩
  | credentialRead input principal =>
    cases principal with
    | none => exact ⟨.inl rfl, nofun⟩
    | some principal =>
      rw [advance, testAccount]
      split <;> exact ⟨.inl rfl, nofun⟩
  | verifying input principal =>
    rw [advance, testPassword]
    split <;> exact ⟨.inl rfl, nofun⟩
  | passed input principal =>
    refine ⟨.inl ?_, fun _ _ _ => .inl ⟨input, principal, rfl⟩⟩
    rw [advance, storeChallenge, LoginStore.createMfaChallenge]
    split <;> rename_i stored
    · split at stored
      · cases stored
      · cases stored
        rfl
    · rfl
  | completing input => exact ⟨.inl rfl, nofun⟩
  | found input challenge =>
    cases challenge with
    | none => exact ⟨.inl rfl, nofun⟩
    | some challenge =>
      rw [advance, testCode]
      split <;> exact ⟨.inl rfl, nofun⟩
  | consuming input challenge session =>
    refine ⟨.inl ?_, fun _ _ _ => .inr ⟨input, challenge, session, rfl⟩⟩
    show (store.consumeMfaChallengeAndCreateSession (rules.hashMfaChallenge input.mfaChallenge)
      session now).1.user.loginBlockedUntil = _
    unfold LoginStore.consumeMfaChallengeAndCreateSession
    split <;> rfl
  | failing origin =>
    rw [advance, insertFailure]
    split
    · exact ⟨.inl rfl, nofun⟩
    · exact ⟨.inl rfl, nofun⟩
  | counting origin userId =>
    have silent : ∀ answer, (advance rules store token now (.counting origin userId)).answer =
        some answer → answer.accepts = true → False := by
      rw [advance, countFailures]
      split
      · exact nofun
      · rintro _ ⟨⟩ accepts
        cases accepts
    refine ⟨?_, fun answer answered accepts => (silent answer answered accepts).elim⟩
    cases reached : store.reachesThreshold userId now with
    | true => exact .inr ⟨origin, userId, rfl, reached⟩
    | false =>
      rw [advance, countFailures]
      rw [reached]
      exact .inl rfl
  | noting origin => exact ⟨.inl rfl, by rintro _ ⟨⟩ accepts; cases accepts⟩

/-- What a call knows after its own step, where the step is guarded. -/
theorem advance_knows (token : String) (knows : Knows rules store.user.loginBlockedUntil now phase)
    (finds : ∀ input, phase = .completing input →
      (store.findTotpChallenge (rules.hashMfaChallenge input.mfaChallenge) input.factorId
        input.ipHash now).isSome → ¬ Blocks store.user.loginBlockedUntil now)
    (tests : ∀ input principal, phase = .credentialRead input (some principal) →
      rules.verifyPassword principal.passwordHash input.password →
        ∀ time, principal.loginBlockedUntil = some time → now < time → now < parseDate time) :
    Knows rules (advance rules store token now phase).store.user.loginBlockedUntil now
      (advance rules store token now phase).phase := by
  cases phase with
  | idle => trivial
  | begun input =>
    show Knows rules store.user.loginBlockedUntil now (.credentialRead input
      (store.findPasswordCredential rules
        (rules.lower (String.ofList (trim input.identifier.toList))) now))
    cases found : store.findPasswordCredential rules
        (rules.lower (String.ofList (trim input.identifier.toList))) now with
    | none => trivial
    | some principal => exact fun _ => findPasswordCredential_blockedUntil found
  | credentialRead input principal =>
    show Knows rules (testAccount store input principal now).store.user.loginBlockedUntil now
      (testAccount store input principal now).phase
    unfold testAccount
    cases principal with
    | none => trivial
    | some principal =>
      dsimp only
      split
      · trivial
      · rename_i passes
        rw [not_or, not_not] at passes
        intro right
        have same : principal.loginBlockedUntil = store.user.loginBlockedUntil := knows right
        rw [← same]
        exact not_blocks_of_test (Bool.eq_false_iff.mpr passes.2)
          (tests input principal rfl right)
  | verifying input principal =>
    show Knows rules (testPassword rules store input principal).store.user.loginBlockedUntil now
      (testPassword rules store input principal).phase
    unfold testPassword
    split
    · rename_i right
      exact knows right.1
    · trivial
  | passed input principal =>
    show Knows rules (storeChallenge rules store input principal token now).store.user.loginBlockedUntil
      now (storeChallenge rules store input principal token now).phase
    unfold storeChallenge
    split <;> trivial
  | completing input =>
    show Knows rules store.user.loginBlockedUntil now (.found input
      (store.findTotpChallenge (rules.hashMfaChallenge input.mfaChallenge) input.factorId
        input.ipHash now))
    cases found : store.findTotpChallenge (rules.hashMfaChallenge input.mfaChallenge) input.factorId
        input.ipHash now with
    | none => trivial
    | some challenge =>
      refine finds input rfl ?_
      rw [found]
      rfl
  | found input challenge =>
    show Knows rules (testCode rules store input challenge now).store.user.loginBlockedUntil now
      (testCode rules store input challenge now).phase
    unfold testCode
    cases challenge with
    | none => trivial
    | some challenge =>
      dsimp only
      split
      · exact knows
      · trivial
  | consuming input challenge session => trivial
  | failing origin =>
    show Knows rules (insertFailure store origin now).store.user.loginBlockedUntil now
      (insertFailure store origin now).phase
    unfold insertFailure
    split <;> trivial
  | counting origin userId =>
    show Knows rules (countFailures store origin userId now).store.user.loginBlockedUntil now
      (countFailures store origin userId now).phase
    unfold countFailures
    split <;> trivial
  | noting origin => trivial

/-! ## Runs -/

namespace Logins

def Informed (rules : LoginRules) (logins : Logins) : Prop :=
  ∀ call, Knows rules logins.store.user.loginBlockedUntil logins.now (logins.calls call)

/-- The result of a move is that of the call's next step, or it leaves the tables, answers nothing and
starts a call or leaves it. -/
theorem result_cases (rules : LoginRules) (logins : Logins) (step : LoginStep) :
    (∃ token, step.move = .advance token ∧
      logins.result rules step =
        advance rules logins.store token (logins.time step) (logins.calls step.call)) ∨
    ((logins.result rules step).store = logins.store ∧
      (logins.result rules step).answer = none ∧
      ((logins.result rules step).phase = logins.calls step.call ∨
        ∀ blockedUntil now, Knows rules blockedUntil now (logins.result rules step).phase)) := by
  unfold result
  cases step.move with
  | begin input =>
    refine .inr ?_
    cases logins.calls step.call with
    | idle => exact ⟨rfl, rfl, .inr fun _ _ => trivial⟩
    | _ => exact ⟨rfl, rfl, .inl rfl⟩
  | complete input =>
    refine .inr ?_
    cases logins.calls step.call with
    | idle => exact ⟨rfl, rfl, .inr fun _ _ => trivial⟩
    | _ => exact ⟨rfl, rfl, .inl rfl⟩
  | advance token => exact .inl ⟨token, rfl, by cases logins.calls step.call <;> rfl⟩

/-- A guarded step leaves every call informed. -/
theorem Informed.step {rules : LoginRules} {logins : Logins} (informed : logins.Informed rules)
    (step : LoginStep) (guarded : logins.Guarded rules step) :
    (logins.act rules step).1.Informed rules := by
  have later : logins.now ≤ logins.time step := by
    unfold time
    omega
  have current (call : Nat) : Knows rules logins.store.user.loginBlockedUntil (logins.time step)
      (logins.calls call) := (informed call).later later
  intro call
  show Knows rules (logins.result rules step).store.user.loginBlockedUntil (logins.time step)
    (Function.update logins.calls step.call (logins.result rules step).phase call)
  rcases logins.result_cases rules step with ⟨token, moved, same⟩ | ⟨kept, -, phase⟩
  · rw [same]
    by_cases own : call = step.call
    · rw [own, Function.update_self]
      unfold Guarded at guarded
      rw [moved] at guarded
      refine advance_knows token (current step.call) (fun input phase => ?_)
        fun input principal phase => ?_
      · rw [phase] at guarded
        exact guarded
      · rw [phase] at guarded
        exact guarded
    · rw [Function.update_of_ne own]
      rcases (advance_leaves rules logins.store token (logins.time step)
          (logins.calls step.call)).1 with unchanged | ⟨origin, userId, counting, reached⟩
      · rw [unchanged]
        exact current call
      · unfold Guarded at guarded
        rw [moved, counting] at guarded
        exact knows_of_not_admitted (guarded reached call) _ _
  · rw [kept]
    by_cases own : call = step.call
    · rw [own, Function.update_self]
      rcases phase with unmoved | started
      · rw [unmoved]
        exact current step.call
      · exact started _ _
    · rw [Function.update_of_ne own]
      exact current call

/-- A step of informed calls lets no guess pass while the user is blocked. -/
theorem Informed.enforced {rules : LoginRules} {logins : Logins} (informed : logins.Informed rules)
    (step : LoginStep) : logins.Enforced rules step := by
  intro answer answered accepts
  have later : logins.now ≤ logins.time step := by
    unfold time
    omega
  have current := (informed step.call).later later
  have result : (logins.result rules step).answer = some answer := answered
  rcases logins.result_cases rules step with ⟨token, -, same⟩ | ⟨-, silent, -⟩
  · rw [same] at result
    rcases (advance_leaves rules logins.store token (logins.time step)
        (logins.calls step.call)).2 answer result accepts with
      ⟨input, principal, phase⟩ | ⟨input, challenge, session, phase⟩
    · rw [phase] at current
      exact current
    · rw [phase] at current
      exact current
  · rw [silent] at result
    cases result

def start (store : LoginStore) (now : Int) : Logins := ⟨store, fun _ => .idle, now⟩

/-- In every run of guarded steps no call lets a guess pass while the user is blocked. -/
theorem enforced_of_guarded (rules : LoginRules) (store : LoginStore) (now : Int)
    (steps : List LoginStep)
    (guarded : Machine.Along (act rules) (Guarded rules) (start store now) steps) :
    Machine.Along (act rules) (Enforced rules) (start store now) steps := by
  have first : (start store now).Informed rules := fun _ => trivial
  generalize start store now = logins at guarded first
  induction steps generalizing logins with
  | nil => trivial
  | cons step rest ih =>
    exact ⟨first.enforced step, ih _ guarded.2 (first.step step guarded.1)⟩

end Logins

/-! ## A challenge that outlives the block -/

/-- Rules under which a password is its own hash and a code its own secret. -/
def plainLogin : LoginRules :=
  ⟨id, id, fun encodedHash password => encodedHash == password,
    fun encryptedSecret token _ => encryptedSecret == token⟩

/-- A user with a password and a factor. -/
def operator : LoginStore where
  user :=
    { id := 1, username := "ops", email := "ops@example.test", displayName := "Ops",
      role := "admin", status := .active, loginBlockedUntil := none, lastLoginAt := none,
      password := some ⟨"correct", none⟩, mfaFactors := [⟨"totp", "Phone", "123456"⟩] }
  loginEvents := []
  challenges := []
  sessions := []

def attempt (call : Nat) (move : LoginMove) : List LoginStep :=
  ⟨call, 1000, move⟩ :: List.replicate 6 ⟨call, 1000, .advance "challenge"⟩

def rightPassword : List LoginStep := attempt 0 (.begin ⟨"ops", "correct", "ip", "browser"⟩)

def fiveGuesses : List LoginStep :=
  (List.replicate 5 (attempt 1 (.begin ⟨"ops", "guess", "ip", "browser"⟩))).flatten

/-- A challenge is answered, up to its consumption. -/
def rightCode : List LoginStep :=
  [⟨0, 1000, .complete ⟨"challenge", "totp", "123456", "ip", "browser"⟩⟩,
    ⟨0, 1000, .advance ""⟩, ⟨0, 1000, .advance ""⟩]

/-- The right password and the right code log the user in. -/
theorem rightPassword_enforced :
    Machine.Along (Logins.act plainLogin) (Logins.Enforced plainLogin)
      (Logins.start operator 0) (rightPassword ++ rightCode) := by
  have unblocked (now : Int) : ¬ Blocks none now := by
    rintro ⟨time, same, -⟩
    cases same
  refine Logins.enforced_of_guarded plainLogin operator 0 (rightPassword ++ rightCode) ?_
  refine ⟨trivial, trivial, ?_, trivial, trivial, trivial, trivial, trivial, ?_, trivial, trivial⟩
  · intro _ time same
    cases same
  · exact fun _ => unblocked _

/-- A challenge that was issued before five wrong guesses is completed while the user is blocked. -/
theorem blocked_authenticated :
    (Machine.after (Logins.act plainLogin) (Logins.start operator 0)
        (rightPassword ++ fiveGuesses)).store.user.loginBlockedUntil = some 1841000 ∧
      ¬ ∀ rules store now steps, Machine.Along (Logins.act rules) (Logins.Enforced rules)
        (Logins.start store now) steps := by
  have blocked : (Machine.after (Logins.act plainLogin) (Logins.start operator 0)
      (rightPassword ++ fiveGuesses)).store.user.loginBlockedUntil = some 1841000 := by
    decide +kernel
  refine ⟨blocked, fun every => ?_⟩
  have run := every plainLogin operator 0
    ((rightPassword ++ fiveGuesses ++ rightCode) ++ [⟨0, 1000, .advance ""⟩])
  have last := ((Machine.along_append _ _ _).mp run).2.1
  have answer : ((Machine.after (Logins.act plainLogin) (Logins.start operator 0)
      (rightPassword ++ fiveGuesses ++ rightCode)).act plainLogin ⟨0, 1000, .advance ""⟩).2 =
        some (.authenticated "admin" 1845000 43245000) := by
    decide +kernel
  have still : (Machine.after (Logins.act plainLogin) (Logins.start operator 0)
      (rightPassword ++ fiveGuesses ++ rightCode)).store.user.loginBlockedUntil =
        some 1841000 := by
    decide +kernel
  refine last _ answer rfl ?_
  exact ⟨1841000, still, by decide⟩

end NancyMan.Auth
