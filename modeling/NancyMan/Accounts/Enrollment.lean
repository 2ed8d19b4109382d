import Mathlib.Data.Fintype.EquivFin
import NancyMan.Accounts.EnrollmentStore
import NancyMan.Lib.Machine

/-!
# Enrolling, once

An account that is pending with an open token should be able to enroll. The factor of an enrollment is
never revoked but for another factor, and the index on the labels allows one factor of the one label:
once an enrollment has been started no other can be, whether the first was never verified, or the
account has been active since and was recovered. A pending account with an open token can enroll in
exactly the histories in which no enrollment has been started before.
-/
namespace NancyMan.Accounts

open EnrollmentStore
open List (any_eq_true mem_map mem_map_of_mem)

open Auth (UserStatus)

namespace EnrollmentStore

def isAwaited (store : EnrollmentStore) : Bool :=
  store.status == .pendingMfa && store.tokens.any (EnrollmentToken.isOpen store.now)

/-- A pending account can be enrolled with each of its open tokens: a new factor is inserted, is found
while the token is open, and is activated by a right code with a password, after which it is the only
factor and the password the only credential. -/
def EnrollmentPossible (verifyTotp : String → String → Int → Bool) (store : EnrollmentStore) : Prop :=
  store.status = .pendingMfa → ∀ token ∈ store.tokens, token.isOpen store.now = true →
    ∀ factorId encryptedSecret, factorId ∉ store.factors.map MfaFactor.id → encryptedSecret ≠ "" →
      ∃ started, store.createPendingFactor token.tokenHash factorId encryptedSecret =
          some (started, true) ∧
        ∀ (elapsed : Nat) input, input.tokenHash = token.tokenHash → input.factorId = factorId →
          input.passwordAccepted = true →
          verifyTotp encryptedSecret input.otp (store.now + elapsed) = true →
          store.now + elapsed + input.hashing < token.expiresAt →
          (started.wait elapsed).findPendingFactor token.tokenHash factorId = some encryptedSecret ∧
          ∃ active, (started.wait elapsed).verify verifyTotp input = (active, true) ∧
            active.status = .active ∧
            (active.factors.filter fun factor => factor.revokedAt.isNone).map MfaFactor.id =
              [factorId] ∧
            active.credentials.filter (fun credential => credential.supersededAt.isNone) =
              [⟨input.passwordHash, input.passwordFingerprint, none⟩]

/-- Whether an enrollment was started in a history. -/
def hasStarted (verifyTotp : String → String → Int → Bool) (store : EnrollmentStore)
    (history : List EnrollmentStep) : Bool :=
  (Machine.trace (step verifyTotp) store history).any Prod.snd

variable {verifyTotp : String → String → Int → Bool} {store : EnrollmentStore}

/-! ## One enrollment -/

theorem isOf_of_before {token : EnrollmentToken} {now after : Int} (opened : token.isOpen now)
    (before : after < token.expiresAt) : token.isOf token.tokenHash after := by
  simp only [EnrollmentToken.isOf, EnrollmentToken.isOpen, beq_self_eq_true, Bool.true_and,
    Bool.and_eq_true, decide_eq_true_eq] at opened ⊢
  exact ⟨opened.1, before⟩

/-- Every credential that was there is superseded. -/
theorem filter_supersede (credentials : List PasswordCredentialRow) (now : Int) :
    (credentials.map (PasswordCredentialRow.supersede now)).filter
      (fun credential => credential.supersededAt.isNone) = [] := by
  rw [List.filter_eq_nil_iff]
  intro credential member
  obtain ⟨earlier, -, rfl⟩ := mem_map.mp member
  unfold PasswordCredentialRow.supersede
  split
  · simp
  · next superseded => simpa using superseded

/-- Every factor but the one that is activated is revoked. -/
theorem filter_settleFactor {factors : List MfaFactor} {factorId : String} (now : Int)
    (fresh : factorId ∉ factors.map MfaFactor.id) :
    (factors.map (settleFactor factorId true now)).filter
      (fun factor => factor.revokedAt.isNone) = [] := by
  rw [List.filter_eq_nil_iff]
  intro factor member
  obtain ⟨earlier, held, rfl⟩ := mem_map.mp member
  have other : earlier.id ≠ factorId := fun same => fresh (same ▸ mem_map_of_mem held)
  unfold settleFactor
  rw [if_neg other]
  split
  · simp
  · next revoked => simpa using revoked

/-- A new factor is activated with an open token. -/
theorem activate_started {token : EnrollmentToken} {factorId encryptedSecret : String}
    (pending : store.status = .pendingMfa) (member : token ∈ store.tokens)
    (opened : token.isOf token.tokenHash store.now)
    (fresh : factorId ∉ store.factors.map MfaFactor.id)
    (passwordHash passwordFingerprint : String) :
    ∃ active, { store with factors := store.factors ++ [pendingFactor factorId encryptedSecret] }.activate
        token.tokenHash factorId passwordHash passwordFingerprint = (active, true) ∧
      active.status = .active ∧
      (active.factors.filter fun factor => factor.revokedAt.isNone).map MfaFactor.id = [factorId] ∧
      active.credentials.filter (fun credential => credential.supersededAt.isNone) =
        [⟨passwordHash, passwordFingerprint, none⟩] := by
  have valid : (store.factors ++ [pendingFactor factorId encryptedSecret]).any (fun factor =>
      factor.id == factorId && factor.factorType == .totp && factor.revokedAt.isNone) = true := by
    simp [pendingFactor]
  have consumed : store.tokens.any (EnrollmentToken.isOf token.tokenHash store.now) :=
    any_eq_true.mpr ⟨token, member, opened⟩
  unfold activate
  rw [if_pos ⟨valid, consumed⟩, pending]
  refine ⟨_, rfl, rfl, ?_, ?_⟩
  · show (((store.factors ++ [pendingFactor factorId encryptedSecret]).map
      (settleFactor factorId true store.now)).filter _).map MfaFactor.id = [factorId]
    rw [List.map_append, List.filter_append, filter_settleFactor store.now fresh]
    simp [settleFactor, pendingFactor]
  · show (store.credentials.map (PasswordCredentialRow.supersede store.now) ++ [_]).filter _ = _
    rw [List.filter_append, filter_supersede]
    rfl

/-- An account that has no enrolled factor can be enrolled. -/
theorem enrollmentPossible_of_none
    (none_enrolled : store.factors.any MfaFactor.isEnrolled = false) :
    store.EnrollmentPossible verifyTotp := by
  intro pending token member opened factorId encryptedSecret fresh filled
  have unused : store.factors.any (fun factor => factor.id == factorId) = false := by
    rw [List.any_eq_false]
    intro factor held same
    exact fresh (beq_iff_eq.mp same ▸ mem_map_of_mem held)
  have here : token.isOf token.tokenHash store.now := by
    refine isOf_of_before opened ?_
    simp only [EnrollmentToken.isOpen, Bool.and_eq_true, decide_eq_true_eq] at opened
    exact opened.2
  have started : store.createPendingFactor token.tokenHash factorId encryptedSecret =
      some ({ store with factors := store.factors ++ [pendingFactor factorId encryptedSecret] },
        true) := by
    unfold createPendingFactor
    rw [if_pos ⟨pending, any_eq_true.mpr ⟨token, member, here⟩⟩, unused, none_enrolled]
    rfl
  refine ⟨_, started, fun elapsed input hash factor accepted code inTime => ?_⟩
  have soon : token.isOf token.tokenHash (store.now + elapsed) :=
    isOf_of_before opened (by omega)
  have found : ({ store with factors := store.factors ++ [pendingFactor factorId encryptedSecret] }.wait
      elapsed).findPendingFactor token.tokenHash factorId = some encryptedSecret := by
    have absent : store.factors.find? (fun factor => factor.id == factorId) = none := by
      rw [List.find?_eq_none]
      exact fun factor held same => fresh (beq_iff_eq.mp same ▸ mem_map_of_mem held)
    unfold findPendingFactor wait
    rw [if_pos (any_eq_true.mpr ⟨token, member, soon⟩), List.find?_append, absent]
    simp [pendingFactor, filled]
  refine ⟨found, ?_⟩
  subst factor
  have waited : ((store.wait elapsed).wait input.hashing).now =
    store.now + elapsed + input.hashing := rfl
  have last : token.isOf token.tokenHash ((store.wait elapsed).wait input.hashing).now :=
    isOf_of_before opened (waited ▸ inTime)
  obtain ⟨active, activated, rest⟩ := @activate_started ((store.wait elapsed).wait input.hashing)
    token input.factorId encryptedSecret pending member last fresh input.passwordHash
    input.passwordFingerprint
  refine ⟨active, ?_, rest⟩
  unfold verify
  rw [hash, found]
  dsimp only
  rw [accepted, Bool.true_and]
  split
  · exact activated
  · next wrong => exact absurd code wrong

/-- An account that has an enrolled factor cannot be enrolled while it is awaited. -/
theorem not_enrollmentPossible (awaited : store.isAwaited)
    (enrolled : store.factors.any MfaFactor.isEnrolled) :
    ¬ store.EnrollmentPossible verifyTotp := by
  intro possible
  simp only [isAwaited, Bool.and_eq_true, beq_iff_eq, any_eq_true] at awaited
  obtain ⟨pending, token, member, opened⟩ := awaited
  obtain ⟨factorId, fresh⟩ := Infinite.exists_notMem_finset (store.factors.map MfaFactor.id).toFinset
  rw [List.mem_toFinset] at fresh
  obtain ⟨started, inserted, -⟩ := possible pending token member opened factorId "secret" fresh
    (by decide)
  unfold createPendingFactor at inserted
  rw [enrolled, Bool.or_true] at inserted
  split at inserted <;> cases inserted

/-! ## One step -/

def AllAuthenticators (store : EnrollmentStore) : Prop :=
  ∀ factor ∈ store.factors, factor.factorType = .totp ∧ factor.label = authenticatorLabel

def IsEnrolled (store : EnrollmentStore) : Prop :=
  store.AllAuthenticators ∧ store.factors.any MfaFactor.isEnrolled = true

/-- An activation leaves an enrolled account enrolled. -/
theorem isEnrolled_activate (enrolled : store.IsEnrolled)
    (tokenHash factorId passwordHash passwordFingerprint : String) :
    (store.activate tokenHash factorId passwordHash passwordFingerprint).1.IsEnrolled := by
  unfold activate
  split
  · next consumed =>
    obtain ⟨factor, held, valid⟩ := any_eq_true.mp consumed.1
    simp only [Bool.and_eq_true, beq_iff_eq, Option.isNone_iff_eq_none] at valid
    obtain ⟨⟨named, -⟩, unrevoked⟩ := valid
    refine ⟨fun other member => ?_, any_eq_true.mpr ⟨_, mem_map_of_mem held, ?_⟩⟩
    · obtain ⟨earlier, present, rfl⟩ := mem_map.mp member
      have kind := enrolled.1 earlier present
      unfold settleFactor
      split_ifs <;> exact kind
    · have kind := enrolled.1 factor held
      unfold settleFactor
      rw [if_pos named]
      split <;> simp [MfaFactor.isEnrolled, kind, unrevoked]
  · exact enrolled

/-- Verifying leaves an enrolled account enrolled. -/
theorem isEnrolled_verify (enrolled : store.IsEnrolled) (input : VerifyInput) :
    (store.verify verifyTotp input).1.IsEnrolled := by
  unfold verify
  split
  · exact enrolled
  · split
    · exact @isEnrolled_activate (store.wait input.hashing) enrolled _ _ _ _
    · exact enrolled

/-- A new factor leaves an enrolled account enrolled. -/
theorem isEnrolled_createPendingFactor (all : store.AllAuthenticators)
    (tokenHash factorId encryptedSecret : String) {started : EnrollmentStore} {inserted : Bool}
    (created : store.createPendingFactor tokenHash factorId encryptedSecret =
      some (started, inserted)) :
    if inserted then started.IsEnrolled else started = store := by
  unfold createPendingFactor at created
  split at created
  · split at created
    · cases created
    · obtain ⟨rfl, rfl⟩ := Prod.mk.inj (Option.some.inj created)
      refine ⟨fun factor member => ?_, ?_⟩
      · rcases List.mem_append.mp member with member | member
        · exact all factor member
        · rw [List.mem_singleton.mp member]
          exact ⟨rfl, rfl⟩
      · show (store.factors ++ [pendingFactor factorId encryptedSecret]).any _ = true
        simp [pendingFactor, MfaFactor.isEnrolled]
  · obtain ⟨rfl, rfl⟩ := Prod.mk.inj (Option.some.inj created)
    rfl

/-- A step leaves an enrolled account enrolled. -/
theorem isEnrolled_step (enrolled : store.IsEnrolled) (action : EnrollmentStep) :
    (store.step verifyTotp action).1.IsEnrolled := by
  cases action with
  | start tokenHash factorId encryptedSecret =>
    show ((store.createPendingFactor tokenHash factorId encryptedSecret).getD (store, false)).1.IsEnrolled
    cases created : store.createPendingFactor tokenHash factorId encryptedSecret with
    | none => exact enrolled
    | some result =>
      obtain ⟨started, inserted⟩ := result
      have next := isEnrolled_createPendingFactor enrolled.1 tokenHash factorId encryptedSecret
        created
      cases inserted with
      | true => exact next
      | false => obtain rfl : started = store := next; exact enrolled
  | verify input => exact isEnrolled_verify enrolled input
  | activate tokenHash factorId passwordHash passwordFingerprint =>
    exact isEnrolled_activate enrolled _ _ _ _
  | lock =>
    show store.lock.IsEnrolled
    unfold lock
    split <;> exact enrolled
  | recover tokenHash expiresAt =>
    show (store.recover tokenHash expiresAt).IsEnrolled
    unfold recover
    split
    · split <;> exact enrolled
    · exact enrolled
  | revoke =>
    show store.revoke.IsEnrolled
    unfold revoke
    split <;> exact enrolled
  | wait elapsed => exact enrolled

theorem factors_activate (empty : store.factors = [])
    (tokenHash factorId passwordHash passwordFingerprint : String) :
    (store.activate tokenHash factorId passwordHash passwordFingerprint).1.factors = [] := by
  unfold activate
  rw [empty]
  exact empty

/-- A step leaves an account without factors so, or starts an enrollment. -/
theorem factors_step (empty : store.factors = []) (action : EnrollmentStep) :
    if (store.step verifyTotp action).2 then (store.step verifyTotp action).1.IsEnrolled
    else (store.step verifyTotp action).1.factors = [] := by
  cases action with
  | start tokenHash factorId encryptedSecret =>
    have all : store.AllAuthenticators := by
      intro factor member
      rw [empty] at member
      cases member
    show if ((store.createPendingFactor tokenHash factorId encryptedSecret).getD (store, false)).2
      then ((store.createPendingFactor tokenHash factorId encryptedSecret).getD
        (store, false)).1.IsEnrolled
      else ((store.createPendingFactor tokenHash factorId encryptedSecret).getD
        (store, false)).1.factors = []
    cases created : store.createPendingFactor tokenHash factorId encryptedSecret with
    | none => exact empty
    | some result =>
      obtain ⟨started, inserted⟩ := result
      have next := isEnrolled_createPendingFactor all tokenHash factorId encryptedSecret created
      cases inserted with
      | true => exact next
      | false => obtain rfl : started = store := next; exact empty
  | verify input =>
    show (store.verify verifyTotp input).1.factors = []
    unfold verify
    split
    · exact empty
    · split
      · exact @factors_activate (store.wait input.hashing) empty _ _ _ _
      · exact empty
  | activate tokenHash factorId passwordHash passwordFingerprint =>
    exact factors_activate empty _ _ _ _
  | lock =>
    show store.lock.factors = []
    unfold lock
    split <;> exact empty
  | recover tokenHash expiresAt =>
    show (store.recover tokenHash expiresAt).factors = []
    unfold recover
    split
    · split <;> exact empty
    · exact empty
  | revoke =>
    show store.revoke.factors = []
    unfold revoke
    split <;> exact empty
  | wait elapsed => exact empty

/-! ## A history -/

/-- An account without factors has none after a history in which no enrollment was started, and an
enrolled one after any other. -/
theorem factors_after (empty : store.factors = []) (history : List EnrollmentStep) :
    if store.hasStarted verifyTotp history then
      (Machine.after (step verifyTotp) store history).IsEnrolled
    else (Machine.after (step verifyTotp) store history).factors = [] := by
  induction history generalizing store with
  | nil => exact empty
  | cons action rest ih =>
    have first := @factors_step verifyTotp store empty action
    have split : store.hasStarted verifyTotp (action :: rest) =
        ((store.step verifyTotp action).2 ||
          (store.step verifyTotp action).1.hasStarted verifyTotp rest) := rfl
    rw [split]
    cases started : (store.step verifyTotp action).2 with
    | true =>
      rw [started] at first
      have kept : ∀ state input, IsEnrolled state → IsEnrolled (step verifyTotp state input).1 :=
        fun state input enrolled => isEnrolled_step enrolled input
      exact Machine.invariant_after kept first rest
    | false =>
      rw [started] at first
      exact ih first

end EnrollmentStore

/-- After any history, an account can be enrolled with each of its open tokens exactly when it is not
pending with an open token, or no enrollment has been started before. -/
theorem enrollmentPossible_iff (verifyTotp : String → String → Int → Bool) (token : EnrollmentToken)
    (credentials : List PasswordCredentialRow) (now : Int) (history : List EnrollmentStep) :
    (Machine.after (EnrollmentStore.step verifyTotp) (.created token credentials now)
        history).EnrollmentPossible verifyTotp ↔
      ((Machine.after (EnrollmentStore.step verifyTotp) (.created token credentials now)
          history).isAwaited = true →
        EnrollmentStore.hasStarted verifyTotp (.created token credentials now) history = false) := by
  have factors := @EnrollmentStore.factors_after verifyTotp (.created token credentials now) rfl history
  generalize Machine.after (step verifyTotp) (.created token credentials now)
    history = store at factors ⊢
  cases started : hasStarted verifyTotp (.created token credentials now) history with
  | true =>
    rw [started] at factors
    constructor
    · exact fun possible awaited =>
        absurd possible (not_enrollmentPossible awaited factors.2)
    · intro unawaited pending other member opened
      have awaited : store.isAwaited := by
        simp only [isAwaited, pending, beq_self_eq_true, Bool.true_and]
        exact List.any_eq_true.mpr ⟨other, member, opened⟩
      cases unawaited awaited
  | false =>
    rw [started] at factors
    refine iff_of_true (enrollmentPossible_of_none ?_) fun _ => rfl
    have empty : store.factors = [] := factors
    rw [empty]
    rfl

/-! ## An account that cannot be recovered -/

/-- An account is enrolled, locked and recovered. -/
def recovered : List EnrollmentStep :=
  [.start "invite" "factor" "secret", .activate "invite" "factor" "password" "fingerprint", .lock,
    .recover "recovery" 1000]

/-- It is pending with an open token, and cannot be enrolled. -/
theorem recovered_not_enrollable :
    (Machine.after (EnrollmentStore.step fun _ _ _ => true) (.created ⟨"invite", 1000, none⟩ [] 0)
        recovered).isAwaited = true ∧
      ¬ (Machine.after (EnrollmentStore.step fun _ _ _ => true)
        (.created ⟨"invite", 1000, none⟩ [] 0) recovered).EnrollmentPossible fun _ _ _ => true := by
  have awaited : (Machine.after (step fun _ _ _ => true)
      (.created ⟨"invite", 1000, none⟩ [] 0) recovered).isAwaited = true := by decide +kernel
  exact ⟨awaited, not_enrollmentPossible awaited (by decide +kernel)⟩

end NancyMan.Accounts
