import NancyMan.Explorer.RevealRequests

/-!
# Personal data is revealed under an audited grant

Where a request returned revealed rows, it had looked for a grant and found an active one, whose
audit entry had been appended between its insertion and its activation; both entries of the view
were appended after that, and no call of the request had thrown.
-/
namespace NancyMan.Explorer

open Async RevealEvent RevealStore
open List (append_assoc append_nil map_append mem_append mem_map mem_singleton nil_sublist
  not_mem_nil)

open Auth (StepUpGrant StepUpTable DatabasePiiBinding)

variable {ν : Type} [JsonRuntime ν]

/-- An activated grant that is unrevoked, unconsumed and unexpired, for the user, session, addresses
and target of a binding. -/
structure IsActiveGrant (binding : DatabasePiiBinding) (now : Int) (grant : StepUpGrant) :
    Prop where
  capability : grant.capability = .databasePii
  userId : grant.userId = binding.userId
  sessionId : grant.sessionId = binding.sessionId
  ipHash : grant.ipHash = binding.ipHash
  userAgentHash : grant.userAgentHash = binding.userAgentHash
  subjectDigest : grant.subjectDigest = binding.subjectDigest
  unrevoked : grant.revokedAt = none
  unconsumed : grant.consumedAt = none
  unexpired : now < grant.expiresAt
  activated : grant.auditCompletedAt.isSome = true

/-- A request inserted a grant, appended its entry and then activated it. -/
def IsAudited (history : List (RevealEvent ν)) (row : StepUpGrant) : Prop :=
  ∃ number input grant, grant.Becomes row ∧
    [.inserted number grant, .appended number (.about (revealGranted ν input grant)),
      .activated number row.id].Sublist history

/-- A request for rows started, later found an active and audited grant, and appended the entries of
its view after that. -/
structure WasRevealed (sha256 : String → String) (history : List (RevealEvent ν)) (number : Nat)
    (response : DatabaseRowsResponse ν) : Prop where
  grounds : ∃ request input earlier before after table now row,
    history = earlier ++ .started number request :: (before ++
      .looked number (input.binding sha256) table now :: after) ∧
    request.rowsInput sha256 = some input ∧
    row ∈ table ∧ IsActiveGrant (input.binding sha256) now row ∧
    IsAudited (earlier ++ .started number request :: before) row ∧
    [.appended number (.about (input.rowsViewed response)),
      .appended number (.about (input.piiRowsViewed response))].Sublist after ∧
    RevealEvent.threw number ∉ before ++ after

/-- Each response with revealed rows was preceded by its grounds. -/
def RevealsAudited (sha256 : String → String) (history : List (RevealEvent ν)) : Prop :=
  ∀ before number response after,
    history = before ++ .returned number (.ok (.rows response)) :: after →
    response.piiMode = .revealed → WasRevealed sha256 before number response

/-! ## What a request knows -/

/-- What a request knows from its answers: whether a call has thrown, for which binding it has found
a grant, which grant it has inserted, and the entries that it has appended since. -/
structure RevealKnowledge where
  request : RevealRequest
  failed : Bool
  found : Option DatabasePiiBinding
  inserted : Option StepUpGrant
  entries : List DatabaseAudit

namespace RevealKnowledge

def initial (request : RevealRequest) : RevealKnowledge := ⟨request, false, none, none, []⟩

/-- After an answer, or after a throw. -/
def noting {α : Type} (knowledge : RevealKnowledge) (answer : Option α)
    (learns : α → RevealKnowledge) : RevealKnowledge :=
  match answer with
  | none => { knowledge with failed := true }
  | some value => learns value

/-- After an answered call. -/
def observe (knowledge : RevealKnowledge) :
    (effect : RevealEffect) → RevealAnswer ν effect → RevealKnowledge
  | .now, _ | .issueId, _ => knowledge
  | .findUserTotpFactorId _, answer => knowledge.noting answer fun _ => knowledge
  | .verifyProof _, answer => knowledge.noting answer fun _ => knowledge
  | .findParentSession _ _, answer => knowledge.noting answer fun _ => knowledge
  | .replaceOlder _, answer => knowledge.noting answer fun _ => knowledge
  | .insert grant, answer => knowledge.noting answer fun _ =>
    { knowledge with inserted := some grant, entries := [] }
  | .findActiveDatabasePii binding, answer => knowledge.noting answer fun found =>
    if found.isSome then { knowledge with found := some binding, entries := [] } else knowledge
  | .activateDatabasePiiGrant _ _, answer => knowledge.noting answer fun _ => knowledge
  | .revokeDatabasePii _, answer => knowledge.noting answer fun _ => knowledge
  | .append entry, answer => knowledge.noting answer fun _ =>
    { knowledge with entries := knowledge.entries ++ [entry] }
  | .command _ _, answer => knowledge.noting answer fun _ => knowledge

end RevealKnowledge

/-- A request activates the grant that it has inserted, once it has appended its entry. -/
def revealMonitor (ν : Type) [JsonRuntime ν] :
    Monitor RevealEffect (RevealAnswer ν) RevealKnowledge where
  permits knowledge
    | .activateDatabasePiiGrant grantId _ => ∃ grant input, knowledge.inserted = some grant ∧
        grant.id = grantId ∧ knowledge.entries = [.about (revealGranted ν input grant)]
    | _ => True
  observe := RevealKnowledge.observe

/-- What a request knows when it ends: for revealed rows it has found the grant and appended both
entries, and no call has thrown. -/
def EndsAudited (sha256 : String → String) (value : Except RevealError (RevealReply ν) × Unit)
    (knowledge : RevealKnowledge) : Prop :=
  ∀ response, value.1 = .ok (.rows response) → response.piiMode = .revealed →
    ∃ input : RowsInput ν, knowledge.request.rowsInput sha256 = some input ∧
      knowledge.failed = false ∧ knowledge.found = some (input.binding sha256) ∧
      knowledge.entries =
        [.about (input.rowsViewed response), .about (input.piiRowsViewed response)]

/-! ## What the programs ensure -/

section Programs

variable {knowledge : RevealKnowledge} {α : Type} {post : α → Unit → RevealKnowledge → Prop}

abbrev anyError (_ : RevealError) (_ : Unit) (_ : RevealKnowledge) : Prop := True

/-- A permitted call that does not throw. -/
theorem ensures_answered {call : Reveal ν (Option α)}
    (ensured : Async.Ensures (revealMonitor ν) call
      (fun answer _ knowledge => ∀ value, answer = some value → post value () knowledge)
      anyError () knowledge) :
    Async.Ensures (revealMonitor ν) (answered call) post anyError () knowledge := by
  refine ensures_bind (ensured.mono (fun answer locals knowledge holds => ?_)
    fun _ _ _ holds => holds)
  cases answer with
  | none => trivial
  | some value => exact holds value rfl

theorem ensures_ask {effect : RevealEffect}
    {post : RevealAnswer ν effect → Unit → RevealKnowledge → Prop}
    (permitted : (revealMonitor ν).permits knowledge effect)
    (holds : ∀ answer, post answer () ((revealMonitor ν).observe knowledge effect answer)) :
    Async.Ensures (revealMonitor ν) (ask effect) post anyError () knowledge :=
  ensures_perform permitted holds

theorem ensures_fail (code : String) (status : Nat) :
    Async.Ensures (revealMonitor ν) (fail code status) post anyError () knowledge :=
  ensures_throw trivial

theorem ensures_required {condition : Bool} {error : RevealError}
    {post : Unit → Unit → RevealKnowledge → Prop} (holds : condition → post () () knowledge) :
    Async.Ensures (revealMonitor ν) (require condition error) post anyError () knowledge :=
  ensures_require holds fun _ => trivial

variable (sha256 : String → String)

/-- A request that `authorizePii` lets go on has found a grant. -/
theorem ensures_authorizePii (input : RowsInput ν) :
    Async.Ensures (revealMonitor ν) (authorizePii sha256 input)
      (fun _ _ later => later =
        { knowledge with found := some (input.binding sha256), entries := [] })
      anyError () knowledge := by
  refine ensures_tryCatch ?_
  have found : Async.Ensures (revealMonitor ν) (authorizeDatabasePii (input.binding sha256))
      (fun _ _ later => later =
        { knowledge with found := some (input.binding sha256), entries := [] })
      anyError () knowledge := by
    refine ensures_bind (ensures_required fun _ => ?_)
    refine ensures_bind (ensures_answered (ensures_ask trivial ?_))
    rintro answer (grant | grant) rfl
    · exact ensures_throw trivial
    · refine ensures_bind (ensures_ask trivial fun now => ?_)
      exact ensures_bind (ensures_required fun _ => ensures_pure rfl)
  exact found.mono (fun _ _ _ holds => holds) fun error locals state _ =>
    ensures_fail "DATABASE_PII_REVEAL_REQUIRED" 403

/-- What `grant` returns was inserted. -/
theorem ensures_grantStepUp (input : Auth.GrantInput) :
    Async.Ensures (revealMonitor ν) (grantStepUp input)
      (fun grant _ later => later = { knowledge with inserted := some grant, entries := [] })
      anyError () knowledge := by
  refine ensures_bind (ensures_required fun _ => ?_)
  refine ensures_bind (ensures_answered (ensures_ask trivial ?_))
  rintro answer valid rfl
  refine ensures_bind (ensures_required fun _ => ?_)
  refine ensures_bind (ensures_ask trivial fun grantedAt => ?_)
  refine ensures_bind (ensures_answered (ensures_ask trivial ?_))
  rintro answer (parentExpiry | parentExpiry) rfl
  · exact ensures_throw trivial
  · refine ensures_bind (ensures_required fun _ => ?_)
    refine ensures_bind (ensures_answered (ensures_ask trivial ?_))
    rintro answer replaced rfl
    refine ensures_bind (ensures_ask trivial fun id => ?_)
    refine ensures_bind (ensures_answered (ensures_ask trivial ?_))
    rintro answer inserted rfl
    exact ensures_bind (ensures_required fun _ => ensures_pure rfl)

theorem ensures_append (entry : DatabaseAudit) :
    Async.Ensures (revealMonitor ν) (append entry)
      (fun _ _ later => later = { knowledge with entries := knowledge.entries ++ [entry] })
      anyError () knowledge := by
  refine ensures_answered (ensures_ask trivial ?_)
  rintro answer appended rfl
  rfl

theorem ensures_revokeDatabasePii (binding : DatabasePiiBinding) :
    Async.Ensures (revealMonitor ν) (revokeDatabasePii binding) (fun _ _ _ => True) anyError ()
      knowledge := by
  refine ensures_bind (ensures_required fun _ => ?_)
  exact ensures_answered (ensures_ask trivial fun _ _ _ => trivial)

theorem ensures_cleanUp (binding : DatabasePiiBinding) :
    Async.Ensures (revealMonitor ν) (cleanUp binding) (fun _ _ _ => True) anyError ()
      knowledge := by
  refine ensures_tryCatch (ensures_bind ?_)
  refine (ensures_revokeDatabasePii binding).mono (fun _ _ _ _ => ?_) fun _ _ _ _ => ?_
  · exact ensures_pure trivial
  · exact ensures_pure trivial

theorem ensures_activate {grantId : String} (binding : DatabasePiiBinding)
    (permitted : (revealMonitor ν).permits knowledge (.activateDatabasePiiGrant grantId binding)) :
    Async.Ensures (revealMonitor ν) (activateDatabasePiiGrant grantId binding) (fun _ _ _ => True)
      anyError () knowledge := by
  refine ensures_bind (ensures_required fun _ => ?_)
  exact ensures_answered (ensures_ask permitted fun _ _ _ => trivial)

/-- A reveal activates the grant that it has inserted after it has appended its entry. -/
theorem ensures_revealPii (input : RevealInput) :
    Async.Ensures (revealMonitor ν) (revealPii sha256 input) (fun _ _ _ => True) anyError ()
      (.initial (.reveal input)) := by
  have cleaned : ∀ (later : RevealKnowledge) (code : String) {post : Unit → Unit → RevealKnowledge → Prop},
      Async.Ensures (revealMonitor ν) (do
        cleanUp (input.binding sha256)
        fail code 503) post anyError () later := by
    intro later code post
    refine ensures_bind ((ensures_cleanUp _).mono (fun _ _ _ _ => ?_) fun _ _ _ _ => trivial)
    exact ensures_fail code 503
  refine ensures_bind (ensures_required fun _ => ?_)
  refine ensures_bind (ensures_answered (ensures_ask trivial ?_))
  rintro answer factorId rfl
  split
  · exact ensures_fail "MFA_FACTOR_UNAVAILABLE" 400
  · next factorId _ =>
    refine ensures_bind (ensures_tryCatch ?_)
    refine (ensures_grantStepUp _).mono ?_ fun _ _ _ _ => ensures_fail "AUTH_DENIED" 401
    rintro grant - later rfl
    refine ensures_bind (ensures_tryCatch ?_)
    refine (ensures_append _).mono ?_ fun _ _ later _ => cleaned later _
    rintro - - later rfl
    refine ensures_bind (ensures_tryCatch (ensures_bind ?_))
    refine (ensures_activate _ ⟨grant, input, rfl, rfl, rfl⟩).mono (fun activated _ later _ => ?_)
      fun _ _ later _ => cleaned later _
    exact ensures_require (fun _ => ensures_pure trivial) fun _ => cleaned later _

/-- A request that asks for revealed rows goes on with a grant. -/
theorem ensures_authorizeRows {request : RevealRequest} (input : RowsInput ν) :
    Async.Ensures (revealMonitor ν) (authorizeRows sha256 input)
      (fun grant _ later => later.request = request ∧ later.failed = false ∧ later.entries = [] ∧
        (input.piiMode = .revealed →
          grant.isSome ∧ later.found = some (input.binding sha256)))
      anyError () (.initial request) := by
  unfold authorizeRows
  split
  · refine ensures_bind ((ensures_authorizePii sha256 input).mono ?_ fun _ _ _ _ => trivial)
    rintro grant - later rfl
    exact ensures_pure ⟨rfl, rfl, rfl, fun _ => ⟨rfl, rfl⟩⟩
  · next masked => exact ensures_pure ⟨rfl, rfl, rfl, fun revealed => absurd revealed masked⟩

/-- A request for rows ends as it must: revealed rows only once the grant is found and both entries
are appended. -/
theorem ensures_queryAnyRows {request : RevealRequest} {input : RowsInput ν}
    (same : request.rowsInput sha256 = some input) :
    Async.Ensures (revealMonitor ν) (queryAnyRows sha256 input)
      (fun response _ later => EndsAudited sha256 (.ok (.rows response), ()) later) anyError ()
      (.initial request) := by
  refine ensures_bind (ensures_required fun _ => ?_)
  refine ensures_bind ((ensures_authorizeRows sha256 input).mono ?_ fun _ _ _ _ => trivial)
  rintro grant - later ⟨asked, quiet, none_yet, found⟩
  refine ensures_bind (ensures_answered (ensures_ask trivial ?_))
  rintro answer (code | response | -) rfl
  · exact ensures_fail code _
  · refine ensures_bind (ensures_required fun accepted => ?_)
    have mode : response.piiMode = input.piiMode := by
      simp only [RowsInput.accepts, Bool.and_eq_true, decide_eq_true_eq] at accepted
      exact accepted.2
    refine ensures_bind (ensures_tryCatch (ensures_bind ?_))
    refine (ensures_append _).mono ?_ fun _ _ _ _ => ensures_fail "DATABASE_AUDIT_UNAVAILABLE" 503
    rintro - - after rfl
    cases grant with
    | none =>
      refine ensures_pure (ensures_pure ?_)
      intro answer returned revealed
      obtain rfl : response = answer := by injection returned with same; injection same
      have missing := (found (mode.symm.trans revealed)).1
      cases missing
    | some grant =>
      refine (ensures_append _).mono ?_
        fun _ _ _ _ => ensures_fail "DATABASE_AUDIT_UNAVAILABLE" 503
      rintro - - last rfl
      refine ensures_pure ?_
      intro answer returned revealed
      obtain rfl : response = answer := by injection returned with same; injection same
      refine ⟨input, ?_, quiet, (found (mode.symm.trans revealed)).2, ?_⟩
      · exact (congrArg (RevealRequest.rowsInput sha256) asked).trans same
      · show later.entries ++ [_] ++ [_] = _
        rw [none_yet]
        rfl
  · exact ensures_fail "WORKER_DATABASE_RESPONSE_INVALID" 503

/-- The entry of a hiding is appended after it. -/
theorem ensures_revokePiiReveal (input : HideInput) :
    Async.Ensures (revealMonitor ν) (revokePiiReveal input) (fun _ _ _ => True) anyError ()
      knowledge := by
  refine ensures_bind (ensures_tryCatch ?_)
  refine (ensures_revokeDatabasePii _).mono (fun _ _ _ _ => ?_)
    fun _ _ _ _ => ensures_fail "DATABASE_REVOKE_UNAVAILABLE" 503
  refine ensures_tryCatch ((ensures_append _).mono (fun _ _ _ _ => trivial) ?_)
  exact fun _ _ _ _ => ensures_fail "DATABASE_AUDIT_UNAVAILABLE" 503

/-- Every request ends as it must. -/
theorem ensures_request (request : RevealRequest) :
    ((request.call sha256 : Reveal ν (RevealReply ν)) ()).Ensures (revealMonitor ν) (EndsAudited sha256)
      (.initial request) := by
  have ended : ∀ {call : Reveal ν (RevealReply ν)},
      Async.Ensures (revealMonitor ν) call
        (fun reply _ later => EndsAudited sha256 (.ok reply, ()) later) anyError ()
        (.initial request) →
      (call ()).Ensures (revealMonitor ν) (EndsAudited sha256) (.initial request) := by
    intro call ensured
    refine Program.Ensures.mono ?_ ensured
    intro outcome later holds
    obtain ⟨result, none_left⟩ := outcome
    cases result with
    | error error =>
      intro response thrown
      cases thrown
    | ok reply => exact holds
  cases request with
  | reveal input =>
    refine ended (ensures_bind ((ensures_revealPii sha256 input).mono ?_ fun _ _ _ _ => trivial))
    exact fun expiresAt _ later _ => ensures_pure fun response returned => by cases returned
  | rows input =>
    refine ended (ensures_bind ((ensures_queryAnyRows sha256 rfl).mono ?_ fun _ _ _ _ => trivial))
    exact fun response _ later holds => ensures_pure holds
  | relatedRows input =>
    refine ended (ensures_bind ((ensures_queryAnyRows sha256 rfl).mono ?_ fun _ _ _ _ => trivial))
    exact fun response _ later holds => ensures_pure holds
  | hide input =>
    refine ended (ensures_bind ((ensures_revokePiiReveal input).mono ?_ fun _ _ _ _ => trivial))
    exact fun hidden _ later _ => ensures_pure fun response returned => by cases returned

end Programs

/-! ## What a request knows of the history -/

/-- What a request knows of what happened since it started. -/
structure KnowsSince (earlier later : List (RevealEvent ν)) (number : Nat)
    (knowledge : RevealKnowledge) : Prop where
  quiet : knowledge.failed = false → RevealEvent.threw number ∉ later
  found : ∀ binding, knowledge.found = some binding → ∃ before after table now row,
    later = before ++ .looked number binding table now :: after ∧ row ∈ table ∧
      IsActiveGrant binding now row ∧
      IsAudited (earlier ++ .started number knowledge.request :: before) row ∧
      (knowledge.entries.map (.appended number)).Sublist after
  inserted : ∀ grant, knowledge.inserted = some grant →
    (.inserted number grant :: knowledge.entries.map (.appended number)).Sublist later

/-- What a request knows. -/
def Knows (store : RevealStore ν) (number : Nat) (knowledge : RevealKnowledge) : Prop :=
  ∃ earlier later, store.history = earlier ++ .started number knowledge.request :: later ∧
    KnowsSince earlier later number knowledge

section Knowledge

variable {store : RevealStore ν} {number : Nat} {knowledge : RevealKnowledge}
  {earlier later events : List (RevealEvent ν)} (known : KnowsSince earlier later number knowledge)

include known

/-- What a request has found and inserted stays so. -/
theorem KnowsSince.extend (events : List (RevealEvent ν)) :
    KnowsSince earlier (later ++ events) number { knowledge with failed := true } where
  quiet := fun quiet => by cases quiet
  found := by
    intro binding found
    obtain ⟨before, after, table, now, row, split, rest⟩ := known.found binding found
    refine ⟨before, after ++ events, table, now, row, ?_, rest.1, rest.2.1, rest.2.2.1, ?_⟩
    · rw [split, append_assoc]
      rfl
    · exact rest.2.2.2.trans (List.sublist_append_left ..)
  inserted := fun grant inserted =>
    (known.inserted grant inserted).trans (List.sublist_append_left ..)

theorem KnowsSince.extend_quiet (unthrown : threw number ∉ events) :
    KnowsSince earlier (later ++ events) number knowledge where
  quiet := fun quiet member =>
    (mem_append.mp member).elim (known.quiet quiet) unthrown
  found := (known.extend events).found
  inserted := (known.extend events).inserted

omit known in
theorem Knows.extend {after : RevealStore ν} (known : Knows store number knowledge)
    (extended : after.history = store.history ++ events)
    (unthrown : threw number ∉ events) : Knows after number knowledge := by
  obtain ⟨earlier, later, split, since⟩ := known
  refine ⟨earlier, later ++ events, ?_, since.extend_quiet unthrown⟩
  rw [extended, split, append_assoc]
  rfl

/-- A request appends an entry. -/
theorem KnowsSince.append (entry : DatabaseAudit) :
    KnowsSince earlier (later ++ [.appended number entry]) number
      { knowledge with entries := knowledge.entries ++ [entry] } where
  quiet := (known.extend_quiet (by simp)).quiet
  found := by
    intro binding found
    obtain ⟨before, after, table, now, row, split, rest⟩ := known.found binding found
    refine ⟨before, after ++ [.appended number entry], table, now, row, ?_, rest.1, rest.2.1,
      rest.2.2.1, ?_⟩
    · rw [split, append_assoc]
      rfl
    · rw [map_append]
      exact rest.2.2.2.append (List.Sublist.refl _)
  inserted := by
    intro grant inserted
    rw [map_append]
    exact (known.inserted grant inserted).append (List.Sublist.refl _)

/-- A request finds a grant. -/
theorem KnowsSince.look
    {binding : DatabasePiiBinding} {table : StepUpTable} {now : Int} {row : StepUpGrant}
    (member : row ∈ table) (active : IsActiveGrant binding now row)
    (audited : IsAudited (earlier ++ .started number knowledge.request :: later) row) :
    KnowsSince earlier (later ++ [.looked number binding table now]) number
      { knowledge with found := some binding, entries := [] } where
  quiet := (known.extend_quiet (by simp)).quiet
  found := by
    intro other found
    obtain rfl := Option.some.inj found
    exact ⟨later, [], table, now, row, rfl, member, active, audited, nil_sublist _⟩
  inserted := by
    intro grant inserted
    have before := known.inserted grant inserted
    refine List.Sublist.trans ?_ (before.trans (List.sublist_append_left ..))
    exact (nil_sublist _).cons_cons _

/-- A request inserts a grant. -/
theorem KnowsSince.insert (grant : StepUpGrant) :
    KnowsSince earlier (later ++ [.inserted number grant]) number
      { knowledge with inserted := some grant, entries := [] } where
  quiet := (known.extend_quiet (by simp)).quiet
  found := by
    intro binding found
    obtain ⟨before, after, table, now, row, split, rest⟩ := (known.extend [.inserted number grant]).found
      binding found
    exact ⟨before, after, table, now, row, split, rest.1, rest.2.1, rest.2.2.1,
      nil_sublist _⟩
  inserted := by
    intro other inserted
    obtain rfl := Option.some.inj inserted
    exact List.sublist_append_right ..

omit known

/-- A call that answers teaches what it must, and one that throws that it has thrown. -/
theorem knows_settle {α : Type} {learns : α → RevealKnowledge} {outcome : RevealOutcome ν}
    {table : StepUpTable} {value : α} (known : Knows store number knowledge)
    (same : (learns value).request = knowledge.request)
    (own : ∀ earlier later, store.history = earlier ++ .started number knowledge.request :: later →
      KnowsSince earlier later number knowledge →
      KnowsSince earlier (later ++ events) number (learns value)) :
    Knows (store.settle number outcome table events value).1 number
      (knowledge.noting (store.settle number outcome table events value).2 learns) := by
  obtain ⟨earlier, later, cut, since⟩ := known
  unfold settle
  split
  · refine ⟨earlier, later ++ ((if outcome.isEffective then events else []) ++ [.threw number]), ?_,
      since.extend _⟩
    split <;> simp [change, RevealKnowledge.noting, cut]
  · refine ⟨earlier, later ++ events, ?_, own earlier later cut since⟩
    simp [change, RevealKnowledge.noting, cut, same]

end Knowledge

/-! ## The table and the history -/

/-- Every grant that was inserted has its row, every row that is activated was audited, and so was
what revealed rows were returned under. -/
structure IsSound (sha256 : String → String) (store : RevealStore ν) : Prop where
  inserted : ∀ number grant, RevealEvent.inserted number grant ∈ store.history →
    grant.id ∈ store.table.map StepUpGrant.id ∧
      ∀ row ∈ store.table, row.id = grant.id → grant.Becomes row
  audited : ∀ row ∈ store.table, row.capability = .databasePii →
    row.auditCompletedAt.isSome = true → IsAudited store.history row
  revealed : RevealsAudited sha256 store.history

/-- Neither an insertion nor a reply. -/
def RevealEvent.isPlain : RevealEvent ν → Bool
  | .inserted .. | .returned .. => false
  | _ => true

section Soundness

variable {sha256 : String → String} {store : RevealStore ν} {events : List (RevealEvent ν)}

theorem IsAudited.extend {history : List (RevealEvent ν)} {row later : StepUpGrant}
    (audited : IsAudited history row) (becomes : row.Becomes later)
    (events : List (RevealEvent ν)) : IsAudited (history ++ events) later := by
  obtain ⟨number, input, grant, granted, order⟩ := audited
  refine ⟨number, input, grant, granted.trans becomes, ?_⟩
  rw [becomes.id]
  exact order.trans (List.sublist_append_left ..)

/-- What happens after a reply does not matter to it. -/
theorem RevealsAudited.extend {history : List (RevealEvent ν)}
    (audited : RevealsAudited sha256 history)
    (new : ∀ earlier number response after,
      events = earlier ++ .returned number (.ok (.rows response)) :: after →
      response.piiMode = .revealed →
      WasRevealed sha256 (history ++ earlier) number response) :
    RevealsAudited sha256 (history ++ events) := by
  intro before number response after cut revealed
  rcases List.append_eq_append_iff.mp cut with ⟨middle, rfl, last⟩ | ⟨middle, first, last⟩
  · exact new middle number response after last revealed
  · cases middle with
    | nil =>
      rw [append_nil] at first
      subst first
      have grounds := new [] number response after last.symm revealed
      rw [append_nil] at grounds
      exact grounds
    | cons event rest =>
      obtain ⟨rfl, -⟩ := List.cons.inj last
      exact audited before number response rest first revealed

/-- Plain events return nothing. -/
theorem RevealsAudited.extend_plain {history : List (RevealEvent ν)}
    (audited : RevealsAudited sha256 history) (plain : ∀ event ∈ events, event.isPlain) :
    RevealsAudited sha256 (history ++ events) := by
  refine audited.extend fun earlier number response after cut _ => ?_
  have member : returned number (.ok (.rows response)) ∈ events := by
    rw [cut]
    simp
  cases plain _ member

/-- A table after a statement that audits nothing. -/
def Keeps (table later : StepUpTable) : Prop :=
  ∃ change : StepUpGrant → StepUpGrant, later = table.map change ∧
    ∀ grant : StepUpGrant, grant.Becomes (change grant) ∧
      (change grant).auditCompletedAt = grant.auditCompletedAt

/-- The update of the rows that a condition selects. -/
theorem keeps_updateWhere (table : StepUpTable) (selects : StepUpGrant → Bool)
    {change : StepUpGrant → StepUpGrant}
    (each : ∀ grant : StepUpGrant, grant.Becomes (change grant) ∧
      (change grant).auditCompletedAt = grant.auditCompletedAt) :
    Keeps table (table.updateWhere selects change) := by
  refine ⟨fun grant => if selects grant then change grant else grant, rfl, fun grant => ?_⟩
  dsimp only
  split
  · exact each grant
  · exact ⟨.refl grant, rfl⟩

theorem Keeps.refl (table : StepUpTable) : Keeps table table :=
  ⟨id, (List.map_id table).symm, fun grant => ⟨.refl grant, rfl⟩⟩

variable {table : StepUpTable}

/-- The rows of the grants that were inserted, after an update. -/
theorem IsSound.inserted_updates (sound : IsSound sha256 store)
    (updates : StepUpTable.Updates store.table table) (plain : ∀ event ∈ events, event.isPlain)
    (number : Nat) (grant : StepUpGrant)
    (member : RevealEvent.inserted number grant ∈ store.history ++ events) :
    grant.id ∈ table.map StepUpGrant.id ∧
      ∀ row ∈ table, row.id = grant.id → grant.Becomes row := by
  have before : RevealEvent.inserted number grant ∈ store.history := by
    rcases mem_append.mp member with before | new
    · exact before
    · cases plain _ new
  obtain ⟨taken, rows⟩ := sound.inserted number grant before
  rw [updates.map_id]
  refine ⟨taken, fun row held same => ?_⟩
  obtain ⟨earlier, there, becomes⟩ := updates.exists_of_mem held
  exact (rows earlier there (becomes.id.symm.trans same)).trans becomes

/-- A statement that audits nothing, among plain events. -/
theorem IsSound.keep (sound : IsSound sha256 store) (keeps : Keeps store.table table)
    (plain : ∀ event ∈ events, event.isPlain) : IsSound sha256 (store.change table events) := by
  obtain ⟨change, rfl, each⟩ := keeps
  refine ⟨sound.inserted_updates ⟨change, rfl, fun grant => (each grant).1⟩ plain,
    fun row member pii audited => ?_, sound.revealed.extend_plain plain⟩
  obtain ⟨earlier, held, rfl⟩ := mem_map.mp member
  rw [(each earlier).2] at audited
  have before := sound.audited earlier held ((each earlier).1.capability.symm.trans pii) audited
  exact before.extend (each earlier).1 events

/-- A call that answers or throws, where its effect is sound. -/
theorem isSound_settle {α : Type} {number : Nat} {outcome : RevealOutcome ν} {value : α}
    (sound : IsSound sha256 store) (effect : IsSound sha256 (store.change table events)) :
    IsSound sha256 (store.settle number outcome table events value).1 := by
  have plain : ∀ event ∈ [(threw number : RevealEvent ν)], event.isPlain := by
    simp [isPlain]
  unfold settle
  split
  · split
    · exact effect.keep (.refl _) plain
    · exact sound.keep (.refl _) plain
  · exact effect

/-- A row that is inserted is new, and not activated. -/
theorem mem_insert {later : StepUpTable} {grant row : StepUpGrant}
    (inserted : table.insert grant = some later) (member : row ∈ later) :
    row ∈ table ∨ row = { grant with auditCompletedAt := none } := by
  unfold StepUpTable.insert at inserted
  split at inserted
  · cases inserted
  · obtain rfl := Option.some.inj inserted
    exact (mem_append.mp member).imp id mem_singleton.mp

/-- The identifier of a row that is inserted was free. -/
theorem insert_fresh {later : StepUpTable} {grant : StepUpGrant}
    (inserted : table.insert grant = some later) : ∀ row ∈ table, row.id ≠ grant.id := by
  unfold StepUpTable.insert at inserted
  split at inserted
  · cases inserted
  · next free =>
    intro row member same
    refine free (Bool.or_eq_true_iff.mpr (.inl (List.any_eq_true.mpr ⟨row, member, ?_⟩)))
    exact beq_iff_eq.mpr same

/-- The identifiers of a table after an insertion. -/
theorem map_id_insert {later : StepUpTable} {grant : StepUpGrant}
    (inserted : table.insert grant = some later) :
    later.map StepUpGrant.id = table.map StepUpGrant.id ++ [grant.id] := by
  unfold StepUpTable.insert at inserted
  split at inserted
  · cases inserted
  · obtain rfl := Option.some.inj inserted
    rw [map_append]
    rfl

/-- A grant is inserted, by a request or by another service. -/
theorem IsSound.insert (sound : IsSound sha256 store) {grant : StepUpGrant}
    (inserted : store.table.insert grant = some table)
    (own : ∀ event ∈ events, (∃ number, event = .inserted number grant) ∨ event.isPlain)
    (silent : ∀ event ∈ events, ∀ number reply, event ≠ .returned number reply) :
    IsSound sha256 (store.change table events) := by
  refine ⟨fun number other member => ?_, fun row member pii audited => ?_, ?_⟩
  · have known : other.id ∈ store.table.map StepUpGrant.id →
        (∀ row ∈ store.table, row.id = other.id → other.Becomes row) →
        other.id ∈ table.map StepUpGrant.id ∧ ∀ row ∈ table, row.id = other.id →
          other.Becomes row := by
      intro taken rows
      refine ⟨?_, fun row held same => ?_⟩
      · rw [map_id_insert inserted]
        exact List.mem_append_left _ taken
      · rcases mem_insert inserted held with before | rfl
        · exact rows row before same
        · obtain ⟨taker, there, equal⟩ := mem_map.mp taken
          exact absurd (equal.trans same.symm) (insert_fresh inserted taker there)
    have new : ∀ row ∈ table, row.id = grant.id → grant.Becomes row := by
      intro row held same
      rcases mem_insert inserted held with before | rfl
      · exact absurd same (insert_fresh inserted row before)
      · exact ⟨rfl, rfl, rfl, rfl, id, id⟩
    rcases mem_append.mp member with before | last
    · obtain ⟨taken, rows⟩ := sound.inserted number other before
      exact known taken rows
    · rcases own _ last with ⟨inserter, same⟩ | plain
      · injection same with _ same
        subst same
        refine ⟨?_, new⟩
        show other.id ∈ table.map StepUpGrant.id
        rw [map_id_insert inserted]
        exact List.mem_append_right _ (.head _)
      · cases plain
  · rcases mem_insert inserted member with before | rfl
    · exact (sound.audited row before pii audited).extend (.refl row) events
    · cases audited
  · refine sound.revealed.extend fun earlier number response after cut _ => ?_
    have member : returned number (.ok (.rows response)) ∈ events := by
      rw [cut]
      simp
    exact absurd rfl (silent _ member number _)

/-- A grant is activated by the request that has inserted it and then appended its entry. -/
theorem IsSound.activate (sound : IsSound sha256 store) {number : Nat}
    {knowledge : RevealKnowledge} {grantId : String} (binding : DatabasePiiBinding)
    (known : Knows store number knowledge)
    (permitted : (revealMonitor ν).permits knowledge (.activateDatabasePiiGrant grantId binding)) :
    IsSound sha256 (store.change
      (store.table.activateDatabasePiiGrant grantId binding store.now).1
      (if (store.table.activateDatabasePiiGrant grantId binding store.now).2 then
        [.activated number grantId] else [])) := by
  obtain ⟨earlier, later, cut, since⟩ := known
  obtain ⟨grant, input, inserted, rfl, entries⟩ := permitted
  have order := since.inserted grant inserted
  rw [entries] at order
  have started : List.Sublist later store.history := by
    rw [cut]
    exact (List.sublist_cons_self ..).trans (List.sublist_append_right ..)
  have member : RevealEvent.inserted number grant ∈ store.history :=
    (order.trans started).subset (.head _)
  obtain ⟨-, rows⟩ := sound.inserted number grant member
  unfold StepUpTable.activateDatabasePiiGrant
  have plain : ∀ event ∈ (if store.table.any
      (StepUpTable.awaitsAudit grant.id binding store.now) then
      [(activated number grant.id : RevealEvent ν)] else []),
      event.isPlain = true := by
    split <;> simp [isPlain]
  have updates : StepUpTable.Updates store.table (store.table.updateWhere
      (StepUpTable.awaitsAudit grant.id binding store.now) (StepUpGrant.completeAudit store.now)) :=
    StepUpTable.updates_updateWhere _ (StepUpGrant.becomes_completeAudit store.now)
  refine ⟨sound.inserted_updates updates plain, fun row there pii audited => ?_,
    sound.revealed.extend_plain plain⟩
  obtain ⟨earlier, held, rfl⟩ := mem_map.mp there
  split at audited
  · next selected =>
    have same : earlier.id = grant.id := by
      simp only [StepUpTable.awaitsAudit, Bool.and_eq_true, beq_iff_eq] at selected
      exact selected.1.1.1.1.1.1
    rw [if_pos selected, if_pos (List.any_eq_true.mpr ⟨earlier, held, selected⟩)]
    refine ⟨number, input, grant,
      (rows earlier held same).trans (StepUpGrant.becomes_completeAudit _ _), ?_⟩
    show List.Sublist ([_, _] ++ [activated number earlier.id]) _
    rw [same]
    exact (order.trans started).append (List.Sublist.refl _)
  · next unselected =>
    rw [if_neg unselected] at pii ⊢
    exact (sound.audited earlier held pii audited).extend (.refl earlier) _

end Soundness

/-! ## One step -/

section Steps

variable {sha256 : String → String} {store : RevealStore ν} {number : Nat}
  {knowledge : RevealKnowledge} {outcome : RevealOutcome ν}

/-- A call of a request says nothing of a throw of another. -/
def Records (store : RevealStore ν) (number : Nat) (later : RevealStore ν) : Prop :=
  ∃ events, later.history = store.history ++ events ∧
    ∀ other, other ≠ number → RevealEvent.threw other ∉ events

omit [JsonRuntime ν] in
theorem records_settle {α : Type} {table : StepUpTable} {events : List (RevealEvent ν)}
    {value : α} (unthrown : ∀ other, RevealEvent.threw other ∉ events) :
    Records store number (store.settle number outcome table events value).1 := by
  unfold settle
  split
  · refine ⟨(if outcome.isEffective then events else []) ++ [.threw number], ?_, ?_⟩
    · split <;> simp [change]
    · intro other apart member
      rcases mem_append.mp member with effect | threw
      · split at effect
        · exact unthrown other effect
        · exact absurd effect not_mem_nil
      · simp [apart] at threw
  · exact ⟨events, rfl, fun other _ => unthrown other⟩

omit [JsonRuntime ν] in
/-- What a call records. -/
theorem records_answer (effect : RevealEffect) :
    Records store number (store.answer number outcome effect).1 := by
  have nothing : Records store number store :=
    ⟨[], (append_nil _).symm, fun _ _ => not_mem_nil⟩
  have silent : ∀ other, threw other ∉ ([] : List (RevealEvent ν)) :=
    fun _ => not_mem_nil
  cases effect with
  | now => exact nothing
  | issueId => exact nothing
  | insert grant =>
    unfold answer
    dsimp only
    split
    · refine ⟨[.threw number], rfl, fun other apart => ?_⟩
      simp [apart]
    · exact records_settle fun _ => by simp
  | findActiveDatabasePii binding => exact records_settle fun _ => by simp
  | append entry => exact records_settle fun _ => by simp
  | activateDatabasePiiGrant grantId binding =>
    refine records_settle fun other member => ?_
    split at member <;> simp at member
  | _ => exact records_settle silent

/-- What a grant is that the condition of `findActiveDatabasePii` selects. -/
theorem isActiveGrant_of_reveals {binding : DatabasePiiBinding} {now : Int} {row : StepUpGrant}
    (reveals : StepUpTable.revealsPii binding now row) : IsActiveGrant binding now row := by
  simp only [StepUpTable.revealsPii, StepUpGrant.isPiiOf, StepUpGrant.isLive, StepUpGrant.isOpen,
    Bool.and_eq_true, beq_iff_eq, decide_eq_true_eq, Option.isNone_iff_eq_none] at reveals
  obtain ⟨⟨⟨⟨⟨⟨⟨⟨⟨capability, userId⟩, sessionId⟩, ipHash⟩, userAgentHash⟩, -⟩, subjectDigest⟩, -⟩,
    ⟨unrevoked, unconsumed⟩, unexpired⟩, activated⟩ := reveals
  exact ⟨capability, userId, sessionId, ipHash, userAgentHash, subjectDigest, unrevoked, unconsumed,
    unexpired, activated⟩

theorem knows_settle_plain {α : Type} {table : StepUpTable} {events : List (RevealEvent ν)}
    {value : α} (known : Knows store number knowledge)
    (unthrown : threw number ∉ events) :
    Knows (store.settle number outcome table events value).1 number
      (knowledge.noting (store.settle number outcome table events value).2 fun _ => knowledge) :=
  knows_settle known rfl fun _ _ _ since => since.extend_quiet unthrown

/-- What a request knows after its call. -/
theorem knows_answer (sound : IsSound sha256 store) (known : Knows store number knowledge)
    (effect : RevealEffect) :
    Knows (store.answer number outcome effect).1 number
      ((revealMonitor ν).observe knowledge effect (store.answer number outcome effect).2) := by
  have silent : threw number ∉ ([] : List (RevealEvent ν)) := not_mem_nil
  cases effect with
  | now => exact known
  | issueId => exact known
  | findUserTotpFactorId userId => exact knows_settle_plain known silent
  | verifyProof input => exact knows_settle_plain known silent
  | findParentSession userId sessionId => exact knows_settle_plain known silent
  | replaceOlder key => exact knows_settle_plain known silent
  | revokeDatabasePii binding => exact knows_settle_plain known silent
  | command actor payload => exact knows_settle_plain known silent
  | activateDatabasePiiGrant grantId binding =>
    refine knows_settle_plain known fun member => ?_
    split at member <;> simp at member
  | append entry => exact knows_settle known rfl fun _ _ _ since => since.append entry
  | insert grant =>
    show Knows (store.answer number outcome (.insert grant)).1 number
      (knowledge.noting (store.answer number outcome (.insert grant)).2 fun _ =>
        { knowledge with inserted := some grant, entries := [] })
    unfold answer
    dsimp only
    split
    · obtain ⟨earlier, later, cut, since⟩ := known
      refine ⟨earlier, later ++ [.threw number], ?_, since.extend _⟩
      simp [change, RevealKnowledge.noting, cut]
    · exact knows_settle known rfl fun _ _ _ since => since.insert grant
  | findActiveDatabasePii binding =>
    refine knows_settle known ?_ fun earlier later cut since => ?_
    · split <;> rfl
    · split
      · next found =>
        obtain ⟨row, first⟩ := Option.isSome_iff_exists.mp found
        obtain ⟨earlier_row, member, -⟩ := mem_map.mp (List.mem_of_head? first)
        obtain ⟨held, reveals⟩ := List.mem_filter.mp member
        have active := isActiveGrant_of_reveals reveals
        refine since.look held active ?_
        rw [← cut]
        exact sound.audited earlier_row held active.capability active.activated
      · exact since.extend_quiet (by simp)

/-- The statements that revoke, consume or use a grant audit nothing. -/
theorem becomes_keeps_audit (now : Int) :
    (∀ grant : StepUpGrant, grant.Becomes (grant.revoke now) ∧
      (grant.revoke now).auditCompletedAt = grant.auditCompletedAt) ∧
    (∀ grant : StepUpGrant, grant.Becomes (grant.consume now) ∧
      (grant.consume now).auditCompletedAt = grant.auditCompletedAt) ∧
    ∀ grant : StepUpGrant, grant.Becomes (grant.use now) ∧
      (grant.use now).auditCompletedAt = grant.auditCompletedAt :=
  ⟨fun grant => ⟨StepUpGrant.becomes_revoke now grant, rfl⟩,
    fun grant => ⟨StepUpGrant.becomes_consume now grant, rfl⟩,
    fun grant => ⟨StepUpGrant.becomes_use now grant, rfl⟩⟩

/-- A permitted call keeps the table and the history sound. -/
theorem isSound_answer (sound : IsSound sha256 store) (known : Knows store number knowledge)
    (effect : RevealEffect) (permitted : (revealMonitor ν).permits knowledge effect) :
    IsSound sha256 (store.answer number outcome effect).1 := by
  obtain ⟨revokes, -, uses⟩ := becomes_keeps_audit store.now
  have silent : ∀ event ∈ ([] : List (RevealEvent ν)), event.isPlain :=
    fun event member => absurd member not_mem_nil
  have quiet := sound.keep (.refl store.table) silent
  cases effect with
  | now => exact sound
  | issueId => exact sound
  | findUserTotpFactorId userId => exact isSound_settle sound quiet
  | verifyProof input => exact isSound_settle sound quiet
  | findParentSession userId sessionId => exact isSound_settle sound quiet
  | command actor payload => exact isSound_settle sound quiet
  | replaceOlder key =>
    exact isSound_settle sound (sound.keep (keeps_updateWhere store.table _ revokes) silent)
  | revokeDatabasePii binding =>
    exact isSound_settle sound (sound.keep (keeps_updateWhere store.table _ revokes) silent)
  | append entry =>
    exact isSound_settle sound (sound.keep (.refl store.table) (by simp [isPlain]))
  | findActiveDatabasePii binding =>
    exact isSound_settle sound
      (sound.keep (keeps_updateWhere store.table _ uses) (by simp [isPlain]))
  | activateDatabasePiiGrant grantId binding =>
    exact isSound_settle sound (sound.activate binding known permitted)
  | insert grant =>
    unfold answer
    dsimp only
    split
    · exact sound.keep (.refl store.table) (by simp [isPlain])
    · next table inserted =>
      refine isSound_settle sound (sound.insert inserted ?_ (by simp))
      exact fun event member => .inl ⟨number, mem_singleton.mp member⟩

/-- A statement of another service keeps the table and the history sound. -/
theorem isSound_afterOther (sound : IsSound sha256 store) (statement : OtherStatement) :
    IsSound sha256 (store.change (store.afterOther statement) []) := by
  obtain ⟨revokes, consumes, uses⟩ := becomes_keeps_audit store.now
  have silent : ∀ event ∈ ([] : List (RevealEvent ν)), event.isPlain :=
    fun event member => absurd member not_mem_nil
  cases statement with
  | replaceOlder key => exact sound.keep (keeps_updateWhere store.table _ revokes) silent
  | authorize binding => exact sound.keep (keeps_updateWhere store.table _ uses) silent
  | consume binding => exact sound.keep (keeps_updateWhere store.table _ consumes) silent
  | revoke binding => exact sound.keep (keeps_updateWhere store.table _ revokes) silent
  | revokeSession sessionId => exact sound.keep (keeps_updateWhere store.table _ revokes) silent
  | revokeUser userId => exact sound.keep (keeps_updateWhere store.table _ revokes) silent
  | insert grant =>
    unfold afterOther
    dsimp only
    split
    · exact sound.keep (.refl store.table) silent
    · cases inserted : store.table.insert grant with
      | none => exact sound.keep (.refl store.table) silent
      | some table =>
        refine sound.insert inserted (fun event member => ?_) fun event member => ?_
        · exact absurd member not_mem_nil
        · exact absurd member not_mem_nil

/-- A request that ends as it must returns revealed rows only on their grounds. -/
theorem isSound_finish (sound : IsSound sha256 store) (known : Knows store number knowledge)
    {value : Except RevealError (RevealReply ν) × Unit} (ends : EndsAudited sha256 value knowledge) :
    IsSound sha256 (store.change store.table [.returned number value.1]) := by
  refine ⟨fun inserter grant member => ?_, fun row member pii audited => ?_, ?_⟩
  · have before : RevealEvent.inserted inserter grant ∈ store.history := by
      rcases mem_append.mp member with before | last
      · exact before
      · cases mem_singleton.mp last
    exact sound.inserted inserter grant before
  · exact (sound.audited row member pii audited).extend (.refl row) _
  · refine sound.revealed.extend fun earlier other response after cut revealed => ?_
    rcases List.append_eq_singleton_iff.mp cut.symm with ⟨rfl, last⟩ | ⟨-, nothing⟩
    · obtain ⟨same, -⟩ := List.cons.inj last
      injection same with sameNumber returned
      subst sameNumber
      obtain ⟨input, asked, quiet, found, entries⟩ := ends response returned.symm revealed
      obtain ⟨before, later, split, since⟩ := known
      obtain ⟨front, back, table, now, row, parted, held, active, audited, appended⟩ :=
        since.found _ found
      rw [entries] at appended
      refine ⟨knowledge.request, input, before, front, back, table, now, row, ?_, asked, held,
        active, audited, appended, ?_⟩
      · rw [append_nil, split, parted]
      · intro threw
        refine since.quiet quiet ?_
        rw [parted]
        rcases mem_append.mp threw with first | last
        · exact List.mem_append_left _ first
        · exact List.mem_append_right _ (.tail _ last)
    · cases nothing

/-- The requests are guarded by what they know. -/
theorem revealRequests_guarded (sha256 : String → String) :
    (revealRequests sha256).IsGuarded (revealMonitor ν) (IsSound sha256) Knows
      (EndsAudited sha256) where
  start := by
    intro store number request sound
    refine ⟨sound.keep (.refl _) (by simp [isPlain]), ⟨.initial request,
      ensures_request sha256 request, store.history, [], rfl, ?_⟩, ?_⟩
    · exact ⟨fun _ => not_mem_nil, (fun binding found => by cases found),
        (fun grant inserted => by cases inserted)⟩
    · exact fun other knowledge _ known => known.extend rfl (by simp)
  perform := by
    intro store number knowledge effect outcome sound known permitted
    have waited : IsSound sha256 (store.wait outcome.elapsed) :=
      ⟨sound.inserted, sound.audited, sound.revealed⟩
    have knows : Knows (store.wait outcome.elapsed) number knowledge := known
    have records : Records (store.wait outcome.elapsed) number
        ((store.wait outcome.elapsed).answer number outcome effect).1 := records_answer effect
    obtain ⟨events, recorded, unthrown⟩ := records
    refine ⟨isSound_answer waited knows effect permitted, knows_answer waited knows effect, ?_⟩
    exact fun other others apart theirs => Knows.extend theirs recorded (unthrown other apart)
  finish := by
    intro store number knowledge value sound known ends
    refine ⟨isSound_finish sound known ends, fun other others _ theirs => ?_⟩
    exact theirs.extend rfl (by simp)
  act := by
    intro store action sound
    have waited : IsSound sha256 (store.wait action.elapsed) :=
      ⟨sound.inserted, sound.audited, sound.revealed⟩
    refine ⟨isSound_afterOther waited action.statement, fun number knowledge known => ?_⟩
    exact known.extend rfl not_mem_nil

end Steps

/-- Whatever the requests, the order of their calls and what fails, revealed rows were returned only
after an active grant was found whose entry had been appended before its activation, and after both
entries of the view, and no call of the request had thrown. -/
theorem reveals_audited (sha256 : String → String)
    (steps : List (ProcessStep RevealRequest (RevealOutcome ν) OtherStep)) :
    Machine.Throughout (Processes.step (revealRequests sha256))
      (fun requests => RevealsAudited sha256 requests.shared.history) (.initial .empty) steps := by
  have first : IsSound sha256 (empty : RevealStore ν) := by
    refine ⟨fun _ _ member => absurd member not_mem_nil,
      fun _ member => absurd member not_mem_nil, fun before number response after cut => ?_⟩
    cases before <;> cases cut
  have sound := Processes.throughout (revealRequests_guarded sha256) first steps
  exact fun earlier later split => (sound earlier later split).revealed

end NancyMan.Explorer
