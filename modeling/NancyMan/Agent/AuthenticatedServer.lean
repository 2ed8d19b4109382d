import NancyMan.Lib.Machine

/-!
# Replay protection of the agent's socket

What `dispatch` checks of a request before a handler sees it, and the cache of request ids by
which it refuses a second use. The cache is purged by one comparison, requests are accepted by
another, and a full cache gives up its oldest entry. `Unreplayed` is the law those three are
meant to keep: an id is dispatched again only after the earlier request that carried it has
expired. `unreplayed_after` proves it of every run that neither presents an id at the very
instant at which an earlier request with it expires nor fills the cache.
-/
namespace NancyMan.Agent

/-- What a request envelope is authenticated by. A time is what `Date.parse` reads of it, and
`unsigned` is the canonical text of the envelope without its signature. -/
structure AgentRequest where
  requestId : String
  issuedAt : Option Int
  expiresAt : Option Int
  hmacKeyId : String
  unsigned : String
  signature : String

/-- The options of the server, and `signatureFor` under its protocol key. -/
structure AuthenticatedServer where
  clockSkewMs : Int
  requestTtlMs : Int
  protocolKeyId : String
  signatureFor : String → String

/-- `/^hmac-sha256:v1:([a-f0-9]{64})$/`. -/
def isSignature (text : String) : Bool :=
  let digest := text.toList.drop 15
  text.toList.take 15 = "hmac-sha256:v1:".toList && digest.length = 64 &&
    digest.all fun symbol => symbol.isDigit || ('a' ≤ symbol && symbol ≤ 'f')

/-- The replay cache, `replayedRequests`: ids with their expiries, oldest entry first. -/
abbrev ReplayCache := List (String × Int)

def replayCapacity : Nat := 2048

/-- A request that reached a handler. -/
structure Dispatch where
  requestId : String
  expiresAt : Int
  dispatchedAt : Int
deriving DecidableEq

/-- The cache, and the requests dispatched so far. -/
structure ServerState where
  replayed : ReplayCache
  dispatched : List Dispatch

variable (server : AuthenticatedServer)

/-- The expiry of a request whose times, key and signature are accepted at a time. -/
def authenticate (current : Int) (request : AgentRequest) : Option Int :=
  match request.issuedAt, request.expiresAt with
  | some issuedAt, some expiresAt =>
    if issuedAt > current + server.clockSkewMs ∨
        issuedAt < current - server.requestTtlMs - server.clockSkewMs ∨
        expiresAt ≤ issuedAt ∨ expiresAt < current ∨
        expiresAt > current + server.requestTtlMs + server.clockSkewMs then none
    else if request.hmacKeyId ≠ server.protocolKeyId then none
    else if !isSignature request.signature then none
    else if request.signature ≠ server.signatureFor request.unsigned then none
    else some expiresAt
  | _, _ => none

def purge (current : Int) (cache : ReplayCache) : ReplayCache :=
  cache.filter fun entry => !decide (entry.2 ≤ current)

def evict (cache : ReplayCache) : ReplayCache :=
  if replayCapacity ≤ cache.length then cache.tail else cache

def isReplayed (cache : ReplayCache) (requestId : String) : Bool :=
  cache.any fun entry => entry.1 = requestId

/-- Present a request at a time: whether it is dispatched. -/
def present (state : ServerState) (input : Int × AgentRequest) : ServerState × Bool :=
  match authenticate server input.1 input.2 with
  | none => (state, false)
  | some expiresAt =>
    let cache := purge input.1 state.replayed
    if isReplayed cache input.2.requestId then
      ({ state with replayed := cache }, false)
    else
      ({ replayed := evict cache ++ [(input.2.requestId, expiresAt)]
         dispatched := state.dispatched ++ [⟨input.2.requestId, expiresAt, input.1⟩] }, true)

def ServerState.initial : ServerState := ⟨[], []⟩

/-- No id is dispatched while an earlier request that carried it is not expired, as
`authenticate` tells expired requests. -/
def Unreplayed (dispatched : List Dispatch) : Prop :=
  dispatched.Pairwise fun earlier later =>
    earlier.requestId = later.requestId → earlier.expiresAt < later.dispatchedAt

/-- A request that is authentic is not presented at the instant at which an earlier request with
its id expires and, when its id is not in the cache, finds room there. -/
def Spaced (state : ServerState) (input : Int × AgentRequest) : Prop :=
  (authenticate server input.1 input.2).isSome →
    (∀ earlier ∈ state.dispatched, earlier.requestId = input.2.requestId →
        earlier.expiresAt ≠ input.1) ∧
      (isReplayed (purge input.1 state.replayed) input.2.requestId = false →
        (purge input.1 state.replayed).length < replayCapacity)

/-- Until it expires, a dispatched request is in the cache. -/
def Remembered (clock : Int) (state : ServerState) : Prop :=
  ∀ earlier ∈ state.dispatched, clock < earlier.expiresAt →
    (earlier.requestId, earlier.expiresAt) ∈ state.replayed

theorem Remembered.later {clock now : Int} {state : ServerState}
    (remembered : Remembered clock state) (later : clock ≤ now) : Remembered now state := by
  intro earlier member unexpired
  exact remembered earlier member (Int.lt_of_le_of_lt later unexpired)

theorem mem_purge {current : Int} {cache : ReplayCache} {entry : String × Int}
    (member : entry ∈ cache) (unexpired : current < entry.2) : entry ∈ purge current cache := by
  rw [purge, List.mem_filter]
  exact ⟨member, by simp [unexpired]⟩

/-- Presenting a request keeps both laws. -/
theorem present_keeps {state : ServerState} {input : Int × AgentRequest}
    (remembered : Remembered input.1 state) (unreplayed : Unreplayed state.dispatched)
    (spaced : Spaced server state input) :
    Remembered input.1 (present server state input).1 ∧
      Unreplayed (present server state input).1.dispatched := by
  unfold present
  cases authentic : authenticate server input.1 input.2 with
  | none => exact ⟨remembered, unreplayed⟩
  | some expiresAt =>
    have kept : ∀ earlier ∈ state.dispatched, input.1 < earlier.expiresAt →
        (earlier.requestId, earlier.expiresAt) ∈ purge input.1 state.replayed := by
      intro earlier member unexpired
      exact mem_purge (remembered earlier member unexpired) unexpired
    obtain ⟨instant, room⟩ := spaced (by rw [authentic]; rfl)
    dsimp only
    split
    · exact ⟨kept, unreplayed⟩
    · next fresh =>
      have whole : evict (purge input.1 state.replayed) = purge input.1 state.replayed :=
        if_neg (Nat.not_le.mpr (room (by simpa using fresh)))
      constructor
      · intro earlier member unexpired
        rw [whole]
        rcases List.mem_append.mp member with before | now
        · exact List.mem_append_left _ (kept earlier before unexpired)
        · rw [List.mem_singleton.mp now]
          exact List.mem_append_right _ (.head _)
      · refine List.pairwise_append.mpr ⟨unreplayed, List.pairwise_singleton _ _, ?_⟩
        intro earlier member later now same
        rw [List.mem_singleton.mp now] at same ⊢
        by_contra unexpired
        have late : input.1 < earlier.expiresAt := by
          have differs := instant earlier member same
          simp only at unexpired
          omega
        apply fresh
        rw [isReplayed, List.any_eq_true]
        exact ⟨_, kept earlier member late, by simpa using same⟩

/-- Replay protection. Requests presented by a clock that does not go back are never dispatched
twice under one id before the first of them has expired, as long as each is presented away from
the instant of expiry and finds room in the cache. -/
theorem unreplayed_after (server : AuthenticatedServer) {inputs : List (Int × AgentRequest)}
    (clock : inputs.Pairwise fun earlier later => earlier.1 ≤ later.1)
    (spaced : Machine.Along (present server) (Spaced server) .initial inputs) :
    Unreplayed (Machine.after (present server) .initial inputs).dispatched := by
  have run : ∀ (inputs : List (Int × AgentRequest)) (state : ServerState),
      (inputs.Pairwise fun earlier later => earlier.1 ≤ later.1) →
      Machine.Along (present server) (Spaced server) state inputs →
      (∀ input ∈ inputs, Remembered input.1 state) → Unreplayed state.dispatched →
      Unreplayed (Machine.after (present server) state inputs).dispatched := by
    intro inputs
    induction inputs with
    | nil => exact fun _ _ _ _ unreplayed => unreplayed
    | cons input rest ih =>
      intro state clock spaced remembered unreplayed
      obtain ⟨first, later⟩ := List.pairwise_cons.mp clock
      obtain ⟨now, next⟩ := present_keeps server (remembered input (.head _))
        unreplayed spaced.1
      exact ih _ later spaced.2 (fun other member => now.later (first other member)) next
  refine run inputs .initial clock spaced ?_ .nil
  intro input _ earlier member
  cases member

/-- A server for which the signature of an envelope is that of the empty text. -/
def plainServer : AuthenticatedServer where
  clockSkewMs := 60000
  requestTtlMs := 60000
  protocolKeyId := "key-1"
  signatureFor _ := String.ofList ("hmac-sha256:v1:".toList ++ List.replicate 64 '0')

/-- A request that expires ten milliseconds after its issue. -/
def shortRequest (requestId : String) : AgentRequest where
  requestId := requestId
  issuedAt := some 0
  expiresAt := some 10
  hmacKeyId := "key-1"
  unsigned := ""
  signature := String.ofList ("hmac-sha256:v1:".toList ++ List.replicate 64 '0')

/-- Two requests are dispatched, each once. -/
theorem unreplayed_pair :
    Unreplayed (Machine.after (present plainServer) .initial
      [(5, shortRequest "REQ_1"), (5, shortRequest "REQ_2"), (6, shortRequest "REQ_1")]).dispatched :=
  unreplayed_after plainServer (by simp) (by
    refine ⟨fun _ => ⟨by decide, by decide⟩, fun _ => ⟨by decide, by decide⟩,
      fun _ => ⟨by decide, by decide⟩, trivial⟩)

/-- A request that is presented again at the instant of its expiry is dispatched again. -/
theorem replayed_at_expiry :
    ([(5, shortRequest "REQ_1"), (10, shortRequest "REQ_1")] : List (Int × AgentRequest)).Pairwise
        (fun earlier later => earlier.1 ≤ later.1) ∧
      ¬ Unreplayed (Machine.after (present plainServer) .initial
        [(5, shortRequest "REQ_1"), (10, shortRequest "REQ_1")]).dispatched := by
  have dispatched : (Machine.after (present plainServer) .initial
      [(5, shortRequest "REQ_1"), (10, shortRequest "REQ_1")]).dispatched =
      [⟨"REQ_1", 10, 5⟩, ⟨"REQ_1", 10, 10⟩] := by decide
  refine ⟨by simp, ?_⟩
  rw [dispatched]
  simp [Unreplayed]

end NancyMan.Agent
