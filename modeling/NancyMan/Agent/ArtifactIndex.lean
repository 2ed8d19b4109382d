import NancyMan.Agent.ArtifactStorage
import NancyMan.Lib.Machine

/-!
# Concurrent updates of an artifact index

`updateArtifactIndex` reads the whole index, changes it and writes it back, and the requests of the
agent and the cleanup process do so without a lock. A run is any interleaving of their steps, one file
operation at a time. `index_iff` says when the index lists what the updates written so far leave: each
write has to find the entries of the other identifiers as it read them.
-/
namespace NancyMan.Agent

/-- An operation on a directory: `writeValue`, `deleteValue` and `removeExpired`, which is also
the one of the cleanup process. -/
inductive ArtifactOperation (β : Type) where
  | save (entry : ArtifactIndexEntry) (artifact : β)
  | delete (id : String)
  | removeExpired (kind : ArtifactKind) (now : Int)

/-- How far an operation is. -/
inductive ArtifactProgress (β : Type) where
  | started (operation : ArtifactOperation β)
  | unlinking (ids rest : List String)
  | updating (update : IndexUpdate)
  | loaded (update : IndexUpdate) (entries : List ArtifactIndexEntry)
  | finished

/-- An operation that was issued, with how far it is. -/
structure ArtifactRequest (β : Type) where
  operation : ArtifactOperation β
  progress : ArtifactProgress β := .started operation

/-- A directory with the operations issued on it and the index updates written so far. -/
structure ArtifactRequests (β : Type) where
  directory : ArtifactDirectory β
  requests : List (ArtifactRequest β) := []
  completed : List IndexUpdate := []

/-- What happens next: an operation is issued, or one of those issued does its next step. -/
inductive ArtifactAction (β : Type) where
  | issue (operation : ArtifactOperation β)
  | advance (request : Nat)

namespace ArtifactRequests

variable {β : Type}

/-- The next step of an operation: the directory, how far it is then, and the index update it has
written, if it has. -/
def perform (directory : ArtifactDirectory β) :
    ArtifactProgress β → ArtifactDirectory β × ArtifactProgress β × List IndexUpdate
  | .started (.save entry artifact) =>
    (directory.withFile entry.id artifact, .updating (.save entry), [])
  | .started (.delete id) =>
    -- without the file `deleteValue` answers `false` and leaves the index alone
    if (directory.file id).isSome then (directory.withoutFile id, .updating (.remove [id]), [])
    else (directory, .finished, [])
  | .started (.removeExpired kind now) =>
    let ids := directory.expiredIds kind now
    (directory, .unlinking ids ids, [])
  | .unlinking ids (id :: rest) => (directory.withoutFile id, .unlinking ids rest, [])
  | .unlinking ids [] =>
    (directory, if ids.isEmpty then .finished else .updating (.remove ids), [])
  | .updating update => (directory, .loaded update directory.index, [])
  | .loaded update entries =>
    (directory.withIndex (update.apply entries), .finished, [update])
  | .finished => (directory, .finished, [])

/-- One step. -/
def step (store : ArtifactRequests β) : ArtifactAction β → ArtifactRequests β × Unit
  | .issue operation => ({ store with requests := store.requests ++ [{ operation }] }, ())
  | .advance request =>
    match store.requests[request]? with
    | none => (store, ())
    | some pending =>
      let (directory, progress, written) := perform store.directory pending.progress
      ({ directory
         requests := store.requests.set request { pending with progress }
         completed := store.completed ++ written }, ())

def opened (directory : ArtifactDirectory β) : ArtifactRequests β := { directory }

def Complete (initial : List ArtifactIndexEntry) (store : ArtifactRequests β) : Prop :=
  ∀ entry, entry ∈ store.directory.index ↔ IndexUpdate.Listed initial store.completed entry

/-- The operation that writes the index finds the entries of the other identifiers as it has read
them. -/
def Undisturbed (store : ArtifactRequests β) (action : ArtifactAction β) : Prop :=
  ∀ request, action = .advance request →
    ∀ operation update entries,
      store.requests[request]? = some ⟨operation, .loaded update entries⟩ →
      ∀ entry, entry.id ∉ update.ids → (entry ∈ entries ↔ entry ∈ store.directory.index)

/-! ## Each step -/

/-- Only the write of the index changes the index, and it writes one update. -/
theorem perform_cases (directory : ArtifactDirectory β) (progress : ArtifactProgress β) :
    (∃ update entries, progress = .loaded update entries ∧
        (perform directory progress).1.index = update.apply entries ∧
        (perform directory progress).2.2 = [update]) ∨
      ((∀ update entries, progress ≠ .loaded update entries) ∧
        (perform directory progress).1.index = directory.index ∧
        (perform directory progress).2.2 = []) := by
  cases progress with
  | started operation =>
    refine .inr ⟨nofun, ?_⟩
    cases operation with
    | save entry artifact => exact ⟨rfl, rfl⟩
    | delete id =>
      by_cases present : (directory.file id).isSome
      · simp [perform, present]
      · simp [perform, present]
    | removeExpired kind now => exact ⟨rfl, rfl⟩
  | unlinking ids rest =>
    refine .inr ⟨nofun, ?_⟩
    cases rest with
    | nil => exact ⟨rfl, rfl⟩
    | cons id rest => exact ⟨rfl, rfl⟩
  | updating update => exact .inr ⟨nofun, rfl, rfl⟩
  | loaded update entries => exact .inl ⟨update, entries, rfl, rfl, rfl⟩
  | finished => exact .inr ⟨nofun, rfl, rfl⟩

variable {store : ArtifactRequests β} {initial : List ArtifactIndexEntry}

/-- A request is advanced by its next step. -/
theorem step_advance {request : Nat} {pending : ArtifactRequest β}
    (found : store.requests[request]? = some pending) :
    (store.step (.advance request)).1 =
      { directory := (perform store.directory pending.progress).1
        requests := store.requests.set request
          { pending with progress := (perform store.directory pending.progress).2.1 }
        completed := store.completed ++ (perform store.directory pending.progress).2.2 } := by
  rw [step, found]

/-- A step that writes no index leaves a complete one complete and is undisturbed. -/
theorem complete_of_quiet (complete : store.Complete initial) {action : ArtifactAction β}
    (index : (store.step action).1.directory.index = store.directory.index)
    (completed : (store.step action).1.completed = store.completed) :
    (store.step action).1.Complete initial := by
  intro entry
  rw [index, completed]
  exact complete entry

/-- A step leaves a complete index complete exactly when it is undisturbed. -/
theorem complete_step_iff (complete : store.Complete initial) (action : ArtifactAction β) :
    (store.step action).1.Complete initial ↔ store.Undisturbed action := by
  cases action with
  | issue operation => exact iff_of_true (complete_of_quiet complete rfl rfl) nofun
  | advance request =>
    cases found : store.requests[request]? with
    | none =>
      have same : store.step (.advance request) = (store, ()) := by
        rw [step, found]
      refine iff_of_true ?_ ?_
      · rw [same]
        exact complete
      · rintro _ ⟨⟩ operation update entries here
        rw [found] at here
        cases here
    | some pending =>
      obtain ⟨operation, progress⟩ := pending
      have next := step_advance found
      rcases perform_cases store.directory progress with
        ⟨update, entries, rfl, index, written⟩ | ⟨other, index, written⟩
      · -- the index written agrees with the updates where the one read agrees with the index
        have undisturbed : store.Undisturbed (.advance request) ↔ ∀ entry,
            entry.id ∉ update.ids → (entry ∈ entries ↔ entry ∈ store.directory.index) := by
          constructor
          · intro all
            exact all request rfl operation update entries found
          · rintro all _ ⟨⟩ same other loaded here
            rw [found] at here
            obtain ⟨⟩ := here
            exact all
        rw [undisturbed, next]
        refine forall_congr' fun entry => ?_
        dsimp only
        rw [index, written, IndexUpdate.listed_snoc, ← complete entry, IndexUpdate.mem_apply]
        by_cases own : entry.id ∈ update.ids
        · simp [own]
        · have none' : entry ∉ update.added := fun member => own (IndexUpdate.id_of_mem_added member)
          simp [own, none']
      · refine iff_of_true (complete_of_quiet complete ?_ ?_) ?_
        · rw [next]
          exact index
        · rw [next]
          show store.completed ++ _ = _
          rw [written, List.append_nil]
        · rintro _ ⟨⟩ same update entries here
          rw [found] at here
          exact absurd (congrArg ArtifactRequest.progress (Option.some.inj here))
            (other update entries)

/-! ## Runs -/

/-- In every run of saves, deletions and removals of expired artifacts every step leaves an index
that lists exactly the artifacts saved and not removed since, exactly when each write of the index
finds the entries of the other identifiers as it has read them. -/
theorem index_iff (directory : ArtifactDirectory β) (actions : List (ArtifactAction β)) :
    Machine.Along step (fun store action => (store.step action).1.Complete directory.index)
        (opened directory) actions ↔
      Machine.Along step Undisturbed (opened directory) actions := by
  have first : (opened directory).Complete directory.index := by
    intro entry
    constructor
    · intro member
      exact .inr ⟨member, nofun⟩
    · rintro (⟨before, update, later, split, -⟩ | ⟨member, -⟩)
      · exact absurd split (by simp [opened])
      · exact member
  have kept (store : ArtifactRequests β) (action : ArtifactAction β)
      (complete : store.Complete directory.index) (undisturbed : store.Undisturbed action) :
      (store.step action).1.Complete directory.index :=
    (complete_step_iff complete action).mpr undisturbed
  have agree (store : ArtifactRequests β) (action : ArtifactAction β)
      (complete : store.Complete directory.index) :
      (store.step action).1.Complete directory.index ↔ store.Undisturbed action :=
    complete_step_iff complete action
  exact Machine.along_congr_of_kept kept agree first actions

/-- An entry of a draft. -/
def draftEntry (id : String) : ArtifactIndexEntry :=
  { id, kind := .draft, changeId := id, appId := "app", catalogVersion := "1",
    manifestVersion := "1", createdAt := 0, expiresAt := 86400000, retention := .normal }

/-- Two drafts are saved at a time. -/
def twoSaves : List (ArtifactAction Unit) :=
  [.issue (.save (draftEntry "a") ()), .issue (.save (draftEntry "b") ()),
    .advance 0, .advance 1, .advance 0, .advance 1, .advance 0, .advance 1]

/-- Two drafts are saved at a time. Both operations have finished and the first draft is not in the
index. -/
theorem save_loses_other :
    ¬ ∀ actions : List (ArtifactAction Unit),
      (∀ request ∈ (Machine.after step (opened {}) actions).requests,
        ∃ operation, request = ⟨operation, .finished⟩) →
      (Machine.after step (opened {}) actions).Complete [] := by
  intro all
  have requests : (Machine.after step (opened {}) twoSaves).requests =
      [⟨.save (draftEntry "a") (), .finished⟩, ⟨.save (draftEntry "b") (), .finished⟩] := rfl
  have completed : (Machine.after step (opened {}) twoSaves).completed =
      [.save (draftEntry "a"), .save (draftEntry "b")] := rfl
  have missing : draftEntry "a" ∉ (Machine.after step (opened {}) twoSaves).directory.index := by
    decide
  have finished : ∀ request ∈ (Machine.after step (opened {}) twoSaves).requests,
      ∃ operation, request = ⟨operation, .finished⟩ := by
    rw [requests]
    intro request member
    rcases List.mem_pair.mp member with rfl | rfl
    · exact ⟨_, rfl⟩
    · exact ⟨_, rfl⟩
  have complete := all twoSaves finished (draftEntry "a")
  rw [completed] at complete
  have saved := complete.mpr (.inl ⟨[], .save (draftEntry "a"), [.save (draftEntry "b")], rfl,
    .head _, by decide⟩)
  exact absurd saved missing

end ArtifactRequests

end NancyMan.Agent
