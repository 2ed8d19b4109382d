import NancyMan.Agent.ArtifactStorage
import NancyMan.Lib.Machine
import Mathlib.Data.List.Nodup

/-!
# Cleanups beside other operations

A cleanup reads the index of a directory, unlinks the files of the entries it found expired one by
one, and filters their identifiers out of the index as it reads it again. The agent saves, deletes
and marks artifacts in the meantime, and neither side takes a lock. A run is any interleaving of
their steps, one file operation at a time; an operation that is not continued has stopped with its
process. `removes_expired` says when the cleanups of a run remove only what is expired and not kept
as evidence.
-/
namespace NancyMan.Agent

open List (mem_filter mem_map mem_singleton)

/-- What a cleanup of a directory goes by: the kind of its artifacts, its instant and the entries it
has read as expired. -/
structure Cleanup where
  kind : ArtifactKind
  now : Int
  expired : List ArtifactIndexEntry

namespace Cleanup

def ids (cleanup : Cleanup) : List String := cleanup.expired.map ArtifactIndexEntry.id

def Takes (cleanup : Cleanup) (entry : ArtifactIndexEntry) : Prop :=
  entry.eligible cleanup.kind = true ∧ entry.isExpired cleanup.now = true

instance (cleanup : Cleanup) (entry : ArtifactIndexEntry) : Decidable (cleanup.Takes entry) :=
  inferInstanceAs (Decidable (_ ∧ _))

/-- The entries that `removeExpired` and `removeExpiredDirectory` read as expired. -/
def scan (index : List ArtifactIndexEntry) (kind : ArtifactKind) (now : Int) : Cleanup :=
  { kind, now, expired := index.filter fun entry => entry.eligible kind && entry.isExpired now }

end Cleanup

/-- A change that `updateArtifactIndex` makes of the entries it reads. -/
inductive IndexChange where
  | save (entry : ArtifactIndexEntry)
  | delete (id : String)
  | markRollbackFailed (snapshotId : String)
  | releaseRollbackEvidence (snapshotId : String) (now : Int)
  | removeExpired (cleanup : Cleanup)

/-- The entries after a change. -/
def IndexChange.apply (entries : List ArtifactIndexEntry) : IndexChange → List ArtifactIndexEntry
  | .save entry => (entries.filter fun other => other.id ≠ entry.id) ++ [entry]
  | .delete id => entries.filter fun entry => entry.id ≠ id
  | .markRollbackFailed snapshotId => entries.map fun entry =>
    if entry.id = snapshotId then { entry with retention := .rollbackFailed } else entry
  | .releaseRollbackEvidence snapshotId now => entries.map fun entry =>
    if entry.id = snapshotId then
      { entry with
        retention := .normal
        expiresAt := if entry.isExpired now then now else entry.expiresAt }
    else entry
  | .removeExpired cleanup => entries.filter fun entry => entry.id ∉ cleanup.ids

/-- An operation on a directory: `writeValue` and `createSnapshot`, `deleteValue`, the two changes
of a snapshot's retention, and `removeExpired` with `removeExpiredDirectory`. -/
inductive RetentionOperation where
  | save (entry : ArtifactIndexEntry)
  | delete (id : String)
  | markRollbackFailed (snapshotId : String)
  | releaseRollbackEvidence (snapshotId : String) (now : Int)
  | cleanup (kind : ArtifactKind) (now : Int)

/-- How far an operation is. -/
inductive RetentionProgress where
  | started (operation : RetentionOperation)
  | deleting (id : String)
  | removing (cleanup : Cleanup) (left : List ArtifactIndexEntry)
  | unlinking (cleanup : Cleanup) (id : String) (left : List ArtifactIndexEntry)
  | changing (change : IndexChange)
  | loaded (change : IndexChange) (entries : List ArtifactIndexEntry)
  | finished

/-- The cleanup that an operation is, once it has read its entries and until it has written the
index. -/
def RetentionProgress.cleanup? : RetentionProgress → Option Cleanup
  | .removing cleanup _ | .unlinking cleanup _ _ | .changing (.removeExpired cleanup)
  | .loaded (.removeExpired cleanup) _ => some cleanup
  | _ => none

/-- The entries that a cleanup has read and is about to filter. -/
def RetentionProgress.filtering? : RetentionProgress → Option (List ArtifactIndexEntry)
  | .loaded (.removeExpired _) entries => some entries
  | _ => none

/-- What a step of a cleanup removes: a file, with the expiry in its header, or an entry. -/
inductive CleanupRemoval where
  | file (cleanup : Cleanup) (id : String) (expiresAt : Int)
  | entry (cleanup : Cleanup) (entry : ArtifactIndexEntry)

/-- A directory with the operations issued on it. Of an encrypted file only the expiry in its header
matters. -/
structure RetentionRequests where
  directory : ArtifactDirectory Int := {}
  requests : List RetentionProgress := []

/-- What happens next: an operation is issued, or one of those issued does its next step. -/
inductive RetentionAction where
  | issue (operation : RetentionOperation)
  | advance (request : Nat)

namespace RetentionRequests

variable (index : List ArtifactIndexEntry)

def snapshotListed (snapshotId : String) : Bool :=
  index.any fun entry => entry.id = snapshotId && entry.kind = .snapshot

/-- The next step of an operation. -/
def perform (directory : ArtifactDirectory Int) :
    RetentionProgress → ArtifactDirectory Int × RetentionProgress
  | .started (.save entry) =>
    (directory.withFile entry.id entry.expiresAt, .changing (.save entry))
  | .started (.delete id) =>
    (directory, if (directory.file id).isSome then .deleting id else .finished)
  | .started (.markRollbackFailed snapshotId) =>
    (directory, if snapshotListed directory.index snapshotId
      then .changing (.markRollbackFailed snapshotId) else .finished)
  | .started (.releaseRollbackEvidence snapshotId now) =>
    (directory, if snapshotListed directory.index snapshotId
      then .changing (.releaseRollbackEvidence snapshotId now) else .finished)
  | .started (.cleanup kind now) =>
    let cleanup := Cleanup.scan directory.index kind now
    (directory, .removing cleanup cleanup.expired)
  | .deleting id =>
    -- the unlinking of a file that has gone since it was looked at fails
    if (directory.file id).isSome then (directory.withoutFile id, .changing (.delete id))
    else (directory, .finished)
  | .removing cleanup (entry :: left) =>
    (directory, if (directory.file entry.id).isSome then .unlinking cleanup entry.id left
      else .removing cleanup left)
  | .removing cleanup [] =>
    (directory, if cleanup.expired.isEmpty then .finished else .changing (.removeExpired cleanup))
  | .unlinking cleanup id left =>
    if (directory.file id).isSome then (directory.withoutFile id, .removing cleanup left)
    else (directory, .finished)
  | .changing change => (directory, .loaded change directory.index)
  | .loaded change entries => (directory.withIndex (change.apply entries), .finished)
  | .finished => (directory, .finished)

/-- What the next step of an operation removes as a cleanup. -/
def removals (directory : ArtifactDirectory Int) : RetentionProgress → List CleanupRemoval
  | .unlinking cleanup id _ =>
    ((directory.file id).map (CleanupRemoval.file cleanup id)).toList
  | .loaded (.removeExpired cleanup) entries =>
    (directory.index.filter fun entry =>
      entry ∉ (IndexChange.removeExpired cleanup).apply entries).map (CleanupRemoval.entry cleanup)
  | _ => []

variable (store : RetentionRequests)

/-- One step, with what it removes as a cleanup. -/
def step : RetentionAction → RetentionRequests × List CleanupRemoval
  | .issue operation => ({ store with requests := store.requests ++ [.started operation] }, [])
  | .advance request =>
    match store.requests[request]? with
    | none => (store, [])
    | some progress =>
      let (directory, next) := perform store.directory progress
      ({ directory, requests := store.requests.set request next },
        removals store.directory progress)

/-- What a removal finds is expired and not kept as evidence: the file itself and every entry of its
identifier, or the entry. -/
def Rightful : CleanupRemoval → Prop
  | .file cleanup id expiresAt =>
    expiresAt ≤ cleanup.now ∧ ∀ entry ∈ index, entry.id = id → cleanup.Takes entry
  | .entry cleanup entry => cleanup.Takes entry

instance (index : List ArtifactIndexEntry) :
    (removal : CleanupRemoval) → Decidable (Rightful index removal)
  | .file _ _ _ => inferInstanceAs (Decidable (_ ∧ _))
  | .entry cleanup entry => inferInstanceAs (Decidable (cleanup.Takes entry))

def RemovesExpired (action : RetentionAction) : Prop :=
  ∀ removal ∈ (store.step action).2, Rightful store.directory.index removal

instance (store : RetentionRequests) (action : RetentionAction) :
    Decidable (store.RemovesExpired action) :=
  inferInstanceAs (Decidable (∀ removal ∈ _, _))

/-- The next step of an operation leaves a cleanup what it went by: it gives none of its
identifiers a file with a later expiry or an entry that the cleanup has not read, and it gives the
index no entry that is missing from what the cleanup is about to filter. -/
def Spares (progress other : RetentionProgress) : Prop :=
  match progress with
  | .started (.save entry) =>
    ∀ cleanup ∈ other.cleanup?, entry.id ∈ cleanup.ids → entry.expiresAt ≤ cleanup.now
  | .loaded change entries =>
    (∀ cleanup ∈ other.cleanup?, ∀ entry ∈ change.apply entries,
      entry.id ∈ cleanup.ids → entry ∈ cleanup.expired) ∧
    ∀ current ∈ other.filtering?, ∀ entry ∈ change.apply entries, entry ∈ current
  | _ => True

/-- A cleanup that reads its entries finds no file of theirs that was written with a later
expiry. -/
def ReadsOwnFiles (directory : ArtifactDirectory Int) : RetentionProgress → Prop
  | .started (.cleanup kind now) =>
    ∀ file ∈ directory.files, file.1 ∈ (Cleanup.scan directory.index kind now).ids → file.2 ≤ now
  | _ => True

/-- The next step of an operation spares every other one, and reads the files of its entries. -/
def Undisturbed : RetentionAction → Prop
  | .issue _ => True
  | .advance request => ∀ progress ∈ store.requests[request]?,
    ReadsOwnFiles store.directory progress ∧
      ∀ other ∈ store.requests.eraseIdx request, Spares progress other

instance : (progress other : RetentionProgress) → Decidable (Spares progress other)
  | .started (.save _), _ => inferInstanceAs (Decidable (∀ cleanup ∈ _, _))
  | .loaded _ _, _ => inferInstanceAs (Decidable (_ ∧ _))
  | .started (.delete _), _ | .started (.markRollbackFailed _), _
  | .started (.releaseRollbackEvidence _ _), _ | .started (.cleanup _ _), _ | .deleting _, _
  | .removing _ _, _ | .unlinking _ _ _, _ | .changing _, _ | .finished, _ => .isTrue trivial

instance (directory : ArtifactDirectory Int) :
    (progress : RetentionProgress) → Decidable (ReadsOwnFiles directory progress)
  | .started (.cleanup _ _) => inferInstanceAs (Decidable (∀ file ∈ _, _))
  | .started (.save _) | .started (.delete _) | .started (.markRollbackFailed _)
  | .started (.releaseRollbackEvidence _ _) | .deleting _ | .removing _ _ | .unlinking _ _ _
  | .changing _ | .loaded _ _ | .finished => .isTrue trivial

instance (store : RetentionRequests) :
    (action : RetentionAction) → Decidable (store.Undisturbed action)
  | .issue _ => .isTrue trivial
  | .advance _ => inferInstanceAs (Decidable (∀ progress ∈ _, _))

end RetentionRequests

/-! ## What a cleanup can go by -/

namespace Cleanup

/-- What a cleanup has read as expired still is: its entries are, they are the only ones of their
identifiers, and so are the files. -/
structure Holds (cleanup : Cleanup) (directory : ArtifactDirectory Int) : Prop where
  takes : ∀ entry ∈ cleanup.expired, cleanup.Takes entry
  entries : ∀ entry ∈ directory.index, entry.id ∈ cleanup.ids → entry ∈ cleanup.expired
  files : ∀ file ∈ directory.files, file.1 ∈ cleanup.ids → file.2 ≤ cleanup.now

variable {directory : ArtifactDirectory Int} {cleanup : Cleanup}

theorem Holds.withoutFile (holds : cleanup.Holds directory) (id : String) :
    cleanup.Holds (directory.withoutFile id) where
  takes := holds.takes
  entries := holds.entries
  files := by
    intro file member own
    exact holds.files file (mem_filter.mp member).1 own

/-- A file that is written leaves a cleanup what it goes by, when it has expired too if it is one of
the cleanup's. -/
theorem Holds.withFile (holds : cleanup.Holds directory) {id : String} {expiresAt : Int}
    (spared : id ∈ cleanup.ids → expiresAt ≤ cleanup.now) :
    cleanup.Holds (directory.withFile id expiresAt) where
  takes := holds.takes
  entries := holds.entries
  files := by
    intro file member own
    rcases List.mem_append.mp member with earlier | written
    · exact holds.files file (mem_filter.mp earlier).1 own
    · obtain rfl : file = (id, expiresAt) := mem_singleton.mp written
      exact spared own

theorem Holds.withIndex (holds : cleanup.Holds directory) {index : List ArtifactIndexEntry}
    (spared : ∀ entry ∈ index, entry.id ∈ cleanup.ids → entry ∈ cleanup.expired) :
    cleanup.Holds (directory.withIndex index) where
  takes := holds.takes
  entries := spared
  files := holds.files

/-- A cleanup reads entries that it can go by, in an index without two entries of an identifier. -/
theorem scan_holds {kind : ArtifactKind} {now : Int}
    (distinct : (directory.index.map ArtifactIndexEntry.id).Nodup)
    (files : ∀ file ∈ directory.files, file.1 ∈ (scan directory.index kind now).ids → file.2 ≤ now) :
    (scan directory.index kind now).Holds directory where
  takes := by
    intro entry member
    have taken := (mem_filter.mp member).2
    exact Bool.and_eq_true_iff.mp taken
  entries := by
    intro entry member own
    obtain ⟨read, taken, same⟩ := mem_map.mp own
    have first : read ∈ directory.index := (mem_filter.mp taken).1
    have one : read = entry := List.inj_on_of_nodup_map distinct first member same
    rw [← one]
    exact taken
  files := files

end Cleanup

/-- A change of an index without two entries of an identifier leaves one. -/
theorem IndexChange.nodup_apply {entries : List ArtifactIndexEntry}
    (distinct : (entries.map ArtifactIndexEntry.id).Nodup) (change : IndexChange) :
    ((change.apply entries).map ArtifactIndexEntry.id).Nodup := by
  have filtered (keeps : ArtifactIndexEntry → Bool) :
      ((entries.filter keeps).map ArtifactIndexEntry.id).Nodup :=
    distinct.sublist (List.filter_sublist.map _)
  -- the changes of a snapshot's retention keep the identifiers
  have mapped (update : ArtifactIndexEntry → ArtifactIndexEntry)
      (same : ∀ entry, (update entry).id = entry.id) :
      ((entries.map update).map ArtifactIndexEntry.id).Nodup := by
    have ids : (entries.map update).map ArtifactIndexEntry.id =
        entries.map ArtifactIndexEntry.id := by
      rw [List.map_map]
      exact List.map_congr_left fun entry _ => same entry
    rw [ids]
    exact distinct
  cases change with
  | save entry =>
    have apart : ∀ id ∈ (entries.filter fun other => other.id ≠ entry.id).map
        ArtifactIndexEntry.id, id ≠ entry.id := by
      intro id member
      obtain ⟨other, kept, rfl⟩ := mem_map.mp member
      exact of_decide_eq_true (mem_filter.mp kept).2
    show List.Nodup (List.map _ (_ ++ [entry]))
    rw [List.map_append, List.nodup_append]
    refine ⟨filtered _, List.nodup_singleton _, fun id member other own => ?_⟩
    rw [mem_singleton.mp own]
    exact apart id member
  | delete id => exact filtered _
  | markRollbackFailed snapshotId =>
    apply mapped
    intro entry
    split
    · rfl
    · rfl
  | releaseRollbackEvidence snapshotId now =>
    apply mapped
    intro entry
    split
    · rfl
    · rfl
  | removeExpired cleanup => exact filtered _

namespace RetentionRequests

/-- An operation can go by what it has read: a cleanup by its entries, which it works off and which
are in the index it is about to filter, and every operation by distinct identifiers. -/
def Consistent (directory : ArtifactDirectory Int) : RetentionProgress → Prop
  | .removing cleanup left => cleanup.Holds directory ∧ left ⊆ cleanup.expired
  | .unlinking cleanup id left =>
    cleanup.Holds directory ∧ id ∈ cleanup.ids ∧ left ⊆ cleanup.expired
  | .changing (.removeExpired cleanup) => cleanup.Holds directory
  | .loaded change entries =>
    (entries.map ArtifactIndexEntry.id).Nodup ∧
      ∀ cleanup, change = .removeExpired cleanup →
        cleanup.Holds directory ∧ directory.index ⊆ entries
  | _ => True

variable {directory : ArtifactDirectory Int} {progress : RetentionProgress}

/-- What a cleanup goes by carries an operation over to another directory. -/
theorem Consistent.frame {next : ArtifactDirectory Int} (consistent : Consistent directory progress)
    (holds : ∀ cleanup ∈ progress.cleanup?, cleanup.Holds directory → cleanup.Holds next)
    (index : ∀ current ∈ progress.filtering?, directory.index ⊆ current → next.index ⊆ current) :
    Consistent next progress := by
  cases progress with
  | started operation => trivial
  | deleting id => trivial
  | removing cleanup left => exact ⟨holds cleanup rfl consistent.1, consistent.2⟩
  | unlinking cleanup id left => exact ⟨holds cleanup rfl consistent.1, consistent.2⟩
  | changing change =>
    cases change with
    | removeExpired cleanup => exact holds cleanup rfl consistent
    | _ => trivial
  | loaded change entries =>
    refine ⟨consistent.1, ?_⟩
    rintro cleanup rfl
    obtain ⟨held, read⟩ := consistent.2 cleanup rfl
    exact ⟨holds cleanup rfl held, index entries rfl read⟩
  | finished => trivial

/-! ## Each step -/

/-- What a step does to the directory: a save writes its file, the write of a change the index, and
every other step unlinks a file at most. -/
theorem perform_directory (directory : ArtifactDirectory Int) (progress : RetentionProgress) :
    (∃ entry, progress = .started (.save entry) ∧
        (perform directory progress).1 = directory.withFile entry.id entry.expiresAt) ∨
      (∃ change entries, progress = .loaded change entries ∧
        (perform directory progress).1 = directory.withIndex (change.apply entries)) ∨
      (∃ id, (perform directory progress).1 = directory.withoutFile id) ∨
      (perform directory progress).1 = directory := by
  cases progress with
  | started operation =>
    cases operation with
    | save entry => exact .inl ⟨entry, rfl, rfl⟩
    | _ => exact .inr (.inr (.inr rfl))
  | deleting id =>
    by_cases present : (directory.file id).isSome
    · exact .inr (.inr (.inl ⟨id, by simp [perform, present]⟩))
    · exact .inr (.inr (.inr (by simp [perform, present])))
  | removing cleanup left =>
    cases left with
    | nil => exact .inr (.inr (.inr rfl))
    | cons entry left => exact .inr (.inr (.inr rfl))
  | unlinking cleanup id left =>
    by_cases present : (directory.file id).isSome
    · exact .inr (.inr (.inl ⟨id, by simp [perform, present]⟩))
    · exact .inr (.inr (.inr (by simp [perform, present])))
  | changing change => exact .inr (.inr (.inr rfl))
  | loaded change entries => exact .inr (.inl ⟨change, entries, rfl, rfl⟩)
  | finished => exact .inr (.inr (.inr rfl))

/-- A step that spares an operation leaves it able to go by what it has read. -/
theorem Consistent.spared {other : RetentionProgress} (consistent : Consistent directory other)
    (spares : Spares progress other) : Consistent (perform directory progress).1 other := by
  rcases perform_directory directory progress with
    ⟨entry, rfl, next⟩ | ⟨change, entries, rfl, next⟩ | ⟨id, next⟩ | next
  · rw [next]
    have written : ∀ cleanup ∈ other.cleanup?, cleanup.Holds directory →
        cleanup.Holds (directory.withFile entry.id entry.expiresAt) :=
      fun cleanup running holds => holds.withFile (spares cleanup running)
    exact consistent.frame written fun _ _ index => index
  · rw [next]
    have written : ∀ cleanup ∈ other.cleanup?, cleanup.Holds directory →
        cleanup.Holds (directory.withIndex (change.apply entries)) :=
      fun cleanup running holds => holds.withIndex (spares.1 cleanup running)
    exact consistent.frame written fun current loaded _ => spares.2 current loaded
  · rw [next]
    exact consistent.frame (fun _ _ holds => holds.withoutFile id) fun _ _ index => index
  · rw [next]
    exact consistent

/-- An operation that takes its next step can go by what it has read then. -/
theorem consistent_perform (distinct : (directory.index.map ArtifactIndexEntry.id).Nodup)
    (consistent : Consistent directory progress) (files : ReadsOwnFiles directory progress) :
    Consistent (perform directory progress).1 (perform directory progress).2 := by
  cases progress with
  | started operation =>
    cases operation with
    | save entry => trivial
    | delete id =>
      dsimp only [perform]
      split
      · trivial
      · trivial
    | markRollbackFailed snapshotId =>
      dsimp only [perform]
      split
      · trivial
      · trivial
    | releaseRollbackEvidence snapshotId now =>
      dsimp only [perform]
      split
      · trivial
      · trivial
    | cleanup kind now =>
      have holds := Cleanup.scan_holds distinct files
      exact ⟨holds, List.Subset.refl _⟩
  | deleting id =>
    dsimp only [perform]
    split
    · trivial
    · trivial
  | removing cleanup left =>
    obtain ⟨holds, subset⟩ := consistent
    cases left with
    | nil =>
      dsimp only [perform]
      split
      · trivial
      · exact holds
    | cons entry left =>
      have first : entry ∈ cleanup.expired := subset List.mem_cons_self
      have others : left ⊆ cleanup.expired := (List.cons_subset.mp subset).2
      dsimp only [perform]
      split
      · exact ⟨holds, List.mem_map_of_mem first, others⟩
      · exact ⟨holds, others⟩
  | unlinking cleanup id left =>
    obtain ⟨holds, -, subset⟩ := consistent
    dsimp only [perform]
    split
    · exact ⟨holds.withoutFile id, subset⟩
    · trivial
  | changing change =>
    refine ⟨distinct, ?_⟩
    rintro cleanup rfl
    exact ⟨consistent, List.Subset.refl _⟩
  | loaded change entries => trivial
  | finished => trivial

/-- A step leaves an index without two entries of an identifier. -/
theorem nodup_perform (distinct : (directory.index.map ArtifactIndexEntry.id).Nodup)
    (consistent : Consistent directory progress) :
    ((perform directory progress).1.index.map ArtifactIndexEntry.id).Nodup := by
  rcases perform_directory directory progress with
    ⟨entry, rfl, next⟩ | ⟨change, entries, rfl, next⟩ | ⟨id, next⟩ | next
  · rw [next]
    exact distinct
  · rw [next]
    exact change.nodup_apply consistent.1
  · rw [next]
    exact distinct
  · rw [next]
    exact distinct

/-- What an operation that can go by what it has read removes as a cleanup has expired and is not
kept as evidence. -/
theorem rightful_of_consistent (consistent : Consistent directory progress) :
    ∀ removal ∈ removals directory progress, Rightful directory.index removal := by
  intro removal member
  cases progress with
  | unlinking cleanup id left =>
    obtain ⟨holds, own, -⟩ := consistent
    obtain ⟨expiresAt, found, rfl⟩ := Option.map_eq_some_iff.mp (Option.mem_toList.mp member)
    obtain ⟨file, there, rfl⟩ := Option.map_eq_some_iff.mp found
    have own' := List.find?_some there
    have same : file.1 = id := of_decide_eq_true own'
    refine ⟨holds.files file (List.mem_of_find?_eq_some there) (by rw [same]; exact own), ?_⟩
    rintro entry listed rfl
    exact holds.takes entry (holds.entries entry listed own)
  | loaded change entries =>
    cases change with
    | removeExpired cleanup =>
      obtain ⟨holds, read⟩ := consistent.2 cleanup rfl
      obtain ⟨entry, dropped, rfl⟩ := mem_map.mp member
      obtain ⟨listed, gone⟩ := mem_filter.mp dropped
      -- the entry was read, so it is dropped for its identifier
      have own : entry.id ∈ cleanup.ids := by
        by_contra other
        exact of_decide_eq_true gone
          (mem_filter.mpr ⟨read listed, decide_eq_true other⟩)
      exact holds.takes entry (holds.entries entry listed own)
    | _ => cases member
  | _ => cases member

/-! ## Runs -/

/-- The index lists one entry of an identifier, and every operation can go by what it has read. -/
def Sound (store : RetentionRequests) : Prop :=
  (store.directory.index.map ArtifactIndexEntry.id).Nodup ∧
    ∀ (request : Nat) (progress : RetentionProgress), store.requests[request]? = some progress →
      Consistent store.directory progress

variable {store : RetentionRequests} {action : RetentionAction}

/-- An undisturbed step keeps every operation able to go by what it has read. -/
theorem sound_step (sound : store.Sound) (undisturbed : store.Undisturbed action) :
    (store.step action).1.Sound := by
  obtain ⟨distinct, consistent⟩ := sound
  cases action with
  | issue operation =>
    refine ⟨distinct, fun request progress found => ?_⟩
    rcases List.mem_append.mp (List.mem_of_getElem? found) with earlier | issued
    · obtain ⟨number, there⟩ := List.mem_iff_getElem?.mp earlier
      exact consistent number progress there
    · rw [mem_singleton.mp issued]
      trivial
  | advance request =>
    cases found : store.requests[request]? with
    | none =>
      have same : store.step (.advance request) = (store, []) := by
        rw [step, found]
      rw [same]
      exact ⟨distinct, consistent⟩
    | some progress =>
      obtain ⟨files, spares⟩ := undisturbed progress found
      have own := consistent request progress found
      have next : (store.step (.advance request)).1 =
          { directory := (perform store.directory progress).1
            requests := store.requests.set request (perform store.directory progress).2 } := by
        rw [step, found]
      rw [next]
      refine ⟨nodup_perform distinct own, fun other running there => ?_⟩
      rw [List.getElem?_set] at there
      split at there
      · split at there
        · obtain rfl := Option.some.inj there
          exact consistent_perform distinct own files
        · cases there
      · rename_i apart
        exact (consistent other running there).spared
          (spares running (List.mem_eraseIdx_iff_getElem?.mpr
            ⟨other, fun same => apart same.symm, there⟩))

/-- A step of operations that can go by what they have read removes as a cleanup only what is
expired. -/
theorem removesExpired_of_sound (sound : store.Sound) : store.RemovesExpired action := by
  intro removal member
  cases action with
  | issue operation => cases member
  | advance request =>
    cases found : store.requests[request]? with
    | none =>
      rw [step, found] at member
      cases member
    | some progress =>
      rw [step, found] at member
      exact rightful_of_consistent (sound.2 request progress found) removal member

/-- In every run of saves, deletions, retention changes and cleanups whose steps spare the cleanups
under way, and whose cleanups read the files of their entries, a cleanup removes at each step only
what is expired and not kept as evidence. -/
theorem removes_expired (actions : List RetentionAction)
    (undisturbed : Machine.Along step Undisturbed {} actions) :
    Machine.Along step RemovesExpired {} actions := by
  have first : Sound {} := ⟨List.nodup_nil, by simp⟩
  have kept (store : RetentionRequests) (action : RetentionAction) (sound : store.Sound)
      (spared : store.Undisturbed action) : (store.step action).1.Sound :=
    sound_step sound spared
  have each (store : RetentionRequests) (action : RetentionAction) (sound : store.Sound) :
      store.RemovesExpired action :=
    removesExpired_of_sound sound
  exact Machine.along_of_kept kept each first undisturbed

/-- An entry of a draft that is kept for a day from an instant. -/
def dayDraft (id : String) (now : Int) : ArtifactIndexEntry :=
  { id, kind := .draft, changeId := id, appId := "app", catalogVersion := "1",
    manifestVersion := "1", createdAt := now, expiresAt := now + 86400000, retention := .normal }

/-- A draft expires and is removed while another one is saved. -/
def quietCleanup : List RetentionAction :=
  [.issue (.save (dayDraft "a" 0)), .advance 0, .advance 0, .advance 0,
    .issue (.cleanup .draft 100000000), .advance 1, .issue (.save (dayDraft "b" 100000000)),
    .advance 2, .advance 2, .advance 2, .advance 1, .advance 1, .advance 1, .advance 1, .advance 1]

/-- A cleanup removes a draft that has expired, with its entry, while another draft is saved. -/
theorem removes_expired_quietCleanup :
    Machine.Along step RemovesExpired {} quietCleanup ∧
      (Machine.after step {} quietCleanup).directory.index = [dayDraft "b" 100000000] :=
  ⟨removes_expired quietCleanup (by decide +kernel), by decide +kernel⟩

/-- A draft is validated again after a cleanup has read it as expired and before the cleanup unlinks
its file. -/
def renewedDraft : List RetentionAction :=
  [.issue (.save (dayDraft "a" 0)), .advance 0, .advance 0, .advance 0,
    .issue (.cleanup .draft 100000000), .advance 1, .issue (.save (dayDraft "a" 100000000)),
    .advance 2, .advance 2, .advance 2, .advance 1, .advance 1, .advance 1, .advance 1, .advance 1]

/-- A cleanup removes the file and the entry of a draft that was validated again at the cleanup's
own instant, and would have been kept for another day. -/
theorem renewed_draft_removed :
    ¬ Machine.Along step RemovesExpired {} renewedDraft ∧
      (Machine.after step {} renewedDraft).directory = {} := by
  decide +kernel

end RetentionRequests

end NancyMan.Agent
