import NancyMan.Agent.ArtifactStorage
import NancyMan.Lib.Machine

/-!
# Crashes between an artifact and its index

A write puts an encrypted file in place and then updates the index, a deletion unlinks the file and
then updates the index, and a crash may come between any two of these steps. `recovered_iff` says which
crashes of a run leave a directory from which readers, a retry and the cleanup recover: a temporary
file and a file without an entry are never cleaned up, and a deletion that has lost its file answers
that there is nothing to delete and leaves the entry.
-/
namespace NancyMan.Agent

open IndexUpdate
open List (filter_filter mem_append mem_append_right mem_cons mem_filter mem_map mem_singleton)

/-- What `writeValue` is given of an artifact. -/
structure ArtifactWriteInput where
  changeId : String
  appId : String
  catalogVersion : String
  manifestVersion : String
  now : Int
  ttlMs : Int
deriving DecidableEq, Repr

/-- The entry of a written artifact. -/
def entryFor (kind : ArtifactKind) (input : ArtifactWriteInput) : ArtifactIndexEntry :=
  { id := input.changeId
    kind
    changeId := input.changeId
    appId := input.appId
    catalogVersion := input.catalogVersion
    manifestVersion := input.manifestVersion
    createdAt := input.now
    expiresAt := input.now + input.ttlMs
    retention := .normal }

/-- A step of an operation that is on the disk at once or not at all. -/
inductive DiskStep (β : Type) where
  | createTemporary (id : String) (artifact : β)
  | renameTemporary (id : String) (artifact : β)
  | unlink (id : String)
  | renameIndex (entries : List ArtifactIndexEntry)

/-- An operation of a process that may crash. -/
inductive ArtifactCommand (β : Type) where
  | write (input : ArtifactWriteInput) (artifact : β)
  | delete (id : String)
  | cleanup (now : Int)

/-- Why reading an artifact fails. -/
inductive ArtifactReadError where
  | draftCorrupt
  | artifactNotFound
  | envelope
deriving DecidableEq, Repr

namespace ArtifactDirectory

variable {β ν : Type} [DecidableEq β]

/-- A step on the disk. -/
def diskStep (directory : ArtifactDirectory β) : DiskStep β → ArtifactDirectory β
  | .createTemporary id artifact =>
    { directory with temporaries := directory.temporaries ++ [(id, artifact)] }
  | .renameTemporary id artifact =>
    { directory.withFile id artifact with temporaries := directory.temporaries.erase (id, artifact) }
  | .unlink id => directory.withoutFile id
  | .renameIndex entries => directory.withIndex entries

/-- Steps on the disk, in order. -/
def diskSteps (directory : ArtifactDirectory β) (steps : List (DiskStep β)) : ArtifactDirectory β :=
  steps.foldl diskStep directory

/-- The steps of `writeValue`. -/
def writeValue (directory : ArtifactDirectory β) (entry : ArtifactIndexEntry) (artifact : β) :
    List (DiskStep β) :=
  [.createTemporary entry.id artifact, .renameTemporary entry.id artifact,
    .renameIndex (IndexUpdate.apply directory.index (.save entry))]

/-- The steps of `deleteValue`: without the file there are none. -/
def deleteValue (directory : ArtifactDirectory β) (id : String) : List (DiskStep β) :=
  if (directory.file id).isSome then
    [.unlink id, .renameIndex (IndexUpdate.apply directory.index (.remove [id]))]
  else []

/-- The steps of `removeExpiredDirectory`. -/
def removeExpiredDirectory (kind : ArtifactKind) (directory : ArtifactDirectory β) (now : Int) :
    List (DiskStep β) :=
  let ids := directory.expiredIds kind now
  if ids.isEmpty then []
  else ids.map .unlink ++ [.renameIndex (IndexUpdate.apply directory.index (.remove ids))]

/-- The steps of an operation. -/
def steps (kind : ArtifactKind) (directory : ArtifactDirectory β) :
    ArtifactCommand β → List (DiskStep β)
  | .write input artifact => directory.writeValue (entryFor kind input) artifact
  | .delete id => directory.deleteValue id
  | .cleanup now => directory.removeExpiredDirectory kind now

/-- What a crash after some steps of an operation leaves. -/
def crashed (kind : ArtifactKind) (directory : ArtifactDirectory β) (command : ArtifactCommand β)
    (done : Nat) : ArtifactDirectory β :=
  directory.diskSteps ((directory.steps kind command).take done)

/-- What a whole operation leaves. -/
def performed (kind : ArtifactKind) (directory : ArtifactDirectory β)
    (command : ArtifactCommand β) : ArtifactDirectory β :=
  directory.diskSteps (directory.steps kind command)

/-- `readValue`, with what decrypting and decoding an artifact for its entry answers. -/
def readValue (decrypt : β → ArtifactIndexEntry → Int → Option ν) (kind : ArtifactKind)
    (directory : ArtifactDirectory β) (id : String) (now : Int) :
    Except ArtifactReadError (Option ν) :=
  match directory.index.find? fun entry => entry.id = id with
  | none => if (directory.file id).isSome then .error .draftCorrupt else .ok none
  | some entry =>
    if entry.kind ≠ kind ∨ entry.isExpired now then .ok none
    else
      match directory.file id with
      | none => .error .artifactNotFound
      | some artifact =>
        match decrypt artifact entry now with
        | none => .error .envelope
        | some value => .ok (some value)

def encrypted (directory : ArtifactDirectory β) : List (String × β) :=
  directory.files ++ directory.temporaries

/-- Cleanup runs at some instants. -/
def cleanups (kind : ArtifactKind) (directory : ArtifactDirectory β) (runs : List Int) :
    ArtifactDirectory β :=
  runs.foldl (fun directory now => directory.performed kind (.cleanup now)) directory

/-- The identifiers that an operation is about. -/
def affected (kind : ArtifactKind) (directory : ArtifactDirectory β) :
    ArtifactCommand β → List String
  | .write input _ => [input.changeId]
  | .delete id => [id]
  | .cleanup now => directory.expiredIds kind now

/-- The retried operation leaves the files and the index that it would have left. -/
def Retried (kind : ArtifactKind) (directory : ArtifactDirectory β) (command : ArtifactCommand β)
    (after : ArtifactDirectory β) : Prop :=
  (after.performed kind command).files = (directory.performed kind command).files ∧
    (after.performed kind command).index = (directory.performed kind command).index

/-- What has to be left after a crash: other artifacts read as before, the operation can be retried,
and from some instant on a cleanup has removed each encrypted file. -/
structure Recovered (kind : ArtifactKind) (directory : ArtifactDirectory β)
    (command : ArtifactCommand β) (after : ArtifactDirectory β) : Prop where
  reads : ∀ {ν : Type} (decrypt : β → ArtifactIndexEntry → Int → Option ν) (id : String) (now : Int),
    id ∉ directory.affected kind command →
      after.readValue decrypt kind id now = directory.readValue decrypt kind id now
  retried : Retried kind directory command after
  cleaned : ∀ file ∈ after.encrypted, ∃ time, ∀ runs : List Int, (∃ now ∈ runs, time ≤ now) →
    file ∉ (after.cleanups kind runs).encrypted

/-- A crash that does no harm: not while a write has a temporary file, between a write and the first
entry of its identifier, or between an unlinked file and its entry. -/
def Harmless (directory : ArtifactDirectory β) : ArtifactCommand β → Nat → Prop
  | .write input _, done =>
    done ≠ 1 ∧ (done = 2 → ∃ entry ∈ directory.index, entry.id = input.changeId)
  | .delete id, done => done = 1 → directory.file id = none
  | .cleanup _, _ => True

/-! ## Other artifacts -/

variable {directory : ArtifactDirectory β}

omit [DecidableEq β] in
/-- Putting a file in place leaves the others. -/
theorem file_withFile {id other : String} (artifact : β) (apart : other ≠ id) :
    (directory.withFile id artifact).file other = directory.file other := by
  have last : [(id, artifact)].find? (fun file => file.1 = other) = none := by
    simp [Ne.symm apart]
  unfold file withFile
  rw [List.find?_append, last, Option.or_none, List.find?_filter]
  congr 2
  funext file
  by_cases same : file.1 = other
  · simp [same, apart]
  · simp [same]

omit [DecidableEq β] in
/-- Unlinking a file leaves the others. -/
theorem file_withoutFile {id other : String} (apart : other ≠ id) :
    (directory.withoutFile id).file other = directory.file other := by
  unfold file withoutFile
  rw [List.find?_filter]
  congr 2
  funext file
  by_cases same : file.1 = other
  · simp [same, apart]
  · simp [same]

omit [DecidableEq β] in
theorem file_withoutFile_self (directory : ArtifactDirectory β) (id : String) :
    (directory.withoutFile id).file id = none := by
  unfold file withoutFile
  rw [Option.map_eq_none_iff, List.find?_eq_none]
  intro file member
  simpa using (mem_filter.mp member).2

/-- An update leaves the entries of other identifiers. -/
theorem find_apply {entries : List ArtifactIndexEntry} {update : IndexUpdate} {id : String}
    (apart : id ∉ update.ids) :
    (update.apply entries).find? (fun entry => entry.id = id) =
      entries.find? fun entry => entry.id = id := by
  have kept (keeps : ArtifactIndexEntry → Bool) (all : ∀ entry, entry.id = id → keeps entry) :
      (entries.filter keeps).find? (fun entry => entry.id = id) =
        entries.find? fun entry => entry.id = id := by
    rw [List.find?_filter]
    congr 1
    funext entry
    by_cases same : entry.id = id
    · simp [same, all entry same]
    · simp [same]
  cases update with
  | save saved =>
    have other : id ≠ saved.id := fun same => apart (same ▸ .head _)
    have last : [saved].find? (fun entry => entry.id = id) = none := by
      simp [Ne.symm other]
    rw [apply, List.find?_append, last, Option.or_none]
    exact kept _ fun entry same => by simp [same, other]
  | remove removed =>
    exact kept _ fun entry same => by simpa [same, ids] using apart

/-- What a directory holds of an identifier is held by another one. -/
def Holds (directory after : ArtifactDirectory β) (id : String) : Prop :=
  (after.index.find? fun entry => entry.id = id) =
      (directory.index.find? fun entry => entry.id = id) ∧
    after.file id = directory.file id

omit [DecidableEq β] in
theorem Holds.readValue {after : ArtifactDirectory β} {id : String}
    (holds : Holds directory after id) (decrypt : β → ArtifactIndexEntry → Int → Option ν)
    (kind : ArtifactKind) (now : Int) :
    after.readValue decrypt kind id now = directory.readValue decrypt kind id now := by
  unfold ArtifactDirectory.readValue
  rw [holds.1, holds.2]

/-- A step leaves an identifier alone. -/
def Spares (directory : ArtifactDirectory β) (id : String) : DiskStep β → Prop
  | .createTemporary _ _ => True
  | .renameTemporary other _ | .unlink other => id ≠ other
  | .renameIndex entries => (entries.find? fun entry => entry.id = id) =
      directory.index.find? fun entry => entry.id = id

/-- Steps that leave an identifier alone leave what is held of it. -/
theorem holds_diskSteps {id : String} {steps : List (DiskStep β)}
    (spares : ∀ step ∈ steps, directory.Spares id step) {after : ArtifactDirectory β}
    (holds : Holds directory after id) : Holds directory (after.diskSteps steps) id := by
  induction steps generalizing after with
  | nil => exact holds
  | cons step rest ih =>
    have first := spares step List.mem_cons_self
    refine ih (fun other member => spares other (.tail _ member)) ?_
    cases step with
    | createTemporary other artifact => exact holds
    | renameTemporary other artifact =>
      exact ⟨holds.1, (file_withFile artifact first).trans holds.2⟩
    | unlink other => exact ⟨holds.1, (file_withoutFile first).trans holds.2⟩
    | renameIndex entries => exact ⟨first, holds.2⟩

omit [DecidableEq β] in
/-- The steps of an operation leave other identifiers alone. -/
theorem spares_steps (kind : ArtifactKind) (directory : ArtifactDirectory β)
    (command : ArtifactCommand β) {id : String} (apart : id ∉ directory.affected kind command) :
    ∀ step ∈ directory.steps kind command, directory.Spares id step := by
  cases command with
  | write input artifact =>
    have other : id ≠ input.changeId := fun same => apart (same ▸ .head _)
    intro step member
    simp only [steps, writeValue, mem_cons, List.not_mem_nil, or_false] at member
    rcases member with rfl | rfl | rfl
    · trivial
    · exact other
    · exact find_apply apart
  | delete removed =>
    have other : id ≠ removed := fun same => apart (same ▸ .head _)
    intro step member
    change step ∈ directory.deleteValue removed at member
    unfold deleteValue at member
    split_ifs at member
    · simp only [mem_cons, List.not_mem_nil, or_false] at member
      rcases member with rfl | rfl
      · exact other
      · exact find_apply apart
    · cases member
  | cleanup now =>
    intro step member
    change step ∈ removeExpiredDirectory kind directory now at member
    unfold removeExpiredDirectory at member
    dsimp only at member
    split_ifs at member
    · cases member
    · rcases mem_append.mp member with unlinked | last
      · obtain ⟨expired, found, rfl⟩ := mem_map.mp unlinked
        exact fun same => apart (same ▸ found)
      · rw [mem_singleton.mp last]
        exact find_apply apart

theorem holds_crashed (kind : ArtifactKind) (directory : ArtifactDirectory β)
    (command : ArtifactCommand β) (done : Nat) {id : String}
    (apart : id ∉ directory.affected kind command) :
    Holds directory (directory.crashed kind command done) id := by
  refine holds_diskSteps (fun step member => ?_) ⟨rfl, rfl⟩
  exact spares_steps kind directory command apart step (List.mem_of_mem_take member)

/-! ## Cleanup runs -/

/-- Files are unlinked one after the other. -/
theorem diskSteps_unlink (directory : ArtifactDirectory β) (ids : List String) :
    directory.diskSteps (ids.map .unlink) =
      { directory with files := directory.files.filter fun file => file.1 ∉ ids } := by
  induction ids generalizing directory with
  | nil => simp [diskSteps]
  | cons id rest ih =>
    show (directory.withoutFile id).diskSteps (rest.map .unlink) = _
    rw [ih, withoutFile]
    congr 1
    rw [filter_filter]
    congr 1
    funext file
    simp [Bool.and_comm]

/-- A cleanup removes the files and the entries of what has expired. -/
theorem performed_cleanup (kind : ArtifactKind) (directory : ArtifactDirectory β) (now : Int) :
    directory.performed kind (.cleanup now) =
      { directory with
        files := directory.files.filter fun file => file.1 ∉ directory.expiredIds kind now
        index := directory.index.filter fun entry => entry.id ∉ directory.expiredIds kind now } := by
  have all := directory.diskSteps_unlink (directory.expiredIds kind now)
  unfold diskSteps at all
  unfold performed steps removeExpiredDirectory
  dsimp only
  split_ifs with none'
  · rw [List.isEmpty_iff.mp none']
    simp [diskSteps]
  · rw [diskSteps, List.foldl_append, all]
    rfl

/-- A file stays where neither it nor an entry of it is found by a cleanup. -/
theorem kept_of_orphan (kind : ArtifactKind) (directory : ArtifactDirectory β) {file : String × β}
    (member : file ∈ directory.files) (orphan : ∀ entry ∈ directory.index, entry.id ≠ file.1)
    (runs : List Int) : file ∈ (directory.cleanups kind runs).encrypted := by
  induction runs generalizing directory with
  | nil => exact List.mem_append_left _ member
  | cons now rest ih =>
    have free : file.1 ∉ directory.expiredIds kind now := by
      intro expired
      obtain ⟨entry, found, same⟩ := mem_map.mp expired
      exact orphan entry (mem_filter.mp found).1 same
    show file ∈ ((directory.performed kind (.cleanup now)).cleanups kind rest).encrypted
    rw [performed_cleanup]
    refine ih _ ?_ ?_
    · exact mem_filter.mpr ⟨member, by simpa using free⟩
    · exact fun entry found => orphan entry (mem_filter.mp found).1

variable {kind : ArtifactKind}

/-- A temporary file stays. -/
theorem kept_of_temporary {file : String × β} (member : file ∈ directory.temporaries)
    (runs : List Int) : file ∈ (directory.cleanups kind runs).encrypted := by
  induction runs generalizing directory with
  | nil => exact mem_append_right _ member
  | cons now rest ih =>
    show file ∈ ((directory.performed kind (.cleanup now)).cleanups kind rest).encrypted
    rw [performed_cleanup]
    exact ih member

/-- Cleanup runs bring no file. -/
theorem gone_cleanups {file : String × β} (gone : file ∉ directory.encrypted) (runs : List Int) :
    file ∉ (directory.cleanups kind runs).encrypted := by
  induction runs generalizing directory with
  | nil => exact gone
  | cons now rest ih =>
    show file ∉ ((directory.performed kind (.cleanup now)).cleanups kind rest).encrypted
    refine ih fun member => gone ?_
    rw [performed_cleanup] at member
    rcases mem_append.mp member with kept | temporary
    · exact List.mem_append_left _ (mem_filter.mp kept).1
    · exact mem_append_right _ temporary

/-- A directory whose files all have an entry, with entries that a cleanup takes and no temporary
files. -/
structure Tidy (kind : ArtifactKind) (directory : ArtifactDirectory β) : Prop where
  temporaries : directory.temporaries = []
  eligible : ∀ entry ∈ directory.index, entry.eligible kind
  covered : ∀ file ∈ directory.files, ∃ entry ∈ directory.index, entry.id = file.1

/-- A file with an entry is gone once the entry has expired and the cleanup has run. -/
theorem gone_of_entry {file : String × β} {entry : ArtifactIndexEntry}
    (none' : directory.temporaries = []) (listed : entry ∈ directory.index)
    (same : entry.id = file.1) (eligible : entry.eligible kind) {runs : List Int}
    (late : ∃ now ∈ runs, entry.expiresAt ≤ now) :
    file ∉ (directory.cleanups kind runs).encrypted := by
  induction runs generalizing directory with
  | nil =>
    obtain ⟨now, member, -⟩ := late
    cases member
  | cons now rest ih =>
    show file ∉ ((directory.performed kind (.cleanup now)).cleanups kind rest).encrypted
    by_cases taken : file.1 ∈ directory.expiredIds kind now
    · refine gone_cleanups (fun member => ?_) rest
      rw [performed_cleanup] at member
      rcases mem_append.mp member with kept | temporary
      · have free := (mem_filter.mp kept).2
        exact absurd taken (by simpa using free)
      · have none'' : file ∈ directory.temporaries := temporary
        rw [none'] at none''
        cases none''
    · have later : ∃ now ∈ rest, entry.expiresAt ≤ now := by
        obtain ⟨instant, member, expired⟩ := late
        rcases mem_cons.mp member with rfl | found
        · refine absurd (mem_map.mpr ⟨entry, mem_filter.mpr ⟨listed, ?_⟩, same⟩) taken
          simp [eligible, ArtifactIndexEntry.isExpired, expired]
        · exact ⟨instant, found, expired⟩
      rw [performed_cleanup]
      refine ih none' (mem_filter.mpr ⟨listed, ?_⟩) later
      rw [same]
      simpa using taken

/-- From a tidy directory each file is cleaned up. -/
theorem Tidy.cleaned (tidy : directory.Tidy kind) :
    ∀ file ∈ directory.encrypted, ∃ time, ∀ runs : List Int, (∃ now ∈ runs, time ≤ now) →
      file ∉ (directory.cleanups kind runs).encrypted := by
  intro file member
  rw [encrypted, tidy.temporaries, List.append_nil] at member
  obtain ⟨entry, listed, same⟩ := tidy.covered file member
  exact ⟨entry.expiresAt, fun runs late =>
    gone_of_entry tidy.temporaries listed same (tidy.eligible entry listed) late⟩

/-! ## A crashed write -/

omit [DecidableEq β] in
theorem withFile_withFile (directory : ArtifactDirectory β) (id : String) (artifact : β) :
    ((directory.withFile id artifact).withFile id artifact).files =
      (directory.withFile id artifact).files := by
  simp [withFile, List.filter_append, filter_filter]

theorem apply_apply (entries : List ArtifactIndexEntry) (update : IndexUpdate) :
    update.apply (update.apply entries) = update.apply entries := by
  cases update with
  | save saved => simp [apply, List.filter_append, filter_filter]
  | remove removed => simp [apply, filter_filter]

/-- A directory after a crash of a write: nothing done, a temporary file, a file without its entry,
or the whole write. -/
theorem crashed_write (kind : ArtifactKind) (directory : ArtifactDirectory β)
    (input : ArtifactWriteInput) (artifact : β) (done : Nat) :
    directory.crashed kind (.write input artifact) done =
      match done with
      | 0 => directory
      | 1 => { directory with
          temporaries := directory.temporaries ++ [(input.changeId, artifact)] }
      | 2 => { directory.withFile input.changeId artifact with
          temporaries := (directory.temporaries ++ [(input.changeId, artifact)]).erase
            (input.changeId, artifact) }
      | _ + 3 => directory.performed kind (.write input artifact) := by
  match done with
  | 0 => rfl
  | 1 => rfl
  | 2 => rfl
  | more + 3 =>
    have whole : (directory.steps kind (.write input artifact)).take (more + 3) =
        directory.steps kind (.write input artifact) := by
      refine List.take_of_length_le ?_
      show 3 ≤ more + 3
      omega
    rw [crashed, whole, performed]

/-- A retried write leaves the file and the entry. -/
theorem retried_write (kind : ArtifactKind) (directory : ArtifactDirectory β)
    (input : ArtifactWriteInput) (artifact : β) (done : Nat) :
    Retried kind directory (.write input artifact)
      (directory.crashed kind (.write input artifact) done) := by
  rw [crashed_write]
  match done with
  | 0 => exact ⟨rfl, rfl⟩
  | 1 => exact ⟨rfl, rfl⟩
  | 2 => exact ⟨withFile_withFile directory input.changeId artifact, rfl⟩
  | more + 3 =>
    exact ⟨withFile_withFile directory input.changeId artifact,
      apply_apply directory.index (.save (entryFor kind input))⟩

omit [DecidableEq β] in
theorem mem_withFile {id : String} {artifact : β} {file : String × β}
    (member : file ∈ (directory.withFile id artifact).files) :
    file.1 = id ∨ (file ∈ directory.files ∧ file.1 ≠ id) := by
  rcases mem_append.mp member with other | new
  · exact .inr ⟨(mem_filter.mp other).1, by simpa using (mem_filter.mp other).2⟩
  · rw [mem_singleton.mp new]
    exact .inl rfl

theorem Tidy.renamed (tidy : directory.Tidy kind) (id : String) (artifact : β) :
    (directory.temporaries ++ [(id, artifact)]).erase (id, artifact) = [] := by
  rw [tidy.temporaries, List.nil_append, List.erase_cons_head]

/-- A tidy directory after a whole write. -/
theorem Tidy.performed_write (tidy : directory.Tidy kind) (input : ArtifactWriteInput)
    (artifact : β) : (directory.performed kind (.write input artifact)).Tidy kind := by
  have own : (entryFor kind input).eligible kind := by
    cases kind <;> simp [entryFor, ArtifactIndexEntry.eligible]
  have index : (directory.performed kind (.write input artifact)).index =
      apply directory.index (.save (entryFor kind input)) := rfl
  refine ⟨tidy.renamed input.changeId artifact, fun entry listed => ?_, fun file member => ?_⟩
  · rw [index] at listed
    rcases mem_apply.mp listed with ⟨before, -⟩ | added
    · exact tidy.eligible entry before
    · rw [mem_singleton.mp added]
      exact own
  · rw [index]
    rcases mem_withFile member with same | ⟨other, apart⟩
    · exact ⟨entryFor kind input, mem_apply.mpr (.inr (.head _)), same.symm⟩
    · obtain ⟨entry, listed, named⟩ := tidy.covered file other
      refine ⟨entry, mem_apply.mpr (.inl ⟨listed, ?_⟩), named⟩
      intro member
      exact apart (named.symm.trans (mem_singleton.mp member))

/-- A tidy directory after a harmless crash of a write. -/
theorem Tidy.write (tidy : directory.Tidy kind) {input : ArtifactWriteInput} {artifact : β}
    {done : Nat} (harmless : directory.Harmless (.write input artifact) done) :
    (directory.crashed kind (.write input artifact) done).Tidy kind := by
  rw [crashed_write]
  match done, harmless with
  | 0, _ => exact tidy
  | 1, harmless => exact absurd rfl harmless.1
  | 2, harmless =>
    refine ⟨tidy.renamed _ _, tidy.eligible, fun file member => ?_⟩
    rcases mem_withFile member with same | ⟨other, -⟩
    · obtain ⟨entry, listed, named⟩ := harmless.2 rfl
      exact ⟨entry, listed, named.trans same.symm⟩
    · exact tidy.covered file other
  | more + 3, _ => exact tidy.performed_write input artifact

/-- After a crash of a write each encrypted file is cleaned up exactly when it was harmless. -/
theorem cleaned_write_iff (tidy : directory.Tidy kind) (input : ArtifactWriteInput) (artifact : β)
    (done : Nat) :
    (∀ file ∈ (directory.crashed kind (.write input artifact) done).encrypted, ∃ time,
      ∀ runs : List Int, (∃ now ∈ runs, time ≤ now) →
        file ∉ ((directory.crashed kind (.write input artifact) done).cleanups kind runs).encrypted) ↔
      directory.Harmless (.write input artifact) done := by
  constructor
  · intro cleaned
    match done, cleaned with
    | 0, _ => exact ⟨by decide, nofun⟩
    | 1, cleaned =>
      have member : (input.changeId, artifact) ∈
          (directory.crashed kind (.write input artifact) 1).temporaries :=
        mem_append_right directory.temporaries (.head _)
      obtain ⟨time, gone⟩ := cleaned _ (mem_append_right _ member)
      have late : ∃ now ∈ [time], time ≤ now := ⟨time, .head _, Int.le_refl _⟩
      exact absurd (kept_of_temporary member [time]) (gone [time] late)
    | 2, cleaned =>
      refine ⟨by decide, fun _ => ?_⟩
      by_contra orphan
      have member : (input.changeId, artifact) ∈
          (directory.crashed kind (.write input artifact) 2).files :=
        mem_append_right (directory.files.filter fun file => file.1 ≠ input.changeId)
          (.head _)
      obtain ⟨time, gone⟩ := cleaned _ (List.mem_append_left _ member)
      have late : ∃ now ∈ [time], time ≤ now := ⟨time, .head _, Int.le_refl _⟩
      refine gone [time] late (kept_of_orphan kind _ member ?_ [time])
      exact fun entry listed same => orphan ⟨entry, listed, same⟩
    | more + 3, _ => exact ⟨by omega, fun same => absurd same (by omega)⟩
  · exact fun harmless => (tidy.write harmless).cleaned

/-! ## A crashed deletion -/

/-- A directory after a crash of a deletion: as it was, without the file, or without file and entry. -/
theorem crashed_delete (kind : ArtifactKind) (directory : ArtifactDirectory β) (id : String)
    (done : Nat) :
    directory.crashed kind (.delete id) done =
      if (directory.file id).isSome then
        match done with
        | 0 => directory
        | 1 => directory.withoutFile id
        | _ + 2 => (directory.withoutFile id).withIndex (apply directory.index (.remove [id]))
      else directory := by
  by_cases present : (directory.file id).isSome
  · have all : directory.steps kind (.delete id) =
        [.unlink id, .renameIndex (apply directory.index (.remove [id]))] :=
      if_pos present
    rw [crashed, all, if_pos present]
    match done with
    | 0 => rfl
    | 1 => rfl
    | more + 2 =>
      rw [List.take_of_length_le (show 2 ≤ more + 2 by omega)]
      rfl
  · have none' : directory.steps kind (.delete id) = [] := if_neg present
    rw [crashed, none', if_neg present, List.take_nil]
    rfl

/-- A whole deletion. -/
theorem performed_delete (kind : ArtifactKind) (directory : ArtifactDirectory β) (id : String) :
    directory.performed kind (.delete id) =
      if (directory.file id).isSome then
        (directory.withoutFile id).withIndex (apply directory.index (.remove [id]))
      else directory := by
  by_cases present : (directory.file id).isSome
  · have all : directory.steps kind (.delete id) =
        [.unlink id, .renameIndex (apply directory.index (.remove [id]))] :=
      if_pos present
    rw [performed, all, if_pos present]
    rfl
  · have none' : directory.steps kind (.delete id) = [] := if_neg present
    rw [performed, none', if_neg present]
    rfl

omit [DecidableEq β] in
theorem Tidy.entry (tidy : directory.Tidy kind) {id : String}
    (present : (directory.file id).isSome) : ∃ entry ∈ directory.index, entry.id = id := by
  rw [file, Option.isSome_map] at present
  obtain ⟨found, here⟩ := Option.isSome_iff_exists.mp present
  have named := List.find?_some (p := fun file : String × β => decide (file.1 = id)) here
  obtain ⟨entry, listed, same⟩ := tidy.covered found (List.mem_of_find?_eq_some here)
  exact ⟨entry, listed, same.trans (by simpa using named)⟩

/-- A retried deletion leaves neither file nor entry exactly when the crash was not between them. -/
theorem retried_delete_iff (tidy : directory.Tidy kind) (id : String) (done : Nat) :
    Retried kind directory (.delete id) (directory.crashed kind (.delete id) done) ↔
      directory.Harmless (.delete id) done := by
  unfold Retried
  by_cases present : (directory.file id).isSome
  · have gone (entries : List ArtifactIndexEntry) :
        (((directory.withoutFile id).withIndex entries).file id).isSome = false := by
      rw [show ((directory.withoutFile id).withIndex entries).file id = _ from
        directory.file_withoutFile_self id]
      rfl
    rw [crashed_delete, if_pos present, performed_delete kind directory, if_pos present]
    match done with
    | 0 =>
      refine iff_of_true ?_ nofun
      rw [performed_delete, if_pos present]
      exact ⟨rfl, rfl⟩
    | 1 =>
      refine iff_of_false ?_ ?_
      · rintro ⟨-, same⟩
        have left : (directory.withoutFile id).performed kind (.delete id) =
            directory.withoutFile id := by
          rw [performed_delete, if_neg]
          rw [file_withoutFile_self]
          exact nofun
        rw [left] at same
        obtain ⟨entry, listed, named⟩ := tidy.entry present
        have kept : entry ∈ apply directory.index (.remove [id]) :=
          (congrArg (entry ∈ ·) same).mp listed
        rcases mem_apply.mp kept with ⟨-, apart⟩ | added
        · exact apart (named ▸ .head _)
        · cases added
      · intro harmless
        rw [harmless rfl] at present
        cases present
    | more + 2 =>
      refine iff_of_true ?_ (fun same => absurd same (by omega))
      rw [performed_delete, gone]
      exact ⟨rfl, rfl⟩
  · have none' : directory.file id = none := Option.not_isSome_iff_eq_none.mp present
    rw [crashed_delete, if_neg present]
    exact iff_of_true ⟨rfl, rfl⟩ fun _ => none'

/-- A tidy directory after a crash of a deletion. -/
theorem Tidy.delete (tidy : directory.Tidy kind) (id : String) (done : Nat) :
    (directory.crashed kind (.delete id) done).Tidy kind := by
  have fewer {file : String × β} (member : file ∈ (directory.withoutFile id).files) :
      file ∈ directory.files ∧ file.1 ≠ id :=
    ⟨(mem_filter.mp member).1, by simpa using (mem_filter.mp member).2⟩
  rw [crashed_delete]
  split_ifs
  · match done with
    | 0 => exact tidy
    | 1 => exact ⟨tidy.temporaries, tidy.eligible,
        fun file member => tidy.covered file (fewer member).1⟩
    | more + 2 =>
      refine ⟨tidy.temporaries, fun entry listed => ?_, fun file member => ?_⟩
      · exact tidy.eligible entry (mem_filter.mp listed).1
      · obtain ⟨other, apart⟩ := fewer member
        obtain ⟨entry, listed, named⟩ := tidy.covered file other
        have kept : entry ∈ apply directory.index (.remove [id]) := by
          refine mem_apply.mpr (.inl ⟨listed, fun removed => ?_⟩)
          exact apart (named.symm.trans (mem_singleton.mp removed))
        exact ⟨entry, kept, named⟩
  · exact tidy

/-! ## A crashed cleanup -/

/-- A cleanup that crashes has unlinked some of the files, or has done everything. -/
theorem crashed_cleanup (kind : ArtifactKind) (directory : ArtifactDirectory β) (now : Int)
    (done : Nat) :
    directory.crashed kind (.cleanup now) done = directory.performed kind (.cleanup now) ∨
      directory.crashed kind (.cleanup now) done = { directory with
        files := directory.files.filter fun file =>
          file.1 ∉ (directory.expiredIds kind now).take done } := by
  by_cases none' : (directory.expiredIds kind now).isEmpty
  · have all : directory.steps kind (.cleanup now) = [] := if_pos none'
    refine .inl ?_
    rw [crashed, performed, all, List.take_nil]
  · have all : directory.steps kind (.cleanup now) =
        (directory.expiredIds kind now).map .unlink ++ [.renameIndex (apply
          directory.index (.remove (directory.expiredIds kind now)))] := if_neg none'
    by_cases within : done ≤ (directory.expiredIds kind now).length
    · refine .inr ?_
      have some : (directory.steps kind (.cleanup now)).take done =
          ((directory.expiredIds kind now).take done).map .unlink := by
        rw [all, List.take_append_of_le_length (by rw [List.length_map]; exact within),
          List.map_take]
      rw [crashed, some, diskSteps_unlink]
    · refine .inl ?_
      have whole : (directory.steps kind (.cleanup now)).take done =
          directory.steps kind (.cleanup now) := by
        refine List.take_of_length_le ?_
        rw [all, List.length_append, List.length_map, List.length_singleton]
        omega
      rw [crashed, whole, performed]

/-- Nothing that a cleanup takes is left by it. -/
theorem expiredIds_performed (kind : ArtifactKind) (directory : ArtifactDirectory β) (now : Int) :
    (directory.performed kind (.cleanup now)).expiredIds kind now = [] := by
  rw [performed_cleanup, expiredIds, List.map_eq_nil_iff, List.filter_eq_nil_iff]
  intro entry listed
  obtain ⟨member, kept⟩ := mem_filter.mp listed
  have free : entry.id ∉ directory.expiredIds kind now := by simpa using kept
  intro taken
  exact free (mem_map.mpr ⟨entry, mem_filter.mpr ⟨member, taken⟩, rfl⟩)

/-- A retried cleanup removes what the first one would have removed. -/
theorem retried_cleanup (kind : ArtifactKind) (directory : ArtifactDirectory β) (now : Int)
    (done : Nat) :
    (directory.crashed kind (.cleanup now) done).performed kind (.cleanup now) =
      directory.performed kind (.cleanup now) := by
  rcases directory.crashed_cleanup kind now done with whole | some
  · have again : ((directory.performed kind (.cleanup now)).steps kind (.cleanup now)) = [] :=
      if_pos (by rw [expiredIds_performed]; rfl)
    rw [whole, performed, again]
    rfl
  · rw [some, performed_cleanup, performed_cleanup]
    have same : expiredIds { directory with files := directory.files.filter fun file =>
        file.1 ∉ (directory.expiredIds kind now).take done } kind now =
          directory.expiredIds kind now := rfl
    rw [same, filter_filter]
    congr 1
    refine List.filter_congr fun file _ => ?_
    have fewer : file.1 ∈ (directory.expiredIds kind now).take done →
        file.1 ∈ directory.expiredIds kind now := List.mem_of_mem_take
    by_cases taken : file.1 ∈ directory.expiredIds kind now
    · simp [taken]
    · have free : file.1 ∉ (directory.expiredIds kind now).take done := fun early =>
        taken (fewer early)
      simp [taken, free]

/-- A tidy directory after a crash of a cleanup. -/
theorem Tidy.cleanup (tidy : directory.Tidy kind) (now : Int) (done : Nat) :
    (directory.crashed kind (.cleanup now) done).Tidy kind := by
  rcases directory.crashed_cleanup kind now done with whole | some
  · rw [whole, performed_cleanup]
    refine ⟨tidy.temporaries, fun entry listed => ?_, fun file member => ?_⟩
    · exact tidy.eligible entry (mem_filter.mp listed).1
    · obtain ⟨present, kept⟩ := mem_filter.mp member
      obtain ⟨entry, listed, named⟩ := tidy.covered file present
      refine ⟨entry, mem_filter.mpr ⟨listed, ?_⟩, named⟩
      rw [named]
      exact kept
  · rw [some]
    exact ⟨tidy.temporaries, tidy.eligible, fun file member =>
      tidy.covered file (mem_filter.mp member).1⟩

/-! ## Runs with crashes -/

/-- A crash of an operation on a tidy directory leaves what it has to exactly when it is
harmless. -/
theorem Tidy.harmless_iff (tidy : directory.Tidy kind) (command : ArtifactCommand β) (done : Nat) :
    Recovered kind directory command (directory.crashed kind command done) ↔
      directory.Harmless command done := by
  have reads {ν : Type} (decrypt : β → ArtifactIndexEntry → Int → Option ν) (id : String)
      (now : Int) (apart : id ∉ directory.affected kind command) :
      (directory.crashed kind command done).readValue decrypt kind id now =
        directory.readValue decrypt kind id now :=
    (directory.holds_crashed kind command done apart).readValue decrypt kind now
  cases command with
  | write input artifact =>
    have retried := directory.retried_write kind input artifact done
    constructor
    · exact fun recovered => (cleaned_write_iff tidy input artifact done).mp recovered.cleaned
    · exact fun harmless =>
        ⟨reads, retried, (cleaned_write_iff tidy input artifact done).mpr harmless⟩
  | delete id =>
    constructor
    · exact fun recovered => (retried_delete_iff tidy id done).mp recovered.retried
    · exact fun harmless =>
        ⟨reads, (retried_delete_iff tidy id done).mpr harmless, (tidy.delete id done).cleaned⟩
  | cleanup now =>
    have retried : Retried kind directory (.cleanup now)
        (directory.crashed kind (.cleanup now) done) := by
      rw [Retried, retried_cleanup]
      exact ⟨rfl, rfl⟩
    exact iff_of_true ⟨reads, retried, (tidy.cleanup now done).cleaned⟩ trivial

/-- One operation, of which a process does some steps before it crashes. -/
def step (kind : ArtifactKind) (directory : ArtifactDirectory β)
    (action : ArtifactCommand β × Nat) : ArtifactDirectory β × Unit :=
  (directory.crashed kind action.1 action.2, ())

/-- In every run of writes, deletions and cleanups that crash anywhere or not at all, what each
of them leaves is recovered from, exactly when every crash is harmless. -/
theorem recovered_iff (kind : ArtifactKind) (actions : List (ArtifactCommand β × Nat)) :
    Machine.Along (step kind) (fun directory action =>
        Recovered kind directory action.1 (directory.step kind action).1) {} actions ↔
      Machine.Along (step kind) (fun directory action => directory.Harmless action.1 action.2) {}
        actions := by
  have kept (directory : ArtifactDirectory β) (action : ArtifactCommand β × Nat)
      (tidy : directory.Tidy kind) (harmless : directory.Harmless action.1 action.2) :
      (directory.step kind action).1.Tidy kind := by
    obtain ⟨command, done⟩ := action
    cases command with
    | write input artifact => exact tidy.write harmless
    | delete id => exact tidy.delete id done
    | cleanup now => exact tidy.cleanup now done
  have agree (directory : ArtifactDirectory β) (action : ArtifactCommand β × Nat)
      (tidy : directory.Tidy kind) :
      Recovered kind directory action.1 (directory.step kind action).1 ↔
        directory.Harmless action.1 action.2 := tidy.harmless_iff action.1 action.2
  have first : Tidy kind ({} : ArtifactDirectory β) := ⟨rfl, nofun, nofun⟩
  exact Machine.along_congr_of_kept kept agree first actions

/-- A draft that is written. -/
def draftInput : ArtifactWriteInput :=
  { changeId := "draft", appId := "app", catalogVersion := "1", manifestVersion := "1", now := 0,
    ttlMs := 86400000 }

/-- A first write of a draft crashes between the file and the index: the file stays. -/
theorem orphan_stays :
    ¬ Machine.Along (step .draft) (fun directory (action : ArtifactCommand Unit × Nat) =>
        Recovered .draft directory action.1 (directory.step .draft action).1) {}
      [(.write draftInput (), 2)] := by
  rintro ⟨recovered, -⟩
  obtain ⟨time, gone⟩ := recovered.cleaned ("draft", ()) (by decide)
  have late : ∃ now ∈ [time], time ≤ now := ⟨time, .head _, Int.le_refl _⟩
  refine gone [time] late (kept_of_orphan .draft _ ?_ ?_ [time])
  · decide
  · decide

end ArtifactDirectory

end NancyMan.Agent
