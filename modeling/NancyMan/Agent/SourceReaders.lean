import NancyMan.Agent.SafeSourceFile

/-!
# The readers of a source

The inventory, the validation service and the atomic writer each resolve the locator of a source and
look up its owner by their own copy of the code. The copies differ in one option: only the inventory
passes the name of a release's metadata file. They read the same file, or all fail, unless the
release identifies itself under that name and not under the one by default, or the other way round.
-/
namespace NancyMan.Agent

/-! ## Sources and their readers -/

inductive SourceLocator where
  | file (path : List Char)
  | activeReleaseLink (currentPath approvedTargetRoot : List Char)
      (metadataFileName : Option (List Char)) (fixedDescendant : List Char)

/-- What the readers use of a source of the manifest. -/
structure LocatedSource where
  id : String
  locator : SourceLocator
  owner : List Char
  group : List Char
  mode : List Char
  maximumBytes : Int

/-- A state of a machine: its files, and the texts of the files of its accounts when they can be
read. -/
structure HostState (D : Type) where
  system : FileSystem D
  passwd : Option (List Char)
  groups : Option (List Char)

/-- What the readers throw when an account is unknown. -/
inductive UnknownAccount where
  | inventorySourceMetadataInvalid
  | validationSourceNotFound
  | writerSourceNotFound
deriving DecidableEq

inductive ReaderFailure where
  | account (error : UnknownAccount)
  | source (failure : SourceFailure)
deriving DecidableEq

/-- A text split at its line feeds, each with the carriage return before it. -/
def splitLines (text : List Char) : List (List Char) :=
  let lines := text.splitOn '\n'
  (lines.dropLast.map fun line =>
    if line.getLast? = some '\r' then line.dropLast else line) ++ lines.getLast?.toList

/-- The number of an account in a file of accounts: `userId`, `groupId` and `accountId`. -/
def accountId (file : Option (List Char)) (name : List Char) : Option Nat :=
  file.bind fun text => (splitLines text).findSome? fun line =>
    let fields := line.splitOn ':'
    if fields[0]? = some name then fields[2]?.bind decimalDigits else none

/-- Where a source is. -/
structure DeclaredPath where
  path : List Char
  trustedRoot : Option (List Char)

variable {D : Type} (state : HostState D)

/-- Where a locator leads, with a metadata file's name to pass. -/
def locate (sourceId : String) (locator : SourceLocator)
    (passed : Option (List Char) → Option (List Char)) : Except SourceFailure DeclaredPath :=
  match locator with
  | .file path => .ok ⟨path, none⟩
  | .activeReleaseLink currentPath approvedTargetRoot metadataFileName fixedDescendant => do
    let resolved ← resolveActiveReleaseLink state.system
      { sourceId, currentPath, approvedTargetRoot, fixedDescendant,
        metadataFileName := passed metadataFileName }
    return ⟨resolved.sourcePath, some resolved.releasePath⟩

/-- A reader of sources, from what it throws when an account is unknown and how it resolves a
locator. -/
def readSourceWith (source : LocatedSource) (unknown : UnknownAccount)
    (resolved : Except SourceFailure DeclaredPath) : Except ReaderFailure SafeSourceReadResult :=
  match accountId state.passwd source.owner, accountId state.groups source.group with
  | some uid, some gid => (do
      let declared ← resolved
      readSafeSourceFile state.system ⟨source.id, declared.path,
        ⟨some uid, some gid, .octal source.mode, source.maximumBytes, none⟩,
        declared.trustedRoot⟩).mapError .source
  | _, _ => .error (.account unknown)

namespace InventoryService

/-- An empty name is not passed. -/
def declaredPath (state : HostState D) (source : LocatedSource) :
    Except SourceFailure DeclaredPath :=
  locate state source.id source.locator fun name => name.filter (· ≠ [])

def defaultReadSource (state : HostState D) (source : LocatedSource) :
    Except ReaderFailure SafeSourceReadResult :=
  readSourceWith state source .inventorySourceMetadataInvalid (declaredPath state source)

end InventoryService

namespace ValidationService

def sourcePath (state : HostState D) (source : LocatedSource) :
    Except SourceFailure DeclaredPath :=
  locate state source.id source.locator fun _ => none

def defaultReadSource (state : HostState D) (source : LocatedSource) :
    Except ReaderFailure SafeSourceReadResult :=
  readSourceWith state source .validationSourceNotFound (sourcePath state source)

end ValidationService

namespace AtomicSourceWriter

def resolveSource (state : HostState D) (source : LocatedSource) :
    Except SourceFailure DeclaredPath :=
  locate state source.id source.locator fun _ => none

def defaultReadSource (state : HostState D) (source : LocatedSource) :
    Except ReaderFailure SafeSourceReadResult :=
  readSourceWith state source .writerSourceNotFound (resolveSource state source)

end AtomicSourceWriter

/-- The readers all succeed with one path, one content and one metadata, or all fail. -/
def ReadersAgree (source : LocatedSource) : Prop :=
  (∃ read, InventoryService.defaultReadSource state source = .ok read ∧
    ValidationService.defaultReadSource state source = .ok read ∧
    AtomicSourceWriter.defaultReadSource state source = .ok read) ∨
  ∃ first second third, InventoryService.defaultReadSource state source = .error first ∧
    ValidationService.defaultReadSource state source = .error second ∧
    AtomicSourceWriter.defaultReadSource state source = .error third

/-! ## What a reader needs -/

/-- A release identifies itself in a metadata file of a name. -/
def IdentifiedUnder (source : LocatedSource) (release : CurrentRelease) (metadataName : List Char) :
    Prop :=
  ∃ metadataPath, checkReleaseMetadata state.system release metadataName source.id =
    .ok metadataPath

/-- Apart from its metadata a release's file can be read, as a result. -/
structure ReadableIn (state : HostState D) (source : LocatedSource) (release : CurrentRelease)
    (fixedDescendant : List Char) (uid gid : Nat) (path : List Char)
    (read : SafeSourceReadResult) : Prop where
  owner : accountId state.passwd source.owner = some uid
  group : accountId state.groups source.group = some gid
  descendant : verifyReleaseDescendant state.system release.releasePath fixedDescendant source.id =
    .ok path
  unchanged : confirmCurrentLink state.system release source.id = .ok ()
  file : readSafeSourceFile state.system ⟨source.id, path,
    ⟨some uid, some gid, .octal source.mode, source.maximumBytes, none⟩,
    some release.releasePath⟩ = .ok read

/-- A link leads to a release whose file can be read, apart from its metadata, as a result. -/
def LeadsTo (source : LocatedSource) (currentPath approvedTargetRoot fixedDescendant : List Char)
    (release : CurrentRelease) (read : SafeSourceReadResult) : Prop :=
  followCurrentLink state.system currentPath approvedTargetRoot source.id = .ok release ∧
    ∃ uid gid path, ReadableIn state source release fixedDescendant uid gid path read

variable {source : LocatedSource} {currentPath approvedTargetRoot fixedDescendant : List Char}
  {metadataFileName : Option (List Char)} {read : SafeSourceReadResult}

/-- A link is resolved when it leads to a release that identifies itself and has the file. -/
theorem locate_link {state : HostState D} {passed : Option (List Char) → Option (List Char)}
    {declared : DeclaredPath} :
    locate state source.id
        (.activeReleaseLink currentPath approvedTargetRoot metadataFileName fixedDescendant)
        passed = .ok declared ↔
      ∃ release, followCurrentLink state.system currentPath approvedTargetRoot source.id =
          .ok release ∧
        IdentifiedUnder state source release
          ((passed metadataFileName).getD defaultMetadataName) ∧
        verifyReleaseDescendant state.system release.releasePath fixedDescendant source.id =
          .ok declared.path ∧
        confirmCurrentLink state.system release source.id = .ok () ∧
        declared.trustedRoot = some release.releasePath := by
  unfold locate resolveActiveReleaseLink
  dsimp only
  simp only [Fallible.bind_eq_ok, IdentifiedUnder, pure, Except.pure, Except.ok.injEq]
  constructor
  · rintro ⟨resolved, ⟨release, followed, metadataPath, identified, path, verified, done, confirmed,
      rfl⟩, rfl⟩
    exact ⟨release, followed, ⟨metadataPath, identified⟩, verified, confirmed, rfl⟩
  · rintro ⟨release, followed, ⟨metadataPath, identified⟩, verified, confirmed, root⟩
    refine ⟨_, ⟨release, followed, metadataPath, identified, declared.path, verified, (), confirmed,
      rfl⟩, ?_⟩
    rw [← root]

/-- A reader of a link reads what it leads to, when the release identifies itself under the name that
the reader passes on. -/
theorem readSourceWith_link {state : HostState D} (passed : Option (List Char) → Option (List Char))
    (unknown : UnknownAccount) :
    readSourceWith state source unknown (locate state source.id
        (.activeReleaseLink currentPath approvedTargetRoot metadataFileName fixedDescendant)
        passed) = .ok read ↔
      ∃ release,
        LeadsTo state source currentPath approvedTargetRoot fixedDescendant release read ∧
        IdentifiedUnder state source release
          ((passed metadataFileName).getD defaultMetadataName) := by
  have mapped {result : Except SourceFailure SafeSourceReadResult} :
      result.mapError ReaderFailure.source = .ok read ↔ result = .ok read := by
    cases result <;> simp [Except.mapError]
  constructor
  · intro succeeds
    unfold readSourceWith at succeeds
    split at succeeds
    · next uid gid owner group =>
      obtain ⟨declared, located, file⟩ := Fallible.bind_ok (mapped.mp succeeds)
      obtain ⟨release, followed, identified, verified, confirmed, root⟩ := locate_link.mp located
      rw [root] at file
      exact ⟨release, ⟨followed, uid, gid, declared.path,
        ⟨owner, group, verified, confirmed, file⟩⟩, identified⟩
    · cases succeeds
  · rintro ⟨release, ⟨followed, uid, gid, path, readable⟩, identified⟩
    have located : locate state source.id
        (.activeReleaseLink currentPath approvedTargetRoot metadataFileName fixedDescendant)
        passed = .ok ⟨path, some release.releasePath⟩ :=
      locate_link.mpr ⟨release, followed, identified, readable.descendant, readable.unchanged, rfl⟩
    unfold readSourceWith
    rw [readable.owner, readable.group]
    exact mapped.mpr (Fallible.bind_eq_ok.mpr ⟨_, located, readable.file⟩)

/-- A link leads to one release and one result. -/
theorem LeadsTo.unique {state : HostState D} {first second : CurrentRelease}
    {other : SafeSourceReadResult}
    (leads : LeadsTo state source currentPath approvedTargetRoot fixedDescendant first read)
    (again : LeadsTo state source currentPath approvedTargetRoot fixedDescendant second other) :
    first = second ∧ read = other := by
  obtain ⟨followed, uid, gid, path, readable⟩ := leads
  obtain ⟨followed', uid', gid', path', readable'⟩ := again
  obtain rfl := Except.ok.inj (followed.symm.trans followed')
  obtain rfl := Option.some.inj (readable.owner.symm.trans readable'.owner)
  obtain rfl := Option.some.inj (readable.group.symm.trans readable'.group)
  obtain rfl := Except.ok.inj (readable.descendant.symm.trans readable'.descendant)
  exact ⟨rfl, Except.ok.inj (readable.file.symm.trans readable'.file)⟩

/-! ## When the readers agree -/

theorem error_of_not_ok {ε α : Type} {result : Except ε α} (fails : ∀ value, result ≠ .ok value) :
    ∃ error, result = .error error := by
  cases result with
  | error error => exact ⟨error, rfl⟩
  | ok value => exact absurd rfl (fails value)

/-- Readers that are told where a file is differ in what they throw. -/
theorem readers_agree_file {state : HostState D} {path : List Char}
    (locator : source.locator = .file path) : ReadersAgree state source := by
  unfold ReadersAgree InventoryService.defaultReadSource ValidationService.defaultReadSource
    AtomicSourceWriter.defaultReadSource InventoryService.declaredPath ValidationService.sourcePath
    AtomicSourceWriter.resolveSource
  rw [locator]
  unfold readSourceWith locate
  cases accountId state.passwd source.owner with
  | none => exact .inr ⟨_, _, _, rfl, rfl, rfl⟩
  | some uid =>
    cases accountId state.groups source.group with
    | none => exact .inr ⟨_, _, _, rfl, rfl, rfl⟩
    | some gid =>
      dsimp only
      generalize Except.mapError ReaderFailure.source _ = result
      cases result with
      | error failure => exact .inr ⟨failure, failure, failure, rfl, rfl, rfl⟩
      | ok read => exact .inl ⟨read, rfl, rfl, rfl⟩

def declaredMetadataName (metadataFileName : Option (List Char)) : List Char :=
  (metadataFileName.filter (· ≠ [])).getD defaultMetadataName

/-- Whether the readers agree: a locator is a path, or a release whose file can otherwise be read
identifies itself in the metadata file that the locator names exactly when it does in the one by
default. -/
def MetadataAgree (source : LocatedSource) : Prop :=
  match source.locator with
  | .file _ => True
  | .activeReleaseLink currentPath approvedTargetRoot metadataFileName fixedDescendant =>
    ∀ release read,
      LeadsTo state source currentPath approvedTargetRoot fixedDescendant release read →
      (IdentifiedUnder state source release (declaredMetadataName metadataFileName) ↔
        IdentifiedUnder state source release defaultMetadataName)

/-- In every state of a machine the readers of a source agree if and only if its locator is a path, or
the release its link leads to, when its file can be read apart from that, identifies itself in both
of the metadata files that the readers look at or in neither. -/
theorem readers_agree_iff (state : HostState D) (source : LocatedSource) :
    ReadersAgree state source ↔ MetadataAgree state source := by
  unfold MetadataAgree
  cases locator : source.locator with
  | file path => exact iff_of_true (readers_agree_file locator) trivial
  | activeReleaseLink currentPath approvedTargetRoot metadataFileName fixedDescendant =>
    have shown (read : SafeSourceReadResult) :
        InventoryService.defaultReadSource state source = .ok read ↔ ∃ release,
          LeadsTo state source currentPath approvedTargetRoot fixedDescendant release read ∧
          IdentifiedUnder state source release (declaredMetadataName metadataFileName) := by
      unfold InventoryService.defaultReadSource InventoryService.declaredPath
      rw [locator, readSourceWith_link]
      rfl
    have validated (read : SafeSourceReadResult) :
        ValidationService.defaultReadSource state source = .ok read ↔ ∃ release,
          LeadsTo state source currentPath approvedTargetRoot fixedDescendant release read ∧
          IdentifiedUnder state source release defaultMetadataName := by
      unfold ValidationService.defaultReadSource ValidationService.sourcePath
      rw [locator, readSourceWith_link]
      rfl
    have written (read : SafeSourceReadResult) :
        AtomicSourceWriter.defaultReadSource state source = .ok read ↔ ∃ release,
          LeadsTo state source currentPath approvedTargetRoot fixedDescendant release read ∧
          IdentifiedUnder state source release defaultMetadataName := by
      unfold AtomicSourceWriter.defaultReadSource AtomicSourceWriter.resolveSource
      rw [locator, readSourceWith_link]
      rfl
    dsimp only
    constructor
    · rintro (⟨common, first, second, -⟩ | ⟨_, _, _, first, second, -⟩) release read leads
      · obtain ⟨release', leads', named⟩ := (shown common).mp first
        obtain ⟨release'', leads'', usual⟩ := (validated common).mp second
        obtain rfl := (leads.unique leads').1
        obtain rfl := (leads.unique leads'').1
        exact iff_of_true named usual
      · refine iff_of_false (fun named => ?_) (fun usual => ?_)
        · rw [(shown read).mpr ⟨release, leads, named⟩] at first
          cases first
        · rw [(validated read).mpr ⟨release, leads, usual⟩] at second
          cases second
    · intro same
      by_cases succeeds : ∃ read, InventoryService.defaultReadSource state source = .ok read
      · obtain ⟨read, first⟩ := succeeds
        obtain ⟨release, leads, named⟩ := (shown read).mp first
        have usual := (same release read leads).mp named
        exact .inl ⟨read, first, (validated read).mpr ⟨release, leads, usual⟩,
          (written read).mpr ⟨release, leads, usual⟩⟩
      · have without (read : SafeSourceReadResult) : ¬ ∃ release,
            LeadsTo state source currentPath approvedTargetRoot fixedDescendant release read ∧
            IdentifiedUnder state source release defaultMetadataName := by
          rintro ⟨release, leads, usual⟩
          exact succeeds ⟨read, (shown read).mpr ⟨release, leads,
            (same release read leads).mpr usual⟩⟩
        obtain ⟨first, shown'⟩ := error_of_not_ok fun read reads => succeeds ⟨read, reads⟩
        obtain ⟨second, validated'⟩ := error_of_not_ok fun read reads =>
          without read ((validated read).mp reads)
        obtain ⟨third, written'⟩ := error_of_not_ok fun read reads =>
          without read ((written read).mp reads)
        exact .inr ⟨first, second, third, shown', validated', written'⟩

/-! ## A release with a metadata file of its own name -/

/-- A file with its content, or a link with its target. -/
structure Node where
  stats : Stats
  bytes : List UInt8
  target : List Char

/-- The file system of some files, whose descriptors are their paths. -/
def FileSystem.ofNodes (nodes : List (List Char × Node)) : FileSystem (List Char) :=
  let find (path : List Char) : Except FsError Node :=
    match nodes.find? fun entry => entry.1 = path with
    | some entry => .ok entry.2
    | none => .error .enoent
  { lstatSync := fun path => (find path).map Node.stats
    readlinkSync := fun path => (find path).map Node.target
    openDirectory := fun path => (find path).bind fun node =>
      if node.stats.isDirectory then .ok path else .error .enotdir
    openChild := fun directory part only =>
      let path := (if directory = ['/'] then [] else directory) ++ '/' :: part
      (find path).bind fun node =>
        if node.stats.isSymbolicLink then .error .eloop
        else if only && !node.stats.isDirectory then .error .enotdir
        else .ok path
    fstatSync := fun path => (find path).map Node.stats
    readSync := fun path position length => (find path).map fun node =>
      (node.bytes.drop position).take length }

def directoryNode (ino : Nat) : Node := ⟨⟨.directory, 1, ino, 1000, 1000, 0o755, 2, 0, 0⟩, [], []⟩

def linkNode (ino : Nat) (target : String) : Node :=
  ⟨⟨.symbolicLink, 1, ino, 1000, 1000, 0o777, 1, 0, 0⟩, [], target.toList⟩

def fileNode (ino : Nat) (content : String) : Node :=
  let bytes := Utf8.bytes content.toList
  ⟨⟨.regular, 1, ino, 1000, 1000, 0o644, 1, bytes.length, 0⟩, bytes, []⟩

/-- A machine whose release has one metadata file. -/
def releaseHost (metadataName : String) : HostState (List Char) where
  system := .ofNodes [
    ("/".toList, directoryNode 1), ("/srv".toList, directoryNode 2),
    ("/srv/releases".toList, directoryNode 3),
    ("/srv/current".toList, linkNode 4 "/srv/releases/r1"),
    ("/srv/releases/r1".toList, directoryNode 5),
    (("/srv/releases/r1/" ++ metadataName).toList, fileNode 6 "\x7b\"releaseId\":\"r1\"\x7d"),
    ("/srv/releases/r1/app.cjs".toList, fileNode 7 "module.exports=1")]
  passwd := some "root:x:0:0\ndeploy:x:1000:1000\n".toList
  groups := some "deploy:x:1000:\n".toList

/-- A source in the active release, whose locator names its metadata file. -/
def releaseSource : LocatedSource where
  id := "edutrack.pm2_ecosystem"
  locator := .activeReleaseLink "/srv/current".toList "/srv/releases".toList
    (some ".release-source.json".toList) "app.cjs".toList
  owner := "deploy".toList
  group := "deploy".toList
  mode := "0644".toList
  maximumBytes := 65536

/-- The inventory shows a source that can be neither validated nor written. -/
theorem shown_but_not_validated :
    (∃ read, InventoryService.defaultReadSource (releaseHost ".release-source.json")
        releaseSource = .ok read ∧ read.bytes = Utf8.bytes "module.exports=1".toList) ∧
      ValidationService.defaultReadSource (releaseHost ".release-source.json") releaseSource =
        .error (.source (.safeSource .activeReleaseMetadataMissing "edutrack.pm2_ecosystem")) ∧
      AtomicSourceWriter.defaultReadSource (releaseHost ".release-source.json") releaseSource =
        .error (.source (.safeSource .activeReleaseMetadataMissing "edutrack.pm2_ecosystem")) ∧
      ¬ ReadersAgree (releaseHost ".release-source.json") releaseSource := by
  have validated : ValidationService.defaultReadSource (releaseHost ".release-source.json")
      releaseSource =
        .error (.source (.safeSource .activeReleaseMetadataMissing "edutrack.pm2_ecosystem")) := by
    decide +kernel
  have shown : (InventoryService.defaultReadSource (releaseHost ".release-source.json")
      releaseSource).toOption.map SafeSourceReadResult.bytes =
        some (Utf8.bytes "module.exports=1".toList) := by
    decide +kernel
  cases reads : InventoryService.defaultReadSource (releaseHost ".release-source.json")
      releaseSource with
  | error failure =>
    rw [reads] at shown
    cases shown
  | ok read =>
    rw [reads] at shown
    refine ⟨⟨read, rfl, Option.some.inj shown⟩, validated, by decide +kernel, ?_⟩
    rintro (⟨common, -, second, -⟩ | ⟨first, -, -, fails, -⟩)
    · rw [validated] at second
      cases second
    · rw [reads] at fails
      cases fails

end NancyMan.Agent
