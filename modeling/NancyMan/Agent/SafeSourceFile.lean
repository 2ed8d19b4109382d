import NancyMan.Lib.Fallible
import NancyMan.Lib.Js
import NancyMan.Lib.Json
import NancyMan.Lib.Utf8Decoder

/-!
# Files of sources

How the agent reads the file of a source without following links: every directory of its path is
looked at, the file is opened relative to descriptors, and what is known of it is compared before it
is opened, while it is open and after it is read. The file of an active release is found through one
link, whose release has to identify itself in a metadata file.
-/
namespace NancyMan.Agent

/-! ## File systems -/

/-- Why a call of the file system fails. -/
inductive FsError where
  | enoent
  | enotdir
  | eloop
  | other
deriving DecidableEq

inductive FileKind where
  | regular
  | directory
  | symbolicLink
  | other
deriving DecidableEq

/-- What is known of a file. -/
structure Stats where
  kind : FileKind
  dev : Nat
  ino : Nat
  uid : Nat
  gid : Nat
  mode : Nat
  nlink : Nat
  size : Nat
  mtimeMs : Int

/-- A state of a file system: the answers to its calls. Descriptors are opened without following
links, a directory by its path or in one that is open. -/
structure FileSystem (D : Type) where
  lstatSync : List Char → Except FsError Stats
  readlinkSync : List Char → Except FsError (List Char)
  openDirectory : List Char → Except FsError D
  openChild : D → List Char → (directory : Bool) → Except FsError D
  fstatSync : D → Except FsError Stats
  readSync : D → (position length : Nat) → Except FsError (List UInt8)

inductive SafeSourceErrorCode where
  | sourcePathTraversal
  | sourceNotFound
  | sourceNotDirectory
  | sourceSymlinkRejected
  | sourceNotRegular
  | sourceHardLinkRejected
  | sourceMetadataDrift
  | sourceTooLarge
  | sourceOpenFailed
  | sourceReadFailed
  | activeReleaseChanged
  | activeReleaseInvalid
  | activeReleaseMetadataMissing
  | activeReleaseMetadataInvalid
deriving DecidableEq

/-- What reading a source throws: its own error, or one of the file system's that is not caught. -/
inductive SourceFailure where
  | safeSource (code : SafeSourceErrorCode) (sourceId : String)
  | uncaught (error : FsError)
deriving DecidableEq

def fail {α : Type} (code : SafeSourceErrorCode) (sourceId : String) : Except SourceFailure α :=
  .error (.safeSource code sourceId)

/-- Fail unless a condition holds. -/
def ensure (condition : Bool) (code : SafeSourceErrorCode) (sourceId : String) :
    Except SourceFailure Unit :=
  if condition then .ok () else fail code sourceId

/-- A call whose error is mapped. -/
def mapFsError {α : Type} (sourceId : String) (fallback : SafeSourceErrorCode) :
    Except FsError α → Except SourceFailure α
  | .ok value => .ok value
  | .error .enoent | .error .enotdir => fail .sourceNotFound sourceId
  | .error .eloop => fail .sourceSymlinkRejected sourceId
  | .error .other => fail fallback sourceId

/-- A call whose error is not caught. -/
def uncaught {α : Type} : Except FsError α → Except SourceFailure α
  | .ok value => .ok value
  | .error error => .error (.uncaught error)

/-! ## Paths -/

variable (path : List Char)

def isAbsolute : Bool := path.head? = some '/'

/-- The parts of a path without `.` and with `..` resolved; above the root `..` stays or is dropped. -/
def normalizeParts (allowAboveRoot : Bool) (parts : List (List Char)) : List (List Char) :=
  (parts.foldl (fun stack part =>
    if part = [] ∨ part = ['.'] then stack
    else if part = ['.', '.'] then
      match stack with
      | [] => if allowAboveRoot then [part] else []
      | top :: below =>
        if top = ['.', '.'] then if allowAboveRoot then part :: stack else stack else below
    else part :: stack) []).reverse

def joinParts (parts : List (List Char)) : List Char := List.intercalate ['/'] parts

/-- `path.normalize`. -/
def normalize : List Char :=
  if path = [] then ['.']
  else
    let trailing := if path.getLast? = some '/' then ['/'] else []
    let root := if isAbsolute path then ['/'] else []
    match joinParts (normalizeParts (!isAbsolute path) (path.splitOn '/')) with
    | [] => if isAbsolute path then ['/'] else '.' :: trailing
    | body => root ++ body ++ trailing

/-- `path.resolve` of an absolute path and `..`. -/
def resolveParent : List Char :=
  '/' :: joinParts (normalizeParts false (path.splitOn '/' ++ [['.', '.']]))

def pathParts : List (List Char) := (path.splitOn '/').filter (· ≠ [])

def canonicalAbsolutePath (value : List Char) (sourceId : String) :
    Except SourceFailure (List Char) := do
  ensure (isAbsolute value && normalize value = value && !value.contains '\x00')
    .sourcePathTraversal sourceId
  ensure (!(value.splitOn '/').contains ['.', '.']) .sourcePathTraversal sourceId
  return value

def assertWithinRoot (filePath root : List Char) (sourceId : String) :
    Except SourceFailure Unit := do
  let canonicalRoot ← canonicalAbsolutePath root sourceId
  ensure (filePath = canonicalRoot || (canonicalRoot ++ ['/']).isPrefixOf filePath)
    .sourcePathTraversal sourceId

/-! ## What is expected of a file -/

variable (stat : Stats)

def Stats.isFile : Bool := stat.kind = .regular

def Stats.isDirectory : Bool := stat.kind = .directory

def Stats.isSymbolicLink : Bool := stat.kind = .symbolicLink

def Stats.permissions : Nat := stat.mode % 0o10000

def statIsIdentity (left right : Stats) : Bool := left.dev = right.dev && left.ino = right.ino

/-- A mode as a number or as octal digits. -/
inductive ExpectedMode where
  | bits (value : Nat)
  | octal (digits : List Char)

def modeValue (mode : ExpectedMode) (sourceId : String) : Except SourceFailure Nat :=
  match mode with
  | .bits value => if value ≤ 0o7777 then .ok value else fail .sourceMetadataDrift sourceId
  | .octal digits =>
    if digits.length = 4 ∧ digits.all fun digit => '0' ≤ digit && digit ≤ '7' then
      .ok (digits.foldl (fun total digit => total * 8 + (digit.toNat - '0'.toNat)) 0)
    else fail .sourceMetadataDrift sourceId

structure SourceFileExpectation where
  uid : Option Nat
  gid : Option Nat
  mode : ExpectedMode
  maximumBytes : Int
  nlink : Option Nat := none

def maxSafeBytes : Int := 9007199254740991

def assertExpectation (expected : SourceFileExpectation) (sourceId : String) :
    Except SourceFailure Unit := do
  ensure stat.isFile .sourceNotRegular sourceId
  ensure (expected.uid.all (stat.uid = ·)) .sourceMetadataDrift sourceId
  ensure (expected.gid.all (stat.gid = ·)) .sourceMetadataDrift sourceId
  let mode ← modeValue expected.mode sourceId
  ensure (stat.permissions = mode) .sourceMetadataDrift sourceId
  ensure (stat.nlink = expected.nlink.getD 1 && stat.nlink = 1) .sourceHardLinkRejected sourceId
  ensure (0 < expected.maximumBytes && expected.maximumBytes ≤ maxSafeBytes) .sourceTooLarge
    sourceId
  ensure (stat.size ≤ expected.maximumBytes) .sourceTooLarge sourceId

/-! ## Reading a file -/

variable {D : Type}

/-- The directories of a path and its file, none of them a link. -/
def walkParts (system : FileSystem D) (sourceId : String) (current : List Char) :
    List (List Char) → Except SourceFailure Unit
  | [] => .ok ()
  | part :: rest => do
    let next := (if current = ['/'] then [] else current) ++ '/' :: part
    let stat ← mapFsError sourceId .sourceNotFound (system.lstatSync next)
    ensure (!stat.isSymbolicLink) .sourceSymlinkRejected sourceId
    ensure (rest.isEmpty || stat.isDirectory) .sourceNotDirectory sourceId
    walkParts system sourceId next rest

variable (system : FileSystem D)

def walkNoSymlink (filePath : List Char) (sourceId : String) : Except SourceFailure Stats := do
  walkParts system sourceId ['/'] (pathParts filePath)
  mapFsError sourceId .sourceNotFound (system.lstatSync filePath)

/-- The file of some parts below an open directory. Any error of these calls is mapped twice. -/
def openParts (system : FileSystem D) (sourceId : String) (directory : D) :
    List (List Char) → Except SourceFailure D
  | [] => fail .sourceOpenFailed sourceId
  | part :: rest =>
    match system.openChild directory part (!rest.isEmpty) with
    | .error _ => fail .sourceOpenFailed sourceId
    | .ok child => if rest.isEmpty then .ok child else openParts system sourceId child rest

def openDescriptorRelative (filePath : List Char) (sourceId : String)
    (trustedRoot : Option (List Char)) : Except SourceFailure D := do
  let root := trustedRoot.getD ['/']
  let rootPrefix := if root = ['/'] then ['/'] else root ++ ['/']
  let parts := if filePath = root then [] else pathParts (filePath.drop rootPrefix.length)
  ensure (!parts.isEmpty) .sourceNotRegular sourceId
  let directory ← mapFsError sourceId .sourceOpenFailed (system.openDirectory root)
  openParts system sourceId directory parts

/-- The rest of a file's bytes. Every read that goes on has at least one byte, so a file's size is
fuel enough. -/
def readRest (system : FileSystem D) (sourceId : String) (maximumBytes : Int) (descriptor : D) :
    (fuel offset remaining : Nat) → Except SourceFailure (List UInt8)
  | 0, _, _ => .ok []
  | _ + 1, _, 0 => .ok []
  | fuel + 1, offset, remaining + 1 => do
    let read ← mapFsError sourceId .sourceReadFailed
      (system.readSync descriptor offset (remaining + 1))
    let chunk := read.take (remaining + 1)
    ensure (!chunk.isEmpty) .sourceReadFailed sourceId
    ensure (offset + chunk.length ≤ maximumBytes) .sourceTooLarge sourceId
    let rest ← readRest system sourceId maximumBytes descriptor fuel (offset + chunk.length)
      (remaining + 1 - chunk.length)
    return chunk ++ rest

structure SafeSourceMetadata where
  dev : Nat
  ino : Nat
  uid : Nat
  gid : Nat
  mode : Nat
  nlink : Nat
  size : Nat
  mtimeMs : Int
deriving DecidableEq

def Stats.metadata : SafeSourceMetadata where
  dev := stat.dev
  ino := stat.ino
  uid := stat.uid
  gid := stat.gid
  mode := stat.permissions
  nlink := stat.nlink
  size := stat.size
  mtimeMs := stat.mtimeMs

structure SafeSourceReadOptions where
  sourceId : String
  path : List Char
  expected : SourceFileExpectation
  trustedRoot : Option (List Char)

structure SafeSourceReadResult where
  sourceId : String
  path : List Char
  bytes : List UInt8
  metadata : SafeSourceMetadata
deriving DecidableEq

def readSafeSourceFile (options : SafeSourceReadOptions) :
    Except SourceFailure SafeSourceReadResult := do
  let sourceId := options.sourceId
  let maximumBytes := options.expected.maximumBytes
  let filePath ← canonicalAbsolutePath options.path sourceId
  if let some trustedRoot := options.trustedRoot then assertWithinRoot filePath trustedRoot sourceId
  let beforeOpen ← walkNoSymlink system filePath sourceId
  assertExpectation beforeOpen options.expected sourceId
  let descriptor ← openDescriptorRelative system filePath sourceId options.trustedRoot
  let opened ← mapFsError sourceId .sourceReadFailed (system.fstatSync descriptor)
  ensure (statIsIdentity beforeOpen opened) .sourceMetadataDrift sourceId
  ensure (opened.size ≤ maximumBytes) .sourceTooLarge sourceId
  ensure (opened.size = beforeOpen.size && opened.mtimeMs = beforeOpen.mtimeMs &&
    opened.nlink = beforeOpen.nlink && opened.uid = beforeOpen.uid &&
    opened.gid = beforeOpen.gid && opened.permissions = beforeOpen.permissions)
    .sourceMetadataDrift sourceId
  assertExpectation opened options.expected sourceId
  let bytes ← readRest system sourceId maximumBytes descriptor opened.size 0 opened.size
  let afterRead ← uncaught (system.fstatSync descriptor)
  ensure (statIsIdentity opened afterRead) .sourceMetadataDrift sourceId
  ensure (afterRead.size ≤ maximumBytes) .sourceTooLarge sourceId
  ensure (afterRead.size = opened.size && afterRead.mtimeMs = opened.mtimeMs &&
    afterRead.nlink = opened.nlink) .sourceMetadataDrift sourceId
  let afterPath ← walkNoSymlink system filePath sourceId
  ensure (statIsIdentity opened afterPath) .sourceMetadataDrift sourceId
  assertExpectation afterPath options.expected sourceId
  return { sourceId, path := filePath, bytes, metadata := afterPath.metadata }

/-! ## Active releases -/

structure ActiveReleaseLinkOptions where
  sourceId : String
  currentPath : List Char
  approvedTargetRoot : List Char
  fixedDescendant : List Char
  releaseMetadataFile : Option (List Char) := none
  metadataFileName : Option (List Char) := none

structure ActiveReleaseResolution where
  sourceId : String
  releaseId : List Char
  releasePath : List Char
  metadataPath : List Char
  sourcePath : List Char

def isReleaseSymbol (symbol : Char) : Bool := symbol.isAlphanum || symbol ∈ ['.', '_', '-']

def isReleaseId : List Char → Bool
  | [] => false
  | first :: rest => first.isAlphanum && rest.all isReleaseSymbol

def below (directory path : List Char) : List Char := path.drop (directory.length + 1)

def directChildTarget (linkTarget releasesRoot : List Char) (sourceId : String) :
    Except SourceFailure (List Char) := do
  ensure (isAbsolute linkTarget && normalize linkTarget = linkTarget) .activeReleaseInvalid sourceId
  ensure (resolveParent linkTarget = releasesRoot) .activeReleaseInvalid sourceId
  ensure (isReleaseId (below releasesRoot linkTarget)) .activeReleaseInvalid sourceId
  return linkTarget

def descendantParts (descendant : List Char) : List (List Char) :=
  descendant.splitOnP fun symbol => symbol = '/' || symbol = '\\'

def safeChildPath (root descendant : List Char) (sourceId : String) :
    Except SourceFailure (List Char) := do
  ensure (!descendant.isEmpty && !isAbsolute descendant && normalize descendant = descendant &&
    !descendant.contains '\x00' &&
    (descendantParts descendant).all fun part => part ≠ [] && part ≠ ['.', '.'])
    .activeReleaseInvalid sourceId
  return root ++ '/' :: joinParts (descendantParts descendant)

def verifyReleaseDescendant (releasePath descendant : List Char) (sourceId : String) :
    Except SourceFailure (List Char) := do
  let path ← safeChildPath releasePath descendant sourceId
  let _ ← walkNoSymlink system path sourceId
  let stat ← uncaught (system.lstatSync path)
  ensure (stat.nlink = 1) .sourceHardLinkRejected sourceId
  ensure stat.isFile .activeReleaseInvalid sourceId
  return path

/-- Whether the text of a metadata file identifies a release. -/
def identifies (metadataText releaseId : List Char) : Bool :=
  match Json.parse (String.ofList metadataText) with
  | some (.object properties) =>
    let identities := [Json.lastProperty "releaseId" properties,
      Json.lastProperty "gitSha" properties].filterMap (·.bind Json.string?)
    !identities.isEmpty && identities.all (·.toList = releaseId)
  | _ => false

def readReleaseMetadata (path releaseId : List Char) (sourceId : String) :
    Except SourceFailure Unit := do
  let stat ← match system.lstatSync path with
    | .error .enoent => fail .activeReleaseMetadataMissing sourceId
    | result => mapFsError sourceId .activeReleaseMetadataInvalid result
  ensure (!stat.isSymbolicLink) .sourceSymlinkRejected sourceId
  ensure (stat.isFile && stat.nlink = 1 && stat.size ≠ 0 && stat.size ≤ 16384)
    .activeReleaseMetadataInvalid sourceId
  let result ← match readSafeSourceFile system ⟨sourceId, path,
      ⟨some stat.uid, some stat.gid, .bits stat.permissions, 16384, none⟩, none⟩ with
    | .ok result => .ok result
    | .error (.safeSource .sourceNotFound _) => fail .activeReleaseMetadataMissing sourceId
    | .error _ => fail .activeReleaseMetadataInvalid sourceId
  ensure (identifies (Utf8.decodeLossy result.bytes) releaseId) .activeReleaseMetadataInvalid
    sourceId

/-- What the current link was read as. -/
structure CurrentRelease where
  currentPath : List Char
  currentStat : Stats
  linkTarget : List Char
  releasePath : List Char
  releaseId : List Char

/-- The first part of `resolveActiveReleaseLink`: the release that the current link points to. -/
def followCurrentLink (currentPath approvedTargetRoot : List Char) (sourceId : String) :
    Except SourceFailure CurrentRelease := do
  let currentPath ← canonicalAbsolutePath currentPath sourceId
  let releasesRoot ← canonicalAbsolutePath approvedTargetRoot sourceId
  let rootStat ← walkNoSymlink system releasesRoot sourceId
  ensure rootStat.isDirectory .activeReleaseInvalid sourceId
  let currentStat ← mapFsError sourceId .activeReleaseChanged (system.lstatSync currentPath)
  ensure currentStat.isSymbolicLink .activeReleaseInvalid sourceId
  let linkTarget ← mapFsError sourceId .activeReleaseChanged (system.readlinkSync currentPath)
  let releasePath ← directChildTarget linkTarget releasesRoot sourceId
  let releaseStat ← uncaught (system.lstatSync releasePath)
  ensure releaseStat.isDirectory .activeReleaseInvalid sourceId
  return ⟨currentPath, currentStat, linkTarget, releasePath, below releasesRoot releasePath⟩

def defaultMetadataName : List Char := ".release-metadata.json".toList

/-- The middle part of `resolveActiveReleaseLink`: the release identifies itself in a metadata file of
a name. -/
def checkReleaseMetadata (release : CurrentRelease) (metadataName : List Char) (sourceId : String) :
    Except SourceFailure (List Char) := do
  ensure (!metadataName.isEmpty && metadataName.all isReleaseSymbol && metadataName ≠ ['.'] &&
    metadataName ≠ ['.', '.']) .activeReleaseInvalid sourceId
  let metadataPath := release.releasePath ++ '/' :: metadataName
  readReleaseMetadata system metadataPath release.releaseId sourceId
  return metadataPath

/-- The last part of `resolveActiveReleaseLink`: the current link is as it was. -/
def confirmCurrentLink (release : CurrentRelease) (sourceId : String) :
    Except SourceFailure Unit := do
  let currentAfter ← uncaught (system.lstatSync release.currentPath)
  let linkTargetAfter ← match system.readlinkSync release.currentPath with
    | .ok linkTarget => .ok linkTarget
    | .error _ => fail .activeReleaseChanged sourceId
  let releaseStat ← uncaught (system.lstatSync release.releasePath)
  ensure (statIsIdentity release.currentStat currentAfter && linkTargetAfter = release.linkTarget &&
    releaseStat.isDirectory) .activeReleaseChanged sourceId

def resolveActiveReleaseLink (options : ActiveReleaseLinkOptions) :
    Except SourceFailure ActiveReleaseResolution := do
  let sourceId := options.sourceId
  let release ← followCurrentLink system options.currentPath options.approvedTargetRoot sourceId
  let metadataName := (options.releaseMetadataFile <|> options.metadataFileName).getD
    defaultMetadataName
  let metadataPath ← checkReleaseMetadata system release metadataName sourceId
  let sourcePath ← verifyReleaseDescendant system release.releasePath options.fixedDescendant
    sourceId
  confirmCurrentLink system release sourceId
  return ⟨sourceId, release.releaseId, release.releasePath, metadataPath, sourcePath⟩

end NancyMan.Agent
