import NancyMan.Lib.Fallible
import NancyMan.Releases.Registration

/-!
# When a registration is atomic

What each call of a registration does to the tables depends on a few facts about its entry and the
tables before: whether its object can be put, and whether it is recorded already or its row is new.
The rows of a call that stops early stay as they were exactly where it had nothing new to write up to
there.
-/
namespace NancyMan.Releases

variable (store : ReleaseStore)

/-- Whether a row is there already. -/
def recorded (row : SourceMapRow) : Bool :=
  isName isNameSymbol 511 row.generatedFile.toList &&
    (store.sourceMap? row.releaseId row.generatedFile).any fun existing =>
      existing.sha256 = row.sha256 && existing.objectKey = row.objectKey

/-- Whether a row can be inserted. -/
def fresh (row : SourceMapRow) : Bool :=
  isName isNameSymbol 511 row.generatedFile.toList &&
    (store.sourceMap? row.releaseId row.generatedFile).isNone &&
    !store.sourceMaps.any fun other => other.objectKey = row.objectKey

/-- Whether the object of an entry can be put, or is there already. -/
def putable (rules : ReleaseRules) (store : ReleaseStore) (key : String) (entry : SourceMapEntry) :
    Bool :=
  isDigest 64 entry.sha256 && rules.sha256 entry.content = entry.sha256 &&
    validObjectKey key.toList &&
    (store.objects (objectPath key.toList)).all fun existing => rules.sha256 existing = entry.sha256

/-- The objects with one more, unless its path is taken. -/
def putObjects (path : List (List Char)) (content : String) : List (List Char) → Option String :=
  match store.objects path with
  | none => Function.update store.objects path (some content)
  | some _ => store.objects

/-- A row is recorded, inserted or refused. -/
theorem recordSourceMap_cases (row : SourceMapRow) :
    (recorded store row ∧ fresh store row = false ∧ recordSourceMap store row = .ok (store, ())) ∨
      (recorded store row = false ∧ fresh store row ∧ recordSourceMap store row =
        .ok ({ store with sourceMaps := store.sourceMaps ++ [row] }, ())) ∨
      (recorded store row = false ∧ fresh store row = false ∧
        ∃ error, recordSourceMap store row = .error error) := by
  unfold recorded fresh recordSourceMap
  cases name : isName isNameSymbol 511 row.generatedFile.toList with
  | false => exact .inr (.inr ⟨rfl, rfl, _, rfl⟩)
  | true =>
    cases found : store.sourceMap? row.releaseId row.generatedFile with
    | none =>
      cases taken : store.sourceMaps.any fun other => other.objectKey = row.objectKey with
      | false => exact .inr (.inl ⟨rfl, rfl, rfl⟩)
      | true => exact .inr (.inr ⟨rfl, rfl, _, rfl⟩)
    | some existing =>
      by_cases same : existing.sha256 = row.sha256 ∧ existing.objectKey = row.objectKey
      · exact .inl ⟨by simp [same], rfl, by simp [same]⟩
      · exact .inr (.inr ⟨by simpa using same, rfl, .registrationConflict, by simp [same]⟩)

/-- An object is put or refused. -/
theorem putIfAbsent_cases (rules : ReleaseRules) (store : ReleaseStore) (key : String)
    (entry : SourceMapEntry) :
    (putable rules store key entry ∧ ∃ outcome, outcome ≠ .conflict ∧
        putIfAbsent rules store key entry.content entry.sha256 =
          .ok ({ store with
            objects := putObjects store (objectPath key.toList) entry.content }, outcome)) ∨
      (putable rules store key entry = false ∧
        ((∃ error, putIfAbsent rules store key entry.content entry.sha256 = .error error) ∨
          putIfAbsent rules store key entry.content entry.sha256 = .ok (store, .conflict))) := by
  unfold putable putIfAbsent putObjects
  cases digest : isDigest 64 entry.sha256 with
  | false => exact .inr ⟨rfl, .inl ⟨_, rfl⟩⟩
  | true =>
    by_cases checksum : rules.sha256 entry.content = entry.sha256
    · cases valid : validObjectKey key.toList with
      | false => exact .inr ⟨by simp, .inl ⟨.objectKey, by simp [checksum]⟩⟩
      | true =>
        cases found : store.objects (objectPath key.toList) with
        | none => exact .inl ⟨by simp [checksum], .created, by decide, by simp [checksum, found]⟩
        | some existing =>
          by_cases same : rules.sha256 existing = entry.sha256
          · exact .inl ⟨by simp [checksum, same], .identical, by decide, by simp [checksum, found, same]⟩
          · exact .inr ⟨by simp [same], .inr (by simp [checksum, found, same])⟩
    · exact .inr ⟨by simp [checksum], .inl ⟨.objectChecksumMismatch, by simp [checksum]⟩⟩

/-! ## One entry -/

namespace Upload

variable (rules : ReleaseRules) (target : Target) (store : ReleaseStore) (upload : Upload)

def Puts : Prop :=
  upload.put = .none ∧ putable rules store (target.key upload.entry) upload.entry = true

/-- Both calls of an entry succeed, and its row is there already. -/
def Passes : Prop :=
  upload.Puts rules target store ∧ upload.record = .none ∧
    recorded store (target.row upload.entry) = true

/-- The row of an entry is written. -/
def Writes : Prop :=
  upload.Puts rules target store ∧ upload.record ≠ .before ∧
    fresh store (target.row upload.entry) = true

instance : Decidable (upload.Writes rules target store) :=
  inferInstanceAs (Decidable ((_ ∧ _) ∧ _ ∧ _))

end Upload

open ReleaseStore

section Maps

variable {rules : ReleaseRules} {target : Target}

/-- An object store after an entry was put, or not: nothing is lost, and what came to the path of the
entry has its checksum. -/
structure Keeps (rules : ReleaseRules) (target : Target) (entry : SourceMapEntry)
    (before after : List (List Char) → Option String) : Prop where
  kept : ∀ path content, before path = some content → after path = some content
  added : ∀ path content, after path = some content → before path = some content ∨
    (path = objectPath (target.key entry).toList ∧ isDigest 64 entry.sha256 = true ∧
      rules.sha256 content = entry.sha256)

/-- What storing one entry does. -/
structure Stores (rules : ReleaseRules) (target : Target) (store : ReleaseStore) (upload : Upload)
    (next : ReleaseStore) (result : Except RegistrationError Unit) : Prop where
  releases : next.releases = store.releases
  sourceMaps : next.sourceMaps = if upload.Writes rules target store then
    store.sourceMaps ++ [target.row upload.entry] else store.sourceMaps
  succeeds : result = .ok () ↔ upload.Puts rules target store ∧ upload.record = .none ∧
    (recorded store (target.row upload.entry) = true ∨ fresh store (target.row upload.entry) = true)
  objects : Keeps rules target upload.entry store.objects next.objects
  present : result = .ok () → (next.objects (objectPath (target.key upload.entry).toList)).isSome

theorem keeps_refl (entry : SourceMapEntry) (objects : List (List Char) → Option String) :
    Keeps rules target entry objects objects :=
  ⟨fun _ _ known => known, fun _ _ known => .inl known⟩

variable {store : ReleaseStore} {entry : SourceMapEntry} {upload : Upload} {next : ReleaseStore}

/-- An object that can be put is there then, and every other one stays. -/
theorem keeps_putObjects (puts : putable rules store (target.key entry) entry) : let objects := putObjects store (objectPath (target.key entry).toList) entry.content
    Keeps rules target entry store.objects objects ∧
      (objects (objectPath (target.key entry).toList)).isSome := by
  unfold putable at puts
  simp only [Bool.and_eq_true, decide_eq_true_eq] at puts
  obtain ⟨⟨⟨digest, checksum⟩, -⟩, -⟩ := puts
  obtain ⟨path, isPath⟩ : ∃ path, path = objectPath (target.key entry).toList := ⟨_, rfl⟩
  rw [← isPath]
  unfold putObjects
  cases found : store.objects path with
  | some existing => exact ⟨keeps_refl _ _, by simp [found]⟩
  | none =>
    refine ⟨⟨?_, ?_⟩, by simp⟩
    · intro other content known
      have apart : other ≠ path := by
        rintro rfl
        rw [found] at known
        cases known
      exact (Function.update_of_ne apart ..).trans known
    · intro other content known
      by_cases same : other = path
      · rw [same] at known
        have own : some entry.content = some content :=
          (Function.update_self path (some entry.content) store.objects).symm.trans known
        exact .inr ⟨same.trans isPath, digest, Option.some.inj own ▸ checksum⟩
      · exact .inl ((Function.update_of_ne same ..).symm.trans known)

/-- An entry whose object is not put, or whose row is not reached, leaves the tables. -/
theorem stores_error {objects : List (List Char) → Option String} {error : RegistrationError}
    (stops : upload.Puts rules target store → upload.record = .before)
    (keeps : Keeps rules target upload.entry store.objects objects) :
    Stores rules target store upload { store with objects } (.error error) where
  releases := rfl
  sourceMaps := by
    rw [if_neg]
    exact fun writes => writes.2.1 (stops writes.1)
  succeeds := by
    refine ⟨nofun, fun all => ?_⟩
    have before := stops all.1
    rw [all.2.1] at before
    cases before
  objects := keeps
  present := nofun

/-- An entry whose object was put is recorded, inserted or refused. -/
theorem stores_record {upload : Upload} {objects : List (List Char) → Option String}
    (puts : upload.Puts rules target store)
    (keeps : Keeps rules target upload.entry store.objects objects)
    (present : (objects (objectPath (target.key upload.entry).toList)).isSome) :
    let called := attempt upload.record { store with objects }
      (recordSourceMap { store with objects } (target.row upload.entry))
    Stores rules target store upload called.1 called.2 := by
  have ways := recordSourceMap_cases { store with objects } (target.row upload.entry)
  have recordable : recorded { store with objects } (target.row upload.entry) =
    recorded store (target.row upload.entry) := rfl
  have insertable : fresh { store with objects } (target.row upload.entry) =
    fresh store (target.row upload.entry) := rfl
  rw [recordable, insertable] at ways
  cases fault : upload.record with
  | before => exact stores_error (fun _ => fault) keeps
  | none =>
    rcases ways with ⟨isRecorded, notFresh, called⟩ | ⟨notRecorded, isFresh, called⟩ |
      ⟨notRecorded, notFresh, error, called⟩
    · rw [called]
      exact ⟨rfl, by simp [attempt, Upload.Writes, notFresh], by simp [attempt, puts, fault, isRecorded],
        keeps, fun _ => present⟩
    · rw [called]
      exact ⟨rfl, by simp [attempt, Upload.Writes, puts, fault, isFresh],
        by simp [attempt, puts, fault, isFresh], keeps, fun _ => present⟩
    · rw [called]
      exact ⟨rfl, by simp [attempt, Upload.Writes, notFresh],
        by simp [attempt, notRecorded, notFresh], keeps, nofun⟩
  | after =>
    rcases ways with ⟨isRecorded, notFresh, called⟩ | ⟨notRecorded, isFresh, called⟩ |
      ⟨notRecorded, notFresh, error, called⟩
    · rw [called]
      exact ⟨rfl, by simp [attempt, Upload.Writes, notFresh], by simp [attempt, fault], keeps, nofun⟩
    · rw [called]
      exact ⟨rfl, by simp [attempt, Upload.Writes, puts, fault, isFresh], by simp [attempt, fault],
        keeps, nofun⟩
    · rw [called]
      exact ⟨rfl, by simp [attempt, Upload.Writes, notFresh], by simp [attempt, fault], keeps, nofun⟩

/-- Storing one entry depends on what can be put and what is recorded. -/
theorem storeMap_stores (store : ReleaseStore) (upload : Upload) :
    Stores rules target store upload (storeMap rules target store upload).1
      (storeMap rules target store upload).2 := by
  have same : Keeps rules target upload.entry store.objects store.objects := keeps_refl ..
  unfold storeMap
  rcases putIfAbsent_cases rules store (target.key upload.entry) upload.entry with
    ⟨puts, outcome, noConflict, called⟩ | ⟨refused, ⟨error, called⟩ | called⟩
  · obtain ⟨keeps, present⟩ := keeps_putObjects puts
    rw [called]
    cases fault : upload.put with
    | before => exact stores_error (by simp [Upload.Puts, fault]) same
    | after => exact stores_error (by simp [Upload.Puts, fault]) keeps
    | none =>
      cases outcome with
      | conflict => exact absurd rfl noConflict
      | created => exact stores_record ⟨fault, puts⟩ keeps present
      | identical => exact stores_record ⟨fault, puts⟩ keeps present
  · have stops : upload.Puts rules target store → upload.record = .before := by
      simp [Upload.Puts, refused]
    rw [called]
    cases upload.put <;> exact stores_error stops same
  · have stops : upload.Puts rules target store → upload.record = .before := by
      simp [Upload.Puts, refused]
    rw [called]
    cases upload.put <;> exact stores_error stops same

/-! ## All entries -/

theorem slash_not_mem_digest {length : Nat} {digest : String} (valid : isDigest length digest) :
    '/' ∉ digest.toList := by
  intro member
  simp only [isDigest, Bool.and_eq_true, List.all_eq_true] at valid
  have hexadecimal := valid.2 '/' member
  revert hexadecimal
  decide

/-- The path of a source map ends with its digest. -/
theorem objectPath_key (plain : '/' ∉ entry.sha256.toList) :
    objectPath (target.key entry).toList =
      objectPath ("source-maps/" ++ target.serviceName ++ "/" ++ target.releaseSha).toList ++
        [entry.sha256.toList ++ ['.', 'm', 'a', 'p']] := by
  have text : (target.key entry).toList =
      ("source-maps/" ++ target.serviceName ++ "/" ++ target.releaseSha).toList ++
        '/' :: (entry.sha256.toList ++ ['.', 'm', 'a', 'p']) := by
    change ("source-maps/" ++ target.serviceName ++ "/" ++ target.releaseSha ++ "/" ++ entry.sha256 ++
      ".map").toList = _
    simp only [String.toList_append, List.append_assoc]
    rfl
  have last : '/' ∉ entry.sha256.toList ++ ['.', 'm', 'a', 'p'] := by
    simp [plain]
  rw [text, objectPath, List.splitOn_append_cons_self, List.splitOn_eq_singleton last,
    List.filter_append, objectPath]
  congr 1
  cases symbols : entry.sha256.toList <;> simp

/-- Whether an object can be put does not depend on the other entries of its release. -/
theorem putable_of_keeps {other : SourceMapEntry}
    (keeps : Keeps rules target entry store.objects next.objects) :
    putable rules next (target.key other) other = putable rules store (target.key other) other := by
  unfold putable
  by_cases digest : isDigest 64 other.sha256
  · congr 1
    rw [Bool.eq_iff_iff, Option.all_eq_true, Option.all_eq_true]
    constructor
    · exact fun every content known => every content (keeps.kept _ _ known)
    · intro every content known
      rcases keeps.added _ _ known with before | ⟨path, own, checksum⟩
      · exact every content before
      · rw [objectPath_key (slash_not_mem_digest digest),
          objectPath_key (slash_not_mem_digest own)] at path
        have last := List.singleton_inj.mp (List.append_cancel_left path)
        have same := String.toList_inj.mp (List.append_cancel_right last)
        rw [decide_eq_true_iff, checksum, same]
  · simp [digest]

theorem Upload.passes_congr (rows : next.sourceMaps = store.sourceMaps)
    (keeps : Keeps rules target entry store.objects next.objects) (upload : Upload) :
    upload.Passes rules target next ↔ upload.Passes rules target store := by
  unfold Passes Puts
  rw [putable_of_keeps keeps, recorded, recorded, sourceMap?, rows]
  rfl

theorem Upload.writes_congr (rows : next.sourceMaps = store.sourceMaps)
    (keeps : Keeps rules target entry store.objects next.objects) (upload : Upload) :
    upload.Writes rules target next ↔ upload.Writes rules target store := by
  unfold Writes Puts
  rw [putable_of_keeps keeps, fresh, fresh, sourceMap?, rows]
  rfl

/-- One entry stored and then the rest, unless it failed. -/
theorem storeMaps_cons (store : ReleaseStore) (upload : Upload) (rest : List Upload) :
    let one := storeMap rules target store upload
    (one.2 = .ok () ∧
        storeMaps rules target store (upload :: rest) = storeMaps rules target one.1 rest) ∨
      ∃ error, one.2 = .error error ∧ storeMaps rules target store (upload :: rest) = one := by
  rcases stored : storeMap rules target store upload with ⟨next, error | value⟩
  · exact .inr ⟨error, rfl, by rw [storeMaps, stored]⟩
  · exact .inl ⟨rfl, by rw [storeMaps, stored]⟩

/-- A later store: every release keeps its id, and the rows and the objects stay. -/
structure Extends (store later : ReleaseStore) : Prop where
  releases : ∀ serviceName releaseSha row, store.release? serviceName releaseSha = some row →
    ∃ other, later.release? serviceName releaseSha = some other ∧ other.id = row.id
  sourceMaps : store.sourceMaps <+: later.sourceMaps
  objects : ∀ path content, store.objects path = some content → later.objects path = some content

theorem Extends.trans {middle later : ReleaseStore} (first : Extends store middle)
    (second : Extends middle later) : Extends store later where
  releases serviceName releaseSha row known := by
    obtain ⟨other, known, same⟩ := first.releases _ _ _ known
    obtain ⟨last, known, same'⟩ := second.releases _ _ _ known
    exact ⟨last, known, same'.trans same⟩
  sourceMaps := first.sourceMaps.trans second.sourceMaps
  objects path content known := second.objects _ _ (first.objects _ _ known)

theorem extends_refl (store : ReleaseStore) : Extends store store :=
  ⟨fun _ _ row known => ⟨row, known, rfl⟩, List.prefix_refl _, fun _ _ known => known⟩

/-- A stored entry extends the store. -/
theorem Stores.extends {result : Except RegistrationError Unit}
    (stores : Stores rules target store upload next result) : Extends store next where
  releases _ _ row known := ⟨row, by rw [release?, stores.releases]; exact known, rfl⟩
  sourceMaps := by
    rw [stores.sourceMaps]
    split
    · exact List.prefix_append _ _
    · exact List.prefix_refl _
  objects := stores.objects.kept

/-- The stored entries extend the store and leave its releases. -/
theorem storeMaps_extends (store : ReleaseStore) (uploads : List Upload) :
    Extends store (storeMaps rules target store uploads).1 ∧
      (storeMaps rules target store uploads).1.releases = store.releases := by
  induction uploads generalizing store with
  | nil => exact ⟨extends_refl store, rfl⟩
  | cons upload rest ih =>
    have stores : Stores rules target store upload _ _ := storeMap_stores store upload
    rcases storeMaps_cons store upload rest with ⟨-, goes⟩ | ⟨error, -, stops⟩
    · obtain ⟨later, releases⟩ := ih (storeMap rules target store upload).1
      rw [goes]
      exact ⟨stores.extends.trans later, releases.trans stores.releases⟩
    · rw [stops]
      exact ⟨stores.extends, stores.releases⟩

/-- The rows stay as they were exactly where every entry that is reached over recorded ones does not
write its own. -/
theorem storeMaps_unchanged_iff (store : ReleaseStore) (uploads : List Upload) :
    (storeMaps rules target store uploads).1.sourceMaps = store.sourceMaps ↔
      ∀ before upload after, uploads = before ++ upload :: after →
        (∀ earlier ∈ before, earlier.Passes rules target store) →
          ¬upload.Writes rules target store := by
  induction uploads generalizing store with
  | nil =>
    refine ⟨fun _ before upload after empty => ?_, fun _ => rfl⟩
    exact absurd empty.symm (by simp)
  | cons upload rest ih =>
    have stores : Stores rules target store upload _ _ := storeMap_stores store upload
    by_cases writes : upload.Writes rules target store
    · have longer := stores.sourceMaps
      rw [if_pos writes] at longer
      refine ⟨fun same => ?_, fun every => absurd writes (every [] upload rest rfl nofun)⟩
      have grown : (storeMap rules target store upload).1.sourceMaps <+:
          (storeMaps rules target store (upload :: rest)).1.sourceMaps := by
        rcases storeMaps_cons store upload rest with ⟨-, goes⟩ | ⟨error, -, stops⟩
        · rw [goes]
          exact (storeMaps_extends _ rest).1.sourceMaps
        · exact stops ▸ List.prefix_refl _
      have length := grown.length_le
      rw [same, longer, List.length_append, List.length_singleton] at length
      omega
    · have same := stores.sourceMaps
      rw [if_neg writes] at same
      rcases storeMaps_cons store upload rest with ⟨succeeds, goes⟩ | ⟨error, fails, stops⟩
      · obtain ⟨puts, record, able⟩ := stores.succeeds.mp succeeds
        have isRecorded := able.resolve_right fun new => writes ⟨puts, by rw [record]; decide, new⟩
        have congr := Upload.passes_congr same stores.objects
        have congr' := Upload.writes_congr same stores.objects
        rw [goes, ← same, ih]
        simp only [congr, congr']
        constructor
        · intro every before later after split earlier
          cases before with
          | nil =>
            obtain ⟨rfl, -⟩ := List.cons.inj split
            exact writes
          | cons first before =>
            obtain ⟨rfl, tail⟩ := List.cons.inj split
            exact every before later after tail fun one member => earlier one (.tail _ member)
        · intro every before later after split earlier
          refine every (upload :: before) later after (by rw [split]; rfl) fun one member => ?_
          rcases List.mem_cons.mp member with rfl | member
          · exact ⟨puts, record, isRecorded⟩
          · exact earlier one member
      · rw [stops]
        refine ⟨fun _ before later after split earlier => ?_, fun _ => same⟩
        cases before with
        | nil =>
          obtain ⟨rfl, -⟩ := List.cons.inj split
          exact writes
        | cons first before =>
          obtain ⟨rfl, -⟩ := List.cons.inj split
          obtain ⟨puts, record, able⟩ := earlier upload (.head _)
          have succeeds := stores.succeeds.mpr ⟨puts, record, .inl able⟩
          rw [fails] at succeeds
          cases succeeds

end Maps

/-! ## A registration -/

section Registrations

variable (rules : ReleaseRules) (store : ReleaseStore) (call : Registration)

/-- Whether the release row can be written. -/
def upsertable : Bool :=
  !(hasNul call.manifest.serviceName || hasNul call.manifest.buildId) &&
    ((store.release? call.manifest.serviceName call.manifest.lowerSha).isSome ||
      !store.releases.any fun row => row.id = call.newId)

/-- The release of a call, with the id of its row. -/
def targetOf : Target where
  serviceName := call.manifest.serviceName
  releaseSha := call.manifest.lowerSha
  releaseId := ((store.release? call.manifest.serviceName call.manifest.lowerSha).map
    ReleaseRow.id).getD call.newId

/-- The release row is there with the build and the time of the manifest. -/
def Current (manifest : ReleaseManifest) : Prop :=
  (∃ row ∈ store.releases, row.isOf manifest.serviceName manifest.lowerSha = true) ∧
    ∀ row ∈ store.releases, row.isOf manifest.serviceName manifest.lowerSha = true →
      row.buildId = manifest.buildId ∧ rules.parseDate manifest.deployedAt = some row.deployedAt

/-- The registration fails before the release row is written. -/
def NotBegun : Prop :=
  (∃ error, validate rules call.manifest = .error error) ∨ call.upsert = .before ∨
    upsertable store call = false

/-- The registration finds the release row as it would write it, and does not reach over recorded entries
one that it writes. -/
def NothingNew : Prop :=
  Current rules store call.manifest ∧
    (call.upsert = .after ∨
      ∀ before upload after, call.uploads = before ++ upload :: after →
        (∀ earlier ∈ before, earlier.Passes rules (targetOf store call) store) →
          ¬upload.Writes rules (targetOf store call) store)

def Untouched (before after : ReleaseStore) : Prop :=
  after.releases = before.releases ∧ after.sourceMaps = before.sourceMaps

/-- No two rows have one id or are one release. -/
def ReleaseStore.UniqueReleases : Prop :=
  store.releases.Pairwise fun row other =>
    row.id ≠ other.id ∧ (row.serviceName = other.serviceName → row.releaseSha ≠ other.releaseSha)

/-- The releases after the row of a call was written. -/
structure Upserted (releases : List ReleaseRow) : Prop where
  extends' : Extends store { store with releases }
  own : ∃ row, ({ store with releases } : ReleaseStore).release? call.manifest.serviceName
    call.manifest.lowerSha = some row ∧ row.id = (targetOf store call).releaseId
  unique : store.UniqueReleases → ({ store with releases } : ReleaseStore).UniqueReleases
  current : releases = store.releases ↔ Current rules store call.manifest

variable {rules store call} {row : ReleaseRow} {deployedAt : Int}

/-- A row that is written in place keeps what tells it. -/
theorem upserted_map
    (found : store.release? call.manifest.serviceName call.manifest.lowerSha = some row)
    (date : rules.parseDate call.manifest.deployedAt = some deployedAt) :
    Upserted rules store call (store.releases.map fun other =>
      if other.isOf call.manifest.serviceName call.manifest.lowerSha then
        { other with buildId := call.manifest.buildId, deployedAt } else other) := by
  obtain ⟨change, isChange⟩ : ∃ change, change = fun other : ReleaseRow =>
    if other.isOf call.manifest.serviceName call.manifest.lowerSha then
      { other with buildId := call.manifest.buildId, deployedAt } else other := ⟨_, rfl⟩
  have keeps (other : ReleaseRow) : (change other).id = other.id ∧
      (change other).serviceName = other.serviceName ∧
      (change other).releaseSha = other.releaseSha := by
    rw [isChange]
    dsimp only
    split <;> exact ⟨rfl, rfl, rfl⟩
  have finds (serviceName releaseSha : String) :
      ((store.releases.map change).find? fun other => other.isOf serviceName releaseSha) =
        (store.release? serviceName releaseSha).map change := by
    rw [List.find?_map, release?]
    congr 2
    funext other
    rw [Function.comp, ReleaseRow.isOf, ReleaseRow.isOf, (keeps other).2.1, (keeps other).2.2]
  have isOwn := List.find?_some found
  rw [← isChange]
  refine ⟨⟨?_, List.prefix_refl _, fun _ _ known => known⟩, ⟨change row, ?_, ?_⟩, ?_, ?_⟩
  · intro serviceName releaseSha other known
    exact ⟨change other, (finds ..).trans (by rw [known]; rfl), (keeps other).1⟩
  · exact (finds ..).trans (by rw [found]; rfl)
  · rw [targetOf, found]
    exact (keeps row).1
  · intro unique
    refine List.pairwise_map.mpr (List.Pairwise.imp ?_ unique)
    intro one two apart
    rw [(keeps one).1, (keeps two).1, (keeps one).2.1, (keeps two).2.1, (keeps one).2.2,
      (keeps two).2.2]
    exact apart
  · have unchanged : store.releases.map change = store.releases.map id ↔ _ := List.map_inj_left
    rw [List.map_id] at unchanged
    rw [unchanged, Current, date, isChange]
    constructor
    · intro every
      refine ⟨⟨row, List.mem_of_find?_eq_some found, isOwn⟩, fun other known own => ?_⟩
      have same := every other known
      dsimp only at same
      rw [if_pos own] at same
      have build := congrArg ReleaseRow.buildId same
      have time := congrArg ReleaseRow.deployedAt same
      exact ⟨build.symm, congrArg some time⟩
    · rintro ⟨-, every⟩ other known
      dsimp only
      split
      · next own =>
        obtain ⟨build, time⟩ := every other known own
        rw [← build, Option.some.inj time]
        rfl
      · rfl

/-- A row that is added is of no release before. -/
theorem upserted_append
    (none' : store.release? call.manifest.serviceName call.manifest.lowerSha = none)
    (free : (store.releases.any fun row => row.id = call.newId) = false) (id : row.id = call.newId)
    (service : row.serviceName = call.manifest.serviceName)
    (sha : row.releaseSha = call.manifest.lowerSha) :
    Upserted rules store call (store.releases ++ [row]) := by
  have other (known : ReleaseRow) (member : known ∈ store.releases) :
      ¬known.isOf call.manifest.serviceName call.manifest.lowerSha = true :=
    List.find?_eq_none.mp none' known member
  have own : row.isOf call.manifest.serviceName call.manifest.lowerSha := by
    simp [ReleaseRow.isOf, service, sha]
  refine ⟨⟨?_, List.prefix_refl _, fun _ _ known => known⟩, ⟨row, ?_, ?_⟩, ?_, ?_⟩
  · intro serviceName releaseSha found known
    exact ⟨found, List.find?_append.trans (by
      rw [← release?, known]; rfl), rfl⟩
  · refine List.find?_append.trans ?_
    rw [← release?, none', List.find?_singleton, if_pos own]
    rfl
  · rw [targetOf, none', id]
    rfl
  · intro unique
    refine List.pairwise_append.mpr ⟨unique, List.pairwise_singleton .., ?_⟩
    intro known member last isRow
    rw [List.mem_singleton.mp isRow]
    refine ⟨fun same => ?_, fun services shas => other known member ?_⟩
    · exact List.any_eq_false.mp free known member (by simp [same, id])
    · simp [ReleaseRow.isOf, services, shas, service, sha]
  · refine ⟨fun same => absurd same (by simp), ?_⟩
    rintro ⟨⟨known, member, isOf⟩, -⟩
    exact absurd isOf (other known member)

/-- The release row is written, or the database refuses it. -/
theorem upsertRelease_cases (date : rules.parseDate call.manifest.deployedAt = some deployedAt) :
    (upsertable store call ∧ ∃ releases, Upserted rules store call releases ∧
        upsertRelease store call.newId call.manifest.serviceName call.manifest.lowerSha
            call.manifest.buildId deployedAt =
          .ok ({ store with releases }, (targetOf store call).releaseId)) ∨
      (upsertable store call = false ∧ ∃ error,
        upsertRelease store call.newId call.manifest.serviceName call.manifest.lowerSha
          call.manifest.buildId deployedAt = .error error) := by
  unfold upsertable upsertRelease targetOf
  cases texts : hasNul call.manifest.serviceName || hasNul call.manifest.buildId with
  | true => exact .inr ⟨rfl, _, rfl⟩
  | false =>
    cases found : store.release? call.manifest.serviceName call.manifest.lowerSha with
    | some row => exact .inl ⟨rfl, _, upserted_map found date, rfl⟩
    | none =>
      cases taken : store.releases.any fun row => row.id = call.newId with
      | true => exact .inr ⟨rfl, _, rfl⟩
      | false => exact .inl ⟨rfl, _, upserted_append found taken rfl rfl rfl, rfl⟩

/-- A valid manifest has a date. -/
theorem date_of_validate {manifest : ReleaseManifest}
    (valid : validate rules manifest = .ok deployedAt) :
    rules.parseDate manifest.deployedAt = some deployedAt := by
  unfold validate at valid
  split at valid
  · cases valid
  · split at valid
    · cases valid
    · next date =>
      split at valid
      · cases valid
      · obtain ⟨-, -, rfl⟩ := Fallible.map_ok valid
        exact date

/-- How a registration goes: it does not begin, or its row is written, and then its entries are stored
unless its call failed after that. -/
inductive Outcome (rules : ReleaseRules) (store : ReleaseStore) (call : Registration) : Prop where
  | stopped (notBegun : NotBegun rules store call) (error : RegistrationError)
      (ended : registerRelease rules store call = (store, .error error))
  | interrupted (begun : ¬NotBegun rules store call) (fault : call.upsert = .after)
      (releases : List ReleaseRow) (written : Upserted rules store call releases)
      (error : RegistrationError)
      (ended : registerRelease rules store call = ({ store with releases }, .error error))
  | begun (begun : ¬NotBegun rules store call) (fault : call.upsert = .none)
      (releases : List ReleaseRow) (written : Upserted rules store call releases)
      (ended :
        let stored := storeMaps rules (targetOf store call) { store with releases } call.uploads
        registerRelease rules store call =
          (stored.1, stored.2.map fun _ => (targetOf store call).releaseId))

/-- Every registration goes one of these ways. -/
theorem registerRelease_outcome (rules : ReleaseRules) (store : ReleaseStore) (call : Registration) :
    Outcome rules store call := by
  cases valid : validate rules call.manifest with
  | error error =>
    refine .stopped (.inl ⟨error, valid⟩) error ?_
    rw [registerRelease, valid]
  | ok deployedAt =>
    cases fault : call.upsert with
    | before =>
      refine .stopped (.inr (.inl fault)) .unavailable ?_
      rw [registerRelease, valid]
      simp only [fault, attempt]
    | after =>
      rcases upsertRelease_cases (date_of_validate valid) with
        ⟨upserts, releases, written, called⟩ | ⟨refused, error, called⟩
      · refine .interrupted ?_ fault releases written .unavailable ?_
        · simp [NotBegun, valid, fault, upserts]
        · rw [registerRelease, valid]
          simp only [fault, attempt, called]
      · refine .stopped (.inr (.inr refused)) error ?_
        rw [registerRelease, valid]
        simp only [fault, attempt, called]
    | none =>
      rcases upsertRelease_cases (date_of_validate valid) with
        ⟨upserts, releases, written, called⟩ | ⟨refused, error, called⟩
      · refine .begun ?_ fault releases written ?_
        · simp [NotBegun, valid, fault, upserts]
        · rw [registerRelease, valid]
          simp only [fault, attempt, called]
          unfold targetOf
          generalize storeMaps rules _ { store with releases } call.uploads = stored
          obtain ⟨next, result⟩ := stored
          cases result with
          | error error => rfl
          | ok value => rfl
      · refine .stopped (.inr (.inr refused)) error ?_
        rw [registerRelease, valid]
        simp only [fault, attempt, called]

/-- A registration leaves the tables exactly where it did not begin or had nothing new to write. -/
theorem untouched_iff :
    Untouched store (registerRelease rules store call).1 ↔
      NotBegun rules store call ∨ NothingNew rules store call := by
  unfold Untouched
  rcases registerRelease_outcome rules store call with ⟨notBegun, error, ended⟩ |
    ⟨begun, fault, releases, written, error, ended⟩ | ⟨begun, fault, releases, written, ended⟩
  · rw [ended]
    exact ⟨fun _ => .inl notBegun, fun _ => ⟨rfl, rfl⟩⟩
  · rw [ended, written.current]
    simp [begun, NothingNew, fault]
  · have keeps : (storeMaps rules (targetOf store call) { store with releases } call.uploads).1.releases =
        releases := (storeMaps_extends _ _).2
    have unchanged : (storeMaps rules (targetOf store call) { store with releases }
        call.uploads).1.sourceMaps = store.sourceMaps ↔ _ := storeMaps_unchanged_iff _ _
    rw [ended, keeps, unchanged, written.current]
    constructor
    · exact fun ⟨current, nothing⟩ => .inr ⟨current, .inr nothing⟩
    · rintro (notBegun | ⟨current, interrupted | nothing⟩)
      · exact absurd notBegun begun
      · rw [fault] at interrupted
        cases interrupted
      · exact ⟨current, nothing⟩

end Registrations

end NancyMan.Releases
