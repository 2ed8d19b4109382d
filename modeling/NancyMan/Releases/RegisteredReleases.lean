import NancyMan.Releases.AtomicRegistration

/-!
# Releases that were registered

What an accepted manifest leaves in the stores stays there, whatever is registered later, so that it can
be registered again; that changes nothing exactly where its release row still has its build and time.
-/
namespace NancyMan.Releases

/-- An entry is recorded and its object is there. -/
structure Stored (rules : ReleaseRules) (target : Target) (store : ReleaseStore)
    (entry : SourceMapEntry) : Prop where
  puts : putable rules store (target.key entry) entry = true
  present : (store.objects (objectPath (target.key entry).toList)).isSome
  records : recorded store (target.row entry) = true

/-- A manifest that was accepted: its release row is there, and all of its entries are stored. -/
structure Registered (rules : ReleaseRules) (store : ReleaseStore) (manifest : ReleaseManifest) :
    Prop where
  valid : ∃ deployedAt, validate rules manifest = .ok deployedAt
  texts : (hasNul manifest.serviceName || hasNul manifest.buildId) = false
  entries : ∃ row, store.release? manifest.serviceName manifest.lowerSha = some row ∧
    ∀ entry ∈ manifest.sourceMaps,
      Stored rules ⟨manifest.serviceName, manifest.lowerSha, row.id⟩ store entry

/-- One registration of a run, with its manifest where it is accepted. -/
def register (rules : ReleaseRules) (store : ReleaseStore) (call : Registration) :
    ReleaseStore × List ReleaseManifest :=
  let called := registerRelease rules store call
  (called.1, match called.2 with
    | .ok _ => [call.manifest]
    | .error _ => [])

section Rules

variable {rules : ReleaseRules} {target : Target} {store : ReleaseStore} {later : ReleaseStore}
  {manifest : ReleaseManifest} {uploads : List Upload}

/-- What is recorded stays so when rows are added. -/
theorem recorded_of_prefix {row : SourceMapRow} (grown : store.sourceMaps <+: later.sourceMaps)
    (known : recorded store row) : recorded later row := by
  obtain ⟨more, whole⟩ := grown
  unfold recorded ReleaseStore.sourceMap? at known ⊢
  rw [← whole, List.find?_append]
  cases found : store.sourceMaps.find? fun other => other.isOf row.releaseId row.generatedFile with
  | none =>
    rw [found] at known
    simp at known
  | some existing =>
    rw [found] at known
    exact known

/-- What is stored stays so. -/
theorem Stored.extends {entry : SourceMapEntry} (stored : Stored rules target store entry)
    (grown : Extends store later) : Stored rules target later entry := by
  obtain ⟨puts, present, records⟩ := stored
  obtain ⟨content, known⟩ := Option.isSome_iff_exists.mp present
  have same := grown.objects _ _ known
  refine ⟨?_, by rw [same]; rfl, recorded_of_prefix grown.sourceMaps records⟩
  rw [putable, known] at puts
  rw [putable, same]
  exact puts

/-- What is registered stays so. -/
theorem Registered.extends (registered : Registered rules store manifest)
    (grown : Extends store later) : Registered rules later manifest := by
  obtain ⟨row, known, every⟩ := registered.entries
  obtain ⟨other, found, same⟩ := grown.releases _ _ _ known
  refine ⟨registered.valid, registered.texts, other, found, fun entry member => ?_⟩
  rw [same]
  exact (every entry member).extends grown

/-- An entry whose calls succeed is stored then. -/
theorem Stores.stored {next : ReleaseStore} {upload : Upload}
    (stores : Stores rules target store upload next (.ok ())) :
    Stored rules target next upload.entry := by
  obtain ⟨⟨put, puts⟩, record, able⟩ := stores.succeeds.mp rfl
  refine ⟨(putable_of_keeps stores.objects).trans puts, stores.present rfl, ?_⟩
  rcases able with isRecorded | isFresh
  · exact recorded_of_prefix stores.extends.sourceMaps isRecorded
  · have rows := stores.sourceMaps
    rw [if_pos ⟨⟨put, puts⟩, by rw [record]; decide, isFresh⟩] at rows
    simp only [fresh, Bool.and_eq_true, Option.isNone_iff_eq_none] at isFresh
    have own : (target.row upload.entry).isOf (target.row upload.entry).releaseId
        (target.row upload.entry).generatedFile = true := by
      simp [SourceMapRow.isOf]
    have found := isFresh.1.2
    unfold ReleaseStore.sourceMap? at found
    rw [recorded, ReleaseStore.sourceMap?, rows, List.find?_append, found, isFresh.1.1,
      List.find?_singleton, if_pos own]
    simp

/-- Entries whose calls all succeed are stored then. -/
theorem storeMaps_stored (succeeds : (storeMaps rules target store uploads).2 = .ok ()) :
    ∀ upload ∈ uploads, Stored rules target (storeMaps rules target store uploads).1 upload.entry := by
  induction uploads generalizing store with
  | nil => exact nofun
  | cons upload rest ih =>
    have stores : Stores rules target store upload _ _ := storeMap_stores store upload
    rcases storeMaps_cons store upload rest with ⟨done, goes⟩ | ⟨error, fails, stops⟩
    · rw [goes] at succeeds ⊢
      rw [done] at stores
      intro other member
      rcases List.mem_cons.mp member with rfl | member
      · exact stores.stored.extends (storeMaps_extends _ rest).1
      · exact ih succeeds other member
    · rw [stops, fails] at succeeds
      cases succeeds

/-- Entries that are stored can be stored again, which changes nothing. -/
theorem storeMaps_of_stored
    (stored : ∀ upload ∈ uploads, upload.put = .none ∧ upload.record = .none ∧
      Stored rules target store upload.entry) :
    storeMaps rules target store uploads = (store, .ok ()) := by
  induction uploads with
  | nil => rfl
  | cons upload rest ih =>
    obtain ⟨put, record, puts, present, records⟩ := stored upload (.head _)
    have one : storeMap rules target store upload = (store, .ok ()) := by
      have same : putObjects store (objectPath (target.key upload.entry).toList)
          upload.entry.content = store.objects := by
        obtain ⟨content, known⟩ := Option.isSome_iff_exists.mp present
        rw [putObjects, known]
      rcases putIfAbsent_cases rules store (target.key upload.entry) upload.entry with
        ⟨-, outcome, noConflict, called⟩ | ⟨refused, -⟩
      · rw [same] at called
        rcases recordSourceMap_cases store (target.row upload.entry) with
          ⟨-, -, recordCalled⟩ | ⟨notRecorded, -⟩ | ⟨notRecorded, -⟩
        · cases outcome with
          | conflict => exact absurd rfl noConflict
          | created => simp [storeMap, put, record, attempt, called, recordCalled]
          | identical => simp [storeMap, put, record, attempt, called, recordCalled]
        · rw [records] at notRecorded
          cases notRecorded
        · rw [records] at notRecorded
          cases notRecorded
      · rw [puts] at refused
        cases refused
    rw [storeMaps, one]
    exact ih fun other member => stored other (.tail _ member)

/-- A registration extends the store. -/
theorem registerRelease_extends (rules : ReleaseRules) (store : ReleaseStore) (call : Registration) :
    Extends store (registerRelease rules store call).1 := by
  rcases registerRelease_outcome rules store call with ⟨-, error, ended⟩ |
    ⟨-, -, releases, written, error, ended⟩ | ⟨-, -, releases, written, ended⟩
  · rw [ended]
    exact extends_refl store
  · rw [ended]
    exact written.extends'
  · rw [ended]
    exact written.extends'.trans (storeMaps_extends _ _).1

theorem entries_uploads (call : Registration) :
    call.uploads.map Upload.entry = call.manifest.sourceMaps := by
  rw [Registration.uploads, List.map_map]
  exact List.zipIdx_map_fst 0 call.manifest.sourceMaps

/-- An accepted manifest is registered. -/
theorem registered_of_ok {call : Registration} {releaseId : String}
    (accepted : (registerRelease rules store call).2 = .ok releaseId) :
    Registered rules (registerRelease rules store call).1 call.manifest := by
  rcases registerRelease_outcome rules store call with ⟨-, error, ended⟩ |
    ⟨-, -, releases, written, error, ended⟩ | ⟨begun, -, releases, written, ended⟩
  · rw [ended] at accepted
    cases accepted
  · rw [ended] at accepted
    cases accepted
  · simp only [NotBegun, not_or, not_exists] at begun
    obtain ⟨valid, -, upserts⟩ := begun
    rw [ended] at accepted ⊢
    obtain ⟨done, succeeds, -⟩ := Fallible.map_ok accepted
    obtain ⟨row, found, own⟩ := written.own
    have same : (storeMaps rules (targetOf store call) { store with releases }
      call.uploads).1.releases = releases := (storeMaps_extends _ _).2
    refine ⟨?_, ?_, row, ?_, ?_⟩
    · cases validated : validate rules call.manifest with
      | error error => exact absurd validated (valid error)
      | ok deployedAt => exact ⟨deployedAt, rfl⟩
    · rw [Bool.not_eq_false, upsertable, Bool.and_eq_true, Bool.not_eq_true'] at upserts
      exact upserts.1
    · rw [ReleaseStore.release?, same]
      exact found
    · intro entry member
      have entries : call.uploads.map Upload.entry = call.manifest.sourceMaps := entries_uploads call
      rw [← entries] at member
      obtain ⟨upload, isUpload, rfl⟩ := List.mem_map.mp member
      have stored := storeMaps_stored succeeds upload isUpload
      rw [own]
      exact stored

/-- What a run registers later keeps what is registered, and what it accepts is registered at its
end. -/
theorem registered_of_accepted {start : ReleaseStore} (history : List Registration) :
    Extends start (Machine.after (register rules) start history) ∧
      ∀ manifest ∈ Machine.outputs (register rules) start history,
        Registered rules (Machine.after (register rules) start history) manifest := by
  induction history generalizing start with
  | nil => exact ⟨extends_refl start, nofun⟩
  | cons call rest ih =>
    have first : Extends start (register rules start call).1 := registerRelease_extends rules start call
    have others : Extends (register rules start call).1 _ ∧ ∀ manifest ∈ _, _ := ih
    obtain ⟨later, every⟩ := others
    refine ⟨first.trans later, fun manifest member => ?_⟩
    rcases List.mem_append.mp member with own | member
    · unfold register at own
      dsimp only at own
      split at own
      · next releaseId accepted =>
        rw [List.mem_singleton.mp own]
        exact (registered_of_ok accepted).extends later
      · cases own
    · exact every manifest member

/-! ## Registered again -/

def again (manifest : ReleaseManifest) (newId : String) : Registration :=
  ⟨manifest, newId, .none, fun _ => .none, fun _ => .none⟩

/-- A registered manifest can be registered again, which writes its release row at most. -/
theorem registerRelease_again (registered : Registered rules store manifest) (newId : String) :
    ∃ releases releaseId, Upserted rules store (again manifest newId) releases ∧
      registerRelease rules store (again manifest newId) =
        ({ store with releases }, .ok releaseId) := by
  obtain ⟨⟨deployedAt, valid⟩, texts, row, known, every⟩ := registered
  have upserts : upsertable store (again manifest newId) := by
    simp [upsertable, again, texts, known]
  have target : targetOf store (again manifest newId) =
      ⟨manifest.serviceName, manifest.lowerSha, row.id⟩ := by
    simp [targetOf, again, known]
  rcases registerRelease_outcome rules store (again manifest newId) with ⟨notBegun, -, -⟩ |
    ⟨-, fault, -⟩ | ⟨-, -, releases, written, ended⟩
  · rcases notBegun with ⟨error, fails⟩ | fault | refused
    · rw [show (again manifest newId).manifest = manifest from rfl, valid] at fails
      cases fails
    · cases fault
    · rw [upserts] at refused
      cases refused
  · cases fault
  · have stored : ∀ upload ∈ (again manifest newId).uploads, upload.put = .none ∧
        upload.record = .none ∧
        Stored rules (targetOf store (again manifest newId)) { store with releases }
          upload.entry := by
      intro upload member
      have entry : upload.entry ∈ manifest.sourceMaps := by
        have entries := entries_uploads (again manifest newId)
        rw [show (again manifest newId).manifest = manifest from rfl] at entries
        rw [← entries]
        exact List.mem_map_of_mem member
      obtain ⟨place, -, rfl⟩ := List.mem_map.mp member
      rw [target]
      exact ⟨rfl, rfl, (every _ entry).extends written.extends'⟩
    exact ⟨releases, _, written, ended.trans (by rw [storeMaps_of_stored stored]; rfl)⟩

end Rules

/-- A first registration of one map in a folder: the service takes its name, which the table refuses. -/
def nestedAsset : Registration :=
  again
    { serviceName := "teacher-web"
      releaseSha := "0123456789abcdef0123456789abcdef01234567"
      buildId := "build-7"
      deployedAt := "2026-07-01T00:00:00Z"
      sourceMaps := [⟨"assets/app.js", "\x7b\x7d",
        "44136fa355b3678a1146ad16f7e8649e94fb4fc21fe77e8310c060f61caaff8a"⟩] }
    "release-1"

/-- The digest and the time of the texts in `nestedAsset`. -/
def nestedAssetRules : ReleaseRules where
  sha256 _ := "44136fa355b3678a1146ad16f7e8649e94fb4fc21fe77e8310c060f61caaff8a"
  parseDate _ := some 1782864000000

end NancyMan.Releases
