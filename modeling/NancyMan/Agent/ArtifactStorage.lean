import Mathlib.Data.List.Basic

/-!
# Encrypted artifacts and their index

A directory holds the encrypted artifacts of drafts, staged changes or snapshots, one file for each
identifier, and an index with their metadata. Every change of the index is one of two updates: a saved
artifact replaces the entry of its identifier, and removed artifacts lose theirs. The directories
are independent; this is any one of them.
-/
namespace NancyMan.Agent

inductive ArtifactKind where
  | draft
  | staged
  | snapshot
deriving DecidableEq, Repr

inductive ArtifactRetention where
  | normal
  | rollbackFailed
deriving DecidableEq, Repr

/-- An entry of an index. Instants are milliseconds. -/
structure ArtifactIndexEntry where
  id : String
  kind : ArtifactKind
  changeId : String
  appId : String
  catalogVersion : String
  manifestVersion : String
  createdAt : Int
  expiresAt : Int
  retention : ArtifactRetention
deriving DecidableEq, Repr

namespace ArtifactIndexEntry

def isExpired (entry : ArtifactIndexEntry) (now : Int) : Bool := entry.expiresAt ≤ now

def eligible (kind : ArtifactKind) (entry : ArtifactIndexEntry) : Bool :=
  entry.kind = kind && (kind != .snapshot || entry.retention = .normal)

end ArtifactIndexEntry

/-! ## Index updates -/

/-- A change of an index: `writeValue` saves an entry, `deleteValue` and the removal of expired
artifacts remove identifiers. -/
inductive IndexUpdate where
  | save (entry : ArtifactIndexEntry)
  | remove (ids : List String)
deriving DecidableEq, Repr

namespace IndexUpdate

/-- The identifiers that an update is about. -/
def ids : IndexUpdate → List String
  | .save entry => [entry.id]
  | .remove ids => ids

/-- The entries that an update adds. -/
def added : IndexUpdate → List ArtifactIndexEntry
  | .save entry => [entry]
  | .remove _ => []

/-- An index after an update. -/
def apply (entries : List ArtifactIndexEntry) : IndexUpdate → List ArtifactIndexEntry
  | .save entry => (entries.filter fun other => other.id ≠ entry.id) ++ [entry]
  | .remove ids => entries.filter fun entry => entry.id ∉ ids

variable {update : IndexUpdate} {entry : ArtifactIndexEntry}

theorem mem_apply {entries : List ArtifactIndexEntry} :
    entry ∈ update.apply entries ↔
      (entry ∈ entries ∧ entry.id ∉ update.ids) ∨ entry ∈ update.added := by
  cases update with
  | save saved => simp [apply, ids, added]
  | remove removed => simp [apply, ids, added]

theorem id_of_mem_added (member : entry ∈ update.added) : entry.id ∈ update.ids := by
  cases update with
  | save saved =>
    rw [List.mem_singleton.mp member]
    exact .head _
  | remove removed => cases member

variable (initial : List ArtifactIndexEntry)

/-- What an index lists after some updates: what one of them saved, or what was listed before, and no
later one removed or replaced. -/
def Listed (updates : List IndexUpdate) (entry : ArtifactIndexEntry) : Prop :=
  (∃ before update later, updates = before ++ update :: later ∧ entry ∈ update.added ∧
      ∀ other ∈ later, entry.id ∉ other.ids) ∨
    (entry ∈ initial ∧ ∀ update ∈ updates, entry.id ∉ update.ids)

/-- What is listed after one more update is what that one adds, and what was listed before of other
identifiers. -/
theorem listed_snoc (updates : List IndexUpdate) (last : IndexUpdate) (entry : ArtifactIndexEntry) :
    Listed initial (updates ++ [last]) entry ↔
      (Listed initial updates entry ∧ entry.id ∉ last.ids) ∨ entry ∈ last.added := by
  constructor
  · rintro (⟨before, update, later, split, saved, kept⟩ | ⟨first, kept⟩)
    · rcases List.eq_nil_or_concat' later with rfl | ⟨front, other, rfl⟩
      · obtain ⟨-, same⟩ := List.append_inj' split rfl
        obtain rfl : last = update := List.singleton_inj.mp same
        exact .inr saved
      · rw [← List.cons_append, ← List.append_assoc] at split
        obtain ⟨earlier, same⟩ := List.append_inj' split rfl
        obtain rfl : last = other := List.singleton_inj.mp same
        refine .inl ⟨.inl ⟨before, update, front, earlier, saved, fun other member => ?_⟩, ?_⟩
        · exact kept other (List.mem_append_left _ member)
        · exact kept last (List.mem_append_right _ (List.mem_singleton_self last))
    · refine .inl ⟨.inr ⟨first, fun update member => ?_⟩, ?_⟩
      · exact kept update (List.mem_append_left _ member)
      · exact kept last (List.mem_append_right _ (List.mem_singleton_self last))
  · rintro (⟨⟨before, update, later, split, saved, kept⟩ | ⟨first, kept⟩, apart⟩ | saved)
    · refine .inl ⟨before, update, later ++ [last], ?_, saved, ?_⟩
      · rw [split, List.append_assoc, List.cons_append]
      · intro other member
        rcases List.mem_append.mp member with earlier | now
        · exact kept other earlier
        · rw [List.mem_singleton.mp now]
          exact apart
    · refine .inr ⟨first, fun update member => ?_⟩
      rcases List.mem_append.mp member with earlier | now
      · exact kept update earlier
      · rw [List.mem_singleton.mp now]
        exact apart
    · exact .inl ⟨updates, last, [], rfl, saved, nofun⟩

end IndexUpdate

/-! ## Directories -/

/-- A directory: the encrypted files under their identifiers, the temporary files that writes have
not renamed yet, and the index. -/
structure ArtifactDirectory (β : Type) where
  files : List (String × β) := []
  temporaries : List (String × β) := []
  index : List ArtifactIndexEntry := []
deriving DecidableEq, Repr

namespace ArtifactDirectory

variable {β : Type} (directory : ArtifactDirectory β)

def file (id : String) : Option β :=
  (directory.files.find? fun file => file.1 = id).map Prod.snd

variable (id : String)

def withFile (artifact : β) : ArtifactDirectory β :=
  { directory with files := (directory.files.filter fun file => file.1 ≠ id) ++ [(id, artifact)] }

def withoutFile : ArtifactDirectory β :=
  { directory with files := directory.files.filter fun file => file.1 ≠ id }

variable (entries : List ArtifactIndexEntry)

def withIndex : ArtifactDirectory β :=
  { directory with index := entries }

/-- The identifiers of the entries that a removal of expired artifacts takes. -/
def expiredIds (kind : ArtifactKind) (now : Int) : List String :=
  (directory.index.filter fun entry => entry.eligible kind && entry.isExpired now).map
    ArtifactIndexEntry.id

@[simp] theorem withFile_index (artifact : β) :
    (directory.withFile id artifact).index = directory.index := rfl

@[simp] theorem withoutFile_index : (directory.withoutFile id).index = directory.index := rfl

@[simp] theorem withIndex_index : (directory.withIndex entries).index = entries := rfl

end ArtifactDirectory

end NancyMan.Agent
