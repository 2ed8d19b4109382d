import NancyMan.Audit.Ledger
import NancyMan.Lib.HashLinks
import NancyMan.Lib.Lines

/-!
# The ledger is one chain

Whatever the order of their statements, the transactions of the ledger leave a single chain: the
lock is held from before the head is read until the entry is committed, so that the head is still
the last entry then. The hash of an entry says what the table holds of it, and where no two texts
collide the last hash of a ledger of known length says all of its entries.
-/
namespace NancyMan.Audit

open AuditEntry AuditLedger
open List (map_append mem_append mem_map mem_singleton)
open Function (update_of_ne update_self)

open Json (canonicalValue)

/-- A text, or null, as a value. -/
def textJson : Option String → Json
  | none => .null
  | some text => .string text

namespace AuditEntry

/-- The payload of an entry, from what the table holds. -/
def payload (entry : AuditEntry) : Json :=
  .object [("id", .string entry.id), ("occurredAt", .string entry.occurredAt),
    ("actorUserId", textJson entry.actorUserId), ("action", .string entry.action),
    ("subjectType", .string entry.subjectType), ("subjectId", textJson entry.subjectId),
    ("requestId", textJson entry.requestId), ("ipHash", textJson entry.ipHash),
    ("metadata", entry.metadata)]

def text (entry : AuditEntry) : String :=
  entry.previousHash.getD "ROOT" ++ "\n" ++ entry.payload.canonicalValue.render

/-- An entry with the hash of its text, after none or a digest, and with metadata in the order of
`jsonb`. -/
structure Sealed (hash : String → String) (entry : AuditEntry) : Prop where
  hashed : entry.entryHash = hash entry.text
  digest : entry.previousHash.all isDigest = true
  ordered : entry.metadata.canonicalValue = entry.metadata

end AuditEntry

def IsChain (entries : List AuditEntry) : Prop :=
  HashLinks.Linked AuditEntry.previousHash AuditEntry.entryHash none entries

def CollisionFree (hash : String → String) (texts : List String) : Prop :=
  ∀ left ∈ texts, ∀ right ∈ texts, hash left = hash right → left = right

/-! ## One entry -/

@[simp] theorem json_ofText (text : Option String) :
    (AuditValue.ofText text).json? = some (textJson text) := by
  cases text <;> rfl

@[simp] theorem distinctNames_textJson (text : Option String) : (textJson text).distinctNames := by
  cases text <;> rfl

@[simp] theorem canonicalValue_textJson (text : Option String) :
    (textJson text).canonicalValue = textJson text := by
  cases text <;> simp [textJson, canonicalValue]

theorem textJson_injective : Function.Injective textJson := by
  intro left right same
  cases left <;> cases right <;> simp_all [textJson]

theorem canonicalValue_payload (entry : AuditEntry) (metadata : Json)
    (same : metadata.canonicalValue = entry.metadata.canonicalValue) :
    { entry with metadata := metadata }.payload.canonicalValue = entry.payload.canonicalValue := by
  unfold payload
  simp only [canonicalValue, Json.canonicalProperties, same]

theorem payload_said (call : AppendCall) :
    call.payload.json? = (AuditValue.record call.input.metadata.properties).json?.map fun json =>
      { call.entry none "" with metadata := json }.payload := by
  unfold AppendCall.payload payload
  simp only [jsonProperties?, json_ofText, AuditValue.json?]
  cases jsonProperties? call.input.metadata.properties <;> rfl

/-- The text of a call is that of the entry that it inserts. -/
theorem canonicalize_payload {call : AppendCall} {text : List Char}
    (ended : canonicalize call.payload = .ok text) (previousHash : Option String)
    (entryHash : String) :
    String.ofList text = (call.entry previousHash entryHash).payload.canonicalValue.render := by
  obtain ⟨whole, said⟩ := json_of_canonicalize _ _ ended
  have stored := said
  rw [payload_said] at stored
  obtain ⟨json, metadata, rfl⟩ := Option.map_eq_some_iff.mp stored
  have distinct : json.distinctNames := by
    have once := call.input.metadata.distinct
    rwa [metadata] at once
  have held : call.input.metadata.jsonb = json.canonicalValue := by
    unfold AuditMetadata.jsonb
    rw [metadata]
    rfl
  have once : ({ call.entry none "" with metadata := json }.payload).distinctNames := by
    simp [payload, Json.distinctNames, Json.propertiesDistinct, distinct]
  have texts := ended.symm.trans (canonicalize_of_json _ _ said once)
  have same := canonicalValue_payload (call.entry previousHash entryHash) json (by
    show json.canonicalValue = (call.input.metadata.jsonb).canonicalValue
    rw [held, Json.canonicalValue_canonicalValue])
  rw [Except.ok.inj texts, ← same]
  rfl

variable {hash : String → String}

/-- The entry that is inserted is sealed. -/
theorem sealed_entry {call : AppendCall} {previousHash : Option String} {entryHash : String}
    (ended : createAuditEntryHash hash previousHash call.payload = .ok entryHash) :
    (call.entry previousHash entryHash).Sealed hash := by
  unfold createAuditEntryHash canonicalizeAuditPayload at ended
  cases digest : previousHash.all isDigest with
  | false => simp [digest] at ended
  | true =>
    simp only [digest, Bool.not_true, Bool.false_eq_true, if_false] at ended
    cases texts : canonicalize call.payload with
    | error error => rw [texts] at ended; cases ended
    | ok text =>
      rw [texts] at ended
      have hashed := Except.ok.inj ended
      rw [canonicalize_payload texts previousHash entryHash] at hashed
      exact ⟨hashed.symm, digest, Json.canonicalValue_canonicalValue _⟩

/-- A digest, or the name of the root, has no line break. -/
theorem no_break {previousHash : Option String} (digest : previousHash.all isDigest) :
    '\n' ∉ (previousHash.getD "ROOT").toList := by
  cases previousHash with
  | none => decide
  | some text =>
    intro member
    have symbols : text.toList.all (fun symbol => symbol.isDigit || ('a' ≤ symbol && symbol ≤ 'f'))
        = true := (Bool.and_eq_true _ _ |>.mp digest).2
    have hexadecimal := List.all_eq_true.mp symbols '\n' member
    revert hexadecimal
    decide

/-- A hash is known by the text in place of it. -/
theorem previousHash_injective {left right : Option String} (leftDigest : left.all isDigest)
    (rightDigest : right.all isDigest) (same : left.getD "ROOT" = right.getD "ROOT") :
    left = right := by
  have root : isDigest "ROOT" = false := by decide
  cases left with
  | none =>
    cases right with
    | none => rfl
    | some text =>
      have other : "ROOT" = text := same
      rw [← other] at rightDigest
      cases root.symm.trans rightDigest
  | some text =>
    cases right with
    | none =>
      have other : text = "ROOT" := same
      rw [other] at leftDigest
      cases root.symm.trans leftDigest
    | some other => exact congrArg some same

/-- Payloads of one canonical form, with metadata in the order of `jsonb`, are those of one entry but
for its hashes. -/
theorem fields_eq_of_payload {left right : AuditEntry}
    (leftOrdered : left.metadata.canonicalValue = left.metadata)
    (rightOrdered : right.metadata.canonicalValue = right.metadata)
    (same : left.payload.canonicalValue = right.payload.canonicalValue) :
    left = { right with previousHash := left.previousHash, entryHash := left.entryHash } := by
  unfold payload at same
  rw [Json.canonicalValue_object_iff (by simp) (by simp)] at same
  have identifier := same "id"
  have occurredAt := same "occurredAt"
  have actorUserId := same "actorUserId"
  have action := same "action"
  have subjectType := same "subjectType"
  have subjectId := same "subjectId"
  have requestId := same "requestId"
  have ipHash := same "ipHash"
  have metadata := same "metadata"
  simp only [List.lookup_cons, String.reduceBEq, Option.map_some, canonicalValue,
    canonicalValue_textJson, textJson_injective.eq_iff, Option.some.injEq, Json.string.injEq,
    leftOrdered, rightOrdered] at *
  obtain ⟨_, _, _, _, _, _, _, _, _, _, _⟩ := left
  simp only [AuditEntry.mk.injEq]
  exact ⟨identifier, occurredAt, actorUserId, action, subjectType, subjectId, requestId, ipHash, metadata,
    trivial, trivial⟩

/-- Sealed entries of one text are one entry. -/
theorem entry_eq_of_text {left right : AuditEntry} (leftSealed : left.Sealed hash)
    (rightSealed : right.Sealed hash) (same : left.text = right.text) : left = right := by
  have parts : (left.previousHash.getD "ROOT").toList ++ '\n' ::
        left.payload.canonicalValue.render.toList =
      (right.previousHash.getD "ROOT").toList ++ '\n' ::
        right.payload.canonicalValue.render.toList := by
    have symbols := congrArg String.toList same
    simpa [text] using symbols
  obtain ⟨previous, payloads⟩ := Lines.first_line_inj (no_break leftSealed.digest)
    (no_break rightSealed.digest) parts
  have previousHash : left.previousHash = right.previousHash :=
    previousHash_injective leftSealed.digest rightSealed.digest (String.toList_inj.mp previous)
  have fields := fields_eq_of_payload leftSealed.ordered rightSealed.ordered
    (Json.render_injective (String.toList_inj.mp payloads))
  have entryHash : left.entryHash = right.entryHash := by
    rw [leftSealed.hashed, rightSealed.hashed, same]
  rw [fields, previousHash, entryHash]

/-- Chains of sealed entries that have one length and one last hash are equal, unless texts
collide. -/
theorem chain_eq_of_lastHash {left right : List AuditEntry}
    (leftSealed : ∀ entry ∈ left, entry.Sealed hash)
    (rightSealed : ∀ entry ∈ right, entry.Sealed hash)
    (free : CollisionFree hash ((left ++ right).map text)) (leftChain : IsChain left)
    (rightChain : IsChain right) (length : left.length = right.length)
    (last : left.getLast?.map entryHash = right.getLast?.map entryHash) :
    left = right := by
  refine HashLinks.eq_of_lastDigest (fun entry member other held same => ?_) leftChain rightChain
    length (by unfold HashLinks.lastDigest; rw [last])
  rw [(leftSealed entry member).hashed, (rightSealed other held).hashed] at same
  have texts := free entry.text (List.mem_map_of_mem (List.mem_append_left _ member)) other.text
    (List.mem_map_of_mem (List.mem_append_right _ held)) same
  exact entry_eq_of_text (leftSealed entry member) (rightSealed other held) texts

/-! ## One step -/

namespace AuditLedger

def lastHash (ledger : AuditLedger) : Option String :=
  ledger.entries.getLast?.map AuditEntry.entryHash

/-- What a transaction knows of the ledger: from the lock on it is the holder, what it has read is the
last hash, and its row can be committed after the others. -/
def Stands (hash : String → String) (ledger : AuditLedger) (transaction : Nat) : AppendPhase → Prop
  | .begun => True
  | .locked => ledger.lock = some transaction
  | .read previousHash => ledger.lock = some transaction ∧ previousHash = ledger.lastHash
  | .inserted row => ledger.lock = some transaction ∧ row.auditSequence < ledger.nextSequence ∧
      (∀ earlier ∈ ledger.rows, earlier.auditSequence < row.auditSequence) ∧
      row.entry.previousHash = ledger.lastHash ∧ row.entry.Sealed hash

/-- The rows are a chain of sealed entries in the order of their sequence numbers, and every
transaction stands. -/
structure IsSound (hash : String → String) (ledger : AuditLedger) : Prop where
  increasing : (ledger.rows.map AuditRow.auditSequence).Pairwise (· < ·)
  below : ∀ row ∈ ledger.rows, row.auditSequence < ledger.nextSequence
  chain : IsChain ledger.entries
  sealed : ∀ entry ∈ ledger.entries, entry.Sealed hash
  stands : ∀ transaction append, ledger.appends transaction = some append →
    ledger.Stands hash transaction append.phase

variable {hash : String → String} {ledger : AuditLedger} {transaction other : Nat}
  {append : Append} {phase : AppendPhase}

/-- The row with the highest sequence number is the last. -/
theorem head_eq (increasing : (ledger.rows.map AuditRow.auditSequence).Pairwise (· < ·)) :
    ledger.head = ledger.rows.getLast? := by
  unfold head
  rcases List.eq_nil_or_concat ledger.rows with empty | ⟨rows, row, split⟩
  · rw [empty]
    rfl
  · rw [List.concat_eq_append] at split
    rw [split, map_append] at increasing
    rw [split, List.argmax_concat, List.getLast?_concat]
    cases highest : rows.argmax AuditRow.auditSequence with
    | none => rfl
    | some best =>
      have member : best ∈ rows := List.argmax_mem highest
      have less := (List.pairwise_append.mp increasing).2.2 best.auditSequence
        (List.mem_map_of_mem member) row.auditSequence (.head _)
      exact if_pos less

theorem head_hash (increasing : (ledger.rows.map AuditRow.auditSequence).Pairwise (· < ·)) :
    (ledger.head.map fun row => row.entry.entryHash) = ledger.lastHash := by
  unfold lastHash entries
  rw [head_eq increasing, List.getLast?_map, Option.map_map]
  rfl

/-- A transaction that does not hold the lock has only begun. -/
theorem stands_of_not_holder (stands : ledger.Stands hash transaction phase)
    (apart : ledger.lock ≠ some transaction) (later : AuditLedger) :
    later.Stands hash transaction phase := by
  cases phase with
  | begun => trivial
  | locked => exact absurd stands apart
  | read previousHash => exact absurd stands.1 apart
  | inserted row => exact absurd stands.1 apart

/-- What a transaction knows is of the rows, the sequence and the lock. -/
theorem stands_congr {later : AuditLedger} (stands : ledger.Stands hash transaction phase)
    (rows : later.rows = ledger.rows) (nextSequence : ledger.nextSequence ≤ later.nextSequence)
    (lock : ledger.lock = some transaction → later.lock = some transaction) :
    later.Stands hash transaction phase := by
  have last : later.lastHash = ledger.lastHash := by
    unfold lastHash entries
    rw [rows]
  cases phase with
  | begun => trivial
  | locked => exact lock stands
  | read previousHash => exact ⟨lock stands.1, stands.2.trans last.symm⟩
  | inserted row =>
    obtain ⟨holder, sequence, after, previous, sealed⟩ := stands
    refine ⟨lock holder, by omega, ?_, previous.trans last.symm, sealed⟩
    rw [rows]
    exact after

variable (sound : ledger.IsSound hash)

include sound

/-- A ledger stays sound when it has the rows of a sound one and its transactions stand. -/
theorem IsSound.of_rows {later : AuditLedger}
    (rows : later.rows = ledger.rows) (nextSequence : ledger.nextSequence ≤ later.nextSequence)
    (stands : ∀ transaction append, later.appends transaction = some append →
      later.Stands hash transaction append.phase) : later.IsSound hash := by
  have entries : later.entries = ledger.entries := congrArg (List.map AuditRow.entry) rows
  refine ⟨?_, fun row member => ?_, ?_, ?_, stands⟩
  · rw [rows]
    exact sound.increasing
  · rw [rows] at member
    have below := sound.below row member
    omega
  · rw [entries]
    exact sound.chain
  · rw [entries]
    exact sound.sealed

/-- A transaction that ends leaves a sound ledger. -/
theorem IsSound.finish (transaction : Nat) : (ledger.finish transaction).IsSound hash := by
  refine sound.of_rows rfl (Nat.le_refl _) fun other append found => ?_
  by_cases same : other = transaction
  · subst same
    have gone : (ledger.finish other).appends other = none := update_self ..
    cases gone.symm.trans found
  · have kept : (ledger.finish transaction).appends other = ledger.appends other :=
      update_of_ne same ..
    refine stands_congr (sound.stands other append (kept.symm.trans found)) rfl (Nat.le_refl _)
      fun holder => ?_
    show (if ledger.lock = some transaction then none else ledger.lock) = some other
    rw [if_neg (fun held => same (Option.some.inj (holder.symm.trans held)))]
    exact holder

/-- A transaction that moves to a phase in which it stands leaves a sound ledger. -/
theorem IsSound.move (stands : ledger.Stands hash transaction phase) :
    (ledger.move transaction append phase).IsSound hash := by
  refine sound.of_rows rfl (Nat.le_refl _) fun other found member => ?_
  by_cases same : other = transaction
  · subst same
    have moved : (ledger.move other append phase).appends other = some { append with phase := phase } :=
      update_self ..
    obtain rfl := Option.some.inj (moved.symm.trans member)
    exact stands_congr stands rfl (Nat.le_refl _) id
  · have kept : (ledger.move transaction append phase).appends other = ledger.appends other :=
      update_of_ne same ..
    exact stands_congr (sound.stands other found (kept.symm.trans member)) rfl (Nat.le_refl _) id

theorem IsSound.drawn : { ledger with nextSequence := ledger.nextSequence + 1 }.IsSound hash :=
  sound.of_rows rfl (Nat.le_succ _) fun other append found =>
    stands_congr (sound.stands other append found) rfl (Nat.le_succ _) id

theorem IsSound.take (free : ledger.lock = none) :
    { ledger with lock := some transaction }.IsSound hash := by
  refine sound.of_rows rfl (Nat.le_refl _) fun other append found => ?_
  exact stands_of_not_holder (sound.stands other append found)
    (fun holder => by rw [free] at holder; cases holder) _

/-- The row of the holder is committed. -/
theorem IsSound.commit {row : AuditRow} (stands : ledger.Stands hash transaction (.inserted row)) :
    ({ ledger with rows := ledger.rows ++ [row] }.finish transaction).IsSound hash := by
  obtain ⟨holder, sequence, after, previous, sealed⟩ := stands
  have entries : ({ ledger with rows := ledger.rows ++ [row] }.finish transaction).entries =
      ledger.entries ++ [row.entry] := map_append
  refine ⟨?_, fun held member => ?_, ?_, fun entry member => ?_, fun other append found => ?_⟩
  · show ((ledger.rows ++ [row]).map AuditRow.auditSequence).Pairwise (· < ·)
    rw [map_append, List.pairwise_append]
    refine ⟨sound.increasing, List.pairwise_singleton _ _, fun earlier member last only => ?_⟩
    obtain ⟨held, present, rfl⟩ := mem_map.mp member
    obtain rfl := mem_singleton.mp only
    exact after held present
  · rcases mem_append.mp member with member | member
    · exact sound.below held member
    · obtain rfl := mem_singleton.mp member
      exact sequence
  · rw [entries]
    unfold IsChain
    rw [HashLinks.linked_snoc]
    refine ⟨sound.chain, previous.trans ?_⟩
    unfold HashLinks.lastDigest
    rw [Option.or_none]
    rfl
  · rw [entries] at member
    rcases mem_append.mp member with member | member
    · exact sound.sealed entry member
    · obtain rfl := mem_singleton.mp member
      exact sealed
  · by_cases same : other = transaction
    · subst same
      have gone : ({ ledger with rows := ledger.rows ++ [row] }.finish other).appends other = none :=
        update_self ..
      cases gone.symm.trans found
    · have kept : ({ ledger with rows := ledger.rows ++ [row] }.finish transaction).appends other =
          ledger.appends other := update_of_ne same ..
      exact stands_of_not_holder (sound.stands other append (kept.symm.trans found))
        (fun held => same (Option.some.inj (held.symm.trans holder))) _

/-- An entry that is inserted by the holder leaves a sound ledger. -/
theorem IsSound.insert {entry : AuditEntry}
    (holder : ledger.lock = some transaction) (previous : entry.previousHash = ledger.lastHash)
    (sealed : entry.Sealed hash) : (ledger.insert transaction append entry).IsSound hash := by
  unfold AuditLedger.insert
  split
  · exact sound.drawn.finish transaction
  · refine sound.drawn.move ⟨holder, Nat.lt_succ_self _, ?_, previous, sealed⟩
    exact sound.below

/-- The next statement of a transaction leaves a sound ledger. -/
theorem IsSound.advance (found : ledger.appends transaction = some append) :
    (ledger.advance hash transaction append).IsSound hash := by
  have stands := sound.stands transaction append found
  unfold AuditLedger.advance
  cases phase : append.phase with
  | begun =>
    cases lock : ledger.lock with
    | some holder => exact sound
    | none => exact (sound.take lock).move rfl
  | locked =>
    rw [phase] at stands
    exact sound.move ⟨stands, head_hash sound.increasing⟩
  | read previousHash =>
    rw [phase] at stands
    dsimp only
    cases hashed : createAuditEntryHash hash previousHash append.call.payload with
    | error error => exact sound.finish transaction
    | ok entryHash => exact sound.insert stands.1 stands.2 (sealed_entry hashed)
  | inserted row =>
    rw [phase] at stands
    exact sound.commit stands

/-- A step leaves a sound ledger. -/
theorem IsSound.step (action : LedgerStep) : (ledger.step hash action).IsSound hash := by
  unfold AuditLedger.step
  cases action with
  | append transaction call =>
    dsimp only
    split
    · exact sound
    · exact sound.move trivial
  | advance transaction =>
    cases found : ledger.appends transaction with
    | none => simpa [found] using sound
    | some append => simpa [found] using sound.advance found
  | abort transaction => exact sound.finish transaction

omit sound

theorem after_isSound (hash : String → String) (steps : List LedgerStep) :
    (after hash steps).IsSound hash := by
  refine Machine.invariant_after (fun ledger action sound => sound.step action) ?_ steps
  exact ⟨.nil, fun row member => absurd member List.not_mem_nil, trivial,
    fun entry member => absurd member List.not_mem_nil, fun transaction append found => by cases found⟩

end AuditLedger

/-- Whatever the order of the statements of its transactions, a ledger is one chain in the order of
its sequence numbers, and a ledger of the same length with the same last hash has the same entries,
unless texts collide; the canonical text of a value says the value but for the order of
properties. -/
theorem ledger_is_one_chain (hash : String → String) (steps : List LedgerStep) :
    ((AuditLedger.after hash steps).rows.map AuditRow.auditSequence).Pairwise (· < ·) ∧
      IsChain (AuditLedger.after hash steps).entries ∧
      (∀ others : List LedgerStep,
        CollisionFree hash (((AuditLedger.after hash steps).entries ++
          (AuditLedger.after hash others).entries).map AuditEntry.text) →
        (AuditLedger.after hash steps).entries.length =
          (AuditLedger.after hash others).entries.length →
        (AuditLedger.after hash steps).lastHash = (AuditLedger.after hash others).lastHash →
        (AuditLedger.after hash steps).entries = (AuditLedger.after hash others).entries) ∧
      ∀ (left right : AuditValue) (leftJson rightJson : Json), left.json? = some leftJson →
        right.json? = some rightJson → leftJson.distinctNames = true →
        rightJson.distinctNames = true →
        (canonicalize left = canonicalize right ↔ leftJson.SameValue rightJson) := by
  have sound := after_isSound hash steps
  refine ⟨sound.increasing, sound.chain, fun others free length last => ?_, ?_⟩
  · have other_sound := after_isSound hash others
    exact chain_eq_of_lastHash sound.sealed other_sound.sealed free sound.chain other_sound.chain
      length last
  · exact fun left right leftJson rightJson => canonicalize_eq_iff_same

/-- A transaction that fails leaves no entry. -/
theorem entries_abort (hash : String → String) (steps : List LedgerStep) (transaction : Nat)
    (call : AppendCall) :
    (after hash (steps ++ [.append transaction call, .abort transaction])).entries =
      (after hash steps).entries := by
  unfold after
  rw [Machine.after_append]
  generalize Machine.after _ empty steps = ledger
  show ((ledger.step hash (.append transaction call)).finish transaction).entries = ledger.entries
  unfold step
  dsimp only
  split <;> rfl

/-! ## Two runs with one ledger -/

/-- Texts do not collide when the sealed entries that they belong to have hashes of their own. -/
theorem collisionFree_of_distinct {entries : List AuditEntry}
    (sealed : ∀ entry ∈ entries, entry.Sealed hash)
    (distinct : (entries.map entryHash).Nodup) :
    CollisionFree hash ((entries ++ entries).map text) := by
  intro left leftMember right rightMember same
  rw [map_append, mem_append, or_self] at leftMember rightMember
  obtain ⟨entry, member, rfl⟩ := mem_map.mp leftMember
  obtain ⟨other, held, rfl⟩ := mem_map.mp rightMember
  rw [← (sealed entry member).hashed, ← (sealed other held).hashed] at same
  rw [List.inj_on_of_nodup_map distinct member held same]

def rootHash (text : String) : String :=
  String.ofList (List.replicate 64 (if text.toList.head? = some 'R' then '0' else '1'))

/-- A call that appends an entry of a table. -/
def viewed (id : String) : AppendCall :=
  ⟨⟨none, "database.rows_viewed", "table", some "users", none, none, ⟨[("rows", .boolean true)],
    by decide⟩⟩, id, "2026-01-01"⟩

/-- The second transaction waits for the first. -/
def overlapping : List LedgerStep :=
  [.append 1 (viewed "first"), .append 2 (viewed "second"), .advance 1, .advance 2, .advance 1,
    .advance 1, .advance 2, .advance 1, .advance 2, .advance 2, .advance 2, .advance 2]

def abandoned : List LedgerStep := overlapping ++ [.append 3 (viewed "third"), .abort 3]

/-- The two runs leave two entries, and the same. -/
theorem overlapping_entries :
    (AuditLedger.after rootHash overlapping).entries.length = 2 ∧
      (AuditLedger.after rootHash overlapping).entries =
        (AuditLedger.after rootHash abandoned).entries := by
  have hashes : (after rootHash overlapping).entries.map entryHash =
      [String.ofList (List.replicate 64 '0'), String.ofList (List.replicate 64 '1')] := by
    decide +kernel
  have two : (after rootHash overlapping).entries.length = 2 := by
    rw [← List.length_map entryHash, hashes]
    rfl
  have distinct : ((after rootHash overlapping).entries.map
      entryHash).Nodup := by
    rw [hashes]
    decide +kernel
  have sound := after_isSound rootHash overlapping
  have kept : (after rootHash abandoned).entries =
    (after rootHash overlapping).entries := entries_abort rootHash overlapping 3 _
  refine ⟨two, (ledger_is_one_chain rootHash overlapping).2.2.1 abandoned ?_ ?_ ?_⟩
  · rw [kept]
    exact collisionFree_of_distinct sound.sealed distinct
  · rw [kept]
  · unfold lastHash
    rw [kept]

end NancyMan.Audit
