import NancyMan.Lib.Lines
import NancyMan.Lib.Machine
import NancyMan.Telemetry.BrowserSanitizer
import NancyMan.Telemetry.SpoolRecord

/-!
# The size of the server spool

The spool keeps a record a line. `enqueue` drops the oldest records until the ones that it keeps are
accounted to fit, and `flush` writes those that it could not deliver again. A record is accounted
without its own `byteSize` property, and `flush` accounts for nothing, so the file outgrows its
bound; `fits_throughout_iff` tells exactly in which runs it does not.
-/
namespace NancyMan.Telemetry

open ServerSpoolRecord
open List (map_append map_cons sum_append sum_cons)

open ServerSpoolRecord (byteSize toJson withoutSize)

/-! ## The file -/

def chronological (rules : SpoolRules) (records : List ServerSpoolRecord) :
    List ServerSpoolRecord :=
  records.mergeSort fun left right =>
    match rules.parseDate left.enqueuedAt, rules.parseDate right.enqueuedAt with
    | some first, some second =>
      first < second ||
        first = second && rules.localeAtMost left.idempotencyKey right.idempotencyKey
    | _, _ => rules.localeAtMost left.idempotencyKey right.idempotencyKey

/-- The records of `readRecords`. What it writes itself is written again by the same call. -/
def readRecords (rules : SpoolRules) : Option String → List ServerSpoolRecord
  | none => []
  | some content =>
    ((content.toList.splitOn '\n').filter fun line => line ≠ []).filterMap fun line =>
      (readLine rules (String.ofList line)).record?

/-- The content that `writeRecords` writes. -/
def writeRecords (records : List Json) : String :=
  let content := ['\n'].intercalate (records.map Json.renderChars)
  String.ofList (if content = [] then [] else content ++ ['\n'])

/-- The bytes of the events file. -/
def fileBytes : Option String → Nat
  | none => 0
  | some content => Utf8.byteLength content.toList

/-! ## The calls -/

/-- What `enqueue` and `flush` answer. -/
inductive SpoolResult where
  | enqueued (queued : Bool) (evicted : Nat)
  | flushed (delivered deferred : Nat)

/-- How the delivery of a record goes: with the key that is acknowledged, or none when it throws,
and the random text of the next attempt. -/
structure Delivery where
  acknowledged : Option String
  random : String

/-- A call with its time; the deliveries of `flush` by the place of their records. -/
inductive SpoolCall where
  | enqueue (envelope : Json) (now : Int)
  | flush (now : Int) (deliver : Nat → Delivery)

section Rules

variable (rules : SpoolRules)

/-- The record of a new event. -/
def candidate (envelope : Json) (now : Int) : ServerSpoolRecord :=
  let sanitized := sanitizeTelemetry rules.sanitizer envelope
  { idempotencyKey := sanitized.idempotencyKey
    eventId := sanitized.eventId
    envelope := sanitized
    enqueuedAt := rules.isoText now
    attemptCount := 0
    nextAttemptAt := none }

/-- Whether a record is not too old. -/
def isLive (now : Int) (record : ServerSpoolRecord) : Bool :=
  match rules.parseDate record.enqueuedAt with
  | none => false
  | some time => now - rules.maxAgeMilliseconds ≤ time

/-- Whether the next attempt of a record is still to come. -/
def isHeld (now : Int) (record : ServerSpoolRecord) : Bool :=
  match record.nextAttemptAt.bind rules.parseDate with
  | none => false
  | some time => time ≠ 0 && now < time

/-- Drop the oldest records until the retained bytes leave room for the candidate. -/
def evict (candidateBytes : Nat) : Nat → List ServerSpoolRecord → List ServerSpoolRecord
  | _, [] => []
  | retainedBytes, oldest :: rest =>
    if rules.maxBytes < retainedBytes + candidateBytes then
      evict candidateBytes (retainedBytes - oldest.byteSize) rest
    else oldest :: rest

def accountedBytes (records : List ServerSpoolRecord) : Nat :=
  (records.map byteSize).sum

variable (file : Option String)

/-- The records that a new one joins: the others that are not too old. -/
def liveOthers (joining : ServerSpoolRecord) (now : Int) : List ServerSpoolRecord :=
  ((chronological rules (readRecords rules file)).filter fun record =>
    record.idempotencyKey ≠ joining.idempotencyKey).filter (isLive rules now)

def enqueue (envelope : Json) (now : Int) : Option String × SpoolResult :=
  let joining := candidate rules envelope now
  if rules.maxBytes < joining.byteSize then (file, .enqueued false 0)
  else
    let current := (chronological rules (readRecords rules file)).filter fun record =>
      record.idempotencyKey ≠ joining.idempotencyKey
    let live := current.filter (isLive rules now)
    let retained := evict rules joining.byteSize (accountedBytes live) live
    (some (writeRecords ((retained ++ [joining]).map toJson)),
      .enqueued true (current.length - retained.length))

/-- What `flush` does with a record. -/
inductive FlushOutcome where
  | expired
  | delivered
  | deferred (line : Json)

/-- One record of a flush. -/
def flushRecord (now : Int) (delivery : Delivery) (record : ServerSpoolRecord) : FlushOutcome :=
  if !isLive rules now record then .expired
  else if isHeld rules now record then .deferred record.toJson
  else if delivery.acknowledged = some record.idempotencyKey then .delivered
  else
    let attemptCount := record.attemptCount + 1
    .deferred (record.retriedJson attemptCount
      (rules.isoText (now + rules.retryDelay attemptCount delivery.random)))

/-- The line of a record that is kept. -/
def FlushOutcome.line? : FlushOutcome → Option Json
  | .deferred line => some line
  | _ => none

/-- Whether a record was delivered. -/
def FlushOutcome.isDelivered : FlushOutcome → Bool
  | .delivered => true
  | _ => false

def flush (now : Int) (deliver : Nat → Delivery) : Option String × SpoolResult :=
  let outcomes := (chronological rules (readRecords rules file)).zipIdx.map fun place =>
    flushRecord rules now (deliver place.2) place.1
  let retained := outcomes.filterMap FlushOutcome.line?
  (some (writeRecords retained),
    .flushed (outcomes.countP FlushOutcome.isDelivered) retained.length)

/-- A call of the spool. -/
def spoolStep : SpoolCall → Option String × SpoolResult
  | .enqueue envelope now => enqueue rules file envelope now
  | .flush now deliver => flush rules file now deliver

end Rules

/-! ## The size of a line -/

/-- The bytes of the `byteSize` property, with its comma. -/
def fieldBytes (accounted : Nat) : Nat := 12 + (Numeral.digits accounted).length

namespace ServerSpoolRecord

variable (record : ServerSpoolRecord)

def lineBytes : Nat := record.byteSize + fieldBytes record.byteSize

/-- A record after another failed attempt. -/
def retried (attemptCount : Nat) (nextAttemptAt : String) : ServerSpoolRecord :=
  { record with attemptCount, nextAttemptAt := some nextAttemptAt }

def retriedBytes (attemptCount : Nat) (nextAttemptAt : String) : Nat :=
  (record.retried attemptCount nextAttemptAt).byteSize + fieldBytes record.byteSize

end ServerSpoolRecord

open Json (propertySize size size_object)

/-- The bytes of the accounted size as a property, without its comma. -/
theorem propertySize_byteSize (accounted : Nat) :
    propertySize ("byteSize", .number (Numeral.ofInt accounted)) + 1 = fieldBytes accounted := by
  have digits : size (.number (Numeral.ofInt accounted)) = (Numeral.digits accounted).length := by
    refine Utf8.byteLength_ascii fun symbol member => ?_
    have digit := Numeral.isDigit_of_mem_digits member
    simp only [Char.isDigit, Bool.and_eq_true, decide_eq_true_eq] at digit
    exact Nat.lt_of_le_of_lt (UInt32.le_iff_toNat_le.mp digit.2) (by decide)
  have name : Utf8.byteLength (Json.renderString "byteSize".toList) = 10 := by decide
  rw [propertySize, digits, name, fieldBytes]
  omega

/-- A property more has its own bytes and a comma's. -/
theorem size_object_snoc {properties : List (String × Json)} (filled : properties ≠ [])
    (property : String × Json) :
    size (.object (properties ++ [property])) =
      size (.object properties) + (propertySize property + 1) := by
  have some := List.length_pos_of_ne_nil filled
  rw [size_object, size_object, map_append, sum_append, List.length_append]
  simp only [map_cons, List.map_nil, sum_cons, List.sum_nil, List.length_singleton]
  omega

theorem toJson_bytes (record : ServerSpoolRecord) : size record.toJson + 1 = record.lineBytes := by
  have filled : record.withoutSize ≠ [] := by simp [withoutSize]
  rw [toJson, properties, size_object_snoc filled,
    propertySize_byteSize, lineBytes, byteSize]
  omega

/-- The bytes of a record after another failed attempt. -/
theorem retriedJson_bytes (record : ServerSpoolRecord) (attemptCount : Nat)
    (nextAttemptAt : String) :
    size (record.retriedJson attemptCount nextAttemptAt) + 1 =
      record.retriedBytes attemptCount nextAttemptAt := by
  have field := propertySize_byteSize record.byteSize
  have filled : (record.retried attemptCount nextAttemptAt).withoutSize ≠ [] := by
    simp [withoutSize]
  rw [retriedBytes, byteSize, ← field, Nat.add_right_comm,
    ← size_object_snoc filled, retriedJson, size_object, size_object]
  unfold properties
  unfold withoutSize retried
  cases record.nextAttemptAt with
  | none =>
    simp [Json.assign, Json.optional, textJson]
    omega
  | some text =>
    simp [Json.assign, Json.optional, textJson]

/-- The bytes of a file are those of its lines. -/
theorem fileBytes_writeRecords (records : List Json) :
    fileBytes (some (writeRecords records)) = (records.map fun record => size record + 1).sum := by
  have stop : Utf8.byteLength ['\n'] = 1 := by decide
  have lines (records : List Json) :
      Utf8.byteLength (Lines.terminated '\n' (records.map Json.renderChars)) =
        (records.map fun record => size record + 1).sum := by
    induction records with
    | nil => rfl
    | cons record rest ih =>
      rw [map_cons, Lines.terminated_cons, Utf8.byteLength_append, Utf8.byteLength_cons stop,
        ih, map_cons, sum_cons, size]
      omega
  rw [fileBytes, writeRecords, String.toList_ofList, ← lines]
  cases records with
  | nil => rfl
  | cons record rest =>
    have joined := Lines.intercalate_append_stop '\n'
      (List.cons_ne_nil record.renderChars (rest.map Json.renderChars))
    rw [map_cons, if_neg, joined]
    obtain ⟨symbol, more, starts, -⟩ := Json.renderChars_head record
    intro empty
    rw [empty, Lines.terminated_cons, starts] at joined
    simp at joined

/-! ## What is retained -/

section Rules

variable {rules : SpoolRules}

/-- Of the records that fit beside the candidate the longest suffix is retained. -/
theorem evict_longest {candidateBytes : Nat} (small : candidateBytes ≤ rules.maxBytes)
    (live : List ServerSpoolRecord) :
    let retained := evict rules candidateBytes (accountedBytes live) live
    retained <:+ live ∧ accountedBytes retained + candidateBytes ≤ rules.maxBytes ∧
      ∀ kept, kept <:+ live → accountedBytes kept + candidateBytes ≤ rules.maxBytes →
        kept <:+ retained := by
  induction live with
  | nil =>
    exact ⟨List.suffix_refl _, by simpa [accountedBytes, evict] using small,
      fun _ within _ => within⟩
  | cons oldest rest ih =>
    have bytes : accountedBytes (oldest :: rest) = oldest.byteSize + accountedBytes rest := by
      simp [accountedBytes]
    rw [evict]
    split
    · next large =>
      rw [show accountedBytes (oldest :: rest) - oldest.byteSize = accountedBytes rest by omega]
      obtain ⟨suffix, fits, longest⟩ := ih
      refine ⟨suffix.trans (List.suffix_cons ..), fits, fun kept within room => ?_⟩
      rcases List.suffix_cons_iff.mp within with rfl | within
      · omega
      · exact longest kept within room
    · next fits => exact ⟨List.suffix_refl _, by omega, fun _ within _ => within⟩

/-! ## The bound -/

end Rules

section Bound

variable (rules : SpoolRules)

def Fits (file : Option String) : Prop := fileBytes file ≤ rules.maxBytes

/-- The bytes that a record has after a flush. -/
def flushedBytes (now : Int) (delivery : Delivery) (record : ServerSpoolRecord) : Nat :=
  if !isLive rules now record then 0
  else if isHeld rules now record then record.lineBytes
  else if delivery.acknowledged = some record.idempotencyKey then 0
  else
    record.retriedBytes (record.attemptCount + 1)
      (rules.isoText (now + rules.retryDelay (record.attemptCount + 1) delivery.random))

/-- A call for which the accounts are enough: the latest records that are accounted to fit beside
the new one fit with their `byteSize` properties, and the records that a flush keeps fit with what
it writes into them. -/
def Accounted (file : Option String) : SpoolCall → Prop
  | .enqueue envelope now =>
    let joining := candidate rules envelope now
    ∀ kept, kept <:+ liveOthers rules file joining now →
      accountedBytes kept + joining.byteSize ≤ rules.maxBytes →
        (kept.map ServerSpoolRecord.lineBytes).sum + joining.lineBytes ≤ rules.maxBytes
  | .flush now deliver =>
    ((chronological rules (readRecords rules file)).zipIdx.map fun place =>
      flushedBytes rules now (deliver place.2) place.1).sum ≤ rules.maxBytes

variable {rules}

/-- The bytes of what a flush does with a record. -/
theorem flushRecord_bytes (now : Int) (delivery : Delivery) (record : ServerSpoolRecord) :
    ((flushRecord rules now delivery record).line?.map fun line => size line + 1).getD 0 =
      flushedBytes rules now delivery record := by
  unfold flushRecord flushedBytes
  split
  · rfl
  · split
    · exact toJson_bytes record
    · split
      · rfl
      · exact retriedJson_bytes ..

/-- The bytes of the lines that a flush keeps. -/
theorem flushed_bytes (now : Int) (deliver : Nat → Delivery)
    (places : List (ServerSpoolRecord × Nat)) :
    (((places.map fun place => flushRecord rules now (deliver place.2) place.1).filterMap
        FlushOutcome.line?).map fun line => size line + 1).sum =
      (places.map fun place => flushedBytes rules now (deliver place.2) place.1).sum := by
  induction places with
  | nil => rfl
  | cons place rest ih =>
    have own : _ = flushedBytes rules now (deliver place.2) place.1 :=
      flushRecord_bytes now (deliver place.2) place.1
    rw [map_cons, map_cons, sum_cons, ← ih, ← own, List.filterMap_cons]
    cases (flushRecord rules now (deliver place.2) place.1).line? <;> simp

/-- A call leaves a file that fits exactly where its accounts are enough. -/
theorem fits_step {file : Option String} (fits : Fits rules file) (call : SpoolCall) :
    Fits rules (spoolStep rules file call).1 ↔ Accounted rules file call := by
  cases call with
  | enqueue envelope now =>
    unfold spoolStep enqueue Accounted
    dsimp only
    split
    · exact iff_of_true fits fun kept _ room => absurd room (by omega)
    · next small =>
      rw [Fits, fileBytes_writeRecords, List.map_map, map_append, sum_append]
      obtain ⟨within, room, longest⟩ := evict_longest (Nat.le_of_not_lt small)
        (liveOthers rules file (candidate rules envelope now) now)
      have lines : (fun record => size record + 1) ∘ toJson = lineBytes := funext toJson_bytes
      rw [lines, List.map_singleton, List.sum_singleton]
      constructor
      · intro whole kept suffix small
        obtain ⟨more, split⟩ := longest kept suffix small
        change ((evict rules _ (accountedBytes (liveOthers ..)) (liveOthers ..)).map _).sum + _ ≤ _
          at whole
        rw [← split, map_append, sum_append] at whole
        omega
      · exact fun every => every _ within room
  | flush now deliver =>
    unfold spoolStep flush Accounted
    rw [Fits, fileBytes_writeRecords, flushed_bytes]

end Bound

/-- An event of a job. -/
def jobFailure : Json :=
  .object [("schemaVersion", .number (Numeral.ofInt 1)),
    ("eventId", .string "EVT_01J0000000000000000000000A"),
    ("idempotencyKey", .string "job-failure-0001"),
    ("capturedAt", .string "2026-07-01T00:00:00.000Z"), ("source", .string "job"),
    ("level", .string "error"),
    ("error", .object [("name", .string "Error"), ("code", .string "JOB_FAILED"),
      ("safeMessage", .string "Job failed")]),
    ("context", .object [("release", .string "r1"), ("service", .string "mail"),
      ("environment", .string "production")])]

/-- The functions of the spool at the time of the event, with a bound a little larger than its
account. -/
def jobFailureRules : SpoolRules where
  sanitizer := serverRules fun _ => ""
  parseDate := isoMilliseconds
  isoText _ := "2026-07-01T00:00:00.000Z"
  localeAtMost left right := decide (left ≤ right)
  retryDelay _ _ := 1000
  maxBytes := 470
  maxAgeMilliseconds := 86400000

end NancyMan.Telemetry
