import NancyMan.Lib.Frames
import NancyMan.SqlWorker.ReadPreview

/-!
# The worker's protocol server

Commands arrive as frames and each is answered with a frame. An answer that is larger than a
frame may be is not written: the handler of the chunk fails as a whole, and one answer that names
no command is written instead.
-/
namespace NancyMan.SqlWorker

open Json
open List (length_cons length_nil map_cons map_nil sum_cons sum_nil)

def maxFrameBytes : Nat := 1048576

/-- `encodeFrame`, unless the body is too large. -/
def encodeFrame (value : Json) : Option (List UInt8) :=
  if maxFrameBytes < value.size then none
  else some (Frames.frame (Utf8.bytes (Json.renderChars value)))

def parseBody (body : List UInt8) : Option Json := Json.parse (String.ofList (Utf8.text body))

/-- `FrameDecoder`, over the chunks in which bytes arrive. -/
def decodeFrames (chunks : List (List UInt8)) : Except Frames.Failure (List Json × List UInt8) :=
  Frames.pushAll maxFrameBytes parseBody [] chunks

/-- What the server calls: `authenticateWorkerCommand`, which throws on a value that is no
command, and the command handler, whose error may carry a code. -/
structure WorkerServer where
  authenticate : Json → Option Bool
  handle : Json → Except (Option String) Json

/-- Whether a code is one that may be told: `/^[A-Z][A-Z0-9_]{2,79}$/`. -/
def isErrorCode (code : String) : Bool :=
  match code.toList with
  | [] => false
  | first :: rest =>
    first.isUpper && 2 ≤ rest.length && rest.length ≤ 79 &&
      rest.all fun symbol => symbol.isUpper || symbol.isDigit || symbol = '_'

def protocolVersion : Json := .number (Numeral.ofInt 1)

variable (commandId : List (String × Json))

/-- A failed response. -/
def failure (code safeMessage : String) : Json :=
  .object ([("protocolVersion", protocolVersion)] ++ commandId ++
    [("ok", .boolean false),
      ("error", .object [("code", .string code), ("safeMessage", .string safeMessage)])])

variable (command : Json)

/-- The `commandId` of a response; a value that is `undefined` has no property. -/
def idProperty : List (String × Json) :=
  match command.property? "commandId" with
  | some commandId => [("commandId", commandId)]
  | none => []

/-- `command?.commandId ?? 'unknown'`. -/
def deniedId : Json :=
  match command.property? "commandId" with
  | none | some .null => .string "unknown"
  | some commandId => commandId

def commandFailure (code : Option String) : Json :=
  let told := match code with
    | some code => if isErrorCode code then code else "WORKER_COMMAND_FAILED"
    | none => "WORKER_COMMAND_FAILED"
  failure (idProperty command) told "Command could not be processed"

/-- The response with a result. -/
def success (result : Json) : Json :=
  .object ([("protocolVersion", protocolVersion)] ++ commandId ++
    [("ok", .boolean true), ("result", result)])

/-- The response to a command, unless authenticating it throws. -/
def respond (server : WorkerServer) (command : Json) : Option Json :=
  match server.authenticate command with
  | none => none
  | some false =>
    some (failure [("commandId", deniedId command)] "WORKER_COMMAND_DENIED" "Command denied")
  | some true =>
    match server.handle command with
    | .ok result => some (success (idProperty command) result)
    | .error code => some (commandFailure command code)

/-- What is written when the processing of a chunk fails. -/
def protocolError : Json :=
  failure [("commandId", .string "unknown")] "WORKER_PROTOCOL_ERROR"
    "Invalid worker protocol message"

/-- The frames that are written for the commands of a chunk: the first failure ends the chunk. -/
def written (server : WorkerServer) : List Json → List (List UInt8)
  | [] => []
  | command :: commands =>
    match (respond server command).bind encodeFrame with
    | none => (encodeFrame protocolError).toList
    | some frame => frame :: written server commands

/-! ## What a client reads -/

/-- The values that the written frames carry. -/
def answers (server : WorkerServer) : List Json → List Json
  | [] => []
  | command :: commands =>
    match respond server command with
    | none => [protocolError]
    | some response =>
      if maxFrameBytes < response.size then [protocolError]
      else response :: answers server commands

theorem readable_body {value : Json} (fits : value.size ≤ maxFrameBytes) :
    (Utf8.bytes (renderChars value)).length ≤ maxFrameBytes ∧
      parseBody (Utf8.bytes (renderChars value)) = some value := by
  refine ⟨fits, ?_⟩
  rw [parseBody, Utf8.text_bytes]
  exact parse_render value

theorem encodeFrame_fits {value : Json} (fits : value.size ≤ maxFrameBytes) :
    encodeFrame value = some (Frames.frame (Utf8.bytes (renderChars value))) :=
  if_neg (Nat.not_lt.mpr fits)

theorem protocolError_fits : protocolError.size ≤ maxFrameBytes := by
  decide +kernel

/-- The written frames are those of bodies that carry the answers. -/
theorem written_answers (server : WorkerServer) (commands : List Json) :
    ∃ bodies, (written server commands).flatten = bodies.flatMap Frames.frame ∧
      Frames.Readable maxFrameBytes parseBody bodies (answers server commands) := by
  have lost : (encodeFrame protocolError).toList.flatten =
      [Utf8.bytes (renderChars protocolError)].flatMap Frames.frame := by
    rw [encodeFrame_fits protocolError_fits]
    rfl
  induction commands with
  | nil => exact ⟨[], rfl, .nil⟩
  | cons command commands ih =>
    obtain ⟨bodies, stream, readable⟩ := ih
    rw [written, answers]
    cases respond server command with
    | none => exact ⟨_, lost, .cons (readable_body protocolError_fits) .nil⟩
    | some response =>
      rw [Option.bind_some]
      dsimp only
      by_cases large : maxFrameBytes < response.size
      · rw [encodeFrame, if_pos large, if_pos large]
        exact ⟨_, lost, .cons (readable_body protocolError_fits) .nil⟩
      · have fits := Nat.le_of_not_lt large
        rw [encodeFrame_fits fits, if_neg large]
        refine ⟨Utf8.bytes (renderChars response) :: bodies, ?_,
          .cons (readable_body fits) readable⟩
        rw [List.flatten_cons, stream, List.flatMap_cons]

theorem decodeFrames_written (server : WorkerServer) (commands : List Json)
    {chunks : List (List UInt8)} (arrived : chunks.flatten = (written server commands).flatten) :
    decodeFrames chunks = .ok (answers server commands, []) := by
  obtain ⟨bodies, stream, readable⟩ := written_answers server commands
  have small : maxFrameBytes < 4294967296 := by decide
  exact Frames.pushAll_frames small readable (arrived.trans stream)

/-- A command that the server authenticated, with its id and the handler's result. -/
structure Call (server : WorkerServer) where
  command : Json
  commandId : String
  result : Json
  authentic : server.authenticate command = some true
  named : command.property? "commandId" = some (.string commandId)
  handled : server.handle command = .ok result

variable {server : WorkerServer} (call : Call server)

def Call.response : Json :=
  success [("commandId", .string call.commandId)] call.result

/-- A call is answered with its response. -/
theorem Call.respond_eq : respond server call.command = some call.response := by
  rw [respond, call.authentic]
  rw [call.handled]
  rw [idProperty, call.named]
  rfl

theorem Call.response_ne : protocolError ≠ call.response := by
  intro same
  have ok : protocolError.property? "ok" = call.response.property? "ok" := by rw [same]
  cases ok

/-- The answers to the calls of a chunk are delivered: however the written bytes arrive, the
client reads for each call the response with its id and its result. -/
def Delivered (calls : List (Call server)) : Prop :=
  ∀ chunks, chunks.flatten = (written server (calls.map Call.command)).flatten →
    decodeFrames chunks = .ok (calls.map Call.response, [])

/-- The answers to calls are their responses exactly when each fits a frame. -/
theorem answers_iff (calls : List (Call server)) :
    answers server (calls.map Call.command) = calls.map Call.response ↔
      ∀ call ∈ calls, call.response.size ≤ maxFrameBytes := by
  induction calls with
  | nil => exact iff_of_true rfl nofun
  | cons call calls ih =>
    rw [map_cons, map_cons, answers, call.respond_eq, List.forall_mem_cons, ← ih]
    dsimp only
    by_cases large : maxFrameBytes < call.response.size
    · rw [if_pos large]
      refine iff_of_false ?_ fun all => Nat.not_lt.mpr all.1 large
      intro same
      exact call.response_ne (List.cons.inj same).1
    · rw [if_neg large, List.cons.injEq]
      exact and_congr_left' (iff_of_true rfl (Nat.le_of_not_lt large))

/-- The answers to the calls of a chunk are delivered exactly when the JSON text of each response
is at most a frame's body: a larger one is replaced by an error that names no command, and the
calls after it get no answer. -/
theorem answers_delivered_iff {server : WorkerServer} (calls : List (Call server)) :
    Delivered calls ↔ ∀ call ∈ calls, call.response.size ≤ maxFrameBytes := by
  rw [← answers_iff]
  constructor
  · intro delivered
    have read := delivered (written server (calls.map Call.command)) rfl
    rw [decodeFrames_written server _ rfl] at read
    exact (Prod.mk.inj (Except.ok.inj read)).1
  · intro same chunks arrived
    rw [decodeFrames_written server _ arrived, same]

/-! ## A preview of one long note -/

/-- The response that carries a preview has the bytes of its rows, and those that it would have
without rows. -/
theorem preview_size (commandId : String) {preview : BoundedRows}
    (counted : preview.encodedBytes = size (.array preview.rows)) :
    (success [("commandId", .string commandId)] preview.toJson).size + 2 =
      (success [("commandId", .string commandId)] { preview with rows := [] }.toJson).size +
        preview.encodedBytes := by
  have empty : size (.array []) = 2 := by decide
  simp only [success, BoundedRows.toJson, List.cons_append, List.nil_append, size_object,
    propertySize, map_cons, map_nil, sum_cons, sum_nil,
    length_cons, length_nil, empty]
  omega

/-- A preview that is answered has fewer bytes than a frame. -/
theorem preview_within {commandId : String} {preview : BoundedRows}
    (counted : preview.encodedBytes = size (.array preview.rows))
    (fits : (success [("commandId", .string commandId)] preview.toJson).size ≤ maxFrameBytes) :
    preview.encodedBytes < maxFrameBytes := by
  have bytes := preview_size commandId counted
  have braces := size_object ([("protocolVersion", protocolVersion),
    ("commandId", .string commandId), ("ok", .boolean true),
    ("result", { preview with rows := [] }.toJson)])
  have same : success [("commandId", .string commandId)] { preview with rows := [] }.toJson =
      .object [("protocolVersion", protocolVersion), ("commandId", .string commandId),
        ("ok", .boolean true), ("result", { preview with rows := [] }.toJson)] := rfl
  rw [← same] at braces
  simp only [length_cons, length_nil] at braces
  omega

variable (letters : Nat)

def note : Explorer.Driver.Value Int :=
  .object true [("note", .string (String.ofList (List.replicate letters 'a')))]

/-- The bytes of a note. -/
theorem note_size : (normalizeValue (fun _ => "") 0 (note letters)).size = letters + 11 := by
  have text : size (.string (String.ofList (List.replicate letters 'a'))) = letters + 2 := by
    rw [size_plain, String.toList_ofList, List.length_replicate]
    · intro symbol member
      rw [String.toList_ofList] at member
      rw [List.eq_of_mem_replicate member]
      decide
    · intro symbol member
      rw [String.toList_ofList] at member
      rw [List.eq_of_mem_replicate member]
      decide
  have name : Utf8.byteLength (renderString "note".toList) = 6 := by decide
  have object : normalizeValue (fun _ => "") 0 (note letters) =
      .object [("note", .string (String.ofList (List.replicate letters 'a')))] := rfl
  rw [object, size_object]
  simp only [propertySize, map_cons, map_nil, sum_cons, sum_nil,
    length_cons, length_nil, name, text]
  omega

def notePreview : BoundedRows :=
  executeReadOnly (fun _ => "") none [note letters]

/-- A preview keeps the one note that fits it. -/
theorem notePreview_whole {letters : Nat} (fits : letters + 13 ≤ maxPreviewBytes) :
    (notePreview letters).truncated = false ∧ (notePreview letters).encodedBytes = letters + 13 := by
  have taken : [note letters].take (previewRows none) = [note letters] := rfl
  have next : 2 + (normalizeValue (fun _ => "") 0 (note letters)).size + 0 = letters + 13 := by
    rw [note_size]
    omega
  have bounded : encodeBoundedRows (fun _ => "") [note letters] maxPreviewBytes =
      ⟨[normalizeValue (fun _ => "") 0 (note letters)], letters + 13, false⟩ := by
    rw [encodeBoundedRows, map_cons, map_nil, boundRows, length_nil, if_pos rfl,
      next, if_neg (Nat.not_lt.mpr fits)]
    rfl
  unfold notePreview executeReadOnly
  rw [taken, bounded]
  exact ⟨rfl, rfl⟩

/-- A server whose one command is a preview of a note. -/
def noteServer : WorkerServer where
  authenticate _ := some true
  handle _ := .ok (notePreview letters).toJson

/-- The command that asks for the preview. -/
def noteCall : Call (noteServer letters) where
  command := .object [("commandId", .string "c1")]
  commandId := "c1"
  result := (notePreview letters).toJson
  authentic := rfl
  named := rfl
  handled := rfl

/-- A note of as many letters as a frame has bytes is previewed whole, within a preview's limit,
and is answered with an error that names no command. -/
theorem longNote_undelivered :
    (notePreview maxFrameBytes).truncated = false ∧
      (notePreview maxFrameBytes).encodedBytes ≤ maxPreviewBytes ∧
      answers (noteServer maxFrameBytes) [(noteCall maxFrameBytes).command] = [protocolError] ∧
      ¬Delivered [noteCall maxFrameBytes] := by
  have fits : maxFrameBytes + 13 ≤ maxPreviewBytes := by decide
  obtain ⟨whole, bytes⟩ := notePreview_whole fits
  have counted := executeReadOnly_bytes (fun _ : Int => "") none [note maxFrameBytes]
  have large : maxFrameBytes < (noteCall maxFrameBytes).response.size := by
    by_contra small
    have within := preview_within counted.1 (Nat.le_of_not_lt small)
    change (notePreview maxFrameBytes).encodedBytes < maxFrameBytes at within
    omega
  have answered : answers (noteServer maxFrameBytes) [(noteCall maxFrameBytes).command] =
      [protocolError] := by
    rw [answers, (noteCall maxFrameBytes).respond_eq]
    exact if_pos large
  refine ⟨whole, counted.2, answered, ?_⟩
  intro delivered
  have read := delivered _ rfl
  rw [decodeFrames_written (noteServer maxFrameBytes) _ rfl] at read
  have same := (Prod.mk.inj (Except.ok.inj read)).1
  exact (noteCall maxFrameBytes).response_ne (List.cons.inj (answered.symm.trans same)).1

end NancyMan.SqlWorker
