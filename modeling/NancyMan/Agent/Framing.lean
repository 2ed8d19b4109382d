import Mathlib.Data.List.Induction
import NancyMan.Lib.Fallible
import NancyMan.Lib.Frames
import NancyMan.Lib.JsonRoundTrip
import NancyMan.Lib.Utf8Decoder

/-!
# The frames of the agent's socket

Messages are sent as JSON in frames, and the decoder keeps the bytes of a frame that is not whole
yet. What it returns for a stream of frames does not depend on how the stream is cut into chunks, as
long as no chunk and the bytes kept before it are more than the buffer may hold; a chunk that makes
them more is refused.
-/
namespace NancyMan.Agent.Framing

open Frames (Stuck frame)

/-- `MAX_FRAME_BYTES`. -/
def maxFrameBytes : Nat := 1048576

/-- `MAX_BUFFER_BYTES`. -/
def maxBufferBytes : Nat := maxFrameBytes * 4

inductive FramingError where
  | frameTooLarge
  | bufferTooLarge
  | trailingBytes
  /-- The error that `JSON.parse` throws. -/
  | syntaxError
deriving DecidableEq

/-- `payload.toString('utf8')`: bytes that are no text have replacement characters. -/
def toText (payload : List UInt8) : String :=
  String.ofList ((Utf8.decode payload).getD (Utf8.decodeLossy payload))

def decodeJsonFrame (payload : List UInt8) : Option Json := Json.parse (toText payload)

def encodeFrame (value : Json) : Except FramingError (List UInt8) :=
  let payload := Utf8.bytes (Json.render value).toList
  if maxFrameBytes < payload.length then .error .frameTooLarge else .ok (frame payload)

structure FrameDecoder where
  buffer : List UInt8

namespace FrameDecoder

/-- `new FrameDecoder()`. -/
def initial : FrameDecoder := ⟨[]⟩

def push (decoder : FrameDecoder) (chunk : List UInt8) :
    Except FramingError (List Json × FrameDecoder) :=
  if maxBufferBytes < decoder.buffer.length + chunk.length then .error .bufferTooLarge
  else
    match Frames.push maxFrameBytes decodeJsonFrame decoder.buffer chunk with
    | .ok (decoded, left) => .ok (decoded, ⟨left⟩)
    | .error .tooLarge => .error .frameTooLarge
    | .error .malformed => .error .syntaxError

def finish (decoder : FrameDecoder) : Except FramingError (List Json) :=
  if decoder.buffer.length ≠ 0 then .error .trailingBytes else .ok []

/-- The chunks of a stream in order. -/
def pushAll (decoder : FrameDecoder) :
    List (List UInt8) → Except FramingError (List Json × FrameDecoder)
  | [] => .ok ([], decoder)
  | chunk :: chunks =>
    match decoder.push chunk with
    | .error error => .error error
    | .ok (decoded, after) =>
      (pushAll after chunks).map fun later => (decoded ++ later.1, later.2)

/-- Chunks are pushed in two parts. -/
theorem pushAll_append (decoder : FrameDecoder) (left right : List (List UInt8)) :
    decoder.pushAll (left ++ right) =
      match decoder.pushAll left with
      | .error error => .error error
      | .ok (decoded, after) =>
        (after.pushAll right).map fun later => (decoded ++ later.1, later.2) := by
  induction left generalizing decoder with
  | nil =>
    show decoder.pushAll right = (decoder.pushAll right).map fun later => ([] ++ later.1, later.2)
    cases decoder.pushAll right <;> rfl
  | cons chunk chunks ih =>
    rw [List.cons_append, pushAll, pushAll]
    cases decoder.push chunk with
    | error error => rfl
    | ok pushed =>
      dsimp only
      rw [ih pushed.2]
      cases pushed.2.pushAll chunks with
      | error error => rfl
      | ok first =>
        show Except.map _ (Except.map _ (first.2.pushAll right)) =
          Except.map _ (first.2.pushAll right)
        cases first.2.pushAll right with
        | error error => rfl
        | ok second =>
          show Except.ok (pushed.1 ++ (first.1 ++ second.1), second.2) =
            Except.ok (pushed.1 ++ first.1 ++ second.1, second.2)
          rw [List.append_assoc]

end FrameDecoder

/-! ## What a chunk may hold -/

/-- The bytes after the last whole part of a stream, of which some bytes have arrived. -/
def unfinished : List Nat → Nat → Nat
  | [], arrived => arrived
  | size :: sizes, arrived => if arrived < size then arrived else unfinished sizes (arrived - size)

/-- Every chunk fits into the buffer together with the unfinished frame before it. -/
def FitsBuffer (frames chunks : List (List UInt8)) : Prop :=
  ∀ before chunk after, chunks = before ++ chunk :: after →
    unfinished (frames.map List.length) before.flatten.length + chunk.length ≤ maxBufferBytes

/-- The unfinished bytes are those that no whole frame takes. -/
theorem unfinished_eq {bodies : List (List UInt8)} {left : List UInt8} (count : Nat)
    (stuck : Stuck left (bodies.drop count)) :
    unfinished ((bodies.map frame).map List.length)
      (((bodies.take count).flatMap frame).length + left.length) = left.length := by
  induction count generalizing bodies with
  | zero =>
    rw [List.take_zero, List.flatMap_nil, List.length_nil, Nat.zero_add]
    cases bodies with
    | nil => rfl
    | cons body rest =>
      have short : left.length < (frame body).length := stuck
      exact if_pos short
  | succ count ih =>
    cases bodies with
    | nil =>
      have empty : left = [] := stuck
      rw [empty]
      rfl
    | cons body rest =>
      have later := ih stuck
      rw [List.take_succ_cons, List.flatMap_cons, List.length_append]
      show (if (frame body).length + ((rest.take count).flatMap frame).length + left.length <
        (frame body).length then _ else unfinished _ _) = left.length
      rw [if_neg (by omega)]
      have rest_eq : (frame body).length + ((rest.take count).flatMap frame).length + left.length -
          (frame body).length = ((rest.take count).flatMap frame).length + left.length := by
        omega
      rw [rest_eq]
      exact later

variable {frames chunks : List (List UInt8)} {chunk rest : List UInt8} {decoded : List Json}
  {decoder : FrameDecoder}

theorem FitsBuffer.dropLast (fits : FitsBuffer frames (chunks ++ [chunk])) :
    FitsBuffer frames chunks := by
  intro before other after split
  exact fits before other (after ++ [chunk]) (by rw [split]; simp)

/-- Chunks fit when the first ones do and the last one does. -/
theorem fitsBuffer_concat (fits : FitsBuffer frames chunks)
    (last : unfinished (frames.map List.length) chunks.flatten.length + chunk.length ≤
      maxBufferBytes) : FitsBuffer frames (chunks ++ [chunk]) := by
  intro before other after split
  rcases List.eq_nil_or_concat after with rfl | ⟨others, final, rfl⟩
  · obtain ⟨same, alike⟩ := List.append_inj' split rfl
    obtain rfl : chunk = other := List.singleton_inj.mp alike
    exact same ▸ last
  · have cut : chunks ++ [chunk] = (before ++ other :: others) ++ [final] := by
      rw [split]
      simp
    obtain ⟨same, -⟩ := List.append_inj' cut rfl
    exact fits before other others same

/-- No more bytes are unfinished than have arrived. -/
theorem unfinished_le (sizes : List Nat) (arrived : Nat) : unfinished sizes arrived ≤ arrived := by
  induction sizes generalizing arrived with
  | nil => exact Nat.le_refl _
  | cons size sizes ih =>
    unfold unfinished
    split
    · exact Nat.le_refl _
    · exact Nat.le_trans (ih _) (Nat.sub_le _ _)

theorem fitsBuffer_of_short (short : chunks.flatten.length ≤ maxBufferBytes) :
    FitsBuffer frames chunks := by
  intro before chunk after split
  have kept := unfinished_le (frames.map List.length) before.flatten.length
  rw [split, List.flatten_append, List.flatten_cons, List.length_append, List.length_append] at short
  omega

/-! ## Decoding -/

variable {bodies : List (List UInt8)} {values : List Json}

/-- How far a decoder is in a stream: what it returned, and what it keeps of the next frame. -/
structure Reached (bodies : List (List UInt8)) (values : List Json) (rest : List UInt8)
    (count : Nat) (decoded : List Json) (decoder : FrameDecoder) : Prop where
  decoded : decoded = values.take count
  stream : decoder.buffer ++ rest = (bodies.drop count).flatMap frame
  stuck : Stuck decoder.buffer (bodies.drop count)

open FrameDecoder

/-- A chunk that fits is decoded. -/
theorem push_reached (readable : Frames.Readable maxFrameBytes decodeJsonFrame bodies values)
    {count : Nat} (reached : Reached bodies values (chunk ++ rest) count decoded decoder)
    (fits : decoder.buffer.length + chunk.length ≤ maxBufferBytes) :
    ∃ more found after, decoder.push chunk = .ok (found, after) ∧
      Reached bodies values rest (count + more) (decoded ++ found) after := by
  have readableRest := List.forall₂_drop count readable
  have stream : (decoder.buffer ++ chunk) ++ rest = (bodies.drop count).flatMap frame := by
    rw [List.append_assoc]
    exact reached.stream
  have small : maxFrameBytes < 4294967296 := by decide
  obtain ⟨more, left, drained, stays, stuck⟩ :=
    Frames.drain_stream small readableRest (Nat.le_refl _) stream
  have pushed : Frames.push maxFrameBytes decodeJsonFrame decoder.buffer chunk =
      .ok ((values.drop count).take more, left) := drained
  rw [List.drop_drop] at stays stuck
  refine ⟨more, (values.drop count).take more, ⟨left⟩, ?_, ?_, stays, stuck⟩
  · unfold push
    rw [if_neg (Nat.not_lt.mpr fits), pushed]
  · rw [reached.decoded, List.take_add]

/-- The bytes of a stream that a decoder has been given. -/
theorem Reached.given {arrived : List UInt8} {count : Nat}
    (reached : Reached bodies values rest count decoded decoder)
    (stream : arrived ++ rest = bodies.flatMap frame) :
    arrived = (bodies.take count).flatMap frame ++ decoder.buffer := by
  have whole : bodies.flatMap frame =
      (bodies.take count).flatMap frame ++ (bodies.drop count).flatMap frame := by
    rw [← List.flatMap_append, List.take_append_drop]
  rw [whole, ← reached.stream, ← List.append_assoc] at stream
  exact List.append_cancel_right stream

/-- Chunks that fit are decoded, and the first that does not is refused. -/
theorem pushAll_reached (readable : Frames.Readable maxFrameBytes decodeJsonFrame bodies values)
    (stream : chunks.flatten ++ rest = bodies.flatMap frame) :
    (FitsBuffer (bodies.map frame) chunks → ∃ count decoded decoder,
      initial.pushAll chunks = .ok (decoded, decoder) ∧
        Reached bodies values rest count decoded decoder) ∧
      (¬ FitsBuffer (bodies.map frame) chunks →
        initial.pushAll chunks = .error .bufferTooLarge) := by
  induction chunks using List.reverseRecOn generalizing rest with
  | nil =>
    constructor
    · intro _
      refine ⟨0, [], initial, rfl, rfl, stream, ?_⟩
      cases bodies with
      | nil => rfl
      | cons body others =>
        show 0 < (frame body).length
        rw [Frames.length_frame]
        omega
    · intro unfit
      exact absurd (fun before chunk after split => by cases before <;> cases split) unfit
  | append_singleton chunks chunk ih =>
    have earlier : chunks.flatten ++ (chunk ++ rest) = bodies.flatMap frame := by
      rw [← stream]
      simp
    obtain ⟨goes, refuses⟩ := ih earlier
    by_cases fitted : FitsBuffer (bodies.map frame) chunks
    · obtain ⟨count, decoded, decoder, pushed, reached⟩ := goes fitted
      -- What the decoder keeps is what is unfinished.
      have kept : unfinished ((bodies.map frame).map List.length) chunks.flatten.length =
          decoder.buffer.length := by
        rw [reached.given earlier, List.length_append]
        exact unfinished_eq count reached.stuck
      constructor
      · intro fits
        have room := fits chunks chunk [] rfl
        rw [kept] at room
        obtain ⟨more, found, after, taken, further⟩ := push_reached readable reached room
        refine ⟨count + more, decoded ++ found, after, ?_, further⟩
        rw [pushAll_append, pushed]
        dsimp only
        rw [pushAll, taken]
        show Except.ok (decoded ++ (found ++ []), after) = Except.ok (decoded ++ found, after)
        rw [List.append_nil]
      · intro unfit
        have full : maxBufferBytes < decoder.buffer.length + chunk.length := by
          apply Nat.lt_of_not_le
          intro room
          exact unfit (fitsBuffer_concat fitted (kept ▸ room))
        rw [pushAll_append, pushed]
        dsimp only
        rw [pushAll, push, if_pos full]
        rfl
    · have failed := refuses fitted
      constructor
      · intro fits
        exact absurd fits.dropLast fitted
      · intro _
        rw [pushAll_append, failed]

/-! ## Messages -/

def body (message : Json) : List UInt8 := Utf8.bytes (Json.render message).toList

theorem decodeJsonFrame_body (message : Json) : decodeJsonFrame (body message) = some message := by
  unfold decodeJsonFrame toText body
  rw [Utf8.decode_bytes, Option.getD_some, String.ofList_toList]
  exact Json.parse_render message

/-- An encoded message is the frame of its body, which is within the limit. -/
theorem encodeFrame_ok {message : Json} {encoded : List UInt8}
    (accepted : encodeFrame message = .ok encoded) :
    encoded = frame (body message) ∧ (body message).length ≤ maxFrameBytes := by
  unfold encodeFrame at accepted
  dsimp only at accepted
  split at accepted
  · cases accepted
  · rename_i short
    exact ⟨(Except.ok.inj accepted).symm, Nat.le_of_not_lt short⟩

/-- Encoded messages are frames of bodies that can be read. -/
theorem frames_of_encoded {messages : List Json}
    (encoded : messages.mapM encodeFrame = .ok frames) :
    frames = (messages.map body).map frame ∧
      Frames.Readable maxFrameBytes decodeJsonFrame (messages.map body) messages := by
  have pairs := Fallible.forall₂_of_mapM encoded
  clear encoded
  induction pairs with
  | nil => exact ⟨rfl, .nil⟩
  | @cons message first messages frames here _ ih =>
    obtain ⟨same, short⟩ := encodeFrame_ok here
    obtain ⟨others, readable⟩ := ih
    refine ⟨?_, .cons ⟨short, decodeJsonFrame_body message⟩ readable⟩
    rw [same, others]
    rfl

theorem length_take_flatten (frames : List (List UInt8)) (count more : Nat) :
    (frames.take (count + more)).flatten.length =
      (frames.take count).flatten.length + ((frames.drop count).take more).flatten.length := by
  rw [List.take_add, List.flatten_append, List.length_append]

/-- What is decoded of a stream of messages in any chunks that fit into the buffer: the messages
whose frames have arrived whole, in order, and all of them when the stream has arrived. The end is
accepted exactly on a frame boundary. A chunk that does not fit is refused. -/
theorem decodes_in_any_chunks {messages : List Json} {frames chunks : List (List UInt8)}
    {rest : List UInt8} (encoded : messages.mapM encodeFrame = .ok frames)
    (stream : chunks.flatten ++ rest = frames.flatten) :
    (FitsBuffer frames chunks → ∃ count decoder,
      FrameDecoder.initial.pushAll chunks = .ok (messages.take count, decoder) ∧
        chunks.flatten = (frames.take count).flatten ++ decoder.buffer ∧
        (∀ next ∈ frames[count]?, decoder.buffer.length < next.length) ∧
        (rest = [] → messages.take count = messages) ∧
        (decoder.finish = .ok [] ↔ ∃ whole, chunks.flatten = (frames.take whole).flatten)) ∧
      (¬ FitsBuffer frames chunks →
        FrameDecoder.initial.pushAll chunks = .error .bufferTooLarge) := by
  obtain ⟨shape, readable⟩ := frames_of_encoded encoded
  subst shape
  have joined : ((messages.map body).map frame).flatten = (messages.map body).flatMap frame :=
    List.flatMap_def.symm
  obtain ⟨goes, refuses⟩ := pushAll_reached readable (stream.trans joined)
  refine ⟨fun fits => ?_, refuses⟩
  obtain ⟨count, decoded, decoder, pushed, reached⟩ := goes fits
  have given := reached.given (stream.trans joined)
  have taken : (((messages.map body).map frame).take count).flatten =
      ((messages.map body).take count).flatMap frame := by
    rw [← List.map_take, List.flatMap_def]
  rw [← taken] at given
  have next : ∀ found ∈ ((messages.map body).map frame)[count]?,
      decoder.buffer.length < found.length := by
    intro found there
    obtain ⟨inside, here⟩ := List.getElem?_eq_some_iff.mp there
    have stuck := reached.stuck
    have within : count < (messages.map body).length := by simpa using inside
    rw [List.drop_eq_getElem_cons within] at stuck
    rwa [← here, List.getElem_map]
  refine ⟨count, decoder, reached.decoded ▸ pushed, given, next, ?_, ?_⟩
  · intro ended
    have left := reached.stream
    rw [ended, List.append_nil] at left
    have all : (messages.map body).drop count = [] := by
      cases others : (messages.map body).drop count with
      | nil => rfl
      | cons first others' =>
        have stuck := reached.stuck
        rw [others] at stuck left
        have short : decoder.buffer.length < (frame first).length := stuck
        have long := congrArg List.length left
        rw [List.flatMap_cons, List.length_append] at long
        omega
    have past := List.drop_eq_nil_iff.mp all
    rw [List.length_map] at past
    exact List.take_of_length_le past
  · have empty_iff : decoder.finish = .ok [] ↔ decoder.buffer = [] := by
      unfold finish
      cases decoder.buffer <;> simp
    rw [empty_iff]
    constructor
    · intro empty
      exact ⟨count, by rw [given, empty, List.append_nil]⟩
    · rintro ⟨whole, ends⟩
      have lengths := congrArg List.length (given.symm.trans ends)
      rw [List.length_append] at lengths
      rcases Nat.le_total whole count with before | after
      · obtain ⟨more, rfl⟩ := Nat.exists_eq_add_of_le before
        rw [length_take_flatten] at lengths
        exact List.length_eq_zero_iff.mp (by omega)
      · obtain ⟨more, rfl⟩ := Nat.exists_eq_add_of_le after
        rw [length_take_flatten] at lengths
        cases more with
        | zero =>
          exact List.length_eq_zero_iff.mp (by simpa using lengths)
        | succ more =>
          -- The next frame would have arrived whole.
          cases others : ((messages.map body).map frame).drop count with
          | nil =>
            rw [others] at lengths
            exact List.length_eq_zero_iff.mp (by simpa using lengths)
          | cons first others' =>
            have here : ((messages.map body).map frame)[count]? = some first := by
              have head := congrArg List.head? others
              rwa [List.head?_drop] at head
            have short := next first here
            rw [others, List.take_succ_cons, List.flatten_cons, List.length_append] at lengths
            omega

/-- Two messages, of which the header and the body of the first are divided. -/
theorem divided_messages_decode :
    FrameDecoder.initial.pushAll
        [[0, 0], [0, 4, 0x6e, 0x75], [0x6c, 0x6c, 0, 0, 0, 2, 0x5b, 0x5d]] =
      .ok ([.null, .array []], ⟨[]⟩) := by
  have encoded : [Json.null, .array []].mapM encodeFrame =
      .ok [[0, 0, 0, 4, 0x6e, 0x75, 0x6c, 0x6c], [0, 0, 0, 2, 0x5b, 0x5d]] := by
    decide +kernel
  have fits : FitsBuffer [[0, 0, 0, 4, 0x6e, 0x75, 0x6c, 0x6c], [0, 0, 0, 2, 0x5b, 0x5d]]
      [[0, 0], [0, 4, 0x6e, 0x75], [0x6c, 0x6c, 0, 0, 0, 2, 0x5b, 0x5d]] :=
    fitsBuffer_of_short (by decide)
  have stream : [[0, 0], [0, 4, 0x6e, 0x75], [0x6c, 0x6c, 0, 0, 0, 2, 0x5b, 0x5d]].flatten ++ [] =
      [[0, 0, 0, 4, 0x6e, 0x75, 0x6c, 0x6c], [0, 0, 0, 2, 0x5b, (0x5d : UInt8)]].flatten := by
    decide
  obtain ⟨count, decoder, pushed, -, -, all, ended⟩ :=
    (decodes_in_any_chunks encoded stream).1 fits
  have finished := ended.mpr ⟨2, by decide⟩
  cases decoder with
  | mk buffer =>
    cases buffer with
    | nil => rfl
    | cons byte bytes => cases finished

/-- The frames of many messages in one chunk are more than the buffer may hold. -/
theorem one_large_chunk_is_refused :
    ∃ (messages : List Json) (frames : List (List UInt8)),
      messages.mapM encodeFrame = .ok frames ∧
        FrameDecoder.initial.pushAll [frames.flatten] = .error .bufferTooLarge := by
  have first : encodeFrame .null = .ok [0, 0, 0, 4, 0x6e, 0x75, 0x6c, 0x6c] := by decide +kernel
  have encoded : ∀ count, (List.replicate count Json.null).mapM encodeFrame =
      .ok (List.replicate count [0, 0, 0, 4, 0x6e, 0x75, 0x6c, 0x6c]) := by
    intro count
    induction count with
    | zero => rfl
    | succ count ih =>
      rw [List.replicate_succ, List.mapM_cons, first, ih]
      rfl
  have long : maxBufferBytes < initial.buffer.length +
      (List.replicate 524289 [0, 0, 0, 4, 0x6e, 0x75, 0x6c, (0x6c : UInt8)]).flatten.length := by
    rw [List.length_flatten, List.map_replicate, List.sum_replicate_nat]
    decide
  refine ⟨List.replicate 524289 .null, _, encoded 524289, ?_⟩
  rw [pushAll, push, if_pos long]

end NancyMan.Agent.Framing
