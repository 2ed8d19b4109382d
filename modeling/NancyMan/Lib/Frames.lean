import Mathlib.Data.List.Forall2

/-!
# Frames with a length prefix

A frame is a body after its length in four bytes, the most significant first. A decoder keeps
the bytes that are not a whole frame yet; however a stream of frames is cut into chunks, it
returns the values of the bodies in order and keeps nothing.
-/
namespace NancyMan.Frames

open List (append_nil length_append length_drop)

/-- The four bytes of a length. -/
def header (size : Nat) : List UInt8 :=
  [UInt8.ofNat (size / 16777216), UInt8.ofNat (size / 65536), UInt8.ofNat (size / 256),
    UInt8.ofNat size]

/-- A length and what follows it. -/
def readHeader : List UInt8 → Option (Nat × List UInt8)
  | a :: b :: c :: d :: rest =>
    some (a.toNat * 16777216 + b.toNat * 65536 + c.toNat * 256 + d.toNat, rest)
  | _ => none

def frame (body : List UInt8) : List UInt8 := header body.length ++ body

theorem readHeader_header {size : Nat} (small : size < 4294967296) (rest : List UInt8) :
    readHeader (header size ++ rest) = some (size, rest) := by
  have parts : size / 16777216 % 256 * 16777216 + size / 65536 % 256 * 65536 +
      size / 256 % 256 * 256 + size % 256 = size := by
    omega
  simp only [header, List.cons_append, List.nil_append, readHeader, UInt8.toNat_ofNat']
  rw [parts]

/-- Fewer than four bytes are no length. -/
theorem readHeader_short {buffer : List UInt8} (short : buffer.length < 4) :
    readHeader buffer = none := by
  match buffer with
  | [] => rfl
  | [_] => rfl
  | [_, _] => rfl
  | [_, _, _] => rfl
  | _ :: _ :: _ :: _ :: rest =>
    simp only [List.length_cons] at short
    omega

theorem length_frame (body : List UInt8) : (frame body).length = 4 + body.length := by
  rw [frame, length_append]
  rfl

inductive Failure where
  | tooLarge
  | malformed

variable {α : Type} (limit : Nat) (parse : List UInt8 → Option α)

/-- The values of the whole frames in a buffer, and the bytes that are left, in at most some
steps. -/
def drain : Nat → List UInt8 → Except Failure (List α × List UInt8)
  | 0, buffer => .ok ([], buffer)
  | steps + 1, buffer =>
    match readHeader buffer with
    | none => .ok ([], buffer)
    | some (size, rest) =>
      if limit < size then .error .tooLarge
      else if rest.length < size then .ok ([], buffer)
      else
        match parse (rest.take size) with
        | none => .error .malformed
        | some value =>
          (drain steps (rest.drop size)).map fun read => (value :: read.1, read.2)

def push (buffer chunk : List UInt8) : Except Failure (List α × List UInt8) :=
  drain limit parse (buffer ++ chunk).length (buffer ++ chunk)

/-- What several chunks complete. -/
def pushAll (buffer : List UInt8) : List (List UInt8) → Except Failure (List α × List UInt8)
  | [] => .ok ([], buffer)
  | chunk :: chunks =>
    match push limit parse buffer chunk with
    | .error failure => .error failure
    | .ok read => (pushAll read.2 chunks).map fun later => (read.1 ++ later.1, later.2)

def Readable (bodies : List (List UInt8)) (values : List α) : Prop :=
  List.Forall₂ (fun body value => body.length ≤ limit ∧ parse body = some value) bodies values

/-- A buffer that is the start of some frames holds none of them whole. -/
def Stuck (buffer : List UInt8) : List (List UInt8) → Prop
  | [] => buffer = []
  | body :: _ => buffer.length < (frame body).length

variable {limit parse} (small : limit < 4294967296)

include small

/-- A frame at the start of a buffer is read. -/
theorem drain_frame {body : List UInt8} {value : α}
    (short : body.length ≤ limit) (parsed : parse body = some value) (steps : Nat)
    (rest : List UInt8) :
    drain limit parse (steps + 1) (frame body ++ rest) =
      (drain limit parse steps rest).map fun read => (value :: read.1, read.2) := by
  have size : readHeader (frame body ++ rest) = some (body.length, body ++ rest) := by
    exact readHeader_header (by omega) _
  rw [drain, size]
  dsimp only
  rw [if_neg (Nat.not_lt.mpr short), if_neg (by rw [length_append]; omega),
    List.take_left, parsed, List.drop_left]

/-- A part of a frame waits. -/
theorem drain_part {body buffer missing : List UInt8}
    (short : body.length ≤ limit) (part : frame body = buffer ++ missing) (some' : missing ≠ [])
    (steps : Nat) : drain limit parse steps buffer = .ok ([], buffer) := by
  have missed : 0 < missing.length := List.length_pos_iff.mpr some'
  have total := congrArg List.length part
  rw [length_frame, length_append] at total
  cases steps with
  | zero => rfl
  | succ steps =>
    rw [drain]
    by_cases begun : buffer.length < 4
    · rw [readHeader_short begun]
    · -- the length is there, and the body is not
      have head : buffer.take 4 = header body.length := by
        have same := congrArg (List.take 4) part
        rw [List.take_append_of_le_length (Nat.le_of_not_lt begun)] at same
        exact same.symm
      have size : readHeader buffer = some (body.length, buffer.drop 4) := by
        conv_lhs => rw [← List.take_append_drop 4 buffer, head]
        exact readHeader_header (by omega) _
      rw [size]
      dsimp only
      rw [if_neg (Nat.not_lt.mpr short), if_pos (by rw [length_drop]; omega)]

/-- A buffer that starts a stream of frames is drained of those that are whole. -/
theorem drain_stream {bodies : List (List UInt8)} {values : List α}
    (readable : Readable limit parse bodies values) {steps : Nat} {buffer rest : List UInt8}
    (enough : buffer.length ≤ steps) (stream : buffer ++ rest = bodies.flatMap frame) :
    ∃ count left, drain limit parse steps buffer = .ok (values.take count, left) ∧
      left ++ rest = (bodies.drop count).flatMap frame ∧ Stuck left (bodies.drop count) := by
  induction readable generalizing steps buffer with
  | nil =>
    obtain ⟨empty, -⟩ := List.append_eq_nil_iff.mp stream
    subst empty
    refine ⟨0, [], ?_, stream, rfl⟩
    cases steps <;> rfl
  | @cons body value bodies values first others ih =>
    -- the buffer either ends inside the first frame or holds it whole
    have whole (after : List UInt8) (starts : buffer = frame body ++ after)
        (stays : after ++ rest = bodies.flatMap frame) :
        ∃ count left, drain limit parse steps buffer = .ok ((value :: values).take count, left) ∧
          left ++ rest = ((body :: bodies).drop count).flatMap frame ∧
          Stuck left ((body :: bodies).drop count) := by
      have bytes := congrArg List.length starts
      rw [length_append, length_frame] at bytes
      obtain ⟨steps, rfl⟩ : ∃ before, steps = before + 1 := ⟨steps - 1, by omega⟩
      have within : after.length ≤ steps := by omega
      obtain ⟨count, left, drained, waiting⟩ := ih within stays
      refine ⟨count + 1, left, ?_, waiting⟩
      rw [starts, drain_frame small first.1 first.2, drained]
      rfl
    rcases List.append_eq_append_iff.mp stream with ⟨missing, part, after⟩ | ⟨after, starts, stays⟩
    · by_cases none' : missing = []
      · subst none'
        rw [append_nil] at part
        exact whole [] (by rw [append_nil, part]) after
      · have cut : buffer.length < (frame body).length := by
          rw [part, length_append]
          have := List.length_pos_iff.mpr none'
          omega
        exact ⟨0, buffer, drain_part small first.1 part none' steps, stream, cut⟩
    · exact whole after starts stays.symm

/-- However a stream of frames is cut into chunks, its values are returned in order. -/
theorem pushAll_stream {chunks : List (List UInt8)}
    {bodies : List (List UInt8)} {values : List α} {buffer : List UInt8}
    (readable : Readable limit parse bodies values)
    (stream : buffer ++ chunks.flatten = bodies.flatMap frame) (stuck : Stuck buffer bodies) :
    pushAll limit parse buffer chunks = .ok (values, []) := by
  induction chunks generalizing bodies values buffer with
  | nil =>
    rw [List.flatten_nil, append_nil] at stream
    cases readable with
    | nil =>
      subst stream
      rfl
    | cons first others =>
      -- a whole frame would not be stuck
      exfalso
      have bytes := congrArg List.length stream
      rw [List.flatMap_cons, length_append] at bytes
      have cut : buffer.length < (frame _).length := stuck
      omega
  | cons chunk chunks ih =>
    rw [List.flatten_cons, ← List.append_assoc] at stream
    obtain ⟨count, left, drained, stays, held⟩ := drain_stream small readable (Nat.le_refl _) stream
    have waiting : Readable limit parse (bodies.drop count) (values.drop count) :=
      List.forall₂_drop count readable
    have pushed : push limit parse buffer chunk = .ok (values.take count, left) := drained
    rw [pushAll, pushed]
    dsimp only
    rw [ih waiting stays held]
    show Except.ok (values.take count ++ values.drop count, []) = _
    rw [List.take_append_drop]

/-- A stream of frames, in any chunks, is decoded to its values. -/
theorem pushAll_frames {chunks : List (List UInt8)}
    {bodies : List (List UInt8)} {values : List α} (readable : Readable limit parse bodies values)
    (stream : chunks.flatten = bodies.flatMap frame) :
    pushAll limit parse [] chunks = .ok (values, []) := by
  refine pushAll_stream small readable stream ?_
  cases readable with
  | nil => rfl
  | cons first others =>
    show 0 < (frame _).length
    rw [length_frame]
    omega

omit small

/-! ## Streams with a bad frame -/

section Reading

variable (limit : Nat) (parse : List UInt8 → Option α)

/-- The values of the whole frames of a stream before the first bad one, and the bytes that are left
or the way in which the first bad frame fails, in at most some steps. -/
def readFrames : Nat → List UInt8 → List α × Except Failure (List UInt8)
  | 0, buffer => ([], .ok buffer)
  | steps + 1, buffer =>
    match readHeader buffer with
    | none => ([], .ok buffer)
    | some (size, rest) =>
      if limit < size then ([], .error .tooLarge)
      else if rest.length < size then ([], .ok buffer)
      else
        match parse (rest.take size) with
        | none => ([], .error .malformed)
        | some value =>
          let later := readFrames steps (rest.drop size)
          (value :: later.1, later.2)

def valuesOf (stream : List UInt8) : List α := (readFrames limit parse stream.length stream).1

def leftOf (stream : List UInt8) : Except Failure (List UInt8) :=
  (readFrames limit parse stream.length stream).2

end Reading

/-- A decoder drains a buffer of its values where no frame is bad, and of nothing else. -/
theorem drain_eq_readFrames (steps : Nat) (buffer : List UInt8) :
    drain limit parse steps buffer =
      (readFrames limit parse steps buffer).2.map fun left =>
        ((readFrames limit parse steps buffer).1, left) := by
  induction steps generalizing buffer with
  | zero => rfl
  | succ steps ih =>
    rw [drain, readFrames]
    split
    · rfl
    · split
      · rfl
      · split
        · rfl
        · split
          · rfl
          · rw [ih]
            generalize readFrames limit parse steps _ = later
            cases later.2 <;> rfl

theorem length_readHeader {buffer rest : List UInt8} {size : Nat}
    (found : readHeader buffer = some (size, rest)) : buffer.length = rest.length + 4 := by
  match buffer, found with
  | _ :: _ :: _ :: _ :: later, found =>
    obtain ⟨-, rfl⟩ := Prod.mk.inj (Option.some.inj found)
    rfl

theorem readHeader_append {buffer rest : List UInt8} {size : Nat}
    (found : readHeader buffer = some (size, rest)) (more : List UInt8) :
    readHeader (buffer ++ more) = some (size, rest ++ more) := by
  match buffer, found with
  | _ :: _ :: _ :: _ :: later, found =>
    obtain ⟨rfl, rfl⟩ := Prod.mk.inj (Option.some.inj found)
    rfl

/-- As many steps as bytes are enough. -/
theorem readFrames_enough {steps : Nat} {buffer : List UInt8} (enough : buffer.length ≤ steps) :
    readFrames limit parse (steps + 1) buffer = readFrames limit parse steps buffer := by
  induction steps generalizing buffer with
  | zero =>
    obtain rfl := List.length_eq_zero_iff.mp (Nat.le_zero.mp enough)
    rfl
  | succ steps ih =>
    rw [readFrames]
    conv_rhs => rw [readFrames]
    split
    · rfl
    · rename_i size rest found
      have shorter := length_readHeader found
      have within : (rest.drop size).length ≤ steps := by
        rw [length_drop]
        omega
      rw [ih within]

/-- The steps beyond the bytes change nothing. -/
theorem readFrames_steps {steps : Nat} {buffer : List UInt8} (enough : buffer.length ≤ steps) :
    readFrames limit parse steps buffer = readFrames limit parse buffer.length buffer := by
  induction steps with
  | zero =>
    obtain rfl := List.length_eq_zero_iff.mp (Nat.le_zero.mp enough)
    rfl
  | succ steps ih =>
    rcases Nat.lt_or_ge steps buffer.length with more | within
    · rw [Nat.le_antisymm enough more]
    · rw [readFrames_enough within]
      exact ih within

/-- A stream is read as its start is, and then, where that has no bad frame, as what is left of it
with the rest. -/
theorem readFrames_append (steps : Nat) (stream more : List UInt8) (enough : stream.length ≤ steps) :
    readFrames limit parse (stream ++ more).length (stream ++ more) =
      match (readFrames limit parse steps stream).2 with
      | .error failure => ((readFrames limit parse steps stream).1, .error failure)
      | .ok left =>
        ((readFrames limit parse steps stream).1 ++ valuesOf limit parse (left ++ more),
          leftOf limit parse (left ++ more)) := by
  induction steps generalizing stream with
  | zero =>
    rfl
  | succ steps ih =>
    cases found : readHeader stream with
    | none =>
      rw [readFrames, found]
      rfl
    | some header =>
      obtain ⟨size, rest⟩ := header
      have shorter := length_readHeader found
      have longer := readHeader_append found more
      rw [readFrames, found]
      dsimp only
      by_cases large : limit < size
      · rw [if_pos large]
        have total : (stream ++ more).length = rest.length + more.length + 3 + 1 := by
          rw [length_append]
          omega
        rw [total, readFrames, longer]
        dsimp only
        rw [if_pos large]
      · rw [if_neg large]
        by_cases part : rest.length < size
        · rw [if_pos part]
          rfl
        · rw [if_neg part]
          have whole : ¬(rest ++ more).length < size := by
            rw [length_append]
            omega
          have body : (rest ++ more).take size = rest.take size :=
            List.take_append_of_le_length (Nat.le_of_not_lt part)
          have after : (rest ++ more).drop size = rest.drop size ++ more :=
            List.drop_append_of_le_length (Nat.le_of_not_lt part)
          have total : (stream ++ more).length = rest.length + more.length + 3 + 1 := by
            rw [length_append]
            omega
          rw [total, readFrames, longer]
          dsimp only
          rw [if_neg large, if_neg whole, body, after]
          cases parse (rest.take size) with
          | none => rfl
          | some value =>
            have within : (rest.drop size).length ≤ steps := by
              rw [length_drop]
              omega
            have fits : (rest.drop size ++ more).length ≤ rest.length + more.length + 3 := by
              rw [length_append, length_drop]
              omega
            rw [readFrames_steps fits, ih (rest.drop size) within]
            cases (readFrames limit parse steps (rest.drop size)).2 <;> rfl

/-- A chunk after a stream that has no bad frame completes values of the stream with it. -/
theorem valuesOf_append {stream left : List UInt8} (waiting : leftOf limit parse stream = .ok left)
    (chunk : List UInt8) :
    valuesOf limit parse (stream ++ chunk) =
        valuesOf limit parse stream ++ valuesOf limit parse (left ++ chunk) ∧
      leftOf limit parse (stream ++ chunk) = leftOf limit parse (left ++ chunk) := by
  have both := @readFrames_append α limit parse stream.length stream chunk (Nat.le_refl _)
  have left' : (readFrames limit parse stream.length stream).2 = .ok left := waiting
  rw [left'] at both
  have values := congrArg Prod.fst both
  have lefts := congrArg Prod.snd both
  exact ⟨values, lefts⟩

theorem push_eq (buffer chunk : List UInt8) :
    push limit parse buffer chunk =
      (leftOf limit parse (buffer ++ chunk)).map fun left =>
        (valuesOf limit parse (buffer ++ chunk), left) :=
  drain_eq_readFrames _ _

end NancyMan.Frames
