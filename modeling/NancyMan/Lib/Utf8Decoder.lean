import NancyMan.Lib.Lines
import NancyMan.Lib.Machine
import NancyMan.Lib.Utf8

/-!
# Decoding UTF-8 with replacement

A decoder takes a byte at a time and answers the pieces that end there: the characters, and for each
ill-formed sequence, as long as it may be the beginning of a character, one replacement character.
A piece stands for one to four bytes, and a replacement character has three, so the text has at least
as many bytes as were decoded, and exactly as many when every ill-formed sequence has three.
-/
namespace NancyMan.Utf8

open List (cons_append map_append map_cons mem_singleton nil_append sum_cons)

/-- A sequence of bytes that may go on to a character: the bytes still needed, the bounds of the
next one, the code point so far, and the bytes seen. -/
structure Pending where
  needed : Nat
  lower : Nat
  upper : Nat
  point : Nat
  seen : Nat
deriving DecidableEq, Repr

/-- What a sequence of bytes stands for. -/
inductive Piece where
  | scalar (symbol : Char)
  | illFormed (size : Nat)
deriving DecidableEq, Repr

/-- The character of a piece. -/
def Piece.symbol : Piece → Char
  | .scalar symbol => symbol
  | .illFormed _ => Char.ofNat 0xFFFD

/-- The number of bytes of a piece. -/
def Piece.size : Piece → Nat
  | .scalar symbol => symbol.utf8Size
  | .illFormed size => size

/-- The first byte of a sequence. -/
def startByte (byte : Nat) : Option Pending × List Piece :=
  if byte < 0x80 then (none, [.scalar (Char.ofNat byte)])
  else if byte < 0xC2 then (none, [.illFormed 1])
  else if byte < 0xE0 then (some ⟨1, 0x80, 0xBF, byte - 0xC0, 1⟩, [])
  else if byte = 0xE0 then (some ⟨2, 0xA0, 0xBF, 0, 1⟩, [])
  else if byte = 0xED then (some ⟨2, 0x80, 0x9F, 0xD, 1⟩, [])
  else if byte < 0xF0 then (some ⟨2, 0x80, 0xBF, byte - 0xE0, 1⟩, [])
  else if byte = 0xF0 then (some ⟨3, 0x90, 0xBF, 0, 1⟩, [])
  else if byte < 0xF4 then (some ⟨3, 0x80, 0xBF, byte - 0xF0, 1⟩, [])
  else if byte = 0xF4 then (some ⟨3, 0x80, 0x8F, 4, 1⟩, [])
  else (none, [.illFormed 1])

/-- One byte. A byte that cannot continue a sequence ends it and starts another one. -/
def decodeByte (pending : Option Pending) (byte : UInt8) : Option Pending × List Piece :=
  match pending with
  | none => startByte byte.toNat
  | some pending =>
    if pending.lower ≤ byte.toNat ∧ byte.toNat ≤ pending.upper then
      let point := pending.point * 64 + (byte.toNat - 0x80)
      if pending.needed = 1 then (none, [.scalar (Char.ofNat point)])
      else (some ⟨pending.needed - 1, 0x80, 0xBF, point, pending.seen + 1⟩, [])
    else
      let (next, found) := startByte byte.toNat
      (next, .illFormed pending.seen :: found)

/-- What is left at the end. -/
def flush : Option Pending → List Piece
  | none => []
  | some pending => [.illFormed pending.seen]

def pieces (encoded : List UInt8) : List Piece :=
  Machine.outputs decodeByte none encoded ++ flush (Machine.after decodeByte none encoded)

def decodeLossy (encoded : List UInt8) : List Char := (pieces encoded).map Piece.symbol

/-! ## What a pending sequence may become -/

/-- The code points that a pending sequence may become are characters of as many bytes as it will
have: they begin at `low` and end before `top`. -/
def Spans (size low top : Nat) : Prop :=
  (size = 2 ∧ 0x80 ≤ low ∧ top ≤ 0x800) ∨
  (size = 3 ∧ 0x800 ≤ low ∧ top ≤ 0x10000 ∧ (top ≤ 0xD800 ∨ 0xE000 ≤ low)) ∨
  (size = 4 ∧ 0x10000 ≤ low ∧ top ≤ 0x110000)

/-- What is known of a pending sequence. -/
structure Pending.Sound (pending : Pending) : Prop where
  needs : 1 ≤ pending.needed
  sees : 1 ≤ pending.seen
  lower : 0x80 ≤ pending.lower
  upper : pending.upper ≤ 0xBF
  spans : Spans (pending.seen + pending.needed)
    ((pending.point * 64 + (pending.lower - 0x80)) * 64 ^ (pending.needed - 1))
    ((pending.point * 64 + (pending.upper - 0x80) + 1) * 64 ^ (pending.needed - 1))

variable {pending : Pending} {point : Nat} (state : Option Pending) (encoded line rest : List UInt8)
  {byte : Nat}

theorem Pending.Sound.seen_le (sound : pending.Sound) : pending.seen ≤ 3 := by
  have needs := sound.needs
  rcases sound.spans with ⟨size, -⟩ | ⟨size, -⟩ | ⟨size, -⟩ <;> omega

def SoundState : Prop := ∀ pending ∈ state, pending.Sound

theorem sound_first {needed lower upper : Nat} (needs : 1 ≤ needed) (low : 0x80 ≤ lower)
    (high : upper ≤ 0xBF)
    (spans : Spans (1 + needed) ((point * 64 + (lower - 0x80)) * 64 ^ (needed - 1))
      ((point * 64 + (upper - 0x80) + 1) * 64 ^ (needed - 1))) :
    SoundState (some ⟨needed, lower, upper, point, 1⟩) := by
  rintro pending ⟨⟩
  exact ⟨needs, Nat.le_refl 1, low, high, spans⟩

/-- A first byte leaves a sound sequence. -/
theorem startByte_sound (byte : Nat) : SoundState (startByte byte).1 := by
  have idle : SoundState none := nofun
  unfold startByte
  split_ifs
  · exact idle
  · exact idle
  · exact sound_first (by decide) (by decide) (by decide) (.inl ⟨rfl, by omega, by omega⟩)
  · exact sound_first (by decide) (by decide) (by decide)
      (.inr (.inl ⟨rfl, by decide, by decide, .inl (by decide)⟩))
  · exact sound_first (by decide) (by decide) (by decide)
      (.inr (.inl ⟨rfl, by decide, by decide, .inl (by decide)⟩))
  · exact sound_first (by decide) (by decide) (by decide)
      (.inr (.inl ⟨rfl, by omega, by omega, by omega⟩))
  · exact sound_first (by decide) (by decide) (by decide) (.inr (.inr ⟨rfl, by decide, by decide⟩))
  · exact sound_first (by decide) (by decide) (by decide) (.inr (.inr ⟨rfl, by omega, by omega⟩))
  · exact sound_first (by decide) (by decide) (by decide) (.inr (.inr ⟨rfl, by decide, by decide⟩))
  · exact idle

/-- A byte leaves a sound sequence. -/
theorem decodeByte_sound (byte : UInt8) (sound : SoundState state) :
    SoundState (decodeByte state byte).1 := by
  cases state with
  | none => exact startByte_sound byte.toNat
  | some pending =>
    have known := sound pending rfl
    unfold decodeByte
    dsimp only
    split_ifs with continues last
    · exact nofun
    · rintro next ⟨⟩
      have needs := known.needs
      have sees := known.sees
      have spans := known.spans
      obtain ⟨needed, lower, upper, point, seen⟩ := pending
      dsimp only at *
      have few : needed = 2 ∨ needed = 3 := by
        rcases spans with ⟨size, -⟩ | ⟨size, -⟩ | ⟨size, -⟩ <;> omega
      refine ⟨by dsimp only; omega, by dsimp only; omega, Nat.le_refl _, Nat.le_refl _, ?_⟩
      unfold Spans at spans ⊢
      dsimp only
      rcases few with rfl | rfl
      · omega
      · omega
    · exact startByte_sound byte.toNat

/-! ## Sizes -/

/-- A code point of a span is a character of its size. -/
theorem utf8Size_ofNat {size low top : Nat} (spans : Spans size low top) (above : low ≤ point)
    (below : point < top) :
    (Char.ofNat point).utf8Size = size ∧ (Char.ofNat point).toNat = point := by
  have valid : point.isValidChar := by
    rcases spans with ⟨-, first, last⟩ | ⟨-, first, last, apart⟩ | ⟨-, first, last⟩ <;> omega
  have same : (Char.ofNat point).toNat = point := by
    rw [Char.ofNat, dif_pos valid]
    rfl
  refine ⟨?_, same⟩
  have value : (Char.ofNat point).val.toNat = point := same
  unfold Char.utf8Size
  simp only [UInt32.le_iff_toNat_le, value]
  unfold Spans at spans
  have bounds : (UInt32.ofNatLT 0x7F (by decide)).toNat = 0x7F ∧
      (UInt32.ofNatLT 0x7FF (by decide)).toNat = 0x7FF ∧
      (UInt32.ofNatLT 0xFFFF (by decide)).toNat = 0xFFFF := by decide
  split_ifs <;> omega

def sizes (found : List Piece) : Nat := (found.map Piece.size).sum

/-- The bytes that are pending. -/
def seen : Option Pending → Nat
  | none => 0
  | some pending => pending.seen

theorem sizes_flush : sizes (flush state) = seen state := by
  cases state with
  | none => rfl
  | some pending => rfl

/-- A first byte is one byte. -/
theorem sizes_startByte (byte : Nat) : sizes (startByte byte).2 + seen (startByte byte).1 = 1 := by
  unfold startByte
  split_ifs with ascii
  · have spans : (Char.ofNat byte).utf8Size = 1 := by
      have valid : byte.isValidChar := .inl (by omega)
      have value : (Char.ofNat byte).val.toNat = byte := by
        rw [Char.ofNat, dif_pos valid]
        rfl
      have small : (Char.ofNat byte).val ≤ UInt32.ofNatLT 0x7F (by decide) := by
        rw [UInt32.le_iff_toNat_le, value]
        exact Nat.lt_succ_iff.mp ascii
      exact if_pos small
    simp [sizes, seen, Piece.size, spans]
  all_goals rfl

/-- A byte adds one byte to the pieces and what is pending. -/
theorem sizes_decodeByte {state : Option Pending} (byte : UInt8) (sound : SoundState state) :
    sizes (decodeByte state byte).2 + seen (decodeByte state byte).1 = seen state + 1 := by
  cases state with
  | none => exact (sizes_startByte byte.toNat).trans (Nat.zero_add 1).symm
  | some pending =>
    have known := sound pending rfl
    unfold decodeByte
    dsimp only
    split_ifs with continues last
    · have spans := known.spans
      rw [last, Nat.sub_self, Nat.pow_zero, Nat.mul_one, Nat.mul_one] at spans
      have size := (utf8Size_ofNat spans
        (show _ ≤ pending.point * 64 + (byte.toNat - 0x80) by omega) (by omega)).1
      simp [sizes, seen, Piece.size, size]
    · simp [sizes, seen]
    · have first := sizes_startByte byte.toNat
      simp only [sizes, seen, map_cons, sum_cons, Piece.size] at first ⊢
      omega

/-- The pieces of some bytes are as long as the bytes. -/
theorem sizes_pieces : sizes (pieces encoded) = encoded.length := by
  have grown (state : Option Pending) (sound : SoundState state) :
      sizes (Machine.outputs decodeByte state encoded) +
        seen (Machine.after decodeByte state encoded) = seen state + encoded.length := by
    induction encoded generalizing state with
    | nil => simp [sizes, Machine.outputs, Machine.trace, Machine.after]
    | cons byte rest ih =>
      have first := sizes_decodeByte byte sound
      have later := ih (decodeByte state byte).1 (decodeByte_sound state byte sound)
      rw [Machine.outputs_cons]
      simp only [sizes, map_append, List.sum_append, List.length_cons, Machine.after]
        at first later ⊢
      omega
  have all := grown none fun _ found => by cases found
  have rest := sizes_flush (Machine.after decodeByte none encoded)
  have none' : seen none = 0 := rfl
  rw [pieces]
  simp only [sizes, map_append, List.sum_append] at all rest ⊢
  omega

/-! ## What holds of every piece -/

/-- What holds of the pieces of each byte and of what is left at the end holds of every piece. -/
theorem forall_pieces {holds : Piece → Prop} {encoded : List UInt8}
    (each : ∀ state byte, SoundState state → byte ∈ encoded →
      ∀ piece ∈ (decodeByte state byte).2, holds piece)
    (left : ∀ state, SoundState state → ∀ piece ∈ flush state, holds piece) :
    ∀ piece ∈ pieces encoded, holds piece := by
  have all (state : Option Pending) (sound : SoundState state) :
      (∀ piece ∈ Machine.outputs decodeByte state encoded, holds piece) ∧
        SoundState (Machine.after decodeByte state encoded) := by
    induction encoded generalizing state with
    | nil => exact ⟨nofun, sound⟩
    | cons byte rest ih =>
      have later := ih (fun state other known member => each state other known (.tail _ member))
        (decodeByte state byte).1 (decodeByte_sound state byte sound)
      refine ⟨fun piece found => ?_, later.2⟩
      rcases List.mem_append.mp found with here | there
      · exact each state byte sound List.mem_cons_self piece here
      · exact later.1 piece there
  have known := all none nofun
  intro piece member
  rcases List.mem_append.mp member with found | rest
  · exact known.1 piece found
  · exact left _ known.2 piece rest

def Piece.Short (piece : Piece) : Prop := ∀ size, piece = .illFormed size → size ≤ 3

/-- The pieces of a first byte are short. -/
theorem short_startByte (byte : Nat) : ∀ piece ∈ (startByte byte).2, piece.Short := by
  intro piece found
  unfold startByte at found
  split_ifs at found <;> simp only [mem_singleton, List.not_mem_nil] at found
  · rintro size rfl
    cases found
  · subst found
    rintro size ⟨⟩
    decide
  · subst found
    rintro size ⟨⟩
    decide

/-- Every piece is short. -/
theorem short_of_mem_pieces {encoded : List UInt8} : ∀ piece ∈ pieces encoded, piece.Short := by
  refine forall_pieces (fun state byte sound _ piece found => ?_) fun state sound piece left => ?_
  · cases state with
    | none => exact short_startByte byte.toNat piece found
    | some pending =>
      unfold decodeByte at found
      dsimp only at found
      split_ifs at found
      · rw [mem_singleton.mp found]
        nofun
      · cases found
      · rcases List.mem_cons.mp found with rfl | later
        · rintro size ⟨⟩
          exact (sound pending rfl).seen_le
        · exact short_startByte byte.toNat piece later
  · cases state with
    | none => cases left
    | some pending =>
      rw [mem_singleton.mp left]
      rintro size ⟨⟩
      exact (sound pending rfl).seen_le

/-! ## Line feeds -/

def newline : UInt8 := 10

/-- A line feed ends what is pending. -/
theorem decodeByte_newline {state : Option Pending} (sound : SoundState state) :
    decodeByte state newline = (none, flush state ++ [.scalar (Char.ofNat 10)]) := by
  cases state with
  | none => rfl
  | some pending =>
    have low := (sound pending rfl).lower
    have apart : ¬ (pending.lower ≤ newline.toNat ∧ newline.toNat ≤ pending.upper) := by
      rintro ⟨within, -⟩
      have ten : newline.toNat = 10 := rfl
      omega
    unfold decodeByte
    dsimp only
    rw [if_neg apart]
    rfl

theorem after_sound : SoundState (Machine.after decodeByte none encoded) := by
  have idle : SoundState none := nofun
  exact Machine.invariant_after decodeByte_sound idle encoded

/-- The pieces of two lines are those of each, with a line feed between. -/
theorem pieces_newline :
    pieces (line ++ newline :: rest) =
      pieces line ++ .scalar (Char.ofNat 10) :: pieces rest := by
  have ends := decodeByte_newline (after_sound line)
  have last : Machine.after decodeByte none (line ++ newline :: rest) =
      Machine.after decodeByte none rest := by
    rw [Machine.after_append, Machine.after, ends]
  have found : Machine.outputs decodeByte none (line ++ newline :: rest) =
      Machine.outputs decodeByte none line ++
        ((flush (Machine.after decodeByte none line) ++ [.scalar (Char.ofNat 10)]) ++
          Machine.outputs decodeByte none rest) := by
    rw [Machine.outputs, Machine.trace_append, List.flatMap_append]
    show _ ++ Machine.outputs decodeByte _ (newline :: rest) = _
    rw [Machine.outputs_cons, ends]
    rfl
  rw [pieces, last, found, pieces, pieces]
  simp only [List.append_assoc, cons_append, nil_append]

theorem decodeLossy_newline :
    decodeLossy (line ++ newline :: rest) = decodeLossy line ++ '\n' :: decodeLossy rest := by
  rw [decodeLossy, pieces_newline, map_append, map_cons]
  rfl

/-- Only the byte of a line feed stands for one. -/
theorem newline_not_mem_decodeLossy {line : List UInt8} (plain : newline ∉ line) :
    '\n' ∉ decodeLossy line := by
  have first (byte : UInt8) (other : byte ≠ newline) :
      ∀ piece ∈ (startByte byte.toNat).2, piece.symbol ≠ '\n' := by
    intro piece found
    have apart : byte.toNat ≠ 10 := fun same => other (UInt8.toNat.inj same)
    unfold startByte at found
    split_ifs at found with ascii <;> simp only [mem_singleton, List.not_mem_nil] at found
    · subst found
      have value : (Char.ofNat byte.toNat).toNat = byte.toNat := by
        rw [Char.ofNat, dif_pos (.inl (by omega))]
        rfl
      intro same
      rw [show Char.ofNat byte.toNat = '\n' from same] at value
      exact apart value.symm
    · subst found
      decide
    · subst found
      decide
  have replaced (size : Nat) : (Piece.illFormed size).symbol ≠ '\n' := by
    show Char.ofNat 0xFFFD ≠ '\n'
    decide
  have all : ∀ piece ∈ pieces line, piece.symbol ≠ '\n' := by
    refine forall_pieces (fun state byte sound member piece found => ?_)
      fun state _ piece left => ?_
    · have other : byte ≠ newline := fun same => plain (same ▸ member)
      cases state with
      | none => exact first byte other piece found
      | some pending =>
        have known := sound pending rfl
        unfold decodeByte at found
        dsimp only at found
        split_ifs at found with continues last
        · rw [mem_singleton.mp found]
          have spans := known.spans
          rw [last, Nat.sub_self, Nat.pow_zero, Nat.mul_one, Nat.mul_one] at spans
          have size := (utf8Size_ofNat spans
            (show _ ≤ pending.point * 64 + (byte.toNat - 0x80) by omega) (by omega)).1
          have sees := known.sees
          intro same
          rw [show Char.ofNat _ = '\n' from same] at size
          have one : '\n'.utf8Size = 1 := by decide
          omega
        · cases found
        · rcases List.mem_cons.mp found with rfl | later
          · exact replaced pending.seen
          · exact first byte other piece later
    · cases state with
      | none => cases left
      | some pending =>
        rw [mem_singleton.mp left]
        exact replaced pending.seen
  intro member
  obtain ⟨piece, found, same⟩ := List.mem_map.mp member
  exact all piece found same

/-- The complete lines of a text are those of its bytes. -/
theorem completeLines_decodeLossy :
    Lines.completeLines '\n' (decodeLossy encoded) =
      (Lines.completeLines newline encoded).map decodeLossy := by
  induction encoded using Lines.lines_induction newline with
  | last items plain =>
    rw [Lines.completeLines_plain plain,
      Lines.completeLines_plain (newline_not_mem_decodeLossy plain)]
    rfl
  | more line rest plain ih =>
    rw [decodeLossy_newline, Lines.completeLines_cons (newline_not_mem_decodeLossy plain),
      Lines.completeLines_cons plain, ih]
    rfl

/-! ## Lengths -/

def Measured (encoded : List UInt8) : Prop :=
  ∀ piece ∈ pieces encoded, piece.size = piece.symbol.utf8Size

instance (encoded : List UInt8) : Decidable (Measured encoded) :=
  inferInstanceAs (Decidable (∀ piece ∈ pieces encoded, piece.size = piece.symbol.utf8Size))

theorem byteLength_eq_sum (text : List Char) : byteLength text = (text.map Char.utf8Size).sum := by
  induction text with
  | nil => rfl
  | cons symbol rest ih =>
    rw [map_cons, sum_cons, ← ih, byteLength, bytes, List.flatMap_cons,
      List.length_append, String.length_utf8EncodeChar]
    rfl

/-- A text has at least as many bytes as were decoded, and as many exactly when each ill-formed
sequence has three. -/
theorem byteLength_decodeLossy :
    encoded.length ≤ byteLength (decodeLossy encoded) ∧
      (encoded.length = byteLength (decodeLossy encoded) ↔ Measured encoded) := by
  have all (found : List Piece) (short : ∀ piece ∈ found, piece.Short) :
      sizes found ≤ ((found.map Piece.symbol).map Char.utf8Size).sum ∧
        (sizes found = ((found.map Piece.symbol).map Char.utf8Size).sum ↔
          ∀ piece ∈ found, piece.size = piece.symbol.utf8Size) := by
    induction found with
    | nil => simp [sizes]
    | cons piece rest ih =>
      have others := ih fun other member => short other (.tail _ member)
      have small : piece.size ≤ piece.symbol.utf8Size := by
        cases piece with
        | scalar symbol => exact Nat.le_refl _
        | illFormed size => exact short _ List.mem_cons_self size rfl
      simp only [sizes, map_cons, sum_cons, List.forall_mem_cons] at others ⊢
      refine ⟨by omega, ?_⟩
      rw [← others.2]
      omega
  have known := all (pieces encoded) short_of_mem_pieces
  rw [sizes_pieces] at known
  rw [byteLength_eq_sum]
  exact known

/-! ## The bytes of a text -/

/-- A byte that continues a sequence. -/
theorem decodeByte_continues (low : pending.lower ≤ byte) (high : byte ≤ pending.upper)
    (small : byte < 256) :
    decodeByte (some pending) (UInt8.ofNat byte) =
      if pending.needed = 1 then
        (none, [.scalar (Char.ofNat (pending.point * 64 + (byte - 0x80)))])
      else (some ⟨pending.needed - 1, 0x80, 0xBF, pending.point * 64 + (byte - 0x80),
        pending.seen + 1⟩, []) := by
  have value : (UInt8.ofNat byte).toNat = byte := by
    rw [UInt8.toNat_ofNat']
    omega
  rw [decodeByte, value, if_pos ⟨low, high⟩]

theorem startByte_two (low : 0xC2 ≤ byte) (high : byte < 0xE0) :
    startByte byte = (some ⟨1, 0x80, 0xBF, byte - 0xC0, 1⟩, []) := by
  rw [startByte, if_neg (by omega), if_neg (by omega), if_pos high]

/-- A first byte that begins a sequence of three. -/
theorem startByte_three (low : 0xE0 ≤ byte) (high : byte < 0xF0) :
    startByte byte = (some ⟨2, if byte = 0xE0 then 0xA0 else 0x80,
      if byte = 0xED then 0x9F else 0xBF, byte - 0xE0, 1⟩, []) := by
  rw [startByte, if_neg (by omega), if_neg (by omega), if_neg (by omega)]
  by_cases first : byte = 0xE0
  · subst first
    rfl
  · rw [if_neg first, if_neg first]
    by_cases surrogates : byte = 0xED
    · subst surrogates
      rfl
    · rw [if_neg surrogates, if_neg surrogates, if_pos high]

/-- A first byte that begins a sequence of four. -/
theorem startByte_four (low : 0xF0 ≤ byte) (high : byte ≤ 0xF4) :
    startByte byte = (some ⟨3, if byte = 0xF0 then 0x90 else 0x80,
      if byte = 0xF4 then 0x8F else 0xBF, byte - 0xF0, 1⟩, []) := by
  rw [startByte, if_neg (by omega), if_neg (by omega), if_neg (by omega), if_neg (by omega),
    if_neg (by omega), if_neg (by omega)]
  by_cases first : byte = 0xF0
  · subst first
    rfl
  · rw [if_neg first, if_neg first]
    by_cases last : byte = 0xF4
    · subst last
      rfl
    · rw [if_neg last, if_neg last, if_pos (by omega)]

/-- The bytes of a character are one piece. -/
theorem pieces_char (symbol : Char) (rest : List UInt8) :
    Machine.outputs decodeByte none (String.utf8EncodeChar symbol ++ rest) =
        .scalar symbol :: Machine.outputs decodeByte none rest ∧
      Machine.after decodeByte none (String.utf8EncodeChar symbol ++ rest) =
        Machine.after decodeByte none rest := by
  have valid : symbol.val.toNat < 0xD800 ∨ 0xDFFF < symbol.val.toNat ∧ symbol.val.toNat < 0x110000 :=
    symbol.valid
  have back : Char.ofNat symbol.val.toNat = symbol := Char.ofNat_toNat symbol
  have start (byte : Nat) (small : byte < 256) :
      decodeByte none (UInt8.ofNat byte) = startByte byte := by
    rw [decodeByte, UInt8.toNat_ofNat', Nat.mod_eq_of_lt small]
  have joined {code : Nat} (same : code = symbol.val.toNat) : Char.ofNat code = symbol := by
    rw [same, back]
  unfold String.utf8EncodeChar
  dsimp only
  generalize symbol.val.toNat = code at valid joined
  split
  · have first : startByte code = (none, [.scalar (Char.ofNat code)]) := by
      rw [startByte, if_pos (by omega)]
    simp only [cons_append, nil_append, Machine.outputs_cons, Machine.after,
      start code (by omega), first, joined rfl, and_self]
  · split
    · have first : startByte (code / 64 % 32 + 192) = _ := startByte_two (by omega) (by omega)
      simp only [cons_append, nil_append, Machine.outputs_cons, Machine.after,
        start _ (show code / 64 % 32 + 192 < 256 by omega), first]
      rw [decodeByte_continues (by dsimp only; omega) (by dsimp only; omega) (by omega)]
      simp only [if_true, List.singleton_append, and_true]
      rw [joined (by omega)]
    · split
      · have first : startByte (code / 4096 % 16 + 224) = _ := startByte_three (by omega) (by omega)
        simp only [cons_append, nil_append, Machine.outputs_cons, Machine.after,
          start _ (show code / 4096 % 16 + 224 < 256 by omega), first]
        rw [decodeByte_continues (by dsimp only; split <;> omega) (by dsimp only; split <;> omega)
          (by omega)]
        simp only [show ¬(2 = 1) by omega, if_false, nil_append]
        rw [decodeByte_continues (by dsimp only; omega) (by dsimp only; omega) (by omega)]
        simp only [if_true, List.singleton_append, and_true]
        rw [joined (by omega)]
      · have first : startByte (code / 262144 % 8 + 240) = _ := startByte_four (by omega) (by omega)
        simp only [cons_append, nil_append, Machine.outputs_cons, Machine.after,
          start _ (show code / 262144 % 8 + 240 < 256 by omega), first]
        rw [decodeByte_continues (by dsimp only; split <;> omega) (by dsimp only; split <;> omega)
          (by omega)]
        simp only [show ¬(3 = 1) by omega, if_false, nil_append]
        rw [decodeByte_continues (by dsimp only; omega) (by dsimp only; omega) (by omega)]
        simp only [show ¬(3 - 1 = 1) by omega, if_false, nil_append]
        rw [decodeByte_continues (by dsimp only; omega) (by dsimp only; omega) (by omega)]
        simp only [if_true, List.singleton_append, and_true]
        rw [joined (by omega)]

/-- A text is read back from its bytes. -/
theorem decodeLossy_bytes (text : List Char) : decodeLossy (bytes text) = text := by
  have read : Machine.outputs decodeByte none (bytes text) = text.map .scalar ∧
      Machine.after decodeByte none (bytes text) = none := by
    induction text with
    | nil => exact ⟨rfl, rfl⟩
    | cons symbol rest ih =>
      obtain ⟨found, ended⟩ := pieces_char symbol (bytes rest)
      exact ⟨found.trans (by rw [ih.1]; rfl), ended.trans ih.2⟩
  rw [decodeLossy, pieces, read.1, read.2, flush, List.append_nil, List.map_map]
  exact List.map_id' text

end NancyMan.Utf8
