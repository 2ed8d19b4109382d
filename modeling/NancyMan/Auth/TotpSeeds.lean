import NancyMan.Lib.Js
import NancyMan.Lib.Regrouping
import Mathlib.Data.List.DropRight

/-!
# The text of a TOTP seed

A seed is written in base 32 and read back. Both loops shift their digits into a 32-bit word that they
never mask, and take digits of the other width from its pending bits. `base32_round_trip` says that
every seed is read back from its text, and which texts are written back as they were.
-/
namespace NancyMan.Auth.Totp

open List (foldl_append length_map map_append map_singleton mem_map)

def alphabet : List Char := "ABCDEFGHIJKLMNOPQRSTUVWXYZ234567".toList

/-- `alphabet[index]`, of an index that is masked to be within the alphabet. -/
def symbolOf (index : Nat) : Char := alphabet.getD index '='

/-- The local variables of `base32Encode`. -/
structure Encoder where
  bits : Nat
  value : BitVec 32
  output : List Char

/-- The loop `while (bits >= 5)`. -/
def drain (value : BitVec 32) : Nat → List Char → Encoder
  | bits + 5, output =>
    drain value bits (output ++ [symbolOf (Word32.shiftRight value bits &&& 31).toNat])
  | bits, output => ⟨bits, value, output⟩

def encodeByte (state : Encoder) (byte : UInt8) : Encoder :=
  drain (Word32.shiftLeft state.value 8 ||| BitVec.ofNat 32 byte.toNat) (state.bits + 8) state.output

def base32Encode (input : List UInt8) : List Char :=
  let state := input.foldl encodeByte ⟨0, 0, []⟩
  if 0 < state.bits then
    state.output ++ [symbolOf (Word32.shiftLeft state.value (5 - state.bits) &&& 31).toNat]
  else state.output

/-- The upper-case mapping of the characters of a text. -/
structure CaseMapping where
  /-- The characters that `toUpperCase` puts in the place of one. -/
  upperCase : Char → List Char
  ascii : ∀ symbol : Char, symbol.toNat < 128 → upperCase symbol = [symbol.toUpper]

variable (mapping : CaseMapping)

/-- `input.toUpperCase().replace(/=+$/u, '').replace(/\s+/gu, '')`. -/
def normalized (input : List Char) : List Char :=
  ((input.flatMap mapping.upperCase).rdropWhile (· = '=')).filter (!isWhitespace ·)

/-- The local variables of `base32Decode`. -/
structure Decoder where
  bits : Nat
  value : BitVec 32
  bytes : List UInt8

def decodeCharacter (state : Decoder) (character : Char) : Except String Decoder :=
  match alphabet.idxOf? character with
  | none => .error "Invalid Base32 TOTP seed"
  | some index =>
    let value := Word32.shiftLeft state.value 5 ||| BitVec.ofNat 32 index
    let bits := state.bits + 5
    if 8 ≤ bits then
      .ok ⟨bits - 8, value,
        state.bytes ++ [UInt8.ofNat (Word32.shiftRight value (bits - 8) &&& 0xff).toNat]⟩
    else .ok ⟨bits, value, state.bytes⟩

def base32Decode (input : List Char) : Except String (List UInt8) := do
  let state ← (normalized mapping input).foldlM decodeCharacter ⟨0, 0, []⟩
  return state.bytes

example : base32Encode [0x66, 0x6f, 0x6f, 0x62] = "MZXW6YQ".toList := by decide

/-! ## The alphabet -/

/-- The text of indices into the alphabet. -/
def textOf (indices : List Nat) : List Char := indices.map symbolOf

variable {index : Nat} {indices : List Nat} (input : List UInt8)

theorem idxOf?_symbolOf (small : index < 2 ^ 5) :
    alphabet.idxOf? (symbolOf index) = some index := by
  have every : ∀ index < 2 ^ 5, alphabet.idxOf? (symbolOf index) = some index := by decide
  exact every index small

/-- A text of the alphabet is read as it is. -/
theorem normalized_textOf (small : ∀ index ∈ indices, index < 2 ^ 5) :
    normalized mapping (textOf indices) = textOf indices := by
  have every : ∀ index < 2 ^ 5, (symbolOf index).toNat < 128 ∧
      (symbolOf index).toUpper = symbolOf index ∧ symbolOf index ≠ '=' ∧
      isWhitespace (symbolOf index) = false := by decide
  have plain (symbol : Char) (member : symbol ∈ textOf indices) : symbol.toNat < 128 ∧
      symbol.toUpper = symbol ∧ symbol ≠ '=' ∧ isWhitespace symbol = false := by
    obtain ⟨index, among, rfl⟩ := mem_map.mp member
    exact every index (small index among)
  have upper : (textOf indices).flatMap mapping.upperCase = textOf indices := by
    have single : ∀ symbol ∈ textOf indices, mapping.upperCase symbol = [symbol] := by
      intro symbol member
      have ascii := plain symbol member
      rw [mapping.ascii symbol ascii.1, ascii.2.1]
    rw [List.flatMap_congr single]
    exact List.flatMap_singleton' _
  have unpadded : (textOf indices).rdropWhile (· = '=') = textOf indices := by
    apply List.rdropWhile_eq_self_iff.mpr
    intro some' last
    exact (plain _ (List.getLast_mem some')).2.2.1 (of_decide_eq_true last)
  have spaced : (textOf indices).filter (!isWhitespace ·) = textOf indices := by
    apply List.filter_eq_self.mpr
    intro symbol member
    rw [(plain symbol member).2.2.2]
    rfl
  rw [normalized, upper, unpadded, spaced]

/-! ## The loops -/

/-- What the encoder holds after some bytes. -/
def Encodes (input : List UInt8) (state : Encoder) (indices : List Nat) : Prop :=
  Regroups 8 5 (input.map UInt8.toNat) indices state.bits state.value ∧
    state.output = textOf indices ∧ state.bits < 5

/-- The loop takes every whole symbol from the pending bits. -/
theorem drain_takes {pushed : List Nat} {value : BitVec 32} {bits : Nat} {output : List Char}
    (regroups : Regroups 8 5 pushed indices bits value) (written : output = textOf indices)
    (fits : bits ≤ 32) :
    ∃ taken, Regroups 8 5 pushed taken (drain value bits output).bits (drain value bits output).value ∧
      (drain value bits output).output = textOf taken ∧ (drain value bits output).bits < 5 := by
  fun_induction drain value bits output generalizing indices with
  | case1 bits output ih =>
    have next : Regroups 8 5 pushed (indices ++ [(Word32.shiftRight value bits &&& 31).toNat]) bits
        value := regroups.take rfl (by decide) (by omega) fits
    apply ih next _ (by omega)
    rw [written, textOf, textOf, map_append, map_singleton]
  | case2 bits output short =>
    refine ⟨indices, regroups, written, ?_⟩
    show bits < 5
    by_contra long
    exact short (bits - 5) (by omega)

theorem encodes_foldl : ∃ indices, Encodes input (input.foldl encodeByte ⟨0, 0, []⟩) indices := by
  induction input using List.reverseRecOn with
  | nil => exact ⟨[], .initial 8 5, rfl, by decide⟩
  | append_singleton input byte ih =>
    obtain ⟨indices, regroups, written, few⟩ := ih
    have pushed := regroups.push (by decide) byte.toNat_lt
    have fits : (input.foldl encodeByte ⟨0, 0, []⟩).bits + 8 ≤ 32 := by omega
    obtain ⟨taken, regrouped, output, left⟩ := drain_takes pushed written fits
    refine ⟨taken, ?_, ?_, ?_⟩
    · rw [foldl_append, map_append]
      exact regrouped
    · rw [foldl_append]
      exact output
    · rw [foldl_append]
      exact left

/-- The text of bytes has the digits of their number, after as few zero bits as fill its last symbol. -/
theorem base32Encode_digits :
    ∃ indices padding, base32Encode input = textOf indices ∧
      (∀ index ∈ indices, index < 2 ^ 5) ∧ padding < 5 ∧
      5 * indices.length = 8 * input.length + padding ∧
      Digits.number 5 indices = Digits.number 8 (input.map UInt8.toNat) * 2 ^ padding := by
  obtain ⟨indices, regroups, written, few⟩ := encodes_foldl input
  have count := regroups.count
  rw [length_map] at count
  rw [base32Encode]
  split
  · next pending =>
    obtain ⟨total, small⟩ := regroups.pad (show (31 : BitVec 32).toNat = 2 ^ 5 - 1 from rfl)
      (by omega) (by decide)
    refine ⟨indices ++ [_], 5 - _, ?_, fun index member => ?_, ?_, ?_, total⟩
    · rw [written, textOf, textOf, map_append, map_singleton]
    · rcases List.mem_append.mp member with before | last
      · exact regroups.small index before
      · rw [List.mem_singleton.mp last]
        exact small
    · omega
    · rw [List.length_append, List.length_singleton]
      omega
  · next whole =>
    have none' : (input.foldl encodeByte ⟨0, 0, []⟩).bits = 0 := by omega
    have total := regroups.total
    rw [none', Nat.pow_zero, Nat.div_one] at total
    refine ⟨indices, 0, written, regroups.small, by decide, by omega, ?_⟩
    rw [total, Nat.pow_zero, Nat.mul_one]

/-- What the decoder holds after some symbols. -/
def Decodes (indices : List Nat) (state : Decoder) : Prop :=
  Regroups 5 8 indices (state.bytes.map UInt8.toNat) state.bits state.value ∧ state.bits < 8

theorem decodeCharacter_takes {state : Decoder} (decodes : Decodes indices state)
    (small : index < 2 ^ 5) :
    ∃ next, decodeCharacter state (symbolOf index) = .ok next ∧ Decodes (indices ++ [index]) next := by
  obtain ⟨regroups, few⟩ := decodes
  have pushed := regroups.push (by decide) small
  simp only [decodeCharacter, idxOf?_symbolOf small]
  split
  · next enough =>
    have taken := pushed.take (show (0xff : BitVec 32).toNat = 2 ^ 8 - 1 from rfl) (by decide) enough
      (by omega)
    refine ⟨_, rfl, ?_, by simp only; omega⟩
    have byte : (UInt8.ofNat (Word32.shiftRight (Word32.shiftLeft state.value 5 |||
        BitVec.ofNat 32 index) (state.bits + 5 - 8) &&& 0xff).toNat).toNat =
        (Word32.shiftRight (Word32.shiftLeft state.value 5 ||| BitVec.ofNat 32 index)
          (state.bits + 5 - 8) &&& 0xff).toNat := by
      apply UInt8.toNat_ofNat_of_lt'
      exact taken.small _ (List.mem_append_right _ (.head _))
    rw [map_append, map_singleton, byte]
    exact taken
  · next short => exact ⟨_, rfl, pushed, by simp only; omega⟩

theorem decodes_foldlM (small : ∀ index ∈ indices, index < 2 ^ 5) :
    ∃ state, (textOf indices).foldlM decodeCharacter ⟨0, 0, []⟩ = .ok state ∧
      Decodes indices state := by
  induction indices using List.reverseRecOn with
  | nil => exact ⟨_, rfl, .initial 5 8, by decide⟩
  | append_singleton indices index ih =>
    obtain ⟨state, read, decodes⟩ := ih fun other member => small other (List.mem_append_left _ member)
    obtain ⟨next, step, decodes'⟩ := decodeCharacter_takes decodes
      (small index (List.mem_append_right _ (.head _)))
    refine ⟨next, ?_, decodes'⟩
    have last : textOf (indices ++ [index]) = textOf indices ++ [symbolOf index] := map_append
    rw [last, List.foldlM_append, read]
    show [symbolOf index].foldlM decodeCharacter state = .ok next
    rw [List.foldlM_cons, step]
    rfl

/-- A text of the alphabet is read as the bytes of its number, less the bits that fill no byte. -/
theorem base32Decode_digits (small : ∀ index ∈ indices, index < 2 ^ 5) :
    ∃ bytes left, base32Decode mapping (textOf indices) = .ok bytes ∧ left < 8 ∧
      8 * bytes.length + left = 5 * indices.length ∧
      Digits.number 8 (bytes.map UInt8.toNat) = Digits.number 5 indices / 2 ^ left := by
  obtain ⟨state, read, regroups, few⟩ := decodes_foldlM small
  have count := regroups.count
  rw [length_map] at count
  refine ⟨state.bytes, state.bits, ?_, few, count, regroups.total⟩
  rw [base32Decode, normalized_textOf mapping small, read]
  rfl

/-! ## The round trip -/

theorem bytes_inj {bytes others : List UInt8} (long : bytes.length = others.length)
    (same : Digits.number 8 (bytes.map UInt8.toNat) = Digits.number 8 (others.map UInt8.toNat)) :
    bytes = others := by
  have small (list : List UInt8) : ∀ digit ∈ list.map UInt8.toNat, digit < 2 ^ 8 := by
    intro digit member
    obtain ⟨byte, -, rfl⟩ := mem_map.mp member
    exact byte.toNat_lt
  apply List.map_injective_iff.mpr fun _ _ => UInt8.toNat.inj
  apply Digits.number_inj (by decide) _ (small bytes) (small others) same
  rw [length_map, length_map, long]

/-- A text of the alphabet whose last symbol has a bit of the last byte, and zeros after it. -/
def Canonical (text : List Char) : Prop :=
  ∃ indices : List Nat, text = textOf indices ∧ (∀ index ∈ indices, index < 2 ^ 5) ∧
    5 * indices.length % 8 < 5 ∧ 2 ^ (5 * indices.length % 8) ∣ Digits.number 5 indices

theorem base32Decode_base32Encode (input : List UInt8) :
    base32Decode mapping (base32Encode input) = .ok input := by
  obtain ⟨indices, padding, written, small, few, count, total⟩ := base32Encode_digits input
  obtain ⟨bytes, left, read, few', count', total'⟩ := base32Decode_digits mapping small
  have long : bytes.length = input.length := by omega
  have filled : left = padding := by omega
  have same : bytes = input := by
    apply bytes_inj long
    rw [total', total, filled, Nat.mul_div_cancel _ (Nat.two_pow_pos padding)]
  rw [written, read, same]

theorem canonical_base32Encode : Canonical (base32Encode input) := by
  obtain ⟨indices, padding, written, small, few, count, total⟩ := base32Encode_digits input
  have filled : 5 * indices.length % 8 = padding := by omega
  refine ⟨indices, written, small, by omega, ?_⟩
  rw [filled, total]
  exact Nat.dvd_mul_left ..

theorem base32Encode_base32Decode {text : List Char} (canonical : Canonical text) :
    ∃ input, base32Decode mapping text = .ok input ∧ base32Encode input = text := by
  obtain ⟨indices, rfl, small, few, zeros⟩ := canonical
  obtain ⟨bytes, left, read, few', count, total⟩ := base32Decode_digits mapping small
  obtain ⟨others, padding, written, small', few'', count', total'⟩ := base32Encode_digits bytes
  have spare : 5 * indices.length % 8 = left := by omega
  have filled : left = padding := by omega
  have same : others = indices := by
    apply Digits.number_inj (by decide) (by omega) small' small
    rw [spare] at zeros
    rw [total', total, ← filled, Nat.div_mul_cancel zeros]
  exact ⟨bytes, read, by rw [written, same]⟩

end NancyMan.Auth.Totp
