import Mathlib.Data.List.Basic

/-!
# Base64url text of bytes

Bytes are written in groups of three as four symbols, without padding, and read by a lenient
reader that accepts both alphabets, skips every other symbol and stops at the first padding.
`decode_encode` is the round trip, and `encode_plain` says that the text avoids any symbol
outside the alphabet, so that it can stand between separators.
-/
namespace NancyMan.Base64Url

open List (length_map map_cons mem_cons mem_map)

/-- The symbol of a six-bit value. -/
def symbolOf (value : Nat) : Char :=
  if value < 26 then Char.ofNat (65 + value)
  else if value < 52 then Char.ofNat (71 + value)
  else if value < 62 then Char.ofNat (value - 4)
  else if value = 62 then '-'
  else '_'

/-- The value of a symbol of either alphabet. -/
def valueOf (symbol : Char) : Option Nat :=
  if 'A' ≤ symbol && symbol ≤ 'Z' then some (symbol.toNat - 65)
  else if 'a' ≤ symbol && symbol ≤ 'z' then some (symbol.toNat - 71)
  else if symbol.isDigit then some (symbol.toNat + 4)
  else if symbol = '-' || symbol = '+' then some 62
  else if symbol = '_' || symbol = '/' then some 63
  else none

/-- The six-bit values of bytes. -/
def sextets : List UInt8 → List Nat
  | a :: b :: c :: rest =>
    a.toNat / 4 :: (a.toNat % 4 * 16 + b.toNat / 16) :: (b.toNat % 16 * 4 + c.toNat / 64) ::
      c.toNat % 64 :: sextets rest
  | [a, b] => [a.toNat / 4, a.toNat % 4 * 16 + b.toNat / 16, b.toNat % 16 * 4]
  | [a] => [a.toNat / 4, a.toNat % 4 * 16]
  | [] => []

/-- The bytes of six-bit values; a single value left over is dropped. -/
def octets : List Nat → List UInt8
  | a :: b :: c :: d :: rest =>
    UInt8.ofNat (a * 4 + b / 16) :: UInt8.ofNat (b % 16 * 16 + c / 4) ::
      UInt8.ofNat (c % 4 * 64 + d) :: octets rest
  | [a, b, c] => [UInt8.ofNat (a * 4 + b / 16), UInt8.ofNat (b % 16 * 16 + c / 4)]
  | [a, b] => [UInt8.ofNat (a * 4 + b / 16)]
  | _ => []

variable (bytes : List UInt8)

/-- `bytes.toString('base64url')`. -/
def encode : List Char := (sextets bytes).map symbolOf

/-- `Buffer.from(text, 'base64url')`. -/
def decode (text : List Char) : List UInt8 :=
  octets ((text.takeWhile (· ≠ '=')).filterMap valueOf)

/-- `bytes.toString('base64')`: the other alphabet, with padding. -/
def encodePadded : List Char :=
  (encode bytes).map (fun symbol => if symbol = '-' then '+' else if symbol = '_' then '/' else symbol)
    ++ List.replicate ((3 - bytes.length % 3) % 3) '='

variable {value : Nat}

theorem valueOf_symbolOf (small : value < 64) : valueOf (symbolOf value) = some value := by
  have every : ∀ value < 64, valueOf (symbolOf value) = some value := by decide
  exact every value small

theorem symbolOf_ne_padding (small : value < 64) : symbolOf value ≠ '=' := by
  have every : ∀ value < 64, symbolOf value ≠ '=' := by decide
  exact every value small

/-- The six-bit values of bytes are below 64. -/
theorem sextets_small : ∀ value ∈ sextets bytes, value < 64 := by
  fun_induction sextets bytes with
  | case1 a b c rest ih =>
    have first := a.toNat_lt
    have second := b.toNat_lt
    have third := c.toNat_lt
    intro value member
    simp only [mem_cons] at member
    rcases member with rfl | rfl | rfl | rfl | member
    · omega
    · omega
    · omega
    · omega
    · exact ih value member
  | case2 a b =>
    have first := a.toNat_lt
    have second := b.toNat_lt
    intro value member
    simp only [mem_cons, List.not_mem_nil, or_false] at member
    omega
  | case3 a =>
    have first := a.toNat_lt
    intro value member
    simp only [mem_cons, List.not_mem_nil, or_false] at member
    omega
  | case4 => simp

/-- The values of bytes are put together to the bytes. -/
theorem octets_sextets : octets (sextets bytes) = bytes := by
  have rebuild (byte : UInt8) (value : Nat) (same : value = byte.toNat) :
      UInt8.ofNat value = byte := by
    rw [same, UInt8.ofNat_toNat]
  fun_induction sextets bytes with
  | case1 a b c rest ih =>
    have second := b.toNat_lt
    have third := c.toNat_lt
    rw [octets, ih, rebuild a _ (by omega), rebuild b _ (by omega), rebuild c _ (by omega)]
  | case2 a b =>
    have second := b.toNat_lt
    rw [octets, rebuild a _ (by omega), rebuild b _ (by omega)]
  | case3 a => rw [octets, rebuild a _ (by omega)]
  | case4 => rfl

/-- The symbols of small values are read as the values. -/
theorem read_symbols {values : List Nat} (small : ∀ value ∈ values, value < 64) :
    ((values.map symbolOf).takeWhile (· ≠ '=')).filterMap valueOf = values := by
  induction values with
  | nil => rfl
  | cons value values ih =>
    have here : value < 64 := small value (.head _)
    have others := ih fun other member => small other (.tail _ member)
    rw [map_cons, List.takeWhile_cons_of_pos (by simpa using symbolOf_ne_padding here),
      List.filterMap_cons_some (valueOf_symbolOf here), others]

@[simp] theorem decode_encode : decode (encode bytes) = bytes := by
  rw [decode, encode, read_symbols (sextets_small bytes), octets_sextets]

theorem encode_plain {separator : Char} (unused : ∀ value < 64, symbolOf value ≠ separator)
    (bytes : List UInt8) : separator ∉ encode bytes := by
  intro member
  obtain ⟨value, isValue, same⟩ := mem_map.mp member
  exact unused value (sextets_small bytes value isValue) same

theorem dot_not_mem_encode (bytes : List UInt8) : '.' ∉ encode bytes :=
  encode_plain (by decide) bytes

theorem encode_eq_nil {bytes : List UInt8} : encode bytes = [] ↔ bytes = [] := by
  constructor
  · intro empty
    rw [← decode_encode bytes, empty]
    rfl
  · rintro rfl
    rfl

def encodedLength (bytes : Nat) : Nat :=
  bytes / 3 * 4 + if bytes % 3 = 0 then 0 else bytes % 3 + 1

/-- The length of a text depends on the number of bytes alone. -/
theorem length_encode : (encode bytes).length = encodedLength bytes.length := by
  rw [encode, length_map]
  fun_induction sextets bytes with
  | case1 a b c rest ih =>
    simp only [List.length_cons, ih, encodedLength]
    have wraps : (rest.length + 1 + 1 + 1) % 3 = rest.length % 3 := by omega
    rw [wraps]
    omega
  | case2 a b => simp [encodedLength]
  | case3 a => simp [encodedLength]
  | case4 => rfl

/-- A text in base64 is longer than the bytes it is of, unless there are none. -/
theorem length_lt_encodePadded {bytes : List UInt8} (some' : bytes ≠ []) :
    bytes.length < (encodePadded bytes).length := by
  have positive : 0 < bytes.length := List.length_pos_iff.mpr some'
  have symbols : encodedLength bytes.length ≤ (encodePadded bytes).length := by
    rw [encodePadded, List.length_append, length_map, length_encode]
    exact Nat.le_add_right _ _
  have longer : bytes.length < encodedLength bytes.length := by
    unfold encodedLength
    split
    · omega
    · omega
  exact Nat.lt_of_lt_of_le longer symbols

theorem length_encodePadded : (encodePadded bytes).length = (bytes.length + 2) / 3 * 4 := by
  rw [encodePadded, List.length_append, length_map, length_encode, List.length_replicate]
  unfold encodedLength
  split <;> omega

@[simp] theorem decode_encodePadded : decode (encodePadded bytes) = bytes := by
  have unpadded : ∀ value < 64, (if symbolOf value = '-' then '+'
      else if symbolOf value = '_' then '/' else symbolOf value) ≠ '=' := by decide +kernel
  have same : ∀ value < 64, valueOf (if symbolOf value = '-' then '+'
      else if symbolOf value = '_' then '/' else symbolOf value) = some value := by decide +kernel
  have read (values : List Nat) (small : ∀ value ∈ values, value < 64) (padding : Nat) :
      (((values.map symbolOf).map (fun symbol =>
        if symbol = '-' then '+' else if symbol = '_' then '/' else symbol) ++
          List.replicate padding '=').takeWhile (· ≠ '=')).filterMap valueOf = values := by
    induction values with
    | nil =>
      cases padding with
      | zero => rfl
      | succ padding => rfl
    | cons value values ih =>
      have here : value < 64 := small value (.head _)
      have others := ih fun other member => small other (.tail _ member)
      rw [map_cons, map_cons, List.cons_append,
        List.takeWhile_cons_of_pos (by simpa using unpadded value here),
        List.filterMap_cons_some (same value here), others]
  rw [decode, encodePadded, encode, read _ (sextets_small bytes), octets_sextets]

/-- What holds of the symbols of the alphabet and of the padding holds of every symbol of a text. -/
theorem forall_encodePadded (holds : Char → Prop) (bytes : List UInt8)
    (symbols : ∀ value < 64, holds (if symbolOf value = '-' then '+'
      else if symbolOf value = '_' then '/' else symbolOf value))
    (padding : holds '=') : ∀ symbol ∈ encodePadded bytes, holds symbol := by
  intro symbol member
  rcases List.mem_append.mp member with found | padded
  · obtain ⟨plain, encoded, rfl⟩ := mem_map.mp found
    obtain ⟨value, among, rfl⟩ := mem_map.mp encoded
    exact symbols value (sextets_small bytes value among)
  · rw [List.eq_of_mem_replicate padded]
    exact padding

end NancyMan.Base64Url
