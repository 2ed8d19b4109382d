import Mathlib.Algebra.GroupWithZero.Nat
import Mathlib.Data.List.Basic

/-!
# The UTF-8 form of a text
-/
namespace NancyMan.Utf8

def bytes (text : List Char) : List UInt8 := text.flatMap String.utf8EncodeChar

def byteLength (text : List Char) : Nat := (bytes text).length

def text (encoded : List UInt8) : List Char :=
  ((encoded.toByteArray.utf8Decode?).map Array.toList).getD []

theorem text_bytes (symbols : List Char) : text (bytes symbols) = symbols := by
  have decoded : (bytes symbols).toByteArray.utf8Decode? = some symbols.toArray :=
    List.utf8Decode?_utf8Encode
  rw [text, decoded]
  rfl

def decode (encoded : List UInt8) : Option (List Char) :=
  (encoded.toByteArray.utf8Decode?).map Array.toList

theorem decode_bytes (symbols : List Char) : decode (bytes symbols) = some symbols := by
  have decoded : (bytes symbols).toByteArray.utf8Decode? = some symbols.toArray :=
    List.utf8Decode?_utf8Encode
  rw [decode, decoded]
  rfl

/-- Bytes that have a text are its form. -/
theorem bytes_of_decode {encoded : List UInt8} {symbols : List Char}
    (decoded : decode encoded = some symbols) : bytes symbols = encoded := by
  cases found : encoded.toByteArray.utf8Decode? with
  | none =>
    rw [decode, found] at decoded
    cases decoded
  | some read =>
    have same : read.toList = symbols := by
      rw [decode, found] at decoded
      exact Option.some.inj decoded
    have isSome : encoded.toByteArray.utf8Decode?.isSome := by rw [found]; rfl
    have encodes := ByteArray.utf8Encode_get_utf8Decode? (h := isSome)
    have got : encoded.toByteArray.utf8Decode?.get isSome = read := by
      simp [found]
    rw [got, same] at encodes
    have lists := congrArg (fun array => array.data.toList) encodes
    simpa [List.utf8Encode, bytes] using lists

theorem bytes_append (left right : List Char) : bytes (left ++ right) = bytes left ++ bytes right :=
  List.flatMap_append

/-- A text has at least as many bytes as characters. -/
theorem length_le_byteLength (text : List Char) : text.length ≤ byteLength text := by
  induction text with
  | nil => exact Nat.zero_le _
  | cons symbol text ih =>
    have positive : 0 < (String.utf8EncodeChar symbol).length := by
      rw [String.length_utf8EncodeChar]
      exact symbol.utf8Size_pos
    simp only [byteLength, bytes, List.flatMap_cons, List.length_append, List.length_cons] at ih ⊢
    omega

/-- A text of ASCII characters has one byte for each. -/
theorem byteLength_ascii {text : List Char} (ascii : ∀ symbol ∈ text, symbol.toNat < 128) :
    byteLength text = text.length := by
  induction text with
  | nil => rfl
  | cons symbol text ih =>
    have single : (String.utf8EncodeChar symbol).length = 1 := by
      have small : symbol.toNat ≤ 127 := Nat.lt_succ_iff.mp (ascii symbol (.head _))
      simp [String.utf8EncodeChar, small]
    have others := ih fun other member => ascii other (.tail _ member)
    simp only [byteLength, bytes, List.flatMap_cons, List.length_append, List.length_cons] at others ⊢
    omega

/-- A byte of a character below 128 is the character itself. -/
theorem toNat_of_mem_utf8EncodeChar {byte : UInt8} {symbol : Char}
    (member : byte ∈ String.utf8EncodeChar symbol) (ascii : byte.toNat < 128) :
    symbol.toNat = byte.toNat := by
  unfold String.utf8EncodeChar at member
  simp only at member
  split at member
  · rename_i small
    obtain rfl : byte = UInt8.ofNat symbol.val.toNat := by simpa using member
    rw [UInt8.toNat_ofNat']
    show symbol.val.toNat = _
    omega
  · have large (value offset : Nat) (lead : 128 ≤ offset) (fits : value + offset < 256)
        (same : byte = UInt8.ofNat (value + offset)) : False := by
      rw [same, UInt8.toNat_ofNat'] at ascii
      omega
    split at member
    · simp only [List.mem_cons, List.not_mem_nil, or_false] at member
      rcases member with same | same
      · exact absurd (large _ _ (by omega) (by omega) same) id
      · exact absurd (large _ _ (by omega) (by omega) same) id
    · split at member
      · simp only [List.mem_cons, List.not_mem_nil, or_false] at member
        rcases member with same | same | same
        · exact absurd (large _ _ (by omega) (by omega) same) id
        · exact absurd (large _ _ (by omega) (by omega) same) id
        · exact absurd (large _ _ (by omega) (by omega) same) id
      · simp only [List.mem_cons, List.not_mem_nil, or_false] at member
        rcases member with same | same | same | same
        · exact absurd (large _ _ (by omega) (by omega) same) id
        · exact absurd (large _ _ (by omega) (by omega) same) id
        · exact absurd (large _ _ (by omega) (by omega) same) id
        · exact absurd (large _ _ (by omega) (by omega) same) id

theorem mem_of_mem_bytes {byte : UInt8} {text : List Char} (member : byte ∈ bytes text)
    (ascii : byte.toNat < 128) : ∃ symbol ∈ text, symbol.toNat = byte.toNat := by
  obtain ⟨symbol, isSymbol, encoded⟩ := List.mem_flatMap.mp member
  exact ⟨symbol, isSymbol, toNat_of_mem_utf8EncodeChar encoded ascii⟩

/-- Bytes of a text that begin with those of a character are of a text that begins with it. -/
theorem first_of_bytes {first other : Char} {text : List Char} {rest : List UInt8}
    (same : bytes (first :: text) = String.utf8EncodeChar other ++ rest) : first = other := by
  have joined : (String.utf8EncodeChar first ++ bytes text).toByteArray =
      (String.utf8EncodeChar other ++ rest).toByteArray := congrArg List.toByteArray same
  rw [List.toByteArray_append, List.toByteArray_append] at joined
  have own := ByteArray.utf8DecodeChar?_utf8EncodeChar_append (b := (bytes text).toByteArray)
    (c := first)
  rw [joined, ByteArray.utf8DecodeChar?_utf8EncodeChar_append] at own
  exact (Option.some.inj own).symm

end NancyMan.Utf8
