import Mathlib.Data.Nat.Digits.Defs

/-!
# Digits regrouped through a machine word

Digits of one width are shifted into a 32-bit word and digits of another width are taken from its
pending bits. The word is never masked: bits above the pending ones stay until they are shifted out.
`Regroups` says what such a word holds, whatever the two widths are, and what pushing, taking and
padding a digit make of it.
-/
namespace NancyMan

namespace Word32

/-- `value << count`, whose count is taken modulo 32. -/
def shiftLeft (value : BitVec 32) (count : Nat) : BitVec 32 := value <<< (count % 32)

/-- `value >>> count`. -/
def shiftRight (value : BitVec 32) (count : Nat) : BitVec 32 := value >>> (count % 32)

variable {value : BitVec 32} {count width : Nat}

theorem toNat_shiftLeft (fits : count < 32) :
    (shiftLeft value count).toNat = value.toNat * 2 ^ count % 2 ^ 32 := by
  rw [shiftLeft, Nat.mod_eq_of_lt fits, BitVec.toNat_shiftLeft, Nat.shiftLeft_eq]

/-- The low bits of a word from some place on. -/
theorem toNat_field {mask : BitVec 32} (fits : count < 32) (masks : mask.toNat = 2 ^ width - 1) :
    (shiftRight value count &&& mask).toNat = value.toNat / 2 ^ count % 2 ^ width := by
  rw [BitVec.toNat_and, masks, Nat.and_two_pow_sub_one_eq_mod, shiftRight, Nat.mod_eq_of_lt fits,
    BitVec.toNat_ushiftRight, Nat.shiftRight_eq_div_pow]

/-- A digit that is shifted in from below; what no longer fits is lost. -/
theorem toNat_push {digit : Nat} (fits : width < 32) (small : digit < 2 ^ width) :
    (shiftLeft value width ||| BitVec.ofNat 32 digit).toNat =
      (value.toNat * 2 ^ width + digit) % 2 ^ 32 := by
  have below : (2 : Nat) ^ width < 2 ^ 32 := Nat.pow_lt_pow_right (by decide) fits
  have own : digit % 2 ^ 32 = digit := Nat.mod_eq_of_lt (by omega)
  have split : (2 : Nat) ^ 32 = 2 ^ width * 2 ^ (32 - width) := by
    rw [← Nat.pow_add]
    congr 1
    omega
  -- The shifted word is a multiple of the digit's range, so the two share no bit.
  have shifted : value.toNat * 2 ^ width % 2 ^ 32 =
      2 ^ width * (value.toNat % 2 ^ (32 - width)) := by
    rw [split, Nat.mul_comm value.toNat, Nat.mul_mod_mul_left]
  have room : 2 ^ width * (value.toNat % 2 ^ (32 - width)) + digit < 2 ^ 32 := by
    have high := Nat.mod_lt value.toNat (Nat.two_pow_pos (32 - width))
    calc 2 ^ width * (value.toNat % 2 ^ (32 - width)) + digit
        < 2 ^ width * (value.toNat % 2 ^ (32 - width) + 1) := by rw [Nat.mul_succ]; omega
      _ ≤ 2 ^ width * 2 ^ (32 - width) := Nat.mul_le_mul_left _ high
      _ = 2 ^ 32 := split.symm
  rw [BitVec.toNat_or, toNat_shiftLeft fits, BitVec.toNat_ofNat, own, shifted,
    ← Nat.two_pow_add_eq_or_of_lt small, Nat.add_mod, shifted, own, Nat.mod_eq_of_lt room]

end Word32

namespace Digits

/-- The number that digits of a width denote, the first of them being the highest. -/
def number (width : Nat) (digits : List Nat) : Nat := Nat.ofDigits (2 ^ width) digits.reverse

variable {width : Nat} {digits others : List Nat}

@[simp] theorem number_nil : number width [] = 0 := rfl

theorem number_snoc (digits : List Nat) (digit : Nat) :
    number width (digits ++ [digit]) = number width digits * 2 ^ width + digit := by
  rw [number, List.reverse_append, List.reverse_singleton, List.singleton_append,
    Nat.ofDigits_cons, number]
  ring

/-- As many digits of the same number are the same digits. -/
theorem number_inj (wide : 0 < width) (long : digits.length = others.length)
    (small : ∀ digit ∈ digits, digit < 2 ^ width) (small' : ∀ digit ∈ others, digit < 2 ^ width)
    (same : number width digits = number width others) : digits = others := by
  apply List.reverse_inj.mp
  apply Nat.ofDigits_inj_of_len_eq (Nat.one_lt_two_pow (by omega)) _ _ _ same
  · simpa using long
  · simpa using small
  · simpa using small'

end Digits

open Digits

/-- What the digits that were pushed have left: those that were taken, the count of the pending bits,
and the word, which holds as much of the pushed number as fits. -/
structure Regroups (width taken : Nat) (pushed out : List Nat) (bits : Nat) (value : BitVec 32) :
    Prop where
  word : value.toNat = number width pushed % 2 ^ 32
  count : taken * out.length + bits = width * pushed.length
  total : number taken out = number width pushed / 2 ^ bits
  small : ∀ digit ∈ out, digit < 2 ^ taken

namespace Regroups

variable {width taken bits : Nat} {pushed out : List Nat} {value : BitVec 32}

theorem initial (width taken : Nat) : Regroups width taken [] [] 0 0 where
  word := rfl
  count := rfl
  total := by simp
  small := nofun

/-- A digit is pushed, whatever the word loses above. -/
theorem push (regroups : Regroups width taken pushed out bits value) {digit : Nat}
    (fits : width < 32) (small : digit < 2 ^ width) :
    Regroups width taken (pushed ++ [digit]) out (bits + width)
      (Word32.shiftLeft value width ||| BitVec.ofNat 32 digit) where
  word := by
    rw [Word32.toNat_push fits small, regroups.word, number_snoc, Nat.add_mod, Nat.mul_mod,
      Nat.mod_mod, ← Nat.mul_mod, ← Nat.add_mod]
  count := by
    have before := regroups.count
    rw [List.length_append, List.length_singleton, Nat.mul_add]
    omega
  total := by
    have dropped : (number width pushed * 2 ^ width + digit) / 2 ^ width = number width pushed := by
      rw [Nat.mul_comm, Nat.mul_add_div (Nat.two_pow_pos width), Nat.div_eq_of_lt small, Nat.add_zero]
    rw [regroups.total, number_snoc, Nat.pow_add, Nat.mul_comm (2 ^ bits), ← Nat.div_div_eq_div_mul,
      dropped]
  small := regroups.small

variable {mask : BitVec 32}

/-- The highest pending bits are taken; they are in the word while no more than its bits are pending. -/
theorem take (regroups : Regroups width taken pushed out bits value)
    (masks : mask.toNat = 2 ^ taken - 1) (positive : 0 < taken) (enough : taken ≤ bits)
    (fits : bits ≤ 32) :
    Regroups width taken pushed
      (out ++ [(Word32.shiftRight value (bits - taken) &&& mask).toNat]) (bits - taken) value := by
  have field : (Word32.shiftRight value (bits - taken) &&& mask).toNat =
      number width pushed / 2 ^ (bits - taken) % 2 ^ taken := by
    have split : (2 : Nat) ^ 32 = 2 ^ (bits - taken) * 2 ^ (32 - (bits - taken)) := by
      rw [← Nat.pow_add]
      congr 1
      omega
    have within : (2 : Nat) ^ taken ∣ 2 ^ (32 - (bits - taken)) := Nat.pow_dvd_pow 2 (by omega)
    rw [Word32.toNat_field (by omega) masks, regroups.word, split, Nat.mod_mul_right_div_self,
      Nat.mod_mod_of_dvd _ within]
  rw [field]
  refine ⟨regroups.word, ?_, ?_, fun digit member => ?_⟩
  · have before := regroups.count
    rw [List.length_append, List.length_singleton, Nat.mul_add]
    omega
  · have joined : (2 : Nat) ^ bits = 2 ^ (bits - taken) * 2 ^ taken := by
      rw [← Nat.pow_add]
      congr 1
      omega
    rw [number_snoc, regroups.total, joined, ← Nat.div_div_eq_div_mul, Nat.mul_comm, Nat.div_add_mod]
  · rcases List.mem_append.mp member with before | last
    · exact regroups.small digit before
    · rw [List.mem_singleton.mp last]
      exact Nat.mod_lt _ (Nat.two_pow_pos taken)

/-- The pending bits are filled up with zeros to a last digit. -/
theorem pad (regroups : Regroups width taken pushed out bits value)
    (masks : mask.toNat = 2 ^ taken - 1) (few : bits ≤ taken) (fits : taken < 32) :
    number taken (out ++ [(Word32.shiftLeft value (taken - bits) &&& mask).toNat]) =
        number width pushed * 2 ^ (taken - bits) ∧
      (Word32.shiftLeft value (taken - bits) &&& mask).toNat < 2 ^ taken := by
  have joined : (2 : Nat) ^ taken = 2 ^ bits * 2 ^ (taken - bits) := by
    rw [← Nat.pow_add]
    congr 1
    omega
  have field : (Word32.shiftLeft value (taken - bits) &&& mask).toNat =
      number width pushed % 2 ^ bits * 2 ^ (taken - bits) := by
    have within : (2 : Nat) ^ taken ∣ 2 ^ 32 := Nat.pow_dvd_pow 2 (by omega)
    rw [BitVec.toNat_and, masks, Nat.and_two_pow_sub_one_eq_mod,
      Word32.toNat_shiftLeft (by omega), Nat.mod_mod_of_dvd _ within, regroups.word, Nat.mul_mod,
      Nat.mod_mod_of_dvd _ within, ← Nat.mul_mod, joined, Nat.mul_mod_mul_right]
  constructor
  · rw [number_snoc, regroups.total, field]
    calc number width pushed / 2 ^ bits * 2 ^ taken +
          number width pushed % 2 ^ bits * 2 ^ (taken - bits)
        = (2 ^ bits * (number width pushed / 2 ^ bits) + number width pushed % 2 ^ bits) *
            2 ^ (taken - bits) := by rw [joined]; ring
      _ = number width pushed * 2 ^ (taken - bits) := by rw [Nat.div_add_mod]
  · rw [field, joined]
    exact Nat.mul_lt_mul_of_pos_right (Nat.mod_lt _ (Nat.two_pow_pos bits))
      (Nat.two_pow_pos (taken - bits))

end Regroups

end NancyMan
