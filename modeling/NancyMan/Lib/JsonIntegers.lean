import NancyMan.Lib.Json
import Mathlib.Data.List.TakeWhile

/-!
# Integer literals

An integer is written in decimal digits, with a sign when it is negative, and read back from
any literal that has neither a fraction nor an exponent.
-/
namespace NancyMan.Numeral

def digits (value : Nat) : List Char := Nat.toDigits 10 value

theorem isDigit_of_mem_digits {value : Nat} {symbol : Char} (member : symbol ∈ digits value) :
    symbol.isDigit :=
  Nat.isDigit_of_mem_toDigits (by decide) (by decide) member

/-- The decimal digits of a positive number start with a digit other than zero. -/
theorem digits_head (value : Nat) (positive : 0 < value) :
    ∃ first more, digits value = first :: more ∧ first ≠ '0' := by
  induction value using Nat.strongRecOn with
  | ind value ih =>
    by_cases small : value < 10
    · refine ⟨value.digitChar, [], Nat.toDigits_of_lt_base small, ?_⟩
      have every : ∀ value < 10, 0 < value → value.digitChar ≠ '0' := by decide
      exact every value small positive
    · obtain ⟨first, more, starts, nonzero⟩ := ih (value / 10) (by omega) (by omega)
      refine ⟨first, more ++ [(value % 10).digitChar], ?_, nonzero⟩
      rw [digits, Nat.toDigits_of_base_le (by decide) (by omega)]
      rw [digits] at starts
      rw [starts, List.cons_append]

/-- Nothing is left after the decimal digits of a number. -/
theorem afterInteger_digits (value : Nat) : Json.afterInteger (digits value) = some [] := by
  rcases Nat.eq_zero_or_pos value with rfl | positive
  · decide
  · obtain ⟨first, more, starts, nonzero⟩ := digits_head value positive
    have every : ∀ symbol ∈ first :: more, symbol.isDigit := by
      intro symbol member
      exact isDigit_of_mem_digits (starts ▸ member)
    have dropped : more.dropWhile Char.isDigit = [] :=
      List.dropWhile_eq_nil_iff.mpr fun symbol member => every symbol (.tail _ member)
    rw [starts, Json.afterInteger, if_neg nonzero, if_pos (every first (.head _)),
      dropped]

/-- Digits have no sign. -/
theorem digits_unsigned {value : Nat} {more : List Char} : digits value ≠ '-' :: more := by
  intro same
  have digit : ('-' : Char).isDigit := isDigit_of_mem_digits (same ▸ List.mem_cons_self ..)
  exact absurd digit (by decide)

/-- The text of an integer. -/
def integerText : Int → List Char
  | .ofNat value => digits value
  | .negSucc value => '-' :: digits (value + 1)

variable (value : Int)

/-- The text of an integer is a literal. -/
theorem isNumeral_integerText : Json.isNumeral (integerText value) := by
  have complete (value : Nat) : ((Json.afterInteger (digits value)).bind Json.afterFraction).bind
      Json.afterExponent = some [] := by
    rw [afterInteger_digits]
    rfl
  cases value with
  | ofNat value =>
    unfold Json.isNumeral integerText
    dsimp only
    split
    · next more same => exact absurd same digits_unsigned
    · exact decide_eq_true (complete value)
  | negSucc value => exact decide_eq_true (complete _)

/-- The text of an integer is made of numeric symbols. -/
theorem numeric_integerText : (integerText value).all Json.isNumeric := by
  have numeric (value : Nat) : (digits value).all Json.isNumeric := by
    rw [List.all_eq_true]
    intro symbol member
    simp [Json.isNumeric, isDigit_of_mem_digits member]
  cases value with
  | ofNat value => exact numeric value
  | negSucc value =>
    rw [integerText, List.all_cons, numeric]
    decide

/-- The literal of an integer. -/
def ofInt : Numeral where
  text := integerText value
  wellFormed := isNumeral_integerText value
  numeric := numeric_integerText value

/-- The integer that a literal writes out, when it has neither a fraction nor an exponent. -/
def toInt? (literal : Numeral) : Option Int :=
  match literal.text with
  | '-' :: rest => if rest.all Char.isDigit then some (-(Nat.ofDigitChars 10 rest 0 : Int)) else none
  | rest => if rest.all Char.isDigit then some (Nat.ofDigitChars 10 rest 0 : Int) else none

@[simp] theorem toInt?_ofInt : (ofInt value).toInt? = some value := by
  have every (value : Nat) : (digits value).all Char.isDigit :=
    List.all_eq_true.mpr fun symbol member => isDigit_of_mem_digits member
  have number (value : Nat) : Nat.ofDigitChars 10 (digits value) 0 = value :=
    Nat.ofDigitChars_ten_toDigits
  cases value with
  | ofNat value =>
    rw [toInt?, ofInt]
    dsimp only [integerText]
    split
    · next more same => exact absurd same digits_unsigned
    · simp [every, number]
  | negSucc value =>
    simp only [toInt?, ofInt, integerText, every, number, if_true]
    rw [Int.negSucc_eq]
    simp

end NancyMan.Numeral
