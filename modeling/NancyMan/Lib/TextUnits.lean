import Mathlib.Algebra.GroupWithZero.Nat
import Mathlib.Data.List.Basic

/-!
# Texts by their code units

The source measures and cuts a text by its UTF-16 units. A cut takes whole symbols, so a text that is
no longer than the cut is left as it is, and a second cut at the same place takes nothing.
-/
namespace NancyMan

def symbolUnits (symbol : Char) : Nat := if symbol.toNat < 65536 then 1 else 2

/-- `text.length`. -/
def textUnits (text : List Char) : Nat := (text.map symbolUnits).sum

/-- The symbols of a text within a number of units. -/
def cutUnits : Nat → List Char → List Char
  | _, [] => []
  | units, symbol :: rest =>
    if symbolUnits symbol ≤ units then symbol :: cutUnits (units - symbolUnits symbol) rest else []

variable (units : Nat)

/-- `text.slice(0, units)`, of a text in which the cut does not divide a symbol. -/
def sliceUnits (text : String) : String := String.ofList (cutUnits units text.toList)

/-- A cut leaves no more than its units. -/
theorem textUnits_cutUnits (text : List Char) : textUnits (cutUnits units text) ≤ units := by
  induction text generalizing units with
  | nil => exact Nat.zero_le _
  | cons symbol rest ih =>
    unfold cutUnits
    split
    · have later := ih (units - symbolUnits symbol)
      show symbolUnits symbol + textUnits (cutUnits (units - symbolUnits symbol) rest) ≤ units
      omega
    · exact Nat.zero_le _

/-- A cut is the start of its text. -/
theorem cutUnits_prefix (text : List Char) : cutUnits units text <+: text := by
  induction text generalizing units with
  | nil => exact List.prefix_refl []
  | cons symbol rest ih =>
    unfold cutUnits
    split
    · exact List.cons_prefix_cons.mpr ⟨rfl, ih _⟩
    · exact List.nil_prefix

/-- A text within the units is left as it is. -/
theorem cutUnits_eq_self {units : Nat} {text : List Char} (short : textUnits text ≤ units) :
    cutUnits units text = text := by
  induction text generalizing units with
  | nil => rfl
  | cons symbol rest ih =>
    have bound : symbolUnits symbol + textUnits rest ≤ units := short
    unfold cutUnits
    rw [if_pos (by omega), ih (by omega)]

theorem textUnits_sliceUnits (text : String) :
    textUnits (sliceUnits units text).toList ≤ units := by
  unfold sliceUnits
  rw [String.toList_ofList]
  exact textUnits_cutUnits units text.toList

theorem sliceUnits_eq_self {units : Nat} {text : String} (short : textUnits text.toList ≤ units) :
    sliceUnits units text = text := by
  unfold sliceUnits
  rw [cutUnits_eq_self short, String.ofList_toList]

end NancyMan
