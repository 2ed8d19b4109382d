import NancyMan.Lib.Json
import NancyMan.Lib.Utf8

/-!
# The size of JSON text

The bytes of a value's text, as the sum of the bytes of its parts, their separators and brackets.
-/
namespace NancyMan

open List (length_cons map_cons sum_cons)

namespace Utf8

theorem byteLength_append (left right : List Char) :
    byteLength (left ++ right) = byteLength left + byteLength right := by
  rw [byteLength, bytes_append, List.length_append]
  rfl

theorem byteLength_cons {symbol : Char} (single : byteLength [symbol] = 1) (text : List Char) :
    byteLength (symbol :: text) = 1 + byteLength text := by
  rw [← single]
  exact byteLength_append [symbol] text

end Utf8

namespace Json

open Utf8 (byteLength byteLength_append byteLength_cons)

def size (value : Json) : Nat := byteLength (renderChars value)

def propertySize (property : String × Json) : Nat :=
  byteLength (renderString property.1.toList) + 1 + size property.2

theorem sum_succ {α : Type} (measure : α → Nat) (parts : List α) :
    (parts.map fun part => 1 + measure part).sum = parts.length + (parts.map measure).sum := by
  induction parts with
  | nil => rfl
  | cons part rest ih =>
    rw [map_cons, map_cons, sum_cons, sum_cons, ih, length_cons]
    omega

variable (items : List Json) (properties : List (String × Json))

/-- The bytes of items after the first, each after a comma. -/
theorem byteLength_moreItems :
    byteLength (renderMoreItems items) = 1 + (items.map fun item => 1 + size item).sum := by
  induction items with
  | nil => decide
  | cons item rest ih =>
    rw [renderMoreItems, byteLength_cons (by decide), byteLength_append, ih, map_cons,
      sum_cons, size]
    omega

/-- The bytes of properties after the first, each after a comma. -/
theorem byteLength_moreProperties :
    byteLength (renderMoreProperties properties) =
      1 + (properties.map fun property => 1 + propertySize property).sum := by
  induction properties with
  | nil => decide
  | cons property rest ih =>
    rw [renderMoreProperties, byteLength_cons (by decide), byteLength_append,
      byteLength_cons (by decide), byteLength_append, ih, map_cons, sum_cons,
      propertySize, size]
    omega

/-- The bytes of an array: its brackets, its items and the commas between them. -/
theorem size_array : size (.array items) = 2 + (items.map size).sum + (items.length - 1) := by
  rw [size, renderChars, byteLength_cons (by decide)]
  cases items with
  | nil => decide
  | cons item rest =>
    rw [renderItems, byteLength_append, byteLength_moreItems, sum_succ, map_cons,
      sum_cons, length_cons, size]
    omega

/-- The bytes of an object: its braces, its properties and the commas between them. -/
theorem size_object :
    size (.object properties) =
      2 + (properties.map propertySize).sum + (properties.length - 1) := by
  rw [size, renderChars, byteLength_cons (by decide)]
  cases properties with
  | nil => decide
  | cons property rest =>
    rw [renderProperties, byteLength_append, byteLength_cons (by decide), byteLength_append,
      byteLength_moreProperties, sum_succ, map_cons, sum_cons, length_cons,
      propertySize, size]
    omega

theorem size_snoc (item : Json) :
    size (.array (items ++ [item])) =
      size (.array items) + size item + if items.length = 0 then 0 else 1 := by
  rw [size_array, size_array, List.map_append, List.sum_append, List.length_append]
  simp only [map_cons, List.map_nil, sum_cons, List.sum_nil, length_cons,
    List.length_nil]
  split <;> omega

/-- A text of symbols that stand for themselves, each of one byte, has a byte for each and two
quotes. -/
theorem size_plain {text : String} (plain : ∀ symbol ∈ text.toList, escape symbol = [symbol])
    (single : ∀ symbol ∈ text.toList, symbol.toNat < 128) :
    size (.string text) = text.toList.length + 2 := by
  have same : text.toList.flatMap escape = text.toList := by
    have each : ∀ symbols : List Char, (∀ symbol ∈ symbols, escape symbol = [symbol]) →
        symbols.flatMap escape = symbols := by
      intro symbols plain
      induction symbols with
      | nil => rfl
      | cons symbol rest ih =>
        obtain ⟨first, others⟩ := List.forall_mem_cons.mp plain
        rw [List.flatMap_cons, first, ih others, List.singleton_append]
    exact each _ plain
  rw [size, renderChars, renderString, same, byteLength_cons (by decide), byteLength_append,
    Utf8.byteLength_ascii single]
  have quote : byteLength ['"'] = 1 := by decide
  omega

end Json

end NancyMan
