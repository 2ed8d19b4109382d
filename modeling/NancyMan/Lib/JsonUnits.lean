import NancyMan.Lib.JsonSize
import NancyMan.Lib.Utf8Decoder

/-!
# JSON text of UTF-16 strings

A string as the language has it: a list of UTF-16 code units, in which a surrogate need not have its
other half. `JSON.stringify` writes a pair of surrogates as the character they are and a lone one as
an escape, so its text is always well formed. The bytes of the text are counted unit by unit.
-/
namespace NancyMan.JsonUnits

open Json

open Utf8 (byteLength byteLength_append byteLength_cons)

abbrev Units := List UInt16

def isHigh (unit : UInt16) : Bool := 0xD800 ≤ unit.toNat && unit.toNat ≤ 0xDBFF

def isLow (unit : UInt16) : Bool := 0xDC00 ≤ unit.toNat && unit.toNat ≤ 0xDFFF

def pairChar (high low : UInt16) : Char :=
  Char.ofNat (0x10000 + (high.toNat - 0xD800) * 1024 + (low.toNat - 0xDC00))

/-- A lone surrogate as an escape. -/
def lone (unit : UInt16) : List Char :=
  ['\\', 'u', Json.hexDigit (unit.toNat / 4096 % 16), Json.hexDigit (unit.toNat / 256 % 16),
    Json.hexDigit (unit.toNat / 16 % 16), Json.hexDigit (unit.toNat % 16)]

def single (unit : UInt16) : List Char :=
  if isHigh unit || isLow unit then lone unit else Json.escape (Char.ofNat unit.toNat)

/-- How the units of a text stand in a string literal. -/
def quoteUnits : Units → List Char
  | [] => []
  | [unit] => single unit
  | unit :: next :: rest =>
    if isHigh unit && isLow next then pairChar unit next :: quoteUnits rest
    else single unit ++ quoteUnits (next :: rest)

def renderUnits (text : Units) : List Char := '"' :: (quoteUnits text ++ ['"'])

/-- A JSON value without arrays, whose strings are code units. -/
inductive Value where
  | null
  | boolean (value : Bool)
  | number (literal : Numeral)
  | string (text : Units)
  | object (properties : List (Units × Value))

mutual

/-- `JSON.stringify` of a value. -/
def stringify : Value → List Char
  | .null => ['n', 'u', 'l', 'l']
  | .boolean true => ['t', 'r', 'u', 'e']
  | .boolean false => ['f', 'a', 'l', 's', 'e']
  | .number literal => literal.text
  | .string text => renderUnits text
  | .object properties => '{' :: stringifyProperties properties

/-- The properties of an object and its closing brace. -/
def stringifyProperties : List (Units × Value) → List Char
  | [] => ['}']
  | (name, value) :: rest => renderUnits name ++ ':' :: (stringify value ++ stringifyMore rest)

/-- The properties of an object after its first, and its closing brace. -/
def stringifyMore : List (Units × Value) → List Char
  | [] => ['}']
  | (name, value) :: rest =>
    ',' :: (renderUnits name ++ ':' :: (stringify value ++ stringifyMore rest))

end

/-! ## Bytes of a string -/

/-- The bytes of a unit in a literal, or of a pair that starts with it. -/
def unitBytes (unit : UInt16) (next : Option UInt16) : Nat :=
  let code := unit.toNat
  if code = 0x22 ∨ code = 0x5C ∨ code = 0x08 ∨ code = 0x09 ∨ code = 0x0A ∨ code = 0x0C ∨
      code = 0x0D then 2
  else if code ≤ 0x1F then 6
  else if isHigh unit then if next.any isLow then 4 else 6
  else if isLow unit then 6
  else if code ≤ 0x7F then 1
  else if code ≤ 0x7FF then 2
  else 3

/-- The bytes of the units of a text in a literal. -/
def quotedBytes : Units → Nat
  | [] => 0
  | [unit] => unitBytes unit none
  | unit :: next :: rest =>
    unitBytes unit (some next) +
      if isHigh unit && isLow next then quotedBytes rest else quotedBytes (next :: rest)

theorem toNat_ofNat {code : Nat} (valid : code.isValidChar) : (Char.ofNat code).toNat = code := by
  rw [Char.ofNat, dif_pos valid]
  rfl

variable (symbol : Char) (unit : UInt16) (text : Units) (properties : List (Units × Value))

theorem byteLength_char :
    byteLength [symbol] = if symbol.toNat ≤ 0x7F then 1 else if symbol.toNat ≤ 0x7FF then 2
      else if symbol.toNat ≤ 0xFFFF then 3 else 4 := by
  rw [Utf8.byteLength_eq_sum, List.map_singleton, List.sum_singleton, Char.utf8Size]
  rfl

/-- An escape has one byte for each of its symbols. -/
theorem byteLength_lone : byteLength (lone unit) = 6 := by
  have digit : ∀ value < 16, (hexDigit value).toNat < 128 := by decide
  refine (Utf8.byteLength_ascii fun symbol member => ?_).trans rfl
  simp only [lone, List.mem_cons, List.not_mem_nil, or_false] at member
  rcases member with rfl | rfl | rfl | rfl | rfl | rfl
  · decide
  · decide
  · exact digit _ (Nat.mod_lt _ (by decide))
  · exact digit _ (Nat.mod_lt _ (by decide))
  · exact digit _ (Nat.mod_lt _ (by decide))
  · exact digit _ (Nat.mod_lt _ (by decide))

/-- A pair is a character of four bytes. -/
theorem byteLength_pair {high low : UInt16} (first : isHigh high) (second : isLow low) :
    byteLength [pairChar high low] = 4 := by
  simp only [isHigh, isLow, Bool.and_eq_true, decide_eq_true_eq] at first second
  have valid : (0x10000 + (high.toNat - 0xD800) * 1024 + (low.toNat - 0xDC00)).isValidChar := by
    omega
  rw [byteLength_char, pairChar, toNat_ofNat valid, if_neg (by omega), if_neg (by omega),
    if_neg (by omega)]

/-- The bytes of a symbol in a literal. -/
theorem byteLength_escape :
    byteLength (escape symbol) =
      if symbol.toNat = 0x22 ∨ symbol.toNat = 0x5C ∨ symbol.toNat = 0x08 ∨ symbol.toNat = 0x09 ∨
          symbol.toNat = 0x0A ∨ symbol.toNat = 0x0C ∨ symbol.toNat = 0x0D then 2
      else if symbol.toNat ≤ 0x1F then 6 else byteLength [symbol] := by
  have same (other : Char) : symbol = other ↔ symbol.toNat = other.toNat :=
    ⟨congrArg Char.toNat, fun equal => Char.toNat_inj.mp equal⟩
  have digit : ∀ value < 256, byteLength ['\\', 'u', '0', '0', hexDigit (value / 16),
      hexDigit (value % 16)] = 6 := by
    decide +kernel
  unfold escape
  simp only [same]
  have quote : ('"' : Char).toNat = 0x22 := rfl
  have backslash : ('\\' : Char).toNat = 0x5C := rfl
  have backspace : ('\x08' : Char).toNat = 0x08 := rfl
  have tab : ('\t' : Char).toNat = 0x09 := rfl
  have newline : ('\n' : Char).toNat = 0x0A := rfl
  have feed : ('\x0c' : Char).toNat = 0x0C := rfl
  have carriage : ('\r' : Char).toNat = 0x0D := rfl
  split_ifs <;> first | omega | exact digit _ (by omega) | decide

/-- The bytes of a unit that is not part of a pair. -/
theorem byteLength_single (next : Option UInt16) (alone : ¬ (isHigh unit ∧ next.any isLow)) :
    byteLength (single unit) = unitBytes unit next := by
  unfold single unitBytes
  by_cases half : (isHigh unit || isLow unit)
  · rw [if_pos half, byteLength_lone]
    have large : 0xD800 ≤ unit.toNat := by
      simp only [isHigh, isLow, Bool.or_eq_true, Bool.and_eq_true, decide_eq_true_eq] at half
      omega
    rw [if_neg (by omega), if_neg (by omega)]
    by_cases high : isHigh unit
    · rw [if_pos high, if_neg fun low => alone ⟨high, low⟩]
    · have low : isLow unit := by simpa [high] using half
      rw [if_neg high, if_pos low]
  · rw [if_neg half]
    obtain ⟨high, low⟩ : isHigh unit = false ∧ isLow unit = false := by simpa using half
    have small : unit.toNat < 65536 := unit.toNat_lt
    have valid : unit.toNat.isValidChar := by
      simp only [isHigh, isLow, Bool.and_eq_false_iff, decide_eq_false_iff_not] at high low
      omega
    rw [byteLength_escape, byteLength_char, toNat_ofNat valid]
    simp only [high, low, Bool.false_eq_true, if_false]
    split_ifs <;> first | rfl | omega

/-- The bytes of a text in a literal are those of its units. -/
theorem byteLength_quoteUnits : byteLength (quoteUnits text) = quotedBytes text := by
  induction text using quoteUnits.induct with
  | case1 => rfl
  | case2 unit =>
    exact byteLength_single unit none fun pair => Bool.false_ne_true pair.2
  | case3 unit next rest pair ih =>
    obtain ⟨high, low⟩ := Bool.and_eq_true_iff.mp pair
    have four : unitBytes unit (some next) = 4 := by
      have large : 0xD800 ≤ unit.toNat := by
        simp only [isHigh, Bool.and_eq_true, decide_eq_true_eq] at high
        omega
      unfold unitBytes
      rw [if_neg (by omega), if_neg (by omega), if_pos high]
      exact if_pos low
    unfold quoteUnits quotedBytes
    rw [if_pos pair, if_pos pair, ← ih, four, ← byteLength_pair high low]
    exact byteLength_append [pairChar unit next] (quoteUnits rest)
  | case4 unit next rest apart ih =>
    have alone : ¬ (isHigh unit = true ∧ (some next).any isLow = true) := fun pair =>
      apart (Bool.and_eq_true_iff.mpr pair)
    have here := byteLength_single unit _ alone
    unfold quoteUnits quotedBytes
    rw [if_neg apart, if_neg apart, byteLength_append, here, ih]

theorem byteLength_renderUnits : byteLength (renderUnits text) = quotedBytes text + 2 := by
  have quote : byteLength ['"'] = 1 := by decide
  rw [renderUnits, byteLength_cons (by decide), byteLength_append, byteLength_quoteUnits, quote]
  omega

/-! ## Bytes of a value -/

def size (value : Value) : Nat := byteLength (stringify value)

def propertySize (property : Units × Value) : Nat :=
  quotedBytes property.1 + 2 + 1 + size property.2

/-- The bytes of properties after the first, each after a comma. -/
theorem byteLength_stringifyMore :
    byteLength (stringifyMore properties) =
      1 + (properties.map fun property => 1 + propertySize property).sum := by
  induction properties with
  | nil => decide
  | cons property rest ih =>
    rw [stringifyMore, byteLength_cons (by decide), byteLength_append,
      byteLength_cons (by decide), byteLength_append, ih, List.map_cons, List.sum_cons,
      byteLength_renderUnits, propertySize, size]
    omega

/-- The bytes of an object: its braces, its properties and the commas between them. -/
theorem size_object :
    size (.object properties) =
      2 + (properties.map propertySize).sum + (properties.length - 1) := by
  rw [size, stringify, byteLength_cons (by decide)]
  cases properties with
  | nil => decide
  | cons property rest =>
    rw [stringifyProperties, byteLength_append, byteLength_cons (by decide), byteLength_append,
      byteLength_stringifyMore, sum_succ, List.map_cons, List.sum_cons, List.length_cons,
      byteLength_renderUnits, propertySize, size]
    omega

theorem size_object_snoc (property : Units × Value) :
    size (.object (properties ++ [property])) = size (.object properties) +
      (if properties.length = 0 then 0 else 1) + propertySize property := by
  rw [size_object, size_object, List.map_append, List.sum_append, List.length_append]
  simp only [List.map_cons, List.map_nil, List.sum_cons, List.sum_nil, List.length_cons,
    List.length_nil]
  split <;> omega

theorem size_object_le (properties more : List (Units × Value)) :
    size (.object properties) ≤ size (.object (properties ++ more)) := by
  rw [size_object, size_object, List.map_append, List.sum_append, List.length_append]
  omega

theorem size_string : size (.string text) = quotedBytes text + 2 :=
  byteLength_renderUnits text

/-! ## Texts without lone surrogates -/

/-- The code units of a character. -/
def unitsOf (symbol : Char) : Units :=
  if symbol.toNat < 0x10000 then [UInt16.ofNat symbol.toNat]
  else [UInt16.ofNat (0xD800 + (symbol.toNat - 0x10000) / 1024),
    UInt16.ofNat (0xDC00 + (symbol.toNat - 0x10000) % 1024)]

def utf16 (text : List Char) : Units := text.flatMap unitsOf

theorem quoteUnits_cons {unit : UInt16} (alone : isHigh unit = false) (rest : Units) :
    quoteUnits (unit :: rest) = single unit ++ quoteUnits rest := by
  cases rest with
  | nil => exact (List.append_nil _).symm
  | cons next rest =>
    rw [quoteUnits, if_neg (by simp [alone])]

theorem toNat_apart :
    (symbol.toNat < 0xD800 ∨ 0xDFFF < symbol.toNat) ∧ symbol.toNat < 0x110000 := by
  have valid : symbol.toNat < 0xD800 ∨ 0xDFFF < symbol.toNat ∧ symbol.toNat < 0x110000 :=
    symbol.valid
  omega

/-- The units of a character are written as the character. -/
theorem quoteUnits_unitsOf (rest : Units) :
    quoteUnits (unitsOf symbol ++ rest) = escape symbol ++ quoteUnits rest := by
  obtain ⟨apart, bound⟩ := toNat_apart symbol
  have self : Char.ofNat symbol.toNat = symbol := Char.ofNat_toNat symbol
  unfold unitsOf
  by_cases plane : symbol.toNat < 0x10000
  · have value : (UInt16.ofNat symbol.toNat).toNat = symbol.toNat :=
      UInt16.toNat_ofNat_of_lt' plane
    have high : isHigh (UInt16.ofNat symbol.toNat) = false := by
      simp only [isHigh, value, Bool.and_eq_false_iff, decide_eq_false_iff_not]
      omega
    have low : isLow (UInt16.ofNat symbol.toNat) = false := by
      simp only [isLow, value, Bool.and_eq_false_iff, decide_eq_false_iff_not]
      omega
    have written : single (UInt16.ofNat symbol.toNat) = escape symbol := by
      simp [single, high, low, value, self]
    rw [if_pos plane, List.singleton_append, quoteUnits_cons high, written]
  · have first : (UInt16.ofNat (0xD800 + (symbol.toNat - 0x10000) / 1024)).toNat =
        0xD800 + (symbol.toNat - 0x10000) / 1024 := UInt16.toNat_ofNat_of_lt' (by
      show _ < 65536
      omega)
    have second : (UInt16.ofNat (0xDC00 + (symbol.toNat - 0x10000) % 1024)).toNat =
        0xDC00 + (symbol.toNat - 0x10000) % 1024 := UInt16.toNat_ofNat_of_lt' (by
      show _ < 65536
      omega)
    have high : isHigh (UInt16.ofNat (0xD800 + (symbol.toNat - 0x10000) / 1024)) := by
      simp only [isHigh, first, Bool.and_eq_true, decide_eq_true_eq]
      omega
    have low : isLow (UInt16.ofNat (0xDC00 + (symbol.toNat - 0x10000) % 1024)) := by
      simp only [isLow, second, Bool.and_eq_true, decide_eq_true_eq]
      omega
    have point : 0x10000 + (0xD800 + (symbol.toNat - 0x10000) / 1024 - 0xD800) * 1024 +
        (0xDC00 + (symbol.toNat - 0x10000) % 1024 - 0xDC00) = symbol.toNat := by
      omega
    have paired : pairChar (UInt16.ofNat (0xD800 + (symbol.toNat - 0x10000) / 1024))
        (UInt16.ofNat (0xDC00 + (symbol.toNat - 0x10000) % 1024)) = symbol := by
      unfold pairChar
      rw [first, second, point, self]
    have plain : escape symbol = [symbol] := by
      have other (small : Char) (code : small.toNat < 0x10000) : symbol ≠ small := fun same =>
        plane (same ▸ code)
      have large : ¬ symbol.toNat < 32 := by omega
      simp [escape, other, large]
    rw [if_neg plane, List.cons_append, List.singleton_append, quoteUnits,
      if_pos (Bool.and_eq_true_iff.mpr ⟨high, low⟩), paired, plain]
    rfl

/-- The literal of a text is that of its code units. -/
theorem renderUnits_utf16 (text : List Char) : renderUnits (utf16 text) = renderString text := by
  have same : quoteUnits (utf16 text) = text.flatMap escape := by
    induction text with
    | nil => rfl
    | cons symbol rest ih =>
      rw [List.flatMap_cons, ← ih]
      exact quoteUnits_unitsOf symbol (utf16 rest)
  rw [renderUnits, same]
  rfl

/-- A text of symbols that stand for themselves, each of one byte, has a byte for each. -/
theorem quotedBytes_plain {text : List Char} (plain : ∀ symbol ∈ text, escape symbol = [symbol])
    (single : ∀ symbol ∈ text, symbol.toNat < 128) : quotedBytes (utf16 text) = text.length := by
  have list : (String.ofList text).toList = text := String.toList_ofList
  have size : byteLength (renderString text) = text.length + 2 := by
    have sized : Json.size (.string (String.ofList text)) = (String.ofList text).toList.length + 2 :=
      size_plain (list.symm ▸ plain) (list.symm ▸ single)
    rw [list] at sized
    rw [← sized, Json.size, renderChars, list]
  have units := byteLength_renderUnits (utf16 text)
  rw [renderUnits_utf16, size] at units
  omega

end NancyMan.JsonUnits
