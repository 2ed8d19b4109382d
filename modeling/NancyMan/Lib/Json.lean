import Mathlib.Algebra.GroupWithZero.Nat
import Mathlib.Data.List.Basic

/-!
# JSON text

A JSON value and the two directions of its text: `render` writes a value the way
`JSON.stringify` does, without white space, and `parse` reads any JSON text. A number is kept
as the literal it is written with, so that the round trip owes nothing to an arithmetic; what
number a literal denotes is decided by the program that reads it.
-/
namespace NancyMan

namespace Json

def isSpace (symbol : Char) : Bool :=
  symbol = ' ' || symbol = '\n' || symbol = '\t' || symbol = '\r'

def isNumeric (symbol : Char) : Bool :=
  symbol.isDigit || symbol = '-' || symbol = '+' || symbol = '.' || symbol = 'e' || symbol = 'E'

/-- What follows the integer part of a literal. -/
def afterInteger : List Char → Option (List Char)
  | [] => none
  | first :: rest =>
    if first = '0' then some rest
    else if first.isDigit then some (rest.dropWhile Char.isDigit)
    else none

/-- What follows one or more digits. -/
def afterDigits : List Char → Option (List Char)
  | [] => none
  | first :: rest => if first.isDigit then some (rest.dropWhile Char.isDigit) else none

/-- What follows the fraction, which a literal may lack. -/
def afterFraction : List Char → Option (List Char)
  | '.' :: rest => afterDigits rest
  | rest => some rest

/-- What follows the exponent, which a literal may lack. -/
def afterExponent : List Char → Option (List Char)
  | [] => some []
  | first :: rest =>
    if first = 'e' || first = 'E' then
      match rest with
      | '+' :: digits => afterDigits digits
      | '-' :: digits => afterDigits digits
      | digits => afterDigits digits
    else some (first :: rest)

/-- Whether a text is a number literal: an optional sign, an integer part without a leading
zero, an optional fraction and an optional exponent. -/
def isNumeral (text : List Char) : Bool :=
  let unsigned := match text with
    | '-' :: rest => rest
    | rest => rest
  ((afterInteger unsigned).bind afterFraction).bind afterExponent = some []

end Json

/-- A number literal. -/
structure Numeral where
  text : List Char
  wellFormed : Json.isNumeral text = true
  numeric : text.all Json.isNumeric = true

/-- A JSON value; an object lists its properties in the order of its text. -/
inductive Json where
  | null
  | boolean (value : Bool)
  | number (literal : Numeral)
  | string (text : String)
  | array (items : List Json)
  | object (properties : List (String × Json))

namespace Json

/-! ## Writing -/

def hexDigit (value : Nat) : Char :=
  if value < 10 then Char.ofNat (48 + value) else Char.ofNat (87 + value)

variable (symbol : Char)

/-- How a character stands in a string literal. -/
def escape : List Char :=
  if symbol = '"' then ['\\', '"']
  else if symbol = '\\' then ['\\', '\\']
  else if symbol = '\x08' then ['\\', 'b']
  else if symbol = '\t' then ['\\', 't']
  else if symbol = '\n' then ['\\', 'n']
  else if symbol = '\x0c' then ['\\', 'f']
  else if symbol = '\r' then ['\\', 'r']
  else if symbol.toNat < 32 then
    ['\\', 'u', '0', '0', hexDigit (symbol.toNat / 16), hexDigit (symbol.toNat % 16)]
  else [symbol]

def renderString (text : List Char) : List Char :=
  '"' :: (text.flatMap escape ++ ['"'])

mutual

/-- The text of a value. -/
def renderChars : Json → List Char
  | .null => ['n', 'u', 'l', 'l']
  | .boolean true => ['t', 'r', 'u', 'e']
  | .boolean false => ['f', 'a', 'l', 's', 'e']
  | .number literal => literal.text
  | .string text => renderString text.toList
  | .array items => '[' :: renderItems items
  | .object properties => '{' :: renderProperties properties

/-- The items of an array and its closing bracket. -/
def renderItems : List Json → List Char
  | [] => [']']
  | item :: rest => renderChars item ++ renderMoreItems rest

/-- The items of an array after its first, and its closing bracket. -/
def renderMoreItems : List Json → List Char
  | [] => [']']
  | item :: rest => ',' :: (renderChars item ++ renderMoreItems rest)

/-- The properties of an object and its closing brace. -/
def renderProperties : List (String × Json) → List Char
  | [] => ['}']
  | (name, value) :: rest =>
    renderString name.toList ++ ':' :: (renderChars value ++ renderMoreProperties rest)

/-- The properties of an object after its first, and its closing brace. -/
def renderMoreProperties : List (String × Json) → List Char
  | [] => ['}']
  | (name, value) :: rest =>
    ',' :: (renderString name.toList ++ ':' :: (renderChars value ++ renderMoreProperties rest))

end

/-- `JSON.stringify` of a value. -/
def render (value : Json) : String := String.ofList (renderChars value)

/-- A string literal is at least as long as its text. -/
theorem length_le_renderString (text : List Char) : text.length ≤ (renderString text).length := by
  have escaped : text.length ≤ (text.flatMap escape).length := by
    induction text with
    | nil => exact Nat.zero_le _
    | cons symbol text ih =>
      have some_symbol : 1 ≤ (escape symbol).length := by
        unfold escape
        split_ifs <;> simp
      rw [List.flatMap_cons, List.length_append, List.length_cons]
      omega
  rw [renderString, List.length_cons, List.length_append]
  omega

variable (properties : List (String × Json))

/-- The properties after the first are at least as long as their values. -/
theorem sum_values_le_more :
    (properties.map fun property => (renderChars property.2).length).sum ≤
      (renderMoreProperties properties).length := by
  induction properties with
  | nil => exact Nat.zero_le _
  | cons property properties ih =>
    simp only [renderMoreProperties, List.map_cons, List.sum_cons, List.length_cons,
      List.length_append]
    omega

/-- An object is at least as long as the values of its properties. -/
theorem sum_values_le :
    (properties.map fun property => (renderChars property.2).length).sum ≤
      (renderChars (.object properties)).length := by
  cases properties with
  | nil => exact Nat.zero_le _
  | cons property properties =>
    have rest := sum_values_le_more properties
    simp only [renderChars, renderProperties, List.map_cons, List.sum_cons, List.length_cons,
      List.length_append]
    omega

/-! ## Reading -/

variable (input : List Char)

def skipSpace : List Char := input.dropWhile isSpace

/-- The value of a hexadecimal digit. -/
def hexValue : Option Nat :=
  if symbol.isDigit then some (symbol.toNat - 48)
  else if 'a' ≤ symbol && symbol ≤ 'f' then some (symbol.toNat - 87)
  else if 'A' ≤ symbol && symbol ≤ 'F' then some (symbol.toNat - 55)
  else none

/-- The code unit that four hexadecimal digits denote. -/
def codeUnit (a b c d : Char) : Option Nat := do
  let first ← hexValue a
  let second ← hexValue b
  let third ← hexValue c
  let fourth ← hexValue d
  some (first * 4096 + second * 256 + third * 16 + fourth)

/-- The character of a simple escape. -/
def unescape : Option Char :=
  if symbol = '"' then some '"'
  else if symbol = '\\' then some '\\'
  else if symbol = '/' then some '/'
  else if symbol = 'b' then some '\x08'
  else if symbol = 't' then some '\t'
  else if symbol = 'n' then some '\n'
  else if symbol = 'f' then some '\x0c'
  else if symbol = 'r' then some '\r'
  else none

/-- A piece of a string literal: a character, or the code unit of a `\\u` escape. -/
inductive StringPiece where
  | symbol (character : Char)
  | unit (code : Nat)

/-- The pieces of a string literal after its opening quote, and the text after it. -/
def parsePieces : List Char → Option (List StringPiece × List Char)
  | [] => none
  | '"' :: rest => some ([], rest)
  | '\\' :: 'u' :: a :: b :: c :: d :: rest =>
    match codeUnit a b c d, parsePieces rest with
    | some code, some found => some (.unit code :: found.1, found.2)
    | _, _ => none
  | '\\' :: symbol :: rest =>
    match unescape symbol, parsePieces rest with
    | some character, some found => some (.symbol character :: found.1, found.2)
    | _, _ => none
  | symbol :: rest =>
    if symbol.toNat < 32 then none
    else (parsePieces rest).map fun found => (.symbol symbol :: found.1, found.2)

/-- The characters of the pieces. A surrogate pair is one character; a lone surrogate has no
character and is refused. -/
def joinPieces : List StringPiece → Option (List Char)
  | [] => some []
  | .symbol character :: rest => (joinPieces rest).map (character :: ·)
  | .unit code :: rest =>
    if code < 0xD800 ∨ 0xE000 ≤ code then (joinPieces rest).map (Char.ofNat code :: ·)
    else if code < 0xDC00 then
      match rest with
      | .unit low :: after =>
        if 0xDC00 ≤ low ∧ low < 0xE000 then
          (joinPieces after).map
            (Char.ofNat (0x10000 + (code - 0xD800) * 1024 + (low - 0xDC00)) :: ·)
        else none
      | _ => none
    else none

/-- The text of a string literal after its opening quote, and the text after it. -/
def parseString : Option (List Char × List Char) :=
  match parsePieces input with
  | some (pieces, rest) => (joinPieces pieces).map fun text => (text, rest)
  | none => none

/-- A number literal at the front of a text. -/
def parseNumeral : Option (Numeral × List Char) :=
  let text := input.takeWhile isNumeric
  if wellFormed : isNumeral text = true ∧ text.all isNumeric = true then
    some (⟨text, wellFormed.1, wellFormed.2⟩, input.dropWhile isNumeric)
  else none

mutual

/-- A value at the front of a text; the fuel bounds the tokens read. -/
def parseValue : Nat → List Char → Option (Json × List Char)
  | 0, _ => none
  | fuel + 1, input =>
    match skipSpace input with
    | 'n' :: 'u' :: 'l' :: 'l' :: rest => some (.null, rest)
    | 't' :: 'r' :: 'u' :: 'e' :: rest => some (.boolean true, rest)
    | 'f' :: 'a' :: 'l' :: 's' :: 'e' :: rest => some (.boolean false, rest)
    | '"' :: rest => (parseString rest).map fun found => (.string (String.ofList found.1), found.2)
    | '[' :: rest =>
      match skipSpace rest with
      | ']' :: rest => some (.array [], rest)
      | rest => (parseItems fuel rest).map fun found => (.array found.1, found.2)
    | '{' :: rest =>
      match skipSpace rest with
      | '}' :: rest => some (.object [], rest)
      | rest => (parseProperties fuel rest).map fun found => (.object found.1, found.2)
    | rest => (parseNumeral rest).map fun found => (.number found.1, found.2)

/-- One or more items of an array and its closing bracket. -/
def parseItems : Nat → List Char → Option (List Json × List Char)
  | 0, _ => none
  | fuel + 1, input =>
    match parseValue fuel input with
    | none => none
    | some (item, rest) =>
      match skipSpace rest with
      | ',' :: rest => (parseItems fuel rest).map fun found => (item :: found.1, found.2)
      | ']' :: rest => some ([item], rest)
      | _ => none

/-- One or more properties of an object and its closing brace. -/
def parseProperties : Nat → List Char → Option (List (String × Json) × List Char)
  | 0, _ => none
  | fuel + 1, input =>
    match skipSpace input with
    | '"' :: rest =>
      match parseString rest with
      | none => none
      | some (name, rest) =>
        match skipSpace rest with
        | ':' :: rest =>
          match parseValue fuel rest with
          | none => none
          | some (value, rest) =>
            match skipSpace rest with
            | ',' :: rest =>
              (parseProperties fuel rest).map fun found =>
                ((String.ofList name, value) :: found.1, found.2)
            | '}' :: rest => some ([(String.ofList name, value)], rest)
            | _ => none
        | _ => none
    | _ => none

end

/-- `JSON.parse` of a text. -/
def parse (text : String) : Option Json :=
  let input := text.toList
  match parseValue (2 * input.length) input with
  | some (value, rest) => if skipSpace rest = [] then some value else none
  | none => none

/-! ## Access -/

/-- The last property of a name, which is the one that a read object has. -/
def lastProperty (name : String) : List (String × Json) → Option Json
  | [] => none
  | (key, value) :: rest =>
    match lastProperty name rest with
    | some found => some found
    | none => if key = name then some value else none

/-- A property of an object; any other value has none. -/
def property? (value : Json) (name : String) : Option Json :=
  match value with
  | .object properties => lastProperty name properties
  | _ => none

/-- The text of a string. -/
def string? : Json → Option String
  | .string text => some text
  | _ => none

/-- The items of an array. -/
def array? : Json → Option (List Json)
  | .array items => some items
  | _ => none

end Json

end NancyMan
