import Mathlib.Data.List.TakeWhile
import NancyMan.Lib.Json

/-!
# Reading back a rendered value

`parse_render`: the text that `Json.render` writes of a value is read by `Json.parse` as that
value. Each token is read back on its own, followed by any text that cannot extend it; a value
is read back by induction on its structure, with the length of its text as the fuel it needs.
-/
namespace NancyMan.Json

open List (all_cons append_assoc cons_append length_append length_cons singleton_append)

/-! ## Strings -/

theorem hexValue_hexDigit (value : Nat) (small : value < 16) :
    hexValue (hexDigit value) = some value := by
  have every : ∀ value < 16, hexValue (hexDigit value) = some value := by decide
  exact every value small

/-- Whether a character is written as a `\u` escape. -/
def isControl (symbol : Char) : Bool :=
  symbol.toNat < 32 && symbol ≠ '\x08' && symbol ≠ '\t' && symbol ≠ '\n' && symbol ≠ '\x0c' &&
    symbol ≠ '\r'

def pieceOf (symbol : Char) : StringPiece :=
  if isControl symbol then .unit symbol.toNat else .symbol symbol

/-- A plain character is read as itself. -/
theorem parsePieces_plain {symbol : Char} {rest : List Char} (quote : symbol ≠ '"')
    (slash : symbol ≠ '\\') (printable : ¬ symbol.toNat < 32) :
    parsePieces (symbol :: rest) =
      (parsePieces rest).map fun found => (.symbol symbol :: found.1, found.2) := by
  rw [parsePieces.eq_def]
  split
  · contradiction
  · next same => exact absurd (List.cons.inj same).1 quote
  · next same => exact absurd (List.cons.inj same).1 slash
  · next same => exact absurd (List.cons.inj same).1 slash
  · next other more _ _ _ same =>
    obtain ⟨rfl, rfl⟩ := List.cons.inj same
    rw [if_neg printable]

/-- A simple escape is read as its character. -/
theorem parsePieces_simple (symbol character : Char) (rest : List Char) (plain : symbol ≠ 'u')
    (known : unescape symbol = some character) :
    parsePieces ('\\' :: symbol :: rest) =
      (parsePieces rest).map fun found => (.symbol character :: found.1, found.2) := by
  rw [parsePieces.eq_def]
  split
  · contradiction
  · next same => exact absurd (List.cons.inj same).1 (by decide)
  · next same => exact absurd (List.cons.inj (List.cons.inj same).2).1 plain
  · next other after _ same =>
    obtain ⟨rfl, rfl⟩ := List.cons.inj (List.cons.inj same).2
    cases found : parsePieces rest <;> simp [known]
  · next other more _ _ notEscape same =>
    obtain ⟨rfl, rfl⟩ := List.cons.inj same
    exact absurd rfl (notEscape symbol rest rfl)

/-- A control character is read as its code unit. -/
theorem parsePieces_control {code : Nat} {rest : List Char} (small : code < 256) :
    parsePieces ('\\' :: 'u' :: '0' :: '0' :: hexDigit (code / 16) :: hexDigit (code % 16) :: rest) =
      (parsePieces rest).map fun found => (.unit code :: found.1, found.2) := by
  have zero : hexValue '0' = some 0 := by decide
  have high : hexValue (hexDigit (code / 16)) = some (code / 16) :=
    hexValue_hexDigit _ (by omega)
  have low : hexValue (hexDigit (code % 16)) = some (code % 16) := hexValue_hexDigit _ (by omega)
  have unit : codeUnit '0' '0' (hexDigit (code / 16)) (hexDigit (code % 16)) = some code := by
    simp only [codeUnit, zero, high, low, Option.bind_eq_bind, Option.bind_some, Option.some.injEq]
    omega
  rw [parsePieces, unit]
  cases parsePieces rest <;> rfl

/-- A written character is read as its piece. -/
theorem parsePieces_escape (symbol : Char) (rest : List Char) :
    parsePieces (escape symbol ++ rest) =
      (parsePieces rest).map fun found => (pieceOf symbol :: found.1, found.2) := by
  by_cases quote : symbol = '"'
  · subst quote; exact parsePieces_simple '"' '"' rest (by decide) (by decide)
  by_cases slash : symbol = '\\'
  · subst slash; exact parsePieces_simple '\\' '\\' rest (by decide) (by decide)
  by_cases back : symbol = '\x08'
  · subst back; exact parsePieces_simple 'b' '\x08' rest (by decide) (by decide)
  by_cases tab : symbol = '\t'
  · subst tab; exact parsePieces_simple 't' '\t' rest (by decide) (by decide)
  by_cases line : symbol = '\n'
  · subst line; exact parsePieces_simple 'n' '\n' rest (by decide) (by decide)
  by_cases form : symbol = '\x0c'
  · subst form; exact parsePieces_simple 'f' '\x0c' rest (by decide) (by decide)
  by_cases carriage : symbol = '\r'
  · subst carriage; exact parsePieces_simple 'r' '\r' rest (by decide) (by decide)
  by_cases control : symbol.toNat < 32
  · have piece : pieceOf symbol = .unit symbol.toNat := by
      simp [pieceOf, isControl, control, back, tab, line, form, carriage]
    have written : escape symbol = ['\\', 'u', '0', '0', hexDigit (symbol.toNat / 16),
        hexDigit (symbol.toNat % 16)] := by
      simp [escape, quote, slash, control, back, tab, line, form, carriage]
    rw [piece, written]
    exact parsePieces_control (by omega)
  · have piece : pieceOf symbol = .symbol symbol := by simp [pieceOf, isControl, control]
    have written : escape symbol = [symbol] := by
      simp [escape, quote, slash, control, back, tab, line, form, carriage]
    rw [piece, written]
    exact parsePieces_plain quote slash control

theorem parsePieces_text (text rest : List Char) :
    parsePieces (text.flatMap escape ++ '"' :: rest) = some (text.map pieceOf, rest) := by
  induction text with
  | nil => rfl
  | cons symbol text ih =>
    rw [List.flatMap_cons, append_assoc, parsePieces_escape, ih]
    rfl

theorem joinPieces_unit {code : Nat} (rest : List StringPiece) (plain : code < 0xD800) :
    joinPieces (.unit code :: rest) = (joinPieces rest).map (Char.ofNat code :: ·) := by
  rw [joinPieces.eq_def]
  dsimp only
  rw [if_pos (.inl plain)]

/-- The pieces of a text join to the text. -/
theorem joinPieces_pieceOf (text : List Char) : joinPieces (text.map pieceOf) = some text := by
  induction text with
  | nil => rfl
  | cons symbol text ih =>
    rw [List.map_cons, pieceOf]
    split_ifs with control
    · have small : symbol.toNat < 32 := by
        simp only [isControl, Bool.and_eq_true, decide_eq_true_eq] at control
        omega
      rw [joinPieces_unit _ (by omega), ih, Char.ofNat_toNat]
      rfl
    · rw [joinPieces, ih]
      rfl

theorem parseString_text (text rest : List Char) :
    parseString (text.flatMap escape ++ '"' :: rest) = some (text, rest) := by
  rw [parseString, parsePieces_text]
  simp only [joinPieces_pieceOf, Option.map_some]

/-! ## Numbers -/

def Stops (rest : List Char) : Prop := ∀ symbol more, rest = symbol :: more → isNumeric symbol = false

theorem stops_cons {symbol : Char} {more : List Char} (plain : isNumeric symbol = false) :
    Stops (symbol :: more) := by
  intro first rest same
  rw [← (List.cons.inj same).1]
  exact plain

/-- A literal is taken off the front of a text that stops it. -/
theorem numeric_span {literal rest : List Char} (numeric : literal.all isNumeric)
    (stops : Stops rest) :
    (literal ++ rest).takeWhile isNumeric = literal ∧
      (literal ++ rest).dropWhile isNumeric = rest := by
  have every : ∀ symbol ∈ literal, isNumeric symbol := List.all_eq_true.mp numeric
  have nothing : rest.takeWhile isNumeric = [] ∧ rest.dropWhile isNumeric = rest := by
    cases rest with
    | nil => exact ⟨rfl, rfl⟩
    | cons symbol more =>
      have plain := stops symbol more rfl
      exact ⟨by simp [plain], by simp [plain]⟩
  constructor
  · rw [List.takeWhile_append_of_pos every, nothing.1, List.append_nil]
  · rw [List.dropWhile_append_of_pos every, nothing.2]

theorem parseNumeral_text (literal : Numeral) {rest : List Char} (stops : Stops rest) :
    parseNumeral (literal.text ++ rest) = some (literal, rest) := by
  obtain ⟨taken, dropped⟩ := numeric_span literal.numeric stops
  unfold parseNumeral
  simp only [taken, dropped]
  rw [dif_pos ⟨literal.wellFormed, literal.numeric⟩]

/-- A number literal starts with a numeric symbol. -/
theorem numeral_head (literal : Numeral) :
    ∃ symbol more, literal.text = symbol :: more ∧ isNumeric symbol := by
  obtain ⟨text, wellFormed, numeric⟩ := literal
  cases text with
  | nil => exact absurd wellFormed (by decide)
  | cons symbol more =>
    refine ⟨symbol, more, rfl, ?_⟩
    simp only [all_cons, Bool.and_eq_true] at numeric
    exact numeric.1

/-! ## Values -/

theorem skipSpace_cons {symbol : Char} {rest : List Char} (visible : isSpace symbol = false) :
    skipSpace (symbol :: rest) = symbol :: rest := by
  simp [skipSpace, visible]

/-- A numeric symbol starts no other token. -/
theorem numeric_plain {symbol : Char} (numeric : isNumeric symbol) :
    isSpace symbol = false ∧ symbol ≠ ']' ∧ symbol ≠ '}' ∧ symbol ≠ 'n' ∧ symbol ≠ 't' ∧
      symbol ≠ 'f' ∧ symbol ≠ '"' ∧ symbol ≠ '[' ∧ symbol ≠ '{' := by
  refine ⟨?_, ?_, ?_, ?_, ?_, ?_, ?_, ?_, ?_⟩
  · cases space : isSpace symbol with
    | false => rfl
    | true =>
      simp only [isSpace, Bool.or_eq_true, decide_eq_true_eq] at space
      rcases space with ((rfl | rfl) | rfl) | rfl <;> revert numeric <;> decide
  all_goals
    rintro rfl
    revert numeric
    decide

/-- The text of a value starts with no white space and closes nothing. -/
theorem renderChars_head (value : Json) :
    ∃ symbol more, renderChars value = symbol :: more ∧ isSpace symbol = false ∧ symbol ≠ ']' ∧
      symbol ≠ '}' := by
  cases value with
  | null => exact ⟨_, _, rfl, by decide, by decide, by decide⟩
  | boolean truth => cases truth <;> exact ⟨_, _, rfl, by decide, by decide, by decide⟩
  | number literal =>
    obtain ⟨symbol, more, starts, numeric⟩ := numeral_head literal
    obtain ⟨visible, bracket, brace, -⟩ := numeric_plain numeric
    exact ⟨symbol, more, by rw [renderChars, starts], visible, bracket, brace⟩
  | string text => exact ⟨_, _, rfl, by decide, by decide, by decide⟩
  | array items => exact ⟨_, _, rfl, by decide, by decide, by decide⟩
  | object properties => exact ⟨_, _, rfl, by decide, by decide, by decide⟩

variable (fuel : Nat)

include fuel

/-- A number literal at the front of a text is read as a value. -/
theorem parseValue_numeral (literal : Numeral) {rest : List Char} (stops : Stops rest) :
    parseValue (fuel + 1) (literal.text ++ rest) = some (.number literal, rest) := by
  obtain ⟨symbol, more, starts, numeric⟩ := numeral_head literal
  obtain ⟨visible, -, -, nothing, truth, falsity, quote, bracket, brace⟩ := numeric_plain numeric
  have whole : skipSpace (literal.text ++ rest) = literal.text ++ rest := by
    rw [starts, cons_append]
    exact skipSpace_cons visible
  rw [parseValue.eq_def]
  dsimp only
  rw [whole]
  split
  · next same => rw [starts] at same; exact absurd (List.cons.inj same).1 nothing
  · next same => rw [starts] at same; exact absurd (List.cons.inj same).1 truth
  · next same => rw [starts] at same; exact absurd (List.cons.inj same).1 falsity
  · next same => rw [starts] at same; exact absurd (List.cons.inj same).1 quote
  · next same => rw [starts] at same; exact absurd (List.cons.inj same).1 bracket
  · next same => rw [starts] at same; exact absurd (List.cons.inj same).1 brace
  · rw [parseNumeral_text literal stops]
    rfl

theorem parseValue_string (text : String) (rest : List Char) :
    parseValue (fuel + 1) (renderString text.toList ++ rest) = some (.string text, rest) := by
  have opened : parseValue (fuel + 1) ('"' :: (text.toList.flatMap escape ++ '"' :: rest)) =
      (parseString (text.toList.flatMap escape ++ '"' :: rest)).map
        fun found => (.string (String.ofList found.1), found.2) := by rfl
  simpa [renderString, parseString_text] using opened

/-- An array whose items are read back is read back. -/
theorem parseValue_array (first : Json) (items : List Json) (rest : List Char)
    (inside : parseItems fuel (renderItems (first :: items) ++ rest) =
      some (first :: items, rest)) :
    parseValue (fuel + 1) (renderChars (.array (first :: items)) ++ rest) =
      some (.array (first :: items), rest) := by
  obtain ⟨symbol, more, starts, visible, bracket, -⟩ := renderChars_head first
  rw [renderItems, starts, cons_append, cons_append] at inside
  rw [renderChars, renderItems, starts, cons_append, cons_append, cons_append]
  unfold parseValue
  simp only [skipSpace_cons (show isSpace '[' = false from rfl), skipSpace_cons visible]
  split
  · next same => exact absurd (List.cons.inj same).1 bracket
  · rw [inside]
    rfl

/-- An object whose properties are read back is read back. -/
theorem parseValue_object (first : String × Json) (properties : List (String × Json))
    (rest : List Char)
    (inside : parseProperties fuel (renderProperties (first :: properties) ++ rest) =
      some (first :: properties, rest)) :
    parseValue (fuel + 1) (renderChars (.object (first :: properties)) ++ rest) =
      some (.object (first :: properties), rest) := by
  have opened (input : List Char) : parseValue (fuel + 1) ('{' :: '"' :: input) =
      (parseProperties fuel ('"' :: input)).map fun found => (.object found.1, found.2) := by rfl
  rw [renderProperties, renderString, cons_append, cons_append] at inside
  rw [renderChars, renderProperties, renderString, cons_append, cons_append,
    cons_append, opened, inside]
  rfl

theorem parseItems_last (item : Json) (rest : List Char)
    (reads : parseValue fuel (renderChars item ++ ']' :: rest) = some (item, ']' :: rest)) :
    parseItems (fuel + 1) (renderChars item ++ ']' :: rest) = some ([item], rest) := by
  rw [parseItems, reads]
  rfl

/-- An item of an array is read before the items after it. -/
theorem parseItems_more (item : Json) (items : List Json) (input rest : List Char)
    (reads : parseValue fuel (renderChars item ++ ',' :: input) = some (item, ',' :: input))
    (others : parseItems fuel input = some (items, rest)) :
    parseItems (fuel + 1) (renderChars item ++ ',' :: input) = some (item :: items, rest) := by
  have continued : parseItems (fuel + 1) (renderChars item ++ ',' :: input) =
      (parseItems fuel input).map fun found => (item :: found.1, found.2) := by
    rw [parseItems, reads]
    rfl
  rw [continued, others]
  rfl

/-- The last property of an object closes it. -/
theorem parseProperties_last (name : String) (value : Json) (rest : List Char)
    (reads : parseValue fuel (renderChars value ++ '}' :: rest) = some (value, '}' :: rest)) :
    parseProperties (fuel + 1) (renderString name.toList ++ ':' :: (renderChars value ++ '}' :: rest)) =
      some ([(name, value)], rest) := by
  rw [renderString, cons_append, append_assoc, singleton_append, parseProperties,
    skipSpace_cons (by decide)]
  simp only [parseString_text]
  rw [skipSpace_cons (by decide)]
  simp only [reads]
  rw [skipSpace_cons (by decide)]
  simp

/-- A property of an object is read before the properties after it. -/
theorem parseProperties_more (name : String) (value : Json)
    (properties : List (String × Json)) (input rest : List Char)
    (reads : parseValue fuel (renderChars value ++ ',' :: input) = some (value, ',' :: input))
    (others : parseProperties fuel input = some (properties, rest)) :
    parseProperties (fuel + 1) (renderString name.toList ++ ':' :: (renderChars value ++ ',' :: input)) =
      some ((name, value) :: properties, rest) := by
  rw [renderString, cons_append, append_assoc, singleton_append, parseProperties,
    skipSpace_cons (by decide)]
  simp only [parseString_text]
  rw [skipSpace_cons (by decide)]
  simp only [reads]
  rw [skipSpace_cons (by decide)]
  simp [others]

omit fuel

mutual

/-- A written value is read back. -/
theorem parseValue_render : ∀ (value : Json) (fuel : Nat) (rest : List Char), Stops rest →
    2 * (renderChars value).length ≤ fuel + 1 →
    parseValue (fuel + 1) (renderChars value ++ rest) = some (value, rest)
  | .null, fuel, rest, _, _ => rfl
  | .boolean true, fuel, rest, _, _ => rfl
  | .boolean false, fuel, rest, _, _ => rfl
  | .number literal, fuel, rest, stops, _ => parseValue_numeral fuel literal stops
  | .string text, fuel, rest, _, _ => parseValue_string fuel text rest
  | .array [], fuel, rest, _, _ => rfl
  | .array (first :: items), fuel, rest, _, enough => by
    apply parseValue_array
    rw [renderChars, length_cons] at enough
    obtain ⟨less, rfl⟩ : ∃ less, fuel = less + 1 := ⟨fuel - 1, by omega⟩
    exact parseItems_render first items less rest (by omega)
  | .object [], fuel, rest, _, _ => rfl
  | .object ((name, value) :: properties), fuel, rest, _, enough => by
    apply parseValue_object
    rw [renderChars, length_cons] at enough
    obtain ⟨less, rfl⟩ : ∃ less, fuel = less + 1 := ⟨fuel - 1, by omega⟩
    exact parseProperties_render name value properties less rest (by omega)
termination_by value => sizeOf value

/-- The items of an array are read back. -/
theorem parseItems_render : ∀ (first : Json) (items : List Json) (fuel : Nat) (rest : List Char),
    2 * (renderItems (first :: items)).length ≤ fuel + 1 →
    parseItems (fuel + 1) (renderItems (first :: items) ++ rest) = some (first :: items, rest)
  | first, [], fuel, rest, enough => by
    rw [renderItems, renderMoreItems, length_append, List.length_singleton] at enough
    obtain ⟨less, rfl⟩ : ∃ less, fuel = less + 1 := ⟨fuel - 1, by omega⟩
    rw [renderItems, renderMoreItems, append_assoc, singleton_append]
    exact parseItems_last _ first rest
      (parseValue_render first less _ (stops_cons (by decide)) (by omega))
  | first, second :: items, fuel, rest, enough => by
    have inside : 2 * (renderItems (second :: items)).length ≤ fuel - 1 := by
      rw [renderItems, renderMoreItems, length_append, length_cons] at enough
      rw [renderItems]
      omega
    rw [renderItems, renderMoreItems, length_append, length_cons] at enough
    obtain ⟨less, rfl⟩ : ∃ less, fuel = less + 1 := ⟨fuel - 1, by omega⟩
    rw [renderItems, renderMoreItems, append_assoc, cons_append]
    apply parseItems_more
    · exact parseValue_render first less _ (stops_cons (by decide)) (by omega)
    · have others := parseItems_render second items less rest (by omega)
      rwa [renderItems] at others
termination_by first items => sizeOf (first :: items)

/-- The properties of an object are read back. -/
theorem parseProperties_render : ∀ (name : String) (value : Json)
    (properties : List (String × Json)) (fuel : Nat) (rest : List Char),
    2 * (renderProperties ((name, value) :: properties)).length ≤ fuel + 1 →
    parseProperties (fuel + 1) (renderProperties ((name, value) :: properties) ++ rest) =
      some ((name, value) :: properties, rest)
  | name, value, [], fuel, rest, enough => by
    rw [renderProperties, renderMoreProperties] at enough ⊢
    simp only [length_append, length_cons, List.length_nil] at enough
    obtain ⟨less, rfl⟩ : ∃ less, fuel = less + 1 := ⟨fuel - 1, by omega⟩
    rw [append_assoc, cons_append, append_assoc, singleton_append]
    exact parseProperties_last _ name value rest
      (parseValue_render value less _ (stops_cons (by decide)) (by omega))
  | name, value, (second, other) :: properties, fuel, rest, enough => by
    have inside : 2 * (renderProperties ((second, other) :: properties)).length ≤ fuel - 1 := by
      rw [renderProperties, renderMoreProperties, length_append, length_cons,
        length_append, length_cons] at enough
      rw [renderProperties]
      omega
    rw [renderProperties, renderMoreProperties] at enough ⊢
    simp only [length_append, length_cons] at enough
    obtain ⟨less, rfl⟩ : ∃ less, fuel = less + 1 := ⟨fuel - 1, by omega⟩
    rw [append_assoc, cons_append, append_assoc, cons_append]
    apply parseProperties_more
    · exact parseValue_render value less _ (stops_cons (by decide)) (by omega)
    · have others := parseProperties_render second other properties less rest (by omega)
      rwa [renderProperties] at others
termination_by name value properties => sizeOf ((name, value) :: properties)

end

theorem stops_of_space {space : List Char} (blank : space.all isSpace) : Stops space := by
  intro symbol more starts
  have first : isSpace symbol := by
    rw [starts, all_cons, Bool.and_eq_true] at blank
    exact blank.1
  simp only [isSpace, Bool.or_eq_true, decide_eq_true_eq] at first
  rcases first with ((rfl | rfl) | rfl) | rfl <;> rfl

/-- A written value that space follows is parsed as the value. -/
theorem parse_render_space (value : Json) {space : List Char} (blank : space.all isSpace) :
    parse (render value ++ String.ofList space) = some value := by
  obtain ⟨symbol, more, starts, -⟩ := renderChars_head value
  have length : (renderChars value).length = more.length + 1 := by rw [starts, length_cons]
  obtain ⟨fuel, exact⟩ : ∃ fuel, 2 * (renderChars value ++ space).length = fuel + 1 :=
    ⟨2 * (more.length + space.length) + 1, by rw [length_append]; omega⟩
  have reads := parseValue_render value fuel space (stops_of_space blank)
    (by rw [length_append] at exact; omega)
  have skipped : skipSpace space = [] :=
    List.dropWhile_eq_nil_iff.mpr fun symbol member => List.all_eq_true.mp blank symbol member
  have text : (render value ++ String.ofList space).toList = renderChars value ++ space := by
    simp [render]
  simp only [parse, text, exact, reads, skipped, if_true]

theorem parse_render (value : Json) : parse (render value) = some value := by
  have same : render value ++ String.ofList [] = render value := by simp
  rw [← same]
  exact parse_render_space value rfl

theorem render_injective : Function.Injective render := by
  intro left right same
  have reads := congrArg parse same
  rwa [parse_render, parse_render, Option.some.injEq] at reads

end NancyMan.Json
