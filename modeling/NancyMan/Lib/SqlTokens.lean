import NancyMan.Lib.Utf8

/-!
# Tokens of SQL text

How a PostgreSQL session cuts the text of a script into words, delimited names and marks. The
text is read symbol by symbol, so what is read of a text is put together from what is read of its
pieces. A delimited name stands between double quotes, a quote in it is doubled, and a name is cut
to the bytes that the catalog keeps of it. String constants, operators and block comments are
outside this fragment and are refused.
-/
namespace NancyMan.SqlText

inductive Token where
  | word (text : String)
  | name (text : String)
  | mark (symbol : Char)
deriving DecidableEq

/-- The bytes that the catalog keeps of a name, `NAMEDATALEN - 1`. -/
def maxNameBytes : Nat := 63

/-- The symbols of a name within a number of bytes. -/
def clipBytes : Nat → List Char → List Char
  | _, [] => []
  | bytes, symbol :: rest =>
    if Utf8.byteLength [symbol] ≤ bytes then
      symbol :: clipBytes (bytes - Utf8.byteLength [symbol]) rest
    else []

def nameOf (symbols : List Char) : String := String.ofList (clipBytes maxNameBytes symbols)

def wordOf (symbols : List Char) : String := String.ofList (symbols.map Char.toUpper)

/-- Where the reader of a text stands. -/
inductive Place where
  | between
  | dash
  | comment
  | inWord (symbols : List Char)
  | inName (symbols : List Char)
  /-- After a quote in a name, which ends the name or is the first of two. -/
  | afterQuote (symbols : List Char)

variable (symbol : Char)

def beginsWord : Bool := symbol.isAlpha || symbol = '_' || 128 ≤ symbol.toNat

def continuesWord : Bool :=
  beginsWord symbol || symbol.isDigit || symbol = '$'

def isSpace : Bool :=
  symbol = ' ' || symbol = '\n' || symbol = '\t' || symbol = '\r' || symbol = '\x0b' ||
    symbol = '\x0c'

def isMark : Bool :=
  symbol = '(' || symbol = ')' || symbol = ',' || symbol = '.' || symbol = ';'

/-- A symbol that is not part of a token before it: the tokens it completes and the next place. -/
def enter : Option (List Token × Place) :=
  if isSpace symbol then some ([], .between)
  else if isMark symbol then some ([.mark symbol], .between)
  else if symbol = '-' then some ([], .dash)
  else if symbol = '"' then some ([], .inName [])
  else if beginsWord symbol then some ([], .inWord [symbol])
  else none

def emit (token : Token) (symbol : Char) : Option (List Token × Place) :=
  (enter symbol).map fun entered => (token :: entered.1, entered.2)

/-- Read one symbol. -/
def step : Place → Char → Option (List Token × Place)
  | .between, symbol => enter symbol
  | .dash, symbol => if symbol = '-' then some ([], .comment) else none
  | .comment, symbol =>
    if symbol = '\n' || symbol = '\r' then some ([], .between) else some ([], .comment)
  | .inWord symbols, symbol =>
    if continuesWord symbol then some ([], .inWord (symbols ++ [symbol]))
    else emit (.word (wordOf symbols)) symbol
  | .inName symbols, symbol =>
    if symbol = '"' then some ([], .afterQuote symbols)
    else if symbol = '\x00' then none
    else some ([], .inName (symbols ++ [symbol]))
  | .afterQuote symbols, symbol =>
    if symbol = '"' then some ([], .inName (symbols ++ [symbol]))
    else if symbols = [] then none
    else emit (.name (nameOf symbols)) symbol

/-- Read the symbols of a text: the tokens it completes and where the reader stands after it. -/
def scan : Place → List Char → Option (List Token × Place)
  | place, [] => some ([], place)
  | place, symbol :: rest =>
    match step place symbol with
    | none => none
    | some (first, next) =>
      match scan next rest with
      | none => none
      | some (tokens, last) => some (first ++ tokens, last)

/-- What the end of the text completes. -/
def finish : Place → Option (List Token)
  | .between => some []
  | .comment => some []
  | .inWord symbols => some [.word (wordOf symbols)]
  | .afterQuote symbols => if symbols = [] then none else some [.name (nameOf symbols)]
  | .dash => none
  | .inName _ => none

/-- The tokens of a text. -/
def tokens (text : String) : Option (List Token) :=
  match scan .between text.toList with
  | none => none
  | some (found, place) => (finish place).map (found ++ ·)

def doubleQuote : List Char := if symbol = '"' then ['"', '"'] else [symbol]

def delimited (name : List Char) : List Char := '"' :: (name.flatMap doubleQuote ++ ['"'])

/-! ## Reading pieces of a text -/

/-- A text is read piece by piece. -/
theorem scan_append {place middle last : Place} {left right : List Char} {first later : List Token}
    (reads : scan place left = some (first, middle))
    (continues : scan middle right = some (later, last)) :
    scan place (left ++ right) = some (first ++ later, last) := by
  induction left generalizing place first with
  | nil =>
    have same := Option.some.inj reads
    have nothing : [] = first := congrArg Prod.fst same
    have here : place = middle := congrArg Prod.snd same
    rw [← nothing, here, List.nil_append, List.nil_append]
    exact continues
  | cons symbol rest ih =>
    rw [List.cons_append]
    unfold scan at reads ⊢
    cases moved : step place symbol with
    | none =>
      rw [moved] at reads
      cases reads
    | some entered =>
      rw [moved] at reads
      dsimp only at reads ⊢
      cases rested : scan entered.2 rest with
      | none =>
        rw [rested] at reads
        cases reads
      | some found =>
        rw [rested] at reads
        have same := Option.some.inj reads
        have front : entered.1 ++ found.1 = first := congrArg Prod.fst same
        have ends : found.2 = middle := congrArg Prod.snd same
        have goes : scan entered.2 rest = some (found.1, middle) := by
          rw [rested, ← ends]
        rw [ih goes, ← front]
        rw [List.append_assoc]

/-- The symbols of a name are collected. -/
theorem scan_inName {name : List Char} (kept : '\x00' ∉ name) (symbols : List Char) :
    scan (.inName symbols) (name.flatMap doubleQuote ++ ['"']) =
      some ([], .afterQuote (symbols ++ name)) := by
  induction name generalizing symbols with
  | nil =>
    rw [List.flatMap_nil, List.nil_append, List.append_nil]
    rfl
  | cons symbol rest ih =>
    have further : '\x00' ∉ rest := fun member => kept (.tail _ member)
    have later := ih further (symbols ++ [symbol])
    have joined : symbols ++ [symbol] ++ rest = symbols ++ symbol :: rest := by
      rw [List.append_assoc, List.singleton_append]
    rw [joined] at later
    rw [List.flatMap_cons, List.append_assoc]
    by_cases quote : symbol = '"'
    · -- The first quote ends the name unless a second follows.
      have doubled : doubleQuote symbol = ['"', '"'] := if_pos quote
      have read : scan (.inName symbols) ['"', '"'] = some ([], .inName (symbols ++ [symbol])) := by
        rw [quote]
        rfl
      rw [doubled]
      exact scan_append read later
    · have plain : symbol ≠ '\x00' := fun same => kept (same ▸ (.head _))
      have single : doubleQuote symbol = [symbol] := if_neg quote
      have read : scan (.inName symbols) [symbol] = some ([], .inName (symbols ++ [symbol])) := by
        simp [scan, step, quote, plain]
      rw [single]
      exact scan_append read later

/-- A delimited name is one token, which the symbol after it completes. -/
theorem scan_delimited {name : List Char} (filled : name ≠ []) (kept : '\x00' ∉ name)
    {symbol : Char} (ends : symbol ≠ '"') {following : List Token} {place : Place}
    (entered : enter symbol = some (following, place)) :
    scan .between (delimited name ++ [symbol]) =
      some (.name (nameOf name) :: following, place) := by
  have opened : scan .between ['"'] = some ([], .inName []) := by rfl
  have collected := scan_append opened (scan_inName kept [])
  have closed : scan (.afterQuote ([] ++ name)) [symbol] =
      some (.name (nameOf name) :: following, place) := by
    simp [scan, step, emit, ends, filled, entered]
  have all := scan_append collected closed
  exact all

/-! ## Names within the catalog's bytes -/

theorem clipBytes_eq_self {bytes : Nat} {name : List Char} (short : Utf8.byteLength name ≤ bytes) :
    clipBytes bytes name = name := by
  induction name generalizing bytes with
  | nil => rfl
  | cons symbol rest ih =>
    have split : Utf8.byteLength (symbol :: rest) =
        Utf8.byteLength [symbol] + Utf8.byteLength rest := by
      unfold Utf8.byteLength
      rw [← List.length_append, ← Utf8.bytes_append, List.singleton_append]
    have first : Utf8.byteLength [symbol] ≤ bytes := by omega
    have others := ih (show Utf8.byteLength rest ≤ bytes - Utf8.byteLength [symbol] by omega)
    unfold clipBytes
    rw [if_pos first, others]

theorem nameOf_eq_self {name : String} (short : Utf8.byteLength name.toList ≤ maxNameBytes) :
    nameOf name.toList = name := by
  unfold nameOf
  rw [clipBytes_eq_self short, String.ofList_toList]

end NancyMan.SqlText
