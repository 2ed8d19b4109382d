import Mathlib.Data.List.TakeWhile
import NancyMan.Agent.SourceAssignments

/-!
# How statements of a text source are read

A statement is scanned once for its end and once for what it assigns. The lemmas here say how
both passes read a statement whose value was written anew: the scan passes over what stands
before the value, over a plain value and over a quoted one, and ends with the comment; the second
pass finds the name as it was and the value written. `reading` is what a text assigns, name by
name, and depends on a statement only through its slices.
-/
namespace NancyMan.Agent

open List (append_assoc append_nil cons_append cons_ne_nil drop_left flatMap_cons mem_append
  mem_cons_self mem_takeWhile_imp nil_append takeWhile_append_dropWhile)

def Passive (symbol : Char) : Prop :=
  symbol ≠ '\\' ∧ Quote.of symbol = none ∧ symbol ≠ '#'

def Stops (text : List Char) : Prop := text.head?.all isLineBreak = true

def appendFirst (front : List Char) (slices : List Char × List Char) : List Char × List Char :=
  (front ++ slices.1, slices.2)

theorem map_map_consFirst (symbol : Char) (front : List Char)
    (scan : Except SourceAdapterError (List Char × List Char)) :
    (scan.map (appendFirst front)).map (consFirst symbol)
      = scan.map (appendFirst (symbol :: front)) := by
  cases scan with
  | error error => rfl
  | ok slices => rfl

variable {text : List Char}

/-- A scan outside quotes ends where it stands, before a line break or nothing. -/
theorem scanStatement_stops (stops : Stops text) :
    scanStatement none false text = .ok ([], text) := by
  cases text with
  | nil => rfl
  | cons symbol text =>
    have isBreak : isLineBreak symbol := by simpa [Stops] using stops
    have noComment : symbol ≠ '#' := by
      rintro rfl
      exact absurd isBreak (by decide)
    rw [scanStatement_cons, if_neg (by simp [noComment]), if_pos ⟨rfl, rfl, isBreak⟩]

theorem scanStatement_passive {symbol : Char} (passive : Passive symbol)
    (unbroken : isLineBreak symbol = false) (text : List Char) :
    scanStatement none false (symbol :: text)
      = (scanStatement none false text).map (consFirst symbol) := by
  obtain ⟨noEscape, noQuote, noComment⟩ := passive
  rw [scanStatement_cons, if_neg (by simp [noComment]), if_neg (by simp [unbroken])]
  simp [scanStep, noEscape, noQuote]

variable {front : List Char}

/-- A scan outside quotes passes what is passive and has no line break. -/
theorem scanStatement_pass (passive : ∀ symbol ∈ front, Passive symbol)
    (unbroken : ∀ symbol ∈ front, isLineBreak symbol = false) (text : List Char) :
    scanStatement none false (front ++ text)
      = (scanStatement none false text).map (appendFirst front) := by
  induction front with
  | nil => cases scanned : scanStatement none false text <;> simp [scanned, appendFirst, Except.map]
  | cons symbol front ih =>
    have rest := ih (fun other member => passive other (.tail _ member))
      (fun other member => unbroken other (.tail _ member))
    rw [cons_append, scanStatement_passive (passive symbol mem_cons_self)
      (unbroken symbol mem_cons_self), rest, map_map_consFirst]

variable {statement : List Char}

/-- What a scan passed without a change of state has no line break. -/
theorem unbroken_of_scan {rest : List Char} (passive : ∀ symbol ∈ front, Passive symbol)
    (scanned : scanStatement none false (front ++ text) = .ok (front ++ statement, rest)) :
    ∀ symbol ∈ front, isLineBreak symbol = false := by
  induction front with
  | nil => simp
  | cons symbol front ih =>
    have here := passive symbol mem_cons_self
    cases broken : isLineBreak symbol with
    | true =>
      have stops : Stops (symbol :: (front ++ text)) := by simpa [Stops] using broken
      rw [cons_append, scanStatement_stops stops] at scanned
      cases scanned
    | false =>
      rw [cons_append, scanStatement_passive here broken] at scanned
      obtain ⟨slices, scannedRest, same⟩ := Fallible.map_ok scanned
      have tail : slices = (front ++ statement, rest) := by
        simp only [consFirst, cons_append, Prod.mk.injEq, List.cons.injEq, true_and] at same
        exact Prod.ext same.1 same.2
      rw [tail] at scannedRest
      intro other member
      cases member with
      | head => exact broken
      | tail _ later =>
        exact ih (fun other member => passive other (.tail _ member)) scannedRest
          other later

/-- A comment ends where its line does. -/
theorem scanStatement_comment {comment : List Char}
    (unbroken : ∀ symbol ∈ comment, isLineBreak symbol = false) (stops : Stops text)
    (opens : comment.head? = some '#') :
    scanStatement none false (comment ++ text) = .ok (comment, text) := by
  cases comment with
  | nil => cases opens
  | cons symbol comment =>
    obtain rfl : symbol = '#' := by simpa using opens
    rw [cons_append, scanStatement_cons, if_pos ⟨rfl, rfl, rfl⟩,
      List.span_eq_takeWhile_dropWhile, ← cons_append]
    have whole : ∀ other ∈ '#' :: comment, (!isLineBreak other) := by
      intro other member
      rw [unbroken other member]
      rfl
    rw [List.takeWhile_append_of_pos whole, List.dropWhile_append_of_pos whole]
    cases text with
    | nil => simp
    | cons first text =>
      have isBreak : isLineBreak first := by simpa [Stops] using stops
      simp [isBreak]

/-- The text after the line break that ends a scan decides nothing before it. -/
theorem scanStatement_tail {quote : Option Quote} {escaped : Bool} {rest : List Char}
    {symbol : Char} (scanned : scanStatement quote escaped text = .ok (statement, symbol :: rest))
    (other : List Char) :
    scanStatement quote escaped (statement ++ symbol :: other) = .ok (statement, symbol :: other) := by
  have stops := (scanStatement_ok scanned).2
  have isBreak : isLineBreak symbol := by simpa using stops
  induction text generalizing quote escaped statement with
  | nil =>
    cases quote with
    | none => cases scanned
    | some opened => cases scanned
  | cons first text ih =>
    rw [scanStatement_cons] at scanned
    split at scanned
    · -- A comment was passed, and ends at the same line break.
      rename_i comment
      obtain ⟨rfl, rfl, rfl⟩ := comment
      rw [List.span_eq_takeWhile_dropWhile] at scanned
      obtain ⟨taken, left⟩ := Prod.mk.inj (Except.ok.inj scanned)
      have unbroken : ∀ passed ∈ statement, isLineBreak passed = false := by
        intro passed member
        rw [← taken] at member
        simpa using mem_takeWhile_imp member
      have opens : statement.head? = some '#' := by
        rw [← taken]
        rfl
      exact scanStatement_comment unbroken (by simpa [Stops] using isBreak) opens
    · rename_i noComment
      split at scanned
      · rename_i stop
        obtain ⟨rfl, same⟩ := Prod.mk.inj (Except.ok.inj scanned)
        obtain ⟨rfl, rfl⟩ := List.cons.inj same
        rw [nil_append, scanStatement_cons, if_neg noComment, if_pos stop]
      · rename_i goesOn
        obtain ⟨slices, scannedRest, same⟩ := Fallible.map_ok scanned
        obtain ⟨inner, tail⟩ := slices
        obtain ⟨rfl, rfl⟩ := Prod.mk.inj same
        have later := ih scannedRest stops
        rw [cons_append, scanStatement_cons, if_neg noComment, if_neg goesOn, later]
        rfl

/-- A statement scanned in a text is scanned alike where another text comes after its line
break. -/
theorem scanStatement_next {lineBreak next other : List Char}
    (scanned : scanStatement none false (statement ++ (lineBreak ++ next))
      = .ok (statement, lineBreak ++ next)) (ended : lineBreak = [] → other = next) :
    scanStatement none false (statement ++ (lineBreak ++ other))
      = .ok (statement, lineBreak ++ other) := by
  cases lineBreak with
  | nil =>
    rw [ended rfl]
    exact scanned
  | cons symbol lineBreak => exact scanStatement_tail scanned (lineBreak ++ other)

def escapedSymbol (quote : Quote) (symbol : Char) : List Char :=
  if symbol = '\\' ∨ symbol = quote.symbol then ['\\', symbol] else [symbol]

variable (quote : Quote)

theorem Quote.symbol_ne_escape : quote.symbol ≠ '\\' := by
  cases quote <;> decide

theorem Quote.of_symbol : Quote.of quote.symbol = some quote := by
  cases quote <;> rfl

/-- The symbol of the quote that it opens. -/
theorem Quote.symbol_of {symbol : Char} {quote : Quote} (opens : Quote.of symbol = some quote) :
    symbol = quote.symbol := by
  unfold Quote.of at opens
  split at opens
  · obtain rfl := Option.some.inj opens
    assumption
  · split at opens
    · obtain rfl := Option.some.inj opens
      assumption
    · cases opens

/-- Escapes are written symbol by symbol. -/
theorem escapeAll_escapeAll (value : List Char) :
    escapeAll quote.symbol (escapeAll '\\' value) = value.flatMap (escapedSymbol quote) := by
  have apart := quote.symbol_ne_escape
  unfold escapeAll
  rw [List.flatMap_assoc]
  congr 1
  funext symbol
  by_cases escape : symbol = '\\'
  · subst escape
    simp [escapedSymbol, apart.symm]
  · by_cases same : symbol = quote.symbol
    · simp [escapedSymbol, same, apart]
    · simp [escapedSymbol, escape, same]

/-- A written symbol leaves a scan inside its quote. -/
theorem scanStatement_escapedSymbol (symbol : Char) (text : List Char) :
    scanStatement (some quote) false (escapedSymbol quote symbol ++ text)
      = (scanStatement (some quote) false text).map (appendFirst (escapedSymbol quote symbol)) := by
  unfold escapedSymbol
  split
  · rw [cons_append, cons_append, nil_append, scanStatement_cons,
      if_neg (by simp), if_neg (by simp)]
    have escape : scanStep (some quote) false '\\' = (some quote, true) := rfl
    have back : scanStep (some quote) true symbol = (some quote, false) := rfl
    rw [escape, scanStatement_cons, if_neg (by simp), if_neg (by simp), back]
    cases scanStatement (some quote) false text <;> rfl
  · rename_i ordinary
    obtain ⟨noEscape, noQuote⟩ := not_or.mp ordinary
    rw [cons_append, nil_append, scanStatement_cons, if_neg (by simp),
      if_neg (by simp)]
    have inside : scanStep (some quote) false symbol = (some quote, false) := by
      simp [scanStep, noEscape, noQuote]
    rw [inside]
    cases scanStatement (some quote) false text <;> rfl

/-- A scan passes a value between quotes. -/
theorem scanStatement_quotedValue (value text : List Char) :
    scanStatement none false (quotedValue quote value ++ text)
      = (scanStatement none false text).map (appendFirst (quotedValue quote value)) := by
  have inside : scanStatement (some quote) false
      (value.flatMap (escapedSymbol quote) ++ quote.symbol :: text)
      = (scanStatement none false text).map
          (appendFirst (value.flatMap (escapedSymbol quote) ++ [quote.symbol])) := by
    induction value with
    | nil =>
      have closes : scanStep (some quote) false quote.symbol = (none, false) := by
        simp [scanStep, quote.symbol_ne_escape]
      rw [List.flatMap_nil, nil_append, scanStatement_cons, if_neg (by simp),
        if_neg (by simp), closes]
      cases scanStatement none false text <;> rfl
    | cons symbol value ih =>
      rw [flatMap_cons, append_assoc, scanStatement_escapedSymbol, ih]
      cases scanStatement none false text with
      | error error => rfl
      | ok slices => simp [Except.map, appendFirst]
  have opens : scanStep none false quote.symbol = (some quote, false) := by
    simp [scanStep, quote.symbol_ne_escape, quote.of_symbol]
  have noComment : quote.symbol ≠ '#' := by cases quote <;> decide
  have unbroken : isLineBreak quote.symbol = false := by cases quote <;> rfl
  rw [quotedValue, escapeAll_escapeAll, append_assoc, cons_append, List.singleton_append,
    scanStatement_cons, if_neg (by simp [noComment]), if_neg (by simp [unbroken]), opens, inside]
  cases scanStatement none false text <;> rfl

/-- The text written between quotes ends at the quote that closes it. -/
theorem closeQuote_flatMap (value text : List Char) :
    closeQuote quote.symbol false (value.flatMap (escapedSymbol quote) ++ quote.symbol :: text)
      = some (value.flatMap (escapedSymbol quote), text) := by
  induction value with
  | nil => simp [closeQuote, quote.symbol_ne_escape]
  | cons symbol value ih =>
    rw [flatMap_cons, append_assoc]
    by_cases special : symbol = '\\' ∨ symbol = quote.symbol
    · have written : escapedSymbol quote symbol = ['\\', symbol] := if_pos special
      rw [written]
      simp [closeQuote, consFirst, ih]
    · have written : escapedSymbol quote symbol = [symbol] := if_neg special
      obtain ⟨noEscape, noQuote⟩ := not_or.mp special
      rw [written]
      simp [closeQuote, consFirst, noEscape, noQuote, ih]

/-- The text written between quotes is read as the value. -/
theorem decodeEscapes_flatMap (value : List Char) :
    decodeEscapes (some quote) (value.flatMap (escapedSymbol quote)) = value := by
  induction value with
  | nil => rfl
  | cons symbol value ih =>
    rw [flatMap_cons]
    by_cases special : symbol = '\\' ∨ symbol = quote.symbol
    · have written : escapedSymbol quote symbol = ['\\', symbol] := if_pos special
      have kept : unescaped (some quote) symbol = symbol := by
        unfold unescaped
        rcases special with rfl | rfl
        · simp
        · cases quote <;> simp [Quote.symbol]
      rw [written]
      simp [decodeEscapes, kept, ih]
    · have written : escapedSymbol quote symbol = [symbol] := if_neg special
      have noEscape := (not_or.mp special).1
      rw [written, List.singleton_append, decodeEscapes, ih]
      exact fun _ _ same => absurd same noEscape

theorem skipWhitespace_endsValue (ends : endsValue text) : skipWhitespace text = text := by
  cases text with
  | nil => rfl
  | cons symbol text =>
    obtain rfl : symbol = '#' := by simpa [endsValue] using ends
    rfl

section

variable {leading : List Char} (spaces : ∀ symbol ∈ leading, isWhitespace symbol = true)
include spaces

theorem takeWhile_leading {text : List Char} (front : text.takeWhile isWhitespace = []) :
    (leading ++ text).takeWhile isWhitespace = leading := by
  rw [List.takeWhile_append_of_pos spaces, front, append_nil]

theorem skipWhitespace_leading (text : List Char) :
    skipWhitespace (leading ++ text) = skipWhitespace text :=
  List.dropWhile_append_of_pos spaces

/-- A value written between quotes is read back. -/
theorem parseValue_quotedValue (quote : Quote) (value : List Char) {trailing : List Char}
    (ends : endsValue trailing) (line : Nat) :
    (parseValue (leading ++ quotedValue quote value ++ trailing) line).map (·.value)
      = .ok value := by
  have noSpace : isWhitespace quote.symbol = false := by cases quote <;> decide
  have noComment : quote.symbol ≠ '#' := by cases quote <;> decide
  have written : quotedValue quote value ++ trailing
      = quote.symbol :: (value.flatMap (escapedSymbol quote) ++ quote.symbol :: trailing) := by
    rw [quotedValue, escapeAll_escapeAll]
    simp
  have opener : skipWhitespace (leading ++ quotedValue quote value ++ trailing)
      = quote.symbol :: (value.flatMap (escapedSymbol quote) ++ quote.symbol :: trailing) := by
    rw [append_assoc, skipWhitespace_leading spaces, written]
    simp [skipWhitespace, noSpace]
  simp only [parseValue, opener, noComment, if_false, quote.of_symbol, closeQuote_flatMap,
    skipWhitespace_endsValue ends, ends, if_true, decodeEscapes_flatMap]
  rfl

/-- No value is read back before a comment or the end of the statement. -/
theorem parseValue_empty {trailing : List Char} (ends : endsValue trailing) (line : Nat) :
    (parseValue (leading ++ trailing) line).map (·.value) = .ok [] := by
  have front : skipWhitespace (leading ++ trailing) = trailing := by
    rw [skipWhitespace_leading spaces, skipWhitespace_endsValue ends]
  cases trailing with
  | nil =>
    simp only [parseValue, front]
    rfl
  | cons symbol trailing =>
    obtain rfl : symbol = '#' := by simpa [endsValue] using ends
    simp only [parseValue, front, if_true]
    rfl

end

def PlainSymbol (symbol : Char) : Prop :=
  isWhitespace symbol = false ∧ symbol ≠ '#' ∧ symbol ≠ '\\' ∧ Quote.of symbol = none

/-- A plain value has a symbol, and only plain ones. -/
theorem isPlain_symbols {value : List Char} (plain : isPlain value) :
    value ≠ [] ∧ ∀ symbol ∈ value, PlainSymbol symbol := by
  simp only [isPlain, Bool.and_eq_true, Bool.not_eq_true', List.isEmpty_eq_false_iff,
    List.all_eq_true, bne_iff_ne] at plain
  refine ⟨plain.1, fun symbol member => ?_⟩
  obtain ⟨⟨⟨⟨⟨noSpace, noComment⟩, noEscape⟩, noSingle⟩, noDouble⟩, noSign⟩ :=
    plain.2 symbol member
  exact ⟨noSpace, noComment, noEscape, by simp [Quote.of, noSingle, noDouble]⟩

theorem decodeEscapes_append (noEscape : ∀ symbol ∈ front, symbol ≠ '\\') (quote : Option Quote)
    (text : List Char) :
    decodeEscapes quote (front ++ text) = front ++ decodeEscapes quote text := by
  induction front with
  | nil => rfl
  | cons symbol front ih =>
    have rest := ih fun other member => noEscape other (.tail _ member)
    rw [cons_append, decodeEscapes, rest, cons_append]
    exact fun _ _ same => absurd same (noEscape symbol mem_cons_self)

/-- Nothing up to the last symbol that is no whitespace is trimmed. -/
theorem trimEnd_append {symbol : Char} (noSpace : isWhitespace symbol = false)
    (front text : List Char) :
    ∃ rest, trimEnd (front ++ symbol :: text) = front ++ symbol :: rest := by
  have turned : (front ++ symbol :: text).reverse = text.reverse ++ symbol :: front.reverse := by
    simp
  have kept : (symbol :: front.reverse).dropWhile isWhitespace = symbol :: front.reverse := by
    simp [noSpace]
  rw [trimEnd, turned, List.dropWhile_append]
  split
  · exact ⟨[], by rw [kept]; simp⟩
  · exact ⟨(text.reverse.dropWhile isWhitespace).reverse, by simp⟩

/-- A value is read on past symbols that are neither escapes nor comments. -/
theorem unquotedValue_append (plain : ∀ symbol ∈ front, symbol ≠ '#' ∧ symbol ≠ '\\')
    (previous : Option Char) (text : List Char) :
    unquotedValue previous false (front ++ text)
      = (unquotedValue (front.getLast?.or previous) false text).map (appendFirst front) := by
  induction front generalizing previous with
  | nil =>
    show unquotedValue previous false text = (unquotedValue previous false text).map _
    cases unquotedValue previous false text <;> rfl
  | cons symbol front ih =>
    obtain ⟨noComment, noEscape⟩ := plain symbol mem_cons_self
    have rest := ih (fun other member => plain other (.tail _ member)) (some symbol)
    have last : (symbol :: front).getLast?.or previous = front.getLast?.or (some symbol) := by
      cases found : front.getLast? with
      | none => simp [List.getLast?_eq_none_iff.mp found]
      | some other => simp [List.getLast?_cons, found]
    rw [cons_append, unquotedValue]
    simp only [Bool.false_eq_true, if_false, noEscape, noComment, false_and]
    rw [rest, last]
    cases unquotedValue (front.getLast?.or (some symbol)) false text <;> rfl

section

variable {leading value : List Char} (spaces : ∀ symbol ∈ leading, isWhitespace symbol = true)
  (plain : isPlain value = true)
include spaces plain

/-- What `parseValue` does with a plain value is decided by what comes after it. -/
theorem parseValue_plain (text : List Char) (line : Nat) :
    parseValue (leading ++ value ++ text) line
      = match unquotedValue value.getLast? false text with
        | none => .error (malformedAt line)
        | some (source, trailing) =>
          .ok ⟨trimEnd (value ++ decodeEscapes none source), leading, value ++ source, trailing,
            none⟩ := by
  obtain ⟨nonempty, symbols⟩ := isPlain_symbols plain
  obtain ⟨first, rest, rfl⟩ := List.exists_cons_of_ne_nil nonempty
  obtain ⟨noSpace, noComment, noEscape, noQuote⟩ := symbols first mem_cons_self
  have front : skipWhitespace (leading ++ (first :: rest) ++ text) = first :: (rest ++ text) := by
    rw [append_assoc, skipWhitespace_leading spaces]
    simp [skipWhitespace, noSpace]
  have before : (leading ++ (first :: rest) ++ text).takeWhile isWhitespace = leading := by
    rw [append_assoc, takeWhile_leading spaces (by simp [noSpace])]
  have passed := unquotedValue_append
    (fun symbol member => ⟨(symbols symbol member).2.1, (symbols symbol member).2.2.1⟩) none text
  rw [cons_append, Option.or_none] at passed
  simp only [parseValue, front, before, noComment, if_false, noQuote, passed]
  cases unquotedValue (first :: rest).getLast? false text with
  | none => rfl
  | some slices =>
    simp only [Option.map_some, appendFirst]
    rw [decodeEscapes_append fun symbol member => (symbols symbol member).2.2.1]

/-- A plain value at the end of its statement is read back. -/
theorem parseValue_plain_end (line : Nat) :
    (parseValue (leading ++ value) line).map (·.value) = .ok value := by
  have whole := parseValue_plain spaces plain [] line
  have ended : unquotedValue value.getLast? false [] = some ([], []) := rfl
  rw [append_nil, ended] at whole
  rw [whole]
  have same : trimEnd value = value := by
    obtain ⟨nonempty, symbols⟩ := isPlain_symbols plain
    have noSpace := (symbols _ (List.getLast_mem nonempty)).1
    rw [← List.dropLast_append_getLast nonempty]
    simp [trimEnd, noSpace]
  simp only [decodeEscapes, append_nil, same]
  rfl

/-- A comment right after a plain value is read as part of the value. -/
theorem parseValue_plain_comment (comment : List Char) (line : Nat) :
    (parseValue (leading ++ value ++ '#' :: comment) line).map (·.value) ≠ .ok value := by
  obtain ⟨nonempty, symbols⟩ := isPlain_symbols plain
  have noSpace := (symbols _ (List.getLast_mem nonempty)).1
  have goesOn : unquotedValue value.getLast? false ('#' :: comment)
      = (unquotedValue (some '#') false comment).map (consFirst '#') := by
    rw [List.getLast?_eq_some_getLast nonempty, unquotedValue]
    simp [noSpace]
  rw [parseValue_plain spaces plain, goesOn]
  cases unquotedValue (some '#') false comment with
  | none => simp [Except.map]
  | some slices =>
    obtain ⟨source, trailing⟩ := slices
    have read : decodeEscapes none ('#' :: source) = '#' :: decodeEscapes none source := by
      rw [decodeEscapes]
      exact fun _ _ same => absurd same (by decide)
    obtain ⟨rest, trimmed⟩ := trimEnd_append (show isWhitespace '#' = false by decide) value
      (decodeEscapes none source)
    intro same
    simp [Except.map, consFirst, read, trimmed] at same

end

theorem takeWhile_dropWhile_stop {kind : Char → Bool} (all : ∀ symbol ∈ front, kind symbol)
    (text : List Char) (stop : ∀ symbol, text.head? = some symbol → kind symbol = false) :
    (front ++ text).takeWhile kind = front ∧ (front ++ text).dropWhile kind = text := by
  rw [List.takeWhile_append_of_pos all, List.dropWhile_append_of_pos all]
  cases text with
  | nil => simp
  | cons symbol text => simp [stop symbol rfl]

/-- The text after its symbols of a kind. -/
theorem drop_length_takeWhile (kind : Char → Bool) (text : List Char) :
    text.drop (text.takeWhile kind).length = text.dropWhile kind := by
  induction text with
  | nil => rfl
  | cons symbol text ih =>
    cases holds : kind symbol with
    | false => simp [holds]
    | true => simpa [holds] using ih

/-- Nothing after the `=` of a statement decides whether it begins with `export`. -/
theorem startsWithExport_sign {heading : List Char} (sign : '=' ∈ heading) (text other : List Char) :
    startsWithExport (heading ++ text) = startsWithExport (heading ++ other) := by
  by_cases long : 7 ≤ heading.length
  · have taken (rest : List Char) : (heading ++ rest).take 6 = heading.take 6 :=
      List.take_append_of_le_length (by omega)
    have seventh (rest : List Char) : (heading ++ rest)[6]? = heading[6]? :=
      List.getElem?_append_left (by omega)
    simp only [startsWithExport, taken, seventh]
  · have refused (rest : List Char) : startsWithExport (heading ++ rest) = false := by
      have member : '=' ∈ (heading ++ rest).take 6 := by
        rw [List.take_append, List.take_of_length_le (by omega)]
        exact List.mem_append_left _ sign
      have differs : (heading ++ rest).take 6 ≠ ['e', 'x', 'p', 'o', 'r', 't'] := by
        intro same
        rw [same] at member
        exact absurd member (by decide)
      simp [startsWithExport, differs]
    rw [refused, refused]

/-- The name at the front of a text, up to its `=`, is that of any text that goes on otherwise
after the `=`. -/
theorem matchName_sign {after : List Char} {symbol : Char} {name : List Char} (rest : List Char)
    (named : matchName text = symbol :: name)
    (assigned : skipWhitespace (text.drop (symbol :: name).length) = '=' :: after)
    {spacing : List Char}
    (spaced : (text.drop (symbol :: name).length).takeWhile isWhitespace = spacing) :
    text = symbol :: name ++ spacing ++ '=' :: after ∧
      matchName (symbol :: name ++ spacing ++ '=' :: rest) = symbol :: name := by
  cases text with
  | nil => cases named
  | cons first text =>
    cases starts : isNameStart first with
    | false => simp [matchName, starts] at named
    | true =>
      simp only [matchName, starts, if_true, List.cons.injEq] at named
      obtain ⟨rfl, named⟩ := named
      have dropped : text.drop name.length = text.dropWhile isNameSymbol := by
        rw [← named, drop_length_takeWhile]
      have cut : text = name ++ text.drop name.length := by
        rw [dropped]
        conv_lhs => rw [← takeWhile_append_dropWhile (p := isNameSymbol) (l := text), named]
      have left : text.drop name.length = spacing ++ '=' :: after := by
        have joined := takeWhile_append_dropWhile (p := isWhitespace)
          (l := text.drop name.length)
        rw [← joined]
        congr 1
      refine ⟨by rw [cons_append, cons_append, append_assoc, ← left, ← cut], ?_⟩
      have stop : ∀ other, (spacing ++ '=' :: rest).head? = some other →
          isNameSymbol other = false := by
        intro other isHead
        have same : (text.dropWhile isNameSymbol).head? = some other := by
          rw [← dropped, left, ← isHead]
          cases spacing <;> rfl
        have stops := List.head?_dropWhile_not isNameSymbol text
        rw [same] at stops
        simpa using stops
      have all : ∀ other ∈ name, isNameSymbol other := by
        rw [← named]
        exact fun other member => mem_takeWhile_imp member
      rw [cons_append, cons_append, matchName, if_pos starts, append_assoc,
        (takeWhile_dropWhile_stop all _ stop).1]

theorem skipWhitespace_head (text : List Char) {symbol : Char}
    (isHead : (skipWhitespace text).head? = some symbol) : isWhitespace symbol = false := by
  have stops := List.head?_dropWhile_not isWhitespace text
  rw [show text.dropWhile isWhitespace = skipWhitespace text from rfl, isHead] at stops
  simpa using stops

/-- What stands before the name of a statement stands before any text that begins like the name. -/
theorem statementOpening_append (cut : statement.drop (statementOpening statement).length = text) :
    statement = statementOpening statement ++ text ∧
      ∀ other : List Char, other.head? = text.head? → endsValue other = endsValue text →
        startsWithExport other = startsWithExport text →
        statementOpening (statementOpening statement ++ other) = statementOpening statement ∧
          endsValue (skipWhitespace (statementOpening statement ++ other))
            = endsValue (skipWhitespace statement) := by
  have joined : statement.takeWhile isWhitespace ++ skipWhitespace statement = statement :=
    takeWhile_append_dropWhile
  have spaces : ∀ symbol ∈ statement.takeWhile isWhitespace, isWhitespace symbol :=
    fun symbol member => mem_takeWhile_imp member
  cases exported : startsWithExport (skipWhitespace statement) with
  | false =>
    have opening : statementOpening statement = statement.takeWhile isWhitespace := by
      simp [statementOpening, exported]
    have rest : text = skipWhitespace statement := by
      rw [← cut, opening]
      exact drop_length_takeWhile isWhitespace statement
    rw [opening, rest]
    refine ⟨joined.symm, fun other head ends starts => ?_⟩
    have stop : ∀ symbol, other.head? = some symbol → isWhitespace symbol = false := by
      intro symbol isHead
      exact skipWhitespace_head _ (head ▸ isHead)
    obtain ⟨taken, dropped⟩ := takeWhile_dropWhile_stop spaces _ stop
    have skipped : skipWhitespace (statement.takeWhile isWhitespace ++ other) = other := dropped
    exact ⟨by rw [statementOpening, skipped, taken]; simp [starts, exported], by rw [skipped, ends]⟩
  | true =>
    obtain ⟨word, space⟩ : (skipWhitespace statement).take 6 = ['e', 'x', 'p', 'o', 'r', 't'] ∧
        ((skipWhitespace statement)[6]?).any isWhitespace = true := by
      simpa [startsWithExport] using exported
    obtain ⟨rest, split⟩ : ∃ rest, skipWhitespace statement
        = ['e', 'x', 'p', 'o', 'r', 't'] ++ rest :=
      ⟨(skipWhitespace statement).drop 6, by rw [← word, List.take_append_drop]⟩
    have second : ∀ symbol ∈ rest.takeWhile isWhitespace, isWhitespace symbol :=
      fun symbol member => mem_takeWhile_imp member
    obtain ⟨gap, gaps, opened⟩ : ∃ gap gaps, rest.takeWhile isWhitespace = gap :: gaps := by
      cases rest with
      | nil => simp [split] at space
      | cons gap rest =>
        have isSpace : isWhitespace gap := by simpa [split] using space
        exact ⟨gap, rest.takeWhile isWhitespace, by simp [isSpace]⟩
    have opening : statementOpening statement = statement.takeWhile isWhitespace ++
        (['e', 'x', 'p', 'o', 'r', 't'] ++ rest.takeWhile isWhitespace) := by
      simp only [statementOpening, exported, if_true]
      rw [split]
      rfl
    have whole : statement = statementOpening statement ++ rest.dropWhile isWhitespace := by
      rw [opening, append_assoc, append_assoc, takeWhile_append_dropWhile, ← split,
        joined]
    have left : text = rest.dropWhile isWhitespace := by
      have dropped (front back : List Char) (same : statement = front ++ back) :
          statement.drop front.length = back := by rw [same, drop_left]
      rw [← cut, dropped _ _ whole]
    rw [left]
    refine ⟨whole, fun other head _ _ => ?_⟩
    have stop : ∀ symbol, other.head? = some symbol → isWhitespace symbol = false := by
      intro symbol isHead
      exact skipWhitespace_head rest (head ▸ isHead)
    have between := takeWhile_dropWhile_stop second _ stop
    have before := takeWhile_dropWhile_stop spaces (['e', 'x', 'p', 'o', 'r', 't'] ++
      (rest.takeWhile isWhitespace ++ other)) (by rintro symbol ⟨⟩; decide)
    have regrouped : statementOpening statement ++ other = statement.takeWhile isWhitespace ++
        (['e', 'x', 'p', 'o', 'r', 't'] ++ (rest.takeWhile isWhitespace ++ other)) := by
      rw [opening]
      simp only [append_assoc]
    have skipped : skipWhitespace (statementOpening statement ++ other)
        = ['e', 'x', 'p', 'o', 'r', 't'] ++ (rest.takeWhile isWhitespace ++ other) := by
      rw [regrouped]
      exact before.2
    have again : startsWithExport (['e', 'x', 'p', 'o', 'r', 't'] ++
        (rest.takeWhile isWhitespace ++ other)) = true := by
      have isSpace := second gap (by rw [opened]; exact mem_cons_self)
      simp [startsWithExport, opened, isSpace]
    have dropped : (['e', 'x', 'p', 'o', 'r', 't'] ++ (rest.takeWhile isWhitespace ++ other)).drop 6
        = rest.takeWhile isWhitespace ++ other := rfl
    constructor
    · conv_lhs => rw [statementOpening]
      rw [skipped, again, if_pos rfl, dropped, between.1, regrouped, before.1, opening]
      rfl
    · rw [skipped, split]
      rfl

/-- The statement of an assignment whose `=` is followed by a text. -/
def Assignment.assigning (assignment : Assignment) (text : List Char) : List Char :=
  assignment.opening ++ (assignment.name ++ assignment.spacing ++ '=' :: text)

open Assignment ParsedDefinition

/-- An assignment is its slices, and what it assigns is what `parseValue` reads after its `=`,
whatever stands there. -/
theorem parseStatement_assigning {line : Nat} {assignment : Assignment}
    (parsed : parseStatement statement line = .ok (some assignment)) :
    ∃ text, statement = assignment.assigning text ∧ parseValue text line = .ok assignment.value ∧
      ∀ other otherLine, parseStatement (assignment.assigning other) otherLine
        = (parseValue other otherLine).map fun value => some { assignment with value } := by
  obtain ⟨whole, again⟩ := statementOpening_append (show
    statement.drop (statementOpening statement).length = _ from rfl)
  generalize cut : statement.drop (statementOpening statement).length = text at whole again
  unfold parseStatement at parsed
  split at parsed
  · cases parsed
  · rename_i blank
    simp only [cut] at parsed
    split at parsed
    · rename_i first name after named assigned
      cases read : parseValue after line with
      | error error =>
        rw [read] at parsed
        cases parsed
      | ok value =>
        rw [read] at parsed
        obtain rfl := Option.some.inj (Except.ok.inj parsed)
        rw [named] at assigned
        have sliced (rest : List Char) := matchName_sign rest named assigned rfl
        have spaces : ∀ symbol ∈ (text.drop (first :: name).length).takeWhile isWhitespace,
            isWhitespace symbol = true := fun symbol member => mem_takeWhile_imp member
        simp only [named]
        generalize spaced : (text.drop (first :: name).length).takeWhile isWhitespace = spacing
          at sliced spaces
        refine ⟨after, ?_, read, fun other otherLine => ?_⟩
        · rw [assigning]
          conv_lhs => rw [whole, (sliced []).1]
        · -- The text after the `=` does not reach what comes before it.
          have heading : '=' ∈ first :: name ++ spacing ++ ['='] := by simp
          have exports := startsWithExport_sign heading other after
          obtain ⟨opening, ends⟩ := again (first :: name ++ spacing ++ '=' :: other)
            (by rw [(sliced []).1]; rfl) (by rw [(sliced []).1]; rfl)
            (by rw [(sliced []).1]; simpa using exports)
          have left : (first :: name ++ spacing ++ '=' :: other).drop (first :: name).length
              = spacing ++ '=' :: other := by
            rw [append_assoc]
            exact drop_left
          have between := takeWhile_dropWhile_stop spaces ('=' :: other)
            (by rintro symbol ⟨⟩; decide)
          have sign : skipWhitespace (spacing ++ '=' :: other) = '=' :: other := between.2
          rw [assigning, parseStatement, ends, if_neg blank]
          simp only [opening, drop_left, (sliced other).2, left, sign, between.1]
    · cases parsed

theorem passive_of_isWhitespace {symbol : Char} (space : isWhitespace symbol) : Passive symbol := by
  refine ⟨?_, ?_, ?_⟩
  · rintro rfl
    exact absurd space (by decide)
  · cases opens : Quote.of symbol with
    | none => rfl
    | some quote =>
      rw [Quote.symbol_of opens] at space
      exact absurd space (by cases quote <;> decide)
  · rintro rfl
    exact absurd space (by decide)

theorem passive_of_isNameSymbol {symbol : Char} (named : isNameSymbol symbol) : Passive symbol := by
  refine ⟨?_, ?_, ?_⟩
  · rintro rfl
    exact absurd named (by decide)
  · cases opens : Quote.of symbol with
    | none => rfl
    | some quote =>
      rw [Quote.symbol_of opens] at named
      exact absurd named (by cases quote <;> decide)
  · rintro rfl
    exact absurd named (by decide)

/-- Whitespace and the word `export` stand before a name. -/
theorem statementOpening_passive (statement : List Char) :
    ∀ symbol ∈ statementOpening statement, Passive symbol := by
  intro symbol member
  rcases mem_append.mp member with space | exported
  · exact passive_of_isWhitespace (mem_takeWhile_imp space)
  · split at exported
    · rename_i starts
      have word : (skipWhitespace statement).take 6 = ['e', 'x', 'p', 'o', 'r', 't'] := by
        have both := starts
        simp only [startsWithExport, Bool.and_eq_true, decide_eq_true_eq] at both
        exact both.1
      rw [word] at exported
      rcases mem_append.mp exported with letter | space
      · have named : ['e', 'x', 'p', 'o', 'r', 't'].all isNameSymbol := by decide
        exact passive_of_isNameSymbol (List.all_eq_true.mp named symbol letter)
      · exact passive_of_isWhitespace (mem_takeWhile_imp space)
    · cases exported

/-- A name has symbols of names only. -/
theorem matchName_symbols (text : List Char) : ∀ symbol ∈ matchName text, isNameSymbol symbol := by
  cases text with
  | nil => simp [matchName]
  | cons first text =>
    intro symbol member
    cases starts : isNameStart first with
    | false => simp [matchName, starts] at member
    | true =>
      rw [matchName, if_pos starts] at member
      cases member with
      | head =>
        have either : first.isAlpha = true ∨ first = '_' := by simpa [isNameStart] using starts
        rcases either with letter | rfl
        · simp [isNameSymbol, Char.isAlphanum, letter]
        · rfl
      | tail _ later => exact mem_takeWhile_imp later

/-- Nothing before the value of an assignment changes the state of a scan. -/
theorem parseStatement_passive {line : Nat} {assignment : Assignment}
    (parsed : parseStatement statement line = .ok (some assignment)) :
    ∀ symbol ∈ assignment.opening ++ assignment.name ++ assignment.spacing, Passive symbol := by
  unfold parseStatement at parsed
  split at parsed
  · cases parsed
  · simp only at parsed
    split at parsed
    · rename_i first name after named assigned
      cases read : parseValue after line with
      | error error =>
        rw [read] at parsed
        cases parsed
      | ok value =>
        rw [read] at parsed
        obtain rfl := Option.some.inj (Except.ok.inj parsed)
        intro symbol member
        simp only [mem_append] at member
        rcases member with (opening | named) | space
        · exact statementOpening_passive statement symbol opening
        · exact passive_of_isNameSymbol (matchName_symbols _ symbol named)
        · exact passive_of_isWhitespace (mem_takeWhile_imp space)
    · cases parsed

/-- The text inside a quote, the quote, and the text after it. -/
theorem closeQuote_append {opener : Char} {escaped : Bool} {inside after : List Char}
    (closed : closeQuote opener escaped text = some (inside, after)) :
    text = inside ++ opener :: after := by
  induction text generalizing escaped inside with
  | nil => cases closed
  | cons symbol text ih =>
    have onward (later : Bool)
        (found : (closeQuote opener later text).map (consFirst symbol) = some (inside, after)) :
        symbol :: text = inside ++ opener :: after := by
      obtain ⟨⟨first, second⟩, closedLater, same⟩ := Option.map_eq_some_iff.mp found
      obtain ⟨rfl, rfl⟩ := Prod.mk.inj same
      rw [ih closedLater]
      rfl
    unfold closeQuote at closed
    split at closed
    · exact onward false closed
    · split at closed
      · exact onward true closed
      · split at closed
        · rename_i same
          obtain ⟨rfl, rfl⟩ := Prod.mk.inj (Option.some.inj closed)
          rw [same]
          rfl
        · exact onward false closed

/-- An unquoted value, and the comment or nothing after it. -/
theorem unquotedValue_ends {previous : Option Char} {escaped : Bool} {source trailing : List Char}
    (read : unquotedValue previous escaped text = some (source, trailing)) :
    text = source ++ trailing ∧ endsValue trailing := by
  induction text generalizing previous escaped source with
  | nil =>
    unfold unquotedValue at read
    split at read
    · cases read
    · obtain ⟨rfl, rfl⟩ := Prod.mk.inj (Option.some.inj read)
      exact ⟨rfl, rfl⟩
  | cons symbol text ih =>
    have onward (later : Bool) (found : (unquotedValue (some symbol) later text).map
        (consFirst symbol) = some (source, trailing)) :
        symbol :: text = source ++ trailing ∧ endsValue trailing = true := by
      obtain ⟨⟨first, second⟩, readLater, same⟩ := Option.map_eq_some_iff.mp found
      obtain ⟨rfl, rfl⟩ := Prod.mk.inj same
      obtain ⟨joined, ends⟩ := ih readLater
      exact ⟨by rw [joined]; rfl, ends⟩
    unfold unquotedValue at read
    split at read
    · exact onward false read
    · split at read
      · exact onward true read
      · split at read
        · rename_i comment
          obtain ⟨rfl, rfl⟩ := Prod.mk.inj (Option.some.inj read)
          exact ⟨rfl, by simp [endsValue, comment.1]⟩
        · exact onward false read

/-- The slices of a value are those of its text. -/
theorem parseValue_slices {line : Nat} {value : ParsedValue}
    (read : parseValue text line = .ok value) :
    text = value.leading ++ value.source ++ value.trailing ∧
      (∀ symbol ∈ value.leading, isWhitespace symbol) ∧
      endsValue value.trailing := by
  have joined : text.takeWhile isWhitespace ++ skipWhitespace text = text :=
    takeWhile_append_dropWhile
  have spaces : ∀ symbol ∈ text.takeWhile isWhitespace, isWhitespace symbol :=
    fun symbol member => mem_takeWhile_imp member
  unfold parseValue at read
  cases left : skipWhitespace text with
  | nil =>
    rw [left] at read joined
    obtain rfl := Except.ok.inj read
    exact ⟨by simpa using joined.symm, spaces, rfl⟩
  | cons opener content =>
    rw [left] at read joined
    simp only at read
    split at read
    · rename_i comment
      obtain rfl := Except.ok.inj read
      exact ⟨by simpa using joined.symm, spaces, by simp [endsValue, comment]⟩
    · split at read
      · split at read
        · cases read
        · rename_i inside after closed
          split at read
          · rename_i ends
            obtain rfl := Except.ok.inj read
            refine ⟨?_, spaces, ends⟩
            have rest : after.takeWhile isWhitespace ++ skipWhitespace after = after :=
              takeWhile_append_dropWhile
            rw [closeQuote_append closed] at joined
            simp only [append_assoc, cons_append, rest, joined]
          · cases read
      · split at read
        · cases read
        · rename_i source trailing found
          obtain rfl := Except.ok.inj read
          obtain ⟨cut, ends⟩ := unquotedValue_ends found
          exact ⟨by rw [append_assoc, ← cut, joined], spaces, ends⟩

def ParsedDefinition.entry (definition : ParsedDefinition) : List Char × List Char :=
  (definition.name, definition.value)

/-- The name and the value that a statement assigns, if any; none when it is malformed. -/
def assigns (statement : List Char) : Option (Option (List Char × List Char)) :=
  (parseStatement statement 0).toOption.map
    (Option.map fun assignment => (assignment.name, assignment.value.value))

def reading (text : List Char) : Option (List (List Char × List Char)) :=
  (parseStatements [] [] 1 (fun _ => 0) text).toOption.map (List.map ParsedDefinition.entry)

/-- The line of a statement is only named in errors. -/
theorem parseValue_line (text : List Char) (line other : Nat) :
    (parseValue text line).toOption = (parseValue text other).toOption := by
  unfold parseValue
  cases skipWhitespace text with
  | nil => rfl
  | cons opener content =>
    simp only
    split
    · rfl
    · split
      · split
        · rfl
        · split <;> rfl
      · split <;> rfl

theorem parseStatement_line (statement : List Char) (line other : Nat) :
    (parseStatement statement line).toOption = (parseStatement statement other).toOption := by
  unfold parseStatement
  split
  · rfl
  · simp only
    split
    · rename_i after _ _
      have values := parseValue_line after line other
      cases read : parseValue after line with
      | error error =>
        cases again : parseValue after other with
        | error error => rfl
        | ok value =>
          rw [read, again] at values
          cases values
      | ok value =>
        cases again : parseValue after other with
        | error error =>
          rw [read, again] at values
          cases values
        | ok value =>
          rw [read, again] at values
          obtain rfl := Option.some.inj values
          rfl
    · rfl

theorem reading_nil : reading [] = some [] := by
  rw [reading, parseStatements]
  rfl

theorem entries_cons (definition : ParsedDefinition)
    (rest : Except SourceAdapterError (List ParsedDefinition)) :
    ((rest.map (definition :: ·)).toOption.map (List.map entry))
      = (rest.toOption.map (List.map entry)).map (definition.entry :: ·) := by
  cases rest <;> rfl

section

variable (sourceBytes : List UInt8) (before : List Char) (line : Nat) (ordinals : List Char → Nat)

/-- The first statement of a text, and then the others. -/
theorem parseStatements_cons {text : List Char} {ending : StatementEnd} (nonempty : text ≠ [])
    (ended : statementEnd text = .ok ending) :
    parseStatements sourceBytes before line ordinals text
      = match parseStatement ending.statement line with
        | .error error => .error error
        | .ok none =>
          parseStatements sourceBytes (before ++ ending.statement ++ ending.lineBreak)
            (line + ending.lineBreak.count '\n') ordinals ending.next
        | .ok (some assignment) =>
          (parseStatements sourceBytes (before ++ ending.statement ++ ending.lineBreak)
            (line + ending.lineBreak.count '\n')
            (Function.update ordinals assignment.name (ordinals assignment.name + 1))
            ending.next).map
            (definitionOf sourceBytes before ending line (ordinals assignment.name) assignment
              :: ·) := by
  rw [parseStatements, dif_neg nonempty]
  split
  · rename_i error failed
    rw [ended] at failed
    cases failed
  · rename_i found same
    obtain rfl := Except.ok.inj (ended.symm.trans same)
    rfl

/-- A text that ends inside a quote is malformed. -/
theorem parseStatements_error {text : List Char} {error : SourceAdapterError} (nonempty : text ≠ [])
    (ended : statementEnd text = .error error) :
    parseStatements sourceBytes before line ordinals text = .error error := by
  rw [parseStatements, dif_neg nonempty]
  split
  · rename_i other failed
    rw [Except.error.inj (ended.symm.trans failed)]
  · rename_i found same
    rw [ended] at same
    cases same

/-- Names and values are read alike wherever a text stands. -/
theorem parseStatements_reading (text : List Char) :
    (parseStatements sourceBytes before line ordinals text).toOption.map
      (List.map entry) = reading text := by
  -- The lines, ordinals and positions of the two readings differ, so both are general.
  suffices alike : ∀ (length : Nat) (text : List Char), text.length = length →
      ∀ (bytes otherBytes : List UInt8) (before other : List Char) (line otherLine : Nat)
        (ordinals others : List Char → Nat),
        (parseStatements bytes before line ordinals text).toOption.map (List.map entry)
          = (parseStatements otherBytes other otherLine others text).toOption.map
            (List.map entry) from
    alike text.length text rfl _ _ _ _ _ _ _ _
  intro length
  induction length using Nat.strong_induction_on with
  | _ length ih =>
    intro text sized bytes otherBytes before other line otherLine ordinals others
    by_cases empty : text = []
    · subst empty
      rw [parseStatements, parseStatements]
      rfl
    · cases ended : statementEnd text with
      | error error =>
        rw [parseStatements_error _ _ _ _ empty ended, parseStatements_error _ _ _ _ empty ended]
      | ok ending =>
        have shorter := statementEnd_lt empty ended
        have rest := ih ending.next.length (by omega) ending.next rfl bytes otherBytes
        rw [parseStatements_cons _ _ _ _ empty ended, parseStatements_cons _ _ _ _ empty ended]
        have statements := parseStatement_line ending.statement line otherLine
        cases here : parseStatement ending.statement line with
        | error error =>
          cases there : parseStatement ending.statement otherLine with
          | error error => rfl
          | ok found =>
            rw [here, there] at statements
            cases statements
        | ok found =>
          cases there : parseStatement ending.statement otherLine with
          | error error =>
            rw [here, there] at statements
            cases statements
          | ok again =>
            rw [here, there] at statements
            obtain rfl := Option.some.inj statements
            cases found with
            | none => exact rest _ _ _ _ _ _
            | some assignment =>
              have later := rest (before ++ ending.statement ++ ending.lineBreak)
                (other ++ ending.statement ++ ending.lineBreak)
                (line + ending.lineBreak.count '\n') (otherLine + ending.lineBreak.count '\n')
                (Function.update ordinals assignment.name (ordinals assignment.name + 1))
                (Function.update others assignment.name (others assignment.name + 1))
              rw [entries_cons, entries_cons, later]
              rfl

omit before line ordinals in
/-- What holds of an empty text, and of a text when it holds of the text after its first
statement, holds of every text that is read. -/
theorem parseStatements_induction
    {motive : List Char → Nat → (List Char → Nat) → List Char → List ParsedDefinition → Prop}
    (nil : ∀ before line ordinals, motive before line ordinals [] [])
    (blank : ∀ {before line ordinals text ending definitions}, text ≠ [] →
      statementEnd text = .ok ending → parseStatement ending.statement line = .ok none →
      motive (before ++ ending.statement ++ ending.lineBreak)
        (line + ending.lineBreak.count '\n') ordinals ending.next definitions →
      motive before line ordinals text definitions)
    (assign : ∀ {before line ordinals text ending assignment definitions}, text ≠ [] →
      statementEnd text = .ok ending →
      parseStatement ending.statement line = .ok (some assignment) →
      motive (before ++ ending.statement ++ ending.lineBreak)
        (line + ending.lineBreak.count '\n')
        (Function.update ordinals assignment.name (ordinals assignment.name + 1)) ending.next
        definitions →
      motive before line ordinals text
        (definitionOf sourceBytes before ending line (ordinals assignment.name) assignment
          :: definitions))
    {before : List Char} {line : Nat} {ordinals : List Char → Nat} {text : List Char}
    {definitions : List ParsedDefinition}
    (parsed : parseStatements sourceBytes before line ordinals text = .ok definitions) :
    motive before line ordinals text definitions := by
  -- Each statement leaves less of the text.
  induction sized : text.length using Nat.strong_induction_on
    generalizing before line ordinals text definitions with
  | _ length ih =>
    by_cases empty : text = []
    · subst empty
      rw [parseStatements] at parsed
      obtain rfl := Except.ok.inj parsed
      exact nil before line ordinals
    · cases ended : statementEnd text with
      | error error =>
        rw [parseStatements_error _ _ _ _ empty ended] at parsed
        cases parsed
      | ok ending =>
        have shorter := statementEnd_lt empty ended
        rw [parseStatements_cons _ _ _ _ empty ended] at parsed
        cases read : parseStatement ending.statement line with
        | error error =>
          rw [read] at parsed
          cases parsed
        | ok found =>
          rw [read] at parsed
          cases found with
          | none => exact blank empty ended read (ih ending.next.length (by omega) parsed rfl)
          | some assignment =>
            obtain ⟨others, parsedLater, rfl⟩ := Fallible.map_ok parsed
            exact assign empty ended read (ih ending.next.length (by omega) parsedLater rfl)

omit before line ordinals in
/-- What holds of the definition of every assignment holds of every definition that is read. -/
theorem parseStatements_forall {holds : ParsedDefinition → Prop}
    (each : ∀ before ending line ordinal assignment,
      parseStatement ending.statement line = .ok (some assignment) →
      holds (definitionOf sourceBytes before ending line ordinal assignment))
    {before : List Char} {line : Nat} {ordinals : List Char → Nat} {text : List Char}
    {definitions : List ParsedDefinition}
    (parsed : parseStatements sourceBytes before line ordinals text = .ok definitions) :
    ∀ definition ∈ definitions, holds definition := by
  refine parseStatements_induction sourceBytes (motive := fun _ _ _ _ definitions =>
    ∀ definition ∈ definitions, holds definition) nofun (fun _ _ _ later => later) ?_ parsed
  intro before line ordinals text ending assignment definitions _ _ read later
  exact List.forall_mem_cons.mpr ⟨each before ending line _ assignment read, later⟩

end

/-- A text is read statement by statement. -/
theorem reading_cons {ending : StatementEnd} (nonempty : text ≠ [])
    (ended : statementEnd text = .ok ending) :
    reading text = (assigns ending.statement).bind fun found =>
      (reading ending.next).map (found.toList ++ ·) := by
  rw [reading, parseStatements_cons _ _ _ _ nonempty ended, assigns,
    ← parseStatement_line ending.statement 1 0]
  cases parseStatement ending.statement 1 with
  | error error => rfl
  | ok found =>
    cases found with
    | none =>
      simp only [parseStatements_reading]
      cases reading ending.next <;> rfl
    | some assignment =>
      simp only [entries_cons, parseStatements_reading]
      cases reading ending.next <;> rfl

theorem reading_newline (text : List Char) : reading ('\n' :: text) = reading text := by
  have ended : statementEnd ('\n' :: text) = .ok ⟨[], ['\n'], text⟩ := by
    rfl
  rw [reading_cons (cons_ne_nil _ _) ended]
  cases found : reading text with
  | none => rfl
  | some entries => simp [assigns, parseStatement]; rfl

/-- A line break between a statement and the text after it, or none at the end. -/
def Breaks (lineBreak next : List Char) : Prop :=
  lineBreak = ['\n'] ∨ lineBreak = ['\r', '\n'] ∨ lineBreak = ['\r'] ∨
    (lineBreak = [] ∧ next = [])

theorem takeLineBreak_breaks (stops : Stops text) :
    Breaks (takeLineBreak text).1 (takeLineBreak text).2 := by
  cases text with
  | nil => exact .inr (.inr (.inr ⟨rfl, rfl⟩))
  | cons symbol text =>
    have isBreak : symbol = '\n' ∨ symbol = '\r' := by simpa [Stops, isLineBreak] using stops
    rcases isBreak with rfl | rfl
    · exact .inl rfl
    · cases text with
      | nil => exact .inr (.inr (.inl rfl))
      | cons next text =>
        by_cases newline : next = '\n'
        · subst newline
          exact .inr (.inl rfl)
        · exact .inr (.inr (.inl (by simp [takeLineBreak, newline])))

theorem Breaks.stops {lineBreak next : List Char} (breaks : Breaks lineBreak next)
    (text : List Char) (ended : next = [] → text = []) : Stops (lineBreak ++ text) := by
  rcases breaks with rfl | rfl | rfl | ⟨rfl, empty⟩
  · rfl
  · rfl
  · rfl
  · rw [ended empty]
    rfl

/-- A text goes on after a line break as it would alone, though a line break may grow by a
newline that comes to stand after it. -/
theorem reading_takeLineBreak {lineBreak next : List Char} (breaks : Breaks lineBreak next) :
    reading (takeLineBreak (lineBreak ++ next)).2 = reading next := by
  rcases breaks with rfl | rfl | rfl | ⟨rfl, rfl⟩
  · rfl
  · rfl
  · cases next with
    | nil => rfl
    | cons symbol next =>
      by_cases newline : symbol = '\n'
      · subst newline
        exact (reading_newline next).symm
      · have alone : takeLineBreak (['\r'] ++ symbol :: next) = (['\r'], symbol :: next) := by
          simp [takeLineBreak, newline]
        rw [alone]
  · rfl

/-- A statement that a scan ends with is read, and then what is after its line break. -/
theorem reading_append {lineBreak next : List Char}
    (scanned : scanStatement none false (statement ++ (lineBreak ++ next))
      = .ok (statement, lineBreak ++ next)) (breaks : Breaks lineBreak next) :
    reading (statement ++ (lineBreak ++ next))
      = (assigns statement).bind fun found => (reading next).map (found.toList ++ ·) := by
  by_cases empty : statement ++ (lineBreak ++ next) = []
  · obtain ⟨rfl, others⟩ := List.append_eq_nil_iff.mp empty
    obtain ⟨rfl, rfl⟩ := List.append_eq_nil_iff.mp others
    simp only [append_nil, reading_nil]
    rfl
  · have ended : statementEnd (statement ++ (lineBreak ++ next))
        = .ok ⟨statement, (takeLineBreak (lineBreak ++ next)).1,
          (takeLineBreak (lineBreak ++ next)).2⟩ := by
      rw [statementEnd, scanned]
      rfl
    rw [reading_cons empty ended]
    simp only [reading_takeLineBreak breaks]

/-- Whitespace before a statement decides nothing. -/
theorem assigns_space {symbol : Char} (space : isWhitespace symbol) (statement : List Char) :
    assigns (symbol :: statement) = assigns statement := by
  have skipped : skipWhitespace (symbol :: statement) = skipWhitespace statement := by
    simp [skipWhitespace, space]
  have opening : statementOpening (symbol :: statement) = symbol :: statementOpening statement := by
    simp [statementOpening, skipped, space]
  unfold assigns parseStatement
  simp only [skipped, opening, List.length_cons, List.drop_succ_cons]
  split
  · rfl
  · split
    · rename_i after _ _
      cases parseValue after 0 <;> rfl
    · rfl

/-- A byte order mark at the front of a text decides nothing. -/
theorem reading_dropByteOrderMark (text : List Char) :
    reading (dropByteOrderMark text) = reading text := by
  have unmarked : dropByteOrderMark text = text ∨ ∃ rest, text = '\uFEFF' :: rest := by
    cases text with
    | nil => exact .inl rfl
    | cons symbol text =>
      by_cases mark : symbol = '\uFEFF'
      · exact .inr ⟨text, by rw [mark]⟩
      · exact .inl (by simp [dropByteOrderMark, mark])
  rcases unmarked with same | ⟨text, rfl⟩
  · rw [same]
  · show reading text = reading ('\uFEFF' :: text)
    have passive := passive_of_isWhitespace (show isWhitespace '\uFEFF' = true by decide)
    have scanned := scanStatement_passive passive (by decide) text
    have ends : statementEnd ('\uFEFF' :: text) = (statementEnd text).map fun ending =>
        { ending with statement := '\uFEFF' :: ending.statement } := by
      rw [statementEnd, statementEnd, scanned]
      cases scanStatement none false text <;> rfl
    have space : isWhitespace '\uFEFF' := by decide
    cases ended : statementEnd text with
    | error error =>
      rw [ended] at ends
      have nonempty : text ≠ [] := by
        rintro rfl
        cases ended
      rw [reading, reading, parseStatements_error _ _ _ _ nonempty ended,
        parseStatements_error _ _ _ _ (cons_ne_nil _ _) ends]
    | ok ending =>
      rw [ended] at ends
      rw [reading_cons (cons_ne_nil _ _) ends]
      simp only [assigns_space space]
      by_cases empty : text = []
      · subst empty
        obtain rfl := Except.ok.inj ended
        simp [takeLineBreak, reading_nil]
        rfl
      · rw [reading_cons empty ended]

/-- How a value is written: between quotes, not at all, or as it is. -/
theorem encodedText_cases (original value : List Char) :
    (∃ quote, encodedText original value = quotedValue quote value) ∨
      (value = [] ∧ encodedText original value = []) ∨
      (original.head?.bind Quote.of = none ∧ isPlain value ∧
        encodedText original value = value) := by
  unfold encodedText
  split
  · rename_i quote opens
    exact .inl ⟨quote, rfl⟩
  · rename_i unquoted
    split
    · rename_i empty
      exact .inr (.inl ⟨List.isEmpty_iff.mp empty, rfl⟩)
    · split
      · rename_i plain
        exact .inr (.inr ⟨unquoted, plain, rfl⟩)
      · exact .inl ⟨.double, rfl⟩

def Unquoted (original value : List Char) : Prop :=
  original.head?.bind Quote.of = none ∧ isPlain value = true

/-- A written value is read back unless it stands without quotes before a comment. -/
theorem parseValue_encodedText {leading trailing : List Char}
    (spaces : ∀ symbol ∈ leading, isWhitespace symbol) (ends : endsValue trailing)
    (original value : List Char) (line : Nat) :
    (parseValue (leading ++ encodedText original value ++ trailing) line).map (·.value) = .ok value ↔
      (Unquoted original value → trailing = []) := by
  rcases encodedText_cases original value with ⟨quote, written⟩ | ⟨rfl, written⟩ |
    ⟨unquoted, plain, written⟩
  · have readBack := parseValue_quotedValue spaces quote value ends line
    rw [written]
    refine ⟨fun _ ⟨unquoted, plain⟩ => ?_, fun _ => readBack⟩
    -- A value that is written without quotes is not written with them.
    have asItIs : encodedText original value = value := by
      have nonempty : value.isEmpty = false := by
        simpa using (isPlain_symbols plain).1
      simp [encodedText, unquoted, nonempty, plain]
    have member : quote.symbol ∈ value := by
      rw [← asItIs, written]
      exact .head _
    have noQuote := ((isPlain_symbols plain).2 _ member).2.2.2
    rw [quote.of_symbol] at noQuote
    cases noQuote
  · rw [written, append_nil]
    exact ⟨fun _ alone => absurd alone.2 (by decide), fun _ => parseValue_empty spaces ends line⟩
  · rw [written]
    cases trailing with
    | nil =>
      rw [append_nil]
      exact ⟨fun _ _ => rfl, fun _ => parseValue_plain_end spaces plain line⟩
    | cons symbol trailing =>
      obtain rfl : symbol = '#' := by simpa [endsValue] using ends
      have swallowed := parseValue_plain_comment spaces plain trailing line
      exact ⟨fun readBack => absurd readBack swallowed,
        fun alone => absurd (alone ⟨unquoted, plain⟩) (cons_ne_nil _ _)⟩

/-- A scan outside quotes passes a written value. -/
theorem scanStatement_encodedText (original value text : List Char) :
    scanStatement none false (encodedText original value ++ text)
      = (scanStatement none false text).map (appendFirst (encodedText original value)) := by
  rcases encodedText_cases original value with ⟨quote, written⟩ | ⟨rfl, written⟩ |
    ⟨unquoted, plain, written⟩
  · rw [written, scanStatement_quotedValue]
  · rw [written]
    cases scanned : scanStatement none false text <;> simp [scanned, appendFirst, Except.map]
  · have symbols := (isPlain_symbols plain).2
    rw [written, scanStatement_pass]
    · intro symbol member
      obtain ⟨noSpace, noComment, noEscape, noQuote⟩ := symbols symbol member
      exact ⟨noEscape, noQuote, noComment⟩
    · intro symbol member
      cases broken : isLineBreak symbol with
      | false => rfl
      | true =>
        have isBreak : symbol = '\n' ∨ symbol = '\r' := by simpa [isLineBreak] using broken
        have noSpace := (symbols symbol member).1
        rcases isBreak with rfl | rfl
        · exact absurd noSpace (by decide)
        · exact absurd noSpace (by decide)

section

variable {statement : List Char} {line : Nat} {assignment : Assignment}

theorem head_written (value trailing : List Char) : assignment.head ++ value ++ trailing =
    assignment.assigning (assignment.value.leading ++ value ++ trailing) := by
  rw [assigning, head]
  simp only [append_assoc, cons_append]

variable (parsed : parseStatement statement line = .ok (some assignment))
include parsed

theorem statement_slices : statement
    = assignment.head ++ assignment.value.source ++ assignment.value.trailing := by
  obtain ⟨text, whole, read, again⟩ := parseStatement_assigning parsed
  rw [whole, (parseValue_slices read).1, assigning, head]
  simp only [append_assoc, cons_append]

/-- A statement with a written value assigns something or is malformed. -/
theorem assigns_written_ne (value trailing : List Char) :
    assigns (assignment.head ++ encodedText assignment.value.source value ++ trailing)
      ≠ some none := by
  obtain ⟨text, whole, read, again⟩ := parseStatement_assigning parsed
  rw [assigns, head_written, again]
  cases parseValue (assignment.value.leading ++ encodedText assignment.value.source value ++
    trailing) 0 with
  | error error => simp [Except.map, Except.toOption]
  | ok read => simp [Except.map, Except.toOption]

/-- Whether a statement with a written value assigns the value. -/
theorem assigns_written {trailing : List Char} (ends : endsValue trailing) (value : List Char) :
    assigns (assignment.head ++ encodedText assignment.value.source value ++ trailing)
        = some (some (assignment.name, value)) ↔
      (Unquoted assignment.value.source value → trailing = []) := by
  obtain ⟨text, whole, read, again⟩ := parseStatement_assigning parsed
  have spaces := (parseValue_slices read).2.1
  rw [← parseValue_encodedText spaces ends assignment.value.source value 0, assigns, head_written,
    again]
  cases found : parseValue (assignment.value.leading ++
      encodedText assignment.value.source value ++ trailing) 0 with
  | error error => simp [Except.map, Except.toOption]
  | ok read => simp [Except.map, Except.toOption]

/-- A scan passes a statement with a written value up to the end of the comment after it. -/
theorem scanStatement_written {rest : List Char}
    (scanned : scanStatement none false (statement ++ rest) = .ok (statement, rest))
    {comment text : List Char} (ends : endsValue comment)
    (unbroken : ∀ symbol ∈ comment, isLineBreak symbol = false) (stops : Stops text)
    (value : List Char) :
    scanStatement none false
        (assignment.head ++ encodedText assignment.value.source value ++ comment ++ text)
      = .ok (assignment.head ++ encodedText assignment.value.source value ++ comment, text) := by
  obtain ⟨after, whole, read, again⟩ := parseStatement_assigning parsed
  have spaces := (parseValue_slices read).2.1
  have passive : ∀ symbol ∈ assignment.head, Passive symbol := by
    intro symbol member
    rcases mem_append.mp member with heading | value
    · exact parseStatement_passive parsed symbol heading
    · cases value with
      | head => exact ⟨by decide, by decide, by decide⟩
      | tail _ space => exact passive_of_isWhitespace (spaces symbol space)
  have headUnbroken : ∀ symbol ∈ assignment.head, isLineBreak symbol = false := by
    have slices := statement_slices parsed
    rw [slices] at scanned
    simp only [append_assoc] at scanned
    exact unbroken_of_scan passive scanned
  have commented : scanStatement none false (comment ++ text) = .ok (comment, text) := by
    cases comment with
    | nil => exact scanStatement_stops stops
    | cons symbol comment =>
      obtain rfl : symbol = '#' := by simpa [endsValue] using ends
      exact scanStatement_comment unbroken stops rfl
  rw [append_assoc, append_assoc, scanStatement_pass passive headUnbroken,
    scanStatement_encodedText, commented]
  simp [Except.map, appendFirst]

end

end NancyMan.Agent
