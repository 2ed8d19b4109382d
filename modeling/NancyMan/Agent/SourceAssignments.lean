import Mathlib.Data.List.Sort
import Mathlib.Data.List.TakeDrop
import NancyMan.Lib.Base64Url
import NancyMan.Lib.Fallible
import NancyMan.Lib.Js
import NancyMan.Lib.Splice
import NancyMan.Lib.Utf8

/-!
# Assignments of a text source

`parseTextAssignments` reads the definitions of an environment file with the byte ranges they
stand in, and `serializeUpdatedSource` writes the file again with some of those ranges replaced.
Where the program keeps positions in a text, the functions here keep the slices that the
positions cut it into; a byte offset is the byte length of the slices before it.
-/
namespace NancyMan.Agent

inductive SourceAdapterId where
  | nodeEnvFile
  | systemdEnvironmentFile
  | systemdCredentialFile
  | dotenv
  | pm2EcosystemStatic
deriving DecidableEq

/-- The adapters whose sources are assignments in a text. -/
inductive TextAdapterId where
  | nodeEnvFile
  | systemdEnvironmentFile
  | dotenv

def TextAdapterId.adapter : TextAdapterId → SourceAdapterId
  | nodeEnvFile => .nodeEnvFile
  | systemdEnvironmentFile => .systemdEnvironmentFile
  | dotenv => .dotenv

inductive SourceAdapterErrorCode where
  | sourceTooLarge
  | sourceNulByte
  | sourceUnsupportedEncoding
  | sourceMalformed
  | credentialEncodingRequired
  | pm2StaticExpressionRejected
deriving DecidableEq

structure SourceAdapterError where
  code : SourceAdapterErrorCode
  line : Option Nat
deriving DecidableEq

def sourceError (code : SourceAdapterErrorCode) : SourceAdapterError := ⟨code, none⟩

def malformedAt (line : Nat) : SourceAdapterError := ⟨.sourceMalformed, some line⟩

inductive SourceTokenKind where
  | name
  | assignment
  | value
  | literal
deriving DecidableEq

structure SourceToken where
  kind : SourceTokenKind
  byteStart : Nat
  byteEnd : Nat
  text : List Char
deriving DecidableEq

structure ParsedDefinition where
  name : List Char
  value : List Char
  valueBytes : List UInt8
  duplicateOrdinal : Nat
  byteStart : Nat
  byteEnd : Nat
  rawBytes : List UInt8
  tokens : List SourceToken
  line : Nat
deriving DecidableEq

structure ParsedSource where
  adapterId : SourceAdapterId
  bytes : List UInt8
  definitions : List ParsedDefinition
  unchanged : Bool
deriving DecidableEq

structure ParseOptions where
  maximumBytes : Option Int

inductive WriteOperation where
  | set
  | delete
deriving DecidableEq

inductive Requirement where
  | required
  | optional
deriving DecidableEq

inductive ValueEncoding where
  | text
  | base64
deriving DecidableEq

structure SourceWriteOperation where
  name : List Char
  duplicateOrdinal : Nat
  operation : WriteOperation
  requirement : Requirement
  value : Option (List Char)
  valueEncoding : Option ValueEncoding

def defaultMaximumBytes : Int := 1048576

/-- `Number.MAX_SAFE_INTEGER`. -/
def maximumSafeInteger : Int := 9007199254740991

variable (bytes : List UInt8)

def assertTextBytes (maximumBytes : Int) : Except SourceAdapterError (List UInt8) :=
  if maximumBytes ≤ 0 ∨ maximumSafeInteger < maximumBytes then .error (sourceError .sourceTooLarge)
  else if maximumBytes < bytes.length then .error (sourceError .sourceTooLarge)
  else if 0 ∈ bytes then .error (sourceError .sourceNulByte)
  else if (Utf8.decode bytes).isNone then .error (sourceError .sourceUnsupportedEncoding)
  else .ok bytes

/-- The text after a byte order mark, which a decoder drops from the front. -/
def dropByteOrderMark : List Char → List Char
  | '\uFEFF' :: text => text
  | text => text

def decodeUtf8 : Except SourceAdapterError (List Char) :=
  match Utf8.decode bytes with
  | some text => .ok (dropByteOrderMark text)
  | none => .error (sourceError .sourceUnsupportedEncoding)

inductive Quote where
  | single
  | double
deriving DecidableEq

def Quote.symbol : Quote → Char
  | single => '\''
  | double => '"'

/-- The quote that a symbol opens. -/
def Quote.of (symbol : Char) : Option Quote :=
  if symbol = '\'' then some .single
  else if symbol = '"' then some .double
  else none

/-- What an escaped symbol stands for. -/
def unescaped (quote : Option Quote) (escaped : Char) : Char :=
  if quote = some .double then
    if escaped = 'n' then '\n'
    else if escaped = 'r' then '\r'
    else if escaped = 't' then '\t'
    else escaped
  else escaped

def decodeEscapes (quote : Option Quote) : List Char → List Char
  | '\\' :: escaped :: text => unescaped quote escaped :: decodeEscapes quote text
  | symbol :: text => symbol :: decodeEscapes quote text
  | [] => []

def isLineBreak (symbol : Char) : Bool := symbol = '\n' || symbol = '\r'

def consFirst (symbol : Char) (slices : List Char × List Char) : List Char × List Char :=
  (symbol :: slices.1, slices.2)

/-- The loop of `statementEnd`: the statement a text begins with, and the text from its line
break on. -/
def scanStatement (quote : Option Quote) (escaped : Bool) :
    List Char → Except SourceAdapterError (List Char × List Char)
  | [] => if quote.isSome then .error (sourceError .sourceMalformed) else .ok ([], [])
  | symbol :: text =>
    if escaped then (scanStatement quote false text).map (consFirst symbol)
    else if symbol = '\\' then (scanStatement quote true text).map (consFirst symbol)
    else
      match quote with
      | some opened =>
        let quote := if symbol = opened.symbol then none else some opened
        (scanStatement quote false text).map (consFirst symbol)
      | none =>
        if (Quote.of symbol).isSome then
          (scanStatement (Quote.of symbol) false text).map (consFirst symbol)
        else if symbol = '#' then .ok ((symbol :: text).span fun symbol => !isLineBreak symbol)
        else if isLineBreak symbol then .ok ([], symbol :: text)
        else (scanStatement none false text).map (consFirst symbol)

/-- The line break a text begins with, and the text after it. -/
def takeLineBreak : List Char → List Char × List Char
  | '\r' :: '\n' :: text => (['\r', '\n'], text)
  | '\r' :: text => (['\r'], text)
  | '\n' :: text => (['\n'], text)
  | text => ([], text)

/-- The slices of a text at the end of its first statement: the statement, its line break and
the text after. -/
structure StatementEnd where
  statement : List Char
  lineBreak : List Char
  next : List Char

def statementEnd (text : List Char) : Except SourceAdapterError StatementEnd :=
  (scanStatement none false text).map fun (statement, rest) =>
    ⟨statement, (takeLineBreak rest).1, (takeLineBreak rest).2⟩

def skipWhitespace (text : List Char) : List Char := text.dropWhile isWhitespace

/-- `text.trimEnd()`. -/
def trimEnd (text : List Char) : List Char := (text.reverse.dropWhile isWhitespace).reverse

/-- The value of a definition and the slices of the text it was read from: the whitespace before
`valueStart`, the text up to `valueEnd`, and the rest of the statement. -/
structure ParsedValue where
  value : List Char
  leading : List Char
  source : List Char
  trailing : List Char
  quote : Option Quote

/-- The text inside a quote, and the text after the symbol that closes it. -/
def closeQuote (opener : Char) (escaped : Bool) : List Char → Option (List Char × List Char)
  | [] => none
  | symbol :: text =>
    if escaped then (closeQuote opener false text).map (consFirst symbol)
    else if symbol = '\\' then (closeQuote opener true text).map (consFirst symbol)
    else if symbol = opener then some ([], text)
    else (closeQuote opener false text).map (consFirst symbol)

/-- An unquoted value up to the comment after it, and the rest; none when an escape is left open. -/
def unquotedValue (previous : Option Char) (escaped : Bool) :
    List Char → Option (List Char × List Char)
  | [] => if escaped then none else some ([], [])
  | symbol :: text =>
    if escaped then (unquotedValue (some symbol) false text).map (consFirst symbol)
    else if symbol = '\\' then (unquotedValue (some symbol) true text).map (consFirst symbol)
    else if symbol = '#' ∧ previous.all isWhitespace then some ([], symbol :: text)
    else (unquotedValue (some symbol) false text).map (consFirst symbol)

def endsValue (text : List Char) : Bool := text.head?.all (· = '#')

def parseValue (text : List Char) (line : Nat) : Except SourceAdapterError ParsedValue :=
  let leading := text.takeWhile isWhitespace
  match skipWhitespace text with
  | [] => .ok ⟨[], leading, [], [], none⟩
  | opener :: content =>
    if opener = '#' then .ok ⟨[], leading, [], opener :: content, none⟩
    else
      match Quote.of opener with
      | some quote =>
        match closeQuote opener false content with
        | none => .error (malformedAt line)
        | some (inside, after) =>
          if endsValue (skipWhitespace after) then
            .ok ⟨decodeEscapes (some quote) inside, leading,
              opener :: inside ++ opener :: after.takeWhile isWhitespace, skipWhitespace after,
              some quote⟩
          else .error (malformedAt line)
      | none =>
        match unquotedValue none false (opener :: content) with
        | none => .error (malformedAt line)
        | some (source, trailing) =>
          .ok ⟨trimEnd (decodeEscapes none source), leading, source, trailing, none⟩

def isNameStart (symbol : Char) : Bool := symbol.isAlpha || symbol = '_'

def isNameSymbol (symbol : Char) : Bool := symbol.isAlphanum || symbol = '_'

/-- The match of `/^[A-Za-z_][A-Za-z0-9_]*/`, which is empty where there is none. -/
def matchName : List Char → List Char
  | [] => []
  | symbol :: text =>
    if isNameStart symbol then symbol :: text.takeWhile isNameSymbol else []

/-- Whether a text begins with the word `export` and whitespace. -/
def startsWithExport (text : List Char) : Bool :=
  text.take 6 = ['e', 'x', 'p', 'o', 'r', 't'] && (text[6]?).any isWhitespace

/-- What stands before the name of a statement. -/
def statementOpening (statement : List Char) : List Char :=
  let text := skipWhitespace statement
  statement.takeWhile isWhitespace ++
    if startsWithExport text then text.take 6 ++ (text.drop 6).takeWhile isWhitespace else []

/-- A statement that assigns: the slices before its name, up to its `=`, and its value. -/
structure Assignment where
  opening : List Char
  name : List Char
  spacing : List Char
  value : ParsedValue

def Assignment.head (assignment : Assignment) : List Char :=
  assignment.opening ++ assignment.name ++ assignment.spacing ++ '=' :: assignment.value.leading

/-- What the loop of `parseTextAssignments` reads of one statement; a blank statement and a
comment assign nothing. -/
def parseStatement (statement : List Char) (line : Nat) :
    Except SourceAdapterError (Option Assignment) :=
  if endsValue (skipWhitespace statement) then .ok none
  else
    let opening := statementOpening statement
    let text := statement.drop opening.length
    let name := matchName text
    -- What ends the statement is a line break or the end of the text, so a name or an `export`
    -- at its end is malformed either way.
    let after := text.drop name.length
    match name, skipWhitespace after with
    | _ :: _, '=' :: text =>
      (parseValue text line).map fun value =>
        some ⟨opening, name, after.takeWhile isWhitespace, value⟩
    | _, _ => .error (malformedAt line)

/-- `byteOffset`, of a text up to an offset. -/
def byteOffset (text : List Char) : Nat := Utf8.byteLength text

/-- `token`, of the text before it and its own. -/
def sourceToken (kind : SourceTokenKind) (before text : List Char) : SourceToken :=
  ⟨kind, byteOffset before, byteOffset (before ++ text), text⟩

/-- The definition of an assignment that stands in a source after the text before it. -/
def definitionOf (sourceBytes : List UInt8) (before : List Char) (statementEnd : StatementEnd)
    (line duplicateOrdinal : Nat) (assignment : Assignment) : ParsedDefinition :=
  let byteStart := byteOffset before
  let byteEnd := byteOffset (before ++ statementEnd.statement ++ statementEnd.lineBreak)
  let beforeName := before ++ assignment.opening
  let beforeSign := beforeName ++ assignment.name ++ assignment.spacing
  { name := assignment.name
    value := assignment.value.value
    valueBytes := Utf8.bytes assignment.value.value
    duplicateOrdinal
    byteStart
    byteEnd
    rawBytes := (sourceBytes.take byteEnd).drop byteStart
    tokens :=
      [sourceToken .name beforeName assignment.name, sourceToken .assignment beforeSign ['='],
        sourceToken .value (before ++ assignment.head) assignment.value.source]
    line }

@[simp] theorem consFirst_append (symbol : Char) (slices : List Char × List Char) :
    (consFirst symbol slices).1 ++ (consFirst symbol slices).2 = symbol :: (slices.1 ++ slices.2) :=
  rfl

/-- A scan that goes on past a symbol is in the state that the symbol leads to. -/
def scanStep (quote : Option Quote) (escaped : Bool) (symbol : Char) : Option Quote × Bool :=
  if escaped then (quote, false)
  else if symbol = '\\' then (quote, true)
  else
    match quote with
    | some opened => (if symbol = opened.symbol then none else some opened, false)
    | none => (Quote.of symbol, false)

/-- A scan ends before a comment or a line break outside quotes, and goes on otherwise. -/
theorem scanStatement_cons (quote : Option Quote) (escaped : Bool) (symbol : Char)
    (text : List Char) :
    scanStatement quote escaped (symbol :: text)
      = if quote = none ∧ escaped = false ∧ symbol = '#' then
          .ok ((symbol :: text).span fun symbol => !isLineBreak symbol)
        else if quote = none ∧ escaped = false ∧ isLineBreak symbol then .ok ([], symbol :: text)
        else
          (scanStatement (scanStep quote escaped symbol).1 (scanStep quote escaped symbol).2
            text).map (consFirst symbol) := by
  cases escaped with
  | true => simp [scanStatement, scanStep]
  | false =>
    by_cases slash : symbol = '\\'
    · subst slash
      simp [scanStatement, scanStep, isLineBreak]
    · cases quote with
      | some opened => simp [scanStatement, scanStep, slash]
      | none =>
        by_cases opens : (Quote.of symbol).isSome
        · have opener : symbol = '\'' ∨ symbol = '"' := by
            unfold Quote.of at opens
            split at opens
            · exact .inl ‹_›
            · split at opens
              · exact .inr ‹_›
              · cases opens
          rcases opener with rfl | rfl
          · simp [scanStatement, scanStep, isLineBreak, Quote.of]
          · simp [scanStatement, scanStep, isLineBreak, Quote.of]
        · have closed : Quote.of symbol = none := Option.not_isSome_iff_eq_none.mp opens
          simp [scanStatement, scanStep, slash, closed]

variable {text : List Char} {ending : StatementEnd}

/-- A scan cuts a text where it ends or before a line break. -/
theorem scanStatement_ok {quote : Option Quote} {escaped : Bool} {slices : List Char × List Char}
    (scanned : scanStatement quote escaped text = .ok slices) :
    slices.1 ++ slices.2 = text ∧ slices.2.head?.all isLineBreak := by
  induction text generalizing quote escaped slices with
  | nil =>
    cases quote with
    | none =>
      obtain rfl := Except.ok.inj scanned
      exact ⟨rfl, rfl⟩
    | some opened => cases scanned
  | cons symbol text ih =>
    rw [scanStatement_cons] at scanned
    split at scanned
    · obtain rfl := Except.ok.inj scanned
      rw [List.span_eq_takeWhile_dropWhile]
      refine ⟨List.takeWhile_append_dropWhile, ?_⟩
      cases left : (symbol :: text).dropWhile fun symbol => !isLineBreak symbol with
      | nil => rfl
      | cons first rest =>
        have stops := List.head_dropWhile_not (fun symbol => !isLineBreak symbol)
          (l := symbol :: text) (by rw [left]; exact List.cons_ne_nil _ _)
        simpa [left] using stops
    · split at scanned
      · obtain rfl := Except.ok.inj scanned
        rename_i stop
        exact ⟨rfl, by simpa using stop.2.2⟩
      · obtain ⟨rest, scannedRest, rfl⟩ := Fallible.map_ok scanned
        obtain ⟨joined, stops⟩ := ih scannedRest
        exact ⟨by rw [consFirst_append, joined], stops⟩

theorem takeLineBreak_append (text : List Char) :
    (takeLineBreak text).1 ++ (takeLineBreak text).2 = text := by
  fun_cases takeLineBreak text <;> rfl

/-- The slices at the end of a statement are those of the text. -/
theorem statementEnd_append (ended : statementEnd text = .ok ending) :
    ending.statement ++ ending.lineBreak ++ ending.next = text := by
  cases scanned : scanStatement none false text with
  | error error =>
    rw [statementEnd, scanned] at ended
    cases ended
  | ok slices =>
    rw [statementEnd, scanned] at ended
    obtain rfl := Except.ok.inj ended
    have joined := (scanStatement_ok scanned).1
    simp [takeLineBreak_append, joined]

/-- A statement takes something of a text that has something. -/
theorem statementEnd_lt (nonempty : text ≠ []) (ended : statementEnd text = .ok ending) :
    ending.next.length < text.length := by
  cases scanned : scanStatement none false text with
  | error error =>
    rw [statementEnd, scanned] at ended
    cases ended
  | ok slices =>
    obtain ⟨statement, rest⟩ := slices
    rw [statementEnd, scanned] at ended
    obtain rfl := Except.ok.inj ended
    obtain ⟨joined, stops⟩ := scanStatement_ok scanned
    have lengths := congrArg List.length joined
    have broken := congrArg List.length (takeLineBreak_append rest)
    simp only [List.length_append] at lengths broken
    cases statement with
    | cons symbol statement =>
      rw [List.length_cons] at lengths
      show (takeLineBreak rest).2.length < text.length
      omega
    | nil =>
      -- An empty statement was cut off before a line break.
      have something : 0 < (takeLineBreak rest).1.length := by
        cases rest with
        | nil => exact absurd joined.symm nonempty
        | cons symbol rest =>
          have isBreak : symbol = '\n' ∨ symbol = '\r' := by simpa [isLineBreak] using stops
          rcases isBreak with rfl | rfl
          · simp [takeLineBreak]
          · cases rest with
            | nil => simp [takeLineBreak]
            | cons next rest =>
              by_cases newline : next = '\n'
              · simp [takeLineBreak, newline]
              · simp [takeLineBreak, newline]
      show (takeLineBreak rest).2.length < text.length
      omega

/-- The loop of `parseTextAssignments`: the definitions of the text after `before`. -/
def parseStatements (sourceBytes : List UInt8) (before : List Char) (line : Nat)
    (ordinals : List Char → Nat) (text : List Char) :
    Except SourceAdapterError (List ParsedDefinition) :=
  if _ : text = [] then .ok []
  else
    match _ : statementEnd text with
    | .error error => .error error
    | .ok ending =>
      let next := before ++ ending.statement ++ ending.lineBreak
      let nextLine := line + ending.lineBreak.count '\n'
      match parseStatement ending.statement line with
      | .error error => .error error
      | .ok none => parseStatements sourceBytes next nextLine ordinals ending.next
      | .ok (some assignment) =>
        let ordinal := ordinals assignment.name
        (parseStatements sourceBytes next nextLine
          (Function.update ordinals assignment.name (ordinal + 1)) ending.next).map
          (definitionOf sourceBytes before ending line ordinal assignment :: ·)
termination_by text.length
decreasing_by all_goals exact statementEnd_lt ‹_› ‹_›

def parseTextAssignments (adapterId : TextAdapterId) (options : ParseOptions) :
    Except SourceAdapterError ParsedSource := do
  let sourceBytes ← assertTextBytes bytes (options.maximumBytes.getD defaultMaximumBytes)
  let text ← decodeUtf8 sourceBytes
  let definitions ← parseStatements sourceBytes [] 1 (fun _ => 0) text
  return ⟨adapterId.adapter, sourceBytes, definitions, true⟩

/-- `parseSystemdCredentialFile`: the whole file is the value of one definition. -/
def parseSystemdCredentialFile (name : List Char) (displayEncoding : ValueEncoding)
    (options : ParseOptions) : Except SourceAdapterError ParsedSource :=
  let maximumBytes := options.maximumBytes.getD defaultMaximumBytes
  if maximumBytes ≤ 0 ∨ maximumSafeInteger < maximumBytes ∨ maximumBytes < bytes.length then
    .error (sourceError .sourceTooLarge)
  else
    let value : Except SourceAdapterError (List Char) :=
      match displayEncoding with
      | .base64 => .ok (Base64Url.encodePadded bytes)
      | .text => decodeUtf8 bytes
    value.map fun value =>
      { adapterId := .systemdCredentialFile
        bytes
        definitions :=
          [{ name, value, valueBytes := bytes, duplicateOrdinal := 0, byteStart := 0,
             byteEnd := bytes.length, rawBytes := bytes, tokens := [], line := 1 }]
        unchanged := true }

variable (definition : ParsedDefinition)

def ParsedDefinition.valueToken : Option SourceToken :=
  definition.tokens.find? fun candidate => candidate.kind = .value || candidate.kind = .literal

/-- `text.replaceAll(symbol, '\\' + symbol)`. -/
def escapeAll (symbol : Char) (text : List Char) : List Char :=
  text.flatMap fun other => if other = symbol then ['\\', other] else [other]

/-- Whether a text matches `/^[^\s#\\'"=]+$/`. -/
def isPlain (text : List Char) : Bool :=
  !text.isEmpty && text.all fun symbol =>
    !isWhitespace symbol && symbol != '#' && symbol != '\\' && symbol != '\'' && symbol != '"' &&
      symbol != '='

def quotedValue (quote : Quote) (value : List Char) : List Char :=
  quote.symbol :: escapeAll quote.symbol (escapeAll '\\' value) ++ [quote.symbol]

/-- The text of `encodedValue`, where the text of the value token is `original`. -/
def encodedText (original value : List Char) : List Char :=
  match original.head?.bind Quote.of with
  | some quote => quotedValue quote value
  | none =>
    if value.isEmpty then []
    else if isPlain value then value
    else quotedValue .double value

def encodedValue (value : List Char) : List UInt8 :=
  Utf8.bytes (encodedText ((definition.valueToken.map (·.text)).getD []) value)

/-- Whether an operation is about a definition. -/
def SourceWriteOperation.names (operation : SourceWriteOperation) (definition : ParsedDefinition) :
    Bool :=
  operation.name = definition.name && operation.duplicateOrdinal = definition.duplicateOrdinal

/-- The replacement of an operation on a text source. -/
def replacementOf (definitions : List ParsedDefinition) (operation : SourceWriteOperation) :
    Except SourceAdapterError (Replacement UInt8) :=
  if operation.operation = .delete ∧ operation.requirement ≠ .optional then
    .error (sourceError .sourceMalformed)
  else if operation.operation = .set ∧ operation.value.isNone then
    .error (sourceError .sourceMalformed)
  else
    -- Of entries with one key, a map keeps the last.
    match (definitions.filter operation.names).getLast? with
    | none => .error (sourceError .sourceMalformed)
    | some definition =>
      match operation.operation with
      | .delete => .ok ⟨definition.byteStart, definition.byteEnd, []⟩
      | .set =>
        match definition.valueToken with
        | none => .error (sourceError .sourceMalformed)
        | some token =>
          .ok ⟨token.byteStart, token.byteEnd,
            encodedValue definition (operation.value.getD [])⟩

/-- Whether a text matches `/^[A-Za-z0-9+/]*={0,2}$/`. -/
def isBase64 (text : List Char) : Bool :=
  let padding := text.dropWhile fun symbol => symbol.isAlphanum || symbol = '+' || symbol = '/'
  padding.all (· = '=') && padding.length ≤ 2

/-- The bytes of a credential source, which is one value. -/
def credentialBytes : List SourceWriteOperation → Except SourceAdapterError (List UInt8)
  | [operation] =>
    if operation.duplicateOrdinal ≠ 0 then .error (sourceError .sourceMalformed)
    else if operation.operation = .delete then
      if operation.requirement ≠ .optional then .error (sourceError .sourceMalformed) else .ok []
    else
      match operation.value with
      | none => .error (sourceError .sourceMalformed)
      | some value =>
        if operation.valueEncoding = some .base64 then
          let decoded := Base64Url.decode value
          if !isBase64 value then .error (sourceError .sourceMalformed)
          else if Base64Url.encodePadded decoded ≠ value then
            .error (sourceError .sourceMalformed)
          else .ok decoded
        else .ok (Utf8.bytes value)
  | _ => .error (sourceError .sourceMalformed)

def sortReplacements (replacements : List (Replacement UInt8)) : List (Replacement UInt8) :=
  replacements.mergeSort fun left right => right.start ≤ left.start

def serializeUpdatedSource (parsed : ParsedSource) (operations : List SourceWriteOperation) :
    Except SourceAdapterError (List UInt8) :=
  if !parsed.unchanged then .error (sourceError .sourceMalformed)
  else
    match parsed.adapterId with
    | .pm2EcosystemStatic => .error (sourceError .pm2StaticExpressionRejected)
    | .systemdCredentialFile => credentialBytes operations
    | _ => do
      let replacements ← operations.mapM (replacementOf parsed.definitions)
      return (sortReplacements replacements).foldl (fun result replacement =>
        replacement.apply result) parsed.bytes

end NancyMan.Agent
