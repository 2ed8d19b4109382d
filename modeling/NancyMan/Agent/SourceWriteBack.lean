import NancyMan.Agent.SourceStatements

/-!
# Writing a text source back

`serializeUpdatedSource` replaces ranges of a source, and the source is read again. A value is
written between quotes where the value before it stood between quotes or where it needs them; the
whitespace between an unquoted value and the comment after it belongs to the range replaced.
`writtenBack_iff` says that a source without a byte order mark is written back exactly as the
operations ask if and only if no value is written without quotes right before a comment.
-/
namespace NancyMan.Agent

open Utf8 Replacement
open List (append_assoc filterMap_cons_some mem_filterMap mem_of_find?_eq_some mem_singleton)

/-- The operation on a definition, if any. -/
def operationOn (operations : List SourceWriteOperation) (definition : ParsedDefinition) :
    Option SourceWriteOperation :=
  operations.find? (·.names definition)

/-- The name and value that a definition is to have, if it is to stay. -/
def writtenEntry (operations : List SourceWriteOperation) (definition : ParsedDefinition) :
    Option (List Char × List Char) :=
  match operationOn operations definition with
  | none => some definition.entry
  | some operation =>
    match operation.operation with
    | .delete => none
    | .set => some (definition.name, operation.value.getD [])

/-- What is to stand in the place of a definition or of its value. -/
def replacementAt (operations : List SourceWriteOperation) (definition : ParsedDefinition) :
    Option (Replacement UInt8) :=
  match operationOn operations definition with
  | none => none
  | some operation =>
    match operation.operation with
    | .delete => some ⟨definition.byteStart, definition.byteEnd, []⟩
    | .set => definition.valueToken.map fun token =>
      ⟨token.byteStart, token.byteEnd, encodedValue definition (operation.value.getD [])⟩

/-- The range of a source that an operation on a definition may change. -/
def replacedRange (operations : List SourceWriteOperation) (definition : ParsedDefinition) :
    Option (Nat × Nat) :=
  (replacementAt operations definition).map fun replacement =>
    (replacement.start, replacement.stop)

/-- Bytes that differ from others only within ranges that stand in order and apart. -/
def KeptOutside (ranges : List (Nat × Nat)) (bytes written : List UInt8) : Prop :=
  ∃ replacements : List (Replacement UInt8),
    replacements.map (fun replacement => (replacement.start, replacement.stop)) = ranges ∧
      Replacement.Apart 0 bytes.length replacements ∧
      written = Replacement.spliced 0 bytes replacements

/-- The source written by some operations is read with the values set, without the definitions
deleted and with the others as they were, and differs only in the ranges replaced. -/
def WrittenBack (parsed : ParsedSource) (adapterId : TextAdapterId) (options : ParseOptions)
    (operations : List SourceWriteOperation) : Prop :=
  ∃ written reparsed, serializeUpdatedSource parsed operations = .ok written ∧
    parseTextAssignments written adapterId options = .ok reparsed ∧
    reparsed.definitions.map ParsedDefinition.entry
      = parsed.definitions.filterMap (writtenEntry operations) ∧
    KeptOutside (parsed.definitions.filterMap (replacedRange operations)) parsed.bytes written

/-- Operations on distinct definitions of a source, with values that may stand in it. -/
structure Operable (parsed : ParsedSource) (options : ParseOptions)
    (operations : List SourceWriteOperation) : Prop where
  distinct : (operations.map fun operation => (operation.name, operation.duplicateOrdinal)).Nodup
  existing : ∀ operation ∈ operations,
    ∃ definition ∈ parsed.definitions, operation.names definition = true
  deletable : ∀ operation ∈ operations,
    operation.operation = .delete → operation.requirement = .optional
  valued : ∀ operation ∈ operations,
    operation.operation = .set → ∃ value, operation.value = some value ∧ '\x00' ∉ value
  fits : ∀ written, serializeUpdatedSource parsed operations = .ok written →
    (written.length : Int) ≤ options.maximumBytes.getD defaultMaximumBytes

def ParsedDefinition.sourceValue (definition : ParsedDefinition) : List Char :=
  (definition.valueToken.map (·.text)).getD []

/-- The text of a definition after its value, to the end of its statement. -/
def textAfterValue (bytes : List UInt8) (definition : ParsedDefinition) : List Char :=
  Utf8.text ((bytes.take definition.byteEnd).drop
    ((definition.valueToken.map (·.byteEnd)).getD definition.byteEnd))

def OneLine (text : List Char) : Prop :=
  (takeLineBreak (text.dropWhile fun symbol => !isLineBreak symbol)).2 = []

def Unmarked (bytes : List UInt8) : Prop := bytes.take 3 ≠ [0xEF, 0xBB, 0xBF]

/-- Of the definitions that are set, none has a comment that goes on after a line break, as it may
where a quote in an unquoted value hides the line break. -/
def CommentsOneLine (bytes : List UInt8) (definitions : List ParsedDefinition)
    (operations : List SourceWriteOperation) : Prop :=
  ∀ definition ∈ definitions, ∀ operation, operationOn operations definition = some operation →
    operation.operation = .set → OneLine (textAfterValue bytes definition)

/-- A value that is written without quotes has no comment after it. -/
def CommentsApart (bytes : List UInt8) (definitions : List ParsedDefinition)
    (operations : List SourceWriteOperation) : Prop :=
  ∀ definition ∈ definitions, ∀ operation, operationOn operations definition = some operation →
    operation.operation = .set → Unquoted definition.sourceValue (operation.value.getD []) →
      (textAfterValue bytes definition).head? ≠ some '#'

instance (text : List Char) : Decidable (OneLine text) := by
  unfold OneLine
  infer_instance

theorem byteOffset_append (left right : List Char) :
    byteOffset (left ++ right) = byteOffset left + (Utf8.bytes right).length := by
  rw [byteOffset, byteLength, bytes_append, List.length_append]
  rfl

variable {before : List Char}

/-- A range of text is replaced, and what comes after it is written as it is to be. -/
theorem spliced_text {front old content back next written : List Char} {length : Nat}
    {rest : List (Replacement UInt8)}
    (apart : Replacement.Apart (byteOffset (before ++ front ++ old ++ back)) length rest)
    (later : spliced (byteOffset (before ++ front ++ old ++ back)) (Utf8.bytes next) rest
      = Utf8.bytes written) :
    spliced (byteOffset before) (Utf8.bytes (front ++ old ++ back ++ next))
        (⟨byteOffset (before ++ front), byteOffset (before ++ front ++ old), Utf8.bytes content⟩
          :: rest)
      = Utf8.bytes (front ++ content ++ back ++ written) := by
  have place : byteOffset (before ++ front ++ old ++ back)
      = byteOffset (before ++ front ++ old) + (Utf8.bytes back).length := byteOffset_append _ _
  rw [place] at apart later
  have after := spliced_append (byteOffset (before ++ front ++ old)) (Utf8.bytes back)
    (Utf8.bytes next) apart
  rw [later] at after
  have here := spliced_cons rest (byteOffset before) (Utf8.bytes front)
    (Utf8.bytes old) (Utf8.bytes content) (Utf8.bytes back ++ Utf8.bytes next)
  rw [← byteOffset_append, ← byteOffset_append] at here
  simp only [bytes_append, append_assoc] at here after ⊢
  rw [here, after]

/-- A statement that is not replaced stands before what comes after it. -/
theorem spliced_kept {kept next written : List Char} {length : Nat}
    {rest : List (Replacement UInt8)}
    (apart : Replacement.Apart (byteOffset (before ++ kept)) length rest)
    (later : spliced (byteOffset (before ++ kept)) (Utf8.bytes next) rest
      = Utf8.bytes written) :
    spliced (byteOffset before) (Utf8.bytes (kept ++ next)) rest
      = Utf8.bytes (kept ++ written) := by
  rw [byteOffset_append] at apart later
  rw [bytes_append, bytes_append, spliced_append _ _ _ apart, later]

/-- A text that stands in the place of another once some of its definitions are written. -/
structure Rewritten (operations : List SourceWriteOperation) (bytes : List UInt8)
    (before text : List Char) (definitions : List ParsedDefinition) (written : List Char) :
    Prop where
  ended : text = [] → written = []
  apart : Replacement.Apart (byteOffset before) (byteOffset (before ++ text))
    (definitions.filterMap (replacementAt operations))
  spliced : Replacement.spliced (byteOffset before) (Utf8.bytes text)
    (definitions.filterMap (replacementAt operations)) = Utf8.bytes written
  reads : reading written = some (definitions.filterMap (writtenEntry operations)) ↔
    CommentsApart bytes definitions operations

variable {operations : List SourceWriteOperation}

/-- Values written without quotes have no comment after them when that is so of the first and of
the others. -/
theorem commentsApart_cons {bytes : List UInt8} {definition : ParsedDefinition}
    {definitions : List ParsedDefinition} :
    CommentsApart bytes (definition :: definitions) operations ↔
      (∀ operation, operationOn operations definition = some operation →
        operation.operation = .set → Unquoted definition.sourceValue (operation.value.getD []) →
          (textAfterValue bytes definition).head? ≠ some '#') ∧
      CommentsApart bytes definitions operations := by
  exact List.forall_mem_cons

theorem Breaks.empty {lineBreak next : List Char} (breaks : Breaks lineBreak next)
    (none : lineBreak = []) : next = [] := by
  subst none
  rcases breaks with breaks | breaks | breaks | ⟨_, breaks⟩
  · cases breaks
  · cases breaks
  · cases breaks
  · exact breaks

theorem Breaks.replace {lineBreak next other : List Char} (breaks : Breaks lineBreak next)
    (ended : next = [] → other = []) : Breaks lineBreak other := by
  rcases breaks with breaks | breaks | breaks | ⟨none, breaks⟩
  · exact .inl breaks
  · exact .inr (.inl breaks)
  · exact .inr (.inr (.inl breaks))
  · exact .inr (.inr (.inr ⟨none, ended breaks⟩))

/-- What stands after a value on one line is a comment, if any, and a line break. -/
theorem oneLine_split {trailing lineBreak next : List Char} (ends : endsValue trailing)
    (breaks : Breaks lineBreak next) (oneLine : OneLine (trailing ++ lineBreak)) :
    ∃ comment ending, trailing ++ lineBreak = comment ++ ending ∧ endsValue comment ∧
      (∀ symbol ∈ comment, isLineBreak symbol = false) ∧ Breaks ending next ∧
      (comment = [] ↔ (trailing ++ lineBreak).head? ≠ some '#') := by
  let unbroken : Char → Bool := fun symbol => !isLineBreak symbol
  have joined : (trailing ++ lineBreak).takeWhile unbroken ++
      (trailing ++ lineBreak).dropWhile unbroken = trailing ++ lineBreak :=
    List.takeWhile_append_dropWhile
  have stops : Stops ((trailing ++ lineBreak).dropWhile unbroken) := by
    have first := List.head?_dropWhile_not unbroken (trailing ++ lineBreak)
    cases left : (trailing ++ lineBreak).dropWhile unbroken with
    | nil => rfl
    | cons symbol rest => simpa [left, unbroken, Stops] using first
  have whole := takeLineBreak_append ((trailing ++ lineBreak).dropWhile unbroken)
  have nothing : (takeLineBreak ((trailing ++ lineBreak).dropWhile unbroken)).2 = [] := oneLine
  rw [nothing, List.append_nil] at whole
  have isBreak := takeLineBreak_breaks stops
  rw [whole, nothing] at isBreak
  have ending : Breaks ((trailing ++ lineBreak).dropWhile unbroken) next := by
    rcases isBreak with isBreak | isBreak | isBreak | ⟨none, _⟩
    · exact .inl isBreak
    · exact .inr (.inl isBreak)
    · exact .inr (.inr (.inl isBreak))
    · -- Without a line break there is none at the end of the statement either.
      have all := List.dropWhile_eq_nil_iff.mp none
      refine .inr (.inr (.inr ⟨none, ?_⟩))
      rcases breaks with rfl | rfl | rfl | ⟨_, ended⟩
      · exact absurd (all '\n' (by simp)) (by decide)
      · exact absurd (all '\n' (by simp)) (by decide)
      · exact absurd (all '\r' (by simp)) (by decide)
      · exact ended
  have comment : endsValue ((trailing ++ lineBreak).takeWhile unbroken) = true ∧
      ((trailing ++ lineBreak).takeWhile unbroken = [] ↔
        (trailing ++ lineBreak).head? ≠ some '#') := by
    cases trailing with
    | nil => rcases breaks with rfl | rfl | rfl | ⟨rfl, _⟩ <;> exact ⟨rfl, by decide⟩
    | cons symbol trailing =>
      obtain rfl : symbol = '#' := by simpa [endsValue] using ends
      have opens : unbroken '#' := rfl
      rw [List.cons_append, List.takeWhile_cons_of_pos opens]
      simp [endsValue]
  exact ⟨_, _, joined.symm, comment.1, fun symbol member => by
    simpa [unbroken] using List.mem_takeWhile_imp member, ending, comment.2⟩

section

variable {operations : List SourceWriteOperation} {bytes : List UInt8}
  {before statement lineBreak next : List Char} {definitions : List ParsedDefinition}
  {written : List Char}
  (scanned : scanStatement none false (statement ++ (lineBreak ++ next))
    = .ok (statement, lineBreak ++ next))
  (breaks : Breaks lineBreak next)
  (later : Rewritten operations bytes (before ++ (statement ++ lineBreak)) next definitions written)
include scanned breaks later

theorem reading_kept : reading (statement ++ lineBreak ++ written)
    = (assigns statement).bind fun found => (reading written).map (found.toList ++ ·) := by
  have same : lineBreak = [] → written = next := by
    intro none
    rw [breaks.empty none, later.ended (breaks.empty none)]
  rw [append_assoc]
  exact reading_append (scanStatement_next scanned same) (breaks.replace later.ended)

/-- A blank statement and a comment are kept. -/
theorem Rewritten.blank (assigned : assigns statement = some none) :
    Rewritten operations bytes before (statement ++ lineBreak ++ next) definitions
      (statement ++ lineBreak ++ written) where
  ended empty := by
    obtain ⟨nothing, none⟩ := List.append_eq_nil_iff.mp empty
    rw [nothing, later.ended none]
    rfl
  apart := by
    have apart := later.apart
    rw [append_assoc] at apart
    have inOrder : byteOffset before ≤ byteOffset (before ++ (statement ++ lineBreak)) := by
      rw [byteOffset_append]
      omega
    exact apart.weaken inOrder
  spliced := spliced_kept later.apart later.spliced
  reads := by
    rw [reading_kept scanned breaks later, assigned, ← later.reads]
    simp

variable {line ordinal : Nat} {assignment : Assignment}
  (parsed : parseStatement statement line = .ok (some assignment))

include parsed

omit scanned breaks later in
theorem assigns_parsed : assigns statement
    = some (some (assignment.name, assignment.value.value)) := by
  have read := parseStatement_line statement line 0
  rw [parsed] at read
  rw [assigns, ← read]
  rfl

/-- A definition that no operation is about is kept. -/
theorem Rewritten.kept {definition : ParsedDefinition}
    (defined : definition.entry = (assignment.name, assignment.value.value))
    (untouched : operationOn operations definition = none) :
    Rewritten operations bytes before (statement ++ lineBreak ++ next) (definition :: definitions)
      (statement ++ lineBreak ++ written) where
  ended empty := by
    obtain ⟨nothing, none⟩ := List.append_eq_nil_iff.mp empty
    rw [nothing, later.ended none]
    rfl
  apart := by
    have unreplaced : replacementAt operations definition = none := by
      simp [replacementAt, untouched]
    have apart := later.apart
    rw [append_assoc] at apart
    have inOrder : byteOffset before ≤ byteOffset (before ++ (statement ++ lineBreak)) := by
      rw [byteOffset_append]
      omega
    rw [List.filterMap_cons_none unreplaced]
    exact apart.weaken inOrder
  spliced := by
    have unreplaced : replacementAt operations definition = none := by
      simp [replacementAt, untouched]
    rw [List.filterMap_cons_none unreplaced]
    exact spliced_kept later.apart later.spliced
  reads := by
    have entry : writtenEntry operations definition
        = some (assignment.name, assignment.value.value) := by
      simp [writtenEntry, untouched, defined]
    rw [reading_kept scanned breaks later, assigns_parsed parsed, commentsApart_cons,
      ← later.reads, filterMap_cons_some entry]
    simp only [untouched, reduceCtorEq, false_implies, implies_true, true_and]
    cases reading written <;> simp

omit scanned breaks parsed in
/-- A definition that is deleted leaves nothing. -/
theorem Rewritten.deleted {definition : ParsedDefinition} {operation : SourceWriteOperation}
    (start : definition.byteStart = byteOffset before)
    (stop : definition.byteEnd = byteOffset (before ++ (statement ++ lineBreak)))
    (found : operationOn operations definition = some operation)
    (deletes : operation.operation = .delete) (nonempty : statement ++ lineBreak ++ next ≠ []) :
    Rewritten operations bytes before (statement ++ lineBreak ++ next) (definition :: definitions)
      written where
  ended empty := absurd empty nonempty
  apart := by
    have replaced : replacementAt operations definition
        = some ⟨byteOffset before, byteOffset (before ++ (statement ++ lineBreak)), []⟩ := by
      simp [replacementAt, found, deletes, start, stop]
    have apart := later.apart
    rw [append_assoc] at apart
    rw [filterMap_cons_some replaced]
    refine ⟨Nat.le_refl _, ?_, apart⟩
    show byteOffset before ≤ byteOffset (before ++ (statement ++ lineBreak))
    rw [byteOffset_append]
    omega
  spliced := by
    have replaced : replacementAt operations definition
        = some ⟨byteOffset before, byteOffset (before ++ (statement ++ lineBreak)), []⟩ := by
      simp [replacementAt, found, deletes, start, stop]
    have here : Replacement.spliced (byteOffset before)
        (Utf8.bytes ([] ++ (statement ++ lineBreak) ++ [] ++ next))
        (⟨byteOffset (before ++ []), byteOffset (before ++ [] ++ (statement ++ lineBreak)),
            Utf8.bytes []⟩ :: definitions.filterMap (replacementAt operations))
        = Utf8.bytes ([] ++ [] ++ [] ++ written) :=
      spliced_text (by simpa using later.apart) (by simpa using later.spliced)
    rw [filterMap_cons_some replaced]
    simpa [Utf8.bytes] using here
  reads := by
    have omitted : writtenEntry operations definition = none := by
      simp [writtenEntry, found, deletes]
    rw [List.filterMap_cons_none omitted, later.reads, commentsApart_cons]
    simp [found, deletes]

/-- A value that is set is read back, unless it is written without quotes before a comment. -/
theorem Rewritten.set {definition : ParsedDefinition} {operation : SourceWriteOperation}
    (named : definition.name = assignment.name)
    (token : definition.valueToken
      = some (sourceToken .value (before ++ assignment.head) assignment.value.source))
    (after : textAfterValue bytes definition = assignment.value.trailing ++ lineBreak)
    (found : operationOn operations definition = some operation)
    (sets : operation.operation = .set)
    (oneLine : OneLine (assignment.value.trailing ++ lineBreak)) :
    Rewritten operations bytes before (statement ++ lineBreak ++ next) (definition :: definitions)
      (assignment.head ++ encodedText assignment.value.source (operation.value.getD []) ++
        (assignment.value.trailing ++ lineBreak) ++ written) := by
  have slices := statement_slices parsed
  have ends : endsValue assignment.value.trailing := by
    obtain ⟨text, whole, read, again⟩ := parseStatement_assigning parsed
    exact (parseValue_slices read).2.2
  have source : definition.sourceValue = assignment.value.source := by
    simp [ParsedDefinition.sourceValue, token, sourceToken]
  have replaced : replacementAt operations definition
      = some ⟨byteOffset (before ++ assignment.head),
        byteOffset (before ++ assignment.head ++ assignment.value.source),
        Utf8.bytes (encodedText assignment.value.source (operation.value.getD []))⟩ := by
    simp [replacementAt, found, sets, token, sourceToken, encodedValue]
  have regrouped : statement ++ lineBreak
      = assignment.head ++ assignment.value.source ++ (assignment.value.trailing ++ lineBreak) := by
    rw [slices]
    simp only [append_assoc]
  have place : before ++ (statement ++ lineBreak)
      = before ++ assignment.head ++ assignment.value.source ++
        (assignment.value.trailing ++ lineBreak) := by
    rw [regrouped]
    simp only [append_assoc]
  have laterApart := later.apart
  have laterSpliced := later.spliced
  rw [place] at laterApart laterSpliced
  constructor
  · intro empty
    rw [regrouped] at empty
    simp [Assignment.head] at empty
  · rw [filterMap_cons_some replaced]
    refine ⟨?_, ?_, ?_⟩
    · show byteOffset before ≤ byteOffset (before ++ assignment.head)
      rw [byteOffset_append]
      omega
    · show byteOffset (before ++ assignment.head)
        ≤ byteOffset (before ++ assignment.head ++ assignment.value.source)
      rw [byteOffset_append (before ++ assignment.head)]
      omega
    · have whole : before ++ (statement ++ lineBreak ++ next)
          = before ++ assignment.head ++ assignment.value.source ++
            (assignment.value.trailing ++ lineBreak) ++ next := by
        rw [← place]
        simp only [append_assoc]
      rw [whole]
      refine laterApart.weaken ?_
      show byteOffset (before ++ assignment.head ++ assignment.value.source) ≤ _
      rw [byteOffset_append _ (assignment.value.trailing ++ lineBreak)]
      omega
  · rw [filterMap_cons_some replaced, regrouped]
    exact spliced_text laterApart laterSpliced
  · obtain ⟨comment, ending, line, commentEnds, unbroken, endingBreaks, plain⟩ :=
      oneLine_split ends breaks oneLine
    have entry : writtenEntry operations definition
        = some (assignment.name, operation.value.getD []) := by
      simp [writtenEntry, found, sets, named]
    have stops := endingBreaks.stops written later.ended
    have scan := scanStatement_written parsed scanned commentEnds unbroken stops
      (operation.value.getD [])
    have text : assignment.head ++ encodedText assignment.value.source (operation.value.getD []) ++
          (assignment.value.trailing ++ lineBreak) ++ written
        = assignment.head ++ encodedText assignment.value.source (operation.value.getD []) ++
          comment ++ (ending ++ written) := by
      rw [line]
      simp only [append_assoc]
    have assigned := assigns_written parsed commentEnds (operation.value.getD [])
    have something := assigns_written_ne parsed (operation.value.getD []) comment
    rw [text, reading_append scan (endingBreaks.replace later.ended), commentsApart_cons,
      ← later.reads, filterMap_cons_some entry]
    simp only [found, Option.some.injEq, forall_eq', sets, forall_const, source, after]
    rw [plain] at assigned
    rw [← assigned]
    cases read : assigns (assignment.head ++
        encodedText assignment.value.source (operation.value.getD []) ++ comment) with
    | none => simp
    | some found =>
      cases found with
      | none => exact absurd read something
      | some entry =>
        cases reading written <;> simp

end

variable {text : List Char}

/-- The end of a statement is where a scan of its text ends. -/
theorem statementEnd_scan {ending : StatementEnd} (ended : statementEnd text = .ok ending) :
    scanStatement none false (ending.statement ++ (ending.lineBreak ++ ending.next))
        = .ok (ending.statement, ending.lineBreak ++ ending.next) ∧
      Breaks ending.lineBreak ending.next := by
  have joined := statementEnd_append ended
  rw [append_assoc] at joined
  cases scanned : scanStatement none false text with
  | error error =>
    rw [statementEnd, scanned] at ended
    cases ended
  | ok slices =>
    rw [joined, scanned]
    rw [statementEnd, scanned] at ended
    obtain rfl := Except.ok.inj ended
    refine ⟨?_, takeLineBreak_breaks (scanStatement_ok scanned).2⟩
    rw [takeLineBreak_append]

/-- The text after the value of a definition is the rest of its statement and its line break. -/
theorem textAfterValue_definitionOf {ending : StatementEnd} {line : Nat} {assignment : Assignment}
    {bytes : List UInt8} (parsed : parseStatement ending.statement line = .ok (some assignment))
    (source : bytes = Utf8.bytes (before ++ (ending.statement ++ ending.lineBreak ++ ending.next)))
    (ordinal : Nat) :
    textAfterValue bytes (definitionOf bytes before ending line ordinal assignment)
      = assignment.value.trailing ++ ending.lineBreak := by
  have slices := statement_slices parsed
  have whole : Utf8.bytes (before ++ (ending.statement ++ ending.lineBreak ++ ending.next))
      = Utf8.bytes (before ++ ending.statement ++ ending.lineBreak) ++ Utf8.bytes ending.next := by
    rw [← bytes_append]
    simp only [append_assoc]
  have front : Utf8.bytes (before ++ ending.statement ++ ending.lineBreak)
      = Utf8.bytes (before ++ assignment.head ++ assignment.value.source) ++
        Utf8.bytes (assignment.value.trailing ++ ending.lineBreak) := by
    rw [← bytes_append, slices]
    simp only [append_assoc]
  have taken : bytes.take (byteOffset (before ++ ending.statement ++ ending.lineBreak))
      = Utf8.bytes (before ++ ending.statement ++ ending.lineBreak) := by
    rw [source, whole]
    exact List.take_left
  show Utf8.text ((bytes.take (byteOffset (before ++ ending.statement ++ ending.lineBreak))).drop
    (byteOffset (before ++ assignment.head ++ assignment.value.source))) = _
  rw [taken, front, byteOffset, byteLength, List.drop_left, text_bytes]

variable {ordinals : List Char → Nat}

/-- The definitions of a source can be written in any of the ways that keep comments to their
lines. -/
theorem parseStatements_rewritten (operations : List SourceWriteOperation) {bytes : List UInt8}
    {line : Nat} {definitions : List ParsedDefinition}
    (parsed : parseStatements bytes before line ordinals text = .ok definitions)
    (source : bytes = Utf8.bytes (before ++ text))
    (oneLine : CommentsOneLine bytes definitions operations) :
    ∃ written, Rewritten operations bytes before text definitions written := by
  revert source oneLine
  refine parseStatements_induction bytes (motive := fun before _ _ text definitions =>
    bytes = Utf8.bytes (before ++ text) → CommentsOneLine bytes definitions operations →
      ∃ written, Rewritten operations bytes before text definitions written) ?_ ?_ ?_ parsed
  · intro before line ordinals _ _
    exact ⟨[], fun _ => rfl, by simp [Replacement.Apart], rfl, by simp [reading_nil, CommentsApart]⟩
  · intro before line ordinals text ending definitions empty ended read ih source oneLine
    have joined := statementEnd_append ended
    obtain ⟨scanned, breaks⟩ := statementEnd_scan ended
    have place : bytes = Utf8.bytes (before ++ (ending.statement ++ ending.lineBreak) ++
        ending.next) := by
      rw [source, ← joined]
      simp only [append_assoc]
    rw [append_assoc before] at ih
    obtain ⟨written, later⟩ := ih place oneLine
    have blank : assigns ending.statement = some none := by
      rw [assigns, ← parseStatement_line ending.statement line, read]
      rfl
    rw [← joined]
    exact ⟨_, later.blank scanned breaks blank⟩
  · intro before line ordinals text ending assignment definitions empty ended read ih source oneLine
    have joined := statementEnd_append ended
    obtain ⟨scanned, breaks⟩ := statementEnd_scan ended
    have place : bytes = Utf8.bytes (before ++ (ending.statement ++ ending.lineBreak) ++
        ending.next) := by
      rw [source, ← joined]
      simp only [append_assoc]
    have oneLines := List.forall_mem_cons.mp oneLine
    rw [append_assoc before] at ih
    obtain ⟨written, later⟩ := ih place oneLines.2
    generalize ordinals assignment.name = ordinal at oneLines ⊢
    rw [← joined]
    cases found : operationOn operations
        (definitionOf bytes before ending line ordinal assignment) with
    | none => exact ⟨_, later.kept scanned breaks read rfl found⟩
    | some operation =>
      cases kind : operation.operation with
      | delete =>
        have stop : byteOffset (before ++ ending.statement ++ ending.lineBreak)
            = byteOffset (before ++ (ending.statement ++ ending.lineBreak)) := by
          rw [append_assoc]
        exact ⟨_, later.deleted rfl stop found kind (joined ▸ empty)⟩
      | set =>
        have after := textAfterValue_definitionOf read (source.trans (by rw [joined])) ordinal
        have line := oneLines.1 operation found kind
        rw [after] at line
        exact ⟨_, later.set scanned breaks read rfl rfl after found kind line⟩

def ParsedDefinition.key (definition : ParsedDefinition) : List Char × Nat :=
  (definition.name, definition.duplicateOrdinal)

/-- No two definitions of a source have one key. -/
theorem parseStatements_keys {bytes : List UInt8} {line : Nat} {definitions : List ParsedDefinition}
    (parsed : parseStatements bytes before line ordinals text = .ok definitions) :
    (∀ definition ∈ definitions, ordinals definition.name ≤ definition.duplicateOrdinal) ∧
      (definitions.map ParsedDefinition.key).Nodup := by
  refine parseStatements_induction bytes (motive := fun _ _ ordinals _ definitions =>
    (∀ definition ∈ definitions, ordinals definition.name ≤ definition.duplicateOrdinal) ∧
      (definitions.map ParsedDefinition.key).Nodup) ?_ ?_ ?_ parsed
  · intro before line ordinals
    exact ⟨by simp, List.nodup_nil⟩
  · intro before line ordinals text ending definitions _ _ _ ih
    exact ih
  · intro before line ordinals text ending assignment definitions _ _ _ ih
    obtain ⟨later, distinct⟩ := ih
    constructor
    · intro definition member
      cases member with
      | head => exact Nat.le_refl _
      | tail _ member =>
        have bound := later definition member
        by_cases same : definition.name = assignment.name
        · rw [same, Function.update_self] at bound
          rw [same]
          omega
        · rwa [Function.update_of_ne same] at bound
    · refine List.nodup_cons.mpr ⟨fun member => ?_, distinct⟩
      obtain ⟨definition, isLater, same⟩ := List.mem_map.mp member
      obtain ⟨name, ordinal⟩ := Prod.mk.inj same
      have bound := later definition isLater
      have named : definition.name = assignment.name := name
      rw [named, Function.update_self] at bound
      have first : definition.duplicateOrdinal = ordinals assignment.name := ordinal
      omega

/-- Replacements that start at different places are sorted in one way. -/
theorem sortReplacements_eq {replacements inOrder : List (Replacement UInt8)}
    (perm : replacements.Perm inOrder)
    (increasing : inOrder.Pairwise fun left right => left.start < right.start) :
    sortReplacements replacements = inOrder.reverse := by
  have sorted : (sortReplacements replacements).Pairwise fun left right =>
      decide (right.start ≤ left.start) = true := by
    refine List.pairwise_mergeSort ?_ ?_ replacements
    · intro first second third before after
      simp only [decide_eq_true_eq] at before after ⊢
      omega
    · intro first second
      simp only [Bool.or_eq_true, decide_eq_true_eq]
      omega
  have turned : inOrder.reverse.Pairwise fun left right =>
      decide (right.start ≤ left.start) = true := by
    rw [List.pairwise_reverse]
    refine increasing.imp fun before => ?_
    simp only [decide_eq_true_eq]
    omega
  have same : (sortReplacements replacements).Perm inOrder.reverse :=
    ((List.mergeSort_perm _ _).trans perm).trans (List.reverse_perm _).symm
  refine List.Perm.eq_of_pairwise (fun first second isFirst isSecond before after => ?_) sorted
    turned same
  simp only [decide_eq_true_eq] at before after
  have place : first.start = second.start := by omega
  have one := List.mem_reverse.mp (same.subset isFirst)
  have other := List.mem_reverse.mp isSecond
  let Alike (left right : Replacement UInt8) : Prop := left.start = right.start → left = right
  have onward : inOrder.Pairwise Alike :=
    increasing.imp fun before same => absurd same (Nat.ne_of_lt before)
  have back : inOrder.Pairwise (flip Alike) :=
    increasing.imp fun before same => absurd same.symm (Nat.ne_of_lt before)
  exact onward.forall_of_forall_of_flip (fun _ _ _ => rfl) back one other place

/-- The value of a definition has a token. -/
theorem parseStatements_valueToken {bytes : List UInt8} {line : Nat}
    {definitions : List ParsedDefinition}
    (parsed : parseStatements bytes before line ordinals text = .ok definitions) :
    ∀ definition ∈ definitions, definition.valueToken.isSome :=
  parseStatements_forall bytes (fun _ _ _ _ _ _ => rfl) parsed

/-- What takes the place of a definition starts within its statement. -/
theorem replacementAt_start {bytes : List UInt8} {ending : StatementEnd} {line ordinal : Nat}
    {assignment : Assignment}
    (parsed : parseStatement ending.statement line = .ok (some assignment))
    {replacement : Replacement UInt8}
    (replaced : replacementAt operations (definitionOf bytes before ending line ordinal assignment)
      = some replacement) :
    byteOffset before ≤ replacement.start ∧
      replacement.start ≤ byteOffset (before ++ ending.statement) := by
  unfold replacementAt at replaced
  split at replaced
  · cases replaced
  · split at replaced
    · obtain rfl := Option.some.inj replaced
      refine ⟨Nat.le_refl _, ?_⟩
      show byteOffset before ≤ byteOffset (before ++ ending.statement)
      rw [byteOffset_append]
      omega
    · obtain rfl := Option.some.inj replaced
      show byteOffset before ≤ byteOffset (before ++ assignment.head) ∧
        byteOffset (before ++ assignment.head) ≤ byteOffset (before ++ ending.statement)
      rw [statement_slices parsed, ← append_assoc, ← append_assoc,
        byteOffset_append before, byteOffset_append _ assignment.value.trailing,
        byteOffset_append _ assignment.value.source, byteOffset_append before]
      omega

/-- What takes the place of definitions starts further back in the source from one to the next. -/
theorem parseStatements_increasing (operations : List SourceWriteOperation) {bytes : List UInt8}
    {line : Nat} {definitions : List ParsedDefinition}
    (parsed : parseStatements bytes before line ordinals text = .ok definitions) :
    (definitions.filterMap (replacementAt operations)).Pairwise
      fun left right => left.start < right.start := by
  suffices both : (text = [] → definitions = []) ∧
      (∀ replacement ∈ definitions.filterMap (replacementAt operations),
        byteOffset before ≤ replacement.start) ∧
      (definitions.filterMap (replacementAt operations)).Pairwise
        fun left right => left.start < right.start from both.2.2
  refine parseStatements_induction bytes (motive := fun before _ _ text definitions =>
    (text = [] → definitions = []) ∧
      (∀ replacement ∈ definitions.filterMap (replacementAt operations),
        byteOffset before ≤ replacement.start) ∧
      (definitions.filterMap (replacementAt operations)).Pairwise
        fun left right => left.start < right.start) ?_ ?_ ?_ parsed
  · intro before line ordinals
    exact ⟨fun _ => rfl, by simp, .nil⟩
  · intro before line ordinals text ending definitions empty _ _ ⟨_, starts, increasing⟩
    refine ⟨fun none => absurd none empty, fun replacement member => ?_, increasing⟩
    have later := starts replacement member
    rw [append_assoc, byteOffset_append] at later
    omega
  · intro before line ordinals text ending assignment definitions empty ended read
      ⟨last, starts, increasing⟩
    have passed (replacement : Replacement UInt8)
        (member : replacement ∈ definitions.filterMap (replacementAt operations)) :
        byteOffset (before ++ ending.statement) < replacement.start := by
      have later := starts replacement member
      have breaks := (statementEnd_scan ended).2
      have something : 0 < (Utf8.bytes ending.lineBreak).length := by
        cases broken : ending.lineBreak with
        | nil =>
          rw [last (breaks.empty broken)] at member
          cases member
        | cons symbol rest =>
          have longer := length_le_byteLength (symbol :: rest)
          rw [List.length_cons, byteLength] at longer
          omega
      rw [byteOffset_append _ ending.lineBreak] at later
      omega
    have inside : byteOffset before ≤ byteOffset (before ++ ending.statement) := by
      rw [byteOffset_append]
      omega
    refine ⟨fun none => absurd none empty, ?_, ?_⟩
    · intro replacement member
      obtain ⟨definition, isDefinition, replaced⟩ := mem_filterMap.mp member
      cases isDefinition with
      | head => exact (replacementAt_start read replaced).1
      | tail _ isLater =>
        have after := passed replacement (mem_filterMap.mpr ⟨definition, isLater, replaced⟩)
        omega
    · cases replaced : replacementAt operations
          (definitionOf bytes before ending line (ordinals assignment.name) assignment) with
      | none =>
        rw [List.filterMap_cons_none replaced]
        exact increasing
      | some replacement =>
        rw [filterMap_cons_some replaced]
        refine List.pairwise_cons.mpr ⟨fun other member => ?_, increasing⟩
        have first := (replacementAt_start read replaced).2
        have after := passed other member
        omega

/-- Steps that all succeed give the list of their results. -/
theorem mapM_ok {ε α β : Type} {step : α → Except ε β} {result : α → β} {items : List α}
    (all : ∀ item ∈ items, step item = .ok (result item)) :
    items.mapM step = .ok (items.map result) := by
  induction items with
  | nil => rfl
  | cons item items ih =>
    obtain ⟨first, others⟩ := List.forall_mem_cons.mp all
    rw [List.mapM_cons, first, ih others]
    rfl

theorem names_iff {operation : SourceWriteOperation} {definition : ParsedDefinition} :
    operation.names definition ↔
      (operation.name, operation.duplicateOrdinal) = definition.key := by
  simp [SourceWriteOperation.names, ParsedDefinition.key]

section

variable {parsed : ParsedSource} {options : ParseOptions} {operations : List SourceWriteOperation}
  (operable : Operable parsed options operations)
include operable

omit operable in
theorem operationOn_key {operation : SourceWriteOperation} {definition : ParsedDefinition}
    (found : operationOn operations definition = some operation) :
    (operation.name, operation.duplicateOrdinal) = definition.key := by
  have named := List.find?_some
    (p := fun other : SourceWriteOperation => other.names definition) found
  exact names_iff.mp named

/-- The operation that names a definition is the one on it. -/
theorem operationOn_names {operation : SourceWriteOperation} {definition : ParsedDefinition}
    (member : operation ∈ operations) (named : operation.names definition) :
    operationOn operations definition = some operation := by
  cases found : operationOn operations definition with
  | none =>
    have refused := List.find?_eq_none.mp found operation member
    exact absurd named refused
  | some other =>
    have otherMember := mem_of_find?_eq_some found
    have keys := (operationOn_key found).trans (names_iff.mp named).symm
    rw [List.inj_on_of_nodup_map operable.distinct otherMember member keys]

variable (keys : (parsed.definitions.map ParsedDefinition.key).Nodup)
include keys

/-- Each operation is on one definition. -/
theorem operations_perm :
    operations.Perm (parsed.definitions.filterMap (operationOn operations)) := by
  have distinct : operations.Nodup := operable.distinct.of_map _
  have others : (parsed.definitions.filterMap (operationOn operations)).Nodup := by
    have apart := List.pairwise_map.mp keys
    refine List.Pairwise.filterMap _ (fun first second differ operation found other again => ?_) apart
    rintro rfl
    exact differ ((operationOn_key found).symm.trans (operationOn_key again))
  refine (List.perm_ext_iff_of_nodup distinct others).mpr fun operation => ?_
  constructor
  · intro member
    obtain ⟨definition, isDefinition, named⟩ := operable.existing operation member
    exact mem_filterMap.mpr
      ⟨definition, isDefinition, operationOn_names operable member named⟩
  · intro member
    obtain ⟨definition, isDefinition, found⟩ := mem_filterMap.mp member
    exact mem_of_find?_eq_some found

/-- An operation replaces what its definition has in its place. -/
theorem replacementOf_eq {operation : SourceWriteOperation} {definition : ParsedDefinition}
    (tokens : definition.valueToken.isSome) (isDefinition : definition ∈ parsed.definitions)
    (found : operationOn operations definition = some operation) :
    ∃ replacement, replacementOf parsed.definitions operation = .ok replacement ∧
      replacementAt operations definition = some replacement := by
  have member := mem_of_find?_eq_some found
  have alone : (parsed.definitions.filter operation.names).getLast? = some definition := by
    have named : definition ∈ parsed.definitions.filter operation.names :=
      List.mem_filter.mpr ⟨isDefinition, names_iff.mpr (operationOn_key found)⟩
    cases last : (parsed.definitions.filter operation.names).getLast? with
    | none =>
      rw [List.getLast?_eq_none_iff.mp last] at named
      cases named
    | some other =>
      obtain ⟨otherMember, otherNamed⟩ := List.mem_filter.mp (List.mem_of_getLast? last)
      have same := (names_iff.mp otherNamed).symm.trans (operationOn_key found)
      rw [List.inj_on_of_nodup_map keys otherMember isDefinition same]
  obtain ⟨token, hasToken⟩ := Option.isSome_iff_exists.mp tokens
  cases kind : operation.operation with
  | delete =>
    have optional := operable.deletable operation member kind
    exact ⟨_, by simp [replacementOf, kind, optional, alone]; rfl, by
      simp [replacementAt, found, kind]⟩
  | set =>
    obtain ⟨value, valued, _⟩ := operable.valued operation member kind
    exact ⟨_, by simp [replacementOf, kind, valued, alone, hasToken]; rfl, by
      simp [replacementAt, found, kind, hasToken, valued]⟩

/-- The operations give the replacements of the definitions they are on. -/
theorem mapM_replacementOf
    (tokens : ∀ definition ∈ parsed.definitions, definition.valueToken.isSome) :
    ∃ replacements, operations.mapM (replacementOf parsed.definitions) = .ok replacements ∧
      replacements.Perm (parsed.definitions.filterMap (replacementAt operations)) := by
  let result (operation : SourceWriteOperation) : Replacement UInt8 :=
    (replacementOf parsed.definitions operation).toOption.getD ⟨0, 0, []⟩
  have each : ∀ definition ∈ parsed.definitions,
      (operationOn operations definition).map result = replacementAt operations definition := by
    intro definition isDefinition
    cases found : operationOn operations definition with
    | none => simp [replacementAt, found]
    | some operation =>
      obtain ⟨replacement, made, placed⟩ :=
        replacementOf_eq operable keys (tokens definition isDefinition) isDefinition found
      rw [placed, Option.map_some]
      show some ((replacementOf parsed.definitions operation).toOption.getD _) = _
      rw [made]
      rfl
  have all : ∀ operation ∈ operations,
      replacementOf parsed.definitions operation = .ok (result operation) := by
    intro operation member
    obtain ⟨definition, isDefinition, named⟩ := operable.existing operation member
    obtain ⟨replacement, made, placed⟩ := replacementOf_eq operable keys
      (tokens definition isDefinition) isDefinition (operationOn_names operable member named)
    show _ = Except.ok ((replacementOf parsed.definitions operation).toOption.getD _)
    rw [made]
    rfl
  refine ⟨operations.map result, mapM_ok all, ?_⟩
  have moved := (operations_perm operable keys).map result
  rw [List.map_filterMap, List.filterMap_congr each] at moved
  exact moved

end

/-- Bytes pass as text when they are within the limit, have no zero and are those of a text. -/
theorem assertTextBytes_ok {bytes checked : List UInt8} {maximumBytes : Int} :
    assertTextBytes bytes maximumBytes = .ok checked ↔
      (0 < maximumBytes ∧ maximumBytes ≤ maximumSafeInteger) ∧ (bytes.length : Int) ≤ maximumBytes ∧
        0 ∉ bytes ∧ (∃ text, decode bytes = some text) ∧ bytes = checked := by
  unfold assertTextBytes
  split
  · rename_i limit
    simp only [reduceCtorEq, false_iff]
    rintro ⟨bounds, _⟩
    omega
  · rename_i limit
    split
    · rename_i large
      simp only [reduceCtorEq, false_iff]
      rintro ⟨_, fits, _⟩
      omega
    · rename_i fits
      split
      · rename_i zero
        simp [zero]
      · rename_i noZero
        split
        · rename_i undecoded
          rw [Option.isNone_iff_eq_none] at undecoded
          simp [undecoded]
        · rename_i decoded
          have hasText : ∃ text, decode bytes = some text := by
            cases found : decode bytes with
            | none => exact absurd found (by simpa using decoded)
            | some text => exact ⟨text, rfl⟩
          constructor
          · intro same
            exact ⟨⟨by omega, by omega⟩, by omega, noZero, hasText, Except.ok.inj same⟩
          · rintro ⟨_, _, _, _, rfl⟩
            rfl

variable {options : ParseOptions} {parsed : ParsedSource} {adapterId : TextAdapterId}

/-- A source that is accepted passes as text, and its definitions are those of its text. -/
theorem parseTextAssignments_ok {bytes : List UInt8}
    (accepted : parseTextAssignments bytes adapterId options = .ok parsed) :
    ∃ text, assertTextBytes bytes (options.maximumBytes.getD defaultMaximumBytes) = .ok bytes ∧
      decode bytes = some text ∧
      parseStatements bytes [] 1 (fun _ => 0) (dropByteOrderMark text) = .ok parsed.definitions ∧
      parsed = ⟨adapterId.adapter, bytes, parsed.definitions, true⟩ := by
  cases checks : assertTextBytes bytes (options.maximumBytes.getD defaultMaximumBytes) with
  | error error =>
    rw [parseTextAssignments, checks] at accepted
    cases accepted
  | ok checked =>
    obtain ⟨_, _, _, ⟨text, decoded⟩, rfl⟩ := assertTextBytes_ok.mp checks
    have read : decodeUtf8 bytes = .ok (dropByteOrderMark text) := by rw [decodeUtf8, decoded]
    rw [parseTextAssignments, checks] at accepted
    simp only [bind, Except.bind, read] at accepted
    cases found : parseStatements bytes [] 1 (fun _ => 0) (dropByteOrderMark text) with
    | error error =>
      rw [found] at accepted
      cases accepted
    | ok definitions =>
      rw [found] at accepted
      obtain rfl := Except.ok.inj accepted
      exact ⟨text, rfl, decoded, found, rfl⟩

/-- The names and values of bytes that pass as text are those of their text. -/
theorem parseTextAssignments_entries {bytes : List UInt8}
    (checks : assertTextBytes bytes (options.maximumBytes.getD defaultMaximumBytes) = .ok bytes)
    (decoded : decode bytes = some text) (adapterId : TextAdapterId)
    (entries : List (List Char × List Char)) :
    (∃ parsed, parseTextAssignments bytes adapterId options = .ok parsed ∧
        parsed.definitions.map ParsedDefinition.entry = entries) ↔ reading text = some entries := by
  have read : decodeUtf8 bytes = .ok (dropByteOrderMark text) := by rw [decodeUtf8, decoded]
  rw [← reading_dropByteOrderMark, ← parseStatements_reading bytes [] 1 fun _ => 0]
  rw [parseTextAssignments, checks]
  simp only [bind, Except.bind, read]
  cases found : parseStatements bytes [] 1 (fun _ => 0) (dropByteOrderMark text) with
  | error error => simp [Except.toOption]
  | ok definitions => simp [Except.toOption, pure, Except.pure]

/-- The symbols of a written value are its own, quotes and escapes. -/
theorem mem_encodedText {original value : List Char} {symbol : Char}
    (member : symbol ∈ encodedText original value) :
    symbol ∈ value ∨ symbol = '\\' ∨ symbol = '\'' ∨ symbol = '"' := by
  have isQuote (quote : Quote) : quote.symbol = '\'' ∨ quote.symbol = '"' := by
    cases quote with
    | single => exact .inl rfl
    | double => exact .inr rfl
  rcases encodedText_cases original value with ⟨quote, written⟩ | ⟨rfl, written⟩ |
    ⟨unquoted, plain, written⟩
  · rw [written, quotedValue, escapeAll_escapeAll] at member
    simp only [List.cons_append, List.mem_cons, List.mem_append, List.mem_flatMap,
      List.not_mem_nil, or_false] at member
    rcases member with rfl | ⟨other, isOther, escaped⟩ | rfl
    · exact .inr (.inr (isQuote quote))
    · unfold escapedSymbol at escaped
      split at escaped
      · simp only [List.mem_cons, List.not_mem_nil, or_false] at escaped
        rcases escaped with rfl | rfl
        · exact .inr (.inl rfl)
        · exact .inl isOther
      · obtain rfl : symbol = other := by simpa using escaped
        exact .inl isOther
    · exact .inr (.inr (isQuote quote))
  · rw [written] at member
    cases member
  · rw [written] at member
    exact .inl member

/-- No zero byte is written. -/
theorem zero_not_mem_spliced (operable : Operable parsed options operations)
    (noZero : 0 ∉ parsed.bytes) : 0 ∉ spliced 0 parsed.bytes
      (parsed.definitions.filterMap (replacementAt operations)) := by
  intro member
  rcases mem_spliced member with kept | ⟨replacement, isReplacement, content⟩
  · exact noZero kept
  · obtain ⟨definition, _, replaced⟩ := mem_filterMap.mp isReplacement
    unfold replacementAt at replaced
    split at replaced
    · cases replaced
    · rename_i operation found
      split at replaced
      · obtain rfl := Option.some.inj replaced
        cases content
      · rename_i sets
        obtain ⟨token, _, rfl⟩ := Option.map_eq_some_iff.mp replaced
        obtain ⟨value, valued, noNul⟩ :=
          operable.valued operation (mem_of_find?_eq_some found) sets
        obtain ⟨symbol, isSymbol, zero⟩ := mem_of_mem_bytes content (by decide)
        have nul : symbol = '\x00' := Char.ext (UInt32.toNat_inj.mp zero)
        rw [nul, valued] at isSymbol
        rcases mem_encodedText isSymbol with inValue | escape | single | double
        · exact noNul inValue
        · exact absurd escape (by decide)
        · exact absurd single (by decide)
        · exact absurd double (by decide)

/-- A source that begins with a byte order mark has its three bytes. -/
theorem dropByteOrderMark_unmarked (unmarked : Unmarked (Utf8.bytes text)) :
    dropByteOrderMark text = text := by
  cases text with
  | nil => rfl
  | cons symbol text =>
    by_cases mark : symbol = '\uFEFF'
    · subst mark
      refine absurd ?_ unmarked
      rfl
    · simp [dropByteOrderMark, mark]

/-- The bytes of a text source once its replacements are made. -/
theorem serializeUpdatedSource_text {bytes : List UInt8} {definitions : List ParsedDefinition}
    (whole : parsed = ⟨adapterId.adapter, bytes, definitions, true⟩)
    (operations : List SourceWriteOperation) :
    serializeUpdatedSource parsed operations
      = (operations.mapM (replacementOf parsed.definitions)).map fun replacements =>
        (sortReplacements replacements).foldl (fun result replacement =>
          replacement.apply result) parsed.bytes := by
  rw [whole]
  cases adapterId <;> rfl

/-- A source is left as it is by no operations. -/
theorem writtenBack_nil {bytes : List UInt8}
    (accepted : parseTextAssignments bytes adapterId options = .ok parsed) :
    WrittenBack parsed adapterId options [] := by
  obtain ⟨text, checks, decoded, read, whole⟩ := parseTextAssignments_ok accepted
  have same : parsed.bytes = bytes := by rw [whole]
  refine ⟨bytes, parsed, ?_, accepted, ?_, [], ?_, Nat.zero_le _, by rw [same]; rfl⟩
  · have sorted : sortReplacements [] = [] := List.mergeSort_nil
    rw [serializeUpdatedSource_text whole, ← same]
    show Except.ok ((sortReplacements []).foldl _ parsed.bytes) = _
    rw [sorted]
    rfl
  · have entries : writtenEntry [] = fun definition => some definition.entry := rfl
    rw [entries, List.filterMap_eq_map']
  · have ranges : replacedRange [] = fun _ => none := rfl
    rw [ranges]
    simp

/-- A source without a byte order mark whose comments keep to their lines is written with changes in
the ranges replaced only, and what is written has the definitions that it is to have if and only if
no value is written without quotes right before a comment. -/
theorem written_entries {bytes : List UInt8}
    (accepted : parseTextAssignments bytes adapterId options = .ok parsed)
    (operable : Operable parsed options operations) (unmarked : Unmarked bytes)
    (oneLine : CommentsOneLine bytes parsed.definitions operations) :
    ∃ written, serializeUpdatedSource parsed operations = .ok written ∧
      KeptOutside (parsed.definitions.filterMap (replacedRange operations)) parsed.bytes written ∧
      ((∃ reparsed, parseTextAssignments written adapterId options = .ok reparsed ∧
          reparsed.definitions.map ParsedDefinition.entry =
            parsed.definitions.filterMap (writtenEntry operations)) ↔
        CommentsApart bytes parsed.definitions operations) := by
  obtain ⟨text, checks, decoded, read, whole⟩ := parseTextAssignments_ok accepted
  have source : Utf8.bytes text = bytes := bytes_of_decode decoded
  rw [dropByteOrderMark_unmarked (by rw [source]; exact unmarked)] at read
  have same : parsed.bytes = bytes := by rw [whole]
  obtain ⟨written, rewritten⟩ := parseStatements_rewritten operations read
    (by rw [List.nil_append, source]) oneLine
  have apart : Replacement.Apart 0 bytes.length
      (parsed.definitions.filterMap (replacementAt operations)) := by
    rw [← source]
    exact rewritten.apart
  have spliced : Replacement.spliced 0 bytes
      (parsed.definitions.filterMap (replacementAt operations)) = Utf8.bytes written := by
    rw [← source]
    exact rewritten.spliced
  have serialized : serializeUpdatedSource parsed operations = .ok (Utf8.bytes written) := by
    obtain ⟨replacements, made, perm⟩ := mapM_replacementOf operable
      (parseStatements_keys read).2 (parseStatements_valueToken read)
    have sorted := sortReplacements_eq perm (parseStatements_increasing operations read)
    have result : (sortReplacements replacements).foldl (fun result replacement =>
        replacement.apply result) parsed.bytes = Utf8.bytes written := by
      rw [sorted, List.foldl_reverse, same, ← spliced, ← applyAll_eq_spliced apart]
      rfl
    rw [serializeUpdatedSource_text whole, made]
    exact congrArg Except.ok result
  have rechecks : assertTextBytes (Utf8.bytes written)
      (options.maximumBytes.getD defaultMaximumBytes) = .ok (Utf8.bytes written) := by
    obtain ⟨limits, _, noZero, _, _⟩ := assertTextBytes_ok.mp checks
    have stillNoZero := zero_not_mem_spliced operable (by rw [same]; exact noZero)
    rw [same, spliced] at stillNoZero
    exact assertTextBytes_ok.mpr ⟨limits, operable.fits _ serialized, stillNoZero,
      ⟨written, decode_bytes written⟩, rfl⟩
  refine ⟨Utf8.bytes written, serialized,
    ⟨parsed.definitions.filterMap (replacementAt operations), ?_, ?_, ?_⟩, ?_⟩
  · rw [List.map_filterMap]
    rfl
  · rw [same]
    exact apart
  · rw [same, spliced]
  · rw [parseTextAssignments_entries rechecks (decode_bytes written) adapterId]
    exact rewritten.reads

/-- A source without a byte order mark whose comments keep to their lines is written back exactly
if and only if no value is written without quotes right before a comment. -/
theorem writtenBack_iff {bytes : List UInt8} {adapterId : TextAdapterId} {options : ParseOptions}
    {parsed : ParsedSource} {operations : List SourceWriteOperation}
    (accepted : parseTextAssignments bytes adapterId options = .ok parsed)
    (operable : Operable parsed options operations)
    (unmarked : Unmarked bytes ∨ operations = [])
    (oneLine : CommentsOneLine bytes parsed.definitions operations) :
    WrittenBack parsed adapterId options operations ↔
      CommentsApart bytes parsed.definitions operations := by
  rcases unmarked with unmarked | rfl
  · obtain ⟨written, serialized, kept, entries⟩ := written_entries accepted operable unmarked oneLine
    rw [← entries]
    constructor
    · rintro ⟨other, reparsed, made, again, same, _⟩
      obtain rfl := Except.ok.inj (serialized.symm.trans made)
      exact ⟨reparsed, again, same⟩
    · rintro ⟨reparsed, again, same⟩
      exact ⟨written, reparsed, serialized, again, same, kept⟩
  · refine ⟨fun _ definition _ operation found => ?_, fun _ => writtenBack_nil accepted⟩
    cases found

/-- A value with a comment after it: `A=foo #c`. -/
def commentedSource : List UInt8 := Utf8.bytes ['A', '=', 'f', 'o', 'o', ' ', '#', 'c', '\n']

/-- The definition that `commentedSource` is read as. -/
def commentedParsed : ParsedSource where
  adapterId := .nodeEnvFile
  bytes := commentedSource
  definitions :=
    [{ name := ['A'], value := ['f', 'o', 'o'], valueBytes := Utf8.bytes ['f', 'o', 'o'],
       duplicateOrdinal := 0, byteStart := 0, byteEnd := 9, rawBytes := commentedSource,
       tokens := [⟨.name, 0, 1, ['A']⟩, ⟨.assignment, 1, 2, ['=']⟩,
         ⟨.value, 2, 6, ['f', 'o', 'o', ' ']⟩],
       line := 1 }]
  unchanged := true

def setCommented (value : List Char) : SourceWriteOperation :=
  ⟨['A'], 0, .set, .required, some value, none⟩

theorem operable_setCommented {value : List Char} (noNul : '\x00' ∉ value) {written : List UInt8}
    (made : serializeUpdatedSource commentedParsed [setCommented value] = .ok written)
    (fits : (written.length : Int) ≤ defaultMaximumBytes) :
    Operable commentedParsed ⟨none⟩ [setCommented value] where
  distinct := List.nodup_singleton _
  existing := by
    intro operation member
    obtain rfl := mem_singleton.mp member
    exact ⟨_, .head _, rfl⟩
  deletable := by
    intro operation member deletes
    obtain rfl := mem_singleton.mp member
    cases deletes
  valued := by
    intro operation member _
    obtain rfl := mem_singleton.mp member
    exact ⟨value, rfl, noNul⟩
  fits other again := by
    obtain rfl := Except.ok.inj (made.symm.trans again)
    exact fits

/-- A value with a space is written between quotes, so the comment after it stays a comment. -/
theorem spaced_value_writtenBack :
    WrittenBack commentedParsed .nodeEnvFile ⟨none⟩ [setCommented ['b', ' ', 'r']] := by
  have accepted : parseTextAssignments commentedSource .nodeEnvFile ⟨none⟩ = .ok commentedParsed := by
    decide +kernel
  have made : serializeUpdatedSource commentedParsed [setCommented ['b', ' ', 'r']]
      = .ok (Utf8.bytes ['A', '=', '"', 'b', ' ', 'r', '"', '#', 'c', '\n']) := by decide +kernel
  refine (writtenBack_iff accepted (operable_setCommented (by decide) made (by decide))
    (.inl (by unfold Unmarked; decide)) ?_).mpr ?_
  · intro definition member operation _ _
    obtain rfl := mem_singleton.mp member
    decide +kernel
  · intro definition member operation found _ alone
    have same : operation = setCommented ['b', ' ', 'r'] :=
      mem_singleton.mp (mem_of_find?_eq_some found)
    rw [same] at alone
    exact absurd alone.2 (by decide)

/-- The space before a comment is part of the value replaced, so the comment becomes part of a
value that is written without quotes. -/
theorem plain_value_swallows_comment :
    parseTextAssignments commentedSource .nodeEnvFile ⟨none⟩ = .ok commentedParsed ∧
      Operable commentedParsed ⟨none⟩ [setCommented ['b', 'a', 'r']] ∧
      ¬ WrittenBack commentedParsed .nodeEnvFile ⟨none⟩ [setCommented ['b', 'a', 'r']] := by
  have made : serializeUpdatedSource commentedParsed [setCommented ['b', 'a', 'r']]
      = .ok (Utf8.bytes ['A', '=', 'b', 'a', 'r', '#', 'c', '\n']) := by decide +kernel
  have wrong : (parseTextAssignments (Utf8.bytes ['A', '=', 'b', 'a', 'r', '#', 'c', '\n'])
      .nodeEnvFile ⟨none⟩).toOption.map (fun parsed => parsed.definitions.map ParsedDefinition.entry)
      = some [(['A'], ['b', 'a', 'r', '#', 'c'])] := by decide +kernel
  refine ⟨by decide +kernel, operable_setCommented (by decide) made (by decide), ?_⟩
  rintro ⟨written, reparsed, again, read, entries, _⟩
  obtain rfl := Except.ok.inj (made.symm.trans again)
  rw [read] at wrong
  have found := (Option.some.inj wrong).symm.trans entries
  exact absurd found (by decide)

end NancyMan.Agent
