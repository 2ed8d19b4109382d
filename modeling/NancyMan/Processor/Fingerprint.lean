import NancyMan.Lib.Js
import NancyMan.Processor.Issues

/-!
# Fingerprints

The fingerprint of an event is the hash of the fields that tell its issue, joined by line breaks
that they may have themselves. `fingerprints_group_iff` says exactly when two events have one
fingerprint only where they agree in these fields, and two frames one normal form only where they
differ in positions and white space.
-/
namespace NancyMan.Processor

open List (append_assoc cons_append cons_ne_nil flatMap_append flatMap_cons map_cons mem_cons
  mem_reverse)

/-! ## Frames -/

/-- A symbol of a frame, or a line with a column. -/
abbrev Mark := Option Char

/-- What follows `:\d+:\d+` at the start of a text. -/
def afterPosition : List Char → Option (List Char)
  | ':' :: line =>
    match line.dropWhile Char.isDigit with
    | ':' :: column =>
      if line.head?.any Char.isDigit && column.head?.any Char.isDigit then
        some (column.dropWhile Char.isDigit)
      else none
    | _ => none
  | _ => none

/-- The lines with their columns from the left, and the symbols between them. -/
def marksFrom : Nat → List Char → List Mark
  | 0, _ => []
  | _, [] => []
  | steps + 1, symbol :: rest =>
    match afterPosition (symbol :: rest) with
    | some more => none :: marksFrom steps more
    | none => some symbol :: marksFrom steps rest

/-- What stands for a line with its column. -/
def positionText : List Char := ":<line>:<column>".toList

/-- A mark as it is replaced. -/
def Mark.text : Mark → List Char
  | none => positionText
  | some symbol => [symbol]

/-- Whether a mark is white space. -/
def Mark.isBlank : Mark → Bool
  | none => false
  | some symbol => isWhitespace symbol

section Blanks

variable {α β : Type}

/-- Every run of blanks replaced by one. -/
def squeeze (isBlank : α → Bool) (blank : α) : Bool → List α → List α
  | _, [] => []
  | inRun, head :: rest =>
    if isBlank head then
      if inRun then squeeze isBlank blank true rest else blank :: squeeze isBlank blank true rest
    else head :: squeeze isBlank blank false rest

/-- The items between the blanks at both ends. -/
def strip (isBlank : α → Bool) (items : List α) : List α :=
  ((items.dropWhile isBlank).reverse.dropWhile isBlank).reverse

end Blanks

variable (frame : String)

/-- The marks of a frame. -/
def marks : List Mark := marksFrom frame.toList.length frame.toList

/-- `normalizedFrame`. -/
def normalizedFrame : String :=
  String.ofList (trim (squeeze isWhitespace ' ' false ((marks frame).flatMap Mark.text)))

/-- The marks of a frame up to its white space: two frames that have the same differ in lines,
columns and white space alone. -/
def plainMarks : List Mark :=
  strip Mark.isBlank (squeeze Mark.isBlank (some ' ') false (marks frame))

/-! ## Events -/

variable (event : NormalizedEvent)

/-- `event.route ?? event.tags.jobName`. -/
def routeOrJob : Option String :=
  event.route.or (event.tags.lookup "jobName")

/-- The fields that are not frames. -/
def fingerprintFields : List (List Char) :=
  [event.errorCode.toList, event.service.toList, event.exceptionType.toList,
    ((routeOrJob event).getD "no-route").toList]

/-- The first five frames. -/
def fingerprintFrames : List String :=
  (event.stackFrames.take 5).map normalizedFrame

/-- The parts that are joined. -/
def fingerprintParts : List (List Char) :=
  "v1".toList :: (fingerprintFields event ++ (fingerprintFrames event).map String.toList)

/-- `fingerprintEvent`. -/
def fingerprintEvent (sha256 : String → String) (event : NormalizedEvent) : String :=
  "sha256:" ++ sha256 (String.ofList (['\n'].intercalate (fingerprintParts event)))

/-- Two events agree in what tells an issue. -/
structure SameIssue (left right : NormalizedEvent) : Prop where
  errorCode : left.errorCode = right.errorCode
  service : left.service = right.service
  exceptionType : left.exceptionType = right.exceptionType
  routeOrJob : routeOrJob left = routeOrJob right
  frames : fingerprintFrames left = fingerprintFrames right

/-- The lines of the parts. -/
def fingerprintLines : List (List Char) :=
  (fingerprintParts event).flatMap (List.splitOn '\n')

/-- How many lines each field has. -/
def fieldLines : List Nat :=
  (fingerprintFields event).map fun field => (field.splitOn '\n').length

/-- Two events whose parts have the same lines have them in the same fields, and both have a route
or a job or neither has. -/
def Apart (left right : NormalizedEvent) : Prop :=
  fingerprintLines left = fingerprintLines right →
    fieldLines left = fieldLines right ∧ (routeOrJob left = none ↔ routeOrJob right = none)

/-- The marks on the left have a position where those on the right spell out what stands for one,
and read the same. -/
def SpellsOut (left right : List Mark) : Prop :=
  ∃ front back more, left = front ++ none :: back ∧
    right = front ++ positionText.map some ++ more ∧ back.flatMap Mark.text = more.flatMap Mark.text

/-! ## The normal form of a frame -/

section Blanks

variable {α β : Type} {isBlank : α → Bool} {isBlankMark : β → Bool} {text : β → List α}
  {blank : α}

/-- A blank mark is written as one blank, and another one without any. -/
structure Spells (isBlank : α → Bool) (isBlankMark : β → Bool) (text : β → List α) : Prop where
  blanks : ∀ mark, isBlankMark mark = true → ∃ symbol, text mark = [symbol] ∧
    isBlank symbol = true
  others : ∀ mark, isBlankMark mark = false → ∃ symbol more, text mark = symbol :: more ∧
    ∀ other ∈ symbol :: more, isBlank other = false

/-- Dropping the blanks before or after writing is the same. -/
theorem dropWhile_flatMap (spells : Spells isBlank isBlankMark text) (items : List β) :
    (items.flatMap text).dropWhile isBlank = (items.dropWhile isBlankMark).flatMap text := by
  induction items with
  | nil => rfl
  | cons mark rest ih =>
    cases kind : isBlankMark mark with
    | true =>
      obtain ⟨symbol, own, isBlank⟩ := spells.blanks mark kind
      rw [flatMap_cons, own, List.singleton_append, List.dropWhile_cons_of_pos isBlank,
        List.dropWhile_cons_of_pos kind, ih]
    | false =>
      obtain ⟨symbol, more, own, solid⟩ := spells.others mark kind
      rw [List.dropWhile_cons_of_neg (by simp [kind]), flatMap_cons, own, cons_append,
        List.dropWhile_cons_of_neg (by simp [solid symbol (.head _)])]

/-- Stripping the blanks before or after writing is the same. -/
theorem strip_flatMap (spells : Spells isBlank isBlankMark text) (items : List β) :
    strip isBlank (items.flatMap text) = (strip isBlankMark items).flatMap text := by
  have mirrored : Spells isBlank isBlankMark (List.reverse ∘ text) := by
    refine ⟨fun mark kind => ?_, fun mark kind => ?_⟩
    · obtain ⟨symbol, own, isBlank⟩ := spells.blanks mark kind
      exact ⟨symbol, by simp [own], isBlank⟩
    · obtain ⟨symbol, more, own, solid⟩ := spells.others mark kind
      obtain ⟨last, front, whole⟩ : ∃ last front, (text mark).reverse = last :: front :=
        List.exists_cons_of_ne_nil (by simp [own])
      refine ⟨last, front, whole, fun other member => solid other ?_⟩
      rw [← own, ← mem_reverse, whole]
      exact member
  unfold strip
  rw [dropWhile_flatMap spells, List.reverse_flatMap, dropWhile_flatMap mirrored,
    List.reverse_flatMap]
  congr 1
  funext mark
  simp

/-- Squeezing the blanks before or after writing is the same. -/
theorem squeeze_flatMap (spells : Spells isBlank isBlankMark text) {blankMark : β}
    (single : text blankMark = [blank]) (inRun : Bool) (items : List β) :
    squeeze isBlank blank inRun (items.flatMap text) =
      (squeeze isBlankMark blankMark inRun items).flatMap text := by
  have solids (more rest : List α) (solid : ∀ other ∈ more, isBlank other = false) :
      squeeze isBlank blank false (more ++ rest) = more ++ squeeze isBlank blank false rest := by
    induction more with
    | nil => rfl
    | cons head more ih =>
      obtain ⟨first, others⟩ := List.forall_mem_cons.mp solid
      rw [cons_append, squeeze, first, if_neg (by decide), ih others, cons_append]
  induction items generalizing inRun with
  | nil => rfl
  | cons mark rest ih =>
    cases kind : isBlankMark mark with
    | true =>
      obtain ⟨symbol, own, isBlank⟩ := spells.blanks mark kind
      rw [flatMap_cons, own, List.singleton_append, squeeze, squeeze, isBlank, kind]
      cases inRun <;> simp [ih, single]
    | false =>
      obtain ⟨symbol, more, own, solid⟩ := spells.others mark kind
      obtain ⟨first, others⟩ := List.forall_mem_cons.mp solid
      rw [flatMap_cons, own, cons_append, squeeze, squeeze, first, kind,
        solids more _ others, ih]
      simp [own]

/-- What is squeezed has no blank but the one. -/
theorem of_mem_squeeze {inRun : Bool} {items : List α} {item : α}
    (member : item ∈ squeeze isBlank blank inRun items) :
    item = blank ∨ isBlank item = false := by
  induction items generalizing inRun with
  | nil => cases member
  | cons head rest ih =>
    rw [squeeze] at member
    split at member
    · split at member
      · exact ih member
      · rcases mem_cons.mp member with rfl | later
        · exact .inl rfl
        · exact ih later
    · next solid =>
      rcases mem_cons.mp member with rfl | later
      · exact .inr (Bool.eq_false_iff.mpr solid)
      · exact ih later

end Blanks

/-- The marks are written as `Spells` says. -/
theorem spells_marks : Spells isWhitespace Mark.isBlank Mark.text := by
  refine ⟨fun mark kind => ?_, fun mark kind => ?_⟩
  · cases mark with
    | none => cases kind
    | some symbol => exact ⟨symbol, rfl, kind⟩
  · cases mark with
    | none =>
      have plain := List.any_eq_false.mp (show positionText.any isWhitespace = false from rfl)
      exact ⟨_, _, rfl, fun other among => Bool.eq_false_iff.mpr (plain other among)⟩
    | some symbol => exact ⟨symbol, [], rfl, List.forall_mem_singleton.mpr kind⟩

variable {items left right : List Mark}

/-- A normal form is what its marks are replaced by. -/
theorem normalizedFrame_toList :
    (normalizedFrame frame).toList = (plainMarks frame).flatMap Mark.text := by
  have space : Mark.text (some ' ') = [' '] := rfl
  rw [normalizedFrame, String.toList_ofList, squeeze_flatMap spells_marks space]
  exact strip_flatMap spells_marks _

/-- A normal form has no line break. -/
theorem plain_normalizedFrame : '\n' ∉ (normalizedFrame frame).toList := by
  rw [normalizedFrame, String.toList_ofList, trim, mem_reverse]
  intro member
  have inside := (List.dropWhile_sublist _).subset
    (mem_reverse.mp ((List.dropWhile_sublist _).subset member))
  rcases of_mem_squeeze inside with space | solid
  · exact absurd space (by decide)
  · exact absurd solid (by decide)

/-- Marks that read as a text in which no position starts are its symbols. -/
theorem symbols_of_text {text rest : List Char} (noStart : ∀ later, later <:+ text → later ≠ [] →
      ¬later <+: positionText ∧ ¬positionText <+: later)
    (reads : items.flatMap Mark.text = text ++ rest) :
    ∃ more, items = text.map some ++ more ∧ more.flatMap Mark.text = rest := by
  induction text generalizing items with
  | nil => exact ⟨items, rfl, reads⟩
  | cons symbol text ih =>
    have here := noStart _ (List.suffix_refl _) (cons_ne_nil _ _)
    cases items with
    | nil => cases reads
    | cons mark items =>
      cases mark with
      | none =>
        have both : positionText <+: (symbol :: text) ++ rest := ⟨_, reads⟩
        rcases List.prefix_or_prefix_of_prefix both (List.prefix_append _ _) with starts | starts
        · exact absurd starts here.2
        · exact absurd starts here.1
      | some other =>
        obtain ⟨rfl, later⟩ := List.cons.inj reads
        obtain ⟨more, rfl, same⟩ :=
          ih (fun later suffix => noStart later (suffix.trans (List.suffix_cons ..))) later
        exact ⟨more, rfl, same⟩

/-- Where a position is read against a symbol, what stands for positions is spelled out. -/
theorem spellsOut_of_head {back : List Mark} {symbol : Char}
    (same : (none :: back).flatMap Mark.text = (some symbol :: items).flatMap Mark.text) :
    SpellsOut (none :: back) (some symbol :: items) := by
  have noStart : ∀ later, later <:+ positionText.tail → later ≠ [] →
      ¬later <+: positionText ∧ ¬positionText <+: later := by
    intro later suffix
    have every : ∀ later ∈ positionText.tail.tails, later ≠ [] →
        ¬later <+: positionText ∧ ¬positionText <+: later := by decide
    exact every later ((List.mem_tails ..).mpr suffix)
  obtain ⟨head, reads⟩ := List.cons.inj same
  obtain ⟨more, whole, rest⟩ := symbols_of_text noStart reads.symm
  refine ⟨[], back, more, rfl, ?_, rest.symm⟩
  rw [whole, ← head]
  rfl

/-- Marks that read the same are the same, unless one spells out a position of the other. -/
theorem marks_cases (same : left.flatMap Mark.text = right.flatMap Mark.text) :
    left = right ∨ SpellsOut left right ∨ SpellsOut right left := by
  induction left generalizing right with
  | nil =>
    cases right with
    | nil => exact .inl rfl
    | cons mark right => cases mark <;> cases same
  | cons mark left ih =>
    cases right with
    | nil => cases mark <;> cases same
    | cons other right =>
      have further {left right : List Mark} (spelled : SpellsOut left right) (mark : Mark) :
          SpellsOut (mark :: left) (mark :: right) := by
        obtain ⟨front, back, more, rfl, rfl, reads⟩ := spelled
        exact ⟨mark :: front, back, more, rfl, rfl, reads⟩
      by_cases equal : mark = other
      · subst equal
        have later := List.append_cancel_left same
        rcases ih later with rfl | spelled | spelled
        · exact .inl rfl
        · exact .inr (.inl (further spelled mark))
        · exact .inr (.inr (further spelled mark))
      · cases mark with
        | none =>
          cases other with
          | none => exact absurd rfl equal
          | some symbol => exact .inr (.inl (spellsOut_of_head same))
        | some symbol =>
          cases other with
          | none => exact .inr (.inr (spellsOut_of_head same.symm))
          | some another => exact absurd (congrArg some (List.cons.inj same).1) equal

/-- Marks of which one spells out a position of the other read the same and are not the same. -/
theorem SpellsOut.reads (spelled : SpellsOut left right) :
    left.flatMap Mark.text = right.flatMap Mark.text ∧ left ≠ right := by
  obtain ⟨front, back, more, rfl, rfl, reads⟩ := spelled
  constructor
  · have own : (positionText.map some).flatMap Mark.text = positionText := by decide
    rw [flatMap_append, flatMap_append, flatMap_append, own, flatMap_cons,
      reads, append_assoc]
    rfl
  · intro same
    rw [append_assoc] at same
    cases List.append_cancel_left same

/-- Two frames with one normal form are the same up to positions and white space exactly unless one
spells out a position of the other. -/
theorem normalizedFrame_eq_iff (left right : String) :
    (normalizedFrame left = normalizedFrame right ↔ plainMarks left = plainMarks right) ↔
      ¬SpellsOut (plainMarks left) (plainMarks right) ∧
        ¬SpellsOut (plainMarks right) (plainMarks left) := by
  rw [← String.toList_inj, normalizedFrame_toList, normalizedFrame_toList]
  constructor
  · intro agree
    refine ⟨fun spelled => ?_, fun spelled => ?_⟩
    · exact spelled.reads.2 (agree.mp spelled.reads.1)
    · exact spelled.reads.2 (agree.mp spelled.reads.1.symm).symm
  · rintro ⟨forth, back⟩
    refine ⟨fun same => ?_, fun same => by rw [same]⟩
    exact (marks_cases same).resolve_right fun spelled => spelled.elim forth back

/-! ## The lines of an event -/

/-- The lines of joined parts. -/
theorem splitOn_intercalate {parts : List (List Char)} (filled : parts ≠ []) :
    (['\n'].intercalate parts).splitOn '\n' = parts.flatMap (List.splitOn '\n') := by
  induction parts with
  | nil => exact absurd rfl filled
  | cons part rest ih =>
    cases rest with
    | nil => simp
    | cons next rest =>
      rw [List.intercalate_cons_of_ne_nil (cons_ne_nil _ _), append_assoc,
        List.singleton_append, List.splitOn_append_cons_self, ih (cons_ne_nil _ _)]
      rfl

/-- Fields with the same lines, as many in each, are the same. -/
theorem fields_of_lines {left right : List (List Char)} {more rest : List (List Char)}
    (counts : (left.map fun field => (field.splitOn '\n').length) =
      right.map fun field => (field.splitOn '\n').length)
    (lines : left.flatMap (List.splitOn '\n') ++ more = right.flatMap (List.splitOn '\n') ++ rest) :
    left = right ∧ more = rest := by
  induction left generalizing right with
  | nil =>
    obtain rfl := List.map_eq_nil_iff.mp counts.symm
    exact ⟨rfl, lines⟩
  | cons field left ih =>
    cases right with
    | nil => cases counts
    | cons other right =>
      obtain ⟨count, counts⟩ := List.cons.inj counts
      rw [flatMap_cons, flatMap_cons, append_assoc, append_assoc] at lines
      obtain ⟨own, lines⟩ := List.append_inj lines count
      obtain ⟨rfl, later⟩ := ih counts lines
      have joined := congrArg ['\n'].intercalate own
      rw [List.intercalate_splitOn, List.intercalate_splitOn] at joined
      exact ⟨by rw [joined], later⟩

/-- The frames are lines of their own. -/
theorem fingerprintLines_eq (event : NormalizedEvent) :
    fingerprintLines event = "v1".toList ::
      ((fingerprintFields event).flatMap (List.splitOn '\n') ++
        (fingerprintFrames event).map String.toList) := by
  have frames : ((fingerprintFrames event).map String.toList).flatMap (List.splitOn '\n') =
      (fingerprintFrames event).map String.toList := by
    unfold fingerprintFrames
    induction event.stackFrames.take 5 with
    | nil => rfl
    | cons frame rest ih =>
      rw [map_cons, map_cons, flatMap_cons, ih,
        List.splitOn_eq_singleton (plain_normalizedFrame frame)]
      rfl
  have version : "v1".toList.splitOn '\n' = ["v1".toList] := by decide
  rw [fingerprintLines, fingerprintParts, flatMap_cons, version, flatMap_append, frames]
  rfl

/-- Under an injective hash two events have one fingerprint exactly where their parts have the same
lines. -/
theorem fingerprintEvent_eq_iff {sha256 : String → String} (injective : Function.Injective sha256)
    (left right : NormalizedEvent) :
    fingerprintEvent sha256 left = fingerprintEvent sha256 right ↔
      fingerprintLines left = fingerprintLines right := by
  have lines (event : NormalizedEvent) : fingerprintLines event =
      (['\n'].intercalate (fingerprintParts event)).splitOn '\n' :=
    (splitOn_intercalate (cons_ne_nil _ _)).symm
  rw [lines, lines]
  constructor
  · intro same
    have text := injective (String.append_right_inj _ |>.mp same)
    rw [String.ofList_injective text]
  · intro same
    have text := congrArg ['\n'].intercalate same
    rw [List.intercalate_splitOn, List.intercalate_splitOn] at text
    rw [fingerprintEvent, fingerprintEvent, text]

/-- Two events of one issue have the same fields. -/
theorem SameIssue.fields {left right : NormalizedEvent} (same : SameIssue left right) :
    fingerprintFields left = fingerprintFields right := by
  rw [fingerprintFields, same.errorCode, same.service, same.exceptionType, same.routeOrJob]
  rfl

/-- Two events have one fingerprint only where they are of one issue exactly when their lines are
apart, and two frames one normal form only where they are the same up to positions and white space
exactly unless one spells out a position of the other. -/
theorem fingerprints_group_iff {sha256 : String → String}
    (injective : Function.Injective sha256) :
    (∀ left right, (fingerprintEvent sha256 left = fingerprintEvent sha256 right ↔
      SameIssue left right) ↔ Apart left right) ∧
    ∀ left right, (normalizedFrame left = normalizedFrame right ↔
        plainMarks left = plainMarks right) ↔
      ¬SpellsOut (plainMarks left) (plainMarks right) ∧
        ¬SpellsOut (plainMarks right) (plainMarks left) := by
  refine ⟨fun left right => ?_, normalizedFrame_eq_iff⟩
  rw [fingerprintEvent_eq_iff injective]
  constructor
  · intro agree lines
    have same := agree.mp lines
    rw [fieldLines, same.fields, same.routeOrJob]
    exact ⟨rfl, .rfl⟩
  · intro apart
    constructor
    · intro lines
      obtain ⟨counts, routes⟩ := apart lines
      rw [fingerprintLines_eq, fingerprintLines_eq] at lines
      obtain ⟨fields, frames⟩ := fields_of_lines counts (List.cons.inj lines).2
      simp only [fingerprintFields, List.cons.injEq, String.toList_inj, and_true] at fields
      obtain ⟨code, service, exception, route⟩ := fields
      refine ⟨code, service, exception, ?_, ?_⟩
      · cases first : routeOrJob left with
        | none => rw [routes.mp first]
        | some own =>
          cases second : routeOrJob right with
          | none => rw [routes.mpr second] at first; cases first
          | some other =>
            rw [first, second] at route
            exact congrArg some route
      · exact List.map_injective_iff.mpr (fun _ _ same => String.toList_injective same) frames
    · intro same
      rw [fingerprintLines_eq, fingerprintLines_eq, same.fields, same.frames]

/-- A page that fails to load. -/
def studentLoad (frames : List String) : NormalizedEvent where
  eventId := "EVT_01K3ZABCDEF0123456789ABCDE"
  occurredAt := 1787385600000
  receivedAt := 1787385601000
  errorCode := "STUDENT_LOAD_FAILED"
  exceptionType := "TypeError"
  service := "edutrack-web"
  ingestClientId := none
  route := some "/students"
  userRef := none
  tags := []
  stackFrames := frames
  stackTrace := none

/-- A bijection that gives the text of the failing page its digest. -/
def studentLoadHash : Equiv.Perm String :=
  Equiv.swap
    ("v1\nSTUDENT_LOAD_FAILED\nedutrack-web\nTypeError\n/students\n" ++
      "loadStudents (src/pages/Students.tsx:<line>:<column>)")
    "724b540bc186dad77d3f47c6731887bf73ce7a279935c91ba2394ab766cc24a8"

/-- The page has one fingerprint at two lines. -/
theorem fingerprints_group_iff_studentLoad :
    fingerprintEvent studentLoadHash
        (studentLoad ["loadStudents (src/pages/Students.tsx:42:9)"]) =
      fingerprintEvent studentLoadHash
        (studentLoad ["loadStudents (src/pages/Students.tsx:57:13)"]) := by
  refine (((fingerprints_group_iff studentLoadHash.injective).1 _ _).mpr ?_).mpr ?_
  · exact fun _ => ⟨rfl, .rfl⟩
  · exact ⟨rfl, rfl, rfl, rfl, by decide +kernel⟩

/-- A code with a line break takes a line from the service. -/
theorem line_break_moved :
    fingerprintEvent id { studentLoad [] with errorCode := "SAVE\nAPI", service := "web" } =
        fingerprintEvent id { studentLoad [] with errorCode := "SAVE", service := "API\nweb" } ∧
      ¬SameIssue { studentLoad [] with errorCode := "SAVE\nAPI", service := "web" }
        { studentLoad [] with errorCode := "SAVE", service := "API\nweb" } := by
  refine ⟨by decide +kernel, fun same => ?_⟩
  exact absurd same.errorCode (by decide)

end NancyMan.Processor
