import NancyMan.Explorer.PageSql

/-!
# The numbers of a page's parameters

The text of a query falls into chunks at its dollar signs: one for each place of a value, and others
where an identifier contains a dollar sign. Replacing the tags of a cursor gives the query with its
places numbered exactly when no identifier before the place of a tag contains the tag.
-/
namespace NancyMan.Explorer

open SqlPiece Numeral
open List (cons_append cons_prefix_cons mem_append mem_cons not_mem_nil)

open TagReplacement (Tags)
open TagReplacement.Tags (Marked Mark Stays tagOf)

variable {ν α : Type}

/-! ## Tags -/

theorem dollar_digits (value : Nat) : '$' ∉ digits value := fun member =>
  absurd (isDigit_of_mem_digits member) (by decide)

theorem digits_inj {first second : Nat} (same : digits first = digits second) : first = second := by
  rw [← Nat.ofDigitChars_ten_toDigits (n := first), ← Nat.ofDigitChars_ten_toDigits (n := second)]
  exact congrArg (fun symbols => Nat.ofDigitChars 10 symbols 0) same

variable {text : List Char} {rest : List Char × List Marked} {numbered : List (SqlPiece Nat)}
  {index : Nat} {symbol : Char}

theorem takeWhile_digits {value : Nat} (starts : digits value ++ ['_', '_'] <+: text) :
    text.takeWhile Char.isDigit = digits value := by
  obtain ⟨more, rfl⟩ := starts
  rw [List.append_assoc, List.takeWhile_append_of_pos fun symbol member =>
    isDigit_of_mem_digits member]
  exact List.append_nil _

/-- No text that starts with a number starts as a tag does. -/
theorem not_tag_digits (index value : Nat) (text : List Char) :
    ¬ tagTail index <+: Numeral.digits value ++ text := by
  intro starts
  have nonempty : Numeral.digits value ≠ [] := Nat.toDigits_ne_nil
  obtain ⟨digit, digits, written⟩ := List.exists_cons_of_ne_nil nonempty
  rw [written, cons_append] at starts
  have same : '_' = digit := (cons_prefix_cons.mp starts).1
  have isDigit : digit.isDigit :=
    isDigit_of_mem_digits (show digit ∈ Numeral.digits value from written ▸ .head _)
  rw [← same] at isDigit
  exact absurd isDigit (by decide)

variable (start : Nat)

/-- The tags of a cursor with the parameters that replace them. -/
def cursorTags : Tags where
  lead := '$'
  tail := tagTail
  fresh index := Numeral.digits (start + index)
  lead_tail index := by
    intro member
    rcases List.mem_append.mp member with word | rest
    · exact absurd word (by decide)
    · rcases List.mem_append.mp rest with digit | underscore
      · exact dollar_digits index digit
      · exact absurd underscore (by decide)
  lead_fresh index := dollar_digits (start + index)
  tail_apart := by
    intro first second text starts starts'
    obtain ⟨more, rfl⟩ := starts
    unfold tagTail at starts'
    rw [List.append_assoc] at starts'
    have rest := (List.prefix_append_right_inj _).mp starts'
    have read := takeWhile_digits rest
    have own := takeWhile_digits
      (List.prefix_append (Numeral.digits first ++ ['_', '_']) more)
    exact digits_inj (own.symm.trans read)
  fresh_apart := not_tag_digits _ _ _

/-! ## Chunks of a query -/

/-- A text before the chunks of the rest of a query. -/
def scanText : List Char → List Char × List Marked → List Char × List Marked
  | [], rest => rest
  | symbol :: text, rest =>
    let scanned := scanText text rest
    if symbol = '$' then ([], (.fixed, scanned.1) :: scanned.2)
    else (symbol :: scanned.1, scanned.2)

/-- The text of a query before its first dollar sign, and its chunks with their marks. -/
def chunksOf : List (SqlPiece Placeholder) → List Char × List Marked
  | [] => ([], [])
  | .words fragment :: pieces =>
    let rest := chunksOf pieces
    (fragment.text ++ rest.1, rest.2)
  | .identifier name :: pieces => scanText (quoteIdentifier name) (chunksOf pieces)
  | .value (.parameter index) :: pieces =>
    let rest := chunksOf pieces
    ([], (.free, Numeral.digits index ++ rest.1) :: rest.2)
  | .value (.cursorTag index) :: pieces =>
    let rest := chunksOf pieces
    ([], (.place index, tagTail index ++ rest.1) :: rest.2)

def chunkText (chunks : List Char × List Marked) : List Char :=
  chunks.1 ++ (cursorTags start).join (chunks.2.map Prod.snd)

def Undollared (chunks : List Char × List Marked) : Prop :=
  '$' ∉ chunks.1 ∧ ∀ marked ∈ chunks.2, '$' ∉ marked.2

/-- A scanned text stands before the rest. -/
theorem chunkText_scanText (text : List Char) (rest : List Char × List Marked) :
    chunkText start (scanText text rest) = text ++ chunkText start rest := by
  induction text with
  | nil => rfl
  | cons symbol text ih =>
    rw [scanText]
    by_cases dollar : symbol = '$'
    · rw [if_pos dollar, dollar, cons_append, ← ih]
      rfl
    · rw [if_neg dollar, cons_append, ← ih]
      rfl

/-- A scanned text leaves no dollar sign in a chunk. -/
theorem undollared_scanText (text : List Char) (free : Undollared rest) :
    Undollared (scanText text rest) := by
  induction text with
  | nil => exact free
  | cons symbol text ih =>
    rw [scanText]
    by_cases dollar : symbol = '$'
    · rw [if_pos dollar]
      refine ⟨not_mem_nil, fun marked member => ?_⟩
      rcases mem_cons.mp member with rfl | later
      · exact ih.1
      · exact ih.2 marked later
    · rw [if_neg dollar]
      refine ⟨fun member => ?_, ih.2⟩
      rcases mem_cons.mp member with same | later
      · exact dollar same.symm
      · exact ih.1 later

/-- The text of a query is that of its chunks. -/
theorem chunkText_chunksOf (pieces : List (SqlPiece Placeholder)) :
    chunkText start (chunksOf pieces) = render placeholderText pieces := by
  induction pieces with
  | nil => rfl
  | cons piece pieces ih =>
    have rest : render placeholderText (piece :: pieces) =
        render placeholderText [piece] ++ render placeholderText pieces := by
      simp [render]
    rw [rest, ← ih]
    cases piece with
    | words fragment => simp [chunksOf, chunkText, render]
    | identifier name =>
      rw [chunksOf, chunkText_scanText]
      simp [render]
    | value place =>
      cases place with
      | parameter index =>
        simp [chunksOf, chunkText, render, placeholderText, parameterText, Tags.join, cursorTags]
      | cursorTag index =>
        simp [chunksOf, chunkText, render, placeholderText, Tags.join, cursorTags]

/-- The chunks of a query have no dollar sign. -/
theorem undollared_chunksOf (pieces : List (SqlPiece Placeholder)) :
    Undollared (chunksOf pieces) := by
  have extended {text : List Char} (plain : '$' ∉ text) {mark : Mark}
      {rest : List Char × List Marked} (free : Undollared rest) :
      Undollared ([], (mark, text ++ rest.1) :: rest.2) := by
    refine ⟨not_mem_nil, fun marked member => ?_⟩
    rcases mem_cons.mp member with rfl | later
    · exact fun found => (mem_append.mp found).elim plain free.1
    · exact free.2 marked later
  induction pieces with
  | nil => exact ⟨not_mem_nil, fun marked member => absurd member not_mem_nil⟩
  | cons piece pieces ih =>
    cases piece with
    | words fragment =>
      exact ⟨fun found => (mem_append.mp found).elim fragment.plain ih.1, ih.2⟩
    | identifier name => exact undollared_scanText _ ih
    | value place =>
      cases place with
      | parameter index => exact extended (dollar_digits index) ih
      | cursorTag index => exact extended ((cursorTags 0).lead_tail index) ih

/-- The tag of a piece. -/
def SqlPiece.tag? : SqlPiece Placeholder → Option Nat
  | .value (.cursorTag index) => some index
  | .value (.parameter _) | .words _ | .identifier _ => none

/-- A scanned text adds chunks that are to stay. -/
theorem mem_scanText {marked : Marked} (member : marked ∈ (scanText text rest).2) :
    marked.1 = .fixed ∨ marked ∈ rest.2 := by
  induction text with
  | nil => exact .inr member
  | cons symbol text ih =>
    rw [scanText] at member
    by_cases dollar : symbol = '$'
    · rw [if_pos dollar] at member
      rcases mem_cons.mp member with rfl | later
      · exact .inl rfl
      · exact ih later
    · rw [if_neg dollar] at member
      exact ih member

/-- A scanned text has no place of a tag. -/
theorem tags_scanText (text : List Char) (rest : List Char × List Marked) :
    (scanText text rest).2.filterMap tagOf = rest.2.filterMap tagOf := by
  induction text with
  | nil => rfl
  | cons symbol text ih =>
    rw [scanText]
    by_cases dollar : symbol = '$'
    · rw [if_pos dollar]
      exact ih
    · rw [if_neg dollar]
      exact ih

/-- The places of tags among the chunks are those of the query. -/
theorem tags_chunksOf (pieces : List (SqlPiece Placeholder)) :
    (chunksOf pieces).2.filterMap tagOf = pieces.filterMap tag? := by
  induction pieces with
  | nil => rfl
  | cons piece pieces ih =>
    cases piece with
    | words fragment => exact ih
    | identifier name => exact (tags_scanText _ _).trans ih
    | value place =>
      cases place with
      | parameter index => exact ih
      | cursorTag index => exact congrArg (index :: ·) ih

variable {pieces : List (SqlPiece Placeholder)} {indices : List Nat}

/-- The chunks of a query are marked by what starts them. -/
theorem wellMarked_chunksOf (inside : ∀ index ∈ pieces.filterMap tag?, index ∈ indices) :
    ∀ marked ∈ (chunksOf pieces).2, (cursorTags start).WellMarked indices marked := by
  induction pieces with
  | nil => exact fun marked member => absurd member not_mem_nil
  | cons piece pieces ih =>
    cases piece with
    | words fragment => exact ih inside
    | identifier name =>
      intro marked member
      rcases mem_scanText member with fixed | later
      · obtain ⟨mark, chunk⟩ := marked
        cases fixed
        trivial
      · exact ih inside marked later
    | value place =>
      cases place with
      | parameter index =>
        intro marked member
        rcases mem_cons.mp member with rfl | later
        · exact fun other => not_tag_digits other index _
        · exact ih inside marked later
      | cursorTag index =>
        have tagged : tag? (.value (.cursorTag index)) = some index := rfl
        rw [List.filterMap_cons_some tagged] at inside
        obtain ⟨first, others⟩ := List.forall_mem_cons.mp inside
        intro marked member
        rcases mem_cons.mp member with rfl | later
        · exact ⟨first, List.prefix_append _ _⟩
        · exact ih others marked later

/-! ## Settled chunks -/

/-- The number of a place. -/
def numberOf : Placeholder → Nat
  | .parameter index => index
  | .cursorTag index => start + index

/-- A scanned text stays when its chunks are settled. -/
theorem settled_scanText (text : List Char) (rest : List Char × List Marked) :
    (scanText text rest).1 ++
        (cursorTags start).join ((scanText text rest).2.map (cursorTags start).settle) =
      text ++ (rest.1 ++ (cursorTags start).join (rest.2.map (cursorTags start).settle)) := by
  induction text with
  | nil => rfl
  | cons symbol text ih =>
    rw [scanText]
    by_cases dollar : symbol = '$'
    · rw [if_pos dollar, dollar, cons_append, ← ih]
      rfl
    · rw [if_neg dollar]
      exact congrArg (symbol :: ·) ih

/-- The settled chunks of a query are the query with its places numbered. -/
theorem settled_chunksOf (pieces : List (SqlPiece Placeholder)) :
    (chunksOf pieces).1 ++
        (cursorTags start).join ((chunksOf pieces).2.map (cursorTags start).settle) =
      render parameterText (pieces.map (map (numberOf start))) := by
  induction pieces with
  | nil => rfl
  | cons piece pieces ih =>
    have rest : render parameterText ((piece :: pieces).map (map (numberOf start))) =
        render parameterText [piece.map (numberOf start)] ++
          render parameterText (pieces.map (map (numberOf start))) := by
      simp [render]
    rw [rest, ← ih]
    cases piece with
    | words fragment => simp [chunksOf, render, map]
    | identifier name =>
      rw [chunksOf, settled_scanText]
      simp [render, map]
    | value place =>
      cases place with
      | parameter index =>
        simp [chunksOf, render, map, numberOf, parameterText, Tags.join, Tags.settle,
          cursorTags]
      | cursorTag index =>
        simp [chunksOf, render, map, numberOf, parameterText, Tags.join, Tags.settle,
          cursorTags]

/-! ## Queries of one shape -/

/-- A text is scanned alike before rests that are alike. -/
theorem stays_scanText (text : List Char) {other : List Char × List Marked}
    (same : rest.1 = other.1 ∧ List.Forall₂ (fun marked after => Stays marked after.2) rest.2 other.2) :
    (scanText text rest).1 = (scanText text other).1 ∧
      List.Forall₂ (fun marked after => Stays marked after.2) (scanText text rest).2
        (scanText text other).2 := by
  induction text with
  | nil => exact same
  | cons symbol text ih =>
    rw [scanText, scanText]
    by_cases dollar : symbol = '$'
    · rw [if_pos dollar, if_pos dollar]
      exact ⟨rfl, .cons ih.1.symm ih.2⟩
    · rw [if_neg dollar, if_neg dollar]
      exact ⟨congrArg (symbol :: ·) ih.1, ih.2⟩

/-- Queries of one shape have the same chunks but for those of their places. -/
theorem stays_chunksOf (same : pieces.map (map fun _ => ()) = numbered.map (map fun _ => ())) :
    (chunksOf pieces).1 = (chunksOf (numbered.map (map .parameter))).1 ∧
      List.Forall₂ (fun marked after => Stays marked after.2) (chunksOf pieces).2
        (chunksOf (numbered.map (map .parameter))).2 := by
  induction pieces generalizing numbered with
  | nil =>
    have empty : numbered = [] := List.map_eq_nil_iff.mp same.symm
    rw [empty]
    exact ⟨rfl, .nil⟩
  | cons piece pieces ih =>
    cases numbered with
    | nil => cases same
    | cons other numbered =>
      obtain ⟨first, rest⟩ := List.cons.inj same
      have later := ih rest
      cases piece with
      | words fragment =>
        cases other with
        | words fragment' =>
          cases first
          exact ⟨congrArg (fragment.text ++ ·) later.1, later.2⟩
        | identifier name => cases first
        | value place => cases first
      | identifier name =>
        cases other with
        | words fragment => cases first
        | identifier name' =>
          cases first
          exact stays_scanText _ later
        | value place => cases first
      | value place =>
        cases other with
        | words fragment => cases first
        | identifier name => cases first
        | value number =>
          cases place with
          | parameter index => exact ⟨rfl, .cons trivial later.2⟩
          | cursorTag index => exact ⟨rfl, .cons trivial later.2⟩

/-! ## Identifiers that contain a tag -/

def cursorTag (index : Nat) : List Char := '$' :: tagTail index

/-- An identifier that contains a tag stands behind the tag's own place. -/
def NamesAvoidTags (indices : List Nat) (pieces : List (SqlPiece Placeholder)) : Prop :=
  ∀ before name after, pieces = before ++ .identifier name :: after →
    ∀ index ∈ indices, cursorTag index <:+: name.toList → .value (.cursorTag index) ∈ before

/-- The name of a piece. -/
def SqlPiece.name? : SqlPiece α → Option String
  | .identifier name => some name
  | .words _ | .value _ => none

/-- Names without a dollar sign avoid every tag. -/
theorem namesAvoidTags_of_plain (indices : List Nat)
    (plain : ∀ name ∈ pieces.filterMap name?, '$' ∉ name.toList) :
    NamesAvoidTags indices pieces := by
  intro before name after same index member inside
  have among : name ∈ pieces.filterMap name? := by
    rw [same]
    exact List.mem_filterMap.mpr
      ⟨.identifier name, List.mem_append_right before List.mem_cons_self, rfl⟩
  exact absurd (inside.subset List.mem_cons_self) (plain name among)

theorem cursorTag_infix_cons :
    cursorTag index <:+: symbol :: text ↔
      (symbol = '$' ∧ tagTail index <+: text) ∨ cursorTag index <:+: text := by
  rw [List.infix_cons_iff, cursorTag, cons_prefix_cons, eq_comm]

theorem cursorTag_infix_other (other : symbol ≠ '$') :
    cursorTag index <:+: symbol :: text ↔ cursorTag index <:+: text := by
  rw [cursorTag_infix_cons]
  exact or_iff_right fun found => other found.1

theorem quote_tagTail (index : Nat) : '"' ∉ tagTail index := by
  intro member
  rcases mem_append.mp member with word | rest
  · exact absurd word (by decide)
  · rcases mem_append.mp rest with digit | underscore
    · exact absurd (isDigit_of_mem_digits digit) (by decide)
    · exact absurd underscore (by decide)

theorem cursorTag_quote (index : Nat) : ¬ cursorTag index <:+: ['"'] := by
  rw [cursorTag_infix_other (by decide)]
  intro inside
  exact List.cons_ne_nil _ _ (List.infix_nil.mp inside)

/-- What has no quote starts a name as it starts the name with its quotes doubled. -/
theorem starts_doubled {start name : List Char} (plain : '"' ∉ start) :
    start <+: doubled name ++ ['"'] ↔ start <+: name := by
  induction name generalizing start with
  | nil =>
    cases start with
    | nil => simp [doubled]
    | cons first start =>
      have other : first ≠ '"' := fun same => plain (same ▸ (.head _))
      simp [doubled, cons_prefix_cons, other]
  | cons symbol name ih =>
    cases start with
    | nil => simp
    | cons first start =>
      have other : first ≠ '"' := fun same => plain (same ▸ (.head _))
      have rest := ih (fun member => plain (List.mem_cons_of_mem first member))
      by_cases quote : symbol = '"'
      · have apart : first ≠ symbol := fun same => other (same.trans quote)
        simp [doubled, quote, cons_prefix_cons, other]
      · have doubled_cons : doubled (symbol :: name) = symbol :: doubled name := by
          simp [doubled, quote]
        rw [doubled_cons, cons_append, cons_prefix_cons, cons_prefix_cons, rest]

/-- A tag is in a quoted name when it is in the name. -/
theorem cursorTag_infix_quoted (index : Nat) (name : String) :
    cursorTag index <:+: quoteIdentifier name ↔ cursorTag index <:+: name.toList := by
  rw [quoteIdentifier, cursorTag_infix_other (by decide)]
  induction name.toList with
  | nil =>
    have nowhere : ¬ cursorTag index <:+: ([] : List Char) := fun inside =>
      List.cons_ne_nil _ _ (List.infix_nil.mp inside)
    exact iff_of_false (cursorTag_quote index) nowhere
  | cons symbol text ih =>
    by_cases quote : symbol = '"'
    · have twice : doubled (symbol :: text) = '"' :: '"' :: doubled text := by
        simp [doubled, quote]
      rw [twice, cons_append, cons_append, cursorTag_infix_other (by decide),
        cursorTag_infix_other (by decide), quote, cursorTag_infix_other (by decide), ih]
    · have once : doubled (symbol :: text) = symbol :: doubled text := by
        simp [doubled, quote]
      rw [once, cons_append, cursorTag_infix_cons, cursorTag_infix_cons, ih,
        starts_doubled (quote_tagTail index)]

/-- A tag starts what follows a dollar sign of a quoted text as it starts that text's next chunk. -/
theorem starts_scanText {start : List Char} (plain : '"' ∉ start) (undollared : '$' ∉ start)
    (body : List Char) (rest : List Char × List Marked) :
    start <+: (scanText (body ++ ['"']) rest).1 ↔ start <+: body ++ ['"'] := by
  induction body generalizing start with
  | nil =>
    have head : (scanText ['"'] rest).1 = '"' :: rest.1 := rfl
    cases start with
    | nil => simp
    | cons first start =>
      have other : first ≠ '"' := fun same => plain (same ▸ (.head _))
      rw [List.nil_append, head]
      simp [cons_prefix_cons, other]
  | cons symbol body ih =>
    cases start with
    | nil => simp
    | cons first start =>
      have other : first ≠ '$' := fun same => undollared (same ▸ (.head _))
      rw [cons_append, scanText]
      by_cases dollar : symbol = '$'
      · rw [if_pos dollar, dollar]
        simp [cons_prefix_cons, other]
      · rw [if_neg dollar, cons_prefix_cons, cons_prefix_cons,
          ih (fun member => plain (List.mem_cons_of_mem first member))
            (fun member => undollared (List.mem_cons_of_mem first member))]

/-- The chunks of a quoted text are clean when no tag is in it. -/
theorem clean_scanText (indices : List Nat) (body : List Char) (rest : List Char × List Marked) :
    (cursorTags start).Clean indices (scanText (body ++ ['"']) rest).2 ↔
      (∀ index ∈ indices, ¬ cursorTag index <:+: body ++ ['"']) ∧
        (cursorTags start).Clean indices rest.2 := by
  induction body with
  | nil =>
    have same : (scanText ([] ++ ['"']) rest).2 = rest.2 := rfl
    rw [same]
    exact (and_iff_right fun index _ => cursorTag_quote index).symm
  | cons symbol body ih =>
    rw [cons_append, scanText]
    by_cases dollar : symbol = '$'
    · have found (index : Nat) : ¬ cursorTag index <:+: symbol :: (body ++ ['"']) ↔
          ¬ tagTail index <+: (scanText (body ++ ['"']) rest).1 ∧
            ¬ cursorTag index <:+: body ++ ['"'] := by
        rw [cursorTag_infix_cons, not_or, starts_scanText (quote_tagTail index)
          ((cursorTags 0).lead_tail index)]
        simp [dollar]
      rw [if_pos dollar]
      show (∀ index ∈ indices, ¬ tagTail index <+: (scanText (body ++ ['"']) rest).1) ∧
        (cursorTags start).Clean indices (scanText (body ++ ['"']) rest).2 ↔ _
      rw [ih]
      constructor
      · rintro ⟨here, later, clean⟩
        exact ⟨fun index member => (found index).mpr ⟨here index member, later index member⟩, clean⟩
      · rintro ⟨avoided, clean⟩
        exact ⟨fun index member => ((found index).mp (avoided index member)).1,
          fun index member => ((found index).mp (avoided index member)).2, clean⟩
    · rw [if_neg dollar]
      simp only [cursorTag_infix_other dollar]
      exact ih

/-- An identifier contains no tag whose place is still to come; behind its place a tag may be part of
any. -/
theorem namesAvoidTags_cons {piece : SqlPiece Placeholder} :
    NamesAvoidTags indices (piece :: pieces) ↔
      (∀ name, piece = .identifier name → ∀ index ∈ indices, ¬ cursorTag index <:+: name.toList) ∧
        NamesAvoidTags (indices.filter fun index => piece.tag? ≠ some index) pieces := by
  have tagged (index : Nat) : piece.tag? = some index ↔ .value (.cursorTag index) = piece := by
    cases piece with
    | value place => cases place <;> simp [tag?, eq_comm]
    | _ => simp [tag?]
  constructor
  · intro avoid
    refine ⟨fun name same index member inside => ?_,
      fun before name after same index member inside => ?_⟩
    · exact not_mem_nil (avoid [] name pieces (by rw [same]; rfl) index member inside)
    · obtain ⟨among, other⟩ := List.mem_filter.mp member
      have found := avoid (piece :: before) name after (by rw [same, cons_append]) index among
        inside
      exact (mem_cons.mp found).resolve_left (mt (tagged index).mpr (of_decide_eq_true other))
  · rintro ⟨here, later⟩ before name after same index member inside
    cases before with
    | nil => exact absurd inside (here name (List.cons.inj same).1 index member)
    | cons first before =>
      obtain ⟨rfl, rest⟩ := List.cons.inj same
      refine mem_cons.mpr (or_iff_not_imp_left.mpr fun other => ?_)
      exact later before name after rest index
        (List.mem_filter.mpr ⟨member, decide_eq_true (mt (tagged index).mp other)⟩) inside

/-- The chunks of a query are clean when its identifiers avoid the tags. -/
theorem clean_chunksOf (distinct : indices.Nodup) (pieces : List (SqlPiece Placeholder)) :
    (cursorTags start).Clean indices (chunksOf pieces).2 ↔ NamesAvoidTags indices pieces := by
  induction pieces generalizing indices with
  | nil =>
    refine iff_of_true trivial fun before name after same => ?_
    cases before <;> cases same
  | cons piece pieces ih =>
    cases piece with
    | words fragment =>
      rw [namesAvoidTags_cons, ← ih (distinct.filter _)]
      simp [tag?, chunksOf]
    | identifier name =>
      have quoted (index : Nat) : cursorTag index <:+: name.toList ↔
          cursorTag index <:+: ('"' :: doubled name.toList) ++ ['"'] :=
        (cursorTag_infix_quoted index name).symm
      rw [namesAvoidTags_cons, ← ih (distinct.filter _)]
      simp only [SqlPiece.identifier.injEq, forall_eq', quoted, tag?, ne_eq, reduceCtorEq,
        not_false_eq_true, decide_true, List.filter_true]
      exact clean_scanText start indices ('"' :: doubled name.toList) (chunksOf pieces)
    | value place =>
      cases place with
      | parameter index =>
        rw [namesAvoidTags_cons, ← ih (distinct.filter _)]
        simp [tag?, chunksOf, TagReplacement.Tags.Clean]
      | cursorTag index =>
        rw [namesAvoidTags_cons, ← ih (distinct.filter _)]
        have others : indices.erase index = indices.filter fun other => index ≠ other := by
          rw [distinct.erase_eq_filter]
          exact List.filter_congr fun other _ => by grind
        simp [tag?, chunksOf, TagReplacement.Tags.Clean, others]

/-! ## The tags of a text -/

/-- The text of numbered pieces is that of their places. -/
theorem render_numbered (pieces : List (SqlPiece Nat)) :
    render placeholderText (pieces.map (map .parameter)) = render parameterText pieces := by
  induction pieces with
  | nil => rfl
  | cons piece pieces ih =>
    have rest : render placeholderText ((piece :: pieces).map (map .parameter)) =
        render placeholderText [piece.map .parameter] ++
          render placeholderText (pieces.map (map .parameter)) := by
      simp [render]
    have rest' : render parameterText (piece :: pieces) =
        render parameterText [piece] ++ render parameterText pieces := by
      simp [render]
    rw [rest, rest', ih]
    cases piece <;> rfl

theorem led_chunksOf (pieces : List (SqlPiece Placeholder)) :
    (cursorTags start).Led ((chunksOf pieces).2.map Prod.snd) := by
  intro chunk member
  obtain ⟨marked, among, rfl⟩ := List.mem_map.mp member
  exact (undollared_chunksOf pieces).2 marked among

theorem replaceTags_render (indices : List Nat) (pieces : List (SqlPiece Placeholder)) :
    (cursorTags start).replaceTags indices (render placeholderText pieces) =
      (chunksOf pieces).1 ++ (cursorTags start).join
        ((cursorTags start).replaceAll indices ((chunksOf pieces).2.map Prod.snd)) := by
  rw [← chunkText_chunksOf start]
  exact Tags.replaceTags_join (undollared_chunksOf pieces).1 indices (led_chunksOf start pieces)

/-- Tags that no identifier before their places contains are replaced at their places. -/
theorem replaceTags_of_avoid (distinct : indices.Nodup) (once : (pieces.filterMap tag?).Nodup)
    (inside : ∀ index ∈ pieces.filterMap tag?, index ∈ indices)
    (avoid : NamesAvoidTags indices pieces) :
    (cursorTags start).replaceTags indices (render placeholderText pieces) =
      render parameterText (pieces.map (map (numberOf start))) := by
  have clean := (clean_chunksOf start distinct pieces).mpr avoid
  have well := wellMarked_chunksOf start inside
  rw [← tags_chunksOf] at once
  rw [replaceTags_render, Tags.replaceAll_of_clean distinct well once clean, settled_chunksOf]

/-- When the text is that of a query of the same shape, no identifier before the place of a tag
contains it. -/
theorem avoid_of_replaceTags (distinct : indices.Nodup) (once : (pieces.filterMap tag?).Nodup)
    (inside : ∀ index ∈ pieces.filterMap tag?, index ∈ indices)
    (same : pieces.map (map fun _ => ()) = numbered.map (map fun _ => ()))
    (text : (cursorTags start).replaceTags indices (render placeholderText pieces) =
      render parameterText numbered) : NamesAvoidTags indices pieces := by
  have well := wellMarked_chunksOf start inside
  rw [← tags_chunksOf] at once
  obtain ⟨-, stays⟩ := stays_chunksOf same
  rw [replaceTags_render, ← render_numbered, ← chunkText_chunksOf start] at text
  have chunks := (Tags.join_inj (undollared_chunksOf pieces).1
    (undollared_chunksOf (numbered.map (map .parameter))).1
    (Tags.led_replaceAll indices (led_chunksOf start pieces))
    (led_chunksOf start (numbered.map (map .parameter))) text).2
  have kept : List.Forall₂ Stays (chunksOf pieces).2 ((cursorTags start).replaceAll indices
      ((chunksOf pieces).2.map Prod.snd)) := by
    rw [chunks]
    exact List.forall₂_map_right_iff.mpr stays
  exact (clean_chunksOf start distinct pieces).mp
    (Tags.clean_of_replaceAll distinct well once kept)

end NancyMan.Explorer
