import NancyMan.Explorer.Pagination
import NancyMan.Explorer.SchemaReader

/-!
# What a response depends on

Two contents of a database agree when their rows pair up so that each pair has the same values in
the columns that are shown, and the same masks in the columns that are masked; blocked columns are
free. A condition, the order, the cells and the tokens each read columns of which the checks let
none be blocked, so a request is answered alike in both, as long as the masked columns that it
compares or puts into a token agree on their values.
-/
namespace NancyMan.Explorer

open SqlServer
open List (all_eq_true mem_append mem_append_left mem_cons mem_filter mem_map not_mem_nil)

variable {ν V : Type}

def isMasked (piiMode : PiiMode) (column : DatabaseExplorerColumn) : Bool :=
  column.classification = .pii && piiMode = .masked

/-- What a masked column shows of a stored value; a value that the driver returns as `null` is
shown as such. -/
def shownMask (worker : Worker ν V) (column : DatabaseExplorerColumn) (value : V) : Option String :=
  if isNullValue (worker.server.fetch value) then none
  else some (worker.cells.maskPiiValue (worker.server.fetch value) (maskHint column.name))

/-- Two stored values have one mask, where NULL has its own. -/
def SameMask (worker : Worker ν V) (column : DatabaseExplorerColumn) (left right : Option V) :
    Prop :=
  left.map (shownMask worker column) = right.map (shownMask worker column)

/-- Two rows agree on all columns that are not blocked: on the mask where a column is masked and
not among some that must be equal, and otherwise on the value. -/
def RowsAgree (worker : Worker ν V) (relation : DatabaseExplorerRelation) (piiMode : PiiMode)
    (exact : List String) (left right : Row V) : Prop :=
  ∀ column ∈ relation.columns, column.classification ≠ .blocked →
    if isMasked piiMode column ∧ column.name ∉ exact then
      SameMask worker column (left column.name) (right column.name)
    else left column.name = right column.name

/-- Two contents of a database that have the same schema and agree on the requested relation. -/
structure Indistinguishable (worker : Worker ν V) (snapshot : DatabaseExplorerSchemaSnapshot)
    (request : DatabaseRowsRequest) (exact : DatabaseExplorerRelation → List String)
    (database database' : Database V) : Prop where
  checksum : database.checksum = database'.checksum
  dataType : (database.table request.schema request.relation).dataType =
    (database'.table request.schema request.relation).dataType
  rows : ∀ relation, findRelation snapshot request.schema request.relation = .ok relation →
    List.Forall₂ (RowsAgree worker relation request.piiMode (exact relation))
      (database.table request.schema request.relation).rows
      (database'.table request.schema request.relation).rows

def comparesValue (filter : FilterPredicate) : Bool :=
  filter.operator ≠ .isNull && filter.operator ≠ .isNotNull

/-- The columns whose values a request compares or its tokens carry: those of its filters with a
value, of its trusted equalities and of its order, and those of the row references. -/
def comparedColumns (snapshot : DatabaseExplorerSchemaSnapshot)
    (trusted : List (TrustedEquality ν)) (request : DatabaseRowsRequest)
    (relation : DatabaseExplorerRelation) : List String :=
  (request.filters.filter comparesValue).map FilterPredicate.column ++
    trusted.map TrustedEquality.column ++ (request.sort.map SortDefinition.column).toList ++
    (getRowRefColumns request.schema request.relation relation.columns relation.paginationKey
      snapshot.edges).getD []

/-! ## Conditions -/

/-- Two rows look the same to a condition: it compares columns on which they are equal, and asks
of others only whether they are NULL. -/
def Alike (left right : Row V) : Predicate → Prop
  | .isNull column | .isNotNull column => (left column).isNone = (right column).isNone
  | .compare column _ _ | .contains column _ => left column = right column
  | .and first second | .or first second => Alike left right first ∧ Alike left right second
  | .never => True

/-- A condition is true alike of rows that look the same to it. -/
theorem truth_alike [LinearOrder V] (server : SqlServer ν V) (dataType : String → String)
    (lookup : Placeholder → Option (PgValue ν)) {left right : Row V} {predicate : Predicate}
    (alike : Alike left right predicate) :
    server.truth dataType lookup left predicate = server.truth dataType lookup right predicate := by
  induction predicate with
  | isNull column =>
    rw [truth, truth, alike]
  | isNotNull column =>
    rw [truth, truth, ← Option.not_isNone, ← Option.not_isNone, alike]
  | compare column operator place =>
    rw [truth, truth, alike]
  | contains column place =>
    rw [truth, truth, alike]
  | and first second one two =>
    rw [truth, truth, one alike.1, two alike.2]
  | or first second one two =>
    rw [truth, truth, one alike.1, two alike.2]
  | never => rfl

/-- Numbering the tags of a condition leaves its columns. -/
theorem alike_numberTags {left right : Row V} (count start : Nat) {predicate : Predicate} :
    Alike left right (numberTags count start predicate) ↔ Alike left right predicate := by
  induction predicate with
  | and first second one two => exact and_congr one two
  | or first second one two => exact and_congr one two
  | isNull column => rfl
  | isNotNull column => rfl
  | compare column operator place => rfl
  | contains column place => rfl
  | never => rfl

/-- Rows that look the same to some conditions look the same to their conjunction. -/
theorem alike_conj {left right : Row V} {first : Predicate} {rest : List Predicate}
    (all : ∀ predicate ∈ first :: rest, Alike left right predicate) :
    Alike left right (.conj first rest) := by
  induction rest generalizing first with
  | nil => exact all first (.head _)
  | cons second rest ih =>
    exact ⟨all first (.head _),
      ih fun predicate member => all predicate (.tail _ member)⟩

/-- Rows that look the same to some conditions look the same to their disjunction. -/
theorem alike_disj {left right : Row V} {first : Predicate} {rest : List Predicate}
    (all : ∀ predicate ∈ first :: rest, Alike left right predicate) :
    Alike left right (.disj first rest) := by
  induction rest generalizing first with
  | nil => exact all first (.head _)
  | cons second rest ih =>
    exact ⟨all first (.head _),
      ih fun predicate member => all predicate (.tail _ member)⟩

/-! ## The condition of a cursor -/

section Keyset

variable {left right : Row V}

/-- The ties of a row to components read the components' columns. -/
theorem alike_keysetPrefix {keys : List (CursorKey ν)} (values : List (PgValue ν))
    (equal : ∀ key ∈ keys, left key.column = right key.column) :
    ∀ predicate ∈ (keysetPrefix keys values).1, Alike left right predicate := by
  induction keys generalizing values with
  | nil =>
    intro predicate member
    cases member
  | cons key keys ih =>
    have here := equal key (.head _)
    have later := fun other member => equal other (.tail _ member)
    intro predicate member
    rw [keysetPrefix] at member
    split at member
    · rcases mem_cons.mp member with rfl | rest
      · exact congrArg Option.isNone here
      · exact ih values later predicate rest
    · rcases mem_cons.mp member with rfl | rest
      · exact here
      · exact ih _ later predicate rest

/-- The terms of components read the components' columns. -/
theorem alike_keysetTerms (operator : ComparisonOperator) {keys : List (CursorKey ν)}
    (done : List (CursorKey ν)) (values : List (PgValue ν))
    (equal : ∀ key ∈ done ++ keys, left key.column = right key.column) :
    ∀ predicate ∈ (keysetTerms operator done keys values).1, Alike left right predicate := by
  induction keys generalizing done values with
  | nil =>
    intro predicate member
    cases member
  | cons key keys ih =>
    have here := equal key (by simp)
    have before : ∀ other ∈ done, left other.column = right other.column :=
      fun other member => equal other (mem_append_left _ member)
    have later : ∀ other ∈ (done ++ [key]) ++ keys, left other.column = right other.column := by
      simpa using equal
    intro predicate member
    rw [keysetTerms] at member
    split at member
    · exact ih _ _ later predicate member
    · rcases mem_cons.mp member with rfl | rest
      · have comparison : Alike left right
            (keysetComparison operator key.column (keysetPrefix done values).2.length) :=
          ⟨here, congrArg Option.isNone here⟩
        have ties := alike_keysetPrefix values before
        cases tied : (keysetPrefix done values).1 with
        | nil => exact comparison
        | cons first others =>
          rw [tied] at ties
          refine alike_conj fun predicate member => ?_
          rcases mem_cons.mp member with rfl | member
          · exact ties _ (.head _)
          · rcases mem_append.mp member with other | last
            · exact ties _ (.tail _ other)
            · rw [List.mem_singleton.mp last]
              exact comparison
      · exact ih _ _ later predicate rest

/-- The condition of a cursor reads the columns of its key. -/
theorem alike_buildKeysetCondition {keys : List (CursorKey ν)} (direction : Direction)
    (equal : ∀ key ∈ keys, left key.column = right key.column) :
    Alike left right (buildKeysetCondition keys direction).predicate := by
  have terms := alike_keysetTerms (keysetOperator direction) [] []
    (by simpa using equal)
  unfold buildKeysetCondition
  dsimp only
  cases found : (keysetTerms (keysetOperator direction) [] keys []).1 with
  | nil => trivial
  | cons first others =>
    rw [found] at terms
    exact alike_disj terms

end Keyset

/-! ## The conditions of a request -/

section Rows

variable {worker : Worker ν V} {relation : DatabaseExplorerRelation} {piiMode : PiiMode}
  {exact : List String} {left right : Row V}
  (agree : RowsAgree worker relation piiMode exact left right)

include agree

theorem RowsAgree.equal {column : DatabaseExplorerColumn} (member : column ∈ relation.columns)
    (shown : column.classification ≠ .blocked) (listed : column.name ∈ exact) :
    left column.name = right column.name := by
  have here := agree column member shown
  rwa [if_neg fun masked => masked.2 listed] at here

/-- Rows that agree are NULL on the same shown columns. -/
theorem RowsAgree.isNone {column : DatabaseExplorerColumn} (member : column ∈ relation.columns)
    (shown : column.classification ≠ .blocked) :
    (left column.name).isNone = (right column.name).isNone := by
  have here := agree column member shown
  split at here
  · rw [SameMask] at here
    have absent := congrArg Option.isNone here
    rwa [Option.isNone_map, Option.isNone_map] at absent
  · rw [here]

omit agree in
/-- A column that `columnMap` finds is one of the relation's, of that name. -/
theorem mappedColumn_mem {columns : List DatabaseExplorerColumn} {name : String}
    {column : DatabaseExplorerColumn} (found : mappedColumn columns name = some column) :
    column ∈ columns ∧ column.name = name := by
  constructor
  · exact List.mem_reverse.mp (List.mem_of_find?_eq_some found)
  · simpa using List.find?_some found

/-- A filter's condition reads a column that is shown, and compares it only when it is among
those that must be equal. -/
theorem buildFilter_alike {filter : FilterPredicate} {paramIndex : Nat}
    {built : Predicate × Option (PgValue ν)}
    (succeeds : buildFilter relation.columns filter paramIndex = .ok built)
    (listed : comparesValue filter → filter.column ∈ exact) : Alike left right built.1 := by
  unfold buildFilter at succeeds
  split at succeeds
  · cases succeeds
  · next column found =>
    obtain ⟨member, named⟩ := mappedColumn_mem found
    split_ifs at succeeds with hidden unsupported absent present
    · cases succeeds
      rw [Bool.or_eq_true, not_or, decide_eq_true_eq] at hidden
      exact agree.isNone member hidden.1
    · cases succeeds
      rw [Bool.or_eq_true, not_or, decide_eq_true_eq] at hidden
      exact agree.isNone member hidden.1
    · rw [Bool.or_eq_true, not_or, decide_eq_true_eq] at hidden
      have equal : left column.name = right column.name :=
        agree.equal member hidden.1 (named ▸ listed (by simp [comparesValue, absent, present]))
      split at succeeds
      · cases succeeds
      · split_ifs at succeeds
        cases succeeds
        cases operator : filter.operator with
        | isNull => exact absurd operator absent
        | isNotNull => exact absurd operator present
        | eq => exact equal
        | neq => exact equal
        | contains => exact equal
        | gt => exact equal
        | gte => exact equal
        | lt => exact equal
        | lte => exact equal

/-- The conditions of filters read shown columns, and compare those that must be equal. -/
theorem buildFilters_alike {filters : List FilterPredicate} {paramIndex : Nat}
    {built : List Predicate × List (PgValue ν)}
    (succeeds : buildFilters relation.columns filters paramIndex = .ok built)
    (listed : ∀ filter ∈ filters, comparesValue filter → filter.column ∈ exact) :
    ∀ predicate ∈ built.1, Alike left right predicate := by
  induction filters generalizing paramIndex built with
  | nil =>
    cases succeeds
    intro predicate member
    cases member
  | cons filter filters ih =>
    rw [buildFilters] at succeeds
    split at succeeds
    · cases succeeds
    · next predicate value first =>
      split at succeeds
      · cases succeeds
      · next predicates values rest =>
        cases succeeds
        intro other member
        rcases mem_cons.mp member with rfl | later
        · exact buildFilter_alike agree first (listed filter (.head _))
        · exact ih rest (fun next inside => listed next (.tail _ inside)) other later

/-- The conditions of trusted equalities compare shown columns that must be equal. -/
theorem buildTrusted_alike {equalities : List (TrustedEquality ν)} {paramIndex : Nat}
    {built : List Predicate × List (PgValue ν)}
    (succeeds : buildTrusted relation.columns equalities paramIndex = .ok built)
    (listed : ∀ equality ∈ equalities, equality.column ∈ exact) :
    ∀ predicate ∈ built.1, Alike left right predicate := by
  induction equalities generalizing paramIndex built with
  | nil =>
    cases succeeds
    intro predicate member
    cases member
  | cons equality equalities ih =>
    rw [buildTrusted] at succeeds
    split at succeeds
    · cases succeeds
    · next column found =>
      have named : column.name = equality.column := by simpa using List.find?_some found
      split_ifs at succeeds with hidden
      rw [Bool.or_eq_true, not_or, decide_eq_true_eq] at hidden
      have equal : left column.name = right column.name :=
        agree.equal (List.mem_of_find?_eq_some found) hidden.1
          (named ▸ listed equality (.head _))
      split at succeeds
      · cases succeeds
      · split at succeeds
        · cases succeeds
        · next predicates values rest =>
          cases succeeds
          intro other member
          rcases mem_cons.mp member with rfl | later
          · exact equal
          · exact ih rest (fun next inside => listed next (.tail _ inside)) other later

omit agree

end Rows

/-! ## The columns of the order and of the tokens -/

def IsShown (relation : DatabaseExplorerRelation) (name : String) : Prop :=
  ∃ column ∈ relation.columns, column.name = name ∧ column.classification ≠ .blocked

theorem isShown_of_selectable {relation : DatabaseExplorerRelation}
    {column : DatabaseExplorerColumn} (member : column ∈ selectableColumns relation) :
    IsShown relation column.name := by
  obtain ⟨listed, kept⟩ := mem_filter.mp member
  rw [Bool.and_eq_true, decide_eq_true_eq] at kept
  exact ⟨column, listed, rfl, kept.2⟩

/-- Adding columns to a list keeps those that it has, and adds only allowed ones. -/
theorem mem_addColumns {allowed : List String} {added columns : List String} {name : String} :
    (name ∈ columns → name ∈ added.foldl (fun columns column =>
      if allowed.contains column && !columns.contains column then columns ++ [column]
      else columns) columns) ∧
    (name ∈ added.foldl (fun columns column =>
      if allowed.contains column && !columns.contains column then columns ++ [column]
      else columns) columns → name ∈ columns ∨ name ∈ allowed) := by
  induction added generalizing columns with
  | nil => exact ⟨id, .inl⟩
  | cons column added ih =>
    rw [List.foldl_cons]
    split
    · next fresh =>
      have permitted : column ∈ allowed := by
        rw [Bool.and_eq_true, List.contains_iff_mem] at fresh
        exact fresh.1
      refine ⟨fun member => ih.1 (mem_append_left _ member), fun member => ?_⟩
      rcases ih.2 member with known | free
      · rcases mem_append.mp known with old | new
        · exact .inl old
        · rw [List.mem_singleton.mp new]
          exact .inr permitted
      · exact .inr free
    · exact ih

/-- The columns of a row reference hold the pagination key, and each of them is shown. -/
theorem getRowRefColumns_shown {schema name : String} {relation : DatabaseExplorerRelation}
    {edges : List DatabaseRelationEdge} {columns : List String}
    (found : getRowRefColumns schema name relation.columns relation.paginationKey edges =
      some columns) :
    (∀ key, relation.paginationKey = some key → ∀ column ∈ key, column ∈ columns) ∧
      ∀ column ∈ columns, IsShown relation column := by
  have shown : ∀ column ∈ (relation.columns.filter fun column =>
      column.selectable && column.classification ≠ .blocked).map DatabaseExplorerColumn.name,
      IsShown relation column := by
    intro column member
    obtain ⟨entry, selectable, rfl⟩ := mem_map.mp member
    exact isShown_of_selectable selectable
  unfold getRowRefColumns at found
  split at found
  · cases found
  · cases found
  · next key stored =>
    dsimp only at found
    split at found
    · next all =>
      cases found
      constructor
      · intro other same column member
        cases stored.symm.trans same
        exact mem_addColumns.1 member
      · intro column member
        rcases mem_addColumns.2 member with keyed | allowed
        · exact shown column (List.contains_iff_mem.mp (all_eq_true.mp all column keyed))
        · exact shown column allowed
    · cases found

/-- A relation that keeps to the policy has row references when it has a pagination key. -/
theorem getRowRefColumns_of_key {relation : DatabaseExplorerRelation} (kept : PolicyKept relation)
    (schema name : String) (edges : List DatabaseRelationEdge) {key : List String}
    (keyed : relation.paginationKey = some key) (nonempty : key ≠ []) :
    (getRowRefColumns schema name relation.columns relation.paginationKey edges).isSome := by
  cases key with
  | nil => exact absurd rfl nonempty
  | cons first others =>
    have allowed : (first :: others).all ((relation.columns.filter fun column =>
        column.selectable && column.classification ≠ .blocked).map
          DatabaseExplorerColumn.name).contains = true := by
      rw [all_eq_true]
      intro column member
      obtain ⟨entry, listed, named, shown⟩ := kept.keyed _ keyed column member
      rw [List.contains_iff_mem]
      refine mem_map.mpr ⟨entry, mem_filter.mpr ⟨listed, ?_⟩, named⟩
      rw [(kept.selectable entry listed).mpr shown]
      simpa using shown
    unfold getRowRefColumns
    rw [keyed]
    dsimp only
    rw [if_pos allowed]
    rfl

section Columns

variable {snapshot : DatabaseExplorerSchemaSnapshot} {trusted : List (TrustedEquality ν)}
  {request : DatabaseRowsRequest} {relation : DatabaseExplorerRelation}

theorem rowRef_compared {columns : List String}
    (found : getRowRefColumns request.schema request.relation relation.columns
      relation.paginationKey snapshot.edges = some columns) :
    ∀ column ∈ columns, column ∈ comparedColumns snapshot trusted request relation := by
  intro column member
  rw [comparedColumns, found]
  exact List.mem_append_right _ member

/-- A column of the pagination key is shown, and among those that must be equal. -/
theorem key_compared (kept : PolicyKept relation) {key : List String}
    (keyed : relation.paginationKey = some key) {column : String} (member : column ∈ key) :
    IsShown relation column ∧ column ∈ comparedColumns snapshot trusted request relation := by
  obtain ⟨columns, found⟩ := Option.isSome_iff_exists.mp
    (getRowRefColumns_of_key kept request.schema request.relation snapshot.edges keyed
      (List.ne_nil_of_mem member))
  obtain ⟨holds, shown⟩ := getRowRefColumns_shown found
  have carried := holds key keyed column member
  exact ⟨shown column carried, rowRef_compared found column carried⟩

/-- The sort column is shown, and among those that must be equal. -/
theorem sort_compared (sorted : ∀ sort, request.sort = some sort →
      ∃ column ∈ selectableColumns relation, column.name = sort.column) {column : String}
    (member : request.sort.map SortDefinition.column = some column) :
    IsShown relation column ∧ column ∈ comparedColumns snapshot trusted request relation := by
  obtain ⟨sort, requested, rfl⟩ := Option.map_eq_some_iff.mp member
  obtain ⟨entry, selectable, named⟩ := sorted sort requested
  refine ⟨named ▸ isShown_of_selectable selectable, ?_⟩
  rw [comparedColumns, member]
  exact mem_append_left _ (List.mem_append_right _ (.head _))

end Columns

/-! ## The rows of a query -/

/-- Two returned rows are shown alike: they have the same cells, and the same values in the shown
columns that must be equal. -/
structure ShownAlike [JsonRuntime ν] (worker : Worker ν V) (relation : DatabaseExplorerRelation)
    (piiMode : PiiMode) (exact : List String) (left right : ResultRow ν) : Prop where
  cells : encodeCells worker relation piiMode left = encodeCells worker relation piiMode right
  equal : ∀ column ∈ exact, IsShown relation column → left column = right column

section Answers

variable {worker : Worker ν V} {relation : DatabaseExplorerRelation} {piiMode : PiiMode}
  {exact : List String}

theorem RowsAgree.equal_of_isShown {left right : Row V}
    (agree : RowsAgree worker relation piiMode exact left right) {name : String}
    (shown : IsShown relation name) (listed : name ∈ exact) : left name = right name := by
  obtain ⟨column, member, rfl, visible⟩ := shown
  exact agree.equal member visible listed

variable [JsonRuntime ν]

/-- What a masked column shows of a returned value. -/
theorem encodeCell_masked (cells : CellRuntime ν) {column : DatabaseExplorerColumn}
    (masked : isMasked piiMode column) (value : PgValue ν) :
    encodeCell cells column value piiMode =
      if isNullValue value then some (.value .null)
      else some (.masked (cells.maskPiiValue value (maskHint column.name))) := by
  rw [isMasked, Bool.and_eq_true, decide_eq_true_eq, decide_eq_true_eq] at masked
  obtain ⟨personal, mode⟩ := masked
  subst mode
  cases value <;> simp [encodeCell, personal, isNullValue]

/-- Masks that are the same are shown as the same cell. -/
theorem encodeCell_sameMask {column : DatabaseExplorerColumn} {select : List String}
    {left right : Row V} (masked : isMasked piiMode column)
    (same : SameMask worker column (left column.name) (right column.name)) :
    encodeCell worker.cells column (worker.server.project select left column.name) piiMode =
      encodeCell worker.cells column (worker.server.project select right column.name) piiMode := by
  rw [project, project]
  split
  · rw [SameMask] at same
    cases one : left column.name with
    | none =>
      cases two : right column.name with
      | none => rfl
      | some value =>
        rw [one, two] at same
        cases same
    | some value =>
      cases two : right column.name with
      | none =>
        rw [one, two] at same
        cases same
      | some value' =>
        rw [one, two] at same
        have masks : shownMask worker column value = shownMask worker column value' :=
          Option.some.inj same
        rw [shownMask, shownMask] at masks
        rw [encodeCell_masked worker.cells masked, encodeCell_masked worker.cells masked]
        split_ifs at masks ⊢ with _ _
        · rfl
        · rw [Option.some.inj masks]
  · rfl

/-- Each cell of rows that agree is the same. -/
theorem encodeCell_agree {left right : Row V}
    (agree : RowsAgree worker relation piiMode exact left right) (select : List String)
    {column : DatabaseExplorerColumn} (member : column ∈ relation.columns) :
    encodeCell worker.cells column (worker.server.project select left column.name) piiMode =
      encodeCell worker.cells column (worker.server.project select right column.name) piiMode := by
  by_cases hidden : column.classification = .blocked
  · unfold encodeCell
    rw [if_pos hidden, if_pos hidden]
  · have here := agree column member hidden
    split at here
    · next masked => exact encodeCell_sameMask masked.1 here
    · rw [project, project, here]

/-- Rows that agree are shown alike. -/
theorem shownAlike_of_agree {left right : Row V}
    (agree : RowsAgree worker relation piiMode exact left right) (select : List String) :
    ShownAlike worker relation piiMode exact (worker.server.project select left)
      (worker.server.project select right) where
  cells := by
    have each : ∀ columns ⊆ relation.columns,
        (columns.mapM fun column => (encodeCell worker.cells column
          (worker.server.project select left column.name) piiMode).map
            fun cell => (column.name, cell)) =
          columns.mapM fun column => (encodeCell worker.cells column
            (worker.server.project select right column.name) piiMode).map
              fun cell => (column.name, cell) := by
      intro columns inside
      induction columns with
      | nil => rfl
      | cons column columns ih =>
        obtain ⟨here, rest⟩ := List.cons_subset.mp inside
        rw [List.mapM_cons, List.mapM_cons, encodeCell_agree agree select here, ih rest]
    exact each _ (List.Subset.refl _)
  equal := by
    intro column listed shown
    rw [project, project, agree.equal_of_isShown shown listed]

end Answers

/-- Related contents answer a query with related rows, when its conditions and its order do not
tell related rows apart. -/
theorem run_related [LinearOrder V] [JsonRuntime ν] (server : SqlServer ν V)
    {database database' : Database V} {query : RowsQuery} {values : List (PgValue ν)}
    (related : Row V → Row V → Prop) {shown : ResultRow ν → ResultRow ν → Prop}
    (dataType : (database.table query.schema query.relation).dataType =
      (database'.table query.schema query.relation).dataType)
    (rows : List.Forall₂ related (database.table query.schema query.relation).rows
      (database'.table query.schema query.relation).rows)
    (conditions : ∀ left right, related left right → ∀ predicate ∈ query.predicates,
      Alike left right predicate)
    (order : ∀ left right, related left right → ∀ item ∈ query.orderBy,
      left item.1 = right item.1)
    (project : ∀ left right, related left right →
      shown (server.project query.select left) (server.project query.select right)) :
    Option.Rel (List.Forall₂ shown) (server.run database query values)
      (server.run database' query values) := by
  unfold run
  dsimp only
  rw [dataType]
  split
  · exact Option.Rel.none
  · next offset _ =>
    split
    · apply Option.Rel.some
      have kept : List.Forall₂ related
          ((database.table query.schema query.relation).rows.filter fun row =>
            query.predicates.all (server.holds
              (database'.table query.schema query.relation).dataType (valueAt values) row))
          ((database'.table query.schema query.relation).rows.filter fun row =>
            query.predicates.all (server.holds
              (database'.table query.schema query.relation).dataType (valueAt values) row)) := by
        refine List.rel_filter (fun {left right} same => ?_) rows
        dsimp only
        rw [all_eq_true, all_eq_true]
        refine forall₂_congr fun predicate member => ?_
        rw [holds, holds,
          truth_alike server _ _ (conditions left right same predicate member)]
      rw [List.forall₂_map_left_iff, List.forall₂_map_right_iff]
      refine (List.forall₂_take _ (List.forall₂_drop _
        (Sql.orderRows_related ?_ kept))).imp project
      intro left right same column member
      obtain ⟨item, listed, rfl⟩ := mem_map.mp member
      exact order left right same item listed
    · exact Option.Rel.none

/-! ## The response -/

/-- The last items of related lists are related. -/
theorem getLast?_related {α β : Type} {related : α → β → Prop} {left : List α} {right : List β}
    (pairs : List.Forall₂ related left right) :
    Option.Rel related left.getLast? right.getLast? := by
  rw [← List.head?_reverse, ← List.head?_reverse]
  have backwards := List.forall₂_reverse_iff.mpr pairs
  generalize left.reverse = first, right.reverse = second at backwards
  cases backwards with
  | nil => exact Option.Rel.none
  | cons same _ => exact Option.Rel.some same

section Responses

variable [JsonRuntime ν] {worker : Worker ν V} {call : Call ν}
  {snapshot : DatabaseExplorerSchemaSnapshot} {trusted : List (TrustedEquality ν)}
  {request : DatabaseRowsRequest} {relation : DatabaseExplorerRelation}
  {rows rows' : List (ResultRow ν)}

/-- The cursor after rows that are shown alike is the same. -/
theorem nextCursorOf_alike (kept : PolicyKept relation)
    (sorted : ∀ sort, request.sort = some sort →
      ∃ column ∈ selectableColumns relation, column.name = sort.column)
    (decoded : Option (CursorData ν))
    (alike : List.Forall₂ (ShownAlike worker relation request.piiMode
      (comparedColumns snapshot trusted request relation)) rows rows') :
    nextCursorOf worker call snapshot relation request decoded rows =
      nextCursorOf worker call snapshot relation request decoded rows' := by
  unfold nextCursorOf
  rw [alike.length_eq]
  split
  · have lasts := getLast?_related (List.forall₂_take request.pageSize alike)
    generalize (rows.take request.pageSize).getLast? = last,
      (rows'.take request.pageSize).getLast? = last' at lasts
    cases lasts with
    | none => rfl
    | @some last last' same =>
      cases stable : stableKey relation with
      | none => rfl
      | some key =>
        have keyed : relation.paginationKey = some key := paginationKey_of_stable stable
        have keys : cursorKeys request.sort key last = cursorKeys request.sort key last' := by
          refine List.map_congr_left fun column member => ?_
          have compared : IsShown relation column ∧
              column ∈ comparedColumns snapshot trusted request relation := by
            rcases mem_getCursorKeyColumns member with sort | part
            · exact sort_compared sorted sort
            · exact key_compared kept keyed part
          rw [same.equal column compared.2 compared.1]
        dsimp only
        rw [keysetCursor, keysetCursor, keys]
  · rfl

/-- Rows that are shown alike are encoded alike, with the same row references. -/
theorem encodePageRows_alike (index : Nat)
    (alike : List.Forall₂ (ShownAlike worker relation request.piiMode
      (comparedColumns snapshot trusted request relation)) rows rows') :
    encodePageRows worker call snapshot relation request index rows =
      encodePageRows worker call snapshot relation request index rows' := by
  induction alike generalizing index with
  | nil => rfl
  | @cons row row' rest rest' same others ih =>
    have references : ((getRowRefColumns request.schema request.relation relation.columns
          relation.paginationKey snapshot.edges).bind fun columns =>
            call.encodeRowRef index (requestContext worker.target snapshot request)
              (columns.map fun column => (column, row column))) =
        (getRowRefColumns request.schema request.relation relation.columns
          relation.paginationKey snapshot.edges).bind fun columns =>
            call.encodeRowRef index (requestContext worker.target snapshot request)
              (columns.map fun column => (column, row' column)) := by
      cases found : getRowRefColumns request.schema request.relation relation.columns
          relation.paginationKey snapshot.edges with
      | none => rfl
      | some columns =>
        have values : (columns.map fun column => (column, row column)) =
            columns.map fun column => (column, row' column) := by
          refine List.map_congr_left fun column member => ?_
          rw [same.equal column (rowRef_compared found column member)
            ((getRowRefColumns_shown found).2 column member)]
        rw [Option.bind_some, Option.bind_some, values]
    rw [encodePageRows, encodePageRows, same.cells, ih (index + 1), references]

/-- Rows that are shown alike have the same response. -/
theorem respond_alike (kept : PolicyKept relation)
    (sorted : ∀ sort, request.sort = some sort →
      ∃ column ∈ selectableColumns relation, column.name = sort.column)
    (decoded : Option (CursorData ν))
    (alike : List.Forall₂ (ShownAlike worker relation request.piiMode
      (comparedColumns snapshot trusted request relation)) rows rows') :
    respond worker call snapshot relation request decoded rows =
      respond worker call snapshot relation request decoded rows' := by
  unfold respond
  rw [nextCursorOf_alike kept sorted decoded alike,
    encodePageRows_alike 0 (List.forall₂_take request.pageSize alike)]

end Responses

/-! ## One request of two contents -/

section Requests

variable {worker : Worker ν V} {call : Call ν}
  {snapshot : DatabaseExplorerSchemaSnapshot} {trusted : List (TrustedEquality ν)}
  {request : DatabaseRowsRequest} {relation : DatabaseExplorerRelation}

/-- Rows that agree look the same to the conditions of a request. -/
theorem checked_alike {exact : List String} {checked : CheckedQuery ν} {left right : Row V}
    (accepted : checkRowsQuery snapshot request trusted = .ok checked)
    (filters : ∀ filter ∈ request.filters, comparesValue filter → filter.column ∈ exact)
    (equalities : ∀ equality ∈ trusted, equality.column ∈ exact)
    (agree : RowsAgree worker checked.relation request.piiMode exact left right) :
    ∀ predicate ∈ checked.predicates, Alike left right predicate := by
  obtain ⟨-, -, filtered, tied, first, second, predicates, -⟩ := checkRowsQuery_built accepted
  intro predicate member
  rw [predicates] at member
  rcases mem_append.mp member with filter | equality
  · rw [buildFilterSql] at first
    split_ifs at first
    exact buildFilters_alike agree first filters predicate filter
  · exact buildTrusted_alike agree second equalities predicate equality

/-- Numbering the tags of a query's conditions leaves what they read. -/
theorem finalQuery_alike {built : BuiltRowsQuery ν} {cursorCondition : Option (CursorCondition ν)}
    {left right : Row V}
    (alike : ∀ predicate ∈ built.query.predicates, Alike left right predicate) :
    ∀ predicate ∈ (finalQuery built cursorCondition).predicates, Alike left right predicate := by
  cases cursorCondition with
  | none => exact alike
  | some condition =>
    intro predicate member
    obtain ⟨original, known, rfl⟩ := mem_map.mp member
    exact (alike_numberTags ..).mpr (alike original known)

/-- The columns of a request's order are shown, and among those that must be equal. -/
theorem order_compared (kept : PolicyKept relation)
    (sorted : ∀ sort, request.sort = some sort →
      ∃ column ∈ selectableColumns relation, column.name = sort.column)
    {item : String × Direction}
    (member : item ∈ orderItems request.sort relation.paginationKey) :
    IsShown relation item.1 ∧ item.1 ∈ comparedColumns snapshot trusted request relation := by
  rcases mem_append.mp member with sort | part
  · obtain ⟨definition, requested, rfl⟩ := Option.map_eq_some_iff.mp (Option.mem_toList.mp sort)
    exact sort_compared sorted (by rw [requested]; rfl)
  · obtain ⟨column, fresh, rfl⟩ := mem_map.mp part
    have known := List.mem_of_mem_filter fresh
    cases keyed : relation.paginationKey with
    | none =>
      rw [keyed] at known
      cases known
    | some key =>
      rw [keyed] at known
      exact key_compared kept keyed known

variable [JsonRuntime ν]

/-- The columns of an accepted cursor's key are those of the order. -/
theorem readCursor_keys {decoded : CursorData ν} {keys : List (CursorKey ν)}
    (accepted : readCursor worker call snapshot relation request = .ok (some decoded))
    (positioned : decoded.position = .keyset keys) :
    ∃ key, relation.paginationKey = some key ∧
      keys.map CursorKey.column = getCursorKeyColumns request.sort key := by
  unfold readCursor at accepted
  split at accepted
  · cases accepted
  · cases accepted
  · split at accepted
    · cases accepted
    · split_ifs at accepted
      split at accepted
      · next other =>
        cases accepted
        rw [positioned] at other
        cases other
      · next other =>
        split at accepted
        · cases accepted
        · next key stable =>
          split_ifs at accepted with columns
          cases accepted
          rw [positioned] at other
          cases other
          exact ⟨key, paginationKey_of_stable stable, columns⟩

/-- Rows that agree look the same to the condition of a request's cursor. -/
theorem cursorCondition_alike (kept : PolicyKept relation)
    (sorted : ∀ sort, request.sort = some sort →
      ∃ column ∈ selectableColumns relation, column.name = sort.column)
    {decoded : Option (CursorData ν)}
    (accepted : readCursor worker call snapshot relation request = .ok decoded)
    {left right : Row V}
    (agree : RowsAgree worker relation request.piiMode
      (comparedColumns snapshot trusted request relation) left right)
    {condition : CursorCondition ν} (built : cursorConditionOf request decoded = some condition) :
    Alike left right condition.predicate := by
  unfold cursorConditionOf at built
  split at built
  · next context issuedAt expiresAt sort keys =>
    cases built
    obtain ⟨key, keyed, columns⟩ := readCursor_keys accepted rfl
    refine alike_buildKeysetCondition _ fun entry member => ?_
    have listed : entry.column ∈ getCursorKeyColumns request.sort key :=
      columns ▸ List.mem_map_of_mem member
    have compared : IsShown relation entry.column ∧
        entry.column ∈ comparedColumns snapshot trusted request relation := by
      rcases mem_getCursorKeyColumns listed with sort | part
      · exact sort_compared sorted sort
      · exact key_compared kept keyed part
    exact agree.equal_of_isShown compared.1 compared.2
  · cases built

/-- What a built query is. -/
theorem buildRowsQuery_ok {cursorCondition : Option (CursorCondition ν)} {offset : Option Int}
    {built : BuiltRowsQuery ν}
    (succeeds : buildRowsQuery snapshot request trusted cursorCondition offset = .ok built) :
    ∃ checked, checkRowsQuery snapshot request trusted = .ok checked ∧
      built.query.schema = request.schema ∧ built.query.relation = request.relation ∧
      built.query.predicates =
        checked.predicates ++ (cursorCondition.map CursorCondition.predicate).toList ∧
      built.query.orderBy = orderItems request.sort checked.relation.paginationKey := by
  unfold buildRowsQuery at succeeds
  split at succeeds
  · cases succeeds
  · next checked accepted =>
    refine ⟨checked, accepted, ?_⟩
    split at succeeds
    · cases succeeds
      exact ⟨rfl, rfl, rfl, rfl⟩
    · split_ifs at succeeds
      · cases succeeds
        exact ⟨rfl, rfl, rfl, rfl⟩
      · cases succeeds
        exact ⟨rfl, rfl, rfl, rfl⟩

variable [LinearOrder V]

/-- One query of two contents that agree is answered with rows that are shown alike. -/
theorem run_indistinguishable (kept : PolicyKept relation)
    (found : findRelation snapshot request.schema request.relation = .ok relation)
    {decoded : Option (CursorData ν)}
    (opened : readCursor worker call snapshot relation request = .ok decoded)
    {offset : Option Int} {built : BuiltRowsQuery ν}
    (succeeds : buildRowsQuery snapshot request trusted (cursorConditionOf request decoded) offset =
      .ok built)
    {database database' : Database V}
    (same : Indistinguishable worker snapshot request (comparedColumns snapshot trusted request)
      database database') :
    (∀ sort, request.sort = some sort →
      ∃ column ∈ selectableColumns relation, column.name = sort.column) ∧
    Option.Rel (List.Forall₂ (ShownAlike worker relation request.piiMode
        (comparedColumns snapshot trusted request relation)))
      (worker.server.run database (finalQuery built (cursorConditionOf request decoded))
        built.values)
      (worker.server.run database' (finalQuery built (cursorConditionOf request decoded))
        built.values) := by
  obtain ⟨checked, accepted, schema, name, predicates, order⟩ := buildRowsQuery_ok succeeds
  obtain ⟨known, sorted, -⟩ := checkRowsQuery_built accepted
  cases found.symm.trans known
  refine ⟨sorted, ?_⟩
  have target : (finalQuery built (cursorConditionOf request decoded)).schema = request.schema ∧
      (finalQuery built (cursorConditionOf request decoded)).relation = request.relation ∧
      (finalQuery built (cursorConditionOf request decoded)).orderBy = built.query.orderBy := by
    cases cursorConditionOf request decoded with
    | none => exact ⟨schema, name, rfl⟩
    | some condition => exact ⟨schema, name, rfl⟩
  obtain ⟨schema', name', order'⟩ := target
  refine run_related worker.server (RowsAgree worker checked.relation request.piiMode
    (comparedColumns snapshot trusted request checked.relation)) ?_ ?_ ?_ ?_ ?_
  · rw [schema', name']
    exact same.dataType
  · rw [schema', name']
    exact same.rows checked.relation known
  · intro left right agree
    refine finalQuery_alike fun predicate member => ?_
    rw [predicates] at member
    rcases mem_append.mp member with condition | cursor
    · refine checked_alike accepted (fun filter listed compares => ?_)
        (fun equality listed => ?_) agree predicate condition
      · exact mem_append_left _ (mem_append_left _ (mem_append_left _
          (List.mem_map_of_mem (mem_filter.mpr ⟨listed, compares⟩))))
      · exact mem_append_left _ (mem_append_left _ (List.mem_append_right _
          (List.mem_map_of_mem listed)))
    · obtain ⟨condition, made, rfl⟩ := Option.map_eq_some_iff.mp (Option.mem_toList.mp cursor)
      exact cursorCondition_alike kept sorted opened agree made
  · intro left right agree item member
    rw [order', order] at member
    obtain ⟨shown, listed⟩ := order_compared kept sorted member
    exact agree.equal_of_isShown shown listed
  · intro left right agree
    exact shownAlike_of_agree agree _

/-- Every relation of a snapshot keeps to the policy. -/
theorem readSchema_kept {reader : SchemaReader} {catalog : Catalog}
    {approval : Option DatabasePolicyApproval} {schema name : String}
    {relation : DatabaseExplorerRelation}
    (found : findRelation (readSchema reader catalog approval) schema name = .ok relation) :
    PolicyKept relation := by
  unfold findRelation at found
  split at found
  · cases found
  · next stored listed =>
    split at found
    · cases found
    · next entry member =>
      cases found
      obtain ⟨source, -, rfl⟩ := mem_map.mp (List.mem_of_find?_eq_some listed)
      obtain ⟨original, -, rfl⟩ := mem_map.mp (List.mem_of_find?_eq_some member)
      exact explorerRelation_kept ..

/-- A request is answered alike from two contents of a database that agree on all columns that
are not blocked: on the masks of the masked columns that it neither compares nor puts into a
token, and on the values of the others. -/
theorem readDatabaseRows_indistinguishable (worker : Worker ν V) (call : Call ν)
    (reader : SchemaReader) (catalog : Catalog) (approval : Option DatabasePolicyApproval)
    (trusted : List (TrustedEquality ν)) (request : DatabaseRowsRequest)
    (database database' : Database V)
    (same : Indistinguishable worker (readSchema reader catalog approval) request
      (comparedColumns (readSchema reader catalog approval) trusted request) database database') :
    readDatabaseRows worker database call (readSchema reader catalog approval) trusted request =
      readDatabaseRows worker database' call (readSchema reader catalog approval) trusted
        request := by
  unfold readDatabaseRows
  cases requested : requestedRelation worker (readSchema reader catalog approval) request with
  | error error => rfl
  | ok relation =>
    have found := requestedRelation_found requested
    have kept := readSchema_kept found
    dsimp only
    cases opened : readCursor worker call (readSchema reader catalog approval) relation request with
    | error error => rfl
    | ok decoded =>
      unfold queryPage
      dsimp only
      cases built : buildRowsQuery (readSchema reader catalog approval) request trusted
          (cursorConditionOf request decoded) (cursorOffset decoded) with
      | error error => rfl
      | ok query =>
        dsimp only
        obtain ⟨sorted, answers⟩ := run_indistinguishable kept found opened built same
        rw [same.checksum]
        split
        · rfl
        · generalize worker.server.run database _ _ = answer,
            worker.server.run database' _ _ = answer' at answers
          cases answers with
          | none => rfl
          | some alike => exact respond_alike kept sorted decoded alike

end Requests

/-! ## A table of people -/

/-- A reader whose policy masks `email` and blocks `password_hash`. -/
def peopleReader : SchemaReader where
  target := .ops
  policyVersion := "2026-09-25-v2"
  classifyColumn _ _ _ column :=
    if column = "email" then .pii else if column = "password_hash" then .blocked else .internal
  localeCompare left right := if left = right then 0 else if left < right then -1 else 1

variable (key : List String)

/-- The relation `people`, by its primary key. -/
def peopleRelation : ProductionRelation where
  name := "people"
  kind := .table
  columns := [⟨"id", "text", false⟩, ⟨"email", "text", false⟩, ⟨"password_hash", "text", false⟩]
  constraints := [⟨"people_pkey", .primaryKey, key, none⟩]
  indexes := []

def peopleCatalog : Catalog where
  checksum := "c1"
  schemas := [⟨"public", [peopleRelation key]⟩]
  isEnum _ _ _ := false

def peopleApproval : DatabasePolicyApproval where
  version := "2026-09-25-v2"
  targets _ := some "c1"

def peopleSnapshot : DatabaseExplorerSchemaSnapshot :=
  readSchema peopleReader (peopleCatalog key) (some peopleApproval)

def peopleWorker : Worker Int Nat :=
  { notesWorker with cells := { notesWorker.cells with maskPiiValue := fun _ _ => "••••••" } }

/-- A call whose row references are their plain texts. -/
def peopleCall : Call Int :=
  { notesCalls 0 with
    encodeRowRef := fun _ _ keys =>
      some (Json.render (.object (keys.map fun key => (key.1, key.2.toJson)))) }

def peopleRequest : DatabaseRowsRequest := { notesRequest with relation := "people" }

/-- A person with an id, an email and a password. -/
def person (id email password : Nat) : Row Nat := fun column =>
  if column = "id" then some id
  else if column = "email" then some email
  else if column = "password_hash" then some password
  else none

def peopleDatabase (people : List (Row Nat)) : Database Nat where
  checksum := "c1"
  table _ _ := ⟨fun _ => "text", people⟩

def firstPeople : Database Nat := peopleDatabase [person 1 1 1, person 2 2 2]

def secondPeople : Database Nat := peopleDatabase [person 1 2 3, person 2 1 4]

def peopleView : DatabaseExplorerRelation :=
  explorerRelation peopleReader (peopleCatalog key) true "public" (peopleRelation key)

/-- Rows of people with the same id agree, as long as their emails need not be equal: all emails
have one mask. -/
theorem people_agree {exact : List String} (free : "email" ∉ exact)
    (id email password email' password' : Nat) :
    RowsAgree peopleWorker (peopleView key) .masked exact (person id email password)
      (person id email' password') := by
  intro column member visible
  obtain ⟨entry, listed, rfl⟩ := mem_map.mp member
  rcases mem_cons.mp listed with rfl | listed
  · rw [if_neg fun masked => Bool.noConfusion masked.1]
    rfl
  · rcases mem_cons.mp listed with rfl | listed
    · rw [if_pos ⟨rfl, free⟩]
      rfl
    · rw [List.mem_singleton.mp listed] at visible
      exact absurd rfl visible

/-- The two contents agree on what is shown of people, as long as emails need not be equal. -/
theorem people_indistinguishable {request : DatabaseRowsRequest}
    {exact : DatabaseExplorerRelation → List String} (schema : request.schema = "public")
    (relation : request.relation = "people") (masked : request.piiMode = .masked)
    (free : "email" ∉ exact (peopleView key)) :
    Indistinguishable peopleWorker (peopleSnapshot key) request exact firstPeople
      secondPeople where
  checksum := rfl
  dataType := rfl
  rows := by
    intro found listed
    rw [schema, relation] at listed
    cases listed
    rw [masked]
    exact List.Forall₂.cons (people_agree key free 1 1 1 2 3)
      (List.Forall₂.cons (people_agree key free 2 2 2 1 4) List.Forall₂.nil)

/-- The texts of the rows of a response. -/
def rowTexts (answer : Except ReadFailure (DatabaseRowsResponse Int)) : List String :=
  match answer with
  | .ok response => response.rows.map fun row => Json.render row.toJson
  | .error _ => []

/-- A request is answered differently from the two contents of `people`, though these agree on
every mask and on the columns that are neither masked nor blocked. -/
def TellsApart (trusted : List (TrustedEquality Int)) (request : DatabaseRowsRequest) : Prop :=
  Indistinguishable peopleWorker (peopleSnapshot key) request (fun _ => []) firstPeople
      secondPeople ∧
    readDatabaseRows peopleWorker firstPeople peopleCall (peopleSnapshot key) trusted request ≠
      readDatabaseRows peopleWorker secondPeople peopleCall (peopleSnapshot key) trusted request

theorem answers_ne {left right : Except ReadFailure (DatabaseRowsResponse Int)}
    (different : rowTexts left ≠ rowTexts right) : left ≠ right :=
  fun same => different (congrArg rowTexts same)

/-- Masked emails with the same masks are told apart by sorting on them, by a filter, by a
trusted equality, and when they are the key that a row reference carries. -/
theorem masked_emails_observed :
    TellsApart ["id"] [] { peopleRequest with sort := some ⟨"email", .asc⟩ } ∧
      TellsApart ["id"] [] { peopleRequest with filters := [⟨"email", .eq, some "a"⟩] } ∧
      TellsApart ["id"] [⟨"email", .string "a"⟩] peopleRequest ∧
      TellsApart ["email"] [] peopleRequest := by
  refine ⟨⟨people_indistinguishable _ rfl rfl rfl not_mem_nil, answers_ne ?_⟩,
    ⟨people_indistinguishable _ rfl rfl rfl not_mem_nil, answers_ne ?_⟩,
    ⟨people_indistinguishable _ rfl rfl rfl not_mem_nil, answers_ne ?_⟩,
    ⟨people_indistinguishable _ rfl rfl rfl not_mem_nil, answers_ne ?_⟩⟩
  · decide +kernel
  · decide +kernel
  · decide +kernel
  · decide +kernel

/-- Without a comparison of the emails, the two contents of `people` are answered alike. -/
theorem people_answered :
    readDatabaseRows peopleWorker firstPeople peopleCall (peopleSnapshot ["id"]) [] peopleRequest =
      readDatabaseRows peopleWorker secondPeople peopleCall (peopleSnapshot ["id"]) []
        peopleRequest := by
  have free : "email" ∉
      comparedColumns (ν := Int) (peopleSnapshot ["id"]) [] peopleRequest (peopleView ["id"]) := by
    decide +kernel
  exact readDatabaseRows_indistinguishable peopleWorker peopleCall peopleReader
    (peopleCatalog ["id"]) (some peopleApproval) [] peopleRequest firstPeople secondPeople
    (people_indistinguishable ["id"] rfl rfl rfl free)

end NancyMan.Explorer
